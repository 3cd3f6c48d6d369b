import WorkflowAugment.Proofs.Json.Denoting
import WorkflowAugment.Proofs.Settings
import WorkflowAugment.Settings.Logging

/-!
# What settles the log

The environment and documents say in words how to log: a layout is named in any letter case and with white space around it
(`LogLayout.NamedBy`), a filter is given by a text that can be read as one (`LogFilter.GivenBy`), and everything may be left out.
Settings come from nowhere else, so their filter can always be read again, and so can their document (`LogSettings.settled`).
-/

namespace WorkflowAugment

/-! ## White space around a word -/

namespace Text

/-- The text has nothing but white space around the core. -/
def Padded (core s : List Char) : Prop :=
  ∃ before after, s = before ++ core ++ after ∧ (∀ c ∈ before, isBlank c) ∧ ∀ c ∈ after, isBlank c

/-- What is left of a text that is trimmed had nothing but white space around it. -/
theorem padded_trim (s : List Char) : Padded (trim s) s := by
  refine ⟨s.takeWhile isBlank, ((trimStart s).reverse.takeWhile isBlank).reverse, ?_, ?_, ?_⟩
  · rw [List.append_assoc, trim, ← List.reverse_append, trimStart, trimStart, List.takeWhile_append_dropWhile,
      List.reverse_reverse, List.takeWhile_append_dropWhile]
  · exact fun c hc => List.mem_takeWhile_imp hc
  · exact fun c hc => List.mem_takeWhile_imp (List.mem_reverse.mp hc)

/-- White space at the start is taken away, and nothing behind it. -/
theorem trimStart_append {before s : List Char} (hbefore : ∀ c ∈ before, isBlank c) (hs : ∀ c ∈ s.head?, ¬isBlank c) :
    trimStart (before ++ s) = s := by
  rw [trimStart, List.dropWhile_append_of_pos hbefore]
  cases s with
  | nil => rfl
  | cons c s => exact List.dropWhile_cons_of_neg (hs c rfl)

/-- Of a text only the core is left if there is no white space in it. -/
theorem trim_eq_of_padded {core s : List Char} (h : Padded core s) (hne : core ≠ []) (hcore : ∀ c ∈ core, ¬isBlank c) :
    trim s = core := by
  obtain ⟨before, after, rfl, hbefore, hafter⟩ := h
  have hstart : ∀ c ∈ (core ++ after).head?, ¬isBlank c := by
    intro c hc
    rw [List.head?_append_of_ne_nil core hne] at hc
    exact hcore c (List.mem_of_mem_head? hc)
  have hend : ∀ c ∈ core.reverse.head?, ¬isBlank c := fun c hc => hcore c (List.mem_reverse.mp (List.mem_of_mem_head? hc))
  have hafter' : ∀ c ∈ after.reverse, isBlank c := fun c hc => hafter c (List.mem_reverse.mp hc)
  rw [trim, List.append_assoc, trimStart_append hbefore hstart, List.reverse_append, trimStart_append hafter' hend,
    List.reverse_reverse]

/-- A letter is no white space in capitals either. -/
theorem Small.not_isBlank {c d : Char} (h : Small c d) (hd : ¬isBlank d) : ¬isBlank c := by
  rw [Small] at h
  split at h
  · rename_i hc
    have hrange : 65 ≤ c.toNat ∧ c.toNat ≤ 90 := hc
    simp only [isBlank, Bool.or_eq_true, Bool.and_eq_true, decide_eq_true_eq]
    omega
  · rwa [← h]

end Text

/-! ## Layouts -/

namespace LogLayout

/-- The words for a layout. -/
def words : LogLayout → List String
  | .text => ["text", "pretty"]
  | .compact => ["compact"]
  | .json => ["json"]

/-- A text names a layout if it is a word for it, in capitals or small letters of ASCII and with white space around it. -/
def NamedBy (l : LogLayout) (raw : String) : Prop :=
  ∃ word ∈ l.words, ∃ core, Text.Padded core raw.toList ∧ List.Forall₂ Text.Small core word.toList

variable {l : LogLayout} {raw : String} {e : LogSettingsError}

/-- The words for layouts are not empty and have no white space in them. -/
theorem plain_of_mem_words {word : String} (h : word ∈ l.words) :
    word.toList ≠ [] ∧ ∀ c ∈ word.toList, ¬Text.isBlank c := by
  revert word
  cases l <;> simp [words, Text.isBlank]

/-- The layout that a text names is found by trimming it and making its capitals small. -/
theorem namedBy_iff : l.NamedBy raw ↔ String.ofList (Text.lowerAscii (Text.trim raw.toList)) ∈ l.words := by
  constructor
  · rintro ⟨word, hword, core, hpadded, hsmall⟩
    obtain ⟨hne, hplain⟩ := plain_of_mem_words hword
    have hcore : core ≠ [] := by
      rintro rfl
      exact hne (List.forall₂_nil_left_iff.mp hsmall)
    have hcore' : ∀ c ∈ core, ¬Text.isBlank c := by
      intro c hc
      have hmem : c.toLower ∈ word.toList := by
        rw [← Text.lowerAscii_eq_iff.mpr hsmall]
        exact List.mem_map_of_mem hc
      exact (Text.toLower_eq_iff.mp rfl).not_isBlank (hplain _ hmem)
    rw [Text.trim_eq_of_padded hpadded hcore hcore', Text.lowerAscii_eq_iff.mpr hsmall, String.ofList_toList]
    exact hword
  · intro h
    exact ⟨_, h, _, Text.padded_trim _, Text.lowerAscii_eq_iff.mp (String.toList_ofList).symm⟩

/-- A text is read as the layout that it names. -/
theorem ofText_eq_ok_iff : ofText raw = .ok l ↔ l.NamedBy raw := by
  rw [namedBy_iff, ofText]
  generalize String.ofList (Text.lowerAscii (Text.trim raw.toList)) = s
  cases l <;> grind [words]

/-- The error carries the text as it is, with the white space around it. -/
theorem eq_format_of_error (h : ofText raw = .error e) : e = .format raw := by
  simp only [ofText] at h
  split_ifs at h
  exact (Except.error.inj h).symm

/-- A text that names no layout is an error with the text as it stands. -/
theorem ofText_eq_error_iff : ofText raw = .error e ↔ (∀ l : LogLayout, ¬l.NamedBy raw) ∧ e = .format raw := by
  simp only [← ofText_eq_ok_iff]
  constructor
  · intro h
    refine ⟨fun l hl => ?_, eq_format_of_error h⟩
    rw [h] at hl
    nomatch hl
  · rintro ⟨hnone, rfl⟩
    cases hread : ofText raw with
    | ok l => exact absurd hread (hnone l)
    | error e => rw [eq_format_of_error hread]

example : ofText " Pretty\t" = .ok .text ∧ ofText " xml " = .error (.format " xml ") := by decide

/-- There is no complaint about a text just if it names a layout. -/
theorem complaint?_eq_none_iff (raw : String) : complaint? raw = none ↔ ∃ l : LogLayout, l.NamedBy raw := by
  simp only [← ofText_eq_ok_iff]
  rw [complaint?]
  cases ofText raw <;> simp

/-- The name of a layout names it. -/
theorem namedBy_name (l : LogLayout) : l.NamedBy l.name := by
  rw [← ofText_eq_ok_iff]
  cases l <;> decide

/-- The codec reads a layout off a text that names it. -/
theorem denotes : codec.Denotes (Worded NamedBy) 0 :=
  .checked rfl complaint?_eq_none_iff fun ps l h => by
    simp only [codec, ofText_eq_ok_iff.mpr h]
    rfl

/-- What is written for a layout gives it back. -/
theorem restores (l : LogLayout) : codec.Restores l :=
  denotes.restores rfl ⟨_, Tree.spells_toTree_string l.name, l.namedBy_name⟩

end LogLayout

/-! ## Filters -/

namespace LogFilter

/-- A filter is given by its text if the text can be read as the filter. -/
def GivenBy (f : LogFilter) (raw : String) : Prop := Filter.ofText raw = .ok f.filter ∧ f.text = raw

variable {f : LogFilter} {raw : String} {e : LogSettingsError}

/-- A text is read as the filter that it gives, and is kept with it. -/
theorem ofText_eq_ok_iff : ofText raw = .ok f ↔ f.GivenBy raw := by
  rw [ofText]
  split
  · rename_i g hg
    constructor
    · rintro ⟨⟩
      exact ⟨hg, rfl⟩
    · rintro ⟨-, rfl⟩
      exact congrArg Except.ok (ext rfl)
  · rename_i cause hcause
    constructor
    · nofun
    · rintro ⟨hreads, -⟩
      rw [hcause] at hreads
      nomatch hreads

/-- A text gives a filter if it can be read as one. -/
theorem exists_givenBy_iff : (∃ f : LogFilter, f.GivenBy raw) ↔ ∃ f, Filter.ofText raw = .ok f := by
  constructor
  · rintro ⟨f, hf, -⟩
    exact ⟨f.filter, hf⟩
  · rintro ⟨f, hf⟩
    exact ⟨⟨raw, f, hf⟩, hf, rfl⟩

/-- The error carries the text as it is, and why it is no filter. -/
theorem ofText_eq_error_iff : ofText raw = .error e ↔ ∃ cause, Filter.ofText raw = .error cause ∧ e = .level raw cause := by
  rw [ofText]
  split
  · rename_i g hg
    simp [hg]
  · rename_i cause hcause
    simp [hcause, eq_comm]

/-- There is no complaint about a text just if it gives a filter. -/
theorem complaint?_eq_none_iff (raw : String) : complaint? raw = none ↔ ∃ f : LogFilter, f.GivenBy raw := by
  simp only [← ofText_eq_ok_iff]
  rw [complaint?]
  cases ofText raw <;> simp

/-- The codec reads a filter off a text that gives it. -/
theorem denotes : codec.Denotes (Worded GivenBy) 0 :=
  .checked rfl complaint?_eq_none_iff fun ps f h => by
    simp only [codec, ofText_eq_ok_iff.mpr h]
    rfl

/-- What is written for a filter gives it back, to the letter. -/
theorem restores (f : LogFilter) : codec.Restores f :=
  denotes.restores rfl ⟨_, Tree.spells_toTree_string f.text, f.reads, rfl⟩

/-- The text can be read again, so nothing is ever taken in place of the filter. -/
theorem getD_toOption_eq (f : LogFilter) (fallback : Filter) : (Filter.ofText f.text).toOption.getD fallback = f.filter := by
  rw [f.reads]
  rfl

end LogFilter

/-! ## The settings -/

section Default

variable {α β ε : Type} {f : β → Except ε α} {d a : α} {o : Option β} {e : ε}

/-- Without a text there is the default, and else what is made of the text. -/
theorem elim_eq_ok_iff : o.elim (.ok d) f = .ok a ↔ OrDefault (fun a b => f b = .ok a) d a o := by
  cases o with
  | none =>
    rw [orDefault_none_iff, Option.elim_none, Except.ok.injEq]
    exact eq_comm
  | some b => rw [orDefault_some_iff, Option.elim_some]

/-- Something comes of a text that may be missing if something does where it is there. -/
theorem exists_elim_eq_ok_iff : (∃ a, o.elim (.ok d) f = .ok a) ↔ ∀ b ∈ o, ∃ a, f b = .ok a := by
  cases o <;> simp

/-- An error comes of a text that is there only. -/
theorem elim_eq_error_iff : o.elim (.ok d) f = .error e ↔ ∃ b ∈ o, f b = .error e := by
  cases o <;> simp

end Default

namespace LogSettings

/-- The names of the fields in declared order. -/
def fieldNames : List String := ["format", "level", "with_targets", "use_color"]

/-- The settings are denoted by the values that are given for their fields. -/
structure Described (s : LogSettings) (given : List (String × Tree)) : Prop where
  layout : OrDefault (Worded LogLayout.NamedBy) .text s.layout (given.lookup "format")
  level : OrDefault (Worded LogFilter.GivenBy) .info s.level (given.lookup "level")
  withTargets : OrDefault (fun b t => t.Spells (.bool b)) true s.withTargets (given.lookup "with_targets")
  useColor : OrDefault (fun b t => t.Spells (.bool b)) true s.useColor (given.lookup "use_color")

/-- The settings are denoted by what the document gives for their fields. -/
def DenotedBy (s : LogSettings) (t : Tree) : Prop := ∃ given, t.Gives fieldNames given ∧ s.Described given

/-- The settings are what is set in the environment, where an empty variable counts as unset. -/
structure Resolves (env : Environment) (s : LogSettings) : Prop where
  layout : OrDefault LogLayout.NamedBy .text s.layout (env.nonempty? logFormatVariable)
  level : OrDefault LogFilter.GivenBy .info s.level (env.nonempty? logLevelVariable)
  withTargets : s.withTargets = true
  useColor : s.useColor = true ↔ env.nonempty? noColorVariable = none

/-- The codec reads settings off an object or an array with a layout, a filter and two truth values. -/
theorem denotes : codec.Denotes DenotedBy 1 := by
  refine .settings (.field (by decide) (.default LogLayout.denotes _ _) <|
    .field (by decide) (.default LogFilter.denotes _ _) <| .field (by decide) (.default .bool _ _) <|
    .field (by decide) (.default .bool _ _) .done) (fun _ => rfl) (fun _ => rfl) fun s given => ?_
  exact ⟨fun ⟨hlayout, hlevel, htargets, hcolor, _⟩ => ⟨hlayout, hlevel, htargets, hcolor⟩,
    fun h => ⟨h.layout, h.level, h.withTargets, h.useColor, trivial⟩⟩

/-- What is written for settings gives them back. -/
theorem restores (s : LogSettings) : codec.Restores s :=
  .settings (.field (by decide) (.default (LogLayout.restores _) nofun) <|
    .field (by decide) (.default (LogFilter.restores _) nofun) <| .field (by decide) (.default (.bool _) nofun) <|
    .field (by decide) (.default (.bool _) nofun) .done) rfl

/-- Settings are written with one level of nesting. -/
theorem within (s : LogSettings) : codec.Within 1 s := by
  have hlayout : LogLayout.codec.Within 0 s.layout := Nat.zero_le 0
  have hlevel : LogFilter.codec.Within 0 s.level := Nat.zero_le 0
  simp [codec, hlayout, hlevel]

variable {env : Environment} {s : LogSettings} {e : LogSettingsError}

/-- Only three variables are read. -/
theorem ofEnvironment_congr {env' : Environment}
    (h : ∀ name ∈ [logLevelVariable, logFormatVariable, noColorVariable], env name = env' name) :
    ofEnvironment env = ofEnvironment env' := by
  simp only [List.forall_mem_cons] at h
  obtain ⟨hlevel, hformat, hcolor, -⟩ := h
  simp only [ofEnvironment, Environment.nonempty?, hlevel, hformat, hcolor]

/-- The environment gives the settings that it resolves to. -/
theorem ofEnvironment_eq_ok_iff : ofEnvironment env = .ok s ↔ s.Resolves env := by
  have hlevel : (env.nonempty? logLevelVariable).elim (.ok standard.level) LogFilter.ofText = .ok s.level ↔
      OrDefault LogFilter.GivenBy .info s.level (env.nonempty? logLevelVariable) := by
    simp only [elim_eq_ok_iff, LogFilter.ofText_eq_ok_iff]
    rfl
  have hlayout : (env.nonempty? logFormatVariable).elim (.ok standard.layout) LogLayout.ofText = .ok s.layout ↔
      OrDefault LogLayout.NamedBy .text s.layout (env.nonempty? logFormatVariable) := by
    simp only [elim_eq_ok_iff, LogLayout.ofText_eq_ok_iff]
    rfl
  have hresolves : s.Resolves env ↔
      (OrDefault LogFilter.GivenBy .info s.level (env.nonempty? logLevelVariable) ∧
        OrDefault LogLayout.NamedBy .text s.layout (env.nonempty? logFormatVariable)) ∧
      s = { standard with level := s.level, layout := s.layout, useColor := (env.nonempty? noColorVariable).isNone } := by
    constructor
    · rintro ⟨hlayout, hlevel, htargets, hcolor⟩
      have hcolor' : s.useColor = (env.nonempty? noColorVariable).isNone := by
        rw [Bool.eq_iff_iff, hcolor, Option.isNone_iff_eq_none]
      refine ⟨⟨hlevel, hlayout⟩, ?_⟩
      rw [← hcolor']
      exact congrArg (LogSettings.mk s.layout s.level · s.useColor) htargets
    · rintro ⟨⟨hlevel, hlayout⟩, hs⟩
      refine ⟨hlayout, hlevel, congrArg withTargets hs, ?_⟩
      rw [congrArg useColor hs, Option.isNone_iff_eq_none]
  rw [hresolves, ← hlevel, ← hlayout, ofEnvironment]
  cases (env.nonempty? logLevelVariable).elim (.ok standard.level) LogFilter.ofText with
  | error e => exact ⟨nofun, nofun⟩
  | ok f =>
    cases (env.nonempty? logFormatVariable).elim (.ok standard.layout) LogLayout.ofText with
    | error e => exact ⟨nofun, nofun⟩
    | ok l =>
      constructor
      · rintro ⟨⟩
        exact ⟨⟨rfl, rfl⟩, rfl⟩
      · rintro ⟨⟨⟨⟩, ⟨⟩⟩, hs⟩
        exact congrArg Except.ok hs.symm

/-- The settings cannot be read if the filter that is set cannot, or else if what is set names no layout. -/
theorem ofEnvironment_eq_error_iff : ofEnvironment env = .error e ↔
    (∃ raw cause, env logLevelVariable = some raw ∧ raw ≠ "" ∧ Filter.ofText raw = .error cause ∧ e = .level raw cause) ∨
      (∀ raw, env logLevelVariable = some raw → raw ≠ "" → ∃ f, Filter.ofText raw = .ok f) ∧
        ∃ raw, env logFormatVariable = some raw ∧ raw ≠ "" ∧ (∀ l : LogLayout, ¬l.NamedBy raw) ∧ e = .format raw := by
  have hlevel : (env.nonempty? logLevelVariable).elim (.ok standard.level) LogFilter.ofText = .error e ↔
      ∃ raw cause, env logLevelVariable = some raw ∧ raw ≠ "" ∧ Filter.ofText raw = .error cause ∧ e = .level raw cause := by
    simp only [elim_eq_error_iff, Option.mem_def, Environment.nonempty?_eq_some_iff, LogFilter.ofText_eq_error_iff, and_assoc,
      exists_and_left]
  have hread : (∃ f, (env.nonempty? logLevelVariable).elim (.ok standard.level) LogFilter.ofText = .ok f) ↔
      ∀ raw, env logLevelVariable = some raw → raw ≠ "" → ∃ f, Filter.ofText raw = .ok f := by
    simp only [exists_elim_eq_ok_iff, Option.mem_def, Environment.nonempty?_eq_some_iff, LogFilter.ofText_eq_ok_iff,
      LogFilter.exists_givenBy_iff, and_imp]
  have hlayout : (env.nonempty? logFormatVariable).elim (.ok standard.layout) LogLayout.ofText = .error e ↔
      ∃ raw, env logFormatVariable = some raw ∧ raw ≠ "" ∧ (∀ l : LogLayout, ¬l.NamedBy raw) ∧ e = .format raw := by
    simp only [elim_eq_error_iff, Option.mem_def, Environment.nonempty?_eq_some_iff, LogLayout.ofText_eq_error_iff, and_assoc]
  rw [← hlevel, ← hread, ← hlayout, ofEnvironment]
  cases (env.nonempty? logLevelVariable).elim (.ok standard.level) LogFilter.ofText with
  | error e' =>
    constructor
    · rintro ⟨⟩
      exact .inl rfl
    · rintro (⟨⟨⟩⟩ | ⟨⟨f, ⟨⟩⟩, -⟩)
      rfl
  | ok f =>
    cases (env.nonempty? logFormatVariable).elim (.ok standard.layout) LogLayout.ofText with
    | error e' =>
      constructor
      · rintro ⟨⟩
        exact .inr ⟨⟨f, rfl⟩, rfl⟩
      · rintro (⟨⟨⟩⟩ | ⟨-, ⟨⟩⟩)
        rfl
    | ok l =>
      constructor
      · nofun
      · rintro (⟨⟨⟩⟩ | ⟨-, ⟨⟩⟩)

/-- How the log is settled. Whatever settings there are, the text of their filter is read as the filter, so nothing is ever taken
in its place, and what is written for them in both forms is read as them again, the text of the filter included. A text is read
as settings just where what it gives for the fields denotes them, with the standard for what is left out. The environment
settles the log just where the filter and the layout can be read that are set, if any are. Otherwise the error is that of the
filter if it has one, and else that of the layout, each with what is set as it is. Only three variables matter. -/
theorem settled :
    (∀ s : LogSettings, Filter.ofText s.level.text = .ok s.level.filter ∧
      (∀ fallback, (Filter.ofText s.level.text).toOption.getD fallback = s.level.filter) ∧
      ∀ isPretty, codec.read (codec.text isPretty s) = .ok s) ∧
    (∀ text s, codec.read text = .ok s ↔ ∃ t, t.ScannedFrom text ∧ s.DenotedBy t) ∧
    (∀ env s, ofEnvironment env = .ok s ↔ s.Resolves env) ∧
    (∀ env e, ofEnvironment env = .error e ↔
      (∃ raw cause, env logLevelVariable = some raw ∧ raw ≠ "" ∧ Filter.ofText raw = .error cause ∧ e = .level raw cause) ∨
        (∀ raw, env logLevelVariable = some raw → raw ≠ "" → ∃ f, Filter.ofText raw = .ok f) ∧
          ∃ raw, env logFormatVariable = some raw ∧ raw ≠ "" ∧ (∀ l : LogLayout, ¬l.NamedBy raw) ∧ e = .format raw) ∧
    ∀ env env', (∀ name ∈ [logLevelVariable, logFormatVariable, noColorVariable], env name = env' name) →
      ofEnvironment env = ofEnvironment env' := by
  have hroom : 1 ≤ maxDepth := by decide
  refine ⟨fun s => ⟨s.level.reads, s.level.getD_toOption_eq, ?_⟩, fun text s => denotes.read_eq_ok_iff hroom,
    fun env s => ofEnvironment_eq_ok_iff, fun env e => ofEnvironment_eq_error_iff, fun env env' => ofEnvironment_congr⟩
  exact (restores s).read_written ((within s).mono hroom)

end LogSettings

end WorkflowAugment
