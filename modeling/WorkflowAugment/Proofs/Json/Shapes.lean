import WorkflowAugment.Json.Codec
import WorkflowAugment.Proofs.Json.Trees

/-!
# What a shape asks of a document

A tree has no problem with a shape if it is complete, of the right kind, not nested too deep, and if its parts have no
problem with theirs: one equivalence for each kind of shape, which is all that the later modules know about
`Shape.problem?`. For an object that is to have certain fields, the conditions are gathered in `Fields.Fit`.
-/

namespace WorkflowAugment

/-! ## Items and members -/

/-- The items go on to the closing bracket. -/
def Items.Complete : Items → Prop
  | .close => True
  | .item _ tail => tail.Complete
  | .stop _ => False

/-- The members go on to the closing brace, and each name is a text. -/
def Members.Complete : Members → Prop
  | .close => True
  | .member name _ tail => (∃ s, Piece.text name = .ok s) ∧ tail.Complete
  | _ => False

/-- The names of the members in the order of the text. -/
def Members.names (members : Members) : List String := members.toList.map (·.1)

/-- Pieces that give a text spell it. -/
theorem Tree.spelled_of_text {ps : List Piece} {s : String} (h : Piece.text ps = .ok s) : Tree.spelled ps = s := by
  rw [Tree.spelled, h]
  rfl

/-- Items that are read by `read` have no problem if they are complete and none has one. -/
theorem Items.problem?_eq_none_iff {read : Tree → Option Problem} :
    ∀ {items : Items}, items.problem? read = none ↔ items.Complete ∧ ∀ t ∈ items.toList, read t = none
  | .close => by simp [problem?, Complete, toList]
  | .stop f => by simp [problem?, Complete]
  | .item head tail => by
    have ih : tail.problem? read = none ↔ tail.Complete ∧ ∀ t ∈ tail.toList, read t = none := problem?_eq_none_iff
    rw [problem?, Option.or_eq_none_iff, ih, Complete, toList, List.forall_mem_cons]
    exact and_left_comm

/-- Members have no problem if they are complete, none has one with its reader, no known name is met twice and there is
nothing wrong with the known names in all. -/
theorem Members.problem?_eq_none_iff {known : String → Option (Tree → Option Problem)} {other : Tree → Option Problem}
    {atEnd : List String → Option Problem} :
    ∀ {members : Members} {met : List String}, members.problem? known other atEnd met = none ↔
      members.Complete ∧ (∀ m ∈ members.toList, (known m.1).getD other m.2 = none) ∧
        (members.names.filter fun n => (known n).isSome).Nodup ∧
        (∀ n ∈ members.names.filter fun n => (known n).isSome, n ∉ met) ∧
        atEnd ((members.names.filter fun n => (known n).isSome).reverse ++ met) = none
  | .close, met => by simp [problem?, Complete, toList, names]
  | .stop f, met | .strayName t, met | .brokenName ps f, met => by simp [problem?, Complete]
  | .member name value tail, met => by
    have ih : ∀ met, tail.problem? known other atEnd met = none ↔ _ := fun _ => problem?_eq_none_iff
    rw [problem?, Complete]
    cases htext : Piece.text name with
    | error f => simp
    | ok s =>
      have hs : Tree.spelled name = s := Tree.spelled_of_text htext
      have hnames : (Members.member name value tail).names = s :: tail.names := by
        rw [names, toList, List.map_cons, hs, names]
      simp only [toList, List.forall_mem_cons, hs, hnames, Except.ok.injEq, exists_eq', true_and]
      cases hknown : known s with
      | none =>
        simp only [Option.or_eq_none_iff, ih, Option.getD_none, List.filter_cons, hknown, Option.isSome_none,
          Bool.false_eq_true, if_false]
        exact and_left_comm.trans (and_congr_right fun _ => and_assoc.symm)
      | some read =>
        simp only [List.filter_cons, hknown, Option.isSome_some, if_true, Option.getD_some, List.nodup_cons,
          List.forall_mem_cons, List.reverse_cons, List.append_assoc, List.singleton_append]
        -- The name must be new, and since it counts as met from here on, it must not come again either.
        by_cases hmet : s ∈ met
        · simp [hmet]
        · simp only [hmet, if_false, Option.or_eq_none_iff, ih, List.mem_cons, not_or, not_false_eq_true, true_and]
          constructor
          · rintro ⟨hread, hcomplete, hall, hnd, hfresh, hend⟩
            exact ⟨hcomplete, ⟨hread, hall⟩, ⟨fun h => (hfresh s h).1 rfl, hnd⟩, fun n hn => (hfresh n hn).2, hend⟩
          · rintro ⟨hcomplete, ⟨hread, hall⟩, ⟨hs', hnd⟩, hfresh, hend⟩
            exact ⟨hread, hcomplete, hall, hnd, fun n hn => ⟨fun h => hs' (h ▸ hn), hfresh n hn⟩, hend⟩

/-! ## Fields -/

/-- The names that are read as fields are the names of the fields. -/
theorem Fields.isSome_reading?_iff {room : Nat} {n : String} :
    ∀ {fields : Fields}, (fields.reading? room n).isSome ↔ n ∈ fields.names
  | .done => by simp [reading?, names]
  | .field name mandatory shape rest => by
    rw [reading?, names, List.mem_cons]
    by_cases hn : n = name
    · simp [hn]
    · have ih : (rest.reading? room n).isSome ↔ n ∈ rest.names := isSome_reading?_iff
      rw [if_neg hn, ih]
      simp [hn]

/-- A name is not read exactly if no field bears it. -/
theorem Fields.reading?_eq_none_iff {fields : Fields} {room : Nat} {n : String} :
    fields.reading? room n = none ↔ n ∉ fields.names := by
  rw [← Option.not_isSome_iff_eq_none, isSome_reading?_iff]

/-- No field is missing if all that must be there are met. -/
theorem Fields.missing?_eq_none_iff {fields : Fields} {met : List String} :
    fields.missing? met = none ↔ ∀ n ∈ fields.mandatory, n ∈ met := by
  rw [missing?, Option.map_eq_none_iff, List.find?_eq_none]
  simp

/-- What an object with the fields must be: each field at most once, those that must be there present, and no problem with
the value of any member. -/
structure Fields.Fit (fields : Fields) (room : Nat) (members : Members) : Prop where
  complete : members.Complete
  once : (members.names.filter (· ∈ fields.names)).Nodup
  present : ∀ n ∈ fields.mandatory, n ∈ members.names
  named : ∀ m ∈ members.toList, ∀ read, fields.reading? room m.1 = some read → read m.2 = none
  other : ∀ m ∈ members.toList, m.1 ∉ fields.names → m.2.fault? room = none

/-- A field that has to be there is a field. -/
theorem Fields.mem_names_of_mandatory {n : String} : ∀ {fields : Fields}, n ∈ fields.mandatory → n ∈ fields.names
  | .field name mandatory shape rest, h => by
    rw [names, List.mem_cons]
    rw [Fields.mandatory] at h
    split at h
    · exact (List.mem_cons.mp h).imp_right mem_names_of_mandatory
    · exact .inr (mem_names_of_mandatory h)

/-- The names that are read are those of fields. -/
theorem Fields.filter_isSome_reading? (fields : Fields) (room : Nat) (names : List String) :
    (names.filter fun n => (fields.reading? room n).isSome) = names.filter (· ∈ fields.names) := by
  refine List.filter_congr fun n _ => ?_
  rw [Bool.eq_iff_iff, isSome_reading?_iff, decide_eq_true_eq]

/-- Members have no problem with the fields if they fit them. -/
theorem Fields.problem?_eq_none_iff {fields : Fields} {room : Nat} {members : Members} :
    members.problem? (fields.reading? room) (Tree.anyProblem? room) fields.missing? [] = none ↔
      fields.Fit room members := by
  have hmandatory : (∀ n ∈ fields.mandatory, n ∈ members.names.filter (· ∈ fields.names)) ↔
      ∀ n ∈ fields.mandatory, n ∈ members.names := by
    refine forall₂_congr fun n hn => ?_
    simp [mem_names_of_mandatory hn]
  rw [Members.problem?_eq_none_iff, filter_isSome_reading?, missing?_eq_none_iff]
  simp only [List.append_nil, List.mem_reverse, hmandatory, List.not_mem_nil, not_false_eq_true, implies_true, true_and]
  constructor
  · rintro ⟨hcomplete, hall, hnd, hpresent⟩
    refine ⟨hcomplete, hnd, hpresent, fun m hm read hread => ?_, fun m hm hother => ?_⟩
    · have := hall m hm
      rwa [hread, Option.getD_some] at this
    · have := hall m hm
      rw [reading?_eq_none_iff.mpr hother, Option.getD_none] at this
      exact Option.map_eq_none_iff.mp this
  · intro hfit
    refine ⟨hfit.complete, fun m hm => ?_, hfit.once, hfit.present⟩
    cases hread : fields.reading? room m.1 with
    | some read => exact hfit.named m hm read hread
    | none =>
      exact Option.map_eq_none_iff.mpr (hfit.other m hm (reading?_eq_none_iff.mp hread))

/-! ## Shapes -/

namespace Shape

variable {shape : Shape} {room : Nat} {t : Tree}

/-- What has the shape of a text is a text whose pieces can be read. -/
theorem string_eq_none_iff : Shape.string.problem? room t = none ↔ ∃ ps s, t = .string ps ∧ Piece.text ps = .ok s := by
  rw [problem?]
  cases t with
  | string ps =>
    rw [Tree.stringProblem?]
    cases htext : Piece.text ps <;> simp [htext]
  | _ => simp [Tree.stringProblem?]

/-- What has the shape of a truth value is one. -/
theorem bool_eq_none_iff : Shape.bool.problem? room t = none ↔ ∃ b, t = .bool b := by
  rw [problem?]
  cases t <;> simp [Tree.boolProblem?]

/-- Null has a shape that allows it, and so has what has the shape without that. -/
theorem nullable_eq_none_iff : (nullable shape).problem? room t = none ↔ t = .null ∨ shape.problem? room t = none := by
  cases t <;> simp [problem?]

/-- What has the shape of a list is an array, with room for it, closed, of values that have the shape one level down. -/
theorem list_eq_none_iff : (list shape).problem? room t = none ↔
    ∃ items r, t = .array items ∧ room = r + 1 ∧ items.Complete ∧ ∀ x ∈ items.toList, shape.problem? r x = none := by
  cases t with
  | array items =>
    cases room with
    | zero => simp [problem?]
    | succ r => simp [problem?, Items.problem?_eq_none_iff]
  | _ => simp [problem?]

/-- What has the shape of a dictionary is an object, with room for it, closed, of values that have the shape one level
down. -/
theorem dictionary_eq_none_iff : (dictionary shape).problem? room t = none ↔
    ∃ members r, t = .object members ∧ room = r + 1 ∧ members.Complete ∧
      ∀ m ∈ members.toList, shape.problem? r m.2 = none := by
  cases t with
  | object members =>
    cases room with
    | zero => simp [problem?]
    | succ r => simp [problem?, Members.problem?_eq_none_iff]
  | _ => simp [problem?]

/-- What has the shape of an object with fields is an object, with room for it, whose members fit the fields. -/
theorem record_eq_none_iff {title : String} {fields : Fields} : (record title fields).problem? room t = none ↔
    ∃ members r, t = .object members ∧ room = r + 1 ∧ fields.Fit r members := by
  cases t with
  | object members =>
    cases room with
    | zero => simp [problem?]
    | succ r => simp [problem?, Fields.problem?_eq_none_iff]
  | _ => simp [problem?]

end Shape

/-! ## Layouts -/

variable {α β τ : Type}

/-- Null is the only tree that stands for no value. -/
theorem Slot.optional_value_of_ne {c : Codec α} {t : Tree} (ht : t ≠ .null) :
    (optional c).value (some t) = some (c.value t) := by
  cases t with
  | null => exact absurd rfl ht
  | _ => rfl

namespace Layout

/-- No name is given twice, and what is written has names of the fields, in their order. -/
structure Lawful (l : Layout τ) : Prop where
  nodup : l.fields.names.Nodup
  sublist : ∀ a, ((l.write a).map (·.1)).Sublist l.fields.names

variable {l : Layout τ} {slot : Slot α} {rest : Layout β} {name n : String}

/-- What is written has every name once. -/
theorem Lawful.nodup_write (h : l.Lawful) (a : τ) : ((l.write a).map (·.1)).Nodup := (h.sublist a).nodup h.nodup

/-- A member that is written bears the name of a field. -/
theorem Lawful.mem_names_of_mem_write (h : l.Lawful) {a : τ} {m : String × Json} (hm : m ∈ l.write a) :
    m.1 ∈ l.fields.names := (h.sublist a).subset (List.mem_map_of_mem hm)

/-- A member that is written is found under its name. -/
theorem Lawful.lookup_of_mem_write (h : l.Lawful) {a : τ} {m : String × Json} (hm : m ∈ l.write a) :
    (l.write a).lookup m.1 = some m.2 := lookup_of_mem (h.nodup_write a) hm

/-- Under other names than those of the fields nothing is written. -/
theorem Lawful.lookup_write_of_notMem (h : l.Lawful) (hn : n ∉ l.fields.names) (a : τ) : (l.write a).lookup n = none :=
  lookup_eq_none_iff_notMem.mpr fun hmem => hn ((h.sublist a).subset hmem)

/-- The named members as written and the kept ones behind them have every name once. -/
theorem Lawful.nodup_members (h : l.Lawful) (a : τ) (ms : List (String × Tree)) :
    ((l.write a ++ (Extra.ofMembers l.fields.names ms).entries).map (·.1)).Nodup := by
  rw [List.map_append]
  refine (h.nodup_write a).append (Dict.nodup_keys _) fun k hk hextra => ?_
  obtain ⟨e, he, rfl⟩ := List.mem_map.mp hextra
  exact (Extra.mem_of_mem_ofMembers he).1 ((h.sublist a).subset hk)

/-- Among the named members as written and the kept ones, the name of a field has what is written for it, and any other name
what the object has there last. -/
theorem Lawful.lookup_members (h : l.Lawful) (a : τ) (ms : List (String × Tree)) (k : String) :
    (l.write a ++ (Extra.ofMembers l.fields.names ms).entries).lookup k =
      if k ∈ l.fields.names then (l.write a).lookup k else (lastNamed k ms).map Tree.toJson := by
  have hkept : (Extra.ofMembers l.fields.names ms).entries.lookup k =
      if k ∈ l.fields.names then none else (lastNamed k ms).map Tree.toJson := by
    rw [← Extra.get?_ofMembers, Dict.get?_eq_lookup]
    rfl
  rw [List.lookup_append, hkept]
  by_cases hk : k ∈ l.fields.names
  · rw [if_pos hk, if_pos hk, Option.or_none]
  · rw [if_neg hk, if_neg hk, h.lookup_write_of_notMem hk, Option.none_or]

/-! ### One field more -/

variable {room : Nat} {read : Tree → Option Problem}

/-- The first field is read as its slot says. -/
theorem reading?_self : (field name slot rest).fields.reading? room name = some (slot.shape.problem? room) := by
  rw [field, Fields.reading?, if_pos rfl]

/-- The further fields are read as they are without the first. -/
theorem reading?_of_rest (hname : name ∉ rest.fields.names) (h : rest.fields.reading? room n = some read) :
    (field name slot rest).fields.reading? room n = some read := by
  have hne : n ≠ name := by
    rintro rfl
    exact hname (Fields.isSome_reading?_iff.mp (Option.isSome_of_eq_some h))
  rw [field, Fields.reading?, if_neg hne, h]

/-- The first field is mandatory if its slot is. -/
theorem mem_mandatory_self (h : slot.mandatory) : name ∈ (field name slot rest).fields.mandatory := by
  rw [field, Fields.mandatory, if_pos h]
  exact List.mem_cons_self

/-- What is mandatory among the other fields is mandatory. -/
theorem mem_mandatory_of_rest (h : n ∈ rest.fields.mandatory) : n ∈ (field name slot rest).fields.mandatory := by
  rw [field, Fields.mandatory]
  split
  · exact List.mem_cons_of_mem _ h
  · exact h

/-- Under the name of the first field stands what its slot writes. -/
theorem lookup_write_self (h : rest.Lawful) (hname : name ∉ rest.fields.names) (x : α × β) :
    ((field name slot rest).write x).lookup name = slot.write x.1 := by
  simp only [field]
  cases slot.write x.1 with
  | none => exact h.lookup_write_of_notMem hname x.2
  | some v => simp

/-- Under any other name stands what the further fields write. -/
theorem lookup_write_of_ne (hn : n ≠ name) (x : α × β) :
    ((field name slot rest).write x).lookup n = (rest.write x.2).lookup n := by
  simp only [field]
  cases slot.write x.1 with
  | none => rfl
  | some v => simp only [List.lookup_cons, beq_false_of_ne hn]

theorem lawful_done : done.Lawful := ⟨.nil, fun _ => .slnil⟩

/-- Fields are written lawfully if the others are and the first has a name of its own. -/
theorem Lawful.field (h : rest.Lawful) (hname : name ∉ rest.fields.names) : (Layout.field name slot rest).Lawful where
  nodup := List.nodup_cons.mpr ⟨hname, h.nodup⟩
  sublist x := by
    simp only [Layout.field, Fields.names]
    cases slot.write x.1 with
    | none => exact (h.sublist x.2).cons name
    | some v => exact (h.sublist x.2).cons_cons name

end Layout

end WorkflowAugment
