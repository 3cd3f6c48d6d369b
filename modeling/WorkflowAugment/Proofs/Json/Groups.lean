import WorkflowAugment.Proofs.Json.Nesting
import WorkflowAugment.Proofs.Json.Permuting
import WorkflowAugment.Proofs.Json.Places
import WorkflowAugment.Proofs.Json.Restoring

/-!
# Groups of settings in documents

A document gives the fields of a group of settings by name, in an object, or by position, in an array (`Tree.Gives`). Members of
an object that have other names are passed over, and all that they have to be is JSON by its grammar (`Tree.Unbroken`). What is
asked of such a document is one equivalence (`Shape.settings_eq_none_iff`), as for the other shapes, and what is written for a
group is read again as it was (`Codec.Restores.settings`).
-/

namespace WorkflowAugment

/-! ## What is passed over -/

namespace Tree

mutual

/-- The tree is JSON by its grammar to the end of its text. Its numbers may be out of range, the surrogates in its strings
unpaired, and it may be nested to any depth. -/
def Unbroken : Tree → Prop
  | .absent | .junk _ | .brokenNumber _ | .brokenString _ _ => False
  | .null | .bool _ | .number _ | .string _ => True
  | .array items => UnbrokenItems items
  | .object members => UnbrokenMembers members

/-- `Unbroken` for the items of an array. -/
def UnbrokenItems : Items → Prop
  | .close => True
  | .stop _ => False
  | .item head tail => head.Unbroken ∧ UnbrokenItems tail

/-- `Unbroken` for the members of an object. -/
def UnbrokenMembers : Members → Prop
  | .close => True
  | .stop _ | .strayName _ | .brokenName _ _ => False
  | .member _ value tail => value.Unbroken ∧ UnbrokenMembers tail

end

mutual

/-- A tree can be passed over if it is unbroken. -/
theorem skipFault?_eq_none_iff : ∀ {t : Tree}, t.skipFault? = none ↔ t.Unbroken
  | .absent | .junk _ | .brokenNumber _ | .brokenString _ _ | .null | .bool _ | .number _ | .string _ => by
    simp [skipFault?, Unbroken]
  | .array items => by
    rw [skipFault?, Unbroken]
    exact skipItemsFault?_eq_none_iff
  | .object members => by
    rw [skipFault?, Unbroken]
    exact skipMembersFault?_eq_none_iff

/-- The values of an array are passed over without a fault exactly if they are unbroken. -/
theorem skipItemsFault?_eq_none_iff : ∀ {items : Items}, skipItemsFault? items = none ↔ UnbrokenItems items
  | .close | .stop _ => by simp [skipItemsFault?, UnbrokenItems]
  | .item head tail => by
    rw [skipItemsFault?, UnbrokenItems, Option.or_eq_none_iff, skipFault?_eq_none_iff, skipItemsFault?_eq_none_iff]

/-- The members of an object are passed over without a fault exactly if they are unbroken. -/
theorem skipMembersFault?_eq_none_iff : ∀ {members : Members}, skipMembersFault? members = none ↔ UnbrokenMembers members
  | .close | .stop _ | .strayName _ | .brokenName _ _ => by simp [skipMembersFault?, UnbrokenMembers]
  | .member name value tail => by
    rw [skipMembersFault?, UnbrokenMembers, Option.or_eq_none_iff, skipFault?_eq_none_iff, skipMembersFault?_eq_none_iff]

end

end Tree

namespace Json

mutual

/-- What any value is written as is unbroken. -/
theorem unbroken_toTree : ∀ x : Json, x.toTree.Unbroken
  | .number v => by
    obtain ⟨n, hn⟩ := Tree.exists_toTree_number v
    rw [hn]
    trivial
  | .array items => by
    rw [toTree, Tree.Unbroken]
    exact unbroken_toItems items
  | .object members => by
    rw [toTree, Tree.Unbroken]
    exact unbroken_toMembers members
  | .null | .bool _ | .string _ => by simp [toTree, Tree.Unbroken]

/-- What any values are written as is unbroken. -/
theorem unbroken_toItems : ∀ xs : List Json, Tree.UnbrokenItems (toItems xs)
  | [] => by simp [toItems, Tree.UnbrokenItems]
  | x :: xs => by
    rw [toItems, Tree.UnbrokenItems]
    exact ⟨unbroken_toTree x, unbroken_toItems xs⟩

/-- What any members are written as is unbroken. -/
theorem unbroken_toMembers : ∀ ms : List (String × Json), Tree.UnbrokenMembers (toMembers ms)
  | [] => by simp [toMembers, Tree.UnbrokenMembers]
  | (name, x) :: ms => by
    rw [toMembers, Tree.UnbrokenMembers]
    exact ⟨unbroken_toTree x, unbroken_toMembers ms⟩

end

end Json

/-! ## What a document gives -/

/-- The document gives the fields of these names the values. An object gives values under names of fields, each name once, in
any order and among members with other names, whatever these hold. An array gives the values of the first fields in declared
order. -/
inductive Tree.Gives (names : List String) : Tree → List (String × Tree) → Prop
  | object {members : Members} {given : List (String × Tree)} (hcomplete : members.Complete)
    (hothers : ∀ m ∈ members.toList, m.1 ∉ names → m.2.Unbroken) (honce : (given.map (·.1)).Nodup)
    (hgiven : (members.toList.filter (·.1 ∈ names)).Perm given) : Gives names (.object members) given
  | array {items : Items} (hcomplete : items.Complete) (hlength : items.toList.length ≤ names.length) :
    Gives names (.array items) (names.zip items.toList)

/-- The text is the tree with nothing but white space around it. -/
def Tree.ScannedFrom (t : Tree) (text : String) : Prop :=
  ∃ rest, Tree.scan text.toList = (t, rest) ∧ Tree.skipSpace rest = []

/-- A text is scanned as one tree. -/
theorem Tree.ScannedFrom.unique {t t' : Tree} {text : String} (h : t.ScannedFrom text) (h' : t'.ScannedFrom text) : t = t' := by
  obtain ⟨rest, hscan, -⟩ := h
  obtain ⟨rest', hscan', -⟩ := h'
  exact congrArg Prod.fst (hscan.symm.trans hscan')

/-- What a value is written as is scanned from it, in both forms. -/
theorem Json.scannedFrom_render (x : Json) (isPretty : Bool) : x.toTree.ScannedFrom (x.render isPretty) :=
  ⟨[], scan_render x isPretty, rfl⟩

/-- The members of an object that are named as fields are given for these, in any order. -/
theorem Json.gives_object {names : List String} {ms : List (String × Json)} {given : List (String × Tree)}
    (hgiven : ((ms.filter (·.1 ∈ names)).map fun m => (m.1, m.2.toTree)).Perm given) (honce : (given.map (·.1)).Nodup) :
    (Json.object ms).toTree.Gives names given := by
  rw [toTree]
  refine .object (complete_toMembers ms) ?_ honce ?_
  · rw [toList_toMembers, List.forall_mem_map]
    exact fun m _ _ => unbroken_toTree m.2
  · rwa [toList_toMembers, List.filter_map]

/-- The items of an array are given for the first fields. -/
theorem Json.gives_array {names : List String} {xs : List Json} (hlength : xs.length ≤ names.length) :
    (Json.array xs).toTree.Gives names (names.zip (xs.map toTree)) := by
  rw [toTree, ← toList_toItems]
  exact .array (complete_toItems xs) (by simpa [toList_toItems] using hlength)

section Given

variable {names : List String} {t : Tree} {given : List (String × Tree)}

/-- The names of the first fields are those of the values that an array gives. -/
theorem keys_zip_sublist (names : List String) (ts : List Tree) : ((names.zip ts).map (·.1)).Sublist names := by
  induction names generalizing ts with
  | nil => rw [List.zip_nil_left]; exact .slnil
  | cons name names ih =>
    cases ts with
    | nil => exact List.nil_sublist _
    | cons t ts => exact (ih ts).cons_cons name

/-- A document gives each member once if its group has each name once. -/
theorem Tree.Gives.once (h : t.Gives names given) (hnames : names.Nodup) : (given.map (·.1)).Nodup := by
  cases h with
  | object _ _ honce _ => exact honce
  | array _ _ => exact (keys_zip_sublist names _).nodup hnames

end Given

/-- In an object a field has the value that is given for it. -/
theorem lookup_of_gives {members : Members} {names : List String} {given : List (String × Tree)}
    (h : (Tree.object members).Gives names given) {k : String} (hk : k ∈ names) :
    members.toList.lookup k = given.lookup k := by
  cases h with
  | object _ _ honce hgiven =>
    have hfilter := lookup_filter (l := members.toList) (fun k => decide (k ∈ names)) k
    rw [if_pos (decide_eq_true hk)] at hfilter
    rw [← hfilter]
    exact lookup_eq_of_perm ((hgiven.map _).nodup_iff.mpr honce) hgiven k

/-- What a document gives for the fields is settled by the document. -/
theorem Tree.Gives.lookup_eq {names : List String} {t : Tree} {given given' : List (String × Tree)} (h : t.Gives names given)
    (h' : t.Gives names given') {k : String} (hk : k ∈ names) : given.lookup k = given'.lookup k := by
  cases t with
  | object members => rw [← lookup_of_gives h hk, lookup_of_gives h' hk]
  | array items =>
    cases h
    cases h'
    rfl
  | _ => nomatch h

/-- What is asked of the values of the fields may be asked of any list with what a document gives. -/
theorem Tree.Gives.exists_iff {names : List String} {t : Tree} {given : List (String × Tree)} {Q : List (String × Tree) → Prop}
    (h : t.Gives names given) (hQ : ∀ {ms ms'}, (∀ k ∈ names, ms.lookup k = ms'.lookup k) → Q ms → Q ms') :
    (∃ ms, t.Gives names ms ∧ Q ms) ↔ Q given := by
  constructor
  · rintro ⟨ms, hms, hq⟩
    exact hQ (fun k hk => hms.lookup_eq h hk) hq
  · intro hq
    exact ⟨given, h, hq⟩

/-! ## What a group asks of a document -/

/-- The fields that are given have no problem with their values. -/
def Fields.Accept (fields : Fields) (room : Nat) (given : List (String × Tree)) : Prop :=
  ∀ k read, fields.reading? room k = some read → ∀ t ∈ given.lookup k, read t = none

namespace Fields

variable {fields : Fields} {room : Nat}

/-- Where no name is given twice, the fields accept what is given if they accept each value under its name. -/
theorem accept_iff {given : List (String × Tree)} (honce : (given.map (·.1)).Nodup) :
    fields.Accept room given ↔ ∀ m ∈ given, ∀ read, fields.reading? room m.1 = some read → read m.2 = none := by
  constructor
  · intro h m hm read hread
    exact h m.1 read hread m.2 (lookup_of_mem honce hm)
  · intro h k read hread t ht
    exact h (k, t) (mem_of_lookup ht) read hread

/-- Items have no problem with the fields in order if they go on to the closing bracket, are not more than the fields, and none
has a problem with the field at its position. -/
theorem positionalProblem?_eq_none_iff : ∀ {fields : Fields} {items : Items}, fields.names.Nodup →
    (fields.positionalProblem? room items = none ↔ items.Complete ∧ items.toList.length ≤ fields.names.length ∧
      ∀ m ∈ fields.names.zip items.toList, ∀ read, fields.reading? room m.1 = some read → read m.2 = none)
  | _, .close, _ => by simp [positionalProblem?, Items.Complete, Items.toList]
  | _, .stop f, _ => by simp [positionalProblem?, Items.Complete]
  | .done, .item head tail, _ => by simp [positionalProblem?, names, Items.toList]
  | .field name mandatory shape rest, .item head tail, hnodup => by
    obtain ⟨hname, hnodup⟩ := List.nodup_cons.mp hnodup
    have ih : rest.positionalProblem? room tail = none ↔ _ := positionalProblem?_eq_none_iff hnodup
    -- The further items stand under the names of the further fields, none of which is that of the first.
    have htail : (∀ m ∈ rest.names.zip tail.toList, ∀ read,
          (field name mandatory shape rest).reading? room m.1 = some read → read m.2 = none) ↔
        ∀ m ∈ rest.names.zip tail.toList, ∀ read, rest.reading? room m.1 = some read → read m.2 = none := by
      refine forall₂_congr fun m hm => ?_
      have hne : m.1 ≠ name := fun heq => hname (heq ▸ (List.of_mem_zip hm).1)
      rw [reading?, if_neg hne]
    have hhead : (∀ read, (field name mandatory shape rest).reading? room name = some read → read head = none) ↔
        shape.problem? room head = none := by
      simp [reading?]
    rw [positionalProblem?, Option.or_eq_none_iff, ih, Items.Complete, names, Items.toList, List.zip_cons_cons,
      List.forall_mem_cons, htail, hhead, List.length_cons, List.length_cons, Nat.add_le_add_iff_right]
    constructor
    · rintro ⟨hfits, hcomplete, hlength, hrest⟩
      exact ⟨hcomplete, hlength, hfits, hrest⟩
    · rintro ⟨hcomplete, hlength, hfits, hrest⟩
      exact ⟨hfits, hcomplete, hlength, hrest⟩

/-- Members have no problem with the fields of a group if they give values that have none. -/
theorem skipping_eq_none_iff {members : Members} :
    members.problem? (fields.reading? room) Tree.skipProblem? (fun _ => none) [] = none ↔
      ∃ given, (Tree.object members).Gives fields.names given ∧ fields.Accept room given := by
  have hnames : (members.toList.filter (·.1 ∈ fields.names)).map (·.1) = members.names.filter (· ∈ fields.names) := by
    rw [Members.names, List.filter_map]
    rfl
  rw [Members.problem?_eq_none_iff, filter_isSome_reading?]
  constructor
  · rintro ⟨hcomplete, hall, hnodup, -, -⟩
    have honce : ((members.toList.filter (·.1 ∈ fields.names)).map (·.1)).Nodup := hnames ▸ hnodup
    refine ⟨_, .object hcomplete ?_ honce (.refl _), (accept_iff honce).mpr ?_⟩
    · intro m hm hother
      have hskip := hall m hm
      rw [reading?_eq_none_iff.mpr hother, Option.getD_none] at hskip
      exact Tree.skipFault?_eq_none_iff.mp (Option.map_eq_none_iff.mp hskip)
    · intro m hm read hread
      have hfits := hall m (List.mem_of_mem_filter hm)
      rwa [hread, Option.getD_some] at hfits
  · rintro ⟨given, hgives, haccept⟩
    cases hgives with
    | object hcomplete hothers honce hgiven =>
      rw [accept_iff honce] at haccept
      refine ⟨hcomplete, fun m hm => ?_, ?_, fun _ _ => List.not_mem_nil, rfl⟩
      · cases hread : fields.reading? room m.1 with
        | none =>
          exact Option.map_eq_none_iff.mpr (Tree.skipFault?_eq_none_iff.mpr (hothers m hm (reading?_eq_none_iff.mp hread)))
        | some read =>
          have hnamed : m.1 ∈ fields.names := isSome_reading?_iff.mp (Option.isSome_of_eq_some hread)
          have hmem : m ∈ given := hgiven.mem_iff.mp (List.mem_filter.mpr ⟨hm, decide_eq_true hnamed⟩)
          exact haccept m hmem read hread
      · rw [← hnames]
        exact (hgiven.map _).nodup_iff.mpr honce

end Fields

/-- A document has the shape of a group of settings if it gives the fields values that have the shapes of the fields. -/
theorem Shape.settings_eq_none_iff {title : String} {fields : Fields} {room : Nat} {t : Tree} (hnodup : fields.names.Nodup) :
    (settings title fields).problem? room t = none ↔
      ∃ given r, room = r + 1 ∧ t.Gives fields.names given ∧ fields.Accept r given := by
  cases t with
  | object members =>
    cases room with
    | zero => simp [problem?]
    | succ r => simp [problem?, Fields.skipping_eq_none_iff]
  | array items =>
    cases room with
    | zero => simp [problem?]
    | succ r =>
      rw [problem?, Fields.positionalProblem?_eq_none_iff hnodup]
      constructor
      · rintro ⟨hcomplete, hlength, haccept⟩
        have hgives := Tree.Gives.array hcomplete hlength
        exact ⟨_, r, rfl, hgives, (Fields.accept_iff (hgives.once hnodup)).mpr haccept⟩
      · rintro ⟨given, r', hr, hgives, haccept⟩
        obtain rfl := Nat.succ.inj hr
        rw [Fields.accept_iff (hgives.once hnodup)] at haccept
        cases hgives with
        | array hcomplete hlength => exact ⟨hcomplete, hlength, haccept⟩
  | _ =>
    simp only [problem?, reduceCtorEq, false_iff]
    rintro ⟨given, r, -, hgives, -⟩
    cases hgives

/-! ## Writing a group and reading it -/

variable {α τ : Type}

/-- An object with settings is one level above its members. -/
@[simp] theorem Codec.within_settings {title : String} {layout : Layout τ} {make : τ → α} {parts : α → τ} {n : Nat} {a : α} :
    (settings title layout make parts).Within (n + 1) a ↔ layout.Within n (parts a) := by
  simp only [Within, settings, Json.depth, Nat.add_le_add_iff_right, Layout.Within]

/-- What is written for a group is read as it was, in the declared order and with nothing else beside it. -/
theorem Codec.Restores.settings {title : String} {layout : Layout τ} {make : τ → α} {parts : α → τ} {a : α}
    (hlayout : layout.Restores (parts a)) (hmake : make (parts a) = a) :
    (Codec.settings title layout make parts).Restores a := by
  have hwrite : (Codec.settings title layout make parts).write a = .object (layout.write (parts a)) := rfl
  refine ⟨?_, ?_, fun room hdepth => ?_, ?_⟩
  · rw [hwrite, Json.Integral, Json.integralMembers_iff]
    exact fun m hm => hlayout.integral m.1 m.2 (hlayout.lawful.lookup_of_mem_write hm)
  · simp [hwrite]
  · rw [hwrite] at hdepth ⊢
    cases room with
    | zero => exact absurd hdepth (Nat.not_succ_le_zero _)
    | succ room =>
      have hmembers := Json.depthMembers_le_iff.mp (Nat.le_of_succ_le_succ hdepth)
      have hnamed : ∀ m ∈ (Json.toMembers (layout.write (parts a))).toList, m.1 ∈ layout.fields.names := by
        rw [Json.toList_toMembers, List.forall_mem_map]
        exact fun m hm => hlayout.lawful.mem_names_of_mem_write hm
      have hgiven : ((Json.toMembers (layout.write (parts a))).toList.filter (·.1 ∈ layout.fields.names)).Perm
          ((layout.write (parts a)).map fun m => (m.1, m.2.toTree)) := by
        rw [List.filter_eq_self.mpr fun m hm => decide_eq_true (hnamed m hm), Json.toList_toMembers]
      have honce : (((layout.write (parts a)).map fun m => (m.1, m.2.toTree)).map (·.1)).Nodup := by
        rw [keys_map]
        exact hlayout.lawful.nodup_write (parts a)
      refine (Shape.settings_eq_none_iff hlayout.lawful.nodup).mpr ⟨_, room, rfl, ?_, (Fields.accept_iff honce).mpr ?_⟩
      · rw [Json.toTree]
        exact .object (Json.complete_toMembers _) (fun m hm hother => absurd (hnamed m hm) hother) honce hgiven
      · rw [List.forall_mem_map]
        intro m hm read hread
        exact hlayout.accepted m.1 m.2 (hlayout.lawful.lookup_of_mem_write hm) room (hmembers m hm) read hread
  · rw [hwrite]
    simp only [Codec.settings, Json.toTree, Json.toList_toMembers]
    rw [hlayout.value _ fun n _ => lookup_map Json.toTree n, hmake]

end WorkflowAugment
