import Mathlib.Data.List.Find
import WorkflowAugment.Proofs.Declaration
import WorkflowAugment.Proofs.Json.Problems

/-!
# Shapes that judge by what is declared

A shape judges values by what is wanted if it has no problem just with what is acceptable, if any problem is with the data, and
if, where nothing but required members of one object is missing, the problem is the first of them (`Shape.Judges`). The law is
lifted through the ways to build shapes; an object with fields judges by the declared members if its fields are these one by one
(`Shape.Judges.record`).
-/

namespace WorkflowAugment

/-! ## How a shape judges -/

/-- The shape judges values by what is wanted: it has no problem just with what is acceptable, any problem is with the data,
and where nothing but required members of one object is missing it is the first of them. -/
structure Shape.Judges (shape : Shape) (w : Want) : Prop where
  accepts : ∀ {t : Tree} {room : Nat}, t.fault? room = none → (shape.problem? room t = none ↔ Acceptable w t.json)
  isData : ∀ {t : Tree} {room : Nat} {p : Problem}, t.fault? room = none → shape.problem? room t = some p →
    p.message?.isSome
  missing : ∀ {t : Tree} {room : Nat} {name : String}, t.fault? room = none → Lacks w t.json name →
    shape.problem? room t = some (.missingMember name)

namespace Tree

variable {t : Tree} {room : Nat}

/-- Of a value it can be told what it is, so a wrong kind is a problem with the data. -/
theorem isSome_message?_mismatch (h : t.fault? room = none) (wanted : Wanted) : (t.mismatch wanted).message?.isSome := by
  have hspells := Valid.spells ⟨room, h⟩
  generalize t.json = x at hspells
  cases hspells with
  | number hn => simp [mismatch, found, hn, Problem.message?]
  | string hs => simp [mismatch, found, hs, Problem.message?, Except.map]
  | _ => simp [mismatch, found, Problem.message?]

/-- A tree that spells an array is an array, with items that are values. -/
theorem exists_array {xs : List Json} (h : t.fault? room = none) (hx : t.json = .array xs) :
    ∃ items r, t = .array items ∧ room = r + 1 ∧ items.Complete ∧ (∀ t ∈ items.toList, t.fault? r = none) ∧
      xs = items.toList.map json := by
  have hspells := Valid.spells ⟨room, h⟩
  rw [hx] at hspells
  cases hspells with
  | array _ _ hxs =>
    obtain ⟨r, hroom, hcomplete, hitems⟩ := fault?_array_eq_none_iff.mp h
    exact ⟨_, r, rfl, hroom, hcomplete, hitems, hxs⟩

/-- A tree that spells an object is an object, with members whose values are values. -/
theorem exists_object {ms : List (String × Json)} (h : t.fault? room = none) (hx : t.json = .object ms) :
    ∃ members r, t = .object members ∧ room = r + 1 ∧ members.Complete ∧ (∀ m ∈ members.toList, m.2.fault? r = none) ∧
      ms = members.toList.map fun m => (m.1, m.2.json) := by
  have hspells := Valid.spells ⟨room, h⟩
  rw [hx] at hspells
  cases hspells with
  | object _ _ hms =>
    obtain ⟨r, hroom, hcomplete, hmembers⟩ := fault?_object_eq_none_iff.mp h
    exact ⟨_, r, rfl, hroom, hcomplete, hmembers, hms⟩

end Tree

namespace Shape.Judges

variable {shape : Shape} {w : Want}

/-- The shape of a text judges by whether there is a text. -/
theorem string : Shape.string.Judges .text where
  accepts {t room} h := by
    have hspells := Tree.Valid.spells ⟨room, h⟩
    rw [string_eq_none_iff]
    constructor
    · rintro ⟨ps, s, rfl, -⟩
      exact .text _
    · intro hacc
      generalize t.json = x at hspells hacc
      cases hacc
      cases hspells with
      | string hs => exact ⟨_, _, rfl, hs⟩
  isData {t room p} h hp := by
    rw [problem?] at hp
    cases t with
    | string ps =>
      have hspells := Tree.Valid.spells ⟨room, h⟩
      cases hspells with
      | string hs => simp [Tree.stringProblem?, hs] at hp
    | _ =>
      obtain rfl := Option.some.inj hp
      exact Tree.isSome_message?_mismatch h _
  missing _ hlacks := nomatch hlacks

/-- The shape of a truth value judges by whether there is one. -/
theorem bool : Shape.bool.Judges .flag where
  accepts {t room} h := by
    have hspells := Tree.Valid.spells ⟨room, h⟩
    rw [bool_eq_none_iff]
    constructor
    · rintro ⟨b, rfl⟩
      exact .flag b
    · intro hacc
      generalize t.json = x at hspells hacc
      cases hacc
      cases hspells with
      | bool => exact ⟨_, rfl⟩
  isData {t room p} h hp := by
    rw [problem?] at hp
    cases t with
    | bool b => simp [Tree.boolProblem?] at hp
    | _ =>
      obtain rfl := Option.some.inj hp
      exact Tree.isSome_message?_mismatch h _
  missing _ hlacks := nomatch hlacks

/-- A shape that allows null judges by whether there is null or what the shape itself is for. -/
theorem nullable (hshape : shape.Judges w) : shape.nullable.Judges (.nullable w) where
  accepts {t room} h := by
    have hspells := Tree.Valid.spells ⟨room, h⟩
    rw [nullable_eq_none_iff, hshape.accepts h]
    constructor
    · rintro (rfl | hacc)
      · exact .null
      · exact .value hacc
    · intro hacc
      generalize t.json = x at hspells hacc
      cases hacc with
      | null =>
        cases hspells
        exact .inl rfl
      | value hacc => exact .inr hacc
  isData {t room p} h hp := by
    cases t with
    | null => nomatch hp
    | _ => exact hshape.isData h hp
  missing {t room name} h hlacks := by
    cases hlacks with
    | value hlacks =>
      cases t with
      | null => exact absurd rfl hlacks.ne_null
      | _ => exact hshape.missing h hlacks

/-- The shape of a list judges by whether there is an array of what the shape of its elements is for. -/
theorem list (hshape : shape.Judges w) : shape.list.Judges (.list w) where
  accepts {t room} h := by
    rw [list_eq_none_iff]
    constructor
    · rintro ⟨items, r, rfl, rfl, -, hitems⟩
      obtain ⟨r, hroom, -, hfault⟩ := Tree.fault?_array_eq_none_iff.mp h
      cases hroom
      rw [Tree.json, Items.jsons_eq]
      refine .list (List.forall_mem_map.mpr fun t ht => ?_)
      exact (hshape.accepts (hfault t ht)).mp (hitems t ht)
    · intro hacc
      generalize hx : t.json = x at hacc
      cases hacc with
      | list hall =>
        obtain ⟨items, r, rfl, rfl, hcomplete, hfault, rfl⟩ := Tree.exists_array h hx
        refine ⟨items, r, rfl, rfl, hcomplete, fun t ht => ?_⟩
        exact (hshape.accepts (hfault t ht)).mpr (List.forall_mem_map.mp hall t ht)
  isData {t room p} h hp := by
    cases t with
    | array items =>
      obtain ⟨r, rfl, hcomplete, hfault⟩ := Tree.fault?_array_eq_none_iff.mp h
      rw [problem?] at hp
      obtain ⟨t, ht, hread⟩ := Items.exists_of_problem?_eq_some hcomplete hp
      exact hshape.isData (hfault t ht) hread
    | _ =>
      obtain rfl := Option.some.inj hp
      exact Tree.isSome_message?_mismatch h _
  missing {t room name} h hlacks := by
    generalize hx : t.json = x at hlacks
    cases hlacks with
    | item hlacks hothers =>
      obtain ⟨items, r, rfl, rfl, hcomplete, hfault, hxs⟩ := Tree.exists_array h hx
      obtain ⟨before, behind, hsplit, rfl, hbehind⟩ := List.map_eq_append_iff.mp hxs.symm
      obtain ⟨t, after, rfl, rfl, rfl⟩ := List.map_eq_cons_iff.mp hbehind
      rw [hsplit] at hfault
      rw [problem?]
      refine Items.problem?_eq_some_of_split (hshape.missing (hfault t (by simp)) hlacks) hsplit fun x hx => ?_
      refine (hshape.accepts (hfault x (List.mem_append_left _ hx))).mpr (hothers _ ?_)
      exact List.mem_append_left _ (List.mem_map_of_mem hx)

/-- The shape of hooks judges by whether there is an object of hooks. -/
theorem hooks (hshape : shape.Judges (.object .hook)) : shape.dictionary.Judges .hooks where
  accepts {t room} h := by
    rw [dictionary_eq_none_iff]
    constructor
    · rintro ⟨members, r, rfl, rfl, -, hmembers⟩
      obtain ⟨r, hroom, -, hfault⟩ := Tree.fault?_object_eq_none_iff.mp h
      cases hroom
      rw [Tree.json, Members.jsons_eq]
      refine .hooks (List.forall_mem_map.mpr fun m hm => ?_)
      exact (hshape.accepts (hfault m hm)).mp (hmembers m hm)
    · intro hacc
      generalize hx : t.json = x at hacc
      cases hacc with
      | hooks hall =>
        obtain ⟨members, r, rfl, rfl, hcomplete, hfault, rfl⟩ := Tree.exists_object h hx
        refine ⟨members, r, rfl, rfl, hcomplete, fun m hm => ?_⟩
        exact (hshape.accepts (hfault m hm)).mpr (List.forall_mem_map.mp hall m hm)
  isData {t room p} h hp := by
    cases t with
    | object members =>
      obtain ⟨r, rfl, hcomplete, hfault⟩ := Tree.fault?_object_eq_none_iff.mp h
      rw [problem?] at hp
      rcases Members.exists_of_problem?_eq_some hcomplete hp with ⟨m, hm, hread⟩ | ⟨n, rfl⟩ | ⟨met, hmet⟩
      · exact hshape.isData (hfault m hm) hread
      · rfl
      · cases hmet
    | _ =>
      obtain rfl := Option.some.inj hp
      exact Tree.isSome_message?_mismatch h _
  missing {t room name} h hlacks := by
    generalize hx : t.json = x at hlacks
    cases hlacks with
    | event hlacks hothers =>
      obtain ⟨members, r, rfl, rfl, hcomplete, hfault, hms⟩ := Tree.exists_object h hx
      obtain ⟨before, behind, hsplit, rfl, hbehind⟩ := List.map_eq_append_iff.mp hms.symm
      obtain ⟨m, after, rfl, rfl, rfl⟩ := List.map_eq_cons_iff.mp hbehind
      rw [hsplit] at hfault
      rw [problem?]
      refine Members.problem?_eq_some_of_split hcomplete hsplit (fun m hm => ?_) (hshape.missing (hfault m (by simp)) hlacks)
        (by simp)
      refine (hshape.accepts (hfault m (List.mem_append_left _ hm))).mpr (hothers (m.1, m.2.json) ?_)
      exact List.mem_append_left _ (List.mem_map_of_mem hm)

end Shape.Judges

/-! ## Objects with named members -/

/-- The fields are the declared members one by one, each with a shape that judges by what is wanted there. -/
inductive Fields.Judge : Fields → List Member → Prop
  | done : Judge .done []
  | field {f : Member} {shape : Shape} {rest : Fields} {fs : List Member} (hname : f.name ∉ rest.names)
    (hshape : shape.Judges f.want) (hrest : rest.Judge fs) : Judge (.field f.name f.isRequired shape rest) (f :: fs)

namespace Fields.Judge

variable {fields : Fields} {fs : List Member} {f : Member} {room : Nat} {m : String × Tree} {members : Members}

/-- The fields bear the names of the declared members. -/
theorem names_eq (h : fields.Judge fs) : fields.names = fs.map (·.name) := by
  induction h with
  | done => rfl
  | field _ _ _ ih => rw [names, ih, List.map_cons]

/-- The mandatory fields are the required members. -/
theorem mandatory_eq (h : fields.Judge fs) : fields.mandatory = (fs.filter (·.isRequired)).map (·.name) := by
  induction h with
  | done => rfl
  | @field f _ _ _ _ _ _ ih =>
    rw [mandatory, ih, List.filter_cons]
    split <;> rfl

/-- A named member is read by a shape that judges by what is wanted. -/
theorem exists_reading? (h : fields.Judge fs) (hf : f ∈ fs) :
    ∃ shape : Shape, shape.Judges f.want ∧ ∀ room, fields.reading? room f.name = some (shape.problem? room) := by
  induction h with
  | done => nomatch hf
  | @field g shape rest fs hname hshape hrest ih =>
    rcases List.mem_cons.mp hf with rfl | hf
    · exact ⟨shape, hshape, fun room => by rw [reading?, if_pos rfl]⟩
    · obtain ⟨shape', hshape', hread⟩ := ih hf
      have hne : f.name ≠ g.name := by
        intro heq
        rw [hrest.names_eq, ← heq] at hname
        exact hname (List.mem_map_of_mem hf)
      exact ⟨shape', hshape', fun room => by rw [reading?, if_neg hne, hread]⟩

/-- A name of a field is that of a declared member. -/
theorem mem_names_iff (h : fields.Judge fs) {n : String} : n ∈ fields.names ↔ ∃ f ∈ fs, f.name = n := by
  rw [h.names_eq, List.mem_map]

/-- How a member is read: by the shape of its field, whatever declared member of its name that is. -/
theorem read_of_mem (h : fields.Judge fs) (room : Nat) (hf : f ∈ fs) (hname : m.1 = f.name) :
    ∃ shape : Shape, shape.Judges f.want ∧
      (fields.reading? room m.1).getD (Tree.anyProblem? room) m.2 = shape.problem? room m.2 := by
  obtain ⟨shape, hshape, hread⟩ := h.exists_reading? hf
  exact ⟨shape, hshape, by rw [hname, hread, Option.getD_some]⟩

/-- Without a name here a member is read as anything. -/
theorem read_of_notMem (h : fields.Judge fs) (hfault : m.2.fault? room = none) (hname : ∀ f ∈ fs, m.1 ≠ f.name) :
    (fields.reading? room m.1).getD (Tree.anyProblem? room) m.2 = none := by
  have hm : m.1 ∉ fields.names := by
    intro hm
    obtain ⟨f, hf, heq⟩ := h.mem_names_iff.mp hm
    exact hname f hf heq.symm
  rw [reading?_eq_none_iff.mpr hm, Option.getD_none, Tree.anyProblem?, hfault, Option.map_none]

/-- A member has no problem if its value is what is wanted of the members of its name. -/
theorem read_eq_none_iff (h : fields.Judge fs) (hfault : m.2.fault? room = none) :
    (fields.reading? room m.1).getD (Tree.anyProblem? room) m.2 = none ↔
      ∀ f ∈ fs, m.1 = f.name → Acceptable f.want m.2.json := by
  constructor
  · intro hread f hf hname
    obtain ⟨shape, hshape, heq⟩ := h.read_of_mem room hf hname
    rw [heq] at hread
    exact (hshape.accepts hfault).mp hread
  · intro hall
    by_cases hnamed : ∃ f ∈ fs, m.1 = f.name
    · obtain ⟨f, hf, hname⟩ := hnamed
      obtain ⟨shape, hshape, heq⟩ := h.read_of_mem room hf hname
      rw [heq]
      exact (hshape.accepts hfault).mpr (hall f hf hname)
    · exact h.read_of_notMem hfault fun f hf hname => hnamed ⟨f, hf, hname⟩

/-- A problem of a member is with the data. -/
theorem isData_of_read_eq_some (h : fields.Judge fs) (hfault : m.2.fault? room = none) {p : Problem}
    (hread : (fields.reading? room m.1).getD (Tree.anyProblem? room) m.2 = some p) : p.message?.isSome := by
  by_cases hnamed : ∃ f ∈ fs, m.1 = f.name
  · obtain ⟨f, hf, hname⟩ := hnamed
    obtain ⟨shape, hshape, heq⟩ := h.read_of_mem room hf hname
    rw [heq] at hread
    exact hshape.isData hfault hread
  · rw [h.read_of_notMem hfault fun f hf hname => hnamed ⟨f, hf, hname⟩] at hread
    nomatch hread

/-- No known name is met again if no declared member is repeated. -/
theorem nodup_iff (h : fields.Judge fs) (room : Nat) (names : List String) :
    (names.filter fun n => (fields.reading? room n).isSome).Nodup ↔ ∀ f ∈ fs, names.count f.name ≤ 1 := by
  rw [filter_isSome_reading?, List.nodup_iff_count_le_one]
  constructor
  · intro hcount f hf
    have hmem : f.name ∈ fields.names := h.mem_names_iff.mpr ⟨f, hf, rfl⟩
    have hle := hcount f.name
    rwa [List.count_filter (by simpa using hmem)] at hle
  · intro hcount n
    by_cases hn : n ∈ fields.names
    · obtain ⟨f, hf, rfl⟩ := h.mem_names_iff.mp hn
      rw [List.count_filter (by simpa using hn)]
      exact hcount f hf
    · rw [List.count_eq_zero_of_not_mem (by simp [hn])]
      exact Nat.zero_le 1

/-- The first member that is missing is the first required one that is not met. -/
theorem missing?_eq (h : fields.Judge fs) (room : Nat) (names : List String) :
    fields.missing? (names.filter fun n => (fields.reading? room n).isSome).reverse =
      (fs.find? fun f => f.isRequired ∧ f.name ∉ names).map fun f => .missingMember f.name := by
  rw [missing?, h.mandatory_eq, List.find?_map, List.find?_filter, Option.map_map]
  congr 1
  refine List.find?_congr fun f hf => ?_
  have hmem : f.name ∈ fields.names := h.mem_names_iff.mpr ⟨f, hf, rfl⟩
  simp [filter_isSome_reading?, hmem]

variable {k : Kind}

/-- The values of the members, in the order of the text and as often as they stand there. -/
theorem named_iff (h : fields.Judge k.members) (hfault : ∀ m ∈ members.toList, m.2.fault? room = none) :
    (∀ m ∈ members.toList, (fields.reading? room m.1).getD (Tree.anyProblem? room) m.2 = none) ↔
      ∀ f ∈ k.members, ∀ m ∈ members.toList.map fun m => (m.1, m.2.json), m.1 = f.name → Acceptable f.want m.2 := by
  simp only [List.forall_mem_map]
  constructor
  · exact fun hread f hf m hm => (h.read_eq_none_iff (hfault m hm)).mp (hread m hm) f hf
  · exact fun hnamed m hm => (h.read_eq_none_iff (hfault m hm)).mpr fun f hf => hnamed f hf m hm

/-- Members whose values are values have no problem just where they make an object that is acceptable. -/
theorem problem?_eq_none_iff (h : fields.Judge k.members) (hcomplete : members.Complete)
    (hfault : ∀ m ∈ members.toList, m.2.fault? room = none) :
    members.problem? (fields.reading? room) (Tree.anyProblem? room) fields.missing? [] = none ↔
      Acceptable (.object k) (.object (members.toList.map fun m => (m.1, m.2.json))) := by
  have hpresent : fields.missing? (members.names.filter fun n => (fields.reading? room n).isSome).reverse = none ↔
      ∀ f ∈ k.members, f.isRequired → f.name ∈ members.names := by
    rw [h.missing?_eq, Option.map_eq_none_iff, List.find?_eq_none]
    simp
  rw [Members.problem?_eq_none_iff, h.nodup_iff, List.append_nil, hpresent, h.named_iff hfault]
  constructor
  · rintro ⟨-, hnamed, honce, -, hpresent⟩
    refine .object ?_ ?_ hnamed
    · rwa [Kind.Once, keys_map]
    · rwa [Kind.Present, keys_map]
  · intro hacc
    cases hacc with
    | object honce hpresent hnamed =>
      rw [Kind.Once, keys_map] at honce
      rw [Kind.Present, keys_map] at hpresent
      exact ⟨hcomplete, hnamed, honce, fun _ _ => List.not_mem_nil, hpresent⟩

end Fields.Judge

/-- An object with fields judges by the declared members. -/
theorem Shape.Judges.record {title : String} {fields : Fields} {k : Kind} (hfields : fields.Judge k.members) :
    (Shape.record title fields).Judges (.object k) where
  accepts {t room} h := by
    constructor
    · intro hnone
      obtain ⟨members, r, rfl, rfl, -⟩ := record_eq_none_iff.mp hnone
      obtain ⟨r, hroom, hcomplete, hfault⟩ := Tree.fault?_object_eq_none_iff.mp h
      cases hroom
      rw [Tree.json, Members.jsons_eq, ← hfields.problem?_eq_none_iff hcomplete hfault]
      exact hnone
    · intro hacc
      generalize hx : t.json = x at hacc
      have hacc' := hacc
      cases hacc with
      | object =>
        obtain ⟨members, r, rfl, rfl, hcomplete, hfault, rfl⟩ := Tree.exists_object h hx
        exact (hfields.problem?_eq_none_iff hcomplete hfault).mpr hacc'
  isData {t room p} h hp := by
    cases t with
    | object members =>
      obtain ⟨r, rfl, hcomplete, hfault⟩ := Tree.fault?_object_eq_none_iff.mp h
      rw [problem?] at hp
      rcases Members.exists_of_problem?_eq_some hcomplete hp with ⟨m, hm, hread⟩ | ⟨n, rfl⟩ | ⟨met, hmet⟩
      · exact hfields.isData_of_read_eq_some (hfault m hm) hread
      · rfl
      · obtain ⟨n, -, rfl⟩ := Option.map_eq_some_iff.mp hmet
        rfl
    | _ =>
      obtain rfl := Option.some.inj hp
      exact Tree.isSome_message?_mismatch h _
  missing {t room name} h hlacks := by
    generalize hx : t.json = x at hlacks
    cases hlacks with
    | @member k _ _ n g _ hg hname hlacks honce hpresent hothers =>
      obtain ⟨members, r, rfl, rfl, hcomplete, hfault, hms⟩ := Tree.exists_object h hx
      obtain ⟨before, behind, hsplit, rfl, hbehind⟩ := List.map_eq_append_iff.mp hms.symm
      obtain ⟨m, after, rfl, rfl, rfl⟩ := List.map_eq_cons_iff.mp hbehind
      rw [hms, Kind.Once, keys_map] at honce
      have hnodup := (hfields.nodup_iff r members.names).mpr honce
      have hm : m ∈ members.toList := by simp [hsplit]
      obtain ⟨shape, hshape, hread⟩ := hfields.read_of_mem r hg hname
      rw [problem?]
      refine Members.problem?_eq_some_of_split hcomplete hsplit (fun m' hm' => ?_)
        (hread.trans (hshape.missing (hfault m hm) hlacks)) hnodup
      have hm'' : m' ∈ members.toList := by
        rw [hsplit]
        exact List.mem_append_left _ hm'
      refine (hfields.read_eq_none_iff (hfault m' hm'')).mpr fun f hf => hothers f hf (m'.1, m'.2.json) ?_
      exact List.mem_append_left _ (List.mem_map_of_mem hm')
    | @here k ms g hfirst honce hnamed =>
      obtain ⟨members, r, rfl, rfl, hcomplete, hfault, rfl⟩ := Tree.exists_object h hx
      rw [Kind.Once, keys_map] at honce
      rw [keys_map] at hfirst
      have hread := (hfields.named_iff hfault).mpr hnamed
      have hnodup := (hfields.nodup_iff r members.names).mpr honce
      rw [problem?, Members.problem?_eq_atEnd hcomplete hread hnodup, hfields.missing?_eq, Members.names, hfirst]
      rfl

end WorkflowAugment
