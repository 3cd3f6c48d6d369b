import WorkflowAugment.Proofs.Json.Permuting

/-!
# Which problem is met first

The parts of a tree are read in the order of the text, so the problem of a tree is that of the first part that has one: the
parts before it leave nothing behind but the names that have been met (`Members.exists_behind`). In a tree that is a value no
part has a fault of the text, so any problem there is with the data.
-/

namespace WorkflowAugment

variable {p : Problem}

/-! ## Items -/

namespace Items

variable {read : Tree → Option Problem}

/-- A problem of complete items is one of an item. -/
theorem exists_of_problem?_eq_some :
    ∀ {items : Items}, items.Complete → items.problem? read = some p → ∃ t ∈ items.toList, read t = some p
  | .item head tail, hcomplete, h => by
    rw [problem?, Option.or_eq_some_iff] at h
    rw [toList]
    rcases h with hhead | ⟨-, htail⟩
    · exact ⟨head, List.mem_cons_self, hhead⟩
    · have hcomplete : tail.Complete := hcomplete
      obtain ⟨t, ht, hread⟩ := exists_of_problem?_eq_some hcomplete htail
      exact ⟨t, List.mem_cons_of_mem _ ht, hread⟩

/-- Items have the problem of the first of them that has one. -/
theorem problem?_eq_some_of_split {t : Tree} {after : List Tree} (hread : read t = some p) :
    ∀ {before : List Tree} {items : Items}, items.toList = before ++ t :: after → (∀ x ∈ before, read x = none) →
      items.problem? read = some p
  | [], .item head tail, hsplit, _ => by
    obtain ⟨rfl, -⟩ := List.cons.inj hsplit
    rw [problem?, hread, Option.some_or]
  | x :: before, .item head tail, hsplit, hbefore => by
    obtain ⟨rfl, htail⟩ := List.cons.inj hsplit
    rw [List.forall_mem_cons] at hbefore
    rw [problem?, hbefore.1, Option.none_or]
    exact problem?_eq_some_of_split hread htail hbefore.2

end Items

/-! ## Members -/

namespace Members

variable {known : String → Option (Tree → Option Problem)} {other : Tree → Option Problem}
  {atEnd : List String → Option Problem}

/-- A problem of complete members is one of the value of a member, or a name that is met again, or one with the names in
all. -/
theorem exists_of_problem?_eq_some : ∀ {members : Members} {met : List String}, members.Complete →
    members.problem? known other atEnd met = some p →
      (∃ m ∈ members.toList, (known m.1).getD other m.2 = some p) ∨ (∃ n, p = .repeatedMember n) ∨
        ∃ met, atEnd met = some p
  | .close, met, _, h => .inr (.inr ⟨met, h⟩)
  | .member name value tail, met, hcomplete, h => by
    obtain ⟨⟨s, hs⟩, hcomplete⟩ := hcomplete
    have htail : ∀ met, tail.problem? known other atEnd met = some p →
        (∃ m ∈ (member name value tail).toList, (known m.1).getD other m.2 = some p) ∨ (∃ n, p = .repeatedMember n) ∨
          ∃ met, atEnd met = some p := by
      intro met h
      rcases exists_of_problem?_eq_some hcomplete h with ⟨m, hm, hread⟩ | h
      · exact .inl ⟨m, List.mem_cons_of_mem _ hm, hread⟩
      · exact .inr h
    have hhead : (known s).getD other value = some p →
        ∃ m ∈ (member name value tail).toList, (known m.1).getD other m.2 = some p := by
      intro h
      exact ⟨_, List.mem_cons_self, by rwa [Tree.spelled_of_text hs]⟩
    rw [problem?, hs] at h
    dsimp only at h
    cases hknown : known s with
    | none =>
      rw [hknown] at h hhead
      rcases Option.or_eq_some_iff.mp h with h | ⟨-, h⟩
      · exact .inl (hhead h)
      · exact htail _ h
    | some read =>
      rw [hknown] at h hhead
      dsimp only at h
      split at h
      · exact .inr (.inl ⟨s, (Option.some.inj h).symm⟩)
      · rcases Option.or_eq_some_iff.mp h with h | ⟨-, h⟩
        · exact .inl (hhead h)
        · exact htail _ h

/-- Behind members without a problem the reading goes on with the others, the known names among the former being met. -/
theorem exists_behind (atEnd : List String → Option Problem) {after : List (String × Tree)} :
    ∀ {before : List (String × Tree)} {members : Members} {met : List String}, members.Complete →
      members.toList = before ++ after → (∀ m ∈ before, (known m.1).getD other m.2 = none) →
      ((before.map (·.1)).filter fun n => (known n).isSome).Nodup →
      (∀ n ∈ (before.map (·.1)).filter fun n => (known n).isSome, n ∉ met) →
      ∃ rest : Members, rest.Complete ∧ rest.toList = after ∧ members.problem? known other atEnd met =
        rest.problem? known other atEnd (((before.map (·.1)).filter fun n => (known n).isSome).reverse ++ met)
  | [], members, met, hcomplete, hsplit, _, _, _ => ⟨members, hcomplete, hsplit, rfl⟩
  | m :: before, .member name value tail, met, hcomplete, hsplit, hbefore, hnodup, hfresh => by
    obtain ⟨⟨s, hs⟩, hcomplete⟩ := hcomplete
    obtain ⟨rfl, htail⟩ := List.cons.inj hsplit
    rw [Tree.spelled_of_text hs] at hbefore hnodup hfresh ⊢
    rw [List.forall_mem_cons] at hbefore
    rw [List.map_cons] at hnodup hfresh ⊢
    rw [problem?, hs]
    dsimp only at hbefore ⊢
    cases hknown : known s with
    | none =>
      rw [List.filter_cons_of_neg (by simp [hknown])] at hnodup hfresh ⊢
      rw [hknown, Option.getD_none] at hbefore
      dsimp only
      rw [hbefore.1, Option.none_or]
      exact exists_behind atEnd hcomplete htail hbefore.2 hnodup hfresh
    | some read =>
      rw [List.filter_cons_of_pos (by simp [hknown])] at hnodup hfresh ⊢
      rw [hknown, Option.getD_some] at hbefore
      rw [List.nodup_cons] at hnodup
      rw [List.forall_mem_cons] at hfresh
      dsimp only
      rw [if_neg hfresh.1, hbefore.1, Option.none_or, List.reverse_cons, List.append_assoc, List.singleton_append]
      refine exists_behind atEnd hcomplete htail hbefore.2 hnodup.2 fun n hn => ?_
      rw [List.mem_cons, not_or]
      exact ⟨fun heq => hnodup.1 (heq ▸ hn), hfresh.2 n hn⟩

variable {members : Members}

/-- Members without a problem of their own leave the question of what is wrong with their names in all. -/
theorem problem?_eq_atEnd (hcomplete : members.Complete) (hread : ∀ m ∈ members.toList, (known m.1).getD other m.2 = none)
    (hnodup : (members.names.filter fun n => (known n).isSome).Nodup) :
    members.problem? known other atEnd [] = atEnd (members.names.filter fun n => (known n).isSome).reverse := by
  obtain ⟨rest, hrest, hnil, heq⟩ := exists_behind atEnd hcomplete (List.append_nil _).symm hread
    hnodup (fun _ _ => List.not_mem_nil)
  cases rest with
  | close =>
    rw [heq, problem?, List.append_nil]
    rfl
  | member => cases hnil
  | _ => cases hrest

/-- Members have the problem of the first of them that has one, if no known name is met again before. -/
theorem problem?_eq_some_of_split {before after : List (String × Tree)} {m : String × Tree} (hcomplete : members.Complete)
    (hsplit : members.toList = before ++ m :: after) (hbefore : ∀ x ∈ before, (known x.1).getD other x.2 = none)
    (hread : (known m.1).getD other m.2 = some p)
    (hnodup : (members.names.filter fun n => (known n).isSome).Nodup) :
    members.problem? known other atEnd [] = some p := by
  rw [names, hsplit, List.map_append, List.filter_append, List.map_cons, List.nodup_append] at hnodup
  obtain ⟨hnodup, -, hdisjoint⟩ := hnodup
  obtain ⟨rest, hrest, hmember, heq⟩ := exists_behind atEnd hcomplete hsplit hbefore hnodup
    fun _ _ => List.not_mem_nil
  rw [heq]
  cases rest with
  | member name value tail =>
    obtain ⟨⟨s, hs⟩, -⟩ := hrest
    obtain ⟨rfl, -⟩ := List.cons.inj hmember
    rw [Tree.spelled_of_text hs] at hread hdisjoint
    rw [problem?, hs]
    dsimp only at hread ⊢
    cases hknown : known s with
    | none =>
      rw [hknown, Option.getD_none] at hread
      dsimp only
      rw [hread, Option.some_or]
    | some read =>
      rw [hknown, Option.getD_some] at hread
      dsimp only
      have hself : s ∈ (s :: after.map (·.1)).filter fun n => (known n).isSome :=
        List.mem_filter.mpr ⟨List.mem_cons_self, by simp [hknown]⟩
      have hfresh : s ∉ ((before.map (·.1)).filter fun n => (known n).isSome).reverse ++ [] := by
        rw [List.append_nil, List.mem_reverse]
        exact fun hmem => hdisjoint s hmem s hself rfl
      rw [if_neg hfresh, hread, Option.some_or]
  | _ => cases hmember

end Members

end WorkflowAugment
