import WorkflowAugment.Proofs.Index

/-!
# Finding templates

A template is found by its name in two ways: by going through the templates up to the first of that name, or by the position
that the index has for it. Where there is an index the two agree, since it has one entry for each template and no others
(`Workflow.index_agrees`).
-/

namespace WorkflowAugment

namespace IndexAux

/-- There is one entry for each template. -/
theorem length_entries (n : Nat) (ts : List Template) : (entries n ts).length = ts.length := by
  rw [entries, List.length_map, List.length_zipIdx]

/-- The names in the entries are those of the templates, in their order. -/
theorem keys_entries (ts : List Template) : ∀ n : Nat, (entries n ts).map (·.1) = ts.map (·.name) := by
  induction ts with
  | nil => exact fun _ => rfl
  | cons t ts ih =>
    intro n
    rw [entries_cons, List.map_cons, ih, List.map_cons]

end IndexAux

open IndexAux

namespace Workflow

variable {w : Workflow} {index : Index} {e : ManifestError}

/-- The index lists every template once, with the position it stands at. -/
theorem index_eq_entries (h : w.index = .ok index) : index = entries 0 w.templates := by
  rcases indexFrom_cases w.templates 0 [] List.nodup_nil with ⟨-, hok⟩ | ⟨_, _, _, -, -, -, herror⟩
  · exact Except.ok.inj (h.symm.trans hok)
  · nomatch h.symm.trans herror

/-- There is an index exactly if no two templates share their name. -/
theorem exists_index_iff : (∃ index, w.index = .ok index) ↔ w.names.Nodup := by
  constructor
  · rintro ⟨index, h⟩
    exact (index_ok h).1
  · intro hnodup
    rcases w.index_cases with ⟨-, index, hok, -⟩ | ⟨before, t, hrepeats, -⟩
    · exact ⟨index, hok⟩
    · exact absurd hnodup hrepeats.not_nodup

/-- Going through the templates leads to the one at the position that the index has for the name. -/
theorem IndexedBy.template?_eq (hI : w.IndexedBy index) (name : String) :
    w.template? name = (index.lookup name).bind (w.templates[·]?) := by
  cases hlookup : index.lookup name with
  | none =>
    have hnot : name ∉ w.names := hI.lookup_eq_none_iff.mp hlookup
    rw [template?, Option.bind_none, List.find?_eq_none]
    intro t ht heq
    exact hnot (of_decide_eq_true heq ▸ List.mem_map_of_mem ht)
  | some pos =>
    obtain ⟨t, ht, hname⟩ := (hI name pos).mp hlookup
    obtain ⟨u, hu⟩ : ∃ u, w.template? name = some u := by
      rw [← Option.isSome_iff_exists, template?, List.find?_isSome]
      exact ⟨t, List.mem_of_getElem? ht, decide_eq_true hname⟩
    obtain ⟨hname', q, hq, hu', -⟩ := List.find?_eq_some_iff_getElem.mp hu
    have hat : w.templates[q]? = some u := List.getElem?_eq_some_iff.mpr ⟨hq, hu'⟩
    -- The first template of the name cannot stand anywhere but at the position that the index has.
    have hpos : q = pos := hI.eq_of_name hat ht ((of_decide_eq_true hname').trans hname.symm)
    rw [hu, Option.bind_some, ← hpos, hat]

/-- Where the index cannot be made, a name is repeated for the first time. -/
theorem RepeatsFirst.exists_position {before : List Template} {t : Template} (h : w.RepeatsFirst before t) :
    ∃ pos, w.templates[pos]? = some t ∧ (w.names.take pos).Nodup ∧ t.name ∈ w.names.take pos := by
  obtain ⟨⟨after, hsplit⟩, hnodup, hmem⟩ := h
  have htake : w.names.take before.length = before.map (·.name) := by
    rw [names, ← List.map_take, hsplit, List.take_left]
  refine ⟨before.length, ?_, ?_, ?_⟩
  · rw [hsplit, List.getElem?_append_right (Nat.le_refl _), Nat.sub_self, List.getElem?_cons_zero]
  · rwa [htake]
  · rwa [htake]

/-- Without an index there is a first name that has been given before, and it is the one that is named. -/
theorem index_eq_error (h : w.index = .error e) :
    ∃ pos t, w.templates[pos]? = some t ∧ e = .duplicateTemplate t.name ∧ (w.names.take pos).Nodup ∧
      t.name ∈ w.names.take pos := by
  rcases w.index_cases with ⟨-, index, hok, -⟩ | ⟨before, t, hrepeats, herror⟩
  · nomatch h.symm.trans hok
  · obtain ⟨pos, ht, hnodup, hmem⟩ := hrepeats.exists_position
    exact ⟨pos, t, ht, Except.error.inj (h.symm.trans herror), hnodup, hmem⟩

/-- There is an index exactly if all templates have different names. It then has one entry for each template, a name has a
position in it exactly if the template that stands there has the name, and that template is the one that is found by going
through them, if any is. Where there is no index, the error names the template at a position that is the first to have a name
which one before it has. -/
theorem index_agrees (w : Workflow) :
    ((∃ index, w.index = .ok index) ↔ w.names.Nodup) ∧
    (∀ index, w.index = .ok index →
      index.length = w.templates.length ∧ (index.map (·.1)).Nodup ∧
      (∀ name pos, index.lookup name = some pos ↔ ∃ t, w.templates[pos]? = some t ∧ t.name = name) ∧
      ∀ name, w.template? name = (index.lookup name).bind (w.templates[·]?)) ∧
    ∀ e, w.index = .error e →
      ∃ pos t, w.templates[pos]? = some t ∧ e = .duplicateTemplate t.name ∧ (w.names.take pos).Nodup ∧
        t.name ∈ w.names.take pos := by
  refine ⟨exists_index_iff, fun index h => ?_, fun e => index_eq_error⟩
  obtain ⟨hnodup, hI⟩ := index_ok h
  have hentries := index_eq_entries h
  refine ⟨?_, ?_, hI, hI.template?_eq⟩
  · rw [hentries, length_entries]
  · rw [hentries, keys_entries]
    exact hnodup

/-- Of three templates the third repeats the name of the first, and the search never gets to it. -/
example :
    let t : String → Template := fun name => .ofDag name (.ofTasks [])
    let w : Workflow := .ofTemplates "a" [t "a", t "b", .ofContainer "a" (.ofImage "i")]
    w.index = .error (.duplicateTemplate "a") ∧ (w.template? "a").map (·.isDag) = some true := ⟨rfl, rfl⟩

end Workflow

end WorkflowAugment
