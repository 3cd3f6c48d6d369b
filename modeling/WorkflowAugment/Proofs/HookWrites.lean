import Mathlib.Data.Finset.Card
import Mathlib.Data.List.Lex
import WorkflowAugment.Augment.Injection
import WorkflowAugment.Proofs.Json.Restoring

/-!
# Writing the hooks of a task

Hooks are written for an event, for the end of the task, or by attaching an exit hook, which writes nothing if there is no exit
template. One write changes what one event has (`Task.get?_write`), so after any sequence of them each event has the hook that
was written for it last (`Task.get?_writeAll`). With the order of the events and what a document gives, that is all there is to
say about the hooks of a task (`Task.hooks_writeAll`).
-/

namespace WorkflowAugment

/-- A way to write a hook of a task. -/
inductive HookWrite where
  | insert (event : String) (hook : Hook)
  | setExit (hook : Hook)
  | addExitHook (exit parent : String)

/-- The event that is written, with its hook. Attaching an exit hook that has no template writes nothing. -/
def HookWrite.entry? : HookWrite → Option (String × Hook)
  | .insert event hook => some (event, hook)
  | .setExit hook => some ("exit", hook)
  | .addExitHook exit parent =>
    if exit = "" then none else some ("exit", ⟨exit, ⟨[⟨"parent-dag-id", some parent, .empty⟩], .empty⟩, .empty⟩)

namespace Task

/-- What a write gives back, and the task after it. Attaching an exit hook gives nothing back. -/
def write (t : Task) : HookWrite → Option Hook × Task
  | .insert event hook =>
    let (old, hooks) := t.hooks.replace event hook
    (old, { t with hooks })
  | .setExit hook =>
    let (old, hooks) := Hooks.replaceExit t.hooks hook
    (old, { t with hooks })
  | .addExitHook exit parent => (none, t.addExitHook exit parent)

/-- The task after writes made one after another. -/
def writeAll (t : Task) (ws : List HookWrite) : Task := ws.foldl (fun t w => (t.write w).2) t

variable (t : Task)

/-! ## One write -/

/-- A write gives its event the new hook and leaves every other event what it had. -/
theorem get?_write (w : HookWrite) (event : String) :
    (t.write w).2.hooks.get? event =
      (w.entry?.bind fun e => if e.1 = event then some e.2 else none).or (t.hooks.get? event) := by
  have hinsert : ∀ k hook, (t.hooks.insert k hook).get? event =
      (if k = event then some hook else none).or (t.hooks.get? event) := by
    intro k hook
    rw [Dict.get?_insert]
    split <;> rfl
  cases w with
  | insert k hook =>
    change (t.hooks.replace k hook).2.get? event = _
    rw [Dict.replace_snd]
    exact hinsert k hook
  | setExit hook =>
    change (t.hooks.replace "exit" hook).2.get? event = _
    rw [Dict.replace_snd]
    exact hinsert "exit" hook
  | addExitHook exit parent =>
    simp only [write, Task.addExitHook, HookWrite.entry?]
    split
    · rfl
    · exact hinsert "exit" (exitHook exit parent)

/-- What is given back by a write for an event is what was there. -/
theorem write_insert_fst (event : String) (hook : Hook) : (t.write (.insert event hook)).1 = t.hooks.get? event :=
  t.hooks.replace_fst event hook

/-- To set the hook for the exit gives the one that was there. -/
theorem write_setExit_fst (hook : Hook) : (t.write (.setExit hook)).1 = t.hooks.get? "exit" :=
  t.hooks.replace_fst "exit" hook

/-! ## Any number of writes -/

/-- Every event has the hook that was written for it last, or the one it had if none was written. -/
theorem get?_writeAll (ws : List HookWrite) (event : String) :
    (t.writeAll ws).hooks.get? event = (lastNamed event (ws.filterMap HookWrite.entry?)).or (t.hooks.get? event) := by
  induction ws generalizing t with
  | nil => rfl
  | cons w ws ih =>
    have hstep : t.writeAll (w :: ws) = (t.write w).2.writeAll ws := rfl
    rw [hstep, ih, get?_write]
    cases hentry : w.entry? with
    | none => rw [List.filterMap_cons_none hentry, Option.bind_none, Option.none_or]
    | some e => rw [List.filterMap_cons_some hentry, lastNamed_cons, Option.bind_some, Option.or_assoc]

/-- The events with a hook are those that had one and those that were written. -/
theorem mem_events_writeAll (ws : List HookWrite) (event : String) :
    event ∈ (t.writeAll ws).hooks.entries.map (·.1) ↔
      event ∈ (t.hooks.entries ++ ws.filterMap HookWrite.entry?).map (·.1) := by
  have hlast : (lastNamed event (ws.filterMap HookWrite.entry?)).isSome ↔
      event ∈ (ws.filterMap HookWrite.entry?).map (·.1) := by
    rw [lastNamed, isSome_lookup_iff, List.map_reverse, List.mem_reverse]
  rw [← isSome_lookup_iff, ← Dict.get?_eq_lookup, get?_writeAll, Option.isSome_or, Bool.or_eq_true, hlast,
    Dict.get?_eq_lookup, isSome_lookup_iff, List.map_append, List.mem_append, or_comm]

/-- As many events have a hook as there are different ones among those that had one and those that were written. -/
theorem size_writeAll (ws : List HookWrite) :
    (t.writeAll ws).hooks.size = ((t.hooks.entries ++ ws.filterMap HookWrite.entry?).map (·.1)).toFinset.card := by
  have hsame : ((t.writeAll ws).hooks.entries.map (·.1)).toFinset =
      ((t.hooks.entries ++ ws.filterMap HookWrite.entry?).map (·.1)).toFinset := by
    ext event
    rw [List.mem_toFinset, List.mem_toFinset, mem_events_writeAll]
  rw [← hsame, List.toFinset_card_of_nodup (Dict.nodup_keys _), List.length_map, Dict.size]

end Task

/-! ## The order of the events -/

/-- The keys of a dictionary ascend by their code points. -/
theorem Dict.ascending_codePoints {β : Type} (d : Dict β) :
    d.entries.Pairwise fun a b => a.1.toList.map Char.toNat < b.1.toList.map Char.toNat := by
  refine d.ascending.imp fun {a b} hlt => ?_
  have hchars : a.1.toList < b.1.toList := hlt
  exact List.map_lt (fun _ _ h => h) hchars

namespace Hooks

/-- The text that is written for hooks is an object that names the events in the order of the dictionary. -/
theorem names_text (h : Hooks) (isPretty : Bool) :
    ∃ members, Tree.scan (Hooks.codec.text isPretty h).toList = (.object members, []) ∧
      members.names = h.entries.map (·.1) := by
  refine ⟨Json.toMembers (h.entries.map fun e => (e.1, Hook.codec.write e.2)), ?_, ?_⟩
  · rw [Codec.text, Json.scan_render, Hooks.codec, Codec.dictionary, Json.toTree]
  · rw [Json.names_toMembers, keys_map]

/-- Hooks are read from a text that gives hooks, and have, for each event, the last one that it gives for it. -/
theorem get?_of_read {text : String} {h : Hooks} (hread : Hooks.codec.read text = .ok h) :
    ∃ members, (Tree.scan text.toList).1 = .object members ∧
      (∀ m ∈ members.toList, Hook.codec.shape.problem? (maxDepth - 1) m.2 = none) ∧
      ∀ event, h.get? event = (lastNamed event members.toList).map Hook.codec.value := by
  obtain ⟨hfits, hvalue⟩ := Codec.read_eq_ok hread
  obtain ⟨members, r, hobject, hroom, -, hhooks⟩ := Shape.dictionary_eq_none_iff.mp hfits
  refine ⟨members, hobject, ?_, fun event => ?_⟩
  · rwa [hroom, Nat.add_sub_cancel]
  · rw [← hvalue, hobject, Hooks.codec, Codec.dictionary, Dict.get?_ofList, lastNamed_map]

end Hooks

/-- The hooks of a task, whatever they are at first and however they are written. Each event has the hook of the last write to
it, or the one it had at first if there is none. A further write of a hook gives back what the event has now. There are as many
hooks as different events, and they are listed by strictly ascending code points, in memory as well as in the text that is
written. The exit hook is that of the event `exit`. Of a document that gives an event several times, the last hook counts. -/
theorem Task.hooks_writeAll (t : Task) (ws : List HookWrite) :
    (∀ event, (t.writeAll ws).hooks.get? event =
      (lastNamed event (ws.filterMap HookWrite.entry?)).or (t.hooks.get? event)) ∧
    (∀ event hook, ((t.writeAll ws).write (.insert event hook)).1 = (t.writeAll ws).hooks.get? event) ∧
    (∀ hook, ((t.writeAll ws).write (.setExit hook)).1 = (t.writeAll ws).hooks.get? "exit") ∧
    (t.writeAll ws).hooks.size = ((t.hooks.entries ++ ws.filterMap HookWrite.entry?).map (·.1)).toFinset.card ∧
    ((t.writeAll ws).hooks.entries.Pairwise fun a b => a.1.toList.map Char.toNat < b.1.toList.map Char.toNat) ∧
    (∀ event hook, (event, hook) ∈ (t.writeAll ws).hooks.entries ↔ (t.writeAll ws).hooks.get? event = some hook) ∧
    (∀ isPretty, ∃ members,
      Tree.scan (Hooks.codec.text isPretty (t.writeAll ws).hooks).toList = (.object members, []) ∧
        members.names = (t.writeAll ws).hooks.entries.map (·.1)) ∧
    Hooks.exit? (t.writeAll ws).hooks = (t.writeAll ws).hooks.get? "exit" ∧
    ∀ text, Hooks.codec.read text = .ok t.hooks →
      ∃ members, (Tree.scan text.toList).1 = .object members ∧
        (∀ m ∈ members.toList, Hook.codec.shape.problem? (maxDepth - 1) m.2 = none) ∧
        ∀ event, t.hooks.get? event = (lastNamed event members.toList).map Hook.codec.value := by
  refine ⟨t.get?_writeAll ws, (t.writeAll ws).write_insert_fst, (t.writeAll ws).write_setExit_fst, t.size_writeAll ws,
    (t.writeAll ws).hooks.ascending_codePoints, fun event hook => ?_, (t.writeAll ws).hooks.names_text, rfl,
    fun text => Hooks.get?_of_read⟩
  rw [mem_iff_lookup (Dict.nodup_keys _), Dict.get?_eq_lookup]

/-- An event above and one below `exit`, and three writes for the end of the task of which the second writes nothing. -/
example :
    let hook : String → Hook := fun template => ⟨template, .empty, .empty⟩
    let t := (Task.invoking "t" "a").writeAll
      [.insert "running" (hook "b"), .addExitHook "c" "id", .addExitHook "" "other", .insert "Exit" (hook "d"),
        .setExit (hook "e")]
    t.hooks.entries.map (fun e => (e.1, e.2.template)) = [("Exit", "d"), ("exit", "e"), ("running", "b")] := by
  decide

end WorkflowAugment
