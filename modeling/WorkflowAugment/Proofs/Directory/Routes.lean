import Mathlib.Data.List.TakeWhile
import WorkflowAugment.Directory

/-!
# The place that a path leads to

`resolve` walks a path from a place, segment by segment, and says which place it leads to. The stack that a path is cleaned
with is a `Route`: so many levels up, then down through names. A route is all that matters of a path (`exists_route`), its
text leads where the path leads (`resolve_clean`), and two routes that lead to the same place from everywhere are one
(`Route.text_eq_of_leads`), so the cleaned directory of a path stands for the place of the directory and for nothing else
(`directoryOf_canonical`).
-/

namespace WorkflowAugment

/-! ## Cutting and gluing -/

namespace Text

variable {c : Char} {s : List Char}

/-- Cutting at a separator cuts what stands on either side of it. -/
theorem split_append_cons (c : Char) (s t : List Char) : split c (s ++ c :: t) = split c s ++ split c t := by
  induction s with
  | nil => simp [split]
  | cons x s ih =>
    by_cases hx : x = c
    · simp [split, hx, ih]
    · cases hs : split c s with
      | nil => exact absurd hs (split_ne_nil c s)
      | cons p ps => simp [split, hx, ih, hs]

/-- A text without the separator is one piece. -/
theorem split_of_notMem (h : c ∉ s) : split c s = [s] := by
  induction s with
  | nil => rfl
  | cons x s ih =>
    obtain ⟨hx, hs⟩ := not_or.mp (mt List.mem_cons.mpr h)
    simp [split, Ne.symm hx, ih hs]

/-- No piece has the separator in it. -/
theorem notMem_of_mem_split : ∀ {s : List Char}, ∀ p ∈ split c s, c ∉ p
  | [] => by simp [split]
  | x :: s => by
    have ih : ∀ p ∈ split c s, c ∉ p := notMem_of_mem_split
    by_cases hx : x = c
    · simpa [split, hx] using ih
    · cases hs : split c s with
      | nil => exact absurd hs (split_ne_nil c s)
      | cons q qs =>
        rw [hs, List.forall_mem_cons] at ih
        simpa [split, hx, hs, Ne.symm hx] using ih

/-- Pieces that are glued come apart as they were. -/
theorem split_join {ps : List (List Char)} (hne : ps ≠ []) (h : ∀ p ∈ ps, c ∉ p) : split c (join c ps) = ps := by
  induction ps with
  | nil => exact absurd rfl hne
  | cons p ps ih =>
    obtain ⟨hp, hps⟩ := List.forall_mem_cons.mp h
    cases ps with
    | nil => exact split_of_notMem hp
    | cons q qs => rw [join, split_append_cons, split_of_notMem hp, ih (by simp) hps, List.singleton_append]

/-- Pieces of which none is empty make up a text that is not. -/
theorem join_ne_nil {ps : List (List Char)} (hne : ps ≠ []) (h : ∀ p ∈ ps, p ≠ []) : join c ps ≠ [] := by
  cases ps with
  | nil => exact absurd rfl hne
  | cons p ps => cases ps <;> simp [join, h p]

end Text

namespace Directory

open Text (split join)

/-! ## Places -/

/-- The segment is the name of something in a directory. -/
def IsName (s : List Char) : Prop := s ≠ [] ∧ s ≠ here ∧ s ≠ above ∧ '/' ∉ s

/-- The place that one segment leads to, a place being the names on the way to it, the last one first. Above the first place
there is nothing, so `..` stays there. -/
def walk (place : List (List Char)) (segment : List Char) : List (List Char) :=
  if segment = [] ∨ segment = here then place
  else if segment = above then place.tail
  else segment :: place

/-- The place that a path leads to from a place; a path that begins with a slash is walked from the first place. -/
def resolve (place : List (List Char)) (path : List Char) : List (List Char) :=
  (split '/' path).foldl walk (if isRooted path then [] else place)

/-- What follows the last slash of a path. -/
def afterLastSlash (path : List Char) : List Char := (path.reverse.takeWhile (· ≠ '/')).reverse

variable {path q : List Char} {rooted : Bool}

@[simp] theorem above_ne_nil : above ≠ [] := by decide

@[simp] theorem above_ne_here : above ≠ here := by decide

@[simp] theorem walk_nil (place : List (List Char)) : walk place [] = place := by simp [walk]

@[simp] theorem walk_here (place : List (List Char)) : walk place here = place := by simp [walk]

@[simp] theorem walk_above (place : List (List Char)) : walk place above = place.tail := by simp [walk]

/-- A name leads to the place below. -/
theorem walk_name (place : List (List Char)) {s : List Char} (h : IsName s) : walk place s = s :: place := by
  rw [walk, if_neg (not_or.mpr ⟨h.1, h.2.1⟩), if_neg h.2.2.1]

@[simp] theorem push_nil (rooted : Bool) (stack : List (List Char)) : push rooted stack [] = stack := by simp [push]

@[simp] theorem push_here (rooted : Bool) (stack : List (List Char)) : push rooted stack here = stack := by simp [push]

/-- A name is put on top of the stack. -/
theorem push_name (rooted : Bool) (stack : List (List Char)) {s : List Char} (h : IsName s) :
    push rooted stack s = s :: stack := by
  unfold push
  rw [if_neg (not_or.mpr ⟨h.1, h.2.1⟩), if_neg h.2.2.1]

/-- Whether a path is rooted is seen from its beginning. -/
theorem isRooted_append (hq : q ≠ []) (t : List Char) : isRooted (q ++ t) = isRooted q := by
  cases q with
  | nil => exact absurd rfl hq
  | cons c q => rfl

/-- A path without a slash is relative. -/
theorem isRooted_of_notMem (h : '/' ∉ q) : isRooted q = false := by
  cases q with
  | nil => rfl
  | cons c q =>
    simp only [List.mem_cons, not_or] at h
    simp [isRooted, Ne.symm h.1]

/-- A path that goes on behind a slash leads where its second part leads from the place of the first. -/
theorem resolve_append_slash (hq : q ≠ []) (place : List (List Char)) (t : List Char) :
    resolve place (q ++ '/' :: t) = (split '/' t).foldl walk (resolve place q) := by
  rw [resolve, resolve, isRooted_append hq, Text.split_append_cons, List.foldl_append]

/-! ## The two parts of a path -/

/-- The two parts of a path make up the whole. -/
theorem upToLastSlash_append_afterLastSlash (path : List Char) : upToLastSlash path ++ afterLastSlash path = path := by
  rw [upToLastSlash, afterLastSlash, ← List.reverse_append, List.takeWhile_append_dropWhile, List.reverse_reverse]

/-- Behind the last slash there is none. -/
theorem slash_notMem_afterLastSlash (path : List Char) : '/' ∉ afterLastSlash path := by
  intro h
  rw [afterLastSlash, List.mem_reverse] at h
  simpa using List.mem_takeWhile_imp h

/-- The first part is empty or ends with a slash. -/
theorem upToLastSlash_cases (path : List Char) :
    upToLastSlash path = [] ∨ ∃ before, upToLastSlash path = before ++ ['/'] := by
  rw [upToLastSlash]
  cases hdrop : path.reverse.dropWhile (· ≠ '/') with
  | nil => exact .inl rfl
  | cons c rest =>
    have hhead := List.head?_dropWhile_not (fun x : Char => decide (x ≠ '/')) path.reverse
    rw [hdrop] at hhead
    obtain rfl : c = '/' := by simpa using hhead
    exact .inr ⟨rest.reverse, List.reverse_cons⟩

/-- What leads to the same place as the first part, if it is not empty, leads to the place of the path once the second part
is behind it. -/
theorem resolve_append_afterLastSlash (hq : q ≠ []) (h : ∀ place, resolve place q = resolve place (upToLastSlash path))
    (place : List (List Char)) : resolve place (q ++ '/' :: afterLastSlash path) = resolve place path := by
  have hbase := slash_notMem_afterLastSlash path
  have hpath := upToLastSlash_append_afterLastSlash path
  rw [resolve_append_slash hq, h]
  rcases upToLastSlash_cases path with hdir | ⟨before, hdir⟩
  · rw [hdir, List.nil_append] at hpath
    rw [hpath] at hbase
    rw [hdir, hpath, resolve, resolve, isRooted_of_notMem hbase]
    rfl
  · have hroot : isRooted path = isRooted (before ++ ['/']) := by
      rw [← hpath, hdir, isRooted_append (by simp)]
    rw [hdir, List.append_assoc, List.singleton_append] at hpath
    have hsplit : split '/' path = split '/' before ++ split '/' (afterLastSlash path) :=
      (congrArg (split '/') hpath.symm).trans (Text.split_append_cons '/' before _)
    rw [hdir, resolve, resolve, hroot, hsplit, Text.split_append_cons, List.foldl_append, List.foldl_append]
    simp [split]

/-! ## Routes -/

/-- A way through places: so many levels up and then down through names, the last one first. From the first place no way
leads up. -/
structure Route (rooted : Bool) where
  up : Nat
  down : List (List Char)
  isName : ∀ s ∈ down, IsName s
  up_eq_zero : rooted → up = 0

namespace Route

variable {r r' : Route rooted}

/-- The way that leads nowhere else. -/
def stay : Route rooted := ⟨0, [], by simp, fun _ => rfl⟩

/-- The way up that a route begins with. -/
def ascent (r : Route rooted) : Route rooted := ⟨r.up, [], List.forall_mem_nil _, r.up_eq_zero⟩

/-- The route that goes on to a name. -/
def enter (r : Route rooted) {name : List Char} (h : IsName name) : Route rooted :=
  ⟨r.up, name :: r.down, List.forall_mem_cons.mpr ⟨h, r.isName⟩, r.up_eq_zero⟩

/-- The stack that stands for the route when a path is cleaned. -/
def stack (r : Route rooted) : List (List Char) := r.down ++ List.replicate r.up above

/-- The segments of the route. -/
def segments (r : Route rooted) : List (List Char) := List.replicate r.up above ++ r.down.reverse

/-- The place that the route leads to from a place. -/
def leads (r : Route rooted) (place : List (List Char)) : List (List Char) :=
  r.down ++ (if rooted then [] else place).drop r.up

/-- The text of the route, empty if it is relative and leads nowhere else. -/
def text (r : Route rooted) : List Char := (if rooted then ['/'] else []) ++ join '/' r.segments

/-- The stack has the segments of a route, the last one on top. -/
theorem reverse_stack (r : Route rooted) : r.stack.reverse = r.segments := by
  simp [stack, segments]

/-- One segment more changes the stack of a route to that of another, which leads where the segment leads behind the
first. -/
theorem exists_push (r : Route rooted) {s : List Char} (hs : '/' ∉ s) :
    ∃ r' : Route rooted, push rooted r.stack s = r'.stack ∧ ∀ place, walk (r.leads place) s = r'.leads place := by
  by_cases hskip : s = [] ∨ s = here
  · exact ⟨r, by unfold push; rw [if_pos hskip], fun place => by rw [walk, if_pos hskip]⟩
  by_cases habove : s = above
  · obtain ⟨up, down, isName, hup⟩ := r
    cases down with
    | cons n down =>
      obtain ⟨hn, hdown⟩ := List.forall_mem_cons.mp isName
      exact ⟨⟨up, down, hdown, hup⟩, by simp [push, habove, stack, hn.2.2.1], fun place => by simp [habove, leads]⟩
    | nil =>
      cases rooted with
      | true =>
        obtain rfl : up = 0 := hup rfl
        exact ⟨stay, by simp [push, habove, stack, stay], fun place => by simp [habove, leads, stay]⟩
      | false =>
        refine ⟨⟨up + 1, [], isName, nofun⟩, ?_, fun place => by simp [habove, leads]⟩
        cases up <;> simp [push, habove, stack, List.replicate_succ]
  · have hname : IsName s := ⟨fun h => hskip (.inl h), fun h => hskip (.inr h), habove, hs⟩
    refine ⟨r.enter hname, ?_, fun place => ?_⟩
    · rw [push_name _ _ hname]
      rfl
    · rw [walk_name _ hname]
      rfl

/-- Segments lead a route on to another. -/
theorem exists_foldl_push : ∀ (segments : List (List Char)), (∀ s ∈ segments, '/' ∉ s) → ∀ r : Route rooted,
    ∃ r' : Route rooted, segments.foldl (push rooted) r.stack = r'.stack ∧
      ∀ place, segments.foldl walk (r.leads place) = r'.leads place
  | [], _, r => ⟨r, rfl, fun _ => rfl⟩
  | s :: segments, h, r => by
    obtain ⟨hs, hsegments⟩ := List.forall_mem_cons.mp h
    obtain ⟨mid, hpush, hwalk⟩ := r.exists_push hs
    obtain ⟨last, hpushes, hwalks⟩ := exists_foldl_push segments hsegments mid
    refine ⟨last, by rw [List.foldl_cons, hpush, hpushes], fun place => ?_⟩
    rw [List.foldl_cons, hwalk, hwalks]

/-- The segments of a route lead where the route leads. -/
theorem foldl_walk_segments (r : Route rooted) (place : List (List Char)) :
    r.segments.foldl walk (if rooted then [] else place) = r.leads place := by
  have hup : ∀ (k : Nat) (place : List (List Char)), (List.replicate k above).foldl walk place = place.drop k := by
    intro k
    induction k with
    | zero => intro place; rfl
    | succ k ih =>
      intro place
      rw [List.replicate_succ, List.foldl_cons, walk_above, ih, List.drop_tail, Nat.add_comm]
  have hdown : ∀ (names : List (List Char)) (place : List (List Char)), (∀ s ∈ names, IsName s) →
      names.reverse.foldl walk place = names ++ place := by
    intro names
    induction names with
    | nil => intro place _; rfl
    | cons n names ih =>
      intro place h
      obtain ⟨hn, hnames⟩ := List.forall_mem_cons.mp h
      rw [List.reverse_cons, List.foldl_append, ih place hnames, List.foldl_cons, List.foldl_nil, walk_name _ hn]
      rfl
  rw [segments, List.foldl_append, hup, hdown _ _ r.isName, leads]

/-- The segments of a route are steps up and names. -/
theorem mem_segments {s : List Char} (hs : s ∈ r.segments) : s = above ∨ IsName s := by
  rw [segments, List.mem_append, List.mem_reverse] at hs
  exact hs.imp List.eq_of_mem_replicate (r.isName s)

/-- No segment of a route is empty, says to stay, or has a slash in it. -/
theorem segments_proper : ∀ s ∈ r.segments, s ≠ [] ∧ s ≠ here ∧ '/' ∉ s := by
  intro s hs
  rcases mem_segments hs with rfl | h
  · decide
  · exact ⟨h.1, h.2.1, h.2.2.2⟩

/-- Only without segments there is no text between slashes. -/
theorem join_segments_eq_nil_iff : join '/' r.segments = [] ↔ r.segments = [] := by
  refine ⟨fun h => ?_, fun h => by rw [h]; rfl⟩
  by_contra hne
  exact Text.join_ne_nil hne (fun s hs => (segments_proper s hs).1) h

/-- Only the route that stays and is not rooted has no text. -/
theorem text_eq_nil_iff : r.text = [] ↔ rooted = false ∧ r.segments = [] := by
  cases rooted <;> simp [text, join_segments_eq_nil_iff]

/-- The text of a route is walked as the route is. -/
theorem resolve_text (h : r.text ≠ []) (place : List (List Char)) : resolve place r.text = r.leads place := by
  have hslash : ∀ s ∈ r.segments, '/' ∉ s := fun s hs => (segments_proper s hs).2.2
  rw [← foldl_walk_segments]
  cases rooted with
  | true =>
    have hsplit : split '/' r.text = [] :: split '/' (join '/' r.segments) := Text.split_append_cons '/' [] _
    have hempty : (split '/' (join '/' r.segments)).foldl walk [] = r.segments.foldl walk [] := by
      by_cases hs : r.segments = []
      · rw [hs]
        rfl
      · rw [Text.split_join hs hslash]
    rw [resolve, hsplit]
    exact hempty
  | false =>
    have hjoin : r.text = join '/' r.segments := rfl
    cases hs : r.segments with
    | nil => exact absurd (by rw [hjoin, hs]; rfl) h
    | cons s rest =>
      have hroot : isRooted (join '/' (s :: rest)) = false := by
        obtain ⟨hne, -, hnot⟩ := segments_proper s (hs ▸ List.mem_cons_self)
        cases rest with
        | nil => exact isRooted_of_notMem hnot
        | cons t rest => exact (isRooted_append hne _).trans (isRooted_of_notMem hnot)
      rw [resolve, hjoin, hs, Text.split_join (by simp) (hs ▸ hslash), hroot]

/-- Routes that lead to the same place from everywhere are one, and it is enough to try the places whose names are names. A
route down from the first place does not go on with the place that it starts from, and of two others the one that goes
further up takes away more of a place that is deep enough. -/
theorem text_eq_of_leads {rooted' : Bool} {r : Route rooted} {r' : Route rooted'}
    (h : ∀ place, (∀ n ∈ place, IsName n) → r.leads place = r'.leads place) : r.text = r'.text := by
  have hdeep : ∀ k, ∀ n ∈ List.replicate k ['a'], IsName n := by
    intro k n hn
    rw [List.eq_of_mem_replicate hn]
    simp [IsName, here, above]
  have hdown : r.down = r'.down := by
    have hfirst := h [] (by simp)
    simp only [leads, ite_self, List.drop_nil, List.append_nil] at hfirst
    exact hfirst
  have hlength : ∀ k, (if rooted then 0 else k) - r.up = (if rooted' then 0 else k) - r'.up := by
    intro k
    have hk := congrArg List.length (h _ (hdeep k))
    simp only [leads, hdown, List.length_append, Nat.add_left_cancel_iff, List.length_drop, apply_ite List.length,
      List.length_nil, List.length_replicate] at hk
    exact hk
  obtain ⟨up, down, isName, hup⟩ := r
  obtain ⟨up', down', isName', hup'⟩ := r'
  obtain rfl : down = down' := hdown
  have hk := hlength (up + up' + 1)
  cases rooted with
  | true =>
    obtain rfl : up = 0 := hup rfl
    cases rooted' with
    | true =>
      obtain rfl : up' = 0 := hup' rfl
      rfl
    | false =>
      simp only [if_true, Bool.false_eq_true, if_false] at hk
      omega
  | false =>
    cases rooted' with
    | true =>
      simp only [if_true, Bool.false_eq_true, if_false] at hk
      omega
    | false =>
      simp only [Bool.false_eq_true, if_false] at hk
      obtain rfl : up = up' := by omega
      rfl

end Route

/-! ## The route of a path -/

/-- A path whose segments make up the stack of a route is cleaned to the text of the route. -/
theorem clean_of_foldl_push {r : Route (isRooted path)}
    (h : (split '/' path).foldl (push (isRooted path)) [] = r.stack) :
    clean path = if r.text = [] then here else r.text := by
  have hsegments : segments path = r.segments := by rw [segments, ← r.reverse_stack, ← h]
  rw [clean, hsegments, Route.text]
  by_cases hroot : isRooted path <;> simp [hroot]

/-- A path comes to a route: it is cleaned to the text of the route, and it leads where the route leads. -/
theorem exists_route (path : List Char) : ∃ r : Route (isRooted path),
    clean path = (if r.text = [] then here else r.text) ∧ ∀ place, resolve place path = r.leads place := by
  obtain ⟨r, hpush, hwalk⟩ :=
    Route.exists_foldl_push (split '/' path) Text.notMem_of_mem_split (Route.stay : Route (isRooted path))
  refine ⟨r, clean_of_foldl_push hpush, fun place => ?_⟩
  rw [← hwalk, resolve]
  rfl

/-- A cleaned path leads where the path leads. -/
theorem resolve_clean (place : List (List Char)) (path : List Char) : resolve place (clean path) = resolve place path := by
  obtain ⟨r, hclean, hresolve⟩ := exists_route path
  rw [hclean, hresolve]
  split
  · rename_i htext
    obtain ⟨hroot, hsegments⟩ := Route.text_eq_nil_iff.mp htext
    have hhere : resolve place here = walk place here := rfl
    rw [← r.foldl_walk_segments, hsegments, hroot, hhere, walk_here]
    rfl
  · rename_i htext
    exact Route.resolve_text htext place

/-- Whether a path is rooted is seen from its first part. -/
theorem isRooted_upToLastSlash (path : List Char) : isRooted (upToLastSlash path) = isRooted path := by
  have hpath := upToLastSlash_append_afterLastSlash path
  rcases upToLastSlash_cases path with hdir | ⟨before, hdir⟩
  · rw [hdir, List.nil_append] at hpath
    have hnot := slash_notMem_afterLastSlash path
    rw [hpath] at hnot
    rw [hdir, isRooted_of_notMem hnot]
    rfl
  · exact (isRooted_append (by simp [hdir]) _).symm.trans (congrArg isRooted hpath)

/-! ## Canonical texts -/

/-- The texts of cleaned directories, rooted or not: the root, `.`, or segments with a slash between each two, of which none
is empty or `.`, and `..` stands only in front of all names and only in a relative text. -/
inductive Canonical : Bool → List Char → Prop where
  | root : Canonical true ['/']
  | here : Canonical false here
  | rooted (names : List (List Char)) (hne : names ≠ []) (hnames : ∀ n ∈ names, IsName n) :
    Canonical true ('/' :: join '/' names)
  | relative (up : Nat) (names : List (List Char)) (hne : List.replicate up above ++ names ≠ [])
    (hnames : ∀ n ∈ names, IsName n) : Canonical false (join '/' (List.replicate up above ++ names))

/-- The text of a route is canonical, with `.` for the empty one. -/
theorem Route.canonical (r : Route rooted) : Canonical rooted (if r.text = [] then Directory.here else r.text) := by
  obtain ⟨up, down, isName, hup⟩ := r
  have hnames : ∀ n ∈ down.reverse, IsName n := fun n hn => isName n (List.mem_reverse.mp hn)
  split
  · rename_i htext
    obtain ⟨rfl, -⟩ := text_eq_nil_iff.mp htext
    exact .here
  · rename_i htext
    cases rooted with
    | true =>
      obtain rfl : up = 0 := hup rfl
      by_cases hdown : down.reverse = []
      · simpa [text, segments, hdown, join] using Canonical.root
      · simpa [text, segments] using Canonical.rooted down.reverse hdown hnames
    | false =>
      have hsegments : List.replicate up above ++ down.reverse ≠ [] := fun h => htext (text_eq_nil_iff.mpr ⟨rfl, h⟩)
      exact .relative up down.reverse hsegments hnames

/-- A cleaned path is canonical, and as rooted as the path was. -/
theorem canonical_clean (path : List Char) : Canonical (isRooted path) (clean path) := by
  obtain ⟨r, hclean, -⟩ := exists_route path
  exact hclean ▸ r.canonical

/-- No canonical path is empty. -/
theorem Canonical.ne_nil (h : Canonical rooted path) : path ≠ [] := by
  cases h with
  | root | here | rooted => simp [Directory.here]
  | relative up names hne hnames =>
    refine Text.join_ne_nil hne fun s hs => ?_
    rcases List.mem_append.mp hs with hs | hs
    · exact List.eq_of_mem_replicate hs ▸ above_ne_nil
    · exact (hnames s hs).1

/-- Paths that lead to the same place from everywhere are cleaned to the same text. -/
theorem clean_eq_of_resolve_eq (h : ∀ place, (∀ n ∈ place, IsName n) → resolve place path = resolve place q) :
    clean path = clean q := by
  obtain ⟨r, hclean, hresolve⟩ := exists_route path
  obtain ⟨r', hclean', hresolve'⟩ := exists_route q
  have htext : r.text = r'.text := by
    refine Route.text_eq_of_leads fun place hplace => ?_
    rw [← hresolve, ← hresolve', h place hplace]
  rw [hclean, hclean', htext]

/-! ## The directory of a path -/

/-- The directory of a path is its part up to the last slash, cleaned. -/
theorem toList_directoryOf (p : String) : (directoryOf p).toList = clean (upToLastSlash p.toList) := String.toList_ofList

/-- The directory leads to where the part up to the last slash does. -/
theorem resolve_directoryOf (place : List (List Char)) (p : String) :
    resolve place (directoryOf p).toList = resolve place (upToLastSlash p.toList) := by
  rw [toList_directoryOf, resolve_clean]

/-- The directory of a path is the one text that stands for the place of its first part, which goes up to the last slash. It
leads there from everywhere, so the second part leads from behind it where the path leads; it is canonical; and two paths have
one directory exactly if their first parts lead to the same place from everywhere, which is so if they do from all places that
are given by names. -/
theorem directoryOf_canonical (p : String) :
    (p.toList = upToLastSlash p.toList ++ afterLastSlash p.toList ∧ '/' ∉ afterLastSlash p.toList ∧
      (upToLastSlash p.toList = [] ∨ ∃ before, upToLastSlash p.toList = before ++ ['/'])) ∧
    (∀ place, resolve place (directoryOf p).toList = resolve place (upToLastSlash p.toList) ∧
      resolve place ((directoryOf p).toList ++ '/' :: afterLastSlash p.toList) = resolve place p.toList) ∧
    (directoryOf p ≠ "" ∧ Canonical (isRooted p.toList) (directoryOf p).toList) ∧
    ∀ q : String,
      (directoryOf p = directoryOf q ↔
        ∀ place, resolve place (upToLastSlash p.toList) = resolve place (upToLastSlash q.toList)) ∧
      ((∀ place, (∀ n ∈ place, IsName n) →
          resolve place (upToLastSlash p.toList) = resolve place (upToLastSlash q.toList)) →
        directoryOf p = directoryOf q) := by
  have hcanonical : Canonical (isRooted p.toList) (directoryOf p).toList := by
    rw [toList_directoryOf, ← isRooted_upToLastSlash]
    exact canonical_clean _
  have hne : (directoryOf p).toList ≠ [] := hcanonical.ne_nil
  have hseparated : ∀ q : String, (∀ place, (∀ n ∈ place, IsName n) →
      resolve place (upToLastSlash p.toList) = resolve place (upToLastSlash q.toList)) → directoryOf p = directoryOf q :=
    fun q h => congrArg String.ofList (clean_eq_of_resolve_eq h)
  refine ⟨⟨(upToLastSlash_append_afterLastSlash _).symm, slash_notMem_afterLastSlash _, upToLastSlash_cases _⟩,
    fun place => ⟨resolve_directoryOf place p, ?_⟩, ⟨?_, hcanonical⟩, fun q => ⟨⟨fun h place => ?_, fun h => ?_⟩, ?_⟩⟩
  · exact resolve_append_afterLastSlash hne (fun place => resolve_directoryOf place p) place
  · exact fun h => hne (by rw [h]; rfl)
  · rw [← resolve_directoryOf, ← resolve_directoryOf, h]
  · exact hseparated q fun place _ => h place
  · exact hseparated q

/-- What cannot be left is kept or vanishes, names that begin with dots are names, and slashes do not add up. -/
example : (["", "b.crt", "/b.crt", "a/../../b//./c", "/../.../x", "..a/./x"].map directoryOf) =
    [".", ".", "/", "../b", "/...", "..a"] := by
  decide

end Directory

end WorkflowAugment
