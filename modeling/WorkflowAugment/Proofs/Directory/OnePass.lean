import WorkflowAugment.Proofs.Directory.Routes

/-!
# Cleaning a path in one pass

The same directory can be found without a stack: one pass over the path from left to right writes to one buffer, and `..`
cuts the buffer back to the slash before the last name. What may not be cut off, the slash of the root or the run of `..`
that is written already, is marked by a `floor`. The buffer is at each moment the text of the route that the stack of
`Directory.push` stands for (`Output.Shows`), so both ways give one text (`directoryOf_eq_onePass`).
-/

namespace WorkflowAugment

namespace Text

/-- A last piece stands behind a separator, if it is not the only one. -/
theorem join_concat (c : Char) (ps : List (List Char)) (p : List Char) :
    join c (ps ++ [p]) = join c ps ++ (if ps = [] then [] else [c]) ++ p := by
  induction ps with
  | nil => rfl
  | cons q ps ih =>
    cases ps with
    | nil => simp [join]
    | cons q' ps =>
      have hrest : join c (q' :: ps ++ [p]) = join c (q' :: ps) ++ [c] ++ p := by simpa using ih
      simp only [List.cons_append] at hrest
      simp [join, hrest]

end Text

namespace OnePass

open Directory (IsName Route here above push push_nil push_here push_name isRooted)
open Text (split join)

/-! ## The two parts of a path -/

/-- The position behind the last slash in front of a position, 0 if there is none. -/
def behindSlash (path : List Char) : Nat → Nat
  | 0 => 0
  | i + 1 => if path[i]? = some '/' then i + 1 else behindSlash path i

/-- The path up to and including its last slash. -/
def upToSlash (path : List Char) : List Char := path.take (behindSlash path path.length)

/-! ## The pass -/

/-- What is written so far, and how much of it is never cut off. -/
structure Output where
  buffer : List Char
  floor : Nat

/-- The position that a buffer is cut at if it is shortened from a position: the last slash in front, but not less than the
floor. -/
def cutAt (floor : Nat) (buffer : List Char) : Nat → Nat
  | 0 => 0
  | w + 1 => if floor < w ∧ buffer[w]? ≠ some '/' then cutAt floor buffer w else w

namespace Output

/-- The output before anything is read. -/
def start (rooted : Bool) : Output := if rooted then ⟨['/'], 1⟩ else ⟨[], 0⟩

/-- The output after `..`: cut back if something can be cut off, else `..` is written if the path is relative. -/
def climb (rooted : Bool) (o : Output) : Output :=
  if o.floor < o.buffer.length then { o with buffer := o.buffer.take (cutAt o.floor o.buffer o.buffer.length) }
  else if rooted then o
  else
    let buffer := (if 0 < o.buffer.length then o.buffer ++ ['/'] else o.buffer) ++ ['.', '.']
    ⟨buffer, buffer.length⟩

/-- The output after a name, written behind a slash unless it is the first. -/
def descend (rooted : Bool) (o : Output) (name : List Char) : Output :=
  let separated := (rooted ∧ o.buffer.length ≠ 1) ∨ (¬ rooted ∧ o.buffer.length ≠ 0)
  { o with buffer := (if separated then o.buffer ++ ['/'] else o.buffer) ++ name }

end Output

/-- A segment is over: nothing follows, or a slash. -/
def Over (rest : List Char) : Prop := rest = [] ∨ rest.head? = some '/'

instance (rest : List Char) : Decidable (Over rest) := inferInstanceAs (Decidable (_ ∨ _))

/-- The output after the rest of a path is read. -/
def scan (rooted : Bool) (o : Output) : List Char → Output
  | [] => o
  | c :: rest =>
    if c = '/' then scan rooted o rest
    else if c = '.' ∧ Over rest then scan rooted o rest
    else if c = '.' ∧ rest.head? = some '.' ∧ Over rest.tail then scan rooted (o.climb rooted) rest.tail
    else scan rooted (o.descend rooted (c :: rest.takeWhile (· ≠ '/'))) (rest.dropWhile (· ≠ '/'))
termination_by path => path.length
decreasing_by
  · exact Nat.lt_succ_self _
  · exact Nat.lt_succ_self _
  · rw [List.length_tail, List.length_cons]
    omega
  · exact Nat.lt_succ_of_le (List.length_dropWhile_le _ _)

/-- A path cleaned in one pass. -/
def clean (path : List Char) : List Char :=
  if path = [] then ['.']
  else
    let rooted := path.head? = some '/'
    let o := scan rooted (Output.start rooted) (if rooted then path.tail else path)
    if o.buffer.length = 0 then ['.'] else o.buffer

/-- The directory of a path, cleaned in one pass. -/
def directoryOf (path : String) : String := String.ofList (clean (upToSlash path.toList))

/-! ## The last slash -/

variable {path : List Char} {rooted : Bool}

/-- The search for the last slash ends behind a slash, or at the beginning, if no slash follows. -/
theorem behindSlash_eq {k n : Nat} (hkn : k ≤ n) (hstop : k = 0 ∨ path[k - 1]? = some '/')
    (hpass : ∀ i, k ≤ i → i < n → path[i]? ≠ some '/') : behindSlash path n = k := by
  induction n with
  | zero =>
    have hk : k = 0 := by omega
    rw [hk, behindSlash]
  | succ n ih =>
    rw [behindSlash]
    rcases Nat.lt_or_ge n k with hlt | hge
    · have hk : k = n + 1 := by omega
      have hslash : path[n]? = some '/' := by
        rcases hstop with h0 | h
        · omega
        · simpa [hk] using h
      rw [if_pos hslash, hk]
    · rw [if_neg (hpass n hge (by omega))]
      exact ih hge fun i hki hin => hpass i hki (by omega)

/-- The search finds the first part of a path. -/
theorem upToSlash_eq (path : List Char) : upToSlash path = Directory.upToLastSlash path := by
  have hparts : ∀ dir base : List Char, '/' ∉ base → (dir = [] ∨ ∃ before, dir = before ++ ['/']) →
      upToSlash (dir ++ base) = dir := by
    intro dir base hbase hdir
    have hbehind : behindSlash (dir ++ base) (dir ++ base).length = dir.length := by
      refine behindSlash_eq (by simp) ?_ fun i hi _ hslash => ?_
      · rcases hdir with rfl | ⟨before, rfl⟩
        · exact .inl rfl
        · right
          simp
      · rw [List.getElem?_append_right hi] at hslash
        exact hbase (List.mem_of_getElem? hslash)
    rw [upToSlash, hbehind, List.take_left]
  have h := hparts (Directory.upToLastSlash path) (Directory.afterLastSlash path)
    (Directory.slash_notMem_afterLastSlash path) (Directory.upToLastSlash_cases path)
  rwa [Directory.upToLastSlash_append_afterLastSlash] at h

/-! ## Cutting back -/

/-- A cut stops at the floor or at a slash, if it passes neither. -/
theorem cutAt_eq {floor k n : Nat} {buffer : List Char} (hkn : k < n) (hfloor : floor ≤ k)
    (hstop : floor = k ∨ buffer[k]? = some '/') (hpass : ∀ i, k < i → i < n → buffer[i]? ≠ some '/') :
    cutAt floor buffer n = k := by
  induction n with
  | zero => omega
  | succ n ih =>
    rw [cutAt]
    rcases Nat.lt_or_ge k n with hlt | hge
    · have hgo : floor < n ∧ buffer[n]? ≠ some '/' := ⟨by omega, hpass n hlt (by omega)⟩
      rw [if_pos hgo]
      exact ih hlt fun i hki hin => hpass i hki (by omega)
    · have hk : k = n := by omega
      have hstay : ¬(floor < n ∧ buffer[n]? ≠ some '/') := by
        rintro ⟨hlt, hne⟩
        rcases hstop with h | h
        · omega
        · exact hne (hk ▸ h)
      rw [if_neg hstay, hk]

/-- A name is cut off with what separates it from the text in front. -/
theorem take_cutAt {floor : Nat} {kept separator name : List Char} (hname : IsName name) (hfloor : floor ≤ kept.length)
    (hseparator : separator = [] ∧ floor = kept.length ∨ separator = ['/']) :
    (kept ++ separator ++ name).take
      (cutAt floor (kept ++ separator ++ name) (kept ++ separator ++ name).length) = kept := by
  have hlength : 0 < name.length := List.length_pos_iff.mpr hname.1
  have hnot : ∀ i, name[i]? ≠ some '/' := fun i h => hname.2.2.2 (List.mem_of_getElem? h)
  have hcut : cutAt floor (kept ++ separator ++ name) (kept ++ separator ++ name).length = kept.length := by
    refine cutAt_eq (by simp only [List.length_append]; omega) hfloor ?_ fun i hi _ => ?_
    · rcases hseparator with ⟨-, h⟩ | rfl
      · exact .inl h
      · right
        simp
    · rw [List.append_assoc, List.getElem?_append_right (by omega)]
      rcases hseparator with ⟨rfl, -⟩ | rfl
      · exact hnot _
      · rw [List.getElem?_append_right (by simp only [List.length_singleton]; omega)]
        exact hnot _
  rw [hcut, List.append_assoc, List.take_left]

/-! ## The buffer is the text of a route -/

/-- The output shows a route: the buffer is its text, and the floor is the end of its way up. -/
structure Output.Shows (o : Output) (r : Route rooted) : Prop where
  buffer : o.buffer = r.text
  floor : o.floor = r.ascent.text.length

/-- The empty buffer is the text of the route that stays. -/
theorem shows_start (rooted : Bool) : (Output.start rooted).Shows (Route.stay : Route rooted) := by
  cases rooted <;> exact ⟨rfl, rfl⟩

/-- To enter a name puts it behind the text, with a slash in front unless it is the first. -/
theorem text_enter (r : Route rooted) {name : List Char} (h : IsName name) :
    (r.enter h).text = r.text ++ (if r.segments = [] then [] else ['/']) ++ name := by
  have hsegments : (r.enter h).segments = r.segments ++ [name] := by simp [Route.segments, Route.enter]
  rw [Route.text, Route.text, hsegments, Text.join_concat]
  simp only [List.append_assoc]

/-- The text of a route has more in it than the slash of the root exactly if the route has segments. -/
theorem length_text_ne_iff (r : Route rooted) : r.text.length ≠ (if rooted then 1 else 0) ↔ r.segments ≠ [] := by
  cases rooted <;> simp [Route.text, Route.join_segments_eq_nil_iff]

/-- The way up is the beginning of the text. -/
theorem length_ascent_le (r : Route rooted) : r.ascent.text.length ≤ r.text.length := by
  obtain ⟨up, down, isName, hup⟩ := r
  induction down with
  | nil => exact Nat.le_refl _
  | cons n down ih =>
    obtain ⟨hn, hdown⟩ := List.forall_mem_cons.mp isName
    have hlonger : (⟨up, down, hdown, hup⟩ : Route rooted).text.length ≤
        ((⟨up, down, hdown, hup⟩ : Route rooted).enter hn).text.length := by
      rw [text_enter, List.length_append, List.length_append]
      omega
    exact Nat.le_trans (ih hdown) hlonger

/-- A name is written as it is pushed. -/
theorem Output.Shows.descend {o : Output} {r : Route rooted} (h : o.Shows r) {name : List Char} (hname : IsName name) :
    (o.descend rooted name).Shows (r.enter hname) := by
  refine ⟨?_, h.floor⟩
  have hseparated : ((rooted ∧ o.buffer.length ≠ 1) ∨ (¬ rooted ∧ o.buffer.length ≠ 0)) ↔ r.segments ≠ [] := by
    rw [← length_text_ne_iff, h.buffer]
    cases rooted <;> simp
  have hbuffer : (o.descend rooted name).buffer =
      (if r.segments ≠ [] then o.buffer ++ ['/'] else o.buffer) ++ name :=
    congrArg (· ++ name) (if_congr hseparated rfl rfl)
  rw [hbuffer, text_enter, h.buffer]
  by_cases hs : r.segments = [] <;> simp [hs]

/-- The last name is cut off as it is taken off the stack. -/
theorem Output.Shows.cut {o : Output} {r : Route rooted} {name : List Char} {hname : IsName name}
    (h : o.Shows (r.enter hname)) : (o.climb rooted).Shows r := by
  have htext : o.buffer = r.text ++ (if r.segments = [] then [] else ['/']) ++ name := h.buffer.trans (text_enter r hname)
  have hfloor : o.floor ≤ r.text.length := Nat.le_trans (Nat.le_of_eq h.floor) (length_ascent_le r)
  have hless : o.floor < o.buffer.length := by
    have hlength : 0 < name.length := List.length_pos_iff.mpr hname.1
    rw [htext, List.length_append, List.length_append]
    omega
  rw [Output.climb, if_pos hless]
  refine ⟨?_, h.floor⟩
  simp only [htext]
  refine take_cutAt hname hfloor ?_
  by_cases hs : r.segments = []
  · -- Behind the way up alone stands no slash, and the floor stops the cut.
    have hascent : r.ascent = r := by
      obtain ⟨up, down, isName, hup⟩ := r
      obtain ⟨-, rfl⟩ : up = 0 ∧ down = [] := by simpa [Route.segments] using hs
      rfl
    exact .inl ⟨if_pos hs, by rw [← congrArg (·.text.length) hascent]; exact h.floor⟩
  · exact .inr (if_neg hs)

/-- What `..` writes or cuts off is what it does to the stack. -/
theorem Output.Shows.climb {o : Output} {r : Route rooted} (h : o.Shows r) :
    ∃ r' : Route rooted, push rooted r.stack above = r'.stack ∧ (o.climb rooted).Shows r' := by
  obtain ⟨up, down, isName, hup⟩ := r
  cases down with
  | cons n down =>
    obtain ⟨hn, hdown⟩ := List.forall_mem_cons.mp isName
    have hshows : o.Shows ((⟨up, down, hdown, hup⟩ : Route rooted).enter hn) := h
    exact ⟨⟨up, down, hdown, hup⟩, by simp [push, Route.stack, hn.2.2.1], hshows.cut⟩
  | nil =>
    have hlength : o.floor = o.buffer.length := by rw [h.floor, h.buffer]; rfl
    rw [Output.climb, if_neg (by omega)]
    cases rooted with
    | true =>
      obtain rfl : up = 0 := hup rfl
      exact ⟨Route.stay, by simp [push, Route.stack, Route.stay], h⟩
    | false =>
      have hrelative : false = true → up + 1 = 0 := fun h => absurd h Bool.false_ne_true
      refine ⟨⟨up + 1, [], isName, hrelative⟩, ?_, ?_⟩
      · cases up <;> simp [push, Route.stack, List.replicate_succ]
      · have hpositive : 0 < o.buffer.length ↔ List.replicate up above ≠ [] := by
          rw [h.buffer, List.length_pos_iff, ne_eq, Route.text_eq_nil_iff]
          simp [Route.segments]
        have htext : (⟨up + 1, [], isName, hrelative⟩ : Route false).text =
            (if 0 < o.buffer.length then o.buffer ++ ['/'] else o.buffer) ++ ['.', '.'] := by
          have hold : o.buffer = join '/' (List.replicate up above) := by
            rw [h.buffer]
            simp [Route.text, Route.segments]
          have hnew : (⟨up + 1, [], isName, hrelative⟩ : Route false).text =
              join '/' (List.replicate up above ++ [above]) := by
            rw [← List.replicate_succ']
            simp [Route.text, Route.segments]
          rw [hnew, Text.join_concat, if_congr hpositive rfl rfl, hold]
          cases up <;> simp [List.replicate_succ, above]
        exact ⟨htext.symm, congrArg List.length htext.symm⟩

/-! ## The pass and the stack -/

/-- A segment that nothing or a slash follows is the next to be folded over. An empty segment must change nothing. -/
theorem foldl_split_append {β : Type} {f : β → List Char → β} (hf : ∀ b, f b [] = b) {q rest : List Char} (hq : '/' ∉ q)
    (hrest : Over rest) (b : β) : (split '/' (q ++ rest)).foldl f b = (split '/' rest).foldl f (f b q) := by
  rcases hrest with rfl | hslash
  · rw [List.append_nil, Text.split_of_notMem hq]
    simp [split, hf]
  · obtain ⟨t, rfl⟩ : ∃ t, rest = '/' :: t := by
      cases rest with
      | nil => cases hslash
      | cons c t => exact ⟨t, by rw [Option.some.inj hslash]⟩
    rw [Text.split_append_cons, Text.split_of_notMem hq]
    simp [split, hf]

/-- What follows the characters that are no slash is over. -/
theorem over_dropWhile (rest : List Char) : Over (rest.dropWhile (· ≠ '/')) := by
  cases hdrop : rest.dropWhile (· ≠ '/') with
  | nil => exact .inl rfl
  | cons c t =>
    have hhead := List.head?_dropWhile_not (fun x : Char => decide (x ≠ '/')) rest
    rw [hdrop] at hhead
    exact .inr (by simpa using hhead)

/-- The pass over the rest of a path does to the output what its segments do to the stack. -/
theorem scan_shows (rest : List Char) (o : Output) (r : Route rooted) (h : o.Shows r) :
    ∃ r' : Route rooted, (split '/' rest).foldl (push rooted) r.stack = r'.stack ∧ (scan rooted o rest).Shows r' := by
  fun_induction scan rooted o rest generalizing r with
  | case1 o => exact ⟨r, push_nil rooted _, h⟩
  | case2 o rest ih =>
    obtain ⟨r', hstack, hshows⟩ := ih r h
    exact ⟨r', by simpa [split, push_nil] using hstack, hshows⟩
  | case3 o c rest hslash hdot ih =>
    obtain ⟨rfl, hover⟩ := hdot
    obtain ⟨r', hstack, hshows⟩ := ih r h
    refine ⟨r', ?_, hshows⟩
    have hsplit := foldl_split_append (push_nil rooted) (q := here) (by decide) hover r.stack
    exact hsplit.trans (by rw [push_here, hstack])
  | case4 o c rest hslash hdot hdots ih =>
    obtain ⟨rfl, hsecond, hover⟩ := hdots
    obtain ⟨t, rfl⟩ : ∃ t, rest = '.' :: t := by
      cases rest with
      | nil => cases hsecond
      | cons c t => exact ⟨t, by rw [Option.some.inj hsecond]⟩
    obtain ⟨mid, hpush, hmid⟩ := h.climb
    obtain ⟨r', hstack, hshows⟩ := ih mid hmid
    refine ⟨r', ?_, hshows⟩
    have hsplit := foldl_split_append (push_nil rooted) (q := above) (by decide) hover r.stack
    exact hsplit.trans (by rw [hpush, ← hstack])
  | case5 o c rest hslash hdot hdots ih =>
    have hrest := List.takeWhile_append_dropWhile (p := (· ≠ '/')) (l := rest)
    have hover := over_dropWhile rest
    have hname : IsName (c :: rest.takeWhile (· ≠ '/')) := by
      refine ⟨List.cons_ne_nil _ _, fun heq => ?_, fun heq => ?_, ?_⟩
      · obtain ⟨rfl, htake⟩ := List.cons.inj heq
        rw [htake] at hrest
        exact hdot ⟨rfl, hrest ▸ hover⟩
      · obtain ⟨rfl, htake⟩ := List.cons.inj heq
        rw [htake] at hrest
        exact hdots ⟨rfl, by rw [← hrest]; rfl, by rw [← hrest]; exact hover⟩
      · rw [List.mem_cons, not_or]
        exact ⟨Ne.symm hslash, fun hmem => by simpa using List.mem_takeWhile_imp hmem⟩
    obtain ⟨r', hstack, hshows⟩ := ih _ (h.descend hname)
    refine ⟨r', ?_, hshows⟩
    have hsplit := foldl_split_append (push_nil rooted) hname.2.2.2 hover r.stack
    rw [List.cons_append, hrest, push_name _ _ hname] at hsplit
    exact hsplit.trans hstack

/-- One pass and the stack clean a path to the same text. -/
theorem clean_eq (path : List Char) : clean path = Directory.clean path := by
  by_cases hempty : path = []
  · rw [hempty]
    rfl
  have hhead : (split '/' path).foldl (push (isRooted path)) [] =
      (split '/' (if isRooted path then path.tail else path)).foldl (push (isRooted path)) [] := by
    cases path with
    | nil => rfl
    | cons c rest =>
      -- The empty segment in front of the first slash is skipped.
      by_cases hc : c = '/' <;> simp [isRooted, hc, split]
  obtain ⟨r, hstack, hshows⟩ := scan_shows (if isRooted path then path.tail else path) _ Route.stay
    (shows_start (isRooted path))
  have hscan : clean path = if r.text.length = 0 then here else r.text := by
    rw [← hshows.buffer, clean, if_neg hempty]
    simp [isRooted, here]
  rw [Directory.clean_of_foldl_push (hhead.trans hstack), hscan, if_congr List.length_eq_zero_iff rfl rfl]

/-- The directory of a path that one pass finds is the one that the stack gives. -/
theorem directoryOf_eq_onePass (p : String) : WorkflowAugment.directoryOf p = OnePass.directoryOf p := by
  rw [WorkflowAugment.directoryOf, OnePass.directoryOf, upToSlash_eq, clean_eq]

end OnePass

end WorkflowAugment
