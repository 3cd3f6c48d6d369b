import WorkflowAugment.Json.Codec
import WorkflowAugment.Proofs.Json.Decimals
import WorkflowAugment.Proofs.Json.Trees

/-!
# Scanning what was written

The compact and the pretty form differ in white space only: both are `Json.spaced` with a `Spacing`, which says what stands
in front of an item and behind a colon. Whatever the spacing, what a value is written as is scanned as the tree of the
value, and nothing is left of the text (`Tree.scan_render`).
-/

namespace WorkflowAugment

/-! ## White space -/

namespace Tree

/-- Nothing but white space. -/
def Blank (s : List Char) : Prop := ∀ c ∈ s, isSpace c

variable {before s : List Char} {c : Char} {fuel : Nat}

/-- To skip white space is to skip what is in front of more. -/
theorem skipSpace_append (h : Blank before) (s : List Char) : skipSpace (before ++ s) = skipSpace s :=
  List.dropWhile_append_of_pos h

/-- Nothing is skipped in front of another character. -/
theorem skipSpace_cons (h : isSpace c = false) (s : List Char) : skipSpace (c :: s) = c :: s := by
  simp [skipSpace, h]

/-- White space may stand in front of a value. -/
theorem scanValue_blank (h : Blank before) : scanValue fuel (before ++ s) = scanValue fuel s := by
  cases fuel with
  | zero => rfl
  | succ fuel => rw [scanValue, scanValue, skipSpace_append h]

/-- White space may stand in front of the values of an array. -/
theorem scanItems_blank (h : Blank before) : scanItems fuel (before ++ s) = scanItems fuel s := by
  cases fuel with
  | zero => rfl
  | succ fuel => rw [scanItems, scanItems, scanValue_blank h]

/-- White space may stand in front of the members of an object. -/
theorem scanMembers_blank (h : Blank before) : scanMembers fuel (before ++ s) = scanMembers fuel s := by
  cases fuel with
  | zero => rfl
  | succ fuel => rw [scanMembers, scanMembers, skipSpace_append h]

/-- White space ends a number. -/
theorem endsNumber_append (h : Blank before) (hs : EndsNumber s) : EndsNumber (before ++ s) := by
  cases before with
  | nil => exact hs
  | cons c before =>
    have hc : c = ' ' ∨ c = '\n' ∨ c = '\r' ∨ c = '\t' := by
      simpa [isSpace, or_assoc] using h c List.mem_cons_self
    apply endsNumber_cons
    rcases hc with rfl | rfl | rfl | rfl <;> decide

/-! ## Brackets and braces -/

/-- A pair of brackets is an array without values. -/
theorem scanValue_emptyArray (s : List Char) : scanValue (fuel + 1) ('[' :: ']' :: s) = (.array .close, s) := by
  rw [scanValue, skipSpace_cons (by decide)]
  rfl

/-- A pair of braces is an object without members. -/
theorem scanValue_emptyObject (s : List Char) : scanValue (fuel + 1) ('{' :: '}' :: s) = (.object .close, s) := by
  rw [scanValue, skipSpace_cons (by decide)]
  rfl

/-- An array whose first item begins with `c`. -/
theorem scanValue_array (h : Blank before) (hc : isSpace c = false) (hclose : c ≠ ']') (s : List Char) :
    scanValue (fuel + 1) ('[' :: (before ++ c :: s)) =
      (.array (scanItems fuel (before ++ c :: s)).1, (scanItems fuel (before ++ c :: s)).2) := by
  rw [scanValue, skipSpace_cons (by decide), scanItems_blank h]
  simp only [if_true, skipSpace_append h, skipSpace_cons hc, hclose, if_false]

/-- An object whose first name begins with its quote. -/
theorem scanValue_object (h : Blank before) (s : List Char) :
    scanValue (fuel + 1) ('{' :: (before ++ '"' :: s)) =
      (.object (scanMembers fuel (before ++ '"' :: s)).1, (scanMembers fuel (before ++ '"' :: s)).2) := by
  have hquote : isSpace '"' = false := by decide
  rw [scanValue, skipSpace_cons (by decide), scanMembers_blank h]
  simp only [Char.reduceEq, if_true, if_false, skipSpace_append h, skipSpace_cons hquote]

/-- A string literal. -/
theorem scanValue_string (t : String) (s : List Char) :
    scanValue (fuel + 1) (Json.renderString t ++ s) = (.string (Piece.ofString t), s) := by
  have hquote : isSpace '"' = false := by decide
  have hscan := scanString_escaped t s
  rw [Json.renderString, List.append_assoc, List.cons_append, scanValue, skipSpace_cons hquote]
  simp only [Char.reduceEq, if_true, if_false, List.singleton_append, hscan]

/-- A sign or a digit begins no other token. -/
theorem not_token_of_numeric (h : c = '-' ∨ c.isDigit) : isSpace c = false ∧ c ∉ ['[', ']', '{', '"', 'n', 't', 'f'] := by
  rcases h with rfl | h
  · decide
  · constructor
    · rw [Bool.eq_false_iff]
      intro hc
      simp only [isSpace, Bool.or_eq_true, decide_eq_true_eq] at hc
      rcases hc with ((rfl | rfl) | rfl) | rfl <;> exact absurd h (by decide)
    · intro hc
      simp only [List.mem_cons, List.not_mem_nil, or_false] at hc
      rcases hc with rfl | rfl | rfl | rfl | rfl | rfl | rfl <;> exact absurd h (by decide)

/-- A number. -/
theorem scanValue_number (v : Number) (hs : EndsNumber s) :
    scanValue (fuel + 1) (v.render ++ s) = ((scanNumber v.render).1, s) := by
  obtain ⟨c, cs, hcs, hc⟩ := render_eq_cons v
  obtain ⟨hspace, htoken⟩ := not_token_of_numeric hc
  simp only [List.mem_cons, List.not_mem_nil, or_false, not_or] at htoken
  obtain ⟨harray, -, hobject, hquote, hn, ht, hf⟩ := htoken
  have hscan := scanNumber_append v hs
  rw [hcs, List.cons_append] at hscan ⊢
  rw [scanValue, skipSpace_cons hspace]
  simp only [harray, hobject, hquote, hn, ht, hf, if_false, hc, if_true, hscan]

/-! ## Items and members -/

variable {t : Tree} {rest gap : List Char}

/-- An item with a comma behind it. -/
theorem scanItems_comma (hs : scanValue fuel s = (t, ',' :: rest)) :
    scanItems (fuel + 1) s = (.item t (scanItems fuel rest).1, (scanItems fuel rest).2) := by
  have hcomma : isSpace ',' = false := by decide
  simp only [scanItems, hs, skipSpace_cons hcomma, Char.reduceEq, if_false, if_true]

/-- The last item. -/
theorem scanItems_last (h : Blank before) (hs : scanValue fuel s = (t, before ++ ']' :: rest)) :
    scanItems (fuel + 1) s = (.item t .close, rest) := by
  have hclose : isSpace ']' = false := by decide
  simp only [scanItems, hs, skipSpace_append h, skipSpace_cons hclose, if_true]

/-- A member with a comma behind it. -/
theorem scanMembers_comma (k : String) (hs : scanValue fuel s = (t, ',' :: rest)) :
    scanMembers (fuel + 1) (Json.renderString k ++ ':' :: s) =
      (.member (Piece.ofString k) t (scanMembers fuel rest).1, (scanMembers fuel rest).2) := by
  have hquote : isSpace '"' = false := by decide
  have hcolon : isSpace ':' = false := by decide
  have hcomma : isSpace ',' = false := by decide
  rw [Json.renderString, List.append_assoc, List.cons_append, List.singleton_append, scanMembers, skipSpace_cons hquote]
  simp only [if_true, scanString_escaped, skipSpace_cons hcolon, hs, skipSpace_cons hcomma, Char.reduceEq, if_false]

/-- The last member. -/
theorem scanMembers_last (k : String) (h : Blank before) (hs : scanValue fuel s = (t, before ++ '}' :: rest)) :
    scanMembers (fuel + 1) (Json.renderString k ++ ':' :: s) = (.member (Piece.ofString k) t .close, rest) := by
  have hquote : isSpace '"' = false := by decide
  have hcolon : isSpace ':' = false := by decide
  have hclose : isSpace '}' = false := by decide
  rw [Json.renderString, List.append_assoc, List.cons_append, List.singleton_append, scanMembers, skipSpace_cons hquote]
  simp only [if_true, scanString_escaped, skipSpace_cons hcolon, hs, skipSpace_append h, skipSpace_cons hclose]

end Tree

/-! ## Spacing -/

/-- The white space of a text: in front of an item or a member at a level, and of the end of what stands one level deeper,
and behind a colon. -/
structure Spacing where
  line : Nat → List Char
  gap : List Char
  blank_line : ∀ level, Tree.Blank (line level)
  blank_gap : Tree.Blank gap

/-- No white space. -/
def Spacing.compact : Spacing := ⟨fun _ => [], [], by simp [Tree.Blank], by simp [Tree.Blank]⟩

/-- Every item on a line of its own. -/
def Spacing.pretty : Spacing :=
  ⟨Json.newline, [' '], by simp [Tree.Blank, Json.newline, Tree.isSpace], by simp [Tree.Blank, Tree.isSpace]⟩

namespace Json

mutual

/-- The text of a value that stands at a level. -/
def spaced (sp : Spacing) (level : Nat) : Json → List Char
  | .null => ['n', 'u', 'l', 'l']
  | .bool b => renderBool b
  | .number n => n.render
  | .string s => renderString s
  | .array [] => ['[', ']']
  | .array (x :: xs) => '[' :: spacedItems sp (level + 1) (x :: xs) ++ sp.line level ++ [']']
  | .object [] => ['{', '}']
  | .object (m :: ms) => '{' :: spacedMembers sp (level + 1) (m :: ms) ++ sp.line level ++ ['}']

/-- The text of the items of an array. -/
def spacedItems (sp : Spacing) (level : Nat) : List Json → List Char
  | [] => []
  | [x] => sp.line level ++ x.spaced sp level
  | x :: y :: xs => sp.line level ++ x.spaced sp level ++ ',' :: spacedItems sp level (y :: xs)

/-- The text of the members of an object. -/
def spacedMembers (sp : Spacing) (level : Nat) : List (String × Json) → List Char
  | [] => []
  | [(k, x)] => sp.line level ++ renderString k ++ ':' :: sp.gap ++ x.spaced sp level
  | (k, x) :: m :: ms =>
    sp.line level ++ renderString k ++ ':' :: sp.gap ++ x.spaced sp level ++ ',' :: spacedMembers sp level (m :: ms)

end

mutual

/-- The compact form has no white space. -/
theorem compact_eq_spaced : ∀ (x : Json) (level : Nat), x.compact = x.spaced .compact level
  | .null, _ | .bool _, _ | .number _, _ | .string _, _ => by simp [compact, spaced]
  | .array [], _ => by simp [compact, spaced, compactItems]
  | .object [], _ => by simp [compact, spaced, compactMembers]
  | .array (x :: xs), level => by
    simp [compact, spaced, compactItems_eq_spaced (x :: xs) (level + 1), Spacing.compact]
  | .object (m :: ms), level => by
    simp [compact, spaced, compactMembers_eq_spaced (m :: ms) (level + 1), Spacing.compact]

/-- The compact form of values is the one without spacing. -/
theorem compactItems_eq_spaced : ∀ (xs : List Json) (level : Nat), compactItems xs = spacedItems .compact level xs
  | [], _ => by simp [compactItems, spacedItems]
  | [x], level => by simp [compactItems, spacedItems, compact_eq_spaced x level, Spacing.compact]
  | x :: y :: xs, level => by
    simp [compactItems, spacedItems, compact_eq_spaced x level, compactItems_eq_spaced (y :: xs) level, Spacing.compact]

/-- The compact form of members is the one without spacing. -/
theorem compactMembers_eq_spaced : ∀ (ms : List (String × Json)) (level : Nat),
    compactMembers ms = spacedMembers .compact level ms
  | [], _ => by simp [compactMembers, spacedMembers]
  | [(k, x)], level => by simp [compactMembers, spacedMembers, compact_eq_spaced x level, Spacing.compact]
  | (k, x) :: m :: ms, level => by
    simp [compactMembers, spacedMembers, compact_eq_spaced x level, compactMembers_eq_spaced (m :: ms) level,
      Spacing.compact]

end

mutual

/-- The pretty form has a line for every item. -/
theorem prettyAt_eq_spaced : ∀ (x : Json) (level : Nat), x.prettyAt level = x.spaced .pretty level
  | .null, _ | .bool _, _ | .number _, _ | .string _, _ => by simp [prettyAt, spaced]
  | .array [], _ => by simp [prettyAt, spaced]
  | .object [], _ => by simp [prettyAt, spaced]
  | .array (x :: xs), level => by
    simp [prettyAt, spaced, prettyItems_eq_spaced (x :: xs) (level + 1), Spacing.pretty]
  | .object (m :: ms), level => by
    simp [prettyAt, spaced, prettyMembers_eq_spaced (m :: ms) (level + 1), Spacing.pretty]

/-- The indented form of values is one with spacing. -/
theorem prettyItems_eq_spaced : ∀ (xs : List Json) (level : Nat), prettyItems level xs = spacedItems .pretty level xs
  | [], _ => by simp [prettyItems, spacedItems]
  | [x], level => by simp [prettyItems, spacedItems, prettyAt_eq_spaced x level, Spacing.pretty]
  | x :: y :: xs, level => by
    simp [prettyItems, spacedItems, prettyAt_eq_spaced x level, prettyItems_eq_spaced (y :: xs) level, Spacing.pretty]

/-- The indented form of members is one with spacing. -/
theorem prettyMembers_eq_spaced : ∀ (ms : List (String × Json)) (level : Nat),
    prettyMembers level ms = spacedMembers .pretty level ms
  | [], _ => by simp [prettyMembers, spacedMembers]
  | [(k, x)], level => by simp [prettyMembers, spacedMembers, prettyAt_eq_spaced x level, Spacing.pretty]
  | (k, x) :: m :: ms, level => by
    simp [prettyMembers, spacedMembers, prettyAt_eq_spaced x level, prettyMembers_eq_spaced (m :: ms) level,
      Spacing.pretty]

end

/-! ## Scanning a spaced text -/

variable (sp : Spacing)

/-- The text of a value begins with a character that is neither white space nor a closing bracket. -/
theorem spaced_eq_cons (x : Json) (level : Nat) :
    ∃ c cs, x.spaced sp level = c :: cs ∧ Tree.isSpace c = false ∧ c ≠ ']' := by
  match x with
  | .null => exact ⟨'n', _, by rw [spaced], by decide⟩
  | .bool true => exact ⟨'t', _, by rw [spaced, renderBool, if_pos rfl], by decide⟩
  | .bool false => exact ⟨'f', _, by rw [spaced, renderBool, if_neg Bool.false_ne_true], by decide⟩
  | .string s => exact ⟨'"', _, by rw [spaced, renderString, List.cons_append], by decide⟩
  | .number n =>
    obtain ⟨c, cs, hcs, hc⟩ := Tree.render_eq_cons n
    obtain ⟨hspace, htoken⟩ := Tree.not_token_of_numeric hc
    refine ⟨c, cs, by rw [spaced, hcs], hspace, ?_⟩
    rintro rfl
    exact htoken (by decide)
  | .array [] => exact ⟨'[', _, by rw [spaced], by decide⟩
  | .array (x :: xs) => exact ⟨'[', _, by rw [spaced, List.cons_append, List.cons_append], by decide⟩
  | .object [] => exact ⟨'\x7b', _, by rw [spaced], by decide⟩
  | .object (m :: ms) => exact ⟨'\x7b', _, by rw [spaced, List.cons_append, List.cons_append], by decide⟩

/-- The text of items begins with the white space of the level and the first item. -/
theorem spacedItems_eq_append (x : Json) (xs : List Json) (level : Nat) :
    ∃ c cs, spacedItems sp level (x :: xs) = sp.line level ++ c :: cs ∧ Tree.isSpace c = false ∧ c ≠ ']' := by
  obtain ⟨c, cs, hcs, hc⟩ := spaced_eq_cons sp x level
  cases xs with
  | nil => exact ⟨c, cs, by rw [spacedItems, hcs], hc⟩
  | cons y ys => exact ⟨c, _, by rw [spacedItems, hcs, List.append_assoc, List.cons_append], hc⟩

/-- The text of members begins with the white space of the level and the quote of the first name. -/
theorem spacedMembers_eq_append (k : String) (x : Json) (ms : List (String × Json)) (level : Nat) :
    ∃ cs, spacedMembers sp level ((k, x) :: ms) = sp.line level ++ '"' :: cs := by
  cases ms with
  | nil =>
    simp only [spacedMembers, renderString, List.append_assoc, List.cons_append]
    exact ⟨_, rfl⟩
  | cons m ms =>
    simp only [spacedMembers, renderString, List.append_assoc, List.cons_append]
    exact ⟨_, rfl⟩

/-- What ends an array or an object, or an item or a member in it, ends a number. -/
theorem endsNumber_close (level : Nat) {c : Char} (hc : c ∈ [',', ']', '\x7d']) (rest : List Char) :
    Tree.EndsNumber (sp.line level ++ c :: rest) := by
  refine Tree.endsNumber_append (sp.blank_line level) (Tree.endsNumber_cons rest ?_)
  simp only [List.mem_cons, List.not_mem_nil, or_false] at hc
  rcases hc with rfl | rfl | rfl <;> decide

-- The induction is on the budget. A level of nesting takes two steps of it and has two brackets; an item or a member takes one
-- and has a comma unless it is the last. So twice the length is enough for a value, and one step more for what is inside it.
mutual

/-- What a value is written as is scanned as the tree of the value. -/
theorem scanValue_spaced : ∀ (x : Json) (level fuel : Nat) (rest : List Char), Tree.EndsNumber rest →
    2 * (x.spaced sp level).length ≤ fuel → Tree.scanValue fuel (x.spaced sp level ++ rest) = (x.toTree, rest)
  | x, level, 0, rest, _, hfuel => by
    obtain ⟨c, cs, hcs, -⟩ := spaced_eq_cons sp x level
    rw [hcs, List.length_cons] at hfuel
    omega
  | .null, level, fuel + 1, rest, _, _ => by
    rw [spaced, toTree]
    rfl
  | .bool b, level, fuel + 1, rest, _, _ => by
    rw [spaced, toTree]
    cases b <;> rfl
  | .number n, level, fuel + 1, rest, hrest, _ => by
    rw [spaced, toTree, Tree.scanValue_number n hrest]
  | .string t, level, fuel + 1, rest, _, _ => by
    rw [spaced, toTree, Tree.scanValue_string]
  | .array [], level, fuel + 1, rest, _, _ => by
    rw [spaced, toTree, toItems]
    exact Tree.scanValue_emptyArray rest
  | .object [], level, fuel + 1, rest, _, _ => by
    rw [spaced, toTree, toMembers]
    exact Tree.scanValue_emptyObject rest
  | .array (x :: xs), level, fuel + 1, rest, _, hfuel => by
    have hfuel' : 2 * (spacedItems sp (level + 1) (x :: xs)).length + 1 ≤ fuel := by
      simp only [spaced, List.length_cons, List.length_append] at hfuel
      omega
    have hitems := scanItems_spaced x xs (level + 1) level fuel rest hfuel'
    obtain ⟨c, cs, hcs, hspace, hclose⟩ := spacedItems_eq_append sp x xs (level + 1)
    simp only [spaced, List.cons_append, List.append_assoc, List.nil_append, hcs] at hitems ⊢
    rw [Tree.scanValue_array (sp.blank_line (level + 1)) hspace hclose, hitems, toTree]
  | .object ((k, x) :: ms), level, fuel + 1, rest, _, hfuel => by
    have hfuel' : 2 * (spacedMembers sp (level + 1) ((k, x) :: ms)).length + 1 ≤ fuel := by
      simp only [spaced, List.length_cons, List.length_append] at hfuel
      omega
    have hmembers := scanMembers_spaced k x ms (level + 1) level fuel rest hfuel'
    obtain ⟨cs, hcs⟩ := spacedMembers_eq_append sp k x ms (level + 1)
    simp only [spaced, List.cons_append, List.append_assoc, List.nil_append, hcs] at hmembers ⊢
    rw [Tree.scanValue_object (sp.blank_line (level + 1)), hmembers, toTree]
termination_by structural _ _ fuel => fuel

/-- The values of an array are scanned from their text with any spacing, up to the bracket. -/
theorem scanItems_spaced : ∀ (x : Json) (xs : List Json) (level outer fuel : Nat) (rest : List Char),
    2 * (spacedItems sp level (x :: xs)).length + 1 ≤ fuel →
    Tree.scanItems fuel (spacedItems sp level (x :: xs) ++ (sp.line outer ++ ']' :: rest)) = (toItems (x :: xs), rest)
  | _, _, _, _, 0, _, hfuel => absurd hfuel (Nat.not_succ_le_zero _)
  | x, [], level, outer, fuel + 1, rest, hfuel => by
    have hfuel' : 2 * (x.spaced sp level).length ≤ fuel := by
      simp only [spacedItems, List.length_append] at hfuel
      omega
    have hvalue := scanValue_spaced x level fuel _
      (endsNumber_close sp (c := ']') outer (by decide) rest) hfuel'
    rw [spacedItems, List.append_assoc, Tree.scanItems_blank (sp.blank_line level),
      Tree.scanItems_last (sp.blank_line outer) hvalue, toItems, toItems]
  | x, y :: xs, level, outer, fuel + 1, rest, hfuel => by
    have hfuel' : 2 * (x.spaced sp level).length ≤ fuel ∧ 2 * (spacedItems sp level (y :: xs)).length + 1 ≤ fuel := by
      simp only [spacedItems, List.length_append, List.length_cons] at hfuel
      omega
    have hvalue := scanValue_spaced x level fuel
      (',' :: (spacedItems sp level (y :: xs) ++ (sp.line outer ++ ']' :: rest)))
      (Tree.endsNumber_cons _ (by decide)) hfuel'.1
    have hitems := scanItems_spaced y xs level outer fuel rest hfuel'.2
    rw [spacedItems, List.append_assoc, List.append_assoc, Tree.scanItems_blank (sp.blank_line level), List.cons_append,
      Tree.scanItems_comma hvalue, toItems, hitems]
termination_by structural _ _ _ _ fuel => fuel

/-- The members of an object are scanned from their text with any spacing, up to the brace. -/
theorem scanMembers_spaced : ∀ (k : String) (x : Json) (ms : List (String × Json)) (level outer fuel : Nat)
    (rest : List Char), 2 * (spacedMembers sp level ((k, x) :: ms)).length + 1 ≤ fuel →
    Tree.scanMembers fuel (spacedMembers sp level ((k, x) :: ms) ++ (sp.line outer ++ '\x7d' :: rest)) =
      (toMembers ((k, x) :: ms), rest)
  | _, _, _, _, _, 0, _, hfuel => absurd hfuel (Nat.not_succ_le_zero _)
  | k, x, [], level, outer, fuel + 1, rest, hfuel => by
    have hfuel' : 2 * (x.spaced sp level).length ≤ fuel := by
      simp only [spacedMembers, List.length_append, List.length_cons] at hfuel
      omega
    have hvalue := scanValue_spaced x level fuel _
      (endsNumber_close sp (c := '\x7d') outer (by decide) rest) hfuel'
    rw [← Tree.scanValue_blank sp.blank_gap] at hvalue
    simp only [spacedMembers, List.append_assoc, List.cons_append]
    rw [Tree.scanMembers_blank (sp.blank_line level), Tree.scanMembers_last k (sp.blank_line outer) hvalue, toMembers,
      toMembers]
  | k, x, m :: ms, level, outer, fuel + 1, rest, hfuel => by
    have hfuel' : 2 * (x.spaced sp level).length ≤ fuel ∧ 2 * (spacedMembers sp level (m :: ms)).length + 1 ≤ fuel := by
      simp only [spacedMembers, List.length_append, List.length_cons] at hfuel
      omega
    have hvalue := scanValue_spaced x level fuel
      (',' :: (spacedMembers sp level (m :: ms) ++ (sp.line outer ++ '\x7d' :: rest)))
      (Tree.endsNumber_cons _ (by decide)) hfuel'.1
    have hmembers := scanMembers_spaced m.1 m.2 ms level outer fuel rest hfuel'.2
    rw [← Tree.scanValue_blank sp.blank_gap] at hvalue
    simp only [spacedMembers, List.append_assoc, List.cons_append]
    rw [Tree.scanMembers_blank (sp.blank_line level), Tree.scanMembers_comma k hvalue, toMembers, hmembers]
termination_by structural _ _ _ _ _ fuel => fuel

end

/-- The compact and the pretty text of a value are scanned as the tree of the value, and nothing is left of them. -/
theorem scan_render (x : Json) (isPretty : Bool) :
    Tree.scan (x.render isPretty).toList = (x.toTree, []) := by
  have hspaced : ∀ (sp : Spacing), Tree.scan (x.spaced sp 0) = (x.toTree, []) := by
    intro sp
    have hscan := scanValue_spaced sp x 0 (2 * (x.spaced sp 0).length + 2) [] Tree.endsNumber_nil (by omega)
    rwa [List.append_nil] at hscan
  rw [render, String.toList_ofList]
  cases isPretty with
  | false =>
    rw [if_neg Bool.false_ne_true, compact_eq_spaced x 0]
    exact hspaced .compact
  | true =>
    rw [if_pos rfl, pretty, prettyAt_eq_spaced x 0]
    exact hspaced .pretty

end Json

/-! ## Reading a text -/

namespace Codec

variable {α : Type} {c : Codec α}

/-- A text is read if its tree has the shape and only white space follows. What is read is what the tree stands for. -/
theorem read_eq_ok_iff {text : String} {a : α} : c.read text = .ok a ↔
    c.shape.problem? maxDepth (Tree.scan text.toList).1 = none ∧ Tree.skipSpace (Tree.scan text.toList).2 = [] ∧
      c.value (Tree.scan text.toList).1 = a := by
  rw [read]
  cases hfits : c.shape.problem? maxDepth (Tree.scan text.toList).1 with
  | some p => simp [hfits]
  | none =>
    simp only [hfits, true_and]
    split <;> simp [*]

/-- A text that has not the shape is refused for the problem with it. -/
theorem read_eq_error {text : String} {p : Problem} (h : c.shape.problem? maxDepth (Tree.scan text.toList).1 = some p) :
    c.read text = .error p := by
  simp only [read, h]

/-- A text that can be read has the shape, and what is read is the value of its tree. -/
theorem read_eq_ok {text : String} {a : α} (h : c.read text = .ok a) :
    c.shape.problem? maxDepth (Tree.scan text.toList).1 = none ∧ c.value (Tree.scan text.toList).1 = a := by
  obtain ⟨hfits, -, hvalue⟩ := read_eq_ok_iff.mp h
  exact ⟨hfits, hvalue⟩

/-- The texts of a value whose tree has the shape are read as what the tree stands for. -/
theorem read_render {x : Json} (hfits : c.shape.problem? maxDepth x.toTree = none) (isPretty : Bool) :
    c.read (x.render isPretty) = .ok (c.value x.toTree) := by
  rw [read_eq_ok_iff, Json.scan_render x]
  exact ⟨hfits, rfl, rfl⟩

end Codec

end WorkflowAugment
