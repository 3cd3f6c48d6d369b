import Mathlib.Data.List.Basic
import WorkflowAugment.Json.Scan
import WorkflowAugment.Json.Writer

/-!
# How texts and integers are spelled

A text is written in pieces, one for each of its characters, and an integer as a literal that has only digits. Both are
scanned as what they were written as (`scanString_escaped`, `scanNumber_render`), and stand for what they were written for
(`text_ofString`, `number?_ofInt`).
-/

namespace WorkflowAugment

/-! ## Texts -/

/-- The piece that a character is written as: the controls without a short escape by their numbers, all else as is. -/
def Piece.ofChar (c : Char) : Piece :=
  if c.toNat < 0x20 ∧ c.toNat ∉ [8, 9, 10, 12, 13] then .unit c.toNat else .char c

/-- The pieces of a text, as it is written. -/
def Piece.ofString (s : String) : List Piece := s.toList.map Piece.ofChar

namespace Piece

/-- A unit that is no half of a pair is a character. -/
theorem decode_unit {n : Nat} (hhigh : isHigh n = false) (hlow : isLow n = false) (ending : Fault) (ps : List Piece) :
    decode ending (.unit n :: ps) = (decode ending ps).map (Char.ofNat n :: ·) := by
  rw [decode.eq_def]
  simp [hhigh, hlow]

/-- The pieces of characters spell these characters. -/
theorem decode_map_ofChar (ending : Fault) (cs : List Char) : decode ending (cs.map ofChar) = .ok cs := by
  induction cs with
  | nil => rfl
  | cons c cs ih =>
    rw [List.map_cons, ofChar]
    split
    · rename_i hc
      have hhigh : isHigh c.toNat = false := by
        simp only [isHigh, Bool.and_eq_false_iff, decide_eq_false_iff_not]
        omega
      have hlow : isLow c.toNat = false := by
        simp only [isLow, Bool.and_eq_false_iff, decide_eq_false_iff_not]
        omega
      rw [decode_unit hhigh hlow, ih, Char.ofNat_toNat]
      rfl
    · rw [decode, ih]
      rfl

/-- The pieces of a text spell the text. -/
@[simp] theorem text_ofString (s : String) : text (ofString s) = .ok s := by
  simp [text, ofString, decode_map_ofChar, Except.map]

end Piece

/-- The pieces of a text spell it. -/
@[simp] theorem Tree.spelled_ofString (s : String) : Tree.spelled (Piece.ofString s) = s := by
  simp [Tree.spelled, Except.toOption]

/-! ## Integers -/

/-- The values of the digits of a number. -/
def Numeral.digitsOf (n : Nat) : List Nat := (Binary64.digits n).map fun c => c.toNat - 48

namespace Numeral

/-- The digits of a number give it back. -/
theorem foldl_digitsOf (n : Nat) : (digitsOf n).foldl (fun v d => v * 10 + d) 0 = n := by
  have h : Nat.ofDigitChars 10 (Nat.toDigits 10 n) 0 = n := Nat.ofDigitChars_ten_toDigits
  rw [Nat.ofDigitChars_eq_foldl] at h
  rw [digitsOf, Binary64.digits, List.foldl_map]
  simpa [Nat.mul_comm] using h

/-- Every number has a digit. -/
theorem digitsOf_ne_nil (n : Nat) : digitsOf n ≠ [] := by
  simp [digitsOf, Binary64.digits, Nat.toDigits_ne_nil]

/-- The first digit of a positive number is not 0. -/
theorem head?_digitsOf_ne {n : Nat} (h : 0 < n) : (digitsOf n).head? ≠ some 0 := by
  induction n using Nat.strongRecOn with
  | ind n ih =>
    by_cases hn : n < 10
    · have hsmall : ∀ m < 10, 0 < m → ([m.digitChar].map fun c => c.toNat - 48).head? ≠ some 0 := by decide
      rw [digitsOf, Binary64.digits, Nat.toDigits_of_lt_base hn]
      exact hsmall n hn h
    · have hdiv : 0 < n / 10 := by omega
      have hhead : (digitsOf n).head? = (digitsOf (n / 10)).head? := by
        have hne := digitsOf_ne_nil (n / 10)
        rw [digitsOf, Binary64.digits, Nat.toDigits_of_base_le (by omega) (by omega), List.map_append]
        exact List.head?_append_of_ne_nil _ hne
      rw [hhead]
      exact ih (n / 10) (by omega) hdiv

/-- A literal of several digits does not begin with 0. -/
theorem not_leadingZero (n : Nat) : ¬((digitsOf n).head? = some 0 ∧ (digitsOf n).length ≠ 1) := by
  rintro ⟨hhead, hlen⟩
  rcases Nat.eq_zero_or_pos n with rfl | hpos
  · exact hlen (by decide)
  · exact head?_digitsOf_ne hpos hhead

/-- Digits whose value fits the significand are gathered to the last one. -/
theorem gatherWhole_of_le (ds : List Nat) :
    ∀ v, ds.foldl (fun v d => v * 10 + d) v ≤ maxSignificand →
      gatherWhole v ds = (ds.foldl (fun v d => v * 10 + d) v, 0) := by
  have hgrow : ∀ (ds : List Nat) (v : Nat), v ≤ ds.foldl (fun v d => v * 10 + d) v := by
    intro ds
    induction ds with
    | nil => intro v; exact Nat.le_refl v
    | cons d ds ih => intro v; exact Nat.le_trans (by omega) (ih (v * 10 + d))
  induction ds with
  | nil => intro v _; rfl
  | cons d ds ih =>
    intro v h
    have hstep : v * 10 + d ≤ maxSignificand := Nat.le_trans (hgrow ds _) h
    rw [gatherWhole, if_pos hstep]
    exact ih _ h

/-- The literal of an integer. -/
def ofInt (i : Int) : Numeral := ⟨i < 0, digitsOf i.natAbs, [], none⟩

/-- The literal of an integer that fits a word stands for the integer. -/
theorem number?_ofInt {i : Int} (h : FitsWord i) : (ofInt i).number? = some (.integer i h) := by
  have hfits : i.natAbs ≤ maxSignificand := by
    unfold FitsWord at h
    unfold maxSignificand
    omega
  have hgather : gatherWhole 0 (digitsOf i.natAbs) = (i.natAbs, 0) := by
    have := gatherWhole_of_le (digitsOf i.natAbs) 0
    rw [foldl_digitsOf] at this
    exact this hfits
  simp only [number?, ofInt, hgather, and_self, if_true]
  by_cases hneg : i < 0
  · have hzero : i.natAbs ≠ 0 := by omega
    have hval : -(i.natAbs : Int) = i := by omega
    rw [if_pos (decide_eq_true hneg), if_neg hzero, hval, Number.ofInt?, dif_pos h]
  · have hval : (i.natAbs : Int) = i := by omega
    have hnot : ¬decide (i < 0) = true := by simpa using hneg
    rw [if_neg hnot, hval, Number.ofInt?, dif_pos h]

end Numeral

/-! ## Scanning them -/

namespace Tree

/-- A character that stands for itself. -/
theorem scanString_plain {c : Char} (hquote : c ≠ '"') (hslash : c ≠ '\\') (hcontrol : ¬c.toNat < 0x20) (s : List Char) :
    scanString (c :: s) = (.char c :: (scanString s).1, (scanString s).2) := by
  rw [scanString.eq_def]
  simp only [hquote, hslash, hcontrol, if_false]

/-- A character that is written as a backslash and a letter. -/
theorem scanString_short {e c : Char} (hu : e ≠ 'u') (he : shortEscape? e = some c) (s : List Char) :
    scanString ('\\' :: e :: s) = (.char c :: (scanString s).1, (scanString s).2) := by
  rw [scanString.eq_def]
  simp only [Char.reduceEq, if_false, if_true, hu, he]

/-- A character that is written by its number. -/
theorem scanString_unit {x y z w : Char} {n : Nat} (h : Text.hexQuad? x y z w = some n) (s : List Char) :
    scanString ('\\' :: 'u' :: x :: y :: z :: w :: s) = (.unit n :: (scanString s).1, (scanString s).2) := by
  rw [scanString.eq_def]
  simp only [Char.reduceEq, if_false, if_true, h]

/-- Below 16 one digit is written, and three zeros in front of it make a code that is read back. -/
theorem hex_of_lt_16 : ∀ n < 16, Text.hex n = [n.digitChar] ∧ Text.hexQuad? '0' '0' '0' n.digitChar = some n := by
  decide

/-- From 16 on below 32 two digits are written, and two zeros in front of them make a code that is read back. -/
theorem hex_of_lt_32 : ∀ n < 32, 16 ≤ n →
    Text.hex n = ['1', (n - 16).digitChar] ∧ Text.hexQuad? '0' '0' '1' (n - 16).digitChar = some n := by
  decide

/-- What a character is written as is scanned as its piece. -/
theorem scanString_escapedChar (c : Char) (s : List Char) :
    scanString (Json.escapedChar c ++ s) = (Piece.ofChar c :: (scanString s).1, (scanString s).2) := by
  -- A character with a short escape is known by its number, so both sides can be computed.
  have short : ∀ {d e : Char}, c.toNat = d.toNat → e ≠ 'u' → shortEscape? e = some d → Piece.ofChar d = .char d →
      scanString ('\\' :: e :: s) = (Piece.ofChar c :: (scanString s).1, (scanString s).2) := by
    intro d e hc hu he hd
    have hcd : c = d := by rw [← Char.ofNat_toNat c, hc, Char.ofNat_toNat]
    rw [hcd, hd]
    exact scanString_short hu he s
  have hunit : c.toNat < 0x20 → c.toNat ∉ [8, 9, 10, 12, 13] → Piece.ofChar c = .unit c.toNat :=
    fun hc hshort => if_pos ⟨hc, hshort⟩
  unfold Json.escapedChar
  by_cases hquote : c = '"'
  · rw [if_pos hquote]
    exact short (congrArg Char.toNat hquote) (by decide) (by decide) (by decide)
  rw [if_neg hquote]
  by_cases hslash : c = '\\'
  · rw [if_pos hslash]
    exact short (congrArg Char.toNat hslash) (by decide) (by decide) (by decide)
  rw [if_neg hslash]
  by_cases h8 : c.toNat = 8
  · rw [if_pos h8]
    exact short (d := Char.ofNat 8) h8 (by decide) (by decide) (by decide)
  rw [if_neg h8]
  by_cases h9 : c.toNat = 9
  · rw [if_pos h9]
    exact short (d := '\t') h9 (by decide) (by decide) (by decide)
  rw [if_neg h9]
  by_cases h10 : c.toNat = 10
  · rw [if_pos h10]
    exact short (d := '\n') h10 (by decide) (by decide) (by decide)
  rw [if_neg h10]
  by_cases h12 : c.toNat = 12
  · rw [if_pos h12]
    exact short (d := Char.ofNat 12) h12 (by decide) (by decide) (by decide)
  rw [if_neg h12]
  by_cases h13 : c.toNat = 13
  · rw [if_pos h13]
    exact short (d := '\r') h13 (by decide) (by decide) (by decide)
  rw [if_neg h13]
  have hshort : c.toNat ∉ [8, 9, 10, 12, 13] := by
    simp only [List.mem_cons, h8, h9, h10, h12, h13, List.not_mem_nil, or_self, not_false_eq_true]
  by_cases hlow : c.toNat < 0x10
  · obtain ⟨hhex, hquad⟩ := hex_of_lt_16 c.toNat hlow
    rw [if_pos hlow, hhex, hunit (Nat.lt_trans hlow (by decide)) hshort]
    exact scanString_unit hquad s
  rw [if_neg hlow]
  by_cases hcontrol : c.toNat < 0x20
  · obtain ⟨hhex, hquad⟩ := hex_of_lt_32 c.toNat hcontrol (Nat.le_of_not_lt hlow)
    rw [if_pos hcontrol, hhex, hunit hcontrol hshort]
    exact scanString_unit hquad s
  rw [if_neg hcontrol]
  have hplain : Piece.ofChar c = .char c := if_neg fun h => hcontrol h.1
  rw [hplain]
  exact scanString_plain hquote hslash hcontrol s

/-- What a text is written as is scanned as its pieces, up to the closing quote. -/
theorem scanString_escaped (s : String) (rest : List Char) :
    scanString (s.toList.flatMap Json.escapedChar ++ '"' :: rest) = (Piece.ofString s, none, rest) := by
  unfold Piece.ofString
  induction s.toList with
  | nil =>
    rw [List.flatMap_nil, List.nil_append, scanString.eq_def]
    rfl
  | cons c cs ih => rw [List.flatMap_cons, List.append_assoc, scanString_escapedChar, ih, List.map_cons]

/-- The text does not go on with a number that ends before it. -/
def EndsNumber (s : List Char) : Prop := ∀ c ∈ s.head?, ¬c.isDigit ∧ c ≠ '.' ∧ c ≠ 'e' ∧ c ≠ 'E'

theorem endsNumber_nil : EndsNumber [] := by simp [EndsNumber]

/-- A character that cannot go on with a number ends it. -/
theorem endsNumber_cons {c : Char} (s : List Char) (h : ¬c.isDigit ∧ c ≠ '.' ∧ c ≠ 'e' ∧ c ≠ 'E') :
    EndsNumber (c :: s) := by
  intro d hd
  cases hd
  exact h

/-- Digits are scanned up to the next character that is none. -/
theorem scanDigits_append {ds s : List Char} (hdigits : ∀ c ∈ ds, c.isDigit) (hs : ∀ c ∈ s.head?, ¬c.isDigit) :
    scanDigits (ds ++ s) = (ds.map fun c => c.toNat - 48, s) := by
  have hrest : s.takeWhile Char.isDigit = [] ∧ s.dropWhile Char.isDigit = s := by
    cases s with
    | nil => exact ⟨rfl, rfl⟩
    | cons c s =>
      have hc : c.isDigit = false := by simpa using hs c rfl
      simp [hc]
  rw [scanDigits, List.takeWhile_append_of_pos hdigits, List.dropWhile_append_of_pos hdigits, hrest.1, hrest.2,
    List.append_nil]

/-- The digits of a number are scanned to the last one. -/
theorem scanDigits_digits (n : Nat) {rest : List Char} (h : EndsNumber rest) :
    scanDigits (Binary64.digits n ++ rest) = (Numeral.digitsOf n, rest) :=
  scanDigits_append (fun _ hc => Nat.isDigit_of_mem_toDigits (by decide) (by decide) hc) fun c hc => (h c hc).1

/-- Without a point there is no fraction. -/
theorem scanFraction_of_ne {s : List Char} (hs : ∀ c ∈ s.head?, c ≠ '.') : scanFraction s = .ok ([], s) := by
  cases s with
  | nil => rfl
  | cons c s =>
    rw [scanFraction.eq_def]
    split
    · next heq =>
      cases heq
      exact absurd rfl (hs '.' rfl)
    · rfl

/-- What ends a number is no fraction. -/
theorem scanFraction_of_endsNumber {rest : List Char} (h : EndsNumber rest) : scanFraction rest = .ok ([], rest) :=
  scanFraction_of_ne fun c hc => (h c hc).2.1

/-- What ends a number is no power of ten. -/
theorem scanExponent_of_endsNumber {rest : List Char} (h : EndsNumber rest) : scanExponent rest = .ok (none, rest) := by
  cases rest with
  | nil => rfl
  | cons c rest =>
    rw [scanExponent.eq_def]
    split
    · rename_i heq
      cases heq
      exact absurd rfl (h 'e' rfl).2.2.1
    · rename_i heq
      cases heq
      exact absurd rfl (h 'E' rfl).2.2.2
    · rfl

/-- The digits of a number are scanned as a literal without point and exponent. -/
theorem scanMagnitude_digits (isNegative : Bool) (n : Nat) {rest : List Char} (h : EndsNumber rest) :
    scanMagnitude isNegative (Binary64.digits n ++ rest) = .ok (⟨isNegative, Numeral.digitsOf n, [], none⟩, rest) := by
  rw [scanMagnitude, scanDigits_digits n h]
  simp only [Numeral.digitsOf_ne_nil, Numeral.not_leadingZero, if_false, scanFraction_of_endsNumber h,
    scanExponent_of_endsNumber h, bind, Except.bind, pure, Except.pure]

/-- What an integer is written as is scanned as its literal. -/
theorem scanNumber_render (i : Int) (hi : FitsWord i) {rest : List Char} (h : EndsNumber rest) :
    scanNumber ((Number.integer i hi).render ++ rest) = (.number (.ofInt i), rest) := by
  rw [Number.render, scanNumber.eq_def]
  by_cases hneg : i < 0
  · simp [hneg, scanMagnitude_digits true i.natAbs h, Numeral.ofInt]
  · obtain ⟨c, cs, hcs⟩ := List.exists_cons_of_ne_nil (Nat.toDigits_ne_nil (n := i.natAbs) (b := 10))
    have hdigit : c.isDigit := Nat.isDigit_of_mem_toDigits (by decide) (by decide) (hcs ▸ List.mem_cons_self)
    have hdash : c ≠ '-' := by
      rintro rfl
      exact absurd hdigit (by decide)
    have hscan := scanMagnitude_digits false i.natAbs h
    rw [Binary64.digits, hcs, List.cons_append] at hscan
    simp [hneg, Binary64.digits, hcs, hdash, hscan, Numeral.ofInt]

end Tree

end WorkflowAugment
