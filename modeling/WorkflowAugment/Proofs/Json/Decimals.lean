import Mathlib.Data.List.DropRight
import WorkflowAugment.Proofs.Json.Spelling

/-!
# How numbers are spelled

The text of a number is one literal, whatever the number is: a sign if it is negative, digits of which the first is no zero
unless it is alone, and for a double a fraction, a power of ten or both. So it is scanned as one number, up to the next character
that is not part of it (`Tree.scanNumber_append`).
-/

namespace WorkflowAugment

/-! ## The digits of a double -/

namespace Binary64

variable {mantissa c : Nat} {exponent place : Int}

theorem tenTo_pos (e : Nat) : 0 < tenTo e := Nat.pow_pos (by decide)

/-- Zero does not round to a double with a mantissa. -/
theorem low_pos (h : 0 < mantissa) (exponent : Int) : 0 < (neighbourhood mantissa exponent).low := by
  simp only [neighbourhood]
  split <;> omega

/-- A point of a grid that rounds to a double with a mantissa is not zero. -/
theorem pos_of_onGrid? {k : Int} (hmantissa : 0 < mantissa) (h : onGrid? mantissa exponent k = some c) : 0 < c := by
  have hlow := low_pos hmantissa exponent
  have hscale := scale2_fst_pos 1 (exponent - 2) Nat.one_pos
  have hten : 0 < (if 0 ≤ k then (tenTo k.toNat, 1) else (1, tenTo (-k).toNat)).2 := by
    split
    · exact Nat.one_pos
    · exact tenTo_pos _
  rw [onGrid?] at h
  dsimp only at h
  generalize neighbourhood mantissa exponent = n at h hlow
  generalize scale2 1 1 (exponent - 2) = q at h hscale
  generalize (if 0 ≤ k then (tenTo k.toNat, 1) else (1, tenTo (-k).toNat)) = w at h hten
  have hunit : 0 < n.low * (q.1 * w.2) := Nat.mul_pos hlow (Nat.mul_pos hscale hten)
  generalize q.1 * w.2 = unit at h hunit
  generalize w.1 * q.2 = step at h
  generalize n.mid * unit / step = x at h
  -- What rounds to the double lies above the lower end of its neighbourhood, and that lies above zero.
  obtain ⟨inside, hdef⟩ : ∃ inside : Nat → Bool, inside = fun y =>
      if n.endsIncluded then n.low * unit ≤ y * step && y * step ≤ n.high * unit
      else n.low * unit < y * step && y * step < n.high * unit := ⟨_, rfl⟩
  have hinside : ∀ y, inside y = true → 0 < y := by
    intro y hy
    rcases Nat.eq_zero_or_pos y with rfl | hpos
    · rw [hdef] at hy
      dsimp only at hy
      rw [Nat.zero_mul] at hy
      split at hy
      · rw [Bool.and_eq_true, decide_eq_true_eq] at hy
        omega
      · rw [Bool.and_eq_true, decide_eq_true_eq] at hy
        omega
    · exact hpos
  have hcases : (if inside x && inside (x + 1) then
        some (if n.mid * unit - x * step < (x + 1) * step - n.mid * unit then x
          else if (x + 1) * step - n.mid * unit < n.mid * unit - x * step then x + 1 else x + x % 2)
      else if inside x then some x else if inside (x + 1) then some (x + 1) else none) = some c := by
    rw [hdef]
    exact h
  clear h hdef
  split at hcases
  · next hboth =>
    have hx := hinside x (Bool.and_eq_true_iff.mp hboth).1
    obtain rfl := Option.some.inj hcases
    split
    · exact hx
    split
    · exact Nat.succ_pos x
    · exact Nat.lt_of_lt_of_le hx (Nat.le_add_right _ _)
  split at hcases
  · next hbelow =>
    obtain rfl := Option.some.inj hcases
    exact hinside _ hbelow
  split at hcases
  · obtain rfl := Option.some.inj hcases
    exact Nat.succ_pos x
  · nomatch hcases

/-- Whichever grid is hit first, and also where none is, the decimal of a double with a mantissa is not zero. -/
theorem shortestFrom_pos (hmantissa : 0 < mantissa) (fuel : Nat) :
    ∀ n, 0 < (shortestFrom mantissa exponent place fuel n).1 := by
  induction fuel with
  | zero => exact fun n => hmantissa
  | succ fuel ih =>
    intro n
    rw [shortestFrom]
    split
    · next c hgrid => exact pos_of_onGrid? hmantissa hgrid
    · exact ih (n + 1)

/-- The shortest decimal of a double with a mantissa is not zero. -/
theorem shortest_pos (hmantissa : 0 < mantissa) (exponent : Int) : 0 < (shortest mantissa exponent).1 :=
  shortestFrom_pos hmantissa 17 1

/-- Digits of which there are some and the first is not zero. -/
structure Significant (ds : List Char) : Prop where
  digits : ∀ c ∈ ds, c.isDigit
  nonempty : ds ≠ []
  head : ds.head? ≠ some '0'

/-- The digits of a number that is not zero are significant. -/
theorem significant_digits {n : Nat} (h : 0 < n) : Significant (digits n) where
  digits _ hc := Nat.isDigit_of_mem_toDigits (by decide) (by decide) hc
  nonempty := Nat.toDigits_ne_nil
  head hzero := by
    refine Numeral.head?_digitsOf_ne h ?_
    rw [Numeral.digitsOf, List.head?_map, hzero]
    rfl

/-- What is left without the zeros at the end is significant. -/
theorem Significant.stripZeros {ds : List Char} (h : Significant ds) : Significant (stripZeros ds) := by
  have hkept : Binary64.stripZeros ds <+: ds := List.rdropWhile_prefix _ ds
  have hne : Binary64.stripZeros ds ≠ [] := by
    intro hnil
    have hzeros : ∀ c ∈ ds, decide (c = '0') = true := List.rdropWhile_eq_nil_iff.mp hnil
    obtain ⟨c, cs, rfl⟩ := List.exists_cons_of_ne_nil h.nonempty
    exact h.head (congrArg some (of_decide_eq_true (hzeros c List.mem_cons_self)))
  refine ⟨fun c hc => h.digits c (hkept.subset hc), hne, ?_⟩
  obtain ⟨t, ht⟩ := hkept
  have hhead := h.head
  rwa [← ht, List.head?_append_of_ne_nil _ hne] at hhead

end Binary64

/-! ## Literals -/

namespace Tree

variable {ds fs s u rest : List Char} {fraction : List Nat} {exponent : Option Int}

/-- Digits behind a point are scanned as the fraction. -/
theorem scanFraction_point (hdigits : ∀ c ∈ fs, c.isDigit) (hne : fs ≠ []) (hs : ∀ c ∈ s.head?, ¬c.isDigit) :
    scanFraction ('.' :: (fs ++ s)) = .ok (fs.map fun c => c.toNat - 48, s) := by
  simp [scanFraction, scanDigits_append hdigits hs, hne]

/-- Digits behind an e and a sign. -/
theorem scanExponent_plus (n : Nat) (h : EndsNumber rest) : scanExponent ('e' :: '+' :: (Binary64.digits n ++ rest)) =
    .ok (some (digitsValue (Numeral.digitsOf n) : Int), rest) := by
  simp [scanExponent, scanPower, scanDigits_digits n h, Numeral.digitsOf_ne_nil, Except.map]

/-- Digits behind an e and a minus are scanned as a negative power. -/
theorem scanExponent_minus (n : Nat) (h : EndsNumber rest) : scanExponent ('e' :: '-' :: (Binary64.digits n ++ rest)) =
    .ok (some (-(digitsValue (Numeral.digitsOf n) : Int)), rest) := by
  simp [scanExponent, scanPower, scanDigits_digits n h, Numeral.digitsOf_ne_nil, Except.map]

/-- The last part of a literal: a power of ten, or nothing. -/
structure Power (s : List Char) (exponent : Option Int) : Prop where
  head : ∀ c ∈ s.head?, ¬c.isDigit ∧ c ≠ '.'
  scans : ∀ {rest}, EndsNumber rest → scanExponent (s ++ rest) = .ok (exponent, rest)

theorem power_nil : Power [] none := ⟨nofun, scanExponent_of_endsNumber⟩

/-- A power of ten is written with its sign. -/
theorem exists_power (k : Int) :
    ∃ e, Power ('e' :: if 0 ≤ k then '+' :: Binary64.digits k.toNat else '-' :: Binary64.digits (-k).toNat) e := by
  have hhead : ∀ s, ∀ c ∈ ('e' :: s : List Char).head?, ¬c.isDigit ∧ c ≠ '.' := by
    rintro s _ ⟨⟩
    decide
  split
  · exact ⟨_, hhead _, scanExponent_plus _⟩
  · exact ⟨_, hhead _, scanExponent_minus _⟩

/-- Neither the last part nor what ends a number goes on with a digit or a point. -/
theorem Power.head_append (h : Power s exponent) (hrest : EndsNumber rest) :
    ∀ c ∈ (s ++ rest).head?, ¬c.isDigit ∧ c ≠ '.' := by
  cases s with
  | nil => exact fun c hc => ⟨(hrest c hc).1, (hrest c hc).2.1⟩
  | cons c s => exact h.head

/-- The digits before the point: some, and no zero in front of others. -/
structure Whole (ds : List Char) : Prop where
  digits : ∀ c ∈ ds, c.isDigit
  nonempty : ds ≠ []
  lead : ds.head? = some '0' → ds.length = 1

theorem whole_zero : Whole ['0'] := ⟨List.forall_mem_singleton.mpr (by decide), List.cons_ne_nil _ _, fun _ => rfl⟩

/-- What stands before the point is not refused for a zero in front. -/
theorem Whole.not_leadingZero (h : Whole ds) :
    ¬((ds.map fun c => c.toNat - 48).head? = some 0 ∧ (ds.map fun c => c.toNat - 48).length ≠ 1) := by
  rintro ⟨hhead, hlength⟩
  obtain ⟨c, cs, rfl⟩ := List.exists_cons_of_ne_nil h.nonempty
  have hdigit : 48 ≤ c.toNat := (Char.isDigit_iff_toNat.mp (h.digits c List.mem_cons_self)).1
  have hvalue : c.toNat - 48 = 0 := Option.some.inj hhead
  have hzero : c = '0' := Char.toNat_inj.mp (by rw [show '0'.toNat = 48 from rfl]; omega)
  refine hlength ?_
  rw [List.length_map]
  exact h.lead (by rw [hzero]; rfl)

/-- A literal without its sign is scanned part by part. -/
theorem Whole.scanMagnitude (h : Whole ds) (negative : Bool) (hs : ∀ c ∈ s.head?, ¬c.isDigit)
    (hfraction : scanFraction s = .ok (fraction, u)) (hexponent : scanExponent u = .ok (exponent, rest)) :
    scanMagnitude negative (ds ++ s) = .ok (⟨negative, ds.map fun c => c.toNat - 48, fraction, exponent⟩, rest) := by
  have hne : (ds.map fun c => c.toNat - 48) ≠ [] := by simpa using h.nonempty
  rw [Tree.scanMagnitude, scanDigits_append h.digits hs]
  simp only [hne, h.not_leadingZero, if_false, hfraction, hexponent, bind, Except.bind, pure, Except.pure]

/-- The text is a literal without its sign: it begins with a digit and is scanned as one number, whatever ends it. -/
structure Literal (s : List Char) : Prop where
  begins : ∃ c cs, s = c :: cs ∧ c.isDigit
  scans : ∀ negative, ∃ n, ∀ rest, EndsNumber rest → scanMagnitude negative (s ++ rest) = .ok (n, rest)

/-- What stands before the point begins with a digit. -/
theorem Whole.exists_cons (h : Whole ds) : ∃ c cs, ds = c :: cs ∧ c.isDigit := by
  obtain ⟨c, cs, rfl⟩ := List.exists_cons_of_ne_nil h.nonempty
  exact ⟨c, cs, rfl, h.digits c List.mem_cons_self⟩

/-- Digits with a power of ten behind them, or alone, are a literal. -/
theorem Whole.literal (h : Whole ds) (hs : Power s exponent) : Literal (ds ++ s) where
  begins := by
    obtain ⟨c, cs, rfl, hc⟩ := h.exists_cons
    exact ⟨c, cs ++ s, rfl, hc⟩
  scans negative := by
    refine ⟨⟨negative, ds.map fun c => c.toNat - 48, [], exponent⟩, fun rest hrest => ?_⟩
    have hhead := hs.head_append hrest
    rw [List.append_assoc]
    exact h.scanMagnitude negative (fun c hc => (hhead c hc).1) (scanFraction_of_ne fun c hc => (hhead c hc).2)
      (hs.scans hrest)

/-- Digits, a point and more digits are a literal, with a power of ten behind them or without. -/
theorem Whole.literal_point (h : Whole ds) (hdigits : ∀ c ∈ fs, c.isDigit) (hne : fs ≠ []) (hs : Power s exponent) :
    Literal (ds ++ '.' :: (fs ++ s)) where
  begins := by
    obtain ⟨c, cs, rfl, hc⟩ := h.exists_cons
    exact ⟨c, _, rfl, hc⟩
  scans negative := by
    refine ⟨⟨negative, ds.map fun c => c.toNat - 48, fs.map fun c => c.toNat - 48, exponent⟩, fun rest hrest => ?_⟩
    have hhead := hs.head_append hrest
    rw [List.append_assoc, List.cons_append, List.append_assoc]
    refine h.scanMagnitude negative ?_ (scanFraction_point hdigits hne fun c hc => (hhead c hc).1) (hs.scans hrest)
    rintro _ ⟨⟩
    decide

/-- Zeros are digits. -/
theorem isDigit_of_mem_zeros {k : Nat} {c : Char} (h : c ∈ List.replicate k '0') : c.isDigit := by
  rw [List.eq_of_mem_replicate h]
  decide

/-- Significant digits, with zeros behind them or not, may stand before the point. -/
theorem whole_take (h : Binary64.Significant ds) (n k : Nat) : Whole (ds.take (n + 1) ++ List.replicate k '0') := by
  have hdigits := h.digits
  have hhead := h.head
  obtain ⟨c, cs, rfl⟩ := List.exists_cons_of_ne_nil h.nonempty
  refine ⟨fun d hd => ?_, List.cons_ne_nil _ _, fun hzero => absurd hzero hhead⟩
  rcases List.mem_append.mp hd with hd | hd
  · exact hdigits d (List.mem_of_mem_take hd)
  · exact isDigit_of_mem_zeros hd

/-- Significant digits are written as a literal, whatever the place of the first. -/
theorem literal_renderDecimal (h : Binary64.Significant ds) (style : Binary64.DecimalStyle) (place : Int) :
    Literal (Binary64.renderDecimal style ds place) := by
  unfold Binary64.renderDecimal
  split
  · split
    · have hrest : ∀ fs : List Char, (∀ c ∈ fs, c.isDigit) →
          (∀ c ∈ if fs = [] then ['0'] else fs, c.isDigit) ∧ (if fs = [] then ['0'] else fs) ≠ [] := by
        intro fs hfs
        split
        · exact ⟨whole_zero.digits, List.cons_ne_nil _ _⟩
        · next hne => exact ⟨hfs, hne⟩
      obtain ⟨hdigits, hne⟩ := hrest (ds.drop (place.toNat + 1)) fun c hc => h.digits c (List.mem_of_mem_drop hc)
      have hliteral := (whole_take h place.toNat (place.toNat + 1 - ds.length)).literal_point hdigits hne power_nil
      rwa [List.append_nil] at hliteral
    · have hdigits : ∀ c ∈ List.replicate ((-place).toNat - 1) '0' ++ ds, c.isDigit := by
        intro c hc
        rcases List.mem_append.mp hc with hc | hc
        · exact isDigit_of_mem_zeros hc
        · exact h.digits c hc
      have hliteral := whole_zero.literal_point hdigits (by simp [h.nonempty]) power_nil
      rwa [List.append_nil] at hliteral
  · obtain ⟨e, hpower⟩ := exists_power place
    have hwhole := whole_take h 0 0
    rw [List.replicate_zero, List.append_nil] at hwhole
    dsimp only
    by_cases hlength : ds.length ≤ 1
    · rw [if_pos hlength, List.append_nil]
      exact hwhole.literal hpower
    · have hdrop : ds.drop 1 ≠ [] := by
        rw [Ne, List.drop_eq_nil_iff]
        exact hlength
      have hliteral := hwhole.literal_point (fun c hc => h.digits c (List.mem_of_mem_drop hc)) hdrop hpower
      rw [if_neg hlength, List.append_assoc, List.cons_append]
      exact hliteral

/-! ## Numbers -/

/-- The digits of a number may stand before the point. -/
theorem whole_digits (n : Nat) : Whole (Binary64.digits n) := by
  rcases Nat.eq_zero_or_pos n with rfl | hpos
  · exact whole_zero
  · have h := Binary64.significant_digits hpos
    exact ⟨h.digits, h.nonempty, fun hzero => absurd hzero h.head⟩

/-- The magnitude of a double is written as a literal. -/
theorem literal_magnitude (mantissa : Nat) (exponent : Int) :
    Literal (if mantissa = 0 then ['0', '.', '0']
      else
        let (c, k) := Binary64.shortest mantissa exponent
        Binary64.renderDecimal Binary64.style (Binary64.stripZeros (Binary64.digits c))
          (k + ((Binary64.digits c).length : Int) - 1)) := by
  split
  · exact whole_zero.literal_point whole_zero.digits (List.cons_ne_nil _ _) power_nil
  · next hne =>
    have hpos := Binary64.shortest_pos (Nat.pos_of_ne_zero hne) exponent
    exact literal_renderDecimal (Binary64.significant_digits hpos).stripZeros _ _

/-- A number is written as a literal, behind a sign if it is negative. -/
theorem exists_literal (v : Number) : ∃ s, Literal s ∧ (v.render = s ∨ v.render = '-' :: s) := by
  cases v with
  | integer i hi =>
    refine ⟨Binary64.digits i.natAbs, ?_, ?_⟩
    · have hliteral := (whole_digits i.natAbs).literal power_nil
      rwa [List.append_nil] at hliteral
    · rw [Number.render]
      split
      · exact .inr rfl
      · exact .inl rfl
  | double x =>
    rw [Number.render, Binary64.render]
    refine ⟨_, literal_magnitude x.mantissa x.exponent, ?_⟩
    split
    · exact .inr rfl
    · exact .inl rfl

/-- The text of a number begins with its sign or a digit. -/
theorem render_eq_cons (v : Number) : ∃ c cs, v.render = c :: cs ∧ (c = '-' ∨ c.isDigit) := by
  obtain ⟨s, hliteral, h | h⟩ := exists_literal v
  · obtain ⟨c, cs, rfl, hc⟩ := hliteral.begins
    exact ⟨c, cs, h, .inr hc⟩
  · exact ⟨'-', s, h, .inl rfl⟩

/-- A literal with its sign is scanned as one number. -/
theorem scanNumber_append_literal (h : Literal s) (negative : Bool) : ∃ n, ∀ rest, EndsNumber rest →
    scanNumber ((if negative then '-' :: s else s) ++ rest) = (.number n, rest) := by
  obtain ⟨n, hn⟩ := h.scans negative
  refine ⟨n, fun rest hrest => ?_⟩
  have hscan := hn rest hrest
  cases negative with
  | true => simp [scanNumber, hscan]
  | false =>
    obtain ⟨c, cs, rfl, hc⟩ := h.begins
    have hdash : c ≠ '-' := by
      rintro rfl
      exact absurd hc (by decide)
    rw [List.cons_append] at hscan
    simp [scanNumber, hdash, hscan]

/-- What a number is written as is one literal. -/
theorem exists_scanNumber (v : Number) :
    ∃ n, ∀ rest, EndsNumber rest → scanNumber (v.render ++ rest) = (.number n, rest) := by
  obtain ⟨s, hliteral, heq | heq⟩ := exists_literal v
  · rw [heq]
    exact scanNumber_append_literal hliteral false
  · rw [heq]
    exact scanNumber_append_literal hliteral true

/-- What a number is written as is scanned as one number, up to what ends it. -/
theorem scanNumber_append (v : Number) (h : EndsNumber rest) :
    scanNumber (v.render ++ rest) = ((scanNumber v.render).1, rest) := by
  obtain ⟨n, hn⟩ := exists_scanNumber v
  have hnil := hn [] endsNumber_nil
  rw [List.append_nil] at hnil
  rw [hn rest h, hnil]

end Tree

end WorkflowAugment
