/-!
# Doubles in exact arithmetic

A finite double is a sign, a mantissa and a power of two. Every operation works out its result exactly, as a quotient of
natural numbers, and rounds it once: to the nearest double, a tie to the even mantissa. Beyond the largest double there
is no result. A double is kept in the one form that there is for it (`Binary64.Normal`), and what is rounded has this form
(`Binary64.normal_rounded`).
-/

namespace WorkflowAugment

namespace Binary64

/-- Two to the power `e`. -/
def twoTo (e : Nat) : Nat := Nat.pow 2 e

/-- Ten to the power `e`. -/
def tenTo (e : Nat) : Nat := Nat.pow 10 e

/-- The least exponent of a double. -/
def minExponent : Int := -1074

/-- The largest exponent of a double. -/
def maxExponent : Int := 971

/-- How a number is taken apart: the mantissa has 53 bits, and fewer only at the least exponent. This leaves one way for
each number, zero among them. -/
structure Normal (mantissa : Nat) (exponent : Int) : Prop where
  mantissa_lt : mantissa < twoTo 53
  minExponent_le : minExponent ≤ exponent
  le_mantissa : minExponent < exponent → twoTo 52 ≤ mantissa

end Binary64

/-- The number ± `mantissa` · 2 ^ `exponent`. -/
structure Binary64 where
  negative : Bool
  mantissa : Nat
  exponent : Int
  normal : Binary64.Normal mantissa exponent
  le_maxExponent : exponent ≤ Binary64.maxExponent
deriving DecidableEq, Repr

namespace Binary64

theorem twoTo_pos (e : Nat) : 0 < twoTo e := Nat.pow_pos Nat.two_pos

theorem twoTo_add (d e : Nat) : twoTo (d + e) = twoTo d * twoTo e := Nat.pow_add 2 d e

/-! ## Rounding a quotient -/

/-- The integer nearest to `num / den`, of two the even one. -/
def roundDiv (num den : Nat) : Nat :=
  let q := num / den
  let r := num % den
  if 2 * r < den then q else if den < 2 * r then q + 1 else q + q % 2

/-- To round is to take the whole part or the next integer. -/
theorem roundDiv_bounds (num den : Nat) : num / den ≤ roundDiv num den ∧ roundDiv num den ≤ num / den + 1 := by
  unfold roundDiv
  dsimp only
  split
  · omega
  · split <;> omega

/-- A quotient that is no less than an integer is not rounded to less. -/
theorem le_roundDiv {num den c : Nat} (hden : 0 < den) (h : c * den ≤ num) : c ≤ roundDiv num den :=
  Nat.le_trans ((Nat.le_div_iff_mul_le hden).mpr h) (roundDiv_bounds num den).1

/-- A quotient below an integer is not rounded to more. -/
theorem roundDiv_le {num den c : Nat} (hden : 0 < den) (h : num < c * den) : roundDiv num den ≤ c :=
  Nat.le_trans (roundDiv_bounds num den).2 ((Nat.div_lt_iff_lt_mul hden).mpr h)

/-! ## Powers of two -/

/-- The fraction `num / den` taken `2 ^ e` times, again as numerator and denominator. -/
def scale2 (num den : Nat) (e : Int) : Nat × Nat := (num * twoTo e.toNat, den * twoTo (-e).toNat)

theorem scale2_fst_pos {num : Nat} (den : Nat) (e : Int) (h : 0 < num) : 0 < (scale2 num den e).1 :=
  Nat.mul_pos h (twoTo_pos _)

theorem scale2_snd_pos (num : Nat) {den : Nat} (e : Int) (h : 0 < den) : 0 < (scale2 num den e).2 :=
  Nat.mul_pos h (twoTo_pos _)

/-- Taken `2 ^ j` times more, a fraction is compared with `2 ^ j` times as much. -/
theorem scale2_lt_iff (num den c : Nat) (e : Int) (j : Nat) :
    (scale2 num den (e + j)).1 < c * twoTo j * (scale2 num den (e + j)).2 ↔
      (scale2 num den e).1 < c * (scale2 num den e).2 := by
  have hcross : twoTo (e + j).toNat * twoTo (-e).toNat = twoTo e.toNat * (twoTo (-(e + j)).toNat * twoTo j) := by
    rw [← twoTo_add, ← twoTo_add, ← twoTo_add]
    congr 1
    omega
  simp only [scale2]
  generalize twoTo (e + j).toNat = p' at hcross ⊢
  have hq : 0 < twoTo (-e).toNat := twoTo_pos _
  have hq' : 0 < twoTo (-(e + j)).toNat * twoTo j := Nat.mul_pos (twoTo_pos _) (twoTo_pos _)
  -- What one of the two scales has in its denominator the other makes up for in its numerator.
  calc num * p' < c * twoTo j * (den * twoTo (-(e + j)).toNat)
    _ ↔ num * p' * twoTo (-e).toNat < c * twoTo j * (den * twoTo (-(e + j)).toNat) * twoTo (-e).toNat :=
        (Nat.mul_lt_mul_right hq).symm
    _ ↔ num * twoTo e.toNat * (twoTo (-(e + j)).toNat * twoTo j) <
          c * (den * twoTo (-e).toNat) * (twoTo (-(e + j)).toNat * twoTo j) := by
        rw [Nat.mul_assoc num, hcross, ← Nat.mul_assoc num]
        ac_nf
    _ ↔ num * twoTo e.toNat < c * (den * twoTo (-e).toNat) := Nat.mul_lt_mul_right hq'

/-- A fraction of which the numerator has been given 53 bits more than the denominator has 53 or 54 bits before the point. -/
theorem scale2_bounds {num den : Nat} (hnum : 0 < num) (hden : 0 < den) {e : Int}
    (he : num.log2 + e = den.log2 + 53) :
    twoTo 52 * (scale2 num den e).2 ≤ (scale2 num den e).1 ∧
      (scale2 num den e).1 < twoTo 54 * (scale2 num den e).2 := by
  have hbits : num.log2 + e.toNat = den.log2 + 53 + (-e).toNat := by omega
  have hnumLow : twoTo num.log2 ≤ num := Nat.log2_self_le (Nat.ne_of_gt hnum)
  have hnumHigh : num < twoTo (num.log2 + 1) := Nat.lt_log2_self
  have hdenLow : twoTo den.log2 ≤ den := Nat.log2_self_le (Nat.ne_of_gt hden)
  have hdenHigh : den < twoTo (den.log2 + 1) := Nat.lt_log2_self
  constructor
  · calc twoTo 52 * (den * twoTo (-e).toNat)
      _ ≤ twoTo 52 * (twoTo (den.log2 + 1) * twoTo (-e).toNat) :=
          Nat.mul_le_mul_left _ (Nat.mul_le_mul_right _ (Nat.le_of_lt hdenHigh))
      _ = twoTo (num.log2 + e.toNat) := by
          rw [← twoTo_add, ← twoTo_add]
          congr 1
          omega
      _ = twoTo num.log2 * twoTo e.toNat := twoTo_add _ _
      _ ≤ num * twoTo e.toNat := Nat.mul_le_mul_right _ hnumLow
  · calc num * twoTo e.toNat
      _ < twoTo (num.log2 + 1) * twoTo e.toNat := (Nat.mul_lt_mul_right (twoTo_pos _)).mpr hnumHigh
      _ = twoTo (54 + (den.log2 + (-e).toNat)) := by
          rw [← twoTo_add]
          congr 1
          omega
      _ = twoTo 54 * (twoTo den.log2 * twoTo (-e).toNat) := by rw [twoTo_add, twoTo_add]
      _ ≤ twoTo 54 * (den * twoTo (-e).toNat) := Nat.mul_le_mul_left _ (Nat.mul_le_mul_right _ hdenLow)

/-! ## The nearest double -/

/-- The exponent of the doubles around `num / den`, were there no least one: the quotient has 53 bits before the point. -/
def leadingExponent (num den : Nat) : Int :=
  let e : Int := (num.log2 : Int) - (den.log2 : Int) - 53
  let (n, d) := scale2 num den (-e)
  if n / d < twoTo 53 then e else e + 1

/-- The exponent of the doubles around `num / den`: the quotient then has 53 bits before the point, fewer at the least
exponent. -/
def exponentOf (num den : Nat) : Int := max minExponent (leadingExponent num den)

/-- Without a least exponent a quotient has just 53 bits before the point. -/
theorem leadingExponent_bounds {num den : Nat} (hnum : 0 < num) (hden : 0 < den) :
    twoTo 52 * (scale2 num den (-leadingExponent num den)).2 ≤ (scale2 num den (-leadingExponent num den)).1 ∧
      (scale2 num den (-leadingExponent num den)).1 < twoTo 53 * (scale2 num den (-leadingExponent num den)).2 := by
  unfold leadingExponent
  dsimp only
  generalize he : (num.log2 : Int) - (den.log2 : Int) - 53 = e
  obtain ⟨hlow, hhigh⟩ := scale2_bounds hnum hden (e := -e) (by omega)
  have hpos := scale2_snd_pos num (-e) hden
  split
  · next hlt => exact ⟨hlow, (Nat.div_lt_iff_lt_mul hpos).mp hlt⟩
  · next hge =>
    have hge' : twoTo 53 * (scale2 num den (-e)).2 ≤ (scale2 num den (-e)).1 :=
      (Nat.le_div_iff_mul_le hpos).mp (Nat.le_of_not_lt hge)
    -- One more bit before the point is one place less to scale by.
    have hstep : -e = -(e + 1) + (1 : Nat) := by omega
    rw [hstep] at hge' hhigh
    exact ⟨Nat.le_of_not_lt fun h => Nat.not_lt.mpr hge' ((scale2_lt_iff num den (twoTo 52) (-(e + 1)) 1).mpr h),
      (scale2_lt_iff num den (twoTo 53) (-(e + 1)) 1).mp hhigh⟩

/-- At its exponent a quotient has at most 53 bits before the point, and fewer only at the least exponent. -/
theorem exponentOf_bounds {num den : Nat} (hnum : 0 < num) (hden : 0 < den) :
    (scale2 num den (-exponentOf num den)).1 < twoTo 53 * (scale2 num den (-exponentOf num den)).2 ∧
      (minExponent < exponentOf num den →
        twoTo 52 * (scale2 num den (-exponentOf num den)).2 ≤ (scale2 num den (-exponentOf num den)).1) := by
  obtain ⟨hlow, hhigh⟩ := leadingExponent_bounds hnum hden
  unfold exponentOf
  generalize leadingExponent num den = e at hlow hhigh
  rcases Int.le_total minExponent e with hle | hle
  · rw [Int.max_eq_right hle]
    exact ⟨hhigh, fun _ => hlow⟩
  · rw [Int.max_eq_left hle]
    refine ⟨?_, fun h => absurd h (Int.lt_irrefl _)⟩
    obtain ⟨j, hj⟩ : ∃ j : Nat, -e = -minExponent + j := ⟨(minExponent - e).toNat, by omega⟩
    rw [hj] at hhigh
    refine (scale2_lt_iff num den (twoTo 53) (-minExponent) j).mp (Nat.lt_of_lt_of_le hhigh ?_)
    exact Nat.mul_le_mul_right _ (Nat.le_mul_of_pos_right _ (twoTo_pos j))

/-- The mantissa and the exponent of the double nearest to `num / den`, were there no largest one. -/
def rounded (num den : Nat) : Nat × Int :=
  let e := exponentOf num den
  let (n, d) := scale2 num den (-e)
  let m := roundDiv n d
  if num = 0 then (0, minExponent) else if m = twoTo 53 then (twoTo 52, e + 1) else (m, e)

/-- Zero is at the least exponent. -/
theorem normal_zero : Normal 0 minExponent :=
  ⟨twoTo_pos 53, Int.le_refl _, fun h => absurd h (Int.lt_irrefl _)⟩

/-- What a quotient is rounded to is a mantissa and an exponent of the one form that there is for it. -/
theorem normal_rounded (num : Nat) {den : Nat} (hden : 0 < den) : Normal (rounded num den).1 (rounded num den).2 := by
  unfold rounded
  dsimp only
  split
  · exact normal_zero
  · next hnum =>
    obtain ⟨hhigh, hlow⟩ := exponentOf_bounds (Nat.pos_of_ne_zero hnum) hden
    have hmin : minExponent ≤ exponentOf num den := Int.le_max_left _ _
    generalize exponentOf num den = e at hhigh hlow hmin
    have hpos := scale2_snd_pos num (-e) hden
    have hle := roundDiv_le hpos hhigh
    split
    · have hcarry : twoTo 52 < twoTo 53 := by decide
      exact ⟨hcarry, Int.le_trans hmin (Int.le_add_one (Int.le_refl _)), fun _ => Nat.le_refl _⟩
    · next hne => exact ⟨Nat.lt_of_le_of_ne hle hne, hmin, fun h => le_roundDiv hpos (hlow h)⟩

/-- The double nearest to `num / den` with the given sign, if it is not beyond the largest. -/
def ofRatio? (negative : Bool) (num den : Nat) (hden : 0 < den) : Option Binary64 :=
  let r := rounded num den
  if h : r.2 ≤ maxExponent then some ⟨negative, r.1, r.2, normal_rounded num hden, h⟩ else none

/-- Zero with a sign. -/
def zero (negative : Bool) : Binary64 := ⟨negative, 0, minExponent, normal_zero, by decide⟩

/-! ## Arithmetic -/

/-- The product of two magnitudes, rounded. -/
def mul? (x y : Binary64) : Option Binary64 :=
  let q := scale2 (x.mantissa * y.mantissa) 1 (x.exponent + y.exponent)
  ofRatio? (x.negative != y.negative) q.1 q.2 (scale2_snd_pos _ _ Nat.one_pos)

/-- The quotient of two magnitudes, rounded. There is none by zero. -/
def div? (x y : Binary64) : Option Binary64 :=
  if h : 0 < y.mantissa then
    let q := scale2 x.mantissa y.mantissa (x.exponent - y.exponent)
    ofRatio? (x.negative != y.negative) q.1 q.2 (scale2_snd_pos _ _ h)
  else none

/-- The double nearest to 10 ^ `k`. -/
def powerOfTen? (k : Nat) : Option Binary64 := ofRatio? false (tenTo k) 1 Nat.one_pos

/-- The largest `k` for which 10 ^ `k` is within the doubles. -/
def maxPowerOfTen : Nat := 308

/-- `x` divided by 10 ^ 308 so many times, each step rounded; zero stays as it is. -/
def divLargestPower? : Nat → Binary64 → Option Binary64
  | 0, x => some x
  | n + 1, x =>
    if x.mantissa = 0 then some x
    else ((powerOfTen? maxPowerOfTen).bind x.div?).bind (divLargestPower? n)

/-- `x` divided by 10 ^ `k`, in steps that divide by 10 ^ 308 at most. Each step rounds. -/
def divPowerOfTen? (x : Binary64) (k : Nat) : Option Binary64 :=
  let steps := (k - 1) / maxPowerOfTen
  (divLargestPower? steps x).bind fun y =>
    if y.mantissa = 0 then some y else (powerOfTen? (k - steps * maxPowerOfTen)).bind y.div?

/-- `x` times 10 ^ `k` in one rounded step, if that is within the doubles. -/
def mulPowerOfTen? (x : Binary64) (k : Nat) : Option Binary64 :=
  if k ≤ maxPowerOfTen then (powerOfTen? k).bind x.mul?
  else if x.mantissa = 0 then some x
  else none

/-- `significand` · 10 ^ `exponent` by way of doubles: the significand is rounded, then multiplied or divided by a power
of ten, each step rounded in turn. The result can lie a place or two beside the nearest double. -/
def ofDecimal? (negative : Bool) (significand : Nat) (exponent : Int) : Option Binary64 := do
  let x ← ofRatio? negative significand 1 Nat.one_pos
  if 0 ≤ exponent then x.mulPowerOfTen? exponent.toNat else x.divPowerOfTen? (-exponent).toNat

-- Nothing at all and what is too small for a double are one zero.
example : ofDecimal? false 0 (-1) = some (zero false) ∧ ofDecimal? false 1 (-400) = some (zero false) := by decide +kernel

end Binary64

end WorkflowAugment
