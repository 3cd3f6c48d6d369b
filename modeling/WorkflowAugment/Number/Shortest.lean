import WorkflowAugment.Number.Binary64

/-!
# The fewest digits that read back

`Binary64.shortest` finds the decimal with the fewest digits among those that round to a given double, and of several
with that many digits the one nearest to it. For each count of digits it tries the two neighbours of the double on the
grid of that count: if any point of the grid rounds to the double, one of these does. `Binary64.render` writes the
digits out.
-/

namespace WorkflowAugment.Binary64

/-- The digits of `n`, the first one not 0 unless `n` is. -/
def digits (n : Nat) : List Char := Nat.toDigits 10 n

/-- The exponent of ten of the leading digit of `num / den`, neither being 0. -/
def leadingPlace (num den : Nat) : Int :=
  if den ≤ num then (digits (num / den)).length - 1
  else
    let k := (digits (den / num)).length - 1
    if den ≤ num * tenTo k then -k else -(k + 1)

/-- The numbers that round to a double, as multiples of a quarter of its last place: their middle and their two ends.
Below a power of two the doubles lie twice as dense, so the lower end is nearer there. -/
structure Neighbourhood where
  low : Nat
  mid : Nat
  high : Nat
  endsIncluded : Bool

/-- What rounds to a double of this mantissa and exponent; a tie goes to the even mantissa. -/
def neighbourhood (mantissa : Nat) (exponent : Int) : Neighbourhood where
  low := 4 * mantissa - (if mantissa = twoTo 52 ∧ minExponent < exponent then 1 else 2)
  mid := 4 * mantissa
  high := 4 * mantissa + 2
  endsIncluded := mantissa % 2 = 0

/-- The point of the grid of step 10 ^ `k` that rounds to the double and is nearest to it, a tie going to the even
multiple, if there is one. Both sides are brought to whole numbers: a quarter of the last place is `unit`, the step of
the grid is `step`. -/
def onGrid? (mantissa : Nat) (exponent k : Int) : Option Nat :=
  let (s, t) := scale2 1 1 (exponent - 2)
  let (a, b) := if 0 ≤ k then (tenTo k.toNat, 1) else (1, tenTo (-k).toNat)
  let unit := s * b
  let step := a * t
  let n := neighbourhood mantissa exponent
  let inside := fun c : Nat =>
    if n.endsIncluded then n.low * unit ≤ c * step && c * step ≤ n.high * unit
    else n.low * unit < c * step && c * step < n.high * unit
  let c := n.mid * unit / step
  let below := n.mid * unit - c * step
  let above := (c + 1) * step - n.mid * unit
  if inside c && inside (c + 1) then
    some (if below < above then c else if above < below then c + 1 else c + c % 2)
  else if inside c then some c
  else if inside (c + 1) then some (c + 1)
  else none

/-- The first hit on the grids of `n`, `n + 1`, … digits, `fuel` of them, as a multiple and the exponent of the step. -/
def shortestFrom (mantissa : Nat) (exponent place : Int) : Nat → Nat → Nat × Int
  | 0, _ => (mantissa, exponent)
  | fuel + 1, n =>
    match onGrid? mantissa exponent (place - n + 1) with
    | some c => (c, place - n + 1)
    | none => shortestFrom mantissa exponent place fuel (n + 1)

/-- The decimal `c` · 10 ^ `k` with the fewest digits that rounds to the double. Seventeen digits always suffice. -/
def shortest (mantissa : Nat) (exponent : Int) : Nat × Int :=
  let (num, den) := scale2 mantissa 1 exponent
  shortestFrom mantissa exponent (leadingPlace num den) 17 1

/-- How a decimal is written: positional while its leading digit stands at one of these places, else with an exponent
of ten. -/
structure DecimalStyle where
  lowestPlace : Int
  highestPlace : Int

/-- Numbers from 10 ^ -5 up to 10 ^ 16 are written positionally. -/
def style : DecimalStyle := ⟨-5, 15⟩

/-- The digits without the zeros at their end. -/
def stripZeros (ds : List Char) : List Char := (ds.reverse.dropWhile (· = '0')).reverse

/-- A decimal fraction given by its digits and the place of the first of them. The positional form always shows a digit
after the point; the other form has no point after a single digit and always shows the sign of the exponent. -/
def renderDecimal (style : DecimalStyle) (ds : List Char) (place : Int) : List Char :=
  if style.lowestPlace ≤ place ∧ place ≤ style.highestPlace then
    if 0 ≤ place then
      let whole := ds.take (place.toNat + 1)
      let rest := ds.drop (place.toNat + 1)
      whole ++ List.replicate (place.toNat + 1 - ds.length) '0' ++ '.' :: (if rest = [] then ['0'] else rest)
    else '0' :: '.' :: List.replicate ((-place).toNat - 1) '0' ++ ds
  else
    let power := if 0 ≤ place then '+' :: digits place.toNat else '-' :: digits (-place).toNat
    ds.take 1 ++ (if ds.length ≤ 1 then [] else '.' :: ds.drop 1) ++ 'e' :: power

/-- The text of a double. -/
def render (x : Binary64) : List Char :=
  let magnitude :=
    if x.mantissa = 0 then ['0', '.', '0']
    else
      let (c, k) := shortest x.mantissa x.exponent
      renderDecimal style (stripZeros (digits c)) (k + ((digits c).length : Int) - 1)
  if x.negative then '-' :: magnitude else magnitude

end WorkflowAugment.Binary64
