import WorkflowAugment.Number.Shortest

/-!
# Number literals and the numbers they stand for

A literal is kept as its digits. `Numeral.number?` gives its number: an integer when the literal has neither point nor
exponent and fits a signed or unsigned word of 64 bits, a double otherwise. Minus zero is the double.
-/

namespace WorkflowAugment

/-- A number literal: its sign, the digits before and after the point, and the exponent of ten if one is written. -/
structure Numeral where
  negative : Bool
  whole : List Nat
  fraction : List Nat
  exponent : Option Int
deriving DecidableEq, Repr

/-- The integer fits a signed or an unsigned word of 64 bits. -/
def FitsWord (i : Int) : Prop := -0x8000000000000000 ≤ i ∧ i < 0x10000000000000000

instance (i : Int) : Decidable (FitsWord i) := inferInstanceAs (Decidable (_ ∧ _))

/-- A number as it is kept: an integer of 64 bits or a double. -/
inductive Number where
  | integer (value : Int) (fits : FitsWord value)
  | double (value : Binary64)
deriving DecidableEq

namespace Number

/-- The integer itself if it fits a word, else the nearest double. -/
def ofInt? (i : Int) : Option Number :=
  if h : FitsWord i then some (.integer i h)
  else (Binary64.ofRatio? (i < 0) i.natAbs 1 Nat.one_pos).map .double

/-- The text of a number. -/
def render : Number → List Char
  | .integer i _ => if i < 0 then '-' :: Binary64.digits i.natAbs else Binary64.digits i.natAbs
  | .double x => x.render

end Number

namespace Numeral

/-- The largest value that the digits of a literal are gathered in. -/
def maxSignificand : Nat := 0xffffffffffffffff

/-- The value of the leading digits that fit the significand, and how many digits follow them. -/
def gatherWhole : Nat → List Nat → Nat × Nat
  | v, [] => (v, 0)
  | v, d :: ds => if v * 10 + d ≤ maxSignificand then gatherWhole (v * 10 + d) ds else (v, ds.length + 1)

/-- The significand and its exponent of ten after the digits behind the point, up to the first that does not fit. -/
def gatherFraction : Nat × Int → List Nat → Nat × Int
  | s, [] => s
  | (v, e), d :: ds => if v * 10 + d ≤ maxSignificand then gatherFraction (v * 10 + d, e - 1) ds else (v, e)

/-- The number of a literal; none if it lies beyond the doubles. -/
def number? (n : Numeral) : Option Number :=
  let (v, dropped) := gatherWhole 0 n.whole
  if n.fraction = [] ∧ n.exponent = none ∧ dropped = 0 then
    if n.negative then
      if v = 0 then some (.double (.zero true)) else Number.ofInt? (-v)
    else Number.ofInt? v
  else
    let (v, e) := gatherFraction (v, dropped) n.fraction
    (Binary64.ofDecimal? n.negative v (e + n.exponent.getD 0)).map .double

end Numeral

end WorkflowAugment
