/-!
# UTF-8

Octets as text. `size` counts the octets of a text. `decodeLossy` puts U+FFFD for every longest run of octets that begins a character without completing
it, and for every octet that begins none; `decode?` refuses a text in which there is such a run.
-/

namespace WorkflowAugment.Text.Utf8

/-- How many octets a text takes. -/
def size : List Char → Nat
  | [] => 0
  | c :: s => c.utf8Size + size s

/-- The character begun so far: its bits, the octets still owed, and the range that the next one must lie in. -/
structure Pending where
  bits : Nat
  owed : Nat
  low : Nat
  high : Nat

/-- What the first octet of a character of more than one octet begins. The ranges leave out overlong forms, surrogates
and everything above U+10FFFF. -/
def lead (b : Nat) : Option Pending :=
  if 0xc2 ≤ b ∧ b ≤ 0xdf then some ⟨b - 0xc0, 1, 0x80, 0xbf⟩
  else if b = 0xe0 then some ⟨0, 2, 0xa0, 0xbf⟩
  else if b = 0xed then some ⟨0xd, 2, 0x80, 0x9f⟩
  else if 0xe1 ≤ b ∧ b ≤ 0xef then some ⟨b - 0xe0, 2, 0x80, 0xbf⟩
  else if b = 0xf0 then some ⟨0, 3, 0x90, 0xbf⟩
  else if 0xf1 ≤ b ∧ b ≤ 0xf3 then some ⟨b - 0xf0, 3, 0x80, 0xbf⟩
  else if b = 0xf4 then some ⟨4, 3, 0x80, 0x8f⟩
  else none

/-- One item of a decoded text: a character, or a run of octets that is none. -/
inductive Item where
  | char (c : Char)
  | invalid

/-- The items that `octets` begin with nothing pending: an ASCII character at once, else what `lead` says. -/
def start (b : Nat) : List Item × Option Pending :=
  if b < 0x80 then ([.char (Char.ofNat b)], none)
  else match lead b with
    | some p => ([], some p)
    | none => ([.invalid], none)

/-- One octet more: the items it completes and what is pending after it. An octet that cannot continue the pending
character ends it as invalid and is taken as a first octet. -/
def step (pending : Option Pending) (b : Nat) : List Item × Option Pending :=
  match pending with
  | none => start b
  | some p =>
    if p.low ≤ b ∧ b ≤ p.high then
      let bits := p.bits * 64 + (b - 0x80)
      if p.owed = 1 then ([.char (Char.ofNat bits)], none) else ([], some ⟨bits, p.owed - 1, 0x80, 0xbf⟩)
    else (.invalid :: (start b).1, (start b).2)

/-- The items of `octets` with `pending` begun before them. -/
def items : Option Pending → List UInt8 → List Item
  | none, [] => []
  | some _, [] => [.invalid]
  | pending, b :: bs => (step pending b.toNat).1 ++ items (step pending b.toNat).2 bs

/-- The character an item stands for: U+FFFD for octets that are none. -/
def Item.charOrReplacement : Item → Char
  | .char c => c
  | .invalid => '\uFFFD'

/-- The character of an item, if it is one. -/
def Item.char? : Item → Option Char
  | .char c => some c
  | .invalid => none

/-- The text, with U+FFFD for what is not UTF-8. -/
def decodeLossy (octets : List UInt8) : String :=
  String.ofList ((items none octets).map Item.charOrReplacement)

/-- The text, if the octets are UTF-8 throughout. -/
def decode? (octets : List UInt8) : Option String :=
  ((items none octets).mapM Item.char?).map String.ofList

end WorkflowAugment.Text.Utf8
