import Mathlib.Data.List.Basic
import Mathlib.Tactic.SplitIfs
import WorkflowAugment.Text.Utf8

/-!
# What octets decode to

`Decodes` says what it is to take octets apart into characters and broken pieces without saying how: a character stands for its
encoding, and a piece is broken if no character is encoded where it begins and it is the longest run from there that begins the
encoding of one, or a single octet. There is one such decomposition only, and `items` finds it (`decodes_iff`). While it is on
its way, what is pending knows how every character goes on whose encoding begins with the octets met so far (`Begun`). Octets
are the encoding of a text just where no piece of them is broken (`invalid_mem_items_iff`).
-/

namespace WorkflowAugment.Text.Utf8

/-! ## What decoding is -/

/-- The octets of a text. -/
def encode (s : String) : List UInt8 := s.toList.flatMap String.utf8EncodeChar

/-- They are what a text is kept as. -/
theorem encode_eq_toUTF8 (s : String) : encode s = s.toUTF8.data.toList := by
  rw [encode, String.toUTF8, ← String.utf8Encode_toList, List.utf8Encode, List.data_toByteArray]

/-- The octets are the first ones of some character, or all of them. -/
def Begins (octets : List UInt8) : Prop := ∃ c, octets <+: String.utf8EncodeChar c

/-- The octets of `piece`, with `rest` behind them, are a longest broken piece. -/
structure Broken (piece rest : List UInt8) : Prop where
  nonempty : piece ≠ []
  notChar : ∀ c, ¬String.utf8EncodeChar c <+: piece ++ rest
  begins : Begins piece ∨ piece.length = 1
  longest : ∀ longer, piece <+: longer → longer <+: piece ++ rest → Begins longer → longer = piece

/-- The octets are those of the characters and the broken pieces one after another. -/
inductive Decodes : List UInt8 → List Item → Prop
  | nil : Decodes [] []
  | char (c : Char) {rest : List UInt8} {is : List Item} (h : Decodes rest is) :
    Decodes (String.utf8EncodeChar c ++ rest) (.char c :: is)
  | invalid {piece rest : List UInt8} {is : List Item} (hpiece : Broken piece rest) (h : Decodes rest is) :
    Decodes (piece ++ rest) (.invalid :: is)

/-! ## Encodings by their numbers -/

/-- The number of a character is at most 10FFFF and no surrogate. -/
theorem toNat_valid (c : Char) : c.toNat < 0xd800 ∨ 0xdfff < c.toNat ∧ c.toNat < 0x110000 := c.valid

/-- A character is that of a number if the number is its own. -/
theorem eq_ofNat_iff {c : Char} {n : Nat} (h : n < 0xd800 ∨ 0xdfff < n ∧ n < 0x110000) :
    c = Char.ofNat n ↔ c.toNat = n := by
  constructor
  · rintro rfl
    rw [Char.ofNat, dif_pos h]
    rfl
  · rintro rfl
    exact (Char.ofNat_toNat c).symm

/-- The octets of a character are worked out from its number: one, two, three or four of them. -/
theorem utf8EncodeChar_eq (c : Char) : String.utf8EncodeChar c =
    if c.toNat ≤ 0x7f then [UInt8.ofNat c.toNat]
    else if c.toNat ≤ 0x7ff then [UInt8.ofNat (c.toNat / 64 % 32 + 192), UInt8.ofNat (c.toNat % 64 + 128)]
    else if c.toNat ≤ 0xffff then
      [UInt8.ofNat (c.toNat / 4096 % 16 + 224), UInt8.ofNat (c.toNat / 64 % 64 + 128), UInt8.ofNat (c.toNat % 64 + 128)]
    else
      [UInt8.ofNat (c.toNat / 262144 % 8 + 240), UInt8.ofNat (c.toNat / 4096 % 64 + 128),
        UInt8.ofNat (c.toNat / 64 % 64 + 128), UInt8.ofNat (c.toNat % 64 + 128)] := rfl

/-- A number of eight bits is that of an octet if the octet is that of the number. -/
theorem ofNat_eq_iff {n : Nat} {b : UInt8} (h : n < 256) : UInt8.ofNat n = b ↔ n = b.toNat := by
  rw [← UInt8.toNat_inj, UInt8.toNat_ofNat_of_lt' h]

/-- The characters whose first octet is `b`, by how many octets follow it. -/
theorem utf8EncodeChar_eq_cons_iff {c : Char} {b : UInt8} {tl : List UInt8} : String.utf8EncodeChar c = b :: tl ↔
    (tl = [] ∧ b.toNat < 0x80 ∧ c.toNat = b.toNat) ∨
    (∃ x, tl = [x] ∧ 0xc2 ≤ b.toNat ∧ b.toNat ≤ 0xdf ∧ 0x80 ≤ x.toNat ∧ x.toNat ≤ 0xbf ∧
      c.toNat = (b.toNat - 0xc0) * 64 + (x.toNat - 0x80)) ∨
    (∃ x y, tl = [x, y] ∧ 0xe0 ≤ b.toNat ∧ b.toNat ≤ 0xef ∧ 0x80 ≤ x.toNat ∧ x.toNat ≤ 0xbf ∧
      (b.toNat = 0xe0 → 0xa0 ≤ x.toNat) ∧ (b.toNat = 0xed → x.toNat ≤ 0x9f) ∧ 0x80 ≤ y.toNat ∧ y.toNat ≤ 0xbf ∧
      c.toNat = ((b.toNat - 0xe0) * 64 + (x.toNat - 0x80)) * 64 + (y.toNat - 0x80)) ∨
    (∃ x y z, tl = [x, y, z] ∧ 0xf0 ≤ b.toNat ∧ b.toNat ≤ 0xf4 ∧ 0x80 ≤ x.toNat ∧ x.toNat ≤ 0xbf ∧
      (b.toNat = 0xf0 → 0x90 ≤ x.toNat) ∧ (b.toNat = 0xf4 → x.toNat ≤ 0x8f) ∧ 0x80 ≤ y.toNat ∧ y.toNat ≤ 0xbf ∧
      0x80 ≤ z.toNat ∧ z.toNat ≤ 0xbf ∧
      c.toNat = (((b.toNat - 0xf0) * 64 + (x.toNat - 0x80)) * 64 + (y.toNat - 0x80)) * 64 + (z.toNat - 0x80)) := by
  have hvalid := toNat_valid c
  have htail : ∀ n, (UInt8.ofNat (n % 64 + 128)).toNat = n % 64 + 128 := by
    intro n
    exact UInt8.toNat_ofNat_of_lt' (by simp only [UInt8.size]; omega)
  rw [utf8EncodeChar_eq]
  constructor
  · intro h
    split at h
    · rw [List.cons.injEq, ofNat_eq_iff (by omega)] at h
      obtain ⟨hb, rfl⟩ := h
      exact .inl ⟨rfl, by omega, hb⟩
    split at h
    · rw [List.cons.injEq, ofNat_eq_iff (by omega)] at h
      obtain ⟨hb, rfl⟩ := h
      refine .inr (.inl ⟨_, rfl, ?_⟩)
      rw [htail]
      omega
    split at h
    · rw [List.cons.injEq, ofNat_eq_iff (by omega)] at h
      obtain ⟨hb, rfl⟩ := h
      refine .inr (.inr (.inl ⟨_, _, rfl, ?_⟩))
      rw [htail, htail]
      omega
    · rw [List.cons.injEq, ofNat_eq_iff (by omega)] at h
      obtain ⟨hb, rfl⟩ := h
      refine .inr (.inr (.inr ⟨_, _, _, rfl, ?_⟩))
      rw [htail, htail, htail]
      omega
  · rintro (⟨rfl, h⟩ | ⟨x, rfl, h⟩ | ⟨x, y, rfl, h⟩ | ⟨x, y, z, rfl, h⟩)
    · rw [if_pos (by omega), List.cons.injEq, ofNat_eq_iff (by omega)]
      exact ⟨by omega, rfl⟩
    · rw [if_neg (by omega), if_pos (by omega)]
      simp only [List.cons.injEq, and_true]
      rw [ofNat_eq_iff (by omega), ofNat_eq_iff (by omega)]
      omega
    · rw [if_neg (by omega), if_neg (by omega), if_pos (by omega)]
      simp only [List.cons.injEq, and_true]
      rw [ofNat_eq_iff (by omega), ofNat_eq_iff (by omega), ofNat_eq_iff (by omega)]
      omega
    · rw [if_neg (by omega), if_neg (by omega), if_neg (by omega)]
      simp only [List.cons.injEq, and_true]
      rw [ofNat_eq_iff (by omega), ofNat_eq_iff (by omega), ofNat_eq_iff (by omega), ofNat_eq_iff (by omega)]
      omega

/-! ## What is pending -/

namespace Pending

/-- The octet may come next. -/
def Admits (p : Pending) (b : UInt8) : Prop := p.low ≤ b.toNat ∧ b.toNat ≤ p.high

instance (p : Pending) (b : UInt8) : Decidable (p.Admits b) := inferInstanceAs (Decidable (_ ∧ _))

/-- The bits with those of the octet behind them. -/
def bitsWith (p : Pending) (b : UInt8) : Nat := p.bits * 64 + (b.toNat - 0x80)

/-- What is pending behind an octet that does not complete the character. -/
def after (p : Pending) (b : UInt8) : Pending := ⟨p.bitsWith b, p.owed - 1, 0x80, 0xbf⟩

/-- The octets complete the pending character as `c`. -/
inductive Ends : Pending → List UInt8 → Char → Prop
  | last {p : Pending} {b : UInt8} {c : Char} (hb : p.Admits b) (howed : p.owed = 1)
    (hc : c = Char.ofNat (p.bitsWith b)) : Ends p [b] c
  | next {p : Pending} {b : UInt8} {tl : List UInt8} {c : Char} (hb : p.Admits b) (howed : p.owed ≠ 1)
    (h : Ends (p.after b) tl c) : Ends p (b :: tl) c

variable {p : Pending} {b : UInt8} {tl : List UInt8} {c : Char} {bits low high : Nat}

/-- Nothing ends where octets are owed. -/
theorem not_ends_nil : ¬p.Ends [] c := nofun

/-- The first octet of an end is admitted. -/
theorem Ends.admits (h : p.Ends (b :: tl) c) : p.Admits b := by
  cases h with
  | last hb _ _ => exact hb
  | next hb _ _ => exact hb

/-- The last octet that is owed completes the character. -/
theorem ends_cons_iff_of_owed_eq (hb : p.Admits b) (howed : p.owed = 1) :
    p.Ends (b :: tl) c ↔ tl = [] ∧ c = Char.ofNat (p.bitsWith b) := by
  constructor
  · intro h
    cases h with
    | last _ _ hc => exact ⟨rfl, hc⟩
    | next _ hne _ => exact absurd howed hne
  · rintro ⟨rfl, hc⟩
    exact .last hb howed hc

/-- Where more is owed, the octet leaves the others pending. -/
theorem ends_cons_iff_of_owed_ne (hb : p.Admits b) (howed : p.owed ≠ 1) :
    p.Ends (b :: tl) c ↔ (p.after b).Ends tl c := by
  constructor
  · intro h
    cases h with
    | last _ heq _ => exact absurd heq howed
    | next _ _ h => exact h
  · exact .next hb howed

/-- Where one octet is owed, one in the range ends the character. -/
theorem ends_one : Ends ⟨bits, 1, low, high⟩ tl c ↔
    ∃ x, tl = [x] ∧ low ≤ x.toNat ∧ x.toNat ≤ high ∧ c = Char.ofNat (bits * 64 + (x.toNat - 0x80)) := by
  cases tl with
  | nil => simp [not_ends_nil]
  | cons x tl =>
    constructor
    · intro h
      obtain ⟨rfl, hc⟩ := (ends_cons_iff_of_owed_eq h.admits rfl).mp h
      exact ⟨x, rfl, h.admits.1, h.admits.2, hc⟩
    · rintro ⟨x, heq, hlow, hhigh, hc⟩
      cases heq
      exact .last ⟨hlow, hhigh⟩ rfl hc

/-- Where more are owed, an octet in the range is followed by an end of what is owed then. -/
theorem ends_succ {n : Nat} : Ends ⟨bits, n + 2, low, high⟩ tl c ↔
    ∃ x tl', tl = x :: tl' ∧ low ≤ x.toNat ∧ x.toNat ≤ high ∧
      Ends ⟨bits * 64 + (x.toNat - 0x80), n + 1, 0x80, 0xbf⟩ tl' c := by
  have hne : n + 2 ≠ 1 := by omega
  cases tl with
  | nil => simp [not_ends_nil]
  | cons x tl =>
    constructor
    · intro h
      exact ⟨x, tl, rfl, h.admits.1, h.admits.2, (ends_cons_iff_of_owed_ne h.admits hne).mp h⟩
    · rintro ⟨x, tl, heq, hlow, hhigh, h⟩
      cases heq
      exact .next ⟨hlow, hhigh⟩ hne h

/-- Something may come next and the character is not complete. -/
structure Open (p : Pending) : Prop where
  owed_pos : 0 < p.owed
  low_le : p.low ≤ p.high
  high_lt : p.high < 256

/-- What is pending stays open behind an octet, unless that is the last one owed. -/
theorem Open.after (h : p.Open) (howed : p.owed ≠ 1) (b : UInt8) : (p.after b).Open where
  owed_pos := by
    have := h.owed_pos
    simp only [Pending.after]
    omega
  low_le := by simp only [Pending.after]; omega
  high_lt := by simp only [Pending.after]; omega

/-- Some octets complete what is pending: the induction is on how many are owed. -/
theorem Open.exists_ends {n : Nat} : ∀ {p : Pending}, p.Open → p.owed = n + 1 → ∃ tl c, p.Ends tl c := by
  have hleast : ∀ {p : Pending}, p.Open → p.Admits (UInt8.ofNat p.low) := by
    intro p h
    rw [Admits, UInt8.toNat_ofNat_of_lt' (Nat.lt_of_le_of_lt h.low_le h.high_lt)]
    exact ⟨Nat.le_refl _, h.low_le⟩
  induction n with
  | zero =>
    intro p h howed
    exact ⟨_, _, .last (hleast h) howed rfl⟩
  | succ n ih =>
    intro p h howed
    have hne : p.owed ≠ 1 := by omega
    obtain ⟨tl, c, hends⟩ := ih (h.after hne _) (by simp only [Pending.after]; omega)
    exact ⟨_, c, .next (hleast h) hne hends⟩

end Pending

/-- What is pending behind a first octet that is not the only one. -/
theorem lead_eq_some {b : Nat} {p : Pending} (h : lead b = some p) :
    (0xc2 ≤ b ∧ b ≤ 0xdf ∧ p = ⟨b - 0xc0, 1, 0x80, 0xbf⟩) ∨
    (∃ low high, 0xe0 ≤ b ∧ b ≤ 0xef ∧ p = ⟨b - 0xe0, 2, low, high⟩ ∧
      low = (if b = 0xe0 then 0xa0 else 0x80) ∧ high = if b = 0xed then 0x9f else 0xbf) ∨
    (∃ low high, 0xf0 ≤ b ∧ b ≤ 0xf4 ∧ p = ⟨b - 0xf0, 3, low, high⟩ ∧
      low = (if b = 0xf0 then 0x90 else 0x80) ∧ high = if b = 0xf4 then 0x8f else 0xbf) := by
  unfold lead at h
  split_ifs at h with h1 h2 h3 h4 h5 h6 h7
  · exact .inl ⟨h1.1, h1.2, (Option.some.inj h).symm⟩
  · subst h2
    exact .inr (.inl ⟨_, _, by omega, by omega, (Option.some.inj h).symm, rfl, rfl⟩)
  · subst h3
    exact .inr (.inl ⟨_, _, by omega, by omega, (Option.some.inj h).symm, rfl, rfl⟩)
  · exact .inr (.inl ⟨_, _, by omega, by omega, (Option.some.inj h).symm, (if_neg h2).symm, (if_neg h3).symm⟩)
  · subst h5
    exact .inr (.inr ⟨_, _, by omega, by omega, (Option.some.inj h).symm, rfl, rfl⟩)
  · exact .inr (.inr ⟨_, _, by omega, by omega, (Option.some.inj h).symm, (if_neg h5).symm, (if_neg (by omega)).symm⟩)
  · subst h7
    exact .inr (.inr ⟨_, _, by omega, by omega, (Option.some.inj h).symm, rfl, rfl⟩)

/-- Nothing is pending behind an octet that is the only one, or none, of a character. -/
theorem lead_eq_none {b : Nat} (h : lead b = none) : b < 0xc2 ∨ 0xf4 < b := by
  unfold lead at h
  split_ifs at h
  omega

/-- What is pending behind a first octet is open. -/
theorem open_of_lead {b : Nat} {p : Pending} (h : lead b = some p) : p.Open := by
  rcases lead_eq_some h with ⟨-, -, rfl⟩ | ⟨low, high, -, -, rfl, hlow, hhigh⟩ | ⟨low, high, -, -, rfl, hlow, hhigh⟩
  · exact ⟨Nat.one_pos, by dsimp only; omega, by dsimp only; omega⟩
  · exact ⟨Nat.two_pos, by dsimp only; split_ifs at hlow hhigh <;> omega, by dsimp only; split_ifs at hhigh <;> omega⟩
  · exact ⟨Nat.succ_pos 2, by dsimp only; split_ifs at hlow hhigh <;> omega, by dsimp only; split_ifs at hhigh <;> omega⟩

/-- Behind a first octet, what completes the pending character is what its encoding has there. -/
theorem utf8EncodeChar_eq_cons_iff_ends {b : UInt8} {p : Pending} (h : lead b.toNat = some p) {tl : List UInt8} {c : Char} :
    String.utf8EncodeChar c = b :: tl ↔ p.Ends tl c := by
  have hvalid := toNat_valid c
  rw [utf8EncodeChar_eq_cons_iff]
  rcases lead_eq_some h with ⟨hb, hb', rfl⟩ | ⟨low, high, hb, hb', rfl, hlow, hhigh⟩ | ⟨low, high, hb, hb', rfl, hlow, hhigh⟩
  · rw [Pending.ends_one]
    constructor
    · rintro (h | ⟨x, rfl, hx⟩ | ⟨x, y, -, hx⟩ | ⟨x, y, z, -, hx⟩)
      · omega
      · exact ⟨x, rfl, by omega, by omega, (eq_ofNat_iff (by omega)).mpr (by omega)⟩
      · omega
      · omega
    · rintro ⟨x, rfl, hx, hx', hc⟩
      rw [eq_ofNat_iff (by omega)] at hc
      exact .inr (.inl ⟨x, rfl, by omega⟩)
  · simp only [Pending.ends_succ, Nat.reduceAdd, Pending.ends_one]
    constructor
    · rintro (h | ⟨x, -, hx⟩ | ⟨x, y, rfl, hx⟩ | ⟨x, y, z, -, hx⟩)
      · omega
      · omega
      · refine ⟨x, _, rfl, ?_, ?_, y, rfl, by omega, by omega, (eq_ofNat_iff (by omega)).mpr (by omega)⟩
        · split_ifs at hlow <;> omega
        · split_ifs at hhigh <;> omega
      · omega
    · rintro ⟨x, _, rfl, hx, hx', y, rfl, hy, hy', hc⟩
      have hx0 : 0x80 ≤ x.toNat ∧ (b.toNat = 0xe0 → 0xa0 ≤ x.toNat) := by split_ifs at hlow <;> omega
      have hxd : x.toNat ≤ 0xbf ∧ (b.toNat = 0xed → x.toNat ≤ 0x9f) := by split_ifs at hhigh <;> omega
      rw [eq_ofNat_iff (by omega)] at hc
      exact .inr (.inr (.inl ⟨x, y, rfl, by omega⟩))
  · simp only [Pending.ends_succ, Nat.reduceAdd, Pending.ends_one]
    constructor
    · rintro (h | ⟨x, -, hx⟩ | ⟨x, y, -, hx⟩ | ⟨x, y, z, rfl, hx⟩)
      · omega
      · omega
      · omega
      · refine ⟨x, _, rfl, ?_, ?_, y, _, rfl, by omega, by omega, z, rfl, by omega, by omega,
          (eq_ofNat_iff (by omega)).mpr (by omega)⟩
        · split_ifs at hlow <;> omega
        · split_ifs at hhigh <;> omega
    · rintro ⟨x, _, rfl, hx, hx', y, _, rfl, hy, hy', z, rfl, hz, hz', hc⟩
      have hx0 : 0x80 ≤ x.toNat ∧ (b.toNat = 0xf0 → 0x90 ≤ x.toNat) := by split_ifs at hlow <;> omega
      have hx4 : x.toNat ≤ 0xbf ∧ (b.toNat = 0xf4 → x.toNat ≤ 0x8f) := by split_ifs at hhigh <;> omega
      rw [eq_ofNat_iff (by omega)] at hc
      exact .inr (.inr (.inr ⟨x, y, z, rfl, by omega⟩))

/-! ## Octets that begin a character -/

variable {octets pre piece rest : List UInt8} {b : UInt8} {p : Pending} {c : Char}

/-- The octets begin characters only, all of which what is pending behind them completes, and none of which is complete. -/
structure Begun (pre : List UInt8) (p : Pending) : Prop where
  nonempty : pre ≠ []
  isOpen : p.Open
  ends : ∀ tl c, String.utf8EncodeChar c = pre ++ tl ↔ p.Ends tl c
  notChar : ∀ c, ¬String.utf8EncodeChar c <+: pre

/-- A first octet begins a character. -/
theorem begun_of_lead (h : lead b.toNat = some p) : Begun [b] p where
  nonempty := List.cons_ne_nil b []
  isOpen := open_of_lead h
  ends _ _ := utf8EncodeChar_eq_cons_iff_ends h
  notChar c hc := by
    rcases List.prefix_cons_iff.mp hc with heq | ⟨l, heq, hl⟩
    · exact String.utf8EncodeChar_ne_nil heq
    · rw [List.prefix_nil.mp hl] at heq
      exact Pending.not_ends_nil ((utf8EncodeChar_eq_cons_iff_ends h).mp heq)

namespace Begun

/-- Octets with a character pending are the first ones of some character. -/
theorem begins (h : Begun pre p) : Begins pre := by
  have howed := h.isOpen.owed_pos
  obtain ⟨tl, c, hends⟩ := h.isOpen.exists_ends (n := p.owed - 1) (by omega)
  exact ⟨c, tl, ((h.ends tl c).mpr hends).symm⟩

/-- What goes on beginning a character is admitted. -/
theorem admits (h : Begun pre p) {tl : List UInt8} (hc : pre ++ b :: tl <+: String.utf8EncodeChar c) : p.Admits b := by
  obtain ⟨l, hl⟩ := hc
  rw [List.append_assoc, List.cons_append] at hl
  exact ((h.ends _ c).mp hl.symm).admits

/-- The last octet that is owed completes the octets of a character. -/
theorem complete (h : Begun pre p) (hb : p.Admits b) (howed : p.owed = 1) :
    String.utf8EncodeChar (Char.ofNat (p.bitsWith b)) = pre ++ [b] :=
  (h.ends [b] _).mpr (.last hb howed rfl)

/-- An octet that is admitted and is not the last goes on with the character. -/
theorem next (h : Begun pre p) (hb : p.Admits b) (howed : p.owed ≠ 1) : Begun (pre ++ [b]) (p.after b) where
  nonempty := by simp
  isOpen := h.isOpen.after howed b
  ends tl c := by
    rw [List.append_assoc, List.singleton_append, h.ends, Pending.ends_cons_iff_of_owed_ne hb howed]
  notChar c hc := by
    rcases List.prefix_concat_iff.mp hc with heq | hpre
    · exact Pending.not_ends_nil ((Pending.ends_cons_iff_of_owed_ne hb howed).mp ((h.ends [b] c).mp heq))
    · exact h.notChar c hpre

/-- What is pending before an octet that cannot go on, or before the end, is a broken piece. -/
theorem broken (h : Begun pre p) (hrest : ∀ b ∈ rest.head?, ¬p.Admits b) : Broken pre rest where
  nonempty := h.nonempty
  notChar c := by
    rintro ⟨t, ht⟩
    rcases List.append_eq_append_iff.mp ht with ⟨l, hpre, -⟩ | ⟨l, hc, hl⟩
    · exact h.notChar c ⟨l, hpre.symm⟩
    · cases l with
      | nil => exact Pending.not_ends_nil ((h.ends [] c).mp hc)
      | cons b l =>
        rw [hl] at hrest
        exact hrest b rfl ((h.ends _ c).mp hc).admits
  begins := .inl h.begins
  longest := by
    rintro _ ⟨l, rfl⟩ hlonger ⟨c, hc⟩
    cases l with
    | nil => rw [List.append_nil]
    | cons b l =>
      obtain ⟨t, rfl⟩ := (List.prefix_append_right_inj pre).mp hlonger
      exact absurd (h.admits hc) (hrest b rfl)

end Begun

/-- An octet that is neither a character nor begins one is a broken piece. -/
theorem broken_of_lead_eq_none (hascii : ¬b.toNat < 0x80) (hlead : lead b.toNat = none) : Broken [b] rest := by
  have hnone : ∀ c tl, String.utf8EncodeChar c ≠ b :: tl := by
    intro c tl hc
    have hrange := lead_eq_none hlead
    rcases utf8EncodeChar_eq_cons_iff.mp hc with h | ⟨x, h⟩ | ⟨x, y, h⟩ | ⟨x, y, z, h⟩ <;> omega
  refine ⟨List.cons_ne_nil b [], fun c hc => ?_, .inr rfl, ?_⟩
  · rcases List.prefix_cons_iff.mp hc with heq | ⟨l, heq, -⟩
    · exact String.utf8EncodeChar_ne_nil heq
    · exact hnone c l heq
  · rintro _ ⟨l, rfl⟩ - ⟨c, t, hc⟩
    exact absurd hc.symm (hnone c _)

/-! ## The decomposition -/

/-- With a character pending an octet completes it, goes on with it or breaks it off. -/
theorem step_some (p : Pending) (b : UInt8) : step (some p) b.toNat =
    if p.Admits b then if p.owed = 1 then ([.char (Char.ofNat (p.bitsWith b))], none) else ([], some (p.after b))
    else (.invalid :: (start b.toNat).1, (start b.toNat).2) := rfl

/-- The items are those of the octets, with what is pending in front of them if something is. -/
theorem decodes_items (octets : List UInt8) :
    Decodes octets (items none octets) ∧ ∀ pre p, Begun pre p → Decodes (pre ++ octets) (items (some p) octets) := by
  induction octets with
  | nil =>
    refine ⟨.nil, fun pre p h => ?_⟩
    exact .invalid (h.broken nofun) .nil
  | cons b octets ih =>
    obtain ⟨hnone, hsome⟩ := ih
    have hstart : Decodes (b :: octets) (items none (b :: octets)) := by
      rw [items, step, start]
      split
      · next hascii =>
        have hchar : String.utf8EncodeChar (Char.ofNat b.toNat) = [b] := by
          have hc : (Char.ofNat b.toNat).toNat = b.toNat := (eq_ofNat_iff (by omega)).mp rfl
          rw [utf8EncodeChar_eq_cons_iff]
          exact .inl ⟨rfl, hascii, hc⟩
        have hdecodes := Decodes.char (Char.ofNat b.toNat) hnone
        rwa [hchar] at hdecodes
      · next hascii =>
        split
        · next p hlead => exact hsome [b] p (begun_of_lead hlead)
        · next hlead => exact .invalid (broken_of_lead_eq_none hascii hlead) hnone
    refine ⟨hstart, fun pre p h => ?_⟩
    rw [items, step_some]
    by_cases hb : p.Admits b
    · by_cases howed : p.owed = 1
      · rw [if_pos hb, if_pos howed]
        have hdecodes := Decodes.char (Char.ofNat (p.bitsWith b)) hnone
        rwa [h.complete hb howed, List.append_assoc] at hdecodes
      · rw [if_pos hb, if_neg howed]
        have hdecodes := hsome _ _ (h.next hb howed)
        rwa [List.append_assoc] at hdecodes
    · rw [if_neg hb]
      have hbroken : Broken pre (b :: octets) := h.broken fun x hx => by
        cases hx
        exact hb
      exact .invalid hbroken hstart

/-- The octets that complete what is pending yield the character. -/
theorem items_of_ends {tl : List UInt8} (h : p.Ends tl c) (rest : List UInt8) :
    items (some p) (tl ++ rest) = .char c :: items none rest := by
  induction h with
  | last hb howed hc =>
    rw [List.singleton_append, items, step_some, if_pos hb, if_pos howed, hc]
    rfl
  | next hb howed _ ih =>
    rw [List.cons_append, items, step_some, if_pos hb, if_neg howed]
    exact ih

/-- The octets of a character are decoded to it, whatever is behind them. -/
theorem items_utf8EncodeChar_append (c : Char) (rest : List UInt8) :
    items none (String.utf8EncodeChar c ++ rest) = .char c :: items none rest := by
  obtain ⟨b, tl, hc⟩ := List.exists_cons_of_ne_nil (String.utf8EncodeChar_ne_nil (c := c))
  have hcases := utf8EncodeChar_eq_cons_iff.mp hc
  rw [hc, List.cons_append, items, step, start]
  split
  · next hascii =>
    rcases hcases with ⟨rfl, -, hb⟩ | ⟨x, -, h⟩ | ⟨x, y, -, h⟩ | ⟨x, y, z, -, h⟩
    · rw [← hb, Char.ofNat_toNat]
      rfl
    · omega
    · omega
    · omega
  · next hascii =>
    cases hlead : lead b.toNat with
    | some p => exact items_of_ends ((utf8EncodeChar_eq_cons_iff_ends hlead).mp hc) rest
    | none =>
      have hrange := lead_eq_none hlead
      rcases hcases with ⟨-, h⟩ | ⟨x, -, h⟩ | ⟨x, y, -, h⟩ | ⟨x, y, z, -, h⟩ <;> omega

/-- No encoding of a character begins that of another. -/
theorem eq_of_utf8EncodeChar_append_eq {d : Char} {rest' : List UInt8}
    (h : String.utf8EncodeChar c ++ rest = String.utf8EncodeChar d ++ rest') : c = d ∧ rest = rest' := by
  have hitems : items none (String.utf8EncodeChar c ++ rest) = items none (String.utf8EncodeChar d ++ rest') := by rw [h]
  rw [items_utf8EncodeChar_append, items_utf8EncodeChar_append, List.cons.injEq, Item.char.injEq] at hitems
  obtain ⟨rfl, -⟩ := hitems
  exact ⟨rfl, List.append_cancel_left h⟩

/-- Of two broken pieces in one place neither is longer. -/
theorem Broken.eq_of_prefix {piece' rest' : List UInt8} (h : Broken piece rest) (h' : Broken piece' rest')
    (hoctets : piece ++ rest = piece' ++ rest') (hpre : piece <+: piece') : piece = piece' := by
  rcases h'.begins with hbegins | hone
  · exact (h.longest piece' hpre (hoctets ▸ List.prefix_append piece' rest') hbegins).symm
  · have hpos := List.length_pos_iff.mpr h.nonempty
    exact hpre.eq_of_length_le (by omega)

/-- There is one longest broken piece. -/
theorem Broken.unique {piece' rest' : List UInt8} (h : Broken piece rest) (h' : Broken piece' rest')
    (hoctets : piece ++ rest = piece' ++ rest') : piece = piece' := by
  rcases List.append_eq_append_iff.mp hoctets with ⟨l, hl, -⟩ | ⟨l, hl, -⟩
  · exact h.eq_of_prefix h' hoctets ⟨l, hl.symm⟩
  · exact (h'.eq_of_prefix h hoctets.symm ⟨l, hl.symm⟩).symm

/-- There is one decomposition only. -/
theorem Decodes.unique {is js : List Item} (h : Decodes octets is) (h' : Decodes octets js) : is = js := by
  induction h generalizing js with
  | nil =>
    generalize hoctets : ([] : List UInt8) = octets at h'
    cases h' with
    | nil => rfl
    | char c _ => exact absurd (List.append_eq_nil_iff.mp hoctets.symm).1 String.utf8EncodeChar_ne_nil
    | invalid hpiece _ => exact absurd (List.append_eq_nil_iff.mp hoctets.symm).1 hpiece.nonempty
  | @char c rest is _ ih =>
    generalize hoctets : String.utf8EncodeChar c ++ rest = octets at h'
    cases h' with
    | nil => exact absurd (List.append_eq_nil_iff.mp hoctets).1 String.utf8EncodeChar_ne_nil
    | char d h' =>
      obtain ⟨rfl, rfl⟩ := eq_of_utf8EncodeChar_append_eq hoctets
      rw [ih h']
    | invalid hpiece _ => exact absurd ⟨rest, hoctets⟩ (hpiece.notChar c)
  | @invalid piece rest is hpiece _ ih =>
    generalize hoctets : piece ++ rest = octets at h'
    cases h' with
    | nil => exact absurd (List.append_eq_nil_iff.mp hoctets).1 hpiece.nonempty
    | char d _ => exact absurd ⟨_, hoctets.symm⟩ (hpiece.notChar d)
    | invalid hpiece' h' =>
      obtain rfl := hpiece.unique hpiece' hoctets
      obtain rfl := List.append_cancel_left hoctets
      rw [ih h']

/-- The decoder finds the decomposition. -/
theorem decodes_iff {is : List Item} : Decodes octets is ↔ is = items none octets := by
  constructor
  · exact fun h => h.unique (decodes_items octets).1
  · rintro rfl
    exact (decodes_items octets).1

/-! ## What is the encoding of a text -/

/-- Without a broken piece the octets are those of the characters. -/
theorem Decodes.exists_chars {is : List Item} (h : Decodes octets is) (hvalid : .invalid ∉ is) :
    ∃ cs : List Char, octets = cs.flatMap String.utf8EncodeChar := by
  induction h with
  | nil => exact ⟨[], rfl⟩
  | char c _ ih =>
    obtain ⟨cs, rfl⟩ := ih fun hi => hvalid (List.mem_cons_of_mem _ hi)
    exact ⟨c :: cs, rfl⟩
  | invalid _ _ _ => exact absurd List.mem_cons_self hvalid

/-- The octets of a text are decoded to its characters. -/
theorem items_encode (s : String) : items none (encode s) = s.toList.map .char := by
  rw [encode]
  induction s.toList with
  | nil => rfl
  | cons c cs ih => rw [List.flatMap_cons, items_utf8EncodeChar_append, ih, List.map_cons]

/-- Octets are no encoding of a text just where they have a broken piece. -/
theorem invalid_mem_items_iff : .invalid ∈ items none octets ↔ ∀ s, octets ≠ encode s := by
  constructor
  · rintro hi s rfl
    rw [items_encode] at hi
    obtain ⟨c, -, hc⟩ := List.mem_map.mp hi
    cases hc
  · intro h
    by_contra hi
    obtain ⟨cs, hcs⟩ := (decodes_items octets).1.exists_chars hi
    exact h (String.ofList cs) (by rw [encode, String.toList_ofList, hcs])

/-- What octets are decoded to is a text with a replacement for each broken piece. -/
theorem decodeLossy_of_decodes {is : List Item} (h : Decodes octets is) :
    decodeLossy octets = String.ofList (is.map Item.charOrReplacement) := by
  rw [decodeLossy, decodes_iff.mp h]

/-- Something is decoded to something. -/
theorem Decodes.ne_nil {is : List Item} (h : Decodes octets is) (hne : octets ≠ []) : is ≠ [] := by
  cases h with
  | nil => exact absurd rfl hne
  | char c _ => exact List.cons_ne_nil _ _
  | invalid _ _ => exact List.cons_ne_nil _ _

/-- Octets are decoded to a text that is not empty. -/
theorem decodeLossy_ne_empty (h : octets ≠ []) : decodeLossy octets ≠ "" := by
  have hitems := (decodes_items octets).1.ne_nil h
  rw [decodeLossy, Ne, String.ofList_eq_empty_iff, List.map_eq_nil_iff]
  exact hitems

/-- What is the encoding of a text is decoded to it. -/
@[simp] theorem decodeLossy_encode (s : String) : decodeLossy (encode s) = s := by
  have hchars : Item.charOrReplacement ∘ Item.char = id := rfl
  rw [decodeLossy, items_encode, List.map_map, hchars, List.map_id, String.ofList_toList]

end WorkflowAugment.Text.Utf8
