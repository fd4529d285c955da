import Mathlib.Data.List.Basic

/-!
# UTF-8

`encode` writes characters as octets. `decode` is lenient, and a state machine: an octet that does not continue a
character ends it with a replacement character, and begins the next.

* `decode_encode` — what was written is read back.
-/
namespace Text.Utf8

def encodeChar (c : Char) : List Nat :=
  let n := c.toNat
  if n < 0x80 then [n]
  else if n < 0x800 then [0xc0 + n / 64, 0x80 + n % 64]
  else if n < 0x10000 then [0xe0 + n / 4096, 0x80 + n / 64 % 64, 0x80 + n % 64]
  else [0xf0 + n / 262144, 0x80 + n / 4096 % 64, 0x80 + n / 64 % 64, 0x80 + n % 64]

def encode (cs : List Char) : List Nat := cs.flatMap encodeChar

/-- A character that is not complete: how many octets it needs yet, what the next one may be, and its bits so far. -/
structure Pending where
  needed : Nat
  lower : Nat := 0x80
  upper : Nat := 0xbf
  bits : Nat

/-- What the first octet of several begins. -/
def lead? (b : Nat) : Option Pending :=
  if 0xc2 ≤ b ∧ b ≤ 0xdf then some { needed := 1, bits := b - 0xc0 }
  else if b = 0xe0 then some { needed := 2, lower := 0xa0, bits := 0 }
  else if b = 0xed then some { needed := 2, upper := 0x9f, bits := 0xd }
  else if 0xe1 ≤ b ∧ b ≤ 0xef then some { needed := 2, bits := b - 0xe0 }
  else if b = 0xf0 then some { needed := 3, lower := 0x90, bits := 0 }
  else if b = 0xf4 then some { needed := 3, upper := 0x8f, bits := 4 }
  else if 0xf1 ≤ b ∧ b ≤ 0xf3 then some { needed := 3, bits := b - 0xf0 }
  else none

def replacement : Char := Char.ofNat 0xfffd

/-- An octet between characters: what it completes and what it begins. -/
def first (b : Nat) : List Char × Option Pending :=
  if b < 0x80 then ([Char.ofNat b], none)
  else match lead? b with
    | some p => ([], some p)
    | none => ([replacement], none)

/-- An octet within a character. -/
def next (p : Pending) (b : Nat) : List Char × Option Pending :=
  if p.lower ≤ b ∧ b ≤ p.upper then
    let bits := p.bits * 64 + (b - 0x80)
    if p.needed ≤ 1 then ([Char.ofNat bits], none) else ([], some { needed := p.needed - 1, bits })
  else
    let (cs, p) := first b
    (replacement :: cs, p)

def decodeFrom : Option Pending → List Nat → List Char
  | none, [] => []
  | some _, [] => [replacement]
  | none, b :: bs => (first b).1 ++ decodeFrom (first b).2 bs
  | some p, b :: bs => (next p b).1 ++ decodeFrom (next p b).2 bs

def decode (bs : List Nat) : List Char := decodeFrom none bs

/-- No character is a surrogate. -/
theorem toNat_range (c : Char) : c.toNat < 0xd800 ∨ 0xdfff < c.toNat ∧ c.toNat < 0x110000 := c.valid

theorem encodeChar_lt {c : Char} {b : Nat} (hb : b ∈ encodeChar c) : b < 256 := by
  have hrange := toNat_range c
  unfold encodeChar at hb
  dsimp only at hb
  split_ifs at hb <;> simp only [List.mem_cons, List.not_mem_nil, or_false] at hb <;> omega

theorem encode_lt {cs : List Char} {b : Nat} (hb : b ∈ encode cs) : b < 256 := by
  obtain ⟨c, -, hb⟩ := List.mem_flatMap.1 hb
  exact encodeChar_lt hb

section
variable {p : Pending} {b : Nat} (bs : List Nat)

/-- An octet that continues a character. -/
theorem decodeFrom_next (hlower : p.lower ≤ b) (hupper : b ≤ p.upper) (hmore : 1 < p.needed) :
    decodeFrom (some p) (b :: bs) =
      decodeFrom (some { needed := p.needed - 1, bits := p.bits * 64 + (b - 0x80) }) bs := by
  rw [decodeFrom, next, if_pos ⟨hlower, hupper⟩, if_neg (by omega)]
  rfl

/-- The last octet of a character. -/
theorem decodeFrom_last (hlower : p.lower ≤ b) (hupper : b ≤ p.upper) (hlast : p.needed = 1) :
    decodeFrom (some p) (b :: bs) = Char.ofNat (p.bits * 64 + (b - 0x80)) :: decodeFrom none bs := by
  rw [decodeFrom, next, if_pos ⟨hlower, hupper⟩, if_pos (by omega)]
  rfl

theorem decodeFrom_lead (hb : 0x80 ≤ b) (hlead : lead? b = some p) :
    decodeFrom none (b :: bs) = decodeFrom (some p) bs := by
  rw [decodeFrom, first, if_neg (by omega), hlead]
  rfl

end

/-- What follows a first octet of three, of which the last twelve bits are `n`. -/
theorem lead?_three {n : Nat} (hlower : 0x800 ≤ n) (hupper : n < 0x10000) (hrange : n < 0xd800 ∨ 0xdfff < n) :
    ∃ p, lead? (0xe0 + n / 4096) = some p ∧ p.needed = 2 ∧ p.bits = n / 4096 ∧
      p.lower ≤ 0x80 + n / 64 % 64 ∧ 0x80 + n / 64 % 64 ≤ p.upper := by
  unfold lead?
  split_ifs with h1 h2 h3 h4 h5 h6 h7
  · omega
  · exact ⟨_, rfl, rfl, by dsimp only; omega, by dsimp only; omega, by dsimp only; omega⟩
  · exact ⟨_, rfl, rfl, by dsimp only; omega, by dsimp only; omega, by dsimp only; omega⟩
  · exact ⟨_, rfl, rfl, by dsimp only; omega, by dsimp only; omega, by dsimp only; omega⟩
  · omega
  · omega
  · omega
  · omega

theorem lead?_four {n : Nat} (hlower : 0x10000 ≤ n) (hupper : n < 0x110000) :
    ∃ p, lead? (0xf0 + n / 262144) = some p ∧ p.needed = 3 ∧ p.bits = n / 262144 ∧
      p.lower ≤ 0x80 + n / 4096 % 64 ∧ 0x80 + n / 4096 % 64 ≤ p.upper := by
  unfold lead?
  split_ifs with h1 h2 h3 h4 h5 h6 h7
  · omega
  · omega
  · omega
  · omega
  · exact ⟨_, rfl, rfl, by dsimp only; omega, by dsimp only; omega, by dsimp only; omega⟩
  · exact ⟨_, rfl, rfl, by dsimp only; omega, by dsimp only; omega, by dsimp only; omega⟩
  · exact ⟨_, rfl, rfl, by dsimp only; omega, by dsimp only; omega, by dsimp only; omega⟩
  · omega

theorem decodeFrom_encodeChar (c : Char) (bs : List Nat) :
    decodeFrom none (encodeChar c ++ bs) = c :: decodeFrom none bs := by
  have hrange := toNat_range c
  have hchar : Char.ofNat c.toNat = c := Char.ofNat_toNat c
  unfold encodeChar
  dsimp only
  split_ifs with hone htwo hthree
  · rw [List.singleton_append, decodeFrom, first, if_pos hone, hchar]
    rfl
  · have hlead : lead? (0xc0 + c.toNat / 64) = some { needed := 1, bits := c.toNat / 64 } := by
      rw [lead?, if_pos (by omega), Nat.add_sub_cancel_left]
    simp only [List.cons_append, List.nil_append]
    rw [decodeFrom_lead _ (by omega) hlead, decodeFrom_last _ (by dsimp only; omega) (by dsimp only; omega) rfl]
    have hbits : c.toNat / 64 * 64 + (0x80 + c.toNat % 64 - 0x80) = c.toNat := by omega
    rw [hbits, hchar]
  · obtain ⟨p, hlead, hneeded, hbits, hlower, hupper⟩ := lead?_three (n := c.toNat) (by omega) (by omega) (by omega)
    simp only [List.cons_append, List.nil_append]
    rw [decodeFrom_lead _ (by omega) hlead, decodeFrom_next _ hlower hupper (by omega),
      decodeFrom_last _ (by dsimp only; omega) (by dsimp only; omega) (by dsimp only; omega)]
    have hall : (p.bits * 64 + (0x80 + c.toNat / 64 % 64 - 0x80)) * 64 + (0x80 + c.toNat % 64 - 0x80) = c.toNat := by
      omega
    rw [hall, hchar]
  · obtain ⟨p, hlead, hneeded, hbits, hlower, hupper⟩ := lead?_four (n := c.toNat) (by omega) (by omega)
    simp only [List.cons_append, List.nil_append]
    rw [decodeFrom_lead _ (by omega) hlead, decodeFrom_next _ hlower hupper (by omega),
      decodeFrom_next _ (by dsimp only; omega) (by dsimp only; omega) (by dsimp only; omega),
      decodeFrom_last _ (by dsimp only; omega) (by dsimp only; omega) (by dsimp only; omega)]
    have hall : ((p.bits * 64 + (0x80 + c.toNat / 4096 % 64 - 0x80)) * 64 + (0x80 + c.toNat / 64 % 64 - 0x80)) * 64 +
        (0x80 + c.toNat % 64 - 0x80) = c.toNat := by
      omega
    rw [hall, hchar]

theorem decode_encode (cs : List Char) : decode (encode cs) = cs := by
  unfold decode encode
  induction cs with
  | nil => rfl
  | cons c cs ih => rw [List.flatMap_cons, decodeFrom_encodeChar, ih]

end Text.Utf8
