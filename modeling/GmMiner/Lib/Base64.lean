import Mathlib.Data.List.DropRight

/-!
Base 64 over any alphabet: a letter's value is below 64. Four letters are three bytes; of two or
three letters at the end the bits beyond the last byte are zero. With padding, the letters that are
missing to four are all written.
-/

namespace GmMiner.Lib.Base64

universe u

variable {α : Type u} (valueOf : α → Option Nat) (letterOf : Nat → α)

def encode : List UInt8 → List α
  | [] => []
  | [a] => [letterOf (a.toNat / 4), letterOf (a.toNat % 4 * 16)]
  | [a, b] =>
      [letterOf (a.toNat / 4), letterOf (a.toNat % 4 * 16 + b.toNat / 16),
        letterOf (b.toNat % 16 * 4)]
  | a :: b :: c :: rest =>
      letterOf (a.toNat / 4) :: letterOf (a.toNat % 4 * 16 + b.toNat / 16) ::
        letterOf (b.toNat % 16 * 4 + c.toNat / 64) :: letterOf (c.toNat % 64) :: encode rest

def decode : List α → Option (List UInt8)
  | [] => some []
  | [_] => none
  | [a, b] => do
      let x ← valueOf a
      let y ← valueOf b
      if y % 16 = 0 then some [.ofNat (x * 4 + y / 16)] else none
  | [a, b, c] => do
      let x ← valueOf a
      let y ← valueOf b
      let z ← valueOf c
      if z % 4 = 0 then some [.ofNat (x * 4 + y / 16), .ofNat (y % 16 * 16 + z / 4)] else none
  | a :: b :: c :: d :: rest => do
      let x ← valueOf a
      let y ← valueOf b
      let z ← valueOf c
      let w ← valueOf d
      let bytes ← decode rest
      some (.ofNat (x * 4 + y / 16) :: .ofNat (y % 16 * 16 + z / 4) :: .ofNat (z % 4 * 64 + w) ::
        bytes)

/-- What decodes is written in the alphabet. -/
theorem letters_of_decode {text : List α} {bytes : List UInt8}
    (decoded : decode valueOf text = some bytes) : ∀ c ∈ text, (valueOf c).isSome = true := by
  fun_induction decode valueOf text generalizing bytes with
  | case1 => exact nofun
  | case2 => cases decoded
  | case3 a b =>
      obtain ⟨x, ofA, decoded⟩ := Option.bind_eq_some_iff.mp decoded
      obtain ⟨y, ofB, -⟩ := Option.bind_eq_some_iff.mp decoded
      simp [ofA, ofB]
  | case4 a b c =>
      obtain ⟨x, ofA, decoded⟩ := Option.bind_eq_some_iff.mp decoded
      obtain ⟨y, ofB, decoded⟩ := Option.bind_eq_some_iff.mp decoded
      obtain ⟨z, ofC, -⟩ := Option.bind_eq_some_iff.mp decoded
      simp [ofA, ofB, ofC]
  | case5 a b c d rest ih =>
      obtain ⟨x, ofA, decoded⟩ := Option.bind_eq_some_iff.mp decoded
      obtain ⟨y, ofB, decoded⟩ := Option.bind_eq_some_iff.mp decoded
      obtain ⟨z, ofC, decoded⟩ := Option.bind_eq_some_iff.mp decoded
      obtain ⟨w, ofD, decoded⟩ := Option.bind_eq_some_iff.mp decoded
      obtain ⟨later, ofRest, -⟩ := Option.bind_eq_some_iff.mp decoded
      simpa [ofA, ofB, ofC, ofD] using ih ofRest

/-- A byte is read back from its number. -/
theorem ofNat_eq {n : Nat} {b : UInt8} (same : n = b.toNat) : UInt8.ofNat n = b := by
  rw [same, UInt8.ofNat_toNat]

/-- Bytes are read back as they were written. -/
theorem decode_encode {valueOf : α → Option Nat} {letterOf : Nat → α}
    (inverse : ∀ n < 64, valueOf (letterOf n) = some n) (bytes : List UInt8) :
    decode valueOf (encode letterOf bytes) = some bytes := by
  fun_induction encode letterOf bytes with
  | case1 => rfl
  | case2 a =>
      have small := a.toNat_lt
      have first := ofNat_eq (n := a.toNat / 4 * 4 + a.toNat % 4 * 16 / 16) (b := a) (by omega)
      rw [decode, inverse _ (by omega), inverse _ (by omega)]
      simp only [Option.bind_eq_bind, Option.bind_some]
      rw [if_pos (by omega), first]
  | case3 a b =>
      have small := a.toNat_lt
      have small' := b.toNat_lt
      have first := ofNat_eq (n := a.toNat / 4 * 4 + (a.toNat % 4 * 16 + b.toNat / 16) / 16)
        (b := a) (by omega)
      have second := ofNat_eq
        (n := (a.toNat % 4 * 16 + b.toNat / 16) % 16 * 16 + b.toNat % 16 * 4 / 4) (b := b)
        (by omega)
      rw [decode, inverse _ (by omega), inverse _ (by omega), inverse _ (by omega)]
      simp only [Option.bind_eq_bind, Option.bind_some]
      rw [if_pos (by omega), first, second]
  -- Three bytes are four letters; the others are the two ways a last group is short.
  | case4 a b c rest ih =>
      have small := a.toNat_lt
      have small' := b.toNat_lt
      have small'' := c.toNat_lt
      have first := ofNat_eq (n := a.toNat / 4 * 4 + (a.toNat % 4 * 16 + b.toNat / 16) / 16)
        (b := a) (by omega)
      have second := ofNat_eq (n := (a.toNat % 4 * 16 + b.toNat / 16) % 16 * 16 +
        (b.toNat % 16 * 4 + c.toNat / 64) / 4) (b := b) (by omega)
      have third := ofNat_eq
        (n := (b.toNat % 16 * 4 + c.toNat / 64) % 4 * 64 + c.toNat % 64) (b := c) (by omega)
      rw [decode, inverse _ (by omega), inverse _ (by omega), inverse _ (by omega),
        inverse _ (by omega), ih]
      simp only [Option.bind_eq_bind, Option.bind_some]
      rw [first, second, third]

/-! ### With padding -/

section Padded

variable [DecidableEq α] (pad : α)

/-- How many letters are missing to a multiple of four. -/
def missing (letters : List α) : Nat := (4 - letters.length % 4) % 4

def encodePadded (bytes : List UInt8) : List α :=
  encode letterOf bytes ++ List.replicate (missing (encode letterOf bytes)) pad

def decodePadded (text : List α) : Option (List UInt8) :=
  let letters := text.rdropWhile (· = pad)
  if text.length = letters.length + missing letters then decode valueOf letters else none

/-- Dropping the padding from the end leaves the letters, none of which is a pad. -/
theorem rdropWhile_padded {pad : α} {letters : List α} (apart : pad ∉ letters) (n : Nat) :
    (letters ++ List.replicate n pad).rdropWhile (· = pad) = letters := by
  induction n with
  | zero =>
      rw [List.replicate_zero, List.append_nil, List.rdropWhile_eq_self_iff]
      intro some_ isPad
      exact apart (of_decide_eq_true isPad ▸ List.getLast_mem some_)
  | succ n ih =>
      rw [List.replicate_succ', ← List.append_assoc, List.rdropWhile_concat_pos _ _ _ (by simp), ih]

/-- Bytes are read back as they were written, padding and all. -/
theorem decodePadded_encodePadded {valueOf : α → Option Nat} {letterOf : Nat → α} {pad : α}
    (inverse : ∀ n < 64, valueOf (letterOf n) = some n) (noLetter : valueOf pad = none)
    (bytes : List UInt8) :
    decodePadded valueOf pad (encodePadded letterOf pad bytes) = some bytes := by
  have decoded := decode_encode inverse bytes
  have apart : pad ∉ encode letterOf bytes := by
    intro mem
    have letter := letters_of_decode valueOf decoded pad mem
    rw [noLetter] at letter
    cases letter
  unfold decodePadded encodePadded
  rw [rdropWhile_padded apart, if_pos (by simp)]
  exact decoded

end Padded

end GmMiner.Lib.Base64
