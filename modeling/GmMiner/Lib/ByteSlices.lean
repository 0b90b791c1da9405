import Mathlib

/-!
Slices of a text at byte offsets of its UTF-8 code.

A text is the list of its characters. It is cut at an offset only between two characters
(`splitBytes_eq_some`): anywhere else Rust's `str::get` gives nothing, and its index panics.
-/

namespace GmMiner.Lib.ByteSlices

def byteLength (text : List Char) : Nat := (text.map Char.utf8Size).sum

/-- The text before a byte offset and the text from there on. -/
def splitBytes : List Char → Nat → Option (List Char × List Char)
  | [], offset => if offset = 0 then some ([], []) else none
  | c :: text, offset =>
      if offset = 0 then some ([], c :: text)
      else if c.utf8Size ≤ offset then
        (splitBytes text (offset - c.utf8Size)).map fun parts => (c :: parts.1, parts.2)
      else none

/-- `str::is_char_boundary`. -/
def isCharBoundary (text : List Char) (offset : Nat) : Bool := (splitBytes text offset).isSome

/-- `str::get` of a range that starts at an offset and is so many bytes long. -/
def window (text : List Char) (start length : Nat) : Option (List Char) := do
  let (_, rest) ← splitBytes text start
  let (chunk, _) ← splitBytes rest length
  return chunk

@[simp] theorem byteLength_nil : byteLength [] = 0 := rfl

@[simp] theorem byteLength_cons (c : Char) (text : List Char) :
    byteLength (c :: text) = c.utf8Size + byteLength text := by
  simp [byteLength]

@[simp] theorem byteLength_append (text other : List Char) :
    byteLength (text ++ other) = byteLength text + byteLength other := by
  simp [byteLength]

theorem splitBytes_zero (text : List Char) : splitBytes text 0 = some ([], text) := by
  cases text <;> rfl

theorem splitBytes_cons (c : Char) (text : List Char) (offset : Nat) :
    splitBytes (c :: text) (c.utf8Size + offset) =
      (splitBytes text offset).map fun parts => (c :: parts.1, parts.2) := by
  have size := c.utf8Size_pos
  rw [splitBytes, if_neg (by omega), if_pos (Nat.le_add_right _ _), Nat.add_sub_cancel_left]

/-- A text is cut at an offset if and only if one of its parts takes that many bytes. -/
theorem splitBytes_eq_some {text before after : List Char} {offset : Nat} :
    splitBytes text offset = some (before, after) ↔
      text = before ++ after ∧ byteLength before = offset := by
  constructor
  · intro cut
    induction text generalizing offset before with
    | nil =>
        rw [splitBytes] at cut
        split at cut
        · rename_i zero
          cases cut
          exact ⟨rfl, zero.symm⟩
        · cases cut
    | cons c text ih =>
        rw [splitBytes] at cut
        split at cut
        · rename_i zero
          cases cut
          exact ⟨rfl, zero.symm⟩
        · split at cut
          · -- Past this character: a cut inside of one is none at all.
            rename_i inside
            obtain ⟨⟨front, back⟩, later, same⟩ := Option.map_eq_some_iff.mp cut
            cases same
            obtain ⟨shape, bytes⟩ := ih later
            exact ⟨congrArg (c :: ·) shape, by rw [byteLength_cons, bytes]; omega⟩
          · cases cut
  · rintro ⟨rfl, rfl⟩
    induction before with
    | nil => exact splitBytes_zero after
    | cons c before ih => rw [List.cons_append, byteLength_cons, splitBytes_cons, ih]; rfl

/-- A split at the length of the first part returns both parts. -/
theorem splitBytes_append (before after : List Char) :
    splitBytes (before ++ after) (byteLength before) = some (before, after) :=
  splitBytes_eq_some.mpr ⟨rfl, rfl⟩

/-- A window that begins past a character does not see it. -/
theorem window_cons (c : Char) (text : List Char) (start length : Nat) :
    window (c :: text) (c.utf8Size + start) length = window text start length := by
  unfold window
  rw [splitBytes_cons]
  cases splitBytes text start <;> rfl

/-- A window at the start is the first part of a split. -/
theorem window_zero (text : List Char) (length : Nat) :
    window text 0 length = (splitBytes text length).map Prod.fst := by
  unfold window
  rw [splitBytes_zero]
  change ((splitBytes text length).bind fun parts => some parts.1) = _
  cases splitBytes text length <;> rfl

/-- Where characters start. -/
def starts (text : List Char) : List Nat :=
  (List.range (byteLength text)).filter (isCharBoundary text)

/-- The boundaries past a character are those of the rest, moved by its size. -/
theorem isCharBoundary_cons (c : Char) (text : List Char) (offset : Nat) :
    isCharBoundary (c :: text) (c.utf8Size + offset) = isCharBoundary text offset := by
  rw [isCharBoundary, isCharBoundary, splitBytes_cons, Option.isSome_map]

/-- Characters start where the text does and, moved by the first one's size, where
the rest's do. -/
theorem starts_cons (c : Char) (text : List Char) :
    starts (c :: text) = 0 :: (starts text).map (c.utf8Size + ·) := by
  have size := c.utf8Size_pos
  have inner : ∀ offset ∈ List.range c.utf8Size,
      isCharBoundary (c :: text) offset = decide (offset = 0) := by
    intro offset mem
    have below := List.mem_range.mp mem
    by_cases zero : offset = 0
    · rw [zero]
      rfl
    · rw [isCharBoundary, splitBytes, if_neg zero, if_neg (by omega), decide_eq_false zero]
      rfl
  have first : (List.range c.utf8Size).filter (isCharBoundary (c :: text)) = [0] := by
    obtain ⟨n, same⟩ := Nat.exists_eq_add_of_lt size
    rw [List.filter_congr inner, same, Nat.zero_add, List.range_succ_eq_map]
    simp
  have later : isCharBoundary (c :: text) ∘ (c.utf8Size + ·) = isCharBoundary text :=
    funext fun offset => isCharBoundary_cons c text offset
  rw [starts, byteLength_cons, List.range_add, List.filter_append, first, List.filter_map, later]
  rfl

end GmMiner.Lib.ByteSlices
