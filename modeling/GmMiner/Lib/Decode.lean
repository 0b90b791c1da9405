import GmMiner.Lib.Result
import Mathlib.Algebra.Group.Nat.Defs
import Mathlib.Data.List.Basic

/-!
Readers of binary formats.

A reader takes symbols off the front of what is left of a text. A format relates an encoding to the
value it says. A reader decodes a format when it takes exactly the encodings off, whatever follows
them, and fails on everything else. The rules follow the ways in which readers are put together, so
that one proof by them gives both that what is read is well formed and that what is written is read
back.
-/

namespace GmMiner.Lib

/-- What is left of a text, and how much of it has been read. -/
structure Cursor (Symbol : Type) where
  offset : Nat
  rest : List Symbol

abbrev Reader (Symbol Failure A : Type) := StateT (Cursor Symbol) (Except Failure) A

/-- Which encodings say which values. -/
abbrev Format (Symbol A : Type) := List Symbol → A → Prop

variable {Symbol Failure A B : Type}

/-- The reader succeeds just where an encoding stands, and takes that off. -/
structure Decodes (reader : Reader Symbol Failure A) (format : Format Symbol A) : Prop where
  sound : ∀ {cursor left : Cursor Symbol} {value : A}, reader.run cursor = .ok (value, left) →
    ∃ read, format read value ∧ cursor.rest = read ++ left.rest ∧
      left.offset = cursor.offset + read.length
  complete : ∀ {read : List Symbol} {value : A}, format read value → ∀ offset rest,
    reader.run ⟨offset, read ++ rest⟩ = .ok (value, ⟨offset + read.length, rest⟩)

namespace Reader

/-- The next symbols, as many as asked for. -/
def take (failure : Nat → Failure) (length : Nat) : Reader Symbol Failure (List Symbol) :=
  fun cursor =>
    if length ≤ cursor.rest.length then
      .ok (cursor.rest.take length, ⟨cursor.offset + length, cursor.rest.drop length⟩)
    else .error (failure cursor.offset)

/-- A step that reads nothing. -/
def ofResult (result : Except Failure A) : Reader Symbol Failure A := StateT.lift result

/-- Go on if the condition holds. -/
def check (condition : Bool) (failure : Failure) : Reader Symbol Failure PUnit :=
  ofResult (ensure condition failure)

/-- The same reader, a number of times. -/
def times (reader : Reader Symbol Failure A) : Nat → Reader Symbol Failure (List A)
  | 0 => pure []
  | count + 1 => do
      let value ← reader
      let values ← times reader count
      return value :: values

/-- Read from the front of another text, of which the end is not looked at. -/
def within (reader : Reader Symbol Failure A) (text : List Symbol) : Reader Symbol Failure A :=
  ofResult (Prod.fst <$> reader.run ⟨0, text⟩)

end Reader

/-- The encodings of a list's values, one after another. -/
def Format.each (format : Format Symbol A) : Format Symbol (List A)
  | read, [] => read = []
  | read, value :: values => ∃ head tail,
      format head value ∧ each format tail values ∧ read = head ++ tail

/-- Encodings written by a function. -/
theorem Format.each_iff {format : Format Symbol A} {valid : A → Prop} {encode : A → List Symbol}
    (written : ∀ read value, format read value ↔ valid value ∧ read = encode value)
    (read : List Symbol) (values : List A) :
    format.each read values ↔ (∀ value ∈ values, valid value) ∧ read = values.flatMap encode := by
  induction values generalizing read with
  | nil => simp [Format.each]
  | cons value values ih =>
      simp only [Format.each, written, ih, List.forall_mem_cons, List.flatMap_cons]
      constructor
      · rintro ⟨head, tail, ⟨first, rfl⟩, ⟨later, rfl⟩, rfl⟩
        exact ⟨⟨first, later⟩, rfl⟩
      · rintro ⟨⟨first, later⟩, rfl⟩
        exact ⟨_, _, ⟨first, rfl⟩, ⟨later, rfl⟩, rfl⟩

namespace Decodes

variable {reader : Reader Symbol Failure A} {next : A → Reader Symbol Failure B}
  {format other : Format Symbol A} {later : A → Format Symbol B}

/-- A format may be replaced by an equivalent one. -/
theorem congr (decodes : Decodes reader format)
    (same : ∀ read value, format read value ↔ other read value) : Decodes reader other where
  sound success := by
    obtain ⟨read, encoded, split⟩ := decodes.sound success
    exact ⟨read, (same read _).mp encoded, split⟩
  complete encoded := decodes.complete ((same _ _).mpr encoded)

/-- A reader that only returns reads nothing. -/
protected theorem pure (value : A) :
    Decodes (pure value : Reader Symbol Failure A) fun read given => read = [] ∧ given = value where
  sound := by
    intro cursor left given success
    simp only [StateT.run_pure] at success
    cases success
    exact ⟨[], ⟨rfl, rfl⟩, rfl, rfl⟩
  complete := by
    rintro read given ⟨rfl, rfl⟩ offset rest
    rfl

/-- A sequence of readers reads the concatenation of their formats, where the
second format may depend on the first value. -/
protected theorem bind (first : Decodes reader format) (second : ∀ value,
    Decodes (next value) (later value)) :
    Decodes (reader >>= next) fun read result => ∃ value head tail,
      format head value ∧ later value tail result ∧ read = head ++ tail where
  sound := by
    intro cursor left result success
    rw [StateT.run_bind] at success
    obtain ⟨⟨value, middle⟩, one, two⟩ := bind_eq_ok.mp success
    obtain ⟨head, encoded, split, moved⟩ := first.sound one
    obtain ⟨tail, encodedLater, splitLater, movedLater⟩ := (second value).sound two
    refine ⟨head ++ tail, ⟨value, head, tail, encoded, encodedLater, rfl⟩, ?_, ?_⟩
    · rw [split, splitLater, List.append_assoc]
    · rw [movedLater, moved, List.length_append, Nat.add_assoc]
  complete := by
    rintro read result ⟨value, head, tail, encoded, encodedLater, rfl⟩ offset rest
    rw [StateT.run_bind, List.append_assoc]
    refine bind_eq_ok.mpr ⟨_, first.complete encoded offset (tail ++ rest), ?_⟩
    rw [(second value).complete encodedLater, List.length_append, Nat.add_assoc]

theorem take (failure : Nat → Failure) (length : Nat) :
    Decodes (Reader.take failure length : Reader Symbol Failure (List Symbol))
      fun read value => read.length = length ∧ value = read where
  sound := by
    intro cursor left value success
    change (if _ then _ else _) = _ at success
    split at success
    · rename_i enough
      cases success
      have length_take := List.length_take_of_le enough
      exact ⟨_, ⟨length_take, rfl⟩, (List.take_append_drop _ _).symm, by rw [length_take]⟩
    · cases success
  complete := by
    rintro read value ⟨rfl, rfl⟩ offset rest
    change (if _ then _ else _) = _
    rw [if_pos (by simp)]
    simp

theorem ofResult (result : Except Failure A) :
    Decodes (Reader.ofResult result : Reader Symbol Failure A)
      fun read value => result = .ok value ∧ read = [] where
  sound := by
    intro cursor left value success
    obtain ⟨given, same, rest⟩ := bind_eq_ok.mp success
    cases rest
    exact ⟨[], ⟨same, rfl⟩, rfl, rfl⟩
  complete := by
    rintro read value ⟨rfl, rfl⟩ offset rest
    rfl

theorem check (condition : Bool) (failure : Failure) :
    Decodes (Reader.check condition failure : Reader Symbol Failure PUnit)
      fun read _ => condition = true ∧ read = [] :=
  (ofResult (ensure condition failure)).congr (by simp)

theorem times (decodes : Decodes reader format) (count : Nat) :
    Decodes (reader.times count) fun read values =>
      values.length = count ∧ format.each read values := by
  induction count with
  | zero =>
      refine (Decodes.pure []).congr ?_
      intro read values
      cases values <;> simp [Format.each]
  | succ count ih =>
      refine (decodes.bind fun value => ih.bind fun values => Decodes.pure (value :: values)).congr ?_
      intro read values
      constructor
      · rintro ⟨value, head, tail, encoded, ⟨others, middle, last, ⟨counted, each⟩, ⟨rfl, rfl⟩,
          rfl⟩, rfl⟩
        exact ⟨by simp [counted], head, middle, encoded, each, by simp⟩
      · rintro ⟨counted, each⟩
        cases values with
        | nil => simp at counted
        | cons value values =>
            obtain ⟨head, tail, encoded, each, rfl⟩ := each
            exact ⟨value, head, tail, encoded,
              ⟨values, tail, [], ⟨by simpa using counted, each⟩, ⟨rfl, rfl⟩, by simp⟩, rfl⟩

/-- Values that a function writes, one after another. -/
theorem times_encoded {valid : A → Prop} {encode : A → List Symbol}
    (decodes : Decodes reader fun read value => valid value ∧ read = encode value) (count : Nat) :
    Decodes (reader.times count) fun read values =>
      values.length = count ∧ (∀ value ∈ values, valid value) ∧ read = values.flatMap encode :=
  (decodes.times count).congr fun read values =>
    and_congr_right fun _ => Format.each_iff (fun _ _ => Iff.rfl) read values

theorem within (decodes : Decodes reader format) (text : List Symbol) :
    Decodes (reader.within text) fun read value =>
      read = [] ∧ ∃ inner unread, format inner value ∧ text = inner ++ unread := by
  refine (ofResult (Prod.fst <$> reader.run ⟨0, text⟩)).congr ?_
  intro read value
  constructor
  · rintro ⟨inside, rfl⟩
    refine ⟨rfl, ?_⟩
    cases ran : reader.run ⟨0, text⟩ with
    | error failure =>
        rw [ran] at inside
        cases inside
    | ok pair =>
        obtain ⟨given, left⟩ := pair
        rw [ran] at inside
        cases inside
        obtain ⟨inner, encoded, split, -⟩ := decodes.sound ran
        exact ⟨inner, _, encoded, split⟩
  · rintro ⟨rfl, inner, unread, encoded, rfl⟩
    rw [decodes.complete encoded]
    exact ⟨rfl, rfl⟩

end Decodes

/-! ### Little-endian words -/

/-- `from_le_bytes`. -/
def leValue : List UInt8 → Nat
  | [] => 0
  | byte :: bytes => byte.toNat + 256 * leValue bytes

/-- `to_le_bytes`, of a width. -/
def leBytes : Nat → Nat → List UInt8
  | 0, _ => []
  | width + 1, value => UInt8.ofNat value :: leBytes width (value / 256)

@[simp] theorem length_leBytes (width value : Nat) : (leBytes width value).length = width := by
  induction width generalizing value with
  | zero => rfl
  | succ width ih => simp [leBytes, ih]

/-- A number that fits the width is read back from its bytes. -/
theorem leValue_leBytes {width value : Nat} (fits : value < 256 ^ width) :
    leValue (leBytes width value) = value := by
  induction width generalizing value with
  | zero =>
      simp at fits
      simp [leBytes, leValue, fits]
  | succ width ih =>
      rw [Nat.pow_succ] at fits
      have smaller : value / 256 < 256 ^ width := Nat.div_lt_of_lt_mul (by omega)
      rw [leBytes, leValue, ih smaller, UInt8.toNat_ofNat']
      omega

/-- A text of bytes reads below the power of 256 of its length. -/
theorem leValue_lt (bytes : List UInt8) : leValue bytes < 256 ^ bytes.length := by
  induction bytes with
  | nil => simp [leValue]
  | cons byte bytes ih =>
      have small := byte.toNat_lt
      rw [leValue, List.length_cons, Nat.pow_succ]
      omega

/-- Bytes are written back from the number they read. -/
theorem leBytes_leValue (bytes : List UInt8) : leBytes bytes.length (leValue bytes) = bytes := by
  induction bytes with
  | nil => rfl
  | cons byte bytes ih =>
      have small := byte.toNat_lt
      have next : (byte.toNat + 256 * leValue bytes) / 256 = leValue bytes := by omega
      have first : UInt8.ofNat (byte.toNat + 256 * leValue bytes) = byte := by
        apply UInt8.toNat_inj.mp
        rw [UInt8.toNat_ofNat']
        omega
      rw [List.length_cons, leValue, leBytes, next, first, ih]

/-- A word of a width. -/
def Reader.word (failure : Nat → Failure) (width : Nat) : Reader UInt8 Failure Nat := do
  let bytes ← Reader.take failure width
  return leValue bytes

/-- A word reader decodes the little-endian bytes of its width, and every number
that fits them. -/
theorem Decodes.word (failure : Nat → Failure) (width : Nat) :
    Decodes (Reader.word failure width) fun read value =>
      value < 256 ^ width ∧ read = leBytes width value := by
  refine ((Decodes.take failure width).bind fun bytes => Decodes.pure (leValue bytes)).congr ?_
  intro read value
  constructor
  · rintro ⟨bytes, head, tail, ⟨rfl, rfl⟩, ⟨rfl, rfl⟩, rfl⟩
    rw [List.append_nil]
    exact ⟨leValue_lt bytes, (leBytes_leValue bytes).symm⟩
  · rintro ⟨fits, rfl⟩
    exact ⟨_, _, [], ⟨length_leBytes width value, rfl⟩, ⟨rfl, (leValue_leBytes fits).symm⟩,
      (List.append_nil _).symm⟩

end GmMiner.Lib
