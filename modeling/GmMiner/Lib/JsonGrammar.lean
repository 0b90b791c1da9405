import GmMiner.Text

/-!
The grammar of JSON (RFC 8259) over bytes, with what a text denotes.

`Reads` is one relation for all of the grammar's symbols: a text, what is read off its front, and
what is left. In the relaxed grammar the bytes below 0x20 may also stand in strings as they are.
-/

namespace GmMiner.Lib.JsonGrammar

/-- What a JSON text denotes. A number is its digits, a string is its UTF-16 code units, and an
object is its members in their order. -/
inductive Datum
  | null
  | bool (value : Bool)
  | number (digits : Bytes)
  | string (units : List UInt16)
  | array (items : List Datum)
  | object (members : List (List UInt16 × Datum))

/-! ### Bytes -/

def quote : UInt8 := 0x22

def backslash : UInt8 := 0x5C

def isBlank (byte : UInt8) : Bool := byte == 0x20 || byte == 0x09 || byte == 0x0A || byte == 0x0D

def isControl (byte : UInt8) : Bool := byte.toNat < 0x20

/-- A byte that stands for itself in a string. -/
def isPlain (byte : UInt8) : Bool := !isControl byte && byte != quote && byte != backslash

def isDigit (byte : UInt8) : Bool := 0x30 ≤ byte.toNat && byte.toNat ≤ 0x39

def hexValue (byte : UInt8) : Option Nat :=
  if isDigit byte then some (byte.toNat - 0x30)
  else if 0x41 ≤ byte.toNat ∧ byte.toNat ≤ 0x46 then some (byte.toNat - 0x37)
  else if 0x61 ≤ byte.toNat ∧ byte.toNat ≤ 0x66 then some (byte.toNat - 0x57)
  else none

/-- The code unit of four hexadecimal digits. -/
def hexUnit (first second third fourth : UInt8) : Option UInt16 := do
  let first ← hexValue first
  let second ← hexValue second
  let third ← hexValue third
  let fourth ← hexValue fourth
  return UInt16.ofNat (((first * 16 + second) * 16 + third) * 16 + fourth)

/-- The short escapes, by the byte behind the backslash. -/
def shortEscapes : List (UInt8 × UInt16) :=
  [(0x22, 0x22), (0x5C, 0x5C), (0x2F, 0x2F), (0x62, 0x08), (0x66, 0x0C), (0x6E, 0x0A), (0x72, 0x0D),
    (0x74, 0x09)]

def utf16 (c : Char) : List UInt16 :=
  if c.toNat < 0x10000 then [UInt16.ofNat c.toNat]
  else
    let offset := c.toNat - 0x10000
    [UInt16.ofNat (0xD800 + offset / 0x400), UInt16.ofNat (0xDC00 + offset % 0x400)]

/-! ### White space, numbers, strings -/

/-- White space in front of what is left. -/
inductive Blank : Bytes → Bytes → Prop
  | nil {rest : Bytes} : Blank rest rest
  | cons {byte : UInt8} {text rest : Bytes} : isBlank byte = true → Blank text rest →
      Blank (byte :: text) rest

structure Digits (text : Bytes) : Prop where
  some_ : text ≠ []
  each : ∀ byte ∈ text, isDigit byte = true

inductive Sign : Bytes → Prop
  | plus : Sign []
  | minus : Sign [0x2D]

/-- No zero in front of other digits. -/
inductive Whole : Bytes → Prop
  | zero : Whole [0x30]
  | digits {text : Bytes} : Digits text → text.head? ≠ some 0x30 → Whole text

inductive Fraction : Bytes → Prop
  | none : Fraction []
  | digits {text : Bytes} : Digits text → Fraction (0x2E :: text)

inductive Exponent : Bytes → Prop
  | none : Exponent []
  | digits {letter : UInt8} {sign text : Bytes} : letter = 0x65 ∨ letter = 0x45 →
      sign = [] ∨ sign = [0x2B] ∨ sign = [0x2D] → Digits text → Exponent (letter :: (sign ++ text))

inductive Number : Bytes → Prop
  | mk {sign whole fraction exponent : Bytes} : Sign sign → Whole whole → Fraction fraction →
      Exponent exponent → Number (sign ++ (whole ++ (fraction ++ exponent)))

/-- What stands in a string, in front of what is left. -/
inductive Chars (relaxed : Bool) : Bytes → List UInt16 → Bytes → Prop
  | nil {rest : Bytes} : Chars relaxed rest [] rest
  | plain {c : Char} {text : Bytes} {units : List UInt16} {rest : Bytes} : 0x20 ≤ c.toNat →
      c ≠ '"' → c ≠ '\\' → Chars relaxed text units rest →
        Chars relaxed (String.utf8EncodeChar c ++ text) (utf16 c ++ units) rest
  | control {byte : UInt8} {text : Bytes} {units : List UInt16} {rest : Bytes} : relaxed = true →
      isControl byte = true → Chars relaxed text units rest →
        Chars relaxed (byte :: text) (byte.toUInt16 :: units) rest
  | short {byte : UInt8} {unit : UInt16} {text : Bytes} {units : List UInt16} {rest : Bytes} :
      (byte, unit) ∈ shortEscapes → Chars relaxed text units rest →
        Chars relaxed (backslash :: byte :: text) (unit :: units) rest
  | unicode {first second third fourth : UInt8} {unit : UInt16} {text : Bytes}
      {units : List UInt16} {rest : Bytes} : hexUnit first second third fourth = some unit →
        Chars relaxed text units rest →
          Chars relaxed (backslash :: 0x75 :: first :: second :: third :: fourth :: text)
            (unit :: units) rest

/-! ### Values -/

def nullText : Bytes := [0x6E, 0x75, 0x6C, 0x6C]

def boolText : Bool → Bytes
  | true => [0x74, 0x72, 0x75, 0x65]
  | false => [0x66, 0x61, 0x6C, 0x73, 0x65]

/-- A value, a value between white space, and lists of values and of members. -/
inductive Symbol
  | value
  | element
  | elements
  | member
  | members

abbrev Meaning : Symbol → Type
  | .value => Datum
  | .element => Datum
  | .elements => List Datum
  | .member => List UInt16 × Datum
  | .members => List (List UInt16 × Datum)

inductive Reads (relaxed : Bool) : (symbol : Symbol) → Bytes → Meaning symbol → Bytes → Prop
  | null {rest : Bytes} : Reads relaxed .value (nullText ++ rest) Datum.null rest
  | bool {value : Bool} {rest : Bytes} :
      Reads relaxed .value (boolText value ++ rest) (Datum.bool value) rest
  | number {digits rest : Bytes} : Number digits →
      Reads relaxed .value (digits ++ rest) (Datum.number digits) rest
  | string {text : Bytes} {units : List UInt16} {rest : Bytes} :
      Chars relaxed text units (quote :: rest) →
        Reads relaxed .value (quote :: text) (Datum.string units) rest
  | emptyArray {text rest : Bytes} : Blank text (0x5D :: rest) →
      Reads relaxed .value (0x5B :: text) (Datum.array []) rest
  | array {text : Bytes} {items : List Datum} {rest : Bytes} :
      Reads relaxed .elements text items (0x5D :: rest) →
        Reads relaxed .value (0x5B :: text) (Datum.array items) rest
  | emptyObject {text rest : Bytes} : Blank text (0x7D :: rest) →
      Reads relaxed .value (0x7B :: text) (Datum.object []) rest
  | object {text : Bytes} {members : List (List UInt16 × Datum)} {rest : Bytes} :
      Reads relaxed .members text members (0x7D :: rest) →
        Reads relaxed .value (0x7B :: text) (Datum.object members) rest
  | element {text front : Bytes} {datum : Datum} {back rest : Bytes} : Blank text front →
      Reads relaxed .value front datum back → Blank back rest →
        Reads relaxed .element text datum rest
  | lastElement {text : Bytes} {datum : Datum} {rest : Bytes} :
      Reads relaxed .element text datum rest → Reads relaxed .elements text [datum] rest
  | elements {text : Bytes} {datum : Datum} {items : List Datum} {later rest : Bytes} :
      Reads relaxed .element text datum (0x2C :: later) → Reads relaxed .elements later items rest →
        Reads relaxed .elements text (datum :: items) rest
  | member {text name : Bytes} {units : List UInt16} {back value : Bytes} {datum : Datum}
      {rest : Bytes} : Blank text (quote :: name) → Chars relaxed name units (quote :: back) →
        Blank back (0x3A :: value) → Reads relaxed .element value datum rest →
          Reads relaxed .member text (units, datum) rest
  | lastMember {text : Bytes} {member : List UInt16 × Datum} {rest : Bytes} :
      Reads relaxed .member text member rest → Reads relaxed .members text [member] rest
  | members {text : Bytes} {member : List UInt16 × Datum} {members : List (List UInt16 × Datum)}
      {later rest : Bytes} : Reads relaxed .member text member (0x2C :: later) →
        Reads relaxed .members later members rest →
          Reads relaxed .members text (member :: members) rest

/-- A whole text of the relaxed grammar, or of JSON itself, and what it denotes. -/
def Denotes (relaxed : Bool) (text : Bytes) (datum : Datum) : Prop :=
  Reads relaxed .element text datum []

/-! ### No quotes outside strings -/

/-- No blank is a quote. -/
theorem isBlank_ne_quote {byte : UInt8} (blank : isBlank byte = true) : byte ≠ quote := by
  rintro rfl
  exact absurd blank (by decide)

/-- Digits hold no quote. -/
theorem Digits.noQuote {text : Bytes} (digits : Digits text) : quote ∉ text := fun mem =>
  absurd (digits.each quote mem) (by decide)

/-- No number holds a quote. -/
theorem Number.noQuote {text : Bytes} (number : Number text) : quote ∉ text := by
  obtain ⟨sign, whole, fraction, exponent⟩ := number
  simp only [List.mem_append, not_or]
  refine ⟨?_, ?_, ?_, ?_⟩
  · cases sign <;> decide
  · cases whole with
    | zero => decide
    | digits digits _ => exact digits.noQuote
  · cases fraction with
    | none => decide
    | digits digits => exact List.not_mem_cons_of_ne_of_not_mem (by decide) digits.noQuote
  · cases exponent with
    | none => decide
    | digits letter sign digits =>
        rw [List.mem_cons, List.mem_append, not_or, not_or]
        refine ⟨?_, ?_, digits.noQuote⟩
        · rcases letter with rfl | rfl <;> decide
        · rcases sign with rfl | rfl | rfl <;> decide

/-! ### The bytes of a string -/

/-- No byte of an unescaped character is a control, a quote or a backslash. -/
theorem isPlain_utf8EncodeChar {c : Char} (low : 0x20 ≤ c.toNat) (notQuote : c ≠ '"')
    (notBackslash : c ≠ '\\') : ∀ byte ∈ String.utf8EncodeChar c, isPlain byte = true := by
  intro byte mem
  by_cases ascii : byte.toNat < 128
  · -- An ASCII byte is the character itself; any other byte is above all that are not plain.
    have inText : byte ∈ asBytes (String.singleton c) := by
      rw [asBytes_eq_flatMap, String.toList_singleton, List.flatMap_singleton]
      exact mem
    obtain ⟨d, here, same⟩ := mem_of_mem_asBytes ascii inText
    rw [String.toList_singleton, List.mem_singleton] at here
    subst here
    have other : ∀ e : Char, ∀ b : UInt8, e.toNat = b.toNat → d ≠ e → byte ≠ b := by
      rintro e b code ne rfl
      exact ne (Char.toNat_inj.mp (same.trans code.symm))
    have q := other '"' quote rfl notQuote
    have b := other '\\' backslash rfl notBackslash
    simp only [isPlain, isControl, Bool.and_eq_true, Bool.not_eq_true', decide_eq_false_iff_not,
      bne_iff_ne, ne_eq]
    exact ⟨⟨by omega, q⟩, b⟩
  · have other : ∀ b : UInt8, b.toNat < 128 → byte ≠ b := by
      rintro b small rfl
      exact ascii small
    simp only [isPlain, isControl, Bool.and_eq_true, Bool.not_eq_true', decide_eq_false_iff_not,
      bne_iff_ne, ne_eq]
    exact ⟨⟨by omega, other quote (by decide)⟩, other backslash (by decide)⟩

/-- A hexadecimal digit is a plain byte of a string. -/
theorem isPlain_of_hexValue {byte : UInt8} {value : Nat} (hex : hexValue byte = some value) :
    isPlain byte = true := by
  have each : ∀ n < 256, (hexValue (UInt8.ofNat n)).isSome = true →
      isPlain (UInt8.ofNat n) = true := by
    decide +kernel
  have found := each byte.toNat byte.toNat_lt
  rw [UInt8.ofNat_toNat] at found
  exact found (by rw [hex]; rfl)

/-- The four digits of a code unit are plain bytes of a string. -/
theorem hexUnit_plain {first second third fourth : UInt8} {unit : UInt16}
    (hex : hexUnit first second third fourth = some unit) :
    isPlain first = true ∧ isPlain second = true ∧ isPlain third = true ∧ isPlain fourth = true := by
  simp only [hexUnit, Option.bind_eq_bind, Option.bind_eq_some_iff] at hex
  obtain ⟨_, first, _, second, _, third, _, fourth, -⟩ := hex
  exact ⟨isPlain_of_hexValue first, isPlain_of_hexValue second, isPlain_of_hexValue third,
    isPlain_of_hexValue fourth⟩

end GmMiner.Lib.JsonGrammar
