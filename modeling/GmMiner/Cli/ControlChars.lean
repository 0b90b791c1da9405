import GmMiner.Lib.JsonGrammar

/-!
`sanitize_control_chars` of `cli/src/btcli.rs`: what `btcli` prints is made JSON by escaping the
control bytes that stand in its strings.

The scanner knows no grammar, only whether it is in a string and whether the last byte was a
backslash. It keeps step with the grammar nevertheless: what the relaxed grammar reads of a text,
JSON reads of the scanner's output, and nothing else (`reads_outside`, `reads_of_outside`).
-/

namespace GmMiner.Cli

open GmMiner.Lib.JsonGrammar

/-! ### The scanner -/

/-- The scanner's two flags. -/
structure Scan where
  inString : Bool
  escaped : Bool
  deriving DecidableEq, Repr

def lowerHex (nibble : Nat) : UInt8 :=
  if nibble < 10 then UInt8.ofNat (0x30 + nibble) else UInt8.ofNat (0x57 + nibble)

/-- `\u` and four digits, the first two of which are zero. -/
def escapeControl (byte : UInt8) : Bytes :=
  [backslash, 0x75, 0x30, 0x30, lowerHex (byte.toNat / 16), lowerHex (byte.toNat % 16)]

def Scan.step (scan : Scan) (byte : UInt8) : Bytes × Scan :=
  if scan.inString then
    if scan.escaped then ([byte], { scan with escaped := false })
    else if byte = backslash then ([byte], { scan with escaped := true })
    else if byte = quote then ([byte], { scan with inString := false })
    else if isControl byte then (escapeControl byte, scan)
    else ([byte], scan)
  else ([byte], if byte = quote then { scan with inString := true } else scan)

def Scan.run : Scan → Bytes → Bytes
  | _, [] => []
  | scan, byte :: rest => (scan.step byte).1 ++ run (scan.step byte).2 rest

def sanitizeControlChars (json : Bytes) : Bytes := Scan.run ⟨false, false⟩ json

/-! ### Its states -/

/-- Outside strings, in a string, and in a string behind a backslash. -/
def outside : Bytes → Bytes := Scan.run ⟨false, false⟩

def inside : Bytes → Bytes := Scan.run ⟨true, false⟩

def behind : Bytes → Bytes := Scan.run ⟨true, true⟩

section States

variable {byte : UInt8} {rest : Bytes}

@[simp] theorem outside_nil : outside [] = [] := rfl

@[simp] theorem inside_nil : inside [] = [] := rfl

@[simp] theorem behind_nil : behind [] = [] := rfl

@[simp] theorem outside_quote : outside (quote :: rest) = quote :: inside rest := rfl

theorem outside_cons (other : byte ≠ quote) : outside (byte :: rest) = byte :: outside rest := by
  simp [outside, Scan.run, Scan.step, other]

@[simp] theorem inside_quote : inside (quote :: rest) = quote :: outside rest := rfl

@[simp] theorem inside_backslash : inside (backslash :: rest) = backslash :: behind rest := rfl

@[simp] theorem behind_cons : behind (byte :: rest) = byte :: inside rest := rfl

theorem isPlain_iff : isPlain byte = true ↔
    isControl byte = false ∧ byte ≠ quote ∧ byte ≠ backslash := by
  simp [isPlain, and_assoc]

theorem inside_plain (plain : isPlain byte = true) :
    inside (byte :: rest) = byte :: inside rest := by
  obtain ⟨printed, notQuote, notBackslash⟩ := isPlain_iff.mp plain
  simp [inside, Scan.run, Scan.step, printed, notQuote, notBackslash]

/-- Inside a string a control is escaped. -/
theorem inside_control (control : isControl byte = true) :
    inside (byte :: rest) = escapeControl byte ++ inside rest := by
  have notQuote : byte ≠ quote := by
    rintro rfl
    exact absurd control (by decide)
  have notBackslash : byte ≠ backslash := by
    rintro rfl
    exact absurd control (by decide)
  simp [inside, Scan.run, Scan.step, control, notQuote, notBackslash]

/-- Whatever is in a string. -/
theorem inside_cases (byte : UInt8) :
    byte = quote ∨ byte = backslash ∨ isControl byte = true ∨ isPlain byte = true := by
  rw [isPlain_iff]
  by_cases isQuote : byte = quote
  · exact .inl isQuote
  · by_cases isBackslash : byte = backslash
    · exact .inr (.inl isBackslash)
    · cases control : isControl byte with
      | true => exact .inr (.inr (.inl rfl))
      | false => exact .inr (.inr (.inr ⟨rfl, isQuote, isBackslash⟩))

theorem inside_append {text : Bytes} (plain : ∀ byte ∈ text, isPlain byte = true) :
    inside (text ++ rest) = text ++ inside rest := by
  induction text with
  | nil => rfl
  | cons byte text ih =>
      rw [List.forall_mem_cons] at plain
      rw [List.cons_append, inside_plain plain.1, ih plain.2, List.cons_append]

theorem outside_append {text : Bytes} (noQuote : quote ∉ text) :
    outside (text ++ rest) = text ++ outside rest := by
  induction text with
  | nil => rfl
  | cons byte text ih =>
      rw [List.mem_cons, not_or] at noQuote
      rw [List.cons_append, outside_cons (Ne.symm noQuote.1), ih noQuote.2, List.cons_append]

end States

/-! ### What the scanner writes -/

/-- A control's escape is of plain digits, and reads as the control. -/
theorem escapeControl_spec {byte : UInt8} (control : isControl byte = true) :
    (∀ digit ∈ [0x30, 0x30, lowerHex (byte.toNat / 16), lowerHex (byte.toNat % 16)],
      isPlain digit = true) ∧
      hexUnit 0x30 0x30 (lowerHex (byte.toNat / 16)) (lowerHex (byte.toNat % 16)) =
        some byte.toUInt16 := by
  have each : ∀ n < 32,
      [0x30, 0x30, lowerHex (n / 16), lowerHex (n % 16)].all isPlain = true ∧
        hexUnit 0x30 0x30 (lowerHex (n / 16)) (lowerHex (n % 16)) =
          some (UInt8.ofNat n).toUInt16 := by
    decide
  have small : byte.toNat < 32 := by simpa [isControl] using control
  have spec := each byte.toNat small
  rwa [UInt8.ofNat_toNat, List.all_eq_true] at spec

/-- In a string the scanner is done with what it writes for a control byte. -/
theorem inside_escapeControl {byte : UInt8} (control : isControl byte = true) (rest : Bytes) :
    inside (escapeControl byte ++ rest) = escapeControl byte ++ inside rest := by
  have digits := @inside_append rest _ (escapeControl_spec control).1
  simp only [List.cons_append, List.nil_append] at digits
  simp only [escapeControl, List.cons_append, List.nil_append, inside_backslash, behind_cons, digits]

/-- A text sanitized once is not changed again, in any of the three states. -/
theorem run_idempotent (text : Bytes) :
    outside (outside text) = outside text ∧ inside (inside text) = inside text ∧
      behind (behind text) = behind text := by
  induction text with
  | nil => exact ⟨rfl, rfl, rfl⟩
  | cons byte text ih =>
      obtain ⟨ofOutside, ofInside, ofBehind⟩ := ih
      refine ⟨?_, ?_, ?_⟩
      · by_cases isQuote : byte = quote
        · rw [isQuote, outside_quote, outside_quote, ofInside]
        · rw [outside_cons isQuote, outside_cons isQuote, ofOutside]
      · rcases inside_cases byte with rfl | rfl | control | plain
        · rw [inside_quote, inside_quote, ofOutside]
        · rw [inside_backslash, inside_backslash, ofBehind]
        · rw [inside_control control, inside_escapeControl control, ofInside]
        · rw [inside_plain plain, inside_plain plain, ofInside]
      · rw [behind_cons, behind_cons, ofInside]

/-! ### What is read is read of the output -/

section Forward

variable {relaxed : Bool} {text rest : Bytes}

theorem blank_outside (blank : Blank text rest) :
    Blank (outside text) (outside rest) ∧ (outside rest = rest → outside text = text) := by
  induction blank with
  | nil => exact ⟨.nil, id⟩
  | cons isBlank _ ih =>
      rw [outside_cons (isBlank_ne_quote isBlank)]
      exact ⟨.cons isBlank ih.1, fun same => by rw [ih.2 same]⟩

/-- Characters of the relaxed grammar become those of the strict one, of the same
units. -/
theorem chars_inside {units : List UInt16} (chars : Chars relaxed text units rest) :
    Chars false (inside text) units (inside rest) ∧
      (relaxed = false → inside rest = rest → inside text = text) := by
  induction chars with
  | nil => exact ⟨.nil, fun _ same => same⟩
  | plain low notQuote notBackslash _ ih =>
      rw [inside_append (isPlain_utf8EncodeChar low notQuote notBackslash)]
      exact ⟨.plain low notQuote notBackslash ih.1, fun strict same => by rw [ih.2 strict same]⟩
  | control allowed control _ ih =>
      rw [inside_control control]
      refine ⟨.unicode (escapeControl_spec control).2 ih.1, fun strict => ?_⟩
      rw [strict] at allowed
      cases allowed
  | short known _ ih =>
      rw [inside_backslash, behind_cons]
      exact ⟨.short known ih.1, fun strict same => by rw [ih.2 strict same]⟩
  | unicode hex _ ih =>
      obtain ⟨first, second, third, fourth⟩ := hexUnit_plain hex
      rw [inside_backslash, behind_cons, inside_plain first, inside_plain second,
        inside_plain third, inside_plain fourth]
      exact ⟨.unicode hex ih.1, fun strict same => by rw [ih.2 strict same]⟩

theorem nullText_noQuote : quote ∉ nullText := by decide

theorem boolText_noQuote (value : Bool) : quote ∉ boolText value := by
  cases value <;> decide

/-- JSON reads of the scanner's output what the relaxed grammar reads, and the scanner leaves JSON
as it is. -/
theorem reads_outside {symbol : Symbol} {meaning : Meaning symbol}
    (reads : Lib.JsonGrammar.Reads relaxed symbol text meaning rest) :
    Lib.JsonGrammar.Reads false symbol (outside text) meaning (outside rest) ∧
      (relaxed = false → outside rest = rest → outside text = text) := by
  have bracket : ∀ t, outside (0x5D :: t) = 0x5D :: outside t := fun t => outside_cons (by decide)
  have brace : ∀ t, outside (0x7D :: t) = 0x7D :: outside t := fun t => outside_cons (by decide)
  have comma : ∀ t, outside (0x2C :: t) = 0x2C :: outside t := fun t => outside_cons (by decide)
  have colon : ∀ t, outside (0x3A :: t) = 0x3A :: outside t := fun t => outside_cons (by decide)
  induction reads with
  | null =>
      rw [outside_append nullText_noQuote]
      exact ⟨.null, fun _ same => by rw [same]⟩
  | bool =>
      rw [outside_append (boolText_noQuote _)]
      exact ⟨.bool, fun _ same => by rw [same]⟩
  | number number =>
      rw [outside_append number.noQuote]
      exact ⟨.number number, fun _ same => by rw [same]⟩
  | string chars =>
      obtain ⟨read, kept⟩ := chars_inside chars
      rw [inside_quote] at read kept
      rw [outside_quote]
      exact ⟨.string read, fun strict same => by rw [kept strict (by rw [same])]⟩
  | emptyArray blank =>
      obtain ⟨read, kept⟩ := blank_outside blank
      rw [bracket] at read kept
      rw [outside_cons (by decide)]
      exact ⟨.emptyArray read, fun _ same => by rw [kept (by rw [same])]⟩
  -- A bracket is outside of strings, so it stays where it is.
  | array _ ih =>
      obtain ⟨read, kept⟩ := ih
      rw [bracket] at read kept
      rw [outside_cons (by decide)]
      exact ⟨.array read, fun strict same => by rw [kept strict (by rw [same])]⟩
  | emptyObject blank =>
      obtain ⟨read, kept⟩ := blank_outside blank
      rw [brace] at read kept
      rw [outside_cons (by decide)]
      exact ⟨.emptyObject read, fun _ same => by rw [kept (by rw [same])]⟩
  | object _ ih =>
      obtain ⟨read, kept⟩ := ih
      rw [brace] at read kept
      rw [outside_cons (by decide)]
      exact ⟨.object read, fun strict same => by rw [kept strict (by rw [same])]⟩
  | element front _ back ih =>
      obtain ⟨ofFront, keptFront⟩ := blank_outside front
      obtain ⟨ofBack, keptBack⟩ := blank_outside back
      exact ⟨.element ofFront ih.1 ofBack,
        fun strict same => keptFront (ih.2 strict (keptBack same))⟩
  | lastElement _ ih => exact ⟨.lastElement ih.1, ih.2⟩
  | elements _ _ ofFirst ofRest =>
      obtain ⟨read, kept⟩ := ofFirst
      rw [comma] at read kept
      exact ⟨.elements read ofRest.1,
        fun strict same => kept strict (by rw [ofRest.2 strict same])⟩
  -- The quote opens a string: the name is read inside, and the colon outside again.
  | member front name back _ ih =>
      obtain ⟨ofFront, keptFront⟩ := blank_outside front
      obtain ⟨ofName, keptName⟩ := chars_inside name
      obtain ⟨ofBack, keptBack⟩ := blank_outside back
      rw [outside_quote] at ofFront keptFront
      rw [inside_quote] at ofName keptName
      rw [colon] at ofBack keptBack
      refine ⟨.member ofFront ofName ofBack ih.1, fun strict same => keptFront ?_⟩
      rw [keptName strict (by rw [keptBack (by rw [ih.2 strict same])])]
  | lastMember _ ih => exact ⟨.lastMember ih.1, ih.2⟩
  | members _ _ ofFirst ofRest =>
      obtain ⟨read, kept⟩ := ofFirst
      rw [comma] at read kept
      exact ⟨.members read ofRest.1,
        fun strict same => kept strict (by rw [ofRest.2 strict same])⟩

end Forward

/-! ### Nothing else is read of the output -/

section Backward

variable {byte : UInt8} {text written left : Bytes}

theorem behind_eq_cons (same : behind text = byte :: left) :
    ∃ rest, text = byte :: rest ∧ inside rest = left := by
  cases text with
  | nil => cases same
  | cons c rest =>
      obtain ⟨rfl, tails⟩ := List.cons.inj same
      exact ⟨rest, rfl, tails⟩

/-- A quote outside strings was one. -/
theorem outside_eq_quote (same : outside text = quote :: left) :
    ∃ rest, text = quote :: rest ∧ inside rest = left := by
  cases text with
  | nil => cases same
  | cons c rest =>
      by_cases isQuote : c = quote
      · subst isQuote
        exact ⟨rest, rfl, (List.cons.inj same).2⟩
      · rw [outside_cons isQuote] at same
        exact absurd (List.cons.inj same).1 isQuote

/-- Another byte outside strings was itself. -/
theorem outside_eq_cons (other : byte ≠ quote) (same : outside text = byte :: left) :
    ∃ rest, text = byte :: rest ∧ outside rest = left := by
  cases text with
  | nil => cases same
  | cons c rest =>
      by_cases isQuote : c = quote
      · subst isQuote
        exact absurd (List.cons.inj same).1.symm other
      · rw [outside_cons isQuote] at same
        obtain ⟨rfl, tails⟩ := List.cons.inj same
        exact ⟨rest, rfl, tails⟩

/-- Bytes without a quote outside strings were themselves. -/
theorem outside_eq_append (noQuote : quote ∉ written) (same : outside text = written ++ left) :
    ∃ rest, text = written ++ rest ∧ outside rest = left := by
  induction written generalizing text with
  | nil => exact ⟨text, rfl, same⟩
  | cons byte written ih =>
      rw [List.mem_cons, not_or] at noQuote
      obtain ⟨later, rfl, after⟩ := outside_eq_cons (Ne.symm noQuote.1) same
      obtain ⟨rest, rfl, done⟩ := ih noQuote.2 after
      exact ⟨rest, rfl, done⟩

/-- What the scanner writes first in a string, and what it read for that. -/
theorem inside_eq_cons (same : inside text = byte :: left) :
    (byte = quote ∧ ∃ rest, text = quote :: rest ∧ outside rest = left) ∨
      (byte = backslash ∧ ∃ rest, text = backslash :: rest ∧ behind rest = left) ∨
        (byte = backslash ∧ ∃ control rest, isControl control = true ∧ text = control :: rest ∧
          left = (escapeControl control).tail ++ inside rest) ∨
            (isPlain byte = true ∧ ∃ rest, text = byte :: rest ∧ inside rest = left) := by
  cases text with
  | nil => cases same
  | cons c rest =>
      rcases inside_cases c with rfl | rfl | control | plain
      · obtain ⟨rfl, tails⟩ := List.cons.inj same
        exact .inl ⟨rfl, rest, rfl, tails⟩
      · obtain ⟨rfl, tails⟩ := List.cons.inj same
        exact .inr (.inl ⟨rfl, rest, rfl, tails⟩)
      · rw [inside_control control] at same
        obtain ⟨rfl, tails⟩ := List.cons.inj same
        exact .inr (.inr (.inl ⟨rfl, c, rest, control, rfl, tails.symm⟩))
      · rw [inside_plain plain] at same
        obtain ⟨rfl, tails⟩ := List.cons.inj same
        exact .inr (.inr (.inr ⟨plain, rest, rfl, tails⟩))

theorem inside_eq_quote (same : inside text = quote :: left) :
    ∃ rest, text = quote :: rest ∧ outside rest = left := by
  rcases inside_eq_cons same with ⟨-, found⟩ | ⟨other, -⟩ | ⟨other, -⟩ | ⟨plain, -⟩
  · exact found
  · exact absurd other (by decide)
  · exact absurd other (by decide)
  · exact absurd plain (by decide)

theorem inside_eq_plain (plain : isPlain byte = true) (same : inside text = byte :: left) :
    ∃ rest, text = byte :: rest ∧ inside rest = left := by
  obtain ⟨-, notQuote, notBackslash⟩ := isPlain_iff.mp plain
  rcases inside_eq_cons same with ⟨other, -⟩ | ⟨other, -⟩ | ⟨other, -⟩ | ⟨-, found⟩
  · exact absurd other notQuote
  · exact absurd other notBackslash
  · exact absurd other notBackslash
  · exact found

/-- Plain bytes inside a string were themselves. -/
theorem inside_eq_append (plain : ∀ byte ∈ written, isPlain byte = true)
    (same : inside text = written ++ left) :
    ∃ rest, text = written ++ rest ∧ inside rest = left := by
  induction written generalizing text with
  | nil => exact ⟨text, rfl, same⟩
  | cons byte written ih =>
      rw [List.forall_mem_cons] at plain
      obtain ⟨later, rfl, after⟩ := inside_eq_plain plain.1 same
      obtain ⟨rest, rfl, done⟩ := ih plain.2 after
      exact ⟨rest, rfl, done⟩

/-- An escape in the output stood in the text, or a control byte did. -/
theorem inside_eq_backslash (same : inside text = backslash :: byte :: left) :
    (∃ rest, text = backslash :: byte :: rest ∧ inside rest = left) ∨
      (byte = 0x75 ∧ ∃ control rest, isControl control = true ∧ text = control :: rest ∧
        left = 0x30 :: 0x30 :: lowerHex (control.toNat / 16) :: lowerHex (control.toNat % 16) ::
          inside rest) := by
  rcases inside_eq_cons same with ⟨other, -⟩ | ⟨-, later, rfl, after⟩ |
    ⟨-, control, rest, isControl, rfl, after⟩ | ⟨plain, -⟩
  · exact absurd other (by decide)
  · obtain ⟨rest, rfl, done⟩ := behind_eq_cons after
    exact .inl ⟨rest, rfl, done⟩
  · obtain ⟨rfl, digits⟩ := List.cons.inj after
    exact .inr ⟨rfl, control, rest, isControl, rfl, digits⟩
  · exact absurd plain (by decide)

theorem blank_of_outside (blank : Blank written left) (same : outside text = written) :
    ∃ rest, Blank text rest ∧ outside rest = left := by
  induction blank generalizing text with
  | nil => exact ⟨text, .nil, same⟩
  | cons isBlank _ ih =>
      obtain ⟨later, rfl, after⟩ := outside_eq_cons (isBlank_ne_quote isBlank) same
      obtain ⟨rest, blank, done⟩ := ih after
      exact ⟨rest, .cons isBlank blank, done⟩

/-- Characters of the strict grammar were those of the relaxed one, of the same
units. -/
theorem chars_of_inside {units : List UInt16} (chars : Chars false written units left)
    (same : inside text = written) :
    ∃ rest, Chars true text units rest ∧ inside rest = left := by
  induction chars generalizing text with
  | nil => exact ⟨text, .nil, same⟩
  | plain low notQuote notBackslash _ ih =>
      obtain ⟨later, rfl, after⟩ :=
        inside_eq_append (isPlain_utf8EncodeChar low notQuote notBackslash) same
      obtain ⟨rest, chars, done⟩ := ih after
      exact ⟨rest, .plain low notQuote notBackslash chars, done⟩
  | control allowed => cases allowed
  | short known _ ih =>
      rcases inside_eq_backslash same with ⟨later, rfl, after⟩ | ⟨rfl, -⟩
      · obtain ⟨rest, chars, done⟩ := ih after
        exact ⟨rest, .short known chars, done⟩
      · -- No short escape is written with a `u`.
        simp [shortEscapes] at known
  | @unicode first second third fourth unit _ _ _ hex _ ih =>
      rcases inside_eq_backslash same with ⟨later, rfl, after⟩ |
        ⟨-, control, later, isControl, rfl, after⟩
      · obtain ⟨ofFirst, ofSecond, ofThird, ofFourth⟩ := hexUnit_plain hex
        have digits : ∀ byte ∈ [first, second, third, fourth], isPlain byte = true := by
          simp [ofFirst, ofSecond, ofThird, ofFourth]
        obtain ⟨later, rfl, inner⟩ := inside_eq_append digits after
        obtain ⟨rest, chars, done⟩ := ih inner
        exact ⟨rest, .unicode hex chars, done⟩
      · simp only [List.cons.injEq] at after
        obtain ⟨rfl, rfl, rfl, rfl, tails⟩ := after
        rw [(escapeControl_spec isControl).2, Option.some.injEq] at hex
        subst hex
        obtain ⟨rest, chars, done⟩ := ih tails.symm
        exact ⟨rest, .control rfl isControl chars, done⟩

/-- Of what JSON reads of the scanner's output, the relaxed grammar reads the same of the text. -/
theorem reads_of_outside {symbol : Symbol} {meaning : Meaning symbol}
    (reads : Lib.JsonGrammar.Reads false symbol written meaning left)
    (same : outside text = written) :
    ∃ rest, Lib.JsonGrammar.Reads true symbol text meaning rest ∧ outside rest = left := by
  -- Backwards along the strict reading: each piece of it came from one piece of the text.
  induction reads generalizing text with
  | null =>
      obtain ⟨rest, rfl, done⟩ := outside_eq_append nullText_noQuote same
      exact ⟨rest, .null, done⟩
  | bool =>
      obtain ⟨rest, rfl, done⟩ := outside_eq_append (boolText_noQuote _) same
      exact ⟨rest, .bool, done⟩
  | number number =>
      obtain ⟨rest, rfl, done⟩ := outside_eq_append number.noQuote same
      exact ⟨rest, .number number, done⟩
  | string chars =>
      obtain ⟨body, rfl, inString⟩ := outside_eq_quote same
      obtain ⟨later, chars, closing⟩ := chars_of_inside chars inString
      obtain ⟨rest, rfl, done⟩ := inside_eq_quote closing
      exact ⟨rest, .string chars, done⟩
  | emptyArray blank =>
      obtain ⟨body, rfl, after⟩ := outside_eq_cons (by decide) same
      obtain ⟨later, blank, closing⟩ := blank_of_outside blank after
      obtain ⟨rest, rfl, done⟩ := outside_eq_cons (by decide) closing
      exact ⟨rest, .emptyArray blank, done⟩
  | array _ ih =>
      obtain ⟨body, rfl, after⟩ := outside_eq_cons (by decide) same
      obtain ⟨later, items, closing⟩ := ih after
      obtain ⟨rest, rfl, done⟩ := outside_eq_cons (by decide) closing
      exact ⟨rest, .array items, done⟩
  | emptyObject blank =>
      obtain ⟨body, rfl, after⟩ := outside_eq_cons (by decide) same
      obtain ⟨later, blank, closing⟩ := blank_of_outside blank after
      obtain ⟨rest, rfl, done⟩ := outside_eq_cons (by decide) closing
      exact ⟨rest, .emptyObject blank, done⟩
  | object _ ih =>
      obtain ⟨body, rfl, after⟩ := outside_eq_cons (by decide) same
      obtain ⟨later, members, closing⟩ := ih after
      obtain ⟨rest, rfl, done⟩ := outside_eq_cons (by decide) closing
      exact ⟨rest, .object members, done⟩
  | element front _ back ih =>
      obtain ⟨body, front, atValue⟩ := blank_of_outside front same
      obtain ⟨behindValue, value, atBack⟩ := ih atValue
      obtain ⟨rest, back, done⟩ := blank_of_outside back atBack
      exact ⟨rest, .element front value back, done⟩
  | lastElement _ ih =>
      obtain ⟨rest, element, done⟩ := ih same
      exact ⟨rest, .lastElement element, done⟩
  | elements _ _ ofFirst ofRest =>
      obtain ⟨later, first, atComma⟩ := ofFirst same
      obtain ⟨body, rfl, after⟩ := outside_eq_cons (by decide) atComma
      obtain ⟨rest, items, done⟩ := ofRest after
      exact ⟨rest, .elements first items, done⟩
  | member front name back _ ih =>
      obtain ⟨atName, front, atQuote⟩ := blank_of_outside front same
      obtain ⟨body, rfl, inString⟩ := outside_eq_quote atQuote
      obtain ⟨later, name, closing⟩ := chars_of_inside name inString
      obtain ⟨behindName, rfl, after⟩ := inside_eq_quote closing
      obtain ⟨atColon, back, colon⟩ := blank_of_outside back after
      obtain ⟨value, rfl, atValue⟩ := outside_eq_cons (by decide) colon
      obtain ⟨rest, element, done⟩ := ih atValue
      exact ⟨rest, .member front name back element, done⟩
  | lastMember _ ih =>
      obtain ⟨rest, member, done⟩ := ih same
      exact ⟨rest, .lastMember member, done⟩
  | members _ _ ofFirst ofRest =>
      obtain ⟨later, first, atComma⟩ := ofFirst same
      obtain ⟨body, rfl, after⟩ := outside_eq_cons (by decide) atComma
      obtain ⟨rest, members, done⟩ := ofRest after
      exact ⟨rest, .members first members, done⟩

end Backward

/-! ### Whole texts -/

/-- Nothing is written only of nothing. -/
theorem outside_eq_nil {text : Bytes} (same : outside text = []) : text = [] := by
  cases text with
  | nil => rfl
  | cons byte rest =>
      by_cases isQuote : byte = quote
      · subst isQuote
        cases same
      · rw [outside_cons isQuote] at same
        cases same

/-- What is asked of the scanner: it makes JSON of the relaxed grammar's texts and of no others,
with the value they denote, it leaves JSON as it is, and it is done after once. -/
structure SanitizedRight (json : Bytes) : Prop where
  denotes : ∀ datum, Denotes false (sanitizeControlChars json) datum ↔ Denotes true json datum
  kept : ∀ datum, Denotes false json datum → sanitizeControlChars json = json
  once : sanitizeControlChars (sanitizeControlChars json) = sanitizeControlChars json

/-- Sanitizing makes strict JSON of relaxed, and of nothing else. -/
theorem sanitizedRight (json : Bytes) : SanitizedRight json where
  denotes datum := by
    constructor
    · intro strict
      obtain ⟨rest, reads, done⟩ := reads_of_outside strict (rfl : outside json = _)
      rw [outside_eq_nil done] at reads
      exact reads
    · intro relaxed
      exact (reads_outside relaxed).1
  kept datum strict := (reads_outside strict).2 rfl rfl
  once := (run_idempotent json).1

end GmMiner.Cli
