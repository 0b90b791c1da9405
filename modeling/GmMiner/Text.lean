import Mathlib.Data.List.DropRight
import Mathlib.Data.String.Basic

/-!
Strings and their bytes, as the standard library of Rust reads them.

A text that is scanned is the list of its characters.
-/

namespace GmMiner

abbrev Bytes := List UInt8

/-- `str::as_bytes`. -/
def asBytes (text : String) : Bytes := text.toByteArray.data.toList

/-- Texts of the same bytes are the same. -/
theorem asBytes_injective {text other : String} (same : asBytes text = asBytes other) :
    text = other :=
  String.toByteArray_inj.mp (ByteArray.ext (Array.toList_inj.mp same))

@[simp] theorem asBytes_append (text other : String) :
    asBytes (text ++ other) = asBytes text ++ asBytes other := by
  unfold asBytes
  rw [String.toByteArray_append, ByteArray.data_append, Array.toList_append]

/-- `str::from_utf8`. -/
def fromUtf8 (bytes : Bytes) : Option String := String.fromUTF8? ⟨bytes.toArray⟩

@[simp] theorem fromUtf8_asBytes (text : String) : fromUtf8 (asBytes text) = some text := by
  have same : (⟨(asBytes text).toArray⟩ : ByteArray) = text.toByteArray := by
    unfold asBytes
    rw [Array.toArray_toList]
  unfold fromUtf8 String.fromUTF8?
  rw [same, dif_pos text.isValidUTF8]
  rfl

/-- A text read from bytes is written as them. -/
theorem asBytes_of_fromUtf8 {bytes : Bytes} {text : String} (read : fromUtf8 bytes = some text) :
    bytes = asBytes text := by
  unfold fromUtf8 String.fromUTF8? at read
  split at read
  · cases read
    rfl
  · cases read

/-- A text that holds neither of two symbols, as a computed check. -/
theorem apart_of_all {A : Type} [DecidableEq A] {text : List A} {first second : A}
    (checked : (text.all fun c => c != first && c != second) = true) :
    ∀ c ∈ text, c ≠ first ∧ c ≠ second := by
  intro c mem
  have passes := List.all_eq_true.mp checked c mem
  simpa using passes

/-- A text is written character by character. -/
theorem asBytes_eq_flatMap (text : String) :
    asBytes text = text.toList.flatMap String.utf8EncodeChar := by
  unfold asBytes
  rw [← String.utf8Encode_toList, List.utf8Encode, List.toList_data_toByteArray]

/-- The characters of a text written in two parts. -/
theorem ofList_append_of {text other : String} {chars others : List Char}
    (one : String.ofList chars = text) (two : String.ofList others = other) :
    String.ofList (chars ++ others) = text ++ other := by
  rw [String.ofList_append, one, two]

theorem toList_of {text : String} {chars : List Char} (same : String.ofList chars = text) :
    text.toList = chars := by
  rw [← same, String.toList_ofList]

/-- A byte below 128 in a text's bytes is a character of the text. -/
theorem mem_of_mem_asBytes {text : String} {byte : UInt8} (small : byte.toNat < 128)
    (mem : byte ∈ asBytes text) : ∃ c ∈ text.toList, c.toNat = byte.toNat := by
  rw [asBytes_eq_flatMap] at mem
  obtain ⟨c, here, byteOf⟩ := List.mem_flatMap.mp mem
  refine ⟨c, here, ?_⟩
  change c.val.toNat = byte.toNat
  unfold String.utf8EncodeChar at byteOf
  dsimp only at byteOf
  split at byteOf
  · rename_i ascii
    cases List.mem_singleton.mp byteOf
    exact (UInt8.toNat_ofNat_of_lt' (ascii.trans_lt (by decide))).symm
  · -- Every byte of a longer code has its highest bit set.
    refine absurd small (Nat.not_lt.mpr ?_)
    split at byteOf
    · simp only [List.mem_cons, List.not_mem_nil, or_false] at byteOf
      rcases byteOf with rfl | rfl
      all_goals
        rw [UInt8.toNat_ofNat']
        omega
    · split at byteOf
      · simp only [List.mem_cons, List.not_mem_nil, or_false] at byteOf
        rcases byteOf with rfl | rfl | rfl
        all_goals
          rw [UInt8.toNat_ofNat']
          omega
      · simp only [List.mem_cons, List.not_mem_nil, or_false] at byteOf
        rcases byteOf with rfl | rfl | rfl | rfl
        all_goals
          rw [UInt8.toNat_ofNat']
          omega

/-- `char::is_whitespace`: the property White_Space. -/
def isWhitespace (c : Char) : Bool :=
  let point := c.toNat
  (9 ≤ point && point ≤ 13) || point == 0x20 || point == 0x85 || point == 0xA0 ||
    point == 0x1680 || (0x2000 ≤ point && point ≤ 0x200A) || point == 0x2028 ||
    point == 0x2029 || point == 0x202F || point == 0x205F || point == 0x3000

/-- `str::trim_start`. -/
def trimStart (text : List Char) : List Char := text.dropWhile isWhitespace

/-- `str::trim_end`. -/
def trimEnd (text : List Char) : List Char := text.rdropWhile isWhitespace

/-- `str::trim`. -/
def trim (text : List Char) : List Char := trimEnd (trimStart text)

/-- `str::strip_prefix`. -/
def stripPrefix (start text : List Char) : Option (List Char) :=
  if start.isPrefixOf text then some (text.drop start.length) else none

/-- What is left of a text is what follows its prefix. -/
theorem stripPrefix_eq_some {start text rest : List Char} :
    stripPrefix start text = some rest ↔ text = start ++ rest := by
  unfold stripPrefix
  constructor
  · intro stripped
    split at stripped
    · rename_i begins
      cases stripped
      exact (List.prefix_iff_eq_append.mp (List.isPrefixOf_iff_prefix.mp begins)).symm
    · cases stripped
  · rintro rfl
    simp

/-- `str::strip_suffix` of one character. -/
def stripSuffix (last : Char) (text : List Char) : Option (List Char) :=
  if text.getLast? = some last then some text.dropLast else none

@[simp] theorem stripSuffix_append (last : Char) (text : List Char) :
    stripSuffix last (text ++ [last]) = some text := by
  simp [stripSuffix]

/-- A suffix is not stripped from the head. -/
theorem stripSuffix_cons {last c : Char} (other : c ≠ last) (text : List Char) :
    stripSuffix last (c :: text) = (stripSuffix last text).map (c :: ·) := by
  unfold stripSuffix
  cases text with
  | nil => exact if_neg fun same => other (Option.some.inj same)
  | cons next text =>
      rw [List.getLast?_cons_cons]
      split
      · rfl
      · rfl

/-- `str::strip_suffix` of a text. -/
def stripSuffixText (end_ text : List Char) : Option (List Char) :=
  if end_.isSuffixOf text then some (text.take (text.length - end_.length)) else none

/-- What stands before the first of a character is told apart from what follows it. -/
theorem append_cons_inj {c : Char} {left right rest rest' : List Char} (absent : c ∉ left)
    (absent' : c ∉ right) (same : left ++ c :: rest = right ++ c :: rest') :
    left = right ∧ rest = rest' := by
  rcases List.append_eq_append_iff.mp same with ⟨more, rfl, here⟩ | ⟨more, rfl, here⟩
  · cases more with
    | nil => exact ⟨(List.append_nil _).symm, (List.cons.inj here).2⟩
    | cons first more =>
        obtain ⟨rfl, -⟩ := List.cons.inj here
        exact absurd (List.mem_append_right _ List.mem_cons_self) absent'
  · cases more with
    | nil => exact ⟨List.append_nil _, (List.cons.inj here).2.symm⟩
    | cons first more =>
        obtain ⟨rfl, -⟩ := List.cons.inj here
        exact absurd (List.mem_append_right _ List.mem_cons_self) absent

/-- `str::split_inclusive` at line feeds. -/
def splitInclusive : List Char → List (List Char)
  | [] => []
  | c :: rest =>
      if c = '\n' then [c] :: splitInclusive rest
      else
        match splitInclusive rest with
        | [] => [[c]]
        | line :: lines => (c :: line) :: lines

/-- A line ends with its line feed. -/
theorem splitInclusive_append {line : List Char} (one : '\n' ∉ line) (rest : List Char) :
    splitInclusive (line ++ '\n' :: rest) = (line ++ ['\n']) :: splitInclusive rest := by
  induction line with
  | nil => exact if_pos rfl
  | cons c line ih =>
      obtain ⟨other, later⟩ := not_or.mp (List.mem_cons.not.mp one)
      rw [List.cons_append, splitInclusive, if_neg (Ne.symm other), ih later]
      rfl

/-- What follows the last line feed is a line without one. -/
theorem splitInclusive_last {line : List Char} (one : '\n' ∉ line) (some_ : line ≠ []) :
    splitInclusive line = [line] := by
  induction line with
  | nil => exact absurd rfl some_
  | cons c line ih =>
      obtain ⟨other, later⟩ := not_or.mp (List.mem_cons.not.mp one)
      rw [splitInclusive, if_neg (Ne.symm other)]
      cases line with
      | nil => rfl
      | cons next line => rw [ih later (List.cons_ne_nil _ _)]

/-- `str::lines`. -/
def lines (text : List Char) : List (List Char) :=
  (splitInclusive text).map fun line =>
    match stripSuffix '\n' line with
    | none => line
    | some line => (stripSuffix '\r' line).getD line

/-- A line has no line feed but at its end. -/
theorem splitInclusive_line {text line : List Char} (mem : line ∈ splitInclusive text) :
    ∃ body, '\n' ∉ body ∧ (line = body ∨ line = body ++ ['\n']) := by
  induction text generalizing line with
  | nil => cases mem
  | cons c rest ih =>
      rw [splitInclusive] at mem
      split at mem
      · rename_i lf
        rcases List.mem_cons.mp mem with rfl | later
        · exact ⟨[], List.not_mem_nil, .inr (congrArg (· :: []) lf)⟩
        · exact ih later
      · rename_i notLf
        split at mem
        · cases List.mem_singleton.mp mem
          exact ⟨[c], List.not_mem_cons_of_ne_of_not_mem (Ne.symm notLf) List.not_mem_nil, .inl rfl⟩
        · rename_i first others split
          rcases List.mem_cons.mp mem with rfl | later
          · obtain ⟨body, plain, either⟩ := ih (split ▸ List.mem_cons_self)
            refine ⟨c :: body, List.not_mem_cons_of_ne_of_not_mem (Ne.symm notLf) plain, ?_⟩
            rcases either with rfl | rfl
            · exact .inl rfl
            · exact .inr rfl
          · exact ih (split ▸ List.mem_cons_of_mem _ later)

/-- The lines make up the text. -/
theorem splitInclusive_flatten (text : List Char) : (splitInclusive text).flatten = text := by
  induction text with
  | nil => rfl
  | cons c rest ih =>
      rw [splitInclusive]
      split
      · rw [List.flatten_cons, ih]
        rfl
      · split
        · rename_i none
          rw [none] at ih
          rw [← ih]
          rfl
        · rename_i line later split
          rw [split, List.flatten_cons] at ih
          rw [List.flatten_cons, List.cons_append, ih]

/-- What is kept is a prefix of the text. -/
theorem stripSuffix_prefix {last : Char} {text kept : List Char}
    (stripped : stripSuffix last text = some kept) : kept <+: text := by
  unfold stripSuffix at stripped
  split at stripped
  · cases stripped
    exact List.dropLast_prefix text
  · cases stripped

/-- A line is part of one of the pieces a text is cut into, without its line feed. -/
theorem mem_lines {text line : List Char} (mem : line ∈ lines text) :
    '\n' ∉ line ∧ ∃ piece ∈ splitInclusive text, line <+: piece := by
  obtain ⟨piece, here, rfl⟩ := List.mem_map.mp mem
  obtain ⟨body, plain, rfl | rfl⟩ := splitInclusive_line here
  · have unended : stripSuffix '\n' piece = none :=
      if_neg fun last => plain (List.mem_of_getLast? last)
    rw [unended]
    exact ⟨plain, piece, here, List.prefix_rfl⟩
  · rw [stripSuffix_append]
    dsimp only
    cases stripped : stripSuffix '\r' body with
    | none => exact ⟨plain, _, here, List.prefix_append _ _⟩
    | some kept =>
        have within := stripSuffix_prefix stripped
        exact ⟨fun lf => plain (within.subset lf), _, here,
          within.trans (List.prefix_append _ _)⟩

/-- The characters of a line are of the text. -/
theorem mem_of_mem_lines {text line : List Char} (mem : line ∈ lines text) {c : Char}
    (here : c ∈ line) : c ∈ text := by
  obtain ⟨-, piece, there, within⟩ := mem_lines mem
  rw [← splitInclusive_flatten text]
  exact List.mem_flatten_of_mem there (within.subset here)

theorem trimStart_subset (text : List Char) : trimStart text ⊆ text :=
  (List.dropWhile_suffix _).subset

theorem trimEnd_subset (text : List Char) : trimEnd text ⊆ text :=
  (List.rdropWhile_prefix _ text).subset

/-- A text trimmed to nothing is blank. -/
theorem isWhitespace_of_trim {text : List Char} (blank : trim text = []) :
    ∀ c ∈ text, isWhitespace c = true := by
  have start : trimStart text = [] := by
    unfold trim trimEnd at blank
    have all := List.rdropWhile_eq_nil_iff.mp blank
    by_contra some_
    have head := List.head_dropWhile_not isWhitespace some_
    exact Bool.false_ne_true (head.symm.trans (all _ (List.head_mem some_)))
  exact List.dropWhile_eq_nil_iff.mp start

/-- A text's first line begins as the text does. -/
theorem lines_cons {c : Char} (notLf : c ≠ '\n') (notCr : c ≠ '\r') (rest : List Char) :
    ∃ line later, lines (c :: rest) = (c :: line) :: later := by
  unfold lines
  rw [splitInclusive, if_neg notLf]
  have begins : ∀ line, ∃ line', (match stripSuffix '\n' (c :: line) with
      | none => c :: line
      | some line => (stripSuffix '\r' line).getD line) = c :: line' := by
    intro line
    rw [stripSuffix_cons notLf]
    cases stripSuffix '\n' line with
    | none => exact ⟨line, rfl⟩
    | some line =>
        rw [Option.map_some]
        dsimp only
        rw [stripSuffix_cons notCr]
        cases stripSuffix '\r' line with
        | none => exact ⟨line, rfl⟩
        | some line => exact ⟨line, rfl⟩
  cases splitInclusive rest with
  | nil =>
      obtain ⟨line, first⟩ := begins []
      exact ⟨line, [], congrArg (· :: []) first⟩
  | cons line later =>
      obtain ⟨line', first⟩ := begins line
      exact ⟨line', _, congrArg (· :: _) first⟩

/-- A line is read without its line feed and the carriage return before it. -/
theorem lines_append {line : List Char} (one : '\n' ∉ line) (rest : List Char) :
    lines (line ++ '\n' :: rest) = (stripSuffix '\r' line).getD line :: lines rest := by
  unfold lines
  rw [splitInclusive_append one, List.map_cons, stripSuffix_append]

/-- What follows the last line feed is a line as it stands. -/
theorem lines_last {line : List Char} (one : '\n' ∉ line) (some_ : line ≠ []) :
    lines line = [line] := by
  have unended : stripSuffix '\n' line = none :=
    if_neg fun last => one (List.mem_of_getLast? last)
  unfold lines
  rw [splitInclusive_last one some_, List.map_singleton, unended]

end GmMiner
