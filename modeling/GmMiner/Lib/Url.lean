import GmMiner.Lib.Split
import GmMiner.Text
import Mathlib.Data.List.DropRight

/-!
URLs over HTTP as the WHATWG URL standard reads them, and percent-encoding.

A text that is percent-encoded and put behind a base URL keeps its place in the path: what is
encoded holds no delimiter (`plain_percentEncode`), no segment of it is taken for a dot segment
(`percentEncode_notDot`), and decoding gives the text back (`percentDecode_percentEncode`).
-/

namespace GmMiner.Lib

open KeyedLines

/-- A URL; query and fragment are as they are written. -/
structure Url (Host : Type) where
  scheme : List Char
  host : Host
  path : List (List Char)
  query : Option (List Char)
  fragment : Option (List Char)
  deriving DecidableEq

namespace Url

/-! ### Percent-encoding -/

def hexDigit (nibble : Nat) : Char :=
  if nibble < 10 then Char.ofNat (48 + nibble) else Char.ofNat (55 + nibble)

def hexValue (c : Char) : Option Nat :=
  if '0' ≤ c ∧ c ≤ '9' then some (c.toNat - 48)
  else if 'A' ≤ c ∧ c ≤ 'F' then some (c.toNat - 55)
  else if 'a' ≤ c ∧ c ≤ 'f' then some (c.toNat - 87)
  else none

def escapeByte (byte : UInt8) : List Char :=
  ['%', hexDigit (byte.toNat / 16), hexDigit (byte.toNat % 16)]

/-- Bytes in ASCII: the characters to keep as they are, all others escaped. -/
def encodeByte (keep : Char → Bool) (byte : UInt8) : List Char :=
  if byte.toNat < 128 ∧ keep (Char.ofNat byte.toNat) = true then [Char.ofNat byte.toNat]
  else escapeByte byte

def utf8 (text : List Char) : List UInt8 := text.flatMap String.utf8EncodeChar

def percentEncode (keep : Char → Bool) (text : List Char) : List Char :=
  (utf8 text).flatMap (encodeByte keep)

/-- The byte of an escape's two digits. -/
def hexByte (high low : Char) : Option UInt8 := do
  let high ← hexValue high
  let low ← hexValue low
  return UInt8.ofNat (16 * high + low)

/-- Decode every escape once. -/
def percentDecode : List Char → List UInt8
  | [] => []
  | '%' :: high :: low :: rest =>
      match hexByte high low with
      | some byte => byte :: percentDecode rest
      | none => '%'.val.toUInt8 :: percentDecode (high :: low :: rest)
  | c :: rest => String.utf8EncodeChar c ++ percentDecode rest

/-- A character other than a percent sign decodes to its own bytes. -/
theorem percentDecode_cons {c : Char} (plain : c ≠ '%') (rest : List Char) :
    percentDecode (c :: rest) = String.utf8EncodeChar c ++ percentDecode rest := by
  rw [percentDecode]
  intro _ _ _ percent
  exact absurd percent plain

/-- Two hexadecimal digits are read back as the byte they were written from. -/
theorem hexByte_hexDigit (byte : UInt8) :
    hexByte (hexDigit (byte.toNat / 16)) (hexDigit (byte.toNat % 16)) = some byte := by
  have digit : ∀ n < 16, hexValue (hexDigit n) = some n := by decide
  have bound := byte.toNat_lt
  rw [hexByte, digit _ (by omega), digit _ (by omega)]
  change some (UInt8.ofNat (16 * (byte.toNat / 16) + byte.toNat % 16)) = some byte
  rw [Nat.div_add_mod, UInt8.ofNat_toNat]

theorem percentDecode_escapeByte (byte : UInt8) (rest : List Char) :
    percentDecode (escapeByte byte ++ rest) = byte :: percentDecode rest := by
  simp only [escapeByte, List.cons_append, List.nil_append, percentDecode, hexByte_hexDigit]

/-- An ASCII character is its byte. -/
theorem utf8EncodeChar_ofNat {byte : UInt8} (ascii : byte.toNat < 128) :
    String.utf8EncodeChar (Char.ofNat byte.toNat) = [byte] := by
  have each : ∀ n < 128, String.utf8EncodeChar (Char.ofNat n) = [UInt8.ofNat n] := by decide
  rw [each _ ascii, UInt8.ofNat_toNat]

/-- A byte is decoded back, escaped or not. -/
theorem percentDecode_encodeByte {keep : Char → Bool} (percent : keep '%' = false) (byte : UInt8)
    (rest : List Char) : percentDecode (encodeByte keep byte ++ rest) = byte :: percentDecode rest := by
  unfold encodeByte
  split
  · rename_i kept
    have plain : Char.ofNat byte.toNat ≠ '%' := by
      intro same
      rw [same, percent] at kept
      cases kept.2
    rw [List.singleton_append, percentDecode_cons plain, utf8EncodeChar_ofNat kept.1]
    rfl
  · exact percentDecode_escapeByte byte rest

/-- Decoding gives back what was encoded. -/
theorem percentDecode_percentEncode {keep : Char → Bool} (percent : keep '%' = false)
    (text rest : List Char) :
    percentDecode (percentEncode keep text ++ rest) = utf8 text ++ percentDecode rest := by
  unfold percentEncode
  induction utf8 text with
  | nil => rfl
  | cons byte bytes ih =>
      rw [List.flatMap_cons, List.append_assoc, percentDecode_encodeByte percent, ih]
      rfl

/-- A slash is no hexadecimal digit. -/
theorem hexByte_slash (c : Char) : hexByte c '/' = none ∧ hexByte '/' c = none := by
  have none_ : hexValue '/' = none := by decide
  unfold hexByte
  rw [none_]
  constructor
  · cases hexValue c <;> rfl
  · rfl

/-- No escape reaches past a slash. -/
theorem percentDecode_append_slash (text rest : List Char) :
    percentDecode (text ++ '/' :: rest) = percentDecode text ++ percentDecode ('/' :: rest) := by
  fun_induction percentDecode text with
  | case1 => rfl
  | case2 high low text byte read ih =>
      simp only [List.cons_append, percentDecode, read, ih]
  | case3 high low text unread ih =>
      simp only [List.cons_append, percentDecode, unread] at ih ⊢
      rw [ih]
  | case4 c text other ih =>
      rw [List.cons_append, List.append_assoc, ← ih]
      by_cases percent : c = '%'
      · subst percent
        match text with
        | [] =>
            cases rest with
            | nil => rfl
            | cons d rest => simp only [List.nil_append, percentDecode, (hexByte_slash d).2]; rfl
        | [d] => simp only [List.cons_append, List.nil_append, percentDecode, (hexByte_slash d).1]; rfl
        | high :: low :: rest => exact (other high low rest rfl rfl).elim
      · exact percentDecode_cons percent _

/-! ### Parsing -/

def isSlash (c : Char) : Bool := c == '/' || c == '\\'

/-- C0 controls and the space. -/
def isC0OrSpace (c : Char) : Bool := c.toNat ≤ 0x20

def isTabOrNewline (c : Char) : Bool := c == '\t' || c == '\n' || c == '\r'

def endsAuthority (c : Char) : Bool := isSlash c || c == '?' || c == '#'

/-- The characters that are escaped in a path. -/
def inPathSet (c : Char) : Bool :=
  c.toNat < 0x20 || 0x7E < c.toNat ||
    [' ', '"', '#', '<', '>', '?', '`', '\x7b', '\x7d'].contains c

def encodePathChar (c : Char) : List Char :=
  if inPathSet c then (String.utf8EncodeChar c).flatMap escapeByte else [c]

def encodePath (segment : List Char) : List Char := segment.flatMap encodePathChar

def isSingleDot (segment : List Char) : Bool :=
  [".", "%2e", "%2E"].any fun dot => dot.toList == segment

def isDoubleDot (segment : List Char) : Bool :=
  ["..", "%2e%2e", "%2e%2E", "%2E%2e", "%2E%2E", "%2e.", "%2E.", ".%2e", ".%2E"].any fun dots =>
    dots.toList == segment

/-- The path after a segment that a slash follows. -/
def enter (path : List (List Char)) (segment : List Char) : List (List Char) :=
  if isDoubleDot segment then path.dropLast
  else if isSingleDot segment then path
  else path ++ [encodePath segment]

/-- The path after the last segment. -/
def finish (path : List (List Char)) (segment : List Char) : List (List Char) :=
  if isDoubleDot segment then path.dropLast ++ [[]]
  else if isSingleDot segment then path ++ [[]]
  else path ++ [encodePath segment]

def resolve (segments : List (List Char)) : List (List Char) :=
  finish (segments.dropLast.foldl enter []) (segments.getLast?.getD [])

/-- The segments a path's text is cut into. -/
def pathSegments (text : List Char) : List (List Char) :=
  match text with
  | [] => [[]]
  | c :: rest => if isSlash c then rest.splitOnP isSlash else text.splitOnP isSlash

variable {Host : Type}

/-- The path as it is sent. -/
def pathText (path : List (List Char)) : List Char := path.flatMap fun segment => '/' :: segment

/-- Cut off what follows a delimiter. -/
def cutAt (delimiter : Char) (text : List Char) : List Char × Option (List Char) :=
  match splitOnce delimiter text with
  | some (before, after) => (before, some after)
  | none => (text, none)

/-- A URL from its path on. -/
def parseTail (scheme : List Char) (host : Host) (tail : List Char) : Url Host :=
  let (rest, fragment) := cutAt '#' tail
  let (path, query) := cutAt '?' rest
  ⟨scheme, host, resolve (pathSegments path), query, fragment⟩

/-- A URL behind its scheme. -/
def parseRest (readHost : List Char → Option Host) (scheme rest : List Char) : Option (Url Host) :=
  let rest := rest.dropWhile isSlash
  let authority := rest.takeWhile (!endsAuthority ·)
  if authority = [] then none
  else (readHost authority).map fun host =>
    parseTail scheme host (rest.dropWhile (!endsAuthority ·))

/-- What is left of a text before it is read. -/
def stripped (text : List Char) : List Char :=
  ((text.dropWhile isC0OrSpace).rdropWhile isC0OrSpace).filter (!isTabOrNewline ·)

/-- Parse a URL of one of HTTP's schemes; `readHost` reads what stands before the path. -/
def parse (readHost : List Char → Option Host) (text : List Char) : Option (Url Host) :=
  match splitOnce ':' (stripped text) with
  | none => none
  | some (scheme, rest) =>
      let scheme := scheme.map Char.toLower
      if scheme = "http".toList ∨ scheme = "https".toList then parseRest readHost scheme rest
      else none

/-! ### What is encoded for a path -/

/-- A character that stands for itself in a path. -/
def isPlain (c : Char) : Bool := !inPathSet c && c != '\\'

/-- Of the characters that are kept, all stand for themselves in a path, and dots and slashes are
among them. -/
structure PathSafe (keep : Char → Bool) : Prop where
  plain : ∀ c, keep c = true → isPlain c = true
  percent : keep '%' = false
  slash : keep '/' = true

section Encoded

variable {keep : Char → Bool}

/-- A hexadecimal digit is a plain character and no slash. -/
theorem hexDigit_spec (n : Nat) (small : n < 16) :
    isPlain (hexDigit n) = true ∧ isSlash (hexDigit n) = false := by
  revert n
  decide

/-- The characters of an escape are plain, and none is a slash. -/
theorem mem_escapeByte {byte : UInt8} {c : Char} (mem : c ∈ escapeByte byte) :
    isPlain c = true ∧ isSlash c = false := by
  have bound := byte.toNat_lt
  simp only [escapeByte, List.mem_cons, List.not_mem_nil, or_false] at mem
  rcases mem with rfl | rfl | rfl
  · decide
  · exact hexDigit_spec _ (by omega)
  · exact hexDigit_spec _ (by omega)

/-- An encoded character is of an escape, or one that was kept. -/
theorem mem_percentEncode {text : List Char} {c : Char} (mem : c ∈ percentEncode keep text) :
    (isPlain c = true ∧ isSlash c = false) ∨ (keep c = true ∧ c ∈ text) := by
  obtain ⟨byte, inText, mem⟩ := List.mem_flatMap.mp mem
  unfold encodeByte at mem
  split at mem
  · rename_i kept
    rw [List.mem_singleton] at mem
    subst mem
    have inBytes : byte ∈ asBytes (String.ofList text) := by
      rwa [asBytes_eq_flatMap, String.toList_ofList]
    obtain ⟨c, here, same⟩ := mem_of_mem_asBytes kept.1 inBytes
    rw [String.toList_ofList] at here
    rw [← same, Char.ofNat_toNat] at kept ⊢
    exact .inr ⟨kept.2, here⟩
  · exact .inl (mem_escapeByte mem)

/-- Whatever is encoded, the result is plain. -/
theorem plain_percentEncode (safe : PathSafe keep) (text : List Char) :
    ∀ c ∈ percentEncode keep text, isPlain c = true := by
  intro c mem
  rcases mem_percentEncode mem with ⟨plain, -⟩ | ⟨kept, -⟩
  · exact plain
  · exact safe.plain c kept

theorem percentEncode_cons (c : Char) (text : List Char) :
    percentEncode keep (c :: text) = percentEncode keep [c] ++ percentEncode keep text := by
  simp [percentEncode, utf8]

theorem percentEncode_append (text other : List Char) :
    percentEncode keep (text ++ other) = percentEncode keep text ++ percentEncode keep other := by
  simp [percentEncode, utf8]

/-- A slash is kept. -/
theorem percentEncode_slash (safe : PathSafe keep) : percentEncode keep ['/'] = ['/'] := by
  have byte : utf8 ['/'] = [47] := by decide
  have kept : encodeByte keep 47 = ['/'] := if_pos ⟨by decide, safe.slash⟩
  rw [percentEncode, byte, List.flatMap_singleton, kept]

/-- Encoding keeps the slashes where they were. -/
theorem percentEncode_cut (safe : PathSafe keep) (text rest : List Char) :
    percentEncode keep (text ++ '/' :: rest) =
      percentEncode keep text ++ '/' :: percentEncode keep rest := by
  rw [percentEncode_append, percentEncode_cons '/', percentEncode_slash safe, List.singleton_append]

/-- Encoding makes no slash. -/
theorem isSlash_percentEncode (safe : PathSafe keep) {text : List Char} (noSlash : '/' ∉ text) :
    ∀ c ∈ percentEncode keep text, isSlash c = false := by
  intro c mem
  rcases mem_percentEncode mem with ⟨-, clean⟩ | ⟨kept, inText⟩
  · exact clean
  · have plain := safe.plain c kept
    simp only [isPlain, Bool.and_eq_true, bne_iff_ne, ne_eq] at plain
    have other : c ≠ '/' := fun same => noSlash (same ▸ inText)
    simp [isSlash, other, plain.2]

/-- Text without separators before a text joins its first part. -/
theorem splitOnP_glue {p : Char → Bool} {start : List Char} (clean : ∀ c ∈ start, p c = false)
    (text : List Char) :
    (start ++ text).splitOnP p = (text.splitOnP p).modifyHead (start ++ ·) := by
  induction start with
  | nil =>
      obtain ⟨head, tail, split⟩ := List.exists_cons_of_ne_nil (List.splitOnP_ne_nil p text)
      simp [split]
  | cons c start ih =>
      rw [List.forall_mem_cons] at clean
      obtain ⟨head, tail, split⟩ := List.exists_cons_of_ne_nil (List.splitOnP_ne_nil p text)
      rw [List.cons_append, List.splitOnP_cons_eq_if_modifyHead, clean.1, ih clean.2, split]
      rfl

/-- Only the slashes of a text cut what is encoded. -/
theorem splitOnP_percentEncode (safe : PathSafe keep) (text : List Char) :
    (percentEncode keep text).splitOnP isSlash =
      (text.splitOn '/').map (percentEncode keep) := by
  induction text with
  | nil => rfl
  | cons c text ih =>
      rw [percentEncode_cons, List.splitOn_cons_eq_if_modifyHead]
      by_cases slash : c = '/'
      · subst slash
        rw [percentEncode_slash safe, List.singleton_append, List.splitOnP_cons_eq_if_modifyHead,
          if_pos (by decide), if_pos (by decide), ih]
        rfl
      · have clean : ∀ d ∈ percentEncode keep [c], isSlash d = false :=
          isSlash_percentEncode safe (by simpa using Ne.symm slash)
        obtain ⟨head, tail, split⟩ := List.exists_cons_of_ne_nil (List.splitOn_ne_nil '/' text)
        rw [splitOnP_glue clean, ih, split, if_neg (by simpa using slash)]
        simp [percentEncode_cons c head]

/-- Texts of the same UTF-8 bytes are the same. -/
theorem utf8_injective {text other : List Char} (same : utf8 text = utf8 other) : text = other := by
  have bytes : asBytes (String.ofList text) = asBytes (String.ofList other) := by
    rw [asBytes_eq_flatMap, asBytes_eq_flatMap, String.toList_ofList, String.toList_ofList]
    exact same
  exact String.ofList_injective (asBytes_injective bytes)

/-- What was encoded decodes to the bytes of the text. -/
theorem percentDecode_encoded (safe : PathSafe keep) (text : List Char) :
    percentDecode (percentEncode keep text) = utf8 text := by
  have decoded := percentDecode_percentEncode safe.percent text []
  rwa [List.append_nil, percentDecode, List.append_nil] at decoded

/-- What is encoded is a dot segment only if the text was. -/
theorem isSingleDot_percentEncode (safe : PathSafe keep) {segment : List Char}
    (dot : isSingleDot (percentEncode keep segment) = true) : segment = ['.'] := by
  have forms : ∀ form ∈ [".", "%2e", "%2E"], percentDecode form.toList = utf8 ['.'] := by
    decide
  obtain ⟨form, mem, same⟩ := List.any_eq_true.mp dot
  apply utf8_injective
  rw [← percentDecode_encoded safe segment, ← eq_of_beq same, forms form mem]

/-- Only the two dots themselves are encoded to a double dot segment. -/
theorem isDoubleDot_percentEncode (safe : PathSafe keep) {segment : List Char}
    (dots : isDoubleDot (percentEncode keep segment) = true) : segment = ['.', '.'] := by
  have forms : ∀ form ∈ ["..", "%2e%2e", "%2e%2E", "%2E%2e", "%2E%2E", "%2e.", "%2E.", ".%2e",
      ".%2E"], percentDecode form.toList = utf8 ['.', '.'] := by
    decide
  obtain ⟨form, mem, same⟩ := List.any_eq_true.mp dots
  apply utf8_injective
  rw [← percentDecode_encoded safe segment, ← eq_of_beq same, forms form mem]

end Encoded

/-! ### A path behind a base -/

/-- A segment that stays in a path as it is. -/
structure Ordinary (segment : List Char) : Prop where
  notSingle : isSingleDot segment = false
  notDouble : isDoubleDot segment = false
  plain : ∀ c ∈ segment, isPlain c = true

/-- A plain segment is not encoded again. -/
theorem Ordinary.encodePath {segment : List Char} (ordinary : Ordinary segment) :
    encodePath segment = segment := by
  have each : ∀ c ∈ segment, encodePathChar c = [c] := by
    intro c mem
    have plain := ordinary.plain c mem
    simp only [isPlain, Bool.and_eq_true, Bool.not_eq_true'] at plain
    simp [encodePathChar, plain.1]
  rw [Url.encodePath, List.flatMap_congr each, List.flatMap_singleton']

/-- Ordinary segments are entered one below the other. -/
theorem foldl_enter {segments : List (List Char)} (ordinary : ∀ s ∈ segments, Ordinary s)
    (path : List (List Char)) : segments.foldl enter path = path ++ segments := by
  induction segments generalizing path with
  | nil => simp
  | cons segment rest ih =>
      rw [List.forall_mem_cons] at ordinary
      have entered : enter path segment = path ++ [segment] := by
        simp [enter, ordinary.1.notDouble, ordinary.1.notSingle, ordinary.1.encodePath]
      rw [List.foldl_cons, entered, ih ordinary.2, List.append_assoc, List.singleton_append]

/-- Ordinary segments at the end stay there; only those before them are resolved. -/
theorem resolve_append {front back : List (List Char)} (some_ : back ≠ [])
    (ordinary : ∀ s ∈ back, Ordinary s) :
    resolve (front ++ back) = front.foldl enter [] ++ back := by
  obtain ⟨inner, last, rfl⟩ := (List.eq_nil_or_concat back).resolve_left some_
  rw [List.concat_eq_append] at ordinary ⊢
  have ofLast := ordinary last (by simp)
  have finished : ∀ path, finish path last = path ++ [last] := by
    intro path
    simp [finish, ofLast.notDouble, ofLast.notSingle, ofLast.encodePath]
  rw [resolve, ← List.append_assoc, List.dropLast_concat, List.getLast?_concat, Option.getD_some,
    List.foldl_append, foldl_enter fun s mem => ordinary s (List.mem_append_left _ mem), finished,
    List.append_assoc]

/-- The segments after a slash are those of the text behind it. -/
theorem pathSegments_append (text : List Char) :
    ∃ front, ∀ rest, pathSegments (text ++ '/' :: rest) = front ++ rest.splitOnP isSlash := by
  cases text with
  | nil => exact ⟨[], fun _ => rfl⟩
  | cons c text =>
      cases slash : isSlash c with
      | true =>
          refine ⟨text.splitOnP isSlash, fun rest => ?_⟩
          rw [List.cons_append, pathSegments, if_pos slash, List.splitOnP_append_cons _ _ rfl]
      | false =>
          refine ⟨(c :: text).splitOnP isSlash, fun rest => ?_⟩
          rw [List.cons_append, pathSegments, if_neg (by simp [slash]), ← List.cons_append,
            List.splitOnP_append_cons _ _ rfl]

/-- A plain character is not trimmed or dropped, and ends no part of a URL. -/
theorem isPlain_spec {c : Char} (plain : isPlain c = true) :
    isC0OrSpace c = false ∧ isTabOrNewline c = false ∧ c ≠ '#' ∧ c ≠ '?' := by
  simp only [isPlain, inPathSet, Bool.and_eq_true, Bool.not_eq_true', Bool.or_eq_false_iff,
    decide_eq_false_iff_not, List.contains_eq_mem, List.mem_cons, not_or] at plain
  obtain ⟨⟨⟨low, -⟩, notListed⟩, -⟩ := plain
  have space : c.toNat ≠ 0x20 := fun same => notListed.1 (Char.toNat_inj.mp same)
  refine ⟨?_, ?_, notListed.2.2.1, notListed.2.2.2.2.2.1⟩
  · simp only [isC0OrSpace, decide_eq_false_iff_not]
    omega
  · have far : ∀ d : Char, d.toNat < 0x20 → c ≠ d := by
      rintro d small rfl
      exact low small
    simp [isTabOrNewline, far '\t' (by decide), far '\n' (by decide), far '\r' (by decide)]

/-- A text without the delimiter is not cut. -/
theorem cutAt_clean {delimiter : Char} {text : List Char} (clean : delimiter ∉ text) :
    cutAt delimiter text = (text, none) := by
  rw [cutAt, splitOnce_eq_none.mpr clean]

/-- A text that was not cut has no delimiter. -/
theorem notMem_of_cutAt {delimiter : Char} {text : List Char}
    (uncut : (cutAt delimiter text).2 = none) : delimiter ∉ text := by
  unfold cutAt at uncut
  split at uncut
  · cases uncut
  · rename_i none_
    exact splitOnce_eq_none.mp none_

/-- What is put behind a base: it stands for itself, and none of its segments is a dot segment. -/
structure Tail (rest : List Char) : Prop where
  plain : ∀ c ∈ rest, isPlain c = true
  ordinary : ∀ s ∈ rest.splitOnP isSlash, Ordinary s

theorem Tail.empty : Tail [] where
  plain := by simp
  ordinary := by
    intro s mem
    rw [List.splitOnP_nil, List.mem_singleton] at mem
    subst mem
    exact ⟨rfl, rfl, by simp⟩

section Base

variable {readHost : List Char → Option Host} {scheme base rest : List Char} {url : Url Host}

/-- A path appended to a URL without query or fragment replaces its last, empty
segment. -/
theorem parseTail_append {host : Host}
    (query : (parseTail scheme host (base ++ ['/'])).query = none)
    (fragment : (parseTail scheme host (base ++ ['/'])).fragment = none) (tail : Tail rest) :
    parseTail scheme host (base ++ '/' :: rest) =
      { parseTail scheme host (base ++ ['/']) with
        path := (parseTail scheme host (base ++ ['/'])).path.dropLast ++ rest.splitOnP isSlash } := by
  have noHash : '#' ∉ base ++ ['/'] := notMem_of_cutAt fragment
  have whole : parseTail scheme host (base ++ ['/']) =
      ⟨scheme, host, resolve (pathSegments (cutAt '?' (base ++ ['/'])).1),
        (cutAt '?' (base ++ ['/'])).2, none⟩ := by
    simp only [parseTail, cutAt_clean noHash]
  rw [whole] at query ⊢
  have noMark : '?' ∉ base ++ ['/'] := notMem_of_cutAt query
  -- The base ends without a query or fragment and the tail adds none, so only the path grows.
  have clean : ∀ d, d ∉ base ++ ['/'] → d ∉ rest → d ∉ base ++ '/' :: rest := by
    intro d notBase notRest
    simp only [List.mem_append, List.mem_cons, List.not_mem_nil, or_false, not_or] at notBase ⊢
    exact ⟨notBase.1, notBase.2, notRest⟩
  have noHash' := clean '#' noHash fun mem => (isPlain_spec (tail.plain _ mem)).2.2.1 rfl
  have noMark' := clean '?' noMark fun mem => (isPlain_spec (tail.plain _ mem)).2.2.2 rfl
  obtain ⟨front, segments⟩ := pathSegments_append base
  have path : resolve (front ++ rest.splitOnP isSlash) =
      front.foldl enter [] ++ rest.splitOnP isSlash :=
    resolve_append (List.splitOnP_ne_nil isSlash rest) tail.ordinary
  -- The base's own path ends in one empty segment, which the tail replaces.
  have basePath : resolve (front ++ [].splitOnP isSlash) =
      front.foldl enter [] ++ [].splitOnP isSlash :=
    resolve_append (List.splitOnP_ne_nil isSlash []) Tail.empty.ordinary
  rw [List.splitOnP_nil] at basePath
  simp only [parseTail, cutAt_clean noHash', cutAt_clean noMark', cutAt_clean noMark, segments, path,
    basePath, List.splitOnP_nil, List.dropLast_concat]

/-- Taking stops at the first character that fails the test. -/
theorem takeWhile_stop {p : Char → Bool} {c : Char} (stops : p c = false) (text rest : List Char) :
    (text ++ c :: rest).takeWhile p = text.takeWhile p := by
  induction text with
  | nil => simp [stops]
  | cons d text ih => rw [List.cons_append, List.takeWhile_cons, List.takeWhile_cons, ih]

/-- Dropping stops at the first character that fails the test. -/
theorem dropWhile_stop {p : Char → Bool} {c : Char} (stops : p c = false) (text rest : List Char) :
    (text ++ c :: rest).dropWhile p = text.dropWhile p ++ c :: rest := by
  induction text with
  | nil => simp [stops]
  | cons d text ih =>
      rw [List.cons_append, List.dropWhile_cons, List.dropWhile_cons, ih]
      split <;> rfl

/-- The same behind a scheme: the appended path alone changes. -/
theorem parseRest_append (parsed : parseRest readHost scheme (base ++ ['/']) = some url)
    (query : url.query = none) (fragment : url.fragment = none) (tail : Tail rest) :
    parseRest readHost scheme (base ++ '/' :: rest) =
      some { url with path := url.path.dropLast ++ rest.splitOnP isSlash } := by
  have authority := takeWhile_stop (p := (!endsAuthority ·)) (c := '/') rfl
  have tail_ := dropWhile_stop (p := (!endsAuthority ·)) (c := '/') rfl
  unfold parseRest at parsed ⊢
  rw [List.dropWhile_append] at parsed ⊢
  cases host : base.dropWhile isSlash with
  | nil =>
      rw [host] at parsed
      cases parsed
  | cons c text =>
      rw [host] at parsed
      simp only [List.isEmpty_cons, Bool.false_eq_true, if_false, authority, tail_] at parsed ⊢
      split at parsed
      · cases parsed
      · rename_i some_
        obtain ⟨read, found, rfl⟩ := Option.map_eq_some_iff.mp parsed
        rw [if_neg some_, found, Option.map_some, parseTail_append query fragment tail]

/-- Trimming leaves a plain tail as it is. -/
theorem stripped_append (base : List Char) (tail : Tail rest) :
    stripped (base ++ '/' :: rest) =
      (base.dropWhile isC0OrSpace).filter (!isTabOrNewline ·) ++ '/' :: rest := by
  have plain : ∀ c ∈ '/' :: rest, isC0OrSpace c = false ∧ isTabOrNewline c = false := by
    intro c mem
    rcases List.mem_cons.mp mem with rfl | mem
    · exact ⟨rfl, rfl⟩
    · have spec := isPlain_spec (tail.plain c mem)
      exact ⟨spec.1, spec.2.1⟩
  have last : (base.dropWhile isC0OrSpace ++ '/' :: rest).rdropWhile isC0OrSpace =
      base.dropWhile isC0OrSpace ++ '/' :: rest := by
    rw [List.rdropWhile_eq_self_iff]
    intro some_
    rw [List.getLast_append_of_ne_nil _ (List.cons_ne_nil _ _)]
    have ends := plain _ (List.getLast_mem (List.cons_ne_nil '/' rest))
    simp [ends.1]
  have kept : ('/' :: rest).filter (!isTabOrNewline ·) = '/' :: rest := by
    rw [List.filter_eq_self]
    intro c mem
    simp [(plain c mem).2]
  rw [stripped, dropWhile_stop rfl, last, List.filter_append, kept]

/-- A text put behind a base is put behind its path. -/
theorem parse_append (parsed : parse readHost (base ++ ['/']) = some url)
    (query : url.query = none) (fragment : url.fragment = none) (tail : Tail rest) :
    parse readHost (base ++ '/' :: rest) =
      some { url with path := url.path.dropLast ++ rest.splitOnP isSlash } := by
  unfold parse at parsed ⊢
  rw [stripped_append base Tail.empty] at parsed
  rw [stripped_append base tail]
  by_cases colon : ':' ∈ (base.dropWhile isC0OrSpace).filter (!isTabOrNewline ·)
  · obtain ⟨before, after, same, first⟩ := List.eq_append_cons_of_mem colon
    rw [same] at parsed ⊢
    simp only [List.append_assoc, List.cons_append, splitOnce_append first] at parsed ⊢
    split at parsed
    · rename_i http
      rw [if_pos http]
      exact parseRest_append parsed query fragment tail
    · cases parsed
  · have none_ : splitOnce ':'
        ((base.dropWhile isC0OrSpace).filter (!isTabOrNewline ·) ++ ['/']) = none := by
      rw [splitOnce_eq_none, List.mem_append, not_or]
      exact ⟨colon, by decide⟩
    rw [none_] at parsed
    cases parsed

end Base

/-! ### An encoded path behind a base -/

/-- An encoded text without dot segments can be appended to a URL. -/
theorem tail_percentEncode {keep : Char → Bool} (safe : PathSafe keep) {text : List Char}
    (noDots : ∀ s ∈ text.splitOn '/', s ≠ ['.'] ∧ s ≠ ['.', '.']) :
    Tail (percentEncode keep text) where
  plain := plain_percentEncode safe text
  ordinary := by
    rw [splitOnP_percentEncode safe]
    intro s mem
    obtain ⟨segment, inText, rfl⟩ := List.mem_map.mp mem
    have other := noDots segment inText
    exact ⟨Bool.eq_false_iff.mpr (mt (isSingleDot_percentEncode safe) other.1),
      Bool.eq_false_iff.mpr (mt (isDoubleDot_percentEncode safe) other.2),
      plain_percentEncode safe segment⟩

/-- A path is written back from its segments. -/
theorem pathText_splitOnP {text : List Char} (clean : '\\' ∉ text) :
    pathText (text.splitOnP isSlash) = '/' :: text := by
  induction text with
  | nil => rfl
  | cons c text ih =>
      rw [List.mem_cons, not_or] at clean
      have rest := ih clean.2
      obtain ⟨head, tail, split⟩ := List.exists_cons_of_ne_nil (List.splitOnP_ne_nil isSlash text)
      rw [List.splitOnP_cons_eq_if_modifyHead]
      split
      · rename_i slash
        have same : c = '/' := by simpa [isSlash, Ne.symm clean.1] using slash
        rw [same, pathText, List.flatMap_cons]
        exact congrArg (['/'] ++ ·) rest
      · rw [split] at rest ⊢
        rw [pathText, List.flatMap_cons] at rest
        rw [List.modifyHead_cons, pathText, List.flatMap_cons]
        exact congrArg (fun text => '/' :: c :: text) (List.cons.inj rest).2

variable {keep : Char → Bool} {readHost : List Char → Option Host} {base text : List Char}
variable {url : Url Host}

/-- An encoded text behind a base: one segment of the path for each segment of the text. -/
theorem parse_append_percentEncode (safe : PathSafe keep)
    (parsed : parse readHost (base ++ ['/']) = some url) (query : url.query = none)
    (fragment : url.fragment = none)
    (noDots : ∀ s ∈ text.splitOn '/', s ≠ ['.'] ∧ s ≠ ['.', '.']) :
    parse readHost (base ++ '/' :: percentEncode keep text) =
      some { url with path := url.path.dropLast ++ (text.splitOn '/').map (percentEncode keep) } := by
  rw [parse_append parsed query fragment (tail_percentEncode safe noDots),
    splitOnP_percentEncode safe]

/-- Decoded, the path is the base's and the text. -/
theorem percentDecode_pathText (safe : PathSafe keep) (path : List (List Char)) :
    percentDecode (pathText (path ++ (text.splitOn '/').map (percentEncode keep))) =
      percentDecode (pathText path) ++ utf8 ('/' :: text) := by
  have noBackslash : '\\' ∉ percentEncode keep text := fun mem =>
    absurd (plain_percentEncode safe text _ mem) (by decide)
  have tail := pathText_splitOnP noBackslash
  rw [splitOnP_percentEncode safe] at tail
  have whole : pathText (path ++ (text.splitOn '/').map (percentEncode keep)) =
      pathText path ++ '/' :: percentEncode keep text := by
    rw [← tail, pathText, List.flatMap_append]
    rfl
  rw [whole, percentDecode_append_slash, percentDecode_cons (by decide), percentDecode_encoded safe]
  rfl

end Url

end GmMiner.Lib
