import GmMiner.Json.Value
import GmMiner.Lib.KeyedLines
import GmMiner.Lib.LossyUtf8
import GmMiner.Lib.Split
import GmMiner.Text

/-!
The content events of a probe's answer: `SseParser` of `cli/src/commands/streaming_check.rs`.

A chunk is decoded on its own, and its lines are read when their line feed comes. What is recorded
are the events of the decoded text, each at the chunk that its last line feed is in
(`contentOffsets_eq`).
-/

namespace GmMiner.Cli

open GmMiner.Json
open GmMiner.Lib (splitOnce_eq_none splitOnce_eq_some)
open GmMiner.Lib.KeyedLines (splitOnce)
open GmMiner.Lib.LossyUtf8 (lossy)

/-! ### Generated text -/

mutual

/-- `json_has_generated_text`. -/
def jsonHasGeneratedText : Value → Bool
  | .array values => anyHasGeneratedText values
  | .object members => anyMemberHasGeneratedText members
  | .null | .bool _ | .number _ | .string _ => false

def anyHasGeneratedText : List Value → Bool
  | [] => false
  | value :: values => jsonHasGeneratedText value || anyHasGeneratedText values

def anyMemberHasGeneratedText : List (String × Value) → Bool
  | [] => false
  | (key, value) :: members =>
      (if key = "content" ∨ key = "text" then valueContainsGeneratedText value
        else (key = "choices" ∨ key = "delta" ∨ key = "message" ∨ key = "content_block" ∨
          key = "candidates" ∨ key = "parts") && jsonHasGeneratedText value) ||
        anyMemberHasGeneratedText members

/-- `value_contains_generated_text`. -/
def valueContainsGeneratedText : Value → Bool
  | .string text => !(trim text.toList).isEmpty
  | .array values => anyHasGeneratedText values
  | .object members => anyMemberHasGeneratedText members
  | .null | .bool _ | .number _ => false

end

/-! ### The parser -/

/-- `SseParser`. -/
structure SseParser where
  pending : List Char := []
  data : List Char := []
  contentOffsets : List Nat := []
  lastOffset : Nat := 0
  deriving DecidableEq, Repr

/-- The chunks of an answer, each with the time it arrives. -/
abbrev Arrivals := List (List UInt8 × Nat)

/-- `str::trim_end_matches` with a carriage return. -/
def trimReturns (line : List Char) : List Char := line.rdropWhile (· == '\r')

section Parser

-- `serde_json::from_str`
variable (fromStr : List Char → Option Value)

def sseEventHasContent (data : List Char) : Bool := (fromStr data).any jsonHasGeneratedText

def SseParser.finishEvent (parser : SseParser) (offset : Nat) : SseParser :=
  let data := trim parser.data
  let contentOffsets :=
    if !data.isEmpty && data != "[DONE]".toList && sseEventHasContent fromStr data then
      parser.contentOffsets ++ [offset]
    else parser.contentOffsets
  { parser with contentOffsets, data := [] }

def SseParser.pushLine (parser : SseParser) (line : List Char) (offset : Nat) : SseParser :=
  if line.isEmpty then parser.finishEvent fromStr offset
  else
    match stripPrefix "data:".toList line with
    | some data =>
        let before := if parser.data.isEmpty then [] else parser.data ++ ['\n']
        { parser with data := before ++ trimStart data }
    | none => parser

/-- The loop of `push_chunk`, one line a round. -/
def SseParser.drain (offset : Nat) : Nat → SseParser → SseParser
  | 0, parser => parser
  | rounds + 1, parser =>
      match splitOnce '\n' parser.pending with
      | none => parser
      | some (line, rest) =>
          SseParser.drain offset rounds
            (({ parser with pending := rest }).pushLine fromStr (trimReturns line) offset)

def SseParser.pushChunk (parser : SseParser) (chunk : List UInt8) (offset : Nat) : SseParser :=
  let pending := parser.pending ++ lossy chunk
  SseParser.drain fromStr offset pending.length { parser with pending, lastOffset := offset }

def SseParser.finish (parser : SseParser) : List Nat :=
  let parser :=
    if parser.pending.isEmpty then parser
    else ({ parser with pending := [] }).pushLine fromStr (trimReturns parser.pending)
      parser.lastOffset
  (parser.finishEvent fromStr parser.lastOffset).contentOffsets

/-- What `run_provider_probe` reads off the chunks of an answer. -/
def contentOffsets (chunks : Arrivals) : List Nat :=
  (chunks.foldl (fun parser chunk => SseParser.pushChunk fromStr parser chunk.1 chunk.2)
    {}).finish fromStr

end Parser

/-! ### Lines and events -/

/-- The lines of a sequence of tagged symbols, each with the tag of its line feed. The last line
has none. -/
def taggedLines {A B : Type} (feed : A → Bool) (line : List A) :
    List (A × B) → List (List A × Option B)
  | [] => [(line, none)]
  | (symbol, tag) :: rest =>
      if feed symbol then (line, some tag) :: taggedLines feed [] rest
      else taggedLines feed (line ++ [symbol]) rest

/-- Symbols without line feeds join the line. -/
theorem taggedLines_append {A B : Type} {feed : A → Bool} {run : List (A × B)}
    (plain : ∀ symbol ∈ run, feed symbol.1 = false) (line : List A) (rest : List (A × B)) :
    taggedLines feed line (run ++ rest) = taggedLines feed (line ++ run.map Prod.fst) rest := by
  induction run generalizing line with
  | nil => simp
  | cons symbol run ih =>
      obtain ⟨here, later⟩ := List.forall_mem_cons.mp plain
      rw [List.cons_append, taggedLines, if_neg (by simp [here]), ih later]
      simp

/-- What a line is to an event. -/
inductive LineKind (A : Type) where
  | blank
  | data (payload : List A)
  | other

def LineKind.payloads {A : Type} : LineKind A → List (List A)
  | data payload => [payload]
  | blank | other => []

/-- The events of a sequence of lines: the payloads of their data lines, and the tag of the blank
line that ends them. -/
def eventsOf {A B : Type} (kind : List A → LineKind A) (payloads : List (List A)) :
    List (List A × Option B) → List (List (List A) × Option B)
  | [] => []
  | (line, none) :: _ => [(payloads ++ (kind line).payloads, none)]
  | (line, some tag) :: rest =>
      match kind line with
      | .blank => (payloads, some tag) :: eventsOf kind [] rest
      | .data payload => eventsOf kind (payloads ++ [payload]) rest
      | .other => eventsOf kind payloads rest

def textKind (line : List Char) : LineKind Char :=
  let line := trimReturns line
  if line.isEmpty then .blank
  else
    match stripPrefix "data:".toList line with
    | some payload => .data payload
    | none => .other

/-- The data of an event with its payloads. -/
def joinData (payloads : List (List Char)) : List Char :=
  payloads.foldl (fun data payload =>
    (if data.isEmpty then [] else data ++ ['\n']) ++ trimStart payload) []

theorem joinData_concat (payloads : List (List Char)) (payload : List Char) :
    joinData (payloads ++ [payload]) =
      (if (joinData payloads).isEmpty then [] else joinData payloads ++ ['\n']) ++
        trimStart payload := by
  unfold joinData
  rw [List.foldl_append]
  rfl

section Events

variable (fromStr : List Char → Option Value)

/-- An event with these payloads is counted. -/
def hasContent (payloads : List (List Char)) : Bool :=
  let data := trim (joinData payloads)
  !data.isEmpty && data != "[DONE]".toList && sseEventHasContent fromStr data

/-- The tags of the counted events, the last event's by default. -/
def offsetsOf (last : Nat) (events : List (List (List Char) × Option Nat)) : List Nat :=
  (events.filter fun event => hasContent fromStr event.1).map fun event => event.2.getD last

/-- The characters of an answer as they are decoded, with their times. -/
def decodedSymbols (chunks : Arrivals) : List (Char × Nat) :=
  chunks.flatMap fun chunk => (lossy chunk.1).map fun c => (c, chunk.2)

def textLines (line : List Char) (symbols : List (Char × Nat)) : List (List Char × Option Nat) :=
  taggedLines (· == '\n') line symbols

variable {fromStr}

/-- An event that ends counts if its data have content. -/
theorem finishEvent_eq {parser : SseParser} {payloads : List (List Char)}
    (data : parser.data = joinData payloads) (offset : Nat) :
    parser.finishEvent fromStr offset = { parser with
      contentOffsets := parser.contentOffsets ++
        (if hasContent fromStr payloads then [offset] else [])
      data := [] } := by
  unfold SseParser.finishEvent hasContent
  rw [data]
  dsimp only
  split
  · rfl
  · rw [List.append_nil]

/-- What a line does, by its kind. -/
theorem pushLine_eq {parser : SseParser} {payloads : List (List Char)}
    (data : parser.data = joinData payloads) (line : List Char) (offset : Nat) :
    parser.pushLine fromStr (trimReturns line) offset =
      match textKind line with
      | .blank => { parser with
          contentOffsets := parser.contentOffsets ++
            (if hasContent fromStr payloads then [offset] else [])
          data := [] }
      | .data payload => { parser with data := joinData (payloads ++ [payload]) }
      | .other => parser := by
  unfold SseParser.pushLine textKind
  dsimp only
  split
  · exact finishEvent_eq data offset
  · cases stripPrefix "data:".toList (trimReturns line) with
    | none => rfl
    | some payload =>
        dsimp only
        rw [joinData_concat, data]

/-- Characters without line feeds join the line. -/
theorem textLines_append {run : List Char} (one : '\n' ∉ run) (line : List Char) (offset : Nat)
    (rest : List (Char × Nat)) :
    textLines line ((run.map fun c => (c, offset)) ++ rest) = textLines (line ++ run) rest := by
  unfold textLines
  rw [taggedLines_append]
  · rw [List.map_map]
    exact congrArg (fun run => taggedLines (· == '\n') (line ++ run) rest) (List.map_id _)
  · intro symbol mem
    obtain ⟨c, here, rfl⟩ := List.mem_map.mp mem
    exact beq_false_of_ne fun same => one (same ▸ here)

/-- The lines that a chunk completes, one round after the other. -/
theorem drain_spec (offset last : Nat) (rest : List (Char × Nat)) {rounds : Nat}
    {parser : SseParser} {payloads : List (List Char)} (enough : parser.pending.length ≤ rounds)
    (data : parser.data = joinData payloads) :
    ∃ payloads' drained, SseParser.drain fromStr offset rounds parser = drained ∧
      '\n' ∉ drained.pending ∧ drained.lastOffset = parser.lastOffset ∧
      drained.data = joinData payloads' ∧
      parser.contentOffsets ++ offsetsOf fromStr last (eventsOf textKind payloads
        (textLines [] ((parser.pending.map fun c => (c, offset)) ++ rest))) =
      drained.contentOffsets ++ offsetsOf fromStr last (eventsOf textKind payloads'
        (textLines drained.pending rest)) := by
  induction rounds generalizing parser payloads with
  | zero =>
      have none_ : parser.pending = [] := List.length_eq_zero_iff.mp (Nat.le_zero.mp enough)
      refine ⟨payloads, parser, rfl, ?_, rfl, data, ?_⟩
      · rw [none_]
        exact List.not_mem_nil
      · rw [none_]
        rfl
  | succ rounds ih =>
      rw [SseParser.drain]
      cases split : splitOnce '\n' parser.pending with
      | none =>
          have one := splitOnce_eq_none.mp split
          refine ⟨payloads, parser, rfl, one, rfl, data, ?_⟩
          rw [textLines_append one, List.nil_append]
      | some parts =>
          obtain ⟨line, text⟩ := parts
          obtain ⟨whole, one⟩ := splitOnce_eq_some.mp split
          -- Each round takes one line off what is pending, so as many rounds as characters are
          -- enough.
          have shorter : text.length ≤ rounds := by
            rw [whole, List.length_append, List.length_cons] at enough
            omega
          have lines : textLines [] ((parser.pending.map fun c => (c, offset)) ++ rest) =
              (line, some offset) :: textLines [] ((text.map fun c => (c, offset)) ++ rest) := by
            rw [whole, List.map_append, List.append_assoc, textLines_append one, List.nil_append,
              List.map_cons, List.cons_append]
            rfl
          have pushed :=
            @pushLine_eq fromStr { parser with pending := text } payloads data line offset
          dsimp only
          rw [pushed, lines, eventsOf]
          cases textKind line with
          | blank =>
              obtain ⟨payloads', drained, ran, free, time, data', same⟩ :=
                @ih { parser with
                  pending := text
                  contentOffsets := parser.contentOffsets ++
                    (if hasContent fromStr payloads then [offset] else [])
                  data := [] } [] shorter rfl
              refine ⟨payloads', drained, ran, free, time, data', Eq.trans ?_ same⟩
              dsimp only
              rw [List.append_assoc]
              refine congrArg (parser.contentOffsets ++ ·) ?_
              unfold offsetsOf
              rw [List.filter_cons]
              split
              · rfl
              · rfl
          | data payload =>
              exact @ih { parser with
                pending := text
                data := joinData (payloads ++ [payload]) } _ shorter rfl
          | other => exact @ih { parser with pending := text } _ shorter data

/-- The end of the stream ends the last event too. -/
theorem finish_eq {parser : SseParser} {payloads : List (List Char)}
    (data : parser.data = joinData payloads) :
    parser.finish fromStr = parser.contentOffsets ++ offsetsOf fromStr parser.lastOffset
      [(payloads ++ (textKind parser.pending).payloads, none)] := by
  have counted : ∀ payloads : List (List Char), offsetsOf fromStr parser.lastOffset
      [(payloads, none)] = if hasContent fromStr payloads then [parser.lastOffset] else [] := by
    intro payloads
    unfold offsetsOf
    rw [List.filter_cons]
    split
    · rfl
    · rfl
  rw [counted]
  unfold SseParser.finish
  -- Nothing pending reads as a blank line; anything else is pushed as the last line.
  by_cases some_ : parser.pending.isEmpty
  · have blank : textKind parser.pending = .blank := by
      rw [List.isEmpty_iff.mp some_]
      rfl
    rw [if_pos some_, blank]
    dsimp only
    rw [finishEvent_eq data]
    exact congrArg (fun payloads => parser.contentOffsets ++ if hasContent fromStr payloads then
      [parser.lastOffset] else []) (List.append_nil payloads).symm
  · have pushed := @pushLine_eq fromStr { parser with pending := [] } payloads data
      parser.pending parser.lastOffset
    rw [if_neg some_]
    dsimp only
    rw [pushed]
    cases textKind parser.pending with
    | blank =>
        dsimp only
        rw [@finishEvent_eq fromStr _ [] rfl]
        simp [LineKind.payloads, hasContent, joinData, trim, trimStart, trimEnd]
    | data payload =>
        dsimp only
        rw [@finishEvent_eq fromStr _ (payloads ++ [payload]) rfl]
        rfl
    | other =>
        dsimp only
        rw [@finishEvent_eq fromStr { parser with pending := [] } payloads data]
        simp [LineKind.payloads]

/-- The parser, from any point on, records the events of the text to come. -/
theorem foldl_pushChunk (chunks : Arrivals) {parser : SseParser} {payloads : List (List Char)}
    (free : '\n' ∉ parser.pending) (data : parser.data = joinData payloads) :
    (chunks.foldl (fun parser chunk => SseParser.pushChunk fromStr parser chunk.1 chunk.2)
      parser).finish fromStr =
      parser.contentOffsets ++
        offsetsOf fromStr ((chunks.getLast?.map Prod.snd).getD parser.lastOffset)
          (eventsOf textKind payloads (textLines parser.pending (decodedSymbols chunks))) := by
  induction chunks generalizing parser payloads with
  | nil =>
      exact finish_eq data
  | cons chunk chunks ih =>
      obtain ⟨bytes, offset⟩ := chunk
      obtain ⟨payloads', drained, ran, free', time, data', same⟩ :=
        @drain_spec fromStr offset ((chunks.getLast?.map Prod.snd).getD offset)
          (decodedSymbols chunks) _
          { parser with pending := parser.pending ++ lossy bytes, lastOffset := offset } payloads
          (Nat.le_refl _) data
      have symbols : textLines parser.pending (decodedSymbols ((bytes, offset) :: chunks)) =
          textLines [] (((parser.pending ++ lossy bytes).map fun c => (c, offset)) ++
            decodedSymbols chunks) := by
        rw [List.map_append, List.append_assoc, textLines_append free, List.nil_append]
        rfl
      have last : (((bytes, offset) :: chunks).getLast?.map Prod.snd).getD parser.lastOffset =
          (chunks.getLast?.map Prod.snd).getD offset := by
        cases chunks with
        | nil => rfl
        | cons => rw [List.getLast?_cons_cons]; rfl
      rw [List.foldl_cons, last, symbols]
      refine Eq.trans ?_ same.symm
      change (chunks.foldl _ (SseParser.drain fromStr offset _ _)).finish fromStr = _
      rw [ran, ih free' data', time]

/-- What is recorded are the events of the decoded text. -/
theorem contentOffsets_eq (chunks : Arrivals) :
    contentOffsets fromStr chunks =
      offsetsOf fromStr ((chunks.getLast?.map Prod.snd).getD 0)
        (eventsOf textKind [] (textLines [] (decodedSymbols chunks))) :=
  @foldl_pushChunk fromStr chunks {} [] List.not_mem_nil rfl

end Events

end GmMiner.Cli
