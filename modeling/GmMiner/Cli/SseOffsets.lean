import GmMiner.Cli.SseParser

/-!
The content events of an answer, whichever way its bytes come in chunks.

The bytes alone frame an event: its line feeds, its carriage returns and the names of its data
lines are ASCII. A cut changes no more than the characters that it goes through, and matters where
they decide whether the event has content (`sse_right_iff`).
-/

namespace GmMiner.Cli

open GmMiner.Json GmMiner.Lib.LossyUtf8

/-! ### Events by bytes -/

def dataPrefix : List UInt8 := [100, 97, 116, 97, 58]

def byteKind (line : List UInt8) : LineKind UInt8 :=
  let line := line.rdropWhile (· == 13)
  if line.isEmpty then .blank
  else if dataPrefix.isPrefixOf line then .data (line.drop dataPrefix.length)
  else .other

def byteLines (line : List UInt8) (place : Nat) (bytes : List UInt8) :
    List (List UInt8 × Option Nat) :=
  taggedLines (· == 10) line (bytes.zipIdx place)

/-- The payloads of an event, and the place of the line feed that completes it. -/
abbrev SseEvent := List (List UInt8) × Option Nat

def sseEvents (bytes : List UInt8) : List SseEvent := eventsOf byteKind [] (byteLines [] 0 bytes)

/-! ### What is promised -/

def bytesOf (chunks : Arrivals) : List UInt8 := chunks.flatMap Prod.fst

/-- When the chunk arrives that holds the byte at a place. -/
def arrival : Arrivals → Nat → Nat
  | [], _ => 0
  | (bytes, offset) :: chunks, place =>
      if place < bytes.length then offset else arrival chunks (place - bytes.length)

def lastArrival (chunks : Arrivals) : Nat := (chunks.getLast?.map Prod.snd).getD 0

/-- When the chunk arrives that completes an event. -/
def completion (chunks : Arrivals) (event : SseEvent) : Nat :=
  (event.2.map (arrival chunks)).getD (lastArrival chunks)

/-- The text of an event whose payloads are not cut. -/
def wholeTexts (payloads : List (List UInt8)) : List (List Char) := payloads.map lossy

/-- The same events are counted however the bytes are cut, each when it is complete. -/
structure SseRight (fromStr : List Char → Option Value) (bytes : List UInt8) : Prop where
  count : ∀ chunks chunks', bytesOf chunks = bytes → bytesOf chunks' = bytes →
    (contentOffsets fromStr chunks).length = (contentOffsets fromStr chunks').length
  offsets : ∀ chunks, bytesOf chunks = bytes →
    contentOffsets fromStr chunks =
      ((sseEvents bytes).filter fun event => hasContent fromStr (wholeTexts event.1)).map
        (completion chunks)

/-- What cuts can make of a payload: of each character of several bytes, and of each run that is
not well formed, two or more replacements, up to one a byte. -/
def CutText (payload : List UInt8) (text : List Char) : Prop :=
  ∃ texts, List.Forall₂ Item.Cut (items payload) texts ∧ texts.flatten = text

/-- Whether the event has content does not hang on a character that may be cut. -/
def CutStable (fromStr : List Char → Option Value) (payloads : List (List UInt8)) : Prop :=
  ∀ texts, List.Forall₂ CutText payloads texts →
    hasContent fromStr texts = hasContent fromStr (wholeTexts payloads)

/-! ### Lines -/

theorem ascii_dataPrefix : ∀ byte ∈ dataPrefix, byte.toNat < 0x80 := by simp [dataPrefix]

theorem asciiChar_dataPrefix : dataPrefix.map asciiChar = "data:".toList := by decide

theorem byteKind_data {line payload : List UInt8}
    (split : line.rdropWhile (· == 13) = dataPrefix ++ payload) :
    byteKind line = .data payload := by
  unfold byteKind
  dsimp only
  rw [split, if_neg (by simp [dataPrefix]), if_pos (by simp), List.drop_left]

/-- A line is blank, of data or of something else. -/
theorem byteKind_cases (line : List UInt8) :
    (line.rdropWhile (· == 13) = [] ∧ byteKind line = .blank) ∨
    (∃ payload, line.rdropWhile (· == 13) = dataPrefix ++ payload ∧
      byteKind line = .data payload) ∨
    (line.rdropWhile (· == 13) ≠ [] ∧ ¬ dataPrefix <+: line.rdropWhile (· == 13) ∧
      byteKind line = .other) := by
  by_cases none_ : line.rdropWhile (· == 13) = []
  · refine .inl ⟨none_, ?_⟩
    unfold byteKind
    dsimp only
    rw [none_]
    rfl
  · by_cases begins : dataPrefix <+: line.rdropWhile (· == 13)
    · obtain ⟨payload, split⟩ := begins
      exact .inr (.inl ⟨payload, split.symm, byteKind_data split.symm⟩)
    · refine .inr (.inr ⟨none_, begins, ?_⟩)
      unfold byteKind
      dsimp only
      rw [if_neg (by simpa using none_), if_neg (by simpa using begins)]

theorem textKind_data {text payload : List Char}
    (split : trimReturns text = "data:".toList ++ payload) : textKind text = .data payload := by
  unfold textKind
  dsimp only
  rw [split, stripPrefix_eq_some.mpr rfl]
  rfl

theorem readsAs_trimReturns {line : List UInt8} {text : List Char} (reads : ReadsAs line text) :
    ReadsAs (line.rdropWhile (· == 13)) (trimReturns text) :=
  reads.rdropWhile (by decide : (13 : UInt8).toNat < 0x80)

/-- A line is of the kind that its bytes say, however it is read. -/
theorem textKind_of_readsAs {line : List UInt8} {text : List Char} (reads : ReadsAs line text) :
    match byteKind line with
    | .blank => textKind text = .blank
    | .data payload => ∃ payload', textKind text = .data payload' ∧ ReadsAs payload payload'
    | .other => textKind text = .other := by
  have trimmed := readsAs_trimReturns reads
  rcases byteKind_cases line with ⟨none_, kind⟩ | ⟨payload, split, kind⟩ | ⟨some_, begins, kind⟩
  · rw [kind]
    dsimp only
    unfold textKind
    dsimp only
    rw [trimmed.eq_nil_iff.mp none_]
    rfl
  · rw [kind]
    rw [split] at trimmed
    obtain ⟨payload', same, rest⟩ := trimmed.append_ascii ascii_dataPrefix
    rw [asciiChar_dataPrefix] at same
    exact ⟨payload', textKind_data same, rest⟩
  · rw [kind]
    dsimp only
    unfold textKind
    dsimp only
    rw [if_neg (by simpa using trimmed.eq_nil_iff.not.mp some_)]
    cases stripped : stripPrefix "data:".toList (trimReturns text) with
    | none => rfl
    | some payload' =>
        rw [stripPrefix_eq_some.mp stripped, ← asciiChar_dataPrefix] at trimmed
        obtain ⟨payload, split, -⟩ := trimmed.of_append_ascii ascii_dataPrefix
        exact absurd ⟨payload, split.symm⟩ begins

/-- A reading of the payload is one of the line. -/
theorem exists_text_of_payload {line payload : List UInt8} {payload' : List Char}
    (kind : byteKind line = .data payload) (reads : ReadsAs payload payload') :
    ∃ text, ReadsAs line text ∧ textKind text = .data payload' := by
  have split : line.rdropWhile (· == 13) = dataPrefix ++ payload := by
    rcases byteKind_cases line with ⟨-, other⟩ | ⟨payload'', split, same⟩ | ⟨-, -, other⟩
    · cases kind.symm.trans other
    · cases kind.symm.trans same
      exact split
    · cases kind.symm.trans other
  have ending : ∀ byte ∈ line.rtakeWhile (· == 13), byte = 13 := by
    intro byte mem
    have here := List.mem_rtakeWhile_imp mem
    exact beq_iff_eq.mp here
  have start := (ReadsAs.ascii ascii_dataPrefix).append reads
  rw [asciiChar_dataPrefix] at start
  have returns : ReadsAs (line.rtakeWhile (· == 13)) ((line.rtakeWhile (· == 13)).map asciiChar) :=
    .ascii fun byte mem => by
      rw [ending byte mem]
      decide
  refine ⟨("data:".toList ++ payload') ++ (line.rtakeWhile (· == 13)).map asciiChar, ?_,
    textKind_data ?_⟩
  · have whole := start.append returns
    rw [← split, List.rdropWhile_append_rtakeWhile] at whole
    exact whole
  · -- the carriage returns behind the payload go, and no more
    have dropped : ∀ c ∈ ((line.rtakeWhile (· == 13)).map asciiChar).reverse,
        (c == '\r') = true := by
      intro c mem
      obtain ⟨byte, here, rfl⟩ := List.mem_map.mp (List.mem_reverse.mp mem)
      rw [ending byte here]
      decide
    have kept : ("data:".toList ++ payload').rdropWhile (· == '\r') =
        "data:".toList ++ payload' := by
      refine List.rdropWhile_eq_self_iff.mpr fun some_ last => ?_
      have ends := List.dropLast_append_getLast some_
      rw [beq_iff_eq.mp last] at ends
      rw [← ends] at start
      obtain ⟨bytes, split', -⟩ := start.of_concat (by decide : (13 : UInt8).toNat < 0x80)
      rw [← split] at split'
      have twice := List.rdropWhile_idempotent (· == 13) line
      rw [split', List.rdropWhile_concat_pos (· == 13) _ _ rfl] at twice
      have longer := (List.rdropWhile_prefix (· == 13) (l := bytes)).length_le
      rw [twice, List.length_append, List.length_singleton] at longer
      omega
    unfold trimReturns List.rdropWhile
    rw [List.reverse_append, List.dropWhile_append_of_pos dropped]
    exact kept

/-! ### One text for the bytes -/

/-- A line and a reading of it, each with the tag of its line feed. -/
def LineReads (arrive : Nat → Nat) (text : List Char × Option Nat)
    (line : List UInt8 × Option Nat) : Prop :=
  ReadsAs line.1 text.1 ∧ text.2 = line.2.map arrive

def EventReads (arrive : Nat → Nat) (text : List (List Char) × Option Nat) (event : SseEvent) :
    Prop :=
  List.Forall₂ ReadsAs event.1 text.1 ∧ text.2 = event.2.map arrive

/-- What chunks are decoded to, each item with the time of its chunk. -/
def taggedItems (chunks : Arrivals) : List (Item × Nat) :=
  chunks.flatMap fun chunk => (items chunk.1).map fun item => (item, chunk.2)

theorem decoded_taggedItems {chunks : Arrivals} : ∀ entry ∈ taggedItems chunks, Decoded entry.1 := by
  intro entry mem
  obtain ⟨chunk, -, inside⟩ := List.mem_flatMap.mp mem
  obtain ⟨item, here, rfl⟩ := List.mem_map.mp inside
  exact decoded_items item here

theorem decodedSymbols_eq (chunks : Arrivals) :
    decodedSymbols chunks = (taggedItems chunks).map fun entry => (entry.1.char, entry.2) := by
  unfold decodedSymbols taggedItems
  rw [List.map_flatMap]
  refine List.flatMap_congr fun chunk _ => ?_
  rw [lossy, List.map_map, List.map_map]
  rfl

theorem bytesOf_eq (chunks : Arrivals) :
    bytesOf chunks = (taggedItems chunks).flatMap fun entry => entry.1.bytes := by
  unfold bytesOf taggedItems
  rw [List.flatMap_assoc]
  refine List.flatMap_congr fun chunk _ => ?_
  rw [List.flatMap_map]
  exact (flatMap_items chunk.1).symm

/-- A chunk may be taken for its items, one after the other. -/
theorem arrival_map (offset : Nat) (list : List Item) (chunks : Arrivals) (place : Nat) :
    arrival ((list.map fun item => (item.bytes, offset)) ++ chunks) place =
      arrival ((list.flatMap Item.bytes, offset) :: chunks) place := by
  induction list generalizing place with
  | nil => simp [arrival]
  | cons item list ih =>
      rw [List.map_cons, List.cons_append, arrival, ih, List.flatMap_cons, arrival, arrival,
        List.length_append]
      by_cases first : place < item.bytes.length
      · rw [if_pos first, if_pos (Nat.lt_add_right _ first)]
      · rw [if_neg first]
        by_cases second : place - item.bytes.length < (list.flatMap Item.bytes).length
        · rw [if_pos second, if_pos (by omega)]
        · rw [if_neg second, if_neg (by omega), Nat.sub_sub]

/-- A place arrives with its item. -/
theorem arrival_taggedItems (chunks : Arrivals) (place : Nat) :
    arrival ((taggedItems chunks).map fun entry => (entry.1.bytes, entry.2)) place =
      arrival chunks place := by
  induction chunks generalizing place with
  | nil => rfl
  | cons chunk chunks ih =>
      have first : (taggedItems (chunk :: chunks)).map (fun entry => (entry.1.bytes, entry.2)) =
          ((items chunk.1).map fun item => (item.bytes, chunk.2)) ++
            (taggedItems chunks).map fun entry => (entry.1.bytes, entry.2) := by
        unfold taggedItems
        rw [List.flatMap_cons, List.map_append, List.map_map]
        rfl
      rw [first, arrival_map, flatMap_items, arrival, arrival, ih]

/-- The lines of the text read the lines of the bytes, one for one. -/
theorem lines_read {entries : List (Item × Nat)} (decoded : ∀ entry ∈ entries, Decoded entry.1)
    {line : List UInt8} {text : List Char} (reads : ReadsAs line text) {place : Nat}
    {arrive : Nat → Nat} (arrives : ∀ n, arrive (place + n) =
      arrival (entries.map fun entry => (entry.1.bytes, entry.2)) n) :
    List.Forall₂ (LineReads arrive)
      (textLines text (entries.map fun entry => (entry.1.char, entry.2)))
      (byteLines line place (entries.flatMap fun entry => entry.1.bytes)) := by
  induction entries generalizing line text place with
  | nil => exact .cons ⟨reads, rfl⟩ .nil
  | cons entry entries ih =>
      obtain ⟨item, offset⟩ := entry
      obtain ⟨here, later⟩ := List.forall_mem_cons.mp decoded
      have next : ∀ n, arrive (place + item.bytes.length + n) =
          arrival (entries.map fun entry => (entry.1.bytes, entry.2)) n := by
        intro n
        rw [Nat.add_assoc, arrives, List.map_cons, arrival, if_neg (Nat.not_lt.mpr
          (Nat.le_add_right _ _)), Nat.add_sub_cancel_left]
      unfold textLines byteLines
      rw [List.map_cons, taggedLines, List.flatMap_cons, List.zipIdx_append]
      by_cases feed : item.char = '\n'
      · obtain ⟨byte, small, rfl⟩ := Decoded.ascii_of_char here (by rw [feed]; decide)
        have ten : byte = 10 := asciiChar_inj small (by decide) feed
        subst ten
        have now : arrive place = offset := (arrives 0).trans (if_pos (Nat.lt_add_one 0))
        rw [if_pos (beq_iff_eq.mpr feed)]
        change List.Forall₂ _ _ (taggedLines _ line ((10, place) :: _))
        rw [taggedLines, if_pos (by decide)]
        refine .cons ⟨reads, congrArg some now.symm⟩ ?_
        exact ih later (.ascii (List.forall_mem_nil _)) next
      · have plain : ∀ symbol ∈ item.bytes.zipIdx place, (symbol.1 == (10 : UInt8)) = false := by
          rintro ⟨byte, n⟩ mem
          refine beq_false_of_ne fun same => feed ?_
          have inside : byte ∈ item.bytes := List.fst_mem_of_mem_zipIdx mem
          dsimp only at same
          subst same
          exact congrArg Item.char (Decoded.ascii_of_mem here (by decide) inside)
        rw [if_neg (by simpa using feed), taggedLines_append plain, List.zipIdx_map_fst]
        refine ih later (reads.append ?_) next
        exact readsAs_iff_items.mpr ⟨[item], List.forall_mem_singleton.mpr here,
          List.flatMap_singleton _ _, rfl⟩

/-- The events of the text read the events of the bytes, one for one. -/
theorem events_read {arrive : Nat → Nat} {texts : List (List Char × Option Nat)}
    {lines : List (List UInt8 × Option Nat)}
    (reads : List.Forall₂ (LineReads arrive) texts lines) {payloads : List (List UInt8)}
    {payloads' : List (List Char)} (before : List.Forall₂ ReadsAs payloads payloads') :
    List.Forall₂ (EventReads arrive) (eventsOf textKind payloads' texts)
      (eventsOf byteKind payloads lines) := by
  induction reads generalizing payloads payloads' with
  | nil => exact .nil
  | @cons text line texts lines here later ih =>
      obtain ⟨text, tag⟩ := text
      obtain ⟨line, feed⟩ := line
      obtain ⟨reads, same⟩ := here
      have kind := textKind_of_readsAs reads
      cases feed with
      | none =>
          cases same
          refine .cons ⟨?_, rfl⟩ .nil
          refine List.rel_append before ?_
          cases kindOf : byteKind line with
          | blank =>
              rw [kindOf] at kind
              dsimp only at kind
              rw [kind]
              exact .nil
          | data payload =>
              rw [kindOf] at kind
              obtain ⟨payload', same, readsPayload⟩ := kind
              rw [same]
              exact .cons readsPayload .nil
          | other =>
              rw [kindOf] at kind
              dsimp only at kind
              rw [kind]
              exact .nil
      | some place =>
          cases same
          change List.Forall₂ _ (eventsOf textKind payloads' ((text, some (arrive place)) :: texts)) _
          rw [eventsOf, eventsOf]
          cases kindOf : byteKind line with
          | blank =>
              rw [kindOf] at kind
              dsimp only at kind
              rw [kind]
              exact .cons ⟨before, rfl⟩ (ih .nil)
          | data payload =>
              rw [kindOf] at kind
              obtain ⟨payload', same, readsPayload⟩ := kind
              rw [same]
              exact ih (List.rel_append before (.cons readsPayload .nil))
          | other =>
              rw [kindOf] at kind
              dsimp only at kind
              rw [kind]
              exact ih before

/-- The events that a parser comes to are those of the bytes, in some reading. -/
theorem exists_events (fromStr : List Char → Option Value) (chunks : Arrivals) :
    ∃ events, List.Forall₂ (EventReads (arrival chunks)) events (sseEvents (bytesOf chunks)) ∧
      contentOffsets fromStr chunks = offsetsOf fromStr (lastArrival chunks) events := by
  refine ⟨_, events_read ?_ .nil, contentOffsets_eq chunks⟩
  rw [decodedSymbols_eq, bytesOf_eq]
  refine lines_read decoded_taggedItems (.ascii (List.forall_mem_nil _)) fun n => ?_
  rw [Nat.zero_add, arrival_taggedItems]

/-! ### Chunks for a reading -/

/-- Lines as a text splits into them: none holds a line feed, and only the last is not ended. -/
inductive Ended : List (List UInt8 × Option Nat) → Prop
  | last {line : List UInt8} (plain : (10 : UInt8) ∉ line) : Ended [(line, none)]
  | next {line : List UInt8} {place : Nat} {lines : List (List UInt8 × Option Nat)}
      (plain : (10 : UInt8) ∉ line) (later : Ended lines) : Ended ((line, some place) :: lines)

def joinLines : List (List UInt8 × Option Nat) → List UInt8
  | [] => []
  | (line, none) :: lines => line ++ joinLines lines
  | (line, some _) :: lines => line ++ 10 :: joinLines lines

/-- A line begun ends with the first line feed, and nothing is lost. -/
theorem byteLines_spec {line : List UInt8} (plain : (10 : UInt8) ∉ line) (place : Nat)
    (bytes : List UInt8) :
    Ended (byteLines line place bytes) ∧ joinLines (byteLines line place bytes) = line ++ bytes := by
  induction bytes generalizing line place with
  | nil => exact ⟨.last plain, rfl⟩
  | cons byte bytes ih =>
      change Ended (taggedLines _ line ((byte, place) :: bytes.zipIdx (place + 1))) ∧
        joinLines (taggedLines _ line ((byte, place) :: bytes.zipIdx (place + 1))) = _
      rw [taggedLines]
      by_cases feed : byte = 10
      · subst feed
        obtain ⟨ended, joined⟩ := ih List.not_mem_nil (place + 1)
        rw [if_pos (beq_self_eq_true _)]
        exact ⟨.next plain ended, congrArg (line ++ 10 :: ·) joined⟩
      · rw [if_neg (by simpa using feed)]
        obtain ⟨ended, joined⟩ :=
          @ih (line ++ [byte]) (by simp [plain, Ne.symm feed]) (place + 1)
        exact ⟨ended, joined.trans (by simp)⟩

def atOnce (pieces : List (List UInt8)) : Arrivals := pieces.map fun piece => (piece, 0)

theorem decodedSymbols_atOnce (pieces : List (List UInt8)) (chunks : Arrivals) :
    decodedSymbols (atOnce pieces ++ chunks) =
      ((pieces.flatMap lossy).map fun c => (c, 0)) ++ decodedSymbols chunks := by
  unfold decodedSymbols atOnce
  rw [List.flatMap_append, List.flatMap_map, List.map_flatMap]

theorem bytesOf_atOnce (pieces : List (List UInt8)) (chunks : Arrivals) :
    bytesOf (atOnce pieces ++ chunks) = pieces.flatten ++ bytesOf chunks := by
  unfold bytesOf atOnce
  rw [List.flatMap_append, List.flatMap_map]
  exact congrArg (· ++ chunks.flatMap Prod.fst) List.flatMap_id

theorem lossy_feed : lossy [10] = ['\n'] := by decide

theorem plain_of_readsAs {line : List UInt8} {text : List Char} (plain : (10 : UInt8) ∉ line)
    (reads : ReadsAs line text) : '\n' ∉ text :=
  (reads.mem_iff (by decide : (10 : UInt8).toNat < 0x80)).not.mp plain

/-- Every reading of the lines comes of some chunks. -/
theorem exists_chunks {lines : List (List UInt8 × Option Nat)} (ended : Ended lines)
    {texts : List (List Char × Option Nat)}
    (reads : List.Forall₂ (LineReads fun _ => 0) texts lines) :
    ∃ pieces, bytesOf (atOnce pieces) = joinLines lines ∧
      textLines [] (decodedSymbols (atOnce pieces)) = texts := by
  induction ended generalizing texts with
  | @last line plain =>
      cases reads with
      | @cons text _ texts _ here later =>
          cases later
          obtain ⟨text, tag⟩ := text
          obtain ⟨reads, rfl⟩ := here
          have one := plain_of_readsAs plain reads
          obtain ⟨pieces, bytes, same⟩ := reads
          dsimp only at bytes same one
          refine ⟨pieces, ?_, ?_⟩
          · rw [← List.append_nil (atOnce pieces), bytesOf_atOnce, bytes]
            rfl
          · rw [← List.append_nil (atOnce pieces), decodedSymbols_atOnce, same, textLines_append one]
            rfl
  | @next line place lines plain ended ih =>
      cases reads with
      | @cons text _ texts _ here later =>
          obtain ⟨text, tag⟩ := text
          obtain ⟨reads, rfl⟩ := here
          have one := plain_of_readsAs plain reads
          obtain ⟨pieces, bytes, same⟩ := reads
          dsimp only at bytes same one
          obtain ⟨pieces', bytes', same'⟩ := ih later
          have split : atOnce (pieces ++ [10] :: pieces') =
              atOnce (pieces ++ [[10]]) ++ atOnce pieces' := by
            simp [atOnce]
          refine ⟨pieces ++ [10] :: pieces', ?_, ?_⟩
          · rw [split, bytesOf_atOnce, bytes', List.flatten_append, bytes, List.append_assoc]
            rfl
          · rw [split, decodedSymbols_atOnce, List.flatMap_append, same, List.flatMap_singleton,
              lossy_feed, List.map_append, List.append_assoc, textLines_append one]
            exact congrArg ((text, some 0) :: ·) same'

theorem wholeTexts_read (payloads : List (List UInt8)) :
    List.Forall₂ ReadsAs payloads (wholeTexts payloads) := by
  unfold wholeTexts
  rw [List.forall₂_map_right_iff, List.forall₂_same]
  exact fun payload _ => .lossy payload

/-- A line that is read whole, or as the reading of its payload asks. -/
theorem exists_text (line : List UInt8) {payloads : List (List Char)}
    (reads : List.Forall₂ ReadsAs (byteKind line).payloads payloads) :
    ∃ text, ReadsAs line text ∧ match byteKind line with
      | .blank => textKind text = .blank
      | .data _ => ∃ payload', payloads = [payload'] ∧ textKind text = .data payload'
      | .other => textKind text = .other := by
  have whole := textKind_of_readsAs (.lossy line)
  cases kind : byteKind line with
  | blank =>
      rw [kind] at whole
      exact ⟨_, .lossy line, whole⟩
  | data payload =>
      rw [kind] at reads
      cases reads with
      | cons here later =>
          cases later
          obtain ⟨text, readsLine, same⟩ := exists_text_of_payload kind here
          exact ⟨text, readsLine, _, rfl, same⟩
  | other =>
      rw [kind] at whole
      exact ⟨_, .lossy line, whole⟩

/-- Every reading of the events comes of some reading of the lines. -/
theorem exists_texts (arrive : Nat → Nat) (lines : List (List UInt8 × Option Nat))
    (payloads : List (List UInt8)) {events : List (List (List Char) × Option Nat)}
    (reads : List.Forall₂ (EventReads arrive) events (eventsOf byteKind payloads lines)) :
    ∃ payloads' texts, List.Forall₂ ReadsAs payloads payloads' ∧
      List.Forall₂ (LineReads arrive) texts lines ∧ eventsOf textKind payloads' texts = events := by
  induction lines generalizing payloads events with
  | nil =>
      cases reads
      exact ⟨wholeTexts payloads, [], wholeTexts_read payloads, .nil, rfl⟩
  | cons line lines ih =>
      obtain ⟨line, feed⟩ := line
      cases feed with
      | none =>
          cases reads with
          | @cons event _ events _ here later =>
              cases later
              obtain ⟨texts, tag⟩ := event
              obtain ⟨readsAll, rfl⟩ := here
              obtain ⟨payloads', own, before, last, rfl⟩ := forall₂_append_left readsAll
              obtain ⟨text, readsLine, kind⟩ := exists_text line last
              refine ⟨payloads', (text, none) :: lines.map fun line => (lossy line.1,
                line.2.map arrive), before, .cons ⟨readsLine, rfl⟩ ?_, ?_⟩
              · rw [List.forall₂_map_left_iff, List.forall₂_same]
                exact fun line _ => ⟨.lossy line.1, rfl⟩
              · rw [eventsOf]
                cases kindOf : byteKind line with
                | blank =>
                    rw [kindOf] at last kind
                    cases last
                    dsimp only at kind
                    rw [kind]
                    rfl
                | data payload =>
                    rw [kindOf] at kind
                    obtain ⟨payload', rfl, same⟩ := kind
                    rw [same]
                    rfl
                | other =>
                    rw [kindOf] at last kind
                    cases last
                    dsimp only at kind
                    rw [kind]
                    rfl
      | some place =>
          rw [eventsOf] at reads
          cases kindOf : byteKind line with
          | blank =>
              rw [kindOf] at reads
              cases reads with
              | @cons event _ events _ here later =>
                  obtain ⟨texts, tag⟩ := event
                  obtain ⟨readsAll, rfl⟩ := here
                  obtain ⟨payloads', texts', before, linesRead, same⟩ := ih [] later
                  cases before
                  obtain ⟨text, readsLine, kind⟩ :=
                    @exists_text line [] (by rw [kindOf]; exact .nil)
                  rw [kindOf] at kind
                  dsimp only at kind
                  refine ⟨texts, (text, some (arrive place)) :: texts', readsAll,
                    .cons ⟨readsLine, rfl⟩ linesRead, ?_⟩
                  rw [eventsOf, kind, ← same]
                  rfl
          | data payload =>
              rw [kindOf] at reads
              obtain ⟨payloads', texts', before, linesRead, same⟩ := ih _ reads
              obtain ⟨payloads', own, earlier, last, rfl⟩ := forall₂_append_left before
              obtain ⟨text, readsLine, kind⟩ :=
                @exists_text line own (by rw [kindOf]; exact last)
              rw [kindOf] at kind
              obtain ⟨payload', rfl, kind⟩ := kind
              refine ⟨payloads', (text, some (arrive place)) :: texts', earlier,
                .cons ⟨readsLine, rfl⟩ linesRead, ?_⟩
              rw [eventsOf, kind, ← same]
          | other =>
              rw [kindOf] at reads
              obtain ⟨payloads', texts', before, linesRead, same⟩ := ih _ reads
              obtain ⟨text, readsLine, kind⟩ :=
                @exists_text line [] (by rw [kindOf]; exact .nil)
              rw [kindOf] at kind
              dsimp only at kind
              refine ⟨payloads', (text, some (arrive place)) :: texts', before,
                .cons ⟨readsLine, rfl⟩ linesRead, ?_⟩
              rw [eventsOf, kind, ← same]

/-! ### The condition -/

section Condition

variable {fromStr : List Char → Option Value}

theorem length_offsetsOf (last : Nat) (events : List (List (List Char) × Option Nat)) :
    (offsetsOf fromStr last events).length =
      events.countP fun event => hasContent fromStr event.1 := by
  unfold offsetsOf
  rw [List.length_map, List.countP_eq_length_filter]

/-- Without a character that decides, every cut gives the same offsets. -/
theorem offsets_of_stable {chunks : Arrivals}
    (stable : ∀ event ∈ sseEvents (bytesOf chunks), CutStable fromStr event.1) :
    contentOffsets fromStr chunks =
      ((sseEvents (bytesOf chunks)).filter fun event =>
        hasContent fromStr (wholeTexts event.1)).map (completion chunks) := by
  obtain ⟨events, reads, same⟩ := exists_events fromStr chunks
  rw [same]
  clear same
  unfold offsetsOf
  generalize sseEvents (bytesOf chunks) = whole at reads stable
  induction reads with
  | nil => rfl
  | @cons text event texts events here later ih =>
      obtain ⟨stableHere, stableLater⟩ := List.forall_mem_cons.mp stable
      have content := stableHere text.1 (here.1.imp fun _ _ reads => readsAs_iff.mp reads)
      have time : text.2.getD (lastArrival chunks) = completion chunks event := by
        rw [here.2]
        rfl
      rw [List.filter_cons, List.filter_cons, content]
      split
      · rw [List.map_cons, List.map_cons, time, ih stableLater]
      · exact ih stableLater

/-- Any reading of the events is what some chunks come to. -/
theorem exists_atOnce {bytes : List UInt8} {events : List (List (List Char) × Option Nat)}
    (reads : List.Forall₂ (EventReads fun _ => 0) events (sseEvents bytes)) :
    ∃ chunks, bytesOf chunks = bytes ∧ (contentOffsets fromStr chunks).length =
      events.countP fun event => hasContent fromStr event.1 := by
  obtain ⟨payloads', texts, before, linesRead, rfl⟩ := exists_texts _ _ _ reads
  cases before
  obtain ⟨ended, joined⟩ := byteLines_spec List.not_mem_nil 0 bytes
  obtain ⟨pieces, same, lines⟩ := exists_chunks ended linesRead
  refine ⟨atOnce pieces, same.trans joined, ?_⟩
  rw [contentOffsets_eq, lines, length_offsetsOf]

/-- The same events are counted under every cut if and only if no event's content hangs on a
character that may be cut. -/
theorem sse_right_iff (fromStr : List Char → Option Value) (bytes : List UInt8) :
    SseRight fromStr bytes ↔ ∀ event ∈ sseEvents bytes, CutStable fromStr event.1 := by
  constructor
  · intro right event mem texts cut
    have cutReads : List.Forall₂ ReadsAs event.1 texts := cut.imp fun _ _ cut => readsAs_iff.mpr cut
    have whole : ∀ events : List SseEvent, List.Forall₂ (EventReads fun _ => 0)
        (events.map fun event => (wholeTexts event.1, event.2.map fun _ => 0)) events := by
      intro events
      rw [List.forall₂_map_left_iff, List.forall₂_same]
      exact fun event _ => ⟨wholeTexts_read event.1, rfl⟩
    obtain ⟨before, after, split⟩ := List.append_of_mem mem
    obtain ⟨chunks, same, count⟩ := @exists_atOnce fromStr bytes _ (whole _)
    obtain ⟨chunks', same', count'⟩ := @exists_atOnce fromStr bytes
      (before.map (fun event => (wholeTexts event.1, event.2.map fun _ => 0)) ++
        (texts, event.2.map fun _ => 0) ::
          after.map fun event => (wholeTexts event.1, event.2.map fun _ => 0))
      (split ▸ List.rel_append (whole before) (.cons ⟨cutReads, rfl⟩ (whole after)))
    have counts := right.count chunks chunks' same same'
    rw [count, count', split, List.map_append, List.map_cons, List.countP_append,
      List.countP_append, List.countP_cons, List.countP_cons] at counts
    dsimp only at counts
    cases content : hasContent fromStr texts <;>
      cases wholeContent : hasContent fromStr (wholeTexts event.1) <;> simp_all
  · intro stable
    have offsets : ∀ chunks, bytesOf chunks = bytes → contentOffsets fromStr chunks =
        ((sseEvents bytes).filter fun event => hasContent fromStr (wholeTexts event.1)).map
          (completion chunks) := by
      rintro chunks rfl
      exact offsets_of_stable stable
    refine ⟨fun chunks chunks' same same' => ?_, offsets⟩
    rw [offsets chunks same, offsets chunks' same', List.length_map, List.length_map]

end Condition

/-! ### A white space in two chunks -/

/-- `data: {"text":"…"}` and a blank line, where the text is an em space. -/
def emSpaceEvent : List UInt8 :=
  [100, 97, 116, 97, 58, 32, 123, 34, 116, 101, 120, 116, 34, 58, 34, 0xE2, 0x80, 0x83, 34, 125,
    10, 10]

/-- `serde_json::from_str` on objects with one text. -/
def readsOneText (data : List Char) : Option Value :=
  (stripPrefix "\x7b\"text\":\"".toList data).bind fun rest =>
    (stripSuffixText "\"\x7d".toList rest).map fun text =>
      .object [("text", .string (String.ofList text))]

/-- An event of one em space is counted. -/
theorem em_space_counted : ¬ ∀ (fromStr : List Char → Option Value) (bytes : List UInt8),
    SseRight fromStr bytes := by
  intro always
  have count := (always readsOneText emSpaceEvent).count [(emSpaceEvent, 0)]
    [(emSpaceEvent.take 16, 0), (emSpaceEvent.drop 16, 0)] rfl rfl
  revert count
  decide

end GmMiner.Cli
