import GmMiner.Bedrock.StreamEvents

/-!
A small reader and writer of JSON, enough for a message start and a message stop.

It does what the adapter relies on (`messageJson_faithful`), for any model name.
-/

namespace GmMiner.Bedrock

open GmMiner.Lib GmMiner.Json

/-- A character of a JSON string. -/
def escapeChar : Char → List Char
  | '\\' => ['\\', '\\']
  | '"' => ['\\', '"']
  | '\n' => ['\\', 'n']
  | '\r' => ['\\', 'r']
  | c => [c]

def unescapeChar : Char → Char
  | 'n' => '\n'
  | 'r' => '\r'
  | c => c

/-- A JSON string up to its closing quote, and what follows. -/
def readQuoted : List Char → Option (List Char × List Char)
  | [] => none
  | '"' :: rest => some ([], rest)
  | ['\\'] => none
  | '\\' :: c :: rest =>
      (readQuoted rest).map fun (text, rest) => (unescapeChar c :: text, rest)
  | c :: rest => (readQuoted rest).map fun (text, rest) => (c :: text, rest)

/-- An escaped character is read back. -/
theorem readQuoted_escapeChar (c : Char) (tail : List Char) :
    readQuoted (escapeChar c ++ tail) =
      (readQuoted tail).map fun (text, rest) => (c :: text, rest) := by
  unfold escapeChar
  split
  · rfl
  · rfl
  · rfl
  · rfl
  · rename_i notSlash notQuote _ _
    rw [List.singleton_append, readQuoted]
    · exact notQuote
    · exact fun slash _ => notSlash slash
    · exact fun _ _ slash _ => notSlash slash

theorem readQuoted_escaped (text rest : List Char) :
    readQuoted (text.flatMap escapeChar ++ '"' :: rest) = some (text, rest) := by
  induction text with
  | nil => rfl
  | cons c text ih =>
      rw [List.flatMap_cons, List.append_assoc, readQuoted_escapeChar, ih]
      rfl

theorem escapeChar_oneLine (c : Char) : ∀ e ∈ escapeChar c, e ≠ '\n' ∧ e ≠ '\r' := by
  unfold escapeChar
  split
  all_goals simp_all

def messageStop : Value := .object [("type", .string "message_stop")]

def messageStopText : String := "\x7b\"type\":\"message_stop\"\x7d"

def messageStart (model : String) : Value :=
  .object [("type", .string "message_start"), ("message", .object [("model", .string model)])]

def messageStartHead : List Char :=
  "\x7b\"type\":\"message_start\",\"message\":\x7b\"model\":\"".toList

def messageStartText (model : String) : String :=
  String.ofList (messageStartHead ++ (model.toList.flatMap escapeChar ++ "\"\x7d\x7d".toList))

def messageJson : SerdeJson where
  decode bytes :=
    if bytes = asBytes messageStopText then some messageStop
    else do
      let text ← fromUtf8 bytes
      let rest ← stripPrefix messageStartHead text.toList
      let (model, rest) ← readQuoted rest
      if rest = "\x7d\x7d".toList then some (messageStart (String.ofList model)) else none
  toString
    | .object [(_, .string _), (_, .object [(_, .string model)])] => messageStartText model
    | .object _ => "\x7b\x7d"
    | _ => "null"

/-- What is read is a message start or the message stop. -/
theorem messageJson_decode {bytes : Bytes} {value : Value}
    (decoded : messageJson.decode bytes = some value) :
    value = messageStop ∨ ∃ model, value = messageStart model := by
  unfold messageJson at decoded
  dsimp only at decoded
  split at decoded
  · exact .inl (Option.some.inj decoded).symm
  · obtain ⟨text, -, decoded⟩ := Option.bind_eq_some_iff.mp decoded
    obtain ⟨rest, -, decoded⟩ := Option.bind_eq_some_iff.mp decoded
    obtain ⟨⟨model, rest⟩, -, decoded⟩ := Option.bind_eq_some_iff.mp decoded
    dsimp only at decoded
    split at decoded
    · exact .inr ⟨_, (Option.some.inj decoded).symm⟩
    · cases decoded

/-- A message start is read back. -/
theorem messageJson_readsBack (model : String) :
    parseUniqueJson messageJson.decode (asBytes (messageStartText model)) =
      some (messageStart model) := by
  have notStop : asBytes (messageStartText model) ≠ asBytes messageStopText := by
    intro same
    have texts := congrArg String.toList (asBytes_injective same)
    unfold messageStartText at texts
    rw [String.toList_ofList] at texts
    have cut := congrArg (List.take 20) texts
    rw [List.take_append_of_le_length (by decide)] at cut
    exact absurd cut (by decide)
  have decoded : messageJson.decode (asBytes (messageStartText model)) =
      some (messageStart model) := by
    unfold messageJson
    dsimp only
    rw [if_neg notStop, fromUtf8_asBytes, Option.bind_eq_bind, Option.bind_some]
    unfold messageStartText
    rw [String.toList_ofList, stripPrefix_eq_some.mpr rfl, Option.bind_eq_bind, Option.bind_some]
    have quoted : model.toList.flatMap escapeChar ++ "\"\x7d\x7d".toList =
        model.toList.flatMap escapeChar ++ '"' :: "\x7d\x7d".toList := rfl
    rw [quoted, readQuoted_escaped, Option.bind_eq_bind, Option.bind_some, if_pos rfl,
      String.ofList_toList]
  unfold parseUniqueJson
  rw [decoded]
  rfl

theorem messageJson_toString_start (model : String) :
    messageJson.toString (messageStart model) = messageStartText model := rfl

theorem messageStartText_toList (model : String) : (messageStartText model).toList =
    messageStartHead ++ (model.toList.flatMap escapeChar ++ "\"\x7d\x7d".toList) :=
  String.toList_ofList

/-- The small JSON of the messages reads and writes as the proofs rely on. -/
theorem messageJson_faithful : messageJson.Faithful where
  oneLine := by
    intro value c mem
    have head : ∀ c ∈ messageStartHead, c ≠ '\n' ∧ c ≠ '\r' := apart_of_all (by decide)
    have last : ∀ c ∈ "\"\x7d\x7d".toList, c ≠ '\n' ∧ c ≠ '\r' := apart_of_all (by decide)
    unfold messageJson at mem
    dsimp only at mem
    split at mem
    · rename_i model
      rw [messageStartText_toList] at mem
      rcases List.mem_append.mp mem with inHead | rest
      · exact head c inHead
      · rcases List.mem_append.mp rest with body | inLast
        · obtain ⟨plain, -, escaped⟩ := List.mem_flatMap.mp body
          exact escapeChar_oneLine plain c escaped
        · exact last c inLast
    · exact apart_of_all (by decide) c mem
    · exact apart_of_all (by decide) c mem
  object := by
    intro members
    unfold messageJson
    dsimp only
    split
    · rw [messageStartText_toList]
      exact ⟨_, rfl⟩
    · exact ⟨_, rfl⟩
    · rename_i notObject
      exact absurd rfl (notObject members)
  readsBack := by
    intro bytes value expected canonical rewritten parsed rewrote
    -- Only two texts are decoded, and the empty object has no model to rewrite.
    rcases messageJson_decode (Option.filter_eq_some_iff.mp parsed).1 with rfl | ⟨model, rfl⟩
    · cases rewrote
    · have same : rewritten = messageStart canonical := by
        unfold withModel messageStart at rewrote
        obtain ⟨rawModel, named, rewrote⟩ := bind_eq_ok.mp rewrote
        split at rewrote
        · cases rewrote
        · cases rewrote
          rfl
      rw [same, messageJson_toString_start]
      exact ⟨_, messageJson_readsBack canonical, fun _ _ found => found⟩

end GmMiner.Bedrock
