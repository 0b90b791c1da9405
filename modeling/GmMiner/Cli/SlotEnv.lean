import GmMiner.Cli.Slots
import GmMiner.Lib.Decimal
import GmMiner.Lib.Shell

/-!
The text that exports the key slots at boot (`shell_quote` and `render_slot_env_exports` of
`cli/src/slots.rs`), and what a shell makes of it: the variables of `slotExports`, and nothing else.
-/

namespace GmMiner.Cli

open GmMiner.Lib

/-- `shell_quote`. -/
def shellQuote (value : List Char) : List Char :=
  '\'' :: ((value.flatMap fun ch =>
    if ch = '\'' then ['\'', '\\', '\'', '\''] else [ch]) ++ ['\''])

def exportLine (name : String) (value : List Char) : List Char :=
  ['e', 'x', 'p', 'o', 'r', 't', ' '] ++ name.toList ++ '=' :: (shellQuote value ++ ['\n'])

/-- `render_slot_env_exports`, the text. -/
def renderSlotEnvExportsText (derive : DeriveSlotId) (provider : String) (raw : List Char)
    (nodeSecret : String) : Except Error (List Char) := do
  let slots ← parseKeySlots derive provider raw nodeSecret
  let exportPrefix := "GM_" ++ toAsciiUppercase provider
  let keys := slots.zipIdx.flatMap fun (slot, idx) =>
    exportLine (exportPrefix ++ "_KEY_SLOT_" ++ toString (idx + 1)) slot.key
  let ids := exportLine (exportPrefix ++ "_SLOT_IDS") (";".intercalate (slots.map KeySlot.id)).toList
  return keys ++ ids

/-! ### Quoting -/

section Quoting

variable {line : List Shell.Word} {commands : List (List Shell.Word)}

/-- A quoted text is read as it is, whatever follows. -/
theorem exec_shellQuote {value : List Char} (noNul : '\x00' ∉ value) (word : Shell.Word)
    (rest : List Char) :
    Shell.reader.exec ⟨.unquoted, some word, line, commands⟩ (shellQuote value ++ rest) =
      Shell.reader.exec ⟨.unquoted, some (word ++ value), line, commands⟩ rest := by
  rw [shellQuote, List.cons_append, List.append_assoc]
  change Shell.reader.exec ⟨.single, some word, line, commands⟩ _ = _
  induction value generalizing word with
  | nil =>
      rw [List.append_nil]
      exact Shell.exec_unquote word rest
  | cons c value ih =>
      obtain ⟨notNul, later⟩ := not_or.mp (List.mem_cons.not.mp noNul)
      have moved : word ++ [c] ++ value = word ++ c :: value := by simp
      rw [List.flatMap_cons, List.append_assoc, ← moved, ← ih later (word ++ [c])]
      by_cases quote : c = '\''
      · rw [if_pos quote, quote]
        exact Shell.exec_requote word _
      · rw [if_neg quote]
        exact Shell.exec_single quote (Ne.symm notNul) word _

/-- A quoted text alone is one word. -/
theorem run_shellQuote {value : List Char} (noNul : '\x00' ∉ value) :
    (Shell.reader.run (shellQuote value)).bind Shell.Reader.ended = some [[value]] := by
  have read : Shell.reader.exec ⟨.unquoted, some [], [], []⟩ (shellQuote value ++ []) = _ :=
    exec_shellQuote noNul [] []
  have begun : Shell.reader.run (shellQuote value) =
      Shell.reader.exec ⟨.unquoted, some [], [], []⟩ (shellQuote value) := rfl
  rw [List.append_nil] at read
  rw [begun, read]
  simp [Shell.Reader.ended, Shell.Reader.endLine, Shell.Reader.endWord]

end Quoting

/-! ### Exports -/

/-- A name's characters are inert. -/
theorem isActive_of_name {c : Char} (letter : (Shell.isNameStart c || c.isDigit) = true) :
    Shell.isActive c = false := by
  have apart : (['"', '$', '\x60', '*', '?', '[', '~', '#', '&', '|', ';', '<', '>', '(', ')', '!',
      '\x7b', '\x7d', '\x00', '\'', '\\', ' ', '\t', '\n'].all
        fun active => !(Shell.isNameStart active || active.isDigit)) = true := by decide
  rw [Shell.isActive, decide_eq_false_iff_not]
  intro active
  have other := List.all_eq_true.mp apart c active
  rw [letter] at other
  cases other

/-- The words of a line that exports a variable. -/
def exportWords (variable_ : List Char × List Char) : List Shell.Word :=
  [['e', 'x', 'p', 'o', 'r', 't'], variable_.1 ++ '=' :: variable_.2]

/-- One export line is one command, with the value as it was. -/
theorem exec_exportLine {name : String} {value : List Char}
    (named : Shell.isName name.toList = true) (noNul : '\x00' ∉ value)
    (commands : List (List Shell.Word)) (rest : List Char) :
    Shell.reader.exec ⟨.unquoted, none, [], commands⟩ (exportLine name value ++ rest) =
      Shell.reader.exec ⟨.unquoted, none, [], commands ++ [exportWords (name.toList, value)]⟩
        rest := by
  -- The name and its equals sign mean nothing to the shell; only the value is quoted.
  have letters : ∀ c ∈ name.toList ++ ['='], Shell.isActive c = false := by
    intro c mem
    rcases List.mem_append.mp mem with inside | equals
    · apply isActive_of_name
      cases chars : name.toList with
      | nil =>
          rw [chars] at inside
          cases inside
      | cons first later =>
          rw [chars, Shell.isName, Bool.and_eq_true, List.all_eq_true] at named
          rw [chars] at inside
          rcases List.mem_cons.mp inside with rfl | mem
          · rw [named.1, Bool.true_or]
          · exact named.2 c mem
    · rw [List.mem_singleton.mp equals]
      rfl
  have opened : ∀ rest : List Char,
      Shell.reader.exec ⟨.unquoted, none, [], commands⟩
          ('e' :: 'x' :: 'p' :: 'o' :: 'r' :: 't' :: ' ' :: rest) =
        Shell.reader.exec ⟨.unquoted, none, [['e', 'x', 'p', 'o', 'r', 't']], commands⟩ rest :=
    fun _ => rfl
  obtain ⟨first, later, chars⟩ : ∃ first later, name.toList ++ ['='] = first :: later := by
    cases name.toList with
    | nil => exact ⟨'=', [], rfl⟩
    | cons first later => exact ⟨first, later ++ ['='], rfl⟩
  rw [chars] at letters
  obtain ⟨inert, inertLater⟩ := List.forall_mem_cons.mp letters
  have shape : exportLine name value ++ rest = 'e' :: 'x' :: 'p' :: 'o' :: 'r' :: 't' :: ' ' ::
      first :: (later ++ (shellQuote value ++ ('\n' :: rest))) := by
    rw [← List.cons_append, ← chars]
    simp [exportLine]
  rw [shape, opened, Shell.exec_begin inert, Shell.exec_inert inertLater, exec_shellQuote noNul,
    Shell.exec_newline]
  have word : [first] ++ later ++ value = name.toList ++ '=' :: value := by
    rw [List.singleton_append, ← chars]
    simp
  rw [word]
  rfl

/-- The export lines are commands in their order. -/
theorem run_exports {exports : List (String × List Char)}
    (named : ∀ entry ∈ exports, Shell.isName entry.1.toList = true)
    (noNul : ∀ entry ∈ exports, '\x00' ∉ entry.2) (commands : List (List Shell.Word)) :
    Shell.reader.exec ⟨.unquoted, none, [], commands⟩
        (exports.flatMap fun entry => exportLine entry.1 entry.2) =
      some ⟨.unquoted, none, [],
        commands ++ exports.map fun entry => exportWords (entry.1.toList, entry.2)⟩ := by
  induction exports generalizing commands with
  | nil =>
      rw [List.map_nil, List.append_nil]
      rfl
  | cons entry exports ih =>
      obtain ⟨namedHere, named⟩ := List.forall_mem_cons.mp named
      obtain ⟨noNulHere, noNul⟩ := List.forall_mem_cons.mp noNul
      rw [List.flatMap_cons, exec_exportLine namedHere noNulHere, ih named noNul]
      simp

/-- A shell takes the lines for the variables they were made of. -/
theorem evaluate_exports {exports : List (String × List Char)}
    (named : ∀ entry ∈ exports, Shell.isName entry.1.toList = true)
    (noNul : ∀ entry ∈ exports, '\x00' ∉ entry.2) :
    Shell.evaluate (exports.flatMap fun entry => exportLine entry.1 entry.2) =
      some (exports.map fun entry => (entry.1.toList, entry.2)) := by
  have read := run_exports named noNul []
  have exported : ∀ entry ∈ exports,
      Shell.exported (exportWords (entry.1.toList, entry.2)) = some [(entry.1.toList, entry.2)] := by
    intro entry mem
    change ([entry.1.toList ++ '=' :: entry.2].mapM Shell.assignment) = _
    rw [List.mapM_cons, Shell.assignment_of_name (named entry mem)]
    rfl
  have all : (exports.map fun entry => exportWords (entry.1.toList, entry.2)).mapM Shell.exported =
      some (exports.map fun entry => [(entry.1.toList, entry.2)]) := by
    clear read named noNul
    induction exports with
    | nil => rfl
    | cons entry exports ih =>
        obtain ⟨here, later⟩ := List.forall_mem_cons.mp exported
        rw [List.map_cons, List.mapM_cons, here, ih later]
        rfl
  rw [Shell.evaluate]
  change ((Shell.reader.exec ⟨.unquoted, none, [], []⟩ _).bind _).bind _ = _
  rw [read, List.nil_append]
  simp only [Option.bind_some, Shell.Reader.ended, Shell.Reader.endLine, Shell.Reader.endWord,
    Option.toList_none, List.append_nil, if_pos, all, Option.map_some]
  congr 1
  clear read all exported named noNul
  induction exports with
  | nil => rfl
  | cons entry exports ih => simp [ih]

/-! ### The exports of the slots -/

/-- The text is one line for each of `slotExports`. -/
theorem renderSlotEnvExportsText_eq_ok {derive : DeriveSlotId} {provider nodeSecret : String}
    {raw text : List Char}
    (rendered : renderSlotEnvExportsText derive provider raw nodeSecret = .ok text) :
    ∃ slots, parseKeySlots derive provider raw nodeSecret = .ok slots ∧
      text = ((slotExports provider slots).map fun entry => (entry.1.name, entry.2)).flatMap
        fun entry => exportLine entry.1 entry.2 := by
  obtain ⟨slots, parsed, same⟩ := bind_eq_ok.mp rendered
  cases same
  refine ⟨slots, parsed, ?_⟩
  simp [slotExports, SlotVar.name, List.flatMap_map, List.map_append]

/-- Every variable exported has a shell name. -/
theorem isName_slotVar {provider : String}
    (letters : ∀ c ∈ (toAsciiUppercase provider).toList,
      (Shell.isNameStart c || c.isDigit) = true) {slots : List KeySlot}
    {entry : SlotVar × List Char} (mem : entry ∈ slotExports provider slots) :
    Shell.isName entry.1.name.toList = true := by
  have numbers (n : Nat) : ∀ c ∈ (toString n).toList,
      (Shell.isNameStart c || c.isDigit) = true := by
    intro c mem
    change c ∈ n.repr.toList at mem
    rw [Nat.toList_repr] at mem
    rw [Decimal.isDigit_of_mem_toDigits c mem, Bool.or_true]
  have keySlot : ("_KEY_SLOT_".toList.all fun c => Shell.isNameStart c || c.isDigit) = true := by
    decide
  have slotIds : ("_SLOT_IDS".toList.all fun c => Shell.isNameStart c || c.isDigit) = true := by
    decide
  have named : ∀ rest : List Char, (∀ c ∈ rest, (Shell.isNameStart c || c.isDigit) = true) →
      Shell.isName ("GM_".toList ++ rest) = true := by
    intro rest all
    have start : "GM_".toList = ['G', 'M', '_'] := by decide
    rw [start, List.cons_append, Shell.isName, Bool.and_eq_true, List.all_eq_true]
    refine ⟨rfl, fun c mem => ?_⟩
    rcases List.mem_cons.mp mem with rfl | mem
    · rfl
    rcases List.mem_cons.mp mem with rfl | mem
    · rfl
    · exact all c mem
  rcases List.mem_append.mp mem with slot | ids
  · obtain ⟨⟨slot, idx⟩, -, rfl⟩ := List.mem_map.mp slot
    have shape : (SlotVar.keySlot provider (idx + 1)).name.toList = "GM_".toList ++
        ((toAsciiUppercase provider).toList ++
          ("_KEY_SLOT_".toList ++ (toString (idx + 1)).toList)) := by
      simp [SlotVar.name]
    change Shell.isName (SlotVar.keySlot provider (idx + 1)).name.toList = true
    rw [shape]
    refine named _ fun c mem => ?_
    rcases List.mem_append.mp mem with inside | mem
    · exact letters c inside
    rcases List.mem_append.mp mem with inside | inside
    · exact List.all_eq_true.mp keySlot c inside
    · exact numbers _ c inside
  · have shape : (SlotVar.slotIds provider).name.toList = "GM_".toList ++
        ((toAsciiUppercase provider).toList ++ "_SLOT_IDS".toList) := by
      simp [SlotVar.name]
    rw [List.mem_singleton.mp ids]
    change Shell.isName (SlotVar.slotIds provider).name.toList = true
    rw [shape]
    refine named _ fun c mem => ?_
    rcases List.mem_append.mp mem with inside | inside
    · exact letters c inside
    · exact List.all_eq_true.mp slotIds c inside

/-- A slot has a trimmed segment for a key, and the id derived from it. -/
theorem mem_collectSlots {derive : DeriveSlotId} {provider nodeSecret : String} {idx : Nat}
    {seen : List String} {segments : List (List Char)} {slots : List KeySlot}
    (collected : collectSlots derive provider nodeSecret idx seen segments = .ok slots)
    {slot : KeySlot} (mem : slot ∈ slots) :
    (∃ segment ∈ segments, slot.key = trimAscii segment) ∧
      derive provider slot.key nodeSecret = .ok slot.id := by
  induction segments generalizing idx seen slots with
  | nil =>
      cases collected
      cases mem
  | cons segment rest ih =>
      rw [collectSlots] at collected
      split at collected
      · cases collected
      · obtain ⟨id, derived, collected⟩ := bind_eq_ok.mp collected
        have later {idx : Nat} {seen : List String} {slots : List KeySlot}
            (collected : collectSlots derive provider nodeSecret idx seen rest = .ok slots)
            (mem : slot ∈ slots) : (∃ segment' ∈ segment :: rest, slot.key = trimAscii segment') ∧
              derive provider slot.key nodeSecret = .ok slot.id := by
          obtain ⟨⟨other, otherMem, key⟩, id⟩ := ih collected mem
          exact ⟨⟨other, List.mem_cons_of_mem _ otherMem, key⟩, id⟩
        split at collected
        · exact later collected mem
        · obtain ⟨others, collectedLater, same⟩ := bind_eq_ok.mp collected
          cases same
          rcases List.mem_cons.mp mem with rfl | mem
          · exact ⟨⟨segment, List.mem_cons_self, rfl⟩, derived⟩
          · exact later collectedLater mem

/-- A character of a joined text is the separator's or a part's. -/
theorem mem_intercalate {separator : String} {texts : List String} {c : Char}
    (mem : c ∈ (separator.intercalate texts).toList) :
    c ∈ separator.toList ∨ ∃ text ∈ texts, c ∈ text.toList := by
  induction texts with
  | nil =>
      rw [String.intercalate_nil] at mem
      cases mem
  | cons text rest ih =>
      cases rest with
      | nil =>
          rw [String.intercalate_singleton] at mem
          exact .inr ⟨text, List.mem_cons_self, mem⟩
      | cons next rest =>
          rw [String.intercalate_cons_cons, String.toList_append, String.toList_append] at mem
          rcases List.mem_append.mp mem with mem | later
          · rcases List.mem_append.mp mem with here | between
            · exact .inr ⟨text, List.mem_cons_self, here⟩
            · exact .inl between
          · rcases ih later with between | ⟨other, otherMem, inside⟩
            · exact .inl between
            · exact .inr ⟨other, List.mem_cons_of_mem _ otherMem, inside⟩

/-- What a shell makes of the exports: the variables of the slots, under their values. -/
theorem evaluate_slotEnv {derive : DeriveSlotId} {provider nodeSecret : String}
    {raw text : List Char}
    (letters : ∀ c ∈ (toAsciiUppercase provider).toList,
      (Shell.isNameStart c || c.isDigit) = true)
    (idNoNul : ∀ key id, derive provider key nodeSecret = .ok id → '\x00' ∉ id.toList)
    (noNul : '\x00' ∉ raw)
    (rendered : renderSlotEnvExportsText derive provider raw nodeSecret = .ok text) :
    ∃ slots, parseKeySlots derive provider raw nodeSecret = .ok slots ∧
      Shell.evaluate text =
        some ((slotExports provider slots).map fun entry => (entry.1.name.toList, entry.2)) := by
  obtain ⟨slots, parsed, rfl⟩ := renderSlotEnvExportsText_eq_ok rendered
  have collected : ∀ slot ∈ slots, (∃ segment ∈ splitAt ';' raw, slot.key = trimAscii segment) ∧
      derive provider slot.key nodeSecret = .ok slot.id := by
    intro slot mem
    unfold parseKeySlots at parsed
    dsimp only at parsed
    split at parsed
    · cases parsed
    · exact mem_collectSlots parsed mem
  refine ⟨slots, parsed, ?_⟩
  rw [evaluate_exports, List.map_map]
  · rfl
  · intro entry mem
    obtain ⟨entry, inside, rfl⟩ := List.mem_map.mp mem
    exact isName_slotVar letters inside
  · intro entry mem nul
    obtain ⟨entry, inside, rfl⟩ := List.mem_map.mp mem
    rcases List.mem_append.mp inside with slot | ids
    · obtain ⟨⟨held, idx⟩, slotMem, rfl⟩ := List.mem_map.mp slot
      obtain ⟨⟨segment, segmentMem, key⟩, -⟩ :=
        collected held (List.fst_mem_of_mem_zipIdx slotMem)
      have trimmedNul : '\x00' ∈ trimAscii segment := key ▸ nul
      have segmentNul := (List.dropWhile_suffix _).subset
        ((List.rdropWhile_prefix _ _).subset trimmedNul)
      exact noNul (mem_splitAt segmentMem segmentNul)
    · rw [List.mem_singleton.mp ids] at nul
      rcases mem_intercalate nul with semicolon | ⟨id, idMem, inside⟩
      · exact absurd semicolon (by decide)
      · obtain ⟨slot, slotMem, rfl⟩ := List.mem_map.mp idMem
        exact idNoNul _ _ (collected slot slotMem).2 inside

end GmMiner.Cli
