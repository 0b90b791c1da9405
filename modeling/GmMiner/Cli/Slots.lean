import GmMiner.Cli.Upstreams

/-!
Upstream key slots (`cli/src/slots.rs`): a key variable holds up to eight keys,
apart by semicolons, and each key has an id derived from the node secret.

`derive` stands for the derivation, an HMAC of provider and key.
-/

namespace GmMiner.Cli

open GmMiner.Lib

def maxProviderSlots : Nat := 8

/-- `derive_slot_id`: provider, key and node secret to the id. -/
abbrev DeriveSlotId := String → List Char → String → Except Error String

structure KeySlot where
  id : String
  key : List Char
  deriving DecidableEq, Repr

/-! ### Segments -/

/-- `char::is_ascii_whitespace`. -/
def isAsciiWhitespace (c : Char) : Bool :=
  c == ' ' || c == '\t' || c == '\n' || c == '\x0c' || c == '\r'

/-- `trim_ascii`. -/
def trimAscii (text : List Char) : List Char :=
  (text.dropWhile isAsciiWhitespace).rdropWhile isAsciiWhitespace

theorem isWhitespace_of_isAsciiWhitespace {c : Char} (blank : isAsciiWhitespace c = true) :
    isWhitespace c = true := by
  unfold isAsciiWhitespace at blank
  simp only [Bool.or_eq_true, beq_iff_eq] at blank
  rcases blank with (((rfl | rfl) | rfl) | rfl) | rfl <;> decide

/-- A text that is blank in ASCII is blank. -/
theorem trim_of_trimAscii {text : List Char} (blank : trimAscii text = []) : trim text = [] := by
  have start : text.dropWhile isAsciiWhitespace = [] := by
    unfold trimAscii at blank
    have all := List.rdropWhile_eq_nil_iff.mp blank
    by_contra some_
    have head := List.head_dropWhile_not isAsciiWhitespace some_
    exact Bool.false_ne_true (head.symm.trans (all _ (List.head_mem some_)))
  have whole : trimStart text = [] := List.dropWhile_eq_nil_iff.mpr fun c mem =>
    isWhitespace_of_isAsciiWhitespace (List.dropWhile_eq_nil_iff.mp start c mem)
  unfold trim
  rw [whole]
  rfl

/-- `str::split` at a character. -/
def splitAt (separator : Char) : List Char → List (List Char)
  | [] => [[]]
  | c :: rest =>
      if c = separator then [] :: splitAt separator rest
      else
        match splitAt separator rest with
        | [] => [[c]]
        | segment :: later => (c :: segment) :: later

theorem splitAt_ne_nil (separator : Char) (text : List Char) : splitAt separator text ≠ [] := by
  cases text with
  | nil => exact List.cons_ne_nil _ _
  | cons c rest =>
      unfold splitAt
      split
      · exact List.cons_ne_nil _ _
      · split <;> exact List.cons_ne_nil _ _

/-- Text without separators before a text joins its first part. -/
theorem splitAt_glue {separator : Char} {start text first : List Char} {later : List (List Char)}
    (clean : separator ∉ start) (split : splitAt separator text = first :: later) :
    splitAt separator (start ++ text) = (start ++ first) :: later := by
  induction start with
  | nil => exact split
  | cons c start ih =>
      rw [List.mem_cons, not_or] at clean
      rw [List.cons_append, splitAt, if_neg (Ne.symm clean.1), ih clean.2]
      rfl

theorem splitAt_clean {separator : Char} {text : List Char} (clean : separator ∉ text) :
    splitAt separator text = [text] := by
  have last := splitAt_glue clean (show splitAt separator [] = [] :: [] from rfl)
  rwa [List.append_nil] at last

/-- A split at a separator is that of both sides. -/
theorem splitAt_cut (separator : Char) (text rest : List Char) :
    splitAt separator (text ++ separator :: rest) =
      splitAt separator text ++ splitAt separator rest := by
  induction text with
  | nil => exact if_pos rfl
  | cons c text ih =>
      rw [List.cons_append, splitAt, splitAt, ih]
      split
      · rfl
      · obtain ⟨first, later, split⟩ := List.exists_cons_of_ne_nil (splitAt_ne_nil separator text)
        rw [split]
        rfl

theorem splitAt_append {separator : Char} {text : List Char} (clean : separator ∉ text)
    (rest : List Char) :
    splitAt separator (text ++ separator :: rest) = text :: splitAt separator rest := by
  rw [splitAt_cut, splitAt_clean clean]
  rfl

/-- The characters of a part are of the text. -/
theorem mem_splitAt {separator c : Char} {text segment : List Char}
    (mem : segment ∈ splitAt separator text) (here : c ∈ segment) : c ∈ text := by
  induction text generalizing segment with
  | nil =>
      rw [List.mem_singleton.mp mem] at here
      cases here
  | cons first rest ih =>
      rw [splitAt] at mem
      split at mem
      · rcases List.mem_cons.mp mem with rfl | later
        · cases here
        · exact List.mem_cons_of_mem _ (ih later here)
      · split at mem
        · rw [List.mem_singleton.mp mem, List.mem_singleton] at here
          exact here ▸ List.mem_cons_self
        · rename_i last later split
          rcases List.mem_cons.mp mem with rfl | mem
          · rcases List.mem_cons.mp here with rfl | inside
            · exact List.mem_cons_self
            · exact List.mem_cons_of_mem _ (ih (split ▸ List.mem_cons_self) inside)
          · exact List.mem_cons_of_mem _ (ih (split ▸ List.mem_cons_of_mem _ mem) here)

/-- No segment holds the separator. -/
theorem notMem_of_mem_splitAt {separator : Char} {text segment : List Char}
    (mem : segment ∈ splitAt separator text) : separator ∉ segment := by
  induction text generalizing segment with
  | nil =>
      rw [List.mem_singleton.mp mem]
      exact List.not_mem_nil
  | cons first rest ih =>
      rw [splitAt] at mem
      split at mem
      · rcases List.mem_cons.mp mem with rfl | later
        · exact List.not_mem_nil
        · exact ih later
      · rename_i other
        split at mem
        · rw [List.mem_singleton.mp mem, List.mem_singleton]
          exact Ne.symm other
        · rename_i last later split
          rcases List.mem_cons.mp mem with rfl | mem
          · rw [List.mem_cons, not_or]
            exact ⟨Ne.symm other, ih (split ▸ List.mem_cons_self)⟩
          · exact ih (split ▸ List.mem_cons_of_mem _ mem)

/-! ### Parsing -/

/-- The loop of `parse_key_slots`, from a position on, with the ids seen. -/
def collectSlots (derive : DeriveSlotId) (provider nodeSecret : String) :
    Nat → List String → List (List Char) → Except Error (List KeySlot)
  | _, _, [] => .ok []
  | idx, seen, segment :: rest => do
      let key := trimAscii segment
      if key.isEmpty then
        bail (provider ++ " key configuration contains an empty slot at position " ++
          toString (idx + 1) ++ "; remove the extra semicolon or fill in the key")
      else
        let id ← derive provider key nodeSecret
        if seen.contains id then collectSlots derive provider nodeSecret (idx + 1) seen rest
        else
          let later ← collectSlots derive provider nodeSecret (idx + 1) (id :: seen) rest
          return ⟨id, key⟩ :: later

def parseKeySlots (derive : DeriveSlotId) (provider : String) (raw : List Char)
    (nodeSecret : String) : Except Error (List KeySlot) :=
  let segments := splitAt ';' raw
  if maxProviderSlots < segments.length then
    bail (provider ++ " key configuration has " ++ toString segments.length ++
      " semicolon-separated entries; at most " ++ toString maxProviderSlots ++
      " upstream key slots are supported")
  else collectSlots derive provider nodeSecret 0 [] segments

section Parsing

variable {derive : DeriveSlotId} {provider nodeSecret : String}

theorem trimAscii_cons {c : Char} (blank : isAsciiWhitespace c = true) (text : List Char) :
    trimAscii (c :: text) = trimAscii text := by
  unfold trimAscii
  rw [List.dropWhile_cons_of_pos blank]

theorem trimAscii_concat {c : Char} (blank : isAsciiWhitespace c = true) (text : List Char) :
    trimAscii (text ++ [c]) = trimAscii text := by
  unfold trimAscii
  rw [List.dropWhile_append]
  split
  · rename_i all
    rw [List.dropWhile_cons_of_pos blank, List.isEmpty_iff.mp all, List.dropWhile_nil]
  · exact List.rdropWhile_concat_pos _ _ _ blank

/-- Blanks around a text are blanks around its first and last segment. -/
theorem trimmed_segments_cons {c : Char} (blank : isAsciiWhitespace c = true) (text : List Char) :
    (splitAt ';' (c :: text)).map trimAscii = (splitAt ';' text).map trimAscii := by
  have other : c ≠ ';' := fun same => absurd (same ▸ blank) (by decide)
  rw [splitAt, if_neg other]
  cases split : splitAt ';' text with
  | nil => exact absurd split (splitAt_ne_nil _ _)
  | cons segment later => rw [List.map_cons, trimAscii_cons blank, List.map_cons]

/-- A character after a text goes to its last segment. -/
theorem splitAt_concat {separator c : Char} (other : c ≠ separator) (text : List Char) :
    ∃ before last, splitAt separator text = before ++ [last] ∧
      splitAt separator (text ++ [c]) = before ++ [last ++ [c]] := by
  induction text with
  | nil => exact ⟨[], [], rfl, by rw [List.nil_append, splitAt, if_neg other]; rfl⟩
  | cons first rest ih =>
      obtain ⟨before, last, split, more⟩ := ih
      rw [List.cons_append, splitAt, splitAt, split, more]
      by_cases ends : first = separator
      · rw [if_pos ends, if_pos ends]
        exact ⟨[] :: before, last, rfl, rfl⟩
      · rw [if_neg ends, if_neg ends]
        cases before with
        | nil => exact ⟨[], first :: last, rfl, rfl⟩
        | cons segment before => exact ⟨(first :: segment) :: before, last, rfl, rfl⟩

theorem trimmed_segments_concat {c : Char} (blank : isAsciiWhitespace c = true)
    (text : List Char) :
    (splitAt ';' (text ++ [c])).map trimAscii = (splitAt ';' text).map trimAscii := by
  have other : c ≠ ';' := fun same => absurd (same ▸ blank) (by decide)
  obtain ⟨before, last, split, more⟩ := splitAt_concat other text
  rw [split, more, List.map_append, List.map_append, List.map_singleton, List.map_singleton,
    trimAscii_concat blank]

/-- Trimming the whole first changes no trimmed part. -/
theorem trimmed_segments_trimAscii (text : List Char) :
    (splitAt ';' (trimAscii text)).map trimAscii = (splitAt ';' text).map trimAscii := by
  have start : (splitAt ';' (text.dropWhile isAsciiWhitespace)).map trimAscii =
      (splitAt ';' text).map trimAscii := by
    induction text with
    | nil => rfl
    | cons c rest ih =>
        cases blank : isAsciiWhitespace c with
        | false => rw [List.dropWhile_cons_of_neg (Bool.eq_false_iff.mp blank)]
        | true => rw [List.dropWhile_cons_of_pos blank, ih, trimmed_segments_cons blank]
  rw [← start]
  unfold trimAscii
  generalize text.dropWhile isAsciiWhitespace = text
  induction text using List.reverseRecOn with
  | nil => rfl
  | append_singleton rest c ih =>
      cases blank : isAsciiWhitespace c with
      | false => rw [List.rdropWhile_concat_neg _ _ _ (Bool.eq_false_iff.mp blank)]
      | true =>
          rw [List.rdropWhile_concat_pos _ _ _ blank]
          exact ih.trans (trimmed_segments_concat blank rest).symm

/-- The slots depend on the trimmed segments only. -/
theorem collectSlots_congr (idx : Nat) (seen : List String) {segments others : List (List Char)}
    (same : segments.map trimAscii = others.map trimAscii) :
    collectSlots derive provider nodeSecret idx seen segments =
      collectSlots derive provider nodeSecret idx seen others := by
  induction segments generalizing idx seen others with
  | nil =>
      cases others with
      | nil => rfl
      | cons => cases same
  | cons segment rest ih =>
      cases others with
      | nil => cases same
      | cons other rest' =>
          obtain ⟨head, tail⟩ := List.cons.inj same
          unfold collectSlots
          rw [head]
          simp only [ih _ _ tail]

/-- A key is parsed as if it were trimmed first. -/
theorem parseKeySlots_trimAscii (raw : List Char) :
    parseKeySlots derive provider (trimAscii raw) nodeSecret =
      parseKeySlots derive provider raw nodeSecret := by
  have same := trimmed_segments_trimAscii raw
  have length := congrArg List.length same
  rw [List.length_map, List.length_map] at length
  unfold parseKeySlots
  dsimp only
  rw [length, collectSlots_congr 0 [] same]

/-- What is parsed holds a slot. -/
theorem parseKeySlots_ne_nil {raw : List Char} {slots : List KeySlot}
    (parsed : parseKeySlots derive provider raw nodeSecret = .ok slots) : slots ≠ [] := by
  unfold parseKeySlots at parsed
  dsimp only at parsed
  split at parsed
  · cases parsed
  · cases split : splitAt ';' raw with
    | nil => exact absurd split (splitAt_ne_nil _ _)
    | cons segment rest =>
        rw [split, collectSlots] at parsed
        split at parsed
        · cases parsed
        · obtain ⟨id, -, parsed⟩ := bind_eq_ok.mp parsed
          rw [List.contains_nil, if_neg Bool.false_ne_true] at parsed
          obtain ⟨later, -, parsed⟩ := bind_eq_ok.mp parsed
          cases parsed
          exact List.cons_ne_nil _ _

end Parsing

/-! ### Advertised slots -/

/-- A `BTreeMap` of providers to slot ids. -/
abbrev ProviderSlots := List (String × List String)

def addProviderSlots (derive : DeriveSlotId) (nodeSecret : String) (out : ProviderSlots)
    (provider : String) (raw : Option String) : Except Error ProviderSlots :=
  match (raw.map fun value => trimAscii value.toList).filter (!·.isEmpty) with
  | none => .ok out
  | some raw => do
      let slots ← parseKeySlots derive provider raw nodeSecret
      return if slots.isEmpty then out
        else SortedMap.insert provider (slots.map KeySlot.id) out

/-- A value that is there and not blank, by the white space of ASCII. -/
def Filled (raw : Option String) : Prop := ∃ value, raw = some value ∧ trimAscii value.toList ≠ []

section Adding

variable {derive : DeriveSlotId} {nodeSecret : String}

/-- A filled value is parsed, and its provider has slots from then on. -/
theorem addProviderSlots_ok {out out' : ProviderSlots} {provider : String} {raw : Option String}
    (added : addProviderSlots derive nodeSecret out provider raw = .ok out') :
    (∀ other, other ∈ out'.map Prod.fst ↔
      other ∈ out.map Prod.fst ∨ (provider = other ∧ Filled raw)) ∧
    ∀ value, raw = some value → trimAscii value.toList ≠ [] →
      ∃ slots, parseKeySlots derive provider value.toList nodeSecret = .ok slots := by
  unfold addProviderSlots at added
  cases filled : (raw.map fun value => trimAscii value.toList).filter (!·.isEmpty) with
  | none =>
      rw [filled] at added
      cases added
      have unfilled : ∀ value, raw = some value → trimAscii value.toList = [] := by
        rintro value rfl
        simpa [Option.filter] using filled
      refine ⟨fun other => ⟨.inl, ?_⟩, fun value same some_ => absurd (unfilled value same) some_⟩
      rintro (mem | ⟨-, value, same, some_⟩)
      · exact mem
      · exact absurd (unfilled value same) some_
  | some text =>
      rw [filled] at added
      obtain ⟨slots, parsed, made⟩ := bind_eq_ok.mp added
      obtain ⟨mapped, some_⟩ := Option.filter_eq_some_iff.mp filled
      obtain ⟨value, rfl, rfl⟩ := Option.map_eq_some_iff.mp mapped
      have notEmpty : trimAscii value.toList ≠ [] := fun same => by
        rw [same] at some_
        cases some_
      rw [if_neg (mt List.isEmpty_iff.mp (parseKeySlots_ne_nil parsed))] at made
      cases made
      rw [parseKeySlots_trimAscii] at parsed
      refine ⟨fun other => ?_, fun value' same _ => ⟨slots, Option.some.inj same ▸ parsed⟩⟩
      rw [SortedMap.mem_keys_insert]
      exact or_congr_right ⟨fun same => ⟨same, value, rfl, notEmpty⟩, And.left⟩

end Adding

/-- The loop body of `provider_slots_for_keys`. -/
def addDirectSlots (derive : DeriveSlotId) (keys : ProviderKeys) (nodeSecret : String)
    (slots : ProviderSlots) (provider : Provider) : Except Error ProviderSlots :=
  match keys.directKey provider with
  | some (_, value) => addProviderSlots derive nodeSecret slots provider.asStr value
  | none => .ok slots

/-- The slots of a selected cloud upstream. -/
def addCloudSlots (derive : DeriveSlotId) (nodeSecret : String) (selected : Bool)
    (slots : ProviderSlots) (provider : String) (raw : Option String) :
    Except Error ProviderSlots :=
  if selected then addProviderSlots derive nodeSecret slots provider raw else .ok slots

def providerSlotsForKeys (derive : DeriveSlotId) (keys : ProviderKeys) (nodeSecret : String) :
    Except Error ProviderSlots := do
  validateCloudBackendSingleKeys keys
  let slots ← Provider.all.foldlM (addDirectSlots derive keys nodeSecret) []
  let slots ← addCloudSlots derive nodeSecret (keys.anthropicUpstream = some "foundry") slots
    "anthropic" keys.azureFoundryApiKey
  let slots ← addCloudSlots derive nodeSecret (keys.anthropicUpstream = some "bedrock") slots
    "anthropic" keys.bedrockApiKey
  addCloudSlots derive nodeSecret (keys.openaiUpstream = some "azure") slots
    "openai" keys.azureOpenaiApiKey

/-- `reject_multikey_for_legacy_image`. -/
def rejectMultikeyForLegacyImage (keys : ProviderKeys) : Except Error Unit :=
  keys.directKeys.forM fun (var, value) =>
    if hasSemicolon value then
      bail (var ++ " holds multiple keys but the selected image predates upstream                  key " ++
        "slots; deploy a slot-capable version (newer --version) or drop                  the extra " ++
        "keys")
    else .ok ()

/-- A legacy image gets single keys only. -/
theorem noSemicolon_of_ok {keys : ProviderKeys}
    (passed : rejectMultikeyForLegacyImage keys = .ok ()) :
    ∀ key ∈ keys.directKeys, hasSemicolon key.2 = false := by
  unfold rejectMultikeyForLegacyImage at passed
  generalize keys.directKeys = active at passed
  induction active with
  | nil => exact fun _ mem => absurd mem List.not_mem_nil
  | cons key rest ih =>
      obtain ⟨⟨⟩, single, later⟩ := bind_eq_ok.mp passed
      refine List.forall_mem_cons.mpr ⟨?_, ih later⟩
      dsimp only at single
      split at single
      · cases single
      · exact Bool.eq_false_iff.mpr ‹_›

/-! ### Exports -/

/-- A variable that a boot exports for a provider. -/
inductive SlotVar
  | keySlot (provider : String) (number : Nat)
  | slotIds (provider : String)
  deriving DecidableEq, Repr

/-- `str::to_ascii_uppercase`. -/
def toAsciiUppercase (text : String) : String := text.map Char.toUpper

def SlotVar.name : SlotVar → String
  | keySlot provider number =>
      "GM_" ++ toAsciiUppercase provider ++ "_KEY_SLOT_" ++ toString number
  | slotIds provider => "GM_" ++ toAsciiUppercase provider ++ "_SLOT_IDS"

/-- The variables of a provider's slots, with their values. -/
def slotExports (provider : String) (slots : List KeySlot) : List (SlotVar × List Char) :=
  slots.zipIdx.map (fun (slot, idx) => (.keySlot provider (idx + 1), slot.key)) ++
    [(.slotIds provider, (";".intercalate (slots.map KeySlot.id)).toList)]

/-- `render_slot_env_exports`, as the shell reads the quoted text back. -/
def renderSlotEnvExports (derive : DeriveSlotId) (provider : String) (raw : List Char)
    (nodeSecret : String) : Except Error (List (SlotVar × List Char)) := do
  let slots ← parseKeySlots derive provider raw nodeSecret
  return slotExports provider slots

theorem slotIds_mem_slotExports (provider other : String) (slots : List KeySlot) :
    SlotVar.slotIds other ∈ (slotExports provider slots).map Prod.fst ↔ other = provider := by
  simp [slotExports]

end GmMiner.Cli
