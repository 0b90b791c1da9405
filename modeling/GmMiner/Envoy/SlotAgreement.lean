import GmMiner.Cli.SlotIds
import GmMiner.Envoy.SlotConfigText
import GmMiner.Json.Value

/-!
Slot ids from the registration to the filter. What is advertised for a provider is what a boot
joins into `GM_<PROVIDER>_SLOT_IDS`, and the rendered `slot_config` leads from each of these ids
to its key.
-/

namespace GmMiner.Envoy

open GmMiner.Lib
open Cli (DeriveSlotId KeySlot SlotVar splitAt)

/-! ### An environment after exports -/

/-- The environment after assignments, one after the other. -/
def assign (before : String → Option String) (assignments : List (List Char × List Char)) :
    String → Option String :=
  assignments.foldl (fun env assignment name =>
    if name = String.ofList assignment.1 then some (String.ofList assignment.2) else env name) before

/-- Every assignment is still in force. -/
def InForce (assignments : List (List Char × List Char)) (env : String → Option String) : Prop :=
  ∀ assignment ∈ assignments,
    env (String.ofList assignment.1) = some (String.ofList assignment.2)

/-- A variable that is not assigned keeps its value. -/
theorem assign_other {assignments : List (List Char × List Char)} {name : List Char}
    (other : name ∉ assignments.map Prod.fst) (before : String → Option String) :
    assign before assignments (String.ofList name) = before (String.ofList name) := by
  induction assignments generalizing before with
  | nil => rfl
  | cons assignment rest ih =>
      rw [List.map_cons, List.mem_cons, not_or] at other
      rw [assign, List.foldl_cons, ← assign, ih other.2, if_neg]
      exact fun same => other.1 (String.ofList_inj.mp same)

/-- Assignments of distinct names are in force. -/
theorem inForce_assign {assignments : List (List Char × List Char)}
    (distinct : (assignments.map Prod.fst).Nodup) (before : String → Option String) :
    InForce assignments (assign before assignments) := by
  induction assignments generalizing before with
  | nil => exact nofun
  | cons assignment rest ih =>
      rw [List.map_cons, List.nodup_cons] at distinct
      refine List.forall_mem_cons.mpr ⟨?_, ih distinct.2 _⟩
      exact (assign_other distinct.1 _).trans (if_pos rfl)

/-! ### The variables of a provider -/

theorem name_keySlot (provider : String) (number : Nat) :
    (SlotVar.keySlot provider number).name = slotPrefix provider ++ "_KEY_SLOT_" ++ Nat.repr number :=
  rfl

theorem name_slotIds (provider : String) :
    (SlotVar.slotIds provider).name = slotPrefix provider ++ "_SLOT_IDS" := rfl

theorem keySlot_injective {provider : String} {number other : Nat}
    (same : (SlotVar.keySlot provider number).name.toList =
      (SlotVar.keySlot provider other).name.toList) : number = other := by
  simp only [name_keySlot, String.toList_append, List.append_cancel_left_eq,
    Nat.toList_repr] at same
  exact Decimal.toDigits_injective same

theorem keySlot_ne_slotIds (provider : String) (number : Nat) :
    (SlotVar.keySlot provider number).name.toList ≠ (SlotVar.slotIds provider).name.toList := by
  intro same
  simp only [name_keySlot, name_slotIds, String.toList_append, List.append_assoc,
    List.append_cancel_left_eq] at same
  exact absurd (congrArg (·[1]?) same) (by simp)

/-- A provider's variables are different ones. -/
theorem slotExports_distinct (provider : String) (slots : List KeySlot) :
    ((Cli.slotExports provider slots).map fun entry => entry.1.name.toList).Nodup := by
  rw [Cli.slotExports, List.map_append, List.nodup_append, List.map_map]
  refine ⟨?_, List.nodup_singleton _, ?_⟩
  · have numbers : (slots.zipIdx.map Prod.snd).Nodup := by
      rw [List.zipIdx_map_snd]
      exact List.nodup_range'
    have names := numbers.map (f := fun idx => (SlotVar.keySlot provider (idx + 1)).name.toList)
      fun idx other same => Nat.succ.inj (keySlot_injective same)
    rwa [List.map_map] at names
  · intro name mem other last
    obtain ⟨⟨slot, idx⟩, -, rfl⟩ := List.mem_map.mp mem
    rw [List.map_singleton, List.mem_singleton] at last
    subst last
    exact keySlot_ne_slotIds provider (idx + 1)

/-! ### Ids that are joined and split again -/

/-- Ids without semicolons are split as they were joined. -/
theorem splitAt_join {ids : List String} (some_ : ids ≠ []) (clean : ∀ id ∈ ids, ';' ∉ id.toList) :
    splitAt ';' (";".intercalate ids).toList = ids.map String.toList := by
  induction ids with
  | nil => exact absurd rfl some_
  | cons id rest ih =>
      obtain ⟨here, later⟩ := List.forall_mem_cons.mp clean
      cases rest with
      | nil => rw [String.intercalate_singleton, Cli.splitAt_clean here, List.map_singleton]
      | cons next rest =>
          have semicolon : ";".toList = [';'] := rfl
          rw [String.intercalate_cons_cons, String.toList_append, String.toList_append, semicolon,
            List.append_assoc, List.singleton_append, Cli.splitAt_append here,
            ih (List.cons_ne_nil _ _) later]
          rfl

/-- The ids exported are read back. -/
theorem slotIds_eq {env : String → Option String} {provider : String} {ids : List String}
    (some_ : ids ≠ []) (clean : ∀ id ∈ ids, ';' ∉ id.toList) (filled : ∀ id ∈ ids, id ≠ "")
    (exported : env (slotPrefix provider ++ "_SLOT_IDS") = some (";".intercalate ids)) :
    slotIds env provider = ids := by
  have kept : (ids.map String.toList).filter (· ≠ []) = ids.map String.toList := by
    refine List.filter_eq_self.mpr (List.forall_mem_map.mpr fun id mem => ?_)
    exact decide_eq_true fun blank => filled id mem (String.toList_eq_nil_iff.mp blank)
  rw [slotIds, exported, Option.getD_some, splitAt_join some_ clean, kept, List.map_map]
  exact (List.map_congr_left fun id _ => String.ofList_toList).trans (List.map_id ids)

/-! ### The table -/

section Table

variable {provider id : String} {ids : List String}

theorem slotMap_names (provider : String) (ids : List String) :
    (slotMap provider ids).map Prod.fst = ids.reverse := by
  rw [slotMap, List.map_reverse, List.map_map]
  refine congrArg List.reverse (Eq.trans ?_ (List.zipIdx_map_fst 0 ids))
  rfl

theorem slotMap_lookup (distinct : ids.Nodup) {idx : Nat} (here : ids[idx]? = some id) :
    (slotMap provider ids).lookup id = some (SlotVar.keySlot provider (idx + 1)).name := by
  refine Json.Value.lookup_of_mem ?_ (List.mem_reverse.mpr (List.mem_map.mpr ⟨(id, idx), ?_, rfl⟩))
  · rw [slotMap_names]
    exact List.nodup_reverse.mpr distinct
  · exact List.mk_mem_zipIdx_iff_getElem?.mpr here

/-- Another id leads nowhere. -/
theorem slotMap_lookup_none (absent : id ∉ ids) : (slotMap provider ids).lookup id = none := by
  rw [List.lookup_eq_none_iff]
  intro entry mem
  have inside : entry.1 ∈ ids := by
    rw [← List.mem_reverse, ← slotMap_names provider]
    exact List.mem_map_of_mem mem
  rw [bne_iff_ne]
  rintro rfl
  exact absent inside

end Table

/-- A table leads from the ids of a provider to their keys, and from nothing else. -/
structure SlotConfig.Agrees (cfg : SlotConfig) (derive : DeriveSlotId)
    (provider nodeSecret : String) (env : String → Option String) (ids : List String) : Prop where
  mapped : ∀ id ∈ ids, ∃ envName value, cfg.slots.lookup id = some envName ∧
    env envName = some value ∧ derive provider value.toList nodeSecret = .ok id
  others : ∀ id, id ∉ ids → cfg.slots.lookup id = none
  first : ∃ id envName, ids.head? = some id ∧ cfg.slots.lookup id = some envName ∧
    cfg.defaultEnv = some envName

/-- With the exports of some slots in force, the rendered table agrees with them. -/
theorem agrees_of_inForce {derive : DeriveSlotId} {provider nodeSecret : String}
    {env : String → Option String} {slots : List KeySlot} (some_ : slots ≠ [])
    (distinct : (slots.map KeySlot.id).Nodup)
    (letters : ∀ slot ∈ slots, slot.id ≠ "" ∧ ';' ∉ slot.id.toList)
    (derived : ∀ slot ∈ slots, derive provider slot.key nodeSecret = .ok slot.id)
    (inForce : InForce ((Cli.slotExports provider slots).map fun entry =>
      (entry.1.name.toList, entry.2)) env) :
    env (slotPrefix provider ++ "_SLOT_IDS") = some (";".intercalate (slots.map KeySlot.id)) ∧
      ∀ upstreams cfg, slotConfigLua upstreams env provider = some cfg →
        cfg.Agrees derive provider nodeSecret env (slots.map KeySlot.id) := by
  have held : ∀ entry ∈ Cli.slotExports provider slots,
      env entry.1.name = some (String.ofList entry.2) := by
    intro entry mem
    have assigned := inForce _ (List.mem_map_of_mem mem)
    rwa [String.ofList_toList] at assigned
  have exported : env (slotPrefix provider ++ "_SLOT_IDS") =
      some (";".intercalate (slots.map KeySlot.id)) := by
    have ids := held _ (List.mem_append_right _ (List.mem_singleton_self _))
    rwa [String.ofList_toList] at ids
  have key : ∀ idx slot, slots[idx]? = some slot →
      env (SlotVar.keySlot provider (idx + 1)).name = some (String.ofList slot.key) := by
    intro idx slot here
    exact held (.keySlot provider (idx + 1), slot.key) (List.mem_append_left _
      (List.mem_map.mpr ⟨(slot, idx), List.mk_mem_zipIdx_iff_getElem?.mpr here, rfl⟩))
  refine ⟨exported, fun upstreams cfg configured => ?_⟩
  obtain ⟨upstream, -, slotted⟩ := Option.bind_eq_some_iff.mp configured
  obtain ⟨settings, -, rfl⟩ := Option.map_eq_some_iff.mp slotted
  have ids : slotIds env provider = slots.map KeySlot.id := by
    refine slotIds_eq (by simpa using some_) ?_ ?_ exported
    · exact List.forall_mem_map.mpr fun slot mem => (letters slot mem).2
    · exact List.forall_mem_map.mpr fun slot mem => (letters slot mem).1
  -- The ids are apart, so the map of the slots gives each id the variable of its own place.
  have lookup : ∀ idx slot, slots[idx]? = some slot →
      (slotSettings env provider settings).slots.lookup slot.id =
        some (SlotVar.keySlot provider (idx + 1)).name := by
    intro idx slot here
    change (slotMap provider (slotIds env provider)).lookup slot.id = _
    rw [ids]
    exact slotMap_lookup distinct (by rw [List.getElem?_map, here, Option.map_some])
  refine ⟨fun id mem => ?_, fun id absent => ?_, ?_⟩
  · obtain ⟨slot, inside, rfl⟩ := List.mem_map.mp mem
    obtain ⟨idx, here⟩ := List.mem_iff_getElem?.mp inside
    refine ⟨_, _, lookup idx slot here, key idx slot here, ?_⟩
    rw [String.toList_ofList]
    exact derived slot inside
  · change (slotMap provider (slotIds env provider)).lookup id = _
    rw [ids]
    exact slotMap_lookup_none absent
  · cases slots with
    | nil => exact absurd rfl some_
    | cons slot rest =>
        refine ⟨slot.id, _, rfl, lookup 0 slot rfl, ?_⟩
        change (if slotIds env provider = [] then none else some _) = _
        rw [ids, if_neg (by simp), name_keySlot, String.append_assoc]
        rfl

/-! ### From the registration to the filter -/

section Agreement

variable {hmac : Bytes → Bytes → Option Bytes} {encode : Bytes → List Char}

theorem base32Ids (digests : Cli.Digests hmac) (base32 : Cli.IsBase32 encode) :
    Base32Ids (Cli.deriveSlotId hmac encode) :=
  fun _ _ _ _ derived => (Cli.deriveSlotId_ok digests base32 derived).2

/-- A derived id is nonempty and has no semicolon. -/
theorem apart_of_derived (digests : Cli.Digests hmac) (base32 : Cli.IsBase32 encode)
    {provider nodeSecret id : String} {key : List Char}
    (derived : Cli.deriveSlotId hmac encode provider key nodeSecret = .ok id) :
    id ≠ "" ∧ ';' ∉ id.toList := by
  obtain ⟨long, letters⟩ := Cli.deriveSlotId_ok digests base32 derived
  constructor
  · rintro rfl
    cases long
  · intro mem
    rcases letters _ mem with upper | digit
    · exact absurd upper (by decide)
    · exact absurd digit (by decide)

/-- A text renders exactly when its value parses. -/
theorem rendered_iff {derive : DeriveSlotId} {provider nodeSecret raw : String} :
    (∃ text, Cli.renderSlotEnvExportsText derive provider raw.toList nodeSecret = .ok text) ↔
      (Cli.idsOf derive provider nodeSecret raw).isSome = true := by
  rw [Cli.idsOf, Cli.renderSlotEnvExportsText]
  cases Cli.parseKeySlots derive provider raw.toList nodeSecret with
  | error failure =>
      refine iff_of_false ?_ Bool.false_ne_true
      rintro ⟨text, rendered⟩
      cases rendered
  | ok slots => exact iff_of_true ⟨_, rfl⟩ rfl

end Agreement

/-! ### Three keys, one of them twice -/

/-- The HMACs of two OpenAI keys under the secret below, and their base 32. -/
def sampleDigests : List (String × Bytes × String) :=
  [("openai:sk-1", [12, 135, 114, 176, 121, 145, 241, 32, 255, 127, 245, 165, 129, 76, 190, 13,
      129, 83, 152, 177, 253, 156, 182, 147, 71, 128, 18, 48, 49, 224, 78, 154],
      "BSDXFMDZSHYSB7376WSYCTF6BWAVHGFR7WOLNE2HQAJDAMPAJ2NA"),
    ("openai:sk-2", [234, 228, 187, 86, 22, 82, 210, 233, 195, 7, 92, 160, 168, 181, 17, 246,
      30, 106, 234, 130, 190, 14, 157, 21, 88, 73, 45, 150, 149, 150, 11, 172],
      "5LSLWVQWKLJOTQYHLSQKRNIR6YPGV2UCXYHJ2FKYJEWZNFMWBOWA")]

def sampleHmac (key message : Bytes) : Option Bytes :=
  if key = asBytes Cli.shortSecret then
    (sampleDigests.find? fun sample => asBytes sample.1 == message).map fun sample => sample.2.1
  else none

def sampleBase32 (bytes : Bytes) : List Char :=
  match sampleDigests.find? fun sample => sample.2.1 == bytes with
  | some sample => sample.2.2.toList
  | none => List.replicate (2 * bytes.length) 'A'

theorem sampleHmac_digests : Cli.Digests sampleHmac := by
  have long : ∀ sample ∈ sampleDigests, sample.2.1.length = 32 := by decide
  intro key message digest made
  unfold sampleHmac at made
  split at made
  · obtain ⟨sample, found, rfl⟩ := Option.map_eq_some_iff.mp made
    exact long sample (List.mem_of_find?_eq_some found)
  · cases made

/-- The sample encoding is of base 32. -/
theorem sampleBase32_isBase32 : Cli.IsBase32 sampleBase32 := by
  have known : ∀ sample ∈ sampleDigests,
      (sample.2.2.toList.all fun c => c.isUpper || c.isDigit) = true ∧
        8 * sample.2.1.length ≤ 5 * sample.2.2.toList.length := by
    decide
  refine ⟨fun bytes c mem => ?_, fun bytes => ?_⟩
  · unfold sampleBase32 at mem
    split at mem
    · rename_i sample found
      have letters := (known sample (List.mem_of_find?_eq_some found)).1
      exact Bool.or_eq_true _ _ ▸ List.all_eq_true.mp letters c mem
    · rw [List.eq_of_mem_replicate mem]
      exact .inl rfl
  · unfold sampleBase32
    split
    · rename_i sample found
      have long := (known sample (List.mem_of_find?_eq_some found)).2
      have same := List.find?_some found
      rwa [beq_iff_eq.mp same] at long
    · rw [List.length_replicate]
      omega

/-- The first key comes again after the second, with blanks around it. -/
def repeatedKeys : String := "sk-1;sk-2; sk-1 "

end GmMiner.Envoy
