import GmMiner.Cli.Boot
import GmMiner.Cli.SlotEnv

/-!
Slot ids (`derive_slot_id` and `provider_slots_for_keys` of `cli/src/slots.rs`): of every id the
first key, in order, and what is advertised for a provider.

The HMAC and the base 32 of the digest are parameters; digests have 32 bytes, and five bits make a
letter.
-/

namespace GmMiner.Cli

open GmMiner.Lib

/-! ### Derivation -/

def slotIdLen : Nat := 12

/-- `derive_slot_id`, with the HMAC of a key and a message, which may reject the key. -/
def deriveSlotId (hmac : Bytes → Bytes → Option Bytes) (encode : Bytes → List Char) :
    DeriveSlotId := fun provider providerKey nodeSecret =>
  match hmac (asBytes nodeSecret)
      (asBytes provider ++ asBytes ":" ++ asBytes (String.ofList providerKey)) with
  | none => .error ["initialize slot id HMAC", "Invalid Length"]
  | some digest => .ok (String.ofList ((encode digest).take slotIdLen))

def Digests (hmac : Bytes → Bytes → Option Bytes) : Prop :=
  ∀ key message digest, hmac key message = some digest → digest.length = 32

/-- Upper case letters and digits, one for every five bits. -/
structure IsBase32 (encode : Bytes → List Char) : Prop where
  letters : ∀ bytes, ∀ c ∈ encode bytes, c.isUpper = true ∨ c.isDigit = true
  length : ∀ bytes, 8 * bytes.length ≤ 5 * (encode bytes).length

/-- A derived id is the first twelve letters of the digest's writing. -/
theorem deriveSlotId_ok {hmac : Bytes → Bytes → Option Bytes} {encode : Bytes → List Char}
    (digests : Digests hmac) (base32 : IsBase32 encode) {provider nodeSecret id : String}
    {key : List Char} (derived : deriveSlotId hmac encode provider key nodeSecret = .ok id) :
    id.length = slotIdLen ∧ ∀ c ∈ id.toList, c.isUpper = true ∨ c.isDigit = true := by
  unfold deriveSlotId at derived
  split at derived
  · cases derived
  · rename_i digest made
    cases derived
    have long := base32.length digest
    rw [digests _ _ _ made] at long
    rw [← String.length_toList, String.toList_ofList, List.length_take]
    refine ⟨Nat.min_eq_left ?_, fun c mem => base32.letters digest c (List.mem_of_mem_take mem)⟩
    have enough : slotIdLen = 12 := rfl
    omega

/-! ### The first key of every id -/

/-- Where an id first occurs. -/
def firstAt (all : List KeySlot) (id : String) : Nat := all.findIdx fun slot => slot.id == id

/-- The slots that are kept of all, next to ids that were seen before: the first with its id
each, in the order in which the ids first occur. -/
structure FirstOfEach (seen : List String) (all slots : List KeySlot) : Prop where
  inOrder : slots.Sublist all
  byFirst : slots.Pairwise fun slot later => firstAt all slot.id < firstAt all later.id
  distinct : (slots.map KeySlot.id).Nodup
  fresh : ∀ slot ∈ slots, slot.id ∉ seen
  first : ∀ slot ∈ slots, all.find? (fun other => other.id == slot.id) = some slot
  every : ∀ slot ∈ all, slot.id ∈ seen ∨ slot.id ∈ slots.map KeySlot.id

section FirstOfEach

variable {seen : List String} {all slots : List KeySlot} {slot : KeySlot}

theorem firstAt_cons_of_ne {id : String} (other : slot.id ≠ id) :
    firstAt (slot :: all) id = firstAt all id + 1 := by
  rw [firstAt, List.findIdx_cons, beq_false_of_ne other]
  rfl

theorem firstAt_cons_self : firstAt (slot :: all) slot.id = 0 := by
  rw [firstAt, List.findIdx_cons, beq_self_eq_true]
  rfl

/-- What is kept is determined: of two such lists each holds the other's slots, in the one
order. -/
theorem FirstOfEach.unique {slots' : List KeySlot} (firsts : FirstOfEach seen all slots)
    (firsts' : FirstOfEach seen all slots') : slots = slots' := by
  have sub : ∀ {kept kept' : List KeySlot}, FirstOfEach seen all kept →
      FirstOfEach seen all kept' → kept ⊆ kept' := by
    intro kept kept' one other slot mem
    rcases other.every slot (one.inOrder.subset mem) with known | same
    · exact absurd known (one.fresh slot mem)
    · obtain ⟨slot', mem', same⟩ := List.mem_map.mp same
      have found := other.first slot' mem'
      rw [same, one.first slot mem] at found
      exact Option.some.inj found ▸ mem'
  have perm : slots.Perm slots' :=
    (List.perm_ext_iff_of_nodup (List.Nodup.of_map _ firsts.distinct)
      (List.Nodup.of_map _ firsts'.distinct)).mpr
      fun slot => ⟨fun mem => sub firsts firsts' mem, fun mem => sub firsts' firsts mem⟩
  refine perm.eq_of_pairwise (fun slot other _ _ before after => ?_) firsts.byFirst firsts'.byFirst
  exact absurd before (Nat.lt_asymm after)

/-- A slot whose id was seen is left out. -/
theorem FirstOfEach.skip (firsts : FirstOfEach seen all slots) (known : slot.id ∈ seen) :
    FirstOfEach seen (slot :: all) slots where
  inOrder := firsts.inOrder.cons slot
  byFirst := by
    refine firsts.byFirst.imp_of_mem fun {kept later} mem mem' before => ?_
    have other : ∀ kept ∈ slots, slot.id ≠ kept.id :=
      fun kept mem same => firsts.fresh kept mem (same ▸ known)
    rw [firstAt_cons_of_ne (other kept mem), firstAt_cons_of_ne (other later mem')]
    exact Nat.succ_lt_succ before
  distinct := firsts.distinct
  fresh := firsts.fresh
  first := by
    intro kept mem
    have other : slot.id ≠ kept.id := fun same => firsts.fresh kept mem (same ▸ known)
    rw [List.find?_cons_of_neg (by simpa using other)]
    exact firsts.first kept mem
  every := List.forall_mem_cons.mpr ⟨.inl known, firsts.every⟩

/-- A slot whose id is new is kept in its place. -/
theorem FirstOfEach.keep (firsts : FirstOfEach (slot.id :: seen) all slots)
    (new : slot.id ∉ seen) : FirstOfEach seen (slot :: all) (slot :: slots) := by
  have apart : ∀ kept ∈ slots, kept.id ≠ slot.id ∧ kept.id ∉ seen := by
    intro kept mem
    simpa using firsts.fresh kept mem
  refine ⟨firsts.inOrder.cons_cons slot, ?_, ?_, ?_, ?_, ?_⟩
  · refine List.pairwise_cons.mpr ⟨fun kept mem => ?_, ?_⟩
    · rw [firstAt_cons_self, firstAt_cons_of_ne (apart kept mem).1.symm]
      exact Nat.succ_pos _
    · refine firsts.byFirst.imp_of_mem fun {kept later} mem mem' before => ?_
      rw [firstAt_cons_of_ne (apart kept mem).1.symm, firstAt_cons_of_ne (apart later mem').1.symm]
      exact Nat.succ_lt_succ before
  · rw [List.map_cons, List.nodup_cons]
    refine ⟨fun mem => ?_, firsts.distinct⟩
    obtain ⟨kept, inside, same⟩ := List.mem_map.mp mem
    exact (apart kept inside).1 same
  · exact List.forall_mem_cons.mpr ⟨new, fun kept mem => (apart kept mem).2⟩
  · refine List.forall_mem_cons.mpr ⟨List.find?_cons_of_pos (by simp), fun kept mem => ?_⟩
    rw [List.find?_cons_of_neg (by simpa using (apart kept mem).1.symm)]
    exact firsts.first kept mem
  · refine List.forall_mem_cons.mpr ⟨.inr List.mem_cons_self, fun other mem => ?_⟩
    rcases firsts.every other mem with known | kept
    · rcases List.mem_cons.mp known with same | known
      · exact .inr (same ▸ List.mem_cons_self)
      · exact .inl known
    · exact .inr (List.mem_cons_of_mem _ kept)

end FirstOfEach

section Parsing

variable {derive : DeriveSlotId} {provider nodeSecret : String}

/-- Every segment has a key with an id, and of every id the first key is kept. -/
theorem collectSlots_firsts {idx : Nat} {seen : List String} {segments : List (List Char)}
    {slots : List KeySlot}
    (collected : collectSlots derive provider nodeSecret idx seen segments = .ok slots) :
    ∃ all, all.map KeySlot.key = segments.map trimAscii ∧
      (∀ slot ∈ all, derive provider slot.key nodeSecret = .ok slot.id) ∧
        FirstOfEach seen all slots := by
  induction segments generalizing idx seen slots with
  | nil =>
      cases collected
      exact ⟨[], rfl, nofun, .slnil, .nil, .nil, nofun, nofun, nofun⟩
  | cons segment rest ih =>
      rw [collectSlots] at collected
      split at collected
      · cases collected
      · obtain ⟨id, derived, collected⟩ := bind_eq_ok.mp collected
        split at collected
        · rename_i known
          obtain ⟨all, keys, each, firsts⟩ := ih collected
          refine ⟨⟨id, trimAscii segment⟩ :: all, by rw [List.map_cons, List.map_cons, keys],
            List.forall_mem_cons.mpr ⟨derived, each⟩, firsts.skip ?_⟩
          exact List.contains_iff_mem.mp known
        · rename_i new
          obtain ⟨later, rest', same⟩ := bind_eq_ok.mp collected
          cases same
          obtain ⟨all, keys, each, firsts⟩ := ih rest'
          refine ⟨⟨id, trimAscii segment⟩ :: all, by rw [List.map_cons, List.map_cons, keys],
            List.forall_mem_cons.mpr ⟨derived, each⟩, firsts.keep ?_⟩
          exact mt List.contains_iff_mem.mpr new

/-- The slots parsed are the first of each id among the keys. -/
theorem parseKeySlots_firsts {raw : List Char} {slots : List KeySlot}
    (parsed : parseKeySlots derive provider raw nodeSecret = .ok slots) :
    ∃ all, all.map KeySlot.key = (splitAt ';' raw).map trimAscii ∧
      (∀ slot ∈ all, derive provider slot.key nodeSecret = .ok slot.id) ∧
        FirstOfEach [] all slots := by
  unfold parseKeySlots at parsed
  dsimp only at parsed
  split at parsed
  · cases parsed
  · exact collectSlots_firsts parsed

/-- Blanks alone are an empty slot. -/
theorem parseKeySlots_blank {raw : List Char} (blank : trimAscii raw = [])
    (slots : List KeySlot) : parseKeySlots derive provider raw nodeSecret ≠ .ok slots := by
  rw [← parseKeySlots_trimAscii, blank]
  intro parsed
  cases parsed

/-! ### What is advertised -/

/-- The ids that a value gives a provider. -/
def idsOf (derive : DeriveSlotId) (provider nodeSecret : String) (raw : String) :
    Option (List String) :=
  (parseKeySlots derive provider raw.toList nodeSecret).toOption.map (List.map KeySlot.id)

theorem idsOf_blank {raw : String} (blank : trimAscii raw.toList = []) :
    idsOf derive provider nodeSecret raw = none := by
  rw [idsOf]
  cases parsed : parseKeySlots derive provider raw.toList nodeSecret with
  | error => rfl
  | ok slots => exact absurd parsed (parseKeySlots_blank blank slots)

/-- Adding a provider's slots changes its own entry alone. -/
theorem lookup_addProviderSlots {out out' : ProviderSlots} {raw : Option String}
    (added : addProviderSlots derive nodeSecret out provider raw = .ok out') (other : String) :
    out'.lookup other = if other = provider then
      (raw.bind (idsOf derive provider nodeSecret)).or (out.lookup other)
    else out.lookup other := by
  unfold addProviderSlots at added
  cases raw with
  | none =>
      cases added
      simp
  | some value =>
      rw [Option.map_some, Option.bind_some] at *
      by_cases blank : trimAscii value.toList = []
      · rw [blank] at added
        cases added
        rw [idsOf_blank blank, Option.none_or, ite_self]
      · have filled : (some (trimAscii value.toList)).filter (!·.isEmpty) =
            some (trimAscii value.toList) := by
          simpa [Option.filter] using blank
        rw [filled] at added
        obtain ⟨slots, parsed, made⟩ := bind_eq_ok.mp added
        rw [if_neg (mt List.isEmpty_iff.mp (parseKeySlots_ne_nil parsed))] at made
        cases made
        rw [parseKeySlots_trimAscii] at parsed
        rw [SortedMap.lookup_insert, idsOf, parsed]
        rfl

/-- A provider with one value is advertised under the ids of that value. -/
theorem lookup_addSources {sources : List (String × Option String)} {out out' : ProviderSlots}
    {raw : String}
    (only : ∀ source ∈ sources, source.1 = provider → source.2 = none ∨ source.2 = some raw)
    (added : sources.foldlM (addSource derive nodeSecret) out = .ok out') :
    out'.lookup provider = if (provider, some raw) ∈ sources then
      (idsOf derive provider nodeSecret raw).or (out.lookup provider)
    else out.lookup provider := by
  induction sources generalizing out with
  | nil =>
      cases added
      rfl
  | cons source rest ih =>
      rw [List.foldlM_cons] at added
      obtain ⟨between, first, later⟩ := bind_eq_ok.mp added
      obtain ⟨here, onlyRest⟩ := List.forall_mem_cons.mp only
      rw [ih onlyRest later, lookup_addProviderSlots first provider]
      obtain ⟨name, held⟩ := source
      by_cases same : provider = name
      · subst same
        rcases here rfl with rfl | rfl
        · simp
        · cases ids : idsOf derive provider nodeSecret raw <;> simp [ids]
      · have other : (provider, some raw) ≠ (name, held) := fun both => same (congrArg Prod.fst both)
        simp [same, other]

end Parsing

/-- A provider's source is its direct key or the key of a cloud upstream. -/
private theorem source_of_provider {keys : ProviderKeys} {provider : Provider}
    {value : Option String} (mem : (provider.asStr, value) ∈ slotSources keys) :
    (∃ var, keys.directKey provider = some (var, value)) ∨
      (provider = .anthropic ∧
        (value = (if keys.anthropicUpstream = some "foundry" then keys.azureFoundryApiKey else none) ∨
          value = if keys.anthropicUpstream = some "bedrock" then keys.bedrockApiKey else none)) ∨
      (provider = .openAi ∧
        value = if keys.openaiUpstream = some "azure" then keys.azureOpenaiApiKey else none) := by
  unfold slotSources at mem
  rcases List.mem_append.mp mem with direct | cloud
  · obtain ⟨other, -, found⟩ := List.mem_filterMap.mp direct
    obtain ⟨key, held, same⟩ := Option.map_eq_some_iff.mp found
    obtain ⟨name, rfl⟩ := Prod.mk.inj same
    cases Provider.asStr_injective name
    exact .inl ⟨key.1, held⟩
  · simp only [List.mem_cons, Prod.mk.injEq, List.not_mem_nil, or_false] at cloud
    rcases cloud with ⟨name, foundry⟩ | ⟨name, bedrock⟩ | ⟨name, azure⟩
    · exact .inr (.inl ⟨Provider.asStr_injective name, .inl foundry⟩)
    · exact .inr (.inl ⟨Provider.asStr_injective name, .inr bedrock⟩)
    · exact .inr (.inr ⟨Provider.asStr_injective name, azure⟩)

private theorem ne_of_direct {upstream : Option String} {other : String}
    (direct : upstream.getD "direct" = "direct") (apart : other ≠ "direct") :
    upstream ≠ some other := by
  rintro rfl
  exact apart direct

/-- Of the upstreams of a provider one is selected. -/
private theorem exists_selected (keys : ProviderKeys) (provider : Provider) :
    ∃ selected, ∀ value, (provider.asStr, value) ∈ slotSources keys →
      value = none ∨ value = selected := by
  by_cases anthropic : provider = .anthropic
  · subst anthropic
    refine ⟨if keys.anthropicUpstream = some "foundry" then keys.azureFoundryApiKey
      else if keys.anthropicUpstream = some "bedrock" then keys.bedrockApiKey else keys.anthropic,
      fun value mem => ?_⟩
    rcases source_of_provider mem with ⟨var, direct⟩ | ⟨-, foundry | bedrock⟩ | ⟨other, -⟩
    · cases direct
      split
      · rename_i direct
        rw [if_neg (ne_of_direct direct (by decide)), if_neg (ne_of_direct direct (by decide))]
        exact .inr rfl
      · exact .inl rfl
    · split at foundry
      · exact .inr (foundry.trans (if_pos ‹_›).symm)
      · exact .inl foundry
    · split at bedrock
      · rename_i selected
        rw [selected]
        exact .inr bedrock
      · exact .inl bedrock
    · cases other
  by_cases openAi : provider = .openAi
  · subst openAi
    refine ⟨if keys.openaiUpstream = some "azure" then keys.azureOpenaiApiKey else keys.openai,
      fun value mem => ?_⟩
    rcases source_of_provider mem with ⟨var, direct⟩ | ⟨other, -⟩ | ⟨-, azure⟩
    · cases direct
      split
      · rename_i direct
        rw [if_neg (ne_of_direct direct (by decide))]
        exact .inr rfl
      · exact .inl rfl
    · cases other
    · split at azure
      · exact .inr (azure.trans (if_pos ‹_›).symm)
      · exact .inl azure
  · refine ⟨((keys.directKey provider).map Prod.snd).getD none, fun value mem => ?_⟩
    rcases source_of_provider mem with ⟨var, direct⟩ | ⟨same, -⟩ | ⟨same, -⟩
    · rw [direct]
      exact .inr rfl
    · exact absurd same anthropic
    · exact absurd same openAi

/-- A provider's key is where its upstream looks for it. -/
theorem slotSources_only {keys : ProviderKeys} {provider : Provider} {raw : String}
    (held : (provider.asStr, some raw) ∈ slotSources keys) :
    ∀ source ∈ slotSources keys, source.1 = provider.asStr →
      source.2 = none ∨ source.2 = some raw := by
  obtain ⟨selected, only⟩ := exists_selected keys provider
  have raw_ : some raw = selected := (only _ held).resolve_left (Option.some_ne_none raw)
  rintro ⟨name, value⟩ mem rfl
  rw [raw_]
  exact only value mem

end GmMiner.Cli
