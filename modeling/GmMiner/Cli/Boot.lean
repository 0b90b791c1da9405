import GmMiner.Cli.EnvFile
import GmMiner.Cli.StartScript

/-!
The deploy preflight and the boot of the container agree on the provider keys.

A configuration the preflight accepts is written to the env file, and the
entrypoint reads it back. The boot is right if the script gets past its gates and
exports slot ids for just the providers that the registration advertises.
-/

namespace GmMiner.Cli

open GmMiner.Lib

/-! ### The environment of the container -/

/-- The variables that a file sets. -/
def deliveredEnv (text : List Char) : Environment := fun name =>
  ((readEnvFile text).findSome? fun line => line.bind fun entry =>
    if entry.1 = name.toList then some (String.ofList entry.2) else none).getD ""

/-- The first line of a name gives its value. -/
theorem findSome?_named {names : List String} {name : String} (mem : name ∈ names)
    (value : String → String) (rest : List (Option (List Char × List Char))) :
    ((names.map fun other => some (other.toList, (value other).toList)) ++ rest).findSome?
      (fun line => line.bind fun entry =>
        if entry.1 = name.toList then some (String.ofList entry.2) else none) =
      some (value name) := by
  induction names with
  | nil => exact absurd mem List.not_mem_nil
  | cons head names ih =>
      rw [List.map_cons, List.cons_append, List.findSome?_cons, Option.bind_some]
      by_cases here : head = name
      · rw [if_pos (congrArg String.toList here), here, String.ofList_toList]
      · rw [if_neg fun same => here (String.toList_injective same)]
        exact ih ((List.mem_cons.mp mem).resolve_left (Ne.symm here))

/-- Without line feeds every value is delivered as it was configured. -/
theorem deliveredEnv_eq {keys : ProviderKeys} {nodeSecret : String}
    {registryCreds : Option RegistryCredentials}
    (plain : ∀ entry ∈ configuredEntries keys nodeSecret registryCreds, '\n' ∉ entry.2.toList)
    {name : String} (mem : name ∈ canonicalAllowedEnvs) :
    deliveredEnv (renderEnvFile keys nodeSecret registryCreds) name =
      configuredValue keys nodeSecret name := by
  have read := (KeyedLines.decode_encode_iff
    ((configuredEntries keys nodeSecret registryCreds).map fun entry =>
      (entry.1.toList, entry.2.toList)) (show '=' ≠ '\n' by decide)
    (List.forall_mem_map.mpr (configured_names keys nodeSecret registryCreds))).mpr
    (List.forall_mem_map.mpr plain)
  unfold deliveredEnv readEnvFile
  rw [renderEnvFile_eq, read, List.map_map]
  unfold configuredEntries
  rw [List.map_append, List.map_map]
  have found := findSome?_named mem (configuredValue keys nodeSecret)
  exact (congrArg (Option.getD · "") (found _)).trans Option.getD_some

/-! ### Advertised slots -/

/-- Where `provider_slots_for_keys` looks for slots, in order. -/
def slotSources (keys : ProviderKeys) : List (String × Option String) :=
  (Provider.all.filterMap fun provider =>
    (keys.directKey provider).map fun key => (provider.asStr, key.2)) ++
  [("anthropic",
      if keys.anthropicUpstream = some "foundry" then keys.azureFoundryApiKey else none),
    ("anthropic", if keys.anthropicUpstream = some "bedrock" then keys.bedrockApiKey else none),
    ("openai", if keys.openaiUpstream = some "azure" then keys.azureOpenaiApiKey else none)]

section Advertised

variable {derive : DeriveSlotId} {nodeSecret : String}

def addSource (derive : DeriveSlotId) (nodeSecret : String) (out : ProviderSlots)
    (source : String × Option String) : Except Error ProviderSlots :=
  addProviderSlots derive nodeSecret out source.1 source.2

/-- The slots are those of the sources, added in their order. -/
theorem providerSlotsForKeys_eq (keys : ProviderKeys) :
    providerSlotsForKeys derive keys nodeSecret =
      (validateCloudBackendSingleKeys keys >>= fun _ =>
        (slotSources keys).foldlM (addSource derive nodeSecret) []) := by
  have direct : Provider.all.foldlM (addDirectSlots derive keys nodeSecret) [] =
      (Provider.all.filterMap fun provider =>
        (keys.directKey provider).map fun key => (provider.asStr, key.2)).foldlM
          (addSource derive nodeSecret) [] := by
    rw [List.foldlM_filterMap]
    congr 1
    funext slots provider
    unfold addDirectSlots
    cases keys.directKey provider <;> rfl
  have cloud : ∀ (condition : Prop) [Decidable condition] (out : ProviderSlots)
      (provider : String) (raw : Option String),
      addCloudSlots derive nodeSecret (decide condition) out provider raw =
        addSource derive nodeSecret out (provider, if condition then raw else none) := by
    intro condition _ out provider raw
    by_cases holds : condition
    · rw [decide_eq_true holds, if_pos holds]
      rfl
    · rw [decide_eq_false holds, if_neg holds]
      rfl
  unfold providerSlotsForKeys slotSources
  simp only [direct, cloud, List.foldlM_append, List.foldlM_cons, List.foldlM_nil, bind_pure]

/-- The advertised providers are those with a filled source, and every filled source parses. -/
theorem foldlM_addSource_ok (sources : List (String × Option String)) {out out' : ProviderSlots}
    (added : sources.foldlM (addSource derive nodeSecret) out = .ok out') :
    (∀ provider, provider ∈ out'.map Prod.fst ↔ provider ∈ out.map Prod.fst ∨
      ∃ source ∈ sources, source.1 = provider ∧ Filled source.2) ∧
    ∀ source ∈ sources, ∀ value, source.2 = some value → trimAscii value.toList ≠ [] →
      ∃ slots, parseKeySlots derive source.1 value.toList nodeSecret = .ok slots := by
  induction sources generalizing out with
  | nil =>
      cases added
      exact ⟨fun provider => by simp, fun _ mem => absurd mem List.not_mem_nil⟩
  | cons source rest ih =>
      rw [List.foldlM_cons] at added
      obtain ⟨between, first, later⟩ := bind_eq_ok.mp added
      obtain ⟨names, parses⟩ := addProviderSlots_ok first
      obtain ⟨names', parses'⟩ := ih later
      refine ⟨fun provider => ?_, List.forall_mem_cons.mpr ⟨parses, parses'⟩⟩
      rw [names', names, or_assoc]
      simp only [List.exists_mem_cons_iff]

end Advertised

/-! ### The two lists of keys -/

/-- The selectors as the script resolves them. -/
def anthropicSelector (keys : ProviderKeys) : String :=
  orDefault (keys.anthropicUpstream.getD "") "direct"

def openaiSelector (keys : ProviderKeys) : String :=
  orDefault (keys.openaiUpstream.getD "") "direct"

theorem getD_eq_iff {value : Option String} {text : String} (some_ : text ≠ "") :
    value.getD "" = text ↔ value = some text := by
  cases value with
  | none => exact ⟨fun same => absurd same.symm some_, fun same => nomatch same⟩
  | some held => exact ⟨fun same => congrArg some same, fun same => Option.some.inj same⟩

/-- A selector that passed its check is one of the known ones. -/
theorem selector_of_ok {value : Option String} {known : List String}
    (ok : value = none ∨ ∃ text ∈ known, value = some text) (some_ : "" ∉ known) :
    orDefault (value.getD "") "direct" = value.getD "direct" := by
  rcases ok with rfl | ⟨text, mem, rfl⟩
  · rfl
  · exact if_neg fun same => some_ ((show text = "" from same) ▸ mem)

/-- A valid Anthropic upstream is unset or one of three. -/
theorem anthropicUpstream_of_ok {keys : ProviderKeys}
    (valid : keys.validateAnthropicUpstream = .ok ()) :
    keys.anthropicUpstream = none ∨
      ∃ text ∈ ["direct", "bedrock", "foundry"], keys.anthropicUpstream = some text := by
  unfold ProviderKeys.validateAnthropicUpstream at valid
  cases upstream : keys.anthropicUpstream with
  | none => exact .inl rfl
  | some text =>
      refine .inr ⟨text, ?_, rfl⟩
      rw [upstream, Option.getD_some] at valid
      dsimp only at valid
      split at valid
      · rename_i direct
        simp [direct]
      · split at valid
        · rename_i bedrock
          simp [bedrock]
        · split at valid
          · rename_i foundry
            simp [foundry]
          · cases valid

/-- A valid OpenAI upstream is unset or one of two. -/
theorem openaiUpstream_of_ok {keys : ProviderKeys}
    (valid : keys.validateOpenaiUpstream = .ok ()) :
    keys.openaiUpstream = none ∨ ∃ text ∈ ["direct", "azure"], keys.openaiUpstream = some text := by
  unfold ProviderKeys.validateOpenaiUpstream at valid
  cases upstream : keys.openaiUpstream with
  | none => exact .inl rfl
  | some text =>
      refine .inr ⟨text, ?_, rfl⟩
      rw [upstream, Option.getD_some] at valid
      dsimp only at valid
      split at valid
      · rename_i direct
        simp [direct]
      · split at valid
        · rename_i azure
          simp [azure]
        · cases valid

/-- The script's selected variables hold the sources of the advertised slots. -/
theorem mem_slotSources_iff {keys : ProviderKeys} (nodeSecret : String)
    (anthropic : keys.anthropicUpstream = none ∨
      ∃ text ∈ ["direct", "bedrock", "foundry"], keys.anthropicUpstream = some text)
    (openai : keys.openaiUpstream = none ∨
      ∃ text ∈ ["direct", "azure"], keys.openaiUpstream = some text)
    {text : String} (some_ : text ≠ "") (provider : String) :
    (provider, some text) ∈ slotSources keys ↔
      ∃ var ∈ keyVars, var.provider = provider ∧
        var.selected (anthropicSelector keys) (openaiSelector keys) = true ∧
        configuredValue keys nodeSecret var.envVar = text := by
  have values : ∀ value : Option String, value.getD "" = text ↔ some text = value :=
    fun value => (getD_eq_iff some_).trans eq_comm
  simp only [List.mem_cons, List.not_mem_nil, or_false, exists_eq_or_imp, exists_eq_left]
    at anthropic openai
  unfold keyVars slotSources anthropicSelector openaiSelector
  simp only [Provider.all, ProviderKeys.directKey, List.filterMap_cons, List.filterMap_nil,
    Option.map_some, Option.map_none, Provider.asStr, List.cons_append, List.nil_append,
    List.mem_cons, List.not_mem_nil, or_false, exists_eq_or_imp, exists_eq_left, configuredValue,
    String.reduceEq, if_true, if_false, values, Prod.mk.injEq, openSelector, true_and]
  -- Each pair of selectors leaves one key for each provider, in two orders.
  rcases anthropic with a | a | a | a <;> rcases openai with o | o | o <;>
    simp only [a, o, orDefault, Option.getD_some, Option.getD_none, String.reduceEq, if_true,
      if_false, reduceCtorEq, beq_iff_eq, true_and, false_and, and_false, or_false, false_or,
      Option.some.injEq, @eq_comm _ provider, or_comm, or_left_comm]

/-! ### The selector checks -/

/-- A host the preflight allows ends the way the script asks. -/
theorem endsInSuffix_of_allowed {host : List Char} {suffix : String}
    (allowed : hostAllowedBySuffix host suffix = true) : endsInSuffix host suffix = true := by
  unfold hostAllowedBySuffix at allowed
  obtain ⟨⟨longer, ends⟩, dot⟩ := by simpa only [Bool.and_eq_true, decide_eq_true_eq] using allowed
  obtain ⟨before, rfl⟩ := List.isSuffixOf_iff_suffix.mp ends
  rcases List.eq_nil_or_concat before with rfl | ⟨start, last, rfl⟩
  · exact absurd longer (by simp)
  · have position : (start.concat last ++ suffix.toList).length - suffix.toList.length - 1 =
        start.length := by
      rw [List.length_append, List.length_concat]
      omega
    rw [position, List.concat_eq_append, List.append_assoc,
      List.getElem?_append_right (Nat.le_refl _), Nat.sub_self] at dot
    have isDot : last = '.' := Option.some.inj (eq_of_beq dot)
    refine List.isSuffixOf_iff_suffix.mpr ⟨start, ?_⟩
    rw [isDot, List.concat_eq_append, List.append_assoc]
    rfl

/-- An endpoint the preflight accepts gets past the script's parsing and host checks. -/
theorem parseAzureHost_of_valid {flag endpoint : String} {suffixes : List String}
    (valid : validateAzureEndpoint flag endpoint suffixes = .ok ()) (var name : String) :
    ∃ host suffix, parseAzureHost var endpoint = .ok host ∧
      validateHostname name host = .ok () ∧ requireHostSuffix name host suffixes = .ok () ∧
      matchedHostSuffix host suffixes = .ok suffix := by
  unfold validateAzureEndpoint at valid
  unfold parseAzureHost
  cases stripped : stripPrefix "https://".toList endpoint.toList with
  | none =>
      rw [stripped] at valid
      dsimp only at valid
      split at valid <;> cases valid
  | some rest =>
      rw [stripped] at valid
      dsimp only at valid ⊢
      -- The script cuts at the three characters in turn, the config at the first of any.
      have authority : upTo '#' (upTo '?' (upTo '/' rest)) = authorityOf rest := by
        unfold upTo authorityOf
        rw [List.takeWhile_takeWhile, List.takeWhile_takeWhile]
        congr 1
        funext c
        grind
      rw [authority]
      cases userinfo : (authorityOf rest).contains '@' with
      | true =>
          rw [userinfo] at valid
          cases valid
      | false =>
          rw [userinfo] at valid
          obtain ⟨⟨⟩, isHost, suffixed⟩ := bind_eq_ok.mp valid
          have isHost : isDnsHost (hostOf (authorityOf rest)) = true := by
            unfold validateDnsHost at isHost
            split at isHost
            · assumption
            · cases isHost
          have allowed : suffixes.any (hostAllowedBySuffix (hostOf (authorityOf rest))) = true := by
            split at suffixed
            · assumption
            · cases suffixed
          obtain ⟨suffix, mem, ends⟩ := List.any_eq_true.mp allowed
          have ends := endsInSuffix_of_allowed ends
          -- The script takes the first suffix that fits, which need not be the one the config
          -- found.
          cases found : suffixes.find? (endsInSuffix (hostOf (authorityOf rest))) with
          | none => exact absurd ends (List.find?_eq_none.mp found suffix mem)
          | some first =>
              refine ⟨hostOf (authorityOf rest), first, rfl, ?_, ?_, ?_⟩
              · unfold isDnsHost hasEmptyLabel at isHost
                refine if_neg ?_
                simp only [Bool.and_eq_true, Bool.not_eq_true', bne_iff_ne, ne_eq] at isHost
                simp only [Bool.or_eq_true, Bool.not_eq_true', beq_iff_eq, not_or,
                  Bool.not_eq_true]
                obtain ⟨⟨⟨⟨some_, head⟩, last⟩, label⟩, all⟩ := isHost
                exact ⟨⟨⟨⟨some_, Bool.not_eq_false _ ▸ all⟩, head⟩, last⟩, label⟩
              · exact if_pos (List.any_eq_true.mpr ⟨suffix, mem, ends⟩)
              · unfold matchedHostSuffix
                rw [found]
                rfl

/-- A value that is set is not empty. -/
theorem ne_empty_of_nonEmpty {value : Option String} (filled : nonEmpty value = true) :
    value.getD "" ≠ "" := by
  cases value with
  | none => cases filled
  | some text =>
      intro same
      rw [Option.getD_some] at same
      rw [same] at filled
      exact absurd filled (by decide)

/-- Every field that a selected upstream needs is there. -/
theorem nonEmpty_of_requirePresent {label : String} {fields : List (String × Option String)}
    (present : requirePresent label fields = .ok ()) :
    ∀ field ∈ fields, nonEmpty field.2 = true := by
  unfold requirePresent at present
  dsimp only at present
  split at present
  · rename_i none_
    intro field mem
    by_contra missing
    have listed : field.1 ∈ (fields.filter fun field => !nonEmpty field.2).map Prod.fst :=
      List.mem_map.mpr ⟨field, List.mem_filter.mpr ⟨mem, by simpa using missing⟩, rfl⟩
    rw [List.isEmpty_iff.mp none_] at listed
    exact absurd listed List.not_mem_nil
  · cases present

theorem requireSingleSlot_of_valid {value : Option String}
    (single : hasSemicolon value = false) (name upstream : String) :
    requireSingleSlot name (value.getD "") upstream = .ok () := by
  refine if_neg ?_
  cases value with
  | none => decide
  | some text => exact Bool.eq_false_iff.mp single

theorem eq_some_of_getD {value : Option String} {default text : String} (other : default ≠ text)
    (same : value.getD default = text) : value = some text := by
  cases value with
  | none => exact absurd same other
  | some held => exact congrArg some same

/-- The key of a selected cloud upstream is a single one. -/
theorem singleKeys_of_ok {keys : ProviderKeys}
    (single : validateCloudBackendSingleKeys keys = .ok ()) :
    (keys.anthropicUpstream = some "bedrock" → hasSemicolon keys.bedrockApiKey = false) ∧
    (keys.anthropicUpstream = some "foundry" → hasSemicolon keys.azureFoundryApiKey = false) ∧
    (keys.openaiUpstream = some "azure" → hasSemicolon keys.azureOpenaiApiKey = false) := by
  unfold validateCloudBackendSingleKeys at single
  simp only [Bool.and_eq_true, decide_eq_true_eq] at single
  split at single
  · cases single
  · rename_i bedrock
    split at single
    · cases single
    · rename_i foundry
      split at single
      · cases single
      · rename_i azure
        simp only [not_and, Bool.not_eq_true] at bedrock foundry azure
        exact ⟨bedrock, foundry, azure⟩

section Selectors

variable {keys : ProviderKeys} {nodeSecret : String} {env : Environment}

theorem requireSet_of_nonEmpty {var upstream : String} {value : Option String}
    (read : env var = value.getD "") (filled : nonEmpty value = true) :
    requireSet env var upstream = .ok () :=
  if_neg fun same => ne_empty_of_nonEmpty filled (read.symm.trans same)

/-- The script resolves a selector that the preflight accepts. -/
theorem resolveAnthropicUpstream_of_valid
    (delivered : ∀ name ∈ canonicalAllowedEnvs, env name = configuredValue keys nodeSecret name)
    (single : validateCloudBackendSingleKeys keys = .ok ())
    (valid : keys.validateAnthropicUpstream = .ok ()) :
    ∃ resolved, resolveAnthropicUpstream env (anthropicSelector keys) = .ok resolved := by
  -- The script reads the variables the config wrote, so each check is on the same value.
  have selector : anthropicSelector keys = keys.anthropicUpstream.getD "direct" :=
    selector_of_ok (anthropicUpstream_of_ok valid) (by decide)
  have region : env "BEDROCK_REGION" = keys.bedrockRegion.getD "" :=
    (delivered _ (by decide)).trans (by simp [configuredValue])
  have bedrockKey : env "BEDROCK_API_KEY" = keys.bedrockApiKey.getD "" :=
    (delivered _ (by decide)).trans (by simp [configuredValue])
  have endpoint : env "AZURE_FOUNDRY_ENDPOINT" = keys.azureFoundryEndpoint.getD "" :=
    (delivered _ (by decide)).trans (by simp [configuredValue])
  have foundryKey : env "AZURE_FOUNDRY_API_KEY" = keys.azureFoundryApiKey.getD "" :=
    (delivered _ (by decide)).trans (by simp [configuredValue])
  rw [selector]
  unfold ProviderKeys.validateAnthropicUpstream at valid
  unfold resolveAnthropicUpstream
  dsimp only at valid
  split at valid
  · rename_i direct
    exact ⟨_, if_pos direct⟩
  · rename_i notDirect
    rw [if_neg notDirect]
    split at valid
    · rename_i bedrock
      rw [if_pos bedrock]
      obtain ⟨⟨⟩, present, qualified⟩ := bind_eq_ok.mp valid
      have filled := nonEmpty_of_requirePresent present
      have isRegion : keys.bedrockRegion.getD "" = "us-east-1" := by
        unfold validateBedrockRegion at qualified
        split at qualified
        · assumption
        · cases qualified
      have oneKey := (singleKeys_of_ok single).1 (eq_some_of_getD (by decide) bedrock)
      rw [requireSet_of_nonEmpty region (filled _ List.mem_cons_self),
        requireSet_of_nonEmpty bedrockKey (filled _ (List.mem_cons_of_mem _ List.mem_cons_self)),
        bedrockKey, requireSingleSlot_of_valid oneKey, region, isRegion]
      exact ⟨_, rfl⟩
    · rename_i notBedrock
      rw [if_neg notBedrock]
      split at valid
      · rename_i foundry
        rw [if_pos foundry]
        obtain ⟨⟨⟩, present, allowed⟩ := bind_eq_ok.mp valid
        have filled := nonEmpty_of_requirePresent present
        have oneKey := (singleKeys_of_ok single).2.1 (eq_some_of_getD (by decide) foundry)
        obtain ⟨host, suffix, parsed, isHost, suffixed, -⟩ :=
          parseAzureHost_of_valid allowed "AZURE_FOUNDRY_ENDPOINT" "Microsoft Foundry"
        rw [requireSet_of_nonEmpty endpoint (filled _ List.mem_cons_self),
          requireSet_of_nonEmpty foundryKey (filled _ (List.mem_cons_of_mem _ List.mem_cons_self)),
          foundryKey, requireSingleSlot_of_valid oneKey, endpoint, parsed]
        refine ⟨⟨host, "", true⟩, ?_⟩
        change (validateHostname _ host >>= fun _ => requireHostSuffix _ host _ >>= fun _ => _) = _
        rw [isHost]
        change (requireHostSuffix _ host azureFoundryAllowedSuffixes >>= fun _ => _) = _
        rw [suffixed]
        rfl
      · cases valid

/-- The start script resolves the OpenAI upstream that was validated. -/
theorem resolveOpenaiUpstream_of_valid
    (delivered : ∀ name ∈ canonicalAllowedEnvs, env name = configuredValue keys nodeSecret name)
    (single : validateCloudBackendSingleKeys keys = .ok ())
    (valid : keys.validateOpenaiUpstream = .ok ()) :
    ∃ resolved, resolveOpenaiUpstream env (openaiSelector keys) = .ok resolved := by
  have selector : openaiSelector keys = keys.openaiUpstream.getD "direct" :=
    selector_of_ok (openaiUpstream_of_ok valid) (by decide)
  have endpoint : env "AZURE_OPENAI_ENDPOINT" = keys.azureOpenaiEndpoint.getD "" :=
    (delivered _ (by decide)).trans (by simp [configuredValue])
  have azureKey : env "AZURE_OPENAI_API_KEY" = keys.azureOpenaiApiKey.getD "" :=
    (delivered _ (by decide)).trans (by simp [configuredValue])
  rw [selector]
  unfold ProviderKeys.validateOpenaiUpstream at valid
  unfold resolveOpenaiUpstream
  dsimp only at valid
  split at valid
  · rename_i direct
    exact ⟨_, if_pos direct⟩
  · rename_i notDirect
    rw [if_neg notDirect]
    split at valid
    · rename_i azure
      rw [if_pos azure]
      obtain ⟨⟨⟩, present, allowed⟩ := bind_eq_ok.mp valid
      have filled := nonEmpty_of_requirePresent present
      have oneKey := (singleKeys_of_ok single).2.2 (eq_some_of_getD (by decide) azure)
      obtain ⟨host, suffix, parsed, isHost, suffixed, matched⟩ :=
        parseAzureHost_of_valid allowed "AZURE_OPENAI_ENDPOINT" "Azure OpenAI"
      rw [requireSet_of_nonEmpty endpoint (filled _ List.mem_cons_self),
        requireSet_of_nonEmpty azureKey (filled _ (List.mem_cons_of_mem _ List.mem_cons_self)),
        azureKey, requireSingleSlot_of_valid oneKey, endpoint, parsed]
      refine ⟨⟨host, "." ++ suffix, true⟩, ?_⟩
      change (validateHostname _ host >>= fun _ =>
        requireHostSuffix _ host azureOpenaiAllowedSuffixes >>= fun _ =>
          matchedHostSuffix host azureOpenaiAllowedSuffixes >>= fun _ => _) = _
      rw [isHost, suffixed, matched]
      rfl
    · cases valid

end Selectors

/-! ### Fan-out -/

/-- Letters and digits are of these codes. -/
theorem toNat_of_isAlphanum {c : Char} (word : c.isAlphanum = true) :
    48 ≤ c.toNat ∧ c.toNat ≤ 122 := by
  have ranges : ((decide (65 ≤ c.val ∧ c.val ≤ 90) ||
      (decide (97 ≤ c.val) && decide (c.val ≤ 122))) ||
        (decide (48 ≤ c.val) && decide (c.val ≤ 57))) = true := word
  simp only [Bool.or_eq_true, Bool.and_eq_true, decide_eq_true_eq,
    UInt32.le_iff_toNat_le] at ranges
  have point : c.val.toNat = c.toNat := rfl
  simp at ranges
  omega

/-- A node secret is neither empty nor blank. -/
theorem isBlank_of_isNodeSecret {secret : String} (registered : isNodeSecret secret = true) :
    secret ≠ "" ∧ isBlank secret = false := by
  unfold isNodeSecret at registered
  simp only [Bool.and_eq_true, decide_eq_true_eq] at registered
  obtain ⟨⟨long, -⟩, all⟩ := registered
  refine ⟨fun same => by rw [same] at long; exact absurd long (by decide), ?_⟩
  unfold isBlank
  by_contra blank
  rw [Bool.not_eq_false, List.isEmpty_iff] at blank
  cases chars : secret.toList with
  | nil => rw [chars] at long; exact absurd long (by decide)
  | cons c rest =>
      rw [chars] at all blank
      have white := isWhitespace_of_trim blank c List.mem_cons_self
      have word := List.all_eq_true.mp all c List.mem_cons_self
      simp only [Bool.or_eq_true, beq_iff_eq] at word
      rcases word with (word | rfl) | rfl
      · have range := toNat_of_isAlphanum word
        unfold isWhitespace at white
        simp only [Bool.or_eq_true, Bool.and_eq_true, decide_eq_true_eq, beq_iff_eq] at white
        omega
      · exact absurd white (by decide)
      · exact absurd white (by decide)

section FanOut

variable {derive : DeriveSlotId} {env : Environment} {nodeSecret : String}

/-- A fan-out succeeds exactly if its key is not blank and parses. -/
theorem fanOutSlots_eq_ok (registered : isNodeSecret nodeSecret = true)
    (secret : env "GM_NODE_SECRET" = nodeSecret) {provider envVar : String}
    {exports : List (SlotVar × List Char)} :
    fanOutSlots derive env provider envVar = .ok exports ↔
      isBlank (env envVar) = false ∧
      ∃ slots, parseKeySlots derive provider (env envVar).toList nodeSecret = .ok slots ∧
        exports = slotExports provider slots := by
  obtain ⟨some_, filled⟩ := isBlank_of_isNodeSecret registered
  have unwrapped : ∀ result : Except Error (List (SlotVar × List Char)), ∀ text,
      context result text = .ok exports ↔ result = .ok exports :=
    fun result text => mapError_eq_ok
  unfold fanOutSlots
  rw [secret, if_neg some_, unwrapped]
  unfold cmdSlotEnv nonEmptyEnv
  simp only [secret, bind_eq_ok, required_eq_ok, Option.filter_eq_some_iff, Option.some.injEq,
    Bool.not_eq_true', renderSlotEnvExports]
  constructor
  · rintro ⟨_, ⟨rfl, -⟩, _, ⟨rfl, filled⟩, slots, parsed, made⟩
    cases made
    exact ⟨filled, slots, parsed, rfl⟩
  · rintro ⟨notBlank, slots, parsed, rfl⟩
    exact ⟨_, ⟨rfl, filled⟩, _, ⟨rfl, notBlank⟩, slots, parsed, rfl⟩

/-- If the fan-outs succeed, each one does, and what they export is what each one does. -/
theorem foldlM_fanOut_ok (vars : List KeyVar) {init out : List (SlotVar × List Char)}
    (fanned : vars.foldlM (fun exports var =>
      (exports ++ ·) <$> fanOutSlots derive env var.provider var.envVar) init = .ok out) :
    (∀ var ∈ vars, ∃ exports, fanOutSlots derive env var.provider var.envVar = .ok exports) ∧
    ∀ name, name ∈ out.map Prod.fst ↔ name ∈ init.map Prod.fst ∨
      ∃ var ∈ vars, ∃ exports, fanOutSlots derive env var.provider var.envVar = .ok exports ∧
        name ∈ exports.map Prod.fst := by
  induction vars generalizing init with
  | nil =>
      cases fanned
      exact ⟨fun _ mem => absurd mem List.not_mem_nil, fun name => by simp⟩
  | cons var rest ih =>
      rw [List.foldlM_cons] at fanned
      obtain ⟨first, once, later⟩ := bind_eq_ok.mp fanned
      cases result : fanOutSlots derive env var.provider var.envVar with
      | error error =>
          rw [result] at once
          cases once
      | ok exports =>
          rw [result] at once
          cases once
          obtain ⟨each, names⟩ := ih later
          refine ⟨List.forall_mem_cons.mpr ⟨⟨exports, result⟩, each⟩, fun name => ?_⟩
          rw [names, List.map_append, List.mem_append, or_assoc, List.exists_mem_cons_iff, result]
          simp only [Except.ok.injEq, exists_eq_left']

/-- If each fan-out succeeds, they all do, one after the other. -/
theorem foldlM_fanOut_of_ok (vars : List KeyVar) (init : List (SlotVar × List Char))
    (each : ∀ var ∈ vars, ∃ exports,
      fanOutSlots derive env var.provider var.envVar = .ok exports) :
    ∃ out, vars.foldlM (fun exports var =>
      (exports ++ ·) <$> fanOutSlots derive env var.provider var.envVar) init = .ok out := by
  induction vars generalizing init with
  | nil => exact ⟨init, rfl⟩
  | cons var rest ih =>
      obtain ⟨⟨exports, result⟩, each⟩ := List.forall_mem_cons.mp each
      obtain ⟨out, later⟩ := ih (init ++ exports) each
      exact ⟨out, by rw [List.foldlM_cons, result]; exact later⟩

end FanOut

/-! ### The keys in use -/

/-- Every direct key in use that is not empty is not blank. -/
def UsableKeys (keys : ProviderKeys) : Prop :=
  ∀ key ∈ keys.directKeys, ∀ value, key.2 = some value → value ≠ "" → isBlank value = false

theorem nonEmpty_some (text : String) : nonEmpty (some text) = !isBlank text := rfl

/-- A cloud upstream that was validated has its keys. -/
theorem cloudKeys_nonEmpty {keys : ProviderKeys}
    (anthropic : keys.validateAnthropicUpstream = .ok ())
    (openai : keys.validateOpenaiUpstream = .ok ()) :
    (keys.anthropicUpstream = some "foundry" → nonEmpty keys.azureFoundryApiKey = true) ∧
    (keys.anthropicUpstream = some "bedrock" → nonEmpty keys.bedrockApiKey = true) ∧
    (keys.openaiUpstream = some "azure" → nonEmpty keys.azureOpenaiApiKey = true) := by
  refine ⟨fun upstream => ?_, fun upstream => ?_, fun upstream => ?_⟩
  · rw [ProviderKeys.validateAnthropicUpstream, upstream] at anthropic
    obtain ⟨⟨⟩, present, -⟩ := bind_eq_ok.mp anthropic
    exact nonEmpty_of_requirePresent present _ (List.mem_cons_of_mem _ List.mem_cons_self)
  · rw [ProviderKeys.validateAnthropicUpstream, upstream] at anthropic
    obtain ⟨⟨⟩, present, -⟩ := bind_eq_ok.mp anthropic
    exact nonEmpty_of_requirePresent present _ (List.mem_cons_of_mem _ List.mem_cons_self)
  · rw [ProviderKeys.validateOpenaiUpstream, upstream] at openai
    obtain ⟨⟨⟩, present, -⟩ := bind_eq_ok.mp openai
    exact nonEmpty_of_requirePresent present _ (List.mem_cons_of_mem _ List.mem_cons_self)

/-- A direct key is a source of slots. -/
theorem mem_slotSources_of_directKey {keys : ProviderKeys} {key : String × Option String}
    (mem : key ∈ keys.directKeys) : ∃ provider, (provider, key.2) ∈ slotSources keys := by
  obtain ⟨provider, here, found⟩ := List.mem_filterMap.mp mem
  refine ⟨provider.asStr, List.mem_append_left _ (List.mem_filterMap.mpr ⟨provider, here, ?_⟩)⟩
  rw [found, Option.map_some]

/-- A source is a direct key's or a selected cloud upstream's. -/
theorem isBlank_of_mem_slotSources {keys : ProviderKeys}
    (anthropic : keys.validateAnthropicUpstream = .ok ())
    (openai : keys.validateOpenaiUpstream = .ok ()) (usable : UsableKeys keys)
    {provider text : String} (mem : (provider, some text) ∈ slotSources keys)
    (some_ : text ≠ "") : isBlank text = false := by
  obtain ⟨foundry, bedrock, azure⟩ := cloudKeys_nonEmpty anthropic openai
  rcases List.mem_append.mp mem with direct | cloud
  · obtain ⟨of, here, found⟩ := List.mem_filterMap.mp direct
    obtain ⟨key, isKey, same⟩ := Option.map_eq_some_iff.mp found
    exact usable key (List.mem_filterMap.mpr ⟨of, here, isKey⟩) text
      (congrArg Prod.snd same) some_
  · simp only [List.mem_cons, Prod.mk.injEq, List.not_mem_nil, or_false] at cloud
    rcases cloud with ⟨-, same⟩ | ⟨-, same⟩ | ⟨-, same⟩
    · split at same
      · rename_i upstream
        simpa [nonEmpty_some, ← same] using foundry upstream
      · cases same
    · split at same
      · rename_i upstream
        simpa [nonEmpty_some, ← same] using bedrock upstream
      · cases same
    · split at same
      · rename_i upstream
        simpa [nonEmpty_some, ← same] using azure upstream
      · cases same

/-- A configuration with a key has a source that is not empty. -/
theorem slotSources_of_anySet {keys : ProviderKeys} (set_ : keys.anySet = true) :
    ∃ provider text, (provider, some text) ∈ slotSources keys ∧ text ≠ "" := by
  have text_of : ∀ value : Option String, nonEmpty value = true →
      ∃ text, value = some text ∧ text ≠ "" := by
    intro value filled
    have some_ := ne_empty_of_nonEmpty filled
    cases value with
    | none => cases filled
    | some text => exact ⟨text, rfl, some_⟩
  unfold ProviderKeys.anySet at set_
  simp only [Bool.or_eq_true, Bool.and_eq_true, beq_iff_eq, List.any_eq_true] at set_
  rcases set_ with ((⟨upstream, filled⟩ | ⟨upstream, filled⟩) | ⟨upstream, filled⟩) |
    ⟨key, mem, filled⟩
  · obtain ⟨text, held, some_⟩ := text_of _ filled
    refine ⟨"anthropic", text, List.mem_append_right _ ?_, some_⟩
    rw [eq_some_of_getD (by decide) upstream, held]
    simp
  · obtain ⟨text, held, some_⟩ := text_of _ filled
    refine ⟨"anthropic", text, List.mem_append_right _ ?_, some_⟩
    rw [eq_some_of_getD (by decide) upstream, held]
    simp
  · obtain ⟨text, held, some_⟩ := text_of _ filled
    refine ⟨"openai", text, List.mem_append_right _ ?_, some_⟩
    rw [eq_some_of_getD (by decide) upstream, held]
    simp
  · obtain ⟨text, held, some_⟩ := text_of _ filled
    obtain ⟨provider, here⟩ := mem_slotSources_of_directKey mem
    exact ⟨provider, text, held ▸ here, some_⟩

/-! ### The boot -/

/-- The boot gets past its gates, and exports slot ids for the advertised providers. -/
def BootRight (derive : DeriveSlotId) (env : Environment) (advertised : ProviderSlots) : Prop :=
  ∃ exports, startSlots derive env = .ok exports ∧
    ∀ provider, SlotVar.slotIds provider ∈ exports.map Prod.fst ↔
      provider ∈ advertised.map Prod.fst

/-- The variables the script fans out, in an environment. -/
def activeVars (env : Environment) (keys : ProviderKeys) : List KeyVar :=
  keyVars.filter (KeyVar.active env (anthropicSelector keys) (openaiSelector keys))

section Boot

variable {derive : DeriveSlotId} {keys : ProviderKeys} {nodeSecret : String} {env : Environment}

/-- A source that is not empty is what an active variable holds, and the other way round. -/
theorem activeVars_iff
    (delivered : ∀ name ∈ canonicalAllowedEnvs, env name = configuredValue keys nodeSecret name)
    (anthropic : keys.validateAnthropicUpstream = .ok ())
    (openai : keys.validateOpenaiUpstream = .ok ()) {provider text : String} :
    (∃ var ∈ activeVars env keys, var.provider = provider ∧ env var.envVar = text) ↔
      (provider, some text) ∈ slotSources keys ∧ text ≠ "" := by
  have named : ∀ var ∈ keyVars, var.envVar ∈ canonicalAllowedEnvs := by decide
  have sources := fun some_ : text ≠ "" => mem_slotSources_iff nodeSecret
    (anthropicUpstream_of_ok anthropic) (openaiUpstream_of_ok openai) some_ provider
  constructor
  · rintro ⟨var, mem, rfl, rfl⟩
    obtain ⟨here, active⟩ := List.mem_filter.mp mem
    obtain ⟨selected, some_⟩ := Bool.and_eq_true_iff.mp active
    have some_ : env var.envVar ≠ "" := bne_iff_ne.mp some_
    exact ⟨(sources some_).mpr ⟨var, here, rfl, selected,
      (delivered _ (named var here)).symm⟩, some_⟩
  · rintro ⟨mem, some_⟩
    obtain ⟨var, here, of, selected, holds⟩ := (sources some_).mp mem
    have read : env var.envVar = text := (delivered _ (named var here)).trans holds
    exact ⟨var, List.mem_filter.mpr ⟨here, Bool.and_eq_true_iff.mpr ⟨selected,
      bne_iff_ne.mpr (read ▸ some_)⟩⟩, of, read⟩

/-- With what the preflight accepts, the script gets to its fan-outs. -/
theorem startSlots_eq
    (delivered : ∀ name ∈ canonicalAllowedEnvs, env name = configuredValue keys nodeSecret name)
    (set_ : keys.anySet = true) (single : validateCloudBackendSingleKeys keys = .ok ())
    (anthropic : keys.validateAnthropicUpstream = .ok ())
    (openai : keys.validateOpenaiUpstream = .ok ())
    (registered : isNodeSecret nodeSecret = true) :
    startSlots derive env = (activeVars env keys).foldlM (fun exports var =>
      (exports ++ ·) <$> fanOutSlots derive env var.provider var.envVar) [] := by
  have anthropicSelected :
      orDefault (env "ANTHROPIC_UPSTREAM") "direct" = anthropicSelector keys := by
    rw [delivered _ (by decide)]
    simp [configuredValue, anthropicSelector]
  have openaiSelected : orDefault (env "OPENAI_UPSTREAM") "direct" = openaiSelector keys := by
    rw [delivered _ (by decide)]
    simp [configuredValue, openaiSelector]
  have secret : env "GM_NODE_SECRET" = nodeSecret :=
    (delivered _ (by decide)).trans (by simp [configuredValue])
  obtain ⟨some_, -⟩ := isBlank_of_isNodeSecret registered
  obtain ⟨resolvedAnthropic, resolves⟩ :=
    resolveAnthropicUpstream_of_valid delivered single anthropic
  obtain ⟨resolvedOpenai, resolves'⟩ := resolveOpenaiUpstream_of_valid delivered single openai
  have hasKey : requireProviderKey env (anthropicSelector keys) (openaiSelector keys) =
      .ok () := by
    obtain ⟨provider, text, source⟩ := slotSources_of_anySet set_
    obtain ⟨var, mem, -⟩ := (activeVars_iff delivered anthropic openai).mpr source
    exact if_pos (List.any_eq_true.mpr ⟨var, List.mem_filter.mp mem⟩)
  have isSecret : validateNodeSecret env = .ok () := by
    unfold validateNodeSecret
    dsimp only
    rw [secret]
    exact if_neg fun both => both.2 registered
  unfold startSlots
  rw [anthropicSelected, openaiSelected]
  dsimp only
  rw [resolves, resolves', hasKey, isSecret, secret, beq_false_of_ne some_]
  change (if (_ && false) = true then _ else _) = _
  rw [Bool.and_false, if_neg Bool.false_ne_true]
  rfl

/-- A boot has fanned out every direct key, so none of them is blank. -/
theorem usableKeys_of_booted
    (delivered : ∀ name ∈ canonicalAllowedEnvs, env name = configuredValue keys nodeSecret name)
    (set_ : keys.anySet = true) (single : validateCloudBackendSingleKeys keys = .ok ())
    (anthropic : keys.validateAnthropicUpstream = .ok ())
    (openai : keys.validateOpenaiUpstream = .ok ()) (registered : isNodeSecret nodeSecret = true)
    {exports : List (SlotVar × List Char)} (booted : startSlots derive env = .ok exports) :
    UsableKeys keys := by
  rw [startSlots_eq delivered set_ single anthropic openai registered] at booted
  have secret : env "GM_NODE_SECRET" = nodeSecret :=
    (delivered _ (by decide)).trans (by simp [configuredValue])
  intro key mem value held some_
  obtain ⟨provider, source⟩ := mem_slotSources_of_directKey mem
  obtain ⟨var, active, -, rfl⟩ :=
    (activeVars_iff delivered anthropic openai).mpr ⟨held ▸ source, some_⟩
  obtain ⟨out, fanned⟩ := (foldlM_fanOut_ok _ booted).1 var active
  exact ((fanOutSlots_eq_ok registered secret).mp fanned).1

end Boot

/-- A configuration that the preflight accepts boots, with the advertised slots, exactly if none
of the direct keys in use is blank without being empty. -/
theorem boot_right_iff (derive : DeriveSlotId) {keys : ProviderKeys} {nodeSecret : String}
    {registryCreds : Option RegistryCredentials} {advertised : ProviderSlots}
    (set_ : keys.anySet = true) (valid : keys.validateUpstreams = .ok ())
    (advertises : providerSlotsForKeys derive keys nodeSecret = .ok advertised)
    (registered : isNodeSecret nodeSecret = true)
    (plain : ∀ entry ∈ configuredEntries keys nodeSecret registryCreds,
      '\n' ∉ entry.2.toList) :
    BootRight derive (deliveredEnv (renderEnvFile keys nodeSecret registryCreds)) advertised ↔
      UsableKeys keys := by
  have delivered : ∀ name ∈ canonicalAllowedEnvs,
      deliveredEnv (renderEnvFile keys nodeSecret registryCreds) name =
        configuredValue keys nodeSecret name := fun name mem => deliveredEnv_eq plain mem
  generalize deliveredEnv (renderEnvFile keys nodeSecret registryCreds) = env at delivered
  obtain ⟨⟨⟩, single, rest⟩ := bind_eq_ok.mp valid
  obtain ⟨⟨⟩, anthropic, openai⟩ := bind_eq_ok.mp rest
  rw [providerSlotsForKeys_eq, single] at advertises
  obtain ⟨names, parses⟩ := foldlM_addSource_ok (slotSources keys) advertises
  have secret : env "GM_NODE_SECRET" = nodeSecret :=
    (delivered _ (by decide)).trans (by simp [configuredValue])
  have sources : ∀ provider text,
      (∃ var ∈ activeVars env keys, var.provider = provider ∧ env var.envVar = text) ↔
        (provider, some text) ∈ slotSources keys ∧ text ≠ "" :=
    fun provider text => activeVars_iff delivered anthropic openai
  unfold BootRight
  constructor
  · rintro ⟨exports, booted, -⟩
    exact usableKeys_of_booted delivered set_ single anthropic openai registered booted
  · intro usable
    rw [startSlots_eq delivered set_ single anthropic openai registered]
    -- What an active variable holds is not blank, and the preflight parsed it.
    have filled : ∀ provider text, (provider, some text) ∈ slotSources keys → text ≠ "" →
        isBlank text = false ∧ trimAscii text.toList ≠ [] := by
      intro provider text mem some_
      have notBlank := isBlank_of_mem_slotSources anthropic openai usable mem some_
      refine ⟨notBlank, fun blank => ?_⟩
      rw [isBlank, trim_of_trimAscii blank] at notBlank
      cases notBlank
    have each : ∀ var ∈ activeVars env keys, ∃ exports,
        fanOutSlots derive env var.provider var.envVar = .ok exports := by
      intro var active
      obtain ⟨source, some_⟩ := (sources _ _).mp ⟨var, active, rfl, rfl⟩
      obtain ⟨notBlank, some'⟩ := filled _ _ source some_
      obtain ⟨slots, parsed⟩ := parses _ source _ rfl some'
      exact ⟨_, (fanOutSlots_eq_ok registered secret).mpr ⟨notBlank, slots, parsed, rfl⟩⟩
    obtain ⟨exports, booted⟩ := foldlM_fanOut_of_ok _ [] each
    refine ⟨exports, booted, fun provider => ?_⟩
    have advertised_iff := names provider
    have exported_iff := (foldlM_fanOut_ok _ booted).2 (.slotIds provider)
    rw [List.map_nil, List.mem_nil_iff, false_or] at advertised_iff exported_iff
    rw [advertised_iff, exported_iff]
    constructor
    · rintro ⟨var, active, out, fanned, mem⟩
      obtain ⟨-, slots, -, rfl⟩ := (fanOutSlots_eq_ok registered secret).mp fanned
      have same := (slotIds_mem_slotExports _ _ _).mp mem
      obtain ⟨source, some_⟩ := (sources _ _).mp ⟨var, active, rfl, rfl⟩
      exact ⟨_, source, same.symm, _, rfl, (filled _ _ source some_).2⟩
    · rintro ⟨⟨of, raw⟩, mem, rfl, text, rfl, some'⟩
      have some_ : text ≠ "" := fun same => some' (by rw [same]; rfl)
      obtain ⟨var, active, same, -⟩ := (sources of text).mpr ⟨mem, some_⟩
      obtain ⟨out, fanned⟩ := each var active
      obtain ⟨-, slots, -, rfl⟩ := (fanOutSlots_eq_ok registered secret).mp fanned
      exact ⟨var, active, _, fanned, (slotIds_mem_slotExports _ _ _).mpr same.symm⟩

/-! ### A blank key next to a good one -/

def blankKeys : ProviderKeys where
  openai := some "sk-1"
  google := some " "

def shortSecret : String := "0123456789abcdef"

/-- The ids of the keys below. -/
def derivedIds : DeriveSlotId := fun provider key nodeSecret =>
  if provider = "openai" ∧ key = "sk-1".toList ∧ nodeSecret = shortSecret then .ok "BSDXFMDZSHYS"
  else bail "initialize slot id HMAC"

/-- A blank key that was accepted stops the boot. -/
theorem blank_key_stops_the_boot :
    ¬ ∀ (derive : DeriveSlotId) (keys : ProviderKeys) (nodeSecret : String)
      (registryCreds : Option RegistryCredentials) (advertised : ProviderSlots),
      keys.anySet = true → keys.validateUpstreams = .ok () →
      providerSlotsForKeys derive keys nodeSecret = .ok advertised →
      isNodeSecret nodeSecret = true →
      (∀ entry ∈ configuredEntries keys nodeSecret registryCreds, '\n' ∉ entry.2.toList) →
      BootRight derive (deliveredEnv (renderEnvFile keys nodeSecret registryCreds))
        advertised := by
  intro right
  have plain : ∀ entry ∈ configuredEntries blankKeys shortSecret none, '\n' ∉ entry.2.toList := by
    decide
  have secret : isNodeSecret shortSecret = true := by decide
  obtain ⟨exports, booted, -⟩ := right derivedIds blankKeys shortSecret none
    [("openai", ["BSDXFMDZSHYS"])] (by decide) (by rfl) (by decide) secret plain
  have usable := usableKeys_of_booted (fun name mem => deliveredEnv_eq plain mem)
    (by decide) rfl rfl rfl secret booted
  exact absurd (usable ("GOOGLE_API_KEY", some " ") (by decide) " " rfl (by decide)) (by decide)

theorem boot_right_iff_blank :
    BootRight derivedIds (deliveredEnv (renderEnvFile blankKeys shortSecret none))
      [("openai", ["BSDXFMDZSHYS"])] ↔ UsableKeys blankKeys :=
  boot_right_iff derivedIds (by decide) (by rfl) (by decide)
    (by decide) (by decide)

end GmMiner.Cli
