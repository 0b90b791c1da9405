import GmMiner.Cli.ApiKeys
import GmMiner.Lib.KeyedLines

/-!
The env file of a deploy (`cli/src/deploy/compose.rs`,
`cli/src/compose_hash.rs`): one line for every provider variable, whether it is
configured or not, so that the measured list of names is always the same.

The text is read back as `phala` reads it: line by line, each cut at its first
equals sign.
-/

namespace GmMiner.Cli

open GmMiner.Lib

/-! ### The writer -/

structure RegistryCredentials where
  registry : String
  username : String
  password : String
  deriving DecidableEq, Repr

/-- One line, `NAME=value`. -/
def envLine (name value : String) : List Char := name.toList ++ '=' :: (value.toList ++ ['\n'])

/-- The variables of `render_provider_envs`. -/
def providerEnvs (envVars : ProviderKeys) : List (String × Option String) :=
  [("ANTHROPIC_API_KEY", envVars.anthropic),
    ("ANTHROPIC_UPSTREAM", envVars.anthropicUpstream),
    ("BEDROCK_REGION", envVars.bedrockRegion),
    ("BEDROCK_API_KEY", envVars.bedrockApiKey),
    ("AZURE_FOUNDRY_ENDPOINT", envVars.azureFoundryEndpoint),
    ("AZURE_FOUNDRY_API_KEY", envVars.azureFoundryApiKey),
    ("AZURE_FOUNDRY_TENANT_ID", envVars.azureFoundryTenantId),
    ("AZURE_FOUNDRY_SUBSCRIPTION_ID", envVars.azureFoundrySubscriptionId),
    ("AZURE_FOUNDRY_RESOURCE_GROUP", envVars.azureFoundryResourceGroup),
    ("AZURE_FOUNDRY_CLIENT_ID", envVars.azureFoundryClientId),
    ("AZURE_FOUNDRY_CLIENT_SECRET", envVars.azureFoundryClientSecret),
    ("OPENAI_API_KEY", envVars.openai),
    ("OPENAI_UPSTREAM", envVars.openaiUpstream),
    ("AZURE_OPENAI_ENDPOINT", envVars.azureOpenaiEndpoint),
    ("AZURE_OPENAI_API_KEY", envVars.azureOpenaiApiKey),
    ("AZURE_TENANT_ID", envVars.azureTenantId),
    ("AZURE_SUBSCRIPTION_ID", envVars.azureSubscriptionId),
    ("AZURE_RESOURCE_GROUP", envVars.azureResourceGroup),
    ("AZURE_CLIENT_ID", envVars.azureClientId),
    ("AZURE_CLIENT_SECRET", envVars.azureClientSecret),
    ("GOOGLE_API_KEY", envVars.google),
    ("CHUTES_API_KEY", envVars.chutes),
    ("ZAI_API_KEY", envVars.zai),
    ("MOONSHOT_API_KEY", envVars.moonshot),
    ("DEEPINFRA_API_KEY", envVars.deepinfra),
    ("KUBETEE_API_KEY", envVars.kubetee),
    ("ENGY_API_KEY", envVars.engy),
    ("MOONMATH_API_KEY", envVars.moonmath),
    ("NEAR_API_KEY", envVars.near)]

def renderProviderEnvs (envVars : ProviderKeys) : List Char :=
  (providerEnvs envVars).flatMap fun (name, value) => envLine name (value.getD "")

def renderEnvFile (envVars : ProviderKeys) (nodeSecret : String)
    (registryCreds : Option RegistryCredentials) : List Char :=
  let lines := renderProviderEnvs envVars ++ envLine "GM_NODE_SECRET" nodeSecret
  match registryCreds with
  | some creds =>
      lines ++ envLine "DSTACK_DOCKER_REGISTRY" creds.registry ++
        envLine "DSTACK_DOCKER_USERNAME" creds.username ++
        envLine "DSTACK_DOCKER_PASSWORD" creds.password
  | none => lines

def canonicalAllowedEnvs : List String :=
  ["ANTHROPIC_API_KEY", "ANTHROPIC_UPSTREAM", "BEDROCK_REGION", "BEDROCK_API_KEY",
    "AZURE_FOUNDRY_ENDPOINT", "AZURE_FOUNDRY_API_KEY", "AZURE_FOUNDRY_TENANT_ID",
    "AZURE_FOUNDRY_SUBSCRIPTION_ID", "AZURE_FOUNDRY_RESOURCE_GROUP", "AZURE_FOUNDRY_CLIENT_ID",
    "AZURE_FOUNDRY_CLIENT_SECRET", "OPENAI_API_KEY", "OPENAI_UPSTREAM", "AZURE_OPENAI_ENDPOINT",
    "AZURE_OPENAI_API_KEY", "AZURE_TENANT_ID", "AZURE_SUBSCRIPTION_ID", "AZURE_RESOURCE_GROUP",
    "AZURE_CLIENT_ID", "AZURE_CLIENT_SECRET", "GOOGLE_API_KEY", "CHUTES_API_KEY", "ZAI_API_KEY",
    "MOONSHOT_API_KEY", "DEEPINFRA_API_KEY", "KUBETEE_API_KEY", "ENGY_API_KEY",
    "MOONMATH_API_KEY", "NEAR_API_KEY", "GM_NODE_SECRET"]

/-! ### What the file is to say -/

/-- The configured value of a variable. -/
def configuredValue (keys : ProviderKeys) (nodeSecret name : String) : String :=
  let value :=
    if name = "ANTHROPIC_API_KEY" then keys.anthropic
    else if name = "ANTHROPIC_UPSTREAM" then keys.anthropicUpstream
    else if name = "BEDROCK_REGION" then keys.bedrockRegion
    else if name = "BEDROCK_API_KEY" then keys.bedrockApiKey
    else if name = "AZURE_FOUNDRY_ENDPOINT" then keys.azureFoundryEndpoint
    else if name = "AZURE_FOUNDRY_API_KEY" then keys.azureFoundryApiKey
    else if name = "AZURE_FOUNDRY_TENANT_ID" then keys.azureFoundryTenantId
    else if name = "AZURE_FOUNDRY_SUBSCRIPTION_ID" then keys.azureFoundrySubscriptionId
    else if name = "AZURE_FOUNDRY_RESOURCE_GROUP" then keys.azureFoundryResourceGroup
    else if name = "AZURE_FOUNDRY_CLIENT_ID" then keys.azureFoundryClientId
    else if name = "AZURE_FOUNDRY_CLIENT_SECRET" then keys.azureFoundryClientSecret
    else if name = "OPENAI_API_KEY" then keys.openai
    else if name = "OPENAI_UPSTREAM" then keys.openaiUpstream
    else if name = "AZURE_OPENAI_ENDPOINT" then keys.azureOpenaiEndpoint
    else if name = "AZURE_OPENAI_API_KEY" then keys.azureOpenaiApiKey
    else if name = "AZURE_TENANT_ID" then keys.azureTenantId
    else if name = "AZURE_SUBSCRIPTION_ID" then keys.azureSubscriptionId
    else if name = "AZURE_RESOURCE_GROUP" then keys.azureResourceGroup
    else if name = "AZURE_CLIENT_ID" then keys.azureClientId
    else if name = "AZURE_CLIENT_SECRET" then keys.azureClientSecret
    else if name = "GOOGLE_API_KEY" then keys.google
    else if name = "CHUTES_API_KEY" then keys.chutes
    else if name = "ZAI_API_KEY" then keys.zai
    else if name = "MOONSHOT_API_KEY" then keys.moonshot
    else if name = "DEEPINFRA_API_KEY" then keys.deepinfra
    else if name = "KUBETEE_API_KEY" then keys.kubetee
    else if name = "ENGY_API_KEY" then keys.engy
    else if name = "MOONMATH_API_KEY" then keys.moonmath
    else if name = "NEAR_API_KEY" then keys.near
    else if name = "GM_NODE_SECRET" then some nodeSecret
    else none
  value.getD ""

/-- The variables in order with their values: the canonical ones, and the registry's. -/
def configuredEntries (keys : ProviderKeys) (nodeSecret : String)
    (registryCreds : Option RegistryCredentials) : List (String × String) :=
  canonicalAllowedEnvs.map (fun name => (name, configuredValue keys nodeSecret name)) ++
    match registryCreds with
    | some creds => [("DSTACK_DOCKER_REGISTRY", creds.registry),
        ("DSTACK_DOCKER_USERNAME", creds.username), ("DSTACK_DOCKER_PASSWORD", creds.password)]
    | none => []

/-- The reader: lines, each cut at its first equals sign. -/
def readEnvFile (text : List Char) : List (Option (List Char × List Char)) :=
  KeyedLines.decode '=' '\n' text

/-- The file reads back as the configured variables, each with its value. -/
def EnvFileRight (keys : ProviderKeys) (nodeSecret : String)
    (registryCreds : Option RegistryCredentials) : Prop :=
  readEnvFile (renderEnvFile keys nodeSecret registryCreds) =
    (configuredEntries keys nodeSecret registryCreds).map fun entry =>
      some (entry.1.toList, entry.2.toList)

/-! ### The writer and the reader -/

/-- The writer's variables are the canonical ones, each with its configured value. -/
theorem providerEnvs_configured (keys : ProviderKeys) (nodeSecret : String) :
    (providerEnvs keys).map (fun entry => (entry.1, entry.2.getD "")) ++
        [("GM_NODE_SECRET", nodeSecret)] =
      canonicalAllowedEnvs.map fun name => (name, configuredValue keys nodeSecret name) := by
  simp only [canonicalAllowedEnvs, providerEnvs, configuredValue, List.map_cons, List.map_nil,
    String.reduceEq, if_true, if_false, Option.getD_some, List.cons_append, List.nil_append]

theorem renderProviderEnvs_eq (keys : ProviderKeys) (nodeSecret : String) :
    renderProviderEnvs keys ++ envLine "GM_NODE_SECRET" nodeSecret =
      (canonicalAllowedEnvs.map fun name => (name, configuredValue keys nodeSecret name)).flatMap
        fun entry => envLine entry.1 entry.2 := by
  rw [← providerEnvs_configured, List.flatMap_append, List.flatMap_map, List.flatMap_singleton]
  rfl

/-- What is written are the configured entries, as keyed lines. -/
theorem renderEnvFile_eq (keys : ProviderKeys) (nodeSecret : String)
    (registryCreds : Option RegistryCredentials) :
    renderEnvFile keys nodeSecret registryCreds =
      KeyedLines.encode '=' '\n' ((configuredEntries keys nodeSecret registryCreds).map
        fun entry => (entry.1.toList, entry.2.toList)) := by
  have encoded : ∀ entries : List (String × String),
      KeyedLines.encode '=' '\n' (entries.map fun entry => (entry.1.toList, entry.2.toList)) =
        entries.flatMap fun entry => envLine entry.1 entry.2 :=
    fun entries => List.flatMap_map _ _ entries
  unfold renderEnvFile configuredEntries
  rw [renderProviderEnvs_eq, encoded, List.flatMap_append]
  cases registryCreds with
  | none => exact (List.append_nil _).symm
  | some creds => simp only [List.flatMap_cons, List.flatMap_nil, List.append_nil,
      List.append_assoc]

/-- No name has an equals sign or a line feed. -/
theorem configured_names (keys : ProviderKeys) (nodeSecret : String)
    (registryCreds : Option RegistryCredentials) :
    ∀ entry ∈ configuredEntries keys nodeSecret registryCreds,
      '=' ∉ entry.1.toList ∧ '\n' ∉ entry.1.toList := by
  have plain : ∀ name ∈ canonicalAllowedEnvs ++ ["DSTACK_DOCKER_REGISTRY",
      "DSTACK_DOCKER_USERNAME", "DSTACK_DOCKER_PASSWORD"],
      '=' ∉ name.toList ∧ '\n' ∉ name.toList := by
    have bytes : ∀ name ∈ canonicalAllowedEnvs ++ ["DSTACK_DOCKER_REGISTRY",
        "DSTACK_DOCKER_USERNAME", "DSTACK_DOCKER_PASSWORD"],
        61 ∉ asBytes name ∧ 10 ∉ asBytes name := by
      decide
    refine fun name known => ⟨fun sign => (bytes name known).1 ?_, fun feed => (bytes name known).2 ?_⟩
    all_goals rw [asBytes_eq_flatMap]
    · exact List.mem_flatMap.mpr ⟨'=', sign, by decide⟩
    · exact List.mem_flatMap.mpr ⟨'\n', feed, by decide⟩
  intro entry mem
  refine plain entry.1 (List.mem_append.mpr ?_)
  rcases List.mem_append.mp mem with provider | docker
  · obtain ⟨name, here, rfl⟩ := List.mem_map.mp provider
    exact .inl here
  · cases registryCreds with
    | none => cases docker
    | some creds =>
        simp only [List.mem_cons, List.not_mem_nil, or_false] at docker
        rcases docker with rfl | rfl | rfl <;> simp

/-- The env file reads back as what was configured exactly if no value holds a line feed. -/
theorem env_file_right_iff (keys : ProviderKeys) (nodeSecret : String)
    (registryCreds : Option RegistryCredentials) :
    EnvFileRight keys nodeSecret registryCreds ↔
      ∀ entry ∈ configuredEntries keys nodeSecret registryCreds, '\n' ∉ entry.2.toList := by
  have read := KeyedLines.decode_encode_iff
    ((configuredEntries keys nodeSecret registryCreds).map fun entry =>
      (entry.1.toList, entry.2.toList)) (show '=' ≠ '\n' by decide)
    (List.forall_mem_map.mpr (configured_names keys nodeSecret registryCreds))
  rw [List.map_map, List.forall_mem_map] at read
  unfold EnvFileRight readEnvFile
  rw [renderEnvFile_eq]
  exact read

/-- A key pasted with the next line of a script. -/
def pastedKeys : ProviderKeys := { anthropic := some "sk-ant\nOPENAI_API_KEY=sk-other" }

/-- A pasted key with a line feed sets a variable of its own. -/
theorem pasted_key_sets_another_variable :
    ¬ ∀ keys, AcceptedKeys keys → ∀ nodeSecret registryCreds,
      EnvFileRight keys nodeSecret registryCreds := by
  intro right
  have accepted : AcceptedKeys pastedKeys :=
    .fresh (show setApiKeys none pastedKeys = .ok pastedKeys by rfl)
  have lines := congrArg List.length (right pastedKeys accepted "secret" none)
  rw [List.length_map] at lines
  exact absurd lines (by decide +kernel)

end GmMiner.Cli
