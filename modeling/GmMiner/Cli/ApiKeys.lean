import GmMiner.Cli.Config
import GmMiner.Lib.Result

/-!
Provider keys: what `gmcli set-api-keys` accepts and stores
(`cli/src/commands/keys.rs`).
-/

namespace GmMiner.Cli

open GmMiner.Lib

/-- `value.trim().is_empty()`. -/
def isBlank (value : String) : Bool := (trim value.toList).isEmpty

def validateKey (name value : String) : Except Error Unit :=
  if isBlank value then
    bail ("empty value for --" ++ name ++ "; either omit the flag or pass a non-empty key")
  else .ok ()

def validateSelector (name value : String) (allowed : List String) : Except Error Unit := do
  validateKey name value
  if allowed.contains value then .ok ()
  else bail ("invalid value for --" ++ name ++ ": " ++ value ++ "; expected one of " ++
    ", ".intercalate allowed)

/-- A check of a value that is there. -/
def ifSet (value : Option String) (check : String → Except Error Unit) : Except Error Unit :=
  match value with
  | some value => check value
  | none => .ok ()

def validateUpdate (keys : ProviderKeys) : Except Error Unit := do
  [("azure-foundry-endpoint", keys.azureFoundryEndpoint),
    ("azure-foundry-api-key", keys.azureFoundryApiKey),
    ("azure-foundry-tenant-id", keys.azureFoundryTenantId),
    ("azure-foundry-subscription-id", keys.azureFoundrySubscriptionId),
    ("azure-foundry-resource-group", keys.azureFoundryResourceGroup),
    ("azure-foundry-client-id", keys.azureFoundryClientId),
    ("azure-foundry-client-secret", keys.azureFoundryClientSecret),
    ("anthropic", keys.anthropic),
    ("bedrock-region", keys.bedrockRegion),
    ("bedrock-api-key", keys.bedrockApiKey),
    ("openai", keys.openai),
    ("azure-openai-endpoint", keys.azureOpenaiEndpoint),
    ("azure-openai-api-key", keys.azureOpenaiApiKey),
    ("azure-tenant-id", keys.azureTenantId),
    ("azure-subscription-id", keys.azureSubscriptionId),
    ("azure-resource-group", keys.azureResourceGroup),
    ("azure-client-id", keys.azureClientId),
    ("azure-client-secret", keys.azureClientSecret),
    ("google", keys.google),
    ("chutes", keys.chutes),
    ("zai", keys.zai),
    ("moonshot", keys.moonshot),
    ("deepinfra", keys.deepinfra),
    ("kubetee", keys.kubetee),
    ("engy", keys.engy),
    ("moonmath", keys.moonmath),
    ("near", keys.near)].forM fun (name, value) => ifSet value (validateKey name)
  ifSet keys.anthropicUpstream fun value =>
    validateSelector "anthropic-upstream" value ["direct", "bedrock", "foundry"]
  ifSet keys.openaiUpstream fun value =>
    validateSelector "openai-upstream" value ["direct", "azure"]

/-- `merge_update`: what the update names replaces what is stored. -/
def mergeUpdate (keys update : ProviderKeys) : ProviderKeys where
  anthropic := update.anthropic.or keys.anthropic
  anthropicUpstream := update.anthropicUpstream.or keys.anthropicUpstream
  bedrockRegion := update.bedrockRegion.or keys.bedrockRegion
  bedrockApiKey := update.bedrockApiKey.or keys.bedrockApiKey
  azureFoundryEndpoint := update.azureFoundryEndpoint.or keys.azureFoundryEndpoint
  azureFoundryApiKey := update.azureFoundryApiKey.or keys.azureFoundryApiKey
  azureFoundryTenantId := update.azureFoundryTenantId.or keys.azureFoundryTenantId
  azureFoundrySubscriptionId :=
    update.azureFoundrySubscriptionId.or keys.azureFoundrySubscriptionId
  azureFoundryResourceGroup := update.azureFoundryResourceGroup.or keys.azureFoundryResourceGroup
  azureFoundryClientId := update.azureFoundryClientId.or keys.azureFoundryClientId
  azureFoundryClientSecret := update.azureFoundryClientSecret.or keys.azureFoundryClientSecret
  openai := update.openai.or keys.openai
  openaiUpstream := update.openaiUpstream.or keys.openaiUpstream
  azureOpenaiEndpoint := update.azureOpenaiEndpoint.or keys.azureOpenaiEndpoint
  azureOpenaiApiKey := update.azureOpenaiApiKey.or keys.azureOpenaiApiKey
  azureTenantId := update.azureTenantId.or keys.azureTenantId
  azureSubscriptionId := update.azureSubscriptionId.or keys.azureSubscriptionId
  azureResourceGroup := update.azureResourceGroup.or keys.azureResourceGroup
  azureClientId := update.azureClientId.or keys.azureClientId
  azureClientSecret := update.azureClientSecret.or keys.azureClientSecret
  google := update.google.or keys.google
  chutes := update.chutes.or keys.chutes
  zai := update.zai.or keys.zai
  moonshot := update.moonshot.or keys.moonshot
  deepinfra := update.deepinfra.or keys.deepinfra
  kubetee := update.kubetee.or keys.kubetee
  engy := update.engy.or keys.engy
  moonmath := update.moonmath.or keys.moonmath
  near := update.near.or keys.near

/-- `cmd_set_api_keys`, on the keys stored. -/
def setApiKeys (stored : Option ProviderKeys) (update : ProviderKeys) :
    Except Error ProviderKeys := do
  validateUpdate update
  return mergeUpdate (stored.getD {}) update

/-- The keys that calls of `gmcli set-api-keys` leave stored. -/
inductive AcceptedKeys : ProviderKeys → Prop
  | fresh {update keys} (accepted : setApiKeys none update = .ok keys) : AcceptedKeys keys
  | merged {stored update keys} (before : AcceptedKeys stored)
      (accepted : setApiKeys (some stored) update = .ok keys) : AcceptedKeys keys

end GmMiner.Cli
