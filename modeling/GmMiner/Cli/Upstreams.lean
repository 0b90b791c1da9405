import GmMiner.Cli.ApiKeys
import GmMiner.Lib.SortedMap
import Mathlib.Data.List.Infix

/-!
Which keys a deploy uses, and the check of the selected cloud upstreams
(`ProviderKeys` of `cli/src/config.rs`, and the single-key rule of
`cli/src/slots.rs`).
-/

namespace GmMiner.Cli

open GmMiner.Lib

/-- `non_empty`: blank counts as unset. -/
def nonEmpty (value : Option String) : Bool := value.any fun text => !isBlank text

/-- `v.is_some_and(|v| v.contains(';'))`. -/
def hasSemicolon (value : Option String) : Bool := value.any fun text => text.toList.contains ';'

/-! ### Endpoints -/

def requirePresent (label : String) (fields : List (String × Option String)) :
    Except Error Unit :=
  let missing := (fields.filter fun field => !nonEmpty field.2).map Prod.fst
  if missing.isEmpty then .ok ()
  else bail (label ++ " requires " ++ ", ".intercalate missing ++
    " — set via `gmcli set-api-keys`")

def azureOpenaiAllowedSuffixes : List String :=
  ["openai.azure.com", "services.ai.azure.com", "cognitiveservices.azure.com"]

def azureFoundryAllowedSuffixes : List String := ["services.ai.azure.com"]

def validateBedrockRegion (region : String) : Except Error Unit :=
  if region = "us-east-1" then .ok ()
  else bail "--bedrock-region must be us-east-1 for qualified Bedrock Mantle"

/-- Whether two dots follow each other. -/
def hasEmptyLabel (host : List Char) : Bool := decide (['.', '.'] <:+: host)

/-- A letter, digit, dot or dash of ASCII. -/
def isHostChar (c : Char) : Bool := c.isAlphanum || c == '.' || c == '-'

def isDnsHost (host : List Char) : Bool :=
  !host.isEmpty && host.head? != some '.' && host.getLast? != some '.' &&
    !hasEmptyLabel host && host.all isHostChar

def validateDnsHost (label : String) (host : List Char) : Except Error Unit :=
  if isDnsHost host then .ok ()
  else bail (label ++ " must be a DNS host (got '" ++ String.ofList host ++ "')")

/-- `host_allowed_by_suffix`: the suffix, after a dot. -/
def hostAllowedBySuffix (host : List Char) (suffix : String) : Bool :=
  decide (suffix.toList.length < host.length) && suffix.toList.isSuffixOf host &&
    host[host.length - suffix.toList.length - 1]? == some '.'

/-- What a URL names after its scheme, up to path, query and fragment. -/
def authorityOf (rest : List Char) : List Char :=
  rest.takeWhile fun c => c != '/' && c != '?' && c != '#'

/-- `authority.split_once(':')`, the host of it, in lower case. -/
def hostOf (authority : List Char) : List Char :=
  (authority.takeWhile (· != ':')).map Char.toLower

def validateAzureEndpoint (flag endpoint : String) (allowedSuffixes : List String) :
    Except Error Unit := do
  match stripPrefix "https://".toList endpoint.toList with
  | none =>
      if "://".toList <:+: endpoint.toList ∧ ¬ "http://".toList <+: endpoint.toList then
        bail (flag ++ " has unsupported URL scheme")
      else bail (flag ++ " must use https")
  | some rest =>
      let authority := authorityOf rest
      if authority.contains '@' then bail (flag ++ " must not contain userinfo")
      let host := hostOf authority
      validateDnsHost (flag ++ " host") host
      if allowedSuffixes.any (hostAllowedBySuffix host) then .ok ()
      else bail (flag ++ " host '" ++ String.ofList host ++ "' is not in the allowed suffix set: " ++
        ", ".intercalate allowedSuffixes)

def validateAzureOpenaiEndpoint (endpoint : String) : Except Error Unit :=
  validateAzureEndpoint "--azure-openai-endpoint" endpoint azureOpenaiAllowedSuffixes

def validateAzureFoundryEndpoint (endpoint : String) : Except Error Unit :=
  validateAzureEndpoint "--azure-foundry-endpoint" endpoint azureFoundryAllowedSuffixes

/-! ### Selected upstreams -/

/-- `validate_cloud_backend_single_keys`. -/
def validateCloudBackendSingleKeys (keys : ProviderKeys) : Except Error Unit := do
  if keys.anthropicUpstream = some "bedrock" && hasSemicolon keys.bedrockApiKey then
    bail ("BEDROCK_API_KEY cannot contain ';' when ANTHROPIC_UPSTREAM=bedrock; cloud backends are " ++
      "single-slot in this release")
  if keys.anthropicUpstream = some "foundry" && hasSemicolon keys.azureFoundryApiKey then
    bail ("AZURE_FOUNDRY_API_KEY cannot contain ';' when ANTHROPIC_UPSTREAM=foundry; cloud " ++
      "backends are single-slot in this release")
  if keys.openaiUpstream = some "azure" && hasSemicolon keys.azureOpenaiApiKey then
    bail ("AZURE_OPENAI_API_KEY cannot contain ';' when OPENAI_UPSTREAM=azure; cloud backends " ++
      "are single-slot in this release")

namespace ProviderKeys

/-- `ProviderKeys::direct_key`: the variable of a provider's direct key, and its value unless a
cloud upstream takes its place. -/
def directKey (keys : ProviderKeys) : Provider → Option (String × Option String)
  | .anthropic => some ("ANTHROPIC_API_KEY",
      if keys.anthropicUpstream.getD "direct" = "direct" then keys.anthropic else none)
  | .openAi => some ("OPENAI_API_KEY",
      if keys.openaiUpstream.getD "direct" = "direct" then keys.openai else none)
  | .gemini => some ("GOOGLE_API_KEY", keys.google)
  | .chutes => some ("CHUTES_API_KEY", keys.chutes)
  | .zai => some ("ZAI_API_KEY", keys.zai)
  | .moonshot => some ("MOONSHOT_API_KEY", keys.moonshot)
  | .deepInfra => some ("DEEPINFRA_API_KEY", keys.deepinfra)
  | .kubetee => some ("KUBETEE_API_KEY", keys.kubetee)
  | .engy => some ("ENGY_API_KEY", keys.engy)
  | .moonmath => some ("MOONMATH_API_KEY", keys.moonmath)
  | .near => some ("NEAR_API_KEY", keys.near)
  | .benchmark => none

def directKeys (keys : ProviderKeys) : List (String × Option String) :=
  Provider.all.filterMap keys.directKey

/-- `ProviderKeys::any_set`. -/
def anySet (keys : ProviderKeys) : Bool :=
  let anthropicUpstream := keys.anthropicUpstream.getD "direct"
  let openaiUpstream := keys.openaiUpstream.getD "direct"
  (anthropicUpstream == "bedrock" && nonEmpty keys.bedrockApiKey) ||
    (anthropicUpstream == "foundry" && nonEmpty keys.azureFoundryApiKey) ||
    (openaiUpstream == "azure" && nonEmpty keys.azureOpenaiApiKey) ||
    keys.directKeys.any fun key => nonEmpty key.2

def validateAnthropicUpstream (keys : ProviderKeys) : Except Error Unit := do
  let upstream := keys.anthropicUpstream.getD "direct"
  if upstream = "direct" then .ok ()
  else if upstream = "bedrock" then
    requirePresent "anthropic-upstream=bedrock" [("--bedrock-region", keys.bedrockRegion),
      ("--bedrock-api-key", keys.bedrockApiKey)]
    validateBedrockRegion (keys.bedrockRegion.getD "")
  else if upstream = "foundry" then
    requirePresent "anthropic-upstream=foundry" [
      ("--azure-foundry-endpoint", keys.azureFoundryEndpoint),
      ("--azure-foundry-api-key", keys.azureFoundryApiKey),
      ("--azure-foundry-tenant-id", keys.azureFoundryTenantId),
      ("--azure-foundry-subscription-id", keys.azureFoundrySubscriptionId),
      ("--azure-foundry-resource-group", keys.azureFoundryResourceGroup),
      ("--azure-foundry-client-id", keys.azureFoundryClientId),
      ("--azure-foundry-client-secret", keys.azureFoundryClientSecret)]
    validateAzureFoundryEndpoint (keys.azureFoundryEndpoint.getD "")
  else bail ("anthropic-upstream must be 'direct', 'bedrock', or 'foundry' (got '" ++ upstream ++
    "')")

def validateOpenaiUpstream (keys : ProviderKeys) : Except Error Unit := do
  let upstream := keys.openaiUpstream.getD "direct"
  if upstream = "direct" then .ok ()
  else if upstream = "azure" then
    requirePresent "openai-upstream=azure" [
      ("--azure-openai-endpoint", keys.azureOpenaiEndpoint),
      ("--azure-openai-api-key", keys.azureOpenaiApiKey),
      ("--azure-tenant-id", keys.azureTenantId),
      ("--azure-subscription-id", keys.azureSubscriptionId),
      ("--azure-resource-group", keys.azureResourceGroup),
      ("--azure-client-id", keys.azureClientId),
      ("--azure-client-secret", keys.azureClientSecret)]
    validateAzureOpenaiEndpoint (keys.azureOpenaiEndpoint.getD "")
  else bail ("openai-upstream must be 'direct' or 'azure' (got '" ++ upstream ++ "')")

def validateUpstreams (keys : ProviderKeys) : Except Error Unit := do
  validateCloudBackendSingleKeys keys
  keys.validateAnthropicUpstream
  keys.validateOpenaiUpstream

/-- `ProviderKeys::worker_backends`: provider to adapter. -/
def workerBackends (keys : ProviderKeys) : List (String × String) :=
  let backends :=
    if keys.anthropicUpstream = some "bedrock" then
      SortedMap.insert "anthropic" "bedrock" []
    else if keys.anthropicUpstream = some "foundry" then
      SortedMap.insert "anthropic" "foundry" []
    else []
  if keys.openaiUpstream = some "azure" then SortedMap.insert "openai" "azure" backends
  else backends

end ProviderKeys

end GmMiner.Cli
