import GmMiner.Cli.Slots

/-!
The container's entrypoint up to its key slots (`image/start.sh`), and the helper
it calls (`gmcli slot-env`, `cli/src/main.rs`).

An environment gives every variable's value; a variable that is not set reads as
the empty text, as the script reads all of them.
-/

namespace GmMiner.Cli

open GmMiner.Lib

abbrev Environment := String → String

/-- `"${VAR:-default}"`. -/
def orDefault (value default : String) : String := if value = "" then default else value

/-! ### Hosts -/

def validateHostname (name : String) (host : List Char) : Except Error Unit :=
  if host.isEmpty || !host.all isHostChar || host.head? == some '.' ||
      host.getLast? == some '.' || decide (['.', '.'] <:+: host) then
    bail ("error: " ++ name ++ " must be a DNS host (got '" ++ String.ofList host ++ "')")
  else .ok ()

/-- `"${host}" == *".${suffix}"`. -/
def endsInSuffix (host : List Char) (suffix : String) : Bool :=
  ('.' :: suffix.toList).isSuffixOf host

def requireHostSuffix (name : String) (host : List Char) (suffixes : List String) :
    Except Error Unit :=
  if suffixes.any (endsInSuffix host) then .ok ()
  else bail ("error: " ++ name ++ " host '" ++ String.ofList host ++
    "' is not in the allowed suffix set: " ++ " ".intercalate suffixes)

def requireSingleSlot (name value upstream : String) : Except Error Unit :=
  if value.toList.contains ';' then
    bail ("error: " ++ name ++ " cannot contain ';' when " ++ upstream ++
      "; cloud backends are single-slot")
  else .ok ()

def matchedHostSuffix (host : List Char) (suffixes : List String) : Except Error String :=
  required (suffixes.find? (endsInSuffix host)) []

/-- `"${text%%c*}"`: what stands before the first such character. -/
def upTo (c : Char) (text : List Char) : List Char := text.takeWhile (· != c)

def parseAzureHost (name endpoint : String) : Except Error (List Char) := do
  match stripPrefix "https://".toList endpoint.toList with
  | none =>
      if "http://".toList <+: endpoint.toList then
        bail ("error: " ++ name ++ " must use https when a scheme is provided")
      else if "://".toList <:+: endpoint.toList then
        bail ("error: " ++ name ++ " has unsupported URL scheme")
      else bail ("error: " ++ name ++ " must use https")
  | some rest =>
      let rest := upTo '#' (upTo '?' (upTo '/' rest))
      if rest.contains '@' then bail ("error: " ++ name ++ " must not contain userinfo")
      return (upTo ':' rest).map Char.toLower

/-! ### Upstream selectors -/

/-- What the selectors resolve to. -/
structure ResolvedUpstream where
  host : List Char
  sanSuffix : String
  azureEnabled : Bool
  deriving DecidableEq, Repr

/-- `-z` of a variable, which is an error. -/
def requireSet (env : Environment) (var upstream : String) : Except Error Unit :=
  if env var = "" then bail ("error: " ++ var ++ " must be set when " ++ upstream) else .ok ()

def resolveAnthropicUpstream (env : Environment) (upstream : String) :
    Except Error ResolvedUpstream := do
  if upstream = "direct" then return ⟨"api.anthropic.com".toList, "", false⟩
  else if upstream = "bedrock" then
    requireSet env "BEDROCK_REGION" "ANTHROPIC_UPSTREAM=bedrock"
    requireSet env "BEDROCK_API_KEY" "ANTHROPIC_UPSTREAM=bedrock"
    requireSingleSlot "BEDROCK_API_KEY" (env "BEDROCK_API_KEY") "ANTHROPIC_UPSTREAM=bedrock"
    if env "BEDROCK_REGION" ≠ "us-east-1" then
      bail "error: Bedrock Mantle Messages is qualified only in us-east-1"
    return ⟨"127.0.0.1".toList, "", false⟩
  else if upstream = "foundry" then
    requireSet env "AZURE_FOUNDRY_ENDPOINT" "ANTHROPIC_UPSTREAM=foundry"
    requireSet env "AZURE_FOUNDRY_API_KEY" "ANTHROPIC_UPSTREAM=foundry"
    requireSingleSlot "AZURE_FOUNDRY_API_KEY" (env "AZURE_FOUNDRY_API_KEY")
      "ANTHROPIC_UPSTREAM=foundry"
    let host ← parseAzureHost "AZURE_FOUNDRY_ENDPOINT" (env "AZURE_FOUNDRY_ENDPOINT")
    validateHostname "Microsoft Foundry" host
    requireHostSuffix "Microsoft Foundry" host ["services.ai.azure.com"]
    return ⟨host, "", true⟩
  else bail ("error: ANTHROPIC_UPSTREAM must be 'direct', 'bedrock', or 'foundry' (got '" ++
    upstream ++ "')")

def resolveOpenaiUpstream (env : Environment) (upstream : String) :
    Except Error ResolvedUpstream := do
  if upstream = "direct" then return ⟨"api.openai.com".toList, "", false⟩
  else if upstream = "azure" then
    requireSet env "AZURE_OPENAI_ENDPOINT" "OPENAI_UPSTREAM=azure"
    requireSet env "AZURE_OPENAI_API_KEY" "OPENAI_UPSTREAM=azure"
    requireSingleSlot "AZURE_OPENAI_API_KEY" (env "AZURE_OPENAI_API_KEY") "OPENAI_UPSTREAM=azure"
    let host ← parseAzureHost "AZURE_OPENAI_ENDPOINT" (env "AZURE_OPENAI_ENDPOINT")
    let suffixes := ["openai.azure.com", "services.ai.azure.com", "cognitiveservices.azure.com"]
    validateHostname "Azure OpenAI" host
    requireHostSuffix "Azure OpenAI" host suffixes
    let suffix ← matchedHostSuffix host suffixes
    return ⟨host, "." ++ suffix, true⟩
  else bail ("error: OPENAI_UPSTREAM must be 'direct' or 'azure' (got '" ++ upstream ++ "')")

/-! ### Keys and the node secret -/

/-- A provider's key variable, and the selector it needs, if any. -/
structure KeyVar where
  provider : String
  envVar : String
  /-- Whether the selectors let the key be used. -/
  selected : String → String → Bool

def openSelector : String → String → Bool := fun _ _ => true

/-- The variables in the order of the fan-out calls. -/
def keyVars : List KeyVar :=
  [⟨"anthropic", "ANTHROPIC_API_KEY", fun anthropic _ => anthropic == "direct"⟩,
    ⟨"anthropic", "BEDROCK_API_KEY", fun anthropic _ => anthropic == "bedrock"⟩,
    ⟨"openai", "OPENAI_API_KEY", fun _ openai => openai == "direct"⟩,
    ⟨"gemini", "GOOGLE_API_KEY", openSelector⟩,
    ⟨"chutes", "CHUTES_API_KEY", openSelector⟩,
    ⟨"zai", "ZAI_API_KEY", openSelector⟩,
    ⟨"moonshot", "MOONSHOT_API_KEY", openSelector⟩,
    ⟨"deepinfra", "DEEPINFRA_API_KEY", openSelector⟩,
    ⟨"kubetee", "KUBETEE_API_KEY", openSelector⟩,
    ⟨"engy", "ENGY_API_KEY", openSelector⟩,
    ⟨"moonmath", "MOONMATH_API_KEY", openSelector⟩,
    ⟨"near", "NEAR_API_KEY", openSelector⟩,
    ⟨"anthropic", "AZURE_FOUNDRY_API_KEY", fun anthropic _ => anthropic == "foundry"⟩,
    ⟨"openai", "AZURE_OPENAI_API_KEY", fun _ openai => openai == "azure"⟩]

/-- The key of a variable is set, and its selector chosen. -/
def KeyVar.active (env : Environment) (anthropic openai : String) (var : KeyVar) : Bool :=
  var.selected anthropic openai && env var.envVar != ""

/-- The `HAS_KEY` gate. It asks for the same variables, in another order. -/
def requireProviderKey (env : Environment) (anthropic openai : String) : Except Error Unit :=
  if keyVars.any (KeyVar.active env anthropic openai) then .ok ()
  else if anthropic = "direct" ∧ openai = "direct" then
    bail ("error: at least one of ANTHROPIC_API_KEY / OPENAI_API_KEY / GOOGLE_API_KEY / " ++
      "CHUTES_API_KEY / ZAI_API_KEY / MOONSHOT_API_KEY / DEEPINFRA_API_KEY / KUBETEE_API_KEY / " ++
      "ENGY_API_KEY / MOONMATH_API_KEY / NEAR_API_KEY must be set")
  else bail "error: at least one usable provider key must be set"

/-- `^[A-Za-z0-9_-]{16,128}$`. -/
def isNodeSecret (secret : String) : Bool :=
  decide (16 ≤ secret.toList.length) && decide (secret.toList.length ≤ 128) &&
    secret.toList.all fun c => c.isAlphanum || c == '_' || c == '-'

def validateNodeSecret (env : Environment) : Except Error Unit :=
  let secret := env "GM_NODE_SECRET"
  if secret ≠ "" ∧ ¬ isNodeSecret secret then
    bail ("error: GM_NODE_SECRET must match ^[A-Za-z0-9_-]\x7b16,128\x7d$ (16-128 URL-safe " ++
      "chars); refusing to render the data plane")
  else .ok ()

/-! ### Fan-out -/

/-- `non_empty_env`: blank counts as unset. -/
def nonEmptyEnv (env : Environment) (name : String) : Option String :=
  some (env name) |>.filter fun value => !isBlank value

/-- `gmcli slot-env`. -/
def cmdSlotEnv (derive : DeriveSlotId) (env : Environment) (provider envVar : String) :
    Except Error (List (SlotVar × List Char)) := do
  let nodeSecret ← required (nonEmptyEnv env "GM_NODE_SECRET")
    ["GM_NODE_SECRET must be set to derive upstream key slots"]
  let raw ← required (nonEmptyEnv env envVar)
    [envVar ++ " must be set to derive upstream key slots"]
  renderSlotEnvExports derive provider raw.toList nodeSecret

def fanOutSlots (derive : DeriveSlotId) (env : Environment) (provider envVar : String) :
    Except Error (List (SlotVar × List Char)) :=
  if env "GM_NODE_SECRET" = "" then
    if (env envVar).toList.contains ';' then
      bail ("error: " ++ envVar ++ " holds multiple keys but GM_NODE_SECRET is unset; upstream " ++
        "key slots require a node secret")
    else .ok []
  else
    context (cmdSlotEnv derive env provider envVar)
      ("error: failed to derive upstream key slots for " ++ envVar)

/-- The script from its selectors to its last fan-out: the variables it exports. -/
def startSlots (derive : DeriveSlotId) (env : Environment) :
    Except Error (List (SlotVar × List Char)) := do
  let anthropicUpstream := orDefault (env "ANTHROPIC_UPSTREAM") "direct"
  let openaiUpstream := orDefault (env "OPENAI_UPSTREAM") "direct"
  let anthropic ← resolveAnthropicUpstream env anthropicUpstream
  let openai ← resolveOpenaiUpstream env openaiUpstream
  requireProviderKey env anthropicUpstream openaiUpstream
  validateNodeSecret env
  if (anthropic.azureEnabled || openai.azureEnabled || anthropicUpstream == "bedrock") &&
      env "GM_NODE_SECRET" == "" then
    bail "error: GM_NODE_SECRET must be set when cloud key-slot routing is enabled"
  (keyVars.filter (KeyVar.active env anthropicUpstream openaiUpstream)).foldlM
    (fun exports var => (exports ++ ·) <$> fanOutSlots derive env var.provider var.envVar) []

end GmMiner.Cli
