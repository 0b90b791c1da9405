import GmMiner.Lib.HashMap
import GmMiner.Text

/-!
The operator's configuration (`cli/src/config.rs`, `cli/src/network.rs`,
`cli/src/types.rs`).
-/

namespace GmMiner.Cli

open GmMiner.Lib

/-- `anyhow::Error`: its chain of messages, the outermost first. -/
abbrev Error := List String

/-- `Result::context`. -/
def context {Value : Type} (result : Except Error Value) (text : String) : Except Error Value :=
  result.mapError (text :: ·)

/-- `anyhow!` and `bail!`. -/
def bail {Value : Type} (text : String) : Except Error Value := .error [text]

/-! ### Networks -/

inductive Network
  | testnet
  | mainnet
  deriving DecidableEq, Repr

namespace Network

def asStr : Network → String
  | testnet => "testnet"
  | mainnet => "mainnet"

def defaultRegistryUrl : Network → String
  | testnet => "https://test-registry.saygm.com"
  | mainnet => "https://registry.saygm.com"

/-- `Network::default`. -/
def default : Network := mainnet

/-- `Network::from_str`. No name holds a letter that only Unicode lowercases to. -/
def fromStr (text : String) : Option Network :=
  let name := String.ofList ((trim text.toList).map Char.toLower)
  if name = "testnet" ∨ name = "test" then some testnet
  else if name = "mainnet" ∨ name = "main" ∨ name = "finney" then some mainnet
  else none

end Network

/-! ### Providers -/

inductive Provider
  | anthropic
  | openAi
  | gemini
  | chutes
  | zai
  | moonshot
  | deepInfra
  | kubetee
  | engy
  | moonmath
  | near
  | benchmark
  deriving DecidableEq, Repr

namespace Provider

def asStr : Provider → String
  | anthropic => "anthropic"
  | openAi => "openai"
  | gemini => "gemini"
  | chutes => "chutes"
  | zai => "zai"
  | moonshot => "moonshot"
  | deepInfra => "deepinfra"
  | kubetee => "kubetee"
  | engy => "engy"
  | moonmath => "moonmath"
  | near => "near"
  | benchmark => "benchmark"

/-- `Provider::iter`. -/
def all : List Provider :=
  [anthropic, openAi, gemini, chutes, zai, moonshot, deepInfra, kubetee, engy, moonmath, near,
    benchmark]

theorem asStr_injective : Function.Injective asStr := by
  intro one other same
  cases one <;> cases other <;> first | rfl | exact absurd same (by decide)

end Provider

/-! ### Records -/

structure TokenEntry where
  accessToken : Option String := none
  tokenExpiresAt : Option String := none
  refreshToken : Option String := none
  deriving DecidableEq, Repr

structure HotkeyRecord where
  ss58 : String
  name : Option String
  verified : Bool
  deriving DecidableEq, Repr

structure WorkerRecord where
  workerId : String
  appId : String
  appName : String
  nodeSecret : String
  /-- Provider to adapter, keys increasing. -/
  backends : Option (List (String × String))
  providerSlots : Option (List (String × List String))
  provisionalSecondary : Bool
  deriving DecidableEq, Repr

structure NetworkEntry where
  apiUrl : Option String := none
  tokens : Option TokenEntry := none
  workers : List WorkerRecord := []
  registeredHotkey : Option HotkeyRecord := none
  legacyNodeSecret : Option String := none
  deriving DecidableEq, Repr

def NetworkEntry.workerByAppName (entry : NetworkEntry) (appName : String) :
    Option WorkerRecord :=
  entry.workers.find? fun worker => worker.appName == appName

structure ProviderKeys where
  anthropic : Option String := none
  anthropicUpstream : Option String := none
  bedrockRegion : Option String := none
  bedrockApiKey : Option String := none
  azureFoundryEndpoint : Option String := none
  azureFoundryApiKey : Option String := none
  azureFoundryTenantId : Option String := none
  azureFoundrySubscriptionId : Option String := none
  azureFoundryResourceGroup : Option String := none
  azureFoundryClientId : Option String := none
  azureFoundryClientSecret : Option String := none
  openai : Option String := none
  openaiUpstream : Option String := none
  azureOpenaiEndpoint : Option String := none
  azureOpenaiApiKey : Option String := none
  azureTenantId : Option String := none
  azureSubscriptionId : Option String := none
  azureResourceGroup : Option String := none
  azureClientId : Option String := none
  azureClientSecret : Option String := none
  google : Option String := none
  chutes : Option String := none
  zai : Option String := none
  moonshot : Option String := none
  deepinfra : Option String := none
  kubetee : Option String := none
  engy : Option String := none
  moonmath : Option String := none
  near : Option String := none
  deriving DecidableEq, Repr

structure AcceptedTerms where
  version : String
  timestamp : String
  deriving DecidableEq, Repr

/-- `Config`. Only `apiUrlOverride` is not stored. -/
structure Config where
  networks : HashMap String NetworkEntry
  activeNetwork : Option String := none
  acceptedTerms : Option AcceptedTerms := none
  providerKeys : Option ProviderKeys := none
  phalaApiKey : Option String := none
  apiUrlOverride : Option String := none

namespace Config

/-- `Config::active_network`, `"mainnet"` if none is selected. -/
def activeNetworkName (cfg : Config) : String := cfg.activeNetwork.getD "mainnet"

/-- `Config::resolved_network`: an unknown name falls back to the default. -/
def resolvedNetwork (cfg : Config) : Network :=
  (cfg.activeNetwork.bind Network.fromStr).getD .default

/-- `Config::api_url`. -/
def apiUrl (cfg : Config) : String :=
  cfg.apiUrlOverride.getD
    (((cfg.networks.lookup cfg.activeNetworkName).bind NetworkEntry.apiUrl).getD
      cfg.resolvedNetwork.defaultRegistryUrl)

/-- What `save` writes and `load` reads back: the override is skipped. -/
def stored (cfg : Config) : Config := { cfg with apiUrlOverride := none }

/-- `networks.entry(network).or_default()`, then a change of the entry. -/
def modifyEntry (cfg : Config) (network : String) (change : NetworkEntry → NetworkEntry) :
    Config :=
  { cfg with networks := cfg.networks.insert network (change ((cfg.networks.lookup network).getD {})) }

/-- `Config::active_entry_mut`, then a change of the entry. -/
def modifyActiveEntry (cfg : Config) (change : NetworkEntry → NetworkEntry) : Config :=
  cfg.modifyEntry cfg.activeNetworkName change

/-- The tokens of a network's entry. -/
def tokensOf (cfg : Config) (network : String) : Option TokenEntry :=
  (cfg.networks.lookup network).bind NetworkEntry.tokens

def activeTokens (cfg : Config) : Option TokenEntry := cfg.tokensOf cfg.activeNetworkName

def activeNetworkEntry (cfg : Config) : Option NetworkEntry :=
  cfg.networks.lookup cfg.activeNetworkName

@[simp] theorem networks_stored (cfg : Config) : cfg.stored.networks = cfg.networks := rfl

@[simp] theorem tokensOf_stored (cfg : Config) (network : String) :
    cfg.stored.tokensOf network = cfg.tokensOf network := rfl

@[simp] theorem activeNetworkName_modifyEntry (cfg : Config) (network : String)
    (change : NetworkEntry → NetworkEntry) :
    (cfg.modifyEntry network change).activeNetworkName = cfg.activeNetworkName := rfl

/-- A change of one network leaves the others. -/
theorem lookup_modifyEntry (cfg : Config) (network other : String)
    (change : NetworkEntry → NetworkEntry) :
    (cfg.modifyEntry network change).networks.lookup other =
      if other = network then some (change ((cfg.networks.lookup network).getD {}))
      else cfg.networks.lookup other :=
  Finmap.lookup_insert_eq _ _ _ _

@[simp] theorem tokensOf_modifyEntry (cfg : Config) (network : String)
    (change : NetworkEntry → NetworkEntry) :
    (cfg.modifyEntry network change).tokensOf network =
      (change ((cfg.networks.lookup network).getD {})).tokens := by
  unfold tokensOf
  rw [lookup_modifyEntry, if_pos rfl, Option.bind_some]

@[simp] theorem activeTokens_modifyActiveEntry (cfg : Config)
    (change : NetworkEntry → NetworkEntry) :
    (cfg.modifyActiveEntry change).activeTokens =
      (change ((cfg.networks.lookup cfg.activeNetworkName).getD {})).tokens :=
  tokensOf_modifyEntry _ _ _

end Config

end GmMiner.Cli
