import GmMiner.Azure.Error
import GmMiner.Lib.Result
import GmMiner.Text

/-!
The configured endpoint of an Azure account (`azure-verify/src/endpoint.rs`,
`azure-verify/src/config.rs`, `azure-verify/src/catalog.rs`).

`Urls` stands for the URL parser.
-/

namespace GmMiner.Azure

open GmMiner.Lib

/-- Which upstream a verified Azure account backs. -/
inductive AzureProvider
  | openAi
  | foundry
  deriving DecidableEq, Repr

namespace AzureProvider

def label : AzureProvider → String
  | openAi => "Azure OpenAI"
  | foundry => "Microsoft Foundry"

def catalogIds : AzureProvider → List String
  | openAi => ["gpt-5.4", "gpt-5.4-mini", "gpt-5.4-nano", "gpt-5.5", "gpt-5.5-pro", "gpt-5.6",
      "gpt-5.6-luna", "gpt-5.6-sol", "gpt-5.6-terra", "o3", "o4-mini"]
  | foundry => ["claude-fable-5", "claude-fable-5-1", "claude-haiku-4-5", "claude-opus-4-6",
      "claude-opus-4-7", "claude-opus-4-8", "claude-opus-5", "claude-sonnet-4-6",
      "claude-sonnet-5"]

def modelFormat : AzureProvider → String
  | openAi => "OpenAI"
  | foundry => "Anthropic"

end AzureProvider

/-- `AzureVerifyConfig`. -/
structure AzureVerifyConfig where
  provider : AzureProvider
  endpoint : String
  tenantId : String
  subscriptionId : String
  resourceGroup : String
  clientId : String
  clientSecret : String
  deriving DecidableEq, Repr

/-- A parsed URL, as far as it is asked: its serialized parts. -/
structure Url where
  scheme : String
  username : String
  password : Option String
  hostStr : Option String
  deriving DecidableEq, Repr

/-- `Url::parse`, its error as text, and `{:?}` of a string. -/
structure Urls where
  parse : String → Except String Url
  debug : String → String

/-- `str::to_ascii_lowercase`. -/
def toAsciiLowercase (text : String) : String := text.map Char.toLower

/-- `text.trim().is_empty()`. -/
def isBlank (text : String) : Bool := (trim text.toList).isEmpty

/-- `str::trim` of a string. -/
def trimmed (text : String) : String := String.ofList (trim text.toList)

def azureOpenAiAllowedSuffixes : List String :=
  [".openai.azure.com", ".services.ai.azure.com", ".cognitiveservices.azure.com"]

def azureFoundryAllowedSuffixes : List String := [".services.ai.azure.com"]

namespace AzureProvider

def endpointVar : AzureProvider → String
  | openAi => "AZURE_OPENAI_ENDPOINT"
  | foundry => "AZURE_FOUNDRY_ENDPOINT"

def allowedSuffixes : AzureProvider → List String
  | openAi => azureOpenAiAllowedSuffixes
  | foundry => azureFoundryAllowedSuffixes

end AzureProvider

structure AzureEndpoint where
  host : String
  accountName : String
  suffix : String
  deriving DecidableEq, Repr

/-- Whether a text is dots, dashes, ASCII letters and digits. -/
def isHostText (host : List Char) : Bool :=
  host.all fun c => c.isAlphanum || c == '.' || c == '-'

/-- Whether two dots follow each other. -/
def hasEmptyLabel : List Char → Bool
  | '.' :: '.' :: _ => true
  | _ :: rest => hasEmptyLabel rest
  | [] => false

def validateDnsHost (label host : String) : Except AnyError Unit :=
  let chars := host.toList
  let valid := !chars.isEmpty && chars.head? != some '.' && chars.getLast? != some '.' &&
    !hasEmptyLabel chars && isHostText chars
  if valid then .ok () else .error (.msg (label ++ " must be a DNS host (got '" ++ host ++ "')"))

def hostAllowedBySuffix (host suffix : String) : Bool :=
  decide (suffix.length < host.length) && suffix.toList.isSuffixOf host.toList

def parseAzureEndpoint (urls : Urls) (provider : AzureProvider) (endpoint : String) :
    Except AnyError AzureEndpoint := do
  let var := provider.endpointVar
  let allowed := provider.allowedSuffixes
  let url ← (urls.parse endpoint).mapError fun error =>
    (AnyError.msg error).context ("parse " ++ var ++ " " ++ urls.debug endpoint)
  ensure (url.scheme == "https") (AnyError.msg (var ++ " must use https"))
  ensure (url.username.isEmpty && url.password.isNone)
    (AnyError.msg (var ++ " must not contain userinfo"))
  let host ← required url.hostStr (AnyError.msg (var ++ " must include a DNS host"))
  let host := toAsciiLowercase host
  validateDnsHost (var ++ " host") host
  let suffix ← required (allowed.find? (hostAllowedBySuffix host))
    (AnyError.msg (var ++ " host '" ++ host ++ "' is not in the allowed suffix set: " ++
      ", ".intercalate (allowed.map fun suffix => String.ofList (suffix.toList.drop 1))))
  let accountName ← required (stripSuffixText suffix.toList host.toList)
    (AnyError.msg (var ++ " host must end with '" ++ suffix ++ "'"))
  ensure (!accountName.isEmpty && !accountName.contains '.')
    (AnyError.msg (var ++ " host '" ++ host ++ "' is not '<account>" ++ suffix ++
      "' — an Azure account has exactly one name under that zone"))
  return ⟨host, String.ofList accountName, suffix⟩

end GmMiner.Azure
