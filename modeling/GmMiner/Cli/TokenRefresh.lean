import GmMiner.Cli.Config
import GmMiner.Time

/-!
Keeping the access token fresh (`cli/src/commands/persist.rs`, `cli/src/auth.rs`).

The issuer answers each request of an attempt as it likes, and the clock is read
anew at every check, so it may also go back. `Chrono` stands for the date
library. The config file is the state that every persisted change goes through.
-/

namespace GmMiner.Cli

open GmMiner.Lib

/-! ### Tokens -/

/-- The date library, as far as it is used. -/
structure Chrono where
  /-- `DateTime::parse_from_rfc3339`, in UTC. -/
  parse : String → Option DateTime
  /-- `DateTime::to_rfc3339`. -/
  render : DateTime → String
  /-- A date so many seconds later. `none`: the library panics, for want of range. -/
  addSeconds : DateTime → Int → Option DateTime

def tokenExpiryMarginSecs : Int := 300

def nanosPerSec : Int := 1000000000

namespace TokenEntry

/-- `TokenEntry::is_expired_or_near`, asked at `now`. -/
def isExpiredOrNear (chrono : Chrono) (now : DateTime) (entry : TokenEntry) : Bool :=
  match entry.tokenExpiresAt with
  | none => false
  | some raw =>
      match chrono.parse raw with
      | none => true
      | some expiry => decide (expiry ≤ now + tokenExpiryMarginSecs * nanosPerSec)

/-- `TokenEntry::seconds_until_expiry_at`. -/
def secondsUntilExpiryAt (chrono : Chrono) (now : DateTime) (entry : TokenEntry) : Option Int := do
  let raw ← entry.tokenExpiresAt
  let expiry ← chrono.parse raw
  return max ((expiry - now).tdiv nanosPerSec) 0

end TokenEntry

structure TokenResponse where
  accessToken : String
  /-- A `u64`. -/
  expiresIn : Option Nat
  refreshToken : Option String
  deriving DecidableEq, Repr

namespace TokenResponse

/-- A `u64` cast to an `i64`. -/
def asI64 (value : Nat) : Int := (BitVec.ofNat 64 value).toInt

/-- `TokenResponse::to_entry`. `none`: the date library panics. -/
def toEntry (chrono : Chrono) (now : DateTime) (token : TokenResponse) : Option TokenEntry :=
  match token.expiresIn with
  | none => some ⟨some token.accessToken, none, token.refreshToken⟩
  | some secs => (chrono.addSeconds now (asI64 secs)).map fun expiry =>
      ⟨some token.accessToken, some (chrono.render expiry), token.refreshToken⟩

/-- `TokenResponse::to_entry_keeping`. -/
def toEntryKeeping (chrono : Chrono) (now : DateTime) (token : TokenResponse)
    (previousRefresh : Option String) : Option TokenEntry :=
  (token.toEntry chrono now).map fun entry =>
    if entry.refreshToken.isNone then { entry with refreshToken := previousRefresh } else entry

/-- The entry has the refresh token answered, or keeps the one before. -/
theorem toEntryKeeping_refreshToken {chrono : Chrono} {now : DateTime} {token : TokenResponse}
    {previous : Option String} {entry : TokenEntry}
    (made : token.toEntryKeeping chrono now previous = some entry) :
    entry.refreshToken = token.refreshToken.or previous := by
  obtain ⟨plain, ofToken, rfl⟩ := Option.map_eq_some_iff.mp made
  have same : plain.refreshToken = token.refreshToken := by
    unfold toEntry at ofToken
    split at ofToken
    · cases ofToken
      rfl
    · obtain ⟨expiry, -, rfl⟩ := Option.map_eq_some_iff.mp ofToken
      rfl
  rw [← same]
  cases held : plain.refreshToken with
  | none => rfl
  | some refresh => exact held

end TokenResponse

/-! ### The issuer -/

inductive RefreshOutcome
  | refreshed (token : TokenResponse)
  | rejected
  deriving DecidableEq, Repr

/-- `AuthConfig`, what the registry says of the issuer. -/
structure AuthConfig where
  deviceCodeUrl : String
  tokenUrl : String
  clientId : String
  scopes : List String
  deriving DecidableEq, Repr

/-- What the registry and the issuer answer in each attempt. -/
structure Issuer where
  getAuthConfig : Nat → String → Except Error AuthConfig
  refreshToken : Nat → AuthConfig → String → Except Error RefreshOutcome
  deviceLogin : Nat → AuthConfig → Except Error TokenResponse

/-- `obtain_fresh_token`: the token, and whether a refresh grant gave it. -/
def obtainFreshToken (issuer : Issuer) (attempt : Nat) (cfg : Config) :
    Except Error (TokenResponse × Bool) := do
  let apiUrl := cfg.apiUrl
  let authCfg ← context (issuer.getAuthConfig attempt apiUrl)
    ("fetch auth config from " ++ apiUrl ++ "/auth/config")
  match cfg.activeTokens.bind TokenEntry.refreshToken with
  | none => return (← issuer.deviceLogin attempt authCfg, false)
  | some refresh =>
      match ← issuer.refreshToken attempt authCfg refresh with
      | .refreshed token => return (token, true)
      | .rejected => return (← issuer.deviceLogin attempt authCfg, false)

/-! ### Persisting -/

/-- `persist_active_tokens`, on what is stored. -/
def persistActiveTokens (disk : Config) (network : String) (tokens : TokenEntry) : Config :=
  (disk.modifyEntry network fun entry => { entry with tokens := some tokens }).stored

/-- `persist_rotated_refresh_token`. -/
def persistRotatedRefreshToken (disk : Config) (network rotated : String) : Config :=
  (disk.modifyEntry network fun entry =>
    { entry with tokens := some { entry.tokens.getD {} with refreshToken := some rotated } }).stored

/-- `persist_refreshed_tokens`. -/
def persistRefreshedTokens (disk : Config) (network : String) (entry : TokenEntry)
    (overrideActive followsStoredRefresh : Bool) : Config :=
  if overrideActive then
    if followsStoredRefresh then
      match entry.refreshToken with
      | none => disk
      | some rotated => persistRotatedRefreshToken disk network rotated
    else disk
  else persistActiveTokens disk network entry

/-! ### The loop -/

/-- The clock's readings in one attempt. -/
structure Readings where
  check : DateTime
  issue : DateTime
  recheck : DateTime
  remaining : DateTime
  deriving DecidableEq, Repr

/-- What the loop runs against. -/
structure RefreshEnv where
  chrono : Chrono
  issuer : Issuer
  clock : Nat → Readings

/-- A token the issuer gave, and whether for a refresh grant. -/
structure Acquisition where
  attempt : Nat
  token : TokenResponse
  fromRefreshGrant : Bool
  deriving DecidableEq, Repr

/-- The loop's variables, the stored config, and what happened so far. -/
structure RefreshState where
  cfg : Config
  followsStoredRefresh : Bool
  disk : Config
  /-- How often a token was asked for. -/
  acquisitions : Nat
  /-- The tokens given, in order. -/
  acquired : List Acquisition
  /-- The seconds of each wait. -/
  waits : List Int
  /-- The reading of the last expiry check. -/
  checkedAt : DateTime

inductive EnsureOutcome
  | ok (cfg : Config)
  | err (error : Error)
  | panicked

def maxAttempts : Nat := 2

/-- Whether the active token is expired or near. -/
def needsRefresh (env : RefreshEnv) (now : DateTime) (cfg : Config) : Bool :=
  cfg.activeTokens.any fun entry => entry.isExpiredOrNear env.chrono now

/-- The seconds to wait for the token to pass its boundary. -/
def waitSecs (env : RefreshEnv) (now : DateTime) (cfg : Config) : Int :=
  let remaining := (cfg.activeTokens.bind fun entry =>
    entry.secondsUntilExpiryAt env.chrono now).getD 0
  min (max remaining 0) tokenExpiryMarginSecs + 5

/-- The second half of an attempt: the token at hand is checked and waited for. -/
def settleAttempt (env : RefreshEnv) (attempt : Nat) (state : RefreshState) :
    RefreshState × Option EnsureOutcome :=
  let readings := env.clock attempt
  let state := { state with checkedAt := readings.recheck }
  if needsRefresh env readings.recheck state.cfg then
    if attempt + 1 < maxAttempts then
      ({ state with
          waits := state.waits ++ [waitSecs env readings.remaining state.cfg] }, none)
    else
      (state, some (.err ["access token still expires within 300s after waiting and refreshing " ++
        "again — check the issuer's token lifetime/subnet tempo and the local clock; retry once " ++
        "the issuer can provide a longer-lived token"]))
  else (state, some (.ok state.cfg))

/-- A token obtained: entered in the config and persisted. -/
def enterToken (env : RefreshEnv) (attempt : Nat) (state : RefreshState) (token : TokenResponse)
    (fromRefreshGrant : Bool) : Option RefreshState := do
  let previousRefresh := state.cfg.activeTokens.bind TokenEntry.refreshToken
  let entry ← token.toEntryKeeping env.chrono (env.clock attempt).issue previousRefresh
  let network := state.cfg.activeNetworkName
  let overrideActive := state.cfg.apiUrlOverride.isSome
  let followsStoredRefresh := state.followsStoredRefresh && fromRefreshGrant
  return { state with
    cfg := state.cfg.modifyActiveEntry fun held => { held with tokens := some entry }
    followsStoredRefresh
    disk := persistRefreshedTokens state.disk network entry overrideActive followsStoredRefresh }

/-- One turn of the loop of `ensure_fresh_token_with`. No outcome: the loop goes on. -/
def refreshAttempt (env : RefreshEnv) (attempt : Nat) (state : RefreshState) :
    RefreshState × Option EnsureOutcome :=
  let readings := env.clock attempt
  let state := { state with checkedAt := readings.check }
  if needsRefresh env readings.check state.cfg then
    let state := { state with acquisitions := state.acquisitions + 1 }
    match obtainFreshToken env.issuer attempt state.cfg with
    | .error error => (state, some (.err error))
    | .ok (token, fromRefreshGrant) =>
        let state := { state with acquired := state.acquired ++ [⟨attempt, token, fromRefreshGrant⟩] }
        match enterToken env attempt state token fromRefreshGrant with
        | none => (state, some .panicked)
        | some state => settleAttempt env attempt state
  else (state, some (.ok state.cfg))

/-- The loop over the attempts left: every state at the end of a turn, and the outcome. -/
def refreshLoop (env : RefreshEnv) : List Nat → RefreshState → List RefreshState × EnsureOutcome
  | [], state => ([], .ok state.cfg)
  | attempt :: rest, state =>
      match refreshAttempt env attempt state with
      | (state, some outcome) => ([state], outcome)
      | (state, none) =>
          let (states, outcome) := refreshLoop env rest state
          (state :: states, outcome)

/-- `ensure_fresh_token_with`, run from a loaded config and what is stored. -/
def ensureFreshTokenWith (env : RefreshEnv) (cfg disk : Config) :
    List RefreshState × EnsureOutcome :=
  refreshLoop env (List.range maxAttempts) ⟨cfg, true, disk, 0, [], [], 0⟩

end GmMiner.Cli
