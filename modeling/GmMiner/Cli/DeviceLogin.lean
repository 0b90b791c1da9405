import GmMiner.Cli.CloudPolicy
import GmMiner.Cli.TokenRefresh
import GmMiner.Json.Value
import GmMiner.Lib.Decimal

/-!
The polls of the device login, and the expiry a token is stored with (`cli/src/auth.rs`).

The token endpoint answers each poll as it likes. A sleep lasts at least as long as asked, a request
takes some time, and a poll is sent at the clock's reading that was held against the deadline.

Adding to an `Instant`, to a `Duration` or to a date panics where the sum is out of range. The
issuer chooses the seconds that are added, so it chooses whether a login panics.
-/

namespace GmMiner

/-- The seconds of an instant are an `i64`: a sum from here on panics. -/
def Instant.limit : Instant := Duration.fromSecs (2 ^ 63)

/-- The seconds of a duration are a `u64`: a sum from here on panics. -/
def Duration.limit : Duration := fromSecs (2 ^ 64)

end GmMiner

namespace GmMiner.Cli

open GmMiner.Lib Decimal

/-! ### The endpoint's answers -/

/-- A `reqwest::Error`, with what it is asked. -/
structure SendError where
  error : Error
  isBuilder : Bool
  isConnect : Bool
  isTimeout : Bool
  isRequest : Bool
  deriving DecidableEq, Repr

/-- `is_transient`. -/
def SendError.isTransient (err : SendError) : Bool :=
  !err.isBuilder && (err.isConnect || err.isTimeout || err.isRequest)

/-- A response of the token endpoint, with what its body is read as. -/
structure TokenAnswer where
  status : Status
  /-- The value of `Retry-After`. -/
  retryAfter : Option Bytes
  token : Except Error TokenResponse
  json : Except Error Json.Value

def tooManyRequests : Nat := 429

/-- The error code of an OAuth error body. -/
def TokenAnswer.errorCode (answer : TokenAnswer) : String :=
  ((answer.json.toOption.getD .null).textOf "error").getD ""

def defaultInterval : Nat := 5

def maxRetryAfter : Duration := Duration.fromSecs 30

/-- `HeaderValue::to_str`. -/
def headerText (value : Bytes) : Option (List Char) :=
  if value.all fun byte => (32 ≤ byte.toNat && byte.toNat < 127) || byte == 9 then
    some (value.map fun byte => Char.ofNat byte.toNat)
  else none

/-- The delay of a `Retry-After`, in seconds. -/
def delaySecs (header : Option Bytes) : Option Nat :=
  (header.bind headerText).bind fun text => parseUnsigned 64 (trim text)

def retryAfter (header : Option Bytes) : Duration :=
  min (Duration.fromSecs ((delaySecs header).getD defaultInterval)) maxRetryAfter

/-! ### The loop -/

/-- What `poll_for_token` is called with, the times apart. -/
structure DeviceGrant where
  tokenUrl : String
  clientId : String
  deviceCode : String
  deriving DecidableEq, Repr

/-- The form a poll sends. -/
def DeviceGrant.form (grant : DeviceGrant) : List (String × String) :=
  [("client_id", grant.clientId), ("device_code", grant.deviceCode),
    ("grant_type", "urn:ietf:params:oauth:grant-type:device_code")]

inductive PollOutcome
  | ok (token : TokenResponse)
  | err (error : Error)
  | panicked

/-- What an answer leads to. -/
inductive AfterPoll
  | again (interval : Duration)
  | done (outcome : PollOutcome)

def PollOutcome.ofResult : Except Error TokenResponse → PollOutcome
  | .ok token => .ok token
  | .error error => .err error

/-- The loop's body, from the answer on. -/
def DeviceGrant.afterAnswer (grant : DeviceGrant) (interval : Duration) :
    Except SendError TokenAnswer → AfterPoll
  | .error err =>
      if err.isTransient then .again interval
      else .done (.err (("POST " ++ grant.tokenUrl) :: err.error))
  | .ok answer =>
      if answer.status.isSuccess then
        .done (.ofResult (context answer.token "parse token response"))
      else if answer.status.code = tooManyRequests then
        .again (max interval (retryAfter answer.retryAfter))
      else
        let error := answer.errorCode
        if error = "authorization_pending" then .again interval
        else if error = "slow_down" then
          let slower := interval + Duration.fromSecs 5
          if Duration.limit ≤ slower then .done .panicked else .again slower
        else if error = "expired_token" then
          .done (.err ["login timed out — please try again"])
        else if error = "access_denied" then .done (.err ["login was denied"])
        else .done (.err ["token endpoint error: " ++ error ++ " (" ++ answer.status.text ++ ")"])

/-- What one turn of the loop meets. -/
structure PollTurn where
  /-- How much later than asked the sleep ends. -/
  late : Duration
  client : Except Error Unit
  answer : Except SendError TokenAnswer
  /-- How long the request takes. -/
  took : Duration
  took_ : 0 < took

/-- A request that was sent, the sleep before it, and the answer. -/
structure Poll where
  interval : Duration
  sentAt : Instant
  url : String
  form : List (String × String)
  answer : Except SendError TokenAnswer

/-- The requests so far. No outcome: the loop goes on. -/
structure PollRun where
  polls : List Poll
  outcome : Option PollOutcome

def PollRun.prepend (poll : Poll) (run : PollRun) : PollRun := ⟨poll :: run.polls, run.outcome⟩

def DeviceGrant.pollLoop (grant : DeviceGrant) (deadline : Instant) :
    List PollTurn → Duration → Instant → PollRun
  | [], _, _ => ⟨[], none⟩
  | turn :: rest, interval, now =>
      let woken := now + interval + turn.late
      if deadline ≤ woken then ⟨[], some (.err ["login timed out — please try again"])⟩
      else
        match turn.client with
        | .error error => ⟨[], some (.err error)⟩
        | .ok _ =>
            let poll : Poll := ⟨interval, woken, grant.tokenUrl, grant.form, turn.answer⟩
            match grant.afterAnswer interval turn.answer with
            | .done outcome => ⟨[poll], some outcome⟩
            | .again interval =>
                (pollLoop grant deadline rest interval (woken + turn.took)).prepend poll

/-- `poll_for_token`, called at `start`, over the turns the loop can take. -/
def DeviceGrant.pollForToken (grant : DeviceGrant) (start : Instant)
    (initialInterval expiresIn : Nat) (turns : List PollTurn) : PollRun :=
  let deadline := start + Duration.fromSecs expiresIn
  if Instant.limit ≤ deadline then ⟨[], some .panicked⟩
  else grant.pollLoop deadline turns (Duration.fromSecs initialInterval) start

/-! ### What an answer says -/

/-- The issuer asks for fewer polls. -/
def SlowedDown (answer : Except SendError TokenAnswer) : Prop :=
  ∃ response, answer = .ok response ∧ response.status.isSuccess = false ∧
    response.status.code ≠ tooManyRequests ∧ response.errorCode = "slow_down"

/-- A 429, with its `Retry-After`. -/
def RateLimited (answer : Except SendError TokenAnswer) (header : Option Bytes) : Prop :=
  ∃ response, answer = .ok response ∧ response.status.code = tooManyRequests ∧
    response.retryAfter = header

/-- A success, with the token in it. -/
def Granted (answer : Except SendError TokenAnswer) (token : TokenResponse) : Prop :=
  ∃ response, answer = .ok response ∧ response.status.isSuccess = true ∧ response.token = .ok token

/-- How the sleep before one poll and that before the next one are related. -/
structure Spaced (answer : Except SendError TokenAnswer) (interval next : Duration) : Prop where
  notShorter : interval ≤ next
  slowedDown : SlowedDown answer → next = interval + Duration.fromSecs 5
  rateLimited : ∀ header, RateLimited answer header → ∀ secs, delaySecs header = some secs →
    Duration.fromSecs (min secs 30) ≤ next

/-- What an answer may lead to. -/
inductive Rightly (answer : Except SendError TokenAnswer) (interval : Duration) : AfterPoll → Prop
  | again {next : Duration} (spaced : Spaced answer interval next) :
      Rightly answer interval (.again next)
  | ok {token : TokenResponse} (granted : Granted answer token) :
      Rightly answer interval (.done (.ok token))
  | err (error : Error) : Rightly answer interval (.done (.err error))
  | panicked (large : Duration.limit ≤ interval + Duration.fromSecs 5) :
      Rightly answer interval (.done .panicked)

theorem spaced_of_failed (err : SendError) (interval : Duration) :
    Spaced (.error err) interval interval :=
  ⟨le_rfl, by rintro ⟨_, ⟨⟩, -⟩, by rintro _ ⟨_, ⟨⟩, -⟩⟩

/-- A rate limit makes the interval at least what it asks. -/
theorem spaced_of_rateLimited {response : TokenAnswer}
    (limited : response.status.code = tooManyRequests) (interval : Duration) :
    Spaced (.ok response) interval (max interval (retryAfter response.retryAfter)) := by
  refine ⟨le_max_left _ _, ?_, ?_⟩
  · rintro ⟨_, ⟨⟩, -, other, -⟩
    exact absurd limited other
  · rintro header ⟨_, ⟨⟩, -, rfl⟩ secs delay
    have asked : Duration.fromSecs (min secs 30) ≤ retryAfter response.retryAfter := by
      rw [retryAfter, delay, Option.getD_some, maxRetryAfter]
      exact le_min (Duration.fromSecs_mono (min_le_left _ _))
        (Duration.fromSecs_mono (min_le_right _ _))
    exact asked.trans (le_max_right _ _)

/-- An OAuth error changes the interval only if it asks for fewer polls. -/
theorem spaced_of_error {response : TokenAnswer} {interval next : Duration}
    (other : response.status.code ≠ tooManyRequests)
    (grown : next = if response.errorCode = "slow_down" then interval + Duration.fromSecs 5
      else interval) : Spaced (.ok response) interval next := by
  refine ⟨?_, ?_, ?_⟩
  · rw [grown]
    split
    · exact Nat.le_add_right _ _
    · exact le_rfl
  · rintro ⟨_, ⟨⟩, -, -, slower⟩
    rw [grown, if_pos slower]
  · rintro header ⟨_, ⟨⟩, limited, -⟩
    exact absurd limited other

namespace DeviceGrant

variable {grant : DeviceGrant} {interval : Duration} {answer : Except SendError TokenAnswer}

/-- An answer goes on or ends the login as the grant says. -/
theorem afterAnswer_spec : Rightly answer interval (grant.afterAnswer interval answer) := by
  cases answer with
  | error err =>
      simp only [afterAnswer]
      split
      · exact .again (spaced_of_failed err interval)
      · exact .err _
  | ok response =>
      simp only [afterAnswer]
      split
      · rename_i succeeded
        cases read : response.token with
        | ok token => exact .ok ⟨response, rfl, succeeded, read⟩
        | error error => exact .err _
      · split
        · rename_i limited
          exact .again (spaced_of_rateLimited limited interval)
        · rename_i other
          split
          · rename_i pending
            exact .again (spaced_of_error other (by rw [pending, if_neg (by decide)]))
          · split
            · rename_i slower
              split
              · rename_i large
                exact .panicked large
              · exact .again (spaced_of_error other (by rw [if_pos slower]))
            · split
              · exact .err _
              · split
                · exact .err _
                · exact .err _

end DeviceGrant

/-! ### The whole run -/

/-- One poll and the next. -/
structure Follows (poll next : Poll) : Prop where
  spaced : Spaced poll.answer poll.interval next.interval
  apart : poll.sentAt + next.interval < next.sentAt

namespace PollRun

/-- What the polls are to be like, up to a deadline. -/
structure Right (deadline : Instant) (run : PollRun) : Prop where
  noPanic : ∀ outcome, run.outcome = some outcome → outcome ≠ .panicked
  spacing : run.polls.IsChain Follows
  inTime : ∀ poll ∈ run.polls, poll.sentAt < deadline
  granted : ∀ token, run.outcome = some (.ok token) →
    ∃ poll, run.polls.getLast? = some poll ∧ Granted poll.answer token

variable {run : PollRun} {deadline : Instant} {poll : Poll}

/-- A run that sent nothing is right if it failed. -/
theorem Right.unsent {outcome : Option PollOutcome}
    (failed : ∀ found, outcome = some found → ∃ error, found = .err error) :
    Right deadline ⟨[], outcome⟩ where
  noPanic found held := by
    obtain ⟨error, rfl⟩ := failed found held
    nofun
  spacing := .nil
  inTime := by simp
  granted token held := by
    obtain ⟨error, ⟨⟩⟩ := failed _ held

/-- One more poll before a right run, in time and spaced. -/
theorem Right.prepend (right : run.Right deadline) (inTime : poll.sentAt < deadline)
    (first : ∀ next ∈ run.polls.head?, Follows poll next) : (run.prepend poll).Right deadline where
  noPanic := right.noPanic
  spacing := right.spacing.cons first
  inTime := List.forall_mem_cons.mpr ⟨inTime, right.inTime⟩
  granted token held := by
    obtain ⟨last, isLast, granted⟩ := right.granted token held
    refine ⟨last, ?_, granted⟩
    simp [PollRun.prepend, List.getLast?_cons, isLast]

end PollRun

/-- A turn takes some of the time that is left. -/
theorem turns_left {deadline now interval late took rest : Nat}
    (early : now + interval + late < deadline) (took_ : 0 < took)
    (enough : deadline - now < rest + 1) :
    deadline - (now + interval + late + took) < rest := by
  omega

theorem sent_apart {woken took interval sent : Nat} (took_ : 0 < took)
    (slept : woken + took + interval ≤ sent) : woken + interval < sent := by
  omega

namespace DeviceGrant

variable {grant : DeviceGrant} {deadline : Instant}

/-- A sum that is before the deadline leaves room for five seconds in a `Duration`. -/
theorem room_for_slowdown {interval now late : Nat}
    (representable : deadline < Instant.limit)
    (early : now + interval + late < deadline) :
    interval + Duration.fromSecs 5 < Duration.limit := by
  have inside : interval < Instant.limit :=
    calc interval ≤ now + interval + late := by omega
      _ < deadline := early
      _ < Instant.limit := representable
  unfold Instant.limit Duration.fromSecs at inside
  unfold Duration.limit Duration.fromSecs
  omega

/-- The loop polls as the grant says, whatever the tape. -/
theorem pollLoop_right (representable : deadline < Instant.limit)
    (turns : List PollTurn) (interval : Duration) (now : Instant) :
    (grant.pollLoop deadline turns interval now).Right deadline ∧
      ∀ poll ∈ (grant.pollLoop deadline turns interval now).polls.head?,
        poll.interval = interval ∧ now + interval ≤ poll.sentAt := by
  induction turns generalizing interval now with
  | nil => exact ⟨.unsent nofun, nofun⟩
  | cons turn rest ih =>
      simp only [pollLoop]
      split
      · exact ⟨.unsent fun _ held => ⟨_, (Option.some.inj held).symm⟩, nofun⟩
      · rename_i early
        have inTime : now + interval + turn.late < deadline := Nat.lt_of_not_le early
        cases turn.client with
        | error error => exact ⟨.unsent fun _ held => ⟨_, (Option.some.inj held).symm⟩, nofun⟩
        | ok _ =>
            have spec : Rightly turn.answer interval (grant.afterAnswer interval turn.answer) :=
              afterAnswer_spec
            cases after : grant.afterAnswer interval turn.answer with
            | done outcome =>
                rw [after] at spec
                refine ⟨⟨?_, .singleton _, by simpa using inTime, ?_⟩, ?_⟩
                · rintro found held rfl
                  cases held
                  cases spec with
                  -- A poll before the deadline leaves room for the slowdown, so the addition
                  -- cannot overflow.
                  | panicked large =>
                      exact Nat.not_lt.mpr large (room_for_slowdown representable inTime)
                · intro token held
                  cases held
                  cases spec with
                  | ok granted => exact ⟨_, rfl, granted⟩
                · intro poll mem
                  cases mem
                  exact ⟨rfl, Nat.le_add_right _ _⟩
            | again next =>
                rw [after] at spec
                obtain ⟨right, first⟩ := ih next (now + interval + turn.late + turn.took)
                refine ⟨right.prepend inTime fun poll mem => ⟨?_, ?_⟩, ?_⟩
                · rw [(first poll mem).1]
                  cases spec with
                  | again spaced => exact spaced
                · rw [(first poll mem).1]
                  exact sent_apart turn.took_ (first poll mem).2
                · intro poll mem
                  cases mem
                  exact ⟨rfl, Nat.le_add_right _ _⟩

/-- The loop ends on any tape long enough. -/
theorem pollLoop_ends (turns : List PollTurn) (interval : Duration) (now : Instant)
    (enough : deadline - now < turns.length) :
    (grant.pollLoop deadline turns interval now).outcome.isSome = true := by
  induction turns generalizing interval now with
  | nil => cases enough
  | cons turn rest ih =>
      simp only [pollLoop]
      split
      · rfl
      · rename_i early
        cases turn.client with
        | error error => rfl
        | ok _ =>
            dsimp only
            cases grant.afterAnswer interval turn.answer with
            | done outcome => rfl
            | again next =>
                exact ih next _ (turns_left (Nat.lt_of_not_le early) turn.took_ enough)

end DeviceGrant

/-! ### The expiry that is stored -/

/-- `DateTime::<Utc>::MIN_UTC` and `MAX_UTC`. -/
def minDate : Int := -8334601228800 * nanosPerSec

def maxDate : Int := 8210266876800 * nanosPerSec - 1

/-- What the date library documents: the dates and spans it holds, and that it renders dates
apart. -/
structure Chrono.Documented (chrono : Chrono) : Prop where
  adds : ∀ now secs, chrono.addSeconds now secs =
    if |secs| ≤ (2 ^ 63 - 1) / 1000 ∧ minDate ≤ now + secs * nanosPerSec ∧
      now + secs * nanosPerSec ≤ maxDate then some (now + secs * nanosPerSec) else none
  renders : ∀ date other, minDate ≤ date → date ≤ maxDate → minDate ≤ other → other ≤ maxDate →
    chrono.render date = chrono.render other → date = other

/-- A token's entry is made, and its expiry is not before the token was received. -/
def ExpiryRight (chrono : Chrono) (now : DateTime) (token : TokenResponse) : Prop :=
  ∃ entry, token.toEntry chrono now = some entry ∧
    entry.tokenExpiresAt.isSome = token.expiresIn.isSome ∧
      ∀ text, entry.tokenExpiresAt = some text →
        ∃ expiry, now ≤ expiry ∧ expiry ≤ maxDate ∧ text = chrono.render expiry

theorem asI64_eq {secs : Nat} (u64 : secs < 2 ^ 64) :
    TokenResponse.asI64 secs = if secs < 2 ^ 63 then (secs : Int) else secs - 2 ^ 64 := by
  unfold TokenResponse.asI64
  rw [BitVec.toInt_eq_toNat_cond, BitVec.toNat_ofNat, Nat.mod_eq_of_lt u64]
  split <;> split <;> omega

section Dates

variable {now secs : Int}

theorem nonneg_of_not_before (notBefore : now ≤ now + secs * nanosPerSec) : 0 ≤ secs := by
  unfold nanosPerSec at notBefore
  omega

theorem not_before_of_nonneg (nonneg : 0 ≤ secs) : now ≤ now + secs * nanosPerSec := by
  unfold nanosPerSec
  omega

/-- The dates reach less far than the spans. -/
theorem span_of_inRange (representable : minDate ≤ now)
    (inRange : now + secs * nanosPerSec ≤ maxDate) : secs ≤ (2 ^ 63 - 1) / 1000 := by
  unfold minDate nanosPerSec at representable
  unfold maxDate nanosPerSec at inRange
  omega

end Dates

theorem asI64_of_nonneg {secs : Nat} (u64 : secs < 2 ^ 64)
    (nonneg : 0 ≤ TokenResponse.asI64 secs) : TokenResponse.asI64 secs = secs := by
  rw [asI64_eq u64] at nonneg ⊢
  split at nonneg
  · rename_i small
    exact if_pos small
  · omega

/-- The expiry is right exactly if the seconds fit the signed range and the
calendar. -/
theorem expiryRight_iff {chrono : Chrono} (documented : chrono.Documented) {now : DateTime}
    (representable : minDate ≤ now) {token : TokenResponse}
    (u64 : ∀ secs, token.expiresIn = some secs → secs < 2 ^ 64) :
    ExpiryRight chrono now token ↔
      ∀ secs : Nat, token.expiresIn = some secs → now + secs * nanosPerSec ≤ maxDate := by
  unfold ExpiryRight TokenResponse.toEntry
  cases given : token.expiresIn with
  | none => simp
  | some secs =>
      have fits := u64 secs given
      simp only [Option.isSome_some, Option.some.injEq, forall_eq']
      constructor
      · rintro ⟨entry, made, -, after⟩
        obtain ⟨expiry, added, rfl⟩ := Option.map_eq_some_iff.mp made
        rw [documented.adds] at added
        split at added
        · rename_i inRange
          cases added
          obtain ⟨date, notBefore, held, same⟩ := after _ rfl
          have here := documented.renders _ _ inRange.2.1 inRange.2.2
            (representable.trans notBefore) held same
          have nonneg := nonneg_of_not_before (here ▸ notBefore)
          rw [← asI64_of_nonneg fits nonneg]
          exact inRange.2.2
        · cases added
      · intro inRange
        have span := span_of_inRange representable inRange
        have same : TokenResponse.asI64 secs = secs := by
          rw [asI64_eq fits, if_pos (by omega)]
        have later : now ≤ now + (secs : Int) * nanosPerSec :=
          not_before_of_nonneg (Int.natCast_nonneg secs)
        have added : chrono.addSeconds now (TokenResponse.asI64 secs) =
            some (now + (secs : Int) * nanosPerSec) := by
          rw [documented.adds, same, abs_of_nonneg (Int.natCast_nonneg secs),
            if_pos ⟨span, representable.trans later, inRange⟩]
        refine ⟨_, by rw [added]; rfl, rfl, ?_⟩
        rintro text ⟨⟩
        exact ⟨_, later, inRange, rfl⟩

/-! ### The whole login -/

/-- What is asked of the polls of a login and of the entry its token is stored as. -/
structure LoginRight (start : Instant) (expiresIn : Nat) (turns : List PollTurn) (run : PollRun)
    (chrono : Chrono) (now : DateTime) (token : TokenResponse) : Prop where
  polls : run.Right (start + Duration.fromSecs expiresIn)
  ends : Duration.fromSecs expiresIn < turns.length → run.outcome.isSome = true
  stored : ExpiryRight chrono now token

/-- A login is right exactly if the clock reaches its deadline and the dates reach its expiry. -/
theorem loginRight_iff {chrono : Chrono} (documented : chrono.Documented) {now : DateTime}
    (representable : minDate ≤ now) (token : TokenResponse)
    (u64 : ∀ secs, token.expiresIn = some secs → secs < 2 ^ 64) (grant : DeviceGrant)
    (start : Instant) (initialInterval expiresIn : Nat) (turns : List PollTurn) :
    LoginRight start expiresIn turns
        (grant.pollForToken start initialInterval expiresIn turns) chrono now token ↔
      start + Duration.fromSecs expiresIn < Instant.limit ∧
        ∀ secs : Nat, token.expiresIn = some secs → now + secs * nanosPerSec ≤ maxDate := by
  have stored := expiryRight_iff documented representable u64
  simp only [DeviceGrant.pollForToken]
  split
  · rename_i late
    have panics : ¬ PollRun.Right (start + Duration.fromSecs expiresIn) ⟨[], some .panicked⟩ :=
      fun right => right.noPanic _ rfl rfl
    exact iff_of_false (fun right => panics right.polls) fun both => Nat.not_lt.mpr late both.1
  · rename_i early
    have inTime := Nat.lt_of_not_le early
    constructor
    · exact fun right => ⟨inTime, stored.mp right.stored⟩
    · rintro ⟨-, inRange⟩
      refine ⟨(grant.pollLoop_right inTime turns _ start).1, fun enough => ?_, stored.mpr inRange⟩
      apply grant.pollLoop_ends turns
      rwa [Nat.add_sub_cancel_left]

/-! ### A lifetime that is too long -/

/-- A date by its nanoseconds. -/
def signedText (date : Int) : List Char :=
  (if date < 0 then '-' else '+') :: Nat.toDigits 10 date.natAbs

/-- Two years written alike are the same. -/
theorem signedText_injective {date other : Int} (same : signedText date = signedText other) :
    date = other := by
  unfold signedText at same
  obtain ⟨signs, digits⟩ := List.cons.inj same
  have numbers := toDigits_injective digits
  split at signs
  · split at signs
    · omega
    · exact absurd signs (by decide)
  · split at signs
    · exact absurd signs (by decide)
    · omega

theorem signedText_ne (date : Int) (rest : List Char) : '1' :: rest ≠ signedText date := by
  intro same
  have signs := (List.cons.inj same).1
  split at signs
  · exact absurd signs (by decide)
  · exact absurd signs (by decide)

/-- The dates around the epoch that the logins below meet, and other dates apart from them. -/
def epochText (date : Int) : List Char :=
  if date = 3600 * nanosPerSec then "1970-01-01T01:00:00+00:00".toList
  else if date = -1 * nanosPerSec then "1969-12-31T23:59:59+00:00".toList
  else signedText date

/-- Two instants written alike are the same. -/
theorem epochText_injective {date other : Int} (same : epochText date = epochText other) :
    date = other := by
  unfold epochText at same
  split at same
  · rename_i first
    split at same
    · rename_i second
      rw [first, second]
    · split at same
      · exact absurd same (by decide)
      · exact absurd same (signedText_ne _ _)
  · split at same
    · rename_i first
      split at same
      · exact absurd same (by decide)
      · split at same
        · rename_i second
          rw [first, second]
        · exact absurd same (signedText_ne _ _)
    · split at same
      · exact absurd same.symm (signedText_ne _ _)
      · split at same
        · exact absurd same.symm (signedText_ne _ _)
        · exact signedText_injective same

def loginChrono : Chrono where
  parse _ := none
  render date := String.ofList (epochText date)
  addSeconds now secs :=
    if |secs| ≤ (2 ^ 63 - 1) / 1000 ∧ minDate ≤ now + secs * nanosPerSec ∧
      now + secs * nanosPerSec ≤ maxDate then some (now + secs * nanosPerSec) else none

theorem loginChrono_documented : loginChrono.Documented where
  adds _ _ := rfl
  renders _ _ _ _ _ _ same := epochText_injective (String.ofList_injective same)

def loginGrant : DeviceGrant := ⟨"https://auth/token", "cli", "device"⟩

def oneHour : TokenResponse := ⟨"access", some 3600, none⟩

/-- An OAuth error. -/
def oauthError (code : String) : TokenAnswer :=
  ⟨⟨400, "400 Bad Request"⟩, none, .error ["missing field access_token"],
    .ok (.object [("error", .string code)])⟩

/-- A turn that is over in a second. -/
def turnOf (answer : TokenAnswer) : PollTurn :=
  ⟨0, .ok ⟨⟩, .ok answer, Duration.fromSecs 1, Nat.succ_pos _⟩

/-- A login that is pending, is slowed down, is limited and then succeeds. -/
def patientTape : List PollTurn :=
  [turnOf (oauthError "authorization_pending"), turnOf (oauthError "slow_down"),
    turnOf ⟨⟨429, "429 Too Many Requests"⟩, some (asBytes " 20 "), .error [], .error []⟩,
    turnOf ⟨⟨200, "200 OK"⟩, none, .ok oneHour, .ok .null⟩]

theorem loginRight_iff_oneHour :
    (loginGrant.pollForToken 0 5 900 patientTape).outcome = some (.ok oneHour) ∧
      (loginGrant.pollForToken 0 5 900 patientTape).polls.map Poll.interval =
        [5, 5, 10, 20].map Duration.fromSecs ∧
      (LoginRight 0 900 patientTape (loginGrant.pollForToken 0 5 900 patientTape) loginChrono 0
          oneHour ↔
        (0 : Instant) + Duration.fromSecs 900 < Instant.limit ∧
          ∀ secs : Nat, oneHour.expiresIn = some secs →
            (0 : DateTime) + secs * nanosPerSec ≤ maxDate) :=
  ⟨rfl, by decide,
    loginRight_iff loginChrono_documented (by decide) oneHour (by decide) loginGrant 0 5 900
      patientTape⟩

def mostSecs : Nat := 2 ^ 64 - 1

def longest : TokenResponse := ⟨"access", some mostSecs, none⟩

/-- The longest lifetimes an answer can name: the poll panics, and the token is stored as expired a
second ago. -/
theorem longest_wrong :
    (loginGrant.pollForToken 0 5 mostSecs []).outcome = some .panicked ∧
      (longest.toEntry loginChrono 0).bind TokenEntry.tokenExpiresAt =
        some "1969-12-31T23:59:59+00:00" ∧
          ¬ LoginRight 0 mostSecs [] (loginGrant.pollForToken 0 5 mostSecs []) loginChrono 0
            longest := by
  have panics : (loginGrant.pollForToken 0 5 mostSecs []).outcome = some .panicked := rfl
  refine ⟨panics, by decide, fun right => ?_⟩
  exact right.polls.noPanic _ panics rfl

end GmMiner.Cli
