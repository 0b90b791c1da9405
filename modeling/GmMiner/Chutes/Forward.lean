import GmMiner.Chutes.NonceReuse
import GmMiner.Chutes.Prepare

/-!
One chat request on its way to an instance (`try_forward` of
`attestd/src/chutes_verify/forward.rs`).

The request runs beside every other one: whatever it does not do itself is an event of the
admission cache. While it holds the lock of its scope, only a renewal's evidence call can happen to
that cell. Which tickets it is given, how long an invocation takes and what an instance answers is
up to the schedule. `trace` keeps what the request sent to Chutes and what invocations were answered;
`given` keeps its tickets.

`encryptRequest` is the encryption of a payload to an instance key under fresh randomness.
-/

namespace GmMiner.Chutes

open GmMiner.Lib GmMiner.Json

/-- `MAX_INVOKE_INSTANCES`. -/
def maxInvokeInstances : Nat := 3

structure EncryptedRequest where
  blob : Bytes
  responseKey : Bytes

abbrev EncryptRequest := String → List (String × Value) → Nat → Except String EncryptedRequest

structure Invocation where
  chuteId : String
  ticket : Ticket
  stream : Bool
  blob : Bytes
  deriving DecidableEq

/-- How `invoke` ends. -/
inductive InvokeAnswer
  | unreachable (error : ChutesError)
  | status (status : StatusCode)
  deriving DecidableEq

/-- `StatusCode::is_success`. -/
def StatusCode.isSuccess (status : StatusCode) : Bool := 200 ≤ status.code && status.code < 300

/-- What a request does at Chutes. -/
inductive Moment
  | discover
  | admission
  | invoke (invocation : Invocation)
  | answer (answer : InvokeAnswer)
  deriving DecidableEq

/-- Where a request stands. -/
inductive Stage
  /-- In `ticket`, before the scope is locked. -/
  | ticketing
  /-- In a locked section; that of `retry_ticket` follows the status that turned it away. -/
  | locked (cell : Cell) (refused : Option StatusCode)
  /-- A ticket was taken in the locked section. -/
  | served (cell : Cell) (ticket : Ticket)
  | ticketed (ticket : Ticket)
  | invoking (ticket : Ticket) (responseKey : Bytes)
  /-- In `retry_ticket`, before the scope is locked. -/
  | turnedAway (status : StatusCode)
  /-- The response is read by `complete_response` or `stream_response`. -/
  | relaying (responseKey : Bytes)
  /-- `ticket` answered an error. -/
  | noTicket
  | failed (error : ChutesError)
  deriving DecidableEq

/-- The cell whose lock the request holds. -/
def Stage.cell : Stage → Option Cell
  | locked cell _ | served cell _ => some cell
  | _ => none

structure Forwarding where
  world : Admissions
  stage : Stage
  turnedAway : List String
  given : List Issue
  trace : List Moment

inductive ForwardEvent
  /-- What another task does. -/
  | other (event : Admissions.Event)
  /-- The lock of the scope is acquired. -/
  | lock (cell : Cell) (now : Instant)
  /-- The next act of the locked section. -/
  | own (now : Instant) (act : Act)
  /-- The scope is not to be had. -/
  | giveUp
  | invoke (randomness : Nat)
  | answer (answer : InvokeAnswer)

/-- The acts of another task: not those of the holder of a lock this request has. -/
def Stage.leaves (stage : Stage) : Admissions.Event → Bool
  | .act _ _ (.renewAsk _ _) | .act _ _ (.renewStop _) => true
  | .act name _ _ => stage.cell != some name
  | .create _ | .evict _ => true

/-- The acts of a locked section, up to the ticket. -/
def Act.isOfSection : Act → Bool
  | .prune | .take | .askEvidence _ | .answerEvidence _ | .askDiscovery | .answerDiscovery _
  | .release => true
  | _ => false

/-- The calls an act begins. -/
def Act.calls : Act → List Moment
  | .askEvidence _ => [.admission]
  | .askDiscovery => [.discover]
  | _ => []

def invokeFailed (status : StatusCode) : ChutesError := .upstream "invoke" status

/-- How a request ends that gets no ticket: a retry passes the status on. -/
def withoutTicket : Option StatusCode → Stage
  | none => .noTicket
  | some status => .failed (invokeFailed status)

namespace Forwarding

def onlyIssue : List Entry → Option Issue
  | [.issued _ issue] => some issue
  | _ => none

/-- The ticket a step of the world issued. -/
def issuedBy (before after : Admissions) : Option Issue :=
  onlyIssue (after.log.drop before.log.length)

/-- After an act of the locked section. -/
def moved (s : Forwarding) (name : Cell) (refused : Option StatusCode) (act : Act)
    (world : Admissions) : Forwarding :=
  let trace := s.trace ++ act.calls
  match issuedBy s.world world with
  | some issue =>
      { s with world, trace, stage := .served name issue.ticket, given := s.given ++ [issue] }
  | none =>
      if (world.cells.lookup name).any fun cell => cell.holder.isSome then { s with world, trace }
      else { s with world, trace, stage := withoutTicket refused }

/-- What follows an answer. -/
def answered (s : Forwarding) (ticket : Ticket) (responseKey : Bytes) (answer : InvokeAnswer) :
    Forwarding :=
  let trace := s.trace ++ [.answer answer]
  match answer with
  | .unreachable error => { s with trace, stage := .failed error }
  | .status status =>
      if status.isSuccess then { s with trace, stage := .relaying responseKey }
      else
        let turnedAway := s.turnedAway ++ [ticket.instanceId]
        if status.code ≠ 429 ∨ maxInvokeInstances ≤ turnedAway.length then
          { s with trace, turnedAway, stage := .failed (invokeFailed status) }
        else { s with trace, turnedAway, stage := .turnedAway status }

section Request

variable (epoch : Duration) (capacity : Nat) (credentialOf : String → Credential)
  (encryptRequest : EncryptRequest) (prepared : Prepared)

def scopeOf : ChuteScope := (credentialOf prepared.apiKey, prepared.target.chuteId)

/-- The lock is acquired: of the request's own scope, to go on with the act and stage. -/
def acquire (s : Forwarding) (name : Cell) (now : Instant) (act : Act) (stage : Stage) :
    Option Forwarding :=
  if (s.world.cells.lookup name).any fun cell => cell.scope = scopeOf credentialOf prepared then
    (Admissions.step epoch capacity s.world (.act name now act)).map fun world =>
      { s with world, stage }
  else none

/-- Encrypt to the key of the ticket, and invoke. -/
def invoke (s : Forwarding) (ticket : Ticket) (randomness : Nat) : Forwarding :=
  match encryptRequest ticket.e2ePubkey prepared.payload randomness with
  | .error cause => { s with stage := .failed (.rejected cause) }
  | .ok encrypted =>
      { s with
        stage := .invoking ticket encrypted.responseKey
        trace := s.trace ++
          [.invoke ⟨prepared.target.chuteId, ticket, prepared.stream, encrypted.blob⟩] }

def step (s : Forwarding) : ForwardEvent → Option Forwarding
  | .other event =>
      if s.stage.leaves event then
        (Admissions.step epoch capacity s.world event).map fun world => { s with world }
      else none
  | .lock name now =>
      match s.stage with
      | .ticketing =>
          acquire epoch capacity credentialOf prepared s name now .lock (.locked name none)
      | .turnedAway status =>
          acquire epoch capacity credentialOf prepared s name now (.retryLock s.turnedAway)
            (.locked name (some status))
      | _ => none
  | .own now act =>
      match s.stage with
      | .locked name refused =>
          if act.isOfSection then
            (Admissions.step epoch capacity s.world (.act name now act)).map
              (s.moved name refused act)
          else none
      | .served name ticket =>
          if act = .serve then
            (Admissions.step epoch capacity s.world (.act name now .serve)).map fun world =>
              { s with world, stage := .ticketed ticket }
          else none
      | _ => none
  | .giveUp =>
      match s.stage with
      | .ticketing => some { s with stage := .noTicket }
      | .turnedAway status => some { s with stage := .failed (invokeFailed status) }
      | _ => none
  | .invoke randomness =>
      match s.stage with
      | .ticketed ticket => some (s.invoke encryptRequest prepared ticket randomness)
      | _ => none
  | .answer answer =>
      match s.stage with
      | .invoking ticket responseKey => some (s.answered ticket responseKey answer)
      | _ => none

end Request

end Forwarding

section TryForward

variable (epoch : Duration) (capacity : Nat) (credentialOf : String → Credential)
  (encryptRequest : EncryptRequest)

/-- The loop of `try_forward`, over a prepared request. -/
def forwarding (prepared : Prepared) : Machine Forwarding ForwardEvent where
  init := ⟨⟨∅, 0, ∅, 0, []⟩, .ticketing, [], [], []⟩
  step := Forwarding.step epoch capacity credentialOf encryptRequest prepared

/-- `try_forward`: a request that is refused does nothing at Chutes. -/
def tryForward (decode : Bytes → Option Value) (request : ChatRequest) :
    Except ChutesError (Machine Forwarding ForwardEvent) :=
  (prepare decode request).map (forwarding epoch capacity credentialOf encryptRequest)

end TryForward

/-- The invocations of a trace. -/
def invocations (trace : List Moment) : List Invocation :=
  trace.filterMap fun
    | .invoke invocation => some invocation
    | _ => none

end GmMiner.Chutes
