import GmMiner.Chutes.Crypto
import GmMiner.Chutes.Invocations

/-!
What a request and its instance say to each other, in every run of the request (`encrypt_request` of
`attestd/src/chutes_verify/crypto.rs` under `try_forward` of `attestd/src/chutes_verify/forward.rs`).

The response key that a request holds is that of its last invocation (`Keyed`), so what the invoked
instance seals to the public key it read is what the request relays.
-/

namespace GmMiner.Chutes

open GmMiner.Lib GmMiner.Json

/-! ### The key a request holds -/

/-- An invocation came of an encryption that left this response key. -/
def LeavesKey (encryptRequest : EncryptRequest) (prepared : Prepared) (invocation : Invocation)
    (responseKey : Bytes) : Prop :=
  ∃ randomness, encryptRequest invocation.ticket.e2ePubkey prepared.payload randomness =
    .ok ⟨invocation.blob, responseKey⟩

/-- A request holds the response key of what it invoked last. -/
def Keyed (encryptRequest : EncryptRequest) (prepared : Prepared) (s : Forwarding) : Prop :=
  match s.stage with
  | .invoking _ responseKey => ∃ before invocation, s.trace = before ++ [.invoke invocation] ∧
      LeavesKey encryptRequest prepared invocation responseKey
  | .relaying responseKey => ∃ before invocation status,
      s.trace = before ++ [.invoke invocation, .answer (.status status)] ∧
        status.isSuccess = true ∧ LeavesKey encryptRequest prepared invocation responseKey
  | _ => True

section Keyed

variable {epoch : Duration} {capacity : Nat} {credentialOf : String → Credential}
  {encryptRequest : EncryptRequest} {prepared : Prepared} {s next : Forwarding}

/-- A move that invokes nothing leaves the key as it was. -/
theorem keyed_moved {name : Cell} {refused : Option StatusCode} {act : Act} {world : Admissions}
    (stage : s.stage = .locked name refused) :
    Keyed encryptRequest prepared (s.moved name refused act world) := by
  unfold Forwarding.moved
  cases Forwarding.issuedBy s.world world with
  | some issue => trivial
  | none =>
      dsimp only
      split
      · simp only [Keyed, stage]
      · cases refused with
        | none => trivial
        | some status => trivial

theorem keyed_acquire {name : Cell} {now : Instant} {act : Act} {refused : Option StatusCode}
    (acquired : Forwarding.acquire epoch capacity credentialOf prepared s name now act
      (.locked name refused) = some next) : Keyed encryptRequest prepared next := by
  unfold Forwarding.acquire at acquired
  split at acquired
  · obtain ⟨world, -, rfl⟩ := Option.map_eq_some_iff.mp acquired
    trivial
  · cases acquired

/-- An answer is relayed under the key of its request. -/
theorem keyed_answered {ticket : Ticket} {responseKey : Bytes} {answer : InvokeAnswer}
    (stage : s.stage = .invoking ticket responseKey) (keyed : Keyed encryptRequest prepared s) :
    Keyed encryptRequest prepared (s.answered ticket responseKey answer) := by
  rw [Keyed, stage] at keyed
  obtain ⟨before, invocation, trace, leaves⟩ := keyed
  cases answer with
  | unreachable error => trivial
  | status status =>
      simp only [Forwarding.answered]
      by_cases success : status.isSuccess = true
      · rw [if_pos success]
        exact ⟨before, invocation, status, by simp [trace], success, leaves⟩
      · rw [if_neg success]
        split <;> trivial

/-- Every step keeps the response key with the request that holds it. -/
theorem Keyed.step {event : ForwardEvent} (keyed : Keyed encryptRequest prepared s)
    (stepped : Forwarding.step epoch capacity credentialOf encryptRequest prepared s event =
      some next) : Keyed encryptRequest prepared next := by
  cases event with
  | other event =>
      simp only [Forwarding.step] at stepped
      split at stepped
      · obtain ⟨world, -, rfl⟩ := Option.map_eq_some_iff.mp stepped
        exact keyed
      · cases stepped
  | lock name now =>
      simp only [Forwarding.step] at stepped
      split at stepped
      · exact keyed_acquire stepped
      · exact keyed_acquire stepped
      · cases stepped
  | own now act =>
      simp only [Forwarding.step] at stepped
      split at stepped
      · rename_i stage
        split at stepped
        · obtain ⟨world, -, rfl⟩ := Option.map_eq_some_iff.mp stepped
          exact keyed_moved stage
        · cases stepped
      · split at stepped
        · obtain ⟨world, -, rfl⟩ := Option.map_eq_some_iff.mp stepped
          trivial
        · cases stepped
      · cases stepped
  | giveUp =>
      simp only [Forwarding.step] at stepped
      split at stepped
      · cases stepped
        trivial
      · cases stepped
        trivial
      · cases stepped
  -- The only step that draws a response key, and only for the request that was encrypted with it.
  | invoke randomness =>
      simp only [Forwarding.step] at stepped
      split at stepped
      · rename_i ticket stage
        cases stepped
        unfold Forwarding.invoke
        split
        · trivial
        · rename_i encrypted accepted
          exact ⟨s.trace, _, rfl, randomness, accepted⟩
      · cases stepped
  | answer answer =>
      simp only [Forwarding.step] at stepped
      split at stepped
      · rename_i ticket responseKey stage
        cases stepped
        exact keyed_answered stage keyed
      · cases stepped

theorem Keyed.reachable
    (reached : (forwarding epoch capacity credentialOf encryptRequest prepared).Reachable s) :
    Keyed encryptRequest prepared s :=
  reached.invariant trivial fun _ _ _ keyed stepped => keyed.step stepped

/-- Any answer may follow an invocation. -/
theorem reachable_answered {ticket : Ticket} {responseKey : Bytes}
    (reached : (forwarding epoch capacity credentialOf encryptRequest prepared).Reachable s)
    (stage : s.stage = .invoking ticket responseKey) (answer : InvokeAnswer) :
    (forwarding epoch capacity credentialOf encryptRequest prepared).Reachable
      (s.answered ticket responseKey answer) := by
  have stepped : (forwarding epoch capacity credentialOf encryptRequest prepared).step s
      (.answer answer) = some (s.answered ticket responseKey answer) := by
    simp only [forwarding, Forwarding.step, stage]
  exact reached.next stepped

end Keyed

/-! ### What comes through -/

/-- A response that comes in chunks is read whole if it is no longer than it may be. -/
theorem readBlob_of_short {blob : Bytes} {chunks : List Bytes}
    (short : (blob ++ chunks.flatten).length ≤ maxPlaintextBytes) :
    readBlob blob (chunks.map some) = .ok (blob ++ chunks.flatten) := by
  induction chunks generalizing blob with
  | nil => simp [readBlob]
  | cons chunk later ih =>
      rw [List.flatten_cons, ← List.append_assoc] at short ⊢
      have fits : blob.length + chunk.length ≤ maxPlaintextBytes := by
        simp only [List.length_append] at short
        omega
      rw [List.map_cons, readBlob, if_neg (Nat.not_lt.mpr fits)]
      exact ih short

/-- Whoever holds the secret of the key on its ticket reads the request that an invocation carries:
the payload, and a public key for the response. -/
def ReadsAt (parts : WireParts) (prepared : Prepared) (invocation : Invocation)
    (randomness : Nat) : Prop :=
  ∀ seed, invocation.ticket.e2ePubkey = encodeText (parts.generateKeypair seed).2 →
    let text := parts.toVec (.object
      (withResponseKey prepared.payload (parts.generateKeypair randomness).2))
    text.length ≤ maxPlaintextBytes →
      tryOpenRequest parts (parts.generateKeypair seed).1 invocation.blob = some text

/-- What is sealed to a public key that a request offered is relayed as it was before it was sealed,
in whatever chunks it comes, if it names the model. -/
def RelaysSealed (parts : WireParts) (model : String) (responseKey responsePublic : Bytes) : Prop :=
  ∀ (drawn nonce : Nat) (json : Bytes) (completion : List (String × Value)) (chunks : List Bytes)
    (display : Option Value → String),
    chunks.flatten = (Responder.new parts responsePublic drawn).responseBlob parts json nonce →
    chunks.flatten.length ≤ maxPlaintextBytes → json.length ≤ maxPlaintextBytes →
    parts.fromSlice json = some (.object completion) →
    (completion.lookup "model").bind Value.asStr = some model →
    completeResponse parts display responseKey model (chunks.map some) =
      .ok ⟨200, [("content-type", "application/json")], [.data json]⟩

structure Exchanged (parts : WireParts) (prepared : Prepared) (s : Forwarding) : Prop where
  requests : ∀ invocation ∈ invocations s.trace,
    ∃ randomness, ReadsAt parts prepared invocation randomness
  /-- The response that is relayed is that of the instance invoked last. -/
  response : ∀ responseKey, s.stage = .relaying responseKey → ∃ before invocation status randomness,
    s.trace = before ++ [.invoke invocation, .answer (.status status)] ∧ status.isSuccess = true ∧
      ReadsAt parts prepared invocation randomness ∧
        RelaysSealed parts prepared.target.model responseKey (parts.generateKeypair randomness).2

/-- The response key of an encryption is the secret of the public key that it offered. -/
theorem responseKey_of_encrypted {parts : WireParts} {instanceKey : String}
    {payload : List (String × Value)}
    {randomness : Nat} {encrypted : EncryptedRequest}
    (accepted : encryptRequest parts instanceKey payload randomness = .ok encrypted) :
    encrypted.responseKey = (parts.generateKeypair randomness).1 := by
  unfold encryptRequest at accepted
  simp only [bind_eq_ok] at accepted
  obtain ⟨_, -, _, -, _, -, same⟩ := accepted
  cases same
  rfl

section Lawful

variable {parts : WireParts} (lawful : parts.Lawful)
include lawful

/-- The instance reads what was encrypted to its key. -/
theorem readsAt_of_encrypted {prepared : Prepared} {invocation : Invocation} {randomness : Nat}
    {encrypted : EncryptedRequest}
    (accepted : encryptRequest parts invocation.ticket.e2ePubkey prepared.payload randomness =
      .ok encrypted) (sent : invocation.blob = encrypted.blob) :
    ReadsAt parts prepared invocation randomness := by
  intro seed key text short
  rw [key] at accepted
  rw [sent]
  exact (tryOpenRequest_encryptRequest lawful accepted short).1

/-- What the instance seals is relayed. -/
theorem relaysSealed (seed : Nat) (model : String) :
    RelaysSealed parts model (parts.generateKeypair seed).1 (parts.generateKeypair seed).2 := by
  intro drawn nonce json completion chunks display sealed short shortJson object named
  have read : readBlob [] (chunks.map some) = .ok ([] ++ chunks.flatten) :=
    readBlob_of_short (by simpa using short)
  rw [List.nil_append, sealed] at read
  unfold completeResponse
  rw [read]
  simp only [bind_eq_ok, mapError_eq_ok]
  refine ⟨_, rfl, json, decryptResponse_responseBlob lawful seed drawn nonce shortJson, ?_⟩
  rw [object]
  simp only [bind_eq_ok, ensure_eq_ok, beq_iff_eq]
  exact ⟨⟨⟩, named, rfl⟩

end Lawful

/-- In every run of a request, beside any other tasks: every instance it was sent to whose key is that
of a pair reads the payload that was asked for and the public key of a drawn pair, if they are not too
long. What is sealed to the key that the last one read is relayed as it was, in whatever chunks it
comes, if it is an object that names the model and is not too long either. -/
theorem exchange_comes_through {epoch : Duration} {capacity : Nat}
    {credentialOf : String → Credential} {parts : WireParts} {decode : Bytes → Option Value}
    {request : ChatRequest} {machine : Machine Forwarding ForwardEvent} {s : Forwarding}
    (lawful : parts.Lawful)
    (accepted : tryForward epoch capacity credentialOf (encryptRequest parts) decode request =
      .ok machine)
    (reached : machine.Reachable s) :
    ∃ prepared, prepare decode request = .ok prepared ∧ Exchanged parts prepared s := by
  unfold tryForward at accepted
  cases isPrepared : prepare decode request with
  | error error =>
      rw [isPrepared] at accepted
      cases accepted
  | ok prepared =>
      rw [isPrepared] at accepted
      cases accepted
      obtain ⟨spent, rounds, pending, tail, progress⟩ := Underway.reachable reached
      have keyed := Keyed.reachable reached
      refine ⟨prepared, rfl, fun invocation mem => ?_, fun responseKey stage => ?_⟩
      · obtain ⟨randomness, encrypted, accepted, sent⟩ := (progress.carries invocation mem).encrypted
        exact ⟨randomness, readsAt_of_encrypted lawful accepted sent⟩
      · rw [Keyed, stage] at keyed
        obtain ⟨before, invocation, status, trace, success, randomness, accepted⟩ := keyed
        have isKey : responseKey = _ := responseKey_of_encrypted accepted
        rw [isKey]
        exact ⟨before, invocation, status, randomness, trace, success,
          readsAt_of_encrypted lawful accepted rfl, relaysSealed lawful randomness _⟩

/-- Parts that keep to the laws, and hide nothing. -/
def openParts : WireParts where
  generateKeypair seed :=
    (List.replicate mlkem768PublicKeyBytes (.ofNat seed),
      List.replicate mlkem768PublicKeyBytes (.ofNat seed))
  isPublicKey _ := true
  encapsulate key randomness :=
    (List.replicate mlkem768CiphertextBytes (.ofNat randomness), key.take 32)
  decapsulate key _ := some (key.take 32)
  hkdf salt shared info := salt ++ shared ++ info
  nonce randomness := List.replicate nonceLen (.ofNat randomness)
  aeadSeal _ _ text := text ++ List.replicate tagBytes 0
  aeadOpen _ _ sealed := some (sealed.take (sealed.length - tagBytes))
  gzip text := text
  gunzip limit text := some (text.take limit, text.drop limit)
  toVec _ := asBytes "\x7b\x7d"
  fromSlice _ := some (.object kimiPayload)

/-- The open parts meet what is asked of the real ones. -/
theorem openParts_lawful : openParts.Lawful where
  publicKey _ := rfl
  publicKeyLength seed := List.length_replicate
  ciphertextLength key randomness := List.length_replicate
  decapsulates seed randomness := rfl
  nonceLength randomness := List.length_replicate
  tagged key nonce text := by simp [openParts]
  opens key nonce text := by simp [openParts]
  gunzips limit text short := by
    simp [openParts, List.take_of_length_le short.le, List.drop_of_length_le short.le]

/-- One instance, with the public key of the first pair. -/
def openOffer : Discovery :=
  ⟨[⟨"inst", encodeText (openParts.generateKeypair 0).2, ["nonce"]⟩], 60, by decide,
    smallDiscovery.lifetime, List.pairwise_singleton _ _, by decide⟩

def openTicketing : List ForwardEvent :=
  [.other (.create ([7], kimiChute)), .lock 0 0] ++ (ticketActs openOffer).map (.own 0)

/-- The key of the ticket a request has. -/
def Stage.ticketKey : Stage → Option String
  | ticketed ticket => some ticket.e2ePubkey
  | _ => none

/-- The schedule takes a ticket of the key. -/
theorem openTicketing_runs : ∃ s ticket,
    (forwarding 0 10 (fun _ => [7]) (encryptRequest openParts) kimiPrepared).run openTicketing =
        some s ∧
      s.stage = .ticketed ticket ∧ ticket.e2ePubkey = encodeText (openParts.generateKeypair 0).2 := by
  have ran : ((forwarding 0 10 (fun _ => [7]) (encryptRequest openParts) kimiPrepared).run
      openTicketing).any
        (fun s => s.stage.ticketKey == some (encodeText (openParts.generateKeypair 0).2)) =
        true := by
    decide +kernel
  obtain ⟨s, run, key⟩ := (Option.any_eq_true _ _).mp ran
  rw [beq_iff_eq] at key
  cases stage : s.stage with
  | ticketed ticket =>
      rw [stage] at key
      exact ⟨s, ticket, run, stage, Option.some.inj key⟩
  | ticketing | locked | served | invoking | turnedAway | relaying | noTicket | failed =>
      rw [stage] at key
      cases key

/-- The schedule of the whole exchange comes to relay an answer. -/
theorem openExchange_runs : ∃ s,
    (forwarding 0 10 (fun _ => [7]) (encryptRequest openParts) kimiPrepared).Reachable s ∧
      ∃ responseKey, s.stage = .relaying responseKey := by
  obtain ⟨s, ticket, run, stage, key⟩ := openTicketing_runs
  have unreserved :
      (kimiPayload.any fun member => "e2e_".toList.isPrefixOf member.1.toList) = false := by
    decide
  obtain ⟨sent, accepted⟩ := exists_encryptRequest openParts_lawful unreserved 0 1
  have invoked : (forwarding 0 10 (fun _ => [7]) (encryptRequest openParts) kimiPrepared).step s
      (.invoke 1) = some { s with
        stage := .invoking ticket sent.responseKey
        trace := s.trace ++ [.invoke ⟨kimiChute, ticket, false, sent.blob⟩] } := by
    rw [← key] at accepted
    simp only [forwarding, Forwarding.step, stage, Forwarding.invoke]
    rw [show encryptRequest openParts ticket.e2ePubkey kimiPrepared.payload 1 = .ok sent from accepted]
    rfl
  have reached := Machine.Reachable.next ⟨openTicketing, run⟩ invoked
  exact ⟨_, reachable_answered reached rfl (.status ⟨200, "200 OK"⟩), sent.responseKey, rfl⟩

/-- What comes through when the instance that was asked answers. -/
theorem exchange_comes_through_openly : ∃ s,
    Exchanged openParts kimiPrepared s ∧ ∃ responseKey, s.stage = .relaying responseKey := by
  obtain ⟨s, reached, relaying⟩ := openExchange_runs
  have isPrepared : prepare decodeKimi kimiRequest = .ok kimiPrepared := rfl
  have accepted : tryForward 0 10 (fun _ => [7]) (encryptRequest openParts) decodeKimi kimiRequest =
      .ok (forwarding 0 10 (fun _ => [7]) (encryptRequest openParts) kimiPrepared) := by
    unfold tryForward
    rw [isPrepared]
    rfl
  obtain ⟨prepared, prepares, exchanged⟩ := exchange_comes_through openParts_lawful accepted reached
  cases isPrepared.symm.trans prepares
  exact ⟨s, exchanged, relaying⟩

end GmMiner.Chutes
