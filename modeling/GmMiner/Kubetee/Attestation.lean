import GmMiner.Encodings
import GmMiner.EventLog.Replay
import GmMiner.Kubetee.Evidence
import GmMiner.Kubetee.Forward
import GmMiner.Lib.Digests
import GmMiner.TeeEvidence.Quotes

/-!
The attestation of a connection to KubeTEE (`attestd/src/kubetee_verify/evidence.rs`, `attest` of
`attestd/src/kubetee_verify/mod.rs`).

What attests a connection is a quote over the keyset that is served and the nonce that was drawn for it,
an event log that replays to the quote's registers, and a signature of the nonce under the key of the
connection's own certificate (`Attested`). So a quote attests one keyset, for one nonce, on a machine
that was booted in one way (`one_quote_attests_one_boot`).
-/

namespace GmMiner.Kubetee

open GmMiner.Lib GmMiner.Json GmMiner.TeeEvidence GmMiner.UpstreamProxy

structure TlsPossession where
  tlsSignature : String
  tlsSignatureAlg : String
  tlsCertSha256 : String

structure AttestationPayload where
  nonce : String
  quote : String
  ccEventlog : Option String
  tlsPossession : Option TlsPossession
  pod : String

/-- The measured registers of the TD that minted a quote. -/
structure Measurements where
  mrtd : Vector UInt8 48
  mrConfigId : Vector UInt8 48
  rtmrs : Vector (Vector UInt8 48) 4
  deriving DecidableEq

def Measurements.of (td : TdReport) : Measurements := ⟨td.mrTd, td.mrConfigId, td.rtMrs⟩

/-- What a successful attestation of one connection found. -/
structure Attestation where
  pod : String
  peer : String
  measurements : Measurements
  keysetNotAfter : DateTime

inductive KeyAlgorithm
  | rsa
  | p256
  | other
  deriving DecidableEq

/-- `ring`'s algorithms. -/
inductive VerificationAlgorithm
  | rsaPkcs1
  | p256Fixed
  | p256Asn1
  deriving DecidableEq

def VerificationAlgorithm.keys : VerificationAlgorithm → KeyAlgorithm
  | .rsaPkcs1 => .rsa
  | .p256Fixed => .p256
  | .p256Asn1 => .p256

/-- The libraries that are called. -/
structure AttestParts where
  external : Externals
  /-- `serde_json::from_slice` of an attestation. -/
  decodePayload : Bytes → Option AttestationPayload
  sha384 : Bytes → EventLog.Register
  /-- The algorithm and the bits of the key in a `SubjectPublicKeyInfo`. -/
  keyOf : Bytes → KeyAlgorithm × Bytes
  /-- Whether a key signs a text. -/
  verifies : VerificationAlgorithm → (key text signature : Bytes) → Bool

/-- A connection, by what its other end is and answers, and when. -/
structure Connection where
  peer : String
  leaf : Bytes
  /-- The body that answers a nonce. -/
  fetchAttestation : String → Except String Bytes
  collateral : Collateral
  attestedAt : Instant
  fetchedAt : DateTime
  verifiedAt : DateTime

section Attest

variable (parts : AttestParts)

def verifyEventLog (log : String) (quoted : Vector (Vector UInt8 48) 4) : Except String PUnit := do
  let log ← required (decodeText log) "decode KubeTEE cc_eventlog"
  let events ← EventLog.parse log
  -- The events of a log that was parsed are of the four registers.
  let replayed ← required (EventLog.replay parts.sha384 events) "index out of bounds"
  (List.finRange 4).forM fun index =>
    ensure (replayed.get index == quoted.get index)
      ("KubeTEE event log does not replay to the quote's RTMR" ++ toString index.val)

def verifyTlsPossession (possession : TlsPossession) (nonce : String) (leaf : Bytes) :
    Except String PUnit := do
  let claimed ← required (hexDecode possession.tlsCertSha256.toList)
    "decode KubeTEE TLS certificate fingerprint"
  ensure (claimed == (parts.external.sha256 leaf).toList)
    "KubeTEE TLS-possession names a certificate other than this connection's"
  let certificate ← (parts.external.parseX509Certificate leaf).mapError fun error =>
    "parse KubeTEE TLS certificate: " ++ error
  let (algorithm, key) := parts.keyOf certificate.spki
  let signature ← required (decodeText possession.tlsSignature)
    "decode KubeTEE TLS-possession signature"
  let signs (verification : VerificationAlgorithm) : Bool :=
    parts.verifies verification key (asBytes nonce) signature
  if possession.tlsSignatureAlg = "RS256" then
    ensure (algorithm == .rsa)
      "KubeTEE TLS-possession signature is RS256 but the certificate key is not RSA"
    ensure (signs .rsaPkcs1) "KubeTEE TLS-possession signature does not verify"
  else if possession.tlsSignatureAlg = "ES256" then
    ensure (algorithm == .p256)
      "KubeTEE TLS-possession signature is ES256 but the certificate key is not P-256"
    ensure (signs .p256Fixed || signs .p256Asn1) "KubeTEE TLS-possession signature does not verify"
  else
    .error ("KubeTEE TLS-possession signature is " ++ possession.tlsSignatureAlg ++
      ", expected ES256 or RS256")

def verifyAttestation (payload : AttestationPayload) (nonce : String) (leaf : Bytes)
    (collateral : Collateral) (claims : QuoteClaims) (reportData : Vector UInt8 64) :
    Except String Measurements := do
  ensure (payload.nonce == nonce) "KubeTEE echoed a different nonce"
  let td ← appraise collateral claims
  ensure (td.reportData == reportData)
    "TDX report_data is not the kubetee.attestation.v1 binding for the nonce sent"
  let measurements := Measurements.of td
  let log ← required payload.ccEventlog "KubeTEE attestation has no cc_eventlog"
  verifyEventLog parts log measurements.rtmrs
  let possession ← required payload.tlsPossession "KubeTEE attestation has no tls_possession"
  verifyTlsPossession parts possession nonce leaf
  return measurements

/-- `attest`, with the nonce that was drawn. -/
def attest (connection : Connection) (nonce : Digest) : Except String (Attestation × Instant) := do
  let nonce := nonceText nonce
  let body ← connection.fetchAttestation nonce
  let binding ← (BindingGuard.run parts.external body nonce connection.leaf
    connection.fetchedAt).mapError fun cause => "kubetee.attestation.v1 binding: " ++ cause
  let payload ← required (parts.decodePayload body) "decode KubeTEE attestation response"
  let quote ← required (decodeText payload.quote) "decode KubeTEE quote"
  let claims ← connection.collateral.verifySignatureChain quote
  let measurements ← verifyAttestation parts payload nonce connection.leaf connection.collateral
    claims binding.reportData
  binding.ensureCurrent connection.verifiedAt
  return (⟨payload.pod, connection.peer, measurements, binding.notAfter⟩, connection.attestedAt)

/-- `connect_and_attest_once`, over what each attempt connects to and the nonce it draws. -/
def connectAndAttestOnce (connect : Nat → Except String (Connection × Digest)) (attempt : Nat) :
    Except String (Connection × Attestation × Instant) := do
  let (connection, nonce) ← connect attempt
  let attested ← (attest parts connection nonce).mapError fun cause =>
    "attest " ++ hostName ++ " via " ++ connection.peer ++ ": " ++ cause
  return (connection, attested)

/-- `connect_and_attest`. -/
def connectAndAttest (connect : Nat → Except String (Connection × Digest)) :
    Except String (Connection × Attestation × Instant) :=
  retryAttestation "KubeTEE" (connectAndAttestOnce parts connect)

end Attest

/-! ### What an attestation rests on -/

/-- The key in the connection's certificate has signed a text. -/
def SignedByLeaf (parts : AttestParts) (leaf text : Bytes) : Prop :=
  ∃ certificate verification signature,
    parts.external.parseX509Certificate leaf = .ok certificate ∧
      (parts.keyOf certificate.spki).1 = verification.keys ∧
        parts.verifies verification (parts.keyOf certificate.spki).2 text signature = true

/-- Everything that was checked before a connection was handed out. -/
structure Attested (parts : AttestParts) (connection : Connection) (nonce : Digest)
    (attestation : Attestation) where
  /-- The connection answers the nonce with a statement of the keyset that is served and of the nonce. -/
  body : Bytes
  fetched : connection.fetchAttestation (nonceText nonce) = .ok body
  binding : Binding
  fields : BindingFields
  tree : Json
  served : BindingGuard.Accepted parts.external body (nonceText nonce) connection.leaf binding fields
    tree
  deadline : attestation.keysetNotAfter = binding.notAfter
  current : connection.fetchedAt < binding.notAfter ∧ connection.verifiedAt < binding.notAfter
  /-- The quote is genuine. -/
  payload : AttestationPayload
  read : parts.decodePayload body = some payload
  quote : Bytes
  quoted : decodeText payload.quote = some quote
  claims : QuoteClaims
  td : TdReport
  genuine : Genuine connection.collateral quote claims td
  /-- Its report data are those of the statement. -/
  reported : td.reportData = binding.reportData
  /-- Its registers are those that the event log replays to. -/
  measured : attestation.measurements = .of td
  events : List EventLog.Event
  logged : ∃ log bytes, payload.ccEventlog = some log ∧ decodeText log = some bytes ∧
    EventLog.parse bytes = .ok events
  replayed : EventLog.replay parts.sha384 events = some td.rtMrs
  /-- The connection's own key has signed the nonce. -/
  possessed : SignedByLeaf parts connection.leaf (asBytes (nonceText nonce))

section Attested

variable {parts : AttestParts} {connection : Connection} {nonce : Digest} {attestation : Attestation}

/-- An accepted binding is current. -/
theorem current_of_run {external : Externals} {body leaf : Bytes} {nonce : String} {now : DateTime}
    {binding : Binding} (accepted : BindingGuard.run external body nonce leaf now = .ok binding) :
    now < binding.notAfter := by
  unfold BindingGuard.run at accepted
  obtain ⟨payload, -, accepted⟩ := bind_eq_ok.mp accepted
  split at accepted
  · simp only [bind_eq_ok, Binding.ensureCurrent, ensure_eq_ok, decide_eq_true_eq] at accepted
    obtain ⟨_, -, -, -, _, -, _, -, -, current, same⟩ := accepted
    cases same
    exact current
  · cases accepted
  · cases accepted

/-- An accepted log replays to the registers of the quote. -/
theorem verifyEventLog_eq_ok {log : String} {quoted : Vector (Vector UInt8 48) 4}
    (verified : verifyEventLog parts log quoted = .ok ⟨⟩) :
    ∃ bytes events, decodeText log = some bytes ∧ EventLog.parse bytes = .ok events ∧
      EventLog.replay parts.sha384 events = some quoted := by
  unfold verifyEventLog at verified
  simp only [bind_eq_ok, required_eq_ok, forM_eq_ok, ensure_eq_ok, beq_iff_eq] at verified
  obtain ⟨bytes, decoded, events, parsed, replayed, replay, same⟩ := verified
  refine ⟨bytes, events, decoded, parsed, ?_⟩
  rw [replay, Option.some_inj]
  exact Vector.ext fun index bound => same ⟨index, bound⟩ (List.mem_finRange _)

/-- An accepted possession is signed with the leaf's key. -/
theorem verifyTlsPossession_eq_ok {possession : TlsPossession} {nonce : String} {leaf : Bytes}
    (verified : verifyTlsPossession parts possession nonce leaf = .ok ⟨⟩) :
    SignedByLeaf parts leaf (asBytes nonce) := by
  unfold verifyTlsPossession at verified
  simp only [bind_eq_ok, required_eq_ok, ensure_eq_ok, mapError_eq_ok] at verified
  obtain ⟨_, -, -, -, certificate, parsed, signature, -, verified⟩ := verified
  split at verified
  · simp only [bind_eq_ok, ensure_eq_ok, beq_iff_eq] at verified
    obtain ⟨-, isRsa, signs⟩ := verified
    exact ⟨certificate, .rsaPkcs1, signature, parsed, isRsa, signs⟩
  · split at verified
    · simp only [bind_eq_ok, ensure_eq_ok, beq_iff_eq, Bool.or_eq_true] at verified
      obtain ⟨-, isP256, signs | signs⟩ := verified
      · exact ⟨certificate, .p256Fixed, signature, parsed, isP256, signs⟩
      · exact ⟨certificate, .p256Asn1, signature, parsed, isP256, signs⟩
    · cases verified

/-- An attestation handed out has passed every check. -/
theorem exists_attested {attestedAt : Instant}
    (accepted : attest parts connection nonce = .ok (attestation, attestedAt)) :
    attestedAt = connection.attestedAt ∧ Nonempty (Attested parts connection nonce attestation) := by
  unfold attest verifyAttestation Binding.ensureCurrent at accepted
  simp only [bind_eq_ok, required_eq_ok, ensure_eq_ok, mapError_eq_ok, beq_iff_eq,
    decide_eq_true_eq] at accepted
  obtain ⟨body, fetched, binding, bound, payload, read, quote, quoted, claims, chain, measurements,
    ⟨-, -, td, appraised, -, reported, log, logged, ⟨⟩, replays, possession, -, ⟨⟩, possessed, same⟩,
    -, current, same'⟩ := accepted
  cases same
  cases same'
  obtain ⟨fields, tree, served⟩ := BindingGuard.run_eq_ok bound
  obtain ⟨bytes, events, decoded, parsed, replayed⟩ := verifyEventLog_eq_ok replays
  exact ⟨rfl, ⟨⟨body, fetched, binding, fields, tree, served, rfl, ⟨current_of_run bound, current⟩,
    payload, read, quote, quoted, claims, td, genuine_of_appraise chain appraised, reported, rfl, events,
    ⟨log, bytes, logged, decoded, parsed⟩, replayed, verifyTlsPossession_eq_ok possessed⟩⟩⟩

/-- A connection that is handed out was attested on the attempt that gave it, and every attempt before
it had failed. -/
theorem kubetee_hands_out_attested_connections
    {connect : Nat → Except String (Connection × Digest)} {attestedAt : Instant}
    (accepted : connectAndAttest parts connect = .ok (connection, attestation, attestedAt)) :
    ∃ n, 1 ≤ n ∧ n ≤ attestationAttempts ∧
      (∃ nonce, connect n = .ok (connection, nonce) ∧ attestedAt = connection.attestedAt ∧
        Nonempty (Attested parts connection nonce attestation)) ∧
      ∀ m, 1 ≤ m → m < n → ∃ error, connectAndAttestOnce parts connect m = .error error := by
  obtain ⟨n, positive, within, last, earlier⟩ := retryAttestation_eq_ok accepted
  refine ⟨n, positive, within, ?_, earlier⟩
  unfold connectAndAttestOnce at last
  simp only [bind_eq_ok, mapError_eq_ok] at last
  obtain ⟨⟨given, nonce⟩, connected, attested, attests, same⟩ := last
  cases same
  exact ⟨nonce, connected, exists_attested attests⟩

/-! ### Two small attestations -/

/-- What was drawn: `smallNonce` is its text. -/
def smallDraw : Digest := Vector.replicate 32 0x5F

/-- A log that measures one event. -/
def smallLog (padding : Nat) : Bytes :=
  EventLog.smallHeader.encode ++ [EventLog.smallRecord].flatMap EventLog.Record.encode ++
    List.replicate padding 0xFF

/-- SHA-384 of a register of zeros with the event's digest. -/
def smallRegister : EventLog.Register :=
  #v[31, 193, 244, 113, 213, 216, 182, 222, 116, 109, 252, 5, 153, 106, 133, 37, 167, 166, 188, 239,
    135, 233, 222, 19, 200, 99, 253, 130, 108, 128, 168, 26, 142, 29, 234, 141, 161, 233, 73, 118, 193,
    193, 14, 80, 204, 221, 220, 120]

def smallPayload (pod : String) (padding : Nat) (fingerprint : String) : AttestationPayload :=
  ⟨BindingGuard.smallNonce, "", some (encodeText (smallLog padding)),
    some ⟨"", "ES256", fingerprint⟩, pod⟩

def firstFingerprint : String := "d4b215e7f7439fe8825e5d63e14b11676ef6ed9d2ad0fd3a1b5787ec20fc4b3b"

def secondFingerprint : String := "c096ed4e2e5e509ef177eed856b547d67d9ede7b19a2cc471f7972b82a465029"

def smallParts : AttestParts where
  external := BindingGuard.smallExternals
  decodePayload body := some <|
    if body = BindingGuard.firstBody then smallPayload "pod-1" 4 firstFingerprint
    else smallPayload "pod-2" 8 secondFingerprint
  sha384 _ := smallRegister
  keyOf spki := (.p256, spki.drop 26)
  verifies _ _ _ _ := true

def smallTd : TdReport where
  tdAttributes := Vector.replicate 8 0
  mrTd := Vector.replicate 48 0
  mrConfigId := Vector.replicate 48 0
  rtMrs := (Vector.replicate 4 (Vector.replicate 48 0)).set 1 smallRegister
  reportData := BindingGuard.smallBinding.reportData

def smallClaims : QuoteClaims := ⟨.td10 smallTd, "UpToDate", "UpToDate", 50⟩

def smallCollateral : Collateral := ⟨fun _ => .ok smallClaims, fun _ _ => true, 1⟩

/-- A connection to a pod, by its certificate, its answer and when that comes. -/
def smallConnection (peer : String) (leaf body : Bytes) (attestedAt : Instant)
    (fetchedAt : DateTime) : Connection where
  peer := peer
  leaf := leaf
  fetchAttestation _ := .ok body
  collateral := smallCollateral
  attestedAt := attestedAt
  fetchedAt := fetchedAt
  verifiedAt := 9

def firstConnection : Connection :=
  smallConnection "192.0.2.1:443" BindingGuard.firstLeaf BindingGuard.firstBody 7 0

def secondConnection : Connection :=
  smallConnection "192.0.2.2:443" BindingGuard.secondLeaf BindingGuard.secondBody 17 1

def firstAttestation : Attestation := ⟨"pod-1", "192.0.2.1:443", .of smallTd, 1893456000000000000⟩

def secondAttestation : Attestation := ⟨"pod-2", "192.0.2.2:443", .of smallTd, 1893456000000000000⟩

/-- The padded log replays to zero registers. -/
theorem smallLog_replays {padding : Nat} (framed : 4 ≤ padding) :
    verifyEventLog smallParts (encodeText (smallLog padding)) smallTd.rtMrs = .ok ⟨⟩ := by
  have parsed : EventLog.parse (smallLog padding) = .ok [EventLog.smallEvent] :=
    (EventLog.parse_small padding).mpr (.inr framed)
  have replayed : EventLog.replay smallParts.sha384 [EventLog.smallEvent] = some smallTd.rtMrs := by
    decide
  unfold verifyEventLog
  simp only [bind_eq_ok, required_eq_ok, forM_eq_ok, ensure_eq_ok, beq_iff_eq]
  exact ⟨_, decodeText_encodeText _, _, parsed, _, replayed, fun _ _ => rfl⟩

/-- The payload verifies with the possession it states. -/
theorem smallPayload_verifies {pod fingerprint : String} {padding : Nat} {leaf : Bytes}
    (framed : 4 ≤ padding)
    (possessed : verifyTlsPossession smallParts ⟨"", "ES256", fingerprint⟩ BindingGuard.smallNonce leaf =
      .ok ⟨⟩) :
    verifyAttestation smallParts (smallPayload pod padding fingerprint) BindingGuard.smallNonce leaf
      smallCollateral smallClaims BindingGuard.smallBinding.reportData = .ok (.of smallTd) := by
  have appraised : appraise smallCollateral smallClaims = .ok smallTd := rfl
  unfold verifyAttestation
  simp only [bind_eq_ok, required_eq_ok, ensure_eq_ok, beq_iff_eq]
  exact ⟨⟨⟩, rfl, smallTd, appraised, ⟨⟩, rfl, _, rfl, ⟨⟩, smallLog_replays framed, _, rfl, ⟨⟩,
    possessed, rfl⟩

theorem nonceText_smallDraw : nonceText smallDraw = BindingGuard.smallNonce := by
  refine Eq.trans ?_ (rfl : String.ofList _ =
    "5f5f5f5f5f5f5f5f5f5f5f5f5f5f5f5f5f5f5f5f5f5f5f5f5f5f5f5f5f5f5f5f")
  exact congrArg String.ofList rfl

/-- The possession of a leaf whose digest the fingerprint spells. -/
private theorem possessed_small {fingerprint : String} {digits : List Char} {leaf spki : Bytes}
    (spelled : String.ofList digits = fingerprint)
    (decoded : hexDecode digits = some (smallParts.external.sha256 leaf).toList)
    (parsed : smallParts.external.parseX509Certificate leaf = .ok ⟨spki, 1924992000⟩) :
    verifyTlsPossession smallParts ⟨"", "ES256", fingerprint⟩ BindingGuard.smallNonce leaf =
      .ok ⟨⟩ := by
  unfold verifyTlsPossession
  simp only [bind_eq_ok, required_eq_ok, mapError_eq_ok, toList_of spelled]
  exact ⟨_, decoded, ⟨⟩, ensure_eq_ok.mpr (beq_self_eq_true _), _, parsed, [], rfl, rfl⟩

/-- The first connection is attested. -/
theorem firstConnection_attests :
    attest smallParts firstConnection smallDraw = .ok (firstAttestation, 7) := by
  have possessed : verifyTlsPossession smallParts ⟨"", "ES256", firstFingerprint⟩
      BindingGuard.smallNonce BindingGuard.firstLeaf = .ok ⟨⟩ :=
    possessed_small (rfl : String.ofList _ =
      "d4b215e7f7439fe8825e5d63e14b11676ef6ed9d2ad0fd3a1b5787ec20fc4b3b") rfl
      BindingGuard.parse_first
  unfold attest Binding.ensureCurrent
  simp only [nonceText_smallDraw, bind_eq_ok, required_eq_ok, ensure_eq_ok, mapError_eq_ok]
  exact ⟨_, rfl, _, BindingGuard.bodies_accepted.1, _, congrArg some (if_pos rfl), [], by decide,
    smallClaims, rfl, _, smallPayload_verifies (by decide) possessed, ⟨⟩, by decide, rfl⟩

/-- The second connection is attested, under another body. -/
theorem secondConnection_attests :
    attest smallParts secondConnection smallDraw = .ok (secondAttestation, 17) := by
  have possessed : verifyTlsPossession smallParts ⟨"", "ES256", secondFingerprint⟩
      BindingGuard.smallNonce BindingGuard.secondLeaf = .ok ⟨⟩ :=
    possessed_small (rfl : String.ofList _ =
      "c096ed4e2e5e509ef177eed856b547d67d9ede7b19a2cc471f7972b82a465029") rfl
      BindingGuard.parse_second
  unfold attest Binding.ensureCurrent
  simp only [nonceText_smallDraw, bind_eq_ok, required_eq_ok, ensure_eq_ok, mapError_eq_ok]
  exact ⟨_, rfl, _, BindingGuard.bodies_accepted.2, _,
    congrArg some (if_neg BindingGuard.secondBody_ne), [], by decide, smallClaims, rfl, _,
    smallPayload_verifies (by decide) possessed, ⟨⟩, by decide, rfl⟩

/-- The second attempt connects. -/
def smallConnect : Nat → Except String (Connection × Digest)
  | 1 => .error "connect"
  | _ => .ok (firstConnection, smallDraw)

theorem kubetee_hands_out_attested_connections_small :
    ∃ n, 1 ≤ n ∧ n ≤ attestationAttempts ∧
      (∃ nonce, smallConnect n = .ok (firstConnection, nonce) ∧ 7 = firstConnection.attestedAt ∧
        Nonempty (Attested smallParts firstConnection nonce firstAttestation)) ∧
      ∀ m, 1 ≤ m → m < n → ∃ error, connectAndAttestOnce smallParts smallConnect m = .error error := by
  have refused : connectAndAttestOnce smallParts smallConnect 1 = .error "connect" := rfl
  have attested : connectAndAttestOnce smallParts smallConnect 2 =
      .ok (firstConnection, firstAttestation, 7) := by
    simp only [connectAndAttestOnce, smallConnect, bind_eq_ok, mapError_eq_ok]
    exact ⟨_, rfl, _, firstConnection_attests, rfl⟩
  exact kubetee_hands_out_attested_connections (retryAttestation_of_second refused attested)

/-! ### One quote, one boot -/

/-- The digests that the events extend a register by. -/
def digestsOf (index : Nat) (events : List EventLog.Event) : List EventLog.Register :=
  (events.filter (·.rtmr == index)).map EventLog.Event.digest

/-- The texts that a register is extended by. -/
def extension (sha384 : Bytes → EventLog.Register) (step : EventLog.Register × EventLog.Register) :
    EventLog.Register :=
  sha384 (step.1.toList ++ step.2.toList)

theorem extended_eq_digest (sha384 : Bytes → EventLog.Register) (register : EventLog.Register)
    (index : Nat) (events : List EventLog.Event) :
    EventLog.extended sha384 register index events =
      HashChain.digest (extension sha384) register (digestsOf index events) := by
  rw [EventLog.extended, HashChain.digest, digestsOf, List.foldl_map]
  rfl

/-- The registers that the logs replay to are of other digests. -/
def BootsCollide (sha384 : Bytes → EventLog.Register) (digests others : List EventLog.Register) :
    Prop :=
  HashChain.Collides (extension sha384) (Vector.replicate 48 0) digests others ∨
    HashChain.Returns (extension sha384) (Vector.replicate 48 0) digests ∨
      HashChain.Returns (extension sha384) (Vector.replicate 48 0) others

/-- Logs that replay alike extend each register by the same digests in the same order, short of a
collision. -/
theorem digestsOf_eq_or_collide {sha384 : Bytes → EventLog.Register}
    {events others : List EventLog.Event} {bytes otherBytes : Bytes}
    (parsed : EventLog.parse bytes = .ok events) (parsedOther : EventLog.parse otherBytes = .ok others)
    (same : EventLog.replay sha384 events = EventLog.replay sha384 others) (index : Fin 4) :
    digestsOf index events = digestsOf index others ∨
      BootsCollide sha384 (digestsOf index events) (digestsOf index others) := by
  obtain ⟨_, _, _, reads⟩ := EventLog.parse_reads parsed
  obtain ⟨_, _, _, readsOther⟩ := EventLog.parse_reads parsedOther
  rw [EventLog.replay_eq_some sha384 (EventLog.rtmr_lt_of_measures reads.measures),
    EventLog.replay_eq_some sha384 (EventLog.rtmr_lt_of_measures readsOther.measures),
    Option.some_inj] at same
  have registers := congrArg (fun registers : Vector _ 4 => registers[index]) same
  simp only [Fin.getElem_fin, Vector.getElem_ofFn, extended_eq_digest] at registers
  exact HashChain.items_eq_or_collides registers

variable {connection' : Connection} {nonce' : Digest} {attestation' : Attestation}

/-- The keyset that is served, as it is hashed. -/
def Attested.keysetText (attested : Attested parts connection nonce attestation) : Bytes :=
  asBytes (String.ofList (jcs attested.tree))

/-- The statement that is served, as it is hashed. -/
def Attested.statementText (attested : Attested parts connection nonce attestation) : Bytes :=
  asBytes attested.fields.bindings.reportDataStatement

/-- One report data is of one nonce and one keyset, short of a collision. -/
theorem nonce_and_keyset_eq_or_collide (first : Attested parts connection nonce attestation)
    (second : Attested parts connection' nonce' attestation')
    (same : first.binding.reportData = second.binding.reportData) :
    (nonce = nonce' ∧ first.tree = second.tree) ∨
      Collide parts.external.sha256 first.statementText second.statementText ∨
        Collide parts.external.sha256 first.keysetText second.keysetText := by
  rw [first.served.hashed, second.served.hashed] at same
  rcases eq_or_collide (zeroPadded_injective same) with statements | collision
  · have texts := first.served.statement
    rw [asBytes_injective statements, second.served.statement] at texts
    obtain ⟨digests, nonces⟩ := statementFor_injective texts
    rcases eq_or_collide digests with keysets | collision
    · have trees := jcs_injective (ordered_jsonTree second.served.keyset.read)
        (ordered_jsonTree first.served.keyset.read)
        (String.ofList_injective (asBytes_injective keysets))
      exact .inl ⟨(nonceText_injective nonces).symm, trees.symm⟩
    · exact .inr (.inr ⟨collision.1.symm, collision.2.symm⟩)
  · exact .inr (.inl collision)

/-- One keyset has one deadline. -/
theorem deadline_eq (first : Attested parts connection nonce attestation)
    (second : Attested parts connection' nonce' attestation') (trees : first.tree = second.tree) :
    attestation.keysetNotAfter = attestation'.keysetNotAfter := by
  obtain ⟨text, dated, instant⟩ := first.served.keyset.deadline
  obtain ⟨text', dated', instant'⟩ := second.served.keyset.deadline
  rw [trees, dated'] at dated
  cases dated
  rw [first.deadline, second.deadline]
  exact Option.some.inj (instant.symm.trans instant')

/-- A quote attests connections for one nonce, with one keyset, which lists the keys of both and is good
until one instant, and on a machine that was booted in one way: short of a collision. -/
theorem one_quote_attests_one_boot (first : Attested parts connection nonce attestation)
    (second : Attested parts connection' nonce' attestation')
    (sameQuote : first.quote = second.quote)
    (alike : connection.collateral.ReadsAlike connection'.collateral) :
    ((nonce = nonce' ∧ attestation.keysetNotAfter = attestation'.keysetNotAfter ∧
        first.tree = second.tree ∧
          BindingGuard.ListsLeaf parts.external first.tree connection.leaf ∧
            BindingGuard.ListsLeaf parts.external first.tree connection'.leaf) ∨
      Collide parts.external.sha256 first.statementText second.statementText ∨
        Collide parts.external.sha256 first.keysetText second.keysetText) ∧
      attestation.measurements = attestation'.measurements ∧
        ∀ index : Fin 4, digestsOf index first.events = digestsOf index second.events ∨
          BootsCollide parts.sha384 (digestsOf index first.events)
            (digestsOf index second.events) := by
  have tds : first.td = second.td := first.genuine.same_report (sameQuote ▸ second.genuine) alike
  refine ⟨?_, ?_, fun index => ?_⟩
  · have same : first.binding.reportData = second.binding.reportData := by
      rw [← first.reported, ← second.reported, tds]
    rcases nonce_and_keyset_eq_or_collide first second same with ⟨nonces, trees⟩ | collision
    · refine .inl ⟨nonces, deadline_eq first second trees, trees, first.served.keyset.listed, ?_⟩
      rw [trees]
      exact second.served.keyset.listed
    · exact .inr collision
  · rw [first.measured, second.measured, tds]
  · obtain ⟨_, bytes, -, -, parsed⟩ := first.logged
    obtain ⟨_, otherBytes, -, -, parsedOther⟩ := second.logged
    refine digestsOf_eq_or_collide parsed parsedOther ?_ index
    rw [first.replayed, second.replayed, tds]

theorem quote_eq_nil (attested : Attested smallParts connection nonce attestation) :
    attested.quote = [] := by
  have noText : attested.payload.quote = "" := by
    rw [← Option.some.inj attested.read]
    split <;> rfl
  have quoted := attested.quoted
  rw [noText] at quoted
  exact Option.some.inj (quoted.symm.trans (by decide))

/-- A quote that attests two connections with one keyset, each under a certificate of its own. -/
theorem one_quote_attests_one_boot_small :
    ∃ (first : Attested smallParts firstConnection smallDraw firstAttestation)
      (second : Attested smallParts secondConnection smallDraw secondAttestation),
      ((smallDraw = smallDraw ∧ firstAttestation.keysetNotAfter = secondAttestation.keysetNotAfter ∧
          first.tree = second.tree ∧
            BindingGuard.ListsLeaf smallParts.external first.tree firstConnection.leaf ∧
              BindingGuard.ListsLeaf smallParts.external first.tree secondConnection.leaf) ∨
        Collide smallParts.external.sha256 first.statementText second.statementText ∨
          Collide smallParts.external.sha256 first.keysetText second.keysetText) ∧
        firstAttestation.measurements = secondAttestation.measurements ∧
          ∀ index : Fin 4, digestsOf index first.events = digestsOf index second.events ∨
            BootsCollide smallParts.sha384 (digestsOf index first.events)
              (digestsOf index second.events) := by
  obtain ⟨-, ⟨first⟩⟩ := exists_attested firstConnection_attests
  obtain ⟨-, ⟨second⟩⟩ := exists_attested secondConnection_attests
  refine ⟨first, second, one_quote_attests_one_boot first second ?_ fun _ _ _ read other => ?_⟩
  · rw [quote_eq_nil first, quote_eq_nil second]
  · rw [Except.ok.inj (read.symm.trans other)]

end Attested

end GmMiner.Kubetee
