import GmMiner.Encodings
import GmMiner.Lib.Digests
import GmMiner.Near.Forward
import GmMiner.TeeEvidence.Nras
import GmMiner.TeeEvidence.Quotes

/-!
The attestation of a connection to NEAR (`attestd/src/near_verify.rs`).

What attests a connection is a quote over the key of its own TLS certificate, the nonce that was drawn
for it and the compose file that the enclave runs (`Attested`). So a quote attests one connection only
(`one_quote_attests_one_connection`). The model's name is not in the quote: it is what the response
says.
-/

namespace GmMiner.Near

open GmMiner.Lib GmMiner.Json GmMiner.TeeEvidence GmMiner.UpstreamProxy

/-- `NearAttestation`, with the `tcb_info` of its `info`. -/
structure NearAttestation where
  modelName : String
  signingAddress : String
  signingAlgo : String
  requestNonce : String
  intelQuote : String
  nvidiaPayload : String
  tlsCertFingerprint : String
  tcbInfo : Value

/-- The libraries that are called. -/
structure NearParts where
  sha256 : Bytes → Kubetee.Digest
  /-- `serde_json::from_slice` of an attestation. -/
  decodeAttestation : Bytes → Option NearAttestation
  /-- The `docker_compose_file` of an `AppCompose`, by `serde_json::from_str`. -/
  decodeCompose : String → Option String
  nras : Externals

/-- A connection, by what its other end is and answers. -/
structure Connection where
  peer : String
  /-- The SHA-256 of the `SubjectPublicKeyInfo` of its TLS certificate. -/
  liveSpki : Kubetee.Digest
  /-- `fetch_attestation`, with a nonce. -/
  fetchAttestation : String → Except String Bytes
  collateral : Collateral
  /-- `gpu_verdict`. -/
  gpuVerdict : Value → Except String Value

/-- `aggregate_token`. -/
def aggregateToken (response : Value) : Except String String :=
  required
    (((response.asArray.bind List.head?).bind Value.asArray).bind fun entry =>
      entry[1]?.bind Value.asStr)
    "NVIDIA NRAS response has no verdict token"

section Attest

variable (parts : NearParts)

/-- The `app_compose` of a `tcb_info`. -/
def composeText (tcbInfo : Value) : Except String String := do
  let tcbInfo ←
    match tcbInfo with
    | .object members => pure (.object members)
    | .string encoded => required (parts.nras.decode (asBytes encoded)) "decode TCB info"
    | _ => .error "NEAR attestation TCB info has an invalid shape"
  required ((tcbInfo.get "app_compose").bind Value.asStr) "NEAR attestation has no app_compose"

/-- `verify_compose_binding`. -/
def verifyComposeBinding (attestation : NearAttestation) (mrConfigId : Vector UInt8 48) :
    Except String PUnit := do
  let appCompose ← composeText parts attestation.tcbInfo
  let dockerComposeFile ← required (parts.decodeCompose appCompose) "decode app_compose"
  ensure (!(trim dockerComposeFile.toList).isEmpty) "NEAR attested compose file is empty"
  ensure (mrConfigId.toList.take 33 == 1 :: (parts.sha256 (asBytes appCompose)).toList)
    "NEAR app_compose does not match the verified TDX mr_config_id"

/-- `verify_identity`. -/
def verifyIdentity (attestation : NearAttestation) (target : NearTarget)
    (nonce liveSpki : Kubetee.Digest) (td : TdReport) : Except String PUnit := do
  ensure (attestation.modelName == target.model)
    "attested model does not match the selected NEAR model"
  ensure (attestation.signingAlgo == "ed25519")
    "NEAR attestation did not use the requested ed25519 signing key"
  ensure (eqIgnoreAsciiCase attestation.requestNonce.toList (nonceText nonce).toList)
    "NEAR attestation response nonce is stale or mismatched"
  let attestedSpki ← required (hexDecode attestation.tlsCertFingerprint.toList)
    "decode attested TLS fingerprint"
  let attestedSpki ← required (tryInto 32 attestedSpki) "attested TLS fingerprint is not 32 bytes"
  ensure (attestedSpki == liveSpki) "live NEAR TLS key does not match the attested fingerprint"
  let signingKey ← required (hexDecode attestation.signingAddress.toList)
    "decode attested ed25519 signing key"
  let signingKey ← required (tryInto 32 signingKey) "attested ed25519 signing key is not 32 bytes"
  let expectedBinding := parts.sha256 (signingKey.toList ++ liveSpki.toList)
  ensure (td.reportData.toList.take 32 == expectedBinding.toList &&
      td.reportData.toList.drop 32 == nonce.toList)
    "TDX report_data does not bind the signing key, live TLS key, and fresh nonce"
  verifyComposeBinding parts attestation td.mrConfigId

/-- `verify_gpu`. -/
def verifyGpu (connection : Connection) (attestation : NearAttestation) (nonce : Kubetee.Digest) :
    Except String PUnit := do
  let payload ← required (parts.nras.decode (asBytes attestation.nvidiaPayload))
    "decode NVIDIA evidence"
  let payloadNonce ← required ((payload.get "nonce").bind Value.asStr) "NVIDIA evidence has no nonce"
  ensure (eqIgnoreAsciiCase payloadNonce.toList (nonceText nonce).toList)
    "NVIDIA evidence nonce does not match the fresh TDX nonce"
  let response ← connection.gpuVerdict payload
  let token ← aggregateToken response
  let verdict ← unverifiedClaims parts.nras token
  requireOverallSuccess verdict

/-- `attest`, with the nonce that was drawn. -/
def attest (target : NearTarget) (connection : Connection) (nonce : Kubetee.Digest) :
    Except String PUnit := do
  let body ← connection.fetchAttestation (nonceText nonce)
  let attestation ← required (parts.decodeAttestation body) "decode NEAR attestation response"
  let rawQuote ← required (hexDecode attestation.intelQuote.toList) "decode NEAR TDX quote"
  let claims ← (verifyQuote connection.collateral rawQuote).mapError fun cause =>
    "verify NEAR TDX quote against Intel collateral: " ++ cause
  let td ← (tdReport claims.report).mapError fun cause => "NEAR attestation: " ++ cause
  verifyIdentity parts attestation target nonce connection.liveSpki td
  verifyGpu parts connection attestation nonce

/-- `connect_and_attest_once`, over what each attempt connects to and the nonce it draws. -/
def connectAndAttestOnce (target : NearTarget)
    (connect : Nat → Except String (Connection × Kubetee.Digest)) (attempt : Nat) :
    Except String Connection := do
  let (connection, nonce) ← connect attempt
  (attest parts target connection nonce).mapError fun cause =>
    "attest " ++ target.host ++ " via " ++ connection.peer ++ ": " ++ cause
  return connection

/-- `connect_and_attest`. -/
def connectAndAttest (target : NearTarget)
    (connect : Nat → Except String (Connection × Kubetee.Digest)) : Except String Connection :=
  retryAttestation "NEAR" (connectAndAttestOnce parts target connect)

end Attest

/-! ### What an attestation rests on -/

/-- Everything that was checked before a connection was handed out. -/
structure Attested (parts : NearParts) (target : NearTarget) (connection : Connection)
    (nonce : Kubetee.Digest) where
  /-- The attestation is what the connection answers the nonce with, and names the target's model. -/
  body : Bytes
  fetched : connection.fetchAttestation (nonceText nonce) = .ok body
  attestation : NearAttestation
  decoded : parts.decodeAttestation body = some attestation
  model : attestation.modelName = target.model
  /-- The quote is genuine. -/
  quote : Bytes
  quoted : hexDecode attestation.intelQuote.toList = some quote
  claims : QuoteClaims
  td : TdReport
  genuine : Genuine connection.collateral quote claims td
  /-- Its report data are the signing key with the live TLS key, and the nonce. -/
  signingKey : Kubetee.Digest
  bound : td.reportData.toList =
    (parts.sha256 (signingKey.toList ++ connection.liveSpki.toList)).toList ++ nonce.toList
  /-- Its configuration is the compose file, which is not blank. -/
  appCompose : String
  composed : composeText parts attestation.tcbInfo = .ok appCompose
  file : ∃ file, parts.decodeCompose appCompose = some file ∧ trim file.toList ≠ []
  measured : td.mrConfigId.toList.take 33 = 1 :: (parts.sha256 (asBytes appCompose)).toList
  /-- NVIDIA has found the GPUs' evidence, for the same nonce, to be good. -/
  gpus : ∃ payload payloadNonce response token verdict,
    parts.nras.decode (asBytes attestation.nvidiaPayload) = some payload ∧
      (payload.get "nonce").bind Value.asStr = some payloadNonce ∧
        eqIgnoreAsciiCase payloadNonce.toList (nonceText nonce).toList = true ∧
          connection.gpuVerdict payload = .ok response ∧ aggregateToken response = .ok token ∧
            unverifiedClaims parts.nras token = .ok verdict ∧
              (verdict.get "x-nvidia-overall-att-result").bind asBool = some true

section Attested

variable {parts : NearParts} {target : NearTarget} {connection : Connection}
  {nonce : Kubetee.Digest}

/-- An accepted compose is the one whose digest is in the quote. -/
theorem verifyComposeBinding_eq_ok {attestation : NearAttestation} {mrConfigId : Vector UInt8 48}
    (verified : verifyComposeBinding parts attestation mrConfigId = .ok ⟨⟩) :
    ∃ appCompose, composeText parts attestation.tcbInfo = .ok appCompose ∧
      (∃ file, parts.decodeCompose appCompose = some file ∧ trim file.toList ≠ []) ∧
        mrConfigId.toList.take 33 = 1 :: (parts.sha256 (asBytes appCompose)).toList := by
  unfold verifyComposeBinding at verified
  simp only [bind_eq_ok, required_eq_ok, ensure_eq_ok, beq_iff_eq] at verified
  obtain ⟨appCompose, composed, file, decoded, -, full, measured⟩ := verified
  exact ⟨appCompose, composed, ⟨file, decoded, by simpa using full⟩, measured⟩

/-- An accepted identity is of the target's model and the live key. -/
theorem verifyIdentity_eq_ok {attestation : NearAttestation} {liveSpki : Kubetee.Digest}
    {td : TdReport} (verified : verifyIdentity parts attestation target nonce liveSpki td = .ok ⟨⟩) :
    attestation.modelName = target.model ∧
      (∃ signingKey : Kubetee.Digest, td.reportData.toList =
        (parts.sha256 (signingKey.toList ++ liveSpki.toList)).toList ++ nonce.toList) ∧
        verifyComposeBinding parts attestation td.mrConfigId = .ok ⟨⟩ := by
  unfold verifyIdentity at verified
  simp only [bind_eq_ok, required_eq_ok, ensure_eq_ok, beq_iff_eq, Bool.and_eq_true] at verified
  obtain ⟨-, model, -, -, -, -, _, -, _, -, -, -, _, -, signingKey, -, -, ⟨first, second⟩, compose⟩ :=
    verified
  refine ⟨model, ⟨signingKey, ?_⟩, compose⟩
  rw [← first, ← second, List.take_append_drop]

/-- A connection handed out has passed every check. -/
theorem exists_attested (accepted : attest parts target connection nonce = .ok ⟨⟩) :
    Nonempty (Attested parts target connection nonce) := by
  unfold attest verifyGpu at accepted
  simp only [bind_eq_ok, required_eq_ok, ensure_eq_ok, mapError_eq_ok] at accepted
  obtain ⟨body, fetched, attestation, decoded, quote, quoted, claims, verified, td, report, ⟨⟩,
    identity, payload, read, payloadNonce, named, -, same, response, answered, token, cut, verdict,
    claimed, success⟩ := accepted
  obtain ⟨model, ⟨signingKey, bound⟩, compose⟩ := verifyIdentity_eq_ok identity
  obtain ⟨appCompose, composed, file, measured⟩ := verifyComposeBinding_eq_ok compose
  exact ⟨⟨body, fetched, attestation, decoded, model, quote, quoted, claims, td,
    genuine_of_verifyQuote verified report, signingKey, bound, appCompose, composed, file, measured,
    payload, payloadNonce, response, token, verdict, read, named, same, answered, cut, claimed,
    by simpa [requireOverallSuccess] using success⟩⟩

/-- A connection that is handed out was attested on the attempt that gave it, and every attempt before
it had failed. -/
theorem near_hands_out_attested_connections
    {connect : Nat → Except String (Connection × Kubetee.Digest)}
    (accepted : connectAndAttest parts target connect = .ok connection) :
    ∃ n, 1 ≤ n ∧ n ≤ attestationAttempts ∧
      (∃ nonce, connect n = .ok (connection, nonce) ∧
        Nonempty (Attested parts target connection nonce)) ∧
      ∀ m, 1 ≤ m → m < n → ∃ error, connectAndAttestOnce parts target connect m = .error error := by
  obtain ⟨n, positive, within, last, earlier⟩ := retryAttestation_eq_ok accepted
  refine ⟨n, positive, within, ?_, earlier⟩
  unfold connectAndAttestOnce at last
  simp only [bind_eq_ok, mapError_eq_ok] at last
  obtain ⟨⟨given, nonce⟩, connected, ⟨⟩, attested, same⟩ := last
  cases same
  exact ⟨nonce, connected, exists_attested attested⟩

/-! ### Two small attestations -/

def zeroDigest : Kubetee.Digest := Vector.replicate 32 0

/-- SHA-256 of a signing key and a TLS key that are both zeros. -/
def zeroKeys : Kubetee.Digest :=
  #v[245, 165, 253, 66, 209, 106, 32, 48, 39, 152, 239, 110, 211, 9, 151, 155, 67, 0, 61, 35, 32, 217,
    240, 232, 234, 152, 49, 169, 39, 89, 251, 75]

def smallCompose : String := "\x7b\"docker_compose_file\":\"services:\"\x7d"

/-- SHA-256 of the small compose file. -/
def smallComposeDigest : Kubetee.Digest :=
  #v[89, 86, 143, 240, 249, 198, 8, 96, 176, 123, 180, 197, 30, 84, 147, 40, 253, 253, 211, 186, 37,
    18, 20, 1, 234, 72, 168, 15, 40, 51, 178, 119]

/-- What one enclave says of each of its models. -/
def smallAttestation (model : String) (nvidiaPayload : String) : NearAttestation where
  modelName := model
  signingAddress := nonceText zeroDigest
  signingAlgo := "ed25519"
  requestNonce := nonceText zeroDigest
  intelQuote := ""
  nvidiaPayload := nvidiaPayload
  tlsCertFingerprint := nonceText zeroDigest
  tcbInfo := .object [("app_compose", .string smallCompose)]

def otherTarget : NearTarget :=
  ⟨"Qwen/Qwen3.8-27B", "qwen3-8-27b.completions.near.ai", chatCompletions⟩

/-- Evidence, and the claims of every token. -/
def smallVerdict : Value :=
  .object [("nonce", .string (nonceText zeroDigest)), ("x-nvidia-overall-att-result", .bool true)]

def smallNear : NearParts where
  sha256 bytes := if bytes = asBytes smallCompose then smallComposeDigest else zeroKeys
  decodeAttestation body := some <|
    if body = [] then smallAttestation smallTarget.model ""
    else smallAttestation otherTarget.model "evidence"
  decodeCompose _ := some "services:"
  nras := ⟨fun _ => [], fun _ => some smallVerdict, fun _ _ _ => true⟩

def smallTd : TdReport where
  tdAttributes := Vector.replicate 8 0
  mrTd := Vector.replicate 48 0
  mrConfigId := (#v[1] : Vector UInt8 1) ++ smallComposeDigest ++ (Vector.replicate 15 0 : Vector UInt8 15)
  rtMrs := Vector.replicate 4 (Vector.replicate 48 0)
  reportData := zeroKeys ++ zeroDigest

/-- A connection to the enclave, by what it answers and when. -/
def smallConnection (peer : String) (body : Bytes) (now : Nat) : Connection where
  peer := peer
  liveSpki := zeroDigest
  fetchAttestation _ := .ok body
  collateral := ⟨fun _ => .ok ⟨.td10 smallTd, "UpToDate", "UpToDate", 50⟩, fun _ _ => true, now⟩
  gpuVerdict _ := .ok (.array [.array [.string "JWT", .string ".."]])

/-- The one that is asked for images. -/
def imageConnection : Connection := smallConnection "192.0.2.1:443" [] 1

/-- The one that is asked for chats, later. -/
def chatConnection : Connection := smallConnection "192.0.2.2:443" [0] 2

theorem imageConnection_attests :
    attest smallNear smallTarget imageConnection zeroDigest = .ok ⟨⟩ := by
  decide +kernel

theorem chatConnection_attests :
    attest smallNear otherTarget chatConnection zeroDigest = .ok ⟨⟩ := by
  decide +kernel

/-- The second attempt connects. -/
def smallConnect : Nat → Except String (Connection × Kubetee.Digest)
  | 1 => .error "connect"
  | _ => .ok (imageConnection, zeroDigest)

theorem near_hands_out_attested_connections_small :
    ∃ n, 1 ≤ n ∧ n ≤ attestationAttempts ∧
      (∃ nonce, smallConnect n = .ok (imageConnection, nonce) ∧
        Nonempty (Attested smallNear smallTarget imageConnection nonce)) ∧
      ∀ m, 1 ≤ m → m < n →
        ∃ error, connectAndAttestOnce smallNear smallTarget smallConnect m = .error error := by
  have refused : connectAndAttestOnce smallNear smallTarget smallConnect 1 = .error "connect" := rfl
  have attested : connectAndAttestOnce smallNear smallTarget smallConnect 2 = .ok imageConnection := by
    simp only [connectAndAttestOnce, smallConnect, bind_eq_ok, mapError_eq_ok]
    exact ⟨_, rfl, ⟨⟩, imageConnection_attests, rfl⟩
  exact near_hands_out_attested_connections (retryAttestation_of_second refused attested)

/-! ### One quote, one connection -/

variable {target' : NearTarget} {connection' : Connection} {nonce' : Kubetee.Digest}

/-- A quote attests a connection for one nonce, to one TLS key, and with one compose file behind it. So
one that was replayed for another nonce is refused, and one that was relayed to another key too, short
of a collision. -/
theorem one_quote_attests_one_connection
    (first : Attested parts target connection nonce)
    (second : Attested parts target' connection' nonce') (sameQuote : first.quote = second.quote)
    (alike : connection.collateral.ReadsAlike connection'.collateral) :
    nonce = nonce' ∧
      ((first.signingKey = second.signingKey ∧ connection.liveSpki = connection'.liveSpki) ∨
        Collide parts.sha256 (first.signingKey.toList ++ connection.liveSpki.toList)
          (second.signingKey.toList ++ connection'.liveSpki.toList)) ∧
      (first.appCompose = second.appCompose ∨
        Collide parts.sha256 (asBytes first.appCompose) (asBytes second.appCompose)) := by
  have tds : first.td = second.td := first.genuine.same_report (sameQuote ▸ second.genuine) alike
  have halves : (parts.sha256 (first.signingKey.toList ++ connection.liveSpki.toList)).toList ++
      nonce.toList =
      (parts.sha256 (second.signingKey.toList ++ connection'.liveSpki.toList)).toList ++
        nonce'.toList :=
    first.bound.symm.trans ((congrArg (fun td => td.reportData.toList) tds).trans second.bound)
  have measured : (1 : UInt8) :: (parts.sha256 (asBytes first.appCompose)).toList =
      1 :: (parts.sha256 (asBytes second.appCompose)).toList :=
    first.measured.symm.trans
      ((congrArg (fun td => td.mrConfigId.toList.take 33) tds).trans second.measured)
  obtain ⟨bindings, nonces⟩ :=
    List.append_inj halves (by rw [Vector.length_toList, Vector.length_toList])
  have files := Vector.toList_inj.mp (List.cons.inj measured).2
  refine ⟨Vector.toList_inj.mp nonces, ?_, ?_⟩
  · rcases eq_or_collide (Vector.toList_inj.mp bindings) with keys | collision
    · obtain ⟨signingKeys, spkis⟩ :=
        List.append_inj keys (by rw [Vector.length_toList, Vector.length_toList])
      exact .inl ⟨Vector.toList_inj.mp signingKeys, Vector.toList_inj.mp spkis⟩
    · exact .inr collision
  · rcases eq_or_collide files with texts | collision
    · exact .inl (asBytes_injective texts)
    · exact .inr collision

theorem quote_eq_nil (attested : Attested smallNear target connection nonce) :
    attested.quote = [] := by
  have noText : attested.attestation.intelQuote = "" := by
    rw [← Option.some.inj attested.decoded]
    split <;> rfl
  have quoted := attested.quoted
  rw [noText] at quoted
  exact (Option.some.inj quoted).symm

/-- A quote that attests two connections to one enclave, for different models. -/
theorem one_quote_attests_one_connection_small :
    ∃ (image : Attested smallNear smallTarget imageConnection zeroDigest)
      (chat : Attested smallNear otherTarget chatConnection zeroDigest),
      zeroDigest = zeroDigest ∧
        ((image.signingKey = chat.signingKey ∧ imageConnection.liveSpki = chatConnection.liveSpki) ∨
          Collide smallNear.sha256 (image.signingKey.toList ++ imageConnection.liveSpki.toList)
            (chat.signingKey.toList ++ chatConnection.liveSpki.toList)) ∧
        (image.appCompose = chat.appCompose ∨
          Collide smallNear.sha256 (asBytes image.appCompose) (asBytes chat.appCompose)) := by
  obtain ⟨image⟩ := exists_attested imageConnection_attests
  obtain ⟨chat⟩ := exists_attested chatConnection_attests
  refine ⟨image, chat, one_quote_attests_one_connection image chat ?_ fun _ _ _ read other => ?_⟩
  · rw [quote_eq_nil image, quote_eq_nil chat]
  · rw [Except.ok.inj (read.symm.trans other)]

end Attested

end GmMiner.Near
