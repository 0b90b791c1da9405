import GmMiner.Chutes.ChuteState
import GmMiner.Encodings
import GmMiner.Lib.Digests
import GmMiner.TeeEvidence.Nras
import GmMiner.TeeEvidence.Quotes

/-!
What admits a Chutes instance (`attestd/src/chutes_verify/evidence.rs`,
`attestd/src/chutes_verify/references.rs`, `LiveChutes::admit` of `attestd/src/chutes_verify/client.rs`,
`appraise` of `attestd/src/tee_evidence.rs`).

An admitted instance is one whose key, under the nonce of its batch, is in the report data of a quote
that was appraised (`Admission`). What other services and libraries answer is a parameter, and so are
the entries of the compiled file of references.
-/

namespace GmMiner.Chutes

open GmMiner.Lib GmMiner.Json GmMiner.TeeEvidence

/-! ### `Value::eq` -/

/-- Equality of numbers: zero is either zero. -/
def eqNumber : Number → Number → Bool
  | .float bits, .float other => bits == other || (bits <<< 1 == 0 && other <<< 1 == 0)
  | number, other => number == other

mutual

def eqValue : Value → Value → Bool
  | .null, .null => true
  | .bool b, .bool other => b == other
  | .number number, .number other => eqNumber number other
  | .string text, .string other => text == other
  | .array items, .array others => eqItems items others
  | .object members, .object others => members.length == others.length && eqMembers members others
  | _, _ => false

def eqItems : List Value → List Value → Bool
  | [], [] => true
  | item :: items, other :: others => eqValue item other && eqItems items others
  | _, _ => false

/-- The members are all among the others. -/
def eqMembers : List (String × Value) → List (String × Value) → Bool
  | [], _ => true
  | (name, value) :: members, others =>
      (match others.lookup name with
        | some other => eqValue value other
        | none => false) && eqMembers members others

end

/-! ### What is answered -/

/-- What is asked of an X.509 certificate, and the bytes behind it. -/
structure Certificate where
  behind : Bytes
  isValid : Bool
  isRsa : Bool
  /-- The bits of its key. -/
  publicKey : Bytes
  /-- The DER of its `SubjectPublicKeyInfo`. -/
  spki : Bytes
  notAfter : Int

/-- The libraries that are called. -/
structure EvidenceParts where
  sha256 : Bytes → Kubetee.Digest
  /-- `serde_json::from_slice`. -/
  decode : Bytes → Option Value
  parseCertificate : Bytes → Option Certificate
  /-- `RSA_PKCS1_2048_8192_SHA256`: whether a key signs a body. -/
  verifies : (key body signature : Bytes) → Bool
  nras : Externals

/-- What is answered while one instance is checked. -/
structure Answers where
  collateral : Collateral
  /-- `NrasClient::attest_v4`. -/
  attestV4 : Value → Except String Value
  /-- When it has answered. -/
  attestedAt : Nat

/-! ### References -/

structure Reference where
  version : String
  name : String
  mrtd : Vector UInt8 48
  rtmrs : Vector (Vector UInt8 48) 4
  gpuArch : Option String
  gpuCount : Nat
  deriving DecidableEq

structure Rtmrs where
  rtmr0 : String
  rtmr1 : String
  rtmr2 : String
  rtmr3 : String

/-- `Entry`, of the file of references. -/
structure PublishedEntry where
  version : String
  name : String
  mrtd : String
  runtimeRtmrs : Rtmrs
  expectedGpus : List String
  gpuCount : Nat

def register (hexValue : String) : Except String (Vector UInt8 48) := do
  let bytes ← required (hexDecode hexValue.toList) "decode measurement register"
  required (tryInto 48 bytes) "measurement register is not 48 bytes"

/-- The architecture of a GPU. -/
def archOf (gpu : String) : Option String :=
  let gpu := String.ofList (gpu.toList.map Char.toLower)
  if gpu ∈ ["h100", "h200", "h20"] then some "HOPPER"
  else if gpu ∈ ["b200", "b300", "pro_6000", "rtx_pro_6000"] then some "BLACKWELL"
  else none

/-- `gpu_arch`: the one architecture of the expected GPUs. -/
def gpuArch (expectedGpus : List String) : Option String :=
  match expectedGpus.map archOf with
  | some first :: others => if others.all (· == some first) then some first else none
  | _ => none

def parseEntry (entry : PublishedEntry) : Except String Reference := do
  let mrtd ← register entry.mrtd
  let rtmr0 ← register entry.runtimeRtmrs.rtmr0
  let rtmr1 ← register entry.runtimeRtmrs.rtmr1
  let rtmr2 ← register entry.runtimeRtmrs.rtmr2
  let rtmr3 ← register entry.runtimeRtmrs.rtmr3
  return ⟨entry.version, entry.name, mrtd, #v[rtmr0, rtmr1, rtmr2, rtmr3],
    gpuArch entry.expectedGpus, entry.gpuCount⟩

/-- `references::published`, of the entries that the compiled file has. -/
def published (entries : List PublishedEntry) : Except String (List Reference) :=
  (entries.mapM parseEntry).mapError ("compiled Chutes references: " ++ ·)

/-- `match_td`. -/
def matchTd (references : List Reference) (td : TdReport) : Except String Reference :=
  match references.find? fun reference =>
    reference.mrtd == td.mrTd && reference.rtmrs == td.rtMrs with
  | some reference => .ok reference
  | none =>
      let mrtd := String.ofList (Kubetee.hexEncode td.mrTd.toList)
      if references.any fun reference => reference.mrtd == td.mrTd then
        .error ("MRTD " ++ mrtd ++ " is published but no entry with it has these runtime RTMR0-3")
      else .error ("MRTD " ++ mrtd ++ " is not in the published Chutes references")

/-! ### Signed evidence -/

structure EvidenceRow where
  instanceId : Option String
  quote : String
  gpuEvidence : List Value
  certificate : String
  signature : Option String
  attestedBody : Option String

structure SignedEvidence where
  quote : Bytes
  gpuEvidence : List Value
  spkiSha256 : Kubetee.Digest
  certificateExpires : Nat

section Evidence

variable (parts : EvidenceParts)

/-- `key_binding`. -/
def keyBinding (nonceHex e2ePubkey : String) : Kubetee.Digest :=
  parts.sha256 (asBytes nonceHex ++ asBytes e2ePubkey)

/-- The GPU evidence of an attested body, which may be its text. -/
def gpuEvidenceOf (body : Value) : Except String Value :=
  match body.pointer ["evidence", "nvtrust_evidence"] with
  | some (.string encoded) => required (parts.decode (asBytes encoded)) "decode attested GPU evidence"
  | some inline => .ok inline
  | none => .error "attested body has no GPU evidence"

/-- `check_attested_body`. -/
def checkAttestedBody (body : Bytes) (row : EvidenceRow) (nonceHex : String) :
    Except String PUnit := do
  let body ← required (parts.decode body) "decode attested body"
  ensure ((body.get "nonce").bind Value.asStr == some nonceHex)
    "attested body carries a different nonce"
  ensure ((body.pointer ["evidence", "tdx_quote"]).bind Value.asStr == some row.quote)
    "attested body carries a different TDX quote"
  let gpu ← gpuEvidenceOf parts body
  ensure (gpu.asArray.any fun items => eqItems items row.gpuEvidence)
    "attested body carries different GPU evidence"

/-- `verify_signed_row`. -/
def verifySignedRow (row : EvidenceRow) (nonceHex : String) : Except String SignedEvidence := do
  let der ← required (decodeText row.certificate) "decode attestation proxy certificate"
  let certificate ← required (parts.parseCertificate der) "parse attestation proxy certificate"
  ensure certificate.behind.isEmpty "attestation proxy certificate has trailing bytes"
  ensure certificate.isValid "attestation proxy certificate is outside its validity period"
  ensure certificate.isRsa "attestation proxy certificate does not hold an RSA key"
  let signature ← required row.signature "evidence row is unsigned"
  let signature ← required (decodeText signature) "decode evidence signature"
  let body ← required row.attestedBody "evidence row has no attested body"
  let body ← required (decodeText body) "decode attested body"
  ensure (parts.verifies certificate.publicKey body signature)
    "evidence signature does not verify under the proxy certificate"
  checkAttestedBody parts body row nonceHex
  let quote ← required (decodeText row.quote) "decode TDX quote"
  ensure (decide (0 ≤ certificate.notAfter)) "attestation proxy certificate expires before 1970"
  return ⟨quote, row.gpuEvidence, parts.sha256 certificate.spki, certificate.notAfter.toNat⟩

/-- `check_report_data`. -/
def checkReportData (reportData : Vector UInt8 64) (keyBinding spkiSha256 : Kubetee.Digest) :
    Except String PUnit := do
  ensure (reportData.toList.take 32 == keyBinding.toList)
    "TDX report_data does not bind our nonce and the instance E2E key"
  ensure (reportData.toList.drop 32 == spkiSha256.toList)
    "TDX report_data does not bind the evidence certificate key"

/-! ### Admission -/

/-- One item of `nras_request`. -/
def nrasItem (arch : String) (item : Value) : Except String Value := do
  let own ← required ((item.get "arch").bind Value.asStr) "GPU evidence item is incomplete"
  ensure (eqIgnoreAsciiCase own.toList arch.toList)
    ("GPU evidence is not " ++ arch ++ " as the reference hardware requires")
  let evidence ← required ((item.get "evidence").bind Value.asStr) "GPU evidence item is incomplete"
  let certificate ← required ((item.get "certificate").bind Value.asStr)
    "GPU evidence item is incomplete"
  return .object [("evidence", .string evidence), ("certificate", .string certificate)]

/-- `nras_request`. -/
def nrasRequest (gpuEvidence : List Value) (nonceHex arch : String) : Except String Value := do
  let items ← gpuEvidence.mapM (nrasItem arch)
  return .object [("nonce", .string nonceHex), ("evidence_list", .array items),
    ("arch", .string arch), ("claims_version", .string "3.0")]

variable (entries : List PublishedEntry) (jwks : Jwks) (nonceHex : String)

/-- `admit_instance`: the second at which the evidence expires. -/
def admitInstance (answers : Answers) (inst : DiscoveredInstance) (row : EvidenceRow) :
    Except String Nat := do
  let signed ← verifySignedRow parts row nonceHex
  let claims ← verifyQuote answers.collateral signed.quote
  let td ← tdReport claims.report
  let binding := keyBinding parts nonceHex inst.e2ePubkey
  checkReportData td.reportData binding signed.spkiSha256
  let references ← published entries
  let reference ← matchTd references td
  let arch ← required reference.gpuArch
    ("reference " ++ reference.name ++ " names no known GPU architecture")
  let gpuCount := signed.gpuEvidence.length
  ensure (decide (1 ≤ gpuCount ∧ gpuCount ≤ reference.gpuCount))
    (toString gpuCount ++ " GPUs attested, " ++ reference.name ++ " carries 1..=" ++
      toString reference.gpuCount)
  let gpuNonce := String.ofList (Kubetee.hexEncode binding.toList)
  let request ← nrasRequest signed.gpuEvidence gpuNonce arch
  let response ← answers.attestV4 request
  let gpusExpire ← appraiseV4 parts.nras response jwks gpuNonce gpuCount answers.attestedAt
  let expires := min (min gpusExpire signed.certificateExpires) claims.earliestExpirationDate
  ensure (decide (answers.attestedAt < expires)) "instance evidence expires before admission completes"
  return expires

/-- What an instance's evidence comes to; each instance is judged by the first row of its id. -/
def judge (evidence : List EvidenceRow) (answersFor : DiscoveredInstance → Answers)
    (inst : DiscoveredInstance) : Answer :=
  match evidence.find? fun row => row.instanceId == some inst.instanceId with
  | none => .noRow
  | some row =>
      match admitInstance parts entries jwks nonceHex (answersFor inst) inst row with
      | .ok expires => .expires expires
      | .error cause => .failed cause

/-- The verdicts of a batch, whose evidence and keys were fetched (`LiveChutes::admit`). -/
def admitBatch (anchor : Instant) (anchorWall : Duration) (evidence : List EvidenceRow)
    (answersFor : DiscoveredInstance → Answers) (instances : List DiscoveredInstance) :
    List Verdict :=
  admitAll anchor anchorWall
    (instances.map fun inst =>
      (inst, judge parts entries jwks nonceHex evidence answersFor inst))

end Evidence

/-! ### What an admission rests on -/

/-- The registers of a TD are those that an entry has in hexadecimal digits. -/
structure PublishedEntry.Measures (entry : PublishedEntry) (td : TdReport) : Prop where
  mrtd : hexDecode entry.mrtd.toList = some td.mrTd.toList
  rtmrs : [entry.runtimeRtmrs.rtmr0, entry.runtimeRtmrs.rtmr1, entry.runtimeRtmrs.rtmr2,
      entry.runtimeRtmrs.rtmr3].map (fun digits => hexDecode digits.toList) =
    td.rtMrs.toList.map fun rtmr => some rtmr.toList

/-- Everything that was checked before an instance was admitted. -/
structure Admission (parts : EvidenceParts) (entries : List PublishedEntry) (jwks : Jwks)
    (nonceHex : String) (answers : Answers) (inst : DiscoveredInstance) (row : EvidenceRow) where
  /-- The certificate in the row. -/
  certificate : Certificate
  certified : ∃ der, decodeText row.certificate = some der ∧
    parts.parseCertificate der = some certificate ∧ certificate.behind = []
  current : certificate.isValid = true ∧ certificate.isRsa = true ∧ 0 ≤ certificate.notAfter
  /-- The body in the row, signed there with the certificate's key, is for the nonce, the quote and
  the GPU evidence of the row. -/
  body : Bytes
  given : row.attestedBody.bind decodeText = some body
  signature : Bytes
  sealed : row.signature.bind decodeText = some signature
  signed : parts.verifies certificate.publicKey body signature = true
  attested : Value
  read : parts.decode body = some attested
  forNonce : (attested.get "nonce").bind Value.asStr = some nonceHex
  forQuote : (attested.pointer ["evidence", "tdx_quote"]).bind Value.asStr = some row.quote
  forGpus : ∃ items, gpuEvidenceOf parts attested = .ok (.array items) ∧
    eqItems items row.gpuEvidence = true
  /-- The quote is genuine. -/
  quote : Bytes
  quoted : decodeText row.quote = some quote
  claims : QuoteClaims
  td : TdReport
  genuine : Genuine answers.collateral quote claims td
  /-- Its report data are the key under the nonce, and the certificate's key. -/
  bound : td.reportData.toList = (keyBinding parts nonceHex inst.e2ePubkey).toList ++
    (parts.sha256 certificate.spki).toList
  /-- Its measurements are those of a published entry. -/
  entry : PublishedEntry
  listed : entry ∈ entries
  measured : entry.Measures td
  /-- The GPUs are as many as the entry's or fewer, and of the one architecture of all of those. -/
  gpus : 1 ≤ row.gpuEvidence.length ∧ row.gpuEvidence.length ≤ entry.gpuCount
  arch : String
  ofArch : entry.expectedGpus ≠ [] ∧ ∀ gpu ∈ entry.expectedGpus, archOf gpu = some arch
  evidenceArch : ∀ item ∈ row.gpuEvidence, ∃ own, (item.get "arch").bind Value.asStr = some own ∧
    eqIgnoreAsciiCase own.toList arch.toList = true
  /-- NVIDIA has appraised as many, for a nonce made of the key and the nonce. -/
  gpusExpire : Nat
  appraised : ∃ request response,
    nrasRequest row.gpuEvidence
        (String.ofList (Kubetee.hexEncode (keyBinding parts nonceHex inst.e2ePubkey).toList)) arch =
      .ok request ∧ answers.attestV4 request = .ok response ∧
    appraiseV4 parts.nras response jwks
        (String.ofList (Kubetee.hexEncode (keyBinding parts nonceHex inst.e2ePubkey).toList))
        row.gpuEvidence.length answers.attestedAt = .ok gpusExpire
  unexpired : answers.attestedAt < gpusExpire ∧ answers.attestedAt < certificate.notAfter.toNat ∧
    answers.attestedAt < claims.earliestExpirationDate

section Admission

variable {parts : EvidenceParts} {entries : List PublishedEntry} {jwks : Jwks} {nonceHex : String}
  {answers : Answers} {inst : DiscoveredInstance} {row : EvidenceRow}

/-- The second the first of the pieces of evidence expires at. -/
def Admission.expires (admission : Admission parts entries jwks nonceHex answers inst row) : Nat :=
  min (min admission.gpusExpire admission.certificate.notAfter.toNat)
    admission.claims.earliestExpirationDate

theorem register_eq_ok {hexValue : String} {array : Vector UInt8 48}
    (read : register hexValue = .ok array) : hexDecode hexValue.toList = some array.toList := by
  unfold register at read
  simp only [bind_eq_ok, required_eq_ok] at read
  obtain ⟨bytes, decoded, sized⟩ := read
  rw [decoded, toList_of_tryInto sized]

/-- Every expected GPU is of the one architecture. -/
theorem gpuArch_eq_some {expectedGpus : List String} {arch : String}
    (found : gpuArch expectedGpus = some arch) :
    expectedGpus ≠ [] ∧ ∀ gpu ∈ expectedGpus, archOf gpu = some arch := by
  cases expectedGpus with
  | nil => cases found
  | cons first others =>
      rw [gpuArch, List.map_cons] at found
      cases own : archOf first with
      | none =>
          rw [own] at found
          cases found
      | some arch' =>
          rw [own] at found
          dsimp only at found
          split at found
          · rename_i same
            cases found
            simp only [List.all_map, List.all_eq_true, Function.comp_apply, beq_iff_eq] at same
            exact ⟨List.cons_ne_nil _ _, List.forall_mem_cons.mpr ⟨own, same⟩⟩
          · cases found

/-- A published reference has what its entry says. -/
theorem exists_entry_of_published {references : List Reference} {reference : Reference}
    (parsed : published entries = .ok references) (mem : reference ∈ references) :
    ∃ entry ∈ entries,
      (∀ td : TdReport, reference.mrtd = td.mrTd → reference.rtmrs = td.rtMrs → entry.Measures td) ∧
        reference.gpuArch = gpuArch entry.expectedGpus ∧ reference.gpuCount = entry.gpuCount := by
  obtain ⟨entry, listed, read⟩ := (exists_of_mapM_eq_ok (mapError_eq_ok.mp parsed)).2 reference mem
  unfold parseEntry at read
  simp only [bind_eq_ok] at read
  obtain ⟨mrtd, read, rtmr0, read0, rtmr1, read1, rtmr2, read2, rtmr3, read3, same⟩ := read
  cases same
  refine ⟨entry, listed, fun td ofMrtd ofRtmrs => ⟨?_, ?_⟩, rfl, rfl⟩
  · rw [register_eq_ok read, ← ofMrtd]
  · rw [← ofRtmrs]
    simp [register_eq_ok read0, register_eq_ok read1, register_eq_ok read2, register_eq_ok read3]

/-- The reference matched has the report's measurements. -/
theorem matchTd_eq_ok {references : List Reference} {td : TdReport} {reference : Reference}
    (matched : matchTd references td = .ok reference) :
    reference ∈ references ∧ reference.mrtd = td.mrTd ∧ reference.rtmrs = td.rtMrs := by
  unfold matchTd at matched
  split at matched
  · rename_i found held
    cases matched
    have same := List.find?_some held
    rw [Bool.and_eq_true, beq_iff_eq, beq_iff_eq] at same
    exact ⟨List.mem_of_find?_eq_some held, same⟩
  · dsimp only at matched
    split at matched <;> cases matched

theorem checkReportData_eq_ok {reportData : Vector UInt8 64} {binding spki : Kubetee.Digest}
    (checked : checkReportData reportData binding spki = .ok ⟨⟩) :
    reportData.toList = binding.toList ++ spki.toList := by
  unfold checkReportData at checked
  simp only [bind_eq_ok, ensure_eq_ok, beq_iff_eq] at checked
  obtain ⟨-, first, second⟩ := checked
  rw [← first, ← second, List.take_append_drop]

/-- A row that was verified is signed for the nonce and its own quote. -/
theorem verifySignedRow_eq_ok {signed : SignedEvidence}
    (verified : verifySignedRow parts row nonceHex = .ok signed) :
    ∃ (certificate : Certificate) (body signature : Bytes) (attested : Value),
      (∃ der, decodeText row.certificate = some der ∧
        parts.parseCertificate der = some certificate ∧ certificate.behind = []) ∧
      (certificate.isValid = true ∧ certificate.isRsa = true ∧ 0 ≤ certificate.notAfter) ∧
      row.attestedBody.bind decodeText = some body ∧
      row.signature.bind decodeText = some signature ∧
      parts.verifies certificate.publicKey body signature = true ∧
      parts.decode body = some attested ∧ (attested.get "nonce").bind Value.asStr = some nonceHex ∧
      (attested.pointer ["evidence", "tdx_quote"]).bind Value.asStr = some row.quote ∧
      (∃ items, gpuEvidenceOf parts attested = .ok (.array items) ∧
        eqItems items row.gpuEvidence = true) ∧
      decodeText row.quote = some signed.quote ∧ signed.gpuEvidence = row.gpuEvidence ∧
      signed.spkiSha256 = parts.sha256 certificate.spki ∧
      signed.certificateExpires = certificate.notAfter.toNat := by
  unfold verifySignedRow at verified
  simp only [bind_eq_ok, required_eq_ok, ensure_eq_ok] at verified
  obtain ⟨der, decoded, certificate, parsed, -, clean, -, valid, -, rsa, sealed, isSealed, signature,
    sealedText, given, isGiven, body, givenText, -, signs, ⟨⟩, checked, quote, quoted, -, notAfter,
    same⟩ := verified
  unfold checkAttestedBody at checked
  simp only [bind_eq_ok, required_eq_ok, ensure_eq_ok, beq_iff_eq] at checked
  obtain ⟨attested, read, -, forNonce, -, forQuote, gpu, found, same'⟩ := checked
  obtain ⟨items, isArray, equal⟩ := (Option.any_eq_true _ _).mp same'
  cases same
  refine ⟨certificate, body, signature, attested, ⟨der, decoded, parsed, List.isEmpty_iff.mp clean⟩,
    ⟨valid, rsa, of_decide_eq_true notAfter⟩, Option.bind_eq_some_iff.mpr ⟨given, isGiven, givenText⟩,
    Option.bind_eq_some_iff.mpr ⟨sealed, isSealed, sealedText⟩, signs, read, forNonce, forQuote,
    ⟨items, ?_, equal⟩, quoted, rfl, rfl, rfl⟩
  rw [found, Value.asArray_eq_some.mp isArray]

/-- Every item of a request is of its architecture. -/
theorem nrasRequest_arch {gpuEvidence : List Value} {gpuNonce arch : String} {request : Value}
    (requested : nrasRequest gpuEvidence gpuNonce arch = .ok request) :
    ∀ item ∈ gpuEvidence, ∃ own, (item.get "arch").bind Value.asStr = some own ∧
      eqIgnoreAsciiCase own.toList arch.toList = true := by
  intro item mem
  obtain ⟨items, each, -⟩ := bind_eq_ok.mp requested
  obtain ⟨_, -, given⟩ := (exists_of_mapM_eq_ok each).1 item mem
  unfold nrasItem at given
  simp only [bind_eq_ok, required_eq_ok, ensure_eq_ok] at given
  obtain ⟨own, named, -, same, -⟩ := given
  exact ⟨own, named, same⟩

/-- An instance is admitted by evidence alone, and until the first piece of it expires. -/
theorem exists_admission {expires : Nat}
    (admitted : admitInstance parts entries jwks nonceHex answers inst row = .ok expires) :
    ∃ admission : Admission parts entries jwks nonceHex answers inst row,
      admission.expires = expires := by
  unfold admitInstance at admitted
  simp only [bind_eq_ok, required_eq_ok, ensure_eq_ok, decide_eq_true_eq] at admitted
  obtain ⟨signed, verified, claims, quoteVerified, td, report, ⟨⟩, checked, references, parsed,
    reference, matched, arch, ofArch, -, gpus, request, requested, response, answered, gpusExpire,
    appraised, -, unexpired, same⟩ := admitted
  cases same
  obtain ⟨certificate, body, signature, attested, certified, current, given, sealed, signs, read,
    forNonce, forQuote, forGpus, quoted, sameGpus, spki, certificateExpires⟩ :=
    verifySignedRow_eq_ok verified
  obtain ⟨ofReferences, mrtd, rtmrs⟩ := matchTd_eq_ok matched
  obtain ⟨entry, listed, measures, archs, count⟩ := exists_entry_of_published parsed ofReferences
  rw [spki] at checked
  rw [certificateExpires, lt_min_iff, lt_min_iff] at unexpired
  rw [sameGpus] at gpus requested appraised
  rw [count] at gpus
  exact ⟨⟨certificate, certified, current, body, given, signature, sealed, signs, attested, read,
    forNonce, forQuote, forGpus,
    signed.quote, quoted, claims, td, genuine_of_verifyQuote quoteVerified report,
    checkReportData_eq_ok checked, entry, listed, measures td mrtd rtmrs, gpus, arch,
    gpuArch_eq_some (archs ▸ ofArch), nrasRequest_arch requested, gpusExpire,
    ⟨request, response, requested, answered, appraised⟩, unexpired.1.1, unexpired.1.2, unexpired.2⟩,
    by rw [certificateExpires, Admission.expires]⟩

end Admission

/-- Every instance of a batch gets one verdict, in its place, and an admission among them rests on
evidence under the instance's own id, and lasts until the first piece of that evidence expires. -/
theorem batch_admits_by_evidence (parts : EvidenceParts) (entries : List PublishedEntry) (jwks : Jwks)
    (nonceHex : String) (anchor : Instant) (anchorWall : Duration) (evidence : List EvidenceRow)
    (answersFor : DiscoveredInstance → Answers) (instances : List DiscoveredInstance) :
    (admitBatch parts entries jwks nonceHex anchor anchorWall evidence answersFor instances).map
        Verdict.key = instances.map DiscoveredInstance.key ∧
      ∀ verdict ∈ admitBatch parts entries jwks nonceHex anchor anchorWall evidence answersFor instances,
        ∀ untilAt, verdict.outcome = .admitted untilAt →
          ∃ inst ∈ instances, verdict.key = inst.key ∧
            ∃ row ∈ evidence, row.instanceId = some inst.instanceId ∧
              ∃ admission : Admission parts entries jwks nonceHex (answersFor inst) inst row,
                untilAt = deadline anchor anchorWall admission.expires := by
  constructor
  · simp only [admitBatch, admitAll, List.map_map]
    rfl
  · intro verdict mem untilAt admitted
    simp only [admitBatch, admitAll, List.map_map, List.mem_map] at mem
    obtain ⟨inst, listed, rfl⟩ := mem
    refine ⟨inst, listed, rfl, ?_⟩
    simp only [Function.comp_apply, judge] at admitted
    split at admitted
    · cases admitted
    · rename_i row found
      cases checked : admitInstance parts entries jwks nonceHex (answersFor inst) inst row with
      | error cause =>
          rw [checked] at admitted
          cases admitted
      | ok expires =>
          rw [checked] at admitted
          cases admitted
          obtain ⟨admission, rfl⟩ := exists_admission checked
          have own := List.find?_some found
          rw [beq_iff_eq] at own
          exact ⟨row, List.mem_of_find?_eq_some found, own, admission, rfl⟩

/-! ### One quote, one key -/

section Admissions

variable {parts : EvidenceParts} {entries entries' : List PublishedEntry} {jwks jwks' : Jwks}
  {nonce nonce' : Kubetee.Digest} {answers answers' : Answers} {inst inst' : DiscoveredInstance}
  {row row' : EvidenceRow}

/-- A quote admits one key under one nonce: one that admitted an instance never admits another, and not
the same again under a later nonce, short of a collision of the texts whose digests it holds. -/
theorem one_quote_admits_one_key
    (first : Admission parts entries jwks (nonceText nonce) answers inst row)
    (second : Admission parts entries' jwks' (nonceText nonce') answers' inst' row')
    (sameQuote : row.quote = row'.quote)
    (alike : answers.collateral.ReadsAlike answers'.collateral) :
    (nonce = nonce' ∧ inst.e2ePubkey = inst'.e2ePubkey) ∨
      Collide parts.sha256 (asBytes (nonceText nonce) ++ asBytes inst.e2ePubkey)
        (asBytes (nonceText nonce') ++ asBytes inst'.e2ePubkey) := by
  have quotes : first.quote = second.quote := by
    have quoted := first.quoted
    rw [sameQuote, second.quoted] at quoted
    exact (Option.some.inj quoted).symm
  have tds : first.td = second.td := first.genuine.same_report (quotes ▸ second.genuine) alike
  have halves : (keyBinding parts (nonceText nonce) inst.e2ePubkey).toList ++ _ =
      (keyBinding parts (nonceText nonce') inst'.e2ePubkey).toList ++ _ :=
    first.bound.symm.trans ((congrArg (fun td => td.reportData.toList) tds).trans second.bound)
  have digests := (List.append_inj halves (by rw [Vector.length_toList, Vector.length_toList])).1
  have hashed : parts.sha256 (asBytes (nonceText nonce) ++ asBytes inst.e2ePubkey) =
      parts.sha256 (asBytes (nonceText nonce') ++ asBytes inst'.e2ePubkey) :=
    Vector.toList_inj.mp digests
  rcases eq_or_collide hashed with texts | collision
  · exact .inl (nonceText_append_inj texts)
  · exact .inr collision

end Admissions

/-! ### A small batch -/

def zeroNonce : Kubetee.Digest := Vector.replicate 32 0

/-- SHA-256 of the nonce and the key `key`. -/
def smallBinding : Kubetee.Digest :=
  #v[82, 197, 208, 184, 21, 235, 80, 1, 34, 160, 116, 182, 141, 58, 246, 122, 57, 16, 213, 232, 214,
    248, 66, 39, 94, 194, 225, 110, 35, 118, 149, 178]

/-- SHA-256 of the certificate's key. -/
def smallSpkiDigest : Kubetee.Digest :=
  #v[228, 246, 13, 10, 166, 215, 243, 211, 182, 166, 73, 75, 28, 134, 27, 153, 246, 73, 198, 249, 236,
    81, 171, 175, 32, 27, 32, 242, 151, 50, 124, 149]

def smallGpu : Value :=
  .object [("arch", .string "HOPPER"), ("evidence", .string "e"), ("certificate", .string "c")]

/-- The claims of every token. -/
def smallClaims : Value :=
  .object ([("alg", .string "ES384"), ("kid", .string "k"), ("iss", .string nrasOrigin),
    ("eat_nonce", .string (nonceText smallBinding)), ("exp", .number (.posInt 100)),
    ("measres", .string "success"), ("secboot", .bool true), ("dbgstat", .string "disabled"),
    ("x-nvidia-overall-att-result", .bool true),
    ("submods", .object [("GPU-0", .array [.null, .array [.null, .string ""]]),
      ("GPU-1", .array [.null, .array [.null, .string ""]])])] ++
    requiredGpuClaims.map fun name => (name, .bool true))

def smallBody (gpus : List Value) : Value :=
  .object [("nonce", .string (nonceText zeroNonce)),
    ("evidence", .object [("tdx_quote", .string ""), ("nvtrust_evidence", .array gpus)])]

/-- The empty body is of one GPU, every other one of two. -/
def smallEvidence : EvidenceParts where
  sha256 bytes := if bytes = [48, 0] then smallSpkiDigest else smallBinding
  decode bytes := some (smallBody (if bytes = [] then [smallGpu] else [smallGpu, smallGpu]))
  parseCertificate _ := some ⟨[], true, true, [], [48, 0], 100⟩
  verifies _ _ _ := true
  nras := ⟨fun _ => [], fun _ => some smallClaims, fun _ _ _ => true⟩

def smallTd : TdReport :=
  ⟨Vector.replicate 8 0, Vector.replicate 48 0, Vector.replicate 48 0,
    Vector.replicate 4 (Vector.replicate 48 0), smallBinding ++ smallSpkiDigest⟩

/-- NVIDIA's answer, at that second, on so many GPUs. -/
def smallAnswers (gpus : List String) (attestedAt : Nat) : Answers where
  collateral := ⟨fun _ => .ok ⟨.td10 smallTd, "UpToDate", "UpToDate", 50⟩, fun _ _ => true, 1⟩
  attestV4 _ := .ok (.array [.array [.string "JWT", .string ".."],
    .object (gpus.map fun name => (name, .string ".."))])
  attestedAt := attestedAt

def zeroRegister : String := String.ofList (List.replicate 96 '0')

def smallEntry : PublishedEntry :=
  ⟨"1", "8xh100", zeroRegister, ⟨zeroRegister, zeroRegister, zeroRegister, zeroRegister⟩, ["h100"], 8⟩

def smallRow : EvidenceRow := ⟨some "inst", "", [smallGpu], "", some "", some ""⟩

/-- The same quote under another id, with more evidence in another body. -/
def otherRow : EvidenceRow := ⟨some "other", "", [smallGpu, smallGpu], "", some "", some "AAAA"⟩

/-- Four zero registers, and a known architecture. -/
def smallReference : Reference :=
  ⟨"1", "8xh100", Vector.replicate 48 0, Vector.replicate 4 (Vector.replicate 48 0), some "HOPPER", 8⟩

theorem published_small : published [smallEntry] = .ok [smallReference] := by
  have zeros : register zeroRegister = .ok (Vector.replicate 48 0) := by
    have digits : zeroRegister.toList = List.replicate 96 '0' := String.toList_ofList
    unfold register
    simp only [digits]
    rfl
  have entry : parseEntry smallEntry = .ok smallReference := by
    refine bind_eq_ok.mpr ⟨_, zeros, bind_eq_ok.mpr ⟨_, zeros, bind_eq_ok.mpr ⟨_, zeros,
      bind_eq_ok.mpr ⟨_, zeros, bind_eq_ok.mpr ⟨_, zeros, ?_⟩⟩⟩⟩⟩
    rfl
  unfold published
  rewrite [List.mapM_cons, List.mapM_nil, entry]
  rfl

/-- Every token carries the claims. -/
theorem verified_smallClaims :
    Jwks.verify smallEvidence.nras ⟨[("k", [])]⟩ ".." = .ok smallClaims := by
  have dots : "..".toList = ['.', '.'] := by decide
  have algorithm : (smallClaims.textOf "alg" == some "ES384") = true := rfl
  have kid : smallClaims.textOf "kid" = some "k" := rfl
  unfold Jwks.verify
  simp only [bind_eq_ok, required_eq_ok, ensure_eq_ok, decodeClaims_eq_ok, dots]
  exact ⟨_, rfl, _, rfl, smallClaims, ⟨[], rfl, rfl⟩, ⟨⟩, algorithm, "k", kid, [], rfl, [], rfl, ⟨⟩,
    rfl, [], rfl, rfl⟩

theorem expiry_smallClaims {now : Nat} (early : now < 100) :
    tokenExpiry smallClaims (nonceText smallBinding) now = .ok 100 := by
  have issuer : (smallClaims.textOf "iss" == some nrasOrigin) = true := rfl
  have nonce : smallClaims.textOf "eat_nonce" = some (nonceText smallBinding) := rfl
  unfold tokenExpiry
  simp only [bind_eq_ok, required_eq_ok, ensure_eq_ok]
  exact ⟨⟨⟩, issuer, _, nonce, ⟨⟩, beq_self_eq_true _, 100, rfl, ⟨⟩, decide_eq_true early, rfl⟩

/-- What the claims commit to. -/
def smallDigests : List (String × Value) :=
  [("GPU-0", .array [.null, .array [.null, .string ""]]),
    ("GPU-1", .array [.null, .array [.null, .string ""]])]

/-- A token of either GPU is taken. -/
theorem taken_small {now : Nat} (early : now < 100) : ∀ name ∈ ["GPU-0", "GPU-1"],
    appraiseToken smallEvidence.nras ⟨[("k", [])]⟩ (nonceText smallBinding) now smallDigests 100
      (name, .string "..") = .ok 100 := by
  have committed : ∀ name ∈ ["GPU-0", "GPU-1"],
      ((smallDigests.lookup name).bind (Value.pointer ["1", "1"])).bind Value.asStr = some "" := by
    decide
  have digest : eqIgnoreAsciiCase "".toList
      (Kubetee.hexEncode (smallEvidence.nras.sha256 (asBytes ".."))) = true := rfl
  have passes : appraiseGpu smallClaims = .ok () := rfl
  intro name mem
  unfold appraiseToken
  simp only [bind_eq_ok, required_eq_ok, ensure_eq_ok, mapError_eq_ok]
  exact ⟨"..", rfl, "", committed name mem, ⟨⟩, digest, smallClaims, verified_smallClaims, 100,
    expiry_smallClaims early, ⟨⟩, passes, rfl⟩

theorem appraised_small {gpus : List String} (known : ∀ name ∈ gpus, name ∈ ["GPU-0", "GPU-1"])
    {now : Nat} (early : now < 100) :
    appraiseV4 smallEvidence.nras (.array [.array [.string "JWT", .string ".."],
      .object (gpus.map fun name => (name, .string ".."))]) ⟨[("k", [])]⟩ (nonceText smallBinding)
      gpus.length now = .ok 100 := by
  have folded : (gpus.map fun name => (name, Value.string "..")).foldlM
      (appraiseToken smallEvidence.nras ⟨[("k", [])]⟩ (nonceText smallBinding) now smallDigests)
        100 = .ok 100 := by
    induction gpus with
    | nil => rfl
    | cons name rest ih =>
        rw [List.map_cons, List.foldlM_cons, taken_small early name (known name List.mem_cons_self)]
        exact ih fun other mem => known other (List.mem_cons_of_mem _ mem)
  have succeeded : requireOverallSuccess smallClaims = .ok () := rfl
  unfold appraiseV4
  simp only [bind_eq_ok, required_eq_ok, ensure_eq_ok, mapError_eq_ok]
  exact ⟨_, rfl, ⟨⟩, by simp, smallClaims, verified_smallClaims, 100, expiry_smallClaims early, ⟨⟩,
    succeeded, smallDigests, rfl, folded⟩

theorem keyBinding_small : keyBinding smallEvidence (nonceText zeroNonce) "key" = smallBinding := by
  change (if asBytes (nonceText zeroNonce) ++ asBytes "key" = [48, 0] then smallSpkiDigest
    else smallBinding) = smallBinding
  refine if_neg fun same => ?_
  have first := congrArg (fun bytes => bytes[1]?) same
  rw [asBytes_eq_flatMap, nonceText, String.toList_ofList] at first
  exact absurd first (by decide)

/-- A signed row for the key is admitted if NVIDIA answers on as many GPUs as it has. -/
theorem admits_small {row : EvidenceRow} {evidence : List Value} {gpus : List String}
    {inst : DiscoveredInstance} {now : Nat} {request : Value}
    (signed : verifySignedRow smallEvidence row (nonceText zeroNonce) =
      .ok ⟨[], evidence, smallSpkiDigest, 100⟩)
    (key : inst.e2ePubkey = "key") (count : evidence.length = gpus.length)
    (few : 1 ≤ evidence.length ∧ evidence.length ≤ 8)
    (known : ∀ name ∈ gpus, name ∈ ["GPU-0", "GPU-1"]) (early : now < 50)
    (asked : nrasRequest evidence (nonceText smallBinding) "HOPPER" = .ok request) :
    admitInstance smallEvidence [smallEntry] ⟨[("k", [])]⟩ (nonceText zeroNonce)
      (smallAnswers gpus now) inst row = .ok 50 := by
  have reports : checkReportData smallTd.reportData smallBinding smallSpkiDigest = .ok () := rfl
  have matched : matchTd [smallReference] smallTd = .ok smallReference := by
    have mrtd : (smallReference.mrtd == smallTd.mrTd) = true := beq_self_eq_true _
    have rtmrs : (smallReference.rtmrs == smallTd.rtMrs) = true := beq_self_eq_true _
    unfold matchTd
    rw [List.find?_cons, mrtd, rtmrs]
    rfl
  have appraised := appraised_small known (early.trans (by decide : 50 < 100))
  unfold admitInstance
  refine bind_eq_ok.mpr ⟨_, signed, bind_eq_ok.mpr ⟨_, rfl, bind_eq_ok.mpr ⟨smallTd, rfl, ?_⟩⟩⟩
  dsimp only
  rw [key, keyBinding_small]
  refine bind_eq_ok.mpr ⟨_, reports, bind_eq_ok.mpr ⟨_, published_small, bind_eq_ok.mpr
    ⟨_, matched, bind_eq_ok.mpr ⟨"HOPPER", rfl, bind_eq_ok.mpr ⟨⟨⟩, ?_, bind_eq_ok.mpr
      ⟨_, asked, bind_eq_ok.mpr ⟨_, rfl, bind_eq_ok.mpr ⟨100, ?_, bind_eq_ok.mpr
        ⟨⟨⟩, ?_, rfl⟩⟩⟩⟩⟩⟩⟩⟩⟩
  · exact ensure_eq_ok.mpr (decide_eq_true few)
  · rw [count]
    exact appraised
  · exact ensure_eq_ok.mpr (decide_eq_true early)

theorem smallRow_admits :
    admitInstance smallEvidence [smallEntry] ⟨[("k", [])]⟩ (nonceText zeroNonce)
      (smallAnswers ["GPU-0"] 2) ⟨"inst", "key", ["nonce"]⟩ smallRow = .ok 50 :=
  admits_small rfl rfl rfl (by decide) (by decide) (by decide) rfl

theorem otherRow_admits :
    admitInstance smallEvidence [smallEntry] ⟨[("k", [])]⟩ (nonceText zeroNonce)
      (smallAnswers ["GPU-0", "GPU-1"] 3) ⟨"other", "key", []⟩ otherRow = .ok 50 :=
  admits_small rfl rfl rfl (by decide) (by decide) (by decide) rfl

/-- Two instances with one key, admitted on one quote at different seconds. -/
theorem one_quote_admits_one_key_small :
    (zeroNonce = zeroNonce ∧ "key" = "key") ∨
      Collide smallEvidence.sha256 (asBytes (nonceText zeroNonce) ++ asBytes "key")
        (asBytes (nonceText zeroNonce) ++ asBytes "key") := by
  obtain ⟨admission, -⟩ := exists_admission smallRow_admits
  obtain ⟨other, -⟩ := exists_admission otherRow_admits
  refine one_quote_admits_one_key admission other rfl fun _ _ _ read read' => ?_
  rw [Except.ok.inj (read.symm.trans read')]

end GmMiner.Chutes
