import GmMiner.Kubetee.Binding
import GmMiner.Lib.Base64
import GmMiner.Lib.Split
import Mathlib.Order.Bounds.Basic

/-!
NVIDIA's attestation verdicts (`attestd/src/tee_evidence/nras.rs`).

A v4 response is an aggregate token and a token for each GPU. What is accepted was signed throughout,
and the aggregate names each of the others by its digest (`Appraised`). A token's claims are read
twice, where its signature is verified and by `unverified_claims`, which cut it differently; both
find the same payload since no letter of base 64 is the separator (`unverifiedClaims_of_verify`).

The signature scheme, SHA-256 and the syntax of JSON are parameters.
-/

namespace GmMiner.TeeEvidence

open GmMiner.Lib GmMiner.Json

/-- The libraries that are called. -/
structure Externals where
  sha256 : Bytes → Bytes
  /-- `serde_json::from_slice`. -/
  decode : Bytes → Option Value
  /-- `ECDSA_P384_SHA384_FIXED`: whether a key signs a text. -/
  verifies : (key text signature : Bytes) → Bool

/-- `NRAS_ORIGIN`. -/
def nrasOrigin : String := "https://nras.attestation.nvidia.com"

/-- `REQUIRED_GPU_CLAIMS`. -/
def requiredGpuClaims : List String :=
  ["x-nvidia-gpu-attestation-report-signature-verified",
    "x-nvidia-gpu-attestation-report-nonce-match",
    "x-nvidia-gpu-arch-check",
    "x-nvidia-gpu-attestation-report-cert-chain-fwid-match",
    "x-nvidia-gpu-driver-rim-signature-verified",
    "x-nvidia-gpu-driver-rim-version-match",
    "x-nvidia-gpu-driver-rim-measurements-available",
    "x-nvidia-gpu-vbios-rim-signature-verified",
    "x-nvidia-gpu-vbios-rim-version-match",
    "x-nvidia-gpu-vbios-rim-measurements-available"]

/-- The alphabet of `URL_SAFE_NO_PAD`. -/
def sextet (c : Char) : Option Nat :=
  if 'A' ≤ c ∧ c ≤ 'Z' then some (c.toNat - 65)
  else if 'a' ≤ c ∧ c ≤ 'z' then some (c.toNat - 71)
  else if '0' ≤ c ∧ c ≤ '9' then some (c.toNat + 4)
  else if c = '-' then some 62
  else if c = '_' then some 63
  else none

/-- What `URL_SAFE_NO_PAD` writes for a value. -/
def letterOf (n : Nat) : Char :=
  if n < 26 then Char.ofNat (n + 65)
  else if n < 52 then Char.ofNat (n + 71)
  else if n < 62 then Char.ofNat (n - 4)
  else if n = 62 then '-'
  else '_'

/-- The decoder reads every letter of the alphabet back. -/
theorem sextet_letterOf : ∀ n < 64, sextet (letterOf n) = some n := by
  decide

/-- `str::eq_ignore_ascii_case`. -/
def eqIgnoreAsciiCase (text other : List Char) : Bool :=
  text.map Char.toLower == other.map Char.toLower

def asBool : Value → Option Bool
  | .bool b => some b
  | _ => none

/-- The keys of NVIDIA's that are listed, by their ids. -/
structure Jwks where
  keys : List (String × Bytes)

section Claims

variable (external : Externals)

def decodeClaims (part : List Char) (failure : String) : Except String Value := do
  let bytes ← required (Base64.decode sextet part) ("decode " ++ failure)
  required (external.decode bytes) ("parse " ++ failure)

def unverifiedClaims (token : String) : Except String Value := do
  let payload ← required (token.toList.splitOn '.')[1]? "NVIDIA NRAS verdict is not a JWT"
  decodeClaims external payload "NVIDIA NRAS verdict payload"

/-- `Jwks::verify`. -/
def Jwks.verify (jwks : Jwks) (token : String) : Except String Value := do
  let (signed, signature) ← required (rsplitOnce '.' token.toList)
    "NVIDIA token is not a compact JWT"
  let (header, payload) ← required (KeyedLines.splitOnce '.' signed)
    "NVIDIA token is not a compact JWT"
  let header ← decodeClaims external header "NVIDIA token header"
  ensure (header.textOf "alg" == some "ES384") "NVIDIA token is not ES384"
  let kid ← required (header.textOf "kid") "NVIDIA token header has no kid"
  let key ← required (jwks.keys.lookup kid) ("NVIDIA token kid " ++ kid ++ " is not in the JWKS")
  let signature ← required (Base64.decode sextet signature) "decode NVIDIA token signature"
  ensure (external.verifies key (asBytes (String.ofList signed)) signature)
    "NVIDIA token signature is invalid"
  let bytes ← required (Base64.decode sextet payload) "decode NVIDIA token"
  required (external.decode bytes) "parse NVIDIA token claims"

def requireOverallSuccess (claims : Value) : Except String PUnit :=
  ensure ((claims.get "x-nvidia-overall-att-result").bind asBool == some true)
    "NVIDIA NRAS did not return a successful GPU attestation verdict"

def splitV4 (response : Value) : Except String (String × List (String × Value)) := do
  let outer ← required (response.asArray.filter fun outer => outer.length == 2)
    "NRAS v4 response is not [aggregate, per-GPU]"
  let pair := (outer[0]?.bind Value.asArray).filter fun pair =>
    pair.length == 2 && (pair[0]?.bind Value.asStr) == some "JWT"
  let aggregate ← required (pair.bind fun pair => pair[1]?.bind Value.asStr)
    "NRAS v4 response has no aggregate JWT"
  let gpus ← required (outer[1]?.bind Value.asObject)
    "NRAS v4 response has no per-GPU verdicts"
  return (aggregate, gpus)

def tokenExpiry (claims : Value) (nonceHex : String) (now : Nat) : Except String Nat := do
  ensure (claims.textOf "iss" == some nrasOrigin) ("NRAS token issuer is not " ++ nrasOrigin)
  let nonce ← required (claims.textOf "eat_nonce") "NRAS token has no eat_nonce"
  ensure (eqIgnoreAsciiCase nonce.toList nonceHex.toList)
    "NRAS token nonce does not match the attested nonce"
  let expires ← required ((claims.get "exp").bind Value.asU64) "NRAS token has no exp"
  ensure (decide (now < expires)) ("NRAS token expired at " ++ toString expires)
  return expires

def appraiseGpu (claims : Value) : Except String PUnit := do
  ensure (claims.textOf "measres" == some "success") "GPU measurement result is not success"
  ensure ((claims.get "secboot").bind asBool == some true) "GPU secure boot is not on"
  ensure (claims.textOf "dbgstat" == some "disabled") "GPU debug is not disabled"
  requiredGpuClaims.forM fun name =>
    ensure ((claims.get name).bind asBool == some true) ("GPU claim " ++ name ++ " is not true")

/-- One turn of the loop of `appraise_v4`, with the expiry so far. -/
def appraiseToken (jwks : Jwks) (nonceHex : String) (now : Nat) (digests : List (String × Value))
    (expires : Nat) : String × Value → Except String Nat
  | (name, token) => do
      let token ← required token.asStr ("NRAS verdict " ++ name ++ " is not a token")
      let committed ← required
        (((digests.lookup name).bind (Value.pointer ["1", "1"])).bind Value.asStr)
        ("NRAS aggregate commits to no digest for " ++ name)
      ensure (eqIgnoreAsciiCase committed.toList
          (Kubetee.hexEncode (external.sha256 (asBytes token))))
        ("NRAS verdict " ++ name ++ " differs from the digest in the aggregate token")
      let claims ← (jwks.verify external token).mapError fun error =>
        "verify NRAS verdict " ++ name ++ ": " ++ error
      let own ← tokenExpiry claims nonceHex now
      (appraiseGpu claims).mapError fun error => "NRAS verdict " ++ name ++ ": " ++ error
      return min expires own

def appraiseV4 (response : Value) (jwks : Jwks) (nonceHex : String) (gpuCount now : Nat) :
    Except String Nat := do
  let (aggregate, gpuTokens) ← splitV4 response
  ensure (gpuTokens.length == gpuCount)
    ("NRAS returned " ++ toString gpuTokens.length ++ " GPU verdicts for " ++ toString gpuCount ++
      " submitted GPUs")
  let claims ← (jwks.verify external aggregate).mapError fun error =>
    "verify NRAS aggregate token: " ++ error
  let expires ← tokenExpiry claims nonceHex now
  requireOverallSuccess claims
  let digests ← required ((claims.get "submods").bind Value.asObject)
    "NRAS aggregate token has no submods"
  gpuTokens.foldlM (appraiseToken external jwks nonceHex now digests) expires

end Claims

/-! ### Tokens -/

/-- A compact JWT. -/
structure CompactJwt where
  header : List Char
  payload : List Char
  signature : List Char

namespace CompactJwt

variable (jwt : CompactJwt)

def signedText : List Char := jwt.header ++ '.' :: jwt.payload

def text : List Char := jwt.signedText ++ '.' :: jwt.signature

variable (external : Externals)

/-- A listed key signs the token, with these claims. -/
def VerifiesUnder (jwks : Jwks) (claims : Value) : Prop :=
  ∃ headerBytes header kid key signatureBytes bytes,
    Base64.decode sextet jwt.header = some headerBytes ∧ external.decode headerBytes = some header ∧
      header.textOf "alg" = some "ES384" ∧ header.textOf "kid" = some kid ∧
        jwks.keys.lookup kid = some key ∧
          Base64.decode sextet jwt.signature = some signatureBytes ∧
            external.verifies key (asBytes (String.ofList jwt.signedText)) signatureBytes = true ∧
              Base64.decode sextet jwt.payload = some bytes ∧ external.decode bytes = some claims

end CompactJwt

section Tokens

variable {external : Externals}

/-- A part that decodes has no dot, so the dots of a token are its separators. -/
theorem dot_not_mem_of_decode {text : List Char} {bytes : Bytes}
    (decoded : Base64.decode sextet text = some bytes) : '.' ∉ text := by
  intro mem
  have letter := Base64.letters_of_decode sextet decoded '.' mem
  have none : sextet '.' = Option.none := by decide
  rw [none] at letter
  cases letter

/-- Claims are read from a part that is base64url without padding and strict JSON. -/
theorem decodeClaims_eq_ok {part : List Char} {failure : String} {claims : Value} :
    decodeClaims external part failure = .ok claims ↔
      ∃ bytes, Base64.decode sextet part = some bytes ∧ external.decode bytes = some claims := by
  unfold decodeClaims
  simp only [bind_eq_ok, required_eq_ok]

/-- What is verified is a compact token a listed key signs. -/
theorem verify_inv {jwks : Jwks} {token : String} {claims : Value}
    (verified : jwks.verify external token = .ok claims) :
    ∃ jwt : CompactJwt, token.toList = jwt.text ∧ jwt.VerifiesUnder external jwks claims := by
  unfold Jwks.verify at verified
  simp only [bind_eq_ok, required_eq_ok, ensure_eq_ok, decodeClaims_eq_ok, beq_iff_eq] at verified
  obtain ⟨⟨signed, signature⟩, atLast, ⟨header, payload⟩, atFirst, head,
    ⟨headerBytes, headerDecoded, headerRead⟩, -, algorithm, kid, named, key, listed,
    signatureBytes, signatureDecoded, -, signs, bytes, payloadDecoded, read⟩ := verified
  obtain ⟨whole, -⟩ := rsplitOnce_eq_some.mp atLast
  obtain ⟨rfl, -⟩ := splitOnce_eq_some.mp atFirst
  exact ⟨⟨header, payload, signature⟩, whole, headerBytes, head, kid, key, signatureBytes, bytes,
    headerDecoded, headerRead, algorithm, named, listed, signatureDecoded, signs, payloadDecoded,
    read⟩

/-- A compact token that verifies under the key set is accepted with its claims. -/
theorem verify_of_verifiesUnder {jwks : Jwks} {jwt : CompactJwt} {claims : Value}
    (verifies : jwt.VerifiesUnder external jwks claims) :
    jwks.verify external (String.ofList jwt.text) = .ok claims := by
  obtain ⟨headerBytes, head, kid, key, signatureBytes, bytes, headerDecoded, headerRead, algorithm,
    named, listed, signatureDecoded, signs, payloadDecoded, read⟩ := verifies
  -- The dots are those between the parts, as no part that decodes has one.
  have atLast : rsplitOnce '.' jwt.text = some (jwt.signedText, jwt.signature) :=
    rsplitOnce_eq_some.mpr ⟨rfl, dot_not_mem_of_decode signatureDecoded⟩
  have atFirst : KeyedLines.splitOnce '.' jwt.signedText = some (jwt.header, jwt.payload) :=
    splitOnce_eq_some.mpr ⟨rfl, dot_not_mem_of_decode headerDecoded⟩
  unfold Jwks.verify
  rw [String.toList_ofList]
  simp only [bind_eq_ok, required_eq_ok, ensure_eq_ok, decodeClaims_eq_ok, beq_iff_eq]
  exact ⟨_, atLast, _, atFirst, head, ⟨headerBytes, headerDecoded, headerRead⟩, ⟨⟩, algorithm, kid,
    named, key, listed, signatureBytes, signatureDecoded, ⟨⟩, signs, bytes, payloadDecoded, read⟩

/-- A token that is cut at every separator has the payload second. -/
theorem CompactJwt.splitOn_text {jwt : CompactJwt} {jwks : Jwks} {claims : Value}
    (verifies : jwt.VerifiesUnder external jwks claims) :
    (jwt.text.splitOn '.')[1]? = some jwt.payload := by
  obtain ⟨_, _, _, _, _, _, headerDecoded, -, -, -, -, -, -, payloadDecoded, -⟩ := verifies
  have shape : jwt.text = jwt.header ++ '.' :: (jwt.payload ++ '.' :: jwt.signature) := by
    simp [text, signedText]
  rw [shape, List.splitOn_append_cons_self_of_not_mem (dot_not_mem_of_decode headerDecoded),
    List.splitOn_append_cons_self_of_not_mem (dot_not_mem_of_decode payloadDecoded)]
  rfl

/-- Both readers of a token find the same claims. -/
theorem unverifiedClaims_of_verify {jwks : Jwks} {token : String} {claims : Value}
    (verified : jwks.verify external token = .ok claims) :
    unverifiedClaims external token = .ok claims := by
  obtain ⟨jwt, text, verifies⟩ := verify_inv verified
  have cut := CompactJwt.splitOn_text verifies
  obtain ⟨_, _, _, _, _, bytes, -, -, -, -, -, -, -, payloadDecoded, read⟩ := verifies
  unfold unverifiedClaims
  simp only [bind_eq_ok, required_eq_ok, decodeClaims_eq_ok]
  exact ⟨jwt.payload, text ▸ cut, bytes, payloadDecoded, read⟩

end Tokens

/-! ### Verdicts -/

/-- The claims are NVIDIA's, for the nonce, and expire. -/
structure Current (claims : Value) (nonceHex : String) (now expires : Nat) : Prop where
  issuer : claims.textOf "iss" = some nrasOrigin
  nonce : ∃ own, claims.textOf "eat_nonce" = some own ∧
    eqIgnoreAsciiCase own.toList nonceHex.toList = true
  expiry : (claims.get "exp").bind Value.asU64 = some expires
  unexpired : now < expires

/-- What every GPU's claims are. -/
structure GpuPasses (claims : Value) : Prop where
  measurement : claims.textOf "measres" = some "success"
  secureBoot : (claims.get "secboot").bind asBool = some true
  debug : claims.textOf "dbgstat" = some "disabled"
  required : ∀ name ∈ requiredGpuClaims, (claims.get name).bind asBool = some true

section Verdicts

variable (external : Externals) (jwks : Jwks) (nonceHex : String) (now : Nat)

/-- A token that was verified, with its claims and its expiry. -/
structure VerifiedToken where
  text : String
  claims : Value
  expires : Nat
  signed : ∃ jwt : CompactJwt, text.toList = jwt.text ∧ jwt.VerifiesUnder external jwks claims
  unverified : unverifiedClaims external text = .ok claims
  current : Current claims nonceHex now expires

/-- The aggregate names the token by its digest. -/
def CommitsTo (aggregate : Value) (name : String) (token : String) : Prop :=
  ∃ digests committed, (aggregate.get "submods").bind Value.asObject = some digests ∧
    ((digests.lookup name).bind (Value.pointer ["1", "1"])).bind Value.asStr = some committed ∧
      eqIgnoreAsciiCase committed.toList
        (Kubetee.hexEncode (external.sha256 (asBytes token))) = true

/-- A GPU's verdict, under its name. -/
structure GpuVerdict (aggregate : Value) where
  name : String
  token : VerifiedToken external jwks nonceHex now
  committed : CommitsTo external aggregate name token.text
  passes : GpuPasses token.claims

/-- A response for so many GPUs. -/
structure Appraised (gpuCount : Nat) where
  aggregate : VerifiedToken external jwks nonceHex now
  successful : (aggregate.claims.get "x-nvidia-overall-att-result").bind asBool = some true
  gpus : List (GpuVerdict external jwks nonceHex now aggregate.claims)
  count : gpus.length = gpuCount

variable {external jwks nonceHex now}

def Appraised.response {gpuCount : Nat} (appraised : Appraised external jwks nonceHex now gpuCount) :
    Value :=
  .array [.array [.string "JWT", .string appraised.aggregate.text],
    .object (appraised.gpus.map fun gpu => (gpu.name, .string gpu.token.text))]

/-- When each of the tokens expires. -/
def Appraised.expiries {gpuCount : Nat} (appraised : Appraised external jwks nonceHex now gpuCount) :
    List Nat :=
  appraised.aggregate.expires :: appraised.gpus.map fun gpu => gpu.token.expires

/-- The expiry is returned for current claims alone. -/
theorem tokenExpiry_eq_ok {claims : Value} {expires : Nat} :
    tokenExpiry claims nonceHex now = .ok expires ↔ Current claims nonceHex now expires := by
  unfold tokenExpiry
  simp only [bind_eq_ok, required_eq_ok, ensure_eq_ok, beq_iff_eq, decide_eq_true_eq]
  constructor
  · rintro ⟨-, issuer, own, nonce, -, same, expires', expiry, -, unexpired, returned⟩
    cases returned
    exact ⟨issuer, ⟨own, nonce, same⟩, expiry, unexpired⟩
  · rintro ⟨issuer, ⟨own, nonce, same⟩, expiry, unexpired⟩
    exact ⟨⟨⟩, issuer, own, nonce, ⟨⟩, same, expires, expiry, ⟨⟩, unexpired, rfl⟩

/-- A GPU's claims are accepted if they pass. -/
theorem appraiseGpu_eq_ok {claims : Value} :
    appraiseGpu claims = .ok ⟨⟩ ↔ GpuPasses claims := by
  unfold appraiseGpu
  simp only [bind_eq_ok, ensure_eq_ok, forM_eq_ok, beq_iff_eq]
  constructor
  · rintro ⟨-, measurement, -, secureBoot, -, debug, required⟩
    exact ⟨measurement, secureBoot, debug, required⟩
  · rintro ⟨measurement, secureBoot, debug, required⟩
    exact ⟨⟨⟩, measurement, ⟨⟩, secureBoot, ⟨⟩, debug, required⟩

/-- The only shape split is the aggregate under `JWT`, then the object of the
GPUs' tokens. -/
theorem splitV4_inv {response : Value} {aggregate : String} {gpus : List (String × Value)}
    (split : splitV4 response = .ok (aggregate, gpus)) :
    response = .array [.array [.string "JWT", .string aggregate], .object gpus] := by
  unfold splitV4 at split
  simp only [bind_eq_ok, required_eq_ok, Option.filter_eq_some_iff, Option.bind_eq_some_iff,
    beq_iff_eq, Bool.and_eq_true] at split
  -- Each layer of the response has one shape only.
  obtain ⟨outer, ⟨isArray, two⟩, token, ⟨pair, ⟨⟨first, atFirst, isPair⟩, both, jwt, atJwt, named⟩,
    second, atSecond, isText⟩, members, ⟨others, atOthers, isObject⟩, returned⟩ := split
  cases returned
  obtain ⟨a, b, rfl⟩ := List.length_eq_two.mp two
  obtain ⟨c, d, rfl⟩ := List.length_eq_two.mp both
  cases atFirst
  cases atJwt
  cases atSecond
  cases atOthers
  rw [Value.asArray_eq_some.mp isArray, Value.asArray_eq_some.mp isPair, Value.asStr_eq_some.mp named,
    Value.asStr_eq_some.mp isText, Value.asObject_eq_some.mp isObject]

/-- A token whose claims are current. -/
theorem verifiedToken_of {token : String} {claims : Value} {expires : Nat}
    (verified : jwks.verify external token = .ok claims)
    (current : Current claims nonceHex now expires) :
    ∃ held : VerifiedToken external jwks nonceHex now,
      held.text = token ∧ held.claims = claims ∧ held.expires = expires :=
  ⟨⟨token, claims, expires, verify_inv verified, unverifiedClaims_of_verify verified, current⟩,
    rfl, rfl, rfl⟩

/-- One turn of the loop accepts one GPU's verdict. -/
theorem appraiseToken_inv {aggregate : Value} {digests : List (String × Value)}
    (committed : (aggregate.get "submods").bind Value.asObject = some digests) {expires next : Nat}
    {entry : String × Value}
    (accepted : appraiseToken external jwks nonceHex now digests expires entry = .ok next) :
    ∃ gpu : GpuVerdict external jwks nonceHex now aggregate,
      entry = (gpu.name, .string gpu.token.text) ∧ next = min expires gpu.token.expires := by
  obtain ⟨name, value⟩ := entry
  unfold appraiseToken at accepted
  simp only [bind_eq_ok, required_eq_ok, ensure_eq_ok, mapError_eq_ok] at accepted
  obtain ⟨token, isText, digest, named, -, same, claims, verified, own, current, ⟨⟩, passes,
    returned⟩ := accepted
  cases returned
  obtain ⟨held, rfl, rfl, rfl⟩ := verifiedToken_of verified (tokenExpiry_eq_ok.mp current)
  exact ⟨⟨name, held, ⟨digests, digest, committed, named, same⟩, appraiseGpu_eq_ok.mp passes⟩,
    by rw [Value.asStr_eq_some.mp isText], rfl⟩

/-- The loop accepts a verdict for every entry, and the least expiry is left. -/
theorem appraiseTokens_inv {aggregate : Value} {digests : List (String × Value)}
    (committed : (aggregate.get "submods").bind Value.asObject = some digests)
    {entries : List (String × Value)} {expires last : Nat}
    (accepted : entries.foldlM (appraiseToken external jwks nonceHex now digests) expires =
      .ok last) :
    ∃ gpus : List (GpuVerdict external jwks nonceHex now aggregate),
      entries = gpus.map (fun gpu => (gpu.name, .string gpu.token.text)) ∧
        last = (gpus.map fun gpu => gpu.token.expires).foldl min expires := by
  induction entries generalizing expires with
  | nil =>
      cases accepted
      exact ⟨[], rfl, rfl⟩
  | cons entry rest ih =>
      rw [List.foldlM_cons, bind_eq_ok] at accepted
      obtain ⟨next, first, later⟩ := accepted
      obtain ⟨gpu, rfl, rfl⟩ := appraiseToken_inv committed first
      obtain ⟨gpus, rfl, rfl⟩ := ih later
      exact ⟨gpu :: gpus, rfl, rfl⟩

/-- The fold over the expiries returns the least of them. -/
theorem isLeast_foldl_min (first : Nat) (rest : List Nat) :
    IsLeast {expires | expires ∈ first :: rest} (rest.foldl min first) := by
  induction rest generalizing first with
  | nil => simp
  | cons second rest ih =>
      obtain ⟨mem, least⟩ := ih (min first second)
      simp only [Set.mem_ofPred_eq, List.mem_cons, List.foldl_cons] at mem ⊢
      refine ⟨?_, fun other among => ?_⟩
      · rcases mem with same | later
        · rw [Set.mem_ofPred_eq, same]
          rcases min_choice first second with here | here <;> simp [here]
        · exact .inr (.inr later)
      · have bound : rest.foldl min (min first second) ≤ min first second := least (by simp)
        rcases among with rfl | rfl | later
        · exact bound.trans (min_le_left _ _)
        · exact bound.trans (min_le_right _ _)
        · exact least (.tail _ later)

/-- What is accepted is a verdict for every GPU, and its expiry is the first of all. -/
theorem appraiseV4_ok {response : Value} {gpuCount expires : Nat}
    (accepted : appraiseV4 external response jwks nonceHex gpuCount now = .ok expires) :
    ∃ appraised : Appraised external jwks nonceHex now gpuCount,
      response = appraised.response ∧ IsLeast {other | other ∈ appraised.expiries} expires ∧
        now < expires := by
  unfold appraiseV4 at accepted
  simp only [bind_eq_ok, required_eq_ok, ensure_eq_ok, mapError_eq_ok, beq_iff_eq] at accepted
  obtain ⟨⟨aggregate, gpuTokens⟩, split, -, count, claims, verified, first, current, ⟨⟩, successful,
    digests, committed, rest⟩ := accepted
  -- The aggregate first, then the tokens whose digests it commits to, in their order.
  obtain ⟨held, rfl, rfl, rfl⟩ := verifiedToken_of verified (tokenExpiry_eq_ok.mp current)
  obtain ⟨gpus, rfl, rfl⟩ := appraiseTokens_inv committed rest
  let appraised : Appraised external jwks nonceHex now gpuCount :=
    ⟨held, by simpa [requireOverallSuccess] using successful, gpus, by simpa using count⟩
  have least : IsLeast {other | other ∈ appraised.expiries} _ := isLeast_foldl_min _ _
  refine ⟨appraised, splitV4_inv split, least, ?_⟩
  have mem := least.1
  -- The least expiry is the aggregate's or a GPU's, and each of them is still to come.
  rcases List.mem_cons.mp mem with same | later
  · rw [same]
    exact held.current.unexpired
  · obtain ⟨gpu, -, same⟩ := List.mem_map.mp later
    rw [← same]
    exact gpu.token.current.unexpired

end Verdicts

/-! ### A response for one GPU -/

section One

def headerText : String := "\x7b\"alg\":\"ES384\",\"kid\":\"test\"\x7d"

def headerClaims : Value := .object [("alg", .string "ES384"), ("kid", .string "test")]

/-- A token of these claims. -/
def oneJwt (claims : String) (signature : Bytes) : CompactJwt where
  header := Base64.encode letterOf (asBytes headerText)
  payload := Base64.encode letterOf (asBytes claims)
  signature := Base64.encode letterOf signature

def oneToken (claims : String) (signature : Bytes) : String :=
  String.ofList (oneJwt claims signature).text

def gpuText : String :=
  "\x7b\"measres\":" ++
    ("\"success\",\"iss\":\"https://nras.attestation.nvidia.com\",\"eat_nonce\":\"AB\",\"exp\":1" ++
     "800003600,\"secboot\":true,\"dbgstat\":\"disabled\",\"x-nvidia-gpu-attestation-report" ++
     "-signature-verified\":true,\"x-nvidia-gpu-attestation-report-nonce-match\":true,\"" ++
     "x-nvidia-gpu-arch-check\":true,\"x-nvidia-gpu-attestation-report-cert-chain-fwid" ++
     "-match\":true,\"x-nvidia-gpu-driver-rim-signature-verified\":true,\"x-nvidia-gpu-d" ++
     "river-rim-version-match\":true,\"x-nvidia-gpu-driver-rim-measurements-available\"" ++
     ":true,\"x-nvidia-gpu-vbios-rim-signature-verified\":true,\"x-nvidia-gpu-vbios-rim" ++
     "-version-match\":true,\"x-nvidia-gpu-vbios-rim-measurements-available\":true\x7d")

def gpuClaims : Value :=
  .object ([("measres", .string "success"), ("iss", .string nrasOrigin),
    ("eat_nonce", .string "AB"), ("exp", .number (.posInt 1800003600)), ("secboot", .bool true),
    ("dbgstat", .string "disabled")] ++ requiredGpuClaims.map fun name => (name, .bool true))

def gpuToken : String := oneToken gpuText
  [125, 136, 24, 4, 140, 97, 6, 157, 254, 128, 214, 107, 162, 25, 138, 206, 9, 130, 189, 32,
    152, 99, 51, 98, 95, 15, 9, 216, 54, 166, 186, 144, 113, 219, 171, 97, 81, 7, 29, 146, 210,
    229, 160, 191, 130, 151, 225, 55, 54, 175, 8, 249, 56, 23, 77, 134, 76, 245, 128, 236, 239,
    160, 143, 246, 193, 227, 65, 201, 173, 5, 156, 98, 123, 99, 90, 234, 253, 60, 53, 190, 223,
    175, 113, 129, 110, 1, 27, 111, 183, 63, 226, 7, 222, 139, 191, 239]

def aggregateText : String :=
  "\x7b\"iss\":" ++
    ("\"https://nras.attestation.nvidia.com\",\"eat_nonce\":\"ab\",\"exp\":1800007200,\"x-nvi" ++
     "dia-overall-att-result\":true,\"submods\":\x7b\"GPU-0\":[\"DIGEST\",[\"SHA-256\",\"3ec3389f" ++
     "3ba66a951df90c0b70329a75c07f9fcb5e58cd5a1a9417e47b30e4b7\"]]\x7d\x7d")

def aggregateClaims : Value :=
  .object [("iss", .string nrasOrigin), ("eat_nonce", .string "ab"),
    ("exp", .number (.posInt 1800007200)), ("x-nvidia-overall-att-result", .bool true),
    ("submods", .object [("GPU-0", .array [.string "DIGEST", .array [.string "SHA-256",
      .string "3ec3389f3ba66a951df90c0b70329a75c07f9fcb5e58cd5a1a9417e47b30e4b7"]])])]

def aggregateToken : String := oneToken aggregateText
  [93, 165, 194, 59, 17, 62, 254, 0, 251, 144, 145, 72, 75, 158, 180, 220, 212, 87, 120, 205,
    174, 107, 30, 17, 50, 46, 204, 230, 140, 101, 253, 182, 23, 25, 64, 210, 112, 150, 91, 10,
    166, 212, 214, 230, 13, 245, 106, 5, 213, 79, 71, 181, 31, 38, 4, 129, 41, 55, 148, 124, 25,
    241, 165, 120, 95, 241, 149, 97, 98, 46, 149, 161, 102, 95, 10, 120, 108, 192, 19, 144, 55,
    213, 198, 251, 190, 208, 9, 254, 160, 64, 62, 116, 249, 67, 42, 75]

def oneJwks : Jwks := ⟨[("test", [4, 21, 157, 108, 30, 253, 185, 7, 202, 188, 66, 118, 86, 134, 7, 85, 40, 91, 65, 250, 20,
    56, 78, 116, 241, 83, 244, 69, 178, 149, 167, 168, 225, 253, 79, 79, 220, 148, 59, 144, 86,
    163, 184, 153, 44, 108, 239, 86, 59, 129, 246, 101, 134, 213, 140, 130, 202, 232, 95, 34,
    193, 182, 17, 232, 34, 48, 66, 42, 232, 37, 144, 42, 135, 115, 200, 29, 121, 106, 93, 162,
    99, 48, 3, 217, 247, 198, 82, 239, 68, 176, 62, 48, 181, 30, 206, 92, 144])]⟩

def gpuDigest : Bytes :=
  [62, 195, 56, 159, 59, 166, 106, 149, 29, 249, 12, 11, 112, 50, 154, 117, 192, 127, 159, 203,
    94, 88, 205, 90, 26, 148, 23, 228, 123, 48, 228, 183]

/-- What the libraries answer on the texts of this response, which differ in their third byte. -/
def oneExternals : Externals where
  sha256 _ := gpuDigest
  decode bytes :=
    if bytes[2]? = some 97 then some headerClaims
    else if bytes[2]? = some 105 then some aggregateClaims
    else if bytes[2]? = some 109 then some gpuClaims
    else none
  verifies _ _ _ := true

def oneResponse : Value :=
  .array [.array [.string "JWT", .string aggregateToken], .object [("GPU-0", .string gpuToken)]]

/-- The header is the one the decoder was given. -/
theorem headerText_read : oneExternals.decode (asBytes headerText) = some headerClaims := by
  have third : (asBytes headerText)[2]? = some 97 := by decide
  unfold oneExternals
  simp [third]

/-- A token over any claims the decoder knows verifies under the one key. -/
theorem oneToken_verifies {text : String} {claims : Value} (signature : Bytes)
    (read : oneExternals.decode (asBytes text) = some claims) :
    oneJwks.verify oneExternals (oneToken text signature) = .ok claims := by
  refine verify_of_verifiesUnder ⟨asBytes headerText, headerClaims, "test", _, signature,
    asBytes text, Base64.decode_encode sextet_letterOf _, headerText_read, by decide, by decide,
    rfl, Base64.decode_encode sextet_letterOf _, rfl, Base64.decode_encode sextet_letterOf _, read⟩

/-- The aggregate's part decodes to its claims. -/
theorem aggregateText_read : oneExternals.decode (asBytes aggregateText) = some aggregateClaims := by
  have third : (asBytes aggregateText)[2]? = some 105 := by
    rw [aggregateText, asBytes_append, List.getElem?_append_left (by decide)]
    decide
  unfold oneExternals
  simp [third]

/-- The GPU's part decodes to its claims. -/
theorem gpuText_read : oneExternals.decode (asBytes gpuText) = some gpuClaims := by
  have third : (asBytes gpuText)[2]? = some 109 := by
    rw [gpuText, asBytes_append, List.getElem?_append_left (by decide)]
    decide
  unfold oneExternals
  simp [third]

/-- The aggregate is of the nonce and expires in two hours. -/
theorem aggregateClaims_current : Current aggregateClaims "ab" 1800000000 1800007200 :=
  ⟨by decide, ⟨"ab", by decide, by decide⟩, rfl, by decide⟩

/-- The GPU's token is of the nonce and expires in one hour. -/
theorem gpuClaims_current : Current gpuClaims "ab" 1800000000 1800003600 :=
  ⟨by decide, ⟨"AB", by decide, by decide⟩, rfl, by decide⟩

/-- The GPU's claims pass the appraisal. -/
theorem gpuClaims_pass : GpuPasses gpuClaims :=
  ⟨by decide, by decide, by decide, by decide⟩

/-- The response is accepted until the GPU's token expires. -/
theorem oneResponse_accepted :
    appraiseV4 oneExternals oneResponse oneJwks "ab" 1 1800000000 = .ok 1800003600 := by
  have aggregate : oneJwks.verify oneExternals aggregateToken = .ok aggregateClaims :=
    oneToken_verifies _ aggregateText_read
  have gpu : oneJwks.verify oneExternals gpuToken = .ok gpuClaims :=
    oneToken_verifies _ gpuText_read
  unfold appraiseV4
  simp only [bind_eq_ok, required_eq_ok, ensure_eq_ok, mapError_eq_ok]
  refine ⟨(aggregateToken, [("GPU-0", .string gpuToken)]), rfl, ⟨⟩, rfl, aggregateClaims, aggregate,
    1800007200, tokenExpiry_eq_ok.mpr aggregateClaims_current, ⟨⟩, rfl, _, rfl, ?_⟩
  rw [List.foldlM_cons, bind_eq_ok]
  refine ⟨1800003600, ?_, rfl⟩
  unfold appraiseToken
  simp only [bind_eq_ok, required_eq_ok, ensure_eq_ok, mapError_eq_ok]
  exact ⟨gpuToken, rfl, _, rfl, ⟨⟩, by decide, gpuClaims, gpu, 1800003600,
    tokenExpiry_eq_ok.mpr gpuClaims_current, ⟨⟩, appraiseGpu_eq_ok.mpr gpuClaims_pass, rfl⟩

/-- The response meets all that acceptance promises. -/
theorem oneResponse_appraised :
    ∃ appraised : Appraised oneExternals oneJwks "ab" 1800000000 1,
      oneResponse = appraised.response ∧
        IsLeast {other | other ∈ appraised.expiries} 1800003600 ∧ 1800000000 < 1800003600 :=
  appraiseV4_ok oneResponse_accepted

end One

end GmMiner.TeeEvidence
