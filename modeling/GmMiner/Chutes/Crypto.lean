import GmMiner.Chutes.Forward
import GmMiner.Encodings
import GmMiner.UpstreamProxy

/-!
The wire of Chutes' end-to-end encryption (`attestd/src/chutes_verify/crypto.rs`, and
`complete_response` of `attestd/src/chutes_verify/forward.rs`).

The ciphers, gzip and the texts of JSON are parameters, and a secret key is its bytes. Each draw on the
generator takes its own part of the `randomness`. `Responder` and `tryOpenRequest` are the instance's
side, as the source's tests play it.
-/

namespace GmMiner.Chutes

open GmMiner.Lib GmMiner.Json

structure WireParts where
  /-- `MlKem768::generate_keypair`: the secret key, and the public one. -/
  generateKeypair : Nat → Bytes × Bytes
  /-- `EncapsulationKey::new_from_slice` takes the bytes. -/
  isPublicKey : Bytes → Bool
  /-- `encapsulate`: the ciphertext, and the shared secret. -/
  encapsulate : Bytes → Nat → Bytes × Bytes
  /-- `decapsulate_slice`. -/
  decapsulate : Bytes → Bytes → Option Bytes
  /-- HKDF-SHA256, of a salt, a secret and an info. -/
  hkdf : Bytes → Bytes → Bytes → Bytes
  /-- The nonce of a sealed text. -/
  nonce : Nat → Bytes
  /-- ChaCha20-Poly1305 under a key and a nonce, with the tag behind. -/
  aeadSeal : Bytes → Bytes → Bytes → Bytes
  aeadOpen : Bytes → Bytes → Bytes → Option Bytes
  gzip : Bytes → Bytes
  /-- The content of a gzip member, read up to a length, and the bytes behind the member. -/
  gunzip : Nat → Bytes → Option (Bytes × Bytes)
  /-- `serde_json::to_vec`. -/
  toVec : Value → Bytes
  /-- `serde_json::from_slice`. -/
  fromSlice : Bytes → Option Value

def mlkem768PublicKeyBytes : Nat := 1184

def mlkem768CiphertextBytes : Nat := 1088

def nonceLen : Nat := 12

def tagBytes : Nat := 16

def maxPlaintextBytes : Nat := 32 * 1024 * 1024

def infoRequest : Bytes := asBytes "e2e-req-v1"

def infoResponse : Bytes := asBytes "e2e-resp-v1"

def infoStream : Bytes := asBytes "e2e-stream-v1"

/-- What the transport relies on: the secret key of a pair gets back what was encapsulated to its
public key, what is sealed opens under its key and nonce, and a member is read back whole. -/
structure WireParts.Lawful (parts : WireParts) : Prop where
  publicKey : ∀ seed, parts.isPublicKey (parts.generateKeypair seed).2 = true
  publicKeyLength : ∀ seed, (parts.generateKeypair seed).2.length = mlkem768PublicKeyBytes
  ciphertextLength : ∀ key randomness,
    (parts.encapsulate key randomness).1.length = mlkem768CiphertextBytes
  decapsulates : ∀ seed randomness,
    parts.decapsulate (parts.generateKeypair seed).1
      (parts.encapsulate (parts.generateKeypair seed).2 randomness).1 =
      some (parts.encapsulate (parts.generateKeypair seed).2 randomness).2
  nonceLength : ∀ randomness, (parts.nonce randomness).length = nonceLen
  tagged : ∀ key nonce text, (parts.aeadSeal key nonce text).length = text.length + tagBytes
  opens : ∀ key nonce text, parts.aeadOpen key nonce (parts.aeadSeal key nonce text) = some text
  gunzips : ∀ limit text, text.length < limit → parts.gunzip limit (parts.gzip text) = some (text, [])

/-! ### The client's side -/

section Wire

variable (parts : WireParts)

/-- `derive_key`. -/
def deriveKey (shared kemCiphertext info : Bytes) : Except String Bytes := do
  ensure (decide (16 ≤ kemCiphertext.length)) "ML-KEM ciphertext is too short to salt the KDF"
  return parts.hkdf (kemCiphertext.take 16) shared info

/-- `seal`. -/
def sealBytes (key plaintext : Bytes) (randomness : Nat) : Bytes :=
  parts.nonce randomness ++ parts.aeadSeal key (parts.nonce randomness) plaintext

/-- `open`. -/
def openBytes (key sealed : Bytes) : Except String Bytes := do
  ensure (decide (nonceLen + tagBytes ≤ sealed.length)) "E2E ciphertext is truncated"
  required (parts.aeadOpen key (sealed.take nonceLen) (sealed.drop nonceLen))
    "E2E ciphertext failed authentication"

/-- `gunzip`. -/
def gunzipMember (input : Bytes) : Except String Bytes := do
  let (output, behind) ← required (parts.gunzip (maxPlaintextBytes + 1) input) "gunzip E2E payload"
  ensure (decide (output.length ≤ maxPlaintextBytes))
    ("E2E payload exceeds " ++ toString maxPlaintextBytes ++ " bytes")
  ensure behind.isEmpty "E2E payload has bytes after its gzip member"
  return output

def decodePublicKey (value : String) : Except String Bytes := do
  let bytes ← required (decodeText value) "decode instance ML-KEM key"
  ensure (bytes.length == mlkem768PublicKeyBytes)
    ("instance ML-KEM key is " ++ toString bytes.length ++ " bytes, expected " ++
      toString mlkem768PublicKeyBytes)
  ensure (parts.isPublicKey bytes) "instance ML-KEM key is invalid"
  return bytes

/-- The members that are sent: those of the payload, and the public key for the response. -/
def withResponseKey (payload : List (String × Value)) (responsePublic : Bytes) :
    List (String × Value) :=
  Value.insertMember "e2e_response_pk" (.string (encodeText responsePublic)) payload

/-- `encrypt_request`. -/
def encryptRequest : EncryptRequest := fun instanceKey payload randomness => do
  ensure (!payload.any fun member => "e2e_".toList.isPrefixOf member.1.toList)
    "e2e_ fields are reserved for the transport"
  let instanceKey ← decodePublicKey parts instanceKey
  let (responseSecret, responsePublic) := parts.generateKeypair randomness
  let plaintext := parts.gzip (parts.toVec (.object (withResponseKey payload responsePublic)))
  let (kemCiphertext, shared) := parts.encapsulate instanceKey randomness
  let key ← deriveKey parts shared kemCiphertext infoRequest
  return ⟨kemCiphertext ++ sealBytes parts key plaintext randomness, responseSecret⟩

/-- `ResponseKey::derive`. -/
def derive (responseKey kemCiphertext info : Bytes) : Except String Bytes := do
  let shared ← required (parts.decapsulate responseKey kemCiphertext)
    ("ML-KEM ciphertext is not " ++ toString mlkem768CiphertextBytes ++ " bytes")
  deriveKey parts shared kemCiphertext info

/-- `ResponseKey::decrypt_response`. -/
def decryptResponse (responseKey blob : Bytes) : Except String Bytes := do
  ensure (decide (mlkem768CiphertextBytes + nonceLen + tagBytes ≤ blob.length))
    "encrypted response is truncated"
  let key ← derive parts responseKey (blob.take mlkem768CiphertextBytes) infoResponse
  let plaintext ← (openBytes parts key (blob.drop mlkem768CiphertextBytes)).mapError fun cause =>
    "authenticate encrypted response: " ++ cause
  gunzipMember parts plaintext

/-- `ResponseKey::stream_key`. -/
def streamKey (responseKey : Bytes) (init : String) : Except String Bytes := do
  let kemCiphertext ← required (decodeText init) "decode e2e_init"
  derive parts responseKey kemCiphertext infoStream

/-- `StreamKey::decrypt_chunk`. -/
def decryptChunk (key : Bytes) (chunk : String) : Except String String := do
  let sealed ← required (decodeText chunk) "decode e2e chunk"
  let plaintext ← (openBytes parts key sealed).mapError fun cause =>
    "authenticate e2e chunk: " ++ cause
  required (fromUtf8 plaintext) "e2e chunk is not UTF-8"

/-- The blob of a response that is read chunk by chunk; a chunk that cannot be read is `none`. -/
def readBlob (blob : Bytes) : List (Option Bytes) → Except ChutesError Bytes
  | [] => .ok blob
  | none :: _ => .error (.badResponse "read Chutes response")
  | some chunk :: later =>
      if maxPlaintextBytes < blob.length + chunk.length then
        .error (.badResponse
          ("encrypted response exceeds " ++ toString maxPlaintextBytes ++ " bytes"))
      else readBlob (blob ++ chunk) later

/-- `complete_response`; `display` is the model that a response names as it is displayed. -/
def completeResponse (display : Option Value → String) (responseKey : Bytes) (model : String)
    (chunks : List (Option Bytes)) : Except ChutesError UpstreamProxy.Response := do
  let blob ← readBlob [] chunks
  let json ← (decryptResponse parts responseKey blob).mapError .badResponse
  match parts.fromSlice json with
  | some (.object completion) =>
      let named := completion.lookup "model"
      ensure (named.bind Value.asStr == some model)
        (.badResponse
          ("decrypted response names model " ++ display named ++ ", expected " ++ model))
      return ⟨200, [("content-type", "application/json")], [.data json]⟩
  | _ => .error (.badResponse "decrypted response is not a JSON object")

/-! ### The instance's side -/

/-- The text of the request that an instance opens (`Instance::try_open_request`). -/
def tryOpenRequest (secret blob : Bytes) : Option Bytes := do
  let kemCiphertext := blob.take mlkem768CiphertextBytes
  let shared ← parts.decapsulate secret kemCiphertext
  let key ← (deriveKey parts shared kemCiphertext infoRequest).toOption
  let plaintext ← (openBytes parts key (blob.drop mlkem768CiphertextBytes)).toOption
  (gunzipMember parts plaintext).toOption

/-- `Responder`: the encryptor of one response. -/
structure Responder where
  kemCiphertext : Bytes
  shared : Bytes

/-- `Responder::new`, of the public key in a request. -/
def Responder.new (responsePublic : Bytes) (randomness : Nat) : Responder :=
  let (kemCiphertext, shared) := parts.encapsulate responsePublic randomness
  ⟨kemCiphertext, shared⟩

def Responder.key (responder : Responder) (info : Bytes) : Bytes :=
  parts.hkdf (responder.kemCiphertext.take 16) responder.shared info

def Responder.responseBlob (responder : Responder) (json : Bytes) (randomness : Nat) : Bytes :=
  responder.kemCiphertext ++
    sealBytes parts (responder.key parts infoResponse) (parts.gzip json) randomness

def Responder.streamInit (responder : Responder) : String := encodeText responder.kemCiphertext

def Responder.streamChunk (responder : Responder) (text : String) (randomness : Nat) : String :=
  encodeText (sealBytes parts (responder.key parts infoStream) (asBytes text) randomness)

end Wire

/-! ### What is sealed comes out -/

section Lawful

variable {parts : WireParts} (lawful : parts.Lawful)
include lawful

/-- What is sealed is opened under the same key. -/
theorem openBytes_sealBytes (key text : Bytes) (randomness : Nat) :
    openBytes parts key (sealBytes parts key text randomness) = .ok text := by
  have nonceLength := lawful.nonceLength randomness
  unfold openBytes sealBytes
  rw [bind_eq_ok]
  refine ⟨⟨⟩, ?_, ?_⟩
  · simp [nonceLength, lawful.tagged]
  · rw [List.take_left' nonceLength, List.drop_left' nonceLength, lawful.opens]
    rfl

theorem gunzipMember_gzip {text : Bytes} (short : text.length ≤ maxPlaintextBytes) :
    gunzipMember parts (parts.gzip text) = .ok text := by
  unfold gunzipMember
  rw [lawful.gunzips _ _ (Nat.lt_succ_of_le short)]
  simp only [bind_eq_ok, required_eq_ok, ensure_eq_ok]
  exact ⟨_, rfl, ⟨⟩, decide_eq_true short, ⟨⟩, rfl, rfl⟩

/-- Both sides derive one key from the encapsulation. -/
theorem derive_encapsulate (seed randomness : Nat) (info : Bytes) :
    derive parts (parts.generateKeypair seed).1
        (parts.encapsulate (parts.generateKeypair seed).2 randomness).1 info =
      .ok ((Responder.new parts (parts.generateKeypair seed).2 randomness).key parts info) := by
  have salted := lawful.ciphertextLength (parts.generateKeypair seed).2 randomness
  unfold derive deriveKey
  rw [lawful.decapsulates]
  simp only [bind_eq_ok, required_eq_ok, ensure_eq_ok]
  exact ⟨_, rfl, ⟨⟩, by simp [salted, mlkem768CiphertextBytes], rfl⟩

theorem decodePublicKey_encodeText (seed : Nat) :
    decodePublicKey parts (encodeText (parts.generateKeypair seed).2) =
      .ok (parts.generateKeypair seed).2 := by
  unfold decodePublicKey
  simp only [bind_eq_ok, required_eq_ok, ensure_eq_ok, beq_iff_eq]
  exact ⟨_, decodeText_encodeText _, ⟨⟩, lawful.publicKeyLength seed, ⟨⟩, lawful.publicKey seed, rfl⟩

/-- A payload without the transport's own fields is encrypted to the public key of any pair. -/
theorem exists_encryptRequest {payload : List (String × Value)}
    (unreserved : (payload.any fun member => "e2e_".toList.isPrefixOf member.1.toList) = false)
    (seed randomness : Nat) :
    ∃ sent, encryptRequest parts (encodeText (parts.generateKeypair seed).2) payload randomness =
      .ok sent := by
  have salted : 16 ≤ (parts.encapsulate (parts.generateKeypair seed).2 randomness).1.length := by
    rw [lawful.ciphertextLength]
    decide
  have derived : ∃ key, deriveKey parts (parts.encapsulate (parts.generateKeypair seed).2 randomness).2
      (parts.encapsulate (parts.generateKeypair seed).2 randomness).1 infoRequest = .ok key :=
    ⟨_, bind_eq_ok.mpr ⟨⟨⟩, ensure_eq_ok.mpr (decide_eq_true salted), rfl⟩⟩
  obtain ⟨key, derived⟩ := derived
  unfold encryptRequest
  rw [unreserved]
  exact ⟨_, bind_eq_ok.mpr ⟨⟨⟩, rfl, bind_eq_ok.mpr ⟨_, decodePublicKey_encodeText lawful seed,
    bind_eq_ok.mpr ⟨key, derived, rfl⟩⟩⟩⟩

/-- The instance whose key a request was encrypted to reads what was sent: the payload and the public
key of the response key. -/
theorem tryOpenRequest_encryptRequest {seed randomness : Nat} {payload : List (String × Value)}
    {sent : EncryptedRequest}
    (encrypted : encryptRequest parts (encodeText (parts.generateKeypair seed).2) payload randomness =
      .ok sent)
    (short : (parts.toVec (.object
      (withResponseKey payload (parts.generateKeypair randomness).2))).length ≤ maxPlaintextBytes) :
    tryOpenRequest parts (parts.generateKeypair seed).1 sent.blob =
        some (parts.toVec (.object (withResponseKey payload (parts.generateKeypair randomness).2))) ∧
      sent.responseKey = (parts.generateKeypair randomness).1 := by
  have length := lawful.ciphertextLength (parts.generateKeypair seed).2 randomness
  unfold encryptRequest at encrypted
  rw [decodePublicKey_encodeText lawful] at encrypted
  simp only [bind_eq_ok] at encrypted
  obtain ⟨-, -, -, ⟨⟩, key, derived, same⟩ := encrypted
  cases same
  refine ⟨?_, rfl⟩
  unfold tryOpenRequest
  dsimp only
  rw [List.take_left' length, List.drop_left' length, lawful.decapsulates]
  simp only [Option.bind_eq_bind, Option.bind_some]
  rw [derived]
  simp only [Except.toOption, Option.bind_some]
  rw [openBytes_sealBytes lawful]
  simp only [Option.bind_some]
  rw [gunzipMember_gzip lawful short]

/-- A response that is sealed to the public key of a response key comes out whole. -/
theorem decryptResponse_responseBlob (seed randomness drawn : Nat) {json : Bytes}
    (short : json.length ≤ maxPlaintextBytes) :
    decryptResponse parts (parts.generateKeypair seed).1
      ((Responder.new parts (parts.generateKeypair seed).2 randomness).responseBlob parts json drawn) =
      .ok json := by
  have length : (Responder.new parts (parts.generateKeypair seed).2 randomness).kemCiphertext.length =
      mlkem768CiphertextBytes := lawful.ciphertextLength _ _
  unfold decryptResponse Responder.responseBlob
  rw [List.take_left' length, List.drop_left' length]
  simp only [bind_eq_ok, ensure_eq_ok, mapError_eq_ok]
  refine ⟨⟨⟩, ?_, _, derive_encapsulate lawful seed randomness infoResponse, ?_⟩
  · simp [sealBytes, length, lawful.nonceLength, lawful.tagged]
    omega
  · exact ⟨_, openBytes_sealBytes lawful _ _ _, gunzipMember_gzip lawful short⟩

end Lawful

end GmMiner.Chutes
