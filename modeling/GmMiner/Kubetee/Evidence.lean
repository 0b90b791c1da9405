import GmMiner.Kubetee.Binding
import GmMiner.Time

/-!
The pre-quote binding gate (`BindingGuard::run` of
`attestd/src/kubetee_verify/evidence.rs`).

What the report data of an accepted response fixes: the nonce and the keyset, and
with the keyset the served keys and the deadline. SHA-256 need only not collide on
what the gate hashes for the two responses compared.
-/

namespace GmMiner.Kubetee

open GmMiner.Lib GmMiner.Json

/-- What is read of a leaf certificate; `notAfter` is in Unix seconds. -/
structure Certificate where
  spki : Bytes
  notAfter : Int
  deriving DecidableEq, Repr

/-- The libraries the gate calls. -/
structure Externals where
  sha256 : Bytes → Digest
  decode : Bytes → Option Value
  /-- The text `serde_json` writes for a value. -/
  display : Value → String
  parseX509Certificate : Bytes → Except String Certificate
  parseFromRfc3339 : String → Option DateTime
  fromTimestamp : Int → Option DateTime

structure BindingStatement where
  version : String
  reportDataStatement : String
  keysetDigest : String
  deriving DecidableEq, Repr

structure BindingFields where
  keyset : Value
  bindings : BindingStatement
  deriving Repr

/-- The derived `Deserialize`: the fields by name, or all of them in order. -/
def BindingStatement.fromValue : Value → Option BindingStatement
  | .object members => do
      let version ← (members.lookup "version").bind Value.asStr
      let reportDataStatement ← (members.lookup "report_data_statement").bind Value.asStr
      let keysetDigest ← (members.lookup "keyset_digest").bind Value.asStr
      return ⟨version, reportDataStatement, keysetDigest⟩
  | .array [version, reportDataStatement, keysetDigest] => do
      return ⟨← version.asStr, ← reportDataStatement.asStr, ← keysetDigest.asStr⟩
  | _ => none

def BindingFields.fromValue : Value → Option BindingFields
  | .object members => do
      let keyset ← members.lookup "keyset"
      let bindings ← (members.lookup "bindings").bind BindingStatement.fromValue
      return ⟨keyset, bindings⟩
  | .array [keyset, bindings] => do
      return ⟨keyset, ← BindingStatement.fromValue bindings⟩
  | _ => none

structure Binding where
  reportData : Vector UInt8 64
  notAfter : DateTime
  deriving DecidableEq, Repr

def Binding.ensureCurrent (binding : Binding) (now : DateTime) : Except String PUnit :=
  ensure (decide (now < binding.notAfter)) "kubetee.attestation.v1 keyset is expired"

/-- The domain the v1 keyset's serving key must name. -/
def hostDomain : String := "llm.kubetee.ai"

namespace BindingGuard

variable (external : Externals)

/-- Whether a key of the served keyset is the serving key under the host's domain. -/
def namesKey (spkiSha256 : String) (key : Value) : Bool :=
  (key.get "domain").bind Value.asStr == some hostDomain &&
    (key.get "spki_sha256").bind Value.asStr == some spkiSha256

/-- The hex digest of a serving key. -/
def spkiDigest (spki : Bytes) : String := String.ofList (hexEncode (external.sha256 spki).toList)

def verifyServedKeyset (keyset : Value) (statedDigest : String) (leaf : Bytes) :
    Except String DateTime := do
  let certificate ← (external.parseX509Certificate leaf).mapError fun error =>
    "parse KubeTEE TLS certificate: " ++ error
  let recomputed ← recomputeKeysetDigest external.display external.sha256 keyset
  ensure (recomputed == statedDigest)
    "kubetee.attestation.v1 keyset digest does not match the served keyset"
  let named := ((keyset.get "tls_public_keys").bind Value.asArray).any fun keys =>
    keys.any (namesKey (spkiDigest external certificate.spki))
  ensure named
    "kubetee.attestation.v1 keyset does not name this connection's serving key"
  let notAfter ← required ((keyset.get "not_after").bind Value.asStr)
    "kubetee.attestation.v1 keyset has no not_after"
  let expires ← required (external.parseFromRfc3339 notAfter)
    "kubetee.attestation.v1 keyset not_after is not RFC 3339"
  let certificateExpires ← required (external.fromTimestamp certificate.notAfter)
    "KubeTEE TLS certificate expiry is outside the supported range"
  ensure (decide (expires ≤ certificateExpires))
    "kubetee.attestation.v1 keyset not_after exceeds the serving certificate expiry"
  return expires

def run (body : Bytes) (nonce : String) (leaf : Bytes) (now : DateTime) :
    Except String Binding := do
  let payload ← required (parseUniqueJson external.decode body)
    "decode KubeTEE attestation response"
  match (payload.get "keyset").isSome, (payload.get "bindings").isSome with
  | true, true =>
      let fields ← required (BindingFields.fromValue payload)
        "decode kubetee.attestation.v1 binding fields"
      ensure (fields.bindings.version == purpose)
        ("kubetee.attestation.v1 binding has version " ++ fields.bindings.version ++
          ", expected " ++ purpose)
      let notAfter ← verifyServedKeyset external fields.keyset fields.bindings.keysetDigest leaf
      let reportData ← reportDataOfStatement external.sha256 fields.bindings.reportDataStatement
        fields.bindings.keysetDigest nonce
      let binding : Binding := ⟨reportData, notAfter⟩
      binding.ensureCurrent now
      return binding
  | false, false => .error "KubeTEE attestation response has no kubetee.attestation.v1 binding"
  | _, _ => .error "KubeTEE attestation response has half a v1 binding"

/-- The binding fields of a response. -/
def served (body : Bytes) : Option BindingFields :=
  (parseUniqueJson external.decode body).bind BindingFields.fromValue

/-- The tree lists a key under the host's domain. -/
def ListsKey (tree : Json) (spkiSha256 : String) : Prop :=
  ∃ keys key, tree.get "tls_public_keys" = some (.array keys) ∧ key ∈ keys ∧
    key.get "domain" = some (.string hostDomain) ∧
    key.get "spki_sha256" = some (.string spkiSha256)

/-- The tree lists the serving key of a leaf certificate. -/
def ListsLeaf (tree : Json) (leaf : Bytes) : Prop :=
  ∃ certificate, external.parseX509Certificate leaf = .ok certificate ∧
    ListsKey tree (spkiDigest external certificate.spki)

/-- What is read from the keyset of an accepted response. -/
structure KeysetAccepted (keyset : Value) (tree : Json) (leaf : Bytes) (notAfter : DateTime) :
    Prop where
  read : jsonTree external.display keyset = .ok tree
  deadline : ∃ text, tree.get "not_after" = some (.string text) ∧
    external.parseFromRfc3339 text = some notAfter
  listed : ListsLeaf external tree leaf

variable {external}

/-- A text member of the keyset is one of its tree. -/
private theorem tree_string {value : Value} {name text : String} {tree : Json}
    (read : jsonTree external.display value = .ok tree) (unique : value.unique = true)
    (found : (value.get name).bind Value.asStr = some text) :
    tree.get name = some (.string text) := by
  obtain ⟨child, at_, isText⟩ := Option.bind_eq_some_iff.mp found
  obtain ⟨childTree, childRead, held⟩ := jsonTree_get read unique at_
  cases child with
  | string text' =>
      cases isText
      rw [jsonTree] at childRead
      cases childRead
      exact held
  | null | bool | number | array | object => cases isText

/-- A served keyset that names the serving key has it in its tree. -/
private theorem listsKey_of_named {keyset : Value} {tree : Json} {spkiSha256 : String}
    (read : jsonTree external.display keyset = .ok tree) (unique : keyset.unique = true)
    (named : ((keyset.get "tls_public_keys").bind Value.asArray).any
      (fun keys => keys.any (namesKey spkiSha256)) = true) : ListsKey tree spkiSha256 := by
  cases served : keyset.get "tls_public_keys" with
  | none =>
      rw [served] at named
      cases named
  | some child =>
      rw [served] at named
      obtain ⟨childTree, childRead, held⟩ := jsonTree_get read unique served
      cases child with
      | array keys =>
          obtain ⟨trees, each, rfl⟩ := jsonTree_array childRead
          obtain ⟨key, mem, names⟩ := List.any_eq_true.mp named
          obtain ⟨keyTree, listed, keyRead⟩ := (jsonTrees_mem each).1 key mem
          have uniqueKeys : (Value.array keys).unique = true := Value.unique_get unique served
          rw [Value.unique] at uniqueKeys
          have uniqueKey := Value.unique_of_mem_items uniqueKeys mem
          unfold namesKey at names
          simp only [Bool.and_eq_true, beq_iff_eq] at names
          exact ⟨trees, keyTree, held, listed, tree_string keyRead uniqueKey names.1,
            tree_string keyRead uniqueKey names.2⟩
      | null | bool | number | string | object => cases named

/-- An accepted keyset has the digest stated and lists the leaf's key. -/
theorem verifyServedKeyset_eq_ok {keyset : Value} {statedDigest : String} {leaf : Bytes}
    {notAfter : DateTime} (unique : keyset.unique = true)
    (accepted : verifyServedKeyset external keyset statedDigest leaf = .ok notAfter) :
    ∃ tree, KeysetAccepted external keyset tree leaf notAfter ∧
      statedDigest = keysetDigest external.sha256 tree := by
  unfold verifyServedKeyset at accepted
  obtain ⟨certificate, parsed, accepted⟩ := bind_eq_ok.mp accepted
  obtain ⟨recomputed, digested, accepted⟩ := bind_eq_ok.mp accepted
  obtain ⟨⟨⟩, stated, accepted⟩ := bind_eq_ok.mp accepted
  obtain ⟨⟨⟩, named, accepted⟩ := bind_eq_ok.mp accepted
  obtain ⟨text, dated, accepted⟩ := bind_eq_ok.mp accepted
  obtain ⟨expires, instant, accepted⟩ := bind_eq_ok.mp accepted
  obtain ⟨certificateExpires, -, accepted⟩ := bind_eq_ok.mp accepted
  obtain ⟨⟨⟩, -, accepted⟩ := bind_eq_ok.mp accepted
  cases accepted
  obtain ⟨tree, read, digested⟩ := bind_eq_ok.mp digested
  cases digested
  refine ⟨tree, ⟨read, ?_, certificate, ?_, ?_⟩, ?_⟩
  · exact ⟨text, tree_string read unique (required_eq_ok.mp dated), required_eq_ok.mp instant⟩
  · cases parse : external.parseX509Certificate leaf with
    | error failure =>
        rw [parse] at parsed
        cases parsed
    | ok found =>
        rw [parse] at parsed
        cases parsed
        rfl
  · exact listsKey_of_named read unique (ensure_eq_ok.mp named)
  · exact (beq_iff_eq.mp (ensure_eq_ok.mp stated)).symm

/-- The keyset read repeats no name if the payload repeats none. -/
theorem unique_fromValue {payload : Value} {fields : BindingFields}
    (unique : payload.unique = true) (decoded : BindingFields.fromValue payload = some fields) :
    fields.keyset.unique = true := by
  unfold BindingFields.fromValue at decoded
  split at decoded
  · obtain ⟨keyset, found, decoded⟩ := Option.bind_eq_some_iff.mp decoded
    obtain ⟨bindings, -, decoded⟩ := Option.bind_eq_some_iff.mp decoded
    cases decoded
    rw [Value.unique] at unique
    exact Value.unique_of_mem_members unique (Value.mem_of_lookup found)
  · obtain ⟨bindings, -, decoded⟩ := Option.bind_eq_some_iff.mp decoded
    cases decoded
    rw [Value.unique] at unique
    exact Value.unique_of_mem_items unique List.mem_cons_self
  · cases decoded

/-- What is known of an accepted response. -/
structure Accepted (external : Externals) (body : Bytes) (nonce : String) (leaf : Bytes)
    (binding : Binding) (fields : BindingFields) (tree : Json) : Prop where
  served : served external body = some fields
  keyset : KeysetAccepted external fields.keyset tree leaf binding.notAfter
  statement : fields.bindings.reportDataStatement.toList =
    statementFor (external.sha256 (asBytes (String.ofList (jcs tree)))) nonce
  hashed : binding.reportData =
    zeroPadded (external.sha256 (asBytes fields.bindings.reportDataStatement))

/-- What an accepted response is known to be. -/
theorem run_eq_ok {body leaf : Bytes} {nonce : String} {now : DateTime} {binding : Binding}
    (accepted : run external body nonce leaf now = .ok binding) :
    ∃ fields tree, Accepted external body nonce leaf binding fields tree := by
  unfold run at accepted
  obtain ⟨payload, parsed, accepted⟩ := bind_eq_ok.mp accepted
  rw [required_eq_ok] at parsed
  split at accepted
  · obtain ⟨fields, decoded, accepted⟩ := bind_eq_ok.mp accepted
    obtain ⟨⟨⟩, -, accepted⟩ := bind_eq_ok.mp accepted
    obtain ⟨notAfter, verified, accepted⟩ := bind_eq_ok.mp accepted
    obtain ⟨reportData, stated, accepted⟩ := bind_eq_ok.mp accepted
    obtain ⟨⟨⟩, -, accepted⟩ := bind_eq_ok.mp accepted
    cases accepted
    rw [required_eq_ok] at decoded
    have unique := unique_fromValue (unique_of_parseUniqueJson parsed) decoded
    obtain ⟨tree, keyset, digest⟩ := verifyServedKeyset_eq_ok unique verified
    rw [digest] at stated
    obtain ⟨statement, hashed⟩ := reportDataOfStatement_eq_ok stated
    exact ⟨fields, tree, Option.bind_eq_some_iff.mpr ⟨payload, parsed, decoded⟩, keyset, statement,
      hashed⟩
  · cases accepted
  · cases accepted

variable (external)

/-- What the gate hashes for a response, apart from the leaf's key. -/
inductive Hashed (body : Bytes) : Bytes → Prop
  | keyset {fields : BindingFields} {tree : Json} (found : served external body = some fields)
      (read : jsonTree external.display fields.keyset = .ok tree) :
      Hashed body (asBytes (String.ofList (jcs tree)))
  | statement {fields : BindingFields} (found : served external body = some fields) :
      Hashed body (asBytes fields.bindings.reportDataStatement)

variable {external}

/-- The report data of an accepted response determines the identity served: of two
accepted responses with one report data the nonces are equal, the keysets are one
JSON tree, the deadlines are one instant, and that tree lists the serving key of
both leaves; where SHA-256 does not collide on what the gate hashes for the two. -/
theorem report_data_determines_identity {body body' leaf leaf' : Bytes} {nonce nonce' : String}
    {now now' : DateTime} {binding binding' : Binding}
    (accepted : run external body nonce leaf now = .ok binding)
    (accepted' : run external body' nonce' leaf' now' = .ok binding')
    (noCollision : ∀ input input', Hashed external body input → Hashed external body' input' →
      external.sha256 input = external.sha256 input' → input = input')
    (same : binding.reportData = binding'.reportData) :
    nonce = nonce' ∧ binding.notAfter = binding'.notAfter ∧
    ∃ fields fields' tree, served external body = some fields ∧
      served external body' = some fields' ∧
      jsonTree external.display fields.keyset = .ok tree ∧
      jsonTree external.display fields'.keyset = .ok tree ∧
      ListsLeaf external tree leaf ∧ ListsLeaf external tree leaf' := by
  obtain ⟨fields, tree, found, keyset, statement, hashed⟩ := run_eq_ok accepted
  obtain ⟨fields', tree', found', keyset', statement', hashed'⟩ := run_eq_ok accepted'
  have statements : fields.bindings.reportDataStatement = fields'.bindings.reportDataStatement := by
    have digests := zeroPadded_injective (hashed.symm.trans (same.trans hashed'))
    exact asBytes_injective (noCollision _ _ (.statement found) (.statement found') digests)
  have templates : statementFor (external.sha256 (asBytes (String.ofList (jcs tree)))) nonce =
      statementFor (external.sha256 (asBytes (String.ofList (jcs tree')))) nonce' := by
    rw [← statement, ← statement', statements]
  obtain ⟨digests, nonces⟩ := statementFor_injective templates
  have trees : tree = tree' := by
    have texts := noCollision _ _ (.keyset found keyset.read) (.keyset found' keyset'.read) digests
    exact jcs_injective (ordered_jsonTree keyset.read) (ordered_jsonTree keyset'.read)
      (String.ofList_injective (asBytes_injective texts))
  subst trees
  refine ⟨nonces, ?_, fields, fields', tree, found, found', keyset.read, keyset'.read,
    keyset.listed, keyset'.listed⟩
  obtain ⟨text, dated, instant⟩ := keyset.deadline
  obtain ⟨text', dated', instant'⟩ := keyset'.deadline
  cases dated.symm.trans dated'
  exact Option.some.inj (instant.symm.trans instant')

/-! ### Two small responses -/

/-- A `SubjectPublicKeyInfo` of a P-256 key. -/
def smallSpki (point : Bytes) : Bytes :=
  [48, 89, 48, 19, 6, 7, 42, 134, 72, 206, 61, 2, 1, 6, 8, 42, 134, 72, 206, 61, 3, 1, 7, 3, 66, 0,
    4] ++ point

/-- A certificate for a key, valid from 2026 to 2031. -/
def smallLeaf (spki : Bytes) : Bytes :=
  [48, 129, 160, 48, 129, 142, 2, 1, 1, 48, 10, 6, 8, 42, 134, 72, 206, 61, 4, 3, 2, 48, 0, 48, 30,
    23, 13, 50, 54, 48, 49, 48, 49, 48, 48, 48, 48, 48, 48, 90, 23, 13, 51, 49, 48, 49, 48, 49, 48,
    48, 48, 48, 48, 48, 90, 48, 0] ++ spki ++ [48, 10, 6, 8, 42, 134, 72, 206, 61, 4, 3, 2, 3, 1, 0]

def firstSpki : Bytes := smallSpki
  [107, 23, 209, 242, 225, 44, 66, 71, 248, 188, 230, 229, 99, 164, 64, 242, 119, 3, 125, 129, 45,
    235, 51, 160, 244, 161, 57, 69, 216, 152, 194, 150, 79, 227, 66, 226, 254, 26, 127, 155, 142,
    231, 235, 74, 124, 15, 158, 22, 43, 206, 51, 87, 107, 49, 94, 206, 203, 182, 64, 104, 55, 191,
    81, 245]

def secondSpki : Bytes := smallSpki
  [124, 242, 123, 24, 141, 3, 79, 126, 138, 82, 56, 3, 4, 181, 26, 195, 192, 137, 105, 226, 119,
    242, 27, 53, 166, 11, 72, 252, 71, 102, 153, 120, 7, 119, 85, 16, 219, 142, 208, 64, 41, 61,
    154, 198, 159, 116, 48, 219, 186, 125, 173, 230, 60, 233, 130, 41, 158, 4, 183, 157, 34, 120,
    115, 209]

def firstLeaf : Bytes := smallLeaf firstSpki

def secondLeaf : Bytes := smallLeaf secondSpki

def smallNonce : String := "5f5f5f5f5f5f5f5f5f5f5f5f5f5f5f5f5f5f5f5f5f5f5f5f5f5f5f5f5f5f5f5f"

def firstKeyText : String :=
  "\x7b\"domain\":\"llm.kubetee.ai\"," ++
    "\"spki_sha256\":\"5cd252fb0ce8932436faf8ccd1040981b89ee4ad6b9fe9e2a2b7e71aacb27cd3\"\x7d"

def secondKeyText : String :=
  "\x7b\"domain\":\"llm.kubetee.ai\"," ++
    "\"spki_sha256\":\"dc0ce633dbcc913dafafa4b89ac44d8ce683fdfc3f60c8bdf21213b9f2b534ba\"\x7d"

/-- The keyset in canonical form. -/
def smallKeysetText : String :=
  "\x7b\"not_after\":\"2030-01-01T00:00:00Z\",\"tls_public_keys\":[" ++ firstKeyText ++ "," ++
    secondKeyText ++ "]\x7d"

def smallStatement : String :=
  "\x7b\"keyset_digest\":\"sha256:" ++
    "e778fccfc3cf781523793e01dd7a68204eeb60bd8b8dec4406f9be9146ba7feb\"," ++
    "\"nonce\":\"" ++ smallNonce ++ "\",\"purpose\":\"kubetee.attestation.v1\"\x7d"

def smallBindingsText : String :=
  "\x7b\"version\":\"kubetee.attestation.v1\"," ++
    "\"report_data_statement\":\"\x7b\\\"keyset_digest\\\":\\\"sha256:" ++
    "e778fccfc3cf781523793e01dd7a68204eeb60bd8b8dec4406f9be9146ba7feb\\\"," ++
    "\\\"nonce\\\":\\\"" ++ smallNonce ++ "\\\"," ++
    "\\\"purpose\\\":\\\"kubetee.attestation.v1\\\"\x7d\"," ++
    "\"keyset_digest\":\"sha256:" ++
    "e778fccfc3cf781523793e01dd7a68204eeb60bd8b8dec4406f9be9146ba7feb\"\x7d"

def firstBody : Bytes :=
  asBytes ("\x7b\"keyset\":" ++ smallKeysetText ++ ",\"bindings\":" ++ smallBindingsText ++ "\x7d")

/-- The members of both objects the other way around, and a blank. -/
def secondBody : Bytes :=
  asBytes ("\x7b\"bindings\":" ++ smallBindingsText ++ ", \"keyset\":" ++
    "\x7b\"tls_public_keys\":[" ++ firstKeyText ++ "," ++ secondKeyText ++
    "],\"not_after\":\"2030-01-01T00:00:00Z\"\x7d\x7d")

def smallKeys : Value := .array
  [.object [("domain", .string "llm.kubetee.ai"), ("spki_sha256",
      .string "5cd252fb0ce8932436faf8ccd1040981b89ee4ad6b9fe9e2a2b7e71aacb27cd3")],
    .object [("domain", .string "llm.kubetee.ai"), ("spki_sha256",
      .string "dc0ce633dbcc913dafafa4b89ac44d8ce683fdfc3f60c8bdf21213b9f2b534ba")]]

def smallBindings : BindingStatement :=
  ⟨"kubetee.attestation.v1", smallStatement,
    "sha256:e778fccfc3cf781523793e01dd7a68204eeb60bd8b8dec4406f9be9146ba7feb"⟩

def firstFields : BindingFields :=
  ⟨.object [("not_after", .string "2030-01-01T00:00:00Z"), ("tls_public_keys", smallKeys)],
    smallBindings⟩

def secondFields : BindingFields :=
  ⟨.object [("tls_public_keys", smallKeys), ("not_after", .string "2030-01-01T00:00:00Z")],
    smallBindings⟩

def bindingsValue (bindings : BindingStatement) : Value :=
  .object [("version", .string bindings.version),
    ("report_data_statement", .string bindings.reportDataStatement),
    ("keyset_digest", .string bindings.keysetDigest)]

def keysetHash : Digest :=
  #v[231, 120, 252, 207, 195, 207, 120, 21, 35, 121, 62, 1, 221, 122, 104, 32, 78, 235, 96, 189, 139,
    141, 236, 68, 6, 249, 190, 145, 70, 186, 127, 235]

def statementHash : Digest :=
  #v[26, 36, 154, 192, 137, 38, 246, 120, 132, 238, 113, 157, 79, 120, 38, 246, 37, 120, 11, 1, 138, 4,
    131, 11, 1, 221, 212, 243, 123, 86, 74, 176]

/-- What each text hashes to. -/
def smallDigests : List (Bytes × Digest) :=
  [(firstSpki,
      #v[92, 210, 82, 251, 12, 232, 147, 36, 54, 250, 248, 204, 209, 4, 9, 129, 184, 158, 228, 173,
        107, 159, 233, 226, 162, 183, 231, 26, 172, 178, 124, 211]),
    (secondSpki,
      #v[220, 12, 230, 51, 219, 204, 145, 61, 175, 175, 164, 184, 154, 196, 77, 140, 230, 131, 253,
        252, 63, 96, 200, 189, 242, 18, 19, 185, 242, 181, 52, 186]),
    (firstLeaf,
      #v[212, 178, 21, 231, 247, 67, 159, 232, 130, 94, 93, 99, 225, 75, 17, 103, 110, 246, 237, 157,
        42, 208, 253, 58, 27, 87, 135, 236, 32, 252, 75, 59]),
    (secondLeaf,
      #v[192, 150, 237, 78, 46, 94, 80, 158, 241, 119, 238, 216, 86, 181, 71, 214, 125, 158, 222, 123,
        25, 162, 204, 71, 31, 121, 114, 184, 42, 70, 80, 41]),
    (asBytes smallKeysetText, keysetHash), (asBytes smallStatement, statementHash)]

/-- What the libraries give on the small responses. -/
def smallExternals : Externals where
  sha256 := fun input => (smallDigests.lookup input).getD (Vector.replicate 32 0)
  decode := fun bytes =>
    if bytes = firstBody then
      some (.object [("keyset", firstFields.keyset), ("bindings", bindingsValue smallBindings)])
    else if bytes = secondBody then
      some (.object [("bindings", bindingsValue smallBindings), ("keyset", secondFields.keyset)])
    else none
  display := fun _ => ""
  parseX509Certificate := fun leaf =>
    if leaf = firstLeaf then .ok ⟨firstSpki, 1924992000⟩
    else if leaf = secondLeaf then .ok ⟨secondSpki, 1924992000⟩
    else .error "Parsing Error"
  parseFromRfc3339 := fun text =>
    if text = "2030-01-01T00:00:00Z" then some 1893456000000000000 else none
  fromTimestamp := fun seconds => some (seconds * 1000000000)

def smallBinding : Binding :=
  ⟨zeroPadded (smallExternals.sha256 (asBytes smallStatement)), 1893456000000000000⟩

/-- Both keysets are one tree. -/
def smallTree : Json :=
  .object [("not_after", .string "2030-01-01T00:00:00Z"),
    ("tls_public_keys", .array [
      .object [("domain", .string "llm.kubetee.ai"), ("spki_sha256",
        .string "5cd252fb0ce8932436faf8ccd1040981b89ee4ad6b9fe9e2a2b7e71aacb27cd3")],
      .object [("domain", .string "llm.kubetee.ai"), ("spki_sha256",
        .string "dc0ce633dbcc913dafafa4b89ac44d8ce683fdfc3f60c8bdf21213b9f2b534ba")]])]

-- The texts are compared as lists of characters: a string is slow to take apart.

private theorem jcsString_of {text : String} {chars : List Char}
    (same : String.ofList chars = text) :
    jcsString text = '"' :: (chars.flatMap escape ++ ['"']) := by
  rw [jcsString, toList_of same]

private theorem asBytes_of {text : String} {chars : List Char} (same : String.ofList chars = text) :
    asBytes text = chars.flatMap String.utf8EncodeChar := by
  rw [asBytes_eq_flatMap, toList_of same]

private theorem sortByUtf16_pair {first second : String} {chars chars' : List Char} {c c' : Char}
    {a b : Json} (one : String.ofList (c :: chars) = first)
    (two : String.ofList (c' :: chars') = second)
    (below : c.toNat < c'.toNat) (narrow : c'.toNat < 0x10000) :
    sortByUtf16 [(first, a), (second, b)] = [(first, a), (second, b)] := by
  have le : encodeUtf16 first ≤ encodeUtf16 second := by
    rw [encodeUtf16, encodeUtf16, toList_of one, toList_of two, List.flatMap_cons,
      List.flatMap_cons, if_pos (below.trans narrow), if_pos narrow]
    exact le_of_lt (List.Lex.rel below)
  rw [sortByUtf16, List.insertionSort_cons, List.insertionSort_cons, List.insertionSort_nil,
    List.orderedInsert_nil, List.orderedInsert, if_pos le]

set_option maxRecDepth 2000 in
/-- The canonical form of the tree is the keyset's text. -/
theorem jcs_smallTree : String.ofList (jcs smallTree) = smallKeysetText := by
  have domain : String.ofList _ = "llm.kubetee.ai" := rfl
  have date : String.ofList _ = "2030-01-01T00:00:00Z" := rfl
  have first : String.ofList _ =
    "5cd252fb0ce8932436faf8ccd1040981b89ee4ad6b9fe9e2a2b7e71aacb27cd3" := rfl
  have second : String.ofList _ =
    "dc0ce633dbcc913dafafa4b89ac44d8ce683fdfc3f60c8bdf21213b9f2b534ba" := rfl
  have dateName : String.ofList _ = "not_after" := rfl
  have keysName : String.ofList _ = "tls_public_keys" := rfl
  have domainName : String.ofList _ = "domain" := rfl
  have spkiName : String.ofList _ = "spki_sha256" := rfl
  rw [smallTree, jcs_object, sortByUtf16_pair dateName keysName (by decide) (by decide)]
  simp only [List.map_cons, List.map_nil, jcsField, jcs_string, jcs_array, jcs_object]
  rw [sortByUtf16_pair domainName spkiName (by decide) (by decide),
    sortByUtf16_pair domainName spkiName (by decide) (by decide)]
  simp only [List.map_cons, List.map_nil, jcsField, jcs_string, jcsString_of domain,
    jcsString_of date, jcsString_of first, jcsString_of second, jcsString_of dateName,
    jcsString_of keysName, jcsString_of domainName, jcsString_of spkiName]
  refine Eq.trans ?_ (ofList_append_of (ofList_append_of (ofList_append_of (ofList_append_of rfl
    (ofList_append_of rfl rfl)) rfl) (ofList_append_of rfl rfl)) rfl)
  exact congrArg String.ofList rfl

/-- The statement is the template of the keyset's digest. -/
theorem statementFor_small :
    String.ofList (statementFor keysetHash smallNonce) = smallStatement := by
  have nonce : String.ofList _ = smallNonce :=
    (rfl : String.ofList _ = "5f5f5f5f5f5f5f5f5f5f5f5f5f5f5f5f5f5f5f5f5f5f5f5f5f5f5f5f5f5f5f5f")
  unfold statementFor smallStatement
  simp only [toList_of nonce]
  refine Eq.trans ?_ (ofList_append_of (ofList_append_of (ofList_append_of (ofList_append_of
    rfl rfl) rfl) nonce) rfl)
  exact congrArg String.ofList rfl

theorem keysetDigest_small :
    String.ofList (keysetDigestPrefix ++ hexEncode keysetHash.toList) =
      smallBindings.keysetDigest := by
  refine Eq.trans ?_ (rfl : String.ofList _ =
    "sha256:e778fccfc3cf781523793e01dd7a68204eeb60bd8b8dec4406f9be9146ba7feb")
  exact congrArg String.ofList rfl

/-- No key and no certificate begins as a text does. -/
private theorem lookup_of_brace {text : Bytes} (starts : text.head? = some 123) :
    smallDigests.lookup text =
      [(asBytes smallKeysetText, keysetHash), (asBytes smallStatement, statementHash)].lookup
        text := by
  have apart : ∀ later, (text == 48 :: later) = false := by
    intro later
    refine beq_false_of_ne fun same => ?_
    rw [same, List.head?_cons] at starts
    revert starts
    decide
  rw [smallDigests, List.lookup_cons, firstSpki, smallSpki, List.cons_append, apart,
    List.lookup_cons, secondSpki, smallSpki, List.cons_append, apart, List.lookup_cons, firstLeaf,
    smallLeaf, List.append_assoc, List.cons_append, apart, List.lookup_cons, secondLeaf, smallLeaf,
    List.append_assoc, List.cons_append, apart]

/-- What the keyset's text hashes to. -/
theorem sha256_keyset : smallExternals.sha256 (asBytes smallKeysetText) = keysetHash := by
  have starts : (asBytes smallKeysetText).head? = some 123 := by
    rw [← jcs_smallTree, asBytes_eq_flatMap, String.toList_ofList, smallTree, jcs_object]
    rfl
  have found := lookup_of_brace starts
  rw [List.lookup_cons_self] at found
  unfold smallExternals
  dsimp only
  rw [found, Option.getD_some]

/-- What the statement hashes to. -/
theorem sha256_statement : smallExternals.sha256 (asBytes smallStatement) = statementHash := by
  have starts : (asBytes smallStatement).head? = some 123 := by
    rw [← statementFor_small, asBytes_eq_flatMap, String.toList_ofList, statementFor]
    rfl
  have other : (asBytes smallStatement == asBytes smallKeysetText) = false := by
    refine beq_false_of_ne fun same => ?_
    have third := congrArg (·[2]?) same
    have digest : String.ofList _ = "\x7b\"keyset_digest\":\"sha256:" := rfl
    have keyset : String.ofList _ =
      "\x7b\"not_after\":\"2030-01-01T00:00:00Z\",\"tls_public_keys\":[" := rfl
    unfold smallStatement smallKeysetText at third
    simp only [asBytes_append, asBytes_of digest, asBytes_of keyset, List.append_assoc] at third
    exact absurd third (by decide)
  have found := lookup_of_brace starts
  rw [List.lookup_cons, other, List.lookup_cons_self] at found
  unfold smallExternals
  dsimp only
  rw [found, Option.getD_some]

private theorem namesKey_self (text : String) : namesKey text
    (.object [("domain", .string "llm.kubetee.ai"), ("spki_sha256", .string text)]) = true := by
  have domain : (Value.object [("domain", .string "llm.kubetee.ai"),
      ("spki_sha256", .string text)]).get "domain" = some (.string hostDomain) := rfl
  have digest : (Value.object [("domain", .string "llm.kubetee.ai"),
      ("spki_sha256", .string text)]).get "spki_sha256" = some (.string text) := rfl
  rw [namesKey, domain, digest]
  simp [Value.asStr]

theorem spkiDigest_first : spkiDigest smallExternals firstSpki =
    "5cd252fb0ce8932436faf8ccd1040981b89ee4ad6b9fe9e2a2b7e71aacb27cd3" := by
  have text : String.ofList _ =
    "5cd252fb0ce8932436faf8ccd1040981b89ee4ad6b9fe9e2a2b7e71aacb27cd3" := rfl
  refine Eq.trans ?_ text
  exact congrArg String.ofList rfl

theorem spkiDigest_second : spkiDigest smallExternals secondSpki =
    "dc0ce633dbcc913dafafa4b89ac44d8ce683fdfc3f60c8bdf21213b9f2b534ba" := by
  have text : String.ofList _ =
    "dc0ce633dbcc913dafafa4b89ac44d8ce683fdfc3f60c8bdf21213b9f2b534ba" := rfl
  refine Eq.trans ?_ text
  exact congrArg String.ofList rfl

/-- A keyset of that tree is verified for a key it lists. -/
private theorem verified_small {keyset : Value} {leaf spki : Bytes}
    (certificate : smallExternals.parseX509Certificate leaf = .ok ⟨spki, 1924992000⟩)
    (read : jsonTree smallExternals.display keyset = .ok smallTree)
    (named : (((keyset.get "tls_public_keys").bind Value.asArray).any fun keys =>
      keys.any (namesKey (spkiDigest smallExternals spki))) = true)
    (dated : (keyset.get "not_after").bind Value.asStr = some "2030-01-01T00:00:00Z") :
    verifyServedKeyset smallExternals keyset smallBindings.keysetDigest leaf =
      .ok 1893456000000000000 := by
  have recomputed : recomputeKeysetDigest smallExternals.display smallExternals.sha256 keyset =
      .ok smallBindings.keysetDigest := by
    refine bind_eq_ok.mpr ⟨smallTree, read, ?_⟩
    rw [keysetDigest, jcs_smallTree, sha256_keyset, keysetDigest_small]
    rfl
  unfold verifyServedKeyset
  refine bind_eq_ok.mpr ⟨⟨spki, 1924992000⟩, ?_, bind_eq_ok.mpr ⟨_, recomputed,
    bind_eq_ok.mpr ⟨⟨⟩, ensure_eq_ok.mpr (beq_self_eq_true _), bind_eq_ok.mpr ⟨⟨⟩,
      ensure_eq_ok.mpr named, bind_eq_ok.mpr ⟨_, required_eq_ok.mpr dated,
        bind_eq_ok.mpr ⟨1893456000000000000, required_eq_ok.mpr ?_,
          bind_eq_ok.mpr ⟨1924992000000000000, rfl, rfl⟩⟩⟩⟩⟩⟩⟩
  · rw [certificate]
    rfl
  · simp only [smallExternals, if_true]

/-- A response with these bindings and such a keyset is accepted. -/
private theorem accepted_small {body leaf : Bytes} {now : DateTime} {payload : Value}
    {fields : BindingFields} (decoded : parseUniqueJson smallExternals.decode body = some payload)
    (halves : (payload.get "keyset").isSome = true ∧ (payload.get "bindings").isSome = true)
    (read : BindingFields.fromValue payload = some fields)
    (bindings : fields.bindings = smallBindings)
    (verified : verifyServedKeyset smallExternals fields.keyset smallBindings.keysetDigest leaf =
      .ok 1893456000000000000) (early : now < 1893456000000000000) :
    run smallExternals body smallNonce leaf now = .ok smallBinding := by
  have stated : reportDataOfStatement smallExternals.sha256 smallBindings.reportDataStatement
      smallBindings.keysetDigest smallNonce = .ok smallBinding.reportData := by
    have template := reportDataOfStatement_statementFor smallExternals.sha256 keysetHash smallNonce
    rw [keysetDigest_small, statementFor_small] at template
    exact template
  unfold run
  rw [decoded]
  refine bind_eq_ok.mpr ⟨payload, rfl, ?_⟩
  rw [halves.1, halves.2]
  refine bind_eq_ok.mpr ⟨fields, required_eq_ok.mpr read, ?_⟩
  rw [bindings]
  exact bind_eq_ok.mpr ⟨⟨⟩, ensure_eq_ok.mpr (beq_self_eq_true purpose), bind_eq_ok.mpr ⟨_, verified,
    bind_eq_ok.mpr ⟨_, stated, bind_eq_ok.mpr ⟨⟨⟩, ensure_eq_ok.mpr (decide_eq_true early), rfl⟩⟩⟩⟩

theorem secondBody_ne : secondBody ≠ firstBody := by
  intro same
  have third := congrArg (·[2]?) same
  have keyset : String.ofList _ = "\x7b\"keyset\":" := rfl
  have bindings : String.ofList _ = "\x7b\"bindings\":" := rfl
  simp only [secondBody, firstBody, asBytes_append, asBytes_of keyset, asBytes_of bindings,
    List.append_assoc] at third
  exact absurd third (by decide)

private theorem parsed_first : parseUniqueJson smallExternals.decode firstBody = some
    (.object [("keyset", firstFields.keyset), ("bindings", bindingsValue smallBindings)]) := by
  have decoded : smallExternals.decode firstBody = some
      (.object [("keyset", firstFields.keyset), ("bindings", bindingsValue smallBindings)]) := by
    simp only [smallExternals, if_true]
  unfold parseUniqueJson
  rw [decoded]
  rfl

private theorem parsed_second : parseUniqueJson smallExternals.decode secondBody = some
    (.object [("bindings", bindingsValue smallBindings), ("keyset", secondFields.keyset)]) := by
  have decoded : smallExternals.decode secondBody = some
      (.object [("bindings", bindingsValue smallBindings), ("keyset", secondFields.keyset)]) := by
    simp only [smallExternals, if_neg secondBody_ne, if_true]
  unfold parseUniqueJson
  rw [decoded]
  rfl

theorem parse_first :
    smallExternals.parseX509Certificate firstLeaf = .ok ⟨firstSpki, 1924992000⟩ := by
  simp only [smallExternals, if_true]

theorem secondLeaf_ne : secondLeaf ≠ firstLeaf := by decide

theorem parse_second :
    smallExternals.parseX509Certificate secondLeaf = .ok ⟨secondSpki, 1924992000⟩ := by
  simp only [smallExternals, if_neg secondLeaf_ne, if_true]

/-- Both responses are accepted, with one binding. -/
theorem bodies_accepted :
    run smallExternals firstBody smallNonce firstLeaf 0 = .ok smallBinding ∧
      run smallExternals secondBody smallNonce secondLeaf 1 = .ok smallBinding := by
  have named : verifyServedKeyset smallExternals firstFields.keyset smallBindings.keysetDigest
      firstLeaf = .ok 1893456000000000000 := by
    refine verified_small parse_first rfl ?_ rfl
    rw [spkiDigest_first]
    change ([_, _].any _) = true
    rw [List.any_cons, namesKey_self, Bool.true_or]
  have namedToo : verifyServedKeyset smallExternals secondFields.keyset smallBindings.keysetDigest
      secondLeaf = .ok 1893456000000000000 := by
    refine verified_small parse_second rfl ?_ rfl
    rw [spkiDigest_second]
    change ([_, _].any _) = true
    rw [List.any_cons, List.any_cons, namesKey_self, Bool.true_or, Bool.or_true]
  exact ⟨accepted_small parsed_first ⟨rfl, rfl⟩ rfl rfl named (by decide),
    accepted_small parsed_second ⟨rfl, rfl⟩ rfl rfl namedToo (by decide)⟩

/-- The keyset's text and the statement are all that is hashed. -/
private theorem hashed_small {body input : Bytes} {fields : BindingFields}
    (hashed : Hashed smallExternals body input) (found : served smallExternals body = some fields)
    (read : jsonTree smallExternals.display fields.keyset = .ok smallTree)
    (stated : fields.bindings = smallBindings) :
    input = asBytes smallKeysetText ∨ input = asBytes smallStatement := by
  cases hashed with
  | keyset found' read' =>
      cases found.symm.trans found'
      cases read.symm.trans read'
      rw [jcs_smallTree]
      exact .inl rfl
  | statement found' =>
      cases found.symm.trans found'
      rw [stated]
      exact .inr rfl

/-- One keyset, served in two orders under two certificates. -/
theorem report_data_determines_identity_small :
    run smallExternals firstBody smallNonce firstLeaf 0 = .ok smallBinding ∧
    run smallExternals secondBody smallNonce secondLeaf 1 = .ok smallBinding ∧
    firstBody ≠ secondBody ∧ firstLeaf ≠ secondLeaf ∧
    ∃ fields fields' tree, served smallExternals firstBody = some fields ∧
      served smallExternals secondBody = some fields' ∧
      jsonTree smallExternals.display fields.keyset = .ok tree ∧
      jsonTree smallExternals.display fields'.keyset = .ok tree ∧
      ListsLeaf smallExternals tree firstLeaf ∧ ListsLeaf smallExternals tree secondLeaf := by
  have first : served smallExternals firstBody = some firstFields := by
    unfold served
    rw [parsed_first]
    rfl
  have second : served smallExternals secondBody = some secondFields := by
    unfold served
    rw [parsed_second]
    rfl
  have apart : smallExternals.sha256 (asBytes smallKeysetText) ≠
      smallExternals.sha256 (asBytes smallStatement) := by
    rw [sha256_keyset, sha256_statement]
    decide
  obtain ⟨accepted, accepted'⟩ := bodies_accepted
  refine ⟨accepted, accepted', secondBody_ne.symm, secondLeaf_ne.symm,
    (report_data_determines_identity accepted accepted' ?_ rfl).2.2⟩
  intro input input' hashed hashed' same
  rcases hashed_small hashed first rfl rfl with rfl | rfl <;>
    rcases hashed_small hashed' second rfl rfl with rfl | rfl
  · rfl
  · exact absurd same apart
  · exact absurd same.symm apart
  · rfl

end BindingGuard

end GmMiner.Kubetee
