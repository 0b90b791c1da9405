import GmMiner.Json.Value
import GmMiner.Lib.PrefixCode
import GmMiner.Lib.Result
import GmMiner.Text
import Mathlib.Data.List.Sort

/-!
The `kubetee.attestation.v1` binding (`attestd/src/kubetee_verify/binding.rs`):
canonical JSON of a keyset, its digest, and the statement whose hash is the
report data.

A tree's text determines the tree (`jcs_injective`), so a keyset's digest names one
keyset unless SHA-256 collides. SHA-256 is a parameter, as is the text
`serde_json` writes for a value that no keyset may hold.
-/

namespace GmMiner.Kubetee

open GmMiner.Lib GmMiner.Json

abbrev Digest := Vector UInt8 32

def hexByte (byte : UInt8) : List Char :=
  [Nat.digitChar (byte.toNat / 16), Nat.digitChar (byte.toNat % 16)]

/-- `hex::encode`. -/
def hexEncode (bytes : Bytes) : List Char := bytes.flatMap hexByte

/-- The purpose tag every v1 statement carries. -/
def purpose : String := "kubetee.attestation.v1"

def keysetDigestPrefix : List Char := "sha256:".toList

def statementDigestPrefix : List Char := "\"keyset_digest\":\"".toList

def statementNoncePrefix : List Char := "\",\"nonce\":\"".toList

def statementSuffix : List Char := "\",\"purpose\":\"kubetee.attestation.v1\"\x7d".toList

/-- The JSON tree a keyset is built from; an object's names strictly increase. -/
inductive Json
  | string (text : String)
  | array (items : List Json)
  | object (fields : List (String × Json))
  deriving Repr

/-- `Value::get` of the tree. -/
def Json.get (name : String) : Json → Option Json
  | .object fields => fields.lookup name
  | _ => none

/-! ### Canonical JSON -/

/-- `format!("{:04x}")` of what is below 65536. -/
def hex04 (n : Nat) : List Char :=
  [n / 0x1000 % 16, n / 0x100 % 16, n / 0x10 % 16, n % 16].map Nat.digitChar

def escape : Char → List Char
  | '"' => ['\\', '"']
  | '\\' => ['\\', '\\']
  | '\x08' => ['\\', 'b']
  | '\x0c' => ['\\', 'f']
  | '\n' => ['\\', 'n']
  | '\r' => ['\\', 'r']
  | '\t' => ['\\', 't']
  | c => if c ≤ '\x1f' then '\\' :: 'u' :: hex04 c.toNat else [c]

def jcsString (text : String) : List Char := '"' :: (text.toList.flatMap escape ++ ['"'])

/-- `str::encode_utf16`. -/
def encodeUtf16 (text : String) : List Nat :=
  text.toList.flatMap fun c =>
    if c.toNat < 0x10000 then [c.toNat]
    else [0xD800 + (c.toNat - 0x10000) / 0x400, 0xDC00 + (c.toNat - 0x10000) % 0x400]

/-- The fields by their names' UTF-16 code units. -/
def sortByUtf16 {V : Type} (fields : List (String × V)) : List (String × V) :=
  fields.insertionSort fun left right => encodeUtf16 left.1 ≤ encodeUtf16 right.1

theorem sortByUtf16_perm {V : Type} (fields : List (String × V)) :
    (sortByUtf16 fields).Perm fields :=
  List.perm_insertionSort _ _

/-- RFC 8785 canonical JSON for the attestation input class. -/
def jcs : Json → List Char
  | .string text => jcsString text
  | .array items => '[' :: ([','].intercalate (items.map jcs) ++ [']'])
  | .object fields =>
      '\x7b' :: ([','].intercalate ((sortByUtf16 fields).attach.map fun ⟨field, _⟩ =>
        jcsString field.1 ++ [':'] ++ jcs field.2) ++ ['\x7d'])
termination_by value => sizeOf value
decreasing_by
  · rename_i mem
    simp only [Json.array.sizeOf_spec]
    have smaller := List.sizeOf_lt_of_mem mem
    omega
  · rename_i mem
    have smaller := List.sizeOf_lt_of_mem ((sortByUtf16_perm fields).mem_iff.mp mem)
    obtain ⟨name, value⟩ := field
    simp only [Json.object.sizeOf_spec, Prod.mk.sizeOf_spec] at smaller ⊢
    omega

/-- An entry of a canonical object. -/
def jcsField (field : String × Json) : List Char := jcsString field.1 ++ [':'] ++ jcs field.2

theorem jcs_string (text : String) : jcs (.string text) = jcsString text := by
  rw [jcs]

theorem jcs_array (items : List Json) :
    jcs (.array items) = '[' :: ([','].intercalate (items.map jcs) ++ [']']) := by
  rw [jcs]

theorem jcs_object (fields : List (String × Json)) :
    jcs (.object fields) =
      '\x7b' :: ([','].intercalate ((sortByUtf16 fields).map jcsField) ++ ['\x7d']) := by
  rw [jcs, List.map_attach_eq_pmap, List.pmap_eq_map]
  rfl

def hexValue (c : Char) : Nat := if c.isDigit then c.toNat - 48 else c.toNat - 87

/-- Read one escaped character. -/
def unescape : List Char → Option (Char × List Char)
  | '\\' :: '"' :: rest => some ('"', rest)
  | '\\' :: '\\' :: rest => some ('\\', rest)
  | '\\' :: 'b' :: rest => some ('\x08', rest)
  | '\\' :: 'f' :: rest => some ('\x0c', rest)
  | '\\' :: 'n' :: rest => some ('\n', rest)
  | '\\' :: 'r' :: rest => some ('\r', rest)
  | '\\' :: 't' :: rest => some ('\t', rest)
  | '\\' :: 'u' :: _ :: _ :: high :: low :: rest =>
      some (Char.ofNat (16 * hexValue high + hexValue low), rest)
  | c :: rest => some (c, rest)
  | [] => none

theorem hexValue_digitChar : ∀ digit < 16, hexValue (Nat.digitChar digit) = digit := by
  decide

/-- An escaped character is read back. -/
theorem unescape_escape (c : Char) (rest : List Char) :
    unescape (escape c ++ rest) = some (c, rest) := by
  unfold escape
  split
  · rfl
  · rfl
  · rfl
  · rfl
  · rfl
  · rfl
  · rfl
  · rename_i notSlash _ _ _ _ _
    split
    · rename_i low
      have bound : c.toNat ≤ 31 := low
      have high : c.toNat / 0x10 % 16 < 16 := Nat.mod_lt _ (by decide)
      have ones : c.toNat % 16 < 16 := Nat.mod_lt _ (by decide)
      have read : 16 * (c.toNat / 0x10 % 16) + c.toNat % 16 = c.toNat := by omega
      simp only [hex04, List.map_cons, List.map_nil, List.cons_append, List.nil_append, unescape,
        hexValue_digitChar _ high, hexValue_digitChar _ ones, read, Char.ofNat_toNat]
    · rw [List.singleton_append]
      unfold unescape
      split <;> simp_all

theorem readsBack_escape (c : Char) : ReadsBack escape (fun _ => True) c :=
  .of_decoder unescape (fun c _ rest => unescape_escape c rest) trivial

theorem escape_append_ne (c : Char) (rest rest' : List Char) : escape c ++ rest ≠ '"' :: rest' := by
  intro same
  have read := unescape_escape c rest
  rw [same] at read
  unfold unescape at read
  cases read
  simp [escape] at same

theorem readsBack_jcsString (text : String) : ReadsBack jcsString (fun _ => True) text := by
  intro other rest rest' _ same
  have closed := ReadsBack.terminated '"' (fun c (_ : True) => escape_append_ne c)
    (fun c _ => trivial) (fun c _ => readsBack_escape c) other.toList rest rest' (fun _ _ => trivial)
    (List.tail_eq_of_cons_eq same)
  exact ⟨String.toList_inj.mp closed.1, closed.2⟩

/-- The names of every object of the tree strictly increase. -/
inductive Json.Ordered : Json → Prop
  | string (text : String) : Ordered (.string text)
  | array {items : List Json} (each : ∀ item ∈ items, Ordered item) : Ordered (.array items)
  | object {fields : List (String × Json)} (each : ∀ field ∈ fields, Ordered field.2)
      (sorted : SortedMap.Sorted fields) : Ordered (.object fields)

theorem jcsString_append_ne (text : String) {close : Char} (other : close ≠ '"')
    (rest rest' : List Char) : jcsString text ++ rest ≠ close :: rest' := by
  intro same
  exact other (List.head_eq_of_cons_eq same).symm

/-- No tree's text begins with the end of an array. -/
theorem jcs_append_ne (tree : Json) (rest rest' : List Char) : jcs tree ++ rest ≠ ']' :: rest' := by
  cases tree with
  | string text =>
      rw [jcs_string]
      exact jcsString_append_ne text (by decide) rest rest'
  | array items => simp [jcs_array]
  | object fields => simp [jcs_object]

theorem jcsField_append_ne (field : String × Json) (rest rest' : List Char) :
    jcsField field ++ rest ≠ '\x7d' :: rest' := by
  unfold jcsField
  rw [List.append_assoc, List.append_assoc]
  exact jcsString_append_ne field.1 (by decide) _ rest'

theorem readsBack_jcsField {field : String × Json} (reads : ReadsBack jcs Json.Ordered field.2) :
    ReadsBack jcsField (fun field => Json.Ordered field.2) field := by
  intro other rest rest' ordered same
  exact (readsBack_jcsString field.1).pair reads [':'] other rest rest' ⟨trivial, ordered⟩ same

/-- A tree is read off the text that begins with its canonical form. -/
theorem readsBack_jcs {tree : Json} (ordered : tree.Ordered) : ReadsBack jcs Json.Ordered tree := by
  induction ordered with
  | string text =>
      intro other rest rest' _ same
      rw [jcs_string] at same
      cases other with
      | string text' =>
          rw [jcs_string] at same
          obtain ⟨rfl, rests⟩ := readsBack_jcsString text text' rest rest' trivial same
          exact ⟨rfl, rests⟩
      | array items => simp [jcs_array, jcsString] at same
      | object fields => simp [jcs_object, jcsString] at same
  | @array items each ih =>
      intro other rest rest' ordered same
      rw [jcs_array] at same
      cases ordered with
      | string text => simp [jcs_string, jcsString] at same
      | @array others eachOther =>
          rw [jcs_array] at same
          obtain ⟨rfl, rests⟩ := ReadsBack.separated ',' ']' (by decide)
            (fun tree _ => jcs_append_ne tree) each ih others rest rest' eachOther
            (List.tail_eq_of_cons_eq same)
          exact ⟨rfl, rests⟩
      | @object fields => simp [jcs_object] at same
  | @object fields each sorted ih =>
      intro other rest rest' ordered same
      rw [jcs_object] at same
      cases ordered with
      | string text => simp [jcs_string, jcsString] at same
      | array => simp [jcs_array] at same
      | @object others eachOther sortedOthers =>
          rw [jcs_object] at same
          have perm := sortByUtf16_perm fields
          have permOthers := sortByUtf16_perm others
          obtain ⟨sames, rests⟩ := ReadsBack.separated ',' '\x7d' (by decide)
            (fun field _ => jcsField_append_ne field)
            (fun field mem => each field (perm.mem_iff.mp mem))
            (fun field mem => readsBack_jcsField (ih field (perm.mem_iff.mp mem)))
            (sortByUtf16 others) rest rest'
            (fun field mem => eachOther field (permOthers.mem_iff.mp mem))
            (List.tail_eq_of_cons_eq same)
          -- The names' other order leaves the same entries, so the fields are the same.
          have entries : fields.Perm others := perm.symm.trans (sames ▸ permOthers)
          exact ⟨congrArg _ (sorted.eq_of_perm sortedOthers entries), rests⟩

/-- One text is the canonical form of one tree. -/
theorem jcs_injective {tree other : Json} (ordered : tree.Ordered) (orderedOther : other.Ordered)
    (same : jcs tree = jcs other) : tree = other :=
  (readsBack_jcs ordered).injective orderedOther same

-- Names by UTF-16 code units at every depth, not by code points.
example : jcs (.object [("array", .array [.object [("\uE000", .string "bmp"),
      ("😀", .string "supplementary")]]), ("\uE000", .string "a\nb"), ("😀", .string "x\"y")]) =
    "\x7b\"array\":[\x7b\"😀\":\"supplementary\",\"\uE000\":\"bmp\"\x7d],\"😀\":\"x\\\"y\",\"\uE000\":\"a\\nb\"\x7d".toList := by
  decide +kernel

/-! ### Digests -/

/-- A byte is read back from its two digits. -/
private theorem readsBack_hexByte (byte : UInt8) : ReadsBack hexByte (fun _ => True) byte := by
  have digit : ∀ a < 16, ∀ b < 16, Nat.digitChar a = Nat.digitChar b → a = b := by decide
  refine ReadsBack.of_length 2 (fun _ => rfl) (fun a b same => ?_) byte
  have small := a.toNat_lt
  have smallOther := b.toNat_lt
  have high := digit _ (by omega) _ (by omega) (List.head_eq_of_cons_eq same)
  have low := digit _ (Nat.mod_lt _ (by decide)) _ (Nat.mod_lt _ (by decide))
    (List.head_eq_of_cons_eq (List.tail_eq_of_cons_eq same))
  exact UInt8.toNat_inj.mp (by omega)

private theorem hexByte_append_ne (byte : UInt8) (rest rest' : List Char) :
    hexByte byte ++ rest ≠ '"' :: rest' := by
  have digit : ∀ a < 16, Nat.digitChar a ≠ '"' := by decide
  intro same
  have small := byte.toNat_lt
  exact digit (byte.toNat / 16) (by omega) (List.head_eq_of_cons_eq same)

/-- A digest is read off its hex digits up to the quotation mark. -/
theorem readsBack_hexEncode (bytes : Bytes) :
    ReadsBack (fun bytes => hexEncode bytes ++ ['"']) (fun _ => True) bytes := by
  intro others rest rest' _ same
  exact ReadsBack.terminated '"' (fun byte (_ : True) => hexByte_append_ne byte)
    (fun _ _ => trivial) (fun byte _ => readsBack_hexByte byte) others rest rest'
    (fun _ _ => trivial) same

section Statement

variable (sha256 : Bytes → Digest)

/-- `sha256:<hex>` over the canonical keyset. -/
def keysetDigest (keyset : Json) : String :=
  String.ofList
    (keysetDigestPrefix ++ hexEncode (sha256 (asBytes (String.ofList (jcs keyset)))).toList)

/-- A hash followed by 32 zero bytes. -/
def zeroPadded (hash : Digest) : Vector UInt8 64 :=
  (hash ++ Vector.replicate 32 (0 : UInt8) : Vector UInt8 (32 + 32))

theorem zeroPadded_injective {hash other : Digest} (same : zeroPadded hash = zeroPadded other) :
    hash = other :=
  Vector.append_inj_left same

/-- The report data a served statement binds, if it is the template for the keyset
digest and the nonce. -/
def reportDataOfStatement (statement keysetDigestValue nonce : String) :
    Except String (Vector UInt8 64) :=
  match ((stripPrefix ['\x7b'] statement.toList).bind
      (stripPrefix statementDigestPrefix)).bind (stripPrefix keysetDigestPrefix) with
  | none => .error "kubetee.attestation.v1 statement is not the fixed template"
  | some rest =>
      match (stripPrefix ((stripPrefix keysetDigestPrefix keysetDigestValue.toList).getD
          keysetDigestValue.toList) rest).bind (stripPrefix statementNoncePrefix) with
      | none => .error "kubetee.attestation.v1 statement names a different keyset digest"
      | some rest =>
          match stripPrefix nonce.toList rest with
          | none => .error "kubetee.attestation.v1 statement names a different nonce"
          | some rest =>
              if rest = statementSuffix then
                .ok (zeroPadded (sha256 (asBytes statement)))
              else
                .error "kubetee.attestation.v1 statement has no kubetee.attestation.v1 purpose"

/-- The statement for a digest and a nonce. -/
def statementFor (digest : Digest) (nonce : String) : List Char :=
  '\x7b' :: (statementDigestPrefix ++ (keysetDigestPrefix ++ (hexEncode digest.toList ++
    (statementNoncePrefix ++ (nonce.toList ++ statementSuffix)))))

/-- The template is accepted, and hashed as served. -/
theorem reportDataOfStatement_statementFor (digest : Digest) (nonce : String) :
    reportDataOfStatement sha256 (String.ofList (statementFor digest nonce))
      (String.ofList (keysetDigestPrefix ++ hexEncode digest.toList)) nonce =
        .ok (zeroPadded (sha256 (asBytes (String.ofList (statementFor digest nonce))))) := by
  have peeled : ∀ start rest : List Char, stripPrefix start (start ++ rest) = some rest :=
    fun _ _ => stripPrefix_eq_some.mpr rfl
  have brace : ∀ rest, stripPrefix ['\x7b'] ('\x7b' :: rest) = some rest :=
    fun rest => peeled ['\x7b'] rest
  unfold reportDataOfStatement
  simp only [String.toList_ofList]
  simp only [statementFor, brace, Option.bind_some, peeled, Option.getD_some, if_true]

variable {sha256}

/-- An accepted statement is the template, and is hashed as served. -/
theorem reportDataOfStatement_eq_ok {statement nonce : String} {digest : Digest}
    {reportData : Vector UInt8 64}
    (accepted : reportDataOfStatement sha256 statement
      (String.ofList (keysetDigestPrefix ++ hexEncode digest.toList)) nonce = .ok reportData) :
    statement.toList = statementFor digest nonce ∧
      reportData = zeroPadded (sha256 (asBytes statement)) := by
  have named : stripPrefix keysetDigestPrefix (keysetDigestPrefix ++ hexEncode digest.toList) =
      some (hexEncode digest.toList) := stripPrefix_eq_some.mpr rfl
  unfold reportDataOfStatement at accepted
  rw [String.toList_ofList, named, Option.getD_some] at accepted
  split at accepted
  · cases accepted
  · rename_i rest opened
    split at accepted
    · cases accepted
    · rename_i afterDigest digested
      split at accepted
      · cases accepted
      · rename_i suffix nonced
        split at accepted
        · rename_i isSuffix
          simp only [Option.bind_eq_some_iff, stripPrefix_eq_some] at opened digested nonced
          obtain ⟨_, ⟨_, brace, opens⟩, names⟩ := opened
          obtain ⟨_, digits, nonceNext⟩ := digested
          refine ⟨?_, (Except.ok.inj accepted).symm⟩
          rw [brace, opens, names, digits, nonceNext, nonced, isSuffix]
          rfl
        · cases accepted

/-- The template names one digest and one nonce. -/
theorem statementFor_injective {digest other : Digest} {nonce nonce' : String}
    (same : statementFor digest nonce = statementFor other nonce') :
    digest = other ∧ nonce = nonce' := by
  have opens : statementNoncePrefix = ['"'] ++ ",\"nonce\":\"".toList := by decide
  unfold statementFor at same
  have inner := List.append_cancel_left (List.append_cancel_left (List.tail_eq_of_cons_eq same))
  have digits : hexEncode digest.toList ++ ['"'] ++
        (",\"nonce\":\"".toList ++ (nonce.toList ++ statementSuffix)) =
      hexEncode other.toList ++ ['"'] ++
        (",\"nonce\":\"".toList ++ (nonce'.toList ++ statementSuffix)) := by
    simpa only [opens, List.append_assoc] using inner
  obtain ⟨digests, rests⟩ := readsBack_hexEncode digest.toList other.toList _ _ trivial digits
  have nonces := List.append_cancel_right (List.append_cancel_left rests)
  exact ⟨Vector.toList_inj.mp digests, String.toList_inj.mp nonces⟩

end Statement

/-! ### Served keysets -/

section Served

variable (display : Value → String)

private def outside (other : Value) : String :=
  "kubetee.attestation.v1 keyset holds " ++ display other ++
    ", outside the attestation input class"

mutual

def jsonTree : Value → Except String Json
  | .string text => .ok (.string text)
  | .array items => do
      let trees ← jsonTrees items
      return .array trees
  | .object fields => do
      let tree ← jsonFields fields []
      return .object tree
  | .null => .error (outside display .null)
  | .bool b => .error (outside display (.bool b))
  | .number n => .error (outside display (.number n))

def jsonTrees : List Value → Except String (List Json)
  | [] => return []
  | item :: rest => do
      let tree ← jsonTree item
      let trees ← jsonTrees rest
      return tree :: trees

/-- The loop over an object's members. -/
def jsonFields : List (String × Value) → List (String × Json) →
    Except String (List (String × Json))
  | [], tree => return tree
  | (key, value) :: rest, tree => do
      let child ← jsonTree value
      jsonFields rest (SortedMap.insert key child tree)

end

/-- The digest recomputed from a served keyset. -/
def recomputeKeysetDigest (sha256 : Bytes → Digest) (keyset : Value) : Except String String := do
  let tree ← jsonTree display keyset
  return keysetDigest sha256 tree

variable {display}

/-- Each item has its tree, and each tree is an item's. -/
theorem jsonTrees_mem {items : List Value} {trees : List Json}
    (read : jsonTrees display items = .ok trees) :
    (∀ item ∈ items, ∃ tree ∈ trees, jsonTree display item = .ok tree) ∧
      ∀ tree ∈ trees, ∃ item ∈ items, jsonTree display item = .ok tree := by
  induction items generalizing trees with
  | nil =>
      cases read
      exact ⟨nofun, nofun⟩
  | cons item rest ih =>
      unfold jsonTrees at read
      obtain ⟨first, here, read⟩ := bind_eq_ok.mp read
      obtain ⟨others, later, read⟩ := bind_eq_ok.mp read
      cases read
      obtain ⟨treeOf, itemOf⟩ := ih later
      constructor
      · intro item' mem
        rcases List.mem_cons.mp mem with rfl | mem
        · exact ⟨first, List.mem_cons_self, here⟩
        · obtain ⟨tree, listed, read⟩ := treeOf item' mem
          exact ⟨tree, List.mem_cons_of_mem _ listed, read⟩
      · intro tree mem
        rcases List.mem_cons.mp mem with rfl | mem
        · exact ⟨item, List.mem_cons_self, here⟩
        · obtain ⟨item', listed, read⟩ := itemOf tree mem
          exact ⟨item', List.mem_cons_of_mem _ listed, read⟩

theorem jsonTree_array {items : List Value} {tree : Json}
    (read : jsonTree display (.array items) = .ok tree) :
    ∃ trees, jsonTrees display items = .ok trees ∧ tree = .array trees := by
  unfold jsonTree at read
  obtain ⟨trees, items, read⟩ := bind_eq_ok.mp read
  cases read
  exact ⟨trees, items, rfl⟩

theorem jsonTree_object {members : List (String × Value)} {tree : Json}
    (read : jsonTree display (.object members) = .ok tree) :
    ∃ fields, jsonFields display members [] = .ok fields ∧ tree = .object fields := by
  unfold jsonTree at read
  obtain ⟨fields, members, read⟩ := bind_eq_ok.mp read
  cases read
  exact ⟨fields, members, rfl⟩

/-- The tree holds the trees of the members, and what it held under other names. -/
theorem jsonFields_lookup {members : List (String × Value)} (nodup : (members.map Prod.fst).Nodup)
    {tree fields : List (String × Json)} (read : jsonFields display members tree = .ok fields)
    (name : String) :
    (∀ value, members.lookup name = some value →
      ∃ child, jsonTree display value = .ok child ∧ fields.lookup name = some child) ∧
    (members.lookup name = none → fields.lookup name = tree.lookup name) := by
  induction members generalizing tree with
  | nil =>
      cases read
      exact ⟨fun value found => by simp at found, fun _ => rfl⟩
  | cons member rest ih =>
      obtain ⟨key, value⟩ := member
      unfold jsonFields at read
      obtain ⟨child, here, read⟩ := bind_eq_ok.mp read
      rw [List.map_cons, List.nodup_cons] at nodup
      obtain ⟨later, kept⟩ := ih nodup.2 read
      rw [SortedMap.lookup_cons]
      by_cases same : name = key
      · subst same
        have absent : rest.lookup name = none := by
          cases found : rest.lookup name with
          | none => rfl
          | some value =>
              exact absurd (List.mem_map.mpr ⟨_, Value.mem_of_lookup found, rfl⟩) nodup.1
        rw [if_pos rfl]
        refine ⟨fun value' found => ?_, nofun⟩
        cases found
        refine ⟨child, here, ?_⟩
        rw [kept absent, SortedMap.lookup_insert, if_pos rfl]
      · rw [if_neg same]
        refine ⟨later, fun absent => ?_⟩
        rw [kept absent, SortedMap.lookup_insert, if_neg same]

/-- Inserting the members keeps the fields sorted. -/
theorem jsonFields_sorted {members : List (String × Value)} {tree fields : List (String × Json)}
    (read : jsonFields display members tree = .ok fields) (sorted : SortedMap.Sorted tree) :
    SortedMap.Sorted fields := by
  induction members generalizing tree with
  | nil =>
      cases read
      exact sorted
  | cons member rest ih =>
      unfold jsonFields at read
      obtain ⟨child, here, read⟩ := bind_eq_ok.mp read
      exact ih read sorted.insert

/-- Every field was there, or is a member's. -/
theorem jsonFields_mem {members : List (String × Value)} {tree fields : List (String × Json)}
    (read : jsonFields display members tree = .ok fields) {field : String × Json}
    (mem : field ∈ fields) :
    field ∈ tree ∨ ∃ member ∈ members, jsonTree display member.2 = .ok field.2 := by
  induction members generalizing tree with
  | nil =>
      cases read
      exact .inl mem
  | cons member rest ih =>
      unfold jsonFields at read
      obtain ⟨child, here, read⟩ := bind_eq_ok.mp read
      rcases ih read with held | ⟨member', listed, later⟩
      · rcases SortedMap.mem_insert held with rfl | before
        · exact .inr ⟨member, List.mem_cons_self, here⟩
        · exact .inl before
      · exact .inr ⟨member', List.mem_cons_of_mem _ listed, later⟩

/-- A tree that was read is ordered. -/
theorem ordered_jsonTree {value : Value} {tree : Json} (read : jsonTree display value = .ok tree) :
    tree.Ordered := by
  match value with
  | .string text =>
      unfold jsonTree at read
      cases read
      exact .string text
  | .array items =>
      obtain ⟨trees, each, rfl⟩ := jsonTree_array read
      refine .array fun tree mem => ?_
      obtain ⟨item, listed, here⟩ := (jsonTrees_mem each).2 tree mem
      have smaller := List.sizeOf_lt_of_mem listed
      exact ordered_jsonTree here
  | .object members =>
      obtain ⟨fields, each, rfl⟩ := jsonTree_object read
      refine .object (fun field mem => ?_) (jsonFields_sorted each List.Pairwise.nil)
      rcases jsonFields_mem each mem with none | ⟨member, listed, here⟩
      · cases none
      · have smaller := List.sizeOf_lt_of_mem listed
        exact ordered_jsonTree here
  | .null | .bool _ | .number _ =>
      unfold jsonTree at read
      cases read
termination_by sizeOf value
decreasing_by
  · simp only [Value.array.sizeOf_spec]
    omega
  · obtain ⟨name, value⟩ := member
    simp only [Value.object.sizeOf_spec, Prod.mk.sizeOf_spec] at smaller ⊢
    omega

/-- What a value holds under a name, its tree holds the tree of. -/
theorem jsonTree_get {value child : Value} {tree : Json}
    (read : jsonTree display value = .ok tree) (unique : value.unique = true) {name : String}
    (found : value.get name = some child) :
    ∃ childTree, jsonTree display child = .ok childTree ∧ tree.get name = some childTree := by
  cases value with
  | object members =>
      obtain ⟨fields, each, rfl⟩ := jsonTree_object read
      rw [Value.unique] at unique
      exact (jsonFields_lookup (Value.nodup_of_uniqueMembers unique) each name).1 child found
  | null | bool | number | string | array => cases found

end Served

end GmMiner.Kubetee
