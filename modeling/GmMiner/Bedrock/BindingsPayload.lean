import GmMiner.Bedrock.Bindings
import GmMiner.Json.Value
import GmMiner.Lib.Result
import GmMiner.Text
import Mathlib.Data.List.Perm.Subperm

/-!
Reading a registry snapshot of model bindings (`parse_bindings_payload` of
`attestd/src/bedrock_mantle.rs`).

`IsSnapshot` says what a document of bindings is, apart from any reader: its objects have
exactly their names, and its rows are rows of one provider. A reader accepts the documents whose
rows name no model twice.
-/

namespace GmMiner.Bedrock

open GmMiner.Lib GmMiner.Json
open Std (ExtTreeMap)

/-! ### Identifiers -/

/-- The bytes an identifier may hold, all of them ASCII. -/
def isIdentifierChar (c : Char) : Bool :=
  c.isAlphanum || c == '.' || c == '-' || c == '_' || c == ':'

/-- A text of identifier characters that starts with a letter or a digit. -/
def isIdentifier (text : List Char) : Bool :=
  (text.head?.any Char.isAlphanum) && text.all isIdentifierChar

def maxModelIdBytes : Nat := 256

/-- `MAX_SAFE_INTEGER`: every integer up to it is an exact double. -/
def maxSafeInteger : Nat := 9007199254740991

def maxModelBindings : Nat := 1024

def validModelId (value : String) : Bool :=
  decide (value.utf8ByteSize ≤ maxModelIdBytes) && isIdentifier value.toList

def validBedrockSelector (value : String) : Bool :=
  match stripPrefix "anthropic.".toList value.toList with
  | none => false
  | some suffix => decide (value.utf8ByteSize ≤ maxModelIdBytes) && isIdentifier suffix

/-! ### What a document of bindings is -/

abbrev Members := List (String × Value)

def envelopeNames : List String := ["schema_version", "network", "revision", "bindings"]

def rowNames : List String :=
  ["provider", "model", "upstream_model", "response_model", "revision"]

/-- A row, apart from its provider. -/
structure BindingRow where
  model : String
  upstreamModel : String
  responseModel : String
  revision : Nat
  deriving DecidableEq, Repr

/-- A value is a row of a snapshot. -/
structure IsRow (snapshotRevision : Nat) (value : Value) (row : BindingRow) : Prop where
  shape : ∃ members, value = .object members ∧ (members.map Prod.fst).Perm rowNames ∧
    (members.lookup "provider").bind Value.asStr = some "anthropic" ∧
    (members.lookup "model").bind Value.asStr = some row.model ∧
    (members.lookup "upstream_model").bind Value.asStr = some row.upstreamModel ∧
    (members.lookup "response_model").bind Value.asStr = some row.responseModel ∧
    (members.lookup "revision").bind Value.asU64 = some row.revision
  model : validModelId row.model = true
  upstreamModel : validBedrockSelector row.upstreamModel = true
  responseModel : validModelId row.responseModel = true
  positive : 0 < row.revision
  bounded : row.revision ≤ snapshotRevision

/-- A value is a snapshot for a network, with its rows in their order. -/
structure IsSnapshot (network : String) (value : Value) (revision : Nat)
    (rows : List BindingRow) : Prop where
  shape : ∃ members items, value = .object members ∧
    (members.map Prod.fst).Perm envelopeNames ∧
    (members.lookup "schema_version").bind Value.asU64 = some 1 ∧
    (members.lookup "network").bind Value.asStr = some network ∧
    (members.lookup "revision").bind Value.asU64 = some revision ∧
    (members.lookup "bindings").bind Value.asArray = some items ∧
    List.Forall₂ (IsRow revision) items rows ∧ items.length ≤ maxModelBindings
  safe : revision ≤ maxSafeInteger

/-! ### The reader -/

/-- `object_has_only_keys`. -/
def objectHasOnlyKeys (object : Members) (allowed : List String) : Bool :=
  (object.all fun member => allowed.contains member.1) &&
    allowed.all fun key => (object.lookup key).isSome

/-- The body of the loop over the rows. -/
def readModelBinding (revision : Nat) (row : Value) : Except String ModelBinding := do
  let row ← required (row.asObject.filter fun row => objectHasOnlyKeys row rowNames)
    "registry model binding has an invalid shape"
  let provider ← required (((row.lookup "provider").bind Value.asStr).filter (· == "anthropic"))
    "registry model binding has an invalid provider"
  let model ← required (((row.lookup "model").bind Value.asStr).filter validModelId)
    "registry model binding has an invalid canonical model"
  let upstreamModel ← required
    (((row.lookup "upstream_model").bind Value.asStr).filter validBedrockSelector)
    "registry model binding has an invalid Bedrock selector"
  let responseModel ← required
    (((row.lookup "response_model").bind Value.asStr).filter validModelId)
    "registry model binding has an invalid response identity"
  let revision ← required (((row.lookup "revision").bind Value.asU64).filter fun value =>
      decide (0 < value) && decide (value ≤ maxSafeInteger) && decide (value ≤ revision))
    "registry model binding has an invalid revision"
  return { provider, model, upstreamModel, responseModel, revision }

/-- The loop over the rows. -/
def insertRows (revision : Nat) : Table ModelBinding → List Value →
    Except String (Table ModelBinding)
  | bindings, [] => .ok bindings
  | bindings, row :: rest => do
      let binding ← readModelBinding revision row
      if binding.model ∈ bindings then
        .error "registry model bindings contain a duplicate canonical model"
      else insertRows revision (bindings.insert binding.model binding) rest

/-- What follows `parse_unique_json` in `parse_bindings_payload`. -/
def readBindingsPayload (value : Value) (expectedNetwork : String) :
    Except String BindingsSnapshot := do
  let object ← required (value.asObject.filter fun object => objectHasOnlyKeys object envelopeNames)
    "registry binding response has an invalid envelope"
  ensure ((object.lookup "schema_version").bind Value.asU64 == some 1)
    "registry binding schema version is unsupported"
  let network ← required ((object.lookup "network").bind Value.asStr)
    "registry binding response has no network"
  ensure (network == expectedNetwork) "registry binding response is for a different network"
  let revision ← required (((object.lookup "revision").bind Value.asU64).filter fun revision =>
      decide (revision ≤ maxSafeInteger)) "registry binding response has an invalid revision"
  let rows ← required (((object.lookup "bindings").bind Value.asArray).filter fun rows =>
      decide (rows.length ≤ maxModelBindings))
    "registry binding response has an invalid binding list"
  let bindings ← insertRows revision ∅ rows
  return { network, revision, bindings }

def parseBindingsPayload (decode : List UInt8 → Option Value) (bytes : List UInt8)
    (expectedNetwork : String) : Except String BindingsSnapshot := do
  let value ← required (parseUniqueJson decode bytes) "registry binding response is invalid JSON"
  readBindingsPayload value expectedNetwork

/-! ### Exact names -/

/-- A member is found exactly if its name is among them. -/
theorem isSome_lookup_iff {members : Members} {name : String} :
    (members.lookup name).isSome = true ↔ name ∈ members.map Prod.fst := by
  constructor
  · intro found
    obtain ⟨value, found⟩ := Option.isSome_iff_exists.mp found
    exact List.mem_map_of_mem (f := Prod.fst) (Value.mem_of_lookup found)
  · intro mem
    obtain ⟨member, held, rfl⟩ := List.mem_map.mp mem
    by_contra absent
    rw [Bool.not_eq_true, Option.isSome_eq_false_iff, Option.isNone_iff_eq_none,
      List.lookup_eq_none_iff] at absent
    simpa using absent member held

/-- Where every name comes once, only the allowed names are exactly them. -/
theorem objectHasOnlyKeys_iff {members : Members} {allowed : List String}
    (once : (members.map Prod.fst).Nodup) (distinct : allowed.Nodup) :
    objectHasOnlyKeys members allowed = true ↔ (members.map Prod.fst).Perm allowed := by
  unfold objectHasOnlyKeys
  rw [Bool.and_eq_true, List.all_eq_true, List.all_eq_true,
    List.perm_ext_iff_of_nodup once distinct]
  simp only [isSome_lookup_iff, List.contains_iff_mem]
  constructor
  · rintro ⟨only, every⟩ name
    refine ⟨fun mem => ?_, every name⟩
    obtain ⟨member, held, rfl⟩ := List.mem_map.mp mem
    exact only member held
  · intro same
    exact ⟨fun member mem => (same _).mp (List.mem_map_of_mem mem), fun name => (same name).mpr⟩

theorem members_nodup {value : Value} (unique : value.unique = true) {members : Members}
    (object : value = .object members) : (members.map Prod.fst).Nodup := by
  subst object
  rw [Value.unique] at unique
  exact Value.nodup_of_uniqueMembers unique

/-! ### The rows -/

/-- The row the adapter keeps. -/
def ModelBinding.ofRow (row : BindingRow) : ModelBinding :=
  ⟨"anthropic", row.model, row.upstreamModel, row.responseModel, row.revision⟩

/-- A row is read exactly if it is one, with the binding it states. -/
theorem readModelBinding_ok {revision : Nat} (safe : revision ≤ maxSafeInteger) {value : Value}
    (unique : value.unique = true) {binding : ModelBinding} :
    readModelBinding revision value = .ok binding ↔
      ∃ row, IsRow revision value row ∧ binding = .ofRow row := by
  unfold readModelBinding
  constructor
  · intro accepted
    obtain ⟨members, object, accepted⟩ := bind_eq_ok.mp accepted
    obtain ⟨provider, provider', accepted⟩ := bind_eq_ok.mp accepted
    obtain ⟨model, model', accepted⟩ := bind_eq_ok.mp accepted
    obtain ⟨upstream, upstream', accepted⟩ := bind_eq_ok.mp accepted
    obtain ⟨response, response', accepted⟩ := bind_eq_ok.mp accepted
    obtain ⟨number, number', accepted⟩ := bind_eq_ok.mp accepted
    -- The checks in the order of the source; each leaves one field of the row.
    cases accepted
    rw [required_eq_ok, Option.filter_eq_some_iff] at object provider' model' upstream' response' number'
    obtain ⟨object, names⟩ := object
    have object := Value.asObject_eq_some.mp object
    rw [objectHasOnlyKeys_iff (members_nodup unique object) (by decide)] at names
    obtain ⟨held, anthropic⟩ := provider'
    cases beq_iff_eq.mp anthropic
    simp only [Bool.and_eq_true, decide_eq_true_eq] at number'
    exact ⟨⟨model, upstream, response, number⟩,
      ⟨⟨members, object, names, held, model'.1, upstream'.1, response'.1, number'.1⟩,
        model'.2, upstream'.2, response'.2, number'.2.1.1, number'.2.2⟩, rfl⟩
  · rintro ⟨row, is, rfl⟩
    obtain ⟨members, object, names, provider, model, upstream, response, number⟩ := is.shape
    have only := (objectHasOnlyKeys_iff (members_nodup unique object) (by decide)).mpr names
    have bounds : (decide (0 < row.revision) && decide (row.revision ≤ maxSafeInteger) &&
        decide (row.revision ≤ revision)) = true := by
      simp only [Bool.and_eq_true, decide_eq_true_eq]
      exact ⟨⟨is.positive, is.bounded.trans safe⟩, is.bounded⟩
    refine bind_eq_ok.mpr ⟨members, required_eq_ok.mpr (Option.filter_eq_some_iff.mpr
      ⟨Value.asObject_eq_some.mpr object, only⟩), ?_⟩
    refine bind_eq_ok.mpr ⟨_, required_eq_ok.mpr (Option.filter_eq_some_iff.mpr ⟨provider, rfl⟩), ?_⟩
    refine bind_eq_ok.mpr ⟨_, required_eq_ok.mpr (Option.filter_eq_some_iff.mpr ⟨model, is.model⟩), ?_⟩
    refine bind_eq_ok.mpr
      ⟨_, required_eq_ok.mpr (Option.filter_eq_some_iff.mpr ⟨upstream, is.upstreamModel⟩), ?_⟩
    refine bind_eq_ok.mpr
      ⟨_, required_eq_ok.mpr (Option.filter_eq_some_iff.mpr ⟨response, is.responseModel⟩), ?_⟩
    exact bind_eq_ok.mpr ⟨_, required_eq_ok.mpr (Option.filter_eq_some_iff.mpr ⟨number, bounds⟩), rfl⟩

/-- A table with rows added. -/
def insertAll (bindings : Table ModelBinding) (rows : List BindingRow) : Table ModelBinding :=
  rows.foldl (fun bindings row => bindings.insert row.model (.ofRow row)) bindings

/-- The rows are inserted exactly if each is one and no model has two. -/
theorem insertRows_ok {revision : Nat} (safe : revision ≤ maxSafeInteger) {items : List Value}
    (unique : ∀ item ∈ items, item.unique = true) {bindings result : Table ModelBinding} :
    insertRows revision bindings items = .ok result ↔
      ∃ rows, List.Forall₂ (IsRow revision) items rows ∧
        (rows.map BindingRow.model).Nodup ∧ (∀ row ∈ rows, row.model ∉ bindings) ∧
        result = insertAll bindings rows := by
  induction items generalizing bindings with
  | nil =>
      unfold insertRows
      constructor
      · intro same
        cases same
        exact ⟨[], .nil, .nil, nofun, rfl⟩
      · rintro ⟨rows, all, -, -, rfl⟩
        cases all
        rfl
  | cons item rest ih =>
      have here := unique item List.mem_cons_self
      have ih {bindings} := @ih (fun item mem => unique item (List.mem_cons_of_mem _ mem)) bindings
      unfold insertRows
      constructor
      · intro accepted
        obtain ⟨binding, read, accepted⟩ := bind_eq_ok.mp accepted
        obtain ⟨row, is, rfl⟩ := (readModelBinding_ok safe here).mp read
        split at accepted
        · cases accepted
        · rename_i absent
          -- The rest is inserted into the map that has this row, so no later row has its model.
          obtain ⟨rows, all, distinct, fresh, rfl⟩ := ih.mp accepted
          have apart : ∀ other ∈ rows, other.model ≠ row.model ∧ other.model ∉ bindings := by
            intro other mem
            have new := fresh other mem
            rw [ExtTreeMap.mem_insert, not_or] at new
            exact ⟨fun same => new.1 (same ▸ Std.ReflCmp.compare_self), new.2⟩
          refine ⟨row :: rows, .cons is all, ?_, ?_, rfl⟩
          · rw [List.map_cons, List.nodup_cons]
            refine ⟨fun mem => ?_, distinct⟩
            obtain ⟨other, mem, same⟩ := List.mem_map.mp mem
            exact (apart other mem).1 same
          · exact List.forall_mem_cons.mpr ⟨absent, fun other mem => (apart other mem).2⟩
      · rintro ⟨found, paired, distinct, fresh, rfl⟩
        obtain ⟨row, rows, is, all, rfl⟩ := List.forall₂_cons_left_iff.mp paired
        rw [List.map_cons, List.nodup_cons] at distinct
        obtain ⟨absent, later⟩ := List.forall_mem_cons.mp fresh
        refine bind_eq_ok.mpr ⟨_, (readModelBinding_ok safe here).mpr ⟨row, is, rfl⟩, ?_⟩
        rw [if_neg (show (ModelBinding.ofRow row).model ∉ bindings from absent)]
        refine ih.mpr ⟨rows, all, distinct.2, fun other mem => ?_, rfl⟩
        rw [ExtTreeMap.mem_insert, not_or]
        refine ⟨fun same => distinct.1 ?_, later other mem⟩
        exact (Std.LawfulEqCmp.eq_of_compare same : row.model = other.model) ▸
          List.mem_map_of_mem mem

/-! ### The document -/

/-- The items of a member repeat no name if the object repeats none. -/
theorem unique_of_lookup {members : Members} (unique : (Value.object members).unique = true)
    {name : String} {items : List Value}
    (held : (members.lookup name).bind Value.asArray = some items) :
    ∀ item ∈ items, item.unique = true := by
  obtain ⟨value, found, array⟩ := Option.bind_eq_some_iff.mp held
  have inner : value.unique = true :=
    Value.unique_get unique ((Value.get_object name members).trans found)
  cases value with
  | array items' =>
      cases array
      rw [Value.unique] at inner
      exact fun item mem => Value.unique_of_mem_items inner mem
  | null | bool | number | string | object => cases array

/-- The reader accepts the snapshots whose rows name no model twice. -/
theorem readBindingsPayload_ok {value : Value} (unique : value.unique = true) {network : String}
    {snapshot : BindingsSnapshot} :
    readBindingsPayload value network = .ok snapshot ↔
      ∃ rows, IsSnapshot network value snapshot.revision rows ∧
        (rows.map BindingRow.model).Nodup ∧ snapshot.network = network ∧
        snapshot.bindings = insertAll ∅ rows := by
  unfold readBindingsPayload
  constructor
  · intro accepted
    obtain ⟨members, object, accepted⟩ := bind_eq_ok.mp accepted
    obtain ⟨⟨⟩, version, accepted⟩ := bind_eq_ok.mp accepted
    obtain ⟨named, network', accepted⟩ := bind_eq_ok.mp accepted
    obtain ⟨⟨⟩, same, accepted⟩ := bind_eq_ok.mp accepted
    obtain ⟨revision, revision', accepted⟩ := bind_eq_ok.mp accepted
    obtain ⟨items, items', accepted⟩ := bind_eq_ok.mp accepted
    obtain ⟨bindings, inserted, accepted⟩ := bind_eq_ok.mp accepted
    cases accepted
    rw [required_eq_ok, Option.filter_eq_some_iff] at object revision' items'
    obtain ⟨object, names⟩ := object
    have object := Value.asObject_eq_some.mp object
    rw [objectHasOnlyKeys_iff (members_nodup unique object) (by decide)] at names
    have network' := required_eq_ok.mp network'
    cases beq_iff_eq.mp (ensure_eq_ok.mp same)
    -- The revision is bounded before the rows are read, which their own revisions rest on.
    have safe := decide_eq_true_eq.mp revision'.2
    subst object
    obtain ⟨rows, all, distinct, -, rfl⟩ :=
      (insertRows_ok safe (unique_of_lookup unique items'.1)).mp inserted
    exact ⟨rows, ⟨⟨members, items, rfl, names, beq_iff_eq.mp (ensure_eq_ok.mp version), network',
      revision'.1, items'.1, all, decide_eq_true_eq.mp items'.2⟩, safe⟩, distinct, rfl, rfl⟩
  · rintro ⟨rows, ⟨⟨members, items, rfl, names, version, named, revision, held, all, few⟩, safe⟩,
      distinct, rfl, table⟩
    have only :=
      (objectHasOnlyKeys_iff (members_nodup unique rfl) (by decide)).mpr names
    refine bind_eq_ok.mpr ⟨members, required_eq_ok.mpr (Option.filter_eq_some_iff.mpr ⟨rfl, only⟩), ?_⟩
    refine bind_eq_ok.mpr ⟨⟨⟩, ensure_eq_ok.mpr (beq_iff_eq.mpr version), ?_⟩
    refine bind_eq_ok.mpr ⟨_, required_eq_ok.mpr named, ?_⟩
    refine bind_eq_ok.mpr ⟨⟨⟩, ensure_eq_ok.mpr (beq_self_eq_true _), ?_⟩
    refine bind_eq_ok.mpr ⟨_, required_eq_ok.mpr (Option.filter_eq_some_iff.mpr
      ⟨revision, decide_eq_true_eq.mpr safe⟩), ?_⟩
    refine bind_eq_ok.mpr ⟨items, required_eq_ok.mpr (Option.filter_eq_some_iff.mpr
      ⟨held, decide_eq_true_eq.mpr few⟩), ?_⟩
    refine bind_eq_ok.mpr ⟨insertAll ∅ rows, (insertRows_ok safe (unique_of_lookup unique held)).mpr
      ⟨rows, all, distinct, fun _ _ => ExtTreeMap.not_mem_empty, rfl⟩, ?_⟩
    rw [← table]
    rfl

/-- A table of rows that name no model twice holds each row under its model. -/
theorem insertAll_getElem {rows : List BindingRow} (distinct : (rows.map BindingRow.model).Nodup)
    (bindings : Table ModelBinding) (model : String) :
    (insertAll bindings rows)[model]? =
      ((rows.find? (·.model == model)).map ModelBinding.ofRow).or bindings[model]? := by
  induction rows generalizing bindings with
  | nil => simp [insertAll]
  | cons row rest ih =>
      rw [List.map_cons, List.nodup_cons] at distinct
      change (insertAll (bindings.insert row.model (.ofRow row)) rest)[model]? = _
      rw [ih distinct.2, ExtTreeMap.getElem?_insert, List.find?_cons]
      by_cases same : row.model = model
      · subst same
        have absent : rest.find? (·.model == row.model) = none := by
          rw [List.find?_eq_none]
          intro other mem same
          exact distinct.1 (beq_iff_eq.mp same ▸ List.mem_map_of_mem mem)
        rw [absent, if_pos Std.ReflCmp.compare_self, beq_self_eq_true]
        rfl
      · rw [if_neg fun equal => same (Std.LawfulEqCmp.eq_of_compare equal),
          beq_eq_false_iff_ne.mpr same]

/-! ### Objects of an accepted document -/

/-- Every item was read as a row. -/
theorem exists_row_of_mem {revision : Nat} {items : List Value} {rows : List BindingRow}
    (all : List.Forall₂ (IsRow revision) items rows) {item : Value} (mem : item ∈ items) :
    ∃ row ∈ rows, IsRow revision item row := by
  induction all with
  | nil => cases mem
  | cons is _ ih =>
      rcases List.mem_cons.mp mem with rfl | mem
      · exact ⟨_, List.mem_cons_self, is⟩
      · obtain ⟨row, held, isRow⟩ := ih mem
        exact ⟨row, List.mem_cons_of_mem _ held, isRow⟩

/-- Every row was read from an item. -/
theorem exists_item_of_mem {revision : Nat} {items : List Value} {rows : List BindingRow}
    (all : List.Forall₂ (IsRow revision) items rows) {row : BindingRow} (mem : row ∈ rows) :
    ∃ item ∈ items, IsRow revision item row := by
  induction all with
  | nil => cases mem
  | cons is _ ih =>
      rcases List.mem_cons.mp mem with rfl | mem
      · exact ⟨_, List.mem_cons_self, is⟩
      · obtain ⟨item, held, isRow⟩ := ih mem
        exact ⟨item, List.mem_cons_of_mem _ held, isRow⟩

/-- A value with a text or a number under a name holds no object there. -/
theorem objects_of_asStr {value : Value} {text : String} (held : value.asStr = some text) :
    value.objects = [] := by
  cases value <;> first | rfl | cases held

theorem objects_of_asU64 {value : Value} {number : Nat} (held : value.asU64 = some number) :
    value.objects = [] := by
  cases value <;> first | rfl | cases held

/-- A row is an object with exactly a row's names, and holds no other. -/
theorem objects_of_isRow {revision : Nat} {value : Value} {row : BindingRow}
    (unique : value.unique = true) (is : IsRow revision value row) :
    ∀ object ∈ value.objects, (object.map Prod.fst).Perm rowNames := by
  obtain ⟨members, rfl, names, provider, model, upstream, response, number⟩ := is.shape
  have once := members_nodup unique rfl
  intro object mem
  rw [Value.objects] at mem
  rcases List.mem_cons.mp mem with rfl | inner
  · exact names
  · obtain ⟨⟨name, value⟩, held, deeper⟩ := Value.mem_objectsOfMembers.mp inner
    have found := Value.lookup_of_mem once held
    have known : name ∈ rowNames := names.subset (List.mem_map_of_mem (f := Prod.fst) held)
    have flat : value.objects = [] := by
      simp only [rowNames, List.mem_cons, List.not_mem_nil, or_false] at known
      rcases known with rfl | rfl | rfl | rfl | rfl
      · rw [found] at provider
        exact objects_of_asStr provider
      · rw [found] at model
        exact objects_of_asStr model
      · rw [found] at upstream
        exact objects_of_asStr upstream
      · rw [found] at response
        exact objects_of_asStr response
      · rw [found] at number
        exact objects_of_asU64 number
    dsimp only at deeper
    rw [flat] at deeper
    exact absurd deeper List.not_mem_nil

/-- A snapshot is an object with exactly the envelope's names, and all others in it are rows. -/
theorem objects_of_isSnapshot {network : String} {value : Value} {revision : Nat}
    {rows : List BindingRow} (unique : value.unique = true)
    (is : IsSnapshot network value revision rows) :
    ∃ members, value = .object members ∧ (members.map Prod.fst).Perm envelopeNames ∧
      ∀ object ∈ Value.objectsOfMembers members, (object.map Prod.fst).Perm rowNames := by
  obtain ⟨members, items, rfl, names, version, named, number, held, all, -⟩ := is.shape
  refine ⟨members, rfl, names, fun object mem => ?_⟩
  have once := members_nodup unique rfl
  obtain ⟨⟨name, value⟩, member, inner⟩ := Value.mem_objectsOfMembers.mp mem
  have found := Value.lookup_of_mem once member
  have known : name ∈ envelopeNames := names.subset (List.mem_map_of_mem (f := Prod.fst) member)
  dsimp only at inner
  simp only [envelopeNames, List.mem_cons, List.not_mem_nil, or_false] at known
  rcases known with rfl | rfl | rfl | rfl
  · rw [found] at version
    rw [objects_of_asU64 version] at inner
    exact absurd inner List.not_mem_nil
  · rw [found] at named
    rw [objects_of_asStr named] at inner
    exact absurd inner List.not_mem_nil
  · rw [found] at number
    rw [objects_of_asU64 number] at inner
    exact absurd inner List.not_mem_nil
  · have uniqueItems := unique_of_lookup unique held
    rw [found] at held
    cases value with
    | array items' =>
        cases held
        rw [Value.objects] at inner
        obtain ⟨item, itemMem, deeper⟩ := Value.mem_objectsOfItems.mp inner
        obtain ⟨row, -, isRow⟩ := exists_row_of_mem all itemMem
        exact objects_of_isRow (uniqueItems item itemMem) isRow object deeper
    | null | bool | number | string | object => cases held

end GmMiner.Bedrock
