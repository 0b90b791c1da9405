import GmMiner.Bedrock.BindingsPayload
import GmMiner.Cli.Config
import Mathlib.Data.List.Sort

/-!
The CLI's reader of a registry snapshot of model bindings (`cli/src/bedrock_bindings.rs`), and
its agreement with the one in the enclave.

Each has a strict JSON visitor, a test for exact names and a loop over the rows of its own. The
tokens of a text are `serde_json`'s in both (`decode`).
-/

namespace GmMiner.Cli

open GmMiner.Lib GmMiner.Json GmMiner.Bedrock
open Std (ExtTreeMap)

structure BedrockModelBinding where
  model : String
  upstreamModel : String
  responseModel : String
  revision : Nat
  deriving DecidableEq, Repr

/-! ### The strict visitor -/

mutual

/-- `UniqueValueVisitor`, over the tokens of a value. -/
def visitUnique : Value → Option Value
  | .array items => (visitSeq items).map .array
  | .object members => (visitMap [] members).map .object
  | scalar => some scalar

def visitSeq : List Value → Option (List Value)
  | [] => some []
  | item :: rest => do
      let value ← visitUnique item
      let values ← visitSeq rest
      return value :: values

/-- `visit_map`, with the members read so far. -/
def visitMap (values : Members) : Members → Option Members
  | [] => some values
  | (key, item) :: rest =>
      if (values.lookup key).isSome then none
      else do
        let value ← visitUnique item
        visitMap (values ++ [(key, value)]) rest

end

/-- `parse_unique_json` of the CLI. -/
def parseUniqueJson (decode : List UInt8 → Option Value) (bytes : List UInt8) : Option Value :=
  (decode bytes).bind visitUnique

/-! ### The reader -/

/-- `object_has_exact_keys`. -/
def objectHasExactKeys (object : Members) (expected : List String) : Bool :=
  object.length == expected.length && expected.all fun key => (object.lookup key).isSome

/-- The body of the loop over the rows. -/
def readRow (snapshotRevision : Nat) (row : Value) : Except Error BedrockModelBinding := do
  let row ← required (row.asObject.filter fun row => objectHasExactKeys row rowNames)
    ["invalid Bedrock model-binding row"]
  ensure ((row.lookup "provider").bind Value.asStr == some "anthropic")
    ["unsupported Bedrock model-binding provider"]
  let model ← required (((row.lookup "model").bind Value.asStr).filter validModelId)
    ["invalid canonical Bedrock model id"]
  let upstreamModel ← required
    (((row.lookup "upstream_model").bind Value.asStr).filter validBedrockSelector)
    ["invalid Bedrock upstream selector"]
  let responseModel ← required
    (((row.lookup "response_model").bind Value.asStr).filter validModelId)
    ["invalid Bedrock response identity"]
  let revision ← required (((row.lookup "revision").bind Value.asU64).filter fun revision =>
      decide (0 < revision) && decide (revision ≤ maxSafeInteger) &&
        decide (revision ≤ snapshotRevision))
    ["invalid Bedrock model-binding row revision"]
  return { model, upstreamModel, responseModel, revision }

/-- The loop over the rows, with the models seen and the bindings read. -/
def collectRows (snapshotRevision : Nat) :
    List String → List BedrockModelBinding → List Value → Except Error (List BedrockModelBinding)
  | _, bindings, [] => .ok bindings
  | models, bindings, row :: rest => do
      let binding ← readRow snapshotRevision row
      if models.contains binding.model then bail "duplicate Bedrock provider/model identity"
      else collectRows snapshotRevision (binding.model :: models) (bindings ++ [binding]) rest

/-- `bindings.sort_by`: by model, a stable sort. -/
def sortByModel (bindings : List BedrockModelBinding) : List BedrockModelBinding :=
  bindings.insertionSort fun left right => left.model ≤ right.model

/-- What follows `parse_unique_json` in `parse_bindings`. -/
def readBindings (value : Value) (network : Network) : Except Error (List BedrockModelBinding) := do
  let object ← required
    (value.asObject.filter fun object => objectHasExactKeys object envelopeNames)
    ["invalid Bedrock model-binding envelope"]
  ensure ((object.lookup "schema_version").bind Value.asU64 == some 1)
    ["unsupported Bedrock model-binding schema version"]
  ensure ((object.lookup "network").bind Value.asStr == some network.asStr)
    ["Bedrock model-binding response is for a different network"]
  let snapshotRevision ← required
    (((object.lookup "revision").bind Value.asU64).filter fun revision =>
      decide (revision ≤ maxSafeInteger)) ["invalid Bedrock model-binding snapshot revision"]
  let rows ← required (((object.lookup "bindings").bind Value.asArray).filter fun rows =>
      decide (rows.length ≤ maxModelBindings)) ["invalid Bedrock model-binding list"]
  let bindings ← collectRows snapshotRevision [] [] rows
  return sortByModel bindings

/-- `parse_bindings`; the cause of a text that is not JSON is `serde_json`'s. -/
def parseBindings (decode : List UInt8 → Option Value) (bytes : List UInt8) (network : Network) :
    Except Error (List BedrockModelBinding) := do
  let value ← required (parseUniqueJson decode bytes) ["parse Bedrock model-binding JSON"]
  readBindings value network

/-! ### The two visitors -/

/-- The names of an object are apart from those read before. -/
def Apart (values members : Members) : Prop :=
  ∀ member ∈ members, member.1 ∉ values.map Prod.fst

instance (values members : Members) : Decidable (Apart values members) :=
  inferInstanceAs (Decidable (∀ member ∈ members, member.1 ∉ values.map Prod.fst))

theorem apart_cons {values rest : Members} {key : String} {item : Value} :
    Apart values ((key, item) :: rest) ↔ key ∉ values.map Prod.fst ∧ Apart values rest :=
  List.forall_mem_cons

/-- One more entry in the map must differ from the later names. -/
theorem apart_concat {values rest : Members} {key : String} {item : Value} :
    Apart (values ++ [(key, item)]) rest ↔ Apart values rest ∧ key ∉ rest.map Prod.fst := by
  unfold Apart
  simp only [List.map_append, List.map_singleton, List.mem_append, List.mem_singleton, not_or,
    List.mem_map, not_exists, not_and]
  constructor
  · intro all
    exact ⟨fun member mem => (all member mem).1, fun member mem => (all member mem).2⟩
  · rintro ⟨all, absent⟩ member mem
    exact ⟨all member mem, absent member mem⟩

mutual

/-- The visitor keeps the values without a name that comes twice, as they are. -/
theorem visitUnique_eq (value : Value) :
    visitUnique value = if value.unique then some value else none := by
  cases value with
  | null | bool | number | string =>
      rw [visitUnique, Value.unique, if_pos rfl]
      all_goals exact nofun
  | array items =>
      rw [visitUnique, visitSeq_eq, Value.unique]
      split <;> rfl
  | object members =>
      rw [visitUnique, visitMap_eq [] members, Value.unique]
      simp only [show Apart [] members from fun _ _ => List.not_mem_nil, and_true]
      split <;> rfl

theorem visitSeq_eq (items : List Value) :
    visitSeq items = if Value.uniqueItems items then some items else none := by
  cases items with
  | nil => rfl
  | cons item rest =>
      rw [visitSeq, visitUnique_eq item, visitSeq_eq rest, Value.uniqueItems]
      cases item.unique <;> cases Value.uniqueItems rest <;> rfl

/-- Members of `visit_eq`: they must also be apart from the map. -/
theorem visitMap_eq (values members : Members) :
    visitMap values members =
      if Value.uniqueMembers members = true ∧ Apart values members then some (values ++ members)
      else none := by
  cases members with
  | nil => simp [visitMap, Value.uniqueMembers, Apart]
  | cons member rest =>
      obtain ⟨key, item⟩ := member
      rw [visitMap]
      simp only [isSome_lookup_iff, Value.uniqueMembers_cons, apart_cons]
      by_cases seen : key ∈ values.map Prod.fst
      · rw [if_pos seen, if_neg fun both => both.2.1 seen]
      · rw [if_neg seen, visitUnique_eq item]
        cases unique : item.unique with
        | false => simp
        | true =>
            change visitMap (values ++ [(key, item)]) rest = _
            rw [visitMap_eq (values ++ [(key, item)]) rest, List.append_assoc,
              List.singleton_append]
            refine if_congr ?_ rfl rfl
            rw [apart_concat]
            tauto

end

/-- The two visitors are one. -/
theorem parseUniqueJson_eq (decode : List UInt8 → Option Value) (bytes : List UInt8) :
    parseUniqueJson decode bytes = Json.parseUniqueJson decode bytes := by
  unfold parseUniqueJson Json.parseUniqueJson
  cases decode bytes with
  | none => rfl
  | some value =>
      rw [Option.bind_some, visitUnique_eq]
      rfl

/-! ### The rows -/

/-- As many names as expected, with every one of these, are exactly them. -/
theorem objectHasExactKeys_iff {members : Members} {expected : List String}
    (distinct : expected.Nodup) :
    objectHasExactKeys members expected = true ↔ (members.map Prod.fst).Perm expected := by
  unfold objectHasExactKeys
  rw [Bool.and_eq_true, beq_iff_eq, List.all_eq_true]
  simp only [isSome_lookup_iff]
  constructor
  · rintro ⟨length, every⟩
    have sub : List.Subperm expected (members.map Prod.fst) := distinct.subperm every
    exact (sub.perm_of_length_le (by rw [List.length_map, length])).symm
  · intro same
    exact ⟨by rw [← same.length_eq, List.length_map], fun name mem => same.mem_iff.mpr mem⟩

/-- The row the CLI keeps. -/
def BedrockModelBinding.ofRow (row : BindingRow) : BedrockModelBinding :=
  ⟨row.model, row.upstreamModel, row.responseModel, row.revision⟩

/-- A row is read exactly if it is one, with the binding it states. -/
theorem readRow_ok {revision : Nat} (safe : revision ≤ maxSafeInteger) {value : Value}
    {binding : BedrockModelBinding} :
    readRow revision value = .ok binding ↔ ∃ row, IsRow revision value row ∧ binding = .ofRow row := by
  unfold readRow
  constructor
  · intro accepted
    obtain ⟨members, object, accepted⟩ := bind_eq_ok.mp accepted
    obtain ⟨⟨⟩, provider, accepted⟩ := bind_eq_ok.mp accepted
    obtain ⟨model, model', accepted⟩ := bind_eq_ok.mp accepted
    obtain ⟨upstream, upstream', accepted⟩ := bind_eq_ok.mp accepted
    obtain ⟨response, response', accepted⟩ := bind_eq_ok.mp accepted
    obtain ⟨number, number', accepted⟩ := bind_eq_ok.mp accepted
    cases accepted
    rw [required_eq_ok, Option.filter_eq_some_iff] at object model' upstream' response' number'
    obtain ⟨object, names⟩ := object
    have object := Value.asObject_eq_some.mp object
    rw [objectHasExactKeys_iff (by decide)] at names
    simp only [Bool.and_eq_true, decide_eq_true_eq] at number'
    exact ⟨⟨model, upstream, response, number⟩,
      ⟨⟨members, object, names, beq_iff_eq.mp (ensure_eq_ok.mp provider), model'.1, upstream'.1,
        response'.1, number'.1⟩, model'.2, upstream'.2, response'.2, number'.2.1.1, number'.2.2⟩,
      rfl⟩
  · rintro ⟨row, is, rfl⟩
    obtain ⟨members, object, names, provider, model, upstream, response, number⟩ := is.shape
    have exact_ := (objectHasExactKeys_iff (by decide)).mpr names
    have bounds : (decide (0 < row.revision) && decide (row.revision ≤ maxSafeInteger) &&
        decide (row.revision ≤ revision)) = true := by
      simp only [Bool.and_eq_true, decide_eq_true_eq]
      exact ⟨⟨is.positive, is.bounded.trans safe⟩, is.bounded⟩
    refine bind_eq_ok.mpr ⟨members, required_eq_ok.mpr (Option.filter_eq_some_iff.mpr
      ⟨Value.asObject_eq_some.mpr object, exact_⟩), ?_⟩
    refine bind_eq_ok.mpr ⟨⟨⟩, ensure_eq_ok.mpr (beq_iff_eq.mpr provider), ?_⟩
    refine bind_eq_ok.mpr ⟨_, required_eq_ok.mpr (Option.filter_eq_some_iff.mpr ⟨model, is.model⟩), ?_⟩
    refine bind_eq_ok.mpr
      ⟨_, required_eq_ok.mpr (Option.filter_eq_some_iff.mpr ⟨upstream, is.upstreamModel⟩), ?_⟩
    refine bind_eq_ok.mpr
      ⟨_, required_eq_ok.mpr (Option.filter_eq_some_iff.mpr ⟨response, is.responseModel⟩), ?_⟩
    exact bind_eq_ok.mpr ⟨_, required_eq_ok.mpr (Option.filter_eq_some_iff.mpr ⟨number, bounds⟩), rfl⟩

/-- The rows are collected exactly if each is one and no model has two. -/
theorem collectRows_ok {revision : Nat} (safe : revision ≤ maxSafeInteger) {items : List Value}
    {models : List String} {bindings result : List BedrockModelBinding} :
    collectRows revision models bindings items = .ok result ↔
      ∃ rows, List.Forall₂ (IsRow revision) items rows ∧
        (rows.map BindingRow.model).Nodup ∧ (∀ row ∈ rows, row.model ∉ models) ∧
        result = bindings ++ rows.map .ofRow := by
  induction items generalizing models bindings with
  | nil =>
      unfold collectRows
      constructor
      · intro same
        cases same
        exact ⟨[], .nil, .nil, nofun, (List.append_nil _).symm⟩
      · rintro ⟨rows, all, -, -, rfl⟩
        cases all
        rw [List.map_nil, List.append_nil]
  | cons item rest ih =>
      unfold collectRows
      constructor
      · intro accepted
        obtain ⟨binding, read, accepted⟩ := bind_eq_ok.mp accepted
        obtain ⟨row, is, rfl⟩ := (readRow_ok safe).mp read
        split at accepted
        · cases accepted
        · rename_i absent
          rw [List.contains_iff_mem] at absent
          -- The later rows were collected past this one's model.
          obtain ⟨rows, all, distinct, fresh, rfl⟩ := ih.mp accepted
          have apart : ∀ other ∈ rows, other.model ≠ row.model ∧ other.model ∉ models := by
            intro other mem
            have new := fresh other mem
            rw [List.mem_cons, not_or] at new
            exact new
          refine ⟨row :: rows, .cons is all, ?_, ?_, ?_⟩
          · rw [List.map_cons, List.nodup_cons]
            refine ⟨fun mem => ?_, distinct⟩
            obtain ⟨other, mem, same⟩ := List.mem_map.mp mem
            exact (apart other mem).1 same
          · exact List.forall_mem_cons.mpr ⟨absent, fun other mem => (apart other mem).2⟩
          · rw [List.map_cons, List.append_assoc, List.singleton_append]
      · rintro ⟨found, paired, distinct, fresh, rfl⟩
        obtain ⟨row, rows, is, all, rfl⟩ := List.forall₂_cons_left_iff.mp paired
        rw [List.map_cons, List.nodup_cons] at distinct
        obtain ⟨absent, later⟩ := List.forall_mem_cons.mp fresh
        refine bind_eq_ok.mpr ⟨_, (readRow_ok safe).mpr ⟨row, is, rfl⟩, ?_⟩
        rw [if_neg (mt List.contains_iff_mem.mp
          (show (BedrockModelBinding.ofRow row).model ∉ models from absent))]
        refine ih.mpr ⟨rows, all, distinct.2, fun other mem => ?_, ?_⟩
        · rw [List.mem_cons, not_or]
          refine ⟨fun same => distinct.1 ?_, later other mem⟩
          exact (show other.model = row.model from same) ▸ List.mem_map_of_mem mem
        · rw [List.map_cons, List.append_assoc, List.singleton_append]

/-! ### The document -/

/-- The reader accepts the snapshots whose rows name no model twice. -/
theorem readBindings_ok {value : Value} {network : Network} {result : List BedrockModelBinding} :
    readBindings value network = .ok result ↔
      ∃ revision rows, IsSnapshot network.asStr value revision rows ∧
        (rows.map BindingRow.model).Nodup ∧ result = sortByModel (rows.map .ofRow) := by
  unfold readBindings
  constructor
  · intro accepted
    obtain ⟨members, object, accepted⟩ := bind_eq_ok.mp accepted
    obtain ⟨⟨⟩, version, accepted⟩ := bind_eq_ok.mp accepted
    obtain ⟨⟨⟩, named, accepted⟩ := bind_eq_ok.mp accepted
    obtain ⟨revision, revision', accepted⟩ := bind_eq_ok.mp accepted
    obtain ⟨items, items', accepted⟩ := bind_eq_ok.mp accepted
    obtain ⟨bindings, collected, accepted⟩ := bind_eq_ok.mp accepted
    cases accepted
    rw [required_eq_ok, Option.filter_eq_some_iff] at object revision' items'
    obtain ⟨object, names⟩ := object
    have object := Value.asObject_eq_some.mp object
    rw [objectHasExactKeys_iff (by decide)] at names
    have safe := decide_eq_true_eq.mp revision'.2
    subst object
    obtain ⟨rows, all, distinct, -, rfl⟩ :=
      (collectRows_ok safe).mp collected
    exact ⟨revision, rows, ⟨⟨members, items, rfl, names,
      beq_iff_eq.mp (ensure_eq_ok.mp version), beq_iff_eq.mp (ensure_eq_ok.mp named),
      revision'.1, items'.1, all, decide_eq_true_eq.mp items'.2⟩, safe⟩, distinct, rfl⟩
  · rintro ⟨revision, rows, ⟨⟨members, items, rfl, names, version, named, number, held, all, few⟩,
      safe⟩, distinct, rfl⟩
    have exact_ := (objectHasExactKeys_iff (by decide)).mpr names
    refine bind_eq_ok.mpr ⟨members, required_eq_ok.mpr (Option.filter_eq_some_iff.mpr ⟨rfl, exact_⟩), ?_⟩
    refine bind_eq_ok.mpr ⟨⟨⟩, ensure_eq_ok.mpr (beq_iff_eq.mpr version), ?_⟩
    refine bind_eq_ok.mpr ⟨⟨⟩, ensure_eq_ok.mpr (beq_iff_eq.mpr named), ?_⟩
    refine bind_eq_ok.mpr ⟨_, required_eq_ok.mpr (Option.filter_eq_some_iff.mpr
      ⟨number, decide_eq_true_eq.mpr safe⟩), ?_⟩
    refine bind_eq_ok.mpr ⟨items, required_eq_ok.mpr (Option.filter_eq_some_iff.mpr
      ⟨held, decide_eq_true_eq.mpr few⟩), ?_⟩
    exact bind_eq_ok.mpr ⟨rows.map .ofRow, (collectRows_ok safe).mpr
      ⟨rows, all, distinct, fun _ _ => List.not_mem_nil, rfl⟩, rfl⟩

/-- The command reads a payload exactly if it is a snapshot of the network. -/
theorem parseBindings_ok {decode : List UInt8 → Option Value} {bytes : List UInt8}
    {network : Network} {result : List BedrockModelBinding} :
    parseBindings decode bytes network = .ok result ↔
      ∃ value revision rows, Json.parseUniqueJson decode bytes = some value ∧
        IsSnapshot network.asStr value revision rows ∧ (rows.map BindingRow.model).Nodup ∧
        result = sortByModel (rows.map .ofRow) := by
  unfold parseBindings
  rw [bind_eq_ok, parseUniqueJson_eq]
  simp only [required_eq_ok]
  constructor
  · rintro ⟨value, parsed, read⟩
    obtain ⟨revision, rows, is⟩ := readBindings_ok.mp read
    exact ⟨value, revision, rows, parsed, is⟩
  · rintro ⟨value, revision, rows, parsed, is⟩
    exact ⟨value, parsed, readBindings_ok.mpr ⟨revision, rows, is⟩⟩

/-- The adapter reads a payload exactly if it is one. -/
theorem parseBindingsPayload_ok {decode : List UInt8 → Option Value} {bytes : List UInt8}
    {network : String} {snapshot : BindingsSnapshot} :
    parseBindingsPayload decode bytes network = .ok snapshot ↔
      ∃ value rows, Json.parseUniqueJson decode bytes = some value ∧
        IsSnapshot network value snapshot.revision rows ∧ (rows.map BindingRow.model).Nodup ∧
        snapshot.network = network ∧ snapshot.bindings = insertAll ∅ rows := by
  unfold parseBindingsPayload
  rw [bind_eq_ok]
  simp only [required_eq_ok]
  constructor
  · rintro ⟨value, parsed, read⟩
    obtain ⟨rows, is⟩ := (readBindingsPayload_ok (unique_of_parseUniqueJson parsed)).mp read
    exact ⟨value, rows, parsed, is⟩
  · rintro ⟨value, rows, parsed, is⟩
    exact ⟨value, parsed,
      (readBindingsPayload_ok (unique_of_parseUniqueJson parsed)).mpr ⟨rows, is⟩⟩

/-! ### Agreement -/

/-- A document has one revision and one list of rows. -/
theorem isRow_unique {revision : Nat} {value : Value} {row other : BindingRow}
    (one : IsRow revision value row) (two : IsRow revision value other) : row = other := by
  obtain ⟨members, rfl, -, -, model, upstream, response, number⟩ := one.shape
  obtain ⟨_, same, -, -, model', upstream', response', number'⟩ := two.shape
  cases same
  cases row
  cases other
  cases model.symm.trans model'
  cases upstream.symm.trans upstream'
  cases response.symm.trans response'
  cases number.symm.trans number'
  rfl

/-- A list states its rows in one way. -/
theorem rows_unique {revision : Nat} {items : List Value} {rows others : List BindingRow}
    (one : List.Forall₂ (IsRow revision) items rows)
    (two : List.Forall₂ (IsRow revision) items others) : rows = others := by
  induction one generalizing others with
  | nil =>
      cases two
      rfl
  | cons is _ ih =>
      obtain ⟨other, others, is', all, rfl⟩ := List.forall₂_cons_left_iff.mp two
      rw [isRow_unique is is', ih all]

/-- A payload states its revision and its rows in one way. -/
theorem isSnapshot_unique {network : String} {value : Value} {revision other : Nat}
    {rows others : List BindingRow} (one : IsSnapshot network value revision rows)
    (two : IsSnapshot network value other others) : revision = other ∧ rows = others := by
  obtain ⟨members, items, rfl, -, -, -, number, held, all, -⟩ := one.shape
  obtain ⟨_, items', same, -, -, -, number', held', all', -⟩ := two.shape
  cases same
  cases number.symm.trans number'
  cases held.symm.trans held'
  exact ⟨rfl, rows_unique all all'⟩

/-- What a binding says of its model. -/
def BedrockModelBinding.content (binding : BedrockModelBinding) : String × String × Nat :=
  (binding.upstreamModel, binding.responseModel, binding.revision)

def modelBindingContent (binding : ModelBinding) : String × String × Nat :=
  (binding.upstreamModel, binding.responseModel, binding.revision)

/-- Two readings of a document that hold one map, and what both promise of it. -/
structure ReadAlike (value : Value) (bindings : List BedrockModelBinding)
    (snapshot : BindingsSnapshot) : Prop where
  sameMap : ∀ model, (bindings.find? (·.model == model)).map BedrockModelBinding.content =
    (snapshot.bindings[model]?).map modelBindingContent
  distinct : (bindings.map BedrockModelBinding.model).Nodup
  valid : ∀ binding ∈ bindings, validModelId binding.model = true ∧
    validBedrockSelector binding.upstreamModel = true ∧
    validModelId binding.responseModel = true ∧
    1 ≤ binding.revision ∧ binding.revision ≤ snapshot.revision
  safe : snapshot.revision ≤ 2 ^ 53 - 1
  names : ∃ members, value = .object members ∧ (members.map Prod.fst).Perm envelopeNames ∧
    ∀ object ∈ Value.objectsOfMembers members, (object.map Prod.fst).Perm rowNames

/-- Where no model comes twice, the binding of a model is the one that is there. -/
theorem find_eq_some_iff {bindings : List BedrockModelBinding}
    (distinct : (bindings.map BedrockModelBinding.model).Nodup) {model : String}
    {binding : BedrockModelBinding} :
    bindings.find? (·.model == model) = some binding ↔
      binding ∈ bindings ∧ binding.model = model := by
  constructor
  · intro found
    have fits := List.find?_some found
    exact ⟨List.mem_of_find?_eq_some found, beq_iff_eq.mp fits⟩
  · rintro ⟨mem, rfl⟩
    cases found : bindings.find? (·.model == binding.model) with
    | none => simpa using List.find?_eq_none.mp found binding mem
    | some other =>
        have fits := List.find?_some found
        rw [List.inj_on_of_nodup_map distinct (List.mem_of_find?_eq_some found) mem
          (beq_iff_eq.mp fits)]

theorem find_sortByModel {bindings : List BedrockModelBinding}
    (distinct : (bindings.map BedrockModelBinding.model).Nodup) (model : String) :
    (sortByModel bindings).find? (·.model == model) = bindings.find? (·.model == model) := by
  have perm : (sortByModel bindings).Perm bindings := List.perm_insertionSort _ _
  have distinct' : ((sortByModel bindings).map BedrockModelBinding.model).Nodup :=
    (perm.map _).nodup_iff.mpr distinct
  refine Option.ext fun binding => ?_
  rw [find_eq_some_iff distinct', find_eq_some_iff distinct, perm.mem_iff]

/-- Both readers accept the same payloads, with the same rows. -/
theorem bindings_readers_agree (decode : List UInt8 → Option Value) (bytes : List UInt8)
    (network : Network) :
    ((∃ bindings, parseBindings decode bytes network = .ok bindings) ↔
      ∃ snapshot, parseBindingsPayload decode bytes network.asStr = .ok snapshot) ∧
    ∀ bindings snapshot, parseBindings decode bytes network = .ok bindings →
      parseBindingsPayload decode bytes network.asStr = .ok snapshot →
        ∃ value, decode bytes = some value ∧ ReadAlike value bindings snapshot := by
  constructor
  · simp only [parseBindings_ok, parseBindingsPayload_ok]
    constructor
    · rintro ⟨_, value, revision, rows, parsed, is, distinct, -⟩
      exact ⟨⟨network.asStr, revision, insertAll ∅ rows⟩, value, rows, parsed, is, distinct, rfl,
        rfl⟩
    · rintro ⟨snapshot, value, rows, parsed, is, distinct, -⟩
      exact ⟨_, value, snapshot.revision, rows, parsed, is, distinct, rfl⟩
  · intro bindings snapshot read read'
    obtain ⟨value, revision, rows, parsed, is, distinct, rfl⟩ := parseBindings_ok.mp read
    obtain ⟨value', rows', parsed', is', -, -, table⟩ := parseBindingsPayload_ok.mp read'
    cases parsed.symm.trans parsed'
    obtain ⟨rfl, rfl⟩ := isSnapshot_unique is is'
    have unique := unique_of_parseUniqueJson parsed
    have names : ((rows.map BedrockModelBinding.ofRow).map BedrockModelBinding.model).Nodup := by
      rw [List.map_map]
      exact distinct
    refine ⟨value, (Option.filter_eq_some_iff.mp parsed).1, ?_⟩
    exact {
      sameMap := fun model => by
        rw [find_sortByModel names, table, insertAll_getElem distinct]
        rw [List.find?_map, ExtTreeMap.getElem?_empty, Option.or_none, Option.map_map,
          Option.map_map]
        rfl
      distinct := ((List.perm_insertionSort _ _).map _).nodup_iff.mpr names
      valid := by
        intro binding mem
        obtain ⟨row, held, rfl⟩ := List.mem_map.mp ((List.perm_insertionSort _ _).mem_iff.mp mem)
        obtain ⟨members, items, -, -, -, -, -, -, all, -⟩ := is.shape
        obtain ⟨item, -, isRow⟩ := exists_item_of_mem all held
        exact ⟨isRow.model, isRow.upstreamModel, isRow.responseModel, isRow.positive,
          isRow.bounded⟩
      safe := is.safe
      names := objects_of_isSnapshot unique is }

end GmMiner.Cli
