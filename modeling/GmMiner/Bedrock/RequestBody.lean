import GmMiner.Bedrock.Bindings
import GmMiner.Bedrock.BindingsPayload
import GmMiner.Json.Document
import Mathlib.Tactic.NormNum

/-!
The body of a Bedrock Messages request on its way to Bedrock (`prepare_request_body` and
`forward_request` of `attestd/src/bedrock_mantle.rs`).

`read` is `serde_json`'s reading of a text, `lookup` what the cache of bindings answers for a model,
after the refresh it may have waited for.
-/

namespace GmMiner.Bedrock

open GmMiner.Json

/-- `MAX_REQUEST_BODY`. -/
def maxRequestBody : Nat := 20 * 1024 * 1024

inductive BodyReject
  | bodyTooLarge
  | invalidBody
  | binding (reject : BindingReject)
  deriving DecidableEq, Repr

structure PreparedRequestBody where
  fields : List (String × Value)
  model : String
  streamResponse : Bool

/-- `prepare_request_body` of what was parsed. -/
def prepareRequestBody (parsed : Option Value) : Except BodyReject PreparedRequestBody :=
  match parsed with
  | some (.object fields) =>
      match ((fields.lookup "model").bind Value.asStr).filter validModelId with
      | none => .error .invalidBody
      | some model =>
          match fields.lookup "stream" with
          | some (.bool streamResponse) => .ok { fields, model, streamResponse }
          | some _ => .error .invalidBody
          | none => .ok { fields, model, streamResponse := false }
  | _ => .error .invalidBody

structure UpstreamBody where
  binding : ModelBinding
  streamResponse : Bool
  body : Document

section Forward

variable (serde : SerdeNumbers) (read : Bytes → Option Document)
  (lookup : String → Except BindingReject ModelBinding)

/-- What `forward_request` sends. -/
def upstreamBody (bytes : Bytes) : Except BodyReject UpstreamBody :=
  if maxRequestBody < bytes.length then .error .bodyTooLarge
  else
    match prepareRequestBody (parseUnique serde read bytes) with
    | .error reject => .error reject
    | .ok prepared =>
        match lookup prepared.model with
        | .error reject => .error (.binding reject)
        | .ok binding =>
            let fields :=
              Value.insertMember "model" (.string binding.upstreamModel) prepared.fields
            .ok ⟨binding, prepared.streamResponse, serde.write (.object fields)⟩

end Forward

/-! ### Replacing a member -/

section Replacing

open Document SerdeNumbers

variable {serde : SerdeNumbers} {name : String} {f : NumberLiteral → NumberLiteral}

/-- A member list with the items of one name replaced. -/
def replacing {V : Type} (name : String) (item : V) (members : List (String × V)) :
    List (String × V) :=
  members.map fun member => if member.1 = name then (name, item) else member

theorem map_fst_replacing {V : Type} (name : String) (item : V) (members : List (String × V)) :
    (replacing name item members).map Prod.fst = members.map Prod.fst := by
  unfold replacing
  rw [List.map_map]
  refine List.map_congr_left fun member _ => ?_
  by_cases same : member.1 = name <;> simp [same]

theorem writeMap_eq (values : List (String × Value)) :
    serde.writeMap values = values.map fun member => (member.1, serde.write member.2) := by
  induction values with
  | nil => rfl
  | cons member rest ih =>
      obtain ⟨key, item⟩ := member
      rw [writeMap, ih, List.map_cons]

/-- A member written is the one of its name. -/
theorem lookup_writeMap (values : List (String × Value)) :
    (serde.writeMap values).lookup name = (values.lookup name).map serde.write := by
  induction values with
  | nil => rfl
  | cons member rest ih =>
      obtain ⟨key, item⟩ := member
      rw [writeMap, List.lookup_cons, List.lookup_cons]
      cases name == key with
      | true => rfl
      | false => exact ih

theorem mapNumbers_eq_string {text : String} {document : Document} :
    document.mapNumbers f = .string text ↔ document = .string text := by
  cases document <;> simp [mapNumbers]

theorem writeMap_insertMember {value : Value} {values : List (String × Value)}
    (present : (values.lookup name).isSome = true) :
    serde.writeMap (Value.insertMember name value values) =
      replacing name (serde.write value) (serde.writeMap values) := by
  unfold Value.insertMember replacing
  rw [if_pos present, writeMap_eq, writeMap_eq, List.map_map, List.map_map]
  refine List.map_congr_left fun member _ => ?_
  by_cases same : member.1 = name <;> simp [same]

theorem mapMembers_replacing {item : Document} (fixed : item.mapNumbers f = item)
    (members : List (String × Document)) :
    mapMembers f (replacing name item members) = replacing name item (mapMembers f members) := by
  unfold replacing
  rw [mapMembers_eq, mapMembers_eq, List.map_map, List.map_map]
  refine List.map_congr_left fun member _ => ?_
  by_cases same : member.1 = name <;> simp [same, fixed]

/-- A replacement without repeats leaves the members without them. -/
theorem uniqueMembers_replacing {item : Document} (unique : item.unique = true)
    {members : List (String × Document)} (all : uniqueMembers members = true) :
    uniqueMembers (replacing name item members) = true := by
  induction members with
  | nil => rfl
  | cons member rest ih =>
      obtain ⟨key, held⟩ := member
      obtain ⟨absent, ofItem, ofRest⟩ := uniqueMembers_cons.mp all
      have names := map_fst_replacing name item rest
      unfold replacing at ih names ⊢
      rw [List.map_cons]
      by_cases same : key = name
      · rw [if_pos same, uniqueMembers_cons, names]
        exact ⟨same ▸ absent, unique, ih ofRest⟩
      · rw [if_neg same, uniqueMembers_cons, names]
        exact ⟨absent, ofItem, ih ofRest⟩

/-- Between items without numbers the numbers stay. -/
theorem numbers_replacing {item : Document} (none_ : item.numbers = [])
    {members : List (String × Document)}
    (held : ∀ member ∈ members, member.1 = name → member.2.numbers = []) :
    numbersOfMembers (replacing name item members) = numbersOfMembers members := by
  induction members with
  | nil => rfl
  | cons member rest ih =>
      obtain ⟨key, own⟩ := member
      have later := ih fun other mem => held other (List.mem_cons_of_mem _ mem)
      unfold replacing at later ⊢
      rw [List.map_cons]
      by_cases same : key = name
      · rw [if_pos same, numbersOfMembers, numbersOfMembers, none_, later,
          held (key, own) List.mem_cons_self same]
      · rw [if_neg same, numbersOfMembers, numbersOfMembers, later]

end Replacing

/-! ### Numbers that stay -/

section Numbers

open NumberLiteral SerdeNumbers

variable {serde : SerdeNumbers}

variable (serde) in
/-- An integer that fits, or a number that its nearest double is written as. -/
def Exact (literal : NumberLiteral) : Prop :=
  (∃ magnitude, literal = .integer false magnitude ∧ magnitude < 2 ^ 64) ∨
    (∃ magnitude, literal = .integer true magnitude ∧ 0 < magnitude ∧ magnitude ≤ 2 ^ 63) ∨
      ∀ bits ∈ serde.nearest literal, (serde.written bits).value = literal.value

theorem again_posInt {magnitude : Nat} (fits : magnitude < 2 ^ 64) :
    serde.again (.integer false magnitude) = .integer false magnitude := by
  have same : (UInt64.ofNat magnitude).toNat = magnitude := UInt64.toNat_ofNat_of_lt' fits
  rw [again, deliver, if_pos fits, Option.map_some, Option.getD_some, literalOf, same]

theorem again_negInt {magnitude : Nat} (fits : 0 < magnitude ∧ magnitude ≤ 2 ^ 63) :
    serde.again (.integer true magnitude) = .integer true magnitude := by
  have same : (Int64.ofInt (-magnitude)).toInt = -magnitude :=
    Int64.toInt_ofInt_of_le (by omega) (by omega)
  have negative : decide ((-magnitude : Int) < 0) = true := decide_eq_true (by omega)
  rw [again, deliver, if_pos fits, Option.map_some, Option.getD_some, literalOf, same, negative,
    Int.natAbs_neg, Int.natAbs_natCast]

/-- The others pass through a double. -/
theorem again_float {literal : NumberLiteral}
    (wide : serde.deliver literal = (serde.nearest literal).map .float) :
    (serde.again literal).value = literal.value ↔
      ∀ bits ∈ serde.nearest literal, (serde.written bits).value = literal.value := by
  unfold again
  rw [wide]
  cases serde.nearest literal with
  | none => simp
  | some bits => simp [literalOf]

/-- A number wider than both kinds is exact if the double nearest to it is. -/
theorem exact_of_wide {literal : NumberLiteral}
    (notPositive : ∀ magnitude, literal = .integer false magnitude → ¬ magnitude < 2 ^ 64)
    (notNegative : ∀ magnitude, literal = .integer true magnitude →
      ¬ (0 < magnitude ∧ magnitude ≤ 2 ^ 63)) :
    Exact serde literal ↔
      ∀ bits ∈ serde.nearest literal, (serde.written bits).value = literal.value := by
  constructor
  · rintro (⟨magnitude, same, fits⟩ | ⟨magnitude, same, fits⟩ | float)
    · exact absurd fits (notPositive magnitude same)
    · exact absurd fits (notNegative magnitude same)
    · exact float
  · exact fun float => .inr (.inr float)

/-- A number is read back with its value exactly if it is exact. -/
theorem again_value_iff (literal : NumberLiteral) :
    (serde.again literal).value = literal.value ↔ Exact serde literal := by
  cases literal with
  | integer negative magnitude =>
      cases negative with
      | false =>
          by_cases fits : magnitude < 2 ^ 64
          · simp only [again_posInt fits, true_iff]
            exact .inl ⟨magnitude, rfl, fits⟩
          · rw [again_float (by rw [deliver, if_neg fits]), exact_of_wide _ (by simp)]
            intro own same
            cases same
            exact fits
      | true =>
          by_cases fits : 0 < magnitude ∧ magnitude ≤ 2 ^ 63
          · simp only [again_negInt fits, true_iff]
            exact .inr (.inl ⟨magnitude, rfl, fits⟩)
          · rw [again_float (by rw [deliver, if_neg fits]), exact_of_wide (by simp)]
            intro own same
            cases same
            exact fits
  | decimal negative significand exponent =>
      rw [again_float rfl, exact_of_wide (by simp) (by simp)]

end Numbers

/-! ### What is sent -/

section Sent

open Document SerdeNumbers

variable {serde : SerdeNumbers} {read : Bytes → Option Document}
  {lookup : String → Except BindingReject ModelBinding}

theorem withMember_object (name : String) (item : Document) (members : List (String × Document)) :
    (object members).withMember name item = .object (replacing name item members) :=
  rfl

/-- A prepared body is an object that names its model. -/
theorem prepareRequestBody_inv {parsed : Option Value} {prepared : PreparedRequestBody}
    (ready : prepareRequestBody parsed = .ok prepared) :
    parsed = some (.object prepared.fields) ∧
      prepared.fields.lookup "model" = some (.string prepared.model) := by
  unfold prepareRequestBody at ready
  split at ready
  · rename_i fields
    split at ready
    · cases ready
    · rename_i model valid
      obtain ⟨held, named, text⟩ := Option.bind_eq_some_iff.mp (Option.filter_eq_some_iff.mp valid).1
      have same : held = .string model := by
        cases held with
        | string text' => cases text; rfl
        | _ => cases text
      rw [same] at named
      split at ready
      · cases ready
        exact ⟨rfl, named⟩
      · cases ready
      · cases ready
        exact ⟨rfl, named⟩
  · cases ready

/-- A request that is sent was an object, with the name of a model. -/
theorem upstreamBody_inv {bytes : Bytes} {out : UpstreamBody}
    (forwarded : upstreamBody serde read lookup bytes = .ok out) :
    ∃ fields model, parseUnique serde read bytes = some (.object fields) ∧
      fields.lookup "model" = some (.string model) ∧
        out.body = serde.write (.object
          (Value.insertMember "model" (.string out.binding.upstreamModel) fields)) := by
  unfold upstreamBody at forwarded
  split at forwarded
  · cases forwarded
  · split at forwarded
    · cases forwarded
    · rename_i prepared ready
      split at forwarded
      · cases forwarded
      · cases forwarded
        obtain ⟨parsed, named⟩ := prepareRequestBody_inv ready
        exact ⟨prepared.fields, prepared.model, parsed, named, rfl⟩

/-- The body is the buyer's with the upstream model, its numbers read and written again. -/
theorem upstreamBody_body {bytes : Bytes} {buyer : Document} {out : UpstreamBody}
    (reads : read bytes = some buyer) (forwarded : upstreamBody serde read lookup bytes = .ok out) :
    let expected := buyer.withMember "model" (.string out.binding.upstreamModel)
    out.body = expected.mapNumbers serde.again ∧ expected.unique = true ∧
      expected.numbers = buyer.numbers := by
  obtain ⟨fields, model, parsed, named, body⟩ := upstreamBody_inv forwarded
  have accepted : serde.visit buyer = .ok (.object fields) := by
    unfold parseUnique at parsed
    rw [reads, Option.bind_some] at parsed
    cases visited : serde.visit buyer with
    | error => rw [visited] at parsed; cases parsed
    | ok value => rw [visited] at parsed; cases parsed; rfl
  obtain ⟨written, unique⟩ := write_of_visit buyer accepted
  obtain ⟨members, rfl⟩ : ∃ members, buyer = .object members := by
    cases buyer with
    | object members => exact ⟨members, rfl⟩
    | _ => cases written
  have fieldsWritten : serde.writeMap fields = mapMembers serde.again members :=
    Document.object.inj written
  have present : (fields.lookup "model").isSome = true := by rw [named]; rfl
  have modelHeld : members.lookup "model" = some (.string model) := by
    have looked : (members.lookup "model").map (mapNumbers serde.again) = some (.string model) := by
      rw [← lookup_mapMembers, ← fieldsWritten, lookup_writeMap, named]
      rfl
    obtain ⟨held, found, same⟩ := Option.map_eq_some_iff.mp looked
    rw [found, mapNumbers_eq_string.mp same]
  refine ⟨?_, ?_, ?_⟩
  · rw [body, write, writeMap_insertMember present, fieldsWritten, withMember_object, mapNumbers,
      mapMembers_replacing rfl]
    rfl
  · exact uniqueMembers_replacing rfl unique
  · refine numbers_replacing rfl fun member mem same => ?_
    have held := Value.lookup_of_mem (nodup_of_uniqueMembers unique) mem
    rw [same, modelHeld] at held
    rw [← Option.some.inj held, numbers]
    all_goals nofun

/-- The buyer's document is sent with just its model replaced if its numbers stay. -/
theorem upstreamBody_same_iff {bytes : Bytes} {buyer : Document} {out : UpstreamBody}
    (reads : read bytes = some buyer) (forwarded : upstreamBody serde read lookup bytes = .ok out) :
    Same out.body (buyer.withMember "model" (.string out.binding.upstreamModel)) ↔
      ∀ literal ∈ buyer.numbers, Exact serde literal := by
  obtain ⟨body, unique, numbers⟩ := upstreamBody_body reads forwarded
  rw [body, same_mapNumbers _ unique, numbers]
  exact forall₂_congr fun literal _ => again_value_iff literal

/-- The doubles of `0.5` and of `18446744073709551617`, which is `2 ^ 64 + 1`. -/
def twoDoubles : SerdeNumbers where
  nearest literal :=
    if literal = .decimal false 5 (-1) then some 0x3FE0000000000000
    else if literal = .integer false 18446744073709551617 then some 0x43F0000000000000
    else none
  written bits :=
    if bits = 0x3FE0000000000000 then .decimal false 5 (-1)
    else .decimal false 18446744073709552 3

def onlyModel : ModelBinding :=
  ⟨"bedrock", "m", "anthropic.m", "m", 1⟩

def halfText : Bytes :=
  asBytes "\x7b\"model\":\"m\",\"max_tokens\":16,\"temperature\":0.5\x7d"

def halfBody : Document :=
  .object [("model", .string "m"), ("max_tokens", .number (.integer false 16)),
    ("temperature", .number (.decimal false 5 (-1)))]

def halfSent : UpstreamBody :=
  ⟨onlyModel, false, .object [("model", .string "anthropic.m"),
    ("max_tokens", .number (.integer false 16)), ("temperature", .number (.decimal false 5 (-1)))]⟩

theorem half_forwarded :
    upstreamBody twoDoubles (fun _ => some halfBody) (fun _ => .ok onlyModel) halfText =
      .ok halfSent := by
  rfl

/-- Its numbers are exact. -/
theorem halfBody_exact : ∀ literal ∈ halfBody.numbers, Exact twoDoubles literal := by
  intro literal mem
  have which : literal = .integer false 16 ∨ literal = .decimal false 5 (-1) := by
    simpa [halfBody, numbers, numbersOfMembers] using mem
  rcases which with rfl | rfl
  · exact .inl ⟨16, rfl, by decide⟩
  · refine .inr (.inr fun bits nearest => ?_)
    cases nearest
    rfl

theorem halfBody_same :
    Same halfSent.body (halfBody.withMember "model" (.string "anthropic.m")) :=
  (upstreamBody_same_iff rfl half_forwarded).mpr halfBody_exact

def wideText : Bytes :=
  asBytes "\x7b\"model\":\"m\",\"max_tokens\":18446744073709551617\x7d"

def wideBody : Document :=
  .object [("model", .string "m"), ("max_tokens", .number (.integer false 18446744073709551617))]

def wideSent : UpstreamBody :=
  ⟨onlyModel, false, .object [("model", .string "anthropic.m"),
    ("max_tokens", .number (.decimal false 18446744073709552 3))]⟩

/-- The wide number is forwarded as another. -/
theorem wideBody_differs :
    upstreamBody twoDoubles (fun _ => some wideBody) (fun _ => .ok onlyModel) wideText =
        .ok wideSent ∧
      ¬ Same wideSent.body (wideBody.withMember "model" (.string "anthropic.m")) := by
  refine ⟨rfl, ?_⟩
  rintro ⟨members, same, -, -, ⟨other, found, literal, rfl, equal⟩, -⟩
  cases same
  have wide : literal = .integer false 18446744073709551617 := by
    cases found
    rfl
  subst wide
  norm_num [NumberLiteral.value, NumberLiteral.isNegative, NumberLiteral.magnitudeOf] at equal

end Sent

end GmMiner.Bedrock
