import GmMiner.Json.Value
import Mathlib.Algebra.Field.Rat
import Mathlib.Algebra.Order.Ring.Rat

/-!
JSON documents with their numbers as they are written, and what `attestd/src/strict_json.rs` makes
of one (`UniqueValueVisitor`).

`serde_json` walks through a text and hands its parts to the visitor; here the document is what it
walks through. A number that is no integer, or too large a one, is delivered as the nearest double,
and a double is written as the shortest decimal that reads as it: both conversions are
`serde_json`'s and stand as parameters. Two documents are the same when their objects are the same
finite maps and their numbers are equal (`Same`).
-/

namespace GmMiner.Json

/-- A number as it is written: an integer, or one with a fraction or an exponent. -/
inductive NumberLiteral
  | integer (negative : Bool) (magnitude : Nat)
  | decimal (negative : Bool) (significand : Nat) (exponent : Int)
  deriving DecidableEq, Repr

namespace NumberLiteral

def magnitudeOf : NumberLiteral → ℚ
  | integer _ magnitude => magnitude
  | decimal _ significand exponent => significand * 10 ^ exponent

def isNegative : NumberLiteral → Bool
  | integer negative _ | decimal negative _ _ => negative

/-- The number that is written. -/
def value (literal : NumberLiteral) : ℚ :=
  if literal.isNegative then -literal.magnitudeOf else literal.magnitudeOf

end NumberLiteral

inductive Document
  | null
  | bool (b : Bool)
  | number (literal : NumberLiteral)
  | string (text : String)
  | array (items : List Document)
  | object (members : List (String × Document))

/-- The conversions between decimals and doubles. -/
structure SerdeNumbers where
  /-- The nearest double, if there is a finite one. -/
  nearest : NumberLiteral → Option UInt64
  /-- What is written for a double. -/
  written : UInt64 → NumberLiteral

namespace SerdeNumbers

variable (serde : SerdeNumbers)

/-- The number the visitor is given: `visit_u64`, `visit_i64` or `visit_f64`. -/
def deliver : NumberLiteral → Option Number
  | .integer false magnitude =>
      if magnitude < 2 ^ 64 then some (.posInt (UInt64.ofNat magnitude))
      else (serde.nearest (.integer false magnitude)).map .float
  | .integer true magnitude =>
      if 0 < magnitude ∧ magnitude ≤ 2 ^ 63 then some (.negInt (Int64.ofInt (-magnitude)))
      else (serde.nearest (.integer true magnitude)).map .float
  | .decimal negative significand exponent =>
      (serde.nearest (.decimal negative significand exponent)).map .float

/-- What is written for a number. -/
def literalOf : Number → NumberLiteral
  | .posInt n => .integer false n.toNat
  | .negInt n => .integer (decide (n.toInt < 0)) n.toInt.natAbs
  | .float bits => serde.written bits

mutual

/-- `UniqueValueVisitor`. -/
def visit : Document → Except String Value
  | .null => .ok .null
  | .bool b => .ok (.bool b)
  | .number literal =>
      match serde.deliver literal with
      | some n => .ok (.number n)
      | none => .error "number out of range"
  | .string text => .ok (.string text)
  | .array items => (visitSeq items).map .array
  | .object members => (visitMap [] members).map .object

def visitSeq : List Document → Except String (List Value)
  | [] => .ok []
  | item :: rest =>
      match visit item with
      | .error error => .error error
      | .ok value => (visitSeq rest).map (value :: ·)

/-- With the values so far. -/
def visitMap (values : List (String × Value)) :
    List (String × Document) → Except String (List (String × Value))
  | [] => .ok values
  | (key, item) :: rest =>
      if (values.lookup key).isSome then .error "duplicate object key"
      else
        match visit item with
        | .error error => .error error
        | .ok value => visitMap (Value.insertMember key value values) rest

end

mutual

/-- `serde_json::to_vec`. -/
def write : Value → Document
  | .null => .null
  | .bool b => .bool b
  | .number n => .number (serde.literalOf n)
  | .string text => .string text
  | .array items => .array (writeSeq items)
  | .object members => .object (writeMap members)

def writeSeq : List Value → List Document
  | [] => []
  | item :: rest => write item :: writeSeq rest

def writeMap : List (String × Value) → List (String × Document)
  | [] => []
  | (key, value) :: rest => (key, write value) :: writeMap rest

end

/-- A number that was read and is written again. -/
def again (literal : NumberLiteral) : NumberLiteral :=
  ((serde.deliver literal).map serde.literalOf).getD literal

end SerdeNumbers

namespace Document

mutual

def Same : Document → Document → Prop
  | null, other => other = null
  | bool b, other => other = bool b
  | number literal, other => ∃ literal', other = number literal' ∧ literal.value = literal'.value
  | string text, other => other = string text
  | array items, other => ∃ items', other = array items' ∧ SameItems items items'
  | object members, other => ∃ members', other = object members' ∧
      (∀ name, (members.lookup name).isSome = (members'.lookup name).isSome) ∧
        SameMembers members members'

def SameItems : List Document → List Document → Prop
  | [], others => others = []
  | item :: rest, others =>
      ∃ other others', others = other :: others' ∧ Same item other ∧ SameItems rest others'

/-- Every member is the same as what its name leads to in the other. -/
def SameMembers : List (String × Document) → List (String × Document) → Prop
  | [], _ => True
  | (name, item) :: rest, others =>
      (∃ other, others.lookup name = some other ∧ Same item other) ∧ SameMembers rest others

end

mutual

/-- The numbers of a document. -/
def numbers : Document → List NumberLiteral
  | number literal => [literal]
  | array items => numbersOfItems items
  | object members => numbersOfMembers members
  | _ => []

def numbersOfItems : List Document → List NumberLiteral
  | [] => []
  | item :: rest => item.numbers ++ numbersOfItems rest

def numbersOfMembers : List (String × Document) → List NumberLiteral
  | [] => []
  | (_, item) :: rest => item.numbers ++ numbersOfMembers rest

end

mutual

def mapNumbers (f : NumberLiteral → NumberLiteral) : Document → Document
  | null => null
  | bool b => bool b
  | number literal => number (f literal)
  | string text => string text
  | array items => array (mapItems f items)
  | object members => object (mapMembers f members)

def mapItems (f : NumberLiteral → NumberLiteral) : List Document → List Document
  | [] => []
  | item :: rest => item.mapNumbers f :: mapItems f rest

def mapMembers (f : NumberLiteral → NumberLiteral) :
    List (String × Document) → List (String × Document)
  | [] => []
  | (name, item) :: rest => (name, item.mapNumbers f) :: mapMembers f rest

end

mutual

/-- No object of the document has a name twice. -/
def unique : Document → Bool
  | array items => uniqueItems items
  | object members => uniqueMembers members
  | _ => true

def uniqueItems : List Document → Bool
  | [] => true
  | item :: rest => item.unique && uniqueItems rest

def uniqueMembers : List (String × Document) → Bool
  | [] => true
  | (name, item) :: rest =>
      !(rest.map Prod.fst).contains name && item.unique && uniqueMembers rest

end

/-! ### Names and numbers -/

section Members

variable {f : NumberLiteral → NumberLiteral} {members : List (String × Document)}

/-- The recursion over members is a map over them; the names stay. -/
theorem mapMembers_eq (f : NumberLiteral → NumberLiteral) (members : List (String × Document)) :
    mapMembers f members = members.map fun member => (member.1, member.2.mapNumbers f) := by
  induction members with
  | nil => rfl
  | cons member rest ih =>
      obtain ⟨name, item⟩ := member
      rw [mapMembers, ih, List.map_cons]

/-- Rewriting the numbers keeps every name where it was. -/
theorem lookup_mapMembers (name : String) :
    (mapMembers f members).lookup name = (members.lookup name).map (mapNumbers f) := by
  induction members with
  | nil => rfl
  | cons member rest ih =>
      obtain ⟨key, item⟩ := member
      rw [mapMembers, List.lookup_cons, List.lookup_cons]
      cases name == key with
      | true => rfl
      | false => exact ih

/-- A member list is without repeats if its head's name is not among the later
ones, the head's value has none and neither have the later members. -/
theorem uniqueMembers_cons {name : String} {item : Document} {rest : List (String × Document)} :
    uniqueMembers ((name, item) :: rest) = true ↔
      name ∉ rest.map Prod.fst ∧ item.unique = true ∧ uniqueMembers rest = true := by
  rw [uniqueMembers]
  simp only [Bool.and_eq_true, Bool.not_eq_true', List.contains_eq_mem, decide_eq_false_iff_not]
  exact and_assoc

/-- The names of a member list without repeats are distinct. -/
theorem nodup_of_uniqueMembers (unique : uniqueMembers members = true) :
    (members.map Prod.fst).Nodup := by
  induction members with
  | nil => exact List.nodup_nil
  | cons member rest ih =>
      obtain ⟨absent, -, later⟩ := uniqueMembers_cons.mp unique
      rw [List.map_cons, List.nodup_cons]
      exact ⟨absent, ih later⟩

end Members

mutual

/-- A document is still the same with other numbers just if these are equal to its own. -/
theorem same_mapNumbers {f : NumberLiteral → NumberLiteral} :
    (document : Document) → document.unique = true →
      (Same (document.mapNumbers f) document ↔
        ∀ literal ∈ document.numbers, (f literal).value = literal.value)
  | null, _ => by simp [mapNumbers, Same, numbers]
  | bool b, _ => by simp [mapNumbers, Same, numbers]
  | number literal, _ => by simp [mapNumbers, Same, numbers]
  | string text, _ => by simp [mapNumbers, Same, numbers]
  | array items, unique => by
      rw [Document.unique] at unique
      have all := sameItems_mapItems (f := f) items unique
      simp only [mapNumbers, Same, numbers]
      rw [← all]
      constructor
      · rintro ⟨items', same, here⟩
        cases same
        exact here
      · exact fun here => ⟨items, rfl, here⟩
  | object members, unique => by
      rw [Document.unique] at unique
      -- Each member is compared with the one of its own name, which is itself where names are
      -- unique.
      have all := sameMembers_mapMembers (f := f) members members unique fun member mem =>
        Value.lookup_of_mem (nodup_of_uniqueMembers unique) mem
      simp only [mapNumbers, Same, numbers]
      rw [← all]
      constructor
      · rintro ⟨members', same, -, here⟩
        cases same
        exact here
      · intro here
        refine ⟨members, rfl, fun name => ?_, here⟩
        rw [lookup_mapMembers, Option.isSome_map]

/-- Lists of `same_mapNumbers`. -/
theorem sameItems_mapItems {f : NumberLiteral → NumberLiteral} :
    (items : List Document) → uniqueItems items = true →
      (SameItems (mapItems f items) items ↔
        ∀ literal ∈ numbersOfItems items, (f literal).value = literal.value)
  | [], _ => by simp [mapItems, SameItems, numbersOfItems]
  | item :: rest, unique => by
      rw [uniqueItems, Bool.and_eq_true] at unique
      have here := same_mapNumbers (f := f) item unique.1
      have later := sameItems_mapItems (f := f) rest unique.2
      simp only [mapItems, SameItems, numbersOfItems, List.forall_mem_append]
      rw [← here, ← later]
      constructor
      · rintro ⟨other, others, same, both⟩
        cases same
        exact both
      · exact fun both => ⟨item, rest, rfl, both⟩

/-- Members of `same_mapNumbers`: each is compared with the one of its name. -/
theorem sameMembers_mapMembers {f : NumberLiteral → NumberLiteral} :
    (members others : List (String × Document)) → uniqueMembers members = true →
      (∀ member ∈ members, others.lookup member.1 = some member.2) →
        (SameMembers (mapMembers f members) others ↔
          ∀ literal ∈ numbersOfMembers members, (f literal).value = literal.value)
  | [], _, _, _ => by simp [mapMembers, SameMembers, numbersOfMembers]
  | (name, item) :: rest, others, unique, found => by
      obtain ⟨-, ofItem, ofRest⟩ := uniqueMembers_cons.mp unique
      have here := same_mapNumbers (f := f) item ofItem
      have later := sameMembers_mapMembers (f := f) rest others ofRest fun member mem =>
        found member (List.mem_cons_of_mem _ mem)
      have leads : others.lookup name = some item := found (name, item) List.mem_cons_self
      simp only [mapMembers, SameMembers, numbersOfMembers, List.forall_mem_append]
      rw [← here, ← later, leads]
      refine and_congr_left fun _ => ?_
      constructor
      · rintro ⟨other, same, both⟩
        cases same
        exact both
      · exact fun both => ⟨item, rfl, both⟩

end

/-- The document with one member replaced. -/
def withMember (document : Document) (name : String) (item : Document) : Document :=
  match document with
  | object members =>
      object (members.map fun member => if member.1 = name then (name, item) else member)
  | _ => document

end Document

/-! ### What is read and written again -/

namespace SerdeNumbers

variable {serde : SerdeNumbers}

/-- Members are written one after the other. -/
theorem writeMap_append (first second : List (String × Value)) :
    serde.writeMap (first ++ second) = serde.writeMap first ++ serde.writeMap second := by
  induction first with
  | nil => rfl
  | cons member rest ih =>
      obtain ⟨key, item⟩ := member
      rw [List.cons_append, writeMap, writeMap, ih, List.cons_append]

/-- A new name goes to the end of the map. -/
theorem insertMember_of_absent {key : String} {value : Value} {values : List (String × Value)}
    (absent : (values.lookup key).isSome = false) :
    Value.insertMember key value values = values ++ [(key, value)] := by
  unfold Value.insertMember
  rw [absent]
  exact if_neg Bool.false_ne_true

mutual

/-- What the visitor accepts has no name twice, and is written again with its numbers as they were
delivered. -/
theorem write_of_visit : (document : Document) → {value : Value} →
    serde.visit document = .ok value →
      serde.write value = document.mapNumbers serde.again ∧ document.unique = true
  | .null, _, accepted => by
      cases accepted
      exact ⟨rfl, rfl⟩
  | .bool b, _, accepted => by
      cases accepted
      exact ⟨rfl, rfl⟩
  | .number literal, _, accepted => by
      rw [visit] at accepted
      split at accepted
      · -- What was delivered is what is written, so writing is reading the literal again.
        rename_i n delivered
        cases accepted
        refine ⟨?_, rfl⟩
        rw [write, Document.mapNumbers, again, delivered]
        rfl
      · cases accepted
  | .string text, _, accepted => by
      cases accepted
      exact ⟨rfl, rfl⟩
  | .array items, value, accepted => by
      rw [visit] at accepted
      cases read : serde.visitSeq items with
      | error => rw [read] at accepted; cases accepted
      | ok values =>
          rw [read] at accepted
          cases accepted
          obtain ⟨written, unique⟩ := writeSeq_of_visitSeq items read
          exact ⟨congrArg Document.array written, unique⟩
  | .object members, value, accepted => by
      rw [visit] at accepted
      cases read : serde.visitMap [] members with
      | error => rw [read] at accepted; cases accepted
      | ok values =>
          rw [read] at accepted
          cases accepted
          obtain ⟨written, unique, -⟩ := writeMap_of_visitMap members [] read
          exact ⟨congrArg Document.object written, unique⟩

/-- Lists of `write_of_visit`. -/
theorem writeSeq_of_visitSeq : (items : List Document) → {values : List Value} →
    serde.visitSeq items = .ok values →
      serde.writeSeq values = Document.mapItems serde.again items ∧
        Document.uniqueItems items = true
  | [], _, accepted => by
      cases accepted
      exact ⟨rfl, rfl⟩
  | item :: rest, values, accepted => by
      rw [visitSeq] at accepted
      split at accepted
      · cases accepted
      · rename_i value here
        cases later : serde.visitSeq rest with
        | error => rw [later] at accepted; cases accepted
        | ok others =>
            rw [later] at accepted
            cases accepted
            obtain ⟨written, unique⟩ := write_of_visit item here
            obtain ⟨written', unique'⟩ := writeSeq_of_visitSeq rest later
            rw [writeSeq, Document.mapItems, written, written', Document.uniqueItems, unique,
              unique']
            exact ⟨rfl, rfl⟩

/-- Members of `write_of_visit`: the map grows at its end, since a repeated name
is refused. -/
theorem writeMap_of_visitMap : (members : List (String × Document)) →
    (values : List (String × Value)) → {out : List (String × Value)} →
      serde.visitMap values members = .ok out →
        serde.writeMap out = serde.writeMap values ++ Document.mapMembers serde.again members ∧
          Document.uniqueMembers members = true ∧
            ∀ member ∈ members, values.lookup member.1 = none
  | [], values, _, accepted => by
      cases accepted
      exact ⟨(List.append_nil _).symm, rfl, nofun⟩
  | (key, item) :: rest, values, out, accepted => by
      rw [visitMap] at accepted
      split at accepted
      · cases accepted
      · -- The name is new, so the map grows at its end and keeps the order of the source.
        rename_i absent
        rw [Bool.not_eq_true] at absent
        split at accepted
        · cases accepted
        · rename_i value here
          rw [insertMember_of_absent absent] at accepted
          obtain ⟨written, unique⟩ := write_of_visit item here
          obtain ⟨written', unique', apart⟩ := writeMap_of_visitMap rest _ accepted
          -- The later names are new to the longer map: to the map before, and to the name just
          -- read.
          have apartFrom : ∀ member ∈ rest, values.lookup member.1 = none ∧ member.1 ≠ key := by
            intro member mem
            have none := apart member mem
            rw [List.lookup_append, Option.or_eq_none_iff, List.lookup_cons] at none
            refine ⟨none.1, fun same => ?_⟩
            rw [same, beq_self_eq_true] at none
            cases none.2
          refine ⟨?_, Document.uniqueMembers_cons.mpr ⟨?_, unique, unique'⟩, ?_⟩
          · rw [written', writeMap_append, writeMap, writeMap, written, Document.mapMembers,
              List.append_assoc]
            rfl
          · intro mem
            obtain ⟨member, later, same⟩ := List.mem_map.mp mem
            exact (apartFrom member later).2 same
          · intro member mem
            rcases List.mem_cons.mp mem with rfl | later
            · exact Option.isSome_eq_false_iff.mp absent |> Option.isNone_iff_eq_none.mp
            · exact (apartFrom member later).1

end

end SerdeNumbers

/-- `parse_unique_json`; `read` is what `serde_json` walks through in a text. -/
def parseUnique (serde : SerdeNumbers) (read : List UInt8 → Option Document) (bytes : List UInt8) :
    Option Value :=
  (read bytes).bind fun document => (serde.visit document).toOption

end GmMiner.Json
