import GmMiner.Lib.SortedMap
import Mathlib.Data.List.Nodup
import Mathlib.Data.List.TakeWhile

/-!
`serde_json::Value` and the strict reader of `attestd/src/strict_json.rs`.

An object is the list of its members in the order a `Map` keeps them, which is
that of insertion: the image is built as one workspace, where `gmcli` turns on
`preserve_order`. The syntax of JSON is the parser's: `decode` stands for what
`serde_json` makes of a text, and a member of the tree it hands to the visitor
may still come twice.
-/

namespace GmMiner.Json

/-- `serde_json::Number`: a float is its bits. -/
inductive Number
  | posInt (n : UInt64)
  | negInt (n : Int64)
  | float (bits : UInt64)
  deriving DecidableEq, Repr

inductive Value
  | null
  | bool (b : Bool)
  | number (n : Number)
  | string (text : String)
  | array (items : List Value)
  | object (members : List (String × Value))
  deriving Repr

namespace Value

/-- `Value::get` with a name. -/
def get (name : String) : Value → Option Value
  | object members => members.lookup name
  | _ => none

/-- What a path of names leads to. -/
def follow : List String → Value → Option Value
  | [], value => some value
  | name :: path, value => (value.get name).bind (follow path)

/-- `parse_index` of `Value::pointer`. -/
def parseIndex (token : String) : Option Nat :=
  match token.toList with
  | [] => none
  | '0' :: _ :: _ => none
  | digits => if digits.all Char.isDigit then some (Nat.ofDigitChars 10 digits 0) else none

/-- `Value::pointer` of the reference tokens of a path, which may lead through arrays. -/
def pointer : List String → Value → Option Value
  | [], value => some value
  | token :: path, value =>
      match value with
      | .object members => (members.lookup token).bind (pointer path)
      | .array items => ((parseIndex token).bind fun index => items[index]?).bind (pointer path)
      | _ => none

/-- Through objects alone a pointer follows the names. -/
theorem pointer_of_follow {path : List String} {value found : Value}
    (leads : value.follow path = some found) : value.pointer path = some found := by
  induction path generalizing value with
  | nil => exact leads
  | cons name path ih =>
      obtain ⟨child, got, later⟩ := Option.bind_eq_some_iff.mp leads
      cases value with
      | object members => exact Option.bind_eq_some_iff.mpr ⟨child, got, ih later⟩
      | null | bool | number | string | array => cases got

def asStr : Value → Option String
  | string text => some text
  | _ => none

def asArray : Value → Option (List Value)
  | array items => some items
  | _ => none

/-- `Value::as_object`. -/
def asObject : Value → Option (List (String × Value))
  | object members => some members
  | _ => none

/-- The text of a value is there for strings alone. -/
theorem asStr_eq_some {value : Value} {text : String} :
    value.asStr = some text ↔ value = .string text := by
  cases value <;> simp [asStr]

/-- The items of a value are there for lists alone. -/
theorem asArray_eq_some {value : Value} {items : List Value} :
    value.asArray = some items ↔ value = .array items := by
  cases value <;> simp [asArray]

/-- The members of a value are there for objects alone. -/
theorem asObject_eq_some {value : Value} {members : List (String × Value)} :
    value.asObject = some members ↔ value = .object members := by
  cases value <;> simp [asObject]

/-- `Value::as_u64`. -/
def asU64 : Value → Option Nat
  | number (.posInt n) => some n.toNat
  | _ => none

/-- The text of a member. -/
def textOf (name : String) (value : Value) : Option String := (value.get name).bind asStr

/-- A text member is the one a path of its name alone leads to. -/
theorem textOf_eq_some {name text : String} {value : Value} :
    value.textOf name = some text ↔ value.follow [name] = some (.string text) := by
  unfold textOf
  rw [follow, Option.bind_eq_some_iff, Option.bind_eq_some_iff]
  constructor
  · rintro ⟨member, found, isText⟩
    cases member with
    | string held =>
        cases isText
        exact ⟨_, found, rfl⟩
    | null | bool | number | array | object => cases isText
  · rintro ⟨member, found, same⟩
    cases same
    exact ⟨_, found, rfl⟩

/-- `Map::insert`. -/
def insertMember (name : String) (value : Value) (members : List (String × Value)) :
    List (String × Value) :=
  if (members.lookup name).isSome then
    members.map fun member => if member.1 = name then (name, value) else member
  else members ++ [(name, value)]

/-- `Map::remove`, which `preserve_order` makes a `swap_remove`: the last member takes the
place of the removed one. -/
def removeMember (name : String) (members : List (String × Value)) : List (String × Value) :=
  match members.dropWhile fun member => member.1 ≠ name with
  | [] => members
  | _ :: after =>
      -- A map has no second member of the name; a list that has one loses it too.
      let rest := after.filter fun member => member.1 ≠ name
      members.takeWhile (fun member => member.1 ≠ name) ++ (rest.getLast?.toList ++ rest.dropLast)

/-- No member of the name is left. -/
theorem lookup_removeMember_self (name : String) (members : List (String × Value)) :
    (removeMember name members).lookup name = none := by
  rw [List.lookup_eq_none_iff]
  intro member mem
  refine bne_iff_ne.mpr fun same => ?_
  unfold removeMember at mem
  split at mem
  · -- Nothing was removed: no member has the name.
    rename_i none_left
    exact absurd same.symm
      (of_decide_eq_true (List.dropWhile_eq_nil_iff.mp none_left member mem))
  · -- The last member fills the gap, as a swap leaves it, and the rest is filtered.
    rename_i removed after found
    rcases List.mem_append.mp mem with before | behind
    · have kept := List.mem_takeWhile_imp before
      exact absurd same.symm (of_decide_eq_true kept)
    · have kept : member ∈ after.filter fun member => member.1 ≠ name := by
        rcases List.mem_append.mp behind with last | front
        · exact List.mem_of_getLast? (Option.mem_toList.mp last)
        · exact List.dropLast_subset _ front
      exact absurd same.symm (of_decide_eq_true (List.mem_filter.mp kept).2)

@[simp] theorem get_object (name : String) (members : List (String × Value)) :
    (object members).get name = members.lookup name := rfl

/-- The member inserted is the one then found. -/
theorem lookup_insertMember_self {name : String} {value : Value}
    {members : List (String × Value)} :
    (insertMember name value members).lookup name = some value := by
  unfold insertMember
  split
  · -- A name that is there keeps its place: the map over the members changes only its value.
    rename_i present
    induction members with
    | nil => cases present
    | cons member rest ih =>
        obtain ⟨key, held⟩ := member
        by_cases same : key = name
        · subst same
          simp
        · have other : (name == key) = false := beq_false_of_ne (Ne.symm same)
          rw [List.lookup_cons, other] at present
          rw [List.map_cons, if_neg same, List.lookup_cons, other]
          exact ih present
  · rename_i absent
    rw [List.lookup_append, Option.not_isSome_iff_eq_none.mp absent]
    simp

/-- An insertion leaves every other name as it was. -/
theorem lookup_insertMember_of_ne {name other : String} {value : Value}
    {members : List (String × Value)} (different : other ≠ name) :
    (insertMember name value members).lookup other = members.lookup other := by
  have apart : (other == name) = false := beq_false_of_ne different
  unfold insertMember
  split
  · rename_i present
    -- Whether the name is there does not matter to another name.
    clear present
    induction members with
    | nil => rfl
    | cons member rest ih =>
        obtain ⟨key, held⟩ := member
        by_cases same : key = name
        · subst same
          rw [List.map_cons, if_pos rfl, List.lookup_cons, List.lookup_cons, apart]
          exact ih
        · rw [List.map_cons, if_neg same, List.lookup_cons, List.lookup_cons, ih]
  · rw [List.lookup_append, List.lookup_cons, apart]
    exact Option.or_none

mutual

/-- No object of the tree has a key twice. -/
def unique : Value → Bool
  | array items => uniqueItems items
  | object members => uniqueMembers members
  | _ => true

def uniqueItems : List Value → Bool
  | [] => true
  | item :: rest => item.unique && uniqueItems rest

def uniqueMembers : List (String × Value) → Bool
  | [] => true
  | (key, value) :: rest =>
      !(rest.map Prod.fst).contains key && value.unique && uniqueMembers rest

end

mutual

/-- The objects of a tree, at every depth. -/
def objects : Value → List (List (String × Value))
  | array items => objectsOfItems items
  | object members => members :: objectsOfMembers members
  | _ => []

def objectsOfItems : List Value → List (List (String × Value))
  | [] => []
  | item :: rest => item.objects ++ objectsOfItems rest

def objectsOfMembers : List (String × Value) → List (List (String × Value))
  | [] => []
  | (_, value) :: rest => value.objects ++ objectsOfMembers rest

end

/-- An object inside a list is inside one of its items. -/
theorem mem_objectsOfItems {items : List Value} {found : List (String × Value)} :
    found ∈ objectsOfItems items ↔ ∃ item ∈ items, found ∈ item.objects := by
  induction items with
  | nil => simp [objectsOfItems]
  | cons item rest ih => simp [objectsOfItems, ih]

/-- An object inside a member list is inside one of the members' values. -/
theorem mem_objectsOfMembers {members found : List (String × Value)} :
    found ∈ objectsOfMembers members ↔ ∃ member ∈ members, found ∈ member.2.objects := by
  induction members with
  | nil => simp [objectsOfMembers]
  | cons member rest ih => simp [objectsOfMembers, ih]

/-- Every item of a list without repeated names is without them. -/
theorem unique_of_mem_items {items : List Value} (unique : uniqueItems items = true) {item : Value}
    (mem : item ∈ items) : item.unique = true := by
  induction items with
  | nil => cases mem
  | cons head rest ih =>
      unfold uniqueItems at unique
      obtain ⟨here, later⟩ := Bool.and_eq_true_iff.mp unique
      rcases List.mem_cons.mp mem with rfl | mem
      · exact here
      · exact ih later mem

/-- A member list is without repeats if its head's name is not among the later ones and
no value has any. -/
theorem uniqueMembers_cons {name : String} {value : Value} {rest : List (String × Value)} :
    uniqueMembers ((name, value) :: rest) = true ↔
      name ∉ rest.map Prod.fst ∧ value.unique = true ∧ uniqueMembers rest = true := by
  rw [uniqueMembers]
  simp only [Bool.and_eq_true, Bool.not_eq_true', List.contains_eq_mem, decide_eq_false_iff_not]
  exact and_assoc

/-- The names of an object without repeated names are distinct. -/
theorem nodup_of_uniqueMembers {members : List (String × Value)}
    (unique : uniqueMembers members = true) : (members.map Prod.fst).Nodup := by
  induction members with
  | nil => exact List.nodup_nil
  | cons member rest ih =>
      obtain ⟨absent, -, later⟩ := uniqueMembers_cons.mp unique
      rw [List.map_cons, List.nodup_cons]
      exact ⟨absent, ih later⟩

/-- Every member of an object without repeated names holds a value without them. -/
theorem unique_of_mem_members {members : List (String × Value)}
    (unique : uniqueMembers members = true) {member : String × Value} (mem : member ∈ members) :
    member.2.unique = true := by
  induction members with
  | nil => cases mem
  | cons head rest ih =>
      obtain ⟨-, here, later⟩ := uniqueMembers_cons.mp unique
      rcases List.mem_cons.mp mem with rfl | mem
      · exact here
      · exact ih later mem

/-- What a lookup finds is a member of the list. -/
theorem mem_of_lookup {V : Type} {members : List (String × V)} {name : String} {value : V}
    (found : members.lookup name = some value) : (name, value) ∈ members := by
  obtain ⟨before, after, split, -⟩ := List.lookup_eq_some_iff.mp found
  rw [split]
  exact List.mem_append_right _ List.mem_cons_self

/-- Where every name comes once, a member is what its name leads to. -/
theorem lookup_of_mem {V : Type} {members : List (String × V)} {name : String} {value : V}
    (once : (members.map Prod.fst).Nodup) (mem : (name, value) ∈ members) :
    members.lookup name = some value := by
  induction members with
  | nil => cases mem
  | cons member rest ih =>
      rw [List.map_cons, List.nodup_cons] at once
      rw [List.lookup_cons]
      rcases List.mem_cons.mp mem with rfl | mem
      · rw [beq_self_eq_true]
      · have other : (name == member.1) = false := beq_eq_false_iff_ne.mpr fun same =>
          once.1 (same ▸ List.mem_map_of_mem (f := Prod.fst) mem)
        rw [other]
        exact ih once.2 mem

/-- A member's value repeats no name if the whole value repeats none. -/
theorem unique_get {value child : Value} (unique : value.unique = true) {name : String}
    (found : value.get name = some child) : child.unique = true := by
  cases value with
  | object members =>
      rw [Value.unique] at unique
      exact unique_of_mem_members unique (mem_of_lookup found)
  | null | bool | number | string | array => cases found

end Value

/-- `parse_unique_json`. -/
def parseUniqueJson (decode : List UInt8 → Option Value) (bytes : List UInt8) : Option Value :=
  (decode bytes).filter Value.unique

/-- What is accepted repeats no name at any depth. -/
theorem unique_of_parseUniqueJson {decode : List UInt8 → Option Value} {bytes : List UInt8}
    {value : Value} (parsed : parseUniqueJson decode bytes = some value) : value.unique = true :=
  (Option.filter_eq_some_iff.mp parsed).2

end GmMiner.Json
