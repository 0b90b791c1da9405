import GmMiner.Json.Document

/-!
The ordinary reading of a text into a `serde_json::Value`, beside the strict one of
`attestd/src/strict_json.rs`.

Both walk through the same document. Where a name comes again the ordinary reader replaces the
member, and the strict one refuses; everywhere else they do the same (`visit_eq_ok_iff`). The strict
reader of trees (`parseUniqueJson`) is that of documents, without their syntax
(`parseUnique_eq_parseUniqueJson`).
-/

namespace GmMiner.Json

namespace SerdeNumbers

variable (serde : SerdeNumbers)

mutual

/-- The visitor of `Value`. -/
def ordinary : Document → Except String Value
  | .null => .ok .null
  | .bool b => .ok (.bool b)
  | .number literal =>
      -- Without a finite double the deserializer fails before it calls either visitor.
      match serde.deliver literal with
      | some n => .ok (.number n)
      | none => .error "number out of range"
  | .string text => .ok (.string text)
  | .array items => (ordinarySeq items).map .array
  | .object members => (ordinaryMap [] members).map .object

def ordinarySeq : List Document → Except String (List Value)
  | [] => .ok []
  | item :: rest =>
      match ordinary item with
      | .error error => .error error
      | .ok value => (ordinarySeq rest).map (value :: ·)

/-- With the values so far; the last member of a name is kept. -/
def ordinaryMap (values : List (String × Value)) :
    List (String × Document) → Except String (List (String × Value))
  | [] => .ok values
  | (key, item) :: rest =>
      match ordinary item with
      | .error error => .error error
      | .ok value => ordinaryMap (Value.insertMember key value values) rest

end

variable {serde}

/-- A mapped result is accepted if the result is. -/
theorem map_eq_ok {A B : Type} {f : A → B} {result : Except String A} {value : B} :
    result.map f = .ok value ↔ ∃ given, result = .ok given ∧ f given = value := by
  cases result <;> simp [Except.map]

/-- The strict visitor takes a list item by item. -/
theorem visitSeq_cons_eq_ok {item : Document} {rest : List Document} {values : List Value} :
    serde.visitSeq (item :: rest) = .ok values ↔
      ∃ value, serde.visit item = .ok value ∧ ∃ later, serde.visitSeq rest = .ok later ∧
        value :: later = values := by
  rw [visitSeq]
  cases serde.visit item <;> simp [map_eq_ok]

/-- The ordinary visitor takes a list item by item. -/
theorem ordinarySeq_cons_eq_ok {item : Document} {rest : List Document} {values : List Value} :
    serde.ordinarySeq (item :: rest) = .ok values ↔
      ∃ value, serde.ordinary item = .ok value ∧ ∃ later, serde.ordinarySeq rest = .ok later ∧
        value :: later = values := by
  rw [ordinarySeq]
  cases serde.ordinary item <;> simp [map_eq_ok]

/-- Later names are new to an object with one more member: they are not that one's, and were new
to it before. -/
theorem fresh_names_insertMember {key : String} {value : Value} {values : List (String × Value)}
    {names : List String} :
    (∀ name ∈ names, (Value.insertMember key value values).lookup name = none) ↔
      key ∉ names ∧ ∀ name ∈ names, values.lookup name = none := by
  constructor
  · intro fresh
    have apart : ∀ name ∈ names, name ≠ key := by
      rintro name mem rfl
      have held := fresh name mem
      rw [Value.lookup_insertMember_self] at held
      cases held
    refine ⟨fun mem => apart key mem rfl, fun name mem => ?_⟩
    rw [← Value.lookup_insertMember_of_ne (apart name mem)]
    exact fresh name mem
  · rintro ⟨absent, fresh⟩ name mem
    have apart : name ≠ key := by
      rintro rfl
      exact absent mem
    rw [Value.lookup_insertMember_of_ne apart]
    exact fresh name mem

section Members

variable {key : String} {item : Document} {values out : List (String × Value)}
  {rest : List (String × Document)}

/-- The strict visitor takes a member only if its name is not in the map yet. -/
theorem visitMap_cons_eq_ok :
    serde.visitMap values ((key, item) :: rest) = .ok out ↔
      (values.lookup key).isSome = false ∧ ∃ value, serde.visit item = .ok value ∧
        serde.visitMap (Value.insertMember key value values) rest = .ok out := by
  rw [visitMap]
  cases (values.lookup key).isSome
  · cases serde.visit item <;> simp
  · simp

/-- The ordinary visitor takes every member, and the later one of a name stays. -/
theorem ordinaryMap_cons_eq_ok :
    serde.ordinaryMap values ((key, item) :: rest) = .ok out ↔
      ∃ value, serde.ordinary item = .ok value ∧
        serde.ordinaryMap (Value.insertMember key value values) rest = .ok out := by
  rw [ordinaryMap]
  cases serde.ordinary item <;> simp

/-- An object so far has none of the names to come. -/
def Fresh (values : List (String × Value)) (members : List (String × Document)) : Prop :=
  ∀ name ∈ members.map Prod.fst, values.lookup name = none

/-- The names are new to a map if the first is and the others are. -/
theorem fresh_cons :
    Fresh values ((key, item) :: rest) ↔ (values.lookup key).isSome = false ∧ Fresh values rest := by
  simp [Fresh]

/-- After one member is in, the later names must differ from it too. -/
theorem fresh_insertMember {value : Value} :
    Fresh (Value.insertMember key value values) rest ↔
      key ∉ rest.map Prod.fst ∧ Fresh values rest :=
  fresh_names_insertMember

end Members

mutual

/-- The strict reader accepts what the ordinary one does if no name comes twice in an object, and
reads the same. -/
theorem visit_eq_ok_iff : (document : Document) → {value : Value} →
    (serde.visit document = .ok value ↔
      serde.ordinary document = .ok value ∧ document.unique = true)
  | .null, _ => by simp [visit, ordinary, Document.unique]
  | .bool b, _ => by simp [visit, ordinary, Document.unique]
  | .number literal, _ => by
      rw [visit, ordinary]
      cases serde.deliver literal <;> simp [Document.unique]
  | .string text, _ => by simp [visit, ordinary, Document.unique]
  | .array items, value => by
      rw [visit, ordinary, Document.unique, map_eq_ok, map_eq_ok]
      simp only [visitSeq_eq_ok_iff items]
      grind
  | .object members, value => by
      have fresh : Fresh [] members := fun _ _ => rfl
      rw [visit, ordinary, Document.unique, map_eq_ok, map_eq_ok]
      simp only [visitMap_eq_ok_iff members [], fresh]
      grind

/-- Lists of `visit_eq_ok_iff`. -/
theorem visitSeq_eq_ok_iff : (items : List Document) → {values : List Value} →
    (serde.visitSeq items = .ok values ↔
      serde.ordinarySeq items = .ok values ∧ Document.uniqueItems items = true)
  | [], _ => by simp [visitSeq, ordinarySeq, Document.uniqueItems]
  | item :: rest, values => by
      rw [visitSeq_cons_eq_ok, ordinarySeq_cons_eq_ok, Document.uniqueItems, Bool.and_eq_true]
      simp only [visit_eq_ok_iff item, visitSeq_eq_ok_iff rest]
      grind

/-- Members of `visit_eq_ok_iff`: the names are new to the map as well. -/
theorem visitMap_eq_ok_iff : (members : List (String × Document)) →
    (values : List (String × Value)) → {out : List (String × Value)} →
      (serde.visitMap values members = .ok out ↔
        serde.ordinaryMap values members = .ok out ∧ Document.uniqueMembers members = true ∧
          Fresh values members)
  | [], values, _ => by
      simp [visitMap, ordinaryMap, Document.uniqueMembers, Fresh]
  | (key, item) :: rest, values, out => by
      rw [visitMap_cons_eq_ok, ordinaryMap_cons_eq_ok, Document.uniqueMembers_cons, fresh_cons]
      simp only [visit_eq_ok_iff item, visitMap_eq_ok_iff rest, fresh_insertMember]
      grind

end

end SerdeNumbers

namespace SerdeNumbers

variable (serde : SerdeNumbers)

mutual

/-- The tree a document is, with every member that comes. -/
def tree : Document → Option Value
  | .null => some .null
  | .bool b => some (.bool b)
  | .number literal => (serde.deliver literal).map .number
  | .string text => some (.string text)
  | .array items => (treeSeq items).map .array
  | .object members => (treeMap members).map .object

def treeSeq : List Document → Option (List Value)
  | [] => some []
  | item :: rest => (tree item).bind fun value => (treeSeq rest).map (value :: ·)

def treeMap : List (String × Document) → Option (List (String × Value))
  | [] => some []
  | (key, item) :: rest => (tree item).bind fun value => (treeMap rest).map ((key, value) :: ·)

end

variable {serde}

mutual

/-- The strict reader takes a document for its tree, if no object of that has a name twice. -/
theorem visit_eq_ok_tree : (document : Document) → {value : Value} →
    (serde.visit document = .ok value ↔ serde.tree document = some value ∧ value.unique = true)
  | .null, _ => by
      simp only [visit, tree, Except.ok.injEq, Option.some.injEq]
      exact ⟨fun same => ⟨same, same ▸ rfl⟩, And.left⟩
  | .bool b, _ => by
      simp only [visit, tree, Except.ok.injEq, Option.some.injEq]
      exact ⟨fun same => ⟨same, same ▸ rfl⟩, And.left⟩
  | .number literal, _ => by
      rw [visit, tree]
      cases serde.deliver literal with
      | none => simp
      | some n =>
          simp only [Except.ok.injEq, Option.map_some, Option.some.injEq]
          exact ⟨fun same => ⟨same, same ▸ rfl⟩, And.left⟩
  | .string text, _ => by
      simp only [visit, tree, Except.ok.injEq, Option.some.injEq]
      exact ⟨fun same => ⟨same, same ▸ rfl⟩, And.left⟩
  | .array items, value => by
      rw [visit, tree, map_eq_ok, Option.map_eq_some_iff]
      simp only [visitSeq_eq_ok_tree items]
      constructor
      · rintro ⟨values, ⟨walked, unique⟩, rfl⟩
        exact ⟨⟨values, walked, rfl⟩, unique⟩
      · rintro ⟨⟨values, walked, rfl⟩, unique⟩
        exact ⟨values, ⟨walked, unique⟩, rfl⟩
  | .object members, value => by
      rw [visit, tree, map_eq_ok, Option.map_eq_some_iff]
      -- The map begins empty, so its own members are all it holds.
      simp only [visitMap_eq_ok_tree members []]
      constructor
      · rintro ⟨values, ⟨own, walked, same, unique, -⟩, rfl⟩
        rw [List.nil_append] at same
        subst same
        exact ⟨⟨values, walked, rfl⟩, unique⟩
      · rintro ⟨⟨own, walked, rfl⟩, unique⟩
        exact ⟨own, ⟨own, walked, rfl, unique, fun _ _ => rfl⟩, rfl⟩

/-- Lists of `visit_eq_ok_tree`. -/
theorem visitSeq_eq_ok_tree : (items : List Document) → {values : List Value} →
    (serde.visitSeq items = .ok values ↔
      serde.treeSeq items = some values ∧ Value.uniqueItems values = true)
  | [], values => by
      simp only [visitSeq, treeSeq, Except.ok.injEq, Option.some.injEq]
      exact ⟨fun same => ⟨same, same ▸ rfl⟩, And.left⟩
  | item :: rest, values => by
      rw [visitSeq_cons_eq_ok, treeSeq, Option.bind_eq_some_iff]
      simp only [visit_eq_ok_tree item, visitSeq_eq_ok_tree rest, Option.map_eq_some_iff]
      constructor
      · rintro ⟨value, ⟨here, unique⟩, later, ⟨walked, others⟩, rfl⟩
        exact ⟨⟨value, here, later, walked, rfl⟩, Bool.and_eq_true_iff.mpr ⟨unique, others⟩⟩
      · rintro ⟨⟨value, here, later, walked, rfl⟩, unique⟩
        obtain ⟨unique, others⟩ := Bool.and_eq_true_iff.mp unique
        exact ⟨value, ⟨here, unique⟩, later, ⟨walked, others⟩, rfl⟩

/-- Members of `visit_eq_ok_tree`: the map's own members come first, then those of
the tree. -/
theorem visitMap_eq_ok_tree : (members : List (String × Document)) →
    (values : List (String × Value)) → {out : List (String × Value)} →
      (serde.visitMap values members = .ok out ↔
        ∃ own, serde.treeMap members = some own ∧ out = values ++ own ∧
          Value.uniqueMembers own = true ∧ ∀ name ∈ own.map Prod.fst, values.lookup name = none)
  | [], values, out => by
      simp only [visitMap, treeMap, Except.ok.injEq, Option.some.injEq]
      constructor
      · rintro rfl
        exact ⟨[], rfl, (List.append_nil _).symm, rfl, nofun⟩
      · rintro ⟨own, rfl, same, -⟩
        rw [same, List.append_nil]
  | (key, item) :: rest, values, out => by
      rw [visitMap_cons_eq_ok, treeMap]
      simp only [visit_eq_ok_tree item, visitMap_eq_ok_tree rest, Option.bind_eq_some_iff,
        Option.map_eq_some_iff, fresh_names_insertMember]
      constructor
      · -- Accepted: every name was new when it came.
        rintro ⟨absent, value, ⟨here, unique⟩, own, walked, rfl, others, notIn, fresh⟩
        refine ⟨(key, value) :: own, ⟨value, here, own, walked, rfl⟩, ?_,
          Value.uniqueMembers_cons.mpr ⟨notIn, unique, others⟩, ?_⟩
        · rw [insertMember_of_absent absent, List.append_assoc, List.singleton_append]
        · refine List.forall_mem_cons.mpr ⟨?_, fresh⟩
          exact Option.isNone_iff_eq_none.mp (Option.isSome_eq_false_iff.mp absent)
      · -- Unique: the first name is apart from the map and from the names behind it.
        rintro ⟨_, ⟨value, here, own, walked, rfl⟩, rfl, unique, fresh⟩
        obtain ⟨notIn, unique, others⟩ := Value.uniqueMembers_cons.mp unique
        obtain ⟨first, fresh⟩ := List.forall_mem_cons.mp fresh
        have absent : (values.lookup key).isSome = false := by rw [first]; rfl
        refine ⟨absent, value, ⟨here, unique⟩, own, walked, ?_, others, notIn, fresh⟩
        rw [insertMember_of_absent absent, List.append_assoc, List.singleton_append]

end

end SerdeNumbers

/-- `serde_json::from_slice` of a `Value`. -/
def parseOrdinary (serde : SerdeNumbers) (read : List UInt8 → Option Document)
    (bytes : List UInt8) : Option Value :=
  (read bytes).bind fun document => (serde.ordinary document).toOption

/-- A value is there when the result was accepted. -/
theorem toOption_eq_some {A : Type} {result : Except String A} {value : A} :
    result.toOption = some value ↔ result = .ok value := by
  cases result <;> simp [Except.toOption]

/-- The strict reader of a text accepts it if the ordinary one does and no object in it has a name
twice, and reads the same value. -/
theorem parseUnique_eq_some (serde : SerdeNumbers) (read : List UInt8 → Option Document)
    (bytes : List UInt8) (value : Value) :
    parseUnique serde read bytes = some value ↔
      parseOrdinary serde read bytes = some value ∧
        ∃ document, read bytes = some document ∧ document.unique = true := by
  unfold parseUnique parseOrdinary
  cases read bytes with
  | none => simp
  | some document =>
      simp only [Option.bind_some, toOption_eq_some, SerdeNumbers.visit_eq_ok_iff,
        Option.some.injEq, exists_eq_left']

/-- The two models of the strict reader are one: where the syntax is all that matters the tree is
taken as given, and it is the tree of the document. -/
theorem parseUnique_eq_parseUniqueJson (serde : SerdeNumbers)
    (read : List UInt8 → Option Document) (bytes : List UInt8) :
    parseUnique serde read bytes =
      parseUniqueJson (fun bytes => (read bytes).bind serde.tree) bytes := by
  refine Option.ext fun value => ?_
  rw [parseUnique, parseUniqueJson, Option.filter_eq_some_iff]
  cases read bytes with
  | none => simp
  | some document =>
      rw [Option.bind_some, Option.bind_some, toOption_eq_some, SerdeNumbers.visit_eq_ok_tree]

end GmMiner.Json
