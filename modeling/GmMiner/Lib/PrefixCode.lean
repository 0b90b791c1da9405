import Mathlib.Data.List.Basic

/-!
Codes that can be read off the head of a text. `ReadsBack code valid a` says that
no other valid value has a code at the head of a text that begins with the code of
`a`. Closing an enclosed list and separating its items keeps this
(`ReadsBack.terminated`, `ReadsBack.separated`), so a serializer is injective as
soon as each of its pieces reads back.
-/

namespace GmMiner.Lib

universe u v

variable {A : Type u} {B : Type v} {Symbol : Type}

/-- A text that begins with the code of `a` begins with the code of no other valid
value, and goes on in one way only. -/
def ReadsBack (code : A → List Symbol) (valid : A → Prop) (a : A) : Prop :=
  ∀ b rest rest', valid b → code a ++ rest = code b ++ rest' → a = b ∧ rest = rest'

namespace ReadsBack

variable {code : A → List Symbol} {valid : A → Prop}

/-- Values written alike are the same. -/
theorem injective {a b : A} (reads : ReadsBack code valid a) (validB : valid b)
    (same : code a = code b) : a = b :=
  (reads b [] [] validB (congrArg (· ++ []) same)).1

/-- A code with a decoder reads back. -/
theorem of_decoder (decode : List Symbol → Option (A × List Symbol))
    (decodes : ∀ a, valid a → ∀ rest, decode (code a ++ rest) = some (a, rest)) {a : A}
    (validA : valid a) : ReadsBack code valid a := by
  intro b rest rest' validB same
  have read := decodes a validA rest
  rw [same, decodes b validB rest'] at read
  cases read
  exact ⟨rfl, rfl⟩

/-- A code of fixed length reads back if it is injective. -/
theorem of_length (length : Nat) (fixed : ∀ a, (code a).length = length)
    (injective : ∀ a b, code a = code b → a = b) (a : A) : ReadsBack code valid a := by
  intro b rest rest' _ same
  obtain ⟨codes, rests⟩ := List.append_inj same ((fixed a).trans (fixed b).symm)
  exact ⟨injective a b codes, rests⟩

/-- A pair is read back part by part. -/
theorem pair {codeB : B → List Symbol} {validB : B → Prop} {a : A} {b : B}
    (first : ReadsBack code valid a) (second : ReadsBack codeB validB b) (between : List Symbol) :
    ReadsBack (fun pair : A × B => code pair.1 ++ between ++ codeB pair.2)
      (fun pair => valid pair.1 ∧ validB pair.2) (a, b) := by
  rintro ⟨a', b'⟩ rest rest' ⟨validA', validB'⟩ same
  simp only [List.append_assoc] at same
  obtain ⟨rfl, later⟩ := first a' _ _ validA' same
  obtain ⟨rfl, rests⟩ := second b' rest rest' validB' (List.append_cancel_left later)
  exact ⟨rfl, rests⟩

/-- Items are read back one by one up to the end mark, which begins none of them. -/
private theorem terminated_aux (code : A → List Symbol) {close : Symbol}
    (opens : ∀ a, valid a → ∀ rest rest', code a ++ rest ≠ close :: rest') {items : List A}
    (validItems : ∀ item ∈ items, valid item)
    (reads : ∀ item ∈ items, ReadsBack code valid item) {others : List A}
    (validOthers : ∀ other ∈ others, valid other) {rest rest' : List Symbol}
    (same : items.flatMap code ++ close :: rest = others.flatMap code ++ close :: rest') :
    items = others ∧ rest = rest' := by
  induction items generalizing others with
  | nil =>
      cases others with
      | nil => exact ⟨rfl, List.tail_eq_of_cons_eq same⟩
      | cons other others =>
          rw [List.flatMap_cons, List.append_assoc] at same
          exact absurd same.symm (opens other (validOthers other List.mem_cons_self) _ _)
  | cons item items ih =>
      rw [List.flatMap_cons, List.append_assoc] at same
      cases others with
      | nil => exact absurd same (opens item (validItems item List.mem_cons_self) _ _)
      | cons other others =>
          rw [List.flatMap_cons, List.append_assoc] at same
          obtain ⟨rfl, later⟩ := reads item List.mem_cons_self other _ _
            (validOthers other List.mem_cons_self) same
          obtain ⟨rfl, rests⟩ := ih (fun a mem => validItems a (List.mem_cons_of_mem _ mem))
            (fun a mem => reads a (List.mem_cons_of_mem _ mem))
            (fun a mem => validOthers a (List.mem_cons_of_mem _ mem)) later
          exact ⟨rfl, rests⟩

/-- A list of codes closed by a symbol none of them begins with. -/
theorem terminated (close : Symbol)
    (opens : ∀ a, valid a → ∀ rest rest', code a ++ rest ≠ close :: rest') {items : List A}
    (validItems : ∀ item ∈ items, valid item)
    (reads : ∀ item ∈ items, ReadsBack code valid item) :
    ReadsBack (fun items : List A => items.flatMap code ++ [close])
      (fun items => ∀ item ∈ items, valid item) items := by
  intro others rest rest' validOthers same
  simp only [List.append_assoc, List.singleton_append] at same
  exact terminated_aux code opens validItems reads validOthers same

/-- A list with separators is its first item, then each other one behind a
separator. -/
theorem intercalate_cons (separator : Symbol) (a : A) (items : List A) :
    [separator].intercalate ((a :: items).map code) =
      code a ++ items.flatMap fun item => separator :: code item := by
  induction items generalizing a with
  | nil => simp
  | cons item items ih =>
      rw [List.map_cons, List.map_cons, List.intercalate_cons_cons, ← List.map_cons, ih item]
      simp

/-- A list of codes with a separator between them, closed by another symbol that
none of them begins with. -/
theorem separated (separator close : Symbol) (apart : separator ≠ close)
    (opens : ∀ a, valid a → ∀ rest rest', code a ++ rest ≠ close :: rest') {items : List A}
    (validItems : ∀ item ∈ items, valid item)
    (reads : ∀ item ∈ items, ReadsBack code valid item) :
    ReadsBack (fun items : List A => [separator].intercalate (items.map code) ++ [close])
      (fun items => ∀ item ∈ items, valid item) items := by
  intro others rest rest' validOthers same
  dsimp only at same
  cases items with
  | nil =>
      cases others with
      | nil => exact ⟨rfl, by simpa using same⟩
      | cons other others =>
          rw [intercalate_cons] at same
          simp only [List.append_assoc] at same
          exact absurd same.symm (opens other (validOthers other List.mem_cons_self) _ _)
  | cons item items =>
      cases others with
      | nil =>
          rw [intercalate_cons] at same
          simp only [List.append_assoc] at same
          exact absurd same (opens item (validItems item List.mem_cons_self) _ _)
      | cons other others =>
          rw [intercalate_cons, intercalate_cons] at same
          simp only [List.append_assoc] at same
          obtain ⟨rfl, later⟩ := reads item List.mem_cons_self other _ _
            (validOthers other List.mem_cons_self) same
          -- Every further item begins with the separator, and the end does not.
          have tails := terminated_aux (fun item => separator :: code item)
            (fun a _ rest rest' begun => apart (List.head_eq_of_cons_eq begun))
            (fun a mem => validItems a (List.mem_cons_of_mem _ mem))
            (fun a mem b rest rest' validB begun =>
              reads a (List.mem_cons_of_mem _ mem) b rest rest' validB
                (List.tail_eq_of_cons_eq begun))
            (fun a mem => validOthers a (List.mem_cons_of_mem _ mem)) later
          exact ⟨congrArg _ tails.1, tails.2⟩

end ReadsBack

end GmMiner.Lib
