import Mathlib

/-!
UTF-8 that is decoded with replacements, as `String::from_utf8_lossy` does.

Every character stands for a run of bytes, and a run that is not well formed is read as U+FFFD.
Bytes that are decoded in pieces give the same characters, except for the runs that a cut goes
through (`readsAs_iff`).
-/

namespace GmMiner.Lib.LossyUtf8

def replacement : Char := '\uFFFD'

/-- A character, with the bytes that it was read from. -/
structure Item where
  bytes : List UInt8
  char : Char
  deriving DecidableEq, Repr

/-- The start of a character of several bytes. -/
structure Begun where
  seen : List UInt8
  /-- The bits of the code point so far. -/
  code : Nat
  /-- The bytes that are to come after the next. -/
  more : Nat
  /-- The bounds of the next byte. -/
  low : Nat
  high : Nat
  deriving DecidableEq, Repr

/-- The first byte of a character of several bytes. -/
def lead (byte : UInt8) : Option Begun :=
  let point := byte.toNat
  if 0xC2 ≤ point ∧ point ≤ 0xDF then some ⟨[byte], point - 0xC0, 0, 0x80, 0xBF⟩
  else if point = 0xE0 then some ⟨[byte], 0, 1, 0xA0, 0xBF⟩
  else if point = 0xED then some ⟨[byte], 0xD, 1, 0x80, 0x9F⟩
  else if 0xE1 ≤ point ∧ point ≤ 0xEF then some ⟨[byte], point - 0xE0, 1, 0x80, 0xBF⟩
  else if point = 0xF0 then some ⟨[byte], 0, 2, 0x90, 0xBF⟩
  else if 0xF1 ≤ point ∧ point ≤ 0xF3 then some ⟨[byte], point - 0xF0, 2, 0x80, 0xBF⟩
  else if point = 0xF4 then some ⟨[byte], 4, 2, 0x80, 0x8F⟩
  else none

/-- A character that is broken off. -/
def Begun.broken (begun : Begun) : Item := ⟨begun.seen, replacement⟩

def Begun.Takes (begun : Begun) (byte : UInt8) : Prop :=
  begun.low ≤ byte.toNat ∧ byte.toNat ≤ begun.high

instance (begun : Begun) (byte : UInt8) : Decidable (begun.Takes byte) :=
  inferInstanceAs (Decidable (_ ∧ _))

def Begun.codeWith (begun : Begun) (byte : UInt8) : Nat :=
  begun.code * 64 + (byte.toNat - 0x80)

/-- A character with its last byte. -/
def Begun.whole (begun : Begun) (byte : UInt8) : Item :=
  ⟨begun.seen ++ [byte], Char.ofNat (begun.codeWith byte)⟩

def Begun.next (begun : Begun) (byte : UInt8) : Begun :=
  ⟨begun.seen ++ [byte], begun.codeWith byte, begun.more - 1, 0x80, 0xBF⟩

/-- A byte between two characters. -/
def start (byte : UInt8) : List Item × Option Begun :=
  if byte.toNat < 0x80 then ([⟨[byte], Char.ofNat byte.toNat⟩], none)
  else
    match lead byte with
    | some begun => ([], some begun)
    | none => ([⟨[byte], replacement⟩], none)

def step : Option Begun → UInt8 → List Item × Option Begun
  | none, byte => start byte
  | some begun, byte =>
      if begun.Takes byte then
        if begun.more = 0 then ([begun.whole byte], none) else ([], some (begun.next byte))
      else (begun.broken :: (start byte).1, (start byte).2)

def itemsFrom (state : Option Begun) : List UInt8 → List Item
  | [] => state.toList.map Begun.broken
  | byte :: rest => (step state byte).1 ++ itemsFrom (step state byte).2 rest

def items (bytes : List UInt8) : List Item := itemsFrom none bytes

/-- `String::from_utf8_lossy`. -/
def lossy (bytes : List UInt8) : List Char := (items bytes).map Item.char

/-- A text that bytes are read as when they are decoded in pieces. -/
def ReadsAs (bytes : List UInt8) (text : List Char) : Prop :=
  ∃ pieces : List (List UInt8), pieces.flatten = bytes ∧ pieces.flatMap lossy = text

/-! ### Well-formed starts -/

/-- Whatever bytes follow, the code point is one of several bytes. -/
def Completes : Nat → Nat → Prop
  | 0, code => 0x80 ≤ code ∧ code.isValidChar
  | more + 1, code => ∀ bits < 64, Completes more (code * 64 + bits)

/-- The starts that are come to. -/
inductive Reached : Begun → Prop
  | opened {byte : UInt8} {begun : Begun} (first : lead byte = some begun) : Reached begun
  | followed {begun : Begun} {byte : UInt8} (reached : Reached begun) (takes : begun.Takes byte)
      (more : begun.more ≠ 0) : Reached (begun.next byte)

/-- What a first byte gives. -/
theorem lead_spec {byte : UInt8} {begun : Begun} (first : lead byte = some begun) :
    0xC2 ≤ byte.toNat ∧ begun.seen = [byte] ∧ 0x80 ≤ begun.low ∧ begun.high ≤ 0xBF ∧
      ∀ point, begun.low ≤ point → point ≤ begun.high →
        Completes begun.more (begun.code * 64 + (point - 0x80)) := by
  have valid : ∀ code : Nat, code.isValidChar ↔ code < 0xD800 ∨ 0xDFFF < code ∧ code < 0x110000 :=
    fun _ => Iff.rfl
  unfold lead at first
  dsimp only at first
  -- One branch for each row of the table of first bytes.
  split at first
  · cases first
    refine ⟨by omega, rfl, by simp, by simp, fun point low high => ?_⟩
    simp only [Completes, valid] at low high ⊢
    omega
  split at first
  · cases first
    refine ⟨by omega, rfl, by simp, by simp, fun point low high bits small => ?_⟩
    simp only [Completes, valid] at low high ⊢
    omega
  split at first
  · cases first
    refine ⟨by omega, rfl, by simp, by simp, fun point low high bits small => ?_⟩
    simp only [Completes, valid] at low high ⊢
    omega
  split at first
  · cases first
    refine ⟨by omega, rfl, by simp, by simp, fun point low high bits small => ?_⟩
    simp only [Completes, valid] at low high ⊢
    omega
  split at first
  · cases first
    refine ⟨by omega, rfl, by simp, by simp, fun point low high bits small last less => ?_⟩
    simp only [Completes, valid] at low high ⊢
    omega
  split at first
  · cases first
    refine ⟨by omega, rfl, by simp, by simp, fun point low high bits small last less => ?_⟩
    simp only [Completes, valid] at low high ⊢
    omega
  split at first
  · cases first
    refine ⟨by omega, rfl, by simp, by simp, fun point low high bits small last less => ?_⟩
    simp only [Completes, valid] at low high ⊢
    omega
  · cases first

/-- A begun character is completed by a continuation byte within its bounds. -/
theorem Reached.bounds {begun : Begun} (reached : Reached begun) :
    0x80 ≤ begun.low ∧ begun.high ≤ 0xBF ∧
      ∀ point, begun.low ≤ point → point ≤ begun.high →
        Completes begun.more (begun.code * 64 + (point - 0x80)) := by
  induction reached with
  | opened first => exact (lead_spec first).2.2
  | @followed begun byte reached takes more ih =>
      refine ⟨Nat.le_refl _, Nat.le_refl _, fun point low high => ?_⟩
      have completes := ih.2.2 byte.toNat takes.1 takes.2
      obtain ⟨left, same⟩ := Nat.exists_eq_succ_of_ne_zero more
      rw [same] at completes
      have further := completes (point - 0x80) (by change point ≤ 0xBF at high; omega)
      change Completes (begun.more - 1) _
      rw [same]
      exact further

/-- A byte that goes on with a character starts none. -/
theorem Reached.start_of_takes {begun : Begun} {byte : UInt8} (reached : Reached begun)
    (takes : begun.Takes byte) : start byte = ([⟨[byte], replacement⟩], none) := by
  obtain ⟨low, high, -⟩ := reached.bounds
  have above := Nat.le_trans low takes.1
  have below := Nat.le_trans takes.2 high
  have none_ : lead byte = none := by
    cases first : lead byte with
    | none => rfl
    | some begun =>
        have large := (lead_spec first).1
        omega
  unfold start
  rw [if_neg (by omega), none_]

/-- A begun character has seen its first byte. -/
theorem Reached.seen_ne_nil {begun : Begun} (reached : Reached begun) : begun.seen ≠ [] := by
  cases reached with
  | opened first =>
      rw [(lead_spec first).2.1]
      exact List.cons_ne_nil _ _
  | followed => exact List.append_ne_nil_of_right_ne_nil _ (List.cons_ne_nil _ _)

/-- A lead byte begins a character and decodes nothing yet. -/
theorem start_of_lead {byte : UInt8} {begun : Begun} (first : lead byte = some begun) :
    start byte = ([], some begun) := by
  have large := (lead_spec first).1
  unfold start
  rw [if_neg (by omega), first]

/-- The bytes of a start lead to it. -/
theorem Reached.itemsFrom_seen {begun : Begun} (reached : Reached begun) (rest : List UInt8) :
    items (begun.seen ++ rest) = itemsFrom (some begun) rest := by
  induction reached generalizing rest with
  | @opened byte begun first =>
      rw [(lead_spec first).2.1]
      change (start byte).1 ++ itemsFrom (start byte).2 rest = _
      rw [start_of_lead first]
      rfl
  | @followed begun byte reached takes more ih =>
      change items ((begun.seen ++ [byte]) ++ rest) = _
      rw [List.append_assoc, ih]
      change (step (some begun) byte).1 ++ itemsFrom (step (some begun) byte).2 rest = _
      rw [step, if_pos takes, if_neg more]
      rfl

/-- Every byte of a start but the first is read as a replacement on its own. -/
theorem Reached.start_of_mem_tail {begun : Begun} (reached : Reached begun) {byte : UInt8}
    (mem : byte ∈ begun.seen.tail) : start byte = ([⟨[byte], replacement⟩], none) := by
  induction reached with
  | opened first =>
      rw [(lead_spec first).2.1] at mem
      cases mem
  | @followed begun last reached takes more ih =>
      change byte ∈ (begun.seen ++ [last]).tail at mem
      rw [List.tail_append_of_ne_nil reached.seen_ne_nil] at mem
      rcases List.mem_append.mp mem with before | here
      · exact ih before
      · rw [List.mem_singleton.mp here]
        exact reached.start_of_takes takes

/-- What a start begins with is a start. -/
theorem Reached.of_append {begun : Begun} (reached : Reached begun) {before after : List UInt8}
    (split : begun.seen = before ++ after) (some_ : before ≠ []) :
    ∃ begun', Reached begun' ∧ begun'.seen = before := by
  induction reached generalizing after with
  | @opened byte begun first =>
      rw [(lead_spec first).2.1] at split
      refine ⟨begun, .opened first, ?_⟩
      rw [(lead_spec first).2.1]
      cases before with
      | nil => exact absurd rfl some_
      | cons head before =>
          obtain ⟨rfl, rest⟩ := List.cons.inj split
          rw [(List.append_eq_nil_iff.mp rest.symm).1]
  | @followed begun byte reached takes more ih =>
      rcases List.eq_nil_or_concat after with rfl | ⟨after, last, rfl⟩
      · exact ⟨begun.next byte, .followed reached takes more, by rw [split, List.append_nil]⟩
      · change begun.seen ++ [byte] = before ++ (after.concat last) at split
        rw [List.concat_eq_append, ← List.append_assoc] at split
        exact ih (List.append_inj_left' split rfl)

/-! ### What is decoded -/

/-- The items that decoding can give. -/
inductive Decoded : Item → Prop
  | ascii {byte : UInt8} (small : byte.toNat < 0x80) : Decoded ⟨[byte], Char.ofNat byte.toNat⟩
  | stray {byte : UInt8} (alone : start byte = ([⟨[byte], replacement⟩], none))
      (large : 0x80 ≤ byte.toNat) : Decoded ⟨[byte], replacement⟩
  | broken {begun : Begun} (reached : Reached begun) : Decoded begun.broken
  | whole {begun : Begun} {byte : UInt8} (reached : Reached begun) (takes : begun.Takes byte)
      (last : begun.more = 0) : Decoded (begun.whole byte)

/-- The first byte of a character is decoded or kept, and nothing of it is lost. -/
theorem start_spec (byte : UInt8) :
    (∀ item ∈ (start byte).1, Decoded item) ∧ (∀ begun ∈ (start byte).2, Reached begun) ∧
      (start byte).1.flatMap Item.bytes ++ ((start byte).2.map Begun.seen).getD [] = [byte] := by
  by_cases small : byte.toNat < 0x80
  · have one : start byte = ([⟨[byte], Char.ofNat byte.toNat⟩], none) := if_pos small
    rw [one]
    refine ⟨fun item mem => ?_, fun begun mem => (nomatch mem), rfl⟩
    rw [List.mem_singleton.mp mem]
    exact .ascii small
  · cases first : lead byte with
    | some begun =>
        rw [start_of_lead first]
        refine ⟨fun item mem => (nomatch mem), fun begun' mem => ?_, (lead_spec first).2.1⟩
        cases mem
        exact .opened first
    | none =>
        have one : start byte = ([⟨[byte], replacement⟩], none) := by
          unfold start
          rw [if_neg small, first]
        rw [one]
        refine ⟨fun item mem => ?_, fun begun mem => (nomatch mem), rfl⟩
        rw [List.mem_singleton.mp mem]
        exact .stray one (Nat.not_lt.mp small)

/-- One more byte: what is decoded and what is kept make up the bytes so far. -/
theorem step_spec {state : Option Begun} (reached : ∀ begun ∈ state, Reached begun) (byte : UInt8) :
    (∀ item ∈ (step state byte).1, Decoded item) ∧ (∀ begun ∈ (step state byte).2, Reached begun) ∧
      (step state byte).1.flatMap Item.bytes ++ ((step state byte).2.map Begun.seen).getD [] =
        (state.map Begun.seen).getD [] ++ [byte] := by
  cases state with
  | none => exact start_spec byte
  | some begun =>
      have reached := reached begun rfl
      by_cases takes : begun.Takes byte
      · by_cases last : begun.more = 0
        · rw [step, if_pos takes, if_pos last]
          refine ⟨fun item mem => ?_, fun begun mem => (nomatch mem), ?_⟩
          · rw [List.mem_singleton.mp mem]
            exact .whole reached takes last
          · simp [Begun.whole]
        · rw [step, if_pos takes, if_neg last]
          refine ⟨fun item mem => (nomatch mem), fun begun' mem => ?_, ?_⟩
          · cases mem
            exact .followed reached takes last
          · simp [Begun.next]
      · rw [step, if_neg takes]
        obtain ⟨decoded, begins, bytes⟩ := start_spec byte
        refine ⟨List.forall_mem_cons.mpr ⟨.broken reached, decoded⟩, begins, ?_⟩
        rw [List.flatMap_cons, List.append_assoc, bytes]
        rfl

/-- A whole run: every item is decoded, and the items make up the bytes. -/
theorem itemsFrom_spec {state : Option Begun} (reached : ∀ begun ∈ state, Reached begun)
    (bytes : List UInt8) :
    (∀ item ∈ itemsFrom state bytes, Decoded item) ∧
      (itemsFrom state bytes).flatMap Item.bytes = (state.map Begun.seen).getD [] ++ bytes := by
  induction bytes generalizing state with
  | nil =>
      cases state with
      | none => exact ⟨fun item mem => (nomatch mem), rfl⟩
      | some begun =>
          refine ⟨fun item mem => ?_, by simp [itemsFrom, Begun.broken]⟩
          rw [List.mem_singleton.mp mem]
          exact .broken (reached begun rfl)
  | cons byte bytes ih =>
      obtain ⟨decoded, reached, same⟩ := step_spec reached byte
      obtain ⟨later, rest⟩ := ih reached
      refine ⟨List.forall_mem_append.mpr ⟨decoded, later⟩, ?_⟩
      rw [itemsFrom, List.flatMap_append, rest, ← List.append_assoc, same, List.append_assoc,
        List.singleton_append]

theorem decoded_items {bytes : List UInt8} : ∀ item ∈ items bytes, Decoded item :=
  (@itemsFrom_spec none (fun _ mem => nomatch mem) bytes).1

/-- No byte is lost. -/
theorem flatMap_items (bytes : List UInt8) : (items bytes).flatMap Item.bytes = bytes :=
  (@itemsFrom_spec none (fun _ mem => nomatch mem) bytes).2

/-- Bytes that stand alone are replaced one by one. -/
theorem items_of_alone {bytes : List UInt8}
    (alone : ∀ byte ∈ bytes, start byte = ([⟨[byte], replacement⟩], none)) (rest : List UInt8) :
    items (bytes ++ rest) = (bytes.map fun byte => ⟨[byte], replacement⟩) ++ items rest := by
  induction bytes with
  | nil => rfl
  | cons byte bytes ih =>
      obtain ⟨here, later⟩ := List.forall_mem_cons.mp alone
      change (start byte).1 ++ itemsFrom (start byte).2 (bytes ++ rest) = _
      rw [here]
      exact congrArg (_ :: ·) (ih later)

/-- An item is what its own bytes are decoded to. -/
theorem Decoded.items_bytes {item : Item} (decoded : Decoded item) : items item.bytes = [item] := by
  cases decoded with
  | @ascii byte small =>
      change (start byte).1 ++ itemsFrom (start byte).2 [] = _
      rw [start, if_pos small]
      rfl
  | stray alone large =>
      change (start _).1 ++ itemsFrom (start _).2 [] = _
      rw [alone]
      rfl
  | @broken begun reached =>
      have same := reached.itemsFrom_seen []
      rw [List.append_nil] at same
      exact same
  | @whole begun byte reached takes last =>
      refine (reached.itemsFrom_seen [byte]).trans ?_
      change (step (some begun) byte).1 ++ itemsFrom (step (some begun) byte).2 [] = _
      rw [step, if_pos takes, if_pos last]
      rfl

/-- No item is of no bytes. -/
theorem Decoded.bytes_ne_nil {item : Item} (decoded : Decoded item) : item.bytes ≠ [] := by
  intro none_
  have same := decoded.items_bytes
  rw [none_] at same
  cases same

/-- An item that is cut: a replacement for the bytes before, and one for each byte after. -/
theorem Decoded.items_of_cut {item : Item} (decoded : Decoded item) {before after : List UInt8}
    (split : item.bytes = before ++ after) (some_ : before ≠ []) (others : after ≠ []) :
    items before = [⟨before, replacement⟩] ∧
      items after = after.map fun byte => ⟨[byte], replacement⟩ := by
  have small : ∀ byte : UInt8, [byte] ≠ before ++ after := by
    intro byte same
    have lengths := congrArg List.length same
    have positive := List.length_pos_of_ne_nil some_
    have positive' := List.length_pos_of_ne_nil others
    rw [List.length_append, List.length_singleton] at lengths
    omega
  -- the bytes before are a start, those after are on their own
  have parts : (∃ begun, Reached begun ∧ begun.seen = before) ∧
      ∀ byte ∈ after, start byte = ([⟨[byte], replacement⟩], none) := by
    cases decoded with
    | ascii => exact absurd split (small _)
    | stray => exact absurd split (small _)
    | @broken begun reached =>
        refine ⟨reached.of_append split some_, fun byte mem => reached.start_of_mem_tail ?_⟩
        change begun.seen = before ++ after at split
        rw [split, List.tail_append_of_ne_nil some_]
        exact List.mem_append_right _ mem
    | @whole begun last reached takes =>
        change begun.seen ++ [last] = before ++ after at split
        rcases List.eq_nil_or_concat after with rfl | ⟨after, last', rfl⟩
        · exact absurd rfl others
        · rw [List.concat_eq_append, ← List.append_assoc] at split
          have seen := List.append_inj_left' split rfl
          have same := List.append_inj_right' split rfl
          cases same
          refine ⟨reached.of_append seen some_, fun byte mem => ?_⟩
          rw [List.concat_eq_append] at mem
          rcases List.mem_append.mp mem with inside | here
          · refine reached.start_of_mem_tail ?_
            rw [seen, List.tail_append_of_ne_nil some_]
            exact List.mem_append_right _ inside
          · rw [List.mem_singleton.mp here]
            exact reached.start_of_takes takes
  obtain ⟨⟨begun, reached, rfl⟩, alone⟩ := parts
  refine ⟨(Decoded.broken reached).items_bytes, ?_⟩
  have same := items_of_alone alone []
  rw [List.append_nil] at same
  exact same.trans (List.append_nil _)

/-! ### Pieces -/

/-- An item as it may come out of pieces: whole, or a replacement for the bytes before the first
cut and one for each byte after. -/
def Item.Cut (item : Item) (text : List Char) : Prop :=
  text = [item.char] ∨
    ∃ n, 2 ≤ n ∧ n ≤ item.bytes.length ∧ text = List.replicate n replacement

/-- The bytes of decoded items read as the characters they were decoded to. -/
theorem lossy_flatMap_bytes {list : List Item} (decoded : ∀ item ∈ list, Decoded item) :
    (list.map Item.bytes).flatMap lossy = list.map Item.char := by
  induction list with
  | nil => rfl
  | cons item list ih =>
      obtain ⟨here, later⟩ := List.forall_mem_cons.mp decoded
      rw [List.map_cons, List.flatMap_cons, ih later, lossy, here.items_bytes]
      rfl

/-- Decoded items are what pieces are read as. -/
theorem readsAs_iff_items {bytes : List UInt8} {text : List Char} :
    ReadsAs bytes text ↔
      ∃ list : List Item, (∀ item ∈ list, Decoded item) ∧ list.flatMap Item.bytes = bytes ∧
        list.map Item.char = text := by
  constructor
  · rintro ⟨pieces, rfl, rfl⟩
    refine ⟨pieces.flatMap items, fun item mem => ?_, ?_, ?_⟩
    · obtain ⟨piece, -, here⟩ := List.mem_flatMap.mp mem
      exact decoded_items item here
    · rw [List.flatMap_assoc]
      simp only [flatMap_items]
      exact List.flatMap_id
    · rw [List.map_flatMap]
      rfl
  · rintro ⟨list, decoded, rfl, rfl⟩
    exact ⟨list.map Item.bytes, List.flatMap_def.symm, lossy_flatMap_bytes decoded⟩

theorem ReadsAs.lossy (bytes : List UInt8) : ReadsAs bytes (lossy bytes) :=
  ⟨[bytes], List.flatten_singleton, List.flatMap_singleton _ _⟩

/-- The items before a cut are those of the whole text, unless the cut is inside a
character. -/
theorem items_append_from {state : Option Begun} (reached : ∀ begun ∈ state, Reached begun)
    (before after : List UInt8) :
    itemsFrom state (before ++ after) = itemsFrom state before ++ items after ∨
      ∃ kept begun, Reached begun ∧ itemsFrom state before = kept ++ [begun.broken] ∧
        itemsFrom state (before ++ after) = kept ++ itemsFrom (some begun) after := by
  induction before generalizing state with
  | nil =>
      cases state with
      | none => exact .inl rfl
      | some begun => exact .inr ⟨[], begun, reached begun rfl, rfl, rfl⟩
  | cons byte before ih =>
      rw [List.cons_append, itemsFrom, itemsFrom]
      rcases ih (step_spec reached byte).2.1 with whole | ⟨kept, begun, reached', last, cut⟩
      · left
        rw [whole, List.append_assoc]
      · right
        refine ⟨(step state byte).1 ++ kept, begun, reached', ?_, ?_⟩
        · rw [last, List.append_assoc]
        · rw [cut, List.append_assoc]

/-- A start and the bytes behind it, joined and apart. -/
theorem Reached.itemsFrom_split {begun : Begun} (reached : Reached begun) (bytes : List UInt8) :
    ∃ taken char rest, itemsFrom (some begun) bytes = ⟨begun.seen ++ taken, char⟩ :: rest ∧
      items bytes = (taken.map fun byte => ⟨[byte], replacement⟩) ++ rest ∧
      (taken = [] → char = replacement) := by
  induction bytes generalizing begun with
  | nil => exact ⟨[], replacement, [], by rw [List.append_nil]; rfl, rfl, fun _ => rfl⟩
  | cons byte bytes ih =>
      by_cases takes : begun.Takes byte
      · have alone : items (byte :: bytes) = ⟨[byte], replacement⟩ :: items bytes := by
          change (start byte).1 ++ itemsFrom (start byte).2 bytes = _
          rw [reached.start_of_takes takes]
          rfl
        by_cases last : begun.more = 0
        · refine ⟨[byte], Char.ofNat (begun.codeWith byte), items bytes, ?_, alone, nofun⟩
          rw [itemsFrom, step, if_pos takes, if_pos last, List.singleton_append]
          rfl
        · obtain ⟨taken, char, rest, joined, apart, -⟩ := ih (Reached.followed reached takes last)
          refine ⟨byte :: taken, char, rest, ?_, ?_, nofun⟩
          · rw [itemsFrom, step, if_pos takes, if_neg last]
            refine joined.trans ?_
            change Item.mk ((begun.seen ++ [byte]) ++ taken) char :: rest = _
            rw [List.append_assoc, List.singleton_append]
          · rw [alone, apart]
            rfl
      · refine ⟨[], replacement, items (byte :: bytes), ?_, rfl, fun _ => rfl⟩
        rw [itemsFrom, step, if_neg takes, List.append_nil]
        rfl

/-- Every item is cut as its own character. -/
theorem cut_of_items (list : List Item) :
    List.Forall₂ Item.Cut list (list.map fun item => [item.char]) := by
  rw [List.forall₂_map_right_iff, List.forall₂_same]
  exact fun item _ => .inl rfl

/-- Bytes on their own are read in one way. -/
theorem flatten_of_cut_alone {bytes : List UInt8} {texts : List (List Char)}
    (cut : List.Forall₂ Item.Cut (bytes.map fun byte => ⟨[byte], replacement⟩) texts) :
    texts.flatten = List.replicate bytes.length replacement := by
  induction bytes generalizing texts with
  | nil =>
      cases cut
      rfl
  | cons byte bytes ih =>
      cases cut with
      | cons here later =>
          rcases here with rfl | ⟨n, two, one, -⟩
          · rw [List.flatten_cons, ih later]
            rfl
          · exact absurd (Nat.le_trans two one) (by simp)

/-- A relation to a concatenation splits where the concatenation does. -/
theorem forall₂_append_left {A B : Type} {R : A → B → Prop} {first second : List A}
    {others : List B} (related : List.Forall₂ R (first ++ second) others) :
    ∃ first' second', List.Forall₂ R first first' ∧ List.Forall₂ R second second' ∧
      others = first' ++ second' := by
  induction first generalizing others with
  | nil => exact ⟨[], others, .nil, related, rfl⟩
  | cons head first ih =>
      cases related with
      | cons here later =>
          obtain ⟨first', second', one, two, rfl⟩ := ih later
          exact ⟨_ :: first', second', .cons here one, two, rfl⟩

/-- Pieces read no item otherwise than cut. -/
theorem exists_cut (pieces : List (List UInt8)) :
    ∃ texts, List.Forall₂ Item.Cut (items pieces.flatten) texts ∧
      texts.flatten = pieces.flatMap lossy := by
  induction pieces with
  | nil => exact ⟨[], .nil, rfl⟩
  | cons piece pieces ih =>
      obtain ⟨texts, cut, same⟩ := ih
      rw [List.flatten_cons, List.flatMap_cons, ← same]
      rcases @items_append_from none (fun _ mem => nomatch mem) piece pieces.flatten with
        whole | ⟨kept, begun, reached, last, straddles⟩
      · refine ⟨(items piece).map (fun item => [item.char]) ++ texts, ?_, ?_⟩
        · rw [items, whole]
          exact List.rel_append (cut_of_items _) cut
        · rw [List.flatten_append, ← List.flatMap_def, ← List.map_eq_flatMap]
          rfl
      · obtain ⟨taken, char, rest, joined, apart, none_⟩ := reached.itemsFrom_split pieces.flatten
        rw [apart] at cut
        obtain ⟨alone, others, cutAlone, cutRest, rfl⟩ := forall₂_append_left cut
        have lossyPiece : lossy piece = kept.map Item.char ++ [replacement] := by
          rw [lossy, items, last, List.map_append]
          rfl
        refine ⟨kept.map (fun item => [item.char]) ++
          List.replicate (taken.length + 1) replacement :: others, ?_, ?_⟩
        · rw [items, straddles, joined]
          refine List.rel_append (cut_of_items _) (.cons ?_ cutRest)
          cases taken with
          | nil => exact .inl (by rw [none_ rfl]; rfl)
          | cons byte taken =>
              have positive := List.length_pos_of_ne_nil reached.seen_ne_nil
              refine .inr ⟨_, by simp, ?_, rfl⟩
              rw [List.length_append, List.length_cons]
              omega
        · rw [lossyPiece, List.flatten_append, ← List.flatMap_def, ← List.map_eq_flatMap,
            List.flatten_cons, List.flatten_append, flatten_of_cut_alone cutAlone,
            List.replicate_succ]
          simp

/-- Pieces for a reading of one item. -/
theorem Decoded.exists_pieces {item : Item} (decoded : Decoded item) {text : List Char}
    (cut : item.Cut text) : ReadsAs item.bytes text := by
  rcases cut with rfl | ⟨n, two, few, rfl⟩
  · refine ⟨[item.bytes], List.flatten_singleton, ?_⟩
    rw [List.flatMap_singleton, LossyUtf8.lossy, decoded.items_bytes]
    rfl
  · -- the first piece keeps all but `n - 1` bytes
    have split := (List.take_append_drop (item.bytes.length - (n - 1)) item.bytes).symm
    have before : item.bytes.take (item.bytes.length - (n - 1)) ≠ [] := by
      refine List.ne_nil_of_length_pos ?_
      rw [List.length_take]
      omega
    have after : item.bytes.drop (item.bytes.length - (n - 1)) ≠ [] := by
      refine List.ne_nil_of_length_pos ?_
      rw [List.length_drop]
      omega
    obtain ⟨first, later⟩ := decoded.items_of_cut split before after
    refine ⟨[item.bytes.take (item.bytes.length - (n - 1))] ++
      (item.bytes.drop (item.bytes.length - (n - 1))).map fun byte => [byte], ?_, ?_⟩
    · rw [List.flatten_append, List.flatten_singleton, ← List.flatMap_def, ← List.map_eq_flatMap,
        List.map_id', ← split]
    · have alone := lossy_flatMap_bytes (@decoded_items (item.bytes.drop (item.bytes.length - (n - 1))))
      rw [later, List.map_map, List.map_map] at alone
      have others : ((item.bytes.drop (item.bytes.length - (n - 1))).map fun byte => [byte]).flatMap
          lossy = List.replicate _ replacement := alone.trans List.map_const'
      have count : (item.bytes.drop (item.bytes.length - (n - 1))).length + 1 = n := by
        rw [List.length_drop]
        omega
      have one : lossy (item.bytes.take (item.bytes.length - (n - 1))) = [replacement] := by
        rw [LossyUtf8.lossy, first]
        rfl
      rw [List.singleton_append, List.flatMap_cons, one, others, List.singleton_append,
        ← List.replicate_succ, count]

/-- Bytes in pieces are read as their items, each of them whole or cut. -/
theorem readsAs_iff {bytes : List UInt8} {text : List Char} :
    ReadsAs bytes text ↔
      ∃ texts, List.Forall₂ Item.Cut (items bytes) texts ∧ texts.flatten = text := by
  constructor
  · rintro ⟨pieces, rfl, rfl⟩
    exact exists_cut pieces
  · rintro ⟨texts, cut, rfl⟩
    have all : ∀ list : List Item, (∀ item ∈ list, Decoded item) → ∀ texts,
        List.Forall₂ Item.Cut list texts → ReadsAs (list.flatMap Item.bytes) texts.flatten := by
      intro list decoded texts cut
      induction cut with
      | nil => exact ⟨[], rfl, rfl⟩
      | cons here later ih =>
          obtain ⟨one, others⟩ := List.forall_mem_cons.mp decoded
          obtain ⟨pieces, bytes, text⟩ := one.exists_pieces here
          obtain ⟨pieces', bytes', text'⟩ := ih others
          refine ⟨pieces ++ pieces', ?_, ?_⟩
          · rw [List.flatten_append, bytes, bytes', List.flatMap_cons]
          · rw [List.flatMap_append, text, text', List.flatten_cons]
    have read := all _ decoded_items texts cut
    rwa [flatMap_items] at read

/-! ### ASCII -/

/-- An ASCII character is its byte. -/
theorem Decoded.ascii_of_char {item : Item} (decoded : Decoded item)
    (small : item.char.toNat < 0x80) :
    ∃ byte : UInt8, byte.toNat < 0x80 ∧ item = ⟨[byte], Char.ofNat byte.toNat⟩ := by
  cases decoded with
  | @ascii byte below => exact ⟨byte, below, rfl⟩
  | stray => exact absurd small (by simp [replacement])
  | broken => exact absurd small (by simp [Begun.broken, replacement])
  | @whole begun byte reached takes last =>
      obtain ⟨-, -, completes⟩ := reached.bounds
      have complete : Completes begun.more (begun.codeWith byte) :=
        completes byte.toNat takes.1 takes.2
      rw [last] at complete
      obtain ⟨large, valid⟩ := complete
      dsimp only [Begun.whole] at small
      rw [Char.toNat_ofNat, if_pos valid] at small
      exact absurd large (Nat.not_le.mpr small)

/-- A byte of ASCII is a character of its own. -/
theorem Decoded.ascii_of_mem {item : Item} (decoded : Decoded item) {byte : UInt8}
    (small : byte.toNat < 0x80) (mem : byte ∈ item.bytes) :
    item = ⟨[byte], Char.ofNat byte.toNat⟩ := by
  have large : ∀ begun : Begun, Reached begun → ∀ byte ∈ begun.seen, 0x80 ≤ byte.toNat := by
    intro begun reached
    induction reached with
    | opened first =>
        obtain ⟨high, seen, -⟩ := lead_spec first
        rw [seen]
        exact List.forall_mem_singleton.mpr (by omega)
    | followed reached takes more ih =>
        exact List.forall_mem_append.mpr ⟨ih, List.forall_mem_singleton.mpr
          (Nat.le_trans reached.bounds.1 takes.1)⟩
  cases decoded with
  | ascii => rw [List.mem_singleton.mp mem]
  | stray alone high =>
      rw [List.mem_singleton.mp mem] at small
      omega
  | broken reached => exact absurd small (Nat.not_lt.mpr (large _ reached byte mem))
  | whole reached takes last =>
      rcases List.mem_append.mp mem with before | here
      · exact absurd small (Nat.not_lt.mpr (large _ reached byte before))
      · rw [List.mem_singleton.mp here] at small
        exact absurd small (Nat.not_lt.mpr (Nat.le_trans reached.bounds.1 takes.1))

/-- The character of an ASCII byte. -/
def asciiChar (byte : UInt8) : Char := Char.ofNat byte.toNat

theorem asciiChar_toNat {byte : UInt8} (small : byte.toNat < 0x80) :
    (asciiChar byte).toNat = byte.toNat := by
  unfold asciiChar
  rw [Char.toNat_ofNat, if_pos]
  exact .inl (small.trans (by decide))

/-- Two ASCII bytes of one character are the same. -/
theorem asciiChar_inj {byte other : UInt8} (small : byte.toNat < 0x80) (small' : other.toNat < 0x80)
    (same : asciiChar byte = asciiChar other) : byte = other := by
  have numbers := congrArg Char.toNat same
  rw [asciiChar_toNat small, asciiChar_toNat small'] at numbers
  exact UInt8.toNat_inj.mp numbers

/-- Texts read side by side read as the concatenation. -/
theorem ReadsAs.append {bytes bytes' : List UInt8} {text text' : List Char}
    (reads : ReadsAs bytes text) (reads' : ReadsAs bytes' text') :
    ReadsAs (bytes ++ bytes') (text ++ text') := by
  obtain ⟨pieces, rfl, rfl⟩ := reads
  obtain ⟨pieces', rfl, rfl⟩ := reads'
  exact ⟨pieces ++ pieces', List.flatten_append, List.flatMap_append⟩

/-- ASCII bytes read as their characters. -/
theorem ReadsAs.ascii {bytes : List UInt8} (small : ∀ byte ∈ bytes, byte.toNat < 0x80) :
    ReadsAs bytes (bytes.map asciiChar) := by
  refine readsAs_iff_items.mpr ⟨bytes.map fun byte => ⟨[byte], asciiChar byte⟩, ?_, ?_, ?_⟩
  · intro item mem
    obtain ⟨byte, here, rfl⟩ := List.mem_map.mp mem
    exact .ascii (small byte here)
  · rw [List.flatMap_map]
    exact (List.map_eq_flatMap).symm.trans (List.map_id _)
  · rw [List.map_map]
    rfl

/-- Only no bytes read as the empty text. -/
theorem ReadsAs.eq_nil_iff {bytes : List UInt8} {text : List Char} (reads : ReadsAs bytes text) :
    bytes = [] ↔ text = [] := by
  obtain ⟨list, decoded, rfl, rfl⟩ := readsAs_iff_items.mp reads
  cases list with
  | nil => simp
  | cons item list =>
      have some_ := (decoded item List.mem_cons_self).bytes_ne_nil
      simp [some_]

/-- An ASCII byte and its character are at the same place. -/
theorem ReadsAs.mem_iff {bytes : List UInt8} {text : List Char} (reads : ReadsAs bytes text)
    {byte : UInt8} (small : byte.toNat < 0x80) : byte ∈ bytes ↔ asciiChar byte ∈ text := by
  obtain ⟨list, decoded, rfl, rfl⟩ := readsAs_iff_items.mp reads
  rw [List.mem_flatMap, List.mem_map]
  refine exists_congr fun item => and_congr_right fun mem => ?_
  constructor
  · intro inside
    rw [(decoded item mem).ascii_of_mem small inside]
    rfl
  · intro same
    obtain ⟨other, small', rfl⟩ := (decoded item mem).ascii_of_char
      (by rw [same, asciiChar_toNat small]; exact small)
    rw [asciiChar_inj small' small same]
    exact List.mem_singleton_self _

/-- An ASCII byte at the head reads as its character, whatever follows. -/
theorem ReadsAs.cons {byte : UInt8} (small : byte.toNat < 0x80) {bytes : List UInt8}
    {text : List Char} (reads : ReadsAs (byte :: bytes) text) :
    ∃ text', text = asciiChar byte :: text' ∧ ReadsAs bytes text' := by
  obtain ⟨list, decoded, same, rfl⟩ := readsAs_iff_items.mp reads
  cases list with
  | nil => cases same
  | cons item list =>
      obtain ⟨here, later⟩ := List.forall_mem_cons.mp decoded
      have inside : byte ∈ item.bytes := by
        cases bytes' : item.bytes with
        | nil => exact absurd bytes' here.bytes_ne_nil
        | cons head rest =>
            rw [List.flatMap_cons, bytes'] at same
            rw [(List.cons.inj same).1]
            exact List.mem_cons_self
      rw [here.ascii_of_mem small inside] at same ⊢
      exact ⟨_, rfl, readsAs_iff_items.mpr ⟨list, later, (List.cons.inj same).2, rfl⟩⟩

/-- An ASCII character at the head was read from its byte. -/
theorem ReadsAs.of_cons {byte : UInt8} (small : byte.toNat < 0x80) {bytes : List UInt8}
    {text : List Char} (reads : ReadsAs bytes (asciiChar byte :: text)) :
    ∃ bytes', bytes = byte :: bytes' ∧ ReadsAs bytes' text := by
  obtain ⟨list, decoded, rfl, same⟩ := readsAs_iff_items.mp reads
  cases list with
  | nil => cases same
  | cons item list =>
      obtain ⟨here, later⟩ := List.forall_mem_cons.mp decoded
      obtain ⟨head, rest⟩ := List.cons.inj same
      obtain ⟨other, small', rfl⟩ := here.ascii_of_char
        (by rw [head, asciiChar_toNat small]; exact small)
      rw [asciiChar_inj small' small head]
      exact ⟨_, rfl, readsAs_iff_items.mpr ⟨list, later, rfl, rest⟩⟩

/-- What follows an ASCII text in the bytes is what follows it in the reading. -/
theorem ReadsAs.append_ascii {start : List UInt8} (small : ∀ byte ∈ start, byte.toNat < 0x80)
    {bytes : List UInt8} {text : List Char} (reads : ReadsAs (start ++ bytes) text) :
    ∃ text', text = start.map asciiChar ++ text' ∧ ReadsAs bytes text' := by
  induction start generalizing text with
  | nil => exact ⟨text, rfl, reads⟩
  | cons byte start ih =>
      obtain ⟨here, later⟩ := List.forall_mem_cons.mp small
      obtain ⟨others, rfl, readsOthers⟩ := reads.cons here
      obtain ⟨text', rfl, readsRest⟩ := ih later readsOthers
      exact ⟨text', rfl, readsRest⟩

/-- ASCII text at the start was read from its own bytes. -/
theorem ReadsAs.of_append_ascii {start : List UInt8} (small : ∀ byte ∈ start, byte.toNat < 0x80)
    {bytes : List UInt8} {text : List Char} (reads : ReadsAs bytes (start.map asciiChar ++ text)) :
    ∃ bytes', bytes = start ++ bytes' ∧ ReadsAs bytes' text := by
  induction start generalizing bytes with
  | nil => exact ⟨bytes, rfl, reads⟩
  | cons byte start ih =>
      obtain ⟨here, later⟩ := List.forall_mem_cons.mp small
      obtain ⟨others, rfl, readsOthers⟩ := reads.of_cons here
      obtain ⟨bytes', rfl, readsRest⟩ := ih later readsOthers
      exact ⟨bytes', rfl, readsRest⟩

/-- An ASCII character at the end was read from its byte. -/
theorem ReadsAs.of_concat {byte : UInt8} (small : byte.toNat < 0x80) {bytes : List UInt8}
    {text : List Char} (reads : ReadsAs bytes (text ++ [asciiChar byte])) :
    ∃ bytes', bytes = bytes' ++ [byte] ∧ ReadsAs bytes' text := by
  obtain ⟨list, decoded, rfl, same⟩ := readsAs_iff_items.mp reads
  obtain ⟨list, last, rfl, rfl, one⟩ := List.map_eq_append_iff.mp same
  obtain ⟨before, here⟩ := List.forall_mem_append.mp decoded
  obtain ⟨item, rfl, char⟩ := List.map_eq_singleton_iff.mp one
  obtain ⟨other, small', rfl⟩ := (here item (List.mem_singleton_self _)).ascii_of_char
    (by rw [char, asciiChar_toNat small]; exact small)
  rw [asciiChar_inj small' small char, List.flatMap_append]
  exact ⟨_, rfl, readsAs_iff_items.mpr ⟨list, before, rfl, rfl⟩⟩

/-- An ASCII character at the end is dropped from both. -/
theorem ReadsAs.rdropWhile {last : UInt8} (small : last.toNat < 0x80) {bytes : List UInt8}
    {text : List Char} (reads : ReadsAs bytes text) :
    ReadsAs (bytes.rdropWhile (· == last)) (text.rdropWhile (· == asciiChar last)) := by
  obtain ⟨list, decoded, rfl, rfl⟩ := readsAs_iff_items.mp reads
  clear reads
  induction list using List.reverseRecOn with
  | nil => exact ⟨[], rfl, rfl⟩
  | append_singleton list item ih =>
      obtain ⟨before, here⟩ := List.forall_mem_append.mp decoded
      have here := here item (List.mem_singleton_self _)
      rw [List.map_append, List.flatMap_append, List.map_singleton, List.flatMap_singleton]
      by_cases same : item.char = asciiChar last
      · obtain ⟨other, small', rfl⟩ := here.ascii_of_char
          (by rw [same, asciiChar_toNat small]; exact small)
        cases asciiChar_inj small' small same
        change ReadsAs (List.rdropWhile _ (_ ++ [last])) (List.rdropWhile _ (_ ++ [asciiChar last]))
        rw [List.rdropWhile_concat_pos (· == last) _ _ (beq_self_eq_true last),
          List.rdropWhile_concat_pos (· == asciiChar last) _ _ (beq_iff_eq.mpr rfl)]
        exact ih before
      · rw [List.rdropWhile_concat_neg _ _ _ (by simpa using same)]
        obtain ⟨init, final, split⟩ := (List.eq_nil_or_concat item.bytes).resolve_left
          here.bytes_ne_nil
        have other : final ≠ last := by
          rintro rfl
          rw [here.ascii_of_mem small (by rw [split]; simp)] at same
          exact same rfl
        rw [split, List.concat_eq_append, ← List.append_assoc,
          List.rdropWhile_concat_neg _ _ _ (by simpa using other), List.append_assoc,
          ← List.concat_eq_append, ← split]
        refine readsAs_iff_items.mpr ⟨list ++ [item], decoded, ?_, ?_⟩
        · rw [List.flatMap_append, List.flatMap_singleton]
        · rw [List.map_append, List.map_singleton]

end GmMiner.Lib.LossyUtf8
