import GmMiner.Lib.ByteSlices
import GmMiner.Cli.Passthrough

/-!
`redact_ids` of `cli/src/commands/doctor.rs`: every GUID is taken out of a message before the
doctor prints it.

The search goes over byte offsets and looks through a window of 36 bytes, so that every slice may
panic (`none`). What it finds depends on the *blur* of the message alone, its text with a `0` for
every hexadecimal digit (`guidAt_congr`): that is why no digit of a GUID has a say in the output.
-/

namespace GmMiner.Cli

open GmMiner.Lib.ByteSlices

/-! ### The search -/

def guidLen : Nat := 36

def guidGroups : List Nat := [8, 4, 4, 4, 12]

/-- `chunk.bytes().all(|b| b.is_ascii_hexdigit())`. -/
def allHexBytes (chunk : List Char) : Bool :=
  (chunk.flatMap String.utf8EncodeChar).all fun byte => isHex (Char.ofNat byte.toNat)

/-- `rest.as_bytes().first()`. -/
def firstByte (rest : List Char) : Option UInt8 :=
  (rest.flatMap String.utf8EncodeChar).head?

/-- `&rest[offset..]`. -/
def sliceFrom (rest : List Char) (offset : Nat) : Option (List Char) :=
  (splitBytes rest offset).map Prod.snd

/-- `&rest[..offset]`. -/
def sliceTo (rest : List Char) (offset : Nat) : Option (List Char) :=
  (splitBytes rest offset).map Prod.fst

/-- The loop of `is_guid`. -/
def isGuidFrom : List Nat → List Char → Option Bool
  | [], rest => some rest.isEmpty
  | group :: later, rest =>
      match window rest 0 group with
      | none => some false
      | some chunk =>
          if allHexBytes chunk then do
            let rest ← sliceFrom rest group
            if later = [] then isGuidFrom later rest
            else if firstByte rest ≠ some 0x2d then some false
            else do
              let rest ← sliceFrom rest 1
              isGuidFrom later rest
          else some false

def isGuid (candidate : List Char) : Option Bool := isGuidFrom guidGroups candidate

/-- The first of the offsets at which the window shows a GUID. -/
def findGuid (text : List Char) : List Nat → Option (Option Nat)
  | [] => some none
  | start :: later =>
      match window text start guidLen with
      | none => findGuid text later
      | some candidate => do
          if ← isGuid candidate then return some start
          else findGuid text later

def nextGuid (text : List Char) : Option (Option Nat) := findGuid text (starts text)

def redactedMark : List Char := "<redacted>".toList

/-- The loop of `redact_ids`, of so many rounds at most. -/
def redactFrom : Nat → List Char → List Char → Option (List Char)
  | 0, _, _ => none
  | rounds + 1, out, rest => do
      match ← nextGuid rest with
      | none => return out ++ rest
      | some found => do
          let before ← sliceTo rest found
          let later ← sliceFrom rest (found + guidLen)
          redactFrom rounds (out ++ before ++ redactedMark) later

/-- Every round but the last takes a GUID out of the message. -/
def redactIds (message : List Char) : Option (List Char) :=
  redactFrom (message.length + 1) [] message

/-! ### GUIDs -/

def HexRun (length : Nat) (digits : List Char) : Prop :=
  digits.length = length ∧ ∀ c ∈ digits, isHex c = true

/-- `8-4-4-4-12` hexadecimal digits. -/
inductive GuidShaped : List Char → Prop
  | mk {low mid high clock node : List Char} (hLow : HexRun 8 low) (hMid : HexRun 4 mid)
      (hHigh : HexRun 4 high) (hClock : HexRun 4 clock) (hNode : HexRun 12 node) :
      GuidShaped (low ++ '-' :: (mid ++ '-' :: (high ++ '-' :: (clock ++ '-' :: node))))

/-- A GUID stands in the text behind so many characters. -/
def GuidAt (text : List Char) (n : Nat) : Prop := ∃ guid, guid <+: text.drop n ∧ GuidShaped guid

/-- A text as it is cut at its GUIDs, from the left and none of them over another: what stands
before each, and what stands behind the last. -/
inductive LeftmostGuids : List Char → List (List Char × List Char) → List Char → Prop
  | done {text : List Char} (clean : ∀ n, ¬ GuidAt text n) : LeftmostGuids text [] text
  | found {before guid after last : List Char} {cuts : List (List Char × List Char)}
      (shape : GuidShaped guid)
      (first : ∀ n < before.length, ¬ GuidAt (before ++ (guid ++ after)) n)
      (later : LeftmostGuids after cuts last) :
      LeftmostGuids (before ++ (guid ++ after)) ((before, guid) :: cuts) last

def glue (cuts : List (List Char × List Char)) (last : List Char) : List Char :=
  cuts.foldr (fun cut text => cut.1 ++ (cut.2 ++ text)) last

def marked (cuts : List (List Char × List Char)) : List (List Char × List Char) :=
  cuts.map fun cut => (cut.1, redactedMark)

/-! ### The blur of a text -/

def blur (c : Char) : Char := if isHex c then '0' else c

def shapeOf : List Nat → List Char
  | [] => []
  | group :: later =>
      List.replicate group '0' ++ if later = [] then shapeOf later else '-' :: shapeOf later

def guidShape : List Char := shapeOf guidGroups

/-- Hexadecimal digits blur to zeros. -/
theorem blur_eq_zero {c : Char} : blur c = '0' ↔ isHex c = true := by
  unfold blur
  split
  · rename_i hex
    exact iff_of_true rfl hex
  · rename_i other
    refine iff_of_false ?_ other
    rintro rfl
    exact other (by decide)

theorem blur_eq_dash {c : Char} : blur c = '-' ↔ c = '-' := by
  unfold blur
  split
  · rename_i hex
    refine iff_of_false (by decide) ?_
    rintro rfl
    exact absurd hex (by decide)
  · exact Iff.rfl

theorem map_blur_eq_replicate {digits : List Char} {n : Nat} :
    digits.map blur = List.replicate n '0' ↔ HexRun n digits := by
  rw [List.eq_replicate_iff, List.length_map, List.forall_mem_map]
  simp only [blur_eq_zero, HexRun]

theorem map_blur_eq_append {text tail : List Char} {n : Nat} :
    text.map blur = List.replicate n '0' ++ tail ↔
      ∃ digits after, text = digits ++ after ∧ HexRun n digits ∧ after.map blur = tail := by
  simp only [List.map_eq_append_iff, map_blur_eq_replicate]

/-- A text that blurs to a dash and a tail begins with a dash. -/
theorem map_blur_eq_dash_cons {text tail : List Char} :
    text.map blur = '-' :: tail ↔ ∃ after, text = '-' :: after ∧ after.map blur = tail := by
  rw [List.map_eq_cons_iff]
  simp only [blur_eq_dash]
  constructor
  · rintro ⟨c, after, rfl, rfl, same⟩
    exact ⟨after, rfl, same⟩
  · rintro ⟨after, rfl, same⟩
    exact ⟨'-', after, rfl, rfl, same⟩

theorem guidShape_eq : guidShape =
    List.replicate 8 '0' ++ '-' :: (List.replicate 4 '0' ++ '-' :: (List.replicate 4 '0' ++
      '-' :: (List.replicate 4 '0' ++ '-' :: List.replicate 12 '0'))) := by
  decide

/-- A text is a GUID if and only if its blur is the one of all GUIDs. -/
theorem guidShaped_iff {text : List Char} : GuidShaped text ↔ text.map blur = guidShape := by
  rw [guidShape_eq]
  constructor
  · rintro ⟨hLow, hMid, hHigh, hClock, hNode⟩
    simp only [List.map_append, List.map_cons, map_blur_eq_replicate.mpr hLow,
      map_blur_eq_replicate.mpr hMid, map_blur_eq_replicate.mpr hHigh,
      map_blur_eq_replicate.mpr hClock, map_blur_eq_replicate.mpr hNode, blur_eq_dash.mpr]
  · intro same
    obtain ⟨low, _, rfl, hLow, same₁⟩ := map_blur_eq_append.mp same
    obtain ⟨_, rfl, same₂⟩ := map_blur_eq_dash_cons.mp same₁
    obtain ⟨mid, _, rfl, hMid, same₃⟩ := map_blur_eq_append.mp same₂
    obtain ⟨_, rfl, same₄⟩ := map_blur_eq_dash_cons.mp same₃
    obtain ⟨high, _, rfl, hHigh, same₅⟩ := map_blur_eq_append.mp same₄
    obtain ⟨_, rfl, same₆⟩ := map_blur_eq_dash_cons.mp same₅
    obtain ⟨clock, _, rfl, hClock, same₇⟩ := map_blur_eq_append.mp same₆
    obtain ⟨node, rfl, same₈⟩ := map_blur_eq_dash_cons.mp same₇
    exact .mk hLow hMid hHigh hClock (map_blur_eq_replicate.mp same₈)

theorem GuidShaped.length {guid : List Char} (shape : GuidShaped guid) : guid.length = guidLen := by
  rw [← List.length_map (f := blur), guidShaped_iff.mp shape]
  rfl

theorem guidAt_iff {text : List Char} {n : Nat} :
    GuidAt text n ↔ guidShape <+: (text.map blur).drop n := by
  unfold GuidAt
  rw [← List.map_drop, List.prefix_map_iff]
  simp only [guidShaped_iff, eq_comm]

theorem guidAt_congr {text other : List Char} (same : text.map blur = other.map blur) {n : Nat} :
    GuidAt text n ↔ GuidAt other n := by
  rw [guidAt_iff, guidAt_iff, same]

/-! ### The bytes of a GUID -/

theorem char_of_byte {c : Char} {byte : UInt8} (mem : byte ∈ String.utf8EncodeChar c)
    (ascii : byte.toNat < 128) : Char.ofNat byte.toNat = c := by
  have inText : byte ∈ asBytes (String.singleton c) := by
    rw [asBytes_eq_flatMap, String.toList_singleton, List.flatMap_singleton]
    exact mem
  obtain ⟨d, here, same⟩ := mem_of_mem_asBytes ascii inText
  rw [String.toList_singleton, List.mem_singleton] at here
  rw [← same, here, Char.ofNat_toNat]

theorem isHex_ascii {c : Char} (hex : isHex c = true) : c.toNat < 128 := by
  simp only [isHex, Char.isDigit, Bool.or_eq_true, Bool.and_eq_true, decide_eq_true_eq] at hex
  rcases hex with (⟨-, high⟩ | ⟨-, high⟩) | ⟨-, high⟩
  all_goals exact lt_of_le_of_lt (UInt32.le_iff_toNat_le.mp high) (by decide)

theorem utf8Size_of_isHex {c : Char} (hex : isHex c = true) : c.utf8Size = 1 :=
  Char.utf8Size_eq_one_iff.mpr
    (UInt32.le_iff_toNat_le.mpr (Nat.le_of_lt_succ (isHex_ascii hex)))

/-- The bytes are all hexadecimal exactly if the characters are. -/
theorem allHexBytes_iff {chunk : List Char} :
    allHexBytes chunk = true ↔ ∀ c ∈ chunk, isHex c = true := by
  simp only [allHexBytes, List.all_eq_true, List.mem_flatMap, forall_exists_index, and_imp]
  constructor
  · intro all c mem
    obtain ⟨byte, inCode⟩ : ∃ byte, byte ∈ String.utf8EncodeChar c :=
      List.exists_mem_of_length_pos (by rw [String.length_utf8EncodeChar]; exact c.utf8Size_pos)
    have hex := all byte c mem inCode
    have small : byte.toNat < 128 := by
      have code := isHex_ascii hex
      have byteSize := byte.toNat_lt
      rwa [Char.ofNat, dif_pos (.inl (by omega))] at code
    rwa [char_of_byte inCode small] at hex
  · intro all byte c mem inCode
    rw [String.utf8EncodeChar_eq_singleton (utf8Size_of_isHex (all c mem)),
      List.mem_singleton] at inCode
    have small : byte.toNat = c.toNat := by
      have ascii := isHex_ascii (all c mem)
      rw [inCode]
      exact Nat.mod_eq_of_lt (by change c.toNat < 256; omega)
    rw [small, Char.ofNat_toNat]
    exact all c mem

/-- The first byte is a dash exactly if the first character is. -/
theorem firstByte_eq_dash {rest : List Char} :
    firstByte rest = some 0x2d ↔ ∃ after, rest = '-' :: after := by
  constructor
  · intro first
    cases rest with
    | nil => cases first
    | cons c after =>
        have inCode : (0x2d : UInt8) ∈ String.utf8EncodeChar c := by
          rw [firstByte, List.flatMap_cons, List.head?_append_of_ne_nil] at first
          · exact List.mem_of_mem_head? first
          · rw [← List.length_pos_iff, String.length_utf8EncodeChar]
            exact c.utf8Size_pos
        exact ⟨after, by rw [← char_of_byte inCode (by decide)]; rfl⟩
  · rintro ⟨after, rfl⟩
    rfl

theorem HexRun.byteLength {n : Nat} {digits : List Char} (hex : HexRun n digits) :
    byteLength digits = n := by
  have ones : digits.map Char.utf8Size = List.replicate digits.length 1 := by
    rw [List.eq_replicate_iff, List.length_map, List.forall_mem_map]
    exact ⟨rfl, fun c mem => utf8Size_of_isHex (hex.2 c mem)⟩
  rw [Lib.ByteSlices.byteLength, ones, List.sum_replicate_nat, Nat.mul_one, hex.1]

theorem hexRun_of_bytes {n : Nat} {chunk : List Char} (bytes : byteLength chunk = n)
    (hex : allHexBytes chunk = true) : HexRun n chunk := by
  have run : HexRun chunk.length chunk := ⟨rfl, allHexBytes_iff.mp hex⟩
  exact ⟨run.byteLength.symm.trans bytes, run.2⟩

/-! ### What the search finds -/

section IsGuid

variable {group : Nat} {later : List Nat} {digits after : List Char}

theorem isGuidFrom_last (hex : HexRun group digits) :
    isGuidFrom [group] (digits ++ after) = some after.isEmpty := by
  have all := allHexBytes_iff.mpr hex.2
  rw [isGuidFrom, window_zero, sliceFrom, ← hex.byteLength, splitBytes_append]
  simp [all, isGuidFrom]

/-- A group before others is followed by a dash. -/
theorem isGuidFrom_dash (hex : HexRun group digits) (more : later ≠ []) :
    isGuidFrom (group :: later) (digits ++ '-' :: after) = isGuidFrom later after := by
  have all := allHexBytes_iff.mpr hex.2
  have dash : firstByte ('-' :: after) = some 0x2d := firstByte_eq_dash.mpr ⟨after, rfl⟩
  have slice : sliceFrom ('-' :: after) 1 = some after := by
    rw [sliceFrom, show splitBytes ('-' :: after) 1 = some (['-'], after) from
      splitBytes_append ['-'] after]
    rfl
  rw [isGuidFrom, window_zero, sliceFrom, ← hex.byteLength, splitBytes_append]
  simp [all, more, dash, slice]

/-- Without the dash it is no GUID. -/
theorem isGuidFrom_noDash (hex : HexRun group digits) (more : later ≠ [])
    (other : ∀ rest, after ≠ '-' :: rest) :
    isGuidFrom (group :: later) (digits ++ after) = some false := by
  have all := allHexBytes_iff.mpr hex.2
  have noDash : firstByte after ≠ some 0x2d := by
    intro dash
    obtain ⟨rest, shape⟩ := firstByte_eq_dash.mp dash
    exact other rest shape
  rw [isGuidFrom, window_zero, sliceFrom, ← hex.byteLength, splitBytes_append]
  simp [all, more, noDash]

/-- Without the run it is no GUID. -/
theorem isGuidFrom_noHex {rest : List Char}
    (other : ∀ digits after, HexRun group digits → rest ≠ digits ++ after) :
    isGuidFrom (group :: later) rest = some false := by
  rw [isGuidFrom, window_zero]
  cases cut : splitBytes rest group with
  | none => rfl
  | some parts =>
      obtain ⟨chunk, after⟩ := parts
      obtain ⟨shape, bytes⟩ := splitBytes_eq_some.mp cut
      have notAll : allHexBytes chunk = false :=
        Bool.eq_false_iff.mpr fun all => other chunk after (hexRun_of_bytes bytes all) shape
      simp [notAll]

end IsGuid

/-- `is_guid` never panics, and looks at nothing but the blur. -/
theorem isGuidFrom_eq (groups : List Nat) (rest : List Char) :
    isGuidFrom groups rest = some (decide (rest.map blur = shapeOf groups)) := by
  induction groups generalizing rest with
  | nil => cases rest <;> rfl
  | cons group later ih =>
      rw [shapeOf]
      by_cases run : ∃ digits after, HexRun group digits ∧ rest = digits ++ after
      · obtain ⟨digits, after, hex, rfl⟩ := run
        rw [List.map_append, map_blur_eq_replicate.mpr hex]
        simp only [List.append_cancel_left_eq]
        by_cases more : later = []
        · subst more
          rw [isGuidFrom_last hex, if_pos rfl]
          cases after <;> rfl
        · rw [if_neg more]
          by_cases dash : ∃ rest, after = '-' :: rest
          · obtain ⟨rest, rfl⟩ := dash
            rw [isGuidFrom_dash hex more, ih, List.map_cons, blur_eq_dash.mpr rfl]
            simp only [List.cons.injEq, true_and]
          · have other : after.map blur ≠ '-' :: shapeOf later := by
              intro same
              obtain ⟨rest, shape, -⟩ := map_blur_eq_dash_cons.mp same
              exact dash ⟨rest, shape⟩
            rw [isGuidFrom_noDash hex more (not_exists.mp dash), decide_eq_false other]
      · have other : rest.map blur ≠ List.replicate group '0' ++
            if later = [] then shapeOf later else '-' :: shapeOf later := by
          intro same
          obtain ⟨digits, after, shape, hex, -⟩ := map_blur_eq_append.mp same
          exact run ⟨digits, after, hex, shape⟩
        rw [decide_eq_false other]
        exact isGuidFrom_noHex fun digits after hex shape => run ⟨digits, after, hex, shape⟩

theorem isGuid_eq (candidate : List Char) :
    isGuid candidate = some (decide (candidate.map blur = guidShape)) :=
  isGuidFrom_eq guidGroups candidate

/-- A search behind a character moves by its size. -/
theorem findGuid_map (c : Char) (text : List Char) (offsets : List Nat) :
    findGuid (c :: text) (offsets.map (c.utf8Size + ·)) =
      (findGuid text offsets).map fun found => found.map (c.utf8Size + ·) := by
  induction offsets with
  | nil => rfl
  | cons start later ih =>
      simp only [List.map_cons, findGuid, window_cons, ih]
      cases window text start guidLen with
      | none => rfl
      | some candidate =>
          cases test : isGuid candidate with
          | none => simp [test]
          | some shaped => cases shaped <;> simp [test]

theorem GuidShaped.byteLength {guid : List Char} (shape : GuidShaped guid) :
    byteLength guid = guidLen := by
  obtain ⟨hLow, hMid, hHigh, hClock, hNode⟩ := shape
  simp only [byteLength_append, byteLength_cons, hLow.byteLength, hMid.byteLength,
    hHigh.byteLength, hClock.byteLength, hNode.byteLength]
  rfl

theorem isGuid_of_shaped {guid : List Char} (shape : GuidShaped guid) :
    isGuid guid = some true := by
  rw [isGuid_eq, decide_eq_true (guidShaped_iff.mp shape)]

/-- A GUID at the start is found there. -/
theorem nextGuid_here {guid after : List Char} (shape : GuidShaped guid) :
    nextGuid (guid ++ after) = some (some 0) := by
  obtain ⟨c, rest, same⟩ : ∃ c rest, guid ++ after = c :: rest := by
    refine List.exists_cons_of_ne_nil fun empty => ?_
    have length := shape.length
    rw [(List.append_eq_nil_iff.mp empty).1] at length
    cases length
  have cut : splitBytes (guid ++ after) guidLen = some (guid, after) := by
    rw [← shape.byteLength, splitBytes_append]
  rw [nextGuid, same, starts_cons, findGuid, window_zero, ← same, cut]
  simp [isGuid_of_shaped shape]

theorem guidAt_zero {text : List Char} :
    GuidAt text 0 ↔ ∃ guid after, GuidShaped guid ∧ text = guid ++ after := by
  constructor
  · rintro ⟨guid, ⟨after, same⟩, shape⟩
    exact ⟨guid, after, shape, same.symm⟩
  · rintro ⟨guid, after, shape, rfl⟩
    exact ⟨guid, List.prefix_append _ _, shape⟩

theorem guidAt_succ {c : Char} {text : List Char} {n : Nat} :
    GuidAt (c :: text) (n + 1) ↔ GuidAt text n :=
  Iff.rfl

/-- Without a GUID at the start the search goes on behind the first character. -/
theorem nextGuid_cons {c : Char} {text : List Char} (other : ¬ GuidAt (c :: text) 0) :
    nextGuid (c :: text) = (nextGuid text).map fun found => found.map (c.utf8Size + ·) := by
  rw [nextGuid, nextGuid, starts_cons, findGuid, window_zero, ← findGuid_map]
  cases cut : splitBytes (c :: text) guidLen with
  | none => rfl
  | some parts =>
      obtain ⟨candidate, after⟩ := parts
      obtain ⟨same, -⟩ := splitBytes_eq_some.mp cut
      have notShaped : ¬ candidate.map blur = guidShape := fun shape =>
        other (guidAt_zero.mpr ⟨candidate, after, guidShaped_iff.mpr shape, same⟩)
      simp [isGuid_eq, notShaped]

theorem nextGuid_none {text : List Char} (clean : ∀ n, ¬ GuidAt text n) :
    nextGuid text = some none := by
  induction text with
  | nil => rfl
  | cons c text ih =>
      rw [nextGuid_cons (clean 0), ih fun n => mt guidAt_succ.mpr (clean (n + 1))]
      rfl

/-- The first GUID is the one found. -/
theorem nextGuid_first {before guid after : List Char} (shape : GuidShaped guid)
    (first : ∀ n < before.length, ¬ GuidAt (before ++ (guid ++ after)) n) :
    nextGuid (before ++ (guid ++ after)) = some (some (byteLength before)) := by
  induction before with
  | nil =>
      rw [List.nil_append, nextGuid_here shape]
      rfl
  | cons c before ih =>
      have notHere : ¬ GuidAt (c :: (before ++ (guid ++ after))) 0 := first 0 (Nat.succ_pos _)
      have later : ∀ n < before.length, ¬ GuidAt (before ++ (guid ++ after)) n :=
        fun n bound => mt guidAt_succ.mpr (first (n + 1) (Nat.succ_lt_succ bound))
      rw [List.cons_append, nextGuid_cons notHere, ih later, byteLength_cons]
      rfl

/-! ### The loop -/

section Run

variable {text last : List Char} {cuts : List (List Char × List Char)}

theorem LeftmostGuids.text_eq (run : LeftmostGuids text cuts last) : text = glue cuts last := by
  induction run with
  | done clean => rfl
  | found shape first later ih =>
      rw [glue, List.foldr_cons, ← glue, ← ih]

theorem LeftmostGuids.length_le (run : LeftmostGuids text cuts last) :
    cuts.length ≤ text.length := by
  induction run with
  | done clean => exact Nat.zero_le _
  | found shape first later ih =>
      have length := shape.length
      simp only [List.length_cons, List.length_append, guidLen] at length ⊢
      omega

/-- Every text has leftmost GUIDs. -/
theorem exists_leftmostGuids (text : List Char) : ∃ cuts last, LeftmostGuids text cuts last := by
  induction size : text.length using Nat.strong_induction_on generalizing text with
  | _ size ih =>
      by_cases some_ : ∃ n, GuidAt text n
      · classical
        obtain ⟨guid, ⟨after, rest⟩, shape⟩ := Nat.find_spec some_
        have least : ∀ n < Nat.find some_, ¬ GuidAt text n := fun n => Nat.find_min some_
        obtain ⟨before, parts, short⟩ : ∃ before, text = before ++ (guid ++ after) ∧
            before.length ≤ Nat.find some_ :=
          ⟨_, by rw [rest, List.take_append_drop], List.length_take_le _ _⟩
        have counted := congrArg List.length parts
        simp only [List.length_append, guidLen, shape.length] at counted
        obtain ⟨cuts, last, later⟩ := ih after.length (by omega) after rfl
        refine ⟨(before, guid) :: cuts, last, ?_⟩
        subst parts
        exact .found shape (fun n bound => least n (lt_of_lt_of_le bound short)) later
      · exact ⟨[], text, .done (not_exists.mp some_)⟩

/-- The loop puts the mark in the place of each leftmost GUID. -/
theorem redactFrom_eq (run : LeftmostGuids text cuts last) {rounds : Nat}
    (enough : cuts.length < rounds) (out : List Char) :
    redactFrom rounds out text = some (out ++ glue (marked cuts) last) := by
  induction run generalizing rounds out with
  | done clean =>
      obtain ⟨rounds, rfl⟩ := Nat.exists_eq_add_of_lt enough
      rw [redactFrom, nextGuid_none clean]
      rfl
  | @found before guid after last cuts shape first later ih =>
      obtain ⟨rounds, rfl⟩ : ∃ n, rounds = n + 1 := ⟨rounds - 1, by omega⟩
      have cut : splitBytes (before ++ (guid ++ after)) (byteLength before) =
          some (before, guid ++ after) := splitBytes_append _ _
      have behind : splitBytes (before ++ (guid ++ after)) (byteLength before + guidLen) =
          some (before ++ guid, after) := by
        rw [← shape.byteLength, ← byteLength_append, ← List.append_assoc]
        exact splitBytes_append _ _
      rw [redactFrom, nextGuid_first shape first]
      simp only [Option.bind_eq_bind, Option.bind_some, sliceTo, sliceFrom, cut, behind,
        Option.map_some]
      rw [ih (Nat.lt_of_succ_lt_succ enough)]
      simp only [marked, glue, List.map_cons, List.foldr_cons, List.append_assoc]

theorem redactIds_eq (run : LeftmostGuids text cuts last) :
    redactIds text = some (glue (marked cuts) last) :=
  redactFrom_eq run (Nat.lt_succ_of_le run.length_le) []

end Run

/-! ### What is printed -/

/-- What holds no separator stands on one side of it. -/
theorem infix_apart {part left right : List Char} {separator : Char} (other : separator ∉ part)
    (inside : part <:+: left ++ separator :: right) : part <:+: left ∨ part <:+: right := by
  have none : ∀ {front : List Char}, separator ∉ front → front <+: separator :: right →
      front = [] := by
    intro front notMem starts
    cases front with
    | nil => rfl
    | cons c front =>
        rw [List.cons_prefix_cons] at starts
        rw [starts.1] at notMem
        exact absurd List.mem_cons_self notMem
  rcases List.infix_append_iff.mp inside with before | behind | ⟨back, front, rfl, ends, starts⟩
  · exact .inl before
  · rcases List.infix_cons_iff.mp behind with starts | behind
    · rw [none other starts]
      exact .inl List.nil_infix
    · exact .inr behind
  · rw [none (fun mem => other (List.mem_append_right back mem)) starts, List.append_nil]
    exact .inl ends.isInfix

/-- A GUID is of digits and dashes. -/
theorem GuidShaped.notMem {guid : List Char} (shape : GuidShaped guid) {c : Char}
    (notHex : isHex c = false) (notDash : c ≠ '-') : c ∉ guid := by
  intro mem
  have same : blur c = c := by rw [blur, notHex]; rfl
  have inShape : blur c ∈ guidShape := by
    rw [← guidShaped_iff.mp shape]
    exact List.mem_map_of_mem mem
  have only : (guidShape.all fun d => d == '0' || d == '-') = true := by decide
  rcases Bool.or_eq_true_iff.mp (List.all_eq_true.mp only _ inShape) with zero | dash
  · rw [blur_eq_zero.mp (beq_iff_eq.mp zero)] at notHex
    cases notHex
  · exact notDash (same.symm.trans (beq_iff_eq.mp dash))

theorem guidAt_of_infix {guid text : List Char} (shape : GuidShaped guid)
    (inside : guid <:+: text) : ∃ n, GuidAt text n := by
  obtain ⟨before, after, rfl⟩ := inside
  refine ⟨before.length, guid, ⟨after, ?_⟩, shape⟩
  rw [List.append_assoc, List.drop_left]

theorem infix_of_guidAt {text : List Char} {n : Nat} (here : GuidAt text n) :
    ∃ guid, GuidShaped guid ∧ guid <:+: text := by
  obtain ⟨guid, starts, shape⟩ := here
  exact ⟨guid, shape, starts.isInfix.trans (List.drop_suffix n text).isInfix⟩

/-- Before the first GUID of a text no other one ends. -/
theorem not_infix_before {before rest : List Char}
    (first : ∀ n < before.length, ¬ GuidAt (before ++ rest) n) {guid : List Char}
    (shape : GuidShaped guid) : ¬ guid <:+: before := by
  rintro ⟨left, right, rfl⟩
  refine first left.length ?_ ⟨guid, ⟨right ++ rest, ?_⟩, shape⟩
  · have length := shape.length
    simp only [List.length_append, length, guidLen]
    omega
  · simp only [List.append_assoc, List.drop_left]

theorem redactedMark_eq : redactedMark = '<' :: ("redacted".toList ++ ['>']) := by
  decide

/-- A mark neither holds a GUID nor lets one be made of what stands around it. -/
theorem LeftmostGuids.not_infix {text last : List Char} {cuts : List (List Char × List Char)}
    (run : LeftmostGuids text cuts last) {guid : List Char} (shape : GuidShaped guid) :
    ¬ guid <:+: glue (marked cuts) last := by
  induction run with
  | done clean =>
      intro inside
      obtain ⟨n, here⟩ := guidAt_of_infix shape inside
      exact clean n here
  | @found before found after last cuts _ first later ih =>
      intro inside
      have opened : '<' ∉ guid := shape.notMem (by decide) (by decide)
      have closed : '>' ∉ guid := shape.notMem (by decide) (by decide)
      change guid <:+: before ++ (redactedMark ++ glue (marked cuts) last) at inside
      rw [redactedMark_eq, List.cons_append, List.append_assoc, List.singleton_append] at inside
      rcases infix_apart opened inside with inBefore | behind
      · exact not_infix_before first shape inBefore
      · rcases infix_apart closed behind with inMark | inRest
        · have length := inMark.length_le
          rw [shape.length] at length
          exact absurd length (by decide)
        · exact ih inRest

/-- Other GUIDs in the same cuts blur to the same text. -/
theorem map_blur_glue {cuts others : List (List Char × List Char)} (last : List Char)
    (same : others.map Prod.fst = cuts.map Prod.fst)
    (shapes : ∀ cut ∈ cuts, GuidShaped cut.2) (guids : ∀ cut ∈ others, GuidShaped cut.2) :
    (glue others last).map blur = (glue cuts last).map blur := by
  induction cuts generalizing others with
  | nil => rw [List.map_eq_nil_iff.mp same]
  | cons cut cuts ih =>
      obtain ⟨other, others, rfl, before, rest⟩ := List.map_eq_cons_iff.mp same
      rw [List.forall_mem_cons] at shapes guids
      simp only [glue, List.foldr_cons, List.map_append]
      rw [← glue, ← glue, ih rest shapes.2 guids.2, before, guidShaped_iff.mp shapes.1,
        guidShaped_iff.mp guids.1]

theorem LeftmostGuids.shapes {text last : List Char} {cuts : List (List Char × List Char)}
    (run : LeftmostGuids text cuts last) : ∀ cut ∈ cuts, GuidShaped cut.2 := by
  induction run with
  | done clean => exact fun _ mem => absurd mem List.not_mem_nil
  | found shape first later ih => exact List.forall_mem_cons.mpr ⟨shape, ih⟩

/-- With other GUIDs in their places, the leftmost GUIDs of a text stay where they are. -/
theorem LeftmostGuids.replace {text last : List Char} {cuts others : List (List Char × List Char)}
    (run : LeftmostGuids text cuts last) (same : others.map Prod.fst = cuts.map Prod.fst)
    (guids : ∀ cut ∈ others, GuidShaped cut.2) :
    LeftmostGuids (glue others last) others last := by
  induction run generalizing others with
  | done clean =>
      rw [List.map_eq_nil_iff.mp same]
      exact .done clean
  | @found before guid after last cuts shape first later ih =>
      have blurred := map_blur_glue last same
        (List.forall_mem_cons.mpr ⟨shape, later.shapes⟩) guids
      obtain ⟨⟨front, other⟩, others, rfl, rfl, rest⟩ := List.map_eq_cons_iff.mp same
      rw [List.forall_mem_cons] at guids
      rw [later.text_eq] at first
      exact .found guids.1 (fun n bound => mt (guidAt_congr blurred).mp (first n bound))
        (ih rest guids.2)

/-! ### The message -/

/-- `redact_ids` as it is meant. -/
structure RedactedRight (message : List Char) : Prop where
  /-- No slice of it panics, and the mark is in the place of each leftmost GUID. -/
  replaced : ∃ cuts last, LeftmostGuids message cuts last ∧ message = glue cuts last ∧
    redactIds message = some (glue (marked cuts) last)
  noGuid : ∀ output, redactIds message = some output →
    ∀ guid, GuidShaped guid → ¬ guid <:+: output
  idempotent : ∀ output, redactIds message = some output → redactIds output = some output
  /-- With other GUIDs in the places of its own, the message gives the same output. -/
  blind : ∀ cuts last, LeftmostGuids message cuts last → ∀ others,
    others.map Prod.fst = cuts.map Prod.fst → (∀ cut ∈ others, GuidShaped cut.2) →
    redactIds (glue others last) = redactIds message

/-- Every message is redacted right. -/
theorem redactedRight (message : List Char) : RedactedRight message := by
  obtain ⟨cuts, last, run⟩ := exists_leftmostGuids message
  have result := redactIds_eq run
  have clean : ∀ guid, GuidShaped guid → ¬ guid <:+: glue (marked cuts) last :=
    fun _ shape => run.not_infix shape
  refine ⟨⟨cuts, last, run, run.text_eq, result⟩, ?_, ?_, ?_⟩
  · intro output printed
    rw [result, Option.some.injEq] at printed
    rwa [← printed]
  · intro output printed
    rw [result, Option.some.injEq] at printed
    rw [← printed]
    have none : ∀ n, ¬ GuidAt (glue (marked cuts) last) n := by
      intro n here
      obtain ⟨guid, shape, inside⟩ := infix_of_guidAt here
      exact clean guid shape inside
    have again := redactIds_eq (LeftmostGuids.done none)
    exact again
  · intro cuts last run others same guids
    rw [redactIds_eq (run.replace same guids), redactIds_eq run]
    have marks : marked others = marked cuts := by
      have mapped := congrArg (List.map fun before => (before, redactedMark)) same
      rwa [List.map_map, List.map_map] at mapped
    rw [marks]

-- The digits that follow a GUID are not part of it.
example : redactIds "é72f988bf-86f1-41af-91ab-2d7cd011db47ff: expired".toList =
    some "é<redacted>ff: expired".toList := by
  decide

end GmMiner.Cli
