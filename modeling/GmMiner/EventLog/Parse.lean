import GmMiner.Lib.Decode
import GmMiner.Text

/-!
The TDX CC event log (`attestd/src/eventlog.rs`): a header that lists the digest algorithms and
their sizes, then records, up to the end of the buffer or to `0xFF` padding.

Each part of the parser decodes a format (`decodes_parseHeader`, `decodes_parseEvent`), and the
records are what the loop takes off one after another. A record's digests have no sizes of their
own: an algorithm's size is the first one that the header lists for it.
-/

namespace GmMiner.EventLog

open GmMiner.Lib

/-- A SHA-384 measurement register value. -/
abbrev Register := Vector UInt8 48

/-- `Spec ID Event03` and a null byte. -/
def SPEC_ID_SIGNATURE : Bytes := asBytes "Spec ID Event03\x00"

def EV_NO_ACTION : Nat := 0x3

def TPM_ALG_SHA384 : Nat := 0x000C

def SHA1_DIGEST_LEN : Nat := 20

def MAX_EVENTS : Nat := 4096

def MAX_ALGORITHMS : Nat := 16

def PADDING : Nat := 0xFFFFFFFF

/-- One measured record of the log. -/
structure Event where
  /-- RTMR index, 0 to 3. -/
  rtmr : Nat
  eventType : Nat
  digest : Register
  data : Bytes
  deriving DecidableEq

/-! ### The cursor -/

/-- `{:#x}`. -/
def hex (n : Nat) : String := "0x" ++ String.ofList (Nat.toDigits 16 n)

abbrev LogReader := Reader UInt8 String

def truncated (offset : Nat) : String := s!"event log truncated at byte {offset}"

def take (len : Nat) : LogReader Bytes := Reader.take truncated len

def u16 : LogReader Nat := Reader.word truncated 2

def u32 : LogReader Nat := Reader.word truncated 4

def peekU32 (cursor : Cursor UInt8) : Option Nat :=
  if 4 ≤ cursor.rest.length then some (leValue (cursor.rest.take 4)) else none

def restIsPadding (cursor : Cursor UInt8) : Bool := cursor.rest.all (· == 0xFF)

theorem decodes_take (len : Nat) :
    Decodes (take len) fun read value => read.length = len ∧ value = read :=
  Decodes.take truncated len

theorem decodes_u16 :
    Decodes u16 fun read value => value < 256 ^ 2 ∧ read = leBytes 2 value :=
  Decodes.word truncated 2

theorem decodes_u32 :
    Decodes u32 fun read value => value < 256 ^ 4 ∧ read = leBytes 4 value :=
  Decodes.word truncated 4

/-! ### The header -/

/-- One listed algorithm and its size. -/
def parseAlgorithm : LogReader (Nat × Nat) := do
  let algorithm ← u16
  let size ← u16
  return (algorithm, size)

/-- The event data of the header. -/
def parseSpecId : LogReader (List (Nat × Nat)) := do
  let signature ← take 16
  Reader.check (signature == SPEC_ID_SIGNATURE) "event log header is not Spec ID Event03"
  let _ ← take (4 + 1 + 1 + 1 + 1)
  let count ← u32
  Reader.check (1 ≤ count && count ≤ MAX_ALGORITHMS) s!"event log lists {count} digest algorithms"
  let sizes ← parseAlgorithm.times count
  Reader.check (sizes.contains (TPM_ALG_SHA384, 48)) "event log does not carry SHA-384 digests"
  return sizes

def parseHeader : LogReader (List (Nat × Nat)) := do
  let _ ← u32
  let eventType ← u32
  Reader.check (eventType == EV_NO_ACTION)
    s!"event log header type is {hex eventType}, expected EV_NO_ACTION"
  let _ ← take SHA1_DIGEST_LEN
  let size ← u32
  let spec ← take size
  parseSpecId.within spec

/-! ### The records -/

/-- The size that is listed first for an algorithm. -/
def listedSize (digestSizes : List (Nat × Nat)) (algorithm : Nat) : Except String Nat :=
  required ((digestSizes.find? fun listed => listed.1 == algorithm).map Prod.snd)
    s!"event record uses unlisted algorithm {hex algorithm}"

/-- The loop over a record's digests, from the SHA-384 digest seen so far. -/
def parseDigests (digestSizes : List (Nat × Nat)) : Nat → Option Bytes → LogReader (Option Bytes)
  | 0, sha384 => pure sha384
  | count + 1, sha384 => do
      let algorithm ← u16
      let size ← Reader.ofResult (listedSize digestSizes algorithm)
      let digest ← take size
      if algorithm = TPM_ALG_SHA384 then
        Reader.check sha384.isNone "event record repeats its SHA-384 digest"
        parseDigests digestSizes count (some digest)
      else
        parseDigests digestSizes count sha384

/-- What a record that was read measures. -/
def measuredEvent (index eventType : Nat) (sha384 : Option Bytes) (data : Bytes) :
    Except String (Option Event) :=
  if eventType = EV_NO_ACTION then .ok none
  else if 1 ≤ index ∧ index ≤ 4 then
    match sha384 with
    | none => .error "event record has no SHA-384 digest"
    | some digest =>
        if size : digest.length = 48 then
          .ok (some ⟨index - 1, eventType, ⟨digest.toArray, size⟩, data⟩)
        else .error "SHA-384 digest is not 48 bytes"
  else .error s!"event record extends measurement register {index}, not an RTMR"

def parseEvent (digestSizes : List (Nat × Nat)) : LogReader (Option Event) := do
  let index ← u32
  let eventType ← u32
  let count ← u32
  Reader.check (count ≤ digestSizes.length) s!"event record has {count} digests"
  let sha384 ← parseDigests digestSizes count none
  let dataLen ← u32
  let data ← take dataLen
  Reader.ofResult (measuredEvent index eventType sha384 data)

/-! ### What is written -/

/-- What a header says. -/
structure Header where
  index : Nat
  sha1 : Bytes
  /-- The platform class, the versions, the errata and the size of `uintn`. -/
  platform : Bytes
  algorithms : List (Nat × Nat)
  vendor : Bytes

def encodeAlgorithm (listed : Nat × Nat) : Bytes := leBytes 2 listed.1 ++ leBytes 2 listed.2

def Header.listing (header : Header) : Bytes :=
  SPEC_ID_SIGNATURE ++ header.platform ++ leBytes 4 header.algorithms.length ++
    header.algorithms.flatMap encodeAlgorithm

def Header.encode (header : Header) : Bytes :=
  leBytes 4 header.index ++ leBytes 4 EV_NO_ACTION ++ header.sha1 ++
    leBytes 4 (header.listing ++ header.vendor).length ++ (header.listing ++ header.vendor)

/-- A header of which each field fits, and that lists SHA-384 with 48 bytes. -/
structure Header.WellFormed (header : Header) : Prop where
  index_lt : header.index < 256 ^ 4
  sha1_length : header.sha1.length = SHA1_DIGEST_LEN
  platform_length : header.platform.length = 8
  one_le_length : 1 ≤ header.algorithms.length
  length_le : header.algorithms.length ≤ MAX_ALGORITHMS
  algorithms_lt : ∀ listed ∈ header.algorithms, listed.1 < 256 ^ 2 ∧ listed.2 < 256 ^ 2
  sha384_mem : (TPM_ALG_SHA384, 48) ∈ header.algorithms
  length_lt : (header.listing ++ header.vendor).length < 256 ^ 4

/-- A digest under the algorithm it is of. -/
structure TaggedDigest where
  algorithm : Nat
  digest : Bytes

def TaggedDigest.encode (tagged : TaggedDigest) : Bytes :=
  leBytes 2 tagged.algorithm ++ tagged.digest

/-- The digest has the size that is listed first for its algorithm. -/
structure TaggedDigest.Listed (tagged : TaggedDigest) (digestSizes : List (Nat × Nat)) : Prop where
  algorithm_lt : tagged.algorithm < 256 ^ 2
  size : (digestSizes.find? fun listed => listed.1 == tagged.algorithm).map Prod.snd =
    some tagged.digest.length

/-- What a record says. -/
structure Record where
  index : Nat
  eventType : Nat
  digests : List TaggedDigest
  data : Bytes

def Record.encode (record : Record) : Bytes :=
  leBytes 4 record.index ++ leBytes 4 record.eventType ++ leBytes 4 record.digests.length ++
    record.digests.flatMap TaggedDigest.encode ++ leBytes 4 record.data.length ++ record.data

def Record.sha384Digests (record : Record) : List Bytes :=
  (record.digests.filter (·.algorithm == TPM_ALG_SHA384)).map TaggedDigest.digest

/-- A record of which each field fits, with digests as they are listed. -/
structure Record.WellFormed (record : Record) (digestSizes : List (Nat × Nat)) : Prop where
  index_lt : record.index < 256 ^ 4
  eventType_lt : record.eventType < 256 ^ 4
  length_lt : record.digests.length < 256 ^ 4
  data_lt : record.data.length < 256 ^ 4
  length_le : record.digests.length ≤ digestSizes.length
  listed : ∀ tagged ∈ record.digests, tagged.Listed digestSizes
  sha384_once : record.sha384Digests.length ≤ 1

/-- The event is what the record measures. -/
structure Record.Measures (record : Record) (event : Event) : Prop where
  index : record.index = event.rtmr + 1
  rtmr_lt : event.rtmr < 4
  sha384 : record.sha384Digests = [event.digest.toList]
  eventType : event.eventType = record.eventType
  data : event.data = record.data

/-- A record that is not for information only. -/
def Record.isMeasured (record : Record) : Bool := record.eventType != EV_NO_ACTION

/-! ### What is read is what is written -/

/-- An algorithm is two numbers. -/
theorem decodes_parseAlgorithm :
    Decodes parseAlgorithm fun read listed =>
      (listed.1 < 256 ^ 2 ∧ listed.2 < 256 ^ 2) ∧ read = encodeAlgorithm listed := by
  refine (decodes_u16.bind fun _ => decodes_u16.bind fun _ => Decodes.pure _).congr ?_
  intro read listed
  constructor
  · rintro ⟨algorithm, head, _, ⟨first, rfl⟩, ⟨size, middle, _, ⟨second, rfl⟩, ⟨rfl, rfl⟩, rfl⟩, rfl⟩
    exact ⟨⟨first, second⟩, by simp [encodeAlgorithm]⟩
  · rintro ⟨⟨first, second⟩, rfl⟩
    exact ⟨_, _, _, ⟨first, rfl⟩, ⟨_, _, [], ⟨second, rfl⟩, ⟨rfl, rfl⟩, rfl⟩,
      by simp [encodeAlgorithm]⟩

/-- The specification id lists the algorithms. -/
theorem decodes_parseSpecId :
    Decodes parseSpecId fun read sizes => ∃ platform : Bytes,
      platform.length = 8 ∧ 1 ≤ sizes.length ∧ sizes.length ≤ MAX_ALGORITHMS ∧
      (∀ listed ∈ sizes, listed.1 < 256 ^ 2 ∧ listed.2 < 256 ^ 2) ∧
      (TPM_ALG_SHA384, 48) ∈ sizes ∧
      read = SPEC_ID_SIGNATURE ++ platform ++ leBytes 4 sizes.length ++
        sizes.flatMap encodeAlgorithm := by
  refine ((decodes_take 16).bind fun _ => (Decodes.check _ _).bind fun _ =>
    (decodes_take _).bind fun _ => decodes_u32.bind fun count => (Decodes.check _ _).bind fun _ =>
    (decodes_parseAlgorithm.times_encoded count).bind fun _ => (Decodes.check _ _).bind fun _ =>
    Decodes.pure _).congr ?_
  intro read sizes
  constructor
  · rintro ⟨signature, _, _, ⟨-, rfl⟩, ⟨_, _, _, ⟨signed, rfl⟩, ⟨platform, _, _, ⟨long, rfl⟩,
      ⟨count, _, _, ⟨-, rfl⟩, ⟨_, _, _, ⟨counted, rfl⟩, ⟨_, _, _, ⟨rfl, fit, rfl⟩,
      ⟨_, _, _, ⟨carried, rfl⟩, ⟨rfl, rfl⟩, rfl⟩, rfl⟩, rfl⟩, rfl⟩, rfl⟩, rfl⟩, rfl⟩
    simp only [Bool.and_eq_true, decide_eq_true_eq] at counted
    refine ⟨platform, long, counted.1, counted.2, fit, by simpa using carried, ?_⟩
    have named : signature = SPEC_ID_SIGNATURE := by simpa using signed
    simp [named]
  · rintro ⟨platform, long, atLeast, atMost, fit, carried, rfl⟩
    have few : sizes.length < 256 ^ 4 := atMost.trans_lt (by decide)
    refine ⟨_, SPEC_ID_SIGNATURE, _, ⟨by decide, rfl⟩, ⟨.unit, [], _, ⟨by simp, rfl⟩,
      ⟨_, platform, _, ⟨long, rfl⟩, ⟨_, _, _, ⟨few, rfl⟩, ⟨.unit, [], _, ⟨by simp [*], rfl⟩,
      ⟨sizes, _, _, ⟨rfl, fit, rfl⟩, ⟨.unit, [], [], ⟨by simpa using carried, rfl⟩, ⟨rfl, rfl⟩,
      rfl⟩, rfl⟩, rfl⟩, rfl⟩, rfl⟩, rfl⟩, ?_⟩
    simp

/-- What is read of a header is its encoding. -/
theorem decodes_parseHeader :
    Decodes parseHeader fun read sizes => ∃ header : Header,
      header.WellFormed ∧ sizes = header.algorithms ∧ read = header.encode := by
  refine (decodes_u32.bind fun _ => decodes_u32.bind fun _ => (Decodes.check _ _).bind fun _ =>
    (decodes_take _).bind fun _ => decodes_u32.bind fun _ => (decodes_take _).bind fun _ =>
    decodes_parseSpecId.within _).congr ?_
  intro read sizes
  constructor
  · rintro ⟨index, _, _, ⟨indexFits, rfl⟩, ⟨eventType, _, _, ⟨-, rfl⟩, ⟨_, _, _, ⟨informs, rfl⟩,
      ⟨sha1, _, _, ⟨sha1Long, rfl⟩, ⟨size, _, _, ⟨sizeFits, rfl⟩, ⟨_, spec, _, ⟨sized, rfl⟩,
      ⟨rfl, listing, vendor, ⟨platform, platformLong, atLeast, atMost, fit, carried, rfl⟩, rfl⟩,
      rfl⟩, rfl⟩, rfl⟩, rfl⟩, rfl⟩, rfl⟩
    have informs : eventType = EV_NO_ACTION := by simpa using informs
    subst informs sized
    refine ⟨⟨index, sha1, platform, sizes, vendor⟩, ⟨indexFits, sha1Long, platformLong, atLeast,
      atMost, fit, carried, sizeFits⟩, rfl, ?_⟩
    simp [Header.encode, Header.listing]
  · rintro ⟨header, formed, rfl, rfl⟩
    refine ⟨_, _, _, ⟨formed.index_lt, rfl⟩, ⟨EV_NO_ACTION, _, _, ⟨by decide, rfl⟩,
      ⟨.unit, [], _, ⟨by simp, rfl⟩, ⟨_, header.sha1, _, ⟨formed.sha1_length, rfl⟩,
      ⟨_, _, _, ⟨formed.length_lt, rfl⟩, ⟨_, header.listing ++ header.vendor, [], ⟨rfl, rfl⟩,
      ⟨rfl, header.listing, header.vendor, ⟨header.platform, formed.platform_length,
        formed.one_le_length, formed.length_le, formed.algorithms_lt, formed.sha384_mem, rfl⟩, rfl⟩,
      rfl⟩, rfl⟩, rfl⟩, rfl⟩, rfl⟩, ?_⟩
    simp [Header.encode]

/-- The SHA-384 digests of a record's digests. -/
def sha384Of (digests : List TaggedDigest) : List Bytes :=
  (digests.filter (·.algorithm == TPM_ALG_SHA384)).map TaggedDigest.digest

/-- The digests of a record are read one by one, each of its algorithm's size. -/
theorem decodes_parseDigests (digestSizes : List (Nat × Nat)) (count : Nat)
    (sha384 : Option Bytes) :
    Decodes (parseDigests digestSizes count sha384) fun read result =>
      ∃ digests : List TaggedDigest, digests.length = count ∧
        (∀ tagged ∈ digests, tagged.Listed digestSizes) ∧
        sha384.toList ++ sha384Of digests = result.toList ∧
        read = digests.flatMap TaggedDigest.encode := by
  induction count generalizing sha384 with
  | zero =>
      refine (Decodes.pure sha384).congr ?_
      intro read result
      constructor
      · rintro ⟨rfl, rfl⟩
        exact ⟨[], rfl, by simp, by simp [sha384Of], rfl⟩
      · rintro ⟨digests, none, -, same, rfl⟩
        cases List.length_eq_zero_iff.mp none
        exact ⟨rfl, by cases sha384 <;> cases result <;> simp_all [sha384Of]⟩
  | succ count ih =>
      have rest : ∀ algorithm digest, Decodes
          (if algorithm = TPM_ALG_SHA384 then do
            Reader.check sha384.isNone "event record repeats its SHA-384 digest"
            parseDigests digestSizes count (some digest)
          else parseDigests digestSizes count sha384) fun read result =>
          ∃ digests : List TaggedDigest, digests.length = count ∧
            (∀ tagged ∈ digests, tagged.Listed digestSizes) ∧
            sha384.toList ++ sha384Of (⟨algorithm, digest⟩ :: digests) = result.toList ∧
            read = digests.flatMap TaggedDigest.encode := by
        intro algorithm digest
        -- Only a SHA-384 digest moves the accumulator, and a second one is refused.
        by_cases isSha384 : algorithm = TPM_ALG_SHA384
        · rw [if_pos isSha384]
          refine ((Decodes.check _ _).bind fun _ => ih (some digest)).congr ?_
          intro read result
          constructor
          · rintro ⟨_, _, _, ⟨first, rfl⟩, ⟨digests, counted, listed, same, rfl⟩, rfl⟩
            rw [Option.isNone_iff_eq_none.mp first]
            refine ⟨digests, counted, listed, ?_, rfl⟩
            rw [← same, sha384Of, List.filter_cons_of_pos (by simpa using isSha384)]
            rfl
          · rintro ⟨digests, counted, listed, same, rfl⟩
            rw [sha384Of, List.filter_cons_of_pos (by simpa using isSha384)] at same
            have first : sha384 = none := by
              cases sha384 with
              | none => rfl
              | some earlier => cases result <;> simp at same
            subst first
            exact ⟨.unit, [], _, ⟨rfl, rfl⟩, ⟨digests, counted, listed, same, rfl⟩, rfl⟩
        · rw [if_neg isSha384]
          refine (ih sha384).congr ?_
          intro read result
          simp [sha384Of, isSha384]
      refine (decodes_u16.bind fun algorithm => (Decodes.ofResult _).bind fun size =>
        (decodes_take size).bind fun digest => rest algorithm digest).congr ?_
      intro read result
      constructor
      · rintro ⟨algorithm, _, _, ⟨fits, rfl⟩, ⟨_, _, _, ⟨size, rfl⟩, ⟨digest, _, _, ⟨rfl, rfl⟩,
          ⟨digests, counted, listed, same, rfl⟩, rfl⟩, rfl⟩, rfl⟩
        refine ⟨⟨algorithm, digest⟩ :: digests, by simp [counted], ?_, same, ?_⟩
        · exact List.forall_mem_cons.mpr ⟨⟨fits, required_eq_ok.mp size⟩, listed⟩
        · simp [TaggedDigest.encode]
      · rintro ⟨digests, counted, listed, same, rfl⟩
        cases digests with
        | nil => simp at counted
        | cons tagged digests =>
            obtain ⟨⟨fits, size⟩, listed⟩ := List.forall_mem_cons.mp listed
            refine ⟨tagged.algorithm, _, _, ⟨fits, rfl⟩, ⟨_, [], _, ⟨required_eq_ok.mpr size, rfl⟩,
              ⟨tagged.digest, _, _, ⟨rfl, rfl⟩, ⟨digests, by simpa using counted, listed, same, rfl⟩,
              rfl⟩, rfl⟩, ?_⟩
            simp [TaggedDigest.encode]

/-! ### A record's event -/

theorem Record.four_le_length_encode (record : Record) : 4 ≤ record.encode.length := by
  simp only [Record.encode, List.length_append, length_leBytes]
  omega

/-- A record is an event exactly if it is measured, and then with one SHA-384
digest. -/
theorem measuredEvent_eq_ok {record : Record} {sha384 : Option Bytes} {result : Option Event}
    (digest : sha384.toList = record.sha384Digests) :
    measuredEvent record.index record.eventType sha384 record.data = .ok result ↔
      (record.isMeasured = false ∧ result = none) ∨
        (record.isMeasured = true ∧ ∃ event, result = some event ∧ record.Measures event) := by
  by_cases informs : record.eventType = EV_NO_ACTION
  · simp [measuredEvent, Record.isMeasured, informs, eq_comm]
  · have measured : record.isMeasured = true := by simpa [Record.isMeasured] using informs
    unfold measuredEvent
    rw [if_neg informs]
    simp only [measured, Bool.true_eq_false, false_and, true_and, false_or]
    constructor
    · intro success
      split at success
      · rename_i inRange
        cases sha384 with
        | none => cases success
        | some bytes =>
            dsimp only at success
            split at success
            · cases success
              exact ⟨_, rfl, by dsimp only; omega, by dsimp only; omega, digest.symm, rfl, rfl⟩
            · cases success
      · cases success
    · rintro ⟨⟨rtmr, eventType, register, data⟩, rfl, ⟨index, inRange, sha384Digests, rfl, rfl⟩⟩
      dsimp only at index inRange sha384Digests
      rw [sha384Digests] at digest
      have read : sha384 = some register.toList := by
        cases sha384 with
        | none => cases digest
        | some bytes => simpa using digest
      subst read
      rw [if_pos (by omega)]
      simp [index, Vector.toList]

/-- What is read of an event is the encoding of its record. -/
theorem decodes_parseEvent (digestSizes : List (Nat × Nat)) :
    Decodes (parseEvent digestSizes) fun read result => ∃ record : Record,
      record.WellFormed digestSizes ∧ read = record.encode ∧
        ((record.isMeasured = false ∧ result = none) ∨
          (record.isMeasured = true ∧ ∃ event, result = some event ∧ record.Measures event)) := by
  refine (decodes_u32.bind fun _ => decodes_u32.bind fun _ => decodes_u32.bind fun _ =>
    (Decodes.check _ _).bind fun _ => (decodes_parseDigests digestSizes _ none).bind fun _ =>
    decodes_u32.bind fun _ => (decodes_take _).bind fun _ => Decodes.ofResult _).congr ?_
  intro read result
  constructor
  · rintro ⟨index, _, _, ⟨indexFits, rfl⟩, ⟨eventType, _, _, ⟨typeFits, rfl⟩, ⟨_, _, _, ⟨few, rfl⟩,
      ⟨_, _, _, ⟨counted, rfl⟩, ⟨sha384, _, _, ⟨digests, rfl, listed, found, rfl⟩,
      ⟨_, _, _, ⟨dataFits, rfl⟩, ⟨data, _, _, ⟨rfl, rfl⟩, ⟨measured, rfl⟩, rfl⟩, rfl⟩, rfl⟩, rfl⟩,
      rfl⟩, rfl⟩, rfl⟩
    have digest : sha384.toList = (Record.mk index eventType digests data).sha384Digests := found.symm
    refine ⟨⟨index, eventType, digests, data⟩, ⟨indexFits, typeFits, few, dataFits,
      by simpa using counted, listed, ?_⟩, by simp [Record.encode], ?_⟩
    · rw [← digest]
      cases sha384 <;> simp
    · exact (measuredEvent_eq_ok digest).mp measured
  · rintro ⟨record, formed, rfl, outcome⟩
    obtain ⟨sha384, digest⟩ : ∃ sha384 : Option Bytes, sha384.toList = record.sha384Digests := by
      have once := formed.sha384_once
      cases found : record.sha384Digests with
      | nil => exact ⟨none, rfl⟩
      | cons first others =>
          rw [found, List.length_cons] at once
          have alone : others = [] := List.length_eq_zero_iff.mp (by omega)
          exact ⟨some first, by simp [alone]⟩
    refine ⟨record.index, _, _, ⟨formed.index_lt, rfl⟩, ⟨record.eventType, _, _,
      ⟨formed.eventType_lt, rfl⟩, ⟨record.digests.length, _, _, ⟨formed.length_lt, rfl⟩,
      ⟨.unit, [], _, ⟨by simpa using formed.length_le, rfl⟩,
      ⟨sha384, _, _, ⟨record.digests, rfl, formed.listed, digest.symm, rfl⟩,
      ⟨record.data.length, _, _, ⟨formed.data_lt, rfl⟩, ⟨record.data, _, [], ⟨rfl, rfl⟩,
      ⟨(measuredEvent_eq_ok digest).mpr outcome, rfl⟩, rfl⟩, rfl⟩, rfl⟩, rfl⟩, rfl⟩, rfl⟩, ?_⟩
    simp [Record.encode]

/-! ### The log -/

theorem parseEvent_shorter {digestSizes : List (Nat × Nat)} {cursor left : Cursor UInt8}
    {event : Option Event} (read : (parseEvent digestSizes).run cursor = .ok (event, left)) :
    left.rest.length < cursor.rest.length := by
  obtain ⟨taken, ⟨record, -, rfl, -⟩, split, -⟩ := (decodes_parseEvent digestSizes).sound read
  have long := record.four_le_length_encode
  rw [split, List.length_append]
  omega

/-- The loop over the records, from the events so far. -/
def parseRecords (digestSizes : List (Nat × Nat)) (events : List Event) (cursor : Cursor UInt8) :
    Except String (List Event) :=
  if cursor.rest = [] then .ok events
  else if peekU32 cursor = some PADDING then
    if restIsPadding cursor then .ok events
    else .error "event log has data after its 0xFF padding"
  else if events.length < MAX_EVENTS then
    match _read : (parseEvent digestSizes).run cursor with
    | .error failure => .error failure
    | .ok (event, left) => parseRecords digestSizes (events ++ event.toList) left
  else .error s!"event log has more than {MAX_EVENTS} records"
termination_by cursor.rest.length
decreasing_by exact parseEvent_shorter _read

def parse (log : Bytes) : Except String (List Event) := do
  let (digestSizes, cursor) ← parseHeader.run ⟨0, log⟩
  parseRecords digestSizes [] cursor

/-- The log is a header, records with digests as the header lists them, and padding, and the events
are what its measured records measure. -/
structure Reads (log : Bytes) (header : Header) (records : List Record) (tail : Bytes)
    (events : List Event) : Prop where
  header_wellFormed : header.WellFormed
  wellFormed : ∀ record ∈ records, record.WellFormed header.algorithms
  split : log = header.encode ++ records.flatMap Record.encode ++ tail
  padding : ∀ byte ∈ tail, byte = 0xFF
  measures : List.Forall₂ Record.Measures (records.filter Record.isMeasured) events

/-- An event read is one more measured record, or none. -/
theorem filter_cons_measures {record : Record} {records : List Record} {event : Option Event}
    {events : List Event} (outcome : (record.isMeasured = false ∧ event = none) ∨
      (record.isMeasured = true ∧ ∃ measured, event = some measured ∧ record.Measures measured))
    (measures : List.Forall₂ Record.Measures (records.filter Record.isMeasured) events) :
    List.Forall₂ Record.Measures ((record :: records).filter Record.isMeasured)
      (event.toList ++ events) := by
  rcases outcome with ⟨informs, rfl⟩ | ⟨isMeasured, measured, rfl, measure⟩
  · simpa [informs] using measures
  · simpa [isMeasured] using ⟨measure, measures⟩

/-- What the loop has read when it stops is records and padding. -/
theorem parseRecords_sound {digestSizes : List (Nat × Nat)} {events result : List Event}
    {cursor : Cursor UInt8} (accepted : parseRecords digestSizes events cursor = .ok result) :
    ∃ (records : List Record) (measured : List Event) (tail : Bytes),
      (∀ record ∈ records, record.WellFormed digestSizes) ∧
      cursor.rest = records.flatMap Record.encode ++ tail ∧ (∀ byte ∈ tail, byte = 0xFF) ∧
      List.Forall₂ Record.Measures (records.filter Record.isMeasured) measured ∧
      result = events ++ measured := by
  revert accepted
  fun_induction parseRecords digestSizes events cursor with
  | case1 events cursor ended =>
      rintro ⟨⟩
      exact ⟨[], [], [], by simp, by simpa using ended, by simp, .nil, by simp⟩
  | case2 events cursor ended peeked padded =>
      rintro ⟨⟩
      refine ⟨[], [], cursor.rest, by simp, rfl, ?_, .nil, by simp⟩
      simpa [restIsPadding] using padded
  | case3 => rintro ⟨⟩
  | case4 => rintro ⟨⟩
  | case5 events cursor ended peeked room event left read ih =>
      intro accepted
      obtain ⟨taken, ⟨record, formed, rfl, outcome⟩, split, -⟩ :=
        (decodes_parseEvent digestSizes).sound read
      obtain ⟨records, measured, tail, later, splitLater, padding, measures, rfl⟩ := ih accepted
      refine ⟨record :: records, event.toList ++ measured, tail,
        List.forall_mem_cons.mpr ⟨formed, later⟩, ?_, padding,
        filter_cons_measures outcome measures, by simp⟩
      rw [split, splitLater, List.flatMap_cons, List.append_assoc]
  | case6 => rintro ⟨⟩

/-- An accepted log is a header, records and a tail. -/
theorem parse_reads {log : Bytes} {events : List Event} (accepted : parse log = .ok events) :
    ∃ header records tail, Reads log header records tail events := by
  obtain ⟨⟨digestSizes, cursor⟩, headed, accepted⟩ := bind_eq_ok.mp accepted
  obtain ⟨taken, ⟨header, formed, rfl, rfl⟩, split, -⟩ := decodes_parseHeader.sound headed
  obtain ⟨records, measured, tail, wellFormed, splitLater, padding, measures, rfl⟩ :=
    parseRecords_sound accepted
  refine ⟨header, records, tail, formed, wellFormed, ?_, padding, measures⟩
  rw [List.append_assoc, ← splitLater]
  exact split

theorem peekU32_encode (record : Record) (fits : record.index < 256 ^ 4) (offset : Nat)
    (rest : Bytes) : peekU32 ⟨offset, record.encode ++ rest⟩ = some record.index := by
  have long := record.four_le_length_encode
  unfold peekU32
  dsimp only
  rw [if_pos (by simp; omega)]
  simp [Record.encode, leValue_leBytes fits]

/-- One turn of the loop takes one record off. -/
theorem parseRecords_encode {digestSizes : List (Nat × Nat)} {events : List Event}
    {record : Record} {event : Option Event} (formed : record.WellFormed digestSizes)
    (unpadded : record.index ≠ PADDING) (outcome : (record.isMeasured = false ∧ event = none) ∨
      (record.isMeasured = true ∧ ∃ measured, event = some measured ∧ record.Measures measured))
    (room : events.length < MAX_EVENTS) (offset : Nat) (rest : Bytes) :
    parseRecords digestSizes events ⟨offset, record.encode ++ rest⟩ =
      parseRecords digestSizes (events ++ event.toList) ⟨offset + record.encode.length, rest⟩ := by
  have long := record.four_le_length_encode
  have given : record.encode ++ rest ≠ [] := by
    intro nothing
    rw [(List.append_eq_nil_iff.mp nothing).1] at long
    simp at long
  have parsed := (decodes_parseEvent digestSizes).complete ⟨record, formed, rfl, outcome⟩ offset rest
  rw [parseRecords, if_neg given, if_neg, if_pos room]
  · split
    · rename_i failure failed
      rw [parsed] at failed
      cases failed
    · rename_i found left read
      rw [parsed] at read
      cases read
      rfl
  · rw [peekU32_encode record formed.index_lt]
    simpa using unpadded

/-- Records that are well formed and no padding are read back. -/
theorem parseRecords_flatMap {digestSizes : List (Nat × Nat)} {records : List Record}
    {events measured : List Event} (formed : ∀ record ∈ records, record.WellFormed digestSizes)
    (unpadded : ∀ record ∈ records, record.index ≠ PADDING)
    (room : events.length + records.length ≤ MAX_EVENTS)
    (measures : List.Forall₂ Record.Measures (records.filter Record.isMeasured) measured)
    (offset : Nat) (rest : Bytes) :
    ∃ next, parseRecords digestSizes events ⟨offset, records.flatMap Record.encode ++ rest⟩ =
      parseRecords digestSizes (events ++ measured) ⟨next, rest⟩ := by
  induction records generalizing events measured offset with
  | nil =>
      cases measures
      exact ⟨offset, by simp⟩
  | cons record records ih =>
      obtain ⟨formedFirst, formed⟩ := List.forall_mem_cons.mp formed
      obtain ⟨unpaddedFirst, unpadded⟩ := List.forall_mem_cons.mp unpadded
      rw [List.length_cons] at room
      obtain ⟨event, later, outcome, measuresLater, rfl⟩ : ∃ (event : Option Event) (later : List Event),
          ((record.isMeasured = false ∧ event = none) ∨ (record.isMeasured = true ∧
            ∃ first, event = some first ∧ record.Measures first)) ∧
          List.Forall₂ Record.Measures (records.filter Record.isMeasured) later ∧
          measured = event.toList ++ later := by
        by_cases isMeasured : record.isMeasured = true
        · rw [List.filter_cons_of_pos isMeasured] at measures
          cases measures with
          | cons measure measures =>
              exact ⟨some _, _, Or.inr ⟨isMeasured, _, rfl, measure⟩, measures, rfl⟩
        · rw [List.filter_cons_of_neg isMeasured] at measures
          exact ⟨none, _, Or.inl ⟨by simpa using isMeasured, rfl⟩, measures, rfl⟩
      have grown : event.toList.length ≤ 1 := by cases event <;> simp
      have left : (events ++ event.toList).length + records.length ≤ MAX_EVENTS := by
        rw [List.length_append]
        omega
      obtain ⟨next, rest⟩ :=
        ih formed unpadded left measuresLater (offset + record.encode.length)
      refine ⟨next, ?_⟩
      rw [List.flatMap_cons, List.append_assoc,
        parseRecords_encode formedFirst unpaddedFirst outcome (by omega), rest, List.append_assoc]

/-- A log of well-formed records is read back, with its tail. -/
theorem parse_encode {header : Header} {records : List Record} {events : List Event}
    (headed : header.WellFormed) (formed : ∀ record ∈ records, record.WellFormed header.algorithms)
    (unpadded : ∀ record ∈ records, record.index ≠ PADDING) (few : records.length ≤ MAX_EVENTS)
    (measures : List.Forall₂ Record.Measures (records.filter Record.isMeasured) events)
    (tail : Bytes) :
    ∃ next, parse (header.encode ++ records.flatMap Record.encode ++ tail) =
      parseRecords header.algorithms events ⟨next, tail⟩ := by
  have room : ([] : List Event).length + records.length ≤ MAX_EVENTS := by simpa using few
  obtain ⟨next, read⟩ :=
    parseRecords_flatMap formed unpadded room measures header.encode.length tail
  refine ⟨next, ?_⟩
  have parsed := decodes_parseHeader.complete ⟨header, headed, rfl, rfl⟩ 0
    (records.flatMap Record.encode ++ tail)
  unfold parse
  rw [List.append_assoc, parsed]
  change parseRecords _ _ ⟨0 + _, _⟩ = _
  rw [Nat.zero_add, read, List.nil_append]

/-- Padding is seen as such when it is as long as the word that is peeked at. -/
theorem parseRecords_replicate (digestSizes : List (Nat × Nat)) (events : List Event)
    (offset n : Nat) :
    parseRecords digestSizes events ⟨offset, List.replicate n 0xFF⟩ = .ok events ↔
      n = 0 ∨ 4 ≤ n := by
  by_cases none : n = 0
  · subst none
    rw [parseRecords]
    simp
  rw [parseRecords, if_neg (by simpa using none)]
  by_cases long : 4 ≤ n
  · have peeked : peekU32 ⟨offset, List.replicate n 0xFF⟩ = some PADDING := by
      unfold peekU32
      rw [if_pos (by simpa using long), List.take_replicate, Nat.min_eq_left long]
      rfl
    rw [if_pos peeked, if_pos (by simp [restIsPadding])]
    simp [long]
  · have unseen : peekU32 ⟨offset, List.replicate n 0xFF⟩ = Option.none := by
      unfold peekU32
      rw [if_neg (by simpa using long)]
    rw [if_neg (by simp [unseen])]
    simp only [none, long, or_self, iff_false]
    intro accepted
    split at accepted
    · split at accepted
      · cases accepted
      · -- A record is longer than what is left.
        rename_i event left read
        obtain ⟨taken, ⟨record, -, rfl, -⟩, split, -⟩ :=
          (decodes_parseEvent digestSizes).sound read
        have atLeast := record.four_le_length_encode
        have length := congrArg List.length split
        rw [List.length_replicate, List.length_append] at length
        omega
    · cases accepted

end GmMiner.EventLog
