import GmMiner.EventLog.Parse

/-!
Replay of the event log into the four RTMRs.

A register is the extension of zero by the digests of its own events, in order
(`replay_eq_some`), so a replay is settled by the registers and the SHA-384 digests that the
measured records name. SHA-384 is a parameter.
-/

namespace GmMiner.EventLog

open GmMiner.Lib

/-- `RTMR = SHA-384(RTMR || digest)`, of the event's own register. -/
def extend (sha384 : Bytes → Register) (registers : Vector Register 4) (event : Event) :
    Option (Vector Register 4) :=
  if inRange : event.rtmr < 4 then
    let register := registers[event.rtmr]
    some (registers.set event.rtmr (sha384 (register.toList ++ event.digest.toList)))
  else none

/-- Replay the events into the four RTMRs; `none` where an index is out of range. -/
def replay (sha384 : Bytes → Register) (events : List Event) : Option (Vector Register 4) :=
  events.foldlM (extend sha384) (Vector.replicate 4 (Vector.replicate 48 0))

/-- A register extended by its own events. -/
def extended (sha384 : Bytes → Register) (register : Register) (index : Nat)
    (events : List Event) : Register :=
  (events.filter (·.rtmr == index)).foldl
    (fun register event => sha384 (register.toList ++ event.digest.toList)) register

/-- Replaying extends each register by its own events. -/
theorem foldlM_extend (sha384 : Bytes → Register) {events : List Event}
    (inRange : ∀ event ∈ events, event.rtmr < 4) (registers : Vector Register 4) :
    events.foldlM (extend sha384) registers =
      some (Vector.ofFn fun index => extended sha384 registers[index] index events) := by
  induction events generalizing registers with
  | nil =>
      simp only [List.foldlM_nil, extended, List.filter_nil, List.foldl_nil]
      congr 1
      ext index bound
      simp
  | cons event events ih =>
      obtain ⟨first, later⟩ := List.forall_mem_cons.mp inRange
      rw [List.foldlM_cons, extend, dif_pos first]
      change List.foldlM _ _ events = _
      rw [ih later]
      congr 1
      apply Vector.ext
      intro index bound
      by_cases own : event.rtmr = index
      · simp [extended, own]
      · simp [extended, own, Vector.getElem_set_ne]

theorem replay_eq_some (sha384 : Bytes → Register) {events : List Event}
    (inRange : ∀ event ∈ events, event.rtmr < 4) :
    replay sha384 events = some (Vector.ofFn fun index : Fin 4 =>
      extended sha384 (Vector.replicate 48 0) index events) := by
  rw [replay, foldlM_extend sha384 inRange]
  simp

/-- Events that extend the same registers by the same digests replay alike. -/
theorem replay_congr (sha384 : Bytes → Register) {events others : List Event}
    (same : events.map (fun event => (event.rtmr, event.digest)) =
      others.map fun event => (event.rtmr, event.digest)) :
    replay sha384 events = replay sha384 others := by
  have byPairs : ∀ events : List Event, replay sha384 events =
      (events.map fun event => (event.rtmr, event.digest)).foldlM
        (fun registers pair => extend sha384 registers ⟨pair.1, 0, pair.2, []⟩)
        (Vector.replicate 4 (Vector.replicate 48 0)) := by
    intro events
    rw [List.foldlM_map]
    rfl
  rw [byPairs events, byPairs others, same]

/-! ### What a log's replay rests on -/

/-- A record's register index and its SHA-384 digests. -/
def Record.extension (record : Record) : Nat × List Bytes := (record.index, record.sha384Digests)

theorem rtmr_lt_of_measures {records : List Record} {events : List Event}
    (measures : List.Forall₂ Record.Measures records events) :
    ∀ event ∈ events, event.rtmr < 4 := by
  induction measures with
  | nil => simp
  | cons first later ih => exact List.forall_mem_cons.mpr ⟨first.rtmr_lt, ih⟩

/-- Records of the same digests extend the registers alike. -/
theorem extensions_of_measures {records others : List Record} {events otherEvents : List Event}
    (measures : List.Forall₂ Record.Measures records events)
    (measuresOthers : List.Forall₂ Record.Measures others otherEvents)
    (same : records.map Record.extension = others.map Record.extension) :
    events.map (fun event => (event.rtmr, event.digest)) =
      otherEvents.map fun event => (event.rtmr, event.digest) := by
  induction measures generalizing others otherEvents with
  | nil =>
      cases measuresOthers with
      | nil => rfl
      | cons => simp at same
  | cons measure measures ih =>
      cases measuresOthers with
      | nil => simp at same
      | cons measureOther measuresOthers =>
          simp only [List.map_cons, List.cons.injEq, Record.extension, Prod.mk.injEq] at same
          obtain ⟨⟨index, digests⟩, later⟩ := same
          have rtmr := measure.index.symm.trans (index.trans measureOther.index)
          have digest := measure.sha384.symm.trans (digests.trans measureOther.sha384)
          simp only [List.map_cons, List.cons.injEq, Prod.mk.injEq]
          refine ⟨⟨by omega, ?_⟩, ih measuresOthers later⟩
          exact Vector.toList_inj.mp (List.singleton_inj.mp digest)

/-! ### A small log -/

/-- A header that lists SHA-384 alone. -/
def smallHeader : Header where
  index := 0
  sha1 := List.replicate 20 0
  platform := List.replicate 8 0
  algorithms := [(TPM_ALG_SHA384, 48)]
  vendor := []

theorem smallHeader_wellFormed : smallHeader.WellFormed where
  index_lt := by decide
  sha1_length := by decide
  platform_length := by decide
  one_le_length := by decide
  length_le := by decide
  algorithms_lt := by simp [smallHeader, TPM_ALG_SHA384]
  sha384_mem := by simp [smallHeader]
  length_lt := by decide

/-- A record that extends RTMR1. -/
def smallRecord : Record where
  index := 2
  eventType := 1
  digests := [⟨TPM_ALG_SHA384, List.replicate 48 7⟩]
  data := [1, 2]

theorem smallRecord_wellFormed : smallRecord.WellFormed smallHeader.algorithms where
  index_lt := by decide
  eventType_lt := by decide
  length_lt := by decide
  data_lt := by decide
  length_le := by decide
  listed := by
    intro tagged mem
    cases List.mem_singleton.mp mem
    exact ⟨by decide, by decide⟩
  sha384_once := by decide

def smallEvent : Event := ⟨1, 1, Vector.replicate 48 7, [1, 2]⟩

theorem smallRecord_measures :
    List.Forall₂ Record.Measures ([smallRecord].filter Record.isMeasured) [smallEvent] :=
  .cons ⟨by decide, by decide, by decide, rfl, rfl⟩ .nil

/-- The padding is accepted if there is none or at least four bytes. -/
theorem parse_small (n : Nat) :
    parse (smallHeader.encode ++ [smallRecord].flatMap Record.encode ++ List.replicate n 0xFF) =
      .ok [smallEvent] ↔ n = 0 ∨ 4 ≤ n := by
  obtain ⟨next, read⟩ := parse_encode smallHeader_wellFormed
    (List.forall_mem_singleton.mpr smallRecord_wellFormed)
    (List.forall_mem_singleton.mpr (by decide)) (by decide) smallRecord_measures
    (List.replicate n 0xFF)
  rw [read]
  exact parseRecords_replicate _ _ _ _

/-! ### Accepted logs -/

/-- An accepted log is a header, records and padding without a byte left over; the events are what
its measured records measure; and the replay is settled by those records' registers and SHA-384
digests. -/
theorem parse_sound {log : Bytes} {events : List Event} (accepted : parse log = .ok events) :
    ∃ header records tail, Reads log header records tail events ∧
      ∀ sha384, (replay sha384 events).isSome ∧
        ∀ other otherHeader otherRecords otherTail otherEvents, parse other = .ok otherEvents →
          Reads other otherHeader otherRecords otherTail otherEvents →
          (records.filter Record.isMeasured).map Record.extension =
            (otherRecords.filter Record.isMeasured).map Record.extension →
          replay sha384 events = replay sha384 otherEvents := by
  obtain ⟨header, records, tail, reads⟩ := parse_reads accepted
  refine ⟨header, records, tail, reads, ?_⟩
  intro sha384
  constructor
  · rw [replay_eq_some sha384 (rtmr_lt_of_measures reads.measures)]
    rfl
  · intro other otherHeader otherRecords otherTail otherEvents _ readsOther same
    exact replay_congr sha384 (extensions_of_measures reads.measures readsOther.measures same)

theorem parse_sound_small : ∃ events, ∃ header records tail,
    Reads (smallHeader.encode ++ [smallRecord].flatMap Record.encode ++ List.replicate 4 0xFF)
      header records tail events :=
  ⟨[smallEvent], by
    obtain ⟨header, records, tail, reads, -⟩ := parse_sound ((parse_small 4).mpr (by decide))
    exact ⟨header, records, tail, reads⟩⟩

/-! ### Written logs -/

/-- What is encoded is read back just where the padding is none or as long as a word. -/
theorem parse_padded {header : Header} {records : List Record} {events : List Event}
    (headed : header.WellFormed) (formed : ∀ record ∈ records, record.WellFormed header.algorithms)
    (unpadded : ∀ record ∈ records, record.index ≠ PADDING) (few : records.length ≤ MAX_EVENTS)
    (measures : List.Forall₂ Record.Measures (records.filter Record.isMeasured) events) (n : Nat) :
    parse (header.encode ++ records.flatMap Record.encode ++ List.replicate n 0xFF) = .ok events ↔
      n = 0 ∨ 4 ≤ n := by
  obtain ⟨next, read⟩ := parse_encode headed formed unpadded few measures (List.replicate n 0xFF)
  rw [read]
  exact parseRecords_replicate _ _ _ _

theorem parse_padded_small :
    parse (smallHeader.encode ++ [smallRecord].flatMap Record.encode ++ List.replicate 5 0xFF) =
      .ok [smallEvent] :=
  (parse_padded smallHeader_wellFormed (List.forall_mem_singleton.mpr smallRecord_wellFormed)
    (List.forall_mem_singleton.mpr (by decide)) (by decide) smallRecord_measures 5).mpr (by decide)

/-- A log of which three bytes of padding are left. -/
theorem parse_three_bytes :
    ¬ ∀ (header : Header) (records : List Record) (events : List Event) (n : Nat),
      header.WellFormed → (header.algorithms.map Prod.fst).Nodup →
      (∀ record ∈ records, record.WellFormed header.algorithms) →
      (∀ record ∈ records, record.index ≠ PADDING) → records.length ≤ MAX_EVENTS →
      List.Forall₂ Record.Measures (records.filter Record.isMeasured) events →
      parse (header.encode ++ records.flatMap Record.encode ++ List.replicate n 0xFF) =
        .ok events := by
  intro claimed
  have read := claimed smallHeader [smallRecord] [smallEvent] 3 smallHeader_wellFormed (by decide)
    (List.forall_mem_singleton.mpr smallRecord_wellFormed)
    (List.forall_mem_singleton.mpr (by decide)) (by decide) smallRecord_measures
  exact absurd ((parse_small 3).mp read) (by decide)

end GmMiner.EventLog
