import Mathlib.Data.List.Induction

/-!
Event streams (`text/event-stream`), as the format has a client read them.

A line ends with LF, with CR LF or with a lone CR, a line that is not ended says
nothing, and a blank line dispatches the event whose fields came since the blank line
before it. So what a client sees is said block by block: `eventsFrom_fold` reads the
client's buffers off the block, and a text that ends with a blank line is read by itself
(`linesFrom_append`, `eventsFrom_append`).
-/

namespace GmMiner.Lib.EventStream

/-- What a client is handed. -/
structure Event where
  type : List Char
  data : List Char
  deriving DecidableEq, Repr

/-! ### Lines -/

/-- The lines that are ended in a text, the first of which goes on from `line`. -/
def linesFrom (line : List Char) : List Char → List (List Char)
  | [] => []
  | '\r' :: '\n' :: rest => line :: linesFrom [] rest
  | '\r' :: rest => line :: linesFrom [] rest
  | '\n' :: rest => line :: linesFrom [] rest
  | c :: rest => linesFrom (line ++ [c]) rest

/-- After a line feed a text is read afresh. -/
theorem linesFrom_append (line before rest : List Char) :
    linesFrom line (before ++ '\n' :: rest) =
      linesFrom line (before ++ ['\n']) ++ linesFrom [] rest := by
  induction line, before using linesFrom.induct with
  | case1 line => rfl
  | case2 line before ih => exact congrArg (line :: ·) ih
  | case3 line before notLf ih =>
      cases before with
      | nil => rfl
      | cons c before =>
          have other : c ≠ '\n' := fun same => notLf before (same ▸ rfl)
          have ended : ∀ more, linesFrom line ('\r' :: c :: more) = line :: linesFrom [] (c :: more) :=
            fun more => linesFrom.eq_3 line (c :: more) fun _ same => other (List.cons.inj same).1
          rw [List.cons_append, List.cons_append, ended, List.cons_append, List.cons_append, ended]
          exact congrArg (line :: ·) ih
  | case4 line before ih => exact congrArg (line :: ·) ih
  | case5 line c before notCr notCr' notLf ih =>
      have goesOn : ∀ more, linesFrom line (c :: more) = linesFrom (line ++ [c]) more :=
        fun more => linesFrom.eq_5 line c more (fun _ same _ => notCr' same) notCr' notLf
      rw [List.cons_append, List.cons_append, goesOn, goesOn]
      exact ih

/-- A line without a line end is read as it is. -/
theorem linesFrom_line (line : List Char) {body : List Char}
    (plain : ∀ c ∈ body, c ≠ '\n' ∧ c ≠ '\r') (rest : List Char) :
    linesFrom line (body ++ '\n' :: rest) = (line ++ body) :: linesFrom [] rest := by
  induction body generalizing line with
  | nil =>
      rw [List.nil_append, List.append_nil]
      rfl
  | cons c body ih =>
      obtain ⟨⟨notLf, notCr⟩, later⟩ := List.forall_mem_cons.mp plain
      rw [List.cons_append, linesFrom.eq_5 line c _ (fun _ same _ => notCr same) notCr notLf,
        ih _ later, List.append_assoc]
      rfl

/-! ### Events -/

/-- The name and the value of a field; a comment is a field without a name. -/
def field (line : List Char) : List Char × List Char :=
  let value := (line.dropWhile (· ≠ ':')).tail
  (line.takeWhile (· ≠ ':'), if value.head? = some ' ' then value.tail else value)

/-- What a client keeps of the lines since the last blank one. -/
structure Buffers where
  event : List Char
  data : List Char

def Buffers.empty : Buffers := ⟨[], []⟩

def Buffers.read (buffers : Buffers) (line : List Char) : Buffers :=
  if (field line).1 = "event".toList then { buffers with event := (field line).2 }
  else if (field line).1 = "data".toList then
    { buffers with data := buffers.data ++ (field line).2 ++ ['\n'] }
  else buffers

/-- A blank line dispatches an event, unless there is no data. -/
def Buffers.dispatch (buffers : Buffers) : Option Event :=
  if buffers.data = [] then none
  else
    some ⟨if buffers.event = [] then "message".toList else buffers.event, buffers.data.dropLast⟩

/-- What a client sees of lines, from its buffers on. -/
def eventsFrom (buffers : Buffers) : List (List Char) → List Event
  | [] => []
  | [] :: lines => buffers.dispatch.toList ++ eventsFrom .empty lines
  | line :: lines => eventsFrom (buffers.read line) lines

/-- What a client sees of a text; a byte order mark at its head is left out. -/
def events (text : List Char) : List Event :=
  eventsFrom .empty (linesFrom [] (if text.head? = some '\uFEFF' then text.tail else text))

/-- A line that is not empty goes to the buffers. -/
theorem eventsFrom_cons (buffers : Buffers) {line : List Char} (some_ : line ≠ [])
    (lines : List (List Char)) :
    eventsFrom buffers (line :: lines) = eventsFrom (buffers.read line) lines :=
  eventsFrom.eq_3 buffers line lines some_

/-- After a blank line the lines are read afresh. -/
theorem eventsFrom_append (buffers : Buffers) (before lines : List (List Char)) :
    eventsFrom buffers (before ++ [] :: lines) =
      eventsFrom buffers (before ++ [[]]) ++ eventsFrom .empty lines := by
  induction before generalizing buffers with
  | nil =>
      rw [List.nil_append, List.nil_append, eventsFrom, eventsFrom, eventsFrom, List.append_nil]
  | cons line before ih =>
      rw [List.cons_append, List.cons_append]
      cases line with
      | nil => rw [eventsFrom, eventsFrom, ih, List.append_assoc]
      | cons c line =>
          rw [eventsFrom_cons _ (List.cons_ne_nil _ _), eventsFrom_cons _ (List.cons_ne_nil _ _), ih]

/-! ### Blocks -/

/-- The blocks of lines that a blank line ends, the first of which goes on from `block`. -/
def blocksFrom (block : List (List Char)) : List (List Char) → List (List (List Char))
  | [] => []
  | [] :: lines => block :: blocksFrom [] lines
  | line :: lines => blocksFrom (block ++ [line]) lines

/-- The values of the fields of a name. -/
def values (name : List Char) (block : List (List Char)) : List (List Char) :=
  block.filterMap fun line => if (field line).1 = name then some (field line).2 else none

/-- The block is read as an event of the type: it has data, and its last event field says so. -/
def Announces (type : List Char) (block : List (List Char)) : Prop :=
  values "data".toList block ≠ [] ∧ (values "event".toList block).getLast? = some type

instance (type : List Char) (block : List (List Char)) : Decidable (Announces type block) :=
  inferInstanceAs (Decidable (_ ∧ _))

/-- What a client keeps of a block. -/
def Buffers.ofBlock (block : List (List Char)) : Buffers := block.foldl Buffers.read .empty

/-- The buffers after one more line of a block. -/
theorem ofBlock_append (block : List (List Char)) (line : List Char) :
    Buffers.ofBlock (block ++ [line]) = (Buffers.ofBlock block).read line := by
  unfold Buffers.ofBlock
  rw [List.foldl_append]
  rfl

/-- A line adds its value to the field it names. -/
theorem values_append (name : List Char) (block : List (List Char)) (line : List Char) :
    values name (block ++ [line]) =
      values name block ++ if (field line).1 = name then [(field line).2] else [] := by
  unfold values
  rw [List.filterMap_append]
  split
  · rename_i named
    simp [named]
  · rename_i other
    simp [other]

/-- The event type is the last one the block names. -/
theorem ofBlock_event (block : List (List Char)) :
    (Buffers.ofBlock block).event = ((values "event".toList block).getLast?).getD [] := by
  induction block using List.reverseRecOn with
  | nil => rfl
  | append_singleton block line ih =>
      rw [ofBlock_append, values_append]
      unfold Buffers.read
      split
      · rw [List.getLast?_append]
        rfl
      · rw [List.append_nil]
        split
        · exact ih
        · exact ih

/-- The data are the values of the data fields, each ended by a line feed. -/
theorem ofBlock_data (block : List (List Char)) :
    (Buffers.ofBlock block).data = (values "data".toList block).flatMap (· ++ ['\n']) := by
  induction block using List.reverseRecOn with
  | nil => rfl
  | append_singleton block line ih =>
      rw [ofBlock_append, values_append]
      unfold Buffers.read
      split
      · rename_i event
        have notData : (field line).1 ≠ "data".toList := by
          rw [event]
          decide
        rw [if_neg notData, List.append_nil]
        exact ih
      · split
        · rw [List.flatMap_append, ← ih, List.append_assoc, List.flatMap_singleton]
        · rw [List.append_nil]
          exact ih

/-- The events dispatched are those of the blocks the lines divide into. -/
theorem eventsFrom_fold (block lines : List (List Char)) :
    eventsFrom (.ofBlock block) lines =
      (blocksFrom block lines).filterMap fun block => (Buffers.ofBlock block).dispatch := by
  induction lines generalizing block with
  | nil => rfl
  | cons line lines ih =>
      cases line with
      | nil =>
          have here := ih []
          rw [eventsFrom, blocksFrom, List.filterMap_cons]
          change _ ++ eventsFrom (.ofBlock []) lines = _
          rw [here]
          cases (Buffers.ofBlock block).dispatch with
          | none => rfl
          | some event => rfl
      | cons c line =>
          rw [eventsFrom_cons _ (List.cons_ne_nil _ _), ← ofBlock_append, ih, blocksFrom.eq_3]
          exact List.cons_ne_nil _ _

/-- Events of a named type are those of the blocks that announce it. -/
theorem dispatch_type {block : List (List Char)} {type : List Char} (named : type ≠ [])
    (notDefault : type ≠ "message".toList) :
    (∃ event, (Buffers.ofBlock block).dispatch = some event ∧ event.type = type) ↔
      Announces type block := by
  unfold Buffers.dispatch Announces
  rw [ofBlock_event, ofBlock_data]
  have noData : (values "data".toList block).flatMap (· ++ ['\n']) = [] ↔
      values "data".toList block = [] := by
    cases values "data".toList block with
    | nil => exact ⟨fun _ => rfl, fun _ => rfl⟩
    | cons value rest =>
        rw [List.flatMap_cons]
        simp
  constructor
  · -- A dispatched event has data, and its type is the default unless the block names one.
    rintro ⟨event, dispatched, rfl⟩
    split at dispatched
    · cases dispatched
    · rename_i some_
      cases dispatched
      refine ⟨fun none => some_ (noData.mpr none), ?_⟩
      dsimp only at named notDefault ⊢
      split at notDefault
      · exact absurd rfl notDefault
      · rename_i given
        rw [if_neg given]
        cases last : (values "event".toList block).getLast? with
        | none =>
            rw [last] at given
            exact absurd rfl given
        | some value => rfl
  · rintro ⟨data, last⟩
    rw [if_neg fun none => data (noData.mp none), last]
    refine ⟨_, rfl, ?_⟩
    dsimp only [Option.getD_some]
    rw [if_neg named]

/-- No event of the type is seen exactly if no block announces it. -/
theorem filter_type_eq_nil {lines : List (List Char)} {type : List Char} (named : type ≠ [])
    (notDefault : type ≠ "message".toList) :
    (eventsFrom .empty lines).filter (fun event => event.type = type) = [] ↔
      ∀ block ∈ blocksFrom [] lines, ¬ Announces type block := by
  have folded : eventsFrom .empty lines =
      (blocksFrom [] lines).filterMap fun block => (Buffers.ofBlock block).dispatch :=
    eventsFrom_fold [] lines
  rw [folded, List.filter_eq_nil_iff]
  constructor
  · intro none block mem announces
    obtain ⟨event, dispatched, same⟩ := (dispatch_type named notDefault).mpr announces
    exact none event (List.mem_filterMap.mpr ⟨block, mem, dispatched⟩) (decide_eq_true same)
  · intro silent event mem same
    obtain ⟨block, here, dispatched⟩ := List.mem_filterMap.mp mem
    exact silent block here
      ((dispatch_type named notDefault).mp ⟨event, dispatched, of_decide_eq_true same⟩)

/-! ### Texts that end with a blank line -/

/-- The text ends with a blank line, in either of the usual line ends. -/
def Closed (text : List Char) : Prop :=
  ∃ before, text = before ++ '\n' :: ['\n'] ∨ text = before ++ '\r' :: '\n' :: ['\r', '\n']

/-- A text that ends in a line end is cut into lines apart from what follows. -/
theorem Closed.linesFrom_append {text : List Char} (closed : Closed text) (rest : List Char) :
    linesFrom [] (text ++ rest) = linesFrom [] text ++ linesFrom [] rest := by
  obtain ⟨before, rfl | rfl⟩ := closed
  · have regroup : ∀ more : List Char,
        (before ++ '\n' :: ['\n']) ++ more = (before ++ ['\n']) ++ '\n' :: more := by simp
    rw [regroup, EventStream.linesFrom_append, List.append_assoc]
    rfl
  · have regroup : ∀ more : List Char, (before ++ '\r' :: '\n' :: ['\r', '\n']) ++ more =
        (before ++ ['\r', '\n', '\r']) ++ '\n' :: more := by simp
    rw [regroup, EventStream.linesFrom_append, List.append_assoc]
    rfl

/-- A closed text is cut into whole lines, with nothing after the last line end. -/
theorem Closed.exists_lines {text : List Char} (closed : Closed text) :
    ∃ lines, linesFrom [] text = lines ++ [[]] := by
  obtain ⟨before, rfl | rfl⟩ := closed
  · exact ⟨_, EventStream.linesFrom_append [] before ['\n']⟩
  · have regroup : before ++ '\r' :: '\n' :: ['\r', '\n'] =
        (before ++ ['\r']) ++ '\n' :: ['\r', '\n'] := by simp
    rw [regroup]
    exact ⟨_, EventStream.linesFrom_append [] _ ['\r', '\n']⟩

/-- What a client sees of a text that goes on after a blank line. -/
theorem Closed.eventsFrom_append {text : List Char} (closed : Closed text) (rest : List Char) :
    eventsFrom .empty (linesFrom [] (text ++ rest)) =
      eventsFrom .empty (linesFrom [] text) ++ eventsFrom .empty (linesFrom [] rest) := by
  obtain ⟨lines, ended⟩ := closed.exists_lines
  rw [closed.linesFrom_append, ended, List.append_assoc]
  exact EventStream.eventsFrom_append .empty lines (linesFrom [] rest)

end GmMiner.Lib.EventStream
