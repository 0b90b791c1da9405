import Mathlib.Data.List.TakeDrop
import Mathlib.Data.List.TakeWhile

/-!
Texts of keyed lines: each line a name, a separator and a value, ended by a
terminator. Nothing is escaped, so a text reads back as it was written exactly
if no value holds the terminator.
-/

namespace GmMiner.Lib.KeyedLines

universe u

variable {α : Type u} [DecidableEq α]

/-- The lines of a text: what stands before each terminator, and after the last. -/
def lines (terminator : α) : List α → List (List α)
  | [] => []
  | c :: rest =>
      if c = terminator then [] :: lines terminator rest
      else
        match lines terminator rest with
        | [] => [[c]]
        | line :: later => (c :: line) :: later

/-- Cut a line at its first separator. -/
def splitOnce (separator : α) (line : List α) : Option (List α × List α) :=
  match line.dropWhile (· ≠ separator) with
  | [] => none
  | _ :: value => some (line.takeWhile (· ≠ separator), value)

def encode (separator terminator : α) (entries : List (List α × List α)) : List α :=
  entries.flatMap fun entry => entry.1 ++ separator :: (entry.2 ++ [terminator])

def decode (separator terminator : α) (text : List α) : List (Option (List α × List α)) :=
  (lines terminator text).map (splitOnce separator)

variable {separator terminator : α}

/-- A character other than the terminator joins the first line. -/
theorem lines_cons_of_ne {c : α} (other : c ≠ terminator) {rest line : List α}
    {later : List (List α)} (read : lines terminator rest = line :: later) :
    lines terminator (c :: rest) = (c :: line) :: later := by
  rw [lines, if_neg other, read]

/-- A terminator ends a line, wherever the text goes on. -/
theorem lines_append (line rest : List α) (plain : terminator ∉ line) :
    lines terminator (line ++ terminator :: rest) = line :: lines terminator rest := by
  induction line with
  | nil => rw [List.nil_append, lines, if_pos rfl]
  | cons c line ih =>
      obtain ⟨other, plain'⟩ := not_or.mp (mt List.mem_cons.mpr plain)
      rw [List.cons_append]
      exact lines_cons_of_ne (Ne.symm other) (ih plain')

/-- A name without the separator is split off as it is. -/
theorem splitOnce_append {name : List α} (plain : separator ∉ name) (value : List α) :
    splitOnce separator (name ++ separator :: value) = some (name, value) := by
  have all : ∀ c ∈ name, decide (c ≠ separator) = true := fun c mem =>
    decide_eq_true fun same => plain (same ▸ mem)
  unfold splitOnce
  rw [List.dropWhile_append_of_pos all, List.takeWhile_append_of_pos all,
    List.dropWhile_cons_of_neg (by simp), List.takeWhile_cons_of_neg (by simp), List.append_nil]

/-- Keyed lines read back as they were written exactly if no value holds the terminator. -/
theorem decode_encode_iff (entries : List (List α × List α)) (apart : separator ≠ terminator)
    (names : ∀ entry ∈ entries, separator ∉ entry.1 ∧ terminator ∉ entry.1) :
    decode separator terminator (encode separator terminator entries) = entries.map some ↔
      ∀ entry ∈ entries, terminator ∉ entry.2 := by
  induction entries with
  | nil => exact ⟨fun _ _ mem => absurd mem List.not_mem_nil, fun _ => rfl⟩
  | cons entry rest ih =>
      obtain ⟨noSeparator, noTerminator⟩ := names entry List.mem_cons_self
      have ih := ih fun other mem => names other (List.mem_cons_of_mem _ mem)
      have text : encode separator terminator (entry :: rest) =
          (entry.1 ++ separator :: entry.2) ++ terminator :: encode separator terminator rest := by
        simp [encode]
      -- The first line ends at the first terminator of the value, or after the value.
      have first : ∀ value : List α, terminator ∉ value →
          terminator ∉ entry.1 ++ separator :: value := by
        intro value plain mem
        rcases List.mem_append.mp mem with inName | later
        · exact noTerminator inName
        · rcases List.mem_cons.mp later with same | inValue
          · exact apart same.symm
          · exact plain inValue
      rw [List.forall_mem_cons, ← ih, decode, text, List.map_cons]
      by_cases plain : terminator ∈ entry.2
      · refine ⟨fun read => ?_, fun ⟨clean, _⟩ => absurd plain clean⟩
        obtain ⟨before, after, split, clean⟩ := List.eq_append_cons_of_mem plain
        rw [split, show (entry.1 ++ separator :: (before ++ terminator :: after)) ++
            terminator :: encode separator terminator rest =
          (entry.1 ++ separator :: before) ++ terminator :: (after ++
            terminator :: encode separator terminator rest) by simp,
          lines_append _ _ (first _ clean), List.map_cons, splitOnce_append noSeparator] at read
        have short : before = entry.2 :=
          congrArg Prod.snd (Option.some.inj (List.cons.inj read).1)
        have length := congrArg List.length split
        rw [List.length_append, List.length_cons, ← short] at length
        omega
      · rw [lines_append _ _ (first _ plain), List.map_cons, splitOnce_append noSeparator]
        exact ⟨fun read => ⟨plain, (List.cons.inj read).2⟩, fun ⟨_, read⟩ => by
          rw [← read]; rfl⟩

end GmMiner.Lib.KeyedLines
