import GmMiner.Lib.Patterns

/-!
The text `serde_json` writes for a string, and what is found in it.

Every escape begins with a backslash. A pattern of letters is therefore found in the written text
where it is found in the string itself, but for its first letter: it may be the last letter of an
escape (`occurs_escaped`).
-/

namespace GmMiner.Json

open GmMiner.Lib GmMiner.Lib.Pattern

/-- The escapes of one letter. -/
def letterEscape : Char → Option Char
  | '"' => some '"'
  | '\\' => some '\\'
  | '\x08' => some 'b'
  | '\t' => some 't'
  | '\n' => some 'n'
  | '\x0c' => some 'f'
  | '\r' => some 'r'
  | _ => none

def escape (c : Char) : List Char :=
  match letterEscape c with
  | some letter => ['\\', letter]
  | none =>
      if c < ' ' then
        ['\\', 'u', '0', '0', Nat.digitChar (c.toNat / 16), Nat.digitChar (c.toNat % 16)]
      else [c]

def quoted (text : List Char) : List Char := '"' :: (text.flatMap escape ++ ['"'])

/-- The last letter that is written for a character. -/
def written (c : Char) : Char :=
  match letterEscape c with
  | some letter => letter
  | none => if c < ' ' then Nat.digitChar (c.toNat % 16) else c

/-- The characters that are written with a backslash. -/
def isEscaped (c : Char) : Bool := (letterEscape c).isSome || c < ' '

/-- A pattern has no character that is escaped, and begins with no letter from the inside of an
escape. -/
structure Unescaped (pattern : Pattern Char) : Prop where
  stops : ∀ c, isEscaped c = true → Stops pattern c
  starts : ∀ c ∈ ['u', '0', '1'], ∀ more, startsWith pattern (c :: more) = false

variable {pattern : Pattern Char}

/-- A pattern free of escaped characters does not begin with a backslash. -/
theorem Unescaped.backslash (plain : Unescaped pattern) : Stops pattern '\\' :=
  plain.stops '\\' rfl

/-- A pattern free of escaped characters does not begin with a quote. -/
theorem Unescaped.quote (plain : Unescaped pattern) : Stops pattern '"' :=
  plain.stops '"' rfl

/-- What is written for a character that is escaped: a backslash, letters from the inside of an
escape, and the last one. -/
theorem escape_of_isEscaped {c : Char} (escaped : isEscaped c = true) :
    ∃ inside, (∀ d ∈ inside, d ∈ ['u', '0', '1']) ∧ escape c = '\\' :: (inside ++ [written c]) := by
  unfold isEscaped at escaped
  unfold escape written
  cases byLetter : letterEscape c with
  | some letter => exact ⟨[], fun d mem => (List.not_mem_nil mem).elim, rfl⟩
  | none =>
      rw [byLetter, Option.isSome_none, Bool.false_or, decide_eq_true_iff] at escaped
      dsimp only
      rw [if_pos escaped, if_pos escaped]
      -- A control below 32 is `u00`, a digit 0 or 1, and the last digit, which is what is written.
      refine ⟨['u', '0', '0', Nat.digitChar (c.toNat / 16)], ?_, rfl⟩
      have high : ∀ digit < 2, Nat.digitChar digit ∈ ['u', '0', '1'] := by decide
      have small : c.toNat / 16 < 2 := by
        have below : c.toNat < 32 := escaped
        omega
      intro d mem
      simp only [List.mem_cons, List.not_mem_nil, or_false] at mem
      rcases mem with rfl | rfl | rfl | rfl
      · decide
      · decide
      · decide
      · exact high _ small

/-- A character that needs no escape is written as itself. -/
theorem escape_of_not_isEscaped {c : Char} (plain : isEscaped c = false) :
    escape c = [c] ∧ written c = c := by
  unfold isEscaped at plain
  rw [Bool.or_eq_false_iff, Option.isSome_eq_false_iff, Option.isNone_iff_eq_none,
    decide_eq_false_iff_not] at plain
  unfold escape written
  rw [plain.1]
  exact ⟨if_neg plain.2, if_neg plain.2⟩

/-- No occurrence begins in the hexadecimal digits of an escape. -/
theorem occurs_inside (plain : Unescaped pattern) {inside : List Char}
    (within : ∀ d ∈ inside, d ∈ ['u', '0', '1']) (more : List Char) :
    occurs pattern (inside ++ more) = occurs pattern more := by
  induction inside with
  | nil => rfl
  | cons d inside ih =>
      rw [List.cons_append, occurs, plain.starts d (within d List.mem_cons_self), Bool.false_or,
        ih fun other mem => within other (List.mem_cons_of_mem _ mem)]

/-- A pattern as it stands in a string that is then written. -/
def asWritten : Pattern Char → Pattern Char
  | [] => []
  | accepts :: pattern => (fun c => accepts (written c)) :: pattern

/-- Where a pattern of letters is found in what is written for a string. -/
theorem occurs_escaped (plain : Unescaped pattern) (some_ : pattern ≠ []) (text : List Char) :
    occurs pattern (text.flatMap escape) = occurs (asWritten pattern) text := by
  cases pattern with
  | nil => exact absurd rfl some_
  | cons accepts pattern =>
      -- Character by character: whether a part of the pattern begins there, and whether it
      -- occurs from there on.
      refine occurs_flatMap ?_ ?_ text
      · intro rest part c more
        have stops : ∀ d, isEscaped d = true → Stops rest d := fun d escaped test mem =>
          plain.stops d escaped test (List.mem_cons_of_mem _ (part.subset mem))
        cases escaped : isEscaped c with
        | false =>
            rw [(escape_of_not_isEscaped escaped).1]
            rfl
        | true =>
            obtain ⟨inside, -, written⟩ := escape_of_isEscaped escaped
            cases rest with
            | nil => simp [startsWith]
            | cons test rest =>
                rw [written, List.cons_append,
                  startsWith_of_stops (stops '\\' rfl) (List.cons_ne_nil _ _),
                  startsWith_of_stops (stops c escaped) (List.cons_ne_nil _ _)]
      · intro c more
        cases escaped : isEscaped c with
        | false =>
            obtain ⟨same, last⟩ := escape_of_not_isEscaped escaped
            rw [same, last]
            rfl
        | true =>
            -- The backslash stops every occurrence, and none begins inside the escape.
            obtain ⟨inside, within, isWritten⟩ := escape_of_isEscaped escaped
            have behind := occurs_append_stop plain.backslash some_ []
              (inside ++ ([written c] ++ more))
            rw [isWritten, List.cons_append, List.append_assoc]
            rw [List.nil_append, ← occurs_nil_left some_] at behind
            rw [behind, occurs_inside plain within]
            rfl

/-- A string in a text is searched by itself. -/
theorem occurs_quoted (plain : Unescaped pattern) (some_ : pattern ≠ [])
    (before text after : List Char) :
    occurs pattern (before ++ (quoted text ++ after)) =
      (occurs pattern before || (occurs (asWritten pattern) text || occurs pattern after)) := by
  unfold quoted
  rw [List.cons_append, occurs_append_stop plain.quote some_, List.append_assoc,
    List.singleton_append, occurs_append_stop plain.quote some_, occurs_escaped plain some_]

/-- What is written of a nonempty pattern is nonempty. -/
theorem asWritten_ne_nil (some_ : pattern ≠ []) : asWritten pattern ≠ [] := by
  cases pattern with
  | nil => exact absurd rfl some_
  | cons => exact List.cons_ne_nil _ _

end GmMiner.Json
