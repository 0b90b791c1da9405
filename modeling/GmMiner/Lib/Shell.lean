import GmMiner.Lib.Machine
import Mathlib.Data.List.Basic

/-!
A part of the POSIX shell's command language: lines of words, quoted by single quotes and
backslashes, of which each is an `export` of assignments.

What is not in this part (an operator, an expansion, a double quote, another command) has no meaning
here, so that a text with a meaning does nothing but assign.
-/

namespace GmMiner.Lib.Shell

abbrev Word := List Char

inductive Quoting
  | unquoted
  | single
  | backslash
  deriving DecidableEq, Repr

/-- The words so far: of the open line, and of the lines before. -/
structure Reader where
  quoting : Quoting := .unquoted
  word : Option Word := none
  line : List Word := []
  commands : List (List Word) := []
  deriving DecidableEq, Repr

/-- The characters that mean something to the shell when they stand unquoted. -/
def isActive (c : Char) : Bool :=
  c ∈ ['"', '$', '\x60', '*', '?', '[', '~', '#', '&', '|', ';', '<', '>', '(', ')', '!', '\x7b',
    '\x7d', '\x00', '\'', '\\', ' ', '\t', '\n']

namespace Reader

def push (reader : Reader) (c : Char) : Reader :=
  { reader with word := some (reader.word.getD [] ++ [c]) }

/-- A word is there once it was begun, be it empty. -/
def endWord (reader : Reader) : Reader :=
  { reader with word := none, line := reader.line ++ reader.word.toList }

def endLine (reader : Reader) : Reader :=
  let reader := reader.endWord
  if reader.line = [] then reader
  else { reader with line := [], commands := reader.commands ++ [reader.line] }

def step (reader : Reader) (c : Char) : Option Reader :=
  match reader.quoting with
  | .single =>
      if c = '\'' then some { reader with quoting := .unquoted }
      else if c = '\x00' then none
      else some (reader.push c)
  | .backslash =>
      if c = '\n' then some { reader with quoting := .unquoted }
      else if c = '\x00' then none
      else some { reader.push c with quoting := .unquoted }
  | .unquoted =>
      if c = '\n' then some reader.endLine
      else if c = ' ' ∨ c = '\t' then some reader.endWord
      else if c = '\'' then
        some { reader with quoting := .single, word := some (reader.word.getD []) }
      else if c = '\\' then some { reader with quoting := .backslash }
      else if isActive c then none
      else some (reader.push c)

/-- The commands, if the text may end here. -/
def ended (reader : Reader) : Option (List (List Word)) :=
  match reader.quoting with
  | .unquoted => some reader.endLine.commands
  | .single | .backslash => none

end Reader

def reader : Machine Reader Char := ⟨{}, Reader.step⟩

def isNameStart (c : Char) : Bool := c.isAlpha || c == '_'

/-- The name of a variable. -/
def isName : List Char → Bool
  | [] => false
  | c :: rest => isNameStart c && rest.all fun c => isNameStart c || c.isDigit

/-- `NAME=value`. -/
def assignment (word : Word) : Option (List Char × List Char) :=
  match word.dropWhile (· != '=') with
  | _ :: value =>
      let name := word.takeWhile (· != '=')
      if isName name then some (name, value) else none
  | [] => none

/-- What a command assigns. -/
def exported (command : List Word) : Option (List (List Char × List Char)) :=
  match command with
  | ['e', 'x', 'p', 'o', 'r', 't'] :: words => words.mapM assignment
  | _ => none

/-- The assignments of a text, in order. -/
def evaluate (text : List Char) : Option (List (List Char × List Char)) :=
  ((reader.run text).bind Reader.ended).bind fun commands =>
    (commands.mapM exported).map List.flatten

/-! ### Reading -/

section Reading

variable {line : List Word} {commands : List (List Word)}

/-- One character read, the reader goes on. -/
theorem exec_step {before next : Reader} {c : Char} (stepped : before.step c = some next)
    (rest : List Char) : reader.exec before (c :: rest) = reader.exec next rest := by
  rw [Machine.exec_cons]
  change (before.step c).bind _ = _
  rw [stepped]
  rfl

/-- An inert character joins the unquoted word. -/
theorem step_inert {c : Char} (inert : isActive c = false) (word : Option Word) :
    Reader.step ⟨.unquoted, word, line, commands⟩ c =
      some ⟨.unquoted, some (word.getD [] ++ [c]), line, commands⟩ := by
  have apart : ∀ active : Char, isActive active = true → c ≠ active := by
    rintro active is rfl
    rw [inert] at is
    cases is
  simp only [Reader.step]
  rw [if_neg (apart _ rfl), if_neg (not_or.mpr ⟨apart _ rfl, apart _ rfl⟩),
    if_neg (apart _ rfl), if_neg (apart _ rfl), inert]
  rfl

/-- A word begins. -/
theorem exec_begin {c : Char} (inert : isActive c = false) (rest : List Char) :
    reader.exec ⟨.unquoted, none, line, commands⟩ (c :: rest) =
      reader.exec ⟨.unquoted, some [c], line, commands⟩ rest :=
  exec_step (step_inert inert none) rest

/-- Characters without a meaning are part of a word. -/
theorem exec_inert {chars : List Char} (inert : ∀ c ∈ chars, isActive c = false) (word : Word)
    (rest : List Char) :
    reader.exec ⟨.unquoted, some word, line, commands⟩ (chars ++ rest) =
      reader.exec ⟨.unquoted, some (word ++ chars), line, commands⟩ rest := by
  induction chars generalizing word with
  | nil => rw [List.nil_append, List.append_nil]
  | cons c chars ih =>
      obtain ⟨here, later⟩ := List.forall_mem_cons.mp inert
      have stepped : Reader.step ⟨.unquoted, some word, line, commands⟩ c = _ :=
        step_inert here (some word)
      rw [List.cons_append, exec_step stepped, ih later, Option.getD_some, List.append_assoc]
      rfl

/-- Inside single quotes every character but NUL and the quote stands for itself. -/
theorem exec_single {c : Char} (notQuote : c ≠ '\'') (notNul : c ≠ '\x00') (word : Word)
    (rest : List Char) :
    reader.exec ⟨.single, some word, line, commands⟩ (c :: rest) =
      reader.exec ⟨.single, some (word ++ [c]), line, commands⟩ rest := by
  apply exec_step
  simp only [Reader.step]
  rw [if_neg notQuote, if_neg notNul]
  rfl

/-- A quote inside of a word that is quoted: closed, escaped and opened again. -/
theorem exec_requote (word : Word) (rest : List Char) :
    reader.exec ⟨.single, some word, line, commands⟩ ('\'' :: '\\' :: '\'' :: '\'' :: rest) =
      reader.exec ⟨.single, some (word ++ ['\'']), line, commands⟩ rest := rfl

theorem exec_unquote (word : Word) (rest : List Char) :
    reader.exec ⟨.single, some word, line, commands⟩ ('\'' :: rest) =
      reader.exec ⟨.unquoted, some word, line, commands⟩ rest := rfl

/-- A line end closes the word and the command. -/
theorem exec_newline (word : Word) (rest : List Char) :
    reader.exec ⟨.unquoted, some word, line, commands⟩ ('\n' :: rest) =
      reader.exec ⟨.unquoted, none, [], commands ++ [line ++ [word]]⟩ rest := by
  apply exec_step
  have some_ : line ++ [word] ≠ [] := by simp
  change some (Reader.endLine _) = _
  simp [Reader.endLine, Reader.endWord]

end Reading

/-- A word of a name, an equals sign and a value is an assignment. -/
theorem assignment_of_name {name : List Char} (named : isName name = true) (value : List Char) :
    assignment (name ++ '=' :: value) = some (name, value) := by
  have plain : ∀ c ∈ name, (c != '=') = true := by
    have letters : ∀ c : Char, (isNameStart c || c.isDigit) = true → (c != '=') = true := by
      intro c letter
      rw [bne_iff_ne]
      rintro rfl
      exact absurd letter (by decide)
    cases name with
    | nil => exact fun _ mem => nomatch mem
    | cons first rest =>
        rw [isName, Bool.and_eq_true, List.all_eq_true] at named
        refine List.forall_mem_cons.mpr ⟨letters _ ?_, fun c mem => letters c (named.2 c mem)⟩
        rw [named.1, Bool.true_or]
  have left : (name ++ '=' :: value).takeWhile (· != '=') = name := by
    rw [List.takeWhile_append_of_pos plain]
    simp
  have right : (name ++ '=' :: value).dropWhile (· != '=') = '=' :: value := by
    rw [List.dropWhile_append_of_pos plain]
    simp
  rw [assignment, right, left]
  exact if_pos named

end GmMiner.Lib.Shell
