import GmMiner.Lib.Machine
import GmMiner.Text

/-!
A part of Lua as source text: string literals, `nil`, `true`, `false`, and table constructors whose
fields are named.

Bytes are read into tokens by one machine and tokens into a value by another. What is not in this
part of the language (a variable, a call, an operator, a comment, a long bracket) has no value here,
so that a source with a value does nothing but make it.
-/

namespace GmMiner.Lib.Lua

/-! ### Tokens -/

inductive Token
  | string (bytes : Bytes)
  | name (name : String)
  | symbol (symbol : Char)
  deriving DecidableEq, Repr

def isSpace (byte : UInt8) : Bool := byte == 32 || (9 ≤ byte && byte ≤ 13)

def isDigit (byte : UInt8) : Bool := 48 ≤ byte && byte ≤ 57

def isNameStart (byte : UInt8) : Bool :=
  (65 ≤ byte && byte ≤ 90) || (97 ≤ byte && byte ≤ 122) || byte == 95

/-- Where the reading of the source stands. -/
inductive Mode
  | between
  /-- After `[` or `=`, which another symbol may prolong. -/
  | after (symbol : Char)
  | name (read : List Char)
  /-- In a string, with its bytes so far. -/
  | text (read : Bytes)
  | escape (read : Bytes)
  /-- In a decimal escape, with how many digits may follow. -/
  | decimal (read : Bytes) (left value : Nat)
  deriving DecidableEq, Repr

/-- A byte that begins something. -/
def fresh (byte : UInt8) : Option (Mode × List Token) :=
  let c := Char.ofNat byte.toNat
  if isSpace byte then some (.between, [])
  else if isNameStart byte then some (.name [c], [])
  else if c = '"' then some (.text [], [])
  else if c = '[' ∨ c = '=' then some (.after c, [])
  else if c ∈ ['{', '}', ']', ',', ';'] then some (.between, [.symbol c])
  else none

/-- The escapes of one letter. -/
def letterEscape (byte : UInt8) : Option UInt8 :=
  match Char.ofNat byte.toNat with
  | '\\' => some 92
  | '"' => some 34
  | '\'' => some 39
  | '\n' => some 10
  | 'a' => some 7
  | 'b' => some 8
  | 't' => some 9
  | 'n' => some 10
  | 'v' => some 11
  | 'f' => some 12
  | 'r' => some 13
  | _ => none

/-- A byte in a string; a line break may not stand there. -/
def inText (read : Bytes) (byte : UInt8) : Option (Mode × List Token) :=
  if byte = 34 then some (.between, [.string read])
  else if byte = 92 then some (.escape read, [])
  else if byte = 10 ∨ byte = 13 then none
  else some (.text (read ++ [byte]), [])

/-- One byte: where the reading stands then, and the tokens that ended, newest first. -/
def scan (mode : Mode) (byte : UInt8) : Option (Mode × List Token) :=
  match mode with
  | .between => fresh byte
  | .after symbol =>
      if byte = 61 ∨ (symbol = '[' ∧ byte = 91) then none
      else (fresh byte).map fun next => (next.1, next.2 ++ [.symbol symbol])
  | .name read =>
      if isNameStart byte || isDigit byte then
        some (.name (read ++ [Char.ofNat byte.toNat]), [])
      else (fresh byte).map fun next => (next.1, next.2 ++ [.name (String.ofList read)])
  | .text read => inText read byte
  | .escape read =>
      if isDigit byte then some (.decimal read 2 (byte.toNat - 48), [])
      else (letterEscape byte).map fun escaped => (.text (read ++ [escaped]), [])
  | .decimal read left value =>
      if left ≠ 0 ∧ isDigit byte = true then
        some (.decimal read (left - 1) (10 * value + (byte.toNat - 48)), [])
      else if 255 < value then none
      else inText (read ++ [UInt8.ofNat value]) byte

structure Lexer where
  mode : Mode := .between
  /-- Newest first. -/
  tokens : List Token := []
  deriving DecidableEq, Repr

def lexer : Machine Lexer UInt8 where
  init := {}
  step state byte :=
    (scan state.mode byte).map fun next => ⟨next.1, next.2 ++ state.tokens⟩

/-- The tokens, newest first, if the source may end here. -/
def Lexer.ended (state : Lexer) : Option (List Token) :=
  match state.mode with
  | .between => some state.tokens
  | .after symbol => some (.symbol symbol :: state.tokens)
  | .name read => some (.name (String.ofList read) :: state.tokens)
  | .text _ | .escape _ | .decimal _ _ _ => none

/-- One byte scanned, the lexer goes on. -/
theorem exec_scan {mode next : Mode} {byte : UInt8} {new : List Token}
    (scanned : scan mode byte = some (next, new)) (tokens : List Token) (rest : Bytes) :
    lexer.exec ⟨mode, tokens⟩ (byte :: rest) = lexer.exec ⟨next, new ++ tokens⟩ rest := by
  rw [Machine.exec_cons]
  change ((scan mode byte).map _).bind _ = _
  rw [scanned]
  rfl

/-- What is read does not depend on the tokens before it. -/
theorem exec_after {mode : Mode} {bytes : Bytes} {state : Lexer}
    (read : lexer.exec ⟨mode, []⟩ bytes = some state) (before : List Token) :
    lexer.exec ⟨mode, before⟩ bytes = some ⟨state.mode, state.tokens ++ before⟩ := by
  -- The tokens are only ever put in front, so what was read before stays behind.
  have framed : ∀ (bytes : Bytes) (mode : Mode) (first : List Token),
      lexer.exec ⟨mode, first ++ before⟩ bytes =
        (lexer.exec ⟨mode, first⟩ bytes).map fun state => ⟨state.mode, state.tokens ++ before⟩ := by
    intro bytes
    induction bytes with
    | nil => exact fun _ _ => rfl
    | cons byte rest ih =>
        intro mode first
        rw [Machine.exec_cons, Machine.exec_cons]
        change ((scan mode byte).map _).bind _ = (((scan mode byte).map _).bind _).map _
        cases scan mode byte with
        | none => rfl
        | some next =>
            dsimp only [Option.map_some, Option.bind_some]
            rw [← List.append_assoc]
            exact ih next.1 (next.2 ++ first)
  have same := framed bytes mode []
  rw [List.nil_append] at same
  rw [same, read]
  rfl

/-! ### Strings -/

/-- A byte that stands for itself in a string. -/
def Plain (byte : UInt8) : Prop := byte ≠ 34 ∧ byte ≠ 92 ∧ byte ≠ 10 ∧ byte ≠ 13

/-- Plain bytes join the string read so far. -/
theorem exec_plain {bytes : Bytes} (plain : ∀ byte ∈ bytes, Plain byte) (read : Bytes)
    (tokens : List Token) (rest : Bytes) :
    lexer.exec ⟨.text read, tokens⟩ (bytes ++ rest) =
      lexer.exec ⟨.text (read ++ bytes), tokens⟩ rest := by
  induction bytes generalizing read with
  | nil => rw [List.nil_append, List.append_nil]
  | cons byte bytes ih =>
      obtain ⟨⟨notQuote, notBackslash, notLf, notCr⟩, later⟩ := List.forall_mem_cons.mp plain
      have here : scan (.text read) byte = some (.text (read ++ [byte]), []) := by
        rw [scan, inText, if_neg notQuote, if_neg notBackslash, if_neg (not_or.mpr ⟨notLf, notCr⟩)]
      rw [List.cons_append, exec_scan here, List.nil_append, ih later, List.append_assoc]
      rfl

/-- An escaped letter joins the string as the byte it stands for. -/
theorem exec_letter {letter byte : UInt8} (notDigit : isDigit letter = false)
    (escaped : letterEscape letter = some byte) (read : Bytes) (tokens : List Token)
    (rest : Bytes) :
    lexer.exec ⟨.text read, tokens⟩ (92 :: letter :: rest) =
      lexer.exec ⟨.text (read ++ [byte]), tokens⟩ rest := by
  have here : scan (.escape read) letter = some (.text (read ++ [byte]), []) := by
    rw [scan, notDigit, escaped]
    rfl
  have backslash : scan (.text read) 92 = some (.escape read, []) := rfl
  rw [exec_scan backslash, exec_scan here]
  rfl

/-- A decimal escape of three digits is over, whatever follows. -/
theorem exec_decimal {first second third : UInt8} (digits : isDigit first = true ∧
      isDigit second = true ∧ isDigit third = true) {byte : UInt8}
    (value : 10 * (10 * (first.toNat - 48) + (second.toNat - 48)) + (third.toNat - 48) =
      byte.toNat) (read : Bytes) (tokens : List Token) (next : UInt8) (rest : Bytes) :
    lexer.exec ⟨.text read, tokens⟩ (92 :: first :: second :: third :: next :: rest) =
      lexer.exec ⟨.text (read ++ [byte]), tokens⟩ (next :: rest) := by
  have one : scan (.escape read) first = some (.decimal read 2 (first.toNat - 48), []) := by
    rw [scan, if_pos digits.1]
  have two : scan (.decimal read 2 (first.toNat - 48)) second =
      some (.decimal read 1 (10 * (first.toNat - 48) + (second.toNat - 48)), []) := by
    rw [scan, if_pos ⟨by decide, digits.2.1⟩]
  have three : scan (.decimal read 1 (10 * (first.toNat - 48) + (second.toNat - 48))) third =
      some (.decimal read 0 byte.toNat, []) := by
    rw [scan, if_pos ⟨by decide, digits.2.2⟩, value]
  -- After three digits the escape is over: the next byte is read as text.
  have complete : scan (.decimal read 0 byte.toNat) next = scan (.text (read ++ [byte])) next := by
    have small := byte.toNat_lt
    have scanned : scan (.decimal read 0 byte.toNat) next =
        inText (read ++ [UInt8.ofNat byte.toNat]) next := by
      simp only [scan]
      rw [if_neg (fun more => more.1 rfl), if_neg (by omega)]
    rw [scanned, UInt8.ofNat_toNat]
    rfl
  have backslash : scan (.text read) 92 = some (.escape read, []) := rfl
  rw [exec_scan backslash, exec_scan one, exec_scan two, exec_scan three]
  change ((scan (.decimal read 0 byte.toNat) next).map _).bind _ = _
  rw [complete]
  rfl

/-- A quote opens a string after anything but a string, and what was being read has ended. -/
theorem exec_quote {state : Lexer} {tokens : List Token} (ended : state.ended = some tokens)
    (rest : Bytes) :
    lexer.exec state (34 :: rest) = lexer.exec ⟨.text [], tokens⟩ rest := by
  obtain ⟨mode, before⟩ := state
  rw [Machine.exec_cons]
  change ((scan mode 34).map _).bind _ = _
  cases mode with
  | between =>
      cases ended
      rfl
  | after symbol =>
      cases ended
      rw [scan, if_neg (by rintro (same | ⟨-, same⟩) <;> cases same)]
      rfl
  | name read =>
      cases ended
      rfl
  | text | escape | decimal => cases ended

theorem exec_unquote (read : Bytes) (tokens : List Token) (rest : Bytes) :
    lexer.exec ⟨.text read, tokens⟩ (34 :: rest) =
      lexer.exec ⟨.between, .string read :: tokens⟩ rest := rfl

/-! ### Values -/

inductive Value
  | nil
  | boolean (truth : Bool)
  | string (bytes : Bytes)
  /-- The fields in the order of the constructor. -/
  | table (fields : List (Value × Value))

/-- What a field of a constructor comes to next. -/
inductive Expects
  | field
  | key
  | keyEnd (key : Value)
  | assign (key : Value)
  | value (key : Value)
  | separator

/-- An open constructor, with the fields so far. -/
structure Frame where
  fields : List (Value × Value)
  expects : Expects

inductive Parser
  | start
  | within (frame : Frame) (outer : List Frame)
  | done (value : Value)

/-- A value where one may stand; `nil` is no key. -/
def Parser.deliver (value : Value) : Parser → Option Parser
  | start => some (.done value)
  | within ⟨fields, .key⟩ outer =>
      match value with
      | .nil => none
      | key => some (.within ⟨fields, .keyEnd key⟩ outer)
  | within ⟨fields, .value key⟩ outer =>
      some (.within ⟨fields ++ [(key, value)], .separator⟩ outer)
  | _ => none

/-- `{` where a value may stand. -/
def Parser.opened : Parser → Option Parser
  | start => some (.within ⟨[], .field⟩ [])
  | within ⟨fields, .key⟩ outer => some (.within ⟨[], .field⟩ (⟨fields, .key⟩ :: outer))
  | within ⟨fields, .value key⟩ outer =>
      some (.within ⟨[], .field⟩ (⟨fields, .value key⟩ :: outer))
  | _ => none

/-- A table delivered to what is around it. -/
def Parser.closed (fields : List (Value × Value)) : List Frame → Option Parser
  | [] => Parser.start.deliver (.table fields)
  | frame :: outer => (Parser.within frame outer).deliver (.table fields)

def reserved : List String :=
  ["and", "break", "do", "else", "elseif", "end", "false", "for", "function", "goto", "if", "in",
    "local", "nil", "not", "or", "repeat", "return", "then", "true", "until", "while"]

def literal (name : String) : Option Value :=
  if name = "nil" then some .nil
  else if name = "true" then some (.boolean true)
  else if name = "false" then some (.boolean false)
  else none

def Parser.named (name : String) : Parser → Option Parser
  | within ⟨fields, .field⟩ outer =>
      if name ∈ reserved then none
      else some (.within ⟨fields, .assign (.string (asBytes name))⟩ outer)
  | state => (literal name).bind fun value => state.deliver value

def Parser.step (state : Parser) : Token → Option Parser
  | .string bytes => state.deliver (.string bytes)
  | .name name => state.named name
  | .symbol symbol =>
      match symbol, state with
      | '{', state => state.opened
      | '}', .within ⟨fields, .field⟩ outer => Parser.closed fields outer
      | '}', .within ⟨fields, .separator⟩ outer => Parser.closed fields outer
      | '[', .within ⟨fields, .field⟩ outer => some (.within ⟨fields, .key⟩ outer)
      | ']', .within ⟨fields, .keyEnd key⟩ outer => some (.within ⟨fields, .assign key⟩ outer)
      | '=', .within ⟨fields, .assign key⟩ outer => some (.within ⟨fields, .value key⟩ outer)
      | ',', .within ⟨fields, .separator⟩ outer => some (.within ⟨fields, .field⟩ outer)
      | ';', .within ⟨fields, .separator⟩ outer => some (.within ⟨fields, .field⟩ outer)
      | _, _ => none

def parser : Machine Parser Token := ⟨.start, Parser.step⟩

/-- A token that is a value by itself. -/
def Denotes (token : Token) (value : Value) : Prop :=
  ∀ fields key outer, (Parser.within ⟨fields, .value key⟩ outer).step token =
    some (.within ⟨fields ++ [(key, value)], .separator⟩ outer)

theorem denotes_string (bytes : Bytes) : Denotes (.string bytes) (.string bytes) :=
  fun _ _ _ => rfl

/-- A literal name stands for its value. -/
theorem denotes_name {name : String} {value : Value} (is : literal name = some value) :
    Denotes (.name name) value := by
  intro fields key outer
  change (literal name).bind _ = _
  rw [is]
  rfl

/-- One token taken, the parser goes on. -/
theorem exec_token {state next : Parser} {token : Token} (stepped : state.step token = some next)
    (rest : List Token) : parser.exec state (token :: rest) = parser.exec next rest := by
  rw [Machine.exec_cons]
  change (state.step token).bind _ = _
  rw [stepped]
  rfl

section Constructors

variable {fields : List (Value × Value)} {outer : List Frame} {token : Token} {value : Value}

/-- `name = value`. -/
theorem exec_named {name : String} (free : name ∉ reserved) (denotes : Denotes token value)
    (rest : List Token) :
    parser.exec (.within ⟨fields, .field⟩ outer) (.name name :: .symbol '=' :: token :: rest) =
      parser.exec (.within ⟨fields ++ [(.string (asBytes name), value)], .separator⟩ outer)
        rest := by
  have begun : Parser.step (.within ⟨fields, .field⟩ outer) (.name name) =
      some (.within ⟨fields, .assign (.string (asBytes name))⟩ outer) := if_neg free
  have assigned : Parser.step (.within ⟨fields, .assign (.string (asBytes name))⟩ outer)
      (.symbol '=') = some (.within ⟨fields, .value (.string (asBytes name))⟩ outer) := rfl
  rw [exec_token begun, exec_token assigned, exec_token (denotes _ _ _)]

/-- `["key"] = value`. -/
theorem exec_indexed (denotes : Denotes token value) (key : Bytes) (rest : List Token) :
    parser.exec (.within ⟨fields, .field⟩ outer)
        (.symbol '[' :: .string key :: .symbol ']' :: .symbol '=' :: token :: rest) =
      parser.exec (.within ⟨fields ++ [(.string key, value)], .separator⟩ outer) rest := by
  change parser.exec (.within ⟨fields, .value (.string key)⟩ outer) (token :: rest) = _
  exact exec_token (denotes _ _ _) rest

theorem exec_comma (rest : List Token) :
    parser.exec (.within ⟨fields, .separator⟩ outer) (.symbol ',' :: rest) =
      parser.exec (.within ⟨fields, .field⟩ outer) rest := rfl

/-- `name = {`. -/
theorem exec_named_open {name : String} (free : name ∉ reserved) (rest : List Token) :
    parser.exec (.within ⟨fields, .field⟩ outer)
        (.name name :: .symbol '=' :: .symbol '\x7b' :: rest) =
      parser.exec
        (.within ⟨[], .field⟩ (⟨fields, .value (.string (asBytes name))⟩ :: outer)) rest := by
  have begun : Parser.step (.within ⟨fields, .field⟩ outer) (.name name) =
      some (.within ⟨fields, .assign (.string (asBytes name))⟩ outer) := if_neg free
  rw [exec_token begun]
  rfl

/-- `["key"] = {`. -/
theorem exec_indexed_open (key : Bytes) (rest : List Token) :
    parser.exec (.within ⟨fields, .field⟩ outer)
        (.symbol '[' :: .string key :: .symbol ']' :: .symbol '=' :: .symbol '\x7b' :: rest) =
      parser.exec (.within ⟨[], .field⟩ (⟨fields, .value (.string key)⟩ :: outer)) rest := rfl

/-- `}` of a table that is a field. -/
theorem exec_close {within : List (Value × Value)} {key : Value} {expects : Expects}
    (complete : expects = .field ∨ expects = .separator) (rest : List Token) :
    parser.exec (.within ⟨within, expects⟩ (⟨fields, .value key⟩ :: outer))
        (.symbol '\x7d' :: rest) =
      parser.exec (.within ⟨fields ++ [(key, .table within)], .separator⟩ outer) rest := by
  rcases complete with rfl | rfl
  · rfl
  · rfl

end Constructors

/-- The value of a source that is one expression. -/
def evaluate (source : Bytes) : Option Value :=
  ((lexer.run source).bind Lexer.ended).bind fun tokens =>
    (parser.run tokens.reverse).bind fun
      | .done value => some value
      | _ => none

end GmMiner.Lib.Lua
