import GmMiner.Cli.Config
import GmMiner.Lib.Find
import Mathlib.Algebra.Order.BigOperators.Group.List

/-!
Environment variables put into the Envoy templates (`substitute` of `cli/src/envoy_render.rs`).

A template is its tokens and the characters between them (`Split`), whatever the environment is.
Each `__GM_<NAME>__` stands for the variable `GM_<NAME>`. The code also takes `__GM__` for a token,
whose closing underscores are those it was opened with. Where that stands outside of a token
(`Bare`) the template is not read as it should be, which does no harm only if the code was to fail
and fails all the same (`Harmless`).
-/

namespace GmMiner.Envoy

open GmMiner.Lib

def isNameChar (c : Char) : Bool := c.isUpper || c.isDigit || c == '_'

def opening : List Char := ['_', '_', 'G', 'M', '_']

def closing : List Char := ['_', '_']

/-! ### What a template is -/

/-- The variable a token stands for: `GM_` and a name, up to the first two underscores. -/
structure TokenName (name : List Char) : Prop where
  begins : ['G', 'M', '_'] <+: name
  plain : name.all isNameChar = true
  unbroken : ¬ closing <:+: name ++ ['_']

inductive Piece
  | char (c : Char)
  | token (name : List Char)
  deriving DecidableEq, Repr

def written (name rest : List Char) : List Char := closing ++ (name ++ (closing ++ rest))

/-- A text from left to right: a token where one stands, else a character. -/
inductive Split (Name : List Char → Prop) : List Char → List Piece → Prop
  | nil : Split Name [] []
  | token {name rest : List Char} {pieces : List Piece} (named : Name name)
      (split : Split Name rest pieces) : Split Name (written name rest) (.token name :: pieces)
  | char {c : Char} {rest : List Char} {pieces : List Piece}
      (other : ∀ name later, Name name → c :: rest ≠ written name later)
      (split : Split Name rest pieces) : Split Name (c :: rest) (.char c :: pieces)

/-- What stands for a piece in an environment. -/
def Piece.value (env : String → Option String) : Piece → List Char
  | char c => [c]
  | token name => ((env (String.ofList name)).getD "").toList

/-- `__GM__` stands in the template outside of its tokens. -/
inductive Bare : List Char → Prop
  | here (rest : List Char) : Bare (written ['G', 'M'] rest)
  | token {name rest : List Char} (named : TokenName name) (later : Bare rest) :
      Bare (written name rest)
  | char {c : Char} {rest : List Char}
      (other : ∀ name later, TokenName name → c :: rest ≠ written name later)
      (later : Bare rest) : Bare (c :: rest)

/-! ### What the code does -/

theorem afterOpening_shorter {rest before found : List Char}
    (start : findAt opening rest = some (before, found)) :
    (found.drop 2).length < rest.length := by
  obtain ⟨rfl, begins⟩ := findAt_eq_some start
  have long := begins.length_le
  simp only [opening, List.length_cons, List.length_append, List.length_drop] at long ⊢
  omega

/-- What follows a token is shorter. -/
theorem afterToken_shorter {rest before found name later : List Char}
    (start : findAt opening rest = some (before, found))
    (len : findAt closing (found.drop 2) = some (name, later)) :
    (later.drop 2).length < rest.length := by
  have shorter := afterOpening_shorter start
  have shape := congrArg List.length (findAt_eq_some len).1
  rw [List.length_append] at shape
  rw [List.length_drop]
  omega

section Substitute

variable (env : String → Option String) (path : String)

/-- The loop, with the text so far. -/
def substituteFrom (out rest : List Char) : Except Cli.Error (List Char) :=
  match _start : findAt opening rest with
  | none => .ok (out ++ rest)
  | some (before, found) =>
      let after := found.drop 2
      match _len : findAt closing after with
      | none => .ok (out ++ rest)
      | some (name, found) =>
          if name.all isNameChar then
            match env (String.ofList name) with
            | none =>
                Cli.bail (path ++ " uses __" ++ String.ofList name ++ "__ but " ++
                  String.ofList name ++ " is not set")
            | some value => substituteFrom (out ++ before ++ value.toList) (found.drop 2)
          else substituteFrom (out ++ before ++ closing) after
termination_by rest.length
decreasing_by
  · exact afterToken_shorter _start _len
  · exact afterOpening_shorter _start

def substitute (text : List Char) : Except Cli.Error (List Char) := substituteFrom env path [] text

/-- The pieces written one after the other. -/
def fill (out : List Char) : List Piece → Except Cli.Error (List Char)
  | [] => .ok out
  | .char c :: pieces => fill (out ++ [c]) pieces
  | .token name :: pieces =>
      match env (String.ofList name) with
      | none =>
          Cli.bail (path ++ " uses __" ++ String.ofList name ++ "__ but " ++
            String.ofList name ++ " is not set")
      | some value => fill (out ++ value.toList) pieces

/-! ### One piece -/

/-- A name the code takes: `GM`, or one that belongs to a token. -/
def CodeName (name : List Char) : Prop := name = ['G', 'M'] ∨ TokenName name

variable {env path}

theorem CodeName.plain {name : List Char} (named : CodeName name) :
    name.all isNameChar = true := by
  rcases named with rfl | named
  · rfl
  · exact named.plain

theorem CodeName.unbroken {name : List Char} (named : CodeName name) :
    ¬ closing <:+: name ++ ['_'] := by
  rcases named with rfl | named
  · decide
  · exact named.unbroken

theorem CodeName.opens {name : List Char} (named : CodeName name) (rest : List Char) :
    opening <+: written name rest := by
  rcases named with rfl | named
  · exact ⟨'_' :: rest, rfl⟩
  · obtain ⟨more, rfl⟩ := named.begins
    exact ⟨more ++ (closing ++ rest), rfl⟩

theorem substituteFrom_none {rest : List Char} (start : findAt opening rest = none)
    (out : List Char) : substituteFrom env path out rest = .ok (out ++ rest) := by
  rw [substituteFrom]
  split
  · rfl
  · simp_all

/-- One round of the loop. -/
theorem substituteFrom_some {rest before found : List Char}
    (start : findAt opening rest = some (before, found)) (out : List Char) :
    substituteFrom env path out rest =
      match findAt closing (found.drop 2) with
      | none => .ok (out ++ rest)
      | some (name, later) =>
          if name.all isNameChar then
            match env (String.ofList name) with
            | none =>
                Cli.bail (path ++ " uses __" ++ String.ofList name ++ "__ but " ++
                  String.ofList name ++ " is not set")
            | some value => substituteFrom env path (out ++ before ++ value.toList) (later.drop 2)
          else substituteFrom env path (out ++ before ++ closing) (found.drop 2) := by
  rw [substituteFrom]
  split
  · simp_all
  · rename_i first rest' same
    rw [start] at same
    cases same
    dsimp only
    split
    · simp_all
    · simp_all

/-- What the code does at a token. -/
theorem substituteFrom_token {name : List Char} (named : CodeName name) (out rest : List Char) :
    substituteFrom env path out (written name rest) =
      match env (String.ofList name) with
      | none =>
          Cli.bail (path ++ " uses __" ++ String.ofList name ++ "__ but " ++
            String.ofList name ++ " is not set")
      | some value => substituteFrom env path (out ++ value.toList) rest := by
  have len : findAt closing ((written name rest).drop 2) = some (name, closing ++ rest) :=
    findAt_append named.unbroken rest
  rw [substituteFrom_some (findAt_of_starts (named.opens rest)), len]
  simp [named.plain, closing]

/-- A name found after the opening belongs to a token, or is `GM`. -/
theorem codeName_of_found {more name later : List Char}
    (len : findAt closing ('G' :: 'M' :: '_' :: more) = some (name, later))
    (plain : name.all isNameChar = true) :
    CodeName name ∧ '_' :: '_' :: 'G' :: 'M' :: '_' :: more = written name (later.drop 2) := by
  obtain ⟨shape, rest, rfl⟩ := findAt_eq_some len
  refine ⟨?_, by rw [written, ← List.append_assoc closing, shape]; rfl⟩
  have unbroken : ¬ closing <:+: name ++ ['_'] := (findAt_clean len).resolve_left (by decide)
  match name, shape with
  | [], shape => simp [closing] at shape
  | [_], shape => simp [closing] at shape
  | [first, second], shape =>
      simp only [List.cons_append, List.cons.injEq] at shape
      obtain ⟨rfl, rfl, -⟩ := shape
      exact Or.inl rfl
  | first :: second :: third :: name, shape =>
      simp only [List.cons_append, List.cons.injEq] at shape
      obtain ⟨rfl, rfl, rfl, -⟩ := shape
      exact Or.inr ⟨⟨name, rfl⟩, plain, unbroken⟩

/-- What the code does where no token stands. -/
theorem substituteFrom_char {c : Char} {rest : List Char}
    (other : ∀ name later, CodeName name → c :: rest ≠ written name later) (out : List Char) :
    substituteFrom env path out (c :: rest) = substituteFrom env path (out ++ [c]) rest := by
  have passed : ∀ {c : Char} {rest : List Char}, ¬ opening <+: c :: rest → ∀ out : List Char,
      substituteFrom env path out (c :: rest) = substituteFrom env path (out ++ [c]) rest := by
    intro c rest unopened out
    have start := findAt_cons unopened
    cases later : findAt opening rest with
    | none =>
        rw [later] at start
        rw [substituteFrom_none start, substituteFrom_none later]
        simp
    | some parts =>
        rw [later] at start
        rw [substituteFrom_some start, substituteFrom_some later]
        simp
  by_cases opened : opening <+: c :: rest
  · obtain ⟨more, shape⟩ := opened
    cases shape
    change substituteFrom env path out ('_' :: '_' :: 'G' :: 'M' :: '_' :: more) =
      substituteFrom env path (out ++ ['_']) ('_' :: 'G' :: 'M' :: '_' :: more)
    have start : findAt opening ('_' :: '_' :: 'G' :: 'M' :: '_' :: more) =
        some ([], '_' :: '_' :: 'G' :: 'M' :: '_' :: more) := findAt_of_starts ⟨more, rfl⟩
    rw [substituteFrom_some start, List.drop_succ_cons, List.drop_succ_cons, List.drop_zero]
    cases len : findAt closing ('G' :: 'M' :: '_' :: more) with
    | none =>
        -- No opening comes later, as each begins with what closes a token.
        have unclosed := (findAt_eq_none_iff (by decide)).mp len
        have unopened : findAt opening ('_' :: 'G' :: 'M' :: '_' :: more) = none := by
          refine (findAt_eq_none_iff (by decide)).mpr fun inside => ?_
          rcases List.infix_cons_iff.mp inside with first | inside
          · obtain ⟨_, shape⟩ := first
            simp [opening] at shape
          · exact unclosed ((show closing <:+: opening from ⟨[], ['G', 'M', '_'], rfl⟩).trans
              inside)
        rw [substituteFrom_none unopened]
        simp
    | some parts =>
        obtain ⟨name, later⟩ := parts
        by_cases plain : name.all isNameChar = true
        · obtain ⟨named, same⟩ := codeName_of_found len plain
          exact absurd same (other _ _ named)
        · have unopened : ¬ opening <+: '_' :: 'G' :: 'M' :: '_' :: more := by
            rintro ⟨_, shape⟩
            simp [opening] at shape
          rw [passed unopened]
          simp [plain, closing]
  · exact passed opened out

/-! ### The whole template -/

/-- The code writes the pieces of its own split. -/
theorem substituteFrom_split {text : List Char} {pieces : List Piece}
    (split : Split CodeName text pieces) (out : List Char) :
    substituteFrom env path out text = fill env path out pieces := by
  induction split generalizing out with
  | nil => rw [substituteFrom_none rfl, List.append_nil, fill]
  | @token name rest pieces named _ ih =>
      rw [substituteFrom_token named, fill]
      cases env (String.ofList name) with
      | none => rfl
      | some value => exact ih _
  | char other _ ih => rw [substituteFrom_char other, ih, fill]

/-- Tokens are filled exactly if all of them are set. -/
theorem fill_eq_ok {pieces : List Piece} {out result : List Char} :
    fill env path out pieces = .ok result ↔
      (∀ name, .token name ∈ pieces → (env (String.ofList name)).isSome) ∧
        result = out ++ pieces.flatMap (Piece.value env) := by
  induction pieces generalizing out with
  | nil =>
      rw [fill, Except.ok.injEq, List.flatMap_nil, List.append_nil, eq_comm]
      simp
  | cons piece pieces ih =>
      cases piece with
      | char c =>
          rw [fill, ih]
          simp [Piece.value]
      | token name =>
          rw [fill]
          cases set : env (String.ofList name) with
          | none => simp [Cli.bail, set]
          | some value =>
              dsimp only
              rw [ih]
              simp [Piece.value, set]

/-- The tokens of a split have the names it allows. -/
theorem Split.names {Name : List Char → Prop} {text : List Char} {pieces : List Piece}
    (split : Split Name text pieces) {name : List Char} (held : .token name ∈ pieces) :
    Name name := by
  induction split with
  | nil => cases held
  | token named _ ih =>
      rcases List.mem_cons.mp held with same | held
      · cases same
        exact named
      · exact ih held
  | char _ _ ih =>
      rcases List.mem_cons.mp held with same | held
      · cases same
      · exact ih held

/-- Every text has its pieces. -/
theorem exists_split (Name : List Char → Prop) :
    ∀ text : List Char, ∃ pieces, Split Name text pieces
  | [] => ⟨[], .nil⟩
  | c :: rest => by
      by_cases here : ∃ name later, Name name ∧ c :: rest = written name later
      · obtain ⟨name, later, named, shape⟩ := here
        have shorter : later.length < (c :: rest).length := by
          rw [shape, written]
          simp [closing]
          omega
        obtain ⟨pieces, split⟩ := exists_split Name later
        rw [shape]
        exact ⟨_, .token named split⟩
      · obtain ⟨pieces, split⟩ := exists_split Name rest
        exact ⟨_, .char (fun name later named shape => here ⟨name, later, named, shape⟩) split⟩
termination_by text => text.length
decreasing_by
  · exact shorter
  · exact Nat.lt_succ_self _

/-- Without a bare `__GM__` the code sees the tokens that are there. -/
theorem Split.codeName {text : List Char} {pieces : List Piece} (split : Split TokenName text pieces)
    (clean : ¬ Bare text) : Split CodeName text pieces := by
  induction split with
  | nil => exact .nil
  | token named _ ih => exact .token (Or.inr named) (ih fun later => clean (.token named later))
  | char other _ ih =>
      refine .char ?_ (ih fun later => clean (.char other later))
      intro name later named shape
      rcases named with rfl | named
      · rw [shape] at clean
        exact clean (.here later)
      · exact other name later named shape

theorem TokenName.ne_GM {name : List Char} (named : TokenName name) : String.ofList name ≠ "GM" := by
  intro same
  have short := named.begins.length_le
  rw [show name = ['G', 'M'] by rw [← String.toList_ofList (l := name), same]; rfl] at short
  exact absurd short (by decide)

/-- An environment of every variable but `GM`. -/
def withoutGM (name : String) : Option String := if name = "GM" then none else some ""

/-- A bare `__GM__` asks for the variable `GM`. -/
theorem Bare.fails {text : List Char} (bare : Bare text) (out result : List Char) :
    substituteFrom withoutGM path out text ≠ .ok result := by
  induction bare generalizing out with
  | here rest =>
      rw [substituteFrom_token (Or.inl rfl)]
      simp [withoutGM, Cli.bail]
  | token named _ ih =>
      rw [substituteFrom_token (Or.inr named), withoutGM, if_neg named.ne_GM]
      exact ih _
  | @char c rest other _ ih =>
      by_cases here : ∃ later, c :: rest = written ['G', 'M'] later
      · obtain ⟨later, shape⟩ := here
        rw [shape, substituteFrom_token (Or.inl rfl)]
        simp [withoutGM, Cli.bail]
      · have other' : ∀ name later, CodeName name → c :: rest ≠ written name later := by
          intro name later named shape
          rcases named with rfl | named
          · exact here ⟨later, shape⟩
          · exact other name later named shape
        rw [substituteFrom_char other']
        exact ih _

/-- The code's own pieces of a template with a bare `__GM__` have one for the variable `GM`. -/
theorem Bare.exists_token {text : List Char} (bare : Bare text) {pieces : List Piece}
    (split : Split CodeName text pieces) :
    ∃ name, .token name ∈ pieces ∧ String.ofList name = "GM" := by
  by_contra absent
  refine @Bare.fails "" _ bare [] (pieces.flatMap (Piece.value withoutGM)) ?_
  rw [substituteFrom_split split, fill_eq_ok, List.nil_append]
  refine ⟨fun name held => ?_, rfl⟩
  rw [withoutGM, if_neg fun same => absent ⟨name, held, same⟩]
  rfl

/-! ### When the code is right -/

/-- A token among the pieces is not set. -/
def Unset (env : String → Option String) (pieces : List Piece) : Prop :=
  ∃ name, .token name ∈ pieces ∧ env (String.ofList name) = none

/-- The code puts the values in for the tokens of a template if all of them are set, and
fails otherwise. -/
def ReadRight (env : String → Option String) (path : String) (text : List Char)
    (pieces : List Piece) : Prop :=
  ∀ out, substitute env path text = .ok out ↔
    (∀ name, .token name ∈ pieces → (env (String.ofList name)).isSome) ∧
      out = pieces.flatMap (Piece.value env)

/-- The code sees the tokens that are there; or one of them is not set, and nor is one of
those it sees. -/
def Harmless (env : String → Option String) (text : List Char) (pieces : List Piece) : Prop :=
  ¬ Bare text ∨
    Unset env pieces ∧ ∃ codePieces, Split CodeName text codePieces ∧ Unset env codePieces

theorem unset_iff {pieces : List Piece} :
    Unset env pieces ↔ ¬ ∀ name, .token name ∈ pieces → (env (String.ofList name)).isSome := by
  simp only [Unset, not_forall, Option.not_isSome_iff_eq_none, exists_prop]

theorem substitute_eq_ok {text : List Char} {pieces : List Piece}
    (split : Split CodeName text pieces) {out : List Char} :
    substitute env path text = .ok out ↔
      ¬ Unset env pieces ∧ out = pieces.flatMap (Piece.value env) := by
  rw [substitute, substituteFrom_split split, fill_eq_ok, List.nil_append, unset_iff, not_not]

theorem Harmless.readRight {text : List Char} {pieces : List Piece}
    (harmless : Harmless env text pieces) (split : Split TokenName text pieces) :
    ReadRight env path text pieces := by
  intro out
  rcases harmless with clean | ⟨unset, codePieces, codeSplit, codeUnset⟩
  · rw [substitute_eq_ok (split.codeName clean), unset_iff, not_not]
  · rw [substitute_eq_ok codeSplit]
    exact iff_of_false (fun right => right.1 codeUnset) fun right => unset_iff.mp unset right.1

theorem Harmless.of_codeUnset {text : List Char} {pieces codePieces : List Piece}
    (right : ReadRight env path text pieces) (codeSplit : Split CodeName text codePieces)
    (codeUnset : Unset env codePieces) : Harmless env text pieces := by
  refine .inr ⟨unset_iff.mpr fun set => ?_, codePieces, codeSplit, codeUnset⟩
  exact ((substitute_eq_ok codeSplit).mp ((right _).mpr ⟨set, rfl⟩)).1 codeUnset

/-- The environment with a longer `GM`, if that is set at all. -/
def longerGM (env : String → Option String) (name : String) : Option String :=
  if name = "GM" then (env name).map (· ++ "x") else env name

theorem isSome_longerGM (env : String → Option String) (name : String) :
    (longerGM env name).isSome = (env name).isSome := by
  unfold longerGM
  split
  · exact Option.isSome_map
  · rfl

theorem values_longerGM {text : List Char} {pieces : List Piece}
    (split : Split TokenName text pieces) :
    pieces.flatMap (Piece.value (longerGM env)) = pieces.flatMap (Piece.value env) := by
  refine List.flatMap_congr fun piece held => ?_
  cases piece with
  | char c => rfl
  | token name => rw [Piece.value, Piece.value, longerGM, if_neg (split.names held).ne_GM]

/-- A text that has the value of `GM` put in gets longer with it. -/
theorem length_values_longerGM {pieces : List Piece} {name : List Char} {value : String}
    (held : .token name ∈ pieces) (named : String.ofList name = "GM") (set : env "GM" = some value) :
    (pieces.flatMap (Piece.value env)).length <
      (pieces.flatMap (Piece.value (longerGM env))).length := by
  rw [List.length_flatMap, List.length_flatMap]
  refine List.sum_lt_sum _ _ (fun piece _ => ?_) ⟨_, held, ?_⟩
  · cases piece with
    | char c => exact le_rfl
    | token name =>
        rw [Piece.value, Piece.value, longerGM]
        split
        · cases env (String.ofList name) with
          | none => exact le_rfl
          | some value => simp
        · exact le_rfl
  · rw [Piece.value, Piece.value, longerGM, if_pos named, named, set]
    simp

/-- Whatever the values of the variables that are set, `substitute` puts them in for the tokens
of a template exactly when no `__GM__` stands outside of these, or a token is not set and the
code comes to one that is not set either. Without a variable `GM` this is so of each environment
by itself. -/
theorem substitute_iff (env : String → Option String) (path : String) (text : List Char) :
    (∃ pieces, Split TokenName text pieces) ∧
      ∀ pieces, Split TokenName text pieces →
        ((∀ values, (∀ name, (values name).isSome = (env name).isSome) →
            ReadRight values path text pieces) ↔ Harmless env text pieces) ∧
        (env "GM" = none → (ReadRight env path text pieces ↔ Harmless env text pieces)) := by
  refine ⟨exists_split TokenName text, fun pieces split => ?_⟩
  obtain ⟨codePieces, codeSplit⟩ := exists_split CodeName text
  -- Which variables are set decides; their values do not.
  have unset_congr : ∀ {values : String → Option String},
      (∀ name, (values name).isSome = (env name).isSome) → ∀ pieces,
      Unset values pieces ↔ Unset env pieces := by
    intro values alike pieces
    refine exists_congr fun name => and_congr_right fun _ => ?_
    rw [← Option.not_isSome_iff_eq_none, alike, Option.not_isSome_iff_eq_none]
  refine ⟨⟨fun right => ?_, fun harmless values alike => ?_⟩, fun noGM => ⟨fun right => ?_, ?_⟩⟩
  · by_cases bare : Bare text
    · by_cases codeUnset : Unset env codePieces
      · exact .of_codeUnset (right env fun _ => rfl) codeSplit codeUnset
      · -- The code puts `GM` in, so with a longer value its text is a longer one.
        have outputs : ∀ {values : String → Option String},
            (∀ name, (values name).isSome = (env name).isSome) →
            codePieces.flatMap (Piece.value values) = pieces.flatMap (Piece.value values) := by
          intro values alike
          have wrote : substitute values path text =
              .ok (codePieces.flatMap (Piece.value values)) :=
            (substitute_eq_ok codeSplit).mpr ⟨mt (unset_congr alike codePieces).mp codeUnset, rfl⟩
          exact ((right values alike _).mp wrote).2
        obtain ⟨name, held, named⟩ := bare.exists_token codeSplit
        obtain ⟨value, set⟩ : ∃ value, env "GM" = some value := by
          rw [← Option.isSome_iff_exists, ← named]
          exact not_not.mp (mt unset_iff.mpr codeUnset) name held
        have longer := length_values_longerGM held named set
        rw [outputs fun _ => rfl, outputs (isSome_longerGM env), values_longerGM split] at longer
        exact absurd longer (Nat.lt_irrefl _)
    · exact .inl bare
  · refine Harmless.readRight (harmless.imp_right fun ⟨unset, read⟩ => ?_) split
    obtain ⟨others, otherSplit, otherUnset⟩ := read
    exact ⟨(unset_congr alike _).mpr unset, others, otherSplit, (unset_congr alike _).mpr otherUnset⟩
  · by_cases bare : Bare text
    · obtain ⟨name, held, named⟩ := bare.exists_token codeSplit
      exact .of_codeUnset right codeSplit ⟨name, held, named ▸ noGM⟩
    · exact .inl bare
  · exact fun harmless => harmless.readRight split

/-- The template `__GM__` holds no token and is not returned as it is. -/
theorem bareGM_refused :
    Split TokenName (written ['G', 'M'] []) ((written ['G', 'M'] []).map .char) ∧
      substitute (fun _ => none) "base.yaml" (written ['G', 'M'] []) =
        .error ["base.yaml uses __GM__ but GM is not set"] := by
  have tokenless : ∀ text : List Char, text.length < 7 →
      Split TokenName text (text.map .char) := by
    intro text
    induction text with
    | nil => exact fun _ => .nil
    | cons c rest ih =>
        intro short
        refine .char ?_ (ih (Nat.lt_of_succ_lt short))
        intro name later named shape
        have long := named.begins.length_le
        rw [shape, written] at short
        simp only [closing, List.length_append, List.length_cons, List.length_nil] at short long
        omega
  refine ⟨tokenless _ (by decide), ?_⟩
  rw [substitute, substituteFrom_token (Or.inl rfl)]
  rfl

end Substitute

end GmMiner.Envoy
