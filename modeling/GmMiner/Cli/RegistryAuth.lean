import GmMiner.Cli.Slots
import GmMiner.Json.Value
import GmMiner.Lib.Split

/-!
Probing a container registry before a deploy (`cli/src/deploy/registry_auth.rs`): the Bearer
challenge of a registry, and the parts of an image reference as the command and the pre-launch
script of the CVM (`dstack/prelaunch.sh`) cut them.
-/

namespace GmMiner.Cli

open GmMiner.Lib
open GmMiner.Lib.KeyedLines (splitOnce splitOnce_append)

/-! ### Bearer challenges -/

structure BearerChallenge where
  realm : String
  service : String
  scope : Option String
  deriving DecidableEq, Repr

/-- `str::trim_matches` of one character. -/
def trimMatches (c : Char) (text : List Char) : List Char :=
  (text.dropWhile (· == c)).rdropWhile (· == c)

/-- What the loop of `parse_bearer_challenge` has read. -/
structure ChallengeParams where
  realm : Option String := none
  service : Option String := none
  scope : Option String := none
  deriving DecidableEq, Repr

def ChallengeParams.assign (params : ChallengeParams) (key value : String) : ChallengeParams :=
  if key = "realm" then { params with realm := some value }
  else if key = "service" then { params with service := some value }
  else if key = "scope" then { params with scope := some value }
  else params

/-- The key and the value of one part between commas. -/
def challengePart (part : List Char) : Option (String × String) :=
  match splitOnce '=' (trim part) with
  | none => none
  | some (key, value) =>
      some (String.ofList (trim key), String.ofList (trimMatches '"' (trim value)))

/-- The loop of `parse_bearer_challenge`. -/
def challengeParams (params : List Char) : ChallengeParams :=
  (splitAt ',' params).foldl (fun read part =>
    match challengePart part with
    | none => read
    | some (key, value) => read.assign key value) {}

def parseBearerChallenge (headerValue : String) : Option BearerChallenge := do
  let params ← stripPrefix "Bearer ".toList headerValue.toList
  let read := challengeParams params
  return ⟨← read.realm, ← read.service, read.scope⟩

example : parseBearerChallenge "Bearer realm=\"https://r/token\",service=\"r\"" =
    some ⟨"https://r/token", "r", none⟩ := by decide

/-- A parameter as a registry writes it. -/
def writeParam (param : String × String) : List Char :=
  param.1.toList ++ '=' :: '"' :: (param.2.toList ++ ['"'])

/-- The characters of a parameter's name. -/
def isNameChar (c : Char) : Bool := c != ',' && c != '=' && c != '"' && !isWhitespace c

/-- The characters of a value that is quoted as it stands. -/
def isPlainChar (c : Char) : Bool := c != '"' && c != '\\'

/-- The auth parameters of a Bearer challenge. After a comma there may be blanks. -/
structure AuthParams where
  params : List (String × String)
  gap : List Char
  realm : String
  service : String
  blank : ∀ c ∈ gap, c = ' ' ∨ c = '\t'
  names : ∀ param ∈ params, param.1.toList.all isNameChar = true
  values : ∀ param ∈ params, param.2.toList.all isPlainChar = true
  distinct : (params.map Prod.fst).Nodup
  hasRealm : ("realm", realm) ∈ params
  hasService : ("service", service) ∈ params

def AuthParams.header (auth : AuthParams) : String :=
  String.ofList ("Bearer ".toList ++ (',' :: auth.gap).intercalate (auth.params.map writeParam))

/-- What the pieces of a value behind its commas read as when they stand alone. -/
def cutReads (value : String) : List (String × String) :=
  (splitAt ',' (value.toList ++ ['"'])).tail.filterMap challengePart

/-- What the pieces of later values assign to a key last. The parameters behind the key's own count,
and all of them if it has none. -/
def reassigned (key : String) (params : List (String × String)) : Option String :=
  ((params.reverse.takeWhile (·.1 != key)).reverse.flatMap (cutReads ·.2)).reverse.lookup key

/-- A key's value has no comma, and no piece of a later value takes its place. -/
def ReadWhole (params : List (String × String)) (key : String) : Prop :=
  match params.lookup key with
  | none => reassigned key params = none
  | some value => ',' ∉ value.toList ∧ ∀ other ∈ reassigned key params, other = value

/-! ### Parts of a header -/

theorem trimStart_append {blank text : List Char} (blanks : ∀ c ∈ blank, isWhitespace c = true) :
    trimStart (blank ++ text) = trimStart text :=
  List.dropWhile_append_of_pos blanks

theorem trimStart_of_cons {c : Char} (solid : isWhitespace c = false) (rest : List Char) :
    trimStart (c :: rest) = c :: rest :=
  List.dropWhile_cons_of_neg (by simp [solid])

/-- Only what stands behind a solid character is trimmed at the end. -/
theorem trimEnd_append_cons {c : Char} (solid : isWhitespace c = false) (before after : List Char) :
    trimEnd (before ++ c :: after) = before ++ c :: trimEnd after := by
  unfold trimEnd List.rdropWhile
  rw [List.reverse_append, List.reverse_cons, List.append_assoc, List.dropWhile_append]
  split
  · rename_i gone
    rw [List.isEmpty_iff.mp gone, List.singleton_append,
      List.dropWhile_cons_of_neg (by simp [solid])]
    simp
  · simp

theorem trim_subset (text : List Char) : trim text ⊆ text :=
  fun _ mem => trimStart_subset text (trimEnd_subset _ mem)

theorem trimMatches_subset (c : Char) (text : List Char) : trimMatches c text ⊆ text :=
  fun _ mem => (List.dropWhile_suffix _).subset ((List.rdropWhile_prefix _ _).subset mem)

/-- The quotes around a value without quotes are trimmed. -/
theorem trimMatches_quoted {value : List Char} (plain : '"' ∉ value) :
    trimMatches '"' ('"' :: (value ++ ['"'])) = value := by
  have solid : ∀ c ∈ value, (c == '"') = false := fun c mem =>
    beq_eq_false_iff_ne.mpr fun same => plain (same ▸ mem)
  have start : ('"' :: (value ++ ['"'])).dropWhile (· == '"') = (value ++ ['"']).dropWhile (· == '"') :=
    List.dropWhile_cons_of_pos (by simp)
  unfold trimMatches
  rw [start]
  cases value with
  | nil => rfl
  | cons c rest =>
      have whole : (c :: rest ++ ['"']).dropWhile (· == '"') = c :: rest ++ ['"'] :=
        List.dropWhile_cons_of_neg (by simp [solid c List.mem_cons_self])
      rw [whole, List.rdropWhile_concat_pos _ _ _ (by simp)]
      refine List.rdropWhile_eq_self_iff.mpr fun some_ => ?_
      rw [solid _ (List.getLast_mem some_)]
      exact Bool.false_ne_true

/-- A part assigns a text of its own. -/
theorem challengePart_subset {part : List Char} {key value : String}
    (read : challengePart part = some (key, value)) : value.toList ⊆ part := by
  unfold challengePart at read
  split at read
  · cases read
  · rename_i name text cut
    obtain ⟨whole, -⟩ := splitOnce_eq_some.mp cut
    cases read
    rw [String.toList_ofList]
    intro c mem
    refine trim_subset part ?_
    rw [whole]
    exact List.mem_append_right _
      (List.mem_cons_of_mem _ (trim_subset text (trimMatches_subset '"' _ mem)))

theorem solid_of_isNameChar {name : List Char} (letters : name.all isNameChar = true) :
    ∀ c ∈ name, c ≠ '=' ∧ isWhitespace c = false := by
  intro c mem
  have letter := List.all_eq_true.mp letters c mem
  simp only [isNameChar, Bool.and_eq_true, bne_iff_ne, Bool.not_eq_true'] at letter
  exact ⟨letter.1.1.2, letter.2⟩

section Parts

variable {lead : List Char} {name : String}

/-- The first part of a parameter is read under the parameter's name. -/
theorem challengePart_named (blanks : ∀ c ∈ lead, isWhitespace c = true)
    (letters : name.toList.all isNameChar = true) (rest : List Char) :
    challengePart (lead ++ (name.toList ++ '=' :: '"' :: rest)) =
      some (name, String.ofList (trimMatches '"' ('"' :: trimEnd (trimEnd rest)))) := by
  have quote : isWhitespace '"' = false := by decide
  have solid := solid_of_isNameChar letters
  have start : trimStart (name.toList ++ '=' :: '"' :: rest) = name.toList ++ '=' :: '"' :: rest := by
    cases text : name.toList with
    | nil => exact trimStart_of_cons (by decide) _
    | cons c later => exact trimStart_of_cons (solid c (text ▸ List.mem_cons_self)).2 _
  have whole : trim (lead ++ (name.toList ++ '=' :: '"' :: rest)) =
      name.toList ++ '=' :: '"' :: trimEnd rest := by
    rw [trim, trimStart_append blanks, start]
    have glued := trimEnd_append_cons quote (name.toList ++ ['=']) rest
    rwa [List.append_assoc, List.append_assoc] at glued
  have nameOnly : trim name.toList = name.toList := by
    have notStart : trimStart name.toList = name.toList := by
      cases text : name.toList with
      | nil => rfl
      | cons c later => exact trimStart_of_cons (solid c (text ▸ List.mem_cons_self)).2 _
    rw [trim, notStart]
    refine List.rdropWhile_eq_self_iff.mpr fun some_ => ?_
    rw [(solid _ (List.getLast_mem some_)).2]
    exact Bool.false_ne_true
  have value : trim ('"' :: trimEnd rest) = '"' :: trimEnd (trimEnd rest) := by
    rw [trim, trimStart_of_cons quote]
    exact trimEnd_append_cons quote [] _
  unfold challengePart
  rw [whole, splitOnce_append fun mem => (solid _ mem).1 rfl]
  dsimp only
  rw [nameOnly, value, String.ofList_toList]

/-- The parts of a parameter are its own and the pieces behind the commas of its value. -/
theorem parts_of_param (blanks : ∀ c ∈ lead, isWhitespace c = true) {param : String × String}
    (letters : param.1.toList.all isNameChar = true)
    (plain : param.2.toList.all isPlainChar = true) :
    ∃ own : String, (',' ∉ param.2.toList → own = param.2) ∧ ',' ∉ own.toList ∧
      (splitAt ',' (lead ++ writeParam param)).filterMap challengePart =
        (param.1, own) :: cutReads param.2 := by
  obtain ⟨first, later, cut⟩ :=
    List.exists_cons_of_ne_nil (splitAt_ne_nil ',' (param.2.toList ++ ['"']))
  have clean : ',' ∉ lead ++ (param.1.toList ++ ['=', '"']) := by
    intro mem
    rcases List.mem_append.mp mem with gap | mem
    · exact absurd (blanks _ gap) (by decide)
    · rcases List.mem_append.mp mem with name | sign
      · exact absurd (List.all_eq_true.mp letters _ name) (by decide)
      · exact absurd sign (by decide)
  have text : lead ++ writeParam param =
      lead ++ (param.1.toList ++ ['=', '"']) ++ (param.2.toList ++ ['"']) := by
    simp [writeParam]
  have pieces := splitAt_glue clean cut
  rw [← text] at pieces
  have firstClean : ',' ∉ first := notMem_of_mem_splitAt (cut ▸ List.mem_cons_self)
  have named := challengePart_named blanks letters first
  have unquoted : '"' ∉ param.2.toList := fun mem =>
    absurd (List.all_eq_true.mp plain _ mem) (by decide)
  refine ⟨String.ofList (trimMatches '"' ('"' :: trimEnd (trimEnd first))), fun whole => ?_, ?_, ?_⟩
  · have closed : ',' ∉ param.2.toList ++ ['"'] := by
      rw [List.mem_append, not_or]
      exact ⟨whole, by decide⟩
    rw [splitAt_clean closed] at cut
    obtain ⟨rfl, -⟩ := List.cons.inj cut
    have solidQuote : isWhitespace '"' = false := by decide
    rw [trimEnd_append_cons solidQuote, trimEnd_append_cons solidQuote]
    have inner : trimEnd (trimEnd []) = ([] : List Char) := rfl
    rw [inner, trimMatches_quoted unquoted, String.ofList_toList]
  · rw [String.toList_ofList]
    intro mem
    rcases List.mem_cons.mp (trimMatches_subset '"' _ mem) with sign | inside
    · exact absurd sign (by decide)
    · exact firstClean (trimEnd_subset _ (trimEnd_subset _ inside))
  · rw [pieces, List.append_assoc, List.append_assoc, cutReads, cut]
    exact List.filterMap_cons_some named

end Parts

/-! ### The whole header -/

/-- The parts of a header, one parameter after the other: its own assignment with a text that is
the value unless that has a comma, and then the pieces behind the commas. -/
inductive Reads : List (String × String) → List (String × String) → Prop where
  | nil : Reads [] []
  | snoc {params reads : List (String × String)} {name value own : String} :
      Reads params reads → (',' ∉ value.toList → own = value) → ',' ∉ own.toList →
      Reads (params ++ [(name, value)]) (reads ++ (name, own) :: cutReads value)

namespace Reads

variable {params reads : List (String × String)} {key value : String}

theorem append (first : Reads params reads) {later laterReads : List (String × String)}
    (second : Reads later laterReads) : Reads (params ++ later) (reads ++ laterReads) := by
  induction second with
  | nil => rwa [List.append_nil, List.append_nil]
  | snoc _ whole clean ih =>
      rw [← List.append_assoc, ← List.append_assoc]
      exact ih.snoc whole clean

/-- No text with a comma is read. -/
theorem clean (read : Reads params reads) : ∀ entry ∈ reads, ',' ∉ entry.2.toList := by
  induction read with
  | nil => exact fun _ mem => absurd mem List.not_mem_nil
  | @snoc params reads name value own _ _ clean ih =>
      intro entry mem
      rcases List.mem_append.mp mem with before | mem
      · exact ih entry before
      · rcases List.mem_cons.mp mem with rfl | cut
        · exact clean
        · obtain ⟨piece, inside, read⟩ := List.mem_filterMap.mp cut
          exact fun comma => notMem_of_mem_splitAt (List.mem_of_mem_tail inside)
            (challengePart_subset read comma)

theorem reassigned_snoc_self (params : List (String × String)) (value : String) :
    reassigned key (params ++ [(key, value)]) = none := by
  unfold reassigned
  rw [List.reverse_append, List.reverse_singleton, List.singleton_append,
    List.takeWhile_cons_of_neg (by simp)]
  rfl

theorem reassigned_snoc_other {name : String} (other : name ≠ key)
    (params : List (String × String)) (value : String) :
    reassigned key (params ++ [(name, value)]) =
      ((cutReads value).reverse.lookup key).or (reassigned key params) := by
  unfold reassigned
  rw [List.reverse_append, List.reverse_singleton, List.singleton_append,
    List.takeWhile_cons_of_pos (by simp [other]), List.reverse_cons, List.flatMap_append,
    List.flatMap_singleton, List.reverse_append, List.lookup_append]

/-- Without a parameter of its own a key gets what later pieces assign. -/
theorem lookup_absent (read : Reads params reads) (absent : key ∉ params.map Prod.fst) :
    reads.reverse.lookup key = reassigned key params := by
  induction read with
  | nil => rfl
  | @snoc params reads name value own _ _ _ ih =>
      rw [List.map_append, List.mem_append, not_or] at absent
      have other : name ≠ key := fun same => absent.2 (List.mem_singleton.mpr same.symm)
      rw [reassigned_snoc_other other, ← ih absent.1, List.reverse_append, List.reverse_cons,
        List.append_assoc, List.lookup_append, List.singleton_append, List.lookup_cons,
        beq_eq_false_iff_ne.mpr (Ne.symm other)]

/-- A value without a comma is read, unless a later piece takes its place. -/
theorem lookup_present (read : Reads params reads) (distinct : (params.map Prod.fst).Nodup)
    (mem : (key, value) ∈ params) (whole : ',' ∉ value.toList) :
    reads.reverse.lookup key = some ((reassigned key params).getD value) := by
  induction read with
  | nil => exact absurd mem List.not_mem_nil
  | @snoc params reads name last own _ keeps _ ih =>
      rw [List.map_append, List.nodup_append] at distinct
      rw [List.reverse_append, List.reverse_cons, List.append_assoc, List.lookup_append,
        List.singleton_append, List.lookup_cons]
      rcases List.mem_append.mp mem with before | here
      · have other : name ≠ key := fun same => distinct.2.2 key
          (List.mem_map_of_mem before) name (List.mem_singleton.mpr rfl) same.symm
        rw [beq_eq_false_iff_ne.mpr (Ne.symm other), reassigned_snoc_other other]
        dsimp only
        rw [ih distinct.1 before]
        cases (cutReads last).reverse.lookup key <;> rfl
      · cases List.mem_singleton.mp here
        have uncut : cutReads value = [] := by
          have closed : ',' ∉ value.toList ++ ['"'] := by
            rw [List.mem_append, not_or]
            exact ⟨whole, by decide⟩
          rw [cutReads, splitAt_clean closed]
          rfl
        rw [uncut, reassigned_snoc_self, keeps whole, beq_self_eq_true]
        rfl

/-- A key is read as its parameter has it exactly if its value is read whole. -/
theorem lookup_iff (read : Reads params reads) (distinct : (params.map Prod.fst).Nodup) :
    reads.reverse.lookup key = params.lookup key ↔ ReadWhole params key := by
  unfold ReadWhole
  cases found : params.lookup key with
  | none =>
      have absent : key ∉ params.map Prod.fst := by
        intro mem
        obtain ⟨entry, inside, rfl⟩ := List.mem_map.mp mem
        exact absurd (List.lookup_eq_none_iff.mp found entry inside) (by simp)
      rw [read.lookup_absent absent]
  | some value =>
      have mem : (key, value) ∈ params := by
        obtain ⟨before, after, rfl, -⟩ := List.lookup_eq_some_iff.mp found
        exact List.mem_append_right _ List.mem_cons_self
      constructor
      · intro same
        have inside : (key, value) ∈ reads := by
          obtain ⟨before, after, here, -⟩ := List.lookup_eq_some_iff.mp same
          rw [← List.mem_reverse, here]
          exact List.mem_append_right _ List.mem_cons_self
        have whole := read.clean _ inside
        refine ⟨whole, fun other taken => ?_⟩
        rw [read.lookup_present distinct mem whole, Option.mem_def.mp taken] at same
        exact Option.some.inj same
      · rintro ⟨whole, kept⟩
        rw [read.lookup_present distinct mem whole]
        cases taken : reassigned key params with
        | none => rfl
        | some other => rw [kept other taken]; rfl

end Reads

/-- The last assignment of a key counts. -/
theorem foldl_assign (reads : List (String × String)) :
    reads.foldl (fun (read : ChallengeParams) entry => read.assign entry.1 entry.2) {} =
      ⟨reads.reverse.lookup "realm", reads.reverse.lookup "service",
        reads.reverse.lookup "scope"⟩ := by
  induction reads using List.reverseRecOn with
  | nil => rfl
  | append_singleton reads entry ih =>
      obtain ⟨key, value⟩ := entry
      rw [List.foldl_concat, ih, List.reverse_concat]
      simp only [List.lookup_cons, ChallengeParams.assign, eq_comm (a := key)]
      by_cases realm : "realm" = key
      · subst realm
        simp
      · by_cases service : "service" = key
        · subst service
          simp
        · by_cases scope : "scope" = key
          · subst scope
            simp
          · simp [realm, service, scope, beq_eq_false_iff_ne.mpr]

theorem challengeParams_eq (params : List Char) :
    challengeParams params =
      let reads := ((splitAt ',' params).filterMap challengePart).reverse
      ⟨reads.lookup "realm", reads.lookup "service", reads.lookup "scope"⟩ := by
  rw [← foldl_assign, List.foldl_filterMap, challengeParams]
  congr 1
  funext read part
  cases challengePart part <;> rfl

namespace AuthParams

theorem gap_blank (auth : AuthParams) : ∀ c ∈ auth.gap, isWhitespace c = true := by
  intro c mem
  rcases auth.blank c mem with rfl | rfl
  · decide
  · decide

/-- Behind the first parameter each one stands after a gap. -/
theorem reads_of_params (auth : AuthParams) {params : List (String × String)} {lead : List Char}
    (blanks : ∀ c ∈ lead, isWhitespace c = true) (within : params ⊆ auth.params)
    (some_ : params ≠ []) :
    Reads params ((splitAt ',' (lead ++
      (',' :: auth.gap).intercalate (params.map writeParam))).filterMap challengePart) := by
  induction params generalizing lead with
  | nil => exact absurd rfl some_
  | cons param rest ih =>
      have inside := within List.mem_cons_self
      obtain ⟨own, keeps, clean, parts⟩ := parts_of_param blanks (auth.names param inside)
        (auth.values param inside)
      have one : Reads [param] ((param.1, own) :: cutReads param.2) := Reads.nil.snoc keeps clean
      cases rest with
      | nil =>
          rw [List.map_singleton, List.intercalate_singleton, parts]
          exact one
      | cons next rest =>
          have later := ih auth.gap_blank (List.subset_of_cons_subset within) (List.cons_ne_nil _ _)
          have text : lead ++ (',' :: auth.gap).intercalate ((param :: next :: rest).map writeParam) =
              (lead ++ writeParam param) ++ ',' :: (auth.gap ++
                (',' :: auth.gap).intercalate ((next :: rest).map writeParam)) := by
            rw [List.map_cons, List.map_cons, List.intercalate_cons_cons]
            simp
          rw [text, splitAt_cut, List.filterMap_append, parts]
          exact one.append later

/-- The text of a header behind its scheme. -/
def body (auth : AuthParams) : List Char :=
  (',' :: auth.gap).intercalate (auth.params.map writeParam)

theorem parse_header (auth : AuthParams) : parseBearerChallenge auth.header = (do
    let read := challengeParams auth.body
    return ⟨← read.realm, ← read.service, read.scope⟩) := by
  have stripped : stripPrefix "Bearer ".toList auth.header.toList = some auth.body :=
    stripPrefix_eq_some.mpr String.toList_ofList
  unfold parseBearerChallenge
  rw [stripped]
  rfl

/-- A challenge gives back realm, service and scope exactly if each of them is read whole. -/
theorem parsed_iff (auth : AuthParams) :
    parseBearerChallenge auth.header =
        some ⟨auth.realm, auth.service, auth.params.lookup "scope"⟩ ↔
      ∀ key ∈ ["realm", "service", "scope"], ReadWhole auth.params key := by
  have blanks : ∀ c ∈ ([] : List Char), isWhitespace c = true := by simp
  have read := auth.reads_of_params blanks (List.Subset.refl _)
    (List.ne_nil_of_mem auth.hasRealm)
  rw [List.nil_append] at read
  rw [parse_header, challengeParams_eq]
  change Reads auth.params ((splitAt ',' auth.body).filterMap challengePart) at read
  have realm := Json.Value.lookup_of_mem auth.distinct auth.hasRealm
  have service := Json.Value.lookup_of_mem auth.distinct auth.hasService
  simp only [List.forall_mem_cons, List.not_mem_nil, false_implies, implies_true, and_true,
    ← read.lookup_iff auth.distinct, realm, service]
  generalize ((splitAt ',' auth.body).filterMap challengePart).reverse = reads
  cases reads.lookup "realm" <;> cases reads.lookup "service" <;> simp

/-- A challenge of the distribution specification, for two actions. -/
def pullPush : AuthParams where
  params := [("realm", "https://r/token"), ("service", "r"), ("scope", "repository:x:pull,push")]
  gap := []
  realm := "https://r/token"
  service := "r"
  blank := fun _ mem => absurd mem List.not_mem_nil
  names := by decide
  values := by decide
  distinct := by decide
  hasRealm := by decide
  hasService := by decide

/-- The scope is cut at the comma in it. -/
theorem pullPush_cut :
    parseBearerChallenge pullPush.header =
        some ⟨"https://r/token", "r", some "repository:x:pull"⟩ ∧
      parseBearerChallenge pullPush.header ≠
        some ⟨pullPush.realm, pullPush.service, pullPush.params.lookup "scope"⟩ := by
  decide

end AuthParams

/-! ### Image references -/

/-- What `registry_host` takes for a host. -/
def looksLikeHost (first : List Char) : Bool :=
  first == "localhost".toList || first.contains '.' || first.contains ':'

def dockerHub : List Char := "docker.io".toList

/-- The first component between slashes. -/
def firstComponent (imageRef : List Char) : List Char :=
  (splitAt '/' imageRef).head?.getD imageRef

def registryHost (imageRef : List Char) : List Char :=
  let first := firstComponent imageRef
  if looksLikeHost first then first else dockerHub

def latest : List Char := "latest".toList

/-- The name and the tag of a final component. -/
def splitTag (component : List Char) : List Char × List Char :=
  match splitOnce ':' component with
  | some (name, tag) => (name, tag)
  | none => (component, latest)

/-- A reference without its host, if `registry_host` found one in it. -/
def withoutHost (imageRef : List Char) : List Char :=
  match splitOnce '/' imageRef with
  | some (first, rest) => if first = registryHost imageRef then rest else imageRef
  | none => imageRef

def splitPath (path : List Char) : List Char × List Char :=
  match splitOnce '@' path with
  | some (repo, digest) => (repo, digest)
  | none =>
      match rsplitOnce '/' path with
      | some (lead, last) => (lead ++ '/' :: (splitTag last).1, (splitTag last).2)
      | none => splitTag path

def splitRepoReference (imageRef : List Char) : List Char × List Char :=
  splitPath (withoutHost imageRef)

/-- `${text%%c*}`. -/
def beforeFirst (c : Char) (text : List Char) : List Char :=
  text.takeWhile (· != c)

/-- `${text#*c}`. -/
def afterFirst (c : Char) (text : List Char) : List Char :=
  match splitOnce c text with
  | some (_, after) => after
  | none => text

/-- `${text##*c}`. -/
def afterLast (c : Char) (text : List Char) : List Char :=
  match rsplitOnce c text with
  | some (_, after) => after
  | none => text

def ghcr : List Char := "ghcr.io".toList

/-- The repository and the tag that the pre-launch script asks GHCR for. Other images are passed
over. -/
def prelaunchSplit (img : List Char) : Option (List Char × List Char) :=
  match stripPrefix (ghcr ++ ['/']) img with
  | none => none
  | some ref =>
      if '@' ∈ ref then some (beforeFirst '@' ref, afterFirst '@' ref)
      else
        let repo := beforeFirst ':' ref
        let tag := afterLast ':' ref
        some (repo, if tag = ref ∨ tag = repo then latest else tag)

/-- `[host/]path[:tag][@digest]`; the path is a name behind its namespaces. -/
structure ImageReference where
  host : Option (List Char)
  namespaces : List (List Char)
  name : List Char
  tag : Option (List Char)
  digest : Option (List Char)
  components : ∀ component ∈ host.toList ++ namespaces ++ [name],
    (component.all fun c => c != '/' && c != '@') = true
  hosted : ∀ first ∈ host, looksLikeHost first = true
  unhosted : host = none → ∀ first ∈ namespaces.head?, looksLikeHost first = false
  tagged : ∀ text ∈ tag, (text.all fun c => c != '/' && c != '@' && c != ':') = true

namespace ImageReference

def path (image : ImageReference) : List Char :=
  image.namespaces.flatMap (· ++ ['/']) ++ image.name

def tagText (image : ImageReference) : List Char :=
  image.tag.elim [] (':' :: ·)

/-- A reference behind its host. -/
def body (image : ImageReference) : List Char :=
  image.path ++ image.tagText ++ image.digest.elim [] ('@' :: ·)

def text (image : ImageReference) : List Char :=
  image.host.elim [] (· ++ ['/']) ++ image.body

/-- The digest, else the tag, else `latest`. -/
def reference (image : ImageReference) : List Char :=
  (image.digest.or image.tag).getD latest

/-- What both splitters are for. -/
structure SplitRight (image : ImageReference) : Prop where
  host : registryHost image.text = image.host.getD dockerHub
  repository : splitRepoReference image.text = (image.path, image.reference)
  script : image.host = some ghcr →
    prelaunchSplit image.text = some (image.path, image.reference)

/-- The references that are split as they are written. -/
structure Splits (image : ImageReference) : Prop where
  /-- A tag beside a digest stays with the repository. -/
  apart : image.tag = none ∨ image.digest = none
  name : image.digest = none → ':' ∉ image.name
  /-- A name alone is taken for a host with everything behind it. -/
  alone : image.host = none → image.namespaces = [] →
    looksLikeHost (firstComponent image.text) = true → firstComponent image.text = dockerHub
  /-- The script takes a tag that equals the repository for a missing one. -/
  script : image.host = some ghcr → image.digest = none →
    ':' ∉ image.path ∧ (image.tag = some image.path → image.path = latest)

/-! ### The host of a reference -/

theorem firstComponent_append {first : List Char} (clean : '/' ∉ first) (rest : List Char) :
    firstComponent (first ++ '/' :: rest) = first := by
  rw [firstComponent, splitAt_append clean]
  rfl

theorem slash_notMem (image : ImageReference) {component : List Char}
    (mem : component ∈ image.host.toList ++ image.namespaces ++ [image.name]) :
    '/' ∉ component ∧ '@' ∉ component := by
  have clean := List.all_eq_true.mp (image.components component mem)
  exact ⟨fun slash => absurd (clean _ slash) (by decide), fun sign => absurd (clean _ sign) (by decide)⟩

theorem name_clean (image : ImageReference) : '/' ∉ image.name ∧ '@' ∉ image.name :=
  image.slash_notMem (by simp)

/-- The tag has neither. -/
theorem tagText_clean (image : ImageReference) : '/' ∉ image.tagText ∧ '@' ∉ image.tagText := by
  unfold tagText
  cases tagged : image.tag with
  | none => exact ⟨List.not_mem_nil, List.not_mem_nil⟩
  | some tag =>
      have clean := List.all_eq_true.mp (image.tagged tag tagged)
      simp only [Option.elim_some, List.mem_cons, not_or]
      exact ⟨⟨by decide, fun slash => absurd (clean _ slash) (by decide)⟩,
        by decide, fun sign => absurd (clean _ sign) (by decide)⟩

theorem path_clean (image : ImageReference) : '@' ∉ image.path := by
  rw [path, List.mem_append, not_or, List.mem_flatMap]
  refine ⟨?_, image.name_clean.2⟩
  rintro ⟨component, mem, sign⟩
  rcases List.mem_append.mp sign with inside | slash
  · exact (image.slash_notMem (by simp [mem])).2 inside
  · exact absurd slash (by decide)

/-- With a host, the text is the host, a slash and the rest. -/
theorem text_hosted {image : ImageReference} {host : List Char} (hosted : image.host = some host) :
    image.text = host ++ '/' :: image.body ∧ '/' ∉ host ∧ registryHost image.text = host := by
  have component : host ∈ image.host.toList ++ image.namespaces ++ [image.name] := by
    simp [hosted]
  have clean := (image.slash_notMem component).1
  have text : image.text = host ++ '/' :: image.body := by
    simp [ImageReference.text, hosted]
  refine ⟨text, clean, ?_⟩
  rw [registryHost, text, firstComponent_append clean]
  exact if_pos (image.hosted host hosted)

theorem text_unhosted {image : ImageReference} (unhosted : image.host = none) :
    image.text = image.body := by
  simp [ImageReference.text, unhosted]

/-- Behind a first namespace a reference has no host. -/
theorem text_namespaced {image : ImageReference} (unhosted : image.host = none)
    {first : List Char} {more : List (List Char)} (namespaced : image.namespaces = first :: more) :
    (∃ rest, image.text = first ++ '/' :: rest) ∧ '/' ∉ first ∧
      looksLikeHost first = false := by
  refine ⟨⟨more.flatMap (· ++ ['/']) ++ image.name ++ image.tagText ++
    image.digest.elim [] ('@' :: ·), ?_⟩, (image.slash_notMem (by simp [namespaced])).1,
    image.unhosted unhosted first (by simp [namespaced])⟩
  rw [text_unhosted unhosted, body, path, namespaced]
  simp

/-- A reference's host is found unless the reference is a name alone that looks like one. -/
theorem registryHost_eq_iff (image : ImageReference) :
    registryHost image.text = image.host.getD dockerHub ↔
      (image.host = none → image.namespaces = [] →
        looksLikeHost (firstComponent image.text) = true →
        firstComponent image.text = dockerHub) := by
  cases hosted : image.host with
  | some host => simp [(text_hosted hosted).2.2]
  | none =>
      cases namespaced : image.namespaces with
      | cons first more =>
          obtain ⟨⟨rest, text⟩, clean, plain⟩ := text_namespaced hosted namespaced
          simp [registryHost, text, firstComponent_append clean, plain]
      | nil =>
          cases looks : looksLikeHost (firstComponent image.text) <;> simp [registryHost, looks]

/-- A name alone has its first slash behind an at sign, if anywhere. -/
theorem dockerHub_notFirst (image : ImageReference) (alone : image.namespaces = [])
    (unhosted : image.host = none) {rest : List Char}
    (text : image.text = dockerHub ++ '/' :: rest) : False := by
  have clean : '/' ∉ image.name ++ image.tagText := by
    rw [List.mem_append, not_or]
    exact ⟨image.name_clean.1, image.tagText_clean.1⟩
  rw [text_unhosted unhosted, body, path, alone, List.flatMap_nil, List.nil_append] at text
  cases digest : image.digest with
  | none =>
      rw [digest, Option.elim_none, List.append_nil] at text
      exact clean (text ▸ List.mem_append_right _ List.mem_cons_self)
  | some digest_ =>
      rw [digest, Option.elim_some] at text
      rcases List.append_eq_append_iff.mp text with ⟨more, hub, here⟩ | ⟨more, left, here⟩
      · cases more with
        | nil => exact absurd (List.cons.inj here).1 (by decide)
        | cons first more =>
            obtain ⟨rfl, -⟩ := List.cons.inj here
            have sign : '@' ∈ dockerHub := hub ▸ List.mem_append_right _ List.mem_cons_self
            exact absurd sign (by decide)
      · cases more with
        | nil => exact absurd (List.cons.inj here).1 (by decide)
        | cons first more =>
            obtain ⟨rfl, -⟩ := List.cons.inj here
            exact clean (left ▸ List.mem_append_right _ List.mem_cons_self)

/-- A reference that keeps its host keeps its path. -/
theorem withoutHost_eq {image : ImageReference}
    (found : registryHost image.text = image.host.getD dockerHub) :
    withoutHost image.text = image.body := by
  unfold withoutHost
  cases hosted : image.host with
  | some host =>
      obtain ⟨text, clean, same⟩ := text_hosted hosted
      rw [same, text, splitOnce_append clean]
      exact if_pos rfl
  | none =>
      rw [hosted, Option.getD_none] at found
      rw [found]
      cases cut : splitOnce '/' image.text with
      | none => exact text_unhosted hosted
      | some parts =>
          obtain ⟨first, rest⟩ := parts
          obtain ⟨text, clean⟩ := splitOnce_eq_some.mp cut
          have other : first ≠ dockerHub := by
            rintro rfl
            cases namespaced : image.namespaces with
            | nil => exact image.dockerHub_notFirst namespaced hosted text
            | cons first more =>
                obtain ⟨⟨rest', text'⟩, clean', plain⟩ := text_namespaced hosted namespaced
                rw [text] at text'
                obtain ⟨rfl, -⟩ := append_cons_inj clean clean' text'
                exact absurd plain (by decide)
          dsimp only
          rw [if_neg other]
          exact text_unhosted hosted

/-! ### The repository and the tag -/

theorem beforeFirst_append {c : Char} {before : List Char} (clean : c ∉ before) (rest : List Char) :
    beforeFirst c (before ++ c :: rest) = before := by
  unfold beforeFirst
  rw [List.takeWhile_append_of_pos, List.takeWhile_cons_of_neg (by simp), List.append_nil]
  intro d mem
  exact bne_iff_ne.mpr fun same => clean (same ▸ mem)

theorem notMem_beforeFirst (c : Char) (text : List Char) : c ∉ beforeFirst c text := by
  intro mem
  exact absurd (List.mem_takeWhile_imp mem) (by simp)

theorem beforeFirst_clean {c : Char} {text : List Char} (clean : c ∉ text) :
    beforeFirst c text = text :=
  List.takeWhile_eq_self_iff.mpr fun _ mem => bne_iff_ne.mpr fun same => clean (same ▸ mem)

/-- A name is told from its tag exactly if it has no colon. -/
theorem splitTag_eq_iff (image : ImageReference) :
    splitTag (image.name ++ image.tagText) = (image.name, image.tag.getD latest) ↔
      ':' ∉ image.name := by
  unfold splitTag tagText
  constructor
  · intro split colon
    cases cut : splitOnce ':' (image.name ++ image.tag.elim [] (':' :: ·)) with
    | none => exact splitOnce_eq_none.mp cut (List.mem_append_left _ colon)
    | some parts =>
        obtain ⟨name, tag⟩ := parts
        rw [cut] at split
        obtain ⟨-, clean⟩ := splitOnce_eq_some.mp cut
        exact clean ((Prod.mk.inj split).1 ▸ colon)
  · intro clean
    cases image.tag with
    | none =>
        rw [Option.elim_none, List.append_nil, splitOnce_eq_none.mpr clean]
        rfl
    | some tag =>
        rw [Option.elim_some, splitOnce_append clean]
        rfl

/-- Without a digest the last slash stands before the name. -/
theorem splitPath_untagged {image : ImageReference} (undigested : image.digest = none) :
    splitPath image.body =
      (image.namespaces.flatMap (· ++ ['/']) ++ (splitTag (image.name ++ image.tagText)).1,
        (splitTag (image.name ++ image.tagText)).2) := by
  have clean : '@' ∉ image.body := by
    rw [body, undigested, Option.elim_none, List.append_nil, List.mem_append, not_or]
    exact ⟨image.path_clean, image.tagText_clean.2⟩
  have last : '/' ∉ image.name ++ image.tagText := by
    rw [List.mem_append, not_or]
    exact ⟨image.name_clean.1, image.tagText_clean.1⟩
  rw [splitPath, splitOnce_eq_none.mpr clean, body, undigested, Option.elim_none, List.append_nil, path,
    List.append_assoc]
  rcases List.eq_nil_or_concat image.namespaces with alone | ⟨init, final, namespaced⟩
  · rw [alone, List.flatMap_nil, List.nil_append, List.nil_append]
    rw [rsplitOnce_eq_none.mpr last]
  · have lead : image.namespaces.flatMap (· ++ ['/']) =
        (init.flatMap (· ++ ['/']) ++ final) ++ ['/'] := by
      simp [namespaced]
    have cut : rsplitOnce '/' ((init.flatMap (· ++ ['/']) ++ final) ++
        '/' :: (image.name ++ image.tagText)) = some (_, _) := rsplitOnce_eq_some.mpr ⟨rfl, last⟩
    rw [lead, List.append_assoc, List.singleton_append, cut]
    simp

/-- A path is split as it is written exactly if its name has no colon, or its digest no tag
beside it. -/
theorem splitPath_eq_iff (image : ImageReference) :
    splitPath image.body = (image.path, image.reference) ↔
      (image.tag = none ∨ image.digest = none) ∧ (image.digest = none → ':' ∉ image.name) := by
  cases digest : image.digest with
  | none =>
      rw [splitPath_untagged digest, ← splitTag_eq_iff, path, reference, digest]
      simp [Prod.ext_iff]
  | some text =>
      have clean : '@' ∉ image.path ++ image.tagText := by
        rw [List.mem_append, not_or]
        exact ⟨image.path_clean, image.tagText_clean.2⟩
      rw [splitPath, body, digest, Option.elim_some, splitOnce_append clean, reference, digest]
      cases tag : image.tag <;> simp [tagText, tag]

/-- The script's split of what stands behind the host. -/
theorem prelaunchSplit_eq_iff {image : ImageReference} (hosted : image.host = some ghcr)
    (apart : image.tag = none ∨ image.digest = none) :
    prelaunchSplit image.text = some (image.path, image.reference) ↔
      (image.digest = none →
        ':' ∉ image.path ∧ (image.tag = some image.path → image.path = latest)) := by
  have stripped : stripPrefix (ghcr ++ ['/']) image.text = some image.body :=
    stripPrefix_eq_some.mpr ((text_hosted hosted).1.trans (List.append_cons _ _ _))
  rw [prelaunchSplit, stripped]
  dsimp only
  cases digest : image.digest with
  | some text =>
      have tag := apart.resolve_right (by simp [digest])
      have body : image.body = image.path ++ '@' :: text := by
        simp [ImageReference.body, tagText, tag, digest]
      rw [body, if_pos (List.mem_append_right _ List.mem_cons_self),
        beforeFirst_append image.path_clean, afterFirst, splitOnce_append image.path_clean, reference,
        digest]
      simp
  | none =>
      have body : image.body = image.path ++ image.tagText := by
        simp [ImageReference.body, digest]
      have unsigned : '@' ∉ image.path ++ image.tagText := by
        rw [List.mem_append, not_or]
        exact ⟨image.path_clean, image.tagText_clean.2⟩
      rw [body, if_neg unsigned, reference, digest, Option.none_or]
      by_cases colon : ':' ∈ image.path
      · -- The script cuts at the first colon.
        have other : beforeFirst ':' (image.path ++ image.tagText) ≠ image.path := fun same =>
          notMem_beforeFirst ':' _ (same ▸ colon)
        simp [colon, other]
      · cases tag : image.tag with
        | none =>
            have whole : image.path ++ image.tagText = image.path := by simp [tagText, tag]
            rw [whole, beforeFirst_clean colon, afterLast, rsplitOnce_eq_none.mpr colon]
            simp [colon]
        | some text =>
            have clean := List.all_eq_true.mp (image.tagged text tag)
            have plain : ':' ∉ text := fun mem => absurd (clean _ mem) (by decide)
            have whole : image.path ++ image.tagText = image.path ++ ':' :: text := by
              simp [tagText, tag]
            have shorter : text ≠ image.path ++ ':' :: text := by
              intro same
              have lengths := congrArg List.length same
              rw [List.length_append, List.length_cons] at lengths
              omega
            have cut : rsplitOnce ':' (image.path ++ ':' :: text) = some (image.path, text) :=
              rsplitOnce_eq_some.mpr ⟨rfl, plain⟩
            rw [whole, beforeFirst_append colon, afterLast, cut]
            by_cases same : text = image.path
            · subst same
              simpa [colon] using eq_comm
            · simp [colon, same, shorter]

/-- Host, repository and reference are split as they are written, by the command and by the
script, exactly for the references that `Splits` describes. -/
theorem split_right_iff (image : ImageReference) : image.SplitRight ↔ image.Splits := by
  constructor
  · rintro ⟨host, repository, script⟩
    have alone := image.registryHost_eq_iff.mp host
    rw [splitRepoReference, withoutHost_eq host, splitPath_eq_iff] at repository
    exact ⟨repository.1, repository.2, alone, fun hosted =>
      (prelaunchSplit_eq_iff hosted repository.1).mp (script hosted)⟩
  · rintro ⟨apart, name, alone, script⟩
    have host := image.registryHost_eq_iff.mpr alone
    refine ⟨host, ?_, fun hosted => (prelaunchSplit_eq_iff hosted apart).mpr (script hosted)⟩
    rw [splitRepoReference, withoutHost_eq host, splitPath_eq_iff]
    exact ⟨apart, name⟩

/-- `ghcr.io/o/r:v1@sha256:ab`. -/
def tagAndDigest : ImageReference where
  host := some ghcr
  namespaces := ["o".toList]
  name := "r".toList
  tag := some "v1".toList
  digest := some "sha256:ab".toList
  components := by decide
  hosted := by decide
  unhosted := by simp
  tagged := by decide

/-- The tag stays with the repository, for the command and for the script. -/
theorem tagAndDigest_split :
    splitRepoReference tagAndDigest.text = ("o/r:v1".toList, "sha256:ab".toList) ∧
      prelaunchSplit tagAndDigest.text = some ("o/r:v1".toList, "sha256:ab".toList) ∧
      ¬ tagAndDigest.SplitRight := by
  refine ⟨by decide, by decide, fun right => absurd right.repository (by decide)⟩

end ImageReference

end GmMiner.Cli
