import GmMiner.Cli.SlotEnv
import GmMiner.Envoy.Upstreams
import GmMiner.Lib.Lua

/-!
The Lua source of the slot table (`lua_string` and `slot_config_lua` of `cli/src/envoy_render.rs`),
and what Lua makes of it: the settings of the upstreams, and nothing else.
-/

namespace GmMiner.Envoy

open GmMiner.Lib

def isAsciiControl (c : Char) : Bool := c.toNat < 32 || c.toNat == 127

/-- What `lua_string` writes for a character. -/
def luaEscape (c : Char) : List Char :=
  if c = '\\' then ['\\', '\\']
  else if c = '"' then ['\\', '"']
  else if isAsciiControl c then '\\' :: Decimal.padded 3 c.toNat
  else [c]

def luaString (value : String) : String :=
  String.ofList ('"' :: (value.toList.flatMap luaEscape ++ ['"']))

/-- A boolean as `write!` puts it. -/
def boolText (truth : Bool) : String := if truth then "true" else "false"

def optionText : Option String → String
  | none => "nil"
  | some value => luaString value

/-- `slot_map` of an upstream. -/
def slotMapText (provider : String) (ids : List String) : String :=
  "\x7b" ++ String.join (ids.zipIdx.map fun (id, idx) =>
    (if idx = 0 then "" else ", ") ++ "[" ++ luaString id ++ "] = " ++
      luaString (slotPrefix provider ++ "_KEY_SLOT_" ++ Nat.repr (idx + 1))) ++ "\x7d"

/-- `default_env` of an upstream with these ids. -/
def defaultSlotEnv (provider : String) (ids : List String) : Option String :=
  if ids = [] then none else some (slotPrefix provider ++ "_KEY_SLOT_1")

/-- What the loop of `slot_config_lua` writes for an upstream with slots. -/
def slotEntryText (env : String → Option String) (provider : String) (slots : Slots) : String :=
  let ids := slotIds env provider
  String.join [
    "[" ++ luaString provider,
    "] = \x7bcloud = ",
    boolText slots.cloud ++ ", disabled = ",
    boolText slots.disabled ++ ", no_retry = ",
    boolText slots.noRetry ++ ", direct_env = ",
    luaString slots.directEnv,
    ", default_env = ",
    optionText (defaultSlotEnv provider ids) ++ ", slots = ",
    slotMapText provider ids,
    ", auth_header = ",
    optionText slots.authHeader ++ ", auth_prefix = ",
    luaString slots.authPrefix,
    "\x7d, "]

/-- `slot_config_lua`, the source. -/
def slotConfigLuaText (upstreams : List Upstream) (env : String → Option String) : String :=
  "\x7b" ++ String.join (upstreams.map fun upstream =>
    match upstream.file.slots with
    | none => ""
    | some slots => slotEntryText env upstream.provider slots) ++ "\x7d"

/-! ### Strings -/

def encoded (text : List Char) : Bytes := text.flatMap String.utf8EncodeChar

theorem asBytes_ofList (text : List Char) : asBytes (String.ofList text) = encoded text := by
  rw [asBytes_eq_flatMap, String.toList_ofList, encoded]

theorem asBytes_luaString (value : String) :
    asBytes (luaString value) =
      34 :: ((value.toList.flatMap fun c => encoded (luaEscape c)) ++ [34]) := by
  rw [luaString, asBytes_ofList, encoded, List.flatMap_cons, List.flatMap_append,
    List.flatMap_assoc]
  rfl

/-- A byte of a character is none of ASCII unless the character is. -/
theorem plain_of_char {c : Char} (notBackslash : c ≠ '\\') (notQuote : c ≠ '"')
    (notControl : isAsciiControl c = false) :
    ∀ byte ∈ String.utf8EncodeChar c, Lua.Plain byte := by
  intro byte mem
  have inText : byte ∈ asBytes (String.ofList [c]) := by
    rw [asBytes_ofList, encoded, List.flatMap_singleton]
    exact mem
  have only : ∀ other : Char, byte.toNat = other.toNat → byte.toNat < 128 → c = other := by
    intro other same small
    obtain ⟨c', here, value⟩ := mem_of_mem_asBytes small inText
    rw [String.toList_ofList, List.mem_singleton] at here
    exact Char.toNat_inj.mp (by rw [← here, value, same])
  have apart : c ≠ '\n' ∧ c ≠ '\r' := by
    constructor
    · rintro rfl
      exact absurd notControl (by decide)
    · rintro rfl
      exact absurd notControl (by decide)
  refine ⟨?_, ?_, ?_, ?_⟩
  · rintro rfl
    exact notQuote (only '"' rfl (by decide))
  · rintro rfl
    exact notBackslash (only '\\' rfl (by decide))
  · rintro rfl
    exact apart.1 (only '\n' rfl (by decide))
  · rintro rfl
    exact apart.2 (only '\r' rfl (by decide))

/-- The three digits of a control character. -/
theorem control_digits : ∀ n < 128,
    (match encoded (Decimal.padded 3 n) with
      | [first, second, third] =>
          Lua.isDigit first && Lua.isDigit second && Lua.isDigit third &&
            (10 * (10 * (first.toNat - 48) + (second.toNat - 48)) + (third.toNat - 48) == n)
      | _ => false) = true := by
  decide +kernel

/-- An escaped character is read as its bytes, whatever follows. -/
theorem exec_luaEscape (c : Char) (read : Bytes) (tokens : List Lua.Token) (next : UInt8)
    (rest : Bytes) :
    Lua.lexer.exec ⟨.text read, tokens⟩ (encoded (luaEscape c) ++ next :: rest) =
      Lua.lexer.exec ⟨.text (read ++ String.utf8EncodeChar c), tokens⟩ (next :: rest) := by
  rw [luaEscape]
  by_cases backslash : c = '\\'
  · rw [if_pos backslash, backslash]
    exact Lua.exec_letter rfl rfl read tokens _
  rw [if_neg backslash]
  by_cases quote : c = '"'
  · rw [if_pos quote, quote]
    exact Lua.exec_letter rfl rfl read tokens _
  rw [if_neg quote]
  by_cases control : isAsciiControl c = true
  · rw [if_pos control]
    have small : c.toNat < 128 := by
      rw [isAsciiControl, Bool.or_eq_true, decide_eq_true_iff, beq_iff_eq] at control
      omega
    have one : String.utf8EncodeChar c = [UInt8.ofNat c.toNat] := by
      have ascii : c.val.toNat ≤ 127 := Nat.le_of_lt_succ small
      rw [String.utf8EncodeChar]
      simp only [ascii, if_true]
      rfl
    have digits := control_digits c.toNat small
    split at digits
    · rename_i first second third shape
      simp only [Bool.and_eq_true, beq_iff_eq] at digits
      obtain ⟨⟨⟨first_, second_⟩, third_⟩, value⟩ := digits
      have shape' : encoded ('\\' :: Decimal.padded 3 c.toNat) = [92, first, second, third] := by
        rw [encoded, List.flatMap_cons, ← encoded, shape]
        rfl
      rw [shape', one]
      refine Lua.exec_decimal ⟨first_, second_, third_⟩ ?_ read tokens next rest
      rw [value, UInt8.toNat_ofNat_of_lt' (small.trans (by decide))]
    · cases digits
  · rw [if_neg control, encoded, List.flatMap_singleton]
    exact Lua.exec_plain (plain_of_char backslash quote (Bool.eq_false_iff.mpr control)) _ _ _

/-- A literal is read as the bytes of its text, wherever it stands and whatever follows. -/
theorem exec_luaString {state : Lua.Lexer} {tokens : List Lua.Token}
    (ended : state.ended = some tokens) (value : String) (rest : Bytes) :
    Lua.lexer.exec state (asBytes (luaString value) ++ rest) =
      Lua.lexer.exec ⟨.between, .string (asBytes value) :: tokens⟩ rest := by
  have inside : ∀ (text : List Char) (read : Bytes),
      Lua.lexer.exec ⟨.text read, tokens⟩
          ((text.flatMap fun c => encoded (luaEscape c)) ++ 34 :: rest) =
        Lua.lexer.exec ⟨.between, .string (read ++ encoded text) :: tokens⟩ rest := by
    intro text
    induction text with
    | nil =>
        intro read
        have none_ : read ++ encoded [] = read := List.append_nil read
        rw [none_]
        exact Lua.exec_unquote read tokens rest
    | cons c text ih =>
        intro read
        have moved : read ++ encoded (c :: text) =
            read ++ String.utf8EncodeChar c ++ encoded text := by
          rw [encoded, List.flatMap_cons, ← encoded, List.append_assoc]
        rw [moved, ← ih, List.flatMap_cons, List.append_assoc]
        -- What follows an escape is not empty: at the least it is the closing quote.
        obtain ⟨next, later, shape⟩ : ∃ next later,
            (text.flatMap fun c => encoded (luaEscape c)) ++ 34 :: rest = next :: later := by
          cases text.flatMap fun c => encoded (luaEscape c) with
          | nil => exact ⟨34, rest, rfl⟩
          | cons next later => exact ⟨next, later ++ 34 :: rest, rfl⟩
        rw [shape]
        exact exec_luaEscape c read tokens next later
  rw [asBytes_luaString, List.cons_append, List.append_assoc, Lua.exec_quote ended]
  change Lua.lexer.exec _ ((value.toList.flatMap fun c => encoded (luaEscape c)) ++ 34 :: rest) = _
  rw [inside, List.nil_append, asBytes_eq_flatMap, encoded]

/-- What is written of a value evaluates to its bytes. -/
theorem evaluate_luaString (value : String) :
    Lua.evaluate (asBytes (luaString value)) = some (.string (asBytes value)) := by
  have read : Lua.lexer.exec {} (asBytes (luaString value) ++ []) = _ :=
    exec_luaString rfl value []
  rw [List.append_nil] at read
  rw [Lua.evaluate, Machine.run]
  change ((Lua.lexer.exec {} _).bind _).bind _ = _
  rw [read]
  rfl

/-! ### The table -/

def textValue (text : String) : Lua.Value := .string (asBytes text)

def optionValue : Option String → Lua.Value
  | none => .nil
  | some text => textValue text

/-- The settings of a provider as a Lua table, slots in the order of their ids. -/
def SlotConfig.table (cfg : SlotConfig) : Lua.Value := .table [
  (textValue "cloud", .boolean cfg.cloud),
  (textValue "disabled", .boolean cfg.disabled),
  (textValue "no_retry", .boolean cfg.noRetry),
  (textValue "direct_env", textValue cfg.directEnv),
  (textValue "default_env", optionValue cfg.defaultEnv),
  (textValue "slots", .table (cfg.slots.reverse.map fun slot => (textValue slot.1, textValue slot.2))),
  (textValue "auth_header", optionValue cfg.authHeader),
  (textValue "auth_prefix", textValue cfg.authPrefix)]

/-- The settings of every upstream with slots, under its provider. -/
def slotConfigTable (upstreams : List Upstream) (env : String → Option String) : Lua.Value :=
  .table (upstreams.filterMap fun upstream => upstream.file.slots.map fun slots =>
    (textValue upstream.provider, (slotSettings env upstream.provider slots).table))

/-! ### Tokens -/

/-- A text that is read as some tokens, whatever comes before and after it. -/
def Reads (text : String) (new : List Lua.Token) : Prop :=
  ∀ tokens rest, Lua.lexer.exec ⟨.between, tokens⟩ (asBytes text ++ rest) =
    Lua.lexer.exec ⟨.between, new.reverse ++ tokens⟩ rest

theorem Reads.append {first second : String} {new later : List Lua.Token} (reads : Reads first new)
    (readsLater : Reads second later) : Reads (first ++ second) (new ++ later) := by
  intro tokens rest
  rw [asBytes_append, List.append_assoc, reads, readsLater, List.reverse_append, List.append_assoc]

theorem Reads.cast {text text' : String} {new new' : List Lua.Token} (reads : Reads text new)
    (sameText : text' = text) (sameTokens : new' = new) : Reads text' new' := by
  rw [sameText, sameTokens]
  exact reads

theorem reads_of_run {text : String} {new : List Lua.Token}
    (run : Lua.lexer.exec {} (asBytes text) = some ⟨.between, new.reverse⟩) : Reads text new := by
  intro _ rest
  rw [Machine.exec_append, Lua.exec_after run]
  rfl

theorem reads_luaString (value : String) : Reads (luaString value) [.string (asBytes value)] :=
  fun _ rest => exec_luaString rfl value rest

theorem reads_key (value : String) :
    Reads ("[" ++ luaString value) [.symbol '[', .string (asBytes value)] := by
  intro tokens rest
  have bracket : asBytes "[" = [91] := by decide
  rw [asBytes_append, List.append_assoc, bracket, List.singleton_append,
    Lua.exec_scan (rfl : Lua.scan .between 91 = some (.after '[', [])), exec_luaString rfl]
  rfl

theorem reads_nil : Reads "" [] := fun _ _ => rfl

/-- Texts one after the other. -/
theorem reads_join {A : Type} {items : List A} {text : A → String} {tokens : A → List Lua.Token}
    (reads : ∀ item ∈ items, Reads (text item) (tokens item)) :
    Reads (String.join (items.map text)) (items.flatMap tokens) := by
  induction items with
  | nil => exact reads_nil
  | cons item items ih =>
      obtain ⟨here, later⟩ := List.forall_mem_cons.mp reads
      rw [List.map_cons, String.join_cons, List.flatMap_cons]
      exact here.append (ih later)

def optionToken : Option String → Lua.Token
  | none => .name "nil"
  | some value => .string (asBytes value)

theorem reads_option (value : Option String) {text : String} {new : List Lua.Token}
    (reads : Reads text new)
    (afterNil : Lua.lexer.exec {} (asBytes ("nil" ++ text)) =
      some ⟨.between, (.name "nil" :: new).reverse⟩) :
    Reads (optionText value ++ text) (optionToken value :: new) := by
  cases value with
  | none => exact reads_of_run afterNil
  | some value => exact (reads_luaString value).append reads

/-- The tokens of one slot. -/
def slotTokens (provider : String) (entry : String × Nat) : List Lua.Token :=
  (if entry.2 = 0 then [] else [.symbol ',']) ++
    [.symbol '[', .string (asBytes entry.1), .symbol ']', .symbol '=',
      .string (asBytes (slotPrefix provider ++ "_KEY_SLOT_" ++ Nat.repr (entry.2 + 1)))]

/-- The slots' map reads as its fields. -/
theorem reads_slotMap (provider : String) (ids : List String) :
    Reads (slotMapText provider ids)
      (.symbol '\x7b' :: (ids.zipIdx.flatMap (slotTokens provider) ++ [.symbol '\x7d'])) := by
  have open_ : Reads "\x7b" [.symbol '\x7b'] := reads_of_run (by decide +kernel)
  have close : Reads "\x7d" [.symbol '\x7d'] := reads_of_run (by decide +kernel)
  have comma : Reads ", " [.symbol ','] := reads_of_run (by decide +kernel)
  have assign : Reads "] = " [.symbol ']', .symbol '='] := reads_of_run (by decide +kernel)
  refine (open_.append (reads_join fun entry _ => ?_)).append close
  obtain ⟨id, idx⟩ := entry
  have separated : Reads (if idx = 0 then "" else ", ")
      (if idx = 0 then [] else [.symbol ',']) := by
    by_cases first : idx = 0
    · rw [if_pos first, if_pos first]
      exact reads_nil
    · rw [if_neg first, if_neg first]
      exact comma
  have reads := separated.append ((reads_key id).append (assign.append
    (reads_luaString (slotPrefix provider ++ "_KEY_SLOT_" ++ Nat.repr (idx + 1)))))
  simpa only [String.append_assoc, slotTokens, List.cons_append, List.nil_append] using reads

/-- The tokens of one upstream. -/
def entryTokens (provider : String) (ids : List String) (cfg : SlotConfig) : List Lua.Token :=
  [.symbol '[', .string (asBytes provider), .symbol ']', .symbol '=', .symbol '\x7b',
    .name "cloud", .symbol '=', .name (boolText cfg.cloud), .symbol ',',
    .name "disabled", .symbol '=', .name (boolText cfg.disabled), .symbol ',',
    .name "no_retry", .symbol '=', .name (boolText cfg.noRetry), .symbol ',',
    .name "direct_env", .symbol '=', .string (asBytes cfg.directEnv), .symbol ',',
    .name "default_env", .symbol '=', optionToken cfg.defaultEnv, .symbol ',',
    .name "slots", .symbol '=', .symbol '\x7b'] ++
  (ids.zipIdx.flatMap (slotTokens provider) ++
  [.symbol '\x7d', .symbol ',',
    .name "auth_header", .symbol '=', optionToken cfg.authHeader, .symbol ',',
    .name "auth_prefix", .symbol '=', .string (asBytes cfg.authPrefix), .symbol '\x7d',
    .symbol ','])

/-- A provider's entry reads as its slots and its settings. -/
theorem reads_entry (env : String → Option String) (provider : String) (slots : Slots) :
    Reads (slotEntryText env provider slots)
      (entryTokens provider (slotIds env provider) (slotSettings env provider slots)) := by
  have cloud : Reads "] = \x7bcloud = "
      [.symbol ']', .symbol '=', .symbol '\x7b', .name "cloud", .symbol '='] :=
    reads_of_run (by decide +kernel)
  have disabled (truth : Bool) : Reads (boolText truth ++ ", disabled = ")
      [.name (boolText truth), .symbol ',', .name "disabled", .symbol '='] := by
    cases truth <;> exact reads_of_run (by decide +kernel)
  have noRetry (truth : Bool) : Reads (boolText truth ++ ", no_retry = ")
      [.name (boolText truth), .symbol ',', .name "no_retry", .symbol '='] := by
    cases truth <;> exact reads_of_run (by decide +kernel)
  have directEnv (truth : Bool) : Reads (boolText truth ++ ", direct_env = ")
      [.name (boolText truth), .symbol ',', .name "direct_env", .symbol '='] := by
    cases truth <;> exact reads_of_run (by decide +kernel)
  have defaultEnv : Reads ", default_env = " [.symbol ',', .name "default_env", .symbol '='] :=
    reads_of_run (by decide +kernel)
  have slotMap (value : Option String) := reads_option value
    (show Reads ", slots = " [.symbol ',', .name "slots", .symbol '='] from
      reads_of_run (by decide +kernel)) (by decide +kernel)
  have authHeader : Reads ", auth_header = " [.symbol ',', .name "auth_header", .symbol '='] :=
    reads_of_run (by decide +kernel)
  have authPrefix (value : Option String) := reads_option value
    (show Reads ", auth_prefix = " [.symbol ',', .name "auth_prefix", .symbol '='] from
      reads_of_run (by decide +kernel)) (by decide +kernel)
  have close : Reads "\x7d, " [.symbol '\x7d', .symbol ','] := reads_of_run (by decide +kernel)
  have pieces := (reads_key provider).append (cloud.append ((disabled slots.cloud).append
    ((noRetry slots.disabled).append ((directEnv slots.noRetry).append
    ((reads_luaString slots.directEnv).append (defaultEnv.append
    ((slotMap (defaultSlotEnv provider (slotIds env provider))).append
    ((reads_slotMap provider (slotIds env provider)).append (authHeader.append
    ((authPrefix slots.authHeader).append ((reads_luaString slots.authPrefix).append
    (close.append reads_nil))))))))))))
  refine pieces.cast ?_ ?_
  · simp only [slotEntryText, String.join_cons, String.join_nil]
  · simp only [entryTokens, List.cons_append, List.nil_append, List.append_assoc,
      List.append_nil]
    rfl

/-! ### Values -/

theorem denotes_boolText (truth : Bool) : Lua.Denotes (.name (boolText truth)) (.boolean truth) := by
  cases truth with
  | false => exact Lua.denotes_name rfl
  | true => exact Lua.denotes_name rfl

theorem denotes_optionToken (value : Option String) :
    Lua.Denotes (optionToken value) (optionValue value) := by
  cases value with
  | none => exact Lua.denotes_name rfl
  | some value => exact Lua.denotes_string _

section Parsing

variable {fields : List (Lua.Value × Lua.Value)} {outer : List Lua.Frame}

/-- A slot as a field. -/
def slotField (provider : String) (entry : String × Nat) : Lua.Value × Lua.Value :=
  (textValue entry.1, textValue (slotPrefix provider ++ "_KEY_SLOT_" ++ Nat.repr (entry.2 + 1)))

/-- The parser takes the slots one by one. -/
theorem exec_slots (provider : String) (ids : List String) (rest : List Lua.Token) :
    ∃ expects, (expects = .field ∨ expects = .separator) ∧
      Lua.parser.exec (.within ⟨[], .field⟩ outer)
          (ids.zipIdx.flatMap (slotTokens provider) ++ rest) =
        Lua.parser.exec (.within ⟨ids.zipIdx.map (slotField provider), expects⟩ outer) rest := by
  -- After the first slot each comes with its comma.
  have later : ∀ (ids : List String) (idx : Nat), idx ≠ 0 →
      ∀ fields, Lua.parser.exec (.within ⟨fields, .separator⟩ outer)
          ((ids.zipIdx idx).flatMap (slotTokens provider) ++ rest) =
        Lua.parser.exec
          (.within ⟨fields ++ (ids.zipIdx idx).map (slotField provider), .separator⟩ outer)
          rest := by
    intro ids
    induction ids with
    | nil =>
        intro idx _ fields
        rw [List.zipIdx_nil, List.map_nil, List.append_nil]
        rfl
    | cons id ids ih =>
        intro idx notFirst fields
        rw [List.zipIdx_cons, List.flatMap_cons, List.append_assoc, slotTokens, if_neg notFirst]
        have moved : fields ++ List.map (slotField provider) ((id, idx) :: ids.zipIdx (idx + 1)) =
            fields ++ [slotField provider (id, idx)] ++
              (ids.zipIdx (idx + 1)).map (slotField provider) := by
          simp
        rw [moved, ← ih (idx + 1) (Nat.succ_ne_zero idx)]
        exact (Lua.exec_comma _).trans (Lua.exec_indexed (Lua.denotes_string _) _ _)
  cases ids with
  | nil => exact ⟨.field, .inl rfl, rfl⟩
  | cons id ids =>
      refine ⟨.separator, .inr rfl, ?_⟩
      refine Eq.trans ?_ (later ids 1 Nat.one_ne_zero [slotField provider (id, 0)])
      rw [List.zipIdx_cons, List.flatMap_cons, List.append_assoc, slotTokens, if_pos rfl]
      exact Lua.exec_indexed (Lua.denotes_string _) _ _

/-- The tokens of an upstream make one field of its settings. -/
theorem exec_entry (env : String → Option String) (provider : String) (slots : Slots)
    (rest : List Lua.Token) :
    Lua.parser.exec (.within ⟨fields, .field⟩ outer)
        (entryTokens provider (slotIds env provider) (slotSettings env provider slots) ++ rest) =
      Lua.parser.exec (.within ⟨fields ++
        [(textValue provider, (slotSettings env provider slots).table)], .field⟩ outer) rest := by
  have free : ∀ name ∈ ["cloud", "disabled", "no_retry", "direct_env", "default_env", "slots",
      "auth_header", "auth_prefix"], name ∉ Lua.reserved := by decide
  simp only [List.forall_mem_cons, List.not_mem_nil, false_implies, implies_true, and_true] at free
  obtain ⟨cloud, disabled, noRetry, directEnv, defaultEnv, slots_, authHeader, authPrefix⟩ := free
  have byId : (slotSettings env provider slots).slots.reverse.map
      (fun slot => (textValue slot.1, textValue slot.2)) =
        (slotIds env provider).zipIdx.map (slotField provider) := by
    simp only [slotSettings, slotMap, List.reverse_reverse, List.map_map]
    rfl
  simp only [entryTokens, List.cons_append, List.nil_append, List.append_assoc]
  rw [Lua.exec_indexed_open, Lua.exec_named cloud (denotes_boolText _), Lua.exec_comma,
    Lua.exec_named disabled (denotes_boolText _), Lua.exec_comma,
    Lua.exec_named noRetry (denotes_boolText _), Lua.exec_comma,
    Lua.exec_named directEnv (Lua.denotes_string _), Lua.exec_comma,
    Lua.exec_named defaultEnv (denotes_optionToken _), Lua.exec_comma,
    Lua.exec_named_open slots_]
  obtain ⟨expects, complete, read⟩ := exec_slots provider (slotIds env provider) _
  rw [read, Lua.exec_close complete, Lua.exec_comma,
    Lua.exec_named authHeader (denotes_optionToken _), Lua.exec_comma,
    Lua.exec_named authPrefix (Lua.denotes_string _), Lua.exec_close (.inr rfl), Lua.exec_comma,
    SlotConfig.table, byId]
  rfl

/-- The tokens of the upstreams that have slots. -/
def upstreamTokens (env : String → Option String) (upstream : Upstream) : List Lua.Token :=
  match upstream.file.slots with
  | none => []
  | some slots => entryTokens upstream.provider (slotIds env upstream.provider)
      (slotSettings env upstream.provider slots)

/-- The parser takes the providers one by one. -/
theorem exec_upstreams (env : String → Option String) (upstreams : List Upstream)
    (rest : List Lua.Token) :
    Lua.parser.exec (.within ⟨fields, .field⟩ outer)
        (upstreams.flatMap (upstreamTokens env) ++ rest) =
      Lua.parser.exec (.within ⟨fields ++ upstreams.filterMap fun upstream =>
        upstream.file.slots.map fun slots =>
          (textValue upstream.provider, (slotSettings env upstream.provider slots).table),
        .field⟩ outer) rest := by
  induction upstreams generalizing fields with
  | nil =>
      rw [List.filterMap_nil, List.append_nil]
      rfl
  | cons upstream upstreams ih =>
      rw [List.flatMap_cons, List.append_assoc, upstreamTokens]
      cases slotted : upstream.file.slots with
      | none =>
          rw [List.filterMap_cons_none (by rw [slotted]; rfl)]
          exact ih
      | some slots =>
          dsimp only
          rw [exec_entry, ih, List.append_assoc, List.filterMap_cons_some (by rw [slotted]; rfl)]
          rfl

end Parsing

/-- The whole text reads as a table of the providers. -/
theorem reads_slotConfig (upstreams : List Upstream) (env : String → Option String) :
    Reads (slotConfigLuaText upstreams env)
      (.symbol '\x7b' :: (upstreams.flatMap (upstreamTokens env) ++ [.symbol '\x7d'])) := by
  have open_ : Reads "\x7b" [.symbol '\x7b'] := reads_of_run (by decide +kernel)
  have close : Reads "\x7d" [.symbol '\x7d'] := reads_of_run (by decide +kernel)
  refine (open_.append (reads_join fun upstream _ => ?_)).append close
  rw [upstreamTokens]
  cases upstream.file.slots with
  | none => exact reads_nil
  | some slots => exact reads_entry env upstream.provider slots

/-- The source is an expression of the table. -/
theorem evaluate_slotConfig (upstreams : List Upstream) (env : String → Option String) :
    Lua.evaluate (asBytes (slotConfigLuaText upstreams env)) =
      some (slotConfigTable upstreams env) := by
  have read := reads_slotConfig upstreams env [] []
  rw [List.append_nil, List.append_nil] at read
  have parsed : Lua.parser.exec .start
      (.symbol '\x7b' :: (upstreams.flatMap (upstreamTokens env) ++ [.symbol '\x7d'])) =
        some (.done (slotConfigTable upstreams env)) := by
    change Lua.parser.exec (.within ⟨[], .field⟩ []) _ = _
    rw [exec_upstreams]
    rfl
  rw [Lua.evaluate, Machine.run]
  change ((Lua.lexer.exec {} _).bind _).bind _ = _
  rw [read]
  change (Lua.parser.exec .start (List.reverse (List.reverse _))).bind _ = _
  rw [List.reverse_reverse, parsed]
  rfl

/-! ### Both escapers -/

/-- The ids of slots are base 32. -/
def Base32Ids (derive : Cli.DeriveSlotId) : Prop :=
  ∀ provider key nodeSecret id, derive provider key nodeSecret = .ok id →
    ∀ c ∈ id.toList, c.isUpper = true ∨ c.isDigit = true

theorem upperProvider_letters (provider : Cli.Provider) :
    ∀ c ∈ (Cli.toAsciiUppercase provider.asStr).toList,
      (Shell.isNameStart c || c.isDigit) = true := by
  have all : ((provider.asStr.toList.map Char.toUpper).all fun c =>
      Shell.isNameStart c || c.isDigit) = true := by
    cases provider <;> decide
  rw [Cli.toAsciiUppercase, String.toList_map]
  exact List.all_eq_true.mp all

/-- The exports of the slots are read back by a shell. -/
theorem evaluate_rendered {derive : Cli.DeriveSlotId} (ids : Base32Ids derive)
    {provider : Cli.Provider} {raw text : List Char} {nodeSecret : String} (noNul : '\x00' ∉ raw)
    (rendered : Cli.renderSlotEnvExportsText derive provider.asStr raw nodeSecret = .ok text) :
    ∃ slots, Cli.parseKeySlots derive provider.asStr raw nodeSecret = .ok slots ∧
      Shell.evaluate text = some ((Cli.slotExports provider.asStr slots).map fun entry =>
        (entry.1.name.toList, entry.2)) := by
  refine Cli.evaluate_slotEnv (upperProvider_letters provider) ?_ noNul rendered
  intro key id derived nul
  rcases ids _ _ _ _ derived _ nul with upper | digit
  · exact absurd upper (by decide)
  · exact absurd digit (by decide)

/-- Whatever is written for Lua and for the shell evaluates to what it was written from: the bytes
of a string in any source, a word in any line, the table of the slots, the exports of the slots. -/
theorem written_evaluates {derive : Cli.DeriveSlotId} (ids : Base32Ids derive) :
    (∀ (value : String) (state : Lua.Lexer) (tokens : List Lua.Token) (rest : Bytes),
      state.ended = some tokens →
        Lua.lexer.exec state (asBytes (luaString value) ++ rest) =
          Lua.lexer.exec ⟨.between, .string (asBytes value) :: tokens⟩ rest) ∧
    (∀ value : String,
      Lua.evaluate (asBytes (luaString value)) = some (.string (asBytes value))) ∧
    (∀ (word : List Char), '\x00' ∉ word →
      (Shell.reader.run (Cli.shellQuote word)).bind Shell.Reader.ended = some [[word]] ∧
      ∀ before line commands rest,
        Shell.reader.exec ⟨.unquoted, some before, line, commands⟩ (Cli.shellQuote word ++ rest) =
          Shell.reader.exec ⟨.unquoted, some (before ++ word), line, commands⟩ rest) ∧
    (∀ (upstreams : List Upstream) (env : String → Option String),
      Lua.evaluate (asBytes (slotConfigLuaText upstreams env)) =
        some (slotConfigTable upstreams env)) ∧
    ∀ (provider : Cli.Provider) (raw text : List Char) (nodeSecret : String), '\x00' ∉ raw →
      Cli.renderSlotEnvExportsText derive provider.asStr raw nodeSecret = .ok text →
      ∃ slots, Cli.parseKeySlots derive provider.asStr raw nodeSecret = .ok slots ∧
        Shell.evaluate text = some ((Cli.slotExports provider.asStr slots).map fun entry =>
          (entry.1.name.toList, entry.2)) := by
  refine ⟨fun value _ _ rest ended => exec_luaString ended value rest, evaluate_luaString,
    fun word noNul => ⟨Cli.run_shellQuote noNul, fun before _ _ rest =>
      Cli.exec_shellQuote noNul before rest⟩, evaluate_slotConfig, ?_⟩
  intro provider raw text nodeSecret noNul rendered
  exact evaluate_rendered ids noNul rendered

/-- The id of the key `sk'a` of `openai` under the node secret `secret`. -/
def knownDerive : Cli.DeriveSlotId := fun _ _ _ => .ok "57WTZHEEWO2Y"

/-- A key with a quote in it is read back by the shell. -/
theorem quotedKey_evaluates :
    ∃ text, Cli.renderSlotEnvExportsText knownDerive "openai" ['s', 'k', '\'', 'a'] "secret" =
        .ok text ∧
      ∃ slots, Cli.parseKeySlots knownDerive "openai" ['s', 'k', '\'', 'a'] "secret" = .ok slots ∧
        Shell.evaluate text = some ((Cli.slotExports "openai" slots).map fun entry =>
          (entry.1.name.toList, entry.2)) := by
  have ids : Base32Ids knownDerive := by
    intro _ _ _ id same c mem
    cases same
    have letters : ("57WTZHEEWO2Y".toList.all fun c => c.isUpper || c.isDigit) = true := by decide
    exact Bool.or_eq_true _ _ ▸ List.all_eq_true.mp letters c mem
  exact ⟨_, rfl, (written_evaluates ids).2.2.2.2 .openAi ['s', 'k', '\'', 'a'] _ "secret"
    (by decide) rfl⟩

end GmMiner.Envoy
