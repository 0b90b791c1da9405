import GmMiner.Cli.Config
import GmMiner.Lib.Find
import GmMiner.Lib.Result
import GmMiner.Lib.Split
import GmMiner.Text

/-!
The TLS-passthrough form of a dstack endpoint (`to_ratls_passthrough_endpoint` of
`cli/src/deploy/cvm.rs`): the port at the end of the first host label gets an `s`.

The source takes what stands between `://` and the first dot for the first label of the host. That
is so unless the URL has a userinfo with a dot in it, or a host of one label (`rewrites_iff`).
-/

namespace GmMiner.Cli

open GmMiner.Lib
open GmMiner.Lib.KeyedLines (splitOnce splitOnce_append)

/-- `str::split_once` at a text. -/
def splitOnceText (pattern text : List Char) : Option (List Char × List Char) :=
  (findAt pattern text).map fun parts => (parts.1, parts.2.drop pattern.length)

/-- The characters that end an authority. -/
def isDelimiter (c : Char) : Bool := c == '/' || c == '?' || c == '#'

def isPort (text : List Char) : Bool := !text.isEmpty && text.all Char.isDigit

/-- A port of the passthrough form. -/
def isPassthroughPort (text : List Char) : Bool := (stripSuffix 's' text).any isPort

def schemeMark : List Char := "://".toList

/-- `{:?}` of a string. -/
abbrev Debug := List Char → String

def toRatlsPassthroughEndpoint (debug : Debug) (endpoint : List Char) :
    Except Error (List Char) := do
  let (scheme, rest) ← required (splitOnceText schemeMark endpoint)
    ["endpoint is not an absolute URL: " ++ String.ofList endpoint]
  let authority := rest.takeWhile (!isDelimiter ·)
  let tail := rest.dropWhile (!isDelimiter ·)
  let (firstLabel, hostRest) ← required (splitOnce '.' authority)
    ["endpoint host has no dotted domain to derive a passthrough URL from: " ++
      String.ofList endpoint]
  let (labelHead, port) ← required (rsplitOnce '-' firstLabel)
    ["endpoint host label " ++ debug firstLabel ++ " is not the dstack <id>-<port> shape"]
  if isPassthroughPort port then return endpoint
  else
    ensure (isPort port)
      ["endpoint host label " ++ debug firstLabel ++ " does not end in a numeric port; cannot " ++
        "derive the dstack TLS-passthrough form of " ++ String.ofList endpoint]
    return scheme ++ schemeMark ++ labelHead ++ '-' :: (port ++ 's' :: '.' :: (hostRest ++ tail))

/-! ### URLs of the dstack shape -/

def isUnreserved (c : Char) : Bool :=
  c.isAlphanum || c == '-' || c == '.' || c == '_' || c == '~'

def isSubDelim (c : Char) : Bool := "!$&'()*+,;=".toList.contains c

def isHex (c : Char) : Bool := c.isDigit || ('a' ≤ c && c ≤ 'f') || ('A' ≤ c && c ≤ 'F')

/-- Allowed characters and percent-encoded bytes. -/
def isUriText (allowed : Char → Bool) : List Char → Bool
  | [] => true
  | '%' :: high :: low :: rest => isHex high && isHex low && isUriText allowed rest
  | c :: rest => (c != '%' && allowed c) && isUriText allowed rest

def isRegNameChar (c : Char) : Bool := isUnreserved c || isSubDelim c

def isUserinfoChar (c : Char) : Bool := isRegNameChar c || c == ':'

def isTailChar (c : Char) : Bool := isUserinfoChar c || c == '@' || c == '/' || c == '?'

def isScheme : List Char → Bool
  | [] => false
  | c :: rest => c.isAlpha && rest.all fun c => c.isAlphanum || c == '+' || c == '-' || c == '.'

/-- Path, query and fragment behind an authority. -/
def isTail (tail : List Char) : Bool :=
  (tail.isEmpty || tail.head?.any isDelimiter) &&
    (isUriText isTailChar (tail.takeWhile (· != '#')) &&
      isUriText isTailChar ((tail.dropWhile (· != '#')).drop 1))

/-- A URL whose host's first label is `<id>-<port>` or `<id>-<port>s`. -/
structure DstackUrl where
  scheme : List Char
  userinfo : Option (List Char)
  id : List Char
  port : List Char
  passthrough : Bool
  /-- The labels of the host behind the first one. -/
  domain : Option (List Char)
  number : Option (List Char)
  tail : List Char
  scheme_ : isScheme scheme = true
  userinfo_ : ∀ text ∈ userinfo, isUriText isUserinfoChar text = true
  id_ : isUriText (fun c => isRegNameChar c && c != '.') id = true
  port_ : isPort port = true
  domain_ : ∀ text ∈ domain, isUriText isRegNameChar text = true
  number_ : ∀ text ∈ number, text.all Char.isDigit = true
  tail_ : isTail tail = true

namespace DstackUrl

def label (url : DstackUrl) : List Char :=
  url.id ++ '-' :: (url.port ++ if url.passthrough then ['s'] else [])

/-- The host behind its first label, and the port of the URL. -/
def hostRest (url : DstackUrl) : List Char :=
  url.domain.elim [] ('.' :: ·) ++ url.number.elim [] (':' :: ·)

def authority (url : DstackUrl) : List Char :=
  url.userinfo.elim [] (· ++ ['@']) ++ url.label ++ url.hostRest

def text (url : DstackUrl) : List Char :=
  url.scheme ++ schemeMark ++ (url.authority ++ url.tail)

/-- The same URL in the passthrough form. -/
def registered (url : DstackUrl) : DstackUrl := { url with passthrough := true }

end DstackUrl

/-! ### What the source reads -/

/-- The text between the mark of the scheme and the first dot of the authority. -/
def textLabel (endpoint : List Char) : Option (List Char) :=
  (splitOnceText schemeMark endpoint).bind fun parts =>
    (splitOnce '.' (parts.2.takeWhile (!isDelimiter ·))).map Prod.fst

/-- Whether a label ends in a port, as it is or in the passthrough form. -/
def endsInPort (label : List Char) : Bool :=
  (rsplitOnce '-' label).any fun parts => isPassthroughPort parts.2 || isPort parts.2

def endsInPassthroughPort (label : List Char) : Bool :=
  (rsplitOnce '-' label).any fun parts => isPassthroughPort parts.2

/-- How an endpoint was taken apart. -/
structure TakenApart (endpoint : List Char) where
  scheme : List Char
  rest : List Char
  firstLabel : List Char
  hostRest : List Char
  labelHead : List Char
  port : List Char
  scheme_ : splitOnceText schemeMark endpoint = some (scheme, rest)
  host_ : splitOnce '.' (rest.takeWhile (!isDelimiter ·)) = some (firstLabel, hostRest)
  label_ : rsplitOnce '-' firstLabel = some (labelHead, port)

/-- The endpoint with an `s` behind the port. -/
def TakenApart.inserted {endpoint : List Char} (parts : TakenApart endpoint) : List Char :=
  parts.scheme ++ schemeMark ++ parts.labelHead ++
    '-' :: (parts.port ++ 's' :: '.' :: (parts.hostRest ++ parts.rest.dropWhile (!isDelimiter ·)))

variable {debug : Debug} {endpoint result : List Char}

/-- Which endpoints are kept, rewritten or refused. -/
theorem toRatlsPassthroughEndpoint_taken (parts : TakenApart endpoint) :
    toRatlsPassthroughEndpoint debug endpoint = .ok result ↔
      (isPassthroughPort parts.port = true ∧ endpoint = result) ∨
        (isPassthroughPort parts.port = false ∧ isPort parts.port = true ∧
          parts.inserted = result) := by
  rw [toRatlsPassthroughEndpoint, bind_eq_ok]
  simp only [required_eq_ok, parts.scheme_, Option.some.injEq, exists_eq_left', bind_eq_ok,
    parts.host_, parts.label_]
  cases isPassthroughPort parts.port <;>
    simp [bind_eq_ok, TakenApart.inserted, pure, Except.pure]

/-- An endpoint is rewritten only if it is taken apart. -/
theorem taken_of_ok (rewritten : toRatlsPassthroughEndpoint debug endpoint = .ok result) :
    Nonempty (TakenApart endpoint) := by
  rw [toRatlsPassthroughEndpoint, bind_eq_ok] at rewritten
  obtain ⟨⟨scheme, rest⟩, scheme_, rewritten⟩ := rewritten
  obtain ⟨⟨firstLabel, hostRest⟩, host_, rewritten⟩ := bind_eq_ok.mp rewritten
  obtain ⟨⟨labelHead, port⟩, label_, -⟩ := bind_eq_ok.mp rewritten
  exact ⟨scheme, rest, firstLabel, hostRest, labelHead, port, required_eq_ok.mp scheme_,
    required_eq_ok.mp host_, required_eq_ok.mp label_⟩

/-- The source succeeds exactly if the text it takes for the first label ends in a port. -/
theorem isOk_iff : (∃ result, toRatlsPassthroughEndpoint debug endpoint = .ok result) ↔
    ∃ label, textLabel endpoint = some label ∧ endsInPort label = true := by
  constructor
  · rintro ⟨result, rewritten⟩
    obtain ⟨parts⟩ := taken_of_ok rewritten
    refine ⟨parts.firstLabel, ?_, ?_⟩
    · simp [textLabel, parts.scheme_, parts.host_]
    · rcases (toRatlsPassthroughEndpoint_taken parts).mp rewritten with ⟨port, -⟩ | ⟨-, port, -⟩
      · simp [endsInPort, parts.label_, port]
      · simp [endsInPort, parts.label_, port]
  · rintro ⟨label, here, ends⟩
    obtain ⟨⟨scheme, rest⟩, scheme_, host_⟩ := Option.bind_eq_some_iff.mp here
    obtain ⟨⟨firstLabel, hostRest⟩, cut, rfl⟩ := Option.map_eq_some_iff.mp host_
    obtain ⟨⟨labelHead, port⟩, label_, ends⟩ := (Option.any_eq_true _ _).mp ends
    let parts : TakenApart endpoint := ⟨scheme, rest, _, _, _, _, scheme_, cut, label_⟩
    cases suffixed : isPassthroughPort port with
    | true => exact ⟨_, (toRatlsPassthroughEndpoint_taken parts).mpr (.inl ⟨suffixed, rfl⟩)⟩
    | false =>
        rw [suffixed, Bool.false_or] at ends
        exact ⟨_, (toRatlsPassthroughEndpoint_taken parts).mpr (.inr ⟨suffixed, ends, rfl⟩)⟩

/-! ### Texts of a URL -/

/-- What is neither allowed nor part of an encoded byte is in no text. -/
theorem notMem_of_isUriText {allowed : Char → Bool} {text : List Char} {bad : Char}
    (valid : isUriText allowed text = true) (notAllowed : allowed bad = false)
    (notCoded : bad ≠ '%' ∧ isHex bad = false) : bad ∉ text := by
  fun_induction isUriText allowed text with
  | case1 => exact List.not_mem_nil
  | case2 high low rest ih =>
      simp only [Bool.and_eq_true] at valid
      obtain ⟨⟨highHex, lowHex⟩, valid⟩ := valid
      have other : ∀ c, isHex c = true → bad ≠ c := by
        rintro c hex rfl
        exact Bool.false_ne_true (notCoded.2.symm.trans hex)
      simp only [List.mem_cons, not_or]
      exact ⟨notCoded.1, other high highHex, other low lowHex, ih valid⟩
  | case3 c rest _ ih =>
      simp only [Bool.and_eq_true] at valid
      rw [List.mem_cons, not_or]
      refine ⟨?_, ih valid.2⟩
      rintro rfl
      exact Bool.false_ne_true (notAllowed.symm.trans valid.1.2)

theorem notMem_of_digits {text : List Char} {bad : Char} (digits : text.all Char.isDigit = true)
    (notDigit : bad.isDigit = false) : bad ∉ text := by
  intro mem
  exact Bool.false_ne_true (notDigit.symm.trans (List.all_eq_true.mp digits bad mem))

theorem digits_of_isPort {text : List Char} (port : isPort text = true) :
    text ≠ [] ∧ text.all Char.isDigit = true := by
  simp only [isPort, Bool.and_eq_true, Bool.not_eq_true', List.isEmpty_eq_false_iff] at port
  exact port

/-- Digits are no passthrough port. -/
theorem isPassthroughPort_of_digits {text : List Char} (port : isPort text = true) :
    isPassthroughPort text = false := by
  have digits := (digits_of_isPort port).2
  have plain : text.getLast? ≠ some 's' := by
    intro last
    exact notMem_of_digits digits (by decide) (List.mem_of_getLast? last)
  rw [isPassthroughPort, stripSuffix, if_neg plain]
  rfl

/-- The scheme ends at the first mark. -/
theorem findAt_mark {before : List Char} (clean : ':' ∉ before) (rest : List Char) :
    splitOnceText schemeMark (before ++ schemeMark ++ rest) = some (before, rest) := by
  have found : findAt schemeMark (before ++ (schemeMark ++ rest)) =
      some (before, schemeMark ++ rest) := by
    induction before with
    | nil => exact findAt_of_starts (List.prefix_append _ _)
    | cons c before ih =>
        rw [List.mem_cons, not_or] at clean
        have other : ¬ schemeMark <+: c :: (before ++ (schemeMark ++ rest)) := by
          rintro ⟨more, same⟩
          exact clean.1 (List.cons.inj same).1
        rw [List.cons_append, findAt_cons other, ih clean.2]
        rfl
  rw [splitOnceText, List.append_assoc, found, Option.map_some, List.drop_left]

namespace DstackUrl

variable (url : DstackUrl)

/-- A scheme has no colon. -/
theorem colon_notMem_scheme : ':' ∉ url.scheme := by
  have valid := url.scheme_
  cases text : url.scheme with
  | nil => exact List.not_mem_nil
  | cons c rest =>
      rw [text, isScheme, Bool.and_eq_true] at valid
      rw [List.mem_cons, not_or]
      refine ⟨?_, fun mem => absurd (List.all_eq_true.mp valid.2 _ mem) (by decide)⟩
      rintro rfl
      exact absurd valid.1 (by decide)

/-- A label has no character of another kind. -/
theorem notMem_label {bad : Char} (notName : isRegNameChar bad = false ∨ bad = '.')
    (other : bad ≠ '%' ∧ isHex bad = false) (rest : bad ≠ '-' ∧ bad ≠ 's') : bad ∉ url.label := by
  have notId : bad ∉ url.id := by
    refine notMem_of_isUriText url.id_ ?_ other
    rcases notName with notName | rfl
    · simp [notName]
    · decide
  have notDigit : bad.isDigit = false := by
    have hex := other.2
    simp only [isHex, Bool.or_eq_false_iff] at hex
    exact hex.1.1
  have notPort := notMem_of_digits (digits_of_isPort url.port_).2 notDigit
  simp only [label, List.mem_append, List.mem_cons, not_or]
  refine ⟨notId, rest.1, notPort, ?_⟩
  split
  · simpa using rest.2
  · exact List.not_mem_nil

/-- The delimiters are in no authority. -/
theorem notMem_authority {bad : Char} (notName : isUserinfoChar bad = false)
    (other : bad ≠ '%' ∧ isHex bad = false)
    (rest : (bad ≠ '-' ∧ bad ≠ 's') ∧ bad ≠ '@' ∧ bad ≠ '.' ∧ bad ≠ ':') : bad ∉ url.authority := by
  have notReg : isRegNameChar bad = false := by
    simp only [isUserinfoChar, Bool.or_eq_false_iff] at notName
    exact notName.1
  have notDigit : bad.isDigit = false := by
    have hex := other.2
    simp only [isHex, Bool.or_eq_false_iff] at hex
    exact hex.1.1
  simp only [authority, hostRest, List.mem_append, not_or]
  refine ⟨⟨?_, url.notMem_label (.inl notReg) other rest.1⟩, ?_, ?_⟩
  · cases info : url.userinfo with
    | none => exact List.not_mem_nil
    | some text =>
        have inside := notMem_of_isUriText (url.userinfo_ text info) notName other
        simpa using ⟨inside, rest.2.1⟩
  · cases domain : url.domain with
    | none => exact List.not_mem_nil
    | some text =>
        have inside := notMem_of_isUriText (url.domain_ text domain) notReg other
        simpa using ⟨rest.2.2.1, inside⟩
  · cases number : url.number with
    | none => exact List.not_mem_nil
    | some text =>
        have inside := notMem_of_digits (url.number_ text number) notDigit
        simpa using ⟨rest.2.2.2, inside⟩

theorem authority_solid : ∀ c ∈ url.authority, (!isDelimiter c) = true := by
  intro c mem
  rw [Bool.not_eq_true', isDelimiter, Bool.or_eq_false_iff, Bool.or_eq_false_iff]
  simp only [beq_eq_false_iff_ne]
  refine ⟨⟨?_, ?_⟩, ?_⟩
  all_goals
    rintro rfl
    exact url.notMem_authority (by decide) (by decide) (by decide) mem

theorem tail_starts : url.tail = [] ∨ ∃ c rest, url.tail = c :: rest ∧ isDelimiter c = true := by
  have valid := url.tail_
  rw [isTail, Bool.and_eq_true, Bool.or_eq_true] at valid
  cases tail : url.tail with
  | nil => exact .inl rfl
  | cons c rest =>
      rw [tail] at valid
      exact .inr ⟨c, rest, rfl, by simpa using valid.1⟩

/-- The authority ends where the tail begins. -/
theorem span_authority :
    (url.authority ++ url.tail).takeWhile (!isDelimiter ·) = url.authority ∧
      (url.authority ++ url.tail).dropWhile (!isDelimiter ·) = url.tail := by
  rw [List.takeWhile_append_of_pos url.authority_solid,
    List.dropWhile_append_of_pos url.authority_solid]
  rcases url.tail_starts with none_ | ⟨c, rest, tail, delimiter⟩
  · simp [none_]
  · simp [tail, delimiter]

theorem splitOnceText_text :
    splitOnceText schemeMark url.text = some (url.scheme, url.authority ++ url.tail) :=
  findAt_mark url.colon_notMem_scheme _

/-! ### The first label -/

/-- What stands before the host. -/
def lead : List Char := url.userinfo.elim [] (· ++ ['@'])

def portText : List Char := url.port ++ if url.passthrough then ['s'] else []

theorem rsplitOnce_label (before : List Char) :
    rsplitOnce '-' (before ++ url.label) = some (before ++ url.id, url.portText) := by
  refine rsplitOnce_eq_some.mpr ⟨(List.append_assoc _ _ _).symm, ?_⟩
  have digits := notMem_of_digits (digits_of_isPort url.port_).2 (by decide : '-'.isDigit = false)
  simp only [portText, List.mem_append, not_or]
  refine ⟨digits, ?_⟩
  split <;> decide

theorem registered_text_of_passthrough (passthrough : url.passthrough = true) :
    url.registered.text = url.text := by
  simp [text, authority, label, hostRest, registered, passthrough]

theorem registered_text_ne (plain : url.passthrough = false) : url.registered.text ≠ url.text := by
  intro same
  have lengths := congrArg List.length same
  simp [text, authority, label, hostRest, registered, plain] at lengths

/-- Without a dot before the host its first label is the one that is read. -/
theorem rewritten_of_dotless (dotless : '.' ∉ url.lead) {domain : List Char}
    (dotted : url.domain = some domain) :
    toRatlsPassthroughEndpoint debug url.text = .ok url.registered.text := by
  have clean : '.' ∉ url.lead ++ url.label := by
    rw [List.mem_append, not_or]
    exact ⟨dotless, url.notMem_label (.inr rfl) (by decide) (by decide)⟩
  have host : splitOnce '.' ((url.authority ++ url.tail).takeWhile (!isDelimiter ·)) =
      some (url.lead ++ url.label, domain ++ url.number.elim [] (':' :: ·)) := by
    rw [url.span_authority.1, ← splitOnce_append clean]
    simp [authority, hostRest, lead, dotted]
  let parts : TakenApart url.text :=
    ⟨_, _, _, _, _, _, url.splitOnceText_text, host, url.rsplitOnce_label url.lead⟩
  rw [toRatlsPassthroughEndpoint_taken parts]
  cases passthrough : url.passthrough with
  | true =>
      refine .inl ⟨?_, (url.registered_text_of_passthrough passthrough).symm⟩
      change isPassthroughPort url.portText = true
      simp [portText, passthrough, isPassthroughPort, url.port_]
  | false =>
      have port : url.portText = url.port := by simp [portText, passthrough]
      refine .inr ⟨?_, ?_, ?_⟩
      · change isPassthroughPort url.portText = false
        rw [port, isPassthroughPort_of_digits url.port_]
      · change isPort url.portText = true
        rw [port, url.port_]
      · change url.scheme ++ schemeMark ++ (url.lead ++ url.id) ++ '-' :: (url.portText ++ 's' ::
          '.' :: (domain ++ url.number.elim [] (':' :: ·) ++
            (url.authority ++ url.tail).dropWhile (!isDelimiter ·))) = url.registered.text
        rw [url.span_authority.2, port]
        simp [text, authority, label, hostRest, registered, lead, dotted]

/-- A host of one label is refused, if no dot stands before it. -/
theorem textLabel_of_single (dotless : '.' ∉ url.lead) (single : url.domain = none) :
    textLabel url.text = none := by
  have absent : '.' ∉ url.authority := by
    have number : '.' ∉ url.number.elim [] (':' :: ·) := by
      cases here : url.number with
      | none => exact List.not_mem_nil
      | some digits =>
          have inside := notMem_of_digits (url.number_ digits here) (by decide : '.'.isDigit = false)
          simpa using inside
    have label := url.notMem_label (.inr rfl) (by decide) (by decide)
    simp only [authority, hostRest, single, List.mem_append, not_or]
    exact ⟨⟨dotless, label⟩, List.not_mem_nil, number⟩
  rw [textLabel, url.splitOnceText_text, Option.bind_some, url.span_authority.1,
    splitOnce_eq_none.mpr absent]
  rfl

/-- A dot in the userinfo ends what is taken for the first label. -/
theorem splitOnce_of_dotted {first more : List Char}
    (info : url.userinfo = some (first ++ '.' :: more)) (clean : '.' ∉ first) :
    splitOnce '.' ((url.authority ++ url.tail).takeWhile (!isDelimiter ·)) =
      some (first, more ++ ['@'] ++ url.label ++ url.hostRest) := by
  rw [url.span_authority.1, ← splitOnce_append clean]
  simp [authority, info]

/-- The source reads the first label of the host, or both that and what it reads are in the
passthrough form already. -/
def Read : Prop :=
  ('.' ∉ url.lead ∧ url.domain ≠ none) ∨
    ∃ first more, url.userinfo = some (first ++ '.' :: more) ∧ '.' ∉ first ∧
      endsInPassthroughPort first = true ∧ url.passthrough = true

/-- Behind a dot in the userinfo nothing is inserted in the right place. -/
theorem rewritten_iff_of_dotted {first more : List Char}
    (info : url.userinfo = some (first ++ '.' :: more)) (clean : '.' ∉ first) :
    toRatlsPassthroughEndpoint debug url.text = .ok url.registered.text ↔ url.Read := by
  have host := url.splitOnce_of_dotted info clean
  have read : textLabel url.text = some first := by
    rw [textLabel, url.splitOnceText_text, Option.bind_some, host]
    rfl
  constructor
  · intro rewritten
    obtain ⟨label, read', ends⟩ := isOk_iff.mp ⟨_, rewritten⟩
    cases read.symm.trans read'
    obtain ⟨⟨head, port⟩, label_, -⟩ := (Option.any_eq_true _ _).mp ends
    let parts : TakenApart url.text := ⟨_, _, _, _, _, _, url.splitOnceText_text, host, label_⟩
    rcases (toRatlsPassthroughEndpoint_taken parts).mp rewritten with
      ⟨passthrough, same⟩ | ⟨-, -, inserted⟩
    · refine .inr ⟨first, more, info, clean, ?_, ?_⟩
      · simp only [endsInPassthroughPort, label_]
        exact passthrough
      · cases form : url.passthrough with
        | true => rfl
        | false => exact absurd same.symm (url.registered_text_ne form)
    · -- The `s` stands where the userinfo has its dot.
      have whole : first = head ++ '-' :: port := (rsplitOnce_eq_some.mp label_).1
      have before : parts.inserted = (url.scheme ++ schemeMark) ++ (first ++ 's' :: '.' ::
          (parts.hostRest ++ parts.rest.dropWhile (!isDelimiter ·))) := by
        rw [whole]
        simp [TakenApart.inserted, parts]
      have after : ∃ rest, url.registered.text =
          (url.scheme ++ schemeMark) ++ (first ++ '.' :: rest) :=
        ⟨_, by simp [text, authority, registered, info]; rfl⟩
      obtain ⟨rest, after⟩ := after
      rw [before, after] at inserted
      have there := List.append_cancel_left (List.append_cancel_left inserted)
      exact absurd (List.cons.inj there).1 (by decide)
  · rintro (⟨dotless, -⟩ | ⟨first', more', info', clean', ends, passthrough⟩)
    · refine absurd ?_ dotless
      simp [lead, info]
    · obtain ⟨rfl, -⟩ := append_cons_inj clean clean' (Option.some.inj (info.symm.trans info'))
      obtain ⟨⟨head, port⟩, label_, ends⟩ := (Option.any_eq_true _ _).mp ends
      let parts : TakenApart url.text := ⟨_, _, _, _, _, _, url.splitOnceText_text, host, label_⟩
      exact (toRatlsPassthroughEndpoint_taken parts).mpr
        (.inl ⟨ends, (url.registered_text_of_passthrough passthrough).symm⟩)

/-- A URL is rewritten as registered exactly if it is read. -/
theorem rewritten_iff :
    toRatlsPassthroughEndpoint debug url.text = .ok url.registered.text ↔ url.Read := by
  by_cases dot : '.' ∈ url.lead
  · have info : '.' ∈ url.userinfo.getD [] := by
      unfold lead at dot
      cases here : url.userinfo with
      | none =>
          rw [here] at dot
          exact dot
      | some text =>
          rw [here] at dot
          simpa using dot
    cases here : url.userinfo with
    | none =>
        rw [here] at info
        exact absurd info List.not_mem_nil
    | some text =>
        rw [here] at info
        obtain ⟨first, more, whole, clean⟩ := List.eq_append_cons_of_mem info
        change text = _ at whole
        subst whole
        exact url.rewritten_iff_of_dotted here clean
  · cases domain : url.domain with
    | none =>
        refine iff_of_false (fun rewritten => ?_) ?_
        · obtain ⟨label, read, -⟩ := isOk_iff.mp ⟨_, rewritten⟩
          rw [url.textLabel_of_single dot domain] at read
          cases read
        · rintro (⟨-, some_⟩ | ⟨first, more, info, -⟩)
          · exact some_ domain
          · refine dot ?_
            simp [lead, info]
    | some text =>
        exact iff_of_true (url.rewritten_of_dotless dot domain) (.inl ⟨dot, by simp [domain]⟩)

end DstackUrl

theorem splitOnceText_again {scheme rest : List Char}
    (cut : splitOnceText schemeMark endpoint = some (scheme, rest)) (other : List Char) :
    splitOnceText schemeMark (scheme ++ schemeMark ++ other) = some (scheme, other) := by
  obtain ⟨⟨before, found⟩, at_, same⟩ := Option.map_eq_some_iff.mp cut
  cases same
  have clean := (findAt_clean at_).resolve_left (by decide)
  rw [splitOnceText, List.append_assoc, findAt_append clean, Option.map_some, List.drop_left]

theorem takeWhile_dropWhile (p : Char → Bool) (text : List Char) :
    (text.dropWhile p).takeWhile p = [] := by
  cases rest : text.dropWhile p with
  | nil => rfl
  | cons c later =>
      have head := List.head?_dropWhile_not p text
      rw [rest] at head
      exact List.takeWhile_cons_of_neg (by simpa using head)

/-- A result is left as it is. -/
theorem rewritten_again (rewritten : toRatlsPassthroughEndpoint debug endpoint = .ok result) :
    toRatlsPassthroughEndpoint debug result = .ok result := by
  obtain ⟨parts⟩ := taken_of_ok rewritten
  rcases (toRatlsPassthroughEndpoint_taken parts).mp rewritten with ⟨-, rfl⟩ | ⟨-, port, rfl⟩
  · exact rewritten
  · -- The label that is read again is the one with the `s`.
    have authority := (splitOnce_eq_some.mp parts.host_).1
    obtain ⟨label, -⟩ := rsplitOnce_eq_some.mp parts.label_
    have labelClean := (splitOnce_eq_some.mp parts.host_).2
    have portClean := (rsplitOnce_eq_some.mp parts.label_).2
    have solid : ∀ c ∈ parts.firstLabel ++ 's' :: '.' :: parts.hostRest,
        (!isDelimiter c) = true := by
      intro c mem
      by_cases suffix : c = 's'
      · subst suffix
        decide
      · refine List.mem_takeWhile_imp (l := parts.rest) (p := (!isDelimiter ·)) ?_
        rw [authority]
        simpa [suffix] using mem
    have host : splitOnce '.' ((parts.firstLabel ++ 's' :: '.' :: (parts.hostRest ++
        parts.rest.dropWhile (!isDelimiter ·))).takeWhile (!isDelimiter ·)) =
          some (parts.firstLabel ++ ['s'], parts.hostRest) := by
      have clean : '.' ∉ parts.firstLabel ++ ['s'] := by
        simpa using labelClean
      have whole : parts.firstLabel ++ 's' :: '.' :: (parts.hostRest ++
          parts.rest.dropWhile (!isDelimiter ·)) =
            (parts.firstLabel ++ 's' :: '.' :: parts.hostRest) ++
              parts.rest.dropWhile (!isDelimiter ·) := by simp
      rw [whole, List.takeWhile_append_of_pos solid, takeWhile_dropWhile, List.append_nil,
        ← splitOnce_append clean]
      simp
    have last : rsplitOnce '-' (parts.firstLabel ++ ['s']) =
        some (parts.labelHead, parts.port ++ ['s']) := by
      refine rsplitOnce_eq_some.mpr ⟨by simp [label], ?_⟩
      simpa using portClean
    have scheme := splitOnceText_again parts.scheme_ (parts.firstLabel ++ 's' :: '.' ::
      (parts.hostRest ++ parts.rest.dropWhile (!isDelimiter ·)))
    have same : parts.inserted = parts.scheme ++ schemeMark ++ (parts.firstLabel ++ 's' :: '.' ::
        (parts.hostRest ++ parts.rest.dropWhile (!isDelimiter ·))) := by
      rw [label]
      simp [TakenApart.inserted]
    rw [← same] at scheme
    let again : TakenApart parts.inserted := ⟨_, _, _, _, _, _, scheme, host, last⟩
    refine (toRatlsPassthroughEndpoint_taken again).mpr (.inl ⟨?_, rfl⟩)
    change isPassthroughPort (parts.port ++ ['s']) = true
    simp [isPassthroughPort, port]

/-- What the rewriting of an endpoint is for. -/
structure Rewritten (debug : Debug) (endpoint : List Char) : Prop where
  succeeds : ∀ url : DstackUrl, url.text = endpoint →
    toRatlsPassthroughEndpoint debug endpoint = .ok url.registered.text
  fails : (∀ url : DstackUrl, url.text ≠ endpoint) →
    ∃ error, toRatlsPassthroughEndpoint debug endpoint = .error error
  again : ∀ result, toRatlsPassthroughEndpoint debug endpoint = .ok result →
    toRatlsPassthroughEndpoint debug result = .ok result

/-- An endpoint is rewritten as it should be exactly if its host is what the source reads, or it is
no URL of the shape and does not look like one. -/
theorem rewrites_iff (debug : Debug) (endpoint : List Char) :
    Rewritten debug endpoint ↔
      (∀ url : DstackUrl, url.text = endpoint → url.Read) ∧
        ((∀ url : DstackUrl, url.text ≠ endpoint) →
          ∀ label, textLabel endpoint = some label → endsInPort label = false) := by
  constructor
  · rintro ⟨succeeds, fails, -⟩
    refine ⟨fun url same => ?_, fun none_ label read => ?_⟩
    · subst same
      exact url.rewritten_iff.mp (succeeds url rfl)
    · obtain ⟨error, failed⟩ := fails none_
      refine Bool.eq_false_iff.mpr fun ends => ?_
      obtain ⟨result, rewritten⟩ := isOk_iff.mpr ⟨label, read, ends⟩
      rw [failed] at rewritten
      cases rewritten
  · rintro ⟨read, other⟩
    refine ⟨fun url same => ?_, fun none_ => ?_, fun result => rewritten_again⟩
    · subst same
      exact url.rewritten_iff.mpr (read url rfl)
    · cases rewritten : toRatlsPassthroughEndpoint debug endpoint with
      | error error => exact ⟨error, rfl⟩
      | ok result =>
          obtain ⟨label, here, ends⟩ := isOk_iff.mp ⟨result, rewritten⟩
          exact absurd (other none_ label here) (by simp [ends])

/-- `https://u-1.x@app-8080.h.net`. -/
def dottedUserinfo : DstackUrl where
  scheme := "https".toList
  userinfo := some "u-1.x".toList
  id := "app".toList
  port := "8080".toList
  passthrough := false
  domain := some "h.net".toList
  number := none
  tail := []
  scheme_ := by decide
  userinfo_ := by simp [isUriText, isUserinfoChar, isRegNameChar, isUnreserved]
  id_ := by decide
  port_ := by decide
  domain_ := by simp [isUriText, isRegNameChar, isUnreserved]
  number_ := by simp
  tail_ := by decide

/-- The `s` ends up in the userinfo. -/
theorem dottedUserinfo_misread :
    toRatlsPassthroughEndpoint String.ofList dottedUserinfo.text =
        .ok "https://u-1s.x@app-8080.h.net".toList ∧
      ¬ Rewritten String.ofList dottedUserinfo.text := by
  have result : toRatlsPassthroughEndpoint String.ofList dottedUserinfo.text =
      .ok "https://u-1s.x@app-8080.h.net".toList := rfl
  refine ⟨result, fun right => ?_⟩
  have registered := right.succeeds dottedUserinfo rfl
  rw [result] at registered
  exact absurd (Except.ok.inj registered) (by decide)

end GmMiner.Cli
