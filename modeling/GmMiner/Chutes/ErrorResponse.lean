import GmMiner.Chutes.Prepare
import GmMiner.GatewayContract

/-!
The response a failed Chutes request gets (`into_response` of `attestd/src/chutes_verify/error.rs`),
and when the gateway takes it for a failure of the worker's account.
-/

namespace GmMiner.Chutes

open GmMiner.Json GmMiner.GatewayContract

namespace ChutesError

def status : ChutesError → Nat
  | badRequest _ => 400
  | missingCredential => 401
  | upstream _ status => status.code
  | unavailable _ | rateLimited _ => 503
  | belowEvidenceMinimum | rejected _ | badResponse _ => 502

def kind : ChutesError → String
  | badRequest _ => "gm_chutes_bad_request"
  | missingCredential => "gm_chutes_missing_credential"
  | upstream _ _ => "gm_chutes_upstream_status"
  | unavailable _ | rateLimited _ => "gm_chutes_attestation_unavailable"
  | belowEvidenceMinimum | rejected _ => "gm_chutes_attestation_rejected"
  | badResponse _ => "gm_chutes_response_rejected"

def accountMarker : ChutesError → Option String
  | missingCredential => some "invalid_api_key"
  | upstream _ status =>
      if status.code = 401 ∨ status.code = 403 then some "invalid_api_key"
      else if status.code = 402 then some "insufficient_quota"
      else none
  | _ => none

def message (error : ChutesError) : String :=
  match error.accountMarker with
  | some marker => error.toString ++ " (" ++ marker ++ ")"
  | none => error.toString

/-- The text of `{"error": {"type": …, "message": …}}`. The image builds the whole workspace,
in which `gmcli` turns on `preserve_order`, so the members stand as they are written. -/
def body (error : ChutesError) : List Char :=
  "\x7b\"error\":\x7b\"type\":".toList ++ quoted error.kind.toList ++ ",\"message\":".toList ++
    (quoted error.message.toList ++ "\x7d\x7d".toList)

end ChutesError

structure ErrorResponse where
  status : Nat
  contentType : String
  body : List Char

def ChutesError.intoResponse (error : ChutesError) : ErrorResponse where
  status := error.status
  contentType := "application/json"
  body := error.body

/-! ### Which errors read as a failure of the account -/

/-- The texts an error is built with. -/
def ChutesError.texts : ChutesError → List String
  | badRequest message => [message]
  | upstream stage status => [stage, status.display]
  | unavailable cause | rejected cause | badResponse cause => [cause]
  | rateLimited stage => [stage]
  | missingCredential | belowEvidenceMinimum => []

/-- Every kind of error, as it stands in a body. -/
def kinds : List String :=
  ["gm_chutes_bad_request", "gm_chutes_missing_credential", "gm_chutes_upstream_status",
    "gm_chutes_attestation_unavailable", "gm_chutes_attestation_rejected",
    "gm_chutes_response_rejected"]

theorem kind_mem_kinds (error : ChutesError) : error.kind ∈ kinds := by
  cases error <;> simp [ChutesError.kind, kinds]

/-- A fact about the letters of texts, proved of the letters they are spelled with. -/
theorem forall_of_spelled {texts : List String} {letters : List (List Char)} {P : List Char → Prop}
    (spelled : letters.map String.ofList = texts) (all : ∀ chars ∈ letters, P chars) :
    ∀ text ∈ texts, P text.toList := by
  intro text mem
  obtain ⟨chars, held, rfl⟩ := List.mem_map.mp (spelled ▸ mem)
  rw [String.toList_ofList]
  exact all chars held

/-- Of a body only the message can carry a signal. -/
theorem signalsDrain_body (error : ChutesError) :
    signalsDrain error.body = marked error.message.toList := by
  have spelled : [_, _, _, _, _, _].map String.ofList = kinds := rfl
  have opened : String.ofList _ = "\x7b\"error\":\x7b\"type\":" := rfl
  have between : String.ofList _ = ",\"message\":" := rfl
  have before : ∀ kind ∈ kinds, unmarked ("\x7b\"error\":\x7b\"type\":".toList ++
      quoted kind.toList ++ ",\"message\":".toList) = true := by
    refine forall_of_spelled (P := fun kind => unmarked ("\x7b\"error\":\x7b\"type\":".toList ++
      quoted kind ++ ",\"message\":".toList) = true) spelled ?_
    simp only [unmarked_eq, toList_of opened, toList_of between]
    decide
  have after : unmarked "\x7d\x7d".toList = true := by
    rw [unmarked_eq]
    decide
  exact signalsDrain_quoted (before _ (kind_mem_kinds error)) after _

theorem message_of_accountMarker {error : ChutesError} (none_ : error.accountMarker = none) :
    error.message = error.toString := by
  unfold ChutesError.message
  rw [none_]

/-- What the code's own messages put before a text of another. -/
def openings : List String :=
  ["Chutes ", " answered ", "attestation unavailable: ", "attestation rejected: ",
    "response rejected: "]

theorem openings_open : ∀ text ∈ openings, opening text.toList = true := by
  have spelled : [_, _, _, _, _].map String.ofList = openings := rfl
  refine forall_of_spelled (P := fun text => opening text = true) spelled ?_
  simp only [opening_eq]
  decide

theorem marked_behind {before : String} (own : before ∈ openings) (cause : String) :
    marked (before ++ cause).toList = marked cause.toList := by
  rw [String.toList_append, marked_opening (openings_open before own)]

theorem marked_answered (stage status : String) :
    marked ("Chutes " ++ stage ++ " answered " ++ status).toList =
      (marked stage.toList || marked status.toList) := by
  have spelled : String.ofList _ = " answered " := rfl
  have starts : closing " answered ".toList = true := by
    rw [closing_eq, toList_of spelled]
    decide
  have ends := openings_open " answered " (by simp [openings])
  rw [String.append_assoc, String.append_assoc, marked_behind (by simp [openings]),
    String.toList_append, String.toList_append, marked_seam starts ends]

/-- An error is marked exactly if one of the texts in it is. -/
theorem marked_toString (error : ChutesError) (other : error ≠ .missingCredential) :
    marked error.toString.toList = error.texts.any fun text => marked text.toList := by
  cases error with
  | badRequest message => exact (Bool.or_false _).symm
  | missingCredential => exact absurd rfl other
  | upstream stage status =>
      refine (marked_answered stage status.display).trans ?_
      simp [ChutesError.texts]
  | unavailable cause =>
      exact (marked_behind (by simp [openings]) cause).trans (Bool.or_false _).symm
  | rateLimited stage =>
      have spelled : String.ofList _ = "429 Too Many Requests" := rfl
      have status : marked "429 Too Many Requests".toList = false := by
        rw [marked_eq, toList_of spelled]
        decide
      have same : (ChutesError.rateLimited stage).toString =
          "attestation unavailable: " ++
            ("Chutes " ++ stage ++ " answered " ++ "429 Too Many Requests") := by
        have front : "attestation unavailable: Chutes " =
            "attestation unavailable: " ++ "Chutes " := rfl
        have back : " answered 429 Too Many Requests" = " answered " ++ "429 Too Many Requests" :=
          rfl
        rw [ChutesError.toString.eq_def]
        dsimp only
        rw [front, back]
        simp only [String.append_assoc]
      rw [same, marked_behind (by simp [openings]), marked_answered, status]
      rfl
  | belowEvidenceMinimum =>
      have spelled : String.ofList _ =
        "attestation rejected: the chute's version is below Chutes' evidence minimum" := rfl
      refine (congrArg marked (toList_of spelled)).trans ?_
      rw [marked_eq]
      decide
  | rejected cause =>
      exact (marked_behind (by simp [openings]) cause).trans (Bool.or_false _).symm
  | badResponse cause =>
      exact (marked_behind (by simp [openings]) cause).trans (Bool.or_false _).symm

/-- An error that is no account failure reads as one just when a text it was built with brings a
signal along. -/
theorem signalsDrain_intoResponse (error : ChutesError) (credential : error ≠ .missingCredential)
    (status : ∀ stage status, error = .upstream stage status → status.code ∉ [401, 402, 403]) :
    signalsDrain error.intoResponse.body = false ↔
      ∀ text ∈ error.texts, marked text.toList = false := by
  have none_ : error.accountMarker = none := by
    cases error with
    | missingCredential => exact absurd rfl credential
    | upstream stage answered =>
        have apart := status stage answered rfl
        simp only [List.mem_cons, List.not_mem_nil, or_false, not_or] at apart
        simp [ChutesError.accountMarker, apart]
    | badRequest | unavailable | rateLimited | belowEvidenceMinimum | rejected | badResponse => rfl
  unfold ChutesError.intoResponse
  dsimp only
  rw [signalsDrain_body, message_of_accountMarker none_, marked_toString error credential,
    List.any_eq_false]
  simp only [Bool.not_eq_true]

/-- An unknown measurement drains nothing. -/
theorem signalsDrain_rejected :
    signalsDrain (ChutesError.rejected "unknown MRTD").intoResponse.body = false :=
  (signalsDrain_intoResponse (.rejected "unknown MRTD") (by simp) (by simp)).mpr fun text mem => by
    rw [List.mem_singleton.mp mem, marked_eq]
    decide

/-- A request that selects a model of that name. -/
def quotaRequest : ChatRequest where
  headers := [(selectorHeader, "insufficient_quota")]
  method := "POST"
  path := chatCompletions
  body := some []

/-- A buyer's selector reads as a failure of the worker's account. -/
theorem quotaRequest_drains : ∃ error : ChutesError,
    (∀ decode, (prepare decode quotaRequest).map (fun _ => ()) = .error error) ∧
      error ≠ .missingCredential ∧ (∀ stage status, error ≠ .upstream stage status) ∧
        signalsDrain error.intoResponse.body = true :=
  ⟨.badRequest "insufficient_quota is not a verified Chutes model", fun _ => rfl, by simp, by simp, by
    have spelled : String.ofList _ = "insufficient_quota is not a verified Chutes model" := rfl
    unfold ChutesError.intoResponse
    rw [signalsDrain_body]
    refine (congrArg marked (toList_of spelled)).trans ?_
    rw [marked_eq]
    decide⟩

end GmMiner.Chutes
