import GmMiner.Json.Document
import GmMiner.Lib.Headers
import GmMiner.Lib.Result
import GmMiner.Text

/-!
What the attesting proxies do to the messages that pass through them (`attestd/src/upstream_proxy.rs`).

A body is its frames. The name of a field is in lower case, and its value is the text of its bytes.
-/

namespace GmMiner.UpstreamProxy

open GmMiner.Lib GmMiner.Json

inductive Frame
  | data (bytes : Bytes)
  | trailers (fields : Headers)
  deriving DecidableEq, Repr

/-- The bytes of a body. -/
def dataOf (frames : List Frame) : Bytes :=
  frames.flatMap fun frame =>
    match frame with
    | .data bytes => bytes
    | .trailers _ => []

/-- `http::Uri`: where it leads, if it says so, and its `PathAndQuery`. -/
structure Uri where
  authority : Option String
  pathAndQuery : String
  deriving DecidableEq, Repr

/-- `uri().path()`. -/
def Uri.path (uri : Uri) : String := String.ofList (uri.pathAndQuery.toList.takeWhile (· ≠ '?'))

structure Request where
  method : String
  uri : Uri
  headers : Headers
  body : List Frame
  deriving DecidableEq, Repr

structure Response where
  status : Nat
  headers : Headers
  body : List Frame
  deriving DecidableEq, Repr

/-- `HeaderValue::to_str`. -/
def toStr (value : String) : Option String :=
  if value.toList.all fun c => (' ' ≤ c && c ≤ '~') || c == '\t' then some value else none

theorem toStr_eq_some {value text : String} (read : toStr value = some text) : value = text := by
  unfold toStr at read
  split at read
  · exact Option.some.inj read
  · cases read

/-- The header Envoy names the upstream model in (`SELECTOR_HEADER`). -/
def selectorHeader : String := "x-gm-upstream-model"

def hopByHop : List String :=
  ["connection", "transfer-encoding", "upgrade", "keep-alive", "proxy-authenticate",
    "proxy-authorization"]

/-- `strip_hop_by_hop`. -/
def stripHopByHop (headers : Headers) : Headers := headers.removeAll hopByHop

/-- Fields of a request as they are sent to a host: without some, and with its `Host`. -/
theorem values_stripHopByHop_set {headers : Headers} {host name : String} :
    ((stripHopByHop headers).set "host" host).values name =
      if name = "host" then [host] else if name ∈ hopByHop then [] else headers.values name := by
  rw [Headers.set, Headers.values_add, Headers.values_remove, stripHopByHop, Headers.values_removeAll]
  split <;> simp

/-! ### Attestation attempts -/

/-- `ATTESTATION_ATTEMPTS`. -/
def attestationAttempts : Nat := 3

/-- The rest of `retry_attestation`, with the failures so far: an attempt that succeeds is the last
one. -/
def retryFrom {A : Type} (provider : String) (attempt : Nat → Except String A) :
    Nat → Nat → List String → Except String A
  | 0, _, failures =>
      .error (provider ++ " attestation failed after " ++ toString attestationAttempts ++
        " attempts: " ++ "; ".intercalate failures)
  | left + 1, number, failures =>
      match attempt number with
      | .ok value => .ok value
      | .error error => retryFrom provider attempt left (number + 1)
          (failures ++ ["attempt " ++ toString number ++ ": " ++ error])

/-- `retry_attestation`. -/
def retryAttestation {A : Type} (provider : String) (attempt : Nat → Except String A) :
    Except String A :=
  retryFrom provider attempt attestationAttempts 1 []

/-- A retried attempt that succeeds is the first that does, after failures alone. -/
theorem retryFrom_eq_ok {A : Type} {provider : String} {attempt : Nat → Except String A}
    {left number : Nat} {failures : List String} {value : A}
    (succeeded : retryFrom provider attempt left number failures = .ok value) :
    ∃ n, n < left ∧ attempt (number + n) = .ok value ∧
      ∀ m < n, ∃ error, attempt (number + m) = .error error := by
  induction left generalizing number failures with
  | zero => cases succeeded
  | succ left ih =>
      rw [retryFrom] at succeeded
      cases first : attempt number with
      | ok given =>
          rw [first] at succeeded
          cases succeeded
          exact ⟨0, Nat.succ_pos _, first, nofun⟩
      | error error =>
          rw [first] at succeeded
          obtain ⟨n, within, accepted, earlier⟩ := ih succeeded
          refine ⟨n + 1, Nat.succ_lt_succ within, ?_, fun m before => ?_⟩
          · rw [← accepted, Nat.add_right_comm, Nat.add_assoc]
          · cases m with
            | zero => exact ⟨error, first⟩
            | succ m =>
                obtain ⟨error, failed⟩ := earlier m (Nat.lt_of_succ_lt_succ before)
                exact ⟨error, by rw [← failed, Nat.add_right_comm, Nat.add_assoc]⟩

/-- The first attempt to succeed is the one returned, if the tries reach it. -/
theorem retryFrom_of_ok {A : Type} {provider : String} {attempt : Nat → Except String A}
    {left number n : Nat} {failures : List String} {value : A} (within : n < left)
    (accepted : attempt (number + n) = .ok value)
    (earlier : ∀ m < n, ∃ error, attempt (number + m) = .error error) :
    retryFrom provider attempt left number failures = .ok value := by
  induction n generalizing left number failures with
  | zero =>
      obtain ⟨left, rfl⟩ := Nat.exists_eq_succ_of_ne_zero (Nat.ne_of_gt within)
      simp only [Nat.add_zero] at accepted
      simp only [retryFrom, accepted]
  | succ n ih =>
      obtain ⟨left, rfl⟩ := Nat.exists_eq_succ_of_ne_zero (Nat.ne_zero_of_lt within)
      obtain ⟨error, failed⟩ := earlier 0 (Nat.succ_pos n)
      simp only [Nat.add_zero] at failed
      simp only [retryFrom, failed]
      refine ih (Nat.lt_of_succ_lt_succ within) ?_ fun m before => ?_
      · rwa [Nat.add_assoc, Nat.add_comm 1 n]
      · rw [Nat.add_assoc, Nat.add_comm 1 m]
        exact earlier (m + 1) (Nat.succ_lt_succ before)

/-- What an attestation gives is what its first successful attempt gave, of at most three. -/
theorem retryAttestation_eq_ok {A : Type} {provider : String} {attempt : Nat → Except String A}
    {value : A} (succeeded : retryAttestation provider attempt = .ok value) :
    ∃ n, 1 ≤ n ∧ n ≤ attestationAttempts ∧ attempt n = .ok value ∧
      ∀ m, 1 ≤ m → m < n → ∃ error, attempt m = .error error := by
  obtain ⟨n, within, accepted, earlier⟩ := retryFrom_eq_ok succeeded
  refine ⟨1 + n, Nat.le_add_right 1 n, by omega, accepted, fun m positive before => ?_⟩
  have failed := earlier (m - 1) (by omega)
  rwa [Nat.add_sub_cancel' positive] at failed

/-- An attempt that succeeds after one that failed settles the attestation. -/
theorem retryAttestation_of_second {A : Type} {provider : String} {attempt : Nat → Except String A}
    {error : String} {value : A} (failed : attempt 1 = .error error) (accepted : attempt 2 = .ok value) :
    retryAttestation provider attempt = .ok value := by
  refine retryFrom_of_ok (n := 1) (by decide) accepted fun m before => ⟨error, ?_⟩
  rwa [Nat.lt_one_iff.mp before]

end GmMiner.UpstreamProxy
