import Mathlib.Init

/-!
Errors of the Azure verification and which of them are worth a retry
(`azure-verify/src/error.rs`).

An `anyhow::Error` is its chain of causes, the outermost first.
-/

namespace GmMiner.Azure

/-- An HTTP status, with the text it displays as (`429 Too Many Requests`). -/
structure StatusCode where
  code : Nat
  display : String
  deriving DecidableEq, Repr

structure AzureHttpStatusError where
  label : String
  status : StatusCode
  body : String
  deriving DecidableEq, Repr

/-- What is asked of a `reqwest::Error`; its sources follow it in the chain. -/
structure ReqwestError where
  isTimeout : Bool
  isConnect : Bool
  isDecode : Bool
  status : Option StatusCode
  display : String
  deriving DecidableEq, Repr

/-- `io::ErrorKind`, as far as it is told apart. -/
inductive ErrorKind
  | connectionReset
  | connectionAborted
  | brokenPipe
  | unexpectedEof
  | other
  deriving DecidableEq, Repr

/-- One error of a chain. -/
inductive Cause
  | message (text : String)
  | status (error : AzureHttpStatusError)
  | reqwest (error : ReqwestError)
  | io (kind : ErrorKind) (display : String)
  | hyper (isIncompleteMessage : Bool) (display : String)
  deriving DecidableEq, Repr

def Cause.toString : Cause → String
  | message text => text
  | status error =>
      error.label ++ " request failed (" ++ error.status.display ++ "): " ++ error.body
  | reqwest error => error.display
  | io _ display => display
  | hyper _ display => display

/-- `anyhow::Error`. -/
abbrev AnyError := List Cause

namespace AnyError

/-- `anyhow!` and `bail!`. -/
def msg (text : String) : AnyError := [.message text]

/-- `Error::context`. -/
def context (error : AnyError) (text : String) : AnyError := .message text :: error

/-- `Error::to_string`: the outermost cause. -/
def toString : AnyError → String
  | [] => ""
  | cause :: _ => cause.toString

/-- The alternate form, `{:#}`. -/
def chain (error : AnyError) : String := ": ".intercalate (error.map Cause.toString)

end AnyError

inductive VerificationFailureKind
  | transient
  | definitive
  deriving DecidableEq, Repr

def statusIsTransient (status : StatusCode) : Bool :=
  (500 ≤ status.code && status.code < 600) || status.code == 429 || status.code == 408

def causeIsDroppedConnection : Cause → Bool
  | .io kind _ =>
      kind = .connectionReset || kind = .connectionAborted || kind = .brokenPipe ||
        kind = .unexpectedEof
  | .hyper isIncompleteMessage _ => isIncompleteMessage
  | _ => false

def classifyVerificationError : AnyError → VerificationFailureKind
  | [] => .definitive
  | .status error :: _ => if statusIsTransient error.status then .transient else .definitive
  | .reqwest error :: sources =>
      if error.isTimeout || error.isConnect || error.isDecode ||
          error.status.any statusIsTransient || sources.any causeIsDroppedConnection then .transient
      else classifyVerificationError sources
  | _ :: sources => classifyVerificationError sources

/-- An error of this crate's own making is definitive. -/
@[simp] theorem classify_msg (text : String) :
    classifyVerificationError (.msg text) = .definitive := rfl

@[simp] theorem chain_msg (text : String) : (AnyError.msg text).chain = text := rfl

@[simp] theorem toString_msg (text : String) : (AnyError.msg text).toString = text := rfl

end GmMiner.Azure
