import GmMiner.Kubetee.Binding
import GmMiner.Lib.Result

/-!
The appraisal of TDX quotes (`attestd/src/tee_evidence.rs`).

The library that verifies a quote's signature chain and the policy it applies are parameters.
-/

namespace GmMiner.TeeEvidence

open GmMiner.Lib

/-- `TDReport10`. -/
structure TdReport where
  tdAttributes : Vector UInt8 8
  mrTd : Vector UInt8 48
  mrConfigId : Vector UInt8 48
  rtMrs : Vector (Vector UInt8 48) 4
  reportData : Vector UInt8 64
  deriving DecidableEq

inductive Report
  | td10 (td : TdReport)
  | td15 (base : TdReport)
  | sgxEnclave
  deriving DecidableEq

/-- A TCB status is its name. -/
structure QuoteClaims where
  report : Report
  platformTcb : String
  qeTcb : String
  earliestExpirationDate : Nat

/-- The Intel collateral a quote is verified against. -/
structure Collateral where
  verifySignatureChain : Bytes → Except String QuoteClaims
  /-- `QuotePolicy::strict`, with the platform flags that are accepted. -/
  policyAllows : Nat → QuoteClaims → Bool
  /-- When it was fetched. -/
  now : Nat

def tdReport : Report → Except String TdReport
  | .td10 td => .ok td
  | .td15 base => .ok base
  | .sgxEnclave => .error "attestation is SGX, expected TDX"

section Appraisal

variable (collateral : Collateral)

def appraise (claims : QuoteClaims) : Except String TdReport := do
  ensure (collateral.policyAllows collateral.now claims) "TDX quote fails the UpToDate DCAP policy"
  ensure (claims.platformTcb == "UpToDate")
    ("TDX platform TCB status is " ++ claims.platformTcb ++ ", expected UpToDate")
  ensure (claims.qeTcb == "UpToDate")
    ("TDX QE TCB status is " ++ claims.qeTcb ++ ", expected UpToDate")
  let td ← tdReport claims.report
  ensure (td.tdAttributes[0] &&& 1 == 0) "TDX quote has the debug attribute set"
  return td

def verifyQuote (quote : Bytes) : Except String QuoteClaims := do
  let claims ← collateral.verifySignatureChain quote
  discard <| appraise collateral claims
  return claims

/-- A quote is Intel's, of a TD without debugging on an up-to-date platform. -/
structure Genuine (quote : Bytes) (claims : QuoteClaims) (td : TdReport) : Prop where
  verified : collateral.verifySignatureChain quote = .ok claims
  allowed : collateral.policyAllows collateral.now claims = true
  upToDate : claims.platformTcb = "UpToDate" ∧ claims.qeTcb = "UpToDate"
  report : tdReport claims.report = .ok td
  noDebug : td.tdAttributes[0] &&& 1 = 0

variable {collateral}

/-- A quote whose chain verified and whose claims were appraised is genuine. -/
theorem genuine_of_appraise {quote : Bytes} {claims : QuoteClaims} {td : TdReport}
    (chain : collateral.verifySignatureChain quote = .ok claims)
    (appraised : appraise collateral claims = .ok td) : Genuine collateral quote claims td := by
  unfold appraise at appraised
  simp only [bind_eq_ok, ensure_eq_ok, beq_iff_eq] at appraised
  obtain ⟨-, allowed, -, platform, -, qe, _, report, -, noDebug, same⟩ := appraised
  cases same
  exact ⟨chain, allowed, ⟨platform, qe⟩, report, noDebug⟩

/-- A quote that was verified is genuine, with the TD report read from it. -/
theorem genuine_of_verifyQuote {quote : Bytes} {claims : QuoteClaims} {td : TdReport}
    (verified : verifyQuote collateral quote = .ok claims)
    (report : tdReport claims.report = .ok td) : Genuine collateral quote claims td := by
  unfold verifyQuote at verified
  obtain ⟨given, chain, verified⟩ := bind_eq_ok.mp verified
  obtain ⟨⟨⟩, appraised, same⟩ := bind_eq_ok.mp verified
  cases same
  obtain ⟨own, appraised, -⟩ := bind_eq_ok.mp appraised
  have genuine := genuine_of_appraise chain appraised
  cases report.symm.trans genuine.report
  exact genuine

/-- What a quote reports is in the quote, whatever collateral it is verified against. -/
def Collateral.ReadsAlike (collateral other : Collateral) : Prop :=
  ∀ quote claims claims', collateral.verifySignatureChain quote = .ok claims →
    other.verifySignatureChain quote = .ok claims' → claims.report = claims'.report

/-- Two readings of one quote are of one TD report. -/
theorem Genuine.same_report {other : Collateral} {quote : Bytes} {claims claims' : QuoteClaims}
    {td td' : TdReport} (first : Genuine collateral quote claims td)
    (second : Genuine other quote claims' td') (alike : collateral.ReadsAlike other) : td = td' := by
  have report := first.report
  rw [alike _ _ _ first.verified second.verified, second.report] at report
  exact (Except.ok.inj report).symm

end Appraisal

/-! ### Nonces -/

open Kubetee

/-- `hex::encode` of a `random_nonce`. -/
def nonceText (nonce : Digest) : String := String.ofList (hexEncode nonce.toList)

/-- Hexadecimal takes two characters a byte. -/
theorem length_hexEncode (bytes : Bytes) : (hexEncode bytes).length = 2 * bytes.length := by
  induction bytes with
  | nil => rfl
  | cons byte bytes ih =>
      rw [hexEncode, List.flatMap_cons, List.length_append]
      rw [hexEncode] at ih
      simp only [ih, hexByte, List.length_cons, List.length_nil]
      omega

/-- What is hashed says where the nonce ends. -/
theorem nonceText_append_inj {nonce other : Digest} {key otherKey : String}
    (same : asBytes (nonceText nonce) ++ asBytes key = asBytes (nonceText other) ++ asBytes otherKey) :
    nonce = other ∧ key = otherKey := by
  rw [← asBytes_append, ← asBytes_append] at same
  have texts := congrArg String.toList (asBytes_injective same)
  rw [String.toList_append, String.toList_append, nonceText, nonceText, String.toList_ofList,
    String.toList_ofList] at texts
  have lengths : (hexEncode nonce.toList).length = (hexEncode other.toList).length := by
    rw [length_hexEncode, length_hexEncode, Vector.length_toList, Vector.length_toList]
  obtain ⟨digits, keys⟩ := List.append_inj texts lengths
  have marked : hexEncode nonce.toList ++ ['"'] ++ [] =
      hexEncode other.toList ++ ['"'] ++ [] := by
    rw [digits]
  obtain ⟨bytes, -⟩ := readsBack_hexEncode nonce.toList other.toList _ _ trivial marked
  exact ⟨Vector.toList_inj.mp bytes, String.toList_inj.mp keys⟩

/-- Two nonces written alike are the same. -/
theorem nonceText_injective {nonce other : Digest} (same : nonceText nonce = nonceText other) :
    nonce = other :=
  (nonceText_append_inj (congrArg (fun text => asBytes text ++ asBytes "") same)).1

end GmMiner.TeeEvidence
