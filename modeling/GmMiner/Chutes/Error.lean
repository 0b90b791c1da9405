/-!
The chutes served through the attested transport and the errors of a Chutes
request (`attestd/src/chutes_verify.rs`, `attestd/src/chutes_verify/error.rs`).
-/

namespace GmMiner.Chutes

structure ChutesTarget where
  model : String
  chuteId : String
  deriving DecidableEq, Repr

/-- Every Chutes `-TEE` model sourced, with the chute it is served from. -/
def targets : List ChutesTarget :=
  [⟨"Qwen/Qwen3-32B-TEE", "ac059e33-eb27-541c-b9a9-24b214036475"⟩,
    ⟨"google/gemma-4-31B-turbo-TEE", "42ee92ba-a537-5a73-8741-876067750db7"⟩,
    ⟨"zai-org/GLM-5.1-TEE", "b048fe26-0352-5c46-acf7-335e527e7f3d"⟩,
    ⟨"deepseek-ai/DeepSeek-V3.2-TEE", "398651e1-5f85-5e50-a513-7c5324e8e839"⟩,
    ⟨"moonshotai/Kimi-K2.6-TEE", "aac09863-35b4-5d9b-9b67-6e6a9d54273a"⟩,
    ⟨"Qwen/Qwen3.5-397B-A17B-TEE", "51a4284a-a5a0-5e44-a9cc-6af5a2abfbcf"⟩,
    ⟨"Qwen/Qwen3.6-27B-TEE", "7aa5e899-c0ba-5482-af48-d3f31d635c9f"⟩,
    ⟨"Qwen/Qwen3-235B-A22B-Thinking-2507-TEE", "21d129e5-8426-5c29-a6be-844e0f5f5e30"⟩,
    ⟨"unsloth/Mistral-Nemo-Instruct-2407-TEE", "7725a31d-28df-5bb7-9d29-c23b49df5472"⟩,
    ⟨"zai-org/GLM-5.2-TEE", "08901219-159f-55a7-87cf-9d0d02744668"⟩,
    ⟨"deepseek-ai/DeepSeek-V4-Flash-0731-TEE", "b4d58772-e72b-55d1-9d73-d30dff6d2ed8"⟩,
    ⟨"moonshotai/Kimi-K3-TEE", "0bb5d4c2-b5da-587d-b88e-62b4839028ec"⟩,
    ⟨"Nemotron-3-Nano-Omni-30B-TEE", "761ccdab-2e3d-5268-ab03-55f8ba94a80c"⟩]

/-- An HTTP status, with the text it displays as (`429 Too Many Requests`). -/
structure StatusCode where
  code : Nat
  display : String
  deriving DecidableEq, Repr

/-- Why a Chutes request did not complete. An `anyhow` cause is kept as the
text its alternate form displays. -/
inductive ChutesError where
  | badRequest (message : String)
  | missingCredential
  | upstream (stage : String) (status : StatusCode)
  | unavailable (cause : String)
  | rateLimited (stage : String)
  | belowEvidenceMinimum
  | rejected (cause : String)
  | badResponse (cause : String)
  deriving DecidableEq, Repr

/-- `ChutesError::to_string`. -/
def ChutesError.toString : ChutesError → String
  | .badRequest message => message
  | .missingCredential => "the request carries no Chutes bearer credential"
  | .upstream stage status => "Chutes " ++ stage ++ " answered " ++ status.display
  | .unavailable cause => "attestation unavailable: " ++ cause
  | .rateLimited stage =>
      "attestation unavailable: Chutes " ++ stage ++ " answered 429 Too Many Requests"
  | .belowEvidenceMinimum =>
      "attestation rejected: the chute's version is below Chutes' evidence minimum"
  | .rejected cause => "attestation rejected: " ++ cause
  | .badResponse cause => "response rejected: " ++ cause

end GmMiner.Chutes
