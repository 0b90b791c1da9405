import GmMiner.Cli.TokenRefresh
import GmMiner.Lib.Result
import Mathlib.Data.List.Sort

/-!
Approved image versions (`cli/src/deploy/version.rs`, `cli/src/deploy/hashes.rs`): which row
a deploy selects, which image it runs, and when measured hashes match a row.
-/

namespace GmMiner.Cli

open GmMiner.Lib

/-! ### Rows -/

/-- The fields that decide a deploy; notes are only printed. -/
structure ImageVersion where
  gitTag : Option String
  composeHash : String
  osImageHash : String
  status : String
  createdAt : String
  imageRef : Option String
  features : List String
  deriving DecidableEq, Repr

def bedrockMantleImageFeature : String := "bedrock-mantle-model-bindings-v1"

namespace ImageVersion

def slotCapable (version : ImageVersion) : Bool := version.features.any (· == "upstream-key-slots")

def cloudBindingCapable (version : ImageVersion) : Bool :=
  version.features.any (· == "upstream-model-hop")

def bedrockMantleModelBindingsCapable (version : ImageVersion) : Bool :=
  version.features.any (· == bedrockMantleImageFeature)

end ImageVersion

/-- Newest first; a time that cannot be read is the oldest. -/
def notOlder (chrono : Chrono) (version other : ImageVersion) : Bool :=
  match chrono.parse version.createdAt, chrono.parse other.createdAt with
  | _, none => true
  | none, some _ => false
  | some time, some time' => decide (time' ≤ time)

/-- `sort_by_key` in `fetch_supported_versions`, on the rows of the registry's answer. -/
def newestFirst (chrono : Chrono) (versions : List ImageVersion) : List ImageVersion :=
  versions.insertionSort fun version other => notOlder chrono version other

@[simp] theorem mem_newestFirst {chrono : Chrono} {versions : List ImageVersion}
    {version : ImageVersion} : version ∈ newestFirst chrono versions ↔ version ∈ versions :=
  (List.perm_insertionSort _ _).mem_iff

/-- The tag of this release, from `CARGO_PKG_VERSION`. -/
def releaseTag : String := "v0.5.22"

theorem row_lt {n length : Nat} (inRange : ¬ (n = 0 ∨ length < n)) : n - 1 < length := by
  rw [not_or, Nat.not_lt] at inRange
  exact Nat.sub_one_lt_of_le (Nat.pos_of_ne_zero inRange.1) inRange.2

def selectVersion (versions : List ImageVersion) (pin : Option Nat) :
    Except Error ImageVersion :=
  if versions.isEmpty then
    bail "registry returned no supported image versions — no approved version to deploy"
  else
    match pin with
    | none => required
        (versions.find? fun version =>
          version.status == "supported" && version.gitTag == some releaseTag)
        ["no supported image for gmcli " ++ releaseTag ++ "; upgrade gmcli to an approved " ++
          "release. Refusing to deploy another release's image with this CLI's bundled template"]
    | some n =>
        if range : n = 0 ∨ versions.length < n then
          bail ("--version " ++ toString n ++ " is out of range (1..=" ++
            toString versions.length ++ ")")
        else
          let version := versions.get ⟨n - 1, row_lt range⟩
          if version.status ≠ "supported" then
            bail ("--version " ++ toString n ++ " is not supported; refusing to deploy")
          else .ok version

/-- What is selected is one of the rows, and supported. -/
theorem selectVersion_ok {versions : List ImageVersion} {pin : Option Nat}
    {approved : ImageVersion} (selected : selectVersion versions pin = .ok approved) :
    approved ∈ versions ∧ approved.status = "supported" := by
  unfold selectVersion at selected
  split at selected
  · cases selected
  · cases pin with
    | none =>
        have found := required_eq_ok.mp selected
        have fits := List.find?_some found
        rw [Bool.and_eq_true, beq_iff_eq] at fits
        exact ⟨List.mem_of_find?_eq_some found, fits.1⟩
    | some n =>
        dsimp only at selected
        split at selected
        · cases selected
        · split at selected
          · cases selected
          · rename_i supported
            cases selected
            exact ⟨List.get_mem _ _, not_not.mp supported⟩

/-! ### Image sources -/

inductive ImageSource
  | prebuilt (imageRef : String)
  | build
  deriving DecidableEq, Repr

def resolveImageSource (imageRefFlag imageRepoFlag supportedImageRef : Option String) :
    Except Error ImageSource :=
  match imageRefFlag, imageRepoFlag, supportedImageRef with
  | some explicit, _, _ => .ok (.prebuilt explicit)
  | none, some _, _ => .ok .build
  | none, none, some supported => .ok (.prebuilt supported)
  | none, none, none =>
      bail ("the registry's supported image version has no pullable image_ref, so there is no " ++
        "gm-published image to deploy by default.\n  pass --image-ref <registry/repo@sha256:...> " ++
        "to deploy a specific pre-built image, or --image-repo <registry/owner/gm-miner> to build " ++
        "and push one yourself")

/-! ### Measured hashes -/

/-- `str::to_lowercase`; beyond ASCII it is left open. -/
structure Lowercase where
  lower : String → String
  lower_ascii : ∀ text : String, (∀ c ∈ text.toList, c.val < 128) →
    lower text = String.ofList (text.toList.map Char.toLower)

/-- A mapping that knows no letters but those of ASCII. -/
def Lowercase.ascii : Lowercase where
  lower text := String.ofList (text.toList.map Char.toLower)
  lower_ascii _ _ := rfl

/-- `normalize_hash`. -/
def Lowercase.normalizeHash (lowercase : Lowercase) (hash : String) : String :=
  let lowered := lowercase.lower hash
  match stripPrefix "sha256:".toList lowered.toList with
  | some stripped => String.ofList stripped
  | none => lowered

def isLowerHexDigit (c : Char) : Bool := c.isDigit || ('a' ≤ c && c ≤ 'f')

/-- The text of a SHA-256 digest: 64 lowercase hexadecimal digits. -/
structure HexDigest where
  text : String
  length_text : text.length = 64
  hex : text.toList.all isLowerHexDigit = true
  deriving DecidableEq

theorem HexDigest.text_injective {digest other : HexDigest} (same : digest.text = other.text) :
    digest = other := by
  cases digest
  cases other
  cases same
  rfl

/-- A text is read as a digest character by character. -/
theorem hexDigest_of {text : String} {chars : List Char} (same : String.ofList chars = text)
    (long : chars.length = 64) (hex : chars.all isLowerHexDigit = true) :
    text.length = 64 ∧ text.toList.all isLowerHexDigit = true := by
  rw [← String.length_toList, toList_of same]
  exact ⟨long, hex⟩

/-- A lower hexadecimal digit stays as it is. -/
theorem toLower_of_isLowerHexDigit {c : Char} (hex : isLowerHexDigit c = true) :
    c.toLower = c ∧ c.val < 128 := by
  unfold isLowerHexDigit at hex
  simp only [Char.isDigit, Bool.or_eq_true, Bool.and_eq_true, decide_eq_true_eq,
    ge_iff_le, Char.le_def] at hex
  have small : c.val < 128 ∧ ¬ (65 ≤ c.val ∧ c.val ≤ 90) := by
    simp only [UInt32.le_iff_toNat_le, UInt32.lt_iff_toNat_lt] at hex ⊢
    simp at hex ⊢
    omega
  refine ⟨?_, small.1⟩
  unfold Char.toLower
  rw [dif_neg]
  exact fun upper => small.2 upper

/-- A digest is its own normal form. -/
theorem normalizeHash_hexDigest (lowercase : Lowercase) (digest : HexDigest) :
    lowercase.normalizeHash digest.text = digest.text := by
  have hex := List.all_eq_true.mp digest.hex
  have lowered : lowercase.lower digest.text = digest.text := by
    rw [lowercase.lower_ascii _ fun c mem => (toLower_of_isLowerHexDigit (hex c mem)).2]
    have same : digest.text.toList.map Char.toLower = digest.text.toList.map id :=
      List.map_congr_left fun c mem => (toLower_of_isLowerHexDigit (hex c mem)).1
    rw [same, List.map_id, String.ofList_toList]
  unfold Lowercase.normalizeHash
  dsimp only
  rw [lowered]
  cases stripped : stripPrefix "sha256:".toList digest.text.toList with
  | none => rfl
  | some rest =>
      have split := stripPrefix_eq_some.mp stripped
      have mem : 's' ∈ digest.text.toList := split ▸ List.mem_append_left _ (by decide)
      exact absurd (hex 's' mem) (by decide)

/-- `DstackDeployResult`. -/
structure DstackDeployResult where
  composeSha256 : String
  osImageHash : String
  deriving DecidableEq, Repr

/-- The text of a failed `verify_hashes`. -/
def hashMismatch (actual : DstackDeployResult) (approved : ImageVersion)
    (composeMatch osMatch : Bool) : String :=
  "HASH MISMATCH — deployment is suspect; refusing to register.\n\n" ++
    (if composeMatch then "" else
      "  compose_hash\n    expected (registry): " ++ approved.composeHash ++
        "\n    actual (phala):      " ++ actual.composeSha256 ++ "\n\n") ++
    (if osMatch then "" else
      "  os_image_hash\n    expected (registry): " ++ approved.osImageHash ++
        "\n    actual (phala):      " ++ actual.osImageHash ++ "\n\n") ++
    "If you believe this is a legitimate new build, wait for the registry to publish a new " ++
      "approved version and retry."

def Lowercase.verifyHashes (lowercase : Lowercase) (actual : DstackDeployResult)
    (approved : ImageVersion) : Except Error DstackDeployResult :=
  let normalized : DstackDeployResult :=
    ⟨lowercase.normalizeHash actual.composeSha256, lowercase.normalizeHash actual.osImageHash⟩
  let composeMatch := normalized.composeSha256 == lowercase.normalizeHash approved.composeHash
  let osMatch := normalized.osImageHash == lowercase.normalizeHash approved.osImageHash
  if composeMatch && osMatch then .ok normalized
  else bail (hashMismatch actual approved composeMatch osMatch)

/-- The hashes are verified exactly if both are the approved row's, in normal
form. -/
theorem verifyHashes_eq_ok {lowercase : Lowercase} {actual verified : DstackDeployResult}
    {approved : ImageVersion} :
    lowercase.verifyHashes actual approved = .ok verified ↔
      verified = ⟨lowercase.normalizeHash approved.composeHash,
        lowercase.normalizeHash approved.osImageHash⟩ ∧
      lowercase.normalizeHash actual.composeSha256 =
        lowercase.normalizeHash approved.composeHash ∧
      lowercase.normalizeHash actual.osImageHash =
        lowercase.normalizeHash approved.osImageHash := by
  unfold Lowercase.verifyHashes
  dsimp only
  split
  · rename_i match_
    rw [Bool.and_eq_true, beq_iff_eq, beq_iff_eq] at match_
    obtain ⟨compose, os⟩ := match_
    rw [compose, os]
    exact ⟨fun same => ⟨(Except.ok.inj same).symm, rfl, rfl⟩, fun same => same.1 ▸ rfl⟩
  · rename_i differ
    rw [Bool.and_eq_true, beq_iff_eq, beq_iff_eq] at differ
    exact ⟨nofun, fun same => absurd same.2 differ⟩

end GmMiner.Cli
