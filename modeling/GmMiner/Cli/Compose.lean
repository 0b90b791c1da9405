import GmMiner.Cli.EnvFile
import GmMiner.Cli.Images
import GmMiner.Json.Value

/-!
The compose document and its hash (`cli/src/deploy/compose.rs`, `cli/src/compose_hash.rs`,
`prepare_deploy_target` in `cli/src/deploy/mod.rs`).

A `Release` stands for the two files it bundles and for the digest of the canonical JSON of an
`app_compose`.
-/

namespace GmMiner.Cli

open GmMiner.Lib GmMiner.Json

/-- A `BTreeMap` of names to JSON values. -/
abbrev AppCompose := List (String × Value)

structure Release where
  /-- `dstack/docker-compose.yaml`. -/
  composeTemplate : String
  /-- `dstack/prelaunch.sh`. -/
  prelaunchScript : String
  /-- `hash_app_compose`. -/
  hashAppCompose : AppCompose → HexDigest

/-! ### Rendering -/

/-- `str::find`: the text before the first match, and the text after it. -/
def splitFirst (needle : List Char) : List Char → Option (List Char × List Char)
  | [] => (stripPrefix needle []).map fun rest => ([], rest)
  | c :: text =>
      match stripPrefix needle (c :: text) with
      | some rest => some ([], rest)
      | none => (splitFirst needle text).map fun (before, rest) => (c :: before, rest)

/-- `str::replace`, one match a round. -/
def replaceRounds (needle replacement : List Char) : Nat → List Char → List Char
  | 0, text => text
  | rounds + 1, text =>
      match splitFirst needle text with
      | none => text
      | some (before, rest) =>
          before ++ replacement ++ replaceRounds needle replacement rounds rest

/-- A text has at most as many matches of a needle that is not empty as characters. -/
def replaceText (needle replacement text : List Char) : List Char :=
  replaceRounds needle replacement text.length text

def imageRefPrefix : List Char := "$\x7bGM_IMAGE_REF".toList

def gmNetworkPlaceholder : String := "__GM_NETWORK__"

/-- The loop of `replace_image_ref_placeholder`, one placeholder a round. -/
def replaceImageRefRounds (replacement : List Char) : Nat → List Char → List Char
  | 0, remaining => remaining
  | rounds + 1, remaining =>
      match splitFirst imageRefPrefix remaining with
      | none => remaining
      | some (before, afterPrefix) =>
          match splitFirst ['\x7d'] afterPrefix with
          -- an unterminated placeholder stays
          | none => remaining
          | some (_, rest) => before ++ replacement ++ replaceImageRefRounds replacement rounds rest

def replaceImageRefPlaceholder (text replacement : List Char) : List Char :=
  replaceImageRefRounds replacement text.length text

def renderCompose (template pinnedImageRef network : String) : Except Error String :=
  let withImage := replaceImageRefPlaceholder template.toList pinnedImageRef.toList
  if withImage = template.toList then
    bail ("compose template does not contain a GM_IMAGE_REF placeholder; expected something like " ++
      "$\x7bGM_IMAGE_REF:?...\x7d in dstack/docker-compose.yaml")
  else if (splitFirst gmNetworkPlaceholder.toList withImage).isNone then
    bail ("compose template does not contain a " ++ gmNetworkPlaceholder ++ " placeholder; " ++
      "expected GM_NETWORK=" ++ gmNetworkPlaceholder ++ " in dstack/docker-compose.yaml")
  else
    .ok (String.ofList (replaceText gmNetworkPlaceholder.toList network.toList withImage))

/-- `DeployTarget`. -/
structure DeployTarget where
  imageRef : String
  renderedCompose : String
  deriving DecidableEq, Repr

/-- `prepare_deploy_target`, with what the provisioner gave. -/
def Release.prepareDeployTarget (release : Release) (provisioned : Except Error String)
    (network : String) : Except Error DeployTarget := do
  let imageRef ← provisioned
  let renderedCompose ← renderCompose release.composeTemplate imageRef network
  return ⟨imageRef, renderedCompose⟩

/-! ### The hash -/

def manifestVersion : UInt64 := 2

def composeRunner : String := "docker-compose"

def storageFs : String := "zfs"

def composeFeatures : List String := ["kms", "tproxy-net"]

def pinnedOsImageHash : String :=
  "8db40cb23008d6213668b5816702d100b37b859a8a5bfd18d938ae3a1b3715bd"

/-- The pinned measurement is a digest as the registry writes them. -/
theorem pinned_digest :
    pinnedOsImageHash.length = 64 ∧ pinnedOsImageHash.toList.all isLowerHexDigit = true :=
  hexDigest_of
    (rfl : String.ofList _ = "8db40cb23008d6213668b5816702d100b37b859a8a5bfd18d938ae3a1b3715bd")
    (by decide) (by decide)

/-- Its normal form is itself. -/
theorem pinned_normal (lowercase : Lowercase) :
    lowercase.normalizeHash pinnedOsImageHash = pinnedOsImageHash :=
  normalizeHash_hexDigest lowercase ⟨pinnedOsImageHash, pinned_digest.1, pinned_digest.2⟩

def releaseFlags : List (String × Bool) :=
  [("kms_enabled", true), ("gateway_enabled", true), ("tproxy_enabled", true),
    ("local_key_provider_enabled", false), ("public_logs", true), ("public_sysinfo", true),
    ("public_tcbinfo", true), ("secure_time", false), ("no_instance_id", false)]

/-- The `app_compose` around a rendered document. -/
def Release.appComposeOf (release : Release) (dockerComposeFile : String) : AppCompose :=
  let compose := SortedMap.insert "allowed_envs"
    (.array (canonicalAllowedEnvs.map .string)) []
  let compose := SortedMap.insert "docker_compose_file" (.string dockerComposeFile) compose
  let compose := SortedMap.insert "features" (.array (composeFeatures.map .string)) compose
  let compose := SortedMap.insert "manifest_version" (.number (.posInt manifestVersion)) compose
  let compose := SortedMap.insert "name" (.string "") compose
  let compose := SortedMap.insert "pre_launch_script" (.string release.prelaunchScript) compose
  let compose := SortedMap.insert "runner" (.string composeRunner) compose
  let compose := SortedMap.insert "storage_fs" (.string storageFs) compose
  releaseFlags.foldl (fun compose (field, value) =>
    SortedMap.insert field (.bool value) compose) compose

/-- `build_app_compose`. -/
def Release.buildAppCompose (release : Release) (imageRef : String) (network : Network) :
    Except Error AppCompose := do
  let dockerComposeFile ← renderCompose release.composeTemplate imageRef network.asStr
  return release.appComposeOf dockerComposeFile

/-- `compute_compose_hash`. -/
def Release.computeComposeHash (release : Release) (imageRef : String) (network : Network) :
    Except Error HexDigest := do
  let compose ← release.buildAppCompose imageRef network
  return release.hashAppCompose compose

/-- The canonical compose hash of a CVM that runs a document. -/
def Release.documentHash (release : Release) (renderedCompose : String) : HexDigest :=
  release.hashAppCompose (release.appComposeOf renderedCompose)

/-- The hash is of the document rendered for the network. -/
theorem computeComposeHash_eq_ok {release : Release} {imageRef : String} {network : Network}
    {digest : HexDigest} :
    release.computeComposeHash imageRef network = .ok digest ↔
      ∃ document, renderCompose release.composeTemplate imageRef network.asStr = .ok document ∧
        release.documentHash document = digest := by
  unfold Release.computeComposeHash Release.buildAppCompose
  constructor
  · intro computed
    obtain ⟨compose, built, made⟩ := bind_eq_ok.mp computed
    obtain ⟨document, rendered, same⟩ := bind_eq_ok.mp built
    have same := Except.ok.inj same
    subst same
    exact ⟨document, rendered, Except.ok.inj made⟩
  · rintro ⟨document, rendered, rfl⟩
    rw [rendered]
    rfl

/-- One document of the template, the image and a spelling of the network. -/
def renderedWith (template imageRef network : String) : String :=
  String.ofList (replaceText gmNetworkPlaceholder.toList network.toList
    (replaceImageRefPlaceholder template.toList imageRef.toList))

/-- A rendered document is the template with its marks replaced. -/
theorem renderCompose_eq {template imageRef network document : String}
    (rendered : renderCompose template imageRef network = .ok document) :
    document = renderedWith template imageRef network := by
  unfold renderCompose at rendered
  dsimp only at rendered
  split at rendered
  · cases rendered
  · split at rendered
    · cases rendered
    · exact (Except.ok.inj rendered).symm

end GmMiner.Cli
