import DoubleSlash.Lib.Base64
import DoubleSlash.Lib.JsonTree
import DoubleSlash.Lib.Text

/-!
# The signed release manifest

`release_manifest.rs` and the signing tool `sign_release_manifest.rs`. The manifest text is read twice: into the record whose entries
are used, and into the map whose canonical bytes the signature is checked against. The JSON syntax, the numbers, SHA-256 and Ed25519
are the parameters.
-/

namespace DoubleSlash.Installer

open Codec JsonTree

/-- What `serde_json` makes of a text and of the numbers in it. A floating point number is its bits. -/
structure JsonFormat (ν : Type) where
  /-- The tree of a well-formed text, numbers as they are spelled. -/
  syntaxTree : String → Option (Document String)
  number : String → Option ν
  asF64 : ν → UInt64
  write : ν → Protocol.Json

/-- The hash of the installer and the signature scheme of the releases. -/
structure Signing where
  sha256 : List UInt8 → List UInt8
  /-- `VerifyingKey::from_bytes` and `verify`: the key, the message, the signature. -/
  verify : List UInt8 → List UInt8 → List UInt8 → Bool

def RELEASE_SIGNER_PUBKEY_HEX : String := "d31f43fcfba1fae04313d384d7fba026bd52796550c57def6cf47b069c18043f"

/-- `str::to_lowercase`, for texts that are compared with a hexadecimal digest: the lower case of no other letter is a digit of one. -/
def toLowercase (s : String) : String := String.ofList (s.toList.map Char.toLower)

/-- One release of the manifest. -/
structure ManifestEntry where
  version : String
  platform : String
  buildHash : String
  buildId : String
  publishedAt : UInt64
  deriving DecidableEq

structure ReleaseManifest where
  releases : List ManifestEntry
  signedAt : UInt64
  signerPubkey : String
  signature : String
  deriving DecidableEq

section

variable {ν : Type} (asF64 : ν → Option UInt64)

/-- The derived `Deserialize`: a record as a map or as a list of its fields. -/
def ManifestEntry.read : Document ν → Option ManifestEntry
  | .obj members => do
    let version ← required "version" Document.asStr members
    let platform ← required "platform" Document.asStr members
    let buildHash ← required "build_hash" Document.asStr members
    let buildId ← defaulted "build_id" Document.asStr "" members
    let publishedAt ← defaulted "published_at" (Document.asNum asF64) 0 members
    return { version, platform, buildHash, buildId, publishedAt }
  | .arr (version :: platform :: buildHash :: rest) => do
    let version ← version.asStr
    let platform ← platform.asStr
    let buildHash ← buildHash.asStr
    let buildId ← elementOr Document.asStr "" rest[0]?
    let publishedAt ← elementOr (Document.asNum asF64) 0 rest[1]?
    if rest.length ≤ 2 then some { version, platform, buildHash, buildId, publishedAt } else none
  | _ => none

def ReleaseManifest.read : Document ν → Option ReleaseManifest
  | .obj members => do
    let releases ← required "releases" (Document.asVec (ManifestEntry.read asF64)) members
    let signedAt ← defaulted "signed_at" (Document.asNum asF64) 0 members
    let signerPubkey ← defaulted "signer_pubkey" Document.asStr "" members
    let signature ← defaulted "signature" Document.asStr "" members
    return { releases, signedAt, signerPubkey, signature }
  | .arr (releases :: rest) => do
    let releases ← Document.asVec (ManifestEntry.read asF64) releases
    let signedAt ← elementOr (Document.asNum asF64) 0 rest[0]?
    let signerPubkey ← elementOr Document.asStr "" rest[1]?
    let signature ← elementOr Document.asStr "" rest[2]?
    if rest.length ≤ 3 then some { releases, signedAt, signerPubkey, signature } else none
  | _ => none

end

namespace ReleaseManifest

variable {ν : Type} (format : JsonFormat ν) (signing : Signing)

/-- `serde_json::from_str::<ReleaseManifest>`. -/
def fromStr (rawJson : String) : Option ReleaseManifest :=
  (format.syntaxTree rawJson).bind (read fun literal => (format.number literal).map format.asF64)

/-- `serde_json::from_str::<Map<String, Value>>`. -/
def mapFromStr (rawJson : String) : Option (List (String × Document ν)) :=
  (format.syntaxTree rawJson).bind fun
    | .obj members => Document.entered format.number [] members
    | _ => none

/-- What is signed: the manifest without its signature. -/
def canonicalMap (rawJson : String) : Option (List (String × Document ν)) := (mapFromStr format rawJson).map (removeKey "signature")

def canonicalJson (rawJson : String) : Option (List UInt8) := (canonicalMap format rawJson).map (toVec format.write)

def padBase64 (s : String) : List Char :=
  let rem := Text.byteLen s.toList % 4
  if rem = 0 then s.toList else s.toList ++ List.replicate (4 - rem) '='

/-- `base64_decode`: URL-safe first, then standard. -/
def base64Decode (s : String) : Option (List UInt8) :=
  let padded := padBase64 s
  (b64Padded padded).orElse fun _ => b64Decode (String.ofList padded)

def verifySignature (sigB64 : String) (canonical pubkeyBytes : List UInt8) : Option Unit := do
  let sig ← base64Decode sigB64
  if sig.length = 64 ∧ signing.verify pubkeyBytes canonical sig = true then some () else none

/-- `parse_and_verify`. -/
def parseAndVerify (rawJson : String) : Option ReleaseManifest := do
  let manifest ← fromStr format rawJson
  if RELEASE_SIGNER_PUBKEY_HEX = String.ofList (List.replicate 64 '0') then
    none
  else
    let canonical ← canonicalJson format rawJson
    let pubkeyBytes ← (hexDecode RELEASE_SIGNER_PUBKEY_HEX).filter (·.length == 32)
    verifySignature signing manifest.signature canonical pubkeyBytes
    return manifest

/-- `parse_unsigned`, of nightly builds. -/
def parseUnsigned (rawJson : String) : Option ReleaseManifest := (fromStr format rawJson).filter (!·.releases.isEmpty)

/-- `parse_for_channel`. -/
def parseForChannel (rawJson : String) (nightly : Bool) : Option ReleaseManifest :=
  if nightly then parseUnsigned format rawJson else parseAndVerify format signing rawJson

def contains (manifest : ReleaseManifest) (version buildHash : String) : Bool :=
  manifest.releases.any fun e => e.version == version && toLowercase e.buildHash == toLowercase buildHash

def containsForPlatform (manifest : ReleaseManifest) (platform buildHash : String) : Bool :=
  manifest.releases.any fun e => e.platform == platform && toLowercase e.buildHash == toLowercase buildHash

/-- `entry_for_platform`. -/
def entryForPlatform (manifest : ReleaseManifest) (platform : String) : Option ManifestEntry :=
  manifest.releases.find? fun e => e.platform == platform

/-- `build_hash_for_platform`. -/
def buildHashForPlatform (manifest : ReleaseManifest) (platform : String) : Option String :=
  (manifest.entryForPlatform platform).map fun e => toLowercase e.buildHash

/-- `verify_archive_hash`: whether the manifest has the archive. -/
def verifyArchiveHash (rawJson : String) (nightly : Bool) (releaseVersion platform archiveHash : String) : Bool :=
  match parseForChannel format signing rawJson nightly with
  | none => false
  | some mf => if nightly then mf.containsForPlatform platform archiveHash else mf.contains releaseVersion archiveHash

end ReleaseManifest

/-! ## The signing tool -/

section

variable {ν : Type} (format : JsonFormat ν)

end

end DoubleSlash.Installer
