import DoubleSlash.Installer.ReleaseManifest
import DoubleSlash.Installer.State

/-!
# Releases

`github.rs`: which assets of a release are used, and when a release is to be installed. What the server answers to each request is the
parameter.
-/

namespace DoubleSlash.Installer

open Codec

structure GhAsset where
  name : String
  browserDownloadUrl : String

/-- A release as the server describes it. -/
structure GhRelease where
  tagName : String
  assets : List GhAsset

structure ReleaseInfo where
  tag : String
  version : String
  archiveUrl : String
  archiveName : String
  sha256Url : String
  manifestUrl : String
  deriving DecidableEq

/-- The answers of the server during one run, a failed request being none: the latest release, the texts the update check asks for,
the archive, and the texts that are asked for after it. -/
structure Server where
  latest : Option GhRelease
  checkedManifest : String → Option String
  checkedSha256 : String → Option String
  archive : String → Option (List UInt8)
  sha256 : String → Option String
  manifest : String → Option String

/-- What the installer runs on. -/
inductive Platform where
  | windows
  | macos
  | linux
  | other

/-- `current_platform_id`. -/
def Platform.id : Platform → String
  | .windows => "win64"
  | .macos => "macos-arm64"
  | .linux => "linux-x86_64"
  | .other => "unknown"

/-- `nightly_archive_name`. -/
def Platform.nightlyArchiveName : Platform → String
  | .windows => "DoubleSlash-nightly-win64.7z"
  | .macos => "DoubleSlash-nightly-macos-arm64.dmg"
  | .linux => "DoubleSlash-nightly-x86_64.AppImage"
  | .other => "DoubleSlash-nightly.7z"

def NIGHTLY_TAG : String := "nightly"

def NIGHTLY_DOWNLOAD_BASE : String := "https://github.com/DoubleSlashSpace/DoubleSlash/releases/download/nightly"

/-- `fetch_nightly_release`. -/
def fetchNightlyRelease (platform : Platform) : ReleaseInfo :=
  let archiveUrl := NIGHTLY_DOWNLOAD_BASE ++ "/" ++ platform.nightlyArchiveName
  { tag := NIGHTLY_TAG, version := NIGHTLY_TAG, archiveUrl, archiveName := platform.nightlyArchiveName,
    sha256Url := archiveUrl ++ ".sha256", manifestUrl := NIGHTLY_DOWNLOAD_BASE ++ "/releases_manifest.json" }

/-- One asset of `fetch_latest_release`. -/
def selectAsset (info : ReleaseInfo) (asset : GhAsset) : ReleaseInfo :=
  if ".7z".toList.isSuffixOf asset.name.toList then
    { info with archiveUrl := asset.browserDownloadUrl, archiveName := asset.name }
  else if ".sha256".toList.isSuffixOf asset.name.toList then
    { info with sha256Url := asset.browserDownloadUrl }
  else if asset.name = "releases_manifest.json" then
    { info with manifestUrl := asset.browserDownloadUrl }
  else
    info

/-- `fetch_latest_release`. -/
def fetchLatestRelease (server : Server) : Option ReleaseInfo := do
  let release ← server.latest
  let version := String.ofList (release.tagName.toList.dropWhile fun c => c == 'v' || c == 'V')
  let info := release.assets.foldl selectAsset
    { tag := release.tagName, version, archiveUrl := "", archiveName := "", sha256Url := "", manifestUrl := "" }
  if info.archiveUrl = "" then none else some info

/-- `fetch_release`. -/
def fetchRelease (server : Server) (platform : Platform) (nightly : Bool) : Option ReleaseInfo :=
  if nightly then some (fetchNightlyRelease platform) else fetchLatestRelease server

/-- `fetch_sha256`, given the answer: the first word, which has to be as long as a hash. -/
def readSha256 (content : String) : Option String :=
  let hash := toLowercase (String.ofList ((Text.firstWord content.toList).getD []))
  if Text.byteLen hash.toList = 64 then some hash else none

/-- `nightly_update_available`. -/
def nightlyUpdateAvailable (remoteSha : String) (st : InstallState) : Bool :=
  if st.archiveSha256 = "" then true else remoteSha != st.archiveSha256

section

variable {ν : Type} (format : JsonFormat ν) (signing : Signing) (server : Server) (platform : Platform)

/-- `nightly_remote_hash`. -/
def nightlyRemoteHash (release : ReleaseInfo) : Option String :=
  if release.manifestUrl = "" then
    none
  else do
    let rawJson ← server.checkedManifest release.manifestUrl
    let mf ← ReleaseManifest.parseUnsigned format rawJson
    mf.buildHashForPlatform platform.id

/-- `needs_release_update`; none where the check fails. -/
def needsReleaseUpdate (release : ReleaseInfo) (st : InstallState) (nightly : Bool) : Option Bool :=
  if st.currentVersion = "" then
    some true
  else if nightly then
    match if release.manifestUrl = "" then none else nightlyRemoteHash format server platform release with
    | some remoteHash => some (nightlyUpdateAvailable remoteHash st)
    | none =>
      if release.sha256Url = "" then
        some true
      else do
        let content ← server.checkedSha256 release.sha256Url
        let remoteSha ← readSha256 content
        return nightlyUpdateAvailable remoteSha st
  else
    some (isNewer release.version st.currentVersion)

/-- `hash_file` and the digest of `verify_download`. -/
def Signing.hashFile (archive : List UInt8) : String := hexEncode (signing.sha256 archive)

end

end DoubleSlash.Installer
