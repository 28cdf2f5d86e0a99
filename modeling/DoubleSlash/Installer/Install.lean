import DoubleSlash.Installer.Extract
import DoubleSlash.Installer.Github

/-!
# Installing

`run_silent` and the silent `run_update_and_relaunch` on a base directory: the state file and the version directories. What the disk
does to a run is given with the run. The launcher copied into the base directory and the shortcuts are left out; that making them
fails is not.

## Downloading a release

The silent half of `run_update_and_relaunch` up to the extraction of the archive.
-/

namespace DoubleSlash.Installer

/-- What is about to be extracted and recorded. -/
structure Download where
  release : ReleaseInfo
  archive : List UInt8
  archiveSha256 : String
  deriving DecidableEq

/-- What happens before extraction: nothing is to be done, the run fails, or it goes on to the extraction. -/
inductive Prepared where
  | upToDate
  | failed
  | extract (download : Download)
  deriving DecidableEq

/-- The program the installer is: how it parses and checks, and what it runs on. -/
structure Setup (ν : Type) where
  format : JsonFormat ν
  signing : Signing
  platform : Platform
  /-- `is_nightly_installer`. -/
  nightlyInstaller : Bool

namespace Setup

variable {ν : Type} (setup : Setup ν)

/-- `resolve_nightly_channel`. -/
def resolveNightlyChannel (file : StateFile) : Bool :=
  if setup.nightlyInstaller then true else ((readState file).map fun st => st.channel == CHANNEL_NIGHTLY).getD false

/-- The checksum, when the release has one: the archive has to have it. -/
def checkSha256 (server : Server) (release : ReleaseInfo) (archive : List UInt8) : Option String :=
  if release.sha256Url = "" then
    some ""
  else do
    let content ← server.sha256 release.sha256Url
    let expected ← readSha256 content
    if setup.signing.hashFile archive = expected then some expected else none

/-- The manifest, when the release has one: the archive has to be in it. A nightly build has to have one. -/
def checkManifest (server : Server) (nightly : Bool) (release : ReleaseInfo) (archive : List UInt8) : Bool :=
  if release.manifestUrl = "" then
    !nightly
  else
    match server.manifest release.manifestUrl with
    | none => false
    | some rawJson =>
      ReleaseManifest.verifyArchiveHash setup.format setup.signing rawJson nightly release.version setup.platform.id
        (setup.signing.hashFile archive)

/-- The download with its checks. -/
def download (server : Server) (nightly : Bool) (release : ReleaseInfo) : Option Download := do
  let archive ← server.archive release.archiveUrl
  let archiveSha256 ← setup.checkSha256 server release archive
  if setup.checkManifest server nightly release archive then some { release, archive, archiveSha256 } else none

/-- `run_update_and_relaunch` before it extracts. A check for updates that fails is no failure of the run. -/
def prepareUpdate (server : Server) (file : StateFile) : Prepared :=
  match readState file with
  | none => .failed
  | some st =>
    let nightly := setup.resolveNightlyChannel file
    match fetchRelease server setup.platform nightly with
    | none => .upToDate
    | some release =>
      match needsReleaseUpdate setup.format server setup.platform release st nightly with
      | none | some false => .upToDate
      | some true =>
        match setup.download server nightly release with
        | none => .failed
        | some download => .extract download

end Setup

open Assoc

/-- The base directory. -/
structure InstallDisk where
  stateFile : StateFile
  dirs : HashMap String Dir

/-- How writing the state file ends: written, refused before the file is touched, or given up after it was truncated. -/
inductive StateWrite where
  | written
  | refused
  | torn
  deriving DecidableEq

/-- What goes wrong in a run. -/
structure Faults where
  /-- Writing fails after so many entries of the archive. -/
  unpacking : Option Nat
  manifestWrite : Bool
  /-- What is left of a directory that is to be removed. -/
  left : String → Option Dir
  stateWrite : StateWrite
  /-- Copying the launcher, making the shortcuts or starting the program fails. -/
  later : Bool

/-- How a run ends. -/
inductive Result where
  | installed (version : String) (archive : Archive)
  | nothingToDo
  | failed

/-- The options of a run. -/
structure Options where
  launchAfter : Bool
  updateInstaller : Bool

/-- `detect_version_from_archive`, of the file's stem. -/
def detectVersionFromArchive (stem : String) : Option String :=
  ((stem.toList.splitOn '-').find? fun part =>
    let pieces := part.splitOn '.'
    2 ≤ pieces.length && pieces.all fun p => p.all Char.isDigit).map String.ofList

namespace Setup

variable {ν : Type} (setup : Setup ν) (decode : List UInt8 → Archive) (parseManifest : List UInt8 → Option InstallManifest)
  (productVersion baseDir : String)

def digests : Digests := { hashFile := setup.signing.hashFile, parseManifest }

/-- `remove_dir_all`, its result ignored. -/
def removeDir (faults : Faults) (dirs : HashMap String Dir) (path : String) : HashMap String Dir :=
  match dirs.lookup path with
  | none => dirs
  | some _ =>
    match faults.left path with
    | none => dirs.erase path
    | some left => dirs.insert path left

/-- The directories without those of the old versions. -/
def removeOld (faults : Faults) (st : InstallState) (dirs : HashMap String Dir) : HashMap String Dir :=
  (st.oldVersions.map (·.path)).foldl (removeDir faults) dirs

/-- The state without the old versions. -/
def forgetOld (st : InstallState) : InstallState := (st.oldVersions.map (·.version)).foldl InstallState.removeVersion st

/-- `write_state`. -/
def writeState (faults : Faults) (file : StateFile) (st : InstallState) : StateFile :=
  match faults.stateWrite with
  | .written => .state st
  | .refused => file
  | .torn => .unreadable

/-- The end of both runs, from the removal of the old versions on. -/
def record (faults : Faults) (disk : InstallDisk) (st : InstallState) (version : String) (archive : Archive) (launches : Bool) :
    InstallDisk × Result :=
  let disk' := { disk with stateFile := writeState faults disk.stateFile st }
  match faults.stateWrite with
  | .written => (disk', if !faults.later && launches then .installed version archive else .failed)
  | _ => (disk', .failed)

/-- `run_silent` on the archive `stem` stands for. -/
def runSilent (stem : String) (archive : Archive) (now : Nat) (faults : Faults) (disk : InstallDisk) : InstallDisk × Result :=
  let version := (detectVersionFromArchive stem).getD productVersion
  let verDir := versionDir baseDir version
  let d := (disk.dirs.lookup verDir).getD Dir.empty
  let extracted := archive.unpack faults.unpacking d
  let disk := { disk with dirs := disk.dirs.insert verDir extracted }
  if archive.extracts faults.unpacking d = false then
    (disk, .failed)
  else if faults.manifestWrite then
    ({ disk with dirs := disk.dirs.insert verDir { extracted with manifest := some (.other []) } }, .failed)
  else
    let manifest := { version := productVersion, files := extracted.hashes (setup.digests parseManifest) }
    let disk := { disk with dirs := disk.dirs.insert verDir { extracted with manifest := some (.written manifest) } }
    match readState disk.stateFile with
    | none => (disk, .failed)
    | some st =>
      let nightly := setup.resolveNightlyChannel disk.stateFile
      let st' := ((forgetOld st).addVersion version verDir now).setChannel nightly
      record faults { disk with dirs := removeOld faults st disk.dirs } st' version archive true

/-- `launch_app` of a recorded directory. -/
def launches (dirs : HashMap String Dir) (path : String) : Bool :=
  ((dirs.lookup path).map (launchAccepts (setup.digests parseManifest))).getD false

/-- The silent `run_update_and_relaunch`. -/
def runUpdateAndRelaunch (server : Server) (options : Options) (now : Nat) (faults : Faults) (disk : InstallDisk) :
    InstallDisk × Result :=
  match readState disk.stateFile with
  | none => (disk, .failed)
  | some st =>
    match setup.prepareUpdate server disk.stateFile with
    | .failed => (disk, .failed)
    | .upToDate =>
      let launched := match st.currentPath with
        | some path => !options.launchAfter || (setup.launches parseManifest disk.dirs path && !faults.later)
        | none => true
      (disk, if !(options.updateInstaller && faults.later) && launched then .nothingToDo else .failed)
    | .extract download =>
      let version := download.release.version
      let verDir := versionDir baseDir version
      let archive := decode download.archive
      let d := (disk.dirs.lookup verDir).getD Dir.empty
      let disk := { disk with dirs := disk.dirs.insert verDir (archive.unpack faults.unpacking d) }
      if archive.extracts faults.unpacking d = false then
        (disk, .failed)
      else
        let nightly := setup.resolveNightlyChannel disk.stateFile
        let st' := { ((forgetOld st).addVersion version verDir now).setChannel nightly with archiveSha256 := download.archiveSha256 }
        let dirs := removeOld faults st disk.dirs
        record faults { disk with dirs } st' version archive
          (!options.launchAfter || setup.launches parseManifest dirs verDir)

/-- A run of the installer. -/
inductive Invocation where
  | silent (stem : String) (archive : Archive) (now : Nat) (faults : Faults)
  | update (server : Server) (options : Options) (now : Nat) (faults : Faults)

def invoke (disk : InstallDisk) : Invocation → InstallDisk × Result
  | .silent stem archive now faults => setup.runSilent parseManifest productVersion baseDir stem archive now faults disk
  | .update server options now faults => setup.runUpdateAndRelaunch decode parseManifest baseDir server options now faults disk

/-- The base directory, and what the last run that succeeded installed. -/
structure Installation where
  disk : InstallDisk
  last : Option (String × Archive)

def Installation.fresh : Installation := { disk := { stateFile := .absent, dirs := ∅ }, last := none }

def step (s : Installation) (run : Invocation) : Option Installation :=
  let (disk, result) := setup.invoke decode parseManifest productVersion baseDir s.disk run
  match result with
  | .installed version archive => some { disk, last := some (version, archive) }
  | _ => some { disk, last := s.last }

end Setup

end DoubleSlash.Installer
