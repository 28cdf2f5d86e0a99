import DoubleSlash.Lib.Text

/-!
# The install state

`state.rs`: which versions are installed, which of them is current, and where their directories are.
-/

namespace DoubleSlash.Installer

def CHANNEL_STABLE : String := "stable"

def CHANNEL_NIGHTLY : String := "nightly"

structure InstalledVersion where
  version : String
  path : String
  installedAt : Nat
  deriving DecidableEq

/-- Tracks all installed versions and which one is current. -/
structure InstallState where
  currentVersion : String
  versions : List InstalledVersion
  channel : String
  archiveSha256 : String
  deriving DecidableEq

/-- `current_version.json`: not there, no state, or a state. -/
inductive StateFile where
  | absent
  | unreadable
  | state (st : InstallState)
  deriving DecidableEq

namespace InstallState

def empty : InstallState := { currentVersion := "", versions := [], channel := CHANNEL_STABLE, archiveSha256 := "" }

/-- `set_channel`. -/
def setChannel (st : InstallState) (nightly : Bool) : InstallState :=
  { st with channel := if nightly then CHANNEL_NIGHTLY else CHANNEL_STABLE }

/-- `add_version`: register a newly installed version and mark it current. -/
def addVersion (st : InstallState) (version path : String) (now : Nat) : InstallState :=
  { st with
    versions := st.versions.filter (·.version != version) ++ [{ version, path, installedAt := now }]
    currentVersion := version }

/-- `Iterator::max_by_key`: the last of the greatest. -/
def newest : List InstalledVersion → Option InstalledVersion :=
  List.foldl (fun best v =>
    match best with
    | none => some v
    | some b => if b.installedAt ≤ v.installedAt then some v else some b) none

/-- `remove_version`. -/
def removeVersion (st : InstallState) (version : String) : InstallState :=
  let versions := st.versions.filter (·.version != version)
  { st with
    versions
    currentVersion := if st.currentVersion = version then ((newest versions).map (·.version)).getD "" else st.currentVersion }

/-- `current_path`. -/
def currentPath (st : InstallState) : Option String :=
  (st.versions.find? (·.version == st.currentVersion)).map (·.path)

/-- `old_versions`. -/
def oldVersions (st : InstallState) : List InstalledVersion := st.versions.filter (·.version != st.currentVersion)

end InstallState

/-- `read_state`. -/
def readState : StateFile → Option InstallState
  | .absent => some InstallState.empty
  | .unreadable => none
  | .state st => some st

/-- `version_dir`. -/
def versionDir (baseDir version : String) : String := baseDir ++ ("/doubleslash_" ++ version)

/-- The numbers of a version; parts that are no numbers are passed over. -/
def versionNumbers (s : String) : List Nat := (s.toList.splitOn '.').filterMap Text.parseU64

/-- `is_newer`. -/
def isNewer (remote version : String) : Bool := decide (versionNumbers version < versionNumbers remote)

end DoubleSlash.Installer
