import DoubleSlash.Installer.ReleaseManifest
import DoubleSlash.Lib.Assoc

/-!
# Version directories

`extract.rs`, `manifest.rs` and `launch_app`: a version directory, what extracting an archive into it does, and the check before the
executable is started. How 7z archives are decoded is left to the decoder: an archive is the entries it hands out.
-/

namespace DoubleSlash.Installer

open Assoc

/-- An entry as the decoder hands it out: the name in the archive, where it goes under the destination, and what it is; a folder has
no content. -/
structure Entry where
  name : String
  path : String
  content : Option (List UInt8)

structure Archive where
  entries : List Entry
  /-- The decoder fails after these entries. -/
  damaged : Bool

/-- `manifest.json` in a version directory: which hash each file had when it was installed. -/
structure InstallManifest where
  version : String
  files : String → Option String

/-- The file `manifest.json`: as the installer wrote it, or as it came from elsewhere. -/
inductive ManifestFile where
  | written (m : InstallManifest)
  | other (bytes : List UInt8)

/-- A version directory: its files by relative path, without `manifest.json`, and the folders that were made as such. -/
structure Dir where
  files : HashMap String (List UInt8)
  folders : List String
  manifest : Option ManifestFile

namespace Dir

def empty : Dir := { files := ∅, folders := [], manifest := none }

/-- `Path::is_dir`. -/
def isDir (d : Dir) (path : String) : Bool :=
  d.folders.any (fun f => f == path || (path ++ "/").toList.isPrefixOf f.toList) ||
    d.files.keys.any fun f => (path ++ "/").toList.isPrefixOf f.toList

def isFile (d : Dir) (path : String) : Bool := (d.files.lookup path).isSome

/-- `Path::exists`. -/
def holds (d : Dir) (path : String) : Bool := d.isFile path || d.isDir path

/-- `default_entry_extract_fn`. -/
def write (d : Dir) (e : Entry) : Dir :=
  match e.content with
  | none => { d with folders := e.path :: d.folders }
  | some bytes =>
    if e.path = "manifest.json" then { d with manifest := some (.other bytes) } else { d with files := d.files.insert e.path bytes }

end Dir

/-- `entry_name_is_safe`. -/
def entryNameIsSafe (name : String) : Bool :=
  let normalized := name.toList.map fun c => if c = '\\' then '/' else c
  let drive := match normalized with
    | a :: ':' :: _ => a.isAlpha
    | _ => false
  name != "" && normalized.head? != some '/' && !drive && (normalized.splitOn '/').all (· != ['.', '.'])

def WINDOWS_EXE : String := "DoubleSlash.exe"

/-- `bundle_root`, as what stands before the paths in it. -/
def bundleRoot (d : Dir) : String := if d.isFile ("DoubleSlash/" ++ WINDOWS_EXE) then "DoubleSlash/" else ""

def requiredFolders : List String :=
  ["platforms", "qml", "imageformats", "generic", "iconengines", "networkinformation", "qmltooling", "styles", "tls"]

/-- `validate_bundle_layout`. -/
def validateBundleLayout (d : Dir) : Bool :=
  let root := bundleRoot d
  d.isFile (root ++ WINDOWS_EXE) && requiredFolders.all (fun folder => d.isDir (root ++ folder)) &&
    !(d.isFile (root ++ "Qt6WebEngineCore.dll") && !d.isDir (root ++ "resources"))

/-- The entries that are written: up to a name that is not safe, and up to where writing fails. -/
def Archive.unpacked (archive : Archive) (limit : Option Nat) : List Entry :=
  let safe := archive.entries.takeWhile fun e => entryNameIsSafe e.name
  limit.elim safe safe.take

/-- The directory after the entries have been written. -/
def Archive.unpack (archive : Archive) (limit : Option Nat) (d : Dir) : Dir := (archive.unpacked limit).foldl Dir.write d

/-- `extract_7z` succeeds: all entries are written and the layout is the one of a bundle. -/
def Archive.extracts (archive : Archive) (limit : Option Nat) (d : Dir) : Bool :=
  limit.isNone && !archive.damaged && archive.entries.all (fun e => entryNameIsSafe e.name) &&
    validateBundleLayout (archive.unpack limit d)

/-- The files of an archive: what is in an empty directory after it has been unpacked there. -/
def Archive.files (archive : Archive) : Dir := archive.entries.foldl Dir.write Dir.empty

/-- How files are hashed and foreign manifests are parsed. -/
structure Digests where
  hashFile : List UInt8 → String
  parseManifest : List UInt8 → Option InstallManifest

section

variable (digests : Digests)

/-- `collect_files`. -/
def Dir.hashes (d : Dir) (path : String) : Option String := (d.files.lookup path).map digests.hashFile

/-- `read_manifest`. -/
def readManifest : ManifestFile → Option InstallManifest
  | .written m => some m
  | .other bytes => digests.parseManifest bytes

/-- `find_exe`. -/
def findExe (d : Dir) : Option String := [WINDOWS_EXE, "DoubleSlash/DoubleSlash.exe"].find? d.holds

/-- `launch_app` up to the start of the program: whether it finds the executable and the manifest, if it lists it, agrees. -/
def launchAccepts (d : Dir) : Bool :=
  match findExe d with
  | none => false
  | some exe =>
    match (d.manifest.bind (readManifest digests)).bind fun m => m.files exe with
    | none => true
    | some expected => (d.files.lookup exe).map digests.hashFile == some expected

end

end DoubleSlash.Installer
