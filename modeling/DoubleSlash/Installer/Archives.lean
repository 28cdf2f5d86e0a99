import DoubleSlash.Installer.Install
import DoubleSlash.Lib.Bytes
import DoubleSlash.Lib.Offsets
import Mathlib.Data.Prod.Lex

/-!
# Local archives

The installer looks for a client archive beside its own executable: `is_client_archive`, `detect_version_from_archive` and
`detect_archive` of `main.rs`. A path is known by the name of its file, in bytes; a name need not be UTF-8. A slice of a text that
would cut a character in two is a panic.
-/

namespace DoubleSlash.Installer

open Text Bytes

/-- The panic of a slice whose end is inside a character. -/
inductive SlicePanic where
  | insideCharacter
  deriving DecidableEq, Repr

abbrev FileName := List UInt8

/-- `rsplit_file_at_dot` of the standard library: the name before its last dot, and what follows the dot. -/
def rsplitFileAtDot (file : FileName) : Option FileName × Option FileName :=
  if file = [46, 46] then (some file, none)
  else if 46 ∈ file then
    let before := (file.rdropWhile (· != 46)).dropLast
    if before = [] then (some file, none) else (some before, some (file.rtakeWhile (· != 46)))
  else (none, some file)

/-- `Path::file_stem`. -/
def fileStem (file : FileName) : Option FileName := (rsplitFileAtDot file).1.or (rsplitFileAtDot file).2

/-- `Path::extension`. -/
def extension (file : FileName) : Option FileName := (rsplitFileAtDot file).1.bind fun _ => (rsplitFileAtDot file).2

/-- `OsStr::eq_ignore_ascii_case` with a text. -/
def eqIgnoreAsciiCaseOs (name : FileName) (s : String) : Bool :=
  let lower (b : UInt8) : UInt8 := if 65 ≤ b ∧ b ≤ 90 then b + 32 else b
  name.map lower == (utf8 s).map lower

/-- `str::eq_ignore_ascii_case`. -/
def eqIgnoreAsciiCase (s t : List Char) : Bool := s.map asciiLower == t.map asciiLower

/-- `WINDOWS_CLIENT_NIGHTLY_7Z` less its extension. -/
def nightlyStem : List Char := "DoubleSlash-nightly-win64".toList

/-- What a release archive is called before its version. -/
def archiveLead : List Char := "DoubleSlash-".toList

/-- What it is called after its version. -/
def archiveSuffix : List Char := "-win64".toList

/-- `version_token_is_semver`. -/
def versionTokenIsSemver (token : List Char) : Bool :=
  let core := (token.splitOn '-').head?.getD token
  let parts := core.splitOn '.'
  decide (2 ≤ parts.length ∧ parts.length ≤ 4) && parts.all fun p => !p.isEmpty && p.all Char.isDigit

/-- `is_client_archive`. -/
def isClientArchive (file : FileName) : Except SlicePanic Bool :=
  if (extension file).any (eqIgnoreAsciiCaseOs · "7z") then
    match (fileStem file).bind fromUtf8 with
    | none => .ok false
    | some name =>
      let stem := name.toList
      if eqIgnoreAsciiCase stem nightlyStem then .ok true
      else if byteLen archiveLead + byteLen archiveSuffix < byteLen stem then
        -- `stem[..prefix.len()]`
        match sliceTo stem (byteLen archiveLead) with
        | none => .error .insideCharacter
        | some front =>
          if eqIgnoreAsciiCase front archiveLead ∧ archiveSuffix <:+ stem then
            match (sliceTo stem (byteLen stem - byteLen archiveSuffix)).bind (sliceFrom · (byteLen archiveLead)) with
            | none => .error .insideCharacter
            | some version => .ok (versionTokenIsSemver version)
          else .ok false
      else .ok false
  else .ok false

section Listing

-- what `to_string_lossy` makes of a name that is not UTF-8; the platforms differ
variable (lossy : FileName → String)

/-- `OsStr::to_string_lossy`. -/
def toStringLossy (name : FileName) : String := (fromUtf8 name).getD (lossy name)

/-- `detect_version_from_archive`, of the name of a file. -/
def detectVersion (file : FileName) : Option String :=
  (fileStem file).bind fun stem => detectVersionFromArchive (toStringLossy lossy stem)

/-- The tuples of `archive_pick_rank`, in the order of their components. -/
abbrev PickRank := Nat ×ₗ Nat ×ₗ Nat ×ₗ Nat

/-- The first three numbers of a version; a number that is missing is `0`. -/
def firstThree (numbers : List Nat) : Nat ×ₗ Nat ×ₗ Nat :=
  toLex (numbers.getD 0 0, toLex (numbers.getD 1 0, numbers.getD 2 0))

/-- `archive_pick_rank`. -/
def archivePickRank (file : FileName) : PickRank :=
  match detectVersion lossy file with
  | some v => toLex (1, firstThree (versionNumbers v))
  | none => toLex (0, toLex (0, toLex (0, 0)))

/-- The names that pass the filter of `detect_archive`. -/
def clientArchives : List FileName → Except SlicePanic (List FileName)
  | [] => .ok []
  | file :: rest =>
    match isClientArchive file with
    | .error panic => .error panic
    | .ok isClient =>
      match clientArchives rest with
      | .error panic => .error panic
      | .ok found => .ok (if isClient then file :: found else found)

/-- The entries of a directory that could be read. -/
def listed (listing : Option (List (Option FileName))) : List FileName := (listing.getD []).filterMap id

/-- `detect_archive`: the directory of the executable as it is listed, `none` where there is no listing, and an entry that cannot
be read is `none`. -/
def detectArchive (listing : Option (List (Option FileName))) : Except SlicePanic (Option FileName) :=
  match listing with
  | none => .ok none
  | some entries =>
    match clientArchives (entries.filterMap id) with
    | .error panic => .error panic
    | .ok candidates =>
      -- a stable sort, the highest rank first
      .ok (candidates.mergeSort fun a b => decide (archivePickRank lossy b ≤ archivePickRank lossy a)).head?

end Listing

end DoubleSlash.Installer
