import DoubleSlash.Lib.UnixPath
import DoubleSlash.Store.Backup

/-!
# Attachments in a backup

The columns of the messages table that a backup rewrites: `capture` replaces the path of an attachment by its name in the archive,
`inspect` checks the names, and `commit` replaces a name by a path below the new profile. Both replace one path at a time, in the order
in which SQLite lists the distinct ones. The other columns of a row are a parameter; paths are those of a Unix system.
-/

namespace DoubleSlash.Store.Backup

open Bytes UnixPath

variable {C : Type}

/-- A row of `messages`. -/
structure MessageRow (C : Type) where
  attachmentPath : String
  columns : C
  deriving DecidableEq

/-- What a backup asks a file system. No file has the empty path, and no directory is renamed to it. -/
structure FileSystem where
  /-- The content of the regular file at a path: `symlink_metadata(path).is_file()`, and reading it. -/
  file : List UInt8 → Option (List UInt8)
  /-- `Path::exists`. -/
  occupied : List UInt8 → Bool
  /-- Whether `fs::rename` of the staging directory to a path succeeds. -/
  renames : List UInt8 → Bool
  file_nil : file [] = none
  renames_nil : renames [] = false

/-- `UPDATE messages SET attachment_path=?1 WHERE attachment_path=?2`. -/
def updatePath (rows : List (MessageRow C)) (replacement path : String) : List (MessageRow C) :=
  rows.map fun row => if row.attachmentPath = path then { row with attachmentPath := replacement } else row

/-- What `SELECT DISTINCT attachment_path FROM messages WHERE attachment_path != ''` may answer: the paths in some order. -/
def IsListing (rows : List (MessageRow C)) (paths : List String) : Prop :=
  paths.Nodup ∧ ∀ path, path ∈ paths ↔ path ≠ "" ∧ ∃ row ∈ rows, row.attachmentPath = path

/-- The variables of the loop of `capture`: the table, the names and files to store, and how many paths lead nowhere. -/
structure Captured (C : Type) where
  rows : List (MessageRow C)
  attachments : List (String × String)
  missing : Nat

/-- The name in the archive of the attachment with a number. -/
def attachmentName (number : Nat) : String := "attachments/" ++ number.repr

/-- One round of the loop of `capture`. -/
def capturePath (fs : FileSystem) (includeAttachments : Bool) (s : Captured C) (path : String) : Captured C :=
  let available := (fs.file (utf8 path)).isSome
  if includeAttachments && available then
    let name := attachmentName s.attachments.length
    { s with rows := updatePath s.rows name path, attachments := s.attachments ++ [(name, path)] }
  else
    { s with rows := updatePath s.rows "" path, missing := if available then s.missing else s.missing + 1 }

/-- The loop of `capture` over the paths that were listed. -/
def capturePaths (fs : FileSystem) (includeAttachments : Bool) (rows : List (MessageRow C)) (paths : List String) : Captured C :=
  paths.foldl (capturePath fs includeAttachments) { rows, attachments := [], missing := 0 }

/-- The files that `write` puts in the archive for the attachments: none where one cannot be read. -/
def storedFiles (fs : FileSystem) (attachments : List (String × String)) : Option (List (String × List UInt8)) :=
  attachments.mapM fun (name, path) => (fs.file (utf8 path)).map fun content => (name, content)

/-- The check of `inspect` on every row: a path is empty or names an attachment of the archive. -/
def validReferences (files : List (String × List UInt8)) (rows : List (MessageRow C)) : Bool :=
  rows.all fun row => row.attachmentPath == "" ||
    files.any fun file => "attachments/".toList.isPrefixOf file.1.toList && file.1 == row.attachmentPath

/-- The loop of `commit` over the paths that were listed. -/
def localPaths (destination : List UInt8) (rows : List (MessageRow C)) (paths : List String) : List (MessageRow C) :=
  paths.foldl (fun rows path => updatePath rows (toStringLossy (join destination (utf8 path))) path) rows

/-- The files of the system once the staging directory is the destination. -/
def FileSystem.fileAfter (fs : FileSystem) (destination : List UInt8) (files : List (String × List UInt8)) (path : List UInt8) :
    Option (List UInt8) :=
  match files.find? fun file => join destination (utf8 file.1) = path with
  | some file => some file.2
  | none => fs.file path

/-- `PreparedRestore::commit` on the chat database: the rows of the new profile, if it comes to be. -/
def commitRows (fs : FileSystem) (destination : List UInt8) (rows : List (MessageRow C)) (paths : List String) :
    Option (List (MessageRow C)) :=
  if fs.occupied destination then none
  else if fs.renames destination then some (localPaths destination rows paths)
  else none

end DoubleSlash.Store.Backup
