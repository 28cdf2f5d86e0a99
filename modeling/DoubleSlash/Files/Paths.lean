import DoubleSlash.Lib.Text
import Mathlib.Data.Bool.AllAny

/-!
# The names of received files

What `file_transfer.rs` makes of a sender's `rel_path` and `transfer_id`: the name of the `.part` file (`open_part_file`), the
final name (`safe_file_name`), and the first free variant of it (`unique_dest_path`). A path is its list of components.
-/

namespace DoubleSlash.Files

open Text

/-- One component of a path. -/
abbrev Name := List Char

/-- A path, component by component. -/
abbrev Path := List Name

/-- The platform, which decides what separates components. -/
inductive Os where
  | unix
  | windows
  deriving DecidableEq, Repr

/-- `std::path::is_separator`. -/
def Os.isSeparator : Os → Char → Bool
  | .unix, c => c == '/'
  | .windows, c => c == '/' || c == '\\'

/-- A separator of either platform. -/
def isSlash (c : Char) : Bool := c == '/' || c == '\\'

/-- `dir.join(text)` for a relative text: `Path` drops empty and `.` components. -/
def join (os : Os) (dir : Path) (text : List Char) : Path :=
  dir ++ (text.splitOnP os.isSeparator).filter fun c => c ≠ [] ∧ c ≠ ['.']

/-- `path.parent()`. -/
def parent (path : Path) : Path := path.dropLast

/-- One component of a walk: `..` goes back up. -/
def walk (at_ : Path) (c : Name) : Path :=
  if c = [] ∨ c = ['.'] then at_ else if c = ['.', '.'] then at_.dropLast else at_ ++ [c]

/-- The file a path names, `..` resolved. -/
def resolve (path : Path) : Path := path.foldl walk []

/-- Lexical normalisation with both separators, whatever the platform. -/
def normalise (path : Path) : Path := resolve (path.flatMap (List.splitOnP isSlash))

/-- The path is a direct child of the directory. -/
def IsChild (dir path : Path) : Prop := ∃ name, normalise path = normalise dir ++ [name]

/-! ## `safe_file_name` -/

/-- The names of `is_reserved_device_name`. -/
def reservedNames : List String :=
  ["CON", "PRN", "AUX", "NUL", "COM1", "COM2", "COM3", "COM4", "COM5", "COM6", "COM7", "COM8", "COM9", "LPT1", "LPT2", "LPT3",
    "LPT4", "LPT5", "LPT6", "LPT7", "LPT8", "LPT9"]

/-- `is_reserved_device_name`: ASCII case does not count. -/
def isReservedDeviceName (stem : Name) : Bool :=
  reservedNames.any fun r => stem.map Char.toLower == r.toList.map Char.toLower

/-- What the sanitiser keeps: the last component, up to its first colon, without trailing dots and spaces. -/
def baseName (relPath : String) : Name :=
  (((relPath.toList.rdropWhile isSlash).rtakeWhile (!isSlash ·)).takeWhile (· != ':')).rdropWhile fun c => c == '.' || c == ' '

/-- The part of a name before its first dot. -/
def deviceStem (name : Name) : Name := name.takeWhile (· != '.')

/-- `safe_file_name`. -/
def safeFileName (relPath : String) : Name :=
  let base := baseName relPath
  if base = [] ∨ base = ['.'] ∨ base = ['.', '.'] then "received_file".toList
  else if isReservedDeviceName (deviceStem base) then '_' :: base
  else base

/-! ## The three paths of a received file -/

/-- The text of a `.part` file's name. -/
def partName (relPath transferId : String) : Name :=
  safeFileName relPath ++ '.' :: transferId.toList ++ ".part".toList

/-- The path `open_part_file` opens. -/
def partPath (os : Os) (dir : Path) (relPath transferId : String) : Path :=
  join os dir (partName relPath transferId)

/-- `file_stem` and `extension`: a name is split at its last dot unless that is its first character. -/
def stemExt (name : Name) : Name × Option Name :=
  if name = ['.', '.'] then (name, none)
  else match rsplitOnce '.' name with
    | none => (name, none)
    | some ([], _) => (name, none)
    | some (stem, ext) => (stem, some ext)

/-- The `n`-th alternative of a name that is taken. -/
def numbered (name : Name) (n : Nat) : Name :=
  let number := " (".toList ++ n.repr.toList ++ [')']
  match stemExt name with
  | (stem, none) => stem ++ number
  | (stem, some ext) => stem ++ number ++ '.' :: ext

/-- `unique_dest_path`: the plain name if it is free, else the first free numbered one, else the plain name after all. -/
def uniqueDestPath (os : Os) (taken : Path → Bool) (dir : Path) (name : Name) : Path :=
  if taken (join os dir name) = false then join os dir name
  else match (List.range' 1 9999).find? fun n => !taken (join os dir (numbered name n)) with
    | some n => join os dir (numbered name n)
    | none => join os dir name

/-! ## What a safe name is -/

/-- A name a received file may have: not empty, no dot names, no device, no separator or colon, no trailing dot or space. -/
structure SafeName (name : Name) : Prop where
  nonempty : name ≠ []
  plain : ∀ c ∈ name, isSlash c = false ∧ c ≠ ':'
  last : ∀ h : name ≠ [], name.getLast h ≠ '.' ∧ name.getLast h ≠ ' '
  device : isReservedDeviceName (deviceStem name) = false

theorem SafeName.ne_dot {name : Name} (h : SafeName name) : name ≠ ['.'] := by
  rintro rfl
  exact (h.last (by simp)).1 rfl

theorem SafeName.ne_dots {name : Name} (h : SafeName name) : name ≠ ['.', '.'] := by
  rintro rfl
  exact (h.last (by simp)).1 rfl

/-- Every character the sanitiser keeps is neither a separator nor a colon. -/
theorem baseName_plain {relPath : String} {c : Char} (h : c ∈ baseName relPath) : isSlash c = false ∧ c ≠ ':' := by
  have h₁ := (List.rdropWhile_prefix _ _).subset h
  have h₂ := (List.takeWhile_prefix _).subset h₁
  constructor
  · simpa using List.mem_rtakeWhile_imp h₂
  · simpa using List.mem_takeWhile_imp h₁

theorem baseName_last {relPath : String} (h : baseName relPath ≠ []) :
    (baseName relPath).getLast h ≠ '.' ∧ (baseName relPath).getLast h ≠ ' ' := by
  have := List.rdropWhile_last_not _ _ h
  simpa [baseName] using this

/-- A device's name has only letters and digits. -/
theorem device_chars {stem : Name} (h : isReservedDeviceName stem = true) : ∀ c ∈ stem, c ≠ '_' ∧ c ≠ ' ' := by
  obtain ⟨r, hr, heq⟩ := List.any_eq_true.mp h
  have hall : (reservedNames.all fun r => (r.toList.map Char.toLower).all fun c => c ≠ '_' ∧ c ≠ ' ') = true := by decide
  intro c hc
  have := of_decide_eq_true
    (List.all_eq_true.mp (List.all_eq_true.mp hall r hr) c.toLower (beq_iff_eq.mp heq ▸ List.mem_map_of_mem hc))
  constructor <;> rintro rfl
  · exact this.1 (by decide)
  · exact this.2 (by decide)

/-- A name whose stem has a character no device has is no device. -/
theorem not_device {stem : Name} {c : Char} (hc : c ∈ stem) (h : c = '_' ∨ c = ' ') : isReservedDeviceName stem = false := by
  cases hd : isReservedDeviceName stem with
  | false => rfl
  | true =>
    have := device_chars hd c hc
    rcases h with rfl | rfl
    · exact absurd rfl this.1
    · exact absurd rfl this.2

/-- **The sanitiser's names are safe**, whatever the sender writes. -/
theorem safeName_safeFileName (relPath : String) : SafeName (safeFileName relPath) := by
  unfold safeFileName
  simp only
  split
  · exact
      { nonempty := by decide, plain := List.all_iff_forall_prop.mp (by decide), last := by decide, device := by decide }
  rename_i hne
  simp only [not_or] at hne
  split
  · refine { nonempty := by simp, plain := ?_, last := ?_, device := ?_ }
    · intro c hc
      rcases List.mem_cons.mp hc with rfl | hc
      · decide
      · exact baseName_plain hc
    · intro h
      rw [List.getLast_cons hne.1]
      exact baseName_last hne.1
    · exact not_device (c := '_') (by simp [deviceStem]) (Or.inl rfl)
  · rename_i hdev
    exact { nonempty := hne.1, plain := fun c => baseName_plain, last := baseName_last, device := by simpa using hdev }

end DoubleSlash.Files
