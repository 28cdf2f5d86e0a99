import DoubleSlash.Lib.Renaming
import DoubleSlash.Store.Attachments
import Std.Data.String.ToNat

/-!
# The two rewritings of attachment paths

The loop of `capture` and the loop of `commit` are renamings of the paths of the table. Each path that is listed is an old name; the
new ones are the numbered names of the archive, or nothing, and then the texts of the paths below the destination.
-/

namespace DoubleSlash.Store.Backup

open Bytes UnixPath Renaming

variable {C : Type} {fs : FileSystem}

/-- The row with its path renamed. -/
def MessageRow.mapPath (f : String → String) (row : MessageRow C) : MessageRow C :=
  { row with attachmentPath := f row.attachmentPath }

/-- The file of an attachment is there. -/
def FileSystem.available (fs : FileSystem) (path : String) : Bool := (fs.file (utf8 path)).isSome

namespace AttachmentsAux

theorem mapPath_mapPath (f g : String → String) (row : MessageRow C) : (row.mapPath f).mapPath g = row.mapPath (g ∘ f) := rfl

theorem mapPath_id (row : MessageRow C) : row.mapPath id = row := rfl

theorem updatePath_eq (rows : List (MessageRow C)) (replacement path : String) :
    updatePath rows replacement path = rows.map (MessageRow.mapPath (replace (path, replacement))) := by
  unfold updatePath
  refine List.map_congr_left fun row _ => ?_
  unfold MessageRow.mapPath replace
  split <;> rfl

theorem mem_zip_map {α β : Type} {f : α → β} {l : List α} {x : α} {y : β} : (x, y) ∈ l.zip (l.map f) ↔ x ∈ l ∧ y = f x := by
  induction l with
  | nil => simp
  | cons a l ih =>
    rw [List.map_cons, List.zip_cons_cons, List.mem_cons, ih, List.mem_cons, Prod.mk.injEq]
    constructor
    · rintro (⟨rfl, rfl⟩ | ⟨hx, rfl⟩)
      · exact ⟨Or.inl rfl, rfl⟩
      · exact ⟨Or.inr hx, rfl⟩
    · rintro ⟨rfl | hx, rfl⟩
      · exact Or.inl ⟨rfl, rfl⟩
      · exact Or.inr ⟨hx, rfl⟩

/-! ## The names of the archive -/

theorem toList_attachmentName (n : Nat) : (attachmentName n).toList = "attachments/".toList ++ Nat.toDigits 10 n := by
  unfold attachmentName
  rw [String.toList_append, Nat.toList_repr]

theorem attachmentName_inj {m n : Nat} (h : attachmentName m = attachmentName n) : m = n := by
  have hlist := congrArg String.toList h
  rw [toList_attachmentName, toList_attachmentName] at hlist
  have hdigits := congrArg (Nat.ofDigitChars 10 · 0) (List.append_cancel_left hlist)
  simpa [Nat.ofDigitChars_ten_toDigits] using hdigits

theorem attachmentName_ne (n : Nat) : attachmentName n ≠ "" := by
  intro h
  have hlist := congrArg String.toList h
  rw [toList_attachmentName] at hlist
  simp at hlist

/-- The bytes of a name begin with an `a`. -/
theorem utf8_attachmentName (n : Nat) : ∃ rest, utf8 (attachmentName n) = 0x61 :: rest := by
  unfold attachmentName
  rw [utf8_append]
  exact ⟨(utf8 "ttachments/") ++ utf8 n.repr, rfl⟩

/-- A name has one separator. -/
theorem count_attachmentName (n : Nat) : (utf8 (attachmentName n)).count separator = 1 := by
  have hdigits : (utf8 n.repr).count separator = 0 := by
    rw [List.count_eq_zero, utf8_eq_flatMap, Nat.toList_repr]
    intro hmem
    obtain ⟨c, hc, hbyte⟩ := List.mem_flatMap.mp hmem
    have hdigit := Nat.isDigit_of_mem_toDigits (by decide) (by decide) hc
    obtain ⟨hlow, hhigh⟩ : 48 ≤ c.val.toNat ∧ c.val.toNat ≤ 57 := by
      simpa [Char.isDigit, UInt32.le_iff_toNat_le] using hdigit
    have hsize : c.utf8Size = 1 := Char.utf8Size_eq_one_iff.mpr (UInt32.le_iff_toNat_le.mpr (Nat.le_trans hhigh (by decide)))
    rw [String.utf8EncodeChar_eq_singleton hsize, List.mem_singleton] at hbyte
    have hnat := congrArg UInt8.toNat hbyte
    rw [UInt32.toNat_toUInt8, Nat.mod_eq_of_lt (by omega)] at hnat
    have hsep : separator.toNat = 47 := rfl
    omega
  unfold attachmentName
  rw [utf8_append, List.count_append, hdigits]
  decide

theorem head_attachmentName (n : Nat) : ¬ (utf8 (attachmentName n)).head? = some separator := by
  obtain ⟨rest, hname⟩ := utf8_attachmentName n
  rw [hname, List.head?_cons, Option.some.injEq]
  decide

/-- A name below a directory is that directory's bytes and more. -/
theorem join_attachmentName (directory : List UInt8) (n : Nat) :
    (∃ rest, join directory (utf8 (attachmentName n)) = directory ++ 0x61 :: rest) ∨
      ∃ rest, join directory (utf8 (attachmentName n)) = directory ++ separator :: rest := by
  obtain ⟨rest, hname⟩ := utf8_attachmentName n
  unfold join
  rw [if_neg (head_attachmentName n), hname]
  split
  · exact Or.inl ⟨rest, rfl⟩
  · exact Or.inr ⟨0x61 :: rest, rfl⟩

theorem join_ne_nil (directory : List UInt8) (n : Nat) : join directory (utf8 (attachmentName n)) ≠ [] := by
  rcases join_attachmentName directory n with ⟨rest, h⟩ | ⟨rest, h⟩ <;> simp [h]

theorem join_inj {directory : List UInt8} {m n : Nat}
    (h : join directory (utf8 (attachmentName m)) = join directory (utf8 (attachmentName n))) : m = n := by
  have hbytes : utf8 (attachmentName m) = utf8 (attachmentName n) := by
    unfold join at h
    rw [if_neg (head_attachmentName m), if_neg (head_attachmentName n)] at h
    split at h
    · exact List.append_cancel_left h
    · exact (List.cons.inj (List.append_cancel_left h)).2
  exact attachmentName_inj (utf8_inj hbytes)

/-- A directory below which a name is a text is a text. -/
theorem isText_of_join {directory : List UInt8} {n : Nat} (h : ∃ s, join directory (utf8 (attachmentName n)) = utf8 s) :
    ∃ s, directory = utf8 s := by
  rcases join_attachmentName directory n with ⟨rest, hjoin⟩ | ⟨rest, hjoin⟩
  · rw [hjoin] at h
    exact isText_of_append (by decide) h
  · rw [hjoin] at h
    exact isText_of_append (by decide) h

theorem isText_join {directory : List UInt8} {n : Nat} (h : ∃ s, directory = utf8 s) :
    ∃ s, join directory (utf8 (attachmentName n)) = utf8 s := by
  obtain ⟨s, rfl⟩ := h
  unfold join
  rw [if_neg (head_attachmentName n)]
  split
  · exact ⟨s ++ attachmentName n, (utf8_append s _).symm⟩
  · refine ⟨s ++ ("/" ++ attachmentName n), ?_⟩
    rw [utf8_append, utf8_append]
    rfl

/-- A name below a directory is none of the archive. -/
theorem join_ne_attachmentName {directory : List UInt8} (hdir : directory ≠ []) (m n : Nat) :
    join directory (utf8 (attachmentName m)) ≠ utf8 (attachmentName n) := by
  intro h
  have hcount := congrArg (List.count separator) h
  rw [count_attachmentName] at hcount
  unfold join at hcount
  rw [if_neg (head_attachmentName m)] at hcount
  split at hcount
  · rename_i hlast
    have hmem : separator ∈ directory := List.mem_of_getLast? (hlast.resolve_left hdir)
    have hpos := List.count_pos_iff.mpr hmem
    rw [List.count_append, count_attachmentName] at hcount
    omega
  · rw [List.count_append, List.count_cons_self, count_attachmentName] at hcount
    omega

/-! ## The loop of `capture` -/

/-- The replacements of `capture`: the number of the next name counts the files found before. -/
def replacements (fs : FileSystem) : Nat → List String → List (String × String)
  | _, [] => []
  | n, path :: paths =>
    if fs.available path then (path, attachmentName n) :: replacements fs (n + 1) paths
    else (path, "") :: replacements fs n paths

/-- The attachments that are stored: the replacements of the files that are there, the other way round. -/
def stored (fs : FileSystem) (n : Nat) (paths : List String) : List (String × String) :=
  ((replacements fs n paths).filter fun r => fs.available r.1).map Prod.swap

theorem stored_of_available {n : Nat} {path : String} {paths : List String} (h : fs.available path = true) :
    stored fs n (path :: paths) = (attachmentName n, path) :: stored fs (n + 1) paths := by
  unfold stored
  rw [replacements, if_pos h, List.filter_cons_of_pos (by simpa using h), List.map_cons]
  rfl

theorem stored_of_missing {n : Nat} {path : String} {paths : List String} (h : ¬ fs.available path = true) :
    stored fs n (path :: paths) = stored fs n paths := by
  unfold stored
  rw [replacements, if_neg h, List.filter_cons_of_neg (by simpa using h)]

theorem capturePath_available {s : Captured C} {path : String} (h : fs.available path = true) :
    capturePath fs true s path =
      { s with rows := updatePath s.rows (attachmentName s.attachments.length) path,
               attachments := s.attachments ++ [(attachmentName s.attachments.length, path)] } := by
  unfold capturePath
  unfold FileSystem.available at h
  simp [h]

theorem capturePath_missing {s : Captured C} {path : String} (h : ¬ fs.available path = true) :
    capturePath fs true s path = { s with rows := updatePath s.rows "" path, missing := s.missing + 1 } := by
  unfold capturePath
  unfold FileSystem.available at h
  simp [h]

/-- The loop renames the paths of the table, and stores the files that are there under their names. -/
theorem foldl_capturePath (paths : List String) (s : Captured C) :
    (paths.foldl (capturePath fs true) s).rows =
        s.rows.map (MessageRow.mapPath (rename (replacements fs s.attachments.length paths))) ∧
      (paths.foldl (capturePath fs true) s).attachments = s.attachments ++ stored fs s.attachments.length paths := by
  induction paths generalizing s with
  | nil => exact ⟨(List.map_id s.rows).symm, (List.append_nil _).symm⟩
  | cons path paths ih =>
    rw [List.foldl_cons]
    by_cases hpath : fs.available path = true
    · rw [capturePath_available hpath]
      obtain ⟨hrows, hattachments⟩ := ih
        { s with rows := updatePath s.rows (attachmentName s.attachments.length) path,
                 attachments := s.attachments ++ [(attachmentName s.attachments.length, path)] }
      rw [hrows, hattachments]
      have hlen : (s.attachments ++ [(attachmentName s.attachments.length, path)]).length = s.attachments.length + 1 := by simp
      simp only [hlen, updatePath_eq, List.map_map, replacements, hpath, if_true]
      refine ⟨rfl, ?_⟩
      rw [stored_of_available hpath, List.append_assoc]
      rfl
    · rw [capturePath_missing hpath]
      obtain ⟨hrows, hattachments⟩ := ih { s with rows := updatePath s.rows "" path, missing := s.missing + 1 }
      rw [hrows, hattachments]
      simp only [updatePath_eq, List.map_map, replacements, hpath]
      refine ⟨rfl, ?_⟩
      rw [stored_of_missing hpath]

theorem map_fst_replacements (n : Nat) (paths : List String) : (replacements fs n paths).map Prod.fst = paths := by
  induction paths generalizing n with
  | nil => rfl
  | cons path paths ih =>
    unfold replacements
    split <;> rw [List.map_cons, ih]

/-- A path that leads nowhere is replaced by nothing; one that leads to a file, by a name from the next number on. -/
theorem mem_replacements {n : Nat} {paths : List String} {r : String × String} (h : r ∈ replacements fs n paths) :
    (¬ fs.available r.1 = true ∧ r.2 = "") ∨ (fs.available r.1 = true ∧ ∃ k, n ≤ k ∧ r.2 = attachmentName k) := by
  induction paths generalizing n with
  | nil => cases h
  | cons path paths ih =>
    unfold replacements at h
    split at h
    · rename_i hpath
      rcases List.mem_cons.mp h with rfl | h
      · exact Or.inr ⟨hpath, n, Nat.le_refl n, rfl⟩
      · rcases ih h with hmissing | ⟨hthere, k, hk, hname⟩
        · exact Or.inl hmissing
        · exact Or.inr ⟨hthere, k, by omega, hname⟩
    · rename_i hpath
      rcases List.mem_cons.mp h with rfl | h
      · exact Or.inl ⟨hpath, rfl⟩
      · exact ih h

/-- The names are given once. -/
theorem nodup_names (n : Nat) (paths : List String) : ((stored fs n paths).map Prod.fst).Nodup := by
  induction paths generalizing n with
  | nil => exact List.nodup_nil
  | cons path paths ih =>
    by_cases hpath : fs.available path = true
    · rw [stored_of_available hpath, List.map_cons, List.nodup_cons]
      refine ⟨?_, ih (n + 1)⟩
      intro hmem
      simp only [stored, List.mem_map, List.mem_filter] at hmem
      obtain ⟨_, ⟨r, ⟨hr, hthere⟩, rfl⟩, hname⟩ := hmem
      rcases mem_replacements hr with ⟨hmissing, -⟩ | ⟨-, k, hk, hname'⟩
      · exact hmissing hthere
      · have heq : attachmentName k = attachmentName n := hname'.symm.trans hname
        have := attachmentName_inj heq
        omega
    · rw [stored_of_missing hpath]
      exact ih n

/-- The replacements up to a path number the files before it. -/
theorem replacements_append (n : Nat) (before after : List String) :
    replacements fs n (before ++ after) = replacements fs n before ++ replacements fs (n + before.countP fs.available) after := by
  induction before generalizing n with
  | nil => rfl
  | cons path before ih =>
    rw [List.cons_append, replacements, replacements]
    by_cases hpath : fs.available path = true
    · rw [if_pos hpath, if_pos hpath, ih, List.countP_cons_of_pos hpath, List.cons_append]
      congr 3
      omega
    · rw [if_neg hpath, if_neg hpath, ih, List.countP_cons_of_neg hpath, List.cons_append]

end AttachmentsAux

end DoubleSlash.Store.Backup
