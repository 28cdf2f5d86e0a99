import DoubleSlash.Installer.Archives
import DoubleSlash.Lib.Least

/-!
# Finding a local archive

`detect_archive` picks the newest client archive beside the installer unless one of two things is in the directory: a name in
which `is_client_archive` cuts a character, or, among the archives whose first three version numbers are highest, one that is
listed later and differs further back. The rank has three numbers and `is_newer` compares all of them.

## Archive names

What the three readers of an archive's name make of it. `archiveKind` says what `is_client_archive` returns and when it panics;
for a release name it hands over the version token, in which `detect_version_from_archive` then finds its version. At the end the
list of candidates: the archive that is picked is the first of the highest rank.
-/

namespace DoubleSlash.Installer

open Text Bytes

namespace ArchiveAux

/-- A character that is no letter is only lower-cased from itself. -/
theorem eq_of_asciiLower {x c : Char} (hc : c.toNat < 65) (h : asciiLower x = c) : x = c := by
  unfold asciiLower at h
  by_cases hx : 'A' ≤ x ∧ x ≤ 'Z'
  · rw [if_pos hx] at h
    have hlow : 65 ≤ x.toNat := hx.1
    have hhigh : x.toNat ≤ 90 := hx.2
    have hascii : ∀ n < 128, (Char.ofNat n).toNat = n := by decide
    have hval := congrArg Char.toNat h
    rw [hascii _ (by omega)] at hval
    omega
  · rwa [if_neg hx] at h

/-- Where a text lower-cases to one without such a character it has none. -/
theorem not_mem_of_lower {s t : List Char} {c : Char} (hlower : s.map asciiLower = t) (hc : asciiLower c = c) (ht : c ∉ t) :
    c ∉ s := by
  intro hmem
  rw [← hlower] at ht
  exact ht (hc ▸ List.mem_map_of_mem hmem)

/-- A text that lower-cases to two parts around such a character has it between two parts. -/
theorem split_of_lower {s u v : List Char} {c : Char} (hc : c.toNat < 65) (hlower : s.map asciiLower = u ++ c :: v) :
    ∃ a b, s = a ++ c :: b ∧ a.map asciiLower = u ∧ b.map asciiLower = v := by
  obtain ⟨a, rest, rfl, ha, hrest⟩ := List.map_eq_append_iff.mp hlower
  obtain ⟨x, b, rfl, hx, hb⟩ := List.map_eq_cons_iff.mp hrest
  obtain rfl := eq_of_asciiLower hc hx
  exact ⟨a, b, rfl, ha, hb⟩

/-- A part of a name that reads as a version. -/
def isVersionPart (part : List Char) : Bool :=
  let pieces := part.splitOn '.'
  2 ≤ pieces.length && pieces.all fun p => p.all Char.isDigit

/-- A part without a dot is no version. -/
theorem isVersionPart_no_dot {part : List Char} (h : '.' ∉ part) : isVersionPart part = false := by
  simp [isVersionPart, List.splitOn_eq_singleton h]

end ArchiveAux

open ArchiveAux

/-- `is_client_archive` gets as far as the slice of the first twelve bytes, and byte twelve is inside a character. -/
def CutsCharacter (file : FileName) : Prop :=
  (extension file).any (eqIgnoreAsciiCaseOs · "7z") = true ∧
    ∃ name, (fileStem file).bind fromUtf8 = some name ∧ byteLen archiveLead + byteLen archiveSuffix < byteLen name.toList ∧
      ∀ before after, name.toList = before ++ after → byteLen before ≠ byteLen archiveLead

/-- The name of the nightly archive. -/
def NightlyName (name : String) : Prop := name.toList.map asciiLower = nightlyStem.map asciiLower

/-- The name of a release with this version token. -/
def ReleaseName (name : String) (token : List Char) : Prop :=
  ∃ lead, name.toList = lead ++ (token ++ archiveSuffix) ∧ lead.map asciiLower = archiveLead.map asciiLower ∧
    versionTokenIsSemver token = true

/-- The cases of `is_client_archive`. -/
inductive ArchiveKind (file : FileName) : Except SlicePanic Bool → Prop where
  | other : ¬CutsCharacter file → ArchiveKind file (.ok false)
  | cut : CutsCharacter file → ArchiveKind file (.error .insideCharacter)
  | nightly (name : String) :
      ¬CutsCharacter file → (fileStem file).bind fromUtf8 = some name → NightlyName name → ArchiveKind file (.ok true)
  | release (name : String) (token : List Char) :
      ¬CutsCharacter file → (fileStem file).bind fromUtf8 = some name → ReleaseName name token → ArchiveKind file (.ok true)

namespace ArchiveAux

theorem not_cuts_of_front {file : FileName} {name : String} {front after : List Char}
    (hstem : (fileStem file).bind fromUtf8 = some name) (hsplit : name.toList = front ++ after)
    (hfront : byteLen front = byteLen archiveLead) : ¬CutsCharacter file := by
  rintro ⟨-, name', hstem', -, hcut⟩
  obtain rfl := Option.some.inj (hstem.symm.trans hstem')
  exact hcut front after hsplit hfront

theorem byteLen_of_lower {s t : List Char} (h : s.map asciiLower = t.map asciiLower) : byteLen s = byteLen t := by
  rw [← byteLen_map_asciiLower s, h, byteLen_map_asciiLower]

theorem nightly_front {name : String} (h : NightlyName name) :
    ∃ front after, name.toList = front ++ after ∧ byteLen front = byteLen archiveLead := by
  have hsplit : nightlyStem.map asciiLower = archiveLead.map asciiLower ++ ("nightly-win64".toList).map asciiLower := by decide
  obtain ⟨front, after, hname, hfront, -⟩ := List.map_eq_append_iff.mp (h.trans hsplit)
  exact ⟨front, after, hname, byteLen_of_lower hfront⟩

/-- Between the lead and the suffix of a long name there is a token, and its slice goes through. -/
theorem token_slice {s front : List Char} (hlong : byteLen archiveLead + byteLen archiveSuffix < byteLen s)
    (hfront : front <+: s) (hlen : byteLen front = byteLen archiveLead) (hsuffix : archiveSuffix <:+ s) :
    ∃ token, s = front ++ (token ++ archiveSuffix) ∧
      (sliceTo s (byteLen s - byteLen archiveSuffix)).bind (sliceFrom · (byteLen archiveLead)) = some token := by
  obtain ⟨before, rfl⟩ := hsuffix
  rw [byteLen_append] at hlong ⊢
  have hle : byteLen front ≤ byteLen before := by omega
  obtain ⟨token, rfl⟩ := prefix_of_byteLen_le hfront (List.prefix_append before archiveSuffix) hle
  refine ⟨token, List.append_assoc _ _ _, ?_⟩
  rw [Nat.add_sub_cancel, sliceTo_append, Option.bind_some, ← hlen, sliceFrom_append]

end ArchiveAux

/-- **The cases of `is_client_archive`.** -/
theorem archiveKind (file : FileName) : ArchiveKind file (isClientArchive file) := by
  unfold isClientArchive
  by_cases hext : (extension file).any (eqIgnoreAsciiCaseOs · "7z") = true
  · rw [if_pos hext]
    cases hstem : (fileStem file).bind fromUtf8 with
    | none =>
      refine ArchiveKind.other ?_
      rintro ⟨-, name, hname, -⟩
      rw [hstem] at hname
      cases hname
    | some name =>
      simp only [eqIgnoreAsciiCase, beq_iff_eq]
      by_cases hnightly : name.toList.map asciiLower = nightlyStem.map asciiLower
      · obtain ⟨front, after, hsplit, hlen⟩ := nightly_front hnightly
        rw [if_pos hnightly]
        exact ArchiveKind.nightly name (not_cuts_of_front hstem hsplit hlen) hstem hnightly
      rw [if_neg hnightly]
      by_cases hlong : byteLen archiveLead + byteLen archiveSuffix < byteLen name.toList
      · rw [if_pos hlong]
        cases hslice : sliceTo name.toList (byteLen archiveLead) with
        | none =>
          refine ArchiveKind.cut ⟨hext, name, hstem, hlong, fun before after hsplit hlen => ?_⟩
          rw [hsplit, ← hlen, sliceTo_append] at hslice
          cases hslice
        | some front =>
          obtain ⟨hfront, hlen⟩ := sliceTo_eq_some hslice
          obtain ⟨after, hafter⟩ := hfront
          have hcut := not_cuts_of_front hstem hafter.symm hlen
          by_cases hrelease : front.map asciiLower = archiveLead.map asciiLower ∧ archiveSuffix <:+ name.toList
          · obtain ⟨token, hname, htoken⟩ := token_slice hlong ⟨after, hafter⟩ hlen hrelease.2
            simp only [if_pos hrelease, htoken]
            cases hsemver : versionTokenIsSemver token with
            | false => exact ArchiveKind.other hcut
            | true => exact ArchiveKind.release name token hcut hstem ⟨front, hname, hrelease.1, hsemver⟩
          · simp only [if_neg hrelease]
            exact ArchiveKind.other hcut
      · rw [if_neg hlong]
        refine ArchiveKind.other ?_
        rintro ⟨-, name', hstem', hlong', -⟩
        obtain rfl := Option.some.inj (hstem.symm.trans hstem')
        exact hlong hlong'
  · rw [if_neg hext]
    exact ArchiveKind.other fun h => hext h.1

/-- It returns unless it cuts a character. -/
theorem isClientArchive_returns (file : FileName) : (∃ b, isClientArchive file = .ok b) ↔ ¬CutsCharacter file := by
  have hkind := archiveKind file
  constructor
  · rintro ⟨b, h⟩ hcut
    rw [h] at hkind
    cases hkind with
    | other hnot => exact hnot hcut
    | nightly _ hnot _ _ => exact hnot hcut
    | release _ _ hnot _ _ => exact hnot hcut
  · intro hnot
    cases h : isClientArchive file with
    | ok b => exact ⟨b, rfl⟩
    | error panic =>
      rw [h] at hkind
      cases hkind with
      | cut hcut => exact absurd hcut hnot

/-- A client archive has the name of the nightly or of a release. -/
theorem client_name {file : FileName} (h : isClientArchive file = .ok true) :
    ∃ name, (fileStem file).bind fromUtf8 = some name ∧ (NightlyName name ∨ ∃ token, ReleaseName name token) := by
  have hkind := archiveKind file
  rw [h] at hkind
  cases hkind with
  | nightly name _ hstem hnightly => exact ⟨name, hstem, Or.inl hnightly⟩
  | release name token _ hstem hrelease => exact ⟨name, hstem, Or.inr ⟨token, hrelease⟩⟩

section

variable (lossy : FileName → String)

theorem detectVersion_of_name {file : FileName} {name : String} (h : (fileStem file).bind fromUtf8 = some name) :
    detectVersion lossy file = ((name.toList.splitOn '-').find? isVersionPart).map String.ofList := by
  obtain ⟨stem, hstem, hname⟩ := Option.bind_eq_some_iff.mp h
  rw [detectVersion, hstem, Option.bind_some, toStringLossy, hname, Option.getD_some]
  rfl

/-- No version is found in the name of the nightly. -/
theorem detectVersion_nightly {file : FileName} {name : String} (h : (fileStem file).bind fromUtf8 = some name)
    (hnightly : NightlyName name) : detectVersion lossy file = none := by
  have hlower : name.toList.map asciiLower = "doubleslash".toList ++ '-' :: "nightly-win64".toList := hnightly.trans (by decide)
  obtain ⟨product, rest, hname, hproduct, hrest⟩ := split_of_lower (by decide) hlower
  have hlower' : rest.map asciiLower = "nightly".toList ++ '-' :: "win64".toList := hrest.trans (by decide)
  obtain ⟨channel, platform, rfl, hchannel, hplatform⟩ := split_of_lower (by decide) hlower'
  have hparts : name.toList.splitOn '-' = [product, channel, platform] := by
    rw [hname, List.splitOn_append_cons_self, List.splitOn_append_cons_self,
      List.splitOn_eq_singleton (not_mem_of_lower hproduct (by decide) (by decide)),
      List.splitOn_eq_singleton (not_mem_of_lower hchannel (by decide) (by decide)),
      List.splitOn_eq_singleton (not_mem_of_lower hplatform (by decide) (by decide))]
    rfl
  have hnone : (name.toList.splitOn '-').find? isVersionPart = none := by
    rw [hparts]
    simp only [List.find?_cons, List.find?_nil, isVersionPart_no_dot (not_mem_of_lower hproduct (by decide) (by decide)),
      isVersionPart_no_dot (not_mem_of_lower hchannel (by decide) (by decide)),
      isVersionPart_no_dot (not_mem_of_lower hplatform (by decide) (by decide))]
  rw [detectVersion_of_name lossy h, hnone, Option.map_none]

/-- In the name of a release the version found is the token up to its first dash. -/
theorem detectVersion_release {file : FileName} {name : String} {token : List Char}
    (h : (fileStem file).bind fromUtf8 = some name) (hrelease : ReleaseName name token) :
    ∃ core, (token.splitOn '-').head? = some core ∧ detectVersion lossy file = some (String.ofList core) := by
  obtain ⟨lead, hname, hlead, hsemver⟩ := hrelease
  have hlower : lead.map asciiLower = "doubleslash".toList ++ '-' :: [] := hlead.trans (by decide)
  obtain ⟨product, rest, rfl, hproduct, hrest⟩ := split_of_lower (by decide) hlower
  obtain rfl := List.map_eq_nil_iff.mp hrest
  obtain ⟨core, more, hcore⟩ := List.exists_cons_of_ne_nil (List.splitOn_ne_nil '-' token)
  have hparts : name.toList.splitOn '-' = product :: core :: (more ++ ["win64".toList]) := by
    have hsplit : name.toList = product ++ '-' :: (token ++ '-' :: "win64".toList) := by
      rw [hname, List.append_assoc]
      rfl
    rw [hsplit, List.splitOn_append_cons_self, List.splitOn_append_cons_self, hcore,
      List.splitOn_eq_singleton (not_mem_of_lower hproduct (by decide) (by decide)),
      List.splitOn_eq_singleton (show '-' ∉ "win64".toList by decide)]
    rfl
  have hversion : isVersionPart core = true := by
    simp only [versionTokenIsSemver, hcore, List.head?_cons, Option.getD_some, Bool.and_eq_true, decide_eq_true_eq,
      List.all_eq_true] at hsemver
    simp only [isVersionPart, Bool.and_eq_true, decide_eq_true_eq, List.all_eq_true]
    exact ⟨hsemver.1.1, fun piece hpiece => (hsemver.2 piece hpiece).2⟩
  refine ⟨core, by rw [hcore, List.head?_cons], ?_⟩
  rw [detectVersion_of_name lossy h, hparts, List.find?_cons,
    isVersionPart_no_dot (not_mem_of_lower hproduct (by decide) (by decide)), List.find?_cons, hversion, Option.map_some]

/-! ## The candidates -/

/-- The candidates are listed as they are unless a name cuts a character. -/
theorem clientArchives_of_whole {files : List FileName} (h : ∀ file ∈ files, ¬CutsCharacter file) :
    clientArchives files = .ok (files.filter fun file => decide (isClientArchive file = .ok true)) := by
  induction files with
  | nil => rfl
  | cons file rest ih =>
    obtain ⟨isClient, hclient⟩ := (isClientArchive_returns file).mpr (h file List.mem_cons_self)
    rw [clientArchives, hclient, ih fun other hother => h other (List.mem_cons_of_mem file hother), List.filter_cons, hclient]
    cases isClient <;> rfl

theorem whole_of_clientArchives {files found : List FileName} (h : clientArchives files = .ok found) :
    ∀ file ∈ files, ¬CutsCharacter file := by
  induction files generalizing found with
  | nil => simp
  | cons file rest ih =>
    rw [clientArchives] at h
    cases hclient : isClientArchive file with
    | error panic => simp [hclient] at h
    | ok isClient =>
      cases hrest : clientArchives rest with
      | error panic => simp [hclient, hrest] at h
      | ok more =>
        intro other hother
        rcases List.mem_cons.mp hother with rfl | hother
        · exact (isClientArchive_returns other).mp ⟨isClient, hclient⟩
        · exact ih hrest other hother

/-- In the order of the listing the first of the client archives of the highest rank. -/
def FirstOfHighest (files : List FileName) (a : FileName) : Prop :=
  isClientArchive a = .ok true ∧ ∃ before after, files = before ++ a :: after ∧
    (∀ b ∈ before, isClientArchive b = .ok true → archivePickRank lossy b < archivePickRank lossy a) ∧
    ∀ b ∈ after, isClientArchive b = .ok true → archivePickRank lossy b ≤ archivePickRank lossy a

namespace ArchiveAux

theorem filter_split {P : FileName → Prop} [DecidablePred P] {files before after : List FileName} {a : FileName}
    (h : files.filter (fun x => decide (P x)) = before ++ a :: after) :
    P a ∧ ∃ before' after', files = before' ++ a :: after' ∧ (∀ b ∈ before', P b → b ∈ before) ∧ ∀ b ∈ after', P b → b ∈ after := by
  obtain ⟨front, rest, rfl, hfront, hrest⟩ := List.filter_eq_append_iff.mp h
  obtain ⟨skipped, after', rfl, hskipped, ha, hafter⟩ := List.filter_eq_cons_iff.mp hrest
  refine ⟨of_decide_eq_true ha, front ++ skipped, after', by simp, ?_, ?_⟩
  · intro b hb hP
    rcases List.mem_append.mp hb with hb | hb
    · rw [← hfront]
      exact List.mem_filter.mpr ⟨hb, decide_eq_true hP⟩
    · exact absurd (decide_eq_true hP) (hskipped b hb)
  · intro b hb hP
    rw [← hafter]
    exact List.mem_filter.mpr ⟨hb, decide_eq_true hP⟩

end ArchiveAux

/-- The archive of the highest rank among the client archives of a list. -/
def pickArchive (files : List FileName) : Option FileName :=
  Least.leastBy (fun file => OrderDual.toDual (archivePickRank lossy file))
    (files.filter fun file => decide (isClientArchive file = .ok true))

/-- It is the first of the highest rank. -/
theorem pickArchive_eq_some_iff {files : List FileName} {a : FileName} :
    pickArchive lossy files = some a ↔ FirstOfHighest lossy files a := by
  rw [pickArchive, Least.leastBy_eq_some_iff]
  constructor
  · rintro ⟨before, after, hsplit, hbefore, hafter⟩
    obtain ⟨hclient, before', after', hfiles, hbefore', hafter'⟩ := filter_split hsplit
    exact ⟨hclient, before', after', hfiles, fun b hb hP => hbefore b (hbefore' b hb hP),
      fun b hb hP => hafter b (hafter' b hb hP)⟩
  · rintro ⟨hclient, before, after, rfl, hbefore, hafter⟩
    refine ⟨before.filter fun file => decide (isClientArchive file = .ok true),
      after.filter fun file => decide (isClientArchive file = .ok true), ?_, ?_, ?_⟩
    · rw [List.filter_append, List.filter_cons, if_pos (decide_eq_true hclient)]
    · intro b hb
      obtain ⟨hmem, hP⟩ := List.mem_filter.mp hb
      exact hbefore b hmem (of_decide_eq_true hP)
    · intro b hb
      obtain ⟨hmem, hP⟩ := List.mem_filter.mp hb
      exact hafter b hmem (of_decide_eq_true hP)

theorem pickArchive_eq_none {files : List FileName} (h : pickArchive lossy files = none) :
    ∀ b ∈ files, isClientArchive b ≠ .ok true := by
  intro b hb hclient
  have hnil := Least.leastBy_eq_none_iff.mp h
  have hmem : b ∈ files.filter fun file => decide (isClientArchive file = .ok true) :=
    List.mem_filter.mpr ⟨hb, decide_eq_true hclient⟩
  rw [hnil] at hmem
  cases hmem

/-- **The pick.** Where no name cuts a character, `detect_archive` returns it. -/
theorem detectArchive_of_whole {listing : Option (List (Option FileName))} (h : ∀ file ∈ listed listing, ¬CutsCharacter file) :
    detectArchive lossy listing = .ok (pickArchive lossy (listed listing)) := by
  cases listing with
  | none => rfl
  | some entries =>
    have hcandidates := clientArchives_of_whole h
    rw [listed, Option.getD_some] at hcandidates
    have hsort := Least.head?_mergeSort (fun file => OrderDual.toDual (archivePickRank lossy file))
      ((entries.filterMap id).filter fun file => decide (isClientArchive file = .ok true))
    simp only [detectArchive, hcandidates]
    exact congrArg Except.ok hsort

theorem whole_of_detectArchive {listing : Option (List (Option FileName))} {found : Option FileName}
    (h : detectArchive lossy listing = .ok found) : ∀ file ∈ listed listing, ¬CutsCharacter file := by
  cases listing with
  | none =>
    intro file hfile
    cases hfile
  | some entries =>
    cases hcandidates : clientArchives (entries.filterMap id) with
    | error panic =>
      unfold detectArchive at h
      simp only [hcandidates, reduceCtorEq] at h
    | ok candidates => exact whole_of_clientArchives hcandidates

end

section

variable (lossy : FileName → String)

/-- The file is a client archive under the name of the nightly. -/
def IsNightly (file : FileName) : Prop := ∃ name, (fileStem file).bind fromUtf8 = some name ∧ NightlyName name

/-- `a` is a client archive, none listed has a version that ranks above that of `a`, and it is the nightly only where no release
is listed. -/
structure PickedNewest (files : List FileName) (a : FileName) : Prop where
  listed : a ∈ files
  client : isClientArchive a = .ok true
  newest : ∀ b ∈ files, isClientArchive b = .ok true → ∀ w, detectVersion lossy b = some w →
    ∃ v, detectVersion lossy a = some v ∧ isNewer w v = false
  release : IsNightly a → ∀ b ∈ files, isClientArchive b = .ok true → IsNightly b

/-- Nothing panics, and what is found is the newest; nothing is found only where there is no client archive. -/
def FindsNewest (listing : Option (List (Option FileName))) : Prop :=
  (∀ file ∈ listed listing, ∃ b, isClientArchive file = .ok b) ∧
    ∃ found, detectArchive lossy listing = .ok found ∧ (∀ a, found = some a → PickedNewest lossy (listed listing) a) ∧
      (found = none → ∀ b ∈ listed listing, isClientArchive b ≠ .ok true)

/-- The first listed of the archives of the highest rank has the highest version among those that agree in three numbers. -/
def FirstIsNewest (files : List FileName) : Prop :=
  ∀ a b v w, FirstOfHighest lossy files a → b ∈ files → isClientArchive b = .ok true →
    detectVersion lossy a = some v → detectVersion lossy b = some w →
    firstThree (versionNumbers v) = firstThree (versionNumbers w) → isNewer w v = false

namespace ArchiveAux

/-- One number of two lists in order, where a number that is missing is `0`. -/
theorem head_of_lt {xs ys : List Nat} (h : xs < ys ∨ xs = []) :
    xs.getD 0 0 < ys.getD 0 0 ∨ xs.getD 0 0 = ys.getD 0 0 ∧ (xs.tail < ys.tail ∨ xs.tail = []) := by
  cases xs with
  | nil =>
    rw [List.getD_nil]
    rcases Nat.eq_zero_or_pos (ys.getD 0 0) with hzero | hpos
    · exact Or.inr ⟨hzero.symm, Or.inr rfl⟩
    · exact Or.inl hpos
  | cons x xs =>
    have hlt : x :: xs < ys := h.resolve_right (List.cons_ne_nil x xs)
    cases ys with
    | nil => exact absurd hlt (List.not_lt_nil _)
    | cons y ys =>
      rcases List.cons_lt_cons_iff.mp hlt with hxy | ⟨hxy, hrest⟩
      · exact Or.inl hxy
      · exact Or.inr ⟨hxy, Or.inl hrest⟩

theorem getD_succ_tail (xs : List Nat) (n : Nat) : xs.getD (n + 1) 0 = xs.tail.getD n 0 := by
  cases xs with
  | nil => rfl
  | cons x xs => rfl

/-- Lists in order have their first three numbers in order. -/
theorem firstThree_le {xs ys : List Nat} (h : xs < ys) : firstThree xs ≤ firstThree ys := by
  simp only [firstThree, Prod.Lex.toLex_le_toLex, getD_succ_tail]
  rcases head_of_lt (Or.inl h) with hfirst | ⟨hfirst, h⟩
  · exact Or.inl hfirst
  refine Or.inr ⟨hfirst, ?_⟩
  rcases head_of_lt h with hsecond | ⟨hsecond, h⟩
  · exact Or.inl hsecond
  refine Or.inr ⟨hsecond, ?_⟩
  rcases head_of_lt h with hthird | ⟨hthird, -⟩
  · exact hthird.le
  · exact hthird.le

theorem rank_some {file : FileName} {v : String} (h : detectVersion lossy file = some v) :
    archivePickRank lossy file = toLex (1, firstThree (versionNumbers v)) := by
  simp only [archivePickRank, h]

theorem rank_none {file : FileName} (h : detectVersion lossy file = none) :
    archivePickRank lossy file = toLex (0, toLex (0, toLex (0, 0))) := by
  simp only [archivePickRank, h]

/-- A client archive has a version unless it is the nightly. -/
theorem version_of_release {file : FileName} (h : isClientArchive file = .ok true) (hrelease : ¬IsNightly file) :
    ∃ v, detectVersion lossy file = some v := by
  obtain ⟨name, hstem, hnightly | ⟨token, htoken⟩⟩ := client_name h
  · exact absurd ⟨name, hstem, hnightly⟩ hrelease
  · obtain ⟨core, -, hcore⟩ := detectVersion_release lossy hstem htoken
    exact ⟨_, hcore⟩

theorem no_version_of_nightly {file : FileName} (h : IsNightly file) : detectVersion lossy file = none := by
  obtain ⟨name, hstem, hnightly⟩ := h
  exact detectVersion_nightly lossy hstem hnightly

/-- No client archive ranks above the first of the highest rank. -/
theorem FirstOfHighest.rank_le {files : List FileName} {a b : FileName} (h : FirstOfHighest lossy files a) (hb : b ∈ files)
    (hclient : isClientArchive b = .ok true) : archivePickRank lossy b ≤ archivePickRank lossy a := by
  obtain ⟨-, before, after, rfl, hbefore, hafter⟩ := h
  rcases List.mem_append.mp hb with hb | hb
  · exact (hbefore b hb hclient).le
  · rcases List.mem_cons.mp hb with rfl | hb
    · exact le_rfl
    · exact hafter b hb hclient

/-- A version of the archive that is picked, where another has one; its first three numbers are as high. -/
theorem version_of_highest {files : List FileName} {a b : FileName} {w : String} (h : FirstOfHighest lossy files a) (hb : b ∈ files)
    (hclient : isClientArchive b = .ok true) (hw : detectVersion lossy b = some w) :
    ∃ v, detectVersion lossy a = some v ∧ firstThree (versionNumbers w) ≤ firstThree (versionNumbers v) := by
  have hle := FirstOfHighest.rank_le lossy h hb hclient
  rw [rank_some lossy hw] at hle
  cases hv : detectVersion lossy a with
  | none =>
    rw [rank_none lossy hv, Prod.Lex.toLex_le_toLex] at hle
    rcases hle with hle | ⟨hle, -⟩
    · exact absurd hle (Nat.not_lt_zero 1)
    · exact absurd hle Nat.one_ne_zero
  | some v =>
    rw [rank_some lossy hv, Prod.Lex.toLex_le_toLex] at hle
    rcases hle with hle | ⟨-, hle⟩
    · exact absurd hle (Nat.lt_irrefl 1)
    · exact ⟨v, rfl, hle⟩

end ArchiveAux

open ArchiveAux

/-- **Finding the newest archive.** For every listing: nothing panics and the newest client archive is found, a release before the
nightly, exactly when no name cuts a character and the first of the highest rank is the newest of those that agree with it in
three numbers. -/
theorem detectArchive_newest_iff (listing : Option (List (Option FileName))) :
    FindsNewest lossy listing ↔
      (∀ file ∈ listed listing, ¬CutsCharacter file) ∧ FirstIsNewest lossy (listed listing) := by
  constructor
  · rintro ⟨-, found, hdetect, hpicked, -⟩
    have hwhole := whole_of_detectArchive lossy hdetect
    refine ⟨hwhole, fun a b v w hfirst hb hclient hv hw _ => ?_⟩
    rw [detectArchive_of_whole lossy hwhole, (pickArchive_eq_some_iff lossy).mpr hfirst] at hdetect
    obtain ⟨v', hv', hnewer⟩ := (hpicked a (Except.ok.inj hdetect).symm).newest b hb hclient w hw
    obtain rfl := Option.some.inj (hv.symm.trans hv')
    exact hnewer
  · rintro ⟨hwhole, hnewest⟩
    refine ⟨fun file hfile => (isClientArchive_returns file).mpr (hwhole file hfile), _, detectArchive_of_whole lossy hwhole, ?_,
      pickArchive_eq_none lossy⟩
    intro a ha
    have hfirst := (pickArchive_eq_some_iff lossy).mp ha
    refine ⟨?_, hfirst.1, ?_, ?_⟩
    · obtain ⟨-, before, after, hsplit, -⟩ := hfirst
      rw [hsplit]
      exact List.mem_append_right before List.mem_cons_self
    · intro b hb hclient w hw
      obtain ⟨v, hv, hle⟩ := version_of_highest lossy hfirst hb hclient hw
      refine ⟨v, hv, eq_false_of_ne_true fun hnewer => ?_⟩
      have hge := firstThree_le (of_decide_eq_true hnewer)
      rw [hnewest a b v w hfirst hb hclient hv hw (le_antisymm hge hle)] at hnewer
      cases hnewer
    · intro hnightly b hb hclient
      by_contra hrelease
      obtain ⟨w, hw⟩ := version_of_release lossy hclient hrelease
      obtain ⟨v, hv, -⟩ := version_of_highest lossy hfirst hb hclient hw
      rw [no_version_of_nightly lossy hnightly] at hv
      cases hv

end

section

/-- A directory with these files. -/
def directoryOf (names : List String) : Option (List (Option FileName)) := some (names.map fun name => some (utf8 name))

/-- Two archives that differ in the fourth number: the older one is picked where it is listed first. A letter of two bytes in the
middle of some name: the search panics. -/
theorem older_archive_or_panic :
    ¬FindsNewest (fun _ => "") (directoryOf ["DoubleSlash-1.0.467.0-win64.7z", "DoubleSlash-1.0.467.1-win64.7z"]) ∧
      detectArchive (fun _ => "") (directoryOf ["aaaaaaaaaaaéaaaaaaaa.7z"]) = .error .insideCharacter := by
  refine ⟨fun h => ?_, by decide +kernel⟩
  obtain ⟨-, found, hdetect, hpicked, -⟩ := h
  have hfirst : pickArchive (fun _ => "") (listed (directoryOf ["DoubleSlash-1.0.467.0-win64.7z", "DoubleSlash-1.0.467.1-win64.7z"])) =
      some (utf8 "DoubleSlash-1.0.467.0-win64.7z") := by decide +kernel
  rw [detectArchive_of_whole _ (whole_of_detectArchive _ hdetect), hfirst] at hdetect
  obtain ⟨v, hv, hnewer⟩ := (hpicked _ (Except.ok.inj hdetect).symm).newest (utf8 "DoubleSlash-1.0.467.1-win64.7z")
    (by decide +kernel) (by decide +kernel) "1.0.467.1" (by decide +kernel)
  have hold : detectVersion (fun _ => "") (utf8 "DoubleSlash-1.0.467.0-win64.7z") = some "1.0.467.0" := by decide +kernel
  obtain rfl := Option.some.inj (hold.symm.trans hv)
  exact absurd hnewer (by decide)

end

end DoubleSlash.Installer
