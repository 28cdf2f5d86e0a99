import DoubleSlash.Installer.Install

/-!
# What a run of the installer does
-/

namespace DoubleSlash.Installer

open Assoc

/-! ## The state -/

namespace InstallState

theorem removeVersion_of_ne {st : InstallState} {version : String} (h : version ≠ st.currentVersion) :
    (st.removeVersion version).currentVersion = st.currentVersion := if_neg (Ne.symm h)

theorem mem_removeVersion {st : InstallState} {version : String} {v : InstalledVersion} (h : v ∈ (st.removeVersion version).versions) :
    v ∈ st.versions := (List.mem_filter.mp h).1

/-- A version that is added is the current one, in its directory. -/
theorem currentPath_addVersion (st : InstallState) (version path : String) (now : Nat) :
    (st.addVersion version path now).currentPath = some path := by
  unfold currentPath addVersion
  rw [List.find?_append, List.find?_eq_none.mpr, Option.none_or, List.find?_singleton, if_pos (beq_self_eq_true _)]
  · rfl
  · intro v hv
    have hne := (List.mem_filter.mp hv).2
    rw [bne_iff_ne] at hne
    rw [beq_iff_eq]
    exact hne

/-- Where the versions are in directories of their own, the current one is in its own. -/
theorem currentPath_eq {st : InstallState} {baseDir path : String} (h : ∀ v ∈ st.versions, v.path = versionDir baseDir v.version)
    (hpath : st.currentPath = some path) : path = versionDir baseDir st.currentVersion := by
  obtain ⟨v, hv, rfl⟩ := Option.map_eq_some_iff.mp hpath
  have hcurrent : v.version = st.currentVersion := by simpa using List.find?_some hv
  rw [h v (List.mem_of_find?_eq_some hv), hcurrent]

end InstallState

theorem versionDir_injective (baseDir : String) : Function.Injective (versionDir baseDir) := by
  intro v w h
  have hchars := congrArg String.toList h
  unfold versionDir at hchars
  rw [String.toList_append, String.toList_append, String.toList_append, String.toList_append] at hchars
  exact String.toList_inj.mp (List.append_cancel_left (List.append_cancel_left hchars))

/-! ## Directories -/

/-- What a directory has, another one has too. -/
structure Dir.Covers (d d' : Dir) : Prop where
  files : ∀ path bytes, d.files.lookup path = some bytes → d'.files.lookup path = some bytes
  folders : ∀ f ∈ d.folders, f ∈ d'.folders
  manifest : ∀ m, d.manifest = some m → d'.manifest = some m

theorem covers_empty (d : Dir) : Dir.empty.Covers d where
  files path bytes h := by
    have hnone : Dir.empty.files.lookup path = none := AList.lookup_empty path
    rw [hnone] at h
    cases h
  folders f h := absurd h List.not_mem_nil
  manifest m h := by cases h

theorem Dir.Covers.write {d d' : Dir} (h : d.Covers d') (e : Entry) : (d.write e).Covers (d'.write e) := by
  obtain ⟨name, path, content⟩ := e
  cases content with
  | none =>
    refine ⟨h.files, fun f hf => ?_, h.manifest⟩
    rcases List.mem_cons.mp hf with rfl | hf
    · exact List.mem_cons_self
    · exact List.mem_cons_of_mem _ (h.folders f hf)
  | some bytes =>
    unfold Dir.write
    dsimp only
    split
    · exact ⟨h.files, h.folders, fun m hm => hm⟩
    · refine ⟨fun p b hb => ?_, h.folders, h.manifest⟩
      by_cases hp : p = path
      · subst hp
        rw [AList.lookup_insert] at hb ⊢
        exact hb
      · rw [AList.lookup_insert_ne hp] at hb ⊢
        exact h.files p b hb

theorem extracts_none {archive : Archive} {limit : Option Nat} {d : Dir} (h : archive.extracts limit d = true) : limit = none := by
  simp only [Archive.extracts, Bool.and_eq_true] at h
  exact Option.isNone_iff_eq_none.mp h.1.1.1

theorem layout_of_extracts {archive : Archive} {limit : Option Nat} {d : Dir} (h : archive.extracts limit d = true) :
    validateBundleLayout (archive.unpack limit d) = true := by
  simp only [Archive.extracts, Bool.and_eq_true] at h
  exact h.2

/-- **What an archive has is in every directory it is extracted into.** -/
theorem covers_unpack {archive : Archive} {limit : Option Nat} {d : Dir} (h : archive.extracts limit d = true) :
    archive.files.Covers (archive.unpack limit d) := by
  obtain rfl := extracts_none h
  have hall : archive.entries.all (fun e => entryNameIsSafe e.name) = true := by
    simp only [Archive.extracts, Bool.and_eq_true] at h
    exact h.1.2
  have hwhole : archive.unpacked none = archive.entries :=
    List.takeWhile_eq_self_iff.mpr fun e he => List.all_eq_true.mp hall e he
  have hfold : ∀ (entries : List Entry) (d d' : Dir), d.Covers d' → (entries.foldl Dir.write d).Covers (entries.foldl Dir.write d') := by
    intro entries
    induction entries with
    | nil => exact fun _ _ h => h
    | cons e entries ih => exact fun d d' h => ih _ _ (h.write e)
  unfold Archive.files Archive.unpack
  rw [hwhole]
  exact hfold _ _ _ (covers_empty d)

/-- A bundle has an executable. -/
theorem exists_findExe {d : Dir} (h : validateBundleLayout d = true) : ∃ exe, findExe d = some exe := by
  simp only [validateBundleLayout, Bool.and_eq_true] at h
  have hfile := h.1.1
  have hfound : ∃ exe ∈ [WINDOWS_EXE, "DoubleSlash/DoubleSlash.exe"], d.holds exe = true := by
    unfold bundleRoot at hfile
    split at hfile
    · refine ⟨_, List.mem_cons_of_mem _ (List.mem_singleton.mpr rfl), ?_⟩
      unfold Dir.holds
      rw [show ("DoubleSlash/DoubleSlash.exe" : String) = "DoubleSlash/" ++ WINDOWS_EXE by decide, hfile, Bool.true_or]
    · refine ⟨_, List.mem_cons_self, ?_⟩
      rw [String.empty_append] at hfile
      unfold Dir.holds
      rw [hfile, Bool.true_or]
  obtain ⟨exe, hmem, hexe⟩ := hfound
  exact Option.isSome_iff_exists.mp (List.find?_isSome.mpr ⟨exe, hmem, hexe⟩)

/-- **The manifest of a silent installation agrees with the executable.** -/
theorem launchAccepts_written (digests : Digests) {d : Dir} (h : validateBundleLayout d = true) (version : String) :
    launchAccepts digests { d with manifest := some (.written { version, files := d.hashes digests }) } = true := by
  obtain ⟨exe, hexe⟩ := exists_findExe h
  have hexe' : findExe { d with manifest := some (.written { version, files := d.hashes digests }) } = some exe := hexe
  unfold launchAccepts
  rw [hexe']
  dsimp only [Option.bind_some, readManifest, Dir.hashes]
  cases hfile : d.files.lookup exe with
  | none => rfl
  | some bytes =>
    rw [Option.map_some]
    exact beq_self_eq_true _

/-! ## Runs -/

namespace Setup

theorem forgetOld_spec (st : InstallState) :
    (forgetOld st).currentVersion = st.currentVersion ∧ ∀ v ∈ (forgetOld st).versions, v ∈ st.versions := by
  have hfold : ∀ (old : List String) (st : InstallState), (∀ v ∈ old, v ≠ st.currentVersion) →
      (old.foldl InstallState.removeVersion st).currentVersion = st.currentVersion ∧
        ∀ v ∈ (old.foldl InstallState.removeVersion st).versions, v ∈ st.versions := by
    intro old
    induction old with
    | nil => exact fun st _ => ⟨rfl, fun _ h => h⟩
    | cons version old ih =>
      intro st hold
      have hcurrent := InstallState.removeVersion_of_ne (hold version List.mem_cons_self)
      obtain ⟨hsame, hmem⟩ := ih (st.removeVersion version) fun v hv => hcurrent ▸ hold v (List.mem_cons_of_mem _ hv)
      exact ⟨hsame.trans hcurrent, fun v hv => InstallState.mem_removeVersion (hmem v hv)⟩
  refine hfold _ st fun version hversion => ?_
  obtain ⟨v, hv, rfl⟩ := List.mem_map.mp hversion
  exact bne_iff_ne.mp (List.mem_filter.mp hv).2

/-- The removal of the old versions leaves the directories of others alone. -/
theorem lookup_removeOld {faults : Faults} {st : InstallState} {dirs : HashMap String Dir} {path : String}
    (h : ∀ o ∈ st.oldVersions, o.path ≠ path) : (removeOld faults st dirs).lookup path = dirs.lookup path := by
  have hfold : ∀ (paths : List String) (dirs : HashMap String Dir), path ∉ paths →
      (paths.foldl (removeDir faults) dirs).lookup path = dirs.lookup path := by
    intro paths
    induction paths with
    | nil => exact fun _ _ => rfl
    | cons p paths ih =>
      intro dirs hnot
      have hne : path ≠ p := fun heq => hnot (List.mem_cons.mpr (Or.inl heq))
      rw [List.foldl_cons, ih _ fun hmem => hnot (List.mem_cons_of_mem _ hmem)]
      unfold removeDir
      split
      · rfl
      · split
        · exact AList.lookup_erase_ne hne
        · exact AList.lookup_insert_ne hne
  refine hfold _ dirs fun hmem => ?_
  obtain ⟨o, ho, hpath⟩ := List.mem_map.mp hmem
  exact h o ho hpath

/-- The end of a run, by how writing the state ends and by whether it fails later. -/
theorem record_cases {faults : Faults} {disk disk' : InstallDisk} {st : InstallState} {version : String} {archive : Archive}
    {launches : Bool} {result : Result} (h : record faults disk st version archive launches = (disk', result)) :
    disk'.dirs = disk.dirs ∧
      ((faults.stateWrite = .written ∧ faults.later = false ∧ launches = true ∧ disk'.stateFile = .state st ∧
          result = .installed version archive) ∨
        (faults.stateWrite = .written ∧ (faults.later = true ∨ launches = false) ∧ disk'.stateFile = .state st ∧ result = .failed) ∨
        (faults.stateWrite = .refused ∧ disk'.stateFile = disk.stateFile ∧ result = .failed) ∨
        (faults.stateWrite = .torn ∧ disk'.stateFile = .unreadable ∧ result = .failed)) := by
  unfold record writeState at h
  cases hwrite : faults.stateWrite with
  | written =>
    rw [hwrite] at h
    obtain ⟨rfl, rfl⟩ := Prod.mk.inj h
    refine ⟨rfl, ?_⟩
    cases hlater : faults.later with
    | true => exact Or.inr (Or.inl ⟨rfl, Or.inl rfl, rfl, rfl⟩)
    | false =>
      cases launches with
      | true => exact Or.inl ⟨rfl, rfl, rfl, rfl, rfl⟩
      | false => exact Or.inr (Or.inl ⟨rfl, Or.inr rfl, rfl, rfl⟩)
  | refused =>
    rw [hwrite] at h
    obtain ⟨rfl, rfl⟩ := Prod.mk.inj h
    exact ⟨rfl, Or.inr (Or.inr (Or.inl ⟨rfl, rfl, rfl⟩))⟩
  | torn =>
    rw [hwrite] at h
    obtain ⟨rfl, rfl⟩ := Prod.mk.inj h
    exact ⟨rfl, Or.inr (Or.inr (Or.inr ⟨rfl, rfl, rfl⟩))⟩

end Setup

end DoubleSlash.Installer
