import DoubleSlash.Lemmas.Installs
import DoubleSlash.Lib.Run

/-!
# Installations that can be launched

What a run that succeeds leaves, and what a run that fails leaves alone, over all sequences of runs on one base directory.
-/

namespace DoubleSlash.Installer

open Assoc Run Setup

section

variable (digests : Digests)

/-- The version is recorded as the current one, its directory has what the archive has, and the check before the start accepts it. -/
def Launches (disk : InstallDisk) (version : String) (archive : Archive) : Prop :=
  ∃ st path d, disk.stateFile = .state st ∧ st.currentVersion = version ∧ st.currentPath = some path ∧
    disk.dirs.lookup path = some d ∧ archive.files.Covers d ∧ launchAccepts digests d = true

/-- What was current is current, its directory as it was. -/
def Intact (before after : InstallDisk) : Prop :=
  ∀ st path, before.stateFile = .state st → st.currentPath = some path →
    ∃ st', after.stateFile = .state st' ∧ st'.currentVersion = st.currentVersion ∧ st'.currentPath = some path ∧
      after.dirs.lookup path = before.dirs.lookup path

/-! ## The condition -/

/-- The version is the current one. -/
def InPlace (disk : InstallDisk) (version : String) : Prop := ∃ st, disk.stateFile = .state st ∧ st.currentVersion = version

/-- The version is not among the old ones. -/
def Unlisted (disk : InstallDisk) (version : String) : Prop :=
  ∀ st, readState disk.stateFile = some st → ∀ o ∈ st.oldVersions, o.version ≠ version

/-- A run that comes to write the state file writes it and nothing fails later, the version not being listed as old and the manifest
agreeing; or it is refused, and does not install the current version again. -/
def Finishes (disk : InstallDisk) (version : String) (faults : Faults) (agrees : Prop) : Prop :=
  (faults.stateWrite = .written ∧ faults.later = false ∧ Unlisted disk version ∧ agrees) ∨
    (faults.stateWrite = .refused ∧ ¬InPlace disk version)

/-- A run that fails to extract has written nothing into the directory of the current version. -/
def Spares (disk : InstallDisk) (version : String) (archive : Archive) (limit : Option Nat) : Prop :=
  InPlace disk version → archive.unpacked limit = []

variable {ν : Type} (setup : Setup ν) (decode : List UInt8 → Archive) (parseManifest : List UInt8 → Option InstallManifest)
  (productVersion baseDir : String)

/-- The condition on a run. The manifest agrees: for a silent installation, when the archive has no `manifest.json`; for an update,
when the one that is there after unpacking, if it lists the executable, has its hash. -/
def Careful (disk : InstallDisk) : Invocation → Prop
  | .silent stem archive _ faults =>
    let version := (detectVersionFromArchive stem).getD productVersion
    let d := (disk.dirs.lookup (versionDir baseDir version)).getD Dir.empty
    (archive.extracts faults.unpacking d = false → Spares disk version archive faults.unpacking) ∧
      (archive.extracts faults.unpacking d = true →
        (faults.manifestWrite = true → ¬InPlace disk version) ∧
          (faults.manifestWrite = false → Finishes disk version faults (archive.files.manifest = none)))
  | .update server _ _ faults =>
    ∀ download, setup.prepareUpdate server disk.stateFile = .extract download →
      let version := download.release.version
      let archive := decode download.archive
      let d := (disk.dirs.lookup (versionDir baseDir version)).getD Dir.empty
      (archive.extracts faults.unpacking d = false → Spares disk version archive faults.unpacking) ∧
        (archive.extracts faults.unpacking d = true →
          Finishes disk version faults (launchAccepts (setup.digests parseManifest) (archive.unpack none d) = true))

end

namespace InstallsAux

variable {digests : Digests} {baseDir : String}

/-- The versions are in directories of their own. -/
def Placed (baseDir : String) (st : InstallState) : Prop := ∀ v ∈ st.versions, v.path = versionDir baseDir v.version

/-- Nothing has been installed, or what was installed last is launched. -/
def Sound (digests : Digests) (baseDir : String) (s : Installation) : Prop :=
  (s.disk.stateFile = .absent ∧ s.last = none) ∨
    ∃ st version archive, s.disk.stateFile = .state st ∧ s.last = some (version, archive) ∧ Placed baseDir st ∧
      Launches digests s.disk version archive

theorem intact_refl (disk : InstallDisk) : Intact disk disk := fun st _ hst hpath => ⟨st, hst, rfl, hpath, rfl⟩

/-- What was launched is launched after a run that left it alone. -/
theorem launches_of_intact {before after : InstallDisk} {version : String} {archive : Archive} (h : Intact before after)
    (hlaunches : Launches digests before version archive) : Launches digests after version archive := by
  obtain ⟨st, path, d, hst, hcurrent, hpath, hd, hcovers, haccepts⟩ := hlaunches
  obtain ⟨st', hst', hsame, hpath', hdir⟩ := h st path hst hpath
  exact ⟨st', path, d, hst', hsame.trans hcurrent, hpath', hdir.trans hd, hcovers, haccepts⟩

/-- The path of the current version of a sound base directory, and what is there. -/
theorem current_of_sound {s : Installation} (h : Sound digests baseDir s) {st : InstallState} {path : String}
    (hst : s.disk.stateFile = .state st) (hpath : st.currentPath = some path) :
    path = versionDir baseDir st.currentVersion ∧ ∃ d, s.disk.dirs.lookup path = some d := by
  rcases h with ⟨habsent, -⟩ | ⟨st', version, archive, hst', -, hplaced, hlaunches⟩
  · rw [habsent] at hst
    cases hst
  · obtain rfl := StateFile.state.inj (hst.symm.trans hst')
    obtain ⟨st', path', d, hst', -, hpath', hd, -⟩ := hlaunches
    obtain rfl := StateFile.state.inj (hst.symm.trans hst')
    obtain rfl := Option.some.inj (hpath.symm.trans hpath')
    exact ⟨InstallState.currentPath_eq hplaced hpath, d, hd⟩

/-- A run that only wrote to one directory leaves what was current alone, unless this is the directory and it was changed. -/
theorem intact_insert {s : Installation} (h : Sound digests baseDir s) {version : String} {d : Dir}
    (hd : InPlace s.disk version → d = (s.disk.dirs.lookup (versionDir baseDir version)).getD Dir.empty) :
    Intact s.disk { s.disk with dirs := s.disk.dirs.insert (versionDir baseDir version) d } := by
  intro st path hst hpath
  obtain ⟨rfl, d', hd'⟩ := current_of_sound h hst hpath
  refine ⟨st, hst, rfl, hpath, ?_⟩
  by_cases hversion : st.currentVersion = version
  · rw [← hversion, AList.lookup_insert, hd', hd ⟨st, hst, hversion⟩, ← hversion, hd', Option.getD_some]
  · exact AList.lookup_insert_ne fun heq => hversion (versionDir_injective baseDir heq)

/-- The state that is recorded. -/
structure Recorded (baseDir : String) (st st' : InstallState) (version : String) : Prop where
  current : st'.currentVersion = version
  path : st'.currentPath = some (versionDir baseDir version)
  placed : Placed baseDir st → Placed baseDir st'

theorem recorded (st : InstallState) (version : String) (now : Nat) (nightly : Bool) :
    Recorded baseDir st (((forgetOld st).addVersion version (versionDir baseDir version) now).setChannel nightly) version where
  current := rfl
  path := InstallState.currentPath_addVersion _ _ _ _
  placed hplaced v hv := by
    rcases List.mem_append.mp hv with hv | hv
    · exact hplaced v ((forgetOld_spec st).2 v (List.mem_filter.mp hv).1)
    · obtain rfl := List.mem_singleton.mp hv
      rfl

theorem recorded_update {st st' : InstallState} {version : String} (archiveSha256 : String) (h : Recorded baseDir st st' version) :
    Recorded baseDir st { st' with archiveSha256 } version := ⟨h.current, h.path, h.placed⟩

theorem readable_of_sound {s : Installation} (h : Sound digests baseDir s) : readState s.disk.stateFile ≠ none := by
  rcases h with ⟨habsent, -⟩ | ⟨st, version, archive, hst, -⟩
  · rw [habsent]
    exact Option.some_ne_none _
  · rw [hst]
    exact Option.some_ne_none _

theorem placed_of_sound {s : Installation} (h : Sound digests baseDir s) {st : InstallState} (hst : readState s.disk.stateFile = some st) :
    Placed baseDir st := by
  rcases h with ⟨habsent, -⟩ | ⟨st', version, archive, hst', -, hplaced, -⟩
  · rw [habsent] at hst
    obtain rfl := Option.some.inj hst
    exact fun v hv => absurd hv List.not_mem_nil
  · rw [hst'] at hst
    obtain rfl := Option.some.inj hst
    exact hplaced

/-- An old version is not the current one. -/
theorem old_path_ne {st : InstallState} (hplaced : Placed baseDir st) {version : String} (h : ∀ o ∈ st.oldVersions, o.version ≠ version) :
    ∀ o ∈ st.oldVersions, o.path ≠ versionDir baseDir version := by
  intro o ho heq
  rw [hplaced o (List.mem_filter.mp ho).1] at heq
  exact h o ho (versionDir_injective baseDir heq)

/-- **The end of a run.** It installs what it extracted, or leaves what was current alone. -/
theorem record_keeps {s : Installation} (h : Sound digests baseDir s) {st st' : InstallState} {version : String} {archive : Archive}
    {faults : Faults} {d : Dir} {launches : Bool} {disk' : InstallDisk} {result : Result}
    (hst : readState s.disk.stateFile = some st) (hrecorded : Recorded baseDir st st' version) {accepted : Prop}
    (hfinishes : Finishes s.disk version faults accepted)
    (hinstalled : accepted → archive.files.Covers d ∧ launchAccepts digests d = true)
    (hlaunches : accepted → (removeOld faults st (s.disk.dirs.insert (versionDir baseDir version) d)).lookup (versionDir baseDir version) = some d →
      launches = true)
    (hrun : record faults
      { s.disk with dirs := removeOld faults st (s.disk.dirs.insert (versionDir baseDir version) d) } st' version archive launches =
        (disk', result)) :
    (result = .installed version archive ∧ disk'.stateFile = .state st' ∧ Placed baseDir st' ∧ Launches digests disk' version archive) ∨
      (result = .failed ∧ disk'.stateFile = s.disk.stateFile ∧ Intact s.disk disk') := by
  have hplaced := placed_of_sound h hst
  obtain ⟨hdirs, hcases⟩ := record_cases hrun
  have hdirs : disk'.dirs = removeOld faults st (s.disk.dirs.insert (versionDir baseDir version) d) := hdirs
  rcases hfinishes with ⟨hwritten, hlater, hunlisted, haccepted⟩ | ⟨hrefused, hplace⟩
  · have hkept : disk'.dirs.lookup (versionDir baseDir version) = some d := by
      rw [hdirs]
      exact (lookup_removeOld (old_path_ne hplaced (hunlisted st hst))).trans (AList.lookup_insert _)
    have hlaunch := hlaunches haccepted (by rw [← hdirs]; exact hkept)
    obtain ⟨hcovers, haccepts⟩ := hinstalled haccepted
    rcases hcases with ⟨-, -, -, hfile, hresult⟩ | ⟨-, hbad, -⟩ | ⟨hother, -⟩ | ⟨hother, -⟩
    · exact Or.inl ⟨hresult, hfile, hrecorded.placed hplaced,
        ⟨st', _, d, hfile, hrecorded.current, hrecorded.path, hkept, hcovers, haccepts⟩⟩
    · rcases hbad with hbad | hbad
      · rw [hlater] at hbad
        cases hbad
      · rw [hlaunch] at hbad
        cases hbad
    · rw [hwritten] at hother
      cases hother
    · rw [hwritten] at hother
      cases hother
  · rcases hcases with ⟨hother, -⟩ | ⟨hother, -⟩ | ⟨-, hfile, hresult⟩ | ⟨hother, -⟩
    · rw [hrefused] at hother
      cases hother
    · rw [hrefused] at hother
      cases hother
    · refine Or.inr ⟨hresult, hfile, fun st₀ path hst₀ hpath => ⟨st₀, hfile.trans hst₀, rfl, hpath, ?_⟩⟩
      have hsame : st = st₀ := by
        rw [hst₀] at hst
        exact (Option.some.inj hst).symm
      subst hsame
      obtain ⟨rfl, -⟩ := current_of_sound h hst₀ hpath
      have hne : st.currentVersion ≠ version := fun heq => hplace ⟨st, hst₀, heq⟩
      have hold : ∀ o ∈ st.oldVersions, o.version ≠ st.currentVersion := fun o ho => bne_iff_ne.mp (List.mem_filter.mp ho).2
      rw [hdirs]
      exact (lookup_removeOld (old_path_ne hplaced hold)).trans
        (AList.lookup_insert_ne fun heq => hne (versionDir_injective baseDir heq))
    · rw [hrefused] at hother
      cases hother

/-! ## One run -/

/-- What a run does that is careful: it installs, or leaves the state file and what was current alone. -/
def Keeps (digests : Digests) (baseDir : String) (before after : InstallDisk) (result : Result) : Prop :=
  (∃ version archive st, result = .installed version archive ∧ after.stateFile = .state st ∧ Placed baseDir st ∧
      Launches digests after version archive) ∨
    (result = .failed ∧ after.stateFile = before.stateFile ∧ Intact before after) ∨ (result = .nothingToDo ∧ after = before)

variable {ν : Type} {setup : Setup ν} {decode : List UInt8 → Archive} {parseManifest : List UInt8 → Option InstallManifest}
  {productVersion : String}

theorem keeps_of_record {digests : Digests} {before after : InstallDisk} {st' : InstallState} {version : String} {archive : Archive}
    {result : Result}
    (h : (result = .installed version archive ∧ after.stateFile = .state st' ∧ Placed baseDir st' ∧ Launches digests after version archive) ∨
      (result = .failed ∧ after.stateFile = before.stateFile ∧ Intact before after)) : Keeps digests baseDir before after result := by
  rcases h with ⟨hresult, hfile, hplaced, hlaunches⟩ | hfailed
  · exact Or.inl ⟨version, archive, st', hresult, hfile, hplaced, hlaunches⟩
  · exact Or.inr (Or.inl hfailed)

/-- A failed extraction that spared the directory of the current version. -/
theorem keeps_unpack {s : Installation} (h : Sound digests baseDir s) {version : String} {archive : Archive} {limit : Option Nat}
    (hspares : Spares s.disk version archive limit) :
    let d := archive.unpack limit ((s.disk.dirs.lookup (versionDir baseDir version)).getD Dir.empty)
    Keeps digests baseDir s.disk { s.disk with dirs := s.disk.dirs.insert (versionDir baseDir version) d } .failed := by
  refine Or.inr (Or.inl ⟨rfl, rfl, intact_insert h fun hplace => ?_⟩)
  unfold Archive.unpack
  rw [hspares hplace, List.foldl_nil]

/-- A run that has nothing to do, or fails at what it does instead. -/
theorem keeps_idle (disk : InstallDisk) (done : Bool) : Keeps digests baseDir disk disk (if done then .nothingToDo else .failed) := by
  cases done with
  | true => exact Or.inr (Or.inr ⟨rfl, rfl⟩)
  | false => exact Or.inr (Or.inl ⟨rfl, rfl, intact_refl disk⟩)

theorem silent_keeps {s : Installation} (h : Sound (setup.digests parseManifest) baseDir s) {stem : String} {archive : Archive} {now : Nat}
    {faults : Faults} {disk' : InstallDisk} {result : Result}
    (hcareful : Careful setup decode parseManifest productVersion baseDir s.disk (.silent stem archive now faults))
    (hrun : setup.runSilent parseManifest productVersion baseDir stem archive now faults s.disk = (disk', result)) :
    Keeps (setup.digests parseManifest) baseDir s.disk disk' result := by
  obtain ⟨hspares, hextracted⟩ := hcareful
  unfold runSilent at hrun
  dsimp only at hrun hspares hextracted
  generalize (detectVersionFromArchive stem).getD productVersion = version at hrun hspares hextracted
  split at hrun
  · rename_i hfails
    obtain ⟨rfl, rfl⟩ := Prod.mk.inj hrun
    exact keeps_unpack h (hspares hfails)
  · rename_i hextracts
    have hextracts := Bool.eq_true_of_not_eq_false hextracts
    obtain ⟨hmanifest, hfinishes⟩ := hextracted hextracts
    split at hrun
    · rename_i hfails
      obtain ⟨rfl, rfl⟩ := Prod.mk.inj hrun
      refine Or.inr (Or.inl ⟨rfl, rfl, ?_⟩)
      rw [AList.insert_insert]
      exact intact_insert h fun hplace => absurd hplace (hmanifest hfails)
    · rename_i hwrites
      have hfinishes := hfinishes (Bool.eq_false_of_not_eq_true hwrites)
      split at hrun
      · rename_i hunreadable
        exact absurd hunreadable (readable_of_sound h)
      · rename_i st hst
        rw [AList.insert_insert] at hrun
        refine keeps_of_record (record_keeps h hst (recorded st version now _) hfinishes (fun hnone => ⟨?_, ?_⟩) (fun _ _ => rfl) hrun)
        · have hcovers := covers_unpack hextracts
          exact ⟨hcovers.files, hcovers.folders, fun m hm => by rw [hnone] at hm; cases hm⟩
        · exact launchAccepts_written _ (layout_of_extracts hextracts) productVersion

theorem update_keeps {s : Installation} (h : Sound (setup.digests parseManifest) baseDir s) {server : Server} {options : Options} {now : Nat}
    {faults : Faults} {disk' : InstallDisk} {result : Result}
    (hcareful : Careful setup decode parseManifest productVersion baseDir s.disk (.update server options now faults))
    (hrun : setup.runUpdateAndRelaunch decode parseManifest baseDir server options now faults s.disk = (disk', result)) :
    Keeps (setup.digests parseManifest) baseDir s.disk disk' result := by
  unfold runUpdateAndRelaunch at hrun
  split at hrun
  · rename_i hunreadable
    exact absurd hunreadable (readable_of_sound h)
  · rename_i st hst
    split at hrun
    · obtain ⟨rfl, rfl⟩ := Prod.mk.inj hrun
      exact Or.inr (Or.inl ⟨rfl, rfl, intact_refl _⟩)
    · obtain ⟨rfl, rfl⟩ := Prod.mk.inj hrun
      exact keeps_idle s.disk _
    · rename_i download hprepared
      obtain ⟨hspares, hextracted⟩ := hcareful download hprepared
      dsimp only at hrun hspares hextracted
      split at hrun
      · rename_i hfails
        obtain ⟨rfl, rfl⟩ := Prod.mk.inj hrun
        exact keeps_unpack h (hspares hfails)
      · rename_i hextracts
        have hextracts := Bool.eq_true_of_not_eq_false hextracts
        have hnone := extracts_none hextracts
        refine keeps_of_record (record_keeps h hst (recorded_update _ (recorded st download.release.version now _)) (hextracted hextracts)
          (fun haccepts => ⟨covers_unpack hextracts, by rw [hnone]; exact haccepts⟩) (fun haccepts hkept => ?_) hrun)
        unfold launches
        rw [hkept, Option.map_some, Option.getD_some, hnone, haccepts, Bool.or_true]

/-! ## All runs -/

/-- **What one run keeps.** -/
theorem step_keeps {s s' : Installation} (h : Sound (setup.digests parseManifest) baseDir s) {run : Invocation}
    (hcareful : Careful setup decode parseManifest productVersion baseDir s.disk run)
    (hstep : setup.step decode parseManifest productVersion baseDir s run = some s') :
    Sound (setup.digests parseManifest) baseDir s' ∧ Keeps (setup.digests parseManifest) baseDir s.disk s'.disk
      (setup.invoke decode parseManifest productVersion baseDir s.disk run).2 := by
  have hkeeps : Keeps (setup.digests parseManifest) baseDir s.disk (setup.invoke decode parseManifest productVersion baseDir s.disk run).1
      (setup.invoke decode parseManifest productVersion baseDir s.disk run).2 := by
    cases run with
    | silent stem archive now faults => exact silent_keeps h hcareful rfl
    | update server options now faults => exact update_keeps h hcareful rfl
  unfold step at hstep
  revert hstep hkeeps
  generalize setup.invoke decode parseManifest productVersion baseDir s.disk run = outcome
  obtain ⟨disk, result⟩ := outcome
  intro hstep hkeeps
  have hkeeps : Keeps (setup.digests parseManifest) baseDir s.disk disk result := hkeeps
  rcases hkeeps with ⟨version, archive, st, rfl, hfile, hplaced, hlaunches⟩ | ⟨rfl, hfile, hintact⟩ | ⟨rfl, hsame⟩
  · obtain rfl := Option.some.inj hstep
    exact ⟨Or.inr ⟨st, version, archive, hfile, rfl, hplaced, hlaunches⟩, Or.inl ⟨version, archive, st, rfl, hfile, hplaced, hlaunches⟩⟩
  · obtain rfl := Option.some.inj hstep
    refine ⟨?_, Or.inr (Or.inl ⟨rfl, hfile, hintact⟩)⟩
    rcases h with ⟨habsent, hlast⟩ | ⟨st, version, archive, hst, hlast, hplaced, hlaunches⟩
    · exact Or.inl ⟨hfile.trans habsent, hlast⟩
    · exact Or.inr ⟨st, version, archive, hfile.trans hst, hlast, hplaced, launches_of_intact hintact hlaunches⟩
  · have hsame : disk = s.disk := hsame
    subst hsame
    obtain rfl := Option.some.inj hstep
    exact ⟨h, Or.inr (Or.inr ⟨rfl, rfl⟩)⟩

theorem sound_fresh : Sound digests baseDir Installation.fresh := Or.inl ⟨rfl, rfl⟩

end InstallsAux

open InstallsAux

/-- **What succeeds can be launched, what fails changes nothing that could.** In every sequence of careful runs on a base directory,
after a run that installed, the version is recorded as current, its directory has the files of the archive and passes the check before
the start; a run that found nothing to do changed nothing; after a run that failed, what was current is current, its directory
as it was; and after every run, what was installed last can be launched. -/
theorem careful_runs_launch {ν : Type} (setup : Setup ν) (decode : List UInt8 → Archive)
    (parseManifest : List UInt8 → Option InstallManifest) (productVersion baseDir : String) (runs : List Invocation)
    (hcareful : Meets (setup.step decode parseManifest productVersion baseDir)
      (fun s run => Careful setup decode parseManifest productVersion baseDir s.disk run) Installation.fresh runs) :
    ∀ pre run post s s', runs = pre ++ run :: post →
      Run.run (setup.step decode parseManifest productVersion baseDir) Installation.fresh pre = some s →
      setup.step decode parseManifest productVersion baseDir s run = some s' →
      (∀ version archive, (setup.invoke decode parseManifest productVersion baseDir s.disk run).2 = .installed version archive →
        Launches (setup.digests parseManifest) s'.disk version archive) ∧
      ((setup.invoke decode parseManifest productVersion baseDir s.disk run).2 = .nothingToDo → s'.disk = s.disk) ∧
      ((setup.invoke decode parseManifest productVersion baseDir s.disk run).2 = .failed → Intact s.disk s'.disk) ∧
      ∀ version archive, s'.last = some (version, archive) → Launches (setup.digests parseManifest) s'.disk version archive := by
  intro pre run post s s' hruns hpre hstep
  subst hruns
  obtain ⟨hsound, hcareful⟩ := meets_at (Sound (setup.digests parseManifest) baseDir)
    (fun _ _ _ hs hc hstep => (step_keeps hs hc hstep).1) sound_fresh hcareful hpre
  obtain ⟨hsound', hkeeps⟩ := step_keeps hsound hcareful hstep
  refine ⟨fun version archive hresult => ?_, fun hresult => ?_, fun hresult => ?_, fun version archive hlast => ?_⟩
  · rcases hkeeps with ⟨version', archive', st, hresult', -, -, hlaunches⟩ | ⟨hresult', -⟩ | ⟨hresult', -⟩
    · obtain ⟨rfl, rfl⟩ := Result.installed.inj (hresult.symm.trans hresult')
      exact hlaunches
    all_goals cases hresult.symm.trans hresult'
  · rcases hkeeps with ⟨version', archive', st, hresult', -⟩ | ⟨hresult', -⟩ | ⟨-, hsame⟩
    · cases hresult.symm.trans hresult'
    · cases hresult.symm.trans hresult'
    · exact hsame
  · rcases hkeeps with ⟨version', archive', st, hresult', -⟩ | ⟨-, -, hintact⟩ | ⟨hresult', -⟩
    · cases hresult.symm.trans hresult'
    · exact hintact
    · cases hresult.symm.trans hresult'
  · rcases hsound' with ⟨-, hnone⟩ | ⟨st, version', archive', -, hlast', -, hlaunches⟩
    · rw [hnone] at hlast
      cases hlast
    · obtain ⟨rfl, rfl⟩ := Prod.mk.inj (Option.some.inj (hlast.symm.trans hlast'))
      exact hlaunches

/-! ## Runs one after the other -/

namespace InstallsAux

/-- A bundle whose executable has this content. -/
def bundle (exe : List UInt8) : Archive where
  entries :=
    { name := "DoubleSlash.exe", path := "DoubleSlash.exe", content := some exe } ::
      requiredFolders.map fun folder => { name := folder, path := folder, content := none }
  damaged := false

def noFaults : Faults := { unpacking := none, manifestWrite := false, left := fun _ => none, stateWrite := .written, later := false }

/-- An installer that reads no manifests. -/
def plainSetup : Setup Unit where
  format := { syntaxTree := fun _ => none, number := fun _ => none, asF64 := fun _ => 0, write := fun _ => .null }
  signing := { sha256 := id, verify := fun _ _ _ => false }
  platform := .windows
  nightlyInstaller := false

def installs (stem : String) (exe : List UInt8) : Invocation := .silent stem (bundle exe) 0 noFaults

def plainStep : Installation → Invocation → Option Installation :=
  plainSetup.step (fun _ => bundle []) (fun _ => none) "1.0.0" "/base"

/-- The state after runs. -/
def after (runs : List Invocation) : Installation := (Run.run plainStep Installation.fresh runs).getD Installation.fresh

theorem run_after (runs : List Invocation) : Run.run plainStep Installation.fresh runs = some (after runs) := by
  have hsome : ∀ s run, ∃ s', plainStep s run = some s' := by
    intro s run
    unfold plainStep step
    dsimp only
    split
    · exact ⟨_, rfl⟩
    · exact ⟨_, rfl⟩
  have hrun : ∀ s, ∃ s', Run.run plainStep s runs = some s' := by
    induction runs with
    | nil => exact fun s => ⟨s, rfl⟩
    | cons run runs ih =>
      intro s
      obtain ⟨s₁, h₁⟩ := hsome s run
      rw [run_cons, h₁]
      exact ih s₁
  obtain ⟨s', hs'⟩ := hrun Installation.fresh
  unfold after
  rw [hs', Option.getD_some]

theorem step_after (runs : List Invocation) (run : Invocation) : plainStep (after runs) run = some (after (runs ++ [run])) := by
  obtain ⟨s, hs, hstep⟩ := run_concat (run_after (runs ++ [run]))
  obtain rfl := Option.some.inj (hs.symm.trans (run_after runs))
  exact hstep

/-- The directory of the version recorded as current. -/
def currentDir (disk : InstallDisk) : Option Dir :=
  match disk.stateFile with
  | .state st => st.currentPath.bind fun path => disk.dirs.lookup path
  | _ => none

theorem currentDir_of_launches {digests : Digests} {disk : InstallDisk} {version : String} {archive : Archive}
    (h : Launches digests disk version archive) : (currentDir disk).isSome = true := by
  obtain ⟨st, path, d, hst, -, hpath, hd, -⟩ := h
  unfold currentDir
  rw [hst]
  dsimp only
  rw [hpath, Option.bind_some, hd]
  rfl

def isInstalled : Result → Bool
  | .installed _ _ => true
  | _ => false

theorem exists_of_isInstalled {result : Result} (h : isInstalled result = true) : ∃ version archive, result = .installed version archive := by
  cases result with
  | installed version archive => exact ⟨version, archive, rfl⟩
  | nothingToDo => cases h
  | failed => cases h

def plainInvoke (disk : InstallDisk) (run : Invocation) : InstallDisk × Result :=
  plainSetup.invoke (fun _ => bundle []) (fun _ => none) "1.0.0" "/base" disk run

/-- A silent installation without faults is careful where its version is not listed as old. -/
theorem careful_installs {disk : InstallDisk} {stem : String} {exe : List UInt8}
    (hextracts : (bundle exe).extracts none
      ((disk.dirs.lookup (versionDir "/base" ((detectVersionFromArchive stem).getD "1.0.0"))).getD Dir.empty) = true)
    (hmanifest : (bundle exe).files.manifest.isNone = true)
    (hunlisted : ((readState disk.stateFile).all fun st =>
      st.oldVersions.all fun o => o.version != (detectVersionFromArchive stem).getD "1.0.0") = true) :
    Careful plainSetup (fun _ => bundle []) (fun _ => none) "1.0.0" "/base" disk (installs stem exe) := by
  refine ⟨fun hfails => ?_, fun _ => ⟨fun hfails => absurd hfails Bool.false_ne_true, fun _ => Or.inl ⟨rfl, rfl, ?_, ?_⟩⟩⟩
  · have hfails : (bundle exe).extracts none
        ((disk.dirs.lookup (versionDir "/base" ((detectVersionFromArchive stem).getD "1.0.0"))).getD Dir.empty) = false := hfails
    rw [hextracts] at hfails
    cases hfails
  · intro st hst o ho
    rw [hst, Option.all_some] at hunlisted
    exact bne_iff_ne.mp (List.all_eq_true.mp hunlisted o ho)
  · exact Option.isNone_iff_eq_none.mp hmanifest

end InstallsAux

/-- Two silent installations one after the other. -/
theorem careful_runs_launch_two :
    ∃ version archive, (plainInvoke (after [installs "DoubleSlash-1.0.0-win64" [0]]).disk (installs "DoubleSlash-1.1.0-win64" [1])).2 =
      .installed version archive ∧ Launches (plainSetup.digests fun _ => none)
        (after [installs "DoubleSlash-1.0.0-win64" [0], installs "DoubleSlash-1.1.0-win64" [1]]).disk version archive := by
  have hinstalled : isInstalled (plainInvoke (after [installs "DoubleSlash-1.0.0-win64" [0]]).disk
      (installs "DoubleSlash-1.1.0-win64" [1])).2 = true := by decide +kernel
  obtain ⟨version, archive, hresult⟩ := exists_of_isInstalled hinstalled
  refine ⟨version, archive, hresult, ?_⟩
  refine (careful_runs_launch plainSetup (fun _ => bundle []) (fun _ => none) "1.0.0" "/base"
    [installs "DoubleSlash-1.0.0-win64" [0], installs "DoubleSlash-1.1.0-win64" [1]] ⟨?_, fun s₁ h₁ => ⟨?_, fun _ _ => trivial⟩⟩
    [installs "DoubleSlash-1.0.0-win64" [0]] (installs "DoubleSlash-1.1.0-win64" [1]) [] _ _ rfl (run_after _)
    (step_after _ _)).1 version archive hresult
  · exact careful_installs (by decide +kernel) (by decide +kernel) (by decide +kernel)
  · obtain rfl : after [installs "DoubleSlash-1.0.0-win64" [0]] = s₁ := Option.some.inj ((step_after [] _).symm.trans h₁)
    exact careful_installs (by decide +kernel) (by decide +kernel) (by decide +kernel)

/-- **Going back to a version that is listed as old deletes it.** 1.0.0, then 1.1.0, then 1.0.0 again: the last run succeeds, and the
directory of the version it recorded is gone. -/
theorem reinstall_deletes :
    ¬∀ pre run s s', Run.run plainStep Installation.fresh pre = some s → plainStep s run = some s' →
      ∀ version archive, (plainInvoke s.disk run).2 = .installed version archive →
        Launches (plainSetup.digests fun _ => none) s'.disk version archive := by
  intro h
  have hinstalled : isInstalled (plainInvoke (after [installs "DoubleSlash-1.0.0-win64" [0], installs "DoubleSlash-1.1.0-win64" [1]]).disk
      (installs "DoubleSlash-1.0.0-win64" [2])).2 = true := by decide +kernel
  obtain ⟨version, archive, hresult⟩ := exists_of_isInstalled hinstalled
  have hlaunches := h _ _ _ _ (run_after _) (step_after _ _) version archive hresult
  have hgone : (currentDir (after [installs "DoubleSlash-1.0.0-win64" [0], installs "DoubleSlash-1.1.0-win64" [1],
      installs "DoubleSlash-1.0.0-win64" [2]]).disk).isSome = false := by decide +kernel
  exact Bool.false_ne_true (hgone.symm.trans (currentDir_of_launches hlaunches))

end DoubleSlash.Installer
