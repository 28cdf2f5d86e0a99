import DoubleSlash.Lemmas.Attachments

/-!
# Attachments through a backup and back

A capture and a restore together rename the paths of the table. They do what they are for exactly when no name of the archive is a path
that the capture has still to replace, and the destination is a text.
-/

namespace DoubleSlash.Store.Backup

open Bytes UnixPath Renaming

variable {C : Type}

/-- The rows after a restore beside those before the backup: the files `fs` had are below the destination, under a path of their own,
and nothing else is referred to or changed. -/
structure Survives (fs host : FileSystem) (destination : List UInt8) (files : List (String × List UInt8))
    (rows after : List (MessageRow C)) : Prop where
  columns : after.map MessageRow.columns = rows.map MessageRow.columns
  /-- A message whose file existed refers to a restored file with its content. -/
  restored : ∀ row row' content, (row, row') ∈ rows.zip after → fs.file (utf8 row.attachmentPath) = some content →
    (∃ file ∈ files, file.2 = content ∧ utf8 row'.attachmentPath = join destination (utf8 file.1)) ∧
      host.fileAfter destination files (utf8 row'.attachmentPath) = some content
  shared : ∀ x x' y y', (x, x') ∈ rows.zip after → (y, y') ∈ rows.zip after → x.attachmentPath = y.attachmentPath →
    x'.attachmentPath = y'.attachmentPath
  /-- Messages with different files refer to different files. -/
  apart : ∀ x x' y y', (x, x') ∈ rows.zip after → (y, y') ∈ rows.zip after → fs.available x.attachmentPath = true →
    fs.available y.attachmentPath = true → x.attachmentPath ≠ y.attachmentPath → x'.attachmentPath ≠ y'.attachmentPath
  /-- A message whose file was missing has no path. -/
  missing : ∀ row row', (row, row') ∈ rows.zip after → fs.available row.attachmentPath = false → row'.attachmentPath = ""

/-- The name that an attachment gets in the archive is a path of the table that is listed after its own. -/
def Reused (fs : FileSystem) (listed : List String) : Prop :=
  ∃ before path after, listed = before ++ path :: after ∧ fs.available path = true ∧
    attachmentName (before.countP fs.available) ∈ after

namespace AttachmentsAux

variable {fs host : FileSystem} {destination : List UInt8} {rows : List (MessageRow C)} {listed : List String}

/-- The two loops, as one renaming of the table. -/
def locals (destination : List UInt8) (listed : List String) : List (String × String) :=
  listed.map fun path => (path, toStringLossy (join destination (utf8 path)))

theorem localPaths_eq (rows : List (MessageRow C)) (listed : List String) :
    localPaths destination rows listed = rows.map (MessageRow.mapPath (rename (locals destination listed))) := by
  unfold localPaths locals
  induction listed generalizing rows with
  | nil => exact (List.map_id rows).symm
  | cons path listed ih =>
    rw [List.foldl_cons, ih, updatePath_eq, List.map_map]
    rfl

theorem map_fst_locals (listed : List String) : (locals destination listed).map Prod.fst = listed := by
  unfold locals
  rw [List.map_map]
  exact List.map_id listed

theorem not_available_nil : ¬ fs.available "" = true := by
  unfold FileSystem.available
  rw [show utf8 "" = [] from rfl, fs.file_nil]
  decide

/-! ## What the capture stores -/

theorem capturePaths_eq (rows : List (MessageRow C)) (listed : List String) :
    (capturePaths fs true rows listed).rows = rows.map (MessageRow.mapPath (rename (replacements fs 0 listed))) ∧
      (capturePaths fs true rows listed).attachments = stored fs 0 listed :=
  foldl_capturePath listed { rows, attachments := [], missing := 0 }

/-- Every attachment is read: its file is there. -/
theorem storedFiles_stored (n : Nat) (listed : List String) :
    storedFiles fs (stored fs n listed) =
      some ((stored fs n listed).map fun a => (a.1, (fs.file (utf8 a.2)).getD [])) := by
  unfold storedFiles
  induction listed generalizing n with
  | nil => rfl
  | cons path listed ih =>
    by_cases hpath : fs.available path = true
    · obtain ⟨content, hcontent⟩ := Option.isSome_iff_exists.mp hpath
      rw [stored_of_available hpath, List.mapM_cons, ih, List.map_cons]
      simp [hcontent]
    · rw [stored_of_missing hpath]
      exact ih n

/-- The files of the archive. -/
def archived (fs : FileSystem) (listed : List String) : List (String × List UInt8) :=
  (stored fs 0 listed).map fun a => (a.1, (fs.file (utf8 a.2)).getD [])

/-- A file of the archive has a number, and one name one content. -/
theorem archived_name {file : String × List UInt8} (h : file ∈ archived fs listed) : ∃ n, file.1 = attachmentName n := by
  obtain ⟨a, ha, rfl⟩ := List.mem_map.mp h
  obtain ⟨r, hr, rfl⟩ := List.mem_map.mp ha
  obtain ⟨hr, hthere⟩ := List.mem_filter.mp hr
  rcases mem_replacements hr with ⟨hmissing, -⟩ | ⟨-, n, -, hname⟩
  · exact absurd hthere hmissing
  · exact ⟨n, hname⟩

theorem archived_unique {file file' : String × List UInt8} (h : file ∈ archived fs listed) (h' : file' ∈ archived fs listed)
    (hname : file.1 = file'.1) : file = file' := by
  have hnodup : ((archived fs listed).map Prod.fst).Nodup := by
    have h := @nodup_names fs 0 listed
    unfold archived
    rwa [List.map_map]
  exact List.inj_on_of_nodup_map hnodup h h' hname

/-- What a replacement of an available path stores. -/
theorem archived_of_replacement {r : String × String} {content : List UInt8} (hr : r ∈ replacements fs 0 listed)
    (hcontent : fs.file (utf8 r.1) = some content) : (r.2, content) ∈ archived fs listed := by
  have hthere : fs.available r.1 = true := Option.isSome_iff_exists.mpr ⟨content, hcontent⟩
  refine List.mem_map.mpr ⟨r.swap, List.mem_map.mpr ⟨r, List.mem_filter.mpr ⟨hr, hthere⟩, rfl⟩, ?_⟩
  rw [Prod.fst_swap, Prod.snd_swap, hcontent]
  rfl

/-- A name of the archive below the destination is the file of that name. -/
theorem fileAfter_archived {file : String × List UInt8} (h : file ∈ archived fs listed) :
    host.fileAfter destination (archived fs listed) (join destination (utf8 file.1)) = some file.2 := by
  unfold FileSystem.fileAfter
  cases hfind : (archived fs listed).find? fun f => join destination (utf8 f.1) = join destination (utf8 file.1) with
  | none =>
    have hnone := List.find?_eq_none.mp hfind file h
    simp at hnone
  | some found =>
    have hmem := List.mem_of_find?_eq_some hfind
    have hjoin := List.find?_some hfind
    rw [decide_eq_true_eq] at hjoin
    obtain ⟨m, hm⟩ := archived_name hmem
    obtain ⟨n, hn⟩ := archived_name h
    have hname : found.1 = file.1 := by
      rw [hm, hn] at hjoin ⊢
      rw [join_inj hjoin]
    rw [archived_unique hmem h hname]

/-! ## The renaming of the capture -/

theorem replacements_split (before after : List String) {path : String} (h : fs.available path = true) :
    ∃ rest, rest.map Prod.fst = after ∧ replacements fs 0 (before ++ path :: after) =
      replacements fs 0 before ++ (path, attachmentName (before.countP fs.available)) :: rest := by
  rw [replacements_append, Nat.zero_add, replacements, if_pos h]
  exact ⟨_, map_fst_replacements _ after, rfl⟩

/-- The replacements are separate exactly when no name is a path that comes later. -/
theorem separate_iff (hne : "" ∉ listed) : Separate (replacements fs 0 listed) ↔ ¬ Reused fs listed := by
  constructor
  · rintro hsep ⟨before, path, after, rfl, hpath, hmem⟩
    obtain ⟨rest, hrest, heq⟩ := replacements_split before after hpath
    rw [← hrest] at hmem
    obtain ⟨s, hs, hname⟩ := List.mem_map.mp hmem
    rw [heq] at hsep
    exact List.rel_of_pairwise_cons (List.pairwise_append.mp hsep).2.1 hs hname.symm
  · intro hreused
    by_contra hsep
    obtain ⟨before, r, mid, s, after, heq, hclash⟩ := exists_clash hsep
    have hlisted := @map_fst_replacements fs 0 listed
    rw [heq, List.map_append, List.map_cons] at hlisted
    have hlater : s.1 ∈ (mid ++ s :: after).map Prod.fst :=
      List.mem_map_of_mem (List.mem_append_right mid List.mem_cons_self)
    have hs : s.1 ≠ "" := by
      intro hempty
      apply hne
      rw [← hlisted, ← hempty]
      exact List.mem_append_right _ (List.mem_cons_of_mem _ hlater)
    have hthere : fs.available r.1 = true := by
      have hr : r ∈ replacements fs 0 listed := by
        rw [heq]
        exact List.mem_append_right _ List.mem_cons_self
      rcases mem_replacements hr with ⟨-, hempty⟩ | ⟨hthere, -⟩
      · exact absurd (hclash.symm.trans hempty) hs
      · exact hthere
    obtain ⟨rest, -, hsplit⟩ := replacements_split (before.map Prod.fst) ((mid ++ s :: after).map Prod.fst) hthere
    have hname : r.2 = attachmentName ((before.map Prod.fst).countP fs.available) := by
      rw [hlisted, heq] at hsplit
      have hlen : before.length = (replacements fs 0 (before.map Prod.fst)).length := by
        have h := congrArg List.length (@map_fst_replacements fs 0 (before.map Prod.fst))
        simpa using h.symm
      have hhead := (List.cons.inj (List.append_inj_right hsplit hlen)).1
      exact congrArg Prod.snd hhead
    refine hreused ⟨before.map Prod.fst, r.1, (mid ++ s :: after).map Prod.fst, hlisted.symm, hthere, ?_⟩
    rw [← hname, hclash]
    exact hlater

/-- Whatever the replacements do, a path that is listed becomes nothing or the name of a file of the archive. -/
theorem rename_listed {path : String} (h : path ∈ listed) :
    rename (replacements fs 0 listed) path = "" ∨
      ∃ file ∈ archived fs listed, rename (replacements fs 0 listed) path = file.1 := by
  have hkey : path ∈ (replacements fs 0 listed).map Prod.fst := by rwa [map_fst_replacements]
  obtain ⟨r, hr, hnew⟩ := rename_mem hkey
  rcases mem_replacements hr with ⟨-, hempty⟩ | ⟨hthere, -⟩
  · exact Or.inl (hnew.trans hempty)
  · obtain ⟨content, hcontent⟩ := Option.isSome_iff_exists.mp hthere
    exact Or.inr ⟨_, archived_of_replacement hr hcontent, hnew⟩

theorem rename_empty (hne : "" ∉ listed) : rename (replacements fs 0 listed) "" = "" := by
  refine rename_of_notMem fun r hr heq => hne ?_
  rw [← @map_fst_replacements fs 0 listed, ← heq]
  exact List.mem_map_of_mem hr

/-- What the capture leaves in the table passes the check of a restore. -/
theorem validReferences_captured (hlisted : IsListing rows listed) :
    validReferences (archived fs listed) (rows.map (MessageRow.mapPath (rename (replacements fs 0 listed)))) = true := by
  have hne : "" ∉ listed := fun h => ((hlisted.2 "").mp h).1 rfl
  unfold validReferences
  rw [List.all_eq_true]
  intro row' hrow'
  obtain ⟨row, hrow, rfl⟩ := List.mem_map.mp hrow'
  rw [Bool.or_eq_true, beq_iff_eq, List.any_eq_true]
  have hpath : row.attachmentPath = "" ∨ row.attachmentPath ∈ listed := by
    by_cases hempty : row.attachmentPath = ""
    · exact Or.inl hempty
    · exact Or.inr ((hlisted.2 _).mpr ⟨hempty, row, hrow, rfl⟩)
  rcases hpath with hempty | hpath
  · left
    show rename _ row.attachmentPath = ""
    rw [hempty, rename_empty hne]
  · rcases @rename_listed fs _ _ hpath with hempty | ⟨file, hfile, hname⟩
    · exact Or.inl hempty
    · obtain ⟨n, hn⟩ := archived_name hfile
      refine Or.inr ⟨file, hfile, ?_⟩
      rw [Bool.and_eq_true, beq_iff_eq]
      refine ⟨?_, hname.symm⟩
      rw [hn, toList_attachmentName, List.isPrefixOf_iff_prefix]
      exact List.prefix_append _ _

/-! ## The renaming of the restore -/

section

variable {listed' : List String}

/-- Below a destination that is a text, no new path is a name of the archive, and each name becomes its path. -/
theorem rename_locals (htext : ∃ s, destination = utf8 s) (hdest : destination ≠ []) (hnodup : listed'.Nodup)
    (hnames : ∀ path ∈ listed', ∃ n, path = attachmentName n) {path : String} (h : path ∈ listed') :
    utf8 (rename (locals destination listed') path) = join destination (utf8 path) := by
  have hbytes : ∀ path ∈ listed', utf8 (toStringLossy (join destination (utf8 path))) = join destination (utf8 path) := by
    intro path hpath
    obtain ⟨n, rfl⟩ := hnames path hpath
    exact utf8_toStringLossy_iff.mpr (isText_join htext)
  have hsep : Separate (locals destination listed') := by
    refine List.Pairwise.imp_of_mem (R := fun _ _ => True) ?_ (List.pairwise_of_forall fun _ _ => trivial)
    intro r s hr hs _ heq
    obtain ⟨p, hp, rfl⟩ := List.mem_map.mp hr
    obtain ⟨q, hq, rfl⟩ := List.mem_map.mp hs
    have hjoin := hbytes p hp
    rw [show toStringLossy (join destination (utf8 p)) = q from heq] at hjoin
    obtain ⟨m, rfl⟩ := hnames p hp
    obtain ⟨n, rfl⟩ := hnames q hq
    exact join_ne_attachmentName hdest m n hjoin.symm
  have hmem : (path, toStringLossy (join destination (utf8 path))) ∈ locals destination listed' :=
    List.mem_map.mpr ⟨path, h, rfl⟩
  have hrename := rename_eq (by rwa [map_fst_locals]) hsep hmem
  rw [show rename (locals destination listed') path = _ from hrename]
  exact hbytes path h

theorem rename_locals_empty (hne : "" ∉ listed') : rename (locals destination listed') "" = "" := by
  refine rename_of_notMem fun r hr heq => hne ?_
  rw [← @map_fst_locals destination listed', ← heq]
  exact List.mem_map_of_mem hr

/-! ## Both -/

/-- The path of a row after both loops. -/
def final (fs : FileSystem) (destination : List UInt8) (listed listed' : List String) (path : String) : String :=
  rename (locals destination listed') (rename (replacements fs 0 listed) path)

theorem mem_listed (hlisted : IsListing rows listed) {row : MessageRow C} (hrow : row ∈ rows)
    (h : fs.available row.attachmentPath = true) : row.attachmentPath ∈ listed := by
  refine (hlisted.2 _).mpr ⟨?_, row, hrow, rfl⟩
  intro hempty
  rw [hempty] at h
  exact not_available_nil h

/-- What the restore lists are names of the archive. -/
theorem listed_names (hlisted : IsListing rows listed)
    (hlisted' : IsListing (rows.map (MessageRow.mapPath (rename (replacements fs 0 listed)))) listed') :
    ∀ path ∈ listed', ∃ n, path = attachmentName n := by
  have hne : "" ∉ listed := fun h => ((hlisted.2 "").mp h).1 rfl
  intro path hpath
  obtain ⟨hnonempty, _, hrow', rfl⟩ := (hlisted'.2 path).mp hpath
  obtain ⟨row, hrow, rfl⟩ := List.mem_map.mp hrow'
  by_cases hempty : row.attachmentPath = ""
  · refine absurd ?_ hnonempty
    show rename _ row.attachmentPath = ""
    rw [hempty, rename_empty hne]
  · have hmem := (hlisted.2 _).mpr ⟨hempty, row, hrow, rfl⟩
    rcases @rename_listed fs _ _ hmem with hnone | ⟨file, hfile, hname⟩
    · exact absurd hnone hnonempty
    · obtain ⟨n, hn⟩ := archived_name hfile
      exact ⟨n, hname.trans hn⟩

/-- Where the replacements are separate, a file that was there is restored under the number it got. -/
theorem final_of_file (hlisted : IsListing rows listed)
    (hlisted' : IsListing (rows.map (MessageRow.mapPath (rename (replacements fs 0 listed)))) listed')
    (hsep : Separate (replacements fs 0 listed)) (htext : ∃ s, destination = utf8 s) (hdest : destination ≠ [])
    {row : MessageRow C} {content : List UInt8} (hrow : row ∈ rows) (hfile : fs.file (utf8 row.attachmentPath) = some content) :
    ∃ n, (row.attachmentPath, attachmentName n) ∈ replacements fs 0 listed ∧ (attachmentName n, content) ∈ archived fs listed ∧
      utf8 (final fs destination listed listed' row.attachmentPath) = join destination (utf8 (attachmentName n)) := by
  have hthere : fs.available row.attachmentPath = true := Option.isSome_iff_exists.mpr ⟨content, hfile⟩
  have hkey : row.attachmentPath ∈ (replacements fs 0 listed).map Prod.fst := by
    rw [map_fst_replacements]
    exact mem_listed hlisted hrow hthere
  obtain ⟨r, hr, hpath⟩ := List.mem_map.mp hkey
  have hrename : rename (replacements fs 0 listed) r.1 = r.2 :=
    rename_eq (by rw [map_fst_replacements]; exact hlisted.1) hsep hr
  obtain ⟨n, hname⟩ : ∃ n, r.2 = attachmentName n := by
    rcases mem_replacements hr with ⟨hmissing, -⟩ | ⟨-, n, -, hname⟩
    · rw [hpath] at hmissing
      exact absurd hthere hmissing
    · exact ⟨n, hname⟩
  have harchived := archived_of_replacement hr (by rwa [hpath])
  rw [hpath, hname] at hrename
  rw [hname] at harchived
  have hmem : attachmentName n ∈ listed' :=
    (hlisted'.2 _).mpr ⟨attachmentName_ne n, _, List.mem_map_of_mem hrow, hrename⟩
  refine ⟨n, ?_, harchived, ?_⟩
  · rw [← hpath, ← hname]
    exact hr
  · unfold final
    rw [hrename]
    exact rename_locals htext hdest hlisted'.1 (listed_names hlisted hlisted') hmem

/-- Separate replacements and a destination that is a text, if there is anything to restore, are enough. -/
theorem survives_of (hlisted : IsListing rows listed)
    (hlisted' : IsListing (rows.map (MessageRow.mapPath (rename (replacements fs 0 listed)))) listed')
    (hsep : Separate (replacements fs 0 listed)) (hdest : destination ≠ [])
    (htext : (∃ s, destination = utf8 s) ∨ ∀ path ∈ listed, fs.available path = false) :
    Survives fs host destination (archived fs listed) rows
      (rows.map (MessageRow.mapPath (final fs destination listed listed'))) := by
  have hne : "" ∉ listed := fun h => ((hlisted.2 "").mp h).1 rfl
  have hne' : "" ∉ listed' := fun h => ((hlisted'.2 "").mp h).1 rfl
  have hdecoded {row : MessageRow C} (hrow : row ∈ rows) (hthere : fs.available row.attachmentPath = true) :
      ∃ s, destination = utf8 s := by
    refine htext.resolve_right fun hall => ?_
    rw [hall _ (mem_listed hlisted hrow hthere)] at hthere
    cases hthere
  constructor
  · rw [List.map_map]
    rfl
  · intro row row' content hpair hfile
    obtain ⟨hrow, rfl⟩ := mem_zip_map.mp hpair
    have htext := hdecoded hrow (Option.isSome_iff_exists.mpr ⟨content, hfile⟩)
    obtain ⟨n, -, harchived, hfinal⟩ := final_of_file hlisted hlisted' hsep htext hdest hrow hfile
    refine ⟨⟨_, harchived, rfl, hfinal⟩, ?_⟩
    show host.fileAfter _ _ (utf8 (final fs destination listed listed' row.attachmentPath)) = _
    rw [hfinal]
    exact fileAfter_archived harchived
  · intro x x' y y' hx hy hpath
    obtain ⟨-, rfl⟩ := mem_zip_map.mp hx
    obtain ⟨-, rfl⟩ := mem_zip_map.mp hy
    exact congrArg (final fs destination listed listed') hpath
  · intro x x' y y' hxpair hypair hxthere hythere hpath heq
    obtain ⟨hx, rfl⟩ := mem_zip_map.mp hxpair
    obtain ⟨hy, rfl⟩ := mem_zip_map.mp hypair
    obtain ⟨cx, hcx⟩ := Option.isSome_iff_exists.mp hxthere
    obtain ⟨cy, hcy⟩ := Option.isSome_iff_exists.mp hythere
    have htext := hdecoded hx hxthere
    obtain ⟨m, hm, -, hfinalx⟩ := final_of_file hlisted hlisted' hsep htext hdest hx hcx
    obtain ⟨n, hn, -, hfinaly⟩ := final_of_file hlisted hlisted' hsep htext hdest hy hcy
    have hjoin : join destination (utf8 (attachmentName m)) = join destination (utf8 (attachmentName n)) := by
      rw [← hfinalx, ← hfinaly]
      exact congrArg utf8 heq
    rw [join_inj hjoin] at hm
    have hstored (z : MessageRow C) (h : (z.attachmentPath, attachmentName n) ∈ replacements fs 0 listed)
        (hthere : fs.available z.attachmentPath = true) : (attachmentName n, z.attachmentPath) ∈ stored fs 0 listed :=
      List.mem_map.mpr ⟨_, List.mem_filter.mpr ⟨h, hthere⟩, rfl⟩
    have hsame := List.inj_on_of_nodup_map (@nodup_names fs 0 listed) (hstored x hm hxthere) (hstored y hn hythere) rfl
    exact hpath (congrArg Prod.snd hsame)
  · intro row row' hpair hmissing
    obtain ⟨hrow, rfl⟩ := mem_zip_map.mp hpair
    show final fs destination listed listed' row.attachmentPath = ""
    have hfirst : rename (replacements fs 0 listed) row.attachmentPath = "" := by
      by_cases hempty : row.attachmentPath = ""
      · rw [hempty, rename_empty hne]
      · have hkey : row.attachmentPath ∈ (replacements fs 0 listed).map Prod.fst := by
          rw [map_fst_replacements]
          exact (hlisted.2 _).mpr ⟨hempty, row, hrow, rfl⟩
        obtain ⟨r, hr, hpath⟩ := List.mem_map.mp hkey
        rw [← hpath, rename_eq (by rw [map_fst_replacements]; exact hlisted.1) hsep hr]
        rcases mem_replacements hr with ⟨-, hnone⟩ | ⟨hthere, -⟩
        · exact hnone
        · rw [hpath, hmissing] at hthere
          cases hthere
    unfold final
    rw [hfirst, rename_locals_empty hne']

/-- Two replacements that clash leave two paths as one, of which the first had a file. -/
theorem separate_of_survives (hlisted : IsListing rows listed)
    (h : Survives fs host destination (archived fs listed) rows
      (rows.map (MessageRow.mapPath (final fs destination listed listed')))) :
    Separate (replacements fs 0 listed) := by
  have hne : "" ∉ listed := fun h => ((hlisted.2 "").mp h).1 rfl
  by_contra hsep
  obtain ⟨before, r, mid, s, after, heq, hclash⟩ := exists_clash hsep
  have hlist := @map_fst_replacements fs 0 listed
  have hr : r ∈ replacements fs 0 listed := by
    rw [heq]
    exact List.mem_append_right _ List.mem_cons_self
  have hs : s ∈ replacements fs 0 listed := by
    rw [heq]
    exact List.mem_append_right _ (List.mem_cons_of_mem _ (List.mem_append_right _ List.mem_cons_self))
  have hrow (t : String × String) (ht : t ∈ replacements fs 0 listed) : ∃ row ∈ rows, row.attachmentPath = t.1 := by
    have hmem : t.1 ∈ listed := by
      rw [← hlist]
      exact List.mem_map_of_mem ht
    exact ((hlisted.2 _).mp hmem).2
  obtain ⟨x, hx, hxpath⟩ := hrow r hr
  obtain ⟨y, hy, hypath⟩ := hrow s hs
  have hmerged : rename (replacements fs 0 listed) r.1 = rename (replacements fs 0 listed) s.1 := by
    rw [heq]
    refine rename_clash ?_ hclash
    rw [← heq, hlist]
    exact hlisted.1
  have hnodup : ((replacements fs 0 listed).map Prod.fst).Nodup := by
    rw [hlist]
    exact hlisted.1
  have hdistinct : x.attachmentPath ≠ y.attachmentPath := by
    rw [hxpath, hypath]
    rw [heq, List.map_append, List.map_cons, List.map_append, List.map_cons, List.nodup_append, List.nodup_cons] at hnodup
    exact fun hsame => hnodup.2.1.1 (hsame ▸ List.mem_append_right _ List.mem_cons_self)
  have hfinal : final fs destination listed listed' x.attachmentPath = final fs destination listed listed' y.attachmentPath := by
    unfold final
    rw [hxpath, hypath, hmerged]
  have hxthere : fs.available x.attachmentPath = true := by
    rw [hxpath]
    rcases mem_replacements hr with ⟨-, hempty⟩ | ⟨hthere, -⟩
    · refine absurd ?_ hne
      rw [← hempty, hclash, ← hlist]
      exact List.mem_map_of_mem hs
    · exact hthere
  have hpair (z : MessageRow C) (hz : z ∈ rows) :
      (z, z.mapPath (final fs destination listed listed')) ∈
        rows.zip (rows.map (MessageRow.mapPath (final fs destination listed listed'))) := mem_zip_map.mpr ⟨hz, rfl⟩
  obtain ⟨content, hcontent⟩ := Option.isSome_iff_exists.mp hxthere
  by_cases hythere : fs.available y.attachmentPath = true
  · exact h.apart _ _ _ _ (hpair x hx) (hpair y hy) hxthere hythere hdistinct hfinal
  · have hgone := h.missing _ _ (hpair y hy) (eq_false_of_ne_true hythere)
    obtain ⟨⟨file, hfile, -, hjoin⟩, -⟩ := h.restored _ _ content (hpair x hx) hcontent
    obtain ⟨n, hn⟩ := archived_name hfile
    rw [hn] at hjoin
    apply join_ne_nil destination n
    rw [← hjoin]
    show utf8 (final fs destination listed listed' x.attachmentPath) = []
    rw [hfinal, show final fs destination listed listed' y.attachmentPath = "" from hgone]
    rfl

end

end AttachmentsAux

open AttachmentsAux

/-- Attachments survive a backup and a restore exactly when no attachment gets a name in the archive that is a path listed after its
own, and the destination is a text or there is no attachment. -/
theorem attachments_survive_iff (fs host : FileSystem) (destination : List UInt8) (rows : List (MessageRow C)) (listed : List String)
    (hlisted : IsListing rows listed) :
    ∃ files, storedFiles fs (capturePaths fs true rows listed).attachments = some files ∧
      validReferences files (capturePaths fs true rows listed).rows = true ∧
      ∀ listed' after, IsListing (capturePaths fs true rows listed).rows listed' →
        commitRows host destination (capturePaths fs true rows listed).rows listed' = some after →
        (Survives fs host destination files rows after ↔
          ¬ Reused fs listed ∧ ((∃ s, destination = utf8 s) ∨ ∀ path ∈ listed, fs.available path = false)) := by
  have hne : "" ∉ listed := fun h => ((hlisted.2 "").mp h).1 rfl
  obtain ⟨hrows, hattachments⟩ := @capturePaths_eq _ fs rows listed
  rw [hrows, hattachments]
  refine ⟨archived fs listed, storedFiles_stored 0 listed, validReferences_captured hlisted, ?_⟩
  intro listed' after hlisted' hcommit
  unfold commitRows at hcommit
  rw [Option.ite_none_left_eq_some, Option.ite_none_right_eq_some, localPaths_eq, List.map_map, Option.some.injEq] at hcommit
  obtain ⟨-, hrenames, rfl⟩ := hcommit
  have hdest : destination ≠ [] := by
    rintro rfl
    rw [host.renames_nil] at hrenames
    cases hrenames
  rw [← separate_iff hne]
  constructor
  · intro h
    refine ⟨separate_of_survives hlisted h, ?_⟩
    by_cases hall : ∀ path ∈ listed, fs.available path = false
    · exact Or.inr hall
    · left
      push Not at hall
      obtain ⟨path, hpath, hthere⟩ := hall
      obtain ⟨-, row, hrow, rfl⟩ := (hlisted.2 path).mp hpath
      obtain ⟨content, hcontent⟩ := Option.isSome_iff_exists.mp (eq_true_of_ne_false hthere)
      obtain ⟨⟨file, hfile, -, hjoin⟩, -⟩ := h.restored _ _ content (mem_zip_map.mpr ⟨hrow, rfl⟩) hcontent
      obtain ⟨n, hn⟩ := archived_name hfile
      rw [hn] at hjoin
      exact isText_of_join ⟨_, hjoin.symm⟩
  · rintro ⟨hsep, htext⟩
    exact survives_of hlisted hlisted' hsep hdest htext

namespace AttachmentSample

/-- A file at `/a`, and nothing else. -/
def oneFile : FileSystem where
  file path := if path = utf8 "/a" then some [1, 2, 3] else none
  occupied path := path == utf8 "/a"
  renames path := !path.isEmpty
  file_nil := by decide
  renames_nil := rfl

/-- Two messages with the file, and one with a file that is gone. -/
def table : List (MessageRow Nat) :=
  [{ attachmentPath := "/a", columns := 0 }, { attachmentPath := "/b", columns := 1 }, { attachmentPath := "/a", columns := 2 }]

/-- A message with the file, and one with a relative path that is a name of the archive. -/
def named : List (MessageRow Nat) :=
  [{ attachmentPath := "/a", columns := 0 }, { attachmentPath := "attachments/0", columns := 1 }]

end AttachmentSample

open AttachmentSample in
/-- The file of two messages is restored at `/p/attachments/0`. -/
theorem attachments_survive_sample :
    IsListing table ["/a", "/b"] ∧ ∃ files after, storedFiles oneFile (capturePaths oneFile true table ["/a", "/b"]).attachments = some files ∧
      commitRows oneFile (utf8 "/p") (capturePaths oneFile true table ["/a", "/b"]).rows ["attachments/0"] = some after ∧
      after.map MessageRow.attachmentPath = ["/p/attachments/0", "", "/p/attachments/0"] ∧
      Survives oneFile oneFile (utf8 "/p") files table after := by
  have hlisted : IsListing table ["/a", "/b"] := by
    refine ⟨by decide, fun path => ?_⟩
    simp only [table, List.mem_cons, List.not_mem_nil, or_false, exists_eq_or_imp, exists_eq_left]
    constructor
    · rintro (rfl | rfl) <;> simp
    · rintro ⟨-, rfl | rfl | rfl⟩ <;> simp
  have hlisted' : IsListing (capturePaths oneFile true table ["/a", "/b"]).rows ["attachments/0"] := by
    have hrows : (capturePaths oneFile true table ["/a", "/b"]).rows =
        [{ attachmentPath := "attachments/0", columns := 0 }, { attachmentPath := "", columns := 1 },
          { attachmentPath := "attachments/0", columns := 2 }] := by decide +kernel
    rw [hrows]
    refine ⟨by decide, fun path => ?_⟩
    simp only [List.mem_cons, List.not_mem_nil, or_false, exists_eq_or_imp, exists_eq_left]
    constructor
    · rintro rfl
      simp
    · rintro ⟨hne, rfl | rfl | rfl⟩
      · rfl
      · exact absurd rfl hne
      · rfl
  obtain ⟨files, hfiles, -, hall⟩ := attachments_survive_iff oneFile oneFile (utf8 "/p") table ["/a", "/b"] hlisted
  have hcommit : commitRows oneFile (utf8 "/p") (capturePaths oneFile true table ["/a", "/b"]).rows ["attachments/0"] =
      some (localPaths (utf8 "/p") (capturePaths oneFile true table ["/a", "/b"]).rows ["attachments/0"]) := by decide +kernel
  refine ⟨hlisted, files, _, hfiles, hcommit, by decide +kernel, (hall _ _ hlisted' hcommit).mpr ⟨?_, Or.inl ⟨"/p", rfl⟩⟩⟩
  rintro ⟨before, path, after, heq, -, hmem⟩
  have hlater : attachmentName (before.countP oneFile.available) ∈ ["/a", "/b"] := by
    rw [heq]
    exact List.mem_append_right _ (List.mem_cons_of_mem _ hmem)
  have hlist := toList_attachmentName (before.countP oneFile.available)
  simp only [List.mem_cons, List.not_mem_nil, or_false] at hlater
  rcases hlater with h | h <;> rw [h] at hlist <;> simp at hlist

open AttachmentSample in
/-- The name that `/a` gets is the path of a message whose file is gone: the message with the file loses it. -/
theorem reused_name_fails :
    ∃ files after, IsListing named ["/a", "attachments/0"] ∧
      storedFiles oneFile (capturePaths oneFile true named ["/a", "attachments/0"]).attachments = some files ∧
      IsListing (capturePaths oneFile true named ["/a", "attachments/0"]).rows [] ∧
      commitRows oneFile (utf8 "/p") (capturePaths oneFile true named ["/a", "attachments/0"]).rows [] = some after ∧
      ¬ Survives oneFile oneFile (utf8 "/p") files named after := by
  have hrows : (capturePaths oneFile true named ["/a", "attachments/0"]).rows =
      [{ attachmentPath := "", columns := 0 }, { attachmentPath := "", columns := 1 }] := by decide +kernel
  refine ⟨[("attachments/0", [1, 2, 3])], [{ attachmentPath := "", columns := 0 }, { attachmentPath := "", columns := 1 }], ?_,
    by decide +kernel, ?_, ?_, ?_⟩
  · refine ⟨by decide, fun path => ?_⟩
    simp only [named, List.mem_cons, List.not_mem_nil, or_false, exists_eq_or_imp, exists_eq_left]
    constructor
    · rintro (rfl | rfl) <;> simp
    · rintro ⟨-, rfl | rfl⟩ <;> simp
  · rw [hrows]
    refine ⟨List.nodup_nil, fun path => ?_⟩
    simp only [List.not_mem_nil, List.mem_cons, or_false, exists_eq_or_imp, exists_eq_left, false_iff, not_and]
    rintro hne (h | h) <;> exact hne h.symm
  · rw [hrows]
    decide +kernel
  · intro h
    obtain ⟨⟨file, hfile, -, hjoin⟩, -⟩ := h.restored { attachmentPath := "/a", columns := 0 } { attachmentPath := "", columns := 0 }
      [1, 2, 3] (by decide) (by decide)
    rw [List.mem_singleton] at hfile
    rw [hfile] at hjoin
    revert hjoin
    decide +kernel

end DoubleSlash.Store.Backup
