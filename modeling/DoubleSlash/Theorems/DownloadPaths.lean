import DoubleSlash.Files.Paths
import DoubleSlash.Lemmas.Inbound

/-!
# Where received files go

Of the two texts a sender chooses, `safe_file_name` sanitises `rel_path` and nothing sanitises `transfer_id`, although both are
part of the name of the `.part` file. An id with a separator puts that file anywhere (`confined_fails_escape`), and the final
name follows it, since it goes to the `.part` file's parent. With plain ids everything stays in the download directory
(`confined_of_plain`).

## Paths built from safe names


-/

namespace DoubleSlash.Files

open Text

namespace PathsAux

/-- A name's first dot decides its device stem. -/
theorem deviceStem_append_of_dot {a b : Name} (h : '.' ∈ a) : deviceStem (a ++ b) = deviceStem a := by
  unfold deviceStem
  rw [List.takeWhile_append, if_neg]
  intro hlen
  have hall := List.takeWhile_eq_self_iff.mp ((List.takeWhile_prefix _).eq_of_length hlen)
  simpa using hall '.' h

theorem deviceStem_append_of_not_dot {a b : Name} (h : '.' ∉ a) : deviceStem (a ++ b) = a ++ deviceStem b := by
  unfold deviceStem
  refine List.takeWhile_append_of_pos fun c hc => ?_
  simp only [bne_iff_ne, ne_eq]
  rintro rfl
  exact h hc

/-- What follows a space does not make a device of a name that was none. -/
theorem device_insert {a rest more : Name} (h : isReservedDeviceName (deviceStem (a ++ rest)) = false) :
    isReservedDeviceName (deviceStem (a ++ ' ' :: more)) = false := by
  by_cases hdot : '.' ∈ a
  · rw [deviceStem_append_of_dot hdot] at h ⊢
    exact h
  · rw [deviceStem_append_of_not_dot hdot]
    exact not_device (c := ' ') (by simp [deviceStem]) (Or.inr rfl)

/-- The number in parentheses. -/
theorem number_plain (n : Nat) : ∀ c ∈ " (".toList ++ n.repr.toList ++ [')'], isSlash c = false ∧ c ≠ ':' := by
  intro c hc
  rw [Nat.toList_repr] at hc
  simp only [List.mem_append, List.mem_singleton] at hc
  rcases hc with (hc | hc) | rfl
  · have hall : ∀ c ∈ " (".toList, isSlash c = false ∧ c ≠ ':' := List.all_iff_forall_prop.mp (by decide)
    exact hall c hc
  · have hdigit := Nat.isDigit_of_mem_toDigits (by decide) (by decide) hc
    constructor
    · unfold isSlash
      rw [Bool.or_eq_false_iff]
      constructor <;> rw [beq_eq_false_iff_ne] <;> rintro rfl <;> exact absurd hdigit (by decide)
    · rintro rfl
      exact absurd hdigit (by decide)
  · decide

end PathsAux

open PathsAux

/-- **Every alternative of a safe name is safe.** -/
theorem SafeName.numbered {name : Name} (h : SafeName name) (n : Nat) : SafeName (numbered name n) := by
  have hnum := number_plain n
  have hspace : " (".toList ++ n.repr.toList ++ [')'] = ' ' :: ('(' :: n.repr.toList ++ [')']) := rfl
  unfold Files.numbered
  simp only
  -- A name without extension keeps its whole text in front of the number; one with an extension is cut at its last dot.
  have hplain : SafeName (name ++ (" (".toList ++ n.repr.toList ++ [')'])) := by
    refine ⟨by simp, fun c hc => ?_, fun _ => by simp, ?_⟩
    · rcases List.mem_append.mp hc with hc | hc
      · exact h.plain c hc
      · exact hnum c hc
    · rw [hspace]
      exact @device_insert _ [] _ (by simpa using h.device)
  unfold stemExt
  split
  · rename_i hs
    rw [if_neg h.ne_dots] at hs
    split at hs <;> simp only [Prod.mk.injEq, reduceCtorEq, and_false, and_true] at hs <;> exact hs ▸ hplain
  · rename_i stem ext hs
    rw [if_neg h.ne_dots] at hs
    have hname : name = stem ++ '.' :: ext := by
      split at hs <;> simp only [Prod.mk.injEq, reduceCtorEq, and_false, Option.some.injEq] at hs
      rename_i hr
      obtain ⟨rfl, rfl⟩ := hs
      exact eq_of_rsplitOnce hr
    have hext : ext ≠ [] := by
      rintro rfl
      subst hname
      exact (h.last (by simp)).1 (by simp)
    subst hname
    refine ⟨by simp, fun c hc => ?_, fun hne => ?_, ?_⟩
    · rcases List.mem_append.mp hc with hc | hc
      · rcases List.mem_append.mp hc with hc | hc
        · exact h.plain c (List.mem_append_left _ hc)
        · exact hnum c hc
      · exact h.plain c (List.mem_append_right _ hc)
    · have := h.last (by simp)
      simpa [List.getLast_append, List.getLast_cons hext] using this
    · rw [hspace, List.append_assoc]
      exact device_insert h.device

/-! ## Children of a directory -/

/-- A text without separators is one component, on either platform. -/
theorem join_plain {os : Os} {dir : Path} {name : Name} (hplain : ∀ c ∈ name, isSlash c = false) (hne : name ≠ [])
    (hdot : name ≠ ['.']) : join os dir name = dir ++ [name] := by
  have hsep : ∀ c ∈ name, os.isSeparator c = false := by
    intro c hc
    have := hplain c hc
    cases os <;> simp_all [Os.isSeparator, isSlash]
  unfold join
  rw [List.splitOnP_eq_singleton hsep]
  simp [hne, hdot]

/-- A component without separators that is not a dot name stays as it is. -/
theorem normalise_concat {dir : Path} {name : Name} (hplain : ∀ c ∈ name, isSlash c = false) (hne : name ≠ [])
    (hdot : name ≠ ['.']) (hdots : name ≠ ['.', '.']) : normalise (dir ++ [name]) = normalise dir ++ [name] := by
  unfold normalise resolve
  rw [List.flatMap_append, List.foldl_append, List.flatMap_singleton, List.splitOnP_eq_singleton hplain]
  simp [walk, hne, hdot, hdots]

/-- The `.part` name of an id without separators. -/
theorem partName_plain {relPath tid : String} (h : ∀ c ∈ tid.toList, isSlash c = false) :
    ∀ c ∈ partName relPath tid, isSlash c = false := by
  intro c hc
  simp only [partName, List.mem_append, List.mem_cons] at hc
  rcases hc with (hc | rfl | hc) | hc
  · exact ((safeName_safeFileName relPath).plain c hc).1
  · decide
  · exact h c hc
  · have hall : ∀ c ∈ ".part".toList, isSlash c = false := List.all_iff_forall_prop.mp (by decide)
    exact hall c hc

theorem partName_long (relPath tid : String) : 2 < (partName relPath tid).length := by
  simp [partName]
  omega

/-- **The `.part` file of an id without separators** is in the directory itself. -/
theorem partPath_eq {os : Os} {dir : Path} {relPath tid : String} (h : ∀ c ∈ tid.toList, isSlash c = false) :
    partPath os dir relPath tid = dir ++ [partName relPath tid] := by
  have hlong := partName_long relPath tid
  refine join_plain (partName_plain h) ?_ ?_ <;> intro heq <;> simp [heq] at hlong

theorem normalise_partPath {os : Os} {dir : Path} {relPath tid : String} (h : ∀ c ∈ tid.toList, isSlash c = false) :
    normalise (partPath os dir relPath tid) = normalise dir ++ [partName relPath tid] := by
  have hlong := partName_long relPath tid
  rw [partPath_eq h]
  refine normalise_concat (partName_plain h) ?_ ?_ ?_ <;> intro heq <;> simp [heq] at hlong

/-- **The final path** is the directory with a safe name. -/
theorem uniqueDestPath_eq (os : Os) (taken : Path → Bool) (dir : Path) {name : Name} (h : SafeName name) :
    ∃ final, SafeName final ∧ uniqueDestPath os taken dir name = dir ++ [final] := by
  have hjoin : ∀ {final : Name}, SafeName final → join os dir final = dir ++ [final] := fun hf =>
    join_plain (fun c hc => (hf.plain c hc).1) hf.nonempty hf.ne_dot
  unfold uniqueDestPath
  split
  · exact ⟨name, h, hjoin h⟩
  · split
    · rename_i n _
      exact ⟨_, h.numbered n, hjoin (h.numbered n)⟩
    · exact ⟨name, h, hjoin h⟩

theorem SafeName.isChild {dir : Path} {name : Name} (h : SafeName name) : IsChild dir (dir ++ [name]) :=
  ⟨name, normalise_concat (fun c hc => (h.plain c hc).1) h.nonempty h.ne_dot h.ne_dots⟩

open Assoc FileTransferManager

/-- A name a received file may end with. -/
def FinalName (name : Name) : Prop :=
  name ≠ [] ∧ name ≠ ['.'] ∧ name ≠ ['.', '.'] ∧ isReservedDeviceName (deviceStem name) = false ∧
    ∀ h : name ≠ [], name.getLast h ≠ '.' ∧ name.getLast h ≠ ' '

/-- Every path that was created, truncated, renamed to or deleted is a direct child of the download directory, every final name is
one a file may have, and no two live transfers share a `.part` path. -/
structure Confined (E : FileEnv) (s : Receiver) : Prop where
  inside : ∀ t ∈ s.storage.journal, IsChild E.downloadDir t.path
  final : ∀ p, Touch.renameTo p ∈ s.storage.journal → ∃ dir name, p = dir ++ [name] ∧ FinalName name
  apart : ∀ id₁ id₂ x₁ x₂ p₁ p₂, s.mgr.inbound.lookup id₁ = some x₁ → s.mgr.inbound.lookup id₂ = some x₂ → id₁ ≠ id₂ →
    x₁.sink.partPath? = some p₁ → x₂.sink.partPath? = some p₂ → normalise p₁ ≠ normalise p₂

/-- An offer that opens a `.part` file has an id without separators, and no live transfer under another id has the same name and
id put together. -/
def PlainIds (s : Receiver) (c : Call) : Prop :=
  ∀ o, c.request = .offer o → o.opensPart →
    (∀ ch ∈ o.transferId.toList, isSlash ch = false) ∧
      ∀ id x, s.mgr.inbound.lookup id = some x → id ≠ o.transferId → x.sink.partPath?.isSome →
        partName x.relPath id ≠ partName o.relPath o.transferId

namespace DownloadPathsAux

/-- The `.part` files are where `open_part_file` put them, under plain ids, each with a name of its own. -/
structure Filed (E : FileEnv) (m : FileTransferManager) : Prop where
  path : ∀ id x p, m.inbound.lookup id = some x → x.sink.partPath? = some p →
    (∀ ch ∈ id.toList, isSlash ch = false) ∧ p = partPath E.os E.downloadDir x.relPath id
  names : ∀ id₁ id₂ x₁ x₂, m.inbound.lookup id₁ = some x₁ → m.inbound.lookup id₂ = some x₂ → id₁ ≠ id₂ →
    x₁.sink.partPath?.isSome → x₂.sink.partPath?.isSome → partName x₁.relPath id₁ ≠ partName x₂.relPath id₂

/-- The records of `m'` are records of `m`, as far as paths go. -/
def Inherits (m m' : FileTransferManager) : Prop :=
  ∀ id x', m'.inbound.lookup id = some x' →
    ∃ x, m.inbound.lookup id = some x ∧ x'.relPath = x.relPath ∧ x'.sink.partPath? = x.sink.partPath?

/-- What the requests other than offers do with paths: delete `.part` files, and rename them to free safe names beside them. -/
def Tidy (E : FileEnv) (m : FileTransferManager) (t : Touch) : Prop :=
  ∃ id x p, m.inbound.lookup id = some x ∧ x.sink.partPath? = some p ∧
    (t = .delete p ∨ ∃ taken, t = .renameTo (uniqueDestPath E.os taken (parent p) (safeFileName x.relPath)))

/-- The outcome inherits its records and touches paths tidily. -/
structure Clean (E : FileEnv) (m : FileTransferManager) (st : Storage) (o : Outcome) : Prop where
  inherits : Inherits m o.mgr
  journal : ∃ new, o.storage.journal = st.journal ++ new ∧ ∀ t ∈ new, Tidy E m t

section

variable {E : FileEnv} {m : FileTransferManager} {st : Storage}

theorem Filed.inherits {m' : FileTransferManager} (h : Filed E m) (hi : Inherits m m') : Filed E m' where
  path := by
    intro id x' p hx' hp
    obtain ⟨x, hx, hrel, hpart⟩ := hi id x' hx'
    rw [hrel]
    exact h.path id x p hx (hpart ▸ hp)
  names := by
    intro id₁ id₂ y₁ y₂ hy₁ hy₂ hne hp₁ hp₂
    obtain ⟨x₁, hx₁, hrel₁, hpart₁⟩ := hi id₁ y₁ hy₁
    obtain ⟨x₂, hx₂, hrel₂, hpart₂⟩ := hi id₂ y₂ hy₂
    rw [hrel₁, hrel₂]
    exact h.names id₁ id₂ x₁ x₂ hx₁ hx₂ hne (hpart₁ ▸ hp₁) (hpart₂ ▸ hp₂)

/-- A tidy operation stays in the download directory, and what it renames to is a final name. -/
theorem Filed.tidy {t : Touch} (h : Filed E m) (ht : Tidy E m t) :
    IsChild E.downloadDir t.path ∧ ∀ p, t = .renameTo p → ∃ dir name, p = dir ++ [name] ∧ FinalName name := by
  obtain ⟨id, x, p, hx, hp, rfl | ⟨taken, rfl⟩⟩ := ht
  · obtain ⟨hplain, rfl⟩ := h.path id x p hx hp
    exact ⟨⟨_, normalise_partPath hplain⟩, nofun⟩
  · obtain ⟨hplain, rfl⟩ := h.path id x p hx hp
    obtain ⟨final, hsafe, heq⟩ := uniqueDestPath_eq E.os taken
      (parent (partPath E.os E.downloadDir x.relPath id)) (safeName_safeFileName x.relPath)
    have hparent : parent (partPath E.os E.downloadDir x.relPath id) = E.downloadDir := by
      rw [partPath_eq hplain, parent, List.dropLast_concat]
    rw [heq, hparent]
    refine ⟨hsafe.isChild, fun q hq => ?_⟩
    obtain rfl := Touch.renameTo.inj hq
    exact ⟨_, final, rfl, hsafe.nonempty, hsafe.ne_dot, hsafe.ne_dots, hsafe.device, hsafe.last⟩

theorem Continues.relPath {x x' : InboundTransfer} (h : Continues x x') : x'.relPath = x.relPath :=
  congrArg Offer.relPath h.offer

theorem clean_of_within {tid : String} {o : Outcome} (h : Within tid m st o) : Clean E m st o where
  inherits := by
    intro id x' hx'
    by_cases hid : id = tid
    · subst hid
      obtain ⟨x, hx, hc⟩ := h.record x' hx'
      exact ⟨x, hx, Continues.relPath hc, hc.part⟩
    · exact ⟨x', h.others id hid ▸ hx', rfl, rfl⟩
  journal := by
    obtain ⟨new, hj, hnew⟩ := h.journal
    refine ⟨new, hj, fun t ht => ?_⟩
    obtain ⟨x, p, hx, hp, rfl⟩ := hnew t ht
    exact ⟨tid, x, p, hx, hp, Or.inl rfl⟩

theorem clean_trans {o₁ o₂ : Outcome} (h₁ : Clean E m st o₁) (h₂ : Clean E o₁.mgr o₁.storage o₂) : Clean E m st o₂ where
  inherits := by
    intro id x₂ hx₂
    obtain ⟨x₁, hx₁, hrel₁, hp₁⟩ := h₂.inherits id x₂ hx₂
    obtain ⟨x, hx, hrel, hp⟩ := h₁.inherits id x₁ hx₁
    exact ⟨x, hx, hrel₁.trans hrel, hp₁.trans hp⟩
  journal := by
    obtain ⟨n₁, hj₁, hn₁⟩ := h₁.journal
    obtain ⟨n₂, hj₂, hn₂⟩ := h₂.journal
    refine ⟨n₁ ++ n₂, by rw [hj₂, hj₁, List.append_assoc], fun t ht => ?_⟩
    rcases List.mem_append.mp ht with ht | ht
    · exact hn₁ t ht
    · obtain ⟨id, y, p, hy, hp, htouch⟩ := hn₂ t ht
      obtain ⟨x, hx, hrel, hpart⟩ := h₁.inherits id y hy
      exact ⟨id, x, p, hx, by rw [← hpart, hp], hrel ▸ htouch⟩

/-- Records that change in progress and time only, some of them dropped with their `.part` files. -/
theorem clean_sweep {m' : FileTransferManager} {paths : List Path} (hi : Inherits m m')
    (hpaths : ∀ p ∈ paths, ∃ id x, m.inbound.lookup id = some x ∧ x.sink.partPath? = some p) :
    Clean E m st ⟨m', paths.foldl (fun st path => st.removeFile E path) st, []⟩ where
  inherits := hi
  journal := by
    refine ⟨paths.map .delete, ?_, ?_⟩
    · clear hpaths hi
      induction paths generalizing st with
      | nil => simp
      | cons p paths ih =>
        rw [List.foldl_cons, ih]
        simp [Storage.removeFile]
    · intro t ht
      obtain ⟨p, hp, rfl⟩ := List.mem_map.mp ht
      obtain ⟨id, x, hx, hpart⟩ := hpaths p hp
      exact ⟨id, x, p, hx, hpart, Or.inl rfl⟩

theorem clean_promote {tid : String} {x : InboundTransfer} {part : Path} (hx : m.inbound.lookup tid = some x)
    (hp : x.sink.partPath? = some part) : Clean E m st ⟨m, (promotePartFile E st part x.relPath).1, []⟩ where
  inherits := fun id x' hx' => ⟨x', hx', rfl, rfl⟩
  journal := by
    refine ⟨[.renameTo (uniqueDestPath E.os st.exists (parent part) (safeFileName x.relPath))], ?_, ?_⟩
    · unfold promotePartFile
      simp only
      split <;> rfl
    · simp only [List.mem_singleton]
      rintro t rfl
      exact ⟨tid, x, part, hx, hp, Or.inr ⟨st.exists, rfl⟩⟩

theorem clean_onFileHashed (tid : String) (actual : Except String String) :
    Clean E m st (onFileHashed E m st tid actual) := by
  rcases onFileHashed_cases E m st tid actual with h | ⟨x, part, hx, -, hp, -, ⟨reason, -, heq⟩ | ⟨dest, -, heq⟩⟩
  · exact clean_of_within h
  · rw [heq]
    exact clean_trans (clean_promote hx hp) (clean_of_within (within_failInbound E m _ tid reason))
  · rw [heq]
    exact clean_trans (clean_promote hx hp) (clean_of_within (within_publish E m _ tid hx _))

theorem inherits_mapValues {f : InboundTransfer → InboundTransfer} (hrel : ∀ x, (f x).relPath = x.relPath)
    (hsink : ∀ x, (f x).sink = x.sink) : Inherits m { m with inbound := mapValues m.inbound f } := by
  intro id x' hx'
  rw [lookup_mapValues, Option.map_eq_some_iff] at hx'
  obtain ⟨x, hx, rfl⟩ := hx'
  exact ⟨x, hx, hrel x, by rw [hsink]⟩

theorem clean_gc : Clean E m st (gc E m st) := by
  have hstamp : Inherits m { m with inbound := mapValues m.inbound (stampInbound E.now) } :=
    inherits_mapValues (fun x => by unfold stampInbound; split <;> rfl) (fun x => by unfold stampInbound; split <;> rfl)
  refine clean_sweep ?_ ?_
  · intro id x' hx'
    rw [lookup_retain, Option.filter_eq_some_iff] at hx'
    exact hstamp id x' hx'.1
  · intro p hp
    obtain ⟨x', hx', hpath⟩ := List.mem_filterMap.mp hp
    obtain ⟨id, hid⟩ := (mem_values _ _).mp hx'
    split at hpath
    · cases hpath
    · obtain ⟨x, hx, -, hpart⟩ := hstamp id x' hid
      exact ⟨id, x, hx, hpart ▸ (Option.filter_eq_some_iff.mp hpath).1⟩

/-- Every request but an offer is clean. -/
theorem clean_serve {r : Request} (h : ∀ o, r ≠ .offer o) : Clean E m st (serve E m st r) := by
  have hkeep : ∀ (m' : FileTransferManager), m'.inbound = m.inbound → Clean E m st ⟨m', st, []⟩ := fun m' hm' =>
    ⟨fun id x' hx' => ⟨x', hm' ▸ hx', rfl, rfl⟩, [], by simp⟩
  cases r with
  | offer o => exact absurd rfl (h o)
  | accept tid => exact clean_of_within (within_acceptTransfer E m st tid)
  | acceptLocally tid => exact clean_of_within (within_acceptTransferLocally E m st tid)
  | reject tid reason => exact clean_of_within (within_rejectTransfer m st tid reason)
  | cancel tid => exact clean_of_within (within_cancelTransfer m st tid)
  | discard tid => exact clean_of_within (within_discardInbound E m st tid)
  | chunk tid index data => exact clean_of_within (within_onChunkReceived E m st tid index data)
  | chunkBytes tid index data => exact clean_of_within (within_onChunkBytesReceived E m st tid index data)
  | complete tid => exact clean_of_within (within_onCompleteReceived E m st tid)
  | hashed tid actual => exact clean_onFileHashed tid actual
  | stall =>
    refine ⟨inherits_mapValues (fun x => ?_) (fun x => ?_), [], by simp [serve]⟩
    all_goals
      split
      · unfold stalledPull
        split <;> rfl
      · rfl
  | retry tid => exact clean_of_within (within_armRetry E m st tid)
  | gc => exact clean_gc
  | setOldFileData relPath data => exact hkeep _ rfl
  | sending outbound revoked => exact hkeep _ rfl

/-- Filing a record under a plain id whose `.part` name nobody else has. -/
theorem Filed.file {o : Offer} {sink : TransferSink} {now : ℚ} (h : Filed E m)
    (hsink : ∀ p, sink.partPath? = some p → p = partPath E.os E.downloadDir o.relPath o.transferId ∧
      (∀ ch ∈ o.transferId.toList, isSlash ch = false) ∧
      ∀ id x, m.inbound.lookup id = some x → id ≠ o.transferId → x.sink.partPath?.isSome →
        partName x.relPath id ≠ partName o.relPath o.transferId) :
    Filed E { m with inbound := m.inbound.insert o.transferId (.new now o sink) } where
  path := by
    intro id x p hx hp
    by_cases hid : id = o.transferId
    · subst hid
      rw [AList.lookup_insert] at hx
      obtain rfl := Option.some.inj hx
      exact ⟨(hsink p hp).2.1, (hsink p hp).1⟩
    · rw [AList.lookup_insert_ne hid] at hx
      exact h.path id x p hx hp
  names := by
    intro id₁ id₂ x₁ x₂ hx₁ hx₂ hne hp₁ hp₂
    by_cases h₁ : id₁ = o.transferId
    · subst h₁
      rw [AList.lookup_insert] at hx₁
      obtain rfl := Option.some.inj hx₁
      rw [AList.lookup_insert_ne hne.symm] at hx₂
      obtain ⟨p, hp⟩ := Option.isSome_iff_exists.mp hp₁
      exact ((hsink p hp).2.2 id₂ x₂ hx₂ hne.symm hp₂).symm
    · rw [AList.lookup_insert_ne h₁] at hx₁
      by_cases h₂ : id₂ = o.transferId
      · subst h₂
        rw [AList.lookup_insert] at hx₂
        obtain rfl := Option.some.inj hx₂
        obtain ⟨p, hp⟩ := Option.isSome_iff_exists.mp hp₂
        exact (hsink p hp).2.2 id₁ x₁ hx₁ h₁ hp₁
      · rw [AList.lookup_insert_ne h₂] at hx₂
        exact h.names id₁ id₂ x₁ x₂ hx₁ hx₂ hne hp₁ hp₂

end

/-- What holds along every run whose offers have plain ids. -/
structure Sound (E : FileEnv) (s : Receiver) : Prop where
  filed : Filed E s.mgr
  journal : ∀ t ∈ s.storage.journal, IsChild E.downloadDir t.path ∧
    ∀ p, t = .renameTo p → ∃ dir name, p = dir ++ [name] ∧ FinalName name

/-- An offer keeps it. -/
theorem sound_offer {E : FileEnv} {s : Receiver} {o : Offer} (h : Sound E s)
    (hplain : o.opensPart → (∀ ch ∈ o.transferId.toList, isSlash ch = false) ∧
      ∀ id x, s.mgr.inbound.lookup id = some x → id ≠ o.transferId → x.sink.partPath?.isSome →
        partName x.relPath id ≠ partName o.relPath o.transferId) :
    Filed E (onOfferReceived E s.mgr s.storage o).mgr ∧
      ∀ t ∈ (onOfferReceived E s.mgr s.storage o).storage.journal, IsChild E.downloadDir t.path ∧
        ∀ p, t = .renameTo p → ∃ dir name, p = dir ++ [name] ∧ FinalName name := by
  have hcreated : o.opensPart → ∀ t ∈ s.storage.journal ++ [.create (partPath E.os E.downloadDir o.relPath o.transferId)],
      IsChild E.downloadDir t.path ∧ ∀ p, t = .renameTo p → ∃ dir name, p = dir ++ [name] ∧ FinalName name := by
    intro hopens t ht
    rcases List.mem_append.mp ht with ht | ht
    · exact h.journal t ht
    · rw [List.mem_singleton] at ht
      exact ht ▸ ⟨⟨_, normalise_partPath (hplain hopens).1⟩, nofun⟩
  rcases onOfferReceived_cases E s.mgr s.storage o with
    ⟨st', reason, heq, -, rfl | ⟨hopens, hj⟩⟩ | ⟨-, heq⟩ | ⟨hopens, heq⟩
  · rw [heq]
    exact ⟨h.filed, h.journal⟩
  · rw [heq]
    exact ⟨h.filed, fun t ht => hcreated hopens t (hj ▸ ht)⟩
  · rw [heq]
    exact ⟨h.filed.file nofun, h.journal⟩
  · rw [heq]
    refine ⟨h.filed.file fun p hp => ?_, hcreated hopens⟩
    obtain rfl := Option.some.inj hp
    exact ⟨rfl, hplain hopens⟩

/-- A call keeps it. -/
theorem sound_call {E : FileEnv} {s : Receiver} {c : Call} (h : Sound E s) (hc : PlainIds s c) : Sound E (s.call E c) := by
  have hduring : Sound (E.during c) s := ⟨⟨h.filed.path, h.filed.names⟩, h.journal⟩
  have hback : ∀ m : FileTransferManager, Filed (E.during c) m → Filed E m := fun m hm => ⟨hm.path, hm.names⟩
  by_cases hoffer : ∃ o, c.request = .offer o
  · obtain ⟨o, ho⟩ := hoffer
    have := sound_offer hduring (hc o ho)
    refine ⟨hback _ ?_, ?_⟩ <;> simp only [Receiver.call, ho, serve]
    · exact this.1
    · exact this.2
  · obtain ⟨hinherits, new, hj, hnew⟩ :=
      @clean_serve (E.during c) s.mgr s.storage c.request fun o ho => hoffer ⟨o, ho⟩
    refine ⟨hback _ (hduring.filed.inherits hinherits), fun t ht => ?_⟩
    simp only [Receiver.call, hj, List.mem_append] at ht
    rcases ht with ht | ht
    · exact h.journal t ht
    · exact hduring.filed.tidy (hnew t ht)

/-- It is what is claimed. -/
theorem Sound.confined {E : FileEnv} {s : Receiver} (h : Sound E s) : Confined E s where
  inside := fun t ht => (h.journal t ht).1
  final := fun p hp => (h.journal _ hp).2 p rfl
  apart := by
    intro id₁ id₂ x₁ x₂ p₁ p₂ hx₁ hx₂ hne hp₁ hp₂ heq
    obtain ⟨hplain₁, rfl⟩ := h.filed.path id₁ x₁ p₁ hx₁ hp₁
    obtain ⟨hplain₂, rfl⟩ := h.filed.path id₂ x₂ p₂ hx₂ hp₂
    rw [normalise_partPath hplain₁, normalise_partPath hplain₂] at heq
    refine h.filed.names id₁ id₂ x₁ x₂ hx₁ hx₂ hne (by simp [hp₁]) (by simp [hp₂]) ?_
    simpa using heq

end DownloadPathsAux

open DownloadPathsAux

/-- **Received files stay in the download directory** along every run whose streamed offers have plain ids. -/
theorem confined_of_plain (E : FileEnv) (disk : Fs.Disk Path) {calls : List Call} {s : Receiver}
    (hmeets : Run.Meets (Receiver.step E) PlainIds (.fresh disk) calls)
    (hrun : Run.run (Receiver.step E) (.fresh disk) calls = some s) : Confined E s := by
  refine (Run.meets_invariant (Sound E) ?_ ?_ hmeets hrun).confined
  · intro s c s' hs hc hstep
    exact Option.some.inj hstep ▸ sound_call hs hc
  · exact { filed := ⟨by simp [Receiver.fresh], by simp [Receiver.fresh]⟩, journal := by simp [Receiver.fresh] }

/-! ## A run of each kind -/

/-- A client on Windows. -/
def windowsEnv : FileEnv :=
  { FileEnv.plain with
    os := .windows
    downloadDir := ["C:".toList, "Users".toList, "me".toList, "Downloads".toList] }

/-- An offer of nine MiB. -/
def bigOffer (transferId : String) : Offer where
  peerId := "p"
  roomId := ""
  supernodeId := ""
  transferId := transferId
  relPath := "a"
  sha256 := "00"
  size := 9437184
  totalChunks := 144
  purpose := "file"
  compressed := false
  isDelta := false
  baseSha256 := ""

/-- The call that brings it. -/
def offerCall (transferId : String) : Call := ⟨0, .none, .offer (bigOffer transferId)⟩

/-- An id as the client makes them. -/
theorem confined_plainOffer : Confined windowsEnv ((Receiver.fresh .empty).call windowsEnv (offerCall "0f3a9c")) := by
  have hrun : Run.run (Receiver.step windowsEnv) (.fresh .empty) [offerCall "0f3a9c"] =
      some ((Receiver.fresh .empty).call windowsEnv (offerCall "0f3a9c")) := rfl
  have hmeets : Run.Meets (Receiver.step windowsEnv) PlainIds (.fresh .empty) [offerCall "0f3a9c"] := by
    refine ⟨?_, fun _ _ => trivial⟩
    intro o ho _
    obtain rfl : o = bigOffer "0f3a9c" := (Request.offer.inj ho).symm
    exact ⟨List.all_iff_forall_prop.mp (by decide), by simp [Receiver.fresh]⟩
  exact confined_of_plain windowsEnv .empty hmeets hrun

/-- An id with separators: the `.part` file is created two directories up. -/
theorem confined_fails_escape :
    ¬Confined windowsEnv ((Receiver.fresh .empty).call windowsEnv (offerCall "x/../../evil")) := by
  intro h
  obtain ⟨name, hname⟩ := h.inside (.create (partPath .windows windowsEnv.downloadDir "a" "x/../../evil")) (by decide)
  have hlen := congrArg List.length hname
  rw [List.length_append, List.length_singleton] at hlen
  exact absurd hlen (by decide)

end DoubleSlash.Files
