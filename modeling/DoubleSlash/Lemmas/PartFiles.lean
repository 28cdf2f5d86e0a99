import DoubleSlash.Lemmas.Inbound

/-!
# Whose `.part` file is whose

Several managers may store what they receive on one disk. As long as no two records share a `.part` path (`PartsApart`), work on
one transfer leaves the files of the others alone (`PartsApart.read_kept`, `read_filed`), and whatever a manager does but to file
an offer over another's path keeps them apart (`PartsApart.serve`).
-/

namespace DoubleSlash.Files

open Assoc Fs FileTransferManager

/-- What an operation on `tid` keeps of a manager and the disk; the part of `Within` that also holds of a refused offer. -/
structure Kept (tid : String) (m : FileTransferManager) (d : Disk Path) (m' : FileTransferManager) (d' : Disk Path) : Prop where
  others : ∀ id, id ≠ tid → m'.inbound.lookup id = m.inbound.lookup id
  record : ∀ x', m'.inbound.lookup tid = some x' → ∃ x, m.inbound.lookup tid = some x ∧ Continues x x'
  files : ∀ q i, d.names.lookup q = some i →
    (∀ x, m.inbound.lookup tid = some x → x.sink.handle? ≠ some i ∧ ∀ p, x.sink.partPath? = some p → resolve p ≠ q) →
    d'.names.lookup q = some i ∧ d'.data i = d.data i
  links : ∀ q i, d'.names.lookup q = some i → d.names.lookup q = some i
  next : d'.next = d.next

/-- A record is filed for an offer, with an empty `.part` file of its own if it streams. -/
structure FiledFor (E : FileEnv) (o : Offer) (m : FileTransferManager) (d : Disk Path) (m' : FileTransferManager)
    (d' : Disk Path) : Prop where
  record : ∃ now sink, m'.inbound = m.inbound.insert o.transferId (.new now o sink) ∧
    (sink = .memory ∅ ∧ d' = d ∨
      o.opensPart ∧ sink = .partFile (some (d.openTruncate (resolve (partPath E.os E.downloadDir o.relPath o.transferId))).2)
          (partPath E.os E.downloadDir o.relPath o.transferId) (List.replicate o.totalChunks false) 0 ∧
        d' = (d.openTruncate (resolve (partPath E.os E.downloadDir o.relPath o.transferId))).1)

theorem kept_of_within {tid : String} {m : FileTransferManager} {st : Storage} {o : Outcome} (h : Within tid m st o) :
    Kept tid m st.disk o.mgr o.storage.disk := ⟨h.others, h.record, h.files, h.links, h.next⟩

theorem Kept.refl (tid : String) (m : FileTransferManager) (d : Disk Path) : Kept tid m d m d :=
  ⟨fun _ _ => rfl, fun x' hx' => ⟨x', hx', .refl x'⟩, fun _ _ hq _ => ⟨hq, rfl⟩, fun _ _ hq => hq, rfl⟩

theorem Kept.continues {tid : String} {m m' : FileTransferManager} {d d' : Disk Path} (h : Kept tid m d m' d') {id : String}
    {x' : InboundTransfer} (hx' : m'.inbound.lookup id = some x') : ∃ x, m.inbound.lookup id = some x ∧ Continues x x' := by
  by_cases hid : id = tid
  · subst hid
    exact h.record x' hx'
  · exact ⟨x', h.others id hid ▸ hx', .refl x'⟩

/-- What an offer does to the records: nothing if it is refused, or one is filed. -/
theorem onOfferReceived_kept (E : FileEnv) (m : FileTransferManager) (st : Storage) (o : Offer) :
    (∀ e ∈ (onOfferReceived E m st o).events, e.About o.transferId) ∧
      (onOfferReceived E m st o).mgr.outbound = m.outbound ∧
      (Kept o.transferId m st.disk (onOfferReceived E m st o).mgr (onOfferReceived E m st o).storage.disk ∨
        FiledFor E o m st.disk (onOfferReceived E m st o).mgr (onOfferReceived E m st o).storage.disk) := by
  have hfiled : ∀ st' sink, ∀ e ∈ (file E m st' o sink).events, e.About o.transferId := by
    intro st' sink e he
    rcases List.mem_cons.mp he with rfl | he
    · exact trivial
    · split at he
      · rw [List.mem_singleton] at he
        subst he
        simp [TransferEvent.About, Protocol.Payload.strOr, Protocol.Payload.get, Protocol.Json.asStr]
      · cases he
  rcases onOfferReceived_cases E m st o with ⟨st', reason, heq, hdisk, -⟩ | ⟨-, heq⟩ | ⟨hopens, heq⟩
  · rw [heq]
    refine ⟨?_, rfl, Or.inl (hdisk ▸ Kept.refl o.transferId m st.disk)⟩
    simp [refuse, TransferEvent.About, Protocol.Payload.strOr, Protocol.Payload.get, Protocol.Json.asStr]
  · rw [heq]
    exact ⟨hfiled _ _, rfl, Or.inr ⟨E.now, _, rfl, Or.inl ⟨rfl, rfl⟩⟩⟩
  · rw [heq]
    exact ⟨hfiled _ _, rfl, Or.inr ⟨E.now, _, rfl, Or.inr ⟨hopens, rfl, rfl⟩⟩⟩

section

variable {ι : Type}

/-- Open files are linked at their own `.part` paths only, no two records share a `.part` path, and a record is closed before it
is verified. -/
structure PartsApart (ms : ι → FileTransferManager) (d : Disk Path) : Prop where
  homes : ∀ j id x i p q, (ms j).inbound.lookup id = some x → x.sink.handle? = some i → x.sink.partPath? = some p →
    d.names.lookup q = some i → q = resolve p
  apart : ∀ j₁ id₁ x₁ p₁ j₂ id₂ x₂ p₂, (ms j₁).inbound.lookup id₁ = some x₁ → (ms j₂).inbound.lookup id₂ = some x₂ →
    (j₁, id₁) ≠ (j₂, id₂) → x₁.sink.partPath? = some p₁ → x₂.sink.partPath? = some p₂ → resolve p₁ ≠ resolve p₂
  old : ∀ j id x i, (ms j).inbound.lookup id = some x → x.sink.handle? = some i → i < d.next
  closed : ∀ j id x, (ms j).inbound.lookup id = some x → x.ClosedToVerify

/-- The `.part` file an offer would get is nobody else's. -/
def PartFree (E : FileEnv) (ms : ι → FileTransferManager) (j : ι) (o : Offer) : Prop :=
  ∀ j' id x p, (ms j').inbound.lookup id = some x → (j', id) ≠ (j, o.transferId) → x.sink.partPath? = some p →
    resolve p ≠ resolve (partPath E.os E.downloadDir o.relPath o.transferId)

variable {ms ms' : ι → FileTransferManager} {d d' : Disk Path}

theorem PartsApart.start (h : ∀ j id, (ms j).inbound.lookup id = none) : PartsApart ms d := by
  refine ⟨?_, ?_, ?_, ?_⟩
  · intro j id x i p q hx
    rw [h] at hx
    cases hx
  · intro j id x p j₂ id₂ x₂ p₂ hx
    rw [h] at hx
    cases hx
  · intro j id x i hx
    rw [h] at hx
    cases hx
  · intro j id x hx
    rw [h] at hx
    cases hx

/-- Where the records continue and no name is new, files stay apart. -/
theorem PartsApart.shrink (h : PartsApart ms d)
    (hrecord : ∀ j id x', (ms' j).inbound.lookup id = some x' → ∃ x, (ms j).inbound.lookup id = some x ∧ Continues x x')
    (hlinks : ∀ q i, d'.names.lookup q = some i → d.names.lookup q = some i) (hnext : d'.next = d.next) :
    PartsApart ms' d' where
  homes := by
    intro j id x' i p q hx' hi hp hq
    obtain ⟨x, hx, hc⟩ := hrecord j id x' hx'
    rcases hc.writer with hw | hw
    · exact h.homes j id x i p q hx (hw ▸ hi) (hc.part ▸ hp) (hlinks q i hq)
    · rw [hw] at hi
      cases hi
  apart := by
    intro j₁ id₁ y₁ p₁ j₂ id₂ y₂ p₂ hy₁ hy₂ hne hp₁ hp₂
    obtain ⟨x₁, hx₁, hc₁⟩ := hrecord j₁ id₁ y₁ hy₁
    obtain ⟨x₂, hx₂, hc₂⟩ := hrecord j₂ id₂ y₂ hy₂
    exact h.apart j₁ id₁ x₁ p₁ j₂ id₂ x₂ p₂ hx₁ hx₂ hne (hc₁.part ▸ hp₁) (hc₂.part ▸ hp₂)
  old := by
    intro j id x' i hx' hi
    obtain ⟨x, hx, hc⟩ := hrecord j id x' hx'
    rw [hnext]
    rcases hc.writer with hw | hw
    · exact h.old j id x i hx (hw ▸ hi)
    · rw [hw] at hi
      cases hi
  closed := by
    intro j id x' hx'
    obtain ⟨x, hx, hc⟩ := hrecord j id x' hx'
    exact hc.closed (h.closed j id x hx)

/-- Records of which one manager's continue. -/
theorem continues_at {j : ι} (hother : ∀ j', j' ≠ j → ms' j' = ms j')
    (hrecord : ∀ id x', (ms' j).inbound.lookup id = some x' → ∃ x, (ms j).inbound.lookup id = some x ∧ Continues x x')
    (j' : ι) (id : String) (x' : InboundTransfer) (hx' : (ms' j').inbound.lookup id = some x') :
    ∃ x, (ms j').inbound.lookup id = some x ∧ Continues x x' := by
  by_cases hj : j' = j
  · subst hj
    exact hrecord id x' hx'
  · exact ⟨x', hother j' hj ▸ hx', .refl x'⟩

/-- Working within one transfer keeps files apart. -/
theorem PartsApart.kept {j : ι} {tid : String} (h : PartsApart ms d) (hother : ∀ j', j' ≠ j → ms' j' = ms j')
    (hk : Kept tid (ms j) d (ms' j) d') : PartsApart ms' d' :=
  h.shrink (continues_at hother fun _ _ => hk.continues) hk.links hk.next

/-- Working within one transfer leaves the file of another alone. -/
theorem PartsApart.read_kept {j j' : ι} {tid id : String} {x : InboundTransfer} {p : Path} (h : PartsApart ms d)
    (hk : Kept tid (ms j) d (ms' j) d') (hx : (ms j').inbound.lookup id = some x) (hkey : (j', id) ≠ (j, tid))
    (hp : x.sink.partPath? = some p) :
    d'.names.lookup (resolve p) = d.names.lookup (resolve p) ∧ d'.read (resolve p) = d.read (resolve p) := by
  have hsame : ∀ i, d.names.lookup (resolve p) = some i → d'.names.lookup (resolve p) = some i ∧ d'.data i = d.data i := by
    intro i hi
    refine hk.files (resolve p) i hi fun y hy => ⟨fun hh => ?_, fun q hq => ?_⟩
    · cases hyp : y.sink.partPath? with
      | none =>
        cases hs : y.sink with
        | memory _ => simp [hs, TransferSink.handle?] at hh
        | partFile _ _ _ _ => simp [hs, TransferSink.partPath?] at hyp
      | some q => exact h.apart j' id x p j tid y q hx hy hkey hp hyp (h.homes j tid y i q _ hy hh hyp hi)
    · exact h.apart j tid y q j' id x p hy hx hkey.symm hq hp
  have hlookup : d'.names.lookup (resolve p) = d.names.lookup (resolve p) := by
    cases hl : d.names.lookup (resolve p) with
    | some i => exact (hsame i hl).1
    | none =>
      cases hl' : d'.names.lookup (resolve p) with
      | none => rfl
      | some i =>
        rw [hk.links _ i hl'] at hl
        cases hl
  exact ⟨hlookup, Disk.read_eq_of_lookup hlookup fun i hi => (hsame i hi).2⟩

/-- Filing an offer leaves the file of another transfer alone. -/
theorem PartsApart.read_filed {E : FileEnv} {o : Offer} {j j' : ι} {id : String} {x : InboundTransfer} {p : Path}
    (hf : FiledFor E o (ms j) d (ms' j) d') (hfree : o.opensPart → PartFree E ms j o) (hx : (ms j').inbound.lookup id = some x)
    (hkey : (j', id) ≠ (j, o.transferId)) (hp : x.sink.partPath? = some p) :
    d'.names.lookup (resolve p) = d.names.lookup (resolve p) ∧ d'.read (resolve p) = d.read (resolve p) := by
  obtain ⟨now, sink, -, hsink⟩ := hf
  rcases hsink with ⟨-, hdisk⟩ | ⟨hopens, -, hdisk⟩ <;> rw [hdisk]
  · exact ⟨rfl, rfl⟩
  · have hne := hfree hopens j' id x p hx hkey hp
    obtain ⟨hlookup, hdata⟩ := Disk.lookup_openTruncate_ne hne
    exact ⟨hlookup, Disk.read_eq_of_lookup hlookup hdata⟩

/-- Filing an offer that gets a `.part` file of its own keeps files apart. -/
theorem PartsApart.filed {E : FileEnv} {j : ι} {o : Offer} (h : PartsApart ms d) (hother : ∀ j', j' ≠ j → ms' j' = ms j')
    (hf : FiledFor E o (ms j) d (ms' j) d') (hfree : o.opensPart → PartFree E ms j o) : PartsApart ms' d' := by
  obtain ⟨now, sink, hins, hsink⟩ := hf
  -- A record is the new one or an old one that is not in its place.
  have hcases : ∀ j' id x', (ms' j').inbound.lookup id = some x' →
      (j', id) = (j, o.transferId) ∧ x' = .new now o sink ∨
        (j', id) ≠ (j, o.transferId) ∧ (ms j').inbound.lookup id = some x' := by
    intro j' id x' hx'
    by_cases hj : j' = j
    · subst hj
      rw [hins] at hx'
      by_cases hid : id = o.transferId
      · subst hid
        rw [AList.lookup_insert] at hx'
        exact Or.inl ⟨rfl, (Option.some.inj hx').symm⟩
      · rw [AList.lookup_insert_ne hid] at hx'
        exact Or.inr ⟨fun heq => hid (Prod.mk.inj heq).2, hx'⟩
    · exact Or.inr ⟨fun heq => hj (Prod.mk.inj heq).1, hother j' hj ▸ hx'⟩
  have hpart : ∀ p, sink.partPath? = some p →
      p = partPath E.os E.downloadDir o.relPath o.transferId ∧ PartFree E ms j o := by
    rcases hsink with ⟨rfl, -⟩ | ⟨hopens, rfl, -⟩
    · exact nofun
    · exact fun p hp => ⟨(Option.some.inj hp).symm, hfree hopens⟩
  have hlinked : ∀ i, sink.handle? = some i →
      d'.names.lookup (resolve (partPath E.os E.downloadDir o.relPath o.transferId)) = some i := by
    rcases hsink with ⟨rfl, -⟩ | ⟨-, rfl, hdisk⟩
    · exact nofun
    · intro i hi
      obtain rfl := Option.some.inj hi
      rw [hdisk]
      exact (Disk.read_openTruncate_self _ _).1
  have hnext : d.next ≤ d'.next := by
    rcases hsink with ⟨-, hdisk⟩ | ⟨-, -, hdisk⟩ <;> rw [hdisk]
    exact (Disk.openTruncate_file _ _).1
  -- An old file's links are old, unless it is the one that was opened.
  have hlinks : ∀ q i, i < d.next → d'.names.lookup q = some i → d.names.lookup q = some i := by
    intro q i hold hq
    rcases hsink with ⟨-, hdisk⟩ | ⟨-, -, hdisk⟩ <;> rw [hdisk] at hq
    · exact hq
    · by_cases hqp : q = resolve (partPath E.os E.downloadDir o.relPath o.transferId)
      · rw [hqp, (Disk.read_openTruncate_self _ _).1] at hq
        obtain rfl := Option.some.inj hq
        rcases (Disk.openTruncate_file d (resolve (partPath E.os E.downloadDir o.relPath o.transferId))).2 with hl | hl
        · rw [hqp]
          exact hl
        · omega
      · rw [(Disk.lookup_openTruncate_ne hqp).1] at hq
        exact hq
  refine ⟨?_, ?_, ?_, ?_⟩
  · intro j' id x' i p q hx' hi hp hq
    rcases hcases j' id x' hx' with ⟨-, rfl⟩ | ⟨-, hx⟩
    · rw [(hpart p hp).1]
      exact d'.single hq (hlinked i hi)
    · exact h.homes j' id x' i p q hx hi hp (hlinks q i (h.old j' id x' i hx hi) hq)
  · intro j₁ id₁ y₁ p₁ j₂ id₂ y₂ p₂ hy₁ hy₂ hne hp₁ hp₂
    rcases hcases j₁ id₁ y₁ hy₁ with ⟨hk₁, rfl⟩ | ⟨hk₁, hx₁⟩
    · rcases hcases j₂ id₂ y₂ hy₂ with ⟨hk₂, rfl⟩ | ⟨hk₂, hx₂⟩
      · exact absurd (hk₁.trans hk₂.symm) hne
      · rw [(hpart p₁ hp₁).1]
        exact ((hpart p₁ hp₁).2 j₂ id₂ y₂ p₂ hx₂ hk₂ hp₂).symm
    · rcases hcases j₂ id₂ y₂ hy₂ with ⟨hk₂, rfl⟩ | ⟨hk₂, hx₂⟩
      · rw [(hpart p₂ hp₂).1]
        exact (hpart p₂ hp₂).2 j₁ id₁ y₁ p₁ hx₁ hk₁ hp₁
      · exact h.apart j₁ id₁ y₁ p₁ j₂ id₂ y₂ p₂ hx₁ hx₂ hne hp₁ hp₂
  · intro j' id x' i hx' hi
    rcases hcases j' id x' hx' with ⟨-, rfl⟩ | ⟨-, hx⟩
    · exact d'.fresh (hlinked i hi)
    · exact Nat.lt_of_lt_of_le (h.old j' id x' i hx hi) hnext
  · intro j' id x' hx'
    rcases hcases j' id x' hx' with ⟨-, rfl⟩ | ⟨-, hx⟩
    · intro hv
      simp only [InboundTransfer.new] at hv
      split at hv <;> cases hv
    · exact h.closed j' id x' hx

/-- The name `promote_part_file` gives the file. -/
def finalPath (E : FileEnv) (st : Storage) (part : Path) (relPath : String) : Path :=
  uniqueDestPath E.os st.exists (parent part) (safeFileName relPath)

/-- Publishing a file renames it, or leaves the disk as it is. -/
theorem promotePartFile_disk (E : FileEnv) (st : Storage) (part : Path) (relPath : String) :
    (promotePartFile E st part relPath).1.disk = st.disk ∧ (promotePartFile E st part relPath).2 = none ∨
      ∃ i, st.disk.names.lookup (resolve part) = some i ∧
        (promotePartFile E st part relPath).1.disk = st.disk.rename (resolve part) (resolve (finalPath E st part relPath)) ∧
        (promotePartFile E st part relPath).2 = some (finalPath E st part relPath) := by
  unfold promotePartFile
  simp only
  split
  · exact Or.inl ⟨rfl, rfl⟩
  · rename_i h
    simp only [not_or, Bool.not_eq_false] at h
    obtain ⟨i, hi⟩ := Option.isSome_iff_exists.mp h.2
    exact Or.inr ⟨i, hi, rfl, rfl⟩

/-- Publishing a `.part` file keeps files apart: nobody has it open. -/
theorem PartsApart.promote {E : FileEnv} {st : Storage} {j : ι} {tid : String} {x : InboundTransfer} {part : Path}
    (h : PartsApart ms st.disk) (hx : (ms j).inbound.lookup tid = some x) (hv : x.state = .verifying)
    (hp : x.sink.partPath? = some part) : PartsApart ms (promotePartFile E st part x.relPath).1.disk := by
  rcases promotePartFile_disk E st part x.relPath with ⟨hdisk, -⟩ | ⟨i, hi, hdisk, -⟩ <;> rw [hdisk]
  · exact h
  refine { h with homes := ?_, old := ?_ }
  · intro j' id y k p q hy hk hyp hq
    have hki : k ≠ i := by
      rintro rfl
      -- Whoever has the file open has it as its own `.part` file: that is the transfer itself, which closed it.
      have hhome := h.homes j' id y k p _ hy hk hyp hi
      by_cases hkey : (j', id) = (j, tid)
      · obtain ⟨rfl, rfl⟩ := Prod.mk.inj hkey
        obtain rfl : y = x := Option.some.inj (hy.symm.trans hx)
        rw [h.closed _ _ _ hx hv] at hk
        cases hk
      · exact h.apart j' id y p j tid x part hy hx hkey hyp hp hhome.symm
    rw [Disk.lookup_rename hi] at hq
    split at hq
    · exact absurd (Option.some.inj hq).symm hki
    split at hq
    · cases hq
    · exact h.homes j' id y k p q hy hk hyp hq
  · intro j' id y k hy hk
    rw [Disk.next_rename]
    exact h.old j' id y k hy hk

/-- Publishing a file leaves other files alone, but for one that has the name it gets. -/
theorem promotePartFile_read {E : FileEnv} {st : Storage} {part : Path} {relPath : String} {q : Path} (hpart : q ≠ resolve part)
    (hfinal : q ≠ resolve (finalPath E st part relPath)) :
    (promotePartFile E st part relPath).1.disk.names.lookup q = st.disk.names.lookup q ∧
      (promotePartFile E st part relPath).1.disk.read q = st.disk.read q := by
  rcases promotePartFile_disk E st part relPath with ⟨hdisk, -⟩ | ⟨i, hi, hdisk, -⟩ <;> rw [hdisk]
  · exact ⟨rfl, rfl⟩
  · have hlookup : (st.disk.rename (resolve part) (resolve (finalPath E st part relPath))).names.lookup q =
        st.disk.names.lookup q := by
      rw [Disk.lookup_rename hi, if_neg hfinal, if_neg hpart]
    exact ⟨hlookup, Disk.read_eq_of_lookup hlookup fun k _ => by simp⟩

theorem removeFiles_links (E : FileEnv) (paths : List Path) (st : Storage) :
    (∀ q i, (paths.foldl (fun st path => st.removeFile E path) st).disk.names.lookup q = some i →
      st.disk.names.lookup q = some i) ∧
      (paths.foldl (fun st path => st.removeFile E path) st).disk.next = st.disk.next := by
  induction paths generalizing st with
  | nil => exact ⟨fun _ _ hq => hq, rfl⟩
  | cons p paths ih =>
    obtain ⟨hlinks, hnext⟩ := ih (st.removeFile E p)
    rw [List.foldl_cons]
    constructor
    · intro q i hq
      have hq := hlinks q i hq
      simp only [Storage.removeFile] at hq
      split at hq
      · exact hq
      · rw [Disk.lookup_remove] at hq
        split at hq
        · cases hq
        · exact hq
    · rw [hnext]
      simp only [Storage.removeFile]
      split <;> rfl

/-- What `gc` keeps of the records. -/
theorem gc_record {E : FileEnv} {m : FileTransferManager} {st : Storage} {id : String} {x' : InboundTransfer}
    (h : (gc E m st).mgr.inbound.lookup id = some x') :
    ∃ x, m.inbound.lookup id = some x ∧ x' = stampInbound E.now x ∧ keepsInbound E.now x' = true := by
  simp only [gc] at h
  rw [lookup_retain, Option.filter_eq_some_iff, lookup_mapValues, Option.map_eq_some_iff] at h
  obtain ⟨⟨x, hx, rfl⟩, hkeep⟩ := h
  exact ⟨x, hx, rfl, hkeep⟩

theorem continues_stampInbound (now : ℚ) (x : InboundTransfer) : Continues x (stampInbound now x) := by
  unfold stampInbound
  split
  · exact .of_sink rfl rfl (Or.inl rfl)
  · exact .refl x

theorem continues_stalled (E : FileEnv) (x : InboundTransfer) :
    Continues x (if x.isStalled E.now then stalledPull E x else x) := by
  split
  · unfold stalledPull
    split
    · exact .of_sink rfl rfl (by simp)
    · exact .of_sink rfl rfl (by simp)
  · exact .refl x

/-- A hash result keeps files apart. -/
theorem PartsApart.hashed {E : FileEnv} {st : Storage} {j : ι} {tid : String} {actual : Except String String}
    (h : PartsApart ms st.disk) (hother : ∀ j', j' ≠ j → ms' j' = ms j')
    (hj : ms' j = (onFileHashed E (ms j) st tid actual).mgr) :
    PartsApart ms' (onFileHashed E (ms j) st tid actual).storage.disk := by
  have hthen : ∀ o : Outcome, ∀ st₁ : Storage, PartsApart ms st₁.disk → Within tid (ms j) st₁ o → ms' j = o.mgr →
      PartsApart ms' o.storage.disk := by
    intro o st₁ h₁ hw ho
    have hk := kept_of_within hw
    rw [← ho] at hk
    exact h₁.kept hother hk
  rcases onFileHashed_cases E (ms j) st tid actual with hw | ⟨x, part, hx, hv, hp, -, hpublish⟩
  · exact hthen _ st h hw hj
  -- The file is renamed first; what follows acts within the transfer.
  rcases hpublish with ⟨reason, -, heq⟩ | ⟨dest, -, heq⟩ <;> rw [heq] at hj ⊢
  · exact hthen _ _ (h.promote hx hv hp) (within_failInbound E _ _ tid reason) hj
  · exact hthen _ _ (h.promote hx hv hp) (within_publish E _ _ tid hx _) hj

/-- **Whatever a manager is asked, files stay apart**, unless an offer gets another transfer's `.part` file. -/
theorem PartsApart.serve {E : FileEnv} {st : Storage} {j : ι} {r : Request} (h : PartsApart ms st.disk)
    (hother : ∀ j', j' ≠ j → ms' j' = ms j') (hj : ms' j = (serve E (ms j) st r).mgr)
    (hoffer : ∀ o, r = .offer o → o.opensPart → PartFree E ms j o) :
    PartsApart ms' (Files.serve E (ms j) st r).storage.disk := by
  have hwithin : ∀ {tid : String} {o : Outcome}, Within tid (ms j) st o → ms' j = o.mgr → PartsApart ms' o.storage.disk := by
    intro tid o hw ho
    have hk := kept_of_within hw
    rw [← ho] at hk
    exact h.kept hother hk
  have hsame : (ms' j).inbound = (ms j).inbound → PartsApart ms' st.disk := by
    intro hin
    refine h.shrink (continues_at hother fun id x' hx' => ⟨x', hin ▸ hx', .refl x'⟩) (fun _ _ hq => hq) rfl
  cases r with
  | offer o =>
    obtain ⟨-, -, hk | hf⟩ := onOfferReceived_kept E (ms j) st o
    · exact h.kept hother (hj ▸ hk)
    · exact h.filed hother (hj ▸ hf) (hoffer o rfl)
  | accept tid => exact hwithin (within_acceptTransfer E _ _ tid) hj
  | acceptLocally tid => exact hwithin (within_acceptTransferLocally E _ _ tid) hj
  | reject tid reason => exact hwithin (within_rejectTransfer _ _ tid reason) hj
  | cancel tid => exact hwithin (within_cancelTransfer _ _ tid) hj
  | discard tid => exact hwithin (within_discardInbound E _ _ tid) hj
  | chunk tid index data => exact hwithin (within_onChunkReceived E _ _ tid index data) hj
  | chunkBytes tid index data => exact hwithin (within_onChunkBytesReceived E _ _ tid index data) hj
  | complete tid => exact hwithin (within_onCompleteReceived E _ _ tid) hj
  | hashed tid actual => exact h.hashed hother hj
  | stall =>
    refine h.shrink (continues_at hother fun id x' hx' => ?_) (fun _ _ hq => hq) rfl
    rw [hj] at hx'
    simp only [Files.serve, takeStalledInbound] at hx'
    rw [lookup_mapValues, Option.map_eq_some_iff] at hx'
    obtain ⟨x, hx, rfl⟩ := hx'
    exact ⟨x, hx, continues_stalled E x⟩
  | retry tid => exact hwithin (within_armRetry E _ _ tid) hj
  | gc =>
    obtain ⟨hlinks, hnext⟩ := removeFiles_links E (orphaned E.now st (mapValues (ms j).inbound (stampInbound E.now))) st
    refine h.shrink (continues_at hother fun id x' hx' => ?_) hlinks hnext
    rw [hj] at hx'
    obtain ⟨x, hx, rfl, -⟩ := gc_record hx'
    exact ⟨x, hx, continues_stampInbound E.now x⟩
  | setOldFileData relPath data => exact hsame (by rw [hj]; rfl)
  | sending outbound revoked => exact hsame (by rw [hj]; rfl)

end

end DoubleSlash.Files
