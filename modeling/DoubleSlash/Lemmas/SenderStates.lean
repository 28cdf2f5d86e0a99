import DoubleSlash.Lemmas.Reassembly
import DoubleSlash.Lib.Least
import DoubleSlash.Lib.Total
import Mathlib.Data.List.Induction

/-!
# The counters of a reassembler

The representation invariant of a sender's state, and that every operation on it keeps the invariant.
-/

namespace DoubleSlash.Video

open Assoc

/-- The counters of a partial frame are those of its chunks, one is still missing, and it has a signature when it has the first. -/
structure PartialFrame.Sound (p : PartialFrame) : Prop where
  slots : p.chunks.length ≤ maxFragsPerFrame
  received : p.received = p.chunks.countP Option.isSome
  missing : p.received < p.chunks.length
  bytes : p.bytes = (p.chunks.map fun chunk => (chunk.getD []).length).sum
  signature : p.signature.isSome = (p.chunks[0]?.join).isSome

/-- The counter of a sender is that of its partial frames, and within its bounds. -/
structure SenderState.Sound (s : SenderState) : Prop where
  few : s.partials.entries.length ≤ maxInFlightPerSender
  bytes : s.bytes = total s.partials PartialFrame.bytes
  cap : s.bytes ≤ maxPartialBytesPerSender
  partials : ∀ seq p, s.partials.lookup seq = some p → p.Sound

/-- What holds of a reassembler at all times. -/
structure Reassembler.Sound (r : Reassembler) : Prop where
  few : r.senders.entries.length ≤ maxSenders
  senders : ∀ sender s, r.senders.lookup sender = some s → s.Sound

/-! ### What the operations leave of the partial frames -/

/-- No partial frame is new or changed. -/
def Shrinks (s s' : SenderState) : Prop := ∀ seq p, s'.partials.lookup seq = some p → s.partials.lookup seq = some p

theorem shrinks_refl (s : SenderState) : Shrinks s s := fun _ _ h => h

theorem Shrinks.trans {s₁ s₂ s₃ : SenderState} (h : Shrinks s₁ s₂) (h' : Shrinks s₂ s₃) : Shrinks s₁ s₃ :=
  fun seq p hp => h seq p (h' seq p hp)

theorem shrinks_dropPartial (s : SenderState) (seq : UInt32) : Shrinks s (s.dropPartial seq) := by
  intro q p h
  unfold SenderState.dropPartial at h
  split at h
  · exact h
  · by_cases hq : q = seq
    · subst hq
      rw [AList.lookup_erase] at h
      cases h
    · rw [AList.lookup_erase_ne hq] at h
      exact h

theorem shrinks_dropPartials (seqs : List UInt32) (s : SenderState) : Shrinks s (seqs.foldl SenderState.dropPartial s) := by
  induction seqs generalizing s with
  | nil => exact shrinks_refl s
  | cons seq seqs ih => exact (shrinks_dropPartial s seq).trans (ih _)

theorem shrinks_evictOldest (s : SenderState) (order : IterOrder) : Shrinks s (s.evictOldest order) := by
  unfold SenderState.evictOldest
  split
  · exact shrinks_refl s
  · exact shrinks_dropPartial s _

theorem shrinks_makeRoom (s : SenderState) (order : IterOrder) (seq : UInt32) : Shrinks s (s.makeRoom order seq) := by
  unfold SenderState.makeRoom
  split
  · exact shrinks_evictOldest s order
  · exact shrinks_refl s

theorem shrinks_shed (order : IterOrder) (need fuel : Nat) (s : SenderState) : Shrinks s (SenderState.shed order need fuel s) := by
  induction fuel generalizing s with
  | zero => exact shrinks_refl s
  | succ fuel ih =>
    unfold SenderState.shed
    split
    · exact (shrinks_evictOldest s order).trans (ih _)
    · exact shrinks_refl s

theorem shrinks_completed (s : SenderState) (seq : UInt32) : Shrinks s (s.completed seq) := by
  unfold SenderState.completed
  dsimp only
  split
  · exact (shrinks_dropPartial s seq).trans
      (shrinks_dropPartials _ { s.dropPartial seq with lastCompleted := some seq })
  · exact shrinks_dropPartial s seq

theorem shrinks_dropExpired (s : SenderState) (now : Nat) : Shrinks s (s.dropExpired now) := shrinks_dropPartials _ s

namespace SenderState

/-! ### The counters -/

theorem sound_default : SenderState.default.Sound where
  few := Nat.zero_le _
  bytes := rfl
  cap := Nat.zero_le _
  partials := fun seq p h => by cases h

/-! ### Dropping -/

theorem dropPartial_of_none {s : SenderState} {seq : UInt32} (h : s.partials.lookup seq = none) : s.dropPartial seq = s := by
  rw [dropPartial, h]

theorem dropPartial_of_some {s : SenderState} {seq : UInt32} {p : PartialFrame} (h : s.partials.lookup seq = some p) :
    s.dropPartial seq = { s with partials := s.partials.erase seq, bytes := s.bytes - p.bytes } := by
  rw [dropPartial, h]

theorem partials_dropPartial (s : SenderState) (seq : UInt32) : (s.dropPartial seq).partials = s.partials.erase seq := by
  cases h : s.partials.lookup seq with
  | none => rw [dropPartial_of_none h, erase_of_lookup_none h]
  | some p => rw [dropPartial_of_some h]

theorem lastCompleted_dropPartial (s : SenderState) (seq : UInt32) : (s.dropPartial seq).lastCompleted = s.lastCompleted := by
  cases h : s.partials.lookup seq with
  | none => rw [dropPartial_of_none h]
  | some p => rw [dropPartial_of_some h]

theorem lookup_dropPartial {s : SenderState} {seq q : UInt32} {p : PartialFrame}
    (h : (s.dropPartial seq).partials.lookup q = some p) : q ≠ seq ∧ s.partials.lookup q = some p := by
  rw [partials_dropPartial] at h
  by_cases hq : q = seq
  · rw [hq, AList.lookup_erase] at h
    cases h
  · rw [AList.lookup_erase_ne hq] at h
    exact ⟨hq, h⟩

theorem sound_dropPartial {s : SenderState} (h : s.Sound) (seq : UInt32) : (s.dropPartial seq).Sound := by
  cases hp : s.partials.lookup seq with
  | none => rwa [dropPartial_of_none hp]
  | some p =>
    have htotal : s.bytes = p.bytes + total (s.partials.erase seq) PartialFrame.bytes := h.bytes.trans (total_erase hp _)
    refine ⟨?_, ?_, ?_, fun q p' hp' => h.partials q p' (lookup_dropPartial hp').2⟩
    · rw [partials_dropPartial]
      exact Nat.le_trans (length_erase_le _ _) h.few
    · rw [dropPartial_of_some hp]
      show s.bytes - p.bytes = total (s.partials.erase seq) PartialFrame.bytes
      omega
    · rw [dropPartial_of_some hp]
      exact Nat.le_trans (Nat.sub_le _ _) h.cap

theorem sound_dropPartials {s : SenderState} (h : s.Sound) (seqs : List UInt32) : (seqs.foldl dropPartial s).Sound := by
  induction seqs generalizing s with
  | nil => exact h
  | cons seq seqs ih => exact ih (sound_dropPartial h seq)

theorem lastCompleted_dropPartials (s : SenderState) (seqs : List UInt32) :
    (seqs.foldl dropPartial s).lastCompleted = s.lastCompleted := by
  induction seqs generalizing s with
  | nil => rfl
  | cons seq seqs ih => rw [List.foldl_cons, ih, lastCompleted_dropPartial]

/-- What is dropped is gone. -/
theorem lookup_dropPartials_of_mem {s : SenderState} {seqs : List UInt32} {seq : UInt32} (h : seq ∈ seqs) {p : PartialFrame} :
    (seqs.foldl dropPartial s).partials.lookup seq ≠ some p := by
  induction seqs generalizing s with
  | nil => cases h
  | cons q seqs ih =>
    rcases List.mem_cons.mp h with rfl | h
    · intro hp
      exact absurd rfl (lookup_dropPartial (shrinks_dropPartials seqs _ _ _ hp)).1
    · exact ih h

theorem sound_dropExpired {s : SenderState} (h : s.Sound) (now : Nat) : (s.dropExpired now).Sound := sound_dropPartials h _

/-! ### Evicting the oldest -/

theorem minByKey_eq {α : Type} (key : α → Nat) (l : List α) : minByKey key l = Least.leastBy key l := by
  induction l with
  | nil => rfl
  | cons x rest ih =>
    rewrite [minByKey, Least.leastBy, ih]
    cases Least.leastBy key rest <;> rfl

/-- What goes is there and has waited longest; when nothing is there nothing goes. -/
theorem evictOldest_cases (s : SenderState) (order : IterOrder) :
    (s.partials.entries = [] ∧ s.evictOldest order = s) ∨
      ∃ seq p, s.partials.lookup seq = some p ∧ s.evictOldest order = s.dropPartial seq ∧
        ∀ q p', s.partials.lookup q = some p' → p.firstSeen ≤ p'.firstSeen := by
  unfold evictOldest
  rw [minByKey_eq]
  cases hleast : Least.leastBy (fun e : (_ : UInt32) × PartialFrame => e.2.firstSeen) (order.iter s.partials.entries) with
  | none =>
    have hnil : order.iter s.partials.entries = [] := Least.leastBy_eq_none_iff.mp hleast
    exact Or.inl ⟨List.nil_perm.mp (hnil ▸ order.perm s.partials.entries), rfl⟩
  | some e =>
    obtain ⟨hmem, hle⟩ := Least.leastBy_spec hleast
    refine Or.inr ⟨e.1, e.2, mem_entries_iff.mp ((order.perm _).mem_iff.mp hmem), rfl, fun q p' hp' => ?_⟩
    exact hle ⟨q, p'⟩ ((order.perm _).mem_iff.mpr (mem_entries_iff.mpr hp'))

theorem sound_evictOldest {s : SenderState} (h : s.Sound) (order : IterOrder) : (s.evictOldest order).Sound := by
  rcases evictOldest_cases s order with ⟨-, heq⟩ | ⟨seq, p, -, heq, -⟩
  · rwa [heq]
  · rw [heq]
    exact sound_dropPartial h seq

theorem lastCompleted_evictOldest (s : SenderState) (order : IterOrder) :
    (s.evictOldest order).lastCompleted = s.lastCompleted := by
  rcases evictOldest_cases s order with ⟨-, heq⟩ | ⟨seq, p, -, heq, -⟩
  · rw [heq]
  · rw [heq, lastCompleted_dropPartial]

/-- One partial frame goes, when there is one. -/
theorem length_evictOldest (s : SenderState) (order : IterOrder) :
    (s.evictOldest order).partials.entries.length = s.partials.entries.length - 1 := by
  rcases evictOldest_cases s order with ⟨hnil, heq⟩ | ⟨seq, p, hp, heq, -⟩
  · rw [heq, hnil, List.length_nil]
  · rw [heq, partials_dropPartial, ← length_erase hp, Nat.add_sub_cancel]

/-! ### Making room, opening and shedding -/

theorem sound_makeRoom {s : SenderState} (h : s.Sound) (order : IterOrder) (seq : UInt32) : (s.makeRoom order seq).Sound := by
  unfold makeRoom
  split
  · exact sound_evictOldest h order
  · exact h

theorem lastCompleted_makeRoom (s : SenderState) (order : IterOrder) (seq : UInt32) :
    (s.makeRoom order seq).lastCompleted = s.lastCompleted := by
  unfold makeRoom
  split
  · exact lastCompleted_evictOldest s order
  · rfl

/-- There is room for a partial frame that is not there. -/
theorem room_makeRoom {s : SenderState} (h : s.Sound) (order : IterOrder) (seq : UInt32) :
    (s.makeRoom order seq).partials.lookup seq = none →
      (s.makeRoom order seq).partials.entries.length < maxInFlightPerSender := by
  have hpos : 0 < maxInFlightPerSender := by decide
  unfold makeRoom
  split
  · intro _
    have hfew := h.few
    rw [length_evictOldest]
    omega
  · rename_i hroom
    intro hnone
    rw [hnone] at hroom
    simpa using hroom

theorem lastCompleted_openPartial (s : SenderState) (hdr : FragmentHeader) (now : Nat) :
    (s.openPartial hdr now).lastCompleted = s.lastCompleted := by
  unfold openPartial
  split <;> rfl

theorem sum_replicate_none (n : Nat) :
    ((List.replicate n (none : Option (List UInt8))).map fun chunk => (chunk.getD []).length).sum = 0 := by
  simp

theorem sound_openPartial {s : SenderState} (h : s.Sound) {hdr : FragmentHeader} (hcount : 0 < hdr.fragCount)
    (hmax : hdr.fragCount ≤ maxFragsPerFrame) (now : Nat)
    (hroom : s.partials.lookup hdr.frameSeq = none → s.partials.entries.length < maxInFlightPerSender) :
    (s.openPartial hdr now).Sound := by
  unfold openPartial
  split
  · exact h
  · rename_i hnone
    refine ⟨?_, ?_, h.cap, fun q p hp => ?_⟩
    · show (s.partials.insert hdr.frameSeq _).entries.length ≤ _
      rw [length_insert, erase_of_lookup_none hnone]
      exact hroom hnone
    · show s.bytes = total (s.partials.insert hdr.frameSeq _) PartialFrame.bytes
      rw [total_insert, erase_of_lookup_none hnone, h.bytes, Nat.zero_add]
    · by_cases hq : q = hdr.frameSeq
      · subst hq
        rw [AList.lookup_insert] at hp
        obtain rfl := Option.some.inj hp
        refine ⟨?_, ?_, ?_, ?_, ?_⟩
        · rwa [List.length_replicate]
        · simp [List.countP_replicate]
        · rwa [List.length_replicate]
        · exact (sum_replicate_none _).symm
        · simp [hcount]
      · rw [AList.lookup_insert_ne hq] at hp
        exact h.partials q p hp

theorem sound_shed {s : SenderState} (h : s.Sound) (order : IterOrder) (need fuel : Nat) : (shed order need fuel s).Sound := by
  induction fuel generalizing s with
  | zero => exact h
  | succ fuel ih =>
    unfold shed
    split
    · exact ih (sound_evictOldest h order)
    · exact h

theorem lastCompleted_shed (order : IterOrder) (need fuel : Nat) (s : SenderState) :
    (shed order need fuel s).lastCompleted = s.lastCompleted := by
  induction fuel generalizing s with
  | zero => rfl
  | succ fuel ih =>
    unfold shed
    split
    · rw [ih, lastCompleted_evictOldest]
    · rfl

/-! ### Storing -/

theorem countP_set_isSome {l : List (Option (List UInt8))} {i : Nat} (hi : l[i]? = some none) (chunk : List UInt8) :
    (l.set i (some chunk)).countP Option.isSome = l.countP Option.isSome + 1 := by
  induction l generalizing i with
  | nil => cases hi
  | cons x l ih =>
    cases i with
    | zero =>
      obtain rfl : x = none := by simpa using hi
      simp
    | succ i =>
      rw [List.getElem?_cons_succ] at hi
      rw [List.set_cons_succ, List.countP_cons, List.countP_cons, ih hi]
      omega

theorem sum_set_chunk {l : List (Option (List UInt8))} {i : Nat} (hi : l[i]? = some none) (chunk : List UInt8) :
    ((l.set i (some chunk)).map fun c => (c.getD []).length).sum = (l.map fun c => (c.getD []).length).sum + chunk.length := by
  induction l generalizing i with
  | nil => cases hi
  | cons x l ih =>
    cases i with
    | zero =>
      obtain rfl : x = none := by simpa using hi
      simp [Nat.add_comm]
    | succ i =>
      rw [List.getElem?_cons_succ] at hi
      rw [List.set_cons_succ, List.map_cons, List.map_cons, List.sum_cons, List.sum_cons, ih hi]
      omega

theorem exists_chunks {l : List (Option (List UInt8))} (h : l.countP Option.isSome = l.length) : ∃ chunks, l.mapM id = some chunks := by
  have hall : ∀ c ∈ l, c.isSome = true := List.countP_eq_length.mp h
  have hmap : l = (l.map fun c => c.getD []).map some := by
    rw [List.map_map]
    refine (List.map_id l).symm.trans (List.map_congr_left fun c hc => ?_)
    obtain ⟨chunk, rfl⟩ := Option.isSome_iff_exists.mp (hall c hc)
    rfl
  exact ⟨_, hmap ▸ Split.mapM_id_map_some _⟩

/-- What a fragment must be for the partial frame it is filed with. -/
structure Fits (p : PartialFrame) (hdr : FragmentHeader) : Prop where
  count : p.chunks.length = hdr.fragCount
  idx : hdr.fragIdx < hdr.fragCount
  free : (p.chunks[hdr.fragIdx]?.join).isSome = false
  signature : hdr.signature.isSome = decide (hdr.fragIdx = 0)

variable {p : PartialFrame} {hdr : FragmentHeader} {chunk : List UInt8}

theorem Fits.slot (h : Fits p hdr) : p.chunks[hdr.fragIdx]? = some none := by
  have hfree := h.free
  have hlt : hdr.fragIdx < p.chunks.length := h.count ▸ h.idx
  rw [List.getElem?_eq_getElem hlt] at hfree ⊢
  simpa using hfree

/-- The counters of a filled partial frame; it is whole when nothing is missing. -/
structure Filled (p : PartialFrame) (hdr : FragmentHeader) (chunk : List UInt8) : Prop where
  slots : (fill p hdr chunk).chunks.length = hdr.fragCount
  received : (fill p hdr chunk).received = (fill p hdr chunk).chunks.countP Option.isSome
  bytes : (fill p hdr chunk).bytes = ((fill p hdr chunk).chunks.map fun c => (c.getD []).length).sum
  signature : (fill p hdr chunk).signature.isSome = ((fill p hdr chunk).chunks[0]?.join).isSome

theorem filled (hp : p.Sound) (h : Fits p hdr) (chunk : List UInt8) : Filled p hdr chunk where
  slots := (List.length_set ..).trans h.count
  received := by
    show p.received + 1 = _
    rw [hp.received]
    exact (countP_set_isSome h.slot chunk).symm
  bytes := by
    show p.bytes + chunk.length = _
    rw [hp.bytes]
    exact (sum_set_chunk h.slot chunk).symm
  signature := by
    show (hdr.signature.or p.signature).isSome = ((p.chunks.set hdr.fragIdx (some chunk))[0]?.join).isSome
    rw [Option.isSome_or, h.signature, hp.signature]
    by_cases h0 : hdr.fragIdx = 0
    · have hlt : 0 < p.chunks.length := by
        have := h.idx
        have := h.count
        omega
      rw [h0, List.getElem?_set_self hlt]
      rfl
    · rw [List.getElem?_set_ne h0, decide_eq_false h0, Bool.false_or]

/-- The filled partial frame is sound unless it is whole. -/
theorem Filled.sound (hp : p.Sound) (hfits : Fits p hdr) (h : Filled p hdr chunk)
    (hmissing : (fill p hdr chunk).received < hdr.fragCount) : (fill p hdr chunk).Sound where
  slots := by
    rw [h.slots, ← hfits.count]
    exact hp.slots
  received := h.received
  missing := h.slots.symm ▸ hmissing
  bytes := h.bytes
  signature := h.signature

/-- A whole frame has its signature and all its chunks. -/
theorem Filled.whole (hfits : Fits p hdr) (h : Filled p hdr chunk) (hwhole : ¬(fill p hdr chunk).received < hdr.fragCount) :
    ∃ signature chunks, (fill p hdr chunk).signature = some signature ∧ (fill p hdr chunk).chunks.mapM id = some chunks := by
  have hcount : (fill p hdr chunk).chunks.countP Option.isSome = (fill p hdr chunk).chunks.length := by
    refine Nat.le_antisymm List.countP_le_length ?_
    rw [← h.received, h.slots]
    omega
  obtain ⟨chunks, hchunks⟩ := exists_chunks hcount
  have hpos : 0 < (fill p hdr chunk).chunks.length := by
    have := hfits.idx
    rw [h.slots]
    omega
  have hfirst : ((fill p hdr chunk).chunks[0]?.join).isSome = true := by
    rw [List.getElem?_eq_getElem hpos]
    exact List.countP_eq_length.mp hcount _ (List.getElem_mem hpos)
  obtain ⟨signature, hsig⟩ := Option.isSome_iff_exists.mp (h.signature.trans hfirst)
  exact ⟨signature, chunks, hsig, hchunks⟩

/-- The state with the chunk stored. -/
def stored (s : SenderState) (hdr : FragmentHeader) (p : PartialFrame) (chunk : List UInt8) : SenderState :=
  { s with partials := s.partials.insert hdr.frameSeq (fill p hdr chunk), bytes := s.bytes + chunk.length }

/-- The stored frame goes as the partial frame would have gone. -/
theorem dropPartial_stored {s : SenderState} (hp : s.partials.lookup hdr.frameSeq = some p) :
    (s.stored hdr p chunk).dropPartial hdr.frameSeq = s.dropPartial hdr.frameSeq := by
  have hlook : (s.stored hdr p chunk).partials.lookup hdr.frameSeq = some (fill p hdr chunk) := AList.lookup_insert _
  have herase : (s.stored hdr p chunk).partials.erase hdr.frameSeq = s.partials.erase hdr.frameSeq := by
    refine AList.ext ?_
    show List.kerase hdr.frameSeq (⟨hdr.frameSeq, _⟩ :: List.kerase hdr.frameSeq s.partials.entries) = _
    exact List.kerase_cons_eq rfl
  have hbytes : (s.stored hdr p chunk).bytes - (fill p hdr chunk).bytes = s.bytes - p.bytes := by
    show s.bytes + chunk.length - (p.bytes + chunk.length) = _
    omega
  rw [dropPartial_of_some hlook, dropPartial_of_some hp, herase, hbytes]
  rfl

/-- What storing a chunk comes to: a partial frame that is still missing some, or a whole one, which is returned. -/
theorem store_eq {s : SenderState} (hs : s.Sound) (hp : s.partials.lookup hdr.frameSeq = some p) (hfits : Fits p hdr)
    (chunk : List UInt8) :
    (fill p hdr chunk).received < hdr.fragCount ∧ s.store hdr chunk = (s.stored hdr p chunk, none) ∨
      ¬(fill p hdr chunk).received < hdr.fragCount ∧
        ∃ frame, frame.sender = hdr.sender ∧ frame.frameSeq = hdr.frameSeq ∧
          s.store hdr chunk = (s.completed hdr.frameSeq, some frame) := by
  have hfilled := filled (hs.partials _ _ hp) hfits chunk
  unfold store
  rw [hp]
  dsimp only
  by_cases hmissing : (fill p hdr chunk).received < hdr.fragCount
  · rw [if_pos hmissing]
    exact Or.inl ⟨hmissing, rfl⟩
  · obtain ⟨signature, chunks, hsig, hchunks⟩ := hfilled.whole hfits hmissing
    have hcompleted : (s.stored hdr p chunk).completed hdr.frameSeq = s.completed hdr.frameSeq := by
      rw [completed, completed, dropPartial_stored hp]
    rw [if_neg hmissing, hsig, hchunks]
    exact Or.inr ⟨hmissing, _, rfl, rfl, Prod.ext hcompleted rfl⟩

theorem sound_stored {s : SenderState} (hs : s.Sound) (hp : s.partials.lookup hdr.frameSeq = some p) (hfits : Fits p hdr)
    (hmissing : (fill p hdr chunk).received < hdr.fragCount) (hcap : s.bytes + chunk.length ≤ maxPartialBytesPerSender) :
    (s.stored hdr p chunk).Sound where
  few := by
    show (s.partials.insert hdr.frameSeq _).entries.length ≤ _
    rw [length_insert, length_erase hp]
    exact hs.few
  bytes := by
    show s.bytes + chunk.length = total (s.partials.insert hdr.frameSeq _) PartialFrame.bytes
    have hbytes : (fill p hdr chunk).bytes = p.bytes + chunk.length := rfl
    rw [total_insert, hs.bytes, total_erase hp, hbytes]
    omega
  cap := hcap
  partials := by
    intro q p' hp'
    by_cases hq : q = hdr.frameSeq
    · rw [hq] at hp'
      obtain rfl := Option.some.inj ((AList.lookup_insert _).symm.trans hp')
      exact (filled (hs.partials _ _ hp) hfits chunk).sound (hs.partials _ _ hp) hfits hmissing
    · exact hs.partials q p' ((AList.lookup_insert_ne hq).symm.trans hp')

theorem sound_completed {s : SenderState} (h : s.Sound) (seq : UInt32) : (s.completed seq).Sound := by
  have hdrop := sound_dropPartial h seq
  unfold completed
  dsimp only
  split
  · have hmoved : ({ s.dropPartial seq with lastCompleted := some seq } : SenderState).Sound :=
      ⟨hdrop.few, hdrop.bytes, hdrop.cap, hdrop.partials⟩
    exact sound_dropPartials hmoved _
  · exact hdrop
/-! ### A fragment -/

/-- A fragment is filed with the partial frame of its number: as many fragments, codec and timestamp agree, and the slot is free. -/
structure Joins (p : PartialFrame) (hdr : FragmentHeader) : Prop where
  count : p.chunks.length = hdr.fragCount
  codec : p.codec = hdr.codec
  ptsUs : p.ptsUs = hdr.ptsUs
  free : (p.chunks[hdr.fragIdx]?.join).isSome = false

theorem Joins.fits {p : PartialFrame} {hdr : FragmentHeader} (h : Joins p hdr) (hchecked : Checked hdr) : Fits p hdr :=
  ⟨h.count, hchecked.idx, h.free, hchecked.signature⟩

/-- The partial frames among which a fragment that passed the check of its number is filed. -/
def found (s : SenderState) (order : IterOrder) (hdr : FragmentHeader) (now : Nat) : SenderState :=
  (s.makeRoom order hdr.frameSeq).openPartial hdr now

/-- The chunk is stored, when it fits once the oldest work has been shed. -/
def filed (s : SenderState) (order : IterOrder) (hdr : FragmentHeader) (chunk : List UInt8) : SenderState × Option ReassembledFrame :=
  let s' := shed order chunk.length s.partials.entries.length s
  if maxPartialBytesPerSender < s'.bytes + chunk.length then (s'.dropPartial hdr.frameSeq, none) else s'.store hdr chunk

theorem lookup_found (s : SenderState) (order : IterOrder) (hdr : FragmentHeader) (now : Nat) :
    ∃ p, (s.found order hdr now).partials.lookup hdr.frameSeq = some p := by
  unfold found openPartial
  split
  · rename_i p hp
    exact ⟨p, hp⟩
  · exact ⟨_, AList.lookup_insert _⟩

/-- A fragment that passes the check of its number meets a partial frame: it is filed with it or not. -/
theorem accept_of_screen {s s₁ : SenderState} {hdr : FragmentHeader} (h : s.screen hdr = some s₁) (order : IterOrder)
    (chunk : List UInt8) (now : Nat) : ∃ p, (s₁.found order hdr now).partials.lookup hdr.frameSeq = some p ∧
      (¬Joins p hdr ∧ s.accept order hdr chunk now = (s₁.found order hdr now, none) ∨
        Joins p hdr ∧ s.accept order hdr chunk now = (s₁.found order hdr now).filed order hdr chunk) := by
  obtain ⟨p, hp⟩ := lookup_found s₁ order hdr now
  refine ⟨p, hp, ?_⟩
  unfold accept
  rw [h]
  simp only
  rw [← found, hp]
  simp only
  split
  · rename_i hcount
    exact Or.inl ⟨fun hjoins => hcount hjoins.count, rfl⟩
  · rename_i hcount
    split
    · rename_i hcodec
      exact Or.inl ⟨fun hjoins => hcodec hjoins.codec, rfl⟩
    · rename_i hcodec
      split
      · rename_i hpts
        exact Or.inl ⟨fun hjoins => hpts hjoins.ptsUs, rfl⟩
      · rename_i hpts
        split
        · rename_i htaken
          exact Or.inl ⟨fun hjoins => Bool.noConfusion (hjoins.free.symm.trans htaken), rfl⟩
        · rename_i hfree
          exact Or.inr ⟨⟨not_not.mp hcount, not_not.mp hcodec, not_not.mp hpts, Bool.eq_false_iff.mpr hfree⟩, rfl⟩

theorem accept_of_screen_none {s : SenderState} {hdr : FragmentHeader} (h : s.screen hdr = none) (order : IterOrder)
    (chunk : List UInt8) (now : Nat) : s.accept order hdr chunk now = (s, none) := by
  unfold accept
  rw [h]

/-- The numbers that the check against the newest completed frame lets pass: one or two behind it, or newer. -/
def Passes (last seq : UInt32) : Prop := last - seq = 1 ∨ last - seq = 2 ∨ 0x80000002 ≤ last - seq

theorem passes_iff {last seq : UInt32} :
    (seqNewer (last - monotonicLag) seq || decide (seq = last)) = false ↔ Passes last seq := by
  have hlag : monotonicLag.toNat = 2 := rfl
  have hsub := UInt32.toNat_sub last seq
  have hsub' := UInt32.toNat_sub (last - monotonicLag) seq
  have hsub'' := UInt32.toNat_sub last monotonicLag
  have hl := last.toNat_lt
  have hs := seq.toNat_lt
  simp only [seqNewer, Passes, Bool.or_eq_false_iff, Bool.and_eq_false_iff, decide_eq_false_iff_not, ne_eq, not_not,
    ← UInt32.toNat_inj, UInt32.lt_iff_toNat_lt, UInt32.le_iff_toNat_le, UInt32.toNat_ofNat] at *
  omega

theorem screen_of_none {s : SenderState} (h : s.lastCompleted = none) (hdr : FragmentHeader) : s.screen hdr = some s := by
  rw [screen, h]

theorem screen_of_passes {s : SenderState} {last : UInt32} (h : s.lastCompleted = some last) {hdr : FragmentHeader}
    (hpasses : Passes last hdr.frameSeq) : s.screen hdr = some s := by
  rw [screen, h]
  simp only
  rw [if_neg (by rw [passes_iff.mpr hpasses]; exact Bool.false_ne_true)]

theorem screen_of_late {s : SenderState} {last : UInt32} (h : s.lastCompleted = some last) {hdr : FragmentHeader}
    (hlate : ¬Passes last hdr.frameSeq) :
    s.screen hdr = if isStreamRestart last hdr then some { partials := ∅, bytes := 0, lastCompleted := none } else none := by
  rw [screen, h]
  simp only
  rw [if_pos (Bool.of_not_eq_false fun hfalse => hlate (passes_iff.mp hfalse))]

theorem sound_screen {s s₁ : SenderState} (hs : s.Sound) {hdr : FragmentHeader} (h : s.screen hdr = some s₁) : s₁.Sound := by
  unfold screen at h
  split at h
  · obtain rfl := Option.some.inj h
    exact hs
  · split at h
    · split at h
      · obtain rfl := Option.some.inj h
        exact ⟨Nat.zero_le _, rfl, Nat.zero_le _, fun seq p hp => by cases hp⟩
      · cases h
    · obtain rfl := Option.some.inj h
      exact hs

theorem sound_found {s : SenderState} (hs : s.Sound) (order : IterOrder) {hdr : FragmentHeader} (hchecked : Checked hdr) (now : Nat) :
    (s.found order hdr now).Sound :=
  sound_openPartial (sound_makeRoom hs order _) hchecked.some hchecked.few now (room_makeRoom hs order _)

/-- What filing a fragment comes to. The partial frame has gone, or it has the chunk, or it is whole and returned. -/
theorem filed_cases {s : SenderState} (hs : s.Sound) (order : IterOrder) {hdr : FragmentHeader} {p : PartialFrame}
    (hp : s.partials.lookup hdr.frameSeq = some p) (hfits : Fits p hdr) (chunk : List UInt8) :
    ∃ s', s' = shed order chunk.length s.partials.entries.length s ∧ s'.Sound ∧
      ((s.filed order hdr chunk = (s'.dropPartial hdr.frameSeq, none) ∧
          (s'.partials.lookup hdr.frameSeq = none ∨ maxPartialBytesPerSender < s'.bytes + chunk.length)) ∨
        (s'.partials.lookup hdr.frameSeq = some p ∧ s'.bytes + chunk.length ≤ maxPartialBytesPerSender ∧
          ((fill p hdr chunk).received < hdr.fragCount ∧ s.filed order hdr chunk = (s'.stored hdr p chunk, none) ∨
            ¬(fill p hdr chunk).received < hdr.fragCount ∧ ∃ frame, frame.sender = hdr.sender ∧ frame.frameSeq = hdr.frameSeq ∧
              s.filed order hdr chunk = (s'.completed hdr.frameSeq, some frame)))) := by
  refine ⟨_, rfl, sound_shed hs order _ _, ?_⟩
  have hsound := sound_shed hs order chunk.length s.partials.entries.length
  have hshrinks := shrinks_shed order chunk.length s.partials.entries.length s
  unfold filed
  generalize shed order chunk.length s.partials.entries.length s = s' at hsound hshrinks
  dsimp only
  split
  · rename_i hover
    exact Or.inl ⟨rfl, Or.inr hover⟩
  · rename_i hover
    cases hlook : s'.partials.lookup hdr.frameSeq with
    | none =>
      refine Or.inl ⟨?_, Or.inl rfl⟩
      rw [store, hlook, dropPartial_of_none hlook]
    | some p' =>
      obtain rfl := Option.some.inj ((hshrinks _ _ hlook).symm.trans hp)
      exact Or.inr ⟨rfl, Nat.le_of_not_lt hover, store_eq hsound hlook hfits chunk⟩

theorem sound_filed {s : SenderState} (hs : s.Sound) (order : IterOrder) {hdr : FragmentHeader} {p : PartialFrame}
    (hp : s.partials.lookup hdr.frameSeq = some p) (hfits : Fits p hdr) (chunk : List UInt8) :
    (s.filed order hdr chunk).1.Sound := by
  obtain ⟨s', -, hs', ⟨heq, -⟩ | ⟨hp', hcap, ⟨hmissing, heq⟩ | ⟨-, frame, -, -, heq⟩⟩⟩ := filed_cases hs order hp hfits chunk
  · rw [heq]
    exact sound_dropPartial hs' _
  · rw [heq]
    exact sound_stored hs' hp' hfits hmissing hcap
  · rw [heq]
    exact sound_completed hs' _

theorem sound_accept {s : SenderState} (hs : s.Sound) (order : IterOrder) {hdr : FragmentHeader} (hchecked : Checked hdr)
    (chunk : List UInt8) (now : Nat) : (s.accept order hdr chunk now).1.Sound := by
  cases hscreen : s.screen hdr with
  | none => rwa [accept_of_screen_none hscreen]
  | some s₁ =>
    have hfound := sound_found (sound_screen hs hscreen) order hchecked now
    obtain ⟨p, hp, ⟨-, heq⟩ | ⟨hjoins, heq⟩⟩ := accept_of_screen hscreen order chunk now
    · rwa [heq]
    · rw [heq]
      exact sound_filed hfound order hp (hjoins.fits hchecked) chunk

theorem lastCompleted_dropExpired (s : SenderState) (now : Nat) : (s.dropExpired now).lastCompleted = s.lastCompleted :=
  lastCompleted_dropPartials s _

theorem lastCompleted_completed (s : SenderState) (seq : UInt32) :
    (s.completed seq).lastCompleted = if s.lastCompleted.all fun last => seqNewer seq last then some seq else s.lastCompleted := by
  unfold completed
  dsimp only
  rw [lastCompleted_dropPartial]
  split
  · exact lastCompleted_dropPartials _ _
  · exact lastCompleted_dropPartial s seq

theorem lookup_completed (s : SenderState) (seq : UInt32) : (s.completed seq).partials.lookup seq = none := by
  cases h : (s.completed seq).partials.lookup seq with
  | none => rfl
  | some p =>
    have hdropped : Shrinks (s.dropPartial seq) (s.completed seq) := by
      unfold completed
      dsimp only
      split
      · exact shrinks_dropPartials _ { s.dropPartial seq with lastCompleted := some seq }
      · exact shrinks_refl _
    exact absurd rfl (lookup_dropPartial (hdropped seq p h)).1

theorem lastCompleted_found (s : SenderState) (order : IterOrder) (hdr : FragmentHeader) (now : Nat) :
    (s.found order hdr now).lastCompleted = s.lastCompleted := by
  rw [found, lastCompleted_openPartial, lastCompleted_makeRoom]

/-- A frame is returned under the number of the fragment that completed it; its partial frame has gone and the sender has a history. -/
structure Returned (hdr : FragmentHeader) (s : SenderState) (frame : ReassembledFrame) : Prop where
  sender : frame.sender = hdr.sender
  frameSeq : frame.frameSeq = hdr.frameSeq
  gone : s.partials.lookup hdr.frameSeq = none
  history : s.lastCompleted.isSome = true

theorem returned_accept {s : SenderState} (hs : s.Sound) (order : IterOrder) {hdr : FragmentHeader} (hchecked : Checked hdr)
    (chunk : List UInt8) (now : Nat) {frame : ReassembledFrame} (h : (s.accept order hdr chunk now).2 = some frame) :
    Returned hdr (s.accept order hdr chunk now).1 frame := by
  cases hscreen : s.screen hdr with
  | none =>
    rw [accept_of_screen_none hscreen] at h
    cases h
  | some s₁ =>
    obtain ⟨p, hp, ⟨-, heq⟩ | ⟨hjoins, heq⟩⟩ := accept_of_screen hscreen order chunk now
    · rw [heq] at h
      cases h
    · have hfound := sound_found (sound_screen hs hscreen) order hchecked now
      obtain ⟨s', -, -, ⟨hfiled, -⟩ | ⟨-, -, ⟨-, hfiled⟩ | ⟨-, frame', hsender, hseq, hfiled⟩⟩⟩ :=
        filed_cases hfound order hp (hjoins.fits hchecked) chunk
      · rw [heq, hfiled] at h
        cases h
      · rw [heq, hfiled] at h
        cases h
      · rw [heq, hfiled] at h ⊢
        obtain rfl := Option.some.inj h
        refine ⟨hsender, hseq, lookup_completed s' _, ?_⟩
        rw [lastCompleted_completed]
        split
        · rfl
        · rename_i hnewer
          cases hlast : s'.lastCompleted with
          | none => exact absurd (by rw [hlast]; rfl) hnewer
          | some last => rfl

/-- The history of a sender is only lost when its stream restarts. -/
theorem history_accept {s : SenderState} (hs : s.Sound) (order : IterOrder) {hdr : FragmentHeader} (hchecked : Checked hdr)
    (chunk : List UInt8) (now : Nat) {s₁ : SenderState} (hscreen : s.screen hdr = some s₁) (h : s₁.lastCompleted.isSome = true) :
    (s.accept order hdr chunk now).1.lastCompleted.isSome = true := by
  have hfound : (s₁.found order hdr now).lastCompleted.isSome = true := by rwa [lastCompleted_found]
  obtain ⟨p, hp, ⟨-, heq⟩ | ⟨hjoins, heq⟩⟩ := accept_of_screen hscreen order chunk now
  · rwa [heq]
  · have hsound := sound_found (sound_screen hs hscreen) order hchecked now
    rw [heq]
    obtain ⟨s', rfl, -, ⟨hfiled, -⟩ | ⟨-, -, ⟨-, hfiled⟩ | ⟨-, frame, -, -, hfiled⟩⟩⟩ :=
      filed_cases hsound order hp (hjoins.fits hchecked) chunk
    · rwa [hfiled, lastCompleted_dropPartial, lastCompleted_shed]
    · rw [hfiled]
      show (shed order chunk.length _ _).lastCompleted.isSome = true
      rwa [lastCompleted_shed]
    · rw [hfiled, lastCompleted_completed]
      split
      · rfl
      · rwa [lastCompleted_shed]

/-- What the byte cap sheds had waited at least as long as anything it leaves. -/
theorem shed_oldest (order : IterOrder) (need : Nat) {fuel : Nat} {s : SenderState} {seq : UInt32} {p : PartialFrame}
    (hp : s.partials.lookup seq = some p) (hgone : (shed order need fuel s).partials.lookup seq = none) {q : UInt32} {p' : PartialFrame}
    (hp' : (shed order need fuel s).partials.lookup q = some p') : p.firstSeen ≤ p'.firstSeen := by
  induction fuel generalizing s with
  | zero =>
    rw [shed, hp] at hgone
    cases hgone
  | succ fuel ih =>
    have hshrinks := shrinks_shed order need (fuel + 1) s
    unfold shed at hgone hp' hshrinks
    split at hgone
    · rename_i hover
      rw [if_pos hover] at hp' hshrinks
      cases hkept : (s.evictOldest order).partials.lookup seq with
      | some p₁ =>
        obtain rfl := Option.some.inj ((shrinks_evictOldest s order _ _ hkept).symm.trans hp)
        exact ih hkept hgone hp'
      | none =>
        rcases evictOldest_cases s order with ⟨-, heq⟩ | ⟨seq', p₁, hp₁, heq, holdest⟩
        · rw [heq, hp] at hkept
          cases hkept
        · -- what went is this one
          have hseq : seq = seq' := by
            by_contra hne
            rw [heq, partials_dropPartial, AList.lookup_erase_ne hne, hp] at hkept
            cases hkept
          subst hseq
          obtain rfl := Option.some.inj (hp₁.symm.trans hp)
          exact holdest q p' (hshrinks _ _ hp')
    · rw [hp] at hgone
      cases hgone

/-- The byte cap sheds until the chunk fits or one partial frame is left. -/
theorem shed_fits (order : IterOrder) (need : Nat) {fuel : Nat} {s : SenderState} (hfuel : s.partials.entries.length ≤ fuel + 1) :
    (shed order need fuel s).bytes + need ≤ maxPartialBytesPerSender ∨ (shed order need fuel s).partials.entries.length ≤ 1 := by
  induction fuel generalizing s with
  | zero => exact Or.inr hfuel
  | succ fuel ih =>
    unfold shed
    split
    · refine ih ?_
      rw [length_evictOldest]
      omega
    · rename_i hstop
      by_cases hone : 1 < s.partials.entries.length
      · exact Or.inl (Nat.le_of_not_lt fun hover => hstop ⟨hover, hone⟩)
      · exact Or.inr (Nat.le_of_not_lt hone)

end SenderState

namespace Reassembler

/-- A push that reaches a sender's state is a fragment of that sender; any other one returns nothing and at most drops what has
expired. -/
theorem push_cases (r : Reassembler) (order : IterOrder) (buf : List UInt8) (now : Nat) :
    ((r.push order buf now).2 = none ∧ ((r.push order buf now).1 = r ∨ (r.push order buf now).1 = r.evictExpired now)) ∨
      ∃ hdr chunk, parseFragment buf = some (hdr, chunk) ∧
        r.push order buf now =
          (⟨(r.evictExpired now).senders.insert hdr.sender
            ((((r.evictExpired now).senders.lookup hdr.sender).getD SenderState.default).accept order hdr chunk now).1⟩,
          ((((r.evictExpired now).senders.lookup hdr.sender).getD SenderState.default).accept order hdr chunk now).2) := by
  unfold push
  split
  · exact Or.inl ⟨rfl, Or.inl rfl⟩
  · rename_i hdr chunk hparse
    dsimp only
    split
    · exact Or.inl ⟨rfl, Or.inr rfl⟩
    · exact Or.inr ⟨hdr, chunk, hparse, rfl⟩

variable {r : Reassembler}

theorem sound_evictExpired (h : r.Sound) (now : Nat) : (r.evictExpired now).Sound where
  few := by
    refine Nat.le_trans (List.length_filter_le _ _) ?_
    show (r.senders.entries.map _).length ≤ _
    rw [List.length_map]
    exact h.few
  senders := by
    intro sender s hs
    rw [evictExpired, lookup_retain, lookup_mapValues] at hs
    obtain ⟨hmap, -⟩ := Option.filter_eq_some_iff.mp hs
    obtain ⟨s₀, hs₀, rfl⟩ := Option.map_eq_some_iff.mp hmap
    exact SenderState.sound_dropExpired (h.senders sender s₀ hs₀) now

theorem sound_lookup (h : r.Sound) (sender : String) : ((r.senders.lookup sender).getD SenderState.default).Sound := by
  cases hs : r.senders.lookup sender with
  | none => exact SenderState.sound_default
  | some s => exact h.senders sender s hs

theorem sound_push (h : r.Sound) (order : IterOrder) (buf : List UInt8) (now : Nat) : (r.push order buf now).1.Sound := by
  unfold push
  split
  · exact h
  · rename_i hdr chunk hparse
    have hevicted := sound_evictExpired h now
    dsimp only
    split
    · exact hevicted
    · rename_i hroom
      refine ⟨?_, fun sender s hs => ?_⟩
      · rw [length_insert]
        cases hlook : (r.evictExpired now).senders.lookup hdr.sender with
        | none =>
          rw [hlook] at hroom
          have hfree := not_and.mp hroom rfl
          rw [erase_of_lookup_none hlook]
          omega
        | some s =>
          rw [length_erase hlook]
          exact hevicted.few
      · by_cases hsender : sender = hdr.sender
        · subst hsender
          obtain rfl := Option.some.inj ((AList.lookup_insert _).symm.trans hs)
          exact SenderState.sound_accept (sound_lookup hevicted _) order (checked_of_parse hparse) chunk now
        · exact hevicted.senders sender s ((AList.lookup_insert_ne hsender).symm.trans hs)

theorem sound_step (h : r.Sound) (op : Op) : (r.step op).1.Sound := by
  cases op with
  | push order buf now => exact sound_push h order buf now
  | evictExpired now => exact sound_evictExpired h now
  | clear => exact ⟨Nat.zero_le _, fun sender s hs => by cases hs⟩

theorem sound_after (ops : List Op) : (after ops).Sound := by
  induction ops using List.reverseRecOn with
  | nil => exact ⟨Nat.zero_le _, fun sender s hs => by cases hs⟩
  | append_singleton ops op ih =>
    rw [after, List.foldl_append]
    exact sound_step ih op

/-- The newest completed frame of a sender. -/
def lastCompleted (r : Reassembler) (sender : String) : Option UInt32 :=
  (r.senders.lookup sender).bind SenderState.lastCompleted

theorem lastCompleted_evictExpired (r : Reassembler) (now : Nat) (sender : String) :
    (r.evictExpired now).lastCompleted sender = r.lastCompleted sender := by
  rw [lastCompleted, evictExpired, lookup_retain, lookup_mapValues, lastCompleted]
  cases r.senders.lookup sender with
  | none => rfl
  | some s =>
    rw [Option.map_some, Option.bind_some, Option.filter_some]
    split
    · rw [Option.bind_some, SenderState.lastCompleted_dropExpired]
    · rename_i htracked
      cases hlast : s.lastCompleted with
      | none => rfl
      | some last =>
        rw [SenderState.tracked, SenderState.lastCompleted_dropExpired, hlast] at htracked
        exact absurd (Bool.or_true _) htracked

/-- The state in which a fragment finds its sender has the sender's history. -/
theorem lastCompleted_state (r : Reassembler) (now : Nat) (sender : String) :
    (((r.evictExpired now).senders.lookup sender).getD SenderState.default).lastCompleted = r.lastCompleted sender := by
  rw [← lastCompleted_evictExpired r now, lastCompleted]
  cases (r.evictExpired now).senders.lookup sender with
  | none => rfl
  | some s => rfl

end Reassembler

end DoubleSlash.Video
