import DoubleSlash.Lemmas.Fragments
import Mathlib.Data.List.Flatten
import Mathlib.Data.List.Nodup

/-!
# One frame in a reassembler

A frame that was split (`Split`), and the state its sender has once some of its fragments have arrived: nothing, the partial
frame with exactly those chunks, or the record that it is complete. `stateOf` is that state; `push_step` says that every push
moves it as the arrived fragments say.
-/

namespace DoubleSlash.Video

open Assoc Bytes

/-- A frame cut into chunks. -/
structure Split where
  sender : String
  frameSeq : UInt32
  keyframe : Bool
  codec : VideoCodec
  ptsUs : UInt64
  signature : Signature
  count : Nat
  chunk : Nat → List UInt8
  hsender : sender ≠ ""
  hlen : (utf8 sender).length ≤ maxSenderLen
  hpos : 0 < count
  hcount : count ≤ maxFragsPerFrame
  hfits : ((List.range count).flatMap chunk).length ≤ maxPartialBytesPerSender

namespace Split

variable (F : Split)

/-- Fragment `i` on the wire. -/
def bytes (i : Nat) : List UInt8 :=
  fragmentBytes F.sender F.frameSeq F.keyframe F.codec F.ptsUs F.signature i F.count (F.chunk i)

def header (i : Nat) : FragmentHeader where
  keyframe := F.keyframe
  codec := F.codec
  ptsUs := F.ptsUs
  sender := F.sender
  frameSeq := F.frameSeq
  fragIdx := i
  fragCount := F.count
  signature := if i = 0 then some F.signature else none

/-- The frame that was split. -/
def frame : ReassembledFrame where
  sender := F.sender
  frameSeq := F.frameSeq
  keyframe := F.keyframe
  codec := F.codec
  ptsUs := F.ptsUs
  signature := F.signature
  sealed := (List.range F.count).flatMap F.chunk

theorem parse_bytes {i : Nat} (hi : i < F.count) : parseFragment (F.bytes i) = some (F.header i, F.chunk i) :=
  FragmentsAux.parseFragment_fragmentBytes F.frameSeq F.keyframe F.codec F.ptsUs F.signature (F.chunk i) F.hsender F.hlen hi
    F.hcount

theorem bytes_inj {i j : Nat} (hi : i < F.count) (hj : j < F.count) (h : F.bytes i = F.bytes j) : i = j := by
  have hparse := F.parse_bytes hi
  rw [h, F.parse_bytes hj] at hparse
  have hheader := congrArg Prod.fst (Option.some.inj hparse)
  exact (congrArg FragmentHeader.fragIdx hheader).symm

/-- The partial frame once the fragments `got` have arrived. -/
def part (now : Nat) (got : List Nat) : PartialFrame where
  keyframe := F.keyframe
  codec := F.codec
  ptsUs := F.ptsUs
  signature := if 0 ∈ got then some F.signature else none
  chunks := (List.range F.count).map fun i => if i ∈ got then some (F.chunk i) else none
  received := got.length
  bytes := (got.flatMap F.chunk).length
  firstSeen := now

/-- The sender's state while the frame is partial. -/
def partialState (now : Nat) (got : List Nat) : SenderState where
  partials := (∅ : HashMap UInt32 PartialFrame).insert F.frameSeq (F.part now got)
  bytes := (got.flatMap F.chunk).length
  lastCompleted := none

/-- The same state of a sender with a history. -/
def heldState (last : Option UInt32) (now : Nat) (got : List Nat) : SenderState :=
  { F.partialState now got with lastCompleted := last }

/-- The sender's state once the frame is complete. -/
def finished : SenderState where
  partials := ∅
  bytes := 0
  lastCompleted := some F.frameSeq

/-- The sender's state once the fragments `got` have arrived. -/
def stateOf (now : Nat) (got : List Nat) : Option SenderState :=
  if got = [] then none else if got.length < F.count then some (F.partialState now got) else some F.finished

/-- Fragments of the frame, none twice. -/
structure Arrived (got : List Nat) : Prop where
  nodup : got.Nodup
  lt : ∀ i ∈ got, i < F.count

variable {F} {now i : Nat} {got : List Nat}

theorem Arrived.cons (h : F.Arrived got) (hi : i < F.count) (hnew : i ∉ got) : F.Arrived (i :: got) where
  nodup := List.nodup_cons.mpr ⟨hnew, h.nodup⟩
  lt := by
    intro j hj
    rcases List.mem_cons.mp hj with rfl | hj
    · exact hi
    · exact h.lt j hj

theorem Arrived.subperm (h : F.Arrived got) : got.Subperm (List.range F.count) :=
  List.subperm_of_subset h.nodup fun i hi => List.mem_range.mpr (h.lt i hi)

theorem Arrived.length_le (h : F.Arrived got) : got.length ≤ F.count := by
  have := h.subperm.length_le
  rwa [List.length_range] at this

/-- What has arrived never outgrows the sender's budget. -/
theorem Arrived.bytes_le (h : F.Arrived got) : (got.flatMap F.chunk).length ≤ maxPartialBytesPerSender := by
  obtain ⟨l, hperm, hsub⟩ := h.subperm
  calc (got.flatMap F.chunk).length = (l.flatMap F.chunk).length := ((hperm.flatMap_right F.chunk).length_eq).symm
    _ ≤ ((List.range F.count).flatMap F.chunk).length := (hsub.flatMap F.chunk).length_le
    _ ≤ maxPartialBytesPerSender := F.hfits

/-- As many as there are fragments are all of them. -/
theorem Arrived.all_of_length (h : F.Arrived got) (hlen : got.length = F.count) : ∀ i < F.count, i ∈ got := by
  intro i hi
  have hperm : got.Perm (List.range F.count) := h.subperm.perm_of_length_le (by rw [List.length_range]; omega)
  exact hperm.mem_iff.mpr (List.mem_range.mpr hi)

theorem Arrived.length_of_all (h : F.Arrived got) (hall : ∀ i < F.count, i ∈ got) : got.length = F.count := by
  have hsub : (List.range F.count).Subperm got :=
    List.subperm_of_subset List.nodup_range fun i hi => hall i (List.mem_range.mp hi)
  have := hsub.length_le
  rw [List.length_range] at this
  exact Nat.le_antisymm h.length_le this

/-! ### The partial frame -/

theorem partials_lookup (now : Nat) (got : List Nat) :
    (F.partialState now got).partials.lookup F.frameSeq = some (F.part now got) := AList.lookup_insert _

theorem partials_entries (now : Nat) (got : List Nat) :
    (F.partialState now got).partials.entries = [⟨F.frameSeq, F.part now got⟩] := by
  rw [partialState, AList.insert_empty, AList.singleton_entries]

theorem part_slot (now : Nat) (got : List Nat) (hi : i < F.count) :
    (F.part now got).chunks[i]? = some (if i ∈ got then some (F.chunk i) else none) := by
  simp [part, hi]

/-- Filing a chunk that is not there yet. -/
theorem fill_part (hnew : i ∉ got) (hi : i < F.count) :
    SenderState.fill (F.part now got) (F.header i) (F.chunk i) = F.part now (i :: got) := by
  have hchunks : ((F.part now got).chunks.set i (some (F.chunk i))) = (F.part now (i :: got)).chunks := by
    apply List.ext_getElem
    · simp [part]
    · intro j h1 h2
      rw [List.getElem_set]
      by_cases hij : i = j
      · subst hij
        simp [part]
      · have hji : j ≠ i := fun h => hij h.symm
        simp [part, hij, hji]
  have hsig : ((F.header i).signature.or (F.part now got).signature) = (F.part now (i :: got)).signature := by
    by_cases h0 : i = 0
    · subst h0
      simp [header, part]
    · have h0' : (0 : Nat) ≠ i := fun h => h0 h.symm
      simp [header, part, h0, h0']
  unfold SenderState.fill
  rw [hsig, header]
  simp only [hchunks]
  simp only [part, List.length_cons, List.flatMap_cons, List.length_append, Nat.add_comm]

theorem mapM_id_map_some {α : Type} (l : List α) : (l.map some).mapM id = some l := by
  induction l with
  | nil => rfl
  | cons a l ih => simp [List.mapM_cons, ih]

/-- All chunks together are the frame. -/
theorem mapM_chunks_of_all (hall : ∀ i < F.count, i ∈ got) :
    (F.part now got).chunks.mapM id = some ((List.range F.count).map F.chunk) := by
  have hchunks : (F.part now got).chunks = ((List.range F.count).map F.chunk).map some := by
    rw [part, List.map_map]
    apply List.map_congr_left
    intro i hi
    exact if_pos (hall i (List.mem_range.mp hi))
  rw [hchunks]
  exact mapM_id_map_some _

/-- The newest completed frame, after one more. -/
def newest (last : Option UInt32) (seq : UInt32) : Option UInt32 := if last.all fun l => seqNewer seq l then some seq else last

theorem completed_heldState (last : Option UInt32) (now : Nat) (got : List Nat) :
    (F.heldState last now got).completed F.frameSeq = { F.finished with lastCompleted := newest last F.frameSeq } := by
  have herase : (F.partialState now got).partials.erase F.frameSeq = ∅ := by
    apply AList.ext
    show List.kerase F.frameSeq (F.partialState now got).partials.entries = []
    rw [partials_entries]
    exact List.kerase_cons_eq rfl
  have hdrop : (F.heldState last now got).dropPartial F.frameSeq = { F.finished with lastCompleted := last } := by
    unfold SenderState.dropPartial heldState
    simp only [partials_lookup, herase]
    simp only [partialState, part, finished, Nat.sub_self]
  unfold SenderState.completed newest
  rw [hdrop]
  dsimp only
  split <;> rfl

theorem completed_partialState (now : Nat) (got : List Nat) : (F.partialState now got).completed F.frameSeq = F.finished :=
  completed_heldState none now got

/-! ### A fragment of the frame -/

/-- The state a fragment of the frame finds. -/
def found (F : Split) (now : Nat) (got : List Nat) : SenderState := (F.stateOf now got).getD SenderState.default

theorem openPartial_found (hlt : got.length < F.count) (i : Nat) :
    (F.found now got).openPartial (F.header i) now = F.partialState now got := by
  unfold found stateOf
  by_cases hnil : got = []
  · subst hnil
    rw [if_pos rfl, Option.getD_none]
    have hchunks : List.replicate F.count (none : Option (List UInt8)) = (F.part now []).chunks := by
      simp [part]
    unfold SenderState.openPartial SenderState.default
    simp only [AList.lookup_empty, header, hchunks]
    rfl
  · rw [if_neg hnil, if_pos hlt, Option.getD_some]
    unfold SenderState.openPartial
    simp only [header, partials_lookup]

theorem found_lastCompleted (hlt : got.length < F.count) : (F.found now got).lastCompleted = none := by
  unfold found stateOf
  split_ifs <;> rfl

theorem found_entries (hlt : got.length < F.count) : (F.found now got).partials.entries.length ≤ 1 := by
  unfold found stateOf
  split_ifs
  · exact Nat.zero_le 1
  · rw [Option.getD_some, partials_entries, List.length_singleton]

/-- Up to the check for duplicates the fragment meets the partial frame it belongs to. -/
theorem accept_found (h : F.Arrived got) (hlt : got.length < F.count) (hi : i < F.count) (order : IterOrder) :
    (F.found now got).accept order (F.header i) (F.chunk i) now =
      if i ∈ got then (F.partialState now got, none) else (F.partialState now got).store (F.header i) (F.chunk i) := by
  have hscreen : (F.found now got).screen (F.header i) = some (F.found now got) := by
    unfold SenderState.screen
    rw [found_lastCompleted hlt]
  have hroom : (F.found now got).makeRoom order (F.header i).frameSeq = F.found now got := by
    have hone : (F.found now got).partials.entries.length ≤ 1 := found_entries hlt
    unfold SenderState.makeRoom
    rw [if_neg]
    simp only [maxInFlightPerSender, not_and]
    omega
  have hlook : (F.partialState now got).partials.lookup (F.header i).frameSeq = some (F.part now got) := partials_lookup now got
  have hslot : (F.part now got).chunks[(F.header i).fragIdx]? = some (if i ∈ got then some (F.chunk i) else none) :=
    part_slot now got hi
  unfold SenderState.accept
  simp only [hscreen, hroom, openPartial_found hlt, hlook, hslot]
  rw [if_neg (by simp [part, header]), if_neg (by simp [part, header]), if_neg (by simp [part, header])]
  by_cases hdup : i ∈ got
  · simp [hdup]
  · have hbytes := (h.cons hi hdup).bytes_le
    rw [List.flatMap_cons, List.length_append] at hbytes
    have hfit : ¬maxPartialBytesPerSender < (F.partialState now got).bytes + (F.chunk i).length := by
      simp only [partialState]
      omega
    have hshed : SenderState.shed order (F.chunk i).length (F.partialState now got).partials.entries.length
        (F.partialState now got) = F.partialState now got := by
      rw [partials_entries, List.length_singleton, SenderState.shed, if_neg (fun h => hfit h.1)]
    simp [hdup, hshed, hfit]

/-- The state with one more chunk filed. -/
theorem stored_heldState (last : Option UInt32) (now i : Nat) (got : List Nat) :
    ({ F.heldState last now got with
        partials := (F.heldState last now got).partials.insert F.frameSeq (F.part now (i :: got))
        bytes := (F.heldState last now got).bytes + (F.chunk i).length } : SenderState) = F.heldState last now (i :: got) := by
  simp only [heldState, partialState, AList.insert_insert, List.flatMap_cons, List.length_append, Nat.add_comm]

theorem store_heldState (last : Option UInt32) (hnew : i ∉ got) (hi : i < F.count) :
    (F.heldState last now got).store (F.header i) (F.chunk i) =
      if (i :: got).length < F.count then (F.heldState last now (i :: got), none)
      else match (F.part now (i :: got)).signature, (F.part now (i :: got)).chunks.mapM id with
        | some signature, some chunks => ({ F.finished with lastCompleted := newest last F.frameSeq },
            some { F.frame with signature := signature, sealed := chunks.flatten })
        | _, _ => (F.heldState last now (i :: got), none) := by
  have hlook : (F.heldState last now got).partials.lookup (F.header i).frameSeq = some (F.part now got) := partials_lookup now got
  have hfields : (F.header i).frameSeq = F.frameSeq ∧ (F.header i).fragCount = F.count := ⟨rfl, rfl⟩
  have hreceived : (F.part now (i :: got)).received = (i :: got).length := rfl
  unfold SenderState.store
  simp only [hlook, hfields, stored_heldState, fill_part hnew hi, completed_heldState, hreceived]
  rfl

theorem store_more (last : Option UInt32) (hnew : i ∉ got) (hi : i < F.count) (hmore : (i :: got).length < F.count) :
    (F.heldState last now got).store (F.header i) (F.chunk i) = (F.heldState last now (i :: got), none) := by
  rw [store_heldState last hnew hi, if_pos hmore]

/-- The last chunk makes the frame whole. -/
theorem store_last (last : Option UInt32) (h : F.Arrived (i :: got)) (hlen : (i :: got).length = F.count) (hnew : i ∉ got)
    (hi : i < F.count) : (F.heldState last now got).store (F.header i) (F.chunk i) =
      ({ F.finished with lastCompleted := newest last F.frameSeq }, some F.frame) := by
  have hall := h.all_of_length hlen
  have hsig : (F.part now (i :: got)).signature = some F.signature := if_pos (hall 0 F.hpos)
  rw [store_heldState last hnew hi, if_neg (by omega), hsig, mapM_chunks_of_all hall]
  simp only [frame, List.flatMap_def]

theorem accept_finished (order : IterOrder) (i : Nat) (chunk : List UInt8) :
    F.finished.accept order (F.header i) chunk now = (F.finished, none) := by
  have hscreen : F.finished.screen (F.header i) = none := by
    unfold SenderState.screen
    simp [finished, header, isStreamRestart, restartBackwardJump]
  unfold SenderState.accept
  rw [hscreen]

/-! ### The reassembler -/

theorem dropExpired_stateOf (now : Nat) (got : List Nat) :
    (F.stateOf now got).map (fun s => s.dropExpired now) = F.stateOf now got := by
  unfold stateOf
  split_ifs
  · rfl
  · simp only [Option.map_some, SenderState.dropExpired, partials_entries]
    simp [part, partialTimeout, partialTimeoutFlat]
  · rfl

theorem tracked_stateOf (now : Nat) (got : List Nat) : (F.stateOf now got).filter (fun s => s.tracked) = F.stateOf now got := by
  unfold stateOf
  split_ifs
  · rfl
  · simp [SenderState.tracked, partials_entries]
  · rfl

/-- Nothing of the frame is old enough to go. -/
theorem lookup_evictExpired {r : Reassembler} (h : r.senders.lookup F.sender = F.stateOf now got) :
    (r.evictExpired now).senders.lookup F.sender = F.stateOf now got := by
  rw [Reassembler.evictExpired, lookup_retain, lookup_mapValues, h, dropExpired_stateOf]
  exact tracked_stateOf now got

end Split

/-- A frame is returned for the sender of the fragment that completed it. -/
theorem accept_sender {s : SenderState} {order : IterOrder} {hdr : FragmentHeader} {chunk : List UInt8} {now : Nat}
    {f : ReassembledFrame} (h : (s.accept order hdr chunk now).2 = some f) : f.sender = hdr.sender := by
  have hstore : ∀ s : SenderState, (s.store hdr chunk).2 = some f → f.sender = hdr.sender := by
    intro s h
    unfold SenderState.store at h
    split at h
    · cases h
    · simp only at h
      split_ifs at h
      split at h
      · rw [← Option.some.inj h]
      · cases h
  unfold SenderState.accept at h
  split at h
  · cases h
  · simp only at h
    split at h
    · cases h
    · split_ifs at h
      exact hstore _ h

theorem mem_of_evictExpired {r : Reassembler} {now : Nat} {s : String} (h : s ∈ (r.evictExpired now).senders) : s ∈ r.senders := by
  rw [← AList.lookup_isSome, Reassembler.evictExpired, lookup_retain, lookup_mapValues] at h
  rw [← AList.lookup_isSome]
  cases hs : r.senders.lookup s with
  | none => simp [hs] at h
  | some _ => rfl

namespace Split

variable {F : Split} {known : List String} {now i : Nat} {got : List Nat} {r : Reassembler}

/-- The fragments `got` have arrived at `now`, and only `known` senders are tracked. -/
structure Holds (F : Split) (known : List String) (now : Nat) (r : Reassembler) (got : List Nat) : Prop where
  arrived : F.Arrived got
  state : r.senders.lookup F.sender = F.stateOf now got
  senders : ∀ s ∈ r.senders, s ∈ known

/-- A sender that is not tracked yet finds room among the known ones. -/
theorem Holds.room (h : F.Holds known now r got) (hmem : F.sender ∈ known) (hknown : known.length ≤ maxSenders)
    (hnone : (r.evictExpired now).senders.lookup F.sender = none) : (r.evictExpired now).senders.entries.length < maxSenders := by
  have hnot : F.sender ∉ (r.evictExpired now).senders := AList.lookup_eq_none.mp hnone
  have hnodup : (F.sender :: (r.evictExpired now).senders.keys).Nodup := List.nodup_cons.mpr ⟨hnot, AList.keys_nodup _⟩
  have hsub : (F.sender :: (r.evictExpired now).senders.keys).Subperm known := by
    refine List.subperm_of_subset hnodup fun s hs => ?_
    rcases List.mem_cons.mp hs with rfl | hs
    · exact hmem
    · exact h.senders s (mem_of_evictExpired hs)
  have hlen := hsub.length_le
  have hkeys : (r.evictExpired now).senders.keys.length = (r.evictExpired now).senders.entries.length := List.length_map _
  rw [List.length_cons, hkeys] at hlen
  omega

/-- A fragment of the frame is handed to the state that the ones before it left. -/
theorem Holds.push_own (h : F.Holds known now r got) (hmem : F.sender ∈ known) (hknown : known.length ≤ maxSenders)
    (hi : i < F.count) (order : IterOrder) :
    r.push order (F.bytes i) now =
      (⟨(r.evictExpired now).senders.insert F.sender ((F.found now got).accept order (F.header i) (F.chunk i) now).1⟩,
        ((F.found now got).accept order (F.header i) (F.chunk i) now).2) := by
  have hlook := lookup_evictExpired h.state
  unfold Reassembler.push
  simp only [F.parse_bytes hi]
  have hsender : (F.header i).sender = F.sender := rfl
  rw [hsender, if_neg]
  · rw [hlook]
    rfl
  · rintro ⟨hnone, hfull⟩
    have := h.room hmem hknown (Option.isNone_iff_eq_none.mp hnone)
    omega

/-- The other senders' entries and the state filed for this one. -/
theorem Holds.file (h : F.Holds known now r got) (hmem : F.sender ∈ known) {got' : List Nat} {s : SenderState}
    (harrived : F.Arrived got') (hs : some s = F.stateOf now got') :
    F.Holds known now ⟨(r.evictExpired now).senders.insert F.sender s⟩ got' where
  arrived := harrived
  state := by rw [AList.lookup_insert, hs]
  senders := by
    intro x hx
    rcases (AList.mem_insert _).mp hx with rfl | hx
    · exact hmem
    · exact h.senders x (mem_of_evictExpired hx)

/-- **A fragment of the frame.** It is filed unless it was there; the one that was missing last returns the frame. -/
theorem Holds.own (h : F.Holds known now r got) (hmem : F.sender ∈ known) (hknown : known.length ≤ maxSenders)
    (hi : i < F.count) (order : IterOrder) :
    ∃ got', F.Holds known now (r.push order (F.bytes i) now).1 got' ∧ (∀ j, j ∈ got' ↔ j = i ∨ j ∈ got) ∧
      (r.push order (F.bytes i) now).2 = if got.length < F.count ∧ got'.length = F.count then some F.frame else none := by
  rw [h.push_own hmem hknown hi order]
  have hle := h.arrived.length_le
  by_cases hdone : got.length = F.count
  · -- everything was there: the frame is behind the newest completed one
    have hin : i ∈ got := h.arrived.all_of_length hdone i hi
    have hne : got ≠ [] := List.ne_nil_of_mem hin
    have hstate : F.stateOf now got = some F.finished := by
      rw [stateOf, if_neg hne, if_neg (by omega)]
    have hfound : F.found now got = F.finished := by rw [found, hstate, Option.getD_some]
    rw [hfound, accept_finished]
    refine ⟨got, h.file hmem h.arrived hstate.symm, fun j => ⟨Or.inr, ?_⟩, by rw [if_neg (by omega)]⟩
    rintro (rfl | hj)
    · exact hin
    · exact hj
  have hlt : got.length < F.count := by omega
  rw [accept_found h.arrived hlt hi]
  by_cases hdup : i ∈ got
  · have hstate : F.stateOf now got = some (F.partialState now got) := by
      rw [stateOf, if_neg (List.ne_nil_of_mem hdup), if_pos hlt]
    rw [if_pos hdup]
    refine ⟨got, h.file hmem h.arrived hstate.symm, fun j => ⟨Or.inr, ?_⟩, by rw [if_neg (by omega)]⟩
    rintro (rfl | hj)
    · exact hdup
    · exact hj
  rw [if_neg hdup]
  have harrived := h.arrived.cons hi hdup
  refine ⟨i :: got, ?_⟩
  by_cases hlast : (i :: got).length = F.count
  · have hstore : (F.partialState now got).store (F.header i) (F.chunk i) = (F.finished, some F.frame) :=
      store_last none harrived hlast hdup hi
    rw [hstore, if_pos ⟨hlt, hlast⟩]
    refine ⟨h.file hmem harrived ?_, fun j => List.mem_cons, rfl⟩
    rw [stateOf, if_neg (List.cons_ne_nil _ _), if_neg (by omega)]
  · have hmore : (i :: got).length < F.count := by
      have := harrived.length_le
      omega
    have hstore : (F.partialState now got).store (F.header i) (F.chunk i) = (F.partialState now (i :: got), none) :=
      store_more none hdup hi hmore
    rw [hstore, if_neg (fun h => hlast h.2)]
    refine ⟨h.file hmem harrived ?_, fun j => List.mem_cons, rfl⟩
    rw [stateOf, if_neg (List.cons_ne_nil _ _), if_pos hmore]

/-- **Any other bytes.** They leave the frame where it is and return nothing for its sender. -/
theorem Holds.other (h : F.Holds known now r got) {buf : List UInt8}
    (hbuf : ∀ out, parseFragment buf = some out → out.1.sender ≠ F.sender ∧ out.1.sender ∈ known) (order : IterOrder) :
    F.Holds known now (r.push order buf now).1 got ∧ ∀ f, (r.push order buf now).2 = some f → f.sender ≠ F.sender := by
  unfold Reassembler.push
  cases hparse : parseFragment buf with
  | none => exact ⟨h, by simp⟩
  | some out =>
    obtain ⟨hdr, chunk⟩ := out
    obtain ⟨hne, hin⟩ := hbuf _ hparse
    have hlook := lookup_evictExpired h.state
    simp only
    split_ifs
    · exact ⟨⟨h.arrived, hlook, fun s hs => h.senders s (mem_of_evictExpired hs)⟩, by simp⟩
    · refine ⟨⟨h.arrived, ?_, ?_⟩, ?_⟩
      · rw [AList.lookup_insert_ne hne.symm]
        exact hlook
      · intro s hs
        rcases (AList.mem_insert _).mp hs with rfl | hs
        · exact hin
        · exact h.senders s (mem_of_evictExpired hs)
      · intro f hf
        rw [accept_sender hf]
        exact hne

end Split

end DoubleSlash.Video
