import DoubleSlash.Lemmas.SenderStates

/-!
# The counters of a reassembler, over all its calls

The representation invariant holds after every sequence of calls. In no call is a counter taken below zero or a frame found whole that
lacks a chunk or its signature.
-/

namespace DoubleSlash.Video

open Assoc SenderState

/-- A place of a call where a counter goes down or a frame may be whole, with the state of the sender there. -/
inductive Place where
  | drop (s : SenderState) (seq : UInt32)
  | store (s : SenderState) (hdr : FragmentHeader) (chunk : List UInt8)

/-- What is taken off the counter is counted in it, and a whole frame is returned. -/
def Place.Safe : Place → Prop
  | .drop s seq => ∀ p, s.partials.lookup seq = some p → p.bytes ≤ s.bytes
  | .store s hdr chunk => ∀ p, s.partials.lookup hdr.frameSeq = some p → hdr.fragCount ≤ (fill p hdr chunk).received →
      (s.store hdr chunk).2.isSome = true

namespace SenderState

/-- The partial frames of a list dropped one after another. -/
def dropPlaces : SenderState → List UInt32 → List Place
  | _, [] => []
  | s, seq :: rest => .drop s seq :: dropPlaces (s.dropPartial seq) rest

/-- Those of `evict_oldest`. -/
def evictPlaces (s : SenderState) (order : IterOrder) : List Place :=
  match minByKey (fun e => e.2.firstSeen) (order.iter s.partials.entries) with
  | none => []
  | some e => [.drop s e.1]

/-- Those of the loop that sheds the oldest work. -/
def shedPlaces (order : IterOrder) (need : Nat) : Nat → SenderState → List Place
  | 0, _ => []
  | fuel + 1, s =>
    if maxPartialBytesPerSender < s.bytes + need ∧ 1 < s.partials.entries.length then
      s.evictPlaces order ++ shedPlaces order need fuel (s.evictOldest order)
    else []

/-- Those of a frame that is whole. -/
def completedPlaces (s : SenderState) (seq : UInt32) : List Place :=
  .drop s seq ::
    let s := s.dropPartial seq
    if s.lastCompleted.all fun last => seqNewer seq last then
      dropPlaces { s with lastCompleted := some seq } (s.partials.keys.filter fun q => seqNewer (seq - monotonicLag) q)
    else []

/-- Those of storing a chunk. -/
def storePlaces (s : SenderState) (hdr : FragmentHeader) (chunk : List UInt8) : List Place :=
  .store s hdr chunk ::
    match s.partials.lookup hdr.frameSeq with
    | none => []
    | some p => if (fill p hdr chunk).received < hdr.fragCount then [] else (s.stored hdr p chunk).completedPlaces hdr.frameSeq

/-- Those of filing a fragment. -/
def filedPlaces (s : SenderState) (order : IterOrder) (hdr : FragmentHeader) (chunk : List UInt8) : List Place :=
  let s' := shed order chunk.length s.partials.entries.length s
  shedPlaces order chunk.length s.partials.entries.length s ++
    if maxPartialBytesPerSender < s'.bytes + chunk.length then [.drop s' hdr.frameSeq] else s'.storePlaces hdr chunk

/-- Those of a fragment of this sender. -/
def acceptPlaces (s : SenderState) (order : IterOrder) (hdr : FragmentHeader) (chunk : List UInt8) (now : Nat) : List Place :=
  match s.screen hdr with
  | none => []
  | some s =>
    (if (s.partials.lookup hdr.frameSeq).isNone ∧ maxInFlightPerSender ≤ s.partials.entries.length then s.evictPlaces order else []) ++
      match (s.found order hdr now).partials.lookup hdr.frameSeq with
      | none => []
      | some p =>
        if p.chunks.length = hdr.fragCount ∧ p.codec = hdr.codec ∧ p.ptsUs = hdr.ptsUs ∧ (p.chunks[hdr.fragIdx]?.join).isSome = false
        then (s.found order hdr now).filedPlaces order hdr chunk
        else []

/-- Those of dropping what has expired. -/
def expiredPlaces (s : SenderState) (now : Nat) : List Place :=
  s.dropPlaces ((s.partials.entries.filter fun e => partialTimeout e.2.chunks.length ≤ now - e.2.firstSeen).map Sigma.fst)

end SenderState

namespace Reassembler

/-- The places of `evict_expired`. -/
def expiredPlaces (r : Reassembler) (now : Nat) : List Place := r.senders.entries.flatMap fun e => e.2.expiredPlaces now

/-- The places of `push`. -/
def pushPlaces (r : Reassembler) (order : IterOrder) (buf : List UInt8) (now : Nat) : List Place :=
  match parseFragment buf with
  | none => []
  | some (hdr, chunk) =>
    let r' := r.evictExpired now
    r.expiredPlaces now ++
      if (r'.senders.lookup hdr.sender).isNone ∧ maxSenders ≤ r'.senders.entries.length then []
      else ((r'.senders.lookup hdr.sender).getD SenderState.default).acceptPlaces order hdr chunk now

/-- The places of a call. -/
def places (r : Reassembler) : Op → List Place
  | .push order buf now => r.pushPlaces order buf now
  | .evictExpired now => r.expiredPlaces now
  | .clear => []

end Reassembler

namespace ReassemblerCountersAux

/-! ## Places of a sender -/

variable {s : SenderState} {place : Place}

theorem safe_drop (h : s.bytes = total s.partials PartialFrame.bytes) (seq : UInt32) : (Place.drop s seq).Safe :=
  fun _ hp => h ▸ le_total hp PartialFrame.bytes

theorem safe_dropPlaces (h : s.Sound) {seqs : List UInt32} (hplace : place ∈ s.dropPlaces seqs) : place.Safe := by
  induction seqs generalizing s with
  | nil => cases hplace
  | cons seq seqs ih =>
    rcases List.mem_cons.mp hplace with rfl | hplace
    · exact safe_drop h.bytes seq
    · exact ih (sound_dropPartial h seq) hplace

theorem safe_evictPlaces (h : s.Sound) {order : IterOrder} (hplace : place ∈ s.evictPlaces order) : place.Safe := by
  unfold evictPlaces at hplace
  split at hplace
  · cases hplace
  · rw [List.mem_singleton] at hplace
    subst hplace
    exact safe_drop h.bytes _

theorem safe_shedPlaces (h : s.Sound) {order : IterOrder} {need fuel : Nat} (hplace : place ∈ shedPlaces order need fuel s) :
    place.Safe := by
  induction fuel generalizing s with
  | zero => cases hplace
  | succ fuel ih =>
    unfold shedPlaces at hplace
    split at hplace
    · rcases List.mem_append.mp hplace with hplace | hplace
      · exact safe_evictPlaces h hplace
      · exact ih (sound_evictOldest h order) hplace
    · cases hplace

variable {hdr : FragmentHeader} {p : PartialFrame} {chunk : List UInt8}

/-- A whole frame is counted although no slot is missing. -/
theorem safe_completedPlaces (h : s.Sound) (hp : s.partials.lookup hdr.frameSeq = some p)
    (hplace : place ∈ (s.stored hdr p chunk).completedPlaces hdr.frameSeq) : place.Safe := by
  have hdrop := sound_dropPartial h hdr.frameSeq
  rcases List.mem_cons.mp hplace with rfl | hplace
  · refine safe_drop ?_ _
    show s.bytes + chunk.length = total (s.partials.insert hdr.frameSeq _) PartialFrame.bytes
    have hbytes : (fill p hdr chunk).bytes = p.bytes + chunk.length := rfl
    rw [total_insert, h.bytes, total_erase hp, hbytes]
    omega
  · rw [dropPartial_stored hp] at hplace
    dsimp only at hplace
    split at hplace
    · have hmoved : ({ s.dropPartial hdr.frameSeq with lastCompleted := some hdr.frameSeq } : SenderState).Sound :=
        ⟨hdrop.few, hdrop.bytes, hdrop.cap, hdrop.partials⟩
      exact safe_dropPlaces hmoved hplace
    · cases hplace

theorem safe_storePlaces (h : s.Sound) (hfits : ∀ p, s.partials.lookup hdr.frameSeq = some p → Fits p hdr)
    (hplace : place ∈ s.storePlaces hdr chunk) : place.Safe := by
  rcases List.mem_cons.mp hplace with rfl | hplace
  · intro p hp hwhole
    obtain ⟨hmissing, -⟩ | ⟨-, frame, -, -, heq⟩ := store_eq h hp (hfits p hp) chunk
    · omega
    · rw [heq]
      rfl
  · split at hplace
    · cases hplace
    · rename_i p hp
      split at hplace
      · cases hplace
      · exact safe_completedPlaces h hp hplace

theorem safe_filedPlaces (h : s.Sound) {order : IterOrder} (hp : s.partials.lookup hdr.frameSeq = some p) (hfits : Fits p hdr)
    (hplace : place ∈ s.filedPlaces order hdr chunk) : place.Safe := by
  have hshed := sound_shed h order chunk.length s.partials.entries.length
  have hshrinks := shrinks_shed order chunk.length s.partials.entries.length s
  rcases List.mem_append.mp hplace with hplace | hplace
  · exact safe_shedPlaces h hplace
  · split at hplace
    · rw [List.mem_singleton] at hplace
      subst hplace
      exact safe_drop hshed.bytes _
    · refine safe_storePlaces hshed (fun p' hp' => ?_) hplace
      obtain rfl := Option.some.inj ((hshrinks _ _ hp').symm.trans hp)
      exact hfits

theorem safe_acceptPlaces (h : s.Sound) {order : IterOrder} (hchecked : Checked hdr) {now : Nat}
    (hplace : place ∈ s.acceptPlaces order hdr chunk now) : place.Safe := by
  unfold acceptPlaces at hplace
  split at hplace
  · cases hplace
  · rename_i s₁ hscreen
    have hs₁ := sound_screen h hscreen
    rcases List.mem_append.mp hplace with hplace | hplace
    · split at hplace
      · exact safe_evictPlaces hs₁ hplace
      · cases hplace
    · split at hplace
      · cases hplace
      · rename_i p hp
        split at hplace
        · rename_i hjoins
          exact safe_filedPlaces (sound_found hs₁ order hchecked now) hp
            ⟨hjoins.1, hchecked.idx, hjoins.2.2.2, hchecked.signature⟩ hplace
        · cases hplace

/-! ## Calls -/

variable {r : Reassembler}

theorem safe_expiredPlaces (h : r.Sound) {now : Nat} (hplace : place ∈ r.expiredPlaces now) : place.Safe := by
  obtain ⟨e, he, hplace⟩ := List.mem_flatMap.mp hplace
  exact safe_dropPlaces (h.senders e.1 e.2 (mem_entries_iff.mp he)) hplace

theorem safe_pushPlaces (h : r.Sound) {order : IterOrder} {buf : List UInt8} {now : Nat}
    (hplace : place ∈ r.pushPlaces order buf now) : place.Safe := by
  unfold Reassembler.pushPlaces at hplace
  split at hplace
  · cases hplace
  · rename_i hdr chunk hparse
    rcases List.mem_append.mp hplace with hplace | hplace
    · exact safe_expiredPlaces h hplace
    · split at hplace
      · cases hplace
      · exact safe_acceptPlaces (Reassembler.sound_lookup (Reassembler.sound_evictExpired h now) _) (checked_of_parse hparse) hplace

theorem safe_places (h : r.Sound) {op : Op} (hplace : place ∈ r.places op) : place.Safe := by
  cases op with
  | push order buf now => exact safe_pushPlaces h hplace
  | evictExpired now => exact safe_expiredPlaces h hplace
  | clear => cases hplace

end ReassemblerCountersAux

open ReassemblerCountersAux

/-- **The counters of a reassembler are right at all times.** After every sequence of calls, at any instants, its representation
invariant holds; and in the next call no counter is taken below zero and every frame found whole is returned. -/
theorem counters_kept (ops : List Op) : (after ops).Sound ∧ ∀ op, ∀ place ∈ (after ops).places op, place.Safe :=
  ⟨Reassembler.sound_after ops, fun _ _ hplace => safe_places (Reassembler.sound_after ops) hplace⟩

end DoubleSlash.Video
