import DoubleSlash.Files.Receiver

/-!
# What an operation on one transfer leaves alone

Every operation on the inbound transfer `tid` is put together from four moves: change its record within its offer, write through
its open file, remove its `.part` file, emit events about it. `Within` says what any such sequence can do; each operation is
shown to be one.
-/

namespace DoubleSlash.Files

open Assoc Fs Codec Protocol

/-- The offer a record was made from. -/
def InboundTransfer.offerOf (x : InboundTransfer) : Offer where
  peerId := x.peerId
  roomId := x.roomId
  supernodeId := x.supernodeId
  transferId := x.transferId
  relPath := x.relPath
  sha256 := x.expectedSha256
  size := x.expectedSize
  totalChunks := x.totalChunks
  purpose := x.purpose
  compressed := x.compressed
  isDelta := x.isDelta
  baseSha256 := x.baseSha256

/-- The open file of a sink. -/
def TransferSink.handle? : TransferSink → Option Nat
  | .memory _ => none
  | .partFile file _ _ _ => file

/-- A streamed transfer is verified only after its writer was closed. -/
def InboundTransfer.ClosedToVerify (x : InboundTransfer) : Prop :=
  x.state = .verifying → x.sink.handle? = none

/-- The same transfer later: its offer and its `.part` file stay, its writer may have been closed. -/
structure Continues (x x' : InboundTransfer) : Prop where
  offer : x'.offerOf = x.offerOf
  part : x'.sink.partPath? = x.sink.partPath?
  writer : x'.sink.handle? = x.sink.handle? ∨ x'.sink.handle? = none
  closed : x.ClosedToVerify → x'.ClosedToVerify

/-- The offers that get a `.part` file. -/
def Offer.opensPart (o : Offer) : Prop :=
  o.size ≤ maxTransferSize ∧ inlineMax < o.size ∧ o.compressed = false ∧ o.isDelta = false

instance (o : Offer) : Decidable o.opensPart := by
  unfold Offer.opensPart
  infer_instance

/-- The event is about the transfer: it settles it, or is a message that names it. -/
def TransferEvent.About (tid : String) : TransferEvent → Prop
  | .complete id .. => id = tid
  | .failed id _ => id = tid
  | .sendMessage _ _ payload => payload.strOr "transfer_id" "" = tid
  | _ => True

theorem Continues.refl (x : InboundTransfer) : Continues x x := ⟨rfl, rfl, Or.inl rfl, id⟩

theorem Continues.trans {x y z : InboundTransfer} (h₁ : Continues x y) (h₂ : Continues y z) : Continues x z where
  offer := h₂.offer.trans h₁.offer
  part := h₂.part.trans h₁.part
  writer := by
    rcases h₂.writer with h | h
    · rw [h]
      exact h₁.writer
    · exact Or.inr h
  closed := fun h => h₂.closed (h₁.closed h)

/-- A change of progress and state alone. -/
theorem Continues.of_sink {x x' : InboundTransfer} (hoffer : x'.offerOf = x.offerOf) (hsink : x'.sink = x.sink)
    (hstate : x'.state = x.state ∨ x'.state ≠ .verifying) : Continues x x' where
  offer := hoffer
  part := by rw [hsink]
  writer := Or.inl (by rw [hsink])
  closed := by
    intro h hv
    rcases hstate with hs | hs
    · rw [hsink]
      exact h (hs ▸ hv)
    · exact absurd hv hs

/-- Filling the sink. -/
theorem Continues.of_handle {x x' : InboundTransfer} (hoffer : x'.offerOf = x.offerOf)
    (hpart : x'.sink.partPath? = x.sink.partPath?) (hhandle : x'.sink.handle? = x.sink.handle?) (hstate : x'.state = x.state) :
    Continues x x' := ⟨hoffer, hpart, Or.inl hhandle, fun h hv => hhandle ▸ h (hstate ▸ hv)⟩

/-- Verifying a transfer without an open file. -/
theorem Continues.of_closed {x x' : InboundTransfer} (hoffer : x'.offerOf = x.offerOf) (hsink : x'.sink = x.sink)
    (hclosed : x.sink.handle? = none) : Continues x x' :=
  ⟨hoffer, by rw [hsink], Or.inl (by rw [hsink]), fun _ _ => by rw [hsink, hclosed]⟩

theorem TransferSink.handle?_close (sink : TransferSink) : sink.close.handle? = none := by
  cases sink <;> rfl

theorem handle?_of_not_streaming {x : InboundTransfer} (h : ¬x.isStreaming = true) : x.sink.handle? = none := by
  unfold InboundTransfer.isStreaming at h
  cases hs : x.sink with
  | memory _ => rfl
  | partFile _ _ _ _ => simp [hs, TransferSink.partPath?] at h

/-- Closing the writer. -/
theorem Continues.of_close {x x' : InboundTransfer} (hoffer : x'.offerOf = x.offerOf) (hsink : x'.sink = x.sink.close) :
    Continues x x' where
  offer := hoffer
  part := by
    rw [hsink]
    cases x.sink <;> rfl
  writer := Or.inr (by rw [hsink]; cases x.sink <;> rfl)
  closed := fun _ _ => by rw [hsink]; cases x.sink <;> rfl

/-- The sending half as it was, but for one transfer, which keeps its id. -/
structure OutboundKept (tid : String) (m m' : FileTransferManager) : Prop where
  outbound : ∀ id, id ≠ tid → m'.outbound.lookup id = m.outbound.lookup id
  ids : ∀ x', m'.outbound.lookup tid = some x' → ∃ x, m.outbound.lookup tid = some x ∧ x'.transferId = x.transferId

theorem OutboundKept.of_eq {tid : String} {m m' : FileTransferManager} (h : m'.outbound = m.outbound) :
    OutboundKept tid m m' := ⟨fun _ _ => by rw [h], fun x hx => ⟨x, h ▸ hx, rfl⟩⟩

theorem OutboundKept.trans {tid : String} {m₁ m₂ m₃ : FileTransferManager} (h₁ : OutboundKept tid m₁ m₂)
    (h₂ : OutboundKept tid m₂ m₃) : OutboundKept tid m₁ m₃ where
  outbound := fun id hid => (h₂.outbound id hid).trans (h₁.outbound id hid)
  ids := by
    intro z hz
    obtain ⟨y, hy, hyz⟩ := h₂.ids z hz
    obtain ⟨x, hx, hxy⟩ := h₁.ids y hy
    exact ⟨x, hx, hyz.trans hxy⟩

theorem OutboundKept.insert {tid : String} {m : FileTransferManager} {x x' : OutboundTransfer}
    (hx : m.outbound.lookup tid = some x) (hid : x'.transferId = x.transferId) :
    OutboundKept tid m { m with outbound := m.outbound.insert tid x' } where
  outbound := fun _ h => AList.lookup_insert_ne h
  ids := by
    intro y hy
    rw [AList.lookup_insert] at hy
    exact ⟨x, hx, Option.some.inj hy ▸ hid⟩

/-- What operations on `tid` may do: other records and old data stay; the record of `tid` continues or goes; a
file keeps its name and content unless it is `tid`'s `.part` file or open for it, and none gets a new name; nothing but that
`.part` file is deleted; every event is about `tid`. -/
structure Within (tid : String) (m : FileTransferManager) (st : Storage) (o : Outcome) : Prop where
  others : ∀ id, id ≠ tid → o.mgr.inbound.lookup id = m.inbound.lookup id
  record : ∀ x', o.mgr.inbound.lookup tid = some x' → ∃ x, m.inbound.lookup tid = some x ∧ Continues x x'
  outbound : OutboundKept tid m o.mgr
  oldData : o.mgr.oldDataStore = m.oldDataStore
  files : ∀ q i, st.disk.names.lookup q = some i →
    (∀ x, m.inbound.lookup tid = some x → x.sink.handle? ≠ some i ∧ ∀ p, x.sink.partPath? = some p → resolve p ≠ q) →
    o.storage.disk.names.lookup q = some i ∧ o.storage.disk.data i = st.disk.data i
  links : ∀ q i, o.storage.disk.names.lookup q = some i → st.disk.names.lookup q = some i
  next : o.storage.disk.next = st.disk.next
  journal : ∃ new, o.storage.journal = st.journal ++ new ∧
    ∀ t ∈ new, ∃ x p, m.inbound.lookup tid = some x ∧ x.sink.partPath? = some p ∧ t = .delete p
  about : ∀ e ∈ o.events, e.About tid

namespace InboundAux

section

variable {tid : String} {m : FileTransferManager} {st : Storage}

/-- Emitting events about the transfer. -/
theorem within_emit {events : List TransferEvent} (h : ∀ e ∈ events, e.About tid) :
    Within tid m st ⟨m, st, events⟩ where
  others := fun _ _ => rfl
  record := fun x' hx' => ⟨x', hx', Continues.refl x'⟩
  outbound := .of_eq rfl
  oldData := rfl
  files := fun _ _ hq _ => ⟨hq, rfl⟩
  links := fun _ _ hq => hq
  next := rfl
  journal := ⟨[], by simp⟩
  about := h

theorem within_nothing : Within tid m st ⟨m, st, []⟩ := within_emit (by simp)

/-- Changing the record within its offer. -/
theorem within_update {x x' : InboundTransfer} (hx : m.inbound.lookup tid = some x) (hc : Continues x x') :
    Within tid m st ⟨{ m with inbound := m.inbound.insert tid x' }, st, []⟩ where
  others := fun id hid => AList.lookup_insert_ne hid
  record := by
    intro y hy
    rw [AList.lookup_insert] at hy
    exact ⟨x, hx, Option.some.inj hy ▸ hc⟩
  outbound := .of_eq rfl
  oldData := rfl
  files := fun _ _ hq _ => ⟨hq, rfl⟩
  links := fun _ _ hq => hq
  next := rfl
  journal := ⟨[], by simp⟩
  about := by simp

/-- Writing through the open file. -/
theorem within_write {x : InboundTransfer} {i : Nat} {content : List UInt8} (hx : m.inbound.lookup tid = some x)
    (hi : x.sink.handle? = some i) : Within tid m st ⟨m, { st with disk := st.disk.store i content }, []⟩ where
  others := fun _ _ => rfl
  record := fun x' hx' => ⟨x', hx', Continues.refl x'⟩
  outbound := .of_eq rfl
  oldData := rfl
  files := by
    intro q j hq hfar
    refine ⟨hq, ?_⟩
    rw [Disk.data_store, if_neg]
    rintro rfl
    exact (hfar x hx).1 hi
  links := fun _ _ hq => hq
  next := rfl
  journal := ⟨[], by simp⟩
  about := by simp

/-- Removing the `.part` file. -/
theorem within_remove {E : FileEnv} {x : InboundTransfer} {p : Path} (hx : m.inbound.lookup tid = some x)
    (hp : x.sink.partPath? = some p) : Within tid m st ⟨m, st.removeFile E p, []⟩ where
  others := fun _ _ => rfl
  record := fun x' hx' => ⟨x', hx', Continues.refl x'⟩
  outbound := .of_eq rfl
  oldData := rfl
  files := by
    intro q i hq hfar
    simp only [Storage.removeFile]
    split
    · exact ⟨hq, rfl⟩
    · rw [Disk.lookup_remove, if_neg fun h => (hfar x hx).2 p hp h.symm]
      exact ⟨hq, rfl⟩
  links := by
    intro q i hq
    simp only [Storage.removeFile] at hq
    split at hq
    · exact hq
    · rw [Disk.lookup_remove] at hq
      split at hq
      · cases hq
      · exact hq
  next := by
    simp only [Storage.removeFile]
    split <;> rfl
  journal := by
    refine ⟨[.delete p], rfl, ?_⟩
    simp only [List.mem_singleton]
    rintro t rfl
    exact ⟨x, p, hx, hp, rfl⟩
  about := by simp

/-- Dropping the record. -/
theorem within_drop : Within tid m st ⟨{ m with inbound := m.inbound.erase tid }, st, []⟩ where
  others := fun id hid => AList.lookup_erase_ne hid
  record := by simp
  outbound := .of_eq rfl
  oldData := rfl
  files := fun _ _ hq _ => ⟨hq, rfl⟩
  links := fun _ _ hq => hq
  next := rfl
  journal := ⟨[], by simp⟩
  about := by simp

/-- Two operations on the transfer, one after the other. -/
theorem within_trans {m₁ : FileTransferManager} {st₁ : Storage} {o₂ : Outcome} (h₁ : Within tid m st ⟨m₁, st₁, []⟩)
    (h₂ : Within tid m₁ st₁ o₂) : Within tid m st o₂ where
  others := fun id hid => (h₂.others id hid).trans (h₁.others id hid)
  record := by
    intro z hz
    obtain ⟨y, hy, hyz⟩ := h₂.record z hz
    obtain ⟨x, hx, hxy⟩ := h₁.record y hy
    exact ⟨x, hx, hxy.trans hyz⟩
  outbound := h₁.outbound.trans h₂.outbound
  oldData := h₂.oldData.trans h₁.oldData
  files := by
    intro q i hq hfar
    obtain ⟨hq₁, hd₁⟩ := h₁.files q i hq hfar
    have hfar₁ : ∀ y, m₁.inbound.lookup tid = some y →
        y.sink.handle? ≠ some i ∧ ∀ p, y.sink.partPath? = some p → resolve p ≠ q := by
      intro y hy
      obtain ⟨x, hx, hxy⟩ := h₁.record y hy
      obtain ⟨hh, hp⟩ := hfar x hx
      constructor
      · rcases hxy.writer with h | h <;> rw [h]
        · exact hh
        · exact nofun
      · rw [hxy.part]
        exact hp
    obtain ⟨hq₂, hd₂⟩ := h₂.files q i hq₁ hfar₁
    exact ⟨hq₂, hd₂.trans hd₁⟩
  links := fun q i hq => h₁.links q i (h₂.links q i hq)
  next := h₂.next.trans h₁.next
  journal := by
    obtain ⟨n₁, hj₁, hn₁⟩ := h₁.journal
    obtain ⟨n₂, hj₂, hn₂⟩ := h₂.journal
    refine ⟨n₁ ++ n₂, by rw [hj₂, hj₁, List.append_assoc], fun t ht => ?_⟩
    rcases List.mem_append.mp ht with ht | ht
    · exact hn₁ t ht
    · obtain ⟨y, p, hy, hp, rfl⟩ := hn₂ t ht
      obtain ⟨x, hx, hxy⟩ := h₁.record y hy
      exact ⟨x, p, hx, by rw [← hxy.part, hp], rfl⟩
  about := h₂.about

/-- The same with events about the transfer. -/
theorem within_events {m' : FileTransferManager} {st' : Storage} {events : List TransferEvent}
    (h : Within tid m st ⟨m', st', []⟩) (hev : ∀ e ∈ events, e.About tid) :
    Within tid m st ⟨m', st', events⟩ :=
  { h with about := hev }

/-- The same with two slices taken first. -/
theorem within_sliced {o : Outcome} {a b : String} {i j : Nat} (h : Within tid m st o) :
    Within tid m st { o with events := .sliced a i :: .sliced b j :: o.events } :=
  { h with
    about := fun e he => by
      simp only [List.mem_cons] at he
      rcases he with rfl | rfl | he
      · exact trivial
      · exact trivial
      · exact h.about e he }

end

end InboundAux

/-! ## The operations -/

namespace FileTransferManager

open InboundAux

section

variable (E : FileEnv) (m : FileTransferManager) (st : Storage) (tid : String)

theorem within_acceptTransfer : Within tid m st (acceptTransfer E m st tid) := by
  unfold acceptTransfer
  split
  · exact within_nothing
  · rename_i x hx
    split
    · refine within_events (within_update hx (.of_sink rfl rfl (by simp))) ?_
      simp [TransferEvent.About, Payload.strOr, Payload.get, Json.asStr]
    · exact within_nothing

theorem within_acceptTransferLocally : Within tid m st (acceptTransferLocally E m st tid) := by
  unfold acceptTransferLocally
  split
  · exact within_nothing
  · rename_i x hx
    split
    · refine within_events (within_update hx (.of_sink rfl rfl (by simp))) ?_
      simp [TransferEvent.About, Payload.strOr, Payload.get, Json.asStr]
    · exact within_nothing

theorem within_rejectTransfer (reason : String) : Within tid m st (rejectTransfer m st tid reason) := by
  unfold rejectTransfer
  split
  · exact within_nothing
  · rename_i x hx
    refine within_events (within_update hx (.of_sink rfl rfl (by simp))) ?_
    simp [TransferEvent.About, Payload.strOr, Payload.get, Json.asStr]

theorem within_cancelOutbound : Within tid m st (cancelOutbound m st tid) := by
  unfold cancelOutbound
  split
  · exact within_nothing
  · rename_i x hx
    split
    · have hemit : Within tid m st ⟨m, st, [.failed tid "cancelled", .stateChanged tid "cancelled"]⟩ :=
        within_emit (by simp [TransferEvent.About])
      exact { hemit with outbound := .insert hx rfl }
    · exact within_nothing

theorem within_cancelTransfer : Within tid m st (cancelTransfer m st tid) := by
  unfold cancelTransfer
  split
  · exact within_cancelOutbound m st tid
  · rename_i x hx
    have hcancel : Continues x { x with state := .cancelled } := .of_sink rfl rfl (by simp)
    have hupdate := @within_update tid m st _ _ hx hcancel
    split
    · exact within_rejectTransfer m st tid _
    · exact within_events hupdate (by simp [TransferEvent.About, Payload.strOr, Payload.get, Json.asStr])
    · exact within_events hupdate (by simp [TransferEvent.About, Payload.strOr, Payload.get, Json.asStr])
    · exact within_cancelOutbound m st tid

theorem within_discardInbound : Within tid m st (discardInbound E m st tid) := by
  unfold discardInbound
  split
  · exact within_nothing
  · rename_i x hx
    cases hp : x.sink.partPath? with
    | none => exact within_drop
    | some p => exact within_trans (within_remove hx hp) within_drop

theorem within_failInbound (reason : String) : Within tid m st (failInbound E m st tid reason) := by
  unfold failInbound
  split
  · exact within_nothing
  · rename_i x hx
    have hupdate : ∀ st', Within tid m st'
        ⟨{ m with
            inbound := m.inbound.insert tid
              { x with state := .failed, resumable := false, finishedAt := some E.now, sink := x.sink.close } }, st', []⟩ :=
      fun st' => within_update hx (.of_close rfl rfl)
    refine within_events ?_ (by simp [TransferEvent.About, Payload.strOr, Payload.get, Json.asStr])
    cases hp : x.sink.partPath? with
    | none => exact hupdate st
    | some p =>
      change Within tid m st ⟨_, if st.exists p then st.removeFile E p else st, []⟩
      split
      · exact within_trans (within_remove hx hp) (hupdate _)
      · exact hupdate st

theorem within_publish {x : InboundTransfer} (hx : m.inbound.lookup tid = some x) (payload : TransferPayload) :
    Within tid m st (publish E m st tid x payload) := by
  have hdone : Continues x { x with state := .complete, finishedAt := some E.now } := .of_sink rfl rfl (by simp)
  exact within_events (within_update hx hdone) (by simp [TransferEvent.About, Payload.strOr, Payload.get, Json.asStr])

theorem within_finishStreaming : Within tid m st (finishStreaming E m st tid) := by
  unfold finishStreaming
  split
  · exact within_nothing
  · rename_i x hx
    split
    · rename_i i path received count hsink
      have hclose : Continues x { x with sink := x.sink.close } :=
        .of_close rfl rfl
      -- The writer is closed first, so what follows acts on the closed record.
      have hclosed := @within_update tid m st _ _ hx hclose
      have hopen : x.sink.handle? = some i := by rw [hsink]; rfl
      have hwrite := @within_write tid m st _ _ (resize (st.disk.data i) x.expectedSize) hx hopen
      simp only
      split
      · exact within_trans hclosed (within_failInbound E _ _ tid _)
      have hboth : Within tid m st ⟨{ m with inbound := m.inbound.insert tid { x with sink := x.sink.close } },
          { st with disk := st.disk.store i (resize (st.disk.data i) x.expectedSize) }, []⟩ :=
        within_trans hwrite (within_update hx hclose)
      split
      · exact within_trans hboth (within_failInbound E _ _ tid _)
      · split
        · refine within_events (within_trans hboth (within_update (AList.lookup_insert _)
            (.of_closed rfl rfl (TransferSink.handle?_close x.sink)))) ?_
          simp [TransferEvent.About, Payload.strOr, Payload.get, Json.asStr]
        · exact within_trans hboth (within_failInbound E _ _ tid _)
    · exact within_nothing

theorem within_finishInbound : Within tid m st (finishInbound E m st tid) := by
  unfold finishInbound
  split
  · exact within_nothing
  · rename_i x hx
    split
    · exact within_nothing
    split
    · exact within_finishStreaming E m st tid
    rename_i hstream
    have hclosed : Continues x { x with state := .verifying } := .of_closed rfl rfl (handle?_of_not_streaming hstream)
    have hverify := @within_update tid m st _ _ hx hclosed
    simp only
    split
    · exact within_trans hverify (within_failInbound E _ _ tid _)
    · split
      · exact within_trans hverify (within_failInbound E _ _ tid _)
      · split
        · exact within_trans hverify (within_sliced (within_failInbound E _ _ tid _))
        · exact within_trans hverify (within_publish E _ _ tid (AList.lookup_insert _) _)

theorem within_storeChunk {x : InboundTransfer} (hx : m.inbound.lookup tid = some x) (index : Nat) (data : List UInt8) :
    Continues x (storeChunk E x st index data).1 ∧ Within tid m st ⟨m, (storeChunk E x st index data).2.1, []⟩ := by
  unfold storeChunk
  split
  · exact ⟨.refl x, within_nothing⟩
  split
  · rename_i chunks hsink
    split
    · exact ⟨.refl x, within_nothing⟩
    · exact ⟨.of_handle rfl (by rw [hsink]; rfl) (by rw [hsink]; rfl) rfl, within_nothing⟩
  · rename_i file path received count hsink
    split
    · exact ⟨.refl x, within_nothing⟩
    split
    · exact ⟨.refl x, within_nothing⟩
    · rename_i i
      have hi : x.sink.handle? = some i := by rw [hsink]; rfl
      simp only
      split
      · exact ⟨.refl x, within_write hx hi⟩
      · exact ⟨.of_handle rfl (by rw [hsink]; rfl) (by rw [hsink]; rfl) rfl, within_write hx hi⟩

theorem continues_resumed (x : InboundTransfer) : Continues x (resumed x) := by
  unfold resumed
  split
  · exact .of_sink rfl rfl (by simp [revived])
  · exact .refl x

theorem continues_progressed (x : InboundTransfer) : Continues x (progressed E x) :=
  .trans (y := { x with lastProgressAt := E.now, resumeAttempts := 0 }) (.of_sink rfl rfl (by simp)) (continues_resumed _)

theorem within_onChunkBytesReceived (index : Nat) (chunk : List UInt8) :
    Within tid m st (onChunkBytesReceived E m st tid index chunk) := by
  unfold onChunkBytesReceived
  split
  · exact within_nothing
  · rename_i x hx
    split
    · exact within_nothing
    split
    · exact within_failInbound E m st tid _
    obtain ⟨hcont, hstore⟩ := within_storeChunk E m st tid hx index chunk
    simp only
    split
    · exact hstore
    · split
      · refine within_events (within_update hx (.of_sink rfl rfl (by simp [revived]))) ?_
        simp [TransferEvent.About]
      · exact within_update hx (.of_sink rfl rfl (by simp))
    · have hnew := within_trans hstore (within_update hx (hcont.trans (continues_progressed E _)))
      split
      · exact within_trans hnew (within_finishInbound E _ _ tid)
      · refine within_events hnew fun e he => ?_
        split at he
        · rw [List.mem_singleton] at he
          exact he ▸ trivial
        · cases he

theorem within_onChunkReceived (index : Nat) (dataB64 : String) :
    Within tid m st (onChunkReceived E m st tid index dataB64) := by
  unfold onChunkReceived
  split
  · exact within_failInbound E m st tid _
  · exact within_onChunkBytesReceived E m st tid index _

theorem within_onCompleteReceived : Within tid m st (onCompleteReceived E m st tid) := by
  unfold onCompleteReceived
  split
  · exact within_nothing
  · rename_i x hx
    split
    · exact within_nothing
    simp only
    split
    · exact within_update hx ((continues_resumed x).trans (.of_sink rfl rfl (by simp)))
    · exact within_trans (within_update hx (continues_resumed x)) (within_finishInbound E _ _ tid)

theorem within_armRetry : Within tid m st ⟨(armRetry E m tid).1, st, []⟩ := by
  unfold armRetry
  split
  · exact within_nothing
  · rename_i x hx
    split
    · exact within_update hx (.of_sink rfl rfl (by simp [revived]))
    · exact within_nothing

/-- **What an offer can do.** It is refused, with nothing filed; or it is filed with its chunks in memory; or it is filed with the
`.part` file that was opened for it. -/
theorem onOfferReceived_cases (o : Offer) :
    (∃ st' reason, onOfferReceived E m st o = ⟨m, st', [refuse o reason]⟩ ∧ st'.disk = st.disk ∧
      (st' = st ∨ o.opensPart ∧
        st'.journal = st.journal ++ [.create (partPath E.os E.downloadDir o.relPath o.transferId)])) ∨
    (o.size ≤ inlineMax ∧ onOfferReceived E m st o = file E m st o (.memory ∅)) ∨
    (o.opensPart ∧ onOfferReceived E m st o =
      file E m
        { disk := (st.disk.openTruncate (resolve (partPath E.os E.downloadDir o.relPath o.transferId))).1
          journal := st.journal ++ [.create (partPath E.os E.downloadDir o.relPath o.transferId)] } o
        (.partFile (some (st.disk.openTruncate (resolve (partPath E.os E.downloadDir o.relPath o.transferId))).2)
          (partPath E.os E.downloadDir o.relPath o.transferId) (List.replicate o.totalChunks false) 0)) := by
  unfold onOfferReceived
  split
  · exact Or.inl ⟨st, _, rfl, rfl, Or.inl rfl⟩
  rename_i hmax
  split
  · exact Or.inl ⟨st, _, rfl, rfl, Or.inl rfl⟩
  split
  · rename_i hstream
    have hopens : o.opensPart := ⟨Nat.le_of_not_lt hmax, hstream⟩
    unfold openPartFile
    simp only
    by_cases hdir : E.faults.fails .createDir E.downloadDir = true
    · rw [if_pos hdir]
      exact Or.inl ⟨st, _, rfl, rfl, Or.inl rfl⟩
    rw [if_neg hdir]
    by_cases hcreate : E.faults.fails .create (partPath E.os E.downloadDir o.relPath o.transferId) = true
    · rw [if_pos hcreate]
      exact Or.inl ⟨_, _, rfl, rfl, Or.inr ⟨hopens, rfl⟩⟩
    rw [if_neg hcreate]
    exact Or.inr (Or.inr ⟨hopens, rfl⟩)
  split
  · exact Or.inl ⟨st, _, rfl, rfl, Or.inl rfl⟩
  · rename_i hsmall
    exact Or.inr (Or.inl ⟨Nat.le_of_not_lt hsmall, rfl⟩)

/-- A hash result either acts within the transfer, or publishes its `.part` file under a free name. -/
theorem onFileHashed_cases (actual : Except String String) :
    Within tid m st (onFileHashed E m st tid actual) ∨
    ∃ x part, m.inbound.lookup tid = some x ∧ x.state = .verifying ∧ x.sink.partPath? = some part ∧
      actual = .ok x.expectedSha256 ∧
      ((∃ reason, promotePartFile E st part x.relPath = ((promotePartFile E st part x.relPath).1, none) ∧
          onFileHashed E m st tid actual = failInbound E m (promotePartFile E st part x.relPath).1 tid reason) ∨
        ∃ dest, promotePartFile E st part x.relPath = ((promotePartFile E st part x.relPath).1, some dest) ∧
          onFileHashed E m st tid actual =
            publish E m (promotePartFile E st part x.relPath).1 tid x (.savedAt (some dest) x.expectedSize)) := by
  unfold onFileHashed
  split
  · exact Or.inl within_nothing
  · rename_i x hx
    split
    · rename_i file part received count hstate hsink
      split
      · exact Or.inl (within_failInbound E m st tid _)
      · rename_i h
        split
        · exact Or.inl (within_sliced (within_failInbound E m st tid _))
        · rename_i heq
          refine Or.inr ⟨x, part, hx, hstate, by rw [hsink]; rfl, by rw [not_not.mp heq], ?_⟩
          split
          · rename_i st' hp
            exact Or.inl ⟨_, by rw [hp], by rw [hp]⟩
          · rename_i st' dest hp
            exact Or.inr ⟨dest, by rw [hp], by rw [hp]⟩
    · exact Or.inl within_nothing

end

end FileTransferManager

end DoubleSlash.Files
