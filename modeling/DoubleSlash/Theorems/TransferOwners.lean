import DoubleSlash.Lemmas.FileMessages
import DoubleSlash.Lemmas.PartFiles
import DoubleSlash.Theorems.InviteAccept
import DoubleSlash.Lib.Run

/-!
# Whose transfer a message can touch

Transfers are addressed by an id their sender chose, and all handlers but the one that revokes a room file take that id without
asking who signed the message: anybody who is trusted (or, in rooms, anybody) can fail, fill or finish another peer's transfer
(`untouched_fails_chunk`). Ids are not all that is shared: both managers put their `.part` files in one directory, so an offer
can also truncate another transfer's file. Along every run in which messages name their sender's own transfers and offers get
`.part` files of their own, nobody touches another peer's transfer (`untouched_of_ownIds`).
-/

namespace DoubleSlash.Manager

open Protocol Store Assoc Codec Files FileTransferManager Fs

/-- The transfer an effect reports as complete or failed. -/
def Effect.reports : Effect → Option String
  | .emit (.fileComplete id ..) => some id
  | .emit (.fileFailed id ..) => some id
  | _ => none

section

variable {S : Type}

/-- The two managers: of transfers with one peer, and of room transfers. -/
def ConnectionManager.transfers (σ : ConnectionManager S) : Bool → FileTransferManager
  | false => σ.fileMgr
  | true => σ.roomFileMgr

/-- The state with one of the two managers replaced. -/
def ConnectionManager.withTransfers (σ : ConnectionManager S) (room : Bool) (m : FileTransferManager) (st : Storage) :
    ConnectionManager S :=
  match room with
  | false => { σ with fileMgr := m, storage := st }
  | true => { σ with roomFileMgr := m, storage := st }

/-- The message types about files. -/
def isFileMessage : MessageType → Bool
  | .fileTransferOffer | .fileTransferAccept | .fileTransferReject | .fileTransferChunk | .fileTransferComplete
  | .fileTransferAck | .fileTransferError | .sfuFileOffer | .sfuFileRequest | .sfuFileRevoke | .sfuFileChunk
  | .sfuFileComplete => true
  | _ => false

/-- Handling left every transfer alone that was offered by, or to, somebody other than the sender: its record with its chunks and
state, its `.part` file, and nothing reported it complete or failed. -/
structure Untouched (sender : String) (σ : ConnectionManager S) (result : ConnectionManager S × List Effect) : Prop where
  inbound : ∀ room id x, (σ.transfers room).inbound.lookup id = some x → bare x.peerId ≠ bare sender →
    (result.1.transfers room).inbound.lookup id = some x ∧
      (∀ p, x.sink.partPath? = some p → result.1.storage.disk.read (resolve p) = σ.storage.disk.read (resolve p)) ∧
      ∀ e ∈ result.2, e.reports ≠ some id
  outbound : ∀ id x, σ.fileMgr.outbound.lookup id = some x → bare x.peerId ≠ bare sender →
    result.1.fileMgr.outbound.lookup id = some x ∧ ∀ e ∈ result.2, e.reports ≠ some id

/-- The id is that of a transfer offered by, or to, somebody other than the sender. -/
def Foreign (σ : ConnectionManager S) (sender id : String) : Prop :=
  (∃ room x, (σ.transfers room).inbound.lookup id = some x ∧ bare x.peerId ≠ bare sender) ∨
    ∃ x, σ.fileMgr.outbound.lookup id = some x ∧ bare x.peerId ≠ bare sender

/-- The `.part` file an offer would get is nobody else's. -/
def OwnPart (E : Env) (σ : ConnectionManager S) (room : Bool) (relPath tid : String) : Prop :=
  ∀ room' id x p, (σ.transfers room').inbound.lookup id = some x → (room', id) ≠ (room, tid) → x.sink.partPath? = some p →
    resolve p ≠ resolve (partPath E.files.os E.files.downloadDir relPath tid)

/-- What a message must not do: name another peer's transfer (unless it is a revocation, which is checked), or have an offer share
another transfer's `.part` file. -/
structure OwnIds (E : Env) (σ : ConnectionManager S) (msg : SignalingMessage) : Prop where
  id : ¬Foreign σ msg.sender (transferIdOf msg) ∨ msg.msgType = .sfuFileRevoke ∧
    ∀ x, σ.roomFileMgr.inbound.lookup (transferIdOf msg) = some x → bare x.peerId ≠ bare msg.sender
  part : msg.msgType = .fileTransferOffer → OwnPart E σ false (msg.payload.strOr "rel_path" "") (transferIdOf msg)
  roomPart : msg.msgType = .sfuFileOffer → OwnPart E σ true (msg.payload.strOr "rel_path" "file") (transferIdOf msg)

/-! ## What handling a file message does -/

namespace TransferOwnersAux

/-- What an acting handler does: one manager is worked on, within the transfer or by filing an offer of that id; a revocation
is the owner's. -/
structure Acted (E : Env) (σ : ConnectionManager S) (msg : SignalingMessage) (room : Bool)
    (r : ConnectionManager S × List Effect) : Prop where
  revoked : msg.msgType = .sfuFileRevoke →
    ∃ x, σ.roomFileMgr.inbound.lookup (transferIdOf msg) = some x ∧ bare x.peerId = bare msg.sender
  other : r.1.transfers (!room) = σ.transfers (!room)
  outbound : OutboundKept (transferIdOf msg) (σ.transfers room) (r.1.transfers room)
  about : ∀ e ∈ r.2, e.About (transferIdOf msg)
  inbound : Kept (transferIdOf msg) (σ.transfers room) σ.storage.disk (r.1.transfers room) r.1.storage.disk ∨
    ∃ o : Offer, o.transferId = transferIdOf msg ∧
      FiledFor E.files o (σ.transfers room) σ.storage.disk (r.1.transfers room) r.1.storage.disk ∧
      (OwnIds E σ msg → PartFree E.files σ.transfers room o)

/-- Nothing is touched and nothing reported. -/
structure Quiet (σ : ConnectionManager S) (r : ConnectionManager S × List Effect) : Prop where
  fileMgr : r.1.fileMgr = σ.fileMgr
  roomFileMgr : r.1.roomFileMgr = σ.roomFileMgr
  storage : r.1.storage = σ.storage
  effects : ∀ e ∈ r.2, e.reports = none

theorem Quiet.cuts {σ : ConnectionManager S} {effects : List Effect} (h : ∀ e ∈ effects, e.reports = none) :
    Quiet σ (σ, effects) := ⟨rfl, rfl, rfl, h⟩

/-- Carrying out events does not change the inbound records. -/
theorem Kept.outbound {tid : String} {m m₁ m₂ : FileTransferManager} {d d₁ : Disk Path} (h : Kept tid m d m₁ d₁)
    (ho : OnlyOutbound tid m₁ m₂) : Kept tid m d m₂ d₁ :=
  { h with
    others := fun id hid => by rw [ho.inbound]; exact h.others id hid
    record := fun x' hx' => h.record x' (ho.inbound ▸ hx') }

/-- A 1:1 handler that runs an operation on the transfer. -/
theorem acted_files {E : Env} {σ : ConnectionManager S} {msg : SignalingMessage} {m : FileTransferManager} {st : Storage}
    {events : List TransferEvent} (hty : msg.msgType ≠ .sfuFileRevoke) (habout : ∀ e ∈ events, e.About (transferIdOf msg))
    (hout : OutboundKept (transferIdOf msg) σ.fileMgr m)
    (hin : Kept (transferIdOf msg) σ.fileMgr σ.storage.disk m st.disk ∨
      ∃ o : Offer, o.transferId = transferIdOf msg ∧ FiledFor E.files o σ.fileMgr σ.storage.disk m st.disk ∧
        (OwnIds E σ msg → PartFree E.files σ.transfers false o)) :
    Acted E σ msg false (withFiles E σ m st events) := by
  obtain ⟨honly, heff⟩ := dispatchTransferEvents_about (E := E) (m := m) habout
  refine ⟨fun h => absurd h hty, rfl, hout.trans honly.toOutboundKept, heff, ?_⟩
  rcases hin with h | ⟨o, hid, ⟨now, sink, hins, hsink⟩, hown⟩
  · exact Or.inl (Kept.outbound h honly)
  · exact Or.inr ⟨o, hid, ⟨now, sink, honly.inbound.trans hins, hsink⟩, hown⟩

/-- A room handler that runs an operation on the transfer. -/
theorem acted_roomFiles {E : Env} {σ : ConnectionManager S} {msg : SignalingMessage} {supernodeId roomId : String}
    {m : FileTransferManager} {st : Storage} {events : List TransferEvent} (hty : msg.msgType ≠ .sfuFileRevoke)
    (habout : ∀ e ∈ events, e.About (transferIdOf msg))
    (hout : OutboundKept (transferIdOf msg) σ.roomFileMgr m)
    (hin : Kept (transferIdOf msg) σ.roomFileMgr σ.storage.disk m st.disk ∨
      ∃ o : Offer, o.transferId = transferIdOf msg ∧ FiledFor E.files o σ.roomFileMgr σ.storage.disk m st.disk ∧
        (OwnIds E σ msg → PartFree E.files σ.transfers true o)) :
    Acted E σ msg true (withRoomFiles E σ supernodeId roomId m st events) := by
  obtain ⟨honly, heff⟩ := @dispatchRoomTransferEvents_about E σ.publicId supernodeId roomId _ m _ habout
  refine ⟨fun h => absurd h hty, rfl, hout.trans honly.toOutboundKept, heff, ?_⟩
  rcases hin with h | ⟨o, hid, ⟨now, sink, hins, hsink⟩, hown⟩
  · exact Or.inl (Kept.outbound h honly)
  · exact Or.inr ⟨o, hid, ⟨now, sink, honly.inbound.trans hins, hsink⟩, hown⟩

/-- A required id is the id the message names. -/
theorem transferIdOf_of_required {msg : SignalingMessage} {tid : String} (h : requiredStr msg "transfer_id" = some tid) :
    transferIdOf msg = tid := by
  obtain ⟨hget, -⟩ := Option.filter_eq_some_iff.mp h
  rw [transferIdOf, Payload.strOr, hget]
  rfl

section

variable {E : Env} {σ : ConnectionManager S} {msg : SignalingMessage}

/-- A handler that answers without touching a transfer. -/
theorem quiet_cut : Quiet σ (σ, [Effect.cut msg.sender 8]) := .cuts (by simp [Effect.reports])

theorem fileTransferOffer_cases (hty : msg.msgType = .fileTransferOffer) :
    Quiet σ (fileTransferOffer E σ msg) ∨ Acted E σ msg false (fileTransferOffer E σ msg) := by
  unfold fileTransferOffer
  split
  · exact Or.inl quiet_cut
  split
  · exact Or.inl quiet_cut
  · rename_i tid htid
    split
    · exact Or.inl quiet_cut
    split
    · exact Or.inl quiet_cut
    · rename_i sha _ _ size _
      right
      have hid := transferIdOf_of_required htid
      obtain ⟨habout, hout, hin⟩ := onOfferReceived_kept E.files σ.fileMgr σ.storage (offerOf msg msg.sender "" "" "" "file" tid sha size)
      refine acted_files (by simp [hty]) (by rw [hid]; exact habout) (.of_eq hout) ?_
      rcases hin with h | h
      · exact Or.inl (by rw [hid]; exact h)
      · refine Or.inr ⟨_, hid.symm, h, fun hown => ?_⟩
        intro room' id x p hx hne
        exact hid ▸ hown.part hty room' id x p hx (hid ▸ hne)

theorem sfuFileOffer_cases (supernodeId : String) (hty : msg.msgType = .sfuFileOffer) :
    Quiet σ (sfuFileOffer E σ msg supernodeId) ∨ Acted E σ msg true (sfuFileOffer E σ msg supernodeId) := by
  unfold sfuFileOffer
  split
  · exact Or.inl quiet_cut
  simp only
  split
  · exact Or.inl quiet_cut
  · rename_i tid htid
    split
    · exact Or.inl (.cuts (by simp))
    split
    · exact Or.inl quiet_cut
    split
    · exact Or.inl quiet_cut
    · rename_i sha _ _ size _
      right
      have hid := transferIdOf_of_required htid
      obtain ⟨habout, hout, hin⟩ := onOfferReceived_kept E.files σ.roomFileMgr σ.storage
        (offerOf msg (originOf msg (msg.payload.strOr "room_id" "default")) (msg.payload.strOr "room_id" "default") supernodeId
          "file" "room_file" tid sha size)
      refine acted_roomFiles (by simp [hty]) (by rw [hid]; exact habout) (.of_eq hout) ?_
      rcases hin with h | h
      · exact Or.inl (by rw [hid]; exact h)
      · refine Or.inr ⟨_, hid.symm, h, fun hown => ?_⟩
        intro room' id x p hx hne
        exact hid ▸ hown.roomPart hty room' id x p hx (hid ▸ hne)

/-- A handler of the sending half. -/
theorem acted_sending {m : FileTransferManager} {events : List TransferEvent} (hty : msg.msgType ≠ .sfuFileRevoke)
    (h : OnlyOutbound (transferIdOf msg) σ.fileMgr m ∧ ∀ e ∈ events, e.About (transferIdOf msg)) :
    Acted E σ msg false (withFiles E σ m σ.storage events) :=
  acted_files hty h.2 h.1.toOutboundKept (Or.inl (Kept.outbound (Kept.refl _ _ _) h.1))

/-- A handler of the receiving half. -/
theorem acted_receiving {o : Outcome} (hty : msg.msgType ≠ .sfuFileRevoke)
    (h : Within (transferIdOf msg) σ.fileMgr σ.storage o) :
    Acted E σ msg false (withFiles E σ o.mgr o.storage o.events) :=
  acted_files hty h.about h.outbound (Or.inl (kept_of_within h))

/-- A room handler of the receiving half. -/
theorem acted_roomReceiving {o : Outcome} {supernodeId roomId : String} (hty : msg.msgType ≠ .sfuFileRevoke)
    (h : Within (transferIdOf msg) σ.roomFileMgr σ.storage o) :
    Acted E σ msg true (withRoomFiles E σ supernodeId roomId o.mgr o.storage o.events) :=
  acted_roomFiles hty h.about h.outbound (Or.inl (kept_of_within h))

theorem fileTransferAccept_cases (hkeyed : Keyed σ.fileMgr) (hty : msg.msgType = .fileTransferAccept) :
    Quiet σ (fileTransferAccept E σ msg) ∨ Acted E σ msg false (fileTransferAccept E σ msg) := by
  unfold fileTransferAccept
  simp only
  split
  · exact Or.inl (.cuts (by simp [Effect.reports]))
  split
  · exact Or.inl (.cuts (by simp [Effect.reports]))
  · exact Or.inr (acted_sending (by simp [hty]) (onTransferAcceptedFrom_about hkeyed _))

theorem fileTransferChunk_cases (hty : msg.msgType = .fileTransferChunk) :
    Quiet σ (fileTransferChunk E σ msg) ∨ Acted E σ msg false (fileTransferChunk E σ msg) := by
  unfold fileTransferChunk
  simp only
  split
  · exact Or.inl quiet_cut
  · exact Or.inr (acted_receiving (by simp [hty]) (within_onChunkReceived E.files _ _ _ _ _))

theorem sfuFileRequest_cases (supernodeId : String) (hkeyed : Keyed σ.roomFileMgr) (hty : msg.msgType = .sfuFileRequest) :
    Quiet σ (sfuFileRequest E σ msg supernodeId) ∨ Acted E σ msg true (sfuFileRequest E σ msg supernodeId) := by
  unfold sfuFileRequest
  simp only
  split
  · exact Or.inl (.cuts (by simp))
  split
  · exact Or.inl (.cuts (by simp [Effect.reports, fileRevoke]))
  split
  · exact Or.inl (.cuts (by simp [Effect.reports]))
  · right
    obtain ⟨honly, habout⟩ := @startStreamFrom_about E.files _ (transferIdOf msg) hkeyed msg.sender
      (msg.payload.natOr "resume_from" 0) roomFileChunkBudget
    have hacted : Acted E σ msg true (withRoomFiles E σ supernodeId (msg.payload.strOr "room_id" "default") _ σ.storage _) :=
      acted_roomFiles (by simp [hty]) habout honly.toOutboundKept (Or.inl (Kept.outbound (Kept.refl _ _ _) honly))
    refine { hacted with about := fun e he => ?_ }
    rcases List.mem_cons.mp he with rfl | he
    · exact trivial
    rcases List.mem_cons.mp he with rfl | he
    · exact trivial
    · exact hacted.about e he

theorem sfuFileRevoke_cases : Quiet σ (sfuFileRevoke E σ msg) ∨ Acted E σ msg true (sfuFileRevoke E σ msg) := by
  unfold sfuFileRevoke
  simp only
  split
  · exact Or.inl (.cuts (by simp))
  split
  · exact Or.inl (.cuts (by simp))
  · rename_i x hx
    split
    · rename_i howner
      have hwithin := within_discardInbound E.files σ.roomFileMgr σ.storage (transferIdOf msg)
      exact Or.inr ⟨fun _ => ⟨x, hx, howner⟩, rfl, hwithin.outbound, by simp [Effect.About], Or.inl (kept_of_within hwithin)⟩
    · exact Or.inl quiet_cut

theorem sfuFileChunk_cases (hty : msg.msgType = .sfuFileChunk) :
    Quiet σ (sfuFileChunk E σ msg) ∨ Acted E σ msg true (sfuFileChunk E σ msg) := by
  unfold sfuFileChunk
  simp only
  split
  · exact Or.inl quiet_cut
  split
  · exact Or.inl quiet_cut
  split
  · exact Or.inl (.cuts (by simp))
  split
  · split
    · exact Or.inl (.cuts (by simp [Effect.reports]))
    · exact Or.inr (acted_roomReceiving (by simp [hty]) (within_onChunkBytesReceived E.files _ _ _ _ _))
  · exact Or.inl quiet_cut

end

/-- **What handling a file message does.** It touches and reports nothing, or acts on the transfer it names. -/
theorem dispatch_file [DecidableEq S] {E : Env} {σ : ConnectionManager S} {msg : SignalingMessage} {t : Transport}
    {r : ConnectionManager S × List Effect} (hkeyed : ∀ room, Keyed (σ.transfers room))
    (hfile : isFileMessage msg.msgType = true) (h : dispatch E σ msg t = some r) :
    Quiet σ r ∨ ∃ room, Acted E σ msg room r := by
  unfold dispatch at h
  cases hty : msg.msgType <;> simp only [hty, isFileMessage, Bool.false_eq_true] at hfile <;> rw [hty] at h <;>
    obtain rfl := Option.some.inj h
  case fileTransferOffer => exact (fileTransferOffer_cases hty).imp_right fun h => ⟨_, h⟩
  case fileTransferAccept => exact (fileTransferAccept_cases (hkeyed false) hty).imp_right fun h => ⟨_, h⟩
  case fileTransferReject => exact Or.inr ⟨_, acted_sending (by simp [hty]) onTransferRejected_about⟩
  case fileTransferChunk => exact (fileTransferChunk_cases hty).imp_right fun h => ⟨_, h⟩
  case fileTransferComplete =>
    exact Or.inr ⟨_, acted_receiving (by simp [hty]) (within_onCompleteReceived E.files _ _ _)⟩
  case fileTransferAck => exact Or.inr ⟨_, acted_sending (by simp [hty]) onTransferAck_about⟩
  case fileTransferError => exact Or.inr ⟨_, acted_sending (by simp [hty]) (onTransferError_about _)⟩
  case sfuFileOffer => exact (sfuFileOffer_cases _ hty).imp_right fun h => ⟨_, h⟩
  case sfuFileRequest => exact (sfuFileRequest_cases _ (hkeyed true) hty).imp_right fun h => ⟨_, h⟩
  case sfuFileRevoke => exact sfuFileRevoke_cases.imp_right fun h => ⟨_, h⟩
  case sfuFileChunk => exact (sfuFileChunk_cases hty).imp_right fun h => ⟨_, h⟩
  case sfuFileComplete =>
    exact Or.inr ⟨_, acted_roomReceiving (by simp [hty]) (within_onCompleteReceived E.files _ _ _)⟩

/-! ## What keeps transfers apart -/

/-- Files are apart, and outbound records are filed under their own ids. -/
structure Ordered (σ : ConnectionManager S) : Prop extends PartsApart σ.transfers σ.storage.disk where
  keyed : ∀ room, Keyed (σ.transfers room)

theorem Keyed.kept {tid : String} {m m' : FileTransferManager} (h : Keyed m) (hk : OutboundKept tid m m') : Keyed m' := by
  intro id x' hx'
  by_cases hid : id = tid
  · subst hid
    obtain ⟨x, hx, heq⟩ := hk.ids x' hx'
    exact heq.trans (h id x hx)
  · exact h id x' (hk.outbound id hid ▸ hx')

/-- One manager keyed again, the other as it was. -/
theorem keyed_at {σ σ' : ConnectionManager S} {room : Bool} (h : ∀ room, Keyed (σ.transfers room))
    (hother : ∀ room', room' ≠ room → σ'.transfers room' = σ.transfers room') (hkeyed : Keyed (σ'.transfers room)) :
    ∀ room, Keyed (σ'.transfers room) := by
  intro room'
  by_cases hr : room' = room
  · subst hr
    exact hkeyed
  · rw [hother room' hr]
    exact h room'

theorem Acted.others {E : Env} {σ : ConnectionManager S} {msg : SignalingMessage} {room : Bool}
    {r : ConnectionManager S × List Effect} (h : Acted E σ msg room r) (room' : Bool) (hr : room' ≠ room) :
    r.1.transfers room' = σ.transfers room' := by
  obtain rfl : room' = !room := Bool.eq_not_of_ne hr
  exact h.other

theorem Effect.About.reports {e : Effect} {tid id : String} (h : e.About tid) (hr : e.reports = some id) : id = tid := by
  cases e with
  | emit ev =>
    cases ev with
    | fileComplete => exact (Option.some.inj hr).symm.trans h
    | fileFailed => exact (Option.some.inj hr).symm.trans h
    | _ => cases hr
  | _ => cases hr

theorem Quiet.transfers {σ : ConnectionManager S} {r : ConnectionManager S × List Effect} (h : Quiet σ r) (room : Bool) :
    r.1.transfers room = σ.transfers room := by
  cases room with
  | false => exact h.fileMgr
  | true => exact h.roomFileMgr

theorem Quiet.untouched {σ : ConnectionManager S} {r : ConnectionManager S × List Effect} (h : Quiet σ r) (sender : String) :
    Untouched sender σ r where
  inbound := by
    intro room id x hx _
    rw [h.transfers, h.storage]
    exact ⟨hx, fun _ _ => rfl, fun e he => by rw [h.effects e he]; exact nofun⟩
  outbound := fun id x hx _ => ⟨h.fileMgr ▸ hx, fun e he => by rw [h.effects e he]; exact nofun⟩

/-- **What handling leaves alone.** An acting handler under the condition touches nobody else's transfer. -/
theorem Acted.untouched {E : Env} {σ : ConnectionManager S} {msg : SignalingMessage} {room : Bool}
    {r : ConnectionManager S × List Effect} (hσ : Ordered σ) (h : Acted E σ msg room r) (hown : OwnIds E σ msg) :
    Untouched msg.sender σ r := by
  have hforeign : ¬Foreign σ msg.sender (transferIdOf msg) := by
    rcases hown.id with hid | ⟨hty, hother⟩
    · exact hid
    · obtain ⟨x, hx, hpeer⟩ := h.revoked hty
      exact absurd hpeer (hother x hx)
  have hreports : ∀ id, id ≠ transferIdOf msg → ∀ e ∈ r.2, e.reports ≠ some id :=
    fun id hid e he hr => hid (Effect.About.reports (h.about e he) hr)
  constructor
  · intro room' id x hx hpeer
    have hid : id ≠ transferIdOf msg := by
      rintro rfl
      exact hforeign (Or.inl ⟨room', x, hx, hpeer⟩)
    have hkey : (room', id) ≠ (room, transferIdOf msg) := fun heq => hid (Prod.mk.inj heq).2
    refine ⟨?_, fun p hp => ?_, hreports id hid⟩
    · by_cases hr : room' = room
      · subst hr
        rcases h.inbound with hk | ⟨o, ho, ⟨now, sink, hins, -⟩, -⟩
        · rw [hk.others id hid]
          exact hx
        · rw [hins, ho, AList.lookup_insert_ne hid]
          exact hx
      · rw [h.others room' hr]
        exact hx
    · rcases h.inbound with hk | ⟨o, ho, hf, hfree⟩
      · exact (hσ.read_kept hk hx hkey hp).2
      · exact (PartsApart.read_filed hf (fun _ => hfree hown) hx (ho ▸ hkey) hp).2
  · intro id x hx hpeer
    have hid : id ≠ transferIdOf msg := by
      rintro rfl
      exact hforeign (Or.inr ⟨x, hx, hpeer⟩)
    refine ⟨?_, hreports id hid⟩
    cases room with
    | false =>
      have hkept := h.outbound.outbound id hid
      simp only [ConnectionManager.transfers] at hkept
      rw [hkept]
      exact hx
    | true =>
      have hother := h.other
      simp only [ConnectionManager.transfers, Bool.not_true] at hother
      rw [hother]
      exact hx

/-- Handling under the condition keeps the order. -/
theorem Acted.ordered {E : Env} {σ : ConnectionManager S} {msg : SignalingMessage} {room : Bool}
    {r : ConnectionManager S × List Effect} (hσ : Ordered σ) (h : Acted E σ msg room r) (hown : OwnIds E σ msg) :
    Ordered r.1 where
  toPartsApart := by
    rcases h.inbound with hk | ⟨o, -, hf, hfree⟩
    · exact hσ.kept h.others hk
    · exact hσ.filed h.others hf fun _ => hfree hown
  keyed := keyed_at hσ.keyed h.others (Keyed.kept (hσ.keyed room) h.outbound)

theorem Quiet.ordered {σ : ConnectionManager S} {r : ConnectionManager S × List Effect} (hσ : Ordered σ) (h : Quiet σ r) :
    Ordered r.1 where
  toPartsApart := hσ.shrink (fun room id x' hx' => ⟨x', h.transfers room ▸ hx', .refl x'⟩) (fun q i hq => h.storage ▸ hq)
    (by rw [h.storage])
  keyed := fun room => by
    rw [h.transfers]
    exact hσ.keyed room

end TransferOwnersAux

/-! ## Runs -/

/-- The requests of the user and the clock, and results of hashing. -/
def isLocalRequest : Request → Bool
  | .offer _ | .chunk .. | .chunkBytes .. | .complete _ | .sending .. => false
  | _ => true

/-- What happens to the two managers: file messages, requests from inside, the sending half (which files transfers under their own
ids), and everything else the client does. -/
inductive TransferAct (S : Type) where
  | message (E : Env) (msg : SignalingMessage) (t : Transport)
  | request (room : Bool) (E : FileEnv) (r : Request)
  | sending (room : Bool) (outbound : HashMap String OutboundTransfer) (revoked : HashMap String ℚ)
      (keyed : ∀ id x, outbound.lookup id = some x → x.transferId = id)
  | elsewhere (σ : ConnectionManager S)

/-- One of them. -/
def transferStep [DecidableEq S] (σ : ConnectionManager S) : TransferAct S → Option (ConnectionManager S)
  | .message E msg t => if isFileMessage msg.msgType then (handlePlain E σ msg t).map Prod.fst else none
  | .request room E r =>
    if isLocalRequest r then
      let out := serve E (σ.transfers room) σ.storage r
      some (σ.withTransfers room out.mgr out.storage)
    else none
  | .sending room outbound revoked _ =>
    some (σ.withTransfers room { σ.transfers room with outbound := outbound, revoked := revoked } σ.storage)
  | .elsewhere σ' => some { σ' with fileMgr := σ.fileMgr, roomFileMgr := σ.roomFileMgr, storage := σ.storage }

/-- The messages that are handled name their senders' transfers. -/
def OwnStep [DecidableEq S] (σ : ConnectionManager S) : TransferAct S → Prop
  | .message E msg t => Reaches E σ msg t → OwnIds E σ msg
  | _ => True

namespace TransferOwnersAux

theorem transfers_withTransfers (σ : ConnectionManager S) (room : Bool) (m : FileTransferManager) (st : Storage) :
    (σ.withTransfers room m st).transfers room = m ∧ (σ.withTransfers room m st).storage = st ∧
      ∀ room', room' ≠ room → (σ.withTransfers room m st).transfers room' = σ.transfers room' := by
  cases room with
  | false => exact ⟨rfl, rfl, fun room' hr => by cases room' with | false => exact absurd rfl hr | true => rfl⟩
  | true => exact ⟨rfl, rfl, fun room' hr => by cases room' with | false => rfl | true => exact absurd rfl hr⟩

theorem keyed_gc {E : FileEnv} {m : FileTransferManager} {st : Storage} (h : Keyed m) : Keyed (gc E m st).mgr := by
  intro id x' hx'
  simp only [gc] at hx'
  rw [lookup_retain, Option.filter_eq_some_iff, lookup_mapValues, Option.map_eq_some_iff] at hx'
  obtain ⟨⟨x, hx, rfl⟩, -⟩ := hx'
  have hkey := h id x hx
  unfold stampOutbound
  split
  · exact hkey
  · exact hkey

/-- A request from inside leaves outbound records under their own ids. -/
theorem keyed_serve {E : FileEnv} {m : FileTransferManager} {st : Storage} {r : Request} (h : Keyed m)
    (hr : isLocalRequest r = true) : Keyed (serve E m st r).mgr := by
  cases r with
  | offer | chunk | chunkBytes | complete | sending => cases hr
  | accept tid => exact Keyed.kept h (within_acceptTransfer E m st tid).outbound
  | acceptLocally tid => exact Keyed.kept h (within_acceptTransferLocally E m st tid).outbound
  | reject tid reason => exact Keyed.kept h (within_rejectTransfer m st tid reason).outbound
  | cancel tid => exact Keyed.kept h (within_cancelTransfer m st tid).outbound
  | discard tid => exact Keyed.kept h (within_discardInbound E m st tid).outbound
  | hashed tid actual =>
    rcases onFileHashed_cases E m st tid actual with hw | ⟨x, part, hx, -, -, -, ⟨reason, -, heq⟩ | ⟨dest, -, heq⟩⟩
    · exact Keyed.kept h hw.outbound
    · rw [serve, heq]
      exact Keyed.kept h (within_failInbound E m _ tid reason).outbound
    · rw [serve, heq]
      exact Keyed.kept h (within_publish E m _ tid hx _).outbound
  | stall => exact h
  | retry tid => exact Keyed.kept h (within_armRetry E m st tid).outbound
  | gc => exact keyed_gc h
  | setOldFileData relPath data => exact h

/-- A request from inside keeps the order. -/
theorem Ordered.request {σ : ConnectionManager S} {room : Bool} {E : FileEnv} {r : Request} (h : Ordered σ)
    (hr : isLocalRequest r = true) :
    Ordered (σ.withTransfers room (serve E (σ.transfers room) σ.storage r).mgr
      (serve E (σ.transfers room) σ.storage r).storage) := by
  obtain ⟨hroom, hst, hother⟩ := transfers_withTransfers σ room (serve E (σ.transfers room) σ.storage r).mgr
    (serve E (σ.transfers room) σ.storage r).storage
  refine { toPartsApart := ?_, keyed := keyed_at h.keyed hother ?_ }
  · rw [hst]
    refine h.serve hother hroom fun o ho => ?_
    subst ho
    cases hr
  · rw [hroom]
    exact keyed_serve (h.keyed room) hr

section

variable [DecidableEq S]

omit [DecidableEq S] in
/-- The replay guard is all that the checks change, and neither the condition nor the outcome reads it. -/
theorem OwnIds.replay {E : Env} {σ : ConnectionManager S} {msg : SignalingMessage} (replay : ReplayGuard)
    (h : OwnIds E σ msg) : OwnIds E { σ with replay := replay } msg := by
  have htransfers : ∀ room, ({ σ with replay := replay } : ConnectionManager S).transfers room = σ.transfers room := by
    intro room
    cases room <;> rfl
  refine ⟨?_, fun hty => ?_, fun hty => ?_⟩
  · refine h.id.imp_left fun hid hforeign => hid ?_
    rcases hforeign with ⟨room, x, hx, hpeer⟩ | hout
    · exact Or.inl ⟨room, x, htransfers room ▸ hx, hpeer⟩
    · exact Or.inr hout
  · intro room' id x p hx
    exact h.part hty room' id x p (htransfers room' ▸ hx)
  · intro room' id x p hx
    exact h.roomPart hty room' id x p (htransfers room' ▸ hx)

/-- A file message under the condition touches nobody else's transfer, and keeps the order. -/
theorem handlePlain_file {E : Env} {σ : ConnectionManager S} {msg : SignalingMessage} {t : Transport}
    {r : ConnectionManager S × List Effect} (hσ : Ordered σ) (hfile : isFileMessage msg.msgType = true)
    (hown : Reaches E σ msg t → OwnIds E σ msg) (h : handlePlain E σ msg t = some r) :
    Untouched msg.sender σ r ∧ Ordered r.1 := by
  have hreplay : ∀ replay, Quiet σ ({ σ with replay := replay }, ([] : List Effect)) :=
    fun replay => ⟨rfl, rfl, rfl, by simp⟩
  rcases handlePlain_cases E σ msg t with ⟨-, replay, effects, heq, heff⟩ | ⟨hreach, replay, heq⟩
  · obtain rfl := Option.some.inj (heq.symm.trans h)
    have hquiet : Quiet σ ({ σ with replay := replay }, effects) :=
      ⟨rfl, rfl, rfl, fun e he => by rw [heff e he]; rfl⟩
    exact ⟨hquiet.untouched _, hquiet.ordered hσ⟩
  · have hσ' : Ordered ({ σ with replay := replay } : ConnectionManager S) := (hreplay replay).ordered hσ
    have hown' := OwnIds.replay replay (hown hreach)
    rw [heq] at h
    rcases dispatch_file hσ'.keyed hfile h with hq | ⟨room, ha⟩
    · exact ⟨⟨(hq.untouched msg.sender).inbound, (hq.untouched msg.sender).outbound⟩, hq.ordered hσ'⟩
    · have hun := ha.untouched hσ' hown'
      refine ⟨⟨fun room' id x hx => ?_, hun.outbound⟩, ha.ordered hσ' hown'⟩
      exact hun.inbound room' id x (by cases room' <;> exact hx)

theorem Ordered.step {σ σ' : ConnectionManager S} {a : TransferAct S} (hσ : Ordered σ) (ha : OwnStep σ a)
    (h : transferStep σ a = some σ') : Ordered σ' := by
  cases a with
  | message E msg t =>
    simp only [transferStep] at h
    split at h
    · rename_i hfile
      obtain ⟨r, hr, rfl⟩ := Option.map_eq_some_iff.mp h
      exact (handlePlain_file hσ hfile ha hr).2
    · cases h
  | request room E r =>
    simp only [transferStep] at h
    split at h
    · rename_i hr
      obtain rfl := Option.some.inj h
      exact hσ.request hr
    · cases h
  | sending room outbound revoked keyed =>
    obtain rfl := Option.some.inj h
    obtain ⟨hroom, hst, hother⟩ := transfers_withTransfers σ room
      { σ.transfers room with outbound := outbound, revoked := revoked } σ.storage
    refine { toPartsApart := ?_, keyed := keyed_at hσ.keyed hother ?_ }
    · exact hσ.shrink (continues_at hother fun id x' hx' => ⟨x', by rw [hroom] at hx'; exact hx', .refl x'⟩)
        (fun _ _ hq => hst ▸ hq) (by rw [hst])
    · rw [hroom]
      exact keyed
  | elsewhere σ₁ =>
    obtain rfl := Option.some.inj h
    have hquiet : Quiet σ ({ σ₁ with fileMgr := σ.fileMgr, roomFileMgr := σ.roomFileMgr, storage := σ.storage }, []) :=
      ⟨rfl, rfl, rfl, by simp⟩
    exact hquiet.ordered hσ

omit [DecidableEq S] in
theorem Ordered.start {σ : ConnectionManager S} (hmgr : σ.fileMgr = {}) (hroom : σ.roomFileMgr = {}) : Ordered σ := by
  refine { toPartsApart := .start fun room id => ?_, keyed := fun room id x hx => ?_ }
  · cases room <;> simp [ConnectionManager.transfers, hmgr, hroom]
  · cases room <;> simp [ConnectionManager.transfers, hmgr, hroom] at hx

end

end TransferOwnersAux

open TransferOwnersAux

/-- **Nobody touches another peer's transfer** along runs in which messages name their sender's transfers and offers get `.part`
files of their own. -/
theorem untouched_of_ownIds [DecidableEq S] {σ₀ σ : ConnectionManager S} (hmgr : σ₀.fileMgr = {})
    (hroom : σ₀.roomFileMgr = {}) {acts : List (TransferAct S)} (hmeets : Run.Meets transferStep OwnStep σ₀ acts)
    (hrun : Run.run transferStep σ₀ acts = some σ) {E : Env} {msg : SignalingMessage} {t : Transport}
    {result : ConnectionManager S × List Effect} (hfile : isFileMessage msg.msgType = true)
    (hown : Reaches E σ msg t → OwnIds E σ msg) (h : handlePlain E σ msg t = some result) :
    Untouched msg.sender σ result := by
  have hσ : Ordered σ := Run.meets_invariant Ordered (fun _ _ _ hs ha hstep => hs.step ha hstep) (.start hmgr hroom) hmeets hrun
  exact (handlePlain_file hσ hfile hown h).1

end

/-! ## Two peers and one id -/

/-- Another key. -/
def oneId : String := "BAAAAAAAAAAAAAAAAAAAAAAAAAAAAAAAAAAAAAAAAAA"

/-- A client that trusts both. -/
def sharingClient : ConnectionManager Nat where
  publicId := "me"
  direct := ⟨"me-hex", none, ∅, ∅⟩
  store := (AList.singleton "a" { peerId := "a", identityPub := zeroId }).insert "b" { peerId := "b", identityPub := oneId }
  pendingInvites := ∅
  issuedInvites := ∅
  replay := ∅

/-- One peer sends an update of three bytes. -/
def updateOffer : SignalingMessage :=
  { forgedAccept with
    msgType := .fileTransferOffer
    payload := [("transfer_id", .str "t1"), ("sha256", .str "00ff00ff00ff00ff"), ("size", .int 3), ("rel_path", .str "f"),
      ("purpose", .str "update")] }

/-- The other peer sends a chunk that does not decode. -/
def badChunk (tid : String) : SignalingMessage :=
  { forgedAccept with
    msgType := .fileTransferChunk
    sender := oneId
    payload := [("transfer_id", .str tid), ("data", .str "?")] }

/-- The record the offer leaves. -/
def updateRecord : InboundTransfer :=
  .new 0
    { peerId := zeroId, roomId := "", supernodeId := "", transferId := "t1", relPath := "f", sha256 := "00ff00ff00ff00ff", size := 3,
      totalChunks := 1, purpose := "update", compressed := false, isDelta := false, baseSha256 := "" }
    (.memory ∅)

/-- The client once the offer was handled. -/
def updatingClient : ConnectionManager Nat :=
  { sharingClient with
    replay := (checkReplay lenientEnv sharingClient updateOffer).1
    fileMgr := { inbound := AList.singleton "t1" updateRecord } }

/-- Nothing is on its way, so the offer is the sender's own. -/
theorem ownIds_updateOffer : OwnIds lenientEnv sharingClient updateOffer := by
  have hnone : ∀ room id, (sharingClient.transfers room).inbound.lookup id = none := by
    intro room id
    cases room <;> rfl
  refine ⟨Or.inl ?_, fun _ => ?_, nofun⟩
  · rintro (⟨room, x, hx, -⟩ | ⟨x, hx, -⟩)
    · rw [hnone] at hx
      cases hx
    · cases hx
  · intro room id x p hx
    rw [hnone] at hx
    cases hx

/-- The chunk names a transfer of its own. -/
theorem untouched_ownChunk :
    ∃ result, handlePlain lenientEnv updatingClient (badChunk "t2") ⟨none, none, false⟩ = some result ∧
      Untouched oneId updatingClient result := by
  have hlookup : ∀ room, (updatingClient.transfers room).inbound.lookup "t2" = none := by
    intro room
    cases room <;> rfl
  have hmeets : Run.Meets transferStep OwnStep sharingClient [.message lenientEnv updateOffer ⟨none, none, false⟩] :=
    ⟨fun _ => ownIds_updateOffer, fun _ _ => trivial⟩
  have hrun : Run.run transferStep sharingClient [.message lenientEnv updateOffer ⟨none, none, false⟩] = some updatingClient := rfl
  have hown : OwnIds lenientEnv updatingClient (badChunk "t2") := by
    refine ⟨Or.inl ?_, nofun, nofun⟩
    rintro (⟨room, x, hx, -⟩ | ⟨x, hx, -⟩)
    · change (updatingClient.transfers room).inbound.lookup "t2" = some x at hx
      rw [hlookup] at hx
      cases hx
    · cases hx
  exact ⟨_, rfl, untouched_of_ownIds rfl rfl hmeets hrun rfl (fun _ => hown) rfl⟩

/-- The chunk names the other peer's update, which it fails. -/
theorem untouched_fails_chunk :
    Run.run transferStep sharingClient [.message lenientEnv updateOffer ⟨none, none, false⟩] = some updatingClient ∧
      ∃ result, handlePlain lenientEnv updatingClient (badChunk "t1") ⟨none, none, false⟩ = some result ∧
        ¬Untouched oneId updatingClient result := by
  refine ⟨rfl, _, rfl, fun h => ?_⟩
  obtain ⟨hrecord, -⟩ := h.inbound false "t1" updateRecord rfl (by decide)
  exact absurd (congrArg (Option.map InboundTransfer.state) hrecord) (by decide)

end DoubleSlash.Manager
