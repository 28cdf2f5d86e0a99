import DoubleSlash.Lemmas.Outbound
import DoubleSlash.Manager.Files
import Mathlib.Data.List.Dedup

/-!
# What carrying out events leaves alone

The two loops that carry out a manager's events hand messages to the transport and note in the outbound records what went out.
Events about one transfer change no inbound record and no other transfer's outbound record.
-/

namespace DoubleSlash.Manager

open Protocol Store Assoc Codec Files FileTransferManager

/-- The effect reports nothing as complete or failed but the transfer. -/
def Effect.About (tid : String) : Effect → Prop
  | .emit (.fileComplete id ..) => id = tid
  | .emit (.fileFailed id ..) => id = tid
  | _ => True

namespace FileMessagesAux

/-- A batch that carries out events about one transfer. -/
structure Tame (tid : String) (m : FileTransferManager) (b : Batch) : Prop where
  mgr : OnlyOutbound tid m b.mgr
  unsent : ∀ id ∈ b.unsent, id = tid
  stalled : ∀ id ∈ b.stalled, id = tid
  progressed : ∀ id ∈ b.progressed, id = tid
  effects : ∀ e ∈ b.effects, e.About tid

section

variable {tid : String} {m : FileTransferManager} {b : Batch}

theorem Tame.start : Tame tid m { mgr := m } :=
  ⟨.refl tid m, by simp, by simp, by simp, by simp⟩

theorem Tame.push {e : Effect} (h : Tame tid m b) (he : e.About tid) : Tame tid m (b.push e) :=
  { h with
    effects := fun e' he' => by
      rcases List.mem_append.mp he' with he' | he'
      · exact h.effects e' he'
      · rw [List.mem_singleton] at he'
        exact he' ▸ he }

theorem Tame.miss {isChunk : Bool} (h : Tame tid m b) : Tame tid m (b.miss tid isChunk) := by
  unfold Batch.miss
  split
  · exact h
  · refine { h with unsent := ?_, stalled := ?_ }
    · intro id hid
      cases isChunk with
      | false => exact h.unsent id hid
      | true =>
        rcases List.mem_append.mp hid with hid | hid
        · exact h.unsent id hid
        · exact List.mem_singleton.mp hid
    · intro id hid
      rcases List.mem_append.mp hid with hid | hid
      · exact h.stalled id hid
      · exact List.mem_singleton.mp hid

theorem Tame.missChunk (h : Tame tid m b) : Tame tid m (b.missChunk tid) := by
  have hmiss : Tame tid m (b.miss tid true) := h.miss
  exact { hmiss with }

theorem Tame.hand {E : Env} {target : String} {ty : MessageType} {payload : Payload} {isChunk isComplete : Bool}
    (h : Tame tid m b) : Tame tid m (b.hand E target ty payload tid isChunk isComplete) := by
  have hpushed : Tame tid m { b.push (.send target ty payload) with handed := b.handed + 1 } :=
    { h.push (e := .send target ty payload) trivial with }
  unfold Batch.hand
  simp only
  split
  · split
    · split
      · exact hpushed
      · refine { hpushed with progressed := fun id hid => ?_ }
        rcases List.mem_append.mp hid with hid | hid
        · exact h.progressed id hid
        · exact List.mem_singleton.mp hid
    · exact hpushed.missChunk
  · split
    · split
      · exact { hpushed with mgr := h.mgr.trans (.modify fun _ => rfl) }
      · exact hpushed.miss
    · exact hpushed

theorem Tame.one {E : Env} {e : TransferEvent} (h : Tame tid m b) (he : e.About tid) : Tame tid m (b.one E e) := by
  cases e with
  | sendMessage peerId ty payload =>
    obtain rfl : payload.strOr "transfer_id" "" = tid := he
    unfold Batch.one
    simp only
    split
    · exact h.miss
    · exact h.hand
  | complete id _ _ _ _ _ _ => exact h.push (e := .emit (.fileComplete id ..)) he
  | failed id _ => exact h.push (e := .emit (.fileFailed id ..)) he
  | offered _ _ _ _ _ => exact h.push trivial
  | progress _ _ _ => exact h.push trivial
  | stateChanged _ _ => exact h
  | hashFile _ _ => exact h.push trivial
  | sliced _ _ => exact h.push trivial

theorem Tame.oneRoom {E : Env} {publicId supernodeId roomId : String} {e : TransferEvent} (h : Tame tid m b)
    (he : e.About tid) : Tame tid m (b.oneRoom E publicId supernodeId roomId e) := by
  cases e with
  | sendMessage peerId ty payload =>
    obtain rfl : payload.strOr "transfer_id" "" = tid := he
    simp only [Batch.oneRoom]
    split
    · exact h
    · split
      · exact h.miss
      · split
        · exact h.missChunk
        · exact h.hand
  | complete id _ _ _ _ _ _ => exact h.push (e := .emit (.fileComplete id ..)) he
  | failed id _ => exact h.push (e := .emit (.fileFailed id ..)) he
  | offered _ _ _ _ _ => exact h.push trivial
  | progress _ _ _ => exact h.push trivial
  | stateChanged _ _ => exact h
  | hashFile _ _ => exact h.push trivial
  | sliced _ _ => exact h.push trivial

/-- A fold of changes to the one transfer. -/
theorem onlyOutbound_foldl {f : FileTransferManager → String → FileTransferManager} {ids : List String}
    (hf : ∀ m', OnlyOutbound tid m' (f m' tid)) (hids : ∀ id ∈ ids, id = tid) (m' : FileTransferManager) :
    OnlyOutbound tid m' (ids.foldl f m') := by
  induction ids generalizing m' with
  | nil => exact .refl tid m'
  | cons id ids ih =>
    obtain rfl : id = tid := hids id List.mem_cons_self
    rw [List.foldl_cons]
    exact (hf m').trans (ih (fun i hi => hids i (List.mem_cons_of_mem _ hi)) _)

theorem Tame.finish {E : Env} (h : Tame tid m b) :
    OnlyOutbound tid m (b.finish E).1 ∧ ∀ e ∈ (b.finish E).2, e.About tid := by
  -- The last fold carries the manager and the failures it adds.
  have hstall : ∀ (ids : List String) (acc : FileTransferManager × List Effect), (∀ id ∈ ids, id = tid) →
      OnlyOutbound tid m acc.1 → (∀ e ∈ acc.2, e.About tid) →
      OnlyOutbound tid m (ids.foldl (Batch.noteStall E) acc).1 ∧
        ∀ e ∈ (ids.foldl (Batch.noteStall E) acc).2, e.About tid := by
    intro ids
    induction ids with
    | nil => exact fun acc _ hacc heff => ⟨hacc, heff⟩
    | cons id ids ih =>
      intro acc hids hacc heff
      obtain rfl : id = tid := hids id List.mem_cons_self
      rw [List.foldl_cons]
      obtain ⟨hnoted, hevents⟩ := @noteSendStalled_about id E.files acc.1
      refine ih _ (fun i hi => hids i (List.mem_cons_of_mem _ hi)) (hacc.trans hnoted) fun e he => ?_
      rcases List.mem_append.mp he with he | he
      · exact heff e he
      · obtain ⟨ev, hev, hmatch⟩ := List.mem_filterMap.mp he
        have habout := hevents ev hev
        split at hmatch
        · obtain rfl := Option.some.inj hmatch
          exact habout
        · cases hmatch
  refine hstall b.stalled.dedup _ (fun id hid => h.stalled id (List.mem_dedup.mp hid)) ?_ h.effects
  have hunsent : OnlyOutbound tid b.mgr
      (b.unsent.dedup.foldl (fun m tid => unsendChunks m tid (b.unsent.count tid)) b.mgr) :=
    onlyOutbound_foldl (fun m' => .modify fun x => by simp only; split <;> rfl)
      (fun id hid => h.unsent id (List.mem_dedup.mp hid)) _
  refine (h.mgr.trans hunsent).trans (onlyOutbound_foldl (f := noteSendProgress E.files) (fun m' => ?_) (fun id hid => ?_) _)
  · unfold noteSendProgress
    exact .modify fun _ => rfl
  · exact h.progressed id (List.mem_dedup.mp (List.mem_of_mem_filter hid))

end

end FileMessagesAux

open FileMessagesAux

/-- **Events about one transfer, carried out.** -/
theorem dispatchTransferEvents_about {E : Env} {tid : String} {m : FileTransferManager} {events : List TransferEvent}
    (h : ∀ e ∈ events, e.About tid) :
    OnlyOutbound tid m (dispatchTransferEvents E m events).1 ∧
      ∀ e ∈ (dispatchTransferEvents E m events).2, e.About tid := by
  have hfold : ∀ b, Tame tid m b → Tame tid m (events.foldl (Batch.one E) b) := by
    induction events with
    | nil => exact fun b hb => hb
    | cons e events ih =>
      intro b hb
      rw [List.foldl_cons]
      exact ih (fun e' he' => h e' (List.mem_cons_of_mem _ he')) _ (hb.one (h e List.mem_cons_self))
  exact (hfold _ .start).finish

/-- **Events about one room transfer, carried out.** -/
theorem dispatchRoomTransferEvents_about {E : Env} {publicId supernodeId roomId tid : String} {m : FileTransferManager}
    {events : List TransferEvent} (h : ∀ e ∈ events, e.About tid) :
    OnlyOutbound tid m (dispatchRoomTransferEvents E publicId supernodeId roomId m events).1 ∧
      ∀ e ∈ (dispatchRoomTransferEvents E publicId supernodeId roomId m events).2, e.About tid := by
  have hfold : ∀ b, Tame tid m b → Tame tid m (events.foldl (Batch.oneRoom E publicId supernodeId roomId) b) := by
    induction events with
    | nil => exact fun b hb => hb
    | cons e events ih =>
      intro b hb
      rw [List.foldl_cons]
      exact ih (fun e' he' => h e' (List.mem_cons_of_mem _ he')) _ (hb.oneRoom (h e List.mem_cons_self))
  exact (hfold _ .start).finish

end DoubleSlash.Manager
