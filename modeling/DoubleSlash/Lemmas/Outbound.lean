import DoubleSlash.Lemmas.Inbound

/-!
# What the sending half leaves alone

Each operation of the sending half works on the record of one transfer, and emits frames of that transfer only.
-/

namespace DoubleSlash.Files

open Protocol Assoc Codec FileTransferManager

/-- The sending half as it was, but for one transfer; the receiving half as it was. -/
structure OnlyOutbound (tid : String) (m m' : FileTransferManager) : Prop extends OutboundKept tid m m' where
  inbound : m'.inbound = m.inbound

theorem OnlyOutbound.refl (tid : String) (m : FileTransferManager) : OnlyOutbound tid m m := ⟨.of_eq rfl, rfl⟩

theorem OnlyOutbound.trans {tid : String} {m₁ m₂ m₃ : FileTransferManager} (h₁ : OnlyOutbound tid m₁ m₂)
    (h₂ : OnlyOutbound tid m₂ m₃) : OnlyOutbound tid m₁ m₃ :=
  ⟨h₁.toOutboundKept.trans h₂.toOutboundKept, h₂.inbound.trans h₁.inbound⟩

/-- Changing the transfer's outbound record. -/
theorem OnlyOutbound.modify {tid : String} {m : FileTransferManager} {f : OutboundTransfer → OutboundTransfer}
    (hf : ∀ x, (f x).transferId = x.transferId) :
    OnlyOutbound tid m { m with outbound := Assoc.modify m.outbound tid f } where
  inbound := rfl
  outbound := fun id hid => by rw [lookup_modify, if_neg hid]
  ids := by
    intro x' hx'
    rw [lookup_modify, if_pos rfl, Option.map_eq_some_iff] at hx'
    obtain ⟨x, hx, rfl⟩ := hx'
    exact ⟨x, hx, hf x⟩

theorem OnlyOutbound.insert {tid : String} {m : FileTransferManager} {x x' : OutboundTransfer}
    (hx : m.outbound.lookup tid = some x) (hid : x'.transferId = x.transferId) :
    OnlyOutbound tid m { m with outbound := m.outbound.insert tid x' } := ⟨.insert hx hid, rfl⟩

namespace OutboundAux

/-- The pump emits frames of its own transfer, which keeps its id. -/
theorem nextChunks_about (E : FileEnv) (x : OutboundTransfer) (budget : Nat) :
    (nextChunks E x budget).1.transferId = x.transferId ∧
      ∀ e ∈ (nextChunks E x budget).2.1, e.About x.transferId := by
  induction budget generalizing x with
  | zero => exact ⟨rfl, by simp [nextChunks]⟩
  | succ budget ih =>
    unfold nextChunks
    split
    · split
      · exact ⟨rfl, by simp [TransferEvent.About]⟩
      · rename_i chunk hchunk
        obtain ⟨hid, hevents⟩ := ih { x with chunksSent := x.chunksSent + 1 }
        refine ⟨hid, fun e he => ?_⟩
        simp only [List.cons_append, List.mem_cons, List.mem_append] at he
        rcases he with rfl | he | he
        · simp [chunkFrame, TransferEvent.About, Payload.strOr, Payload.get, Json.asStr]
        · split at he
          · rw [List.mem_singleton] at he
            exact he ▸ trivial
          · cases he
        · exact hevents e he
    · exact ⟨rfl, by simp⟩

theorem nextChunkEvents_about (E : FileEnv) (x : OutboundTransfer) (budget : Nat) :
    (nextChunkEvents E x budget).1.transferId = x.transferId ∧
      ∀ e ∈ (nextChunkEvents E x budget).2.1, e.About x.transferId := by
  obtain ⟨hid, hevents⟩ := nextChunks_about E x budget
  unfold nextChunkEvents
  simp only
  split
  · exact ⟨hid, hevents⟩
  split
  · refine ⟨hid, fun e he => ?_⟩
    rcases List.mem_append.mp he with he | he
    · exact hevents e he
    · rw [List.mem_singleton] at he
      rw [he, ← hid]
      simp [completeFrame, TransferEvent.About, Payload.strOr, Payload.get, Json.asStr]
  · exact ⟨hid, hevents⟩

end OutboundAux

open OutboundAux

/-- Outbound records are filed under their own ids. -/
def Keyed (m : FileTransferManager) : Prop := ∀ id x, m.outbound.lookup id = some x → x.transferId = id

section

variable {E : FileEnv} {m : FileTransferManager} {tid : String}

theorem onTransferAcceptedFrom_about (h : Keyed m) (resumeFrom : Option Nat) :
    OnlyOutbound tid m (onTransferAcceptedFrom E m tid resumeFrom).1 ∧
      ∀ e ∈ (onTransferAcceptedFrom E m tid resumeFrom).2, e.About tid := by
  unfold onTransferAcceptedFrom
  split
  · exact ⟨.refl tid m, by simp⟩
  split
  · exact ⟨.refl tid m, by simp⟩
  · rename_i x hx
    split
    · exact ⟨.refl tid m, by simp⟩
    simp only
    have hkey : x.transferId = tid := h tid x hx
    split
    all_goals
      obtain ⟨hid, hevents⟩ := nextChunkEvents_about E
        (restarted E { x with chunksSent := resumeFrom.elim x.chunksSent fun n => min n x.totalChunks }) _
      refine ⟨.insert hx hid, fun e he => ?_⟩
      rcases List.mem_cons.mp he with rfl | he
      · exact trivial
      · exact hkey ▸ hevents e he

theorem startStreamFrom_about (h : Keyed m) (requester : String) (fromChunk budget : Nat) :
    OnlyOutbound tid m (startStreamFrom E m tid requester fromChunk budget).1 ∧
      ∀ e ∈ (startStreamFrom E m tid requester fromChunk budget).2, e.About tid := by
  unfold startStreamFrom
  split
  · exact ⟨.refl tid m, by simp⟩
  split
  · exact ⟨.refl tid m, by simp⟩
  · rename_i x hx
    obtain ⟨hid, hevents⟩ := nextChunkEvents_about E
      (restarted E { x with chunksSent := min fromChunk x.totalChunks, toPeer := requester }) budget
    exact ⟨.insert hx hid, fun e he => h tid x hx ▸ hevents e he⟩

theorem onTransferRejected_about :
    OnlyOutbound tid m (onTransferRejected m tid).1 ∧ ∀ e ∈ (onTransferRejected m tid).2, e.About tid := by
  unfold onTransferRejected
  split
  · exact ⟨.refl tid m, by simp⟩
  · rename_i x hx
    exact ⟨.insert hx rfl, by simp [TransferEvent.About]⟩

theorem onTransferAck_about :
    OnlyOutbound tid m (onTransferAck E m tid).1 ∧ ∀ e ∈ (onTransferAck E m tid).2, e.About tid := by
  unfold onTransferAck
  split
  · exact ⟨.refl tid m, by simp⟩
  · rename_i x hx
    exact ⟨.insert hx rfl, by simp [TransferEvent.About]⟩

theorem onTransferError_about (reason : String) :
    OnlyOutbound tid m (onTransferError m tid reason).1 ∧ ∀ e ∈ (onTransferError m tid reason).2, e.About tid := by
  unfold onTransferError
  split
  · exact ⟨.refl tid m, by simp⟩
  · rename_i x hx
    exact ⟨.insert hx rfl, by simp [TransferEvent.About]⟩

end

theorem noteSendStalled_about {tid : String} (E : FileEnv) (m : FileTransferManager) :
    OnlyOutbound tid m (noteSendStalled E m tid).1 ∧ ∀ e ∈ (noteSendStalled E m tid).2, e.About tid := by
  unfold noteSendStalled
  split
  · exact ⟨.refl tid m, by simp⟩
  · rename_i x hx
    have hid : (stalledTurn E x).transferId = x.transferId := by
      unfold stalledTurn
      simp only
      split <;> rfl
    refine ⟨.insert hx hid, fun e he => ?_⟩
    split at he
    · rw [List.mem_singleton] at he
      exact he ▸ rfl
    · cases he

end DoubleSlash.Files
