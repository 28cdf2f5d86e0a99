import DoubleSlash.Lemmas.Outbound
import DoubleSlash.Files.Link

/-!
# What a sender emits

Whatever the budgets, refusals and resumes, every chunk frame of a transfer carries the bytes its index says.
-/

namespace DoubleSlash.Files

open Protocol Assoc Codec FileTransferManager

/-! ## Chunks of a payload -/

theorem length_slice (data : List UInt8) (i : Nat) : (slice data i).length = min chunkSize (data.length - i * chunkSize) := by
  simp [slice]

theorem getElem?_slice (data : List UInt8) (i k : Nat) (hk : k < chunkSize) : (slice data i)[k]? = data[i * chunkSize + k]? := by
  rw [slice, List.getElem?_take_of_lt hk, List.getElem?_drop]

/-- The chunks put together. -/
theorem flatMap_slice (data : List UInt8) (n : Nat) : (List.range n).flatMap (slice data) = data.take (n * chunkSize) := by
  induction n with
  | zero => simp
  | succ n ih =>
    rw [List.range_succ, List.flatMap_append, ih, List.flatMap_cons, List.flatMap_nil, List.append_nil, slice, ← List.take_add,
      Nat.add_mul, Nat.one_mul]

theorem le_chunkCount_mul (len : Nat) : len ≤ chunkCount len * chunkSize := by
  simp only [chunkCount, chunkSize]
  omega

theorem chunkCount_pos (len : Nat) : 0 < chunkCount len := by
  simp only [chunkCount]
  omega

/-- The number of chunks that counts them all. -/
theorem flatMap_slice_chunkCount (data : List UInt8) : (List.range (chunkCount data.length)).flatMap (slice data) = data := by
  rw [flatMap_slice, List.take_of_length_le (le_chunkCount_mul data.length)]

/-! ## Reading them -/

/-- The source gives the payload: it holds it, or the file it names does. -/
def TransferSource.Holds (E : FileEnv) (payload : List UInt8) : TransferSource → Prop
  | .inline data => data = payload
  | .filePath path len => E.readFile path = some payload ∧ len = payload.length

theorem TransferSource.Holds.payloadLen {E : FileEnv} {payload : List UInt8} {source : TransferSource}
    (h : source.Holds E payload) : source.payloadLen = payload.length := by
  cases source with
  | inline data => exact congrArg List.length h
  | filePath path len => exact h.2

/-- Every chunk of the payload can be read. -/
theorem TransferSource.Holds.readChunk {E : FileEnv} {payload : List UInt8} {source : TransferSource}
    (h : source.Holds E payload) {i : Nat} (hi : i < chunkCount payload.length) :
    source.readChunk E i = some (slice payload i) := by
  have hrange : ¬(payload.length ≤ i * chunkSize ∧ ¬(payload.length = 0 ∧ i = 0)) := by
    simp only [chunkCount, chunkSize] at hi ⊢
    omega
  have hslice : (payload.drop (i * chunkSize)).take (min chunkSize (payload.length - i * chunkSize)) = slice payload i := by
    rw [slice, List.take_eq_take_iff, List.length_drop]
    omega
  have hlen := h.payloadLen
  rw [← hlen] at hrange
  unfold TransferSource.readChunk
  dsimp only
  rw [if_neg hrange, hlen]
  cases source with
  | inline data =>
    obtain rfl : data = payload := h
    exact congrArg some hslice
  | filePath path len =>
    have hin : i * chunkSize + min chunkSize (payload.length - i * chunkSize) ≤ payload.length := by
      rw [hlen] at hrange
      simp only [chunkSize] at hrange ⊢
      omega
    dsimp only
    rw [h.1, Option.bind_some, if_pos hin, hslice]

/-! ## Frames -/

/-- A chunk frame of the transfer carries the bytes its index says. -/
def Genuine (tid : String) (payload : List UInt8) (e : TransferEvent) : Prop :=
  ∀ peerId frame, e = .sendMessage peerId .fileTransferChunk frame → frame.strOr "transfer_id" "" = tid →
    frame.natOr "chunk_index" 0 < chunkCount payload.length ∧
      frame.strOr "data" "" = b64Encode (slice payload (frame.natOr "chunk_index" 0))

/-- A frame of another transfer. -/
theorem Genuine.of_about {tid id : String} {payload : List UInt8} {e : TransferEvent} (hid : id ≠ tid) (h : e.About id) :
    Genuine tid payload e := by
  rintro peerId frame rfl htid
  exact absurd (h.symm.trans htid) hid

/-- What is no message is no frame. -/
theorem Genuine.of_other {tid : String} {payload : List UInt8} {e : TransferEvent}
    (h : ∀ peerId ty frame, e ≠ .sendMessage peerId ty frame) : Genuine tid payload e :=
  fun peerId frame heq => absurd heq (h peerId .fileTransferChunk frame)

/-- A frame of another type is no chunk. -/
theorem Genuine.of_type {tid peerId : String} {payload : List UInt8} {ty : MessageType} {frame : Payload}
    (h : ty ≠ .fileTransferChunk) : Genuine tid payload (.sendMessage peerId ty frame) :=
  fun _ _ heq => absurd (TransferEvent.sendMessage.inj heq).2.1 h

/-- The fields of a chunk's frame, read as they were written. -/
theorem chunkFrame_fields (x : OutboundTransfer) {i : Nat} (data : String) (hi : i < 2 ^ 64) :
    Payload.natOr ([("transfer_id", .str x.transferId), ("chunk_index", .int i), ("data", .str data)] ++ toField x.toPeer)
        "chunk_index" 0 = i ∧
      Payload.strOr ([("transfer_id", .str x.transferId), ("chunk_index", .int i), ("data", .str data)] ++ toField x.toPeer)
        "data" "" = data := by
  have hindex : Json.asU64 (.int i) = some i := by
    rw [Json.asU64, if_pos (by omega)]
    simp
  have hget : Payload.get ([("transfer_id", .str x.transferId), ("chunk_index", .int i), ("data", .str data)] ++
      toField x.toPeer) "chunk_index" = some (.int i) := by
    simp [Payload.get, List.lookup_cons]
  constructor
  · rw [Payload.natOr, hget, Option.bind_some, hindex, Option.getD_some]
  · simp [Payload.strOr, Payload.get, List.lookup_cons, Json.asStr]

/-- The frame of a chunk is genuine. -/
theorem genuine_chunkFrame (x : OutboundTransfer) {payload : List UInt8} {i : Nat} (hfits : chunkCount payload.length ≤ 2 ^ 64)
    (hi : i < chunkCount payload.length) : Genuine x.transferId payload (chunkFrame x i (slice payload i)) := by
  intro peerId frame heq _
  obtain ⟨-, -, rfl⟩ := TransferEvent.sendMessage.inj heq
  obtain ⟨hindex, hdata⟩ := chunkFrame_fields x (b64Encode (slice payload i)) (Nat.lt_of_lt_of_le hi hfits)
  rw [hindex, hdata]
  exact ⟨hi, rfl⟩

namespace SenderAux

/-- The pump emits genuine frames. -/
theorem nextChunks_genuine {E : FileEnv} {payload : List UInt8} (budget : Nat) {x : OutboundTransfer}
    (hfits : chunkCount payload.length ≤ 2 ^ 64) (hsource : x.source.Holds E payload)
    (htotal : x.totalChunks = chunkCount payload.length) :
    (nextChunks E x budget).1.source = x.source ∧ (nextChunks E x budget).1.totalChunks = x.totalChunks ∧
      ∀ e ∈ (nextChunks E x budget).2.1, Genuine x.transferId payload e := by
  induction budget generalizing x with
  | zero => exact ⟨rfl, rfl, by simp [nextChunks]⟩
  | succ budget ih =>
    unfold nextChunks
    split
    · rename_i hlt
      have hread := hsource.readChunk (htotal ▸ hlt)
      rw [hread]
      obtain ⟨hs, ht, hgen⟩ := @ih { x with chunksSent := x.chunksSent + 1 } hsource htotal
      refine ⟨hs, ht, fun e he => ?_⟩
      simp only [List.cons_append, List.mem_cons, List.mem_append] at he
      rcases he with rfl | he | he
      · exact genuine_chunkFrame x hfits (htotal ▸ hlt)
      · split at he
        · rw [List.mem_singleton] at he
          subst he
          exact .of_other (by simp)
        · cases he
      · exact hgen e he
    · exact ⟨rfl, rfl, by simp⟩

theorem nextChunkEvents_genuine {E : FileEnv} {payload : List UInt8} (budget : Nat) {x : OutboundTransfer}
    (hfits : chunkCount payload.length ≤ 2 ^ 64) (hsource : x.source.Holds E payload)
    (htotal : x.totalChunks = chunkCount payload.length) :
    (nextChunkEvents E x budget).1.source = x.source ∧ (nextChunkEvents E x budget).1.totalChunks = x.totalChunks ∧
      ∀ e ∈ (nextChunkEvents E x budget).2.1, Genuine x.transferId payload e := by
  obtain ⟨hs, ht, hgen⟩ := nextChunks_genuine budget hfits hsource htotal
  unfold nextChunkEvents
  simp only
  split
  · exact ⟨hs, ht, hgen⟩
  split
  · refine ⟨hs, ht, fun e he => ?_⟩
    rcases List.mem_append.mp he with he | he
    · exact hgen e he
    · rw [List.mem_singleton] at he
      subst he
      exact .of_type (by decide)
  · exact ⟨hs, ht, hgen⟩

end SenderAux

open SenderAux OutboundAux

/-- A manager that sends the payload under the id, its other transfers under their own. -/
structure Serving (E : FileEnv) (tid : String) (payload : List UInt8) (m : FileTransferManager) : Prop where
  keyed : Keyed m
  fits : chunkCount payload.length ≤ 2 ^ 64
  record : ∀ x, m.outbound.lookup tid = some x → x.source.Holds E payload ∧ x.totalChunks = chunkCount payload.length

section

variable {E : FileEnv} {tid : String} {payload : List UInt8} {m : FileTransferManager}

/-- Changing a record in anything but its id, source and length. -/
theorem Serving.replace (h : Serving E tid payload m) {id : String} {x x' : OutboundTransfer}
    (hx : m.outbound.lookup id = some x) (hid : x'.transferId = x.transferId) (hsource : x'.source = x.source)
    (htotal : x'.totalChunks = x.totalChunks) : Serving E tid payload { m with outbound := m.outbound.insert id x' } where
  keyed := by
    intro id' y hy
    by_cases hne : id' = id
    · subst hne
      rw [AList.lookup_insert] at hy
      rw [← Option.some.inj hy, hid]
      exact h.keyed id' x hx
    · rw [AList.lookup_insert_ne hne] at hy
      exact h.keyed id' y hy
  fits := h.fits
  record := by
    intro y hy
    by_cases hne : tid = id
    · subst hne
      rw [AList.lookup_insert] at hy
      rw [← Option.some.inj hy, hsource, htotal]
      exact h.record x hx
    · rw [AList.lookup_insert_ne hne] at hy
      exact h.record y hy

theorem Serving.modify (h : Serving E tid payload m) {id : String} {f : OutboundTransfer → OutboundTransfer}
    (hid : ∀ x, (f x).transferId = x.transferId) (hsource : ∀ x, (f x).source = x.source)
    (htotal : ∀ x, (f x).totalChunks = x.totalChunks) :
    Serving E tid payload { m with outbound := Assoc.modify m.outbound id f } := by
  unfold Assoc.modify
  split
  · exact h
  · rename_i x hx
    exact h.replace hx (hid x) (hsource x) (htotal x)

/-- The sending half runs the pump on a record. -/
theorem Serving.pumped (h : Serving E tid payload m) {id : String} {x x₁ : OutboundTransfer} (budget : Nat)
    (hx : m.outbound.lookup id = some x) (hid : x₁.transferId = x.transferId) (hsource : x₁.source = x.source)
    (htotal : x₁.totalChunks = x.totalChunks) :
    Serving E tid payload { m with outbound := m.outbound.insert id (nextChunkEvents E x₁ budget).1 } ∧
      ∀ e ∈ (nextChunkEvents E x₁ budget).2.1, Genuine tid payload e := by
  obtain ⟨hkey, habout⟩ := nextChunkEvents_about E x₁ budget
  by_cases hne : id = tid
  · subst hne
    obtain ⟨hholds, hcount⟩ := h.record x hx
    rw [← hsource] at hholds
    rw [← htotal] at hcount
    obtain ⟨hs, ht, hgen⟩ := nextChunkEvents_genuine budget h.fits hholds hcount
    refine ⟨h.replace hx (hkey.trans hid) (hs.trans hsource) (ht.trans htotal), fun e he => ?_⟩
    have hgenuine := hgen e he
    rwa [hid, h.keyed id x hx] at hgenuine
  · have hown : x₁.transferId = id := hid.trans (h.keyed id x hx)
    refine ⟨⟨?_, h.fits, ?_⟩, fun e he => .of_about (hown ▸ hne) (habout e he)⟩
    · intro id' y hy
      by_cases heq : id' = id
      · subst heq
        rw [AList.lookup_insert] at hy
        rw [← Option.some.inj hy, hkey, hown]
      · rw [AList.lookup_insert_ne heq] at hy
        exact h.keyed id' y hy
    · intro y hy
      rw [AList.lookup_insert_ne (Ne.symm hne)] at hy
      exact h.record y hy

/-- Filing another transfer. -/
theorem Serving.insert (h : Serving E tid payload m) {x : OutboundTransfer} (hne : x.transferId ≠ tid) :
    Serving E tid payload { m with outbound := m.outbound.insert x.transferId x } where
  keyed := by
    intro id y hy
    by_cases heq : id = x.transferId
    · subst heq
      rw [AList.lookup_insert] at hy
      rw [← Option.some.inj hy]
    · rw [AList.lookup_insert_ne heq] at hy
      exact h.keyed id y hy
  fits := h.fits
  record := by
    intro y hy
    rw [AList.lookup_insert_ne (Ne.symm hne)] at hy
    exact h.record y hy

/-- Dropping records and stamping the rest. -/
theorem Serving.sweep (h : Serving E tid payload m) {m' : FileTransferManager}
    (hrecord : ∀ id x', m'.outbound.lookup id = some x' → ∃ x, m.outbound.lookup id = some x ∧ x'.transferId = x.transferId ∧
      x'.source = x.source ∧ x'.totalChunks = x.totalChunks) : Serving E tid payload m' where
  keyed := by
    intro id x' hx'
    obtain ⟨x, hx, hid, -, -⟩ := hrecord id x' hx'
    exact hid.trans (h.keyed id x hx)
  fits := h.fits
  record := by
    intro x' hx'
    obtain ⟨x, hx, -, hsource, htotal⟩ := hrecord tid x' hx'
    rw [hsource, htotal]
    exact h.record x hx

/-- Time passes, the files do not change. -/
theorem Serving.at (h : Serving E tid payload m) (now : ℚ) : Serving { E with now := now } tid payload m := by
  refine ⟨h.keyed, h.fits, fun x hx => ?_⟩
  obtain ⟨hholds, hcount⟩ := h.record x hx
  refine ⟨?_, hcount⟩
  cases hs : x.source with
  | inline data => rwa [hs] at hholds
  | filePath path len => rwa [hs] at hholds

/-- A record is filed with what the pump made of it. -/
theorem Serving.pushed (h : Serving E tid payload m) {x : OutboundTransfer} (hne : x.transferId ≠ tid) :
    Serving E tid payload { m with outbound := m.outbound.insert x.transferId (buildChunkEvents E x).1 } ∧
      ∀ e ∈ (buildChunkEvents E x).2, Genuine tid payload e := by
  unfold buildChunkEvents
  obtain ⟨hkey, habout⟩ := nextChunkEvents_about E x x.totalChunks
  rw [← hkey] at hne
  have hfiled := h.insert hne
  rw [hkey] at hfiled hne
  exact ⟨hfiled, fun e he => .of_about hne (habout e he)⟩

theorem Serving.offer (h : Serving E tid payload m) (peerId relPath : String) {p : PreparedOffer} (autoPush : Bool)
    (hne : p.transferId ≠ tid) :
    Serving E tid payload (insertPrepared E m peerId relPath p autoPush).1 ∧
      ∀ e ∈ (insertPrepared E m peerId relPath p autoPush).2, Genuine tid payload e := by
  unfold insertPrepared
  simp only
  split
  · obtain ⟨hfiled, hgen⟩ := @Serving.pushed E tid payload m h { p.record E peerId relPath with state := .transferring } hne
    refine ⟨hfiled, fun e he => ?_⟩
    rcases List.mem_cons.mp he with rfl | he
    · exact .of_type (by decide)
    · exact hgen e he
  · refine ⟨@Serving.insert E tid payload m h (p.record E peerId relPath) hne, fun e he => ?_⟩
    rw [List.mem_singleton] at he
    exact he ▸ .of_type (by decide)

theorem Serving.accepted (h : Serving E tid payload m) (id : String) (resumeFrom : Option Nat) :
    Serving E tid payload (onTransferAcceptedFrom E m id resumeFrom).1 ∧
      ∀ e ∈ (onTransferAcceptedFrom E m id resumeFrom).2, Genuine tid payload e := by
  unfold onTransferAcceptedFrom
  split
  · exact ⟨h, by simp⟩
  split
  · exact ⟨h, by simp⟩
  · rename_i x hx
    split
    · exact ⟨h, by simp⟩
    simp only
    split
    all_goals
      obtain ⟨hserving, hgen⟩ := @Serving.pumped E tid payload m h id x
        (restarted E { x with chunksSent := resumeFrom.elim x.chunksSent fun n => min n x.totalChunks }) _ hx rfl rfl rfl
      refine ⟨hserving, fun e he => ?_⟩
      rcases List.mem_cons.mp he with rfl | he
      · exact .of_other (by simp)
      · exact hgen e he

theorem Serving.start (h : Serving E tid payload m) (id requester : String) (fromChunk budget : Nat) :
    Serving E tid payload (startStreamFrom E m id requester fromChunk budget).1 ∧
      ∀ e ∈ (startStreamFrom E m id requester fromChunk budget).2, Genuine tid payload e := by
  unfold startStreamFrom
  split
  · exact ⟨h, by simp⟩
  split
  · exact ⟨h, by simp⟩
  · rename_i x hx
    exact h.pumped budget hx rfl rfl rfl

theorem Serving.pump (h : Serving E tid payload m) (id : String) (budget : Nat) :
    Serving E tid payload (pumpStream E m id budget).1 ∧ ∀ e ∈ (pumpStream E m id budget).2, Genuine tid payload e := by
  unfold pumpStream
  split
  · exact ⟨h, by simp⟩
  · rename_i x hx
    split
    · exact h.pumped budget hx rfl rfl rfl
    · exact ⟨h, by simp⟩

/-- Settling a record: no frame is emitted. -/
theorem Serving.settled (h : Serving E tid payload m) (id : String) {out : FileTransferManager × List TransferEvent}
    (hout : out = (m, []) ∨ ∃ x x', m.outbound.lookup id = some x ∧
      out.1 = { m with outbound := m.outbound.insert id x' } ∧ x'.transferId = x.transferId ∧ x'.source = x.source ∧
      x'.totalChunks = x.totalChunks ∧ ∀ e ∈ out.2, ∀ peerId ty frame, e ≠ .sendMessage peerId ty frame) :
    Serving E tid payload out.1 ∧ ∀ e ∈ out.2, Genuine tid payload e := by
  rcases hout with rfl | ⟨x, x', hx, hm, hid, hsource, htotal, hevents⟩
  · exact ⟨h, by simp⟩
  · rw [hm]
    refine ⟨h.replace hx hid hsource htotal, fun e he => ?_⟩
    exact .of_other (hevents e he)

/-- **Every operation keeps what is sent genuine.** -/
theorem Serving.apply (h : Serving E tid payload m) {op : SenderOp} (hop : op.offersId tid = false) :
    Serving E tid payload (op.apply E m).1 ∧ ∀ e ∈ (op.apply E m).2, Genuine tid payload e := by
  cases op with
  | offer peerId relPath p autoPush => exact h.offer peerId relPath autoPush (by simpa [SenderOp.offersId] using hop)
  | accepted id resumeFrom => exact h.accepted id resumeFrom
  | start id requester fromChunk budget => exact h.start id requester fromChunk budget
  | pump id budget => exact h.pump id budget
  | rejected id =>
    refine h.settled id ?_
    simp only [SenderOp.apply, onTransferRejected]
    split
    · exact Or.inl rfl
    · rename_i x hx
      exact Or.inr ⟨x, _, hx, rfl, rfl, rfl, rfl, by simp⟩
  | acked id =>
    refine h.settled id ?_
    simp only [SenderOp.apply, onTransferAck]
    split
    · exact Or.inl rfl
    · rename_i x hx
      exact Or.inr ⟨x, _, hx, rfl, rfl, rfl, rfl, by simp⟩
  | errored id reason =>
    refine h.settled id ?_
    simp only [SenderOp.apply, onTransferError]
    split
    · exact Or.inl rfl
    · rename_i x hx
      exact Or.inr ⟨x, _, hx, rfl, rfl, rfl, rfl, by simp⟩
  | unsend id n =>
    refine ⟨h.modify (fun x => ?_) (fun x => ?_) (fun x => ?_), by simp [SenderOp.apply]⟩
    all_goals
      simp only
      split <;> rfl
  | completed id => exact ⟨h.modify (fun _ => rfl) (fun _ => rfl) (fun _ => rfl), by simp [SenderOp.apply]⟩
  | progressed id => exact ⟨h.modify (fun _ => rfl) (fun _ => rfl) (fun _ => rfl), by simp [SenderOp.apply]⟩
  | stalled id =>
    refine h.settled id ?_
    simp only [SenderOp.apply, noteSendStalled]
    split
    · exact Or.inl rfl
    · rename_i x hx
      refine Or.inr ⟨x, _, hx, rfl, ?_, ?_, ?_, ?_⟩
      · simp only [stalledTurn]
        split <;> rfl
      · simp only [stalledTurn]
        split <;> rfl
      · simp only [stalledTurn]
        split <;> rfl
      · intro e he
        split at he
        · rw [List.mem_singleton] at he
          subst he
          simp
        · cases he
  | revoke id =>
    refine ⟨?_, by simp [SenderOp.apply]⟩
    simp only [SenderOp.apply, revokeOutbound]
    split
    · refine h.sweep fun id' x' hx' => ⟨x', ?_, rfl, rfl, rfl⟩
      by_cases heq : id' = id
      · subst heq
        simp at hx'
      · rwa [AList.lookup_erase_ne heq] at hx'
    · exact h
  | cancel id =>
    refine h.settled id ?_
    simp only [SenderOp.apply, cancelOutbound]
    split
    · exact Or.inl rfl
    · rename_i x hx
      split
      · exact Or.inr ⟨x, _, hx, rfl, rfl, rfl, rfl, by simp⟩
      · exact Or.inl rfl
  | gc =>
    refine ⟨h.sweep fun id x' hx' => ?_, by simp [SenderOp.apply]⟩
    simp only [SenderOp.apply, FileTransferManager.gc] at hx'
    rw [lookup_retain, Option.filter_eq_some_iff, lookup_mapValues, Option.map_eq_some_iff] at hx'
    obtain ⟨⟨x, hx, rfl⟩, -⟩ := hx'
    refine ⟨x, hx, ?_⟩
    unfold stampOutbound
    split <;> exact ⟨rfl, rfl, rfl⟩

end

end DoubleSlash.Files
