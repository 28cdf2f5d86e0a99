import DoubleSlash.Lemmas.FileStreams
import DoubleSlash.Lemmas.Sender

/-!
# What a turn does to a stream

A turn that pumps a stream leaves its record counting the chunks a transport took. Every other turn takes no frame of it and
moves no cursor.
-/

namespace DoubleSlash.Manager

open Protocol Assoc Codec Files FileTransferManager

/-- The frames a pump emits from an index on. -/
def emitted (start k : Nat) (last : Bool) : List Frame :=
  (List.range' start k).map .chunk ++ if last then [.complete] else []

/-- The record `y` after a turn that pumped the stream as `x`: of the frames `emitted x.chunksSent k last` the first `sent` were
taken. -/
structure Pumped (E : Env) (tid : String) (x : OutboundTransfer) (k : Nat) (last : Bool) (sent : Nat)
    (r : FileTransferManager × List Effect) (y : OutboundTransfer) : Prop where
  bound : k = 0 ∨ x.chunksSent + k ≤ x.totalChunks
  ended : last = true → x.totalChunks ≤ x.chunksSent + k
  within : sent ≤ (emitted x.chunksSent k last).length
  lookup : r.1.outbound.lookup tid = some y
  record : y = { x with
    chunksSent := x.chunksSent + min sent k
    state := y.state
    lastProgressAt := y.lastProgressAt
    finishedAt := y.finishedAt
    stallCount := y.stallCount
    stalledSince := y.stalledSince
    retryAfter := y.retryAfter }
  taken : takenFrames E tid r.2 = (emitted x.chunksSent k last).take sent
  moving : y.state ≠ .pending
  complete : last = true → sent = k + 1 → y.state = .complete
  cleared : sent = (emitted x.chunksSent k last).length → k ≠ 0 → y.stalledSince = none
  kept : sent = (emitted x.chunksSent k last).length → k = 0 → y.stalledSince = x.stalledSince
  stalled : sent < (emitted x.chunksSent k last).length → y.stalledSince = some (x.stalledSince.getD E.files.now)
  failed : Effect.emit (.fileFailed tid noTransport false) ∈ r.2 →
    sent < (emitted x.chunksSent k last).length ∧ x.stalledSince.getD E.files.now + stallGiveUp ≤ E.files.now

theorem length_emitted (start k : Nat) (last : Bool) : (emitted start k last).length = k + last.toNat := by
  cases last <;> simp [emitted]

/-- What the end of a stalled turn emits. -/
theorem noteStall_effects {E : Env} {m : FileTransferManager} {effects : List Effect} {tid : String} {x : OutboundTransfer}
    (hx : m.outbound.lookup tid = some x) :
    (Batch.noteStall E (m, effects) tid).1 = { m with outbound := m.outbound.insert tid (stalledTurn E.files x) } ∧
      (Batch.noteStall E (m, effects) tid).2 = effects ++
        if x.stalledSince.getD E.files.now + stallGiveUp ≤ E.files.now then [.emit (.fileFailed tid noTransport false)] else [] := by
  unfold Batch.noteStall noteSendStalled
  rw [hx]
  refine ⟨rfl, congrArg (effects ++ ·) ?_⟩
  simp only
  split <;> rfl

/-- The record after a stalled turn. -/
theorem stalledTurn_record (E : FileEnv) (x : OutboundTransfer) :
    stalledTurn E x = { x with
        state := (stalledTurn E x).state
        finishedAt := (stalledTurn E x).finishedAt
        stallCount := (stalledTurn E x).stallCount
        stalledSince := some (x.stalledSince.getD E.now)
        retryAfter := (stalledTurn E x).retryAfter } := by
  unfold stalledTurn
  simp only
  split <;> rfl

/-- **A turn that pumps the stream.** -/
theorem pumped {E : Env} {tid : String} {route : Route} {m : FileTransferManager} {b : Batch} {x : OutboundTransfer} (budget : Nat)
    (htid : tid ≠ "") (hid : x.transferId = tid) (hstate : x.state = .transferring)
    (hlookup : m.outbound.lookup tid = some (nextChunkEvents E.files x budget).1)
    (hb : Stage E tid m b false 0 0 0 []) :
    ∃ k last y, Pumped E tid x k last (route.takes E b.handed (fileFrames tid (nextChunkEvents E.files x budget).2.1))
      (((nextChunkEvents E.files x budget).2.1.foldl (route.one E) b).finish E) y ∧
      ((nextChunkEvents E.files x budget).2.1.filterMap (eventFrame tid)) = emitted x.chunksSent k last := by
  obtain ⟨k, last, h⟩ := sends_nextChunkEvents E.files x budget
  obtain ⟨evs, hevents, hframes, hevs⟩ := h.events
  subst hid
  have hcomplete := eventFrame_completeFrame x
  have hdata : (nextChunkEvents E.files x budget).2.1.filterMap (eventFrame x.transferId) = emitted x.chunksSent k last := by
    simp only at hevents
    rw [hevents, List.filterMap_append, hframes, emitted]
    cases last with
    | false => rfl
    | true => simp [hcomplete]
  have hcount : (fileFrames x.transferId evs).length = k := by
    have := congrArg List.length hframes
    rw [List.length_filterMap_eq_countP] at this
    simpa [fileFrames, List.countP_eq_length_filter] using this
  have hbatch := @Stage.batch _ _ _ route _ htid _ _ _ last hevs hcount hcomplete hb
  simp only at hbatch hevents
  rw [← hevents, hdata, length_emitted] at hbatch
  obtain ⟨hstate', hpending⟩ : (nextChunkEvents E.files x budget).1.state ≠ .complete ∧
      (nextChunkEvents E.files x budget).1.state ≠ .pending := by
    have hcases := h.state
    simp only [hstate] at hcases
    rcases hcases with heq | heq <;> rw [heq] <;> decide
  have hrecord := h.record
  have hcursor := h.cursor
  simp only at hrecord hcursor
  generalize hz : (nextChunkEvents E.files x budget).1 = z at *
  have hsince : z.stalledSince = x.stalledSince := by rw [hrecord]
  generalize route.takes E b.handed (fileFrames x.transferId (nextChunkEvents E.files x budget).2.1) = sent at hbatch ⊢
  rcases hbatch with ⟨hsent, hstage⟩ | ⟨hlt, hle, hold, hstage⟩
  · -- Every frame went out.
    have hmin : min sent k = k := by omega
    have hfinish := hstage.finish_all
    generalize ((nextChunkEvents E.files x budget).2.1.foldl (route.one E) b) = b' at hstage hfinish ⊢
    let done (z : OutboundTransfer) : OutboundTransfer :=
      if last then { z with state := .complete, finishedAt := some E.files.now } else z
    let noted (z : OutboundTransfer) : OutboundTransfer :=
      if k = 0 then z else { z with lastProgressAt := E.files.now, stallCount := 0, stalledSince := none, retryAfter := 0 }
    have hdone : (if last then markOutboundComplete E.files m x.transferId else m).outbound.lookup x.transferId = some (done z) := by
      simp only [done]
      split
      · simp [markOutboundComplete, lookup_modify, hlookup]
      · exact hlookup
    refine ⟨k, last, noted (done z), ⟨h.bound, h.ended, by rw [length_emitted]; omega, ?_, ?_, ?_, ?_, ?_, ?_, ?_, ?_, ?_⟩, hdata⟩
    · rw [hfinish]
      simp only [noted]
      split
      · exact hdone
      · simp only [noteSendProgress]
        rw [lookup_modify, if_pos rfl, hdone]
        rfl
    · rw [hmin, ← hcursor]
      simp only [noted, done]
      split <;> split <;> · rw [hrecord]
    · rw [hfinish]
      simp only
      rw [hstage.taken, List.take_of_length_le (by rw [length_emitted]; omega)]
    · simp only [noted, done]
      split <;> split <;> first | exact hpending | simp
    · intro hlast _
      simp only [noted, done, hlast, if_true]
      split <;> rfl
    · intro _ hk
      simp only [noted, if_neg hk]
    · intro _ hk
      simp only [noted, if_pos hk, done]
      split <;> exact hsince
    · intro hlt
      rw [length_emitted] at hlt
      omega
    · intro hmem
      rw [hfinish] at hmem
      exact absurd hmem hstage.silent
  · -- The first frames went out.
    have hmin : min sent k = sent := by omega
    have hfinish := hstage.finish_some (by omega)
    generalize ((nextChunkEvents E.files x budget).2.1.foldl (route.one E) b) = b' at hstage hfinish ⊢
    have hrewound : (if k - sent = 0 then m else unsendChunks m x.transferId (k - sent)).outbound.lookup x.transferId =
        some { z with chunksSent := z.chunksSent - (k - sent) } := by
      split
      · rename_i hnone
        rw [hlookup, hnone]
        rfl
      · simp [unsendChunks, lookup_modify, hlookup, hstate']
    obtain ⟨hmgr, heffects⟩ := @noteStall_effects E _ b'.effects _ _ hrewound
    rw [← hfinish] at hmgr heffects
    have hstalled := stalledTurn_record E.files { z with chunksSent := z.chunksSent - (k - sent) }
    refine ⟨k, last, stalledTurn E.files { z with chunksSent := z.chunksSent - (k - sent) },
      ⟨h.bound, h.ended, by rw [length_emitted]; omega, ?_, ?_, ?_, ?_, ?_, ?_, ?_, ?_, ?_⟩, hdata⟩
    · rw [hmgr, AList.lookup_insert]
    · rw [hstalled, hmin]
      have hback : z.chunksSent - (k - sent) = x.chunksSent + sent := by omega
      simp only [hback]
      rw [hrecord]
    · rw [heffects]
      split
      · rw [takenFrames_append, hstage.taken]
        simp [effectFrame]
      · rw [List.append_nil, hstage.taken]
    · unfold stalledTurn
      simp only
      split
      · simp
      · exact hpending
    · intro _ hsent
      omega
    · intro hsent
      rw [length_emitted] at hsent
      omega
    · intro hsent
      rw [length_emitted] at hsent
      omega
    · intro _
      rw [hstalled]
      simp only [hsince]
    · intro hmem
      rw [heffects] at hmem
      rcases List.mem_append.mp hmem with hmem | hmem
      · exact absurd hmem hstage.silent
      · rw [length_emitted]
        split at hmem
        · rename_i hover
          refine ⟨hlt, ?_⟩
          simpa only [hsince] using hover
        · cases hmem

/-! ## The other streams -/

/-- A message among the effects names the transfer. -/
def Effect.Names (id : String) : Effect → Prop
  | .send _ _ payload => payload.strOr "transfer_id" "" = id
  | _ => True

theorem effectFrame_of_names {tid id : String} {e : Effect} (h : e.Names id) (hne : id ≠ tid) : effectFrame tid e = none := by
  cases e with
  | send target ty payload =>
    obtain rfl : payload.strOr "transfer_id" "" = id := h
    exact if_neg hne
  | _ => rfl

theorem takenFrames_of_names {E : Env} {tid id : String} {effects : List Effect} (h : ∀ e ∈ effects, e.Names id) (hne : id ≠ tid) :
    takenFrames E tid effects = [] := by
  rw [takenFrames, List.filterMap_eq_nil_iff]
  intro e he
  obtain ⟨⟨e', n⟩, hmem, rfl⟩ := List.mem_map.mp he
  have hzip := (List.mem_filter.mp hmem).1
  exact effectFrame_of_names (h e' (List.mem_of_mem_filter (List.fst_mem_of_mem_zipIdx hzip))) hne

theorem Batch.miss_effects (b : Batch) (tid : String) (isChunk : Bool) : (b.miss tid isChunk).effects = b.effects := by
  unfold Batch.miss
  split <;> rfl

theorem Batch.hand_effects (E : Env) (b : Batch) (target : String) (ty : MessageType) (payload : Payload) (tid : String)
    (isChunk isComplete : Bool) :
    (b.hand E target ty payload tid isChunk isComplete).effects = b.effects ++ [.send target ty payload] := by
  unfold Batch.hand
  cases isChunk with
  | true =>
    cases hsent : E.sent b.handed with
    | true => by_cases htid : tid = "" <;> simp [htid, Batch.push]
    | false => simp [Batch.missChunk, Batch.miss_effects, Batch.push]
  | false =>
    cases isComplete with
    | true => cases hsent : E.sent b.handed <;> simp [Batch.miss_effects, Batch.push]
    | false => simp [Batch.push]

/-- Carrying out an event hands over a message of its transfer, if any. -/
theorem one_names {E : Env} {route : Route} {b : Batch} {id : String} {e : TransferEvent} (he : e.About id)
    (hb : ∀ e ∈ b.effects, e.Names id) : ∀ e' ∈ (route.one E b e).effects, e'.Names id := by
  have hpush : ∀ effect : Effect, effect.isSend = false → ∀ e' ∈ (b.push effect).effects, e'.Names id := by
    intro effect hsend e' he'
    rcases List.mem_append.mp he' with he' | he'
    · exact hb e' he'
    · rw [List.mem_singleton.mp he']
      cases effect with
      | send _ _ _ => cases hsend
      | _ => exact trivial
  have hmiss := fun isChunk => b.miss_effects id isChunk
  have hhand : ∀ target ty (payload : Payload) isChunk isComplete, payload.strOr "transfer_id" "" = id →
      ∀ e' ∈ (b.hand E target ty payload id isChunk isComplete).effects, e'.Names id := by
    intro target ty payload isChunk isComplete hid e' he'
    rw [Batch.hand_effects] at he'
    rcases List.mem_append.mp he' with he' | he'
    · exact hb e' he'
    · rw [List.mem_singleton] at he'
      exact he' ▸ hid
  cases e with
  | sendMessage peerId ty payload =>
    obtain rfl : payload.strOr "transfer_id" "" = id := he
    cases route with
    | peer =>
      simp only [Route.one, Batch.one]
      split
      · rw [hmiss]
        exact hb
      · exact hhand _ _ payload _ _ rfl
    | room publicId supernodeId roomId =>
      have hroom : ∀ value, Payload.strOr (payload ++ [("room_id", value)]) "transfer_id" "" =
          payload.strOr "transfer_id" "" := by
        intro value
        rw [Payload.strOr, get_concat payload value (by decide), Payload.strOr]
      simp only [Route.one, Batch.oneRoom]
      split
      · exact hb
      · split
        · rw [hmiss]
          exact hb
        · rename_i roomTy _ _
          have hbase : Payload.strOr (if roomTy = .sfuFileOffer then payload ++ [("room_id", .str roomId)] ++
              [("origin_id", .str publicId)] else payload ++ [("room_id", .str roomId)]) "transfer_id" "" =
                payload.strOr "transfer_id" "" := by
            split
            · rw [Payload.strOr, get_concat _ _ (by decide)]
              exact hroom _
            · exact hroom _
          split
          · exact fun e' he' => hb e' ((hmiss true) ▸ he')
          · rename_i payload' hsealed
            refine hhand _ _ payload' _ _ ?_
            split at hsealed
            · rw [← hbase, Payload.strOr, get_sealed hsealed (by decide) (by decide) (by decide), Payload.strOr]
            · rw [← Option.some.inj hsealed]
              exact hbase
  | stateChanged _ _ => cases route <;> exact hb
  | _ => cases route <;> exact hpush _ rfl

/-- **The messages of a batch about one transfer name it.** -/
theorem dispatch_names {E : Env} {m : FileTransferManager} {route : Route} {id : String} {events : List TransferEvent}
    (h : ∀ e ∈ events, e.About id) : ∀ e ∈ (route.dispatch E m events).2, e.Names id := by
  have hfold : ∀ b : Batch, (∀ e ∈ b.effects, e.Names id) → ∀ e ∈ (events.foldl (route.one E) b).effects, e.Names id := by
    induction events with
    | nil => exact fun b hb => hb
    | cons e events ih =>
      intro b hb
      rw [List.foldl_cons]
      exact ih (fun e' he' => h e' (List.mem_cons_of_mem _ he')) _ (one_names (h e List.mem_cons_self) hb)
  have hstall : ∀ (ids : List String) (acc : FileTransferManager × List Effect), (∀ e ∈ acc.2, e.Names id) →
      ∀ e ∈ (ids.foldl (Batch.noteStall E) acc).2, e.Names id := by
    intro ids
    induction ids with
    | nil => exact fun acc hacc => hacc
    | cons id' ids ih =>
      intro acc hacc
      rw [List.foldl_cons]
      refine ih _ fun e he => ?_
      rcases List.mem_append.mp he with he | he
      · exact hacc e he
      · obtain ⟨ev, -, hmatch⟩ := List.mem_filterMap.mp he
        split at hmatch
        · rw [← Option.some.inj hmatch]
          exact trivial
        · cases hmatch
  rw [Route.dispatch_eq]
  exact hstall _ _ (hfold { mgr := m } (by simp))

theorem dispatch_about {E : Env} {m : FileTransferManager} {route : Route} {id : String} {events : List TransferEvent}
    (h : ∀ e ∈ events, e.About id) :
    OnlyOutbound id m (route.dispatch E m events).1 ∧ ∀ e ∈ (route.dispatch E m events).2, e.About id := by
  cases route with
  | peer => exact dispatchTransferEvents_about h
  | room publicId supernodeId roomId => exact dispatchRoomTransferEvents_about h

/-! ## The operations -/

/-- The transfer an operation names. -/
def opId : SenderOp → Option String
  | .offer _ _ p _ => some p.transferId
  | .accepted id _ | .start id _ _ _ | .pump id _ | .rejected id | .acked id | .errored id _ | .unsend id _ | .completed id
  | .progressed id | .stalled id | .revoke id | .cancel id => some id
  | .gc => none

section

variable {E : FileEnv} {m : FileTransferManager} {tid : String}

theorem keyed_only {m' : FileTransferManager} (h : Keyed m) (ho : OnlyOutbound tid m m') : Keyed m' := by
  intro id x hx
  by_cases hid : id = tid
  · subst hid
    obtain ⟨y, hy, heq⟩ := ho.ids x hx
    exact heq.trans (h id y hy)
  · rw [ho.outbound id hid] at hx
    exact h id x hx

theorem keyed_file {x : OutboundTransfer} (h : Keyed m) :
    Keyed { m with outbound := m.outbound.insert x.transferId x } := by
  intro id y hy
  by_cases hid : id = x.transferId
  · subst hid
    rw [AList.lookup_insert] at hy
    exact (Option.some.inj hy) ▸ rfl
  · rw [AList.lookup_insert_ne hid] at hy
    exact h id y hy

/-- The offer that is pushed at once pumps its record to the last chunk. -/
theorem insertPrepared_true (E : FileEnv) (m : FileTransferManager) (peerId relPath : String) (p : PreparedOffer)
    {x : OutboundTransfer} (hx : x = { p.record E peerId relPath with state := .transferring }) :
    insertPrepared E m peerId relPath p true =
      ({ m with outbound := m.outbound.insert p.transferId (nextChunkEvents E x x.totalChunks).1 },
        .sendMessage peerId .fileTransferOffer (p.frame relPath) :: (nextChunkEvents E x x.totalChunks).2.1) := by
  unfold insertPrepared buildChunkEvents
  rw [← hx]
  rfl

theorem insertPrepared_push (E : FileEnv) (m : FileTransferManager) (peerId relPath : String) (p : PreparedOffer) :
    ∃ x : OutboundTransfer, x.transferId = p.transferId ∧ x.state = .transferring ∧ x.chunksSent = 0 ∧ x.stalledSince = none ∧
      insertPrepared E m peerId relPath p true =
        ({ m with outbound := m.outbound.insert p.transferId (nextChunkEvents E x x.totalChunks).1 },
          .sendMessage peerId .fileTransferOffer (p.frame relPath) :: (nextChunkEvents E x x.totalChunks).2.1) :=
  ⟨_, rfl, rfl, rfl, rfl, insertPrepared_true E m peerId relPath p rfl⟩

/-- An operation on one transfer leaves the others' records alone and emits events about it. -/
theorem apply_about (h : Keyed m) {op : SenderOp} (hturn : isTurn op = true) {id : String} (hid : opId op = some id) :
    Keyed (op.apply E m).1 ∧ (∀ tid, tid ≠ id → (op.apply E m).1.outbound.lookup tid = m.outbound.lookup tid) ∧
      ∀ e ∈ (op.apply E m).2, e.About id := by
  have hof : ∀ {out : FileTransferManager × List TransferEvent}, OnlyOutbound id m out.1 ∧ (∀ e ∈ out.2, e.About id) →
      Keyed out.1 ∧ (∀ tid, tid ≠ id → out.1.outbound.lookup tid = m.outbound.lookup tid) ∧ ∀ e ∈ out.2, e.About id :=
    fun hout => ⟨keyed_only h hout.1, hout.1.outbound, hout.2⟩
  cases op with
  | offer peerId relPath p autoPush =>
    obtain rfl : p.transferId = id := Option.some.inj hid
    have hoffer : (TransferEvent.sendMessage peerId .fileTransferOffer (p.frame relPath)).About p.transferId := by
      simp [TransferEvent.About, PreparedOffer.frame, Payload.strOr, Payload.get, Json.asStr]
    cases autoPush with
    | true =>
      obtain ⟨x, hkey, -, -, -, hpush⟩ := insertPrepared_push E m peerId relPath p
      obtain ⟨hkey', habout⟩ := OutboundAux.nextChunkEvents_about E x x.totalChunks
      simp only [SenderOp.apply, hpush]
      refine ⟨?_, fun tid hne => AList.lookup_insert_ne hne, fun e he => ?_⟩
      · have hfile := keyed_file h (x := (nextChunkEvents E x x.totalChunks).1)
        rwa [hkey', hkey] at hfile
      · rcases List.mem_cons.mp he with rfl | he
        · exact hoffer
        · exact hkey ▸ habout e he
    | false =>
      refine ⟨keyed_file h (x := p.record E peerId relPath), fun tid hne => AList.lookup_insert_ne hne, fun e he => ?_⟩
      simp only [SenderOp.apply, insertPrepared, Bool.false_eq_true, if_false, List.mem_singleton] at he
      exact he ▸ hoffer
  | accepted id' resumeFrom =>
    obtain rfl : id' = id := Option.some.inj hid
    exact hof (onTransferAcceptedFrom_about h resumeFrom)
  | start id' requester fromChunk budget =>
    obtain rfl : id' = id := Option.some.inj hid
    exact hof (startStreamFrom_about h requester fromChunk budget)
  | pump id' budget =>
    obtain rfl : id' = id := Option.some.inj hid
    refine hof ?_
    simp only [SenderOp.apply, pumpStream]
    split
    · exact ⟨.refl id' m, by simp⟩
    · rename_i x hx
      split
      · obtain ⟨hkey, habout⟩ := OutboundAux.nextChunkEvents_about E x budget
        exact ⟨.insert hx hkey, fun e he => h id' x hx ▸ habout e he⟩
      · exact ⟨.refl id' m, by simp⟩
  | rejected id' =>
    obtain rfl : id' = id := Option.some.inj hid
    exact hof onTransferRejected_about
  | acked id' =>
    obtain rfl : id' = id := Option.some.inj hid
    exact hof onTransferAck_about
  | errored id' reason =>
    obtain rfl : id' = id := Option.some.inj hid
    exact hof (onTransferError_about reason)
  | revoke id' =>
    obtain rfl : id' = id := Option.some.inj hid
    refine hof ⟨?_, by simp [SenderOp.apply]⟩
    simp only [SenderOp.apply, revokeOutbound]
    split
    · exact ⟨⟨fun id hne => AList.lookup_erase_ne hne, fun x' hx' => by simp at hx'⟩, rfl⟩
    · exact .refl id' m
  | cancel id' =>
    obtain rfl : id' = id := Option.some.inj hid
    refine hof ?_
    simp only [SenderOp.apply, cancelOutbound]
    split
    · exact ⟨.refl id' m, by simp⟩
    · rename_i x hx
      split
      · exact ⟨.insert hx rfl, by simp [TransferEvent.About]⟩
      · exact ⟨.refl id' m, by simp⟩
  | gc => cases hid
  | unsend _ _ => cases hturn
  | completed _ => cases hturn
  | progressed _ => cases hturn
  | stalled _ => cases hturn

/-- What an operation emits before the frames: the offer's message, or a change of state. -/
def IsPrelude (tid : String) (pre : List TransferEvent) : Prop :=
  pre = [] ∨ pre = [.stateChanged tid "transferring"] ∨
    ∃ peerId payload, pre = [.sendMessage peerId .fileTransferOffer payload]

/-- What an operation on the stream does to it: it pumps it as `x`, from a new index or from where it was, or leaves it where it
was, or files it anew. -/
inductive Acts (E : FileEnv) (m : FileTransferManager) (tid : String) (op : SenderOp) : Prop where
  | pumps (x : OutboundTransfer) (budget : Nat) (pre : List TransferEvent) (hid : x.transferId = tid)
      (hstate : x.state = .transferring) (hpre : IsPrelude tid pre)
      (hlookup : (op.apply E m).1.outbound.lookup tid = some (nextChunkEvents E x budget).1)
      (hevents : (op.apply E m).2 = pre ++ (nextChunkEvents E x budget).2.1)
      (hfrom : (restartOf E tid m op = some x.chunksSent ∧ x.stalledSince = none ∧ x.chunksSent ≤ x.totalChunks) ∨
        (restartOf E tid m op = none ∧ m.outbound.lookup tid = some x ∧ pre = [] ∧ ∃ b, op = .pump tid b ∧
          (nextChunkEvents E x budget).2.1 = (pumpStream E m tid b).2))
  | files (x : OutboundTransfer) (hpre : IsPrelude tid (op.apply E m).2) (hstart : restartOf E tid m op = some 0)
      (hlookup : (op.apply E m).1.outbound.lookup tid = some x) (hfresh : x.state = .pending) (hcursor : x.chunksSent = 0)
  | rests (hstart : restartOf E tid m op = none)
      (hevents : (∀ e ∈ (op.apply E m).2, IsNote e) ∨
        ∃ reason, op = .errored tid reason ∧
          ((op.apply E m).2 = [] ∨ (op.apply E m).2 = [.failed tid reason, .stateChanged tid "failed"]))
      (hrecord : ∀ y, (op.apply E m).1.outbound.lookup tid = some y → ∃ x, m.outbound.lookup tid = some x ∧
        y.chunksSent = x.chunksSent ∧ y.totalChunks = x.totalChunks ∧ y.stalledSince = x.stalledSince ∧
        (y.state = .transferring → x.state = .transferring) ∧ (y.state = .pending → x.state = .pending))

/-- An operation that does not reach the stream. -/
theorem acts_refused {op : SenderOp} (hstart : restartOf E tid m op = none) (h : op.apply E m = (m, [])) : Acts E m tid op :=
  .rests hstart (Or.inl (by simp [h])) fun y hy => ⟨y, by rwa [h] at hy, rfl, rfl, rfl, id, id⟩

/-- **What an operation on the stream does to it.** -/
theorem acts (h : Keyed m) (hfresh : ∀ x, m.outbound.lookup tid = some x → x.state = .pending → x.chunksSent = 0)
    {op : SenderOp} (hturn : isTurn op = true) (hid : opId op = some tid) : Acts E m tid op := by
  cases op with
  | offer peerId relPath p autoPush =>
    obtain rfl : p.transferId = tid := Option.some.inj hid
    have hstart : restartOf E p.transferId m (.offer peerId relPath p autoPush) = some 0 := if_pos rfl
    cases autoPush with
    | true =>
      obtain ⟨x, hkey, hstate, hcursor, hstalled, hpush⟩ := insertPrepared_push E m peerId relPath p
      have happly : (SenderOp.offer peerId relPath p true).apply E m = insertPrepared E m peerId relPath p true := rfl
      rw [hpush] at happly
      exact .pumps x x.totalChunks [.sendMessage peerId .fileTransferOffer (p.frame relPath)] hkey hstate
        (Or.inr (Or.inr ⟨_, _, rfl⟩)) (by rw [happly, AList.lookup_insert]) (by rw [happly]; rfl)
        (Or.inl ⟨hcursor.symm ▸ hstart, hstalled, hcursor.symm ▸ Nat.zero_le _⟩)
    | false =>
      exact .files (p.record E peerId relPath) (Or.inr (Or.inr ⟨_, _, rfl⟩)) hstart (AList.lookup_insert _) rfl rfl
  | accepted id resumeFrom =>
    obtain rfl : id = tid := Option.some.inj hid
    cases hw : offerWasWithdrawn E m id with
    | true =>
      exact acts_refused (by simp [restartOf, hw]) (by simp [SenderOp.apply, onTransferAcceptedFrom, hw])
    | false =>
      cases hx : m.outbound.lookup id with
      | none => exact acts_refused (by simp [restartOf, hx]) (by simp [SenderOp.apply, onTransferAcceptedFrom, hw, hx])
      | some x =>
        by_cases hlate : resumeFrom = none ∧ x.state ≠ .pending
        · refine acts_refused ?_ ?_
          · simp [restartOf, hw, hx, hlate]
          · simp only [SenderOp.apply, onTransferAcceptedFrom, hw, hx, Bool.false_eq_true, if_false, if_pos hlate]
        · have hcursor : (resumeFrom.elim x.chunksSent fun n => min n x.totalChunks) =
              min (resumeFrom.getD 0) x.totalChunks := by
            cases resumeFrom with
            | none =>
              have hpending : x.state = .pending := by
                by_contra hne
                exact hlate ⟨rfl, hne⟩
              simp [hfresh x hx hpending]
            | some n => rfl
          have hstart : restartOf E id m (.accepted id resumeFrom) = some (min (resumeFrom.getD 0) x.totalChunks) := by
            simp only [restartOf, hw, hx, and_self, if_true, Option.bind_some, if_neg hlate]
          have happly : (SenderOp.accepted id resumeFrom).apply E m = onTransferAcceptedFrom E m id resumeFrom := rfl
          unfold onTransferAcceptedFrom at happly
          simp only [hw, hx, Bool.false_eq_true, if_false, if_neg hlate, hcursor] at happly
          by_cases hstream : x.source.isStreaming = true
          · have hstream' : (restarted E { x with chunksSent := min (resumeFrom.getD 0) x.totalChunks }).source.isStreaming = true :=
              hstream
            rw [if_pos hstream'] at happly
            exact .pumps (restarted E { x with chunksSent := min (resumeFrom.getD 0) x.totalChunks }) roomFileChunkBudget [.stateChanged id "transferring"] (h id x hx) rfl (Or.inr (Or.inl rfl))
              (by rw [happly, AList.lookup_insert]) (by rw [happly]; rfl) (Or.inl ⟨hstart, rfl, Nat.min_le_right _ _⟩)
          · have hstream' : ¬(restarted E { x with chunksSent := min (resumeFrom.getD 0) x.totalChunks }).source.isStreaming = true :=
              hstream
            rw [if_neg hstream'] at happly
            exact .pumps (restarted E { x with chunksSent := min (resumeFrom.getD 0) x.totalChunks }) x.totalChunks [.stateChanged id "transferring"] (h id x hx) rfl (Or.inr (Or.inl rfl))
              (by rw [happly, AList.lookup_insert]; rfl) (by rw [happly]; rfl) (Or.inl ⟨hstart, rfl, Nat.min_le_right _ _⟩)
  | start id requester fromChunk budget =>
    obtain rfl : id = tid := Option.some.inj hid
    cases hw : offerWasWithdrawn E m id with
    | true => exact acts_refused (by simp [restartOf, hw]) (by simp [SenderOp.apply, startStreamFrom, hw])
    | false =>
      cases hx : m.outbound.lookup id with
      | none => exact acts_refused (by simp [restartOf, hx]) (by simp [SenderOp.apply, startStreamFrom, hw, hx])
      | some x =>
        have hstart : restartOf E id m (.start id requester fromChunk budget) = some (min fromChunk x.totalChunks) := by
          simp [restartOf, hw, hx]
        have happly : (SenderOp.start id requester fromChunk budget).apply E m =
          startStreamFrom E m id requester fromChunk budget := rfl
        unfold startStreamFrom at happly
        simp only [hw, hx, Bool.false_eq_true, if_false] at happly
        exact .pumps (restarted E { x with chunksSent := min fromChunk x.totalChunks, toPeer := requester }) budget [] (h id x hx) rfl (Or.inl rfl) (by rw [happly, AList.lookup_insert]) (by rw [happly]; rfl)
          (Or.inl ⟨hstart, rfl, Nat.min_le_right _ _⟩)
  | pump id budget =>
    obtain rfl : id = tid := Option.some.inj hid
    have hstart : restartOf E id m (.pump id budget) = none := rfl
    cases hx : m.outbound.lookup id with
    | none => exact acts_refused hstart (by simp [SenderOp.apply, pumpStream, hx])
    | some x =>
      have happly : (SenderOp.pump id budget).apply E m = pumpStream E m id budget := rfl
      by_cases hstate : x.state = .transferring
      · have hpump : pumpStream E m id budget =
            ({ m with outbound := m.outbound.insert id (nextChunkEvents E x budget).1 }, (nextChunkEvents E x budget).2.1) := by
          simp only [pumpStream, hx, if_pos hstate]
        refine .pumps x budget [] (h id x hx) hstate (Or.inl rfl) ?_ ?_ (Or.inr ⟨hstart, hx, rfl, budget, rfl, ?_⟩)
        · rw [happly, hpump, AList.lookup_insert]
        · rw [happly, hpump]
          rfl
        · rw [hpump]
      · exact acts_refused hstart (by simp [SenderOp.apply, pumpStream, hx, hstate])
  | rejected id =>
    obtain rfl : id = tid := Option.some.inj hid
    cases hx : m.outbound.lookup id with
    | none => exact acts_refused rfl (by simp [SenderOp.apply, onTransferRejected, hx])
    | some x =>
      refine .rests rfl (Or.inl ?_) fun y hy => ?_
      · simp [SenderOp.apply, onTransferRejected, hx, IsNote, noTransport]
      · simp only [SenderOp.apply, onTransferRejected, hx, AList.lookup_insert, Option.some.injEq] at hy
        subst hy
        exact ⟨x, hx, rfl, rfl, rfl, by simp, by simp⟩
  | acked id =>
    obtain rfl : id = tid := Option.some.inj hid
    cases hx : m.outbound.lookup id with
    | none => exact acts_refused rfl (by simp [SenderOp.apply, onTransferAck, hx])
    | some x =>
      refine .rests rfl (Or.inl ?_) fun y hy => ?_
      · simp [SenderOp.apply, onTransferAck, hx, IsNote]
      · simp only [SenderOp.apply, onTransferAck, hx, AList.lookup_insert, Option.some.injEq] at hy
        subst hy
        exact ⟨x, hx, rfl, rfl, rfl, by simp, by simp⟩
  | errored id reason =>
    obtain rfl : id = tid := Option.some.inj hid
    cases hx : m.outbound.lookup id with
    | none => exact acts_refused rfl (by simp [SenderOp.apply, onTransferError, hx])
    | some x =>
      refine .rests rfl (Or.inr ⟨reason, rfl, Or.inr ?_⟩) fun y hy => ?_
      · simp [SenderOp.apply, onTransferError, hx]
      · simp only [SenderOp.apply, onTransferError, hx, AList.lookup_insert, Option.some.injEq] at hy
        subst hy
        exact ⟨x, hx, rfl, rfl, rfl, by simp, by simp⟩
  | revoke id =>
    obtain rfl : id = tid := Option.some.inj hid
    refine .rests rfl (Or.inl (by simp [SenderOp.apply])) fun y hy => ?_
    simp only [SenderOp.apply, revokeOutbound] at hy
    split at hy
    · simp at hy
    · exact ⟨y, hy, rfl, rfl, rfl, fun hs => hs, fun hs => hs⟩
  | cancel id =>
    obtain rfl : id = tid := Option.some.inj hid
    cases hx : m.outbound.lookup id with
    | none => exact acts_refused rfl (by simp [SenderOp.apply, cancelOutbound, hx])
    | some x =>
      by_cases hlive : x.state = .pending ∨ x.state = .transferring
      · refine .rests rfl (Or.inl ?_) fun y hy => ?_
        · simp [SenderOp.apply, cancelOutbound, hx, hlive, IsNote, noTransport]
        · simp only [SenderOp.apply, cancelOutbound, hx, if_pos hlive, AList.lookup_insert, Option.some.injEq] at hy
          subst hy
          exact ⟨x, hx, rfl, rfl, rfl, by simp, by simp⟩
      · exact acts_refused rfl (by simp [SenderOp.apply, cancelOutbound, hx, hlive])
  | gc => cases hid
  | unsend _ _ => cases hturn
  | completed _ => cases hturn
  | progressed _ => cases hturn
  | stalled _ => cases hturn

end

/-! ## A turn -/

section

variable {E : Env} {m : FileTransferManager} {tid : String}

/-- Before the first frame of a batch. -/
theorem stage_start (m : FileTransferManager) : Stage E tid m { mgr := m } false 0 0 0 [] :=
  ⟨rfl, rfl, rfl, rfl, rfl, rfl, rfl, by simp⟩

/-- The message of an offer is handed over like any other. -/
theorem Stage.offer {route : Route} {b : Batch} {hold : Bool} {out unsent stalled : Nat} {frames : List Frame}
    (h : Stage E tid m b hold out unsent stalled frames) (peerId : String) (payload : Payload) :
    Stage E tid m (route.one E b (.sendMessage peerId .fileTransferOffer payload)) hold out unsent stalled frames := by
  have hfile : (MessageType.fileTransferOffer == .fileTransferChunk) = false := by decide
  have hfile' : (MessageType.fileTransferOffer == .fileTransferComplete) = false := by decide
  have hroom : (MessageType.sfuFileOffer == .sfuFileChunk) = false := by decide
  have hroom' : (MessageType.sfuFileOffer == .sfuFileComplete) = false := by decide
  cases route with
  | peer =>
    have hpushed := @Stage.handed_push _ _ _ _ _ _ _ _ _ h peerId .fileTransferOffer payload
    simp only [effectFrame, frameOf, ite_self, Option.toList_none, List.append_nil] at hpushed
    simpa [Route.one, Batch.one, Batch.hand, hfile, hfile'] using hpushed
  | room publicId supernodeId roomId =>
    have hpushed := @Stage.handed_push _ _ _ _ _ _ _ _ _ h supernodeId .sfuFileOffer
      (payload ++ [("room_id", .str roomId)] ++ [("origin_id", .str publicId)])
    simp only [effectFrame, frameOf, ite_self, Option.toList_none, List.append_nil] at hpushed
    simpa [Route.one, Batch.oneRoom, Batch.roomType, Batch.hand, hroom, hroom'] using hpushed

/-- What comes before the frames takes none. -/
theorem Stage.prelude {route : Route} {pre : List TransferEvent} (hpre : IsPrelude tid pre) {b : Batch}
    (h : Stage E tid m b false 0 0 0 []) : Stage E tid m (pre.foldl (route.one E) b) false 0 0 0 [] := by
  rcases hpre with rfl | rfl | ⟨peerId, payload, rfl⟩
  · exact h
  · exact (@Stage.note _ _ _ route _ _ _ _ _ _ (.stateChanged tid "transferring") h trivial).1
  · exact h.offer peerId payload

theorem Stage.notes {route : Route} {events : List TransferEvent} (hevents : ∀ e ∈ events, IsNote e) {b : Batch}
    (h : Stage E tid m b false 0 0 0 []) : Stage E tid m (events.foldl (route.one E) b) false 0 0 0 [] := by
  induction events generalizing b with
  | nil => exact h
  | cons e events ih =>
    rw [List.foldl_cons]
    exact ih (fun e' he' => hevents e' (List.mem_cons_of_mem e he')) (h.note (hevents e List.mem_cons_self)).1

/-- What a turn did to the stream. -/
inductive Moved (t : FileTurn) (m : FileTransferManager) (tid : String) : Prop where
  | pumped (x y : OutboundTransfer) (k : Nat) (last : Bool) (sent : Nat) (h : Pumped t.env tid x k last sent (t.carry m) y)
      (hfrom : (restartOf t.env.files tid m t.op = some x.chunksSent ∧ x.stalledSince = none ∧ x.chunksSent ≤ x.totalChunks) ∨
        (restartOf t.env.files tid m t.op = none ∧ m.outbound.lookup tid = some x ∧ x.state = .transferring ∧
          ∃ budget, t.op = .pump tid budget ∧
            sent = t.route.takes t.env 0 (fileFrames tid (pumpStream t.env.files m tid budget).2) ∧
            (fileFrames tid (pumpStream t.env.files m tid budget).2).length = (emitted x.chunksSent k last).length))
  | filed (x : OutboundTransfer) (htaken : takenFrames t.env tid (t.carry m).2 = [])
      (hsilent : Effect.emit (.fileFailed tid noTransport false) ∉ (t.carry m).2)
      (hstart : restartOf t.env.files tid m t.op = some 0) (hlookup : (t.carry m).1.outbound.lookup tid = some x)
      (hfresh : x.state = .pending) (hcursor : x.chunksSent = 0)
  | rested (htaken : takenFrames t.env tid (t.carry m).2 = [])
      (hsilent : (∀ reason, t.op ≠ .errored tid reason) → Effect.emit (.fileFailed tid noTransport false) ∉ (t.carry m).2)
      (hstart : restartOf t.env.files tid m t.op = none)
      (hrecord : ∀ y, (t.carry m).1.outbound.lookup tid = some y → ∃ x, m.outbound.lookup tid = some x ∧
        y.chunksSent = x.chunksSent ∧ y.totalChunks = x.totalChunks ∧ y.stalledSince = x.stalledSince ∧
        (y.state = .transferring → x.state = .transferring) ∧ (y.state = .pending → x.state = .pending))

/-- An operation on another transfer does not restart the stream. -/
theorem restartOf_other {E : FileEnv} {op : SenderOp} (h : opId op ≠ some tid) : restartOf E tid m op = none := by
  cases op <;> simp_all [restartOf, opId]

theorem moved_own (htid : tid ≠ "") (h : Keyed m)
    (hfresh : ∀ x, m.outbound.lookup tid = some x → x.state = .pending → x.chunksSent = 0) {t : FileTurn}
    (hturn : isTurn t.op = true) (hid : opId t.op = some tid) : Moved t m tid := by
  have hcarry : t.carry m = (((t.op.apply t.env.files m).2).foldl (t.route.one t.env)
      { mgr := (t.op.apply t.env.files m).1 }).finish t.env := by
    rw [FileTurn.carry, Route.dispatch_eq]
  have hstart := @stage_start t.env tid (t.op.apply t.env.files m).1
  cases acts (E := t.env.files) h hfresh hturn hid with
  | pumps x budget pre hxid hstate hpre hlookup hevents hfrom =>
    rw [hevents, List.foldl_append] at hcarry
    have hstage := @Stage.prelude _ _ _ t.route _ hpre _ hstart
    obtain ⟨k, last, y, hp, hframes⟩ := @Manager.pumped _ _ t.route _ _ _ budget htid hxid hstate hlookup hstage
    rw [← hcarry] at hp
    refine .pumped x y k last _ hp ?_
    rcases hfrom with hfrom | ⟨hnone, hx, rfl, budget', hop, hpump⟩
    · exact Or.inl hfrom
    · refine Or.inr ⟨hnone, hx, hstate, budget', hop, ?_, ?_⟩
      · rw [← hpump]
        rfl
      · rw [← hpump, ← hframes, List.length_filterMap_eq_countP, fileFrames, List.countP_eq_length_filter]
  | files x hpre hrestart hlookup hpending hcursor =>
    have hstage := @Stage.prelude _ _ _ t.route _ hpre _ hstart
    have hfinish := hstage.finish_all
    rw [← hcarry] at hfinish
    refine .filed x ?_ ?_ hrestart ?_ hpending hcursor
    · rw [hfinish]
      exact hstage.taken
    · rw [hfinish]
      exact hstage.silent
    · rw [hfinish]
      exact hlookup
  | rests hrestart hevents hrecord =>
    rcases hevents with hnotes | ⟨reason, hop, hevents⟩
    · have hstage := @Stage.notes _ _ _ t.route _ hnotes _ hstart
      have hfinish := hstage.finish_all
      rw [← hcarry] at hfinish
      refine .rested ?_ (fun _ => ?_) hrestart ?_
      · rw [hfinish]
        exact hstage.taken
      · rw [hfinish]
        exact hstage.silent
      · rw [hfinish]
        exact hrecord
    · -- A peer's error report may quote any text.
      have hout : (t.carry m).1 = (t.op.apply t.env.files m).1 ∧ takenFrames t.env tid (t.carry m).2 = [] := by
        rw [hcarry]
        rcases hevents with heq | heq <;> rw [heq] <;> cases t.route <;> exact ⟨rfl, rfl⟩
      exact .rested hout.2 (fun hne => absurd hop (hne reason)) hrestart (by rw [hout.1]; exact hrecord)

/-- **What a turn does to a stream.** -/
theorem moved (htid : tid ≠ "") (h : Keyed m)
    (hfresh : ∀ x, m.outbound.lookup tid = some x → x.state = .pending → x.chunksSent = 0) {t : FileTurn}
    (hturn : isTurn t.op = true) : Keyed (t.carry m).1 ∧ Moved t m tid := by
  cases hid : opId t.op with
  | none =>
    have hop : t.op = .gc := by
      cases hop : t.op <;> simp_all [opId]
    have hcarry : t.carry m = ((FileTransferManager.gc t.env.files m {}).mgr, []) := by
      rw [FileTurn.carry, Route.dispatch_eq, hop]
      rfl
    have hrecord : ∀ id y, (FileTransferManager.gc t.env.files m {}).mgr.outbound.lookup id = some y →
        ∃ x, m.outbound.lookup id = some x ∧ y = stampOutbound t.env.files.now x := by
      intro id y hy
      simp only [FileTransferManager.gc] at hy
      rw [lookup_retain, Option.filter_eq_some_iff, lookup_mapValues, Option.map_eq_some_iff] at hy
      obtain ⟨⟨x, hx, rfl⟩, -⟩ := hy
      exact ⟨x, hx, rfl⟩
    rw [hcarry]
    refine ⟨fun id y hy => ?_, .rested ?_ (fun _ => ?_) ?_ fun y hy => ?_⟩
    · obtain ⟨x, hx, rfl⟩ := hrecord id y hy
      rw [← h id x hx]
      unfold stampOutbound
      split <;> rfl
    · rw [hcarry]
      rfl
    · rw [hcarry]
      simp
    · rw [hop]
      rfl
    · rw [hcarry] at hy
      obtain ⟨x, hx, rfl⟩ := hrecord tid y hy
      refine ⟨x, hx, ?_⟩
      unfold stampOutbound
      split <;> exact ⟨rfl, rfl, rfl, fun hs => hs, fun hs => hs⟩
  | some id =>
    obtain ⟨hkeyed, hothers, habout⟩ := apply_about (E := t.env.files) h hturn hid
    obtain ⟨honly, heffects⟩ := @dispatch_about t.env (t.op.apply t.env.files m).1 t.route _ _ habout
    refine ⟨keyed_only hkeyed honly, ?_⟩
    by_cases heq : id = tid
    · subst heq
      exact moved_own htid h hfresh hturn hid
    · refine .rested (takenFrames_of_names (dispatch_names habout) heq) (fun _ hmem => ?_) ?_ fun y hy => ?_
      · exact heq (heffects _ hmem).symm
      · refine restartOf_other ?_
        rw [hid]
        exact fun hsome => heq (Option.some.inj hsome)
      · have hsame : (t.carry m).1.outbound.lookup tid = m.outbound.lookup tid :=
          (honly.outbound tid (Ne.symm heq)).trans (hothers tid (Ne.symm heq))
        exact ⟨y, hsame ▸ hy, rfl, rfl, rfl, fun hs => hs, fun hs => hs⟩

end

end DoubleSlash.Manager
