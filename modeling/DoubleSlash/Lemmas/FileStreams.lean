import DoubleSlash.Lemmas.FileMessages
import DoubleSlash.Manager.FileStreams

/-!
# A batch of a stream, carried out

Of the frames a turn emits, the transport takes the first few: from the first that is refused on, everything waits. What the
loops note at the end makes the stream's record count the chunks that went out, and no others.
-/

namespace DoubleSlash.Manager

open Protocol Assoc Codec Files FileTransferManager

/-! ## What the pump emits -/

/-- Whether a frame is a chunk. -/
def Frame.isChunk : Frame → Bool
  | .chunk _ => true
  | .complete => false

/-- An event that is no message and no failure for want of a transport. -/
def IsNote : TransferEvent → Prop
  | .sendMessage .. => False
  | .failed _ reason => reason ≠ noTransport
  | _ => True

theorem eventFrame_of_note {tid : String} {e : TransferEvent} (h : IsNote e) : eventFrame tid e = none := by
  cases e with
  | sendMessage _ _ _ => cases h
  | _ => rfl

theorem chunkIndexOf_frame (tid : String) (i : Nat) (data : Json) (more : Payload) :
    chunkIndexOf ([("transfer_id", .str tid), ("chunk_index", .int i), ("data", data)] ++ more) = i := by
  simp [chunkIndexOf, Payload.get, List.lookup_cons]

theorem eventFrame_chunkFrame (x : OutboundTransfer) (i : Nat) (chunk : List UInt8) :
    eventFrame x.transferId (chunkFrame x i chunk) = some (.chunk i) := by
  simp [chunkFrame, eventFrame, chunkIndexOf, Payload.strOr, Payload.get, List.lookup_cons, Json.asStr]

theorem eventFrame_completeFrame (x : OutboundTransfer) : eventFrame x.transferId (completeFrame x) = some .complete := by
  simp [completeFrame, eventFrame, Payload.strOr, Payload.get, Json.asStr]

/-- What the loop of the pump emits: the next chunks in order, among notes. -/
structure Emits (E : FileEnv) (x : OutboundTransfer) (out : OutboundTransfer × List TransferEvent × Bool) (k : Nat) : Prop where
  cursor : out.1.chunksSent = x.chunksSent + k
  bound : k = 0 ∨ x.chunksSent + k ≤ x.totalChunks
  record : out.1 = { x with chunksSent := out.1.chunksSent, state := out.1.state, finishedAt := out.1.finishedAt }
  live : out.2.2 = false → out.1.state = x.state
  dead : out.2.2 = true → out.1.state = .failed
  frames : out.2.1.filterMap (eventFrame x.transferId) = (List.range' x.chunksSent k).map .chunk
  events : ∀ e ∈ out.2.1, IsNote e ∨ ∃ i, eventFrame x.transferId e = some (.chunk i)

theorem emits_nextChunks (E : FileEnv) (x : OutboundTransfer) (budget : Nat) : ∃ k, Emits E x (nextChunks E x budget) k := by
  induction budget generalizing x with
  | zero => exact ⟨0, rfl, Or.inl rfl, rfl, fun _ => rfl, by simp [nextChunks], rfl, by simp [nextChunks]⟩
  | succ budget ih =>
    unfold nextChunks
    split
    · rename_i hlt
      split
      · exact ⟨0, rfl, Or.inl rfl, rfl, by simp, fun _ => rfl, rfl, by simp [IsNote, noTransport]⟩
      · rename_i chunk hread
        obtain ⟨k, h⟩ := ih { x with chunksSent := x.chunksSent + 1 }
        have hframe := eventFrame_chunkFrame x x.chunksSent chunk
        refine ⟨k + 1, ?_, Or.inr ?_, ?_, h.live, h.dead, ?_, fun e he => ?_⟩
        · have := h.cursor
          simp only at this ⊢
          omega
        · rcases h.bound with hk | hk
          · omega
          · simp only at hk
            omega
        · have := h.record
          simpa using this
        · simp only [List.cons_append, List.filterMap_cons, hframe, List.filterMap_append]
          rw [h.frames, List.range'_succ, List.map_cons]
          split <;> rfl
        · simp only [List.cons_append, List.mem_cons, List.mem_append] at he
          rcases he with rfl | he | he
          · exact Or.inr ⟨_, hframe⟩
          · split at he
            · rw [List.mem_singleton] at he
              exact Or.inl (he ▸ trivial)
            · cases he
          · exact h.events e he
    · exact ⟨0, rfl, Or.inl rfl, rfl, fun _ => rfl, by simp, rfl, by simp⟩

/-- What the pump emits of a stream that is under way: its next chunks in order and, when they are out, COMPLETE. -/
structure Sends (E : FileEnv) (x : OutboundTransfer) (out : OutboundTransfer × List TransferEvent) (k : Nat) (last : Bool) :
    Prop where
  cursor : out.1.chunksSent = x.chunksSent + k
  bound : k = 0 ∨ x.chunksSent + k ≤ x.totalChunks
  record : out.1 = { x with chunksSent := out.1.chunksSent, state := out.1.state, finishedAt := out.1.finishedAt }
  state : out.1.state = x.state ∨ out.1.state = .failed
  ended : last = true → x.totalChunks ≤ x.chunksSent + k
  events : ∃ evs, out.2 = evs ++ (if last then [completeFrame x] else []) ∧
    evs.filterMap (eventFrame x.transferId) = (List.range' x.chunksSent k).map .chunk ∧
    ∀ e ∈ evs, IsNote e ∨ ∃ i, eventFrame x.transferId e = some (.chunk i)

theorem sends_nextChunkEvents (E : FileEnv) (x : OutboundTransfer) (budget : Nat) :
    ∃ k last, Sends E x ((nextChunkEvents E x budget).1, (nextChunkEvents E x budget).2.1) k last := by
  obtain ⟨k, h⟩ := emits_nextChunks E x budget
  have hstate : (nextChunks E x budget).1.state = x.state ∨ (nextChunks E x budget).1.state = .failed := by
    cases hdead : (nextChunks E x budget).2.2 with
    | false => exact Or.inl (h.live hdead)
    | true => exact Or.inr (h.dead hdead)
  unfold nextChunkEvents
  simp only
  split
  · exact ⟨k, false, h.cursor, h.bound, h.record, hstate, nofun, _, by simp, h.frames, h.events⟩
  split
  · rename_i hend
    have htotal : (nextChunks E x budget).1.totalChunks = x.totalChunks := by rw [h.record]
    have hframe : completeFrame (nextChunks E x budget).1 = completeFrame x := by
      rw [h.record]
      rfl
    rw [htotal, h.cursor] at hend
    refine ⟨k, true, h.cursor, h.bound, h.record, hstate, fun _ => hend, _, ?_, h.frames, h.events⟩
    simp [hframe]
  · exact ⟨k, false, h.cursor, h.bound, h.record, hstate, nofun, _, by simp, h.frames, h.events⟩

/-! ## What a transport took -/

theorem taken_append (E : Env) (effects : List Effect) (e : Effect) :
    taken E (effects ++ [e]) =
      taken E effects ++ if e.isSend ∧ E.sent (effects.filter Effect.isSend).length then [e] else [] := by
  cases hsend : e.isSend with
  | false => simp [taken, List.filter_append, hsend]
  | true =>
    cases hsent : E.sent (effects.filter Effect.isSend).length with
    | false => simp [taken, List.filter_append, hsend, List.zipIdx_append, hsent]
    | true => simp [taken, List.filter_append, hsend, List.zipIdx_append, hsent]

theorem takenFrames_append (E : Env) (tid : String) (effects : List Effect) (e : Effect) :
    takenFrames E tid (effects ++ [e]) =
      takenFrames E tid effects ++
        if E.sent (effects.filter Effect.isSend).length then (effectFrame tid e).toList else [] := by
  have hsend : e.isSend = false → effectFrame tid e = none := by
    cases e <;> simp [Effect.isSend, effectFrame]
  rw [takenFrames, taken_append, List.filterMap_append]
  cases he : e.isSend with
  | false => simp [hsend he, takenFrames]
  | true =>
    cases hsent : E.sent (effects.filter Effect.isSend).length with
    | false => simp [takenFrames]
    | true => cases hf : effectFrame tid e <;> simp [takenFrames, hf]

/-- Sealing a chunk changes its data only. -/
theorem get_sealed {E : Env} {roomId tid : String} {payload payload' : Payload} (h : Batch.sealed E roomId tid payload = some payload')
    {key : String} (hdata : key ≠ "data") (he2e : key ≠ "e2e") (hepoch : key ≠ "epoch") : payload'.get key = payload.get key := by
  have hfilter : Payload.get (payload.filter fun f => f.1 ≠ "data") key = payload.get key := by
    clear h
    induction payload with
    | nil => rfl
    | cons f payload ih =>
      simp only [Payload.get] at ih ⊢
      rw [List.filter_cons]
      by_cases hf : f.1 = "data"
      · have hne : (key == f.1) = false := by
          rw [hf]
          exact beq_false_of_ne hdata
        rw [if_neg (by simp [hf]), ih]
        obtain ⟨name, value⟩ := f
        rw [List.lookup_cons, hne]
      · rw [if_pos (by simp [hf])]
        obtain ⟨name, value⟩ := f
        rw [List.lookup_cons, List.lookup_cons, ih]
  unfold Batch.sealed at h
  split at h
  · rw [Option.some.inj h]
  · obtain ⟨⟨epoch, bytes⟩, -, rfl⟩ := Option.map_eq_some_iff.mp h
    have hrest : Payload.get [("data", .str (b64Encode bytes)), ("e2e", .bool true), ("epoch", .int epoch)] key = none := by
      simp [Payload.get, List.lookup_cons, beq_false_of_ne hdata, beq_false_of_ne he2e, beq_false_of_ne hepoch]
    rw [← hfilter]
    simp only [Payload.get] at hrest ⊢
    rw [List.lookup_append, hrest, Option.or_none]

/-- A further field changes none of the others. -/
theorem get_concat (payload : Payload) {key name : String} (value : Json) (h : key ≠ name) :
    Payload.get (payload ++ [(name, value)]) key = payload.get key := by
  simp [Payload.get, List.lookup_append, List.lookup_cons, beq_false_of_ne h]

/-! ## Carrying out one event -/

theorem effectFrame_congr {tid target target' : String} {ty : MessageType} {payload payload' : Payload}
    (hid : payload'.get "transfer_id" = payload.get "transfer_id")
    (hindex : payload'.get "chunk_index" = payload.get "chunk_index") :
    effectFrame tid (.send target' ty payload') = effectFrame tid (.send target ty payload) := by
  have hname : payload'.strOr "transfer_id" "" = payload.strOr "transfer_id" "" := by rw [Payload.strOr, Payload.strOr, hid]
  have hnumber : chunkIndexOf payload' = chunkIndexOf payload := by rw [chunkIndexOf, chunkIndexOf, hindex]
  have hframe : frameOf ty payload' = frameOf ty payload := by cases ty <;> simp [frameOf, hnumber]
  rw [effectFrame, effectFrame, hname, hframe]

/-- A note does not go to the transport. -/
theorem one_note {E : Env} {route : Route} {b : Batch} {e : TransferEvent} (h : IsNote e) :
    route.one E b e = b ∨ ∃ effect, route.one E b e = b.push effect ∧ effect.isSend = false ∧
      ∀ tid, effect ≠ .emit (.fileFailed tid noTransport false) := by
  cases e with
  | sendMessage _ _ _ => cases h
  | stateChanged _ _ => cases route <;> exact Or.inl rfl
  | failed id reason =>
    have hne : ∀ tid, Effect.emit (.fileFailed id reason false) ≠ .emit (.fileFailed tid noTransport false) := by
      intro tid heq
      injection heq with heq
      injection heq with _ hreason
      exact h hreason
    cases route <;> exact Or.inr ⟨_, rfl, rfl, hne⟩
  | _ => cases route <;> exact Or.inr ⟨_, rfl, rfl, fun _ => nofun⟩

/-- A frame waits behind a refused one, cannot be sealed, or is handed over as the frame it is. -/
theorem one_frame {E : Env} (route : Route) (b : Batch) {tid : String} {e : TransferEvent} {f : Frame}
    (hf : eventFrame tid e = some f) :
    (b.hold = true → route.one E b e = b.miss tid f.isChunk) ∧
      (b.hold = false → route.ready E e = false → f.isChunk = true ∧ route.one E b e = b.missChunk tid) ∧
      (b.hold = false → route.ready E e = true → ∃ target ty payload, effectFrame tid (.send target ty payload) = some f ∧
        route.one E b e = b.hand E target ty payload tid f.isChunk (!f.isChunk)) := by
  have hfile : (MessageType.fileTransferChunk == .fileTransferComplete) = false := by decide
  have hfile' : (MessageType.fileTransferComplete == .fileTransferChunk) = false := by decide
  have hroom : (MessageType.sfuFileChunk == .sfuFileComplete) = false := by decide
  have hroom' : (MessageType.sfuFileComplete == .sfuFileChunk) = false := by decide
  unfold eventFrame at hf
  split at hf
  · rename_i peerId payload
    obtain ⟨rfl, hframe⟩ := Option.ite_none_right_eq_some.mp hf
    obtain rfl := Option.some.inj hframe
    cases route with
    | peer =>
      refine ⟨fun hhold => ?_, (fun _ hready => by cases hready), fun hhold _ => ?_⟩
      · simp [Route.one, Batch.one, hhold, Frame.isChunk, hfile]
      · refine ⟨peerId, .fileTransferChunk, payload, by simp [effectFrame, frameOf], ?_⟩
        simp [Route.one, Batch.one, hhold, Frame.isChunk, hfile]
    | room publicId supernodeId roomId =>
      refine ⟨fun hhold => ?_, fun hhold hready => ?_, fun hhold hready => ?_⟩
      · simp [Route.one, Batch.oneRoom, Batch.roomType, hhold, Frame.isChunk, hroom]
      · refine ⟨rfl, ?_⟩
        have hsealed := Option.not_isSome_iff_eq_none.mp (Bool.eq_false_iff.mp hready)
        simp [Route.one, Batch.oneRoom, Batch.roomType, hhold, hsealed]
      · obtain ⟨payload', hsealed⟩ := Option.isSome_iff_exists.mp hready
        refine ⟨supernodeId, .sfuFileChunk, payload', ?_, ?_⟩
        · have hget : ∀ key, key ≠ "data" → key ≠ "e2e" → key ≠ "epoch" → key ≠ "room_id" →
              payload'.get key = payload.get key := by
            intro key h1 h2 h3 h4
            rw [get_sealed hsealed h1 h2 h3, get_concat payload _ h4]
          rw [@effectFrame_congr _ supernodeId _ _ payload _
            (hget "transfer_id" (by decide) (by decide) (by decide) (by decide))
            (hget "chunk_index" (by decide) (by decide) (by decide) (by decide))]
          simp [effectFrame, frameOf]
        · simp [Route.one, Batch.oneRoom, Batch.roomType, hhold, Frame.isChunk, hsealed, hroom]
  · rename_i peerId payload
    obtain ⟨rfl, hframe⟩ := Option.ite_none_right_eq_some.mp hf
    obtain rfl := Option.some.inj hframe
    cases route with
    | peer =>
      refine ⟨fun hhold => ?_, (fun _ hready => by cases hready), fun hhold _ => ?_⟩
      · simp [Route.one, Batch.one, hhold, Frame.isChunk, hfile']
      · refine ⟨peerId, .fileTransferComplete, payload, by simp [effectFrame, frameOf], ?_⟩
        simp [Route.one, Batch.one, hhold, Frame.isChunk, hfile']
    | room publicId supernodeId roomId =>
      refine ⟨fun hhold => ?_, (fun _ hready => by cases hready), fun hhold _ => ?_⟩
      · simp [Route.one, Batch.oneRoom, Batch.roomType, hhold, Frame.isChunk, hroom']
      · refine ⟨supernodeId, .sfuFileComplete, payload ++ [("room_id", .str roomId)], ?_, ?_⟩
        · rw [@effectFrame_congr _ supernodeId _ _ payload _ (get_concat payload _ (by decide))
            (get_concat payload _ (by decide))]
          simp [effectFrame, frameOf]
        · simp [Route.one, Batch.oneRoom, Batch.roomType, hhold, Frame.isChunk, hroom']
  · cases hf

/-! ## Carrying out a batch -/

/-- How far a batch of the stream has come: so many chunks out, so many chunks and frames back, and what was taken. -/
structure Stage (E : Env) (tid : String) (m : FileTransferManager) (b : Batch) (hold : Bool) (out unsent stalled : Nat)
    (frames : List Frame) : Prop where
  mgr : b.mgr = m
  hold : b.hold = hold
  unsent : b.unsent = List.replicate unsent tid
  stalled : b.stalled = List.replicate stalled tid
  progressed : b.progressed = List.replicate out tid
  handed : b.handed = (b.effects.filter Effect.isSend).length
  taken : takenFrames E tid b.effects = frames
  silent : Effect.emit (.fileFailed tid noTransport false) ∉ b.effects

section

variable {E : Env} {tid : String} {m : FileTransferManager} {route : Route} {b : Batch} {out unsent stalled : Nat}
  {frames : List Frame}

theorem Stage.note {hold : Bool} {e : TransferEvent} (h : Stage E tid m b hold out unsent stalled frames) (he : IsNote e) :
    Stage E tid m (route.one E b e) hold out unsent stalled frames ∧ (route.one E b e).handed = b.handed := by
  rcases @one_note E route b e he with heq | ⟨effect, heq, hsend, hne⟩
  · rw [heq]
    exact ⟨h, rfl⟩
  · rw [heq]
    refine ⟨{ h with handed := ?_, taken := ?_, silent := ?_ }, rfl⟩
    · simp only [Batch.push, List.filter_append, List.filter_singleton, hsend]
      simpa using h.handed
    · have hframe : effectFrame tid effect = none := by
        cases effect <;> simp_all [Effect.isSend, effectFrame]
      rw [Batch.push, takenFrames_append, hframe]
      simpa using h.taken
    · simp only [Batch.push, List.mem_append, List.mem_singleton, not_or]
      exact ⟨h.silent, (hne tid).symm⟩

/-- A frame that waits. -/
theorem Stage.miss (htid : tid ≠ "") {hold : Bool} (h : Stage E tid m b hold out unsent stalled frames) (isChunk : Bool) :
    Stage E tid m (b.miss tid isChunk) hold out (unsent + isChunk.toNat) (stalled + 1) frames := by
  rw [Batch.miss, if_neg htid]
  refine { h with unsent := ?_, stalled := ?_ }
  · cases isChunk with
    | false => exact h.unsent
    | true => exact (congrArg (· ++ [tid]) h.unsent).trans List.replicate_succ'.symm
  · exact (congrArg (· ++ [tid]) h.stalled).trans List.replicate_succ'.symm

/-- A message was handed over. -/
theorem Stage.handed_push {hold : Bool} (h : Stage E tid m b hold out unsent stalled frames) {target : String} {ty : MessageType}
    {payload : Payload} :
    Stage E tid m { b.push (.send target ty payload) with handed := b.handed + 1 } hold out unsent stalled
      (frames ++ if E.sent b.handed then (effectFrame tid (.send target ty payload)).toList else []) where
  mgr := h.mgr
  hold := h.hold
  unsent := h.unsent
  stalled := h.stalled
  progressed := h.progressed
  handed := by
    simp only [Batch.push, List.filter_append, List.length_append, h.handed]
    rfl
  taken := by
    simp only [Batch.push]
    rw [takenFrames_append, h.taken, h.handed]
  silent := by simpa [Batch.push] using h.silent

/-- A chunk goes out, or is the first that does not. -/
theorem Stage.chunk (htid : tid ≠ "") {e : TransferEvent} {i : Nat} (he : eventFrame tid e = some (.chunk i))
    (h : Stage E tid m b false out 0 0 frames) :
    if route.ready E e && E.sent b.handed then
      Stage E tid m (route.one E b e) false (out + 1) 0 0 (frames ++ [.chunk i]) ∧ (route.one E b e).handed = b.handed + 1
    else Stage E tid m (route.one E b e) true out 1 1 frames := by
  obtain ⟨-, hblocked, hgoes⟩ := one_frame (E := E) route b he
  cases hready : route.ready E e with
  | false =>
    obtain ⟨-, heq⟩ := hblocked h.hold hready
    rw [heq]
    exact { h.miss htid true with hold := rfl }
  | true =>
    obtain ⟨target, ty, payload, hframe, heq⟩ := hgoes h.hold hready
    have hpushed := @Stage.handed_push _ _ _ _ _ _ _ _ _ h target ty payload
    rw [heq, Batch.hand]
    cases hsent : E.sent b.handed with
    | false =>
      simp only [hsent, Bool.false_eq_true, if_false, List.append_nil] at hpushed
      simp only [Frame.isChunk, if_true, Bool.false_eq_true, if_false, Bool.and_false]
      exact { hpushed.miss htid true with hold := rfl }
    | true =>
      simp only [hsent, if_true, hframe, Option.toList_some] at hpushed
      simp only [Frame.isChunk, if_true, if_neg htid, Bool.and_self]
      refine ⟨{ hpushed with progressed := ?_ }, trivial⟩
      exact (congrArg (· ++ [tid]) hpushed.progressed).trans List.replicate_succ'.symm

/-- Behind a chunk that did not go out, everything waits. -/
theorem Stage.held (htid : tid ≠ "") {evs : List TransferEvent}
    (hevs : ∀ e ∈ evs, IsNote e ∨ ∃ i, eventFrame tid e = some (.chunk i))
    (h : Stage E tid m b true out unsent unsent frames) :
    Stage E tid m (evs.foldl (route.one E) b) true out (unsent + (evs.filterMap (eventFrame tid)).length)
      (unsent + (evs.filterMap (eventFrame tid)).length) frames := by
  induction evs generalizing b unsent with
  | nil => exact h
  | cons e evs ih =>
    have hrest : ∀ e' ∈ evs, IsNote e' ∨ ∃ i, eventFrame tid e' = some (.chunk i) :=
      fun e' he' => hevs e' (List.mem_cons_of_mem e he')
    rw [List.foldl_cons, List.filterMap_cons]
    rcases hevs e List.mem_cons_self with he | ⟨i, he⟩
    · rw [eventFrame_of_note he]
      exact ih hrest (h.note he).1
    · rw [he]
      have hmiss : Stage E tid m (route.one E b e) true out (unsent + 1) (unsent + 1) frames := by
        rw [(one_frame (E := E) route b he).1 h.hold]
        exact h.miss htid true
      have hall := ih hrest hmiss
      simp only [List.length_cons]
      rwa [Nat.add_comm _ 1, ← Nat.add_assoc]

/-- Up to the first chunk that does not go out, all go out. -/
theorem Stage.chunks (htid : tid ≠ "") {evs : List TransferEvent}
    (hevs : ∀ e ∈ evs, IsNote e ∨ ∃ i, eventFrame tid e = some (.chunk i)) (h : Stage E tid m b false out 0 0 frames) :
    (route.takes E b.handed (fileFrames tid evs) = (fileFrames tid evs).length ∧
        Stage E tid m (evs.foldl (route.one E) b) false (out + (fileFrames tid evs).length) 0 0
          (frames ++ evs.filterMap (eventFrame tid)) ∧
        (evs.foldl (route.one E) b).handed = b.handed + (fileFrames tid evs).length) ∨
      ∃ k, route.takes E b.handed (fileFrames tid evs) = k ∧ k < (fileFrames tid evs).length ∧
        Stage E tid m (evs.foldl (route.one E) b) true (out + k) ((fileFrames tid evs).length - k)
          ((fileFrames tid evs).length - k) (frames ++ (evs.filterMap (eventFrame tid)).take k) := by
  induction evs generalizing b out frames with
  | nil => exact Or.inl ⟨rfl, by simpa [fileFrames] using h, rfl⟩
  | cons e evs ih =>
    have hrest : ∀ e' ∈ evs, IsNote e' ∨ ∃ i, eventFrame tid e' = some (.chunk i) :=
      fun e' he' => hevs e' (List.mem_cons_of_mem e he')
    rcases hevs e List.mem_cons_self with he | ⟨i, he⟩
    · obtain ⟨hnote, hhanded⟩ := @Stage.note _ _ _ route _ _ _ _ _ _ _ h he
      have hnone := @eventFrame_of_note tid _ he
      have hframes : fileFrames tid (e :: evs) = fileFrames tid evs := by simp [fileFrames, hnone]
      rw [hframes, List.foldl_cons, List.filterMap_cons, hnone, ← hhanded]
      exact ih hrest hnote
    · have hframes : fileFrames tid (e :: evs) = e :: fileFrames tid evs := by simp [fileFrames, he]
      rw [hframes, List.foldl_cons, List.filterMap_cons, he, Route.takes, List.length_cons]
      have hstep := @Stage.chunk _ _ _ route _ _ _ htid _ _ he h
      split at hstep
      · rename_i hgoes
        obtain ⟨hgo, hhanded⟩ := hstep
        rw [if_pos hgoes, ← hhanded]
        rcases ih hrest hgo with ⟨htakes, hstage, hmore⟩ | ⟨k, htakes, hlt, hstage⟩
        · refine Or.inl ⟨by rw [htakes], ?_, ?_⟩
          · rwa [List.append_assoc, List.singleton_append, Nat.add_assoc, Nat.add_comm 1] at hstage
          · rw [hmore, hhanded]
            omega
        · refine Or.inr ⟨k + 1, by rw [htakes], by omega, ?_⟩
          have hcount : (fileFrames tid evs).length + 1 - (k + 1) = (fileFrames tid evs).length - k := by omega
          rw [hcount, List.take_succ_cons]
          rwa [List.append_assoc, List.singleton_append, Nat.add_assoc, Nat.add_comm 1] at hstage
      · rename_i hstops
        have hlen : (evs.filterMap (eventFrame tid)).length = (fileFrames tid evs).length := by
          rw [List.length_filterMap_eq_countP, fileFrames, List.countP_eq_length_filter]
        have hheld := @Stage.held _ _ _ route _ _ _ _ htid _ hrest hstep
        rw [if_neg hstops]
        refine Or.inr ⟨0, rfl, by omega, ?_⟩
        rw [hlen] at hheld
        simpa [Nat.add_comm] using hheld

/-- COMPLETE goes out behind the last chunk, or waits. -/
theorem Stage.complete (htid : tid ≠ "") {e : TransferEvent} (he : eventFrame tid e = some .complete)
    (h : Stage E tid m b false out 0 0 frames) :
    if route.ready E e && E.sent b.handed then
      Stage E tid (markOutboundComplete E.files m tid) (route.one E b e) false out 0 0 (frames ++ [.complete])
    else Stage E tid m (route.one E b e) false out 0 1 frames := by
  obtain ⟨-, hblocked, hgoes⟩ := one_frame (E := E) route b he
  cases hready : route.ready E e with
  | false => exact absurd (hblocked h.hold hready).1 (by simp [Frame.isChunk])
  | true =>
    obtain ⟨target, ty, payload, hframe, heq⟩ := hgoes h.hold hready
    have hpushed := @Stage.handed_push _ _ _ _ _ _ _ _ _ h target ty payload
    rw [heq, Batch.hand]
    cases hsent : E.sent b.handed with
    | false =>
      simp only [hsent, Bool.false_eq_true, if_false, List.append_nil] at hpushed
      simp only [Frame.isChunk, Bool.false_eq_true, if_false, Bool.and_false, Bool.not_false, if_true]
      exact hpushed.miss htid false
    | true =>
      simp only [hsent, if_true, hframe, Option.toList_some] at hpushed
      simp only [Frame.isChunk, Bool.false_eq_true, if_false, Bool.and_self, Bool.not_false, if_true]
      exact { hpushed with mgr := congrArg (markOutboundComplete E.files · tid) hpushed.mgr }

/-- Counting what goes out of a batch with one more frame at its end. -/
theorem takes_concat (n : Nat) (evs : List TransferEvent) (e : TransferEvent) :
    route.takes E n (evs ++ [e]) =
      if route.takes E n evs = evs.length then
        evs.length + (if route.ready E e && E.sent (n + evs.length) then 1 else 0)
      else route.takes E n evs := by
  induction evs generalizing n with
  | nil => simp [Route.takes]
  | cons e' evs ih =>
    rw [List.cons_append, Route.takes, Route.takes, List.length_cons, ih]
    cases hgoes : route.ready E e' && E.sent n with
    | false => simp
    | true =>
      simp only [if_true, Nat.add_right_cancel_iff]
      split
      · rw [Nat.add_right_comm, Nat.add_assoc n 1, Nat.add_comm 1]
      · rfl

/-- **A batch of the stream.** All of its frames go out, or the first so many. -/
theorem Stage.batch (htid : tid ≠ "") {evs : List TransferEvent} {c : TransferEvent} {k : Nat} (last : Bool)
    (hevs : ∀ e ∈ evs, IsNote e ∨ ∃ i, eventFrame tid e = some (.chunk i)) (hk : (fileFrames tid evs).length = k)
    (hc : eventFrame tid c = some .complete) (h : Stage E tid m b false 0 0 0 []) :
    let events := evs ++ if last then [c] else []
    let sent := route.takes E b.handed (fileFrames tid events)
    let data := events.filterMap (eventFrame tid)
    (sent = data.length ∧
        Stage E tid (if last then markOutboundComplete E.files m tid else m) (events.foldl (route.one E) b) false k 0 0 data) ∨
      (sent < data.length ∧ sent ≤ k ∧ ∃ hold,
        Stage E tid m (events.foldl (route.one E) b) hold sent (k - sent) (data.length - sent) (data.take sent)) := by
  have hlen : (evs.filterMap (eventFrame tid)).length = k := by
    rw [← hk, List.length_filterMap_eq_countP, fileFrames, List.countP_eq_length_filter]
  simp only
  have hchunks := @Stage.chunks _ _ _ route _ _ _ htid _ hevs h
  rw [hk] at hchunks
  simp only [Nat.zero_add, List.nil_append] at hchunks
  cases last with
  | false =>
    simp only [Bool.false_eq_true, if_false, List.append_nil, hlen]
    rcases hchunks with ⟨htakes, hstage, -⟩ | ⟨n, htakes, hlt, hstage⟩
    · exact Or.inl ⟨htakes, hstage⟩
    · rw [htakes]
      exact Or.inr ⟨hlt, Nat.le_of_lt hlt, true, hstage⟩
  | true =>
    have hframes : fileFrames tid (evs ++ [c]) = fileFrames tid evs ++ [c] := by simp [fileFrames, List.filter_append, hc]
    have hdata : (evs ++ [c]).filterMap (eventFrame tid) = evs.filterMap (eventFrame tid) ++ [.complete] := by
      simp [List.filterMap_append, hc]
    simp only [if_true, hframes, hdata, takes_concat, hk, List.length_append, hlen, List.length_singleton, List.foldl_append,
      List.foldl_cons, List.foldl_nil]
    rcases hchunks with ⟨htakes, hstage, hhanded⟩ | ⟨n, htakes, hlt, hstage⟩
    · rw [if_pos htakes, ← hhanded]
      have hend := @Stage.complete _ _ _ route _ _ _ htid _ hc hstage
      split at hend
      · rename_i hgoes
        rw [if_pos hgoes]
        exact Or.inl ⟨rfl, hend⟩
      · rename_i hwaits
        rw [if_neg hwaits]
        refine Or.inr ⟨by omega, by omega, false, ?_⟩
        simpa [← hlen] using hend
    · have hne : ¬n = k := by omega
      rw [htakes, if_neg hne]
      refine Or.inr ⟨by omega, by omega, true, ?_⟩
      have hmiss := hstage.miss htid Frame.complete.isChunk
      rw [← (one_frame (E := E) route _ hc).1 hstage.hold] at hmiss
      have hcount : k + 1 - n = k - n + 1 := by omega
      rw [hcount, List.take_append_of_le_length (by omega)]
      exact hmiss

/-! ## What is noted at the end -/

theorem Stage.finish_all {hold : Bool} (h : Stage E tid m b hold out 0 0 frames) :
    b.finish E = (if out = 0 then m else noteSendProgress E.files m tid, b.effects) := by
  unfold Batch.finish
  simp only [h.unsent, h.stalled, h.progressed, h.mgr, List.replicate_zero, List.dedup_nil, List.foldl_nil]
  split
  · rename_i hout
    simp [hout]
  · rename_i hout
    simp [List.replicate_dedup hout]

theorem Stage.finish_some {hold : Bool} (h : Stage E tid m b hold out unsent stalled frames) (hstalled : stalled ≠ 0) :
    b.finish E = Batch.noteStall E (if unsent = 0 then m else unsendChunks m tid unsent, b.effects) tid := by
  have hprogressed : (b.progressed.dedup.filter fun id => decide (id ∉ b.stalled)) = [] := by
    rw [List.filter_eq_nil_iff]
    intro id hid
    rw [h.progressed] at hid
    obtain rfl := List.eq_of_mem_replicate (List.mem_dedup.mp hid)
    simp [h.stalled, hstalled]
  unfold Batch.finish
  rw [hprogressed]
  simp only [h.unsent, h.stalled, h.mgr, List.foldl_nil, List.replicate_dedup hstalled, List.foldl_cons]
  congr 1
  split
  · rename_i hunsent
    simp [hunsent]
  · rename_i hunsent
    simp [List.replicate_dedup hunsent]

end

end DoubleSlash.Manager
