import DoubleSlash.Files.Outbound

/-!
# Inbound transfers

The receiving half of `FileTransferManager`: an offer opens a record (and, for a large file, a `.part` file), chunks fill it in
any order, and once all are in and COMPLETE has come the payload is decoded and verified. A streamed file is hashed off the loop
(`HashFile`) and published when the hash comes back (`on_file_hashed`).
-/

namespace DoubleSlash.Files

open Protocol Assoc Codec Text Fs

/-- `&text[..upTo]` as text, for a message that quotes it. -/
def prefixText (text : String) (upTo : Nat) : String := String.ofList ((sliceTo text.toList upTo).getD [])

/-- The writer of a `.part` file is dropped. -/
def TransferSink.close : TransferSink → TransferSink
  | .memory chunks => .memory chunks
  | .partFile _ path received count => .partFile none path received count

/-- `open_part_file`. -/
def openPartFile (E : FileEnv) (st : Storage) (relPath tid : String) : Storage × Option (Nat × Path) :=
  let path := partPath E.os E.downloadDir relPath tid
  if E.faults.fails .createDir E.downloadDir then (st, none)
  else if E.faults.fails .create path then ({ st with journal := st.journal ++ [.create path] }, none)
  else
    let opened := st.disk.openTruncate (resolve path)
    ({ disk := opened.1, journal := st.journal ++ [.create path] }, some (opened.2, path))

/-- `promote_part_file`. -/
def promotePartFile (E : FileEnv) (st : Storage) (part : Path) (relPath : String) : Storage × Option Path :=
  let dest := uniqueDestPath E.os st.exists (parent part) (safeFileName relPath)
  let journal := st.journal ++ [.renameTo dest]
  if E.faults.fails .rename dest ∨ st.exists part = false then ({ st with journal := journal }, none)
  else ({ disk := st.disk.rename (resolve part) (resolve dest), journal := journal }, some dest)

namespace FileTransferManager

/-- The frame that refuses an offer. -/
def refuse (o : Offer) (reason : String) : TransferEvent :=
  .sendMessage o.peerId .fileTransferReject [("transfer_id", .str o.transferId), ("reason", .str reason)]

/-- File a new record, over any record of that id, and tell the application. -/
def file (E : FileEnv) (m : FileTransferManager) (st : Storage) (o : Offer) (sink : TransferSink) : Outcome where
  mgr := { m with inbound := m.inbound.insert o.transferId (.new E.now o sink) }
  storage := st
  events := .offered o.transferId o.peerId o.relPath o.size o.purpose ::
    if o.purpose = "update" then [.sendMessage o.peerId .fileTransferAccept [("transfer_id", .str o.transferId)]] else []

/-- `on_offer_received_with_room`. -/
def onOfferReceived (E : FileEnv) (m : FileTransferManager) (st : Storage) (o : Offer) : Outcome :=
  if maxTransferSize < o.size then ⟨m, st, [refuse o "file_too_large"]⟩
  else if o.totalChunks = 0 ∨ chunkCount o.size + 1 < o.totalChunks then ⟨m, st, [refuse o "invalid_chunk_count"]⟩
  else if inlineMax < o.size ∧ o.compressed = false ∧ o.isDelta = false then
    match openPartFile E st o.relPath o.transferId with
    | (st, some (file_, path)) =>
      file E m st o (.partFile (some file_) path (List.replicate o.totalChunks false) 0)
    | (st, none) => ⟨m, st, [refuse o "storage_unavailable"]⟩
  else if inlineMax < o.size then ⟨m, st, [refuse o "file_too_large"]⟩
  else file E m st o (.memory ∅)

/-- `accept_transfer`. -/
def acceptTransfer (E : FileEnv) (m : FileTransferManager) (st : Storage) (tid : String) : Outcome :=
  match m.inbound.lookup tid with
  | none => ⟨m, st, []⟩
  | some x =>
    if x.state = .pending then
      { mgr := { m with
          inbound := m.inbound.insert tid
            { x with state := .transferring, lastProgressAt := E.now, pullRequestedAt := some E.now } }
        storage := st
        events := [.stateChanged tid "transferring", .sendMessage x.peerId .fileTransferAccept [("transfer_id", .str tid)]] }
    else ⟨m, st, []⟩

/-- `accept_transfer_locally`. -/
def acceptTransferLocally (E : FileEnv) (m : FileTransferManager) (st : Storage) (tid : String) : Outcome :=
  match m.inbound.lookup tid with
  | none => ⟨m, st, []⟩
  | some x =>
    if x.state = .pending then
      { mgr := { m with
          inbound := m.inbound.insert tid
            { x with state := .transferring, pullRequestedAt := some E.now, lastProgressAt := E.now } }
        storage := st
        events := [.stateChanged tid "transferring"] }
    else ⟨m, st, []⟩

/-- `reject_transfer`. -/
def rejectTransfer (m : FileTransferManager) (st : Storage) (tid reason : String) : Outcome :=
  match m.inbound.lookup tid with
  | none => ⟨m, st, []⟩
  | some x =>
    { mgr := { m with inbound := m.inbound.insert tid { x with state := .rejected } }
      storage := st
      events := [.stateChanged tid "rejected",
        .sendMessage x.peerId .fileTransferReject [("transfer_id", .str tid), ("reason", .str reason)]] }

/-- The outbound half of `cancel_transfer`. -/
def cancelOutbound (m : FileTransferManager) (st : Storage) (tid : String) : Outcome :=
  match m.outbound.lookup tid with
  | none => ⟨m, st, []⟩
  | some x =>
    if x.state = .pending ∨ x.state = .transferring then
      ⟨{ m with outbound := m.outbound.insert tid { x with state := .cancelled } }, st,
        [.failed tid "cancelled", .stateChanged tid "cancelled"]⟩
    else ⟨m, st, []⟩

/-- `cancel_transfer`. -/
def cancelTransfer (m : FileTransferManager) (st : Storage) (tid : String) : Outcome :=
  match m.inbound.lookup tid with
  | none => cancelOutbound m st tid
  | some x =>
    match x.state with
    | .pending => rejectTransfer m st tid "cancelled"
    | .transferring | .verifying =>
      ⟨{ m with inbound := m.inbound.insert tid { x with state := .cancelled } }, st,
        [.failed tid "cancelled", .stateChanged tid "cancelled",
          .sendMessage x.peerId .fileTransferError [("transfer_id", .str tid), ("reason", .str "cancelled")]]⟩
    | _ => cancelOutbound m st tid

/-- `discard_inbound`. -/
def discardInbound (E : FileEnv) (m : FileTransferManager) (st : Storage) (tid : String) : Outcome :=
  match m.inbound.lookup tid with
  | none => ⟨m, st, []⟩
  | some x =>
    { mgr := { m with inbound := m.inbound.erase tid }
      storage := (x.sink.partPath?).elim st (st.removeFile E)
      events := [] }

/-- `fail_inbound`. -/
def failInbound (E : FileEnv) (m : FileTransferManager) (st : Storage) (tid reason : String) : Outcome :=
  match m.inbound.lookup tid with
  | none => ⟨m, st, []⟩
  | some x =>
    { mgr := { m with
        inbound := m.inbound.insert tid
          { x with state := .failed, resumable := false, finishedAt := some E.now, sink := x.sink.close } }
      storage := (x.sink.partPath?).elim st fun path => if st.exists path then st.removeFile E path else st
      events := [.failed tid reason, .stateChanged tid "failed",
        .sendMessage x.peerId .fileTransferError [("transfer_id", .str tid), ("reason", .str reason)]] }

/-- The record is verified: it is complete, and the sender and the application are told. -/
def publish (E : FileEnv) (m : FileTransferManager) (st : Storage) (tid : String) (x : InboundTransfer)
    (payload : TransferPayload) : Outcome where
  mgr := { m with inbound := m.inbound.insert tid { x with state := .complete, finishedAt := some E.now } }
  storage := st
  events := [.sendMessage x.peerId .fileTransferAck [("transfer_id", .str tid)],
    .complete tid x.peerId x.roomId x.supernodeId x.purpose payload x.relPath, .stateChanged tid "complete"]

/-- `finish_streaming`. -/
def finishStreaming (E : FileEnv) (m : FileTransferManager) (st : Storage) (tid : String) : Outcome :=
  match m.inbound.lookup tid with
  | none => ⟨m, st, []⟩
  | some x =>
    match x.sink with
    | .partFile (some i) path _ _ =>
      let closed := { x with sink := x.sink.close }
      let m := { m with inbound := m.inbound.insert tid closed }
      if E.faults.fails .setLen path then failInbound E m st tid ("finalize failed: " ++ E.faults.message .setLen)
      else
        let st := { st with disk := st.disk.store i (resize (st.disk.data i) x.expectedSize) }
        match if E.faults.fails .stat path then none else st.disk.read (resolve path) with
        | none => failInbound E m st tid ("cannot stat received file: " ++ E.faults.message .stat)
        | some content =>
          if content.length = x.expectedSize then
            { mgr := { m with inbound := m.inbound.insert tid { closed with state := .verifying, lastProgressAt := E.now } }
              storage := st
              events := [.stateChanged tid TransferState.verifying.asStr, .hashFile tid path] }
          else failInbound E m st tid ("size mismatch: " ++ content.length.repr ++ " vs " ++ x.expectedSize.repr)
    | _ => ⟨m, st, []⟩

/-- The payload of an inline transfer, decoded: decompressed and applied to the old file as the offer says. -/
def decodePayload (E : FileEnv) (m : FileTransferManager) (x : InboundTransfer) : Except String (List UInt8) := do
  let assembled ←
    if x.compressed then
      match zlibDecompress E.zlib x.reassemble inlineMax with
      | .ok d => .ok d
      | .error e => .error ("decompression failed: " ++ e)
    else .ok x.reassemble
  if x.isDelta then
    match m.oldDataStore.lookup x.relPath with
    | none => .error ("delta requires old file data for " ++ x.relPath)
    | some old =>
      match applyDelta E.zlib old assembled with
      | .ok d => .ok d
      | .error e => .error ("delta apply failed: " ++ e)
  else .ok assembled

/-- `finish_inbound`. The slices of the mismatch message are taken before it is sent. -/
def finishInbound (E : FileEnv) (m : FileTransferManager) (st : Storage) (tid : String) : Outcome :=
  match m.inbound.lookup tid with
  | none => ⟨m, st, []⟩
  | some x =>
    if x.state ≠ .transferring ∨ x.chunksReceived ≠ x.totalChunks then ⟨m, st, []⟩
    else if x.isStreaming then finishStreaming E m st tid
    else
      let x := { x with state := .verifying }
      let m := { m with inbound := m.inbound.insert tid x }
      match decodePayload E m x with
      | .error reason => failInbound E m st tid reason
      | .ok assembled =>
        let actual := E.sha256Hex assembled
        if assembled.length ≠ x.expectedSize then
          failInbound E m st tid ("size mismatch: " ++ assembled.length.repr ++ " vs " ++ x.expectedSize.repr)
        else if actual ≠ x.expectedSha256 then
          let failed := failInbound E m st tid
            ("hash mismatch: " ++ prefixText actual 16 ++ "… vs " ++ prefixText x.expectedSha256 16 ++ "…")
          { failed with events := .sliced actual 16 :: .sliced x.expectedSha256 16 :: failed.events }
        else publish E m st tid x (.bytes assembled)

/-- An interrupted pull is live again. -/
def revived (x : InboundTransfer) : InboundTransfer :=
  { x with state := .transferring, resumable := false, resumeAttempts := 0, finishedAt := none }

/-- A frame arrived: a pull that waited for a retry is live again. -/
def resumed (x : InboundTransfer) : InboundTransfer := if x.state = .failed then revived x else x

/-- A record that takes chunks and COMPLETE. -/
def takes (x : InboundTransfer) : Bool := x.state == .transferring || (x.state == .failed && x.resumable)

/-- The record after a chunk it did not have. -/
def progressed (E : FileEnv) (x : InboundTransfer) : InboundTransfer :=
  resumed { x with lastProgressAt := E.now, resumeAttempts := 0 }

/-- `on_chunk_bytes_received`. -/
def onChunkBytesReceived (E : FileEnv) (m : FileTransferManager) (st : Storage) (tid : String) (index : Nat)
    (chunk : List UInt8) : Outcome :=
  match m.inbound.lookup tid with
  | none => ⟨m, st, []⟩
  | some x =>
    if takes x = false then ⟨m, st, []⟩
    else if x.totalChunks ≤ index then failInbound E m st tid ("chunk_index " ++ index.repr ++ " out of range")
    else
      let wasHolding := x.state == .failed
      let stored := storeChunk E x st index chunk
      let filed (x : InboundTransfer) : FileTransferManager := { m with inbound := m.inbound.insert tid x }
      match stored.2.2 with
      | .failed => ⟨m, stored.2.1, []⟩
      | .duplicate =>
        let x := { x with pullRequestedAt := some E.now }
        if wasHolding then
          ⟨filed (revived x), st,
            [.progress tid x.chunksReceived x.totalChunks, .stateChanged tid "transferring"]⟩
        else ⟨filed x, st, []⟩
      | .new =>
        let y := progressed E stored.1
        if y.completeRequested ∧ y.chunksReceived = y.totalChunks then finishInbound E (filed y) stored.2.1 tid
        else ⟨filed y, stored.2.1,
          if wasHolding || progressIsReportable y.chunksReceived y.totalChunks then
            [.progress tid y.chunksReceived y.totalChunks] else []⟩

/-- `on_chunk_received`. -/
def onChunkReceived (E : FileEnv) (m : FileTransferManager) (st : Storage) (tid : String) (index : Nat) (dataB64 : String) :
    Outcome :=
  match b64Decode dataB64 with
  | none => failInbound E m st tid "invalid base64 chunk"
  | some chunk => onChunkBytesReceived E m st tid index chunk

/-- `on_complete_received`. -/
def onCompleteReceived (E : FileEnv) (m : FileTransferManager) (st : Storage) (tid : String) : Outcome :=
  match m.inbound.lookup tid with
  | none => ⟨m, st, []⟩
  | some x =>
    if takes x = false then ⟨m, st, []⟩
    else
      let y := resumed x
      if y.chunksReceived ≠ y.totalChunks then
        ⟨{ m with inbound := m.inbound.insert tid { y with completeRequested := true } }, st, []⟩
      else finishInbound E { m with inbound := m.inbound.insert tid y } st tid

/-- `on_file_hashed`. -/
def onFileHashed (E : FileEnv) (m : FileTransferManager) (st : Storage) (tid : String) (actual : Except String String) :
    Outcome :=
  match m.inbound.lookup tid with
  | none => ⟨m, st, []⟩
  | some x =>
    match x.state, x.sink with
    | .verifying, .partFile _ part _ _ =>
      match actual with
      | .error e => failInbound E m st tid e
      | .ok actual =>
        if actual ≠ x.expectedSha256 then
          let cutActual := min 16 (byteLen actual.toList)
          let cutExpected := min 16 (byteLen x.expectedSha256.toList)
          let failed := failInbound E m st tid
            ("hash mismatch: " ++ prefixText actual cutActual ++ "… vs " ++ prefixText x.expectedSha256 cutExpected ++ "…")
          { failed with events := .sliced actual cutActual :: .sliced x.expectedSha256 cutExpected :: failed.events }
        else
          match promotePartFile E st part x.relPath with
          | (st, none) => failInbound E m st tid ("could not save received file: " ++ E.faults.message .rename)
          | (st, some dest) => publish E m st tid x (.savedAt (some dest) x.expectedSize)
    | _, _ => ⟨m, st, []⟩

/-! ## Interruptions and eviction -/

/-- `INTERRUPTED_REASON`. -/
def interruptedReason : String := "Interrupted. Tap Retry to resume."

/-- What a quiet window does to a pull: it is asked again, or waits for the user. -/
def stalledPull (E : FileEnv) (x : InboundTransfer) : InboundTransfer :=
  if maxAutoResume ≤ x.resumeAttempts then { x with state := .failed, resumable := true, finishedAt := none }
  else { x with resumeAttempts := x.resumeAttempts + 1, pullRequestedAt := some E.now, lastProgressAt := E.now }

/-- What the caller is told about a quiet pull. -/
def stallReport (tid : String) (x : InboundTransfer) : InboundStall :=
  if maxAutoResume ≤ x.resumeAttempts then .giveUp tid interruptedReason
  else
    .resume
      { transferId := tid
        peerId := x.peerId
        roomId := x.roomId
        supernodeId := x.supernodeId
        fromChunk := x.firstMissing.getD 0
        attempt := x.resumeAttempts + 1 }

/-- `take_stalled_inbound`. -/
def takeStalledInbound (E : FileEnv) (m : FileTransferManager) : FileTransferManager × List InboundStall :=
  ({ m with inbound := mapValues m.inbound fun x => if x.isStalled E.now then stalledPull E x else x },
    (m.inbound.entries.filter fun e => e.2.isStalled E.now).map fun e => stallReport e.1 e.2)

/-- `arm_retry`. -/
def armRetry (E : FileEnv) (m : FileTransferManager) (tid : String) : FileTransferManager × Option PullResume :=
  match m.inbound.lookup tid with
  | none => (m, none)
  | some x =>
    if x.state = .failed ∧ x.resumable = true then
      let x := { revived x with pullRequestedAt := some E.now, lastProgressAt := E.now }
      ({ m with inbound := m.inbound.insert tid x },
        some
          { transferId := tid
            peerId := x.peerId
            roomId := x.roomId
            supernodeId := x.supernodeId
            fromChunk := x.firstMissing.getD 0
            attempt := 0 })
    else (m, none)

/-- When an inbound record reached a final state, for eviction. An interruption that can be resumed is not stamped. -/
def stampInbound (now : ℚ) (x : InboundTransfer) : InboundTransfer :=
  if x.finishedAt = none ∧ x.state.isTerminal ∧ x.resumable = false then { x with finishedAt := some now } else x

/-- Whether `gc` keeps an inbound record. -/
def keepsInbound (now : ℚ) (x : InboundTransfer) : Bool :=
  match x.finishedAt with
  | some t => decide (now < t + transferRetain)
  | none =>
    if x.state = .transferring ∨ x.state = .verifying ∨ x.resumable then decide (now < x.lastProgressAt + transferIdle)
    else decide (now < x.createdAt + offerTtl)

/-- When an outbound record reached a final state, for eviction. -/
def stampOutbound (now : ℚ) (x : OutboundTransfer) : OutboundTransfer :=
  if x.finishedAt = none ∧ x.state.isTerminal then { x with finishedAt := some now } else x

/-- Whether `gc` keeps an outbound record. -/
def keepsOutbound (now : ℚ) (x : OutboundTransfer) : Bool :=
  match x.source, x.finishedAt with
  | .inline _, some t => decide (now < t + transferRetain)
  | _, finished =>
    if finished = none ∧ x.state = .transferring then decide (now < x.lastProgressAt + transferIdle)
    else decide (now < x.createdAt + offerTtl)

/-- The `.part` files of the inbound records `gc` drops. -/
def orphaned (now : ℚ) (st : Storage) (inbound : HashMap String InboundTransfer) : List Path :=
  (values inbound).filterMap fun x =>
    if keepsInbound now x then none else x.sink.partPath?.filter st.exists

/-- `gc`. -/
def gc (E : FileEnv) (m : FileTransferManager) (st : Storage) : Outcome :=
  let outbound := mapValues m.outbound (stampOutbound E.now)
  let inbound := mapValues m.inbound (stampInbound E.now)
  let expired := (outbound.entries.filter fun e => !keepsOutbound E.now e.2).map Sigma.fst
  let revoked := expired.foldl (fun r id => r.insert id E.now) m.revoked
  { mgr := { m with
      outbound := retain outbound fun _ x => keepsOutbound E.now x
      inbound := retain inbound fun _ x => keepsInbound E.now x
      revoked := retain revoked fun _ t => decide (E.now < t + offerTtl) }
    storage := (orphaned E.now st inbound).foldl (fun st path => st.removeFile E path) st
    events := [] }

/-- `has_inbound`. -/
def hasInbound (m : FileTransferManager) (tid : String) : Bool := (m.inbound.lookup tid).isSome

end FileTransferManager

end DoubleSlash.Files
