import DoubleSlash.Lib.Base64
import DoubleSlash.Files.Encoding

/-!
# Outbound transfers

The sending half of `FileTransferManager`: offers, the pump that emits chunk frames within a budget, resumes, and what is undone
when the transport refuses a frame.
-/

namespace DoubleSlash.Files

open Protocol Assoc Codec

/-- `progress_is_reportable`. -/
def progressIsReportable (sent total : Nat) : Bool :=
  if total = 0 then false
  else if total ≤ sent then true
  else sent % max (total / 100) 1 == 0

/-- The key `to` of a frame that goes to one room member. -/
def toField (to_ : String) : Payload := if to_ = "" then [] else [("to", .str to_)]

/-- The frame of a chunk. -/
def chunkFrame (x : OutboundTransfer) (index : Nat) (chunk : List UInt8) : TransferEvent :=
  .sendMessage x.peerId .fileTransferChunk
    ([("transfer_id", .str x.transferId), ("chunk_index", .int index), ("data", .str (b64Encode chunk))] ++ toField x.toPeer)

/-- The frame after the last chunk. -/
def completeFrame (x : OutboundTransfer) : TransferEvent :=
  .sendMessage x.peerId .fileTransferComplete ([("transfer_id", .str x.transferId)] ++ toField x.toPeer)

/-- The loop of `next_chunk_events`: what is emitted within the budget, and whether the source could not be read. -/
def nextChunks (E : FileEnv) (x : OutboundTransfer) : Nat → OutboundTransfer × List TransferEvent × Bool
  | 0 => (x, [], false)
  | budget + 1 =>
    if x.chunksSent < x.totalChunks then
      match x.source.readChunk E x.chunksSent with
      | none =>
        ({ x with state := .failed, finishedAt := some E.now }, [.failed x.transferId "source file unreadable"], true)
      | some chunk =>
        let sent := { x with chunksSent := x.chunksSent + 1 }
        let report : List TransferEvent :=
          if progressIsReportable sent.chunksSent sent.totalChunks then
            [.progress x.transferId sent.chunksSent sent.totalChunks] else []
        let rest := nextChunks E sent budget
        (rest.1, chunkFrame x x.chunksSent chunk :: report ++ rest.2.1, rest.2.2)
    else (x, [], false)

/-- `next_chunk_events`: the transfer, the events and whether it was emitted to its end. -/
def nextChunkEvents (E : FileEnv) (x : OutboundTransfer) (budget : Nat) : OutboundTransfer × List TransferEvent × Bool :=
  let out := nextChunks E x budget
  if out.2.2 then out
  else if out.1.totalChunks ≤ out.1.chunksSent then (out.1, out.2.1 ++ [completeFrame out.1], true)
  else (out.1, out.2.1, false)

/-- `build_chunk_events`. -/
def buildChunkEvents (E : FileEnv) (x : OutboundTransfer) : OutboundTransfer × List TransferEvent :=
  let out := nextChunkEvents E x x.totalChunks
  (out.1, out.2.1)

/-! ## Offers -/

/-- `PreparedOffer`, with its `OfferMeta`. -/
structure PreparedOffer where
  source : TransferSource
  transferId : String
  originalSha : String
  originalSize : Nat
  payloadLen : Nat
  purpose : String
  compressed : Bool
  isDelta : Bool
  baseSha256 : String

/-- `prepare_inline_offer`. -/
def prepareInlineOffer (E : FileEnv) (data : List UInt8) (purpose : String) (oldData : Option (List UInt8))
    (transferId : String) : Option PreparedOffer :=
  if inlineMax < data.length then none
  else
    let prepared (payload : List UInt8) (compressed isDelta : Bool) (base : String) : PreparedOffer :=
      { source := .inline payload
        transferId := transferId
        originalSha := E.sha256Hex data
        originalSize := data.length
        payloadLen := payload.length
        purpose := purpose
        compressed := compressed
        isDelta := isDelta
        baseSha256 := base }
    let whole := prepared (compressData E.zlib data).1 (compressData E.zlib data).2 false ""
    match oldData with
    | none => some whole
    | some old =>
      match createDelta E.zlib old data with
      | some delta => some (prepared delta false true (E.sha256Hex old))
      | none => some whole

/-- `prepare_path_offer`. -/
def preparePathOffer (E : FileEnv) (path : Path) (purpose : String) (transferId : String) : Option PreparedOffer :=
  match E.readFile path with
  | none => none
  | some content =>
    if maxTransferSize < content.length then none
    else
      some
        { source := .filePath path content.length
          transferId := transferId
          originalSha := E.sha256Hex content
          originalSize := content.length
          payloadLen := content.length
          purpose := purpose
          compressed := false
          isDelta := false
          baseSha256 := "" }

/-- The chunks of a payload. -/
def chunkCount (len : Nat) : Nat := max ((len + chunkSize - 1) / chunkSize) 1

/-- The record of an offer. -/
def PreparedOffer.record (E : FileEnv) (p : PreparedOffer) (peerId relPath : String) : OutboundTransfer where
  transferId := p.transferId
  peerId := peerId
  relPath := relPath
  source := p.source
  sha256 := p.originalSha
  totalChunks := chunkCount p.payloadLen
  chunksSent := 0
  state := .pending
  purpose := p.purpose
  compressed := p.compressed
  isDelta := p.isDelta
  createdAt := E.now
  lastProgressAt := E.now
  toPeer := ""
  finishedAt := none
  stallCount := 0
  stalledSince := none
  retryAfter := 0

/-- The payload of the OFFER frame. -/
def PreparedOffer.frame (p : PreparedOffer) (relPath : String) : Payload :=
  [("transfer_id", .str p.transferId), ("rel_path", .str relPath), ("sha256", .str p.originalSha),
    ("size", .int p.originalSize), ("payload_size", .int p.payloadLen), ("total_chunks", .int (chunkCount p.payloadLen)),
    ("purpose", .str p.purpose), ("compressed", .bool p.compressed), ("is_delta", .bool p.isDelta),
    ("base_sha256", .str p.baseSha256)]

namespace FileTransferManager

/-- `insert_prepared`. -/
def insertPrepared (E : FileEnv) (m : FileTransferManager) (peerId relPath : String) (p : PreparedOffer) (autoPush : Bool) :
    FileTransferManager × List TransferEvent :=
  let offer : TransferEvent := .sendMessage peerId .fileTransferOffer (p.frame relPath)
  if autoPush then
    let out := buildChunkEvents E { p.record E peerId relPath with state := .transferring }
    ({ m with outbound := m.outbound.insert p.transferId out.1 }, offer :: out.2)
  else ({ m with outbound := m.outbound.insert p.transferId (p.record E peerId relPath) }, [offer])

/-- `has_outbound`. -/
def hasOutbound (m : FileTransferManager) (tid : String) : Bool := (m.outbound.lookup tid).isSome

/-- `offer_was_withdrawn`. -/
def offerWasWithdrawn (E : FileEnv) (m : FileTransferManager) (tid : String) : Bool :=
  (m.revoked.lookup tid).isSome || (m.outbound.lookup tid).any fun x => decide (x.createdAt + offerTtl ≤ E.now)

/-- A stream that starts over, from any state. -/
def restarted (E : FileEnv) (x : OutboundTransfer) : OutboundTransfer :=
  { x with
    state := .transferring
    lastProgressAt := E.now
    finishedAt := none
    stallCount := 0
    stalledSince := none
    retryAfter := 0 }

/-- `start_stream_from`. -/
def startStreamFrom (E : FileEnv) (m : FileTransferManager) (tid requester : String) (fromChunk budget : Nat) :
    FileTransferManager × List TransferEvent :=
  if offerWasWithdrawn E m tid then (m, [])
  else match m.outbound.lookup tid with
    | none => (m, [])
    | some x =>
      let out := nextChunkEvents E
        (restarted E { x with chunksSent := min fromChunk x.totalChunks, toPeer := requester }) budget
      ({ m with outbound := m.outbound.insert tid out.1 }, out.2.1)

/-- `pump_stream`. -/
def pumpStream (E : FileEnv) (m : FileTransferManager) (tid : String) (budget : Nat) :
    FileTransferManager × List TransferEvent :=
  match m.outbound.lookup tid with
  | none => (m, [])
  | some x =>
    if x.state = .transferring then
      let out := nextChunkEvents E x budget
      ({ m with outbound := m.outbound.insert tid out.1 }, out.2.1)
    else (m, [])

/-- `on_transfer_accepted_from`. A first accept starts a pending offer only. -/
def onTransferAcceptedFrom (E : FileEnv) (m : FileTransferManager) (tid : String) (resumeFrom : Option Nat) :
    FileTransferManager × List TransferEvent :=
  if offerWasWithdrawn E m tid then (m, [])
  else match m.outbound.lookup tid with
    | none => (m, [])
    | some x =>
      if resumeFrom = none ∧ x.state ≠ .pending then (m, [])
      else
        let from_ := resumeFrom.elim x.chunksSent fun n => min n x.totalChunks
        let x := restarted E { x with chunksSent := from_ }
        let out := if x.source.isStreaming then
          let out := nextChunkEvents E x roomFileChunkBudget
          (out.1, out.2.1)
        else buildChunkEvents E x
        ({ m with outbound := m.outbound.insert tid out.1 }, .stateChanged tid "transferring" :: out.2)

/-- `on_transfer_rejected`. -/
def onTransferRejected (m : FileTransferManager) (tid : String) : FileTransferManager × List TransferEvent :=
  match m.outbound.lookup tid with
  | none => (m, [])
  | some x =>
    ({ m with outbound := m.outbound.insert tid { x with state := .rejected } },
      [.failed tid "rejected by peer", .stateChanged tid "rejected"])

/-- `on_transfer_ack`. -/
def onTransferAck (E : FileEnv) (m : FileTransferManager) (tid : String) : FileTransferManager × List TransferEvent :=
  match m.outbound.lookup tid with
  | none => (m, [])
  | some x =>
    let payload : TransferPayload := match x.source with
      | .filePath path len => .savedAt (some path) len
      | .inline data => .savedAt none data.length
    ({ m with outbound := m.outbound.insert tid { x with state := .complete, finishedAt := some E.now } },
      [.complete tid x.peerId "" "" x.purpose payload x.relPath, .stateChanged tid "complete"])

/-- `on_transfer_error`. -/
def onTransferError (m : FileTransferManager) (tid reason : String) : FileTransferManager × List TransferEvent :=
  match m.outbound.lookup tid with
  | none => (m, [])
  | some x =>
    ({ m with outbound := m.outbound.insert tid { x with state := .failed } },
      [.failed tid reason, .stateChanged tid "failed"])

/-- `unsend_chunks`. -/
def unsendChunks (m : FileTransferManager) (tid : String) (n : Nat) : FileTransferManager :=
  { m with
    outbound := modify m.outbound tid fun x =>
      let x := { x with chunksSent := x.chunksSent - n }
      if x.state = .complete then { x with state := .transferring, finishedAt := none } else x }

/-- `mark_outbound_complete`. -/
def markOutboundComplete (E : FileEnv) (m : FileTransferManager) (tid : String) : FileTransferManager :=
  { m with outbound := modify m.outbound tid fun x => { x with state := .complete, finishedAt := some E.now } }

/-- `note_send_progress`. -/
def noteSendProgress (E : FileEnv) (m : FileTransferManager) (tid : String) : FileTransferManager :=
  { m with
    outbound := modify m.outbound tid fun x =>
      { x with lastProgressAt := E.now, stallCount := 0, stalledSince := none, retryAfter := 0 } }

/-- What a turn without transport does to a stream: it is backed off, and failed once it has made no progress for long. -/
def stalledTurn (E : FileEnv) (x : OutboundTransfer) : OutboundTransfer :=
  let since := x.stalledSince.getD E.now
  let x := { x with stalledSince := some since, stallCount := min (x.stallCount + 1) (2 ^ 32 - 1) }
  if since + stallGiveUp ≤ E.now then { x with state := .failed, finishedAt := some E.now }
  else { x with retryAfter := E.now + min (stallBackoffBase * 2 ^ (min x.stallCount 16 - 1)) stallBackoffMax }

/-- `note_send_stalled`: the failure, once it has given up. -/
def noteSendStalled (E : FileEnv) (m : FileTransferManager) (tid : String) : FileTransferManager × List TransferEvent :=
  match m.outbound.lookup tid with
  | none => (m, [])
  | some x =>
    ({ m with outbound := m.outbound.insert tid (stalledTurn E x) },
      if x.stalledSince.getD E.now + stallGiveUp ≤ E.now then [.failed tid "no transport available to send on"] else [])

/-- `revoke_outbound`. -/
def revokeOutbound (E : FileEnv) (m : FileTransferManager) (tid : String) : FileTransferManager :=
  if hasOutbound m tid then { m with outbound := m.outbound.erase tid, revoked := m.revoked.insert tid E.now } else m

end FileTransferManager

end DoubleSlash.Files
