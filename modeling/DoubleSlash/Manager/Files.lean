import DoubleSlash.Manager.State

/-!
# File messages

The file handlers of `manager/inbound.rs`, for one peer (`FileTransfer*`) and in rooms (`SfuFile*`), and the two loops that
carry out what a transfer manager emits (`dispatch_transfer_events`, `dispatch_room_transfer_events`). Each handler takes the
transfer's id from the message; only the revocation of a room file compares the sender with the peer that offered it.
-/

namespace DoubleSlash.Manager

open Protocol Store Assoc Codec Files FileTransferManager

/-! ## Carrying out events -/

/-- A batch of events being carried out. -/
structure Batch where
  mgr : FileTransferManager
  /-- A chunk was refused: the rest of the file data waits. -/
  hold : Bool := false
  /-- The transfer of each chunk that did not go out. -/
  unsent : List String := []
  stalled : List String := []
  progressed : List String := []
  /-- How many messages were handed to the transport. -/
  handed : Nat := 0
  effects : List Effect := []

namespace Batch

/-- One more effect. -/
def push (b : Batch) (e : Effect) : Batch := { b with effects := b.effects ++ [e] }

/-- A file frame that did not go out. -/
def miss (b : Batch) (tid : String) (isChunk : Bool) : Batch :=
  if tid = "" then b
  else { b with stalled := b.stalled ++ [tid], unsent := if isChunk then b.unsent ++ [tid] else b.unsent }

/-- A chunk that did not go out, and the rest of the data with it. -/
def missChunk (b : Batch) (tid : String) : Batch := { b.miss tid true with hold := true }

/-- A message is handed to the transport. -/
def hand (E : Env) (b : Batch) (target : String) (ty : MessageType) (payload : Payload) (tid : String)
    (isChunk isComplete : Bool) : Batch :=
  let sent := E.sent b.handed
  let b := { b.push (.send target ty payload) with handed := b.handed + 1 }
  if isChunk then
    if sent then if tid = "" then b else { b with progressed := b.progressed ++ [tid] } else b.missChunk tid
  else if isComplete then
    if sent then { b with mgr := markOutboundComplete E.files b.mgr tid } else b.miss tid false
  else b

/-- `note_send_stalled` for one stream of the batch, a failure told to the application. -/
def noteStall (E : Env) (acc : FileTransferManager × List Effect) (tid : String) : FileTransferManager × List Effect :=
  let noted := noteSendStalled E.files acc.1 tid
  (noted.1, acc.2 ++ noted.2.filterMap fun
    | .failed id reason => some (.emit (.fileFailed id reason false))
    | _ => none)

/-- What is left to do at the end: rewind what did not go out, and note progress and stalls. -/
def finish (E : Env) (b : Batch) : FileTransferManager × List Effect :=
  let m := b.unsent.dedup.foldl (fun m tid => unsendChunks m tid (b.unsent.count tid)) b.mgr
  let m := (b.progressed.dedup.filter fun tid => decide (tid ∉ b.stalled)).foldl (noteSendProgress E.files) m
  b.stalled.dedup.foldl (noteStall E) (m, b.effects)

/-- An event of a transfer with one peer. -/
def one (E : Env) (b : Batch) : TransferEvent → Batch
  | .sendMessage peerId ty payload =>
    let tid := payload.strOr "transfer_id" ""
    let isChunk := ty == .fileTransferChunk
    let isComplete := ty == .fileTransferComplete
    if b.hold && (isChunk || isComplete) then b.miss tid isChunk
    else b.hand E peerId ty payload tid isChunk isComplete
  | .offered tid peerId relPath size purpose => b.push (.emit (.fileOffered tid peerId relPath size purpose false peerId ""))
  | .progress tid done total => b.push (.emit (.fileProgress tid done total))
  | .complete tid peerId roomId supernodeId purpose payload relPath =>
    b.push (.emit (.fileComplete tid peerId roomId supernodeId purpose payload relPath))
  | .failed tid reason => b.push (.emit (.fileFailed tid reason false))
  | .stateChanged _ _ => b
  | .hashFile tid path => b.push (.hashReceivedFile tid path false)
  | .sliced text upTo => b.push (.slice text upTo)

/-- The room frame of a file message; the others are not sent in rooms. -/
def roomType : MessageType → Option MessageType
  | .fileTransferOffer => some .sfuFileOffer
  | .fileTransferChunk => some .sfuFileChunk
  | .fileTransferComplete => some .sfuFileComplete
  | _ => none

/-- The payload of a chunk, sealed under the room's key; `none` when it cannot be. -/
def sealed (E : Env) (roomId tid : String) (payload : Payload) : Option Payload :=
  match ((payload.get "data").bind Json.asStr).bind b64Decode with
  | none => some payload
  | some raw =>
    (E.sealFileChunk roomId tid (payload.natOr "chunk_index" 0) raw).map fun (epoch, bytes) =>
      payload.filter (fun f => f.1 ≠ "data") ++ [("data", .str (b64Encode bytes)), ("e2e", .bool true), ("epoch", .int epoch)]

/-- An event of a room transfer. -/
def oneRoom (E : Env) (publicId supernodeId roomId : String) (b : Batch) : TransferEvent → Batch
  | .sendMessage _ ty payload =>
    match roomType ty with
    | none => b
    | some roomTy =>
      let tid := payload.strOr "transfer_id" ""
      let isChunk := roomTy == .sfuFileChunk
      let isComplete := roomTy == .sfuFileComplete
      if b.hold && (isChunk || isComplete) then b.miss tid isChunk
      else
        let payload := payload ++ [("room_id", .str roomId)]
        let payload := if roomTy = .sfuFileOffer then payload ++ [("origin_id", .str publicId)] else payload
        match if isChunk then sealed E roomId tid payload else some payload with
        | none => b.missChunk tid
        | some payload => b.hand E supernodeId roomTy payload tid isChunk isComplete
  | .offered tid peerId relPath size purpose =>
    b.push (.emit (.fileOffered tid (if roomId = "" then peerId else roomId) relPath size purpose (hasOutbound b.mgr tid) peerId
      supernodeId))
  | .progress tid done total => b.push (.emit (.fileProgress tid done total))
  | .complete tid peerId room supernode purpose payload relPath =>
    b.push (.emit (.fileComplete tid peerId (if room = "" then roomId else room)
      (if supernode = "" then supernodeId else supernode) purpose payload relPath))
  | .failed tid reason => b.push (.emit (.fileFailed tid reason false))
  | .stateChanged _ _ => b
  | .hashFile tid path => b.push (.hashReceivedFile tid path true)
  | .sliced text upTo => b.push (.slice text upTo)

end Batch

section

variable {S : Type}

/-- `dispatch_transfer_events`. -/
def dispatchTransferEvents (E : Env) (m : FileTransferManager) (events : List TransferEvent) :
    FileTransferManager × List Effect :=
  (events.foldl (Batch.one E) { mgr := m }).finish E

/-- `dispatch_room_transfer_events`. -/
def dispatchRoomTransferEvents (E : Env) (publicId supernodeId roomId : String) (m : FileTransferManager)
    (events : List TransferEvent) : FileTransferManager × List Effect :=
  (events.foldl (Batch.oneRoom E publicId supernodeId roomId) { mgr := m }).finish E

/-- The transfers with one peer after an operation, its events carried out. -/
def withFiles (E : Env) (σ : ConnectionManager S) (m : FileTransferManager) (st : Storage) (events : List TransferEvent) :
    ConnectionManager S × List Effect :=
  let out := dispatchTransferEvents E m events
  ({ σ with fileMgr := out.1, storage := st }, out.2)

/-- The room transfers after an operation, its events carried out. -/
def withRoomFiles (E : Env) (σ : ConnectionManager S) (supernodeId roomId : String) (m : FileTransferManager) (st : Storage)
    (events : List TransferEvent) : ConnectionManager S × List Effect :=
  let out := dispatchRoomTransferEvents E σ.publicId supernodeId roomId m events
  ({ σ with roomFileMgr := out.1, storage := st }, out.2)

/-! ## The handlers -/

/-- A required text of the payload. -/
def requiredStr (msg : SignalingMessage) (key : String) : Option String :=
  ((msg.payload.get key).bind Json.asStr).filter fun s => s ≠ ""

/-- The transfer a message names. -/
def transferIdOf (msg : SignalingMessage) : String := msg.payload.strOr "transfer_id" ""

/-- The optional fields of an offer. -/
def offerOf (msg : SignalingMessage) (peerId roomId supernodeId relDefault purposeDefault tid sha : String) (size : Nat) :
    Offer where
  peerId := peerId
  roomId := roomId
  supernodeId := supernodeId
  transferId := tid
  relPath := msg.payload.strOr "rel_path" relDefault
  sha256 := sha
  size := size
  totalChunks := msg.payload.natOr "total_chunks" 1
  purpose := msg.payload.strOr "purpose" purposeDefault
  compressed := msg.payload.boolOr "compressed" false
  isDelta := msg.payload.boolOr "is_delta" false
  baseSha256 := msg.payload.strOr "base_sha256" ""

/-- `FileTransferOffer`. -/
def fileTransferOffer (E : Env) (σ : ConnectionManager S) (msg : SignalingMessage) : ConnectionManager S × List Effect :=
  if E.featureGate "core.file.v1" msg.sender 0 = false then (σ, [.cut msg.sender 8])
  else match requiredStr msg "transfer_id" with
    | none => (σ, [.cut msg.sender 8])
    | some tid =>
      match requiredStr msg "sha256" with
      | none => (σ, [.cut msg.sender 8])
      | some sha =>
        match (msg.payload.get "size").bind Json.asU64 with
        | none => (σ, [.cut msg.sender 8])
        | some size =>
          let out := onOfferReceived E.files σ.fileMgr σ.storage (offerOf msg msg.sender "" "" "" "file" tid sha size)
          withFiles E σ out.mgr out.storage out.events

/-- `FileTransferAccept`. -/
def fileTransferAccept (E : Env) (σ : ConnectionManager S) (msg : SignalingMessage) : ConnectionManager S × List Effect :=
  let tid := transferIdOf msg
  if offerWasWithdrawn E.files σ.fileMgr tid then
    (σ, [.cut msg.sender 8, .cut tid 8, .send msg.sender .fileTransferError
      [("transfer_id", .str tid), ("reason", .str "no longer shared")]])
  else if hasOutbound σ.fileMgr tid = false then (σ, [.cut msg.sender 8, .cut tid 8])
  else
    let out := onTransferAcceptedFrom E.files σ.fileMgr tid ((msg.payload.get "resume_from").bind Json.asU64)
    withFiles E σ out.1 σ.storage out.2

/-- `FileTransferReject`. -/
def fileTransferReject (E : Env) (σ : ConnectionManager S) (msg : SignalingMessage) : ConnectionManager S × List Effect :=
  let out := onTransferRejected σ.fileMgr (transferIdOf msg)
  withFiles E σ out.1 σ.storage out.2

/-- `FileTransferChunk`. -/
def fileTransferChunk (E : Env) (σ : ConnectionManager S) (msg : SignalingMessage) : ConnectionManager S × List Effect :=
  let tid := transferIdOf msg
  let data := msg.payload.strOr "data" ""
  if hasInbound σ.fileMgr tid = false ∧ E.featureGate "core.file.v1" msg.sender data.utf8ByteSize = false then
    (σ, [.cut msg.sender 8])
  else
    let out := onChunkReceived E.files σ.fileMgr σ.storage tid (msg.payload.natOr "chunk_index" 0) data
    withFiles E σ out.mgr out.storage out.events

/-- `FileTransferComplete`. -/
def fileTransferComplete (E : Env) (σ : ConnectionManager S) (msg : SignalingMessage) : ConnectionManager S × List Effect :=
  let out := onCompleteReceived E.files σ.fileMgr σ.storage (transferIdOf msg)
  withFiles E σ out.mgr out.storage out.events

/-- `FileTransferAck`. -/
def fileTransferAck (E : Env) (σ : ConnectionManager S) (msg : SignalingMessage) : ConnectionManager S × List Effect :=
  let out := onTransferAck E.files σ.fileMgr (transferIdOf msg)
  withFiles E σ out.1 σ.storage out.2

/-- `FileTransferError`. -/
def fileTransferError (E : Env) (σ : ConnectionManager S) (msg : SignalingMessage) : ConnectionManager S × List Effect :=
  let out := onTransferError σ.fileMgr (transferIdOf msg) (msg.payload.strOr "reason" "unknown")
  withFiles E σ out.1 σ.storage out.2

/-- The peer a room offer is filed under: the payload's `origin_id`, or the sender. -/
def originOf (msg : SignalingMessage) (roomId : String) : String :=
  (((msg.payload.get "origin_id").bind Json.asStr).filter fun s => s ≠ "" ∧ s ≠ roomId).getD msg.sender

/-- `handle_sfu_file_offer`. -/
def sfuFileOffer (E : Env) (σ : ConnectionManager S) (msg : SignalingMessage) (supernodeId : String) :
    ConnectionManager S × List Effect :=
  if E.featureGate "room.file.v1" msg.sender 0 = false then (σ, [.cut msg.sender 8])
  else
    let roomId := msg.payload.strOr "room_id" "default"
    match requiredStr msg "transfer_id" with
    | none => (σ, [.cut msg.sender 8])
    | some tid =>
      -- Our own offer, handed back.
      if hasOutbound σ.roomFileMgr tid then (σ, [])
      else match requiredStr msg "sha256" with
        | none => (σ, [.cut msg.sender 8])
        | some sha =>
          match (msg.payload.get "size").bind Json.asU64 with
          | none => (σ, [.cut msg.sender 8])
          | some size =>
            let out := onOfferReceived E.files σ.roomFileMgr σ.storage
              (offerOf msg (originOf msg roomId) roomId supernodeId "file" "room_file" tid sha size)
            withRoomFiles E σ supernodeId roomId out.mgr out.storage out.events

/-- `send_file_revoke` to one requester. The live route to the supernode is outside the model; the target is its id. -/
def fileRevoke (supernodeId roomId tid requester : String) : Effect :=
  .send supernodeId .sfuFileRevoke [("room_id", .str roomId), ("transfer_id", .str tid), ("to", .str requester)]

/-- `handle_sfu_file_request`. -/
def sfuFileRequest (E : Env) (σ : ConnectionManager S) (msg : SignalingMessage) (supernodeId : String) :
    ConnectionManager S × List Effect :=
  let roomId := msg.payload.strOr "room_id" "default"
  let tid := transferIdOf msg
  let addressee := msg.payload.strOr "to" ""
  if tid = "" ∨ addressee ≠ "" ∧ bare addressee ≠ bare σ.publicId then (σ, [])
  else if offerWasWithdrawn E.files σ.roomFileMgr tid then
    (σ, [.cut msg.sender 8, .cut tid 8, fileRevoke supernodeId roomId tid msg.sender])
  else if hasOutbound σ.roomFileMgr tid = false then (σ, [.cut msg.sender 8, .cut tid 8])
  else
    let out := startStreamFrom E.files σ.roomFileMgr tid msg.sender (msg.payload.natOr "resume_from" 0) roomFileChunkBudget
    let carried := withRoomFiles E σ supernodeId roomId out.1 σ.storage out.2
    (carried.1, .cut msg.sender 8 :: .cut tid 8 :: carried.2)

/-- `handle_sfu_file_revoke`: only the peer that offered a file may withdraw it. -/
def sfuFileRevoke (E : Env) (σ : ConnectionManager S) (msg : SignalingMessage) : ConnectionManager S × List Effect :=
  let tid := transferIdOf msg
  if tid = "" then (σ, [])
  else match σ.roomFileMgr.inbound.lookup tid with
    | none => (σ, [])
    | some x =>
      if bare x.peerId = bare msg.sender then
        let out := discardInbound E.files σ.roomFileMgr σ.storage tid
        ({ σ with roomFileMgr := out.mgr, storage := out.storage },
          [.cut tid 8, .emit (.fileFailed tid "no longer shared" false)])
      else (σ, [.cut msg.sender 8])

/-- `handle_sfu_file_chunk`: chunks in rooms come sealed under the room's key. -/
def sfuFileChunk (E : Env) (σ : ConnectionManager S) (msg : SignalingMessage) : ConnectionManager S × List Effect :=
  let tid := transferIdOf msg
  let index := msg.payload.natOr "chunk_index" 0
  let data := msg.payload.strOr "data" ""
  if hasInbound σ.roomFileMgr tid = false ∧ E.featureGate "room.file.v1" msg.sender data.utf8ByteSize = false then
    (σ, [.cut msg.sender 8])
  else if msg.payload.boolOr "e2e" false = false then (σ, [.cut msg.sender 8])
  else
    let roomId := msg.payload.strOr "room_id" "default"
    let epoch := msg.payload.natOr "epoch" (2 ^ 64 - 1)
    match b64Decode data with
    | none => (σ, [])
    | some bytes =>
      if epoch < 2 ^ 8 then
        match E.openFileChunk roomId msg.sender tid index epoch bytes with
        | none => (σ, [.cut msg.sender 8, .unopenableRoomFrame roomId msg.sender epoch])
        | some plain =>
          let out := onChunkBytesReceived E.files σ.roomFileMgr σ.storage tid index plain
          withRoomFiles E σ "" "" out.mgr out.storage out.events
      else (σ, [.cut msg.sender 8])

/-- `handle_sfu_file_complete`. -/
def sfuFileComplete (E : Env) (σ : ConnectionManager S) (msg : SignalingMessage) : ConnectionManager S × List Effect :=
  let out := onCompleteReceived E.files σ.roomFileMgr σ.storage (transferIdOf msg)
  withRoomFiles E σ "" "" out.mgr out.storage out.events

end

end DoubleSlash.Manager
