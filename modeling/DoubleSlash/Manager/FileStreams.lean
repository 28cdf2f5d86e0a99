import DoubleSlash.Files.Link
import DoubleSlash.Manager.Files

/-!
# Streams of file data

A manager's streams advance turn by turn: an operation emits a batch of events, and a dispatch loop carries the batch out before
the next operation comes. What a transport took of a batch is read from its effects.
-/

namespace DoubleSlash.Manager

open Protocol Assoc Files FileTransferManager

/-! ## Turns -/

/-- Where a batch goes: to one peer, or into a room over its supernode. -/
inductive Route where
  | peer
  | room (publicId supernodeId roomId : String)
  deriving DecidableEq, Repr

namespace Route

/-- An event of a batch. -/
def one (E : Env) : Route → Batch → TransferEvent → Batch
  | .peer => Batch.one E
  | .room publicId supernodeId roomId => Batch.oneRoom E publicId supernodeId roomId

/-- The dispatch loop. -/
def dispatch (E : Env) (m : FileTransferManager) (events : List TransferEvent) : Route → FileTransferManager × List Effect
  | .peer => dispatchTransferEvents E m events
  | .room publicId supernodeId roomId => dispatchRoomTransferEvents E publicId supernodeId roomId m events

theorem dispatch_eq (E : Env) (m : FileTransferManager) (events : List TransferEvent) (route : Route) :
    route.dispatch E m events = (events.foldl (route.one E) { mgr := m }).finish E := by
  cases route <;> rfl

end Route

/-- Whether an operation is the beginning of a turn. The others are done by the dispatch loops only. -/
def isTurn : SenderOp → Bool
  | .unsend .. | .completed _ | .progressed _ | .stalled _ => false
  | _ => true

/-- `active_outbound_streams`. -/
def activeOutboundStreams (now : ℚ) (m : FileTransferManager) : List String :=
  (m.outbound.entries.filter fun e => e.2.state == .transferring && decide (e.2.retryAfter ≤ now)).map Sigma.fst

/-- A turn. -/
structure FileTurn where
  env : Env
  route : Route
  op : SenderOp

/-- What a turn does. -/
def FileTurn.carry (t : FileTurn) (m : FileTransferManager) : FileTransferManager × List Effect :=
  t.route.dispatch t.env (t.op.apply t.env.files m).1 (t.op.apply t.env.files m).2

/-- The index an operation (re)starts the stream from. -/
def restartOf (E : FileEnv) (tid : String) (m : FileTransferManager) : SenderOp → Option Nat
  | .offer _ _ p _ => if p.transferId = tid then some 0 else none
  | .accepted id resumeFrom =>
    if id = tid ∧ offerWasWithdrawn E m tid = false then
      (m.outbound.lookup tid).bind fun x =>
        if resumeFrom = none ∧ x.state ≠ .pending then none else some (min (resumeFrom.getD 0) x.totalChunks)
    else none
  | .start id _ fromChunk _ =>
    if id = tid ∧ offerWasWithdrawn E m tid = false then
      (m.outbound.lookup tid).map fun x => min fromChunk x.totalChunks
    else none
  | _ => none

/-! ## What a transport took -/

/-- The data of a stream: its chunks, and COMPLETE. -/
inductive Frame where
  | chunk (index : Nat)
  | complete
  deriving DecidableEq, Repr

/-- The index a chunk's frame names. -/
def chunkIndexOf (payload : Payload) : Nat :=
  match payload.get "chunk_index" with
  | some (.int i) => i.toNat
  | _ => 0

/-- The frame a message of this type is. -/
def frameOf (ty : MessageType) (payload : Payload) : Option Frame :=
  match ty with
  | .fileTransferChunk | .sfuFileChunk => some (.chunk (chunkIndexOf payload))
  | .fileTransferComplete | .sfuFileComplete => some .complete
  | _ => none

/-- The frame of the stream that an event asks to send. -/
def eventFrame (tid : String) : TransferEvent → Option Frame
  | .sendMessage _ .fileTransferChunk payload =>
    if payload.strOr "transfer_id" "" = tid then some (.chunk (chunkIndexOf payload)) else none
  | .sendMessage _ .fileTransferComplete payload => if payload.strOr "transfer_id" "" = tid then some .complete else none
  | _ => none

/-- The frames of the stream in a batch. -/
def fileFrames (tid : String) (events : List TransferEvent) : List TransferEvent :=
  events.filter fun e => (eventFrame tid e).isSome

/-- The frame of the stream that was handed over. -/
def effectFrame (tid : String) : Effect → Option Frame
  | .send _ ty payload => if payload.strOr "transfer_id" "" = tid then frameOf ty payload else none
  | _ => none

/-- The text of `note_send_stalled`. -/
def noTransport : String := "no transport available to send on"

/-- Whether an effect is a message. -/
def Effect.isSend : Effect → Bool
  | .send .. => true
  | _ => false

/-- The messages of a batch that a transport took. -/
def taken (E : Env) (effects : List Effect) : List Effect :=
  ((effects.filter Effect.isSend).zipIdx.filter fun e => E.sent e.2).map Prod.fst

/-- The frames of the stream that a transport took. -/
def takenFrames (E : Env) (tid : String) (effects : List Effect) : List Frame := (taken E effects).filterMap (effectFrame tid)

/-- Whether a frame can be sent at all: in a room, a chunk has to be sealed first. -/
def Route.ready (E : Env) : Route → TransferEvent → Bool
  | .room _ _ roomId, .sendMessage _ .fileTransferChunk payload =>
    (Batch.sealed E roomId (payload.strOr "transfer_id" "") (payload ++ [("room_id", .str roomId)])).isSome
  | _, _ => true

/-- How many frames of a batch go out: those before the first that cannot be sealed or that the transport refuses. The number is
that of the messages handed over before. -/
def Route.takes (E : Env) (route : Route) : Nat → List TransferEvent → Nat
  | _, [] => 0
  | n, e :: frames => if route.ready E e && E.sent n then route.takes E (n + 1) frames + 1 else 0

end DoubleSlash.Manager
