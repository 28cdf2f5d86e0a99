import DoubleSlash.Lib.Disk
import DoubleSlash.Files.Paths
import DoubleSlash.Protocol.Message
import Mathlib.Algebra.Order.Ring.Rat

/-!
# Transfers and their records

The data of `file_transfer.rs`: an outbound transfer reads its payload chunk by chunk, an inbound one collects chunks in memory
or in a `.part` file. Times are exact seconds. Files are on a disk whose operations may fail.
-/

namespace DoubleSlash.Files

open Protocol Assoc Fs

/-! ## Constants -/

/-- `CHUNK_SIZE`. -/
def chunkSize : Nat := 65536

/-- `MAX_TRANSFER_SIZE`. -/
def maxTransferSize : Nat := 4 * 1024 * 1024 * 1024

/-- `INLINE_MAX`. -/
def inlineMax : Nat := 8 * 1024 * 1024

/-- `MAX_DELTA_BYTES`. -/
def maxDeltaBytes : Nat := 2 * inlineMax

/-- `COMPRESSION_THRESHOLD`. -/
def compressionThreshold : Nat := 1024

/-- `TRANSFER_RETAIN_SECS`. -/
def transferRetain : ℚ := 300

/-- `ROOM_FILE_CHUNK_BUDGET`. -/
def roomFileChunkBudget : Nat := 8

/-- `STALL_BACKOFF_BASE_SECS`. -/
def stallBackoffBase : ℚ := 1 / 10

/-- `STALL_BACKOFF_MAX_SECS`. -/
def stallBackoffMax : ℚ := 5

/-- `STALL_GIVE_UP_SECS`. -/
def stallGiveUp : ℚ := 120

/-- `OFFER_TTL_SECS`. -/
def offerTtl : ℚ := 3600

/-- `TRANSFER_IDLE_SECS`. -/
def transferIdle : ℚ := 3600

/-- `PULL_ANSWER_TIMEOUT_SECS`. -/
def pullAnswerTimeout : ℚ := 30

/-- `MAX_AUTO_RESUME`. -/
def maxAutoResume : Nat := 3

/-! ## The world outside -/

/-- The operations on files that may fail. -/
inductive FsOp where
  | createDir | create | setLen | stat | remove | rename | hash
  deriving DecidableEq, Repr

/-- Which operations fail, and how. -/
structure Faults where
  fails : FsOp → Path → Bool
  /-- A write that fails after so many bytes. -/
  shortWrite : Option Nat
  /-- The text of the error. -/
  message : FsOp → String

/-- Nothing fails. -/
def Faults.none : Faults where
  fails := fun _ _ => false
  shortWrite := Option.none
  message := fun _ => ""

/-- zlib. -/
structure Zlib where
  /-- `ZlibEncoder` at level 6. -/
  deflate : List UInt8 → Except String (List UInt8)
  /-- `ZlibDecoder`, read up to so many bytes. -/
  inflate : List UInt8 → Nat → Except String (List UInt8)

/-- What the file code takes from outside. -/
structure FileEnv where
  os : Os
  /-- `download_dir()`. -/
  downloadDir : Path
  now : ℚ
  faults : Faults
  /-- `sha256_hex`. -/
  sha256Hex : List UInt8 → String
  zlib : Zlib
  /-- The content of a file being sent. -/
  readFile : Path → Option (List UInt8)

/-- An environment to start from: Unix, no file to send, no compression, hexadecimal for hashes. -/
def FileEnv.plain : FileEnv where
  os := .unix
  downloadDir := ["home".toList, "me".toList, "Downloads".toList]
  now := 0
  faults := .none
  sha256Hex := Codec.hexEncode
  zlib := { deflate := fun _ => .error "", inflate := fun _ _ => .error "" }
  readFile := fun _ => none

/-- A path named by an operation that creates, truncates, renames to or deletes it. -/
inductive Touch where
  | create (path : Path)
  | renameTo (path : Path)
  | delete (path : Path)
  deriving DecidableEq, Repr

/-- The path of the operation. -/
def Touch.path : Touch → Path
  | .create p | .renameTo p | .delete p => p

/-- The disk, with a journal of what was asked of it. -/
structure Storage where
  disk : Disk Path := .empty
  journal : List Touch := []

/-- `remove_file`. -/
def Storage.removeFile (E : FileEnv) (st : Storage) (path : Path) : Storage where
  disk := if E.faults.fails .remove path then st.disk else st.disk.remove (resolve path)
  journal := st.journal ++ [.delete path]

/-- `path.exists()`. -/
def Storage.exists (st : Storage) (path : Path) : Bool := st.disk.exists (resolve path)

/-! ## Transfers -/

/-- `TransferState`. -/
inductive TransferState where
  | pending | transferring | verifying | complete | failed | rejected | cancelled
  deriving DecidableEq, Repr

/-- `is_terminal`. -/
def TransferState.isTerminal : TransferState → Bool
  | .complete | .failed | .rejected | .cancelled => true
  | _ => false

/-- `as_str`. -/
def TransferState.asStr : TransferState → String
  | .pending => "pending"
  | .transferring => "transferring"
  | .verifying => "verifying"
  | .complete => "complete"
  | .failed => "failed"
  | .rejected => "rejected"
  | .cancelled => "cancelled"

/-- `TransferSource`. -/
inductive TransferSource where
  | inline (data : List UInt8)
  | filePath (path : Path) (len : Nat)
  deriving DecidableEq, Repr

/-- `payload_len`. -/
def TransferSource.payloadLen : TransferSource → Nat
  | .inline data => data.length
  | .filePath _ len => len

/-- `is_streaming`. -/
def TransferSource.isStreaming : TransferSource → Bool
  | .inline _ => false
  | .filePath _ _ => true

/-- The bytes of a chunk. -/
def slice (data : List UInt8) (index : Nat) : List UInt8 := (data.drop (index * chunkSize)).take chunkSize

/-- `read_chunk`. `read_exact` fails when the file is shorter than it was. -/
def TransferSource.readChunk (E : FileEnv) (source : TransferSource) (index : Nat) : Option (List UInt8) :=
  let offset := index * chunkSize
  let total := source.payloadLen
  if total ≤ offset ∧ ¬(total = 0 ∧ index = 0) then none
  else
    let want := min chunkSize (total - offset)
    match source with
    | .inline data => some ((data.drop offset).take want)
    | .filePath path _ =>
      (E.readFile path).bind fun content =>
        if offset + want ≤ content.length then some ((content.drop offset).take want) else none

/-- `OutboundTransfer`. -/
structure OutboundTransfer where
  transferId : String
  peerId : String
  relPath : String
  source : TransferSource
  sha256 : String
  totalChunks : Nat
  chunksSent : Nat
  state : TransferState
  purpose : String
  compressed : Bool
  isDelta : Bool
  createdAt : ℚ
  lastProgressAt : ℚ
  toPeer : String
  finishedAt : Option ℚ
  stallCount : Nat
  stalledSince : Option ℚ
  retryAfter : ℚ
  deriving DecidableEq, Repr

/-- `TransferSink`. The `file` of a `.part` file is open until it is finalised or fails. -/
inductive TransferSink where
  | memory (chunks : HashMap Nat (List UInt8))
  | partFile (file : Option Nat) (path : Path) (received : List Bool) (count : Nat)
  deriving DecidableEq

/-- `received_count`. -/
def TransferSink.receivedCount : TransferSink → Nat
  | .memory chunks => chunks.entries.length
  | .partFile _ _ _ count => count

/-- The `.part` file, if the transfer has one. -/
def TransferSink.partPath? : TransferSink → Option Path
  | .memory _ => none
  | .partFile _ path _ _ => some path

/-- `InboundTransfer`. -/
structure InboundTransfer where
  transferId : String
  peerId : String
  roomId : String
  supernodeId : String
  relPath : String
  expectedSha256 : String
  expectedSize : Nat
  totalChunks : Nat
  state : TransferState
  purpose : String
  compressed : Bool
  isDelta : Bool
  baseSha256 : String
  createdAt : ℚ
  lastProgressAt : ℚ
  finishedAt : Option ℚ
  pullRequestedAt : Option ℚ
  resumeAttempts : Nat
  resumable : Bool
  sink : TransferSink
  completeRequested : Bool
  deriving DecidableEq

/-- What a peer offers, as the handlers read it from the message. -/
structure Offer where
  peerId : String
  roomId : String
  supernodeId : String
  transferId : String
  relPath : String
  sha256 : String
  size : Nat
  totalChunks : Nat
  purpose : String
  compressed : Bool
  isDelta : Bool
  baseSha256 : String
  deriving DecidableEq, Repr

/-- `InboundTransfer::new`. -/
def InboundTransfer.new (now : ℚ) (o : Offer) (sink : TransferSink) : InboundTransfer where
  transferId := o.transferId
  peerId := o.peerId
  roomId := o.roomId
  supernodeId := o.supernodeId
  relPath := o.relPath
  expectedSha256 := o.sha256
  expectedSize := o.size
  totalChunks := o.totalChunks
  state := if o.purpose = "update" then .transferring else .pending
  purpose := o.purpose
  compressed := o.compressed
  isDelta := o.isDelta
  baseSha256 := o.baseSha256
  createdAt := now
  lastProgressAt := now
  finishedAt := none
  pullRequestedAt := if o.purpose = "update" then some now else none
  resumeAttempts := 0
  resumable := false
  sink := sink
  completeRequested := false

/-- `chunks_received`. -/
def InboundTransfer.chunksReceived (x : InboundTransfer) : Nat := x.sink.receivedCount

/-- `is_streaming`. -/
def InboundTransfer.isStreaming (x : InboundTransfer) : Bool := x.sink.partPath?.isSome

/-- `first_missing`. -/
def InboundTransfer.firstMissing (x : InboundTransfer) : Option Nat :=
  match x.sink with
  | .memory chunks => (List.range x.totalChunks).find? fun i => (chunks.lookup i).isNone
  | .partFile _ _ received _ => received.findIdx? (!·)

/-- `is_stalled`. -/
def InboundTransfer.isStalled (x : InboundTransfer) (now : ℚ) : Bool :=
  !x.resumable && x.state == .transferring && x.firstMissing.isSome &&
    x.pullRequestedAt.any fun requested => decide (max requested x.lastProgressAt + pullAnswerTimeout ≤ now)

/-- `reassemble`. -/
def InboundTransfer.reassemble (x : InboundTransfer) : List UInt8 :=
  match x.sink with
  | .memory chunks => (List.range x.totalChunks).flatMap fun i => (chunks.lookup i).getD []
  | .partFile _ _ _ _ => []

/-- `ChunkStored`. -/
inductive ChunkStored where
  | new | duplicate | failed
  deriving DecidableEq, Repr

/-- `store_chunk`. A write that fails part of the way leaves what it wrote. -/
def storeChunk (E : FileEnv) (x : InboundTransfer) (st : Storage) (index : Nat) (data : List UInt8) :
    InboundTransfer × Storage × ChunkStored :=
  if x.totalChunks ≤ index then (x, st, .failed)
  else match x.sink with
    | .memory chunks =>
      if (chunks.lookup index).isSome then (x, st, .duplicate)
      else ({ x with sink := .memory (chunks.insert index data) }, st, .new)
    | .partFile file path received count =>
      if received.getD index true then (x, st, .duplicate)
      else match file with
        | none => (x, st, .failed)
        | some i =>
          let write (bytes : List UInt8) : Storage :=
            { st with disk := st.disk.store i (splice (st.disk.data i) (index * chunkSize) bytes) }
          match E.faults.shortWrite with
          | some k => (x, write (data.take k), .failed)
          | none => ({ x with sink := .partFile (some i) path (received.set index true) (count + 1) }, write data, .new)

/-! ## Events -/

/-- `TransferPayload`. A file in memory that was sent has no path. -/
inductive TransferPayload where
  | bytes (data : List UInt8)
  | savedAt (path : Option Path) (len : Nat)
  deriving DecidableEq, Repr

/-- `TransferEvent`, and the byte slices taken on the way. -/
inductive TransferEvent where
  | offered (transferId peerId relPath : String) (size : Nat) (purpose : String)
  /-- The fraction, as its two numbers. -/
  | progress (transferId : String) (done total : Nat)
  | complete (transferId peerId roomId supernodeId purpose : String) (payload : TransferPayload) (relPath : String)
  | failed (transferId reason : String)
  | stateChanged (transferId state : String)
  | hashFile (transferId : String) (path : Path)
  | sendMessage (peerId : String) (msgType : MessageType) (payload : Payload)
  /-- `&text[..upTo]`. -/
  | sliced (text : String) (upTo : Nat)

/-- `PullResume`. -/
structure PullResume where
  transferId : String
  peerId : String
  roomId : String
  supernodeId : String
  fromChunk : Nat
  attempt : Nat
  deriving DecidableEq, Repr

/-- `InboundStall`. -/
inductive InboundStall where
  | resume (request : PullResume)
  | giveUp (transferId reason : String)
  deriving DecidableEq, Repr

/-- `FileTransferManager`. -/
structure FileTransferManager where
  outbound : HashMap String OutboundTransfer := ∅
  inbound : HashMap String InboundTransfer := ∅
  oldDataStore : HashMap String (List UInt8) := ∅
  revoked : HashMap String ℚ := ∅

/-- A manager, the disk and what was emitted. -/
structure Outcome where
  mgr : FileTransferManager
  storage : Storage
  events : List TransferEvent

end DoubleSlash.Files
