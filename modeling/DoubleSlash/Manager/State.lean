import DoubleSlash.Protocol.Message
import DoubleSlash.Protocol.ReplayGuard
import DoubleSlash.Store.PeerStore
import DoubleSlash.Direct.Sessions
import DoubleSlash.Files.Inbound

/-!
# The state of a connection manager

The parts of `ConnectionManager` that inbound messages are checked against and filed in. A handler is a function of the state
that returns the new state and its effects in order: events for the application, messages handed to `dispatch_outbound`, and
the texts it cuts for a log line.
-/

namespace DoubleSlash.Manager

open Protocol Store Direct Assoc Tls Files

/-- `PendingInvite`: an invite the user accepted, until the inviter answers. -/
structure PendingInvite where
  inviterPeerId : String
  inviterIdentityPub : String
  inviteId : String
  relayHint : String
  lanHint : String
  isSupernode : Bool
  createdAt : Nat
  rejectedAt : Option Nat
  rejectReason : String
  deriving DecidableEq, Repr

/-- Events for the application. -/
inductive ConnectionEvent where
  | peerConnected (peerId : String)
  | inviteAccepted (peerId handle : String)
  | fileOffered (transferId peerId relPath : String) (size : Nat) (purpose : String) (isSelf : Bool) (originId supernodeId : String)
  | fileProgress (transferId : String) (done total : Nat)
  | fileComplete (transferId peerId roomId supernodeId purpose : String) (payload : TransferPayload) (relPath : String)
  | fileFailed (transferId reason : String) (retryable : Bool)
  deriving DecidableEq, Repr

/-- What a handler does besides changing the state. -/
inductive Effect where
  /-- `&text[..upTo.min(text.len())]`, in a log line. -/
  | cut (text : String) (upTo : Nat)
  /-- `&text[..upTo]`. -/
  | slice (text : String) (upTo : Nat)
  | emit (event : ConnectionEvent)
  /-- A message handed to `dispatch_outbound`. -/
  | send (target : String) (msgType : MessageType) (payload : Payload)
  | sendHandleUpdate (target : String)
  | sendLocalAvatarConfig (target : String)
  /-- A received file is hashed off the loop. -/
  | hashReceivedFile (transferId : String) (path : Path) (room : Bool)
  /-- `on_unopenable_room_frame`. -/
  | unopenableRoomFrame (roomId sender : String) (epoch : Nat)

/-- What the handlers read from outside the manager. -/
structure Env where
  crypto : Crypto
  /-- Unix seconds. -/
  now : Nat
  /-- `read_local_display_handle()`. -/
  displayHandle : String
  /-- `str::parse::<SocketAddr>`, as the address's text and port. -/
  parseSocketAddr : String → Option (String × Nat)
  /-- The message inside an `EncryptedSignal`, when it decrypts and parses. -/
  openEnvelope : SignalingMessage → Option SignalingMessage
  files : FileEnv := .plain
  /-- `gate_through_feature(feature, sender, bytes)`: the quota takes the bytes. -/
  featureGate : String → String → Nat → Bool := fun _ _ _ => true
  /-- Whether the transport takes the n-th file message of a batch. -/
  sent : Nat → Bool := fun _ => true
  /-- `seal_file_chunk(room, transfer, index, data)` under a real group key. -/
  sealFileChunk : String → String → Nat → List UInt8 → Option (Nat × List UInt8) := fun _ _ _ data => some (0, data)
  /-- `open_file_chunk(room, sender, transfer, index, epoch, sealed)`. -/
  openFileChunk : String → String → String → Nat → Nat → List UInt8 → Option (List UInt8) := fun _ _ _ _ _ data => some data

/-- The manager's state. -/
structure ConnectionManager (S : Type) where
  /-- `identity.public_id()`. -/
  publicId : String
  direct : DirectSessions S
  store : PeerStore
  pendingInvites : HashMap String PendingInvite
  /-- The invites this client issued and nobody redeemed, with their expiry. -/
  issuedInvites : HashMap String Nat
  replay : ReplayGuard
  /-- `file_mgr`: transfers with one peer. -/
  fileMgr : FileTransferManager := {}
  /-- `room_file_mgr`: transfers in rooms. -/
  roomFileMgr : FileTransferManager := {}
  /-- Where both managers store what they receive. -/
  storage : Storage := {}

/-- What a message arrived with. -/
structure Transport where
  /-- The id of the direct session it came over. -/
  quicPeerId : Option String
  /-- The supernode that delivered it. -/
  supernodeId : Option String
  /-- It was inside an encrypted envelope. -/
  encrypted : Bool

end DoubleSlash.Manager
