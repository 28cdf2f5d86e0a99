import DoubleSlash.Lib.Bytes
import DoubleSlash.Protocol.ReplayGuard
import DoubleSlash.Relay.Routes
import DoubleSlash.Supernode.Wire

/-!
# The signaling layer of a supernode

What the read loop of a WebSocket connection (`handle_ws_connection`) and `accept_signed` for the signaling stream of a relay
connection let through: `signaling.rs` with the start and the end of `handle_relay_signaling_stream` of `main.rs`. Both share one
replay guard and one set of routes. A connection is a number; what is sent and logged is left out, and so is the pacing of bulk
file data, which only lets time pass.
-/

namespace DoubleSlash.Supernode

open Assoc Bytes Codec Protocol Relay Sfu Text Tls

/-- `is_bulk_file_data`. -/
def isBulkFileData : WireType → Bool
  | .fileTransferChunk | .fileTransferComplete | .sfuFileChunk | .sfuFileComplete => true
  | _ => false

/-- The size cap of a frame. -/
def maxSignalingBytes : Nat := 262144

/-- `RATE_MAX`. -/
def rateMax : Nat := 60

/-- `RATE_WINDOW_SECS`. -/
def rateWindowSecs : ℚ := 10

/-- The age up to which a message is fresh and its signature remembered. -/
def freshSecs : ℚ := 300

/-- What the read loop of a WebSocket connection keeps; `ended` once it has left the loop. -/
structure WsConnection where
  peerId : Option String
  peerDevice : Option DeviceId
  rateCount : Nat
  rateStart : ℚ
  ended : Bool

/-- A message that was let through, when, and whether its sender has been forgotten since. -/
structure Accepted where
  msg : WireMessage
  time : ℚ
  forgotten : Bool

/-- The layer: the clock, the guard, the routes with the connection behind each, the connections, the identities that a closed
connection is about to forget, and all that was let through. -/
structure Signaling where
  clock : ℚ
  guard : HashMap String (HashMap (List UInt8) ℚ)
  peerSockets : DeviceRoutes Nat
  quicSenders : DeviceRoutes Nat
  wsConnections : HashMap Nat WsConnection
  quicConnections : HashMap Nat (String × Option DeviceId)
  forgetting : List String
  accepted : List Accepted

/-- The layer as it starts. -/
def Signaling.start (clock : ℚ) : Signaling := ⟨clock, ∅, ∅, ∅, ∅, ∅, [], []⟩

/-- What the layer is built with: the parser, Ed25519 and whether devices are routed. -/
structure SignalingConfig where
  serde : SerdeJson
  ed25519Verify : Ed25519
  deviceRoutingReady : Bool

/-- `check_and_record` for a message: none without a signature. -/
def checkAndRecord (guard : HashMap String (HashMap (List UInt8) ℚ)) (msg : WireMessage) (now : ℚ) :
    HashMap String (HashMap (List UInt8) ℚ) × Bool :=
  match msg.signature with
  | none => (guard, false)
  | some sig => recordSignature (fun now firstSeen => decide (now - firstSeen ≤ freshSecs)) guard msg.sender (utf8 sig) now

/-- The message is exempt from the guard on a WebSocket connection. -/
def isExempt (msg : WireMessage) : Bool := isBulkFileData msg.msgType || decide (msg.msgType = .sfuAudio)

section

variable (C : SignalingConfig) (s : Signaling)

/-- The signature is right and the message fresh. -/
def verifies (msg : WireMessage) : Bool := msg.verify C.ed25519Verify && msg.isFresh C.serde freshSecs s.clock

/-- What the read loop does with a message before it asks the guard. -/
inductive Gate where
  | check
  | drop
  | close
  deriving DecidableEq

/-- The rate window of a connection with one more control message in it. -/
def countControl (conn : WsConnection) (now : ℚ) : WsConnection :=
  if rateWindowSecs ≤ now - conn.rateStart then { conn with rateCount := 1, rateStart := now }
  else { conn with rateCount := conn.rateCount + 1 }

/-- The message negotiates device routing. -/
def negotiatesDevices (msg : WireMessage) : Bool :=
  C.deviceRoutingReady && decide (msg.msgType = .hello) &&
    decide ((match msg.payload with | .obj fields => fields.lookup "device_routing" | _ => none).bind Json.asU64 = some 1) &&
    msg.targetDevice.isNone

/-- The checks between the rate limit and the guard. -/
def wsGate (conn : WsConnection) (msg : WireMessage) : Gate :=
  if verifies C s msg = false then .drop
  else if conn.peerId.any fun bound => decide (normalizePublicId bound ≠ normalizePublicId msg.sender) then .close
  else if conn.peerId.isSome && decide (msg.sourceDevice ≠ conn.peerDevice) then .close
  else if conn.peerId.isNone && msg.sourceDevice.isSome && !negotiatesDevices C msg then .close
  else if msg.targetDevice.isSome && (msg.sourceDevice.isNone || !C.deviceRoutingReady) then .close
  else .check

/-- The connection with what became of it. -/
def Signaling.withWs (c : Nat) (conn : WsConnection) : Signaling := { s with wsConnections := s.wsConnections.insert c conn }

/-- A message is handed on. -/
def Signaling.accept (msg : WireMessage) : Signaling := { s with accepted := s.accepted ++ [⟨msg, s.clock, false⟩] }

/-- The first message of a connection registers it, every message is handed on. -/
def registerAndAccept (c : Nat) (conn : WsConnection) (msg : WireMessage) : Signaling :=
  if conn.peerId.isSome then s.accept msg
  else
    match s.peerSockets.register msg.sender msg.sourceDevice c with
    | none => s.withWs c { conn with ended := true }
    | some routes =>
      ({ s with peerSockets := routes }.withWs c { conn with peerId := some msg.sender, peerDevice := msg.sourceDevice }).accept msg

/-- A text frame on a WebSocket connection. -/
def wsFrame (c : Nat) (conn : WsConnection) (raw : String) : Signaling :=
  if maxSignalingBytes < byteLen raw.toList then s
  else
    match WireMessage.fromJson C.serde raw with
    | none => s
    | some msg =>
      let conn := if isExempt msg then conn else countControl conn s.clock
      let s := s.withWs c conn
      if !isExempt msg && decide (rateMax < conn.rateCount) then s
      else
        match wsGate C s conn msg with
        | .drop => s
        | .close => s.withWs c { conn with ended := true }
        | .check =>
          if isExempt msg then registerAndAccept s c conn msg
          else
            let out := checkAndRecord s.guard msg s.clock
            if out.2 then registerAndAccept { s with guard := out.1 } c conn msg else { s with guard := out.1 }

/-- The checks of `accept_signed` before the guard, for the endpoint a stream is bound to. -/
def quicGate (identity : String) (device : Option DeviceId) (msg : WireMessage) : Bool :=
  verifies C s msg && decide (normalizePublicId identity = normalizePublicId msg.sender) && decide (device = msg.sourceDevice) &&
    !((msg.sourceDevice.isSome || msg.targetDevice.isSome) && (!C.deviceRoutingReady || msg.sourceDevice.isNone))

/-- A frame on the signaling stream of a relay connection: `accept_signed` of its text. -/
def quicFrame (identity : String) (device : Option DeviceId) (bytes : List UInt8) : Signaling :=
  match fromUtf8 bytes with
  | none => s
  | some raw =>
    if maxSignalingBytes < byteLen raw.toList then s
    else
      match WireMessage.fromJson C.serde raw with
      | none => s
      | some msg =>
        if quicGate C s identity device msg = false then s
        else
          let out := checkAndRecord s.guard msg s.clock
          if out.2 then { s with guard := out.1 }.accept msg else { s with guard := out.1 }

/-- What happens once the read loop of a WebSocket connection has ended: its route goes unless it was replaced, and an identity that
has no other is to be forgotten. -/
def wsCleanup (c : Nat) (conn : WsConnection) : Signaling :=
  let s := { s with wsConnections := s.wsConnections.erase c }
  match conn.peerId with
  | none => s
  | some pid =>
    if s.peerSockets.getEndpoint pid conn.peerDevice = some c then
      let routes := s.peerSockets.removeEndpoint pid conn.peerDevice
      { s with
        peerSockets := routes
        forgetting := if routes.containsKey pid || s.quicSenders.containsKey pid then s.forgetting else s.forgetting ++ [pid] }
    else s

/-- `forget_peer`. -/
def forgetPeer (pid : String) : Signaling :=
  { s with
    guard := s.guard.erase pid
    accepted := s.accepted.map fun a => if a.msg.sender = pid then { a with forgotten := true } else a }

end

/-- What happens to the layer. -/
inductive SignalingEvent where
  | wait (secs : ℚ)
  | wsOpen (c : Nat)
  | wsText (c : Nat) (raw : String)
  | wsEnd (c : Nat)
  | forget
  | quicOpen (c : Nat) (identity : String) (device : Option DeviceId)
  | quicBytes (c : Nat) (bytes : List UInt8)
  | quicEnd (c : Nat)

/-- The layer after an event; none when the event cannot happen. -/
def signalingStep (C : SignalingConfig) (s : Signaling) : SignalingEvent → Option Signaling
  | .wait secs => if 0 ≤ secs then some { s with clock := s.clock + secs } else none
  | .wsOpen c =>
    if (s.wsConnections.lookup c).isSome then none else some (s.withWs c ⟨none, none, 0, s.clock, false⟩)
  | .wsText c raw =>
    match s.wsConnections.lookup c with
    | none => none
    | some conn => if conn.ended then none else some (wsFrame C s c conn raw)
  | .wsEnd c => (s.wsConnections.lookup c).map (wsCleanup s c)
  | .forget =>
    match s.forgetting with
    | [] => none
    | pid :: rest => some (forgetPeer { s with forgetting := rest } pid)
  | .quicOpen c identity device =>
    if (s.quicConnections.lookup c).isSome then none
    else if device.isSome && !C.deviceRoutingReady then some s
    else
      match s.quicSenders.register identity device c with
      | none => some s
      | some routes => some { s with quicSenders := routes, quicConnections := s.quicConnections.insert c (identity, device) }
  | .quicBytes c bytes => (s.quicConnections.lookup c).map fun e => quicFrame C s e.1 e.2 bytes
  | .quicEnd c =>
    match s.quicConnections.lookup c with
    | none => none
    | some (identity, device) =>
      let s := { s with quicConnections := s.quicConnections.erase c }
      if s.quicSenders.getEndpoint identity device = some c then
        some { s with quicSenders := s.quicSenders.removeEndpoint identity device }
      else some s

end DoubleSlash.Supernode
