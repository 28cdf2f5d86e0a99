import DoubleSlash.Lib.Bytes
import DoubleSlash.Relay.State
import Mathlib.Data.Finset.Sort
import Mathlib.Data.String.Basic

/-!
# The relay server

The connection tasks of `relay.rs` over its shared tables: `handle_connection` from the handshake to its exit path,
`handle_datagram`, the cleanup timer and the calls of the signaling layer. A step is what one task does under one lock; between two
locks of a task any other step may come. The JSON reader, the quotas and the installed hooks are parameters.
-/

namespace DoubleSlash.Relay

open Assoc Codec Text Tls Bytes

/-- `serde_json::Value`. -/
inductive Value where
  | null
  | bool (b : Bool)
  | number (text : String)
  | string (s : String)
  | array (items : List Value)
  | object (fields : List (String × Value))

/-- `Value::get` on a key. -/
def Value.get (v : Value) (key : String) : Option Value :=
  match v with
  | .object fields => fields.lookup key
  | _ => none

/-- `Value::as_str`. -/
def Value.asStr : Value → Option String
  | .string s => some s
  | _ => none

/-- `endpoint_from_cn`, and the identity in the spelling of `extract_relay_endpoint`. -/
def endpointFromCn (cn : String) : Option (String × Option DeviceId) := do
  let (root, device) := match splitOnce '.' cn with
    | some (root, device) => (root, some device)
    | none => (cn, none)
  let root ← hexDecode root
  if root.length ≠ 32 then none
  match device with
  | none => return (b64urlEncode root, none)
  | some encoded =>
    let bytes ← b64Groups encoded.toList
    let device ← DeviceId.ofBytes? bytes
    return (b64urlEncode root, some device)

/-! ## Datagrams -/

/-- `BROADCAST_INDEX`. -/
def broadcastIndex : UInt8 := 0xFF

/-- `parse_datagram`. -/
def parseDatagram : List UInt8 → Option (UInt8 × List UInt8)
  | [] => none
  | target :: payload => some (target, payload)

/-- `build_forwarded_datagram`. -/
def buildForwardedDatagram (senderIndex : UInt8) (payload : List UInt8) : List UInt8 := senderIndex :: payload

/-- `feature_for_fixed_tag`. -/
def featureForFixedTag (tag : UInt8) : Option String :=
  if tag = 0x01 then some "core.audio.opus"
  else if tag = 0x02 then some "core.chat.v1"
  else if tag = 0x03 then some "core.file.v1"
  else if tag = 0x04 then some "room.audio.sfu"
  else if tag = 0x05 then some "game.relay.v1"
  else if tag = 0x06 then some "core.video.v1"
  else if tag = 0x07 then some "room.video.sfu"
  else if tag = 0x08 then some "core.audio.content.v1"
  else if tag = 0x09 then some "room.audio.content.sfu"
  else none

/-- `relay_datagram_feature`. -/
def relayDatagramFeature (payload : List UInt8) : String × Nat :=
  match payload with
  | [] => ("game.relay.v1", 0)
  | tag :: _ => ((featureForFixedTag tag).getD "game.relay.v1", payload.length)

/-- What the relay takes from the crates it uses. -/
structure Crates where
  /-- `serde_json::from_str`. -/
  fromStr : String → Option Value

/-- `room_id_from_room_audio_payload`. -/
def roomIdFromRoomAudioPayload (C : Crates) (payload : List UInt8) : Option String := do
  if payload.length < 2 then none
  let json ← fromUtf8 (payload.drop 1)
  let v ← C.fromStr json
  let p ← v.get "payload"
  let r ← p.get "room_id"
  let s ← r.asStr
  if s = "" then none else some s

/-- What the quotas, the links and the installed hooks answer while one datagram is handled. -/
structure Gates where
  /-- `gate_inbound_through_feature`. -/
  inbound : String → String → Nat → Bool
  /-- `gate_through_feature` and `send_datagram`, towards one endpoint. -/
  outbound : String → String × Option DeviceId → List UInt8 → Bool
  roomAudioBridge : Bool
  gameRelayBridge : Bool
  roomVideoBridge : Bool

/-- Why an endpoint is sent a datagram. -/
inductive Lane where
  | room | game | direct
  deriving DecidableEq

/-- What leaves the relay. -/
inductive Sent where
  | forward (lane : Lane) (target : String × Option DeviceId) (bytes : List UInt8)
  | roomAudio (fromPeer : String) (senderIndex : UInt8) (roomId : String) (inner : List UInt8)
  | gameRelay (session fromPeer : String) (payload : List UInt8)
  | roomVideo (roomId fromPeer : String) (payload : List UInt8)
  deriving DecidableEq

/-- What a datagram has still to write when its handler has let go of the read lock. -/
inductive Write where
  | heal (roomId : String)
  | count (relayed : Nat)
  deriving DecidableEq

namespace RelayState

variable (st : RelayState)

/-- The endpoints of a set of identities, with what each holds. -/
def endpointsOf (members : Finset String) : List ((String × Option DeviceId) × RelayPeer) :=
  (SetMap.inOrder members).flatMap fun memberId => (st.peers.endpoints memberId).map fun e => ((memberId, e.1), e.2)

/-- Forward to those of the endpoints that are eligible and that quota and link let through. -/
def fanOut (G : Gates) (feature : String) (lane : Lane) (fwd : List UInt8)
    (targets : List ((String × Option DeviceId) × RelayPeer)) (eligible : String × Option DeviceId → RelayPeer → Bool) : List Sent :=
  (targets.filter fun t => eligible t.1 t.2 && G.outbound feature t.1 fwd).map fun t => .forward lane t.1 fwd

/-- The bytes that were forwarded, when there are any, are counted under the write lock. -/
def countOf (sent : List Sent) (fwd : List UInt8) : Option Write :=
  if sent.isEmpty then none else some (.count (sent.length * fwd.length))

/-- The broadcast within the sender's room. -/
def roomBroadcast (G : Gates) (sender : String × Option DeviceId) (sending : RelayPeer) (feature : String)
    (payload : List UInt8) : List Sent :=
  match sending.roomId with
  | none => []
  | some room =>
    let fwd := buildForwardedDatagram sending.peerIndex payload
    fanOut G feature .room fwd (st.endpointsOf (SetMap.members st.rooms room)) fun target member =>
      decide (target ≠ sender) && decide (member.roomId = some room) &&
        (decide (feature ≠ "room.video.sfu") || st.wantsVideo target.1 sender.1)

/-- The forward to one index, within one room. -/
def pointToPoint (G : Gates) (sending : RelayPeer) (targetIndex : UInt8) (feature : String) (payload : List UInt8) : List Sent :=
  match st.indexToPeer.lookup targetIndex with
  | none => []
  | some target =>
    match st.peers.getEndpoint target.1 target.2 with
    | none => []
    | some member =>
      let fwd := buildForwardedDatagram sending.peerIndex payload
      fanOut G feature .direct fwd [(target, member)] fun _ member =>
        sending.roomId.isSome && decide (member.roomId = sending.roomId)

/-- The room a frame of room audio heals its sender into: the one the frame names, when the sender has none. -/
def healedRoom (C : Crates) (sending : RelayPeer) (payload : List UInt8) : Option String :=
  if sending.roomId.isNone then roomIdFromRoomAudioPayload C payload else none

/-- The game session the frame fans out in. -/
def gameFanOut (peerId : String) : Option (String × Finset String) := do
  let session ← st.peerGameSession.lookup peerId
  let members ← st.gameSessions.lookup session
  return (session, members)

/-- `handle_datagram` up to where it lets go of the read lock: what it sends, and what it still has to write. -/
def handleDatagram (C : Crates) (G : Gates) (sender : String × Option DeviceId) (connection : Nat) (data : List UInt8) :
    List Sent × Option Write :=
  match parseDatagram data with
  | none => ([], none)
  | some (target, payload) =>
    let (feature, quotaBytes) := relayDatagramFeature payload
    if 0 < quotaBytes && !G.inbound feature sender.1 quotaBytes then ([], none)
    else match st.peers.getEndpoint sender.1 sender.2 with
      | none => ([], none)
      | some sending =>
        let fwd := buildForwardedDatagram sending.peerIndex payload
        if sending.connection ≠ connection then ([], none)
        else if target = broadcastIndex ∧ feature = "room.audio.sfu" ∧ G.roomAudioBridge = true then
          let room := (roomIdFromRoomAudioPayload C payload).orElse fun _ => sending.roomId
          (room.toList.map fun room => .roomAudio sender.1 sending.peerIndex room payload,
            (healedRoom C sending payload).map .heal)
        else match (if target = broadcastIndex ∧ feature = "game.relay.v1" then st.gameFanOut sender.1 else none) with
          | some (session, members) =>
            let sent := fanOut G feature .game fwd (st.endpointsOf members) fun target _ => decide (target ≠ sender)
            (sent ++ if G.gameRelayBridge then [.gameRelay session sender.1 payload] else [], countOf sent fwd)
          | none =>
            let sent := if target = broadcastIndex then st.roomBroadcast G sender sending feature payload
              else st.pointToPoint G sending target feature payload
            let replicated := if target = broadcastIndex ∧ feature = "room.video.sfu" ∧ G.roomVideoBridge = true
              then sending.roomId.toList.map fun room => .roomVideo room sender.1 payload else []
            (sent ++ replicated, countOf sent fwd)

/-- What `handle_datagram` writes for its sender when it has the write lock. -/
def applyWrite (sender : String × Option DeviceId) (write : Write) : RelayState :=
  match write with
  | .heal room =>
    { st with
      peers := st.peers.modifyEndpoint sender.1 sender.2 fun peer => { peer with roomId := some room }
      rooms := SetMap.add st.rooms room sender.1 }
  | .count relayed =>
    { st with
      totalBytesRelayed := st.totalBytesRelayed + relayed
      peers := st.peers.modifyEndpoint sender.1 sender.2 fun peer => { peer with bytesRelayed := peer.bytesRelayed + relayed } }

/-- `cleanup_stale_peers`, given the connections that have a close reason. -/
def cleanupStalePeers (closed : Finset Nat) : RelayState :=
  let stale := (st.peers.slots.entries.filter fun e => decide (e.2.connection ∈ closed)).map fun e =>
    (trimEndMatches '=' e.1.1, e.1.2)
  stale.foldl (fun st e => st.removeEndpoint e.1 e.2) st

end RelayState

/-! ## Tasks and steps -/

/-- Where the task of a connection stands. -/
inductive Phase where
  /-- the authorization is read, the connection not yet registered -/
  | admitted
  /-- in the datagram loop -/
  | serving
  /-- a datagram of an allowed peer is about to be handled -/
  | handling (data : List UInt8)
  /-- the datagram is handled but for what it writes -/
  | writing (write : Write)

/-- The task of one connection. -/
structure Task where
  peerId : String
  device : Option DeviceId
  phase : Phase

/-- A relay: its tables, the running tasks by connection, the connections that have a close reason, and what the last step sent. -/
structure Server where
  state : RelayState
  tasks : HashMap Nat Task
  closed : Finset Nat
  sent : List Sent

def Server.new (deviceRoutingReady : Bool) : Server := ⟨RelayState.new deviceRoutingReady, ∅, ∅, []⟩

/-- What can happen at a relay. -/
inductive Event where
  | allowPeer (peerId : String)
  | allowPeerUpdate (peerId : String)
  | allowPortalPeer (peerId : String)
  | revokePeer (peerId : String)
  | joinRoomEndpoint (peerId : String) (device : Option DeviceId) (roomId : String)
  | leaveRoomEndpoint (peerId : String) (device : Option DeviceId)
  | joinGameSession (peerId session : String)
  | leaveGameSession (peerId : String)
  | setVideoSubscriptions (subscriber : String) (senders : List String)
  /-- A connection with this CN is through its handshake; the authorization is read. -/
  | accept (connection : Nat) (cn : String)
  /-- The task registers the connection; it ends if the welcome cannot be sent. -/
  | register (connection : Nat) (welcomed : Bool)
  /-- The task takes a datagram; it is handled when the peer is allowed. -/
  | receive (connection : Nat) (data : List UInt8)
  | handle (connection : Nat) (gates : Gates)
  | write (connection : Nat)
  /-- The connection gets a close reason. -/
  | close (connection : Nat)
  /-- The task leaves its loop and cleans up. -/
  | disconnect (connection : Nat)
  | cleanup

namespace Server

variable (relay : Server)

/-- Some endpoint is registered with the connection. -/
def isRegistered (connection : Nat) : Bool := relay.state.peers.slots.entries.any fun e => decide (e.2.connection = connection)

/-- The signaling layer calls the relay. -/
def call (state : RelayState) : Server := { relay with state, sent := [] }

/-- The connections of an identity, which `revoke_peer` closes. -/
def connectionsOf (peerId : String) : Finset Nat :=
  ((relay.state.peers.endpoints (trimEndMatches '=' peerId)).map fun e => e.2.connection).toFinset

/-- The task of the connection goes on in another phase. -/
def goOn (connection : Nat) (task : Task) (phase : Phase) : Server :=
  { relay with tasks := relay.tasks.insert connection { task with phase }, sent := [] }

/-- `handle_connection` up to the registration. A connection is new when no task and no endpoint has it. -/
def accept (connection : Nat) (cn : String) : Option Server :=
  if (relay.tasks.lookup connection).isSome || relay.isRegistered connection || decide (connection ∈ relay.closed) then none
  else match endpointFromCn cn with
    | none => some { relay with sent := [] }
    | some (peerId, device) =>
      if device.isSome && !relay.state.deviceRoutingReady then some { relay with sent := [] }
      else if peerId ∈ relay.state.allowed ∨ peerId ∈ relay.state.portalAllowed then
        some (relay.goOn connection ⟨peerId, device, .admitted⟩ .admitted)
      else some { relay with sent := [] }

/-- The registration: the replaced connection is closed, and the task serves the new one when it was welcomed. -/
def register (connection : Nat) (task : Task) (welcomed : Bool) : Server :=
  let replaced := (relay.state.peers.getEndpoint task.peerId task.device).map RelayPeer.connection
  match relay.state.registerConnection task.peerId task.device connection with
  | (.full, _) => { relay with tasks := relay.tasks.erase connection, closed := insert connection relay.closed, sent := [] }
  | (.noIndices, state) | (.routeLimit, state) =>
    { relay with
      state
      tasks := relay.tasks.erase connection
      closed := insert connection (relay.closed ∪ replaced.toList.toFinset)
      sent := [] }
  | (.welcome _, state) =>
    { relay with
      state
      tasks := if welcomed then relay.tasks.insert connection { task with phase := .serving } else relay.tasks.erase connection
      closed := relay.closed ∪ replaced.toList.toFinset
      sent := [] }

/-- The exit path of `handle_connection`: only the registered connection takes its endpoint out. -/
def disconnect (connection : Nat) (task : Task) : Server :=
  let registered := (relay.state.peers.getEndpoint task.peerId task.device).any fun peer => peer.connection == connection
  { state := if registered then relay.state.removeEndpoint task.peerId task.device else relay.state
    tasks := relay.tasks.erase connection
    closed := insert connection relay.closed
    sent := [] }

end Server

/-- One step of a relay; none when the connection's task is not where the event needs it. -/
def relayStep (C : Crates) (relay : Server) (event : Event) : Option Server :=
  match event with
  | .allowPeer peerId => some (relay.call (relay.state.allowPeer peerId))
  | .allowPeerUpdate peerId => some (relay.call (relay.state.allowPeerUpdate peerId))
  | .allowPortalPeer peerId => some (relay.call (relay.state.allowPortalPeer peerId))
  | .revokePeer peerId =>
    some { relay.call (relay.state.revokePeer peerId) with closed := relay.closed ∪ relay.connectionsOf peerId }
  | .joinRoomEndpoint peerId device roomId => some (relay.call (relay.state.joinRoomEndpoint peerId device roomId))
  | .leaveRoomEndpoint peerId device => some (relay.call (relay.state.leaveRoomEndpoint peerId device))
  | .joinGameSession peerId session => some (relay.call (relay.state.joinGameSession peerId session))
  | .leaveGameSession peerId => some (relay.call (relay.state.leaveGameSession peerId))
  | .setVideoSubscriptions subscriber senders => some (relay.call (relay.state.setVideoSubscriptions subscriber senders))
  | .accept connection cn => relay.accept connection cn
  | .register connection welcomed =>
    match relay.tasks.lookup connection with
    | some ⟨peerId, device, .admitted⟩ => some (relay.register connection ⟨peerId, device, .admitted⟩ welcomed)
    | _ => none
  | .receive connection data =>
    match relay.tasks.lookup connection with
    | some ⟨peerId, device, .serving⟩ =>
      some (relay.goOn connection ⟨peerId, device, .serving⟩
        (if peerId ∈ relay.state.allowed then .handling data else .serving))
    | _ => none
  | .handle connection gates =>
    match relay.tasks.lookup connection with
    | some ⟨peerId, device, .handling data⟩ =>
      let (sent, write) := relay.state.handleDatagram C gates (peerId, device) connection data
      some { relay.goOn connection ⟨peerId, device, .serving⟩ (write.elim .serving .writing) with sent }
    | _ => none
  | .write connection =>
    match relay.tasks.lookup connection with
    | some ⟨peerId, device, .writing write⟩ =>
      some { relay.goOn connection ⟨peerId, device, .serving⟩ .serving with state := relay.state.applyWrite (peerId, device) write }
    | _ => none
  | .close connection => some { relay with closed := insert connection relay.closed, sent := [] }
  | .disconnect connection =>
    match relay.tasks.lookup connection with
    | some ⟨peerId, device, .serving⟩ => some (relay.disconnect connection ⟨peerId, device, .serving⟩)
    | _ => none
  | .cleanup => some (relay.call (relay.state.cleanupStalePeers relay.closed))

end DoubleSlash.Relay
