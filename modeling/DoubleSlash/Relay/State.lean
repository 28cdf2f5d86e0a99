import DoubleSlash.Lib.SetMap
import DoubleSlash.Relay.Routes

/-!
# The relay's tables

`RelayState` of the supernode's `relay.rs`: the connected endpoints, the room each is placed in, the rooms' members by identity and
the placements that wait for a connection. Each operation is what the relay does under its lock.
-/

namespace DoubleSlash.Relay

open Assoc Text Tls Sfu

/-- `MAX_PEERS`. -/
def maxPeers : Nat := 255

/-- `RelayPeer`. A connection is named by its stable id. -/
structure RelayPeer where
  peerIndex : UInt8
  connection : Nat
  roomId : Option String
  bytesRelayed : Nat

/-- `RelayState`. -/
structure RelayState where
  allowed : Finset String
  portalAllowed : Finset String
  peers : DeviceRoutes RelayPeer
  indexToPeer : HashMap UInt8 (String × Option DeviceId)
  deviceRoutingReady : Bool
  rooms : HashMap String (Finset String)
  roomAssignments : DeviceRoutes String
  gameSessions : HashMap String (Finset String)
  peerGameSession : HashMap String String
  videoSubs : HashMap String (Finset String)
  nextIndex : UInt8
  totalBytesRelayed : Nat

/-- `RelayState::new`, built with or without device routing. -/
def RelayState.new (deviceRoutingReady : Bool) : RelayState where
  allowed := ∅
  portalAllowed := ∅
  peers := ∅
  indexToPeer := ∅
  deviceRoutingReady := deviceRoutingReady
  rooms := ∅
  roomAssignments := ∅
  gameSessions := ∅
  peerGameSession := ∅
  videoSubs := ∅
  nextIndex := 1
  totalBytesRelayed := 0

namespace RelayState

/-- `set_video_subscriptions`. -/
def setVideoSubscriptions (st : RelayState) (subscriber : String) (senders : List String) : RelayState :=
  { st with videoSubs := st.videoSubs.insert (normalizePublicId subscriber) (senders.map normalizePublicId).toFinset }

/-- `wants_video`. -/
def wantsVideo (st : RelayState) (recipient sender : String) : Bool :=
  match st.videoSubs.lookup (normalizePublicId recipient) with
  | some set => decide (normalizePublicId sender ∈ set)
  | none => true

/-- The index after this one: 1 to 254, round and round. -/
def followingIndex (i : UInt8) : UInt8 := if i = 254 then 1 else i + 1

/-- The search for a free index, which gives up when it is back where it started. The fuel covers one round. -/
def searchIndex (taken : UInt8 → Bool) (start : UInt8) : Nat → UInt8 → Option UInt8
  | 0, _ => none
  | fuel + 1, i =>
    if taken i then if followingIndex i = start then none else searchIndex taken start fuel (followingIndex i) else some i

/-- `allocate_index`: the index, and the state that searches on from there. -/
def allocateIndex (st : RelayState) : Option (UInt8 × RelayState) :=
  (searchIndex (fun i => (st.indexToPeer.lookup i).isSome) st.nextIndex 255 st.nextIndex).map fun i =>
    (i, { st with nextIndex := followingIndex i })

/-- The endpoints of an identity that are placed in a room, but for one device. -/
def siblingIn (st : RelayState) (peerId : String) (room : String) (except : Option (Option DeviceId)) : Bool :=
  (st.peers.endpoints peerId).any fun e => decide (some e.1 ≠ except) && decide (e.2.roomId = some room)

/-- An identity leaves a game session it is filed under, or every one when none is filed. -/
def dropGameSession (st : RelayState) (peerId : String) : RelayState :=
  match st.peerGameSession.lookup peerId with
  | some session =>
    { st with
      peerGameSession := st.peerGameSession.erase peerId
      gameSessions := SetMap.remove st.gameSessions session peerId }
  | none => { st with gameSessions := SetMap.removeAll st.gameSessions peerId }

/-- `remove_identity_membership`. -/
def removeIdentityMembership (st : RelayState) (peerId : String) : RelayState :=
  let devices := (st.roomAssignments.endpoints peerId).map Prod.fst
  let assignments := devices.foldl (fun routes device => routes.removeEndpoint peerId device) st.roomAssignments
  let st := { st with
    roomAssignments := assignments
    videoSubs := st.videoSubs.erase (normalizePublicId peerId)
    rooms := SetMap.removeAll st.rooms peerId }
  st.dropGameSession peerId

/-- The identity leaves the room's members, unless one of its endpoints is still placed there. -/
def vacate (st : RelayState) (peerId : String) (room : Option String) (except : Option (Option DeviceId)) : RelayState :=
  match room with
  | none => st
  | some room =>
    if st.siblingIn peerId room except then st else { st with rooms := SetMap.remove st.rooms room peerId }

/-- `remove_endpoint`. -/
def removeEndpoint (st : RelayState) (peerId : String) (device : Option DeviceId) : RelayState :=
  let st := { st with roomAssignments := st.roomAssignments.removeEndpoint peerId device }
  match st.peers.getEndpoint peerId device with
  | none => st
  | some peer =>
    let st := { st with
      peers := st.peers.removeEndpoint peerId device
      indexToPeer := st.indexToPeer.erase peer.peerIndex }
    let st := st.vacate peerId peer.roomId none
    if st.peers.containsKey peerId then st else st.removeIdentityMembership peerId

/-- `remove_peer`. -/
def removePeer (st : RelayState) (peerId : String) : RelayState :=
  let devices := (st.peers.endpoints peerId).map Prod.fst
  (devices.foldl (fun st device => st.removeEndpoint peerId device) st).removeIdentityMembership peerId

/-- `allow_peer`. -/
def allowPeer (st : RelayState) (peerId : String) : RelayState :=
  { st with allowed := insert (trimEndMatches '=' peerId) st.allowed }

/-- `allow_peer_update`. -/
def allowPeerUpdate (st : RelayState) (peerId : String) : RelayState :=
  { st with
    portalAllowed := st.portalAllowed.erase (trimEndMatches '=' peerId)
    allowed := insert (trimEndMatches '=' peerId) st.allowed }

/-- `allow_portal_peer`. -/
def allowPortalPeer (st : RelayState) (peerId : String) : RelayState :=
  { st with portalAllowed := insert (trimEndMatches '=' peerId) st.portalAllowed }

/-- `revoke_peer`. -/
def revokePeer (st : RelayState) (peerId : String) : RelayState :=
  let normalized := trimEndMatches '=' peerId
  { st with allowed := st.allowed.erase normalized }.removePeer normalized

/-- `join_room_endpoint`. -/
def joinRoomEndpoint (st : RelayState) (peerId : String) (device : Option DeviceId) (roomId : String) : RelayState :=
  let peerId := trimEndMatches '=' peerId
  match st.roomAssignments.register peerId device roomId with
  | none => st
  | some assignments =>
    let st := { st with roomAssignments := assignments }
    let oldRoom := (st.peers.getEndpoint peerId device).bind RelayPeer.roomId
    let st := st.vacate peerId oldRoom (some device)
    { st with
      peers := st.peers.modifyEndpoint peerId device fun peer => { peer with roomId := some roomId }
      rooms := SetMap.add st.rooms roomId peerId }

/-- The room `leave_room_endpoint` takes the endpoint out of. -/
def roomToLeave (st : RelayState) (peerId : String) (device : Option DeviceId) : Option String :=
  ((st.peers.getEndpoint peerId device).bind RelayPeer.roomId).orElse fun _ =>
    if device.isSome then st.roomAssignments.getEndpoint peerId device else none

/-- `leave_room_endpoint`. -/
def leaveRoomEndpoint (st : RelayState) (peerId : String) (device : Option DeviceId) : RelayState :=
  let peerId := trimEndMatches '=' peerId
  let room := st.roomToLeave peerId device
  let st := { st with
    peers := st.peers.modifyEndpoint peerId device fun peer => { peer with roomId := none }
    roomAssignments := st.roomAssignments.removeEndpoint peerId device }
  st.vacate peerId room none

/-- `join_game_session`. -/
def joinGameSession (st : RelayState) (peerId session : String) : RelayState :=
  let peerId := trimEndMatches '=' peerId
  if session = "" ∨ 128 < byteLen session.toList then st
  else
    let sessions := match st.peerGameSession.lookup peerId with
      | some old => if old ≠ session then SetMap.remove st.gameSessions old peerId else st.gameSessions
      | none => st.gameSessions
    { st with
      gameSessions := SetMap.add sessions session peerId
      peerGameSession := st.peerGameSession.insert peerId session }

/-- `leave_game_session`. -/
def leaveGameSession (st : RelayState) (peerId : String) : RelayState :=
  let peerId := trimEndMatches '=' peerId
  match st.peerGameSession.lookup peerId with
  | some session =>
    { st with
      peerGameSession := st.peerGameSession.erase peerId
      gameSessions := SetMap.remove st.gameSessions session peerId }
  | none => st

/-! ## The registration of a connection -/

/-- How a registration ended. -/
inductive Registration where
  | full | noIndices | routeLimit
  | welcome (index : UInt8)
  deriving DecidableEq

/-- The endpoint's connection is replaced, its room kept. -/
def softReplace (st : RelayState) (peerId : String) (device : Option DeviceId) : RelayState :=
  match st.peers.getEndpoint peerId device with
  | none => st
  | some old =>
    let st := { st with
      indexToPeer := st.indexToPeer.erase old.peerIndex
      peers := st.peers.removeEndpoint peerId device }
    match old.roomId with
    | none => st
    | some room => { st with rooms := SetMap.add st.rooms room peerId }

/-- The room a legacy connection is looked up in: any that has its identity. -/
def scanRooms (st : RelayState) (peerId : String) : Option String :=
  (st.rooms.entries.find? fun e => decide (peerId ∈ e.2)).map Sigma.fst

/-- The room a new connection starts in, given the room of the one it replaces. -/
def existingRoom (st : RelayState) (peerId : String) (device : Option DeviceId) (priorRoom : Option String) : Option String :=
  (priorRoom.orElse fun _ => st.roomAssignments.getEndpoint peerId device).orElse fun _ =>
    if device.isNone then st.scanRooms peerId else none

/-- The table has no place for a new endpoint of the identity. -/
def isFull (st : RelayState) (peerId : String) (device : Option DeviceId) : Bool :=
  decide (maxPeers ≤ st.peers.len) ||
    (device.isSome && decide (maxLiveDeviceRoutes ≤ ((st.peers.endpoints peerId).filter fun e => e.1.isSome).length))

/-- What `handle_connection` does under the lock once the peer is authorized. -/
def registerConnection (st : RelayState) (peerId : String) (device : Option DeviceId) (connection : Nat) :
    Registration × RelayState :=
  let prior := st.peers.getEndpoint peerId device
  if prior.isNone && st.isFull peerId device then (.full, st)
  else
    let priorRoom := prior.bind RelayPeer.roomId
    let st := st.softReplace peerId device
    match st.allocateIndex with
    | none => (.noIndices, st)
    | some (index, st) =>
      let peer : RelayPeer :=
        { peerIndex := index, connection, roomId := st.existingRoom peerId device priorRoom, bytesRelayed := 0 }
      let st := { st with indexToPeer := st.indexToPeer.insert index (peerId, device) }
      match st.peers.register peerId device peer with
      | none => (.routeLimit, st)
      | some peers => (.welcome index, { st with peers })

end RelayState

end DoubleSlash.Relay
