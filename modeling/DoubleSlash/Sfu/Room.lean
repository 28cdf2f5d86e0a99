import DoubleSlash.Lib.Assoc
import DoubleSlash.Lib.Text
import DoubleSlash.Tls.Certificate
import Mathlib.Data.Finset.Basic
import Mathlib.Data.Finset.Erase
import Mathlib.Data.Finset.Insert

/-!
# SFU rooms

`SFURoom` and `SFURoomManager` of the supernode's `sfu.rs`: the rooms of a node, who is in their voice and who only receives
their chat, and the devices behind each. The scores of the active speakers are values of a type `S`; times are whole seconds.
-/

namespace DoubleSlash.Sfu

open Assoc Text Tls

/-- `normalize_public_id`: a 43-byte key gets its padding, anything else stays. -/
def normalizePublicId (id : String) : String :=
  let bare := trimEndMatches '=' id
  if byteLen bare.toList ≠ 43 then id else bare ++ "="

/-- `normalize_peer_id`. -/
def normalizePeerId (peerId : String) : String := normalizePublicId peerId

/-- `MAX_ROOM_SIZE`. -/
def maxRoomSize : Nat := 32

/-- `MAX_LIVE_DEVICE_ROUTES`. -/
def maxLiveDeviceRoutes : Nat := 8

/-- `DEFAULT_ROOM_ID`. -/
def defaultRoomId : String := "default"

/-- `DEFAULT_ROOM_NAME`. -/
def defaultRoomName : String := "Public Voice/Chat Room"

/-- `RoomType`. -/
inductive RoomType where
  | pub | priv
  deriving DecidableEq, Repr

/-- `normalize_invite_policy`. -/
def normalizeInvitePolicy (policy : String) : String := if policy = "members" then "members" else "owner"

/-- `DeviceMembership`. -/
structure DeviceMembership where
  voice : Bool
  chat : Bool
  deriving DecidableEq, Repr

/-- `InviteToken`. -/
structure InviteToken where
  createdBy : String
  uses : Nat
  maxUses : Nat

/-- `SFURoom`. -/
structure SFURoom (S : Type) where
  roomId : String
  roomName : String
  roomType : RoomType
  creatorId : String
  invitePolicy : String
  participants : HashMap String UInt8
  speakerScores : HashMap String S
  activeSpeakers : List String
  subscribers : Finset String
  deviceMembers : HashMap (String × Option DeviceId) DeviceMembership
  allowed : Finset String
  inviteTokens : HashMap String InviteToken
  emptySince : Option Nat
  nextIndex : UInt8

namespace SFURoom

variable {S : Type}

/-- `SFURoom::new`. -/
def new (roomId roomName : String) (roomType : RoomType) (creatorId : String) : SFURoom S where
  roomId := roomId
  roomName := roomName
  roomType := roomType
  creatorId := normalizePeerId creatorId
  invitePolicy := "owner"
  participants := ∅
  speakerScores := ∅
  activeSpeakers := []
  subscribers := ∅
  deviceMembers := ∅
  allowed := ∅
  inviteTokens := ∅
  emptySince := none
  nextIndex := 1

/-- `is_unused`. -/
def isUnused (room : SFURoom S) : Bool := room.participants.entries.isEmpty && decide (room.subscribers = ∅)

/-- `mark_in_use`. -/
def markInUse (room : SFURoom S) : SFURoom S := { room with emptySince := none }

/-- `mark_unused_if_empty`. -/
def markUnusedIfEmpty (room : SFURoom S) (now : Nat) : SFURoom S :=
  if room.isUnused then { room with emptySince := room.emptySince.orElse fun _ => some now } else room

/-- `is_peer_allowed`. -/
def isPeerAllowed (room : SFURoom S) (peerId : String) : Bool :=
  let peerId := normalizePeerId peerId
  decide (room.roomType = .pub) || decide (peerId ∈ room.allowed) || decide (room.creatorId = peerId) ||
    (room.participants.lookup peerId).isSome

/-- `allow_peer`. -/
def allowPeer (room : SFURoom S) (peerId : String) : SFURoom S :=
  { room with allowed := insert (normalizePeerId peerId) room.allowed }

/-- `is_full`. -/
def isFull (room : SFURoom S) : Bool := decide (maxRoomSize ≤ room.participants.entries.length)

/-- `participant_ids`. -/
def participantIds (room : SFURoom S) : List String := room.participants.keys

/-- `add_participant`. -/
def addParticipant (room : SFURoom S) (peerId : String) : SFURoom S × Bool :=
  let peerId := normalizePeerId peerId
  if (room.participants.lookup peerId).isSome then (room, true)
  else if room.isFull then (room, false)
  else
    ({ room with
        nextIndex := max (room.nextIndex + 1) 1
        participants := room.participants.insert peerId room.nextIndex
        subscribers := room.subscribers.erase peerId }.markInUse, true)

/-- The speaker's score and slot go. -/
def forgetSpeaker (room : SFURoom S) (peerId : String) : SFURoom S :=
  { room with
    speakerScores := room.speakerScores.erase peerId
    activeSpeakers := room.activeSpeakers.filter (· ≠ peerId) }

/-- `remove_participant`. -/
def removeParticipant (room : SFURoom S) (peerId : String) (now : Nat) : SFURoom S × Bool :=
  let peerId := normalizePeerId peerId
  if (room.participants.lookup peerId).isSome then
    (({ room with participants := room.participants.erase peerId }.markUnusedIfEmpty now).forgetSpeaker peerId, true)
  else (room, false)

/-- `subscribe`. -/
def subscribe (room : SFURoom S) (peerId : String) : SFURoom S :=
  let peerId := normalizePeerId peerId
  if (room.participants.lookup peerId).isSome then room
  else { room with subscribers := insert peerId room.subscribers }.markInUse

/-- `unsubscribe`. -/
def unsubscribe (room : SFURoom S) (peerId : String) (now : Nat) : SFURoom S :=
  let peerId := normalizePeerId peerId
  if peerId ∈ room.subscribers then { room with subscribers := room.subscribers.erase peerId }.markUnusedIfEmpty now else room

/-- The room once everything of an identity is taken out of its maps. -/
def without (room : SFURoom S) (p : String) : SFURoom S :=
  { room with
    deviceMembers := retain room.deviceMembers fun key _ => decide (key.1 ≠ p)
    participants := room.participants.erase p
    subscribers := room.subscribers.erase p }

/-- `remove_peer_entirely`. -/
def removePeerEntirely (room : SFURoom S) (peerId : String) (now : Nat) : SFURoom S × Bool :=
  let peerId := normalizePeerId peerId
  let wasParticipant := (room.participants.lookup peerId).isSome
  let wasSubscriber := decide (peerId ∈ room.subscribers)
  let room := if wasParticipant then (room.without peerId).forgetSpeaker peerId else room.without peerId
  let room := if wasParticipant || wasSubscriber then room.markUnusedIfEmpty now else room
  (room, wasParticipant || wasSubscriber)

/-- The devices of an identity that carry an id. -/
def deviceCount (room : SFURoom S) (peerId : String) : Nat :=
  room.deviceMembers.keys.countP fun key => key.1 = peerId ∧ key.2.isSome

/-- Some device of the identity has the flag. -/
def anyDevice (room : SFURoom S) (peerId : String) (flag : DeviceMembership → Bool) : Bool :=
  room.deviceMembers.entries.any fun e => decide (e.1.1 = peerId) && flag e.2

/-- The entry of one endpoint is set, or goes when it has no flag left. -/
def withDevice (room : SFURoom S) (key : String × Option DeviceId) (m : DeviceMembership) : SFURoom S :=
  { room with
    deviceMembers := if m.voice || m.chat then room.deviceMembers.insert key m else room.deviceMembers.erase key }

/-- The end of `set_device_membership`: an identity is in voice, or only in chat, while any of its devices is. -/
def settle (room : SFURoom S) (peerId : String) (now : Nat) : SFURoom S :=
  let voice := room.anyDevice peerId DeviceMembership.voice
  let chat := room.anyDevice peerId DeviceMembership.chat
  let room := if voice then (room.addParticipant peerId).1 else (room.removeParticipant peerId now).1
  if chat && !voice then room.subscribe peerId else room.unsubscribe peerId now

/-- `set_device_membership`. -/
def setDeviceMembership (room : SFURoom S) (peerId : String) (device : Option DeviceId) (voice chat : Option Bool) (now : Nat) :
    SFURoom S × Bool :=
  let peerId := normalizePeerId peerId
  let membership := (room.deviceMembers.lookup (peerId, device)).getD { voice := false, chat := false }
  if voice = some true ∧ (room.participants.lookup peerId).isNone ∧ room.isFull then (room, false)
  else if (room.deviceMembers.lookup (peerId, device)).isNone ∧ device.isSome ∧ maxLiveDeviceRoutes ≤ room.deviceCount peerId then
    (room, false)
  else
    let membership := { voice := voice.getD membership.voice, chat := chat.getD membership.chat }
    ((room.withDevice (peerId, device) membership).settle peerId now, true)

end SFURoom

/-- `SFURoomManager`. -/
structure SFURoomManager (S : Type) where
  rooms : HashMap String (SFURoom S)

namespace SFURoomManager

variable {S : Type}

/-- `SFURoomManager::new`. -/
def new : SFURoomManager S where
  rooms := (∅ : HashMap String (SFURoom S)).insert defaultRoomId (SFURoom.new defaultRoomId defaultRoomName .pub "")

/-- `create_room_with_policy` for the id of the room, given or derived. -/
def createRoomWithPolicy (mgr : SFURoomManager S) (id roomName : String) (roomType : RoomType) (creatorId invitePolicy : String)
    (now : Nat) : SFURoomManager S × Bool :=
  if (mgr.rooms.lookup id).isSome then (mgr, false)
  else
    let room := { SFURoom.new id roomName roomType creatorId with invitePolicy := normalizeInvitePolicy invitePolicy }
    (⟨mgr.rooms.insert id (room.markUnusedIfEmpty now)⟩, true)

/-- `gc_idle_rooms`. -/
def gcIdleRooms (mgr : SFURoomManager S) (now idleSecs : Nat) : SFURoomManager S :=
  ⟨retain mgr.rooms fun roomId room =>
    decide (roomId = defaultRoomId) || decide (room.creatorId = "") ||
      match room.emptySince with
      | none => true
      | some emptySince => decide (now < emptySince + idleSecs)⟩

/-- `allow_peer`. -/
def allowPeer (mgr : SFURoomManager S) (roomId peerId : String) : SFURoomManager S × Bool :=
  match mgr.rooms.lookup roomId with
  | none => (mgr, false)
  | some room => (⟨mgr.rooms.insert roomId (room.allowPeer peerId)⟩, true)

/-- `join_room_endpoint`. -/
def joinRoomEndpoint (mgr : SFURoomManager S) (peerId : String) (device : Option DeviceId) (roomId : String) (now : Nat) :
    SFURoomManager S × Bool × List String :=
  let peerId := normalizePeerId peerId
  match mgr.rooms.lookup roomId with
  | none => (mgr, false, [])
  | some room =>
    if room.isPeerAllowed peerId = false then (mgr, false, [])
    else
      let out := room.setDeviceMembership peerId device (some true) none now
      (⟨mgr.rooms.insert roomId out.1⟩, out.2, out.1.participantIds)

/-- An empty room that nobody created goes at once. -/
def isAnonymousEmpty (room : SFURoom S) (roomId : String) : Bool :=
  room.isUnused && decide (room.creatorId = "") && decide (roomId ≠ defaultRoomId)

/-- `leave_room_endpoint`. -/
def leaveRoomEndpoint (mgr : SFURoomManager S) (peerId : String) (device : Option DeviceId) (roomId : String) (now : Nat) :
    SFURoomManager S × List String :=
  match mgr.rooms.lookup roomId with
  | none => (mgr, [])
  | some room =>
    let room := (room.setDeviceMembership peerId device (some false) none now).1.markUnusedIfEmpty now
    let rooms := if isAnonymousEmpty room roomId then mgr.rooms.erase roomId else mgr.rooms.insert roomId room
    (⟨rooms⟩, room.participantIds)

/-- One room of `remove_peer_from_all`. -/
def removePeerFromRoom (peerId : String) (now : Nat) (acc : SFURoomManager S × List (String × List String)) (roomId : String) :
    SFURoomManager S × List (String × List String) :=
  match acc.1.rooms.lookup roomId with
  | none => acc
  | some room =>
    let out := room.removePeerEntirely peerId now
    if out.2 then
      let rooms := if isAnonymousEmpty out.1 roomId then acc.1.rooms.erase roomId else acc.1.rooms.insert roomId out.1
      (⟨rooms⟩, acc.2 ++ [(roomId, out.1.participantIds)])
    else (⟨acc.1.rooms.insert roomId out.1⟩, acc.2)

/-- `remove_peer_from_all`. -/
def removePeerFromAll (mgr : SFURoomManager S) (peerId : String) (now : Nat) : SFURoomManager S × List (String × List String) :=
  let peerId := normalizePeerId peerId
  let roomIds := (mgr.rooms.entries.filter fun e =>
    (e.2.participants.lookup peerId).isSome || decide (peerId ∈ e.2.subscribers)).map Sigma.fst
  roomIds.foldl (removePeerFromRoom peerId now) (mgr, [])

/-- One room of `remove_endpoint_from_all`. -/
def removeEndpointFromRoom (peerId : String) (device : Option DeviceId) (now : Nat) (room : SFURoom S) : SFURoom S :=
  if (room.deviceMembers.lookup (peerId, device)).isSome then
    (room.setDeviceMembership peerId device (some false) (some false) now).1
  else room

/-- `remove_endpoint_from_all`. -/
def removeEndpointFromAll (mgr : SFURoomManager S) (peerId : String) (device : Option DeviceId) (now : Nat) :
    SFURoomManager S × List String :=
  let peerId := normalizePeerId peerId
  (⟨mapValues mgr.rooms (removeEndpointFromRoom peerId device now)⟩,
    (mgr.rooms.entries.filter fun e => (e.2.deviceMembers.lookup (peerId, device)).isSome).map Sigma.fst)

/-- `subscribe_endpoint`. -/
def subscribeEndpoint (mgr : SFURoomManager S) (peerId : String) (device : Option DeviceId) (roomId : String) (now : Nat) :
    SFURoomManager S × Bool :=
  match mgr.rooms.lookup roomId with
  | none => (mgr, false)
  | some room =>
    if room.isPeerAllowed peerId then
      let out := room.setDeviceMembership peerId device none (some true) now
      (⟨mgr.rooms.insert roomId out.1⟩, out.2)
    else (mgr, false)

/-- `unsubscribe_endpoint`. -/
def unsubscribeEndpoint (mgr : SFURoomManager S) (peerId : String) (device : Option DeviceId) (roomId : String) (now : Nat) :
    SFURoomManager S :=
  match mgr.rooms.lookup roomId with
  | none => mgr
  | some room => ⟨mgr.rooms.insert roomId (room.setDeviceMembership peerId device none (some false) now).1⟩

end SFURoomManager

/-- The calls a node makes on its rooms. -/
inductive RoomCall where
  | create (id roomName : String) (roomType : RoomType) (creatorId invitePolicy : String)
  | allow (roomId peerId : String)
  | gc (idleSecs : Nat)
  | join (peerId : String) (device : Option DeviceId) (roomId : String)
  | leave (peerId : String) (device : Option DeviceId) (roomId : String)
  | subscribe (peerId : String) (device : Option DeviceId) (roomId : String)
  | unsubscribe (peerId : String) (device : Option DeviceId) (roomId : String)
  | removeEndpoint (peerId : String) (device : Option DeviceId)
  | removePeer (peerId : String)

/-- A call at a time: the rooms after it and whether it succeeded. Calls without a result always do. -/
def roomCall {S : Type} (mgr : SFURoomManager S) (now : Nat) : RoomCall → SFURoomManager S × Bool
  | .create id roomName roomType creatorId invitePolicy =>
    ((mgr.createRoomWithPolicy id roomName roomType creatorId invitePolicy now).1, true)
  | .allow roomId peerId => mgr.allowPeer roomId peerId
  | .gc idleSecs => (mgr.gcIdleRooms now idleSecs, true)
  | .join peerId device roomId =>
    let out := mgr.joinRoomEndpoint peerId device roomId now
    (out.1, out.2.1)
  | .leave peerId device roomId => ((mgr.leaveRoomEndpoint peerId device roomId now).1, true)
  | .subscribe peerId device roomId => mgr.subscribeEndpoint peerId device roomId now
  | .unsubscribe peerId device roomId => (mgr.unsubscribeEndpoint peerId device roomId now, true)
  | .removeEndpoint peerId device => ((mgr.removeEndpointFromAll peerId device now).1, true)
  | .removePeer peerId => ((mgr.removePeerFromAll peerId now).1, true)

/-- The rooms after a run of calls, each at its time. -/
def roomCalls {S : Type} (mgr : SFURoomManager S) (calls : List (Nat × RoomCall)) : SFURoomManager S :=
  calls.foldl (fun mgr call => (roomCall mgr call.1 call.2).1) mgr

end DoubleSlash.Sfu
