import DoubleSlash.Lib.Codec
import DoubleSlash.Sfu.Room

/-!
# Invites to SFU rooms

The rest of `SFURoomManager` that decides who may do what in a room: the invite tokens and who mints them, the owner a room takes
from a Space, and what the node asks before it acts for a peer. A token that is drawn is an argument; SHA-256 is a parameter.
-/

namespace DoubleSlash.Sfu

open Assoc Codec Text Tls

/-- `derive_room_id`. -/
def deriveRoomId (sha256 : List UInt8 → List UInt8) (creatorPubId roomName : String) : String :=
  String.ofList ((hexEncode (sha256 (creatorPubId ++ ":" ++ roomName).toUTF8.data.toList)).toList.take 16)

/-- A use of a token whose uses are counted. -/
def InviteToken.used (it : InviteToken) : InviteToken := if 0 < it.maxUses then { it with uses := it.uses + 1 } else it

/-- `max_uses > 0 && uses >= max_uses`. -/
def InviteToken.isSpent (it : InviteToken) : Bool := decide (0 < it.maxUses) && decide (it.maxUses ≤ it.uses)

namespace SFURoom

variable {S : Type}

/-- `is_invite_eligible_member`. -/
def isInviteEligibleMember (room : SFURoom S) (peerId : String) : Bool :=
  let peerId := normalizePeerId peerId
  decide (room.creatorId = peerId) || decide (peerId ∈ room.allowed) || (room.participants.lookup peerId).isSome ||
    decide (peerId ∈ room.subscribers)

/-- `generate_invite_token`, for the token drawn. -/
def generateInviteToken (room : SFURoom S) (token createdBy : String) (maxUses : Nat) : SFURoom S :=
  { room with inviteTokens := room.inviteTokens.insert token { createdBy := createdBy, uses := 0, maxUses := maxUses } }

/-- `reregister_invite_token`: no limit on the uses. -/
def reregisterInviteToken (room : SFURoom S) (token createdBy : String) : SFURoom S × Bool :=
  if token = "" then (room, false)
  else
    ({ room with inviteTokens := room.inviteTokens.insert token { createdBy := createdBy, uses := 0, maxUses := 0 } }, true)

/-- `validate_and_consume_token`. -/
def validateAndConsumeToken (room : SFURoom S) (token peerId : String) : SFURoom S × Bool :=
  match room.inviteTokens.lookup token with
  | none => (room, false)
  | some it =>
    if it.isSpent then (room, false)
    else
      let it := it.used
      let tokens := room.inviteTokens.insert token it
      ({ room with
          allowed := insert (normalizePeerId peerId) room.allowed
          inviteTokens := if it.isSpent then tokens.erase token else tokens }, true)

end SFURoom

/-- `InviteMint`. -/
inductive InviteMint where
  | ok (token : String)
  | roomNotFound
  | notAuthorized
  deriving DecidableEq, Repr

namespace SFURoomManager

variable {S : Type}

/-- The id `create_room_with_policy` gives a room. -/
def resolvedId (sha256 : List UInt8 → List UInt8) (roomId : Option String) (roomName creatorId : String) : String :=
  roomId.getD (deriveRoomId sha256 creatorId roomName)

/-- `is_endpoint_in_voice`. -/
def isEndpointInVoice (mgr : SFURoomManager S) (peerId : String) (device : Option DeviceId) (roomId : String) : Bool :=
  ((mgr.rooms.lookup roomId).bind fun room => room.deviceMembers.lookup (normalizePeerId peerId, device)).any
    DeviceMembership.voice

/-- `is_chat_sender`. -/
def isChatSender (mgr : SFURoomManager S) (roomId peerId : String) : Bool :=
  let peerId := normalizePeerId peerId
  (mgr.rooms.lookup roomId).any fun room => (room.participants.lookup peerId).isSome || decide (peerId ∈ room.subscribers)

/-- `get_room(room_id).is_some_and(|r| r.is_peer_allowed(peer_id))`. -/
def isPeerAllowed (mgr : SFURoomManager S) (roomId peerId : String) : Bool :=
  (mgr.rooms.lookup roomId).any fun room => room.isPeerAllowed peerId

/-- `is_room_authorized_peer`. -/
def isRoomAuthorizedPeer (mgr : SFURoomManager S) (peerId : String) : Bool :=
  (values mgr.rooms).any fun room => room.isInviteEligibleMember peerId

/-- `validate_room_invite`. -/
def validateRoomInvite (mgr : SFURoomManager S) (roomId token peerId : String) : SFURoomManager S × Bool :=
  match mgr.rooms.lookup roomId with
  | none => (mgr, false)
  | some room =>
    let out := room.validateAndConsumeToken token peerId
    (⟨mgr.rooms.insert roomId out.1⟩, out.2)

/-- `adopt_creator_if_empty`. -/
def adoptCreatorIfEmpty (mgr : SFURoomManager S) (roomId ownerPub : String) : SFURoomManager S × Bool :=
  if ownerPub = "" then (mgr, false)
  else match mgr.rooms.lookup roomId with
    | none => (mgr, false)
    | some room =>
      if room.creatorId = "" then (⟨mgr.rooms.insert roomId { room with creatorId := ownerPub }⟩, true) else (mgr, false)

/-- `generate_invite_token`. -/
def generateInviteToken (mgr : SFURoomManager S) (roomId createdBy token : String) : SFURoomManager S × Option String :=
  match mgr.rooms.lookup roomId with
  | none => (mgr, none)
  | some room => (⟨mgr.rooms.insert roomId (room.generateInviteToken token createdBy 1)⟩, some token)

/-- `reregister_invite_token`. -/
def reregisterInviteToken (mgr : SFURoomManager S) (roomId token createdBy : String) : SFURoomManager S × Bool :=
  match mgr.rooms.lookup roomId with
  | none => (mgr, false)
  | some room =>
    let out := room.reregisterInviteToken token createdBy
    (⟨mgr.rooms.insert roomId out.1⟩, out.2)

/-- Who may mint for the room. -/
def mayMint (room : SFURoom S) (requester : String) : Bool :=
  decide (room.creatorId = requester) || (decide (room.invitePolicy = "members") && room.isInviteEligibleMember requester)

/-- `generate_invite_token_checked`. -/
def generateInviteTokenChecked (mgr : SFURoomManager S) (roomId requester token : String) : SFURoomManager S × InviteMint :=
  match mgr.rooms.lookup roomId with
  | none => (mgr, .roomNotFound)
  | some room =>
    if room.creatorId = "" then (mgr, .notAuthorized)
    else if mayMint room requester = false then (mgr, .notAuthorized)
    else (⟨mgr.rooms.insert roomId (room.generateInviteToken token requester 1)⟩, .ok token)

/-- `classify_join_denial`. -/
def classifyJoinDenial (mgr : SFURoomManager S) (peerId roomId : String) : String :=
  match mgr.rooms.lookup roomId with
  | none => "room_absent"
  | some room =>
    if room.isPeerAllowed (normalizePeerId peerId) = false then "not_allowed"
    else if room.isFull then "room_full"
    else "join_failed"

end SFURoomManager

/-! ## Operations for a peer -/

/-- What the node does with its rooms, or asks of them, for a peer. -/
inductive RoomOp where
  | create (roomId : Option String) (roomName : String) (roomType : RoomType) (invitePolicy : String)
  | allow (roomId : String)
  | adopt (roomId : String)
  | mint (roomId token : String)
  | mintChecked (roomId token : String)
  | reregister (roomId token : String)
  | validate (roomId token : String)
  | join (device : Option DeviceId) (roomId : String)
  | leave (device : Option DeviceId) (roomId : String)
  | subscribe (device : Option DeviceId) (roomId : String)
  | unsubscribe (device : Option DeviceId) (roomId : String)
  | removeEndpoint (device : Option DeviceId)
  | removePeer
  | gc (idleSecs : Nat)
  | chatSender (roomId : String)
  | peerAllowed (roomId : String)
  | inVoice (device : Option DeviceId) (roomId : String)

/-- What an operation returns. -/
inductive Answer where
  | done
  | flag (b : Bool)
  | token (t : Option String)
  | minted (m : InviteMint)
  | joined (ok : Bool) (members : List String)
  | ids (ids : List String)
  | removed (rooms : List (String × List String))
  deriving DecidableEq

/-- An operation for a peer at a time: the rooms after it and its answer. -/
def roomOp {S : Type} (sha256 : List UInt8 → List UInt8) (mgr : SFURoomManager S) (now : Nat) (peer : String) :
    RoomOp → SFURoomManager S × Answer
  | .create roomId roomName roomType invitePolicy =>
    let id := SFURoomManager.resolvedId sha256 roomId roomName peer
    let out := mgr.createRoomWithPolicy id roomName roomType peer invitePolicy now
    (out.1, .flag out.2)
  | .allow roomId =>
    let out := mgr.allowPeer roomId peer
    (out.1, .flag out.2)
  | .adopt roomId =>
    let out := mgr.adoptCreatorIfEmpty roomId peer
    (out.1, .flag out.2)
  | .mint roomId token =>
    let out := mgr.generateInviteToken roomId peer token
    (out.1, .token out.2)
  | .mintChecked roomId token =>
    let out := mgr.generateInviteTokenChecked roomId peer token
    (out.1, .minted out.2)
  | .reregister roomId token =>
    let out := mgr.reregisterInviteToken roomId token peer
    (out.1, .flag out.2)
  | .validate roomId token =>
    let out := mgr.validateRoomInvite roomId token peer
    (out.1, .flag out.2)
  | .join device roomId =>
    let out := mgr.joinRoomEndpoint peer device roomId now
    (out.1, .joined out.2.1 out.2.2)
  | .leave device roomId =>
    let out := mgr.leaveRoomEndpoint peer device roomId now
    (out.1, .ids out.2)
  | .subscribe device roomId =>
    let out := mgr.subscribeEndpoint peer device roomId now
    (out.1, .flag out.2)
  | .unsubscribe device roomId => (mgr.unsubscribeEndpoint peer device roomId now, .done)
  | .removeEndpoint device =>
    let out := mgr.removeEndpointFromAll peer device now
    (out.1, .ids out.2)
  | .removePeer =>
    let out := mgr.removePeerFromAll peer now
    (out.1, .removed out.2)
  | .gc idleSecs => (mgr.gcIdleRooms now idleSecs, .done)
  | .chatSender roomId => (mgr, .flag (mgr.isChatSender roomId peer))
  | .peerAllowed roomId => (mgr, .flag (mgr.isPeerAllowed roomId peer))
  | .inVoice device roomId => (mgr, .flag (mgr.isEndpointInVoice peer device roomId))

end DoubleSlash.Sfu
