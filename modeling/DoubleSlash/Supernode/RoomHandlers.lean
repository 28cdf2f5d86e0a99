import DoubleSlash.Protocol.Message
import DoubleSlash.Sfu.Invites
import DoubleSlash.Supernode.SpaceRoots

/-!
# The room handlers of a supernode

`handle_sfu_room_create`, `handle_sfu_room_invite`, `handle_sfu_invite_generate` and `handle_sfu_join` of the supernode's
`main.rs` with `try_space_admission`: what a message does to the rooms and what the sender is answered. What other members are
told, the relay and the gossip to the cluster are left out; so are the chat members and devices in the answer to a join. The
token a handler may draw is an argument.
-/

namespace DoubleSlash.Supernode

open Assoc Codec Protocol Sfu Spaces Text

/-! ## Structs from JSON -/

/-- A field of a struct: by its name in an object, by its position in an array. -/
def structField (v : Json) (pos : Nat) (name : String) : Option Json :=
  match v with
  | .obj fields => fields.lookup name
  | .arr items => items[pos]?
  | _ => none

/-- An object, or an array with no more items than the struct has fields. -/
def isStruct (v : Json) (fields : Nat) : Bool :=
  match v with
  | .obj _ => true
  | .arr items => decide (items.length ≤ fields)
  | _ => false

/-- A `u32`. -/
def asU32 (v : Json) : Option Nat := v.asU64.filter fun n => decide (n < 2 ^ 32)

/-- A field with `#[serde(default)]`. -/
def orDefault {α : Type} (v : Option Json) (read : Json → Option α) (dflt : α) : Option α :=
  match v with
  | none => some dflt
  | some v => read v

/-- `from_value::<SpaceNode>`. -/
def nodeOfJson (v : Json) : Option SpaceNode := do
  if isStruct v 9 = false then none
  let nodeId ← (structField v 0 "node_id").bind Json.asStr
  let parentId ← (structField v 1 "parent_id").bind Json.asStr
  let kind ← (structField v 2 "kind").bind Json.asStr
  let name ← (structField v 3 "name").bind Json.asStr
  let nodeType ← (structField v 4 "node_type").bind Json.asStr
  let ownerPub ← (structField v 5 "owner_pub").bind Json.asStr
  let invitePolicy ← orDefault (structField v 6 "invite_policy") Json.asStr ""
  let inherit ← orDefault (structField v 7 "inherit") Json.asBool false
  let keyCommit ← orDefault (structField v 8 "key_commit") Json.asStr ""
  return { nodeId, parentId, kind, name, nodeType, ownerPub, invitePolicy, inherit, keyCommit }

/-- `from_value::<SpaceInclusionProof>`. -/
def proofOfJson (v : Json) : Option SpaceInclusionProof := do
  if isStruct v 5 = false then none
  let schema ← (structField v 0 "schema").bind asU32
  let node ← (structField v 1 "node").bind nodeOfJson
  let leafIndex ← (structField v 2 "leaf_index").bind asU32
  let items ← (structField v 3 "path").bind Json.asArray
  let path ← items.mapM Json.asStr
  let epoch ← (structField v 4 "epoch").bind Json.asU64
  return { schema, node, leafIndex, path, epoch }

/-- `from_value::<SignedSpaceRoot>`. -/
def rootOfJson (v : Json) : Option SignedSpaceRoot := do
  if isStruct v 8 = false then none
  let schema ← (structField v 0 "schema").bind asU32
  let spaceId ← (structField v 1 "space_id").bind Json.asStr
  let epoch ← (structField v 2 "epoch").bind Json.asU64
  let rootHash ← (structField v 3 "root_hash").bind Json.asStr
  let nodeCount ← (structField v 4 "node_count").bind asU32
  let issuedAt ← (structField v 5 "issued_at").bind Json.asU64
  let signer ← (structField v 6 "signer").bind Json.asStr
  let signature ← orDefault (structField v 7 "signature") Json.asStr ""
  return { schema, spaceId, epoch, rootHash, nodeCount, issuedAt, signer, signature }

/-- `from_value::<SpaceGrant>`. -/
def grantOfJson (v : Json) : Option SpaceGrant := do
  if isStruct v 6 = false then none
  let schema ← (structField v 0 "schema").bind asU32
  let nodeId ← (structField v 1 "node_id").bind Json.asStr
  let epoch ← (structField v 2 "epoch").bind Json.asU64
  let granteePub ← (structField v 3 "grantee_pub").bind Json.asStr
  let expiresAt ← (structField v 4 "expires_at").bind Json.asU64
  let signature ← orDefault (structField v 5 "signature") Json.asStr ""
  return { schema, nodeId, epoch, granteePub, expiresAt, signature }

/-- `from_value::<RoomType>`: the name of a variant, alone or with nothing under it. -/
def roomTypeOfJson : Json → Option RoomType
  | .str "public" => some .pub
  | .str "private" => some .priv
  | .obj [("public", .null)] => some .pub
  | .obj [("private", .null)] => some .priv
  | _ => none

/-- `RoomType` as JSON. -/
def roomTypeToJson : RoomType → Json
  | .pub => .str "public"
  | .priv => .str "private"

/-! ## The node -/

/-- What the handlers take from outside: SHA-256 and Ed25519. -/
structure Primitives (D : Type) where
  hashing : Hashing D
  ed25519Verify : Ed25519

/-- The bytes of a SHA-256 digest. -/
def Primitives.sha256 {D : Type} (P : Primitives D) (message : List UInt8) : List UInt8 :=
  P.hashing.bytes (P.hashing.sha256 message)

/-- `SfuRoomCreationPolicy`. -/
structure SfuRoomCreationPolicy where
  allowPublic : Bool
  allowPrivate : Bool

/-- `deny_reason_for_new_room`. -/
def SfuRoomCreationPolicy.denyReasonForNewRoom (policy : SfuRoomCreationPolicy) (isPublic : Bool) : Option String :=
  if isPublic && !policy.allowPublic then some "public_rooms_disabled"
  else if !isPublic && !policy.allowPrivate then some "private_rooms_disabled"
  else none

/-- `SupernodeState`, of which the room handlers use this much. -/
structure SupernodeState (S : Type) where
  sfu : Option (SFURoomManager S)
  sfuRoomPolicy : SfuRoomCreationPolicy
  spaceRoots : SpaceRootStore

/-- What is signed and sent to a peer. -/
structure Sent where
  recipient : String
  msgType : MessageType
  payload : Payload

section

variable {S D : Type} (P : Primitives D)

/-- `local_allow_room_peer`. -/
def localAllowRoomPeer (st : SupernodeState S) (roomId roomName roomType peer : String) (now : Nat) : SupernodeState S :=
  let rtype : RoomType := if roomType = "public" then .pub else .priv
  { st with
    sfu := st.sfu.map fun sfu =>
      ((sfu.createRoomWithPolicy roomId roomName rtype "" "owner" now).1.allowPeer roomId peer).1 }

/-- The room of a node that is proven to be in a Space: it is there afterwards, and has an owner if it had none. -/
def materializeProven (st : SupernodeState S) (roomId : String) (node : SpaceNode) (now : Nat) : SupernodeState S :=
  let rt : RoomType := if node.nodeType = "private" then .priv else .pub
  { st with
    sfu := st.sfu.map fun sfu =>
      ((sfu.createRoomWithPolicy roomId node.name rt "" node.invitePolicy now).1.adoptCreatorIfEmpty roomId node.ownerPub).1 }

/-- `try_space_admission`. -/
def trySpaceAdmission (st : SupernodeState S) (sender roomId : String) (payload : Payload) (now : Nat) : SupernodeState S × Bool :=
  match (payload.get "space_proof").bind proofOfJson with
  | none => (st, false)
  | some proof =>
    if proof.node.nodeId ≠ roomId then (st, false)
    else match (payload.get "space_root").bind rootOfJson with
      | none => (st, false)
      | some carried =>
        let st := { st with spaceRoots := (st.spaceRoots.accept P.ed25519Verify carried).1 }
        match st.spaceRoots.roots.lookup carried.spaceId with
        | none => (st, false)
        | some root =>
          if proof.verifyAgainst P.hashing root = false then (st, false)
          else
            let st := materializeProven st roomId proof.node now
            let grant := (payload.get "space_grant").bind grantOfJson
            if spaceAdmissionOk P.hashing P.ed25519Verify root proof grant sender roomId now = false then (st, false)
            else
              let rtype := if proof.node.nodeType = "private" then "private" else "public"
              (localAllowRoomPeer st roomId proof.node.name rtype sender now, true)

/-- `payload.get("invite_token")` when it is a text that is not empty. -/
def inviteTokenOf (payload : Payload) : Option String :=
  ((payload.get "invite_token").bind Json.asStr).filter fun t => decide (t ≠ "")

/-- The creator on record of a room, empty when there is none. -/
def roomCreator (sfu : SFURoomManager S) (roomId : String) : String :=
  ((sfu.rooms.lookup roomId).map SFURoom.creatorId).getD ""

/-- `creator_id` of a create: what the payload claims, or the sender. -/
def claimedCreator (msg : SignalingMessage) : String :=
  (((msg.payload.get "creator_id").bind Json.asStr).filter fun s => decide (s ≠ "")).getD msg.sender

/-- `room_type` of a create. -/
def claimedType (msg : SignalingMessage) : RoomType :=
  ((msg.payload.get "room_type").bind roomTypeOfJson).getD .pub

/-- The id of the room a create is about. -/
def createdId (msg : SignalingMessage) : String :=
  SFURoomManager.resolvedId P.sha256 ((msg.payload.get "room_id").bind Json.asStr) (msg.payload.strOr "room_name" "Room")
    (claimedCreator msg)

/-- The admission of `handle_sfu_room_create` to a room claimed to be private: the rooms and the token of the answer. -/
def admitToPrivate (sfu : SFURoomManager S) (msg : SignalingMessage) (roomId roomCreator : String) (createdNew : Bool)
    (drawn : String) : SFURoomManager S × Option String :=
  let isCreator := decide (msg.sender = roomCreator) || decide (msg.sender = claimedCreator msg)
  let createdBy := if roomCreator = "" then claimedCreator msg else roomCreator
  let seeded := (inviteTokenOf msg.payload).map fun tok => (tok, sfu.reregisterInviteToken roomId tok createdBy)
  match seeded with
  | some (tok, (sfu, true)) => ((sfu.allowPeer roomId msg.sender).1, some tok)
  | _ =>
    if isCreator || createdNew then
      let sfu := (sfu.allowPeer roomId msg.sender).1
      if createdNew then sfu.generateInviteToken roomId (claimedCreator msg) drawn else (sfu, none)
    else (sfu, none)

/-- An optional text as JSON. -/
def optionToJson (s : Option String) : Json :=
  match s with
  | none => .null
  | some s => .str s

/-- `handle_sfu_room_create`. -/
def handleSfuRoomCreate (st : SupernodeState S) (msg : SignalingMessage) (now : Nat) (drawn : String) :
    SupernodeState S × List Sent :=
  match st.sfu with
  | none => (st, [])
  | some sfu =>
    let roomName := msg.payload.strOr "room_name" "Room"
    let roomType := claimedType msg
    let id := createdId P msg
    let denied :=
      if (sfu.rooms.lookup id).isNone ∧ id ≠ defaultRoomId then
        st.sfuRoomPolicy.denyReasonForNewRoom (decide (roomType = .pub))
      else none
    match denied with
    | some reason =>
      (st, [⟨msg.sender, .sfuRoomCreated,
        [("room_id", .str ""), ("room_name", .str roomName), ("room_type", roomTypeToJson roomType), ("denied", .bool true),
          ("reason", .str reason)]⟩])
    | none =>
      let out := sfu.createRoomWithPolicy id roomName roomType (claimedCreator msg)
        (msg.payload.strOr "invite_policy" "owner") now
      let nameOut := ((out.1.rooms.lookup id).map SFURoom.roomName).getD ""
      let admitted :=
        if roomType = .priv then admitToPrivate out.1 msg id (roomCreator out.1 id) out.2 drawn else (out.1, none)
      ({ st with sfu := some admitted.1 }, [⟨msg.sender, .sfuRoomCreated,
        [("room_id", .str id), ("room_name", .str nameOut), ("room_type", roomTypeToJson roomType),
          ("invite_token", optionToJson admitted.2)]⟩])

/-- A token presented with a message is registered for the room before anything is asked of it. -/
def reseed (sfu : SFURoomManager S) (sender roomId token : String) : SFURoomManager S × Bool :=
  let creator := roomCreator sfu roomId
  sfu.reregisterInviteToken roomId token (if creator = "" then sender else creator)

/-- `handle_sfu_room_invite`. -/
def handleSfuRoomInvite (st : SupernodeState S) (msg : SignalingMessage) (now : Nat) : SupernodeState S × List Sent :=
  match st.sfu with
  | none => (st, [])
  | some sfu =>
    let roomId := msg.payload.strOr "room_id" ""
    let token := msg.payload.strOr "invite_token" ""
    let alreadyMember := sfu.isPeerAllowed roomId msg.sender
    let proven := trySpaceAdmission P st msg.sender roomId msg.payload now
    let sfu := proven.1.sfu.getD sfu
    let tried :=
      if proven.2 = false ∧ token ≠ "" then
        (reseed sfu msg.sender roomId token).1.validateRoomInvite roomId token msg.sender
      else (sfu, false)
    let valid := proven.2 || tried.2 || alreadyMember
    let replies :=
      match tried.1.rooms.lookup roomId with
      | none => []
      | some room =>
        [⟨msg.sender, .sfuRoomInviteResult,
          [("room_id", .str roomId), ("accepted", .bool valid), ("room_name", .str room.roomName),
            ("room_type", roomTypeToJson room.roomType), ("member_count", .int room.participants.entries.length),
            ("reason", .str (if valid then "" else "invalid_token"))]⟩]
    ({ proven.1 with sfu := some tried.1 }, replies)

/-- `handle_sfu_invite_generate`. -/
def handleSfuInviteGenerate (st : SupernodeState S) (msg : SignalingMessage) (drawn : String) : SupernodeState S × List Sent :=
  match st.sfu with
  | none => (st, [])
  | some sfu =>
    let roomId := msg.payload.strOr "room_id" ""
    let out := sfu.generateInviteTokenChecked roomId msg.sender drawn
    let payload : Payload :=
      match out.2 with
      | .ok token => [("room_id", .str roomId), ("accepted", .bool true), ("invite_token", .str token)]
      | .notAuthorized => [("room_id", .str roomId), ("accepted", .bool false), ("reason", .str "not_room_creator")]
      | .roomNotFound => [("room_id", .str roomId), ("accepted", .bool false), ("reason", .str "room_not_found")]
    ({ st with sfu := some out.1 }, [⟨msg.sender, .sfuRoomInviteResult, payload⟩])

/-- `handle_sfu_join`. -/
def handleSfuJoin (st : SupernodeState S) (msg : SignalingMessage) (now : Nat) : SupernodeState S × List Sent :=
  match st.sfu with
  | none => (st, [])
  | some sfu =>
    let roomId := msg.payload.strOr "room_id" defaultRoomId
    let st := (trySpaceAdmission P st msg.sender roomId msg.payload now).1
    let sfu := st.sfu.getD sfu
    let sfu :=
      match inviteTokenOf msg.payload with
      | none => sfu
      | some token =>
        let seeded := reseed sfu msg.sender roomId token
        if seeded.2 then (seeded.1.allowPeer roomId msg.sender).1 else seeded.1
    let out := sfu.joinRoomEndpoint msg.sender msg.sourceDevice roomId now
    let reply : Sent :=
      if out.2.1 then
        ⟨msg.sender, .sfuMembers, [("room_id", .str roomId), ("members", .arr (out.2.2.map .str))]⟩
      else
        ⟨msg.sender, .sfuJoinResult,
          [("room_id", .str roomId), ("accepted", .bool false), ("reason", .str (out.1.classifyJoinDenial msg.sender roomId))]⟩
    ({ st with sfu := some out.1 }, [reply])

/-- The rooms that are idle go. -/
def gcRooms (st : SupernodeState S) (now idleSecs : Nat) : SupernodeState S :=
  { st with sfu := st.sfu.map fun sfu => sfu.gcIdleRooms now idleSecs }

/-- What happens on the node: a message comes in at a time, with the token that would be drawn, or the rooms are collected. -/
inductive RoomEvent where
  | message (now : Nat) (drawn : String) (msg : SignalingMessage)
  | gc (now idleSecs : Nat)

/-- The node after an event and what it answers. -/
def roomEvent (st : SupernodeState S) : RoomEvent → SupernodeState S × List Sent
  | .message now drawn msg =>
    match msg.msgType with
    | .sfuRoomCreate => handleSfuRoomCreate P st msg now drawn
    | .sfuRoomInvite => handleSfuRoomInvite P st msg now
    | .sfuRoomInviteGenerate => handleSfuInviteGenerate st msg drawn
    | .sfuJoin => handleSfuJoin P st msg now
    | _ => (st, [])
  | .gc now idleSecs => (gcRooms st now idleSecs, [])

end

end DoubleSlash.Supernode
