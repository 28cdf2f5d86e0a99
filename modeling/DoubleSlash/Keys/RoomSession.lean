import DoubleSlash.Keys.Election
import DoubleSlash.Keys.OwnRounds
import DoubleSlash.Lib.SetMap

/-!
# The rooms of a client and their keys

`room_session.rs` and the room messages of `inbound.rs`: what a client keeps of the rooms it is in, how it keys them, what its timers
send, and how it leaves. Sealing to a member succeeds or fails by a parameter; the routes to supernodes, the keys and the challenges
that are drawn are inputs. A set is gone through in the order of its names. Times are in nanoseconds.
-/

namespace DoubleSlash.Keys

open Assoc Protocol SetMap Text Tls

/-- `Duration::from_millis`. -/
def millis (n : Nat) : Nat := n * 1000000

/-- `GROUP_KEY_RETRY_INTERVAL_MS`. -/
def groupKeyRetryInterval : Nat := millis 750

/-- `GROUP_KEY_MAX_ATTEMPTS`. -/
def groupKeyMaxAttempts : Nat := 16

/-- `ROOM_JOIN_MAX_ATTEMPTS`. -/
def roomJoinMaxAttempts : Nat := 8

/-- `group_key_request_backoff`: `GROUP_KEY_REQUEST_BASE_MS`, doubled, up to `GROUP_KEY_REQUEST_MAX_MS`. -/
def groupKeyRequestBackoff (attempts : Nat) : Nat := millis (min (3000 * 2 ^ min attempts 16) 60000)

/-- The delay of `retry_pending_room_joins`: `ROOM_JOIN_RETRY_BASE_MS`, doubled, up to `ROOM_JOIN_RETRY_MAX_MS`. -/
def roomJoinDelay (attempts : Nat) : Nat := millis (min (500 * 2 ^ attempts) 8000)

/-- `should_reseal_to_lagging_member`. -/
def shouldResealToLaggingMember (memberEpoch roomEpoch : UInt8) (epochAge : Nat) : Bool :=
  let behind := roomEpoch - memberEpoch
  behind != 0 && decide (behind ≤ maxEpochAdvance) && decide (groupKeyRetryInterval * groupKeyMaxAttempts ≤ epochAge)

/-- `should_mint_first_room_key`. -/
def shouldMintFirstRoomKey (isElected hasRealKey : Bool) (otherMemberCount : Nat) : Bool :=
  isElected && !hasRealKey && decide (0 < otherMemberCount)

/-- `room_scope_key`. -/
def roomScopeKey (supernodeId roomId : String) : String := supernodeId ++ (":" ++ roomId)

/-- `key.ends_with(&format!(":{room_id}"))`. -/
def isScopeOf (roomId scope : String) : Bool := (":" ++ roomId).toList.isSuffixOf scope.toList

/-- `union_members_for_room`. -/
def unionMembersForRoom (snapshots : HashMap String (Finset String)) (roomId : String) : Finset String :=
  (snapshots.entries.filter fun e => isScopeOf roomId e.1).foldr (fun e union => e.2 ∪ union) ∅

/-- `PendingGroupKeyAck`. -/
structure PendingGroupKeyAck where
  epoch : UInt8
  lastSent : Nat
  attempts : Nat

/-- `GroupKeyRequest`. -/
structure GroupKeyRequest where
  lastSent : Nat
  attempts : Nat

/-- `PendingRoomJoinRetry`. -/
structure PendingRoomJoinRetry where
  lastSent : Nat
  attempts : Nat

/-- What a client sends for a room. A group key, a request for one and an ack are sealed to the member they name. -/
inductive RoomSend where
  | groupKey (roomId member : String) (epoch : UInt8) (key : List UInt8)
  | groupKeyRequest (roomId keyer : String)
  | groupKeyAck (roomId keyer : String) (epoch : UInt8)
  | ownKey (message : SignalingMessage)
  | join (route roomId : String)
  | leave (route roomId : String)
  | subscribe (route roomId : String)

/-- The parts of `ConnectionManager` that rooms and their keys are in. -/
structure RoomSession extends RoomKeyDevice where
  roomGroupMembers : HashMap String (Finset String)
  roomVoiceMembers : HashMap String (Finset String)
  pendingGroupKeyAcks : HashMap (String × String) PendingGroupKeyAck
  groupKeyRequests : HashMap String GroupKeyRequest
  pendingRoomJoinRetries : HashMap (String × String) PendingRoomJoinRetry
  chatActiveRooms : Finset String
  failoverPendingRoom : Option String
  currentRoomId : String
  currentSupernodeId : String

/-- The supernodes a client has sessions with, and where a message to one goes: `resolve_supernode_ws_target` and
`connected_cluster_sessions`. -/
structure RoomRoutes where
  supernodes : String → Bool
  resolveSupernodeWsTarget : String → Option String
  connectedClusterSessions : String → List String

/-- `live_room_route`. -/
def RoomRoutes.liveRoomRoute (routes : RoomRoutes) (supernodeId : String) : String :=
  (routes.resolveSupernodeWsTarget supernodeId).getD supernodeId

/-- What a client cannot choose: the hashes, and whether a message can be sealed to an identity. -/
structure RoomSealing where
  hashing : RoomHashing
  seals : String → Bool

namespace RoomSession

variable (c : RoomSealing)

/-- `epoch_key`. -/
def epochKey (s : RoomSession) (roomId : String) (epoch : UInt8) : Option (List UInt8) :=
  s.groupKeys.epochKey c.hashing.deterministicRoomKey roomId epoch

/-- The members of a room that every node together has. -/
def union (s : RoomSession) (roomId : String) : Finset String := unionMembersForRoom s.roomGroupMembers roomId

/-- The keyer of a room is this identity, and this device of it, whose own devices have settled on a key. -/
def actsAsKeyer (s : RoomSession) (roomId : String) : Bool :=
  isElectedKeyer (inOrder (s.union roomId) ++ [s.publicId]) s.publicId &&
    s.electedRoomDevice roomId s.publicId s.deviceId && s.ownRoomKeyReady roomId

/-- `pending_group_key_acks.retain(|(r, _), _| r != room_id)`. -/
def dropAcks (s : RoomSession) (roomId : String) : RoomSession :=
  { s with pendingGroupKeyAcks := retain s.pendingGroupKeyAcks fun key _ => decide (key.1 ≠ roomId) }

def dropRequest (s : RoomSession) (roomId : String) : RoomSession :=
  { s with groupKeyRequests := s.groupKeyRequests.erase roomId }

/-! ### Keys that are handed out -/

/-- A key to one member, and what is kept of it. -/
def sendGroupKey (now : Nat) (roomId : String) (epoch : UInt8) (key : List UInt8) (acc : RoomSession × List RoomSend)
    (member : String) : RoomSession × List RoomSend :=
  if c.seals member then
    let attempts := ((acc.1.pendingGroupKeyAcks.lookup (roomId, member)).map fun p => min (p.attempts + 1) 255).getD 1
    ({ acc.1 with
        pendingGroupKeyAcks := acc.1.pendingGroupKeyAcks.insert (roomId, member) { epoch, lastSent := now, attempts } },
      acc.2 ++ [.groupKey roomId member epoch key])
  else acc

/-- `distribute_group_key`. -/
def distributeGroupKey (s : RoomSession) (now : Nat) (roomId : String) (epoch : UInt8) (key : List UInt8) (members : List String) :
    RoomSession × List RoomSend :=
  members.foldl (sendGroupKey c now roomId epoch key) (s, [])

/-- The member of a room with the identity of a sender, in the spelling of the room. -/
def memberOf (s : RoomSession) (roomId sender : String) : Option String :=
  (inOrder (s.union roomId)).find? fun m => sameIdentity m sender

/-- The current epoch for one member, unless it is under way to that member. -/
def sealCurrentEpoch (s : RoomSession) (now : Nat) (roomId member : String) : RoomSession × List RoomSend :=
  let epoch := s.groupKeys.currentEpoch roomId
  if (s.pendingGroupKeyAcks.lookup (roomId, member)).any fun p => p.epoch == epoch then (s, [])
  else
    match s.epochKey c roomId epoch with
    | none => (s, [])
    | some key =>
      { s with pendingGroupKeyAcks := s.pendingGroupKeyAcks.erase (roomId, member) }.distributeGroupKey c now roomId epoch key
        [member]

/-- `serve_group_key_request`. -/
def serveGroupKeyRequest (s : RoomSession) (now : Nat) (roomId sender : String) : RoomSession × List RoomSend :=
  match s.memberOf roomId sender with
  | none => (s, [])
  | some member =>
    if !s.actsAsKeyer roomId then (s, [])
    else if !s.groupKeys.hasRealKey roomId then (s, [])
    else s.sealCurrentEpoch c now roomId member

/-- `reseal_to_lagging_member`. -/
def resealToLaggingMember (s : RoomSession) (now : Nat) (roomId sender : String) (senderEpoch : UInt8) :
    RoomSession × List RoomSend :=
  match s.groupKeys.currentEpochAge now roomId with
  | none => (s, [])
  | some age =>
    if !shouldResealToLaggingMember senderEpoch (s.groupKeys.currentEpoch roomId) age then (s, [])
    else
      match s.memberOf roomId sender with
      | none => (s, [])
      | some member => if !s.actsAsKeyer roomId then (s, []) else s.sealCurrentEpoch c now roomId member

/-- `rekey_room_if_behind`, with the key it would draw. -/
def rekeyRoomIfBehind (s : RoomSession) (now : Nat) (roomId : String) (key : List UInt8) : RoomSession × List RoomSend :=
  if !s.groupKeys.isBehind roomId then (s, [])
  else if !s.actsAsKeyer roomId then (s, [])
  else if s.union roomId = ∅ then (s, [])
  else
    let (groupKeys, epoch) := s.groupKeys.rotate now roomId key
    ({ s with groupKeys }.dropAcks roomId).distributeGroupKey c now roomId epoch key (inOrder (s.union roomId))

/-! ### Keys that are asked for -/

/-- The attempts of the next request for a room, none while the last one is too recent. -/
def nextAttempt (s : RoomSession) (now : Nat) (roomId : String) : Option Nat :=
  match s.groupKeyRequests.lookup roomId with
  | none => some 0
  | some req => if now - req.lastSent < groupKeyRequestBackoff req.attempts then none else some (req.attempts + 1)

/-- The own devices of the keyer are asked again. -/
def askOwnDevices (s : RoomSession) (now : Nat) (roomId : String) (attempts : Nat) (challenge : List UInt8) :
    RoomSession × List RoomSend :=
  let opened := s.reopenOwnRoomKeyRound roomId challenge
  if !opened.2 then ({ s with toRoomKeyDevice := opened.1 }, [])
  else
    let asked := opened.1.requestOwnRoomKey now roomId
    ({ s with
        toRoomKeyDevice := asked.1
        groupKeyRequests := s.groupKeyRequests.insert roomId { lastSent := now, attempts } }, asked.2.map RoomSend.ownKey)

/-- The keyer is asked. -/
def askKeyer (s : RoomSession) (now : Nat) (roomId keyer : String) (attempts : Nat) : RoomSession × List RoomSend :=
  if c.seals keyer then
    ({ s with groupKeyRequests := s.groupKeyRequests.insert roomId { lastSent := now, attempts } },
      [.groupKeyRequest roomId keyer])
  else (s, [])

/-- `request_group_key`, with the challenge it would draw. -/
def requestGroupKey (s : RoomSession) (now : Nat) (roomId : String) (challenge : List UInt8) : RoomSession × List RoomSend :=
  if s.groupKeys.hasRealKey roomId && !s.groupKeys.isBehind roomId then (s.dropRequest roomId, [])
  else if s.union roomId = ∅ then (s.dropRequest roomId, [])
  else
    let present := inOrder (s.union roomId) ++ [s.publicId]
    match electedKeyerFor present with
    | none => (s, [])
    | some keyer =>
      let ownIdentityKeys := sameIdentity keyer s.publicId
      if ownIdentityKeys && (s.electedRoomDevice roomId s.publicId s.deviceId ||
          !present.any fun m => !sameIdentity m s.publicId) then
        (s.dropRequest roomId, [])
      else
        match s.nextAttempt now roomId with
        | none => (s, [])
        | some attempts =>
          if ownIdentityKeys then s.askOwnDevices now roomId attempts challenge else s.askKeyer c now roomId keyer attempts

/-! ### Timers -/

/-- The rooms that snapshots are kept of, sorted and without repeats. -/
def snapshotRooms (s : RoomSession) : List String :=
  inOrder ((s.roomGroupMembers.keys.filterMap fun key => (splitOnce ':' key).map Prod.snd).toFinset)

/-- `retry_group_key_requests`, with the challenge that a request for a room would draw. -/
def retryGroupKeyRequests (s : RoomSession) (now : Nat) (challenge : String → List UInt8) : RoomSession × List RoomSend :=
  let rooms := s.snapshotRooms
  let s := { s with groupKeyRequests := retain s.groupKeyRequests fun room _ => rooms.contains room }
  rooms.foldl (fun acc room =>
    let out := acc.1.requestGroupKey c now room (challenge room)
    (out.1, acc.2 ++ out.2)) (s, [])

/-- The member is to be given up on: it left, somebody else keys the room, or it was tried often enough. -/
def givesUp (s : RoomSession) (key : String × String) (pending : PendingGroupKeyAck) : Bool :=
  !decide (key.2 ∈ s.union key.1) || !s.actsAsKeyer key.1 || decide (groupKeyMaxAttempts ≤ pending.attempts)

/-- One key that is sealed again. -/
def resealPending (now : Nat) (acc : RoomSession × List RoomSend) (retry : (String × String) × UInt8) : RoomSession × List RoomSend :=
  match acc.1.epochKey c retry.1.1 retry.2 with
  | none => ({ acc.1 with pendingGroupKeyAcks := acc.1.pendingGroupKeyAcks.erase retry.1 }, acc.2)
  | some key =>
    let out := acc.1.distributeGroupKey c now retry.1.1 retry.2 key [retry.1.2]
    (out.1, acc.2 ++ out.2)

/-- `retry_pending_group_keys`. -/
def retryPendingGroupKeys (s : RoomSession) (now : Nat) : RoomSession × List RoomSend :=
  let retries := s.pendingGroupKeyAcks.entries.filter fun e =>
    !s.givesUp e.1 e.2 && decide (groupKeyRetryInterval ≤ now - e.2.lastSent)
  let kept := { s with pendingGroupKeyAcks := retain s.pendingGroupKeyAcks fun key pending => !s.givesUp key pending }
  (retries.map fun e => (e.1, e.2.epoch)).foldl (resealPending c now) (kept, [])

/-- `send_room_join`. -/
def sendRoomJoin (s : RoomSession) (routes : RoomRoutes) (supernodeId roomId : String) : RoomSession × List RoomSend :=
  let route := routes.liveRoomRoute supernodeId
  let s := if s.currentRoomId = roomId ∨ s.currentRoomId = "" then
      { s with currentSupernodeId := route, currentRoomId := roomId } else s
  (s, [.join route roomId])

/-- One join that is sent again. -/
def resendJoin (routes : RoomRoutes) (now : Nat) (acc : RoomSession × List RoomSend) (key : String × String) :
    RoomSession × List RoomSend :=
  let s := { acc.1 with
    pendingRoomJoinRetries := modify acc.1.pendingRoomJoinRetries key fun p => { lastSent := now, attempts := p.attempts + 1 } }
  let out := s.sendRoomJoin routes key.1 key.2
  (out.1, acc.2 ++ out.2)

/-- `retry_pending_room_joins`. -/
def retryPendingRoomJoins (s : RoomSession) (routes : RoomRoutes) (now : Nat) : RoomSession × List RoomSend :=
  let live (key : String × String) (p : PendingRoomJoinRetry) : Bool :=
    routes.supernodes key.1 && decide (p.attempts < roomJoinMaxAttempts)
  let due := s.pendingRoomJoinRetries.entries.filter fun e =>
    live e.1 e.2 && decide (roomJoinDelay e.2.attempts ≤ now - e.2.lastSent)
  (due.map Sigma.fst).foldl (resendJoin routes now) ({ s with pendingRoomJoinRetries := retain s.pendingRoomJoinRetries live }, [])

/-! ### Rosters -/

/-- What the elected keyer does when the members of a room changed: it mints a first key, rotates when somebody left, or hands the
current key to who joined. -/
def keyRoom (s : RoomSession) (now : Nat) (roomId : String) (unionOld : Finset String) (key : List UInt8) :
    RoomSession × List RoomSend :=
  let unionNew := s.union roomId
  let departed := inOrder (unionOld \ unionNew)
  let added := inOrder (unionNew \ unionOld)
  let s := { s with
    pendingGroupKeyAcks := retain s.pendingGroupKeyAcks fun key _ => decide (key.1 ≠ roomId) || decide (key.2 ∈ unionNew) }
  let hasReal := s.groupKeys.hasRealKey roomId
  if shouldMintFirstRoomKey true hasReal unionNew.card then
    let (groupKeys, epoch) := s.groupKeys.newOwnerEpoch now roomId key
    { s with groupKeys }.distributeGroupKey c now roomId epoch key (inOrder unionNew)
  else if hasReal && !departed.isEmpty then
    let (groupKeys, epoch) := s.groupKeys.rotate now roomId key
    ({ s with groupKeys }.dropAcks roomId).distributeGroupKey c now roomId epoch key (inOrder unionNew)
  else if hasReal && !added.isEmpty then
    let epoch := s.groupKeys.currentEpoch roomId
    match s.epochKey c roomId epoch with
    | none => (s, [])
    | some key => s.distributeGroupKey c now roomId epoch key added
  else (s, [])

/-- `sync_room_membership`, with the key and the challenge it would draw. -/
def syncRoomMembership (s : RoomSession) (now : Nat) (supernodeId roomId : String) (members : List String)
    (key challenge : List UInt8) : RoomSession × List RoomSend :=
  let unionOld := s.union roomId
  let hasSibling := s.deviceId.isSome && decide (1 < (s.roomDevices roomId s.publicId).length)
  let nodeNew := (members.filter fun m => m != s.publicId || hasSibling).toFinset
  let s := { s with roomGroupMembers := s.roomGroupMembers.insert (roomScopeKey supernodeId roomId) nodeNew }
  let asked := s.requestOwnRoomKey now roomId
  let s := { s with toRoomKeyDevice := asked.1 }
  let out :=
    if !s.actsAsKeyer roomId then (s.dropAcks roomId).requestGroupKey c now roomId challenge
    else s.keyRoom c now roomId unionOld key
  (out.1, asked.2.map RoomSend.ownKey ++ out.2)

/-- `apply_room_rosters`. -/
def applyRoomRosters (s : RoomSession) (now : Nat) (supernodeId roomId : String) (members chatMembers : List String)
    (key challenge : List UInt8) : RoomSession × List RoomSend :=
  let voice := (members.filter fun m => !sameIdentity m s.publicId).toFinset
  { s with roomVoiceMembers := s.roomVoiceMembers.insert (roomScopeKey supernodeId roomId) voice }.syncRoomMembership c now supernodeId
    roomId chatMembers key challenge

/-- The snapshot of one node, with this identity. -/
def snapshotWithMe (s : RoomSession) (supernodeId roomId : String) : Finset String :=
  insert s.publicId (members s.roomGroupMembers (roomScopeKey supernodeId roomId))

/-- `apply_room_peer_joined`. -/
def applyRoomPeerJoined (s : RoomSession) (now : Nat) (supernodeId roomId peerId : String) (key challenge : List UInt8) :
    RoomSession × List RoomSend :=
  let out := s.syncRoomMembership c now supernodeId roomId (inOrder (insert peerId (s.snapshotWithMe supernodeId roomId))) key challenge
  if sameIdentity peerId s.publicId then out
  else ({ out.1 with roomVoiceMembers := add out.1.roomVoiceMembers (roomScopeKey supernodeId roomId) peerId }, out.2)

/-- `SfuPeerLeft`. -/
def onSfuPeerLeft (s : RoomSession) (now : Nat) (supernodeId roomId peerId : String) (key challenge : List UInt8) :
    RoomSession × List RoomSend :=
  s.syncRoomMembership c now supernodeId roomId (inOrder ((s.snapshotWithMe supernodeId roomId).erase peerId)) key challenge

/-- With device routing, a roster counts for the room that is joined, chatted in or failing over, from a supernode with a session. -/
def rosterCounts (s : RoomSession) (routes : RoomRoutes) (supernodeId roomId : String) : Bool :=
  s.deviceId.isNone ||
    ((s.currentRoomId == roomId || decide (∃ scope ∈ s.chatActiveRooms, isScopeOf roomId scope = true) ||
        s.failoverPendingRoom == some roomId) && (routes.resolveSupernodeWsTarget supernodeId).isSome)

/-- `SfuMembers`, with the rosters it carries. -/
def onSfuMembers (s : RoomSession) (now : Nat) (routes : RoomRoutes) (supernodeId roomId : String) (members chatMembers : List String)
    (devices : Option Json) (key challenge : List UInt8) : RoomSession × List RoomSend :=
  if !s.rosterCounts routes supernodeId roomId then (s, [])
  else
    let recorded := s.recordRoomDevices c.hashing supernodeId roomId devices challenge
    let s := { s with toRoomKeyDevice := recorded.1 }
    if !recorded.2 then (s, [])
    else
      let s := { s with pendingRoomJoinRetries := retain s.pendingRoomJoinRetries fun key _ => decide (key.2 ≠ roomId) }
      let s := if s.failoverPendingRoom = some roomId then
          { s with failoverPendingRoom := none, currentSupernodeId := supernodeId, currentRoomId := roomId } else s
      s.applyRoomRosters c now supernodeId roomId members chatMembers key challenge

/-! ### Messages about keys -/

/-- `accept_group_key_from`. -/
def acceptGroupKeyFrom (s : RoomSession) (sender : String) (device : Option DeviceId) (roomId : String) (epoch : UInt8) : Bool :=
  let present := inOrder (s.union roomId) ++ [s.publicId]
  let present := if present.contains sender then present else present ++ [sender]
  s.electedRoomDevice roomId sender device && isElectedKeyer present sender &&
    acceptGroupKeyEpoch (s.groupKeys.hasRealKey roomId) (s.groupKeys.currentEpoch roomId) epoch

/-- `SfuGroupKey`, for a key that decodes. -/
def onSfuGroupKey (s : RoomSession) (now : Nat) (sender : String) (device : Option DeviceId) (roomId : String) (epoch : UInt8)
    (key : List UInt8) : RoomSession × List RoomSend :=
  if roomId = "" ∨ s.acceptGroupKeyFrom sender device roomId epoch = false then (s, [])
  else
    ({ s with groupKeys := s.groupKeys.install now roomId epoch key }.dropRequest roomId,
      if c.seals sender then [.groupKeyAck roomId sender epoch] else [])

/-- `SfuGroupKeyAck`. -/
def onSfuGroupKeyAck (s : RoomSession) (sender roomId : String) (epoch : UInt8) : RoomSession :=
  if (s.pendingGroupKeyAcks.lookup (roomId, sender)).any fun p => p.epoch == epoch then
    { s with pendingGroupKeyAcks := s.pendingGroupKeyAcks.erase (roomId, sender) }
  else s

/-- The room of a reply that a round takes: what `handle_own_room_key_sync` goes on from to its end. -/
def heardReply (s : RoomSession) (message : SignalingMessage) : Option String :=
  (s.syncRound message).bind fun found =>
    if found.2.2.2 = found.2.1.challenge ∧ (message.payload.get "request").bind Json.asBool = some false ∧
        ((RoomKeyDevice.readReply message.payload).any fun reply => !s.disagrees c.hashing found.1 reply) = true then
      some found.1
    else none

/-- The first snapshot of a room: its node and its members. -/
def firstSnapshot (s : RoomSession) (roomId : String) : Option (String × Finset String) :=
  (s.roomGroupMembers.entries.find? fun e => isScopeOf roomId e.1).map fun e =>
    (String.ofList (e.1.toList.take (e.1.toList.length - (":" ++ roomId).toList.length)), e.2)

/-- `SfuDeviceKeySync`. -/
def onSfuDeviceKeySync (s : RoomSession) (now : Nat) (message : SignalingMessage) (key challenge : List UInt8) :
    RoomSession × List RoomSend :=
  let handled := s.handleOwnRoomKeySync c.hashing now message
  let sent := handled.2.map RoomSend.ownKey
  match s.heardReply c message with
  | none => ({ s with toRoomKeyDevice := handled.1 }, sent)
  | some roomId =>
    match s.firstSnapshot roomId with
    | none => ({ s with toRoomKeyDevice := handled.1 }, sent)
    | some (host, members) =>
      let out := { s with toRoomKeyDevice := handled.1 }.syncRoomMembership c now host roomId (inOrder members ++ [s.publicId]) key
        challenge
      (out.1, sent ++ out.2)

/-- `on_unopenable_room_frame`. -/
def onUnopenableRoomFrame (s : RoomSession) (now : Nat) (roomId sender : String) (epoch : UInt8) (key challenge : List UInt8) :
    RoomSession × List RoomSend :=
  let noted := { s with groupKeys := s.groupKeys.noteObservedEpoch roomId epoch }
  let rekeyed := noted.rekeyRoomIfBehind c now roomId key
  let asked := rekeyed.1.requestGroupKey c now roomId challenge
  let sealed := asked.1.resealToLaggingMember c now roomId sender epoch
  (sealed.1, rekeyed.2 ++ asked.2 ++ sealed.2)

/-- `SfuJoinResult` with the reason `room_absent`. -/
def onRoomAbsent (s : RoomSession) (now : Nat) (supernodeId roomId : String) : RoomSession :=
  let current := s.currentRoomId = roomId ∧ (s.currentSupernodeId = supernodeId ∨ s.currentSupernodeId = "")
  { s with
    currentRoomId := if current then "" else s.currentRoomId
    currentSupernodeId := if current then "" else s.currentSupernodeId
    failoverPendingRoom := if s.failoverPendingRoom = some roomId then none else s.failoverPendingRoom
    pendingRoomJoinRetries :=
      if (s.pendingRoomJoinRetries.lookup (supernodeId, roomId)).isSome then s.pendingRoomJoinRetries
      else s.pendingRoomJoinRetries.insert (supernodeId, roomId) { lastSent := now, attempts := 0 } }

/-! ### Leaving -/

/-- `serde_json::to_value` of a device roster. -/
def rosterToJson (roster : List RoomEndpoint) : Json :=
  .arr (roster.map fun e => .obj [("identity", .str e.identity), ("device", e.device.elim .null Calls.deviceToJson)])

/-- `forget_room_device_scope`, with the challenge a new round would draw. -/
def forgetRoomDeviceScope (d : RoomKeyDevice) (host room : String) (challenge : List UInt8) : RoomKeyDevice :=
  let d := d.dropRoster (roomScopeKey host room) room
  match d.roomDeviceRosters.entries.find? fun e => isScopeOf room e.1 with
  | none => d
  | some e =>
    let host := String.ofList (e.1.toList.take (e.1.toList.length - (":" ++ room).toList.length))
    (d.recordRoomDevices c.hashing host room (some (rosterToJson e.2)) challenge).1

/-- `send_room_leave`. -/
def sendRoomLeave (routes : RoomRoutes) (roomId supernodeId : String) : RoomSend :=
  .leave (routes.liveRoomRoute supernodeId) (if roomId = "" then "default" else roomId)

/-- What of a room goes when its chat is not kept either. -/
def forgetRoom (s : RoomSession) (supernodeId roomId : String) (challenge : List UInt8) : RoomSession :=
  let s := { s with groupKeys := s.groupKeys.forget roomId }.dropAcks roomId
  { s with
    roomGroupMembers := s.roomGroupMembers.erase (roomScopeKey supernodeId roomId)
    roomVoiceMembers := s.roomVoiceMembers.erase (roomScopeKey supernodeId roomId)
    toRoomKeyDevice := forgetRoomDeviceScope c s.toRoomKeyDevice supernodeId roomId challenge }

/-- Where a leave goes. -/
def leaveTargets (routes : RoomRoutes) (supernodeId : String) : List String :=
  let targets := routes.connectedClusterSessions supernodeId
  let route := routes.liveRoomRoute supernodeId
  if targets.contains route then targets else targets ++ [route]

/-- The chat of the room is kept. -/
def keepsChat (s : RoomSession) (supernodeId roomId : String) : Bool := decide (roomScopeKey supernodeId roomId ∈ s.chatActiveRooms)

/-- `leave_room_voice`. -/
def leaveRoomVoice (s : RoomSession) (routes : RoomRoutes) (supernodeId roomId : String) (challenge : List UInt8) :
    RoomSession × List RoomSend :=
  let targets := leaveTargets routes supernodeId
  let joinedHere := s.currentRoomId = roomId ∧ (s.currentSupernodeId = supernodeId ∨ s.currentSupernodeId ∈ targets)
  let keepChat := s.keepsChat supernodeId roomId
  let s := { s with
    currentRoomId := if joinedHere then "" else s.currentRoomId
    currentSupernodeId := if joinedHere then "" else s.currentSupernodeId
    pendingRoomJoinRetries := retain s.pendingRoomJoinRetries fun key _ => decide (key.2 ≠ roomId) }
  let s := if keepChat then s else s.forgetRoom c supernodeId roomId challenge
  (s, targets.map (sendRoomLeave routes roomId) ++ if keepChat then [.subscribe (routes.liveRoomRoute supernodeId) roomId] else [])

end RoomSession

end DoubleSlash.Keys
