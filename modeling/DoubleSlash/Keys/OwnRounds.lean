import DoubleSlash.Calls.DeviceCalls
import DoubleSlash.Keys.Group

/-!
# Room keys among one's own devices

`device_session.rs`: the devices of one identity that share a room find out which of them keys it and hand each other the key they
hold. A round is over the devices the roster lists; each of them asks the others under a challenge of its own. Keys are 32 bytes,
random challenges are inputs, and the hash of the roster is a parameter. Devices, messages and their loss are at the end.
-/

namespace DoubleSlash.Keys

open Assoc Codec Protocol Tls

/-- `RoomEndpoint`. -/
structure RoomEndpoint where
  identity : String
  device : Option DeviceId
  deriving DecidableEq

/-- `Option::<DeviceId>::deserialize`. -/
def optionalDevice : Json → Option (Option DeviceId)
  | .null => some none
  | v => (Calls.deviceOfJson v).map some

/-- The derived `Deserialize` of an endpoint. -/
def endpointOfJson : Json → Option RoomEndpoint
  | .obj fields => do
    let identity ← (fields.lookup "identity").bind Json.asStr
    let device ← ((fields.lookup "device").getD .null) |> optionalDevice
    return { identity, device }
  | .arr [identity, device] => do
    let identity ← identity.asStr
    let device ← optionalDevice device
    return { identity, device }
  | _ => none

def rosterOfJson : Json → Option (List RoomEndpoint)
  | .arr items => items.mapM endpointOfJson
  | _ => none

/-- The order of device ids, no device before every device. -/
def deviceBefore : Option DeviceId → Option DeviceId → Bool
  | _, none => false
  | none, some _ => true
  | some a, some b => decide (a.bytes.map UInt8.toNat < b.bytes.map UInt8.toNat)

/-- `BTreeSet::insert`. -/
def insertDevice (device : Option DeviceId) : List (Option DeviceId) → List (Option DeviceId)
  | [] => [device]
  | d :: rest =>
    if d = device then d :: rest
    else if deviceBefore device d then device :: d :: rest
    else d :: insertDevice device rest

/-- `OwnKeyRound`. -/
structure OwnKeyRound where
  members : List DeviceId
  heard : List DeviceId
  fingerprint : String
  challenge : List UInt8
  lastRequest : Option Nat
  conflict : Bool

def maxLiveDeviceRoutes : Nat := 8

/-- What a device has of the rooms it is in. -/
structure RoomKeyDevice where
  publicId : String
  deviceId : Option DeviceId
  roomDeviceRosters : HashMap String (List RoomEndpoint)
  ownRoomKeyRounds : HashMap String OwnKeyRound
  groupKeys : SenderKeysGroup (List UInt8)

/-- The hash of rosters, and the key every member derives for a room. -/
structure RoomHashing where
  sha256 : List UInt8 → List UInt8
  deterministicRoomKey : String → List UInt8

/-- Two spellings of an identity. -/
def sameIdentity (a b : String) : Bool := Text.trimEndMatches '=' a == Text.trimEndMatches '=' b

/-- A reply as it is read: the epoch, and the key if the sibling has one. -/
structure KeyReply where
  epoch : UInt8
  key : Option (List UInt8)

/-- `from_value::<[u8; 32]>`. -/
def challengeOfJson : Json → Option (List UInt8)
  | .arr items => (items.mapM Calls.byteOfJson).filter (·.length == 32)
  | _ => none

namespace RoomKeyDevice

variable (h : RoomHashing)

/-- `room_devices`: the devices the rosters of a room list for an identity. -/
def roomDevices (d : RoomKeyDevice) (roomId identity : String) : List (Option DeviceId) :=
  let rosters := (d.roomDeviceRosters.entries.filter fun scope => (":" ++ roomId).toList.isSuffixOf scope.1.toList).flatMap (·.2)
  ((rosters.filter fun e => sameIdentity e.identity identity).map (·.device)).foldr insertDevice []

/-- The fingerprint of a roster. -/
def fingerprint (room : String) (members : List DeviceId) : String :=
  hexEncode (h.sha256 ("doubleslash/own-room-key-roster/v1\x00".toUTF8.data.toList ++ room.toUTF8.data.toList ++
    members.flatMap (·.bytes)))

/-- No roster of a supernode for a room, and no round. -/
def dropRoster (d : RoomKeyDevice) (scope room : String) : RoomKeyDevice :=
  { d with roomDeviceRosters := d.roomDeviceRosters.erase scope, ownRoomKeyRounds := d.ownRoomKeyRounds.erase room }

/-- `record_room_devices`, with the challenge a new round would draw. -/
def recordRoomDevices (d : RoomKeyDevice) (supernode room : String) (value : Option Json) (challenge : List UInt8) :
    RoomKeyDevice × Bool :=
  match d.deviceId with
  | none => (d, true)
  | some me =>
    let scope := supernode ++ (":" ++ room)
    match (value.bind rosterOfJson).filter (·.length ≤ 1024) with
    | none => (d.dropRoster scope room, false)
    | some roster =>
      if !roster.any (fun e => sameIdentity e.identity d.publicId && e.device == some me) then
        (d.dropRoster scope room, false)
      else
        let d := { d with roomDeviceRosters := d.roomDeviceRosters.insert scope roster }
        let devices := d.roomDevices room d.publicId
        -- a device that cannot be routed to, or too many: no round
        if devices.contains none || decide (maxLiveDeviceRoutes < devices.length) then
          ({ d with ownRoomKeyRounds := d.ownRoomKeyRounds.erase room }, false)
        else
          let members := devices.filterMap id
          if ((d.ownRoomKeyRounds.lookup room).any fun round => round.members == members) then
            (d, true)
          else
            let round := { members, heard := [], fingerprint := fingerprint h room members, challenge, lastRequest := none,
                           conflict := false }
            ({ d with ownRoomKeyRounds := d.ownRoomKeyRounds.insert room round }, true)

/-- `own_room_key_ready`. -/
def ownRoomKeyReady (d : RoomKeyDevice) (room : String) : Bool :=
  match d.deviceId with
  | none => true
  | some me =>
    (d.ownRoomKeyRounds.lookup room).any fun round =>
      !round.conflict && round.members.all fun device => device == me || round.heard.contains device

/-- `elected_room_device`. -/
def electedRoomDevice (d : RoomKeyDevice) (room identity : String) (device : Option DeviceId) : Bool :=
  if d.deviceId.isNone then device.isNone else (d.roomDevices room identity).head? == some device

/-- `reopen_own_room_key_round`, with the challenge it draws. -/
def reopenOwnRoomKeyRound (d : RoomKeyDevice) (room : String) (challenge : List UInt8) : RoomKeyDevice × Bool :=
  match d.ownRoomKeyRounds.lookup room with
  | none => (d, false)
  | some round =>
    ({ d with ownRoomKeyRounds := d.ownRoomKeyRounds.insert room { round with heard := [], lastRequest := none, challenge } }, true)

/-- `send_own_room_key_frame`: the message inside the envelope. -/
def ownRoomKeyFrame (d : RoomKeyDevice) (now : Nat) (device : DeviceId) (payload : Payload) : SignalingMessage :=
  { SignalingMessage.new .sfuDeviceKeySync d.publicId (now / Calls.secs 1) with
    target := some d.publicId
    sourceDevice := d.deviceId
    targetDevice := some device
    payload }

/-- `json!` of a challenge. -/
def challengeToJson (challenge : List UInt8) : Json := .arr (challenge.map fun b => .int b.toNat)

/-- The siblings a request would go to. -/
def requestTargets (me : DeviceId) (round : OwnKeyRound) : List DeviceId :=
  round.members.filter fun device => device != me && !round.heard.contains device

/-- `request_own_room_key`, at a time. -/
def requestOwnRoomKey (d : RoomKeyDevice) (now : Nat) (room : String) : RoomKeyDevice × List SignalingMessage :=
  match d.deviceId, d.ownRoomKeyRounds.lookup room with
  | some me, some round =>
    if round.conflict || round.lastRequest.any (fun last => decide (now - last < Calls.secs 3)) then
      (d, [])
    else
      let targets := requestTargets me round
      if targets.isEmpty then
        (d, [])
      else
        let payload : Payload := [("room_id", .str room), ("roster", .str round.fingerprint),
          ("challenge", challengeToJson round.challenge), ("request", .bool true)]
        ({ d with ownRoomKeyRounds := d.ownRoomKeyRounds.insert room { round with lastRequest := some now } },
          targets.map fun device => d.ownRoomKeyFrame now device payload)
  | _, _ => (d, [])

/-- The round a sync message belongs to and who sent it: a sibling of the round, under the roster of the round, to this device. -/
def syncRound (d : RoomKeyDevice) (message : SignalingMessage) : Option (String × OwnKeyRound × DeviceId × List UInt8) := do
  let me ← d.deviceId
  let sender ← message.sourceDevice.filter (· != me)
  if !sameIdentity message.sender d.publicId || message.targetDevice != some me then
    none
  else
    let room ← (message.payload.get "room_id").bind Json.asStr
    let round ← d.ownRoomKeyRounds.lookup room
    if !round.members.contains sender || (message.payload.get "roster").bind Json.asStr != some round.fingerprint then
      none
    else
      let challenge ← (message.payload.get "challenge").bind challengeOfJson
      return (room, round, sender, challenge)

/-- The answer to a sibling's request. -/
def answerRequest (d : RoomKeyDevice) (now : Nat) (room : String) (round : OwnKeyRound) (sender : DeviceId)
    (challenge : List UInt8) : SignalingMessage :=
  let epoch := d.groupKeys.currentEpoch room
  let key := if d.groupKeys.hasRealKey room then d.groupKeys.epochKey h.deterministicRoomKey room epoch else none
  d.ownRoomKeyFrame now sender
    [("room_id", .str room), ("roster", .str round.fingerprint), ("challenge", challengeToJson challenge),
      ("request", .bool false), ("epoch", .int epoch.toNat), ("key", key.elim .null fun key => .str (b64urlEncodePadded key))]

/-- The epoch and the key of a reply, if they are well-formed. -/
def readReply (payload : Payload) : Option KeyReply := do
  let epoch ← ((payload.get "epoch").bind Json.asU64).filter (· < 256)
  let value ← payload.get "key"
  match value with
  | .null => return { epoch := UInt8.ofNat epoch, key := none }
  | .str encoded =>
    let key ← (b64urlDecode encoded).filter (·.length == 32)
    return { epoch := UInt8.ofNat epoch, key := some key }
  | _ => none

/-- A key that disagrees: the device has a key for this epoch, which is its current one, and it is another. -/
def disagrees (d : RoomKeyDevice) (room : String) (reply : KeyReply) : Bool :=
  match reply.key with
  | none => false
  | some key =>
    d.groupKeys.hasRealKey room && d.groupKeys.currentEpoch room == reply.epoch &&
      d.groupKeys.epochKey h.deterministicRoomKey room reply.epoch != some key

/-- The keys after a reply that does not disagree. -/
def adopt (d : RoomKeyDevice) (now : Nat) (room : String) (reply : KeyReply) : SenderKeysGroup (List UInt8) :=
  match reply.key with
  | none => d.groupKeys
  | some key =>
    let hasKey := d.groupKeys.hasRealKey room
    let current := d.groupKeys.currentEpoch room
    if !hasKey || (reply.epoch != current && acceptGroupKeyEpoch true current reply.epoch) then
      d.groupKeys.install now room reply.epoch key
    else
      d.groupKeys

/-- `handle_own_room_key_sync`, at a time, up to `sync_room_membership` at its end, which requests, reopens, mints and rotates. -/
def handleOwnRoomKeySync (d : RoomKeyDevice) (now : Nat) (message : SignalingMessage) : RoomKeyDevice × List SignalingMessage :=
  match d.syncRound message with
  | none => (d, [])
  | some (room, round, sender, challenge) =>
    let request := (message.payload.get "request").bind Json.asBool
    if request = some true then
      (d, [d.answerRequest h now room round sender challenge])
    else if challenge != round.challenge || request != some false then
      (d, [])
    else
      match readReply message.payload with
      | none => (d, [])
      | some reply =>
        if d.disagrees h room reply then
          ({ d with ownRoomKeyRounds := d.ownRoomKeyRounds.insert room { round with conflict := true } }, [])
        else
          ({ d with
             groupKeys := d.adopt now room reply
             ownRoomKeyRounds := d.ownRoomKeyRounds.insert room { round with heard := round.heard.insert sender } }, [])

end RoomKeyDevice

/-! ## Devices that share a room -/

/-- The devices of an identity, the sync messages under way, and the challenges drawn. -/
structure KeyNet (ι : Type) where
  devices : ι → RoomKeyDevice
  inFlight : List SignalingMessage
  drawn : List (List UInt8)

/-- What can happen. A message may arrive in any order, more than once, or never. -/
inductive KeyAct (ι : Type) where
  | record (i : ι) (supernode room : String) (value : Option Json) (challenge : List UInt8)
  | reopen (i : ι) (room : String) (challenge : List UInt8)
  | request (i : ι) (now : Nat) (room : String)
  /-- The message with this number arrives, and is still under way if it is repeated. -/
  | deliver (i : ι) (n : Nat) (again : Bool) (now : Nat)
  | lose (n : Nat)
  /-- A key comes from the keyer of the room. -/
  | install (i : ι) (now : Nat) (room : String) (epoch : UInt8) (key : List UInt8)
  /-- The device mints a key. -/
  | rotate (i : ι) (now : Nat) (room : String) (key : List UInt8)

namespace KeyNet

variable {ι : Type} [DecidableEq ι] (h : RoomHashing)

/-- A device's new state and what it sends. -/
def update (s : KeyNet ι) (i : ι) (d : RoomKeyDevice) (out : List SignalingMessage) : KeyNet ι :=
  { s with devices := fun j => if j = i then d else s.devices j, inFlight := s.inFlight ++ out }

/-- One step; none when it cannot happen. `OsRng` does not draw a challenge twice. -/
def step (s : KeyNet ι) : KeyAct ι → Option (KeyNet ι)
  | .record i supernode room value challenge =>
    if challenge ∈ s.drawn then none
    else some { s.update i ((s.devices i).recordRoomDevices h supernode room value challenge).1 [] with drawn := challenge :: s.drawn }
  | .reopen i room challenge =>
    if challenge ∈ s.drawn then none
    else some { s.update i ((s.devices i).reopenOwnRoomKeyRound room challenge).1 [] with drawn := challenge :: s.drawn }
  | .request i now room =>
    let (d, out) := (s.devices i).requestOwnRoomKey now room
    some (s.update i d out)
  | .deliver i n again now =>
    match s.inFlight[n]? with
    | none => none
    | some message =>
      let (d, out) := (s.devices i).handleOwnRoomKeySync h now message
      some ({ s with inFlight := if again then s.inFlight else s.inFlight.eraseIdx n }.update i d out)
  | .lose n => some { s with inFlight := s.inFlight.eraseIdx n }
  | .install i now room epoch key =>
    some (s.update i { s.devices i with groupKeys := (s.devices i).groupKeys.install now room epoch key } [])
  | .rotate i now room key =>
    some (s.update i { s.devices i with groupKeys := ((s.devices i).groupKeys.rotate now room key).1 } [])

end KeyNet

end DoubleSlash.Keys
