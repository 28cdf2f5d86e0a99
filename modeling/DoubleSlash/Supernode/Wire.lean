import DoubleSlash.Protocol.JsonValue
import DoubleSlash.Supernode.Frames

/-!
# Signed messages on the wire

`SignalingMessage` of the supernode's `protocol.rs` as it is read from a text: `from_json`, `canonical_bytes`, `verify` and
`is_fresh`, on a clock of rational seconds. The JSON parser is a parameter, as is Ed25519.
-/

namespace DoubleSlash.Supernode

open Codec Protocol Tls

/-- `MessageType`. -/
inductive WireType where
  | hello | welcome | helloProof | roomJoin | roomLeave | roomState | roomPeerJoined | roomPeerLeft | roomListRequest
  | roomListResponse | inviteHandshakeInit | inviteHandshakeAccept | inviteHandshakeReject | encryptedSignal
  | presenceUpdate | speakingState | chatMessage | chatAck | chatTyping | callRequest | callAccept | callReject
  | callEnd | endpointUpdate | handleUpdate | versionAnnounce | updateOffer | updateAccept | updateReject
  | fileTransferOffer | fileTransferAccept | fileTransferReject | fileTransferChunk | fileTransferComplete
  | fileTransferAck | fileTransferError | relayRequest | relayGranted | relayRevoke | relayPaymentRequired
  | relayAccessGranted | relayAccessDenied | supernodeInfo | supernodeInfoRequest | punchRegister | punchReady
  | sfuRoomList | sfuJoin | sfuJoinResult | sfuLeave | sfuMembers | sfuPeerJoined | sfuPeerLeft | sfuOffer
  | sfuAnswer | sfuChat | sfuFileOffer | sfuFileRequest | sfuFileRevoke | sfuFileChunk | sfuFileComplete | sfuAudio
  | sfuVideoKeyframeRequest | sfuVideoState | sfuVideoSubscribe | spaceRootAnnounce | sfuRoomCreate | sfuRoomCreated
  | sfuRoomInvite | sfuRoomInviteResult | sfuRoomInviteGenerate | sfuSubscribe | sfuUnsubscribe | trustRequest
  | trustAccept | peerRoomInvite | buildAttestation | attestationResponse | ping | pong | capabilityAnnounce
  | capabilityInvoke | gameRelayJoin | gameRelayLeave | gameRelayJoined | error
  deriving DecidableEq

/-- The name of each type on the wire. -/
def wireTypes : List (WireType × String) :=
  [ (.hello, "hello"), (.welcome, "welcome"), (.helloProof, "hello_proof"), (.roomJoin, "room_join"),
    (.roomLeave, "room_leave"), (.roomState, "room_state"), (.roomPeerJoined, "room_peer_joined"),
    (.roomPeerLeft, "room_peer_left"), (.roomListRequest, "room_list_request"), (.roomListResponse, "room_list_response"),
    (.inviteHandshakeInit, "invite_handshake_init"), (.inviteHandshakeAccept, "invite_handshake_accept"),
    (.inviteHandshakeReject, "invite_handshake_reject"), (.encryptedSignal, "encrypted_signal"),
    (.presenceUpdate, "presence_update"), (.speakingState, "speaking_state"), (.chatMessage, "chat_message"),
    (.chatAck, "chat_ack"), (.chatTyping, "chat_typing"), (.callRequest, "call_request"), (.callAccept, "call_accept"),
    (.callReject, "call_reject"), (.callEnd, "call_end"), (.endpointUpdate, "endpoint_update"),
    (.handleUpdate, "handle_update"), (.versionAnnounce, "version_announce"), (.updateOffer, "update_offer"),
    (.updateAccept, "update_accept"), (.updateReject, "update_reject"), (.fileTransferOffer, "file_transfer_offer"),
    (.fileTransferAccept, "file_transfer_accept"), (.fileTransferReject, "file_transfer_reject"),
    (.fileTransferChunk, "file_transfer_chunk"), (.fileTransferComplete, "file_transfer_complete"),
    (.fileTransferAck, "file_transfer_ack"), (.fileTransferError, "file_transfer_error"), (.relayRequest, "relay_request"),
    (.relayGranted, "relay_granted"), (.relayRevoke, "relay_revoke"), (.relayPaymentRequired, "relay_payment_required"),
    (.relayAccessGranted, "relay_access_granted"), (.relayAccessDenied, "relay_access_denied"),
    (.supernodeInfo, "supernode_info"), (.supernodeInfoRequest, "supernode_info_request"),
    (.punchRegister, "punch_register"), (.punchReady, "punch_ready"), (.sfuRoomList, "sfu_room_list"),
    (.sfuJoin, "sfu_join"), (.sfuJoinResult, "sfu_join_result"), (.sfuLeave, "sfu_leave"), (.sfuMembers, "sfu_members"),
    (.sfuPeerJoined, "sfu_peer_joined"), (.sfuPeerLeft, "sfu_peer_left"), (.sfuOffer, "sfu_offer"),
    (.sfuAnswer, "sfu_answer"), (.sfuChat, "sfu_chat"), (.sfuFileOffer, "sfu_file_offer"),
    (.sfuFileRequest, "sfu_file_request"), (.sfuFileRevoke, "sfu_file_revoke"), (.sfuFileChunk, "sfu_file_chunk"),
    (.sfuFileComplete, "sfu_file_complete"), (.sfuAudio, "sfu_audio"),
    (.sfuVideoKeyframeRequest, "sfu_video_keyframe_request"), (.sfuVideoState, "sfu_video_state"),
    (.sfuVideoSubscribe, "sfu_video_subscribe"), (.spaceRootAnnounce, "space_root_announce"),
    (.sfuRoomCreate, "sfu_room_create"), (.sfuRoomCreated, "sfu_room_created"), (.sfuRoomInvite, "sfu_room_invite"),
    (.sfuRoomInviteResult, "sfu_room_invite_result"), (.sfuRoomInviteGenerate, "sfu_room_invite_generate"),
    (.sfuSubscribe, "sfu_subscribe"), (.sfuUnsubscribe, "sfu_unsubscribe"), (.trustRequest, "trust_request"),
    (.trustAccept, "trust_accept"), (.peerRoomInvite, "peer_room_invite"), (.buildAttestation, "build_attestation"),
    (.attestationResponse, "attestation_response"), (.ping, "ping"), (.pong, "pong"),
    (.capabilityAnnounce, "capability_announce"), (.capabilityInvoke, "capability_invoke"),
    (.gameRelayJoin, "game_relay_join"), (.gameRelayLeave, "game_relay_leave"), (.gameRelayJoined, "game_relay_joined"),
    (.error, "error")]

/-- `serde_json::to_value(msg_type)`. -/
def WireType.name (ty : WireType) : String := (wireTypes.lookup ty).getD ""

/-- The variant a name stands for. -/
def WireType.ofName (name : String) : Option WireType := (wireTypes.find? fun e => e.2 = name).map Prod.fst

/-- `from_value::<MessageType>`: the name of a variant, alone or with nothing under it. -/
def WireType.ofJson : Json → Option WireType
  | .str name => WireType.ofName name
  | .obj [(name, .null)] => WireType.ofName name
  | _ => none

/-- `serde_json::from_str::<Value>`, and the double that a number stands for which is no integer. -/
structure SerdeJson where
  fromStr : String → Option Json
  f64 : String → Option ℚ
  printed : ∀ raw v, fromStr raw = some v → v.Printed

/-- `Value::as_f64`. -/
def SerdeJson.asF64 (serde : SerdeJson) : Json → Option ℚ
  | .int n => some n
  | .float text => serde.f64 text
  | _ => none

/-- A byte. -/
def asU8 (v : Json) : Option UInt8 := (v.asU64.filter fun n => decide (n < 256)).map UInt8.ofNat

/-- `from_value::<DeviceId>`: an array of 32 bytes. -/
def deviceIdOfJson (v : Json) : Option DeviceId := do
  let items ← v.asArray
  let bytes ← items.mapM asU8
  if h : bytes.length = 32 then some ⟨bytes, h⟩ else none

/-- `from_value::<Option<DeviceId>>` of a field that may be missing. -/
def deviceField : Option Json → Option (Option DeviceId)
  | none | some .null => some none
  | some v => (deviceIdOfJson v).map some

/-- `SignalingMessage`, as read. -/
structure WireMessage where
  msgType : WireType
  sender : String
  payload : Json
  timestampRaw : Option Json
  target : Option String
  sourceDevice : Option DeviceId
  targetDevice : Option DeviceId
  signature : Option String
  protocolVersion : Nat

namespace WireMessage

/-- `timestamp`. -/
def timestamp (serde : SerdeJson) (msg : WireMessage) : ℚ := (msg.timestampRaw.bind serde.asF64).getD 0

/-- The message an object stands for. -/
def ofFields (fields : List (String × Json)) : Option WireMessage := do
  let msgType ← (fields.lookup "type").bind WireType.ofJson
  let target := (fields.lookup "target").bind Json.asStr
  let sourceDevice ← deviceField (fields.lookup "source_device")
  let targetDevice ← deviceField (fields.lookup "target_device")
  if targetDevice.isSome ∧ target.isNone then none
  return {
    msgType := msgType
    sender := ((fields.lookup "sender").bind Json.asStr).getD ""
    payload := (fields.lookup "payload").getD (.obj [])
    timestampRaw := fields.lookup "timestamp"
    target := target
    sourceDevice := sourceDevice
    targetDevice := targetDevice
    signature := (fields.lookup "signature").bind Json.asStr
    protocolVersion := (((fields.lookup "v").bind Json.asU64).getD 2) % 2 ^ 32 }

/-- `SignalingMessage::from_json`. -/
def fromJson (serde : SerdeJson) (raw : String) : Option WireMessage :=
  match serde.fromStr raw with
  | some (.obj fields) => ofFields fields
  | _ => none

/-- A device address among the fields. -/
def deviceAddress (name : String) (device : Option DeviceId) : List (String × Json) :=
  device.toList.map fun device => (name, .arr (device.bytes.map fun b => .int b.toNat))

/-- The fields that are signed, in the order of their names. -/
def canonicalFields (msg : WireMessage) : List (String × Json) :=
  [("payload", msg.payload), ("sender", .str msg.sender)] ++ deviceAddress "source_device" msg.sourceDevice ++
    msg.target.toList.map (fun target => ("target", .str target)) ++ deviceAddress "target_device" msg.targetDevice ++
    [("timestamp", msg.timestampRaw.getD (.float "0.0")), ("type", .str msg.msgType.name), ("v", .int msg.protocolVersion)]

/-- `canonical_bytes`. -/
def canonicalBytes (msg : WireMessage) : List UInt8 := (Json.obj msg.canonicalFields).toVec

/-- `verify`. -/
def verify (ed25519Verify : Ed25519) (msg : WireMessage) : Bool :=
  if msg.targetDevice.isSome ∧ msg.target.isNone then false
  else
    match msg.signature.bind b64urlDecode, b64urlDecode msg.sender with
    | some sigBytes, some pubBytes => verifyWithPub ed25519Verify pubBytes sigBytes msg.canonicalBytes
    | _, _ => false

/-- `is_fresh`. -/
def isFresh (serde : SerdeJson) (msg : WireMessage) (maxAge now : ℚ) : Bool :=
  decide (msg.timestamp serde ≤ now + maxAge) && decide (now ≤ msg.timestamp serde + maxAge)

end WireMessage

end DoubleSlash.Supernode
