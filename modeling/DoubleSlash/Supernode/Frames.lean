import DoubleSlash.Protocol.Message
import DoubleSlash.Sfu.Speakers
import DoubleSlash.Supernode.SpaceRoots

/-!
# Frames into a room

The handlers of the supernode's `main.rs` that forward what a peer sends into a room: chat, files, audio, the camera states and the
requests for a key frame. What a handler sends is a list of the calls it makes on the signaling layer and on the cluster link; the
answers of the quotas are arguments, and the texts it logs are left out.
-/

namespace DoubleSlash.Supernode

open Codec Protocol Sfu Text Tls

/-! ## The signature -/

/-- `Identity::verify_with_pub`. -/
def verifyWithPub (ed25519Verify : Ed25519) (pubBytes signature data : List UInt8) : Bool :=
  decide (pubBytes.length = 32 ∧ signature.length = 64) && ed25519Verify pubBytes signature data

/-- `SignalingMessage::verify`. -/
def verifyMessage (ed25519Verify : Ed25519) (canonicalBytes : SignalingMessage → List UInt8) (msg : SignalingMessage) : Bool :=
  if msg.targetDevice.isSome ∧ msg.target.isNone then false
  else
    match msg.signature.bind b64urlDecode, b64urlDecode msg.sender with
    | some sigBytes, some pubBytes => verifyWithPub ed25519Verify pubBytes sigBytes (canonicalBytes msg)
    | _, _ => false

/-! ## What a handler sends -/

/-- `gate_inbound_through_feature` and `gate_through_feature`: the feature, the peer and the bytes. The second is asked once for each
recipient. -/
structure Quotas where
  inbound : String → String → Nat → Bool
  outbound : String → Endpoint → Nat → Bool

/-- A call of `send_to_peer`, to every device of an identity, or of `send_to_endpoint`. -/
inductive Delivery where
  | peer (id : String)
  | endpoint (e : Endpoint)
  deriving DecidableEq

/-- What comes of a frame: the rooms afterwards, the calls on the signaling layer and the room and id it is replicated under. -/
structure Forwarded where
  sfu : SFURoomManager SpeakerScore
  deliveries : List Delivery
  replicated : Option (String × String)

/-- The frame is dropped. -/
def dropped (sfu : SFURoomManager SpeakerScore) : Forwarded := { sfu := sfu, deliveries := [], replicated := none }

/-- The room a payload names. -/
def roomOf (msg : SignalingMessage) : String := msg.payload.strOr "room_id" defaultRoomId

/-- `is_room_frame_author`. -/
def isRoomFrameAuthor (recipient sender : String) : Bool :=
  decide (sender ≠ "") && decide (normalizePeerId recipient = normalizePeerId sender)

/-- `sfu_audio_opus_byte_count`. -/
def sfuAudioOpusByteCount (msg : SignalingMessage) : Nat :=
  ((((msg.payload.get "audio").bind Json.asStr).bind fun b64 => b64Padded b64.toList).map List.length).getD 0

/-- `sfu_chat_byte_count`. -/
def sfuChatByteCount (msg : SignalingMessage) : Nat := byteLen (msg.payload.strOr "body" "").toList

/-- `sfu_file_inbound_byte_count`. -/
def sfuFileInboundByteCount (msg : SignalingMessage) : MessageType → Nat
  | .sfuFileChunk => byteLen (msg.payload.strOr "data" "").toList
  | .sfuFileOffer | .sfuFileRequest | .sfuFileRevoke | .sfuFileComplete => 64
  | _ => 0

/-- `file_payload_bypasses_quota`. -/
def filePayloadBypassesQuota : MessageType → Bool
  | .sfuFileChunk | .sfuFileComplete => true
  | _ => false

/-- The signature a frame is replicated under, when it has one. -/
def replicationSignature (msg : SignalingMessage) : Option String := msg.signature.filter fun sig => sig ≠ ""

/-- `audio_replication_id`. -/
def audioReplicationId (msg : SignalingMessage) : String :=
  match replicationSignature msg with
  | some sig => "a:" ++ sig
  | none => "a:" ++ msg.payload.strOr "room_id" "" ++ ":" ++ msg.sender ++ ":" ++ toString (msg.payload.natOr "seq" 0)

/-- `video_state_replication_id`. -/
def videoStateReplicationId (msg : SignalingMessage) : String :=
  match replicationSignature msg with
  | some sig => "v:" ++ sig
  | none => "v:" ++ msg.sender ++ ":" ++ toString msg.timestamp ++ ":" ++ toString (msg.payload.flag "active")

/-- `file_frame_endpoints`. -/
def fileFrameEndpoints (endpoints : List Endpoint) (sender : String) (sourceDevice : Option DeviceId)
    (target : Option String) : List Endpoint :=
  (endpoints.filter fun e => !(isRoomFrameAuthor e.1 sender && decide (e.2 = sourceDevice))).filter fun e =>
    target.all fun target => isRoomFrameAuthor e.1 target

/-! ## The handlers -/

section

variable (quotas : Quotas) (sfu : SFURoomManager SpeakerScore) (cluster : Bool) (msg : SignalingMessage) (raw : String)

/-- The endpoints in the chat of a room. -/
def chatEndpointsOf (roomId : String) : List Endpoint := ((sfu.rooms.lookup roomId).map SFURoom.chatEndpoints).getD []

/-- `handle_sfu_broadcast`. -/
def handleSfuBroadcast : Forwarded :=
  let payloadBytes := sfuFileInboundByteCount msg msg.msgType
  let fileData := filePayloadBypassesQuota msg.msgType
  if payloadBytes = 0 then dropped sfu
  else if quotas.inbound "room.file.v1" msg.sender payloadBytes = false ∧ fileData = false then dropped sfu
  else if sfu.isChatSender (roomOf msg) msg.sender = false then dropped sfu
  else
    let targets := fileFrameEndpoints (chatEndpointsOf sfu (roomOf msg)) msg.sender msg.sourceDevice
      ((msg.payload.get "to").bind Json.asStr)
    { dropped sfu with
      deliveries := (targets.filter fun e => fileData || quotas.outbound "room.file.v1" e (byteLen raw.toList)).map
        Delivery.endpoint }

/-- `handle_sfu_audio_broadcast`. -/
def handleSfuAudioBroadcast (decay : Decay) (now : ℚ) : Forwarded :=
  let opusBytes := sfuAudioOpusByteCount msg
  if opusBytes = 0 then dropped sfu
  else if quotas.inbound "room.audio.sfu" msg.sender opusBytes = false then dropped sfu
  else
    match sfu.audioForwardTargets decay (roomOf msg) msg.sender now with
    | (sfu, none) => dropped sfu
    | (sfu, some recipients) =>
      { sfu := sfu
        deliveries := (recipients.filter fun p =>
          decide (p ≠ msg.sender) && quotas.outbound "room.audio.sfu" (p, none) (byteLen raw.toList)).map Delivery.peer
        replicated := if cluster then some (roomOf msg, audioReplicationId msg) else none }

/-- `deliver_room_chat`. -/
def deliverRoomChat (roomId : String) : List Delivery :=
  ((((sfu.rooms.lookup roomId).map fun room => room.chatDeliveryEndpoints msg.sender msg.sourceDevice).getD []).filter fun e =>
    quotas.outbound "room.chat.v1" e (byteLen raw.toList)).map Delivery.endpoint

/-- `handle_sfu_chat_broadcast`. -/
def handleSfuChatBroadcast : Forwarded :=
  let bodyBytes := sfuChatByteCount msg
  if bodyBytes = 0 then dropped sfu
  else if quotas.inbound "room.chat.v1" msg.sender bodyBytes = false then dropped sfu
  else if (chatEndpointsOf sfu (roomOf msg)).any
      (fun e => isRoomFrameAuthor e.1 msg.sender && decide (e.2 = msg.sourceDevice)) = false then dropped sfu
  else
    { sfu := sfu
      deliveries := deliverRoomChat quotas sfu msg raw (roomOf msg)
      replicated := if cluster then some (roomOf msg, msg.payload.strOr "message_id" "") else none }

/-- `deliver_video_state`. -/
def deliverVideoState (roomId sender : String) : List Delivery :=
  ((sfu.getChatRecipients roomId).filter fun p => !isRoomFrameAuthor p sender).map Delivery.peer

/-- `handle_sfu_video_state`. -/
def handleSfuVideoState : Forwarded :=
  if sfu.isChatSender (roomOf msg) msg.sender = false then dropped sfu
  else
    { sfu := sfu
      deliveries := deliverVideoState sfu (roomOf msg) msg.sender
      replicated := if cluster then some (roomOf msg, videoStateReplicationId msg) else none }

/-- `handle_sfu_video_keyframe_request`. -/
def handleSfuVideoKeyframeRequest : Forwarded :=
  match (msg.payload.get "target_peer").bind Json.asStr with
  | none => dropped sfu
  | some target =>
    if target = "" then dropped sfu
    else if sfu.isChatSender (roomOf msg) msg.sender = false then dropped sfu
    else
      { dropped sfu with
        deliveries := (((sfu.getChatRecipients (roomOf msg)).find? fun p => isRoomFrameAuthor p target).map
          Delivery.peer).toList }

/-- `on_message`, for the messages that go into a room. -/
def onRoomFrame (decay : Decay) (now : ℚ) : Forwarded :=
  match msg.msgType with
  | .sfuChat => handleSfuChatBroadcast quotas sfu cluster msg raw
  | .sfuVideoState => handleSfuVideoState sfu cluster msg
  | .sfuVideoKeyframeRequest => handleSfuVideoKeyframeRequest sfu msg
  | .sfuAudio => handleSfuAudioBroadcast quotas sfu cluster msg raw decay now
  | .sfuFileOffer | .sfuFileRequest | .sfuFileRevoke | .sfuFileChunk | .sfuFileComplete => handleSfuBroadcast quotas sfu msg raw
  | _ => dropped sfu

end

/-! ## Runs -/

/-- A node with rooms, and whether it has a link to its cluster. -/
structure RoomNode where
  sfu : SFURoomManager SpeakerScore
  cluster : Bool

/-- What happens to the rooms of a node. -/
inductive RoomNodeEvent where
  | op (now : Nat) (peer : String) (op : RoomOp)
  | frame (now : ℚ) (quotas : Quotas) (msg : SignalingMessage) (raw : String)
  | link (up : Bool)

/-- The node after an event. -/
def roomNodeStep (decay : Decay) (sha256 : List UInt8 → List UInt8) (node : RoomNode) : RoomNodeEvent → Option RoomNode
  | .op now peer op => some { node with sfu := (roomOp sha256 node.sfu now peer op).1 }
  | .frame now quotas msg raw => some { node with sfu := (onRoomFrame quotas node.sfu node.cluster msg raw decay now).sfu }
  | .link up => some { node with cluster := up }

/-- A node that has just started. -/
def RoomNode.start : RoomNode := ⟨SFURoomManager.new, false⟩

end DoubleSlash.Supernode
