import DoubleSlash.Lib.Codec
import DoubleSlash.Lib.Text
import DoubleSlash.Tls.Certificate

/-!
# Signaling messages

`SignalingMessage` of `protocol.rs` and the signature check every inbound message passes (`verify_inbound_signature`). The
canonical bytes and Ed25519 are a parameter.
-/

namespace DoubleSlash.Protocol

open Codec Text Tls

/-- `serde_json::Value`. A number that is not an integer keeps only its text. -/
inductive Json where
  | null
  | bool (b : Bool)
  | int (n : Int)
  | float (text : String)
  | str (s : String)
  | arr (items : List Json)
  | obj (fields : List (String × Json))

/-- `Value::as_str`. -/
def Json.asStr : Json → Option String
  | .str s => some s
  | _ => none

/-- `Value::as_bool`. -/
def Json.asBool : Json → Option Bool
  | .bool b => some b
  | _ => none

/-- `Value::as_u64`. -/
def Json.asU64 : Json → Option Nat
  | .int n => if 0 ≤ n ∧ n < 2 ^ 64 then some n.toNat else none
  | _ => none

/-- `Value::as_array`. -/
def Json.asArray : Json → Option (List Json)
  | .arr items => some items
  | _ => none

/-- `MessageType`. -/
inductive MessageType where
  | hello | welcome | helloProof | roomJoin | roomLeave | roomState | roomPeerJoined | roomPeerLeft
  | roomListRequest | roomListResponse | inviteHandshakeInit | inviteHandshakeAccept | inviteHandshakeReject
  | encryptedSignal | presenceUpdate | speakingState | chatMessage | chatAck | chatTyping | callRequest | callAccept
  | callReject | callEnd | endpointUpdate | handleUpdate | avatarConfig | fileTransferOffer | fileTransferAccept
  | fileTransferReject | fileTransferChunk | fileTransferComplete | fileTransferAck | fileTransferError
  | relayRequest | relayGranted | relayRevoke | relayPaymentRequired | relayAccessGranted | relayAccessDenied
  | supernodeInfo | supernodeInfoRequest | punchRegister | punchReady | sfuRoomList | sfuJoin | sfuJoinResult
  | sfuLeave | sfuMembers | sfuPeerJoined | sfuPeerLeft | sfuOffer | sfuAnswer | sfuChat | sfuFileOffer
  | sfuFileRequest | sfuFileRevoke | sfuFileChunk | sfuFileComplete | sfuAudio | sfuVideoKeyframeRequest
  | sfuVideoState | sfuVideoSubscribe | sfuGroupKey | sfuGroupKeyAck | sfuGroupKeyRequest | sfuDeviceKeySync
  | deviceRoomSync | spaceRootAnnounce | sfuRoomCreate | sfuRoomCreated | sfuRoomInvite | sfuRoomInviteResult
  | sfuRoomInviteGenerate | sfuSubscribe | sfuUnsubscribe | peerRoomInvite | trustRequest | trustAccept | ping
  | pong | versionAnnounce | buildAttestation | attestationResponse | capabilityAnnounce | capabilityInvoke
  | gameRelayJoin | gameRelayLeave | gameRelayJoined | error
  deriving DecidableEq, Repr

/-- A payload: an object, its keys unique. -/
abbrev Payload := List (String × Json)

/-- `payload.get(key)`. -/
def Payload.get (p : Payload) (key : String) : Option Json :=
  List.lookup key p

/-- `payload.get(key).and_then(Value::as_str).unwrap_or(dflt)`. -/
def Payload.strOr (p : Payload) (key dflt : String) : String :=
  ((p.get key).bind Json.asStr).getD dflt

/-- `payload.get(key).and_then(Value::as_u64).unwrap_or(dflt)`. -/
def Payload.natOr (p : Payload) (key : String) (dflt : Nat) : Nat :=
  ((p.get key).bind Json.asU64).getD dflt

/-- `payload.get(key).and_then(Value::as_bool).unwrap_or(dflt)`. -/
def Payload.boolOr (p : Payload) (key : String) (dflt : Bool) : Bool :=
  ((p.get key).bind Json.asBool).getD dflt

/-- `payload.get(key) == Some(&Value::Bool(true))`. -/
def Payload.flag (p : Payload) (key : String) : Bool :=
  match p.get key with
  | some (.bool true) => true
  | _ => false

/-- `payload.insert(key, value)`. -/
def Payload.insert (p : Payload) (key : String) (value : Json) : Payload :=
  (key, value) :: p.filter fun e => e.1 ≠ key

@[simp] theorem Payload.get_insert_self (p : Payload) (key : String) (value : Json) :
    (p.insert key value).get key = some value := by
  simp [Payload.get, Payload.insert]

@[simp] theorem Payload.get_insert_ne (p : Payload) {key key' : String} (value : Json) (h : key' ≠ key) :
    (p.insert key value).get key' = p.get key' := by
  have hfilter : (p.filter fun e => e.1 ≠ key).lookup key' = p.lookup key' := by
    induction p with
    | nil => rfl
    | cons e p ih =>
      by_cases he : e.1 = key
      · have hne : (key' == e.1) = false := by simp [he, h]
        rw [List.filter_cons_of_neg (by simp [he]), ih, List.lookup_cons, hne]
      · rw [List.filter_cons_of_pos (by simp [he]), List.lookup_cons, List.lookup_cons, ih]
  have hne : (key' == key) = false := by simp [h]
  unfold Payload.get Payload.insert
  rw [List.lookup_cons, hne]
  exact hfilter

/-- A signaling message. Timestamps are whole seconds. -/
structure SignalingMessage where
  msgType : MessageType
  sender : String
  payload : Payload
  timestamp : Nat
  target : Option String
  sourceDevice : Option DeviceId
  targetDevice : Option DeviceId
  signature : Option String
  protocolVersion : Nat

/-- `PROTOCOL_VERSION`. -/
def currentVersion : Nat := 2

/-- `SignalingMessage::new`, at a time. -/
def SignalingMessage.new (ty : MessageType) (sender : String) (timestamp : Nat) : SignalingMessage where
  msgType := ty
  sender := sender
  payload := []
  timestamp := timestamp
  target := none
  sourceDevice := none
  targetDevice := none
  signature := none
  protocolVersion := currentVersion

/-- What the signature check takes from outside: the canonical bytes of a message and Ed25519. -/
structure Crypto where
  canonicalBytes : SignalingMessage → Option (List UInt8)
  /-- `ed25519_verify(public, signature, message)`. -/
  ed25519Verify : List UInt8 → List UInt8 → List UInt8 → Bool

/-- `MAX_MESSAGE_AGE_SECS`. -/
def maxMessageAgeSecs : Nat := 300

/-- `is_fresh`: the timestamp is within the window around now, in the past or in the future. -/
def SignalingMessage.isFresh (msg : SignalingMessage) (now : Nat) : Bool :=
  decide (now ≤ msg.timestamp + maxMessageAgeSecs) && decide (msg.timestamp ≤ now + maxMessageAgeSecs)

/-- `verify_inbound_signature`. -/
def verifyInboundSignature (C : Crypto) (now : Nat) (msg : SignalingMessage) (devicesEnabled : Bool) : Bool :=
  (do
    let sig ← msg.signature.bind b64urlDecode
    let pub ← b64urlDecode msg.sender
    if pub.length ≠ 32 then none
    let canonical ← C.canonicalBytes msg
    if C.ed25519Verify pub sig canonical = false then none
    if devicesEnabled = false ∧ (msg.sourceDevice.isSome ∨ msg.targetDevice.isSome) then none
    if msg.isFresh now then some () else none : Option Unit).isSome

/-- The text is the base64url of a 32-byte key, in either spelling. -/
def IsPublicId (s : String) : Prop :=
  ∃ bytes, b64urlDecode s = some bytes ∧ bytes.length = 32

instance (s : String) : Decidable (IsPublicId s) :=
  decidable_of_iff ((b64urlDecode s).any fun bytes => bytes.length = 32) (by
    unfold IsPublicId
    cases b64urlDecode s <;> simp)

/-- The sender of a message that verifies is a key. -/
theorem isPublicId_of_verify {C : Crypto} {now : Nat} {msg : SignalingMessage} {devicesEnabled : Bool}
    (h : verifyInboundSignature C now msg devicesEnabled = true) : IsPublicId msg.sender := by
  obtain ⟨u, hu⟩ := Option.isSome_iff_exists.mp h
  simp only [Option.bind_eq_bind, Option.bind_eq_some_iff] at hu
  obtain ⟨sig, -, pub, hpub, hu⟩ := hu
  by_cases hlen : pub.length = 32
  · exact ⟨pub, hpub, hlen⟩
  · simp [hlen] at hu

/-- `is_ordered_file_payload`. -/
def isOrderedFilePayload : MessageType → Bool
  | .fileTransferChunk | .fileTransferComplete | .sfuFileChunk | .sfuFileComplete => true
  | _ => false

end DoubleSlash.Protocol
