import DoubleSlash.Manager.Inbound

/-!
# The direct lane

Which direct sessions outbound frames and media are put on (`dispatch_outbound`, `direct_media_sender`), whom inbound media is
attributed to, and how sessions come up: a dial is answered by whoever listens at the address, an inbound connection by whoever
called. What identifies the other end is the certificate of the connection.
-/

namespace DoubleSlash.Manager

open Protocol Store Direct Assoc Codec Text Tls Machine

/-- `canonical_peer_id_for_sender`. -/
def canonicalPeerIdForSender {S : Type} (σ : ConnectionManager S) (sender : String) : String :=
  if bare sender = bare σ.publicId then σ.direct.ownPeerId
  else ((σ.store.get sender).or (σ.store.getByIdentity sender)).elim sender PeerRecord.peerId

/-- The sessions `dispatch_outbound` puts a frame for `target` on. -/
def directLane {S : Type} (σ : ConnectionManager S) (target : String) (targetDevice : Option DeviceId) : List S :=
  match σ.direct.peers.lookup (canonicalPeerIdForSender σ target) with
  | none => []
  | some peer =>
    if peer.state = .connected then
      (peer.endpoints.toList.filter fun e => targetDevice.isNone || e.1 == targetDevice).map fun e => e.2.2
    else []

/-- `direct_media_sender`; `activeRemote` is the device of the active call with a peer. -/
def directMediaSender {S : Type} (d : DirectSessions S) (activeRemote : String → Option (Option DeviceId)) (peer : String) :
    Option S := do
  let connection ← d.peers.lookup peer
  if d.deviceId.isNone then connection.quicOutTx
  else
    let remote ← activeRemote peer
    connection.endpoints[remote]?.map Prod.snd

/-- A QUIC connection: the channel into its session and the certificate its other end proved to hold the key of. -/
structure Link where
  channel : Nat
  cert : List UInt8
  deriving DecidableEq

/-- A session task: the peer id it was started with, the endpoint it reports and its connection. -/
structure SessionTask where
  startedAs : String
  endpoint : DirectEndpoint
  link : Link
  deriving DecidableEq

/-- Whom media that arrives on a session is attributed to, if it is taken. -/
def mediaAttribution {S : Type} [DecidableEq S] (d : DirectSessions S) (startedAs : String) (endpoint : DirectEndpoint) :
    Option String :=
  let canonical := d.resolveQuicPeerAlias startedAs
  if (d.peers.lookup canonical).any fun peer => peer.hasEndpoint endpoint then some canonical else none

/-! ## How sessions come up -/

/-- The platform: how the TLS layer was built, and SHA-256. -/
structure Platform where
  build : Build
  word : Word
  sha256 : List UInt8 → List UInt8

/-- `peer_id_from_pub_bytes`. -/
def peerIdFromPubBytes (P : Platform) (pub : List UInt8) : String :=
  hexEncode (P.sha256 pub)

/-- The peer id a certificate's key hashes to, as both ends of a handshake compute it. -/
def peerIdOfCert (P : Platform) (cert : List UInt8) : Except Fault (Option String) := do
  match ← cnFromCertDer P.build P.word cert with
  | none => return none
  | some cn => return (hexDecode cn).map (peerIdFromPubBytes P)

/-- The direct side of a client: the manager, its dial tasks and its session tasks. -/
structure DirectNet where
  manager : ConnectionManager Link
  dialing : List String
  tasks : List SessionTask

/-- A session task starts: it reports `QuicConnected`. -/
def startSession (s : DirectNet) (task : SessionTask) (now : Nat) : DirectNet :=
  { s with
    manager := { s.manager with direct := s.manager.direct.quicConnected task.startedAs task.endpoint task.link now }
    tasks := task :: s.tasks }

/-- A dial that came to nothing reports `QuicDisconnected` without an endpoint. -/
def failDial (s : DirectNet) (peerId : String) : DirectNet :=
  { s with manager := { s.manager with direct := s.manager.direct.quicDisconnected peerId none } }

/-- The dial task of `connect_direct_quic` once the handshake is through. A certificate of another identity is refused when it
names a device; without a device the session is kept under the id that was dialled. -/
def dialAnswered (P : Platform) (s : DirectNet) (peerId : String) (link : Link) (connectionId now : Nat) :
    Except Fault DirectNet := do
  let actual ← peerIdOfCert P link.cert
  let device ← deviceFromCertDer P.build P.word link.cert
  if actual ≠ some peerId ∧ device.isSome then return failDial s peerId
  return startSession s ⟨peerId, ⟨device, connectionId⟩, link⟩ now

/-- `handle_incoming_quic`: the peer id comes from the certificate. -/
def incomingQuic (P : Platform) (s : DirectNet) (link : Link) (connectionId now : Nat) : Except Fault DirectNet := do
  match ← peerIdOfCert P link.cert with
  | none => return s
  | some peerId =>
    let device ← deviceFromCertDer P.build P.word link.cert
    return startSession s ⟨peerId, ⟨device, connectionId⟩, link⟩ now

/-- `BlockPeer`, at the table. -/
def blockPeer {S : Type} (d : DirectSessions S) (peerId : String) : DirectSessions S :=
  { d with peers := modify d.peers peerId fun c => { c with state := .disconnected, quicOutTx := none, endpoints := ∅ } }

/-- Whether a message that arrived on a session is handled: its session is filed, it names the session's device, and on a
device's session it is signed by the peer's key. -/
def signalTaken (P : Platform) (s : DirectNet) (task : SessionTask) (msg : SignalingMessage) : Bool :=
  match mediaAttribution s.manager.direct task.startedAs task.endpoint with
  | none => false
  | some canonical =>
    msg.sourceDevice == task.endpoint.device &&
      (task.endpoint.device.isNone || (b64urlDecode msg.sender).map (peerIdFromPubBytes P) == some canonical)

/-- The two messages of the invite handshake that may relabel a session. -/
def isHandshake (ty : MessageType) : Bool :=
  ty == .inviteHandshakeInit || ty == .inviteHandshakeAccept

/-- What can happen on the direct side. -/
inductive DirectAct where
  /-- `connect_direct_quic`, by a reconnect, a hole punch or an invite. -/
  | dial (peerId : String)
  | dialFailed (peerId : String)
  | dialAnswered (peerId : String) (link : Link) (connectionId now : Nat)
  | incoming (link : Link) (connectionId now : Nat)
  | ended (task : SessionTask)
  /-- A handshake message on a session, in the clear or out of an envelope. -/
  | signal (E : Env) (task : SessionTask) (msg : SignalingMessage) (encrypted : Bool)
  /-- A handshake message by way of a supernode. -/
  | relayed (E : Env) (msg : SignalingMessage) (supernodeId : String) (encrypted : Bool)
  | block (peerId : String)
  /-- Everything that leaves the session tables alone: other messages and the user's other commands. -/
  | elsewhere (σ : ConnectionManager Link)

/-- One step; a panicking task takes none. -/
def directStep (P : Platform) (s : DirectNet) : DirectAct → Option DirectNet
  | .dial peerId =>
    let dialing := if s.manager.direct.dials peerId then peerId :: s.dialing else s.dialing
    some { s with manager := { s.manager with direct := s.manager.direct.connectDirectQuic peerId }, dialing := dialing }
  | .dialFailed peerId =>
    if peerId ∈ s.dialing then some (failDial { s with dialing := s.dialing.erase peerId } peerId) else none
  | .dialAnswered peerId link connectionId now =>
    if peerId ∈ s.dialing then
      (dialAnswered P { s with dialing := s.dialing.erase peerId } peerId link connectionId now).toOption
    else none
  | .incoming link connectionId now => (incomingQuic P s link connectionId now).toOption
  | .ended task =>
    if task ∈ s.tasks then
      some { s with
        manager := { s.manager with direct := s.manager.direct.quicDisconnected task.startedAs (some task.endpoint) }
        tasks := s.tasks.erase task }
    else none
  | .signal E task msg encrypted =>
    if task ∈ s.tasks ∧ signalTaken P s task msg = true ∧ isHandshake msg.msgType = true then
      (handlePlain E s.manager msg ⟨some task.startedAs, none, encrypted⟩).map fun r => { s with manager := r.1 }
    else none
  | .relayed E msg supernodeId encrypted =>
    if isHandshake msg.msgType then
      (handlePlain E s.manager msg ⟨none, some supernodeId, encrypted⟩).map fun r => { s with manager := r.1 }
    else none
  | .block peerId => some { s with manager := { s.manager with direct := blockPeer s.manager.direct peerId } }
  | .elsewhere σ => some { s with manager := { σ with direct := s.manager.direct } }

end DoubleSlash.Manager
