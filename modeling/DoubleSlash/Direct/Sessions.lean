import DoubleSlash.Direct.PeerConnection
import DoubleSlash.Lib.Assoc

/-!
# The direct-session table

The part of `ConnectionManager` that files direct QUIC sessions under peer ids: the `peers` map, the aliases a relabel leaves
behind, and the handlers of `QuicConnected` and `QuicDisconnected` (`manager/mod.rs`, `manager/peer_session.rs`). A session
task names its peer by the id it was started with, so the table is reached through `resolve_quic_peer_alias`.

The table stands together with what runs beside it: the session tasks and the dials in flight. A step is one event the manager
handles.
-/

namespace DoubleSlash.Direct

open Tls Assoc

/-- The direct-session table of one manager. -/
structure DirectSessions (S : Type) where
  /-- `identity.peer_id()`. -/
  ownPeerId : String
  /-- Set when device routing is enabled. -/
  deviceId : Option DeviceId
  peers : HashMap String (PeerConnection S)
  quicPeerAliases : HashMap String String

namespace DirectSessions

variable {S : Type} [DecidableEq S]

/-- `resolve_quic_peer_alias`. -/
def resolveQuicPeerAlias (m : DirectSessions S) (peerId : String) : String :=
  (m.quicPeerAliases.lookup peerId).getD peerId

/-- The guard of `connect_direct_quic`: a peer that is connecting or connected is not dialled again. -/
def dials (m : DirectSessions S) (peerId : String) : Bool :=
  match m.peers.lookup peerId with
  | none => true
  | some peer => peer.state ≠ .connecting && peer.state ≠ .connected

/-- `connect_direct_quic`, at the table: the peer is marked as connecting when the dial starts. -/
def connectDirectQuic (m : DirectSessions S) (peerId : String) : DirectSessions S :=
  if m.dials peerId then
    let entry := (m.peers.lookup peerId).getD (PeerConnection.new peerId)
    { m with peers := m.peers.insert peerId { entry with state := .connecting } }
  else m

/-- The handler of `QuicConnected`. -/
def quicConnected (m : DirectSessions S) (peerId : String) (endpoint : DirectEndpoint) (outTx : S) (now : Nat) :
    DirectSessions S :=
  if endpoint.device.isSome && m.deviceId.isNone then m
  else
    let entry := (m.peers.lookup peerId).getD (PeerConnection.new peerId)
    match entry.registerEndpoint endpoint outTx with
    -- the entry is inserted before the session is refused
    | (_, false) => { m with peers := m.peers.insert peerId entry }
    | (entry, true) => { m with peers := m.peers.insert peerId { entry with connectedAt := some now } }

/-- A peer's connection once its last session is gone. -/
def dropSession (c : PeerConnection S) : PeerConnection S :=
  { c with state := .disconnected, quicOutTx := none }

/-- What is left to do when a disconnect is not a sibling's or a stale one. -/
def forgetSession (m : DirectSessions S) (peerId canonical : String) : DirectSessions S :=
  let peers := modify m.peers peerId dropSession
  { m with
    quicPeerAliases := m.quicPeerAliases.erase peerId
    peers := if canonical ≠ peerId then modify peers canonical dropSession else peers }

/-- The handler of `QuicDisconnected`, at the table. A dial that failed names no endpoint. -/
def quicDisconnected (m : DirectSessions S) (peerId : String) (endpoint : Option DirectEndpoint) : DirectSessions S :=
  let canonical := m.resolveQuicPeerAlias peerId
  match m.peers.lookup canonical, endpoint with
  | none, _ => m
  | some conn, some endpoint =>
    match conn.removeEndpoint endpoint with
    | (_, false) => m
    | (conn, true) =>
      let m := { m with peers := m.peers.insert canonical conn }
      if conn.endpoints.isEmpty then forgetSession m peerId canonical else m
  | some conn, none => if conn.endpoints.isEmpty then forgetSession m peerId canonical else m

/-- A list of endpoints, registered with a connection one after the other. -/
def moveEndpoints (endpoints : List (Option DeviceId × (Nat × S))) (entry : PeerConnection S) : PeerConnection S :=
  endpoints.foldl (fun entry e => (entry.registerEndpoint ⟨e.1, e.2.1⟩ e.2.2).1) entry

/-- `relabel_quic_peer_session`: file the sessions of `current` under `canonical` and remember the alias. -/
def relabelQuicPeerSession (m : DirectSessions S) (current canonical : String) : DirectSessions S :=
  if current = canonical ∨ canonical = "" ∨ canonical = m.ownPeerId then m
  else
    match m.peers.lookup current with
    | none => m
    | some provisional =>
      let peers := m.peers.erase current
      let entry := moveEndpoints provisional.endpoints.toList
        ((peers.lookup canonical).getD (PeerConnection.new canonical))
      let entry := { entry with connectedAt := provisional.connectedAt }
      { m with
        peers := peers.insert canonical entry
        quicPeerAliases := m.quicPeerAliases.insert current canonical }

/-- The table still has the channel of a session. -/
def holds (m : DirectSessions S) (tx : S) : Bool :=
  (values m.peers).any fun c => decide (c.quicOutTx = some tx) || c.channels.contains tx

end DirectSessions

/-! ## Session tasks -/

/-- A session task: the peer id it names in its events, its endpoint and the channel into it. -/
structure TrackedSession (S : Type) where
  startedAs : String
  endpoint : DirectEndpoint
  channel : S
  deriving DecidableEq

/-- The table, the sessions whose start has been handled and whose end has not, and the ids of the dials in flight. -/
structure Tracker (S : Type) where
  table : DirectSessions S
  live : List (TrackedSession S)
  dialing : List String

/-- A manager without sessions. -/
def Tracker.new {S : Type} (ownPeerId : String) (deviceId : Option Tls.DeviceId) : Tracker S where
  table := ⟨ownPeerId, deviceId, ∅, ∅⟩
  live := []
  dialing := []

/-- The events the table sees. -/
inductive TableEvent (S : Type) where
  /-- `connect_direct_quic`. -/
  | dial (peerId : String)
  /-- `QuicDisconnected` without an endpoint: a dial came to nothing. -/
  | dialFailed (peerId : String)
  /-- `QuicConnected`, of a session that answers a dial or of one that came in. -/
  | connected (session : TrackedSession S) (answers : Bool) (now : Nat)
  /-- `QuicDisconnected` with an endpoint: the session is over. -/
  | ended (session : TrackedSession S)
  /-- `relabel_quic_peer_session`. -/
  | relabel (current canonical : String)
  /-- `QuicSignalingData`. -/
  | data (session : TrackedSession S)

variable {S : Type} [DecidableEq S]

/-- One event; none when it cannot come. Connections that are open at the same time have different stable ids. -/
def trackStep (t : Tracker S) (event : TableEvent S) : Option (Tracker S) :=
  match event with
  | .dial peerId =>
    some { t with
      table := t.table.connectDirectQuic peerId
      dialing := if t.table.dials peerId then peerId :: t.dialing else t.dialing }
  | .dialFailed peerId =>
    if peerId ∈ t.dialing then
      some { t with table := t.table.quicDisconnected peerId none, dialing := t.dialing.erase peerId }
    else none
  | .connected session answers now =>
    if (t.live.any fun s => s.endpoint.connectionId == session.endpoint.connectionId) ||
        (answers && decide (session.startedAs ∉ t.dialing)) then none
    else
      some {
        table := t.table.quicConnected session.startedAs session.endpoint session.channel now
        live := session :: t.live
        dialing := if answers then t.dialing.erase session.startedAs else t.dialing }
  | .ended session =>
    if session ∈ t.live then
      some { t with
        table := t.table.quicDisconnected session.startedAs (some session.endpoint)
        live := t.live.erase session }
    else none
  | .relabel current canonical => some { t with table := t.table.relabelQuicPeerSession current canonical }
  | .data session => if session ∈ t.live then some t else none

end DoubleSlash.Direct
