import DoubleSlash.Lib.Run
import DoubleSlash.Direct.Sessions

/-!
# Two managers that dial each other

Two managers dial each other at the same time, so that two connections come up between them and each manager sees both. A
session task (`run_quic_peer_session`) first reports `QuicConnected` with its channel; it closes its connection when nobody
holds that channel any more or when the other end closed it, and then reports `QuicDisconnected`. The four sessions and the
two managers interleave freely.
-/

namespace DoubleSlash.Direct

open Tls Assoc Run

/-- The two managers. -/
inductive Side where
  | a | b
  deriving DecidableEq, Repr

/-- The other manager. -/
def Side.other : Side → Side
  | .a => .b
  | .b => .a

/-- The two connections, by who dialled whom. -/
inductive Conn where
  | ab | ba
  deriving DecidableEq, Repr

/-- A direct session known only to its own peer: before the dials nothing of either connection is in a table, no session with
the other side is filed, and every peer filed as connected has a session. -/
structure Dials (S : Type) where
  peerId : Side → String
  device : Side → Option DeviceId
  /-- The stable id of a connection, as each side's endpoint numbers it. -/
  connectionId : Side → Conn → Nat
  /-- The channel into each side's session of a connection. -/
  tx : Side → Conn → S
  /-- When each side handles the connected event of a connection. -/
  clock : Side → Conn → Nat
  /-- The tables before the dials. -/
  before : Side → DirectSessions S
  connectionId_ne : ∀ s, connectionId s .ab ≠ connectionId s .ba
  tx_ne : ∀ s, tx s .ab ≠ tx s .ba
  deviceId_eq : ∀ s, (before s).deviceId = device s
  idle : ∀ s e, (before s).peers.lookup (peerId s.other) = some e →
    e.state = .disconnected ∧ e.quicOutTx = none ∧ e.endpoints.isEmpty
  fresh : ∀ s c p e, (before s).peers.lookup p = some e →
    e.quicOutTx ≠ some (tx s c) ∧
      ∀ (d : Option DeviceId) id t, e.endpoints[d]? = some (id, t) → id ≠ connectionId s c ∧ t ≠ tx s c
  live : ∀ s p e, (before s).peers.lookup p = some e → e.state = .connected → e.channels ≠ []

/-- How far one side's session of a connection has come. -/
structure Session where
  /-- The manager has handled its `QuicConnected`. -/
  connected : Bool
  /-- The task has closed the connection and reported so. -/
  ended : Bool
  /-- The manager has handled its `QuicDisconnected`. -/
  disconnected : Bool
  deriving DecidableEq, Repr

/-- Both managers and the sessions between them. -/
structure World (S : Type) where
  manager : Side → DirectSessions S
  session : Side → Conn → Session
  closed : Conn → Bool

/-- What can happen next. -/
inductive Act where
  | connected (s : Side) (c : Conn)
  | ended (s : Side) (c : Conn)
  | disconnected (s : Side) (c : Conn)
  deriving DecidableEq, Repr

section

variable {S : Type} [DecidableEq S] (D : Dials S)

namespace Dials

/-- The endpoint a side's session of a connection reports. -/
def endpoint (s : Side) (c : Conn) : DirectEndpoint where
  device := D.device s.other
  connectionId := D.connectionId s c

/-- Both dials have been started. -/
def start : World S where
  manager s := (D.before s).connectDirectQuic (D.peerId s.other)
  session _ _ := ⟨false, false, false⟩
  closed _ := false

/-- One session of the world, changed. -/
def setSession (w : World S) (s : Side) (c : Conn) (x : Session) : Side → Conn → Session :=
  Function.update w.session s (Function.update (w.session s) c x)

/-- One step. -/
def step (w : World S) : Act → Option (World S)
  | .connected s c =>
    let x := w.session s c
    if x.connected then none
    else some { w with
      manager := Function.update w.manager s
        ((w.manager s).quicConnected (D.peerId s.other) (D.endpoint s c) (D.tx s c) (D.clock s c))
      session := setSession w s c { x with connected := true } }
  | .ended s c =>
    let x := w.session s c
    -- nobody holds the channel, or the other end has closed the connection
    if !x.ended && (x.connected && !(w.manager s).holds (D.tx s c) || w.closed c) then
      some { w with session := setSession w s c { x with ended := true }, closed := Function.update w.closed c true }
    else none
  | .disconnected s c =>
    let x := w.session s c
    if x.connected && x.ended && !x.disconnected then
      some { w with
        manager := Function.update w.manager s
          ((w.manager s).quicDisconnected (D.peerId s.other) (some (D.endpoint s c)))
        session := setSession w s c { x with disconnected := true } }
    else none

/-- All events are processed: nothing can happen any more. -/
def Quiescent (w : World S) : Prop :=
  ∀ a, D.step w a = none

/-- The connection is registered at a side. -/
def Registered (w : World S) (s : Side) (c : Conn) : Prop :=
  ∃ e, (w.manager s).peers.lookup (D.peerId s.other) = some e ∧ e.hasEndpoint (D.endpoint s c) = true

/-- No side files a peer as connected whose sessions are all closed. -/
def NoDeadPeer (w : World S) : Prop :=
  ∀ s p e, (w.manager s).peers.lookup p = some e → e.state = .connected →
    ∃ t ∈ e.channels, ∀ c, t = D.tx s c → w.closed c = false

/-- A session is left: one connection is registered at both sides, and no side keeps a dead peer. -/
def SessionLeft (w : World S) : Prop :=
  (∃ c, D.Registered w .a c ∧ D.Registered w .b c) ∧ D.NoDeadPeer w

/-- A manager without a device id drops sessions that come with one. -/
def accepts (s : Side) : Bool :=
  !((D.device s.other).isSome && (D.device s).isNone)

end Dials

/-- The order in which a side handled the connected events. -/
def connects (s : Side) (acts : List Act) : List Conn :=
  acts.filterMap fun
    | .connected s' c => if s' = s then some c else none
    | _ => none

end

end DoubleSlash.Direct
