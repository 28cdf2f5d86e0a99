import DoubleSlash.Sfu.Room
import Mathlib.Data.String.Basic

/-!
# Hole punching

The part of the supernode's `main.rs` that pairs two members which want a direct path. Times are in nanoseconds. Who is trusted, and
the address that the relay sees of a member, are inputs of a registration.
-/

namespace DoubleSlash.Supernode

open Assoc Sfu

/-- `PunchRegistration`. -/
structure PunchRegistration where
  registeredAt : Nat
  endpoints : HashMap String String

/-- `pending_punches`. -/
abbrev PendingPunches := HashMap (String × String) PunchRegistration

/-- A `PUNCH_READY`, and the member that it is sent to. -/
structure PunchReady where
  target : String
  peerId : String
  peerEndpoint : String
  yourEndpoint : String
  punchAt : Nat
  verified : Bool
  deriving DecidableEq

/-- `send_punch_ready`. -/
def sendPunchReady (now : Nat) (peerA peerB epA epB : String) (verified : Bool) : List PunchReady :=
  let punchAt := now + 500000000
  [{ target := peerA, peerId := peerB, peerEndpoint := epB, yourEndpoint := epA, punchAt := punchAt, verified := verified },
    { target := peerB, peerId := peerA, peerEndpoint := epA, yourEndpoint := epB, punchAt := punchAt, verified := verified }]

/-- A `PUNCH_REGISTER`, when it is handled, who is trusted then, and the addresses that the relay sees. -/
structure PunchRegister where
  sender : String
  targetPeer : String
  senderEndpoint : String
  now : Nat
  isTrusted : String → Bool
  getPeerRemoteAddr : String → Option String

/-- The key of a pair. -/
def pairKey (a b : String) : String × String := if a < b then (a, b) else (b, a)

/-- How long a registration waits. -/
@[irreducible] def punchStale : Nat := 30000000000

/-- `handle_punch_register_msg`. -/
def handlePunchRegisterMsg (punches : PendingPunches) (msg : PunchRegister) : PendingPunches × List PunchReady :=
  let sender := normalizePeerId msg.sender
  let targetPeer := normalizePeerId msg.targetPeer
  if !msg.isTrusted sender then (punches, [])
  else if !msg.isTrusted targetPeer then (punches, [])
  else
    let key := pairKey sender targetPeer
    let entry := (punches.lookup key).getD { registeredAt := msg.now, endpoints := ∅ }
    -- What the relay sees of the sender comes before what it says.
    let effectiveEndpoint := (msg.getPeerRemoteAddr sender).getD msg.senderEndpoint
    let endpoints := entry.endpoints.insert sender effectiveEndpoint
    if sender ∈ endpoints ∧ targetPeer ∈ endpoints then
      let epA := (endpoints.lookup key.1).getD ""
      let epB := (endpoints.lookup key.2).getD ""
      (punches.erase key, sendPunchReady msg.now key.1 key.2 epA epB true)
    else
      (retain (punches.insert key { entry with endpoints := endpoints }) fun _ info =>
        !decide (punchStale < msg.now - info.registeredAt), [])

end DoubleSlash.Supernode
