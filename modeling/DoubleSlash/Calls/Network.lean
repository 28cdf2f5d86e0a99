import DoubleSlash.Calls.DeviceCalls

/-!
# Devices that call one another

Devices of any number of identities, each with a manager of its own, and everything they have sent. A message reaches a device it is
not withheld from (`target_device`) at any later time, any number of times or never, so that every order, duplicate and loss is a
run. A message that the screen of inbound messages drops is one that is not delivered.
-/

namespace DoubleSlash.Calls

open Protocol Manager Tls Assoc Codec Store

variable {S : Type}

/-- The coordinates of a private room, which a `CallRequest` may carry. -/
structure FallbackRoom where
  supernodeId : String
  roomId : String
  inviteToken : String

/-- The payload of `complete_direct_call_fallback`. -/
def FallbackRoom.payload (room : FallbackRoom) : Payload :=
  ((Payload.insert [] "fallback_supernode_id" (.str room.supernodeId)).insert "fallback_room_id" (.str room.roomId)).insert
    "fallback_invite_token" (.str room.inviteToken)

/-- A call message as the user interface and the fallback build it. -/
def CallManager.userMessage (c : CallManager S) (kind : MessageType) (target : String) (fallback : Option FallbackRoom)
    (now : Nat) : SignalingMessage :=
  { SignalingMessage.new kind c.manager.publicId (now / secs 1) with
    target := some target
    payload := fallback.elim [] FallbackRoom.payload }

/-- The tick of `group_key_retry`: calls expire, then selections are repeated. -/
def CallManager.tick (c : CallManager S) (now : Nat) : CallManager S × List SignalingMessage :=
  (c.expireDeviceCalls now).1.retryDeviceCallSelections now

/-- A request to this target starts a call, with an id of its own. -/
def CallManager.startsCall (c : CallManager S) (kind : MessageType) (target : String) : Bool :=
  decide (kind = .callRequest) && (c.deviceCalls.lookup (canonicalPeerIdForSender c.manager target)).isNone

/-- The devices, all they have sent, and the call ids drawn. -/
structure CallNet (S : Type) where
  endpoints : DeviceId → CallManager S
  sent : List SignalingMessage
  drawn : List String

/-- Before anything is sent: every device has device routing enabled under its own id, and no calls. -/
structure CallNet.Initial (n : CallNet S) : Prop where
  named : ∀ d, (n.endpoints d).deviceId = some d
  idle : ∀ d, (n.endpoints d).deviceCalls = ∅
  silent : n.sent = []
  undrawn : n.drawn = []

/-- What can happen. -/
inductive CallAct where
  /-- A user, or the fallback, requests, accepts, declines or ends. -/
  | send (device : DeviceId) (kind : MessageType) (target : String) (fallback : Option FallbackRoom) (nonce : List UInt8)
      (now : Nat)
  /-- The message with this index arrives. -/
  | deliver (device : DeviceId) (index : Nat) (quota : Bool) (now : Nat)
  | tick (device : DeviceId) (now : Nat)
  /-- Another part of the manager changes the peer store. -/
  | editStore (device : DeviceId) (store : PeerStore)

/-- A device's manager and what it sends. -/
def CallNet.update (n : CallNet S) (d : DeviceId) (c : CallManager S) (out : List SignalingMessage) : CallNet S :=
  { n with endpoints := Function.update n.endpoints d c, sent := n.sent ++ out }

/-- One step; none when it cannot happen. `OsRng` does not draw an id twice. -/
def callStep (n : CallNet S) : CallAct → Option (CallNet S)
  | .send d kind target fallback nonce now =>
    let c := n.endpoints d
    if !isCall kind then none
    else
      let (c', out) := c.dispatchOutbound (c.userMessage kind target fallback now) nonce now
      if c.startsCall kind target then
        if nonce.length ≠ 16 ∨ hexEncode nonce ∈ n.drawn then none
        else some { n.update d c' out.toList with drawn := hexEncode nonce :: n.drawn }
      else some (n.update d c' out.toList)
  | .deliver d index quota now =>
    match n.sent[index]? with
    | none => none
    | some msg =>
      let c := n.endpoints d
      if msg.targetDevice.isSome ∧ msg.targetDevice ≠ c.deviceId then none
      else
        let r := c.receiveDeviceCall msg quota now
        some (n.update d r.state r.outbound)
  | .tick d now =>
    let (c', out) := (n.endpoints d).tick now
    some (n.update d c' out)
  | .editStore d store =>
    let c := n.endpoints d
    some (n.update d { c with manager := { c.manager with store := store } } [])

/-! ## Two endpoints

Two endpoints that know each other, one at either end of a line. A message is delivered once, at any later time, or it is lost. -/

/-- The two endpoints, what is on its way to each, the call ids drawn, and the requests that were offered to a user. -/
structure CallPair (S : Type) where
  endpoints : Bool → CallManager S
  flight : List (Bool × SignalingMessage)
  drawn : List String
  offered : List (Bool × String)

/-- The key of the other endpoint in an endpoint's call table. -/
def CallPair.peerKey (p : CallPair S) (e : Bool) : String :=
  canonicalPeerIdForSender (p.endpoints e).manager (p.endpoints !e).manager.publicId

/-- An endpoint's call with the other one. -/
def CallPair.callOf (p : CallPair S) (e : Bool) : Option DeviceCall :=
  (p.endpoints e).deviceCalls.lookup (p.peerKey e)

/-- Before the first call. -/
structure CallPair.Initial (p : CallPair S) : Prop where
  enabled : ∀ e, (p.endpoints e).deviceId.isSome = true
  idle : ∀ e, (p.endpoints e).deviceCalls = ∅
  silent : p.flight = []

/-- What can happen between the two. -/
inductive PairAct where
  | send (side : Bool) (kind : MessageType) (target : String) (fallback : Option FallbackRoom) (nonce : List UInt8) (now : Nat)
  | deliver (index now : Nat)
  | lose (index : Nat)
  | tick (side : Bool) (now : Nat)

/-- An endpoint's manager afterwards, and what it sends to the other. -/
def CallPair.update (p : CallPair S) (e : Bool) (c : CallManager S) (out : List SignalingMessage) : CallPair S :=
  { p with endpoints := Function.update p.endpoints e c, flight := p.flight ++ out.map fun m => (!e, m) }

/-- One step; none when it cannot happen. A user names the other endpoint by any of its names. -/
def pairStep (p : CallPair S) : PairAct → Option (CallPair S)
  | .send e kind target fallback nonce now =>
    let c := p.endpoints e
    if !isCall kind || decide (canonicalPeerIdForSender c.manager target ≠ p.peerKey e) then none
    else
      let (c', out) := c.dispatchOutbound (c.userMessage kind target fallback now) nonce now
      if c.startsCall kind target then
        if nonce.length ≠ 16 ∨ hexEncode nonce ∈ p.drawn then none
        else some { p.update e c' out.toList with drawn := hexEncode nonce :: p.drawn }
      else some (p.update e c' out.toList)
  | .deliver index now =>
    match p.flight[index]? with
    | none => none
    | some (e, msg) =>
      let c := p.endpoints e
      -- what the endpoint does not take is lost
      if msg.targetDevice.isSome ∧ msg.targetDevice ≠ c.deviceId then none
      else
        let p := { p with flight := p.flight.eraseIdx index }
        let r := c.receiveDeviceCall msg true now
        let offered :=
          if msg.msgType = .callRequest ∧ r.consumed = true then (CallManager.callIdOf msg).toList.map fun id => (e, id) else []
        some { p.update e r.state r.outbound with offered := p.offered ++ offered }
  | .lose index => if index < p.flight.length then some { p with flight := p.flight.eraseIdx index } else none
  | .tick e now =>
    let (c', out) := (p.endpoints e).tick now
    some (p.update e c' out)

end DoubleSlash.Calls
