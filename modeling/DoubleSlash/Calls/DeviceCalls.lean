import DoubleSlash.Manager.DirectLane

/-!
# Device calls

`device_calls.rs`: one answering device per call, while the other devices keep their sessions. A call is offered to every device of
the callee; the calling device records the first that answers and tells all of them which one it took. Times are nanoseconds of one
clock, which `Instant::now` and the timestamps of messages share.
-/

namespace DoubleSlash.Calls

open Protocol Manager Tls Assoc Codec

/-- `Phase`. -/
inductive Phase where
  | outgoing | incoming | answering | active
  deriving DecidableEq, Repr

/-- `DeviceCall`. -/
structure DeviceCall where
  id : String
  remote : Option DeviceId
  phase : Phase
  deadline : Nat
  initiator : Bool
  confirmed : Bool
  lastSelection : Option Nat
  deriving DecidableEq

/-- `Duration::from_secs`. -/
def secs (n : Nat) : Nat := n * 1000000000

/-- `is_call`. -/
def isCall : MessageType → Bool
  | .callRequest | .callAccept | .callReject | .callEnd => true
  | _ => false

/-- What the call table tells the user interface. -/
inductive CallEvent where
  | callAnsweredElsewhere (peerId : String)
  | callEnded (peerId : String)
  deriving DecidableEq, Repr

/-- The manager with its call table and the fallback of a call to a private room. -/
structure CallManager (S : Type) where
  manager : ConnectionManager S
  deviceCalls : HashMap String DeviceCall := ∅
  pendingCallFallbackChecks : HashMap String Nat := ∅
  /-- The peer of the pending `DirectFallbackCoordinator` entry. -/
  directFallback : Option String := none

/-- `serde_json` of a device id: the array of its bytes. -/
def deviceToJson (device : DeviceId) : Json :=
  .arr (device.bytes.map fun b => .int b.toNat)

/-- `json!(call.remote)`. -/
def remoteToJson (remote : Option DeviceId) : Json :=
  remote.elim .null deviceToJson

/-- A number that is a byte. -/
def byteOfJson : Json → Option UInt8
  | .int n => if 0 ≤ n ∧ n < 256 then some (UInt8.ofNat n.toNat) else none
  | _ => none

/-- `serde_json::from_value::<DeviceId>`. -/
def deviceOfJson : Json → Option DeviceId
  | .arr items => (items.mapM byteOfJson).bind DeviceId.ofBytes?
  | _ => none

namespace CallManager

variable {S : Type}

/-- `self.device_id`. -/
def deviceId (c : CallManager S) : Option DeviceId := c.manager.direct.deviceId

/-- The call a request starts: its id is 16 random bytes in hexadecimal. -/
def outgoingCall (nonce : List UInt8) (now : Nat) : DeviceCall where
  id := hexEncode nonce
  remote := none
  phase := .outgoing
  deadline := now + secs 60
  initiator := true
  confirmed := false
  lastSelection := none

/-- The message with the call's id and for the call's device. -/
def addressed (msg : SignalingMessage) (call : DeviceCall) : SignalingMessage :=
  { msg with payload := msg.payload.insert "call_id" (.str call.id), targetDevice := call.remote }

/-- A peer's call goes, and with it the fallback that was prepared for it. -/
def dropCall (c : CallManager S) (peer : String) : CallManager S :=
  { c with
    deviceCalls := c.deviceCalls.erase peer
    pendingCallFallbackChecks := c.pendingCallFallbackChecks.erase peer
    directFallback := if c.directFallback = some peer then none else c.directFallback }

/-- `prepare_device_call`: the message that may go out, if any. -/
def prepareDeviceCall (c : CallManager S) (msg : SignalingMessage) (nonce : List UInt8) (now : Nat) :
    CallManager S × Option SignalingMessage :=
  if c.deviceId.isNone || !isCall msg.msgType then (c, some msg)
  -- selection confirmations are assembled by the answer handler, with the call id in place
  else if msg.payload.flag "device_selection" || msg.payload.flag "device_selection_ack" then (c, some msg)
  else
    match msg.target with
    | none => (c, none)
    | some target =>
      let peer := canonicalPeerIdForSender c.manager target
      if msg.msgType = .callRequest then
        let call := (c.deviceCalls.lookup peer).getD (outgoingCall nonce now)
        ({ c with deviceCalls := c.deviceCalls.insert peer call }, some (addressed msg call))
      else
        match c.deviceCalls.lookup peer with
        | none => (c, none)
        | some call =>
          if msg.msgType = .callAccept then
            if call.phase ≠ .incoming ∧ call.phase ≠ .answering then (c, none)
            else
              let answering := { call with phase := .answering, deadline := now + secs 15 }
              ({ c with deviceCalls := c.deviceCalls.insert peer answering }, some (addressed msg call))
          else (c.dropCall peer, some (addressed msg call))

/-- The start of `dispatch_outbound`: the source device is stamped on the message before the call table sees it. -/
def dispatchOutbound (c : CallManager S) (msg : SignalingMessage) (nonce : List UInt8) (now : Nat) :
    CallManager S × Option SignalingMessage :=
  c.prepareDeviceCall { msg with sourceDevice := c.deviceId } nonce now

/-- The selection of a call's device, to every device of the peer. -/
def selectionMessage (c : CallManager S) (peer : String) (call : DeviceCall) (now : Nat) : SignalingMessage :=
  { SignalingMessage.new .callAccept c.manager.publicId (now / secs 1) with
    target := some peer
    sourceDevice := c.deviceId
    payload := ((Payload.insert [] "call_id" (.str call.id)).insert "device_selection" (.bool true)).insert "selected_device"
      (remoteToJson call.remote) }

/-- The acknowledgement of a selection, to the device that made it. -/
def ackMessage (c : CallManager S) (peer id : String) (source : DeviceId) (now : Nat) : SignalingMessage :=
  { SignalingMessage.new .callAccept c.manager.publicId (now / secs 1) with
    target := some peer
    targetDevice := some source
    sourceDevice := c.deviceId
    payload := (Payload.insert [] "call_id" (.str id)).insert "device_selection_ack" (.bool true) }

/-- What `receive_device_call` does: the manager afterwards, what it sends, what it tells, and whether the usual call handling
consumes the message. -/
structure Received (S : Type) where
  state : CallManager S
  outbound : List SignalingMessage := []
  events : List CallEvent := []
  consumed : Bool := false

/-- The text has the form of a call id: 32 hexadecimal digits. -/
def validCallId (id : String) : Bool :=
  id.toList.length == 32 && id.toList.all fun c => (hexDigit c).isSome

/-- The call id a message names. -/
def callIdOf (msg : SignalingMessage) : Option String :=
  ((msg.payload.get "call_id").bind Json.asStr).filter validCallId

/-- The selected device a message names. -/
def selectedDeviceOf (msg : SignalingMessage) : Option DeviceId :=
  (msg.payload.get "selected_device").bind deviceOfJson

/-- The call a request from a device leaves with the callee. -/
def incomingCall (id : String) (source : DeviceId) (now : Nat) : DeviceCall where
  id := id
  remote := some source
  phase := .incoming
  deadline := now + secs 60
  initiator := false
  confirmed := false
  lastSelection := none

/-- The branch of `receive_device_call` for a `CallRequest`. -/
def receiveRequest (c : CallManager S) (msg : SignalingMessage) (peer id : String) (source : DeviceId) (now : Nat) :
    Received S :=
  match c.deviceCalls.lookup peer with
  | some call =>
    -- an active call may receive the coordinates of a private room; another call does not replace it
    { state := c
      consumed := decide (call.id = id) && decide (call.remote = some source) &&
        (msg.payload.get "fallback_room_id").isSome }
  | none =>
    { state := { c with deviceCalls := c.deviceCalls.insert peer (incomingCall id source now) }
      consumed := true }

/-- The branch for a selection. -/
def receiveSelection (c : CallManager S) (msg : SignalingMessage) (peer : String) (call : DeviceCall) (source : DeviceId)
    (now : Nat) : Received S :=
  if call.remote ≠ some source ∨ call.phase = .outgoing then { state := c }
  else
    match selectedDeviceOf msg with
    | none => { state := c }
    | some selected =>
      if some selected = c.deviceId then
        if call.phase ≠ .answering ∧ call.phase ≠ .active then { state := c }
        else
          { state := { c with deviceCalls := c.deviceCalls.insert peer { call with phase := .active, confirmed := true } }
            outbound := [c.ackMessage peer call.id source now] }
      else
        { state := { c with deviceCalls := c.deviceCalls.erase peer }
          events := [.callAnsweredElsewhere peer] }

/-- The branch for an answer: the first one is recorded, and every one is told the device that was. -/
def receiveAnswer (c : CallManager S) (peer : String) (call : DeviceCall) (source : DeviceId) (now : Nat) : Received S :=
  let first := decide (call.phase = .outgoing)
  if !call.initiator || (!first && decide (call.phase ≠ .active)) then { state := c }
  else
    let call := if first then { call with remote := some source, phase := .active, deadline := now + secs 15 } else call
    let call := { call with lastSelection := some now }
    { state := { c with deviceCalls := c.deviceCalls.insert peer call }
      outbound := [c.selectionMessage peer call now]
      consumed := first }

/-- `receive_device_call`; `quota` is the answer of the inbound quota. -/
def receiveDeviceCall (c : CallManager S) (msg : SignalingMessage) (quota : Bool) (now : Nat) : Received S :=
  if c.deviceId.isNone || !isCall msg.msgType then { state := c, consumed := true }
  else if !quota then { state := c }
  else
    match msg.sourceDevice, callIdOf msg with
    | some source, some id =>
      let peer := canonicalPeerIdForSender c.manager msg.sender
      if msg.msgType = .callRequest then c.receiveRequest msg peer id source now
      else
        match (c.deviceCalls.lookup peer).filter fun call => call.id == id with
        | none => { state := c }
        | some call =>
          if msg.msgType = .callAccept then
            if msg.payload.flag "device_selection_ack" then
              if call.initiator && decide (call.phase = .active) && decide (call.remote = some source) then
                { state := { c with deviceCalls := c.deviceCalls.insert peer { call with confirmed := true } } }
              else { state := c }
            else if msg.payload.flag "device_selection" then c.receiveSelection msg peer call source now
            else c.receiveAnswer peer call source now
          -- a decline from one ringing device does not cancel the answer of another
          else if call.phase = .outgoing ∨ call.remote ≠ some source then { state := c }
          else { state := { c with deviceCalls := c.deviceCalls.erase peer }, consumed := true }
    | _, _ => { state := c }

/-- The call is over its deadline and not confirmed. -/
def expired (now : Nat) (call : DeviceCall) : Bool :=
  (decide (call.phase ≠ .active) || !call.confirmed) && decide (call.deadline ≤ now)

/-- `expire_device_calls`. -/
def expireDeviceCalls (c : CallManager S) (now : Nat) : CallManager S × List CallEvent :=
  let peers := (c.deviceCalls.entries.filter fun e => expired now e.2).map Sigma.fst
  (peers.foldl dropCall c, peers.map .callEnded)

/-- The selection of the call is to be repeated. -/
def retries (now : Nat) (call : DeviceCall) : Bool :=
  call.initiator && decide (call.phase = .active) && !call.confirmed &&
    call.lastSelection.all fun last => decide (last + secs 3 ≤ now)

/-- `retry_device_call_selections`. -/
def retryDeviceCallSelections (c : CallManager S) (now : Nat) : CallManager S × List SignalingMessage :=
  let due := c.deviceCalls.entries.filter fun e => retries now e.2
  ({ c with deviceCalls := mapValues c.deviceCalls fun call =>
      if retries now call then { call with lastSelection := some now } else call },
    due.map fun e => c.selectionMessage e.1 e.2 now)

/-- `device_call_accepts_media`. -/
def deviceCallAcceptsMedia (c : CallManager S) (peer : String) (device : Option DeviceId) : Bool :=
  c.deviceId.isNone || (c.deviceCalls.lookup peer).any fun call => decide (call.phase = .active) && decide (call.remote = device)

end CallManager

end DoubleSlash.Calls
