import DoubleSlash.Lib.Base64
import DoubleSlash.Lib.Text
import DoubleSlash.Protocol.Message

/-!
# The connection to a supernode

`supernode_ws_task` of the client's `ws.rs`: the task dials the addresses it has of a supernode, sends HELLO with a challenge, waits
for the proof, and passes messages both ways. Lookups, sockets, timers and the manager act when they please: each action is one thing
that one of the task's awaits can give it. What the WebSocket library answers by itself (to pings and closes) is not written here.
Delays are milliseconds, the times of messages seconds; parsing and printing JSON are parameters.
-/

namespace DoubleSlash.Manager

open Codec Protocol Tls

/-- `RECONNECT_BASE`. -/
def reconnectBase : Nat := 1000

/-- `RECONNECT_MAX`. -/
def reconnectMax : Nat := 60000

/-- `MAX_MESSAGES_BEFORE_PROOF`. -/
def maxMessagesBeforeProof : Nat := 64

/-- A frame of a WebSocket. -/
inductive WsMessage where
  | text (text : String)
  | binary (bytes : List UInt8)
  | ping (bytes : List UInt8)
  | pong (bytes : List UInt8)
  | close
  deriving DecidableEq

/-- What `ws_stream.next()` gives. -/
inductive WsRead where
  | frame (frame : WsMessage)
  | error
  | eof

/-- `InternalEvent`, as far as the task sends it. -/
inductive WsEvent where
  | wsConnected (peerId : String)
  | wsDisconnected (peerId : String)
  | wsSignalingMessage (supernodeId : String) (msg : SignalingMessage)
  | deviceRoutingUnsupported (peerId : String)

/-- `WsSessionEnd`. -/
inductive WsSessionEnd where
  | channelClosed
  | remoteClosed
  | networkChanged

/-- What happens on one connection, in order. -/
inductive WsEntry where
  /-- At a time. -/
  | read (next : WsRead) (now : Nat)
  | wrote (frame : WsMessage)
  /-- The outbound message with this number leaves the queue. -/
  | took (n : Nat) (frame : WsMessage)
  /-- And is written. -/
  | sent (n : Nat) (frame : WsMessage)
  | emitted (event : WsEvent)

/-- One call of `connect_and_run_ws`, and the event after it. -/
structure Attempt where
  url : String
  challenge : Option String
  log : List WsEntry

/-- What the task is given. -/
structure WsConfig where
  crypto : Crypto
  /-- `serde_json::from_str::<SignalingMessage>`. -/
  parse : String → Option SignalingMessage
  toJson : SignalingMessage → Option String
  /-- `identity.public_id()`, `identity.peer_id()` and `identity.sign`. -/
  publicId : String
  ownPeerId : String
  sign : List UInt8 → List UInt8
  deviceId : Option DeviceId
  /-- The supernode. -/
  peerId : String

/-- The addresses of one hint, and the attempt on one of them. -/
structure Dialing where
  targets : List String
  idx : Nat
  attempt : Attempt

/-- Where the task is. -/
inductive WsPhase where
  | choosing
  | lookingUp (hint : String)
  | connecting (d : Dialing)
  | proving (d : Dialing) (challenge : String) (early : List SignalingMessage)
  /-- Emitting what came before the proof. -/
  | opening (d : Dialing) (early : List SignalingMessage)
  | live (d : Dialing)
  | settling (targets : List String) (idx : Nat)
  | retrying
  | stopped

/-- The task, its channels, and its attempts so far. -/
structure WsTask where
  candidates : List String
  /-- Every outbound message so far, and how many of them the task has taken. -/
  queued : List WsMessage
  taken : Nat
  channelOpen : Bool
  /-- The permit of `reconnect_now`. -/
  permit : Bool
  backoff : Nat
  candidateIdx : Nat
  phase : WsPhase
  past : List Attempt
  drawn : List (List UInt8)

/-- `backoff_after_error`. -/
def backoffAfterError (current : Nat) (established : Bool) : Nat × Nat :=
  let wait := if established then reconnectBase else current
  (wait, min (wait * 2) reconnectMax)

namespace WsConfig

variable (cfg : WsConfig)

/-- `is_valid_hello_proof`, at a time. -/
def isValidHelloProof (msg : SignalingMessage) (challenge : String) (now : Nat) : Bool :=
  if Text.trimEndMatches '=' msg.sender != Text.trimEndMatches '=' cfg.peerId then false
  else if (msg.payload.get "challenge").bind Json.asStr != some challenge then false
  else
    match msg.signature.bind b64urlDecode, b64urlDecode msg.sender, cfg.crypto.canonicalBytes msg with
    | some sig, some key, some canonical => key.length == 32 && cfg.crypto.ed25519Verify key sig canonical && msg.isFresh now
    | _, _, _ => false

/-- `build_hello`, at a time. -/
def buildHello (challenge : String) (now : Nat) : Option String :=
  let msg := SignalingMessage.new .hello cfg.publicId now
  let payload : Payload := if cfg.deviceId.isSome then msg.payload.insert "device_routing" (.int 1) else msg.payload
  let msg := { msg with
    sourceDevice := cfg.deviceId
    payload := ((payload.insert "public_id" (.str cfg.publicId)).insert "peer_id" (.str cfg.ownPeerId)).insert "challenge"
      (.str challenge) }
  match cfg.crypto.canonicalBytes msg with
  | some canonical => cfg.toJson { msg with signature := some (b64urlEncodePadded (cfg.sign canonical)) }
  | none => cfg.toJson msg

/-- What one turn of the loop of `await_hello_proof` comes to. -/
inductive ProofStep where
  | waiting (early : List SignalingMessage)
  | proved (early : List SignalingMessage)
  | failed

/-- One turn of the loop of `await_hello_proof`. -/
def awaitHelloProof (challenge : String) (early : List SignalingMessage) (now : Nat) : WsRead → ProofStep
  | .frame (.text text) =>
    match cfg.parse text with
    | none => .waiting early
    | some msg =>
      if msg.msgType = .helloProof then
        if cfg.isValidHelloProof msg challenge now then .proved early else .failed
      else if maxMessagesBeforeProof ≤ early.length then .failed
      else .waiting (early ++ [msg])
  | .frame .close | .eof => .failed
  | .frame _ => .waiting early
  | .error => .failed

end WsConfig

/-- `new_hello_challenge`. -/
def newHelloChallenge (random : List UInt8) : String := b64urlEncode random

/-! ## The task's steps -/

namespace Attempt

def start (url : String) : Attempt := { url, challenge := none, log := [] }

def add (a : Attempt) (entry : WsEntry) : Attempt := { a with log := a.log ++ [entry] }

end Attempt

namespace Dialing

def add (d : Dialing) (entry : WsEntry) : Dialing := { d with attempt := d.attempt.add entry }

end Dialing

namespace WsTask

variable (cfg : WsConfig)

/-- The next turn of the loop over the targets. -/
def dial (s : WsTask) (targets : List String) (idx : Nat) : WsTask :=
  match targets[idx]? with
  | some url => { s with phase := .connecting ⟨targets, idx, .start url⟩ }
  | none => { s with phase := .choosing }

/-- `candidate_idx.wrapping_add(1)`. -/
def nextCandidate (s : WsTask) : Nat := (s.candidateIdx + 1) % 2 ^ 64

/-- The body of the loop over the targets after `connect_and_run_ws` has returned: with an end of the session, or an error. -/
def finish (s : WsTask) (d : Dialing) (outcome : Option WsSessionEnd) (established : Bool) : WsTask :=
  let s := { s with past := s.past ++ [d.attempt.add (.emitted (.wsDisconnected cfg.peerId))] }
  match outcome with
  | some .channelClosed => { s with phase := .stopped }
  | some .networkChanged => { s with backoff := reconnectBase, phase := .settling d.targets d.idx }
  | some .remoteClosed => { s with candidateIdx := s.nextCandidate, backoff := reconnectBase, phase := .retrying }
  | none =>
    if !established && decide (d.idx + 1 < d.targets.length) then
      s.dial d.targets (d.idx + 1)
    else
      { s with backoff := (backoffAfterError s.backoff established).2, candidateIdx := s.nextCandidate, phase := .retrying }

/-- The head of `'session`. -/
def choose (s : WsTask) : WsTask :=
  match s.candidates[s.candidateIdx % s.candidates.length]? with
  | some hint => { s with phase := .lookingUp hint }
  | none => { s with phase := .stopped }

/-- After `dial_targets_for`. -/
def lookedUp (s : WsTask) (targets : List String) : WsTask :=
  if targets.isEmpty then
    { s with candidateIdx := s.nextCandidate, backoff := (backoffAfterError s.backoff false).2, phase := .retrying }
  else
    s.dial targets 0

/-- `connect_and_run_ws` on a socket that is open, up to HELLO: whether the node agreed to device routing, the challenge, and whether
HELLO could be written. -/
def opened (s : WsTask) (d : Dialing) (agreed : Bool) (random : List UInt8) (now : Nat) (written : Bool) : WsTask :=
  if cfg.deviceId.isSome && !agreed then
    s.finish cfg ((d.add (.wrote .close)).add (.emitted (.deviceRoutingUnsupported cfg.peerId))) none false
  else
    let challenge := newHelloChallenge random
    let d := { d with attempt := { d.attempt with challenge := some challenge } }
    let s := { s with drawn := random :: s.drawn }
    match cfg.buildHello challenge now with
    | none => s.finish cfg d none false
    | some hello =>
      if written then { s with phase := .proving (d.add (.wrote (.text hello))) challenge [] }
      else s.finish cfg d none false

/-- A turn of `await_hello_proof`. -/
def awaited (s : WsTask) (d : Dialing) (challenge : String) (early : List SignalingMessage) (next : WsRead) (now : Nat) : WsTask :=
  let d := d.add (.read next now)
  match cfg.awaitHelloProof challenge early now next with
  | .waiting early => { s with phase := .proving d challenge early }
  | .proved early => { s with phase := .opening (d.add (.emitted (.wsConnected cfg.peerId))) early }
  | .failed => s.finish cfg d none false

/-- The inbound branch of the I/O loop. -/
def inbound (s : WsTask) (d : Dialing) (next : WsRead) (now : Nat) : WsTask :=
  let d := d.add (.read next now)
  match next with
  | .frame (.text text) =>
    match cfg.parse text with
    | some msg => { s with phase := .live (d.add (.emitted (.wsSignalingMessage cfg.peerId msg))) }
    | none => { s with phase := .live d }
  | .frame .close | .eof => s.finish cfg d (some .remoteClosed) true
  | .frame _ => { s with phase := .live d }
  | .error => s.finish cfg d none true

/-- The outbound branch of the I/O loop, when it is ready. -/
def outbound (s : WsTask) (d : Dialing) (written : Bool) : Option WsTask :=
  match s.queued[s.taken]? with
  | some frame =>
    let d := d.add (.took s.taken frame)
    let n := s.taken
    let s := { s with taken := s.taken + 1 }
    if written then some { s with phase := .live (d.add (.sent n frame)) }
    else some (s.finish cfg d none true)
  | none =>
    if s.channelOpen then none
    else some (s.finish cfg (if written then d.add (.wrote .close) else d) (some .channelClosed) true)

/-- The keepalive branch. -/
def ping (s : WsTask) (d : Dialing) (written : Bool) : WsTask :=
  if written then { s with phase := .live (d.add (.wrote (.ping []))) } else s.finish cfg d none true

end WsTask

/-- What can happen. -/
inductive WsAct where
  /-- The manager's side. -/
  | queue (frame : WsMessage)
  | closeChannel
  | setCandidates (candidates : List String)
  | notifyOne
  /-- The task's. -/
  | choose
  | lookedUp (targets : List String)
  /-- No connection: it timed out, or was refused, with or without word that the subprotocol is missing. -/
  | refused (unsupported : Bool)
  | opened (agreed : Bool) (random : List UInt8) (now : Nat) (written : Bool)
  | next (read : WsRead) (now : Nat)
  | proofTimeout
  | deliver
  | outbound (written : Bool)
  | ping (written : Bool)
  | idle
  | networkChanged
  | wake

namespace WsTask

variable (cfg : WsConfig)

/-- Before the task runs. -/
def start (candidates : List String) : WsTask where
  candidates := candidates
  queued := []
  taken := 0
  channelOpen := true
  permit := false
  backoff := reconnectBase
  candidateIdx := 0
  phase := if candidates.isEmpty then .stopped else .choosing
  past := []
  drawn := []

/-- Challenges are told apart by their bytes. -/
local instance lawfulChallenge : LawfulBEq (List UInt8) := inferInstance

/-- What the task does where it is; none when it does not wait for this. `OsRng` does not draw a challenge twice. -/
def taskStep (s : WsTask) : WsPhase → WsAct → Option WsTask
  | .choosing, .choose => some s.choose
  | .lookingUp _, .lookedUp targets => some (s.lookedUp targets)
  | .connecting d, .refused unsupported =>
    some (s.finish cfg (if cfg.deviceId.isSome && unsupported then d.add (.emitted (.deviceRoutingUnsupported cfg.peerId)) else d)
      none false)
  | .connecting d, .opened agreed random now written =>
    if random.length = 32 ∧ random ∉ s.drawn then some (s.opened cfg d agreed random now written) else none
  | .proving d challenge early, .next read now => some (s.awaited cfg d challenge early read now)
  | .proving d _ _, .proofTimeout => some (s.finish cfg d none false)
  | .opening d (msg :: early), .deliver =>
    some { s with phase := .opening (d.add (.emitted (.wsSignalingMessage cfg.peerId msg))) early }
  | .opening d [], .deliver => some { s with phase := .live d }
  | .live d, .outbound written => s.outbound cfg d written
  | .live d, .next read now => some (s.inbound cfg d read now)
  | .live d, .ping written => some (s.ping cfg d written)
  | .live d, .idle => some (s.finish cfg d none true)
  | .live d, .networkChanged => if s.permit then some ({ s with permit := false }.finish cfg d (some .networkChanged) true) else none
  | .settling targets idx, .wake => some (s.dial targets idx)
  | .retrying, .wake => some { s with phase := .choosing }
  | .retrying, .networkChanged => if s.permit then some { s with permit := false, phase := .choosing } else none
  | _, _ => none

/-- One step. -/
def step (s : WsTask) : WsAct → Option WsTask
  | .queue frame => if s.channelOpen then some { s with queued := s.queued ++ [frame] } else none
  | .closeChannel => some { s with channelOpen := false }
  | .setCandidates candidates => some { s with candidates }
  | .notifyOne => some { s with permit := true }
  | act => s.taskStep cfg s.phase act

end WsTask

end DoubleSlash.Manager
