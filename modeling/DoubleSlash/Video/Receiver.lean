import DoubleSlash.Lib.Run
import DoubleSlash.Video.Fragment

/-!
# The decode thread

The loop of `video/receiver.rs`: one thread owns the decoders of all peers, bounds how many there are, asks senders for keyframes and
reports streams that stall. Instants are nanoseconds. What a decoder does with a frame is a parameter; the order of a map's entries is
whatever it is. Decoded frames go on to the playout of `media_sync.rs`.
-/

namespace DoubleSlash.Video

open Assoc Run

/-- `FAILURES_BEFORE_KEYFRAME_REQUEST`. -/
def failuresBeforeKeyframeRequest : Nat := 3

/-- `FAILURES_BEFORE_DECODER_REBUILD`. -/
def failuresBeforeDecoderRebuild : Nat := 15

/-- `STARVED_BEFORE_KEYFRAME_REQUEST`. -/
def starvedBeforeKeyframeRequest : Nat := 30

/-- `STARVED_BEFORE_DECODER_REBUILD`. -/
def starvedBeforeDecoderRebuild : Nat := 300

/-- `KEYFRAME_REQUEST_INTERVAL`: 1 s. -/
def keyframeRequestInterval : Nat := 1000000000

/-- `STALLED_KEYFRAME_INTERVAL`: 5 s. -/
def stalledKeyframeInterval : Nat := 5000000000

/-- `STALL_KEYFRAME_AFTER`: 2 s. -/
def stallKeyframeAfter : Nat := 2000000000

/-- `STALL_REPORT_AFTER`: 10 s. -/
def stallReportAfter : Nat := 10000000000

/-- `MAX_DECODED_STREAMS`. -/
def maxDecodedStreams : Nat := 4

/-- `STREAM_IDLE_EVICT`: 3 s. -/
def streamIdleEvict : Nat := 3000000000

/-- `InboundFrame`. -/
structure InboundFrame where
  peerId : String
  encoded : List UInt8
  codec : VideoCodec
  ptsUs : Nat

/-- The answer of a decoder: a picture, nothing to draw yet, or an error. -/
inductive DecodeResult (F : Type) where
  | picture (frame : F)
  | nothing
  | failed

/-- `PeerDecoder`. -/
structure PeerDecoder (D : Type) where
  codec : VideoCodec
  decoder : D

/-- `DecodeHealth`. -/
structure DecodeHealth where
  errors : Nat
  starved : Nat
  deriving DecidableEq

/-- `Control`. -/
inductive Control where
  | forget (peerId : String)
  | forgetAll
  deriving DecidableEq

/-- What the thread tells the others. -/
inductive ReceiverEvent (F : Type) where
  | requestKeyframe (peerId : String) (now : Nat)
  | reportStall (peerId : String) (stalled : Bool)
  | blankPeer (peerId : String)
  | blankAll
  | evicted (peerId : String)
  | decoded (peerId : String) (ptsUs : Nat) (frame : F)

/-- `Admission`. -/
inductive Admission where
  | decode
  | evict (peerId : String)
  | reject
  deriving DecidableEq

/-- `Iterator::max_by_key`: the last of the greatest elements. -/
def maxByKey {α : Type} (key : α → Nat) : List α → Option α
  | [] => none
  | x :: rest =>
    match maxByKey key rest with
    | none => some x
    | some y => if key y < key x then some x else some y

/-- `admit`. -/
def admitPeer (peer : String) (active : HashMap String Nat) (now : Nat) : Admission :=
  if peer ∈ active then .decode
  else if active.entries.length < maxDecodedStreams then .decode
  else
    -- `saturating_duration_since`
    match (maxByKey (fun e => now - e.2) active.entries).filter fun e => streamIdleEvict ≤ now - e.2 with
    | some e => .evict e.1
    | none => .reject

/-- The maps of the thread. -/
structure DecodeThread (D : Type) where
  decoders : HashMap String (PeerDecoder D)
  health : HashMap String DecodeHealth
  lastFrame : HashMap String Nat
  keyframeAsked : HashMap String Nat
  stalled : HashMap String Unit

/-- A frame that has arrived, whether something displays its peer, and what `make_decoder` makes for its codec. -/
structure Arrival (D : Type) where
  item : InboundFrame
  displayed : Bool
  now : Nat
  made : Option D

/-- What one turn of the loop finds: the control commands, who is displayed when it sweeps and when that is, and the next frame. -/
structure Turn (D : Type) where
  control : List Control
  hasSink : String → Bool
  sweptAt : Nat
  frame : Option (Arrival D)

namespace DecodeThread

section

variable {D F : Type}

def new : DecodeThread D := ⟨∅, ∅, ∅, ∅, ∅⟩

/-- `request_keyframe_throttled`. -/
def requestKeyframeThrottled (t : DecodeThread D) (peer : String) (now interval : Nat) : DecodeThread D × List (ReceiverEvent F) :=
  if (t.keyframeAsked.lookup peer).all fun asked => decide (interval ≤ now - asked) then
    ({ t with keyframeAsked := t.keyframeAsked.insert peer now }, [.requestKeyframe peer now])
  else (t, [])

/-- The report of a stall is taken back. -/
def retract (t : DecodeThread D) (peer : String) : DecodeThread D × List (ReceiverEvent F) :=
  if peer ∈ t.stalled then ({ t with stalled := t.stalled.erase peer }, [.reportStall peer false]) else (t, [])

/-- The body of `sweep_stalls` for one peer. -/
def sweepPeer (hasSink : String → Bool) (now : Nat) (acc : DecodeThread D × List (ReceiverEvent F)) (e : (_ : String) × Nat) :
    DecodeThread D × List (ReceiverEvent F) :=
  let quiet := now - e.2
  if !hasSink e.1 then acc
  else if quiet < stallKeyframeAfter then acc
  else
    let interval := if stallReportAfter ≤ quiet then stalledKeyframeInterval else keyframeRequestInterval
    let out := acc.1.requestKeyframeThrottled e.1 now interval
    if stallReportAfter ≤ quiet ∧ e.1 ∉ out.1.stalled then
      ({ out.1 with stalled := out.1.stalled.insert e.1 () }, acc.2 ++ (out.2 ++ [.reportStall e.1 true]))
    else (out.1, acc.2 ++ out.2)

/-- `sweep_stalls`. -/
def sweepStalls (t : DecodeThread D) (hasSink : String → Bool) (now : Nat) : DecodeThread D × List (ReceiverEvent F) :=
  t.lastFrame.entries.foldl (sweepPeer hasSink now) (t, [])

/-- A peer's decoder, health, slot and request are gone. -/
def remove (t : DecodeThread D) (peer : String) : DecodeThread D :=
  { t with
    decoders := t.decoders.erase peer
    health := t.health.erase peer
    lastFrame := t.lastFrame.erase peer
    keyframeAsked := t.keyframeAsked.erase peer }

/-- What `drain_control` has done: the maps, the reports taken back and the tiles to blank. -/
structure Drained (D F : Type) where
  thread : DecodeThread D
  reports : List (ReceiverEvent F)
  blank : List (ReceiverEvent F)

/-- One command of `drain_control`. -/
def apply (acc : Drained D F) : Control → Drained D F
  | .forget peer =>
    let out := (acc.thread.remove peer).retract peer
    ⟨out.1, acc.reports ++ out.2, acc.blank ++ [.blankPeer peer]⟩
  | .forgetAll => ⟨new, acc.reports ++ acc.thread.stalled.keys.map (fun peer => .reportStall peer false), acc.blank ++ [.blankAll]⟩

/-- `drain_control`, and the tiles it leaves blanked. -/
def drainControl (t : DecodeThread D) (control : List Control) : DecodeThread D × List (ReceiverEvent F) :=
  let out := control.foldl apply ⟨t, [], []⟩
  (out.thread, out.reports ++ out.blank)

/-- The slot of a frame, if it gets one. -/
def claim (t : DecodeThread D) (peer : String) (now : Nat) : Option (DecodeThread D × List (ReceiverEvent F)) :=
  match admitPeer peer t.lastFrame now with
  | .decode => some (t, [])
  | .evict stale =>
    let out := (t.remove stale).retract stale
    some (out.1, .evicted stale :: out.2)
  | .reject => none

/-- The counts of a frame without a picture, and what follows from them. -/
def setback (t : DecodeThread D) (peer : String) (now : Nat) (health : DecodeHealth) (n request rebuild : Nat) :
    DecodeThread D × List (ReceiverEvent F) :=
  let t := { t with health := t.health.insert peer health }
  let out := if request ≤ n then t.requestKeyframeThrottled peer now keyframeRequestInterval else (t, [])
  if rebuild ≤ n then ({ out.1 with decoders := out.1.decoders.erase peer, health := out.1.health.erase peer }, out.2) else out

/-- What follows from the answer of a decoder. -/
def answered (t : DecodeThread D) (item : InboundFrame) (now : Nat) : DecodeResult F → DecodeThread D × List (ReceiverEvent F)
  | .picture frame => ({ t with health := t.health.erase item.peerId }, [.decoded item.peerId item.ptsUs frame])
  | .nothing =>
    let n := ((t.health.lookup item.peerId).elim 0 DecodeHealth.starved) + 1
    t.setback item.peerId now ⟨0, n⟩ n starvedBeforeKeyframeRequest starvedBeforeDecoderRebuild
  | .failed =>
    let n := ((t.health.lookup item.peerId).elim 0 DecodeHealth.errors) + 1
    t.setback item.peerId now ⟨n, 0⟩ n failuresBeforeKeyframeRequest failuresBeforeDecoderRebuild

variable (decode : D → List UInt8 → D × DecodeResult F)

/-- The decoder of a peer for the codec of its frame, which takes the frame. -/
def decodeWith (t : DecodeThread D) (item : InboundFrame) (now : Nat) (decoder : D) : DecodeThread D × List (ReceiverEvent F) :=
  let out := decode decoder item.encoded
  answered { t with decoders := t.decoders.insert item.peerId ⟨item.codec, out.1⟩ } item now out.2

/-- A frame that has its slot. -/
def admitted (t : DecodeThread D) (a : Arrival D) : DecodeThread D × List (ReceiverEvent F) :=
  let t := { t with lastFrame := t.lastFrame.insert a.item.peerId a.now }
  let out := t.retract a.item.peerId
  let t := out.1
  -- A decoder built for a different codec cannot be reused.
  let t := if (t.decoders.lookup a.item.peerId).any fun d => decide (d.codec ≠ a.item.codec) then
      { t with decoders := t.decoders.erase a.item.peerId, health := t.health.erase a.item.peerId }
    else t
  match t.decoders.lookup a.item.peerId with
  | some d =>
    let next := decodeWith decode t a.item a.now d.decoder
    (next.1, out.2 ++ next.2)
  | none =>
    match a.made with
    | none => ({ t with lastFrame := t.lastFrame.erase a.item.peerId }, out.2)
    | some d =>
      let next := decodeWith decode t a.item a.now d
      (next.1, out.2 ++ next.2)

/-- A frame from the queue. -/
def receive (t : DecodeThread D) (a : Arrival D) : DecodeThread D × List (ReceiverEvent F) :=
  if !a.displayed then (t, [])
  else
    match (t.claim a.item.peerId a.now : Option (DecodeThread D × List (ReceiverEvent F))) with
    | none => (t, [])
    | some out =>
      let next := admitted decode out.1 a
      (next.1, out.2 ++ next.2)

/-- One turn of the loop. -/
def turn (t : DecodeThread D) (i : Turn D) : DecodeThread D × List (ReceiverEvent F) :=
  let drained : DecodeThread D × List (ReceiverEvent F) := t.drainControl i.control
  let swept : DecodeThread D × List (ReceiverEvent F) := drained.1.sweepStalls i.hasSink i.sweptAt
  let received : DecodeThread D × List (ReceiverEvent F) := i.frame.elim (swept.1, []) (receive decode swept.1)
  (received.1, drained.2 ++ (swept.2 ++ received.2))

/-- The loop, with all that it has told. -/
def loop (turns : List (Turn D)) : DecodeThread D × List (ReceiverEvent F) :=
  turns.foldl (fun acc i => ((turn decode acc.1 i).1, acc.2 ++ (turn decode acc.1 i).2)) (new, [])

end

end DecodeThread

end DoubleSlash.Video
