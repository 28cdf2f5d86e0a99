import DoubleSlash.Lib.Assoc
import Mathlib.Algebra.Group.Nat.Defs

/-!
# Content audio playout

The jitter buffer of `content_playout.rs`, which is driven: frames are pushed as they arrive, and a tick every 20 ms plays one, conceals
one or has nothing to play. Sequence numbers are `u32` and wrap; timestamps are `u64` and saturate.
-/

namespace DoubleSlash.Playout

open Assoc

/-- `JITTER_DEPTH`. -/
def jitterDepth : Nat := 3

/-- `MAX_BUFFERED_FRAMES`. -/
def maxBufferedFrames : Nat := jitterDepth * 4

/-- `RESYNC_GAP`. -/
def resyncGap : Nat := 50

/-- `MAX_CONCEALED_FRAMES`. -/
def maxConcealedFrames : Nat := 20

/-- `FRAME_DURATION_US`: 960 samples at 48 kHz. -/
def frameDurationUs : Nat := 960 * 1000000 / 48000

/-- `u32::wrapping_add`. -/
def wrappingAdd (a b : Nat) : Nat := (a + b) % 2 ^ 32

/-- `u32::wrapping_sub`. -/
def wrappingSub (a b : Nat) : Nat := (a + (2 ^ 32 - b)) % 2 ^ 32

/-- `u64::saturating_add`. -/
def saturatingAdd (a b : Nat) : Nat := min (a + b) (2 ^ 64 - 1)

structure PendingFrame where
  seq : Nat
  ptsUs : Nat
  opus : List UInt8
  deriving DecidableEq

inductive TickAction where
  | play (frame : PendingFrame)
  | conceal (ptsUs : Nat)
  | idle
  deriving DecidableEq

structure JitterBuffer where
  pending : List PendingFrame
  nextSeq : Option Nat
  nextPtsUs : Nat
  concealedStreak : Nat
  buffering : Bool
  fillTicks : Nat
  deriving DecidableEq

namespace JitterBuffer

/-- `JitterBuffer::new`. -/
def new : JitterBuffer :=
  { pending := [], nextSeq := none, nextPtsUs := 0, concealedStreak := 0, buffering := true, fillTicks := 0 }

/-- `sort_by_key(|f| f.seq)` after a frame was added, and the oldest shed above the ceiling. -/
def arrange (pending : List PendingFrame) (frame : PendingFrame) : List PendingFrame :=
  let pending := (pending ++ [frame]).mergeSort fun f g => f.seq ≤ g.seq
  pending.drop (pending.length - maxBufferedFrames)

/-- `push`. -/
def push (b : JitterBuffer) (frame : PendingFrame) : JitterBuffer :=
  if b.pending.any fun f => f.seq == frame.seq then b
  else if b.nextSeq.any fun next => decide (frame.seq < next) && decide (wrappingSub next frame.seq < resyncGap) then b
  else { b with pending := arrange b.pending frame }

/-- `conceal`: silence for one frame, unless the stream is over, which resets the buffer. -/
def conceal (b : JitterBuffer) (advanceSeq : Bool) : TickAction × JitterBuffer :=
  if maxConcealedFrames ≤ b.concealedStreak then (.idle, new)
  else
    (.conceal b.nextPtsUs,
      { b with nextSeq := if advanceSeq then b.nextSeq.map fun s => wrappingAdd s 1 else b.nextSeq,
               nextPtsUs := saturatingAdd b.nextPtsUs frameDurationUs,
               concealedStreak := b.concealedStreak + 1 })

/-- `start_from`. -/
def startFrom (b : JitterBuffer) (frame : PendingFrame) : JitterBuffer :=
  { b with pending := b.pending.filter fun f => f.seq != frame.seq,
           nextSeq := some (wrappingAdd frame.seq 1),
           nextPtsUs := saturatingAdd frame.ptsUs frameDurationUs,
           concealedStreak := 0 }

/-- `tick`. -/
def tick (b : JitterBuffer) : TickAction × JitterBuffer :=
  if b.buffering then
    let stalled := decide (jitterDepth ≤ b.fillTicks) && !b.pending.isEmpty
    if b.pending.length < jitterDepth ∧ stalled = false then
      let b := { b with fillTicks := saturatingAdd b.fillTicks 1 }
      match b.nextSeq with
      -- The timeline moves across a refill; `next_seq` waits for the frames in flight.
      | some _ => b.conceal false
      | none => (.idle, b)
    else
      let b := { b with buffering := false, fillTicks := 0 }
      match b.pending.head? with
      | some first => (.play first, b.startFrom first)
      | none => (.idle, b)
  else
    match b.nextSeq with
    | none => (.idle, b)
    | some expected =>
      match b.pending.head? with
      | some first =>
        if resyncGap ≤ wrappingSub first.seq expected ∨ jitterDepth < b.pending.length ∨ first.seq = expected then
          (.play first, b.startFrom first)
        else
          b.conceal true
      | none => { b with buffering := true }.conceal false

/-- `is_idle`. -/
def isIdle (b : JitterBuffer) : Bool := b.nextSeq.isNone && b.pending.isEmpty

end JitterBuffer

/-! ## Calls of a buffer -/

inductive Op where
  | push (frame : PendingFrame)
  | tick
  deriving DecidableEq

/-- What a tick shows: its action, whether it forgets the timeline, and whether it waits for a frame before the ones it holds. -/
structure Event where
  action : TickAction
  reset : Bool
  waiting : Bool
  deriving DecidableEq

namespace Event

/-- The sequence number that is played. -/
def played (e : Event) : Option Nat :=
  match e.action with
  | .play frame => some frame.seq
  | .conceal _ => none
  | .idle => none

def conceals (e : Event) : Bool :=
  match e.action with
  | .conceal _ => true
  | .play _ => false
  | .idle => false

end Event

namespace JitterBuffer

/-- A later frame is here but the expected one is not. -/
def waiting (b : JitterBuffer) : Bool :=
  !b.buffering && b.nextSeq.any fun next => b.pending.head?.any fun first => decide (next < first.seq)

/-- One call. -/
def step (b : JitterBuffer) (op : Op) : JitterBuffer × Option Event :=
  match op with
  | .push frame => (b.push frame, none)
  | .tick =>
    (b.tick.2, some { action := b.tick.1, reset := b.nextSeq.isSome && b.tick.2.nextSeq.isNone, waiting := b.waiting })

end JitterBuffer

/-! ## The buffers of a call -/

/-- `ContentPlayout`. -/
structure ContentPlayout where
  buffers : HashMap String JitterBuffer

namespace ContentPlayout

/-- `ContentPlayout::new`. -/
def new : ContentPlayout := { buffers := ∅ }

/-- `accept`. -/
def accept (p : ContentPlayout) (peer : String) (frame : PendingFrame) : ContentPlayout :=
  { p with buffers := p.buffers.insert peer (((p.buffers.lookup peer).getD JitterBuffer.new).push frame) }

/-- `tick`: every buffer, and what is not idle; a buffer with nothing left is dropped. -/
def tick (p : ContentPlayout) : List (String × TickAction) × ContentPlayout :=
  (p.buffers.entries.filterMap fun e => if e.2.tick.1 = .idle then none else some (e.1, e.2.tick.1),
    { p with buffers := mapValues (retain p.buffers fun _ buf => buf.tick.1 != .idle || !buf.tick.2.isIdle) fun buf => buf.tick.2 })

/-- `forget`. -/
def forget (p : ContentPlayout) (peer : String) : ContentPlayout := { p with buffers := p.buffers.erase peer }

/-- `clear`. -/
def clear (p : ContentPlayout) : ContentPlayout := { p with buffers := ∅ }

inductive Call where
  | accept (peer : String) (frame : PendingFrame)
  | tick
  | forget (peer : String)
  | clear

def step (p : ContentPlayout) (call : Call) : ContentPlayout :=
  match call with
  | .accept peer frame => p.accept peer frame
  | .tick => p.tick.2
  | .forget peer => p.forget peer
  | .clear => p.clear

end ContentPlayout

end DoubleSlash.Playout
