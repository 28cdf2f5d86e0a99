import DoubleSlash.Lib.Assoc
import DoubleSlash.Lib.Machine

/-!
# Video behind the audio

`media_sync.rs`: the audio of a peer is the timeline, and the decoded frames of its video wait for their moment in a queue. A
timestamp is a number of microseconds on the sender's clock, an instant a number of nanoseconds on the local one. The two
additions of `decide_against` are checked: one that leaves the word of 64 bits is a fault, as it is in a debug build.
-/

namespace DoubleSlash.MediaSync

open Assoc Machine

def LATE_TOLERANCE_US : Nat := 50000

def EARLY_TOLERANCE_US : Nat := 10000

def MAX_QUEUED_FRAMES : Nat := 6

/-- `ANCHOR_STALE_AFTER`: 400 ms. -/
def ANCHOR_STALE_AFTER : Nat := 400000000

/-- The last content-audio frame played for one peer, and when. -/
structure PlayoutAnchor where
  ptsUs : Nat
  playedAt : Nat
  deriving DecidableEq

/-- `extrapolate`: where the sender's audio timeline has reached. -/
def PlayoutAnchor.extrapolate (a : PlayoutAnchor) (now : Nat) : Nat :=
  -- `saturating_duration_since`, `as_micros() as u64`, `saturating_add`
  min (a.ptsUs + (now - a.playedAt) / 1000 % 2 ^ 64) (2 ^ 64 - 1)

/-- `is_stale`. -/
def PlayoutAnchor.isStale (a : PlayoutAnchor) (now : Nat) : Bool := ANCHOR_STALE_AFTER ≤ now - a.playedAt

/-- What to do with a decoded video frame right now. -/
inductive SyncDecision where
  | showNow
  | hold
  | drop
  deriving DecidableEq, Repr

/-- `decide_against`. -/
def decideAgainst (audioNowUs : Option Nat) (ptsUs : Nat) : Except Fault SyncDecision :=
  match audioNowUs with
  | none => .ok .showNow
  | some audioNow =>
    match add .debug .w64 ptsUs LATE_TOLERANCE_US with
    | .error fault => .error fault
    | .ok latest =>
      if latest < audioNow then .ok .drop
      else match add .debug .w64 audioNow EARLY_TOLERANCE_US with
        | .error fault => .error fault
        | .ok reach => if ptsUs ≤ reach then .ok .showNow else .ok .hold

/-- A decoded frame waiting for its moment. -/
structure QueuedFrame (T : Type) where
  ptsUs : Nat
  payload : T
  deriving DecidableEq

/-- Per-peer video hold queues and audio anchors. -/
structure VideoPlayout (T : Type) where
  anchors : HashMap String PlayoutAnchor
  queues : HashMap String (List (QueuedFrame T))

section

variable {T : Type}

/-- The sweep of `push`: the frames to show, and those that stay in the queue. -/
def sweep (audioNow : Option Nat) : List (QueuedFrame T) → Except Fault (List (QueuedFrame T) × List (QueuedFrame T))
  | [] => .ok ([], [])
  | f :: rest =>
    match decideAgainst audioNow f.ptsUs with
    | .error fault => .error fault
    | .ok decision =>
      match sweep audioNow rest with
      | .error fault => .error fault
      | .ok (out, kept) =>
        match decision with
        | .showNow => .ok (f :: out, kept)
        | .drop => .ok (out, kept)
        | .hold => .ok (out, f :: kept)

namespace VideoPlayout

def new : VideoPlayout T := ⟨∅, ∅⟩

/-- `note_audio_played`. -/
def noteAudioPlayed (v : VideoPlayout T) (peer : String) (ptsUs playedAt : Nat) : VideoPlayout T :=
  { v with anchors := v.anchors.insert peer { ptsUs, playedAt } }

/-- `audio_now_us`: the peer's audio timeline, where it can be steered by. -/
def audioNowUs (v : VideoPlayout T) (peer : String) (now : Nat) : Option Nat :=
  ((v.anchors.lookup peer).filter fun a => !a.isStale now).map fun a => a.extrapolate now

/-- `decide`. -/
def decide (v : VideoPlayout T) (peer : String) (ptsUs now : Nat) : Except Fault SyncDecision :=
  decideAgainst (v.audioNowUs peer now) ptsUs

/-- The frames held for a peer. -/
def queue (v : VideoPlayout T) (peer : String) : List (QueuedFrame T) := (v.queues.lookup peer).getD []

/-- The queue of a peer with one frame more, in the order of the timestamps and less the oldest that are too many. -/
def waiting (v : VideoPlayout T) (peer : String) (frame : QueuedFrame T) : List (QueuedFrame T) :=
  let sorted := (v.queue peer ++ [frame]).mergeSort fun f g => f.ptsUs ≤ g.ptsUs
  sorted.drop (sorted.length - MAX_QUEUED_FRAMES)

/-- `push`: the frames to show now, oldest first. -/
def push (v : VideoPlayout T) (peer : String) (frame : QueuedFrame T) (now : Nat) :
    Except Fault (VideoPlayout T × List (QueuedFrame T)) :=
  match sweep (v.audioNowUs peer now) (v.waiting peer frame) with
  | .error fault => .error fault
  | .ok (out, kept) => .ok ({ v with queues := v.queues.insert peer kept }, out)

/-- `queued_len`. -/
def queuedLen (v : VideoPlayout T) (peer : String) : Nat := (v.queue peer).length

/-- `forget`. -/
def forget (v : VideoPlayout T) (peer : String) : VideoPlayout T :=
  { anchors := v.anchors.erase peer, queues := v.queues.erase peer }

/-- `clear`. -/
def clear (_ : VideoPlayout T) : VideoPlayout T := ⟨∅, ∅⟩

end VideoPlayout

/-- The calls into a playout. -/
inductive Call (T : Type) where
  | noteAudioPlayed (peer : String) (ptsUs playedAt : Nat)
  | push (peer : String) (frame : QueuedFrame T) (now : Nat)
  | forget (peer : String)
  | clear

/-- The peer a call is about. -/
def Call.peer : Call T → Option String
  | .noteAudioPlayed peer _ _ => some peer
  | .push peer _ _ => some peer
  | .forget peer => some peer
  | .clear => none

/-- One call, and the frames it returns. -/
def VideoPlayout.call (v : VideoPlayout T) : Call T → Except Fault (VideoPlayout T × List (QueuedFrame T))
  | .noteAudioPlayed peer ptsUs playedAt => .ok (v.noteAudioPlayed peer ptsUs playedAt, [])
  | .push peer frame now => v.push peer frame now
  | .forget peer => .ok (v.forget peer, [])
  | .clear => .ok (v.clear, [])

end

end DoubleSlash.MediaSync
