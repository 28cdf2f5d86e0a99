import DoubleSlash.Lib.SetMap
import DoubleSlash.Sfu.Invites
import Mathlib.Data.Finset.Sort
import Mathlib.Data.Rat.Defs
import Mathlib.Algebra.Order.Ring.Rat
import Mathlib.Data.String.Basic

/-!
# Who hears what in a room

The rest of `SFURoom` in the supernode's `sfu.rs`: the active speakers of a room and the endpoints its frames go to. Scores and the
times of frames are rational numbers; the power of one half is a parameter.
-/

namespace DoubleSlash.Sfu

open Assoc Tls

/-- An identity and one of its devices, or none for the connection without one. -/
abbrev Endpoint := String × Option DeviceId

/-- `SpeakerScore`. -/
structure SpeakerScore where
  score : ℚ
  lastActive : ℚ
  deriving DecidableEq

/-- What is left of a score after a time: `0.5f64.powf(dt / SPEAKER_SCORE_HALF_LIFE_SECS)`. -/
structure Decay where
  factor : ℚ → ℚ
  factor_zero : factor 0 = 1

/-- `SpeakerScore::effective`. -/
def SpeakerScore.effective (decay : Decay) (s : SpeakerScore) (now : ℚ) : ℚ := s.score * decay.factor (max (now - s.lastActive) 0)

/-- `MAX_ACTIVE_SPEAKERS`. -/
def maxActiveSpeakers : Nat := 5

/-- `SPEAKER_SILENCE_SECS`. -/
def speakerSilenceSecs : ℚ := 3 / 5

/-- `f64::MAX`. -/
def f64Max : ℚ := (2 ^ 53 - 1) * 2 ^ 971

namespace SFURoom

section

variable (decay : Decay) (room : SFURoom SpeakerScore) (sender : String) (now : ℚ)

/-- The sender's score, decayed and one higher. -/
def bumpScore : SFURoom SpeakerScore :=
  let e := (room.speakerScores.lookup sender).getD { score := 0, lastActive := now }
  { room with speakerScores := room.speakerScores.insert sender { score := e.effective decay now + 1, lastActive := now } }

/-- Who has been silent too long is no longer tracked. -/
def dropSilent : SFURoom SpeakerScore :=
  let scores := retain room.speakerScores fun _ s => decide (now - s.lastActive ≤ speakerSilenceSecs)
  { room with
    speakerScores := scores
    activeSpeakers := room.activeSpeakers.filter fun id => (scores.lookup id).isSome }

/-- The score of a speaker now, zero when it is not tracked. -/
def effectiveOf (id : String) : ℚ := ((room.speakerScores.lookup id).map fun s => s.effective decay now).getD 0

/-- The place and the score of the first of the weakest active speakers. -/
def weakest : Nat × ℚ :=
  room.activeSpeakers.zipIdx.foldl
    (fun acc e => if room.effectiveOf decay now e.1 < acc.2 then (e.2, room.effectiveOf decay now e.1) else acc) (0, f64Max)

/-- `note_audio_should_forward`. -/
def noteAudioShouldForward : SFURoom SpeakerScore × Bool :=
  let room := (room.bumpScore decay sender now).dropSilent now
  if sender ∈ room.activeSpeakers then (room, true)
  else if room.activeSpeakers.length < maxActiveSpeakers then
    ({ room with activeSpeakers := room.activeSpeakers ++ [sender] }, true)
  else
    let weakest := room.weakest decay now
    if weakest.2 < room.effectiveOf decay now sender then
      ({ room with activeSpeakers := room.activeSpeakers.set weakest.1 sender }, true)
    else (room, false)

end

variable {S : Type}

/-- `chat_endpoints`. -/
def chatEndpoints (room : SFURoom S) : List Endpoint :=
  (room.deviceMembers.entries.filter fun e => e.2.voice || e.2.chat).map Sigma.fst

/-- `chat_delivery_endpoints`. -/
def chatDeliveryEndpoints (room : SFURoom S) (sender : String) (sourceDevice : Option DeviceId) : List Endpoint :=
  let sender := normalizePeerId sender
  room.chatEndpoints.filter fun e => decide (e.1 ≠ sender) || decide (e.2 ≠ sourceDevice)

/-- `chat_recipient_ids`. The order within a set is not the code's. -/
def chatRecipientIds (room : SFURoom S) : List String := room.participants.keys ++ SetMap.inOrder room.subscribers

end SFURoom

namespace SFURoomManager

/-- `audio_forward_targets`. -/
def audioForwardTargets (decay : Decay) (mgr : SFURoomManager SpeakerScore) (roomId sender : String) (now : ℚ) :
    SFURoomManager SpeakerScore × Option (List String) :=
  match mgr.rooms.lookup roomId with
  | none => (mgr, none)
  | some room =>
    let out := room.noteAudioShouldForward decay sender now
    (⟨mgr.rooms.insert roomId out.1⟩, if out.2 then some out.1.participantIds else none)

variable {S : Type}

/-- `get_chat_recipients`. -/
def getChatRecipients (mgr : SFURoomManager S) (roomId : String) : List String :=
  ((mgr.rooms.lookup roomId).map SFURoom.chatRecipientIds).getD []

end SFURoomManager

end DoubleSlash.Sfu
