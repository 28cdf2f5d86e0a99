import DoubleSlash.Sfu.Speakers
import DoubleSlash.Theorems.RoomMembership

/-!
# Operations on rooms

Every operation for a peer, and the audio of a speaker, keep the sets of the rooms those of the devices in them.
-/

namespace DoubleSlash.Sfu

open Assoc Tls

theorem normalize_ne_empty {s : String} (h : s ≠ "") : normalizePeerId s ≠ "" := by
  unfold normalizePeerId normalizePublicId
  dsimp only
  split_ifs
  · exact h
  · intro heq
    have hlist := congrArg String.toList heq
    rw [String.toList_append] at hlist
    exact absurd hlist (List.append_ne_nil_of_right_ne_nil _ (by decide))

section

variable {S : Type} {mgr : SFURoomManager S} {must : Prop} {room room' : SFURoom S}

/-- A room that only differs in who may enter, its tokens, its creator or its speakers. -/
theorem refines_congr (h : room.Refines must) (hdev : room'.deviceMembers = room.deviceMembers)
    (hpart : room'.participants = room.participants) (hsub : room'.subscribers = room.subscribers)
    (hsince : room'.emptySince = room.emptySince) : room'.Refines must := by
  have hunused : room'.isUnused = room.isUnused := by
    unfold SFURoom.isUnused
    rw [hpart, hsub]
  refine h.congr hdev hpart hsub ⟨?_, ?_⟩
  · rw [hsince, hunused]
    exact h.idle.unused
  · rw [hsince, hunused]
    exact h.idle.marked

theorem refines_validate (h : room.Refines must) (token p : String) : (room.validateAndConsumeToken token p).1.Refines must := by
  unfold SFURoom.validateAndConsumeToken
  split
  · exact h
  · split_ifs <;> exact refines_congr h rfl rfl rfl rfl

theorem refines_reregister (h : room.Refines must) (token p : String) : (room.reregisterInviteToken token p).1.Refines must := by
  unfold SFURoom.reregisterInviteToken
  split_ifs
  · exact h
  · exact refines_congr h rfl rfl rfl rfl

/-- **One operation.** -/
theorem allRefine_op (h : AllRefine mgr) (sha256 : List UInt8 → List UInt8) (now : Nat) (p : String) (op : RoomOp) :
    AllRefine (roomOp sha256 mgr now p op).1 := by
  cases op with
  | create roomId roomName roomType policy => exact h.create _ roomName roomType p policy
  | allow roomId => exact h.allow roomId p
  | adopt roomId =>
    unfold roomOp SFURoomManager.adoptCreatorIfEmpty
    dsimp only
    split_ifs
    · exact h
    · split
      · exact h
      · rename_i room hlook
        split_ifs
        · exact h.insert (refines_congr (h _ _ hlook) rfl rfl rfl rfl)
        · exact h
  | mint roomId token =>
    unfold roomOp SFURoomManager.generateInviteToken
    dsimp only
    split
    · exact h
    · rename_i room hlook
      exact h.insert (refines_congr (h _ _ hlook) rfl rfl rfl rfl)
  | mintChecked roomId token =>
    unfold roomOp SFURoomManager.generateInviteTokenChecked
    dsimp only
    split
    · exact h
    · rename_i room hlook
      split_ifs
      · exact h
      · exact h
      · exact h.insert (refines_congr (h _ _ hlook) rfl rfl rfl rfl)
  | reregister roomId token =>
    unfold roomOp SFURoomManager.reregisterInviteToken
    dsimp only
    split
    · exact h
    · rename_i room hlook
      exact h.insert (refines_reregister (h _ _ hlook) token p)
  | validate roomId token =>
    unfold roomOp SFURoomManager.validateRoomInvite
    dsimp only
    split
    · exact h
    · rename_i room hlook
      exact h.insert (refines_validate (h _ _ hlook) token p)
  | join device roomId => exact h.join p device roomId
  | leave device roomId => exact h.leave p device roomId
  | subscribe device roomId => exact h.subscribe p device roomId
  | unsubscribe device roomId => exact h.unsubscribe p device roomId
  | removeEndpoint device => exact h.removeEndpoint p device
  | removePeer => exact h.removePeer p
  | gc idleSecs => exact h.gc idleSecs
  | chatSender _ | peerAllowed _ | inVoice _ _ => exact h

end

/-- What a frame does to a room it is noted in concerns its speakers only. -/
structure SpeakersOnly (room room' : SFURoom SpeakerScore) : Prop where
  devices : room'.deviceMembers = room.deviceMembers
  participants : room'.participants = room.participants
  subscribers : room'.subscribers = room.subscribers
  emptySince : room'.emptySince = room.emptySince

theorem speakersOnly_note (decay : Decay) (room : SFURoom SpeakerScore) (sender : String) (now : ℚ) :
    SpeakersOnly room (room.noteAudioShouldForward decay sender now).1 := by
  unfold SFURoom.noteAudioShouldForward
  dsimp only
  split_ifs <;> exact ⟨rfl, rfl, rfl, rfl⟩

end DoubleSlash.Sfu
