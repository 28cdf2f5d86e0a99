import DoubleSlash.Lemmas.RoomOps
import DoubleSlash.Lib.Run
import DoubleSlash.Supernode.Frames

/-!
# Who puts frames into a room

What the node forwards for a peer, against who is in the room at that moment. Chat, files and camera states are guarded; audio is
not, and neither audio nor the request for a key frame keeps from its own sender in every case.
-/

namespace DoubleSlash.Supernode

open Assoc Codec Protocol Run Sfu Text Tls

/-! ## What is said of a frame -/

/-- The peer is in the voice or in the chat of the room. -/
def InRoom (sfu : SFURoomManager SpeakerScore) (roomId p : String) : Prop := sfu.isChatSender roomId p = true

/-- The identity a call delivers to. -/
def Delivery.recipient : Delivery → String
  | .peer id => id
  | .endpoint e => e.1

/-- The call delivers to the endpoint. -/
def Delivery.Reaches (d : Delivery) (e : Endpoint) : Prop :=
  match d with
  | .peer id => normalizePeerId id = normalizePeerId e.1
  | .endpoint t => normalizePeerId t.1 = normalizePeerId e.1 ∧ t.2 = e.2

/-- Only members put frames into a room, and only members get them. -/
structure OnlyMembers (sfu : SFURoomManager SpeakerScore) (msg : SignalingMessage) (out : Forwarded) : Prop where
  author : out.deliveries ≠ [] ∨ out.replicated ≠ none → InRoom sfu (roomOf msg) msg.sender
  recipients : ∀ d ∈ out.deliveries, InRoom sfu (roomOf msg) d.recipient
  echo : ∀ d ∈ out.deliveries, ¬d.Reaches (msg.sender, msg.sourceDevice)
  outsider : ¬InRoom sfu (roomOf msg) msg.sender → ∀ id, out.sfu.rooms.lookup id = sfu.rooms.lookup id

/-- The message carries audio, within the sender's quota, and names a room that is there. -/
def AudioArrives (quotas : Quotas) (sfu : SFURoomManager SpeakerScore) (msg : SignalingMessage) : Prop :=
  sfuAudioOpusByteCount msg ≠ 0 ∧ quotas.inbound "room.audio.sfu" msg.sender (sfuAudioOpusByteCount msg) = true ∧
    (sfu.rooms.lookup (roomOf msg)).isSome = true

/-- The sender is in the voice of the room under another spelling of its id, and the room and its own quota let the frame through. -/
def AudioReturns (quotas : Quotas) (sfu : SFURoomManager SpeakerScore) (msg : SignalingMessage) (raw : String) (decay : Decay) (now : ℚ) :
    Prop :=
  normalizePeerId msg.sender ≠ msg.sender ∧ ∃ room, sfu.rooms.lookup (roomOf msg) = some room ∧
    normalizePeerId msg.sender ∈ room.participants ∧ (room.noteAudioShouldForward decay msg.sender now).2 = true ∧
    quotas.outbound "room.audio.sfu" (normalizePeerId msg.sender, none) (byteLen raw.toList) = true

/-- When the node does as it should with a frame. -/
def FrameGuarded (quotas : Quotas) (sfu : SFURoomManager SpeakerScore) (msg : SignalingMessage) (raw : String) (decay : Decay) (now : ℚ) :
    Prop :=
  match msg.msgType with
  | .sfuAudio =>
    AudioArrives quotas sfu msg → InRoom sfu (roomOf msg) msg.sender ∧ ¬AudioReturns quotas sfu msg raw decay now
  | .sfuVideoKeyframeRequest =>
    InRoom sfu (roomOf msg) msg.sender → ∀ target, (msg.payload.get "target_peer").bind Json.asStr = some target →
      normalizePeerId target ≠ normalizePeerId msg.sender
  | _ => True

namespace RoomFramesAux

section

variable {quotas : Quotas} {sfu : SFURoomManager SpeakerScore} {cluster : Bool} {msg : SignalingMessage} {raw : String}
  {decay : Decay} {now : ℚ} {room : SFURoom SpeakerScore} {roomId p sender : String} {e : Endpoint}

theorem audio_dropped (h : ¬AudioArrives quotas sfu msg) :
    handleSfuAudioBroadcast quotas sfu cluster msg raw decay now = dropped sfu := by
  unfold handleSfuAudioBroadcast
  dsimp only
  by_cases hopus : sfuAudioOpusByteCount msg = 0
  · rw [if_pos hopus]
  · rw [if_neg hopus]
    by_cases hquota : quotas.inbound "room.audio.sfu" msg.sender (sfuAudioOpusByteCount msg) = false
    · rw [if_pos hquota]
    · rw [if_neg hquota]
      have hnone : sfu.rooms.lookup (roomOf msg) = none := by
        rw [Option.eq_none_iff_forall_ne_some]
        intro room hlook
        exact h ⟨hopus, Bool.of_not_eq_false hquota, by rw [hlook, Option.isSome_some]⟩
      unfold SFURoomManager.audioForwardTargets
      rw [hnone]

/-- Audio that arrives is noted in the room, whoever sent it. -/
theorem audio_noted (h : AudioArrives quotas sfu msg) (hlook : sfu.rooms.lookup (roomOf msg) = some room) :
    handleSfuAudioBroadcast quotas sfu cluster msg raw decay now =
      if (room.noteAudioShouldForward decay msg.sender now).2 then
        { sfu := ⟨sfu.rooms.insert (roomOf msg) (room.noteAudioShouldForward decay msg.sender now).1⟩
          deliveries := (room.participantIds.filter fun p =>
            decide (p ≠ msg.sender) && quotas.outbound "room.audio.sfu" (p, none) (byteLen raw.toList)).map Delivery.peer
          replicated := if cluster then some (roomOf msg, audioReplicationId msg) else none }
      else dropped ⟨sfu.rooms.insert (roomOf msg) (room.noteAudioShouldForward decay msg.sender now).1⟩ := by
  obtain ⟨hopus, hquota, -⟩ := h
  have hids : (room.noteAudioShouldForward decay msg.sender now).1.participantIds = room.participantIds := by
    unfold SFURoom.participantIds
    rw [(speakersOnly_note decay room msg.sender now).participants]
  unfold handleSfuAudioBroadcast SFURoomManager.audioForwardTargets
  dsimp only
  rw [if_neg hopus, hquota, if_neg Bool.true_eq_false_eq_False, hlook]
  dsimp only
  cases hforward : (room.noteAudioShouldForward decay msg.sender now).2 with
  | true => simp only [if_true, hids]
  | false => simp only [Bool.false_eq_true, if_false]

theorem allRefine_audio (h : AllRefine sfu) : AllRefine (handleSfuAudioBroadcast quotas sfu cluster msg raw decay now).sfu := by
  by_cases harrives : AudioArrives quotas sfu msg
  · obtain ⟨room, hlook⟩ := Option.isSome_iff_exists.mp harrives.2.2
    have honly := speakersOnly_note decay room msg.sender now
    have hnoted := h.insert (refines_congr (h _ _ hlook) honly.devices honly.participants honly.subscribers honly.emptySince)
    rw [audio_noted harrives hlook]
    split_ifs <;> exact hnoted
  · rw [audio_dropped harrives]
    exact h

/-- A frame that is not audio changes no room. -/
theorem frame_sfu (h : msg.msgType ≠ .sfuAudio) : (onRoomFrame quotas sfu cluster msg raw decay now).sfu = sfu := by
  have hfile : (handleSfuBroadcast quotas sfu msg raw).sfu = sfu := by
    unfold handleSfuBroadcast
    dsimp only
    split_ifs <;> rfl
  unfold onRoomFrame
  split
  · unfold handleSfuChatBroadcast
    dsimp only
    split_ifs <;> rfl
  · unfold handleSfuVideoState
    split_ifs <;> rfl
  · unfold handleSfuVideoKeyframeRequest
    split
    · rfl
    · split_ifs <;> rfl
  · rename_i hty
    exact absurd hty h
  all_goals first | exact hfile | rfl

theorem allRefine_frame (h : AllRefine sfu) : AllRefine (onRoomFrame quotas sfu cluster msg raw decay now).sfu := by
  by_cases hty : msg.msgType = .sfuAudio
  · have heq : onRoomFrame quotas sfu cluster msg raw decay now = handleSfuAudioBroadcast quotas sfu cluster msg raw decay now := by
      unfold onRoomFrame
      rw [hty]
    rw [heq]
    exact allRefine_audio h
  · rw [frame_sfu hty]
    exact h

/-! ## Who is in a room -/

theorem inRoom_iff (hlook : sfu.rooms.lookup roomId = some room) :
    InRoom sfu roomId p ↔ normalizePeerId p ∈ room.participants ∨ normalizePeerId p ∈ room.subscribers := by
  unfold InRoom SFURoomManager.isChatSender
  dsimp only
  rw [hlook, Option.any_some, Bool.or_eq_true, AList.lookup_isSome, decide_eq_true_eq]

theorem inRoom_absent (hlook : sfu.rooms.lookup roomId = none) : ¬InRoom sfu roomId p := by
  unfold InRoom SFURoomManager.isChatSender
  rw [hlook]
  exact Bool.false_ne_true

theorem normal_of_device {must : Prop} {flag : DeviceMembership → Bool} (h : room.Refines must) (hdev : room.HasDevice p flag) :
    normalizePeerId p = p := by
  obtain ⟨d, m, hlook, -⟩ := hdev
  exact h.normal (p, d) m hlook

theorem normal_of_participant {must : Prop} (h : room.Refines must) (hp : p ∈ room.participants) : normalizePeerId p = p :=
  normal_of_device h ((h.participants p).mp hp)

theorem normal_of_subscriber {must : Prop} (h : room.Refines must) (hp : p ∈ room.subscribers) : normalizePeerId p = p :=
  normal_of_device h ((h.subscribers p).mp hp).1

/-- An endpoint in the chat of a room is one of a member. -/
theorem endpoint_member {must : Prop} (h : room.Refines must) (he : e ∈ room.chatEndpoints) :
    normalizePeerId e.1 = e.1 ∧ (e.1 ∈ room.participants ∨ e.1 ∈ room.subscribers) := by
  unfold SFURoom.chatEndpoints at he
  obtain ⟨⟨key, m⟩, hentry, rfl⟩ := List.mem_map.mp he
  obtain ⟨hmem, hflags⟩ := List.mem_filter.mp hentry
  have hlook : room.deviceMembers.lookup key = some m := AList.mem_lookup_iff.mpr hmem
  refine ⟨h.normal key m hlook, ?_⟩
  by_cases hvoice : room.HasDevice key.1 DeviceMembership.voice
  · exact Or.inl ((h.participants _).mpr hvoice)
  · right
    refine (h.subscribers _).mpr ⟨?_, hvoice⟩
    rw [Bool.or_eq_true] at hflags
    rcases hflags with hv | hc
    · exact absurd ⟨key.2, m, hlook, hv⟩ hvoice
    · exact ⟨key.2, m, hlook, hc⟩

theorem inRoom_of_endpoint (h : AllRefine sfu) (he : e ∈ chatEndpointsOf sfu roomId) :
    normalizePeerId e.1 = e.1 ∧ InRoom sfu roomId e.1 := by
  unfold chatEndpointsOf at he
  cases hlook : sfu.rooms.lookup roomId with
  | none =>
    rw [hlook] at he
    cases he
  | some room =>
    rw [hlook, Option.map_some, Option.getD_some] at he
    obtain ⟨hnormal, hmember⟩ := endpoint_member (h _ _ hlook) he
    refine ⟨hnormal, (inRoom_iff hlook).mpr ?_⟩
    rwa [hnormal]

theorem mem_chatRecipients (hlook : sfu.rooms.lookup roomId = some room) :
    p ∈ sfu.getChatRecipients roomId ↔ p ∈ room.participants ∨ p ∈ room.subscribers := by
  unfold SFURoomManager.getChatRecipients SFURoom.chatRecipientIds
  rw [hlook, Option.map_some, Option.getD_some, List.mem_append, SetMap.mem_inOrder]
  exact Iff.rfl

theorem inRoom_of_recipient (h : AllRefine sfu) (hp : p ∈ sfu.getChatRecipients roomId) :
    normalizePeerId p = p ∧ InRoom sfu roomId p := by
  cases hlook : sfu.rooms.lookup roomId with
  | none =>
    unfold SFURoomManager.getChatRecipients at hp
    rw [hlook] at hp
    cases hp
  | some room =>
    have hmember := (mem_chatRecipients hlook).mp hp
    have hnormal : normalizePeerId p = p := by
      rcases hmember with hp | hp
      · exact normal_of_participant (h _ _ hlook) hp
      · exact normal_of_subscriber (h _ _ hlook) hp
    refine ⟨hnormal, (inRoom_iff hlook).mpr ?_⟩
    rwa [hnormal]

theorem author_iff (hsender : sender ≠ "") (p : String) :
    isRoomFrameAuthor p sender = true ↔ normalizePeerId p = normalizePeerId sender := by
  unfold isRoomFrameAuthor
  rw [Bool.and_eq_true, decide_eq_true_eq, decide_eq_true_eq]
  exact and_iff_right hsender

/-- Membership is by identity, whatever the spelling. -/
theorem inRoom_congr {q : String} (h : normalizePeerId p = normalizePeerId q) : InRoom sfu roomId p ↔ InRoom sfu roomId q := by
  unfold InRoom SFURoomManager.isChatSender
  dsimp only
  rw [h]

/-! ## One handler at a time -/

theorem onlyMembers_dropped : OnlyMembers sfu msg (dropped sfu) where
  author h := by
    rcases h with h | h
    · exact absurd rfl h
    · exact absurd rfl h
  recipients d hd := absurd hd List.not_mem_nil
  echo d hd := absurd hd List.not_mem_nil
  outsider _ _ := rfl

theorem onlyMembers_file (h : AllRefine sfu) (hsender : msg.sender ≠ "") : OnlyMembers sfu msg (handleSfuBroadcast quotas sfu msg raw) := by
  unfold handleSfuBroadcast
  dsimp only
  split_ifs with _ _ hout
  · exact onlyMembers_dropped
  · exact onlyMembers_dropped
  · exact onlyMembers_dropped
  · have hin : InRoom sfu (roomOf msg) msg.sender := Bool.of_not_eq_false hout
    refine ⟨fun _ => hin, ?_, ?_, fun hn => absurd hin hn⟩
    · intro d hd
      obtain ⟨e, he, rfl⟩ := List.mem_map.mp hd
      have he := (List.mem_filter.mp (List.mem_filter.mp (List.mem_filter.mp he).1).1).1
      exact (inRoom_of_endpoint h he).2
    · intro d hd hreach
      obtain ⟨e, he, rfl⟩ := List.mem_map.mp hd
      have hother := (List.mem_filter.mp (List.mem_filter.mp (List.mem_filter.mp he).1).1).2
      obtain ⟨hid, hdevice⟩ := hreach
      rw [(author_iff hsender _).mpr hid, decide_eq_true hdevice] at hother
      cases hother

theorem onlyMembers_chat (h : AllRefine sfu) (hsender : msg.sender ≠ "") :
    OnlyMembers sfu msg (handleSfuChatBroadcast quotas sfu cluster msg raw) := by
  unfold handleSfuChatBroadcast
  dsimp only
  split_ifs with _ _ hout
  · exact onlyMembers_dropped
  · exact onlyMembers_dropped
  · exact onlyMembers_dropped
  all_goals
    obtain ⟨e₀, he₀, hauthor⟩ := List.any_eq_true.mp (Bool.of_not_eq_false hout)
    rw [Bool.and_eq_true] at hauthor
    have hin : InRoom sfu (roomOf msg) msg.sender :=
      (inRoom_congr ((author_iff hsender _).mp hauthor.1)).mp (inRoom_of_endpoint h he₀).2
    have hmem : ∀ d ∈ deliverRoomChat quotas sfu msg raw (roomOf msg), ∃ e ∈ chatEndpointsOf sfu (roomOf msg), d = .endpoint e ∧
        (e.1 ≠ normalizePeerId msg.sender ∨ e.2 ≠ msg.sourceDevice) := by
      intro d hd
      obtain ⟨e, he, rfl⟩ := List.mem_map.mp hd
      have he := (List.mem_filter.mp he).1
      unfold chatEndpointsOf
      cases hlook : sfu.rooms.lookup (roomOf msg) with
      | none =>
        rw [hlook] at he
        cases he
      | some room =>
        rw [hlook, Option.map_some, Option.getD_some] at he
        obtain ⟨he, hother⟩ := List.mem_filter.mp he
        rw [Bool.or_eq_true, decide_eq_true_eq, decide_eq_true_eq] at hother
        exact ⟨e, he, rfl, hother⟩
    refine ⟨fun _ => hin, ?_, ?_, fun hn => absurd hin hn⟩
    · intro d hd
      obtain ⟨e, he, rfl, -⟩ := hmem d hd
      exact (inRoom_of_endpoint h he).2
    · intro d hd hreach
      obtain ⟨e, he, rfl, hother⟩ := hmem d hd
      obtain ⟨hid, hdevice⟩ := hreach
      rcases hother with hne | hne
      · exact hne ((inRoom_of_endpoint h he).1.symm.trans hid)
      · exact hne hdevice

theorem onlyMembers_videoState (h : AllRefine sfu) (hsender : msg.sender ≠ "") :
    OnlyMembers sfu msg (handleSfuVideoState sfu cluster msg) := by
  unfold handleSfuVideoState
  split_ifs with hout
  · exact onlyMembers_dropped
  all_goals
    have hin : InRoom sfu (roomOf msg) msg.sender := Bool.of_not_eq_false hout
    refine ⟨fun _ => hin, ?_, ?_, fun hn => absurd hin hn⟩
    · intro d hd
      obtain ⟨p, hp, rfl⟩ := List.mem_map.mp hd
      exact (inRoom_of_recipient h (List.mem_filter.mp hp).1).2
    · intro d hd hreach
      obtain ⟨p, hp, rfl⟩ := List.mem_map.mp hd
      have hother := (List.mem_filter.mp hp).2
      rw [(author_iff hsender _).mpr hreach] at hother
      cases hother

/-- A request for a key frame comes back to its sender exactly when it names its sender. -/
theorem onlyMembers_keyframe_iff (h : AllRefine sfu) (hsender : msg.sender ≠ "") :
    OnlyMembers sfu msg (handleSfuVideoKeyframeRequest sfu msg) ↔
      (InRoom sfu (roomOf msg) msg.sender → ∀ target, (msg.payload.get "target_peer").bind Json.asStr = some target →
        normalizePeerId target ≠ normalizePeerId msg.sender) := by
  unfold handleSfuVideoKeyframeRequest
  constructor
  · intro honly hin target htarget hself
    have htarget' : target ≠ "" := by
      rintro rfl
      exact normalize_ne_empty hsender hself.symm
    have hin' : ¬sfu.isChatSender (roomOf msg) msg.sender = false := by
      rw [Bool.not_eq_false]
      exact hin
    rw [htarget] at honly
    dsimp only at honly
    rw [if_neg htarget', if_neg hin'] at honly
    obtain ⟨room, hlook⟩ : ∃ room, sfu.rooms.lookup (roomOf msg) = some room := by
      cases hlook : sfu.rooms.lookup (roomOf msg) with
      | none => exact absurd hin (inRoom_absent hlook)
      | some room => exact ⟨room, rfl⟩
    have hmem : normalizePeerId msg.sender ∈ sfu.getChatRecipients (roomOf msg) :=
      (mem_chatRecipients hlook).mpr ((inRoom_iff hlook).mp hin)
    have hfound : ((sfu.getChatRecipients (roomOf msg)).find? fun p => isRoomFrameAuthor p target).isSome = true := by
      rw [List.find?_isSome]
      exact ⟨_, hmem, (author_iff htarget' _).mpr ((normalizePeerId_idem _).trans hself.symm)⟩
    obtain ⟨p, hp⟩ := Option.isSome_iff_exists.mp hfound
    refine honly.echo (.peer p) (by rw [hp]; simp) ?_
    have hfor : isRoomFrameAuthor p target = true := List.find?_some (p := fun p => isRoomFrameAuthor p target) hp
    exact ((author_iff htarget' p).mp hfor).trans hself
  · intro hother
    cases htarget : (msg.payload.get "target_peer").bind Json.asStr with
    | none => exact onlyMembers_dropped
    | some target =>
      dsimp only
      split_ifs with hempty hout
      · exact onlyMembers_dropped
      · exact onlyMembers_dropped
      · have hin : InRoom sfu (roomOf msg) msg.sender := Bool.of_not_eq_false hout
        have hfound : ∀ d ∈ (((sfu.getChatRecipients (roomOf msg)).find? fun p => isRoomFrameAuthor p target).map
            Delivery.peer).toList, ∃ p ∈ sfu.getChatRecipients (roomOf msg), d = .peer p ∧ normalizePeerId p = normalizePeerId target := by
          intro d hd
          obtain ⟨p, hp, rfl⟩ := Option.map_eq_some_iff.mp (Option.mem_toList.mp hd)
          have hfor : isRoomFrameAuthor p target = true := List.find?_some (p := fun p => isRoomFrameAuthor p target) hp
          exact ⟨p, List.mem_of_find?_eq_some hp, rfl, (author_iff hempty p).mp hfor⟩
        refine ⟨fun _ => hin, ?_, ?_, fun hn => absurd hin hn⟩
        · intro d hd
          obtain ⟨p, hp, rfl, -⟩ := hfound d hd
          exact (inRoom_of_recipient h hp).2
        · intro d hd hreach
          obtain ⟨p, hp, rfl, htarget'⟩ := hfound d hd
          exact hother hin target htarget (htarget'.symm.trans hreach)

/-- A noted frame leaves its sender a higher or a later score. -/
theorem note_ne (decay : Decay) (room : SFURoom SpeakerScore) (sender : String) (now : ℚ) :
    (room.noteAudioShouldForward decay sender now).1 ≠ room := by
  intro heq
  set e := (room.speakerScores.lookup sender).getD { score := 0, lastActive := now } with he
  have hbumped : (room.noteAudioShouldForward decay sender now).1.speakerScores.lookup sender =
      some { score := e.effective decay now + 1, lastActive := now } := by
    have hkept : ((room.bumpScore decay sender now).dropSilent now).speakerScores.lookup sender =
        some { score := e.effective decay now + 1, lastActive := now } := by
      unfold SFURoom.dropSilent SFURoom.bumpScore
      dsimp only
      rw [lookup_retain, AList.lookup_insert, ← he, Option.filter_some, if_pos]
      rw [sub_self]
      decide +kernel
    unfold SFURoom.noteAudioShouldForward
    dsimp only
    split_ifs <;> exact hkept
  rw [heq] at hbumped
  rw [hbumped, Option.getD_some] at he
  have hlast : e.lastActive = now := congrArg SpeakerScore.lastActive he
  have hscore : e.score = e.effective decay now + 1 := congrArg SpeakerScore.score he
  unfold SpeakerScore.effective at hscore
  rw [hlast, sub_self, max_self, decay.factor_zero, mul_one] at hscore
  exact absurd hscore.symm (by simp)

theorem audio_rooms (h : AudioArrives quotas sfu msg) (hlook : sfu.rooms.lookup (roomOf msg) = some room) :
    (handleSfuAudioBroadcast quotas sfu cluster msg raw decay now).sfu =
      ⟨sfu.rooms.insert (roomOf msg) (room.noteAudioShouldForward decay msg.sender now).1⟩ := by
  rw [audio_noted h hlook]
  split <;> rfl

/-- Audio that arrives is guarded exactly when its sender is in the room and does not get it back. -/
theorem onlyMembers_audio_iff (h : AllRefine sfu) :
    OnlyMembers sfu msg (handleSfuAudioBroadcast quotas sfu cluster msg raw decay now) ↔
      (AudioArrives quotas sfu msg → InRoom sfu (roomOf msg) msg.sender ∧ ¬AudioReturns quotas sfu msg raw decay now) := by
  by_cases harrives : AudioArrives quotas sfu msg
  · obtain ⟨room, hlook⟩ := Option.isSome_iff_exists.mp harrives.2.2
    constructor
    · intro honly _
      constructor
      · by_contra hout
        have hsame := honly.outsider hout (roomOf msg)
        rw [audio_rooms harrives hlook, AList.lookup_insert, hlook] at hsame
        exact note_ne decay room msg.sender now (Option.some.inj hsame)
      · rintro ⟨hspelled, room', hlook', hvoice, hforward, hquota⟩
        obtain rfl := Option.some.inj (hlook.symm.trans hlook')
        rw [audio_noted harrives hlook, if_pos hforward] at honly
        refine honly.echo (.peer (normalizePeerId msg.sender)) (List.mem_map.mpr ⟨_, List.mem_filter.mpr ⟨hvoice, ?_⟩, rfl⟩)
          (normalizePeerId_idem _)
        rw [hquota, decide_eq_true hspelled, Bool.and_self]
    · intro hguard
      obtain ⟨hin, hreturns⟩ := hguard harrives
      have hnormal : ∀ p ∈ room.participantIds, normalizePeerId p = p := fun p hp => normal_of_participant (h _ _ hlook) hp
      rw [audio_noted harrives hlook]
      by_cases hforward : (room.noteAudioShouldForward decay msg.sender now).2 = true
      · rw [if_pos hforward]
        refine ⟨fun _ => hin, ?_, ?_, fun hn => absurd hin hn⟩
        · intro d hd
          obtain ⟨p, hp, rfl⟩ := List.mem_map.mp hd
          have hp := (List.mem_filter.mp hp).1
          refine (inRoom_iff hlook).mpr (Or.inl ?_)
          have hmem : p ∈ room.participants := hp
          rwa [← hnormal p hp] at hmem
        · intro d hd hreach
          obtain ⟨p, hp, rfl⟩ := List.mem_map.mp hd
          obtain ⟨hp, hpass⟩ := List.mem_filter.mp hp
          rw [Bool.and_eq_true, decide_eq_true_eq] at hpass
          have hself : p = normalizePeerId msg.sender := (hnormal p hp).symm.trans hreach
          rw [hself] at hp hpass
          exact hreturns ⟨hpass.1, room, hlook, hp, hforward, hpass.2⟩
      · rw [if_neg hforward]
        exact ⟨fun _ => hin, fun d hd => absurd hd List.not_mem_nil, fun d hd => absurd hd List.not_mem_nil, fun hn => absurd hin hn⟩
  · rw [audio_dropped harrives]
    exact ⟨fun _ harr => absurd harr harrives, fun _ => onlyMembers_dropped⟩

/-- The rooms of a run. -/
theorem allRefine_run {sha256 : List UInt8 → List UInt8} {acts : List RoomNodeEvent} {node : RoomNode}
    (hrun : run (roomNodeStep decay sha256) RoomNode.start acts = some node) : AllRefine node.sfu := by
  refine run_invariant (fun (_ : List RoomNodeEvent) (node : RoomNode) => AllRefine node.sfu) allRefine_new ?_ hrun
  intro acts ev s s' h hstep
  cases ev with
  | op now p op =>
    rw [← Option.some.inj hstep]
    exact allRefine_op h sha256 now p op
  | frame now quotas msg raw =>
    rw [← Option.some.inj hstep]
    exact allRefine_frame h
  | link up =>
    rw [← Option.some.inj hstep]
    exact h

theorem sender_of_verified {ed25519Verify : Ed25519} {canonicalBytes : SignalingMessage → List UInt8}
    (h : verifyMessage ed25519Verify canonicalBytes msg = true) : msg.sender ≠ "" := by
  intro hsender
  unfold verifyMessage at h
  rw [hsender] at h
  split_ifs at h
  have hdecode : b64urlDecode "" = some [] := by decide
  rw [hdecode] at h
  cases hsig : msg.signature.bind b64urlDecode with
  | none =>
    rw [hsig] at h
    cases h
  | some sig =>
    rw [hsig] at h
    unfold verifyWithPub at h
    rw [Bool.and_eq_true, decide_eq_true_eq] at h
    exact absurd h.1.1 (by decide)

end

end RoomFramesAux

open RoomFramesAux

/-- **Frames and members.** In every state a node can come to, a verified message is forwarded as it should be exactly when it is
guarded: audio must come from somebody in the room who is not in its voice under another spelling, and a request for a key frame
must name somebody else. -/
theorem only_members_iff (decay : Decay) (sha256 : List UInt8 → List UInt8) (ed25519Verify : Ed25519)
    (canonicalBytes : SignalingMessage → List UInt8) (acts : List RoomNodeEvent) (node : RoomNode) (quotas : Quotas)
    (msg : SignalingMessage) (raw : String) (now : ℚ) (hrun : run (roomNodeStep decay sha256) RoomNode.start acts = some node)
    (hverified : verifyMessage ed25519Verify canonicalBytes msg = true) :
    OnlyMembers node.sfu msg (onRoomFrame quotas node.sfu node.cluster msg raw decay now) ↔
      FrameGuarded quotas node.sfu msg raw decay now := by
  have hrooms := allRefine_run hrun
  have hsender := sender_of_verified hverified
  unfold onRoomFrame FrameGuarded
  cases hty : msg.msgType with
  | sfuAudio => exact onlyMembers_audio_iff hrooms
  | sfuVideoKeyframeRequest => exact onlyMembers_keyframe_iff hrooms hsender
  | sfuChat => exact iff_of_true (onlyMembers_chat hrooms hsender) trivial
  | sfuVideoState => exact iff_of_true (onlyMembers_videoState hrooms hsender) trivial
  | sfuFileOffer | sfuFileRequest | sfuFileRevoke | sfuFileChunk | sfuFileComplete =>
    exact iff_of_true (onlyMembers_file hrooms hsender) trivial
  | _ => exact iff_of_true onlyMembers_dropped trivial

/-! ## An outsider's audio -/

namespace RoomFramesAux

/-- A key that signs with itself, twice. -/
def twiceVerify : Ed25519 := fun pk sig _ => decide (sig = pk ++ pk)

/-- Quotas that are never used up. -/
def freeQuotas : Quotas := ⟨fun _ _ _ => true, fun _ _ _ => true⟩

theorem noDecay_start : (1 : ℚ) = 1 := rfl

/-- Scores that do not decay. -/
def noDecay : Decay := ⟨fun _ => 1, noDecay_start⟩

def talkerKey : List UInt8 := List.replicate 32 2

/-- Audio for the lobby. -/
def lobbyAudio : SignalingMessage :=
  { SignalingMessage.new .sfuAudio (b64urlEncodePadded talkerKey) 5 with
    payload := [("audio", .str "AAAA")]
    signature := some (b64urlEncodePadded (talkerKey ++ talkerKey)) }

theorem trimmed_padded (bytes : List UInt8) : trimEndMatches '=' (b64urlEncodePadded bytes) = b64urlEncode bytes := by
  obtain ⟨pad, heq, -, -⟩ := b64EncodeChars_eq bytes
  have hpad : (List.replicate pad '=').map toUrlSafe = List.replicate pad '=' := by
    rw [List.map_replicate]
    rfl
  rw [trimEndMatches, b64urlEncodePadded, String.toList_ofList, heq, List.map_append, hpad, rdropWhile_pad]
  rfl

theorem b64urlDecode_padded (bytes : List UInt8) : Supernode.b64urlDecode (b64urlEncodePadded bytes) = some bytes := by
  rw [Supernode.b64urlDecode, trimmed_padded, b64urlEncode, String.toList_ofList, b64Groups_b64Body]

/-- What is verified is the signature of the sender's key. -/
theorem verifyMessage_eq {ed25519Verify : Ed25519} {canonicalBytes : SignalingMessage → List UInt8} {msg : SignalingMessage}
    {pubBytes sigBytes : List UInt8} (hdevice : msg.targetDevice = none) (hsender : msg.sender = b64urlEncodePadded pubBytes)
    (hsigned : msg.signature = some (b64urlEncodePadded sigBytes)) :
    verifyMessage ed25519Verify canonicalBytes msg = verifyWithPub ed25519Verify pubBytes sigBytes (canonicalBytes msg) := by
  simp only [verifyMessage, hdevice, hsender, hsigned, Option.isSome_none, Bool.false_eq_true, false_and, if_false,
    Option.bind_some, b64urlDecode_padded]

theorem verified_lobbyAudio : verifyMessage twiceVerify (fun _ => []) lobbyAudio = true :=
  (verifyMessage_eq rfl rfl rfl).trans (by decide)

/-- A node on which the talker is in the lobby. -/
def talkerNode : RoomNode := ⟨(roomOp (fun _ => []) SFURoomManager.new 1 lobbyAudio.sender (.join none defaultRoomId)).1, false⟩

theorem run_talkerNode : run (roomNodeStep noDecay fun _ => []) RoomNode.start [.op 1 lobbyAudio.sender (.join none defaultRoomId)] =
    some talkerNode := rfl

/-- The audio counts, the lobby is there, and the talker is in it on one of the nodes only, under its one spelling. -/
theorem facts_lobbyAudio : (sfuAudioOpusByteCount lobbyAudio ≠ 0 ∧ (RoomNode.start.sfu.rooms.lookup (roomOf lobbyAudio)).isSome = true) ∧
    RoomNode.start.sfu.isChatSender (roomOf lobbyAudio) lobbyAudio.sender = false ∧
    talkerNode.sfu.isChatSender (roomOf lobbyAudio) lobbyAudio.sender = true ∧ normalizePeerId lobbyAudio.sender = lobbyAudio.sender := by
  decide +kernel

theorem arrives_lobbyAudio : AudioArrives freeQuotas RoomNode.start.sfu lobbyAudio :=
  ⟨facts_lobbyAudio.1.1, rfl, facts_lobbyAudio.1.2⟩

theorem outsider_lobbyAudio : RoomNode.start.sfu.isChatSender (roomOf lobbyAudio) lobbyAudio.sender = false :=
  facts_lobbyAudio.2.1

theorem member_lobbyAudio : talkerNode.sfu.isChatSender (roomOf lobbyAudio) lobbyAudio.sender = true :=
  facts_lobbyAudio.2.2.1

theorem normal_talker : normalizePeerId lobbyAudio.sender = lobbyAudio.sender :=
  facts_lobbyAudio.2.2.2

end RoomFramesAux

/-- Somebody in the lobby talks. -/
theorem only_members_talker :
    verifyMessage twiceVerify (fun _ => []) lobbyAudio = true ∧
      OnlyMembers talkerNode.sfu lobbyAudio (onRoomFrame freeQuotas talkerNode.sfu talkerNode.cluster lobbyAudio "" noDecay 2) :=
  ⟨verified_lobbyAudio,
    (only_members_iff noDecay (fun _ => []) twiceVerify (fun _ => []) _ talkerNode freeQuotas lobbyAudio "" 2 run_talkerNode
      verified_lobbyAudio).mpr fun _ => ⟨member_lobbyAudio, fun h => h.1 normal_talker⟩⟩

/-- Audio of somebody who is in no room changes who counts as a speaker of the lobby. -/
theorem only_members_fails_audio :
    ¬∀ (decay : Decay) (sha256 : List UInt8 → List UInt8) (ed25519Verify : Ed25519) (canonicalBytes : SignalingMessage → List UInt8)
      (acts : List RoomNodeEvent) (node : RoomNode) (quotas : Quotas) (msg : SignalingMessage) (raw : String) (now : ℚ),
      run (roomNodeStep decay sha256) RoomNode.start acts = some node → verifyMessage ed25519Verify canonicalBytes msg = true →
      OnlyMembers node.sfu msg (onRoomFrame quotas node.sfu node.cluster msg raw decay now) := by
  intro h
  have honly : OnlyMembers RoomNode.start.sfu lobbyAudio
      (handleSfuAudioBroadcast freeQuotas RoomNode.start.sfu RoomNode.start.cluster lobbyAudio "" noDecay 0) :=
    h noDecay (fun _ => []) twiceVerify (fun _ => []) [] RoomNode.start freeQuotas lobbyAudio "" 0 rfl verified_lobbyAudio
  have hrooms : AllRefine RoomNode.start.sfu := allRefine_new
  have hin := ((onlyMembers_audio_iff hrooms).mp honly arrives_lobbyAudio).1
  exact Bool.false_ne_true (outsider_lobbyAudio.symm.trans hin)

end DoubleSlash.Supernode
