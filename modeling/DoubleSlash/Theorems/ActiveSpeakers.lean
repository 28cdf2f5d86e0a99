import DoubleSlash.Theorems.RoomCollection

/-!
# Who holds the slots of the speakers

A frame takes a slot for the name it is sent under, and slots are given back for the names of participants. The slots are those of
participants as long as the frames that get one are sent under such a name.
-/

namespace DoubleSlash.Sfu

open Assoc Run Tls

/-- The active speakers of a room are few and participants of it, and what is asked of a leaving participant and of a small room. -/
structure SpeakersSound (decay : Decay) (room : SFURoom SpeakerScore) : Prop where
  bounded : room.activeSpeakers.length ≤ maxActiveSpeakers
  nodup : room.activeSpeakers.Nodup
  member : ∀ id ∈ room.activeSpeakers, id ∈ room.participants
  tracked : ∀ id ∈ room.activeSpeakers, id ∈ room.speakerScores
  /-- Who is no participant holds no slot, under any spelling. -/
  freed : ∀ p, normalizePeerId p ∉ room.participants → ∀ id ∈ room.activeSpeakers, normalizePeerId id ≠ normalizePeerId p
  /-- Where there are not more participants than slots, no frame of one is shed. -/
  heard : room.participants.keys.length ≤ maxActiveSpeakers →
    ∀ sender ∈ room.participants, ∀ now, (room.noteAudioShouldForward decay sender now).2 = true

/-- A frame gets a slot, or has one: its sender is active, a slot is free, or the weakest of the others is weaker. -/
def GetsSlot (decay : Decay) (room : SFURoom SpeakerScore) (sender : String) (now : ℚ) : Prop :=
  let room := (room.bumpScore decay sender now).dropSilent now
  sender ∈ room.activeSpeakers ∨ room.activeSpeakers.length < maxActiveSpeakers ∨
    (room.weakest decay now).2 < room.effectiveOf decay now sender

namespace ActiveSpeakersAux

variable {decay : Decay} {room room' room'' : SFURoom SpeakerScore}

/-! ### The slots -/

/-- The slots alone. -/
structure Slots (room : SFURoom SpeakerScore) : Prop where
  bounded : room.activeSpeakers.length ≤ maxActiveSpeakers
  nodup : room.activeSpeakers.Nodup
  member : ∀ id ∈ room.activeSpeakers, id ∈ room.participants
  tracked : ∀ id ∈ room.activeSpeakers, id ∈ room.speakerScores

theorem SpeakersSound.slots (h : SpeakersSound decay room) : Slots room := ⟨h.bounded, h.nodup, h.member, h.tracked⟩

/-- Slots are only given back, and not those of who stays. -/
structure Follows (room room' : SFURoom SpeakerScore) : Prop where
  sublist : room'.activeSpeakers.Sublist room.activeSpeakers
  member : ∀ id ∈ room'.activeSpeakers, id ∈ room.participants → id ∈ room'.participants
  tracked : ∀ id ∈ room'.activeSpeakers, id ∈ room.speakerScores → id ∈ room'.speakerScores

theorem Follows.refl (room : SFURoom SpeakerScore) : Follows room room :=
  ⟨List.Sublist.refl _, fun _ _ h => h, fun _ _ h => h⟩

theorem Follows.trans (h : Follows room room') (h' : Follows room' room'') : Follows room room'' where
  sublist := h'.sublist.trans h.sublist
  member id hid hmem := h'.member id hid (h.member id (h'.sublist.subset hid) hmem)
  tracked id hid hmem := h'.tracked id hid (h.tracked id (h'.sublist.subset hid) hmem)

theorem Slots.follow (h : Slots room) (hfollows : Follows room room') : Slots room' where
  bounded := le_trans hfollows.sublist.length_le h.bounded
  nodup := h.nodup.sublist hfollows.sublist
  member id hid := hfollows.member id hid (h.member id (hfollows.sublist.subset hid))
  tracked id hid := hfollows.tracked id hid (h.tracked id (hfollows.sublist.subset hid))

/-- Nothing is done to the speakers or the participants. -/
theorem follows_same (hactive : room'.activeSpeakers = room.activeSpeakers) (hparticipants : room'.participants = room.participants)
    (hscores : room'.speakerScores = room.speakerScores) : Follows room room' where
  sublist := by rw [hactive]
  member id _ h := by rwa [hparticipants]
  tracked id _ h := by rwa [hscores]

theorem follows_markUnused (room : SFURoom SpeakerScore) (now : Nat) : Follows room (room.markUnusedIfEmpty now) := by
  unfold SFURoom.markUnusedIfEmpty
  split
  · exact follows_same rfl rfl rfl
  · exact Follows.refl room

theorem follows_addParticipant (room : SFURoom SpeakerScore) (p : String) : Follows room (room.addParticipant p).1 := by
  unfold SFURoom.addParticipant
  dsimp only
  split_ifs
  · exact Follows.refl room
  · exact Follows.refl room
  · exact ⟨List.Sublist.refl _, fun id _ h => (AList.mem_insert _).mpr (Or.inr h), fun _ _ h => h⟩

/-- Who is taken out gives a slot back. -/
theorem follows_forget {room₁ : SFURoom SpeakerScore} {p : String} (hactive : room₁.activeSpeakers = room.activeSpeakers)
    (hparticipants : room₁.participants = room.participants.erase p) (hscores : room₁.speakerScores = room.speakerScores) :
    Follows room (room₁.forgetSpeaker p) := by
  have hne : ∀ id ∈ (room₁.forgetSpeaker p).activeSpeakers, id ≠ p := fun id hid => by
    simpa using (List.mem_filter.mp hid).2
  refine ⟨?_, fun id hid h => ?_, fun id hid h => ?_⟩
  · rw [← hactive]
    exact List.filter_sublist
  · change id ∈ room₁.participants
    rw [hparticipants]
    exact AList.mem_erase.mpr ⟨hne id hid, h⟩
  · change id ∈ room₁.speakerScores.erase p
    rw [hscores]
    exact AList.mem_erase.mpr ⟨hne id hid, h⟩

theorem follows_removeParticipant (room : SFURoom SpeakerScore) (p : String) (now : Nat) :
    Follows room (room.removeParticipant p now).1 := by
  unfold SFURoom.removeParticipant
  dsimp only
  split
  · refine follows_forget ?_ ?_ ?_
    · unfold SFURoom.markUnusedIfEmpty
      split <;> rfl
    · unfold SFURoom.markUnusedIfEmpty
      split <;> rfl
    · unfold SFURoom.markUnusedIfEmpty
      split <;> rfl
  · exact Follows.refl room

theorem follows_subscribe (room : SFURoom SpeakerScore) (p : String) : Follows room (room.subscribe p) := by
  unfold SFURoom.subscribe
  dsimp only
  split
  · exact Follows.refl room
  · exact follows_same rfl rfl rfl

theorem follows_unsubscribe (room : SFURoom SpeakerScore) (p : String) (now : Nat) : Follows room (room.unsubscribe p now) := by
  unfold SFURoom.unsubscribe
  dsimp only
  split
  · refine Follows.trans ?_ (follows_markUnused _ now)
    exact follows_same rfl rfl rfl
  · exact Follows.refl room

theorem follows_settle (room : SFURoom SpeakerScore) (p : String) (now : Nat) : Follows room (room.settle p now) := by
  unfold SFURoom.settle
  dsimp only
  have hvoice : Follows room
      (if room.anyDevice p DeviceMembership.voice then (room.addParticipant p).1 else (room.removeParticipant p now).1) := by
    split
    · exact follows_addParticipant room p
    · exact follows_removeParticipant room p now
  split
  · exact hvoice.trans (follows_subscribe _ p)
  · exact hvoice.trans (follows_unsubscribe _ p now)

theorem follows_membership (room : SFURoom SpeakerScore) (p : String) (device : Option DeviceId) (voice chat : Option Bool) (now : Nat) :
    Follows room (room.setDeviceMembership p device voice chat now).1 := by
  unfold SFURoom.setDeviceMembership
  dsimp only
  split_ifs
  · exact Follows.refl room
  · exact Follows.refl room
  · refine Follows.trans ?_ (follows_settle _ _ now)
    exact follows_same rfl rfl rfl

theorem follows_removePeer (room : SFURoom SpeakerScore) (p : String) (now : Nat) :
    Follows room (room.removePeerEntirely p now).1 := by
  have hgone : Follows room (if (room.participants.lookup (normalizePeerId p)).isSome then
      (room.without (normalizePeerId p)).forgetSpeaker (normalizePeerId p) else room.without (normalizePeerId p)) := by
    split
    · exact follows_forget rfl rfl rfl
    next hno =>
      refine ⟨List.Sublist.refl _, fun id _ h => AList.mem_erase.mpr ⟨?_, h⟩, fun _ _ h => h⟩
      rintro rfl
      exact hno (AList.lookup_isSome.mpr h)
  unfold SFURoom.removePeerEntirely
  dsimp only
  split
  · exact hgone.trans (follows_markUnused _ now)
  · exact hgone

/-! ### Operations -/

/-- The slots in every room. -/
def AllSlots (mgr : SFURoomManager SpeakerScore) : Prop := ∀ id room, mgr.rooms.lookup id = some room → Slots room

variable {mgr : SFURoomManager SpeakerScore}

theorem slots_none (hactive : room.activeSpeakers = []) : Slots room where
  bounded := by
    rw [hactive]
    exact Nat.zero_le _
  nodup := by
    rw [hactive]
    exact List.nodup_nil
  member _ hid := by
    rw [hactive] at hid
    cases hid
  tracked _ hid := by
    rw [hactive] at hid
    cases hid

theorem AllSlots.insert (h : AllSlots mgr) {id : String} (hroom : Slots room) : AllSlots ⟨mgr.rooms.insert id room⟩ := by
  intro other found hlook
  by_cases hid : other = id
  · subst hid
    rw [AList.lookup_insert, Option.some.injEq] at hlook
    exact hlook ▸ hroom
  · rw [AList.lookup_insert_ne hid] at hlook
    exact h other found hlook

theorem AllSlots.erase (h : AllSlots mgr) (id : String) : AllSlots ⟨mgr.rooms.erase id⟩ := by
  intro other found hlook
  by_cases hid : other = id
  · subst hid
    rw [AList.lookup_erase] at hlook
    cases hlook
  · rw [AList.lookup_erase_ne hid] at hlook
    exact h other found hlook

theorem AllSlots.removePeer (h : AllSlots mgr) (p : String) (now : Nat) : AllSlots (mgr.removePeerFromAll p now).1 := by
  have hone : ∀ (acc : SFURoomManager SpeakerScore × List (String × List String)) (id : String), AllSlots acc.1 →
      AllSlots (SFURoomManager.removePeerFromRoom (normalizePeerId p) now acc id).1 := by
    intro acc id hacc
    unfold SFURoomManager.removePeerFromRoom
    dsimp only
    split
    · exact hacc
    next room hlook =>
      have hroom := (hacc _ _ hlook).follow (follows_removePeer room (normalizePeerId p) now)
      split
      · dsimp only
        split
        · exact hacc.erase id
        · exact hacc.insert hroom
      · exact hacc.insert hroom
  unfold SFURoomManager.removePeerFromAll
  have hall : ∀ (ids : List String) (acc : SFURoomManager SpeakerScore × List (String × List String)), AllSlots acc.1 →
      AllSlots (ids.foldl (SFURoomManager.removePeerFromRoom (normalizePeerId p) now) acc).1 := by
    intro ids
    induction ids with
    | nil => exact fun acc hacc => hacc
    | cons id ids ih => exact fun acc hacc => ih _ (hone acc id hacc)
  exact hall _ (mgr, []) h

theorem AllSlots.removeEndpoint (h : AllSlots mgr) (p : String) (device : Option DeviceId) (now : Nat) :
    AllSlots (mgr.removeEndpointFromAll p device now).1 := by
  intro id room hlook
  unfold SFURoomManager.removeEndpointFromAll at hlook
  rw [lookup_mapValues] at hlook
  obtain ⟨old, hold, rfl⟩ := Option.map_eq_some_iff.mp hlook
  unfold SFURoomManager.removeEndpointFromRoom
  split
  · exact (h id old hold).follow (follows_membership old _ device _ _ now)
  · exact h id old hold

/-- A room that only differs in who may enter, its tokens or its creator. -/
theorem Slots.same (h : Slots room) (hactive : room'.activeSpeakers = room.activeSpeakers)
    (hparticipants : room'.participants = room.participants) (hscores : room'.speakerScores = room.speakerScores) : Slots room' :=
  h.follow (follows_same hactive hparticipants hscores)

/-- **One operation.** -/
theorem AllSlots.op (h : AllSlots mgr) (sha256 : List UInt8 → List UInt8) (now : Nat) (p : String) (op : RoomOp) :
    AllSlots (roomOp sha256 mgr now p op).1 := by
  cases op with
  | create roomId roomName roomType policy =>
    unfold roomOp SFURoomManager.createRoomWithPolicy
    dsimp only
    split
    · exact h
    · refine h.insert (slots_none ?_)
      unfold SFURoom.markUnusedIfEmpty
      split <;> rfl
  | allow roomId =>
    unfold roomOp SFURoomManager.allowPeer
    dsimp only
    split
    · exact h
    next room hlook => exact h.insert ((h _ _ hlook).same rfl rfl rfl)
  | adopt roomId =>
    unfold roomOp SFURoomManager.adoptCreatorIfEmpty
    dsimp only
    split_ifs
    · exact h
    · split
      · exact h
      next room hlook =>
        split_ifs
        · exact h.insert ((h _ _ hlook).same rfl rfl rfl)
        · exact h
  | mint roomId token =>
    unfold roomOp SFURoomManager.generateInviteToken
    dsimp only
    split
    · exact h
    next room hlook => exact h.insert ((h _ _ hlook).same rfl rfl rfl)
  | mintChecked roomId token =>
    unfold roomOp SFURoomManager.generateInviteTokenChecked
    dsimp only
    split
    · exact h
    next room hlook =>
      split_ifs
      · exact h
      · exact h
      · exact h.insert ((h _ _ hlook).same rfl rfl rfl)
  | reregister roomId token =>
    unfold roomOp SFURoomManager.reregisterInviteToken
    dsimp only
    split
    · exact h
    next room hlook =>
      refine h.insert ?_
      unfold SFURoom.reregisterInviteToken
      split
      · exact h _ _ hlook
      · exact (h _ _ hlook).same rfl rfl rfl
  | validate roomId token =>
    unfold roomOp SFURoomManager.validateRoomInvite
    dsimp only
    split
    · exact h
    next room hlook =>
      refine h.insert ?_
      unfold SFURoom.validateAndConsumeToken
      split
      · exact h _ _ hlook
      · split_ifs
        · exact h _ _ hlook
        · exact (h _ _ hlook).same rfl rfl rfl
  | join device roomId =>
    unfold roomOp SFURoomManager.joinRoomEndpoint
    dsimp only
    split
    · exact h
    next room hlook =>
      split_ifs
      · exact h
      · exact h.insert ((h _ _ hlook).follow (follows_membership room _ device _ _ now))
  | leave device roomId =>
    unfold roomOp SFURoomManager.leaveRoomEndpoint
    dsimp only
    split
    · exact h
    next room hlook =>
      dsimp only
      split_ifs
      · exact h.erase roomId
      · exact h.insert ((h _ _ hlook).follow ((follows_membership room _ device _ _ now).trans (follows_markUnused _ now)))
  | subscribe device roomId =>
    unfold roomOp SFURoomManager.subscribeEndpoint
    dsimp only
    split
    · exact h
    next room hlook =>
      split_ifs
      · exact h.insert ((h _ _ hlook).follow (follows_membership room _ device _ _ now))
      · exact h
  | unsubscribe device roomId =>
    unfold roomOp SFURoomManager.unsubscribeEndpoint
    dsimp only
    split
    · exact h
    next room hlook => exact h.insert ((h _ _ hlook).follow (follows_membership room _ device _ _ now))
  | removeEndpoint device => exact h.removeEndpoint p device now
  | removePeer => exact h.removePeer p now
  | gc idleSecs =>
    intro id room hlook
    unfold roomOp SFURoomManager.gcIdleRooms at hlook
    rw [lookup_retain, Option.filter_eq_some_iff] at hlook
    exact h id room hlook.1
  | chatSender roomId => exact h
  | peerAllowed roomId => exact h
  | inVoice device roomId => exact h

/-! ### Frames -/

/-- The room before a slot is looked for. -/
def noted (decay : Decay) (room : SFURoom SpeakerScore) (sender : String) (now : ℚ) : SFURoom SpeakerScore :=
  (room.bumpScore decay sender now).dropSilent now

variable {sender : String} {now : ℚ}

theorem slots_noted (h : Slots room) (decay : Decay) (sender : String) (now : ℚ) : Slots (noted decay room sender now) where
  bounded := le_trans (List.length_filter_le _ _) h.bounded
  nodup := h.nodup.filter _
  member id hid := h.member id (List.mem_of_mem_filter hid)
  tracked _ hid := AList.lookup_isSome.mp (List.mem_filter.mp hid).2

/-- The weakest is one of the active speakers. -/
theorem weakest_lt (decay : Decay) (room : SFURoom SpeakerScore) (now : ℚ) (h : 0 < room.activeSpeakers.length) :
    (room.weakest decay now).1 < room.activeSpeakers.length := by
  have hall : ∀ (pairs : List (String × Nat)), (∀ e ∈ pairs, e.2 < room.activeSpeakers.length) → ∀ acc : Nat × ℚ,
      acc.1 < room.activeSpeakers.length →
        (pairs.foldl (fun acc e => if room.effectiveOf decay now e.1 < acc.2 then (e.2, room.effectiveOf decay now e.1) else acc)
          acc).1 < room.activeSpeakers.length := by
    intro pairs
    induction pairs with
    | nil => exact fun _ acc hacc => hacc
    | cons e pairs ih =>
      intro hpairs acc hacc
      refine ih (fun e' he' => hpairs e' (List.mem_cons_of_mem _ he')) _ ?_
      dsimp only
      split
      · exact hpairs e List.mem_cons_self
      · exact hacc
  refine hall _ (fun e he => ?_) _ h
  obtain ⟨-, hlt, -⟩ := List.mem_zipIdx he
  simpa using hlt

/-- What a frame does that takes a slot: the sender is among the active speakers, the others were before, and their number and
difference are kept. -/
structure Takes (before active : List String) (sender : String) : Prop where
  held : sender ∈ active
  others : ∀ id ∈ active, id = sender ∨ id ∈ before
  nodup : before.Nodup → active.Nodup
  bounded : before.length ≤ maxActiveSpeakers → active.length ≤ maxActiveSpeakers

/-- A frame whose sender is active is forwarded, and so is one that takes a slot; any other is shed, and all slots are taken. -/
theorem note_cases (decay : Decay) (room : SFURoom SpeakerScore) (sender : String) (now : ℚ) :
    (GetsSlot decay room sender now ∧ ∃ active, Takes (noted decay room sender now).activeSpeakers active sender ∧
      room.noteAudioShouldForward decay sender now = ({ noted decay room sender now with activeSpeakers := active }, true)) ∨
    (¬GetsSlot decay room sender now ∧ sender ∉ (noted decay room sender now).activeSpeakers ∧
      maxActiveSpeakers ≤ (noted decay room sender now).activeSpeakers.length ∧
        room.noteAudioShouldForward decay sender now = (noted decay room sender now, false)) := by
  have hgets : GetsSlot decay room sender now ↔ sender ∈ (noted decay room sender now).activeSpeakers ∨
      (noted decay room sender now).activeSpeakers.length < maxActiveSpeakers ∨
        ((noted decay room sender now).weakest decay now).2 < (noted decay room sender now).effectiveOf decay now sender := Iff.rfl
  have hnote : room.noteAudioShouldForward decay sender now =
      if sender ∈ (noted decay room sender now).activeSpeakers then (noted decay room sender now, true)
      else if (noted decay room sender now).activeSpeakers.length < maxActiveSpeakers then
        ({ noted decay room sender now with activeSpeakers := (noted decay room sender now).activeSpeakers ++ [sender] }, true)
      else if ((noted decay room sender now).weakest decay now).2 < (noted decay room sender now).effectiveOf decay now sender then
        ({ noted decay room sender now with
            activeSpeakers := (noted decay room sender now).activeSpeakers.set ((noted decay room sender now).weakest decay now).1 sender },
          true)
      else (noted decay room sender now, false) := rfl
  rw [hnote, hgets]
  generalize noted decay room sender now = room₁
  by_cases hactive : sender ∈ room₁.activeSpeakers
  · rw [if_pos hactive]
    exact Or.inl ⟨Or.inl hactive, room₁.activeSpeakers, ⟨hactive, fun id hid => Or.inr hid, fun h => h, fun h => h⟩, rfl⟩
  rw [if_neg hactive]
  by_cases hfree : room₁.activeSpeakers.length < maxActiveSpeakers
  · rw [if_pos hfree]
    refine Or.inl ⟨Or.inr (Or.inl hfree), _, ⟨?_, fun id hid => ?_, fun h => ?_, fun _ => ?_⟩, rfl⟩
    · exact List.mem_append_right _ (List.mem_singleton_self sender)
    · rcases List.mem_append.mp hid with hid | hid
      · exact Or.inr hid
      · exact Or.inl (List.mem_singleton.mp hid)
    · exact List.nodup_append.mpr ⟨h, List.nodup_singleton sender, fun id hid other hother => by
        rw [List.mem_singleton.mp hother]
        rintro rfl
        exact hactive hid⟩
    · rw [List.length_append, List.length_singleton]
      exact hfree
  rw [if_neg hfree]
  by_cases hweak : (room₁.weakest decay now).2 < room₁.effectiveOf decay now sender
  · rw [if_pos hweak]
    have hpos : 0 < room₁.activeSpeakers.length := lt_of_lt_of_le (by decide) (not_lt.mp hfree)
    refine Or.inl ⟨Or.inr (Or.inr hweak), _, ⟨?_, fun id hid => ?_, fun h => h.set hactive, fun h => ?_⟩, rfl⟩
    · exact List.mem_set (weakest_lt decay room₁ now hpos) sender
    · exact (List.mem_or_eq_of_mem_set hid).symm
    · rw [List.length_set]
      exact h
  · rw [if_neg hweak]
    refine Or.inr ⟨?_, hactive, not_lt.mp hfree, rfl⟩
    rintro (h | h | h)
    · exact hactive h
    · exact hfree h
    · exact hweak h

/-- What the slots are good for. -/
theorem Slots.sound {must : Prop} (h : Slots room) (hrefine : room.Refines must) (decay : Decay) : SpeakersSound decay room where
  bounded := h.bounded
  nodup := h.nodup
  member := h.member
  tracked := h.tracked
  freed p hp id hid heq := by
    obtain ⟨device, m, hlook, -⟩ := (hrefine.participants id).mp (h.member id hid)
    have hnormal : normalizePeerId id = id := hrefine.normal (id, device) m hlook
    rw [← heq, hnormal] at hp
    exact hp (h.member id hid)
  heard hfew sender hsender now := by
    have hnoted := slots_noted h decay sender now
    rcases note_cases decay room sender now with ⟨-, active, -, hnote⟩ | ⟨-, hnot, hfull, -⟩
    · rw [hnote]
    · have hle : (sender :: (noted decay room sender now).activeSpeakers).length ≤ room.participants.keys.length := by
        refine List.Nodup.length_le_of_subset (List.nodup_cons.mpr ⟨hnot, hnoted.nodup⟩) fun id hid => AList.mem_keys.mp ?_
        rcases List.mem_cons.mp hid with rfl | hid
        · exact hsender
        · exact hnoted.member id hid
      rw [List.length_cons] at hle
      omega

/-! ### Runs -/

end ActiveSpeakersAux

open ActiveSpeakersAux RoomCollectionAux

end DoubleSlash.Sfu
