import DoubleSlash.Lemmas.RoomOps
import DoubleSlash.Lib.Run

/-!
# Which unused rooms are collected

A room that nobody created is never swept, so it has to go when its last endpoint does. Leaving and the removal of a peer see to it;
the end of a subscription and the removal of an endpoint do not.
-/

namespace DoubleSlash.Sfu

open Assoc Run Tls

/-- `on_endpoint_disconnected`: its rooms. -/
def onEndpointDisconnected {S : Type} (mgr : SFURoomManager S) (identityPub : String) (device : Option DeviceId) (now : Nat) :
    SFURoomManager S :=
  (mgr.removeEndpointFromAll identityPub device now).1

/-- `on_peer_disconnected`: its rooms. -/
def onPeerDisconnected {S : Type} (mgr : SFURoomManager S) (identityPub : String) (now : Nat) : SFURoomManager S :=
  (mgr.removePeerFromAll identityPub now).1

/-- What happens to the rooms of a node: an operation for a peer, the audio of a speaker, or the end of the last connection of a
peer. -/
inductive RoomEvent where
  | op (now : Nat) (peer : String) (op : RoomOp)
  | audio (now : ℚ) (roomId sender : String)
  | disconnected (now : Nat) (peer : String) (device : Option DeviceId)

/-- The rooms after an event. -/
def roomEvent (decay : Decay) (sha256 : List UInt8 → List UInt8) (mgr : SFURoomManager SpeakerScore) :
    RoomEvent → SFURoomManager SpeakerScore
  | .op now peer op => (roomOp sha256 mgr now peer op).1
  | .audio now roomId sender => (mgr.audioForwardTargets decay roomId sender now).1
  | .disconnected now peer device => onPeerDisconnected (onEndpointDisconnected mgr peer device now) peer now

/-- The rooms of a node after events. -/
def roomsAfter (decay : Decay) (sha256 : List UInt8 → List UInt8) (events : List RoomEvent) : SFURoomManager SpeakerScore :=
  events.foldl (roomEvent decay sha256) .new

section

variable {S : Type}

/-- Every unused room but the lobby has a time since which it is empty, and the sweep takes it away when it was empty long enough. -/
def Collected (mgr : SFURoomManager S) : Prop :=
  ∀ id room, mgr.rooms.lookup id = some room → id ≠ defaultRoomId → room.isUnused = true →
    ∃ emptySince, room.emptySince = some emptySince ∧
      ∀ now idleSecs, emptySince + idleSecs ≤ now → (mgr.gcIdleRooms now idleSecs).rooms.lookup id = none

/-- The sweep leaves every room that is in use. -/
def SparesUsed (mgr : SFURoomManager S) : Prop :=
  ∀ id room, mgr.rooms.lookup id = some room → room.isUnused = false →
    ∀ now idleSecs, (mgr.gcIdleRooms now idleSecs).rooms.lookup id = some room

/-- A room nobody created, other than the lobby. -/
def Anonymous (id : String) (room : SFURoom S) : Prop := id ≠ defaultRoomId ∧ room.creatorId = ""

/-- The endpoint is in the room, and no other is. -/
def LastEndpoint (room : SFURoom S) (key : String × Option DeviceId) : Prop :=
  key ∈ room.deviceMembers ∧ ∀ other ∈ room.deviceMembers, other = key

/-- The endpoint is in the voice of the room. -/
def InVoice (room : SFURoom S) (key : String × Option DeviceId) : Prop :=
  ∃ m, room.deviceMembers.lookup key = some m ∧ m.voice = true

/-- The event does not leave a room that nobody created without anybody in it: it creates none, and no such room loses its last
endpoint by the end of a subscription or of a connection. -/
def LeavesNone (sha256 : List UInt8 → List UInt8) (mgr : SFURoomManager S) : RoomEvent → Prop
  | .op _ peer (.create roomId roomName _ _) =>
    let id := SFURoomManager.resolvedId sha256 roomId roomName peer
    peer = "" → id ≠ defaultRoomId → id ∈ mgr.rooms
  | .op _ peer (.unsubscribe device roomId) =>
    ∀ room, mgr.rooms.lookup roomId = some room → Anonymous roomId room →
      LastEndpoint room (normalizePeerId peer, device) → InVoice room (normalizePeerId peer, device)
  | .op _ peer (.removeEndpoint device) | .disconnected _ peer device =>
    ∀ id room, mgr.rooms.lookup id = some room → Anonymous id room → ¬LastEndpoint room (normalizePeerId peer, device)
  | _ => True

end

namespace RoomCollectionAux

variable {S : Type} {mgr : SFURoomManager S} {room room' : SFURoom S} {must : Prop} {id : String} {now : Nat}

/-! ### Unused rooms -/

/-- A room is unused if no endpoint is in it. -/
theorem unused_iff (h : room.Refines must) : room.isUnused = true ↔ ∀ key, key ∉ room.deviceMembers := by
  rw [SFURoom.isUnused_iff]
  constructor
  · rintro ⟨hparticipants, hsubscribers⟩ key hkey
    obtain ⟨m, hlook⟩ := Option.isSome_iff_exists.mp (AList.lookup_isSome.mpr hkey)
    have hflag := h.flags key m hlook
    by_cases hvoice : room.HasDevice key.1 DeviceMembership.voice
    · exact AList.lookup_eq_none.mp (hparticipants key.1) ((h.participants key.1).mpr hvoice)
    · have hchat : m.chat = true := by
        rcases Bool.or_eq_true_iff.mp hflag with hv | hc
        · exact absurd ⟨key.2, m, hlook, hv⟩ hvoice
        · exact hc
      have hmem := (h.subscribers key.1).mpr ⟨⟨key.2, m, hlook, hchat⟩, hvoice⟩
      rw [hsubscribers] at hmem
      exact Finset.notMem_empty _ hmem
  · intro hnone
    have hno (p : String) (flag : DeviceMembership → Bool) : ¬room.HasDevice p flag := by
      rintro ⟨d, m, hlook, -⟩
      exact hnone (p, d) (AList.lookup_isSome.mp (by rw [hlook]; rfl))
    refine ⟨fun p => AList.lookup_eq_none.mpr fun hp => hno p _ ((h.participants p).mp hp), ?_⟩
    exact Finset.eq_empty_of_forall_notMem fun p hp => hno p _ ((h.subscribers p).mp hp).1

/-- No room that nobody created is unused. -/
def NoneLeft (mgr : SFURoomManager S) : Prop :=
  ∀ id room, mgr.rooms.lookup id = some room → Anonymous id room → room.isUnused = false

/-- The sweep takes an unused room that somebody created, and no other. -/
theorem lookup_gc (now idleSecs : Nat) (hlook : mgr.rooms.lookup id = some room) :
    (mgr.gcIdleRooms now idleSecs).rooms.lookup id = none ↔ id ≠ defaultRoomId ∧ room.creatorId ≠ "" ∧
      ∃ emptySince, room.emptySince = some emptySince ∧ emptySince + idleSecs ≤ now := by
  unfold SFURoomManager.gcIdleRooms
  rw [lookup_retain, hlook, Option.filter_some]
  cases room.emptySince with
  | none => simp
  | some emptySince => simp [not_or, and_assoc]

theorem collected_iff (h : AllRefine mgr) : Collected mgr ↔ NoneLeft mgr := by
  constructor
  · intro hcollected id room hlook hanonymous
    rw [Bool.eq_false_iff]
    intro hunused
    obtain ⟨emptySince, -, hgone⟩ := hcollected id room hlook hanonymous.1 hunused
    exact ((lookup_gc _ 0 hlook).mp (hgone emptySince 0 (Nat.le_refl _))).2.1 hanonymous.2
  · intro hleft id room hlook hid hunused
    obtain ⟨emptySince, hsince⟩ := Option.isSome_iff_exists.mp ((h id room hlook).idle.marked hid hunused)
    refine ⟨emptySince, hsince, fun now idleSecs hnow => ?_⟩
    refine (lookup_gc now idleSecs hlook).mpr ⟨hid, fun hcreator => ?_, emptySince, hsince, hnow⟩
    exact absurd hunused (by rw [hleft id room hlook ⟨hid, hcreator⟩]; exact Bool.false_ne_true)

theorem sparesUsed (h : AllRefine mgr) : SparesUsed mgr := by
  intro id room hlook hused now idleSecs
  have hstays : (mgr.gcIdleRooms now idleSecs).rooms.lookup id ≠ none := by
    rw [ne_eq, lookup_gc now idleSecs hlook]
    rintro ⟨-, -, emptySince, hsince, -⟩
    exact absurd ((h id room hlook).idle.unused (by rw [hsince]; rfl)) (by rw [hused]; exact Bool.false_ne_true)
  obtain ⟨room', hroom'⟩ := Option.ne_none_iff_exists'.mp hstays
  rw [hroom']
  unfold SFURoomManager.gcIdleRooms at hroom'
  rw [lookup_retain, hlook] at hroom'
  exact (Option.filter_eq_some_iff.mp hroom').1.symm ▸ rfl

/-! ### Rooms that are put back -/

/-- A room is put back with nobody's room left unused exactly if it is not one itself. -/
theorem noneLeft_insert (h : NoneLeft mgr) :
    NoneLeft ⟨mgr.rooms.insert id room⟩ ↔ (Anonymous id room → room.isUnused = false) := by
  constructor
  · exact fun hleft => hleft id room (AList.lookup_insert _)
  · intro hroom id' room' hlook
    by_cases hid : id' = id
    · subst hid
      rw [AList.lookup_insert] at hlook
      rwa [← Option.some.inj hlook]
    · rw [AList.lookup_insert_ne hid] at hlook
      exact h id' room' hlook

theorem noneLeft_erase (h : NoneLeft mgr) (id : String) : NoneLeft ⟨mgr.rooms.erase id⟩ := by
  intro id' room' hlook
  by_cases hid : id' = id
  · subst hid
    rw [AList.lookup_erase] at hlook
    cases hlook
  · rw [AList.lookup_erase_ne hid] at hlook
    exact h id' room' hlook

/-- A room that is put back with the same creator and the same sets leaves things as they were. -/
theorem noneLeft_put (h : NoneLeft mgr) (hlook : mgr.rooms.lookup id = some room) (hcreator : room'.creatorId = room.creatorId)
    (hunused : room'.isUnused = room.isUnused) : NoneLeft ⟨mgr.rooms.insert id room'⟩ := by
  refine (noneLeft_insert h).mpr fun hanonymous => ?_
  rw [hunused]
  exact h id room hlook ⟨hanonymous.1, hcreator ▸ hanonymous.2⟩

/-! ### What keeps the devices and the creator -/

/-- The room has the same devices and the same creator. -/
structure SameRoom (room room' : SFURoom S) : Prop where
  devices : room'.deviceMembers = room.deviceMembers
  creator : room'.creatorId = room.creatorId

theorem SameRoom.trans {room'' : SFURoom S} (h : SameRoom room room') (h' : SameRoom room' room'') : SameRoom room room'' :=
  ⟨h'.devices.trans h.devices, h'.creator.trans h.creator⟩

theorem sameRoom_markUnused (room : SFURoom S) (now : Nat) : SameRoom room (room.markUnusedIfEmpty now) := by
  unfold SFURoom.markUnusedIfEmpty
  split <;> exact ⟨rfl, rfl⟩

theorem sameRoom_addParticipant (room : SFURoom S) (p : String) : SameRoom room (room.addParticipant p).1 := by
  unfold SFURoom.addParticipant
  dsimp only
  split
  · exact ⟨rfl, rfl⟩
  · split <;> exact ⟨rfl, rfl⟩

theorem sameRoom_removeParticipant (room : SFURoom S) (p : String) (now : Nat) :
    SameRoom room (room.removeParticipant p now).1 := by
  unfold SFURoom.removeParticipant
  dsimp only
  split
  · have hmark := sameRoom_markUnused { room with participants := room.participants.erase (normalizePeerId p) } now
    exact ⟨hmark.devices, hmark.creator⟩
  · exact ⟨rfl, rfl⟩

theorem sameRoom_subscribe (room : SFURoom S) (p : String) : SameRoom room (room.subscribe p) := by
  unfold SFURoom.subscribe
  dsimp only
  split <;> exact ⟨rfl, rfl⟩

theorem sameRoom_unsubscribe (room : SFURoom S) (p : String) (now : Nat) : SameRoom room (room.unsubscribe p now) := by
  unfold SFURoom.unsubscribe
  dsimp only
  split
  · have hmark := sameRoom_markUnused { room with subscribers := room.subscribers.erase (normalizePeerId p) } now
    exact ⟨hmark.devices, hmark.creator⟩
  · exact ⟨rfl, rfl⟩

theorem sameRoom_settle (room : SFURoom S) (p : String) (now : Nat) : SameRoom room (room.settle p now) := by
  unfold SFURoom.settle
  dsimp only
  have hvoice : SameRoom room (if room.anyDevice p DeviceMembership.voice then (room.addParticipant p).1
      else (room.removeParticipant p now).1) := by
    split
    · exact sameRoom_addParticipant room p
    · exact sameRoom_removeParticipant room p now
  have hchat (r : SFURoom S) (chatOnly : Bool) : SameRoom r (if chatOnly then r.subscribe p else r.unsubscribe p now) := by
    split
    · exact sameRoom_subscribe r p
    · exact sameRoom_unsubscribe r p now
  exact hvoice.trans (hchat _ _)

/-- What a change of an endpoint leaves: the room as it was, if it is refused, or with the entry of the endpoint set. -/
theorem membership_cases (room : SFURoom S) (peerId : String) (device : Option DeviceId) (voice chat : Option Bool) (now : Nat) :
    ((room.setDeviceMembership peerId device voice chat now).1 = room ∧
      ((voice = some true ∧ room.isFull = true) ∨ (normalizePeerId peerId, device) ∉ room.deviceMembers)) ∨
    ∃ m : DeviceMembership,
      m = { voice := voice.getD ((room.deviceMembers.lookup (normalizePeerId peerId, device)).getD ⟨false, false⟩).voice
            chat := chat.getD ((room.deviceMembers.lookup (normalizePeerId peerId, device)).getD ⟨false, false⟩).chat } ∧
      SameRoom (room.withDevice (normalizePeerId peerId, device) m)
        (room.setDeviceMembership peerId device voice chat now).1 := by
  unfold SFURoom.setDeviceMembership
  dsimp only
  split
  · rename_i hfull
    exact Or.inl ⟨rfl, Or.inl ⟨hfull.1, hfull.2.2⟩⟩
  · split
    · rename_i hlimit
      exact Or.inl ⟨rfl, Or.inr (AList.lookup_eq_none.mp (Option.isNone_iff_eq_none.mp hlimit.1))⟩
    · exact Or.inr ⟨_, rfl, sameRoom_settle _ _ now⟩

theorem creator_setDeviceMembership (room : SFURoom S) (peerId : String) (device : Option DeviceId) (voice chat : Option Bool)
    (now : Nat) : (room.setDeviceMembership peerId device voice chat now).1.creatorId = room.creatorId := by
  rcases membership_cases room peerId device voice chat now with ⟨hsame, -⟩ | ⟨m, -, hsame⟩
  · rw [hsame]
  · exact hsame.creator

/-- An endpoint whose flag is raised makes the room a used one, unless it was refused. -/
theorem used_of_raised (h : room.Refines must) (peerId : String) (device : Option DeviceId) {voice chat : Option Bool}
    (hraised : voice = some true ∨ chat = some true) (hused : room.isUnused = false) (now : Nat) :
    (room.setDeviceMembership peerId device voice chat now).1.isUnused = false := by
  rcases membership_cases room peerId device voice chat now with ⟨hsame, -⟩ | ⟨m, hm, hsame⟩
  · rwa [hsame]
  · have hflag : (m.voice || m.chat) = true := by
      rcases hraised with rfl | rfl
      · simp [hm]
      · simp [hm]
    rw [Bool.eq_false_iff, ne_eq, unused_iff (h.setDeviceMembership peerId device voice chat now), hsame.devices]
    intro hnone
    refine hnone (normalizePeerId peerId, device) (AList.lookup_isSome.mp ?_)
    rw [SFURoom.lookup_withDevice, if_pos rfl, if_pos hflag]
    rfl

/-- An endpoint whose flags are lowered leaves the room unused exactly if it was the last one and has no flag left. -/
theorem unused_of_lowered (h : room.Refines must) (hused : room.isUnused = false) (peerId : String) (device : Option DeviceId)
    {voice chat : Option Bool} (hvoice : voice ≠ some true) (hchat : chat = some false) (now : Nat) :
    (room.setDeviceMembership peerId device voice chat now).1.isUnused = true ↔
      LastEndpoint room (normalizePeerId peerId, device) ∧
        ¬(voice = none ∧ InVoice room (normalizePeerId peerId, device)) := by
  have hsome : ∃ key, key ∈ room.deviceMembers := by
    by_contra hnone
    rw [(unused_iff h).mpr fun key hkey => hnone ⟨key, hkey⟩] at hused
    cases hused
  rcases membership_cases room peerId device voice chat now with ⟨hsame, hwhy⟩ | ⟨m, hm, hsame⟩
  · rw [hsame, hused]
    refine iff_of_false Bool.false_ne_true fun hlast => ?_
    rcases hwhy with ⟨hraised, -⟩ | hout
    · exact hvoice hraised
    · exact hout hlast.1.1
  · generalize normalizePeerId peerId = p at hm hsame ⊢
    have hkey (key : String × Option DeviceId) : key ∉ (room.withDevice (p, device) m).deviceMembers ↔
        if key = (p, device) then (m.voice || m.chat) = false else key ∉ room.deviceMembers := by
      rw [← AList.lookup_eq_none, SFURoom.lookup_withDevice]
      by_cases hown : key = (p, device)
      · rw [if_pos hown, if_pos hown]
        cases m.voice || m.chat <;> simp
      · rw [if_neg hown, if_neg hown, AList.lookup_eq_none]
    rw [unused_iff (h.setDeviceMembership peerId device voice chat now), hsame.devices]
    simp only [hkey]
    have hflags : (m.voice || m.chat) = false ↔ ¬(voice = none ∧ InVoice room (p, device)) := by
      rw [hm, hchat]
      cases voice with
      | none =>
        unfold InVoice
        cases room.deviceMembers.lookup (p, device) with
        | none => simp
        | some old => simp
      | some v => cases v <;> simp_all
    constructor
    · intro hall
      have hlast (key : String × Option DeviceId) (hin : key ∈ room.deviceMembers) : key = (p, device) := by
        by_contra hne
        have hout := hall key
        rw [if_neg hne] at hout
        exact hout hin
      obtain ⟨key, hin⟩ := hsome
      obtain rfl := hlast key hin
      have hown := hall (p, device)
      rw [if_pos rfl] at hown
      exact ⟨⟨hin, hlast⟩, hflags.mp hown⟩
    · rintro ⟨hlast, hnot⟩ key
      split
      · exact hflags.mpr hnot
      · rename_i hne
        exact fun hin => hne (hlast.2 key hin)

/-! ### One event -/

/-- An operation that leaves nobody's room unused, whatever the rooms. -/
theorem noneLeft_join (hrefine : AllRefine mgr) (h : NoneLeft mgr) (peerId : String) (device : Option DeviceId) (roomId : String) :
    NoneLeft (mgr.joinRoomEndpoint peerId device roomId now).1 := by
  unfold SFURoomManager.joinRoomEndpoint
  dsimp only
  split
  · exact h
  · rename_i room hlook
    split
    · exact h
    · refine (noneLeft_insert h).mpr fun hanonymous => ?_
      rw [Anonymous, creator_setDeviceMembership] at hanonymous
      exact used_of_raised (hrefine _ _ hlook) _ device (Or.inl rfl) (h _ _ hlook hanonymous) now

theorem noneLeft_subscribe (hrefine : AllRefine mgr) (h : NoneLeft mgr) (peerId : String) (device : Option DeviceId)
    (roomId : String) : NoneLeft (mgr.subscribeEndpoint peerId device roomId now).1 := by
  unfold SFURoomManager.subscribeEndpoint
  split
  · exact h
  · rename_i room hlook
    split
    · refine (noneLeft_insert h).mpr fun hanonymous => ?_
      rw [Anonymous, creator_setDeviceMembership] at hanonymous
      exact used_of_raised (hrefine _ _ hlook) _ device (Or.inr rfl) (h _ _ hlook hanonymous) now
    · exact h

/-- A room that is put back, or goes when it is nobody's and empty. -/
theorem noneLeft_collect (h : NoneLeft mgr) (id : String) (room : SFURoom S) :
    NoneLeft ⟨if SFURoomManager.isAnonymousEmpty room id then mgr.rooms.erase id else mgr.rooms.insert id room⟩ := by
  split
  · exact noneLeft_erase h id
  · rename_i hstays
    refine (noneLeft_insert h).mpr fun hanonymous => ?_
    rw [SFURoomManager.isAnonymousEmpty, decide_eq_true hanonymous.1, decide_eq_true hanonymous.2, Bool.and_true,
      Bool.and_true] at hstays
    exact Bool.eq_false_iff.mpr hstays

theorem noneLeft_leave (h : NoneLeft mgr) (peerId : String) (device : Option DeviceId) (roomId : String) :
    NoneLeft (mgr.leaveRoomEndpoint peerId device roomId now).1 := by
  unfold SFURoomManager.leaveRoomEndpoint
  split
  · exact h
  · exact noneLeft_collect h roomId _

theorem unused_created (id roomName : String) (roomType : RoomType) (creatorId invitePolicy : String) (now : Nat) :
    (({ SFURoom.new id roomName roomType creatorId with invitePolicy := normalizeInvitePolicy invitePolicy } :
      SFURoom S).markUnusedIfEmpty now).isUnused = true :=
  rfl

theorem creator_created (id roomName : String) (roomType : RoomType) (creatorId invitePolicy : String) (now : Nat) :
    (({ SFURoom.new id roomName roomType creatorId with invitePolicy := normalizeInvitePolicy invitePolicy } :
      SFURoom S).markUnusedIfEmpty now).creatorId = normalizePeerId creatorId := by
  rw [(sameRoom_markUnused _ now).creator]
  simp only [SFURoom.new]

theorem noneLeft_create (h : NoneLeft mgr) (id roomName : String) (roomType : RoomType) (creatorId invitePolicy : String) :
    NoneLeft (mgr.createRoomWithPolicy id roomName roomType creatorId invitePolicy now).1 ↔
      (creatorId = "" → id ≠ defaultRoomId → id ∈ mgr.rooms) := by
  unfold SFURoomManager.createRoomWithPolicy
  by_cases hin : (mgr.rooms.lookup id).isSome = true
  · rw [if_pos hin]
    exact iff_of_true h fun _ _ => AList.lookup_isSome.mp hin
  · rw [if_neg hin]
    rw [noneLeft_insert h]
    constructor
    · rintro hused rfl hid
      have hlobby : normalizePeerId "" = "" := by decide +kernel
      have hnot := hused ⟨hid, (creator_created ..).trans hlobby⟩
      rw [unused_created] at hnot
      cases hnot
    · intro hknown hanonymous
      rw [Anonymous, creator_created] at hanonymous
      by_cases hempty : creatorId = ""
      · exact absurd (AList.lookup_isSome.mpr (hknown hempty hanonymous.1)) hin
      · exact absurd hanonymous.2 (normalize_ne_empty hempty)

theorem noneLeft_unsubscribe (hrefine : AllRefine mgr) (h : NoneLeft mgr) (peerId : String) (device : Option DeviceId)
    (roomId : String) :
    NoneLeft (mgr.unsubscribeEndpoint peerId device roomId now) ↔
      ∀ room, mgr.rooms.lookup roomId = some room → Anonymous roomId room →
        LastEndpoint room (normalizePeerId peerId, device) → InVoice room (normalizePeerId peerId, device) := by
  unfold SFURoomManager.unsubscribeEndpoint
  split
  · rename_i hlook
    exact iff_of_true h fun room hroom => absurd (hlook.symm.trans hroom) (Option.some_ne_none room).symm
  · rename_i room hlook
    rw [noneLeft_insert h, Anonymous, creator_setDeviceMembership, hlook]
    have hlowered (hanonymous : Anonymous roomId room) := unused_of_lowered (hrefine _ _ hlook) (h _ _ hlook hanonymous) peerId
      device (Option.some_ne_none true).symm (rfl : some false = some false) now
    constructor
    · rintro hused room' hroom' hanonymous hlast
      obtain rfl := Option.some.inj hroom'
      by_contra hnot
      have hunused := (hlowered hanonymous).mpr ⟨hlast, fun hboth => hnot hboth.2⟩
      rw [hused hanonymous] at hunused
      cases hunused
    · intro hvoice hanonymous
      rw [Bool.eq_false_iff]
      intro hunused
      obtain ⟨hlast, hnot⟩ := (hlowered hanonymous).mp hunused
      exact hnot ⟨rfl, hvoice room rfl hanonymous hlast⟩

theorem noneLeft_removeEndpoint (hrefine : AllRefine mgr) (h : NoneLeft mgr) (peerId : String) (device : Option DeviceId)
    (now : Nat) :
    NoneLeft (mgr.removeEndpointFromAll peerId device now).1 ↔
      ∀ id room, mgr.rooms.lookup id = some room → Anonymous id room → ¬LastEndpoint room (normalizePeerId peerId, device) := by
  have hone {id : String} {room : SFURoom S} (hlook : mgr.rooms.lookup id = some room) :
      (SFURoomManager.removeEndpointFromRoom (normalizePeerId peerId) device now room).creatorId = room.creatorId ∧
        (Anonymous id room → ((SFURoomManager.removeEndpointFromRoom (normalizePeerId peerId) device now room).isUnused = true ↔
          LastEndpoint room (normalizePeerId peerId, device))) := by
    unfold SFURoomManager.removeEndpointFromRoom
    split
    · refine ⟨creator_setDeviceMembership .., fun hanonymous => ?_⟩
      refine (unused_of_lowered (hrefine _ _ hlook) (h _ _ hlook hanonymous) _ device
        (fun hnot => Bool.false_ne_true (Option.some.inj hnot)) (rfl : some false = some false) now).trans ?_
      rw [normalizePeerId_idem]
      exact and_iff_left fun hboth => Option.some_ne_none false hboth.1
    · rename_i hout
      refine ⟨rfl, fun hanonymous => iff_of_false ?_ fun hlast => ?_⟩
      · rw [h _ _ hlook hanonymous]
        exact Bool.false_ne_true
      · exact hout (AList.lookup_isSome.mpr hlast.1)
  unfold NoneLeft SFURoomManager.removeEndpointFromAll
  simp only [lookup_mapValues]
  constructor
  · intro hleft id room hlook hanonymous hlast
    have hused := hleft id _ (by rw [hlook]; rfl) ⟨hanonymous.1, (hone hlook).1.trans hanonymous.2⟩
    rw [((hone hlook).2 hanonymous).mpr hlast] at hused
    cases hused
  · intro hnone id room' hlook' hanonymous'
    obtain ⟨room, hlook, rfl⟩ := Option.map_eq_some_iff.mp hlook'
    have hanonymous : Anonymous id room := ⟨hanonymous'.1, (hone hlook).1.symm.trans hanonymous'.2⟩
    rw [Bool.eq_false_iff]
    exact fun hunused => hnone id room hlook hanonymous (((hone hlook).2 hanonymous).mp hunused)

/-- An identity that is not in the room leaves it as used as it was. -/
theorem removePeerEntirely_absent (room : SFURoom S) (p : String) (now : Nat) (hp : normalizePeerId p = p)
    (h : (room.removePeerEntirely p now).2 = false) :
    (room.removePeerEntirely p now).1.isUnused = room.isUnused ∧ (room.removePeerEntirely p now).1.creatorId = room.creatorId := by
  revert h
  unfold SFURoom.removePeerEntirely
  dsimp only
  rw [hp]
  intro h
  rw [Bool.or_eq_false_iff, decide_eq_false_iff_not] at h
  have hout : p ∉ room.participants := by
    rw [← AList.lookup_isSome, h.1]
    exact Bool.false_ne_true
  rw [h.1, decide_eq_false h.2, Bool.or_false, if_neg Bool.false_ne_true, if_neg Bool.false_ne_true]
  exact ⟨SFURoom.isUnused_without hout h.2, rfl⟩

theorem noneLeft_removePeerFromRoom {acc : SFURoomManager S × List (String × List String)} (h : NoneLeft acc.1) {p : String}
    (hp : normalizePeerId p = p) (now : Nat) (id : String) : NoneLeft (SFURoomManager.removePeerFromRoom p now acc id).1 := by
  unfold SFURoomManager.removePeerFromRoom
  split
  · exact h
  · rename_i room hlook
    dsimp only
    split
    · exact noneLeft_collect h id _
    · rename_i hout
      obtain ⟨hunused, hcreator⟩ := removePeerEntirely_absent room p now hp (Bool.eq_false_iff.mpr hout)
      exact noneLeft_put h hlook hcreator hunused

theorem lookup_removePeerFromRoom {acc : SFURoomManager S × List (String × List String)} {p id id' : String} (hid : id' ≠ id)
    (now : Nat) : (SFURoomManager.removePeerFromRoom p now acc id).1.rooms.lookup id' = acc.1.rooms.lookup id' := by
  unfold SFURoomManager.removePeerFromRoom
  split
  · rfl
  · dsimp only
    split
    · split
      · exact AList.lookup_erase_ne hid
      · exact AList.lookup_insert_ne hid
    · exact AList.lookup_insert_ne hid

theorem lookup_removePeerFromRooms {p id : String} {ids : List String} (hid : id ∉ ids) (now : Nat)
    (acc : SFURoomManager S × List (String × List String)) :
    (ids.foldl (SFURoomManager.removePeerFromRoom p now) acc).1.rooms.lookup id = acc.1.rooms.lookup id := by
  induction ids generalizing acc with
  | nil => rfl
  | cons id' ids ih =>
    rw [List.mem_cons, not_or] at hid
    exact (ih hid.2 _).trans (lookup_removePeerFromRoom hid.1 now)

/-- The removal of a peer passes an unused room by, and takes every room of nobody's that it empties. -/
theorem noneLeft_removePeer (mgr : SFURoomManager S) (peerId : String) (now : Nat) :
    NoneLeft (mgr.removePeerFromAll peerId now).1 ↔ NoneLeft mgr := by
  unfold SFURoomManager.removePeerFromAll
  dsimp only
  constructor
  · intro hleft id room hlook hanonymous
    rw [Bool.eq_false_iff]
    intro hunused
    have hid : id ∉ (mgr.rooms.entries.filter fun e => (e.2.participants.lookup (normalizePeerId peerId)).isSome ||
        decide (normalizePeerId peerId ∈ e.2.subscribers)).map Sigma.fst := by
      rintro hmem
      obtain ⟨e, he, rfl⟩ := List.mem_map.mp hmem
      obtain ⟨hmem, hin⟩ := List.mem_filter.mp he
      obtain rfl := Option.some.inj (hlook.symm.trans (AList.mem_lookup_iff.mpr hmem))
      rw [Bool.or_eq_true, decide_eq_true_eq] at hin
      rcases hin with hin | hin
      · exact SFURoom.not_unused_of_participant (AList.lookup_isSome.mp hin) hunused
      · exact SFURoom.not_unused_of_subscriber hin hunused
    have hused := hleft id room ((lookup_removePeerFromRooms hid now (mgr, [])).trans hlook) hanonymous
    rw [hunused] at hused
    cases hused
  · intro h
    generalize (mgr.rooms.entries.filter _).map Sigma.fst = ids
    have hfold (acc : SFURoomManager S × List (String × List String)) (hacc : NoneLeft acc.1) :
        NoneLeft (ids.foldl (SFURoomManager.removePeerFromRoom (normalizePeerId peerId) now) acc).1 := by
      induction ids generalizing acc with
      | nil => exact hacc
      | cons id ids ih => exact ih _ (noneLeft_removePeerFromRoom hacc (normalizePeerId_idem peerId) now id)
    exact hfold (mgr, []) h

theorem noneLeft_gc (h : NoneLeft mgr) (now idleSecs : Nat) : NoneLeft (mgr.gcIdleRooms now idleSecs) := by
  intro id room hlook
  rw [SFURoomManager.gcIdleRooms, lookup_retain] at hlook
  exact h id room (Option.filter_eq_some_iff.mp hlook).1

theorem noneLeft_adopt (h : NoneLeft mgr) (roomId ownerPub : String) : NoneLeft (mgr.adoptCreatorIfEmpty roomId ownerPub).1 := by
  unfold SFURoomManager.adoptCreatorIfEmpty
  split
  · exact h
  · rename_i howner
    split
    · exact h
    · split
      · exact (noneLeft_insert h).mpr fun hanonymous => absurd hanonymous.2 howner
      · exact h

theorem sameUse_validate (room : SFURoom S) (token p : String) :
    (room.validateAndConsumeToken token p).1.creatorId = room.creatorId ∧
      (room.validateAndConsumeToken token p).1.isUnused = room.isUnused := by
  unfold SFURoom.validateAndConsumeToken
  split
  · exact ⟨rfl, rfl⟩
  · split <;> exact ⟨rfl, rfl⟩

theorem sameUse_reregister (room : SFURoom S) (token p : String) :
    (room.reregisterInviteToken token p).1.creatorId = room.creatorId ∧
      (room.reregisterInviteToken token p).1.isUnused = room.isUnused := by
  unfold SFURoom.reregisterInviteToken
  split <;> exact ⟨rfl, rfl⟩

/-- **One operation for a peer.** -/
theorem noneLeft_op (hrefine : AllRefine mgr) (h : NoneLeft mgr) (sha256 : List UInt8 → List UInt8) (now : Nat) (peer : String)
    (op : RoomOp) : NoneLeft (roomOp sha256 mgr now peer op).1 ↔ LeavesNone sha256 mgr (.op now peer op) := by
  cases op with
  | create roomId roomName roomType policy => exact noneLeft_create h _ roomName roomType peer policy
  | unsubscribe device roomId => exact noneLeft_unsubscribe hrefine h peer device roomId
  | removeEndpoint device => exact noneLeft_removeEndpoint hrefine h peer device now
  | removePeer => exact iff_of_true ((noneLeft_removePeer mgr peer now).mpr h) trivial
  | adopt roomId => exact iff_of_true (noneLeft_adopt h roomId peer) trivial
  | join device roomId => exact iff_of_true (noneLeft_join hrefine h peer device roomId) trivial
  | leave device roomId => exact iff_of_true (noneLeft_leave h peer device roomId) trivial
  | subscribe device roomId => exact iff_of_true (noneLeft_subscribe hrefine h peer device roomId) trivial
  | gc idleSecs => exact iff_of_true (noneLeft_gc h now idleSecs) trivial
  | chatSender _ | peerAllowed _ | inVoice _ _ => exact iff_of_true h trivial
  | allow roomId =>
    refine iff_of_true ?_ trivial
    unfold roomOp SFURoomManager.allowPeer
    dsimp only
    split
    · exact h
    · rename_i room hlook
      exact noneLeft_put h hlook rfl rfl
  | mint roomId token =>
    refine iff_of_true ?_ trivial
    unfold roomOp SFURoomManager.generateInviteToken
    dsimp only
    split
    · exact h
    · rename_i room hlook
      exact noneLeft_put h hlook rfl rfl
  | mintChecked roomId token =>
    refine iff_of_true ?_ trivial
    unfold roomOp SFURoomManager.generateInviteTokenChecked
    dsimp only
    split
    · exact h
    · rename_i room hlook
      split
      · exact h
      · split
        · exact h
        · exact noneLeft_put h hlook rfl rfl
  | reregister roomId token =>
    refine iff_of_true ?_ trivial
    unfold roomOp SFURoomManager.reregisterInviteToken
    dsimp only
    split
    · exact h
    · rename_i room hlook
      exact noneLeft_put h hlook (sameUse_reregister room token peer).1 (sameUse_reregister room token peer).2
  | validate roomId token =>
    refine iff_of_true ?_ trivial
    unfold roomOp SFURoomManager.validateRoomInvite
    dsimp only
    split
    · exact h
    · rename_i room hlook
      exact noneLeft_put h hlook (sameUse_validate room token peer).1 (sameUse_validate room token peer).2

theorem creator_note (decay : Decay) (room : SFURoom SpeakerScore) (sender : String) (now : ℚ) :
    (room.noteAudioShouldForward decay sender now).1.creatorId = room.creatorId := by
  unfold SFURoom.noteAudioShouldForward
  dsimp only
  split_ifs <;> rfl

theorem allRefine_event (decay : Decay) (sha256 : List UInt8 → List UInt8) {mgr : SFURoomManager SpeakerScore}
    (h : AllRefine mgr) (event : RoomEvent) : AllRefine (roomEvent decay sha256 mgr event) := by
  cases event with
  | op now peer op => exact allRefine_op h sha256 now peer op
  | audio now roomId sender =>
    unfold roomEvent SFURoomManager.audioForwardTargets
    dsimp only
    split
    · exact h
    · rename_i room hlook
      have honly := speakersOnly_note decay room sender now
      exact h.insert (refines_congr (h _ _ hlook) honly.devices honly.participants honly.subscribers honly.emptySince)
  | disconnected now peer device =>
    have hendpoint : AllRefine (onEndpointDisconnected mgr peer device now) := h.removeEndpoint peer device
    exact hendpoint.removePeer peer

theorem noneLeft_audio {mgr : SFURoomManager SpeakerScore} (h : NoneLeft mgr) (decay : Decay) (roomId sender : String) (now : ℚ) :
    NoneLeft (mgr.audioForwardTargets decay roomId sender now).1 := by
  unfold SFURoomManager.audioForwardTargets
  split
  · exact h
  · rename_i room hlook
    have honly := speakersOnly_note decay room sender now
    refine noneLeft_put h hlook (creator_note decay room sender now) ?_
    unfold SFURoom.isUnused
    rw [honly.participants, honly.subscribers]

/-- **One event.** Nobody's room is left unused exactly if the event leaves none. -/
theorem collected_event (decay : Decay) (sha256 : List UInt8 → List UInt8) {mgr : SFURoomManager SpeakerScore}
    (hrefine : AllRefine mgr) (hcollected : Collected mgr) (event : RoomEvent) :
    Collected (roomEvent decay sha256 mgr event) ↔ LeavesNone sha256 mgr event := by
  have h := (collected_iff hrefine).mp hcollected
  refine (collected_iff (allRefine_event decay sha256 hrefine event)).trans ?_
  cases event with
  | op now peer op => exact noneLeft_op hrefine h sha256 now peer op
  | audio now roomId sender => exact iff_of_true (noneLeft_audio h decay roomId sender now) trivial
  | disconnected now peer device =>
    exact (noneLeft_removePeer _ peer now).trans (noneLeft_removeEndpoint hrefine h peer device now)

theorem collected_new : Collected (SFURoomManager.new : SFURoomManager SpeakerScore) := by
  intro id room hlook hid
  rw [SFURoomManager.new, AList.lookup_insert_ne hid, AList.lookup_empty] at hlook
  cases hlook

theorem allRefine_after (decay : Decay) (sha256 : List UInt8 → List UInt8) (events : List RoomEvent) :
    AllRefine (roomsAfter decay sha256 events) := by
  induction events using List.reverseRecOn with
  | nil => exact allRefine_new
  | append_singleton events event ih =>
    unfold roomsAfter at ih ⊢
    rw [List.foldl_append, List.foldl_cons, List.foldl_nil]
    exact allRefine_event decay sha256 ih event

end RoomCollectionAux

open RoomCollectionAux

/-- **Which runs leave no unused room.** After every event of a run all unused rooms are collected, if and only if no event leaves a
room that nobody created without anybody in it; and the sweep never takes a room that is in use. -/
theorem unused_collected (decay : Decay) (sha256 : List UInt8 → List UInt8) (events : List RoomEvent) :
    ((∀ pre, pre <+: events → Collected (roomsAfter decay sha256 pre)) ↔
      ∀ pre event, pre ++ [event] <+: events → LeavesNone sha256 (roomsAfter decay sha256 pre) event) ∧
    SparesUsed (roomsAfter decay sha256 events) := by
  refine ⟨?_, sparesUsed (allRefine_after decay sha256 events)⟩
  refine foldl_iff_prefixes AllRefine Collected (fun mgr event hrefine hcollected => ?_) allRefine_new collected_new events
  exact ⟨allRefine_event decay sha256 hrefine event, collected_event decay sha256 hrefine hcollected event⟩

/-- A room that nobody created, in which a peer is and from which it is disconnected. -/
def leakRun : List RoomEvent :=
  [.op 0 "" (.create (some "r") "r" .pub "owner"), .op 0 "a" (.join none "r"), .disconnected 1 "a" none]

/-- Scores that do not fade. -/
def steadyDecay : Decay := ⟨fun _ => 1, rfl⟩

theorem leakRun_room : ((roomsAfter steadyDecay (fun _ => []) leakRun).rooms.lookup "r").any
    (fun room => room.isUnused && decide (room.creatorId = "")) = true := by
  decide +kernel

/-- Such a room stays, unused, and no sweep takes it. -/
theorem unused_leaked : ¬∀ decay sha256 events, Collected (roomsAfter decay sha256 events) := by
  intro hall
  obtain ⟨room, hlook, hboth⟩ := (Option.any_eq_true ..).mp leakRun_room
  obtain ⟨hunused, hcreator⟩ := Bool.and_eq_true_iff.mp hboth
  have hleft := (collected_iff (allRefine_after steadyDecay (fun _ => []) leakRun)).mp (hall steadyDecay (fun _ => []) leakRun)
  have hused := hleft "r" room hlook ⟨by decide, of_decide_eq_true hcreator⟩
  rw [hunused] at hused
  cases hused

end DoubleSlash.Sfu
