import DoubleSlash.Lemmas.Rooms

/-!
# The rooms of a node

Whatever calls a node makes, the sets each of its rooms answers from are those of the devices in it.
-/

namespace DoubleSlash.Sfu

open Assoc Text Tls

variable {S : Type}

/-- What holds of the room `id`. -/
structure Membership (id : String) (room : SFURoom S) : Prop where
  /-- In voice is who has a device in voice. -/
  participants : ∀ p, p ∈ room.participants ↔ ∃ d m, room.deviceMembers.lookup (p, d) = some m ∧ m.voice = true
  /-- Only in chat is who has a device in chat and none in voice. -/
  subscribers : ∀ p, p ∈ room.subscribers ↔
    (∃ d m, room.deviceMembers.lookup (p, d) = some m ∧ m.chat = true) ∧
      ¬∃ d m, room.deviceMembers.lookup (p, d) = some m ∧ m.voice = true
  disjoint : ∀ p ∈ room.participants, p ∉ room.subscribers
  size : room.participants.entries.length ≤ maxRoomSize
  /-- The entries of an identity that carry a device id are bounded. -/
  devices : ∀ p, (room.deviceMembers.keys.countP fun key => key.1 = p ∧ key.2.isSome) ≤ maxLiveDeviceRoutes
  flags : ∀ key m, room.deviceMembers.lookup key = some m → (m.voice || m.chat) = true
  /-- An identity has one spelling. -/
  normal : ∀ key m, room.deviceMembers.lookup key = some m → normalizePeerId key.1 = key.1
  /-- A room that is in use has no time since which it is empty. -/
  used : room.emptySince.isSome = true → room.isUnused = true
  /-- A room other than the lobby has one while it is unused. -/
  unused : id ≠ defaultRoomId → room.isUnused = true → room.emptySince.isSome = true

/-- Every room of the manager holds what it should. -/
def AllRefine (mgr : SFURoomManager S) : Prop :=
  ∀ id room, mgr.rooms.lookup id = some room → room.Refines (id ≠ defaultRoomId)

variable {mgr : SFURoomManager S} {now : Nat}

theorem membership_of_refines {id : String} {room : SFURoom S} (h : room.Refines (id ≠ defaultRoomId)) : Membership id room where
  participants := h.participants
  subscribers := h.subscribers
  disjoint p hp hs := ((h.subscribers p).mp hs).2 ((h.participants p).mp hp)
  size := h.size
  devices := h.devices
  flags := h.flags
  normal := h.normal
  used := h.idle.unused
  unused := h.idle.marked

theorem AllRefine.insert (h : AllRefine mgr) {id : String} {room : SFURoom S} (hroom : room.Refines (id ≠ defaultRoomId)) :
    AllRefine ⟨mgr.rooms.insert id room⟩ := by
  intro id' room' hlook
  by_cases hid : id' = id
  · subst hid
    rw [AList.lookup_insert] at hlook
    rwa [← Option.some.inj hlook]
  · rw [AList.lookup_insert_ne hid] at hlook
    exact h id' room' hlook

theorem AllRefine.erase (h : AllRefine mgr) (id : String) : AllRefine ⟨mgr.rooms.erase id⟩ := by
  intro id' room' hlook
  by_cases hid : id' = id
  · subst hid
    rw [AList.lookup_erase] at hlook
    cases hlook
  · rw [AList.lookup_erase_ne hid] at hlook
    exact h id' room' hlook

/-- A room stays, or goes when it is nobody's and empty. -/
theorem AllRefine.collect (h : AllRefine mgr) {id : String} {room : SFURoom S} (hroom : room.Refines (id ≠ defaultRoomId)) :
    AllRefine ⟨if SFURoomManager.isAnonymousEmpty room id then mgr.rooms.erase id else mgr.rooms.insert id room⟩ := by
  split
  · exact h.erase id
  · exact h.insert hroom

/-- A room nobody has entered. -/
theorem refines_of_empty {must : Prop} {room : SFURoom S} (hp : room.participants = ∅) (hs : room.subscribers = ∅)
    (hd : room.deviceMembers = ∅) (hmark : must → room.emptySince.isSome = true) : room.Refines must := by
  have hno : ∀ p flag, ¬room.HasDevice p flag := by
    rintro p flag ⟨d, m, hlook, -⟩
    rw [hd, AList.lookup_empty] at hlook
    cases hlook
  have hunused : room.isUnused = true := by
    unfold SFURoom.isUnused
    rw [hp, hs]
    rfl
  refine ⟨fun p => ?_, fun p => ?_, ?_, fun p => ?_, ?_, ?_, ⟨fun _ => hunused, fun hm _ => hmark hm⟩⟩
  · rw [hp]
    exact iff_of_false (AList.notMem_empty p) (hno p _)
  · rw [hs]
    exact iff_of_false (Finset.notMem_empty p) fun h => hno p _ h.1
  · rw [hp]
    exact Nat.zero_le _
  · unfold SFURoom.deviceCount
    rw [hd]
    exact Nat.zero_le _
  · intro key m hlook
    rw [hd, AList.lookup_empty] at hlook
    cases hlook
  · intro key m hlook
    rw [hd, AList.lookup_empty] at hlook
    cases hlook

theorem allRefine_new : AllRefine (SFURoomManager.new : SFURoomManager S) := by
  have hempty : AllRefine (⟨∅⟩ : SFURoomManager S) := by
    intro id room hlook
    rw [AList.lookup_empty] at hlook
    cases hlook
  exact hempty.insert (refines_of_empty rfl rfl rfl fun h => absurd rfl h)

theorem AllRefine.create (h : AllRefine mgr) (id roomName : String) (roomType : RoomType) (creatorId invitePolicy : String) :
    AllRefine (mgr.createRoomWithPolicy id roomName roomType creatorId invitePolicy now).1 := by
  unfold SFURoomManager.createRoomWithPolicy
  split_ifs
  · exact h
  · exact h.insert (refines_of_empty rfl rfl rfl fun _ => rfl)

theorem AllRefine.gc (h : AllRefine mgr) (idleSecs : Nat) : AllRefine (mgr.gcIdleRooms now idleSecs) := by
  intro id room hlook
  rw [SFURoomManager.gcIdleRooms, lookup_retain] at hlook
  exact h id room (Option.filter_eq_some_iff.mp hlook).1

theorem AllRefine.allow (h : AllRefine mgr) (roomId peerId : String) : AllRefine (mgr.allowPeer roomId peerId).1 := by
  unfold SFURoomManager.allowPeer
  split
  · exact h
  · rename_i room hlook
    have hroom := h _ _ hlook
    exact h.insert ⟨hroom.participants, hroom.subscribers, hroom.size, hroom.devices, hroom.flags, hroom.normal,
      ⟨hroom.idle.unused, hroom.idle.marked⟩⟩

theorem AllRefine.join (h : AllRefine mgr) (peerId : String) (device : Option DeviceId) (roomId : String) :
    AllRefine (mgr.joinRoomEndpoint peerId device roomId now).1 := by
  unfold SFURoomManager.joinRoomEndpoint
  simp only
  split
  · exact h
  · rename_i room hlook
    split_ifs
    · exact h
    · exact h.insert ((h _ _ hlook).setDeviceMembership _ device _ _ now)

theorem AllRefine.leave (h : AllRefine mgr) (peerId : String) (device : Option DeviceId) (roomId : String) :
    AllRefine (mgr.leaveRoomEndpoint peerId device roomId now).1 := by
  unfold SFURoomManager.leaveRoomEndpoint
  split
  · exact h
  · rename_i room hlook
    exact h.collect (((h _ _ hlook).setDeviceMembership peerId device (some false) none now).markUnusedIfEmpty now)

theorem AllRefine.subscribe (h : AllRefine mgr) (peerId : String) (device : Option DeviceId) (roomId : String) :
    AllRefine (mgr.subscribeEndpoint peerId device roomId now).1 := by
  unfold SFURoomManager.subscribeEndpoint
  split
  · exact h
  · rename_i room hlook
    split_ifs
    · exact h.insert ((h _ _ hlook).setDeviceMembership peerId device _ _ now)
    · exact h

theorem AllRefine.unsubscribe (h : AllRefine mgr) (peerId : String) (device : Option DeviceId) (roomId : String) :
    AllRefine (mgr.unsubscribeEndpoint peerId device roomId now) := by
  unfold SFURoomManager.unsubscribeEndpoint
  split
  · exact h
  · rename_i room hlook
    exact h.insert ((h _ _ hlook).setDeviceMembership peerId device _ _ now)

theorem AllRefine.removeEndpoint (h : AllRefine mgr) (peerId : String) (device : Option DeviceId) :
    AllRefine (mgr.removeEndpointFromAll peerId device now).1 := by
  intro id room hlook
  unfold SFURoomManager.removeEndpointFromAll at hlook
  rw [lookup_mapValues] at hlook
  obtain ⟨room0, hroom0, rfl⟩ := Option.map_eq_some_iff.mp hlook
  unfold SFURoomManager.removeEndpointFromRoom
  split_ifs
  · exact (h id room0 hroom0).setDeviceMembership _ device _ _ now
  · exact h id room0 hroom0

theorem AllRefine.removePeerFromRoom {acc : SFURoomManager S × List (String × List String)} (h : AllRefine acc.1) (peerId : String)
    (roomId : String) : AllRefine (SFURoomManager.removePeerFromRoom peerId now acc roomId).1 := by
  unfold SFURoomManager.removePeerFromRoom
  split
  · exact h
  · rename_i room hlook
    have hroom := (h _ _ hlook).removePeerEntirely peerId now
    simp only
    split_ifs
    · exact h.erase roomId
    · exact h.insert hroom
    · exact h.insert hroom

theorem AllRefine.removePeer (h : AllRefine mgr) (peerId : String) : AllRefine (mgr.removePeerFromAll peerId now).1 := by
  unfold SFURoomManager.removePeerFromAll
  simp only
  generalize (mgr.rooms.entries.filter _).map Sigma.fst = ids
  have hfold : ∀ acc : SFURoomManager S × List (String × List String), AllRefine acc.1 →
      AllRefine (ids.foldl (SFURoomManager.removePeerFromRoom (normalizePeerId peerId) now) acc).1 := by
    induction ids with
    | nil => exact fun acc hacc => hacc
    | cons id ids ih => exact fun acc hacc => ih _ (hacc.removePeerFromRoom _ id)
  exact hfold (mgr, []) h

/-- **One call.** -/
theorem AllRefine.call (h : AllRefine mgr) (now : Nat) (call : RoomCall) : AllRefine (roomCall mgr now call).1 := by
  cases call with
  | create id roomName roomType creatorId invitePolicy => exact h.create id roomName roomType creatorId invitePolicy
  | allow roomId peerId => exact h.allow roomId peerId
  | gc idleSecs => exact h.gc idleSecs
  | join peerId device roomId => exact h.join peerId device roomId
  | leave peerId device roomId => exact h.leave peerId device roomId
  | subscribe peerId device roomId => exact h.subscribe peerId device roomId
  | unsubscribe peerId device roomId => exact h.unsubscribe peerId device roomId
  | removeEndpoint peerId device => exact h.removeEndpoint peerId device
  | removePeer peerId => exact h.removePeer peerId

/-- **A run of calls.** -/
theorem AllRefine.calls (h : AllRefine mgr) (calls : List (Nat × RoomCall)) : AllRefine (roomCalls mgr calls) := by
  induction calls generalizing mgr with
  | nil => exact h
  | cons call calls ih => exact ih (h.call call.1 call.2)

/-- Putting a room back changes nothing. -/
theorem lookup_insert_self {id : String} {room : SFURoom S} (hlook : mgr.rooms.lookup id = some room) (id' : String) :
    (mgr.rooms.insert id room).lookup id' = mgr.rooms.lookup id' := by
  by_cases hid : id' = id
  · subst hid
    rw [AList.lookup_insert, hlook]
  · rw [AList.lookup_insert_ne hid]

/-- A call that fails leaves every room as it was. -/
theorem lookup_of_failed {call : RoomCall} (h : (roomCall mgr now call).2 = false) (id : String) :
    (roomCall mgr now call).1.rooms.lookup id = mgr.rooms.lookup id := by
  cases call with
  | allow roomId peerId =>
    simp only [roomCall, SFURoomManager.allowPeer] at h ⊢
    split at h
    · rfl
    · cases h
  | join peerId device roomId =>
    simp only [roomCall, SFURoomManager.joinRoomEndpoint] at h ⊢
    split at h
    · rfl
    · rename_i room hlook
      split_ifs at h ⊢
      · rfl
      · rw [SFURoom.setDeviceMembership_fails _ _ _ _ _ h]
        exact lookup_insert_self hlook id
  | subscribe peerId device roomId =>
    simp only [roomCall, SFURoomManager.subscribeEndpoint] at h ⊢
    split at h
    · rfl
    · rename_i room hlook
      split_ifs at h ⊢
      · rw [SFURoom.setDeviceMembership_fails _ _ _ _ _ h]
        exact lookup_insert_self hlook id
      · rfl
  | create | gc | leave | unsubscribe | removeEndpoint | removePeer => cases h

/-- **Membership.** In every room after every run of calls, the sets are those of the devices; a call that fails changes no
room. -/
theorem membership_of_calls (calls : List (Nat × RoomCall)) :
    (∀ id room, (roomCalls (SFURoomManager.new : SFURoomManager S) calls).rooms.lookup id = some room → Membership id room) ∧
      ∀ now call, (roomCall (roomCalls (SFURoomManager.new : SFURoomManager S) calls) now call).2 = false →
        ∀ id, (roomCall (roomCalls (SFURoomManager.new : SFURoomManager S) calls) now call).1.rooms.lookup id =
          (roomCalls (SFURoomManager.new : SFURoomManager S) calls).rooms.lookup id :=
  ⟨fun id room hlook => membership_of_refines (allRefine_new.calls calls id room hlook),
    fun _ _ h id => lookup_of_failed h id⟩

namespace RoomMembershipAux

/-- Somebody enters the lobby and leaves it. -/
def visit : List (Nat × RoomCall) := [(1, .join "a" none defaultRoomId), (2, .leave "a" none defaultRoomId)]

/-- An identity subscribes without a device id and with eight of them. -/
def crowd : List (Nat × RoomCall) :=
  (1, .subscribe "a" none defaultRoomId) :: ([1, 2, 3, 4, 5, 6, 7, 8] : List UInt8).map fun i =>
    (1, .subscribe "a" (some ⟨List.replicate 32 i, length_equalBytes i⟩) defaultRoomId)

theorem visit_emptySince :
    ((roomCalls (SFURoomManager.new : SFURoomManager Unit) visit).rooms.lookup defaultRoomId).map (fun room => room.emptySince) =
      some (some 2) := by
  rfl

theorem crowd_entries :
    ((roomCalls (SFURoomManager.new : SFURoomManager Unit) crowd).rooms.lookup defaultRoomId).map
      (fun room => room.deviceMembers.keys.countP fun key => key.1 = "a") = some 9 := by
  rfl

end RoomMembershipAux

open RoomMembershipAux in
/-- The lobby has a time since which it is empty, and an identity can have a ninth entry, one without a device id. -/
theorem membership_fails_lobby :
    (¬∀ calls id room, (roomCalls (SFURoomManager.new : SFURoomManager Unit) calls).rooms.lookup id = some room →
      (room.emptySince.isSome = true ↔ id ≠ defaultRoomId ∧ room.isUnused = true)) ∧
    ¬∀ calls id room, (roomCalls (SFURoomManager.new : SFURoomManager Unit) calls).rooms.lookup id = some room →
      ∀ p, (room.deviceMembers.keys.countP fun key => key.1 = p) ≤ maxLiveDeviceRoutes := by
  constructor
  · intro h
    obtain ⟨room, hlook, hsince⟩ := Option.map_eq_some_iff.mp visit_emptySince
    exact ((h visit defaultRoomId room hlook).mp (by rw [hsince]; rfl)).1 rfl
  · intro h
    obtain ⟨room, hlook, hcount⟩ := Option.map_eq_some_iff.mp crowd_entries
    have hle := h crowd defaultRoomId room hlook "a"
    rw [hcount] at hle
    exact absurd hle (by decide)

end DoubleSlash.Sfu
