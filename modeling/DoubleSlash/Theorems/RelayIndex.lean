import DoubleSlash.Lemmas.Relay
import DoubleSlash.Lib.Run

/-!
# The room index of the relay

`rooms` is kept by identity while placements are kept by device. A connected endpoint is found through the members of its room, and
a placement that waits for its device survives what its siblings do, as long as no endpoint goes while a sibling that is not
connected yet needs what goes with it: the membership in the room, or, with the last connected endpoint, everything.
-/

namespace DoubleSlash.Relay

open Assoc Text Tls Run

/-- Every placed endpoint has its identity among its room's members, so that a broadcast in the room comes to it. -/
def Covers (st : RelayState) : Prop :=
  ∀ p device peer room, st.peers.getEndpoint p device = some peer → peer.roomId = some room →
    trimEndMatches '=' p ∈ SetMap.members st.rooms room ∧
      ((trimEndMatches '=' p, device), peer) ∈ st.endpointsOf (SetMap.members st.rooms room)

/-- The endpoint has a room and is not connected. -/
def Awaits (st : RelayState) (p : String) (device : Option DeviceId) (room : String) : Prop :=
  st.roomAssignments.getEndpoint p device = some room ∧ st.peers.getEndpoint p device = none

/-- The event is a leave of the endpoint itself. -/
def IsOwnLeave (event : Event) (p : String) (device : Option DeviceId) : Prop :=
  ∃ q, event = .leaveRoomEndpoint q device ∧ identityKey (trimEndMatches '=' q) = identityKey p

/-- The event is a leave or an end of a connection. -/
def Departs (event : Event) : Prop :=
  (∃ q device, event = .leaveRoomEndpoint q device) ∨ (∃ connection, event = .disconnect connection) ∨ event = .cleanup

/-- What departs takes no placement of another endpoint along. -/
def KeepsAwaited (relay : Server) (event : Event) (relay' : Server) : Prop :=
  Departs event → ∀ p device room, Awaits relay.state p device room → ¬IsOwnLeave event p device →
    relay'.state.roomAssignments.getEndpoint p device = some room

/-! ## The condition -/

/-- No sibling that is not connected yet has the room that is left, unless a connected sibling keeps the identity there. -/
def LeavesFreely (st : RelayState) (p : String) (device : Option DeviceId) (room : Option String) : Prop :=
  ∀ sibling room', sibling ≠ device → Awaits st p sibling room' → room = some room' → st.StaysIn p device room'

/-- The endpoint leaves its room freely, and it is not the last connected one while a sibling has a room to come to. -/
def RemovedFreely (st : RelayState) (p : String) (device : Option DeviceId) : Prop :=
  (st.peers.getEndpoint p device).isSome = true → LeavesFreely st p device (st.placedIn p device) ∧
    ((∃ sibling room, sibling ≠ device ∧ Awaits st p sibling room) → st.StaysConnected p device)

/-- Each endpoint of the list is removed freely when its turn comes. -/
def AllRemovedFreely : RelayState → List (String × Option DeviceId) → Prop
  | _, [] => True
  | st, e :: rest => RemovedFreely st e.1 e.2 ∧ AllRemovedFreely (st.removeEndpoint e.1 e.2) rest

/-- The endpoints whose connection has a close reason. -/
def stalePeers (st : RelayState) (closed : Finset Nat) : List (String × Option DeviceId) :=
  (st.peers.slots.entries.filter fun e => decide (e.2.connection ∈ closed)).map fun e => (trimEndMatches '=' e.1.1, e.1.2)

/-- No endpoint goes at the cost of a sibling that is not connected yet. -/
def Considerate (relay : Server) (event : Event) : Prop :=
  match event with
  | .leaveRoomEndpoint q device =>
    LeavesFreely relay.state (trimEndMatches '=' q) device (relay.state.roomToLeave (trimEndMatches '=' q) device)
  | .joinRoomEndpoint q device room =>
    (relay.state.roomAssignments.register (trimEndMatches '=' q) device room).isSome = true →
      relay.state.placedIn (trimEndMatches '=' q) device ≠ some room →
        LeavesFreely relay.state (trimEndMatches '=' q) device (relay.state.placedIn (trimEndMatches '=' q) device)
  | .disconnect connection => ∀ task, relay.tasks.lookup connection = some task →
    (relay.state.peers.getEndpoint task.peerId task.device).any (fun peer => peer.connection == connection) = true →
      RemovedFreely relay.state task.peerId task.device
  | .cleanup => AllRemovedFreely relay.state (stalePeers relay.state relay.closed)
  | _ => True

namespace RelayIndexAux

open RelayState

/-- What holds for one identity: its endpoints are covered, and so are those that wait. -/
structure IndexedAt (st : RelayState) (key : String) : Prop where
  keyed : ∀ device, ((st.peers.slots.lookup (key, device)).isSome = true ∨
    (st.roomAssignments.slots.lookup (key, device)).isSome = true) → identityKey (trimEndMatches '=' key) = key
  covered : ∀ device peer room, st.peers.slots.lookup (key, device) = some peer → peer.roomId = some room →
    trimEndMatches '=' key ∈ SetMap.members st.rooms room
  awaited : ∀ device room, st.roomAssignments.slots.lookup (key, device) = some room →
    st.peers.slots.lookup (key, device) = none → trimEndMatches '=' key ∈ SetMap.members st.rooms room
  placed : ∀ device peer, st.peers.slots.lookup (key, device) = some peer → peer.roomId = none →
    st.roomAssignments.slots.lookup (key, device) = none
  index : ∀ device peer, st.peers.slots.lookup (key, device) = some peer → InRange peer.peerIndex

/-- What holds along the runs. -/
structure Indexed (st : RelayState) : Prop where
  identities : ∀ key, IndexedAt st key
  nextIndex : InRange st.nextIndex

variable {st st' : RelayState} {p : String} {device : Option DeviceId}

/-- An operation on another identity leaves this one as it is. -/
theorem IndexedAt.frame {key : String} (h : IndexedAt st key) (hframe : Frame p st st') (hkey : key ≠ identityKey p) :
    IndexedAt st' key := by
  have hpeers : ∀ device, st'.peers.slots.lookup (key, device) = st.peers.slots.lookup (key, device) :=
    fun device => hframe.peers (key, device) hkey
  have hassign : ∀ device, st'.roomAssignments.slots.lookup (key, device) = st.roomAssignments.slots.lookup (key, device) :=
    fun device => hframe.assignments (key, device) hkey
  have hother : identityKey (trimEndMatches '=' key) = key → trimEndMatches '=' key ≠ p := by
    intro hkeyed heq
    rw [heq] at hkeyed
    exact hkey hkeyed.symm
  constructor
  · intro device
    rw [hpeers, hassign]
    exact h.keyed device
  · intro device peer room hpeer hroom
    rw [hpeers] at hpeer
    have hkeyed := h.keyed device (Or.inl (by rw [hpeer]; rfl))
    exact (hframe.members _ room (hother hkeyed)).mpr (h.covered device peer room hpeer hroom)
  · intro device room hroom hpeer
    rw [hassign] at hroom
    rw [hpeers] at hpeer
    have hkeyed := h.keyed device (Or.inr (by rw [hroom]; rfl))
    exact (hframe.members _ room (hother hkeyed)).mpr (h.awaited device room hroom hpeer)
  · intro device peer hpeer hroom
    rw [hpeers] at hpeer
    rw [hassign]
    exact h.placed device peer hpeer hroom
  · intro device peer hpeer
    rw [hpeers] at hpeer
    exact h.index device peer hpeer

/-- An operation on one identity keeps the index when it does so for that identity. -/
theorem Indexed.own (h : Indexed st) (hp : trimEndMatches '=' p = p) (hframe : Frame p st st') (hnext : InRange st'.nextIndex)
    (hpeers : ∀ device peer, st'.peers.slots.lookup (identityKey p, device) = some peer →
      InRange peer.peerIndex ∧ (∀ room, peer.roomId = some room → p ∈ SetMap.members st'.rooms room) ∧
        (peer.roomId = none → st'.roomAssignments.slots.lookup (identityKey p, device) = none))
    (hawaited : ∀ device room, st'.roomAssignments.slots.lookup (identityKey p, device) = some room →
      st'.peers.slots.lookup (identityKey p, device) = none → p ∈ SetMap.members st'.rooms room) : Indexed st' where
  identities key := by
    by_cases hkey : key = identityKey p
    · subst hkey
      constructor
      · intro device _
        rw [trimEndMatches_identityKey, hp]
      · intro device peer room hpeer hroom
        rw [trimEndMatches_identityKey, hp]
        exact (hpeers device peer hpeer).2.1 room hroom
      · intro device room hroom hpeer
        rw [trimEndMatches_identityKey, hp]
        exact hawaited device room hroom hpeer
      · exact fun device peer hpeer => (hpeers device peer hpeer).2.2
      · exact fun device peer hpeer => (hpeers device peer hpeer).1
    · exact (h.identities key).frame hframe hkey
  nextIndex := hnext

theorem Indexed.covered (h : Indexed st) (hp : trimEndMatches '=' p = p) {peer : RelayPeer} {room : String}
    (hpeer : st.peers.slots.lookup (identityKey p, device) = some peer) (hroom : peer.roomId = some room) :
    p ∈ SetMap.members st.rooms room := by
  have := (h.identities (identityKey p)).covered device peer room hpeer hroom
  rwa [trimEndMatches_identityKey, hp] at this

theorem Indexed.awaited (h : Indexed st) (hp : trimEndMatches '=' p = p) {room : String}
    (hroom : st.roomAssignments.slots.lookup (identityKey p, device) = some room)
    (hpeer : st.peers.slots.lookup (identityKey p, device) = none) : p ∈ SetMap.members st.rooms room := by
  have := (h.identities (identityKey p)).awaited device room hroom hpeer
  rwa [trimEndMatches_identityKey, hp] at this

/-- Placements are all that matters. -/
theorem Indexed.congr (h : Indexed st) (hpeers : st'.peers = st.peers) (hassign : st'.roomAssignments = st.roomAssignments)
    (hrooms : st'.rooms = st.rooms) (hnext : InRange st'.nextIndex) : Indexed st' where
  identities key := by
    constructor
    · rw [hpeers, hassign]
      exact (h.identities key).keyed
    · rw [hpeers, hrooms]
      exact (h.identities key).covered
    · rw [hpeers, hassign, hrooms]
      exact (h.identities key).awaited
    · rw [hpeers, hassign]
      exact (h.identities key).placed
    · rw [hpeers]
      exact (h.identities key).index
  nextIndex := hnext

/-- The slot of a sibling is not the endpoint's own. -/
theorem slot_ne {sibling : Option DeviceId} (h : sibling ≠ device) : ((identityKey p, sibling) : String × Option DeviceId) ≠
    (identityKey p, device) := fun heq => h (congrArg Prod.snd heq)

theorem Indexed.leave (h : Indexed st) (hp : trimEndMatches '=' p = p) (hleft : st.Left p device st')
    (hfree : LeavesFreely st p device (st.roomToLeave p device)) : Indexed st' := by
  apply h.own hp hleft.frame (by rw [hleft.nextIndex]; exact h.nextIndex)
  · intro sibling peer hpeer
    rw [hleft.peers] at hpeer
    by_cases hown : sibling = device
    · rw [if_pos (by rw [hown])] at hpeer
      obtain ⟨peer', hpeer', rfl⟩ := Option.map_eq_some_iff.mp hpeer
      refine ⟨(h.identities _).index sibling peer' hpeer', (fun room hroom => by cases hroom), fun _ => ?_⟩
      rw [hleft.assignments, if_pos (by rw [hown])]
    · rw [if_neg (slot_ne hown)] at hpeer
      refine ⟨(h.identities _).index sibling peer hpeer, fun room hroom => ?_, fun hnone => ?_⟩
      · rw [hleft.members]
        exact ⟨h.covered hp hpeer hroom, fun _ _ => ⟨sibling, hown, peer, hpeer, hroom⟩⟩
      · rw [hleft.assignments, if_neg (slot_ne hown)]
        exact (h.identities _).placed sibling peer hpeer hnone
  · intro sibling room hroom hpeer
    rw [hleft.assignments] at hroom
    rw [hleft.peers] at hpeer
    by_cases hown : sibling = device
    · rw [if_pos (by rw [hown])] at hroom
      cases hroom
    · rw [if_neg (slot_ne hown)] at hroom hpeer
      rw [hleft.members]
      exact ⟨h.awaited hp hroom hpeer, fun _ hleaves => hfree sibling room hown ⟨hroom, hpeer⟩ hleaves⟩

theorem Indexed.join (h : Indexed st) (hp : trimEndMatches '=' p = p) {room : String} (hjoined : st.Joined p device room st')
    (hfree : st.placedIn p device ≠ some room → LeavesFreely st p device (st.placedIn p device)) : Indexed st' := by
  apply h.own hp hjoined.frame (by rw [hjoined.nextIndex]; exact h.nextIndex)
  · intro sibling peer hpeer
    rw [hjoined.peers] at hpeer
    by_cases hown : sibling = device
    · rw [if_pos (by rw [hown])] at hpeer
      obtain ⟨peer', hpeer', rfl⟩ := Option.map_eq_some_iff.mp hpeer
      refine ⟨(h.identities _).index sibling peer' hpeer', fun room' hroom => ?_, fun hnone => by cases hnone⟩
      rw [hjoined.members]
      exact Or.inl ⟨rfl, (Option.some.inj hroom).symm⟩
    · rw [if_neg (slot_ne hown)] at hpeer
      refine ⟨(h.identities _).index sibling peer hpeer, fun room' hroom => ?_, fun hnone => ?_⟩
      · rw [hjoined.members]
        exact Or.inr ⟨h.covered hp hpeer hroom, fun _ _ => ⟨sibling, hown, peer, hpeer, hroom⟩⟩
      · rw [hjoined.assignments, if_neg (slot_ne hown)]
        exact (h.identities _).placed sibling peer hpeer hnone
  · intro sibling room' hroom hpeer
    rw [hjoined.assignments] at hroom
    rw [hjoined.peers] at hpeer
    rw [hjoined.members]
    by_cases hown : sibling = device
    · rw [if_pos (by rw [hown])] at hroom
      exact Or.inl ⟨rfl, (Option.some.inj hroom).symm⟩
    · rw [if_neg (slot_ne hown)] at hroom hpeer
      by_cases hsame : room' = room
      · exact Or.inl ⟨rfl, hsame⟩
      · refine Or.inr ⟨h.awaited hp hroom hpeer, fun _ hleaves => ?_⟩
        have hmoves : st.placedIn p device ≠ some room := by
          rw [hleaves]
          exact fun heq => hsame (Option.some.inj heq)
        exact hfree hmoves sibling room' hown ⟨hroom, hpeer⟩ hleaves

theorem Indexed.remove (h : Indexed st) (hp : trimEndMatches '=' p = p) (hfree : RemovedFreely st p device) :
    Indexed (st.removeEndpoint p device) := by
  apply h.own hp (frame_removeEndpoint st p device) (by rw [removeEndpoint_nextIndex]; exact h.nextIndex)
  · intro sibling peer hpeer
    rw [lookup_removeEndpoint_peers] at hpeer
    split at hpeer
    · cases hpeer
    · rename_i hslot
      have hown : sibling ≠ device := fun heq => hslot (by rw [heq])
      refine ⟨(h.identities _).index sibling peer hpeer, fun room hroom => ?_, fun hnone => ?_⟩
      · rw [mem_members_removeEndpoint]
        refine ⟨h.covered hp hpeer hroom, fun _ _ _ => ⟨⟨sibling, hown, peer, hpeer⟩, fun _ => ?_⟩⟩
        exact ⟨sibling, hown, peer, hpeer, hroom⟩
      · rw [Option.eq_none_iff_forall_ne_some]
        intro room hroom
        have hassigned := ((lookup_removeEndpoint_assignments st p device _ _).mp hroom).1
        rw [(h.identities _).placed sibling peer hpeer hnone] at hassigned
        cases hassigned
  · intro sibling room hroom hpeer
    obtain ⟨hroom, hslot, -⟩ := (lookup_removeEndpoint_assignments st p device _ _).mp hroom
    have hown : sibling ≠ device := fun heq => hslot (by rw [heq])
    rw [lookup_removeEndpoint_peers, if_neg hslot] at hpeer
    rw [mem_members_removeEndpoint]
    refine ⟨h.awaited hp hroom hpeer, fun _ gone hgone => ?_⟩
    obtain ⟨hleaves, hlast⟩ := hfree (by rw [DeviceRoutes.getEndpoint, hgone]; rfl)
    refine ⟨hlast ⟨sibling, room, hown, hroom, hpeer⟩, fun hgoneroom => ?_⟩
    have hplaced : st.placedIn p device = some room := by
      rw [placedIn, hgone]
      exact hgoneroom
    exact hleaves sibling room hown ⟨hroom, hpeer⟩ hplaced

theorem Indexed.removePeer (h : Indexed st) (hp : trimEndMatches '=' p = p) : Indexed (st.removePeer p) := by
  apply h.own hp (frame_removePeer st p) (by rw [removePeer_nextIndex]; exact h.nextIndex)
  · intro device peer hpeer
    rw [(removePeer_none st p device).1] at hpeer
    cases hpeer
  · intro device room hroom _
    rw [(removePeer_none st p device).2] at hroom
    cases hroom

/-- The room a registration starts in has the identity among its members, or is the one its connection had. -/
theorem existing_mem (h : Indexed st) (hp : trimEndMatches '=' p = p) {room : String}
    (hroom : (st.softReplace p device).existingRoom p device (st.placedIn p device) = some room) :
    p ∈ SetMap.members st.rooms room ∨ (p = p ∧ st.placedIn p device = some room) := by
  obtain ⟨prior, hprior, heq⟩ | ⟨hprior, assigned, hassign, heq⟩ | ⟨hprior, -, heq⟩ := existingRoom_cases st p device
  · rw [heq] at hroom
    rw [← hroom]
    exact Or.inr ⟨rfl, hprior⟩
  · rw [heq] at hroom
    rw [← Option.some.inj hroom]
    cases hpeer : st.peers.slots.lookup (identityKey p, device) with
    | none => exact Or.inl (h.awaited hp hassign hpeer)
    | some peer =>
      have hnone : peer.roomId = none := by
        rw [placedIn, hpeer] at hprior
        exact hprior
      rw [(h.identities _).placed device peer hpeer hnone] at hassign
      cases hassign
  · rw [heq] at hroom
    split at hroom
    · obtain ⟨e, he, rfl⟩ := Option.map_eq_some_iff.mp hroom
      exact (mem_members_softReplace st p device p e.1).mp (SetMap.mem_of_find he)
    · cases hroom

theorem existing_none (hnone : (st.softReplace p device).existingRoom p device (st.placedIn p device) = none) :
    st.roomAssignments.slots.lookup (identityKey p, device) = none := by
  obtain ⟨prior, hprior, heq⟩ | ⟨hprior, assigned, hassign, heq⟩ | ⟨-, hassign, -⟩ := existingRoom_cases st p device
  · rw [heq] at hnone
    cases hnone
  · rw [heq] at hnone
    cases hnone
  · exact hassign

theorem Indexed.register (h : Indexed st) (hp : trimEndMatches '=' p = p) (connection : Nat) :
    Indexed (st.registerConnection p device connection).2 := by
  have hindex : ∀ old, st.peers.slots.lookup (identityKey p, device) = some old → InRange old.peerIndex :=
    fun old hold => (h.identities _).index device old hold
  generalize hst' : (st.registerConnection p device connection).2 = st'
  obtain hsame | hnew := hst' ▸ registerConnection_cases st p device connection h.nextIndex hindex
  · exact h.congr hsame.peers hsame.assignments hsame.rooms hsame.nextIndex
  · obtain ⟨index, hrange, hpeers⟩ := hnew.peers
    have hmembers : ∀ q room, q ∈ SetMap.members st'.rooms room ↔
        q ∈ SetMap.members st.rooms room ∨ (q = p ∧ st.placedIn p device = some room) := by
      intro q room
      rw [hnew.rooms]
      exact mem_members_softReplace st p device q room
    have hframe : Frame p st st' := by
      constructor
      · intro slot hslot
        rw [hpeers, if_neg fun heq => hslot (congrArg Prod.fst heq)]
      · intro slot _
        rw [hnew.assignments]
      · intro q room hq
        rw [hmembers]
        exact ⟨fun h => h.resolve_right fun h => hq h.1, Or.inl⟩
    apply h.own hp hframe hnew.nextIndex
    · intro sibling peer hpeer
      rw [hpeers] at hpeer
      by_cases hown : sibling = device
      · rw [if_pos (by rw [hown])] at hpeer
        cases hpeer
        refine ⟨hrange, fun room hroom => ?_, fun hnone => ?_⟩
        · exact (hmembers p room).mpr (existing_mem h hp hroom)
        · rw [hnew.assignments, hown]
          exact existing_none hnone
      · rw [if_neg (slot_ne hown)] at hpeer
        refine ⟨(h.identities _).index sibling peer hpeer, fun room hroom => ?_, fun hnone => ?_⟩
        · exact (hmembers p room).mpr (Or.inl (h.covered hp hpeer hroom))
        · rw [hnew.assignments]
          exact (h.identities _).placed sibling peer hpeer hnone
    · intro sibling room hroom hpeer
      rw [hnew.assignments] at hroom
      rw [hpeers] at hpeer
      split at hpeer
      · cases hpeer
      · exact (hmembers p room).mpr (Or.inl (h.awaited hp hroom hpeer))

theorem Indexed.write (h : Indexed st) (hp : trimEndMatches '=' p = p) (write : Write) :
    Indexed (st.applyWrite (p, device) write) := by
  cases write with
  | heal room =>
    have hmembers : ∀ q room', q ∈ SetMap.members (st.applyWrite (p, device) (.heal room)).rooms room' ↔
        q ∈ SetMap.members st.rooms room' ∨ (q = p ∧ room' = room) := by
      intro q room'
      simp only [applyWrite, SetMap.members_add]
      by_cases hroom : room' = room
      · subst hroom
        rw [if_pos rfl, Finset.mem_insert]
        exact ⟨fun h => h.elim (fun h => Or.inr ⟨h, rfl⟩) Or.inl, fun h => h.elim Or.inr fun h => Or.inl h.1⟩
      · rw [if_neg hroom]
        exact ⟨Or.inl, fun h => h.resolve_right fun h => hroom h.2⟩
    have hpeers : ∀ slot, (st.applyWrite (p, device) (.heal room)).peers.slots.lookup slot =
        if slot = (identityKey p, device) then (st.peers.slots.lookup slot).map fun peer => { peer with roomId := some room }
        else st.peers.slots.lookup slot := fun slot => DeviceRoutes.lookup_modifyEndpoint _ _ _ _ slot
    have hframe : Frame p st (st.applyWrite (p, device) (.heal room)) := by
      constructor
      · intro slot hslot
        rw [hpeers, if_neg fun heq => hslot (congrArg Prod.fst heq)]
      · exact fun _ _ => rfl
      · intro q room' hq
        rw [hmembers]
        exact ⟨fun h => h.resolve_right fun h => hq h.1, Or.inl⟩
    apply h.own hp hframe h.nextIndex
    · intro sibling peer hpeer
      rw [hpeers] at hpeer
      split at hpeer
      · obtain ⟨peer', hpeer', rfl⟩ := Option.map_eq_some_iff.mp hpeer
        refine ⟨(h.identities _).index sibling peer' hpeer', fun room' hroom => ?_, fun hnone => by cases hnone⟩
        exact (hmembers p room').mpr (Or.inr ⟨rfl, (Option.some.inj hroom).symm⟩)
      · refine ⟨(h.identities _).index sibling peer hpeer, fun room' hroom => ?_, fun hnone => ?_⟩
        · exact (hmembers p room').mpr (Or.inl (h.covered hp hpeer hroom))
        · exact (h.identities _).placed sibling peer hpeer hnone
    · intro sibling room' hroom hpeer
      rw [hpeers] at hpeer
      refine (hmembers p room').mpr (Or.inl (h.awaited hp hroom ?_))
      split at hpeer
      · exact Option.map_eq_none_iff.mp hpeer
      · exact hpeer
  | count relayed =>
    have hpeers : ∀ slot, (st.applyWrite (p, device) (.count relayed)).peers.slots.lookup slot =
        if slot = (identityKey p, device)
        then (st.peers.slots.lookup slot).map fun peer => { peer with bytesRelayed := peer.bytesRelayed + relayed }
        else st.peers.slots.lookup slot := fun slot => DeviceRoutes.lookup_modifyEndpoint _ _ _ _ slot
    have hframe : Frame p st (st.applyWrite (p, device) (.count relayed)) := by
      constructor
      · intro slot hslot
        rw [hpeers, if_neg fun heq => hslot (congrArg Prod.fst heq)]
      · exact fun _ _ => rfl
      · exact fun _ _ _ => Iff.rfl
    apply h.own hp hframe h.nextIndex
    · intro sibling peer hpeer
      rw [hpeers] at hpeer
      split at hpeer
      · obtain ⟨peer', hpeer', rfl⟩ := Option.map_eq_some_iff.mp hpeer
        exact ⟨(h.identities _).index sibling peer' hpeer', fun room hroom => h.covered hp hpeer' hroom,
          fun hnone => (h.identities _).placed sibling peer' hpeer' hnone⟩
      · exact ⟨(h.identities _).index sibling peer hpeer, fun room hroom => h.covered hp hpeer hroom,
          fun hnone => (h.identities _).placed sibling peer hpeer hnone⟩
    · intro sibling room hroom hpeer
      rw [hpeers] at hpeer
      refine h.awaited hp hroom ?_
      split at hpeer
      · exact Option.map_eq_none_iff.mp hpeer
      · exact hpeer

theorem Indexed.removeAll (h : Indexed st) (stale : List (String × Option DeviceId))
    (htrim : ∀ e ∈ stale, trimEndMatches '=' e.1 = e.1) (hfree : AllRemovedFreely st stale) :
    Indexed (stale.foldl (fun st e => st.removeEndpoint e.1 e.2) st) := by
  induction stale generalizing st with
  | nil => exact h
  | cons e rest ih =>
    have htrim' : ∀ e' ∈ rest, trimEndMatches '=' e'.1 = e'.1 := fun e' he' => htrim e' (List.mem_cons_of_mem _ he')
    exact ih (h.remove (htrim e List.mem_cons_self) hfree.1) htrim' hfree.2

theorem indexed_new (ready : Bool) : Indexed (RelayState.new ready) := by
  have hpeers : ∀ slot, (RelayState.new ready).peers.slots.lookup slot = none := fun slot => AList.lookup_empty slot
  have hassign : ∀ slot, (RelayState.new ready).roomAssignments.slots.lookup slot = none := fun slot => AList.lookup_empty slot
  have hone : InRange 1 := ⟨by decide, by decide⟩
  refine ⟨fun key => ⟨?_, ?_, ?_, ?_, ?_⟩, hone⟩
  · intro device h
    rw [hpeers, hassign] at h
    simp at h
  · intro device peer room h
    rw [hpeers] at h
    cases h
  · intro device room h
    rw [hassign] at h
    cases h
  · intro device peer h
    rw [hpeers] at h
    cases h
  · intro device peer h
    rw [hpeers] at h
    cases h

theorem trim_stale {e : String × Option DeviceId} {closed : Finset Nat} (he : e ∈ stalePeers st closed) :
    trimEndMatches '=' e.1 = e.1 := by
  obtain ⟨slot, -, rfl⟩ := List.mem_map.mp he
  exact trimEndMatches_idem '=' slot.1.1

variable {C : Crates} {relay relay' : Server} {event : Event}

/-- Each step that meets the condition keeps the index. -/
theorem Indexed.step (h : Indexed relay.state) (htrimmed : Trimmed relay) (hc : Considerate relay event)
    (hstep : StateStep relay event st') : Indexed st' := by
  have htrim : ∀ q, trimEndMatches '=' (trimEndMatches '=' q) = trimEndMatches '=' q := trimEndMatches_idem '='
  cases hstep with
  | quiet hpeers hassign hrooms hnext _ _ _ => exact h.congr hpeers hassign hrooms (hnext ▸ h.nextIndex)
  | revoke q =>
    have hallowed : Indexed { relay.state with allowed := relay.state.allowed.erase (trimEndMatches '=' q) } :=
      h.congr rfl rfl rfl h.nextIndex
    exact hallowed.removePeer (htrim q)
  | join q device room =>
    obtain ⟨-, hsame⟩ | ⟨hreg, hjoined⟩ := joinRoomEndpoint_cases relay.state q device room
    · rw [hsame]
      exact h
    · exact h.join (htrim q) hjoined (hc hreg)
  | leave q device => exact h.leave (htrim q) (leaveRoomEndpoint_spec relay.state q device) hc
  | register welcomed htask => exact h.register (htrimmed.peerId htask) _
  | write htask => exact h.write (htrimmed.peerId htask) _
  | disconnect htask hregistered => exact h.remove (htrimmed.peerId htask) (hc _ htask hregistered)
  | cleanup => exact h.removeAll _ (fun e he => trim_stale he) hc

/-- What the index says of the tables. -/
theorem Indexed.covers (h : Indexed st) : Covers st := by
  intro p device peer room hpeer hroom
  have hat := h.identities (identityKey p)
  have hmem := hat.covered device peer room hpeer hroom
  have hkeyed := hat.keyed device (Or.inl (by rw [show st.peers.slots.lookup (identityKey p, device) = some peer from hpeer]; rfl))
  rw [trimEndMatches_identityKey] at hmem hkeyed
  refine ⟨hmem, List.mem_flatMap.mpr ⟨trimEndMatches '=' p, SetMap.mem_inOrder.mpr hmem, ?_⟩⟩
  refine List.mem_map.mpr ⟨(device, peer), DeviceRoutes.mem_endpoints.mpr ?_, rfl⟩
  rw [hkeyed]
  exact hpeer

/-- Removing an endpoint freely leaves the others waiting where they wait. -/
theorem awaits_removeEndpoint {q room : String} {waiting : Option DeviceId} (h : Awaits st p waiting room)
    (hne : (identityKey p, waiting) ≠ (identityKey q, device)) (hfree : RemovedFreely st q device) :
    Awaits (st.removeEndpoint q device) p waiting room := by
  obtain ⟨hroom, hpeer⟩ := h
  constructor
  · refine (lookup_removeEndpoint_assignments st q device _ _).mpr ⟨hroom, hne, fun hkey hgone => ?_⟩
    have hsibling : waiting ≠ device := fun heq => hne (Prod.ext hkey heq)
    have hawaits : Awaits st q waiting room := by
      unfold Awaits DeviceRoutes.getEndpoint at *
      rw [← show identityKey p = identityKey q from hkey]
      exact ⟨hroom, hpeer⟩
    exact (hfree hgone).2 ⟨waiting, room, hsibling, hawaits⟩
  · rw [DeviceRoutes.getEndpoint, lookup_removeEndpoint_peers, if_neg hne]
    exact hpeer

theorem awaits_removeAll {room : String} {waiting : Option DeviceId} (stale : List (String × Option DeviceId))
    (h : Awaits st p waiting room) (hne : ∀ e ∈ stale, (identityKey p, waiting) ≠ (identityKey e.1, e.2))
    (hfree : AllRemovedFreely st stale) : Awaits (stale.foldl (fun st e => st.removeEndpoint e.1 e.2) st) p waiting room := by
  induction stale generalizing st with
  | nil => exact h
  | cons e rest ih =>
    have hnext := awaits_removeEndpoint h (hne e List.mem_cons_self) hfree.1
    exact ih hnext (fun e' he' => hne e' (List.mem_cons_of_mem _ he')) hfree.2

/-- A stale endpoint is connected, so that it is none of those that wait. -/
theorem stale_ne {room : String} {waiting : Option DeviceId} (h : Indexed st) (haw : Awaits st p waiting room)
    {closed : Finset Nat} {e : String × Option DeviceId} (he : e ∈ stalePeers st closed) :
    (identityKey p, waiting) ≠ (identityKey e.1, e.2) := by
  obtain ⟨slot, hslot, rfl⟩ := List.mem_map.mp he
  have hlookup : st.peers.slots.lookup (slot.1.1, slot.1.2) = some slot.2 :=
    AList.mem_lookup_iff.mpr (List.mem_filter.mp hslot).1
  have hkeyed := (h.identities slot.1.1).keyed slot.1.2 (Or.inl (by rw [hlookup]; rfl))
  dsimp only
  rw [hkeyed]
  intro heq
  have hnone : st.peers.slots.lookup (identityKey p, waiting) = none := haw.2
  rw [heq, hlookup] at hnone
  cases hnone

theorem Indexed.keeps (h : Indexed relay.state) (hc : Considerate relay event) (hstep : relayStep C relay event = some relay') :
    KeepsAwaited relay event relay' := by
  intro hdeparts p waiting room haw hown
  obtain ⟨q, device, rfl⟩ | ⟨connection, rfl⟩ | rfl := hdeparts
  · cases hstep
    have hne : (identityKey p, waiting) ≠ (identityKey (trimEndMatches '=' q), device) := by
      intro heq
      obtain ⟨hkey, rfl⟩ := Prod.mk.inj heq
      exact hown ⟨q, rfl, hkey.symm⟩
    change (relay.state.leaveRoomEndpoint q device).roomAssignments.getEndpoint p waiting = some room
    rw [DeviceRoutes.getEndpoint, (leaveRoomEndpoint_spec relay.state q device).assignments, if_neg hne]
    exact haw.1
  · simp only [relayStep] at hstep
    split at hstep
    · rename_i q device htask
      cases hstep
      simp only [Server.disconnect]
      split
      · rename_i hregistered
        have hfree := hc _ htask hregistered
        have hne : (identityKey p, waiting) ≠ (identityKey q, device) := by
          intro heq
          have hnone : relay.state.peers.slots.lookup (identityKey p, waiting) = none := haw.2
          rw [heq] at hnone
          rw [DeviceRoutes.getEndpoint, hnone] at hregistered
          cases hregistered
        exact (awaits_removeEndpoint haw hne hfree).1
      · exact haw.1
    · cases hstep
  · cases hstep
    exact (awaits_removeAll _ haw (fun e he => stale_ne h haw he) hc).1

end RelayIndexAux

open RelayIndexAux in
/-- **The room index covers every placed endpoint.** In every run in which no endpoint goes at the cost of a sibling that is not
connected yet, a connected endpoint placed in a room is reached by the room's broadcasts, and no placement that waits for its device
is lost to the departure of another endpoint. -/
theorem rooms_cover_placed (C : Crates) (ready : Bool) (acts : List Event) (relay : Server)
    (hmeets : Meets (relayStep C) Considerate (Server.new ready) acts)
    (hrun : run (relayStep C) (Server.new ready) acts = some relay) :
    Covers relay.state ∧ ∀ event relay', Considerate relay event → relayStep C relay event = some relay' →
      Covers relay'.state ∧ KeepsAwaited relay event relay' := by
  have hinv : Indexed relay.state ∧ Trimmed relay := by
    refine meets_invariant (fun relay => Indexed relay.state ∧ Trimmed relay) ?_ ⟨indexed_new ready, trimmed_new ready⟩ hmeets hrun
    intro relay event relay' h hc hstep
    exact ⟨h.1.step h.2 hc (relayStep_state hstep), h.2.step hstep⟩
  refine ⟨hinv.1.covers, fun event relay' hc hstep => ⟨?_, hinv.1.keeps hc hstep⟩⟩
  exact (hinv.1.step hinv.2 hc (relayStep_state hstep)).covers

/-- A device joins a room before it connects. -/
def deviceJoins : List Event := [.allowPeer samplePeer, .joinRoomEndpoint samplePeer (some (sampleDevice 1)) "lobby"]

/-- A device that connects after its join is covered. -/
theorem rooms_cover_placed_sample :
    ∃ relay, run (relayStep ⟨fun _ => none⟩) (Server.new true) (deviceJoins ++ [.accept 1 (sampleCn 1), .register 1 true]) =
        some relay ∧ relay.state.placedIn samplePeer (some (sampleDevice 1)) = some "lobby" ∧ Covers relay.state := by
  have hplaced : (run (relayStep ⟨fun _ => none⟩) (Server.new true)
      (deviceJoins ++ [.accept 1 (sampleCn 1), .register 1 true])).any (fun relay =>
        decide (relay.state.placedIn samplePeer (some (sampleDevice 1)) = some "lobby")) = true := by
    decide +kernel
  obtain ⟨relay, hrun, hrelay⟩ := (Option.any_eq_true _ _).mp hplaced
  refine ⟨relay, hrun, of_decide_eq_true hrelay, (rooms_cover_placed _ _ _ relay ?_ hrun).1⟩
  refine ⟨trivial, fun relay₁ h₁ => ⟨?_, fun relay₂ _ => ⟨trivial, fun relay₃ _ => ⟨trivial, fun relay₄ _ => trivial⟩⟩⟩⟩
  cases h₁
  -- nothing is connected when the device joins, so that it leaves no room
  intro _ _ sibling room _ _ hleaves
  cases (show none = some room from hleaves)

/-- **Siblings take along what a waiting device needs.** Two devices have joined a room. When one leaves before the other connects,
the other is placed in a room whose members do not have it; when one connects and disconnects first, the other's placement is
lost. -/
theorem rooms_miss_placed :
    (∃ relay, run (relayStep ⟨fun _ => none⟩) (Server.new true)
        (deviceJoins ++ [.joinRoomEndpoint samplePeer (some (sampleDevice 2)) "lobby",
          .leaveRoomEndpoint samplePeer (some (sampleDevice 2)), .accept 1 (sampleCn 1), .register 1 true]) = some relay ∧
        ¬Covers relay.state) ∧
    ∃ relay relay', run (relayStep ⟨fun _ => none⟩) (Server.new true)
        (deviceJoins ++ [.accept 2 (sampleCn 2), .register 2 true]) = some relay ∧
        relayStep ⟨fun _ => none⟩ relay (.disconnect 2) = some relay' ∧ ¬KeepsAwaited relay (.disconnect 2) relay' := by
  constructor
  · have hplaced : (run (relayStep ⟨fun _ => none⟩) (Server.new true)
        (deviceJoins ++ [.joinRoomEndpoint samplePeer (some (sampleDevice 2)) "lobby",
          .leaveRoomEndpoint samplePeer (some (sampleDevice 2)), .accept 1 (sampleCn 1), .register 1 true])).any (fun relay =>
          decide (relay.state.placedIn samplePeer (some (sampleDevice 1)) = some "lobby") &&
            decide (SetMap.members relay.state.rooms "lobby" = ∅)) = true := by
      decide +kernel
    obtain ⟨relay, hrun, hrelay⟩ := (Option.any_eq_true _ _).mp hplaced
    rw [Bool.and_eq_true, decide_eq_true_eq, decide_eq_true_eq] at hrelay
    obtain ⟨hroom, hempty⟩ := hrelay
    refine ⟨relay, hrun, fun hcovers => ?_⟩
    obtain ⟨peer, hpeer, hroom⟩ := Option.bind_eq_some_iff.mp hroom
    have hmem := (hcovers samplePeer (some (sampleDevice 1)) peer "lobby" hpeer hroom).1
    rw [hempty] at hmem
    exact absurd hmem (Finset.notMem_empty _)
  · have hlost : (run (relayStep ⟨fun _ => none⟩) (Server.new true)
        (deviceJoins ++ [.accept 2 (sampleCn 2), .register 2 true])).any (fun relay =>
          (relayStep ⟨fun _ => none⟩ relay (.disconnect 2)).any fun relay' =>
            decide (relay.state.roomAssignments.getEndpoint samplePeer (some (sampleDevice 1)) = some "lobby") &&
              (relay.state.peers.getEndpoint samplePeer (some (sampleDevice 1))).isNone &&
                (relay'.state.roomAssignments.getEndpoint samplePeer (some (sampleDevice 1))).isNone) = true := by
      decide +kernel
    obtain ⟨relay, hrun, hrelay⟩ := (Option.any_eq_true _ _).mp hlost
    obtain ⟨relay', hstep, hrelay'⟩ := (Option.any_eq_true _ _).mp hrelay
    rw [Bool.and_eq_true, Bool.and_eq_true, decide_eq_true_eq, Option.isNone_iff_eq_none, Option.isNone_iff_eq_none] at hrelay'
    obtain ⟨⟨hroom, hwaits⟩, hgone⟩ := hrelay'
    refine ⟨relay, relay', hrun, hstep, fun hkeeps => ?_⟩
    have hkept := hkeeps (Or.inr (Or.inl ⟨2, rfl⟩)) samplePeer (some (sampleDevice 1)) "lobby" ⟨hroom, hwaits⟩
      (fun ⟨_, hevent, _⟩ => by cases hevent)
    rw [hgone] at hkept
    cases hkept

end DoubleSlash.Relay
