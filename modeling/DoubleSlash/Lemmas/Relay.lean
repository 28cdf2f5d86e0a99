import DoubleSlash.Relay.Server

/-!
# What the relay's operations change

Each operation is about one identity. `Frame` says that it leaves the others alone; beside it stands, for each operation, what the
slots of the identity and its room memberships are afterwards.
-/

namespace DoubleSlash.Relay

open Assoc Text Tls

/-- Nothing has changed but the slots and the memberships of one identity. -/
structure Frame (p : String) (st st' : RelayState) : Prop where
  peers : ∀ slot, slot.1 ≠ identityKey p → st'.peers.slots.lookup slot = st.peers.slots.lookup slot
  assignments : ∀ slot, slot.1 ≠ identityKey p → st'.roomAssignments.slots.lookup slot = st.roomAssignments.slots.lookup slot
  members : ∀ q room, q ≠ p → (q ∈ SetMap.members st'.rooms room ↔ q ∈ SetMap.members st.rooms room)

theorem Frame.refl (p : String) (st : RelayState) : Frame p st st := ⟨fun _ _ => rfl, fun _ _ => rfl, fun _ _ _ => Iff.rfl⟩

theorem Frame.trans {p : String} {st st' st'' : RelayState} (h : Frame p st st') (h' : Frame p st' st'') : Frame p st st'' where
  peers slot hslot := (h'.peers slot hslot).trans (h.peers slot hslot)
  assignments slot hslot := (h'.assignments slot hslot).trans (h.assignments slot hslot)
  members q room hq := (h'.members q room hq).trans (h.members q room hq)

namespace RelayState

variable (st : RelayState) (p : String)

/-- Another endpoint of the identity is connected. -/
def StaysConnected (device : Option DeviceId) : Prop :=
  ∃ sibling, sibling ≠ device ∧ ∃ peer, st.peers.slots.lookup (identityKey p, sibling) = some peer

/-- Another endpoint of the identity is placed in the room. -/
def StaysIn (device : Option DeviceId) (room : String) : Prop :=
  ∃ sibling, sibling ≠ device ∧ ∃ peer, st.peers.slots.lookup (identityKey p, sibling) = some peer ∧ peer.roomId = some room

/-! ## Leaving a room's members -/

theorem siblingIn_iff {room : String} {except : Option (Option DeviceId)} :
    st.siblingIn p room except = true ↔
      ∃ device peer, st.peers.slots.lookup (identityKey p, device) = some peer ∧ some device ≠ except ∧
        peer.roomId = some room := by
  simp only [siblingIn, List.any_eq_true, Bool.and_eq_true, decide_eq_true_eq, Prod.exists]
  constructor
  · rintro ⟨device, peer, hmem, hne, hroom⟩
    exact ⟨device, peer, DeviceRoutes.mem_endpoints.mp hmem, hne, hroom⟩
  · rintro ⟨device, peer, hlookup, hne, hroom⟩
    exact ⟨device, peer, DeviceRoutes.mem_endpoints.mpr hlookup, hne, hroom⟩

theorem siblingIn_some_iff {room : String} {device : Option DeviceId} :
    st.siblingIn p room (some device) = true ↔ st.StaysIn p device room := by
  rw [siblingIn_iff]
  constructor
  · rintro ⟨sibling, peer, hlookup, hne, hroom⟩
    exact ⟨sibling, fun heq => hne (congrArg some heq), peer, hlookup, hroom⟩
  · rintro ⟨sibling, hne, peer, hlookup, hroom⟩
    exact ⟨sibling, peer, hlookup, fun heq => hne (Option.some.inj heq), hroom⟩

/-- When the endpoint itself is out of the room, only its siblings can keep the identity there. -/
theorem siblingIn_none_iff {st' : RelayState} {room : String} {device : Option DeviceId}
    (hother : ∀ sibling, sibling ≠ device →
      st'.peers.slots.lookup (identityKey p, sibling) = st.peers.slots.lookup (identityKey p, sibling))
    (hself : ∀ peer, st'.peers.slots.lookup (identityKey p, device) = some peer → peer.roomId ≠ some room) :
    st'.siblingIn p room none = true ↔ st.StaysIn p device room := by
  rw [siblingIn_iff]
  constructor
  · rintro ⟨sibling, peer, hlookup, -, hroom⟩
    have hne : sibling ≠ device := by
      rintro rfl
      exact hself peer hlookup hroom
    exact ⟨sibling, hne, peer, by rw [← hother sibling hne, hlookup], hroom⟩
  · rintro ⟨sibling, hne, peer, hlookup, hroom⟩
    exact ⟨sibling, peer, by rw [hother sibling hne, hlookup], Option.some_ne_none _, hroom⟩

/-- Only the rooms change. -/
theorem vacate_eq (room : Option String) (except : Option (Option DeviceId)) :
    st.vacate p room except = { st with rooms := (st.vacate p room except).rooms } := by
  unfold vacate
  split
  · rfl
  · split
    · rfl
    · rfl

@[simp] theorem vacate_peers (room : Option String) (except : Option (Option DeviceId)) :
    (st.vacate p room except).peers = st.peers := by
  rw [vacate_eq]

@[simp] theorem vacate_assignments (room : Option String) (except : Option (Option DeviceId)) :
    (st.vacate p room except).roomAssignments = st.roomAssignments := by
  rw [vacate_eq]

@[simp] theorem vacate_nextIndex (room : Option String) (except : Option (Option DeviceId)) :
    (st.vacate p room except).nextIndex = st.nextIndex := by
  rw [vacate_eq]

/-- The identity is out of the room it vacates, unless a sibling keeps it there. -/
theorem mem_members_vacate (room : Option String) (except : Option (Option DeviceId)) (q room' : String) :
    q ∈ SetMap.members (st.vacate p room except).rooms room' ↔
      q ∈ SetMap.members st.rooms room' ∧ (q = p → room = some room' → st.siblingIn p room' except = true) := by
  unfold vacate
  cases room with
  | none => simp
  | some room =>
    dsimp only
    by_cases hsib : st.siblingIn p room except = true
    · rw [if_pos hsib]
      constructor
      · intro hq
        refine ⟨hq, fun _ heq => ?_⟩
        rw [← Option.some.inj heq]
        exact hsib
      · exact fun h => h.1
    · rw [if_neg hsib, SetMap.members_remove]
      by_cases hroom : room' = room
      · subst hroom
        rw [if_pos rfl, Finset.mem_erase]
        constructor
        · rintro ⟨hne, hq⟩
          exact ⟨hq, fun heq => absurd heq hne⟩
        · rintro ⟨hq, h⟩
          exact ⟨fun heq => hsib (h heq rfl), hq⟩
      · rw [if_neg hroom]
        constructor
        · exact fun hq => ⟨hq, fun _ heq => absurd (Option.some.inj heq).symm hroom⟩
        · exact fun h => h.1

theorem frame_vacate (room : Option String) (except : Option (Option DeviceId)) : Frame p st (st.vacate p room except) where
  peers slot _ := by rw [vacate_peers]
  assignments slot _ := by rw [vacate_assignments]
  members q room' hq := by
    rw [mem_members_vacate]
    exact ⟨fun h => h.1, fun h => ⟨h, fun heq => absurd heq hq⟩⟩

/-! ## Removing an endpoint -/

theorem lookup_foldl_removeEndpoint {T : Type} (devices : List (Option DeviceId)) (routes : DeviceRoutes T)
    (slot : String × Option DeviceId) :
    (devices.foldl (fun routes device => routes.removeEndpoint p device) routes).slots.lookup slot =
      if slot.1 = identityKey p ∧ slot.2 ∈ devices then none else routes.slots.lookup slot := by
  induction devices generalizing routes with
  | nil => simp
  | cons device devices ih =>
    rw [List.foldl_cons, ih, DeviceRoutes.lookup_removeEndpoint]
    by_cases hkey : slot.1 = identityKey p
    · by_cases hdevice : slot.2 = device
      · have hslot : slot = (identityKey p, device) := Prod.ext hkey hdevice
        simp [hslot]
      · have hslot : slot ≠ (identityKey p, device) := fun heq => hdevice (congrArg Prod.snd heq)
        simp [hkey, hdevice, hslot]
    · have hslot : slot ≠ (identityKey p, device) := fun heq => hkey (congrArg Prod.fst heq)
      simp [hkey, hslot]

theorem dropGameSession_eq :
    (st.dropGameSession p).peers = st.peers ∧ (st.dropGameSession p).roomAssignments = st.roomAssignments ∧
      (st.dropGameSession p).rooms = st.rooms ∧ (st.dropGameSession p).nextIndex = st.nextIndex := by
  unfold dropGameSession
  split
  · exact ⟨rfl, rfl, rfl, rfl⟩
  · exact ⟨rfl, rfl, rfl, rfl⟩

@[simp] theorem removeIdentityMembership_peers : (st.removeIdentityMembership p).peers = st.peers :=
  (dropGameSession_eq _ p).1

@[simp] theorem removeIdentityMembership_nextIndex : (st.removeIdentityMembership p).nextIndex = st.nextIndex :=
  (dropGameSession_eq _ p).2.2.2

theorem lookup_removeIdentityMembership (slot : String × Option DeviceId) :
    (st.removeIdentityMembership p).roomAssignments.slots.lookup slot =
      if slot.1 = identityKey p then none else st.roomAssignments.slots.lookup slot := by
  unfold removeIdentityMembership
  rw [(dropGameSession_eq _ p).2.1, lookup_foldl_removeEndpoint]
  by_cases hkey : slot.1 = identityKey p
  · rw [if_pos hkey]
    split
    · rfl
    · rename_i hnot
      rw [← Option.not_isSome_iff_eq_none]
      intro hsome
      obtain ⟨room, hroom⟩ := Option.isSome_iff_exists.mp hsome
      refine hnot ⟨hkey, List.mem_map.mpr ⟨(slot.2, room), DeviceRoutes.mem_endpoints.mpr ?_, rfl⟩⟩
      rw [← hkey]
      exact hroom
  · rw [if_neg hkey, if_neg fun h => hkey h.1]

theorem members_removeIdentityMembership (room : String) :
    SetMap.members (st.removeIdentityMembership p).rooms room = (SetMap.members st.rooms room).erase p := by
  unfold removeIdentityMembership
  rw [(dropGameSession_eq _ p).2.2.1]
  exact SetMap.members_removeAll _ _ _

theorem frame_removeIdentityMembership : Frame p st (st.removeIdentityMembership p) where
  peers slot _ := by rw [removeIdentityMembership_peers]
  assignments slot hslot := by rw [lookup_removeIdentityMembership, if_neg hslot]
  members q room hq := by
    rw [members_removeIdentityMembership, Finset.mem_erase]
    exact ⟨fun h => h.2, fun h => ⟨hq, h⟩⟩

section

variable (device : Option DeviceId)

/-- The state in which `remove_endpoint` asks for siblings. -/
def withoutEndpoint (peer : RelayPeer) : RelayState :=
  { st with
    roomAssignments := st.roomAssignments.removeEndpoint p device
    peers := st.peers.removeEndpoint p device
    indexToPeer := st.indexToPeer.erase peer.peerIndex }

theorem removeEndpoint_of_none (h : st.peers.slots.lookup (identityKey p, device) = none) :
    st.removeEndpoint p device = { st with roomAssignments := st.roomAssignments.removeEndpoint p device } := by
  simp only [removeEndpoint, DeviceRoutes.getEndpoint, h]

theorem removeEndpoint_of_some {peer : RelayPeer} (h : st.peers.slots.lookup (identityKey p, device) = some peer) :
    st.removeEndpoint p device =
      if (st.withoutEndpoint p device peer).peers.containsKey p
      then (st.withoutEndpoint p device peer).vacate p peer.roomId none
      else ((st.withoutEndpoint p device peer).vacate p peer.roomId none).removeIdentityMembership p := by
  simp only [removeEndpoint, DeviceRoutes.getEndpoint, h, vacate_peers]
  rfl

theorem containsKey_withoutEndpoint (peer : RelayPeer) :
    (st.withoutEndpoint p device peer).peers.containsKey p = true ↔ st.StaysConnected p device := by
  rw [DeviceRoutes.containsKey_iff]
  simp only [withoutEndpoint, DeviceRoutes.lookup_removeEndpoint]
  constructor
  · rintro ⟨sibling, peer', hlookup⟩
    split at hlookup
    · cases hlookup
    · rename_i hne
      exact ⟨sibling, fun heq => hne (by rw [heq]), peer', hlookup⟩
  · rintro ⟨sibling, hne, peer', hlookup⟩
    refine ⟨sibling, peer', ?_⟩
    rw [if_neg fun heq => hne (congrArg Prod.snd heq)]
    exact hlookup

theorem siblingIn_withoutEndpoint (peer : RelayPeer) (room : String) :
    (st.withoutEndpoint p device peer).siblingIn p room none = true ↔ st.StaysIn p device room := by
  apply siblingIn_none_iff
  · intro sibling hne
    simp only [withoutEndpoint, DeviceRoutes.lookup_removeEndpoint]
    rw [if_neg fun heq => hne (congrArg Prod.snd heq)]
  · intro peer' hlookup
    simp only [withoutEndpoint, DeviceRoutes.lookup_removeEndpoint, if_true] at hlookup
    cases hlookup

theorem lookup_removeEndpoint_peers (slot : String × Option DeviceId) :
    (st.removeEndpoint p device).peers.slots.lookup slot =
      if slot = (identityKey p, device) then none else st.peers.slots.lookup slot := by
  cases hpeer : st.peers.slots.lookup (identityKey p, device) with
  | none =>
    rw [removeEndpoint_of_none st p device hpeer]
    split
    · rename_i hslot
      rw [hslot]
      exact hpeer
    · rfl
  | some peer =>
    rw [removeEndpoint_of_some st p device hpeer, ← DeviceRoutes.lookup_removeEndpoint]
    split
    · rw [vacate_peers]
      rfl
    · rw [removeIdentityMembership_peers, vacate_peers]
      rfl

/-- The placements that wait are lost with the last connected endpoint. -/
theorem lookup_removeEndpoint_assignments (slot : String × Option DeviceId) (room : String) :
    (st.removeEndpoint p device).roomAssignments.slots.lookup slot = some room ↔
      st.roomAssignments.slots.lookup slot = some room ∧ slot ≠ (identityKey p, device) ∧
        (slot.1 = identityKey p → (st.peers.slots.lookup (identityKey p, device)).isSome = true → st.StaysConnected p device) := by
  have hremoved : (st.roomAssignments.removeEndpoint p device).slots.lookup slot = some room ↔
      st.roomAssignments.slots.lookup slot = some room ∧ slot ≠ (identityKey p, device) := by
    rw [DeviceRoutes.lookup_removeEndpoint]
    split
    · rename_i hslot
      exact ⟨(fun h => by cases h), fun h => absurd hslot h.2⟩
    · rename_i hslot
      exact ⟨fun h => ⟨h, hslot⟩, fun h => h.1⟩
  cases hpeer : st.peers.slots.lookup (identityKey p, device) with
  | none =>
    rw [removeEndpoint_of_none st p device hpeer]
    exact hremoved.trans ⟨fun h => ⟨h.1, h.2, fun _ hnone => by cases hnone⟩, fun h => ⟨h.1, h.2.1⟩⟩
  | some peer =>
    rw [removeEndpoint_of_some st p device hpeer]
    split
    · rename_i hstays
      rw [containsKey_withoutEndpoint] at hstays
      rw [vacate_assignments]
      exact hremoved.trans ⟨fun h => ⟨h.1, h.2, fun _ _ => hstays⟩, fun h => ⟨h.1, h.2.1⟩⟩
    · rename_i hgone
      rw [containsKey_withoutEndpoint] at hgone
      rw [lookup_removeIdentityMembership, vacate_assignments]
      split
      · rename_i hkey
        exact ⟨(fun h => by cases h), fun h => absurd (h.2.2 hkey rfl) hgone⟩
      · rename_i hkey
        exact hremoved.trans ⟨fun h => ⟨h.1, h.2, fun heq => absurd heq hkey⟩, fun h => ⟨h.1, h.2.1⟩⟩

/-- The identity leaves the endpoint's room unless a sibling is placed there, and every room with its last endpoint. -/
theorem mem_members_removeEndpoint (q room : String) :
    q ∈ SetMap.members (st.removeEndpoint p device).rooms room ↔
      q ∈ SetMap.members st.rooms room ∧ (q = p → ∀ peer, st.peers.slots.lookup (identityKey p, device) = some peer →
        st.StaysConnected p device ∧ (peer.roomId = some room → st.StaysIn p device room)) := by
  cases hpeer : st.peers.slots.lookup (identityKey p, device) with
  | none =>
    rw [removeEndpoint_of_none st p device hpeer]
    exact ⟨fun h => ⟨h, fun _ _ hnone => by cases hnone⟩, fun h => h.1⟩
  | some peer =>
    have hvacated := mem_members_vacate (st.withoutEndpoint p device peer) p peer.roomId none q room
    rw [siblingIn_withoutEndpoint] at hvacated
    rw [removeEndpoint_of_some st p device hpeer]
    split
    · rename_i hstays
      rw [containsKey_withoutEndpoint] at hstays
      rw [hvacated]
      constructor
      · rintro ⟨hq, hroom⟩
        refine ⟨hq, fun heq peer' hpeer' => ⟨hstays, ?_⟩⟩
        rw [← Option.some.inj hpeer']
        exact hroom heq
      · rintro ⟨hq, hroom⟩
        exact ⟨hq, fun heq => (hroom heq peer rfl).2⟩
    · rename_i hgone
      rw [containsKey_withoutEndpoint] at hgone
      rw [members_removeIdentityMembership, Finset.mem_erase, hvacated]
      constructor
      · rintro ⟨hne, hq, -⟩
        exact ⟨hq, fun heq => absurd heq hne⟩
      · rintro ⟨hq, hroom⟩
        have hne : q ≠ p := fun heq => hgone (hroom heq peer rfl).1
        exact ⟨hne, hq, fun heq => absurd heq hne⟩

theorem removeEndpoint_nextIndex : (st.removeEndpoint p device).nextIndex = st.nextIndex := by
  cases hpeer : st.peers.slots.lookup (identityKey p, device) with
  | none => rw [removeEndpoint_of_none st p device hpeer]
  | some peer =>
    rw [removeEndpoint_of_some st p device hpeer]
    split
    · rw [vacate_nextIndex]
      rfl
    · rw [removeIdentityMembership_nextIndex, vacate_nextIndex]
      rfl

theorem frame_removeEndpoint : Frame p st (st.removeEndpoint p device) where
  peers slot hslot := by
    rw [lookup_removeEndpoint_peers, if_neg fun heq => hslot (congrArg Prod.fst heq)]
  assignments slot hslot := by
    have hne : slot ≠ (identityKey p, device) := fun heq => hslot (congrArg Prod.fst heq)
    apply Option.ext
    intro room
    rw [lookup_removeEndpoint_assignments]
    exact ⟨fun h => h.1, fun h => ⟨h, hne, fun heq => absurd heq hslot⟩⟩
  members q room hq := by
    rw [mem_members_removeEndpoint]
    exact ⟨fun h => h.1, fun h => ⟨h, fun heq => absurd heq hq⟩⟩

/-! ## Joining and leaving a room -/

/-- The room an endpoint is placed in. -/
def placedIn : Option String := (st.peers.slots.lookup (identityKey p, device)).bind RelayPeer.roomId

/-- A join that is not refused. -/
structure Joined (room : String) (st' : RelayState) : Prop where
  peers : ∀ slot, st'.peers.slots.lookup slot = if slot = (identityKey p, device)
    then (st.peers.slots.lookup slot).map fun peer => { peer with roomId := some room } else st.peers.slots.lookup slot
  assignments : ∀ slot, st'.roomAssignments.slots.lookup slot = if slot = (identityKey p, device)
    then some room else st.roomAssignments.slots.lookup slot
  members : ∀ q r, q ∈ SetMap.members st'.rooms r ↔
    (q = p ∧ r = room) ∨ (q ∈ SetMap.members st.rooms r ∧ (q = p → st.placedIn p device = some r → st.StaysIn p device r))
  nextIndex : st'.nextIndex = st.nextIndex

/-- A join is refused when the identity has reached its limit, and else it is carried out. -/
theorem joinRoomEndpoint_cases (room : String) :
    (st.roomAssignments.register (trimEndMatches '=' p) device room = none ∧ st.joinRoomEndpoint p device room = st) ∨
      ((st.roomAssignments.register (trimEndMatches '=' p) device room).isSome = true ∧
        st.Joined (trimEndMatches '=' p) device room (st.joinRoomEndpoint p device room)) := by
  unfold joinRoomEndpoint
  generalize trimEndMatches '=' p = p
  dsimp only
  cases hreg : st.roomAssignments.register p device room with
  | none => exact Or.inl ⟨rfl, rfl⟩
  | some assignments =>
    refine Or.inr ⟨rfl, ?_⟩
    constructor
    · intro slot
      simp only [vacate_peers, DeviceRoutes.lookup_modifyEndpoint]
    · intro slot
      simp only [vacate_assignments, DeviceRoutes.lookup_register hreg]
    · intro q r
      have hvacated := mem_members_vacate { st with roomAssignments := assignments } p (st.placedIn p device) (some device) q r
      rw [siblingIn_some_iff] at hvacated
      dsimp only [DeviceRoutes.getEndpoint]
      rw [SetMap.members_add]
      by_cases hr : r = room
      · subst hr
        rw [if_pos rfl, Finset.mem_insert]
        constructor
        · rintro (heq | hq)
          · exact Or.inl ⟨heq, rfl⟩
          · exact Or.inr (hvacated.mp hq)
        · rintro (⟨heq, -⟩ | hq)
          · exact Or.inl heq
          · exact Or.inr (hvacated.mpr hq)
      · rw [if_neg hr]
        exact hvacated.trans ⟨Or.inr, fun h => h.resolve_left fun h => hr h.2⟩
    · exact vacate_nextIndex _ _ _ _

theorem Joined.frame {room : String} {st' : RelayState} (h : st.Joined p device room st') : Frame p st st' where
  peers slot hslot := by rw [h.peers, if_neg fun heq => hslot (congrArg Prod.fst heq)]
  assignments slot hslot := by rw [h.assignments, if_neg fun heq => hslot (congrArg Prod.fst heq)]
  members q r hq := by
    rw [h.members]
    exact ⟨fun h => h.elim (fun h => absurd h.1 hq) And.left, fun h => Or.inr ⟨h, fun heq => absurd heq hq⟩⟩

/-- What a leave does. -/
structure Left (st' : RelayState) : Prop where
  peers : ∀ slot, st'.peers.slots.lookup slot = if slot = (identityKey p, device)
    then (st.peers.slots.lookup slot).map fun peer => { peer with roomId := none } else st.peers.slots.lookup slot
  assignments : ∀ slot, st'.roomAssignments.slots.lookup slot = if slot = (identityKey p, device)
    then none else st.roomAssignments.slots.lookup slot
  members : ∀ q r, q ∈ SetMap.members st'.rooms r ↔
    q ∈ SetMap.members st.rooms r ∧ (q = p → st.roomToLeave p device = some r → st.StaysIn p device r)
  nextIndex : st'.nextIndex = st.nextIndex

theorem leaveRoomEndpoint_spec : st.Left (trimEndMatches '=' p) device (st.leaveRoomEndpoint p device) := by
  unfold leaveRoomEndpoint
  generalize trimEndMatches '=' p = p
  constructor
  · intro slot
    simp only [vacate_peers, DeviceRoutes.lookup_modifyEndpoint]
  · intro slot
    simp only [vacate_assignments, DeviceRoutes.lookup_removeEndpoint]
  · intro q r
    have hsibling : { st with
        peers := st.peers.modifyEndpoint p device fun peer => { peer with roomId := none }
        roomAssignments := st.roomAssignments.removeEndpoint p device }.siblingIn p r none = true ↔ st.StaysIn p device r := by
      apply siblingIn_none_iff
      · intro sibling hne
        simp only [DeviceRoutes.lookup_modifyEndpoint]
        rw [if_neg fun heq => hne (congrArg Prod.snd heq)]
      · intro peer hpeer
        simp only [DeviceRoutes.lookup_modifyEndpoint, if_true, Option.map_eq_some_iff] at hpeer
        obtain ⟨peer', -, rfl⟩ := hpeer
        exact fun h => by cases h
    dsimp only
    rw [mem_members_vacate, hsibling]
  · exact vacate_nextIndex _ _ _ _

theorem Left.frame {st' : RelayState} (h : st.Left p device st') : Frame p st st' where
  peers slot hslot := by rw [h.peers, if_neg fun heq => hslot (congrArg Prod.fst heq)]
  assignments slot hslot := by rw [h.assignments, if_neg fun heq => hslot (congrArg Prod.fst heq)]
  members q r hq := by
    rw [h.members]
    exact ⟨fun h => h.1, fun h => ⟨h, fun heq => absurd heq hq⟩⟩

end

/-! ## Removing an identity -/

theorem lookup_foldl_peers (devices : List (Option DeviceId)) (st : RelayState) (slot : String × Option DeviceId) :
    (devices.foldl (fun st device => st.removeEndpoint p device) st).peers.slots.lookup slot =
      if slot.1 = identityKey p ∧ slot.2 ∈ devices then none else st.peers.slots.lookup slot := by
  induction devices generalizing st with
  | nil => simp
  | cons device devices ih =>
    rw [List.foldl_cons, ih, lookup_removeEndpoint_peers]
    by_cases hslot : slot = (identityKey p, device)
    · simp [hslot]
    · by_cases hkey : slot.1 = identityKey p
      · have hdevice : slot.2 ≠ device := fun heq => hslot (Prod.ext hkey heq)
        simp [hkey, hdevice, hslot]
      · simp [hkey, hslot]

theorem frame_foldl (devices : List (Option DeviceId)) (st : RelayState) :
    Frame p st (devices.foldl (fun st device => st.removeEndpoint p device) st) := by
  induction devices generalizing st with
  | nil => exact Frame.refl p st
  | cons device devices ih => exact (frame_removeEndpoint st p device).trans (ih _)

theorem foldl_nextIndex (devices : List (Option DeviceId)) (st : RelayState) :
    (devices.foldl (fun st device => st.removeEndpoint p device) st).nextIndex = st.nextIndex := by
  induction devices generalizing st with
  | nil => rfl
  | cons device devices ih => exact (ih _).trans (removeEndpoint_nextIndex st p device)

theorem frame_removePeer : Frame p st (st.removePeer p) :=
  (frame_foldl p _ st).trans (frame_removeIdentityMembership _ p)

theorem removePeer_nextIndex : (st.removePeer p).nextIndex = st.nextIndex := by
  unfold removePeer
  rw [removeIdentityMembership_nextIndex, foldl_nextIndex]

/-- Nothing of the identity is left. -/
theorem removePeer_none (device : Option DeviceId) :
    (st.removePeer p).peers.slots.lookup (identityKey p, device) = none ∧
      (st.removePeer p).roomAssignments.slots.lookup (identityKey p, device) = none := by
  unfold removePeer
  constructor
  · rw [removeIdentityMembership_peers, lookup_foldl_peers]
    split
    · rfl
    · rename_i hnot
      rw [← Option.not_isSome_iff_eq_none]
      intro hsome
      obtain ⟨peer, hpeer⟩ := Option.isSome_iff_exists.mp hsome
      exact hnot ⟨rfl, List.mem_map.mpr ⟨(device, peer), DeviceRoutes.mem_endpoints.mpr hpeer, rfl⟩⟩
  · rw [lookup_removeIdentityMembership, if_pos rfl]

/-! ## Registering a connection -/

/-- The indices an endpoint can have. -/
def InRange (i : UInt8) : Prop := 1 ≤ i.toNat ∧ i.toNat ≤ 254

theorem inRange_followingIndex {i : UInt8} (h : InRange i) : InRange (followingIndex i) ∧
    (followingIndex i).toNat = if i.toNat = 254 then 1 else i.toNat + 1 := by
  obtain ⟨hone, hle⟩ := h
  unfold followingIndex
  by_cases hlast : i = 254
  · subst hlast
    unfold InRange
    decide
  · have hne : i.toNat ≠ 254 := fun heq => hlast (UInt8.toNat_inj.mp heq)
    have hnext : (i + 1).toNat = i.toNat + 1 := by
      rw [UInt8.toNat_add]
      exact Nat.mod_eq_of_lt (by have : (1 : UInt8).toNat = 1 := rfl; omega)
    rw [if_neg hlast, if_neg hne]
    exact ⟨⟨by omega, by omega⟩, hnext⟩

/-- How many steps the search takes from one index to another. -/
def roundTo (target i : UInt8) : Nat := if i.toNat ≤ target.toNat then target.toNat - i.toNat else target.toNat + 254 - i.toNat

/-- While an index is free the search finds one: each step brings it nearer to the free one, so that it is never back at its
start before. -/
theorem searchIndex_isSome {taken : UInt8 → Bool} {free : UInt8} (hfree : taken free = false) (hrange : InRange free)
    {start : UInt8} (fuel : Nat) (i : UInt8) (hi : InRange i) (hfuel : roundTo free i < fuel)
    (hstart : roundTo free i ≤ roundTo free start) : (searchIndex taken start fuel i).isSome = true := by
  induction fuel generalizing i with
  | zero => omega
  | succ fuel ih =>
    unfold searchIndex
    split
    · rename_i htaken
      have hne : i.toNat ≠ free.toNat := by
        intro heq
        rw [UInt8.toNat_inj.mp heq, hfree] at htaken
        cases htaken
      obtain ⟨hnext, hvalue⟩ := inRange_followingIndex hi
      have hnearer : roundTo free (followingIndex i) < roundTo free i := by
        obtain ⟨hi1, hi2⟩ := hi
        obtain ⟨hf1, hf2⟩ := hrange
        unfold roundTo
        rw [hvalue]
        split_ifs <;> omega
      rw [if_neg fun heq => by rw [heq] at hnearer; omega]
      exact ih _ hnext (by omega) (by omega)
    · rfl

theorem inRange_of_searchIndex {taken : UInt8 → Bool} {start : UInt8} (fuel : Nat) (i j : UInt8) (hi : InRange i)
    (h : searchIndex taken start fuel i = some j) : InRange j := by
  induction fuel generalizing i with
  | zero => cases h
  | succ fuel ih =>
    unfold searchIndex at h
    split at h
    · split at h
      · cases h
      · exact ih _ (inRange_followingIndex hi).1 h
    · cases h
      exact hi

section

variable (device : Option DeviceId)

theorem softReplace_of_none (h : st.peers.slots.lookup (identityKey p, device) = none) : st.softReplace p device = st := by
  simp only [softReplace, DeviceRoutes.getEndpoint, h]

theorem softReplace_of_some {old : RelayPeer} (h : st.peers.slots.lookup (identityKey p, device) = some old) :
    (st.softReplace p device).peers = st.peers.removeEndpoint p device ∧
      (st.softReplace p device).indexToPeer = st.indexToPeer.erase old.peerIndex := by
  simp only [softReplace, DeviceRoutes.getEndpoint, h]
  split
  · exact ⟨rfl, rfl⟩
  · exact ⟨rfl, rfl⟩

theorem lookup_softReplace (slot : String × Option DeviceId) :
    (st.softReplace p device).peers.slots.lookup slot =
      if slot = (identityKey p, device) then none else st.peers.slots.lookup slot := by
  cases hpeer : st.peers.slots.lookup (identityKey p, device) with
  | none =>
    rw [softReplace_of_none st p device hpeer]
    split
    · rename_i hslot
      rw [hslot]
      exact hpeer
    · rfl
  | some old => rw [(softReplace_of_some st p device hpeer).1, DeviceRoutes.lookup_removeEndpoint]

theorem softReplace_assignments : (st.softReplace p device).roomAssignments = st.roomAssignments := by
  unfold softReplace
  split
  · rfl
  · dsimp only
    split
    · rfl
    · rfl

theorem softReplace_nextIndex : (st.softReplace p device).nextIndex = st.nextIndex := by
  unfold softReplace
  split
  · rfl
  · dsimp only
    split
    · rfl
    · rfl

theorem mem_members_softReplace (q room : String) :
    q ∈ SetMap.members (st.softReplace p device).rooms room ↔
      q ∈ SetMap.members st.rooms room ∨ (q = p ∧ st.placedIn p device = some room) := by
  unfold softReplace placedIn DeviceRoutes.getEndpoint
  cases hpeer : st.peers.slots.lookup (identityKey p, device) with
  | none => simp
  | some old =>
    simp only [Option.bind_some]
    cases hroom : old.roomId with
    | none => simp
    | some prior =>
      dsimp only
      rw [SetMap.members_add]
      by_cases hr : room = prior
      · subst hr
        rw [if_pos rfl, Finset.mem_insert]
        exact ⟨fun h => h.elim (fun h => Or.inr ⟨h, rfl⟩) Or.inl, fun h => h.elim Or.inr fun h => Or.inl h.1⟩
      · rw [if_neg hr]
        exact ⟨Or.inl, fun h => h.resolve_right fun h => hr (Option.some.inj h.2).symm⟩

/-- A registration starts in the room of the connection it replaces, else in the one assigned, else where the scan finds it. -/
theorem existingRoom_cases :
    (∃ prior, st.placedIn p device = some prior ∧
      (st.softReplace p device).existingRoom p device (st.placedIn p device) = some prior) ∨
    (st.placedIn p device = none ∧ ∃ assigned, st.roomAssignments.slots.lookup (identityKey p, device) = some assigned ∧
      (st.softReplace p device).existingRoom p device (st.placedIn p device) = some assigned) ∨
    (st.placedIn p device = none ∧ st.roomAssignments.slots.lookup (identityKey p, device) = none ∧
      (st.softReplace p device).existingRoom p device (st.placedIn p device) =
        if device.isNone then (st.softReplace p device).scanRooms p else none) := by
  unfold existingRoom
  rw [DeviceRoutes.getEndpoint, softReplace_assignments]
  cases hprior : st.placedIn p device with
  | some prior => exact Or.inl ⟨prior, rfl, rfl⟩
  | none =>
    cases hassign : st.roomAssignments.slots.lookup (identityKey p, device) with
    | some assigned => exact Or.inr (Or.inl ⟨rfl, assigned, rfl, rfl⟩)
    | none => exact Or.inr (Or.inr ⟨rfl, rfl, rfl⟩)

theorem frame_softReplace : Frame p st (st.softReplace p device) where
  peers slot hslot := by rw [lookup_softReplace, if_neg fun heq => hslot (congrArg Prod.fst heq)]
  assignments slot _ := by rw [softReplace_assignments]
  members q room hq := by
    rw [mem_members_softReplace]
    exact ⟨fun h => h.resolve_right fun h => hq h.1, Or.inl⟩

/-- What a registration leaves of the endpoint, however it ends. -/
structure Registering (st' : RelayState) : Prop where
  frame : Frame p st st'
  assignments : st'.roomAssignments = st.roomAssignments
  siblings : ∀ sibling, sibling ≠ device →
    st'.peers.slots.lookup (identityKey p, sibling) = st.peers.slots.lookup (identityKey p, sibling)
  own : ∀ peer, st'.peers.slots.lookup (identityKey p, device) = some peer →
    st.peers.slots.lookup (identityKey p, device) = some peer ∨
      peer.roomId = (st.softReplace p device).existingRoom p device (st.placedIn p device)

theorem registering_softReplace : st.Registering p device (st.softReplace p device) where
  frame := frame_softReplace st p device
  assignments := softReplace_assignments st p device
  siblings sibling hne := by rw [lookup_softReplace, if_neg fun heq => hne (congrArg Prod.snd heq)]
  own peer hpeer := by
    rw [lookup_softReplace, if_pos rfl] at hpeer
    cases hpeer

theorem registerConnection_registering (connection : Nat) :
    st.Registering p device (st.registerConnection p device connection).2 := by
  have hreplaced := registering_softReplace st p device
  unfold registerConnection
  dsimp only
  split
  · exact ⟨Frame.refl p st, rfl, fun _ _ => rfl, fun _ h => Or.inl h⟩
  · cases halloc : (st.softReplace p device).allocateIndex with
    | none => exact hreplaced
    | some allocated =>
      obtain ⟨i, hi, heq⟩ := Option.map_eq_some_iff.mp halloc
      cases heq
      dsimp only
      generalize hnew : RelayPeer.mk i connection _ 0 = peer
      cases hreg : (st.softReplace p device).peers.register p device peer with
      | none => exact ⟨⟨hreplaced.frame.1, hreplaced.frame.2, hreplaced.frame.3⟩, hreplaced.2, hreplaced.3, hreplaced.4⟩
      | some peers =>
        have hpeers := DeviceRoutes.lookup_register hreg
        refine ⟨⟨fun slot hslot => ?_, hreplaced.frame.2, hreplaced.frame.3⟩, hreplaced.2, fun sibling hne => ?_, fun new hnewpeer => ?_⟩
        · dsimp only
          rw [hpeers, if_neg fun heq => hslot (congrArg Prod.fst heq)]
          exact hreplaced.frame.1 slot hslot
        · dsimp only
          rw [hpeers, if_neg fun heq => hne (congrArg Prod.snd heq)]
          exact hreplaced.3 sibling hne
        · dsimp only at hnewpeer
          rw [hpeers, if_pos rfl] at hnewpeer
          rw [← Option.some.inj hnewpeer, ← hnew]
          exact Or.inr rfl

/-- A registration that places the endpoint. -/
structure Registered (connection : Nat) (st' : RelayState) : Prop where
  peers : ∃ index, InRange index ∧ ∀ slot, st'.peers.slots.lookup slot = if slot = (identityKey p, device)
    then some ⟨index, connection, (st.softReplace p device).existingRoom p device (st.placedIn p device), 0⟩
    else st.peers.slots.lookup slot
  assignments : st'.roomAssignments = st.roomAssignments
  rooms : st'.rooms = (st.softReplace p device).rooms
  nextIndex : InRange st'.nextIndex

/-- A registration that leaves the placements alone. -/
structure Unregistered (st' : RelayState) : Prop where
  peers : st'.peers = st.peers
  assignments : st'.roomAssignments = st.roomAssignments
  rooms : st'.rooms = st.rooms
  nextIndex : InRange st'.nextIndex

theorem allocateIndex_spec {st' : RelayState} {index : UInt8} (hnext : InRange st.nextIndex)
    (h : st.allocateIndex = some (index, st')) :
    InRange index ∧ st' = { st with nextIndex := followingIndex index } := by
  obtain ⟨i, hi, heq⟩ := Option.map_eq_some_iff.mp h
  cases heq
  exact ⟨inRange_of_searchIndex _ _ _ hnext hi, rfl⟩

/-- The index of a replaced connection is free again. -/
theorem allocateIndex_isSome {old : RelayPeer} (hnext : InRange st.nextIndex) (hindex : InRange old.peerIndex)
    (h : st.peers.slots.lookup (identityKey p, device) = some old) : (st.softReplace p device).allocateIndex.isSome = true := by
  have hfree : (fun i => ((st.softReplace p device).indexToPeer.lookup i).isSome) old.peerIndex = false := by
    dsimp only
    rw [(softReplace_of_some st p device h).2, AList.lookup_erase]
    rfl
  have hround : roundTo old.peerIndex (st.softReplace p device).nextIndex < 255 := by
    obtain ⟨h1, h2⟩ := hindex
    rw [softReplace_nextIndex]
    unfold roundTo
    split_ifs <;> omega
  unfold allocateIndex
  rw [Option.isSome_map]
  have hsearch : InRange (st.softReplace p device).nextIndex := by
    rw [softReplace_nextIndex]
    exact hnext
  exact searchIndex_isSome hfree hindex 255 _ hsearch hround (Nat.le_refl _)

/-- A registration either places the endpoint or changes nothing: the place that a replaced connection gave up is there for the
new one. -/
theorem registerConnection_cases (connection : Nat) (hnext : InRange st.nextIndex)
    (hindex : ∀ old, st.peers.slots.lookup (identityKey p, device) = some old → InRange old.peerIndex) :
    st.Unregistered (st.registerConnection p device connection).2 ∨
      st.Registered p device connection (st.registerConnection p device connection).2 := by
  have hreplaced : (st.softReplace p device).nextIndex = st.nextIndex := softReplace_nextIndex st p device
  unfold registerConnection
  dsimp only
  split
  · exact Or.inl ⟨rfl, rfl, rfl, hnext⟩
  · cases halloc : (st.softReplace p device).allocateIndex with
    | none =>
      cases hpeer : st.peers.slots.lookup (identityKey p, device) with
      | none =>
        rw [softReplace_of_none st p device hpeer]
        exact Or.inl ⟨rfl, rfl, rfl, hnext⟩
      | some old =>
        have hsome := allocateIndex_isSome st p device hnext (hindex old hpeer) hpeer
        rw [halloc] at hsome
        cases hsome
    | some allocated =>
      obtain ⟨index, st₁⟩ := allocated
      obtain ⟨hrange, rfl⟩ := allocateIndex_spec _ (hreplaced ▸ hnext) halloc
      have hfollowing := (inRange_followingIndex hrange).1
      dsimp only
      generalize hnew : RelayPeer.mk index connection _ 0 = peer
      cases hreg : (st.softReplace p device).peers.register p device peer with
      | none =>
        cases hpeer : st.peers.slots.lookup (identityKey p, device) with
        | none =>
          rw [softReplace_of_none st p device hpeer]
          exact Or.inl ⟨rfl, rfl, rfl, hfollowing⟩
        | some old =>
          have hmem : (identityKey p, device) ∈ st.peers.slots := AList.lookup_isSome.mp (by rw [hpeer]; rfl)
          have hsome := DeviceRoutes.register_isSome_of_removed peer hmem
          rw [← (softReplace_of_some st p device hpeer).1, hreg] at hsome
          cases hsome
      | some peers =>
        refine Or.inr ⟨⟨index, hrange, fun slot => ?_⟩, softReplace_assignments st p device, rfl, hfollowing⟩
        dsimp only
        rw [DeviceRoutes.lookup_register hreg, ← hnew]
        split
        · rfl
        · rename_i hslot
          rw [lookup_softReplace, if_neg hslot]

end

end RelayState

/-! ## Connections -/

/-- The identity of a certificate is spelled without padding. -/
theorem trimEndMatches_of_cn {cn p : String} {device : Option DeviceId} (h : endpointFromCn cn = some (p, device)) :
    trimEndMatches '=' p = p := by
  have hencoded : ∀ root, trimEndMatches '=' (Codec.b64urlEncode root) = Codec.b64urlEncode root := by
    intro root
    have hbody := Codec.rdropWhile_pad root 0
    rw [List.replicate_zero, List.append_nil] at hbody
    rw [trimEndMatches, Codec.b64urlEncode, String.toList_ofList, hbody]
  have hshape : ∃ root, p = Codec.b64urlEncode root := by
    unfold endpointFromCn at h
    cases hsplit : splitOnce '.' cn with
    | none =>
      simp only [hsplit, Option.bind_eq_bind, Option.bind_eq_some_iff] at h
      obtain ⟨bytes, -, h⟩ := h
      split at h
      · cases h
      · cases h
        exact ⟨bytes, rfl⟩
    | some parts =>
      simp only [hsplit, Option.bind_eq_bind, Option.bind_eq_some_iff] at h
      obtain ⟨bytes, -, h⟩ := h
      split at h
      · cases h
      · simp only [Option.bind_eq_some_iff] at h
        obtain ⟨deviceBytes, -, id, -, h⟩ := h
        cases h
        exact ⟨bytes, rfl⟩
  obtain ⟨root, rfl⟩ := hshape
  exact hencoded root

/-- The identities of the tasks are spelled without padding. -/
def Trimmed (relay : Server) : Prop :=
  ∀ connection task, relay.tasks.lookup connection = some task → trimEndMatches '=' task.peerId = task.peerId

theorem Trimmed.peerId {relay : Server} (h : Trimmed relay) {connection : Nat} {p : String} {device : Option DeviceId}
    {phase : Phase} (htask : relay.tasks.lookup connection = some ⟨p, device, phase⟩) : trimEndMatches '=' p = p :=
  h connection ⟨p, device, phase⟩ htask

theorem trimmed_new (ready : Bool) : Trimmed (Server.new ready) := by
  intro connection task htask
  rw [show (Server.new ready).tasks.lookup connection = none from AList.lookup_empty connection] at htask
  cases htask

theorem Trimmed.insert {relay relay' : Server} (h : Trimmed relay) {connection : Nat} {task : Task}
    (htask : trimEndMatches '=' task.peerId = task.peerId) (htasks : relay'.tasks = relay.tasks.insert connection task) :
    Trimmed relay' := by
  intro c t hlookup
  rw [htasks] at hlookup
  by_cases hc : c = connection
  · subst hc
    rw [AList.lookup_insert] at hlookup
    cases hlookup
    exact htask
  · rw [AList.lookup_insert_ne hc] at hlookup
    exact h c t hlookup

theorem Trimmed.erase {relay relay' : Server} (h : Trimmed relay) {connection : Nat}
    (htasks : relay'.tasks = relay.tasks.erase connection) : Trimmed relay' := by
  intro c t hlookup
  rw [htasks] at hlookup
  by_cases hc : c = connection
  · subst hc
    rw [AList.lookup_erase] at hlookup
    cases hlookup
  · rw [AList.lookup_erase_ne hc] at hlookup
    exact h c t hlookup

/-- The event is a call that places an endpoint or takes it out of its room. -/
def Event.callsRoom : Event → Bool
  | .joinRoomEndpoint .. | .leaveRoomEndpoint .. => true
  | _ => false

/-- What a step that leaves the connections alone does to the game sessions. -/
inductive GameStep (st : RelayState) : RelayState → Prop where
  | same {st' : RelayState} (hsessions : st'.gameSessions = st.gameSessions) (hpeer : st'.peerGameSession = st.peerGameSession) :
      GameStep st st'
  | join (q session : String) : GameStep st (st.joinGameSession q session)
  | leave (q : String) : GameStep st (st.leaveGameSession q)

theorem joinGameSession_eq (st : RelayState) (q session : String) :
    (st.joinGameSession q session).peers = st.peers ∧ (st.joinGameSession q session).roomAssignments = st.roomAssignments ∧
      (st.joinGameSession q session).rooms = st.rooms ∧ (st.joinGameSession q session).nextIndex = st.nextIndex ∧
        (st.joinGameSession q session).indexToPeer = st.indexToPeer := by
  unfold RelayState.joinGameSession
  dsimp only
  split
  · exact ⟨rfl, rfl, rfl, rfl, rfl⟩
  · exact ⟨rfl, rfl, rfl, rfl, rfl⟩

theorem leaveGameSession_eq (st : RelayState) (q : String) :
    (st.leaveGameSession q).peers = st.peers ∧ (st.leaveGameSession q).roomAssignments = st.roomAssignments ∧
      (st.leaveGameSession q).rooms = st.rooms ∧ (st.leaveGameSession q).nextIndex = st.nextIndex ∧
        (st.leaveGameSession q).indexToPeer = st.indexToPeer := by
  unfold RelayState.leaveGameSession
  dsimp only
  split
  · exact ⟨rfl, rfl, rfl, rfl, rfl⟩
  · exact ⟨rfl, rfl, rfl, rfl, rfl⟩

/-- **What a step does to the tables.** -/
inductive StateStep (relay : Server) : Event → RelayState → Prop where
  | quiet {event : Event} {st' : RelayState} (hpeers : st'.peers = relay.state.peers)
      (hassign : st'.roomAssignments = relay.state.roomAssignments) (hrooms : st'.rooms = relay.state.rooms)
      (hnext : st'.nextIndex = relay.state.nextIndex) (hevent : event.callsRoom = false)
      (hindex : st'.indexToPeer = relay.state.indexToPeer) (hgames : GameStep relay.state st') : StateStep relay event st'
  | revoke (q : String) : StateStep relay (.revokePeer q) (relay.state.revokePeer q)
  | join (q : String) (device : Option DeviceId) (room : String) :
      StateStep relay (.joinRoomEndpoint q device room) (relay.state.joinRoomEndpoint q device room)
  | leave (q : String) (device : Option DeviceId) :
      StateStep relay (.leaveRoomEndpoint q device) (relay.state.leaveRoomEndpoint q device)
  | register {connection : Nat} {p : String} {device : Option DeviceId} (welcomed : Bool)
      (htask : relay.tasks.lookup connection = some ⟨p, device, .admitted⟩) :
      StateStep relay (.register connection welcomed) (relay.state.registerConnection p device connection).2
  | write {connection : Nat} {p : String} {device : Option DeviceId} {write : Write}
      (htask : relay.tasks.lookup connection = some ⟨p, device, .writing write⟩) :
      StateStep relay (.write connection) (relay.state.applyWrite (p, device) write)
  | disconnect {connection : Nat} {p : String} {device : Option DeviceId}
      (htask : relay.tasks.lookup connection = some ⟨p, device, .serving⟩)
      (hregistered : (relay.state.peers.getEndpoint p device).any (fun peer => peer.connection == connection) = true) :
      StateStep relay (.disconnect connection) (relay.state.removeEndpoint p device)
  | cleanup : StateStep relay .cleanup (relay.state.cleanupStalePeers relay.closed)

theorem registerConnection_full {st st' : RelayState} {p : String} {device : Option DeviceId} {connection : Nat}
    (h : st.registerConnection p device connection = (.full, st')) : st' = st := by
  unfold RelayState.registerConnection at h
  dsimp only at h
  split at h
  · exact (Prod.mk.inj h).2.symm
  · split at h
    · cases h
    · split at h
      · cases h
      · cases h

variable {C : Crates} {relay relay' : Server} {event : Event}

theorem Server.accept_cases {connection : Nat} {cn : String} (h : relay.accept connection cn = some relay') :
    relay'.state = relay.state ∧ (relay'.tasks = relay.tasks ∨ ∃ p device, trimEndMatches '=' p = p ∧
      relay'.tasks = relay.tasks.insert connection ⟨p, device, .admitted⟩) := by
  unfold Server.accept at h
  split at h
  · cases h
  · split at h
    · cases h
      exact ⟨rfl, Or.inl rfl⟩
    · rename_i p device hcn
      split at h
      · cases h
        exact ⟨rfl, Or.inl rfl⟩
      · split at h
        · cases h
          exact ⟨rfl, Or.inr ⟨p, device, trimEndMatches_of_cn hcn, rfl⟩⟩
        · cases h
          exact ⟨rfl, Or.inl rfl⟩

theorem Server.register_cases (connection : Nat) (task : Task) (welcomed : Bool) :
    (relay.register connection task welcomed).state = (relay.state.registerConnection task.peerId task.device connection).2 ∧
      ((relay.register connection task welcomed).tasks = relay.tasks.erase connection ∨
        (relay.register connection task welcomed).tasks = relay.tasks.insert connection { task with phase := .serving }) := by
  unfold Server.register
  dsimp only
  split
  · rename_i state hreg
    rw [hreg]
    exact ⟨(registerConnection_full hreg).symm, Or.inl rfl⟩
  · rename_i state hreg
    rw [hreg]
    exact ⟨rfl, Or.inl rfl⟩
  · rename_i state hreg
    rw [hreg]
    exact ⟨rfl, Or.inl rfl⟩
  · rename_i index state hreg
    rw [hreg]
    cases welcomed with
    | true => exact ⟨rfl, Or.inr rfl⟩
    | false => exact ⟨rfl, Or.inl rfl⟩

theorem relayStep_state (hstep : relayStep C relay event = some relay') : StateStep relay event relay'.state := by
  cases event with
  | allowPeer q =>
    cases hstep
    exact .quiet rfl rfl rfl rfl rfl rfl (.same rfl rfl)
  | allowPeerUpdate q =>
    cases hstep
    exact .quiet rfl rfl rfl rfl rfl rfl (.same rfl rfl)
  | allowPortalPeer q =>
    cases hstep
    exact .quiet rfl rfl rfl rfl rfl rfl (.same rfl rfl)
  | revokePeer q =>
    cases hstep
    exact .revoke q
  | joinRoomEndpoint q device room =>
    cases hstep
    exact .join q device room
  | leaveRoomEndpoint q device =>
    cases hstep
    exact .leave q device
  | joinGameSession q session =>
    cases hstep
    obtain ⟨hpeers, hassign, hrooms, hnext, hindex⟩ := joinGameSession_eq relay.state q session
    exact .quiet hpeers hassign hrooms hnext rfl hindex (.join q session)
  | leaveGameSession q =>
    cases hstep
    obtain ⟨hpeers, hassign, hrooms, hnext, hindex⟩ := leaveGameSession_eq relay.state q
    exact .quiet hpeers hassign hrooms hnext rfl hindex (.leave q)
  | setVideoSubscriptions subscriber senders =>
    cases hstep
    exact .quiet rfl rfl rfl rfl rfl rfl (.same rfl rfl)
  | accept connection cn =>
    rw [(Server.accept_cases hstep).1]
    exact .quiet rfl rfl rfl rfl rfl rfl (.same rfl rfl)
  | register connection welcomed =>
    simp only [relayStep] at hstep
    split at hstep
    · rename_i p device htask
      cases hstep
      rw [(Server.register_cases connection _ welcomed).1]
      exact .register welcomed htask
    · cases hstep
  | receive connection data =>
    simp only [relayStep] at hstep
    split at hstep
    · cases hstep
      exact .quiet rfl rfl rfl rfl rfl rfl (.same rfl rfl)
    · cases hstep
  | handle connection gates =>
    simp only [relayStep] at hstep
    split at hstep
    · cases hstep
      exact .quiet rfl rfl rfl rfl rfl rfl (.same rfl rfl)
    · cases hstep
  | write connection =>
    simp only [relayStep] at hstep
    split at hstep
    · rename_i p device write htask
      cases hstep
      exact .write htask
    · cases hstep
  | close connection =>
    cases hstep
    exact .quiet rfl rfl rfl rfl rfl rfl (.same rfl rfl)
  | disconnect connection =>
    simp only [relayStep] at hstep
    split at hstep
    · rename_i p device htask
      cases hstep
      unfold Server.disconnect
      dsimp only
      split
      · rename_i hregistered
        exact .disconnect htask hregistered
      · exact .quiet rfl rfl rfl rfl rfl rfl (.same rfl rfl)
    · cases hstep
  | cleanup =>
    cases hstep
    exact .cleanup

/-- **What a step does to the tasks**: at most one goes on, and only the handling of a datagram leaves it something to write. -/
inductive TaskStep (C : Crates) (relay : Server) : Event → HashMap Nat Task → Prop where
  | same {event : Event} : TaskStep C relay event relay.tasks
  | ends {event : Event} (connection : Nat) : TaskStep C relay event (relay.tasks.erase connection)
  | goesOn {event : Event} {connection : Nat} {task : Task} (htrim : trimEndMatches '=' task.peerId = task.peerId)
      (hcalm : ∀ write, task.phase ≠ .writing write) : TaskStep C relay event (relay.tasks.insert connection task)
  | handles {connection : Nat} {gates : Gates} {p : String} {device : Option DeviceId} {data : List UInt8}
      (htask : relay.tasks.lookup connection = some ⟨p, device, .handling data⟩) :
      TaskStep C relay (.handle connection gates) (relay.tasks.insert connection
        ⟨p, device, (relay.state.handleDatagram C gates (p, device) connection data).2.elim .serving .writing⟩)

theorem relayStep_tasks (h : Trimmed relay) (hstep : relayStep C relay event = some relay') :
    TaskStep C relay event relay'.tasks := by
  cases event with
  | accept connection cn =>
    obtain ⟨-, htasks | ⟨p, device, hp, htasks⟩⟩ := Server.accept_cases hstep
    · rw [htasks]
      exact .same
    · rw [htasks]
      exact .goesOn hp fun write hphase => by cases hphase
  | register connection welcomed =>
    simp only [relayStep] at hstep
    split at hstep
    · rename_i p device htask
      cases hstep
      obtain ⟨-, htasks | htasks⟩ := Server.register_cases connection ⟨p, device, .admitted⟩ welcomed
      · rw [htasks]
        exact .ends connection
      · rw [htasks]
        exact .goesOn (h.peerId htask) fun write hphase => by cases hphase
    · cases hstep
  | receive connection data =>
    simp only [relayStep] at hstep
    split at hstep
    · rename_i p device htask
      cases hstep
      refine .goesOn (h.peerId htask) fun write hphase => ?_
      dsimp only at hphase
      split at hphase
      · cases hphase
      · cases hphase
    · cases hstep
  | handle connection gates =>
    simp only [relayStep] at hstep
    split at hstep
    · rename_i p device data htask
      cases hstep
      exact .handles htask
    · cases hstep
  | write connection =>
    simp only [relayStep] at hstep
    split at hstep
    · rename_i p device write htask
      cases hstep
      exact .goesOn (h.peerId htask) fun write hphase => by cases hphase
    · cases hstep
  | disconnect connection =>
    simp only [relayStep] at hstep
    split at hstep
    · cases hstep
      exact .ends connection
    · cases hstep
  | _ =>
    cases hstep
    exact .same

theorem Trimmed.step (h : Trimmed relay) (hstep : relayStep C relay event = some relay') : Trimmed relay' := by
  intro connection task htask
  generalize htasks : relay'.tasks = tasks at htask
  cases htasks ▸ relayStep_tasks h hstep with
  | same => exact h connection task htask
  | ends c => exact h.erase htasks connection task (htasks ▸ htask)
  | goesOn htrim _ => exact h.insert htrim htasks connection task (htasks ▸ htask)
  | handles hhandled =>
    refine h.insert ?_ htasks connection task (htasks ▸ htask)
    exact h.peerId hhandled

/-! ## A small relay -/

/-- A key of 32 equal bytes. -/
def sampleKey (n : UInt8) : List UInt8 := List.replicate 32 n

def sampleDevice (n : UInt8) : DeviceId := ⟨sampleKey n, length_equalBytes n⟩

/-- An identity, and the CN of one of its devices. -/
def samplePeer : String := Codec.b64urlEncode (sampleKey 7)

def sampleCn (n : UInt8) : String := Codec.hexEncode (sampleKey 7) ++ "." ++ Codec.b64urlEncode (sampleKey n)

end DoubleSlash.Relay
