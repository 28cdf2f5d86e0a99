import DoubleSlash.Lemmas.Relay
import DoubleSlash.Lib.Run

/-!
# Who places an endpoint in a room

An endpoint's room is the one its last join named, and rooms are not crossed, as long as two paths are not taken that place an
endpoint without a join: a legacy connection that is looked up among the members of the rooms, and a frame of room audio that heals
the room of its sender.
-/

namespace DoubleSlash.Relay

open Assoc Text Tls Run

/-- What an event calls for an endpoint: a join of a room, or a leave. -/
def callFor (p : String) (device : Option DeviceId) : Event → Option (Option String)
  | .joinRoomEndpoint q device' room => if trimEndMatches '=' q = p ∧ device' = device then some (some room) else none
  | .leaveRoomEndpoint q device' => if trimEndMatches '=' q = p ∧ device' = device then some none else none
  | _ => none

/-- The last of the calls for an endpoint. -/
def lastCall (acts : List Event) (p : String) (device : Option DeviceId) : Option (Option String) :=
  (acts.filterMap (callFor p device)).getLast?

/-- Every placed endpoint was last called to join the room it is in. -/
def PlacedByJoin (acts : List Event) (st : RelayState) : Prop :=
  ∀ p device peer room, st.peers.getEndpoint p device = some peer → peer.roomId = some room →
    lastCall acts (trimEndMatches '=' p) device = some (some room)

/-- Outside game sessions a datagram goes from an endpoint to one that was last called to join the same room. -/
def WithinRooms (acts : List Event) (relay : Server) (event : Event) (relay' : Server) : Prop :=
  ∀ connection gates p device phase, event = .handle connection gates → relay.tasks.lookup connection = some ⟨p, device, phase⟩ →
    ∀ lane target bytes, .forward lane target bytes ∈ relay'.sent → lane ≠ .game →
      ∃ room, lastCall acts p device = some (some room) ∧ lastCall acts (trimEndMatches '=' target.1) target.2 = some (some room)

/-! ## The condition -/

/-- The task handles a frame of room audio that names a room, from an endpoint that has none. -/
def Heals (C : Crates) (relay : Server) (connection : Nat) (gates : Gates) : Prop :=
  ∃ p device payload sending room,
    relay.tasks.lookup connection = some ⟨p, device, .handling (broadcastIndex :: payload)⟩ ∧
    (relayDatagramFeature payload).1 = "room.audio.sfu" ∧ gates.inbound "room.audio.sfu" p payload.length = true ∧
    gates.roomAudioBridge = true ∧ relay.state.peers.getEndpoint p device = some sending ∧ sending.connection = connection ∧
    sending.roomId = none ∧ roomIdFromRoomAudioPayload C payload = some room

/-- The task registers a legacy connection that has no room of its own, while some room has its identity among its members. -/
def FoundInRoom (relay : Server) (connection : Nat) : Prop :=
  ∃ p room, relay.tasks.lookup connection = some ⟨p, none, .admitted⟩ ∧ relay.state.placedIn p none = none ∧
    relay.state.roomAssignments.getEndpoint p none = none ∧ p ∈ SetMap.members relay.state.rooms room

/-- The step takes neither of the paths that place an endpoint without a join. -/
def PlacesNobody (C : Crates) (relay : Server) (event : Event) : Prop :=
  match event with
  | .handle connection gates => ¬Heals C relay connection gates
  | .register connection _ => ¬FoundInRoom relay connection
  | _ => True

namespace RelayPlacementAux

open RelayState

theorem lastCall_append (acts : List Event) (event : Event) (p : String) (device : Option DeviceId) :
    lastCall (acts ++ [event]) p device = (callFor p device event).elim (lastCall acts p device) some := by
  unfold lastCall
  rw [List.filterMap_append]
  cases hcall : callFor p device event with
  | none => simp [hcall]
  | some call => simp [hcall]

theorem lastCall_quiet {event : Event} (h : event.callsRoom = false) (acts : List Event) (p : String) (device : Option DeviceId) :
    lastCall (acts ++ [event]) p device = lastCall acts p device := by
  rw [lastCall_append]
  cases event with
  | joinRoomEndpoint q device' room => cases h
  | leaveRoomEndpoint q device' => cases h
  | _ => rfl

/-- What holds for one identity: its assignments are its last joins, and its endpoints are where they are assigned. -/
structure PlacedAt (acts : List Event) (st : RelayState) (key : String) : Prop where
  keyed : ∀ device, ((st.peers.slots.lookup (key, device)).isSome = true ∨
    (st.roomAssignments.slots.lookup (key, device)).isSome = true) → identityKey (trimEndMatches '=' key) = key
  assigned : ∀ device room, st.roomAssignments.slots.lookup (key, device) = some room →
    lastCall acts (trimEndMatches '=' key) device = some (some room)
  placed : ∀ device peer room, st.peers.slots.lookup (key, device) = some peer → peer.roomId = some room →
    st.roomAssignments.slots.lookup (key, device) = some room

/-- What holds along the runs. -/
def Placed (acts : List Event) (st : RelayState) : Prop := ∀ key, PlacedAt acts st key

variable {acts acts' : List Event} {st st' : RelayState} {p : String} {device : Option DeviceId}

/-- An operation on one identity keeps the placements right when it does so for that identity. -/
theorem Placed.own (h : Placed acts st) (hp : trimEndMatches '=' p = p) (hframe : Frame p st st')
    (hcalls : ∀ q device, q ≠ p → lastCall acts' q device = lastCall acts q device)
    (hassigned : ∀ device room, st'.roomAssignments.slots.lookup (identityKey p, device) = some room →
      lastCall acts' p device = some (some room))
    (hplaced : ∀ device peer room, st'.peers.slots.lookup (identityKey p, device) = some peer → peer.roomId = some room →
      st'.roomAssignments.slots.lookup (identityKey p, device) = some room) : Placed acts' st' := by
  intro key
  by_cases hkey : key = identityKey p
  · subst hkey
    constructor
    · intro device _
      rw [trimEndMatches_identityKey, hp]
    · intro device room hroom
      rw [trimEndMatches_identityKey, hp]
      exact hassigned device room hroom
    · exact hplaced
  · have hat := h key
    have hpeers : ∀ device, st'.peers.slots.lookup (key, device) = st.peers.slots.lookup (key, device) :=
      fun device => hframe.peers (key, device) hkey
    have hassign : ∀ device, st'.roomAssignments.slots.lookup (key, device) = st.roomAssignments.slots.lookup (key, device) :=
      fun device => hframe.assignments (key, device) hkey
    constructor
    · intro device
      rw [hpeers, hassign]
      exact hat.keyed device
    · intro device room hroom
      rw [hassign] at hroom
      have hkeyed := hat.keyed device (Or.inr (by rw [hroom]; rfl))
      have hother : trimEndMatches '=' key ≠ p := by
        intro heq
        rw [heq] at hkeyed
        exact hkey hkeyed.symm
      rw [hcalls _ _ hother]
      exact hat.assigned device room hroom
    · intro device peer room hpeer hroom
      rw [hpeers] at hpeer
      rw [hassign]
      exact hat.placed device peer room hpeer hroom

theorem Placed.assigned (h : Placed acts st) (hp : trimEndMatches '=' p = p) {room : String}
    (hroom : st.roomAssignments.slots.lookup (identityKey p, device) = some room) : lastCall acts p device = some (some room) := by
  have := (h (identityKey p)).assigned device room hroom
  rwa [trimEndMatches_identityKey, hp] at this

theorem Placed.leave (h : Placed acts st) (hp : trimEndMatches '=' p = p) (hleft : st.Left p device st')
    (hcalls : ∀ q sibling, ¬(q = p ∧ sibling = device) → lastCall acts' q sibling = lastCall acts q sibling) : Placed acts' st' := by
  apply h.own hp hleft.frame (fun q sibling hq => hcalls q sibling fun heq => hq heq.1)
  · intro sibling room hroom
    rw [hleft.assignments] at hroom
    split at hroom
    · cases hroom
    · rename_i hslot
      rw [hcalls p sibling fun heq => hslot (by rw [heq.2])]
      exact h.assigned hp hroom
  · intro sibling peer room hpeer hroom
    rw [hleft.peers] at hpeer
    split at hpeer
    · obtain ⟨peer', -, rfl⟩ := Option.map_eq_some_iff.mp hpeer
      cases hroom
    · rename_i hslot
      rw [hleft.assignments, if_neg hslot]
      exact (h _).placed sibling peer room hpeer hroom

theorem Placed.join (h : Placed acts st) (hp : trimEndMatches '=' p = p) {room : String} (hjoined : st.Joined p device room st')
    (hown : lastCall acts' p device = some (some room))
    (hcalls : ∀ q sibling, ¬(q = p ∧ sibling = device) → lastCall acts' q sibling = lastCall acts q sibling) : Placed acts' st' := by
  apply h.own hp hjoined.frame (fun q sibling hq => hcalls q sibling fun heq => hq heq.1)
  · intro sibling room' hroom
    rw [hjoined.assignments] at hroom
    split at hroom
    · rename_i hslot
      rw [(Prod.mk.inj hslot).2, ← Option.some.inj hroom]
      exact hown
    · rename_i hslot
      rw [hcalls p sibling fun heq => hslot (by rw [heq.2])]
      exact h.assigned hp hroom
  · intro sibling peer room' hpeer hroom
    rw [hjoined.peers] at hpeer
    rw [hjoined.assignments]
    split at hpeer
    · rename_i hslot
      obtain ⟨peer', -, rfl⟩ := Option.map_eq_some_iff.mp hpeer
      rw [if_pos hslot]
      exact hroom
    · rename_i hslot
      rw [if_neg hslot]
      exact (h _).placed sibling peer room' hpeer hroom

/-- A join that is refused finds the endpoint unassigned, and so it is in no room. -/
theorem Placed.refused (h : Placed acts st) (hp : trimEndMatches '=' p = p) {room : String}
    (hrefused : st.roomAssignments.register p device room = none)
    (hcalls : ∀ q sibling, ¬(q = p ∧ sibling = device) → lastCall acts' q sibling = lastCall acts q sibling) : Placed acts' st := by
  have hnone : st.roomAssignments.slots.lookup (identityKey p, device) = none := by
    rw [← Option.not_isSome_iff_eq_none, AList.lookup_isSome]
    intro hmem
    have hsome := DeviceRoutes.register_isSome_of_mem room hmem
    rw [hrefused] at hsome
    cases hsome
  apply h.own hp (Frame.refl p st) (fun q sibling hq => hcalls q sibling fun heq => hq heq.1)
  · intro sibling room' hroom
    have hsibling : sibling ≠ device := by
      rintro rfl
      rw [hnone] at hroom
      cases hroom
    rw [hcalls p sibling fun heq => hsibling heq.2]
    exact h.assigned hp hroom
  · exact fun sibling peer room' hpeer hroom => (h _).placed sibling peer room' hpeer hroom

theorem Placed.remove (h : Placed acts st) (hp : trimEndMatches '=' p = p) (device : Option DeviceId) :
    Placed acts (st.removeEndpoint p device) := by
  apply h.own hp (frame_removeEndpoint st p device) (fun _ _ _ => rfl)
  · intro sibling room hroom
    exact h.assigned hp ((lookup_removeEndpoint_assignments st p device _ _).mp hroom).1
  · intro sibling peer room hpeer hroom
    rw [lookup_removeEndpoint_peers] at hpeer
    split at hpeer
    · cases hpeer
    · rename_i hslot
      have hsibling : sibling ≠ device := fun heq => hslot (by rw [heq])
      have hassign := (h _).placed sibling peer room hpeer hroom
      exact (lookup_removeEndpoint_assignments st p device _ _).mpr ⟨hassign, hslot, fun _ _ => ⟨sibling, hsibling, peer, hpeer⟩⟩

theorem Placed.removePeer (h : Placed acts st) (hp : trimEndMatches '=' p = p) : Placed acts (st.removePeer p) := by
  apply h.own hp (frame_removePeer st p) (fun _ _ _ => rfl)
  · intro device room hroom
    rw [(removePeer_none st p device).2] at hroom
    cases hroom
  · intro device peer room hpeer
    rw [(removePeer_none st p device).1] at hpeer
    cases hpeer

theorem Placed.removeAll (h : Placed acts st) (stale : List (String × Option DeviceId))
    (htrim : ∀ e ∈ stale, trimEndMatches '=' e.1 = e.1) : Placed acts (stale.foldl (fun st e => st.removeEndpoint e.1 e.2) st) := by
  induction stale generalizing st with
  | nil => exact h
  | cons e rest ih =>
    have htrim' : ∀ e' ∈ rest, trimEndMatches '=' e'.1 = e'.1 := fun e' he' => htrim e' (List.mem_cons_of_mem _ he')
    exact ih (h.remove (htrim e List.mem_cons_self) e.2) htrim'

/-- Placements are all that matters. -/
theorem Placed.congr (h : Placed acts st) (hpeers : st'.peers = st.peers) (hassign : st'.roomAssignments = st.roomAssignments)
    (hcalls : ∀ q device, lastCall acts' q device = lastCall acts q device) : Placed acts' st' := by
  intro key
  constructor
  · rw [hpeers, hassign]
    exact (h key).keyed
  · intro device room hroom
    rw [hassign] at hroom
    rw [hcalls]
    exact (h key).assigned device room hroom
  · rw [hpeers, hassign]
    exact (h key).placed

/-- A registration puts the endpoint where it was or is assigned, unless it is found among the members of a room. -/
theorem Placed.register (h : Placed acts st) (hp : trimEndMatches '=' p = p) (hreg : st.Registering p device st')
    (hfound : ∀ room, device = none → st.placedIn p device = none →
      st.roomAssignments.slots.lookup (identityKey p, device) = none → p ∉ SetMap.members st.rooms room) : Placed acts st' := by
  apply h.own hp hreg.frame (fun _ _ _ => rfl)
  · intro sibling room hroom
    rw [hreg.assignments] at hroom
    exact h.assigned hp hroom
  · intro sibling peer room hpeer hroom
    rw [hreg.assignments]
    by_cases hsibling : sibling = device
    · subst hsibling
      obtain hold | hnew := hreg.own peer hpeer
      · exact (h _).placed sibling peer room hold hroom
      · rw [hnew] at hroom
        obtain ⟨prior, hprior, heq⟩ | ⟨-, assigned, hassign, heq⟩ | ⟨hprior, hassign, heq⟩ := existingRoom_cases st p sibling
        · obtain ⟨old, hold, holdroom⟩ := Option.bind_eq_some_iff.mp hprior
          rw [heq] at hroom
          rw [← hroom]
          exact (h _).placed sibling old prior hold holdroom
        · rw [heq] at hroom
          rw [← hroom]
          exact hassign
        · rw [heq] at hroom
          split at hroom
          · rename_i hlegacy
            obtain ⟨e, he, -⟩ := Option.map_eq_some_iff.mp hroom
            have hmem := (mem_members_softReplace st p sibling p e.1).mp (SetMap.mem_of_find he)
            rw [hprior] at hmem
            have hin := hmem.resolve_right fun hplaced => by cases hplaced.2
            exact absurd hin (hfound e.1 (Option.isNone_iff_eq_none.mp hlegacy) hprior hassign)
          · cases hroom
    · rw [hreg.siblings sibling hsibling] at hpeer
      exact (h _).placed sibling peer room hpeer hroom

theorem Placed.count (h : Placed acts st) (hp : trimEndMatches '=' p = p) (relayed : Nat) :
    Placed acts (st.applyWrite (p, device) (.count relayed)) := by
  have hpeers : ∀ slot, (st.applyWrite (p, device) (.count relayed)).peers.slots.lookup slot =
      if slot = (identityKey p, device)
      then (st.peers.slots.lookup slot).map fun peer => { peer with bytesRelayed := peer.bytesRelayed + relayed }
      else st.peers.slots.lookup slot := fun slot => DeviceRoutes.lookup_modifyEndpoint _ _ _ _ slot
  have hframe : Frame p st (st.applyWrite (p, device) (.count relayed)) := by
    constructor
    · intro slot hslot
      rw [hpeers, if_neg fun heq => hslot (congrArg Prod.fst heq)]
    · exact fun _ _ => rfl
    · exact fun _ _ _ => Iff.rfl
  apply h.own hp hframe (fun _ _ _ => rfl)
  · exact fun sibling room hroom => h.assigned hp hroom
  · intro sibling peer room hpeer hroom
    rw [hpeers] at hpeer
    split at hpeer
    · obtain ⟨peer', hpeer', rfl⟩ := Option.map_eq_some_iff.mp hpeer
      exact (h _).placed sibling peer' room hpeer' hroom
    · exact (h _).placed sibling peer room hpeer hroom

/-! ## Datagrams -/

variable {C : Crates} {G : Gates} {relay relay' : Server} {event : Event}

theorem countOf_ne_heal {sent : List Sent} {fwd : List UInt8} {room : String} : countOf sent fwd ≠ some (.heal room) := by
  unfold countOf
  split
  · exact fun h => by cases h
  · exact fun h => by cases h

/-- Only a frame of room audio heals. -/
theorem heal_inv {sender : String × Option DeviceId} {connection : Nat} {data : List UInt8} {room : String}
    (h : (st.handleDatagram C G sender connection data).2 = some (.heal room)) :
    ∃ payload sending, data = broadcastIndex :: payload ∧ (relayDatagramFeature payload).1 = "room.audio.sfu" ∧
      G.inbound "room.audio.sfu" sender.1 payload.length = true ∧ G.roomAudioBridge = true ∧
      st.peers.getEndpoint sender.1 sender.2 = some sending ∧ sending.connection = connection ∧ sending.roomId = none ∧
      roomIdFromRoomAudioPayload C payload = some room := by
  unfold handleDatagram at h
  cases data with
  | nil => cases h
  | cons target payload =>
    simp only [parseDatagram] at h
    split at h
    · cases h
    · rename_i hquota
      split at h
      · cases h
      · rename_i sending hsending
        split at h
        · cases h
        · rename_i hconnection
          split at h
          · rename_i haudio
            obtain ⟨rfl, hfeature, hbridge⟩ := haudio
            obtain ⟨healed, hhealed, heq⟩ := Option.map_eq_some_iff.mp h
            cases heq
            unfold healedRoom at hhealed
            split at hhealed
            · rename_i hnone
              have hgate : G.inbound "room.audio.sfu" sender.1 payload.length = true := by
                cases payload with
                | nil => exact absurd hfeature (by decide)
                | cons tag rest =>
                  rw [hfeature] at hquota
                  simpa [relayDatagramFeature] using hquota
              exact ⟨payload, sending, rfl, hfeature, hgate, hbridge, hsending, not_not.mp hconnection,
                Option.isNone_iff_eq_none.mp hnone, hhealed⟩
            · cases hhealed
          · split at h
            · exact absurd h countOf_ne_heal
            · exact absurd h countOf_ne_heal

theorem mem_fanOut {feature : String} {lane lane' : Lane} {fwd bytes : List UInt8} {target : String × Option DeviceId}
    {targets : List ((String × Option DeviceId) × RelayPeer)} {eligible : String × Option DeviceId → RelayPeer → Bool}
    (h : .forward lane target bytes ∈ fanOut G feature lane' fwd targets eligible) :
    lane = lane' ∧ ∃ member, (target, member) ∈ targets ∧ eligible target member = true := by
  obtain ⟨⟨target', member⟩, hmem, heq⟩ := List.mem_map.mp h
  cases heq
  obtain ⟨hmem, heligible⟩ := List.mem_filter.mp hmem
  rw [Bool.and_eq_true] at heligible
  exact ⟨rfl, member, hmem, heligible.1⟩

theorem mem_endpointsOf {members : Finset String} {target : String × Option DeviceId} {member : RelayPeer}
    (h : (target, member) ∈ st.endpointsOf members) : st.peers.getEndpoint target.1 target.2 = some member := by
  obtain ⟨memberId, -, hmem⟩ := List.mem_flatMap.mp h
  obtain ⟨e, he, heq⟩ := List.mem_map.mp hmem
  cases heq
  exact DeviceRoutes.mem_endpoints.mp he

/-- The room broadcast reaches endpoints of the sender's room. -/
theorem roomBroadcast_inv {sender target : String × Option DeviceId} {sending : RelayPeer} {feature : String}
    {payload bytes : List UInt8} {lane : Lane} (h : .forward lane target bytes ∈ st.roomBroadcast G sender sending feature payload) :
    ∃ member room, sending.roomId = some room ∧ st.peers.getEndpoint target.1 target.2 = some member ∧
      member.roomId = some room := by
  unfold roomBroadcast at h
  split at h
  · cases h
  · rename_i room hroom
    obtain ⟨-, member, hmem, heligible⟩ := mem_fanOut h
    rw [Bool.and_eq_true, Bool.and_eq_true, decide_eq_true_eq, decide_eq_true_eq] at heligible
    exact ⟨member, room, hroom, mem_endpointsOf hmem, heligible.1.2⟩

/-- So does the forward to one index. -/
theorem pointToPoint_inv {target : String × Option DeviceId} {sending : RelayPeer} {index : UInt8} {feature : String}
    {payload bytes : List UInt8} {lane : Lane} (h : .forward lane target bytes ∈ st.pointToPoint G sending index feature payload) :
    ∃ member room, sending.roomId = some room ∧ st.peers.getEndpoint target.1 target.2 = some member ∧
      member.roomId = some room := by
  unfold pointToPoint at h
  split at h
  · cases h
  · rename_i target' htarget
    split at h
    · cases h
    · rename_i member hmember
      obtain ⟨-, member', hmem, heligible⟩ := mem_fanOut h
      obtain ⟨rfl, rfl⟩ := Prod.mk.inj (List.mem_singleton.mp hmem)
      rw [Bool.and_eq_true, decide_eq_true_eq] at heligible
      obtain ⟨room, hroom⟩ := Option.isSome_iff_exists.mp heligible.1
      exact ⟨member', room, hroom, hmember, heligible.2.trans hroom⟩

/-- A forward outside game sessions stays in the sender's room. -/
theorem forward_inv {sender : String × Option DeviceId} {connection : Nat} {data : List UInt8} {lane : Lane}
    {target : String × Option DeviceId} {bytes : List UInt8}
    (h : .forward lane target bytes ∈ (st.handleDatagram C G sender connection data).1) (hlane : lane ≠ .game) :
    ∃ sending member room, st.peers.getEndpoint sender.1 sender.2 = some sending ∧ sending.roomId = some room ∧
      st.peers.getEndpoint target.1 target.2 = some member ∧ member.roomId = some room := by
  unfold handleDatagram at h
  cases data with
  | nil => cases h
  | cons index payload =>
    simp only [parseDatagram] at h
    split at h
    · cases h
    · split at h
      · cases h
      · rename_i sending hsending
        split at h
        · cases h
        · split at h
          · obtain ⟨room, -, heq⟩ := List.mem_map.mp h
            cases heq
          · split at h
            · obtain hsent | hbridge := List.mem_append.mp h
              · exact absurd (mem_fanOut hsent).1 hlane
              · split at hbridge
                · cases List.mem_singleton.mp hbridge
                · cases hbridge
            · obtain hsent | hbridge := List.mem_append.mp h
              · split at hsent
                · obtain ⟨member, room, hroom, hmember, hsame⟩ := roomBroadcast_inv hsent
                  exact ⟨sending, member, room, hsending, hroom, hmember, hsame⟩
                · obtain ⟨member, room, hroom, hmember, hsame⟩ := pointToPoint_inv hsent
                  exact ⟨sending, member, room, hsending, hroom, hmember, hsame⟩
              · split at hbridge
                · obtain ⟨room, -, heq⟩ := List.mem_map.mp hbridge
                  cases heq
                · cases hbridge

/-! ## Steps -/

/-- No task has a room to heal. -/
def Calm (relay : Server) : Prop :=
  ∀ connection p device room, relay.tasks.lookup connection ≠ some ⟨p, device, .writing (.heal room)⟩

theorem Calm.step (h : Calm relay) (htrimmed : Trimmed relay) (hc : PlacesNobody C relay event)
    (hstep : relayStep C relay event = some relay') : Calm relay' := by
  intro connection p device room htask
  generalize htasks : relay'.tasks = tasks at htask
  cases htasks ▸ relayStep_tasks htrimmed hstep with
  | same => exact h connection p device room htask
  | ends c =>
    by_cases heq : connection = c
    · subst heq
      rw [AList.lookup_erase] at htask
      cases htask
    · rw [AList.lookup_erase_ne heq] at htask
      exact h connection p device room htask
  | @goesOn _ c task _ hcalm =>
    by_cases heq : connection = c
    · subst heq
      rw [AList.lookup_insert] at htask
      cases htask
      exact hcalm _ rfl
    · rw [AList.lookup_insert_ne heq] at htask
      exact h connection p device room htask
  | @handles c gates q device' data hhandled =>
    by_cases heq : connection = c
    · subst heq
      rw [AList.lookup_insert] at htask
      have hphase := congrArg Task.phase (Option.some.inj htask)
      dsimp only at hphase
      cases hwrite : (relay.state.handleDatagram C gates (q, device') connection data).2 with
      | none =>
        rw [hwrite] at hphase
        cases hphase
      | some write =>
        rw [hwrite] at hphase
        cases hphase
        obtain ⟨payload, sending, rfl, hfeature, hgate, hbridge, hsending, hconn, hnone, hroom⟩ := heal_inv hwrite
        exact hc ⟨q, device', payload, sending, room, hhandled, hfeature, hgate, hbridge, hsending, hconn, hnone, hroom⟩
    · rw [AList.lookup_insert_ne heq] at htask
      exact h connection p device room htask

theorem Placed.step (h : Placed acts relay.state) (htrimmed : Trimmed relay) (hcalm : Calm relay) (hc : PlacesNobody C relay event)
    (hstep : StateStep relay event st') : Placed (acts ++ [event]) st' := by
  have htrim : ∀ q, trimEndMatches '=' (trimEndMatches '=' q) = trimEndMatches '=' q := trimEndMatches_idem '='
  have hquiet : ∀ {event : Event} {st' : RelayState}, event.callsRoom = false → Placed acts st' → Placed (acts ++ [event]) st' :=
    fun hevent hplaced => hplaced.congr rfl rfl fun q device => lastCall_quiet hevent acts q device
  cases hstep with
  | quiet hpeers hassign _ _ hevent _ _ => exact hquiet hevent (h.congr hpeers hassign fun _ _ => rfl)
  | revoke q =>
    have hallowed : Placed acts { relay.state with allowed := relay.state.allowed.erase (trimEndMatches '=' q) } :=
      h.congr rfl rfl fun _ _ => rfl
    exact hquiet rfl (hallowed.removePeer (htrim q))
  | join q device room =>
    have hown : lastCall (acts ++ [.joinRoomEndpoint q device room]) (trimEndMatches '=' q) device = some (some room) := by
      rw [lastCall_append, callFor, if_pos ⟨rfl, rfl⟩]
      rfl
    have hcalls : ∀ p sibling, ¬(p = trimEndMatches '=' q ∧ sibling = device) →
        lastCall (acts ++ [.joinRoomEndpoint q device room]) p sibling = lastCall acts p sibling := by
      intro p sibling hother
      rw [lastCall_append, callFor, if_neg fun heq => hother ⟨heq.1.symm, heq.2.symm⟩]
      rfl
    obtain ⟨hrefused, hsame⟩ | ⟨-, hjoined⟩ := joinRoomEndpoint_cases relay.state q device room
    · rw [hsame]
      exact h.refused (htrim q) hrefused hcalls
    · exact h.join (htrim q) hjoined hown hcalls
  | leave q device =>
    apply h.leave (htrim q) (leaveRoomEndpoint_spec relay.state q device)
    intro p sibling hother
    rw [lastCall_append, callFor, if_neg fun heq => hother ⟨heq.1.symm, heq.2.symm⟩]
    rfl
  | @register connection p device welcomed htask =>
    refine hquiet rfl (h.register (htrimmed.peerId htask) (registerConnection_registering relay.state p device connection) ?_)
    intro room hlegacy hprior hassign hmem
    subst hlegacy
    exact hc ⟨p, room, htask, hprior, hassign, hmem⟩
  | @write connection p device write htask =>
    cases write with
    | heal room => exact absurd htask (hcalm connection p device room)
    | count relayed => exact hquiet rfl (h.count (htrimmed.peerId htask) relayed)
  | disconnect htask _ => exact hquiet rfl (h.remove (htrimmed.peerId htask) _)
  | cleanup =>
    refine hquiet rfl (h.removeAll _ fun e he => ?_)
    obtain ⟨slot, -, rfl⟩ := List.mem_map.mp he
    exact htrim slot.1.1

theorem placed_new (ready : Bool) : Placed [] (RelayState.new ready) := by
  have hpeers : ∀ slot, (RelayState.new ready).peers.slots.lookup slot = none := fun slot => AList.lookup_empty slot
  have hassign : ∀ slot, (RelayState.new ready).roomAssignments.slots.lookup slot = none := fun slot => AList.lookup_empty slot
  intro key
  constructor
  · intro device h
    rw [hpeers, hassign] at h
    simp at h
  · intro device room h
    rw [hassign] at h
    cases h
  · intro device peer room h
    rw [hpeers] at h
    cases h

theorem Placed.byJoin (h : Placed acts st) : PlacedByJoin acts st := by
  intro p device peer room hpeer hroom
  have hat := h (identityKey p)
  have hcall := hat.assigned device room (hat.placed device peer room hpeer hroom)
  rwa [trimEndMatches_identityKey] at hcall

theorem Placed.withinRooms (h : Placed acts relay.state) (htrimmed : Trimmed relay)
    (hstep : relayStep C relay event = some relay') : WithinRooms acts relay event relay' := by
  intro connection gates p device phase hevent htask lane target bytes hsent hlane
  subst hevent
  simp only [relayStep] at hstep
  split at hstep
  · rename_i q device' data hhandled
    rw [hhandled] at htask
    cases htask
    cases hstep
    obtain ⟨sending, member, room, hsending, hroom, hmember, hsame⟩ := forward_inv hsent hlane
    have hfrom := h.byJoin p device sending room hsending hroom
    rw [htrimmed.peerId hhandled] at hfrom
    exact ⟨room, hfrom, h.byJoin target.1 target.2 member room hmember hsame⟩
  · cases hstep

end RelayPlacementAux

open RelayPlacementAux in
/-- **Only a join places an endpoint in a room.** In every run in which no legacy connection is found among the members of a room and
no frame of room audio heals its sender, a placed endpoint was last called to join the room it is in, and datagrams outside game
sessions go between endpoints that were last called to join the same room. -/
theorem placement_by_join (C : Crates) (ready : Bool) (acts : List Event) (relay : Server)
    (hmeets : Meets (relayStep C) (PlacesNobody C) (Server.new ready) acts)
    (hrun : run (relayStep C) (Server.new ready) acts = some relay) :
    PlacedByJoin acts relay.state ∧ ∀ event relay', relayStep C relay event = some relay' → WithinRooms acts relay event relay' := by
  have hinv : Placed acts relay.state ∧ Trimmed relay ∧ Calm relay := by
    have hcalm : Calm (Server.new ready) := by
      intro connection p device room htask
      rw [show (Server.new ready).tasks.lookup connection = none from AList.lookup_empty connection] at htask
      cases htask
    refine meets_history (fun acts relay => Placed acts relay.state ∧ Trimmed relay ∧ Calm relay)
      ⟨placed_new ready, trimmed_new ready, hcalm⟩ ?_ hmeets hrun
    rintro acts event relay relay' ⟨hplaced, htrimmed, hcalm⟩ hc hstep
    exact ⟨hplaced.step htrimmed hcalm hc (relayStep_state hstep), htrimmed.step hstep, hcalm.step htrimmed hc hstep⟩
  exact ⟨hinv.1.byJoin, fun event relay' hstep => hinv.1.withinRooms hinv.2.1 hstep⟩

/-- A device joins a room and then connects. -/
def lobbyRun : List Event :=
  [.allowPeer samplePeer, .joinRoomEndpoint samplePeer (some (sampleDevice 1)) "lobby", .accept 1 (sampleCn 1), .register 1 true]

/-- A device that joined a room and then connects is placed by its join. -/
theorem placement_by_join_sample :
    ∃ relay, run (relayStep ⟨fun _ => none⟩) (Server.new true) lobbyRun = some relay ∧
      relay.state.placedIn samplePeer (some (sampleDevice 1)) = some "lobby" ∧ PlacedByJoin lobbyRun relay.state := by
  have hplaced : (run (relayStep ⟨fun _ => none⟩) (Server.new true) lobbyRun).any (fun relay =>
      decide (relay.state.placedIn samplePeer (some (sampleDevice 1)) = some "lobby")) = true := by
    decide +kernel
  obtain ⟨relay, hrun, hrelay⟩ := (Option.any_eq_true _ _).mp hplaced
  refine ⟨relay, hrun, of_decide_eq_true hrelay, (placement_by_join _ _ _ relay ?_ hrun).1⟩
  refine ⟨trivial, fun relay₁ h₁ => ⟨trivial, fun relay₂ h₂ => ⟨trivial, fun relay₃ h₃ => ⟨?_, fun relay₄ _ => trivial⟩⟩⟩⟩
  have hdevice : ((relayStep ⟨fun _ => none⟩ (Server.new true) (.allowPeer samplePeer)).bind fun relay₁ =>
      (relayStep ⟨fun _ => none⟩ relay₁ (.joinRoomEndpoint samplePeer (some (sampleDevice 1)) "lobby")).bind fun relay₂ =>
      relayStep ⟨fun _ => none⟩ relay₂ (.accept 1 (sampleCn 1))).any
        (fun relay => (relay.tasks.lookup 1).any fun task => task.device.isSome) = true := by
    decide +kernel
  -- the registered connection is a device's, so that no room is searched for it
  rintro ⟨p, room, htask, -⟩
  rw [h₁, Option.bind_some, h₂, Option.bind_some, h₃, Option.any_some, htask] at hdevice
  cases hdevice

/-- The text of a frame of room audio, as far as the relay reads it. -/
def atticText : String := "\x7b\"payload\":\x7b\"room_id\":\"attic\"\x7d\x7d"

/-- The JSON reader on that text. -/
def atticCrates : Crates where
  fromStr text := if text = atticText then some (.object [("payload", .object [("room_id", .string "attic")])]) else none

/-- Gates that let everything through, the bridge of room audio installed. -/
def openGates : Gates where
  inbound _ _ _ := true
  outbound _ _ _ := true
  roomAudioBridge := true
  gameRelayBridge := false
  roomVideoBridge := false

/-- An endpoint that never joined a room broadcasts a frame of room audio that names one. -/
def atticRun : List Event :=
  [.allowPeer samplePeer, .accept 1 (sampleCn 1), .register 1 true,
    .receive 1 (broadcastIndex :: 0x04 :: Bytes.utf8 atticText), .handle 1 openGates, .write 1]

/-- **A datagram places its sender.** After one frame of room audio the endpoint is in the room the frame names; it was never
called to join any. -/
theorem placement_without_join :
    ∃ relay, run (relayStep atticCrates) (Server.new true) atticRun = some relay ∧ ¬PlacedByJoin atticRun relay.state := by
  have hplaced : (run (relayStep atticCrates) (Server.new true) atticRun).any (fun relay =>
      decide (relay.state.placedIn samplePeer (some (sampleDevice 1)) = some "attic")) = true := by
    decide +kernel
  obtain ⟨relay, hrun, hrelay⟩ := (Option.any_eq_true _ _).mp hplaced
  refine ⟨relay, hrun, fun hjoins => ?_⟩
  obtain ⟨peer, hpeer, hroom⟩ := Option.bind_eq_some_iff.mp (of_decide_eq_true hrelay)
  have hcall := hjoins samplePeer (some (sampleDevice 1)) peer "attic" hpeer hroom
  cases hcall

end DoubleSlash.Relay
