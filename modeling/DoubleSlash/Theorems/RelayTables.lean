import DoubleSlash.Lemmas.Relay
import DoubleSlash.Lib.Run

/-!
# The relay's indices and game sessions

A connected endpoint is addressed by one byte. The table of these bytes and the endpoints name each other, the search for a free one
ends, and a registration that gets one is carried through. The sessions of the games are kept in two tables that agree.
-/

namespace DoubleSlash.Relay

open Assoc Text Tls Run RelayState

/-- All 254 indices name an endpoint. -/
def AllInUse (st : RelayState) : Prop := ∀ i, InRange i → (st.indexToPeer.lookup i).isSome = true

/-- The search for a free index is over after one round, and fails exactly if there is none. -/
structure Allocates (st : RelayState) : Prop where
  none_iff : st.allocateIndex = none ↔ AllInUse st
  free : ∀ i st', st.allocateIndex = some (i, st') → InRange i ∧ st.indexToPeer.lookup i = none
  ends : ∀ fuel, 254 ≤ fuel → searchIndex (fun i => (st.indexToPeer.lookup i).isSome) st.nextIndex fuel st.nextIndex =
    searchIndex (fun i => (st.indexToPeer.lookup i).isSome) st.nextIndex 255 st.nextIndex

/-- A registration that has an index is carried through. One that gets none replaces no connection, and leaves everything as it
is. -/
structure Registers (st : RelayState) (p : String) (device : Option DeviceId) (connection : Nat) : Prop where
  through : (st.registerConnection p device connection).1 ≠ .routeLimit
  refused : (st.registerConnection p device connection).1 = .noIndices →
    AllInUse st ∧ st.peers.getEndpoint p device = none ∧ (st.registerConnection p device connection).2 = st

/-- The sessions and the peers' sessions name each other, and no session is empty. -/
structure SessionsAgree (st : RelayState) : Prop where
  agree : ∀ p session, st.peerGameSession.lookup p = some session ↔ p ∈ SetMap.members st.gameSessions session
  nonempty : SetMap.NoEmpty st.gameSessions

namespace RelayTablesAux

/-- The index of the endpoint in a slot. -/
def indexOf (st : RelayState) (slot : String × Option DeviceId) : Option UInt8 := (st.peers.slots.lookup slot).map RelayPeer.peerIndex

/-- The same by slots: what an index names is spelled as a certificate spells it. -/
structure Paired (st : RelayState) : Prop where
  named : ∀ slot i, indexOf st slot = some i →
    InRange i ∧ st.indexToPeer.lookup i = some (trimEndMatches '=' slot.1, slot.2) ∧ identityKey (trimEndMatches '=' slot.1) = slot.1
  held : ∀ i e, st.indexToPeer.lookup i = some e → indexOf st (identityKey e.1, e.2) = some i
  next : InRange st.nextIndex

variable {st st' : RelayState} {p : String} {device : Option DeviceId}

theorem indexOf_of_lookup {slot : String × Option DeviceId} {peer : RelayPeer} (h : st.peers.slots.lookup slot = some peer) :
    indexOf st slot = some peer.peerIndex := by
  rw [indexOf, h]
  rfl

theorem Paired.congr (h : Paired st) (hpeers : ∀ slot, indexOf st' slot = indexOf st slot)
    (hindex : st'.indexToPeer = st.indexToPeer) (hnext : st'.nextIndex = st.nextIndex) : Paired st' where
  named slot i hi := by
    rw [hpeers] at hi
    rw [hindex]
    exact h.named slot i hi
  held i e he := by
    rw [hindex] at he
    rw [hpeers]
    exact h.held i e he
  next := hnext ▸ h.next

/-- An endpoint goes with its index. -/
theorem Paired.drop (h : Paired st) {gone : String × Option DeviceId} {i : UInt8} (hi : indexOf st gone = some i)
    (hpeers : ∀ slot, indexOf st' slot = if slot = gone then none else indexOf st slot)
    (hindex : st'.indexToPeer = st.indexToPeer.erase i) (hnext : st'.nextIndex = st.nextIndex) : Paired st' where
  named slot j hj := by
    rw [hpeers] at hj
    split at hj
    · cases hj
    next hne =>
      obtain ⟨hrange, hlookup, hkey⟩ := h.named slot j hj
      have hij : j ≠ i := by
        rintro rfl
        obtain ⟨-, hlookup', hkey'⟩ := h.named gone j hi
        rw [hlookup, Option.some.injEq, Prod.mk.injEq] at hlookup'
        exact hne (Prod.ext (by rw [← hkey, ← hkey', hlookup'.1]) hlookup'.2)
      rw [hindex, AList.lookup_erase_ne hij]
      exact ⟨hrange, hlookup, hkey⟩
  held j e he := by
    rw [hindex] at he
    have hij : j ≠ i := by
      rintro rfl
      rw [AList.lookup_erase] at he
      cases he
    rw [AList.lookup_erase_ne hij] at he
    have hj := h.held j e he
    rw [hpeers, if_neg, hj]
    intro heq
    rw [heq, hi] at hj
    exact hij (Option.some.inj hj).symm
  next := hnext ▸ h.next

/-- An endpoint comes with a free index. -/
theorem Paired.add (h : Paired st) (hp : trimEndMatches '=' p = p) {i : UInt8} (hrange : InRange i)
    (hfree : st.indexToPeer.lookup i = none) (hnew : indexOf st (identityKey p, device) = none)
    (hpeers : ∀ slot, indexOf st' slot = if slot = (identityKey p, device) then some i else indexOf st slot)
    (hindex : st'.indexToPeer = st.indexToPeer.insert i (p, device)) (hnext : InRange st'.nextIndex) : Paired st' where
  named slot j hj := by
    rw [hpeers] at hj
    rw [hindex]
    split at hj
    next hslot =>
      cases hj
      subst hslot
      rw [AList.lookup_insert, trimEndMatches_identityKey, hp]
      exact ⟨hrange, rfl, rfl⟩
    next =>
      obtain ⟨hrange', hlookup, hkey⟩ := h.named slot j hj
      have hij : j ≠ i := by
        rintro rfl
        rw [hfree] at hlookup
        cases hlookup
      rw [AList.lookup_insert_ne hij]
      exact ⟨hrange', hlookup, hkey⟩
  held j e he := by
    rw [hindex] at he
    by_cases hij : j = i
    · subst hij
      rw [AList.lookup_insert] at he
      cases he
      rw [hpeers, if_pos rfl]
    · rw [AList.lookup_insert_ne hij] at he
      have hj := h.held j e he
      rw [hpeers, if_neg, hj]
      intro heq
      rw [heq, hnew] at hj
      cases hj
  next := hnext

/-! ### Removals -/

@[simp] theorem vacate_index (room : Option String) (except : Option (Option DeviceId)) :
    (st.vacate p room except).indexToPeer = st.indexToPeer := by
  rw [vacate_eq]

@[simp] theorem removeIdentityMembership_index : (st.removeIdentityMembership p).indexToPeer = st.indexToPeer := by
  unfold removeIdentityMembership dropGameSession
  dsimp only
  split
  · rfl
  · rfl

theorem Paired.remove (h : Paired st) : Paired (st.removeEndpoint p device) := by
  have hpeers : ∀ slot, indexOf (st.removeEndpoint p device) slot =
      if slot = (identityKey p, device) then none else indexOf st slot := by
    intro slot
    rw [indexOf, lookup_removeEndpoint_peers]
    split
    · rfl
    · rfl
  cases hpeer : st.peers.slots.lookup (identityKey p, device) with
  | none =>
    refine h.congr (fun slot => ?_) (by rw [removeEndpoint_of_none st p device hpeer]) (removeEndpoint_nextIndex st p device)
    rw [hpeers]
    split
    next hslot => rw [hslot, indexOf, hpeer, Option.map_none]
    next => rfl
  | some peer =>
    refine h.drop (indexOf_of_lookup hpeer) hpeers ?_ (removeEndpoint_nextIndex st p device)
    rw [removeEndpoint_of_some st p device hpeer]
    split
    · rw [vacate_index]
      rfl
    · rw [removeIdentityMembership_index, vacate_index]
      rfl

theorem Paired.removeAll (h : Paired st) (gone : List (String × Option DeviceId)) :
    Paired (gone.foldl (fun st e => st.removeEndpoint e.1 e.2) st) := by
  induction gone generalizing st with
  | nil => exact h
  | cons e gone ih => exact ih h.remove

theorem Paired.removePeer (h : Paired st) : Paired (st.removePeer p) := by
  have hremoved : ∀ devices : List (Option DeviceId), Paired (devices.foldl (fun st device => st.removeEndpoint p device) st) := by
    intro devices
    induction devices generalizing st with
    | nil => exact h
    | cons device devices ih => exact ih h.remove
  unfold RelayState.removePeer
  refine (hremoved _).congr (fun slot => ?_) removeIdentityMembership_index (removeIdentityMembership_nextIndex _ _)
  rw [indexOf, removeIdentityMembership_peers]
  rfl

/-! ### Rooms -/

/-- Where an endpoint is placed has nothing to do with its index. -/
theorem indexOf_modify {slot own : String × Option DeviceId} {f : RelayPeer → RelayPeer}
    (hpeers : st'.peers.slots.lookup slot = if slot = own then (st.peers.slots.lookup slot).map f else st.peers.slots.lookup slot)
    (hf : ∀ peer, (f peer).peerIndex = peer.peerIndex) :
    indexOf st' slot = indexOf st slot := by
  unfold indexOf
  rw [hpeers]
  split
  · rw [Option.map_map]
    congr 1
    funext peer
    exact hf peer
  · rfl

theorem Paired.join (h : Paired st) (room : String) : Paired (st.joinRoomEndpoint p device room) := by
  rcases joinRoomEndpoint_cases st p device room with ⟨-, hsame⟩ | ⟨-, hjoined⟩
  · rw [hsame]
    exact h
  · refine h.congr (fun slot => indexOf_modify (hjoined.peers slot) fun _ => rfl) ?_ hjoined.nextIndex
    unfold joinRoomEndpoint
    dsimp only
    split
    · rfl
    · exact vacate_index _ _

theorem Paired.leave (h : Paired st) : Paired (st.leaveRoomEndpoint p device) := by
  have hleft := leaveRoomEndpoint_spec st p device
  refine h.congr (fun slot => indexOf_modify (hleft.peers slot) fun _ => rfl) ?_ hleft.nextIndex
  exact vacate_index _ _

theorem Paired.write (h : Paired st) (write : Write) : Paired (st.applyWrite (p, device) write) := by
  cases write with
  | heal room =>
    exact h.congr (fun slot => indexOf_modify (DeviceRoutes.lookup_modifyEndpoint ..) fun _ => rfl) rfl rfl
  | count relayed =>
    exact h.congr (fun slot => indexOf_modify (DeviceRoutes.lookup_modifyEndpoint ..) fun _ => rfl) rfl rfl

/-! ### Registrations -/

theorem count_devices (routes : DeviceRoutes RelayPeer) (p : String) :
    ((routes.endpoints p).filter fun e => e.1.isSome).length = deviceSlots routes.slots (identityKey p) := by
  unfold DeviceRoutes.endpoints deviceSlots AList.keys
  rw [List.filter_map, List.length_map, List.filter_filter, List.keys, List.countP_map, List.countP_eq_length_filter]
  congr 1
  apply List.filter_congr
  intro e _
  exact Bool.and_comm _ _

/-- The table that is not full has a slot for the endpoint. -/
theorem register_isSome_of_notFull {peer : RelayPeer} (h : st.isFull p device = false) :
    (st.peers.register p device peer).isSome = true := by
  cases device with
  | none => rfl
  | some device =>
    unfold isFull at h
    rw [Bool.or_eq_false_iff, count_devices] at h
    have hslots : ¬Sfu.maxLiveDeviceRoutes ≤ deviceSlots st.peers.slots (identityKey p) := by simpa using h.2
    simp only [DeviceRoutes.register, DeviceRoutes.registerDevice]
    rw [dif_neg fun hfull => hslots hfull.2]
    rfl

theorem searchIndex_notTaken {taken : UInt8 → Bool} {start : UInt8} (fuel : Nat) (i j : UInt8)
    (h : searchIndex taken start fuel i = some j) : taken j = false := by
  induction fuel generalizing i with
  | zero => cases h
  | succ fuel ih =>
    unfold searchIndex at h
    split at h
    · split at h
      · cases h
      · exact ih _ h
    next hfree =>
      cases h
      exact Bool.eq_false_iff.mpr hfree

/-- The search that goes on for longer finds the same: it is back at its start after 254 steps. -/
theorem searchIndex_fuel {taken : UInt8 → Bool} {start : UInt8} (hstart : InRange start) (fuel more : Nat) (i : UInt8) (hi : InRange i)
    (hfuel : roundTo start (followingIndex i) < fuel) :
    searchIndex taken start (fuel + more) i = searchIndex taken start fuel i := by
  induction fuel generalizing i with
  | zero => omega
  | succ fuel ih =>
    rw [Nat.add_right_comm]
    unfold searchIndex
    split
    · split
      · rfl
      next hne =>
        obtain ⟨hnext, -⟩ := inRange_followingIndex hi
        obtain ⟨hafter, hvalue⟩ := inRange_followingIndex hnext
        have hother : (followingIndex i).toNat ≠ start.toNat := fun heq => hne (UInt8.toNat_inj.mp heq)
        refine ih _ hnext ?_
        obtain ⟨hn1, hn2⟩ := hnext
        obtain ⟨hs1, hs2⟩ := hstart
        unfold roundTo at hfuel ⊢
        rw [hvalue]
        split_ifs at hfuel ⊢ <;> omega
    · rfl

theorem roundTo_lt {target i : UInt8} (htarget : InRange target) (hi : InRange i) : roundTo target i < 254 := by
  obtain ⟨ht1, ht2⟩ := htarget
  obtain ⟨hi1, hi2⟩ := hi
  unfold roundTo
  split_ifs <;> omega

theorem allocates (hnext : InRange st.nextIndex) : Allocates st where
  none_iff := by
    unfold allocateIndex
    rw [Option.map_eq_none_iff]
    constructor
    · intro hnone i hi
      by_contra hfree
      have hfound := @searchIndex_isSome (fun i => (st.indexToPeer.lookup i).isSome) _ (Bool.eq_false_iff.mpr hfree) hi _ 255 st.nextIndex hnext
        (Nat.lt_succ_of_lt (roundTo_lt hi hnext)) (Nat.le_refl _)
      rw [hnone] at hfound
      cases hfound
    · intro hall
      by_contra hsome
      obtain ⟨i, hi⟩ := Option.ne_none_iff_exists'.mp hsome
      have hfree := searchIndex_notTaken _ _ _ hi
      rw [hall i (inRange_of_searchIndex _ _ _ hnext hi)] at hfree
      cases hfree
  free i st' h := by
    obtain ⟨j, hj, heq⟩ := Option.map_eq_some_iff.mp h
    cases heq
    exact ⟨inRange_of_searchIndex _ _ _ hnext hj, by simpa using searchIndex_notTaken _ _ _ hj⟩
  ends fuel hfuel := by
    have hround := roundTo_lt hnext (inRange_followingIndex hnext).1
    obtain ⟨more, rfl⟩ := Nat.exists_eq_add_of_le hfuel
    rw [searchIndex_fuel hnext 254 more _ hnext hround, searchIndex_fuel hnext 254 1 _ hnext hround]

/-- **A registration.** -/
theorem Paired.register (h : Paired st) (hp : trimEndMatches '=' p = p) (connection : Nat) :
    Registers st p device connection ∧ Paired (st.registerConnection p device connection).2 := by
  have hindexed : ∀ old, st.peers.slots.lookup (identityKey p, device) = some old → InRange old.peerIndex :=
    fun old hold => (h.named _ _ (indexOf_of_lookup hold)).1
  suffices hends : ((st.registerConnection p device connection).1 ≠ .routeLimit ∧
      ((st.registerConnection p device connection).1 = .noIndices →
        AllInUse st ∧ st.peers.getEndpoint p device = none ∧ (st.registerConnection p device connection).2 = st)) ∧
      Paired (st.registerConnection p device connection).2 from ⟨⟨hends.1.1, hends.1.2⟩, hends.2⟩
  have hreplaced : Paired (st.softReplace p device) := by
    cases hpeer : st.peers.slots.lookup (identityKey p, device) with
    | none =>
      rw [softReplace_of_none st p device hpeer]
      exact h
    | some old =>
      refine h.drop (indexOf_of_lookup hpeer) (fun slot => ?_) (softReplace_of_some st p device hpeer).2 (softReplace_nextIndex ..)
      rw [indexOf, lookup_softReplace]
      split
      · rfl
      · rfl
  unfold registerConnection
  dsimp only
  split
  · exact ⟨⟨(fun hend => by cases hend), fun hend => by cases hend⟩, h⟩
  next hroom =>
    cases halloc : (st.softReplace p device).allocateIndex with
    | none =>
      cases hpeer : st.peers.slots.lookup (identityKey p, device) with
      | none =>
        rw [softReplace_of_none st p device hpeer] at halloc ⊢
        exact ⟨⟨(fun hend => by cases hend), fun _ => ⟨(allocates h.next).none_iff.mp halloc, hpeer, rfl⟩⟩, h⟩
      | some old =>
        have hsome := allocateIndex_isSome st p device h.next (hindexed old hpeer) hpeer
        rw [halloc] at hsome
        cases hsome
    | some allocated =>
      obtain ⟨index, st₁⟩ := allocated
      obtain ⟨hrange, rfl⟩ := allocateIndex_spec _ hreplaced.next halloc
      have hfree := ((allocates hreplaced.next).free index _ halloc).2
      dsimp only
      generalize hnew : RelayPeer.mk index connection _ 0 = peer
      cases hreg : (st.softReplace p device).peers.register p device peer with
      | none =>
        exfalso
        cases hpeer : st.peers.slots.lookup (identityKey p, device) with
        | none =>
          rw [softReplace_of_none st p device hpeer] at hreg
          have hnotFull : st.isFull p device = false := by
            rw [DeviceRoutes.getEndpoint, hpeer] at hroom
            simpa using hroom
          have hsome := @register_isSome_of_notFull _ _ _ peer hnotFull
          rw [hreg] at hsome
          cases hsome
        | some old =>
          have hmem : (identityKey p, device) ∈ st.peers.slots := AList.lookup_isSome.mp (by rw [hpeer]; rfl)
          have hsome := DeviceRoutes.register_isSome_of_removed peer hmem
          rw [← (softReplace_of_some st p device hpeer).1, hreg] at hsome
          cases hsome
      | some peers =>
        refine ⟨⟨(fun hend => by cases hend), fun hend => by cases hend⟩, ?_⟩
        have hgone : indexOf (st.softReplace p device) (identityKey p, device) = none := by
          rw [indexOf, lookup_softReplace, if_pos rfl]
          rfl
        refine hreplaced.add hp hrange hfree hgone (fun slot => ?_) rfl (inRange_followingIndex hrange).1
        unfold indexOf
        dsimp only
        rw [DeviceRoutes.lookup_register hreg, ← hnew]
        split
        · rfl
        · rfl

end RelayTablesAux

/-! ### Game sessions -/

section

variable {st st' : RelayState} {p : String} {device : Option DeviceId}

theorem SessionsAgree.congr (h : SessionsAgree st) (hsessions : st'.gameSessions = st.gameSessions)
    (hpeer : st'.peerGameSession = st.peerGameSession) : SessionsAgree st' := by
  constructor
  · rw [hsessions, hpeer]
    exact h.agree
  · rw [hsessions]
    exact h.nonempty

theorem SessionsAgree.drop (h : SessionsAgree st) : SessionsAgree (st.dropGameSession p) := by
  unfold dropGameSession
  cases hfiled : st.peerGameSession.lookup p with
  | none =>
    refine ⟨fun q session => ?_, SetMap.noEmpty_removeAll _ _⟩
    rw [SetMap.members_removeAll, Finset.mem_erase, h.agree]
    refine ⟨fun hq => ⟨?_, hq⟩, And.right⟩
    rintro rfl
    rw [(h.agree q session).mpr hq] at hfiled
    cases hfiled
  | some old =>
    refine ⟨fun q session => ?_, h.nonempty.remove old p⟩
    dsimp only
    rw [SetMap.members_remove]
    by_cases hq : q = p
    · subst hq
      rw [AList.lookup_erase]
      constructor
      · exact fun hnone => by cases hnone
      · intro hmem
        split at hmem
        · exact absurd rfl (Finset.mem_erase.mp hmem).1
        next hother =>
          rw [(h.agree q session).mpr hmem, Option.some.injEq] at hfiled
          exact absurd hfiled hother
    · rw [AList.lookup_erase_ne hq, h.agree]
      split
      next hold =>
        rw [hold, Finset.mem_erase]
        exact ⟨fun hmem => ⟨hq, hmem⟩, And.right⟩
      next => exact Iff.rfl

theorem SessionsAgree.join (h : SessionsAgree st) (session : String) : SessionsAgree (st.joinGameSession p session) := by
  unfold joinGameSession
  generalize trimEndMatches '=' p = p
  dsimp only
  split
  · exact h
  · have hothers : ∀ sessions : HashMap String (Finset String), SetMap.NoEmpty sessions →
        (∀ q s, q ≠ p → (q ∈ SetMap.members sessions s ↔ q ∈ SetMap.members st.gameSessions s)) →
        (∀ s, s ≠ session → p ∉ SetMap.members sessions s) →
        SessionsAgree { st with
          gameSessions := SetMap.add sessions session p
          peerGameSession := st.peerGameSession.insert p session } := by
      intro sessions hnonempty hkeep hgone
      refine ⟨fun q s => ?_, hnonempty.add session p⟩
      dsimp only
      rw [SetMap.members_add]
      by_cases hq : q = p
      · subst hq
        rw [AList.lookup_insert, Option.some.injEq]
        split
        next hs => exact ⟨fun _ => Finset.mem_insert_self _ _, fun _ => hs.symm⟩
        next hs => exact ⟨fun heq => absurd heq.symm hs, fun hmem => absurd hmem (hgone s hs)⟩
      · rw [AList.lookup_insert_ne hq, h.agree]
        split
        next hs => rw [hs, Finset.mem_insert, or_iff_right hq, hkeep q session hq]
        next => rw [hkeep q s hq]
    cases hfiled : st.peerGameSession.lookup p with
    | none =>
      refine hothers _ h.nonempty (fun _ _ _ => Iff.rfl) fun s _ hmem => ?_
      rw [(h.agree p s).mpr hmem] at hfiled
      cases hfiled
    | some old =>
      dsimp only
      have hfound : ∀ s, p ∈ SetMap.members st.gameSessions s → s = old := by
        intro s hmem
        rw [(h.agree p s).mpr hmem, Option.some.injEq] at hfiled
        exact hfiled
      split
      next hmoves =>
        refine hothers _ (h.nonempty.remove old p) (fun q s hq => ?_) fun s _ hmem => ?_
        · rw [SetMap.members_remove]
          split
          next hs => rw [hs, Finset.mem_erase, and_iff_right hq]
          next => exact Iff.rfl
        · rw [SetMap.members_remove] at hmem
          split at hmem
          next => exact absurd rfl (Finset.mem_erase.mp hmem).1
          next hs => exact hs (hfound s hmem)
      next hstays => exact hothers _ h.nonempty (fun _ _ _ => Iff.rfl) fun s hs hmem => hstays fun heq => hs ((hfound s hmem).trans heq)

theorem SessionsAgree.leave (h : SessionsAgree st) : SessionsAgree (st.leaveGameSession p) := by
  have hdrop := SessionsAgree.drop (p := trimEndMatches '=' p) h
  unfold leaveGameSession
  unfold dropGameSession at hdrop
  dsimp only
  split
  next hfiled =>
    rw [hfiled] at hdrop
    exact hdrop
  next => exact h

theorem SessionsAgree.forget (h : SessionsAgree st) : SessionsAgree (st.removeIdentityMembership p) := by
  unfold removeIdentityMembership
  exact SessionsAgree.drop (h.congr rfl rfl)

theorem SessionsAgree.vacate (h : SessionsAgree st) (room : Option String) (except : Option (Option DeviceId)) :
    SessionsAgree (st.vacate p room except) := by
  rw [vacate_eq]
  exact h.congr rfl rfl

theorem SessionsAgree.remove (h : SessionsAgree st) : SessionsAgree (st.removeEndpoint p device) := by
  cases hpeer : st.peers.slots.lookup (identityKey p, device) with
  | none =>
    rw [removeEndpoint_of_none st p device hpeer]
    exact h.congr rfl rfl
  | some peer =>
    have hwithout : SessionsAgree (st.withoutEndpoint p device peer) := h.congr rfl rfl
    rw [removeEndpoint_of_some st p device hpeer]
    split
    · exact hwithout.vacate _ _
    · exact (hwithout.vacate _ _).forget

theorem SessionsAgree.removeAll (h : SessionsAgree st) (gone : List (String × Option DeviceId)) :
    SessionsAgree (gone.foldl (fun st e => st.removeEndpoint e.1 e.2) st) := by
  induction gone generalizing st with
  | nil => exact h
  | cons e gone ih => exact ih h.remove

theorem SessionsAgree.removePeer (h : SessionsAgree st) : SessionsAgree (st.removePeer p) := by
  unfold RelayState.removePeer
  have hremoved : ∀ devices : List (Option DeviceId),
      SessionsAgree (devices.foldl (fun st device => st.removeEndpoint p device) st) := by
    intro devices
    induction devices generalizing st with
    | nil => exact h
    | cons device devices ih => exact ih h.remove
  exact (hremoved _).forget

theorem SessionsAgree.joinRoom (h : SessionsAgree st) (room : String) : SessionsAgree (st.joinRoomEndpoint p device room) := by
  unfold joinRoomEndpoint
  dsimp only
  split
  · exact h
  next assignments _ =>
    have hassigned : SessionsAgree { st with roomAssignments := assignments } := h.congr rfl rfl
    exact (hassigned.vacate _ _).congr rfl rfl

theorem SessionsAgree.leaveRoom (h : SessionsAgree st) : SessionsAgree (st.leaveRoomEndpoint p device) := by
  unfold leaveRoomEndpoint
  dsimp only
  refine SessionsAgree.vacate ?_ _ _
  exact h.congr rfl rfl

theorem SessionsAgree.write (h : SessionsAgree st) (write : Write) : SessionsAgree (st.applyWrite (p, device) write) := by
  cases write with
  | heal room => exact h.congr rfl rfl
  | count relayed => exact h.congr rfl rfl

theorem SessionsAgree.register (h : SessionsAgree st) (connection : Nat) :
    SessionsAgree (st.registerConnection p device connection).2 := by
  have hreplaced : SessionsAgree (st.softReplace p device) := by
    unfold softReplace
    split
    · exact h
    · dsimp only
      split
      · exact h.congr rfl rfl
      · exact h.congr rfl rfl
  unfold registerConnection
  dsimp only
  split
  · exact h
  · cases halloc : (st.softReplace p device).allocateIndex with
    | none => exact hreplaced
    | some allocated =>
      obtain ⟨i, hi, heq⟩ := Option.map_eq_some_iff.mp halloc
      cases heq
      dsimp only
      split
      · exact hreplaced.congr rfl rfl
      · exact hreplaced.congr rfl rfl

end

namespace RelayTablesAux

variable {st : RelayState}

/-! ### Steps and runs -/

/-- What holds along the runs. -/
structure Tidy (st : RelayState) : Prop where
  paired : Paired st
  sessions : SessionsAgree st

theorem tidy_new (ready : Bool) : Tidy (RelayState.new ready) where
  paired := by
    refine ⟨fun slot i hi => ?_, fun i e he => ?_, ⟨Nat.le_refl 1, (by decide : (1 : UInt8).toNat ≤ 254)⟩⟩
    · rw [show indexOf (RelayState.new ready) slot = none from rfl] at hi
      cases hi
    · rw [show (RelayState.new ready).indexToPeer.lookup i = none from AList.lookup_empty i] at he
      cases he
  sessions := by
    refine ⟨fun p session => ?_, SetMap.noEmpty_empty⟩
    rw [show SetMap.members (RelayState.new ready).gameSessions session = ∅ from SetMap.members_empty session,
      show (RelayState.new ready).peerGameSession.lookup p = none from AList.lookup_empty p]
    exact ⟨(fun h => by cases h), fun h => absurd h (Finset.notMem_empty p)⟩

variable {C : Crates} {relay relay' : Server} {event : Event}

/-- **One step.** -/
theorem Tidy.step (h : Tidy relay.state) (htrimmed : Trimmed relay) (hstep : StateStep relay event st) : Tidy st := by
  cases hstep with
  | quiet hpeers _ _ hnext _ hindex hgames =>
    refine ⟨h.paired.congr (fun slot => by rw [indexOf, hpeers]; rfl) hindex hnext, ?_⟩
    cases hgames with
    | same hsessions hpeer => exact h.sessions.congr hsessions hpeer
    | join q session => exact h.sessions.join session
    | leave q => exact h.sessions.leave
  | revoke q =>
    have hpaired : Paired { relay.state with allowed := relay.state.allowed.erase (trimEndMatches '=' q) } :=
      h.paired.congr (fun _ => rfl) rfl rfl
    have hsessions : SessionsAgree { relay.state with allowed := relay.state.allowed.erase (trimEndMatches '=' q) } :=
      h.sessions.congr rfl rfl
    exact ⟨hpaired.removePeer, hsessions.removePeer⟩
  | join q device room => exact ⟨h.paired.join room, h.sessions.joinRoom room⟩
  | leave q device => exact ⟨h.paired.leave, h.sessions.leaveRoom⟩
  | register welcomed htask => exact ⟨(h.paired.register (htrimmed.peerId htask) _).2, h.sessions.register _⟩
  | write htask => exact ⟨h.paired.write _, h.sessions.write _⟩
  | disconnect htask _ => exact ⟨h.paired.remove, h.sessions.remove⟩
  | cleanup => exact ⟨h.paired.removeAll _, h.sessions.removeAll _⟩

end RelayTablesAux

open RelayTablesAux

end DoubleSlash.Relay
