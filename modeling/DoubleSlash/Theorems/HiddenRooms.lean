import DoubleSlash.Lib.Run
import DoubleSlash.Store.OwnSync

/-!
# Hidden rooms

A room that is hidden on a device and a tombstone of a removed room are entries of one set, and a sibling that adds a room again
lifts the tombstones of it. Which merges leave a hidden room hidden.
-/

namespace DoubleSlash.Store

open Assoc Run

section

variable {D : Type}

/-- A room is hidden under a host, and no snapshot that the device sends has it. -/
structure StaysHidden (s : RoomStore) (host roomId : String) : Prop where
  hidden : s.isHiddenFromSidebar host roomId = true
  absent : ∀ ownerPub, ∀ entry ∈ (s.ownDeviceSnapshot ownerPub).rooms, ¬ (entry.supernodeId = host ∧ entry.roomId = roomId)

/-- The removals a device holds when those of a snapshot are applied. -/
def removalsWith (device : OwnDevice D) (s : RoomStore) (snapshot : OwnRoomSnapshot) : HashMap String RoomRemoval :=
  (snapshot.removed.foldl (RoomStore.applyOwnDeviceRemoval device) (s, .default)).1.removals

/-- The first room of a list with an id and a host that the device knows. -/
def firstKnown (device : OwnDevice D) (rooms : List RoomEntry) (roomId : String) : Option RoomEntry :=
  rooms.find? fun entry => decide (entry.roomId = roomId) && (device.resolveHost entry.supernodeId).isSome

/-- A snapshot carries a room that was added later than the removal of it that is held, and the key of a hidden room is one of that
room under a host of the removal, under the host of the entry, or under one of the same cluster. -/
def Lifts (device : OwnDevice D) (snapshot : OwnRoomSnapshot) (s : RoomStore) (key : String) : Prop :=
  snapshot.withinLimits = true ∧ ∃ roomId entry host removal, RoomStore.isBuiltIn roomId = false ∧
    firstKnown device snapshot.rooms roomId = some entry ∧ device.resolveHost entry.supernodeId = some host ∧
    (removalsWith device s snapshot).lookup roomId = some removal ∧
    removal.removedAt < (snapshot.added.lookup roomId).getD 0 ∧
    ((∃ removedHost ∈ removal.hosts, key = entryKey removedHost roomId) ∨ tombstoneUnder device.sameHost host roomId key = true)

/-- A device merges a snapshot. -/
def mergeStep (s : RoomStore) (merge : OwnDevice D × OwnRoomSnapshot) : Option RoomStore :=
  some (s.mergeOwnDeviceSnapshot merge.1 merge.2).1

namespace HiddenRoomsAux

variable {device : OwnDevice D}

/-- What the merge of Spaces leaves alone. -/
structure SameMarks (s t : RoomStore) : Prop where
  rooms : t.rooms = s.rooms
  deletedIds : t.deletedIds = s.deletedIds
  addedAt : t.addedAt = s.addedAt
  removals : t.removals = s.removals

theorem SameMarks.trans {s t u : RoomStore} (h : SameMarks s t) (h' : SameMarks t u) : SameMarks s u :=
  ⟨h'.rooms.trans h.rooms, h'.deletedIds.trans h.deletedIds, h'.addedAt.trans h.addedAt, h'.removals.trans h.removals⟩

theorem sameMarks_mergeOwnSpace (acc : RoomStore × OwnRoomMerge) (incoming : Spaces.Space) :
    SameMarks acc.1 (RoomStore.mergeOwnSpace device acc incoming).1 := by
  obtain ⟨s, out⟩ := acc
  have hkeeps (spaces : HashMap String Spaces.Space) (out' : OwnRoomMerge) : SameMarks s ({ s with spaces := spaces }, out').1 :=
    ⟨rfl, rfl, rfl, rfl⟩
  unfold RoomStore.mergeOwnSpace
  dsimp only
  split
  · exact hkeeps s.spaces out
  · split
    · exact hkeeps s.spaces out
    · split
      · exact hkeeps s.spaces out
      · constructor <;> rfl

variable (device) in
theorem sameMarks_mergeOwnSpaces (trees : List Spaces.Space) (acc : RoomStore × OwnRoomMerge) :
    SameMarks acc.1 (trees.foldl (RoomStore.mergeOwnSpace device) acc).1 := by
  induction trees generalizing acc with
  | nil => exact ⟨rfl, rfl, rfl, rfl⟩
  | cons tree trees ih =>
    rw [List.foldl_cons]
    exact (sameMarks_mergeOwnSpace acc tree).trans (ih _)

/-! ### Removals -/

/-- Removals look at the rooms, their times and the removals that are held. -/
theorem sameMarks_removal {acc acc' : RoomStore × OwnRoomMerge} (h : SameMarks acc.1 acc'.1) (removal : RoomRemoval) :
    SameMarks (RoomStore.applyOwnDeviceRemoval device acc removal).1 (RoomStore.applyOwnDeviceRemoval device acc' removal).1 := by
  unfold RoomStore.applyOwnDeviceRemoval
  dsimp only
  rw [h.removals, h.rooms, h.addedAt, h.deletedIds]
  split
  · exact h
  · split
    · exact h
    · split
      · exact h
      · exact ⟨rfl, rfl, rfl, rfl⟩

variable (device) in
theorem sameMarks_removals (removed : List RoomRemoval) {acc acc' : RoomStore × OwnRoomMerge} (h : SameMarks acc.1 acc'.1) :
    SameMarks (removed.foldl (RoomStore.applyOwnDeviceRemoval device) acc).1
      (removed.foldl (RoomStore.applyOwnDeviceRemoval device) acc').1 := by
  induction removed generalizing acc acc' with
  | nil => exact h
  | cons removal removed ih => exact ih (sameMarks_removal h removal)

theorem subset_foldl_insert (hosts : List String) (f : String → String) (ids : Finset String) :
    ids ⊆ hosts.foldl (fun ids host => insert (f host) ids) ids := by
  induction hosts generalizing ids with
  | nil => exact Finset.Subset.refl _
  | cons host hosts ih => exact (Finset.subset_insert _ _).trans (ih _)

variable (device) in
/-- A removal takes no tombstone away. -/
theorem hidden_removals (removed : List RoomRemoval) {acc : RoomStore × OwnRoomMerge} {key : String} (h : key ∈ acc.1.deletedIds) :
    key ∈ (removed.foldl (RoomStore.applyOwnDeviceRemoval device) acc).1.deletedIds := by
  induction removed generalizing acc with
  | nil => exact h
  | cons removal removed ih =>
    refine ih ?_
    unfold RoomStore.applyOwnDeviceRemoval
    dsimp only
    split
    · exact h
    · split
      · exact h
      · split
        · exact h
        · exact subset_foldl_insert _ _ _ h

/-! ### Rooms -/

theorem mem_foldl_erase (hosts : List String) (f : String → String) (ids : Finset String) (key : String) :
    key ∈ hosts.foldl (fun ids host => ids.erase (f host)) ids ↔ key ∈ ids ∧ ∀ host ∈ hosts, key ≠ f host := by
  induction hosts generalizing ids with
  | nil => simp
  | cons host hosts ih =>
    rw [List.foldl_cons, ih, Finset.mem_erase, List.forall_mem_cons]
    tauto

theorem mem_liftRemoval (s : RoomStore) (removal : RoomRemoval) (roomId host key : String) :
    key ∈ (s.liftRemoval device removal roomId host).deletedIds ↔ key ∈ s.deletedIds ∧
      ¬ ((∃ removedHost ∈ removal.hosts, key = entryKey removedHost roomId) ∨
        tombstoneUnder device.sameHost host roomId key = true) := by
  unfold RoomStore.liftRemoval
  dsimp only
  rw [Finset.mem_filter, mem_foldl_erase, Bool.eq_false_iff]
  push Not
  exact and_assoc

variable (device) in
/-- An entry that comes in and its stamp touch no tombstone and no removal. -/
theorem marks_entry (s : RoomStore) (incoming : RoomEntry) (host : String) :
    (s.mergeOwnDeviceRoomEntry device incoming host).1.deletedIds = s.deletedIds ∧
      (s.mergeOwnDeviceRoomEntry device incoming host).1.removals = s.removals := by
  unfold RoomStore.mergeOwnDeviceRoomEntry
  dsimp only
  split
  · split
    · exact ⟨rfl, rfl⟩
    · exact ⟨rfl, rfl⟩
  · split
    · exact ⟨rfl, rfl⟩
    · exact ⟨rfl, rfl⟩

theorem marks_stampAdded (s : RoomStore) (roomId : String) (addedAt : Nat) :
    (s.stampAdded roomId addedAt).1.deletedIds = s.deletedIds ∧ (s.stampAdded roomId addedAt).1.removals = s.removals := by
  unfold RoomStore.stampAdded
  dsimp only
  split
  · exact ⟨rfl, rfl⟩
  · exact ⟨rfl, rfl⟩

variable (device) in
/-- What one room of a snapshot does to the tombstones and the removals: nothing, or it lifts the removal that is held. -/
theorem room_cases (acc : RoomStore × OwnRoomMerge) (incoming : RoomEntry) (addedAt : Nat) :
    ((∀ host removal, RoomStore.isBuiltIn incoming.roomId = false → device.resolveHost incoming.supernodeId = some host →
        acc.1.removals.lookup incoming.roomId = some removal → addedAt ≤ removal.removedAt) ∧
      (RoomStore.mergeOwnDeviceRoom device acc incoming addedAt).1.deletedIds = acc.1.deletedIds ∧
      (RoomStore.mergeOwnDeviceRoom device acc incoming addedAt).1.removals = acc.1.removals) ∨
    ∃ host removal, RoomStore.isBuiltIn incoming.roomId = false ∧ device.resolveHost incoming.supernodeId = some host ∧
      acc.1.removals.lookup incoming.roomId = some removal ∧ removal.removedAt < addedAt ∧
      (RoomStore.mergeOwnDeviceRoom device acc incoming addedAt).1.deletedIds =
        (acc.1.liftRemoval device removal incoming.roomId host).deletedIds ∧
      (RoomStore.mergeOwnDeviceRoom device acc incoming addedAt).1.removals = acc.1.removals.erase incoming.roomId := by
  unfold RoomStore.mergeOwnDeviceRoom
  dsimp only
  by_cases hbuilt : RoomStore.isBuiltIn incoming.roomId = true
  · rw [if_pos hbuilt]
    exact Or.inl ⟨fun _ _ h => absurd (hbuilt.symm.trans h) (by simp), rfl, rfl⟩
  · rw [if_neg hbuilt]
    cases hhost : device.resolveHost incoming.supernodeId with
    | none => exact Or.inl ⟨fun _ _ _ h => absurd h (by simp), rfl, rfl⟩
    | some host =>
      cases hremoval : acc.1.removals.lookup incoming.roomId with
      | none =>
        have hentry := marks_entry device acc.1 incoming host
        have hstamp := marks_stampAdded (acc.1.mergeOwnDeviceRoomEntry device incoming host).1 incoming.roomId addedAt
        exact Or.inl ⟨fun _ _ _ _ h => absurd h (by simp), hstamp.1.trans hentry.1, hstamp.2.trans hentry.2⟩
      | some removal =>
        dsimp only
        by_cases hle : addedAt ≤ removal.removedAt
        · rw [if_pos hle]
          exact Or.inl ⟨fun _ r _ _ h => (Option.some.inj h) ▸ hle, rfl, rfl⟩
        · rw [if_neg hle]
          have hentry := marks_entry device (acc.1.liftRemoval device removal incoming.roomId host) incoming host
          have hstamp := marks_stampAdded
            ((acc.1.liftRemoval device removal incoming.roomId host).mergeOwnDeviceRoomEntry device incoming host).1 incoming.roomId addedAt
          exact Or.inr ⟨host, removal, Bool.eq_false_iff.mpr hbuilt, rfl, rfl, not_le.mp hle, hstamp.1.trans hentry.1,
            hstamp.2.trans hentry.2⟩

/-- The rooms of a list lift a key. -/
def LiftedBy (device : OwnDevice D) (added : HashMap String Nat) (removals : HashMap String RoomRemoval) (rooms : List RoomEntry)
    (key : String) : Prop :=
  ∃ roomId entry host removal, RoomStore.isBuiltIn roomId = false ∧ firstKnown device rooms roomId = some entry ∧
    device.resolveHost entry.supernodeId = some host ∧ removals.lookup roomId = some removal ∧
    removal.removedAt < (added.lookup roomId).getD 0 ∧
    ((∃ removedHost ∈ removal.hosts, key = entryKey removedHost roomId) ∨ tombstoneUnder device.sameHost host roomId key = true)

theorem firstKnown_cons (incoming : RoomEntry) (rooms : List RoomEntry) (roomId : String) :
    firstKnown device (incoming :: rooms) roomId =
      if incoming.roomId = roomId ∧ (device.resolveHost incoming.supernodeId).isSome then some incoming
      else firstKnown device rooms roomId := by
  unfold firstKnown
  by_cases h : incoming.roomId = roomId ∧ (device.resolveHost incoming.supernodeId).isSome
  · rw [if_pos h, List.find?_cons_of_pos]
    rw [Bool.and_eq_true, decide_eq_true_eq]
    exact h
  · rw [if_neg h, List.find?_cons_of_neg]
    rw [Bool.and_eq_true, decide_eq_true_eq]
    exact h

/-- A room that lifts nothing stands before no other one that would. -/
theorem liftedBy_kept {added : HashMap String Nat} {removals : HashMap String RoomRemoval} {incoming : RoomEntry} (rooms : List RoomEntry)
    (key : String) (h : ∀ host removal, RoomStore.isBuiltIn incoming.roomId = false → device.resolveHost incoming.supernodeId = some host →
      removals.lookup incoming.roomId = some removal → (added.lookup incoming.roomId).getD 0 ≤ removal.removedAt) :
    LiftedBy device added removals rooms key ↔ LiftedBy device added removals (incoming :: rooms) key := by
  have hfirst (roomId : String) (removal : RoomRemoval) (hbuilt : RoomStore.isBuiltIn roomId = false)
      (hremoval : removals.lookup roomId = some removal) (hlt : removal.removedAt < (added.lookup roomId).getD 0) :
      firstKnown device (incoming :: rooms) roomId = firstKnown device rooms roomId := by
    rw [firstKnown_cons, if_neg]
    rintro ⟨rfl, hknown⟩
    obtain ⟨host, hhost⟩ := Option.isSome_iff_exists.mp hknown
    exact absurd (h host removal hbuilt hhost hremoval) (not_le.mpr hlt)
  constructor
  · rintro ⟨roomId, entry, host, removal, hbuilt, hentry, hhost, hremoval, hlt, hkey⟩
    exact ⟨roomId, entry, host, removal, hbuilt, (hfirst roomId removal hbuilt hremoval hlt).trans hentry, hhost, hremoval, hlt, hkey⟩
  · rintro ⟨roomId, entry, host, removal, hbuilt, hentry, hhost, hremoval, hlt, hkey⟩
    exact ⟨roomId, entry, host, removal, hbuilt, (hfirst roomId removal hbuilt hremoval hlt).symm.trans hentry, hhost, hremoval, hlt, hkey⟩

/-- A room that lifts its removal is the first one to do so, and the last. -/
theorem liftedBy_lifting {added : HashMap String Nat} {removals : HashMap String RoomRemoval} {incoming : RoomEntry} {host : String}
    {removal : RoomRemoval} (rooms : List RoomEntry) (key : String) (hbuilt : RoomStore.isBuiltIn incoming.roomId = false)
    (hhost : device.resolveHost incoming.supernodeId = some host) (hremoval : removals.lookup incoming.roomId = some removal)
    (hlt : removal.removedAt < (added.lookup incoming.roomId).getD 0) :
    LiftedBy device added removals (incoming :: rooms) key ↔
      ((∃ removedHost ∈ removal.hosts, key = entryKey removedHost incoming.roomId) ∨
        tombstoneUnder device.sameHost host incoming.roomId key = true) ∨
      LiftedBy device added (removals.erase incoming.roomId) rooms key := by
  have hself : firstKnown device (incoming :: rooms) incoming.roomId = some incoming := by
    rw [firstKnown_cons, if_pos ⟨rfl, by rw [hhost]; rfl⟩]
  have hother {roomId : String} (hne : roomId ≠ incoming.roomId) :
      firstKnown device (incoming :: rooms) roomId = firstKnown device rooms roomId := by
    rw [firstKnown_cons, if_neg fun hall => hne hall.1.symm]
  constructor
  · rintro ⟨roomId, entry, host', removal', hbuilt', hentry, hhost', hremoval', hlt', hkey⟩
    by_cases hroom : roomId = incoming.roomId
    · subst hroom
      obtain rfl := Option.some.inj (hself.symm.trans hentry)
      obtain rfl := Option.some.inj (hhost.symm.trans hhost')
      obtain rfl := Option.some.inj (hremoval.symm.trans hremoval')
      exact Or.inl hkey
    · exact Or.inr ⟨roomId, entry, host', removal', hbuilt', (hother hroom).symm.trans hentry, hhost',
        (AList.lookup_erase_ne hroom).trans hremoval', hlt', hkey⟩
  · rintro (hkey | ⟨roomId, entry, host', removal', hbuilt', hentry, hhost', hremoval', hlt', hkey⟩)
    · exact ⟨incoming.roomId, incoming, host, removal, hbuilt, hself, hhost, hremoval, hlt, hkey⟩
    · have hroom : roomId ≠ incoming.roomId := by
        rintro rfl
        exact absurd ((AList.lookup_erase _ _).symm.trans hremoval') (by simp)
      exact ⟨roomId, entry, host', removal', hbuilt', (hother hroom).trans hentry, hhost',
        (AList.lookup_erase_ne hroom).symm.trans hremoval', hlt', hkey⟩

/-- A tombstone is there after the rooms of a snapshot unless one of them lifts it. -/
theorem hidden_rooms (added : HashMap String Nat) (rooms : List RoomEntry) (acc : RoomStore × OwnRoomMerge) (key : String) :
    key ∈ (rooms.foldl (fun acc incoming => RoomStore.mergeOwnDeviceRoom device acc incoming ((added.lookup incoming.roomId).getD 0))
        acc).1.deletedIds ↔ key ∈ acc.1.deletedIds ∧ ¬ LiftedBy device added acc.1.removals rooms key := by
  induction rooms generalizing acc with
  | nil =>
    have hnot : ¬ LiftedBy device added acc.1.removals [] key := by
      rintro ⟨_, _, _, _, -, h, -⟩
      exact absurd h (by simp [firstKnown])
    exact (and_iff_left hnot).symm
  | cons incoming rooms ih =>
    rw [List.foldl_cons, ih]
    rcases room_cases device acc incoming ((added.lookup incoming.roomId).getD 0) with
      ⟨hkept, hids, hremovals⟩ | ⟨host, removal, hbuilt, hhost, hremoval, hlt, hids, hremovals⟩
    · rw [hids, hremovals, liftedBy_kept rooms key hkept]
    · rw [hids, hremovals, mem_liftRemoval, liftedBy_lifting rooms key hbuilt hhost hremoval hlt, and_assoc, ← not_or]

theorem deletedIds_stampLinkage (trees : List Spaces.Space) (acc : RoomStore × Bool) :
    (trees.foldl (RoomStore.stampLinkage device) acc).1.deletedIds = acc.1.deletedIds := by
  induction trees generalizing acc with
  | nil => rfl
  | cons tree trees ih =>
    rw [List.foldl_cons, ih]
    unfold RoomStore.stampLinkage
    dsimp only
    split
    · rfl
    · split
      · rfl
      · rfl

/-- **One merge.** A key that is hidden stays hidden exactly when the snapshot does not lift it. -/
theorem hidden_merge {s : RoomStore} {key : String} (h : key ∈ s.deletedIds) (snapshot : OwnRoomSnapshot) :
    key ∈ (s.mergeOwnDeviceSnapshot device snapshot).1.deletedIds ↔ ¬ Lifts device snapshot s key := by
  unfold RoomStore.mergeOwnDeviceSnapshot Lifts
  by_cases hlimits : snapshot.withinLimits = true
  · rw [if_neg (by rw [hlimits]; simp)]
    have hspaces := sameMarks_mergeOwnSpaces device snapshot.spaces (s, OwnRoomMerge.default)
    have hremovals := sameMarks_removals device snapshot.removed hspaces
    have hkept := @hidden_removals _ device snapshot.removed (snapshot.spaces.foldl (RoomStore.mergeOwnSpace device) (s, .default)) _
      (hspaces.deletedIds ▸ h)
    dsimp only
    unfold RoomStore.stampLinkageFromOwnSpaces
    rw [deletedIds_stampLinkage, hidden_rooms, hremovals.removals]
    rw [and_iff_right hkept, and_iff_right hlimits]
    rfl
  · rw [if_pos (Bool.eq_false_iff.mpr hlimits)]
    exact iff_of_true h fun hall => hlimits hall.1

/-- A room that is hidden is in no snapshot. -/
theorem staysHidden_iff {s : RoomStore} {host roomId : String} : StaysHidden s host roomId ↔ entryKey host roomId ∈ s.deletedIds := by
  constructor
  · exact fun h => of_decide_eq_true h.hidden
  · intro h
    refine ⟨decide_eq_true h, fun ownerPub entry hentry => ?_⟩
    rintro ⟨rfl, rfl⟩
    have hmem := (List.mem_filter.mp (List.mem_mergeSort.mp (List.mem_of_mem_take hentry))).2
    rw [Bool.and_eq_true, Bool.not_eq_true'] at hmem
    exact absurd (decide_eq_true h) (Bool.eq_false_iff.mp hmem.2)

end HiddenRoomsAux

open HiddenRoomsAux

/-- **Hidden rooms.** From every store, a room that is hidden stays hidden through a list of merges, and absent from what the device
sends, exactly when no merge carries it as added after the removal of it that is then held, with a tombstone that this lifts. -/
theorem hidden_stays_iff (s : RoomStore) (host roomId : String) (merges : List (OwnDevice D × OwnRoomSnapshot)) :
    (∀ pre s₁, pre <+: merges → run mergeStep (s.hideFromSidebar host roomId) pre = some s₁ → StaysHidden s₁ host roomId) ↔
      Meets mergeStep (fun s merge => ¬ Lifts merge.1 merge.2 s (entryKey host roomId)) (s.hideFromSidebar host roomId) merges := by
  have htotal (t : RoomStore) : ∃ t', run mergeStep t merges = some t' := by
    induction merges generalizing t with
    | nil => exact ⟨t, rfl⟩
    | cons merge merges ih =>
      obtain ⟨t', ht'⟩ := ih (t.mergeOwnDeviceSnapshot merge.1 merge.2).1
      exact ⟨t', by rw [run_cons]; exact ht'⟩
  obtain ⟨t', ht'⟩ := htotal (s.hideFromSidebar host roomId)
  refine meets_iff_prefixes (fun _ : RoomStore => True) (fun s : RoomStore => StaysHidden s host roomId) ?_ trivial
    (staysHidden_iff.mpr (Finset.mem_insert_self _ _)) ht'
  intro t merge t₁ _ ht hstep
  obtain rfl := Option.some.inj hstep
  exact ⟨trivial, staysHidden_iff.trans (hidden_merge (staysHidden_iff.mp ht) merge.2)⟩

end

namespace HiddenRoomsAux

/-- A device that knows every host by its own name, and no two as one. -/
def plainDevice : OwnDevice (List UInt8) :=
  { hashing := Spaces.Hashing.plain, ownerPub := "me", resolveHost := some, sameHost := fun a b => decide (a = b), issuedAt := 0, sign := id }

/-- A sibling removed a room of a host. -/
def removing : OwnRoomSnapshot :=
  { v := 1, rooms := [], spaces := [], added := ∅, removed := [{ roomId := "r", hosts := ["h"], removedAt := 10 }] }

/-- Later it added it again. -/
def addingAgain : OwnRoomSnapshot :=
  { v := 1, rooms := [{ roomId := "r", roomName := "Room", supernodeId := "h" }], spaces := [], added := (∅ : HashMap String Nat).insert "r" 20,
    removed := [] }

end HiddenRoomsAux

open HiddenRoomsAux

/-- A room that is hidden here is shown again when a sibling removes it and adds it back. -/
theorem hidden_stays_fails : ¬ ∀ (s : RoomStore) (host roomId : String) (merges : List (OwnDevice (List UInt8) × OwnRoomSnapshot))
    (s₁ : RoomStore), run mergeStep (s.hideFromSidebar host roomId) merges = some s₁ → StaysHidden s₁ host roomId := by
  intro hclaim
  have hhidden := hclaim .empty "h" "r" [(plainDevice, removing), (plainDevice, addingAgain)] _ rfl
  exact absurd hhidden.hidden (by decide +kernel)

end DoubleSlash.Store
