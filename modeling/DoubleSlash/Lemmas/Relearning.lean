import DoubleSlash.Store.RoomRelearning

/-!
# Learning a room again keeps what is stored

What a store has of a room stays, from call to call and along runs, under the identity of its host: the calls bring what they have and
take nothing. Only an upsert of the user takes a tombstone away, and only a type that is neither public nor private makes a private
room of the user's something else.
-/

namespace DoubleSlash.Store

open Assoc Protocol Run Spaces Text

/-- A host without the character that ends it in a key. -/
def PlainHost (host : String) : Prop := ':' ∉ host.toList

instance (host : String) : Decidable (PlainHost host) := inferInstanceAs (Decidable (_ ∉ _))

/-- The identity of a host, as far as the peer store knows it. -/
def PeerStore.canonicalHost (peers : PeerStore) (host : String) : String := (peers.resolveSupernodeIdentityPub host).getD host

/-- An identity that the peer store gives is itself an identity to it. -/
def PeerStore.Settles (peers : PeerStore) : Prop :=
  ∀ host canon, peers.resolveSupernodeIdentityPub host = some canon →
    PlainHost canon ∧ peers.resolveSupernodeIdentityPub canon = some canon

/-- Every room is filed under its own host and id. -/
def RoomStore.Filed (s : RoomStore) : Prop :=
  ∀ k e, s.rooms.lookup k = some e → k = entryKey e.supernodeId e.roomId ∧ PlainHost e.supernodeId

/-- No room is stored under two spellings of one host. -/
def RoomStore.FoldsNone (s : RoomStore) (peers : PeerStore) : Prop :=
  ∀ k₁ e₁ k₂ e₂, s.rooms.lookup k₁ = some e₁ → s.rooms.lookup k₂ = some e₂ → e₁.roomId = e₂.roomId →
    peers.canonicalHost e₁.supernodeId = peers.canonicalHost e₂.supernodeId → e₁.supernodeId = e₂.supernodeId

/-- What is known of a room stays known. -/
structure Kept (e e' : RoomEntry) : Prop where
  roomId : e'.roomId = e.roomId
  isCreator : e.isCreator = true → e'.isCreator = true
  inviteToken : e.inviteToken ≠ "" → e'.inviteToken ≠ ""
  creatorId : e.creatorId ≠ "" → e'.creatorId ≠ ""
  spaceId : e.spaceId ≠ "" → e'.spaceId ≠ ""
  parentId : e.parentId ≠ "" → e'.parentId ≠ ""
  invitePolicy : e.invitePolicy ≠ "" → e'.invitePolicy ≠ ""
  /-- A display name stays one. -/
  roomName : e.roomName ≠ "" ∧ e.roomName ≠ e.roomId → e'.roomName ≠ "" ∧ e'.roomName ≠ e'.roomId

/-- A private room that is the user's, or that a token opens. -/
def OursPrivate (e : RoomEntry) : Prop := e.roomType = "private" ∧ (e.isCreator = true ∨ e.inviteToken ≠ "")

/-- The types that leave a private room of the user's private. -/
def usualTypes : List String := ["", "private", "public"]

/-- What a store keeps when it becomes another, where a host becomes `host'`: `About` are the rooms in question, `Other` those that
another type is named for, and `Unhides` those whose tombstone is lifted. -/
structure Relearns (host' : String → String) (About Other Unhides : String → String → Prop) (s s' : RoomStore) : Prop where
  kept : ∀ host room e, PlainHost host → s.get host room = some e → ∃ e', s'.get (host' host) room = some e' ∧ Kept e e' ∧
    (OursPrivate e → ¬ Other host room → e'.roomType = "private") ∧
    (¬ About host room → e' = { e with supernodeId := host' host })
  hidden : ∀ host room, PlainHost host → s.isHiddenFromSidebar host room = true → ¬ Unhides host room →
    s'.isHiddenFromSidebar (host' host) room = true

/-! ## What a call is about -/

namespace RoomCall

/-- The id of a listed room. -/
def listedId (listed : Json) : Option String := (RoomStore.listedField listed "room_id").bind Json.asStr

/-- The call is about a room on a host. -/
def About (room : String) : RoomCall → String → Prop
  | upsert _ entry, host => entry.supernodeId = host ∧ entry.roomId = room
  | upsertFromRemote _ entry, host => entry.supernodeId = host ∧ entry.roomId = room
  | upsertManyFromRemote _ entries, host => ∃ entry ∈ entries, entry.supernodeId = host ∧ entry.roomId = room
  | syncFromRoomList _ supernodeId rooms, host => supernodeId = host ∧ ∃ listed ∈ rooms.asArray.getD [], listedId listed = some room
  | setSpaceLinkage supernodeId roomId _ _, host => supernodeId = host ∧ roomId = room
  | adoptRoomIntoSpace _ _ supernodeId roomId _ _ _ _, host => supernodeId = host ∧ roomId = room
  | normalizeSupernodeIds _ _, _ => False

/-- The call names a type for the room that is neither public nor private. -/
def NamesOther (room : String) : RoomCall → String → Prop
  | upsert _ entry, host => entry.supernodeId = host ∧ entry.roomId = room ∧ entry.roomType ∉ usualTypes
  | upsertFromRemote _ entry, host => entry.supernodeId = host ∧ entry.roomId = room ∧ entry.roomType ∉ usualTypes
  | upsertManyFromRemote _ entries, host =>
    ∃ entry ∈ entries, entry.supernodeId = host ∧ entry.roomId = room ∧ entry.roomType ∉ usualTypes
  | syncFromRoomList _ supernodeId rooms, host => supernodeId = host ∧ ∃ listed ∈ rooms.asArray.getD [], listedId listed = some room ∧
      ∃ type, (RoomStore.listedField listed "room_type").bind Json.asStr = some type ∧ type ∉ usualTypes
  | _, _ => False

/-- The user brings the room back. -/
def Unhides (room : String) : RoomCall → String → Prop
  | upsert _ entry, host => entry.supernodeId = host ∧ entry.roomId = room
  | _, _ => False

/-- The host of a room after the call. -/
def hostAfter : RoomCall → String → String
  | normalizeSupernodeIds peers _, host => peers.canonicalHost host
  | _, host => host

/-- The hosts are plain, and a rewriting of hosts brings no two rooms together and goes through all tombstones. -/
def Plain (s : RoomStore) : RoomCall → Prop
  | upsert _ entry => PlainHost entry.supernodeId
  | upsertFromRemote _ entry => PlainHost entry.supernodeId
  | upsertManyFromRemote _ entries => ∀ entry ∈ entries, PlainHost entry.supernodeId
  | syncFromRoomList _ supernodeId _ => PlainHost supernodeId
  | setSpaceLinkage supernodeId _ _ _ => PlainHost supernodeId
  | adoptRoomIntoSpace _ _ supernodeId _ _ _ _ _ => PlainHost supernodeId
  | normalizeSupernodeIds peers tombstones =>
    peers.Settles ∧ s.FoldsNone peers ∧ ∀ key, key ∈ tombstones ↔ key ∈ s.deletedIds

/-- The host of a room after calls. -/
def hostAfterAll (calls : List RoomCall) (host : String) : String := calls.foldl (fun host call => call.hostAfter host) host

/-- Something holds of a host at one of the calls. -/
def Occurs (P : RoomCall → String → Prop) : List RoomCall → String → Prop
  | [], _ => False
  | call :: calls, host => P call host ∨ Occurs P calls (call.hostAfter host)

/-- The entries that a call brings of rooms that others list. -/
def brings (s : RoomStore) : RoomCall → Option (Nat × List RoomEntry)
  | upsertFromRemote now entry => some (now, [entry])
  | upsertManyFromRemote now entries => some (now, entries)
  | syncFromRoomList now supernodeId rooms => some (now, s.listedEntries supernodeId rooms)
  | _ => none

end RoomCall

namespace RelearningAux

/-! ## Keys -/

theorem splitOnce_entryKey {host : String} (h : PlainHost host) (room : String) :
    splitOnce ':' (entryKey host room) = some (host, room) := by
  refine splitOnce_eq_some_iff.mpr ⟨?_, h⟩
  unfold entryKey
  simp only [String.toList_append, List.append_assoc]
  rfl

/-- Plain hosts and ids are told apart by their keys. -/
theorem entryKey_inj {host host' room room' : String} (h : PlainHost host) (h' : PlainHost host')
    (hkey : entryKey host room = entryKey host' room') : host = host' ∧ room = room' := by
  have heq := (splitOnce_entryKey h room).symm.trans ((congrArg (splitOnce ':') hkey).trans (splitOnce_entryKey h' room'))
  simpa using heq

theorem get_filed {s : RoomStore} (hs : s.Filed) {host room : String} {e : RoomEntry} (hhost : PlainHost host)
    (hget : s.get host room = some e) : e.supernodeId = host ∧ e.roomId = room := by
  obtain ⟨hkey, hplain⟩ := hs _ e hget
  obtain ⟨hsn, hid⟩ := entryKey_inj hhost hplain hkey
  exact ⟨hsn.symm, hid.symm⟩

/-! ## What is kept -/

theorem Kept.refl (e : RoomEntry) : Kept e e := ⟨rfl, id, id, id, id, id, id, id⟩

theorem Kept.trans {e e' e'' : RoomEntry} (h : Kept e e') (h' : Kept e' e'') : Kept e e'' where
  roomId := h'.roomId.trans h.roomId
  isCreator := h'.isCreator ∘ h.isCreator
  inviteToken := h'.inviteToken ∘ h.inviteToken
  creatorId := h'.creatorId ∘ h.creatorId
  spaceId := h'.spaceId ∘ h.spaceId
  parentId := h'.parentId ∘ h.parentId
  invitePolicy := h'.invitePolicy ∘ h.invitePolicy
  roomName := h'.roomName ∘ h.roomName

/-- Of two texts, the second where the first is none. -/
theorem either_ne {a b : String} (h : b ≠ "") : (if a = "" then b else a) ≠ "" := by
  split
  · exact h
  · assumption

/-- A merge keeps what is stored of the room. -/
theorem kept_mergedEntry {existing m : RoomEntry} (hid : m.roomId = existing.roomId) : Kept existing (RoomStore.mergedEntry existing m) where
  roomId := hid
  isCreator h := by
    unfold RoomStore.mergedEntry
    simp [h]
  inviteToken := either_ne
  creatorId := either_ne
  spaceId := either_ne
  parentId := either_ne
  invitePolicy := either_ne
  roomName := by
    rintro ⟨hempty, hname⟩
    unfold RoomStore.mergedEntry
    dsimp only
    split
    · exact ⟨hempty, by rwa [hid]⟩
    · rename_i h
      simp only [Bool.or_eq_true, Bool.and_eq_true, decide_eq_true_eq, not_or, not_and, Decidable.not_not] at h
      exact ⟨h.1, fun heq => hname (h.2 ⟨heq, hempty⟩)⟩

/-- A merge of an entry with a usual type leaves a private room of the user's private. -/
theorem private_mergedEntry {existing m : RoomEntry} (hours : OursPrivate existing) (htype : m.roomType ∈ usualTypes) :
    (RoomStore.mergedEntry existing m).roomType = "private" := by
  obtain ⟨hprivate, hours⟩ := hours
  have hown : (existing.isCreator || decide (existing.inviteToken ≠ "")) = true := by simpa using hours
  unfold RoomStore.mergedEntry
  dsimp only
  rw [hown, hprivate]
  simp only [usualTypes, List.mem_cons, List.not_mem_nil, or_false] at htype
  rcases htype with h | h | h <;> rw [h] <;> rfl

/-! ## Stores that become others -/

variable {s s' s'' : RoomStore} {f g : String → String} {A B O P U V : String → String → Prop}

theorem Relearns.refl (hs : s.Filed) : Relearns id A O U s s where
  kept host room e hhost hget := by
    refine ⟨e, hget, Kept.refl e, fun hours _ => hours.1, fun _ => ?_⟩
    obtain ⟨rfl, -⟩ := get_filed hs hhost hget
    rfl
  hidden _ _ _ h _ := h

/-- What is kept twice is kept. -/
theorem Relearns.trans (hf : ∀ host, PlainHost host → PlainHost (f host)) (h : Relearns f A O U s s') (h' : Relearns g B P V s' s'') :
    Relearns (g ∘ f) (fun host room => A host room ∨ B (f host) room) (fun host room => O host room ∨ P (f host) room)
      (fun host room => U host room ∨ V (f host) room) s s'' where
  kept host room e hhost hget := by
    obtain ⟨e₁, hget₁, hkept₁, hprivate₁, hsame₁⟩ := h.kept host room e hhost hget
    obtain ⟨e₂, hget₂, hkept₂, hprivate₂, hsame₂⟩ := h'.kept (f host) room e₁ (hf host hhost) hget₁
    refine ⟨e₂, hget₂, Kept.trans hkept₁ hkept₂, fun hours hother => ?_, fun habout => ?_⟩
    · obtain ⟨hother₁, hother₂⟩ := not_or.mp hother
      refine hprivate₂ ⟨hprivate₁ hours hother₁, ?_⟩ hother₂
      rcases hours.2 with hcreator | htoken
      · exact Or.inl (hkept₁.isCreator hcreator)
      · exact Or.inr (hkept₁.inviteToken htoken)
    · obtain ⟨habout₁, habout₂⟩ := not_or.mp habout
      rw [hsame₂ habout₂, hsame₁ habout₁]
      rfl
  hidden host room hhost hhidden hlift := by
    obtain ⟨hlift₁, hlift₂⟩ := not_or.mp hlift
    exact h'.hidden (f host) room (hf host hhost) (h.hidden host room hhost hhidden hlift₁) hlift₂

/-- Where more rooms are in question, less is said. -/
theorem Relearns.mono (h : Relearns f A O U s s') (hA : ∀ host room, A host room → B host room)
    (hO : ∀ host room e, s.get host room = some e → OursPrivate e → O host room → P host room)
    (hU : ∀ host room, U host room → V host room) : Relearns f B P V s s' where
  kept host room e hhost hget := by
    obtain ⟨e', hget', hkept, hprivate, hsame⟩ := h.kept host room e hhost hget
    exact ⟨e', hget', hkept, fun hours hother => hprivate hours fun ho => hother (hO host room e hget hours ho),
      fun habout => hsame fun ha => habout (hA host room ha)⟩
  hidden host room hhost hhidden hlift := h.hidden host room hhost hhidden fun hu => hlift (hU host room hu)

/-! ## Merging -/

/-- The entry is of the room. -/
def Is (entry : RoomEntry) (host room : String) : Prop := entry.supernodeId = host ∧ entry.roomId = room

/-- What a merge files. -/
def mergedOver (s : RoomStore) (entry : RoomEntry) : RoomEntry :=
  (s.rooms.lookup (entryKey entry.supernodeId entry.roomId)).elim entry fun existing => RoomStore.mergedEntry existing entry

theorem mergedOver_filed (s : RoomStore) (entry : RoomEntry) :
    (mergedOver s entry).supernodeId = entry.supernodeId ∧ (mergedOver s entry).roomId = entry.roomId := by
  unfold mergedOver
  cases s.rooms.lookup (entryKey entry.supernodeId entry.roomId) <;> exact ⟨rfl, rfl⟩

theorem rooms_noteAdded (s : RoomStore) (now : Nat) (roomId : String) : (s.noteAdded now roomId).rooms = s.rooms := by
  unfold RoomStore.noteAdded
  split <;> rfl

theorem deletedIds_noteAdded (s : RoomStore) (now : Nat) (roomId : String) : (s.noteAdded now roomId).deletedIds = s.deletedIds := by
  unfold RoomStore.noteAdded
  split <;> rfl

/-- A merge files one entry and lifts one tombstone, and says so where either is new. -/
theorem mergeInMemory_spec {now : Nat} {entry : RoomEntry} {explicit changed : Bool}
    (h : s.mergeInMemory now entry explicit = some (s', changed)) :
    s'.rooms.lookup (entryKey entry.supernodeId entry.roomId) = some (mergedOver s entry) ∧
      (∀ k, k ≠ entryKey entry.supernodeId entry.roomId → s'.rooms.lookup k = s.rooms.lookup k) ∧
      s'.deletedIds = s.deletedIds.erase (entryKey entry.supernodeId entry.roomId) ∧
      (changed = true → s.rooms.lookup (entryKey entry.supernodeId entry.roomId) ≠ some (mergedOver s entry) ∨
        entryKey entry.supernodeId entry.roomId ∈ s.deletedIds) := by
  unfold RoomStore.mergeInMemory at h
  change (if entry.supernodeId = "" then none else _) = _ at h
  split at h
  · cases h
  · dsimp only at h
    set key := entryKey entry.supernodeId entry.roomId with hkey
    have hmerged : ((s.rooms.lookup key).elim entry fun existing => RoomStore.mergedEntry existing entry) = mergedOver s entry := rfl
    rw [hmerged] at h
    generalize hnoted : (if explicit = true ∧ ((s.rooms.lookup key).isNone = true ∨ decide (key ∈ s.deletedIds) = true) then
      RoomStore.noteAdded { s with deletedIds := s.deletedIds.erase key } now (mergedOver s entry).roomId
      else { s with deletedIds := s.deletedIds.erase key }) = noted at h
    have hrooms : noted.rooms = s.rooms := by
      rw [← hnoted]
      split
      · exact rooms_noteAdded _ _ _
      · rfl
    have hdeleted : noted.deletedIds = s.deletedIds.erase key := by
      rw [← hnoted]
      split
      · exact deletedIds_noteAdded _ _ _
      · rfl
    rw [hrooms] at h
    split at h
    · rename_i hsame
      obtain ⟨rfl, rfl⟩ := Prod.mk.inj (Option.some.inj h)
      exact ⟨by rw [hrooms]; exact of_decide_eq_true hsame.1, fun k _ => by rw [hrooms], hdeleted, nofun⟩
    · rename_i hnew
      obtain ⟨rfl, rfl⟩ := Prod.mk.inj (Option.some.inj h)
      refine ⟨AList.lookup_insert _, fun k hk => AList.lookup_insert_ne hk, hdeleted, fun _ => ?_⟩
      by_contra hcon
      obtain ⟨hstored, hshown⟩ := not_or.mp hcon
      exact hnew ⟨decide_eq_true (not_not.mp hstored), decide_eq_false hshown⟩

/-- What one entry changes. -/
theorem relearns_merge (hs : s.Filed) {now : Nat} {entry : RoomEntry} {explicit changed : Bool} (hplain : PlainHost entry.supernodeId)
    (h : s.mergeInMemory now entry explicit = some (s', changed)) (hU : ∀ host room, Is entry host room → U host room ∨
      s.isHiddenFromSidebar host room = false) :
    s'.Filed ∧ Relearns id (Is entry) (fun host room => Is entry host room ∧ entry.roomType ∉ usualTypes) U s s' := by
  obtain ⟨hfiled, hothers, hdeleted, -⟩ := mergeInMemory_spec h
  obtain ⟨hsn, hid⟩ := mergedOver_filed s entry
  refine ⟨fun k e hk => ?_, fun host room e hhost hget => ?_, fun host room hhost hhidden hlift => ?_⟩
  · by_cases hkey : k = entryKey entry.supernodeId entry.roomId
    · subst hkey
      obtain rfl := Option.some.inj (hfiled.symm.trans hk)
      exact ⟨by rw [hsn, hid], by rwa [hsn]⟩
    · exact hs k e ((hothers k hkey).symm.trans hk)
  · by_cases hkey : entryKey host room = entryKey entry.supernodeId entry.roomId
    · obtain ⟨rfl, rfl⟩ := entryKey_inj hhost hplain hkey
      have hover : mergedOver s entry = RoomStore.mergedEntry e entry := by
        have hget' : s.rooms.lookup (entryKey entry.supernodeId entry.roomId) = some e := hget
        unfold mergedOver
        rw [hget']
        rfl
      rw [hover] at hfiled
      refine ⟨_, hfiled, kept_mergedEntry (get_filed hs hhost hget).2.symm, fun hours hother => ?_, fun habout => ?_⟩
      · refine private_mergedEntry hours ?_
        by_contra htype
        exact hother ⟨⟨rfl, rfl⟩, htype⟩
      · exact absurd ⟨rfl, rfl⟩ habout
    · refine ⟨e, (hothers _ hkey).trans hget, Kept.refl e, fun hours _ => hours.1, fun _ => ?_⟩
      obtain ⟨rfl, -⟩ := get_filed hs hhost hget
      rfl
  · have hmem : entryKey host room ∈ s.deletedIds := of_decide_eq_true hhidden
    refine decide_eq_true ?_
    rw [hdeleted]
    refine Finset.mem_erase.mpr ⟨fun hkey => ?_, hmem⟩
    obtain ⟨rfl, rfl⟩ := entryKey_inj hhost hplain hkey
    rcases hU _ _ ⟨rfl, rfl⟩ with hu | hshown
    · exact hlift hu
    · rw [hhidden] at hshown
      cases hshown

/-- A turn of a list keeps what is stored. -/
theorem relearns_turn (hs : s.Filed) (now : Nat) (dirty : Bool) {entry : RoomEntry} (hplain : PlainHost entry.supernodeId) :
    (RoomStore.upsertTurn now (s, dirty) entry).1.Filed ∧
      Relearns id (Is entry) (fun host room => Is entry host room ∧ entry.roomType ∉ usualTypes) U s
        (RoomStore.upsertTurn now (s, dirty) entry).1 := by
  unfold RoomStore.upsertTurn
  split
  · exact ⟨hs, Relearns.refl hs⟩
  · rename_i hskip
    split
    · rename_i s₁ changed hmerge
      refine relearns_merge hs hplain hmerge fun host room his => Or.inr ?_
      obtain ⟨rfl, rfl⟩ := his
      refine eq_false_of_ne_true fun hhidden => hskip ⟨fun hempty => ?_, hhidden⟩
      unfold RoomStore.mergeInMemory at hmerge
      rw [if_pos hempty] at hmerge
      cases hmerge
    · exact ⟨hs, Relearns.refl hs⟩

/-- A list keeps what is stored. -/
theorem relearns_list (now : Nat) (entries : List RoomEntry) {acc : RoomStore × Bool} (hs : acc.1.Filed)
    (hplain : ∀ entry ∈ entries, PlainHost entry.supernodeId) :
    (entries.foldl (RoomStore.upsertTurn now) acc).1.Filed ∧
      Relearns id (fun host room => ∃ entry ∈ entries, Is entry host room)
        (fun host room => ∃ entry ∈ entries, Is entry host room ∧ entry.roomType ∉ usualTypes) U acc.1
        (entries.foldl (RoomStore.upsertTurn now) acc).1 := by
  induction entries generalizing acc with
  | nil => exact ⟨hs, Relearns.refl hs⟩
  | cons entry entries ih =>
    obtain ⟨hfiled, hturn⟩ := relearns_turn (U := U) hs now acc.2 (hplain entry List.mem_cons_self)
    obtain ⟨hfiled', hrest⟩ := ih hfiled fun e he => hplain e (List.mem_cons_of_mem entry he)
    refine ⟨hfiled', Relearns.mono (Relearns.trans (fun _ h => h) hturn hrest) ?_ ?_ ?_⟩
    · rintro host room (his | ⟨e, he, his⟩)
      · exact ⟨entry, List.mem_cons_self, his⟩
      · exact ⟨e, List.mem_cons_of_mem entry he, his⟩
    · rintro host room _ - - (his | ⟨e, he, his⟩)
      · exact ⟨entry, List.mem_cons_self, his⟩
      · exact ⟨e, List.mem_cons_of_mem entry he, his⟩
    · rintro host room (hu | hu) <;> exact hu

/-! ### Room lists -/

/-- The entry of a listed room has its id, its host, and of a private room its type or the stored one. -/
theorem listedEntry_spec {supernodeId : String} {listed : Json} {entry : RoomEntry} (h : s.listedEntry supernodeId listed = some entry) :
    entry.supernodeId = supernodeId ∧ RoomCall.listedId listed = some entry.roomId ∧
      ∀ e, s.get supernodeId entry.roomId = some e → e.roomType = "private" → entry.roomType ∉ usualTypes →
        ∃ type, (RoomStore.listedField listed "room_type").bind Json.asStr = some type ∧ type ∉ usualTypes := by
  unfold RoomStore.listedEntry at h
  dsimp only at h
  split at h
  · cases h
  · rename_i hid
    obtain rfl := (Option.some.inj h).symm
    have hlisted : ∃ id, RoomCall.listedId listed = some id ∧ ((RoomStore.listedField listed "room_id").bind Json.asStr).getD "" = id := by
      cases hfield : (RoomStore.listedField listed "room_id").bind Json.asStr with
      | none =>
        rw [hfield] at hid
        exact absurd rfl hid
      | some id => exact ⟨id, hfield, rfl⟩
    obtain ⟨id, hlistedId, hget⟩ := hlisted
    refine ⟨rfl, ?_, fun e he hprivate hother => ?_⟩
    · dsimp only
      rw [hlistedId, hget]
    · dsimp only at he hother
      rw [he, Option.map_some, hprivate] at hother
      cases htype : (RoomStore.listedField listed "room_type").bind Json.asStr with
      | none =>
        rw [htype] at hother
        exact absurd (by decide) hother
      | some type =>
        refine ⟨type, rfl, fun husual => hother ?_⟩
        rw [htype]
        by_cases hempty : type = ""
        · subst hempty
          decide
        · have hfilter : Option.filter (fun t => decide (t ≠ "")) (some type) = some type := by
            simp [hempty]
          rw [hfilter]
          exact husual

/-- A room list keeps what is stored. -/
theorem relearns_sync (hs : s.Filed) (now : Nat) {supernodeId : String} (hplain : PlainHost supernodeId) (rooms : Json) :
    (s.upsertManySaving now (s.listedEntries supernodeId rooms)).1.Filed ∧
      Relearns id (fun host room => (RoomCall.syncFromRoomList now supernodeId rooms).About room host)
        (fun host room => (RoomCall.syncFromRoomList now supernodeId rooms).NamesOther room host) U s
        (s.upsertManySaving now (s.listedEntries supernodeId rooms)).1 := by
  have hmem : ∀ entry ∈ s.listedEntries supernodeId rooms, ∃ listed ∈ rooms.asArray.getD [],
      s.listedEntry supernodeId listed = some entry := fun entry hentry => List.mem_filterMap.mp hentry
  have hhost : ∀ entry ∈ s.listedEntries supernodeId rooms, PlainHost entry.supernodeId := by
    intro entry hentry
    obtain ⟨listed, -, hlisted⟩ := hmem entry hentry
    rw [(listedEntry_spec hlisted).1]
    exact hplain
  obtain ⟨hfiled, hlist⟩ := @relearns_list U now (s.listedEntries supernodeId rooms) (s, false) hs hhost
  refine ⟨hfiled, Relearns.mono hlist ?_ ?_ fun _ _ hu => hu⟩
  · rintro host room ⟨entry, hentry, rfl, rfl⟩
    obtain ⟨listed, hin, hlisted⟩ := hmem entry hentry
    obtain ⟨hsn, hid, -⟩ := listedEntry_spec hlisted
    exact ⟨hsn.symm, listed, hin, hid⟩
  · rintro host room e hget hours ⟨entry, hentry, ⟨rfl, rfl⟩, hother⟩
    obtain ⟨listed, hin, hlisted⟩ := hmem entry hentry
    obtain ⟨hsn, hid, htype⟩ := listedEntry_spec hlisted
    rw [hsn] at hget
    exact ⟨hsn.symm, listed, hin, hid, htype e hget hours.1 hother⟩

/-! ## Links into Space trees -/

/-- An entry that is changed in place, where it is. -/
theorem relearns_modify (hs : s.Filed) {host₀ room₀ : String} (hplain : PlainHost host₀) {change : RoomEntry → RoomEntry}
    (hchange : ∀ e, Kept e (change e) ∧ (change e).supernodeId = e.supernodeId ∧ (change e).roomType = e.roomType)
    (hrooms : ∀ k, s'.rooms.lookup k = if k = entryKey host₀ room₀ then (s.rooms.lookup k).map change else s.rooms.lookup k)
    (hdeleted : s'.deletedIds = s.deletedIds) :
    s'.Filed ∧ Relearns id (fun host room => host₀ = host ∧ room₀ = room) O U s s' := by
  refine ⟨fun k e hk => ?_, fun host room e hhost hget => ?_, fun host room _ hhidden _ => ?_⟩
  · rw [hrooms] at hk
    split at hk
    · obtain ⟨e₀, he₀, rfl⟩ := Option.map_eq_some_iff.mp hk
      obtain ⟨hkept, hsn, -⟩ := hchange e₀
      rw [hsn, hkept.roomId]
      exact hs k e₀ he₀
    · exact hs k e hk
  · have hsame := get_filed hs hhost hget
    have hget' : s.rooms.lookup (entryKey host room) = some e := hget
    have hlookup := hrooms (entryKey host room)
    rw [hget'] at hlookup
    split at hlookup
    · rename_i hkey
      obtain ⟨rfl, rfl⟩ := entryKey_inj hhost hplain hkey
      obtain ⟨hkept, -, htype⟩ := hchange e
      exact ⟨change e, hlookup, hkept, fun hours _ => htype.trans hours.1, fun habout => absurd ⟨rfl, rfl⟩ habout⟩
    · refine ⟨e, hlookup, Kept.refl e, fun hours _ => hours.1, fun _ => ?_⟩
      obtain ⟨rfl, -⟩ := hsame
      rfl
  · unfold RoomStore.isHiddenFromSidebar at hhidden ⊢
    rwa [hdeleted]

/-- An accepted invite's links keep what is stored. -/
theorem relearns_linkage (hs : s.Filed) {supernodeId : String} (hplain : PlainHost supernodeId) (roomId parentId spaceId : String) :
    (s.setSpaceLinkage supernodeId roomId parentId spaceId).1.Filed ∧
      Relearns id (fun host room => supernodeId = host ∧ roomId = room) O U s
        (s.setSpaceLinkage supernodeId roomId parentId spaceId).1 := by
  unfold RoomStore.setSpaceLinkage
  split
  · exact ⟨hs, Relearns.refl hs⟩
  · rename_i entry hget
    have hget' : s.rooms.lookup (entryKey supernodeId roomId) = some entry := hget
    refine @relearns_modify _ _ _ _ hs _ _ hplain (fun e => { e with
      parentId := if (decide (parentId ≠ "") && decide (e.parentId ≠ parentId)) = true then parentId else e.parentId
      spaceId := if (decide (spaceId ≠ "") && decide (e.spaceId ≠ spaceId)) = true then spaceId else e.spaceId }) ?_ (fun k => ?_) rfl
    · intro e
      have hkeep (new old : String) (h : old ≠ "") : (if (decide (new ≠ "") && decide (old ≠ new)) = true then new else old) ≠ "" := by
        split
        · rename_i hnew
          exact of_decide_eq_true (Bool.and_eq_true_iff.mp hnew).1
        · exact h
      exact ⟨⟨rfl, id, id, id, hkeep spaceId e.spaceId, hkeep parentId e.parentId, id, id⟩, rfl, rfl⟩
    · split
      · rename_i hk
        subst hk
        rw [hget', Option.map_some]
        exact AList.lookup_insert _
      · rename_i hk
        exact AList.lookup_insert_ne hk

/-- An id of a Space is none of nothing where digests have bytes. -/
theorem deriveNodeId_ne {D : Type} {H : Hashing D} (hH : ∀ d, H.bytes d ≠ []) (parentId ownerPub name : String) :
    deriveNodeId H parentId ownerPub name ≠ "" := by
  have hhex : (Codec.hexEncode (H.bytes (H.sha256 (parentId ++ ":" ++ ownerPub ++ ":" ++ name).toUTF8.data.toList))).toList ≠ [] := by
    obtain ⟨b, bytes, hbytes⟩ := List.exists_cons_of_ne_nil
      (hH (H.sha256 (parentId ++ ":" ++ ownerPub ++ ":" ++ name).toUTF8.data.toList))
    unfold Codec.hexEncode
    rw [hbytes, String.toList_ofList, List.flatMap_cons]
    exact List.cons_ne_nil _ _
  unfold deriveNodeId encodeHash
  intro hempty
  have htake := String.toList_eq_nil_iff.mpr hempty
  rw [String.toList_ofList, List.take_eq_nil_iff] at htake
  exact htake.elim (by decide) hhex

/-- An adoption keeps what is stored. -/
theorem relearns_adopt {D : Type} {H : Hashing D} (hH : ∀ d, H.bytes d ≠ []) (hs : s.Filed) {supernodeId : String}
    (hplain : PlainHost supernodeId) (sign : List UInt8 → List UInt8) (ownerPub roomId roomName roomType parentNodeId : String)
    (issuedAt : Nat) :
    (s.adoptRoomIntoSpace H sign ownerPub supernodeId roomId roomName roomType parentNodeId issuedAt).1.Filed ∧
      Relearns id (fun host room => supernodeId = host ∧ roomId = room) O U s
        (s.adoptRoomIntoSpace H sign ownerPub supernodeId roomId roomName roomType parentNodeId issuedAt).1 := by
  have hspace := deriveNodeId_ne hH "" ownerPub supernodeId
  have hparent : (if parentNodeId = "" ∨ parentNodeId = roomId then deriveNodeId H "" ownerPub supernodeId else parentNodeId) ≠ "" := by
    split
    · exact hspace
    · rename_i h
      exact fun hempty => h (Or.inl hempty)
  refine @relearns_modify _ _ _ _ hs _ _ hplain (fun e => { e with
    spaceId := deriveNodeId H "" ownerPub supernodeId
    parentId := if parentNodeId = "" ∨ parentNodeId = roomId then deriveNodeId H "" ownerPub supernodeId else parentNodeId }) ?_ (fun k => ?_) rfl
  · exact fun e => ⟨⟨rfl, id, id, id, fun _ => hspace, fun _ => hparent, id, id⟩, rfl, rfl⟩
  · unfold RoomStore.adoptRoomIntoSpace
    dsimp only
    rw [lookup_modify]
    split
    · rename_i hk
      rw [hk]
    · rfl

/-! ## Hosts -/

variable {peers : PeerStore}

theorem canonicalHost_plain (hp : peers.Settles) {host : String} (h : PlainHost host) : PlainHost (peers.canonicalHost host) := by
  unfold PeerStore.canonicalHost
  cases hresolve : peers.resolveSupernodeIdentityPub host with
  | none => exact h
  | some canon => exact (hp host canon hresolve).1

theorem canonicalHost_idem (hp : peers.Settles) (host : String) :
    peers.canonicalHost (peers.canonicalHost host) = peers.canonicalHost host := by
  cases hresolve : peers.resolveSupernodeIdentityPub host with
  | none =>
    have hself : peers.canonicalHost host = host := by simp [PeerStore.canonicalHost, hresolve]
    rw [hself, hself]
  | some canon =>
    have hhost : peers.canonicalHost host = canon := by simp [PeerStore.canonicalHost, hresolve]
    rw [hhost]
    simp [PeerStore.canonicalHost, (hp host canon hresolve).2]

/-- A room under the identity of its host. -/
def moved (peers : PeerStore) (e : RoomEntry) : RoomEntry := { e with supernodeId := peers.canonicalHost e.supernodeId }

/-- The key an entry belongs under. -/
def keyOf (e : RoomEntry) : String := entryKey e.supernodeId e.roomId

/-- The turn of a room moves it, if its host has another identity. -/
theorem normalizeRoom_cases (peers : PeerStore) (acc : RoomStore × Bool) (e : RoomEntry) :
    (moved peers e = e ∧ RoomStore.normalizeRoom peers acc e = acc) ∨
      (keyOf (moved peers e) = entryKey (peers.canonicalHost e.supernodeId) e.roomId ∧ RoomStore.normalizeRoom peers acc e =
        ({ acc.1 with rooms := (acc.1.rooms.erase (keyOf e)).insert (keyOf (moved peers e)) (moved peers e) }, true)) := by
  unfold RoomStore.normalizeRoom moved keyOf
  cases hresolve : peers.resolveSupernodeIdentityPub e.supernodeId with
  | none =>
    have hself : peers.canonicalHost e.supernodeId = e.supernodeId := by simp [PeerStore.canonicalHost, hresolve]
    exact Or.inl ⟨by rw [hself], rfl⟩
  | some canon =>
    have hhost : peers.canonicalHost e.supernodeId = canon := by simp [PeerStore.canonicalHost, hresolve]
    rw [hhost]
    dsimp only
    split
    · rename_i hsame
      exact Or.inl ⟨by rw [hsame], rfl⟩
    · exact Or.inr ⟨rfl, rfl⟩

theorem deletedIds_normalizeRoom (peers : PeerStore) (acc : RoomStore × Bool) (e : RoomEntry) :
    (RoomStore.normalizeRoom peers acc e).1.deletedIds = acc.1.deletedIds := by
  rcases normalizeRoom_cases peers acc e with ⟨-, h⟩ | ⟨-, h⟩ <;> rw [h]

theorem filed_normalizeRoom (hp : peers.Settles) {acc : RoomStore × Bool} (h : acc.1.Filed) {e : RoomEntry} (he : PlainHost e.supernodeId) :
    (RoomStore.normalizeRoom peers acc e).1.Filed := by
  rcases normalizeRoom_cases peers acc e with ⟨-, hturn⟩ | ⟨hkey, hturn⟩ <;> rw [hturn]
  · exact h
  · intro k x hk
    by_cases hnew : k = keyOf (moved peers e)
    · subst hnew
      obtain rfl := Option.some.inj ((AList.lookup_insert _).symm.trans hk)
      exact ⟨rfl, canonicalHost_plain hp he⟩
    · have hold := (AList.lookup_insert_ne hnew).symm.trans hk
      by_cases hgone : k = keyOf e
      · rw [hgone, AList.lookup_erase] at hold
        cases hold
      · exact h k x ((AList.lookup_erase_ne hgone).symm.trans hold)

/-- The turns of other rooms leave a key alone. -/
theorem lookup_normalizeRooms (pending : List RoomEntry) {acc : RoomStore × Bool} {k : String}
    (hk : ∀ x ∈ pending, k ≠ keyOf x ∧ k ≠ keyOf (moved peers x)) :
    (pending.foldl (RoomStore.normalizeRoom peers) acc).1.rooms.lookup k = acc.1.rooms.lookup k := by
  induction pending generalizing acc with
  | nil => rfl
  | cons x pending ih =>
    obtain ⟨hold, hnew⟩ := hk x List.mem_cons_self
    rw [List.foldl_cons, ih fun y hy => hk y (List.mem_cons_of_mem x hy)]
    rcases normalizeRoom_cases peers acc x with ⟨-, hturn⟩ | ⟨-, hturn⟩ <;> rw [hturn]
    dsimp only
    rw [AList.lookup_insert_ne hnew, AList.lookup_erase_ne hold]

/-- The turn of a room files it under the identity of its host. -/
theorem lookup_normalizeRoom {acc : RoomStore × Bool} {e : RoomEntry} (h : acc.1.rooms.lookup (keyOf e) = some e) :
    (RoomStore.normalizeRoom peers acc e).1.rooms.lookup (keyOf (moved peers e)) = some (moved peers e) := by
  rcases normalizeRoom_cases peers acc e with ⟨hsame, hturn⟩ | ⟨-, hturn⟩ <;> rw [hturn]
  · rwa [hsame]
  · exact AList.lookup_insert _

theorem nodup_values (hs : s.Filed) : (values s.rooms).Nodup := by
  have hkeys : (values s.rooms).map keyOf = s.rooms.keys := by
    unfold values AList.keys List.keys
    rw [List.map_map]
    refine List.map_congr_left fun entry hentry => ?_
    exact (hs entry.1 entry.2 (AList.mem_lookup_iff.mpr hentry)).1.symm
  exact List.Nodup.of_map keyOf (hkeys ▸ s.rooms.keys_nodup)

/-- Where no two rooms come together, every room ends under the identity of its host. -/
theorem rooms_normalize (hs : s.Filed) (hp : peers.Settles) (hfolds : s.FoldsNone peers) {host room : String} {e : RoomEntry}
    (hhost : PlainHost host) (hget : s.get host room = some e) (dirty : Bool) :
    ((values s.rooms).foldl (RoomStore.normalizeRoom peers) (s, dirty)).1.get (peers.canonicalHost host) room = some (moved peers e) := by
  obtain ⟨rfl, rfl⟩ := get_filed hs hhost hget
  have hstored : e ∈ values s.rooms := (mem_values _ _).mpr ⟨_, hget⟩
  obtain ⟨before, after, hsplit⟩ := List.append_of_mem hstored
  have hnodup : (before ++ e :: after).Nodup := hsplit ▸ nodup_values hs
  have hapart : ∀ x ∈ values s.rooms, x ≠ e → keyOf e ≠ keyOf x ∧ keyOf e ≠ keyOf (moved peers x) ∧
      keyOf (moved peers e) ≠ keyOf x ∧ keyOf (moved peers e) ≠ keyOf (moved peers x) := by
    intro x hx hne
    obtain ⟨k, hk⟩ := (mem_values _ _).mp hx
    obtain ⟨rfl, hplain⟩ := hs k x hk
    have hclash (hroom : e.roomId = x.roomId) (hcanon : peers.canonicalHost e.supernodeId = peers.canonicalHost x.supernodeId) : False := by
      have hsn := hfolds _ e _ x hget hk hroom hcanon
      rw [← hsn, ← hroom] at hk
      exact hne (Option.some.inj (hk.symm.trans hget))
    have hplain' := canonicalHost_plain hp hplain
    have hhost' := canonicalHost_plain hp hhost
    refine ⟨fun h => ?_, fun h => ?_, fun h => ?_, fun h => ?_⟩
    · obtain ⟨hsn, hroom⟩ := entryKey_inj hhost hplain h
      exact hclash hroom (by rw [hsn])
    · obtain ⟨hsn, hroom⟩ := entryKey_inj hhost hplain' h
      exact hclash hroom (by rw [hsn, canonicalHost_idem hp])
    · obtain ⟨hsn, hroom⟩ := entryKey_inj hhost' hplain h
      exact hclash hroom (by rw [← hsn, canonicalHost_idem hp])
    · obtain ⟨hsn, hroom⟩ := entryKey_inj hhost' hplain' h
      exact hclash hroom hsn
  have hbefore : ∀ x ∈ before, x ≠ e := by
    rintro x hx rfl
    exact (List.nodup_append.mp hnodup).2.2 x hx x List.mem_cons_self rfl
  have hafter : ∀ x ∈ after, x ≠ e := by
    rintro x hx rfl
    exact (List.nodup_cons.mp (List.nodup_append.mp hnodup).2.1).1 hx
  have hinBefore (x : RoomEntry) (hx : x ∈ before) : x ∈ values s.rooms := hsplit ▸ List.mem_append_left _ hx
  have hinAfter (x : RoomEntry) (hx : x ∈ after) : x ∈ values s.rooms :=
    hsplit ▸ List.mem_append_right _ (List.mem_cons_of_mem e hx)
  unfold RoomStore.get
  rw [hsplit, List.foldl_append, List.foldl_cons]
  have hstill : (before.foldl (RoomStore.normalizeRoom peers) (s, dirty)).1.rooms.lookup (keyOf e) = some e := by
    rw [lookup_normalizeRooms before fun x hx => ?_]
    · exact hget
    · obtain ⟨h₁, h₂, -, -⟩ := hapart x (hinBefore x hx) (hbefore x hx)
      exact ⟨h₁, h₂⟩
  have hmoved := @lookup_normalizeRoom peers _ _ hstill
  refine (lookup_normalizeRooms after fun x hx => ?_).trans hmoved
  obtain ⟨-, -, h₃, h₄⟩ := hapart x (hinAfter x hx) (hafter x hx)
  exact ⟨h₃, h₄⟩

theorem filed_normalizeRooms (hp : peers.Settles) (pending : List RoomEntry) (hpending : ∀ e ∈ pending, PlainHost e.supernodeId)
    {acc : RoomStore × Bool} (h : acc.1.Filed) : (pending.foldl (RoomStore.normalizeRoom peers) acc).1.Filed := by
  induction pending generalizing acc with
  | nil => exact h
  | cons e pending ih =>
    exact ih (fun x hx => hpending x (List.mem_cons_of_mem e hx)) (filed_normalizeRoom hp h (hpending e List.mem_cons_self))

theorem deletedIds_normalizeRooms (pending : List RoomEntry) (acc : RoomStore × Bool) :
    (pending.foldl (RoomStore.normalizeRoom peers) acc).1.deletedIds = acc.1.deletedIds := by
  induction pending generalizing acc with
  | nil => rfl
  | cons e pending ih => exact (ih _).trans (deletedIds_normalizeRoom peers acc e)

/-! ### Tombstones -/

/-- The key of a tombstone under the identity of its host. -/
def movedKey (peers : PeerStore) (key : String) : String :=
  match splitOnce ':' key with
  | none => key
  | some (host, room) => entryKey (peers.canonicalHost host) room

theorem movedKey_entryKey (peers : PeerStore) {host : String} (h : PlainHost host) (room : String) :
    movedKey peers (entryKey host room) = entryKey (peers.canonicalHost host) room := by
  unfold movedKey
  rw [splitOnce_entryKey h]

theorem movedKey_idem (hp : peers.Settles) (key : String) : movedKey peers (movedKey peers key) = movedKey peers key := by
  cases hsplit : splitOnce ':' key with
  | none =>
    have hself : movedKey peers key = key := by simp [movedKey, hsplit]
    rw [hself, hself]
  | some parts =>
    have hmoved : movedKey peers key = entryKey (peers.canonicalHost parts.1) parts.2 := by simp [movedKey, hsplit]
    have hplain : PlainHost parts.1 := (splitOnce_eq_some_iff.mp hsplit).2
    rw [hmoved, movedKey_entryKey peers (canonicalHost_plain hp hplain), canonicalHost_idem hp]

/-- The turn of a tombstone moves it, if its host has another identity. -/
theorem normalizeTombstone_cases (peers : PeerStore) (acc : RoomStore × Bool) (key : String) :
    (movedKey peers key = key ∧ RoomStore.normalizeTombstone peers acc key = acc) ∨
      RoomStore.normalizeTombstone peers acc key =
        ({ acc.1 with deletedIds := insert (movedKey peers key) (acc.1.deletedIds.erase key) }, true) := by
  unfold RoomStore.normalizeTombstone movedKey
  cases hsplit : splitOnce ':' key with
  | none => exact Or.inl ⟨rfl, rfl⟩
  | some parts =>
    obtain ⟨host, room⟩ := parts
    have hkey : key = entryKey host room := by
      refine String.toList_injective ?_
      rw [(splitOnce_eq_some_iff.mp hsplit).1]
      simp [entryKey]
    dsimp only
    unfold PeerStore.canonicalHost
    cases peers.resolveSupernodeIdentityPub host with
    | none => exact Or.inl ⟨hkey.symm, rfl⟩
    | some canon =>
      dsimp only [Option.getD_some]
      split
      · rename_i hsame
        exact Or.inl ⟨by rw [hsame, hkey], rfl⟩
      · exact Or.inr rfl

theorem rooms_normalizeTombstones (keys : List String) (acc : RoomStore × Bool) :
    (keys.foldl (RoomStore.normalizeTombstone peers) acc).1.rooms = acc.1.rooms := by
  induction keys generalizing acc with
  | nil => rfl
  | cons key keys ih =>
    rw [List.foldl_cons, ih]
    rcases normalizeTombstone_cases peers acc key with ⟨-, h⟩ | h <;> rw [h]

/-- A tombstone whose turn is to come, or that has moved, ends under the identity of its host. -/
theorem moved_normalizeTombstones (hp : peers.Settles) (keys : List String) {acc : RoomStore × Bool} {key : String}
    (h : (key ∈ acc.1.deletedIds ∧ key ∈ keys) ∨ movedKey peers key ∈ acc.1.deletedIds) :
    movedKey peers key ∈ (keys.foldl (RoomStore.normalizeTombstone peers) acc).1.deletedIds := by
  induction keys generalizing acc with
  | nil => exact h.elim (fun h => absurd h.2 List.not_mem_nil) id
  | cons turn keys ih =>
    refine ih ?_
    rcases normalizeTombstone_cases peers acc turn with ⟨hsame, hturn⟩ | hturn <;> rw [hturn]
    · rcases h with ⟨hmem, hin⟩ | hmoved
      · rcases List.mem_cons.mp hin with rfl | hin
        · exact Or.inr (by rwa [hsame])
        · exact Or.inl ⟨hmem, hin⟩
      · exact Or.inr hmoved
    · dsimp only
      rcases h with ⟨hmem, hin⟩ | hmoved
      · by_cases hkey : key = turn
        · subst hkey
          exact Or.inr (Finset.mem_insert_self _ _)
        · refine Or.inl ⟨Finset.mem_insert_of_mem (Finset.mem_erase.mpr ⟨hkey, hmem⟩), ?_⟩
          exact (List.mem_cons.mp hin).resolve_left hkey
      · by_cases hkey : movedKey peers key = turn
        · -- The tombstone that is taken away is put back under the same key.
          subst hkey
          rw [movedKey_idem hp]
          exact Or.inr (Finset.mem_insert_self _ _)
        · exact Or.inr (Finset.mem_insert_of_mem (Finset.mem_erase.mpr ⟨hkey, hmoved⟩))

/-- The rewriting of hosts keeps what is stored, where no two rooms come together. -/
theorem relearns_normalize (hs : s.Filed) (hp : peers.Settles) (hfolds : s.FoldsNone peers) {tombstones : List String}
    (hall : ∀ key, key ∈ tombstones ↔ key ∈ s.deletedIds) :
    (s.normalizeSupernodeIds peers tombstones).1.Filed ∧
      Relearns peers.canonicalHost A O U s (s.normalizeSupernodeIds peers tombstones).1 := by
  unfold RoomStore.normalizeSupernodeIds
  have hrooms := @rooms_normalizeTombstones peers tombstones ((values s.rooms).foldl (RoomStore.normalizeRoom peers) (s, false))
  refine ⟨fun k e hk => ?_, fun host room e hhost hget => ?_, fun host room hhost hhidden _ => ?_⟩
  · rw [hrooms] at hk
    refine filed_normalizeRooms hp _ (fun x hx => ?_) hs k e hk
    obtain ⟨k', hk'⟩ := (mem_values _ _).mp hx
    exact (hs k' x hk').2
  · obtain ⟨rfl, rfl⟩ := get_filed hs hhost hget
    refine ⟨moved peers e, ?_, ⟨rfl, id, id, id, id, id, id, id⟩, fun hours _ => hours.1, fun _ => rfl⟩
    have hmoved := rooms_normalize hs hp hfolds hhost hget false
    unfold RoomStore.get at hmoved ⊢
    rwa [hrooms]
  · have hmem : entryKey host room ∈ s.deletedIds := of_decide_eq_true hhidden
    refine decide_eq_true ?_
    rw [← movedKey_entryKey peers hhost]
    refine moved_normalizeTombstones hp tombstones (Or.inl ⟨?_, (hall _).mpr hmem⟩)
    rwa [deletedIds_normalizeRooms]

/-! ## Calls and runs -/

variable {D : Type} {H : Hashing D}

theorem hostAfter_plain {call : RoomCall} (h : call.Plain s) {host : String} (hhost : PlainHost host) : PlainHost (call.hostAfter host) := by
  cases call with
  | normalizeSupernodeIds peers tombstones => exact canonicalHost_plain h.1 hhost
  | _ => exact hhost

/-- **One call.** -/
theorem relearns_apply (hH : ∀ d, H.bytes d ≠ []) (hs : s.Filed) (call : RoomCall) (hplain : call.Plain s) :
    (call.apply H s).1.Filed ∧ Relearns call.hostAfter (fun host room => call.About room host) (fun host room => call.NamesOther room host)
      (fun host room => call.Unhides room host) s (call.apply H s).1 := by
  cases call with
  | upsert now entry =>
    have hcall : (RoomCall.upsert now entry).apply H s = s.upsertSaving now entry := rfl
    rw [hcall]
    unfold RoomStore.upsertSaving
    cases hmerge : s.mergeInMemory now entry true with
    | none => exact ⟨hs, Relearns.refl hs⟩
    | some result =>
      obtain ⟨hfiled, hkept⟩ := relearns_merge (U := Is entry) hs hplain hmerge fun _ _ his => Or.inl his
      refine ⟨hfiled, Relearns.mono hkept (fun _ _ h => h) (fun _ _ _ _ _ h => ?_) fun _ _ h => h⟩
      exact ⟨h.1.1, h.1.2, h.2⟩
  | upsertFromRemote now entry =>
    obtain ⟨hfiled, hkept⟩ := relearns_turn hs now false hplain
    refine ⟨hfiled, Relearns.mono hkept (fun _ _ h => h) (fun _ _ _ _ _ h => ?_) fun _ _ h => h⟩
    exact ⟨h.1.1, h.1.2, h.2⟩
  | upsertManyFromRemote now entries =>
    obtain ⟨hfiled, hkept⟩ := @relearns_list _ now entries (s, false) hs hplain
    refine ⟨hfiled, Relearns.mono hkept (fun _ _ h => h) ?_ fun _ _ h => h⟩
    rintro host room - - - ⟨entry, hentry, his, hother⟩
    exact ⟨entry, hentry, his.1, his.2, hother⟩
  | syncFromRoomList now supernodeId rooms => exact relearns_sync hs now hplain rooms
  | setSpaceLinkage supernodeId roomId parentId spaceId => exact relearns_linkage hs hplain roomId parentId spaceId
  | adoptRoomIntoSpace sign ownerPub supernodeId roomId roomName roomType parentNodeId issuedAt =>
    exact relearns_adopt hH hs hplain sign ownerPub roomId roomName roomType parentNodeId issuedAt
  | normalizeSupernodeIds peers tombstones => exact relearns_normalize hs hplain.1 hplain.2.1 hplain.2.2

/-- **Runs.** -/
theorem relearns_run (hH : ∀ d, H.bytes d ≠ []) {calls : List RoomCall} (hs : s.Filed) (hplain : Meets (RoomCall.step H) RoomCall.Plain s calls)
    (hrun : run (RoomCall.step H) s calls = some s') :
    Relearns (RoomCall.hostAfterAll calls) (fun host room => RoomCall.Occurs (RoomCall.About room) calls host)
      (fun host room => RoomCall.Occurs (RoomCall.NamesOther room) calls host)
      (fun host room => RoomCall.Occurs (RoomCall.Unhides room) calls host) s s' := by
  induction calls generalizing s with
  | nil =>
    obtain rfl := Option.some.inj hrun
    exact Relearns.refl hs
  | cons call calls ih =>
    obtain ⟨hcall, hrest⟩ := hplain
    obtain ⟨hfiled, hkept⟩ := relearns_apply hH hs call hcall
    rw [run_cons] at hrun
    exact Relearns.trans (fun _ => hostAfter_plain hcall) hkept (ih hfiled (hrest _ rfl) hrun)

/-! ## Writing -/

/-- An entry that changes nothing leaves the store as it is, and unsaved. -/
theorem turn_quiet {now : Nat} {entry : RoomEntry} (dirty : Bool)
    (h : (RoomStore.upsertTurn now (s, dirty) entry).1.get entry.supernodeId entry.roomId = s.get entry.supernodeId entry.roomId) :
    RoomStore.upsertTurn now (s, dirty) entry = (s, dirty) := by
  unfold RoomStore.upsertTurn at h ⊢
  split
  · rfl
  · rename_i hskip
    rw [if_neg hskip] at h
    cases hmerge : s.mergeInMemory now entry false with
    | none => rfl
    | some result =>
      obtain ⟨s₁, changed⟩ := result
      dsimp only at h hmerge ⊢
      rw [hmerge] at h
      have hshown : entryKey entry.supernodeId entry.roomId ∉ s.deletedIds := by
        refine fun hmem => hskip ⟨fun hempty => ?_, decide_eq_true hmem⟩
        unfold RoomStore.mergeInMemory at hmerge
        rw [if_pos hempty] at hmerge
        cases hmerge
      obtain ⟨hfiled, -, -, hchanged⟩ := mergeInMemory_spec hmerge
      cases changed with
      | true =>
        rcases hchanged rfl with hnew | hhidden
        · exact absurd (h.symm.trans hfiled) hnew
        · exact absurd hhidden hshown
      | false =>
        have hsame : s₁ = s := by
          unfold RoomStore.mergeInMemory at hmerge
          simp only [Bool.false_eq_true, false_and, if_false, Finset.erase_eq_of_notMem hshown] at hmerge
          split at hmerge
          · cases hmerge
          · split at hmerge
            · exact (Prod.mk.inj (Option.some.inj hmerge)).1.symm
            · exact nomatch (Prod.mk.inj (Option.some.inj hmerge)).2
        rw [hsame, Bool.or_false]

/-- A list whose entries change nothing is not saved. -/
theorem list_quiet {now : Nat} {entries : List RoomEntry}
    (h : ∀ entry ∈ entries, (s.upsertFromRemote now entry).1.get entry.supernodeId entry.roomId = s.get entry.supernodeId entry.roomId) :
    s.upsertManySaving now entries = (s, false) := by
  unfold RoomStore.upsertManySaving
  induction entries with
  | nil => rfl
  | cons entry entries ih =>
    rw [List.foldl_cons, turn_quiet false (h entry List.mem_cons_self)]
    exact ih fun e he => h e (List.mem_cons_of_mem entry he)

end RelearningAux

end DoubleSlash.Store
