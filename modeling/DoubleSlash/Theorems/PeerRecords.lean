import DoubleSlash.Store.PeerRecords

/-!
# The peer store has one record an identity

Along every run of the client's operations, as long as remote parties do not mix ids and identities or bring a known identity under
another id or spelling; and what becomes of the store where they do.

## One record an identity

What the store holds along the operations of the client: records filed under their own ids, one for each identity in whatever
spelling, and no id that spells the identity of another record. In such a store every lookup has one answer, whatever the order of the
map.
-/

namespace DoubleSlash.Store

open Assoc Text

/-- Records under their own ids, one an identity, and no id that is the identity of another. -/
structure OneEach (s : PeerStore) : Prop where
  filed : ∀ k r, s.lookup k = some r → r.peerId = k
  named : ∀ k r, s.lookup k = some r → bare r.identityPub ≠ ""
  one : ∀ k r k' r', s.lookup k = some r → s.lookup k' = some r' → bare r.identityPub = bare r'.identityPub → k = k'
  apart : ∀ k r k' r', s.lookup k = some r → s.lookup k' = some r' → bare k = bare r'.identityPub → k = k'

/-- A new record's id spells no other identity of the store, and no other id of the store spells its identity. -/
def Unmixed (s : PeerStore) (record : PeerRecord) : Prop :=
  ∀ k r, s.lookup k = some r → (bare r.identityPub = bare record.peerId ∨ bare k = bare record.identityPub) →
    bare r.identityPub = bare record.identityPub

/-- An id is one of a record of the identity `b`, or spells it. -/
def Names (s : PeerStore) (id b : String) : Prop := bare id = b ∨ ∃ r, s.lookup id = some r ∧ bare r.identityPub = b

namespace PeerOp

/-- What remote parties are to keep to: ids and identities are not mixed, a known identity joins under the id it has and is invited in
the spelling it has. -/
def Fair (s : PeerStore) : PeerOp → Prop
  | acceptJoiner joiner => bare joiner.identityPub ≠ "" ∧ Unmixed s joiner ∧
      ∀ k r, s.lookup k = some r → bare r.identityPub = bare joiner.identityPub → k = joiner.peerId
  | upsertFromInvite record => bare record.identityPub ≠ "" ∧ Unmixed s record ∧
      ∀ k r, s.lookup k = some r → bare r.identityPub = bare record.identityPub → r.identityPub = record.identityPub
  | reorder order => SameMap s order
  | _ => True

/-- The identities an operation is for. -/
def About (s : PeerStore) (b : String) : PeerOp → Prop
  | acceptJoiner joiner => bare joiner.identityPub = b
  | upsertFromInvite record => bare record.identityPub = b
  | edit peerId _ => Names s peerId b
  | setLocalName id _ => Names s id b
  | addRelayHint identityPub _ => bare identityPub = b
  | removeByAnyId id => Names s id b
  | restoreSupernodes supernodeIds => ∃ id ∈ supernodeIds, Names s id b
  | reorder _ => False

end PeerOp

/-- Every lookup by an id that spells something has one answer: a padding-tolerant one gives the record with that id or identity, an
exact one gives it where the identity is spelled so, and the test for supernodes is one of that record. -/
structure LookupsAgree (s : PeerStore) : Prop where
  findIdentity : ∀ id r, bare id ≠ "" →
    (s.findIdentity id = some r ↔ ∃ k, s.lookup k = some r ∧ (k = id ∨ bare r.identityPub = bare id))
  getByIdentity : ∀ id, bare id ≠ "" → s.getByIdentity id = (s.findIdentity id).filter fun r => r.identityPub == id
  isSupernodeId : ∀ id, bare id ≠ "" → s.isSupernodeId id =
    (s.findIdentity id).any fun r => !r.blocked && r.isSupernode && (r.identityPub == id || r.peerId == id)

namespace PeerRecordsAux

variable {s s' : PeerStore}

/-! ## Stores -/

/-- Records of an earlier store with their ids are still one each. -/
theorem oneEach_of_lookups (hs : OneEach s) (h : ∀ k r', s'.lookup k = some r' → ∃ r, s.lookup k = some r ∧
    r'.peerId = r.peerId ∧ r'.identityPub = r.identityPub) : OneEach s' where
  filed k r' hk := by
    obtain ⟨r, hr, hid, -⟩ := h k r' hk
    rw [hid]
    exact hs.filed k r hr
  named k r' hk := by
    obtain ⟨r, hr, -, hidentity⟩ := h k r' hk
    rw [hidentity]
    exact hs.named k r hr
  one k r₁ k' r₂ hk hk' hsame := by
    obtain ⟨r, hr, -, hidentity⟩ := h k r₁ hk
    obtain ⟨r', hr', -, hidentity'⟩ := h k' r₂ hk'
    rw [hidentity, hidentity'] at hsame
    exact hs.one k r k' r' hr hr' hsame
  apart k r₁ k' r₂ hk hk' hsame := by
    obtain ⟨r, hr, -, -⟩ := h k r₁ hk
    obtain ⟨r', hr', -, hidentity'⟩ := h k' r₂ hk'
    rw [hidentity'] at hsame
    exact hs.apart k r k' r' hr hr' hsame

/-- A record that mixes with no other may be filed. -/
theorem oneEach_insert (hs : OneEach s) {r : PeerRecord} (hnamed : bare r.identityPub ≠ "")
    (hone : ∀ k r', s.lookup k = some r' → bare r'.identityPub = bare r.identityPub → k = r.peerId)
    (hid : ∀ k r', s.lookup k = some r' → bare r'.identityPub = bare r.peerId → k = r.peerId)
    (hkey : ∀ k r', s.lookup k = some r' → bare k = bare r.identityPub → k = r.peerId) : OneEach (s.insert r.peerId r) := by
  have hcases (k : String) (r' : PeerRecord) (hk : (s.insert r.peerId r).lookup k = some r') :
      (k = r.peerId ∧ r' = r) ∨ (k ≠ r.peerId ∧ s.lookup k = some r') := by
    by_cases hne : k = r.peerId
    · subst hne
      exact Or.inl ⟨rfl, (Option.some.inj ((AList.lookup_insert _).symm.trans hk)).symm⟩
    · exact Or.inr ⟨hne, (AList.lookup_insert_ne hne).symm.trans hk⟩
  constructor
  · intro k r' hk
    rcases hcases k r' hk with ⟨rfl, rfl⟩ | ⟨-, hold⟩
    · rfl
    · exact hs.filed k r' hold
  · intro k r' hk
    rcases hcases k r' hk with ⟨rfl, rfl⟩ | ⟨-, hold⟩
    · exact hnamed
    · exact hs.named k r' hold
  · intro k r₁ k' r₂ hk hk' hsame
    rcases hcases k r₁ hk with ⟨rfl, rfl⟩ | ⟨-, hold⟩ <;> rcases hcases k' r₂ hk' with ⟨rfl, rfl⟩ | ⟨-, hold'⟩
    · rfl
    · exact (hone k' r₂ hold' hsame.symm).symm
    · exact hone k r₁ hold hsame
    · exact hs.one k r₁ k' r₂ hold hold' hsame
  · intro k r₁ k' r₂ hk hk' hsame
    rcases hcases k r₁ hk with ⟨rfl, rfl⟩ | ⟨-, hold⟩ <;> rcases hcases k' r₂ hk' with ⟨rfl, rfl⟩ | ⟨-, hold'⟩
    · rfl
    · exact (hid k' r₂ hold' hsame.symm).symm
    · exact hkey k r₁ hold hsame
    · exact hs.apart k r₁ k' r₂ hold hold' hsame

/-! ## Operations -/

theorem keepLocalName_ids (s : PeerStore) (r : PeerRecord) :
    (s.keepLocalName r).peerId = r.peerId ∧ (s.keepLocalName r).identityPub = r.identityPub := by
  unfold PeerStore.keepLocalName
  split
  · exact ⟨rfl, rfl⟩
  · split <;> exact ⟨rfl, rfl⟩

/-- What an operation does: the store stays one record an identity, and other identities' records stay. -/
structure Keeps (s : PeerStore) (op : PeerOp) : Prop where
  oneEach : OneEach (op.apply s)
  others : ∀ k r, s.lookup k = some r → ¬ op.About s (bare r.identityPub) → (op.apply s).lookup k = some r

/-- An edit of the record under a key leaves the others alone. -/
theorem keeps_insert (hs : OneEach s) {op : PeerOp} {k₀ : String} {r₀ r₁ : PeerRecord} (hk₀ : s.lookup k₀ = some r₀)
    (happly : op.apply s = s.insert k₀ r₁) (hid : r₁.peerId = r₀.peerId) (hidentity : r₁.identityPub = r₀.identityPub)
    (habout : op.About s (bare r₀.identityPub)) : Keeps s op where
  oneEach := by
    rw [happly]
    refine oneEach_of_lookups hs fun k r' hk => ?_
    by_cases hne : k = k₀
    · subst hne
      obtain rfl := Option.some.inj ((AList.lookup_insert _).symm.trans hk)
      exact ⟨r₀, hk₀, hid, hidentity⟩
    · exact ⟨r', (AList.lookup_insert_ne hne).symm.trans hk, rfl, rfl⟩
  others k r hk hnot := by
    rw [happly]
    by_cases hne : k = k₀
    · subst hne
      obtain rfl := Option.some.inj (hk.symm.trans hk₀)
      exact absurd habout hnot
    · exact (AList.lookup_insert_ne hne).trans hk

/-- An operation that changes nothing. -/
theorem keeps_same (hs : OneEach s) {op : PeerOp} (happly : op.apply s = s) : Keeps s op where
  oneEach := by rwa [happly]
  others k r hk _ := by rwa [happly]

/-- The removal of the record under a key leaves the others alone. -/
theorem keeps_erase (hs : OneEach s) {op : PeerOp} {k₀ : String} {r₀ : PeerRecord} (hk₀ : s.lookup k₀ = some r₀)
    (happly : op.apply s = s.erase k₀) (habout : op.About s (bare r₀.identityPub)) : Keeps s op where
  oneEach := by
    rw [happly]
    refine oneEach_of_lookups hs fun k r' hk => ⟨r', ?_, rfl, rfl⟩
    by_cases hne : k = k₀
    · subst hne
      rw [AList.lookup_erase] at hk
      cases hk
    · exact (AList.lookup_erase_ne hne).symm.trans hk
  others k r hk hnot := by
    rw [happly]
    by_cases hne : k = k₀
    · subst hne
      obtain rfl := Option.some.inj (hk.symm.trans hk₀)
      exact absurd habout hnot
    · exact (AList.lookup_erase_ne hne).trans hk

/-- A joiner that is new, or that joins under the id it has. -/
theorem keeps_acceptJoiner (hs : OneEach s) {joiner : PeerRecord} (hfair : (PeerOp.acceptJoiner joiner).Fair s) :
    Keeps s (.acceptJoiner joiner) := by
  obtain ⟨hnamed, hunmixed, hsame⟩ := hfair
  have happly : (PeerOp.acceptJoiner joiner).apply s = s.acceptJoiner joiner := rfl
  unfold PeerStore.acceptJoiner PeerStore.get at happly
  cases hget : s.lookup joiner.peerId with
  | none =>
    rw [hget] at happly
    obtain ⟨hid, hidentity⟩ := keepLocalName_ids s { joiner with autoConnect := true }
    have hother (k : String) (r : PeerRecord) (hk : s.lookup k = some r) : k ≠ joiner.peerId := by
      rintro rfl
      rw [hget] at hk
      cases hk
    have hnew (k : String) (r : PeerRecord) (hk : s.lookup k = some r) : bare r.identityPub ≠ bare joiner.identityPub :=
      fun h => hother k r hk (hsame k r hk h)
    refine ⟨?_, fun k r hk _ => ?_⟩ <;> rw [happly] <;> unfold PeerStore.upsert
    · refine oneEach_insert hs (by rwa [hidentity]) ?_ ?_ ?_
      · intro k r hk h
        rw [hidentity] at h
        exact absurd h (hnew k r hk)
      · intro k r hk h
        rw [hid] at h
        exact absurd (hunmixed k r hk (Or.inl h)) (hnew k r hk)
      · intro k r hk h
        rw [hidentity] at h
        exact absurd (hunmixed k r hk (Or.inr h)) (hnew k r hk)
    · dsimp only
      rw [hid]
      exact (AList.lookup_insert_ne (hother k r hk)).trans hk
  | some record =>
    rw [hget] at happly
    dsimp only at happly
    split at happly
    · exact keeps_same hs happly
    · rename_i hown
      exact keeps_insert hs hget happly rfl rfl (not_not.mp hown).symm

/-- An invite of a new identity, or of a known one in the spelling it has. -/
theorem keeps_upsertFromInvite (hs : OneEach s) {record : PeerRecord} (hfair : (PeerOp.upsertFromInvite record).Fair s) :
    Keeps s (.upsertFromInvite record) := by
  obtain ⟨hnamed, hunmixed, hsame⟩ := hfair
  obtain ⟨hid, hidentity⟩ := keepLocalName_ids s record
  have happly : (PeerOp.upsertFromInvite record).apply s = s.upsertFromInvite record := rfl
  unfold PeerStore.upsertFromInvite at happly
  dsimp only at happly
  generalize s.keepLocalName record = named at hid hidentity happly
  generalize hrest : (retain s fun _ r => r.identityPub != named.identityPub) = rest at happly
  have hlookup (k : String) : rest.lookup k = (s.lookup k).filter fun r => r.identityPub != named.identityPub := by
    rw [← hrest]
    exact lookup_retain _ _ k
  have hstored (k : String) (r : PeerRecord) (hk : rest.lookup k = some r) :
      s.lookup k = some r ∧ bare r.identityPub ≠ bare record.identityPub := by
    rw [hlookup] at hk
    obtain ⟨hk, hne⟩ := Option.filter_eq_some_iff.mp hk
    refine ⟨hk, fun h => ?_⟩
    rw [hsame k r hk h, hidentity, bne_self_eq_false] at hne
    cases hne
  have hkept (k : String) (r : PeerRecord) (hk : s.lookup k = some r) (hne : bare record.identityPub ≠ bare r.identityPub) :
      rest.lookup k = some r := by
    rw [hlookup]
    refine Option.filter_eq_some_iff.mpr ⟨hk, bne_iff_ne.mpr fun h => hne ?_⟩
    rw [h, hidentity]
  have hrestEach : OneEach rest := oneEach_of_lookups hs fun k r hk => ⟨r, (hstored k r hk).1, rfl, rfl⟩
  -- The record as it is filed, under its own id or its identity.
  have hfiled (final : PeerRecord) (hfinal : final.identityPub = record.identityPub)
      (hfree : ∀ r, rest.lookup final.peerId ≠ some r) (hids : final.peerId = record.peerId ∨ final.peerId = record.identityPub)
      (happly : (PeerOp.upsertFromInvite record).apply s = rest.insert final.peerId final) : Keeps s (.upsertFromInvite record) := by
    refine ⟨?_, fun k r hk hnot => ?_⟩ <;> rw [happly]
    · refine oneEach_insert hrestEach (by rwa [hfinal]) ?_ ?_ ?_
      · intro k r hk h
        rw [hfinal] at h
        exact absurd h (hstored k r hk).2
      · intro k r hk h
        obtain ⟨hk, hne⟩ := hstored k r hk
        rcases hids with hpeer | hpeer <;> rw [hpeer] at h
        · exact absurd (hunmixed k r hk (Or.inl h)) hne
        · exact absurd h hne
      · intro k r hk h
        obtain ⟨hk, hne⟩ := hstored k r hk
        rw [hfinal] at h
        exact absurd (hunmixed k r hk (Or.inr h)) hne
    · have hrest := hkept k r hk hnot
      refine (AList.lookup_insert_ne ?_).trans hrest
      rintro rfl
      exact hfree r hrest
  cases htaken : rest.lookup named.peerId with
  | none =>
    rw [htaken] at happly
    refine hfiled named hidentity (fun r hr => ?_) (Or.inl hid) happly
    rw [htaken] at hr
    cases hr
  | some existing =>
    rw [htaken] at happly
    dsimp only at happly
    obtain ⟨hexisting, hother⟩ := hstored _ _ htaken
    have hne : existing.identityPub ≠ named.identityPub := by
      rintro h
      rw [h, hidentity] at hother
      exact hother rfl
    rw [if_pos hne] at happly
    refine hfiled { named with peerId := named.identityPub } hidentity (fun r hr => ?_) (Or.inr hidentity) happly
    obtain ⟨hk, hbare⟩ := hstored _ _ hr
    dsimp only at hk
    rw [hidentity] at hk
    exact hbare (hunmixed _ r hk (Or.inr rfl))

theorem keeps_edit (hs : OneEach s) (peerId : String) (e : RecordEdit) : Keeps s (.edit peerId e) := by
  have happly : (PeerOp.edit peerId e).apply s = modify s peerId e.change := rfl
  unfold Assoc.modify at happly
  cases hget : s.lookup peerId with
  | none =>
    rw [hget] at happly
    exact keeps_same hs happly
  | some r =>
    rw [hget] at happly
    exact keeps_insert hs hget happly (e.peerId r) (e.identityPub r) (Or.inr ⟨r, hget, rfl⟩)

theorem keeps_setLocalName (hs : OneEach s) (id name : String) : Keeps s (.setLocalName id name) := by
  have happly : (PeerOp.setLocalName id name).apply s = (s.setLocalName id name).1 := rfl
  unfold PeerStore.setLocalName at happly
  split at happly
  · exact keeps_same hs happly
  · rename_i k r hfind
    obtain ⟨hk, htest⟩ := findEntry_some hfind
    refine keeps_insert hs hk happly rfl rfl ?_
    simp only [Bool.or_eq_true, Bool.and_eq_true, beq_iff_eq, bne_iff_ne] at htest
    rcases htest with hid | ⟨-, hbare⟩
    · have hown := hs.filed k r hk
      rw [hid] at hown
      subst hown
      exact Or.inr ⟨r, hk, rfl⟩
    · exact Or.inl hbare.symm

theorem keeps_addRelayHint (hs : OneEach s) (identityPub hint : String) : Keeps s (.addRelayHint identityPub hint) := by
  have happly : (PeerOp.addRelayHint identityPub hint).apply s = (s.addRelayHint identityPub hint).1 := rfl
  unfold PeerStore.addRelayHint at happly
  dsimp only at happly
  split at happly
  · exact keeps_same hs happly
  · split at happly
    · exact keeps_same hs happly
    · rename_i k r hfind
      obtain ⟨hk, htest⟩ := findEntry_some hfind
      split at happly
      · exact keeps_same hs happly
      · refine keeps_insert hs hk happly rfl rfl ?_
        simp only [Bool.or_eq_true, beq_iff_eq] at htest
        rcases htest with hidentity | hbare
        · exact congrArg bare hidentity.symm
        · exact hbare.symm

theorem keeps_removeByAnyId (hs : OneEach s) (id : String) : Keeps s (.removeByAnyId id) := by
  have happly : (PeerOp.removeByAnyId id).apply s = (s.removeByAnyId id).1 := rfl
  unfold PeerStore.removeByAnyId at happly
  split at happly
  · rename_i r hget
    exact keeps_erase hs hget happly (Or.inr ⟨r, hget, rfl⟩)
  · split at happly
    · rename_i k r hfind
      obtain ⟨hk, htest⟩ := findEntry_some hfind
      exact keeps_erase hs hk happly (Or.inl (congrArg bare (beq_iff_eq.mp htest).symm))
    · exact keeps_same hs happly

/-! ### Restoring -/

/-- A turn edits the records with the id, where they are. -/
theorem lookup_restoreTurn (acc : PeerStore × Bool) (id k : String) : ∃ f : PeerRecord → PeerRecord,
    (PeerStore.restoreTurn acc id).1.lookup k = (acc.1.lookup k).map f ∧
      ∀ r, (f r).peerId = r.peerId ∧ (f r).identityPub = r.identityPub ∧ (r.identityPub ≠ id ∧ r.peerId ≠ id → f r = r) := by
  unfold PeerStore.restoreTurn
  split
  · exact ⟨fun r => r, by simp, fun r => ⟨rfl, rfl, fun _ => rfl⟩⟩
  · refine ⟨_, lookup_mapValues _ _ k, fun r => ?_⟩
    split
    · rename_i hdemoted
      refine ⟨rfl, rfl, fun hother => ?_⟩
      unfold PeerStore.demoted at hdemoted
      simp only [Bool.and_eq_true, Bool.or_eq_true, beq_iff_eq] at hdemoted
      exact absurd hdemoted.1.1 (not_or.mpr hother)
    · exact ⟨rfl, rfl, fun _ => rfl⟩

/-- The turns together do too. -/
theorem lookup_restoreTurns (ids : List String) (acc : PeerStore × Bool) (k : String) : ∃ f : PeerRecord → PeerRecord,
    (ids.foldl PeerStore.restoreTurn acc).1.lookup k = (acc.1.lookup k).map f ∧
      ∀ r, (f r).peerId = r.peerId ∧ (f r).identityPub = r.identityPub ∧
        ((∀ id ∈ ids, r.identityPub ≠ id ∧ r.peerId ≠ id) → f r = r) := by
  induction ids generalizing acc with
  | nil => exact ⟨fun r => r, by simp, fun r => ⟨rfl, rfl, fun _ => rfl⟩⟩
  | cons id ids ih =>
    obtain ⟨f, hf, hids⟩ := lookup_restoreTurn acc id k
    obtain ⟨g, hg, hids'⟩ := ih (PeerStore.restoreTurn acc id)
    refine ⟨g ∘ f, by rw [List.foldl_cons, hg, hf, Option.map_map], fun r => ?_⟩
    obtain ⟨hpeer, hidentity, hsame⟩ := hids r
    obtain ⟨hpeer', hidentity', hsame'⟩ := hids' (f r)
    refine ⟨hpeer'.trans hpeer, hidentity'.trans hidentity, fun hall => ?_⟩
    have hf' := hsame (hall id List.mem_cons_self)
    rw [hf'] at hsame'
    rw [Function.comp_apply, hf']
    exact hsame' fun id' hid' => hall id' (List.mem_cons_of_mem id hid')

theorem keeps_restoreSupernodes (hs : OneEach s) (ids : List String) : Keeps s (.restoreSupernodes ids) := by
  refine ⟨oneEach_of_lookups hs fun k r' hk => ?_, fun k r hk hnot => ?_⟩
  · obtain ⟨f, hf, hids⟩ := lookup_restoreTurns ids (s, false) k
    obtain ⟨r, hr, rfl⟩ := Option.map_eq_some_iff.mp (hf.symm.trans hk)
    exact ⟨r, hr, (hids r).1, (hids r).2.1⟩
  · obtain ⟨f, hf, hids⟩ := lookup_restoreTurns ids (s, false) k
    refine hf.trans ?_
    rw [hk, Option.map_some, (hids r).2.2 fun id hid => ⟨?_, ?_⟩]
    · rintro rfl
      exact hnot ⟨_, hid, Or.inl rfl⟩
    · rintro rfl
      refine hnot ⟨_, hid, Or.inr ⟨r, ?_, rfl⟩⟩
      rw [hs.filed k r hk]
      exact hk

theorem keeps_reorder (hs : OneEach s) {order : PeerStore} (hsame : SameMap s order) : Keeps s (.reorder order) where
  oneEach := oneEach_of_lookups hs fun k r hk => ⟨r, (hsame k).symm.trans hk, rfl, rfl⟩
  others k _ hk _ := (hsame k).trans hk

/-- **One operation.** -/
theorem keeps_apply (hs : OneEach s) (op : PeerOp) (hfair : op.Fair s) : Keeps s op := by
  cases op with
  | acceptJoiner joiner => exact keeps_acceptJoiner hs hfair
  | upsertFromInvite record => exact keeps_upsertFromInvite hs hfair
  | edit peerId e => exact keeps_edit hs peerId e
  | setLocalName id name => exact keeps_setLocalName hs id name
  | addRelayHint identityPub hint => exact keeps_addRelayHint hs identityPub hint
  | removeByAnyId id => exact keeps_removeByAnyId hs id
  | restoreSupernodes ids => exact keeps_restoreSupernodes hs ids
  | reorder order => exact keeps_reorder hs hfair

/-! ## Lookups -/

theorem unique_bare (hs : OneEach s) (b : String) : Unique s fun r => bare r.identityPub == b :=
  fun k r k' r' hk hk' h h' => hs.one k r k' r' hk hk' ((beq_iff_eq.mp h).trans (beq_iff_eq.mp h').symm)

theorem unique_identity (hs : OneEach s) (id : String) : Unique s fun r => r.identityPub == id :=
  fun k r k' r' hk hk' h h' => hs.one k r k' r' hk hk' (congrArg bare ((beq_iff_eq.mp h).trans (beq_iff_eq.mp h').symm))

theorem findIdentity_iff (hs : OneEach s) {id : String} (hid : bare id ≠ "") {r : PeerRecord} :
    s.findIdentity id = some r ↔ ∃ k, s.lookup k = some r ∧ (k = id ∨ bare r.identityPub = bare id) := by
  unfold PeerStore.findIdentity
  rw [if_neg hid]
  have hfind := find_values_iff (unique_bare hs (bare id)) (v := r)
  cases hget : s.lookup id with
  | some r₀ =>
    rw [Option.some_or, Option.some.injEq]
    constructor
    · rintro rfl
      exact ⟨id, hget, Or.inl rfl⟩
    · rintro ⟨k, hk, rfl | hbare⟩
      · exact Option.some.inj (hget.symm.trans hk)
      · obtain rfl := hs.apart id r₀ k r hget hk hbare.symm
        exact Option.some.inj (hget.symm.trans hk)
  | none =>
    rw [Option.none_or, hfind]
    constructor
    · rintro ⟨⟨k, hk⟩, hbare⟩
      exact ⟨k, hk, Or.inr (beq_iff_eq.mp hbare)⟩
    · rintro ⟨k, hk, rfl | hbare⟩
      · rw [hget] at hk
        cases hk
      · exact ⟨⟨k, hk⟩, beq_iff_eq.mpr hbare⟩

theorem lookupsAgree (hs : OneEach s) : LookupsAgree s where
  findIdentity _ _ hid := findIdentity_iff hs hid
  getByIdentity id hid := by
    ext r
    unfold PeerStore.getByIdentity
    rw [find_values_iff (unique_identity hs id), Option.filter_eq_some_iff, findIdentity_iff hs hid]
    constructor
    · rintro ⟨⟨k, hk⟩, hidentity⟩
      exact ⟨⟨k, hk, Or.inr (congrArg bare (beq_iff_eq.mp hidentity))⟩, hidentity⟩
    · rintro ⟨⟨k, hk, -⟩, hidentity⟩
      exact ⟨⟨k, hk⟩, hidentity⟩
  isSupernodeId id hid := by
    have hne : id ≠ "" := by
      rintro rfl
      exact hid (by decide)
    unfold PeerStore.isSupernodeId
    rw [decide_eq_true hne, Bool.true_and, Bool.eq_iff_iff, any_values, Option.any_eq_true]
    constructor
    · rintro ⟨k, r, hk, htest⟩
      refine ⟨r, (findIdentity_iff hs hid).mpr ⟨k, hk, ?_⟩, htest⟩
      simp only [Bool.and_eq_true, Bool.or_eq_true, beq_iff_eq] at htest
      rcases htest.2 with hidentity | hpeer
      · exact Or.inr (congrArg bare hidentity)
      · exact Or.inl ((hs.filed k r hk).symm.trans hpeer)
    · rintro ⟨r, hfind, htest⟩
      obtain ⟨k, hk, -⟩ := (findIdentity_iff hs hid).mp hfind
      exact ⟨k, r, hk, htest⟩

/-- The order of the map decides nothing. -/
theorem sameLookups (hs : OneEach s) {order : PeerStore} (hsame : SameMap s order) {id : String} (hid : bare id ≠ "") :
    order.findIdentity id = s.findIdentity id ∧ order.getByIdentity id = s.getByIdentity id ∧
      order.isSupernodeId id = s.isSupernodeId id := by
  have horder : OneEach order := (keeps_reorder hs hsame).oneEach
  have hfind : order.findIdentity id = s.findIdentity id := by
    ext r
    rw [findIdentity_iff hs hid, findIdentity_iff horder hid]
    exact exists_congr fun k => by rw [hsame k]
  refine ⟨hfind, ?_, ?_⟩
  · rw [(lookupsAgree horder).getByIdentity id hid, (lookupsAgree hs).getByIdentity id hid, hfind]
  · rw [(lookupsAgree horder).isSupernodeId id hid, (lookupsAgree hs).isSupernodeId id hid, hfind]

/-! ## The file -/

theorem sortedPeers_nodup (hs : OneEach s) : (s.sortedPeers.map PeerRecord.peerId).Nodup := by
  have hkeys : (values s).map PeerRecord.peerId = s.keys := by
    unfold values AList.keys List.keys
    rw [List.map_map]
    exact List.map_congr_left fun e he => hs.filed e.1 e.2 (AList.mem_lookup_iff.mpr he)
  have hperm : (s.sortedPeers.map PeerRecord.peerId).Perm s.keys := hkeys ▸ (List.mergeSort_perm _ _).map _
  exact hperm.nodup_iff.mpr s.keys_nodup

/-- What is loaded of a saved store is the store. -/
theorem load_save {B : Type} (file : PeerFile B) (hs : OneEach s) : SameMap s (file.load (file.save s)) := by
  intro k
  unfold PeerFile.load PeerFile.save PeerStore.ofPeers
  rw [file.read_write, Option.map_some, Option.getD_some, lookup_foldl_insert _ _ (sortedPeers_nodup hs), AList.lookup_empty,
    Option.or_none]
  have hmem (r : PeerRecord) : r ∈ s.sortedPeers ↔ ∃ k', s.lookup k' = some r :=
    (List.mergeSort_perm _ _).mem_iff.trans (mem_values s r)
  cases hget : s.lookup k with
  | none =>
    refine List.find?_eq_none.mpr fun r hr h => ?_
    obtain ⟨k', hk'⟩ := (hmem r).mp hr
    have hown := hs.filed k' r hk'
    rw [of_decide_eq_true h] at hown
    rw [hown, hk'] at hget
    cases hget
  | some r =>
    cases hfind : s.sortedPeers.find? fun r => decide (r.peerId = k) with
    | none =>
      exact absurd (decide_eq_true (hs.filed k r hget)) (List.find?_eq_none.mp hfind r ((hmem r).mpr ⟨k, hget⟩))
    | some r' =>
      obtain ⟨k', hk'⟩ := (hmem r').mp (List.mem_of_find?_eq_some hfind)
      have htest := List.find?_some hfind
      have hown := hs.filed k' r' hk'
      rw [of_decide_eq_true htest] at hown
      rw [← hown, hget] at hk'
      exact hk'.symm

end PeerRecordsAux

open Assoc Run

/-- Along every such run no identity has two records, in whatever spelling; an operation for one identity leaves the records of the
others; the lookups by an id agree, in every order of the map; and what is loaded of the saved store is the store. -/
theorem one_record_each {B : Type} (file : PeerFile B) (s s' : PeerStore) (hs : OneEach s) (ops : List PeerOp)
    (hfair : Meets PeerOp.step PeerOp.Fair s ops) (hrun : run PeerOp.step s ops = some s') :
    OneEach s' ∧ LookupsAgree s' ∧
      (∀ op : PeerOp, op.Fair s' → ∀ k r, s'.lookup k = some r → ¬ op.About s' (bare r.identityPub) →
        (op.apply s').lookup k = some r) ∧
      (∀ order : PeerStore, SameMap s' order → ∀ id, bare id ≠ "" → order.findIdentity id = s'.findIdentity id ∧
        order.getByIdentity id = s'.getByIdentity id ∧ order.isSupernodeId id = s'.isSupernodeId id) ∧
      SameMap s' (file.load (file.save s')) := by
  have hend : OneEach s' := by
    refine meets_invariant OneEach (fun t op t' ht hop hstep => ?_) hs hfair hrun
    obtain rfl := Option.some.inj hstep
    exact (PeerRecordsAux.keeps_apply ht op hop).oneEach
  refine ⟨hend, PeerRecordsAux.lookupsAgree hend, fun op hop => (PeerRecordsAux.keeps_apply hend op hop).others, ?_, ?_⟩
  · exact fun order horder id hid => PeerRecordsAux.sameLookups hend horder hid
  · exact PeerRecordsAux.load_save file hend

namespace PeerRecordsSample

/-- A file that is the records themselves. -/
def file : PeerFile (List PeerRecord) where
  write peers := peers
  read := some
  read_write _ := rfl

/-- Identities, in the padded spelling. -/
def alicePub : String := "AAAAAAAAAAAAAAAAAAAAAAAAAAAAAAAAAAAAAAAAAAA="

def nodePub : String := "BBBBBBBBBBBBBBBBBBBBBBBBBBBBBBBBBBBBBBBBBBA="

/-- The records of a friend and of a node. -/
def alice : PeerRecord := { peerId := "a1", identityPub := alicePub, createdAt := 1 }

def node : PeerRecord := { peerId := "b1", identityPub := nodePub, isSupernode := true, createdAt := 2 }

/-- A friend joins, a node is accepted, and the friend joins again and is named. -/
def ops : List PeerOp :=
  [.acceptJoiner alice, .upsertFromInvite node, .acceptJoiner { alice with handle := "Alice" }, .setLocalName alicePub "Al"]

theorem forall_lookup {s : PeerStore} {P : String → PeerRecord → Prop} (h : ∀ e ∈ s.entries, P e.1 e.2) (k : String) (r : PeerRecord)
    (hk : s.lookup k = some r) : P k r := h ⟨k, r⟩ (AList.mem_lookup_iff.mp hk)

theorem oneEach_empty : OneEach ∅ := by constructor <;> intros <;> contradiction

theorem fair : Meets PeerOp.step PeerOp.Fair ∅ ops := by
  refine ⟨⟨by decide +kernel, ?_, ?_⟩, fun s₁ h₁ => ⟨⟨by decide +kernel, ?_, ?_⟩, fun s₂ h₂ =>
    ⟨⟨by decide +kernel, ?_, ?_⟩, fun _ _ => ⟨trivial, fun _ _ => trivial⟩⟩⟩⟩
  · exact forall_lookup (by decide +kernel)
  · exact forall_lookup (by decide +kernel)
  · rw [← Option.some.inj h₁]
    exact forall_lookup (by decide +kernel)
  · rw [← Option.some.inj h₁]
    exact forall_lookup (by decide +kernel)
  · rw [← Option.some.inj h₂, ← Option.some.inj h₁]
    exact forall_lookup (by decide +kernel)
  · rw [← Option.some.inj h₂, ← Option.some.inj h₁]
    exact forall_lookup (by decide +kernel)

end PeerRecordsSample

open PeerRecordsSample in
theorem one_record_each_sample : ∃ s', run PeerOp.step ∅ ops = some s' ∧ OneEach s' ∧ LookupsAgree s' ∧
    SameMap s' (file.load (file.save s')) ∧ s'.keys.length = 2 := by
  obtain ⟨s', hrun⟩ : ∃ s', run PeerOp.step ∅ ops = some s' := ⟨_, rfl⟩
  obtain ⟨hone, hagree, -, -, hfile⟩ := one_record_each file ∅ s' oneEach_empty ops fair hrun
  refine ⟨s', hrun, hone, hagree, hfile, ?_⟩
  rw [← Option.some.inj hrun]
  decide +kernel

namespace PeerRecordsSample

/-- A store with records. -/
def storeOf (records : List PeerRecord) : PeerStore := PeerStore.ofPeers records

/-- The friend's identity without its padding. -/
def aliceBare : String := "AAAAAAAAAAAAAAAAAAAAAAAAAAAAAAAAAAAAAAAAAAA"

/-- A record that its party filed under the identity of the node. -/
def mallory : PeerRecord := { peerId := nodePub, identityPub := "CCCCCCCCCCCCCCCCCCCCCCCCCCCCCCCCCCCCCCCCCCA=" }

end PeerRecordsSample

open PeerRecordsSample in
/-- Where remote parties do. A known identity that joins under another id has two records, and which is found depends on the order of
the map; so has one that is invited in another spelling. A record that is filed under its own identity, its id being taken, takes the
place of the one that had chosen that identity for its id. And exact lookups miss a record that a padding-tolerant one finds. -/
theorem records_are_doubled :
    ((∃ r, ((PeerOp.acceptJoiner { alice with peerId := "a2" }).apply (storeOf [alice])).lookup "a1" = some r ∧
        r.identityPub = alicePub) ∧
      (∃ r, ((PeerOp.acceptJoiner { alice with peerId := "a2" }).apply (storeOf [alice])).lookup "a2" = some r ∧
        r.identityPub = alicePub) ∧
      ((storeOf [alice, { alice with peerId := "a2", blocked := true }]).getByIdentity alicePub).map PeerRecord.blocked ≠
        ((storeOf [{ alice with peerId := "a2", blocked := true }, alice]).getByIdentity alicePub).map PeerRecord.blocked) ∧
    ((∃ r, ((PeerOp.upsertFromInvite { alice with peerId := "a2", identityPub := aliceBare }).apply (storeOf [alice])).lookup "a1" =
        some r ∧ bare r.identityPub = aliceBare) ∧
      (∃ r, ((PeerOp.upsertFromInvite { alice with peerId := "a2", identityPub := aliceBare }).apply (storeOf [alice])).lookup "a2" =
        some r ∧ bare r.identityPub = aliceBare)) ∧
    ((storeOf [mallory, { alice with peerId := "b1" }]).lookup nodePub = some mallory ∧
      ((PeerOp.upsertFromInvite node).apply (storeOf [mallory, { alice with peerId := "b1" }])).lookup nodePub =
        some { node with peerId := nodePub }) ∧
    ((storeOf [node]).findIdentity nodePub).isSome = true ∧
      (storeOf [{ node with identityPub := "BBBBBBBBBBBBBBBBBBBBBBBBBBBBBBBBBBBBBBBBBBA" }]).findIdentity nodePub ≠ none ∧
      (storeOf [{ node with identityPub := "BBBBBBBBBBBBBBBBBBBBBBBBBBBBBBBBBBBBBBBBBBA" }]).getByIdentity nodePub = none ∧
      (storeOf [{ node with identityPub := "BBBBBBBBBBBBBBBBBBBBBBBBBBBBBBBBBBBBBBBBBBA" }]).isSupernodeId nodePub = false := by
  refine ⟨⟨⟨_, rfl, ?_⟩, ⟨_, rfl, ?_⟩, ?_⟩, ⟨⟨_, rfl, ?_⟩, ⟨_, rfl, ?_⟩⟩, ⟨?_, ?_⟩, ?_, ?_, ?_, ?_⟩ <;> decide +kernel

end DoubleSlash.Store
