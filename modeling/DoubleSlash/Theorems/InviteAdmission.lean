import DoubleSlash.Lib.Run
import DoubleSlash.Manager.Inbound
import DoubleSlash.Protocol.Message
import DoubleSlash.Store.PeerStore
import DoubleSlash.Theorems.InviteAccept

/-!
# What an issued invite admits

A client issues invites and handles the INITs that come in, from anybody and with any payload, while the store's map may be
reordered at any time. Each invite makes at most one identity trusted and nobody else's record is touched, as long as no INIT
that is admitted names another identity's public id as its own peer id or gives a barred identity a second record.

## Which identities a store trusts

A lookup by identity walks the records in an order nobody controls, so what it may return is a relation. In a sound store all
records of one identity agree on being barred, and every order gives the same answer.
-/

namespace DoubleSlash.Store

open Assoc Text Codec Protocol

/-! ## Spellings -/

theorem bare_bare (s : String) : bare (bare s) = bare s := by
  simp [trimEndMatches, List.rdropWhile_idempotent]

/-- A key without its padding is a key. -/
theorem isPublicId_bare {s : String} (h : IsPublicId s) : IsPublicId (bare s) := by
  obtain ⟨bytes, hbytes, hlen⟩ := h
  exact ⟨bytes, b64urlDecode_unpadded hbytes, hlen⟩

/-! ## Lookups, trust and bars -/

/-- The record is barred: blocked or revoked. -/
def PeerRecord.barred (r : PeerRecord) : Bool :=
  r.blocked || r.revoked

/-- `get(s).or_else(|| get_by_identity(s))` can return the record, in some order of the map. -/
def Found (store : PeerStore) (s : String) (r : PeerRecord) : Prop :=
  store.lookup s = some r ∨ store.lookup s = none ∧ ∃ k, store.lookup k = some r ∧ r.identityPub = s

/-- The identity `b`, a key without padding, is trusted under one of its spellings. -/
def Trusted (store : PeerStore) (b : String) : Prop :=
  ∃ s, bare s = b ∧ store.isTrustedSender s = true

/-- The identity `b` has a barred record. -/
def Barred (store : PeerStore) (b : String) : Prop :=
  ∃ k r, store.lookup k = some r ∧ bare r.identityPub = b ∧ r.barred = true

/-- A store in which a record filed under a public id is of that identity, and the records of one identity agree on being
barred. -/
structure Sound (store : PeerStore) : Prop where
  own : ∀ k r, store.lookup k = some r → IsPublicId (bare k) → bare r.identityPub = bare k
  agree : ∀ k k' r r', store.lookup k = some r → store.lookup k' = some r' → bare r.identityPub = bare r'.identityPub →
    r.barred = r'.barred

namespace PeerStoreAux

theorem isTrustedSender_iff (store : PeerStore) (s : String) :
    store.isTrustedSender s = true ↔
      ∃ r, (store.get s).or (store.getByIdentity s) = some r ∧ r.barred = false := by
  unfold PeerStore.isTrustedSender
  cases (store.get s).or (store.getByIdentity s) with
  | none => simp
  | some r => cases hb : r.blocked <;> cases hr : r.revoked <;> simp [PeerRecord.barred, hb, hr]

/-- What the lookup returns is a record it can return. -/
theorem found_of_lookup {store : PeerStore} {s : String} {r : PeerRecord}
    (h : (store.get s).or (store.getByIdentity s) = some r) : Found store s r := by
  unfold PeerStore.get PeerStore.getByIdentity at h
  cases hs : store.lookup s with
  | some r' =>
    rw [hs] at h
    exact Or.inl (hs.trans h)
  | none =>
    rw [hs, Option.none_or] at h
    obtain ⟨k, hk⟩ := (mem_values store r).mp (List.mem_of_find?_eq_some h)
    exact Or.inr ⟨hs, k, hk, by simpa using List.find?_some h⟩

/-- If there is a record to return, the lookup returns one. -/
theorem lookup_of_found {store : PeerStore} {s : String} {r : PeerRecord} (h : Found store s r) :
    ∃ r', (store.get s).or (store.getByIdentity s) = some r' := by
  unfold PeerStore.get PeerStore.getByIdentity
  rcases h with h | ⟨hs, k, hk, rfl⟩
  · exact ⟨r, by rw [h, Option.some_or]⟩
  · rw [hs, Option.none_or]
    have hmem : r ∈ values store := (mem_values store r).mpr ⟨k, hk⟩
    cases hf : (values store).find? fun x => x.identityPub == r.identityPub with
    | some r' => exact ⟨r', rfl⟩
    | none => exact absurd (List.find?_eq_none.mp hf r hmem) (by simp)

/-- In a sound store a lookup of a public id returns records of that identity only. -/
theorem identity_of_found {store : PeerStore} (h : Sound store) {s : String} {r : PeerRecord} (hs : IsPublicId (bare s))
    (hf : Found store s r) : bare r.identityPub = bare s := by
  rcases hf with hf | ⟨-, k, -, rfl⟩
  · exact h.own s r hf hs
  · rfl

/-- Every record a lookup can return is filed under some key. -/
theorem key_of_found {store : PeerStore} {s : String} {r : PeerRecord} (hf : Found store s r) :
    ∃ k, store.lookup k = some r := by
  rcases hf with hf | ⟨-, k, hk, -⟩
  · exact ⟨s, hf⟩
  · exact ⟨k, hk⟩

/-- In a sound store an identity is trusted exactly when a lookup under one of its spellings can return a record that is not
barred; the order of the map does not matter. -/
theorem trusted_iff {store : PeerStore} (h : Sound store) {b : String} (hb : IsPublicId b) :
    Trusted store b ↔ ∃ s r, bare s = b ∧ Found store s r ∧ r.barred = false := by
  constructor
  · rintro ⟨s, rfl, hs⟩
    obtain ⟨r, hr, hbar⟩ := (isTrustedSender_iff store s).mp hs
    exact ⟨s, r, rfl, found_of_lookup hr, hbar⟩
  · rintro ⟨s, r, rfl, hf, hbar⟩
    obtain ⟨r', hr'⟩ := lookup_of_found hf
    refine ⟨s, rfl, (isTrustedSender_iff store s).mpr ⟨r', hr', ?_⟩⟩
    have hf' := found_of_lookup hr'
    obtain ⟨k, hk⟩ := key_of_found hf
    obtain ⟨k', hk'⟩ := key_of_found hf'
    rw [← hbar]
    exact h.agree k' k r' r hk' hk ((identity_of_found h hb hf').trans (identity_of_found h hb hf).symm)

/-- In a sound store a barred identity is not trusted. -/
theorem not_trusted_of_barred {store : PeerStore} (h : Sound store) {b : String} (hb : IsPublicId b)
    (hbar : Barred store b) : ¬Trusted store b := by
  rw [trusted_iff h hb]
  rintro ⟨s, r, rfl, hf, hr⟩
  obtain ⟨k, r', hk, hid, hr'⟩ := hbar
  obtain ⟨k', hk'⟩ := key_of_found hf
  have := h.agree k k' r' r hk hk' (hid.trans (identity_of_found h hb hf).symm)
  simp [hr, hr'] at this

/-- A record of the identity that is not barred makes it trusted. -/
theorem trusted_of_record {store : PeerStore} (h : Sound store) {b k : String} {r : PeerRecord} (hb : IsPublicId b)
    (hk : store.lookup k = some r) (hid : bare r.identityPub = b) (hr : r.barred = false) : Trusted store b := by
  rw [trusted_iff h hb]
  cases hs : store.lookup r.identityPub with
  | none => exact ⟨r.identityPub, r, hid, Or.inr ⟨hs, k, hk, rfl⟩, hr⟩
  | some r' =>
    have hid' := h.own _ r' hs (hid ▸ hb)
    exact ⟨r.identityPub, r', hid, Or.inl hs, (h.agree k _ r r' hk hs hid'.symm) ▸ hr⟩

/-! ## One record changes -/

/-- The store afterwards differs in the record under one key, which is now of the identity `x`; a record that was there was of
`x` too and its bar is kept. -/
structure Changed (store store' : PeerStore) (x k : String) (r' : PeerRecord) : Prop where
  at_key : store'.lookup k = some r'
  frame : ∀ q, q ≠ k → store'.lookup q = store.lookup q
  identity : bare r'.identityPub = bare x
  old : ∀ r, store.lookup k = some r → r'.identityPub = r.identityPub ∧ r'.barred = r.barred
  fresh : store.lookup k = none → r'.identityPub = x ∧ r'.barred = false

variable {store store' : PeerStore} {x k : String} {r' : PeerRecord}

/-- Records of other identities stay as they are. -/
theorem other_record (h : Changed store store' x k r') {q : String} {r : PeerRecord} (hq : store.lookup q = some r)
    (hid : bare r.identityPub ≠ bare x) : store'.lookup q = some r := by
  by_cases hqk : q = k
  · subst hqk
    exact absurd (h.identity ▸ (congrArg bare (h.old r hq).1).symm) hid
  · rw [h.frame q hqk, hq]

/-- Lookups of other identities can return the same records, if the key written is not one of their public ids. -/
theorem other_found (h : Changed store store' x k r') (hkey : IsPublicId (bare k) → bare k = bare x) {s : String}
    (hs : IsPublicId (bare s)) (hne : bare s ≠ bare x) (r : PeerRecord) : Found store s r ↔ Found store' s r := by
  have hsk : s ≠ k := fun heq => hne (heq ▸ hkey (heq ▸ hs))
  have hback : ∀ q r, store'.lookup q = some r → bare r.identityPub ≠ bare x → store.lookup q = some r := fun q r hq hid => by
    by_cases hqk : q = k
    · subst hqk
      obtain rfl := Option.some.inj (h.at_key.symm.trans hq)
      exact absurd h.identity hid
    · rw [← h.frame q hqk, hq]
  unfold Found
  rw [h.frame s hsk]
  constructor
  · rintro (hf | ⟨hn, q, hq, rfl⟩)
    · exact Or.inl hf
    · exact Or.inr ⟨hn, q, other_record h hq hne, rfl⟩
  · rintro (hf | ⟨hn, q, hq, rfl⟩)
    · exact Or.inl hf
    · exact Or.inr ⟨hn, q, hback q r hq hne, rfl⟩

/-- A bar stays. -/
theorem barred_changed (h : Changed store store' x k r') {b : String} (hb : Barred store b) : Barred store' b := by
  obtain ⟨q, r, hq, hid, hr⟩ := hb
  by_cases hqk : q = k
  · subst hqk
    obtain ⟨hid', hr'⟩ := h.old r hq
    exact ⟨q, r', h.at_key, by rw [hid', hid], by rw [hr', hr]⟩
  · exact ⟨q, r, by rw [h.frame q hqk, hq], hid, hr⟩

/-- The store stays sound, if the key written is no other identity's public id and a barred identity gets no new record. -/
theorem sound_changed (hsound : Sound store) (h : Changed store store' x k r')
    (hkey : IsPublicId (bare k) → bare k = bare x) (hbar : Barred store (bare x) → (store.lookup k).isSome = true) :
    Sound store' := by
  -- a record of `x` that was there before has the bar the written one has
  have hagree : ∀ q r, store.lookup q = some r → bare r.identityPub = bare x → r.barred = r'.barred := fun q r hq hid => by
    cases hk : store.lookup k with
    | some r₀ =>
      obtain ⟨hid₀, hr₀⟩ := h.old r₀ hk
      rw [hr₀]
      exact hsound.agree q k r r₀ hq hk (by rw [hid, ← h.identity, hid₀])
    | none =>
      rw [(h.fresh hk).2]
      by_contra hr
      have := hbar ⟨q, r, hq, hid, by simpa using hr⟩
      simp [hk] at this
  refine ⟨fun q r hq hpub => ?_, fun q q' r₁ r₂ hq hq' hid => ?_⟩
  · by_cases hqk : q = k
    · subst hqk
      obtain rfl := Option.some.inj (h.at_key.symm.trans hq)
      rw [h.identity, hkey hpub]
    · exact hsound.own q r (by rw [← h.frame q hqk, hq]) hpub
  · by_cases hqk : q = k <;> by_cases hqk' : q' = k
    · subst hqk hqk'
      rw [Option.some.inj (hq.symm.trans hq')]
    · subst hqk
      obtain rfl := Option.some.inj (h.at_key.symm.trans hq)
      exact (hagree q' r₂ (by rw [← h.frame q' hqk', hq']) (hid ▸ h.identity)).symm
    · subst hqk'
      obtain rfl := Option.some.inj (h.at_key.symm.trans hq')
      exact hagree q r₁ (by rw [← h.frame q hqk, hq]) (hid.trans h.identity)
    · exact hsound.agree q q' r₁ r₂ (by rw [← h.frame q hqk, hq]) (by rw [← h.frame q' hqk', hq']) hid

end PeerStoreAux

end DoubleSlash.Store

namespace DoubleSlash.Manager

open Protocol Store Direct Assoc Run

section

variable {S : Type} [DecidableEq S]

/-- The inviting client, and the invite ids it has drawn so far. -/
structure Inviter (S : Type) where
  manager : ConnectionManager S
  drawn : List String

/-- What can happen to the inviting client. -/
inductive InviteAct where
  /-- `generate_invite_url` draws an id. -/
  | generate (E : Env) (inviteId : String)
  /-- An INIT arrives. -/
  | init (E : Env) (msg : SignalingMessage) (t : Transport)
  /-- The store's map is reordered. -/
  | reorder (store : PeerStore)

/-- One step. The ids drawn (version 4 UUIDs) do not repeat; the messages are INITs whose signature verifies. -/
def inviteStep (s : Inviter S) : InviteAct → Option (Inviter S)
  | .generate E id => if id ∈ s.drawn then none else some ⟨generateInviteUrl E s.manager id, id :: s.drawn⟩
  | .init E msg t =>
    if msg.msgType = .inviteHandshakeInit ∧
        verifyInboundSignature E.crypto E.now msg s.manager.direct.deviceId.isSome = true then
      (handleInboundInner E s.manager msg t).map fun r => ⟨r.1, s.drawn⟩
    else none
  | .reorder store =>
    if s.manager.store.entries.Perm store.entries then some ⟨{ s.manager with store := store }, s.drawn⟩ else none

/-- The signer of an INIT; nobody for the other actions. -/
def InviteAct.signer : InviteAct → Option String
  | .init _ msg _ => some msg.sender
  | _ => none

/-- The condition on an INIT: if it is admitted, the peer id it claims is not the public id of another identity, and a signer
with a barred record claims the key of a record that exists. -/
def Honest (s : Inviter S) : InviteAct → Prop
  | .init E msg t =>
    Reaches E s.manager msg t → admitted E s.manager msg = true →
      (IsPublicId (bare (joinerOf E msg).peerId) → bare (joinerOf E msg).peerId = bare msg.sender) ∧
      (Barred s.manager.store (bare msg.sender) → (s.manager.store.lookup (joinerOf E msg).peerId).isSome = true)
  | _ => True

/-- What a step may do to the store. -/
structure StepSound (s s' : Inviter S) (a : InviteAct) : Prop where
  /-- An identity becomes trusted only by its own INIT with a live invite. -/
  admits : ∀ b, IsPublicId b → ¬Trusted s.manager.store b → Trusted s'.manager.store b →
    ∃ E msg t expiresAt, a = .init E msg t ∧ b = bare msg.sender ∧
      s.manager.issuedInvites.lookup (inviteIdOf msg) = some expiresAt ∧ E.now ≤ expiresAt
  /-- Records of other identities stay. -/
  others : ∀ k r, s.manager.store.lookup k = some r → (∀ x, a.signer = some x → bare r.identityPub ≠ bare x) →
    s'.manager.store.lookup k = some r
  /-- Lookups of other identities can return the same records. -/
  reachable : ∀ id, IsPublicId (bare id) → (∀ x, a.signer = some x → bare id ≠ bare x) →
    ∀ r, Found s.manager.store id r ↔ Found s'.manager.store id r
  /-- A barred identity stays barred and is not trusted. -/
  bars : ∀ b, IsPublicId b → Barred s.manager.store b → Barred s'.manager.store b ∧ ¬Trusted s'.manager.store b

namespace InviteAdmissionAux

/-! ## The handler -/

omit [DecidableEq S] in
theorem keepLocalName_fields (store : PeerStore) (r : PeerRecord) :
    (store.keepLocalName r).peerId = r.peerId ∧ (store.keepLocalName r).identityPub = r.identityPub ∧
      (store.keepLocalName r).barred = r.barred := by
  unfold PeerStore.keepLocalName
  split
  · exact ⟨rfl, rfl, rfl⟩
  · split <;> exact ⟨rfl, rfl, rfl⟩

/-- An admitted joiner changes one record. -/
theorem admitJoiner_changed {E : Env} {store : PeerStore} {j : Joiner} (h : keyTaken store j = false) :
    ∃ r, PeerStoreAux.Changed store (admitJoiner E store j) j.identityPub j.peerId r := by
  unfold admitJoiner PeerStore.get
  cases hk : store.lookup j.peerId with
  | some r =>
    have hid : bare r.identityPub = bare j.identityPub := by
      simpa [keyTaken, PeerStore.get, hk] using h
    refine ⟨refreshJoiner E j r, by simp, fun q hq => AList.lookup_insert_ne hq, hid, fun r₀ hr₀ => ?_, fun hn => ?_⟩
    · obtain rfl := Option.some.inj (hk.symm.trans hr₀)
      exact ⟨rfl, rfl⟩
    · rw [hk] at hn
      cases hn
  | none =>
    obtain ⟨hkey, hid, hbar⟩ := keepLocalName_fields store (newJoiner E j)
    have hkey' : (store.keepLocalName (newJoiner E j)).peerId = j.peerId := hkey
    refine ⟨store.keepLocalName (newJoiner E j), ?_, fun q hq => ?_, by rw [hid]; rfl, fun r₀ hr₀ => ?_, fun _ => ⟨hid, hbar⟩⟩
    · simp [PeerStore.upsert, hkey']
    · simp only [PeerStore.upsert, hkey']
      exact AList.lookup_insert_ne hq
    · rw [hk] at hr₀
      cases hr₀

/-- What an INIT does to the store and to the issued invites. -/
theorem init_cases {E : Env} {σ : ConnectionManager S} {msg : SignalingMessage} {t : Transport}
    {r : ConnectionManager S × List Effect} (hty : msg.msgType = .inviteHandshakeInit)
    (h : handleInboundInner E σ msg t = some r) :
    (r.1.store = σ.store ∧ (r.1.issuedInvites = σ.issuedInvites ∨
      r.1.issuedInvites = σ.issuedInvites.erase (inviteIdOf msg))) ∨
    (Reaches E σ msg t ∧ admitted E σ msg = true ∧ r.1.store = admitJoiner E σ.store (joinerOf E msg) ∧
      r.1.issuedInvites = σ.issuedInvites.erase (inviteIdOf msg)) := by
  have hplain : handleInboundInner E σ msg t = handlePlain E σ msg t := by
    simp [handleInboundInner, hty]
  rw [hplain] at h
  obtain ⟨-, replay, effects, hrun, -⟩ | ⟨hreach, replay, hrun⟩ := handlePlain_cases E σ msg t
  · obtain rfl := Option.some.inj (hrun.symm.trans h)
    exact Or.inl ⟨rfl, Or.inl rfl⟩
  · rw [hrun, dispatch, hty] at h
    obtain rfl := Option.some.inj h
    unfold inviteHandshakeInit
    dsimp only
    by_cases hkey : keyTaken σ.store (joinerOf E msg) = true
    · rw [if_pos hkey]
      exact Or.inl ⟨rfl, Or.inl rfl⟩
    · rw [if_neg hkey]
      by_cases hadm : (!(redeemIssuedInvite σ.issuedInvites E.now (joinerOf E msg).inviteId).2 &&
          !alreadyTrusted σ.store (joinerOf E msg).identityPub) = true
      · rw [if_pos hadm]
        exact Or.inl ⟨rfl, Or.inr rfl⟩
      · rw [if_neg hadm]
        refine Or.inr ⟨hreach, ?_, rfl, rfl⟩
        simp only [admitted, hkey, Bool.not_false, Bool.true_and]
        have hor : (!(live E σ msg) && !alreadyTrusted σ.store msg.sender) ≠ true := hadm
        simpa only [← Bool.not_or, ne_eq, Bool.not_eq_true', Bool.not_eq_false] using hor

omit [DecidableEq S] in
/-- A peer we take as trusted already is a trusted identity. -/
theorem trusted_of_alreadyTrusted {store : PeerStore} (h : Sound store) {id : String} (hid : IsPublicId id)
    (ht : alreadyTrusted store id = true) : Trusted store (bare id) := by
  obtain ⟨r, hr, hok⟩ : ∃ r, store.findIdentity id = some r ∧ (!r.blocked && !r.revoked && !r.isSupernode) = true := by
    unfold alreadyTrusted at ht
    cases hf : store.findIdentity id with
    | none => simp [hf] at ht
    | some r => exact ⟨r, rfl, by simpa [hf] using ht⟩
  have hbar : r.barred = false := by
    simp only [Bool.and_eq_true, Bool.not_eq_true'] at hok
    simp [PeerRecord.barred, hok.1.1, hok.1.2]
  unfold PeerStore.findIdentity at hr
  split at hr
  · cases hr
  cases hs : store.lookup id with
  | some r' =>
    rw [hs] at hr
    obtain rfl := Option.some.inj hr
    exact PeerStoreAux.trusted_of_record h (isPublicId_bare hid) hs (h.own id r' hs (isPublicId_bare hid)) hbar
  | none =>
    rw [hs, Option.none_or] at hr
    obtain ⟨k, hk⟩ := (mem_values store r).mp (List.mem_of_find?_eq_some hr)
    exact PeerStoreAux.trusted_of_record h (isPublicId_bare hid) hk (by simpa using List.find?_some hr) hbar

/-! ## One step -/

/-- What a step can be. -/
theorem inviteStep_cases {s s' : Inviter S} {a : InviteAct} (h : inviteStep s a = some s') :
    (∃ E id, a = .generate E id ∧ id ∉ s.drawn ∧ s' = ⟨generateInviteUrl E s.manager id, id :: s.drawn⟩) ∨
    (∃ E msg t r, a = .init E msg t ∧ msg.msgType = .inviteHandshakeInit ∧ IsPublicId msg.sender ∧
      handleInboundInner E s.manager msg t = some r ∧ s' = ⟨r.1, s.drawn⟩) ∨
    (∃ store, a = .reorder store ∧ s.manager.store.entries.Perm store.entries ∧
      s' = ⟨{ s.manager with store := store }, s.drawn⟩) := by
  cases a with
  | generate E id =>
    simp only [inviteStep] at h
    split at h
    · cases h
    · exact Or.inl ⟨E, id, rfl, ‹_›, (Option.some.inj h).symm⟩
  | init E msg t =>
    simp only [inviteStep] at h
    split at h
    · rename_i hmsg
      obtain ⟨r, hr, rfl⟩ := Option.map_eq_some_iff.mp h
      exact Or.inr (Or.inl ⟨E, msg, t, r, rfl, hmsg.1, isPublicId_of_verify hmsg.2, hr, rfl⟩)
    · cases h
  | reorder store =>
    simp only [inviteStep] at h
    split at h
    · exact Or.inr (Or.inr ⟨store, rfl, ‹_›, (Option.some.inj h).symm⟩)
    · cases h

omit [DecidableEq S] in
/-- A step that leaves every lookup as it was changes nothing. -/
theorem stepSound_same {s s' : Inviter S} {a : InviteAct} (h : Sound s.manager.store)
    (hsame : ∀ k, s'.manager.store.lookup k = s.manager.store.lookup k) :
    Sound s'.manager.store ∧ StepSound s s' a := by
  have hsound : Sound s'.manager.store :=
    ⟨fun k r hk => h.own k r (by rw [← hsame, hk]),
      fun k k' r r' hk hk' => h.agree k k' r r' (by rw [← hsame, hk]) (by rw [← hsame, hk'])⟩
  have hfound : ∀ id r, Found s.manager.store id r ↔ Found s'.manager.store id r := fun id r => by
    simp only [Found, hsame]
  have hbars : ∀ b, Barred s.manager.store b → Barred s'.manager.store b := fun b hb => by
    simpa only [Barred, hsame] using hb
  refine ⟨hsound, fun b hb hno hyes => ?_, fun k r hk _ => by rw [hsame, hk], fun id _ _ r => hfound id r,
    fun b hb hbar => ⟨hbars b hbar, PeerStoreAux.not_trusted_of_barred hsound hb (hbars b hbar)⟩⟩
  obtain ⟨id, r, hid, hf, hr⟩ := (PeerStoreAux.trusted_iff hsound hb).mp hyes
  exact absurd ((PeerStoreAux.trusted_iff h hb).mpr ⟨id, r, hid, (hfound id r).mpr hf, hr⟩) hno

/-- A step that meets the condition keeps the store sound and is sound itself. -/
theorem stepSound_of_honest {s s' : Inviter S} {a : InviteAct} (h : Sound s.manager.store) (hhonest : Honest s a)
    (hstep : inviteStep s a = some s') : Sound s'.manager.store ∧ StepSound s s' a := by
  obtain ⟨E, id, rfl, -, rfl⟩ | ⟨E, msg, t, r, rfl, hty, hsender, hr, rfl⟩ | ⟨store, rfl, hperm, rfl⟩ := inviteStep_cases hstep
  · exact stepSound_same h fun _ => rfl
  · obtain ⟨hstore, -⟩ | ⟨hreach, hadm, hstore, -⟩ := init_cases hty hr
    · exact stepSound_same h fun k => by rw [hstore]
    obtain ⟨hkey, hbar⟩ := hhonest hreach hadm
    have hfree : keyTaken s.manager.store (joinerOf E msg) = false := by
      simp only [admitted, Bool.and_eq_true, Bool.not_eq_true'] at hadm
      exact hadm.1
    obtain ⟨r', hch⟩ := admitJoiner_changed (E := E) hfree
    have hsound := PeerStoreAux.sound_changed h hch hkey hbar
    rw [← hstore] at hch hsound
    refine ⟨hsound, fun b hb hno hyes => ?_, fun k x hk hx => PeerStoreAux.other_record hch hk (hx _ rfl),
      fun id hid hx x => PeerStoreAux.other_found hch hkey hid (hx _ rfl) x,
      fun b hb hbb => ⟨PeerStoreAux.barred_changed hch hbb,
        PeerStoreAux.not_trusted_of_barred hsound hb (PeerStoreAux.barred_changed hch hbb)⟩⟩
    obtain ⟨id, x, rfl, hf, hx⟩ := (PeerStoreAux.trusted_iff hsound hb).mp hyes
    have hid : bare id = bare msg.sender := by
      by_contra hne
      have hf' := (PeerStoreAux.other_found hch hkey hb hne x).mpr hf
      exact hno ((PeerStoreAux.trusted_iff h hb).mpr ⟨id, x, rfl, hf', hx⟩)
    -- without a live invite the signer was trusted before
    have hlive : live E s.manager msg = true := by
      by_contra hdead
      simp only [admitted, Bool.and_eq_true, Bool.or_eq_true] at hadm
      exact hno (hid ▸ trusted_of_alreadyTrusted h hsender (hadm.2.resolve_left hdead))
    cases hissued : s.manager.issuedInvites.lookup (inviteIdOf msg) with
    | none => simp [live, hissued] at hlive
    | some expiresAt =>
      refine ⟨E, msg, t, expiresAt, rfl, hid, hissued, ?_⟩
      simpa [live, hissued] using hlive
  · exact stepSound_same h fun k => (AList.perm_lookup hperm).symm

/-! ## An invite is used once -/

theorem lookup_recordIssuedInvite {m : HashMap String Nat} {now exp : Nat} {id id' : String} (hne : id' ≠ id)
    (h : m.lookup id' = none) : (recordIssuedInvite m now id exp).lookup id' = none := by
  have hret : (retain m fun _ exp => decide (now ≤ exp)).lookup id' = none := by
    rw [lookup_retain, h]
    rfl
  unfold recordIssuedInvite
  dsimp only
  rw [AList.lookup_insert_ne hne]
  split
  · split
    · rename_i old _
      by_cases ho : id' = old
      · subst ho
        simp
      · rw [AList.lookup_erase_ne ho]
        exact hret
    · exact hret
  · exact hret

/-- An invite that is not issued is not issued by the next step either, unless that step draws it. -/
theorem unissued_step {id : String} {s s' : Inviter S} {a : InviteAct} (h : s.manager.issuedInvites.lookup id = none)
    (hne : ∀ E, a ≠ .generate E id) (hstep : inviteStep s a = some s') : s'.manager.issuedInvites.lookup id = none := by
  have herase : ∀ id', (s.manager.issuedInvites.erase id').lookup id = none := fun id' => by
    by_cases hid : id = id'
    · subst hid
      simp
    · rw [AList.lookup_erase_ne hid, h]
  obtain ⟨E, id', rfl, -, rfl⟩ | ⟨E, msg, t, r, rfl, hty, -, hr, rfl⟩ | ⟨store, rfl, -, rfl⟩ := inviteStep_cases hstep
  · exact lookup_recordIssuedInvite (fun heq => hne E (heq ▸ rfl)) h
  · obtain ⟨-, hi | hi⟩ | ⟨-, -, -, hi⟩ := init_cases hty hr
    · rw [hi, h]
    · rw [hi, herase]
    · rw [hi, herase]
  · exact h

/-- The ids drawn stay drawn. -/
theorem drawn_step {s s' : Inviter S} {a : InviteAct} (hstep : inviteStep s a = some s') : s.drawn ⊆ s'.drawn := by
  obtain ⟨E, id', rfl, -, rfl⟩ | ⟨E, msg, t, r, rfl, -, -, -, rfl⟩ | ⟨store, rfl, -, rfl⟩ := inviteStep_cases hstep
  · exact List.subset_cons_self _ _
  · exact List.Subset.refl _
  · exact List.Subset.refl _

/-- The invite is spent: it was drawn and is not issued any more. -/
def Spent (id : String) (s : Inviter S) : Prop :=
  id ∈ s.drawn ∧ s.manager.issuedInvites.lookup id = none

/-- A spent invite stays spent. -/
theorem spent_step {id : String} {s s' : Inviter S} {a : InviteAct} (h : Spent id s) (hstep : inviteStep s a = some s') :
    Spent id s' := by
  refine ⟨drawn_step hstep h.1, unissued_step h.2 (fun E heq => ?_) hstep⟩
  subst heq
  simp [inviteStep, h.1] at hstep

/-- Every invite that is issued was drawn. -/
def DrawnBefore (s : Inviter S) : Prop :=
  ∀ id, id ∉ s.drawn → s.manager.issuedInvites.lookup id = none

theorem drawnBefore_step {s s' : Inviter S} {a : InviteAct} (h : DrawnBefore s) (hstep : inviteStep s a = some s') :
    DrawnBefore s' := by
  intro id hid
  refine unissued_step (h id fun hmem => hid (drawn_step hstep hmem)) (fun E heq => ?_) hstep
  subst heq
  simp only [inviteStep] at hstep
  split at hstep
  · cases hstep
  · obtain rfl := Option.some.inj hstep
    exact hid List.mem_cons_self

/-- An INIT that makes somebody trusted with an issued invite spends it. -/
theorem spent_of_turned {s s' : Inviter S} {E : Env} {msg : SignalingMessage} {t : Transport} {b : String} {expiresAt : Nat}
    (hdrawn : DrawnBefore s) (hstep : inviteStep s (.init E msg t) = some s')
    (hissued : s.manager.issuedInvites.lookup (inviteIdOf msg) = some expiresAt)
    (hno : ¬Trusted s.manager.store b) (hyes : Trusted s'.manager.store b) : Spent (inviteIdOf msg) s' := by
  have hmem : inviteIdOf msg ∈ s.drawn := by
    by_contra hnot
    rw [hdrawn _ hnot] at hissued
    cases hissued
  refine ⟨drawn_step hstep hmem, ?_⟩
  obtain ⟨_, _, heq, -⟩ | ⟨E', msg', t', r, heq, hty, -, hr, rfl⟩ | ⟨_, heq, -⟩ := inviteStep_cases hstep
  · cases heq
  · cases heq
    obtain ⟨hstore, -⟩ | ⟨-, -, -, hi⟩ := init_cases hty hr
    · exact absurd (hstore ▸ hyes) hno
    · rw [hi]
      simp
  · cases heq

/-- The store is sound and every issued invite was drawn. -/
def Ready (s : Inviter S) : Prop :=
  Sound s.manager.store ∧ DrawnBefore s

theorem ready_step {s s' : Inviter S} {a : InviteAct} (h : Ready s) (hhonest : Honest s a) (hstep : inviteStep s a = some s') :
    Ready s' :=
  ⟨(stepSound_of_honest h.1 hhonest hstep).1, drawnBefore_step h.2 hstep⟩

end InviteAdmissionAux

/-- In the run, an INIT that presents the invite `id` makes the identity `b` trusted. -/
def TurnedBy (s₀ : Inviter S) (acts : List InviteAct) (id b : String) : Prop :=
  ∃ pre E msg t post s s', acts = pre ++ .init E msg t :: post ∧ run inviteStep s₀ pre = some s ∧
    inviteStep s (.init E msg t) = some s' ∧ inviteIdOf msg = id ∧ IsPublicId b ∧ ¬Trusted s.manager.store b ∧
    Trusted s'.manager.store b

/-- What the claim says of a run: each step is sound, and each invite makes at most one identity trusted. -/
structure InvitesSound (s₀ : Inviter S) (acts : List InviteAct) : Prop where
  steps : ∀ pre a post s s', acts = pre ++ a :: post → run inviteStep s₀ pre = some s → inviteStep s a = some s' →
    StepSound s s' a
  once : ∀ id b b', TurnedBy s₀ acts id b → TurnedBy s₀ acts id b' → b = b'

namespace InviteAdmissionAux

/-- No invite makes an identity trusted at two moments of a run. -/
theorem not_turned_later {s₀ s s' u u' : Inviter S} {acts pre mid post : List InviteAct} {E E' : Env}
    {msg msg' : SignalingMessage} {t t' : Transport} {b b' : String} (hready : Ready s₀)
    (hmeets : Meets inviteStep Honest s₀ acts) (hacts : acts = pre ++ .init E msg t :: (mid ++ .init E' msg' t' :: post))
    (hpre : run inviteStep s₀ pre = some s) (hstep : inviteStep s (.init E msg t) = some s')
    (hmid : run inviteStep s' mid = some u) (hstep' : inviteStep u (.init E' msg' t') = some u')
    (hid : inviteIdOf msg = inviteIdOf msg') (hb : IsPublicId b) (hb' : IsPublicId b')
    (hno : ¬Trusted s.manager.store b) (hyes : Trusted s'.manager.store b)
    (hno' : ¬Trusted u.manager.store b') (hyes' : Trusted u'.manager.store b') : False := by
  subst hacts
  obtain ⟨hs, hhonest⟩ := meets_at Ready (fun _ _ _ => ready_step) hready hmeets hpre
  obtain ⟨_, _, _, expiresAt, heq, -, hissued, -⟩ := (stepSound_of_honest hs.1 hhonest hstep).2.admits b hb hno hyes
  cases heq
  have hspent := spent_of_turned hs.2 hstep hissued hno hyes
  have hlater : Spent (inviteIdOf msg) u := by
    refine run_invariant (fun _ x => Spent (inviteIdOf msg) x) hspent ?_ hmid
    exact fun _ _ _ _ hx hx' => spent_step hx hx'
  have hrest := ((meets_append hmeets).2 s hpre).2 s' hstep
  obtain ⟨hu, hhonest'⟩ := meets_at Ready (fun _ _ _ => ready_step) (ready_step hs hhonest hstep) hrest hmid
  obtain ⟨_, _, _, expiresAt', heq', -, hissued', -⟩ :=
    (stepSound_of_honest hu.1 hhonest' hstep').2.admits b' hb' hno' hyes'
  cases heq'
  rw [← hid, hlater.2] at hissued'
  cases hissued'

end InviteAdmissionAux

open InviteAdmissionAux

/-- **Issued invites.** In every run from a sound store whose INITs meet the condition, every step is sound and every invite
makes at most one identity trusted. -/
theorem invitesSound_of_honest (s₀ : Inviter S) (acts : List InviteAct) (hsound : Sound s₀.manager.store)
    (hdrawn : ∀ id, id ∉ s₀.drawn → s₀.manager.issuedInvites.lookup id = none)
    (hmeets : Meets inviteStep Honest s₀ acts) : InvitesSound s₀ acts := by
  have hready : Ready s₀ := ⟨hsound, hdrawn⟩
  refine ⟨?_, ?_⟩
  · rintro pre a post s s' rfl hpre hstep
    obtain ⟨hs, hhonest⟩ := meets_at Ready (fun _ _ _ => ready_step) hready hmeets hpre
    exact (stepSound_of_honest hs.1 hhonest hstep).2
  · rintro id b b' ⟨pre, E, msg, t, post, s, s', hacts, hpre, hstep, rfl, hb, hno, hyes⟩
      ⟨pre', E', msg', t', post', u, u', hacts', hpre', hstep', hid, hb', hno', hyes'⟩
    obtain ⟨rfl, heq, rfl⟩ | ⟨mid, rfl, rfl⟩ | ⟨mid, rfl, rfl⟩ := split_cases (hacts.symm.trans hacts')
    · cases heq
      obtain rfl := Option.some.inj (hpre.symm.trans hpre')
      obtain rfl := Option.some.inj (hstep.symm.trans hstep')
      subst hacts
      obtain ⟨hs, hhonest⟩ := meets_at Ready (fun _ _ _ => ready_step) hready hmeets hpre
      have hst := (stepSound_of_honest hs.1 hhonest hstep).2
      obtain ⟨_, _, _, _, heq, hbs, -⟩ := hst.admits b hb hno hyes
      obtain ⟨_, _, _, _, heq', hbs', -⟩ := hst.admits b' hb' hno' hyes'
      cases heq
      cases heq'
      rw [hbs, hbs']
    · rw [run_append, hpre, Option.bind_some, run_cons, hstep, Option.bind_some] at hpre'
      exact (not_turned_later hready hmeets hacts hpre hstep hpre' hstep' hid.symm hb hb' hno hyes hno' hyes').elim
    · rw [run_append, hpre', Option.bind_some, run_cons, hstep', Option.bind_some] at hpre
      exact (not_turned_later hready hmeets hacts' hpre' hstep' hpre hstep hid hb' hb hno' hyes' hno hyes).elim

end

/-! ## A first joiner, and a blocked one -/

/-- A client with the invite `i1` out, and the records of `store`. -/
def invitingClient (store : PeerStore) : Inviter Nat where
  manager := { waitingClient with store := store, pendingInvites := ∅, issuedInvites := AList.singleton "i1" 1900 }
  drawn := ["i1"]

/-- An INIT of the zero key for the invite `i1`, with the payload fields `extra`. -/
def zeroInit (extra : Payload) : InviteAct :=
  .init lenientEnv { forgedAccept with msgType := .inviteHandshakeInit, payload := ("invite_id", .str "i1") :: extra }
    ⟨none, none, false⟩

theorem invitesSound_first :
    InvitesSound (invitingClient ∅) [zeroInit [("joiner_peer_id", .str "joiner-hex")]] := by
  refine invitesSound_of_honest _ _ ⟨fun _ _ h => (nomatch h), fun _ _ _ _ h => (nomatch h)⟩ (fun id hid => ?_)
    ⟨fun _ _ => ⟨fun h => absurd h (by decide), ?_⟩, fun _ _ => trivial⟩
  · have hne : id ≠ "i1" := by simpa [invitingClient] using hid
    have hlookup : (AList.insert "i1" 1900 (∅ : HashMap String Nat)).lookup id = none := by
      rw [AList.lookup_insert_ne hne, AList.lookup_empty]
    rw [AList.insert_empty] at hlookup
    exact hlookup
  · rintro ⟨_, _, h, -⟩
    cases h

/-- The zero key's record, blocked. -/
def blockedZero : PeerRecord := { peerId := "zero-hex", identityPub := zeroId, blocked := true }

theorem invitesSound_fails_blocked :
    ¬InvitesSound (invitingClient (AList.singleton "zero-hex" blockedZero)) [zeroInit []] := by
  intro h
  have hbar : Barred (AList.singleton "zero-hex" blockedZero) zeroId := ⟨"zero-hex", blockedZero, by decide, by decide, rfl⟩
  obtain ⟨-, hno⟩ := (h.steps [] _ [] _ _ rfl rfl rfl).bars zeroId (by decide) hbar
  exact hno ⟨zeroId, by decide, by decide⟩

end DoubleSlash.Manager
