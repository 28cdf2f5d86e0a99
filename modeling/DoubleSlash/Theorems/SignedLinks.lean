import DoubleSlash.Manager.AcceptInvite
import DoubleSlash.Theorems.RoomInviteLinks

/-!
# What a link does without its inviter's signature

No function on the way from a link to the peer store reads the signature: a supernode's link that passes the other checks is believed
whoever made it.
-/

namespace DoubleSlash.Manager

open Assoc Brand Codec Protocol Store Text

/-- The payload that a link carries, whatever its action. -/
def carried (L : LinkEnv) (inviteUrl : String) : Option Json :=
  (normalizeAppUrl inviteUrl.toList).join.bind fun rest =>
    (b64Groups (trimEndMatches '=' (splitAction rest).2).toList).bind L.json.fromSlice

/-- The payload is that of a supernode, and no signature of its inviter verifies over it. -/
def Unsigned (ed25519Verify : Supernode.Ed25519) (payload : Json) : Prop :=
  boolField payload "is_supernode" = true ∧
    ¬ ∃ invite, Supernode.InvitePayload.ofJson payload = some invite ∧ invite.verify ed25519Verify = true

/-- Nothing is trusted, nothing waits for an answer, and the sessions that there are stay. -/
structure NotBelieved (σ σ' : LinkClient) (effects : List LinkEffect) : Prop where
  store : ∀ key, σ'.store.lookup key = σ.store.lookup key
  accepted : ∀ peerId handle, LinkEffect.inviteAccepted peerId handle ∉ effects
  pending : ∀ inviteId, σ'.pendingInvites.lookup inviteId = σ.pendingInvites.lookup inviteId
  sessions : ∀ id session, σ.supernodes.lookup id = some session →
    σ'.supernodes.lookup id = some session ∧ .abort id ∉ effects ∧ ∀ candidates, .dial id candidates ∉ effects

/-- A link without a signature is not believed. -/
def OnlySigned (L : LinkEnv) (ed25519Verify : Supernode.Ed25519) (σ : LinkClient) (inviteUrl : String) : Prop :=
  ∀ payload, carried L inviteUrl = some payload → Unsigned ed25519Verify payload →
    NotBelieved σ (handleAcceptInvite L σ inviteUrl).1 (handleAcceptInvite L σ inviteUrl).2

/-- The link is no room's and passes what is checked of it. -/
def PassesInvite (L : LinkEnv) (σ : LinkClient) (action encoded : String) (payload : Json) : Prop :=
  action ≠ "room" ∧ byteLen encoded.toList ≤ 262144 ∧
    ∃ link, checkInvite L σ.publicId payload = .ok link ∧ cuts link.inviterIdentityPub 8 = true ∧ cuts link.inviteId 8 = true

/-- The link is a room's, passes what is checked of it, and its supernode is not stored as it says already. -/
def PassesRoom (L : LinkEnv) (σ : LinkClient) (action encoded : String) : Prop :=
  action = "room" ∧
    ∃ p, parseRoomInvite L.json encoded = .ok p ∧ ¬ (p.expiresAt ≠ 0 ∧ p.expiresAt < L.env.now) ∧ cuts p.roomId 12 = true ∧
      cuts p.supernodeId 8 = true ∧ p.supernodeHint ≠ "" ∧
      ∃ key, (σ.store.upsertFromInvite (roomHostRecord L p.supernodeId p.supernodeHint)).lookup key ≠ σ.store.lookup key

/-- A link without a signature that passes the other checks. -/
def UnsignedPasses (L : LinkEnv) (ed25519Verify : Supernode.Ed25519) (σ : LinkClient) (inviteUrl : String) : Prop :=
  ∃ rest payload, normalizeAppUrl inviteUrl.toList = some (some rest) ∧ carried L inviteUrl = some payload ∧
    Unsigned ed25519Verify payload ∧
    (PassesInvite L σ (splitAction rest).1 (splitAction rest).2 payload ∨ PassesRoom L σ (splitAction rest).1 (splitAction rest).2)

namespace SignedLinksAux

variable {L : LinkEnv}

theorem notBelieved_of_same {σ σ' : LinkClient} {effects : List LinkEffect} (hstore : σ'.store = σ.store)
    (hpending : σ'.pendingInvites = σ.pendingInvites) (hsupernodes : σ'.supernodes = σ.supernodes)
    (heffects : (∃ reason, effects = [.inviteFailed reason]) ∨ effects = [.panic]) : NotBelieved σ σ' effects := by
  have hnone : ∀ e ∈ effects, (∃ reason, e = .inviteFailed reason) ∨ e = .panic := by
    rcases heffects with ⟨reason, rfl⟩ | rfl
    · exact fun e he => Or.inl ⟨reason, List.mem_singleton.mp he⟩
    · exact fun e he => Or.inr (List.mem_singleton.mp he)
  have hother : ∀ e ∈ effects, (∀ peerId handle, e ≠ .inviteAccepted peerId handle) ∧ (∀ id, e ≠ .abort id) ∧ ∀ id cs, e ≠ .dial id cs := by
    intro e he
    rcases hnone e he with ⟨reason, rfl⟩ | rfl
    · exact ⟨nofun, nofun, nofun⟩
    · exact ⟨nofun, nofun, nofun⟩
  exact
    { store := fun key => by rw [hstore]
      accepted := fun peerId handle he => (hother _ he).1 peerId handle rfl
      pending := fun inviteId => by rw [hpending]
      sessions := fun id session h =>
        ⟨by rw [hsupernodes, h], fun he => (hother _ he).2.1 id rfl, fun cs he => (hother _ he).2.2 id cs rfl⟩ }

theorem handle_of_rest {inviteUrl : String} {rest : List Char} (h : normalizeAppUrl inviteUrl.toList = some (some rest)) (σ : LinkClient) :
    handleAcceptInvite L σ inviteUrl =
      if (splitAction rest).1 = "room" then handleAcceptRoomInvite L σ (splitAction rest).2
      else
        match decodeInvite L (splitAction rest).2 with
        | .error reason => (σ, [.inviteFailed reason])
        | .ok payload =>
          match checkInvite L σ.publicId payload with
          | .error reason => (σ, [.inviteFailed reason])
          | .ok link => acceptLink L σ link := by
  unfold handleAcceptInvite
  rewrite [h]
  rfl

theorem carried_of_rest {inviteUrl : String} {rest : List Char} (h : normalizeAppUrl inviteUrl.toList = some (some rest)) :
    carried L inviteUrl = (b64Groups (trimEndMatches '=' (splitAction rest).2).toList).bind L.json.fromSlice := by
  unfold carried
  rw [h, Option.join_some, Option.bind_some]

/-- What is decoded is what the link carries. -/
theorem decodeInvite_ok_iff {encoded : String} {payload : Json} :
    decodeInvite L encoded = .ok payload ↔
      byteLen encoded.toList ≤ 262144 ∧ (b64Groups (trimEndMatches '=' encoded).toList).bind L.json.fromSlice = some payload := by
  unfold decodeInvite
  by_cases hsize : 262144 < byteLen encoded.toList
  · rw [if_pos hsize]
    exact ⟨fun h => (by cases h), fun h => absurd h.1 (Nat.not_le.mpr hsize)⟩
  · rw [if_neg hsize]
    cases b64Groups (trimEndMatches '=' encoded).toList with
    | none => exact ⟨fun h => (by cases h), fun h => (by cases h.2)⟩
    | some jsonBytes =>
      simp only [Option.bind_some]
      cases L.json.fromSlice jsonBytes with
      | none => exact ⟨fun h => (by cases h), fun h => (by cases h.2)⟩
      | some v =>
        constructor
        · intro h
          exact ⟨Nat.not_lt.mp hsize, congrArg some (Except.ok.inj h)⟩
        · intro h
          exact congrArg Except.ok (Option.some.inj h.2)

theorem isSupernode_of_check {publicId : String} {payload : Json} {link : InviteLink} (h : checkInvite L publicId payload = .ok link) :
    link.isSupernode = boolField payload "is_supernode" := by
  unfold checkInvite at h
  cases hpub : (payload.get "inviter_identity_pub").bind Json.asStr with
  | none =>
    rw [hpub] at h
    cases h
  | some identityPub =>
    rw [hpub] at h
    simp only at h
    split at h
    · cases h
    · split at h
      · cases h
      · split at h
        · cases h
        · rw [← Except.ok.inj h]
          rfl

/-! ## Links that pass -/

/-- A supernode's link that passes is accepted. -/
theorem accepted_of_passes {link : InviteLink} (hpub : cuts link.inviterIdentityPub 8 = true) (hid : cuts link.inviteId 8 = true)
    (hsupernode : link.isSupernode = true) (σ : LinkClient) :
    .inviteAccepted link.inviterPeerId link.inviterHandle ∈ (acceptLink L σ link).2 := by
  have hcuts : ¬ (cuts link.inviterIdentityPub 8 = false ∨ cuts link.inviteId 8 = false) := by
    rw [hpub, hid]
    simp
  have htrust : .inviteAccepted link.inviterPeerId link.inviterHandle ∈ (trustSupernode L σ link).2 := by
    unfold trustSupernode
    by_cases hhints : link.dialHints = []
    · rw [if_pos hhints]
      exact List.mem_singleton_self _
    · rw [if_neg hhints]
      exact List.mem_cons_self
  unfold acceptLink
  rw [if_neg hcuts, if_pos hsupernode]
  exact List.mem_append_left _ htrust

/-- What entering a room leaves alone. -/
theorem enterRoom_spec (σ : LinkClient) (supernodeId hint : String) (entry : RoomInviteEntry) :
    (enterRoom σ supernodeId hint entry).1.store = σ.store ∧ (enterRoom σ supernodeId hint entry).1.pendingInvites = σ.pendingInvites ∧
      (∀ peerId handle, .inviteAccepted peerId handle ∉ (enterRoom σ supernodeId hint entry).2) ∧
      ∀ id session, σ.supernodes.lookup id = some session →
        (enterRoom σ supernodeId hint entry).1.supernodes.lookup id = some session ∧
          .abort id ∉ (enterRoom σ supernodeId hint entry).2 ∧ ∀ cs, .dial id cs ∉ (enterRoom σ supernodeId hint entry).2 := by
  unfold enterRoom
  by_cases hconnected : (σ.supernodes.lookup supernodeId).any SupernodeSession.connected = true
  · rw [if_pos hconnected]
    exact ⟨rfl, rfl, by simp, fun id session h => ⟨h, by simp, by simp⟩⟩
  · rw [if_neg hconnected]
    by_cases hsession : (σ.supernodes.lookup supernodeId).isSome = true
    · rw [if_pos hsession]
      exact ⟨rfl, rfl, by simp, fun id session h => ⟨h, by simp, by simp⟩⟩
    · rw [if_neg hsession]
      by_cases hhint : hint = ""
      · rw [if_pos hhint]
        exact ⟨rfl, rfl, by simp, fun id session h => ⟨h, by simp, by simp⟩⟩
      · rw [if_neg hhint]
        unfold connectSupernodeWs
        rw [if_neg (List.cons_ne_nil _ _)]
        refine ⟨rfl, rfl, by simp, fun id session h => ?_⟩
        have hne : id ≠ supernodeId := by
          rintro rfl
          rw [h] at hsession
          exact hsession rfl
        exact ⟨(AList.lookup_insert_ne hne).trans h, by simp, by simp [hne]⟩

/-- A room's link changes nothing of this unless it passes. -/
theorem notBelieved_room {σ : LinkClient} {encoded : String} (h : ¬ PassesRoom L σ "room" encoded) :
    NotBelieved σ (handleAcceptRoomInvite L σ encoded).1 (handleAcceptRoomInvite L σ encoded).2 := by
  unfold handleAcceptRoomInvite
  cases hparse : parseRoomInvite L.json encoded with
  | error e => exact notBelieved_of_same rfl rfl rfl (Or.inl ⟨_, rfl⟩)
  | ok p =>
    simp only
    by_cases hexpired : p.expiresAt ≠ 0 ∧ p.expiresAt < L.env.now
    · rw [if_pos hexpired]
      exact notBelieved_of_same rfl rfl rfl (Or.inl ⟨_, rfl⟩)
    · rw [if_neg hexpired]
      generalize hcreds : (if p.spaceProof = "" then σ
        else { σ with pendingJoinSpaceCreds := σ.pendingJoinSpaceCreds.insert p.roomId (p.spaceRoot, p.spaceProof, p.spaceGrant) }) = τ
      have hsame : τ.store = σ.store ∧ τ.pendingInvites = σ.pendingInvites ∧ τ.supernodes = σ.supernodes := by
        rw [← hcreds]
        split
        · exact ⟨rfl, rfl, rfl⟩
        · exact ⟨rfl, rfl, rfl⟩
      by_cases hcuts : cuts p.roomId 12 = false ∨ cuts p.supernodeId 8 = false
      · rw [if_pos hcuts]
        exact notBelieved_of_same hsame.1 hsame.2.1 hsame.2.2 (Or.inr rfl)
      · rw [if_neg hcuts]
        rw [not_or, Bool.not_eq_false, Bool.not_eq_false] at hcuts
        generalize hhost : (if p.supernodeHint = "" then τ
          else { τ with store := τ.store.upsertFromInvite (roomHostRecord L p.supernodeId p.supernodeHint) }) = υ
        have hstored : (∀ key, υ.store.lookup key = σ.store.lookup key) ∧ υ.pendingInvites = σ.pendingInvites ∧ υ.supernodes = σ.supernodes := by
          rw [← hhost]
          by_cases hhint : p.supernodeHint = ""
          · rw [if_pos hhint]
            exact ⟨fun key => by rw [hsame.1], hsame.2⟩
          · rw [if_neg hhint]
            refine ⟨fun key => ?_, hsame.2⟩
            by_contra hkey
            rw [hsame.1] at hkey
            exact h ⟨rfl, p, hparse, hexpired, hcuts.1, hcuts.2, hhint, key, hkey⟩
        obtain ⟨hstore, hpending, haccepted, hsessions⟩ := enterRoom_spec υ p.supernodeId p.supernodeHint
          { roomId := p.roomId, roomName := p.roomName, roomType := p.roomType, inviteToken := p.inviteToken,
            parentId := spaceParentId L p.spaceProof, spaceId := spaceTreeId L p.spaceRoot }
        exact
          { store := fun key => by rw [hstore, hstored.1]
            accepted := haccepted
            pending := fun inviteId => by rw [hpending, hstored.2.1]
            sessions := fun id session hsession => hsessions id session (by rw [hstored.2.2, hsession]) }

/-- A link without a signature that passes the other checks is believed. -/
theorem not_onlySigned {ed25519Verify : Supernode.Ed25519} {σ : LinkClient} {inviteUrl : String}
    (h : UnsignedPasses L ed25519Verify σ inviteUrl) : ¬ OnlySigned L ed25519Verify σ inviteUrl := by
  intro honly
  obtain ⟨rest, payload, hrest, hcarried, hunsigned, hpasses⟩ := h
  have hnot := honly payload hcarried hunsigned
  rw [handle_of_rest hrest] at hnot
  rcases hpasses with ⟨haction, hsize, link, hcheck, hpub, hid⟩ | ⟨haction, p, hparse, hexpired, hroom, hsupernode, hhint, key, hkey⟩
  · have hdecode : decodeInvite L (splitAction rest).2 = .ok payload :=
      decodeInvite_ok_iff.mpr ⟨hsize, (carried_of_rest hrest).symm.trans hcarried⟩
    rw [if_neg haction, hdecode] at hnot
    simp only [hcheck] at hnot
    exact hnot.accepted _ _ (accepted_of_passes hpub hid ((isSupernode_of_check hcheck).trans hunsigned.1) σ)
  · rw [if_pos haction] at hnot
    refine hkey ?_
    rw [← hnot.store key]
    unfold handleAcceptRoomInvite
    rw [hparse]
    simp only
    rw [if_neg hexpired, hroom, hsupernode, if_neg (by simp), if_neg hhint, (enterRoom_spec _ _ _ _).1]
    split
    · rfl
    · rfl

end SignedLinksAux

open SignedLinksAux in
/-- A link that its inviter did not sign is not believed exactly if something other than the signature stops it. -/
theorem only_signed_iff (L : LinkEnv) (ed25519Verify : Supernode.Ed25519) (σ : LinkClient) (inviteUrl : String) :
    OnlySigned L ed25519Verify σ inviteUrl ↔ ¬ UnsignedPasses L ed25519Verify σ inviteUrl := by
  constructor
  · exact fun honly hpasses => not_onlySigned hpasses honly
  · intro hstops payload hcarried hunsigned
    cases hnormal : normalizeAppUrl inviteUrl.toList with
    | none =>
      unfold carried at hcarried
      rw [hnormal] at hcarried
      cases hcarried
    | some reduced =>
      cases reduced with
      | none =>
        unfold carried at hcarried
        rw [hnormal] at hcarried
        cases hcarried
      | some rest =>
        rw [handle_of_rest hnormal]
        by_cases haction : (splitAction rest).1 = "room"
        · rw [if_pos haction]
          refine notBelieved_room fun hpasses => hstops ⟨rest, payload, hnormal, hcarried, hunsigned, Or.inr ?_⟩
          rw [haction]
          exact hpasses
        · rw [if_neg haction]
          cases hdecode : decodeInvite L (splitAction rest).2 with
          | error reason => exact notBelieved_of_same rfl rfl rfl (Or.inl ⟨_, rfl⟩)
          | ok decoded =>
            obtain ⟨hsize, hread⟩ := decodeInvite_ok_iff.mp hdecode
            obtain rfl := Option.some.inj (((carried_of_rest hnormal).symm.trans hcarried).symm.trans hread)
            cases hcheck : checkInvite L σ.publicId payload with
            | error reason =>
              simp only [hcheck]
              exact notBelieved_of_same rfl rfl rfl (Or.inl ⟨_, rfl⟩)
            | ok link =>
              simp only [hcheck]
              unfold acceptLink
              by_cases hcuts : cuts link.inviterIdentityPub 8 = false ∨ cuts link.inviteId 8 = false
              · rw [if_pos hcuts]
                exact notBelieved_of_same rfl rfl rfl (Or.inr rfl)
              · rw [not_or, Bool.not_eq_false, Bool.not_eq_false] at hcuts
                exact absurd ⟨rest, payload, hnormal, hcarried, hunsigned, Or.inl ⟨haction, hsize, link, hcheck, hcuts⟩⟩ hstops

/-! ## A forged link -/

/-- What anybody can write of a supernode. -/
def forgedPayload : Json :=
  .obj [("expires_at", .int 2000), ("invite_id", .str "i1"), ("inviter_ephemeral_pub", .str "x"), ("inviter_identity_pub", .str "home"),
    ("inviter_peer_id", .str "h"), ("is_supernode", .bool true), ("relay_hint", .str "ws://203.0.113.9:1")]

/-- The link with it. -/
def forgedUrl : String := String.ofList (mintInviteHttps "invite".toList (b64urlEncode forgedPayload.toVec).toList)

/-- A client that trusts nobody, at the time 1000. -/
noncomputable def linkEnv : LinkEnv where
  env := { crypto := ⟨fun _ => none, fun _ _ _ => false⟩, now := 1000, displayHandle := "", parseSocketAddr := fun _ => none,
           openEnvelope := fun _ => none }
  json := .exact
  base64Error _ := ""
  jsonError _ := ""
  ownPeerId := ""
  joinerEphemeralPub := ""
  joinerQuicPort := 0
  localQuicHint := none
  publicQuicHint := none

/-- It has a session with the supernode that the link names. -/
def pairedClient : LinkClient where
  publicId := "me"
  store := ∅
  pendingInvites := ∅
  supernodes := AList.singleton "home" { candidates := ["ws://198.51.100.7:1"], connected := true }
  pendingJoinSpaceCreds := ∅
  pendingRoomInviteEntries := ∅

namespace SignedLinksAux

open RoomLinksAux

theorem normalize_invite {payload : List Char} (h : payload ≠ []) :
    normalizeAppUrl (mintInviteHttps "invite".toList payload) = some (some ("invite#".toList ++ payload)) := by
  have hstrip : stripHttpsInvite (mintInviteHttps "invite".toList payload) =
      some (if payload = [] then none else some ("invite".toList, payload)) := rfl
  unfold normalizeAppUrl
  rw [hstrip, if_neg h]
  rfl

theorem normalize_link {bytes : List UInt8} (h : bytes ≠ []) :
    normalizeAppUrl (String.ofList (mintInviteHttps "invite".toList (b64urlEncode bytes).toList)).toList =
      some (some ("invite#".toList ++ (b64urlEncode bytes).toList)) := by
  rw [String.toList_ofList]
  exact normalize_invite (encode_ne_nil h)

/-- An encoding of few bytes is no longer than a link may be. -/
theorem byteLen_link {bytes : List UInt8} (h : bytes.length ≤ 1000) : byteLen (b64urlEncode bytes).toList ≤ 262144 := by
  have hascii : ∀ c ∈ (b64urlEncode bytes).toList, c.utf8Size = 1 := by
    unfold b64urlEncode
    rw [String.toList_ofList]
    exact b64Body_forall (fun n hn => Sfu.SpellingAux.utf8Size_b64Char hn) bytes
  rw [Sfu.SpellingAux.byteLen_of_ascii hascii]
  unfold b64urlEncode
  rw [String.toList_ofList, List.length_map, length_b64Body]
  omega

theorem length_forged : 0 < forgedPayload.toVec.length ∧ forgedPayload.toVec.length ≤ 1000 := by
  rw [toVec_eq, length_utf8]
  decide +kernel

theorem normalize_forged :
    normalizeAppUrl forgedUrl.toList = some (some ("invite#".toList ++ (b64urlEncode forgedPayload.toVec).toList)) :=
  normalize_link (List.length_pos_iff.mp length_forged.1)

theorem splitAction_forged (payload : String) : splitAction ("invite#".toList ++ payload.toList) = ("invite", payload) := by
  have hsplit : splitOnce '#' (String.ofList ("invite#".toList ++ payload.toList)) = some ("invite", payload) :=
    splitOnce_eq_some_iff.mpr ⟨by rw [String.toList_ofList]; rfl, by decide⟩
  unfold splitAction
  rw [hsplit]
  rfl

theorem read_forged : (b64Groups (trimEndMatches '=' (b64urlEncode forgedPayload.toVec)).toList).bind linkEnv.json.fromSlice =
    some forgedPayload := by
  have hvalue : forgedPayload.IsValue IsFloatText := by
    refine ⟨?_, ⟨by decide, by decide⟩, trivial, trivial, trivial, trivial, trivial, trivial, trivial⟩
    show (["expires_at", "invite_id", "inviter_ephemeral_pub", "inviter_identity_pub", "inviter_peer_id", "is_supernode", "relay_hint"] :
      List String).Pairwise (· < ·)
    decide
  rw [trimmed_encode, Option.bind_some]
  unfold JsonReader.fromSlice
  rw [toVec_eq, Bytes.fromUtf8_utf8, Option.bind_some]
  exact JsonReader.exact.readsBack forgedPayload hvalue (by decide)

theorem unsigned_forged (ed25519Verify : Supernode.Ed25519) : Unsigned ed25519Verify forgedPayload := by
  refine ⟨rfl, ?_⟩
  rintro ⟨invite, hinvite, hverify⟩
  have hsignature : (Supernode.InvitePayload.ofJson forgedPayload).all fun p => p.signature.isNone := by decide +kernel
  rw [hinvite] at hsignature
  have hnone : invite.signature = none := Option.isNone_iff_eq_none.mp hsignature
  unfold Supernode.InvitePayload.verify at hverify
  rw [hnone] at hverify
  cases hverify

end SignedLinksAux

open SignedLinksAux in
/-- A link without any signature is believed, whatever signatures verify. -/
theorem forged_link_is_believed : ¬ OnlySigned linkEnv (fun _ _ _ => true) pairedClient forgedUrl := by
  refine not_onlySigned ⟨_, forgedPayload, normalize_forged, ?_, unsigned_forged _, Or.inl ?_⟩
  · rw [carried_of_rest normalize_forged, splitAction_forged]
    exact read_forged
  · rw [splitAction_forged]
    exact ⟨by decide, byteLen_link length_forged.2, _, rfl, by decide +kernel, by decide +kernel⟩

end DoubleSlash.Manager
