import DoubleSlash.Lemmas.Rooms
import DoubleSlash.Supernode.RoomHandlers

/-!
# What the room handlers do to a room

The room of an id before and after the steps the handlers are made of, and the admission by a Space proof summed up once.
-/

namespace DoubleSlash.Supernode

open Assoc Codec Protocol Sfu Spaces Text

variable {S D : Type} {P : Primitives D} {st : SupernodeState S} {id roomId : String} {room : SFURoom S} {now : Nat}

/-- The room of an id. -/
def SupernodeState.roomAt (st : SupernodeState S) (id : String) : Option (SFURoom S) := st.sfu.bind fun sfu => sfu.rooms.lookup id

theorem roomAt_eq {sfu : SFURoomManager S} (h : st.sfu = some sfu) (id : String) : st.roomAt id = sfu.rooms.lookup id := by
  unfold SupernodeState.roomAt
  rw [h, Option.bind_some]

theorem roomAt_of_sfu {st' : SupernodeState S} (h : st'.sfu = st.sfu) (id : String) : st'.roomAt id = st.roomAt id := by
  unfold SupernodeState.roomAt
  rw [h]

theorem roomAt_withRoots (st : SupernodeState S) (roots : SpaceRootStore) (id : String) :
    ({ st with spaceRoots := roots } : SupernodeState S).roomAt id = st.roomAt id := rfl

theorem roomAt_map (f : SFURoomManager S → SFURoomManager S) (id : String) :
    ({ st with sfu := st.sfu.map f } : SupernodeState S).roomAt id = st.sfu.bind fun sfu => (f sfu).rooms.lookup id := by
  unfold SupernodeState.roomAt
  cases st.sfu <;> rfl

/-! ## The rooms, one call at a time -/

theorem lookup_create_of_some {sfu : SFURoomManager S} (h : sfu.rooms.lookup id = some room) (roomId name : String)
    (roomType : RoomType) (creator policy : String) :
    (sfu.createRoomWithPolicy roomId name roomType creator policy now).1.rooms.lookup id = some room := by
  unfold SFURoomManager.createRoomWithPolicy
  split
  · exact h
  · rename_i hnone
    have hid : id ≠ roomId := by
      intro hid
      rw [hid] at h
      rw [h] at hnone
      exact hnone rfl
    exact (AList.lookup_insert_ne hid).trans h

theorem lookup_allow_of_some {sfu : SFURoomManager S} (h : sfu.rooms.lookup id = some room) (roomId peer : String) :
    (sfu.allowPeer roomId peer).1.rooms.lookup id = some (if id = roomId then room.allowPeer peer else room) := by
  unfold SFURoomManager.allowPeer
  by_cases hid : id = roomId
  · subst hid
    rw [h, if_pos rfl]
    exact AList.lookup_insert _
  · rw [if_neg hid]
    cases sfu.rooms.lookup roomId with
    | none => exact h
    | some other => exact (AList.lookup_insert_ne hid).trans h

/-- The room with the owner it takes from a Space when it has none. -/
def adopted (ownerPub : String) (room : SFURoom S) : SFURoom S :=
  if ownerPub ≠ "" ∧ room.creatorId = "" then { room with creatorId := ownerPub } else room

theorem adopted_allowed (ownerPub : String) (room : SFURoom S) : (adopted ownerPub room).allowed = room.allowed := by
  unfold adopted
  split <;> rfl

theorem adopted_creator (ownerPub : String) (room : SFURoom S) :
    (adopted ownerPub room).creatorId = room.creatorId ↔ (room.creatorId = "" → ownerPub = "") := by
  unfold adopted
  by_cases hcreator : room.creatorId = ""
  · by_cases howner : ownerPub = ""
    · simp [howner]
    · rw [if_pos ⟨howner, hcreator⟩]
      simp [hcreator, howner]
  · rw [if_neg fun h => hcreator h.2]
    simp [hcreator]

theorem lookup_adopt_of_some {sfu : SFURoomManager S} (h : sfu.rooms.lookup id = some room) (roomId ownerPub : String) :
    (sfu.adoptCreatorIfEmpty roomId ownerPub).1.rooms.lookup id = some (if id = roomId then adopted ownerPub room else room) := by
  unfold SFURoomManager.adoptCreatorIfEmpty adopted
  by_cases howner : ownerPub = ""
  · simp [howner, h]
  · rw [if_neg howner]
    by_cases hid : id = roomId
    · subst hid
      rw [h, if_pos rfl]
      by_cases hcreator : room.creatorId = ""
      · dsimp only
        rw [if_pos hcreator, if_pos ⟨howner, hcreator⟩]
        exact AList.lookup_insert _
      · dsimp only
        rw [if_neg hcreator, if_neg fun hboth => hcreator hboth.2]
        exact h
    · rw [if_neg hid]
      cases sfu.rooms.lookup roomId with
      | none => exact h
      | some other =>
        dsimp only
        split
        · exact (AList.lookup_insert_ne hid).trans h
        · exact h

/-! ## Admission by a Space proof -/

theorem roomAt_localAllow (h : st.roomAt id = some room) (roomName roomType peer : String) :
    (localAllowRoomPeer st roomId roomName roomType peer now).roomAt id =
      some (if id = roomId then room.allowPeer peer else room) := by
  unfold localAllowRoomPeer
  rw [roomAt_map]
  obtain ⟨sfu, hsfu, hroom⟩ := Option.bind_eq_some_iff.mp h
  rw [hsfu, Option.bind_some]
  exact lookup_allow_of_some (lookup_create_of_some hroom _ _ _ _ _) _ _

theorem roomAt_materialize (h : st.roomAt id = some room) (node : SpaceNode) :
    (materializeProven st roomId node now).roomAt id = some (if id = roomId then adopted node.ownerPub room else room) := by
  unfold materializeProven
  rw [roomAt_map]
  obtain ⟨sfu, hsfu, hroom⟩ := Option.bind_eq_some_iff.mp h
  rw [hsfu, Option.bind_some]
  exact lookup_adopt_of_some (lookup_create_of_some hroom _ _ _ _ _) _ _

/-- The root the node holds of a Space once it was offered the one a payload carries. -/
def admissionRoot (P : Primitives D) (st : SupernodeState S) (payload : Payload) : Option SignedSpaceRoot :=
  ((payload.get "space_root").bind rootOfJson).bind fun carried =>
    (st.spaceRoots.accept P.ed25519Verify carried).1.roots.lookup carried.spaceId

/-- A payload proves the room under the root the node holds. -/
structure Proven (P : Primitives D) (st : SupernodeState S) (roomId : String) (payload : Payload) (proof : SpaceInclusionProof)
    (root : SignedSpaceRoot) : Prop where
  carried : (payload.get "space_proof").bind proofOfJson = some proof
  node : proof.node.nodeId = roomId
  held : admissionRoot P st payload = some root
  verifies : proof.verifyAgainst P.hashing root = true

/-- The decision on a proof that holds. -/
def admits (P : Primitives D) (payload : Payload) (proof : SpaceInclusionProof) (root : SignedSpaceRoot) (sender roomId : String)
    (now : Nat) : Bool :=
  spaceAdmissionOk P.hashing P.ed25519Verify root proof ((payload.get "space_grant").bind grantOfJson) sender roomId now

/-- **The admission, summed up.** Nothing becomes of the rooms unless the payload proves the room. Then a room that is there has
an owner, and on a full pass the sender among those allowed. -/
theorem trySpaceAdmission_cases (P : Primitives D) (st : SupernodeState S) (sender roomId : String) (payload : Payload) (now : Nat) :
    ((trySpaceAdmission P st sender roomId payload now).2 = false ∧
        (trySpaceAdmission P st sender roomId payload now).1.sfu = st.sfu ∧ ¬∃ proof root, Proven P st roomId payload proof root) ∨
      ∃ proof root, Proven P st roomId payload proof root ∧
        (trySpaceAdmission P st sender roomId payload now).2 = admits P payload proof root sender roomId now ∧
        ∀ id room, st.roomAt id = some room → (trySpaceAdmission P st sender roomId payload now).1.roomAt id = some
          (if id = roomId then
            if admits P payload proof root sender roomId now then (adopted proof.node.ownerPub room).allowPeer sender
            else adopted proof.node.ownerPub room
          else room) := by
  unfold trySpaceAdmission
  cases hproof : (payload.get "space_proof").bind proofOfJson with
  | none =>
    refine Or.inl ⟨rfl, rfl, ?_⟩
    rintro ⟨proof, root, hproven⟩
    rw [hproven.carried] at hproof
    cases hproof
  | some proof =>
    by_cases hnode : proof.node.nodeId = roomId
    · dsimp only
      rw [if_neg (not_not.mpr hnode)]
      cases hcarried : (payload.get "space_root").bind rootOfJson with
      | none =>
        refine Or.inl ⟨rfl, rfl, ?_⟩
        rintro ⟨proof', root, hproven⟩
        have hroot := hproven.held
        unfold admissionRoot at hroot
        rw [hcarried] at hroot
        cases hroot
      | some carried =>
        have hheld : admissionRoot P st payload =
            (st.spaceRoots.accept P.ed25519Verify carried).1.roots.lookup carried.spaceId := by
          unfold admissionRoot
          rw [hcarried, Option.bind_some]
        dsimp only
        cases hroot : (st.spaceRoots.accept P.ed25519Verify carried).1.roots.lookup carried.spaceId with
        | none =>
          dsimp only
          refine Or.inl ⟨rfl, rfl, ?_⟩
          rintro ⟨proof', root, hproven⟩
          rw [hproven.held, hroot] at hheld
          cases hheld
        | some root =>
          rw [hroot] at hheld
          dsimp only
          cases hverify : proof.verifyAgainst P.hashing root with
          | false =>
            simp only [if_true]
            refine Or.inl ⟨trivial, trivial, ?_⟩
            rintro ⟨proof', root', hproven⟩
            have hsame : proof' = proof := Option.some.inj (hproven.carried.symm.trans hproof)
            have hsame' : root' = root := Option.some.inj (hproven.held.symm.trans hheld)
            have hno := hproven.verifies
            rw [hsame, hsame', hverify] at hno
            cases hno
          | true =>
            refine Or.inr ⟨proof, root, ⟨hproof, hnode, hheld, hverify⟩, ?_⟩
            simp only [Bool.true_eq_false, if_false]
            have hkept := roomAt_withRoots st (st.spaceRoots.accept P.ed25519Verify carried).1
            cases hok : admits P payload proof root sender roomId now with
            | false =>
              unfold admits at hok
              simp only [hok, if_true, Bool.false_eq_true, if_false]
              refine ⟨trivial, ?_⟩
              intro id room hroom
              exact roomAt_materialize ((hkept id).trans hroom) _
            | true =>
              unfold admits at hok
              simp only [hok, Bool.true_eq_false, if_false, if_true]
              refine ⟨trivial, ?_⟩
              intro id room hroom
              have hadopted := (hkept id).trans hroom
              rw [roomAt_localAllow (roomAt_materialize hadopted proof.node)]
              by_cases hid : id = roomId
              · simp only [hid, if_true]
              · simp only [hid, if_false]
    · dsimp only
      rw [if_pos hnode]
      refine Or.inl ⟨rfl, rfl, ?_⟩
      rintro ⟨proof', root, hproven⟩
      have hsame : proof' = proof := Option.some.inj (hproven.carried.symm.trans hproof)
      exact hnode (hsame ▸ hproven.node)

/-- Who may enter the room, by whom, under what policy and with which tokens is the same. -/
structure SameAccess (room room' : SFURoom S) : Prop where
  allowed : room'.allowed = room.allowed
  creator : room'.creatorId = room.creatorId
  roomType : room'.roomType = room.roomType
  policy : room'.invitePolicy = room.invitePolicy
  tokens : room'.inviteTokens = room.inviteTokens

theorem SameAccess.refl (room : SFURoom S) : SameAccess room room := ⟨rfl, rfl, rfl, rfl, rfl⟩

theorem SameAccess.trans {a b c : SFURoom S} (h : SameAccess a b) (h' : SameAccess b c) : SameAccess a c where
  allowed := h'.allowed.trans h.allowed
  creator := h'.creator.trans h.creator
  roomType := h'.roomType.trans h.roomType
  policy := h'.policy.trans h.policy
  tokens := h'.tokens.trans h.tokens

/-! ## Membership and access -/

theorem sameAccess_markUnused (room : SFURoom S) (now : Nat) : SameAccess room (room.markUnusedIfEmpty now) := by
  unfold SFURoom.markUnusedIfEmpty
  split <;> exact ⟨rfl, rfl, rfl, rfl, rfl⟩

theorem sameAccess_addParticipant (room : SFURoom S) (p : String) : SameAccess room (room.addParticipant p).1 := by
  unfold SFURoom.addParticipant
  dsimp only
  split
  · exact SameAccess.refl room
  · split <;> exact ⟨rfl, rfl, rfl, rfl, rfl⟩

theorem sameAccess_removeParticipant (room : SFURoom S) (p : String) (now : Nat) :
    SameAccess room (room.removeParticipant p now).1 := by
  have hforget : ∀ r : SFURoom S, SameAccess r (r.forgetSpeaker (normalizePeerId p)) := fun _ => ⟨rfl, rfl, rfl, rfl, rfl⟩
  unfold SFURoom.removeParticipant
  dsimp only
  split
  · have herase : SameAccess room { room with participants := room.participants.erase (normalizePeerId p) } :=
      ⟨rfl, rfl, rfl, rfl, rfl⟩
    exact (herase.trans (sameAccess_markUnused _ _)).trans (hforget _)
  · exact SameAccess.refl room

theorem sameAccess_subscribe (room : SFURoom S) (p : String) : SameAccess room (room.subscribe p) := by
  unfold SFURoom.subscribe
  dsimp only
  split <;> exact ⟨rfl, rfl, rfl, rfl, rfl⟩

theorem sameAccess_unsubscribe (room : SFURoom S) (p : String) (now : Nat) : SameAccess room (room.unsubscribe p now) := by
  unfold SFURoom.unsubscribe
  dsimp only
  split
  · have herase : SameAccess room { room with subscribers := room.subscribers.erase (normalizePeerId p) } :=
      ⟨rfl, rfl, rfl, rfl, rfl⟩
    exact herase.trans (sameAccess_markUnused _ _)
  · exact SameAccess.refl room

/-- What an endpoint does in a room changes nothing of who may enter it. -/
theorem sameAccess_setDeviceMembership (room : SFURoom S) (p : String) (device : Option Tls.DeviceId) (voice chat : Option Bool)
    (now : Nat) : SameAccess room (room.setDeviceMembership p device voice chat now).1 := by
  have hset : ∀ key m, SameAccess room (room.withDevice key m) := fun _ _ => ⟨rfl, rfl, rfl, rfl, rfl⟩
  have hsettle : ∀ (r : SFURoom S) q, SameAccess r (r.settle q now) := by
    intro r q
    unfold SFURoom.settle
    dsimp only
    have hvoice : SameAccess r (if r.anyDevice q DeviceMembership.voice = true then (r.addParticipant q).1
        else (r.removeParticipant q now).1) := by
      split
      · exact sameAccess_addParticipant r q
      · exact sameAccess_removeParticipant r q now
    split
    · exact hvoice.trans (sameAccess_subscribe _ _)
    · exact hvoice.trans (sameAccess_unsubscribe _ _ _)
  unfold SFURoom.setDeviceMembership
  dsimp only
  split
  · exact SameAccess.refl room
  · split
    · exact SameAccess.refl room
    · exact (hset _ _).trans (hsettle _ _)

theorem create_existing {sfu : SFURoomManager S} (hroom : sfu.rooms.lookup id = some room) (name : String) (roomType : RoomType) (creator policy : String) :
    sfu.createRoomWithPolicy id name roomType creator policy now = (sfu, false) := by
  unfold SFURoomManager.createRoomWithPolicy
  rw [hroom]
  rfl

end DoubleSlash.Supernode
