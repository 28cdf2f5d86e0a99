import DoubleSlash.Theorems.RoomRematerialize
import DoubleSlash.Theorems.SpaceConvergence
import DoubleSlash.Theorems.SpaceInclusion
import DoubleSlash.Lemmas.RoomHandlers

/-!
# Admission by a Space proof

A proof is to admit to the rooms of the Space's signer only, and to change no owner on record. When `try_space_admission` keeps to
that: the link between the signer and the owner of the live room, which the handler does not check, has to hold already.
-/

namespace DoubleSlash.Supernode

open Assoc Codec Protocol Sfu Spaces Text

variable {S D : Type} (P : Primitives D)

/-- Two spellings of a peer, up to the padding. -/
def SamePeer (p q : String) : Prop := trimEndMatches '=' p = trimEndMatches '=' q

instance (p q : String) : Decidable (SamePeer p q) := inferInstanceAs (Decidable (_ = _))

/-- The payload carries a grant to the room that the owner signed. -/
def GrantedBy (payload : Payload) (roomId owner : String) : Prop :=
  ∃ grant, (payload.get "space_grant").bind grantOfJson = some grant ∧ grant.nodeId = roomId ∧
    grant.verify P.ed25519Verify owner = true

/-- What an admission may do to the rooms that are there. -/
structure AdmitsByOwner (st : SupernodeState S) (sender roomId : String) (payload : Payload) (now : Nat) : Prop where
  /-- Who becomes allowed was admitted under a root of the room's owner; to a private room, as the owner or by a grant. -/
  admitted : ∀ id room room' p, st.roomAt id = some room → room.creatorId ≠ "" →
    (trySpaceAdmission P st sender roomId payload now).1.roomAt id = some room' → p ∈ room'.allowed → p ∉ room.allowed →
    ∃ root, admissionRoot P st payload = some root ∧ SamePeer root.signer room.creatorId ∧
      (room.roomType = .priv → SamePeer p room.creatorId ∨ GrantedBy P payload id room.creatorId)
  /-- The lobby and every room with an owner keep what is on record. -/
  creator : ∀ id room room', st.roomAt id = some room → id = defaultRoomId ∨ room.creatorId ≠ "" →
    (trySpaceAdmission P st sender roomId payload now).1.roomAt id = some room' → room'.creatorId = room.creatorId

/-- The link between the Space and the room that is there: the lobby gets no owner, and who is newly admitted to a room with an
owner is so under the owner's root, for a node as private as the room unless it is the owner or has the owner's grant. -/
structure OwnersSpace (st : SupernodeState S) (sender roomId : String) (payload : Payload) (now : Nat) (room : SFURoom S)
    (proof : SpaceInclusionProof) (root : SignedSpaceRoot) : Prop where
  lobby : roomId = defaultRoomId → room.creatorId = "" → proof.node.ownerPub = ""
  signer : room.creatorId ≠ "" → normalizePeerId sender ∉ room.allowed → admits P payload proof root sender roomId now = true →
    SamePeer root.signer room.creatorId
  isPrivate : room.creatorId ≠ "" → normalizePeerId sender ∉ room.allowed → admits P payload proof root sender roomId now = true →
    room.roomType = .priv → proof.node.nodeType = "private" ∨ SamePeer sender room.creatorId ∨
      GrantedBy P payload roomId room.creatorId

namespace SpaceAdmissionAux

variable {P} {st : SupernodeState S} {sender roomId : String} {payload : Payload} {now : Nat} {proof : SpaceInclusionProof}
  {root : SignedSpaceRoot}

/-- Normalizing changes the padding only. -/
theorem samePeer_normalize (p : String) : SamePeer (normalizePeerId p) p := by
  unfold SamePeer normalizePeerId normalizePublicId
  by_cases h : byteLen (trimEndMatches '=' p).toList = 43
  · simp only [h, ne_eq, not_true_eq_false, if_false]
    unfold trimEndMatches
    simp only [String.toList_append, String.toList_ofList]
    rw [show "=".toList = ['='] from rfl, List.rdropWhile_concat_pos _ _ _ (by decide), List.rdropWhile_idempotent]
  · simp only [h, ne_eq, not_false_eq_true, if_true]

/-- A grant verifies under every spelling of the key. -/
theorem verify_samePeer {grant : SpaceGrant} {p q : String} (h : SamePeer p q) :
    grant.verify P.ed25519Verify p = grant.verify P.ed25519Verify q := by
  unfold SpaceGrant.verify signedBy b64urlDecode
  rw [h]

/-- A node that is private admits by a grant of the signer only. -/
theorem granted_of_admits (hok : admits P payload proof root sender roomId now = true) (hprivate : proof.node.nodeType = "private") :
    GrantedBy P payload roomId root.signer := by
  unfold admits spaceAdmissionOk at hok
  by_cases hproof : proof.node.nodeId ≠ roomId ∨ proof.verifyAgainst P.hashing root = false
  · rw [if_pos hproof] at hok
    cases hok
  · rw [if_neg hproof, if_neg (not_not.mpr hprivate)] at hok
    cases hgrant : (payload.get "space_grant").bind grantOfJson with
    | none =>
      rw [hgrant] at hok
      cases hok
    | some grant =>
      rw [hgrant] at hok
      dsimp only at hok
      by_cases hbad : grant.verify P.ed25519Verify root.signer = false ∨ grant.nodeId ≠ roomId ∨
          trimEndMatches '=' grant.granteePub ≠ trimEndMatches '=' sender ∨ root.epoch < grant.epoch
      · rw [if_pos hbad] at hok
        cases hok
      · simp only [not_or, Bool.not_eq_false, not_not] at hbad
        exact ⟨grant, hgrant, hbad.2.1, hbad.1⟩

/-- The room of the proof afterwards. -/
def afterProof (P : Primitives D) (sender roomId : String) (payload : Payload) (now : Nat) (proof : SpaceInclusionProof)
    (root : SignedSpaceRoot) (room : SFURoom S) : SFURoom S :=
  if admits P payload proof root sender roomId now then (adopted proof.node.ownerPub room).allowPeer sender
  else adopted proof.node.ownerPub room

theorem afterProof_creator (room : SFURoom S) :
    (afterProof P sender roomId payload now proof root room).creatorId = (adopted proof.node.ownerPub room).creatorId := by
  unfold afterProof
  split <;> rfl

theorem mem_afterProof (room : SFURoom S) (p : String) (hnew : p ∉ room.allowed) :
    p ∈ (afterProof P sender roomId payload now proof root room).allowed ↔
      admits P payload proof root sender roomId now = true ∧ p = normalizePeerId sender := by
  unfold afterProof
  by_cases hok : admits P payload proof root sender roomId now = true
  · rw [if_pos hok]
    simp only [SFURoom.allowPeer, adopted_allowed, Finset.mem_insert, hnew, or_false, hok, true_and]
  · rw [if_neg hok, adopted_allowed]
    simp only [hnew, hok, Bool.false_eq_true, false_and]

/-- Without a proof of the room nothing changes. -/
theorem admitsByOwner_unproven (h : (trySpaceAdmission P st sender roomId payload now).1.sfu = st.sfu) :
    AdmitsByOwner P st sender roomId payload now := by
  constructor
  · intro id room room' p hroom _ hroom' hp hnew
    rw [roomAt_of_sfu h, hroom] at hroom'
    exact absurd hp (by rwa [← Option.some.inj hroom'])
  · intro id room room' hroom _ hroom'
    rw [roomAt_of_sfu h, hroom] at hroom'
    rw [← Option.some.inj hroom']

end SpaceAdmissionAux

open SpaceAdmissionAux

/-- **When a Space proof admits to the signer's rooms only.** For every state, peer, room and payload. -/
theorem admitsByOwner_iff (st : SupernodeState S) (sender roomId : String) (payload : Payload) (now : Nat) :
    AdmitsByOwner P st sender roomId payload now ↔
      ∀ proof root room, Proven P st roomId payload proof root → st.roomAt roomId = some room →
        OwnersSpace P st sender roomId payload now room proof root := by
  rcases trySpaceAdmission_cases P st sender roomId payload now with ⟨-, hsame, hnone⟩ | ⟨proof, root, hproven, -, hrooms⟩
  · constructor
    · intro _ proof root room hproven
      exact absurd ⟨proof, root, hproven⟩ hnone
    · intro _
      exact admitsByOwner_unproven hsame
  · have hat : ∀ id room, st.roomAt id = some room → (trySpaceAdmission P st sender roomId payload now).1.roomAt id =
        some (if id = roomId then afterProof P sender roomId payload now proof root room else room) := hrooms
    constructor
    · intro h proof' root' room hproven' hroom
      obtain rfl := Option.some.inj (hproven.carried.symm.trans hproven'.carried)
      obtain rfl := Option.some.inj (hproven.held.symm.trans hproven'.held)
      have hafter := hat roomId room hroom
      rw [if_pos rfl] at hafter
      have hadmitted := fun hcreator hnew hok =>
        h.admitted roomId room _ (normalizePeerId sender) hroom hcreator hafter ((mem_afterProof room _ hnew).mpr ⟨hok, rfl⟩) hnew
      constructor
      · intro hlobby hempty
        have hkept := h.creator roomId room _ hroom (Or.inl hlobby) hafter
        rw [afterProof_creator] at hkept
        exact (adopted_creator _ _).mp hkept hempty
      · intro hcreator hnew hok
        obtain ⟨root', hheld, hsigner, -⟩ := hadmitted hcreator hnew hok
        rwa [← Option.some.inj (hproven.held.symm.trans hheld)] at hsigner
      · intro hcreator hnew hok hpriv
        obtain ⟨-, -, -, hentry⟩ := hadmitted hcreator hnew hok
        rcases hentry hpriv with howner | hgrant
        · exact Or.inr (Or.inl ((samePeer_normalize sender).symm.trans howner))
        · exact Or.inr (Or.inr hgrant)
    · intro h
      constructor
      · intro id room room' p hroom hcreator hroom' hp hnew
        rw [hat id room hroom] at hroom'
        obtain rfl := Option.some.inj hroom'
        by_cases hid : id = roomId
        · subst hid
          rw [if_pos rfl] at hp
          obtain ⟨hok, hpeer⟩ := (mem_afterProof room p hnew).mp hp
          rw [hpeer] at hnew ⊢
          have hlink := h proof root room hproven hroom
          have hsigner := hlink.signer hcreator hnew hok
          refine ⟨root, hproven.held, hsigner, ?_⟩
          intro hpriv
          rcases hlink.isPrivate hcreator hnew hok hpriv with hnode | howner | hgrant
          · obtain ⟨grant, hcarried, hnodeId, hverify⟩ := granted_of_admits hok hnode
            exact Or.inr ⟨grant, hcarried, hnodeId, (verify_samePeer hsigner).symm.trans hverify⟩
          · exact Or.inl ((samePeer_normalize sender).trans howner)
          · exact Or.inr hgrant
        · rw [if_neg hid] at hp
          exact absurd hp hnew
      · intro id room room' hroom hkeep hroom'
        rw [hat id room hroom] at hroom'
        obtain rfl := Option.some.inj hroom'
        by_cases hid : id = roomId
        · subst hid
          rw [if_pos rfl, afterProof_creator, adopted_creator]
          intro hempty
          rcases hkeep with hlobby | hcreator
          · exact (h proof root room hproven hroom).lobby hlobby hempty
          · exact absurd hempty hcreator
        · rw [if_neg hid]

namespace SpaceAdmissionAux

open RoomRematerializeAux SpaceConvergenceAux

/-- Digests that are their messages, and signatures that are their keys. -/
def echoPrimitives : Primitives (List UInt8) := ⟨echoHashing, echoVerify⟩

/-- A node with the id of somebody else's room. -/
def foreignNode : SpaceNode where
  nodeId := "r"
  parentId := ""
  kind := "room"
  name := "Room"
  nodeType := "public"
  ownerPub := b64urlEncode strangerKey
  invitePolicy := ""
  inherit := false
  keyCommit := ""

/-- The only node of a Space, under a root that the stranger signed. -/
def foreignRoot : SignedSpaceRoot where
  schema := spaceSchema
  spaceId := "s"
  epoch := 1
  rootHash := encodeHash echoHashing (foreignNode.leafHash echoHashing)
  nodeCount := 1
  issuedAt := 1
  signer := b64urlEncode strangerKey
  signature := b64urlEncode strangerKey

def foreignProof : SpaceInclusionProof := ⟨spaceSchema, foreignNode, 0, [], 1⟩

/-- What the stranger sends with a join. -/
def foreignPayload : Payload :=
  [("room_id", .str "r"),
    ("space_proof", .obj [("schema", .int 1), ("node", .obj [("node_id", .str "r"), ("parent_id", .str ""), ("kind", .str "room"),
      ("name", .str "Room"), ("node_type", .str "public"), ("owner_pub", .str (b64urlEncode strangerKey))]), ("leaf_index", .int 0),
      ("path", .arr []), ("epoch", .int 1)]),
    ("space_root", .obj [("schema", .int 1), ("space_id", .str "s"), ("epoch", .int 1), ("root_hash", .str foreignRoot.rootHash),
      ("node_count", .int 1), ("issued_at", .int 1), ("signer", .str (b64urlEncode strangerKey)),
      ("signature", .str (b64urlEncode strangerKey))])]

theorem proof_foreignPayload : (foreignPayload.get "space_proof").bind proofOfJson = some foreignProof := rfl

theorem root_foreignPayload : (foreignPayload.get "space_root").bind rootOfJson = some foreignRoot := rfl

theorem held_foreignPayload : admissionRoot echoPrimitives ownedNode foreignPayload = some foreignRoot := by
  have hverify : verifyRoot echoVerify foreignRoot = true := by
    unfold verifyRoot signedBy foreignRoot
    simp only [decode_encode]
    exact decide_eq_true rfl
  unfold admissionRoot
  rw [root_foreignPayload, Option.bind_some]
  exact lookup_accept_first ⟨rfl, hverify⟩ rfl

theorem verifies_foreignProof : foreignProof.verifyAgainst echoHashing foreignRoot = true := by
  refine SpaceInclusionAux.verifyAgainst_iff.mpr ⟨rfl, by decide, by decide, [], foreignNode.leafHash echoHashing, rfl, ?_, rfl⟩
  exact rootFromAudit_one _ []

theorem proven_foreignPayload : Proven echoPrimitives ownedNode "r" foreignPayload foreignProof foreignRoot :=
  ⟨proof_foreignPayload, rfl, held_foreignPayload, verifies_foreignProof⟩

theorem admits_foreignProof : admits echoPrimitives foreignPayload foreignProof foreignRoot passerBy "r" 5 = true := by
  have hnode : ¬(foreignProof.node.nodeId ≠ "r" ∨ foreignProof.verifyAgainst echoPrimitives.hashing foreignRoot = false) := by
    rintro (hid | hno)
    · exact hid rfl
    · rw [show echoPrimitives.hashing = echoHashing from rfl, verifies_foreignProof] at hno
      cases hno
  unfold admits spaceAdmissionOk
  rw [if_neg hnode, if_pos (by decide)]

theorem stranger_not_roomOwner : ¬SamePeer foreignRoot.signer ownedRoom.creatorId := by
  decide +kernel

end SpaceAdmissionAux

open RoomRematerializeAux SpaceConvergenceAux in
/-- The Space of a stranger admits to somebody else's private room whose id one of its nodes has. -/
theorem admitsByOwner_fails_foreign :
    ¬∀ (st : SupernodeState Unit) (sender roomId : String) (payload : Payload) (now : Nat),
      AdmitsByOwner echoPrimitives st sender roomId payload now := by
  intro h
  obtain ⟨hpriv, hcreator⟩ := private_ownedRoom
  have hout : normalizePeerId passerBy ∉ ownedRoom.allowed := stranger_to_ownedRoom.2
  rcases trySpaceAdmission_cases echoPrimitives ownedNode passerBy "r" foreignPayload 5 with
    ⟨-, -, hnone⟩ | ⟨proof, root, hproven, -, hrooms⟩
  · exact hnone ⟨_, _, proven_foreignPayload⟩
  · obtain rfl := Option.some.inj (hproven.carried.symm.trans proof_foreignPayload)
    obtain rfl := Option.some.inj (hproven.held.symm.trans held_foreignPayload)
    have hroom : ownedNode.roomAt "r" = some ownedRoom := lookup_ownedRooms
    have hafter := hrooms "r" ownedRoom hroom
    rw [if_pos rfl] at hafter
    have hmem := (mem_afterProof ownedRoom (normalizePeerId passerBy) hout).mpr ⟨admits_foreignProof, rfl⟩
    obtain ⟨root, hheld, hsigner, -⟩ :=
      (h ownedNode passerBy "r" foreignPayload 5).admitted "r" ownedRoom _ _ hroom hcreator hafter hmem hout
    rw [held_foreignPayload] at hheld
    obtain rfl := Option.some.inj hheld
    exact stranger_not_roomOwner hsigner

end DoubleSlash.Supernode
