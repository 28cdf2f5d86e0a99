import DoubleSlash.Lemmas.Spellings
import DoubleSlash.Lib.Run

/-!
# Spellings of a peer in the rooms

Two runs of operations on the rooms of a node, alike but for the padding of the keys they come with, get the same answers, as
long as no operation is given a respelled key where the rooms read its spelling.
-/

namespace DoubleSlash.Sfu

open Assoc Codec Run Text Tls

variable {S : Type}

namespace SFURoomManager

/-- The rooms without who made their tokens. -/
def unsigned (mgr : SFURoomManager S) : SFURoomManager S := ⟨mapValues mgr.rooms SFURoom.unsigned⟩

theorem unsigned_idem (mgr : SFURoomManager S) : mgr.unsigned.unsigned = mgr.unsigned := by
  unfold unsigned
  rw [mapValues_mapValues]
  simp only [SFURoom.unsigned_idem]

theorem lookup_unsigned (mgr : SFURoomManager S) (id : String) :
    mgr.unsigned.rooms.lookup id = (mgr.rooms.lookup id).map SFURoom.unsigned := lookup_mapValues _ _ _

theorem unsigned_insert (mgr : SFURoomManager S) (id : String) (room : SFURoom S) :
    unsigned ⟨mgr.rooms.insert id room⟩ = ⟨mgr.unsigned.rooms.insert id room.unsigned⟩ := by
  unfold unsigned
  rw [mapValues_insert]

theorem unsigned_erase (mgr : SFURoomManager S) (id : String) :
    unsigned ⟨mgr.rooms.erase id⟩ = ⟨mgr.unsigned.rooms.erase id⟩ := by
  unfold unsigned
  rw [mapValues_erase]

end SFURoomManager

open SFURoomManager

/-! ## Operations that do not see who made a token -/

/-- The two outcomes are the same but for who made the tokens. -/
def Alike (a b : SFURoomManager S × Answer) : Prop := a.1.unsigned = b.1.unsigned ∧ a.2 = b.2

theorem Alike.symm {a b : SFURoomManager S × Answer} (h : Alike a b) : Alike b a := ⟨h.1.symm, h.2.symm⟩

theorem Alike.trans {a b c : SFURoomManager S × Answer} (h : Alike a b) (h' : Alike b c) : Alike a c :=
  ⟨h.1.trans h'.1, h.2.trans h'.2⟩

namespace RoomSpellingAux

variable {mgr : SFURoomManager S} {id : String} {room : SFURoom S}

/-- Rooms that take the same room, with its tokens unsigned, stay the same. -/
theorem unsigned_insert_eq {room' : SFURoom S} (h : room'.unsigned = room.unsigned) :
    unsigned ⟨mgr.unsigned.rooms.insert id room'⟩ = unsigned ⟨mgr.rooms.insert id room⟩ := by
  rw [unsigned_insert, unsigned_insert, unsigned_idem, h]

theorem unsigned_membership (p : String) (device : Option DeviceId) (voice chat : Option Bool) (now : Nat) :
    room.unsigned.setDeviceMembership p device voice chat now =
      ((room.setDeviceMembership p device voice chat now).1.unsigned, (room.setDeviceMembership p device voice chat now).2) := by
  have hroom : (room.unsigned.setDeviceMembership p device voice chat now).1 =
      (room.setDeviceMembership p device voice chat now).1.unsigned := by
    apply SFURoom.unsigned_of_withTokens (f := fun r => (r.setDeviceMembership p device voice chat now).1)
    intro room tokens
    rw [SFURoom.setDeviceMembership_withTokens]
  have hflag : (room.unsigned.setDeviceMembership p device voice chat now).2 =
      (room.setDeviceMembership p device voice chat now).2 := by
    unfold SFURoom.unsigned
    rw [SFURoom.setDeviceMembership_withTokens]
  exact Prod.ext hroom hflag

theorem unsigned_removal (p : String) (now : Nat) :
    room.unsigned.removePeerEntirely p now = ((room.removePeerEntirely p now).1.unsigned, (room.removePeerEntirely p now).2) := by
  have hroom : (room.unsigned.removePeerEntirely p now).1 = (room.removePeerEntirely p now).1.unsigned := by
    apply SFURoom.unsigned_of_withTokens (f := fun r => (r.removePeerEntirely p now).1)
    intro room tokens
    rw [SFURoom.removePeerEntirely_withTokens]
  have hflag : (room.unsigned.removePeerEntirely p now).2 = (room.removePeerEntirely p now).2 := by
    unfold SFURoom.unsigned
    rw [SFURoom.removePeerEntirely_withTokens]
  exact Prod.ext hroom hflag

theorem unsigned_markUnused (now : Nat) : room.unsigned.markUnusedIfEmpty now = (room.markUnusedIfEmpty now).unsigned :=
  SFURoom.unsigned_of_withTokens (f := fun r => r.markUnusedIfEmpty now) fun room tokens =>
    room.markUnusedIfEmpty_withTokens tokens now

theorem InviteToken.isSpent_unsigned (it : InviteToken) : it.unsigned.isSpent = it.isSpent := rfl

theorem InviteToken.used_unsigned (it : InviteToken) : it.unsigned.used = it.used.unsigned := by
  unfold InviteToken.used InviteToken.unsigned
  split <;> rfl

theorem unsigned_validate (token p : String) :
    room.unsigned.validateAndConsumeToken token p =
      ((room.validateAndConsumeToken token p).1.unsigned, (room.validateAndConsumeToken token p).2) := by
  have htokens : room.unsigned.inviteTokens.lookup token = (room.inviteTokens.lookup token).map InviteToken.unsigned :=
    lookup_mapValues _ _ _
  unfold SFURoom.validateAndConsumeToken
  rw [htokens]
  cases room.inviteTokens.lookup token with
  | none => rfl
  | some it =>
    simp only [Option.map_some, InviteToken.isSpent_unsigned, InviteToken.used_unsigned]
    split
    · rfl
    · split <;> simp only [SFURoom.unsigned, SFURoom.withTokens, mapValues_insert, mapValues_erase]

theorem unsigned_generate (token p q : String) (maxUses : Nat) :
    (room.unsigned.generateInviteToken token p maxUses).unsigned = (room.generateInviteToken token q maxUses).unsigned := by
  unfold SFURoom.generateInviteToken SFURoom.unsigned SFURoom.withTokens
  simp only [mapValues_insert, mapValues_mapValues]
  rfl

theorem unsigned_reregister (room : SFURoom S) (token p q : String) :
    (room.unsigned.reregisterInviteToken token p).1.unsigned = (room.reregisterInviteToken token q).1.unsigned ∧
      (room.unsigned.reregisterInviteToken token p).2 = (room.reregisterInviteToken token q).2 := by
  unfold SFURoom.reregisterInviteToken
  split
  · exact ⟨room.unsigned_idem, rfl⟩
  · refine ⟨?_, rfl⟩
    unfold SFURoom.unsigned SFURoom.withTokens
    simp only [mapValues_insert, mapValues_mapValues]
    rfl

/-- One room of a removal of a peer, with its tokens unsigned. -/
theorem unsigned_removePeerFromRoom (p : String) (now : Nat) (acc : SFURoomManager S × List (String × List String)) (id : String) :
    removePeerFromRoom p now (acc.1.unsigned, acc.2) id =
      ((removePeerFromRoom p now acc id).1.unsigned, (removePeerFromRoom p now acc id).2) := by
  unfold removePeerFromRoom
  simp only [lookup_unsigned]
  cases acc.1.rooms.lookup id with
  | none => rfl
  | some room =>
    have hempty : isAnonymousEmpty (room.removePeerEntirely p now).1.unsigned id =
        isAnonymousEmpty (room.removePeerEntirely p now).1 id := rfl
    have hids : (room.removePeerEntirely p now).1.unsigned.participantIds = (room.removePeerEntirely p now).1.participantIds := rfl
    simp only [Option.map_some, unsigned_removal, hempty, hids]
    by_cases hout : (room.removePeerEntirely p now).2 = true
    · by_cases hgone : isAnonymousEmpty (room.removePeerEntirely p now).1 id = true
      · simp only [hout, hgone, if_true, unsigned_erase]
      · simp only [hout, hgone, if_true, Bool.false_eq_true, if_false, unsigned_insert]
    · simp only [hout, Bool.false_eq_true, if_false, unsigned_insert]

theorem unsigned_foldl (p : String) (now : Nat) (ids : List String) (acc : SFURoomManager S × List (String × List String)) :
    ids.foldl (removePeerFromRoom p now) (acc.1.unsigned, acc.2) =
      ((ids.foldl (removePeerFromRoom p now) acc).1.unsigned, (ids.foldl (removePeerFromRoom p now) acc).2) := by
  induction ids generalizing acc with
  | nil => rfl
  | cons id ids ih =>
    rw [List.foldl_cons, List.foldl_cons, unsigned_removePeerFromRoom]
    exact ih _

theorem unsigned_removeEndpoint (p : String) (device : Option DeviceId) (now : Nat) :
    removeEndpointFromRoom p device now room.unsigned = (removeEndpointFromRoom p device now room).unsigned := by
  have hdev : room.unsigned.deviceMembers = room.deviceMembers := rfl
  unfold removeEndpointFromRoom
  rw [hdev, unsigned_membership]
  split <;> rfl

theorem unsigned_gc (mgr : SFURoomManager S) (now idleSecs : Nat) :
    (mgr.gcIdleRooms now idleSecs).unsigned = mgr.unsigned.gcIdleRooms now idleSecs := by
  unfold gcIdleRooms SFURoomManager.unsigned
  congr 1
  exact mapValues_retain _ _ fun _ _ => rfl

/-- The ids of the rooms a filter keeps that does not see the tokens. -/
theorem filter_unsigned (mgr : SFURoomManager S) (f : SFURoom S → Bool) (h : ∀ room, f room.unsigned = f room) :
    ((mgr.unsigned.rooms.entries.filter fun e => f e.2).map Sigma.fst) =
      ((mgr.rooms.entries.filter fun e => f e.2).map Sigma.fst) := by
  have hentries : mgr.unsigned.rooms.entries = mgr.rooms.entries.map fun e => ⟨e.1, e.2.unsigned⟩ := rfl
  rw [hentries, List.filter_map, List.map_map]
  have hkeep : ((fun e : (_ : String) × SFURoom S => f e.2) ∘ fun e : (_ : String) × SFURoom S => ⟨e.1, e.2.unsigned⟩) =
      fun e => f e.2 := by
    funext e
    exact h e.2
  rw [hkeep]
  rfl

end RoomSpellingAux

open RoomSpellingAux

/-- An operation does not see who made the tokens. -/
theorem roomOp_unsigned (sha256 : List UInt8 → List UInt8) (mgr : SFURoomManager S) (now : Nat) (p : String) (op : RoomOp) :
    Alike (roomOp sha256 mgr.unsigned now p op) (roomOp sha256 mgr now p op) := by
  cases op with
  | create roomId roomName roomType invitePolicy =>
    simp only [roomOp, createRoomWithPolicy, lookup_unsigned, Option.isSome_map]
    split
    · exact ⟨mgr.unsigned_idem, rfl⟩
    · exact ⟨unsigned_insert_eq rfl, rfl⟩
  | allow roomId =>
    simp only [roomOp, SFURoomManager.allowPeer, lookup_unsigned]
    cases mgr.rooms.lookup roomId with
    | none => exact ⟨mgr.unsigned_idem, rfl⟩
    | some room => exact ⟨unsigned_insert_eq (room.allowPeer p).unsigned_idem, rfl⟩
  | adopt roomId =>
    simp only [roomOp, adoptCreatorIfEmpty, lookup_unsigned]
    split
    · exact ⟨mgr.unsigned_idem, rfl⟩
    · cases mgr.rooms.lookup roomId with
      | none => exact ⟨mgr.unsigned_idem, rfl⟩
      | some room =>
        have hcreator : room.unsigned.creatorId = room.creatorId := rfl
        simp only [Option.map_some, hcreator]
        split
        · exact ⟨unsigned_insert_eq ({ room with creatorId := p } : SFURoom S).unsigned_idem, rfl⟩
        · exact ⟨mgr.unsigned_idem, rfl⟩
  | mint roomId token =>
    simp only [roomOp, SFURoomManager.generateInviteToken, lookup_unsigned]
    cases mgr.rooms.lookup roomId with
    | none => exact ⟨mgr.unsigned_idem, rfl⟩
    | some room => exact ⟨unsigned_insert_eq (unsigned_generate token p p 1), rfl⟩
  | mintChecked roomId token =>
    simp only [roomOp, generateInviteTokenChecked, lookup_unsigned]
    cases mgr.rooms.lookup roomId with
    | none => exact ⟨mgr.unsigned_idem, rfl⟩
    | some room =>
      have hcreator : room.unsigned.creatorId = room.creatorId := rfl
      have hmay : mayMint room.unsigned p = mayMint room p := rfl
      simp only [Option.map_some, hcreator, hmay]
      split
      · exact ⟨mgr.unsigned_idem, rfl⟩
      · split
        · exact ⟨mgr.unsigned_idem, rfl⟩
        · exact ⟨unsigned_insert_eq (unsigned_generate token p p 1), rfl⟩
  | reregister roomId token =>
    simp only [roomOp, SFURoomManager.reregisterInviteToken, lookup_unsigned]
    cases mgr.rooms.lookup roomId with
    | none => exact ⟨mgr.unsigned_idem, rfl⟩
    | some room =>
      obtain ⟨hroom, hflag⟩ := unsigned_reregister room token p p
      exact ⟨unsigned_insert_eq hroom, congrArg Answer.flag hflag⟩
  | validate roomId token =>
    simp only [roomOp, validateRoomInvite, lookup_unsigned]
    cases mgr.rooms.lookup roomId with
    | none => exact ⟨mgr.unsigned_idem, rfl⟩
    | some room =>
      simp only [Option.map_some, unsigned_validate]
      exact ⟨unsigned_insert_eq (SFURoom.unsigned_idem _), rfl⟩
  | join device roomId =>
    simp only [roomOp, joinRoomEndpoint, lookup_unsigned]
    cases mgr.rooms.lookup roomId with
    | none => exact ⟨mgr.unsigned_idem, rfl⟩
    | some room =>
      simp only [Option.map_some, SFURoom.isPeerAllowed_unsigned, unsigned_membership]
      split
      · exact ⟨mgr.unsigned_idem, rfl⟩
      · exact ⟨unsigned_insert_eq (SFURoom.unsigned_idem _), rfl⟩
  | leave device roomId =>
    simp only [roomOp, leaveRoomEndpoint, lookup_unsigned]
    cases mgr.rooms.lookup roomId with
    | none => exact ⟨mgr.unsigned_idem, rfl⟩
    | some room =>
      simp only [Option.map_some, unsigned_membership, unsigned_markUnused]
      refine ⟨?_, rfl⟩
      have hempty : ∀ room : SFURoom S, isAnonymousEmpty room.unsigned roomId = isAnonymousEmpty room roomId := fun _ => rfl
      rw [hempty]
      split
      · rw [unsigned_erase, unsigned_erase, mgr.unsigned_idem]
      · exact unsigned_insert_eq (SFURoom.unsigned_idem _)
  | subscribe device roomId =>
    simp only [roomOp, subscribeEndpoint, lookup_unsigned]
    cases mgr.rooms.lookup roomId with
    | none => exact ⟨mgr.unsigned_idem, rfl⟩
    | some room =>
      simp only [Option.map_some, SFURoom.isPeerAllowed_unsigned, unsigned_membership]
      split
      · exact ⟨unsigned_insert_eq (SFURoom.unsigned_idem _), rfl⟩
      · exact ⟨mgr.unsigned_idem, rfl⟩
  | unsubscribe device roomId =>
    simp only [roomOp, unsubscribeEndpoint, lookup_unsigned]
    cases mgr.rooms.lookup roomId with
    | none => exact ⟨mgr.unsigned_idem, rfl⟩
    | some room =>
      simp only [Option.map_some, unsigned_membership]
      exact ⟨unsigned_insert_eq (SFURoom.unsigned_idem _), rfl⟩
  | removeEndpoint device =>
    simp only [roomOp, removeEndpointFromAll]
    refine ⟨?_, ?_⟩
    · simp only [SFURoomManager.unsigned, mapValues_mapValues, unsigned_removeEndpoint, SFURoom.unsigned_idem]
    · rw [filter_unsigned mgr (fun room => (room.deviceMembers.lookup (normalizePeerId p, device)).isSome) fun _ => rfl]
  | removePeer =>
    simp only [roomOp, removePeerFromAll]
    rw [filter_unsigned mgr (fun room => (room.participants.lookup (normalizePeerId p)).isSome ||
      decide (normalizePeerId p ∈ room.subscribers)) fun _ => rfl]
    rw [unsigned_foldl (normalizePeerId p) now _ (mgr, [])]
    exact ⟨SFURoomManager.unsigned_idem _, rfl⟩
  | gc idleSecs =>
    refine ⟨?_, rfl⟩
    simp only [roomOp]
    rw [unsigned_gc, unsigned_gc, mgr.unsigned_idem]
  | chatSender roomId =>
    refine ⟨mgr.unsigned_idem, ?_⟩
    simp only [roomOp, isChatSender, lookup_unsigned]
    cases mgr.rooms.lookup roomId <;> rfl
  | peerAllowed roomId =>
    refine ⟨mgr.unsigned_idem, ?_⟩
    simp only [roomOp, SFURoomManager.isPeerAllowed, lookup_unsigned]
    cases mgr.rooms.lookup roomId <;> rfl
  | inVoice device roomId =>
    refine ⟨mgr.unsigned_idem, ?_⟩
    simp only [roomOp, isEndpointInVoice, lookup_unsigned]
    cases mgr.rooms.lookup roomId <;> rfl

/-! ## Operations under another spelling -/

/-- Where the rooms read how a peer is spelled, it is spelled alike, or nothing comes of it: a room without an id of its own is
named after its creator, a room without an owner takes the owner as given, and its owner asks for a token as given. -/
def SpellingUnread (sha256 : List UInt8 → List UInt8) (mgr : SFURoomManager S) (op : RoomOp) (p q : String) : Prop :=
  p = q ∨
    match op with
    | .create roomId roomName _ _ =>
      roomId.isSome = true ∨ deriveRoomId sha256 p roomName = deriveRoomId sha256 q roomName ∨
        (mgr.rooms.lookup (deriveRoomId sha256 p roomName)).isSome = true ∧
          (mgr.rooms.lookup (deriveRoomId sha256 q roomName)).isSome = true
    | .adopt roomId => ∀ room, mgr.rooms.lookup roomId = some room → room.creatorId ≠ ""
    | .mintChecked roomId _ => ∀ room, mgr.rooms.lookup roomId = some room →
        (room.creatorId ≠ p ∧ room.creatorId ≠ q) ∨ (room.invitePolicy = "members" ∧ room.isInviteEligibleMember p = true)
    | _ => True

namespace RoomSpellingAux

variable {mgr : SFURoomManager S} {room : SFURoom S} {p q : String}

theorem membership_spelled (h : normalizePeerId p = normalizePeerId q) (device : Option DeviceId) (voice chat : Option Bool)
    (now : Nat) : room.setDeviceMembership p device voice chat now = room.setDeviceMembership q device voice chat now := by
  unfold SFURoom.setDeviceMembership
  rw [h]

theorem isPeerAllowed_spelled (h : normalizePeerId p = normalizePeerId q) : room.isPeerAllowed p = room.isPeerAllowed q := by
  unfold SFURoom.isPeerAllowed
  rw [h]

theorem isInviteEligibleMember_spelled (h : normalizePeerId p = normalizePeerId q) :
    room.isInviteEligibleMember p = room.isInviteEligibleMember q := by
  unfold SFURoom.isInviteEligibleMember
  rw [h]

theorem create_spelled (h : normalizePeerId p = normalizePeerId q) (id roomName : String) (roomType : RoomType)
    (invitePolicy : String) (now : Nat) :
    mgr.createRoomWithPolicy id roomName roomType p invitePolicy now =
      mgr.createRoomWithPolicy id roomName roomType q invitePolicy now := by
  unfold createRoomWithPolicy SFURoom.new
  rw [h]

theorem join_spelled (h : normalizePeerId p = normalizePeerId q) (device : Option DeviceId) (roomId : String) (now : Nat) :
    mgr.joinRoomEndpoint p device roomId now = mgr.joinRoomEndpoint q device roomId now := by
  unfold joinRoomEndpoint
  rw [h]

theorem removeEndpoint_spelled (h : normalizePeerId p = normalizePeerId q) (device : Option DeviceId) (now : Nat) :
    mgr.removeEndpointFromAll p device now = mgr.removeEndpointFromAll q device now := by
  unfold removeEndpointFromAll
  rw [h]

theorem removePeer_spelled (h : normalizePeerId p = normalizePeerId q) (now : Nat) :
    mgr.removePeerFromAll p now = mgr.removePeerFromAll q now := by
  unfold removePeerFromAll
  rw [h]

theorem chatSender_spelled (h : normalizePeerId p = normalizePeerId q) (roomId : String) :
    mgr.isChatSender roomId p = mgr.isChatSender roomId q := by
  unfold isChatSender
  rw [h]

theorem inVoice_spelled (h : normalizePeerId p = normalizePeerId q) (device : Option DeviceId) (roomId : String) :
    mgr.isEndpointInVoice p device roomId = mgr.isEndpointInVoice q device roomId := by
  unfold isEndpointInVoice
  rw [h]

/-- Who mints is the same, unless its spelling is that of the room's owner in one run only. -/
theorem mayMint_spelled (h : normalizePeerId p = normalizePeerId q)
    (hroom : (room.creatorId ≠ p ∧ room.creatorId ≠ q) ∨
      (room.invitePolicy = "members" ∧ room.isInviteEligibleMember p = true)) : mayMint room p = mayMint room q := by
  unfold mayMint
  rw [isInviteEligibleMember_spelled h] at hroom ⊢
  rcases hroom with ⟨hp, hq⟩ | ⟨hpolicy, hmember⟩
  · simp only [hp, hq]
  · simp only [hpolicy, hmember, decide_true, Bool.and_true, Bool.or_true]

end RoomSpellingAux

/-- **One operation, two spellings.** Where the spelling is not read, its outcome is the same but for who made the tokens. -/
theorem roomOp_spelled (sha256 : List UInt8 → List UInt8) (mgr : SFURoomManager S) (now : Nat) {p q : String} (op : RoomOp)
    (hkey : SameKey p q) (hunread : SpellingUnread sha256 mgr op p q) :
    Alike (roomOp sha256 mgr now p op) (roomOp sha256 mgr now q op) := by
  have hnorm := hkey.normalize
  rcases hunread with rfl | hunread
  · exact ⟨rfl, rfl⟩
  cases op with
  | create roomId roomName roomType invitePolicy =>
    simp only [roomOp, create_spelled hnorm]
    cases roomId with
    | some id => exact ⟨rfl, rfl⟩
    | none =>
      simp only [resolvedId, Option.getD_none]
      rcases hunread with hgiven | hsame | ⟨hp, hq⟩
      · cases hgiven
      · rw [hsame]
        exact ⟨rfl, rfl⟩
      · simp only [createRoomWithPolicy, hp, hq, if_true]
        exact ⟨rfl, rfl⟩
  | allow roomId =>
    simp only [roomOp, SFURoomManager.allowPeer, SFURoom.allowPeer, hnorm]
    exact ⟨rfl, rfl⟩
  | adopt roomId =>
    have hkept : ∀ r : String, mgr.adoptCreatorIfEmpty roomId r = (mgr, false) := by
      intro r
      unfold adoptCreatorIfEmpty
      split
      · rfl
      · cases hroom : mgr.rooms.lookup roomId with
        | none => rfl
        | some room => exact if_neg (hunread room hroom)
    simp only [roomOp, hkept]
    exact ⟨rfl, rfl⟩
  | mint roomId token =>
    simp only [roomOp, SFURoomManager.generateInviteToken]
    cases mgr.rooms.lookup roomId with
    | none => exact ⟨rfl, rfl⟩
    | some room =>
      refine ⟨?_, rfl⟩
      rw [unsigned_insert, unsigned_insert, ← unsigned_generate token p p 1, unsigned_generate token p q 1]
  | mintChecked roomId token =>
    simp only [roomOp, generateInviteTokenChecked]
    cases hroom : mgr.rooms.lookup roomId with
    | none => exact ⟨rfl, rfl⟩
    | some room =>
      simp only [mayMint_spelled hnorm (hunread room hroom)]
      split
      · exact ⟨rfl, rfl⟩
      · split
        · exact ⟨rfl, rfl⟩
        · refine ⟨?_, rfl⟩
          rw [unsigned_insert, unsigned_insert, ← unsigned_generate token p p 1, unsigned_generate token p q 1]
  | reregister roomId token =>
    simp only [roomOp, SFURoomManager.reregisterInviteToken]
    cases mgr.rooms.lookup roomId with
    | none => exact ⟨rfl, rfl⟩
    | some room =>
      obtain ⟨hp, hp'⟩ := unsigned_reregister room token p p
      obtain ⟨hq, hq'⟩ := unsigned_reregister room token p q
      refine ⟨?_, congrArg Answer.flag (hp'.symm.trans hq')⟩
      rw [unsigned_insert, unsigned_insert, ← hp, hq]
  | validate roomId token =>
    simp only [roomOp, validateRoomInvite, SFURoom.validateAndConsumeToken, hnorm]
    exact ⟨rfl, rfl⟩
  | join device roomId =>
    simp only [roomOp, join_spelled hnorm]
    exact ⟨rfl, rfl⟩
  | leave device roomId =>
    simp only [roomOp, leaveRoomEndpoint, membership_spelled hnorm]
    exact ⟨rfl, rfl⟩
  | subscribe device roomId =>
    simp only [roomOp, subscribeEndpoint, membership_spelled hnorm, isPeerAllowed_spelled hnorm]
    exact ⟨rfl, rfl⟩
  | unsubscribe device roomId =>
    simp only [roomOp, unsubscribeEndpoint, membership_spelled hnorm]
    exact ⟨rfl, rfl⟩
  | removeEndpoint device =>
    simp only [roomOp, removeEndpoint_spelled hnorm]
    exact ⟨rfl, rfl⟩
  | removePeer =>
    simp only [roomOp, removePeer_spelled hnorm]
    exact ⟨rfl, rfl⟩
  | gc idleSecs => exact ⟨rfl, rfl⟩
  | chatSender roomId =>
    simp only [roomOp, chatSender_spelled hnorm]
    exact ⟨rfl, rfl⟩
  | peerAllowed roomId =>
    simp only [roomOp, SFURoomManager.isPeerAllowed, isPeerAllowed_spelled hnorm]
    exact ⟨rfl, rfl⟩
  | inVoice device roomId =>
    simp only [roomOp, inVoice_spelled hnorm]
    exact ⟨rfl, rfl⟩

/-! ## Two runs -/

/-- An operation at a time, with the peer as it is spelled in one run and in the other. -/
structure Spelled where
  now : Nat
  op : RoomOp
  peer : String
  other : String

/-- The answers to a list of operations, each for the spelling it reads. -/
def answers (sha256 : List UInt8 → List UInt8) (spelling : Spelled → String) (mgr : SFURoomManager S) : List Spelled → List Answer
  | [] => []
  | s :: steps =>
    let out := roomOp sha256 mgr s.now (spelling s) s.op
    out.2 :: answers sha256 spelling out.1 steps

/-- The rooms after an operation of the first run. -/
def spelledStep (sha256 : List UInt8 → List UInt8) (mgr : SFURoomManager S) (s : Spelled) : Option (SFURoomManager S) :=
  some (roomOp sha256 mgr s.now s.peer s.op).1

/-- The other run may stand in rooms that differ in who made the tokens. -/
theorem answers_alike (sha256 : List UInt8 → List UInt8) {mgr mgr' : SFURoomManager S} {steps : List Spelled}
    (hstart : mgr.unsigned = mgr'.unsigned) (hkeys : ∀ s ∈ steps, SameKey s.peer s.other)
    (hunread : Meets (spelledStep sha256) (fun mgr s => SpellingUnread sha256 mgr s.op s.peer s.other) mgr steps) :
    answers sha256 Spelled.peer mgr steps = answers sha256 Spelled.other mgr' steps := by
  induction steps generalizing mgr mgr' with
  | nil => rfl
  | cons s steps ih =>
    obtain ⟨hs, hrest⟩ := hunread
    have hrooms := roomOp_unsigned sha256 mgr' s.now s.other s.op
    rw [← hstart] at hrooms
    have hspelled := roomOp_spelled sha256 mgr s.now s.op (hkeys s (by simp)) hs
    have hboth := hspelled.trans ((roomOp_unsigned sha256 mgr s.now s.other s.op).symm.trans hrooms)
    have htail := ih hboth.1 (fun s' hs' => hkeys s' (by simp [hs'])) (hrest _ rfl)
    simp only [answers, hboth.2, htail]

/-- **Padding is not read.** Whatever the rooms, operations and spellings: two runs whose peers are spelled with or without their
padding get the same answers, when no operation reads a spelling that differs. -/
theorem answers_spelling_free (sha256 : List UInt8 → List UInt8) (mgr : SFURoomManager S) (steps : List Spelled)
    (hkeys : ∀ s ∈ steps, SameKey s.peer s.other)
    (hunread : Meets (spelledStep sha256) (fun mgr s => SpellingUnread sha256 mgr s.op s.peer s.other) mgr steps) :
    answers sha256 Spelled.peer mgr steps = answers sha256 Spelled.other mgr steps :=
  answers_alike sha256 rfl hkeys hunread

namespace RoomSpellingAux

/-- The rooms a node starts with. -/
def newNode : SFURoomManager Unit := SFURoomManager.new

/-- A key of 32 bytes. -/
def zeroKey : List UInt8 := List.replicate 32 0

/-- The owner with the padding in one run and without it in the other. -/
def padsOwner (now : Nat) (op : RoomOp) : Spelled := ⟨now, op, b64urlEncodePadded zeroKey, b64urlEncode zeroKey⟩

theorem sameKey_zeroKey : SameKey (b64urlEncodePadded zeroKey) (b64urlEncode zeroKey) :=
  Or.inr ⟨zeroKey, rfl, Or.inr rfl, Or.inl rfl⟩

/-- A private room whose owner joins it. -/
def ownerJoins : List Spelled :=
  [padsOwner 1 (.create (some "r") "Room" .priv "owner"), padsOwner 2 (.join none "r"), padsOwner 3 (.inVoice none "r")]

theorem sameKey_ownerJoins : ∀ s ∈ ownerJoins, SameKey s.peer s.other := by
  intro s hs
  simp only [ownerJoins, List.mem_cons, List.not_mem_nil, or_false] at hs
  rcases hs with rfl | rfl | rfl <;> exact sameKey_zeroKey

theorem unread_ownerJoins :
    Meets (spelledStep id) (fun mgr s => SpellingUnread id mgr s.op s.peer s.other) newNode
      ownerJoins := by
  refine ⟨Or.inr (Or.inl rfl), ?_⟩
  intro mgr _
  refine ⟨Or.inr trivial, ?_⟩
  intro mgr _
  exact ⟨Or.inr trivial, fun _ _ => trivial⟩

end RoomSpellingAux

/-- The owner of a private room joins it under either spelling. -/
theorem answers_spelling_free_owner :
    answers id Spelled.peer newNode ownerJoins =
        answers id Spelled.other newNode ownerJoins ∧
      answers id Spelled.peer newNode ownerJoins =
        [.flag true, .joined true [b64urlEncodePadded zeroKey], .flag true] :=
  ⟨answers_spelling_free id newNode ownerJoins sameKey_ownerJoins unread_ownerJoins, by decide +kernel⟩

/-- The owner of a private room gets no token for it without the padding. -/
theorem answers_read_spelling :
    ¬∀ steps : List Spelled, (∀ s ∈ steps, SameKey s.peer s.other) →
      answers id Spelled.peer newNode steps =
        answers id Spelled.other newNode steps := by
  intro h
  have hrun := h [padsOwner 1 (.create (some "r") "Room" .priv "owner"), padsOwner 2 (.mintChecked "r" "t")] (by
    intro s hs
    simp only [List.mem_cons, List.not_mem_nil, or_false] at hs
    rcases hs with rfl | rfl <;> exact sameKey_zeroKey)
  revert hrun
  decide +kernel

end DoubleSlash.Sfu
