import DoubleSlash.Lemmas.RoomHandlers

/-!
# Naming a room that exists

What `SfuRoomCreate` does to a private room that is already there, when somebody other than its creator sends it without a token:
it is to leave the room as it is.
-/

namespace DoubleSlash.Supernode

open Assoc Protocol Sfu Text

variable {S D : Type} (P : Primitives D)

/-- The message leaves the access to a room as it is, and no answer carries a token. -/
structure AdmitsNobody (st : SupernodeState S) (msg : SignalingMessage) (now : Nat) (drawn : String) (id : String)
    (room : SFURoom S) : Prop where
  access : ∃ sfu room', (handleSfuRoomCreate P st msg now drawn).1.sfu = some sfu ∧ sfu.rooms.lookup id = some room' ∧
    SameAccess room room'
  replies : ∀ reply ∈ (handleSfuRoomCreate P st msg now drawn).2, (reply.payload.get "invite_token").bind Json.asStr = none

namespace RoomRematerializeAux

variable {P} {st : SupernodeState S} {sfu : SFURoomManager S} {msg : SignalingMessage} {now : Nat} {drawn id : String}
  {room : SFURoom S}

/-- The handler on a room that is there: only the admission to a private room is left of it. -/
theorem handle_existing (hsfu : st.sfu = some sfu) (hroom : sfu.rooms.lookup id = some room) (hid : createdId P msg = id)
    (now : Nat) (drawn : String) :
    handleSfuRoomCreate P st msg now drawn =
      let admitted := if claimedType msg = .priv then admitToPrivate sfu msg id room.creatorId false drawn else (sfu, none)
      ({ st with sfu := some admitted.1 }, [⟨msg.sender, .sfuRoomCreated,
        [("room_id", .str id), ("room_name", .str room.roomName), ("room_type", roomTypeToJson (claimedType msg)),
          ("invite_token", optionToJson admitted.2)]⟩]) := by
  subst hid
  unfold handleSfuRoomCreate roomCreator
  simp only [hsfu, create_existing hroom, hroom, Option.isNone_some, Bool.false_eq_true, false_and, if_false,
    Option.map_some, Option.getD_some]

/-- Without a token, only who claims to be the creator is admitted to a room that is there. -/
theorem admit_existing (hroom : sfu.rooms.lookup id = some room) (hsender : msg.sender ≠ room.creatorId)
    (htoken : inviteTokenOf msg.payload = none) :
    admitToPrivate sfu msg id room.creatorId false drawn =
      (if msg.sender = claimedCreator msg then ⟨sfu.rooms.insert id (room.allowPeer msg.sender)⟩ else sfu, none) := by
  unfold admitToPrivate SFURoomManager.allowPeer
  simp only [htoken, Option.map_none, hroom, hsender, decide_false, Bool.false_or, Bool.or_false, decide_eq_true_eq,
    Bool.false_eq_true, if_false]
  split <;> rfl

theorem allowed_allowPeer : (room.allowPeer msg.sender).allowed = room.allowed ↔ normalizePeerId msg.sender ∈ room.allowed := by
  unfold SFURoom.allowPeer
  exact Finset.insert_eq_self

end RoomRematerializeAux

open RoomRematerializeAux

/-- **When naming a room admits nobody.** For every state, every room that is there, private or not, and every create that names
it, by somebody other than the creator on record and without a token. -/
theorem admitsNobody_iff (st : SupernodeState S) (sfu : SFURoomManager S) (msg : SignalingMessage) (now : Nat) (drawn id : String)
    (room : SFURoom S) (hsfu : st.sfu = some sfu) (hroom : sfu.rooms.lookup id = some room) (hid : createdId P msg = id)
    (hsender : trimEndMatches '=' msg.sender ≠ trimEndMatches '=' room.creatorId) (htoken : inviteTokenOf msg.payload = none) :
    AdmitsNobody P st msg now drawn id room ↔
      claimedType msg = .pub ∨ normalizePeerId msg.sender ∈ room.allowed ∨ claimedCreator msg ≠ msg.sender := by
  have hne : msg.sender ≠ room.creatorId := fun h => hsender (by rw [h])
  have hhandle := handle_existing hsfu hroom hid now drawn
  rw [admit_existing hroom hne htoken] at hhandle
  have hreplies : ∀ reply ∈ (handleSfuRoomCreate P st msg now drawn).2, (reply.payload.get "invite_token").bind Json.asStr = none := by
    intro reply hreply
    rw [hhandle] at hreply
    obtain rfl := List.mem_singleton.mp hreply
    split <;> rfl
  constructor
  · intro h
    obtain ⟨sfu', room', hsfu', hroom', hsame⟩ := h.access
    rw [hhandle] at hsfu'
    by_cases htype : claimedType msg = .priv
    · by_cases hclaim : msg.sender = claimedCreator msg
      · have hrooms : sfu' = ⟨sfu.rooms.insert id (room.allowPeer msg.sender)⟩ := by
          simpa [htype, hclaim.symm] using hsfu'.symm
        rw [hrooms] at hroom'
        have hnew : room' = room.allowPeer msg.sender := (Option.some.inj ((AList.lookup_insert _).symm.trans hroom')).symm
        have hallowed := hsame.allowed
        rw [hnew] at hallowed
        exact Or.inr (Or.inl (allowed_allowPeer.mp hallowed))
      · exact Or.inr (Or.inr fun h => hclaim h.symm)
    · left
      cases hct : claimedType msg with
      | pub => rfl
      | priv => exact absurd hct htype
  · intro h
    refine ⟨?_, hreplies⟩
    rw [hhandle]
    rcases h with htype | hallowed | hclaim
    · exact ⟨sfu, room, by simp [htype], hroom, rfl, rfl, rfl, rfl, rfl⟩
    · by_cases hadmitted : claimedType msg = .priv ∧ msg.sender = claimedCreator msg
      · refine ⟨⟨sfu.rooms.insert id (room.allowPeer msg.sender)⟩, room.allowPeer msg.sender, ?_, AList.lookup_insert _,
          allowed_allowPeer.mpr hallowed, rfl, rfl, rfl, rfl⟩
        simp [hadmitted.1, ← hadmitted.2]
      · refine ⟨sfu, room, ?_, hroom, rfl, rfl, rfl, rfl, rfl⟩
        by_cases htype : claimedType msg = .priv
        · have hclaim : msg.sender ≠ claimedCreator msg := fun h => hadmitted ⟨htype, h⟩
          simp [htype, hclaim]
        · simp [htype]
    · refine ⟨sfu, room, ?_, hroom, rfl, rfl, rfl, rfl, rfl⟩
      by_cases htype : claimedType msg = .priv
      · simp [htype, Ne.symm hclaim]
      · simp [htype]

namespace RoomRematerializeAux

/-- A digest that is the message, and no signature that verifies. -/
def plainPrimitives : Primitives (List UInt8) where
  hashing := Spaces.Hashing.plain
  ed25519Verify := fun _ _ _ => false

/-- The owner of a room and somebody else. -/
def roomOwner : String := Codec.b64urlEncodePadded (List.replicate 32 1)

def passerBy : String := Codec.b64urlEncodePadded (List.replicate 32 2)

/-- The rooms of a node on which the owner made a private room. -/
def ownedRooms : SFURoomManager Unit := (SFURoomManager.new.createRoomWithPolicy "r" "Room" .priv roomOwner "owner" 1).1

def ownedRoom : SFURoom Unit :=
  ({ SFURoom.new "r" "Room" .priv roomOwner with invitePolicy := "owner" } : SFURoom Unit).markUnusedIfEmpty 1

def ownedNode : SupernodeState Unit := ⟨some ownedRooms, ⟨false, true⟩, SpaceRootStore.empty⟩

theorem lookup_ownedRooms : ownedRooms.rooms.lookup "r" = some ownedRoom := AList.lookup_insert _

/-- A create by the passer-by that names the room. -/
def namesRoom (fields : Payload) : SignalingMessage :=
  { SignalingMessage.new .sfuRoomCreate passerBy 5 with
    payload := [("room_id", .str "r"), ("room_type", .str "private")] ++ fields }

theorem claims_namesRoom : claimedType (namesRoom []) = .priv ∧ claimedCreator (namesRoom []) = (namesRoom []).sender := ⟨rfl, rfl⟩

theorem stranger_to_ownedRoom : (namesRoom []).sender ≠ ownedRoom.creatorId ∧ normalizePeerId (namesRoom []).sender ∉ ownedRoom.allowed := by
  decide +kernel

theorem private_ownedRoom : ownedRoom.roomType = .priv ∧ ownedRoom.creatorId ≠ "" := by
  decide +kernel

theorem createdId_namesRoom (fields : Payload) : createdId plainPrimitives (namesRoom fields) = "r" := rfl

theorem tokenless_namesRoom : inviteTokenOf (namesRoom []).payload = none := rfl

/-- The create claims the room for its owner. -/
def forOwner : SignalingMessage := namesRoom [("creator_id", .str roomOwner)]

theorem tokenless_forOwner : inviteTokenOf forOwner.payload = none := rfl

theorem claims_forOwner : claimedType forOwner = .priv ∧ claimedCreator forOwner ≠ forOwner.sender := by
  decide +kernel

theorem ne_owner : trimEndMatches '=' passerBy ≠ trimEndMatches '=' ownedRoom.creatorId := by
  decide +kernel

end RoomRematerializeAux

/-- A create that claims the room for its owner admits nobody. -/
theorem admitsNobody_iff_claimed :
    claimedType forOwner = .priv ∧ AdmitsNobody plainPrimitives ownedNode forOwner 5 "t" "r" ownedRoom :=
  ⟨claims_forOwner.1,
    (admitsNobody_iff plainPrimitives ownedNode ownedRooms forOwner 5 "t" "r" ownedRoom rfl lookup_ownedRooms
      (createdId_namesRoom _) ne_owner tokenless_forOwner).mpr (Or.inr (Or.inr claims_forOwner.2))⟩

/-- A create that only names the room admits its sender. -/
theorem admitsNobody_fails_bare :
    ¬∀ (st : SupernodeState Unit) (sfu : SFURoomManager Unit) (msg : SignalingMessage) (now : Nat) (drawn id : String)
      (room : SFURoom Unit), st.sfu = some sfu → sfu.rooms.lookup id = some room → room.roomType = .priv →
      room.creatorId ≠ "" → createdId plainPrimitives msg = id →
      trimEndMatches '=' msg.sender ≠ trimEndMatches '=' room.creatorId → inviteTokenOf msg.payload = none →
      AdmitsNobody plainPrimitives st msg now drawn id room := by
  intro h
  obtain ⟨hpriv, hcreator⟩ := private_ownedRoom
  have hbare := h ownedNode ownedRooms (namesRoom []) 5 "t" "r" ownedRoom rfl lookup_ownedRooms hpriv hcreator
    (createdId_namesRoom _) ne_owner tokenless_namesRoom
  obtain ⟨sfu, room, hsfu, hroom, hsame⟩ := hbare.access
  obtain ⟨htype, hclaim⟩ := claims_namesRoom
  obtain ⟨hne, hout⟩ := stranger_to_ownedRoom
  have hnode : ownedNode.sfu = some ownedRooms := rfl
  rw [handle_existing hnode lookup_ownedRooms (createdId_namesRoom _) 5 "t",
    admit_existing lookup_ownedRooms hne tokenless_namesRoom] at hsfu
  simp only [htype, hclaim, if_true, Option.some.injEq] at hsfu
  subst hsfu
  have hnew : room = ownedRoom.allowPeer (namesRoom []).sender := (Option.some.inj ((AList.lookup_insert _).symm.trans hroom)).symm
  have hallowed := hsame.allowed
  rw [hnew] at hallowed
  exact hout (allowed_allowPeer.mp hallowed)

end DoubleSlash.Supernode
