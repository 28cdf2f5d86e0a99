import DoubleSlash.Lib.Run
import DoubleSlash.Theorems.RoomRematerialize

/-!
# Invite tokens over the handlers

Every handler registers the token it is given before it asks for it: whoever presents a token to a room that is there is admitted
by it. A token is limited to one use only until then.
-/

namespace DoubleSlash.Supernode

open Assoc Protocol Run Sfu Text

variable {S D : Type} (P : Primitives D)

/-! ## What is said of a run -/

/-- The room a message may present a token to. -/
def presentedTo (msg : SignalingMessage) : Option String :=
  match msg.msgType with
  | .sfuRoomCreate => if claimedType msg = .priv then some (createdId P msg) else none
  | .sfuRoomInvite => some (msg.payload.strOr "room_id" "")
  | .sfuJoin => some (msg.payload.strOr "room_id" defaultRoomId)
  | _ => none

/-- A message presents a token to the room. -/
def Presents (ev : RoomEvent) (id t : String) : Prop :=
  match ev with
  | .message _ _ msg => inviteTokenOf msg.payload = some t ∧ presentedTo P msg = some id
  | .gc _ _ => False

/-- A message carries a token, to whatever room. -/
def Carries (ev : RoomEvent) : Prop :=
  match ev with
  | .message _ _ msg => (inviteTokenOf msg.payload).isSome = true
  | .gc _ _ => False

/-- Nobody sends a Space proof. -/
def Proofless (ev : RoomEvent) : Prop :=
  match ev with
  | .message _ _ msg => msg.payload.get "space_proof" = none
  | .gc _ _ => True

/-- The sender of an event, as the rooms name it. -/
def senderOf (ev : RoomEvent) : String :=
  match ev with
  | .message _ _ msg => normalizePeerId msg.sender
  | .gc _ _ => ""

/-- The token drawn with the event is minted for the room: a member asks for one, or a private room is made without one. -/
def Mints (st : SupernodeState S) (ev : RoomEvent) (id t : String) : Prop :=
  match ev with
  | .message _ drawn msg =>
    drawn = t ∧
      match msg.msgType with
      | .sfuRoomInviteGenerate => msg.payload.strOr "room_id" "" = id ∧
          ∃ sfu, st.sfu = some sfu ∧ (sfu.generateInviteTokenChecked id msg.sender drawn).2 = .ok t
      | .sfuRoomCreate => createdId P msg = id ∧ claimedType msg = .priv ∧ inviteTokenOf msg.payload = none ∧ st.roomAt id = none
      | _ => False
  | .gc _ _ => False

/-- The node after an event. -/
def roomStep (st : SupernodeState S) (ev : RoomEvent) : Option (SupernodeState S) := some (roomEvent P st ev).1

/-- Some event of the run, in the state before it. -/
def AtSome (start : SupernodeState S) (acts : List RoomEvent) (Q : SupernodeState S → RoomEvent → Prop) : Prop :=
  ∃ pre ev post st, acts = pre ++ ev :: post ∧ run (roomStep P) start pre = some st ∧ Q st ev

/-- A token was minted for the room and not presented to it since. -/
def MintedSince (start : SupernodeState S) (acts : List RoomEvent) (id t : String) : Prop :=
  ∃ pre ev post st, acts = pre ++ ev :: post ∧ run (roomStep P) start pre = some st ∧ Mints P st ev id t ∧
    ∀ ev' ∈ post, ¬Presents P ev' id t

/-- The message without its token. -/
def withoutToken (msg : SignalingMessage) : SignalingMessage :=
  { msg with payload := msg.payload.filter fun e => e.1 ≠ "invite_token" }

/-- The peer may enter the room. -/
def MayEnter (st : SupernodeState S) (id p : String) : Prop := ∃ room, st.roomAt id = some room ∧ room.isPeerAllowed p = true

/-- A message makes a peer that is not the creator on record allowed in a private room because it carries the token: the peer was
not allowed before, and without the token would not be. -/
structure AdmittedByToken (st : SupernodeState S) (now : Nat) (drawn : String) (msg : SignalingMessage) (id p t : String) : Prop where
  carried : inviteTokenOf msg.payload = some t
  before : ¬MayEnter st id p
  after : ∃ room, (roomEvent P st (.message now drawn msg)).1.roomAt id = some room ∧ room.isPeerAllowed p = true ∧
    room.roomType = .priv ∧ room.creatorId ≠ normalizePeerId p
  because : ¬MayEnter (roomEvent P st (.message now drawn (withoutToken msg))).1 id p

/-- What the handlers make of tokens, at the end of a run. -/
structure TokensAdmit (start : SupernodeState S) (acts : List RoomEvent) (st : SupernodeState S) : Prop where
  /-- A token with a limit was minted with one use, is unused and was presented to nobody since. -/
  limited : ∀ id room t it, st.roomAt id = some room → room.inviteTokens.lookup t = some it → it.maxUses ≠ 0 →
    it.maxUses = 1 ∧ it.uses = 0 ∧ MintedSince P start acts id t
  /-- Who becomes allowed by a token presented it, and so registered it, without a limit and in the name of the creator. -/
  admitted : ∀ now drawn msg id p t, Proofless (.message now drawn msg) → AdmittedByToken P st now drawn msg id p t →
    Presents P (.message now drawn msg) id t ∧ ∃ room, (roomEvent P st (.message now drawn msg)).1.roomAt id = some room ∧
      ∃ createdBy, room.inviteTokens.lookup t = some { createdBy := createdBy, uses := 0, maxUses := 0 } ∧
        (room.creatorId ≠ "" → createdBy = room.creatorId)
  /-- Whoever presents a token to a room that is there is allowed in it. -/
  anyone : ∀ now drawn msg id t, Proofless (.message now drawn msg) → Presents P (.message now drawn msg) id t →
    st.roomAt id ≠ none → ∃ room, (roomEvent P st (.message now drawn msg)).1.roomAt id = some room ∧
      normalizePeerId msg.sender ∈ room.allowed

/-- A node that has just started. -/
def startNode (policy : SfuRoomCreationPolicy) : SupernodeState S := ⟨some SFURoomManager.new, policy, SpaceRootStore.empty⟩

/-- The creator on record of the room presents the token, and so registers it again. -/
def CreatorRegisters (st : SupernodeState S) (ev : RoomEvent) (id t : String) : Prop :=
  Presents P ev id t ∧ ∃ room, st.roomAt id = some room ∧ room.creatorId ≠ "" ∧ senderOf ev = room.creatorId

/-- A peer is admitted by a token at some event of the run. -/
def AdmittedIn (start : SupernodeState S) (acts : List RoomEvent) (id p t : String) : Prop :=
  AtSome P start acts fun st ev => ∃ now drawn msg, ev = .message now drawn msg ∧ AdmittedByToken P st now drawn msg id p t

/-- Tokens as credentials: only one that was minted, or that the creator registered again, admits, and one that was minted for
one use admits one identity. -/
structure TokensAreCredentials (start : SupernodeState S) (acts : List RoomEvent) (st : SupernodeState S) : Prop where
  credential : ∀ now drawn msg id p t, Proofless (.message now drawn msg) → AdmittedByToken P st now drawn msg id p t →
    AtSome P start acts (fun st ev => Mints P st ev id t) ∨ AtSome P start acts (fun st ev => CreatorRegisters P st ev id t)
  single : ∀ id t p q, AtSome P start acts (fun st ev => Mints P st ev id t) →
    ¬AtSome P start acts (fun st ev => CreatorRegisters P st ev id t) → AdmittedIn P start acts id p t →
    AdmittedIn P start acts id q t → normalizePeerId p = normalizePeerId q

/-! ## What one event does -/

/-- The tokens a room has, none when it is not there. -/
def tokensAt (st : SupernodeState S) (id : String) : HashMap String InviteToken := ((st.roomAt id).map SFURoom.inviteTokens).getD ∅

/-- What may become of a room and its tokens. -/
inductive TokenOutcome (st : SupernodeState S) (ev : RoomEvent) (id : String) : Option (SFURoom S) → Prop where
  | absent (stays : st.roomAt id = none ∨ ∀ t, ¬Presents P ev id t) : TokenOutcome st ev id none
  | kept (room : SFURoom S) (tokens : room.inviteTokens = tokensAt st id) (notPresented : ∀ t, ¬Presents P ev id t)
      (same : Carries ev → room.roomType = .priv → st.roomAt id = some room) : TokenOutcome st ev id (some room)
  | presented (room : SFURoom S) (t createdBy : String) (presents : Presents P ev id t)
      (tokens : ∀ t', room.inviteTokens.lookup t' =
        if t' = t then some { createdBy := createdBy, uses := 0, maxUses := 0 } else (tokensAt st id).lookup t')
      (creator : room.creatorId ≠ "" → createdBy = room.creatorId) (admits : senderOf ev ∈ room.allowed) :
      TokenOutcome st ev id (some room)
  | minted (room : SFURoom S) (t createdBy : String) (mints : Mints P st ev id t)
      (tokens : ∀ t', room.inviteTokens.lookup t' =
        if t' = t then some { createdBy := createdBy, uses := 0, maxUses := 1 } else (tokensAt st id).lookup t')
      (notPresented : ∀ t, ¬Presents P ev id t)
      (same : Carries ev → ∃ before, st.roomAt id = some before ∧ ∀ p, room.isPeerAllowed p = before.isPeerAllowed p) :
      TokenOutcome st ev id (some room)

variable {P}

namespace InviteTokensAux

variable {st : SupernodeState S} {sfu : SFURoomManager S} {ev : RoomEvent} {msg : SignalingMessage} {now : Nat}
  {drawn id roomId t createdBy : String} {room : SFURoom S}

/-- A room the event does not concern stays as it is. -/
theorem outcome_same (st : SupernodeState S) (hnot : ∀ t, ¬Presents P ev id t) : TokenOutcome P st ev id (st.roomAt id) := by
  cases hroom : st.roomAt id with
  | none => exact TokenOutcome.absent (Or.inr hnot)
  | some room =>
    refine TokenOutcome.kept room ?_ hnot fun _ _ => hroom
    unfold tokensAt
    rw [hroom, Option.map_some, Option.getD_some]

theorem outcome_none (hroom : st.roomAt id = none) : TokenOutcome P st ev id none := TokenOutcome.absent (Or.inl hroom)

theorem inviteTokenOf_eq_some (payload : Payload) : inviteTokenOf payload = some t ↔ payload.strOr "invite_token" "" = t ∧ t ≠ "" := by
  unfold inviteTokenOf Payload.strOr
  cases (payload.get "invite_token").bind Json.asStr with
  | none =>
    simp only [Option.filter_none, Option.getD_none]
    constructor
    · intro h
      cases h
    · rintro ⟨rfl, hne⟩
      exact absurd rfl hne
  | some s =>
    simp only [Option.filter_eq_some_iff, Option.some.injEq, Option.getD_some, decide_eq_true_eq]

/-- The room with a token registered for it, without a limit. -/
def seeded (room : SFURoom S) (t createdBy : String) : SFURoom S :=
  { room with inviteTokens := room.inviteTokens.insert t { createdBy := createdBy, uses := 0, maxUses := 0 } }

theorem seeded_tokens (room : SFURoom S) (t' : String) : (seeded room t createdBy).inviteTokens.lookup t' =
    if t' = t then some { createdBy := createdBy, uses := 0, maxUses := 0 } else room.inviteTokens.lookup t' := by
  unfold seeded
  by_cases h : t' = t
  · subst h
    rw [if_pos rfl]
    exact AList.lookup_insert _
  · rw [if_neg h]
    exact AList.lookup_insert_ne h

theorem reregister_some (hroom : sfu.rooms.lookup roomId = some room) (ht : t ≠ "") :
    sfu.reregisterInviteToken roomId t createdBy = (⟨sfu.rooms.insert roomId (seeded room t createdBy)⟩, true) := by
  unfold SFURoomManager.reregisterInviteToken SFURoom.reregisterInviteToken
  rw [hroom]
  dsimp only
  rw [if_neg ht]
  rfl

theorem reregister_none (hroom : sfu.rooms.lookup roomId = none) : sfu.reregisterInviteToken roomId t createdBy = (sfu, false) := by
  unfold SFURoomManager.reregisterInviteToken
  rw [hroom]

theorem allow_some (hroom : sfu.rooms.lookup roomId = some room) (p : String) :
    (sfu.allowPeer roomId p).1 = ⟨sfu.rooms.insert roomId (room.allowPeer p)⟩ := by
  unfold SFURoomManager.allowPeer
  rw [hroom]

/-- A token without a limit admits and stays. -/
theorem validate_unlimited (hroom : sfu.rooms.lookup roomId = some room)
    (ht : room.inviteTokens.lookup t = some { createdBy := createdBy, uses := 0, maxUses := 0 }) (p : String) :
    ∃ room', (sfu.validateRoomInvite roomId t p).1 = ⟨sfu.rooms.insert roomId room'⟩ ∧
      (∀ t', room'.inviteTokens.lookup t' = room.inviteTokens.lookup t') ∧ room'.creatorId = room.creatorId ∧
      normalizePeerId p ∈ room'.allowed := by
  have hunused : ∀ it : InviteToken, it.maxUses = 0 → it.isSpent = false ∧ it.used = it := by
    intro it hmax
    unfold InviteToken.isSpent InviteToken.used
    simp only [hmax, lt_irrefl, decide_false, Bool.false_and, if_false, and_self]
  obtain ⟨hspent, hused⟩ := hunused { createdBy := createdBy, uses := 0, maxUses := 0 } rfl
  unfold SFURoomManager.validateRoomInvite SFURoom.validateAndConsumeToken
  rw [hroom]
  dsimp only
  rw [ht]
  simp only [hspent, hused, Bool.false_eq_true, if_false]
  refine ⟨_, rfl, ?_, rfl, Finset.mem_insert_self _ _⟩
  intro t'
  by_cases h : t' = t
  · subst h
    rw [ht]
    exact AList.lookup_insert _
  · exact AList.lookup_insert_ne h

theorem validate_none (hroom : sfu.rooms.lookup roomId = none) (p : String) : (sfu.validateRoomInvite roomId t p).1 = sfu := by
  unfold SFURoomManager.validateRoomInvite
  rw [hroom]

theorem tokensAt_some (hroom : st.roomAt id = some room) : tokensAt st id = room.inviteTokens := by
  unfold tokensAt
  rw [hroom, Option.map_some, Option.getD_some]

/-- The rooms after one room is replaced: that one or one it does not concern. -/
theorem outcome_insert {room' : SFURoom S} (hsfu : st.sfu = some sfu)
    (hother : id ≠ roomId → ∀ t, ¬Presents P ev id t) (hroom : TokenOutcome P st ev roomId (some room')) :
    TokenOutcome P st ev id ((⟨sfu.rooms.insert roomId room'⟩ : SFURoomManager S).rooms.lookup id) := by
  by_cases hid : id = roomId
  · subst hid
    rw [AList.lookup_insert]
    exact hroom
  · rw [AList.lookup_insert_ne hid, ← roomAt_eq hsfu id]
    exact outcome_same st (hother hid)

theorem outcome_keep (hsfu : st.sfu = some sfu) (hnot : (∀ t, ¬Presents P ev id t) ∨ st.roomAt id = none) :
    TokenOutcome P st ev id (sfu.rooms.lookup id) := by
  rw [← roomAt_eq hsfu id]
  rcases hnot with hnot | hnone
  · exact outcome_same st hnot
  · rw [hnone]
    exact outcome_none hnone

/-- A token presented to a room that is there: registered, and the presenter allowed. -/
theorem outcome_seeded {room' : SFURoom S} (hpresents : Presents P (.message now drawn msg) roomId t)
    (hroom : st.roomAt roomId = some room) (htokens : ∀ t', room'.inviteTokens.lookup t' = (seeded room t createdBy).inviteTokens.lookup t')
    (hcreator : room'.creatorId ≠ "" → createdBy = room'.creatorId) (hallowed : normalizePeerId msg.sender ∈ room'.allowed) :
    TokenOutcome P st (.message now drawn msg) roomId (some room') := by
  refine TokenOutcome.presented room' t createdBy hpresents ?_ hcreator hallowed
  intro t'
  rw [htokens, seeded_tokens, tokensAt_some hroom]

/-! ### One handler at a time -/

theorem trySpaceAdmission_proofless {payload : Payload} (h : payload.get "space_proof" = none) (sender : String) :
    trySpaceAdmission P st sender roomId payload now = (st, false) := by
  unfold trySpaceAdmission
  rw [h]
  rfl

/-- Under whose name a presented token is registered. -/
theorem createdBy_eq (creator other : String) : creator ≠ "" → (if creator = "" then other else creator) = creator := by
  intro h
  rw [if_neg h]

theorem reseed_none (hroom : sfu.rooms.lookup roomId = none) (sender token : String) :
    reseed sfu sender roomId token = (sfu, false) := reregister_none hroom

/-- A presented token is registered in the name of the room's creator when there is one. -/
theorem reseed_some (hroom : sfu.rooms.lookup roomId = some room) (sender : String) (ht : t ≠ "") :
    ∃ createdBy, (room.creatorId ≠ "" → createdBy = room.creatorId) ∧
      reseed sfu sender roomId t = (⟨sfu.rooms.insert roomId (seeded room t createdBy)⟩, true) := by
  have hcreator : roomCreator sfu roomId = room.creatorId := by
    unfold roomCreator
    rw [hroom]
    rfl
  refine ⟨if roomCreator sfu roomId = "" then sender else roomCreator sfu roomId, ?_, reregister_some hroom ht⟩
  rw [hcreator]
  exact createdBy_eq _ _

theorem outcome_invite (hsfu : st.sfu = some sfu) (hty : msg.msgType = .sfuRoomInvite)
    (hproof : msg.payload.get "space_proof" = none) :
    TokenOutcome P st (.message now drawn msg) id ((handleSfuRoomInvite P st msg now).1.roomAt id) := by
  have hpresents : ∀ id t, Presents P (.message now drawn msg) id t ↔
      (msg.payload.strOr "invite_token" "" = t ∧ t ≠ "") ∧ msg.payload.strOr "room_id" "" = id := by
    intro id t
    unfold Presents presentedTo
    simp only [hty, Option.some.injEq, inviteTokenOf_eq_some]
  have hrooms : (handleSfuRoomInvite P st msg now).1.roomAt id =
      (if msg.payload.strOr "invite_token" "" ≠ "" then
        ((reseed sfu msg.sender (msg.payload.strOr "room_id" "") (msg.payload.strOr "invite_token" "")).1.validateRoomInvite
          (msg.payload.strOr "room_id" "") (msg.payload.strOr "invite_token" "") msg.sender).1 else sfu).rooms.lookup id := by
    unfold handleSfuRoomInvite SupernodeState.roomAt
    simp only [hsfu, trySpaceAdmission_proofless hproof, Option.getD_some, true_and, Option.bind_some]
    split <;> rfl
  rw [hrooms]
  generalize hid : msg.payload.strOr "room_id" "" = roomId at hpresents ⊢
  generalize htoken : msg.payload.strOr "invite_token" "" = token at hpresents ⊢
  by_cases hempty : token = ""
  · rw [if_neg (not_not.mpr hempty)]
    refine outcome_keep hsfu (Or.inl ?_)
    intro t hp
    obtain ⟨⟨rfl, hne⟩, -⟩ := (hpresents id t).mp hp
    exact hne hempty
  · rw [if_pos hempty]
    have hother : id ≠ roomId → ∀ t, ¬Presents P (.message now drawn msg) id t := by
      intro hne t hp
      exact hne ((hpresents id t).mp hp).2.symm
    have hmine := (hpresents roomId token).mpr ⟨⟨rfl, hempty⟩, rfl⟩
    cases hroom : sfu.rooms.lookup roomId with
    | none =>
      rw [reseed_none hroom, validate_none hroom]
      by_cases hne : id = roomId
      · subst hne
        exact outcome_keep hsfu (Or.inr ((roomAt_eq hsfu id).trans hroom))
      · exact outcome_keep hsfu (Or.inl (hother hne))
    | some room =>
      obtain ⟨createdBy, hname, hseed⟩ := reseed_some hroom msg.sender hempty
      have hlook : (SFURoomManager.mk (sfu.rooms.insert roomId (seeded room token createdBy))).rooms.lookup roomId =
          some (seeded room token createdBy) := AList.lookup_insert _
      obtain ⟨room', hsfu', htokens, hcreator, hallowed⟩ := validate_unlimited hlook
        ((seeded_tokens room token).trans (if_pos rfl)) msg.sender
      rw [hseed, hsfu', AList.insert_insert]
      refine outcome_insert hsfu hother (outcome_seeded hmine ((roomAt_eq hsfu roomId).trans hroom) htokens ?_ hallowed)
      intro hne
      rw [hcreator] at hne ⊢
      exact hname hne

/-- The rooms of a join once the token that came with it is registered. -/
def seedJoin (sfu : SFURoomManager S) (msg : SignalingMessage) (roomId : String) : SFURoomManager S :=
  match inviteTokenOf msg.payload with
  | none => sfu
  | some token =>
    let seeded := reseed sfu msg.sender roomId token
    if seeded.2 then (seeded.1.allowPeer roomId msg.sender).1 else seeded.1

theorem seedJoin_absent (hroom : sfu.rooms.lookup roomId = none) : seedJoin sfu msg roomId = sfu := by
  unfold seedJoin
  cases inviteTokenOf msg.payload with
  | none => rfl
  | some token =>
    dsimp only
    rw [reseed_none hroom]
    rfl

theorem seedJoin_some (hroom : sfu.rooms.lookup roomId = some room) (htoken : inviteTokenOf msg.payload = some t) :
    ∃ createdBy, (room.creatorId ≠ "" → createdBy = room.creatorId) ∧
      seedJoin sfu msg roomId = ⟨sfu.rooms.insert roomId ((seeded room t createdBy).allowPeer msg.sender)⟩ := by
  have hne := ((inviteTokenOf_eq_some msg.payload).mp htoken).2
  obtain ⟨createdBy, hname, hseed⟩ := reseed_some hroom msg.sender hne
  refine ⟨createdBy, hname, ?_⟩
  unfold seedJoin
  rw [htoken]
  dsimp only
  rw [hseed, if_pos rfl]
  have hlook : (SFURoomManager.mk (sfu.rooms.insert roomId (seeded room t createdBy))).rooms.lookup roomId =
      some (seeded room t createdBy) := AList.lookup_insert _
  have hallow := allow_some hlook msg.sender
  rw [AList.insert_insert] at hallow
  exact hallow

/-- What a join leaves of the room besides who is in it. -/
theorem join_lookup (sfu : SFURoomManager S) (roomId p : String) (device : Option Tls.DeviceId) (now : Nat) :
    (sfu.joinRoomEndpoint p device roomId now).1 = sfu ∨
      ∃ room room', sfu.rooms.lookup roomId = some room ∧ SameAccess room room' ∧
        (sfu.joinRoomEndpoint p device roomId now).1 = ⟨sfu.rooms.insert roomId room'⟩ := by
  unfold SFURoomManager.joinRoomEndpoint
  dsimp only
  cases hroom : sfu.rooms.lookup roomId with
  | none => exact Or.inl rfl
  | some room =>
    dsimp only
    split
    · exact Or.inl rfl
    · exact Or.inr ⟨room, _, rfl, sameAccess_setDeviceMembership _ _ _ _ _ _, rfl⟩

theorem outcome_join (hsfu : st.sfu = some sfu) (hty : msg.msgType = .sfuJoin) (hproof : msg.payload.get "space_proof" = none) :
    TokenOutcome P st (.message now drawn msg) id ((handleSfuJoin P st msg now).1.roomAt id) := by
  have hpresents : ∀ id t, Presents P (.message now drawn msg) id t ↔
      inviteTokenOf msg.payload = some t ∧ msg.payload.strOr "room_id" defaultRoomId = id := by
    intro id t
    unfold Presents presentedTo
    simp only [hty, Option.some.injEq]
  have hrooms : (handleSfuJoin P st msg now).1.roomAt id =
      ((seedJoin sfu msg (msg.payload.strOr "room_id" defaultRoomId)).joinRoomEndpoint msg.sender msg.sourceDevice
        (msg.payload.strOr "room_id" defaultRoomId) now).1.rooms.lookup id := by
    unfold handleSfuJoin SupernodeState.roomAt seedJoin
    simp only [hsfu, trySpaceAdmission_proofless hproof, Option.getD_some]
    rfl
  rw [hrooms]
  generalize msg.payload.strOr "room_id" defaultRoomId = roomId at hpresents ⊢
  have hother : id ≠ roomId → ∀ t, ¬Presents P (.message now drawn msg) id t := by
    intro hne t hp
    exact hne ((hpresents id t).mp hp).2.symm
  cases hroom : sfu.rooms.lookup roomId with
  | none =>
    have hkeep : (sfu.joinRoomEndpoint msg.sender msg.sourceDevice roomId now).1 = sfu := by
      unfold SFURoomManager.joinRoomEndpoint
      rw [hroom]
    rw [seedJoin_absent hroom, hkeep]
    by_cases hne : id = roomId
    · subst hne
      exact outcome_keep hsfu (Or.inr ((roomAt_eq hsfu id).trans hroom))
    · exact outcome_keep hsfu (Or.inl (hother hne))
  | some room =>
    have hbefore := (roomAt_eq hsfu roomId).trans hroom
    cases htoken : inviteTokenOf msg.payload with
    | none =>
      have hnot : ∀ id t, ¬Presents P (.message now drawn msg) id t := by
        intro id t hp
        have hsome := ((hpresents id t).mp hp).1
        rw [htoken] at hsome
        cases hsome
      have hfree : ¬Carries (.message now drawn msg) := by
        intro h
        have hsome : (inviteTokenOf msg.payload).isSome = true := h
        rw [htoken] at hsome
        cases hsome
      have hseed : seedJoin sfu msg roomId = sfu := by
        unfold seedJoin
        rw [htoken]
      rw [hseed]
      rcases join_lookup sfu roomId msg.sender msg.sourceDevice now with hsame | ⟨room₁, room', hroom₁, haccess, hnew⟩
      · rw [hsame]
        exact outcome_keep hsfu (Or.inl (hnot id))
      · rw [hnew]
        refine outcome_insert hsfu (fun _ => hnot id) (TokenOutcome.kept room' ?_ (hnot roomId) fun h => absurd h hfree)
        rw [haccess.tokens, tokensAt_some ((roomAt_eq hsfu roomId).trans hroom₁)]
    | some token =>
      have hmine := (hpresents roomId token).mpr ⟨htoken, rfl⟩
      obtain ⟨createdBy, hname, hseed⟩ := seedJoin_some hroom htoken
      rw [hseed]
      rcases join_lookup ⟨sfu.rooms.insert roomId ((seeded room token createdBy).allowPeer msg.sender)⟩ roomId msg.sender
        msg.sourceDevice now with hsame | ⟨room₁, room', hroom₁, haccess, hnew⟩
      · rw [hsame]
        exact outcome_insert hsfu hother (outcome_seeded hmine hbefore (fun _ => rfl) hname (Finset.mem_insert_self _ _))
      · rw [AList.lookup_insert] at hroom₁
        obtain rfl := Option.some.inj hroom₁
        rw [hnew, AList.insert_insert]
        refine outcome_insert hsfu hother (outcome_seeded hmine hbefore (fun t' => by rw [haccess.tokens]; rfl) ?_ ?_)
        · rw [haccess.creator]
          exact hname
        · rw [haccess.allowed]
          exact Finset.mem_insert_self _ _

theorem outcome_generate (hsfu : st.sfu = some sfu) (hty : msg.msgType = .sfuRoomInviteGenerate) :
    TokenOutcome P st (.message now drawn msg) id ((handleSfuInviteGenerate st msg drawn).1.roomAt id) := by
  have hnot : ∀ id t, ¬Presents P (.message now drawn msg) id t := by
    rintro id t ⟨-, hto⟩
    unfold presentedTo at hto
    rw [hty] at hto
    cases hto
  have hmints : ∀ id, Mints P st (.message now drawn msg) id drawn ↔ msg.payload.strOr "room_id" "" = id ∧
      ∃ sfu, st.sfu = some sfu ∧ (sfu.generateInviteTokenChecked id msg.sender drawn).2 = .ok drawn := by
    intro id
    unfold Mints
    simp only [hty, true_and]
  have hrooms : (handleSfuInviteGenerate st msg drawn).1.roomAt id =
      (sfu.generateInviteTokenChecked (msg.payload.strOr "room_id" "") msg.sender drawn).1.rooms.lookup id := by
    unfold handleSfuInviteGenerate SupernodeState.roomAt
    simp only [hsfu, Option.bind_some]
  rw [hrooms]
  generalize msg.payload.strOr "room_id" "" = roomId at hmints ⊢
  cases hroom : sfu.rooms.lookup roomId with
  | none =>
    have hkeep : (sfu.generateInviteTokenChecked roomId msg.sender drawn).1 = sfu := by
      unfold SFURoomManager.generateInviteTokenChecked
      rw [hroom]
    rw [hkeep]
    exact outcome_keep hsfu (Or.inl (hnot id))
  | some room =>
    by_cases hmay : room.creatorId ≠ "" ∧ SFURoomManager.mayMint room msg.sender = true
    · have hmint : sfu.generateInviteTokenChecked roomId msg.sender drawn =
          (⟨sfu.rooms.insert roomId (room.generateInviteToken drawn msg.sender 1)⟩, .ok drawn) := by
        unfold SFURoomManager.generateInviteTokenChecked
        rw [hroom]
        dsimp only
        rw [if_neg hmay.1, if_neg (by simp [hmay.2])]
      have hbefore := (roomAt_eq hsfu roomId).trans hroom
      rw [hmint]
      refine outcome_insert hsfu (fun _ => hnot id) (TokenOutcome.minted _ drawn msg.sender
        ((hmints roomId).mpr ⟨rfl, sfu, hsfu, by rw [hmint]⟩) ?_ (hnot roomId) fun _ => ⟨room, hbefore, fun _ => rfl⟩)
      intro t'
      rw [tokensAt_some hbefore]
      by_cases h : t' = drawn
      · subst h
        rw [if_pos rfl]
        exact AList.lookup_insert _
      · rw [if_neg h]
        exact AList.lookup_insert_ne h
    · have hkeep : (sfu.generateInviteTokenChecked roomId msg.sender drawn).1 = sfu := by
        unfold SFURoomManager.generateInviteTokenChecked
        rw [hroom]
        dsimp only
        by_cases hcreator : room.creatorId = ""
        · rw [if_pos hcreator]
        · rw [if_neg hcreator, if_pos (by simpa [hcreator] using hmay)]
      rw [hkeep]
      exact outcome_keep hsfu (Or.inl (hnot id))

theorem admit_token (hroom : sfu.rooms.lookup roomId = some room) (htoken : inviteTokenOf msg.payload = some t) (creator : String)
    (createdNew : Bool) (drawn : String) :
    ∃ createdBy, (creator ≠ "" → createdBy = creator) ∧ (admitToPrivate sfu msg roomId creator createdNew drawn).1 =
      ⟨sfu.rooms.insert roomId ((seeded room t createdBy).allowPeer msg.sender)⟩ := by
  have hne := ((inviteTokenOf_eq_some msg.payload).mp htoken).2
  refine ⟨if creator = "" then claimedCreator msg else creator, createdBy_eq _ _, ?_⟩
  have hlook : (SFURoomManager.mk (sfu.rooms.insert roomId
      (seeded room t (if creator = "" then claimedCreator msg else creator)))).rooms.lookup roomId =
      some (seeded room t (if creator = "" then claimedCreator msg else creator)) := AList.lookup_insert _
  have hallow := allow_some hlook msg.sender
  rw [AList.insert_insert] at hallow
  unfold admitToPrivate
  simp only [htoken, Option.map_some, reregister_some hroom hne]
  exact hallow

/-- A new private room without a token: its maker is allowed and a token is minted. -/
theorem admit_new (hroom : sfu.rooms.lookup roomId = some room) (htoken : inviteTokenOf msg.payload = none) (creator : String) :
    (admitToPrivate sfu msg roomId creator true drawn).1 =
      ⟨sfu.rooms.insert roomId ((room.allowPeer msg.sender).generateInviteToken drawn (claimedCreator msg) 1)⟩ := by
  unfold admitToPrivate SFURoomManager.generateInviteToken
  simp only [htoken, Option.map_none, Bool.or_true, if_true, allow_some hroom, AList.lookup_insert, AList.insert_insert]

/-- A private room that is there, without a token: nothing, or the sender is allowed. -/
theorem admit_old (hroom : sfu.rooms.lookup roomId = some room) (htoken : inviteTokenOf msg.payload = none)
    (creator drawn : String) :
    (admitToPrivate sfu msg roomId creator false drawn).1 = sfu ∨
      (admitToPrivate sfu msg roomId creator false drawn).1 = ⟨sfu.rooms.insert roomId (room.allowPeer msg.sender)⟩ := by
  unfold admitToPrivate
  simp only [htoken, Option.map_none, Bool.or_false, Bool.false_eq_true, if_false, allow_some hroom]
  split
  · exact Or.inr rfl
  · exact Or.inl rfl

/-- The admission to the room of a create: `room` is the one that is there, or a new one without tokens. -/
theorem outcome_admitted {sfu₁ : SFURoomManager S} {createdNew : Bool} (hsfu : st.sfu = some sfu)
    (hty : msg.msgType = .sfuRoomCreate) (hprivate : claimedType msg = .priv) (hid : createdId P msg = roomId)
    (hrooms : ∀ room', sfu₁.rooms.insert roomId room' = sfu.rooms.insert roomId room')
    (hroom : sfu₁.rooms.lookup roomId = some room) (htokens : room.inviteTokens = tokensAt st roomId)
    (hold : createdNew = false → sfu₁ = sfu) (hnew : createdNew = true → st.roomAt roomId = none) :
    TokenOutcome P st (.message now drawn msg) id
      ((admitToPrivate sfu₁ msg roomId (roomCreator sfu₁ roomId) createdNew drawn).1.rooms.lookup id) := by
  have hpresents : ∀ id t, Presents P (.message now drawn msg) id t ↔ inviteTokenOf msg.payload = some t ∧ roomId = id := by
    intro id t
    unfold Presents presentedTo
    simp only [hty, hprivate, hid, if_true, Option.some.injEq]
  have hother : id ≠ roomId → ∀ t, ¬Presents P (.message now drawn msg) id t := by
    intro hne t hp
    exact hne ((hpresents id t).mp hp).2.symm
  have hcreator : roomCreator sfu₁ roomId = room.creatorId := by
    unfold roomCreator
    rw [hroom]
    rfl
  rw [hcreator]
  cases htoken : inviteTokenOf msg.payload with
  | some t =>
    obtain ⟨createdBy, hname, hadmitted⟩ := admit_token hroom htoken room.creatorId createdNew drawn
    rw [hadmitted, hrooms]
    refine outcome_insert hsfu hother (TokenOutcome.presented _ t createdBy ((hpresents roomId t).mpr ⟨htoken, rfl⟩) ?_ hname
      (Finset.mem_insert_self _ _))
    intro t'
    rw [← htokens]
    exact seeded_tokens room t'
  | none =>
    have hnot : ∀ id t, ¬Presents P (.message now drawn msg) id t := by
      intro id t hp
      have hsome := ((hpresents id t).mp hp).1
      rw [htoken] at hsome
      cases hsome
    have hfree : ¬Carries (.message now drawn msg) := by
      intro h
      have hsome : (inviteTokenOf msg.payload).isSome = true := h
      rw [htoken] at hsome
      cases hsome
    cases createdNew with
    | true =>
      have hmints : Mints P st (.message now drawn msg) roomId drawn := by
        unfold Mints
        simp only [hty, true_and]
        exact ⟨hid, hprivate, htoken, hnew rfl⟩
      rw [admit_new hroom htoken, hrooms]
      refine outcome_insert hsfu (fun _ => hnot id) (TokenOutcome.minted _ drawn (claimedCreator msg) hmints ?_ (hnot roomId)
        fun h => absurd h hfree)
      intro t'
      rw [← htokens]
      by_cases h : t' = drawn
      · subst h
        rw [if_pos rfl]
        exact AList.lookup_insert _
      · rw [if_neg h]
        exact AList.lookup_insert_ne h
    | false =>
      obtain rfl := hold rfl
      rcases admit_old hroom htoken room.creatorId drawn with hsame | hallowed
      · rw [hsame]
        exact outcome_keep hsfu (Or.inl (hnot id))
      · rw [hallowed]
        exact outcome_insert hsfu (fun _ => hnot id) (TokenOutcome.kept _ htokens (hnot roomId) fun h => absurd h hfree)

theorem outcome_create (hsfu : st.sfu = some sfu) (hty : msg.msgType = .sfuRoomCreate) :
    TokenOutcome P st (.message now drawn msg) id ((handleSfuRoomCreate P st msg now drawn).1.roomAt id) := by
  have hto : ∀ id t, Presents P (.message now drawn msg) id t → createdId P msg = id ∧ claimedType msg = .priv := by
    rintro id t ⟨-, hto⟩
    unfold presentedTo at hto
    rw [hty] at hto
    dsimp only at hto
    split at hto
    · rename_i hprivate
      exact ⟨Option.some.inj hto, hprivate⟩
    · cases hto
  generalize hid : createdId P msg = roomId at hto
  cases hroom : sfu.rooms.lookup roomId with
  | some room =>
    have hrooms : (handleSfuRoomCreate P st msg now drawn).1.roomAt id =
        (if claimedType msg = .priv then (admitToPrivate sfu msg roomId (roomCreator sfu roomId) false drawn).1 else sfu).rooms.lookup
          id := by
      subst hid
      unfold handleSfuRoomCreate SupernodeState.roomAt
      simp only [hsfu, create_existing hroom, hroom, Option.isNone_some, Bool.false_eq_true, false_and, if_false,
        Option.bind_some]
      split <;> rfl
    rw [hrooms]
    by_cases hprivate : claimedType msg = .priv
    · rw [if_pos hprivate]
      exact outcome_admitted hsfu hty hprivate hid (fun _ => rfl) hroom
        (tokensAt_some ((roomAt_eq hsfu roomId).trans hroom)).symm (fun _ => rfl) (fun h => by cases h)
    · rw [if_neg hprivate]
      exact outcome_keep hsfu (Or.inl fun t hp => hprivate (hto id t hp).2)
  | none =>
    have hnone := (roomAt_eq hsfu roomId).trans hroom
    have hkeep : TokenOutcome P st (.message now drawn msg) id (st.roomAt id) := by
      rw [roomAt_eq hsfu id]
      by_cases hne : id = roomId
      · subst hne
        exact outcome_keep hsfu (Or.inr hnone)
      · exact outcome_keep hsfu (Or.inl fun t hp => hne (hto id t hp).1.symm)
    obtain ⟨new, hnew, htokens, htype⟩ : ∃ new : SFURoom S,
        sfu.createRoomWithPolicy roomId (msg.payload.strOr "room_name" "Room") (claimedType msg) (claimedCreator msg)
          (msg.payload.strOr "invite_policy" "owner") now = (⟨sfu.rooms.insert roomId new⟩, true) ∧
        new.inviteTokens = ∅ ∧ new.roomType = claimedType msg := by
      unfold SFURoomManager.createRoomWithPolicy
      rw [hroom]
      refine ⟨_, rfl, ?_⟩
      have haccess := sameAccess_markUnused ({ SFURoom.new roomId (msg.payload.strOr "room_name" "Room") (claimedType msg)
        (claimedCreator msg) with invitePolicy := normalizeInvitePolicy (msg.payload.strOr "invite_policy" "owner") } : SFURoom S) now
      exact ⟨haccess.tokens, haccess.roomType⟩
    have hempty : new.inviteTokens = tokensAt st roomId := by
      rw [htokens]
      unfold tokensAt
      rw [hnone]
      rfl
    have hrooms : (handleSfuRoomCreate P st msg now drawn).1.roomAt id = st.roomAt id ∨
        (handleSfuRoomCreate P st msg now drawn).1.roomAt id =
          (if claimedType msg = .priv then (admitToPrivate ⟨sfu.rooms.insert roomId new⟩ msg roomId
            (roomCreator ⟨sfu.rooms.insert roomId new⟩ roomId) true drawn).1 else ⟨sfu.rooms.insert roomId new⟩).rooms.lookup id := by
      subst hid
      unfold handleSfuRoomCreate
      simp only [hsfu, hnew]
      split
      · exact Or.inl rfl
      · right
        unfold SupernodeState.roomAt
        simp only [Option.bind_some]
        split <;> rfl
    rcases hrooms with hsame | hmade
    · rw [hsame]
      exact hkeep
    · rw [hmade]
      by_cases hprivate : claimedType msg = .priv
      · rw [if_pos hprivate]
        exact outcome_admitted hsfu hty hprivate hid (fun _ => AList.insert_insert _) (AList.lookup_insert _) hempty
          (fun h => by cases h) (fun _ => hnone)
      · rw [if_neg hprivate]
        have hnot : ∀ id t, ¬Presents P (.message now drawn msg) id t := fun id t hp => hprivate (hto id t hp).2
        refine outcome_insert hsfu (fun _ => hnot id) (TokenOutcome.kept new hempty (hnot roomId) ?_)
        intro _ hpriv
        exact absurd (htype.symm.trans hpriv) hprivate

theorem outcome_gc (now idleSecs : Nat) : TokenOutcome P st (.gc now idleSecs) id ((gcRooms st now idleSecs).roomAt id) := by
  have hnot : ∀ t, ¬Presents P (.gc now idleSecs) id t := fun _ h => h
  have hsame := outcome_same st hnot
  unfold gcRooms
  rw [roomAt_map]
  cases hsfu : st.sfu with
  | none => exact TokenOutcome.absent (Or.inr hnot)
  | some sfu =>
    rw [Option.bind_some]
    unfold SFURoomManager.gcIdleRooms
    rw [lookup_retain]
    rw [roomAt_eq hsfu] at hsame
    cases hroom : sfu.rooms.lookup id with
    | none => exact TokenOutcome.absent (Or.inr hnot)
    | some room =>
      rw [hroom] at hsame
      cases hkeep : Option.filter _ (some room) with
      | none => exact TokenOutcome.absent (Or.inr hnot)
      | some room' =>
        obtain ⟨hroom', -⟩ := Option.filter_eq_some_iff.mp hkeep
        rwa [← Option.some.inj hroom']

/-- A node without rooms has none afterwards. -/
theorem roomEvent_bare (hsfu : st.sfu = none) (ev : RoomEvent) : (roomEvent P st ev).1.sfu = none := by
  cases ev with
  | gc now idleSecs =>
    unfold roomEvent gcRooms
    rw [hsfu]
    rfl
  | message now drawn msg =>
    unfold roomEvent
    dsimp only
    split
    · simp only [handleSfuRoomCreate, hsfu]
    · simp only [handleSfuRoomInvite, hsfu]
    · simp only [handleSfuInviteGenerate, hsfu]
    · simp only [handleSfuJoin, hsfu]
    · exact hsfu

/-- **One event, one room.** Without Space proofs. -/
theorem outcome_event (hproof : Proofless ev) : TokenOutcome P st ev id ((roomEvent P st ev).1.roomAt id) := by
  cases hsfu : st.sfu with
  | none =>
    have hbefore : st.roomAt id = none := by
      unfold SupernodeState.roomAt
      rw [hsfu]
      rfl
    have hafter : (roomEvent P st ev).1.roomAt id = none := by
      unfold SupernodeState.roomAt
      rw [roomEvent_bare hsfu]
      rfl
    rw [hafter]
    exact outcome_none hbefore
  | some sfu =>
    cases ev with
    | gc now idleSecs => exact outcome_gc now idleSecs
    | message now drawn msg =>
      have hother : presentedTo P msg = none → TokenOutcome P st (.message now drawn msg) id (st.roomAt id) := by
        intro hnone
        refine outcome_same st ?_
        rintro t ⟨-, hto⟩
        rw [hnone] at hto
        cases hto
      unfold roomEvent
      dsimp only
      split
      · rename_i hty
        exact outcome_create hsfu hty
      · rename_i hty
        exact outcome_invite hsfu hty hproof
      · rename_i hty
        exact outcome_generate hsfu hty
      · rename_i hty
        exact outcome_join hsfu hty hproof
      · rename_i hcreate hinvite _ hjoin
        refine hother ?_
        unfold presentedTo
        split
        · rename_i hty
          exact absurd hty hcreate
        · rename_i hty
          exact absurd hty hinvite
        · rename_i hty
          exact absurd hty hjoin
        · rfl

/-! ### Runs -/

theorem presents_unique {t' : String} (h : Presents P ev id t) (h' : Presents P ev id t') : t' = t := by
  cases ev with
  | gc now idleSecs => exact h.elim
  | message now drawn msg => exact Option.some.inj (h'.1.symm.trans h.1)

theorem mintedSince_concat {start : SupernodeState S} {acts : List RoomEvent} (h : MintedSince P start acts id t)
    (hnot : ¬Presents P ev id t) : MintedSince P start (acts ++ [ev]) id t := by
  obtain ⟨pre, ev', post, st', rfl, hrun, hmints, hpost⟩ := h
  refine ⟨pre, ev', post ++ [ev], st', by simp, hrun, hmints, ?_⟩
  intro e he
  rcases List.mem_append.mp he with he | he
  · exact hpost e he
  · rwa [List.mem_singleton.mp he]

theorem room_of_token {it : InviteToken} (h : (tokensAt st id).lookup t = some it) :
    ∃ room, st.roomAt id = some room ∧ room.inviteTokens.lookup t = some it := by
  unfold tokensAt at h
  cases hroom : st.roomAt id with
  | none =>
    rw [hroom, Option.map_none, Option.getD_none, AList.lookup_empty] at h
    cases h
  | some room =>
    rw [hroom, Option.map_some, Option.getD_some] at h
    exact ⟨room, rfl, h⟩

/-- The tokens with a limit, along a run. -/
def Limited (P : Primitives D) (start : SupernodeState S) (acts : List RoomEvent) (st : SupernodeState S) : Prop :=
  ∀ id room t it, st.roomAt id = some room → room.inviteTokens.lookup t = some it → it.maxUses ≠ 0 →
    it.maxUses = 1 ∧ it.uses = 0 ∧ MintedSince P start acts id t

/-- **The step lemma.** An event keeps what is said of the tokens with a limit. -/
theorem limited_step {start : SupernodeState S} {acts : List RoomEvent} (h : Limited P start acts st)
    (hrun : run (roomStep P) start acts = some st) (hproof : Proofless ev) :
    Limited P start (acts ++ [ev]) (roomEvent P st ev).1 := by
  intro id room t it hroom hit hmax
  have hold : (tokensAt st id).lookup t = some it → ¬Presents P ev id t →
      it.maxUses = 1 ∧ it.uses = 0 ∧ MintedSince P start (acts ++ [ev]) id t := by
    intro htoken hnot
    obtain ⟨before, hbefore, hit'⟩ := room_of_token htoken
    obtain ⟨hone, hzero, hsince⟩ := h id before t it hbefore hit' hmax
    exact ⟨hone, hzero, mintedSince_concat hsince hnot⟩
  have hout : TokenOutcome P st ev id _ := outcome_event hproof
  rw [hroom] at hout
  cases hout with
  | kept _ htokens hnot _ =>
    rw [htokens] at hit
    exact hold hit (hnot t)
  | presented _ t' createdBy hpresents htokens _ _ =>
    rw [htokens] at hit
    by_cases ht : t = t'
    · rw [if_pos ht] at hit
      rw [← Option.some.inj hit] at hmax
      exact absurd rfl hmax
    · rw [if_neg ht] at hit
      exact hold hit fun hp => ht (presents_unique hpresents hp)
  | minted _ t' createdBy hmints htokens hnot _ =>
    rw [htokens] at hit
    by_cases ht : t = t'
    · rw [if_pos ht] at hit
      rw [← Option.some.inj hit, ht]
      exact ⟨rfl, rfl, acts, ev, [], st, rfl, hrun, hmints, by simp⟩
    · rw [if_neg ht] at hit
      exact hold hit (hnot t)

theorem limited_start (policy : SfuRoomCreationPolicy) : Limited P (startNode policy : SupernodeState S) [] (startNode policy) := by
  intro id room t it hroom hit
  have hempty : room.inviteTokens = ∅ := by
    have hlook : (SFURoomManager.new : SFURoomManager S).rooms.lookup id = some room := hroom
    unfold SFURoomManager.new at hlook
    by_cases hid : id = defaultRoomId
    · subst hid
      rw [AList.lookup_insert] at hlook
      rw [← Option.some.inj hlook]
      rfl
    · rw [AList.lookup_insert_ne hid, AList.lookup_empty] at hlook
      cases hlook
  rw [hempty, AList.lookup_empty] at hit
  cases hit

theorem limited_run (policy : SfuRoomCreationPolicy) {acts : List RoomEvent}
    (hproof : ∀ ev ∈ acts, Proofless ev) (hrun : run (roomStep P) (startNode policy) acts = some st) :
    Limited P (startNode policy) acts st := by
  have hinv := run_invariant
    (fun (acts : List RoomEvent) (st : SupernodeState S) => run (roomStep P) (startNode policy) acts = some st ∧
      ((∀ ev ∈ acts, Proofless ev) → Limited P (startNode policy) acts st))
    ⟨rfl, fun _ => limited_start policy⟩ ?_ hrun
  · exact hinv.2 hproof
  · rintro acts ev st₁ st₂ ⟨hrun₁, hlimited⟩ hstep
    obtain rfl := Option.some.inj hstep
    refine ⟨?_, fun hall => ?_⟩
    · rw [run_append, hrun₁]
      rfl
    · exact limited_step (hlimited fun e he => hall e (by simp [he])) hrun₁ (hall ev (by simp))

end InviteTokensAux

open InviteTokensAux RoomRematerializeAux

/-- **Presenting a token admits.** Over every run of the handlers without Space proofs, from a node that has just started. -/
theorem tokens_admit (policy : SfuRoomCreationPolicy) (acts : List RoomEvent) (st : SupernodeState S)
    (hproof : ∀ ev ∈ acts, Proofless ev) (hrun : run (roomStep P) (startNode policy) acts = some st) :
    TokensAdmit P (startNode policy) acts st := by
  constructor
  · exact limited_run policy hproof hrun
  · intro now drawn msg id p t hproofless h
    obtain ⟨room, hroom, hallowed, hpriv, -⟩ := h.after
    have hcarries : Carries (.message now drawn msg) := by
      have hsome : (inviteTokenOf msg.payload).isSome = true := by rw [h.carried, Option.isSome_some]
      exact hsome
    have hout : TokenOutcome P st (.message now drawn msg) id _ := outcome_event hproofless
    rw [hroom] at hout
    cases hout with
    | kept _ _ _ hsame => exact absurd ⟨room, hsame hcarries hpriv, hallowed⟩ h.before
    | presented _ t' createdBy hpresents htokens hcreator _ =>
      obtain rfl := Option.some.inj (hpresents.1.symm.trans h.carried)
      exact ⟨hpresents, room, hroom, createdBy, (htokens t').trans (if_pos rfl), hcreator⟩
    | minted _ _ _ _ _ _ hsame =>
      obtain ⟨before, hbefore, hsame⟩ := hsame hcarries
      exact absurd ⟨before, hbefore, (hsame p).symm.trans hallowed⟩ h.before
  · intro now drawn msg id t hproofless hpresents hthere
    have hout : TokenOutcome P st (.message now drawn msg) id _ := outcome_event hproofless
    cases hafter : (roomEvent P st (.message now drawn msg)).1.roomAt id with
    | none =>
      rw [hafter] at hout
      cases hout with
      | absent hstays =>
        rcases hstays with hnone | hnot
        · exact absurd hnone hthere
        · exact absurd hpresents (hnot t)
    | some room =>
      rw [hafter] at hout
      cases hout with
      | kept _ _ hnot _ => exact absurd hpresents (hnot t)
      | presented _ _ _ _ _ _ hadmits => exact ⟨room, rfl, hadmits⟩
      | minted _ _ _ _ _ hnot _ => exact absurd hpresents (hnot t)

/-! ## A guessed token -/

namespace InviteTokensAux

/-- The owner makes the private room. -/
def makesRoom : SignalingMessage :=
  { SignalingMessage.new .sfuRoomCreate roomOwner 1 with payload := [("room_id", .str "r"), ("room_type", .str "private")] }

/-- Somebody else makes up a token for it. -/
def guesses : SignalingMessage :=
  { SignalingMessage.new .sfuRoomInvite passerBy 5 with payload := [("room_id", .str "r"), ("invite_token", .str "guess")] }

def freshNode : SupernodeState Unit := startNode ⟨false, true⟩

def madeNode : SupernodeState Unit := (roomEvent plainPrimitives freshNode (.message 1 "minted" makesRoom)).1

def guessedNode : SupernodeState Unit := (roomEvent plainPrimitives madeNode (.message 5 "" guesses)).1

theorem run_makesRoom : run (roomStep plainPrimitives) freshNode [.message 1 "minted" makesRoom] = some madeNode := rfl

theorem proofless_makesRoom : ∀ ev ∈ [RoomEvent.message 1 "minted" makesRoom], Proofless ev := by
  intro ev hev
  rw [List.mem_singleton.mp hev]
  have hnone : makesRoom.payload.get "space_proof" = none := rfl
  exact hnone

theorem proofless_guesses : Proofless (.message 5 "" guesses) := by
  have hnone : guesses.payload.get "space_proof" = none := rfl
  exact hnone

theorem guess_before : (madeNode.roomAt "r").any (fun room => room.isPeerAllowed passerBy) = false := by
  decide +kernel

theorem guess_after : (guessedNode.roomAt "r").any (fun room => room.isPeerAllowed passerBy && decide (room.roomType = .priv) &&
    decide (room.creatorId ≠ normalizePeerId passerBy)) = true := by
  decide +kernel

theorem guess_because : ((roomEvent plainPrimitives madeNode (.message 5 "" (withoutToken guesses))).1.roomAt "r").any
    (fun room => room.isPeerAllowed passerBy) = false := by
  decide +kernel

theorem not_mayEnter {st : SupernodeState S} {id p : String} (h : (st.roomAt id).any (fun room => room.isPeerAllowed p) = false) :
    ¬MayEnter st id p := by
  rintro ⟨room, hroom, hallowed⟩
  rw [hroom, Option.any_some, hallowed] at h
  cases h

theorem admitted_guess : AdmittedByToken plainPrimitives madeNode 5 "" guesses "r" passerBy "guess" := by
  refine ⟨by decide +kernel, not_mayEnter guess_before, ?_, not_mayEnter guess_because⟩
  obtain ⟨room, hroom, h⟩ := (Option.any_eq_true _ _).mp guess_after
  simp only [Bool.and_eq_true, decide_eq_true_eq] at h
  exact ⟨room, hroom, h.1.1, h.1.2, h.2⟩

theorem atSome_singleton {P : Primitives D} {start : SupernodeState S} {ev : RoomEvent} {Q : SupernodeState S → RoomEvent → Prop}
    (h : AtSome P start [ev] Q) : Q start ev := by
  obtain ⟨pre, ev', post, st, hacts, hrun, hQ⟩ := h
  cases pre with
  | nil =>
    obtain ⟨rfl, -⟩ := List.cons.inj hacts
    obtain rfl := Option.some.inj hrun
    exact hQ
  | cons _ pre =>
    have hlen := congrArg List.length hacts
    simp only [List.length_cons, List.length_append, List.length_nil] at hlen
    omega

theorem tokenless_makesRoom : inviteTokenOf makesRoom.payload = none := by
  decide +kernel

end InviteTokensAux

/-- The owner makes a private room. -/
theorem tokens_admit_made : TokensAdmit plainPrimitives freshNode [.message 1 "minted" makesRoom] madeNode :=
  tokens_admit ⟨false, true⟩ _ _ proofless_makesRoom run_makesRoom

/-- A token that was made up admits. -/
theorem tokens_admit_guessed :
    ¬∀ (policy : SfuRoomCreationPolicy) (acts : List RoomEvent) (st : SupernodeState Unit), (∀ ev ∈ acts, Proofless ev) →
      run (roomStep plainPrimitives) (startNode policy) acts = some st →
      TokensAreCredentials plainPrimitives (startNode policy) acts st := by
  intro h
  have hcred := (h ⟨false, true⟩ _ _ proofless_makesRoom run_makesRoom).credential 5 "" guesses "r" passerBy "guess" proofless_guesses
    admitted_guess
  rcases hcred with hminted | hcreator
  · obtain ⟨hdrawn, -⟩ := atSome_singleton hminted
    exact absurd hdrawn (by decide)
  · obtain ⟨⟨htoken, -⟩, -⟩ := atSome_singleton hcreator
    rw [tokenless_makesRoom] at htoken
    cases htoken

end DoubleSlash.Supernode
