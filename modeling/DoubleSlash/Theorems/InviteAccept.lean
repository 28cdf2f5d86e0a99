import DoubleSlash.Manager.Inbound

/-!
# Who can complete an invite

`InviteHandshakeAccept` compares the payload's claims with the pending invite, not the signer, and takes the entry out before
it compares. A message signed by somebody else leaves everything as it was only when it never meets a pending entry.
-/

namespace DoubleSlash.Manager

open Protocol Store Direct Assoc

section

variable {S : Type} [DecidableEq S]

/-- Handling a message left the peer store, the pending invites and the direct-session and alias tables as they were, and
reported no accepted invite. -/
structure InviteUntouched (σ : ConnectionManager S) (result : ConnectionManager S × List Effect) : Prop where
  store : result.1.store = σ.store
  pendingInvites : result.1.pendingInvites = σ.pendingInvites
  peers : result.1.direct.peers = σ.direct.peers
  aliases : result.1.direct.quicPeerAliases = σ.direct.quicPeerAliases
  accepted : ∀ peerId handle, Effect.emit (.inviteAccepted peerId handle) ∉ result.2

namespace InviteAcceptAux

/-- Nothing but the log is touched when no such invite is pending. -/
theorem accept_unknown {E : Env} {σ : ConnectionManager S} {msg : SignalingMessage} {t : Transport}
    (h : σ.pendingInvites.lookup (inviteIdOf msg) = none) : inviteHandshakeAccept E σ msg t = (σ, []) := by
  unfold inviteIdOf at h
  simp [inviteHandshakeAccept, h]

/-- A pending invite is consumed, whatever the message claims. -/
theorem accept_consumes {E : Env} {σ : ConnectionManager S} {msg : SignalingMessage} {t : Transport} {p : PendingInvite}
    (h : σ.pendingInvites.lookup (inviteIdOf msg) = some p) :
    (inviteHandshakeAccept E σ msg t).1.pendingInvites.lookup (inviteIdOf msg) = none := by
  unfold inviteIdOf at h ⊢
  unfold inviteHandshakeAccept
  simp only [h]
  split <;> simp

end InviteAcceptAux

open InviteAcceptAux

/-- The signer is not the identity that the pending invite of that id names as its inviter. -/
def NotTheInviter (σ : ConnectionManager S) (msg : SignalingMessage) : Prop :=
  ∀ p, σ.pendingInvites.lookup (inviteIdOf msg) = some p → bare msg.sender ≠ bare p.inviterIdentityPub

/-- Only the inviter's own signature touches an invite: what somebody else signed is handled without a trace. -/
def AcceptBound (E : Env) (σ : ConnectionManager S) (msg : SignalingMessage) (t : Transport) : Prop :=
  NotTheInviter σ msg → ∃ result, handleInboundInner E σ msg t = some result ∧ InviteUntouched σ result

/-- **Invite acceptance and the inviter.** A signed `InviteHandshakeAccept` is bound to the inviter exactly when it is dropped by
the device or the replay check, or no invite is pending under the id it names, or the inviter did sign it. -/
theorem acceptBound_iff (E : Env) (σ : ConnectionManager S) (msg : SignalingMessage) (t : Transport)
    (hty : msg.msgType = .inviteHandshakeAccept)
    (hsig : verifyInboundSignature E.crypto E.now msg σ.direct.deviceId.isSome = true) :
    AcceptBound E σ msg t ↔
      ¬((msg.targetDevice = none ∨ msg.targetDevice = σ.direct.deviceId) ∧ (checkReplay E σ msg).2 = true) ∨
        σ.pendingInvites.lookup (inviteIdOf msg) = none ∨ ¬NotTheInviter σ msg := by
  have hreach := screen_control (t := t) hsig (by rw [hty]; rfl) (by rw [hty]; rfl)
  have hplain : handleInboundInner E σ msg t = handlePlain E σ msg t := by
    simp [handleInboundInner, hty]
  unfold AcceptBound
  rw [hplain, ← hreach]
  obtain ⟨hno, replay, effects, hrun, hcut⟩ | ⟨hyes, replay, hrun⟩ := handlePlain_cases E σ msg t
  · exact ⟨fun _ => Or.inl hno,
      fun _ _ => ⟨_, hrun, rfl, rfl, rfl, rfl, fun _ _ hmem => nomatch hcut _ hmem⟩⟩
  · have hdispatch : handlePlain E σ msg t = some (inviteHandshakeAccept E { σ with replay := replay } msg t) := by
      rw [hrun, dispatch, hty]
    rw [hdispatch]
    constructor
    · intro hbound
      by_cases hsigner : NotTheInviter σ msg
      · obtain ⟨result, hresult, hunt⟩ := hbound hsigner
        obtain rfl := Option.some.inj hresult
        refine Or.inr (Or.inl ?_)
        cases hp : σ.pendingInvites.lookup (inviteIdOf msg) with
        | none => rfl
        | some p =>
          have hgone := accept_consumes (E := E) (σ := { σ with replay := replay }) (t := t) hp
          rw [hunt.pendingInvites, hp] at hgone
          cases hgone
      · exact Or.inr (Or.inr hsigner)
    · rintro (hno | hnone | hsigner) hother
      · exact absurd hyes hno
      · refine ⟨_, rfl, ?_⟩
        rw [accept_unknown (σ := { σ with replay := replay }) hnone]
        exact ⟨rfl, rfl, rfl, rfl, fun _ _ hmem => nomatch hmem⟩
      · exact absurd hother hsigner

end

/-! ## A stranger completes an invite -/

/-- The 43 characters of the key of all zeros. -/
def zeroId : String := "AAAAAAAAAAAAAAAAAAAAAAAAAAAAAAAAAAAAAAAAAAA"

/-- Crypto that takes every signature, at second 1000. -/
def lenientEnv : Env where
  crypto := ⟨fun _ => some [], fun _ _ _ => true⟩
  now := 1000
  displayHandle := ""
  parseSocketAddr _ := none
  openEnvelope _ := none

/-- A client that accepted the invite `i1` of the inviter `inviter`, and knows nobody yet. -/
def waitingClient : ConnectionManager Nat where
  publicId := "me"
  direct := ⟨"me-hex", none, ∅, ∅⟩
  store := ∅
  pendingInvites := AList.singleton "i1" ⟨"inviter-hex", "inviter", "i1", "", "", false, 990, none, ""⟩
  issuedInvites := ∅
  replay := ∅

/-- An ACCEPT signed by the zero key that names the inviter in its payload, as anybody who saw the invite link can. -/
def forgedAccept : SignalingMessage where
  msgType := .inviteHandshakeAccept
  sender := zeroId
  payload := [("invite_id", .str "i1"), ("inviter_identity_pub", .str "inviter"), ("inviter_peer_id", .str "inviter-hex")]
  timestamp := 1000
  target := none
  sourceDevice := none
  targetDevice := none
  signature := some "AAAA"
  protocolVersion := 1

/-- The same ACCEPT for an invite that is not pending. -/
def strayAccept : SignalingMessage :=
  { forgedAccept with payload := [("invite_id", .str "i2")] }

theorem acceptBound_stray : AcceptBound lenientEnv waitingClient strayAccept ⟨none, none, false⟩ :=
  (acceptBound_iff lenientEnv waitingClient strayAccept ⟨none, none, false⟩ rfl (by decide)).mpr (Or.inr (Or.inl (by decide)))

theorem acceptBound_fails : ¬AcceptBound lenientEnv waitingClient forgedAccept ⟨none, none, false⟩ := by
  intro h
  obtain ⟨result, hresult, hunt⟩ := h (by
    intro p hp
    obtain rfl := Option.some.inj hp
    decide)
  obtain rfl := Option.some.inj hresult
  exact absurd (congrArg (fun m => m.entries.length) hunt.pendingInvites) (by decide)

end DoubleSlash.Manager
