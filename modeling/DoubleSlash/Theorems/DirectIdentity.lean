import DoubleSlash.Lib.Run
import DoubleSlash.Lemmas.Sessions
import DoubleSlash.Manager.DirectLane

/-!
# Whose session a direct session is

Frames on the direct lane are not encrypted again, so a session filed under a peer id has to be that peer's. It is, in every
run in which each dial is answered by the peer that was dialled, or by a device certificate, and no handshake message that is
taken claims another id than its session's.
-/

namespace DoubleSlash.Manager

open Protocol Store Direct Assoc Tls Machine Run

variable (P : Platform)

/-- The connection's certificate names the key that hashes to the peer id. -/
def Proves (l : Link) (peerId : String) : Prop :=
  peerIdOfCert P l.cert = .ok (some peerId)

/-- Every frame and datagram for a peer id goes to a connection that proved it, and media is attributed to the peer id its
session's certificate proves. -/
structure DirectSafe (s : DirectNet) : Prop where
  frames : ∀ target targetDevice, ∀ l ∈ directLane s.manager target targetDevice,
    Proves P l (canonicalPeerIdForSender s.manager target)
  datagrams : ∀ activeRemote peerId l, directMediaSender s.manager.direct activeRemote peerId = some l → Proves P l peerId
  audio : ∀ task ∈ s.tasks, ∀ peerId, mediaAttribution s.manager.direct task.startedAs task.endpoint = some peerId →
    Proves P task.link peerId

/-- The condition on a step. -/
def Faithful (s : DirectNet) : DirectAct → Prop
  | .dialAnswered peerId link _ _ =>
    Proves P link peerId ∨ ∃ device, deviceFromCertDer P.build P.word link.cert = .ok (some device)
  | .signal E task msg encrypted =>
    Reaches E s.manager msg ⟨some task.startedAs, none, encrypted⟩ →
      ∀ claimed, relabelTarget E s.manager msg = some claimed →
        claimed = task.startedAs ∨ claimed = "" ∨ claimed = s.manager.direct.ownPeerId
  | _ => True

namespace DirectIdentityAux

open SessionsAux PeerConnection

/-- Every channel in the table belongs to a connection that proved the id it is filed under, no session goes by an alias, and
every session task was started with the id its certificate proves. -/
structure Filed (s : DirectNet) : Prop where
  table : ∀ p l, Holder s.manager.direct p l → Proves P l p
  aliases : ∀ p, s.manager.direct.quicPeerAliases.lookup p = none
  tasks : ∀ task ∈ s.tasks, Proves P task.link task.startedAs

variable {P}

theorem resolve_of_filed {s : DirectNet} (h : Filed P s) (p : String) : s.manager.direct.resolveQuicPeerAlias p = p := by
  simp [DirectSessions.resolveQuicPeerAlias, h.aliases p]

/-- What is filed right is safe. -/
theorem directSafe_of_filed {s : DirectNet} (h : Filed P s) : DirectSafe P s := by
  refine ⟨fun target dev l hl => ?_, fun remote p l hl => ?_, fun task htask p hp => ?_⟩
  · unfold directLane at hl
    cases he : s.manager.direct.peers.lookup (canonicalPeerIdForSender s.manager target) with
    | none => simp [he] at hl
    | some e =>
      simp only [he] at hl
      split at hl
      · obtain ⟨x, hx, rfl⟩ := List.mem_map.mp hl
        exact h.table _ _ ⟨e, he, Or.inl (List.mem_map.mpr ⟨x, List.mem_of_mem_filter hx, rfl⟩)⟩
      · cases hl
  · unfold directMediaSender at hl
    obtain ⟨e, he, hl⟩ := Option.bind_eq_some_iff.mp hl
    split at hl
    · exact h.table _ _ ⟨e, he, Or.inr hl⟩
    · obtain ⟨d, -, hl⟩ := Option.bind_eq_some_iff.mp hl
      obtain ⟨x, hx, rfl⟩ := Option.map_eq_some_iff.mp hl
      exact h.table _ _ ⟨e, he, Or.inl ((mem_channels e _).mpr ⟨d, x.1, hx⟩)⟩
  · unfold mediaAttribution at hp
    dsimp only at hp
    split at hp
    · obtain rfl := Option.some.inj hp
      rw [resolve_of_filed h]
      exact h.tasks task htask
    · cases hp

/-! ## The events of the session tasks -/

theorem filed_start {s : DirectNet} (h : Filed P s) {t : SessionTask} (ht : Proves P t.link t.startedAs)
    (now : Nat) : Filed P (startSession s t now) := by
  refine ⟨fun p l hl => ?_, fun p => ?_, fun x hx => ?_⟩
  · obtain hl | ⟨rfl, rfl⟩ := holder_connected hl
    · exact h.table p l hl
    · exact ht
  · have : (s.manager.direct.quicConnected t.startedAs t.endpoint t.link now).quicPeerAliases =
        s.manager.direct.quicPeerAliases := by
      unfold DirectSessions.quicConnected
      split
      · rfl
      · dsimp only
        split <;> rfl
    exact (congrArg _ this).trans (h.aliases p)
  · obtain rfl | hx := List.mem_cons.mp hx
    · exact ht
    · exact h.tasks x hx

theorem filed_disconnected {s : DirectNet} (h : Filed P s) (q : String) (ep : Option DirectEndpoint)
    {tasks : List SessionTask} (hsub : ∀ t ∈ tasks, t ∈ s.tasks) {dialing : List String} :
    Filed P ⟨{ s.manager with direct := s.manager.direct.quicDisconnected q ep }, dialing, tasks⟩ :=
  ⟨fun p l hl => h.table p l (holder_disconnected hl), fun p => alias_disconnected (h.aliases p),
    fun t ht => h.tasks t (hsub t ht)⟩

theorem filed_dialAnswered {s s' : DirectNet} (h : Filed P s) {p : String} {link : Link} {id now : Nat}
    (hc : Proves P link p ∨ ∃ device, deviceFromCertDer P.build P.word link.cert = .ok (some device))
    (hrun : dialAnswered P s p link id now = .ok s') : Filed P s' := by
  unfold dialAnswered at hrun
  cases hid : peerIdOfCert P link.cert with
  | error f => simp [hid, bind, Except.bind] at hrun
  | ok actual =>
    cases hdev : deviceFromCertDer P.build P.word link.cert with
    | error f => simp [hid, hdev, bind, Except.bind] at hrun
    | ok device =>
      simp only [hid, hdev, bind, Except.bind, pure, Except.pure] at hrun
      split at hrun
      · obtain rfl := Except.ok.inj hrun
        exact filed_disconnected h p none fun _ ht => ht
      · rename_i hkeep
        obtain rfl := Except.ok.inj hrun
        refine filed_start h ?_ now
        -- a certificate that names a device is kept only for the peer it proves
        rcases hc with hc | ⟨d, hd⟩
        · exact hc
        · rw [hdev] at hd
          obtain rfl := Except.ok.inj hd
          have hactual : actual = some p := by
            by_contra hne
            exact hkeep ⟨hne, rfl⟩
          exact hid.trans (by rw [hactual])

theorem filed_incoming {s s' : DirectNet} (h : Filed P s) {link : Link} {id now : Nat}
    (hrun : incomingQuic P s link id now = .ok s') : Filed P s' := by
  unfold incomingQuic at hrun
  cases hid : peerIdOfCert P link.cert with
  | error f => simp [hid, bind, Except.bind] at hrun
  | ok actual =>
    cases actual with
    | none =>
      simp only [hid, bind, Except.bind, pure, Except.pure] at hrun
      exact Except.ok.inj hrun ▸ h
    | some p =>
      cases hdev : deviceFromCertDer P.build P.word link.cert with
      | error f => simp [hid, hdev, bind, Except.bind] at hrun
      | ok device =>
        simp only [hid, hdev, bind, Except.bind, pure, Except.pure] at hrun
        obtain rfl := Except.ok.inj hrun
        exact filed_start h (t := ⟨p, ⟨device, id⟩, link⟩) hid now

/-! ## The handshake -/

/-- A handshake message leaves the session tables alone or relabels the session it came on. -/
theorem handshake_direct {E : Env} {σ : ConnectionManager Link} {msg : SignalingMessage} {t : Transport}
    {r : ConnectionManager Link × List Effect} (hty : isHandshake msg.msgType = true) (h : handlePlain E σ msg t = some r) :
    r.1.direct = σ.direct ∨ Reaches E σ msg t ∧ ∃ claimed, relabelTarget E σ msg = some claimed ∧
      r.1.direct = t.quicPeerId.elim σ.direct fun current => σ.direct.relabelQuicPeerSession current claimed := by
  obtain ⟨-, replay, effects, hrun, -⟩ | ⟨hreach, replay, hrun⟩ := handlePlain_cases E σ msg t
  · obtain rfl := Option.some.inj (hrun.symm.trans h)
    exact Or.inl rfl
  · rw [hrun] at h
    simp only [isHandshake, Bool.or_eq_true, beq_iff_eq] at hty
    rcases hty with hty | hty
    · simp only [dispatch, hty, Option.some.injEq] at h
      subst h
      unfold inviteHandshakeInit
      dsimp only
      split
      · exact Or.inl rfl
      · rename_i hkey
        split
        · exact Or.inl rfl
        · rename_i hadm
          refine Or.inr ⟨hreach, (joinerOf E msg).peerId, ?_, rfl⟩
          have hor : (!(live E σ msg) && !alreadyTrusted σ.store msg.sender) ≠ true := hadm
          rw [← Bool.not_or, ne_eq, Bool.not_eq_true', Bool.not_eq_false] at hor
          simp only [relabelTarget, hty, admitted, hor, Bool.and_true]
          rw [if_pos]
          simpa using hkey
    · simp only [dispatch, hty, Option.some.injEq] at h
      subst h
      unfold inviteHandshakeAccept
      dsimp only
      cases hp : σ.pendingInvites.lookup (msg.payload.strOr "invite_id" "") with
      | none => exact Or.inl rfl
      | some pending =>
        dsimp only
        split
        · exact Or.inl rfl
        · rename_i hsame
          refine Or.inr ⟨hreach, _, ?_, rfl⟩
          simp only [relabelTarget, hty, inviteIdOf, hp]
          rw [if_neg hsame]

theorem relabel_noop {d : DirectSessions Link} {current claimed : String}
    (h : claimed = current ∨ claimed = "" ∨ claimed = d.ownPeerId) : d.relabelQuicPeerSession current claimed = d := by
  unfold DirectSessions.relabelQuicPeerSession
  rw [if_pos]
  rcases h with rfl | h | h
  · exact Or.inl rfl
  · exact Or.inr (Or.inl h)
  · exact Or.inr (Or.inr h)

theorem filed_manager {s : DirectNet} (h : Filed P s) {σ : ConnectionManager Link} (hd : σ.direct = s.manager.direct)
    {dialing : List String} : Filed P ⟨σ, dialing, s.tasks⟩ :=
  ⟨fun p l hl => h.table p l (hd ▸ hl), fun p => hd ▸ h.aliases p, h.tasks⟩

/-- Blocking a peer drops its sessions. -/
theorem filed_block {s : DirectNet} (h : Filed P s) (q : String) :
    Filed P { s with manager := { s.manager with direct := blockPeer s.manager.direct q } } := by
  refine ⟨fun p l hl => h.table p l (holder_modify (fun c hc => ?_) hl), h.aliases, h.tasks⟩
  rcases hc with hc | hc
  · simp [channels] at hc
  · cases hc

/-- **Every step that meets the condition keeps the tables filed right.** -/
theorem filed_step {s s' : DirectNet} {a : DirectAct} (h : Filed P s) (hc : Faithful P s a)
    (hstep : directStep P s a = some s') : Filed P s' := by
  cases a with
  | dial p =>
    obtain rfl := Option.some.inj hstep
    refine ⟨fun q l hl => h.table q l (holder_connect hl), fun q => ?_, h.tasks⟩
    have : (s.manager.direct.connectDirectQuic p).quicPeerAliases = s.manager.direct.quicPeerAliases := by
      unfold DirectSessions.connectDirectQuic
      split <;> rfl
    exact (congrArg _ this).trans (h.aliases q)
  | dialFailed p =>
    simp only [directStep] at hstep
    split at hstep
    · obtain rfl := Option.some.inj hstep
      exact filed_disconnected h p none fun _ ht => ht
    · cases hstep
  | dialAnswered p link id now =>
    simp only [directStep] at hstep
    split at hstep
    · generalize hr : dialAnswered P { s with dialing := s.dialing.erase p } p link id now = r at hstep
      cases r with
      | error f => cases hstep
      | ok x =>
        obtain rfl := Option.some.inj hstep
        exact filed_dialAnswered (filed_manager h rfl) hc hr
    · cases hstep
  | incoming link id now =>
    simp only [directStep] at hstep
    generalize hr : incomingQuic P s link id now = r at hstep
    cases r with
    | error f => cases hstep
    | ok x =>
      obtain rfl := Option.some.inj hstep
      exact filed_incoming h hr
  | ended task =>
    simp only [directStep] at hstep
    split at hstep
    · obtain rfl := Option.some.inj hstep
      exact filed_disconnected h task.startedAs (some task.endpoint) fun _ ht => List.mem_of_mem_erase ht
    · cases hstep
  | signal E task msg encrypted =>
    simp only [directStep] at hstep
    split at hstep
    · rename_i hguard
      obtain ⟨r, hr, rfl⟩ := Option.map_eq_some_iff.mp hstep
      refine filed_manager h ?_
      obtain hd | ⟨hreach, claimed, hcl, hd⟩ := handshake_direct hguard.2.2 hr
      · exact hd
      · rw [hd]
        exact relabel_noop (hc hreach claimed hcl)
    · cases hstep
  | relayed E msg sn encrypted =>
    simp only [directStep] at hstep
    split at hstep
    · rename_i hty
      obtain ⟨r, hr, rfl⟩ := Option.map_eq_some_iff.mp hstep
      refine filed_manager h ?_
      obtain hd | ⟨-, claimed, -, hd⟩ := handshake_direct hty hr
      · exact hd
      · exact hd
    · cases hstep
  | block p =>
    obtain rfl := Option.some.inj hstep
    exact filed_block h p
  | elsewhere σ =>
    obtain rfl := Option.some.inj hstep
    exact ⟨h.table, h.aliases, h.tasks⟩

end DirectIdentityAux

open DirectIdentityAux

/-- **A direct session belongs to the peer it is filed under**, in every state of every run that starts without sessions and
whose steps meet the condition. -/
theorem directSafe_of_faithful (P : Platform) (s₀ s : DirectNet) (acts : List DirectAct)
    (hpeers : s₀.manager.direct.peers = ∅) (haliases : s₀.manager.direct.quicPeerAliases = ∅) (htasks : s₀.tasks = [])
    (hmeets : Meets (directStep P) (Faithful P) s₀ acts) (hrun : run (directStep P) s₀ acts = some s) : DirectSafe P s := by
  refine directSafe_of_filed (meets_invariant (Filed P) (fun _ _ _ => filed_step) ⟨?_, ?_, ?_⟩ hmeets hrun)
  · rintro p l ⟨e, he, -⟩
    rw [hpeers] at he
    cases he
  · intro p
    rw [haliases]
    rfl
  · intro task htask
    rw [htasks] at htask
    cases htask

/-! ## The dialled peer answers, and somebody else does -/

/-- SHA-256 of the key of 32 zero bytes. -/
def zeroDigest : List UInt8 :=
  [0x66, 0x68, 0x7a, 0xad, 0xf8, 0x62, 0xbd, 0x77, 0x6c, 0x8f, 0xc1, 0x8b, 0x8e, 0x9f, 0x8e, 0x20, 0x08, 0x97, 0x14, 0x85,
    0x6e, 0xe2, 0x33, 0xb3, 0x90, 0x2a, 0x59, 0x1d, 0x0d, 0x5f, 0x29, 0x25]

/-- A 64-bit release build; SHA-256 is right at the zero key. -/
def zeroPlatform : Platform where
  build := .release
  word := .w64
  sha256 bytes := if bytes = List.replicate 32 0 then zeroDigest else []

/-- The peer id of the zero key. -/
def zeroPeerId : String := "66687aadf862bd776c8fc18b8e9f8e20089714856ee233b3902a591d0d5f2925"

/-- The CN of a certificate of the zero key, without a device. -/
def zeroLink : Link := ⟨1, [0x55, 0x04, 0x03, 0x0C, 0x40] ++ List.replicate 64 0x30⟩

/-- A client without sessions. -/
def idleNet : DirectNet where
  manager :=
    { publicId := "me"
      direct := ⟨"me-hex", none, ∅, ∅⟩
      store := ∅
      pendingInvites := ∅
      issuedInvites := ∅
      replay := ∅ }
  dialing := []
  tasks := []

theorem zeroLink_proves : Proves zeroPlatform zeroLink zeroPeerId := by
  unfold Proves
  rfl

theorem directSafe_dialled :
    ∃ s, run (directStep zeroPlatform) idleNet [.dial zeroPeerId, .dialAnswered zeroPeerId zeroLink 7 0] = some s ∧
      DirectSafe zeroPlatform s := by
  refine ⟨_, rfl, directSafe_of_faithful zeroPlatform idleNet _ [.dial zeroPeerId, .dialAnswered zeroPeerId zeroLink 7 0]
    rfl rfl rfl ?_ rfl⟩
  exact ⟨trivial, fun _ _ => ⟨Or.inl zeroLink_proves, fun _ _ => trivial⟩⟩

/-- Whoever answers a dial to the peer `b2` with a certificate of the zero key is sent what is meant for `b2`. -/
theorem directSafe_fails_mismatch :
    ∃ s, run (directStep zeroPlatform) idleNet [.dial "b2", .dialAnswered "b2" zeroLink 7 0] = some s ∧
      ¬DirectSafe zeroPlatform s := by
  refine ⟨_, rfl, fun h => ?_⟩
  have hproves : Proves zeroPlatform zeroLink "b2" := h.frames "b2" none zeroLink (by decide)
  have := zeroLink_proves.symm.trans hproves
  exact absurd this (by decide)

end DoubleSlash.Manager
