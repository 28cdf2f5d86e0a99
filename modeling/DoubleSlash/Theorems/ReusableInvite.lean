import DoubleSlash.Supernode.Handshake
import DoubleSlash.Theorems.SpaceConvergence

/-!
# The reusable invite

What a start of the node makes of the file decides how long the invite it hands out works: it does until it expires, if the file was
this identity's own or a new one was minted.
-/

namespace DoubleSlash.Supernode

open Assoc Codec Protocol

variable {I : Type}

namespace HandshakeManager

/-- An INIT with everything an INIT needs, for an invite. -/
structure WellFormedInit (C : InviteCrypto I) (m : HandshakeManager I) (invite : InvitePayload) (init : Json) : Prop where
  inviteId : (init.get "invite_id").bind Json.asStr = some invite.inviteId
  identity : ((init.get "joiner_identity_pub").bind Json.asStr).isSome = true
  peer : ((init.get "joiner_peer_id").bind Json.asStr).isSome = true
  point : ∃ b64 bytes, (init.get "joiner_ephemeral_pub").bind Json.asStr = some b64 ∧ b64urlDecode b64 = some bytes ∧
    bytes.length = 32 ∧ ∀ p, m.pending.lookup invite.inviteId = some p → (C.x25519Exchange p.ephemeralSecret bytes).all (· == 0) = false

/-- What is due of the invite that is handed out. -/
structure Works (C : InviteCrypto I) (m : HandshakeManager I) (invite : InvitePayload) (now : Int) : Prop where
  identity : invite.inviterIdentityPub = C.publicId m.settings.identity ∧ invite.inviterPeerId = C.peerId m.settings.identity
  address : invite.relayHint = some m.settings.listenerUrl
  verifies : invite.verify C.ed25519Verify = true
  pending : ∃ p, m.pending.lookup invite.inviteId = some p ∧
    b64urlDecode invite.inviterEphemeralPub = some (C.x25519Public p.ephemeralSecret)
  answers : ∀ init, WellFormedInit C m invite init → ∃ accepted, m.processInit C init now = .ok accepted

/-- The invite and the secret that a start takes from the file. -/
def restorable (settings : NodeSettings I) (file : Option Json) : Option (InvitePayload × List UInt8) :=
  (readSaved file).filter fun saved => addressMatches settings saved.1 || nameMatches settings saved.1

/-- The saved invite is handed out as it is. -/
def keptAsIs (settings : NodeSettings I) (invite : InvitePayload) : Prop :=
  addressMatches settings invite = true ∧ invite.supernodeRelayHints = settings.hostnameHints

/-- What a file has to hold for the node that is started on it. -/
structure FitsNode (C : InviteCrypto I) (settings : NodeSettings I) (invite : InvitePayload) (secret : List UInt8) : Prop where
  identity : invite.inviterIdentityPub = C.publicId settings.identity ∧ invite.inviterPeerId = C.peerId settings.identity
  secret : b64urlDecode invite.inviterEphemeralPub = some (C.x25519Public secret)
  signed : keptAsIs settings invite → invite.verify C.ed25519Verify = true

/-- The invite of the file fits the node and is not expired; or a new one was minted, and that is not expired. -/
def Usable (C : InviteCrypto I) (file : Option Json) (start : Start I) (now : Int) : Prop :=
  (∀ invite secret, restorable start.settings file = some (invite, secret) →
    FitsNode C start.settings invite secret ∧ now ≤ invite.expiresAt) ∧
  (restorable start.settings file = none → now ≤ mintedExpiry start.settings start.draw.now)

namespace ReusableInviteAux

open SpaceConvergenceAux

variable {C : InviteCrypto I}

/-! ## Signing and answering -/

theorem verify_sign {p : InvitePayload} {identity : I} (h : p.inviterIdentityPub = C.publicId identity) :
    (p.sign C identity).verify C.ed25519Verify = true := by
  have hcanonical : (p.sign C identity).canonicalBytes = p.canonicalBytes := rfl
  have hsignature : (p.sign C identity).signature = some (b64urlEncode (C.sign identity p.canonicalBytes)) := rfl
  have hpub : (p.sign C identity).inviterIdentityPub = b64urlEncode (C.publicKey identity) := h
  unfold InvitePayload.verify
  simp only [hcanonical, hsignature, hpub, Option.bind_some, decode_encode]
  unfold verifyWithPub
  rw [C.length_publicKey, C.length_sign, C.verify_sign]
  rfl

/-- An INIT with all it needs, for any invite. -/
theorem exists_wellFormedInit (C : InviteCrypto I) (m : HandshakeManager I) (invite : InvitePayload) :
    ∃ init, WellFormedInit C m invite init := by
  have hpoint : ∃ point : List UInt8, point.length = 32 ∧
      ∀ p, m.pending.lookup invite.inviteId = some p → (C.x25519Exchange p.ephemeralSecret point).all (· == 0) = false := by
    cases hlookup : m.pending.lookup invite.inviteId with
    | none => exact ⟨List.replicate 32 0, rfl, fun p hp => by cases hp⟩
    | some p =>
      obtain ⟨point, hlen, hzero⟩ := C.contributory p.ephemeralSecret
      exact ⟨point, hlen, fun q hq => Option.some.inj hq ▸ hzero⟩
  obtain ⟨point, hlen, hzero⟩ := hpoint
  refine ⟨.obj [("invite_id", .str invite.inviteId), ("joiner_ephemeral_pub", .str (b64urlEncode point)),
    ("joiner_identity_pub", .str ""), ("joiner_peer_id", .str "")], rfl, rfl, rfl, b64urlEncode point, point, rfl, decode_encode point, hlen, hzero⟩

/-- A well-formed INIT is accepted exactly until the pending entry expires. -/
theorem processInit_ok_iff {m : HandshakeManager I} {invite : InvitePayload} {init : Json} {p : PendingHandshake} {now : Int}
    (hinit : WellFormedInit C m invite init) (hp : m.pending.lookup invite.inviteId = some p) :
    (∃ accepted, m.processInit C init now = .ok accepted) ↔ now ≤ p.expiresAt := by
  obtain ⟨b64, bytes, hb64, hdecode, hlen, hzero⟩ := hinit.point
  obtain ⟨identity, hidentity⟩ := Option.isSome_iff_exists.mp hinit.identity
  obtain ⟨peer, hpeer⟩ := Option.isSome_iff_exists.mp hinit.peer
  unfold processInit orError
  simp only [hinit.inviteId, hp, hidentity, hpeer, hb64, hdecode, hlen, hzero p hp, bind, Except.bind, ne_eq, not_true_eq_false,
    if_false, Bool.false_eq_true]
  by_cases hexpired : p.expiresAt < now
  · rw [if_pos hexpired]
    constructor
    · rintro ⟨accepted, h⟩
      cases h
    · intro h
      omega
  · rw [if_neg hexpired]
    exact ⟨fun _ => Int.not_lt.mp hexpired, fun _ => ⟨_, rfl⟩⟩

/-- An invite with its entry works exactly if it names the node, verifies, belongs to the entry, and the entry is not expired. -/
theorem works_iff {m : HandshakeManager I} {invite : InvitePayload} {p : PendingHandshake} {now : Int}
    (hp : m.pending.lookup invite.inviteId = some p) (haddress : invite.relayHint = some m.settings.listenerUrl) :
    Works C m invite now ↔
      (invite.inviterIdentityPub = C.publicId m.settings.identity ∧ invite.inviterPeerId = C.peerId m.settings.identity) ∧
        invite.verify C.ed25519Verify = true ∧ b64urlDecode invite.inviterEphemeralPub = some (C.x25519Public p.ephemeralSecret) ∧
        now ≤ p.expiresAt := by
  constructor
  · intro h
    obtain ⟨q, hq, hpublic⟩ := h.pending
    rw [hp] at hq
    obtain ⟨init, hinit⟩ := exists_wellFormedInit C m invite
    rw [← Option.some.inj hq] at hpublic
    exact ⟨h.identity, h.verifies, hpublic, (processInit_ok_iff hinit hp).mp (h.answers init hinit)⟩
  · rintro ⟨hidentity, hverifies, hpublic, hnow⟩
    exact
      { identity := hidentity
        address := haddress
        verifies := hverifies
        pending := ⟨p, hp, hpublic⟩
        answers := fun init hinit => (processInit_ok_iff hinit hp).mpr hnow }

/-! ## A start -/

theorem load_of_none {settings : NodeSettings I} {file : Option Json} (h : restorable settings file = none) (writes : Bool) :
    (new settings).loadReusableInvite C file writes = (new settings, false, file) := by
  unfold loadReusableInvite
  unfold restorable at h
  cases hread : readSaved file with
  | none => rfl
  | some saved =>
    obtain ⟨invite, secret⟩ := saved
    rw [hread, Option.filter_eq_none_iff] at h
    have hno := h (invite, secret) rfl
    rw [Bool.or_eq_true, not_or, Bool.not_eq_true, Bool.not_eq_true] at hno
    exact if_pos hno

/-- The invite that is handed out when one was restored. -/
def restored (C : InviteCrypto I) (settings : NodeSettings I) (invite : InvitePayload) : InvitePayload :=
  if addressMatches settings invite = true ∧ invite.supernodeRelayHints = settings.hostnameHints then invite
  else
    ({ invite with relayHint := some settings.listenerUrl, supernodeRelayHints := settings.hostnameHints,
                   signature := none } : InvitePayload).sign C settings.identity

theorem load_of_some {settings : NodeSettings I} {file : Option Json} {invite : InvitePayload} {secret : List UInt8}
    (h : restorable settings file = some (invite, secret)) (writes : Bool) :
    ∃ file', (new settings).loadReusableInvite C file writes =
      ({ (new settings).restorePending C invite.inviteId secret invite.expiresAt with
          reusableInvite := some (restored C settings invite) }, true, file') := by
  unfold restorable at h
  obtain ⟨hread, hmatch⟩ := Option.filter_eq_some_iff.mp h
  have hsome : ¬ (addressMatches (new settings).settings invite = false ∧ nameMatches (new settings).settings invite = false) := by
    rintro ⟨haddress, hname⟩
    have hnone : (addressMatches settings invite || nameMatches settings invite) = false := Bool.or_eq_false_iff.mpr ⟨haddress, hname⟩
    exact Bool.false_ne_true (hnone.symm.trans hmatch)
  unfold loadReusableInvite restored
  rw [hread]
  simp only
  rw [if_neg hsome]
  by_cases hkept : addressMatches settings invite = true ∧ invite.supernodeRelayHints = settings.hostnameHints
  · rw [if_pos hkept]
    exact ⟨_, if_pos hkept⟩
  · rw [if_neg hkept]
    exact ⟨_, if_neg hkept⟩

theorem restored_fields (settings : NodeSettings I) (invite : InvitePayload) :
    (restored C settings invite).inviteId = invite.inviteId ∧
      (restored C settings invite).inviterIdentityPub = invite.inviterIdentityPub ∧
      (restored C settings invite).inviterPeerId = invite.inviterPeerId ∧
      (restored C settings invite).inviterEphemeralPub = invite.inviterEphemeralPub ∧
      (restored C settings invite).relayHint = some settings.listenerUrl := by
  unfold restored
  by_cases hkept : addressMatches settings invite = true ∧ invite.supernodeRelayHints = settings.hostnameHints
  · rw [if_pos hkept]
    exact ⟨rfl, rfl, rfl, rfl, eq_of_beq hkept.1⟩
  · rw [if_neg hkept]
    exact ⟨rfl, rfl, rfl, rfl, rfl⟩

/-- A restored invite verifies if it was signed anew, or verified before. -/
theorem verify_restored {settings : NodeSettings I} {invite : InvitePayload}
    (hidentity : invite.inviterIdentityPub = C.publicId settings.identity) :
    (restored C settings invite).verify C.ed25519Verify = true ↔
      (keptAsIs settings invite → invite.verify C.ed25519Verify = true) := by
  unfold restored
  by_cases hkept : addressMatches settings invite = true ∧ invite.supernodeRelayHints = settings.hostnameHints
  · rw [if_pos hkept]
    exact ⟨fun h _ => h, fun h => h hkept⟩
  · rw [if_neg hkept]
    exact ⟨fun _ h => absurd h hkept, fun _ => verify_sign hidentity⟩

/-- With an invite restored, what is handed out works if the file fits the node and has not expired. -/
theorem works_restored {file : Option Json} {start : Start I} {invite : InvitePayload} {secret : List UInt8}
    (h : restorable start.settings file = some (invite, secret)) (draw : Draw) (handle : Option String) (now : Int) :
    (Works C (startUp C file start).1 ((startUp C file start).1.getOrCreateReusableInvite C draw handle).2 now ↔
      FitsNode C start.settings invite secret ∧ now ≤ invite.expiresAt) ∧
      ((startUp C file start).1.getOrCreateReusableInvite C draw handle).1 = (startUp C file start).1 := by
  obtain ⟨file', hload⟩ := load_of_some (C := C) h start.writes
  have hstart : (startUp C file start).1 =
      { (new start.settings).restorePending C invite.inviteId secret invite.expiresAt with
          reusableInvite := some (restored C start.settings invite) } := by
    unfold startUp
    rw [hload]
  rw [hstart]
  refine ⟨?_, rfl⟩
  show Works C _ (restored C start.settings invite) now ↔ _
  obtain ⟨hid, hpub, hpeer, hephemeral, haddress⟩ := restored_fields (C := C) start.settings invite
  have hlookup : ((new start.settings).restorePending C invite.inviteId secret invite.expiresAt).pending.lookup
      (restored C start.settings invite).inviteId =
        some { ephemeralSecret := secret, ephemeralPublic := C.x25519Public secret, expiresAt := invite.expiresAt } := by
    rw [hid]
    exact AList.lookup_insert _
  refine (works_iff (m := { (new start.settings).restorePending C invite.inviteId secret invite.expiresAt with
      reusableInvite := some (restored C start.settings invite) }) hlookup haddress).trans ?_
  rw [hpub, hpeer, hephemeral]
  constructor
  · rintro ⟨hidentity, hverify, hsecret, hnow⟩
    exact ⟨⟨hidentity, hsecret, (verify_restored hidentity.1).mp hverify⟩, hnow⟩
  · rintro ⟨hfits, hnow⟩
    exact ⟨hfits.identity, (verify_restored hfits.identity.1).mpr hfits.signed, hfits.secret, hnow⟩

/-- With nothing restored, what is handed out was minted at start-up and works until it expires. -/
theorem works_minted {file : Option Json} {start : Start I} (h : restorable start.settings file = none) (draw : Draw)
    (handle : Option String) (now : Int) :
    (Works C (startUp C file start).1 ((startUp C file start).1.getOrCreateReusableInvite C draw handle).2 now ↔
      now ≤ mintedExpiry start.settings start.draw.now) ∧
      ((startUp C file start).1.getOrCreateReusableInvite C draw handle).1 = (startUp C file start).1 := by
  have hstart : (startUp C file start).1 =
      ((new start.settings).getOrCreateReusableInvite C start.draw (some start.settings.webTitle)).1 := by
    unfold startUp
    rw [load_of_none h]
  rw [hstart]
  refine ⟨?_, rfl⟩
  show Works C _ ((new start.settings).createInvite C start.draw (some start.settings.webTitle)).2 now ↔ _
  have hlookup : ((new start.settings).createInvite C start.draw (some start.settings.webTitle)).1.pending.lookup start.draw.inviteId =
      some { ephemeralSecret := start.draw.secret, ephemeralPublic := C.x25519Public start.draw.secret,
             expiresAt := mintedExpiry start.settings start.draw.now } := AList.lookup_insert _
  refine (works_iff hlookup rfl).trans ?_
  constructor
  · rintro ⟨-, -, -, hnow⟩
    exact hnow
  · intro hnow
    exact ⟨⟨rfl, rfl⟩, verify_sign rfl, decode_encode _, hnow⟩

end ReusableInviteAux

open ReusableInviteAux in
/-- After any number of starts on any file, the next start hands out an invite that works, whoever asks and however often, exactly
while the invite it found fits the node and is not expired, or the one it minted is not. -/
theorem reusable_invite_works_iff (C : InviteCrypto I) (file : Option Json) (earlier : List (Start I)) (start : Start I) (draw : Draw)
    (handle : Option String) (now : Int) :
    (Works C (startUp C (fileAfter C file earlier) start).1
        ((startUp C (fileAfter C file earlier) start).1.getOrCreateReusableInvite C draw handle).2 now ↔
      Usable C (fileAfter C file earlier) start now) ∧
      ((startUp C (fileAfter C file earlier) start).1.getOrCreateReusableInvite C draw handle).1 =
        (startUp C (fileAfter C file earlier) start).1 := by
  unfold Usable
  generalize fileAfter C file earlier = found
  cases hrestorable : restorable start.settings found with
  | none =>
    obtain ⟨hworks, hsame⟩ := works_minted (C := C) hrestorable draw handle now
    refine ⟨hworks.trans ⟨fun hnow => ⟨?_, fun _ => hnow⟩, fun h => h.2 rfl⟩, hsame⟩
    intro _ _ h
    cases h
  | some saved =>
    obtain ⟨invite, secret⟩ := saved
    obtain ⟨hworks, hsame⟩ := works_restored (C := C) hrestorable draw handle now
    refine ⟨hworks.trans ⟨fun hfits => ⟨?_, ?_⟩, fun h => h.1 invite secret rfl⟩, hsame⟩
    · intro other otherSecret h
      obtain ⟨rfl, rfl⟩ := Prod.mk.inj (Option.some.inj h)
      exact hfits
    · intro h
      cases h

/-! ## A restart after the expiry -/

/-- One identity, whose points are the secrets themselves. -/
def plainCrypto : InviteCrypto Unit where
  publicKey _ := List.replicate 32 0
  sign _ _ := List.replicate 64 0
  ed25519Verify _ _ _ := true
  x25519Public secret := secret
  x25519Exchange _ point := point
  sha256Hex _ := ""
  hkdf ikm := ikm
  length_publicKey _ := rfl
  length_sign _ _ := rfl
  verify_sign _ _ := rfl
  contributory _ := ⟨List.replicate 32 1, rfl, rfl⟩

/-- A start of a node whose invites last an hour. -/
def hourlyStart (now : Int) : Start Unit where
  settings :=
    { identity := (), listenerUrl := "ws://10.0.0.1:9000", inviteTtlSeconds := 3600, turnHints := none, hostnameHints := none,
      nodeTitle := "node", webTitle := "node" }
  draw := { now, inviteId := "i1", secret := List.replicate 32 7 }
  writes := true

open ReusableInviteAux in
/-- The node is started at 0 and again at 7200 with nothing changed. What it hands out then expired at 3600: there is an INIT with all it
needs that is refused. -/
theorem restart_hands_out_expired :
    ¬ Works plainCrypto (startUp plainCrypto (fileAfter plainCrypto none [hourlyStart 0]) (hourlyStart 7200)).1
      ((startUp plainCrypto (fileAfter plainCrypto none [hourlyStart 0]) (hourlyStart 7200)).1.getOrCreateReusableInvite plainCrypto
        (hourlyStart 7200).draw none).2 7200 := by
  have hexpires : ((restorable (hourlyStart 7200).settings (fileAfter plainCrypto none [hourlyStart 0])).map
      fun saved => saved.1.expiresAt) = some 3600 := by decide +kernel
  obtain ⟨⟨invite, secret⟩, hrestorable, hexpiry⟩ := Option.map_eq_some_iff.mp hexpires
  intro hworks
  have hnow := ((works_restored hrestorable (hourlyStart 7200).draw none 7200).1.mp hworks).2
  rw [show invite.expiresAt = 3600 from hexpiry] at hnow
  exact absurd hnow (by decide)

end HandshakeManager

end DoubleSlash.Supernode
