import DoubleSlash.Manager.State

/-!
# Invites

Issued invites (`manager/invite.rs`) and the handlers of the invite handshake (`manager/inbound.rs`). The inviter's side admits
a joiner who presents an invite it issued; the joiner's side completes an invite it accepted.
-/

namespace DoubleSlash.Manager

open Protocol Store Direct Assoc Text

/-- The invite a message names. -/
def inviteIdOf (msg : SignalingMessage) : String :=
  msg.payload.strOr "invite_id" ""

/-- `parse_quic_lan_hint`. -/
def parseQuicLanHint (E : Env) (hint : String) : Option (String × Nat) :=
  let trimmed := trim hint.toList
  if trimmed = [] then none
  else
    let withoutScheme := (trimmed.dropPrefix? "quic://".toList).elim
      ((trimmed.dropPrefix? "udp://".toList).elim trimmed id) id
    let authority := withoutScheme.takeWhile fun c => c != '/' && c != '?' && c != '#'
    if authority = [] then none
    else
      match E.parseSocketAddr (String.ofList authority) with
      | some addr => some addr
      | none => do
        let (host, port) ← rsplitOnce ':' authority
        let bracket := fun c => c == '[' || c == ']'
        let host := (host.dropWhile bracket).rdropWhile bracket
        let port ← parseU16 port
        if host = [] ∨ port = 0 then none else some (String.ofList host, port)

/-! ## Issued invites -/

/-- `MAX_ISSUED_INVITES`. -/
def maxIssuedInvites : Nat := 256

/-- How long an invite lives, in seconds. -/
def issuedInviteLifeSecs : Nat := 900

/-- `iter().min_by_key(|(_, exp)| exp)`: the first of the entries that expire soonest. -/
def soonest (m : HashMap String Nat) : Option String :=
  (m.entries.minOn? fun e => e.2).map Sigma.fst

/-- `record_issued_invite`. -/
def recordIssuedInvite (m : HashMap String Nat) (now : Nat) (inviteId : String) (expiresAt : Nat) : HashMap String Nat :=
  let m : HashMap String Nat := retain m fun _ exp => decide (now ≤ exp)
  let m :=
    if maxIssuedInvites ≤ m.entries.length then
      match soonest m with
      | some id => m.erase id
      | none => m
    else m
  m.insert inviteId expiresAt

/-- `redeem_issued_invite`: the entry goes whether or not it is still live. -/
def redeemIssuedInvite (m : HashMap String Nat) (now : Nat) (inviteId : String) : HashMap String Nat × Bool :=
  (m.erase inviteId, (m.lookup inviteId).any fun expiresAt => decide (now ≤ expiresAt))

section

variable {S : Type} [DecidableEq S]

/-- `generate_invite_url`, at the state: the invite is recorded with its expiry. -/
def generateInviteUrl (E : Env) (σ : ConnectionManager S) (inviteId : String) : ConnectionManager S :=
  { σ with issuedInvites := recordIssuedInvite σ.issuedInvites E.now inviteId (E.now + issuedInviteLifeSecs) }

/-! ## The inviter's side -/

/-- What an INIT says about its sender. -/
structure Joiner where
  inviteId : String
  identityPub : String
  peerId : String
  handle : String
  quicPort : Nat
  lanHint : String
  publicHint : String

/-- The fields of an INIT. The joiner names its own peer id; without one it is its public id. -/
def joinerOf (E : Env) (msg : SignalingMessage) : Joiner where
  inviteId := msg.payload.strOr "invite_id" ""
  identityPub := msg.sender
  peerId := msg.payload.strOr "joiner_peer_id" msg.sender
  handle := msg.payload.strOr "joiner_handle" ""
  quicPort := (((msg.payload.get "joiner_quic_port").bind Json.asU64).filter (· < 2 ^ 16)).getD 0
  lanHint := (((msg.payload.get "joiner_lan_hint").bind Json.asStr).filter fun h => (parseQuicLanHint E h).isSome).getD ""
  publicHint :=
    (((msg.payload.get "joiner_public_hint").bind Json.asStr).filter fun h => (parseQuicLanHint E h).isSome).getD ""

/-- The joiner's identity is one we trust as a peer. -/
def alreadyTrusted (store : PeerStore) (identityPub : String) : Bool :=
  (store.findIdentity identityPub).any fun r => !r.blocked && !r.revoked && !r.isSupernode

/-- The id the joiner claims is the key of another identity's record. -/
def keyTaken (store : PeerStore) (j : Joiner) : Bool :=
  (store.get j.peerId).any fun r => bare r.identityPub != bare j.identityPub

/-- An INIT presents a live invite of ours. -/
def live (E : Env) (σ : ConnectionManager S) (msg : SignalingMessage) : Bool :=
  (σ.issuedInvites.lookup (inviteIdOf msg)).any fun expiresAt => decide (E.now ≤ expiresAt)

/-- An INIT passes the checks of its handler. -/
def admitted (E : Env) (σ : ConnectionManager S) (msg : SignalingMessage) : Bool :=
  !keyTaken σ.store (joinerOf E msg) && (live E σ msg || alreadyTrusted σ.store msg.sender)

/-- Append a hint unless it is empty or there already. -/
def pushHint (hint : String) (hints : List String) : List String :=
  if hint ≠ "" ∧ hint ∉ hints then hints ++ [hint] else hints

/-- What an INIT changes in a record that is already there. -/
def refreshJoiner (E : Env) (j : Joiner) (r : PeerRecord) : PeerRecord :=
  { r with
    lastSeenAt := E.now
    autoConnect := true
    handle := if j.handle ≠ "" then j.handle else r.handle
    quicPort := if j.quicPort ≠ 0 then j.quicPort else r.quicPort
    relayHints := pushHint j.publicHint (pushHint j.lanHint r.relayHints) }

/-- The record an INIT makes of a joiner without one. -/
def newJoiner (E : Env) (j : Joiner) : PeerRecord where
  peerId := j.peerId
  identityPub := j.identityPub
  handle := j.handle
  relayHints := [j.lanHint, j.publicHint].filter (· != "")
  autoConnect := true
  quicPort := j.quicPort
  createdAt := E.now
  lastSeenAt := E.now

/-- The store once a joiner is admitted. -/
def admitJoiner (E : Env) (store : PeerStore) (j : Joiner) : PeerStore :=
  match store.get j.peerId with
  | some r => store.insert j.peerId (refreshJoiner E j r)
  | none => store.upsert (newJoiner E j)

/-- The reason `send_invite_reject` gives. -/
def inviteRejectReason : String :=
  "the inviter does not recognise this invite — it may have expired, been used already, or been created before they restarted"

/-- A direct session with the peer is up. -/
def directConnected (d : DirectSessions S) (peerId : String) : Bool :=
  (d.peers.lookup peerId).any fun p => p.state == .connected

/-- `handle_inbound_inner` at `InviteHandshakeInit`. -/
def inviteHandshakeInit (E : Env) (σ : ConnectionManager S) (msg : SignalingMessage) (t : Transport) :
    ConnectionManager S × List Effect :=
  let j := joinerOf E msg
  if keyTaken σ.store j then (σ, [.cut j.identityPub 8])
  else
    let trusted := alreadyTrusted σ.store j.identityPub
    let (issuedInvites, issued) := redeemIssuedInvite σ.issuedInvites E.now j.inviteId
    let σ := { σ with issuedInvites := issuedInvites }
    if !issued && !trusted then
      (σ, [.cut j.identityPub 8, .cut j.inviteId 8,
        .send j.identityPub .inviteHandshakeReject
          [("invite_id", .str j.inviteId), ("reason", .str inviteRejectReason)]])
    else
      let direct := t.quicPeerId.elim σ.direct fun current => σ.direct.relabelQuicPeerSession current j.peerId
      let target := if directConnected direct j.peerId then j.peerId else j.identityPub
      ({ σ with direct := direct, store := admitJoiner E σ.store j },
        [.cut j.identityPub 8, .cut j.inviteId 8,
          .send target .inviteHandshakeAccept
            ([("invite_id", .str j.inviteId), ("inviter_peer_id", .str σ.direct.ownPeerId),
              ("inviter_identity_pub", .str σ.publicId)] ++
              if E.displayHandle ≠ "" then [("inviter_handle", .str E.displayHandle)] else []),
          .sendHandleUpdate target, .sendLocalAvatarConfig target,
          .emit (.peerConnected j.peerId), .emit (.inviteAccepted j.peerId j.handle)])

/-! ## The joiner's side -/

/-- The inviter's record, from its ACCEPT and the invite that was pending. -/
def inviterRecord (E : Env) (store : PeerStore) (pending : PendingInvite) (identityPub peerId handle : String) : PeerRecord :=
  let prior := ((store.get peerId).or (store.getByIdentity identityPub)).elim "" PeerRecord.handle
  { peerId := peerId
    identityPub := identityPub
    handle := if handle ≠ "" then handle else prior
    relayHints := if pending.relayHint = "" then [] else [pending.relayHint]
    autoConnect := !pending.isSupernode
    quicPort := (parseQuicLanHint E pending.lanHint).elim 0 Prod.snd
    isSupernode := pending.isSupernode
    supernodeFromInvite := pending.isSupernode
    createdAt := E.now
    lastSeenAt := E.now }

/-- `handle_inbound_inner` at `InviteHandshakeAccept`. What it compares with the pending invite are the payload's claims; the
signer is only their default. -/
def inviteHandshakeAccept (E : Env) (σ : ConnectionManager S) (msg : SignalingMessage) (t : Transport) :
    ConnectionManager S × List Effect :=
  let inviteId := msg.payload.strOr "invite_id" ""
  let identityPub := msg.payload.strOr "inviter_identity_pub" msg.sender
  let peerId := msg.payload.strOr "inviter_peer_id" identityPub
  let handle := msg.payload.strOr "inviter_handle" ""
  match σ.pendingInvites.lookup inviteId with
  | none => (σ, [])
  | some pending =>
    -- the entry is gone before anything is compared
    let σ := { σ with pendingInvites := σ.pendingInvites.erase inviteId }
    if identityPub ≠ pending.inviterIdentityPub ∨ peerId ≠ pending.inviterPeerId then
      (σ, [.cut pending.inviterIdentityPub 8, .cut pending.inviterPeerId 8, .cut identityPub 8, .cut peerId 8])
    else
      let direct := t.quicPeerId.elim σ.direct fun current => σ.direct.relabelQuicPeerSession current peerId
      let target := if directConnected direct peerId then peerId else identityPub
      ({ σ with
          direct := direct
          store := σ.store.upsertFromInvite (inviterRecord E σ.store pending identityPub peerId handle) },
        [.cut identityPub 8, .cut inviteId 8, .sendHandleUpdate target, .sendLocalAvatarConfig target,
          .emit (.peerConnected peerId), .emit (.inviteAccepted peerId handle)])

/-- The id a handshake message that passes the checks of its handler files its session under. -/
def relabelTarget (E : Env) (σ : ConnectionManager S) (msg : SignalingMessage) : Option String :=
  match msg.msgType with
  | .inviteHandshakeInit => if admitted E σ msg then some (joinerOf E msg).peerId else none
  | .inviteHandshakeAccept =>
    let identityPub := msg.payload.strOr "inviter_identity_pub" msg.sender
    let peerId := msg.payload.strOr "inviter_peer_id" identityPub
    match σ.pendingInvites.lookup (inviteIdOf msg) with
    | none => none
    | some pending =>
      if identityPub ≠ pending.inviterIdentityPub ∨ peerId ≠ pending.inviterPeerId then none else some peerId
  | _ => none

end

end DoubleSlash.Manager
