import DoubleSlash.Lib.Bytes
import DoubleSlash.Lib.Offsets
import DoubleSlash.Protocol.JsonValue
import DoubleSlash.Supernode.Frames
import DoubleSlash.Supernode.RoomHandlers

/-!
# Invites of a supernode

`handshake.rs`: an invite and its signature, the invite that a node hands out again and again, which is kept in a file across restarts,
and the answer to an INIT. Times are whole seconds. Ed25519, X25519, SHA-256, HKDF and what is drawn at random are parameters. A file is
the JSON value it holds, or nothing where it cannot be read.
-/

namespace DoubleSlash.Supernode

open Assoc Codec Protocol Text

/-- `Value::as_i64`. -/
def asI64 : Json → Option Int
  | .int n => if -2 ^ 63 ≤ n ∧ n < 2 ^ 63 then some n else none
  | _ => none

/-- An `i64` sum, which wraps in a release build. -/
def wrapI64 (n : Int) : Int := (n + 2 ^ 63) % 2 ^ 64 - 2 ^ 63

/-- `InvitePayload`. -/
structure InvitePayload where
  inviterPeerId : String
  inviterIdentityPub : String
  inviteId : String
  expiresAt : Int
  inviterEphemeralPub : String
  relayHint : Option String
  inviterHandle : Option String
  udpHolePunchHint : Option String
  lanHint : Option String
  isSupernode : Option Bool
  supernodeInfo : Option (List Json)
  supernodeRelayHints : Option (List String)
  stunHints : Option (List String)
  turnHints : Option (List String)
  signature : Option String

/-- What the handshake takes from outside. `I` is an identity with its key. -/
structure InviteCrypto (I : Type) where
  /-- `verifying_key.as_bytes()`. -/
  publicKey : I → List UInt8
  /-- `Identity::sign`. -/
  sign : I → List UInt8 → List UInt8
  ed25519Verify : Ed25519
  /-- `x25519_dalek::PublicKey::from`. -/
  x25519Public : List UInt8 → List UInt8
  /-- `x25519_exchange`. -/
  x25519Exchange : List UInt8 → List UInt8 → List UInt8
  sha256Hex : List UInt8 → String
  /-- `hkdf_sha256(ikm, SESSION_KEY_INFO, 32)`. -/
  hkdf : List UInt8 → List UInt8
  length_publicKey : ∀ i, (publicKey i).length = 32
  length_sign : ∀ i data, (sign i data).length = 64
  /-- A signature verifies under the key that made it. -/
  verify_sign : ∀ i data, ed25519Verify (publicKey i) (sign i data) data = true
  /-- Some point is of no low order: no secret is zero with it. -/
  contributory : ∀ secret, ∃ point : List UInt8, point.length = 32 ∧ (x25519Exchange secret point).all (· == 0) = false

section

variable {I : Type} (C : InviteCrypto I)

/-- `public_id`. -/
def InviteCrypto.publicId (identity : I) : String := b64urlEncode (C.publicKey identity)

/-- `peer_id`. -/
def InviteCrypto.peerId (identity : I) : String := C.sha256Hex (C.publicKey identity)

/-! ## The payload -/

namespace InvitePayload

/-- A field that is `null` without a value. -/
def orNull {α : Type} (write : α → Json) (v : Option α) : Json := v.elim .null write

def texts (items : List String) : Json := .arr (items.map Json.str)

/-- `canonical_bytes`. -/
def canonicalBytes (p : InvitePayload) : List UInt8 :=
  (Json.obj
    [("expires_at", .int p.expiresAt), ("invite_id", .str p.inviteId), ("inviter_ephemeral_pub", .str p.inviterEphemeralPub),
      ("inviter_handle", orNull Json.str p.inviterHandle), ("inviter_identity_pub", .str p.inviterIdentityPub),
      ("inviter_peer_id", .str p.inviterPeerId), ("is_supernode", orNull Json.bool p.isSupernode),
      ("lan_hint", orNull Json.str p.lanHint), ("relay_hint", orNull Json.str p.relayHint), ("stun_hints", orNull texts p.stunHints),
      ("supernode_info", orNull Json.arr p.supernodeInfo), ("supernode_relay_hints", orNull texts p.supernodeRelayHints),
      ("turn_hints", orNull texts p.turnHints), ("udp_hole_punch_hint", orNull Json.str p.udpHolePunchHint)]).toVec

/-- `sign`. -/
def sign (p : InvitePayload) (identity : I) : InvitePayload :=
  { p with signature := some (b64urlEncode (C.sign identity p.canonicalBytes)) }

/-- `verify`. -/
def verify (ed25519Verify : Ed25519) (p : InvitePayload) : Bool :=
  match p.signature.bind b64urlDecode, b64urlDecode p.inviterIdentityPub with
  | some sigBytes, some pubBytes => verifyWithPub ed25519Verify pubBytes sigBytes p.canonicalBytes
  | _, _ => false

/-- A field that is left out without a value. -/
def unlessNone {α : Type} (name : String) (write : α → Json) (v : Option α) : List (String × Json) :=
  v.toList.map fun a => (name, write a)

/-- The payload as JSON. -/
def toJson (p : InvitePayload) : Json :=
  .obj
    ([("inviter_peer_id", .str p.inviterPeerId), ("inviter_identity_pub", .str p.inviterIdentityPub), ("invite_id", .str p.inviteId),
      ("expires_at", .int p.expiresAt), ("inviter_ephemeral_pub", .str p.inviterEphemeralPub)] ++
      unlessNone "relay_hint" Json.str p.relayHint ++ unlessNone "inviter_handle" Json.str p.inviterHandle ++
      unlessNone "udp_hole_punch_hint" Json.str p.udpHolePunchHint ++ unlessNone "lan_hint" Json.str p.lanHint ++
      unlessNone "is_supernode" Json.bool p.isSupernode ++ unlessNone "supernode_info" Json.arr p.supernodeInfo ++
      unlessNone "supernode_relay_hints" texts p.supernodeRelayHints ++ unlessNone "stun_hints" texts p.stunHints ++
      unlessNone "turn_hints" texts p.turnHints ++ unlessNone "signature" Json.str p.signature)

/-- An `Option` field: in an object it may be missing. -/
def optField {α : Type} (v : Json) (pos : Nat) (name : String) (read : Json → Option α) : Option (Option α) :=
  match v, structField v pos name with
  | .obj _, none => some none
  | _, none => none
  | _, some .null => some none
  | _, some w => (read w).map some

def textsOfJson (v : Json) : Option (List String) := v.asArray.bind fun items => items.mapM Json.asStr

/-- `from_value::<InvitePayload>`. -/
def ofJson (v : Json) : Option InvitePayload := do
  if isStruct v 15 = false then none
  let inviterPeerId ← (structField v 0 "inviter_peer_id").bind Json.asStr
  let inviterIdentityPub ← (structField v 1 "inviter_identity_pub").bind Json.asStr
  let inviteId ← (structField v 2 "invite_id").bind Json.asStr
  let expiresAt ← (structField v 3 "expires_at").bind asI64
  let inviterEphemeralPub ← (structField v 4 "inviter_ephemeral_pub").bind Json.asStr
  let relayHint ← optField v 5 "relay_hint" Json.asStr
  let inviterHandle ← optField v 6 "inviter_handle" Json.asStr
  let udpHolePunchHint ← optField v 7 "udp_hole_punch_hint" Json.asStr
  let lanHint ← optField v 8 "lan_hint" Json.asStr
  let isSupernode ← optField v 9 "is_supernode" Json.asBool
  let supernodeInfo ← optField v 10 "supernode_info" Json.asArray
  let supernodeRelayHints ← optField v 11 "supernode_relay_hints" textsOfJson
  let stunHints ← optField v 12 "stun_hints" textsOfJson
  let turnHints ← optField v 13 "turn_hints" textsOfJson
  let signature ← optField v 14 "signature" Json.asStr
  return { inviterPeerId, inviterIdentityPub, inviteId, expiresAt, inviterEphemeralPub, relayHint, inviterHandle, udpHolePunchHint,
           lanHint, isSupernode, supernodeInfo, supernodeRelayHints, stunHints, turnHints, signature }

end InvitePayload

/-! ## The advertised hostname -/

/-- `read_number` of an address: at most three decimal digits below 256, without a leading zero. -/
def isOctet (s : List Char) : Bool :=
  (decimal s).any (fun n => decide (n < 256)) && decide (s.length ≤ 3) && (decide (s.length = 1) || s.head? != some '0')

/-- `parse::<Ipv4Addr>` succeeds. -/
def isIpv4 (s : List Char) : Bool :=
  let parts := s.splitOn '.'
  decide (parts.length = 4) && parts.all isOctet

/-- A label of a hostname. -/
def isHostLabel (label : List Char) : Bool :=
  !label.isEmpty && decide (label.length ≤ 63) && label.head? != some '-' && label.getLast? != some '-' &&
    label.all fun c => isAsciiAlphanumeric c || c == '-'

/-- `normalize_advertised_hostname`. An IPv6 address has a colon, which no hostname has. -/
def normalizeAdvertisedHostname (raw : List Char) : Option (List Char) :=
  let name := ((trim raw).rdropWhile (· == '.')).map asciiLower
  if name = [] ∨ 253 < byteLen name ∨ isIpv4 name = true then none
  else if ':' ∈ name ∨ '/' ∈ name ∨ '@' ∈ name then none
  else if (name.splitOn '.').all isHostLabel then some name
  else none

/-- What follows the first `://`. -/
def afterScheme : List Char → Option (List Char)
  | [] => none
  | c :: cs => if "://".toList.isPrefixOf (c :: cs) then some ((c :: cs).drop 3) else afterScheme cs

/-- `ws_url_host`. -/
def wsUrlHost (url : List Char) : Option (List Char) :=
  (afterScheme url).bind fun rest =>
    let authority := rest.takeWhile fun c => c != '/' && c != '?' && c != '#'
    match authority with
    | '[' :: host => if ']' ∈ host then some (host.takeWhile (· != ']')) else none
    | _ => some ((rsplitOnce ':' authority).elim authority Prod.fst)

/-- `advertised_hostname`. -/
def advertisedHostname (hints : Option (List String)) : Option (List Char) :=
  hints.bind fun hints => hints.findSome? fun url => (wsUrlHost url.toList).bind normalizeAdvertisedHostname

/-! ## The manager -/

/-- `PendingInvite`. -/
structure PendingHandshake where
  ephemeralSecret : List UInt8
  ephemeralPublic : List UInt8
  expiresAt : Int

/-- What a process is started with. -/
structure NodeSettings (I : Type) where
  identity : I
  listenerUrl : String
  inviteTtlSeconds : Int
  turnHints : Option (List String)
  hostnameHints : Option (List String)
  nodeTitle : String
  webTitle : String

/-- `HandshakeManager`. -/
structure HandshakeManager (I : Type) where
  settings : NodeSettings I
  pending : HashMap String PendingHandshake
  reusableInvite : Option InvitePayload

/-- What `create_invite` finds: the clock, and what it draws. -/
structure Draw where
  now : Int
  inviteId : String
  secret : List UInt8

namespace HandshakeManager

/-- `HandshakeManager::new`, with the fields that are set after it. -/
def new (settings : NodeSettings I) : HandshakeManager I := { settings, pending := ∅, reusableInvite := none }

/-- The expiry of an invite that is minted now. -/
def mintedExpiry (settings : NodeSettings I) (now : Int) : Int :=
  if settings.inviteTtlSeconds < 0 then wrapI64 (now + 100 * 365 * 86400) else wrapI64 (now + settings.inviteTtlSeconds)

/-- `create_invite`. -/
def createInvite (m : HandshakeManager I) (draw : Draw) (handle : Option String) : HandshakeManager I × InvitePayload :=
  let expiresAt := mintedExpiry m.settings draw.now
  let ephemeralPublic := C.x25519Public draw.secret
  let payload : InvitePayload :=
    { inviterPeerId := C.peerId m.settings.identity
      inviterIdentityPub := C.publicId m.settings.identity
      inviteId := draw.inviteId
      expiresAt
      inviterEphemeralPub := b64urlEncode ephemeralPublic
      relayHint := some m.settings.listenerUrl
      inviterHandle := handle
      udpHolePunchHint := none
      lanHint := none
      isSupernode := some true
      supernodeInfo := none
      supernodeRelayHints := m.settings.hostnameHints
      stunHints := none
      turnHints := m.settings.turnHints
      signature := none }
  ({ m with pending := m.pending.insert draw.inviteId { ephemeralSecret := draw.secret, ephemeralPublic, expiresAt } },
    payload.sign C m.settings.identity)

/-- `get_or_create_reusable_invite`. -/
def getOrCreateReusableInvite (m : HandshakeManager I) (draw : Draw) (handle : Option String) : HandshakeManager I × InvitePayload :=
  match m.reusableInvite with
  | some invite => (m, invite)
  | none =>
    let (m, invite) := m.createInvite C draw handle
    ({ m with reusableInvite := some invite }, invite)

/-- `save_reusable_invite`: the file afterwards. The write may fail. -/
def saveReusableInvite (m : HandshakeManager I) (file : Option Json) (writes : Bool) : Option Json :=
  match m.reusableInvite with
  | none => file
  | some invite =>
    match m.pending.lookup invite.inviteId with
    | none => file
    | some pending =>
      if writes then
        some (.obj [("ephemeral_secret", .str (b64urlEncode pending.ephemeralSecret)), ("invite", invite.toJson)])
      else file

/-- `restore_pending`. -/
def restorePending (m : HandshakeManager I) (inviteId : String) (secret : List UInt8) (expiresAt : Int) : HandshakeManager I :=
  { m with pending := m.pending.insert inviteId { ephemeralSecret := secret, ephemeralPublic := C.x25519Public secret, expiresAt } }

/-- The invite and the secret that a file holds. -/
def readSaved (file : Option Json) : Option (InvitePayload × List UInt8) := do
  let parsed ← file
  let invite ← InvitePayload.ofJson ((parsed.get "invite").getD .null)
  let secretB64 ← (parsed.get "ephemeral_secret").bind Json.asStr
  let secret ← (b64urlDecode secretB64).filter fun b => b.length == 32
  return (invite, secret)

/-- The address in a saved invite is the listener's. -/
def addressMatches (settings : NodeSettings I) (invite : InvitePayload) : Bool :=
  invite.relayHint == some settings.listenerUrl

/-- A hostname is configured and the saved invite has it. -/
def nameMatches (settings : NodeSettings I) (invite : InvitePayload) : Bool :=
  (advertisedHostname settings.hostnameHints).isSome &&
    advertisedHostname invite.supernodeRelayHints == advertisedHostname settings.hostnameHints

/-- `load_reusable_invite`: the manager, whether an invite was restored, and the file afterwards. -/
def loadReusableInvite (m : HandshakeManager I) (file : Option Json) (writes : Bool) : HandshakeManager I × Bool × Option Json :=
  match readSaved file with
  | none => (m, false, file)
  | some (invite, secret) =>
    if addressMatches m.settings invite = false ∧ nameMatches m.settings invite = false then (m, false, file)
    else
      let m := m.restorePending C invite.inviteId secret invite.expiresAt
      if addressMatches m.settings invite = true ∧ invite.supernodeRelayHints = m.settings.hostnameHints then
        ({ m with reusableInvite := some invite }, true, file)
      else
        -- The id stays; the address and the hostname are signed anew.
        let updated : InvitePayload :=
          { invite with relayHint := some m.settings.listenerUrl, supernodeRelayHints := m.settings.hostnameHints, signature := none }
        let m := { m with reusableInvite := some (updated.sign C m.settings.identity) }
        (m, true, m.saveReusableInvite file writes)

/-- The texts of the answers that refuse an INIT. -/
inductive InitError where
  | missingInviteId
  | unknownInvite (inviteId : String)
  | inviteExpired
  | missingJoinerIdentityPub
  | missingJoinerPeerId
  | missingJoinerEphemeralPub
  | decode
  | ephemeralLength
  | lowOrder

/-- What an INIT that is accepted gives: the answer, the session key and the joiner. -/
structure Accepted where
  payload : Json
  sessionKey : List UInt8
  joinerIdentityPub : String

/-- `ok_or`. -/
def orError {α : Type} (v : Option α) (e : InitError) : Except InitError α :=
  match v with
  | some a => .ok a
  | none => .error e

/-- `process_init`. -/
def processInit (m : HandshakeManager I) (payload : Json) (now : Int) : Except InitError Accepted := do
  let inviteId ← orError ((payload.get "invite_id").bind Json.asStr) .missingInviteId
  let pending ← orError (m.pending.lookup inviteId) (.unknownInvite inviteId)
  if pending.expiresAt < now then .error .inviteExpired
  else
    let joinerIdentityPub ← orError ((payload.get "joiner_identity_pub").bind Json.asStr) .missingJoinerIdentityPub
    let _ ← orError ((payload.get "joiner_peer_id").bind Json.asStr) .missingJoinerPeerId
    let joinerEphemeralPub ← orError ((payload.get "joiner_ephemeral_pub").bind Json.asStr) .missingJoinerEphemeralPub
    let point ← orError (b64urlDecode joinerEphemeralPub) .decode
    if point.length ≠ 32 then .error .ephemeralLength
    else
      let shared := C.x25519Exchange pending.ephemeralSecret point
      if shared.all (· == 0) then .error .lowOrder
      else
        let transcript :=
          (Json.obj
            [("invite_id", .str inviteId), ("inviter_ephemeral_pub", .str (b64urlEncode pending.ephemeralPublic)),
              ("inviter_identity_pub", .str (C.publicId m.settings.identity)), ("joiner_ephemeral_pub", .str joinerEphemeralPub),
              ("joiner_identity_pub", .str joinerIdentityPub)]).toVec
        let ikm := Bytes.lengthPrefixed 4 shared ++ Bytes.lengthPrefixed 4 transcript
        .ok
          { payload :=
              .obj
                [("invite_id", .str inviteId), ("inviter_handle", .str m.settings.nodeTitle),
                  ("inviter_identity_pub", .str (C.publicId m.settings.identity)), ("inviter_listener", .str m.settings.listenerUrl),
                  ("inviter_peer_id", .str (C.peerId m.settings.identity)), ("inviter_quic_port", .int 0),
                  ("transcript_hash", .str (C.sha256Hex transcript))]
            sessionKey := C.hkdf ikm
            joinerIdentityPub }

/-! ## Processes -/

/-- A start of the node: its settings, what it would draw for a new invite, and whether the file can be written. -/
structure Start (I : Type) where
  settings : NodeSettings I
  draw : Draw
  writes : Bool

/-- The block of `main.rs` at start-up: the manager and the file afterwards. -/
def startUp (file : Option Json) (start : Start I) : HandshakeManager I × Option Json :=
  match (new start.settings).loadReusableInvite C file start.writes with
  | (m, true, file) => (m, file)
  | (m, false, file) =>
    let m := (m.getOrCreateReusableInvite C start.draw (some start.settings.webTitle)).1
    (m, m.saveReusableInvite file start.writes)

/-- The file after the node was started a number of times. -/
def fileAfter (file : Option Json) (starts : List (Start I)) : Option Json :=
  starts.foldl (fun file start => (startUp C file start).2) file

end HandshakeManager

end

end DoubleSlash.Supernode
