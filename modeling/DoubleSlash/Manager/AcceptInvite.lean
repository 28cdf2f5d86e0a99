import DoubleSlash.Manager.Invites
import DoubleSlash.Manager.RoomLinks
import DoubleSlash.Supernode.Handshake

/-!
# Accepting an invite link

`handle_accept_invite` and `handle_accept_room_invite` of `manager/invite.rs`: from the link a user pasted to the peer store, the invites
that wait for an answer and the sessions with supernodes.
-/

namespace DoubleSlash.Manager

open Assoc Brand Codec Protocol Store Text

/-- `RoomInviteEntry`. -/
structure RoomInviteEntry where
  roomId : String
  roomName : String
  roomType : String
  inviteToken : String
  parentId : String
  spaceId : String

/-- `SupernodeSession`: what its task dials, and whether it is up. -/
structure SupernodeSession where
  candidates : List String
  connected : Bool
  deriving DecidableEq

/-- What accepting a link reads and changes of the manager. -/
structure LinkClient where
  publicId : String
  store : PeerStore
  pendingInvites : HashMap String PendingInvite
  supernodes : HashMap String SupernodeSession
  pendingJoinSpaceCreds : HashMap String (String × String × String)
  pendingRoomInviteEntries : HashMap String RoomInviteEntry

/-- What accepting a link does besides. -/
inductive LinkEffect where
  | inviteFailed (reason : String)
  | inviteAccepted (peerId handle : String)
  | roomInviteReady (supernodeId : String) (entry : RoomInviteEntry)
  /-- `ws_task.abort()`. -/
  | abort (supernodeId : String)
  /-- A task that dials the candidates. -/
  | dial (supernodeId : String) (candidates : List String)
  | connectDirectQuic (peerId host : String) (port : Nat)
  /-- An INIT handed to `dispatch_outbound`. -/
  | relayInit (target : String) (payload : Payload)
  /-- An INIT in the queue of a session. -/
  | queueInit (supernodeId : String) (payload : Payload)
  /-- A slice for a log line that is off a character. -/
  | panic

/-- What accepting a link reads from outside the manager. -/
structure LinkEnv where
  env : Env
  json : JsonReader
  /-- What the libraries say of what they cannot decode and parse. -/
  base64Error : String → String
  jsonError : List UInt8 → String
  ownPeerId : String
  joinerEphemeralPub : String
  joinerQuicPort : Nat
  localQuicHint : Option String
  publicQuicHint : Option String

/-- The slice `&text[..upTo.min(text.len())]` ends at a character. -/
def cuts (text : String) (upTo : Nat) : Bool := (sliceTo text.toList (min upTo (byteLen text.toList))).isSome

/-- `Value::as_bool` of a field, or false. -/
def boolField (payload : Json) (k : String) : Bool := ((payload.get k).bind Json.asBool).getD false

/-! ## Supernodes to dial -/

/-- `dddns_hint_name(url).is_some()`. -/
def isDddnsHint (url : String) : Bool :=
  (splitOnce ':' (String.ofList (trim url.toList))).any fun (scheme, rest) =>
    "//".toList.isPrefixOf rest.toList && scheme.toList.map asciiLower == "dddns".toList

/-- The closure `push` of `ws_hints_from_invite`. -/
def pushDialHint (out : List String) (url : String) : List String :=
  let url := String.ofList (trim url.toList)
  if url = "" ∨ url ∈ out then out
  else if "ws://".toList.isPrefixOf url.toList || "wss://".toList.isPrefixOf url.toList || isDddnsHint url then out ++ [url]
  else out

/-- `ws_hints_from_invite`. -/
def wsHintsFromInvite (primary : String) (extra : List String) : List String := (primary :: extra).foldl pushDialHint []

/-- `connect_supernode_ws`. -/
def connectSupernodeWs (σ : LinkClient) (peerId : String) (candidates : List String) : LinkClient × List LinkEffect :=
  if candidates = [] then (σ, if cuts peerId 8 then [] else [.panic])
  else ({ σ with supernodes := σ.supernodes.insert peerId { candidates, connected := false } }, [.dial peerId candidates])

section

variable (L : LinkEnv)

/-! ## Room links -/

/-- The texts of `parse_room_invite`. -/
def RoomInviteError.text (encoded : String) : RoomInviteError → String
  | .tooLarge bytes => s!"room invite too large ({bytes} bytes)"
  | .base64 => "base64 decode error: " ++ L.base64Error encoded
  | .json => "JSON parse error: " ++ L.jsonError ((b64Groups (trimEndMatches '=' encoded).toList).getD [])
  | .unsupportedVersion v => s!"unsupported room invite version {v}"
  | .missingSupernodeId => "room invite missing supernode_id"
  | .missingRoomId => "room invite missing room_id"

/-- The room's parent in the tree, from the proof. -/
def spaceParentId (proof : String) : String :=
  (((L.json.fromStr proof).bind fun v => v.get "node").bind fun n => n.get "parent_id").bind Json.asStr |>.getD ""

/-- The Space, from the root. -/
def spaceTreeId (root : String) : String := ((L.json.fromStr root).bind fun v => v.get "space_id").bind Json.asStr |>.getD ""

/-- The record a room link makes of its supernode. -/
def roomHostRecord (supernodeId hint : String) : PeerRecord where
  peerId := supernodeId
  identityPub := supernodeId
  relayHints := [hint]
  isSupernode := true
  supernodeFromInvite := true
  createdAt := L.env.now
  lastSeenAt := L.env.now

/-- What a room link does with the session of its supernode. -/
def enterRoom (σ : LinkClient) (supernodeId hint : String) (entry : RoomInviteEntry) : LinkClient × List LinkEffect :=
  if (σ.supernodes.lookup supernodeId).any SupernodeSession.connected then (σ, [.roomInviteReady supernodeId entry])
  else if (σ.supernodes.lookup supernodeId).isSome then
    ({ σ with pendingRoomInviteEntries := σ.pendingRoomInviteEntries.insert supernodeId entry }, [])
  else if hint = "" then (σ, [.inviteFailed "room invite missing supernode address"])
  else
    let (σ, effects) := connectSupernodeWs σ supernodeId [hint]
    ({ σ with pendingRoomInviteEntries := σ.pendingRoomInviteEntries.insert supernodeId entry }, effects)

/-- `handle_accept_room_invite`. -/
def handleAcceptRoomInvite (σ : LinkClient) (encoded : String) : LinkClient × List LinkEffect :=
  match parseRoomInvite L.json encoded with
  | .error e => (σ, [.inviteFailed (e.text L encoded)])
  | .ok p =>
    if p.expiresAt ≠ 0 ∧ p.expiresAt < L.env.now then (σ, [.inviteFailed "room invite expired"])
    else
      let σ :=
        if p.spaceProof = "" then σ
        else { σ with pendingJoinSpaceCreds := σ.pendingJoinSpaceCreds.insert p.roomId (p.spaceRoot, p.spaceProof, p.spaceGrant) }
      if cuts p.roomId 12 = false ∨ cuts p.supernodeId 8 = false then (σ, [.panic])
      else
        let σ :=
          if p.supernodeHint = "" then σ
          else { σ with store := σ.store.upsertFromInvite (roomHostRecord L p.supernodeId p.supernodeHint) }
        enterRoom σ p.supernodeId p.supernodeHint
          { roomId := p.roomId, roomName := p.roomName, roomType := p.roomType, inviteToken := p.inviteToken,
            parentId := spaceParentId L p.spaceProof, spaceId := spaceTreeId L p.spaceRoot }

/-! ## Peer and supernode links -/

/-- What stands before and after the `#` of a link that was reduced. -/
def splitAction (rest : List Char) : String × String :=
  (splitOnce '#' (String.ofList rest)).getD ("", String.ofList rest)

/-- The payload of an invite that is no room's, or why it is refused. -/
def decodeInvite (encoded : String) : Except String Json :=
  if 262144 < byteLen encoded.toList then
    let bytes := byteLen encoded.toList
    .error s!"invite URL too large ({bytes} bytes)"
  else
    match b64Groups (trimEndMatches '=' encoded).toList with
    | none => .error ("base64 decode error: " ++ L.base64Error encoded)
    | some jsonBytes =>
      match L.json.fromSlice jsonBytes with
      | none => .error ("JSON parse error: " ++ L.jsonError jsonBytes)
      | some payload => .ok payload

/-- What is read of the payload. -/
structure InviteLink where
  inviterIdentityPub : String
  inviterPeerId : String
  inviteId : String
  supernodeHint : String
  lanHint : String
  isSupernode : Bool
  inviterEphemeralPub : String
  inviterHandle : String
  dialHints : List String

/-- The fields of an invite of this identity. -/
def readLink (payload : Json) (identityPub : String) : InviteLink :=
  let relayHint := textField payload "relay_hint"
  let lanHint := textField payload "lan_hint"
  let supernodeHint := if relayHint = "" then lanHint else relayHint
  let isSupernode := boolField payload "is_supernode"
  let extra := (((payload.get "supernode_relay_hints").bind Json.asArray).getD []).filterMap Json.asStr
  { inviterIdentityPub := identityPub
    inviterPeerId := ((payload.get "inviter_peer_id").bind Json.asStr).getD identityPub
    inviteId := textField payload "invite_id"
    supernodeHint
    lanHint
    isSupernode
    inviterEphemeralPub := textField payload "inviter_ephemeral_pub"
    inviterHandle := textField payload "inviter_handle"
    dialHints := if isSupernode then wsHintsFromInvite supernodeHint extra else [] }

/-- The invite of a payload that passes the checks, or why it is refused. -/
def checkInvite (publicId : String) (payload : Json) : Except String InviteLink :=
  match (payload.get "inviter_identity_pub").bind Json.asStr with
  | none => .error "missing inviter_identity_pub"
  | some identityPub =>
    let link := readLink payload identityPub
    if link.inviteId = "" then .error "missing invite_id"
    else if identityPub = publicId then .error "cannot use own invite"
    else if ((payload.get "expires_at").bind Supernode.asI64).any fun expiresAt : Int => decide (expiresAt < L.env.now) then
      .error "invite expired"
    else .ok link

/-- The record a supernode's link makes of it. -/
def supernodeRecord (link : InviteLink) : PeerRecord where
  peerId := link.inviterPeerId
  identityPub := link.inviterIdentityPub
  handle := link.inviterHandle
  relayHints := link.dialHints
  isSupernode := true
  supernodeFromInvite := true
  createdAt := L.env.now
  lastSeenAt := L.env.now

/-- The invite that waits for an answer. -/
def pendingOf (link : InviteLink) : PendingInvite where
  inviterPeerId := link.inviterPeerId
  inviterIdentityPub := link.inviterIdentityPub
  inviteId := link.inviteId
  relayHint := link.supernodeHint
  lanHint := link.lanHint
  isSupernode := link.isSupernode
  createdAt := L.env.now
  rejectedAt := none
  rejectReason := ""

/-- The payload of an INIT: `build_invite_handshake_init`, and the same for a supernode. -/
def initPayload (publicId inviteId : String) : Payload :=
  [("invite_id", .str inviteId), ("joiner_identity_pub", .str publicId), ("joiner_peer_id", .str L.ownPeerId),
      ("joiner_ephemeral_pub", .str L.joinerEphemeralPub), ("joiner_quic_port", .int L.joinerQuicPort)] ++
    (if L.env.displayHandle = "" then [] else [("joiner_handle", .str L.env.displayHandle)]) ++
    (L.localQuicHint.elim [] fun hint => [("joiner_lan_hint", .str hint)]) ++
    (L.publicQuicHint.elim [] fun hint => [("joiner_public_hint", .str hint)])

/-- The text of a peer's invite that nothing can be sent for. -/
def noPathReason : String :=
  "invite has no reachable path (no local QUIC hint and no shared supernode online); " ++
    "generate a fresh invite while both are online on the same supernode, or on the same LAN"

/-- The text of an invite without the inviter's point. -/
def noEphemeralReason : String := "invite missing inviter_ephemeral_pub; generate a fresh invite"

/-- What a supernode's link changes before its INIT: trust, and a session with its addresses in place of the one there is. -/
def trustSupernode (σ : LinkClient) (link : InviteLink) : LinkClient × List LinkEffect :=
  let σ := { σ with store := σ.store.upsertFromInvite (supernodeRecord L link)
                    pendingInvites := σ.pendingInvites.insert link.inviteId (pendingOf L link) }
  if link.dialHints = [] then (σ, [.inviteAccepted link.inviterPeerId link.inviterHandle])
  else
    let aborts := if (σ.supernodes.lookup link.inviterIdentityPub).isSome then [.abort link.inviterIdentityPub] else []
    let (σ, effects) :=
      connectSupernodeWs { σ with supernodes := σ.supernodes.erase link.inviterIdentityPub } link.inviterIdentityPub link.dialHints
    (σ, .inviteAccepted link.inviterPeerId link.inviterHandle :: (aborts ++ effects))

/-- The INIT for a supernode. -/
def initSupernode (σ : LinkClient) (link : InviteLink) : List LinkEffect :=
  if link.inviterEphemeralPub = "" then [.inviteFailed noEphemeralReason]
  else if (σ.supernodes.lookup link.inviterIdentityPub).isSome then
    [.queueInit link.inviterIdentityPub (initPayload L σ.publicId link.inviteId)]
  else []

/-- What a peer's link leads to, once its invite waits. -/
def initPeer (σ : LinkClient) (link : InviteLink) : List LinkEffect :=
  if link.inviterEphemeralPub = "" then [.inviteFailed noEphemeralReason]
  else
    let direct := (parseQuicLanHint L.env link.lanHint).elim [] fun (host, port) => [.connectDirectQuic link.inviterPeerId host port]
    let relayed :=
      if (values σ.supernodes).any SupernodeSession.connected then
        [.relayInit link.inviterIdentityPub (initPayload L σ.publicId link.inviteId)]
      else []
    if direct ++ relayed = [] then [.inviteFailed noPathReason] else direct ++ relayed

/-- An invite that passed the checks. -/
def acceptLink (σ : LinkClient) (link : InviteLink) : LinkClient × List LinkEffect :=
  if cuts link.inviterIdentityPub 8 = false ∨ cuts link.inviteId 8 = false then (σ, [.panic])
  else if link.isSupernode then
    let (σ, effects) := trustSupernode L σ link
    (σ, effects ++ initSupernode L σ link)
  else
    let σ := { σ with pendingInvites := σ.pendingInvites.insert link.inviteId (pendingOf L link) }
    (σ, initPeer L σ link)

/-- `handle_accept_invite`. The two functions of the link crate panic on no text. -/
def handleAcceptInvite (σ : LinkClient) (inviteUrl : String) : LinkClient × List LinkEffect :=
  match normalizeAppUrl inviteUrl.toList with
  | none => (σ, [.panic])
  | some none => (σ, [.inviteFailed ("invalid scheme in '" ++ inviteUrl ++ "'")])
  | some (some rest) =>
    let (action, encoded) := splitAction rest
    if action = "room" then handleAcceptRoomInvite L σ encoded
    else
      match decodeInvite L encoded with
      | .error reason => (σ, [.inviteFailed reason])
      | .ok payload =>
        match checkInvite L σ.publicId payload with
        | .error reason => (σ, [.inviteFailed reason])
        | .ok link => acceptLink L σ link

end

end DoubleSlash.Manager
