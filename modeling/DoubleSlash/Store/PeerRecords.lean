import DoubleSlash.Lib.Run
import DoubleSlash.Lib.Unique
import DoubleSlash.Store.PeerStore

/-!
# Peer records

The rest of `PeerStore`: naming, hints, removal, restoring and the file; and the operations as the client performs them. Peer ids and
identities come from the remote party. The file's encryption and JSON are a parameter.
-/

namespace DoubleSlash.Store

open Assoc Text

/-- `LOCAL_NAME_MAX_CHARS`. -/
def localNameMaxChars : Nat := 64

/-- `is_bidi_control`. -/
def isBidiControl (c : Char) : Bool :=
  let n := c.toNat
  (0x200e ≤ n && n ≤ 0x200f) || (0x202a ≤ n && n ≤ 0x202e) || (0x2066 ≤ n && n ≤ 0x2069)

/-- `char::is_control`. -/
def isControl (c : Char) : Bool := c.toNat ≤ 0x1f || (0x7f ≤ c.toNat && c.toNat ≤ 0x9f)

/-- `clean_local_name`. -/
def cleanLocalName (name : String) : String :=
  let clean := (trim (name.toList.filter fun c => !isControl c && !isBidiControl c)).take localNameMaxChars
  String.ofList (clean.rdropWhile isWhitespace)

namespace PeerStore

/-- `is_supernode_id`. -/
def isSupernodeId (s : PeerStore) (id : String) : Bool :=
  decide (id ≠ "") && (values s).any fun r => !r.blocked && r.isSupernode && (r.identityPub == id || r.peerId == id)

/-- `set_local_name`. -/
def setLocalName (s : PeerStore) (id name : String) : PeerStore × Bool :=
  match findEntry s fun r => r.peerId == id || (bare id != "" && bare r.identityPub == bare id) with
  | none => (s, false)
  | some (k, r) => (s.insert k { r with localName := cleanLocalName name }, true)

/-- `add_relay_hint`. -/
def addRelayHint (s : PeerStore) (identityPub hint : String) : PeerStore × Bool :=
  let hint := String.ofList (trim hint.toList)
  if hint = "" ∨ bare identityPub = "" then (s, false)
  else
    match findEntry s fun r => r.identityPub == identityPub || bare r.identityPub == bare identityPub with
    | none => (s, false)
    | some (k, r) => if hint ∈ r.relayHints then (s, false) else (s.insert k { r with relayHints := r.relayHints ++ [hint] }, true)

/-- `remove_by_any_id`. -/
def removeByAnyId (s : PeerStore) (id : String) : PeerStore × Option PeerRecord :=
  match s.lookup id with
  | some r => (s.erase id, some r)
  | none =>
    match findEntry s fun r => r.identityPub == id with
    | some (k, r) => (s.erase k, some r)
    | none => (s, none)

/-- The records that are restored for an id. -/
def demoted (id : String) (r : PeerRecord) : Bool :=
  (r.identityPub == id || r.peerId == id) && !(r.blocked || r.revoked) && !r.isSupernode

/-- One turn of `restore_supernodes_referenced_by_ids`, with `changed`; each record with the id is edited where it is. -/
def restoreTurn (acc : PeerStore × Bool) (id : String) : PeerStore × Bool :=
  if id = "" ∨ acc.1.isSupernodeId id then acc
  else
    (mapValues acc.1 fun r => if demoted id r then { r with isSupernode := true, supernodeFromInvite := true } else r,
      acc.2 || (values acc.1).any (demoted id))

/-- `restore_supernodes_referenced_by_ids`. -/
def restoreSupernodesReferencedByIds (s : PeerStore) (supernodeIds : List String) : PeerStore × Bool :=
  supernodeIds.foldl restoreTurn (s, false)

/-- `push` of the hints that are not there. -/
def pushHints (hints new : List String) : List String :=
  new.foldl (fun hints hint => if hint ∈ hints then hints else hints ++ [hint]) hints

/-- What `InviteHandshakeInit` does to the store when the joiner is admitted: `joiner` is the record made of the message. -/
def acceptJoiner (s : PeerStore) (joiner : PeerRecord) : PeerStore :=
  match s.get joiner.peerId with
  | none => s.upsert { joiner with autoConnect := true }
  | some record =>
    -- Another peer's id is refused.
    if bare record.identityPub ≠ bare joiner.identityPub then s
    else
      s.insert joiner.peerId { record with
        lastSeenAt := joiner.lastSeenAt
        autoConnect := true
        handle := if joiner.handle = "" then record.handle else joiner.handle
        quicPort := if joiner.quicPort = 0 then record.quicPort else joiner.quicPort
        relayHints := pushHints record.relayHints joiner.relayHints }

/-- The records as `save` writes them. -/
def sortedPeers (s : PeerStore) : List PeerRecord := (values s).mergeSort fun a b => decide (a.createdAt ≤ b.createdAt)

/-- The records that `load` files. -/
def ofPeers (peers : List PeerRecord) : PeerStore := peers.foldl (fun s r => s.insert r.peerId r) ∅

end PeerStore

/-- The encrypted file: what is written of records is read again. -/
structure PeerFile (B : Type) where
  write : List PeerRecord → B
  read : B → Option (List PeerRecord)
  read_write : ∀ peers, read (write peers) = some peers

/-- `save`. -/
def PeerFile.save {B : Type} (file : PeerFile B) (s : PeerStore) : B := file.write s.sortedPeers

/-- `load`, into an empty store; a file that cannot be read leaves it empty. -/
def PeerFile.load {B : Type} (file : PeerFile B) (bytes : B) : PeerStore := ((file.read bytes).map PeerStore.ofPeers).getD ∅

/-! ## Operations -/

/-- An edit through `get_mut`, which leaves a record its id and identity. -/
structure RecordEdit where
  change : PeerRecord → PeerRecord
  peerId : ∀ r, (change r).peerId = r.peerId
  identityPub : ∀ r, (change r).identityPub = r.identityPub

/-- What the client does with the store. -/
inductive PeerOp where
  | acceptJoiner (joiner : PeerRecord)
  | upsertFromInvite (record : PeerRecord)
  | edit (peerId : String) (e : RecordEdit)
  | setLocalName (id name : String)
  | addRelayHint (identityPub hint : String)
  | removeByAnyId (id : String)
  | restoreSupernodes (supernodeIds : List String)
  /-- The map is walked in another order from now on. -/
  | reorder (order : PeerStore)

namespace PeerOp

/-- The store after an operation. -/
def apply (s : PeerStore) : PeerOp → PeerStore
  | acceptJoiner joiner => s.acceptJoiner joiner
  | upsertFromInvite record => s.upsertFromInvite record
  | edit peerId e => modify s peerId e.change
  | setLocalName id name => (s.setLocalName id name).1
  | addRelayHint identityPub hint => (s.addRelayHint identityPub hint).1
  | removeByAnyId id => (s.removeByAnyId id).1
  | restoreSupernodes supernodeIds => (s.restoreSupernodesReferencedByIds supernodeIds).1
  | reorder order => order

/-- An operation as a step. -/
def step (s : PeerStore) (op : PeerOp) : Option PeerStore := some (op.apply s)

end PeerOp

end DoubleSlash.Store
