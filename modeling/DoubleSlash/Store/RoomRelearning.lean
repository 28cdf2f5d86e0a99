import DoubleSlash.Lib.Run
import DoubleSlash.Store.PeerStore
import DoubleSlash.Store.RoomStore

/-!
# Learning a room again

What a client learns of its rooms after it has stored them: its own upserts, the room lists of supernodes, the links into Space
trees, and the rewriting of hosts to their identities. Each call gives the store afterwards and whether it was saved.
-/

namespace DoubleSlash.Store

open Assoc Protocol Spaces Text

/-- `resolve_supernode_identity_pub`. -/
def PeerStore.resolveSupernodeIdentityPub (peers : PeerStore) (id : String) : Option String :=
  if id = "" then none
  else
    ((values peers).find? fun r => !(r.blocked || !r.isSupernode) && (r.identityPub == id || r.peerId == id)).map
      PeerRecord.identityPub

namespace RoomStore

/-- `upsert`, at a time, with whether it saves; without a supernode it fails. -/
def upsertSaving (s : RoomStore) (now : Nat) (entry : RoomEntry) : RoomStore × Bool :=
  (s.mergeInMemory now entry true).getD (s, false)

/-- One turn of the loop of `upsert_many_from_remote`, with `dirty`. -/
def upsertTurn (now : Nat) (acc : RoomStore × Bool) (entry : RoomEntry) : RoomStore × Bool :=
  if entry.supernodeId ≠ "" ∧ acc.1.isHiddenFromSidebar entry.supernodeId entry.roomId then acc
  else
    match acc.1.mergeInMemory now entry false with
    | some (s, changed) => (s, acc.2 || changed)
    | none => acc

/-- `upsert_from_remote`. -/
def upsertFromRemote (s : RoomStore) (now : Nat) (entry : RoomEntry) : RoomStore × Bool := upsertTurn now (s, false) entry

/-- `upsert_many_from_remote` with whether it saves. -/
def upsertManySaving (s : RoomStore) (now : Nat) (entries : List RoomEntry) : RoomStore × Bool :=
  entries.foldl (upsertTurn now) (s, false)

/-- The entries of a room list. -/
def listedEntries (s : RoomStore) (supernodeId : String) (rooms : Json) : List RoomEntry :=
  (rooms.asArray.getD []).filterMap (s.listedEntry supernodeId)

/-- `set_space_linkage`. -/
def setSpaceLinkage (s : RoomStore) (supernodeId roomId parentId spaceId : String) : RoomStore × Bool :=
  match s.get supernodeId roomId with
  | none => (s, false)
  | some entry =>
    let newParent := decide (parentId ≠ "") && decide (entry.parentId ≠ parentId)
    let newSpace := decide (spaceId ≠ "") && decide (entry.spaceId ≠ spaceId)
    let linked := { entry with
      parentId := if newParent then parentId else entry.parentId
      spaceId := if newSpace then spaceId else entry.spaceId }
    ({ s with rooms := s.rooms.insert (entryKey supernodeId roomId) linked }, newParent || newSpace)

/-! ## Hosts -/

/-- The turn of `normalize_supernode_ids` of a room. -/
def normalizeRoom (peers : PeerStore) (acc : RoomStore × Bool) (entry : RoomEntry) : RoomStore × Bool :=
  match peers.resolveSupernodeIdentityPub entry.supernodeId with
  | none => acc
  | some canon =>
    if canon = entry.supernodeId then acc
    else
      ({ acc.1 with
          rooms := (acc.1.rooms.erase (entryKey entry.supernodeId entry.roomId)).insert (entryKey canon entry.roomId)
            { entry with supernodeId := canon } },
        true)

/-- The turn of `normalize_supernode_ids` of a tombstone. -/
def normalizeTombstone (peers : PeerStore) (acc : RoomStore × Bool) (key : String) : RoomStore × Bool :=
  match splitOnce ':' key with
  | none => acc
  | some (supernodeId, roomId) =>
    match peers.resolveSupernodeIdentityPub supernodeId with
    | none => acc
    | some canon =>
      if canon = supernodeId then acc
      else ({ acc.1 with deletedIds := insert (entryKey canon roomId) (acc.1.deletedIds.erase key) }, true)

/-- `normalize_supernode_ids`, with the order in which the tombstones come. -/
def normalizeSupernodeIds (s : RoomStore) (peers : PeerStore) (tombstones : List String) : RoomStore × Bool :=
  tombstones.foldl (normalizeTombstone peers) ((values s.rooms).foldl (normalizeRoom peers) (s, false))

end RoomStore

/-! ## Calls -/

/-- A call by which the store learns of rooms. -/
inductive RoomCall where
  | upsert (now : Nat) (entry : RoomEntry)
  | upsertFromRemote (now : Nat) (entry : RoomEntry)
  | upsertManyFromRemote (now : Nat) (entries : List RoomEntry)
  | syncFromRoomList (now : Nat) (supernodeId : String) (rooms : Json)
  | setSpaceLinkage (supernodeId roomId parentId spaceId : String)
  | adoptRoomIntoSpace (sign : List UInt8 → List UInt8) (ownerPub supernodeId roomId roomName roomType parentNodeId : String)
      (issuedAt : Nat)
  | normalizeSupernodeIds (peers : PeerStore) (tombstones : List String)

namespace RoomCall

variable {D : Type} (H : Hashing D)

/-- The store after a call, and whether it was saved. -/
def apply (s : RoomStore) : RoomCall → RoomStore × Bool
  | upsert now entry => s.upsertSaving now entry
  | upsertFromRemote now entry => s.upsertFromRemote now entry
  | upsertManyFromRemote now entries => s.upsertManySaving now entries
  | syncFromRoomList now supernodeId rooms => s.upsertManySaving now (s.listedEntries supernodeId rooms)
  | setSpaceLinkage supernodeId roomId parentId spaceId => s.setSpaceLinkage supernodeId roomId parentId spaceId
  | adoptRoomIntoSpace sign ownerPub supernodeId roomId roomName roomType parentNodeId issuedAt =>
    ((s.adoptRoomIntoSpace H sign ownerPub supernodeId roomId roomName roomType parentNodeId issuedAt).1, true)
  | normalizeSupernodeIds peers tombstones => s.normalizeSupernodeIds peers tombstones

/-- A call as a step. -/
def step (s : RoomStore) (call : RoomCall) : Option RoomStore := some (call.apply H s).1

end RoomCall

end DoubleSlash.Store
