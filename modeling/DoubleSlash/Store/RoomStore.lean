import DoubleSlash.Protocol.Message
import DoubleSlash.Spaces.Owned
import Mathlib.Data.Finset.Basic

/-!
# The room store

`RoomStore` of the client's `room_store.rs`: the rooms of a device, keyed by supernode and room, the tombstones that keep a room list
from writing a room back, the Spaces of its identity, and when each room was last added or removed. Times are in seconds. What the
file on the disk holds, and what is logged, is left out.
-/

namespace DoubleSlash.Store

open Assoc Protocol Spaces Text

/-- `RoomEntry`. -/
structure RoomEntry where
  roomId : String
  roomName : String
  roomType : String := "public"
  supernodeId : String := ""
  creatorId : String := ""
  inviteToken : String := ""
  isCreator : Bool := false
  spaceId : String := ""
  parentId : String := ""
  invitePolicy : String := ""
  deriving DecidableEq

/-- `RoomRemoval`. -/
structure RoomRemoval where
  roomId : String
  hosts : List String
  removedAt : Nat
  deriving DecidableEq

/-- `RoomStore`. -/
structure RoomStore where
  rooms : HashMap String RoomEntry
  deletedIds : Finset String
  spaces : HashMap String Space
  addedAt : HashMap String Nat
  removals : HashMap String RoomRemoval

/-- `entry_key`. -/
def entryKey (supernodeId roomId : String) : String := supernodeId ++ ":" ++ roomId

namespace RoomStore

/-- A store whose file does not exist yet. -/
def empty : RoomStore := { rooms := ∅, deletedIds := ∅, spaces := ∅, addedAt := ∅, removals := ∅ }

/-- `get`. -/
def get (s : RoomStore) (supernodeId roomId : String) : Option RoomEntry := s.rooms.lookup (entryKey supernodeId roomId)

/-- `is_hidden_from_sidebar`. -/
def isHiddenFromSidebar (s : RoomStore) (supernodeId roomId : String) : Bool := decide (entryKey supernodeId roomId ∈ s.deletedIds)

/-- `hide_from_sidebar`. -/
def hideFromSidebar (s : RoomStore) (supernodeId roomId : String) : RoomStore :=
  { s with deletedIds := insert (entryKey supernodeId roomId) s.deletedIds }

/-- The ids that are no rooms of the user's: none, and the built-in room. -/
def isBuiltIn (roomId : String) : Bool := decide (roomId = "") || decide (roomId = "default")

/-- `note_added`, at a time. -/
def noteAdded (s : RoomStore) (now : Nat) (roomId : String) : RoomStore :=
  if isBuiltIn roomId then s
  else { s with addedAt := s.addedAt.insert roomId now, removals := s.removals.erase roomId }

/-! ## Adding -/

/-- The entry that comes in, with what the stored one has and it lacks. -/
def mergedEntry (existing m : RoomEntry) : RoomEntry :=
  let keepsName := decide (m.roomName = "") ||
    (decide (m.roomName = m.roomId) && decide (existing.roomName ≠ "") && decide (existing.roomName ≠ existing.roomId))
  let keepsType := decide (m.roomType = "") ||
    -- A list does not make a stored private room public.
    (decide (existing.roomType = "private") && decide (m.roomType = "public") &&
      (existing.isCreator || decide (existing.inviteToken ≠ "")))
  { m with
    roomName := if keepsName then existing.roomName else m.roomName
    roomType := if keepsType then existing.roomType else m.roomType
    creatorId := if m.creatorId = "" then existing.creatorId else m.creatorId
    inviteToken := if m.inviteToken = "" then existing.inviteToken else m.inviteToken
    spaceId := if m.spaceId = "" then existing.spaceId else m.spaceId
    parentId := if m.parentId = "" then existing.parentId else m.parentId
    invitePolicy := if m.invitePolicy = "" then existing.invitePolicy else m.invitePolicy
    isCreator := m.isCreator || existing.isCreator }

/-- `merge_in_memory`, at a time: the store afterwards and whether it changed; `none` for an entry without a supernode. -/
def mergeInMemory (s : RoomStore) (now : Nat) (entry : RoomEntry) (explicit : Bool) : Option (RoomStore × Bool) :=
  if entry.supernodeId = "" then none
  else
    let key := entryKey entry.supernodeId entry.roomId
    let merged := (s.rooms.lookup key).elim entry fun existing => mergedEntry existing entry
    let wasHidden := decide (key ∈ s.deletedIds)
    let isNew := (s.rooms.lookup key).isNone
    let s := { s with deletedIds := s.deletedIds.erase key }
    let s := if explicit ∧ (isNew ∨ wasHidden) then s.noteAdded now merged.roomId else s
    let unchanged := decide (s.rooms.lookup key = some merged)
    if unchanged ∧ wasHidden = false then some (s, false)
    else some ({ s with rooms := s.rooms.insert key merged }, true)

/-- `upsert`, at a time. -/
def upsert (s : RoomStore) (now : Nat) (entry : RoomEntry) : RoomStore :=
  ((s.mergeInMemory now entry true).map Prod.fst).getD s

/-- One entry of `upsert_many_from_remote`. -/
def upsertListed (s : RoomStore) (now : Nat) (entry : RoomEntry) : RoomStore :=
  if entry.supernodeId ≠ "" ∧ s.isHiddenFromSidebar entry.supernodeId entry.roomId then s
  else ((s.mergeInMemory now entry false).map Prod.fst).getD s

/-- `upsert_many_from_remote`. -/
def upsertManyFromRemote (s : RoomStore) (now : Nat) (entries : List RoomEntry) : RoomStore :=
  entries.foldl (fun s entry => s.upsertListed now entry) s

/-- `Value::get` on a listed room. -/
def listedField (room : Json) (key : String) : Option Json :=
  match room with
  | .obj fields => fields.lookup key
  | _ => none

/-- The entry a listed room is saved as. -/
def listedEntry (s : RoomStore) (supernodeId : String) (room : Json) : Option RoomEntry :=
  let roomId := ((listedField room "room_id").bind Json.asStr).getD ""
  if roomId = "" then none
  else
    let existing := s.get supernodeId roomId
    let listedName := (((listedField room "name").or (listedField room "room_name")).bind Json.asStr).filter fun n =>
      decide (n ≠ "") && decide (n ≠ roomId)
    let storedName := (existing.filter fun e => decide (e.roomName ≠ "") && decide (e.roomName ≠ roomId)).map RoomEntry.roomName
    let listedType := ((listedField room "room_type").bind Json.asStr).filter fun t => decide (t ≠ "")
    let storedType := (existing.map RoomEntry.roomType).filter fun t => decide (t ≠ "")
    let creatorId := ((listedField room "creator_id").bind Json.asStr).getD ""
    some {
      roomId := roomId
      roomName := (listedName.or storedName).getD roomId
      roomType := (listedType.or storedType).getD "public"
      supernodeId := supernodeId
      creatorId := if creatorId = "" then (existing.map RoomEntry.creatorId).getD "" else creatorId
      isCreator := (existing.map RoomEntry.isCreator).getD false
      inviteToken := (existing.map RoomEntry.inviteToken).getD "" }

/-- `sync_from_room_list`, at a time. -/
def syncFromRoomList (s : RoomStore) (now : Nat) (supernodeId : String) (rooms : Json) : RoomStore :=
  match rooms.asArray with
  | none => s
  | some rooms => s.upsertManyFromRemote now (rooms.filterMap (s.listedEntry supernodeId))

/-! ## Removing -/

/-- The hosts a room is stored under. -/
def hostsOf (s : RoomStore) (roomId : String) : List String :=
  ((values s.rooms).filter fun entry => decide (entry.roomId = roomId)).map RoomEntry.supernodeId

/-- `hosts.sort(); hosts.dedup()`. -/
def sortedHosts (hosts : List String) : List String := (hosts.mergeSort fun a b => decide (a ≤ b)).dedup

/-- `delete_local_at`. -/
def deleteLocalAt (s : RoomStore) (roomId : String) (extraSupernodeIds : List String) (removedAt : Nat) : RoomStore :=
  if isBuiltIn roomId then s
  else
    let hosts := sortedHosts (s.hostsOf roomId ++ extraSupernodeIds.filter fun id => decide (id ≠ ""))
    let s := hosts.foldl
      (fun s host => { s with rooms := s.rooms.erase (entryKey host roomId), deletedIds := insert (entryKey host roomId) s.deletedIds }) s
    { s with
      addedAt := s.addedAt.erase roomId
      removals := s.removals.insert roomId { roomId := roomId, hosts := hosts, removedAt := removedAt } }

/-! ## Spaces -/

/-- `adopt_room_into_space`: the store afterwards and the new root. -/
def adoptRoomIntoSpace {D : Type} (H : Hashing D) (sign : List UInt8 → List UInt8) (s : RoomStore)
    (ownerPub supernodeId roomId roomName roomType parentNodeId : String) (issuedAt : Nat) : RoomStore × SignedSpaceRoot :=
  let spaceId := deriveNodeId H "" ownerPub supernodeId
  let parentId := if parentNodeId = "" ∨ parentNodeId = roomId then spaceId else parentNodeId
  let space := (s.spaces.lookup spaceId).getD (Space.newServer H ownerPub supernodeId)
  let nodeType := if roomType.toList.map Char.toLower = "private".toList then "private" else "public"
  let space := space.upsertNode {
    nodeId := roomId
    parentId := parentId
    kind := "room"
    name := roomName
    nodeType := nodeType
    ownerPub := ownerPub
    invitePolicy := ""
    inherit := false
    keyCommit := "" }
  ({ s with
      spaces := s.spaces.insert spaceId space
      rooms := modify s.rooms (entryKey supernodeId roomId) fun entry => { entry with spaceId := spaceId, parentId := parentId } },
    space.signedRoot H issuedAt sign)

end RoomStore

end DoubleSlash.Store
