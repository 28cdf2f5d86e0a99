import DoubleSlash.Store.RoomStore

/-!
# Rooms of one identity's devices

The client's `own_sync.rs`: the snapshot a device sends its siblings, and the merge of one. What is logged is left out.
-/

namespace DoubleSlash.Store

open Assoc Spaces Text

/-- `OWN_ROOM_SNAPSHOT_VERSION`. -/
def ownRoomSnapshotVersion : Nat := 1

/-- `MAX_SNAPSHOT_ROOMS`. -/
def maxSnapshotRooms : Nat := 512

/-- `MAX_SNAPSHOT_SPACES`. -/
def maxSnapshotSpaces : Nat := 64

/-- `MAX_SNAPSHOT_SPACE_NODES`. -/
def maxSnapshotSpaceNodes : Nat := 1024

/-- `MAX_SNAPSHOT_REMOVALS`. -/
def maxSnapshotRemovals : Nat := 512

/-- `MAX_REMOVAL_HOSTS`. -/
def maxRemovalHosts : Nat := 64

/-- `MAX_STORED_REMOVALS`. -/
def maxStoredRemovals : Nat := 1024

/-- `OwnRoomSnapshot`. -/
structure OwnRoomSnapshot where
  v : Nat
  rooms : List RoomEntry
  spaces : List Space
  added : HashMap String Nat
  removed : List RoomRemoval

/-- `within_limits`. -/
def OwnRoomSnapshot.withinLimits (snapshot : OwnRoomSnapshot) : Bool :=
  decide (ownRoomSnapshotVersion ≤ snapshot.v) && decide (snapshot.rooms.length ≤ maxSnapshotRooms) &&
    decide (snapshot.added.entries.length ≤ maxSnapshotRooms) && decide (snapshot.removed.length ≤ maxSnapshotRemovals) &&
    (snapshot.removed.all fun removal => decide (removal.hosts.length ≤ maxRemovalHosts)) &&
    decide (snapshot.spaces.length ≤ maxSnapshotSpaces) &&
    snapshot.spaces.all fun space => decide (space.nodes.length ≤ maxSnapshotSpaceNodes)

/-- `OwnRoomMerge`. -/
structure OwnRoomMerge where
  changed : Bool
  roots : List (String × SignedSpaceRoot)
  siblingBehind : Bool
  removed : List (String × String)

/-- `OwnRoomMerge::default`. -/
def OwnRoomMerge.default : OwnRoomMerge := { changed := false, roots := [], siblingBehind := false, removed := [] }

/-- What a merge takes from its device: the spelling a supernode is filed under, if it is known, which ids name one host, and the
signature and time of new roots. -/
structure OwnDevice (D : Type) where
  hashing : Hashing D
  ownerPub : String
  resolveHost : String → Option String
  sameHost : String → String → Bool
  issuedAt : Nat
  sign : List UInt8 → List UInt8

/-- `fill_missing` of one field. -/
def filled (field value : String) : String := if field = "" ∧ value ≠ "" then value else field

/-- The stored name is one learned only as the room id, and the sender has a name. -/
def fillsName (existing incoming : RoomEntry) : Bool :=
  (decide (existing.roomName = "") || decide (existing.roomName = existing.roomId)) && decide (incoming.roomName ≠ "") &&
    decide (incoming.roomName ≠ incoming.roomId)

/-- `fill_missing`: the entry afterwards. -/
def fillMissing (existing incoming : RoomEntry) : RoomEntry :=
  { existing with
    creatorId := filled existing.creatorId incoming.creatorId
    inviteToken := filled existing.inviteToken incoming.inviteToken
    spaceId := filled existing.spaceId incoming.spaceId
    parentId := filled existing.parentId incoming.parentId
    invitePolicy := filled existing.invitePolicy incoming.invitePolicy
    roomType := filled existing.roomType incoming.roomType
    roomName := if fillsName existing incoming then incoming.roomName else existing.roomName
    isCreator := existing.isCreator || incoming.isCreator }

/-- A tombstone of a room, under a host or a sibling member of it. -/
def tombstoneUnder (sameHost : String → String → Bool) (host roomId tombstone : String) : Bool :=
  match splitOnce ':' tombstone with
  | none => false
  | some (sn, room) => decide (room = roomId) && (decide (sn = host) || sameHost sn host)

namespace RoomStore

/-! ## The snapshot -/

/-- The order of a snapshot's rooms. -/
def roomLe (a b : RoomEntry) : Bool :=
  decide (a.supernodeId < b.supernodeId) || (decide (a.supernodeId = b.supernodeId) && decide (a.roomId ≤ b.roomId))

/-- The newest removal first. -/
def removalLe (a b : RoomRemoval) : Bool :=
  decide (b.removedAt < a.removedAt) || (decide (a.removedAt = b.removedAt) && decide (a.roomId ≤ b.roomId))

/-- `removals_newest_first`. -/
def removalsNewestFirst (s : RoomStore) : List RoomRemoval := ((values s.removals).mergeSort removalLe).take maxStoredRemovals

/-- The rooms a snapshot may carry. -/
def snapshotRooms (s : RoomStore) : List RoomEntry :=
  (((values s.rooms).filter fun entry =>
    decide (entry.roomId ≠ "default") && !s.isHiddenFromSidebar entry.supernodeId entry.roomId).mergeSort roomLe).take maxSnapshotRooms

/-- `own_device_snapshot`. -/
def ownDeviceSnapshot (s : RoomStore) (ownerPub : String) : OwnRoomSnapshot where
  v := ownRoomSnapshotVersion
  rooms := s.snapshotRooms
  spaces := (((values s.spaces).filter fun space =>
    sameIdentity space.ownerPub ownerPub && decide (space.nodes.length ≤ maxSnapshotSpaceNodes)).mergeSort fun a b =>
      decide (a.spaceId ≤ b.spaceId)).take maxSnapshotSpaces
  added := s.snapshotRooms.foldl
    (fun added entry => (s.addedAt.lookup entry.roomId).elim added fun time => added.insert entry.roomId time) ∅
  removed := (s.removalsNewestFirst.take maxSnapshotRemovals).map fun removal => { removal with hosts := removal.hosts.take maxRemovalHosts }

/-! ## The merge -/

section

variable {D : Type} (device : OwnDevice D)

/-- One Space of a snapshot. -/
def mergeOwnSpace (acc : RoomStore × OwnRoomMerge) (incoming : Space) : RoomStore × OwnRoomMerge :=
  let (s, out) := acc
  if spaceIsOwnedBy device.hashing incoming device.ownerPub = false then acc
  else
    match incoming.server? with
    | none => acc
    | some server =>
      if device.resolveHost server.name = none then acc
      else
        let merge := mergeSpace device.hashing (s.spaces.lookup incoming.spaceId) incoming
        let roots : List (String × SignedSpaceRoot) := match merge with
          | .resign space => out.roots ++ [(server.name, space.signedRoot device.hashing device.issuedAt device.sign)]
          | _ => out.roots
        let merged : Option Space := match merge with
          | .unchanged => none
          | .adopt space | .resign space => some space
        let s := { s with spaces := merged.elim s.spaces fun space => s.spaces.insert space.spaceId space }
        let behind := (s.spaces.lookup incoming.spaceId).any fun ours =>
          decide (ours.epoch ≠ incoming.epoch) || decide (sortedNodes ours ≠ sortedNodes incoming)
        (s, { out with changed := out.changed || merged.isSome, roots := roots, siblingBehind := out.siblingBehind || behind })

/-- `apply_own_device_removal`. -/
def applyOwnDeviceRemoval (acc : RoomStore × OwnRoomMerge) (removal : RoomRemoval) : RoomStore × OwnRoomMerge :=
  let (s, out) := acc
  let roomId := removal.roomId
  if isBuiltIn roomId then acc
  else if (s.removals.lookup roomId).any fun ours => decide (removal.removedAt ≤ ours.removedAt) then acc
  else
    let stored := s.rooms.entries.filter fun e => decide (e.2.roomId = roomId)
    if stored.isEmpty = false ∧ removal.removedAt < (s.addedAt.lookup roomId).getD 0 then (s, { out with siblingBehind := true })
    else
      let named := (removal.hosts.filter fun host => decide (host ≠ "")).map fun host => (device.resolveHost host).getD host
      let held := stored.map fun e => e.2.supernodeId
      let hosts := sortedHosts (named ++ held)
      ({ s with
          rooms := retain s.rooms fun _ entry => decide (entry.roomId ≠ roomId)
          deletedIds := hosts.foldl (fun ids host => insert (entryKey host roomId) ids) s.deletedIds
          addedAt := s.addedAt.erase roomId
          removals := s.removals.insert roomId { roomId := roomId, hosts := hosts, removedAt := removal.removedAt } },
        { out with changed := true, removed := out.removed ++ held.map fun host => (host, roomId) })

/-- `merge_own_device_room_entry`: the store afterwards and whether it changed. -/
def mergeOwnDeviceRoomEntry (s : RoomStore) (incoming : RoomEntry) (host : String) : RoomStore × Bool :=
  let key := entryKey host incoming.roomId
  let existing := if (s.rooms.lookup key).isSome then some key
    else (s.rooms.entries.find? fun e => decide (e.2.roomId = incoming.roomId) && device.sameHost e.2.supernodeId host).map Sigma.fst
  match existing with
  | some existing =>
    match s.rooms.lookup existing with
    | none => (s, false)
    | some entry =>
      ({ s with rooms := s.rooms.insert existing (fillMissing entry incoming) },
        decide (fillMissing entry incoming ≠ entry) || fillsName entry incoming)
  | none =>
    if (s.deletedIds.filter fun tombstone => tombstoneUnder device.sameHost host incoming.roomId tombstone).Nonempty then (s, false)
    else ({ s with rooms := s.rooms.insert key { incoming with supernodeId := host } }, true)

/-- A removal of ours that a later addition lifts. -/
def liftRemoval (s : RoomStore) (removal : RoomRemoval) (roomId host : String) : RoomStore :=
  let ids := removal.hosts.foldl (fun ids removedHost => ids.erase (entryKey removedHost roomId)) s.deletedIds
  { s with
    deletedIds := ids.filter fun tombstone => tombstoneUnder device.sameHost host roomId tombstone = false
    removals := s.removals.erase roomId }

/-- The stamp of a room that the sender added later. -/
def stampAdded (s : RoomStore) (roomId : String) (addedAt : Nat) : RoomStore × Bool :=
  let stored := (values s.rooms).any fun entry => decide (entry.roomId = roomId)
  if stored ∧ (s.addedAt.lookup roomId).getD 0 < addedAt then ({ s with addedAt := s.addedAt.insert roomId addedAt }, true)
  else (s, false)

/-- `merge_own_device_room`. -/
def mergeOwnDeviceRoom (acc : RoomStore × OwnRoomMerge) (incoming : RoomEntry) (addedAt : Nat) : RoomStore × OwnRoomMerge :=
  let (s, out) := acc
  if isBuiltIn incoming.roomId then acc
  else
    match device.resolveHost incoming.supernodeId with
    | none => acc
    | some host =>
      match s.removals.lookup incoming.roomId with
      | some removal =>
        -- Removed here after the sender last added it: it stays removed, and the sender is told.
        if addedAt ≤ removal.removedAt then (s, { out with siblingBehind := true })
        else
          let merged := (s.liftRemoval device removal incoming.roomId host).mergeOwnDeviceRoomEntry device incoming host
          ((merged.1.stampAdded incoming.roomId addedAt).1, { out with changed := true })
      | none =>
        let merged := s.mergeOwnDeviceRoomEntry device incoming host
        let stamped := merged.1.stampAdded incoming.roomId addedAt
        (stamped.1, { out with changed := out.changed || merged.2 || stamped.2 })

/-- An entry is put in its place in a Space: the entry afterwards and whether it moved. -/
def linkEntry (space : Space) (host : String) (acc : RoomEntry × Bool) (node : SpaceNode) : RoomEntry × Bool :=
  let (entry, moved) := acc
  if entry.roomId ≠ node.nodeId ∨ (entry.supernodeId ≠ host ∧ device.sameHost entry.supernodeId host = false) then acc
  else if entry.parentId ≠ node.parentId ∨ entry.spaceId ≠ space.spaceId then
    ({ entry with parentId := node.parentId, spaceId := space.spaceId }, true)
  else (entry, moved)

/-- `stamp_linkage_from_own_spaces` for one Space. -/
def stampLinkage (acc : RoomStore × Bool) (space : Space) : RoomStore × Bool :=
  let (s, changed) := acc
  if sameIdentity space.ownerPub device.ownerPub = false then acc
  else
    match space.server? with
    | none => acc
    | some server =>
      let nodes := space.nodes.filter fun node => decide (node.kind = "room")
      let linked (entry : RoomEntry) := nodes.foldl (linkEntry device space server.name) (entry, false)
      ({ s with rooms := mapValues s.rooms fun entry => (linked entry).1 },
        changed || (values s.rooms).any fun entry => (linked entry).2)

/-- `stamp_linkage_from_own_spaces`: the store afterwards and whether a room moved. -/
def stampLinkageFromOwnSpaces (s : RoomStore) : RoomStore × Bool := (values s.spaces).foldl (stampLinkage device) (s, false)

/-- `merge_own_device_snapshot`. -/
def mergeOwnDeviceSnapshot (s : RoomStore) (snapshot : OwnRoomSnapshot) : RoomStore × OwnRoomMerge :=
  if snapshot.withinLimits = false then (s, .default)
  else
    let acc := snapshot.spaces.foldl (mergeOwnSpace device) (s, .default)
    let acc := snapshot.removed.foldl (applyOwnDeviceRemoval device) acc
    let acc := snapshot.rooms.foldl
      (fun acc incoming => mergeOwnDeviceRoom device acc incoming ((snapshot.added.lookup incoming.roomId).getD 0)) acc
    let stamped := acc.1.stampLinkageFromOwnSpaces device
    (stamped.1, { acc.2 with changed := acc.2.changed || stamped.2 })

end

end RoomStore

end DoubleSlash.Store
