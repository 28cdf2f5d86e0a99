import DoubleSlash.Store.OwnSync
import Mathlib.Logic.Function.Basic

/-!
# The devices of one identity

Each device has a room store of its own. It adds and removes rooms, saves the room lists of supernodes, announces the roots of its
Spaces and sends its siblings snapshots. A snapshot that was sent may arrive at any device, at any time, again or never.
-/

namespace DoubleSlash.Store

open Protocol Spaces

/-- What one identity signs with. -/
structure Identity (D : Type) where
  hashing : Hashing D
  ownerPub : String
  sign : List UInt8 → List UInt8

/-- What a device knows of the supernodes: the spelling each is filed under and which ids name one. -/
structure HostView where
  resolveHost : String → Option String
  sameHost : String → String → Bool

/-- A device of the identity. -/
def Identity.device {D : Type} (identity : Identity D) (view : HostView) (issuedAt : Nat) : OwnDevice D where
  hashing := identity.hashing
  ownerPub := identity.ownerPub
  resolveHost := view.resolveHost
  sameHost := view.sameHost
  issuedAt := issuedAt
  sign := identity.sign

/-- The stores of the devices, the snapshots they sent and the roots they announced. -/
structure Household (ι : Type) where
  store : ι → RoomStore
  sent : List (ι × OwnRoomSnapshot)
  announced : List (ι × SignedSpaceRoot)

/-- Devices that stored nothing yet. -/
def Household.empty (ι : Type) : Household ι := { store := fun _ => RoomStore.empty, sent := [], announced := [] }

/-- What a device does. -/
inductive DeviceAct (ι : Type) where
  | adoptRoomIntoSpace (i : ι) (supernodeId roomId roomName roomType parentNodeId : String) (now : Nat)
  | upsert (i : ι) (entry : RoomEntry) (now : Nat)
  | deleteLocal (i : ι) (roomId : String) (extraSupernodeIds : List String) (now : Nat)
  | syncFromRoomList (i : ι) (supernodeId : String) (rooms : Json) (now : Nat)
  | send (i : ι)
  /-- One of the snapshots that were sent arrives. -/
  | merge (i : ι) (n : Nat) (view : HostView) (now : Nat)

namespace Household

variable {ι D : Type}

/-- A device announces roots. -/
def announce (h : Household ι) (i : ι) (roots : List SignedSpaceRoot) : Household ι :=
  { h with announced := h.announced ++ roots.map fun root => (i, root) }

@[simp] theorem announce_store (h : Household ι) (i : ι) (roots : List SignedSpaceRoot) : (h.announce i roots).store = h.store := rfl

@[simp] theorem announce_sent (h : Household ι) (i : ι) (roots : List SignedSpaceRoot) : (h.announce i roots).sent = h.sent := rfl

variable [DecidableEq ι] (identity : Identity D)

/-- The store of a device changes. -/
def setStore (h : Household ι) (i : ι) (s : RoomStore) : Household ι := { h with store := Function.update h.store i s }

@[simp] theorem setStore_store (h : Household ι) (i j : ι) (s : RoomStore) :
    (h.setStore i s).store j = if j = i then s else h.store j := by
  simp [setStore, Function.update_apply]

@[simp] theorem setStore_sent (h : Household ι) (i : ι) (s : RoomStore) : (h.setStore i s).sent = h.sent := rfl

@[simp] theorem setStore_announced (h : Household ι) (i : ι) (s : RoomStore) : (h.setStore i s).announced = h.announced := rfl

/-- One step of a device; a snapshot that was not sent does not arrive. -/
def step (h : Household ι) : DeviceAct ι → Option (Household ι)
  | .adoptRoomIntoSpace i supernodeId roomId roomName roomType parentNodeId now =>
    let (s, root) := (h.store i).adoptRoomIntoSpace identity.hashing identity.sign identity.ownerPub supernodeId roomId roomName roomType
      parentNodeId now
    some ((h.setStore i s).announce i [root])
  | .upsert i entry now => some (h.setStore i ((h.store i).upsert now entry))
  | .deleteLocal i roomId extraSupernodeIds now => some (h.setStore i ((h.store i).deleteLocalAt roomId extraSupernodeIds now))
  | .syncFromRoomList i supernodeId rooms now => some (h.setStore i ((h.store i).syncFromRoomList now supernodeId rooms))
  | .send i => some { h with sent := h.sent ++ [(i, (h.store i).ownDeviceSnapshot identity.ownerPub)] }
  | .merge i n view now =>
    (h.sent[n]?).map fun snapshot =>
      let (s, out) := (h.store i).mergeOwnDeviceSnapshot (identity.device view now) snapshot.2
      (h.setStore i s).announce i (out.roots.map Prod.snd)

end Household

end DoubleSlash.Store
