import DoubleSlash.Lib.Nested
import DoubleSlash.Relay.Routes

/-!
# Routes of an identity's devices, as they are stored

`DeviceRoutes` of the features crate's `device.rs` with its table of tables. The routing tables of the relay are read through pairs
instead.
-/

namespace DoubleSlash.Features

open Assoc Nested Relay Sfu Tls

/-- `DeviceRoutes`. -/
structure DeviceRoutes (T : Type) where
  identities : HashMap String (HashMap (Option DeviceId) T)

/-- `DeviceRouteLimit`. -/
inductive DeviceRouteLimit where
  | limit
  deriving DecidableEq

namespace DeviceRoutes

variable {T : Type}

instance : EmptyCollection (DeviceRoutes T) := ⟨⟨∅⟩⟩

/-- `get_endpoint`. -/
def getEndpoint (routes : DeviceRoutes T) (identity : String) (device : Option DeviceId) : Option T :=
  slot routes.identities (identityKey identity) device

/-- `insert`, and what was in the legacy slot before. -/
def insert (routes : DeviceRoutes T) (identity : String) (sender : T) : DeviceRoutes T × Option T :=
  (⟨put routes.identities (identityKey identity) none sender⟩, routes.getEndpoint identity none)

/-- The device slots of an identity. -/
def deviceCount (routes : DeviceRoutes T) (identity : String) : Nat :=
  ((((routes.identities.lookup (identityKey identity)).getD ∅).keys).filter Option.isSome).length

/-- `register_device`. The identity's table is there from the first line on. -/
def registerDevice (routes : DeviceRoutes T) (identity : String) (device : DeviceId) (sender : T) :
    DeviceRoutes T × Except DeviceRouteLimit (Option T) :=
  let routes : DeviceRoutes T := ⟨entry routes.identities (identityKey identity)⟩
  if (routes.getEndpoint identity (some device)).isNone && decide (maxLiveDeviceRoutes ≤ routes.deviceCount identity) then
    (routes, .error .limit)
  else
    (⟨put routes.identities (identityKey identity) (some device) sender⟩, .ok (routes.getEndpoint identity (some device)))

/-- `remove_endpoint_if`. -/
def removeEndpointIf (routes : DeviceRoutes T) (identity : String) (device : Option DeviceId) (isIt : T → Bool) :
    DeviceRoutes T × Bool :=
  if !(routes.getEndpoint identity device).any isIt then (routes, false)
  else (⟨take routes.identities (identityKey identity) device⟩, true)

/-- `remove`: the legacy slot. -/
def remove (routes : DeviceRoutes T) (identity : String) : DeviceRoutes T × Option T :=
  (⟨take routes.identities (identityKey identity) none⟩, routes.getEndpoint identity none)

/-- `endpoints`. -/
def endpoints (routes : DeviceRoutes T) (identity : String) : List (Option DeviceId × T) :=
  ((routes.identities.lookup (identityKey identity)).getD ∅).entries.map fun e => (e.1, e.2)

/-- `contains_key`. -/
def containsKey (routes : DeviceRoutes T) (identity : String) : Bool := decide (identityKey identity ∈ routes.identities)

/-- What is done with a table. -/
inductive Op (T : Type) where
  | insert (identity : String) (sender : T)
  | registerDevice (identity : String) (device : DeviceId) (sender : T)
  | remove (identity : String)
  | removeEndpointIf (identity : String) (device : Option DeviceId) (isIt : T → Bool)

/-- The identity and the device of an operation. -/
def Op.target : Op T → String × Option DeviceId
  | .insert identity _ | .remove identity => (identity, none)
  | .registerDevice identity device _ => (identity, some device)
  | .removeEndpointIf identity device _ => (identity, device)

/-- The same operation under another spelling. -/
def Op.respell (identity : String) : Op T → Op T
  | .insert _ sender => .insert identity sender
  | .registerDevice _ device sender => .registerDevice identity device sender
  | .remove _ => .remove identity
  | .removeEndpointIf _ device isIt => .removeEndpointIf identity device isIt

/-- The table after an operation. -/
def apply (routes : DeviceRoutes T) : Op T → DeviceRoutes T
  | .insert identity sender => (routes.insert identity sender).1
  | .registerDevice identity device sender => (routes.registerDevice identity device sender).1
  | .remove identity => (routes.remove identity).1
  | .removeEndpointIf identity device isIt => (routes.removeEndpointIf identity device isIt).1

end DeviceRoutes

end DoubleSlash.Features
