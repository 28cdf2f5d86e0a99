import DoubleSlash.Tls.Certificate
import Mathlib.Tactic.Linarith

/-!
# One peer's direct connections

`PeerConnection` of `connection_manager/internal.rs`: the live QUIC sessions with one peer, at most one for each of its
devices. The channel into a session (`mpsc::Sender`) is a type parameter; `same_channel` is equality on it.
-/

namespace DoubleSlash.Direct

open Tls

instance : Ord DeviceId where
  compare a b := compare a.bytes b.bytes

instance : Std.TransOrd DeviceId where
  eq_swap {a b} := @Std.OrientedCmp.eq_swap (List UInt8) compare _ a.bytes b.bytes
  isLE_trans {a b c} := @Std.TransCmp.isLE_trans (List UInt8) compare _ a.bytes b.bytes c.bytes

instance : Std.LawfulEqOrd DeviceId where
  eq_of_compare := by
    intro a b h
    cases a
    cases b
    simpa using @Std.LawfulEqCmp.eq_of_compare (List UInt8) compare _ _ _ h

/-- A session as its events name it: the device of its certificate and the connection's stable id. -/
structure DirectEndpoint where
  device : Option DeviceId
  connectionId : Nat
  deriving DecidableEq

inductive PeerConnectionState where
  | disconnected | connecting | connected
  deriving DecidableEq, Repr

/-- How many devices of one peer may be connected at a time. -/
def maxLiveDeviceRoutes : Nat := 8

/-- The sessions with one peer. `endpoints` is a `BTreeMap`: its keys are ordered, the session without a device first. -/
structure PeerConnection (S : Type) where
  peerId : String
  state : PeerConnectionState
  quicOutTx : Option S
  connectedAt : Option Nat
  endpoints : Std.TreeMap (Option DeviceId) (Nat × S)

namespace PeerConnection

variable {S : Type} [DecidableEq S]

/-- `PeerConnection::new`. -/
def new (peerId : String) : PeerConnection S where
  peerId := peerId
  state := .disconnected
  quicOutTx := none
  connectedAt := none
  endpoints := ∅

/-- The channels of the endpoints, in key order (`endpoints.values()`). -/
def channels (c : PeerConnection S) : List S :=
  c.endpoints.toList.map fun e => e.2.2

/-- `refresh_endpoint_state`: the selected channel stays as long as some endpoint has it, so that a sibling's arrival does not
move a media stream; otherwise the first endpoint's channel is selected. -/
def refreshEndpointState (c : PeerConnection S) : PeerConnection S :=
  let selected := if c.quicOutTx.any fun tx => c.channels.any (· == tx) then c.quicOutTx else c.channels.head?
  { c with quicOutTx := selected, state := if selected.isSome then .connected else .disconnected }

/-- `register_endpoint`: the connection afterwards, and whether the session was taken. -/
def registerEndpoint (c : PeerConnection S) (endpoint : DirectEndpoint) (tx : S) : PeerConnection S × Bool :=
  if endpoint.device.isSome && !c.endpoints.contains endpoint.device
      && decide (maxLiveDeviceRoutes ≤ (c.endpoints.keys.filter Option.isSome).length) then (c, false)
  else
    (refreshEndpointState { c with endpoints := c.endpoints.insert endpoint.device (endpoint.connectionId, tx) }, true)

/-- `has_endpoint`. -/
def hasEndpoint (c : PeerConnection S) (endpoint : DirectEndpoint) : Bool :=
  c.endpoints[endpoint.device]?.any fun e => e.1 == endpoint.connectionId

/-- `remove_endpoint`: the connection afterwards, and whether the session was there. -/
def removeEndpoint (c : PeerConnection S) (endpoint : DirectEndpoint) : PeerConnection S × Bool :=
  if c.hasEndpoint endpoint then
    (refreshEndpointState { c with endpoints := c.endpoints.erase endpoint.device }, true)
  else (c, false)

/-! ## What the operations leave -/

omit [DecidableEq S] in
theorem mem_channels (c : PeerConnection S) (tx : S) : tx ∈ c.channels ↔
    ∃ (d : Option DeviceId) (id : Nat), c.endpoints[d]? = some (id, tx) := by
  simp only [channels, List.mem_map, Prod.exists]
  constructor
  · rintro ⟨d, id, tx', hmem, rfl⟩
    exact ⟨d, id, Std.TreeMap.mem_toList_iff_getElem?_eq_some.mp hmem⟩
  · rintro ⟨d, id, h⟩
    exact ⟨d, id, tx, Std.TreeMap.mem_toList_iff_getElem?_eq_some.mpr h, rfl⟩

@[simp] theorem refreshEndpointState_endpoints (c : PeerConnection S) : c.refreshEndpointState.endpoints = c.endpoints := rfl

@[simp] theorem refreshEndpointState_channels (c : PeerConnection S) : c.refreshEndpointState.channels = c.channels := rfl

@[simp] theorem refreshEndpointState_peerId (c : PeerConnection S) : c.refreshEndpointState.peerId = c.peerId := rfl

/-- The selected channel is always an endpoint's. -/
theorem selected_mem (c : PeerConnection S) {tx : S} (h : c.refreshEndpointState.quicOutTx = some tx) : tx ∈ c.channels := by
  unfold refreshEndpointState at h
  dsimp only at h
  split at h
  · rename_i hany
    rw [h] at hany
    simpa using hany
  · exact List.mem_of_head? h

/-- A channel is selected exactly when there is an endpoint. -/
theorem selected_isSome (c : PeerConnection S) : c.refreshEndpointState.quicOutTx.isSome ↔ c.channels ≠ [] := by
  constructor
  · intro h hnil
    obtain ⟨tx, htx⟩ := Option.isSome_iff_exists.mp h
    simpa [hnil] using selected_mem c htx
  · intro h
    unfold refreshEndpointState
    dsimp only
    split
    · rename_i hany
      cases hq : c.quicOutTx with
      | none => simp [hq] at hany
      | some tx => rfl
    · simpa using h

/-- A refreshed connection counts as connected exactly when there is an endpoint. -/
theorem refreshEndpointState_connected (c : PeerConnection S) :
    c.refreshEndpointState.state = .connected ↔ c.channels ≠ [] := by
  rw [← selected_isSome]
  unfold refreshEndpointState
  dsimp only
  split <;> split <;> simp_all

end PeerConnection

end DoubleSlash.Direct
