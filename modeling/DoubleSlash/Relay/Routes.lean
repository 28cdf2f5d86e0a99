import DoubleSlash.Lib.Assoc
import DoubleSlash.Lib.Base64
import DoubleSlash.Sfu.Room

/-!
# Routes of an identity's devices

`DeviceRoutes` of `device.rs`: at most one value for each identity and device, the legacy connection of an identity in the slot
without a device. Every spelling of an identity key names the same slots. The inner table of an identity is dropped with its last
slot, so the table of tables is one table over pairs.
-/

namespace DoubleSlash.Relay

open Assoc Codec Text Tls Sfu

/-- `identity_key`: the padded spelling of a 32-byte key, anything else as it is. Proofs about the table never look inside. -/
@[irreducible] def identityKey (identity : String) : String :=
  match b64Groups (trimEndMatches '=' identity).toList with
  | some bytes => if bytes.length = 32 then b64urlEncodePadded bytes else identity
  | none => identity

/-- The device slots of an identity; its legacy slot is not counted. -/
def deviceSlots {T : Type} (slots : HashMap (String × Option DeviceId) T) (key : String) : Nat :=
  slots.keys.countP fun slot => decide (slot.1 = key) && slot.2.isSome

/-- `DeviceRoutes`. -/
structure DeviceRoutes (T : Type) where
  slots : HashMap (String × Option DeviceId) T
  limited : ∀ key, deviceSlots slots key ≤ maxLiveDeviceRoutes

namespace DeviceRoutes

variable {T : Type}

instance : EmptyCollection (DeviceRoutes T) := ⟨⟨∅, fun _ => Nat.zero_le _⟩⟩

theorem deviceSlots_insert_le (slots : HashMap (String × Option DeviceId) T) (slot : String × Option DeviceId) (value : T)
    (key : String) (h : slot.2.isSome = true → slot ∉ slots → slot.1 = key → deviceSlots slots key < maxLiveDeviceRoutes)
    (hle : deviceSlots slots key ≤ maxLiveDeviceRoutes) :
    deviceSlots (slots.insert slot value) key ≤ maxLiveDeviceRoutes := by
  unfold deviceSlots at h hle ⊢
  by_cases hmem : slot ∈ slots
  · rw [countP_insert_of_mem value hmem]
    exact hle
  · rw [countP_insert_of_notMem value hmem]
    split
    · rename_i hcounts
      rw [Bool.and_eq_true, decide_eq_true_eq] at hcounts
      exact h hcounts.2 hmem hcounts.1
    · exact hle

/-- `get_endpoint`. -/
def getEndpoint (routes : DeviceRoutes T) (identity : String) (device : Option DeviceId) : Option T :=
  routes.slots.lookup (identityKey identity, device)

/-- `endpoints`. -/
def endpoints (routes : DeviceRoutes T) (identity : String) : List (Option DeviceId × T) :=
  (routes.slots.entries.filter fun e => decide (e.1.1 = identityKey identity)).map fun e => (e.1.2, e.2)

/-- `contains_key`. -/
def containsKey (routes : DeviceRoutes T) (identity : String) : Bool :=
  routes.slots.keys.any fun slot => decide (slot.1 = identityKey identity)

/-- `len`. -/
def len (routes : DeviceRoutes T) : Nat := routes.slots.entries.length

/-- `insert`: the legacy slot. -/
def insert (routes : DeviceRoutes T) (identity : String) (value : T) : DeviceRoutes T where
  slots := routes.slots.insert (identityKey identity, none) value
  limited key := deviceSlots_insert_le _ _ _ _ (fun h => by simp at h) (routes.limited key)

/-- `register_device`; none when the identity has reached its limit. -/
def registerDevice (routes : DeviceRoutes T) (identity : String) (device : DeviceId) (value : T) : Option (DeviceRoutes T) :=
  if h : (identityKey identity, some device) ∉ routes.slots ∧
      maxLiveDeviceRoutes ≤ deviceSlots routes.slots (identityKey identity) then none
  else some {
    slots := routes.slots.insert (identityKey identity, some device) value
    limited key := deviceSlots_insert_le _ _ _ _ (fun _ hmem hkey => by
      subst hkey
      exact Nat.lt_of_not_le fun hle => h ⟨hmem, hle⟩) (routes.limited key) }

/-- `insert` for the legacy connection, `register_device` for a device. -/
def register (routes : DeviceRoutes T) (identity : String) (device : Option DeviceId) (value : T) : Option (DeviceRoutes T) :=
  match device with
  | some device => routes.registerDevice identity device value
  | none => some (routes.insert identity value)

/-- `if let Some(value) = routes.get_endpoint_mut(identity, device) { f(value) }`. -/
def modifyEndpoint (routes : DeviceRoutes T) (identity : String) (device : Option DeviceId) (f : T → T) : DeviceRoutes T where
  slots := Assoc.modify routes.slots (identityKey identity, device) f
  limited key := by
    unfold Assoc.modify
    split
    · exact routes.limited key
    · rename_i value hvalue
      have hmem : (identityKey identity, device) ∈ routes.slots := AList.lookup_isSome.mp (by rw [hvalue]; rfl)
      exact deviceSlots_insert_le _ _ _ _ (fun _ hnot => absurd hmem hnot) (routes.limited key)

/-- `remove_endpoint_if(identity, device, |_| true)`. -/
def removeEndpoint (routes : DeviceRoutes T) (identity : String) (device : Option DeviceId) : DeviceRoutes T where
  slots := routes.slots.erase (identityKey identity, device)
  limited key := Nat.le_trans (countP_erase_le _ _ _) (routes.limited key)

/-! ## What the slots hold after each operation -/

@[simp] theorem getEndpoint_empty (identity : String) (device : Option DeviceId) :
    (∅ : DeviceRoutes T).getEndpoint identity device = none := AList.lookup_empty _

theorem lookup_removeEndpoint (routes : DeviceRoutes T) (identity : String) (device : Option DeviceId)
    (slot : String × Option DeviceId) :
    (routes.removeEndpoint identity device).slots.lookup slot =
      if slot = (identityKey identity, device) then none else routes.slots.lookup slot := by
  unfold removeEndpoint
  split
  · rename_i h
    rw [h]
    exact AList.lookup_erase _ _
  · rename_i h
    exact AList.lookup_erase_ne h

theorem lookup_modifyEndpoint (routes : DeviceRoutes T) (identity : String) (device : Option DeviceId) (f : T → T)
    (slot : String × Option DeviceId) :
    (routes.modifyEndpoint identity device f).slots.lookup slot =
      if slot = (identityKey identity, device) then (routes.slots.lookup slot).map f else routes.slots.lookup slot := by
  have h := lookup_modify routes.slots (identityKey identity, device) slot f
  by_cases hslot : slot = (identityKey identity, device)
  · subst hslot
    simpa [modifyEndpoint] using h
  · simpa [modifyEndpoint, hslot] using h

theorem lookup_register {routes routes' : DeviceRoutes T} {identity : String} {device : Option DeviceId} {value : T}
    (h : routes.register identity device value = some routes') (slot : String × Option DeviceId) :
    routes'.slots.lookup slot =
      if slot = (identityKey identity, device) then some value else routes.slots.lookup slot := by
  have hslots : routes'.slots = routes.slots.insert (identityKey identity, device) value := by
    cases device with
    | none =>
      cases h
      rfl
    | some device =>
      simp only [register, registerDevice] at h
      split at h
      · cases h
      · cases h
        rfl
  rw [hslots]
  split
  · rename_i hslot
    rw [hslot, AList.lookup_insert]
  · rename_i hslot
    rw [AList.lookup_insert_ne hslot]

/-- A slot that is held can always be registered again. -/
theorem register_isSome_of_mem {routes : DeviceRoutes T} {identity : String} {device : Option DeviceId} (value : T)
    (h : (identityKey identity, device) ∈ routes.slots) : (routes.register identity device value).isSome = true := by
  cases device with
  | none => rfl
  | some device =>
    simp only [register, registerDevice]
    rw [dif_neg fun hfull => hfull.1 h]
    rfl

/-- A slot that was just given up can be registered again. -/
theorem register_isSome_of_removed {routes : DeviceRoutes T} {identity : String} {device : Option DeviceId} (value : T)
    (h : (identityKey identity, device) ∈ routes.slots) :
    ((routes.removeEndpoint identity device).register identity device value).isSome = true := by
  cases device with
  | none => rfl
  | some device =>
    have hcount : deviceSlots (routes.removeEndpoint identity (some device)).slots (identityKey identity) + 1 =
        deviceSlots routes.slots (identityKey identity) := countP_erase_of_mem h (by simp)
    have hlimited := routes.limited (identityKey identity)
    simp only [register, registerDevice]
    rw [dif_neg fun hfull => by have := hfull.2; omega]
    rfl

theorem mem_endpoints {routes : DeviceRoutes T} {identity : String} {device : Option DeviceId} {value : T} :
    (device, value) ∈ routes.endpoints identity ↔ routes.slots.lookup (identityKey identity, device) = some value := by
  rw [← Option.mem_def, AList.mem_lookup_iff]
  simp only [endpoints, List.mem_map, List.mem_filter, decide_eq_true_eq, Prod.mk.injEq]
  constructor
  · rintro ⟨⟨⟨key, device'⟩, value'⟩, ⟨hmem, rfl⟩, rfl, rfl⟩
    exact hmem
  · intro hmem
    exact ⟨_, ⟨hmem, rfl⟩, rfl, rfl⟩

theorem containsKey_iff {routes : DeviceRoutes T} {identity : String} :
    routes.containsKey identity = true ↔ ∃ device value, routes.slots.lookup (identityKey identity, device) = some value := by
  simp only [containsKey, List.any_eq_true, decide_eq_true_eq]
  constructor
  · rintro ⟨⟨key, device⟩, hmem, rfl⟩
    obtain ⟨value, hvalue⟩ := (mem_keys_iff _ _).mp hmem
    exact ⟨device, value, hvalue⟩
  · rintro ⟨device, value, hvalue⟩
    exact ⟨_, (mem_keys_iff _ _).mpr ⟨value, hvalue⟩, rfl⟩

end DeviceRoutes

/-! ## Spellings -/

theorem trimEndMatches_idem (c : Char) (s : String) : trimEndMatches c (trimEndMatches c s) = trimEndMatches c s := by
  unfold trimEndMatches
  rw [String.toList_ofList, List.rdropWhile_idempotent]

/-- The table's key of an identity has the identity's unpadded spelling. -/
@[simp] theorem trimEndMatches_identityKey (identity : String) :
    trimEndMatches '=' (identityKey identity) = trimEndMatches '=' identity := by
  unfold identityKey
  split
  · rename_i bytes hbytes
    split
    · obtain ⟨pad, heq, -, -⟩ := b64EncodeChars_eq bytes
      have hpad : (List.replicate pad '=').map toUrlSafe = List.replicate pad '=' := by
        rw [List.map_replicate]
        rfl
      unfold b64urlEncodePadded
      rw [trimEndMatches, String.toList_ofList, heq, List.map_append, hpad, rdropWhile_pad, b64Body_of_groups hbytes,
        String.ofList_toList]
    · rfl
  · rfl

end DoubleSlash.Relay
