import DoubleSlash.Features.DeviceRoutes

/-!
# Device routes are normalised and isolated

Whatever is done with a table of routes, the spellings of an identity name the same slots, an identity is there only with a slot, its
device slots are at most eight, and an operation changes one slot. Read by pairs it is the table the relay routes by.
-/

namespace DoubleSlash.Features

open Assoc Codec Nested Relay Sfu Text Tls

/-- Two texts name one identity: they are the same, or spell the same key with whatever padding. -/
def SameIdentity (a b : String) : Prop :=
  a = b ∨ ∃ key : List UInt8, key.length = 32 ∧ trimEndMatches '=' a = b64urlEncode key ∧ trimEndMatches '=' b = b64urlEncode key

namespace DeviceRoutes

variable {T : Type}

/-- A table of routes as it should be, and what can be done with it. -/
structure Normalised (routes : DeviceRoutes T) : Prop where
  read : ∀ a b, SameIdentity a b → (∀ device, routes.getEndpoint a device = routes.getEndpoint b device) ∧
    routes.endpoints a = routes.endpoints b ∧ routes.containsKey a = routes.containsKey b
  written : ∀ op identity, SameIdentity (Op.target op).1 identity → routes.apply (op.respell identity) = routes.apply op
  noHollow : NoHollow routes.identities
  listed : ∀ identity device value, (device, value) ∈ routes.endpoints identity ↔ routes.getEndpoint identity device = some value
  limited : ∀ identity, ((routes.endpoints identity).filter fun e => e.1.isSome).length ≤ maxLiveDeviceRoutes
  refused : ∀ identity device sender, (routes.registerDevice identity device sender).2 = .error .limit →
    (routes.registerDevice identity device sender).1 = routes
  isolated : ∀ op identity device, ¬(SameIdentity (Op.target op).1 identity ∧ (Op.target op).2 = device) →
    (routes.apply op).getEndpoint identity device = routes.getEndpoint identity device
  kept : ∀ identity device isIt, (∀ value, routes.getEndpoint identity device = some value → isIt value = false) →
    routes.removeEndpointIf identity device isIt = (routes, false)

end DeviceRoutes

namespace DeviceRoutesAux

open DoubleSlash.Features.DeviceRoutes

variable {T : Type} {routes : DeviceRoutes T}

/-! ### Spellings -/

theorem identityKey_of_key {s : String} {key : List UInt8} (hlen : key.length = 32) (hs : trimEndMatches '=' s = b64urlEncode key) :
    identityKey s = b64urlEncodePadded key := by
  have hgroups : b64Groups (trimEndMatches '=' s).toList = some key := by
    rw [hs, b64urlEncode, String.toList_ofList]
    exact b64Groups_b64Body key
  unfold identityKey
  rw [hgroups]
  exact if_pos hlen

/-- A text spells a key, or stands for itself. -/
theorem identityKey_cases (s : String) :
    (∃ key : List UInt8, key.length = 32 ∧ trimEndMatches '=' s = b64urlEncode key) ∨ identityKey s = s := by
  unfold identityKey
  split
  next bytes hbytes =>
    split
    next hlen =>
      refine Or.inl ⟨bytes, hlen, ?_⟩
      rw [b64urlEncode, b64Body_of_groups hbytes, String.ofList_toList]
    next => exact Or.inr rfl
  next => exact Or.inr rfl

/-- The key of the table tells the identities apart. -/
theorem identityKey_eq_iff (a b : String) : identityKey a = identityKey b ↔ SameIdentity a b := by
  constructor
  · intro heq
    have htrim : trimEndMatches '=' a = trimEndMatches '=' b := by
      rw [← trimEndMatches_identityKey a, heq, trimEndMatches_identityKey b]
    rcases identityKey_cases a with ⟨key, hlen, ha⟩ | ha
    · exact Or.inr ⟨key, hlen, ha, htrim ▸ ha⟩
    · rcases identityKey_cases b with ⟨key, hlen, hb⟩ | hb
      · exact Or.inr ⟨key, hlen, htrim.trans hb, hb⟩
      · exact Or.inl (by rw [← ha, heq, hb])
  · rintro (rfl | ⟨key, hlen, ha, hb⟩)
    · rfl
    · rw [identityKey_of_key hlen ha, identityKey_of_key hlen hb]

/-- An operation looks at an identity through its key only. -/
theorem apply_respell {op : Op T} {identity : String} (h : identityKey op.target.1 = identityKey identity) :
    routes.apply (op.respell identity) = routes.apply op := by
  cases op with
  | insert own sender =>
    have hkey : identityKey own = identityKey identity := h
    simp only [Op.respell, apply, DeviceRoutes.insert]
    rw [hkey]
  | registerDevice own device sender =>
    have hkey : identityKey own = identityKey identity := h
    simp only [Op.respell, apply]
    unfold registerDevice getEndpoint deviceCount
    rw [hkey]
  | remove own =>
    have hkey : identityKey own = identityKey identity := h
    simp only [Op.respell, apply, remove]
    rw [hkey]
  | removeEndpointIf own device isIt =>
    have hkey : identityKey own = identityKey identity := h
    simp only [Op.respell, apply]
    unfold removeEndpointIf getEndpoint
    rw [hkey]

/-! ### What an operation does -/

section

variable {K S V : Type} [DecidableEq K]

theorem entry_of_mem {m : HashMap K (HashMap S V)} {k : K} (h : k ∈ m) : entry m k = m := if_pos h

theorem lookup_entry (m : HashMap K (HashMap S V)) (k k' : K) : ((entry m k).lookup k').getD ∅ = (m.lookup k').getD ∅ := by
  unfold entry
  split
  · rfl
  next hnot =>
    by_cases hk : k' = k
    · subst hk
      rw [AList.lookup_insert, AList.lookup_eq_none.mpr hnot]
      rfl
    · rw [AList.lookup_insert_ne hk]

variable [DecidableEq S]

theorem slot_entry (m : HashMap K (HashMap S V)) (k k' : K) (s : S) : slot (entry m k) k' s = slot m k' s := by
  have hread : ∀ m : HashMap K (HashMap S V), slot m k' s = ((m.lookup k').getD ∅).lookup s := by
    intro m
    unfold slot
    cases m.lookup k' with
    | none =>
      rw [Option.bind_none, Option.getD_none, AList.lookup_empty]
    | some inner => rfl
  rw [hread, hread, lookup_entry]

theorem put_entry (m : HashMap K (HashMap S V)) (k : K) (s : S) (v : V) : put (entry m k) k s v = put m k s v := by
  unfold put
  rw [lookup_entry]
  unfold entry
  split
  · rfl
  · rw [AList.insert_insert]

end

/-- The devices of a key. -/
def devicesAt (m : HashMap String (HashMap (Option DeviceId) T)) (key : String) : Nat :=
  ((m.lookup key).getD ∅).keys.countP Option.isSome

theorem deviceCount_eq (identity : String) : routes.deviceCount identity = devicesAt routes.identities (identityKey identity) := by
  unfold deviceCount devicesAt
  rw [List.countP_eq_length_filter]

/-- A registration is refused, and nothing is new, or it takes the slot. -/
theorem registerDevice_cases (identity : String) (device : DeviceId) (sender : T) :
    ((routes.registerDevice identity device sender).2 = .error .limit ∧ (routes.registerDevice identity device sender).1 = routes) ∨
    ((routes.registerDevice identity device sender).2 = .ok (routes.getEndpoint identity (some device)) ∧
      (routes.registerDevice identity device sender).1 = ⟨put routes.identities (identityKey identity) (some device) sender⟩ ∧
      (slot routes.identities (identityKey identity) (some device) = none →
        devicesAt routes.identities (identityKey identity) < maxLiveDeviceRoutes)) := by
  have hcount : (DeviceRoutes.mk (entry routes.identities (identityKey identity))).deviceCount identity =
      devicesAt routes.identities (identityKey identity) := by
    rw [deviceCount_eq, devicesAt, lookup_entry]
    rfl
  have hslot : (DeviceRoutes.mk (entry routes.identities (identityKey identity))).getEndpoint identity (some device) =
      slot routes.identities (identityKey identity) (some device) := slot_entry ..
  unfold registerDevice
  dsimp only
  rw [hcount, hslot, put_entry]
  split
  next hfull =>
    rw [Bool.and_eq_true, decide_eq_true_eq] at hfull
    refine Or.inl ⟨rfl, ?_⟩
    have hin : identityKey identity ∈ routes.identities := by
      by_contra hnot
      have hzero : devicesAt routes.identities (identityKey identity) = 0 := by
        rw [devicesAt, AList.lookup_eq_none.mpr hnot]
        rfl
      rw [hzero] at hfull
      exact absurd hfull.2 (by decide)
    rw [entry_of_mem hin]
  next hroom =>
    refine Or.inr ⟨rfl, rfl, fun hnew => ?_⟩
    rw [hnew, Option.isNone_none, Bool.true_and, decide_eq_true_eq] at hroom
    exact Nat.lt_of_not_le hroom

/-- **An operation writes its slot or nothing.** -/
inductive Writes (routes : DeviceRoutes T) (op : Op T) : DeviceRoutes T → Prop where
  | same : Writes routes op routes
  | puts (value : T) (hroom : op.target.2.isSome = true → slot routes.identities (identityKey op.target.1) op.target.2 = none →
      devicesAt routes.identities (identityKey op.target.1) < maxLiveDeviceRoutes) :
      Writes routes op ⟨put routes.identities (identityKey op.target.1) op.target.2 value⟩
  | takes : Writes routes op ⟨take routes.identities (identityKey op.target.1) op.target.2⟩

theorem apply_writes (op : Op T) : Writes routes op (routes.apply op) := by
  cases op with
  | insert identity sender => exact @Writes.puts _ _ (.insert identity sender) sender fun hdevice => by cases hdevice
  | registerDevice identity device sender =>
    rcases @registerDevice_cases _ routes identity device sender with ⟨-, hsame⟩ | ⟨-, hput, hroom⟩
    · have happly : routes.apply (.registerDevice identity device sender) = routes := hsame
      rw [happly]
      exact .same
    · have happly : routes.apply (.registerDevice identity device sender) =
          ⟨put routes.identities (identityKey identity) (some device) sender⟩ := hput
      rw [happly]
      exact @Writes.puts _ _ (.registerDevice identity device sender) sender fun _ => hroom
  | remove identity => exact @Writes.takes _ _ (.remove identity)
  | removeEndpointIf identity device isIt =>
    change Writes routes _ (routes.removeEndpointIf identity device isIt).1
    unfold removeEndpointIf
    split
    · exact .same
    · exact @Writes.takes _ _ (.removeEndpointIf identity device isIt)

/-- What other slots hold stays. -/
theorem Writes.isolated {op : Op T} {after : DeviceRoutes T} (h : Writes routes op after) {identity : String}
    {device : Option DeviceId} (hother : ¬(SameIdentity op.target.1 identity ∧ op.target.2 = device)) :
    after.getEndpoint identity device = routes.getEndpoint identity device := by
  have hslot : ¬(identityKey identity = identityKey op.target.1 ∧ device = op.target.2) :=
    fun heq => hother ⟨(identityKey_eq_iff _ _).mp heq.1.symm, heq.2.symm⟩
  cases h with
  | same => rfl
  | puts value _ => exact (slot_put ..).trans (if_neg hslot)
  | takes => exact (slot_take ..).trans (if_neg hslot)

/-! ### Runs -/

/-- What holds along the runs. -/
structure Kept (routes : DeviceRoutes T) : Prop where
  noHollow : NoHollow routes.identities
  limited : ∀ key, devicesAt routes.identities key ≤ maxLiveDeviceRoutes

theorem kept_empty : Kept (∅ : DeviceRoutes T) where
  noHollow := noHollow_empty
  limited key := by
    unfold devicesAt
    rw [show (∅ : DeviceRoutes T).identities.lookup key = none from AList.lookup_empty key]
    exact Nat.zero_le _

theorem devicesAt_put (m : HashMap String (HashMap (Option DeviceId) T)) (key other : String) (device : Option DeviceId) (value : T)
    (hroom : device.isSome = true → slot m key device = none → devicesAt m key < maxLiveDeviceRoutes)
    (hlimited : ∀ key, devicesAt m key ≤ maxLiveDeviceRoutes) : devicesAt (put m key device value) other ≤ maxLiveDeviceRoutes := by
  by_cases hkey : other = key
  · subst hkey
    have hother := hlimited other
    have hnew : device ∉ (m.lookup other).getD ∅ → slot m other device = none := by
      intro hnot
      unfold slot
      cases hinner : m.lookup other with
      | none => rfl
      | some inner =>
        rw [hinner] at hnot
        exact AList.lookup_eq_none.mpr hnot
    unfold devicesAt at hother hroom ⊢
    unfold put
    rw [AList.lookup_insert, Option.getD_some]
    by_cases hin : device ∈ (m.lookup other).getD ∅
    · rw [countP_insert_of_mem value hin]
      exact hother
    · rw [countP_insert_of_notMem value hin]
      split
      next hdevice => exact hroom hdevice (hnew hin)
      next => exact hother
  · have hother := hlimited other
    unfold devicesAt at hother ⊢
    unfold put
    rw [AList.lookup_insert_ne hkey]
    exact hother

theorem devicesAt_take (m : HashMap String (HashMap (Option DeviceId) T)) (key other : String) (device : Option DeviceId) :
    devicesAt (take m key device) other ≤ devicesAt m other := by
  unfold devicesAt take
  cases hinner : m.lookup key with
  | none => exact Nat.le_refl _
  | some inner =>
    dsimp only
    by_cases hkey : other = key
    · subst hkey
      rw [hinner]
      split
      · rw [AList.lookup_erase]
        exact Nat.zero_le _
      · rw [AList.lookup_insert]
        exact countP_erase_le inner device _
    · split
      · rw [AList.lookup_erase_ne hkey]
      · rw [AList.lookup_insert_ne hkey]

/-- **One operation.** -/
theorem Kept.apply (h : Kept routes) (op : Op T) : Kept (routes.apply op) := by
  generalize hafter : routes.apply op = after
  cases hafter ▸ @apply_writes _ routes op with
  | same => exact h
  | puts value hroom => exact ⟨h.noHollow.put _ _ value, fun key => devicesAt_put _ _ key _ value hroom h.limited⟩
  | takes => exact ⟨h.noHollow.take _ _, fun key => Nat.le_trans (devicesAt_take _ _ key _) (h.limited key)⟩

theorem Kept.normalised (h : Kept routes) : Normalised routes where
  read a b hab := by
    have hkey := (identityKey_eq_iff a b).mpr hab
    refine ⟨fun device => ?_, ?_, ?_⟩
    · unfold getEndpoint
      rw [hkey]
    · unfold endpoints
      rw [hkey]
    · unfold containsKey
      rw [hkey]
  written op identity hsame := apply_respell ((identityKey_eq_iff _ _).mpr hsame)
  noHollow := h.noHollow
  listed identity device value := by
    unfold endpoints getEndpoint slot
    rw [List.mem_map]
    cases hinner : routes.identities.lookup (identityKey identity) with
    | none =>
      rw [Option.bind_none]
      constructor
      · rintro ⟨e, hin, -⟩
        cases hin
      · exact fun hnone => by cases hnone
    | some inner =>
      rw [Option.getD_some, Option.bind_some, ← Option.mem_def, AList.mem_lookup_iff]
      constructor
      · rintro ⟨e, hin, heq⟩
        cases heq
        exact hin
      · exact fun hin => ⟨⟨device, value⟩, hin, rfl⟩
  limited identity := by
    have hlimited := h.limited (identityKey identity)
    unfold devicesAt AList.keys List.keys at hlimited
    rw [List.countP_map, List.countP_eq_length_filter] at hlimited
    unfold endpoints
    rw [List.filter_map, List.length_map]
    exact hlimited
  refused identity device sender hlimit := by
    rcases @registerDevice_cases _ routes identity device sender with ⟨-, hsame⟩ | ⟨hok, -⟩
    · exact hsame
    · rw [hok] at hlimit
      cases hlimit
  isolated op identity device hother := (apply_writes op).isolated hother
  kept identity device isIt hrejects := by
    unfold removeEndpointIf
    cases hfound : routes.getEndpoint identity device with
    | none => rfl
    | some value =>
      rw [Option.any_some, hrejects value hfound]
      rfl

/-! ### The table of the relay -/

/-- The table read by pairs is the flat one. -/
def Refines (routes : DeviceRoutes T) (flat : Relay.DeviceRoutes T) : Prop :=
  ∀ key device, slot routes.identities key device = flat.slots.lookup (key, device)

theorem refines_empty : Refines (∅ : DeviceRoutes T) ∅ := by
  intro key device
  rw [show slot (∅ : DeviceRoutes T).identities key device = none from rfl]
  exact (@AList.lookup_empty _ (fun _ => T) _ (key, device)).symm

theorem Refines.getEndpoint {flat : Relay.DeviceRoutes T} (h : Refines routes flat) (identity : String) (device : Option DeviceId) :
    routes.getEndpoint identity device = flat.getEndpoint identity device := h _ _

theorem Refines.put {flat flat' : Relay.DeviceRoutes T} (h : Refines routes flat) {identity : String} {device : Option DeviceId}
    {value : T} (hregister : flat.register identity device value = some flat') :
    Refines ⟨Nested.put routes.identities (identityKey identity) device value⟩ flat' := by
  intro key other
  rw [slot_put, Relay.DeviceRoutes.lookup_register hregister, h]
  by_cases hslot : key = identityKey identity ∧ other = device
  · rw [if_pos hslot, if_pos (Prod.ext hslot.1 hslot.2)]
  · rw [if_neg hslot, if_neg fun heq => hslot ⟨congrArg Prod.fst heq, congrArg Prod.snd heq⟩]

theorem Refines.take {flat : Relay.DeviceRoutes T} (h : Refines routes flat) (identity : String) (device : Option DeviceId) :
    Refines ⟨Nested.take routes.identities (identityKey identity) device⟩ (flat.removeEndpoint identity device) := by
  intro key other
  rw [slot_take, Relay.DeviceRoutes.lookup_removeEndpoint, h]
  by_cases hslot : key = identityKey identity ∧ other = device
  · rw [if_pos hslot, if_pos (Prod.ext hslot.1 hslot.2)]
  · rw [if_neg hslot, if_neg fun heq => hslot ⟨congrArg Prod.fst heq, congrArg Prod.snd heq⟩]

theorem Refines.insert {flat : Relay.DeviceRoutes T} (h : Refines routes flat) (identity : String) (sender : T) :
    Refines (routes.insert identity sender).1 (flat.insert identity sender) :=
  @Refines.put _ _ _ _ h identity none _ rfl

theorem Refines.removeEndpointIf {flat : Relay.DeviceRoutes T} (h : Refines routes flat) (identity : String)
    (device : Option DeviceId) (isIt : T → Bool) :
    Refines (routes.removeEndpointIf identity device isIt).1
      (if (flat.getEndpoint identity device).any isIt then flat.removeEndpoint identity device else flat) := by
  rw [← h.getEndpoint]
  unfold DeviceRoutes.removeEndpointIf
  cases (routes.getEndpoint identity device).any isIt with
  | false => exact h
  | true => exact h.take identity device

end DeviceRoutesAux

open DoubleSlash.Features.DeviceRoutes DeviceRoutesAux

/-- **Device routes.** After any operations the table is normalised: the spellings of an identity name the same slots, no identity is
there without a slot, there are at most eight devices, and the next operation writes one slot or none. -/
theorem device_routes_normalised {T : Type} (ops : List (Op T)) : Normalised (ops.foldl apply ∅) := by
  suffices hkept : Kept (ops.foldl apply (∅ : DeviceRoutes T)) from hkept.normalised
  have hrun : ∀ routes : DeviceRoutes T, Kept routes → Kept (ops.foldl apply routes) := by
    induction ops with
    | nil => exact fun _ h => h
    | cons op ops ih => exact fun routes h => ih _ (h.apply op)
  exact hrun ∅ kept_empty

end DoubleSlash.Features
