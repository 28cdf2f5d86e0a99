import Mathlib.Algebra.GroupWithZero.Nat
import Mathlib.Data.List.AList
import Mathlib.Tactic.Common

/-!
# Hash maps as association lists

A `HashMap` of the source is an association list without duplicate keys. The order of its entries stands for the order an
iteration happens to take; nothing is proved from that order.
-/

namespace DoubleSlash.Assoc

/-- A map from `K` to `V`. -/
abbrev HashMap (K V : Type) := AList (fun _ : K => V)

section

variable {K V : Type} [DecidableEq K]

/-- `if let Some(v) = map.get_mut(k) { f(v) }`. -/
def modify (m : HashMap K V) (k : K) (f : V → V) : HashMap K V :=
  match m.lookup k with
  | none => m
  | some v => m.insert k (f v)

/-- `map.values()`. -/
def values (m : HashMap K V) : List V :=
  m.entries.map Sigma.snd

/-- `map.retain(|k, v| keep(k, v))`. -/
def retain (m : HashMap K V) (keep : K → V → Bool) : HashMap K V :=
  ⟨m.entries.filter fun e => keep e.1 e.2, List.NodupKeys.sublist List.filter_sublist m.nodupKeys⟩

/-- `for v in map.values_mut() { f(v) }`. -/
def mapValues (m : HashMap K V) (f : V → V) : HashMap K V :=
  ⟨m.entries.map fun e => ⟨e.1, f e.2⟩, by
    have hkeys : (m.entries.map fun e => (⟨e.1, f e.2⟩ : (_ : K) × V)).keys = m.entries.keys := by
      simp [List.keys, Function.comp_def]
    unfold List.NodupKeys
    rw [hkeys]
    exact m.nodupKeys⟩

theorem lookup_mapValues (m : HashMap K V) (f : V → V) (k : K) : (mapValues m f).lookup k = (m.lookup k).map f := by
  ext v
  rw [Option.mem_def.symm, AList.mem_lookup_iff, Option.map_eq_some_iff]
  simp only [mapValues, List.mem_map, Sigma.mk.injEq, heq_eq_eq]
  constructor
  · rintro ⟨⟨k', v'⟩, hmem, rfl, rfl⟩
    exact ⟨v', AList.mem_lookup_iff.mpr hmem, rfl⟩
  · rintro ⟨v', hv', rfl⟩
    exact ⟨⟨k, v'⟩, AList.mem_lookup_iff.mp hv', rfl, rfl⟩

theorem mapValues_insert (m : HashMap K V) (f : V → V) (k : K) (v : V) :
    mapValues (m.insert k v) f = (mapValues m f).insert k (f v) := by
  apply AList.ext
  simp only [mapValues, AList.entries_insert, List.map_cons, List.kerase, List.eraseP_map]
  rfl

theorem mapValues_erase (m : HashMap K V) (f : V → V) (k : K) : mapValues (m.erase k) f = (mapValues m f).erase k := by
  apply AList.ext
  calc (m.entries.kerase k).map (fun e => ⟨e.1, f e.2⟩)
      = (m.entries.eraseP fun e => k = e.1).map (fun e : (_ : K) × V => (⟨e.1, f e.2⟩ : (_ : K) × V)) := rfl
    _ = (mapValues m f).entries.kerase k := by
      simp only [mapValues, List.kerase, List.eraseP_map]
      rfl

omit [DecidableEq K] in
theorem mapValues_mapValues (m : HashMap K V) (f g : V → V) : mapValues (mapValues m f) g = mapValues m fun v => g (f v) := by
  apply AList.ext
  simp [mapValues]

omit [DecidableEq K] in
/-- A filter that does not see what the map does to the values. -/
theorem mapValues_retain (m : HashMap K V) (f : V → V) {keep : K → V → Bool} (h : ∀ k v, keep k (f v) = keep k v) :
    mapValues (retain m keep) f = retain (mapValues m f) keep := by
  apply AList.ext
  simp only [mapValues, retain, List.filter_map]
  congr 1
  apply List.filter_congr
  intro e _
  exact (h e.1 e.2).symm

theorem lookup_modify (m : HashMap K V) (k k' : K) (f : V → V) :
    (modify m k f).lookup k' = if k' = k then (m.lookup k).map f else m.lookup k' := by
  unfold modify
  cases hk : m.lookup k with
  | none =>
    by_cases h : k' = k
    · subst h
      simp [hk]
    · simp [h]
  | some v =>
    by_cases h : k' = k
    · subst h
      simp
    · simp [h]

/-- A value is filed under some key exactly when it is among the values. -/
theorem mem_values (m : HashMap K V) (v : V) : v ∈ values m ↔ ∃ k, m.lookup k = some v := by
  simp only [values, List.mem_map, Sigma.exists]
  constructor
  · rintro ⟨k, v', hmem, rfl⟩
    exact ⟨k, AList.mem_lookup_iff.mpr hmem⟩
  · rintro ⟨k, hk⟩
    exact ⟨k, v, AList.mem_lookup_iff.mp hk, rfl⟩

theorem mem_keys_iff (m : HashMap K V) (k : K) : k ∈ m.keys ↔ ∃ v, m.lookup k = some v := by
  rw [← Option.isSome_iff_exists, AList.lookup_isSome]
  rfl

theorem lookup_retain (m : HashMap K V) (keep : K → V → Bool) (k : K) :
    (retain m keep).lookup k = (m.lookup k).filter (keep k) := by
  ext v
  rw [Option.mem_def.symm, AList.mem_lookup_iff]
  simp only [retain, List.mem_filter, Option.filter_eq_some_iff]
  rw [← AList.mem_lookup_iff]
  rfl

/-- Setting a key that is there changes no count of keys. -/
theorem countP_insert_of_mem {m : HashMap K V} {k : K} (v : V) (h : k ∈ m) (pred : K → Bool) :
    (m.insert k v).keys.countP pred = m.keys.countP pred := by
  rw [AList.keys_insert]
  exact (List.perm_cons_erase h).symm.countP_eq pred

/-- A new key counts once, when it counts at all. -/
theorem countP_insert_of_notMem {m : HashMap K V} {k : K} (v : V) (h : k ∉ m) (pred : K → Bool) :
    (m.insert k v).keys.countP pred = m.keys.countP pred + if pred k then 1 else 0 := by
  have hnot : k ∉ m.keys := h
  rw [AList.keys_insert, List.erase_of_not_mem hnot, List.countP_cons]

theorem countP_erase_le (m : HashMap K V) (k : K) (pred : K → Bool) : (m.erase k).keys.countP pred ≤ m.keys.countP pred := by
  rw [AList.keys_erase]
  exact List.Sublist.countP_le List.erase_sublist

/-- Taking out a key that counts takes one off the count. -/
theorem countP_erase_of_mem {m : HashMap K V} {k : K} (h : k ∈ m) {pred : K → Bool} (hpred : pred k = true) :
    (m.erase k).keys.countP pred + 1 = m.keys.countP pred := by
  have hmem : k ∈ m.keys := h
  rw [AList.keys_erase, (List.perm_cons_erase hmem).countP_eq pred, List.countP_cons, if_pos hpred]

end

end DoubleSlash.Assoc
