import DoubleSlash.Lib.Assoc

/-!
# Scans that find one value

A scan of a map's values finds the first that meets a test, in the order of the map. Where at most one value meets it, the order does
not matter.
-/

namespace DoubleSlash.Assoc

variable {K V : Type} [DecidableEq K]

/-- At most one key has a value that meets the test. -/
def Unique (m : HashMap K V) (test : V → Bool) : Prop :=
  ∀ k v k' v', m.lookup k = some v → m.lookup k' = some v' → test v = true → test v' = true → k = k'

/-- `map.iter().find(|(_, v)| test(v))`. -/
def findEntry (m : HashMap K V) (test : V → Bool) : Option (K × V) :=
  (m.entries.find? fun e => test e.2).map fun e => (e.1, e.2)

/-- What a scan finds is there and meets the test. -/
theorem findEntry_some {m : HashMap K V} {test : V → Bool} {k : K} {v : V} (h : findEntry m test = some (k, v)) :
    m.lookup k = some v ∧ test v = true := by
  obtain ⟨e, hfind, heq⟩ := Option.map_eq_some_iff.mp h
  obtain ⟨rfl, rfl⟩ := Prod.mk.inj heq
  exact ⟨AList.mem_lookup_iff.mpr (List.mem_of_find?_eq_some hfind), by simpa using List.find?_some hfind⟩

/-- A scan that finds nothing leaves nothing to find. -/
theorem findEntry_none {m : HashMap K V} {test : V → Bool} (h : findEntry m test = none) {k : K} {v : V} (hk : m.lookup k = some v) :
    test v = false := by
  have hnone := List.find?_eq_none.mp (Option.map_eq_none_iff.mp h) ⟨k, v⟩ (AList.mem_lookup_iff.mp hk)
  simpa using hnone

/-- Where one value meets the test, a scan finds exactly that one. -/
theorem findEntry_iff {m : HashMap K V} {test : V → Bool} (hu : Unique m test) {k : K} {v : V} :
    findEntry m test = some (k, v) ↔ m.lookup k = some v ∧ test v = true := by
  refine ⟨findEntry_some, fun ⟨hk, hv⟩ => ?_⟩
  cases h : findEntry m test with
  | none =>
    rw [findEntry_none h hk] at hv
    cases hv
  | some found =>
    obtain ⟨k', v'⟩ := found
    obtain ⟨hk', hv'⟩ := findEntry_some h
    obtain rfl := hu k v k' v' hk hk' hv hv'
    obtain rfl := Option.some.inj (hk.symm.trans hk')
    rfl

omit [DecidableEq K] in
/-- A scan of the values finds what a scan of the entries does. -/
theorem find_values (m : HashMap K V) (test : V → Bool) : (values m).find? test = (findEntry m test).map Prod.snd := by
  unfold values findEntry
  rw [List.find?_map, Option.map_map]
  rfl

/-- Where one value meets the test, a scan of the values finds exactly that one. -/
theorem find_values_iff {m : HashMap K V} {test : V → Bool} (hu : Unique m test) {v : V} :
    (values m).find? test = some v ↔ (∃ k, m.lookup k = some v) ∧ test v = true := by
  rw [find_values, Option.map_eq_some_iff]
  constructor
  · rintro ⟨⟨k, v'⟩, hfind, rfl⟩
    obtain ⟨hk, hv⟩ := findEntry_some hfind
    exact ⟨⟨k, hk⟩, hv⟩
  · rintro ⟨⟨k, hk⟩, hv⟩
    exact ⟨(k, v), (findEntry_iff hu).mpr ⟨hk, hv⟩, rfl⟩

/-- A test of some value is one of a stored value. -/
theorem any_values {m : HashMap K V} {test : V → Bool} : (values m).any test = true ↔ ∃ k v, m.lookup k = some v ∧ test v = true := by
  rw [List.any_eq_true]
  constructor
  · rintro ⟨v, hv, htest⟩
    obtain ⟨k, hk⟩ := (mem_values m v).mp hv
    exact ⟨k, v, hk, htest⟩
  · rintro ⟨k, v, hk, htest⟩
    exact ⟨v, (mem_values m v).mpr ⟨k, hk⟩, htest⟩

/-- Maps with the same values under the same keys. -/
def SameMap (m n : HashMap K V) : Prop := ∀ k, n.lookup k = m.lookup k

/-- A map that is filled from the values of another, each under its key, is the other. -/
theorem lookup_foldl_insert {key : V → K} (vs : List V) (m : HashMap K V) (hnodup : (vs.map key).Nodup) (k : K) :
    (vs.foldl (fun m v => m.insert (key v) v) m).lookup k = (vs.find? fun v => decide (key v = k)).or (m.lookup k) := by
  induction vs generalizing m with
  | nil => rfl
  | cons v vs ih =>
    rw [List.map_cons, List.nodup_cons] at hnodup
    rw [List.foldl_cons, ih _ hnodup.2, List.find?_cons]
    by_cases hk : key v = k
    · subst hk
      have hnone : (vs.find? fun v' => decide (key v' = key v)) = none := by
        refine List.find?_eq_none.mpr fun v' hv' h => hnodup.1 ?_
        exact List.mem_map.mpr ⟨v', hv', of_decide_eq_true h⟩
      rw [hnone, Option.none_or, AList.lookup_insert, decide_eq_true rfl]
      rfl
    · rw [AList.lookup_insert_ne (Ne.symm hk), decide_eq_false hk]

end DoubleSlash.Assoc
