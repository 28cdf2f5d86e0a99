import DoubleSlash.Lib.Assoc
import Mathlib.Data.List.Nodup
import Mathlib.Order.Lattice
import Mathlib.Tactic.Common

/-!
# Records with keys

A list of records no two of which have the same key stands for a map. Two such lists sort to the same list exactly when they stand
for the same map.
-/

namespace DoubleSlash.Keyed

open Assoc

section

variable {α κ : Type} [DecidableEq κ] (key : α → κ)

/-- No key twice. -/
def Distinct (l : List α) : Prop := (l.map key).Nodup

/-- The record under a key. -/
def at? (l : List α) (k : κ) : Option α := l.find? fun x => key x = k

variable {key}

theorem key_of_at? {l : List α} {k : κ} {x : α} (h : at? key l k = some x) : key x = k := by
  simpa using List.find?_some h

theorem mem_of_at? {l : List α} {k : κ} {x : α} (h : at? key l k = some x) : x ∈ l := List.mem_of_find?_eq_some h

theorem at?_of_mem {l : List α} (hl : Distinct key l) {x : α} (h : x ∈ l) : at? key l (key x) = some x := by
  induction l with
  | nil => exact absurd h List.not_mem_nil
  | cons y l ih =>
    obtain ⟨hy, hl⟩ := List.nodup_cons.mp hl
    unfold at?
    rcases List.mem_cons.mp h with rfl | h
    · rw [List.find?_cons_of_pos (by simp)]
    · have hne : key y ≠ key x := fun heq => hy (heq ▸ List.mem_map_of_mem h)
      rw [List.find?_cons_of_neg (by simpa using hne)]
      exact ih hl h

theorem at?_eq_some_iff {l : List α} (hl : Distinct key l) {k : κ} {x : α} : at? key l k = some x ↔ x ∈ l ∧ key x = k := by
  constructor
  · exact fun h => ⟨mem_of_at? h, key_of_at? h⟩
  · rintro ⟨h, rfl⟩
    exact at?_of_mem hl h

theorem at?_isSome_iff {l : List α} {k : κ} : (at? key l k).isSome ↔ k ∈ l.map key := by
  unfold at?
  rw [List.find?_isSome]
  simp

omit [DecidableEq κ] in
theorem Distinct.perm {l l' : List α} (hl : Distinct key l) (h : l.Perm l') : Distinct key l' := (h.map key).nodup_iff.mp hl

/-- The order of the records does not matter. -/
theorem at?_perm {l l' : List α} (hl : Distinct key l) (h : l.Perm l') (k : κ) : at? key l k = at? key l' k := by
  ext x
  rw [at?_eq_some_iff hl, at?_eq_some_iff (hl.perm h), h.mem_iff]

theorem perm_of_at? {l l' : List α} (hl : Distinct key l) (hl' : Distinct key l') (h : ∀ k, at? key l k = at? key l' k) : l.Perm l' := by
  rw [List.perm_ext_iff_of_nodup (List.Nodup.of_map key hl) (List.Nodup.of_map key hl')]
  intro x
  rw [← and_iff_left (a := x ∈ l) (rfl : key x = key x), ← and_iff_left (a := x ∈ l') (rfl : key x = key x), ← at?_eq_some_iff hl,
    ← at?_eq_some_iff hl', h]

/-! ## Sorting -/

section

variable [LinearOrder κ] (key)

/-- The order of the keys. -/
def keyLe (x y : α) : Bool := decide (key x ≤ key y)

/-- The records in the order of their keys. -/
def sortByKey (l : List α) : List α := l.mergeSort (keyLe key)

omit [DecidableEq κ] in
theorem sortByKey_perm (l : List α) : (sortByKey key l).Perm l := List.mergeSort_perm l _

variable {key}

omit [DecidableEq κ] in
theorem pairwise_sortByKey (l : List α) : (sortByKey key l).Pairwise fun x y => keyLe key x y = true := by
  refine List.pairwise_mergeSort ?_ ?_ l
  · intro x y z hxy hyz
    unfold keyLe at *
    exact decide_eq_true (le_trans (of_decide_eq_true hxy) (of_decide_eq_true hyz))
  · intro x y
    unfold keyLe
    rcases le_total (key x) (key y) with h | h <;> simp [h]

/-- **Two lists sort to the same list exactly when they stand for the same map.** -/
theorem sortByKey_eq_iff {l l' : List α} (hl : Distinct key l) (hl' : Distinct key l') :
    sortByKey key l = sortByKey key l' ↔ ∀ k, at? key l k = at? key l' k := by
  constructor
  · intro h k
    rw [at?_perm hl (sortByKey_perm key l).symm k, h, ← at?_perm hl' (sortByKey_perm key l').symm k]
  · intro h
    have hperm : (sortByKey key l).Perm (sortByKey key l') :=
      (sortByKey_perm key l).trans ((perm_of_at? hl hl' h).trans (sortByKey_perm key l').symm)
    have hantisymm (x y : α) (hx : x ∈ sortByKey key l) (hy : y ∈ sortByKey key l') (hxy : keyLe key x y = true)
        (hyx : keyLe key y x = true) : x = y := by
      have hkey : key x = key y := le_antisymm (of_decide_eq_true hxy) (of_decide_eq_true hyx)
      have hx' : x ∈ l := (sortByKey_perm key l).mem_iff.mp hx
      have hy' : y ∈ l := (perm_of_at? hl hl' h).mem_iff.mpr ((sortByKey_perm key l').mem_iff.mp hy)
      rw [← Option.some.injEq, ← at?_of_mem hl hx', ← at?_of_mem hl hy', hkey]
    exact List.Perm.eq_of_pairwise hantisymm (pairwise_sortByKey l) (pairwise_sortByKey l') hperm

end

/-! ## Maps of records -/

/-- Every record is filed under its key. -/
def Filed (key : α → κ) (m : HashMap κ α) : Prop := ∀ k x, m.lookup k = some x → key x = k

theorem distinct_values {m : HashMap κ α} (h : Filed key m) : Distinct key (values m) := by
  have hkeys : (values m).map key = m.keys := by
    unfold values AList.keys List.keys
    rw [List.map_map]
    refine List.map_congr_left fun e he => ?_
    exact h e.1 e.2 (AList.mem_lookup_iff.mpr he)
  unfold Distinct
  rw [hkeys]
  exact m.nodupKeys

theorem at?_values {m : HashMap κ α} (h : Filed key m) (k : κ) : at? key (values m) k = m.lookup k := by
  ext x
  rw [at?_eq_some_iff (distinct_values h), mem_values]
  constructor
  · rintro ⟨⟨k', hk'⟩, rfl⟩
    rwa [← h k' x hk'] at hk'
  · exact fun hx => ⟨⟨k, hx⟩, h k x hx⟩

theorem Filed.insert {m : HashMap κ α} (h : Filed key m) (x : α) : Filed key (m.insert (key x) x) := by
  intro k y hy
  by_cases hk : k = key x
  · subst hk
    rw [AList.lookup_insert, Option.some.injEq] at hy
    rw [hy]
  · rw [AList.lookup_insert_ne hk] at hy
    exact h k y hy

theorem filed_empty : Filed key (∅ : HashMap κ α) := fun _ _ h => absurd h (by simp)

end

end DoubleSlash.Keyed
