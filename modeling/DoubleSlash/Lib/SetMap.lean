import DoubleSlash.Lib.Assoc
import Mathlib.Data.Finset.Basic
import Mathlib.Data.Finset.Erase
import Mathlib.Data.Finset.Insert
import Mathlib.Data.Finset.Sort
import Mathlib.Data.String.Basic

/-!
# Maps to sets

A `HashMap` whose values are sets, where an entry goes with its last element. Read through `members` it is a function to sets, and
each operation changes that function in one place.
-/

namespace DoubleSlash.SetMap

open Assoc

/-- A set of names as a list, in their order. -/
def inOrder (s : Finset String) : List String := s.sort

@[simp] theorem mem_inOrder {s : Finset String} {name : String} : name ∈ inOrder s ↔ name ∈ s := Finset.mem_sort _

variable {K V : Type} [DecidableEq K]

/-- The set filed under a key, empty when there is none. -/
def members (m : HashMap K (Finset V)) (k : K) : Finset V := (m.lookup k).getD ∅

@[simp] theorem members_empty (k : K) : members (∅ : HashMap K (Finset V)) k = ∅ := by
  rw [members, AList.lookup_empty]
  rfl

variable [DecidableEq V]

/-- `map.entry(k).or_default().insert(v)`. -/
def add (m : HashMap K (Finset V)) (k : K) (v : V) : HashMap K (Finset V) := m.insert k (insert v (members m k))

/-- Take a value out of the set of one key, and the key with its last value. -/
def remove (m : HashMap K (Finset V)) (k : K) (v : V) : HashMap K (Finset V) :=
  match m.lookup k with
  | none => m
  | some s => if s.erase v = ∅ then m.erase k else m.insert k (s.erase v)

/-- Take a value out of every set: `map.retain(|_, s| { s.remove(v); !s.is_empty() })`. -/
def removeAll (m : HashMap K (Finset V)) (v : V) : HashMap K (Finset V) :=
  retain (mapValues m fun s => s.erase v) fun _ s => decide (s ≠ ∅)

theorem members_add (m : HashMap K (Finset V)) (k k' : K) (v : V) :
    members (add m k v) k' = if k' = k then insert v (members m k) else members m k' := by
  unfold members add
  by_cases h : k' = k
  · subst h
    rw [AList.lookup_insert, if_pos rfl]
    rfl
  · rw [AList.lookup_insert_ne h, if_neg h]

theorem members_remove (m : HashMap K (Finset V)) (k k' : K) (v : V) :
    members (remove m k v) k' = if k' = k then (members m k).erase v else members m k' := by
  unfold remove
  cases hk : m.lookup k with
  | none =>
    by_cases h : k' = k
    · subst h
      simp [members, hk]
    · simp [h]
  | some s =>
    by_cases h : k' = k
    · subst h
      by_cases hempty : s.erase v = ∅
      · simp [members, hk, hempty]
      · simp [members, hk, hempty]
    · by_cases hempty : s.erase v = ∅
      · simp [members, hempty, h]
      · simp [members, hempty, h]

theorem members_removeAll (m : HashMap K (Finset V)) (k : K) (v : V) : members (removeAll m v) k = (members m k).erase v := by
  unfold members removeAll
  rw [lookup_retain, lookup_mapValues]
  cases hk : m.lookup k with
  | none => simp
  | some s =>
    by_cases hempty : s.erase v = ∅
    · simp [hempty, Option.filter]
    · simp [hempty, Option.filter]

/-- No key is filed with an empty set. -/
def NoEmpty (m : HashMap K (Finset V)) : Prop := ∀ k s, m.lookup k = some s → s ≠ ∅

omit [DecidableEq V] in
theorem noEmpty_empty : NoEmpty (∅ : HashMap K (Finset V)) := by
  intro k s hs
  rw [AList.lookup_empty] at hs
  cases hs

theorem NoEmpty.add {m : HashMap K (Finset V)} (h : NoEmpty m) (k : K) (v : V) : NoEmpty (add m k v) := by
  intro k' s hs
  unfold SetMap.add at hs
  by_cases hk : k' = k
  · subst hk
    rw [AList.lookup_insert] at hs
    cases hs
    exact Finset.insert_ne_empty v _
  · rw [AList.lookup_insert_ne hk] at hs
    exact h k' s hs

theorem NoEmpty.remove {m : HashMap K (Finset V)} (h : NoEmpty m) (k : K) (v : V) : NoEmpty (remove m k v) := by
  unfold SetMap.remove
  split
  · exact h
  · rename_i found hfound
    intro k' s hs
    split at hs
    · by_cases hk : k' = k
      · subst hk
        rw [AList.lookup_erase] at hs
        cases hs
      · rw [AList.lookup_erase_ne hk] at hs
        exact h k' s hs
    · rename_i hleft
      by_cases hk : k' = k
      · subst hk
        rw [AList.lookup_insert] at hs
        cases hs
        exact hleft
      · rw [AList.lookup_insert_ne hk] at hs
        exact h k' s hs

theorem noEmpty_removeAll (m : HashMap K (Finset V)) (v : V) : NoEmpty (removeAll m v) := by
  intro k s hs
  unfold removeAll at hs
  rw [lookup_retain] at hs
  exact of_decide_eq_true (Option.filter_eq_some_iff.mp hs).2

/-- A key found by searching for a value has the value in its set. -/
theorem mem_of_find {m : HashMap K (Finset V)} {v : V} {e : (_ : K) × Finset V}
    (h : m.entries.find? (fun e => decide (v ∈ e.2)) = some e) : v ∈ members m e.1 := by
  have hmem : e.2 ∈ m.lookup e.1 := AList.mem_lookup_iff.mpr (List.mem_of_find?_eq_some h)
  have hv : v ∈ e.2 := by simpa using List.find?_some h
  rw [members, Option.mem_def.mp hmem]
  exact hv

end DoubleSlash.SetMap
