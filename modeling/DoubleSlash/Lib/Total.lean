import DoubleSlash.Lib.Assoc
import Mathlib.Algebra.BigOperators.Group.List.Basic

/-!
# Totals over a map

The sum of a number for each value of a map, and what setting or removing one key does to it.
-/

namespace DoubleSlash.Assoc

variable {K V : Type} [DecidableEq K]

/-- The sum of `f` over the values. -/
def total (m : HashMap K V) (f : V → Nat) : Nat := (m.entries.map fun e => f e.2).sum

omit [DecidableEq K] in
@[simp] theorem total_empty (f : V → Nat) : total (∅ : HashMap K V) f = 0 := rfl

/-- An entry that is there, and the others. -/
theorem entries_perm_of_lookup {m : HashMap K V} {k : K} {v : V} (h : m.lookup k = some v) :
    m.entries.Perm (⟨k, v⟩ :: (m.erase k).entries) := by
  refine List.lookup_ext m.nodupKeys (m.insert k v).nodupKeys fun a b => ?_
  show b ∈ m.lookup a ↔ b ∈ (m.insert k v).lookup a
  by_cases ha : a = k
  · subst ha
    rw [h, AList.lookup_insert]
  · rw [AList.lookup_insert_ne ha]

theorem length_insert (m : HashMap K V) (k : K) (v : V) : (m.insert k v).entries.length = (m.erase k).entries.length + 1 := rfl

theorem length_erase {m : HashMap K V} {k : K} {v : V} (h : m.lookup k = some v) :
    (m.erase k).entries.length + 1 = m.entries.length := by
  rw [(entries_perm_of_lookup h).length_eq, List.length_cons]

theorem length_erase_le (m : HashMap K V) (k : K) : (m.erase k).entries.length ≤ m.entries.length :=
  (List.kerase_sublist k m.entries).length_le

theorem erase_of_lookup_none {m : HashMap K V} {k : K} (h : m.lookup k = none) : m.erase k = m :=
  AList.ext (List.kerase_of_notMem_keys (AList.lookup_eq_none.mp h))

theorem total_insert (m : HashMap K V) (k : K) (v : V) (f : V → Nat) : total (m.insert k v) f = f v + total (m.erase k) f := rfl

theorem total_erase {m : HashMap K V} {k : K} {v : V} (h : m.lookup k = some v) (f : V → Nat) :
    total m f = f v + total (m.erase k) f := by
  have hperm := (entries_perm_of_lookup h).map fun e => f e.2
  rw [total, hperm.sum_eq, List.map_cons, List.sum_cons, total]

theorem le_total {m : HashMap K V} {k : K} {v : V} (h : m.lookup k = some v) (f : V → Nat) : f v ≤ total m f := by
  rw [total_erase h f]
  exact Nat.le_add_right _ _

theorem mem_entries_iff {m : HashMap K V} {k : K} {v : V} : (⟨k, v⟩ : (_ : K) × V) ∈ m.entries ↔ m.lookup k = some v :=
  AList.mem_lookup_iff.symm

end DoubleSlash.Assoc
