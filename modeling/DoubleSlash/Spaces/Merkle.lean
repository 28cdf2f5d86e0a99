import Mathlib.Algebra.Group.Nat.Defs
import Mathlib.Data.List.Basic
import Mathlib.Tactic.Common

/-!
# The Space Merkle tree

RFC 6962 hashing of `space.rs`: the root of a list of leaf hashes, the audit path of one of them, and the root a path leads back
to. All three split a tree at the largest power of two below its size. Digests are values of a type `D`; what hashes two of them
is a parameter.
-/

namespace DoubleSlash.Spaces

/-- The loop of `largest_pow2_below`, from `k` on. -/
def growPow2 (n k : Nat) : Nat :=
  if _h : k <<< 1 < n ∧ 0 < k then growPow2 n (k <<< 1) else k
termination_by n - k
decreasing_by
  simp only [Nat.shiftLeft_eq, Nat.pow_one] at _h ⊢
  omega

/-- `largest_pow2_below`. -/
def largestPow2Below (n : Nat) : Nat := growPow2 n 1

namespace MerkleAux

theorem growPow2_spec (n k : Nat) (hk : 0 < k) (hkn : k < n) (hpow : ∃ e, k = 2 ^ e) :
    (∃ e, growPow2 n k = 2 ^ e) ∧ growPow2 n k < n ∧ n ≤ 2 * growPow2 n k := by
  fun_induction growPow2 n k with
  | case1 k h ih =>
    have hdouble : k <<< 1 = 2 * k := by rw [Nat.shiftLeft_eq, Nat.pow_one, Nat.mul_comm]
    obtain ⟨e, he⟩ := hpow
    exact ih (by omega) h.1 ⟨e + 1, by rw [hdouble, he, Nat.pow_succ, Nat.mul_comm]⟩
  | case2 k h =>
    simp only [Nat.shiftLeft_eq, Nat.pow_one] at h
    exact ⟨hpow, hkn, by omega⟩

end MerkleAux

open MerkleAux

/-- **The split.** From two on it is a power of two below the size, and at least half of it. -/
theorem largestPow2Below_spec {n : Nat} (h : 2 ≤ n) :
    (∃ e, largestPow2Below n = 2 ^ e) ∧ largestPow2Below n < n ∧ n ≤ 2 * largestPow2Below n :=
  growPow2_spec n 1 (by omega) (by omega) ⟨0, rfl⟩

theorem largestPow2Below_pos {n : Nat} (h : 2 ≤ n) : 0 < largestPow2Below n := by
  obtain ⟨-, -, h⟩ := largestPow2Below_spec h
  omega

section

variable {D : Type} (empty : D) (interior : D → D → D)

/-- `merkle_root`. -/
def merkleRoot (leaves : List D) : D :=
  match _h : leaves with
  | [] => empty
  | [leaf] => leaf
  | _ :: _ :: _ =>
    let k := largestPow2Below leaves.length
    interior (merkleRoot (leaves.take k)) (merkleRoot (leaves.drop k))
termination_by leaves.length
decreasing_by
  all_goals
    have hlen : 2 ≤ leaves.length := by simp [_h]
    have := largestPow2Below_spec hlen
    have := largestPow2Below_pos hlen
    simp only [_h, List.length_take, List.length_drop] at *
    omega

/-- `audit_path`: from the leaf to the root. -/
def auditPath (m : Nat) (leaves : List D) : List D :=
  if _h : leaves.length ≤ 1 then []
  else
    let k := largestPow2Below leaves.length
    if m < k then auditPath m (leaves.take k) ++ [merkleRoot empty interior (leaves.drop k)]
    else auditPath (m - k) (leaves.drop k) ++ [merkleRoot empty interior (leaves.take k)]
termination_by leaves.length
decreasing_by
  all_goals
    have := largestPow2Below_spec (n := leaves.length) (by omega)
    have := largestPow2Below_pos (n := leaves.length) (by omega)
    simp only [List.length_take, List.length_drop]
    omega

/-- `root_from_audit`. -/
def rootFromAudit (leaf : D) (m n : Nat) (path : List D) : Option D :=
  if _h : n = 0 ∨ n ≤ m then none
  else if _h1 : n = 1 then if path.isEmpty then some leaf else none
  else
    let k := largestPow2Below n
    path.getLast?.bind fun top =>
      if m < k then (rootFromAudit leaf m k path.dropLast).map fun left => interior left top
      else (rootFromAudit leaf (m - k) (n - k) path.dropLast).map fun right => interior top right
termination_by n
decreasing_by
  all_goals
    have := largestPow2Below_spec (n := n) (by omega)
    have := largestPow2Below_pos (n := n) (by omega)
    omega

end

end DoubleSlash.Spaces
