import Mathlib.Algebra.BigOperators.Group.List.Basic
import Mathlib.Algebra.GroupWithZero.Nat
import Mathlib.Data.List.Perm.Basic
import Mathlib.Logic.Function.Basic
import Mathlib.Tactic.Common

/-!
# Reservations and their accounts

A reservation takes an amount from one account and gives it back once. The accounts are balanced when each of them shows what is
reserved from it; reserving and releasing keep them so, in any order.
-/

namespace DoubleSlash.Ledger

section

variable {K ρ : Type} [DecidableEq K] (account : ρ → K) (amount : ρ → Nat)

/-- What is reserved from an account. -/
def held (l : List ρ) (k : K) : Nat := ((l.filter fun r => decide (account r = k)).map amount).sum

/-- Every account shows what is reserved from it. -/
def Balanced (shown : K → Nat) (l : List ρ) : Prop := ∀ k, shown k = held account amount l k

variable {account amount} {shown : K → Nat} {l l' : List ρ} {r : ρ}

theorem held_cons (r : ρ) (l : List ρ) (k : K) :
    held account amount (r :: l) k = (if account r = k then amount r else 0) + held account amount l k := by
  unfold held
  by_cases h : account r = k <;> simp [h]

theorem held_perm (h : l.Perm l') (k : K) : held account amount l k = held account amount l' k :=
  ((h.filter _).map amount).sum_eq

theorem balanced_nil : Balanced account amount (fun _ => 0) [] := fun _ => rfl

theorem Balanced.perm (h : Balanced account amount shown l) (hl : l.Perm l') : Balanced account amount shown l' :=
  fun k => (h k).trans (held_perm hl k)

theorem Balanced.reserve (h : Balanced account amount shown l) (r : ρ) :
    Balanced account amount (Function.update shown (account r) (shown (account r) + amount r)) (r :: l) := by
  intro k
  rw [held_cons]
  by_cases hk : account r = k
  · subst hk
    rw [Function.update_self, if_pos rfl, h, Nat.add_comm]
  · rw [Function.update_of_ne (Ne.symm hk), if_neg hk, h, Nat.zero_add]

/-- A reservation is no more than its account shows. -/
theorem Balanced.amount_le (h : Balanced account amount shown (r :: l)) : amount r ≤ shown (account r) := by
  rw [h, held_cons, if_pos rfl]
  exact Nat.le_add_right _ _

theorem Balanced.release (h : Balanced account amount shown (r :: l)) :
    Balanced account amount (Function.update shown (account r) (shown (account r) - amount r)) l := by
  intro k
  have hk := h k
  rw [held_cons] at hk
  by_cases heq : account r = k
  · subst heq
    rw [if_pos rfl] at hk
    rw [Function.update_self, hk, Nat.add_sub_cancel_left]
  · rw [if_neg heq, Nat.zero_add] at hk
    rw [Function.update_of_ne (Ne.symm heq), hk]

/-- What those reserve who are told by their account is what it shows. -/
theorem Balanced.sum_eq (h : Balanced account amount shown l) {p : ρ → Bool} {k : K} (hp : ∀ r ∈ l, p r = decide (account r = k)) :
    ((l.filter p).map amount).sum = shown k := by
  rw [h k, held, List.filter_congr hp]

end

end DoubleSlash.Ledger
