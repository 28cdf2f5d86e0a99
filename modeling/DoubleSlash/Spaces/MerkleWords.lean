import DoubleSlash.Lib.Machine
import DoubleSlash.Spaces.Tree

/-!
# Proof verification on machine words

`verify_against` of `space.rs` once more, on words of 32 or 64 bits: the shift of `largest_pow2_below` drops the bits that leave
the word, so its loop need not end. A loop and a recursion run on fuel, and `none` says that the fuel is used up. The client and
the supernode have the same copy of this code.
-/

namespace DoubleSlash.Spaces

open Machine

/-- The loop of `largest_pow2_below` from `k` on: `k << 1` keeps the low bits. -/
def growPow2On (W : Word) (n : Nat) : Nat → Nat → Option Nat
  | 0, _ => none
  | fuel + 1, k =>
    if (k <<< 1) % W.modulus < n then growPow2On W n fuel ((k <<< 1) % W.modulus) else some k

/-- `largest_pow2_below`. -/
def largestPow2BelowOn (W : Word) (fuel n : Nat) : Option Nat := growPow2On W n fuel 1

/-- What one call of `root_from_audit` comes to: an answer, or the hash on top of the path and the arguments of the next call. -/
inductive AuditTurn (D : Type) where
  | refused
  | leaf
  | left (top : D) (m n : Nat) (rest : List D)
  | right (top : D) (m n : Nat) (rest : List D)

/-- The body of `root_from_audit` up to its recursive call. -/
def auditTurn {D : Type} (W : Word) (fuel m n : Nat) (path : List D) : Option (AuditTurn D) :=
  if n = 0 ∨ n ≤ m then some .refused
  else if n = 1 then some (if path.isEmpty then .leaf else .refused)
  else
    -- `path.split_last()?`
    match path.getLast? with
    | none => some .refused
    | some top =>
      (largestPow2BelowOn W fuel n).map fun k =>
        if m < k then .left top m k path.dropLast else .right top (m - k) (n - k) path.dropLast

/-- `root_from_audit`. -/
def rootFromAuditOn {D : Type} (interior : D → D → D) (W : Word) (leaf : D) :
    Nat → Nat → Nat → List D → Option (Option D)
  | 0, _, _, _ => none
  | fuel + 1, m, n, path =>
    match auditTurn W fuel m n path with
    | none => none
    | some .refused => some none
    | some .leaf => some (some leaf)
    | some (.left top m' n' rest) =>
      (rootFromAuditOn interior W leaf fuel m' n' rest).map fun answer => answer.map fun left => interior left top
    | some (.right top m' n' rest) =>
      (rootFromAuditOn interior W leaf fuel m' n' rest).map fun answer => answer.map fun right => interior top right

/-- The computed root is that of the treehead. -/
def SignedSpaceRoot.isComputed {D : Type} (H : Hashing D) (root : SignedSpaceRoot) : Option D → Bool
  | some computed => decide (encodeHash H computed = root.rootHash)
  | none => false

/-- `verify_against`. -/
def SpaceInclusionProof.verifyAgainstOn {D : Type} (H : Hashing D) (W : Word) (fuel : Nat) (p : SpaceInclusionProof)
    (root : SignedSpaceRoot) : Option Bool :=
  if p.epoch ≠ root.epoch then some false
  else if maxProofDepth < p.path.length then some false
  else
    let n := root.nodeCount
    let m := p.leafIndex
    if n ≤ m then some false
    else match p.path.mapM (decodeHash H) with
      | none => some false
      | some path =>
        (rootFromAuditOn (interiorHash H) W (p.node.leafHash H) fuel m n path).map (root.isComputed H)

/-- A call of `root_from_audit` with `m`, `n` and `path` calls it again with `m'`, `n'` and `path'`. -/
def AuditCalls {D : Type} (W : Word) (m n : Nat) (path : List D) (m' n' : Nat) (path' : List D) : Prop :=
  ∃ fuel top, auditTurn W fuel m n path = some (.left top m' n' path') ∨
    auditTurn W fuel m n path = some (.right top m' n' path')

namespace MerkleAux

/-- As long as the size is at most half of the words no bit leaves the word, and the loop is the one on numbers. -/
theorem growPow2On_eq {W : Word} {n : Nat} (hn : 2 * n ≤ W.modulus) (fuel e : Nat) (he : 2 ^ e < n) (hfuel : n ≤ 2 ^ (e + fuel)) :
    growPow2On W n fuel (2 ^ e) = some (growPow2 n (2 ^ e)) := by
  induction fuel generalizing e with
  | zero => exact absurd hfuel (by simpa using he)
  | succ fuel ih =>
    have hdouble : 2 ^ e <<< 1 = 2 ^ (e + 1) := by rw [Nat.shiftLeft_eq, Nat.pow_one, Nat.pow_succ]
    have hword : 2 ^ (e + 1) % W.modulus = 2 ^ (e + 1) := Nat.mod_eq_of_lt (by rw [Nat.pow_succ]; omega)
    rw [growPow2On, growPow2, hdouble, hword]
    by_cases hlt : 2 ^ (e + 1) < n
    · rw [if_pos hlt, dif_pos ⟨hlt, Nat.two_pow_pos e⟩]
      exact ih (e + 1) hlt (by rwa [Nat.add_right_comm, Nat.add_assoc])
    · rw [if_neg hlt, dif_neg (fun h => hlt h.1)]

/-- Past half of the words the shift goes through the powers of two of the word, then to `0`, and stays there. -/
theorem growPow2On_none {W : Word} {n : Nat} (hn : W.modulus < 2 * n) (fuel k : Nat)
    (hk : k = 0 ∨ ∃ e, e < W.bits ∧ k = 2 ^ e) : growPow2On W n fuel k = none := by
  have hhalf := W.two_mul_half
  induction fuel generalizing k with
  | zero => rfl
  | succ fuel ih =>
    have hnext : (k <<< 1) % W.modulus = 0 ∨ ∃ e, e < W.bits ∧ (k <<< 1) % W.modulus = 2 ^ e := by
      rcases hk with rfl | ⟨e, he, rfl⟩
      · exact Or.inl (by simp)
      · rw [Nat.shiftLeft_eq, Nat.pow_one, ← Nat.pow_succ]
        rcases Nat.lt_or_ge (e + 1) W.bits with hlt | hge
        · exact Or.inr ⟨e + 1, hlt, Nat.mod_eq_of_lt (Nat.pow_lt_pow_right (by omega) hlt)⟩
        · have hbits : e.succ = W.bits := by omega
          exact Or.inl (by rw [hbits]; exact Nat.mod_self _)
    have hless : (k <<< 1) % W.modulus < n := by
      rcases hnext with h | ⟨e, he, h⟩
      · omega
      · have hpow : 2 ^ e ≤ 2 ^ (W.bits - 1) := Nat.pow_le_pow_right (by omega) (by omega)
        omega
    rw [growPow2On, if_pos hless]
    exact ih _ hnext

end MerkleAux

open MerkleAux

/-- **The split on words.** It ends for sizes up to half of the words, on the split of numbers. -/
theorem largestPow2BelowOn_eq {W : Word} {fuel n : Nat} (hn : 2 ≤ n) (hhalf : 2 * n ≤ W.modulus) (hfuel : n ≤ 2 ^ fuel) :
    largestPow2BelowOn W fuel n = some (largestPow2Below n) :=
  growPow2On_eq hhalf fuel 0 (by omega) (by rwa [Nat.zero_add])

/-- It never ends for a larger size. -/
theorem largestPow2BelowOn_none {W : Word} (fuel : Nat) {n : Nat} (hhalf : W.modulus < 2 * n) :
    largestPow2BelowOn W fuel n = none :=
  growPow2On_none hhalf fuel 1 (Or.inr ⟨0, by cases W <;> decide, rfl⟩)

/-- Fuel only decides whether the loop ends. -/
theorem largestPow2BelowOn_some {W : Word} {fuel n k : Nat} (hn : 2 ≤ n) (h : largestPow2BelowOn W fuel n = some k) :
    2 * n ≤ W.modulus ∧ k = largestPow2Below n := by
  have hhalf : 2 * n ≤ W.modulus := by
    by_contra hbig
    rw [largestPow2BelowOn_none fuel (by omega)] at h
    cases h
  refine ⟨hhalf, ?_⟩
  -- a run that ends still ends with more fuel
  have hmore : ∀ (more fuel k₀ : Nat), growPow2On W n fuel k₀ = some k → growPow2On W n (fuel + more) k₀ = some k := by
    intro more fuel
    induction fuel with
    | zero => intro k₀ h₀; cases h₀
    | succ fuel ih =>
      intro k₀ h₀
      rw [Nat.add_right_comm, growPow2On]
      rw [growPow2On] at h₀
      split_ifs at h₀ ⊢ with hlt
      · exact ih _ h₀
      · exact h₀
  have hlong := hmore n fuel 1 h
  have hpow : n ≤ 2 ^ (fuel + n) :=
    (Nat.lt_two_pow_self).le.trans (Nat.pow_le_pow_right (by omega) (by omega))
  rw [← largestPow2BelowOn, largestPow2BelowOn_eq hn hhalf hpow] at hlong
  exact (Option.some.inj hlong).symm

end DoubleSlash.Spaces
