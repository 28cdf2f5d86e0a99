import DoubleSlash.Spaces.Merkle

/-!
# Audit paths

What a path proves about a tree: the path of a leaf leads back to the root, it is short, and with an injective interior hash
no other path and no other leaf does. `Ahead` carries the comparison of a path with a tree that is larger than the path
says: it ends at an interior hash and never at a leaf.
-/

namespace DoubleSlash.Spaces

/-- A power of two below the size is at most the split. -/
theorem pow2_le_largest {e n : Nat} (hn : 2 ≤ n) (h : 2 ^ e < n) : 2 ^ e ≤ largestPow2Below n := by
  obtain ⟨⟨d, hd⟩, -, hle⟩ := largestPow2Below_spec hn
  rw [hd] at hle ⊢
  have hlt : 2 ^ e < 2 ^ (d + 1) := by rw [Nat.pow_succ]; omega
  exact Nat.pow_le_pow_right (by omega) (by have := (Nat.pow_lt_pow_iff_right (by omega)).mp hlt; omega)

/-- The split of a tree of at most `2 ^ (e + 1)` leaves is at most `2 ^ e`. -/
theorem largest_le_pow2 {e n : Nat} (hn : 2 ≤ n) (h : n ≤ 2 ^ (e + 1)) : largestPow2Below n ≤ 2 ^ e := by
  obtain ⟨⟨d, hd⟩, hlt, -⟩ := largestPow2Below_spec hn
  rw [hd] at hlt ⊢
  have hde : 2 ^ d < 2 ^ (e + 1) := by omega
  exact Nat.pow_le_pow_right (by omega) (by have := (Nat.pow_lt_pow_iff_right (by omega)).mp hde; omega)

section

variable {D : Type} {empty : D} {interior : D → D → D}

theorem merkleRoot_singleton (leaf : D) : merkleRoot empty interior [leaf] = leaf := by
  rw [merkleRoot]

theorem merkleRoot_split {leaves : List D} (h : 2 ≤ leaves.length) :
    merkleRoot empty interior leaves =
      interior (merkleRoot empty interior (leaves.take (largestPow2Below leaves.length)))
        (merkleRoot empty interior (leaves.drop (largestPow2Below leaves.length))) := by
  match leaves, h with
  | a :: b :: rest, _ => rw [merkleRoot]

theorem rootFromAudit_one (leaf : D) (path : List D) :
    rootFromAudit interior leaf 0 1 path = if path.isEmpty then some leaf else none := by
  rw [rootFromAudit]
  simp

/-- A path into a tree of two leaves or more ends in the hash of the other half. -/
theorem rootFromAudit_split {leaf root : D} {m n : Nat} {path : List D} (hn : 2 ≤ n) (hm : m < n) :
    rootFromAudit interior leaf m n path = some root ↔
      ∃ rest top, path = rest ++ [top] ∧
        ((m < largestPow2Below n ∧ ∃ left, rootFromAudit interior leaf m (largestPow2Below n) rest = some left ∧
            interior left top = root) ∨
          (largestPow2Below n ≤ m ∧ ∃ right,
            rootFromAudit interior leaf (m - largestPow2Below n) (n - largestPow2Below n) rest = some right ∧
            interior top right = root)) := by
  rw [rootFromAudit, dif_neg (by omega), dif_neg (by omega)]
  rcases path.eq_nil_or_concat with rfl | ⟨rest, top, rfl⟩
  · simp
  · simp only [List.concat_eq_append, List.getLast?_append, List.getLast?_singleton, Option.some_or, Option.bind_some,
      List.dropLast_concat]
    constructor
    · intro h
      refine ⟨rest, top, rfl, ?_⟩
      split_ifs at h with hk
      · exact Or.inl ⟨hk, Option.map_eq_some_iff.mp h⟩
      · exact Or.inr ⟨Nat.le_of_not_lt hk, Option.map_eq_some_iff.mp h⟩
    · rintro ⟨rest', top', hpath, h⟩
      obtain ⟨rfl, htop⟩ := List.append_inj' hpath rfl
      obtain rfl := (List.cons.inj htop).1
      rcases h with ⟨hk, h⟩ | ⟨hk, h⟩
      · rw [if_pos hk]
        exact Option.map_eq_some_iff.mpr h
      · rw [if_neg (by omega)]
        exact Option.map_eq_some_iff.mpr h

theorem auditPath_le_one {m : Nat} {leaves : List D} (h : leaves.length ≤ 1) : auditPath empty interior m leaves = [] := by
  rw [auditPath, dif_pos h]

theorem auditPath_left {m : Nat} {leaves : List D} (h : 2 ≤ leaves.length) (hk : m < largestPow2Below leaves.length) :
    auditPath empty interior m leaves =
      auditPath empty interior m (leaves.take (largestPow2Below leaves.length)) ++
        [merkleRoot empty interior (leaves.drop (largestPow2Below leaves.length))] := by
  rw [auditPath, dif_neg (by omega)]
  exact if_pos hk

theorem auditPath_right {m : Nat} {leaves : List D} (h : 2 ≤ leaves.length) (hk : largestPow2Below leaves.length ≤ m) :
    auditPath empty interior m leaves =
      auditPath empty interior (m - largestPow2Below leaves.length) (leaves.drop (largestPow2Below leaves.length)) ++
        [merkleRoot empty interior (leaves.take (largestPow2Below leaves.length))] := by
  rw [auditPath, dif_neg (by omega)]
  exact if_neg (by omega)

/-- A tree of at most `2 ^ e` leaves has paths of at most `e` hashes. -/
theorem auditPath_length (e m : Nat) (leaves : List D) (h : leaves.length ≤ 2 ^ e) :
    (auditPath empty interior m leaves).length ≤ e := by
  induction e generalizing m leaves with
  | zero =>
    rw [auditPath_le_one (by simpa using h)]
    exact Nat.le_refl 0
  | succ e ih =>
    by_cases hone : leaves.length ≤ 1
    · rw [auditPath_le_one hone]
      exact Nat.zero_le _
    have htwo : 2 ≤ leaves.length := by omega
    have hk := largest_le_pow2 htwo h
    obtain ⟨-, hlt, hhalf⟩ := largestPow2Below_spec htwo
    by_cases hm : m < largestPow2Below leaves.length
    · rw [auditPath_left htwo hm, List.length_append, List.length_singleton]
      exact Nat.succ_le_succ (ih m _ (by rw [List.length_take]; omega))
    · rw [auditPath_right htwo (by omega), List.length_append, List.length_singleton]
      exact Nat.succ_le_succ (ih _ _ (by rw [List.length_drop]; omega))

/-- **Completeness.** The path of a leaf leads from it to the root. -/
theorem rootFromAudit_auditPath (n m : Nat) (leaves : List D) (leaf : D) (hn : leaves.length = n)
    (hleaf : leaves[m]? = some leaf) :
    rootFromAudit interior leaf m n (auditPath empty interior m leaves) = some (merkleRoot empty interior leaves) := by
  induction n using Nat.strongRecOn generalizing m leaves with
  | ind n ih =>
    have hm : m < leaves.length := (List.getElem?_eq_some_iff.mp hleaf).1
    by_cases hone : leaves.length = 1
    · obtain ⟨leaf', rfl⟩ := List.length_eq_one_iff.mp hone
      obtain rfl : m = 0 := by simpa using hm
      rw [auditPath_le_one (by simp), merkleRoot_singleton, ← hn, List.length_singleton, rootFromAudit_one]
      exact hleaf.symm
    have htwo : 2 ≤ leaves.length := by omega
    subst hn
    obtain ⟨-, hlt, -⟩ := largestPow2Below_spec htwo
    have hpos := largestPow2Below_pos htwo
    rw [rootFromAudit_split htwo hm, merkleRoot_split htwo]
    by_cases hk : m < largestPow2Below leaves.length
    · have hlen : (leaves.take (largestPow2Below leaves.length)).length = largestPow2Below leaves.length := by
        rw [List.length_take]; omega
      have hleft := ih _ hlt m _ hlen (by rw [List.getElem?_take_of_lt hk, hleaf])
      exact ⟨_, _, auditPath_left htwo hk, Or.inl ⟨hk, _, hleft, rfl⟩⟩
    · have hk' : largestPow2Below leaves.length ≤ m := by omega
      have hright := ih _ (by omega) (m - largestPow2Below leaves.length) (leaves.drop (largestPow2Below leaves.length))
        List.length_drop (by rw [List.getElem?_drop, Nat.add_sub_cancel' hk', hleaf])
      exact ⟨_, _, auditPath_right htwo hk', Or.inr ⟨hk', _, hright, rfl⟩⟩

/-- **Soundness.** With an injective interior hash, a leaf and a path that lead to the root are the tree's own. -/
theorem eq_of_rootFromAudit (hinj : Function.Injective2 interior) (n m : Nat) (leaves : List D) (hn : leaves.length = n)
    (hm : m < n) (leaf : D) (path : List D)
    (h : rootFromAudit interior leaf m n path = some (merkleRoot empty interior leaves)) :
    leaves[m]? = some leaf ∧ path = auditPath empty interior m leaves := by
  induction n using Nat.strongRecOn generalizing m leaves path with
  | ind n ih =>
    by_cases hone : leaves.length = 1
    · obtain ⟨leaf', rfl⟩ := List.length_eq_one_iff.mp hone
      obtain rfl : n = 1 := hn.symm
      obtain rfl : m = 0 := by omega
      rw [rootFromAudit_one, merkleRoot_singleton] at h
      split_ifs at h with hempty
      rw [auditPath_le_one (by simp)]
      exact ⟨h.symm, List.isEmpty_iff.mp hempty⟩
    have htwo : 2 ≤ leaves.length := by omega
    subst hn
    obtain ⟨-, hlt, -⟩ := largestPow2Below_spec htwo
    have hpos := largestPow2Below_pos htwo
    rw [rootFromAudit_split htwo hm, merkleRoot_split htwo] at h
    obtain ⟨rest, top, rfl, ⟨hk, left, hleft, hroot⟩ | ⟨hk, right, hright, hroot⟩⟩ := h
    · obtain ⟨rfl, rfl⟩ := hinj hroot
      have hlen : (leaves.take (largestPow2Below leaves.length)).length = largestPow2Below leaves.length := by
        rw [List.length_take]; omega
      obtain ⟨hleaf, hpath⟩ := ih _ hlt m _ hlen hk rest hleft
      rw [List.getElem?_take_of_lt hk] at hleaf
      exact ⟨hleaf, by rw [auditPath_left htwo hk, hpath]⟩
    · obtain ⟨rfl, rfl⟩ := hinj hroot
      obtain ⟨hleaf, hpath⟩ := ih _ (by omega) (m - largestPow2Below leaves.length)
        (leaves.drop (largestPow2Below leaves.length)) List.length_drop (by omega) rest hright
      rw [List.getElem?_drop, Nat.add_sub_cancel' hk] at hleaf
      exact ⟨hleaf, by rw [auditPath_right htwo hk, hpath]⟩

end

/-- The tree has `n` leaves more than a whole number of blocks of a size no smaller than `n`, and at least one such block. -/
def Ahead (size n : Nat) : Prop := ∃ e q, n ≤ 2 ^ e ∧ 0 < q ∧ size = q * 2 ^ e + n

namespace Ahead

variable {size n : Nat}

theorem lt (h : Ahead size n) : n < size := by
  obtain ⟨e, q, -, hq, rfl⟩ := h
  have := Nat.mul_pos hq (Nat.two_pow_pos e)
  omega

/-- Both trees' left halves are whole powers of two, the larger tree's the larger. -/
theorem left (h : Ahead size n) (hn : 2 ≤ n) : Ahead (largestPow2Below size) (largestPow2Below n) := by
  obtain ⟨e, q, hle, hq, hsize⟩ := h
  have hblock : 2 ^ e ≤ q * 2 ^ e := Nat.le_mul_of_pos_left _ hq
  have hbig : 2 ^ e ≤ largestPow2Below size := pow2_le_largest (by omega) (by omega)
  obtain ⟨⟨d, hd⟩, hlt, -⟩ := largestPow2Below_spec hn
  obtain ⟨⟨f, hf⟩, -, -⟩ := largestPow2Below_spec (n := size) (by omega)
  rw [hd] at hlt ⊢
  rw [hf] at hbig ⊢
  have hdf : d < f := (Nat.pow_lt_pow_iff_right (a := 2) (by omega)).mp (by omega)
  have hpos := Nat.one_lt_two_pow (n := f - d) (by omega)
  refine ⟨d, 2 ^ (f - d) - 1, Nat.le_refl _, by omega, ?_⟩
  rw [Nat.sub_mul, Nat.one_mul, ← Nat.pow_add, Nat.sub_add_cancel (Nat.le_of_lt hdf)]
  have := Nat.pow_le_pow_right (n := 2) (by omega) (Nat.le_of_lt hdf)
  omega

/-- What the larger tree's left half takes away is a whole number of blocks, so its right half still has all `n` leaves. -/
theorem right (h : Ahead size n) (hn : 2 ≤ n) : Ahead (size - largestPow2Below size) (n - largestPow2Below n) := by
  obtain ⟨e, q, hle, hq, hsize⟩ := h
  have hblock : 2 ^ e ≤ q * 2 ^ e := Nat.le_mul_of_pos_left _ hq
  have hbig : 2 ^ e ≤ largestPow2Below size := pow2_le_largest (by omega) (by omega)
  obtain ⟨⟨d, hd⟩, hlt, hhalf⟩ := largestPow2Below_spec hn
  obtain ⟨⟨f, hf⟩, hfsize, -⟩ := largestPow2Below_spec (n := size) (by omega)
  rw [hd] at hlt hhalf ⊢
  rw [hf] at hbig hfsize ⊢
  have hde : d < e := (Nat.pow_lt_pow_iff_right (a := 2) (by omega)).mp (by omega)
  have hef : e ≤ f := (Nat.pow_le_pow_iff_right (a := 2) (by omega)).mp hbig
  have hfe : 2 ^ f = 2 ^ (f - e) * 2 ^ e := by rw [← Nat.pow_add, Nat.sub_add_cancel hef]
  have hed : 2 ^ e = 2 ^ (e - d) * 2 ^ d := by rw [← Nat.pow_add, Nat.sub_add_cancel (Nat.le_of_lt hde)]
  have htake : 2 ^ (f - e) ≤ q := by
    have hmul : 2 ^ (f - e) * 2 ^ e < (q + 1) * 2 ^ e := by rw [← hfe, Nat.add_mul, Nat.one_mul]; omega
    exact Nat.le_of_lt_succ (Nat.lt_of_mul_lt_mul_right hmul)
  refine ⟨d, (q - 2 ^ (f - e)) * 2 ^ (e - d) + 1, by omega, by omega, ?_⟩
  have hrest : (q - 2 ^ (f - e)) * 2 ^ e = q * 2 ^ e - 2 ^ f := by rw [Nat.sub_mul, ← hfe]
  have hsplit : ((q - 2 ^ (f - e)) * 2 ^ (e - d) + 1) * 2 ^ d = (q - 2 ^ (f - e)) * 2 ^ e + 2 ^ d := by
    rw [Nat.add_mul, Nat.one_mul, Nat.mul_assoc, ← hed]
  have htaken : 2 ^ f ≤ q * 2 ^ e := by rw [hfe]; exact Nat.mul_le_mul_right _ htake
  rw [hsplit, hrest]
  omega

end Ahead

/-- **A path for too small a tree.** It leads to an interior hash where it needs a leaf. -/
theorem rootFromAudit_ne_of_ahead {D : Type} {empty : D} {interior : D → D → D} (hinj : Function.Injective2 interior) {leaf : D}
    (hleaf : ∀ l r, leaf ≠ interior l r) (n m : Nat) (leaves path : List D) (hn : Ahead leaves.length n) (hm : m < n) :
    rootFromAudit interior leaf m n path ≠ some (merkleRoot empty interior leaves) := by
  induction n using Nat.strongRecOn generalizing m leaves path with
  | ind n ih =>
    intro h
    have hlt := hn.lt
    have hsplit := @merkleRoot_split D empty interior leaves (by omega)
    obtain rfl | htwo : n = 1 ∨ 2 ≤ n := by omega
    · obtain rfl : m = 0 := by omega
      rw [rootFromAudit_one, hsplit] at h
      split_ifs at h
      exact hleaf _ _ (Option.some.inj h)
    · rw [rootFromAudit_split htwo hm, hsplit] at h
      obtain ⟨-, hless, -⟩ := largestPow2Below_spec htwo
      have hpos := largestPow2Below_pos htwo
      obtain ⟨-, hsize, -⟩ := largestPow2Below_spec (n := leaves.length) (by omega)
      obtain ⟨rest, top, -, ⟨hk, left, hleft, hroot⟩ | ⟨hk, right, hright, hroot⟩⟩ := h
      · obtain ⟨rfl, -⟩ := hinj hroot
        refine ih _ hless m (leaves.take (largestPow2Below leaves.length)) rest ?_ hk hleft
        rw [List.length_take, Nat.min_eq_left (Nat.le_of_lt hsize)]
        exact hn.left htwo
      · obtain ⟨-, rfl⟩ := hinj hroot
        refine ih _ (by omega) (m - largestPow2Below n) (leaves.drop (largestPow2Below leaves.length)) rest ?_ (by omega) hright
        rw [List.length_drop]
        exact hn.right htwo

end DoubleSlash.Spaces
