import DoubleSlash.Lemmas.Merkle
import DoubleSlash.Spaces.MerkleWords
import Mathlib.Order.Bounds.Basic

/-!
# Proof verification comes to an end

The recursion of `root_from_audit` always goes to a smaller tree and a shorter path. The loop in it is another matter: on words
of 32 bits and a tree of more than `2 ^ 31` nodes it never ends, and whoever signs a root says how many nodes there are. With
words of 64 bits, and with smaller trees, the verification ends on the answer of the one on numbers.
-/

namespace DoubleSlash.Spaces

open Machine

namespace ProofTermAux

section

variable {D : Type} {W : Word}

theorem word_u32 {W : Word} {n : Nat} (hn : n < 2 ^ 32) : 2 * n ≤ W.modulus ↔ W = .w64 ∨ n ≤ 2 ^ 31 := by
  cases W with
  | w32 => simp only [Word.modulus, Word.bits, reduceCtorEq, false_or]; omega
  | w64 => simp only [Word.modulus, Word.bits, true_or, iff_true]; omega

/-- A call that does not answer by itself has a tree to split and a hash on top of its path. -/
theorem auditTurn_split {fuel m n : Nat} (hn : 2 ≤ n) (hm : m < n) (rest : List D) (top : D) :
    auditTurn W fuel m n (rest ++ [top]) =
      (largestPow2BelowOn W fuel n).map fun k => if m < k then .left top m k rest else .right top (m - k) (n - k) rest := by
  rw [auditTurn, if_neg (by omega), if_neg (by omega)]
  simp only [List.getLast?_append, List.getLast?_singleton, Option.some_or, List.dropLast_concat]

/-- What the call of a call is: the path without its top, and the half of the tree the leaf is in. -/
theorem auditCalls_spec {m n m' n' : Nat} {path path' : List D} (h : AuditCalls W m n path m' n' path') :
    2 ≤ n ∧ m < n ∧ (∃ top, path = path' ++ [top]) ∧
      ((m < largestPow2Below n ∧ m' = m ∧ n' = largestPow2Below n) ∨
        (largestPow2Below n ≤ m ∧ m' + largestPow2Below n = m ∧ n' + largestPow2Below n = n)) := by
  obtain ⟨fuel, top, h⟩ := h
  have hcall : ¬(n = 0 ∨ n ≤ m) ∧ n ≠ 1 := by
    rw [auditTurn] at h
    split_ifs at h with hempty hone
    · simp at h
    · simp at h
    · simp at h
    · exact ⟨hempty, hone⟩
  have hn : 2 ≤ n := by omega
  have hm : m < n := by omega
  rcases path.eq_nil_or_concat with rfl | ⟨rest, top', rfl⟩
  · simp [auditTurn, hcall.1, hcall.2] at h
  · rw [List.concat_eq_append, auditTurn_split hn hm] at h
    cases hk : largestPow2BelowOn W fuel n with
    | none => simp [hk] at h
    | some k =>
      obtain ⟨-, rfl⟩ := largestPow2BelowOn_some hn hk
      obtain ⟨-, hless, -⟩ := largestPow2Below_spec hn
      simp only [hk, Option.map_some, Option.some.injEq] at h
      by_cases hside : m < largestPow2Below n
      · simp only [if_pos hside, AuditTurn.left.injEq, reduceCtorEq, or_false] at h
        obtain ⟨-, rfl, rfl, rfl⟩ := h
        exact ⟨hn, hm, ⟨top', List.concat_eq_append⟩, Or.inl ⟨hside, rfl, rfl⟩⟩
      · simp only [if_neg hside, AuditTurn.right.injEq, reduceCtorEq, false_or] at h
        obtain ⟨-, rfl, rfl, rfl⟩ := h
        exact ⟨hn, hm, ⟨top', List.concat_eq_append⟩, Or.inr ⟨by omega, by omega, by omega⟩⟩

end

section

variable {D : Type} {W : Word} {interior : D → D → D} {leaf : D}

/-- One call on a tree of two leaves or more. -/
theorem rootFromAuditOn_split {fuel m n : Nat} (hn : 2 ≤ n) (hm : m < n) (rest : List D) (top : D) :
    rootFromAuditOn interior W leaf (fuel + 1) m n (rest ++ [top]) =
      (largestPow2BelowOn W fuel n).bind fun k =>
        if m < k then
          (rootFromAuditOn interior W leaf fuel m k rest).map fun answer => answer.map fun left => interior left top
        else
          (rootFromAuditOn interior W leaf fuel (m - k) (n - k) rest).map fun answer =>
            answer.map fun right => interior top right := by
  rw [rootFromAuditOn, auditTurn_split hn hm]
  cases largestPow2BelowOn W fuel n with
  | none => rfl
  | some k =>
    simp only [Option.map_some, Option.bind_some]
    split_ifs <;> rfl

/-- One call that answers by itself. -/
theorem rootFromAuditOn_answer {m n : Nat} {path : List D} (h : n ≤ 1 ∨ n ≤ m ∨ path = []) (fuel : Nat) :
    rootFromAuditOn interior W leaf (fuel + 1) m n path = some (rootFromAudit interior leaf m n path) := by
  rw [rootFromAuditOn, rootFromAudit, auditTurn]
  by_cases hempty : n = 0 ∨ n ≤ m
  · rw [if_pos hempty, dif_pos hempty]
  by_cases hone : n = 1
  · rw [if_neg hempty, dif_neg hempty, if_pos hone, dif_pos hone]
    cases path <;> rfl
  obtain rfl : path = [] := by
    rcases h with h | h | h
    · omega
    · omega
    · exact h
  rw [if_neg hempty, dif_neg hempty, if_neg hone, dif_neg hone]
  rfl

/-- `root_from_audit` on numbers, on a tree of two leaves or more. -/
theorem rootFromAudit_concat {m n : Nat} (hn : 2 ≤ n) (hm : m < n) (rest : List D) (top : D) :
    rootFromAudit interior leaf m n (rest ++ [top]) =
      if m < largestPow2Below n then
        (rootFromAudit interior leaf m (largestPow2Below n) rest).map fun left => interior left top
      else
        (rootFromAudit interior leaf (m - largestPow2Below n) (n - largestPow2Below n) rest).map fun right =>
          interior top right := by
  rw [rootFromAudit, dif_neg (by omega), dif_neg (by omega)]
  simp only [List.getLast?_append, List.getLast?_singleton, Option.some_or, Option.bind_some, List.dropLast_concat]

/-- Enough fuel leads to the answer on numbers when the tree has at most half as many leaves as there are words. -/
theorem rootFromAuditOn_eq (fuel m n : Nat) (path : List D) (hhalf : 2 * n ≤ W.modulus) (hfuel : path.length + n < fuel) :
    rootFromAuditOn interior W leaf fuel m n path = some (rootFromAudit interior leaf m n path) := by
  induction fuel generalizing m n path with
  | zero => exact absurd hfuel (Nat.not_lt_zero _)
  | succ fuel ih =>
    by_cases hanswer : n ≤ 1 ∨ n ≤ m ∨ path = []
    · exact rootFromAuditOn_answer hanswer fuel
    have hn : 2 ≤ n := by omega
    have hm : m < n := by omega
    rcases path.eq_nil_or_concat with hnil | ⟨rest, top, hpath⟩
    · exact absurd (Or.inr (Or.inr hnil)) hanswer
    rw [List.concat_eq_append] at hpath
    subst hpath
    rw [List.length_append, List.length_singleton] at hfuel
    obtain ⟨-, hless, -⟩ := largestPow2Below_spec hn
    have hpos := largestPow2Below_pos hn
    have hloop : largestPow2BelowOn W fuel n = some (largestPow2Below n) :=
      largestPow2BelowOn_eq hn hhalf ((show n ≤ fuel by omega).trans Nat.lt_two_pow_self.le)
    rw [rootFromAuditOn_split hn hm, rootFromAudit_concat hn hm, hloop, Option.bind_some]
    split_ifs with hside
    · rw [ih m _ rest (by omega) (by omega)]
      rfl
    · rw [ih _ _ rest (by omega) (by omega)]
      rfl

/-- Whatever the fuel, an answer is the one on numbers. -/
theorem eq_of_rootFromAuditOn (fuel m n : Nat) (path : List D) {answer : Option D}
    (h : rootFromAuditOn interior W leaf fuel m n path = some answer) : answer = rootFromAudit interior leaf m n path := by
  induction fuel generalizing m n path answer with
  | zero => cases h
  | succ fuel ih =>
    by_cases hanswer : n ≤ 1 ∨ n ≤ m ∨ path = []
    · rw [rootFromAuditOn_answer hanswer fuel] at h
      exact (Option.some.inj h).symm
    have hn : 2 ≤ n := by omega
    have hm : m < n := by omega
    rcases path.eq_nil_or_concat with hnil | ⟨rest, top, hpath⟩
    · exact absurd (Or.inr (Or.inr hnil)) hanswer
    rw [List.concat_eq_append] at hpath
    subst hpath
    rw [rootFromAuditOn_split hn hm] at h
    obtain ⟨k, hk, h⟩ := Option.bind_eq_some_iff.mp h
    obtain ⟨-, rfl⟩ := largestPow2BelowOn_some hn hk
    rw [rootFromAudit_concat hn hm]
    split_ifs at h ⊢ with hside
    · obtain ⟨inner, hinner, rfl⟩ := Option.map_eq_some_iff.mp h
      rw [ih m _ rest hinner]
    · obtain ⟨inner, hinner, rfl⟩ := Option.map_eq_some_iff.mp h
      rw [ih _ _ rest hinner]

/-- A larger tree and a path that is not empty: the loop of the first call never ends. -/
theorem rootFromAuditOn_none {m n : Nat} {path : List D} (hhalf : W.modulus < 2 * n) (hm : m < n) (hpath : path ≠ [])
    (fuel : Nat) : rootFromAuditOn interior W leaf fuel m n path = none := by
  cases fuel with
  | zero => rfl
  | succ fuel =>
    have hn : 2 ≤ n := by
      have hone : 1 ≤ 2 ^ (W.bits - 1) := Nat.one_le_two_pow
      have := W.two_mul_half
      omega
    rcases path.eq_nil_or_concat with hnil | ⟨rest, top, rfl⟩
    · exact absurd hnil hpath
    · rw [List.concat_eq_append, rootFromAuditOn_split hn hm, largestPow2BelowOn_none fuel hhalf, Option.bind_none]

end

end ProofTermAux

open ProofTermAux

variable {D : Type}

/-- The verification answers before it splits a tree. -/
def AnswersEarly (H : Hashing D) (p : SpaceInclusionProof) (root : SignedSpaceRoot) : Prop :=
  p.epoch ≠ root.epoch ∨ maxProofDepth < p.path.length ∨ root.nodeCount ≤ p.leafIndex ∨ p.path.mapM (decodeHash H) = none ∨
    p.path = []

/-- The verification comes to an end. -/
def Terminates (H : Hashing D) (W : Word) (p : SpaceInclusionProof) (root : SignedSpaceRoot) : Prop :=
  ∃ fuel answer, p.verifyAgainstOn H W fuel root = some answer

/-- A call of `root_from_audit` calls it on a tree that is smaller and not empty, with the leaf in it, and on a path that is
shorter by its top hash. -/
def RecursesBelow (D : Type) (W : Word) : Prop :=
  ∀ (m n m' n' : Nat) (path path' : List D), AuditCalls W m n path m' n' path' →
    0 < n' ∧ n' < n ∧ m' < n' ∧ m' ≤ m ∧ ∃ top, path = path' ++ [top]

/-- The loop of `largest_pow2_below` ends on the largest power of two below `n`. -/
def LoopEnds (W : Word) (n : Nat) : Prop :=
  ∃ fuel k, largestPow2BelowOn W fuel n = some k ∧ IsGreatest {x | x < n ∧ ∃ e, x = 2 ^ e} k

namespace ProofTermAux

theorem loopEnds_iff {W : Word} {n : Nat} (hn : 2 ≤ n) : LoopEnds W n ↔ 2 * n ≤ W.modulus := by
  constructor
  · rintro ⟨fuel, k, hk, -⟩
    exact (largestPow2BelowOn_some hn hk).1
  · intro hhalf
    obtain ⟨hpow, hless, -⟩ := largestPow2Below_spec hn
    refine ⟨n, largestPow2Below n, largestPow2BelowOn_eq hn hhalf Nat.lt_two_pow_self.le, ⟨hless, hpow⟩, ?_⟩
    rintro x ⟨hx, e, rfl⟩
    exact pow2_le_largest hn hx

theorem recursesBelow (W : Word) : RecursesBelow D W := by
  intro m n m' n' path path' hcall
  obtain ⟨hn, hm, hpath, hside⟩ := auditCalls_spec hcall
  obtain ⟨-, hless, -⟩ := largestPow2Below_spec hn
  have hpos := largestPow2Below_pos hn
  rcases hside with ⟨hleft, rfl, rfl⟩ | ⟨hright, hm', hn'⟩
  · exact ⟨hpos, hless, hleft, Nat.le_refl _, hpath⟩
  · exact ⟨by omega, by omega, by omega, by omega, hpath⟩

/-- The two verifications differ in the audit only. -/
theorem verifyAgainstOn_audit {H : Hashing D} {W : Word} {p : SpaceInclusionProof} {root : SignedSpaceRoot} {path : List D}
    (hepoch : p.epoch = root.epoch) (hdepth : p.path.length ≤ maxProofDepth) (hindex : p.leafIndex < root.nodeCount)
    (hpath : p.path.mapM (decodeHash H) = some path) (fuel : Nat) :
    p.verifyAgainstOn H W fuel root =
      (rootFromAuditOn (interiorHash H) W (p.node.leafHash H) fuel p.leafIndex root.nodeCount path).map (root.isComputed H) := by
  simp only [SpaceInclusionProof.verifyAgainstOn, hepoch, hpath, ne_eq, not_true_eq_false, if_false,
    if_neg (Nat.not_lt.mpr hdepth), if_neg (Nat.not_le.mpr hindex)]

theorem verifyAgainst_audit {H : Hashing D} {p : SpaceInclusionProof} {root : SignedSpaceRoot} {path : List D}
    (hepoch : p.epoch = root.epoch) (hdepth : p.path.length ≤ maxProofDepth) (hindex : p.leafIndex < root.nodeCount)
    (hpath : p.path.mapM (decodeHash H) = some path) :
    p.verifyAgainst H root =
      root.isComputed H (rootFromAudit (interiorHash H) (p.node.leafHash H) p.leafIndex root.nodeCount path) := by
  simp only [SpaceInclusionProof.verifyAgainst, hepoch, hpath, ne_eq, not_true_eq_false, if_false,
    if_neg (Nat.not_lt.mpr hdepth), if_neg (Nat.not_le.mpr hindex)]
  cases rootFromAudit (interiorHash H) (p.node.leafHash H) p.leafIndex root.nodeCount path with
  | none => rfl
  | some computed => rfl

/-- A verification that refuses before the audit does so on numbers as well. -/
theorem verifyAgainstOn_refused {H : Hashing D} {W : Word} {p : SpaceInclusionProof} {root : SignedSpaceRoot}
    (h : p.epoch ≠ root.epoch ∨ maxProofDepth < p.path.length ∨ root.nodeCount ≤ p.leafIndex ∨
      p.path.mapM (decodeHash H) = none) (fuel : Nat) :
    p.verifyAgainstOn H W fuel root = some false ∧ p.verifyAgainst H root = false := by
  unfold SpaceInclusionProof.verifyAgainstOn SpaceInclusionProof.verifyAgainst
  by_cases hepoch : p.epoch ≠ root.epoch
  · exact ⟨if_pos hepoch, if_pos hepoch⟩
  rw [if_neg hepoch, if_neg hepoch]
  by_cases hdepth : maxProofDepth < p.path.length
  · exact ⟨if_pos hdepth, if_pos hdepth⟩
  rw [if_neg hdepth, if_neg hdepth]
  by_cases hindex : root.nodeCount ≤ p.leafIndex
  · exact ⟨if_pos hindex, if_pos hindex⟩
  have hpath : p.path.mapM (decodeHash H) = none :=
    ((h.resolve_left hepoch).resolve_left hdepth).resolve_left hindex
  simp only [if_neg hindex, hpath, and_self]

/-- The four checks before the audit, or a path of digests for it. -/
theorem refused_or_path (H : Hashing D) (p : SpaceInclusionProof) (root : SignedSpaceRoot) :
    (p.epoch ≠ root.epoch ∨ maxProofDepth < p.path.length ∨ root.nodeCount ≤ p.leafIndex ∨
        p.path.mapM (decodeHash H) = none) ∨
      (p.epoch = root.epoch ∧ p.path.length ≤ maxProofDepth ∧ p.leafIndex < root.nodeCount ∧
        ∃ path, p.path.mapM (decodeHash H) = some path) := by
  by_cases hepoch : p.epoch = root.epoch
  · rcases Nat.lt_or_ge maxProofDepth p.path.length with hdepth | hdepth
    · exact Or.inl (Or.inr (Or.inl hdepth))
    · rcases Nat.lt_or_ge p.leafIndex root.nodeCount with hindex | hindex
      · cases hpath : p.path.mapM (decodeHash H) with
        | none => exact Or.inl (Or.inr (Or.inr (Or.inr rfl)))
        | some path => exact Or.inr ⟨hepoch, hdepth, hindex, path, rfl⟩
      · exact Or.inl (Or.inr (Or.inr (Or.inl hindex)))
  · exact Or.inl (Or.inl hepoch)

theorem length_of_mapM {H : Hashing D} {hashes : List String} {path : List D}
    (h : hashes.mapM (decodeHash H) = some path) : path.length = hashes.length := by
  induction hashes generalizing path with
  | nil =>
    obtain rfl : [] = path := by simpa using h
    rfl
  | cons x rest ih =>
    obtain ⟨d, hd, h⟩ := Option.bind_eq_some_iff.mp (by simpa [List.mapM_cons] using h)
    obtain ⟨ds, hds, h⟩ := Option.bind_eq_some_iff.mp h
    obtain rfl := Option.some.inj h
    rw [List.length_cons, List.length_cons, ih hds]

theorem terminates_iff (H : Hashing D) (W : Word) (p : SpaceInclusionProof) (root : SignedSpaceRoot) :
    Terminates H W p root ↔ 2 * root.nodeCount ≤ W.modulus ∨ AnswersEarly H p root := by
  rcases refused_or_path H p root with hrefused | ⟨hepoch, hdepth, hindex, path, hpath⟩
  · refine ⟨fun _ => Or.inr ?_, fun _ => ⟨0, false, (verifyAgainstOn_refused hrefused 0).1⟩⟩
    rcases hrefused with h | h | h | h
    · exact Or.inl h
    · exact Or.inr (Or.inl h)
    · exact Or.inr (Or.inr (Or.inl h))
    · exact Or.inr (Or.inr (Or.inr (Or.inl h)))
  have hlength := length_of_mapM hpath
  have hnil : path = [] ↔ p.path = [] := by rw [← List.length_eq_zero_iff, hlength, List.length_eq_zero_iff]
  constructor
  · rintro ⟨fuel, answer, h⟩
    rw [verifyAgainstOn_audit hepoch hdepth hindex hpath] at h
    by_contra hnot
    obtain ⟨hhalf, hearly⟩ := not_or.mp hnot
    have hne : path ≠ [] := fun hp => hearly (Or.inr (Or.inr (Or.inr (Or.inr (hnil.mp hp)))))
    rw [rootFromAuditOn_none (by omega) hindex hne] at h
    cases h
  · rintro (hhalf | hearly)
    · refine ⟨path.length + root.nodeCount + 1, p.verifyAgainst H root, ?_⟩
      rw [verifyAgainstOn_audit hepoch hdepth hindex hpath, rootFromAuditOn_eq _ _ _ path hhalf (by omega),
        verifyAgainst_audit hepoch hdepth hindex hpath]
      rfl
    · have hempty : path = [] := by
        rcases hearly with h | h | h | h | h
        · exact absurd hepoch h
        · exact absurd h (Nat.not_lt.mpr hdepth)
        · exact absurd h (Nat.not_le.mpr hindex)
        · rw [hpath] at h
          cases h
        · exact hnil.mpr h
      refine ⟨1, p.verifyAgainst H root, ?_⟩
      rw [verifyAgainstOn_audit hepoch hdepth hindex hpath, rootFromAuditOn_answer (Or.inr (Or.inr hempty)) 0,
        verifyAgainst_audit hepoch hdepth hindex hpath]
      rfl

theorem eq_of_verifyAgainstOn (H : Hashing D) (W : Word) (p : SpaceInclusionProof) (root : SignedSpaceRoot) {fuel : Nat}
    {answer : Bool} (h : p.verifyAgainstOn H W fuel root = some answer) : answer = p.verifyAgainst H root := by
  rcases refused_or_path H p root with hrefused | ⟨hepoch, hdepth, hindex, path, hpath⟩
  · obtain ⟨hon, hnum⟩ := verifyAgainstOn_refused (W := W) hrefused fuel
    rw [hon] at h
    rw [hnum]
    exact (Option.some.inj h).symm
  · rw [verifyAgainstOn_audit hepoch hdepth hindex hpath] at h
    obtain ⟨audited, haudited, rfl⟩ := Option.map_eq_some_iff.mp h
    rw [verifyAgainst_audit hepoch hdepth hindex hpath, eq_of_rootFromAuditOn _ _ _ path haudited]

end ProofTermAux

/-- **Proof verification and its end.** For a root and a proof as they come off the wire, on words of either size: the
verification ends exactly with 64 bits, with at most `2 ^ 31` nodes or where it answers before it splits a tree, always on the
answer of `verify_against` on numbers; the loop ends on the largest power of two below exactly for such sizes; and the recursion
goes to smaller trees and shorter paths throughout. -/
theorem proof_verification_ends (H : Hashing D) (W : Word) (p : SpaceInclusionProof) (root : SignedSpaceRoot)
    (hcount : root.nodeCount < 2 ^ 32) :
    (Terminates H W p root ↔ W = .w64 ∨ root.nodeCount ≤ 2 ^ 31 ∨ AnswersEarly H p root) ∧
      (∀ fuel answer, p.verifyAgainstOn H W fuel root = some answer → answer = p.verifyAgainst H root) ∧
      (∀ n, 2 ≤ n → n < 2 ^ 32 → (LoopEnds W n ↔ W = .w64 ∨ n ≤ 2 ^ 31)) ∧
      RecursesBelow D W := by
  refine ⟨?_, ?_, ?_, recursesBelow W⟩
  · rw [terminates_iff, word_u32 hcount, or_assoc]
  · intro fuel answer h
    exact eq_of_verifyAgainstOn H W p root h
  · intro n hn hu32
    rw [loopEnds_iff hn, word_u32 hu32]

section

/-- A node of a Space. -/
def lobbyNode : SpaceNode :=
  { nodeId := "lobby", parentId := "", kind := "room", name := "Lobby", nodeType := "text", ownerPub := "owner",
    invitePolicy := "owner", inherit := true, keyCommit := "" }

/-- A root that says how many nodes there are. -/
def countedRoot (nodeCount : Nat) : SignedSpaceRoot :=
  { schema := spaceSchema, spaceId := "space", epoch := 1, rootHash := "", nodeCount := nodeCount, issuedAt := 0,
    signer := "signer", signature := "" }

/-- A proof of one hash for the first leaf. -/
def oneHashProof : SpaceInclusionProof :=
  { schema := spaceSchema, node := lobbyNode, leafIndex := 0, path := ["00"], epoch := 1 }

/-- With `2 ^ 31` nodes the verification ends on words of 32 bits. -/
theorem proof_verification_ends_half : Terminates Hashing.plain .w32 oneHashProof (countedRoot (2 ^ 31)) :=
  (proof_verification_ends Hashing.plain .w32 oneHashProof (countedRoot (2 ^ 31)) (by decide)).1.mpr
    (Or.inr (Or.inl (Nat.le_refl _)))

/-- One node more, and it never ends. -/
theorem proof_verification_loops :
    (countedRoot (2 ^ 31 + 1)).nodeCount < 2 ^ 32 ∧
      ∀ fuel, oneHashProof.verifyAgainstOn Hashing.plain .w32 fuel (countedRoot (2 ^ 31 + 1)) = none := by
  refine ⟨by decide, fun fuel => ?_⟩
  have hpath : oneHashProof.path.mapM (decodeHash Hashing.plain) = some [[0]] := by decide
  rw [verifyAgainstOn_audit rfl (by decide) (by decide) hpath]
  rw [rootFromAuditOn_none (by decide) (by decide) (by decide)]
  rfl

end

end DoubleSlash.Spaces
