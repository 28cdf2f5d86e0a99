import DoubleSlash.Lib.Versioned
import DoubleSlash.Spaces.Owned

/-!
# Merging Spaces

A Space is a copy of the map from node ids to nodes, its epoch the version. `merge_space` computes the join of two copies.
-/

namespace DoubleSlash.Spaces

open Assoc Keyed Versioned

/-- The copy that a Space is. -/
def Space.copy (space : Space) : Copy String SpaceNode := { version := space.epoch, value := at? SpaceNode.nodeId space.nodes }

/-- No two nodes of one id. -/
def Space.Distinct (space : Space) : Prop := Keyed.Distinct SpaceNode.nodeId space.nodes

/-- The Space that a merge leaves. -/
def SpaceMerge.result (ours incoming : Space) : SpaceMerge → Space
  | .unchanged => ours
  | .adopt _ => incoming
  | .resign space => space

namespace SpaceMergeAux

section

variable {D : Type} (H : Hashing D)

theorem lookup_mine (nodes : List SpaceNode) (m : HashMap String SpaceNode) (hm : Filed SpaceNode.nodeId m)
    (hnodes : Keyed.Distinct SpaceNode.nodeId nodes) :
    Filed SpaceNode.nodeId (nodes.foldl (fun merged node => merged.insert node.nodeId node) m) ∧
      ∀ k, (nodes.foldl (fun merged node => merged.insert node.nodeId node) m).lookup k =
        (at? SpaceNode.nodeId nodes k).or (m.lookup k) := by
  induction nodes generalizing m with
  | nil => exact ⟨hm, fun _ => rfl⟩
  | cons x xs ih =>
    obtain ⟨hx, hxs⟩ := List.nodup_cons.mp hnodes
    obtain ⟨hfiled, hlookup⟩ := ih (m.insert x.nodeId x) (hm.insert x) hxs
    refine ⟨hfiled, fun k => ?_⟩
    rw [List.foldl_cons, hlookup k]
    by_cases hk : x.nodeId = k
    · subst hk
      have hnone : at? SpaceNode.nodeId xs x.nodeId = none := by
        rw [← Option.not_isSome_iff_eq_none, at?_isSome_iff]
        exact hx
      have hself : at? SpaceNode.nodeId (x :: xs) x.nodeId = some x := at?_of_mem hnodes List.mem_cons_self
      rw [hnone, hself, AList.lookup_insert]
      rfl
    · have hrest : at? SpaceNode.nodeId (x :: xs) k = at? SpaceNode.nodeId xs k := List.find?_cons_of_neg (by simpa using hk)
      rw [hrest, AList.lookup_insert_ne (Ne.symm hk)]

theorem filed_mergeNode {ours incoming : Space} {m : HashMap String SpaceNode} (hm : Filed SpaceNode.nodeId m) (x : SpaceNode) :
    Filed SpaceNode.nodeId (mergeNode H ours incoming m x) := by
  unfold mergeNode
  split
  · exact hm.insert x
  · split
    · exact hm.insert x
    · exact hm

theorem lookup_mergeNode_self (ours incoming : Space) (m : HashMap String SpaceNode) (x : SpaceNode) :
    (mergeNode H ours incoming m x).lookup x.nodeId =
      joinValue (SpaceNode.rank H) ours.epoch incoming.epoch (m.lookup x.nodeId) (some x) := by
  unfold mergeNode
  cases hmine : m.lookup x.nodeId with
  | none => exact AList.lookup_insert m
  | some mine =>
    have hwins : theirsWins H incoming ours x mine ↔
        ours.epoch < incoming.epoch ∨ (ours.epoch = incoming.epoch ∧ mine.rank H < x.rank H) := by
      unfold theirsWins
      rw [@eq_comm _ incoming.epoch]
    simp only [joinValue]
    by_cases hsame : mine = x
    · rw [if_neg (fun h => h.1 hsame), hmine, hsame, ite_self]
    · by_cases hw : theirsWins H incoming ours x mine
      · rw [if_pos ⟨hsame, hw⟩, if_pos (hwins.mp hw), AList.lookup_insert]
      · rw [if_neg (fun h => hw h.2), if_neg (fun h => hw (hwins.mpr h)), hmine]

theorem lookup_mergeNode_ne (ours incoming : Space) (m : HashMap String SpaceNode) {x : SpaceNode} {k : String} (hk : k ≠ x.nodeId) :
    (mergeNode H ours incoming m x).lookup k = m.lookup k := by
  unfold mergeNode
  split
  · exact AList.lookup_insert_ne hk
  · split
    · exact AList.lookup_insert_ne hk
    · rfl

theorem joinValue_none (v w : Nat) (x : Option SpaceNode) : joinValue (SpaceNode.rank H) v w x none = x := by
  cases x <;> rfl

theorem lookup_merged (ours incoming : Space) (nodes : List SpaceNode) (m : HashMap String SpaceNode) (hm : Filed SpaceNode.nodeId m)
    (hnodes : Keyed.Distinct SpaceNode.nodeId nodes) :
    Filed SpaceNode.nodeId (nodes.foldl (mergeNode H ours incoming) m) ∧
      ∀ k, (nodes.foldl (mergeNode H ours incoming) m).lookup k =
        joinValue (SpaceNode.rank H) ours.epoch incoming.epoch (m.lookup k) (at? SpaceNode.nodeId nodes k) := by
  induction nodes generalizing m with
  | nil => exact ⟨hm, fun k => (joinValue_none H _ _ _).symm⟩
  | cons x xs ih =>
    obtain ⟨hx, hxs⟩ := List.nodup_cons.mp hnodes
    obtain ⟨hfiled, hlookup⟩ := ih (mergeNode H ours incoming m x) (filed_mergeNode H hm x) hxs
    refine ⟨hfiled, fun k => ?_⟩
    rw [List.foldl_cons, hlookup k]
    by_cases hk : k = x.nodeId
    · rw [hk]
      have hnone : at? SpaceNode.nodeId xs x.nodeId = none := by
        rw [← Option.not_isSome_iff_eq_none, at?_isSome_iff]
        exact hx
      have hself : at? SpaceNode.nodeId (x :: xs) x.nodeId = some x := at?_of_mem hnodes List.mem_cons_self
      rw [hnone, hself, joinValue_none, lookup_mergeNode_self]
    · have hrest : at? SpaceNode.nodeId (x :: xs) k = at? SpaceNode.nodeId xs k :=
        List.find?_cons_of_neg (by simpa using fun h => hk h.symm)
      rw [hrest, lookup_mergeNode_ne H ours incoming m hk]

/-- The merged nodes are a sorted list that stands for the join. -/
theorem mergedNodes_spec {ours incoming : Space} (ho : ours.Distinct) (hi : incoming.Distinct) :
    ∃ nodes, mergedNodes H ours incoming = sortByKey SpaceNode.nodeId nodes ∧ Keyed.Distinct SpaceNode.nodeId nodes ∧
      ∀ k, at? SpaceNode.nodeId nodes k = joined (SpaceNode.rank H) ours.copy incoming.copy k := by
  obtain ⟨hfiled, hlookup⟩ := lookup_mine ours.nodes ∅ filed_empty ho
  obtain ⟨hfiled', hlookup'⟩ := lookup_merged H ours incoming incoming.nodes _ hfiled hi
  refine ⟨_, rfl, distinct_values hfiled', fun k => ?_⟩
  rw [at?_values hfiled', hlookup', hlookup, AList.lookup_empty, Option.or_none]
  rfl

/-- The nodes of a copy are the merged ones exactly when it holds the join. -/
theorem sortedNodes_eq_merged {ours incoming space : Space} (ho : ours.Distinct) (hi : incoming.Distinct) (hs : space.Distinct) :
    sortedNodes space = mergedNodes H ours incoming ↔ space.copy.value = joined (SpaceNode.rank H) ours.copy incoming.copy := by
  obtain ⟨nodes, heq, hnodes, hat⟩ := mergedNodes_spec H ho hi
  rw [heq]
  unfold sortedNodes
  rw [sortByKey_eq_iff hs hnodes]
  constructor
  · exact fun h => funext fun k => (h k).trans (hat k)
  · exact fun h k => (congrFun h k).trans (hat k).symm

theorem sortedNodes_eq {s t : Space} (hs : s.Distinct) (ht : t.Distinct) : sortedNodes s = sortedNodes t ↔ s.copy.value = t.copy.value := by
  unfold sortedNodes
  rw [sortByKey_eq_iff hs ht]
  exact ⟨funext, congrFun⟩

end

end SpaceMergeAux

open SpaceMergeAux

/-- Two Spaces of one epoch and one set of nodes. -/
theorem copy_eq_iff {s t : Space} (hs : s.Distinct) (ht : t.Distinct) :
    s.copy = t.copy ↔ s.epoch = t.epoch ∧ sortedNodes s = sortedNodes t := by
  rw [sortedNodes_eq hs ht]
  constructor
  · intro h
    exact ⟨congrArg Copy.version h, congrArg Copy.value h⟩
  · exact fun h => Copy.ext h.1 h.2

/-- An epoch that has one after it. -/
theorem nextEpoch_eq {epoch : Nat} (h : epoch + 1 < 2 ^ 64) : nextEpoch epoch = epoch + 1 := Nat.mod_eq_of_lt h

/-- **`merge_space` computes the join.** It takes the sender's copy when that holds the join, keeps ours when ours does, and signs anew
only a join that neither holds. -/
theorem mergeSpace_cases {D : Type} (H : Hashing D) {ours incoming : Space} (ho : ours.Distinct) (hi : incoming.Distinct) :
    (HeldBySecond (SpaceNode.rank H) ours.copy incoming.copy ∧
      (mergeSpace H (some ours) incoming = .adopt incoming ∨
        (mergeSpace H (some ours) incoming = .unchanged ∧ ours.copy = incoming.copy))) ∨
    (HeldByFirst (SpaceNode.rank H) ours.copy incoming.copy ∧ mergeSpace H (some ours) incoming = .unchanged) ∨
    (¬ HeldBySecond (SpaceNode.rank H) ours.copy incoming.copy ∧ ¬ HeldByFirst (SpaceNode.rank H) ours.copy incoming.copy ∧
      ∃ nodes, mergeSpace H (some ours) incoming = .resign {
          spaceId := ours.spaceId, ownerPub := ours.ownerPub, epoch := nextEpoch (max ours.epoch incoming.epoch), nodes := nodes } ∧
        Keyed.Distinct SpaceNode.nodeId nodes ∧
        at? SpaceNode.nodeId nodes = joined (SpaceNode.rank H) ours.copy incoming.copy) := by
  have hours := sortedNodes_eq_merged H ho hi ho
  have hincoming := sortedNodes_eq_merged H ho hi hi
  unfold mergeSpace
  dsimp only
  simp only [decide_eq_true_eq]
  by_cases h₁ : sortedNodes incoming = mergedNodes H ours incoming ∧ ours.epoch ≤ incoming.epoch
  · have hheld : HeldBySecond (SpaceNode.rank H) ours.copy incoming.copy := ⟨hincoming.mp h₁.1, h₁.2⟩
    refine Or.inl ⟨hheld, ?_⟩
    rw [if_pos h₁]
    by_cases h₂ : sortedNodes ours = mergedNodes H ours incoming ∧ incoming.epoch = ours.epoch
    · exact Or.inr ⟨if_pos h₂, Copy.ext h₂.2.symm ((hours.mp h₂.1).trans hheld.1.symm)⟩
    · exact Or.inl (if_neg h₂)
  · right
    rw [if_neg h₁]
    by_cases h₂ : sortedNodes ours = mergedNodes H ours incoming ∧ incoming.epoch ≤ ours.epoch
    · exact Or.inl ⟨⟨hours.mp h₂.1, h₂.2⟩, if_pos h₂⟩
    · refine Or.inr ⟨fun h => h₁ ⟨hincoming.mpr h.1, h.2⟩, fun h => h₂ ⟨hours.mpr h.1, h.2⟩, mergedNodes H ours incoming, if_neg h₂, ?_⟩
      obtain ⟨nodes, heq, hnodes, hat⟩ := mergedNodes_spec H ho hi
      rw [heq]
      have hdistinct : Keyed.Distinct SpaceNode.nodeId (sortByKey SpaceNode.nodeId nodes) :=
        hnodes.perm (sortByKey_perm SpaceNode.nodeId nodes).symm
      exact ⟨hdistinct, funext fun k => (at?_perm hdistinct (sortByKey_perm SpaceNode.nodeId nodes) k).trans (hat k)⟩

/-- What a merge leaves is the join of the two copies. -/
theorem mergeSpace_spec {D : Type} (H : Hashing D) {ours incoming : Space} (ho : ours.Distinct) (hi : incoming.Distinct)
    (hepoch : max ours.epoch incoming.epoch + 1 < 2 ^ 64) :
    ((mergeSpace H (some ours) incoming).result ours incoming).copy = join (SpaceNode.rank H) ours.copy incoming.copy ∧
      ((mergeSpace H (some ours) incoming).result ours incoming).Distinct := by
  rcases mergeSpace_cases H ho hi with ⟨hheld, heq | ⟨heq, hsame⟩⟩ | ⟨hheld, heq⟩ | ⟨h₁, h₂, nodes, heq, hnodes, hat⟩
  · rw [heq, join_of_heldBySecond hheld]
    exact ⟨rfl, hi⟩
  · rw [heq, join_of_heldBySecond hheld]
    exact ⟨hsame, ho⟩
  · rw [heq, join_of_heldByFirst hheld]
    exact ⟨rfl, ho⟩
  · rw [heq, join_of_not h₁ h₂, nextEpoch_eq hepoch]
    exact ⟨Copy.ext rfl hat, hnodes⟩

/-- A join that the sender holds is taken as it is. -/
theorem mergeSpace_of_join_eq_incoming {D : Type} (H : Hashing D) {ours incoming : Space} (ho : ours.Distinct) (hi : incoming.Distinct)
    (h : join (SpaceNode.rank H) ours.copy incoming.copy = incoming.copy) :
    mergeSpace H (some ours) incoming = .adopt incoming ∨
      (mergeSpace H (some ours) incoming = .unchanged ∧ ours.copy = incoming.copy) := by
  have hheld := heldBySecond_of_join_eq h
  rcases mergeSpace_cases H ho hi with ⟨_, hcase⟩ | ⟨hfirst, heq⟩ | ⟨hnot, _⟩
  · exact hcase
  · exact Or.inr ⟨heq, (join_of_heldByFirst hfirst).symm.trans h⟩
  · exact absurd hheld hnot

/-- A join that we hold changes nothing. -/
theorem mergeSpace_of_join_eq_ours {D : Type} (H : Hashing D) {ours incoming : Space} (ho : ours.Distinct) (hi : incoming.Distinct)
    (h : join (SpaceNode.rank H) ours.copy incoming.copy = ours.copy) : mergeSpace H (some ours) incoming = .unchanged := by
  have hheld := heldByFirst_of_join_eq h
  rcases mergeSpace_cases H ho hi with ⟨hsecond, heq | ⟨heq, _⟩⟩ | ⟨_, heq⟩ | ⟨_, hnot, _⟩
  · -- Both copies hold the join, so the sender's is ours.
    have hsame : ours.copy = incoming.copy := h.symm.trans (join_of_heldBySecond hsecond)
    have hnodes := (copy_eq_iff ho hi).mp hsame
    have hmerged : sortedNodes ours = mergedNodes H ours incoming := (sortedNodes_eq_merged H ho hi ho).mpr hheld.1
    have hpos : sortedNodes incoming = mergedNodes H ours incoming ∧ ours.epoch ≤ incoming.epoch :=
      ⟨hnodes.2.symm.trans hmerged, hnodes.1.le⟩
    unfold mergeSpace
    dsimp only
    simp only [decide_eq_true_eq]
    rw [if_pos hpos, if_pos ⟨hmerged, hnodes.1.symm⟩]
  · exact heq
  · exact heq
  · exact absurd hheld hnot

end DoubleSlash.Spaces
