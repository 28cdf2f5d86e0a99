import Mathlib.Data.Finset.Card
import Mathlib.Data.List.Induction
import Mathlib.Tactic.Common

/-!
# The last distinct values

A queue of at most `cap` distinct values: a value that is not in it goes to its end, and the oldest leaves when there is no room. It
is the end of the list of the values it took in, and a value it has dropped was followed by as many other values as it holds.
-/

namespace DoubleSlash.Recent

section

variable {α : Type} [DecidableEq α]

/-- A value that is not among the last ones is added to them. -/
def remember (cap : Nat) (q : List α) (x : α) : List α :=
  if x ∈ q then q else (q ++ [x]).drop (q.length + 1 - cap)

/-- The values that were taken in, the oldest first. -/
def taken (cap : Nat) : List α → List α → List α
  | _, [] => []
  | q, x :: xs => if x ∈ q then taken cap q xs else x :: taken cap (remember cap q x) xs

theorem remember_of_mem {cap : Nat} {q : List α} {x : α} (h : x ∈ q) : remember cap q x = q := if_pos h

theorem remember_of_notMem {cap : Nat} {q : List α} {x : α} (h : x ∉ q) :
    remember cap q x = (q ++ [x]).drop (q.length + 1 - cap) := if_neg h

/-- There is room for the value, or the oldest one makes it. -/
theorem remember_cases {cap : Nat} {q : List α} {x : α} (hcap : 0 < cap) (hq : q.length ≤ cap) (h : x ∉ q) :
    (q.length < cap ∧ remember cap q x = q ++ [x]) ∨ ∃ old rest, q = old :: rest ∧ q.length = cap ∧ remember cap q x = rest ++ [x] := by
  rw [remember_of_notMem h]
  rcases Nat.lt_or_ge q.length cap with hlt | hge
  · have hnone : q.length + 1 - cap = 0 := by omega
    left
    rw [hnone]
    exact ⟨hlt, rfl⟩
  · cases q with
    | nil => exact absurd hge (Nat.not_le.mpr hcap)
    | cons old rest =>
      right
      have hlen : (old :: rest).length = cap := by omega
      have hone : (old :: rest).length + 1 - cap = 1 := by omega
      refine ⟨old, rest, rfl, hlen, ?_⟩
      rw [hone]
      rfl

theorem length_remember_le {cap : Nat} {q : List α} (x : α) (hcap : 0 < cap) (hq : q.length ≤ cap) :
    (remember cap q x).length ≤ cap := by
  by_cases h : x ∈ q
  · rw [remember_of_mem h]
    exact hq
  · rcases remember_cases hcap hq h with ⟨hlt, heq⟩ | ⟨old, rest, rfl, hlen, heq⟩
    · rw [heq, List.length_append]
      exact hlt
    · rw [heq, List.length_append]
      exact hlen.le

theorem nodup_remember (cap : Nat) {q : List α} (x : α) (hq : q.Nodup) : (remember cap q x).Nodup := by
  unfold remember
  split
  · exact hq
  · rename_i h
    refine List.Nodup.sublist (List.drop_sublist _ _) ?_
    rw [List.nodup_append]
    refine ⟨hq, List.nodup_singleton x, fun a ha b hb => ?_⟩
    rw [List.mem_singleton] at hb
    rintro rfl
    exact h (hb ▸ ha)

theorem mem_remember_self {cap : Nat} {q : List α} {x : α} (hcap : 0 < cap) (hq : q.length ≤ cap) : x ∈ remember cap q x := by
  by_cases h : x ∈ q
  · rw [remember_of_mem h]
    exact h
  · rcases remember_cases hcap hq h with ⟨_, heq⟩ | ⟨old, rest, _, _, heq⟩ <;> rw [heq] <;> simp

theorem mem_of_mem_remember {cap : Nat} {q : List α} {x y : α} (h : y ∈ remember cap q x) : y ∈ q ∨ y = x := by
  unfold remember at h
  split at h
  · exact Or.inl h
  · simpa using List.mem_of_mem_drop h

/-- **The queue is the end of what was taken in.** -/
theorem foldl_remember_eq {cap : Nat} (hcap : 0 < cap) (xs : List α) {q : List α} (hq : q.length ≤ cap) :
    xs.foldl (remember cap) q = (q ++ taken cap q xs).drop ((q ++ taken cap q xs).length - cap) := by
  induction xs generalizing q with
  | nil =>
    have hnone : q.length - cap = 0 := by omega
    simp [taken, hnone]
  | cons x xs ih =>
    rw [List.foldl_cons, ih (length_remember_le x hcap hq)]
    by_cases h : x ∈ q
    · rw [remember_of_mem h, taken, if_pos h]
    · rw [taken, if_neg h]
      rcases remember_cases hcap hq h with ⟨hlt, heq⟩ | ⟨old, rest, rfl, hlen, heq⟩
      · rw [heq, List.append_assoc, List.singleton_append]
      · rw [heq, List.append_assoc, List.singleton_append]
        have hdrop : (old :: rest ++ x :: taken cap (rest ++ [x]) xs).length - cap
            = (rest ++ x :: taken cap (rest ++ [x]) xs).length - cap + 1 := by
          simp only [List.length_append, List.length_cons] at hlen ⊢
          omega
        rw [hdrop]
        rfl

theorem taken_append (cap : Nat) (q xs ys : List α) :
    taken cap q (xs ++ ys) = taken cap q xs ++ taken cap (xs.foldl (remember cap) q) ys := by
  induction xs generalizing q with
  | nil => rfl
  | cons x xs ih =>
    rw [List.cons_append, taken, taken, List.foldl_cons]
    split
    · rename_i h
      rw [ih, remember_of_mem h]
    · rw [ih, List.cons_append]

/-- What is in the queue was in it before or came since. -/
theorem mem_foldl_remember {cap : Nat} {xs q : List α} {y : α} (h : y ∈ xs.foldl (remember cap) q) : y ∈ q ∨ y ∈ taken cap q xs := by
  induction xs generalizing q with
  | nil => exact Or.inl h
  | cons x xs ih =>
    rw [taken]
    by_cases hx : x ∈ q
    · rw [if_pos hx]
      rw [List.foldl_cons, remember_of_mem hx] at h
      exact ih h
    · rw [if_neg hx]
      rcases ih h with hq | htaken
      · rcases mem_of_mem_remember hq with hq | rfl
        · exact Or.inl hq
        · exact Or.inr (List.mem_cons_self)
      · exact Or.inr (List.mem_cons_of_mem _ htaken)

theorem mem_of_mem_taken {cap : Nat} {xs q : List α} {y : α} (h : y ∈ taken cap q xs) : y ∈ xs := by
  induction xs generalizing q with
  | nil => exact h
  | cons x xs ih =>
    rw [taken] at h
    split at h
    · exact List.mem_cons_of_mem _ (ih h)
    · rcases List.mem_cons.mp h with rfl | h
      · exact List.mem_cons_self
      · exact List.mem_cons_of_mem _ (ih h)

/-- The values after one that is dropped: as many as the queue holds. The induction is on what comes, with the values that have come
after the one looked at. -/
theorem card_of_dropped_since {cap : Nat} {x : α} (xs : List α) (before since : List α)
    (hq : (before ++ x :: since).length ≤ cap) (hnodup : (before ++ x :: since).Nodup)
    (h : x ∉ xs.foldl (remember cap) (before ++ x :: since)) : cap ≤ ((since ++ xs).toFinset.erase x).card := by
  have hcap : 0 < cap := by
    simp only [List.length_append, List.length_cons] at hq
    omega
  induction xs generalizing before since with
  | nil => exact absurd (by simp) h
  | cons y ys ih =>
    have hsince : (since ++ y :: ys).toFinset = (since ++ [y] ++ ys).toFinset := by simp
    have hx : x ∉ since := fun hmem => (List.nodup_cons.mp (List.nodup_append.mp hnodup).2.1).1 hmem
    by_cases hy : y ∈ before ++ x :: since
    · rw [List.foldl_cons, remember_of_mem hy] at h
      refine (ih before since hq hnodup h).trans (Finset.card_le_card (Finset.erase_subset_erase x ?_))
      intro z hz
      simp only [List.toFinset_append, List.toFinset_cons, Finset.mem_union, Finset.mem_insert] at hz ⊢
      tauto
    · have hnodup' := nodup_remember cap y hnodup
      have hlen' := length_remember_le y hcap hq
      rw [List.foldl_cons] at h
      rcases remember_cases hcap hq hy with ⟨_, heq⟩ | ⟨old, rest, hold, hfull, heq⟩
      · rw [heq] at h hnodup' hlen'
        rw [List.append_assoc, List.cons_append] at h hnodup' hlen'
        rw [hsince]
        exact ih before (since ++ [y]) hlen' hnodup' h
      · cases before with
        | nil =>
          -- The value itself leaves: the others filled the queue.
          have hothers : (since ++ [y]).toFinset ⊆ (since ++ y :: ys).toFinset.erase x := by
            intro z hz
            rw [Finset.mem_erase]
            refine ⟨?_, ?_⟩
            · rintro rfl
              rcases List.mem_append.mp (List.mem_toFinset.mp hz) with hz | hz
              · exact hx hz
              · exact hy (by simp [List.mem_singleton.mp hz])
            · simp only [List.toFinset_append, List.toFinset_cons, List.toFinset_nil, Finset.mem_union, Finset.mem_insert] at hz ⊢
              tauto
          have hrest : rest = since := (List.cons.inj hold).2.symm
          rw [heq, hrest] at hnodup'
          calc cap = (since ++ [y]).length := by simpa using hfull.symm
            _ = (since ++ [y]).toFinset.card := (List.toFinset_card_of_nodup hnodup').symm
            _ ≤ _ := Finset.card_le_card hothers
        | cons b before =>
          have hrest : rest = before ++ x :: since := (List.cons.inj hold).2.symm
          rw [heq, hrest, List.append_assoc, List.cons_append] at h hnodup' hlen'
          rw [hsince]
          exact ih before (since ++ [y]) hlen' hnodup' h

/-- **A value that was dropped was followed by as many others as the queue holds.** -/
theorem card_of_dropped {cap : Nat} {q xs : List α} {x : α} (hcap : 0 < cap) (hq : q.length ≤ cap) (hnodup : q.Nodup) (hnew : x ∉ q)
    (h : x ∉ xs.foldl (remember cap) (remember cap q x)) : cap ≤ (xs.toFinset.erase x).card := by
  have hlen := length_remember_le x hcap hq
  have hnodup' := nodup_remember cap x hnodup
  have hend : ∃ before, remember cap q x = before ++ [x] := by
    rcases remember_cases hcap hq hnew with ⟨_, heq⟩ | ⟨old, rest, _, _, heq⟩
    · exact ⟨q, heq⟩
    · exact ⟨rest, heq⟩
  obtain ⟨before, hbefore⟩ := hend
  rw [hbefore] at h hlen hnodup'
  simpa using card_of_dropped_since xs before [] hlen hnodup' h

end

end DoubleSlash.Recent
