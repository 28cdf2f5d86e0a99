import DoubleSlash.Lib.Assoc

/-!
# Maps of maps

A `HashMap` whose values are maps, where an inner map goes with its last slot. Read through `slot` it is one map over pairs, and each
operation changes that map in one place.
-/

namespace DoubleSlash.Nested

open Assoc

variable {K S V : Type} [DecidableEq K] [DecidableEq S]

/-- The value in a slot of a key. -/
def slot (m : HashMap K (HashMap S V)) (k : K) (s : S) : Option V := (m.lookup k).bind (AList.lookup s)

/-- `map.entry(k).or_default()`. -/
def entry (m : HashMap K (HashMap S V)) (k : K) : HashMap K (HashMap S V) := if k ∈ m then m else m.insert k ∅

/-- `map.entry(k).or_default().insert(s, v)`. -/
def put (m : HashMap K (HashMap S V)) (k : K) (s : S) (v : V) : HashMap K (HashMap S V) :=
  m.insert k (((m.lookup k).getD ∅).insert s v)

/-- Take the slot out of the key's map, and the key if nothing is left. -/
def take (m : HashMap K (HashMap S V)) (k : K) (s : S) : HashMap K (HashMap S V) :=
  match m.lookup k with
  | none => m
  | some inner => if (inner.erase s).keys = [] then m.erase k else m.insert k (inner.erase s)

/-- No key is kept without a slot. -/
def NoHollow (m : HashMap K (HashMap S V)) : Prop := ∀ k inner, m.lookup k = some inner → inner.keys ≠ []

theorem slot_put (m : HashMap K (HashMap S V)) (k k' : K) (s s' : S) (v : V) :
    slot (put m k s v) k' s' = if k' = k ∧ s' = s then some v else slot m k' s' := by
  unfold slot put
  by_cases hk : k' = k
  · subst hk
    rw [AList.lookup_insert, Option.bind_some]
    by_cases hs : s' = s
    · subst hs
      rw [AList.lookup_insert, if_pos ⟨rfl, rfl⟩]
    · rw [AList.lookup_insert_ne hs, if_neg fun h => hs h.2]
      cases m.lookup k' with
      | none => exact AList.lookup_empty s'
      | some inner => rfl
  · rw [AList.lookup_insert_ne hk, if_neg fun h => hk h.1]

theorem slot_take (m : HashMap K (HashMap S V)) (k k' : K) (s s' : S) :
    slot (take m k s) k' s' = if k' = k ∧ s' = s then none else slot m k' s' := by
  unfold take
  cases hinner : m.lookup k with
  | none =>
    by_cases hk : k' = k ∧ s' = s
    · obtain ⟨rfl, rfl⟩ := hk
      rw [if_pos ⟨rfl, rfl⟩, slot, hinner, Option.bind_none]
    · rw [if_neg hk]
  | some inner =>
    have herased : (inner.erase s).lookup s' = if s' = s then none else inner.lookup s' := by
      split
      next hs => rw [hs, AList.lookup_erase]
      next hs => rw [AList.lookup_erase_ne hs]
    dsimp only
    by_cases hk : k' = k
    · subst hk
      have hread : slot (if (inner.erase s).keys = [] then m.erase k' else m.insert k' (inner.erase s)) k' s' =
          (inner.erase s).lookup s' := by
        unfold slot
        split
        next hempty =>
          have hnot : s' ∉ inner.erase s := by
            rw [AList.mem_keys, hempty]
            exact List.not_mem_nil
          rw [AList.lookup_erase, Option.bind_none, AList.lookup_eq_none.mpr hnot]
        next => rw [AList.lookup_insert, Option.bind_some]
      rw [hread, herased, slot, hinner, Option.bind_some]
      by_cases hs : s' = s
      · rw [if_pos hs, if_pos ⟨rfl, hs⟩]
      · rw [if_neg hs, if_neg fun h => hs h.2]
    · have hne : ¬(k' = k ∧ s' = s) := fun h => hk h.1
      rw [if_neg hne]
      unfold slot
      split
      · rw [AList.lookup_erase_ne hk]
      · rw [AList.lookup_insert_ne hk]

omit [DecidableEq S] in
theorem noHollow_empty : NoHollow (∅ : HashMap K (HashMap S V)) := by
  intro k inner h
  rw [AList.lookup_empty] at h
  cases h

theorem NoHollow.put {m : HashMap K (HashMap S V)} (h : NoHollow m) (k : K) (s : S) (v : V) : NoHollow (put m k s v) := by
  intro k' inner hinner
  unfold Nested.put at hinner
  by_cases hk : k' = k
  · subst hk
    rw [AList.lookup_insert] at hinner
    cases hinner
    intro hempty
    have hin : s ∈ (((m.lookup k').getD ∅).insert s v).keys := AList.mem_keys.mp ((AList.mem_insert _).mpr (Or.inl rfl))
    rw [hempty] at hin
    cases hin
  · rw [AList.lookup_insert_ne hk] at hinner
    exact h k' inner hinner

theorem NoHollow.take {m : HashMap K (HashMap S V)} (h : NoHollow m) (k : K) (s : S) : NoHollow (take m k s) := by
  unfold Nested.take
  split
  · exact h
  · intro k' inner hinner
    split at hinner
    · by_cases hk : k' = k
      · subst hk
        rw [AList.lookup_erase] at hinner
        cases hinner
      · rw [AList.lookup_erase_ne hk] at hinner
        exact h k' inner hinner
    · next hleft =>
      by_cases hk : k' = k
      · subst hk
        rw [AList.lookup_insert] at hinner
        cases hinner
        exact hleft
      · rw [AList.lookup_insert_ne hk] at hinner
        exact h k' inner hinner

end DoubleSlash.Nested
