import Mathlib.Data.List.Nodup
import Mathlib.Data.List.Perm.Basic
import Mathlib.Tactic.Common

/-!
# Renaming one name after another

A list of replacements carried out in turn, each on what the earlier ones left. It is the simultaneous replacement as long as no new
name is the old name of a later replacement; where one is, the two old names end as one.
-/

namespace DoubleSlash.Renaming

variable {α : Type} [DecidableEq α]

/-- One replacement of an old name by a new one. -/
def replace (r : α × α) (x : α) : α := if x = r.1 then r.2 else x

/-- The replacements, the first one first. -/
def rename (rs : List (α × α)) (x : α) : α := rs.foldl (fun y r => replace r y) x

/-- No new name is the old name of a later replacement. -/
def Separate (rs : List (α × α)) : Prop := rs.Pairwise fun r s => r.2 ≠ s.1

@[simp] theorem rename_nil (x : α) : rename [] x = x := rfl

theorem rename_cons (r : α × α) (rs : List (α × α)) (x : α) : rename (r :: rs) x = rename rs (replace r x) := rfl

theorem rename_append (rs ss : List (α × α)) (x : α) : rename (rs ++ ss) x = rename ss (rename rs x) := by
  unfold rename
  rw [List.foldl_append]

/-- A name that is replaced nowhere stays. -/
theorem rename_of_notMem {rs : List (α × α)} {x : α} (h : ∀ r ∈ rs, r.1 ≠ x) : rename rs x = x := by
  induction rs with
  | nil => rfl
  | cons r rs ih =>
    have hr : replace r x = x := if_neg fun hx => h r List.mem_cons_self hx.symm
    rw [rename_cons, hr]
    exact ih fun s hs => h s (List.mem_cons_of_mem r hs)

/-- An old name becomes its new one if that is not replaced again. -/
theorem rename_split {before after : List (α × α)} {r : α × α} (hbefore : ∀ s ∈ before, s.1 ≠ r.1) :
    rename (before ++ r :: after) r.1 = rename after r.2 := by
  have hr : replace r r.1 = r.2 := if_pos rfl
  rw [rename_append, rename_of_notMem hbefore, rename_cons, hr]

/-- A name stays or becomes a new one. -/
theorem rename_eq_or (rs : List (α × α)) (x : α) : rename rs x = x ∨ ∃ r ∈ rs, rename rs x = r.2 := by
  induction rs generalizing x with
  | nil => exact Or.inl rfl
  | cons r rs ih =>
    rw [rename_cons]
    rcases ih (replace r x) with h | ⟨s, hs, h⟩
    · rw [h]
      unfold replace
      split
      · exact Or.inr ⟨r, List.mem_cons_self, rfl⟩
      · exact Or.inl rfl
    · exact Or.inr ⟨s, List.mem_cons_of_mem r hs, h⟩

/-- An old name becomes a new one, if not always its own. -/
theorem rename_mem {rs : List (α × α)} {x : α} (h : x ∈ rs.map Prod.fst) : ∃ r ∈ rs, rename rs x = r.2 := by
  induction rs with
  | nil => cases h
  | cons r rs ih =>
    rw [rename_cons]
    by_cases hx : x = r.1
    · have hr : replace r x = r.2 := if_pos hx
      rw [hr]
      rcases rename_eq_or rs r.2 with hself | ⟨s, hs, hnew⟩
      · exact ⟨r, List.mem_cons_self, hself⟩
      · exact ⟨s, List.mem_cons_of_mem r hs, hnew⟩
    · have hr : replace r x = x := if_neg hx
      obtain ⟨s, hs, hnew⟩ := ih ((List.mem_cons.mp h).resolve_left hx)
      exact ⟨s, List.mem_cons_of_mem r hs, by rw [hr, hnew]⟩

/-- Of distinct old names, each becomes its new one: the replacements act at once. -/
theorem rename_eq {rs : List (α × α)} (hnodup : (rs.map Prod.fst).Nodup) (hsep : Separate rs) {r : α × α} (hr : r ∈ rs) :
    rename rs r.1 = r.2 := by
  obtain ⟨before, after, rfl⟩ := List.append_of_mem hr
  have hbefore : ∀ s ∈ before, s.1 ≠ r.1 := by
    intro s hs heq
    rw [List.map_append, List.nodup_append] at hnodup
    exact hnodup.2.2 s.1 (List.mem_map_of_mem hs) r.1 (List.mem_map_of_mem List.mem_cons_self) heq
  have hafter : ∀ s ∈ after, s.1 ≠ r.2 := by
    have htail := (List.pairwise_append.mp hsep).2.1
    exact fun s hs heq => List.rel_of_pairwise_cons htail hs heq.symm
  rw [rename_split hbefore, rename_of_notMem hafter]

/-- A new name that is the old name of a later replacement is replaced with it: the two old names end as one. -/
theorem rename_clash {before mid after : List (α × α)} {r s : α × α}
    (hnodup : ((before ++ r :: (mid ++ s :: after)).map Prod.fst).Nodup) (hclash : r.2 = s.1) :
    rename (before ++ r :: (mid ++ s :: after)) r.1 = rename (before ++ r :: (mid ++ s :: after)) s.1 := by
  simp only [List.map_append, List.map_cons, List.nodup_append, List.nodup_cons, List.mem_append, List.mem_cons, not_or] at hnodup
  obtain ⟨-, ⟨⟨-, hrs, -⟩, -, ⟨hsafter, -⟩, hmid⟩, hbefore⟩ := hnodup
  have hmids : ∀ t ∈ mid, t.1 ≠ s.1 := fun t ht => hmid t.1 (List.mem_map_of_mem ht) s.1 (Or.inl rfl)
  have hfirst : ∀ t ∈ before, t.1 ≠ r.1 := fun t ht => hbefore t.1 (List.mem_map_of_mem ht) r.1 (Or.inl rfl)
  have hearly : ∀ t ∈ before ++ r :: mid, t.1 ≠ s.1 := by
    intro t ht
    rcases List.mem_append.mp ht with ht | ht
    · exact hbefore t.1 (List.mem_map_of_mem ht) s.1 (Or.inr (Or.inr (Or.inl rfl)))
    · rcases List.mem_cons.mp ht with rfl | ht
      · exact hrs
      · exact hmids t ht
  have hsplit : before ++ r :: (mid ++ s :: after) = (before ++ r :: mid) ++ s :: after := by
    rw [List.append_assoc, List.cons_append]
  calc rename (before ++ r :: (mid ++ s :: after)) r.1 = rename (mid ++ s :: after) r.2 := rename_split hfirst
    _ = rename (mid ++ s :: after) s.1 := by rw [hclash]
    _ = rename after s.2 := rename_split hmids
    _ = rename (before ++ r :: (mid ++ s :: after)) s.1 := by rw [hsplit, rename_split hearly]

/-- Replacements that are not separate have two that clash. -/
theorem exists_clash {rs : List (α × α)} (h : ¬ Separate rs) :
    ∃ before r mid s after, rs = before ++ r :: (mid ++ s :: after) ∧ r.2 = s.1 := by
  induction rs with
  | nil => exact absurd List.Pairwise.nil h
  | cons r rs ih =>
    by_cases hhead : ∃ s ∈ rs, r.2 = s.1
    · obtain ⟨s, hs, heq⟩ := hhead
      obtain ⟨mid, after, rfl⟩ := List.append_of_mem hs
      exact ⟨[], r, mid, s, after, rfl, heq⟩
    · have htail : ¬ Separate rs := by
        intro hsep
        exact h (List.pairwise_cons.mpr ⟨fun s hs heq => hhead ⟨s, hs, heq⟩, hsep⟩)
      obtain ⟨before, r', mid, s, after, rfl, heq⟩ := ih htail
      exact ⟨r :: before, r', mid, s, after, rfl, heq⟩

end DoubleSlash.Renaming
