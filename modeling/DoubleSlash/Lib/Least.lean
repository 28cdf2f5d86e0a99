import Mathlib.Data.String.Basic
import Mathlib.Order.Basic

/-!
# The first least element

`Iterator::min_by`: the first of the elements whose keys are least, for keys of any linear order. It is the first element of a
stable sort by keys.
-/

namespace DoubleSlash.Least

variable {α β : Type} [LinearOrder β]

/-- `min_by`, on keys: of two elements with equal keys the earlier one stays. -/
def leastBy (key : α → β) : List α → Option α
  | [] => none
  | x :: rest =>
    match leastBy key rest with
    | none => some x
    | some y => if key y < key x then some y else some x

variable {key : α → β}

theorem leastBy_eq_none_iff {l : List α} : leastBy key l = none ↔ l = [] := by
  cases l with
  | nil => exact ⟨fun _ => rfl, fun _ => rfl⟩
  | cons x rest =>
    rw [leastBy]
    split
    · simp
    · split <;> simp

/-- The one that is taken is there, and no other has a smaller key. -/
theorem leastBy_spec {l : List α} {m : α} (h : leastBy key l = some m) : m ∈ l ∧ ∀ x ∈ l, key m ≤ key x := by
  induction l generalizing m with
  | nil => cases h
  | cons x rest ih =>
    rw [leastBy] at h
    cases hrest : leastBy key rest with
    | none =>
      rw [hrest] at h
      obtain rfl := Option.some.inj h
      have hnil : rest = [] := leastBy_eq_none_iff.mp hrest
      subst hnil
      exact ⟨List.mem_cons_self, fun y hy => le_of_eq (by rw [List.mem_singleton.mp hy])⟩
    | some y =>
      obtain ⟨hmem, hle⟩ := ih hrest
      simp only [hrest] at h
      split at h
      · rename_i hlt
        obtain rfl := Option.some.inj h
        refine ⟨List.mem_cons_of_mem x hmem, fun z hz => ?_⟩
        rcases List.mem_cons.mp hz with rfl | hz
        · exact hlt.le
        · exact hle z hz
      · rename_i hlt
        obtain rfl := Option.some.inj h
        refine ⟨List.mem_cons_self, fun z hz => ?_⟩
        rcases List.mem_cons.mp hz with rfl | hz
        · exact le_rfl
        · exact le_trans (not_lt.mp hlt) (hle z hz)

/-- Only the keys decide which key is taken: neither order nor repetition. -/
theorem leastBy_key_congr {l l' : List α} {m m' : α} (hsame : ∀ k, k ∈ l.map key ↔ k ∈ l'.map key)
    (h : leastBy key l = some m) (h' : leastBy key l' = some m') : key m = key m' := by
  have hbound : ∀ {l l' : List α} {m m' : α}, (∀ k, k ∈ l.map key ↔ k ∈ l'.map key) → leastBy key l = some m →
      leastBy key l' = some m' → key m ≤ key m' := by
    intro l l' m m' hsame h h'
    obtain ⟨x, hx, hkey⟩ := List.mem_map.mp ((hsame (key m')).mpr (List.mem_map_of_mem (leastBy_spec h').1))
    exact hkey ▸ (leastBy_spec h).2 x hx
  exact le_antisymm (hbound hsame h h') (hbound (fun k => (hsame k).symm) h' h)

/-- The one that is taken is the first of its key: those before it have greater keys, those after it no smaller ones. -/
theorem leastBy_eq_some_iff {l : List α} {m : α} :
    leastBy key l = some m ↔
      ∃ before after, l = before ++ m :: after ∧ (∀ x ∈ before, key m < key x) ∧ ∀ x ∈ after, key m ≤ key x := by
  induction l generalizing m with
  | nil => simp [leastBy]
  | cons x rest ih =>
    rw [leastBy]
    constructor
    · intro h
      cases hrest : leastBy key rest with
      | none =>
        obtain rfl := leastBy_eq_none_iff.mp hrest
        rw [hrest] at h
        obtain rfl := Option.some.inj h
        exact ⟨[], [], rfl, by simp, by simp⟩
      | some y =>
        obtain ⟨before, after, hsplit, hbefore, hafter⟩ := ih.mp hrest
        simp only [hrest] at h
        split_ifs at h with hlt
        · obtain rfl := Option.some.inj h
          refine ⟨x :: before, after, by rw [hsplit, List.cons_append], fun z hz => ?_, hafter⟩
          rcases List.mem_cons.mp hz with rfl | hz
          · exact hlt
          · exact hbefore z hz
        · obtain rfl := Option.some.inj h
          have hle := not_lt.mp hlt
          exact ⟨[], rest, rfl, by simp, fun z hz => hle.trans ((leastBy_spec hrest).2 z hz)⟩
    · rintro ⟨before, after, hsplit, hbefore, hafter⟩
      rcases List.cons_eq_append_iff.mp hsplit with ⟨rfl, hcons⟩ | ⟨before', rfl, hrest⟩
      · obtain ⟨rfl, rfl⟩ := List.cons.inj hcons
        cases hrest : leastBy key after with
        | none => rfl
        | some y =>
          have hle := hafter y (leastBy_spec hrest).1
          simp only [if_neg (not_lt.mpr hle)]
      · have hlater := ih.mpr ⟨before', after, hrest, fun z hz => hbefore z (List.mem_cons_of_mem x hz), hafter⟩
        simp only [hlater, if_pos (hbefore x List.mem_cons_self)]

/-- A stable sort by keys begins with it. -/
theorem head?_mergeSort (key : α → β) (l : List α) :
    (l.mergeSort fun a b => decide (key a ≤ key b)).head? = leastBy key l := by
  have htrans : ∀ a b c : α, decide (key a ≤ key b) = true → decide (key b ≤ key c) = true → decide (key a ≤ key c) = true := by
    intro a b c hab hbc
    exact decide_eq_true ((of_decide_eq_true hab).trans (of_decide_eq_true hbc))
  have htotal : ∀ a b : α, (decide (key a ≤ key b) || decide (key b ≤ key a)) = true := by
    intro a b
    simpa using le_total (key a) (key b)
  induction l with
  | nil => rw [List.mergeSort_nil, leastBy, List.head?_nil]
  | cons x rest ih =>
    obtain ⟨smaller, larger, hsort, hrest, hsmaller⟩ := List.mergeSort_cons htrans htotal x rest
    have hsorted := List.pairwise_mergeSort htrans htotal (x :: rest)
    rw [hrest] at ih
    rw [hsort, leastBy]
    cases smaller with
    | cons z smaller =>
      have hlt : key z < key x := by simpa using hsmaller z List.mem_cons_self
      rw [← ih]
      simp only [List.cons_append, List.head?_cons, if_pos hlt]
    | nil =>
      rw [hsort] at hsorted
      rw [← ih]
      cases larger with
      | nil => rfl
      | cons y larger =>
        have hle : key x ≤ key y := of_decide_eq_true (List.rel_of_pairwise_cons hsorted List.mem_cons_self)
        simp only [List.nil_append, List.head?_cons, if_neg (not_lt.mpr hle)]

end DoubleSlash.Least
