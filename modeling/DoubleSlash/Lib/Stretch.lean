import Mathlib.Data.List.Induction
import Mathlib.Tactic.Common

/-!
# Stretches of what a run shows

A system shows at most one event at a step. A fact about a stretch of consecutive events, each of some kind, is shown from what one
step does to the stretch so far.
-/

namespace DoubleSlash.Stretch

variable {σ α ε : Type} (step : σ → α → σ × Option ε)

/-- The state after a list of actions. -/
def after (s : σ) (acts : List α) : σ := acts.foldl (fun s a => (step s a).1) s

/-- The events of a list of actions. -/
def events : σ → List α → List ε
  | _, [] => []
  | s, a :: acts => (step s a).2.toList ++ events (step s a).1 acts

variable {step}

@[simp] theorem after_nil (s : σ) : after step s [] = s := rfl

@[simp] theorem after_cons (s : σ) (a : α) (acts : List α) : after step s (a :: acts) = after step (step s a).1 acts := rfl

theorem after_append (s : σ) (l₁ l₂ : List α) : after step s (l₁ ++ l₂) = after step (after step s l₁) l₂ := by
  unfold after
  rw [List.foldl_append]

theorem after_concat (s : σ) (l : List α) (a : α) : after step s (l ++ [a]) = (step (after step s l) a).1 := by
  rw [after_append, after_cons, after_nil]

theorem events_append (s : σ) (l₁ l₂ : List α) :
    events step s (l₁ ++ l₂) = events step s l₁ ++ events step (after step s l₁) l₂ := by
  induction l₁ generalizing s with
  | nil => rfl
  | cons a l₁ ih => rw [List.cons_append, events, ih, events, List.append_assoc, after_cons]

theorem events_concat (s : σ) (l : List α) (a : α) :
    events step s (l ++ [a]) = events step s l ++ (step (after step s l) a).2.toList := by
  rw [events_append, events, events, List.append_nil]

/-- **The invariant rule, with the actions taken so far.** What holds at the start and is kept by each action of the run holds of every
state the run passes. -/
theorem invariant {s : σ} {acts : List α} (I : List α → σ → Prop) (h0 : I [] s)
    (hstep : ∀ pre a post, acts = pre ++ a :: post → I pre (after step s pre) → I (pre ++ [a]) (step (after step s pre) a).1)
    {pre post : List α} (h : acts = pre ++ post) : I pre (after step s pre) := by
  induction pre using List.reverseRecOn generalizing post with
  | nil => exact h0
  | append_singleton pre a ih =>
    rw [List.append_assoc, List.singleton_append] at h
    rw [after_concat]
    exact hstep pre a post h (ih h)

section

variable {C : ε → Prop} {R : σ → List ε → Prop} {K : σ → α → Prop}

/-- A stretch that has begun goes on. -/
theorem goes_on
    (hstep : ∀ s a mid, K s a → R s mid → (∀ e, (step s a).2 = some e → C e) → R (step s a).1 (mid ++ (step s a).2.toList))
    {acts : List α} {s : σ} {begun mid post : List ε}
    (hK : ∀ pre a rest, acts = pre ++ a :: rest → K (after step s pre) a) (hbegun : R s begun)
    (h : events step s acts = mid ++ post) (hmid : ∀ e ∈ mid, C e) : ∃ s', R s' (begun ++ mid) := by
  induction acts generalizing s begun mid with
  | nil =>
    obtain ⟨rfl, -⟩ := List.append_eq_nil_iff.mp h.symm
    exact ⟨s, by rwa [List.append_nil]⟩
  | cons a acts ih =>
    have hK' : ∀ pre b rest, acts = pre ++ b :: rest → K (after step (step s a).1 pre) b := by
      intro pre b rest heq
      exact hK (a :: pre) b rest (by rw [heq, List.cons_append])
    have hhead := hstep s a begun (hK [] a acts rfl) hbegun
    rw [events] at h
    cases hev : (step s a).2 with
    | none =>
      rw [hev] at h hhead
      have hquiet := hhead fun e he => by cases he
      rw [Option.toList_none, List.append_nil] at hquiet
      exact ih hK' hquiet h hmid
    | some e =>
      rw [hev] at h hhead
      cases mid with
      | nil => exact ⟨s, by rwa [List.append_nil]⟩
      | cons x mid =>
        obtain ⟨rfl, hrest⟩ := List.cons.inj h
        have hnext := hhead fun e' he' => Option.some.inj he' ▸ hmid e List.mem_cons_self
        obtain ⟨s', hs'⟩ := ih hK' hnext hrest fun e' he' => hmid e' (List.mem_cons_of_mem _ he')
        exact ⟨s', by rwa [Option.toList_some, List.append_assoc, List.singleton_append] at hs'⟩

/-- **The rule for stretches.** What holds of no events, and is kept by every step that shows an event of the kind or none, holds of
every stretch of events of the kind. -/
theorem stretch (hnil : ∀ s, R s [])
    (hstep : ∀ s a mid, K s a → R s mid → (∀ e, (step s a).2 = some e → C e) → R (step s a).1 (mid ++ (step s a).2.toList))
    {acts : List α} {s : σ} {pre mid post : List ε}
    (hK : ∀ pre a rest, acts = pre ++ a :: rest → K (after step s pre) a)
    (h : events step s acts = pre ++ (mid ++ post)) (hmid : ∀ e ∈ mid, C e) : ∃ s', R s' mid := by
  induction acts generalizing s pre with
  | nil =>
    obtain ⟨rfl, hrest⟩ := List.append_eq_nil_iff.mp h.symm
    obtain ⟨rfl, -⟩ := List.append_eq_nil_iff.mp hrest
    exact ⟨s, hnil s⟩
  | cons a acts ih =>
    have hK' : ∀ pre b rest, acts = pre ++ b :: rest → K (after step (step s a).1 pre) b := by
      intro pre b rest heq
      exact hK (a :: pre) b rest (by rw [heq, List.cons_append])
    cases pre with
    | nil =>
      rw [List.nil_append] at h
      obtain ⟨s', hs'⟩ := goes_on hstep hK (hnil s) h hmid
      exact ⟨s', by rwa [List.nil_append] at hs'⟩
    | cons x pre =>
      rw [events] at h
      cases hev : (step s a).2 with
      | none =>
        rw [hev] at h
        exact ih hK' h
      | some e =>
        rw [hev] at h
        exact ih hK' (List.cons.inj h).2

end

end DoubleSlash.Stretch
