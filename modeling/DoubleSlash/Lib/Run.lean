import Mathlib.Data.List.Induction
import Mathlib.Tactic.Common

/-!
# Runs of a transition function

A system is a step function that may refuse an action. A run is the list of its actions; what holds along runs is shown from
what one step preserves.
-/

namespace DoubleSlash.Run

section

variable {σ α : Type} (step : σ → α → Option σ)

/-- The state after a list of actions, if none of them is refused. -/
def run (s : σ) (acts : List α) : Option σ :=
  acts.foldlM step s

variable {step}

/-- A run that ends with an action is a run up to it and one step. -/
theorem run_concat {s s' : σ} {acts : List α} {a : α} (h : run step s (acts ++ [a]) = some s') :
    ∃ s₁, run step s acts = some s₁ ∧ step s₁ a = some s' := by
  simp only [run, List.foldlM_append, List.foldlM_cons, List.foldlM_nil, bind_pure] at h
  exact Option.bind_eq_some_iff.mp h

theorem run_append {s : σ} {l₁ l₂ : List α} : run step s (l₁ ++ l₂) = (run step s l₁).bind fun s₁ => run step s₁ l₂ := by
  simp [run]

theorem run_cons {s : σ} {a : α} {l : List α} : run step s (a :: l) = (step s a).bind fun s₁ => run step s₁ l := by
  simp [run]

/-- **The invariant rule, with the actions taken so far.** What holds at the start and is kept by each step holds at the end of
every run. -/
theorem run_invariant {s : σ} (I : List α → σ → Prop) (h0 : I [] s)
    (hstep : ∀ acts a s₁ s₂, I acts s₁ → step s₁ a = some s₂ → I (acts ++ [a]) s₂) {acts : List α} {s' : σ}
    (h : run step s acts = some s') : I acts s' := by
  induction acts using List.reverseRecOn generalizing s' with
  | nil =>
    simp only [run, List.foldlM_nil, pure, Option.some.injEq] at h
    exact h ▸ h0
  | append_singleton acts a ih =>
    obtain ⟨s₁, h₁, h₂⟩ := run_concat h
    exact hstep acts a s₁ s' (ih h₁) h₂

/-- Two actions of one run are the same one, or one of them comes first. -/
theorem split_cases {pre post pre' post' : List α} {a b : α} (h : pre ++ a :: post = pre' ++ b :: post') :
    (pre = pre' ∧ a = b ∧ post = post') ∨ (∃ mid, pre' = pre ++ a :: mid ∧ post = mid ++ b :: post') ∨
      (∃ mid, pre = pre' ++ b :: mid ∧ post' = mid ++ a :: post) := by
  obtain ⟨l, hl, hr⟩ | ⟨l, hl, hr⟩ := List.append_eq_append_iff.mp h
  · cases l with
    | nil => exact Or.inl ⟨by simpa using hl.symm, by simpa using hr⟩
    | cons x mid =>
      obtain ⟨rfl, hpost⟩ := List.cons.inj hr
      exact Or.inr (Or.inl ⟨mid, hl, hpost⟩)
  · cases l with
    | nil => exact Or.inl ⟨by simpa using hl, by simpa using (List.cons.inj hr).1.symm, by simpa using (List.cons.inj hr).2.symm⟩
    | cons x mid =>
      obtain ⟨rfl, hpost⟩ := List.cons.inj hr
      exact Or.inr (Or.inr ⟨mid, hl, hpost⟩)

/-! ## Runs whose steps meet a condition -/

variable (step)

/-- Every step of the run meets the condition in the state before it. -/
def Meets (C : σ → α → Prop) : σ → List α → Prop
  | _, [] => True
  | s, a :: acts => C s a ∧ ∀ s', step s a = some s' → Meets C s' acts

variable {step}

theorem meets_append {C : σ → α → Prop} {s : σ} {l₁ l₂ : List α} (h : Meets step C s (l₁ ++ l₂)) :
    Meets step C s l₁ ∧ ∀ s', run step s l₁ = some s' → Meets step C s' l₂ := by
  induction l₁ generalizing s with
  | nil =>
    refine ⟨trivial, fun s' hs' => ?_⟩
    simp only [run, List.foldlM_nil, pure, Option.some.injEq] at hs'
    exact hs' ▸ h
  | cons a l₁ ih =>
    refine ⟨⟨h.1, fun s₁ h₁ => (ih (h.2 s₁ h₁)).1⟩, fun s' hs' => ?_⟩
    rw [run_cons] at hs'
    obtain ⟨s₁, h₁, h₂⟩ := Option.bind_eq_some_iff.mp hs'
    exact (ih (h.2 s₁ h₁)).2 s' h₂

/-- **The invariant rule under a condition.** What holds at the start and is kept by each step that meets the condition holds at
the end of every run whose steps meet it. -/
theorem meets_invariant {C : σ → α → Prop} (I : σ → Prop)
    (hstep : ∀ s a s', I s → C s a → step s a = some s' → I s') {s s' : σ} {acts : List α} (h0 : I s)
    (hmeets : Meets step C s acts) (h : run step s acts = some s') : I s' := by
  induction acts generalizing s with
  | nil =>
    simp only [run, List.foldlM_nil, pure, Option.some.injEq] at h
    exact h ▸ h0
  | cons a acts ih =>
    rw [run_cons] at h
    obtain ⟨s₁, h₁, h₂⟩ := Option.bind_eq_some_iff.mp h
    exact ih (hstep s a s₁ h0 hmeets.1 h₁) (hmeets.2 s₁ h₁) h₂

/-- The invariant rule under a condition, with the actions taken so far. -/
theorem meets_history {C : σ → α → Prop} {s : σ} (I : List α → σ → Prop) (h0 : I [] s)
    (hstep : ∀ acts a s₁ s₂, I acts s₁ → C s₁ a → step s₁ a = some s₂ → I (acts ++ [a]) s₂) {acts : List α} {s' : σ}
    (hmeets : Meets step C s acts) (h : run step s acts = some s') : I acts s' := by
  induction acts using List.reverseRecOn generalizing s' with
  | nil =>
    simp only [run, List.foldlM_nil, pure, Option.some.injEq] at h
    exact h ▸ h0
  | append_singleton acts a ih =>
    obtain ⟨s₁, h₁, h₂⟩ := run_concat h
    obtain ⟨hpre, hpost⟩ := meets_append hmeets
    exact hstep acts a s₁ s' (ih hpre h₁) (hpost s₁ h₁).1 h₂

/-- Along runs that keep an invariant, one condition may stand for another. -/
theorem meets_mono {C D : σ → α → Prop} (I : σ → Prop) (hstep : ∀ s a s', I s → C s a → step s a = some s' → I s')
    (hD : ∀ s a, I s → C s a → D s a) {s : σ} {acts : List α} (h0 : I s) (h : Meets step C s acts) : Meets step D s acts := by
  induction acts generalizing s with
  | nil => trivial
  | cons a acts ih => exact ⟨hD s a h0 h.1, fun s' hs' => ih (hstep s a s' h0 h.1 hs') (h.2 s' hs')⟩

/-- A step inside a run whose steps meet the condition starts from a state where the invariant holds, and meets it. -/
theorem meets_at {C : σ → α → Prop} (I : σ → Prop)
    (hstep : ∀ s a s', I s → C s a → step s a = some s' → I s') {s s₁ : σ} {l₁ l₂ : List α} {a : α} (h0 : I s)
    (hmeets : Meets step C s (l₁ ++ a :: l₂)) (h : run step s l₁ = some s₁) : I s₁ ∧ C s₁ a := by
  obtain ⟨hpre, hpost⟩ := meets_append hmeets
  exact ⟨meets_invariant I hstep h0 hpre h, (hpost s₁ h).1⟩

/-- **The exact rule.** Where a step keeps what holds exactly when it meets the condition, all of a run has it exactly when all its
steps meet the condition. -/
theorem meets_iff_prefixes {C : σ → α → Prop} (I P : σ → Prop)
    (hstep : ∀ s a s', I s → P s → step s a = some s' → I s' ∧ (P s' ↔ C s a)) {s s' : σ} {acts : List α} (h0 : I s) (hP0 : P s)
    (h : run step s acts = some s') :
    (∀ pre s₁, pre <+: acts → run step s pre = some s₁ → P s₁) ↔ Meets step C s acts := by
  constructor
  · intro hall
    induction acts generalizing s with
    | nil => trivial
    | cons a acts ih =>
      rw [run_cons] at h
      obtain ⟨s₁, h₁, h₂⟩ := Option.bind_eq_some_iff.mp h
      have hone (pre : List α) : run step s (a :: pre) = run step s₁ pre := by rw [run_cons, h₁, Option.bind_some]
      have hP₁ := hall [a] s₁ (List.cons_prefix_cons.mpr ⟨rfl, List.nil_prefix⟩) (hone [])
      obtain ⟨hI₁, hiff⟩ := hstep s a s₁ h0 hP0 h₁
      refine ⟨hiff.mp hP₁, fun s₂ hs₂ => ?_⟩
      obtain rfl := Option.some.inj (h₁.symm.trans hs₂)
      refine ih hI₁ hP₁ h₂ fun pre s₂ hpre hrun => ?_
      exact hall (a :: pre) s₂ (List.cons_prefix_cons.mpr ⟨rfl, hpre⟩) ((hone pre).trans hrun)
  · rintro hmeets pre s₁ ⟨post, rfl⟩ hrun
    have hinv := meets_invariant (fun s => I s ∧ P s) ?_ ⟨h0, hP0⟩ (meets_append hmeets).1 hrun
    · exact hinv.2
    · rintro t a t' ⟨hI, hP⟩ hC ht
      obtain ⟨hI', hiff⟩ := hstep t a t' hI hP ht
      exact ⟨hI', hiff.mpr hC⟩

end

/-! ## Runs that never stop -/

/-- The exact rule for steps that refuse nothing: all of a run has what holds exactly when all its steps meet the condition. -/
theorem foldl_iff_prefixes {σ α : Type} {step : σ → α → σ} {C : σ → α → Prop} (I P : σ → Prop)
    (hstep : ∀ s a, I s → P s → I (step s a) ∧ (P (step s a) ↔ C s a)) {s : σ} (h0 : I s) (hP0 : P s) (acts : List α) :
    (∀ pre, pre <+: acts → P (pre.foldl step s)) ↔ ∀ pre a, pre ++ [a] <+: acts → C (pre.foldl step s) a := by
  constructor
  · intro hall pre a hpre
    have hinv : I (pre.foldl step s) := by
      induction pre using List.reverseRecOn generalizing a with
      | nil => exact h0
      | append_singleton pre b ih =>
        have hpre' := (List.prefix_append (pre ++ [b]) [a]).trans hpre
        rw [List.foldl_append, List.foldl_cons, List.foldl_nil]
        exact (hstep _ b (ih b hpre') (hall pre ((List.prefix_append pre [b]).trans hpre'))).1
    have hP := hall (pre ++ [a]) hpre
    rw [List.foldl_append, List.foldl_cons, List.foldl_nil] at hP
    exact (hstep _ a hinv (hall pre ((List.prefix_append pre [a]).trans hpre))).2.mp hP
  · intro hmeets pre hpre
    have hinv : I (pre.foldl step s) ∧ P (pre.foldl step s) := by
      induction pre using List.reverseRecOn with
      | nil => exact ⟨h0, hP0⟩
      | append_singleton pre a ih =>
        obtain ⟨hI, hP⟩ := ih ((List.prefix_append pre [a]).trans hpre)
        rw [List.foldl_append, List.foldl_cons, List.foldl_nil]
        obtain ⟨hI', hiff⟩ := hstep _ a hI hP
        exact ⟨hI', hiff.mpr (hmeets pre a hpre)⟩
    exact hinv.2

end DoubleSlash.Run
