import Mathlib.Data.Nat.Basic
import Mathlib.Order.Lattice
import Mathlib.Tactic.Common

/-!
# Copies with versions

A copy of a map has a version. Two copies are joined key by key: the value of the later version stands, and of two values of one
version the one of higher rank. A join that neither copy holds gets a version past both. Where values of one rank are one value,
the order of the copies does not matter and a join that was taken is taken in again without a change.
-/

namespace DoubleSlash.Versioned

/-- A copy of a map. -/
@[ext] structure Copy (K V : Type) where
  version : Nat
  value : K → Option V

section

variable {K V R : Type} [LinearOrder R] (rank : V → R)

/-- The value that stands, of two of versions `v` and `w`. -/
def joinValue (v w : Nat) : Option V → Option V → Option V
  | none, y => y
  | x, none => x
  | some x, some y => some (if v < w ∨ (v = w ∧ rank x < rank y) then y else x)

variable {rank} {v w : Nat}

theorem isSome_joinValue (x y : Option V) : (joinValue rank v w x y).isSome = (x.isSome || y.isSome) := by
  cases x <;> cases y <;> rfl

/-- The value that stands is one of the two. -/
theorem joinValue_mem (x y : Option V) : joinValue rank v w x y = x ∨ joinValue rank v w x y = y := by
  cases x with
  | none => exact Or.inr rfl
  | some x =>
    cases y with
    | none => exact Or.inl rfl
    | some y =>
      simp only [joinValue]
      split
      · exact Or.inr rfl
      · exact Or.inl rfl

theorem joinValue_self (x : Option V) : joinValue rank v w x x = x := (joinValue_mem x x).elim id id

/-- Values of one rank are one value. -/
def Ranked (rank : V → R) (x y : Option V) : Prop := ∀ a b, x = some a → y = some b → rank a = rank b → a = b

omit [LinearOrder R] in
theorem Ranked.symm {x y : Option V} (h : Ranked rank x y) : Ranked rank y x := fun a b ha hb hrank => (h b a hb ha hrank.symm).symm

theorem joinValue_comm {x y : Option V} (h : Ranked rank x y) : joinValue rank v w x y = joinValue rank w v y x := by
  cases x with
  | none => cases y <;> rfl
  | some x =>
    cases y with
    | none => rfl
    | some y =>
      simp only [joinValue, Option.some.injEq]
      rcases lt_trichotomy v w with hlt | rfl | hgt
      · rw [if_pos (Or.inl hlt), if_neg (by omega)]
      · rcases lt_trichotomy (rank x) (rank y) with hr | hr | hr
        · rw [if_pos (Or.inr ⟨rfl, hr⟩), if_neg (by simpa using hr.le)]
        · rw [h x y rfl rfl hr, ite_self]
        · rw [if_neg (by simpa using hr.le), if_pos (Or.inr ⟨rfl, hr⟩)]
      · rw [if_neg (by omega), if_pos (Or.inl hgt)]

/-- The later value stands, where there is one for each of the others. -/
theorem joinValue_later {x y : Option V} (hvw : v < w) (h : x.isSome → y.isSome) : joinValue rank v w x y = y := by
  cases x with
  | none => rfl
  | some x =>
    cases y with
    | none => exact absurd (h rfl) (by simp)
    | some y => simp [joinValue, hvw]

theorem joinValue_earlier {x y : Option V} (hwv : w < v) (h : y.isSome → x.isSome) : joinValue rank v w x y = x := by
  cases y with
  | none => cases x <;> rfl
  | some y =>
    cases x with
    | none => exact absurd (h rfl) (by simp)
    | some x =>
      simp only [joinValue, Option.some.injEq]
      rw [if_neg (by omega)]

/-- The second value stands where it is the first or wins against it. -/
theorem joinValue_eq_right_iff {x y : Option V} :
    joinValue rank v w x y = y ↔ ∀ a, x = some a → ∃ b, y = some b ∧ (b = a ∨ v < w ∨ (v = w ∧ rank a < rank b)) := by
  cases x with
  | none => cases y <;> simp [joinValue]
  | some a =>
    cases y with
    | none => simp [joinValue]
    | some b =>
      simp only [joinValue, Option.some.injEq, forall_eq', exists_eq_left']
      by_cases hwins : v < w ∨ (v = w ∧ rank a < rank b)
      · simp [hwins]
      · rw [if_neg hwins]
        exact ⟨fun h => Or.inl h.symm, fun h => (h.resolve_right hwins).symm⟩

/-- The first value stands where it is the second or the second does not win. -/
theorem joinValue_eq_left_iff {x y : Option V} :
    joinValue rank v w x y = x ↔ ∀ b, y = some b → ∃ a, x = some a ∧ (a = b ∨ ¬ (v < w ∨ (v = w ∧ rank a < rank b))) := by
  cases y with
  | none => cases x <;> simp [joinValue]
  | some b =>
    cases x with
    | none => simp [joinValue]
    | some a =>
      simp only [joinValue, Option.some.injEq, forall_eq', exists_eq_left']
      by_cases hwins : v < w ∨ (v = w ∧ rank a < rank b)
      · rw [if_pos hwins]
        exact ⟨fun h => Or.inl h.symm, fun h => (h.resolve_right (not_not.mpr hwins)).symm⟩
      · simp [hwins]

/-! ## Joining copies -/

variable (rank)

/-- The values of a join. -/
def joined (a b : Copy K V) (k : K) : Option V := joinValue rank a.version b.version (a.value k) (b.value k)

/-- The second copy holds the join. -/
def HeldBySecond (a b : Copy K V) : Prop := b.value = joined rank a b ∧ a.version ≤ b.version

/-- The first copy holds the join. -/
def HeldByFirst (a b : Copy K V) : Prop := a.value = joined rank a b ∧ b.version ≤ a.version

open Classical in
/-- The join of two copies. -/
noncomputable def join (a b : Copy K V) : Copy K V :=
  if HeldBySecond rank a b then b
  else if HeldByFirst rank a b then a
  else { version := max a.version b.version + 1, value := joined rank a b }

/-- Where two copies have a key in common, values of one rank are one value. -/
def RankedCopies (a b : Copy K V) : Prop := ∀ k, Ranked rank (a.value k) (b.value k)

variable {rank} {a b : Copy K V}

omit [LinearOrder R] in
theorem RankedCopies.symm (h : RankedCopies rank a b) : RankedCopies rank b a := fun k => (h k).symm

theorem joined_comm (h : RankedCopies rank a b) : joined rank a b = joined rank b a := funext fun k => joinValue_comm (h k)

/-- The values of a join are those of `joined`, whoever holds it. -/
theorem value_join (a b : Copy K V) : (join rank a b).value = joined rank a b := by
  unfold join
  split
  · rename_i h
    exact h.1
  · split
    · rename_i h
      exact h.1
    · rfl

theorem version_le_join (rank : V → R) (a b : Copy K V) : a.version ≤ (join rank a b).version ∧ b.version ≤ (join rank a b).version := by
  unfold join
  split
  · rename_i h
    exact ⟨h.2, le_rfl⟩
  · split
    · rename_i h
      exact ⟨le_rfl, h.2⟩
    · exact ⟨(le_max_left _ _).trans (Nat.le_succ _), (le_max_right _ _).trans (Nat.le_succ _)⟩

theorem join_of_heldBySecond (h : HeldBySecond rank a b) : join rank a b = b := if_pos h

theorem join_of_heldByFirst (h : HeldByFirst rank a b) : join rank a b = a := by
  by_cases h₁ : HeldBySecond rank a b
  · rw [join_of_heldBySecond h₁]
    exact Copy.ext (le_antisymm h.2 h₁.2) (h₁.1.trans h.1.symm)
  · unfold join
    rw [if_neg h₁, if_pos h]

theorem join_of_not (h₁ : ¬ HeldBySecond rank a b) (h₂ : ¬ HeldByFirst rank a b) :
    join rank a b = { version := max a.version b.version + 1, value := joined rank a b } := by
  unfold join
  rw [if_neg h₁, if_neg h₂]

/-- The second copy holds the join when the join is that copy. -/
theorem heldBySecond_of_join_eq (h : join rank a b = b) : HeldBySecond rank a b :=
  ⟨by rw [← value_join, h], (version_le_join rank a b).1.trans (congrArg Copy.version h).le⟩

theorem heldByFirst_of_join_eq (h : join rank a b = a) : HeldByFirst rank a b :=
  ⟨by rw [← value_join, h], (version_le_join rank a b).2.trans (congrArg Copy.version h).le⟩

/-- **The order of the copies does not matter.** -/
theorem join_comm (h : RankedCopies rank a b) : join rank a b = join rank b a := by
  have hjoined := joined_comm h
  have hsecond : HeldBySecond rank b a ↔ HeldByFirst rank a b := by
    unfold HeldBySecond HeldByFirst
    rw [hjoined]
  have hfirst : HeldByFirst rank b a ↔ HeldBySecond rank a b := by
    unfold HeldBySecond HeldByFirst
    rw [hjoined]
  by_cases h₁ : HeldBySecond rank a b
  · rw [join_of_heldBySecond h₁, join_of_heldByFirst (hfirst.mpr h₁)]
  · by_cases h₂ : HeldByFirst rank a b
    · rw [join_of_heldByFirst h₂, join_of_heldBySecond (hsecond.mpr h₂)]
    · rw [join_of_not h₁ h₂, join_of_not (fun h => h₂ (hsecond.mp h)) (fun h => h₁ (hfirst.mp h)), hjoined, max_comm]

theorem join_self (a : Copy K V) : join rank a a = a := if_pos ⟨funext fun k => (joinValue_self (a.value k)).symm, le_rfl⟩

/-- **A join is taken in as it is.** -/
theorem join_join_right (a b : Copy K V) : join rank a (join rank a b) = join rank a b := by
  by_cases h₁ : HeldBySecond rank a b
  · rw [join_of_heldBySecond h₁, join_of_heldBySecond h₁]
  · by_cases h₂ : HeldByFirst rank a b
    · rw [join_of_heldByFirst h₂, join_self]
    · rw [join_of_not h₁ h₂]
      have hlt : a.version < max a.version b.version + 1 := Nat.lt_succ_of_le (le_max_left _ _)
      refine join_of_heldBySecond ⟨funext fun k => (joinValue_later hlt ?_).symm, hlt.le⟩
      intro hk
      show (joinValue rank a.version b.version (a.value k) (b.value k)).isSome
      rw [isSome_joinValue, hk]
      rfl

theorem join_join_left (h : RankedCopies rank a b) : join rank b (join rank a b) = join rank a b := by
  rw [join_comm h, join_join_right]

theorem ranked_join (h : RankedCopies rank a b) : RankedCopies rank (join rank a b) b := by
  intro k x y hx hy hrank
  rw [value_join] at hx
  have hone : joined rank a b k = a.value k ∨ joined rank a b k = b.value k := joinValue_mem (a.value k) (b.value k)
  rcases hone with hk | hk
  · exact h k x y (hk.symm.trans hx) hy hrank
  · have hsame : some x = some y := hx.symm.trans (hk.trans hy)
    exact Option.some.inj hsame

/-- **What a join was made of changes nothing any more.** -/
theorem join_absorbs (h : RankedCopies rank a b) : join rank (join rank a b) b = join rank a b := by
  rw [join_comm (ranked_join h), join_join_left h]

/-- A join whose version is one of the two was held by that copy. -/
theorem join_version_lt_iff (a b : Copy K V) :
    (a.value ≠ joined rank a b → a.version < (join rank a b).version) ∧ (b.value ≠ joined rank a b → b.version < (join rank a b).version) ↔
      ¬ (a.version = b.version ∧ a.value ≠ b.value ∧ (a.value = joined rank a b ∨ b.value = joined rank a b)) := by
  constructor
  · rintro ⟨ha, hb⟩ ⟨hversion, hvalue, hheld | hheld⟩
    · have hb' := hb fun heq => hvalue (hheld.trans heq.symm)
      rw [join_of_heldByFirst ⟨hheld, hversion.ge⟩, hversion] at hb'
      exact lt_irrefl _ hb'
    · have ha' := ha fun heq => hvalue (heq.trans hheld.symm)
      rw [join_of_heldBySecond ⟨hheld, hversion.le⟩, hversion] at ha'
      exact lt_irrefl _ ha'
  · intro hnot
    by_cases h₁ : HeldBySecond rank a b
    · rw [join_of_heldBySecond h₁]
      refine ⟨fun ha => ?_, fun hb => absurd h₁.1 hb⟩
      exact lt_of_le_of_ne h₁.2 fun hversion => hnot ⟨hversion, fun heq => ha (heq.trans h₁.1), Or.inr h₁.1⟩
    · by_cases h₂ : HeldByFirst rank a b
      · rw [join_of_heldByFirst h₂]
        refine ⟨fun ha => absurd h₂.1 ha, fun hb => ?_⟩
        exact lt_of_le_of_ne h₂.2 fun hversion => hnot ⟨hversion.symm, fun heq => hb (heq ▸ h₂.1), Or.inl h₂.1⟩
      · rw [join_of_not h₁ h₂]
        exact ⟨fun _ => Nat.lt_succ_of_le (le_max_left _ _), fun _ => Nat.lt_succ_of_le (le_max_right _ _)⟩

end

end DoubleSlash.Versioned
