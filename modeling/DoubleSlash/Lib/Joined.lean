import Mathlib.Data.List.Induction
import Mathlib.Tactic.Common

/-!
# Fields joined by a separator

A first field and more of them, each after a separator. The fields can be told from what is joined where none has the separator in it
(`joined_inj`); a first field that may have it can stand for all (`joined_nil`).
-/

namespace DoubleSlash.Joined

variable {α : Type} (sep : α)

/-- A first field, and the others after separators. -/
def joined (first : List α) (more : List (List α)) : List α := first ++ more.flatMap fun field => sep :: field

theorem joined_nil (first : List α) : joined sep first [] = first := List.append_nil first

theorem joined_cons (first field : List α) (more : List (List α)) :
    joined sep first (field :: more) = first ++ sep :: joined sep field more := by
  simp [joined]

variable {sep}

/-- The first of two fields that have no separator is told from what follows. -/
theorem append_sep_inj {a b x y : List α} (ha : sep ∉ a) (hb : sep ∉ b) (h : a ++ sep :: x = b ++ sep :: y) : a = b ∧ x = y := by
  induction a generalizing b with
  | nil =>
    cases b with
    | nil => exact ⟨rfl, (List.cons.inj h).2⟩
    | cons c b => exact absurd ((List.cons.inj h).1 ▸ List.mem_cons_self) hb
  | cons c a ih =>
    cases b with
    | nil => exact absurd ((List.cons.inj h).1 ▸ List.mem_cons_self) ha
    | cons d b =>
      obtain ⟨rfl, htail⟩ := List.cons.inj h
      obtain ⟨rfl, rfl⟩ := ih (fun hmem => ha (List.mem_cons_of_mem c hmem)) (fun hmem => hb (List.mem_cons_of_mem c hmem)) htail
      exact ⟨rfl, rfl⟩

/-- **Fields without the separator are told from what is joined.** -/
theorem joined_inj {first first' : List α} {more more' : List (List α)} (hfirst : sep ∉ first) (hfirst' : sep ∉ first')
    (hmore : ∀ field ∈ more, sep ∉ field) (hmore' : ∀ field ∈ more', sep ∉ field) (h : joined sep first more = joined sep first' more') :
    first = first' ∧ more = more' := by
  induction more generalizing first first' more' with
  | nil =>
    rw [joined_nil] at h
    cases more' with
    | nil => exact ⟨h.trans (joined_nil sep first'), rfl⟩
    | cons field more' =>
      rw [joined_cons] at h
      exact absurd (h ▸ List.mem_append_right first' List.mem_cons_self) hfirst
  | cons field more ih =>
    rw [joined_cons] at h
    cases more' with
    | nil =>
      rw [joined_nil] at h
      exact absurd (h ▸ List.mem_append_right first List.mem_cons_self) hfirst'
    | cons field' more' =>
      rw [joined_cons] at h
      obtain ⟨rfl, hrest⟩ := append_sep_inj hfirst hfirst' h
      obtain ⟨rfl, rfl⟩ := ih (hmore field List.mem_cons_self) (hmore' field' List.mem_cons_self)
        (fun f hf => hmore f (List.mem_cons_of_mem _ hf)) (fun f hf => hmore' f (List.mem_cons_of_mem _ hf)) hrest
      exact ⟨rfl, rfl⟩

/-- What is joined ends as the last field does. -/
theorem getLast?_joined {first : List α} {more : List (List α)} {field : List α} {x : α} (hfield : field.getLast? = some x) :
    (joined sep first (more ++ [field])).getLast? = some x := by
  have hsplit : joined sep first (more ++ [field]) = joined sep first more ++ [sep] ++ field := by simp [joined]
  rw [hsplit, List.getLast?_append, hfield]
  rfl

/-- With an empty last field it ends with the separator. -/
theorem getLast?_joined_nil (first : List α) (more : List (List α)) : (joined sep first (more ++ [[]])).getLast? = some sep := by
  have hsplit : joined sep first (more ++ [[]]) = joined sep first more ++ [sep] := by simp [joined]
  rw [hsplit, List.getLast?_append]
  rfl

/-- What has the separator in it is more than one field. -/
theorem exists_joined {text : List α} (h : sep ∈ text) : ∃ first field, text = joined sep first [field] := by
  obtain ⟨first, field, rfl⟩ := List.append_of_mem h
  exact ⟨first, field, by rw [joined_cons, joined_nil]⟩

end DoubleSlash.Joined
