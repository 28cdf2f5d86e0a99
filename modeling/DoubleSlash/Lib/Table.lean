import Mathlib.Data.List.Forall2
import Mathlib.Data.List.Nodup

/-!
# Tables in the order of their row ids

A table lists its rows by row id, and each row has a key of its own. A new row comes last, an update leaves the rows where they are,
and a row that is replaced comes last again. A log of what was written, each key at its last arrival, is in the order of the table.
-/

namespace DoubleSlash

/-- Rows with pairwise different keys, in the order of the row ids. -/
structure Table {K ρ : Type} (key : ρ → K) where
  rows : List ρ
  unique : (rows.map key).Nodup

namespace Table

variable {K ρ μ : Type} {key : ρ → K}

def empty : Table key := ⟨[], List.nodup_nil⟩

/-- `DELETE`. -/
def deleteWhere (t : Table key) (p : ρ → Bool) : Table key :=
  ⟨t.rows.filter fun r => !p r, t.unique.sublist (List.filter_sublist.map key)⟩

/-- `UPDATE`, which leaves the keys as they are. -/
def update (t : Table key) (f : ρ → ρ) (hf : ∀ r, key (f r) = key r) : Table key :=
  ⟨t.rows.map f, by
    have hkeys : (t.rows.map f).map key = t.rows.map key := by simp [Function.comp_def, hf]
    exact hkeys.symm ▸ t.unique⟩

/-- `UPDATE` with a condition. -/
def updateWhere (t : Table key) (p : ρ → Bool) (f : ρ → ρ) (hf : ∀ r, key (f r) = key r) : Table key :=
  t.update (fun r => if p r then f r else r) fun r => by
    split
    · exact hf r
    · rfl

/-- The keys of the rows. -/
def keys (t : Table key) : List K := t.rows.map key

@[simp] theorem rows_empty : (empty : Table key).rows = [] := rfl

@[simp] theorem rows_deleteWhere (t : Table key) (p : ρ → Bool) : (t.deleteWhere p).rows = t.rows.filter fun r => !p r := rfl

@[simp] theorem rows_update (t : Table key) (f : ρ → ρ) (hf : ∀ r, key (f r) = key r) : (t.update f hf).rows = t.rows.map f := rfl

@[simp] theorem rows_updateWhere (t : Table key) (p : ρ → Bool) (f : ρ → ρ) (hf : ∀ r, key (f r) = key r) :
    (t.updateWhere p f hf).rows = t.rows.map fun r => if p r then f r else r := rfl

/-- What is deleted is counted. -/
theorem length_deleteWhere (t : Table key) (p : ρ → Bool) : (t.deleteWhere p).rows.length + t.rows.countP p = t.rows.length := by
  rw [rows_deleteWhere, List.countP_eq_length_filter, Nat.add_comm]
  exact (List.length_eq_length_filter_add p).symm

theorem keys_update (t : Table key) (f : ρ → ρ) (hf : ∀ r, key (f r) = key r) : (t.update f hf).keys = t.keys := by
  simp [keys, Function.comp_def, hf]

/-- Rows with one key are one row. -/
theorem eq_of_key {t : Table key} {r r' : ρ} (hr : r ∈ t.rows) (hr' : r' ∈ t.rows) (heq : key r = key r') : r = r' :=
  List.inj_on_of_nodup_map t.unique hr hr' heq

variable [DecidableEq K]

/-- The row with the key. -/
def get (t : Table key) (k : K) : Option ρ := t.rows.find? fun r => decide (key r = k)

/-- `INSERT OR IGNORE`, and whether the row was written. -/
def insertNew (t : Table key) (r : ρ) : Table key × Bool :=
  if h : key r ∈ t.rows.map key then (t, false)
  else (⟨t.rows ++ [r], by
    rw [List.map_append, List.nodup_append]
    refine ⟨t.unique, List.nodup_singleton _, ?_⟩
    rintro k hk k' hk' rfl
    exact h (List.mem_singleton.mp hk' ▸ hk)⟩, true)

/-- `INSERT OR REPLACE`: the row with the key goes, and the new row comes last. -/
def replace (t : Table key) (r : ρ) : Table key := ((t.deleteWhere fun x => decide (key x = key r)).insertNew r).1

theorem insertNew_of_mem {t : Table key} {r : ρ} (h : key r ∈ t.keys) : t.insertNew r = (t, false) := dif_pos h

theorem rows_insertNew {t : Table key} {r : ρ} (h : key r ∉ t.keys) : (t.insertNew r).1.rows = t.rows ++ [r] := by
  have hnew : key r ∉ t.rows.map key := h
  rw [insertNew, dif_neg hnew]

theorem notMem_deleteWhere (t : Table key) (k : K) : k ∉ (t.deleteWhere fun x => decide (key x = k)).keys := by
  intro h
  obtain ⟨r, hr, heq⟩ := List.mem_map.mp h
  simp [heq] at hr

/-! ## Logs -/

section

variable {mkey : μ → K}

/-- A log with what was written last, each key once. -/
def arrive (mkey : μ → K) (log : List μ) (m : μ) : List μ := (log.filter fun x => decide (mkey x ≠ mkey m)) ++ [m]

/-- The rows are those that were written and are there, in the order in which they arrived. -/
def Follows (R : μ → ρ → Prop) (mkey : μ → K) (t : Table key) (log : List μ) : Prop :=
  (log.map mkey).Nodup ∧ List.Forall₂ (fun m r => mkey m = key r ∧ R m r) (log.filter fun m => decide (mkey m ∈ t.keys)) t.rows

variable {R : μ → ρ → Prop} {t : Table key} {log : List μ}

theorem follows_empty : Follows R mkey (empty : Table key) [] := ⟨List.nodup_nil, .nil⟩

/-- Two lists that correspond do so after tests that agree. -/
theorem forall₂_filter {S : μ → ρ → Prop} {l : List μ} {rows : List ρ} (h : List.Forall₂ S l rows) {p : μ → Bool} {q : ρ → Bool}
    (hpq : ∀ m r, r ∈ rows → S m r → p m = q r) : List.Forall₂ S (l.filter p) (rows.filter q) := by
  induction h with
  | nil => exact .nil
  | @cons m r l rows hmr _ ih =>
    have htest := hpq m r List.mem_cons_self hmr
    have hrest := ih fun m' r' hr' => hpq m' r' (List.mem_cons_of_mem r hr')
    cases hq : q r with
    | true =>
      rw [List.filter_cons_of_pos (htest.trans hq), List.filter_cons_of_pos hq]
      exact .cons hmr hrest
    | false =>
      rw [List.filter_cons_of_neg (by simp [htest, hq]), List.filter_cons_of_neg (by simp [hq])]
      exact hrest

/-- What stands on the right corresponds to something on the left. -/
theorem exists_of_forall₂ {S : μ → ρ → Prop} {l : List μ} {rows : List ρ} (h : List.Forall₂ S l rows) {r : ρ} (hr : r ∈ rows) :
    ∃ m ∈ l, S m r := by
  induction h with
  | nil => cases hr
  | @cons m r' l rows hmr _ ih =>
    rcases List.mem_cons.mp hr with rfl | hr
    · exact ⟨m, List.mem_cons_self, hmr⟩
    · obtain ⟨m', hm', hmr'⟩ := ih hr
      exact ⟨m', List.mem_cons_of_mem m hm', hmr'⟩

theorem nodup_arrive (h : (log.map mkey).Nodup) (m : μ) : ((arrive mkey log m).map mkey).Nodup := by
  unfold arrive
  rw [List.map_append, List.nodup_append]
  refine ⟨h.sublist (List.filter_sublist.map mkey), List.nodup_singleton _, ?_⟩
  rintro k hk k' hk' rfl
  obtain ⟨x, hx, rfl⟩ := List.mem_map.mp hk
  simp only [List.map_cons, List.map_nil, List.mem_singleton] at hk'
  simp [hk'] at hx

/-- What is deleted is out of the log's sight, and the rest keeps its order. -/
theorem Follows.deleteWhere (h : Follows R mkey t log) (p : ρ → Bool) : Follows R mkey (t.deleteWhere p) log := by
  refine ⟨h.1, ?_⟩
  have hseen : (log.filter fun m => decide (mkey m ∈ (t.deleteWhere p).keys)) =
      (log.filter fun m => decide (mkey m ∈ t.keys)).filter fun m => decide (mkey m ∈ (t.deleteWhere p).keys) := by
    rw [List.filter_filter]
    refine List.filter_congr fun m _ => ?_
    have hsub : mkey m ∈ (t.deleteWhere p).keys → mkey m ∈ t.keys :=
      fun hm => (List.filter_sublist.map key).subset hm
    by_cases hm : mkey m ∈ (t.deleteWhere p).keys
    · simp [hm, hsub hm]
    · simp [hm]
  rw [hseen, rows_deleteWhere]
  refine forall₂_filter h.2 fun m r hr hmr => ?_
  rw [hmr.1, Bool.eq_iff_iff, decide_eq_true_eq]
  constructor
  · intro hkey
    obtain ⟨r', hr', heq⟩ := List.mem_map.mp hkey
    obtain ⟨hin, htest⟩ := List.mem_filter.mp hr'
    exact eq_of_key hin hr heq ▸ htest
  · intro htest
    exact List.mem_map_of_mem (List.mem_filter.mpr ⟨hr, htest⟩)

/-- An update changes no place. -/
theorem Follows.update (h : Follows R mkey t log) {f : ρ → ρ} (hf : ∀ r, key (f r) = key r)
    (hkeep : ∀ m r, r ∈ t.rows → R m r → R m (f r)) : Follows R mkey (t.update f hf) log := by
  refine ⟨h.1, ?_⟩
  rw [keys_update, rows_update, List.forall₂_map_right_iff]
  refine (List.forall₂_iff_get.mpr ⟨h.2.length_eq, fun i hi hi' => ?_⟩)
  obtain ⟨hkey, hr⟩ := h.2.get hi hi'
  exact ⟨hkey.trans (hf _).symm, hkeep _ _ (List.get_mem ..) hr⟩

theorem Follows.updateWhere (h : Follows R mkey t log) {p : ρ → Bool} {f : ρ → ρ} (hf : ∀ r, key (f r) = key r)
    (hkeep : ∀ m r, p r = true → R m r → R m (f r)) : Follows R mkey (t.updateWhere p f hf) log := by
  refine h.update _ fun m r _ hr => ?_
  split
  · exact hkeep m r ‹_› hr
  · exact hr

/-- A new row comes last in both. -/
theorem Follows.insertNew (h : Follows R mkey t log) {m : μ} {r : ρ} (hkey : mkey m = key r) (hnew : key r ∉ t.keys) (hr : R m r) :
    Follows R mkey (t.insertNew r).1 (arrive mkey log m) := by
  refine ⟨nodup_arrive h.1 m, ?_⟩
  have hkeys (k : K) : k ∈ (t.insertNew r).1.keys ↔ k ∈ t.keys ∨ k = key r := by
    simp [keys, rows_insertNew hnew]
  rw [rows_insertNew hnew, arrive, List.filter_append, List.filter_filter]
  refine List.rel_append ?_ ?_
  · have hseen : (log.filter fun x => decide (mkey x ∈ (t.insertNew r).1.keys) && decide (mkey x ≠ mkey m)) =
        log.filter fun x => decide (mkey x ∈ t.keys) := by
      refine List.filter_congr fun x _ => ?_
      rw [Bool.eq_iff_iff]
      simp only [Bool.and_eq_true, decide_eq_true_eq, hkeys, hkey]
      constructor
      · intro hx
        exact hx.1.resolve_right hx.2
      · intro hx
        refine ⟨Or.inl hx, ?_⟩
        intro heq
        exact hnew (heq ▸ hx)
    rw [hseen]
    exact h.2
  · have hlast : mkey m ∈ (t.insertNew r).1.keys := (hkeys _).mpr (Or.inr hkey)
    rw [List.filter_singleton, decide_eq_true hlast]
    exact .cons ⟨hkey, hr⟩ .nil

/-- A row is written exactly where its key is free. -/
theorem Follows.insertNew_eq (h : Follows R mkey t log) {m : μ} {r : ρ} (hkey : mkey m = key r) (hr : R m r) {t' : Table key}
    {fresh : Bool} (hins : t.insertNew r = (t', fresh)) : Follows R mkey t' (if fresh then arrive mkey log m else log) := by
  by_cases htaken : key r ∈ t.keys
  · rw [insertNew_of_mem htaken] at hins
    obtain ⟨rfl, rfl⟩ := Prod.mk.inj hins
    exact h
  · have hfresh : (t.insertNew r).2 = true := by
      have hnew : key r ∉ t.rows.map key := htaken
      rw [Table.insertNew, dif_neg hnew]
    rw [hins] at hfresh
    have hnext := h.insertNew hkey htaken hr
    rw [hins] at hnext
    rw [if_pos hfresh]
    exact hnext

/-- A row that is replaced comes last in both. -/
theorem Follows.replace (h : Follows R mkey t log) {m : μ} {r : ρ} (hkey : mkey m = key r) (hr : R m r) :
    Follows R mkey (t.replace r) (arrive mkey log m) :=
  (h.deleteWhere _).insertNew hkey (notMem_deleteWhere t (key r)) hr

end

/-! ## Pages -/

/-- `ORDER BY rowid DESC LIMIT size OFFSET page * size`, put back in the order of the rows. -/
def page (rows : List ρ) (size n : Nat) : List ρ := ((rows.reverse.drop (n * size)).take size).reverse

/-- **Pages put together.** The first `n` pages, the last of them first, are the newest rows. -/
theorem flatten_pages (rows : List ρ) (size n : Nat) :
    ((List.range n).map (page rows size)).reverse.flatten = (rows.reverse.take (n * size)).reverse := by
  induction n with
  | zero => simp
  | succ n ih =>
    rw [List.range_succ, List.map_append, List.reverse_append, List.flatten_append, ih, Nat.succ_mul, List.take_add,
      List.reverse_append]
    simp [page]

end Table

end DoubleSlash
