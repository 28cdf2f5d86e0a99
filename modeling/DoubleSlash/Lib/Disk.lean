import DoubleSlash.Lib.Assoc

/-!
# Files on a disk

A directory of names over file contents. An open file is its number, so that a write through a handle and a change of names do
not disturb each other. Names are of any type.
-/

namespace DoubleSlash.Fs

open Assoc

/-- `seek` and `write_all`: the content with `bytes` at `off`, zeros in a gap before it. -/
def splice (content : List UInt8) (off : Nat) (bytes : List UInt8) : List UInt8 :=
  content.take off ++ List.replicate (off - content.length) 0 ++ bytes ++ content.drop (off + bytes.length)

/-- `set_len`: cut, or filled up with zeros. -/
def resize (content : List UInt8) (n : Nat) : List UInt8 :=
  content.take n ++ List.replicate (n - content.length) 0

theorem length_resize (content : List UInt8) (n : Nat) : (resize content n).length = n := by
  simp only [resize, List.length_append, List.length_take, List.length_replicate]
  omega

theorem getElem?_resize (content : List UInt8) (n i : Nat) :
    (resize content n)[i]? = if i < n then some (content.getD i 0) else none := by
  unfold resize
  by_cases hn : i < n
  · by_cases hc : i < content.length
    · rw [List.getElem?_append_left (by simp; omega), List.getElem?_take_of_lt hn]
      simp [hn, List.getD_eq_getElem?_getD, List.getElem?_eq_getElem hc]
    · rw [List.getElem?_append_right (by simp; omega), List.getElem?_replicate_of_lt (by simp; omega)]
      simp [hn, List.getD_eq_getElem?_getD, List.getElem?_eq_none (Nat.le_of_not_lt hc)]
  · rw [if_neg hn]
    exact List.getElem?_eq_none (by rw [← resize, length_resize]; omega)

/-- What a written file holds, byte by byte; past its end it is read as zeros. -/
theorem getD_splice (content : List UInt8) (off : Nat) (bytes : List UInt8) (i : Nat) :
    (splice content off bytes).getD i 0 =
      if off ≤ i ∧ i < off + bytes.length then bytes.getD (i - off) 0 else content.getD i 0 := by
  have hpre : (content.take off ++ List.replicate (off - content.length) (0 : UInt8)).length = off := by
    simp only [List.length_append, List.length_take, List.length_replicate]
    omega
  unfold splice
  simp only [List.getD_eq_getElem?_getD]
  by_cases hlo : i < off
  · rw [if_neg (by omega), List.append_assoc _ bytes, List.getElem?_append_left (by omega)]
    by_cases hc : i < content.length
    · rw [List.getElem?_append_left (by simp; omega), List.getElem?_take_of_lt hlo]
    · rw [List.getElem?_append_right (by simp; omega), List.getElem?_replicate_of_lt (by simp; omega),
        List.getElem?_eq_none (Nat.le_of_not_lt hc)]
      rfl
  · by_cases hhi : i < off + bytes.length
    · rw [if_pos ⟨by omega, hhi⟩, List.getElem?_append_left (by rw [List.length_append, hpre]; omega),
        List.getElem?_append_right (by omega), hpre]
    · rw [if_neg (by omega), List.getElem?_append_right (by rw [List.length_append, hpre]; omega), List.length_append, hpre,
        List.getElem?_drop]
      congr 2
      omega

/-- Names, each of one file, and the contents of files by number. -/
structure Disk (P : Type) [DecidableEq P] where
  names : HashMap P Nat
  data : Nat → List UInt8
  next : Nat
  /-- Numbers from `next` on are free. -/
  fresh : ∀ {p i}, names.lookup p = some i → i < next
  /-- A file has one name. -/
  single : ∀ {p q i}, names.lookup p = some i → names.lookup q = some i → p = q

section

variable {P : Type} [DecidableEq P]

/-- The content of the file of that name. -/
def Disk.read (d : Disk P) (p : P) : Option (List UInt8) :=
  (d.names.lookup p).map d.data

/-- `path.exists()`. -/
def Disk.exists (d : Disk P) (p : P) : Bool :=
  (d.names.lookup p).isSome

/-- A disk without files. -/
def Disk.empty : Disk P where
  names := ∅
  data := fun _ => []
  next := 0
  fresh := by simp
  single := by simp

/-- Give the file another content. -/
def Disk.store (d : Disk P) (i : Nat) (content : List UInt8) : Disk P :=
  { d with data := Function.update d.data i content }

/-- `OpenOptions::new().create(true).truncate(true).open(p)`: the disk and the open file. -/
def Disk.openTruncate (d : Disk P) (p : P) : Disk P × Nat :=
  match h : d.names.lookup p with
  | some i => (d.store i [], i)
  | none =>
    ({ names := d.names.insert p d.next
       data := Function.update d.data d.next []
       next := d.next + 1
       fresh := by
         intro q i hq
         by_cases hqp : q = p
         · subst hqp
           simp only [AList.lookup_insert, Option.some.injEq] at hq
           omega
         · rw [AList.lookup_insert_ne hqp] at hq
           exact Nat.lt_succ_of_lt (d.fresh hq)
       single := by
         intro q r i hq hr
         by_cases hqp : q = p
         · by_cases hrp : r = p
           · rw [hqp, hrp]
           · subst hqp
             simp only [AList.lookup_insert, Option.some.injEq] at hq
             rw [AList.lookup_insert_ne hrp] at hr
             exact absurd (d.fresh hr) (by omega)
         · rw [AList.lookup_insert_ne hqp] at hq
           by_cases hrp : r = p
           · subst hrp
             simp only [AList.lookup_insert, Option.some.injEq] at hr
             exact absurd (d.fresh hq) (by omega)
           · rw [AList.lookup_insert_ne hrp] at hr
             exact d.single hq hr }, d.next)

/-- `remove_file`. -/
def Disk.remove (d : Disk P) (p : P) : Disk P where
  names := d.names.erase p
  data := d.data
  next := d.next
  fresh := by
    intro q i hq
    by_cases hqp : q = p
    · subst hqp
      simp at hq
    · rw [AList.lookup_erase_ne hqp] at hq
      exact d.fresh hq
  single := by
    intro q r i hq hr
    by_cases hqp : q = p
    · subst hqp
      simp at hq
    · by_cases hrp : r = p
      · subst hrp
        simp at hr
      · rw [AList.lookup_erase_ne hqp] at hq
        rw [AList.lookup_erase_ne hrp] at hr
        exact d.single hq hr

theorem Disk.lookup_remove (d : Disk P) (p q : P) :
    (d.remove p).names.lookup q = if q = p then none else d.names.lookup q := by
  by_cases h : q = p
  · subst h
    simp [Disk.remove]
  · simp [Disk.remove, h, AList.lookup_erase_ne h]

/-- `rename(p, q)`: a file already called `q` is replaced. -/
def Disk.rename (d : Disk P) (p q : P) : Disk P :=
  match h : d.names.lookup p with
  | none => d
  | some i =>
    { names := (d.remove p).names.insert q i
      data := d.data
      next := d.next
      fresh := by
        intro r j hr
        by_cases hrq : r = q
        · subst hrq
          simp only [AList.lookup_insert, Option.some.injEq] at hr
          exact hr ▸ d.fresh h
        · rw [AList.lookup_insert_ne hrq] at hr
          exact (d.remove p).fresh hr
      single := by
        have hgone : ∀ r, (d.remove p).names.lookup r ≠ some i := by
          intro r hr
          rw [d.lookup_remove] at hr
          split at hr
          · cases hr
          · rename_i hne
            exact hne (d.single hr h)
        intro r s j hr hs
        by_cases hrq : r = q
        · by_cases hsq : s = q
          · rw [hrq, hsq]
          · subst hrq
            simp only [AList.lookup_insert, Option.some.injEq] at hr
            rw [AList.lookup_insert_ne hsq, ← hr] at hs
            exact absurd hs (hgone s)
        · rw [AList.lookup_insert_ne hrq] at hr
          by_cases hsq : s = q
          · subst hsq
            simp only [AList.lookup_insert, Option.some.injEq] at hs
            rw [← hs] at hr
            exact absurd hr (hgone r)
          · rw [AList.lookup_insert_ne hsq] at hs
            exact (d.remove p).single hr hs }

/-! ## What the operations leave -/

theorem Disk.read_eq_of_lookup {d d' : Disk P} {q : P} (hnames : d'.names.lookup q = d.names.lookup q)
    (hdata : ∀ i, d.names.lookup q = some i → d'.data i = d.data i) : d'.read q = d.read q := by
  unfold Disk.read
  rw [hnames]
  cases h : d.names.lookup q with
  | none => rfl
  | some i => simp [hdata i h]

@[simp] theorem Disk.lookup_store (d : Disk P) (i : Nat) (content : List UInt8) (q : P) :
    (d.store i content).names.lookup q = d.names.lookup q := rfl

theorem Disk.data_store (d : Disk P) (i j : Nat) (content : List UInt8) :
    (d.store i content).data j = if j = i then content else d.data j := by
  simp [Disk.store, Function.update_apply]

/-- Opening a file leaves its name, empty. -/
theorem Disk.read_openTruncate_self (d : Disk P) (p : P) :
    (d.openTruncate p).1.names.lookup p = some (d.openTruncate p).2 ∧
      (d.openTruncate p).1.data (d.openTruncate p).2 = [] := by
  unfold Disk.openTruncate
  split
  · rename_i i hi
    exact ⟨hi, by simp [Disk.data_store]⟩
  · exact ⟨by simp, by simp⟩

/-- Opening a file leaves every other name and its content alone. -/
theorem Disk.lookup_openTruncate_ne {d : Disk P} {p q : P} (h : q ≠ p) :
    (d.openTruncate p).1.names.lookup q = d.names.lookup q ∧
      ∀ i, d.names.lookup q = some i → (d.openTruncate p).1.data i = d.data i := by
  unfold Disk.openTruncate
  split
  · rename_i j hj
    refine ⟨rfl, fun i hi => ?_⟩
    rw [Disk.data_store, if_neg]
    rintro rfl
    exact h (d.single hi hj)
  · refine ⟨by simp [AList.lookup_insert_ne h], fun i hi => ?_⟩
    have := d.fresh hi
    simp only [Function.update_apply]
    rw [if_neg (by omega)]

/-- The open file is the one of that name, or a new one. -/
theorem Disk.openTruncate_file (d : Disk P) (p : P) :
    d.next ≤ (d.openTruncate p).1.next ∧ (d.names.lookup p = some (d.openTruncate p).2 ∨ (d.openTruncate p).2 = d.next) := by
  unfold Disk.openTruncate
  split
  · rename_i i hi
    exact ⟨le_rfl, Or.inl hi⟩
  · exact ⟨Nat.le_succ _, Or.inr rfl⟩

theorem Disk.data_remove (d : Disk P) (p : P) (i : Nat) : (d.remove p).data i = d.data i := rfl

@[simp] theorem Disk.data_rename (d : Disk P) (p q : P) (i : Nat) : (d.rename p q).data i = d.data i := by
  unfold Disk.rename
  split <;> rfl

@[simp] theorem Disk.next_rename (d : Disk P) (p q : P) : (d.rename p q).next = d.next := by
  unfold Disk.rename
  split <;> rfl

theorem Disk.lookup_rename {d : Disk P} {p q r : P} {i : Nat} (h : d.names.lookup p = some i) :
    (d.rename p q).names.lookup r = if r = q then some i else if r = p then none else d.names.lookup r := by
  unfold Disk.rename
  split
  · rename_i hn
    rw [h] at hn
    cases hn
  · rename_i j hj
    rw [h] at hj
    obtain rfl := Option.some.inj hj
    by_cases hrq : r = q
    · subst hrq
      simp
    · simp [AList.lookup_insert_ne hrq, Disk.lookup_remove, hrq]

end

end DoubleSlash.Fs
