import DoubleSlash.Lib.Text

/-!
# Byte offsets into a text

Slicing at a byte offset and searching for one. An offset is good when it is the length of what stands before it
(`sliceFrom_eq_some_iff`); the lower-cased copy of a text has the same good offsets (`byteLen_map_asciiLower`).
-/

namespace DoubleSlash.Text

/-- `char::to_ascii_lowercase`. -/
def asciiLower (c : Char) : Char := if 'A' ≤ c ∧ c ≤ 'Z' then Char.ofNat (c.toNat + 32) else c

/-- `char::is_ascii_alphanumeric`. -/
def isAsciiAlphanumeric (c : Char) : Bool := c.isDigit || ('a' ≤ c && c ≤ 'z') || ('A' ≤ c && c ≤ 'Z')

/-- `&s[n..]`: what follows the first `n` bytes, when they end at a character. Where the slice panics there is none. -/
def sliceFrom : List Char → Nat → Option (List Char)
  | cs, 0 => some cs
  | [], _ + 1 => none
  | c :: cs, n + 1 => if c.utf8Size ≤ n + 1 then sliceFrom cs (n + 1 - c.utf8Size) else none

/-- `str::find` of a text: the offset of its first occurrence. -/
def find (needle : List Char) : List Char → Option Nat
  | [] => if needle = [] then some 0 else none
  | c :: cs => if needle <+: c :: cs then some 0 else (find needle cs).map (c.utf8Size + ·)

/-- `str::find` of a kind of character. -/
def findChar (p : Char → Bool) : List Char → Option Nat
  | [] => none
  | c :: cs => if p c then some 0 else (findChar p cs).map (c.utf8Size + ·)

/-! ## Lengths -/

@[simp] theorem byteLen_nil : byteLen [] = 0 := rfl

@[simp] theorem byteLen_cons (c : Char) (cs : List Char) : byteLen (c :: cs) = c.utf8Size + byteLen cs := rfl

@[simp] theorem byteLen_append (a b : List Char) : byteLen (a ++ b) = byteLen a + byteLen b := by
  induction a with
  | nil => exact (Nat.zero_add _).symm
  | cons c a ih => rw [List.cons_append, byteLen_cons, byteLen_cons, ih, Nat.add_assoc]

theorem byteLen_eq_zero {a : List Char} (h : byteLen a = 0) : a = [] := by
  cases a with
  | nil => rfl
  | cons c a =>
    have := c.utf8Size_pos
    rw [byteLen_cons] at h
    omega

/-- Of two texts at the front of one, the one with fewer bytes is at the front of the other. -/
theorem prefix_of_byteLen_le {a b s : List Char} (ha : a <+: s) (hb : b <+: s) (h : byteLen a ≤ byteLen b) : a <+: b := by
  rcases List.prefix_or_prefix_of_prefix ha hb with hab | ⟨t, rfl⟩
  · exact hab
  · rw [byteLen_append] at h
    have hnil : t = [] := byteLen_eq_zero (by omega)
    exact ⟨[], by rw [hnil, List.append_nil, List.append_nil]⟩

theorem eq_of_byteLen_eq {a b s : List Char} (ha : a <+: s) (hb : b <+: s) (h : byteLen a = byteLen b) : a = b :=
  (prefix_of_byteLen_le ha hb h.le).eq_of_length_le (prefix_of_byteLen_le hb ha h.ge).length_le

/-! ## Slices -/

theorem sliceFrom_zero (s : List Char) : sliceFrom s 0 = some s := by
  cases s with
  | nil => rfl
  | cons c s => rfl

/-- A slice goes through exactly at the length of a text at the front. -/
theorem sliceFrom_eq_some_iff {s r : List Char} {n : Nat} : sliceFrom s n = some r ↔ ∃ a, s = a ++ r ∧ byteLen a = n := by
  induction s generalizing n with
  | nil =>
    cases n with
    | zero =>
      rw [sliceFrom_zero]
      constructor
      · intro h
        exact ⟨[], Option.some.inj h, rfl⟩
      · rintro ⟨a, h, ha⟩
        rw [byteLen_eq_zero ha] at h
        exact congrArg some h
    | succ n =>
      constructor
      · intro h
        cases h
      · rintro ⟨a, h, ha⟩
        rw [(List.append_eq_nil_iff.mp h.symm).1] at ha
        cases ha
  | cons c s ih =>
    have hpos := c.utf8Size_pos
    cases n with
    | zero =>
      rw [sliceFrom_zero]
      constructor
      · intro h
        exact ⟨[], Option.some.inj h, rfl⟩
      · rintro ⟨a, h, ha⟩
        rw [byteLen_eq_zero ha] at h
        exact congrArg some h
    | succ n =>
      rw [sliceFrom, Option.ite_none_right_eq_some, ih]
      constructor
      · rintro ⟨hle, a, rfl, ha⟩
        refine ⟨c :: a, rfl, ?_⟩
        rw [byteLen_cons]
        omega
      · rintro ⟨a, h, ha⟩
        cases a with
        | nil => cases ha
        | cons d a =>
          obtain ⟨rfl, rfl⟩ := List.cons.inj h
          rw [byteLen_cons] at ha
          exact ⟨by omega, a, rfl, by omega⟩

theorem sliceFrom_append (a r : List Char) : sliceFrom (a ++ r) (byteLen a) = some r := sliceFrom_eq_some_iff.mpr ⟨a, rfl, rfl⟩

theorem sliceTo_append (a r : List Char) : sliceTo (a ++ r) (byteLen a) = some a := by
  induction a with
  | nil =>
    cases r with
    | nil => rfl
    | cons c r => rfl
  | cons c a ih =>
    have hpos := c.utf8Size_pos
    obtain ⟨k, hk⟩ : ∃ k, byteLen (c :: a) = k + 1 := ⟨c.utf8Size + byteLen a - 1, by rw [byteLen_cons]; omega⟩
    rw [hk, List.cons_append, sliceTo]
    rw [byteLen_cons] at hk
    rw [if_pos (by omega), show k + 1 - c.utf8Size = byteLen a by omega, ih]
    rfl

/-! ## Searching -/

/-- A slice that goes through is at the front, and as long as it says. -/
theorem sliceTo_eq_some {s a : List Char} {n : Nat} (h : sliceTo s n = some a) : a <+: s ∧ byteLen a = n := by
  induction s generalizing n a with
  | nil =>
    cases n with
    | zero =>
      obtain rfl := Option.some.inj h
      exact ⟨List.prefix_rfl, rfl⟩
    | succ n => cases h
  | cons c s ih =>
    have hpos := c.utf8Size_pos
    cases n with
    | zero =>
      obtain rfl := Option.some.inj h
      exact ⟨List.nil_prefix, rfl⟩
    | succ n =>
      rw [sliceTo, Option.ite_none_right_eq_some, Option.map_eq_some_iff] at h
      obtain ⟨hle, b, hb, rfl⟩ := h
      obtain ⟨hfront, hlen⟩ := ih hb
      refine ⟨List.cons_prefix_cons.mpr ⟨rfl, hfront⟩, ?_⟩
      rw [byteLen_cons]
      omega

/-- What is found is an occurrence. -/
theorem find_some {needle s : List Char} {n : Nat} (h : find needle s = some n) :
    ∃ a r, s = a ++ r ∧ byteLen a = n ∧ needle <+: r ∧ ∀ a' r', s = a' ++ r' → needle <+: r' → n ≤ byteLen a' := by
  induction s generalizing n with
  | nil =>
    rw [find, Option.ite_none_right_eq_some] at h
    obtain ⟨rfl, h⟩ := h
    exact ⟨[], [], rfl, Option.some.inj h, List.prefix_rfl, fun a' _ _ _ => (Option.some.inj h) ▸ Nat.zero_le _⟩
  | cons c s ih =>
    unfold find at h
    by_cases hhere : needle <+: c :: s
    · rw [if_pos hhere] at h
      exact ⟨[], c :: s, rfl, Option.some.inj h, hhere, fun a' _ _ _ => (Option.some.inj h) ▸ Nat.zero_le _⟩
    · rw [if_neg hhere, Option.map_eq_some_iff] at h
      obtain ⟨m, hm, rfl⟩ := h
      obtain ⟨a, r, rfl, rfl, hr, hfirst⟩ := ih hm
      refine ⟨c :: a, r, rfl, rfl, hr, ?_⟩
      intro a' r' hs hr'
      cases a' with
      | nil => exact absurd (hs ▸ hr') hhere
      | cons d a' =>
        obtain ⟨rfl, hs'⟩ := List.cons.inj hs
        have := hfirst a' r' hs' hr'
        rw [byteLen_cons]
        omega

/-- Where nothing is found there is no occurrence. -/
theorem find_none {needle s : List Char} (h : find needle s = none) (a r : List Char) (hs : s = a ++ r) : ¬ needle <+: r := by
  induction s generalizing a with
  | nil =>
    obtain ⟨-, rfl⟩ := List.append_eq_nil_iff.mp hs.symm
    intro hfront
    rw [find, if_pos (List.prefix_nil.mp hfront)] at h
    cases h
  | cons c s ih =>
    unfold find at h
    by_cases hhere : needle <+: c :: s
    · rw [if_pos hhere] at h
      cases h
    · rw [if_neg hhere, Option.map_eq_none_iff] at h
      cases a with
      | nil =>
        rw [List.nil_append] at hs
        rwa [← hs]
      | cons d a => exact ih h a (List.cons.inj hs).2

/-- The part up to the first character of a kind. -/
theorem sliceTo_findChar (p : Char → Bool) (s : List Char) :
    sliceTo s ((findChar p s).getD (byteLen s)) = some (s.takeWhile fun c => !p c) := by
  have hend : (findChar p s).getD (byteLen s) = byteLen (s.takeWhile fun c => !p c) := by
    induction s with
    | nil => rfl
    | cons c s ih =>
      unfold findChar
      by_cases hc : p c = true
      · rw [if_pos hc, List.takeWhile_cons_of_neg (by simp [hc])]
        rfl
      · rw [if_neg hc, List.takeWhile_cons_of_pos (by simp [hc]), byteLen_cons, byteLen_cons, ← ih]
        cases findChar p s with
        | none => rfl
        | some n => rfl
  have happend := sliceTo_append (s.takeWhile fun c => !p c) (s.dropWhile fun c => !p c)
  rwa [List.takeWhile_append_dropWhile, ← hend] at happend

/-! ## The lower-cased copy -/

theorem utf8Size_asciiLower (c : Char) : (asciiLower c).utf8Size = c.utf8Size := by
  unfold asciiLower
  by_cases hc : 'A' ≤ c ∧ c ≤ 'Z'
  · rw [if_pos hc]
    have hlow : 65 ≤ c.toNat := hc.1
    have hhigh : c.toNat ≤ 90 := hc.2
    have hascii : ∀ n < 128, (Char.ofNat n).utf8Size = 1 := by decide
    rw [hascii _ (by omega), ← Char.ofNat_toNat c, hascii _ (by omega)]
  · rw [if_neg hc]

theorem byteLen_map_asciiLower (s : List Char) : byteLen (s.map asciiLower) = byteLen s := by
  induction s with
  | nil => rfl
  | cons c s ih => rw [List.map_cons, byteLen_cons, byteLen_cons, ih, utf8Size_asciiLower]

end DoubleSlash.Text
