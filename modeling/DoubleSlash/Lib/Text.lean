import Mathlib.Algebra.Group.Nat.Defs
import Mathlib.Data.List.DropRight
import Mathlib.Tactic.Common

/-!
# Text operations of the standard library

Text is `String`; the operations go through its list of characters. Offsets into a text are byte offsets of its UTF-8 form,
as they are in the code that cuts it.
-/

namespace DoubleSlash.Text

/-- `str::split_once` on a character: what stands before its first occurrence, and what stands after. -/
def splitOnce (c : Char) (s : String) : Option (String × String) :=
  match s.toList.dropWhile (· != c) with
  | [] => none
  | _ :: rest => some (String.ofList (s.toList.takeWhile (· != c)), String.ofList rest)

/-- A text that splits at `c` is the two parts around `c`, and the first part has no `c`. -/
theorem splitOnce_eq_some_iff {c : Char} {s a b : String} :
    splitOnce c s = some (a, b) ↔ s.toList = a.toList ++ c :: b.toList ∧ c ∉ a.toList := by
  unfold splitOnce
  constructor
  · intro h
    cases hd : s.toList.dropWhile (· != c) with
    | nil => simp [hd] at h
    | cons x rest =>
      rw [hd] at h
      simp only [Option.some.injEq, Prod.mk.injEq] at h
      obtain ⟨rfl, rfl⟩ := h
      have hx : x = c := by
        have := List.head_dropWhile_not (p := (· != c)) (l := s.toList) (by simp [hd])
        simpa [hd] using this
      subst hx
      constructor
      · rw [String.toList_ofList, String.toList_ofList, ← hd, List.takeWhile_append_dropWhile]
      · rw [String.toList_ofList]
        intro hm
        simpa using List.mem_takeWhile_imp hm
  · rintro ⟨hs, hc⟩
    have hdrop : s.toList.dropWhile (· != c) = c :: b.toList := by
      rw [hs, List.dropWhile_append_of_pos]
      · simp
      · intro x hx
        simp only [bne_iff_ne, ne_eq]
        rintro rfl
        exact hc hx
    have htake : s.toList.takeWhile (· != c) = a.toList := by
      have happ : s.toList.takeWhile (· != c) ++ c :: b.toList = a.toList ++ c :: b.toList := by
        rw [← hdrop, List.takeWhile_append_dropWhile, hdrop, hs]
      exact List.append_cancel_right happ
    simp [hdrop, htake]

/-- `str::trim_end_matches` on a character. -/
def trimEndMatches (c : Char) (s : String) : String :=
  String.ofList (s.toList.rdropWhile (· == c))

/-- `str::len`: the length of the UTF-8 form. -/
def byteLen : List Char → Nat
  | [] => 0
  | c :: cs => c.utf8Size + byteLen cs

/-- `&s[..n]`: the first `n` bytes, when they end at a character. Where the slice panics there is none. -/
def sliceTo : List Char → Nat → Option (List Char)
  | _, 0 => some []
  | [], _ + 1 => none
  | c :: cs, n + 1 => if c.utf8Size ≤ n + 1 then (sliceTo cs (n + 1 - c.utf8Size)).map (c :: ·) else none

/-- `char::is_whitespace`: the characters with the Unicode property White_Space. -/
def isWhitespace (c : Char) : Bool :=
  let n := c.toNat
  (0x09 ≤ n && n ≤ 0x0D) || n == 0x20 || n == 0x85 || n == 0xA0 || n == 0x1680 || (0x2000 ≤ n && n ≤ 0x200A) || n == 0x2028 ||
    n == 0x2029 || n == 0x202F || n == 0x205F || n == 0x3000

/-- `str::trim`. -/
def trim (s : List Char) : List Char :=
  (s.dropWhile isWhitespace).rdropWhile isWhitespace

/-- `str::rsplit_once` on a character: what stands before its last occurrence, and what stands after. -/
def rsplitOnce (c : Char) (s : List Char) : Option (List Char × List Char) :=
  if c ∈ s then some ((s.rdropWhile (· != c)).dropLast, s.rtakeWhile (· != c)) else none

/-- A text that splits at the last `c` is the two parts around it. -/
theorem eq_of_rsplitOnce {c : Char} {s a b : List Char} (h : rsplitOnce c s = some (a, b)) : s = a ++ c :: b := by
  unfold rsplitOnce at h
  split at h
  · rename_i hc
    simp only [Option.some.injEq, Prod.mk.injEq] at h
    obtain ⟨rfl, rfl⟩ := h
    have hne : s.rdropWhile (· != c) ≠ [] := by
      intro hnil
      simpa using List.rdropWhile_eq_nil_iff.mp hnil c hc
    have hlast : (s.rdropWhile (· != c)).getLast hne = c := by
      simpa using List.rdropWhile_last_not _ _ hne
    calc s = s.rdropWhile (· != c) ++ s.rtakeWhile (· != c) := (List.rdropWhile_append_rtakeWhile).symm
      _ = _ := by
        conv_lhs => rw [← List.dropLast_append_getLast hne, hlast]
        simp
  · cases h

/-- The value of a non-empty text of decimal digits. -/
def decimal (s : List Char) : Option Nat :=
  if s ≠ [] ∧ s.all Char.isDigit then some (s.foldl (fun n c => 10 * n + (c.toNat - 48)) 0) else none

/-- `str::parse::<u16>`: decimal digits after an optional plus sign. -/
def parseU16 (s : List Char) : Option Nat :=
  (decimal (if s.head? = some '+' then s.tail else s)).filter (· < 65536)

/-- `str::parse::<u64>`. -/
def parseU64 (s : List Char) : Option Nat :=
  (decimal (if s.head? = some '+' then s.tail else s)).filter (· < 2 ^ 64)

/-- `split_whitespace().next()`. -/
def firstWord (s : List Char) : Option (List Char) :=
  let rest := s.dropWhile isWhitespace
  if rest = [] then none else some (rest.takeWhile fun c => !isWhitespace c)

end DoubleSlash.Text
