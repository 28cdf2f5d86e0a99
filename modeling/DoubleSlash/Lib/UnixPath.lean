import DoubleSlash.Lib.Bytes
import Mathlib.Data.Nat.Bitwise

/-!
# Paths as bytes

A path of a Unix system is its bytes. `join` puts a relative path below a directory, and `toStringLossy` is the text of a path, which
has the same bytes only where they are UTF-8.
-/

namespace DoubleSlash.UnixPath

open Bytes

/-- The byte of `/`. -/
def separator : UInt8 := 0x2F

/-- `Path::join`: an absolute path replaces the directory. -/
def join (dir path : List UInt8) : List UInt8 :=
  if path.head? = some separator then path
  else if dir = [] ∨ dir.getLast? = some separator then dir ++ path
  else dir ++ separator :: path

def isContinuation (b : UInt8) : Bool := 0x80 ≤ b && b ≤ 0xBF

/-- Whether the second byte may follow the first of a character of three or four bytes. -/
def mayFollow (first second : UInt8) : Bool :=
  if first = 0xE0 then 0xA0 ≤ second && second ≤ 0xBF
  else if first = 0xED then 0x80 ≤ second && second ≤ 0x9F
  else if first = 0xF0 then 0x90 ≤ second && second ≤ 0xBF
  else if first = 0xF4 then 0x80 ≤ second && second ≤ 0x8F
  else 0xE1 ≤ first && first ≤ 0xF3 && isContinuation second

/-- How many bytes one replacement character stands for: the longest beginning of a character. -/
def brokenLength : List UInt8 → Nat
  | first :: second :: third :: _ =>
    if mayFollow first second then (if 0xF0 ≤ first && isContinuation third then 3 else 2) else 1
  | [first, second] => if mayFollow first second then 2 else 1
  | _ => 1

/-- The first character of bytes, if they begin with one, and how many bytes it takes. -/
def firstChar (bytes : List UInt8) : Option (String × Nat) :=
  [1, 2, 3, 4].findSome? fun n => if n ≤ bytes.length then (fromUtf8 (bytes.take n)).map fun s => (s, n) else none

/-- `String::from_utf8_lossy`, with as many rounds as there are bytes. -/
def fromUtf8Lossy : Nat → List UInt8 → String
  | 0, _ => ""
  | _ + 1, [] => ""
  | n + 1, bytes =>
    match firstChar bytes with
    | some (s, len) => s ++ fromUtf8Lossy n (bytes.drop len)
    | none => "\uFFFD" ++ fromUtf8Lossy n (bytes.drop (brokenLength bytes))

/-- `Path::to_string_lossy`: bytes that are a text are that text. -/
def toStringLossy (path : List UInt8) : String := (fromUtf8 path).getD (fromUtf8Lossy path.length path)

example : toStringLossy [0x2F, 0xFF, 0x61] = "/\uFFFDa" := by decide +kernel

/-! ## Bytes that are a text -/

theorem toStringLossy_utf8 (s : String) : toStringLossy (utf8 s) = s := by
  unfold toStringLossy
  rw [fromUtf8_utf8]
  rfl

theorem utf8_of_fromUtf8 {bytes : List UInt8} {s : String} (h : fromUtf8 bytes = some s) : utf8 s = bytes := by
  unfold fromUtf8 at h
  split at h
  · rename_i hvalid
    have hs := Option.some.inj h
    rw [← hs]
    simp [utf8, String.fromUTF8]
  · cases h

/-- The text of a path has its bytes exactly when they are UTF-8. -/
theorem utf8_toStringLossy_iff {path : List UInt8} : utf8 (toStringLossy path) = path ↔ ∃ s, path = utf8 s := by
  constructor
  · intro h
    exact ⟨toStringLossy path, h.symm⟩
  · rintro ⟨s, rfl⟩
    rw [toStringLossy_utf8]

/-- The bytes of a text are those of its characters. -/
theorem utf8_eq_flatMap (s : String) : utf8 s = s.toList.flatMap String.utf8EncodeChar := by
  unfold utf8
  rw [String.toUTF8, ← String.utf8Encode_toList]
  simp [List.utf8Encode]

/-- A byte after the first of a character is none of ASCII. -/
theorem continuation_ge {c : Char} {before after : List UInt8} {b : UInt8}
    (h : String.utf8EncodeChar c = before ++ b :: after) (hbefore : before ≠ []) : 0x80 ≤ b := by
  have hlen : before.length < (String.utf8EncodeChar c).length := by
    rw [h, List.length_append, List.length_cons]
    omega
  have hb : (String.utf8EncodeChar c)[before.length] = b := by simp [h]
  have hfirst := @UInt8.isUTF8FirstByte_getElem_utf8EncodeChar c before.length hlen
  rw [hb] at hfirst
  by_contra hlow
  have hascii : b.IsUTF8FirstByte := by
    left
    have hlt : b.toNat < 2 ^ 7 := UInt8.lt_iff_toNat_lt.mp (UInt8.not_le.mp hlow)
    refine UInt8.toNat_inj.mp ?_
    rw [UInt8.toNat_and, show (0x80 : UInt8).toNat = 2 ^ 7 from rfl, Nat.and_two_pow, Nat.testBit_lt_two_pow hlt]
    rfl
  exact hbefore (List.length_eq_zero_iff.mp (hfirst.mp hascii))

/-- Bytes before one of ASCII are a text if the whole is. -/
theorem isText_of_append {dir rest : List UInt8} {b : UInt8} (hb : b < 0x80) (h : ∃ s, dir ++ b :: rest = utf8 s) :
    ∃ s, dir = utf8 s := by
  obtain ⟨s, hs⟩ := h
  rw [utf8_eq_flatMap] at hs
  generalize s.toList = chars at hs
  have hmain : ∀ dir, dir ++ b :: rest = chars.flatMap String.utf8EncodeChar → ∃ cs : List Char, dir = cs.flatMap String.utf8EncodeChar := by
    clear hs
    induction chars with
    | nil =>
      intro dir h
      simp at h
    | cons c chars ih =>
      intro dir h
      rw [List.flatMap_cons] at h
      rcases List.append_eq_append_iff.mp h with ⟨mid, hc, hrest⟩ | ⟨mid, hdir, hrest⟩
      · cases mid with
        | nil => exact ⟨[c], by simpa using hc.symm⟩
        | cons x mid =>
          rw [List.cons_append, List.cons.injEq] at hrest
          by_cases hnil : dir = []
          · exact ⟨[], hnil⟩
          · have hge := continuation_ge hc hnil
            rw [← hrest.1] at hge
            exact absurd hb (UInt8.not_lt.mpr hge)
      · obtain ⟨cs, hcs⟩ := ih mid hrest.symm
        exact ⟨c :: cs, by rw [hdir, hcs, List.flatMap_cons]⟩
  obtain ⟨cs, hcs⟩ := hmain dir hs
  refine ⟨String.ofList cs, ?_⟩
  rw [utf8_eq_flatMap, String.toList_ofList, hcs]

end DoubleSlash.UnixPath
