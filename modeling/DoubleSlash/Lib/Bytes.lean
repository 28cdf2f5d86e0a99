import Mathlib.Algebra.Group.Nat.Defs
import Mathlib.Data.List.Induction
import Mathlib.Tactic.Common

/-!
# Bytes of numbers and texts

Big-endian numbers of a fixed width, the UTF-8 bytes of a text, and the bytes between two offsets. Each writer has the lemma
that its reader undoes it, and bytes after their length are told apart.
-/

namespace DoubleSlash.Bytes

/-- `to_be_bytes` of a number of `w` bytes. -/
def beBytes : Nat → Nat → List UInt8
  | 0, _ => []
  | w + 1, n => beBytes w (n / 256) ++ [UInt8.ofNat n]

/-- `from_be_bytes`. -/
def beNat (bytes : List UInt8) : Nat := bytes.foldl (fun acc b => 256 * acc + b.toNat) 0

@[simp] theorem length_beBytes (w n : Nat) : (beBytes w n).length = w := by
  induction w generalizing n with
  | zero => rfl
  | succ w ih => simp [beBytes, ih]

theorem beNat_beBytes (w n : Nat) (h : n < 256 ^ w) : beNat (beBytes w n) = n := by
  induction w generalizing n with
  | zero =>
    have : n = 0 := by simpa using h
    rw [this]
    rfl
  | succ w ih =>
    have hdiv : n / 256 < 256 ^ w := by
      rw [Nat.pow_succ] at h
      exact Nat.div_lt_of_lt_mul (by rwa [Nat.mul_comm])
    have hhead := ih (n / 256) hdiv
    unfold beNat at hhead ⊢
    have hbyte : (UInt8.ofNat n).toNat = n % 256 := by simp
    rw [beBytes, List.foldl_append, hhead, List.foldl_cons, List.foldl_nil, hbyte]
    exact Nat.div_add_mod n 256

theorem beNat_append (a b : List UInt8) : beNat (a ++ b) = beNat a * 256 ^ b.length + beNat b := by
  induction b using List.reverseRecOn with
  | nil => simp [beNat]
  | append_singleton b x ih =>
    have hsnoc (l : List UInt8) : beNat (l ++ [x]) = 256 * beNat l + x.toNat := by simp [beNat]
    rw [← List.append_assoc, hsnoc, hsnoc, ih, List.length_append, List.length_singleton, Nat.pow_succ, Nat.mul_add,
      Nat.mul_left_comm 256, Nat.mul_comm 256 (256 ^ b.length), Nat.add_assoc]

theorem beBytes_beNat (bytes : List UInt8) : beBytes bytes.length (beNat bytes) = bytes := by
  induction bytes using List.reverseRecOn with
  | nil => rfl
  | append_singleton bytes x ih =>
    have hsnoc : beNat (bytes ++ [x]) = 256 * beNat bytes + x.toNat := by simp [beNat]
    have hx := x.toNat_lt
    have hdiv : (256 * beNat bytes + x.toNat) / 256 = beNat bytes := by omega
    rw [List.length_append, List.length_singleton, beBytes, hsnoc, hdiv, ih]
    congr 2
    refine UInt8.toNat_inj.mp ?_
    rw [UInt8.toNat_ofNat']
    omega

/-- Numbers that fit are told apart by their bytes. -/
theorem beBytes_inj {w m n : Nat} (hm : m < 256 ^ w) (hn : n < 256 ^ w) (h : beBytes w m = beBytes w n) : m = n := by
  rw [← beNat_beBytes w m hm, h, beNat_beBytes w n hn]

/-- Bytes are those of a number exactly when it is their number. -/
theorem beBytes_eq_iff {w n : Nat} {bytes : List UInt8} (hn : n < 256 ^ w) (hlen : bytes.length = w) :
    beBytes w n = bytes ↔ n = beNat bytes := by
  constructor
  · intro h
    rw [← h, beNat_beBytes w n hn]
  · intro h
    rw [h, ← hlen, beBytes_beNat]

/-- Bytes after their length, which is a number of `w` bytes. -/
def lengthPrefixed (w : Nat) (bytes : List UInt8) : List UInt8 := beBytes w bytes.length ++ bytes

/-- Bytes after their length are told apart whatever follows them. -/
theorem lengthPrefixed_append_inj {w : Nat} {a b x y : List UInt8} (ha : a.length < 256 ^ w) (hb : b.length < 256 ^ w)
    (h : lengthPrefixed w a ++ x = lengthPrefixed w b ++ y) : a = b ∧ x = y := by
  unfold lengthPrefixed at h
  rw [List.append_assoc, List.append_assoc] at h
  obtain ⟨hlen, hrest⟩ := List.append_inj h (by rw [length_beBytes, length_beBytes])
  exact List.append_inj hrest (beBytes_inj ha hb hlen)

/-- `str::as_bytes`. -/
def utf8 (s : String) : List UInt8 := s.toUTF8.data.toList

/-- `std::str::from_utf8`. -/
def fromUtf8 (bytes : List UInt8) : Option String :=
  if h : ByteArray.IsValidUTF8 ⟨bytes.toArray⟩ then some (String.fromUTF8 ⟨bytes.toArray⟩ h) else none

theorem fromUtf8_utf8 (s : String) : fromUtf8 (utf8 s) = some s := by
  have hbytes : (⟨(utf8 s).toArray⟩ : ByteArray) = s.toUTF8 := by
    apply ByteArray.ext
    simp [utf8]
  have hvalid : ByteArray.IsValidUTF8 ⟨(utf8 s).toArray⟩ := by
    rw [hbytes]
    exact s.isValidUTF8
  unfold fromUtf8
  rw [dif_pos hvalid, Option.some.injEq]
  exact String.toByteArray_inj.mp hbytes

theorem utf8_inj {s t : String} (h : utf8 s = utf8 t) : s = t := by
  have hs := fromUtf8_utf8 s
  rw [h, fromUtf8_utf8] at hs
  exact (Option.some.inj hs).symm

theorem utf8_ne_nil {s : String} (h : s ≠ "") : utf8 s ≠ [] := by
  intro hnil
  apply h
  have hs := fromUtf8_utf8 s
  rw [hnil] at hs
  have he := fromUtf8_utf8 ""
  rw [show utf8 "" = [] from rfl] at he
  rw [hs] at he
  exact Option.some.inj he

theorem utf8_append (s t : String) : utf8 (s ++ t) = utf8 s ++ utf8 t := by
  have happend : (s ++ t).toByteArray = s.toByteArray ++ t.toByteArray := String.toByteArray_append
  unfold utf8
  simp only [String.toUTF8, happend, ByteArray.data_append, Array.toList_append]

/-- Every character takes a byte at least. -/
theorem length_le_utf8 (s : String) : s.toList.length ≤ (utf8 s).length := by
  have hchars : ∀ l : List Char, l.length ≤ (utf8 (String.ofList l)).length := by
    intro l
    induction l with
    | nil => exact Nat.zero_le _
    | cons c l ih =>
      have hcons : String.ofList (c :: l) = String.ofList [c] ++ String.ofList l := by
        rw [← String.ofList_append, List.singleton_append]
      have hone : 0 < (utf8 (String.ofList [c])).length := by
        refine List.length_pos_iff.mpr (utf8_ne_nil ?_)
        intro h
        have hlist := congrArg String.toList h
        rw [String.toList_ofList] at hlist
        cases hlist
      rw [hcons, utf8_append, List.length_append, List.length_cons]
      omega
  have h := hchars s.toList
  rwa [String.ofList_toList] at h

/-- `&buf[start..stop]`. -/
def slice (buf : List UInt8) (start stop : Nat) : List UInt8 := (buf.drop start).take (stop - start)

theorem slice_mid (before mid after : List UInt8) {buf : List UInt8} {start stop : Nat} (h : buf = before ++ (mid ++ after))
    (hstart : before.length = start) (hstop : start + mid.length = stop) : slice buf start stop = mid := by
  subst h hstart hstop
  rw [slice, List.drop_left, Nat.add_sub_cancel_left, List.take_left]

theorem getElem?_mid (before after : List UInt8) {buf : List UInt8} {x : UInt8} {i : Nat} (h : buf = before ++ x :: after)
    (hi : before.length = i) : buf[i]? = some x := by
  subst h hi
  rw [List.getElem?_append_right (Nat.le_refl _), Nat.sub_self, List.getElem?_cons_zero]

end DoubleSlash.Bytes
