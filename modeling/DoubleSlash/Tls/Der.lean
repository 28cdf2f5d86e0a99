import Mathlib.Data.Nat.ModEq
import Mathlib.Tactic.Ring
import Mathlib.Tactic.Linarith
import DoubleSlash.Lib.Machine

/-!
# The DER scanner of a peer certificate

`parse_der_length` and `parse_cn_from_der` of `quic_tls.rs`, over machine words: every addition is `Machine.add`, every
index and slice is checked. The scanner looks for the first occurrence of the common-name OID and reads the string after it.
-/

namespace DoubleSlash.Tls

open Machine

/-- `slice::windows`: the contiguous runs of `n` elements, in order (`n` is at least one here). -/
def windows {α : Type} (n : Nat) (l : List α) : List (List α) :=
  (List.range (l.length + 1 - n)).map fun i => (l.drop i).take n

/-- The DER encoding of the CN OID 2.5.4.3. -/
def cnOid : List UInt8 := [0x55, 0x04, 0x03]

/-- Where the first CN OID of the certificate starts. -/
def cnPosition (der : List UInt8) : Option Nat := (windows cnOid.length der).findIdx? (· == cnOid)

/-- One step of the loop that folds the length bytes into one word: `(len << 8) | b`, the high bits shifted out. -/
def foldLength (W : Word) (len : Nat) (x : UInt8) : Nat := ((len <<< 8) % W.modulus) ||| x.toNat

/-- `parse_der_length`: the length a DER header encodes and the bytes the header takes. -/
def parseDerLength (b : Build) (W : Word) (data : List UInt8) : Except Fault (Option (Nat × Nat)) := do
  if data.isEmpty then return none
  let first ← index data 0
  if first < 0x80 then return some (first.toNat, 1)
  let numBytes := (first &&& 0x7F).toNat
  let need ← add b W 1 numBytes
  if numBytes = 0 ∨ data.length < need then return none
  let lenBytes ← slice data 1 need
  let consumed ← add b W 1 numBytes
  return some (lenBytes.foldl (foldLength W) 0, consumed)

/-- The end of `parse_cn_from_der`: the value of `valueLen` bytes that starts at `valueStart`, as text. -/
def cnValue (b : Build) (W : Word) (der : List UInt8) (valueStart valueLen : Nat) : Except Fault (Option String) := do
  -- the one addition whose operand the certificate chooses freely
  let valueEnd ← add b W valueStart valueLen
  if valueEnd > der.length then return none
  let value ← slice der valueStart valueEnd
  return String.fromUTF8? ⟨value.toArray⟩

/-- `parse_cn_from_der`: the text of the first CN of a certificate. -/
def parseCnFromDer (b : Build) (W : Word) (der : List UInt8) : Except Fault (Option String) := do
  match cnPosition der with
  | none => return none
  | some pos =>
    let afterOid ← add b W pos cnOid.length
    if afterOid ≥ der.length then return none
    let tag ← index der afterOid
    if tag ≠ 0x0C ∧ tag ≠ 0x13 then return none
    let lenPos ← add b W afterOid 1
    if lenPos ≥ der.length then return none
    let data ← slice der lenPos der.length
    match ← parseDerLength b W data with
    | none => return none
    | some (valueLen, consumed) =>
      let valueStart ← add b W lenPos consumed
      cnValue b W der valueStart valueLen

/-! ## What the scanner reads, without machine words -/

/-- The number a big-endian byte string encodes. -/
def beValue (bytes : List UInt8) : Nat := bytes.foldl (fun v x => v * 256 + x.toNat) 0

/-- The length a header encodes, as one word holds it: a short form, or a long form cut to the word. -/
def derLength (W : Word) : List UInt8 → Option (Nat × Nat)
  | [] => none
  | first :: rest =>
    if first < 0x80 then some (first.toNat, 1)
    else if first.toNat % 128 = 0 ∨ rest.length < first.toNat % 128 then none
    else some (beValue (rest.take (first.toNat % 128)) % W.modulus, 1 + first.toNat % 128)

/-- The certificate's CN carries a long-form length that, cut to the word, runs past the end of the address space when
added to where the value starts: after the first CN OID come a string tag, `0x80 + n`, and `n` length bytes. -/
def LengthOverflows (W : Word) (der : List UInt8) : Prop :=
  ∃ pos tag first rest, cnPosition der = some pos ∧ der.drop (pos + 3) = tag :: first :: rest ∧
    (tag = 0x0C ∨ tag = 0x13) ∧ 0x80 < first ∧ first.toNat % 128 ≤ rest.length ∧
    W.modulus ≤ pos + 5 + first.toNat % 128 + beValue (rest.take (first.toNat % 128)) % W.modulus

/-! ## The length fold -/

/-- A word is a whole number of bytes. -/
theorem Word.modulus_eq_mul (W : Word) : ∃ k, 0 < k ∧ W.modulus = k * 256 := by
  cases W
  · exact ⟨2 ^ 24, by decide, by decide⟩
  · exact ⟨2 ^ 56, by decide, by decide⟩

/-- One step of the length loop is a step of the big-endian value, cut to the word. -/
theorem foldLength_eq (W : Word) (len : Nat) (x : UInt8) : foldLength W len x = (len * 256 + x.toNat) % W.modulus := by
  obtain ⟨k, hk, hM⟩ := Word.modulus_eq_mul W
  have hx : x.toNat < 256 := x.toNat_lt
  have hlt : len % k < k := Nat.mod_lt _ hk
  unfold foldLength
  rw [hM, Nat.shiftLeft_eq, show 2 ^ 8 = 256 from rfl, Nat.mul_mod_mul_right, Nat.mul_comm (len % k) 256,
    ← Nat.two_pow_add_eq_or_of_lt (i := 8) hx (len % k)]
  have hsum : (len * 256 + x.toNat) % (k * 256) = (len % k) * 256 + x.toNat := by
    conv_lhs => rw [← Nat.div_add_mod len k]
    rw [show (k * (len / k) + len % k) * 256 + x.toNat = (len % k * 256 + x.toNat) + (k * 256) * (len / k) by ring,
      Nat.add_mul_mod_self_left]
    exact Nat.mod_eq_of_lt (by nlinarith)
  rw [hsum, show 2 ^ 8 = 256 from rfl, Nat.mul_comm]

/-- The length loop computes the big-endian value of the length bytes, cut to the word. -/
theorem foldl_foldLength (W : Word) (bytes : List UInt8) :
    bytes.foldl (foldLength W) 0 = beValue bytes % W.modulus := by
  have key : ∀ (l : List UInt8) (v : Nat), l.foldl (foldLength W) (v % W.modulus) =
      l.foldl (fun v x => v * 256 + x.toNat) v % W.modulus := by
    intro l
    induction l with
    | nil => intro v; rfl
    | cons x l ih =>
      intro v
      have hmod : (v % W.modulus * 256 + x.toNat) % W.modulus = (v * 256 + x.toNat) % W.modulus :=
        Nat.ModEq.add_right _ (Nat.ModEq.mul_right _ (Nat.mod_modEq v W.modulus))
      rw [List.foldl_cons, List.foldl_cons, foldLength_eq, hmod, ih]
  have := key bytes 0
  rwa [Nat.zero_mod] at this

/-! ## The scanner, step by step -/

/-- The low seven bits of a byte. -/
theorem and_seven_toNat (x : UInt8) : (x &&& 0x7F).toNat = x.toNat % 128 := by
  rw [UInt8.toNat_and]
  exact Nat.and_two_pow_sub_one_eq_mod x.toNat 7

/-- `parse_der_length` never faults, and reads the length the header encodes. -/
theorem parseDerLength_eq (b : Build) (W : Word) (data : List UInt8) :
    parseDerLength b W data = .ok (derLength W data) := by
  cases data with
  | nil => rfl
  | cons first rest =>
    have hmod : 2 ^ 31 ≤ W.modulus := by
      have := W.two_mul_half
      have := W.half_ge
      omega
    have hn : first.toNat % 128 < 128 := Nat.mod_lt _ (by decide)
    have hadd : add b W 1 (first.toNat % 128) = .ok (1 + first.toNat % 128) := add_ok (by omega)
    have hidx : index (first :: rest) 0 = .ok first := rfl
    simp only [parseDerLength, List.isEmpty_cons, Bool.false_eq_true, if_false, hidx, and_seven_toNat,
      List.length_cons, derLength]
    by_cases hshort : first < 0x80
    · simp [hshort, pure, Except.pure, bind, Except.bind]
    · by_cases hlen : first.toNat % 128 = 0 ∨ rest.length < first.toNat % 128
      · have hlen' : first.toNat % 128 = 0 ∨ rest.length + 1 < 1 + first.toNat % 128 := by omega
        simp [hshort, hlen, hlen', hadd, pure, Except.pure, bind, Except.bind]
      · have hlen' : ¬(first.toNat % 128 = 0 ∨ rest.length + 1 < 1 + first.toNat % 128) := by omega
        have hsl : slice (first :: rest) 1 (1 + first.toNat % 128) = .ok (rest.take (first.toNat % 128)) := by
          rw [slice_ok (by omega) (by simp; omega)]
          simp
        simp [hshort, hlen, hlen', hadd, hsl, foldl_foldLength, pure, Except.pure, bind, Except.bind]

/-- The length a header encodes is a word, and its header lies in the data. -/
theorem derLength_bounds {W : Word} {data : List UInt8} {len consumed : Nat}
    (h : derLength W data = some (len, consumed)) : len < W.modulus ∧ consumed ≤ data.length := by
  have hmod : 256 ≤ W.modulus := by cases W <;> decide
  cases data with
  | nil => simp [derLength] at h
  | cons first rest =>
    simp only [derLength] at h
    have hf : first.toNat < 256 := first.toNat_lt
    split at h
    · simp only [Option.some.injEq, Prod.mk.injEq] at h
      obtain ⟨rfl, rfl⟩ := h
      exact ⟨by omega, by simp⟩
    · split at h
      · cases h
      · simp only [Option.some.injEq, Prod.mk.injEq] at h
        obtain ⟨rfl, rfl⟩ := h
        exact ⟨Nat.mod_lt _ (by omega), by simp; omega⟩

/-- An occurrence of the OID lies inside the certificate. -/
theorem cnPosition_lt {der : List UInt8} {pos : Nat} (h : cnPosition der = some pos) : pos + 3 ≤ der.length := by
  unfold cnPosition at h
  have hlt := (List.findIdx?_eq_some_iff_findIdx_eq.mp h).1
  simp [windows, cnOid] at hlt
  omega

/-- The certificate has a CN whose string starts, tag and length header included, with `tag :: tl` after its OID at `pos`,
and whose length header encodes `len` in `consumed` bytes. -/
structure CnHeader (W : Word) (der : List UInt8) (pos : Nat) (tag : UInt8) (tl : List UInt8) (len consumed : Nat) :
    Prop where
  found : cnPosition der = some pos
  after : der.drop (pos + 3) = tag :: tl
  string : tag = 0x0C ∨ tag = 0x13
  length : derLength W tl = some (len, consumed)

/-- The value a CN header announces starts inside the certificate. -/
theorem CnHeader.start_le {W : Word} {der : List UInt8} {pos : Nat} {tag : UInt8} {tl : List UInt8} {len consumed : Nat}
    (h : CnHeader W der pos tag tl len consumed) : pos + 4 + consumed ≤ der.length := by
  have hc := (derLength_bounds h.length).2
  have hl := congrArg List.length h.after
  simp only [List.length_drop, List.length_cons] at hl
  omega

/-- A certificate has one CN header: the OID's first place decides everything after it. -/
theorem CnHeader.unique {W : Word} {der : List UInt8} {pos pos' : Nat} {tag tag' : UInt8} {tl tl' : List UInt8}
    {len len' consumed consumed' : Nat} (h : CnHeader W der pos tag tl len consumed)
    (h' : CnHeader W der pos' tag' tl' len' consumed') : pos' = pos ∧ len' = len ∧ consumed' = consumed := by
  have hpos : pos' = pos := by simpa [h.found] using h'.found.symm
  subst hpos
  have ha := h'.after
  rw [h.after] at ha
  obtain ⟨-, rfl⟩ := List.cons.inj ha
  have hl := h'.length
  rw [h.length, Option.some.injEq, Prod.mk.injEq] at hl
  exact ⟨rfl, hl.1.symm, hl.2.symm⟩

/-- The scanner returns no CN, or has read a CN header and goes on to its value. -/
theorem parseCnFromDer_cases (b : Build) (W : Word) (der : Bytes W) :
    (parseCnFromDer b W der.data = .ok none ∧ ¬∃ pos tag tl len consumed, CnHeader W der.data pos tag tl len consumed) ∨
      ∃ pos tag tl len consumed, CnHeader W der.data pos tag tl len consumed ∧
        parseCnFromDer b W der.data = cnValue b W der.data (pos + 4 + consumed) len := by
  have hfit := der.fits
  have hhalf := W.two_mul_half
  have hge := W.half_ge
  cases hpos : cnPosition der.data with
  | none =>
    left
    refine ⟨by simp [parseCnFromDer, hpos]; rfl, ?_⟩
    rintro ⟨pos, tag, tl, len, consumed, h⟩
    rw [h.found] at hpos
    cases hpos
  | some pos =>
    have hlt := cnPosition_lt hpos
    have hadd : add b W pos cnOid.length = .ok (pos + 3) := add_ok (by simp [cnOid]; omega)
    have hadd1 : add b W (pos + 3) 1 = .ok (pos + 4) := add_ok (by omega)
    cases hdrop : der.data.drop (pos + 3) with
    | nil =>
      left
      have hend : der.data.length ≤ pos + 3 := by simpa using hdrop
      refine ⟨by simp [parseCnFromDer, hpos, hadd, hend, bind, Except.bind, pure, Except.pure], ?_⟩
      rintro ⟨pos', tag, tl, len, consumed, h⟩
      obtain rfl : pos' = pos := by simpa [hpos] using h.found.symm
      rw [h.after] at hdrop
      cases hdrop
    | cons tag tl =>
      have hin : ¬der.data.length ≤ pos + 3 := by
        intro hle
        rw [List.drop_eq_nil_of_le hle] at hdrop
        cases hdrop
      have hidx : index der.data (pos + 3) = .ok tag := by
        apply index_ok
        have := congrArg (·[0]?) hdrop
        simpa using this
      have htl : der.data.drop (pos + 4) = tl := by
        have := congrArg (·.drop 1) hdrop
        simpa using this
      by_cases htag : tag = 0x0C ∨ tag = 0x13
      · cases hlen : derLength W tl with
        | none =>
          left
          constructor
          · by_cases hend : der.data.length ≤ pos + 4
            · simp [parseCnFromDer, hpos, hadd, hadd1, hin, hidx, hend, bind, Except.bind, pure, Except.pure]
            · have hsl : slice der.data (pos + 4) der.data.length = .ok tl := by
                rw [slice_ok (by omega) (Nat.le_refl _), htl, List.take_of_length_le (by simp [← htl])]
              have htag' : ¬(tag ≠ 0x0C ∧ tag ≠ 0x13) := by tauto
              simp [parseCnFromDer, hpos, hadd, hadd1, hin, hidx, hend, htag', hsl, parseDerLength_eq, hlen, bind,
                Except.bind, pure, Except.pure]
          · rintro ⟨pos', tag', tl', len, consumed, h⟩
            obtain rfl : pos' = pos := by simpa [hpos] using h.found.symm
            have := h.after
            rw [hdrop] at this
            obtain ⟨-, rfl⟩ := List.cons.inj this
            rw [h.length] at hlen
            cases hlen
        | some lc =>
          obtain ⟨len, consumed⟩ := lc
          right
          refine ⟨pos, tag, tl, len, consumed, ⟨hpos, hdrop, htag, hlen⟩, ?_⟩
          have hc := (derLength_bounds hlen).2
          have htlen : tl.length = der.data.length - (pos + 4) := by simp [← htl]
          have hend : ¬der.data.length ≤ pos + 4 := by
            intro hle
            have : tl = [] := by rw [← htl]; exact List.drop_eq_nil_of_le hle
            rw [this] at hlen
            simp [derLength] at hlen
          have hsl : slice der.data (pos + 4) der.data.length = .ok tl := by
            rw [slice_ok (by omega) (Nat.le_refl _), htl, List.take_of_length_le (by simp [← htl])]
          have htag' : ¬(tag ≠ 0x0C ∧ tag ≠ 0x13) := by tauto
          have hadd2 : add b W (pos + 4) consumed = .ok (pos + 4 + consumed) := add_ok (by omega)
          simp [parseCnFromDer, hpos, hadd, hadd1, hin, hidx, hend, htag', hsl, parseDerLength_eq, hlen, hadd2, bind,
            Except.bind]
      · left
        have htag' : tag ≠ 0x0C ∧ tag ≠ 0x13 := by tauto
        refine ⟨by simp [parseCnFromDer, hpos, hadd, hin, hidx, htag', bind, Except.bind, pure, Except.pure], ?_⟩
        rintro ⟨pos', tag', tl', len, consumed, h⟩
        obtain rfl : pos' = pos := by simpa [hpos] using h.found.symm
        have := h.after
        rw [hdrop] at this
        obtain ⟨rfl, -⟩ := List.cons.inj this
        exact htag h.string

/-- Reading the value faults exactly when its end does not fit in a word: checked, the addition panics; wrapped, the slice
ends before it starts. -/
theorem noFault_cnValue_iff (b : Build) (W : Word) (der : Bytes W) (start len : Nat) (hs : start ≤ der.data.length)
    (hl : len < W.modulus) : NoFault (cnValue b W der.data start len) ↔ start + len < W.modulus := by
  by_cases hsum : start + len < W.modulus
  · have hadd : add b W start len = .ok (start + len) := add_ok hsum
    simp only [cnValue, hadd, hsum, iff_true, bind, Except.bind]
    split
    · exact ⟨none, rfl⟩
    · rw [slice_ok (by omega) (by omega)]
      exact ⟨_, rfl⟩
  · simp only [hsum, iff_false]
    cases b with
    | debug =>
      have hadd : add .debug W start len = .error .addOverflow := by simp [add, hsum]
      simp [cnValue, hadd, bind, Except.bind]
    | release =>
      have hfit := der.fits
      have hhalf := W.two_mul_half
      have hwrap : (start + len) % W.modulus = start + len - W.modulus := by
        rw [Nat.mod_eq_sub_mod (by omega), Nat.mod_eq_of_lt (by omega)]
      have hadd : add .release W start len = .ok (start + len - W.modulus) := by simp [add, hsum, hwrap]
      have hend : ¬start + len - W.modulus > der.data.length := by omega
      simp [cnValue, hadd, hend, slice_of_lt (show start + len - W.modulus < start by omega), bind, Except.bind]

/-- The overflowing certificates are those with a CN header whose value ends past the last word. -/
theorem lengthOverflows_iff (W : Word) (der : Bytes W) :
    LengthOverflows W der.data ↔
      ∃ pos tag tl len consumed, CnHeader W der.data pos tag tl len consumed ∧ W.modulus ≤ pos + 4 + consumed + len := by
  constructor
  · rintro ⟨pos, tag, first, rest, hpos, hdrop, htag, hlong, hn, hover⟩
    refine ⟨pos, tag, first :: rest, beValue (rest.take (first.toNat % 128)) % W.modulus, 1 + first.toNat % 128,
      ⟨hpos, hdrop, htag, ?_⟩, ?_⟩
    · have hlong' : 128 < first.toNat := hlong
      have hf : first.toNat < 256 := first.toNat_lt
      have hshort : ¬first < 0x80 := by
        intro h
        have : first.toNat < 128 := h
        omega
      have hne : ¬(first.toNat % 128 = 0 ∨ rest.length < first.toNat % 128) := by omega
      simp [derLength, hshort, hne]
    · omega
  · rintro ⟨pos, tag, tl, len, consumed, h, hover⟩
    have hfit := der.fits
    have hhalf := W.two_mul_half
    have hge := W.half_ge
    have hs := h.start_le
    cases tl with
    | nil =>
      have := h.length
      simp [derLength] at this
    | cons first rest =>
      have hl := h.length
      have hf : first.toNat < 256 := first.toNat_lt
      simp only [derLength] at hl
      split at hl
      · -- a short form adds less than 128 to an offset of the certificate
        simp only [Option.some.injEq, Prod.mk.injEq] at hl
        omega
      · rename_i hshort
        split at hl
        · cases hl
        · rename_i hne
          simp only [Option.some.injEq, Prod.mk.injEq] at hl
          obtain ⟨rfl, rfl⟩ := hl
          have hlong : ¬first.toNat < 128 := hshort
          refine ⟨pos, tag, first, rest, h.found, h.after, h.string, ?_, by omega, by omega⟩
          have : (128 : Nat) < first.toNat := by omega
          exact this

/-- The scanner faults exactly on the certificates whose CN length overflows. -/
theorem noFault_parseCnFromDer_iff (b : Build) (W : Word) (der : Bytes W) :
    NoFault (parseCnFromDer b W der.data) ↔ ¬LengthOverflows W der.data := by
  rw [lengthOverflows_iff]
  rcases parseCnFromDer_cases b W der with ⟨hnone, hno⟩ | ⟨pos, tag, tl, len, consumed, h, heq⟩
  · rw [hnone]
    simp only [noFault_ok, true_iff]
    rintro ⟨pos, tag, tl, len, consumed, h, -⟩
    exact hno ⟨pos, tag, tl, len, consumed, h⟩
  · rw [heq, noFault_cnValue_iff b W der _ _ h.start_le (derLength_bounds h.length).1]
    constructor
    · rintro hlt ⟨pos', tag', tl', len', consumed', h', hover⟩
      obtain ⟨rfl, rfl, rfl⟩ := h.unique h'
      omega
    · intro hno
      by_contra hover
      exact hno ⟨pos, tag, tl, len, consumed, h, by omega⟩

/-- The bytes of a text read from bytes are those bytes. -/
theorem toUTF8_of_fromUTF8? {bytes : List UInt8} {s : String} (h : String.fromUTF8? ⟨bytes.toArray⟩ = some s) :
    s.toUTF8.data.toList = bytes := by
  unfold String.fromUTF8? at h
  split at h
  · obtain rfl := Option.some.inj h
    rfl
  · cases h

/-- A CN the scanner returns is a run of the certificate's own bytes. -/
theorem parseCnFromDer_subslice {b : Build} {W : Word} {der : Bytes W} {cn : String}
    (h : parseCnFromDer b W der.data = .ok (some cn)) :
    ∃ pre post, der.data = pre ++ cn.toUTF8.data.toList ++ post := by
  rcases parseCnFromDer_cases b W der with ⟨hnone, -⟩ | ⟨pos, tag, tl, len, consumed, hh, heq⟩
  · rw [hnone] at h
    cases h
  · rw [heq] at h
    have hnf : pos + 4 + consumed + len < W.modulus := by
      rw [← noFault_cnValue_iff b W der _ _ hh.start_le (derLength_bounds hh.length).1]
      exact ⟨_, h⟩
    simp only [cnValue, add_ok hnf, bind, Except.bind] at h
    split at h
    · cases h
    · rename_i hend
      rw [slice_ok (by omega) (by omega)] at h
      simp only [pure, Except.pure, Except.ok.injEq] at h
      refine ⟨der.data.take (pos + 4 + consumed), (der.data.drop (pos + 4 + consumed)).drop len, ?_⟩
      rw [toUTF8_of_fromUTF8? h, List.append_assoc, show pos + 4 + consumed + len - (pos + 4 + consumed) = len by omega,
        List.take_append_drop, List.take_append_drop]

end DoubleSlash.Tls
