import DoubleSlash.Files.Encoding
import DoubleSlash.Lemmas.Encoding

/-!
# Deltas are lossless, and applying one is bounded

Where no addition overflows, the word-level loop applies the instructions as `applyOps` does. The addition that finds the end of an
INSERT can overflow a word of 32 bits, and nothing else can.
-/

namespace DoubleSlash.Files

open Machine

/-- An instruction of a delta. -/
inductive Instruction where
  | copy (src len : Nat)
  | insert (seg : List UInt8)

namespace Instruction

/-- How it is written. -/
def bytes : Instruction → List UInt8
  | .copy src len => 0 :: (toBe32 src ++ toBe32 len)
  | .insert seg => 1 :: (toBe32 seg.length ++ seg)

/-- What it builds. -/
def built (old : List UInt8) : Instruction → List UInt8
  | .copy src len => (old.drop src).take len
  | .insert seg => seg

/-- Its numbers can be written, and a COPY lies inside the old file. -/
def Fits (old : List UInt8) : Instruction → Prop
  | .copy src len => src < 2 ^ 32 ∧ len < 2 ^ 32 ∧ src + len ≤ old.length
  | .insert seg => seg.length < 2 ^ 32

end Instruction

/-- From an offset on, with so much built already, instructions that can be applied lead to an INSERT whose end is no word. -/
def OverrunsFrom (W : Word) (old raw : List UInt8) (off done : Nat) : Prop :=
  ∃ (instrs : List Instruction) (len : Nat) (rest : List UInt8),
    raw = instrs.flatMap Instruction.bytes ++ 1 :: (toBe32 len ++ rest) ∧ len < 2 ^ 32 ∧ (∀ i ∈ instrs, i.Fits old) ∧
      done + (instrs.flatMap (Instruction.built old)).length ≤ inlineMax ∧
        W.modulus ≤ off + (instrs.flatMap Instruction.bytes).length + 5 + len

/-- The instructions of a delta lead there. -/
def Overruns (z : Zlib) (W : Word) (old delta : List UInt8) : Prop :=
  delta.take 4 = deltaMagic ∧
    ∃ raw, zlibDecompress z (delta.drop 4) maxDeltaBytes = .ok raw ∧ OverrunsFrom W old raw 0 0

namespace DeltaEncodingAux

open EncodingAux

variable {b : Build} {W : Word} {old raw : List UInt8}

theorem modulus_ge (W : Word) : 2 ^ 32 ≤ W.modulus := by
  cases W <;> decide

theorem half_lt_modulus (W : Word) : 2 ^ (W.bits - 1) + 1 < W.modulus := by
  cases W <;> decide

/-- A sum that saturates is too large exactly when the sum is. -/
theorem lt_saturatingAdd {bound x y : Nat} (h : bound + 1 < W.modulus) : bound < saturatingAdd W x y ↔ bound < x + y := by
  unfold saturatingAdd
  omega

theorem ofBe32_lt {bytes : List UInt8} (h : bytes.length ≤ 4) : ofBe32 bytes < 2 ^ 32 := by
  have hlt : ∀ cs : List UInt8, ofBe32 cs < 256 ^ cs.length := by
    intro cs
    induction cs using List.reverseRecOn with
    | nil => decide
    | append_singleton cs c ih =>
      have hc := c.toNat_lt
      have hsnoc : ofBe32 (cs ++ [c]) = 256 * ofBe32 cs + c.toNat := by simp [ofBe32]
      rw [hsnoc, List.length_append, List.length_singleton, Nat.pow_succ]
      omega
  exact lt_of_lt_of_le (hlt bytes) (Nat.pow_le_pow_right (by decide) h)

theorem zlibDecompress_le {z : Zlib} {data : List UInt8} {limit : Nat} (h : zlibDecompress z data limit = .ok raw) :
    raw.length ≤ limit := by
  unfold zlibDecompress at h
  split at h
  · cases h
  · split at h
    · cases h
    next hle =>
      rw [← Except.ok.inj h]
      omega

/-- How the addition that finds the end of an INSERT fails. -/
def overrun {α : Type} : Build → Except Fault (Except String α)
  | .debug => .error .addOverflow
  | .release => .ok (.error "delta output exceeds INLINE_MAX")

/-- A turn at a COPY. -/
theorem copyTurn_eq {off : Nat} {rest : List UInt8} (out : List UInt8) (hrest : raw.drop off = rest) (hoff : off ≤ raw.length)
    (hraw : raw.length ≤ maxDeltaBytes) (hold : old.length < 2 ^ (W.bits - 1)) :
    copyTurn b W old raw off out =
      if rest.length < 8 then .ok (.error "truncated COPY")
      else if old.length < ofBe32 (rest.take 4) + ofBe32 ((rest.drop 4).take 4) then .ok (.error "COPY out of range")
      else if inlineMax < out.length + ofBe32 ((rest.drop 4).take 4) then .ok (.error "delta output exceeds INLINE_MAX")
      else .ok (.ok (off + 8, out ++ (old.drop (ofBe32 (rest.take 4))).take (ofBe32 ((rest.drop 4).take 4)))) := by
  have hmodulus := modulus_ge W
  have hhalf := half_lt_modulus W
  have hmax : maxDeltaBytes + 9 < 2 ^ 32 := by decide
  have hinline : inlineMax + 1 < 2 ^ 32 := by decide
  have hlength : rest.length = raw.length - off := by rw [← hrest, List.length_drop]
  have hstop : add b W off 8 = .ok (off + 8) := add_ok (by omega)
  have hmid : add b W off 4 = .ok (off + 4) := add_ok (by omega)
  unfold copyTurn
  by_cases hshort : rest.length < 8
  · have hend : raw.length < off + 8 := by omega
    simp only [hstop, bind, Except.bind, if_pos hend, if_pos hshort, pure, Except.pure]
  · have hend : ¬raw.length < off + 8 := by omega
    have hsrc : Machine.slice raw off (off + 4) = .ok (rest.take 4) := by
      rw [slice_ok (by omega) (by omega), hrest, Nat.add_sub_cancel_left]
    have hlen : Machine.slice raw (off + 4) (off + 8) = .ok ((rest.drop 4).take 4) := by
      rw [slice_ok (by omega) (by omega), ← List.drop_drop, hrest, Nat.add_sub_add_left]
    simp only [hstop, hmid, hsrc, hlen, bind, Except.bind, if_neg hend, if_neg hshort, pure, Except.pure]
    generalize ofBe32 (rest.take 4) = src
    generalize ofBe32 ((rest.drop 4).take 4) = len
    have hrange : old.length < saturatingAdd W src len ↔ old.length < src + len := lt_saturatingAdd (by omega)
    have hroom : inlineMax < saturatingAdd W out.length len ↔ inlineMax < out.length + len := lt_saturatingAdd (by omega)
    simp only [hrange, hroom]
    split
    · rfl
    · split
      · rfl
      next hin _ =>
        have hupto : add b W src len = .ok (src + len) := add_ok (by omega)
        rw [hupto]
        simp only [slice_ok (show src ≤ src + len by omega) (show src + len ≤ old.length by omega), Nat.add_sub_cancel_left]

/-- A turn at an INSERT. -/
theorem insertTurn_eq {off : Nat} {rest : List UInt8} (out : List UInt8) (hrest : raw.drop off = rest) (hoff : off ≤ raw.length)
    (hraw : raw.length ≤ maxDeltaBytes) :
    insertTurn b W raw off out =
      if rest.length < 4 then .ok (.error "truncated INSERT")
      else if W.modulus ≤ off + 4 + ofBe32 (rest.take 4) then
        overrun b
      else if (rest.drop 4).length < ofBe32 (rest.take 4) then .ok (.error "INSERT past end")
      else if inlineMax < out.length + ofBe32 (rest.take 4) then .ok (.error "delta output exceeds INLINE_MAX")
      else .ok (.ok (off + 4 + ofBe32 (rest.take 4), out ++ (rest.drop 4).take (ofBe32 (rest.take 4)))) := by
  have hmodulus := modulus_ge W
  have hmax : maxDeltaBytes + inlineMax + 9 < 2 ^ 32 := by decide
  have hlength : rest.length = raw.length - off := by rw [← hrest, List.length_drop]
  have hstart : add b W off 4 = .ok (off + 4) := add_ok (by omega)
  unfold insertTurn
  by_cases hshort : rest.length < 4
  · have hend : raw.length < off + 4 := by omega
    simp only [hstart, bind, Except.bind, if_pos hend, if_pos hshort, pure, Except.pure]
  · have hend : ¬raw.length < off + 4 := by omega
    have hlen : Machine.slice raw off (off + 4) = .ok (rest.take 4) := by
      rw [slice_ok (by omega) (by omega), hrest, Nat.add_sub_cancel_left]
    have hfour : ofBe32 (rest.take 4) < 2 ^ 32 := ofBe32_lt (List.length_take_le _ _)
    have hbody : (rest.drop 4).length = raw.length - (off + 4) := by
      rw [List.length_drop]
      omega
    have hafter : raw.drop (off + 4) = rest.drop 4 := by rw [← List.drop_drop, hrest]
    simp only [hstart, hlen, bind, Except.bind, if_neg hend, if_neg hshort, pure, Except.pure]
    generalize ofBe32 (rest.take 4) = len at hfour ⊢
    have hroom : inlineMax < saturatingAdd W out.length len ↔ inlineMax < out.length + len := lt_saturatingAdd (by omega)
    by_cases hover : W.modulus ≤ off + 4 + len
    · rw [if_pos hover]
      cases b with
      | debug =>
        have hadd : add .debug W (off + 4) len = .error .addOverflow := if_neg (by omega)
        rw [hadd]
        rfl
      | release =>
        -- the sum wraps to an offset that was passed, and the length is still too large
        have hwrap : (off + 4 + len) % W.modulus = off + 4 + len - W.modulus := by
          rw [Nat.mod_eq_sub_mod hover, Nat.mod_eq_of_lt (by omega)]
        have hadd : add .release W (off + 4) len = .ok (off + 4 + len - W.modulus) := by
          rw [← hwrap]
          exact if_neg (by omega)
        rw [hadd]
        dsimp only
        rw [if_neg (by omega), if_pos (hroom.mpr (by omega))]
        rfl
    · rw [if_neg hover, add_ok (by omega)]
      have hpast : raw.length < off + 4 + len ↔ (rest.drop 4).length < len := by omega
      simp only [hpast, hroom]
      split
      · rfl
      · split
        · rfl
        · simp only [slice_ok (show off + 4 ≤ off + 4 + len by omega) (show off + 4 + len ≤ raw.length by omega), hafter,
            Nat.add_sub_cancel_left]

/-! ### Where an INSERT overruns -/

theorem toBe32_ofBe32 {bytes : List UInt8} (h : bytes.length = 4) : toBe32 (ofBe32 bytes) = bytes := by
  obtain ⟨a, b, c, d, rfl⟩ := List.length_eq_four.mp h
  have ha := a.toNat_lt
  have hb := b.toNat_lt
  have hc := c.toNat_lt
  have hd := d.toNat_lt
  simp only [ofBe32, toBe32, List.foldl_cons, List.foldl_nil, List.cons.injEq, and_true, ← UInt8.toNat_inj, UInt8.toNat_ofNat']
  omega

/-- A number at the front of the bytes is read back. -/
theorem read_number {n : Nat} (hn : n < 2 ^ 32) (tail : List UInt8) :
    ofBe32 ((toBe32 n ++ tail).take 4) = n ∧ (toBe32 n ++ tail).drop 4 = tail ∧ (toBe32 n ++ tail).length = tail.length + 4 := by
  refine ⟨?_, List.drop_left' rfl, ?_⟩
  · rw [List.take_left' (length_toBe32 n), ofBe32_toBe32 hn]
  · rw [List.length_append, length_toBe32, Nat.add_comm]

/-- Four bytes are those of their number. -/
theorem write_number {bytes : List UInt8} (h : 4 ≤ bytes.length) : toBe32 (ofBe32 (bytes.take 4)) ++ bytes.drop 4 = bytes := by
  rw [toBe32_ofBe32 (by rw [List.length_take]; omega), List.take_append_drop]

theorem not_overrunsFrom_nil {off done : Nat} : ¬OverrunsFrom W old [] off done := by
  rintro ⟨instrs, len, rest, hraw, -⟩
  simp at hraw

theorem overrunsFrom_tag {tag : UInt8} {rest : List UInt8} {off done : Nat} (h : OverrunsFrom W old (tag :: rest) off done) :
    tag = 0 ∨ tag = 1 := by
  obtain ⟨instrs, len, more, hraw, -⟩ := h
  cases instrs with
  | nil => exact Or.inr (List.cons.inj hraw).1
  | cons i instrs =>
    cases i with
    | copy src n => exact Or.inl (List.cons.inj hraw).1
    | insert seg => exact Or.inr (List.cons.inj hraw).1

theorem overrunsFrom_copy {rest : List UInt8} {off done : Nat} : OverrunsFrom W old (0 :: rest) off done ↔
    8 ≤ rest.length ∧ ofBe32 (rest.take 4) + ofBe32 ((rest.drop 4).take 4) ≤ old.length ∧
      done + ofBe32 ((rest.drop 4).take 4) ≤ inlineMax ∧
        OverrunsFrom W old (rest.drop 8) (off + 9) (done + ofBe32 ((rest.drop 4).take 4)) := by
  have hbuilt : ∀ src n, src + n ≤ old.length → ((old.drop src).take n).length = n := by
    intro src n hin
    rw [List.length_take, List.length_drop]
    omega
  constructor
  · rintro ⟨instrs, len, more, hraw, hlen, hfits, hdone, hover⟩
    cases instrs with
    | nil => exact absurd (List.cons.inj hraw).1 (by decide)
    | cons i instrs =>
      cases i with
      | insert seg => exact absurd (List.cons.inj hraw).1 (by decide)
      | copy src n =>
        obtain ⟨hsrc, hn, hin⟩ := hfits _ List.mem_cons_self
        obtain ⟨hsrc', hdrop, hlength⟩ :=
          read_number hsrc (toBe32 n ++ (instrs.flatMap Instruction.bytes ++ 1 :: (toBe32 len ++ more)))
        obtain ⟨hn', hdrop', hlength'⟩ := read_number hn (instrs.flatMap Instruction.bytes ++ 1 :: (toBe32 len ++ more))
        obtain rfl : rest = toBe32 src ++ (toBe32 n ++ (instrs.flatMap Instruction.bytes ++ 1 :: (toBe32 len ++ more))) := by
          simpa [Instruction.bytes] using hraw
        simp only [List.flatMap_cons, List.length_append, Instruction.built, Instruction.bytes, List.length_cons, length_toBe32,
          hbuilt src n hin] at hdone hover
        rw [hsrc', hdrop, hn', show (8 : Nat) = 4 + 4 from rfl, ← List.drop_drop, hdrop, hdrop']
        refine ⟨by omega, hin, by omega, instrs, len, more, rfl, hlen, fun i hi => hfits i (List.mem_cons_of_mem _ hi), ?_, ?_⟩
        · omega
        · omega
  · rintro ⟨hlong, hin, hroom, instrs, len, more, hraw, hlen, hfits, hdone, hover⟩
    have hsrc : ofBe32 (rest.take 4) < 2 ^ 32 := ofBe32_lt (List.length_take_le _ _)
    have hn : ofBe32 ((rest.drop 4).take 4) < 2 ^ 32 := ofBe32_lt (List.length_take_le _ _)
    refine ⟨.copy (ofBe32 (rest.take 4)) (ofBe32 ((rest.drop 4).take 4)) :: instrs, len, more, ?_, hlen, ?_, ?_, ?_⟩
    · rw [List.flatMap_cons, Instruction.bytes, List.cons_append, List.cons_append, List.append_assoc, List.append_assoc, ← hraw,
        show (8 : Nat) = 4 + 4 from rfl, ← List.drop_drop, write_number (by rw [List.length_drop]; omega), write_number (by omega)]
    · intro i hi
      rcases List.mem_cons.mp hi with rfl | hi
      · exact ⟨hsrc, hn, hin⟩
      · exact hfits i hi
    · rw [List.flatMap_cons, List.length_append, Instruction.built, hbuilt _ _ hin]
      omega
    · rw [List.flatMap_cons, List.length_append, Instruction.bytes, List.length_cons, List.length_append, length_toBe32, length_toBe32]
      omega

theorem overrunsFrom_insert {rest : List UInt8} {off done : Nat} (hdone : done ≤ inlineMax) :
    OverrunsFrom W old (1 :: rest) off done ↔
      4 ≤ rest.length ∧ (W.modulus ≤ off + 5 + ofBe32 (rest.take 4) ∨
        (ofBe32 (rest.take 4) ≤ (rest.drop 4).length ∧ done + ofBe32 (rest.take 4) ≤ inlineMax ∧
          OverrunsFrom W old ((rest.drop 4).drop (ofBe32 (rest.take 4))) (off + 5 + ofBe32 (rest.take 4))
            (done + ofBe32 (rest.take 4)))) := by
  constructor
  · rintro ⟨instrs, len, more, hraw, hlen, hfits, hroom, hover⟩
    cases instrs with
    | nil =>
      obtain rfl : rest = toBe32 len ++ more := (List.cons.inj hraw).2
      obtain ⟨hlen', -, hlength⟩ := read_number hlen more
      rw [hlen']
      exact ⟨by omega, Or.inl (by simpa using hover)⟩
    | cons i instrs =>
      cases i with
      | copy src n => exact absurd (List.cons.inj hraw).1 (by decide)
      | insert seg =>
        have hseg : seg.length < 2 ^ 32 := hfits _ List.mem_cons_self
        obtain ⟨hn, hdrop, hlength⟩ := read_number hseg (seg ++ (instrs.flatMap Instruction.bytes ++ 1 :: (toBe32 len ++ more)))
        obtain rfl : rest = toBe32 seg.length ++ (seg ++ (instrs.flatMap Instruction.bytes ++ 1 :: (toBe32 len ++ more))) := by
          simpa [Instruction.bytes] using hraw
        simp only [List.flatMap_cons, List.length_append, Instruction.built, Instruction.bytes, List.length_cons,
          length_toBe32] at hroom hover
        rw [hn, hdrop, List.drop_left]
        refine ⟨by omega, Or.inr ⟨by rw [List.length_append]; omega, by omega, instrs, len, more, rfl, hlen,
          fun i hi => hfits i (List.mem_cons_of_mem _ hi), ?_, ?_⟩⟩
        · omega
        · omega
  · rintro ⟨hlong, hover | ⟨hin, hroom, instrs, len, more, hraw, hlen, hfits, hthen, hover⟩⟩
    · refine ⟨[], ofBe32 (rest.take 4), rest.drop 4, ?_, ofBe32_lt (List.length_take_le _ _), ?_, by simpa using hdone, by simpa using hover⟩
      · rw [write_number hlong]
        rfl
      · intro i hi
        cases hi
    · have hn : ofBe32 (rest.take 4) < 2 ^ 32 := ofBe32_lt (List.length_take_le _ _)
      have hseg : ((rest.drop 4).take (ofBe32 (rest.take 4))).length = ofBe32 (rest.take 4) := by
        rw [List.length_take]
        omega
      refine ⟨.insert ((rest.drop 4).take (ofBe32 (rest.take 4))) :: instrs, len, more, ?_, hlen, ?_, ?_, ?_⟩
      · rw [List.flatMap_cons, Instruction.bytes, hseg, List.cons_append, List.cons_append, List.append_assoc, List.append_assoc, ← hraw,
          List.take_append_drop, write_number hlong]
      · intro i hi
        rcases List.mem_cons.mp hi with rfl | hi
        · exact lt_of_eq_of_lt hseg hn
        · exact hfits i hi
      · rw [List.flatMap_cons, List.length_append, Instruction.built, hseg]
        omega
      · rw [List.flatMap_cons, List.length_append, Instruction.bytes, List.length_cons, List.length_append, length_toBe32, hseg]
        omega

/-! ### The loop -/

/-- A turn, at the tag and what comes after it. -/
theorem deltaTurn_eq {off : Nat} {tag : UInt8} {rest : List UInt8} (out : List UInt8) (hrest : raw.drop off = tag :: rest)
    (hraw : raw.length ≤ maxDeltaBytes) :
    off < raw.length ∧ raw.drop (off + 1) = rest ∧ deltaTurn b W old raw off out =
      if tag = 0 then copyTurn b W old raw (off + 1) out
      else if tag = 1 then insertTurn b W raw (off + 1) out
      else .ok (.error ("Unknown opcode: " ++ tag.toNat.repr)) := by
  have hmodulus := modulus_ge W
  have hmax : maxDeltaBytes + 9 < 2 ^ 32 := by decide
  have hlength := congrArg List.length hrest
  rw [List.length_drop, List.length_cons] at hlength
  have hlt : off < raw.length := by omega
  have htag : index raw off = .ok tag := by
    refine index_ok ?_
    have hhead := congrArg List.head? hrest
    rw [List.head?_drop] at hhead
    exact hhead
  have hadd : add b W off 1 = .ok (off + 1) := add_ok (by omega)
  refine ⟨hlt, ?_, ?_⟩
  · rw [← List.drop_drop, hrest]
    rfl
  · unfold deltaTurn
    simp only [htag, hadd, bind, Except.bind, pure, Except.pure]

/-- **The loop ends**, where an INSERT overruns or with what the instructions come to. Where one overruns they come to nothing. -/
theorem deltaLoop_eq (hraw : raw.length ≤ maxDeltaBytes) (hold : old.length < 2 ^ (W.bits - 1)) (turns off : Nat) (out : List UInt8)
    (hturns : raw.length ≤ off + turns) (hout : out.length ≤ inlineMax) :
    (OverrunsFrom W old (raw.drop off) off out.length ∧ deltaLoop b W old raw turns off out = some (overrun b) ∧
      ∀ res, applyOps old (raw.drop off) out ≠ .ok res) ∨
    (¬OverrunsFrom W old (raw.drop off) off out.length ∧
      deltaLoop b W old raw turns off out = some (.ok (applyOps old (raw.drop off) out))) := by
  induction turns generalizing off out with
  | zero =>
    have hend : raw.length ≤ off := hturns
    rw [List.drop_eq_nil_of_le hend, deltaLoop, if_pos hend, applyOps]
    exact Or.inr ⟨not_overrunsFrom_nil, rfl⟩
  | succ turns ih =>
    cases hrest : raw.drop off with
    | nil =>
      rw [deltaLoop, if_pos (List.drop_eq_nil_iff.mp hrest), applyOps]
      exact Or.inr ⟨not_overrunsFrom_nil, rfl⟩
    | cons tag rest =>
      obtain ⟨hlt, hafter, hturn⟩ := @deltaTurn_eq b W old _ _ _ _ out hrest hraw
      rw [deltaLoop, if_neg (by omega), hturn, applyOps]
      by_cases hcopy : tag = 0
      · subst hcopy
        rw [if_pos rfl, if_pos rfl, copyTurn_eq out hafter hlt hraw hold, overrunsFrom_copy]
        by_cases hshort : rest.length < 8
        · rw [if_pos hshort, if_pos hshort]
          exact Or.inr ⟨fun h => absurd h.1 (by omega), rfl⟩
        rw [if_neg hshort, if_neg hshort]
        have hnext : raw.drop (off + 9) = rest.drop 8 := by rw [← hafter, List.drop_drop]
        generalize hsrc : ofBe32 (rest.take 4) = src
        generalize hlen : ofBe32 ((rest.drop 4).take 4) = len
        dsimp only
        by_cases hrange : old.length < src + len
        · rw [if_pos hrange, if_pos hrange]
          exact Or.inr ⟨fun h => absurd h.2.1 (by omega), rfl⟩
        rw [if_neg hrange, if_neg hrange]
        by_cases hroom : inlineMax < out.length + len
        · rw [if_pos hroom, if_pos hroom]
          exact Or.inr ⟨fun h => absurd h.2.2.1 (by omega), rfl⟩
        rw [if_neg hroom, if_neg hroom]
        have hbuilt : (out ++ (old.drop src).take len).length = out.length + len := by
          rw [List.length_append, List.length_take, List.length_drop]
          omega
        have hthen := ih (off + 9) (out ++ (old.drop src).take len) (by omega) (by omega)
        rw [hnext, hbuilt] at hthen
        rcases hthen with ⟨hover, hloop, hnothing⟩ | ⟨hover, hloop⟩
        · exact Or.inl ⟨⟨by omega, by omega, by omega, hover⟩, hloop, hnothing⟩
        · exact Or.inr ⟨fun h => hover h.2.2.2, hloop⟩
      rw [if_neg hcopy, if_neg hcopy]
      by_cases hinsert : tag = 1
      · subst hinsert
        rw [if_pos rfl, if_pos rfl, insertTurn_eq out hafter hlt hraw, overrunsFrom_insert hout]
        by_cases hshort : rest.length < 4
        · rw [if_pos hshort, if_pos hshort]
          exact Or.inr ⟨fun h => absurd h.1 (by omega), rfl⟩
        rw [if_neg hshort, if_neg hshort]
        have hbody : raw.drop (off + 5) = rest.drop 4 := by rw [← hafter, List.drop_drop]
        generalize hlen : ofBe32 (rest.take 4) = len
        dsimp only
        by_cases hover : W.modulus ≤ off + 1 + 4 + len
        · rw [if_pos hover]
          have hpast : (rest.drop 4).length < len := by
            have hmodulus := modulus_ge W
            have hmax : maxDeltaBytes + maxDeltaBytes + 9 < 2 ^ 32 := by decide
            have hbody' := congrArg List.length hbody
            rw [List.length_drop] at hbody'
            omega
          rw [if_pos hpast]
          refine Or.inl ⟨⟨by omega, Or.inl (by omega)⟩, ?_, fun res h => by cases h⟩
          cases b with
          | debug => rfl
          | release => rfl
        rw [if_neg hover]
        by_cases hpast : (rest.drop 4).length < len
        · rw [if_pos hpast, if_pos hpast]
          exact Or.inr ⟨fun h => h.2.elim (fun h => by omega) fun h => absurd h.1 (by omega), rfl⟩
        rw [if_neg hpast, if_neg hpast]
        by_cases hroom : inlineMax < out.length + len
        · rw [if_pos hroom, if_pos hroom]
          exact Or.inr ⟨fun h => h.2.elim (fun h => by omega) fun h => absurd h.2.1 (by omega), rfl⟩
        rw [if_neg hroom, if_neg hroom]
        have hbuilt : (out ++ (rest.drop 4).take len).length = out.length + len := by
          rw [List.length_append, List.length_take]
          omega
        have hnext : raw.drop (off + 5 + len) = (rest.drop 4).drop len := by rw [← hbody, List.drop_drop]
        have hthen := ih (off + 5 + len) (out ++ (rest.drop 4).take len) (by omega) (by omega)
        rw [hnext, hbuilt] at hthen
        rcases hthen with ⟨hlater, hloop, hnothing⟩ | ⟨hlater, hloop⟩
        · exact Or.inl ⟨⟨by omega, Or.inr ⟨by omega, by omega, hlater⟩⟩, hloop, hnothing⟩
        · exact Or.inr ⟨fun h => h.2.elim (fun h => by omega) fun h => hlater h.2.2, hloop⟩
      · rw [if_neg hinsert, if_neg hinsert]
        exact Or.inr ⟨fun h => (overrunsFrom_tag h).elim hcopy hinsert, rfl⟩

/-! ### What instructions build -/

/-- What is built, is built by instructions that fit. -/
theorem applyOps_built (old raw out : List UInt8) {res : List UInt8} (hout : out.length ≤ inlineMax)
    (h : applyOps old raw out = .ok res) :
    res.length ≤ inlineMax ∧ ∃ instrs : List Instruction, raw = instrs.flatMap Instruction.bytes ∧ (∀ i ∈ instrs, i.Fits old) ∧
      res = out ++ instrs.flatMap (Instruction.built old) := by
  fun_induction applyOps old raw out with
  | case1 out =>
    obtain rfl := Except.ok.inj h
    exact ⟨hout, [], rfl, fun i hi => absurd hi List.not_mem_nil, (List.append_nil _).symm⟩
  | case5 out rest hshort src len hrange hroom ih =>
    have hbuilt : (out ++ (old.drop src).take len).length = out.length + len := by
      rw [List.length_append, List.length_take, List.length_drop]
      omega
    obtain ⟨hbound, instrs, hraw, hfits, hres⟩ := ih (by omega) h
    have hsrc : src < 2 ^ 32 := ofBe32_lt (List.length_take_le _ _)
    have hlen : len < 2 ^ 32 := ofBe32_lt (List.length_take_le _ _)
    refine ⟨hbound, .copy src len :: instrs, ?_, ?_, ?_⟩
    · rw [List.flatMap_cons, ← hraw, Instruction.bytes, List.cons_append, List.append_assoc, show (8 : Nat) = 4 + 4 from rfl,
        ← List.drop_drop, write_number (by rw [List.length_drop]; omega), write_number (by omega)]
    · intro i hi
      rcases List.mem_cons.mp hi with rfl | hi
      · exact ⟨hsrc, hlen, by omega⟩
      · exact hfits i hi
    · rw [hres, List.flatMap_cons, List.append_assoc]
      rfl
  | case9 out rest hshort len body hpast hroom hne ih =>
    have hseg : (body.take len).length = len := by
      rw [List.length_take]
      omega
    obtain ⟨hbound, instrs, hraw, hfits, hres⟩ := ih (by rw [List.length_append]; omega) h
    have hlen : len < 2 ^ 32 := ofBe32_lt (List.length_take_le _ _)
    refine ⟨hbound, .insert (body.take len) :: instrs, ?_, ?_, ?_⟩
    · rw [List.flatMap_cons, ← hraw, Instruction.bytes, hseg, List.cons_append, List.append_assoc, List.take_append_drop,
        write_number (by omega)]
    · intro i hi
      rcases List.mem_cons.mp hi with rfl | hi
      · exact lt_of_eq_of_lt hseg hlen
      · exact hfits i hi
    · rw [hres, List.flatMap_cons, List.append_assoc]
      rfl
  | _ => cases h

/-- What a delta makes, its instructions build. -/
theorem applyDelta_built {z : Zlib} {delta out : List UInt8} (h : applyDelta z old delta = .ok out) :
    out.length ≤ inlineMax ∧ ∃ (raw : List UInt8) (instrs : List Instruction),
      zlibDecompress z (delta.drop 4) maxDeltaBytes = .ok raw ∧ raw = instrs.flatMap Instruction.bytes ∧ (∀ i ∈ instrs, i.Fits old) ∧
        out = instrs.flatMap (Instruction.built old) := by
  unfold applyDelta at h
  split at h
  · cases h
  · split at h
    · cases h
    next raw hraw =>
      split at h
      · cases h
      · obtain ⟨hbound, instrs, hbytes, hfits, hout⟩ := applyOps_built old raw [] (Nat.zero_le _) h
        exact ⟨hbound, raw, instrs, hraw, hbytes, hfits, hout⟩

/-- A word of 64 bits holds the end of every INSERT. -/
theorem not_overruns_w64 (z : Zlib) (old delta : List UInt8) : ¬Overruns z .w64 old delta := by
  rintro ⟨-, raw, hraw, instrs, len, rest, rfl, hlen, -, -, hover⟩
  have hbound := zlibDecompress_le hraw
  have hmodulus : Word.w64.modulus = 2 ^ 64 := rfl
  have hmax : maxDeltaBytes < 2 ^ 32 := by decide
  rw [List.length_append] at hbound
  omega

/-- `apply_delta` overruns, or comes to what the instructions come to. -/
theorem applyDeltaWords_eq (z : Zlib) (delta : List UInt8) (hold : old.length < 2 ^ (W.bits - 1)) :
    (Overruns z W old delta ∧ applyDeltaWords b W old z delta = some (overrun b) ∧ ∀ res, applyDelta z old delta ≠ .ok res) ∨
      (¬Overruns z W old delta ∧ applyDeltaWords b W old z delta = some (.ok (applyDelta z old delta))) := by
  unfold applyDeltaWords applyDelta
  by_cases hmagic : delta.take 4 = deltaMagic
  · have hshort : ¬(delta.length < deltaMagic.length ∨ delta.take 4 ≠ deltaMagic) := by
      have hlength := congrArg List.length hmagic
      rw [List.length_take] at hlength
      rintro (h | h)
      · omega
      · exact h hmagic
    rw [if_neg hshort, if_neg (not_not.mpr hmagic)]
    cases hraw : zlibDecompress z (delta.drop 4) maxDeltaBytes with
    | error e =>
      refine Or.inr ⟨?_, rfl⟩
      rintro ⟨-, raw, hraw', -⟩
      rw [hraw] at hraw'
      cases hraw'
    | ok raw =>
      have hiff : Overruns z W old delta ↔ OverrunsFrom W old raw 0 0 := by
        constructor
        · rintro ⟨-, raw', hraw', hover⟩
          rw [hraw] at hraw'
          rwa [Except.ok.inj hraw']
        · exact fun hover => ⟨hmagic, raw, hraw, hover⟩
      dsimp only
      rw [hiff]
      by_cases hnil : raw = []
      · rw [if_pos hnil, if_pos hnil, hnil]
        exact Or.inr ⟨not_overrunsFrom_nil, rfl⟩
      · rw [if_neg hnil, if_neg hnil]
        exact deltaLoop_eq (zlibDecompress_le hraw) hold raw.length 0 [] (by omega) (Nat.zero_le _)
  · rw [if_pos (Or.inr hmagic), if_pos hmagic]
    exact Or.inr ⟨fun h => hmagic h.1, rfl⟩

end DeltaEncodingAux

open DeltaEncodingAux

/-- Applying a delta ends with an error or with a file that is not too large, which instructions build that copy from inside the old
file, and no addition overflows: a debug build checks them all. -/
def AppliesSafely (W : Word) (z : Zlib) (old delta : List UInt8) : Prop :=
  ∃ res, applyDeltaWords .debug W old z delta = some (.ok res) ∧ ∀ out, res = .ok out →
    out.length ≤ inlineMax ∧ ∃ (raw : List UInt8) (instrs : List Instruction),
      zlibDecompress z (delta.drop 4) maxDeltaBytes = .ok raw ∧ raw = instrs.flatMap Instruction.bytes ∧ (∀ i ∈ instrs, i.Fits old) ∧
        out = instrs.flatMap (Instruction.built old)

/-- **A delta gives the new file back, and every delta is applied safely unless an INSERT overruns.** A release build, where the
addition wraps, refuses the overrun; a word of 64 bits has none. -/
theorem delta_safe_iff (z : Zlib) (hz : z.Lossless) :
    (∀ (b : Build) (W : Word) (old new : Bytes W) (delta : List UInt8), old.data.length ≤ inlineMax → new.data.length ≤ inlineMax →
      createDelta z old.data new.data = some delta →
        applyDeltaWords b W old.data z delta = some (.ok (.ok new.data)) ∧ diffOpcodes old.data new.data ≠ [] ∧
          (diffOpcodes old.data new.data).length ≤ maxDeltaBytes) ∧
    (∀ (W : Word) (old : Bytes W) (delta : List UInt8), old.data.length < 2 ^ 32 →
      (AppliesSafely W z old.data delta ↔ ¬Overruns z W old.data delta)) ∧
    (∀ (W : Word) (old : Bytes W) (delta : List UInt8), ∃ res, applyDeltaWords .release W old.data z delta = some (.ok res) ∧
      ∀ out, res = .ok out → out.length ≤ inlineMax) ∧
    (∀ old delta : List UInt8, ¬Overruns z .w64 old delta) := by
  refine ⟨?_, ?_, ?_, not_overruns_w64 z⟩
  · intro b W old new delta _ hnew hdelta
    refine ⟨?_, diffOpcodes_ne_nil hnew hdelta, EncodingAux.length_diffOpcodes_le hnew⟩
    have hback := applyDelta_createDelta hz hnew hdelta
    rcases applyDeltaWords_eq (b := b) z delta old.fits with ⟨-, -, hnothing⟩ | ⟨-, happly⟩
    · exact absurd hback (hnothing new.data)
    · rw [happly, hback]
  · intro W old delta _
    rcases applyDeltaWords_eq (b := .debug) z delta old.fits with ⟨hover, happly, -⟩ | ⟨hover, happly⟩
    · refine ⟨?_, fun h => absurd hover h⟩
      rintro ⟨res, hres, -⟩
      rw [happly] at hres
      cases hres
    · exact ⟨fun _ => hover, fun _ => ⟨_, happly, fun out hout => applyDelta_built hout⟩⟩
  · intro W old delta
    rcases applyDeltaWords_eq (b := .release) z delta old.fits with ⟨-, happly, -⟩ | ⟨-, happly⟩
    · refine ⟨_, happly, fun out hout => ?_⟩
      cases hout
    · exact ⟨_, happly, fun out hout => (applyDelta_built hout).1⟩

/-- The old file of the samples. -/
def counted : List UInt8 := (List.range 32).map UInt8.ofNat

/-- The instructions of an unchanged file, deflated. -/
def copyDeflated : List UInt8 := [120, 156, 99, 96, 128, 0, 5, 0, 0, 41, 0, 33]

/-- The file, deflated. -/
def countedDeflated : List UInt8 :=
  [120, 156, 99, 96, 100, 98, 102, 97, 101, 99, 231, 224, 228, 226, 230, 225, 229, 227, 23, 16, 20, 18, 22, 17, 21, 19, 151, 144, 148, 146,
    150, 145, 149, 147, 7, 0, 21, 112, 1, 241]

/-- An INSERT of 4 GiB less a byte, deflated. -/
def insertDeflated : List UInt8 := [120, 156, 99, 252, 15, 4, 0, 10, 0, 3, 254]

/-- zlib on what the samples deflate and inflate. -/
def sampleZlib : Zlib where
  deflate data := if data = writeCopy 0 32 then .ok copyDeflated else if data = counted then .ok countedDeflated else .error ""
  inflate data limit :=
    if data = copyDeflated then .ok ((writeCopy 0 32).take limit)
    else if data = countedDeflated then .ok (counted.take limit)
    else .ok (([1, 255, 255, 255, 255] : List UInt8).take limit)

theorem sampleZlib_lossless : sampleZlib.Lossless where
  inflates d c n h := by
    unfold sampleZlib at h ⊢
    dsimp only at h ⊢
    split at h
    next hd =>
      rw [hd, ← Except.ok.inj h, if_pos rfl]
    · split at h
      next hd =>
        have hne : countedDeflated ≠ copyDeflated := by decide
        rw [hd, ← Except.ok.inj h, if_neg hne, if_pos rfl]
      · cases h

theorem delta_safe_sample : createDelta sampleZlib counted counted = some (deltaMagic ++ copyDeflated) ∧
    applyDeltaWords .debug .w32 counted sampleZlib (deltaMagic ++ copyDeflated) = some (.ok (.ok counted)) := by
  have hdelta : createDelta sampleZlib counted counted = some (deltaMagic ++ copyDeflated) := by decide +kernel
  refine ⟨hdelta, ?_⟩
  exact ((delta_safe_iff sampleZlib sampleZlib_lossless).1 .debug .w32 ⟨counted, by decide⟩ ⟨counted, by decide⟩ _ (by decide) (by decide)
    hdelta).1

/-- An INSERT of a length that ends past the words of 32 bits. -/
theorem insert_overruns : ¬∀ (z : Zlib), z.Lossless → ∀ (W : Word) (old : Bytes W) (delta : List UInt8), old.data.length < 2 ^ 32 →
    AppliesSafely W z old.data delta := by
  intro h
  obtain ⟨res, hres, -⟩ := h sampleZlib sampleZlib_lossless .w32 ⟨[], by decide⟩ (deltaMagic ++ insertDeflated) (by decide)
  have hfault : applyDeltaWords .debug .w32 [] sampleZlib (deltaMagic ++ insertDeflated) = some (.error .addOverflow) := rfl
  rw [hfault] at hres
  cases hres

end DoubleSlash.Files
