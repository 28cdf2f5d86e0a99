import DoubleSlash.Files.Outbound

/-!
# What is encoded can be decoded

Compression and the delta give the file back, for a zlib that does (`Zlib.Lossless`).
-/

namespace DoubleSlash.Files

/-- What is relied on from zlib: what was deflated inflates to what it was, up to the limit. -/
structure Zlib.Lossless (z : Zlib) : Prop where
  inflates : ∀ d c n, z.deflate d = .ok c → z.inflate c n = .ok (d.take n)

theorem zlibDecompress_deflated {z : Zlib} (hz : z.Lossless) {d c : List UInt8} {limit : Nat} (h : z.deflate d = .ok c)
    (hlen : d.length ≤ limit) : zlibDecompress z c limit = .ok d := by
  have htake : d.take (limit + 1) = d := List.take_of_length_le (by omega)
  simp only [zlibDecompress, hz.inflates d c (limit + 1) h, htake]
  rw [if_neg (by omega)]

theorem compressData_cases (z : Zlib) (data : List UInt8) :
    compressData z data = (data, false) ∨
      ∃ c, compressData z data = (c, true) ∧ z.deflate data = .ok c ∧ c.length ≤ data.length := by
  unfold compressData
  split
  · exact Or.inl rfl
  · split
    · rename_i c hc
      split
      · exact Or.inr ⟨c, rfl, hc, by omega⟩
      · exact Or.inl rfl
    · exact Or.inl rfl

/-! ## Instructions -/

namespace EncodingAux

theorem ofBe32_toBe32 {n : Nat} (h : n < 2 ^ 32) : ofBe32 (toBe32 n) = n := by
  simp only [ofBe32, toBe32, List.foldl_cons, List.foldl_nil, UInt8.toNat_ofNat']
  omega

theorem length_toBe32 (n : Nat) : (toBe32 n).length = 4 := rfl

/-- A COPY appends the range. -/
theorem applyOps_copy {old rest out : List UInt8} {src len : Nat} (hsrc : src < 2 ^ 32) (hlen : len < 2 ^ 32)
    (hrange : src + len ≤ old.length) (hmax : out.length + len ≤ inlineMax) :
    applyOps old (writeCopy src len ++ rest) out = applyOps old rest (out ++ (old.drop src).take len) := by
  rw [writeCopy, Nat.mod_eq_of_lt hsrc, Nat.mod_eq_of_lt hlen]
  rw [show (0 :: toBe32 src ++ toBe32 len) ++ rest = 0 :: (toBe32 src ++ (toBe32 len ++ rest)) by simp]
  rw [applyOps]
  have h4 : (toBe32 src ++ (toBe32 len ++ rest)).take 4 = toBe32 src := List.take_left' (length_toBe32 src)
  have hd4 : (toBe32 src ++ (toBe32 len ++ rest)).drop 4 = toBe32 len ++ rest := List.drop_left' (length_toBe32 src)
  have h44 : (toBe32 len ++ rest).take 4 = toBe32 len := List.take_left' (length_toBe32 len)
  have hd8 : (toBe32 src ++ (toBe32 len ++ rest)).drop 8 = rest := by
    rw [show (8 : Nat) = 4 + 4 from rfl, ← List.drop_drop, hd4]
    exact List.drop_left' (length_toBe32 len)
  have hlong : ¬(toBe32 src ++ (toBe32 len ++ rest)).length < 8 := by
    simp only [List.length_append, length_toBe32]
    omega
  rw [if_pos rfl, if_neg hlong, h4, hd4, h44, hd8, ofBe32_toBe32 hsrc, ofBe32_toBe32 hlen, if_neg (by omega), if_neg (by omega)]

/-- An INSERT appends its bytes. -/
theorem applyOps_insert {old seg rest out : List UInt8} (hlen : seg.length < 2 ^ 32) (hmax : out.length + seg.length ≤ inlineMax) :
    applyOps old (writeInsert seg ++ rest) out = applyOps old rest (out ++ seg) := by
  by_cases hseg : seg = []
  · subst hseg
    simp [writeInsert]
  rw [writeInsert, if_neg hseg, Nat.mod_eq_of_lt hlen]
  rw [show (1 :: toBe32 seg.length ++ seg) ++ rest = 1 :: (toBe32 seg.length ++ (seg ++ rest)) by simp]
  rw [applyOps]
  have h4 : (toBe32 seg.length ++ (seg ++ rest)).take 4 = toBe32 seg.length := List.take_left' (length_toBe32 _)
  have hd4 : (toBe32 seg.length ++ (seg ++ rest)).drop 4 = seg ++ rest := List.drop_left' (length_toBe32 _)
  have hlong : ¬(toBe32 seg.length ++ (seg ++ rest)).length < 4 := by
    simp only [List.length_append, length_toBe32]
    omega
  rw [if_neg (by decide), if_pos rfl, if_neg hlong, h4, hd4, ofBe32_toBe32 hlen, if_neg (by simp), if_neg (by omega),
    List.drop_left, List.take_left]

theorem length_writeCopy (src len : Nat) : (writeCopy src len).length = 9 := rfl

theorem length_writeInsert_le (seg : List UInt8) : (writeInsert seg).length ≤ seg.length + 5 := by
  unfold writeInsert
  split
  · simp
  · simp only [List.cons_append, List.length_cons, List.length_append, length_toBe32]
    omega

/-- Two byte strings agree as far as `extend_match` says. -/
theorem commonPrefix_spec (a b : List UInt8) :
    commonPrefix a b ≤ a.length ∧ commonPrefix a b ≤ b.length ∧
      a.take (commonPrefix a b) = b.take (commonPrefix a b) := by
  fun_induction commonPrefix a b with
  | case1 a as bs ih =>
    obtain ⟨h₁, h₂, h₃⟩ := ih
    exact ⟨Nat.succ_le_succ h₁, Nat.succ_le_succ h₂, by rw [List.take_succ_cons, List.take_succ_cons, h₃]⟩
  | case2 a as b bs hne => simp
  | case3 a b => simp

theorem findWindow_lt {old key : List UInt8} {src : Nat} (h : findWindow old key = some src) : src < 2 ^ 32 := by
  unfold findWindow at h
  split at h
  · cases h
  · obtain ⟨i, -, rfl⟩ := Option.map_eq_some_iff.mp h
    exact Nat.mod_lt _ (by decide)

/-- The instructions from `pending` on build the rest of the new file. -/
theorem applyOps_diffFrom (old new : List UInt8) (pending j : Nat) (hpj : pending ≤ j) (hj : j ≤ new.length)
    (hmax : new.length ≤ inlineMax) : applyOps old (diffFrom old new pending j) (new.take pending) = .ok new := by
  have hsmall : inlineMax < 2 ^ 32 := by decide
  have hseg : ∀ k, pending ≤ k → k ≤ new.length →
      new.take pending ++ (new.drop pending).take (k - pending) = new.take k := by
    intro k hk hkn
    rw [← List.take_add]
    congr 1
    omega
  fun_induction diffFrom old new pending j with
  | case1 pending j hwin src hfind mlen hm ih =>
    obtain ⟨hold, hnew, hsame⟩ := commonPrefix_spec (old.drop src) (new.drop j)
    simp only [List.length_drop] at hold hnew
    have hpos : window ≤ commonPrefix (old.drop src) (new.drop j) := hm
    have hw : 0 < window := by decide
    rw [List.append_assoc, applyOps_insert (by simp; omega) (by simp; omega), hseg j hpj hj,
      applyOps_copy (findWindow_lt hfind) (by omega) (by omega) (by simp; omega), hsame, ← List.take_add]
    refine ih (le_refl _) (by omega) ?_
    intro k hk hkn
    rw [← List.take_add]
    congr 1
    omega
  | case2 pending j hwin src hfind mlen hm ih =>
    have : window = 16 := rfl
    exact ih (by omega) (by omega) hseg
  | case3 pending j hwin hfind ih =>
    have : window = 16 := rfl
    exact ih (by omega) (by omega) hseg
  | case4 pending j hwin =>
    rw [← List.append_nil (writeInsert _), applyOps_insert (by simp; omega) (by simp; omega)]
    rw [List.take_append_drop, applyOps]

/-- Instructions are hardly longer than what they build. -/
theorem length_diffFrom_le (old new : List UInt8) (pending j : Nat) (hpj : pending ≤ j) (hj : j ≤ new.length) :
    (diffFrom old new pending j).length ≤ new.length - pending + 5 := by
  fun_induction diffFrom old new pending j with
  | case1 pending j hwin src hfind mlen hm ih =>
    obtain ⟨-, hnew, -⟩ := commonPrefix_spec (old.drop src) (new.drop j)
    simp only [List.length_drop] at hnew
    have hins := length_writeInsert_le ((new.drop pending).take (j - pending))
    simp only [List.length_take, List.length_drop] at hins
    have hrest := ih le_rfl (by omega)
    have hpos : 16 ≤ commonPrefix (old.drop src) (new.drop j) := hm
    simp only [List.length_append, length_writeCopy]
    omega
  | case2 pending j hwin src hfind mlen hm ih =>
    have : window = 16 := rfl
    exact ih (by omega) (by omega)
  | case3 pending j hwin hfind ih =>
    have : window = 16 := rfl
    exact ih (by omega) (by omega)
  | case4 pending j hwin =>
    have hins := length_writeInsert_le (new.drop pending)
    simp only [List.length_drop] at hins
    exact hins

/-- The instructions of a delta build the new file. -/
theorem applyOps_diffOpcodes {old new : List UInt8} (hmax : new.length ≤ inlineMax) :
    applyOps old (diffOpcodes old new) [] = .ok new := by
  have hsmall : inlineMax < 2 ^ 32 := by decide
  unfold diffOpcodes
  split
  · rename_i heq
    rw [← List.append_nil (writeCopy 0 new.length),
      applyOps_copy (by decide) (by omega) (by rw [heq]; omega) (by simpa using hmax), heq]
    simp [applyOps]
  · simpa using applyOps_diffFrom old new 0 0 le_rfl (Nat.zero_le _) hmax

theorem length_diffOpcodes_le {old new : List UInt8} (hmax : new.length ≤ inlineMax) :
    (diffOpcodes old new).length ≤ maxDeltaBytes := by
  have hbound : inlineMax + 9 ≤ maxDeltaBytes := by decide
  unfold diffOpcodes
  split
  · rw [length_writeCopy]
    omega
  · have := length_diffFrom_le old new 0 0 le_rfl (Nat.zero_le _)
    omega

end EncodingAux

open EncodingAux

/-- A delta that is worth sending has instructions: with none the new file is empty, and no delta is smaller than it. -/
theorem diffOpcodes_ne_nil {z : Zlib} {old new delta : List UInt8} (hmax : new.length ≤ inlineMax)
    (h : createDelta z old new = some delta) : diffOpcodes old new ≠ [] := by
  intro hnil
  have hbuilt := @applyOps_diffOpcodes old _ hmax
  rw [hnil, applyOps] at hbuilt
  obtain rfl := Except.ok.inj hbuilt
  unfold createDelta at h
  rw [hnil] at h
  split at h
  · rename_i compressed full hops hfull
    obtain rfl := Except.ok.inj (hops.symm.trans hfull)
    rw [if_neg (by simp)] at h
    cases h
  · cases h

/-- A delta inflates to its instructions. -/
theorem zlibDecompress_createDelta {z : Zlib} (hz : z.Lossless) {old new delta : List UInt8} (hmax : new.length ≤ inlineMax)
    (h : createDelta z old new = some delta) :
    delta.take 4 = deltaMagic ∧ zlibDecompress z (delta.drop 4) maxDeltaBytes = .ok (diffOpcodes old new) := by
  unfold createDelta at h
  split at h
  · rename_i compressed full hops hfull
    split at h
    · obtain rfl := Option.some.inj h
      have hfour : deltaMagic.length = 4 := rfl
      refine ⟨List.take_left' hfour, ?_⟩
      rw [List.drop_left' hfour]
      exact zlibDecompress_deflated hz hops (length_diffOpcodes_le hmax)
    · cases h
  · cases h

/-- **A delta gives the new file back.** -/
theorem applyDelta_createDelta {z : Zlib} (hz : z.Lossless) {old new delta : List UInt8} (hmax : new.length ≤ inlineMax)
    (h : createDelta z old new = some delta) : applyDelta z old delta = .ok new := by
  obtain ⟨hmagic, hops⟩ := zlibDecompress_createDelta hz hmax h
  rw [applyDelta, hmagic, if_neg (by simp), hops]
  simp only [if_neg (diffOpcodes_ne_nil hmax h)]
  exact applyOps_diffOpcodes hmax

end DoubleSlash.Files
