import DoubleSlash.Features.Registry

/-!
# What one message does to a bucket

A quota state is two token buckets that are filled together. Its rates are those it was made with.
-/

namespace DoubleSlash.Features

open Assoc Protocol TokenBucket

theorem QuotaParams.readRate_nonneg (params : Json) (key : String) (default : ℚ) : 0 ≤ readRate params key default := by
  unfold readRate
  dsimp only
  split
  · exact le_refl 0
  · exact le_trans (by norm_num) (le_max_right _ 1)

namespace QuotaState

variable {s : QuotaState} {now : ℚ}

/-- The bucket of bytes. -/
def bytes (s : QuotaState) : Bucket ℚ := ⟨s.bytesTokens, s.lastRefill⟩

/-- The bucket of datagrams. -/
def datagrams (s : QuotaState) : Bucket ℚ := ⟨s.datagramTokens, s.lastRefill⟩

theorem refill_bytes (hlast : s.lastRefill ≤ now) (hrate : 0 < s.params.bytesPerSec) :
    (s.refill now).bytes = TokenBucket.refill s.params.bytesPerSec s.bytes now := by
  unfold QuotaState.refill QuotaState.bytes TokenBucket.refill level
  dsimp only
  rw [if_pos hrate, max_eq_right (sub_nonneg.mpr hlast)]

theorem refill_datagrams (hlast : s.lastRefill ≤ now) (hrate : 0 < s.params.datagramsPerSec) :
    (s.refill now).datagrams = TokenBucket.refill s.params.datagramsPerSec s.datagrams now := by
  unfold QuotaState.refill QuotaState.datagrams TokenBucket.refill level
  dsimp only
  rw [if_pos hrate, max_eq_right (sub_nonneg.mpr hlast)]

theorem take_bytes (s : QuotaState) (hrate : 0 < s.params.bytesPerSec) (n : Nat) :
    (s.take n).bytes = spend s.bytes n := by
  unfold QuotaState.take QuotaState.bytes spend
  dsimp only
  rw [if_pos hrate]

theorem take_datagrams (s : QuotaState) (hrate : 0 < s.params.datagramsPerSec) (n : Nat) :
    (s.take n).datagrams = spend s.datagrams 1 := by
  unfold QuotaState.take QuotaState.datagrams spend
  dsimp only
  rw [if_pos hrate]

/-- A message is let through or held back, and the rates stay. Without limits the state is not looked at. -/
theorem tryConsume_cases (s : QuotaState) (now : ℚ) (n : Nat) :
    (s.params.isUnbounded = true ∧ s.tryConsume now n = (s, true)) ∨
    (s.params.isUnbounded = false ∧ (s.refill now).affords n = true ∧ s.tryConsume now n = ((s.refill now).take n, true)) ∨
    (s.params.isUnbounded = false ∧ (s.refill now).affords n = false ∧ s.tryConsume now n = (s.refill now, false)) := by
  unfold tryConsume
  cases hunbounded : s.params.isUnbounded with
  | true => exact Or.inl ⟨rfl, rfl⟩
  | false =>
    rw [if_neg Bool.false_ne_true]
    cases haffords : (s.refill now).affords n with
    | true => exact Or.inr (Or.inl ⟨rfl, rfl, rfl⟩)
    | false => exact Or.inr (Or.inr ⟨rfl, rfl, rfl⟩)

theorem tryConsume_params (s : QuotaState) (now : ℚ) (n : Nat) : (s.tryConsume now n).1.params = s.params := by
  rcases tryConsume_cases s now n with ⟨-, h⟩ | ⟨-, -, h⟩ | ⟨-, -, h⟩
  · rw [h]
  · rw [h]
    rfl
  · rw [h]
    rfl

/-- What is held back is too much for one of the buckets. -/
theorem short_of_not_affords {n : Nat} (h : s.affords n = false) :
    (s.params.bytesPerSec ≠ 0 ∧ s.bytes.tokens < n) ∨ (s.params.datagramsPerSec ≠ 0 ∧ s.datagrams.tokens < 1) := by
  unfold affords at h
  rw [Bool.and_eq_false_iff, Bool.or_eq_false_iff, Bool.or_eq_false_iff, decide_eq_false_iff_not, decide_eq_false_iff_not,
    beq_eq_false_iff_ne, beq_eq_false_iff_ne, not_le, not_le] at h
  exact h

theorem enough_of_affords {n : Nat} (h : s.affords n = true) (hrate : 0 < s.params.bytesPerSec) : (n : ℚ) ≤ s.bytes.tokens := by
  unfold affords at h
  rw [Bool.and_eq_true, Bool.or_eq_true, beq_iff_eq, decide_eq_true_eq] at h
  exact h.1.resolve_left (ne_of_gt hrate)

/-! ### What a bucket tells of the past -/

/-- What has come through the bucket, in order, accounts for what is missing. -/
structure Sound (s : QuotaState) (sent : List (ℚ × ℚ)) : Prop where
  bytesRate : 0 ≤ s.params.bytesPerSec
  datagramsRate : 0 ≤ s.params.datagramsPerSec
  filled : 0 < s.params.bytesPerSec → 0 ≤ s.bytesTokens ∧ s.bytesTokens ≤ s.params.bytesPerSec
  bytes : 0 < s.params.bytesPerSec → Accounts s.params.bytesPerSec s.bytes sent
  datagrams : 0 < s.params.datagramsPerSec → Accounts s.params.datagramsPerSec s.datagrams (sent.map fun e => (e.1, 1))

theorem sound_new {params : QuotaParams} (hbytes : 0 ≤ params.bytesPerSec) (hdatagrams : 0 ≤ params.datagramsPerSec) (now : ℚ)
    (sent : List (ℚ × ℚ)) : Sound (new now params) sent where
  bytesRate := hbytes
  datagramsRate := hdatagrams
  filled _ := ⟨hbytes, le_refl _⟩
  bytes _ := accounts_full params.bytesPerSec now sent
  datagrams _ := accounts_full params.datagramsPerSec now _

theorem Sound.refill {sent : List (ℚ × ℚ)} (h : Sound s sent) (hlast : s.lastRefill ≤ now) : Sound (s.refill now) sent where
  bytesRate := h.bytesRate
  datagramsRate := h.datagramsRate
  filled hrate := by
    have hlevel : (s.refill now).bytesTokens = level s.params.bytesPerSec s.bytes now :=
      congrArg Bucket.tokens (refill_bytes hlast hrate)
    rw [hlevel]
    exact ⟨level_nonneg h.bytesRate (h.filled hrate).1 hlast, level_le _ _ _⟩
  bytes hrate := by
    have hrefill : (s.refill now).bytes = TokenBucket.refill s.params.bytesPerSec s.bytes now := refill_bytes hlast hrate
    rw [hrefill]
    exact (h.bytes hrate).refill hlast
  datagrams hrate := by
    have hrefill : (s.refill now).datagrams = TokenBucket.refill s.params.datagramsPerSec s.datagrams now :=
      refill_datagrams hlast hrate
    rw [hrefill]
    exact (h.datagrams hrate).refill hlast

theorem Sound.take {sent : List (ℚ × ℚ)} (h : Sound s sent) {n : Nat} (haffords : s.affords n = true) :
    Sound (s.take n) (sent ++ [(s.lastRefill, (n : ℚ))]) where
  bytesRate := h.bytesRate
  datagramsRate := h.datagramsRate
  filled hrate := by
    have htokens : (s.take n).bytesTokens = s.bytesTokens - n := congrArg Bucket.tokens (take_bytes s hrate n)
    have henough : (n : ℚ) ≤ s.bytesTokens := enough_of_affords haffords hrate
    have hfilled := (h.filled hrate).2
    rw [htokens]
    have hn : (0 : ℚ) ≤ n := Nat.cast_nonneg n
    exact ⟨by linarith, by change s.bytesTokens - n ≤ s.params.bytesPerSec; linarith⟩
  bytes hrate := by
    rw [take_bytes s hrate n]
    exact (h.bytes hrate).spend n
  datagrams hrate := by
    rw [take_datagrams s hrate n, List.map_append]
    exact (h.datagrams hrate).spend 1

/-- **One message.** -/
theorem Sound.tryConsume {sent : List (ℚ × ℚ)} (h : Sound s sent) (hlast : s.lastRefill ≤ now) (n : Nat) :
    Sound (s.tryConsume now n).1 (if (s.tryConsume now n).2 then sent ++ [(now, (n : ℚ))] else sent) ∧
      (s.tryConsume now n).1.lastRefill ≤ now := by
  rcases tryConsume_cases s now n with ⟨hunbounded, hconsume⟩ | ⟨-, haffords, hconsume⟩ | ⟨-, -, hconsume⟩
  · rw [hconsume]
    rw [QuotaParams.isUnbounded, Bool.and_eq_true, beq_iff_eq, beq_iff_eq] at hunbounded
    refine ⟨⟨h.bytesRate, h.datagramsRate, fun hrate => ?_, fun hrate => ?_, fun hrate => ?_⟩, hlast⟩
    · exact absurd hunbounded.1 (ne_of_gt hrate)
    · exact absurd hunbounded.1 (ne_of_gt hrate)
    · exact absurd hunbounded.2 (ne_of_gt hrate)
  · rw [hconsume]
    exact ⟨(h.refill hlast).take haffords, le_refl now⟩
  · rw [hconsume]
    exact ⟨h.refill hlast, le_refl now⟩

/-- What is too much for a bucket: with what came through since some time it is more than the rate gives, and one full bucket. -/
def Exceeds (rate now amount : ℚ) (sent : List (ℚ × ℚ)) : Prop :=
  ∃ since before recent, sent = before ++ recent ∧ (∀ e ∈ recent, since ≤ e.1) ∧ since ≤ now ∧
    rate * (now - since) + rate < (recent.map Prod.snd).sum + amount

theorem Sound.refused {sent : List (ℚ × ℚ)} (h : Sound s sent) (hlast : s.lastRefill ≤ now) {n : Nat}
    (hrefused : (s.tryConsume now n).2 = false) :
    (0 < s.params.bytesPerSec ∧ Exceeds s.params.bytesPerSec now n sent) ∨
      (0 < s.params.datagramsPerSec ∧ Exceeds s.params.datagramsPerSec now 1 (sent.map fun e => (e.1, 1))) := by
  rcases tryConsume_cases s now n with ⟨-, hconsume⟩ | ⟨-, -, hconsume⟩ | ⟨-, haffords, hconsume⟩
  · rw [hconsume] at hrefused
    cases hrefused
  · rw [hconsume] at hrefused
    cases hrefused
  · have hthen := h.refill hlast
    rcases short_of_not_affords haffords with ⟨hne, hshort⟩ | ⟨hne, hshort⟩
    · have hrate : 0 < s.params.bytesPerSec := lt_of_le_of_ne h.bytesRate (Ne.symm hne)
      exact Or.inl ⟨hrate, (hthen.bytes hrate).short hshort⟩
    · have hrate : 0 < s.params.datagramsPerSec := lt_of_le_of_ne h.datagramsRate (Ne.symm hne)
      exact Or.inr ⟨hrate, (hthen.datagrams hrate).short hshort⟩

/-! ### Looking at a bucket changes nothing -/

theorem refill_refill (hbytes : 0 ≤ s.params.bytesPerSec) (hdatagrams : 0 ≤ s.params.datagramsPerSec) {t : ℚ}
    (hlast : s.lastRefill ≤ t) (hnow : t ≤ now) : (s.refill t).refill now = s.refill now := by
  have hfields : ∀ a b : QuotaState, a.bytesTokens = b.bytesTokens → a.datagramTokens = b.datagramTokens →
      a.lastRefill = b.lastRefill → a.params = b.params → a = b := by
    rintro ⟨_, _, _, _⟩ ⟨_, _, _, _⟩ rfl rfl rfl rfl
    rfl
  refine hfields _ _ ?_ ?_ rfl rfl
  · rcases lt_or_eq_of_le hbytes with hrate | hzero
    · have htwice : ((s.refill t).refill now).bytes = TokenBucket.refill s.params.bytesPerSec (s.refill t).bytes now :=
        refill_bytes hnow hrate
      have hlevel := level_refill hbytes s.bytes hnow
      rw [← refill_bytes hlast hrate] at hlevel
      exact (congrArg Bucket.tokens htwice).trans (hlevel.trans (congrArg Bucket.tokens (refill_bytes (hlast.trans hnow) hrate)).symm)
    · have hnot : ¬0 < s.params.bytesPerSec := not_lt.mpr (ge_of_eq hzero)
      unfold QuotaState.refill
      dsimp only
      rw [if_neg hnot, if_neg hnot, if_neg hnot]
  · rcases lt_or_eq_of_le hdatagrams with hrate | hzero
    · have htwice : ((s.refill t).refill now).datagrams = TokenBucket.refill s.params.datagramsPerSec (s.refill t).datagrams now :=
        refill_datagrams hnow hrate
      have hlevel := level_refill hdatagrams s.datagrams hnow
      rw [← refill_datagrams hlast hrate] at hlevel
      exact (congrArg Bucket.tokens htwice).trans
        (hlevel.trans (congrArg Bucket.tokens (refill_datagrams (hlast.trans hnow) hrate)).symm)
    · have hnot : ¬0 < s.params.datagramsPerSec := not_lt.mpr (ge_of_eq hzero)
      unfold QuotaState.refill
      dsimp only
      rw [if_neg hnot, if_neg hnot, if_neg hnot]

/-- A bucket that nobody took from is the one that would be made now. -/
theorem refill_new {params : QuotaParams} (hbytes : 0 ≤ params.bytesPerSec) (hdatagrams : 0 ≤ params.datagramsPerSec) {t : ℚ}
    (hnow : t ≤ now) : (new t params).refill now = new now params := by
  have hflow : 0 ≤ now - t := sub_nonneg.mpr hnow
  have hb : 0 ≤ params.bytesPerSec * (now - t) := mul_nonneg hbytes hflow
  have hd : 0 ≤ params.datagramsPerSec * (now - t) := mul_nonneg hdatagrams hflow
  unfold QuotaState.refill new
  dsimp only
  rw [max_eq_right hflow, min_eq_right (by linarith), min_eq_right (by linarith), ite_self, ite_self]

/-- A state that is filled up the same answers the same. -/
theorem tryConsume_congr {s' : QuotaState} (hparams : s'.params = s.params) (hbounded : s.params.isUnbounded = false)
    (hrefill : s'.refill now = s.refill now) (n : Nat) : s'.tryConsume now n = s.tryConsume now n := by
  unfold tryConsume
  rw [hparams, hbounded, hrefill, if_neg Bool.false_ne_true, if_neg Bool.false_ne_true]

end QuotaState

end DoubleSlash.Features
