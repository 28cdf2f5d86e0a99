import Mathlib.Algebra.BigOperators.Group.List.Basic
import Mathlib.Algebra.Order.Field.Basic
import Mathlib.Tactic.Linarith
import Mathlib.Tactic.Ring

/-!
# Token buckets

A bucket fills at a rate, up to what the rate gives in one unit of time, and what is spent is taken out. What can be spent in an
interval is bounded by what flows in and one full bucket (`Covered`), and what is missing from a bucket was spent since it was last
full (`Accounts`).
-/

namespace DoubleSlash.TokenBucket

variable {K : Type} [Field K] [LinearOrder K] [IsStrictOrderedRing K]

/-- What is in a bucket, and since when. -/
structure Bucket (K : Type) where
  tokens : K
  last : K

/-- What the bucket holds at a time. -/
def level (rate : K) (b : Bucket K) (now : K) : K := min (b.tokens + rate * (now - b.last)) rate

/-- The bucket filled up to a time. -/
def refill (rate : K) (b : Bucket K) (now : K) : Bucket K := ⟨level rate b now, now⟩

def spend (b : Bucket K) (amount : K) : Bucket K := { b with tokens := b.tokens - amount }

/-- A bucket that was full when it was last looked at. -/
def full (rate now : K) : Bucket K := ⟨rate, now⟩

omit [IsStrictOrderedRing K] in
theorem level_le (rate : K) (b : Bucket K) (now : K) : level rate b now ≤ rate := min_le_right _ _

/-- Looking at a bucket on the way changes nothing. -/
theorem level_refill {rate : K} (hrate : 0 ≤ rate) (b : Bucket K) {t now : K} (hnow : t ≤ now) :
    level rate (refill rate b t) now = level rate b now := by
  have hflow : 0 ≤ rate * (now - t) := mul_nonneg hrate (sub_nonneg.mpr hnow)
  have hsplit : rate * (now - b.last) = rate * (t - b.last) + rate * (now - t) := by ring
  unfold level refill
  dsimp only
  rw [hsplit, ← add_assoc]
  rcases le_total (b.tokens + rate * (t - b.last)) rate with hle | hle
  · rw [level, min_eq_left hle]
  · rw [level, min_eq_right hle, min_eq_right (by linarith), min_eq_right (by linarith)]

theorem level_full {rate : K} (hrate : 0 ≤ rate) {t now : K} (hnow : t ≤ now) : level rate (full rate t) now = rate := by
  have hflow : 0 ≤ rate * (now - t) := mul_nonneg hrate (sub_nonneg.mpr hnow)
  exact min_eq_right (by unfold full; linarith)

theorem level_nonneg {rate : K} (hrate : 0 ≤ rate) {b : Bucket K} (htokens : 0 ≤ b.tokens) {now : K} (hnow : b.last ≤ now) :
    0 ≤ level rate b now := by
  have hflow : 0 ≤ rate * (now - b.last) := mul_nonneg hrate (sub_nonneg.mpr hnow)
  exact le_min (by linarith) hrate

/-- **What can be spent.** What was spent since a time, with what is left, is no more than one full bucket and what flowed in. -/
def Covered (rate since : K) (b : Bucket K) (spent : K) : Prop :=
  ∀ now, since ≤ now → b.last ≤ now → spent + level rate b now ≤ rate + rate * (now - since)

theorem covered_zero {rate : K} (hrate : 0 ≤ rate) (since : K) (b : Bucket K) : Covered rate since b 0 := by
  intro now hsince _
  have hflow : 0 ≤ rate * (now - since) := mul_nonneg hrate (sub_nonneg.mpr hsince)
  have hlevel := level_le rate b now
  linarith

theorem Covered.refill {rate since spent : K} {b : Bucket K} (h : Covered rate since b spent) (hrate : 0 ≤ rate) {t : K}
    (ht : b.last ≤ t) : Covered rate since (refill rate b t) spent := by
  intro now hsince hlast
  have hnow : t ≤ now := hlast
  rw [level_refill hrate b hnow]
  exact h now hsince (ht.trans hnow)

/-- Less is in the bucket by at least what is counted. -/
theorem Covered.spend {rate since spent counted amount : K} {b : Bucket K} (h : Covered rate since b spent) (hsince : since ≤ b.last)
    (hfull : b.tokens ≤ rate) (hcounted : counted ≤ amount) : Covered rate since (spend b amount) (spent + counted) := by
  intro now _ hlast
  have hthen := h b.last hsince (le_refl _)
  have hlevel : level rate b b.last = b.tokens := by
    unfold level
    rw [sub_self, mul_zero, add_zero, min_eq_left hfull]
  have hle : level rate (TokenBucket.spend b amount) now ≤ b.tokens - amount + rate * (now - b.last) := min_le_left _ _
  have hsplit : rate * (now - since) = rate * (b.last - since) + rate * (now - b.last) := by ring
  rw [hlevel] at hthen
  rw [hsplit]
  linarith

/-- What is missing from the bucket was spent since a time when it was full. The list says what was spent when, in order. -/
def Accounts (rate : K) (b : Bucket K) (spent : List (K × K)) : Prop :=
  ∃ since before after, spent = before ++ after ∧ (∀ e ∈ after, since ≤ e.1) ∧ since ≤ b.last ∧
    b.tokens = rate + rate * (b.last - since) - (after.map Prod.snd).sum

omit [IsStrictOrderedRing K] in
theorem accounts_full (rate now : K) (spent : List (K × K)) : Accounts rate (full rate now) spent := by
  refine ⟨now, spent, [], (List.append_nil _).symm, fun e he => absurd he List.not_mem_nil, le_refl _, ?_⟩
  simp [full]

omit [IsStrictOrderedRing K] in
theorem Accounts.refill {rate : K} {b : Bucket K} {spent : List (K × K)} (h : Accounts rate b spent) {now : K} (hnow : b.last ≤ now) :
    Accounts rate (refill rate b now) spent := by
  obtain ⟨since, before, after, hspent, hsince, hlast, htokens⟩ := h
  rcases le_total (b.tokens + rate * (now - b.last)) rate with hle | hle
  · refine ⟨since, before, after, hspent, hsince, hlast.trans hnow, ?_⟩
    have hsplit : rate * (now - since) = rate * (b.last - since) + rate * (now - b.last) := by ring
    unfold TokenBucket.refill level
    dsimp only
    rw [min_eq_left hle, htokens, hsplit]
    ring
  · have hfull : TokenBucket.refill rate b now = full rate now := by
      unfold TokenBucket.refill level full
      rw [min_eq_right hle]
    rw [hfull]
    exact accounts_full rate now spent

omit [IsStrictOrderedRing K] in
theorem Accounts.spend {rate : K} {b : Bucket K} {spent : List (K × K)} (h : Accounts rate b spent) (amount : K) :
    Accounts rate (spend b amount) (spent ++ [(b.last, amount)]) := by
  obtain ⟨since, before, after, rfl, hsince, hlast, htokens⟩ := h
  refine ⟨since, before, after ++ [(b.last, amount)], List.append_assoc .., fun e he => ?_, hlast, ?_⟩
  · rcases List.mem_append.mp he with he | he
    · exact hsince e he
    · rw [List.mem_singleton.mp he]
      exact hlast
  · unfold TokenBucket.spend
    dsimp only
    rw [List.map_append, List.sum_append, htokens]
    simp only [List.map_cons, List.map_nil, List.sum_cons, List.sum_nil]
    ring

/-- A bucket with too little for an amount has had so much taken out, since it was full, that the amount is too much. -/
theorem Accounts.short {rate : K} {b : Bucket K} {spent : List (K × K)} (h : Accounts rate b spent) {amount : K}
    (hshort : b.tokens < amount) : ∃ since before after, spent = before ++ after ∧ (∀ e ∈ after, since ≤ e.1) ∧ since ≤ b.last ∧
      rate * (b.last - since) + rate < (after.map Prod.snd).sum + amount := by
  obtain ⟨since, before, after, hspent, hsince, hlast, htokens⟩ := h
  exact ⟨since, before, after, hspent, hsince, hlast, by linarith⟩

end DoubleSlash.TokenBucket
