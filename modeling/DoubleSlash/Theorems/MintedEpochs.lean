import DoubleSlash.Theorems.GroupEpochs

/-!
# Minted epochs

An elected keyer mints above what it minted and saw since its keys were last forgotten. When that is an epoch that a member takes,
and one that the member has no other key of.
-/

namespace DoubleSlash.Keys

open Assoc Run

/-- The two functions that mint an epoch. -/
inductive Mint where
  | newOwnerEpoch
  | rotate
  deriving DecidableEq

/-- An epoch is minted, at a time and with the key that was drawn. -/
def SenderKeysGroup.mint {K : Type} (g : SenderKeysGroup K) : Mint → Nat → String → K → SenderKeysGroup K × UInt8
  | .newOwnerEpoch => g.newOwnerEpoch
  | .rotate => g.rotate

/-- What happens to the keys of an elected keyer. -/
inductive KeyerOp (K : Type) where
  | mint (how : Mint) (now : Nat) (convId : String) (key : K)
  | restart
  | forget (convId : String)
  | noteObservedEpoch (convId : String) (epoch : UInt8)

/-- A keyer's keys, and for each conversation the epochs that were minted or observed since its keys were last forgotten. -/
structure Keyer (K : Type) where
  group : SenderKeysGroup K
  since : String → List UInt8

namespace Keyer

variable {K : Type}

/-- Nothing was minted or seen. -/
def new : Keyer K := { group := SenderKeysGroup.new, since := fun _ => [] }

def step (s : Keyer K) : KeyerOp K → Option (Keyer K)
  | .mint how now convId key =>
    let minted := s.group.mint how now convId key
    some { group := minted.1, since := Function.update s.since convId (minted.2 :: s.since convId) }
  | .restart => some new
  | .forget convId => some { group := s.group.forget convId, since := Function.update s.since convId [] }
  | .noteObservedEpoch convId epoch =>
    some { group := s.group.noteObservedEpoch convId epoch, since := Function.update s.since convId (epoch :: s.since convId) }

end Keyer

section

variable {K : Type}

/-- A member takes an epoch that is offered, and keeps no other key under it. -/
def Takeable (member : SenderKeysGroup K) (convId : String) (offered : UInt8) (key : K) : Prop :=
  acceptGroupKeyEpoch (member.hasRealKey convId) (member.currentEpoch convId) offered = true ∧
    ∀ other, (member.retained convId).lookup offered = some other → other = key

/-- The epochs that were minted or seen are less than 64 ahead of an epoch. If the last of all is among them, what follows is 0. -/
def WithinReach (since : List UInt8) (epoch : UInt8) : Prop :=
  if 255 ∈ since then epoch = 0 ∨ 192 ≤ epoch else ∀ seen ∈ since, seen.toNat < epoch.toNat + 64

/-- The number after the highest epoch of those minted or seen; after the last one of all it is 0. -/
def Follows (since : List UInt8) (epoch : UInt8) : Prop :=
  if 255 ∈ since then epoch = 0 else epoch - 1 ∈ since ∧ ∀ seen ∈ since, seen < epoch

/-- A member without a key, or one that the epochs minted or seen are not too far ahead of, with no other key under the number
after the highest of them. -/
def InReach (member : SenderKeysGroup K) (convId : String) (since : List UInt8) (key : K) : Prop :=
  (member.hasRealKey convId = true → WithinReach since (member.currentEpoch convId)) ∧
    ∀ epoch other, (member.retained convId).lookup epoch = some other → other ≠ key → ¬ Follows since epoch

namespace MintedEpochsAux

/-- What is kept of the epochs that were minted or seen: the highest. -/
def Tracks (since : List UInt8) (state : Option (GroupState K)) : Prop :=
  (state = none → since = []) ∧
    ∀ st, state = some st → ∃ high ∈ since, st.seenHigh = some high ∧ st.current ≤ high ∧ ∀ seen ∈ since, seen ≤ high

theorem tracks_none : Tracks [] (none : Option (GroupState K)) := ⟨fun _ => rfl, fun _ h => absurd h (by simp)⟩

/-- Of two epochs the one that is not lower is kept. -/
theorem noteSeen_high (state : GroupState K) (epoch : UInt8) : ∃ high, (state.noteSeen epoch).seenHigh = some high ∧ epoch ≤ high ∧
    (high = epoch ∨ state.seenHigh = some high) ∧ ∀ before, state.seenHigh = some before → before ≤ high := by
  unfold GroupState.noteSeen
  cases state.seenHigh with
  | none => exact ⟨epoch, rfl, UInt8.le_refl _, Or.inl rfl, fun _ h => absurd h (by simp)⟩
  | some before =>
    dsimp only [Option.elim]
    by_cases hle : epoch ≤ before
    · rw [if_pos hle]
      exact ⟨before, rfl, hle, Or.inr rfl, fun b hb => Option.some.inj hb ▸ UInt8.le_refl _⟩
    · rw [if_neg hle]
      exact ⟨epoch, rfl, UInt8.le_refl _, Or.inl rfl, fun b hb => Option.some.inj hb ▸ UInt8.le_of_lt (UInt8.not_le.mp hle)⟩

/-- One more epoch is seen in a state whose highest epoch is kept. -/
theorem tracks_seen {since : List UInt8} {before : Option (GroupState K)} (h : Tracks since before) (epoch : UInt8) {state after : GroupState K}
    (hbefore : state.seenHigh = before.bind GroupState.seenHigh) (hafter : after.seenHigh = (state.noteSeen epoch).seenHigh)
    (hcurrent : after.current = epoch ∨ ∃ st, before = some st ∧ after.current = st.current) : Tracks (epoch :: since) (some after) := by
  refine ⟨fun hnone => absurd hnone (by simp), fun st hst => ?_⟩
  obtain rfl := Option.some.inj hst
  obtain ⟨high, hhigh, hle, hfrom, hupper⟩ := noteSeen_high state epoch
  have hmem : high ∈ epoch :: since ∧ ∀ seen ∈ since, seen ≤ high := by
    cases before with
    | none =>
      rw [h.1 rfl]
      rw [hbefore] at hfrom
      exact ⟨List.mem_cons.mpr (Or.inl (hfrom.resolve_right (by simp))), fun _ hseen => absurd hseen List.not_mem_nil⟩
    | some st =>
      obtain ⟨was, hwas, hseenHigh, -, hmax⟩ := h.2 st rfl
      have hstate : state.seenHigh = some was := by rw [hbefore, Option.bind_some, hseenHigh]
      refine ⟨?_, fun seen hseen => UInt8.le_trans (hmax seen hseen) (hupper was hstate)⟩
      rcases hfrom with rfl | hfrom
      · exact List.mem_cons_self
      · exact List.mem_cons_of_mem _ (Option.some.inj (hfrom.symm.trans hstate) ▸ hwas)
  refine ⟨high, hmem.1, hafter.trans hhigh, ?_, fun seen hseen => ?_⟩
  · rcases hcurrent with hcurrent | ⟨st, rfl, hcurrent⟩
    · exact hcurrent ▸ hle
    · obtain ⟨was, -, hseenHigh, hcur, -⟩ := h.2 st rfl
      rw [hcurrent]
      exact UInt8.le_trans hcur (hupper was (by rw [hbefore, Option.bind_some, hseenHigh]))
  · rcases List.mem_cons.mp hseen with rfl | hseen
    · exact hle
    · exact hmem.2 seen hseen

/-- What is minted: 0 when nothing was minted or seen, else the number after the highest. -/
theorem mint_epoch (g : SenderKeysGroup K) (how : Mint) (now : Nat) (convId : String) (key : K) :
    (g.mint how now convId key).2 = (g.groups.lookup convId).elim 0 GroupState.nextEpoch := by
  cases how with
  | newOwnerEpoch => rfl
  | rotate =>
    show (g.rotate now convId key).2 = _
    cases hlook : g.groups.lookup convId with
    | none =>
      rw [SenderKeysGroup.rotate_of_none hlook, ← hlook]
      rfl
    | some state =>
      rw [SenderKeysGroup.rotate_of_some hlook]
      rfl

/-- What is kept of the other conversations, and of the one that an epoch is minted for: that epoch is current, and it was seen. -/
theorem mint_lookup (g : SenderKeysGroup K) (how : Mint) (now : Nat) (convId : String) (key : K) :
    (∃ state after : GroupState K, (g.mint how now convId key).1.groups.lookup convId = some after ∧
      state.seenHigh = (g.groups.lookup convId).bind GroupState.seenHigh ∧
      after.seenHigh = (state.noteSeen (g.mint how now convId key).2).seenHigh ∧
      after.current = (g.mint how now convId key).2) ∧
    ∀ other, other ≠ convId → (g.mint how now convId key).1.groups.lookup other = g.groups.lookup other := by
  have hfresh : (∃ state after : GroupState K, (g.newOwnerEpoch now convId key).1.groups.lookup convId = some after ∧
      state.seenHigh = (g.groups.lookup convId).bind GroupState.seenHigh ∧
      after.seenHigh = (state.noteSeen (g.newOwnerEpoch now convId key).2).seenHigh ∧
      after.current = (g.newOwnerEpoch now convId key).2) ∧
      ∀ other, other ≠ convId → (g.newOwnerEpoch now convId key).1.groups.lookup other = g.groups.lookup other :=
    ⟨⟨{ GroupState.default with seenHigh := (g.groups.lookup convId).bind GroupState.seenHigh }, _, AList.lookup_insert _, rfl, rfl, rfl⟩,
      fun _ hne => AList.lookup_insert_ne hne⟩
  cases how with
  | newOwnerEpoch => exact hfresh
  | rotate =>
    have hrotate : g.mint .rotate now convId key = g.rotate now convId key := rfl
    rw [hrotate]
    cases hlook : g.groups.lookup convId with
    | none =>
      rw [SenderKeysGroup.rotate_of_none hlook, ← hlook]
      exact hfresh
    | some state =>
      rw [SenderKeysGroup.rotate_of_some hlook]
      exact ⟨⟨state, state.install now state.nextEpoch key, AList.lookup_insert _, rfl, rfl, rfl⟩, fun _ hne => AList.lookup_insert_ne hne⟩

/-- One step keeps track of the highest epoch of every conversation. -/
theorem tracks_step {s s' : Keyer K} {op : KeyerOp K} (h : ∀ c, Tracks (s.since c) (s.group.groups.lookup c))
    (hstep : s.step op = some s') (c : String) : Tracks (s'.since c) (s'.group.groups.lookup c) := by
  cases op with
  | mint how now convId key =>
    obtain rfl := Option.some.inj hstep
    dsimp only
    by_cases hc : c = convId
    · subst hc
      obtain ⟨state, after, hlook, hbefore, hafter, hcurrent⟩ := (mint_lookup s.group how now c key).1
      rw [hlook, Function.update_self]
      exact tracks_seen (h c) _ hbefore hafter (Or.inl hcurrent)
    · rw [(mint_lookup s.group how now convId key).2 c hc, Function.update_of_ne hc]
      exact h c
  | restart =>
    obtain rfl := Option.some.inj hstep
    exact tracks_none
  | forget convId =>
    obtain rfl := Option.some.inj hstep
    dsimp only [SenderKeysGroup.forget]
    by_cases hc : c = convId
    · subst hc
      rw [AList.lookup_erase, Function.update_self]
      exact tracks_none
    · rw [AList.lookup_erase_ne hc, Function.update_of_ne hc]
      exact h c
  | noteObservedEpoch convId epoch =>
    obtain rfl := Option.some.inj hstep
    dsimp only [SenderKeysGroup.noteObservedEpoch]
    by_cases hc : c = convId
    · subst hc
      rw [AList.lookup_insert, Function.update_self]
      have hc := h c
      cases hlook : s.group.groups.lookup c with
      | none =>
        rw [hlook] at hc
        -- Nothing was known of the conversation: its current epoch is 0, which no epoch is below.
        refine ⟨fun hnone => absurd hnone (by simp), fun st hst => ?_⟩
        obtain rfl := Option.some.inj hst
        rw [hc.1 rfl]
        exact ⟨epoch, List.mem_cons_self, rfl, UInt8.zero_le, fun seen hseen => (List.mem_singleton.mp hseen) ▸ UInt8.le_refl _⟩
      | some state =>
        rw [hlook] at hc
        exact @tracks_seen K _ _ hc epoch state _ rfl rfl (Or.inr ⟨state, rfl, rfl⟩)
    · rw [AList.lookup_insert_ne hc, Function.update_of_ne hc]
      exact h c

theorem tracks_run {ops : List (KeyerOp K)} {s : Keyer K} (hrun : run Keyer.step Keyer.new ops = some s) (c : String) :
    Tracks (s.since c) (s.group.groups.lookup c) :=
  run_invariant (fun (_ : List (KeyerOp K)) (s : Keyer K) => ∀ c, Tracks (s.since c) (s.group.groups.lookup c)) (fun _ => tracks_none)
    (fun _ _ _ _ h hstep => tracks_step h hstep) hrun c

/-! ### The number that is minted -/

theorem follows_succ {since : List UInt8} {high : UInt8} (hmem : high ∈ since) (hmax : ∀ seen ∈ since, seen ≤ high) :
    Follows since (high + 1) := by
  unfold Follows
  by_cases hlast : 255 ∈ since
  · rw [if_pos hlast]
    have hle := UInt8.le_iff_toNat_le.mp (hmax 255 hlast)
    have heq : high = 255 := UInt8.toNat_inj.mp (Nat.le_antisymm (Nat.le_of_lt_succ high.toNat_lt) hle)
    rw [heq]
    rfl
  · rw [if_neg hlast]
    have hne : high ≠ 255 := fun heq => hlast (heq ▸ hmem)
    refine ⟨by rwa [UInt8.add_sub_cancel], fun seen hseen => ?_⟩
    have hle := UInt8.le_iff_toNat_le.mp (hmax seen hseen)
    have hne' : high.toNat ≠ 255 := fun heq => hne (UInt8.toNat_inj.mp heq)
    have hlt := high.toNat_lt
    rw [UInt8.lt_iff_toNat_lt, UInt8.toNat_add]
    have hone : (1 : UInt8).toNat = 1 := rfl
    omega

theorem follows_mint {s : Keyer K} {convId : String} (h : Tracks (s.since convId) (s.group.groups.lookup convId))
    (hsince : s.since convId ≠ []) (how : Mint) (now : Nat) (key : K) : Follows (s.since convId) (s.group.mint how now convId key).2 := by
  rw [mint_epoch]
  cases hlook : s.group.groups.lookup convId with
  | none => exact absurd (h.1 hlook) hsince
  | some state =>
    obtain ⟨high, hmem, hseenHigh, hcurrent, hmax⟩ := h.2 state hlook
    have hnext : state.nextEpoch = high + 1 := by
      unfold GroupState.nextEpoch
      rw [hseenHigh, Option.elim_some, if_pos hcurrent]
    rw [Option.elim_some, hnext]
    exact follows_succ hmem hmax

/-- One number follows. -/
theorem follows_unique {since : List UInt8} {a b : UInt8} (ha : Follows since a) (hb : Follows since b) : a = b := by
  unfold Follows at ha hb
  by_cases hlast : 255 ∈ since
  · rw [if_pos hlast] at ha hb
    rw [ha, hb]
  · rw [if_neg hlast] at ha hb
    -- Each of the two is above the number before the other.
    have hab := UInt8.lt_iff_toNat_lt.mp (ha.2 _ hb.1)
    have hba := UInt8.lt_iff_toNat_lt.mp (hb.2 _ ha.1)
    rw [UInt8.toNat_sub] at hab hba
    have hone : (1 : UInt8).toNat = 1 := rfl
    have ha' := a.toNat_lt
    have hb' := b.toNat_lt
    have hself := UInt8.lt_iff_toNat_lt.mp (ha.2 _ ha.1)
    rw [UInt8.toNat_sub] at hself
    exact UInt8.toNat_inj.mp (by omega)

/-- The number that follows is taken at an epoch that was minted or seen exactly when those are not too far ahead of it. -/
theorem accept_iff {since : List UInt8} {current offered : UInt8} (hcurrent : current ∈ since) (h : Follows since offered) :
    offered - current ≤ maxEpochAdvance ↔ WithinReach since current := by
  unfold Follows at h
  unfold WithinReach
  rw [UInt8.le_iff_toNat_le, UInt8.toNat_sub]
  have hadvance : maxEpochAdvance.toNat = 64 := rfl
  have hc := current.toNat_lt
  have ho := offered.toNat_lt
  by_cases hlast : 255 ∈ since
  · rw [if_pos hlast] at h ⊢
    rw [h, UInt8.le_iff_toNat_le, ← UInt8.toNat_inj]
    have hzero : (0 : UInt8).toNat = 0 := rfl
    have hfar : (192 : UInt8).toNat = 192 := rfl
    omega
  · rw [if_neg hlast] at h ⊢
    obtain ⟨hmem, hmax⟩ := h
    have hbelow := UInt8.lt_iff_toNat_lt.mp (hmax current hcurrent)
    have hhigh := UInt8.lt_iff_toNat_lt.mp (hmax _ hmem)
    rw [UInt8.toNat_sub] at hhigh
    have hone : (1 : UInt8).toNat = 1 := rfl
    constructor
    · intro hle seen hseen
      have hlt := UInt8.lt_iff_toNat_lt.mp (hmax seen hseen)
      omega
    · intro hall
      have hlt := hall _ hmem
      rw [UInt8.toNat_sub] at hlt
      omega

/-! ### Two epochs in a row -/

/-- Epochs that are only seen are added to those of their conversation. -/
theorem since_observed {between : List (KeyerOp K)} (hobserved : ∀ op ∈ between, ∃ c e, op = .noteObservedEpoch c e)
    {s s' : Keyer K} (hrun : run Keyer.step s between = some s') (convId : String) (epoch : UInt8) :
    epoch ∈ s'.since convId ↔ epoch ∈ s.since convId ∨ .noteObservedEpoch convId epoch ∈ between := by
  induction between generalizing s with
  | nil =>
    obtain rfl := Option.some.inj hrun
    simp
  | cons op between ih =>
    rw [run_cons] at hrun
    obtain ⟨s₁, hstep, hrun⟩ := Option.bind_eq_some_iff.mp hrun
    rw [ih (fun op hop => hobserved op (List.mem_cons_of_mem _ hop)) hrun]
    obtain ⟨c, e, rfl⟩ := hobserved op List.mem_cons_self
    obtain rfl := Option.some.inj hstep
    dsimp only
    by_cases hc : convId = c
    · subst hc
      rw [Function.update_self, List.mem_cons, List.mem_cons, KeyerOp.noteObservedEpoch.injEq]
      tauto
    · rw [Function.update_of_ne hc, List.mem_cons, KeyerOp.noteObservedEpoch.injEq]
      tauto

/-- Two numbers that are minted in a row are the same exactly when the first is 0 and 255 is among the epochs before the second. -/
theorem same_iff {before after : List UInt8} {first second : UInt8} (hfirst : before = [] ∧ first = 0 ∨ Follows before first)
    (hmem : first ∈ after) (hsub : ∀ e ∈ before, e ∈ after) (hsecond : Follows after second) :
    second = first ↔ 255 ∈ before ∨ (before = [] ∧ 255 ∈ after) := by
  unfold Follows at hfirst hsecond
  by_cases hlast : 255 ∈ after
  · rw [if_pos hlast] at hsecond
    rw [hsecond]
    rcases hfirst with ⟨hnil, hzero⟩ | hfollows
    · exact iff_of_true hzero.symm (Or.inr ⟨hnil, hlast⟩)
    · by_cases hbefore : 255 ∈ before
      · rw [if_pos hbefore] at hfollows
        exact iff_of_true hfollows.symm (Or.inl hbefore)
      · rw [if_neg hbefore] at hfollows
        refine iff_of_false (fun hzero => ?_) ?_
        · rw [← hzero] at hfollows
          exact absurd (hfollows.2 _ hfollows.1) (by decide)
        · rintro (h | ⟨rfl, -⟩)
          · exact hbefore h
          · exact absurd hfollows.1 List.not_mem_nil
  · rw [if_neg hlast] at hsecond
    refine iff_of_false (fun heq => ?_) ?_
    · exact absurd (hsecond.2 first hmem) (heq ▸ UInt8.lt_irrefl _)
    · rintro (h | ⟨-, h⟩)
      · exact hlast (hsub _ h)
      · exact hlast h

end MintedEpochsAux

open MintedEpochsAux

/-- **Minted epochs.** After every run of a keyer, and for every member whose current epoch the keyer minted or saw since its keys
were last forgotten: the member takes the epoch that is minted next and keeps no other key under it exactly when it is in reach. Two
epochs in a row, with nothing but epochs seen between them, have one number exactly when 255 was minted or seen before the first, or
is seen before the second and nothing was before the first. -/
theorem minted_takeable_iff {ops : List (KeyerOp K)} {s : Keyer K} (hrun : run Keyer.step Keyer.new ops = some s) (convId : String) :
    (∀ member : SenderKeysGroup K, member.currentEpoch convId ∈ s.since convId → ∀ how now key,
      (Takeable member convId (s.group.mint how now convId key).2 key ↔ InReach member convId (s.since convId) key)) ∧
    ∀ how now key between s₁ how₁ now₁ key₁, (∀ op ∈ between, ∃ c e, op = .noteObservedEpoch c e) →
      run Keyer.step s (.mint how now convId key :: between) = some s₁ →
      ((s₁.group.mint how₁ now₁ convId key₁).2 = (s.group.mint how now convId key).2 ↔
        255 ∈ s.since convId ∨ (s.since convId = [] ∧ .noteObservedEpoch convId 255 ∈ between)) := by
  have htracks := tracks_run hrun convId
  constructor
  · intro member hmember how now key
    have hfollows := follows_mint htracks (List.ne_nil_of_mem hmember) how now key
    refine and_congr ?_ ?_
    · unfold acceptGroupKeyEpoch
      rw [Bool.or_eq_true, Bool.not_eq_true', decide_eq_true_eq, accept_iff hmember hfollows, ← Bool.not_eq_true, imp_iff_not_or]
    · constructor
      · intro hnone epoch other hlook hne hfol
        obtain rfl := follows_unique hfol hfollows
        exact hne (hnone other hlook)
      · intro hnone other hlook
        by_contra hne
        exact hnone _ other hlook hne hfollows
  · intro how now key between s₁ how₁ now₁ key₁ hobserved hrun₁
    have hwhole : run Keyer.step Keyer.new (ops ++ .mint how now convId key :: between) = some s₁ := by
      rw [run_append, hrun, Option.bind_some, hrun₁]
    have hafter := tracks_run hwhole convId
    rw [run_cons] at hrun₁
    obtain ⟨s₂, hstep, hrun₁⟩ := Option.bind_eq_some_iff.mp hrun₁
    obtain rfl := Option.some.inj hstep
    have hmem (e : UInt8) : e ∈ s₁.since convId ↔
        (e = (s.group.mint how now convId key).2 ∨ e ∈ s.since convId) ∨ .noteObservedEpoch convId e ∈ between := by
      rw [since_observed hobserved hrun₁]
      dsimp only
      rw [Function.update_self, List.mem_cons]
    have hfirst : s.since convId = [] ∧ (s.group.mint how now convId key).2 = 0 ∨
        Follows (s.since convId) (s.group.mint how now convId key).2 := by
      by_cases hnil : s.since convId = []
      · refine Or.inl ⟨hnil, ?_⟩
        rw [mint_epoch]
        cases hlook : s.group.groups.lookup convId with
        | none => rfl
        | some state =>
          obtain ⟨high, hhigh, -⟩ := htracks.2 state hlook
          exact absurd hhigh (hnil ▸ List.not_mem_nil)
      · exact Or.inr (follows_mint htracks hnil how now key)
    have hin := (hmem _).mpr (Or.inl (Or.inl rfl))
    rw [same_iff hfirst hin (fun e he => (hmem e).mpr (Or.inl (Or.inr he)))
      (follows_mint hafter (List.ne_nil_of_mem hin) how₁ now₁ key₁)]
    refine or_congr_right (and_congr_right fun hnil => ?_)
    rw [hmem, hnil]
    rcases hfirst with ⟨-, hzero⟩ | hfollows
    · rw [hzero]
      simp
    · rw [hnil, Follows, if_neg List.not_mem_nil] at hfollows
      exact absurd hfollows.1 List.not_mem_nil

end

namespace MintedEpochsAux

/-- A keyer comes back and sees the epoch that its room is at. -/
def comesBack : List (KeyerOp Nat) := [.mint .newOwnerEpoch 0 "r" 10, .restart, .noteObservedEpoch "r" 4]

/-- A member at an epoch, with the key of it. -/
def memberAt (epoch : UInt8) (key : Nat) : List (KeyOp Nat) := [.install 0 "r" epoch key]

/-- A frame of the last epoch of all comes in, and a key is minted. -/
def lastSeen : List (KeyerOp Nat) := [.noteObservedEpoch "r" 255, .mint .newOwnerEpoch 0 "r" 10]

end MintedEpochsAux

open MintedEpochsAux

/-- A member that kept running takes what the keyer that came back mints, and two such epochs differ. -/
theorem minted_takeable_iff_back : ∃ (s s₁ : Keyer Nat) (m : KeyHistory Nat), run Keyer.step Keyer.new comesBack = some s ∧
    run KeyHistory.step KeyHistory.new (memberAt 4 14) = some m ∧ Takeable m.group "r" (s.group.mint .newOwnerEpoch 0 "r" 15).2 15 ∧
    run Keyer.step s [.mint .newOwnerEpoch 0 "r" 15] = some s₁ ∧
    (s₁.group.mint .rotate 0 "r" 16).2 ≠ (s.group.mint .newOwnerEpoch 0 "r" 15).2 := by
  obtain ⟨s, hrun, hsince⟩ : ∃ s, run Keyer.step Keyer.new comesBack = some s ∧ s.since "r" = [4] := ⟨_, rfl, by decide +kernel⟩
  obtain ⟨m, hmember, hcurrent, hkeys⟩ : ∃ m, run KeyHistory.step KeyHistory.new (memberAt 4 14) = some m ∧
      m.group.currentEpoch "r" = 4 ∧ (m.group.retained "r").keys = [4] := ⟨_, rfl, by decide +kernel, by decide +kernel⟩
  obtain ⟨s₁, hnext⟩ : ∃ s₁, run Keyer.step s [.mint .newOwnerEpoch 0 "r" 15] = some s₁ := ⟨_, rfl⟩
  obtain ⟨htakes, htwo⟩ := minted_takeable_iff hrun "r"
  rw [hsince] at htakes
  refine ⟨s, s₁, m, hrun, hmember, (htakes m.group (by rw [hcurrent]; decide) .newOwnerEpoch 0 15).mpr ⟨fun _ => ?_, ?_⟩, hnext,
    fun heq => ?_⟩
  · rw [hcurrent, WithinReach, if_neg (by decide)]
    intro seen hseen
    rw [List.mem_singleton.mp hseen]
    decide
  · intro epoch other hlook _ hfollows
    have hmem : epoch ∈ (m.group.retained "r").keys := AList.mem_keys.mp (AList.lookup_isSome.mp (by rw [hlook]; rfl))
    rw [hkeys, List.mem_singleton] at hmem
    rw [Follows, if_neg (by decide), hmem] at hfollows
    exact absurd hfollows.1 (by decide)
  · have hsame := (htwo .newOwnerEpoch 0 15 [] s₁ .rotate 0 16 (by simp) hnext).mp heq
    rw [hsince] at hsame
    exact absurd hsame (by simp)

/-- A member at the first epoch of a keyer is offered that number again, with another key. -/
theorem minted_takeable_fails : ¬ ∀ (ops : List (KeyerOp Nat)) (s : Keyer Nat) (mops : List (KeyOp Nat)) (m : KeyHistory Nat),
    run Keyer.step Keyer.new ops = some s → run KeyHistory.step KeyHistory.new mops = some m →
    ∀ convId, m.group.currentEpoch convId ∈ s.since convId →
      ∀ how now key, Takeable m.group convId (s.group.mint how now convId key).2 key := by
  intro hclaim
  have hrun : run Keyer.step Keyer.new lastSeen = some _ := rfl
  have hmember : run KeyHistory.step KeyHistory.new (memberAt 0 10) = some _ := rfl
  have htakes := hclaim lastSeen _ (memberAt 0 10) _ hrun hmember "r" (by decide +kernel) .rotate 0 11
  exact absurd (htakes.2 10 (by decide +kernel)) (by decide)

end DoubleSlash.Keys
