import DoubleSlash.Lemmas.Quotas

/-!
# Quotas enforce the rates of their buckets

Descriptors come and go and three gates are called. A bucket has the rates of the call it was made by, so that a gate enforces the rates
it documents as long as the buckets it meets have them.
-/

namespace DoubleSlash.Features

open Assoc Protocol TokenBucket

/-- The gates. -/
inductive Gate where
  | inbound | fanout | outbound
  deriving DecidableEq

/-- The rates a gate documents for a descriptor. -/
def Gate.rates : Gate → CapabilityDescriptor → QuotaParams
  | .inbound => FeatureRegistry.quotaParamsFor
  | .fanout | .outbound => FeatureRegistry.quotaParamsOutboundFor

/-- The gates share two tables of buckets. -/
def Gate.isInbound : Gate → Bool
  | .inbound | .fanout => true
  | .outbound => false

/-- What happens at a registry. -/
inductive QuotaAct where
  | register (cap : CapabilityDescriptor)
  | upsert (cap : CapabilityDescriptor)
  | remove (id : String)
  | gate (gate : Gate) (featureId peerId : String) (byteCount : Nat)

namespace FeatureRegistry

variable {M : Type} (r : FeatureRegistry M)

/-- A call of a gate. -/
def callGate (now : ℚ) (featureId peerId : String) (byteCount : Nat) : Gate → FeatureRegistry M × Bool
  | .inbound => r.gateInboundThroughFeature now featureId peerId byteCount
  | .fanout => r.gateInboundFanoutThroughFeature now featureId peerId byteCount
  | .outbound => r.gateThroughFeature now featureId peerId byteCount

/-- What an act makes of the registry, and what a gate answers. -/
def act (a : ℚ × QuotaAct) : FeatureRegistry M × Option Bool :=
  match a.2 with
  | .register cap => ((r.register cap).1, none)
  | .upsert cap => ((r.upsert cap).1, none)
  | .remove id => ((r.remove id).1, none)
  | .gate gate featureId peerId byteCount =>
    let called := r.callGate a.1 featureId peerId byteCount gate
    (called.1, some called.2)

/-- The registry after acts. -/
def after (acts : List (ℚ × QuotaAct)) : FeatureRegistry M := acts.foldl (fun r a => (r.act a).1) r

/-- What the acts are answered. -/
def answers : FeatureRegistry M → List (ℚ × QuotaAct) → List (Option Bool)
  | _, [] => []
  | r, a :: acts => (r.act a).2 :: answers (r.act a).1 acts

/-- The bucket a gate has for a feature and a peer. -/
def bucket (inbound : Bool) (featureId peerId : String) : Option QuotaState :=
  (if inbound then r.quotas else r.outboundQuotas).states.lookup (featureId, peerId)

/-- The descriptor in force. -/
def inForce (featureId : String) : Option CapabilityDescriptor := (r.inner.lookup featureId).map Entry.descriptor

/-- The bucket that a call of a gate meets has the rates the gate documents. -/
def MeetsRates (gate : Gate) (featureId peerId : String) : Prop :=
  ∀ cap s, r.inForce featureId = some cap → r.bucket gate.isInbound featureId peerId = some s → s.params = gate.rates cap

/-- The same for a call of some of the gates for a feature and a peer. -/
def CallMeetsRates (which : Gate → Bool) (featureId peerId : String) : QuotaAct → Prop
  | .gate gate feature peer _ => which gate = true → feature = featureId → peer = peerId → r.MeetsRates gate featureId peerId
  | _ => True

/-- Some of the gates are called for a feature and a peer only where the bucket has the rates they document. -/
def AllMeetRates (which : Gate → Bool) (featureId peerId : String) : FeatureRegistry M → List (ℚ × QuotaAct) → Prop
  | _, [] => True
  | r, a :: acts => r.CallMeetsRates which featureId peerId a.2 ∧ AllMeetRates which featureId peerId (r.act a).1 acts

/-- What an act lets through for a peer at some of the gates, while there is a descriptor. -/
def lets (which : Gate → Bool) (featureId peerId : String) (a : ℚ × QuotaAct) : List (ℚ × ℚ) :=
  match a.2 with
  | .gate gate feature peer byteCount =>
    if which gate = true ∧ feature = featureId ∧ peer = peerId ∧ (r.inForce featureId).isSome = true ∧ (r.act a).2 = some true then
      [(a.1, (byteCount : ℚ))]
    else []
  | _ => []

/-- What was let through, when and how many bytes. -/
def admitted (which : Gate → Bool) (featureId peerId : String) : FeatureRegistry M → List (ℚ × QuotaAct) → List (ℚ × ℚ)
  | _, [] => []
  | r, a :: acts => r.lets which featureId peerId a ++ admitted which featureId peerId (r.act a).1 acts

/-- How many bytes were let through. -/
def bytesAdmitted (which : Gate → Bool) (featureId peerId : String) (acts : List (ℚ × QuotaAct)) : ℚ :=
  ((r.admitted which featureId peerId acts).map Prod.snd).sum

end FeatureRegistry

/-- The plain inbound gate alone. -/
def plainInbound (gate : Gate) : Bool := gate == .inbound

/-- The gates of a table. -/
def ofTable (inbound : Bool) (gate : Gate) : Bool := gate.isInbound == inbound

/-- Acts in the order of their times. -/
def Ordered (acts : List (ℚ × QuotaAct)) : Prop := acts.Pairwise fun a b => a.1 ≤ b.1

namespace QuotasAux

open FeatureRegistry

variable {M : Type} {r : FeatureRegistry M}

/-! ### What an act does to the buckets -/

/-- One message at a table of buckets. -/
theorem lookup_tryConsume (q : QuotaRegistry) (now : ℚ) (featureId peerId : String) (n : Nat) (params : QuotaParams)
    (feature peer : String) :
    (q.tryConsume now featureId peerId n params).1.states.lookup (feature, peer) =
      if feature = featureId ∧ peer = peerId then
        some (((q.states.lookup (featureId, peerId)).getD (QuotaState.new now params)).tryConsume now n).1
      else q.states.lookup (feature, peer) := by
  unfold QuotaRegistry.tryConsume QuotaRegistry.stateFor
  dsimp only
  split
  next hkey =>
    obtain ⟨rfl, rfl⟩ := hkey
    exact AList.lookup_insert _
  next hkey =>
    refine AList.lookup_insert_ne fun heq => hkey ?_
    exact ⟨congrArg Prod.fst heq, congrArg Prod.snd heq⟩

/-- A call of a gate, with the rates and the table of the gate. -/
theorem callGate_eq (r : FeatureRegistry M) (now : ℚ) (featureId peerId : String) (n : Nat) (gate : Gate) :
    (r.inForce featureId = none ∧ r.callGate now featureId peerId n gate = (r, true)) ∨
    ∃ cap, r.inForce featureId = some cap ∧
      (r.callGate now featureId peerId n gate).2 =
        (((r.bucket gate.isInbound featureId peerId).getD (.new now (gate.rates cap))).tryConsume now n).2 ∧
      (r.callGate now featureId peerId n gate).1.inner = r.inner ∧
      ∀ inbound feature peer, (r.callGate now featureId peerId n gate).1.bucket inbound feature peer =
        if inbound = gate.isInbound ∧ feature = featureId ∧ peer = peerId then
          some (((r.bucket gate.isInbound featureId peerId).getD (.new now (gate.rates cap))).tryConsume now n).1
        else r.bucket inbound feature peer := by
  cases hentry : r.inner.lookup featureId with
  | none =>
    refine Or.inl ⟨by rw [inForce, hentry]; rfl, ?_⟩
    cases gate with
    | inbound => simp only [callGate, gateInboundThroughFeature, hentry]
    | fanout => simp only [callGate, gateInboundFanoutThroughFeature, hentry]
    | outbound => simp only [callGate, gateThroughFeature, hentry]
  | some entry =>
    refine Or.inr ⟨entry.descriptor, by rw [inForce, hentry]; rfl, ?_⟩
    cases gate with
    | inbound =>
      unfold callGate gateInboundThroughFeature
      rw [hentry]
      refine ⟨rfl, rfl, fun inbound feature peer => ?_⟩
      cases inbound with
      | true => exact (lookup_tryConsume r.quotas ..).trans (by simp [bucket, Gate.isInbound, Gate.rates])
      | false => simp [bucket, Gate.isInbound]
    | fanout =>
      unfold callGate gateInboundFanoutThroughFeature
      rw [hentry]
      refine ⟨rfl, rfl, fun inbound feature peer => ?_⟩
      cases inbound with
      | true => exact (lookup_tryConsume r.quotas ..).trans (by simp [bucket, Gate.isInbound, Gate.rates])
      | false => simp [bucket, Gate.isInbound]
    | outbound =>
      unfold callGate gateThroughFeature
      rw [hentry]
      refine ⟨rfl, rfl, fun inbound feature peer => ?_⟩
      cases inbound with
      | true => simp [bucket, Gate.isInbound]
      | false => exact (lookup_tryConsume r.outboundQuotas ..).trans (by simp [bucket, Gate.isInbound, Gate.rates])

/-- What is done to the descriptors leaves the buckets alone. -/
theorem bucket_descriptors (r : FeatureRegistry M) (inbound : Bool) (feature peer : String) (cap : CapabilityDescriptor) (id : String) :
    (r.register cap).1.bucket inbound feature peer = r.bucket inbound feature peer ∧
      (r.upsert cap).1.bucket inbound feature peer = r.bucket inbound feature peer ∧
        (r.remove id).1.bucket inbound feature peer = r.bucket inbound feature peer := by
  refine ⟨?_, ?_, rfl⟩
  · unfold register
    split
    · rfl
    · split
      · rfl
      · rfl
  · unfold upsert
    split
    · rfl
    · rfl

/-- A call at the bucket of a feature and a peer, and what became of it. -/
structure Called (r : FeatureRegistry M) (inbound : Bool) (featureId peerId : String) (a : ℚ × QuotaAct) (gate : Gate) (n : Nat)
    (cap : CapabilityDescriptor) : Prop where
  call : a.2 = .gate gate featureId peerId n
  table : gate.isInbound = inbound
  descriptor : r.inForce featureId = some cap
  state : (r.act a).1.bucket inbound featureId peerId =
    some (((r.bucket inbound featureId peerId).getD (.new a.1 (gate.rates cap))).tryConsume a.1 n).1
  answer : (r.act a).2 = some (((r.bucket inbound featureId peerId).getD (.new a.1 (gate.rates cap))).tryConsume a.1 n).2

/-- An act is a call at a bucket, or leaves it as it is and lets nothing through. -/
theorem called_or_same (r : FeatureRegistry M) (inbound : Bool) (featureId peerId : String) (a : ℚ × QuotaAct) :
    (∃ gate n cap, Called r inbound featureId peerId a gate n cap) ∨
    ((r.act a).1.bucket inbound featureId peerId = r.bucket inbound featureId peerId ∧
      ∀ which : Gate → Bool, (∀ gate, which gate = true → gate.isInbound = inbound) → r.lets which featureId peerId a = []) := by
  obtain ⟨now, act⟩ := a
  cases act with
  | register cap => exact Or.inr ⟨(bucket_descriptors r inbound featureId peerId cap "").1, fun _ _ => rfl⟩
  | upsert cap => exact Or.inr ⟨(bucket_descriptors r inbound featureId peerId cap "").2.1, fun _ _ => rfl⟩
  | remove id => exact Or.inr ⟨rfl, fun _ _ => rfl⟩
  | gate gate feature peer n =>
    rcases callGate_eq r now feature peer n gate with ⟨hnone, hcall⟩ | ⟨cap, hcap, hanswer, -, hbucket⟩
    · refine Or.inr ⟨congrArg (fun called => called.1.bucket inbound featureId peerId) hcall, fun which _ => if_neg ?_⟩
      rintro ⟨-, rfl, -, hsome, -⟩
      rw [hnone] at hsome
      cases hsome
    · by_cases hkey : inbound = gate.isInbound ∧ featureId = feature ∧ peerId = peer
      · have hstate := (hbucket inbound featureId peerId).trans (if_pos hkey)
        obtain ⟨rfl, rfl, rfl⟩ := hkey
        exact Or.inl ⟨gate, n, cap, rfl, rfl, hcap, hstate, congrArg some hanswer⟩
      · refine Or.inr ⟨(hbucket inbound featureId peerId).trans (if_neg hkey), fun which hwhich => if_neg ?_⟩
        rintro ⟨hgate, hfeature, hpeer, -⟩
        exact hkey ⟨(hwhich gate hgate).symm, hfeature.symm, hpeer.symm⟩

/-- What a call lets through. -/
theorem Called.lets_eq {inbound : Bool} {featureId peerId : String} {a : ℚ × QuotaAct} {gate : Gate} {n : Nat}
    {cap : CapabilityDescriptor} (h : Called r inbound featureId peerId a gate n cap) (which : Gate → Bool) :
    r.lets which featureId peerId a =
      if which gate = true ∧ (((r.bucket inbound featureId peerId).getD (.new a.1 (gate.rates cap))).tryConsume a.1 n).2 = true then
        [(a.1, (n : ℚ))]
      else [] := by
  simp [lets, h.call, h.answer, h.descriptor]

theorem rates_nonneg (gate : Gate) (cap : CapabilityDescriptor) :
    0 ≤ (gate.rates cap).bytesPerSec ∧ 0 ≤ (gate.rates cap).datagramsPerSec := by
  cases gate with
  | inbound => exact ⟨QuotaParams.readRate_nonneg .., QuotaParams.readRate_nonneg ..⟩
  | fanout => exact ⟨QuotaParams.readRate_nonneg .., QuotaParams.readRate_nonneg ..⟩
  | outbound => exact ⟨QuotaParams.readRate_nonneg .., QuotaParams.readRate_nonneg ..⟩

theorem after_concat (r : FeatureRegistry M) (acts : List (ℚ × QuotaAct)) (a : ℚ × QuotaAct) :
    r.after (acts ++ [a]) = ((r.after acts).act a).1 := List.foldl_concat ..

theorem admitted_concat (which : Gate → Bool) (featureId peerId : String) (r : FeatureRegistry M) (acts : List (ℚ × QuotaAct))
    (a : ℚ × QuotaAct) :
    admitted which featureId peerId r (acts ++ [a]) =
      admitted which featureId peerId r acts ++ (r.after acts).lets which featureId peerId a := by
  induction acts generalizing r with
  | nil => exact List.append_nil _
  | cons b acts ih =>
    rw [List.cons_append, admitted, admitted, ih, List.append_assoc]
    rfl

/-! ### What the buckets tell of a run -/

/-- The buckets account for what came through, and none was filled later than the last act. -/
def Told (acts : List (ℚ × QuotaAct)) (r : FeatureRegistry M) : Prop :=
  ∀ inbound featureId peerId s, r.bucket inbound featureId peerId = some s →
    s.Sound (admitted (ofTable inbound) featureId peerId (.new : FeatureRegistry M) acts) ∧
      ∀ now, (∀ e ∈ acts, e.1 ≤ now) → s.lastRefill ≤ now

theorem told_new : Told [] (.new : FeatureRegistry M) := by
  intro inbound featureId peerId s hs
  have hnone : (FeatureRegistry.new : FeatureRegistry M).bucket inbound featureId peerId = none := by
    cases inbound with
    | true => exact AList.lookup_empty _
    | false => exact AList.lookup_empty _
  rw [hnone] at hs
  cases hs

/-- The bucket a call meets or makes. -/
theorem Told.getD {acts : List (ℚ × QuotaAct)} (h : Told acts r) {now : ℚ} (hnow : ∀ e ∈ acts, e.1 ≤ now) (inbound : Bool)
    (featureId peerId : String) (params : QuotaParams) (hrates : 0 ≤ params.bytesPerSec ∧ 0 ≤ params.datagramsPerSec) :
    ((r.bucket inbound featureId peerId).getD (.new now params)).Sound
        (admitted (ofTable inbound) featureId peerId (.new : FeatureRegistry M) acts) ∧
      ((r.bucket inbound featureId peerId).getD (.new now params)).lastRefill ≤ now := by
  cases hbucket : r.bucket inbound featureId peerId with
  | none => exact ⟨QuotaState.sound_new hrates.1 hrates.2 now _, le_refl now⟩
  | some s =>
    obtain ⟨hsound, hfilled⟩ := h inbound featureId peerId s hbucket
    exact ⟨hsound, hfilled now hnow⟩

/-- **Every run is told by the buckets.** -/
theorem told_after (acts : List (ℚ × QuotaAct)) (hordered : Ordered acts) :
    Told acts ((.new : FeatureRegistry M).after acts) := by
  induction acts using List.reverseRecOn with
  | nil => exact told_new
  | append_singleton acts a ih =>
    obtain ⟨hacts, -, hlast⟩ := List.pairwise_append.mp hordered
    have htold := ih hacts
    have hbefore : ∀ e ∈ acts, e.1 ≤ a.1 := fun e he => hlast e he a (List.mem_singleton_self a)
    intro inbound featureId peerId s hs
    rw [after_concat] at hs
    rw [admitted_concat]
    rcases called_or_same ((FeatureRegistry.new : FeatureRegistry M).after acts) inbound featureId peerId a with
      ⟨gate, n, cap, hcalled⟩ | ⟨hsame, hlets⟩
    · rw [hcalled.state] at hs
      obtain rfl := Option.some.inj hs
      have htable : ofTable inbound gate = true := beq_iff_eq.mpr hcalled.table
      have hlets : ∀ allowed : Bool, (if ofTable inbound gate = true ∧ allowed = true then [(a.1, (n : ℚ))] else []) =
          if allowed then [(a.1, (n : ℚ))] else [] := by
        intro allowed
        simp only [htable, true_and]
      obtain ⟨hsound, hfilled⟩ := htold.getD hbefore inbound featureId peerId (gate.rates cap) (rates_nonneg gate cap)
      rw [hcalled.lets_eq, hlets]
      obtain ⟨hthen, hlast⟩ := hsound.tryConsume hfilled n
      refine ⟨?_, fun now hnow => hlast.trans (hnow a (List.mem_append_right _ (List.mem_singleton_self a)))⟩
      split at hthen
      next hallowed =>
        rw [if_pos hallowed]
        exact hthen
      next hrefused =>
        rw [if_neg hrefused, List.append_nil]
        exact hthen
    · rw [hsame] at hs
      rw [hlets (ofTable inbound) (fun gate hgate => beq_iff_eq.mp hgate), List.append_nil]
      obtain ⟨hsound, hfilled⟩ := htold inbound featureId peerId s hs
      exact ⟨hsound, fun now hnow => hfilled now fun e he => hnow e (List.mem_append_left _ he)⟩

/-! ### What is let through -/

theorem after_append (r : FeatureRegistry M) (acts later : List (ℚ × QuotaAct)) : r.after (acts ++ later) = (r.after acts).after later :=
  List.foldl_append ..

theorem allMeetRates_concat (which : Gate → Bool) (featureId peerId : String) (r : FeatureRegistry M) (acts : List (ℚ × QuotaAct))
    (a : ℚ × QuotaAct) : AllMeetRates which featureId peerId r (acts ++ [a]) ↔
      AllMeetRates which featureId peerId r acts ∧ (r.after acts).CallMeetsRates which featureId peerId a.2 := by
  induction acts generalizing r with
  | nil => exact and_comm
  | cons b acts ih =>
    rw [List.cons_append, AllMeetRates, AllMeetRates, ih, and_assoc]
    rfl

theorem bytesAdmitted_concat (which : Gate → Bool) (featureId peerId : String) (r : FeatureRegistry M) (acts : List (ℚ × QuotaAct))
    (a : ℚ × QuotaAct) : r.bytesAdmitted which featureId peerId (acts ++ [a]) =
      r.bytesAdmitted which featureId peerId acts + (((r.after acts).lets which featureId peerId a).map Prod.snd).sum := by
  unfold bytesAdmitted
  rw [admitted_concat, List.map_append, List.sum_append]

/-- One message, of which all or nothing is counted. -/
theorem covered_consume {s : QuotaState} {now since spent counted : ℚ} {n : Nat} (hrate : 0 < s.params.bytesPerSec)
    (h : Covered s.params.bytesPerSec since s.bytes spent) (hlast : s.lastRefill ≤ now) (hsince : since ≤ now) (hcounted : counted ≤ n) :
    Covered s.params.bytesPerSec since (s.tryConsume now n).1.bytes (spent + if (s.tryConsume now n).2 then counted else 0) := by
  have hrefill := h.refill (le_of_lt hrate) (t := now) hlast
  rw [← QuotaState.refill_bytes hlast hrate] at hrefill
  rcases s.tryConsume_cases now n with ⟨hunbounded, -⟩ | ⟨-, -, hconsume⟩ | ⟨-, -, hconsume⟩
  · rw [QuotaParams.isUnbounded, Bool.and_eq_true, beq_iff_eq] at hunbounded
    exact absurd hunbounded.1 (ne_of_gt hrate)
  · have hfull : (s.refill now).bytes.tokens ≤ s.params.bytesPerSec := by
      rw [QuotaState.refill_bytes hlast hrate]
      exact level_le _ _ _
    have htake : ((s.refill now).take n).bytes = spend (s.refill now).bytes n := QuotaState.take_bytes (s.refill now) hrate n
    rw [hconsume, if_pos rfl, htake]
    exact hrefill.spend hsince hfull hcounted
  · rw [hconsume, if_neg Bool.false_ne_true, add_zero]
    exact hrefill

/-- What a bucket of given rates covers; one of other rates, or none, has let nothing through. -/
def CoveredAt (params : QuotaParams) (since spent : ℚ) (bucket : Option QuotaState) : Prop :=
  (spent = 0 ∧ ∀ s, bucket = some s → s.params ≠ params) ∨
    ∃ s, bucket = some s ∧ s.params = params ∧ Covered params.bytesPerSec since s.bytes spent

variable {featureId peerId : String} {cap : CapabilityDescriptor} {since : ℚ}

/-- The bucket that a call meets or makes has the rates, or nothing was let through and this call does not count. -/
theorem CoveredAt.met {spent : ℚ} {gate : Gate} {n : Nat} {now : ℚ} {act : QuotaAct}
    (h : CoveredAt (Gate.inbound.rates cap) since spent (r.bucket true featureId peerId)) (hact : act = .gate gate featureId peerId n)
    (hcap : r.inForce featureId = some cap) (hmeets : r.CallMeetsRates plainInbound featureId peerId act) :
    (((r.bucket true featureId peerId).getD (.new now (gate.rates cap))).params = Gate.inbound.rates cap ∧
      Covered (Gate.inbound.rates cap).bytesPerSec since ((r.bucket true featureId peerId).getD (.new now (gate.rates cap))).bytes spent) ∨
    (((r.bucket true featureId peerId).getD (.new now (gate.rates cap))).params ≠ Gate.inbound.rates cap ∧ spent = 0 ∧
      plainInbound gate = false) := by
  rw [hact] at hmeets
  rcases h with ⟨rfl, hother⟩ | ⟨s, hs, hparams, hcovered⟩
  · cases hbucket : r.bucket true featureId peerId with
    | none =>
      by_cases hrates : gate.rates cap = Gate.inbound.rates cap
      · rw [hrates]
        exact Or.inl ⟨rfl, covered_zero (rates_nonneg .inbound cap).1 since _⟩
      · refine Or.inr ⟨hrates, rfl, beq_eq_false_iff_ne.mpr ?_⟩
        rintro rfl
        exact hrates rfl
    | some s =>
      refine Or.inr ⟨hother s hbucket, rfl, beq_eq_false_iff_ne.mpr ?_⟩
      rintro rfl
      exact hother s hbucket (hmeets rfl rfl rfl cap s hcap hbucket)
  · rw [hs]
    exact Or.inl ⟨hparams, hcovered⟩

/-- One call at the bucket. -/
theorem CoveredAt.called {acts : List (ℚ × QuotaAct)} {a : ℚ × QuotaAct} {gate : Gate} {n : Nat} {spent : ℚ}
    (h : CoveredAt (Gate.inbound.rates cap) since spent (r.bucket true featureId peerId))
    (hcalled : Called r true featureId peerId a gate n cap) (hrate : 0 < (Gate.inbound.rates cap).bytesPerSec)
    (htold : Told acts r) (hnow : ∀ e ∈ acts, e.1 ≤ a.1) (hsince : since ≤ a.1)
    (hmeets : r.CallMeetsRates plainInbound featureId peerId a.2) :
    CoveredAt (Gate.inbound.rates cap) since (spent + ((r.lets plainInbound featureId peerId a).map Prod.snd).sum)
      ((r.act a).1.bucket true featureId peerId) := by
  have hlast := (htold.getD hnow true featureId peerId (gate.rates cap) (rates_nonneg gate cap)).2
  have hmet := @CoveredAt.met _ _ _ _ _ _ _ _ _ a.1 _ h hcalled.call hcalled.descriptor hmeets
  rw [hcalled.state, hcalled.lets_eq]
  generalize (r.bucket true featureId peerId).getD (.new a.1 (gate.rates cap)) = s at hlast hmet ⊢
  rcases hmet with ⟨hparams, hcovered⟩ | ⟨hparams, rfl, hgate⟩
  · rw [← hparams] at hrate hcovered ⊢
    have hcounted : (if plainInbound gate = true then (n : ℚ) else 0) ≤ n := by
      split
      · exact le_refl _
      · exact Nat.cast_nonneg n
    have hsum : ((if plainInbound gate = true ∧ (s.tryConsume a.1 n).2 = true then [(a.1, (n : ℚ))] else []).map Prod.snd).sum =
        if (s.tryConsume a.1 n).2 = true then (if plainInbound gate = true then (n : ℚ) else 0) else 0 := by
      cases plainInbound gate <;> cases (s.tryConsume a.1 n).2 <;> simp
    rw [hsum]
    exact Or.inr ⟨_, rfl, s.tryConsume_params a.1 n, covered_consume hrate hcovered hlast hsince hcounted⟩
  · left
    rw [hgate]
    refine ⟨by simp, fun t ht => ?_⟩
    rw [← Option.some.inj ht, s.tryConsume_params]
    exact hparams

/-- **What is let through in an interval.** -/
theorem covered_segment (acts seg : List (ℚ × QuotaAct)) (hordered : Ordered (acts ++ seg)) (hsince : ∀ e ∈ seg, since ≤ e.1)
    (hforce : ∀ pre, pre <+: seg → ((.new : FeatureRegistry M).after (acts ++ pre)).inForce featureId = some cap)
    (hrate : 0 < (Gate.inbound.rates cap).bytesPerSec)
    (hmeets : AllMeetRates plainInbound featureId peerId ((.new : FeatureRegistry M).after acts) seg) :
    CoveredAt (Gate.inbound.rates cap) since (((.new : FeatureRegistry M).after acts).bytesAdmitted plainInbound featureId peerId seg)
      (((.new : FeatureRegistry M).after (acts ++ seg)).bucket true featureId peerId) := by
  induction seg using List.reverseRecOn with
  | nil =>
    rw [List.append_nil]
    by_cases hrates : ∃ s, ((.new : FeatureRegistry M).after acts).bucket true featureId peerId = some s ∧
        s.params = Gate.inbound.rates cap
    · obtain ⟨s, hs, hparams⟩ := hrates
      exact Or.inr ⟨s, hs, hparams, covered_zero (le_of_lt hrate) since _⟩
    · exact Or.inl ⟨rfl, fun s hs hparams => hrates ⟨s, hs, hparams⟩⟩
  | append_singleton seg a ih =>
    rw [← List.append_assoc] at hordered ⊢
    obtain ⟨hbefore, -, hlast⟩ := List.pairwise_append.mp hordered
    obtain ⟨hmeets, hcall⟩ := (allMeetRates_concat ..).mp hmeets
    have hcovered := ih hbefore (fun e he => hsince e (List.mem_append_left _ he))
      (fun pre hpre => hforce pre (hpre.trans (List.prefix_append _ _))) hmeets
    have hthen := hforce seg (List.prefix_append _ _)
    rw [bytesAdmitted_concat, after_concat]
    rw [← after_append] at hcall ⊢
    rcases called_or_same ((.new : FeatureRegistry M).after (acts ++ seg)) true featureId peerId a with
      ⟨gate, n, other, hcalled⟩ | ⟨hsame, hlets⟩
    · obtain rfl := Option.some.inj (hcalled.descriptor.symm.trans hthen)
      exact hcovered.called hcalled hrate (told_after _ hbefore) (fun e he => hlast e he a (List.mem_singleton_self a))
        (hsince a (List.mem_append_right _ (List.mem_singleton_self a))) hcall
    · rw [hsame, hlets plainInbound (fun gate hgate => by rw [beq_iff_eq.mp hgate]; rfl)]
      simpa using hcovered

/-- The bytes let through in an interval are bounded. -/
theorem bytes_bounded (acts seg : List (ℚ × QuotaAct)) (hordered : Ordered (acts ++ seg)) {upto : ℚ} (hsince : ∀ e ∈ seg, since ≤ e.1)
    (hupto : ∀ e ∈ seg, e.1 ≤ upto) (hle : since ≤ upto)
    (hforce : ∀ pre, pre <+: seg → ((.new : FeatureRegistry M).after (acts ++ pre)).inForce featureId = some cap)
    (hrate : 0 < (Gate.inbound.rates cap).bytesPerSec)
    (hmeets : AllMeetRates plainInbound featureId peerId ((.new : FeatureRegistry M).after acts) seg) :
    ((.new : FeatureRegistry M).after acts).bytesAdmitted plainInbound featureId peerId seg ≤
      (Gate.inbound.rates cap).bytesPerSec * (upto - since) + (Gate.inbound.rates cap).bytesPerSec := by
  have hflow : 0 ≤ (Gate.inbound.rates cap).bytesPerSec * (upto - since) := mul_nonneg (le_of_lt hrate) (sub_nonneg.mpr hle)
  rcases covered_segment acts seg hordered hsince hforce hrate hmeets with ⟨hzero, -⟩ | ⟨s, hs, hparams, hcovered⟩
  · linarith
  · rcases List.eq_nil_or_concat seg with rfl | ⟨seg', a, rfl⟩
    · have hzero : ((.new : FeatureRegistry M).after acts).bytesAdmitted plainInbound featureId peerId [] = 0 := rfl
      linarith
    · rw [List.concat_eq_append] at hordered hs hupto
      rw [← List.append_assoc] at hordered hs
      have hlater : ∀ e ∈ acts ++ seg' ++ [a], e.1 ≤ upto := by
        have hlast := hupto a (List.mem_append_right _ (List.mem_singleton_self a))
        intro e he
        rcases List.mem_append.mp he with he | he
        · exact ((List.pairwise_append.mp hordered).2.2 e he a (List.mem_singleton_self a)).trans hlast
        · rw [List.mem_singleton.mp he]
          exact hlast
      obtain ⟨hsound, hfilled⟩ := told_after _ hordered true featureId peerId s hs
      have hrate' : 0 < s.params.bytesPerSec := by rw [hparams]; exact hrate
      have hlevel := level_nonneg (le_of_lt hrate) (b := s.bytes) (hsound.filled hrate').1 (hfilled upto hlater)
      have hthen := hcovered upto hle (hfilled upto hlater)
      linarith

/-! ### What is refused -/

/-- A refused call is too much for its bucket. -/
theorem refused_exceeds (acts : List (ℚ × QuotaAct)) (a : ℚ × QuotaAct) (hordered : Ordered (acts ++ [a])) {gate : Gate} {n : Nat}
    (hcall : a.2 = .gate gate featureId peerId n) (hmeets : ((.new : FeatureRegistry M).after acts).MeetsRates gate featureId peerId)
    (hrefused : (((.new : FeatureRegistry M).after acts).act a).2 = some false) :
    ∃ cap, ((.new : FeatureRegistry M).after acts).inForce featureId = some cap ∧
      ((0 < (gate.rates cap).bytesPerSec ∧ QuotaState.Exceeds (gate.rates cap).bytesPerSec a.1 n
          (admitted (ofTable gate.isInbound) featureId peerId (.new : FeatureRegistry M) acts)) ∨
        (0 < (gate.rates cap).datagramsPerSec ∧ QuotaState.Exceeds (gate.rates cap).datagramsPerSec a.1 1
          ((admitted (ofTable gate.isInbound) featureId peerId (.new : FeatureRegistry M) acts).map fun e => (e.1, 1)))) := by
  obtain ⟨hbefore, -, hlast⟩ := List.pairwise_append.mp hordered
  have htold := @Told.getD M _ _ (told_after acts hbefore) a.1 fun e he => hlast e he a (List.mem_singleton_self a)
  obtain ⟨now, act⟩ := a
  obtain rfl : act = .gate gate featureId peerId n := hcall
  generalize (.new : FeatureRegistry M).after acts = r at *
  rcases callGate_eq r now featureId peerId n gate with ⟨-, hpass⟩ | ⟨cap, hcap, hanswer, -, -⟩
  · have hallowed : (r.act (now, .gate gate featureId peerId n)).2 = some true := congrArg (fun called : FeatureRegistry M × Bool => some called.2) hpass
    rw [hallowed] at hrefused
    cases hrefused
  · refine ⟨cap, hcap, ?_⟩
    obtain ⟨hsound, hfilled⟩ := htold gate.isInbound featureId peerId (gate.rates cap) (rates_nonneg gate cap)
    have hparams : ((r.bucket gate.isInbound featureId peerId).getD (.new now (gate.rates cap))).params = gate.rates cap := by
      cases hbucket : r.bucket gate.isInbound featureId peerId with
      | none => rfl
      | some s => exact hmeets cap s hcap hbucket
    have hshort := hsound.refused hfilled (hanswer.symm.trans (Option.some.inj hrefused))
    rw [hparams] at hshort
    exact hshort

/-! ### A refused call leaves no trace -/

/-- Two registries that differ in one bucket, and there only in when it was last looked at. -/
structure Alike (inbound : Bool) (featureId peerId : String) (since : ℚ) (left right : FeatureRegistry M) : Prop where
  inner : left.inner = right.inner
  others : ∀ table feature peer, ¬(table = inbound ∧ feature = featureId ∧ peer = peerId) →
    left.bucket table feature peer = right.bucket table feature peer
  bucket : left.bucket inbound featureId peerId = right.bucket inbound featureId peerId ∨
    ∃ s, left.bucket inbound featureId peerId = some s ∧ s.params.isUnbounded = false ∧
      ∀ now, since ≤ now →
        ((right.bucket inbound featureId peerId).getD (.new now s.params)).params = s.params ∧
        ((right.bucket inbound featureId peerId).getD (.new now s.params)).refill now = s.refill now

theorem Alike.consumed {inbound : Bool} {left right : FeatureRegistry M} (h : Alike inbound featureId peerId since left right)
    {now : ℚ} (hnow : since ≤ now) {gate : Gate} {feature peer : String} {n : Nat} (hcap : left.inForce feature = some cap)
    (hmeets : left.CallMeetsRates (ofTable inbound) featureId peerId (.gate gate feature peer n)) :
    ((left.bucket gate.isInbound feature peer).getD (.new now (gate.rates cap))).tryConsume now n =
      ((right.bucket gate.isInbound feature peer).getD (.new now (gate.rates cap))).tryConsume now n := by
  by_cases hkey : gate.isInbound = inbound ∧ feature = featureId ∧ peer = peerId
  · obtain ⟨rfl, rfl, rfl⟩ := hkey
    rcases h.bucket with heq | ⟨s, hs, hbounded, halike⟩
    · rw [heq]
    · have hparams := hmeets (beq_self_eq_true _) rfl rfl cap s hcap hs
      obtain ⟨hright, hrefill⟩ := halike now hnow
      rw [← hparams, hs]
      exact (QuotaState.tryConsume_congr hright hbounded hrefill n).symm
  · rw [h.others _ _ _ hkey]

theorem inForce_congr {left right : FeatureRegistry M} (h : left.inner = right.inner) (featureId : String) :
    left.inForce featureId = right.inForce featureId := by
  unfold inForce
  rw [h]

/-- What is done to the descriptors looks at the descriptors only. -/
theorem descriptors_congr {left right : FeatureRegistry M} (h : left.inner = right.inner) (cap : CapabilityDescriptor) (id : String) :
    (left.register cap).1.inner = (right.register cap).1.inner ∧ (left.upsert cap).1.inner = (right.upsert cap).1.inner ∧
      (left.remove id).1.inner = (right.remove id).1.inner := by
  refine ⟨?_, ?_, congrArg (AList.erase id) h⟩
  · unfold register
    rw [h]
    split
    · exact h
    · split
      · exact h
      · rfl
  · unfold upsert
    rw [h]
    split
    · exact h
    · rfl

theorem Alike.of_buckets {inbound : Bool} {left right left' right' : FeatureRegistry M}
    (h : Alike inbound featureId peerId since left right) (hinner : left'.inner = right'.inner)
    (hleft : ∀ table feature peer, left'.bucket table feature peer = left.bucket table feature peer)
    (hright : ∀ table feature peer, right'.bucket table feature peer = right.bucket table feature peer) :
    Alike inbound featureId peerId since left' right' where
  inner := hinner
  others table feature peer hkey := by rw [hleft, hright, h.others table feature peer hkey]
  bucket := by
    rw [hleft, hright]
    exact h.bucket

/-- One act. -/
theorem Alike.act {inbound : Bool} {left right : FeatureRegistry M} (h : Alike inbound featureId peerId since left right)
    (a : ℚ × QuotaAct) (hsince : since ≤ a.1) (hmeets : left.CallMeetsRates (ofTable inbound) featureId peerId a.2) :
    (left.act a).2 = (right.act a).2 ∧ Alike inbound featureId peerId since (left.act a).1 (right.act a).1 := by
  obtain ⟨now, act⟩ := a
  cases act with
  | register cap =>
    exact ⟨rfl, h.of_buckets (descriptors_congr h.inner cap "").1 (fun _ _ _ => (bucket_descriptors left _ _ _ cap "").1)
      fun _ _ _ => (bucket_descriptors right _ _ _ cap "").1⟩
  | upsert cap =>
    exact ⟨rfl, h.of_buckets (descriptors_congr h.inner cap "").2.1 (fun _ _ _ => (bucket_descriptors left _ _ _ cap "").2.1)
      fun _ _ _ => (bucket_descriptors right _ _ _ cap "").2.1⟩
  | remove id => exact ⟨rfl, h.of_buckets (congrArg (AList.erase id) h.inner) (fun _ _ _ => rfl) fun _ _ _ => rfl⟩
  | gate gate feature peer n =>
    have hforce := inForce_congr h.inner feature
    rcases callGate_eq left now feature peer n gate with ⟨hnone, hcall⟩ | ⟨cap, hcap, hanswer, hinner, hbucket⟩
    · rcases callGate_eq right now feature peer n gate with ⟨-, hcall'⟩ | ⟨cap, hcap, -⟩
      · change some (left.callGate now feature peer n gate).2 = some (right.callGate now feature peer n gate).2 ∧
          Alike inbound featureId peerId since (left.callGate now feature peer n gate).1 (right.callGate now feature peer n gate).1
        rw [hcall, hcall']
        exact ⟨rfl, h⟩
      · rw [← hforce, hnone] at hcap
        cases hcap
    · rcases callGate_eq right now feature peer n gate with ⟨hnone, -⟩ | ⟨cap', hcap', hanswer', hinner', hbucket'⟩
      · rw [← hforce, hcap] at hnone
        cases hnone
      · rw [← hforce, hcap] at hcap'
        obtain rfl := Option.some.inj hcap'
        have hconsumed := h.consumed hsince hcap hmeets
        rw [← hconsumed] at hanswer' hbucket'
        refine ⟨congrArg some (hanswer.trans hanswer'.symm), (hinner.trans h.inner).trans hinner'.symm, ?_, ?_⟩
        · intro table feature' peer' hother
          refine (hbucket table feature' peer').trans (Eq.trans ?_ (hbucket' table feature' peer').symm)
          rw [h.others table feature' peer' hother]
        · have hleft := hbucket inbound featureId peerId
          have hright := hbucket' inbound featureId peerId
          split at hleft
          next hkey =>
            rw [if_pos hkey] at hright
            exact Or.inl (hleft.trans hright.symm)
          next hkey =>
            rw [if_neg hkey] at hright
            have hkept := h.bucket
            rw [← hleft, ← hright] at hkept
            exact hkept

/-- **A run.** -/
theorem Alike.answers {inbound : Bool} (acts : List (ℚ × QuotaAct)) {left right : FeatureRegistry M}
    (h : Alike inbound featureId peerId since left right) (hsince : ∀ e ∈ acts, since ≤ e.1)
    (hmeets : AllMeetRates (ofTable inbound) featureId peerId left acts) : left.answers acts = right.answers acts := by
  induction acts generalizing left right with
  | nil => rfl
  | cons a acts ih =>
    obtain ⟨hcall, hmeets⟩ := hmeets
    obtain ⟨hanswer, hthen⟩ := h.act a (hsince a List.mem_cons_self) hcall
    rw [FeatureRegistry.answers, FeatureRegistry.answers, hanswer, ih hthen (fun e he => hsince e (List.mem_cons_of_mem a he)) hmeets]

/-- After a refused call its bucket has been looked at. -/
theorem alike_of_refused (acts : List (ℚ × QuotaAct)) (a : ℚ × QuotaAct) (hordered : Ordered (acts ++ [a])) {gate : Gate} {n : Nat}
    (hcall : a.2 = .gate gate featureId peerId n) (hrefused : (((.new : FeatureRegistry M).after acts).act a).2 = some false) :
    Alike gate.isInbound featureId peerId a.1 (((.new : FeatureRegistry M).after acts).act a).1 ((.new : FeatureRegistry M).after acts) := by
  obtain ⟨hbefore, -, hlast⟩ := List.pairwise_append.mp hordered
  have htold := @Told.getD M _ _ (told_after acts hbefore) a.1 fun e he => hlast e he a (List.mem_singleton_self a)
  obtain ⟨now, act⟩ := a
  obtain rfl : act = .gate gate featureId peerId n := hcall
  generalize (.new : FeatureRegistry M).after acts = r at *
  rcases callGate_eq r now featureId peerId n gate with ⟨-, hpass⟩ | ⟨cap, hcap, hanswer, hinner, hbucket⟩
  · have hallowed : (r.act (now, .gate gate featureId peerId n)).2 = some true :=
      congrArg (fun called : FeatureRegistry M × Bool => some called.2) hpass
    rw [hallowed] at hrefused
    cases hrefused
  · obtain ⟨hsound, hfilled⟩ := htold gate.isInbound featureId peerId (gate.rates cap) (rates_nonneg gate cap)
    have hstate := (hbucket gate.isInbound featureId peerId).trans (if_pos ⟨rfl, rfl, rfl⟩)
    refine ⟨hinner, fun table feature peer hkey => (hbucket table feature peer).trans (if_neg hkey), Or.inr ⟨_, hstate, ?_⟩⟩
    have hno := hanswer.symm.trans (Option.some.inj hrefused)
    rcases QuotaState.tryConsume_cases ((r.bucket gate.isInbound featureId peerId).getD (.new now (gate.rates cap))) now n with
      ⟨-, hconsume⟩ | ⟨-, -, hconsume⟩ | ⟨hbounded, -, hconsume⟩
    · rw [hconsume] at hno
      cases hno
    · rw [hconsume] at hno
      cases hno
    · rw [hconsume]
      refine ⟨hbounded, fun t ht => ?_⟩
      have htwice := QuotaState.refill_refill hsound.bytesRate hsound.datagramsRate hfilled ht
      cases hmet : r.bucket gate.isInbound featureId peerId with
      | none =>
        obtain ⟨hbytes, hdatagrams⟩ := rates_nonneg gate cap
        rw [hmet] at htwice
        exact ⟨rfl, (QuotaState.refill_new hbytes hdatagrams (le_refl t)).trans
          ((QuotaState.refill_new hbytes hdatagrams ht).symm.trans htwice.symm)⟩
      | some s =>
        rw [hmet] at htwice
        exact ⟨rfl, htwice.symm⟩

end QuotasAux

open FeatureRegistry QuotasAux

/-- **The gates enforce the rates they document, where their buckets have them.** In an interval in which a descriptor with a positive
inbound rate is in force, and the plain gate meets only buckets of that rate, it lets no more bytes through for a peer than flow in and
one full bucket. A call that is refused by a bucket with the rates of its gate would have been too much for the bytes or for the
datagrams. What comes after it is answered as if it had not been made, as long as its bucket is met with the rates of the gates. -/
theorem quotas_enforced {M : Type} :
    (∀ (acts seg : List (ℚ × QuotaAct)) (featureId peerId : String) (cap : CapabilityDescriptor) (since upto : ℚ),
      Ordered (acts ++ seg) → (∀ e ∈ seg, since ≤ e.1 ∧ e.1 ≤ upto) → since ≤ upto →
      (∀ pre, pre <+: seg → ((.new : FeatureRegistry M).after (acts ++ pre)).inForce featureId = some cap) →
      0 < (quotaParamsFor cap).bytesPerSec →
      AllMeetRates plainInbound featureId peerId ((.new : FeatureRegistry M).after acts) seg →
      ((.new : FeatureRegistry M).after acts).bytesAdmitted plainInbound featureId peerId seg ≤
        (quotaParamsFor cap).bytesPerSec * (upto - since) + (quotaParamsFor cap).bytesPerSec) ∧
    (∀ (acts : List (ℚ × QuotaAct)) (now : ℚ) (gate : Gate) (featureId peerId : String) (n : Nat),
      Ordered (acts ++ [(now, .gate gate featureId peerId n)]) →
      (((.new : FeatureRegistry M).after acts).act (now, .gate gate featureId peerId n)).2 = some false →
      ((.new : FeatureRegistry M).after acts).MeetsRates gate featureId peerId →
      ∃ cap, ((.new : FeatureRegistry M).after acts).inForce featureId = some cap ∧
        ((0 < (gate.rates cap).bytesPerSec ∧ QuotaState.Exceeds (gate.rates cap).bytesPerSec now n
            (admitted (ofTable gate.isInbound) featureId peerId (.new : FeatureRegistry M) acts)) ∨
          (0 < (gate.rates cap).datagramsPerSec ∧ QuotaState.Exceeds (gate.rates cap).datagramsPerSec now 1
            ((admitted (ofTable gate.isInbound) featureId peerId (.new : FeatureRegistry M) acts).map fun e => (e.1, 1))))) ∧
    (∀ (acts later : List (ℚ × QuotaAct)) (now : ℚ) (gate : Gate) (featureId peerId : String) (n : Nat),
      Ordered (acts ++ [(now, .gate gate featureId peerId n)] ++ later) →
      (((.new : FeatureRegistry M).after acts).act (now, .gate gate featureId peerId n)).2 = some false →
      AllMeetRates (ofTable gate.isInbound) featureId peerId
        (((.new : FeatureRegistry M).after acts).act (now, .gate gate featureId peerId n)).1 later →
      (((.new : FeatureRegistry M).after acts).act (now, .gate gate featureId peerId n)).1.answers later =
        ((.new : FeatureRegistry M).after acts).answers later) := by
  refine ⟨?_, ?_, ?_⟩
  · intro acts seg featureId peerId cap since upto hordered hwithin hle hforce hrate hmeets
    exact bytes_bounded acts seg hordered (fun e he => (hwithin e he).1) (fun e he => (hwithin e he).2) hle hforce hrate hmeets
  · intro acts now gate featureId peerId n hordered hrefused hmeets
    exact refused_exceeds acts (now, .gate gate featureId peerId n) hordered rfl hmeets hrefused
  · intro acts later now gate featureId peerId n hordered hrefused hmeets
    obtain ⟨hbefore, -, hlater⟩ := List.pairwise_append.mp hordered
    refine (alike_of_refused acts (now, .gate gate featureId peerId n) hbefore rfl hrefused).answers later (fun e he => ?_) hmeets
    exact hlater _ (List.mem_append_right _ (List.mem_singleton_self _)) e he

/-- A descriptor with rates. -/
def ratedCap (rates : List (String × Json)) : CapabilityDescriptor := ⟨"room.chat", "1", .datagram, .obj rates⟩

/-- One datagram a second, and one was sent. -/
def slowRun : List (ℚ × QuotaAct) :=
  [(0, .register (ratedCap [("quota_datagrams_per_sec", .int 1)])), (0, .gate .inbound "room.chat" "peer" 1)]

/-- A descriptor is replaced by one of a lower rate. -/
def reloadedRun : List (ℚ × QuotaAct) :=
  [(0, .register (ratedCap [("quota_bytes_per_sec", .int 100)])), (0, .gate .inbound "room.chat" "peer" 100),
    (1, .upsert (ratedCap [("quota_bytes_per_sec", .int 1)]))]

/-- What fans out has a higher rate. -/
def fanningRun : List (ℚ × QuotaAct) :=
  [(0, .register (ratedCap [("quota_bytes_per_sec", .int 1), ("quota_bytes_per_sec_outbound", .int 100)]))]

theorem quotas_enforced_sample :
    ((FeatureRegistry.new : FeatureRegistry Unit).after fanningRun).bytesAdmitted plainInbound "room.chat" "peer"
      [(0, .gate .inbound "room.chat" "peer" 1)] ≤ (quotaParamsFor (ratedCap [("quota_bytes_per_sec", .int 1),
        ("quota_bytes_per_sec_outbound", .int 100)])).bytesPerSec * (0 - 0) +
          (quotaParamsFor (ratedCap [("quota_bytes_per_sec", .int 1), ("quota_bytes_per_sec_outbound", .int 100)])).bytesPerSec ∧
    (∃ cap, ((FeatureRegistry.new : FeatureRegistry Unit).after fanningRun).inForce "room.chat" = some cap) ∧
    (((FeatureRegistry.new : FeatureRegistry Unit).after fanningRun).act (0, .gate .inbound "room.chat" "peer" 2)).1.answers
        [(0, .gate .inbound "room.chat" "peer" 1)] =
      ((FeatureRegistry.new : FeatureRegistry Unit).after fanningRun).answers [(0, .gate .inbound "room.chat" "peer" 1)] := by
  obtain ⟨hbounded, hrefused, hignored⟩ := quotas_enforced (M := Unit)
  have hmeets : ∀ cap ∈ ((FeatureRegistry.new : FeatureRegistry Unit).after fanningRun).inForce "room.chat",
      ∀ s ∈ ((FeatureRegistry.new : FeatureRegistry Unit).after fanningRun).bucket true "room.chat" "peer",
        s.params = Gate.inbound.rates cap := by decide +kernel
  have hmeetsThen : ∀ cap ∈ (((FeatureRegistry.new : FeatureRegistry Unit).after fanningRun).act
      (0, .gate .inbound "room.chat" "peer" 2)).1.inForce "room.chat",
      ∀ s ∈ (((FeatureRegistry.new : FeatureRegistry Unit).after fanningRun).act
        (0, .gate .inbound "room.chat" "peer" 2)).1.bucket true "room.chat" "peer", s.params = Gate.inbound.rates cap := by decide +kernel
  have hfanning : Ordered (fanningRun ++ [(0, .gate .inbound "room.chat" "peer" 2)]) := by simp [Ordered, fanningRun]
  refine ⟨?_, ?_, ?_⟩
  · refine hbounded fanningRun [(0, .gate .inbound "room.chat" "peer" 1)] "room.chat" "peer" _ 0 0 (by simp [Ordered, fanningRun])
      (by simp) (le_refl 0) (fun pre hpre => ?_) (by decide +kernel) ⟨fun _ _ _ cap s hcap hs => hmeets cap hcap s hs, trivial⟩
    rcases (@List.prefix_concat_iff _ _ [] _).mp hpre with rfl | hnil
    · rfl
    · rw [List.prefix_nil.mp hnil]
      rfl
  · obtain ⟨cap, hcap, -⟩ := hrefused fanningRun 0 .inbound "room.chat" "peer" 2 hfanning (by decide +kernel)
      fun cap s hcap hs => hmeets cap hcap s hs
    exact ⟨cap, hcap⟩
  · exact hignored fanningRun [(0, .gate .inbound "room.chat" "peer" 1)] 0 .inbound "room.chat" "peer" 2
      (by simp [Ordered, fanningRun]) (by decide +kernel) ⟨fun _ _ _ cap s hcap hs => hmeetsThen cap hcap s hs, trivial⟩

/-- A call within the bytes is refused for its datagrams; the old rate is enforced after a descriptor was replaced; and a refused call
leaves its rate to the gates it shares the bucket with. -/
theorem other_rates_enforced :
    ((((FeatureRegistry.new : FeatureRegistry Unit).after slowRun).act (0, .gate .inbound "room.chat" "peer" 1)).2 = some false ∧
      ¬QuotaState.Exceeds 65536 0 1 (admitted (ofTable true) "room.chat" "peer" (FeatureRegistry.new : FeatureRegistry Unit) slowRun)) ∧
    ((((FeatureRegistry.new : FeatureRegistry Unit).after reloadedRun).inForce "room.chat").map
        (fun cap => (quotaParamsFor cap).bytesPerSec) = some 1 ∧
      ((FeatureRegistry.new : FeatureRegistry Unit).after reloadedRun).bytesAdmitted plainInbound "room.chat" "peer"
        [(1, .gate .inbound "room.chat" "peer" 100)] = 100) ∧
    ((((FeatureRegistry.new : FeatureRegistry Unit).after fanningRun).act (0, .gate .inbound "room.chat" "peer" 2)).2 = some false ∧
      (((FeatureRegistry.new : FeatureRegistry Unit).after fanningRun).act (0, .gate .inbound "room.chat" "peer" 2)).1.answers
          [(0, .gate .fanout "room.chat" "peer" 50)] = [some false] ∧
      ((FeatureRegistry.new : FeatureRegistry Unit).after fanningRun).answers [(0, .gate .fanout "room.chat" "peer" 50)] =
        [some true]) := by
  refine ⟨⟨by decide +kernel, ?_⟩, ⟨by decide +kernel, by decide +kernel⟩, by decide +kernel, by decide +kernel, by decide +kernel⟩
  have hsent : admitted (ofTable true) "room.chat" "peer" (FeatureRegistry.new : FeatureRegistry Unit) slowRun = [(0, 1)] := by
    decide +kernel
  rw [hsent]
  rintro ⟨since, before, recent, hsplit, -, hsince, hexceeds⟩
  have hsum : (recent.map Prod.snd).sum ≤ 1 := by
    cases before with
    | nil =>
      rw [List.nil_append] at hsplit
      rw [← hsplit]
      decide +kernel
    | cons e before =>
      obtain ⟨-, hrest⟩ := List.cons.inj hsplit
      rw [(List.append_eq_nil_iff.mp hrest.symm).2]
      exact zero_le_one
  linarith

end DoubleSlash.Features
