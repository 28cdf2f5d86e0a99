import DoubleSlash.Lib.Run
import DoubleSlash.Supernode.Punch

/-!
# Pairs that punch

Two members are told to punch when both registered for each other within thirty seconds. The table keeps the time of a pair's first
registration only, so this holds as long as no pair is kept or dropped by that time when its later registrations say otherwise.
-/

namespace DoubleSlash.Supernode

open Assoc Run Sfu

/-- The table, what every member last registered for every other since the two were told to punch (when, and its endpoint), and the
time of the last call. -/
structure PunchHistory where
  pending : PendingPunches
  latest : String → String → Option (Nat × String)
  now : Nat

namespace PunchHistory

/-- Nobody registered. -/
def new : PunchHistory := { pending := ∅, latest := fun _ _ => none, now := 0 }

/-- What is sent. -/
def sent (s : PunchHistory) (msg : PunchRegister) : List PunchReady := (handlePunchRegisterMsg s.pending msg).2

/-- The registrations with the one of a call, if both members are trusted. -/
def recorded (s : PunchHistory) (msg : PunchRegister) (member partner : String) : Option (Nat × String) :=
  if member = normalizePeerId msg.sender ∧ partner = normalizePeerId msg.targetPeer ∧ msg.isTrusted member ∧ msg.isTrusted partner then
    some (msg.now, (msg.getPeerRemoteAddr member).getD msg.senderEndpoint)
  else s.latest member partner

/-- One call; the clock does not go back. A verified `PUNCH_READY` to a member about another one uses up what the member registered. -/
def step (s : PunchHistory) (msg : PunchRegister) : Option PunchHistory :=
  if msg.now < s.now then none
  else some {
    pending := (handlePunchRegisterMsg s.pending msg).1
    latest := fun member partner =>
      if (s.sent msg).any fun r => r.target = member ∧ r.peerId = partner ∧ r.verified then none else s.recorded msg member partner
    now := msg.now }

/-- A member's registration for another one is in the table. -/
def Waits (pending : PendingPunches) (member partner : String) : Prop :=
  ∃ info endpoint, pending.lookup (pairKey member partner) = some info ∧ info.endpoints.lookup member = some endpoint

end PunchHistory

open PunchHistory

/-- What a call has to do: a verified `PUNCH_READY` goes to the members of a pair exactly when both registered last within thirty
seconds of each other, with their last endpoints; and no younger registration of another pair leaves the table. -/
structure PairsFresh (s : PunchHistory) (msg : PunchRegister) : Prop where
  ready : ∀ x y ex ey, x ≠ y →
    ((∃ punchAt, ⟨x, y, ey, ex, punchAt, true⟩ ∈ s.sent msg) ↔
      ∃ tx ty, s.recorded msg x y = some (tx, ex) ∧ s.recorded msg y x = some (ty, ey) ∧ tx ≤ ty + punchStale ∧ ty ≤ tx + punchStale)
  kept : ∀ x y t endpoint, pairKey x y ≠ pairKey (normalizePeerId msg.sender) (normalizePeerId msg.targetPeer) →
    s.latest x y = some (t, endpoint) → msg.now < t + punchStale → Waits s.pending x y →
    Waits (handlePunchRegisterMsg s.pending msg).1 x y

/-- A call of two trusted members where either the other one waits and registered last in the last thirty seconds, or it does not
wait, and of those that wait since more than thirty seconds none registered again in the last thirty, the caller included. -/
def Prompt (s : PunchHistory) (msg : PunchRegister) : Prop :=
  let sender := normalizePeerId msg.sender
  let targetPeer := normalizePeerId msg.targetPeer
  msg.isTrusted sender → msg.isTrusted targetPeer → sender ≠ targetPeer →
    (Waits s.pending targetPeer sender → ∀ t endpoint, s.latest targetPeer sender = some (t, endpoint) → msg.now ≤ t + punchStale) ∧
    (¬ Waits s.pending targetPeer sender → ∀ x y info, s.pending.lookup (pairKey x y) = some info → x ∈ info.endpoints →
      info.registeredAt + punchStale < msg.now →
      (x, y) ≠ (sender, targetPeer) ∧ ∀ t endpoint, s.latest x y = some (t, endpoint) → t + punchStale < msg.now)

namespace PunchPairsAux

/-! ### Keys -/

theorem pairKey_comm (a b : String) : pairKey a b = pairKey b a := by
  unfold pairKey
  by_cases hab : a < b
  · rw [if_pos hab, if_neg (not_lt_of_gt hab)]
  · by_cases hba : b < a
    · rw [if_neg hab, if_pos hba]
    · rw [if_neg hab, if_neg hba, le_antisymm (not_lt.mp hab) (not_lt.mp hba)]

theorem pairKey_mem (a b : String) : pairKey a b = (a, b) ∨ pairKey a b = (b, a) := by
  unfold pairKey
  by_cases hab : a < b
  · exact Or.inl (if_pos hab)
  · exact Or.inr (if_neg hab)

theorem pairKey_eq_iff {a b x y : String} : pairKey x y = pairKey a b ↔ (x = a ∧ y = b) ∨ (x = b ∧ y = a) := by
  constructor
  · intro h
    rcases pairKey_mem x y with hx | hx
    · rcases pairKey_mem a b with ha | ha
      · rw [hx, ha] at h
        exact Or.inl (Prod.mk.inj h)
      · rw [hx, ha] at h
        exact Or.inr (Prod.mk.inj h)
    · rcases pairKey_mem a b with ha | ha
      · rw [hx, ha] at h
        exact Or.inr ⟨(Prod.mk.inj h).2, (Prod.mk.inj h).1⟩
      · rw [hx, ha] at h
        exact Or.inl ⟨(Prod.mk.inj h).2, (Prod.mk.inj h).1⟩
  · rintro (⟨rfl, rfl⟩ | ⟨rfl, rfl⟩)
    · rfl
    · exact pairKey_comm _ _

/-! ### What is sent -/

/-- The messages about a pair: each member gets the endpoint of the other. -/
theorem mem_sendPunchReady {a b : String} {now : Nat} {f : String → String} {x y ex ey : String} {punchAt : Nat} :
    (⟨x, y, ey, ex, punchAt, true⟩ : PunchReady) ∈
        sendPunchReady now (pairKey a b).1 (pairKey a b).2 (f (pairKey a b).1) (f (pairKey a b).2) true ↔
      ((x = a ∧ y = b) ∨ (x = b ∧ y = a)) ∧ ex = f x ∧ ey = f y ∧ punchAt = now + 500000000 := by
  unfold sendPunchReady
  rcases pairKey_mem a b with h | h
  · rw [h]
    simp only [List.mem_cons, PunchReady.mk.injEq, List.not_mem_nil, or_false]
    constructor
    · rintro (⟨rfl, rfl, rfl, rfl, rfl, -⟩ | ⟨rfl, rfl, rfl, rfl, rfl, -⟩)
      · exact ⟨Or.inl ⟨rfl, rfl⟩, rfl, rfl, rfl⟩
      · exact ⟨Or.inr ⟨rfl, rfl⟩, rfl, rfl, rfl⟩
    · rintro ⟨⟨rfl, rfl⟩ | ⟨rfl, rfl⟩, rfl, rfl, rfl⟩
      · exact Or.inl ⟨rfl, rfl, rfl, rfl, rfl, trivial⟩
      · exact Or.inr ⟨rfl, rfl, rfl, rfl, rfl, trivial⟩
  · rw [h]
    simp only [List.mem_cons, PunchReady.mk.injEq, List.not_mem_nil, or_false]
    constructor
    · rintro (⟨rfl, rfl, rfl, rfl, rfl, -⟩ | ⟨rfl, rfl, rfl, rfl, rfl, -⟩)
      · exact ⟨Or.inr ⟨rfl, rfl⟩, rfl, rfl, rfl⟩
      · exact ⟨Or.inl ⟨rfl, rfl⟩, rfl, rfl, rfl⟩
    · rintro ⟨⟨rfl, rfl⟩ | ⟨rfl, rfl⟩, rfl, rfl, rfl⟩
      · exact Or.inr ⟨rfl, rfl, rfl, rfl, rfl, trivial⟩
      · exact Or.inl ⟨rfl, rfl, rfl, rfl, rfl, trivial⟩

/-! ### One call -/

section

variable {punches : PendingPunches} {msg : PunchRegister} {a b : String}

/-- The endpoint that is stored for the sender of a call. -/
def endpointOf (msg : PunchRegister) (sender : String) : String := (msg.getPeerRemoteAddr sender).getD msg.senderEndpoint

/-- The entry of a pair, as it was or new. -/
def entryOf (punches : PendingPunches) (now : Nat) (a b : String) : PunchRegistration :=
  (punches.lookup (pairKey a b)).getD { registeredAt := now, endpoints := ∅ }

/-- The endpoints of a pair with that of the caller. -/
def endpointsOf (punches : PendingPunches) (msg : PunchRegister) (a b : String) : HashMap String String :=
  (entryOf punches msg.now a b).endpoints.insert a (endpointOf msg a)

theorem handle_untrusted (ha : normalizePeerId msg.sender = a) (hb : normalizePeerId msg.targetPeer = b)
    (h : ¬ (msg.isTrusted a ∧ msg.isTrusted b)) : handlePunchRegisterMsg punches msg = (punches, []) := by
  unfold handlePunchRegisterMsg
  rw [ha, hb]
  dsimp only
  by_cases hs : msg.isTrusted a = true
  · have ht : msg.isTrusted b = false := Bool.eq_false_iff.mpr fun ht => h ⟨hs, ht⟩
    rw [hs, ht]
    rfl
  · rw [Bool.eq_false_iff.mpr hs]
    rfl

/-- The pair leaves the table and is told. -/
theorem handle_ready (ha : normalizePeerId msg.sender = a) (hb : normalizePeerId msg.targetPeer = b) (hs : msg.isTrusted a)
    (ht : msg.isTrusted b) (h : b ∈ endpointsOf punches msg a b) : handlePunchRegisterMsg punches msg =
      (punches.erase (pairKey a b), sendPunchReady msg.now (pairKey a b).1 (pairKey a b).2
        (((endpointsOf punches msg a b).lookup (pairKey a b).1).getD "") (((endpointsOf punches msg a b).lookup (pairKey a b).2).getD "")
        true) := by
  unfold handlePunchRegisterMsg
  rw [ha, hb]
  dsimp only
  rw [hs, ht]
  have hboth : a ∈ endpointsOf punches msg a b ∧ b ∈ endpointsOf punches msg a b := ⟨AList.mem_insert _ |>.mpr (Or.inl rfl), h⟩
  exact if_pos hboth

/-- The caller waits, and what is stale leaves the table. -/
theorem handle_wait (ha : normalizePeerId msg.sender = a) (hb : normalizePeerId msg.targetPeer = b) (hs : msg.isTrusted a)
    (ht : msg.isTrusted b) (h : b ∉ endpointsOf punches msg a b) : handlePunchRegisterMsg punches msg =
      (retain (punches.insert (pairKey a b) { entryOf punches msg.now a b with endpoints := endpointsOf punches msg a b }) fun _ info =>
        !decide (punchStale < msg.now - info.registeredAt), []) := by
  unfold handlePunchRegisterMsg
  rw [ha, hb]
  dsimp only
  rw [hs, ht]
  have hnot : ¬ (a ∈ endpointsOf punches msg a b ∧ b ∈ endpointsOf punches msg a b) := fun hall => h hall.2
  exact if_neg hnot

/-- The other member of the pair is told exactly when it waits. -/
theorem waits_iff (hne : a ≠ b) : b ∈ endpointsOf punches msg a b ↔ Waits punches b a := by
  unfold Waits endpointsOf entryOf
  rw [AList.mem_insert, or_iff_right hne.symm, pairKey_comm b a]
  cases punches.lookup (pairKey a b) with
  | none =>
    refine iff_of_false (AList.notMem_empty _) ?_
    rintro ⟨_, _, hinfo, -⟩
    exact absurd hinfo (by simp)
  | some info =>
    rw [Option.getD_some, ← AList.lookup_isSome, Option.isSome_iff_exists]
    constructor
    · rintro ⟨endpoint, h⟩
      exact ⟨info, endpoint, rfl, h⟩
    · rintro ⟨info', endpoint, hinfo, h⟩
      obtain rfl := Option.some.inj hinfo
      exact ⟨endpoint, h⟩

theorem recorded_of_ne {s : PunchHistory} (ha : normalizePeerId msg.sender = a) (hb : normalizePeerId msg.targetPeer = b) {x y : String}
    (h : ¬ (x = a ∧ y = b)) : s.recorded msg x y = s.latest x y :=
  if_neg fun hall => h ⟨hall.1.trans ha, hall.2.1.trans hb⟩

theorem recorded_self {s : PunchHistory} (ha : normalizePeerId msg.sender = a) (hb : normalizePeerId msg.targetPeer = b)
    (hs : msg.isTrusted a) (ht : msg.isTrusted b) : s.recorded msg a b = some (msg.now, endpointOf msg a) :=
  if_pos ⟨ha.symm, hb.symm, hs, ht⟩

theorem step_eq_some {s s' : PunchHistory} (h : s.step msg = some s') : s.now ≤ msg.now ∧ s'.now = msg.now ∧
    s'.pending = (handlePunchRegisterMsg s.pending msg).1 ∧ ∀ x y, s'.latest x y =
      if (s.sent msg).any fun r => r.target = x ∧ r.peerId = y ∧ r.verified then none else s.recorded msg x y := by
  unfold PunchHistory.step at h
  split at h
  · exact absurd h (by simp)
  · rename_i hnow
    obtain rfl := Option.some.inj h
    exact ⟨not_lt.mp hnow, rfl, rfl, fun _ _ => rfl⟩

end

/-! ### The table and the registrations -/

/-- What holds after every call: of every pair in the table one member waits, under the endpoint that it registered last and since
no later than that; a registration that does not wait is older than thirty seconds; and no two of a pair are within thirty seconds. -/
structure Agrees (s : PunchHistory) : Prop where
  started : ∀ key info, s.pending.lookup key = some info →
    info.registeredAt ≤ s.now ∧ ∃ member endpoint, info.endpoints.lookup member = some endpoint
  waiting : ∀ key info member endpoint, s.pending.lookup key = some info → info.endpoints.lookup member = some endpoint →
    ∃ partner t, key = pairKey member partner ∧ member ≠ partner ∧ s.latest member partner = some (t, endpoint) ∧
      info.registeredAt ≤ t ∧ partner ∉ info.endpoints
  late : ∀ member partner t endpoint, member ≠ partner → s.latest member partner = some (t, endpoint) →
    t ≤ s.now ∧ (Waits s.pending member partner ∨ t + punchStale < s.now)
  apart : ∀ x y tx ex ty ey, x ≠ y → s.latest x y = some (tx, ex) → s.latest y x = some (ty, ey) →
    tx + punchStale < ty ∨ ty + punchStale < tx

theorem agrees_new : Agrees PunchHistory.new where
  started := fun key info h => absurd ((AList.lookup_empty key).symm.trans h) (by simp)
  waiting := fun key _ _ _ h => absurd ((AList.lookup_empty key).symm.trans h) (by simp)
  late := fun _ _ _ _ _ h => absurd h (by simp [PunchHistory.new])
  apart := fun _ _ _ _ _ _ _ h => absurd h (by simp [PunchHistory.new])

/-- Pairs leave the table and their registrations are used up; the rest stays. -/
theorem agrees_gone {s t : PunchHistory} (h : Agrees s) (gone : String × String → Prop) [DecidablePred gone] (hnow : s.now ≤ t.now)
    (hpending : ∀ key, t.pending.lookup key = if gone key then none else s.pending.lookup key)
    (hlatest : ∀ x y, x ≠ y → t.latest x y = if gone (pairKey x y) then none else s.latest x y) : Agrees t := by
  have hstays {key : String × String} {info : PunchRegistration} (hinfo : t.pending.lookup key = some info) :
      ¬ gone key ∧ s.pending.lookup key = some info := by
    rw [hpending] at hinfo
    by_cases hgone : gone key
    · exact absurd ((if_pos hgone).symm.trans hinfo) (by simp)
    · exact ⟨hgone, (if_neg hgone).symm.trans hinfo⟩
  have hkept {x y : String} {r : Nat × String} (hne : x ≠ y) (hr : t.latest x y = some r) :
      ¬ gone (pairKey x y) ∧ s.latest x y = some r := by
    rw [hlatest x y hne] at hr
    by_cases hgone : gone (pairKey x y)
    · exact absurd ((if_pos hgone).symm.trans hr) (by simp)
    · exact ⟨hgone, (if_neg hgone).symm.trans hr⟩
  refine ⟨fun key info hinfo => ?_, fun key info member endpoint hinfo hmember => ?_, fun member partner time endpoint hne hr => ?_,
    fun x y tx ex ty ey hne hx hy => ?_⟩
  · obtain ⟨hle, hsome⟩ := h.started key info (hstays hinfo).2
    exact ⟨le_trans hle hnow, hsome⟩
  · obtain ⟨hgone, hinfo⟩ := hstays hinfo
    obtain ⟨partner, time, rfl, hne, hr, hle, hpartner⟩ := h.waiting key info member endpoint hinfo hmember
    exact ⟨partner, time, rfl, hne, by rw [hlatest _ _ hne, if_neg hgone, hr], hle, hpartner⟩
  · obtain ⟨hgone, hr⟩ := hkept hne hr
    obtain ⟨hle, hwaits⟩ := h.late member partner time endpoint hne hr
    refine ⟨le_trans hle hnow, hwaits.imp ?_ fun hlt => lt_of_lt_of_le hlt hnow⟩
    rintro ⟨info, e, hinfo, he⟩
    exact ⟨info, e, by rw [hpending, if_neg hgone, hinfo], he⟩
  · exact h.apart x y tx ex ty ey hne (hkept hne hx).2 (hkept hne.symm hy).2

variable {msg : PunchRegister} {a b : String}

/-- A call that tells nobody, and after which no two registrations of a pair are within thirty seconds. -/
theorem fresh_of_silent {s : PunchHistory} (hsent : ∀ r ∈ s.sent msg, r.target = r.peerId)
    (hapart : ∀ x y tx ex ty ey, x ≠ y → s.recorded msg x y = some (tx, ex) → s.recorded msg y x = some (ty, ey) →
      tx + punchStale < ty ∨ ty + punchStale < tx) (x y ex ey : String) (hne : x ≠ y) :
    (∃ punchAt, ⟨x, y, ey, ex, punchAt, true⟩ ∈ s.sent msg) ↔
      ∃ tx ty, s.recorded msg x y = some (tx, ex) ∧ s.recorded msg y x = some (ty, ey) ∧ tx ≤ ty + punchStale ∧ ty ≤ tx + punchStale := by
  refine iff_of_false ?_ ?_
  · rintro ⟨punchAt, hmem⟩
    exact hne (hsent _ hmem)
  · rintro ⟨tx, ty, hx, hy, hxy, hyx⟩
    rcases hapart x y tx ex ty ey hne hx hy with hlt | hlt
    · omega
    · omega

/-- A call that does not concern two trusted members that are not the same one: no other pair is touched. -/
theorem step_no_pair {s : PunchHistory} (h : Agrees s) (ha : normalizePeerId msg.sender = a) (hb : normalizePeerId msg.targetPeer = b)
    (hnone : ¬ (msg.isTrusted a ∧ msg.isTrusted b) ∨ a = b) : PairsFresh s msg ∧ ∀ s', s.step msg = some s' → Agrees s' := by
  have hrecorded (x y : String) (hne : x ≠ y) : s.recorded msg x y = s.latest x y := by
    rcases hnone with hnone | rfl
    · refine if_neg fun hall => hnone ?_
      obtain ⟨hx, hy, hs, ht⟩ := hall
      rw [hx, ha] at hs
      rw [hy, hb] at ht
      exact ⟨hs, ht⟩
    · exact recorded_of_ne ha hb fun hall => hne (hall.1.trans hall.2.symm)
  -- At most the pair of the member with itself leaves the table, which holds no such pair.
  have hpending : ∃ gone : String × String → Prop, (∀ x y, x ≠ y → ¬ gone (pairKey x y)) ∧
      (∀ key, (gone key → (handlePunchRegisterMsg s.pending msg).1.lookup key = none) ∧
        (¬ gone key → (handlePunchRegisterMsg s.pending msg).1.lookup key = s.pending.lookup key)) ∧
      ∀ r ∈ s.sent msg, r.target = r.peerId := by
    unfold PunchHistory.sent
    by_cases htrusted : msg.isTrusted a ∧ msg.isTrusted b
    · obtain rfl := hnone.resolve_left (not_not.mpr htrusted)
      rw [handle_ready ha hb htrusted.1 htrusted.2 (AList.mem_insert _ |>.mpr (Or.inl rfl))]
      refine ⟨fun key => key = pairKey a a, fun x y hne hkey => hne ?_, fun key => ⟨?_, AList.lookup_erase_ne⟩, fun r hr => ?_⟩
      · rcases pairKey_eq_iff.mp hkey with ⟨rfl, rfl⟩ | ⟨rfl, rfl⟩
        · rfl
        · rfl
      · rintro rfl
        exact AList.lookup_erase _ _
      · have hkey : pairKey a a = (a, a) := (pairKey_mem a a).elim id id
        rw [hkey] at hr
        rcases List.mem_cons.mp hr with rfl | hr
        · rfl
        · rw [List.mem_singleton.mp hr]
    · rw [handle_untrusted ha hb htrusted]
      exact ⟨fun _ => False, fun _ _ _ => id, fun _ => ⟨False.elim, fun _ => rfl⟩, fun _ hr => absurd hr List.not_mem_nil⟩
  obtain ⟨gone, hgone, hlookup, hsent⟩ := hpending
  refine ⟨⟨fresh_of_silent hsent fun x y tx ex ty ey hne hx hy => ?_, fun x y t endpoint hkey hlatest hyoung hwaits => ?_⟩, fun s' hstep => ?_⟩
  · rw [hrecorded x y hne] at hx
    rw [hrecorded y x hne.symm] at hy
    exact h.apart x y tx ex ty ey hne hx hy
  · obtain ⟨info, e, hinfo, he⟩ := hwaits
    obtain ⟨partner, -, hpair, hne, -⟩ := h.waiting _ info x e hinfo he
    exact ⟨info, e, ((hlookup _).2 (hpair ▸ hgone x partner hne)).trans hinfo, he⟩
  · classical
    obtain ⟨hclock, hnow, hpending, hlatest⟩ := step_eq_some hstep
    refine agrees_gone h gone (hnow ▸ hclock) (fun key => ?_) fun x y hne => ?_
    · rw [hpending]
      by_cases hkey : gone key
      · rw [if_pos hkey]
        exact (hlookup key).1 hkey
      · rw [if_neg hkey]
        exact (hlookup key).2 hkey
    · rw [hlatest, if_neg (hgone x y hne), if_neg, hrecorded x y hne]
      intro hany
      obtain ⟨r, hr, htells⟩ := List.any_eq_true.mp hany
      have hall : r.target = x ∧ r.peerId = y ∧ r.verified = true := of_decide_eq_true htells
      exact hne (hall.1.symm.trans ((hsent r hr).trans hall.2.1))

/-- The partner waits: the pair is told and leaves the table. -/
theorem step_ready {s : PunchHistory} (h : Agrees s) (ha : normalizePeerId msg.sender = a) (hb : normalizePeerId msg.targetPeer = b)
    (hs : msg.isTrusted a) (ht : msg.isTrusted b) (hne : a ≠ b) (hwaits : Waits s.pending b a) (hclock : s.now ≤ msg.now)
    (hprompt : ∀ t endpoint, s.latest b a = some (t, endpoint) → msg.now ≤ t + punchStale) :
    PairsFresh s msg ∧ ∀ s', s.step msg = some s' → Agrees s' := by
  have hhandle := handle_ready ha hb hs ht ((waits_iff hne).mpr hwaits)
  obtain ⟨info, eb, hinfo, heb⟩ := hwaits
  obtain ⟨partner, tb, hpair, hnepartner, hlatest, -, -⟩ := h.waiting _ info _ eb hinfo heb
  obtain rfl : partner = a := by
    rcases pairKey_eq_iff.mp hpair with ⟨-, heq⟩ | ⟨heq, -⟩
    · exact heq.symm
    · exact absurd heq hnepartner
  have hentry : entryOf s.pending msg.now partner b = info := by
    unfold entryOf
    rw [pairKey_comm, hinfo]
    rfl
  have hsender : ((endpointsOf s.pending msg partner b).lookup partner).getD "" = endpointOf msg partner := by
    unfold endpointsOf
    rw [AList.lookup_insert]
    rfl
  have htarget : ((endpointsOf s.pending msg partner b).lookup b).getD "" = eb := by
    unfold endpointsOf
    rw [AList.lookup_insert_ne hne.symm, hentry, heb]
    rfl
  have hmem (x y ex ey : String) (punchAt : Nat) : (⟨x, y, ey, ex, punchAt, true⟩ : PunchReady) ∈ s.sent msg ↔
      ((x = partner ∧ y = b) ∨ (x = b ∧ y = partner)) ∧ ex = ((endpointsOf s.pending msg partner b).lookup x).getD "" ∧
        ey = ((endpointsOf s.pending msg partner b).lookup y).getD "" ∧ punchAt = msg.now + 500000000 := by
    unfold PunchHistory.sent
    rw [hhandle]
    exact mem_sendPunchReady (f := fun x => ((endpointsOf s.pending msg partner b).lookup x).getD "")
  have htb := (h.late _ _ tb eb hne.symm hlatest).1
  have hlast := hprompt tb eb hlatest
  have hself := recorded_self (s := s) ha hb hs ht
  have hother : s.recorded msg b partner = some (tb, eb) := by
    rw [recorded_of_ne ha hb fun hall => hne hall.2, hlatest]
  have hrest (x y : String) (hkey : pairKey x y ≠ pairKey partner b) : s.recorded msg x y = s.latest x y :=
    recorded_of_ne ha hb fun hall => hkey (pairKey_eq_iff.mpr (Or.inl hall))
  refine ⟨⟨fun x y ex ey hxy => ?_, fun x y t endpoint hkey hxy hyoung hwaits => ?_⟩, fun s' hstep => ?_⟩
  · simp only [hmem]
    by_cases hkey : pairKey x y = pairKey partner b
    · rcases pairKey_eq_iff.mp hkey with ⟨rfl, rfl⟩ | ⟨rfl, rfl⟩
      · rw [hself, hother, hsender, htarget]
        constructor
        · rintro ⟨_, -, rfl, rfl, -⟩
          exact ⟨_, _, rfl, rfl, hlast, by omega⟩
        · rintro ⟨tx, ty, hx, hy, -, -⟩
          exact ⟨_, Or.inl ⟨rfl, rfl⟩, (Prod.mk.inj (Option.some.inj hx)).2.symm, (Prod.mk.inj (Option.some.inj hy)).2.symm, rfl⟩
      · rw [hself, hother, hsender, htarget]
        constructor
        · rintro ⟨_, -, rfl, rfl, -⟩
          exact ⟨_, _, rfl, rfl, by omega, hlast⟩
        · rintro ⟨tx, ty, hx, hy, -, -⟩
          exact ⟨_, Or.inr ⟨rfl, rfl⟩, (Prod.mk.inj (Option.some.inj hx)).2.symm, (Prod.mk.inj (Option.some.inj hy)).2.symm, rfl⟩
    · rw [hrest x y hkey, hrest y x (pairKey_comm x y ▸ hkey)]
      refine iff_of_false ?_ ?_
      · rintro ⟨punchAt, hpair, -⟩
        exact hkey (pairKey_eq_iff.mpr hpair)
      · rintro ⟨tx, ty, hx, hy, hle, hle'⟩
        rcases h.apart x y tx ex ty ey hxy hx hy with hlt | hlt
        · omega
        · omega
  · obtain ⟨info', e, hinfo', he⟩ := hwaits
    rw [ha, hb] at hkey
    refine ⟨info', e, ?_, he⟩
    rw [hhandle]
    exact (AList.lookup_erase_ne hkey).trans hinfo'
  · obtain ⟨-, hnow, hpending, hlatest'⟩ := step_eq_some hstep
    refine agrees_gone h (fun key => key = pairKey partner b) (hnow ▸ hclock) (fun key => ?_) fun x y hxy => ?_
    · rw [hpending, hhandle]
      by_cases hkey : key = pairKey partner b
      · rw [if_pos hkey, hkey]
        exact AList.lookup_erase _ _
      · rw [if_neg hkey]
        exact AList.lookup_erase_ne hkey
    · rw [hlatest']
      by_cases hkey : pairKey x y = pairKey partner b
      · rw [if_pos hkey, if_pos]
        refine List.any_eq_true.mpr ⟨_, (hmem x y _ _ _).mpr ⟨pairKey_eq_iff.mp hkey, rfl, rfl, rfl⟩, ?_⟩
        exact decide_eq_true ⟨rfl, rfl, rfl⟩
      · rw [if_neg hkey, if_neg, hrest x y hkey]
        intro hany
        obtain ⟨⟨target, peerId, ey, ex, punchAt, verified⟩, hsent, htells⟩ := List.any_eq_true.mp hany
        obtain ⟨rfl, rfl, rfl⟩ : target = x ∧ peerId = y ∧ verified = true := of_decide_eq_true htells
        exact hkey (pairKey_eq_iff.mpr ((hmem _ _ ex ey punchAt).mp hsent).1)

/-- The partner does not wait: the caller does, and what is stale leaves the table. -/
theorem step_wait {s : PunchHistory} (h : Agrees s) (ha : normalizePeerId msg.sender = a) (hb : normalizePeerId msg.targetPeer = b)
    (hs : msg.isTrusted a) (ht : msg.isTrusted b) (hne : a ≠ b) (hwaits : ¬ Waits s.pending b a) (hclock : s.now ≤ msg.now)
    (hprompt : ∀ x y info, s.pending.lookup (pairKey x y) = some info → x ∈ info.endpoints →
      info.registeredAt + punchStale < msg.now →
      (x, y) ≠ (a, b) ∧ ∀ t endpoint, s.latest x y = some (t, endpoint) → t + punchStale < msg.now) :
    PairsFresh s msg ∧ ∀ s', s.step msg = some s' → Agrees s' := by
  have hhandle := handle_wait ha hb hs ht fun hmem => hwaits ((waits_iff hne).mp hmem)
  have hsent : s.sent msg = [] := by
    unfold PunchHistory.sent
    rw [hhandle]
  have hself := recorded_self (s := s) ha hb hs ht
  have hrest (x y : String) (hxy : ¬ (x = a ∧ y = b)) : s.recorded msg x y = s.latest x y := recorded_of_ne ha hb hxy
  -- In the entry of the pair the caller waits already, or it is new; either way it is not stale.
  have hentry : (entryOf s.pending msg.now a b).registeredAt ≤ msg.now ∧
      msg.now ≤ (entryOf s.pending msg.now a b).registeredAt + punchStale ∧
      ∀ member endpoint, (entryOf s.pending msg.now a b).endpoints.lookup member = some endpoint → member = a := by
    unfold entryOf
    cases hinfo : s.pending.lookup (pairKey a b) with
    | none =>
      rw [Option.getD_none]
      refine ⟨le_rfl, Nat.le_add_right _ _, fun member endpoint hmember => ?_⟩
      exact absurd ((AList.lookup_empty member).symm.trans hmember) (by simp)
    | some info =>
      rw [Option.getD_some]
      obtain ⟨hle, member, endpoint, hmember⟩ := h.started _ info hinfo
      have honly (member endpoint : String) (hmember : info.endpoints.lookup member = some endpoint) : member = a := by
        obtain ⟨partner, t, hpair, -⟩ := h.waiting _ info member endpoint hinfo hmember
        rcases pairKey_eq_iff.mp hpair with ⟨heq, -⟩ | ⟨-, rfl⟩
        · exact heq.symm
        · exact absurd ⟨info, endpoint, (pairKey_comm b a ▸ hinfo : s.pending.lookup (pairKey b a) = some info), hmember⟩ hwaits
      refine ⟨le_trans hle hclock, not_lt.mp fun hstale => ?_, honly⟩
      obtain rfl := honly member endpoint hmember
      exact (hprompt member b info hinfo (AList.lookup_isSome.mp (by rw [hmember]; rfl)) hstale).1 rfl
  have hlookup (key : String × String) : (handlePunchRegisterMsg s.pending msg).1.lookup key =
      (if key = pairKey a b then some { entryOf s.pending msg.now a b with endpoints := endpointsOf s.pending msg a b }
        else s.pending.lookup key).filter fun info => !decide (punchStale < msg.now - info.registeredAt) := by
    rw [hhandle, lookup_retain]
    by_cases hkey : key = pairKey a b
    · rw [if_pos hkey, hkey, AList.lookup_insert]
    · rw [if_neg hkey, AList.lookup_insert_ne hkey]
  have hpair : (handlePunchRegisterMsg s.pending msg).1.lookup (pairKey a b) =
      some { entryOf s.pending msg.now a b with endpoints := endpointsOf s.pending msg a b } := by
    rw [hlookup, if_pos rfl, Option.filter_some, if_pos]
    rw [Bool.not_eq_true', decide_eq_false_iff_not]
    dsimp only
    omega
  have hkeep {key : String × String} {info : PunchRegistration} (hkey : key ≠ pairKey a b) (hinfo : s.pending.lookup key = some info)
      (hfresh : msg.now ≤ info.registeredAt + punchStale) : (handlePunchRegisterMsg s.pending msg).1.lookup key = some info := by
    rw [hlookup, if_neg hkey, hinfo, Option.filter_some, if_pos]
    rw [Bool.not_eq_true', decide_eq_false_iff_not]
    omega
  have hback {key : String × String} {info : PunchRegistration} (hkey : key ≠ pairKey a b)
      (hinfo : (handlePunchRegisterMsg s.pending msg).1.lookup key = some info) : s.pending.lookup key = some info := by
    rw [hlookup, if_neg hkey] at hinfo
    exact (Option.filter_eq_some_iff.mp hinfo).1
  have hapart (x y : String) (tx : Nat) (ex : String) (ty : Nat) (ey : String) (hxy : x ≠ y) (hx : s.recorded msg x y = some (tx, ex))
      (hy : s.recorded msg y x = some (ty, ey)) : tx + punchStale < ty ∨ ty + punchStale < tx := by
    -- The partner's registration, if it has one, does not wait, so it is stale.
    have hpartner (t : Nat) (e : String) (hr : s.recorded msg b a = some (t, e)) : t + punchStale < msg.now := by
      rw [hrest b a fun hall => hne hall.2] at hr
      exact lt_of_lt_of_le ((h.late b a t e hne.symm hr).2.resolve_left hwaits) hclock
    by_cases hab : x = a ∧ y = b
    · obtain ⟨rfl, rfl⟩ := hab
      obtain ⟨rfl, rfl⟩ := Prod.mk.inj (Option.some.inj (hself.symm.trans hx))
      exact Or.inr (hpartner ty ey hy)
    · by_cases hba : y = a ∧ x = b
      · obtain ⟨rfl, rfl⟩ := hba
        obtain ⟨rfl, rfl⟩ := Prod.mk.inj (Option.some.inj (hself.symm.trans hy))
        exact Or.inl (hpartner tx ex hx)
      · rw [hrest x y hab] at hx
        rw [hrest y x hba] at hy
        exact h.apart x y tx ex ty ey hxy hx hy
  refine ⟨⟨fresh_of_silent (by rw [hsent]; simp) hapart, fun x y t endpoint hkey hlatest hyoung hw => ?_⟩, fun s' hstep => ?_⟩
  · rw [ha, hb] at hkey
    obtain ⟨info, e, hinfo, he⟩ := hw
    refine ⟨info, e, hkeep hkey hinfo (not_lt.mp fun hstale => ?_), he⟩
    have hmem : x ∈ info.endpoints := AList.lookup_isSome.mp (by rw [he]; rfl)
    have hold := (hprompt x y info hinfo hmem hstale).2 t endpoint hlatest
    omega
  · obtain ⟨-, hnow, hpending, hlatest⟩ := step_eq_some hstep
    have hlatest (x y : String) : s'.latest x y = s.recorded msg x y := by
      rw [hlatest, hsent, List.any_nil, if_neg Bool.false_ne_true]
    refine ⟨fun key info hinfo => ?_, fun key info member endpoint hinfo hmember => ?_, fun member partner t endpoint hmp hr => ?_,
      fun x y tx ex ty ey hxy hx hy => ?_⟩
    · rw [hpending] at hinfo
      rw [hnow]
      by_cases hkey : key = pairKey a b
      · rw [hkey, hpair] at hinfo
        obtain rfl := Option.some.inj hinfo
        exact ⟨hentry.1, a, endpointOf msg a, AList.lookup_insert _⟩
      · obtain ⟨hle, hsome⟩ := h.started key info (hback hkey hinfo)
        exact ⟨le_trans hle hclock, hsome⟩
    · rw [hpending] at hinfo
      simp only [hlatest]
      by_cases hkey : key = pairKey a b
      · rw [hkey, hpair] at hinfo
        obtain rfl := Option.some.inj hinfo
        have hmem : member = a := by
          by_contra hne'
          refine hne' (hentry.2.2 member endpoint ?_)
          rw [← AList.lookup_insert_ne hne']
          exact hmember
        subst hmem
        have hendpoint : some (endpointOf msg member) = some endpoint := (AList.lookup_insert _).symm.trans hmember
        refine ⟨b, msg.now, hkey, hne, by rw [hself, Option.some.inj hendpoint], hentry.1, fun hb' => ?_⟩
        exact hwaits ((waits_iff hne).mp hb')
      · obtain ⟨partner, t, hpair', hmp, hlast, hle, hpartner⟩ := h.waiting key info member endpoint (hback hkey hinfo) hmember
        refine ⟨partner, t, hpair', hmp, ?_, hle, hpartner⟩
        rw [hrest member partner fun hall => hkey (hpair'.trans (pairKey_eq_iff.mpr (Or.inl hall))), hlast]
    · rw [hlatest] at hr
      rw [hpending, hnow]
      by_cases hab : member = a ∧ partner = b
      · obtain ⟨rfl, rfl⟩ := hab
        obtain ⟨rfl, -⟩ := Prod.mk.inj (Option.some.inj (hself.symm.trans hr))
        exact ⟨le_rfl, Or.inl ⟨_, _, hpair, AList.lookup_insert _⟩⟩
      · rw [hrest member partner hab] at hr
        obtain ⟨hle, hlate⟩ := h.late member partner t endpoint hmp hr
        refine ⟨le_trans hle hclock, ?_⟩
        rcases hlate with hw | hlt
        · have hkey : pairKey member partner ≠ pairKey a b := by
            intro hkey
            rcases pairKey_eq_iff.mp hkey with hall | ⟨rfl, rfl⟩
            · exact hab hall
            · exact hwaits hw
          obtain ⟨info, e, hinfo, he⟩ := hw
          by_cases hfresh : msg.now ≤ info.registeredAt + punchStale
          · exact Or.inl ⟨info, e, hkeep hkey hinfo hfresh, he⟩
          · have hmem : member ∈ info.endpoints := AList.lookup_isSome.mp (by rw [he]; rfl)
            exact Or.inr ((hprompt member partner info hinfo hmem (not_le.mp hfresh)).2 t endpoint hr)
        · exact Or.inr (lt_of_lt_of_le hlt hclock)
    · rw [hlatest] at hx hy
      exact hapart x y tx ex ty ey hxy hx hy

/-- **One call.** In a table that agrees with what was registered, a prompt call does what it has to do and leaves such a table. -/
theorem step_prompt {s : PunchHistory} (h : Agrees s) (hprompt : Prompt s msg) (hclock : s.now ≤ msg.now) :
    PairsFresh s msg ∧ ∀ s', s.step msg = some s' → Agrees s' := by
  obtain ⟨a, ha⟩ : ∃ a, normalizePeerId msg.sender = a := ⟨_, rfl⟩
  obtain ⟨b, hb⟩ : ∃ b, normalizePeerId msg.targetPeer = b := ⟨_, rfl⟩
  unfold Prompt at hprompt
  dsimp only at hprompt
  rw [ha, hb] at hprompt
  by_cases hnone : ¬ (msg.isTrusted a ∧ msg.isTrusted b) ∨ a = b
  · exact step_no_pair h ha hb hnone
  · obtain ⟨htrusted, hne⟩ := not_or.mp hnone
    obtain ⟨hs, ht⟩ := not_not.mp htrusted
    by_cases hwaits : Waits s.pending b a
    · exact step_ready h ha hb hs ht hne hwaits hclock ((hprompt hs ht hne).1 hwaits)
    · exact step_wait h ha hb hs ht hne hwaits hclock ((hprompt hs ht hne).2 hwaits)

end PunchPairsAux

open PunchPairsAux

/-- **Pairs that punch.** In every run of calls that are all prompt every call tells exactly the pairs whose members registered last
within thirty seconds of each other, with the endpoints that they registered last, and drops no younger registration of another pair. -/
theorem punch_pairs_fresh {before after : List PunchRegister} {msg : PunchRegister} {s : PunchHistory}
    (hprompt : Meets PunchHistory.step Prompt PunchHistory.new (before ++ msg :: after))
    (hrun : run PunchHistory.step PunchHistory.new before = some s) (hclock : s.now ≤ msg.now) : PairsFresh s msg := by
  have hkeeps (s : PunchHistory) (msg : PunchRegister) (s' : PunchHistory) (h : Agrees s) (hC : Prompt s msg)
      (hstep : s.step msg = some s') : Agrees s' := (step_prompt h hC (step_eq_some hstep).1).2 s' hstep
  obtain ⟨hagrees, hC⟩ := meets_at Agrees hkeeps agrees_new hprompt hrun
  exact (step_prompt hagrees hC hclock).1

namespace PunchPairsAux

/-- A member registers for another one; both are trusted, and the relay sees neither. -/
def registers (sender targetPeer senderEndpoint : String) (now : Nat) : PunchRegister :=
  { sender := sender, targetPeer := targetPeer, senderEndpoint := senderEndpoint, now := now, isTrusted := fun _ => true,
    getPeerRemoteAddr := fun _ => none }

/-- The other one registers, at a time. -/
def second (now : Nat) : PunchRegister := registers "b" "a" "2:2" now

theorem second_ids (now : Nat) : normalizePeerId (second now).sender = "b" ∧ normalizePeerId (second now).targetPeer = "a" :=
  ⟨(by decide +kernel : normalizePeerId "b" = "b"), (by decide +kernel : normalizePeerId "a" = "a")⟩

theorem second_recorded {s : PunchHistory} (hlatest : s.latest "a" "b" = some (0, "1:1")) (now : Nat) :
    s.recorded (second now) "a" "b" = some (0, "1:1") ∧ s.recorded (second now) "b" "a" = some (now, "2:2") := by
  obtain ⟨hsender, htarget⟩ := second_ids now
  exact ⟨(recorded_of_ne hsender htarget (by decide)).trans hlatest, recorded_self hsender htarget rfl rfl⟩

theorem run_one : ∃ s, run PunchHistory.step PunchHistory.new [registers "a" "b" "1:1" 0] = some s ∧ s.now = 0 ∧
    s.latest "a" "b" = some (0, "1:1") ∧ Waits s.pending "a" "b" ∧ s.pending = (handlePunchRegisterMsg ∅ (registers "a" "b" "1:1" 0)).1 := by
  obtain ⟨s, hrun, hnow, hlatest, hpending⟩ : ∃ s, run PunchHistory.step PunchHistory.new [registers "a" "b" "1:1" 0] = some s ∧
      s.now = 0 ∧ s.latest "a" "b" = some (0, "1:1") ∧ s.pending = (handlePunchRegisterMsg ∅ (registers "a" "b" "1:1" 0)).1 :=
    ⟨_, rfl, rfl, by decide +kernel, rfl⟩
  have hentry : (s.pending.lookup (pairKey "a" "b")).bind (fun info => info.endpoints.lookup "a") = some "1:1" := by
    rw [hpending]
    decide +kernel
  obtain ⟨info, hinfo, hendpoint⟩ := Option.bind_eq_some_iff.mp hentry
  exact ⟨s, hrun, hnow, hlatest, ⟨info, "1:1", hinfo, hendpoint⟩, hpending⟩

end PunchPairsAux

open PunchPairsAux

/-- Ten seconds later the other member registers, and both are told. -/
theorem punch_pairs_fresh_ten : ∃ s, run PunchHistory.step PunchHistory.new [registers "a" "b" "1:1" 0] = some s ∧
    ∃ punchAt, ⟨"a", "b", "2:2", "1:1", punchAt, true⟩ ∈ s.sent (second 10000000000) := by
  obtain ⟨s, hrun, hnow, hlatest, hwaits, -⟩ := run_one
  obtain ⟨hsender, htarget⟩ := second_ids 10000000000
  have hten : Prompt s (second 10000000000) := by
    unfold Prompt
    dsimp only
    rw [hsender, htarget]
    refine fun _ _ _ => ⟨fun _ t endpoint hr => ?_, fun hnot => absurd hwaits hnot⟩
    obtain ⟨rfl, -⟩ := Prod.mk.inj (Option.some.inj (hlatest.symm.trans hr))
    decide +kernel
  have hprompt : Meets PunchHistory.step Prompt PunchHistory.new ([registers "a" "b" "1:1" 0] ++ [second 10000000000]) := by
    refine ⟨fun _ _ _ => ⟨fun hw => ?_, fun _ x y info hinfo => ?_⟩, fun s' hstep => ⟨?_, fun _ _ => trivial⟩⟩
    · obtain ⟨info, _, hinfo, -⟩ := hw
      exact absurd ((AList.lookup_empty _).symm.trans hinfo) (by simp)
    · exact absurd ((AList.lookup_empty _).symm.trans hinfo) (by simp)
    · have hone : run PunchHistory.step PunchHistory.new [registers "a" "b" "1:1" 0] = some s' := by
        rw [run_cons, hstep]
        rfl
      obtain rfl := Option.some.inj (hone.symm.trans hrun)
      exact hten
  have hfresh := punch_pairs_fresh hprompt hrun (by rw [hnow]; exact Nat.zero_le _)
  obtain ⟨hfirst, hother⟩ := second_recorded hlatest 10000000000
  exact ⟨s, hrun, (hfresh.ready "a" "b" "1:1" "2:2" (by decide)).mpr ⟨0, _, hfirst, hother, Nat.zero_le _, by decide +kernel⟩⟩

/-- When the other member registers forty seconds later, both are told all the same. -/
theorem punch_pairs_fails : ¬ ∀ (before : List PunchRegister) (s : PunchHistory) (msg : PunchRegister),
    run PunchHistory.step PunchHistory.new before = some s → s.now ≤ msg.now → PairsFresh s msg := by
  intro hclaim
  obtain ⟨s, hrun, hnow, hlatest, -, hpending⟩ := run_one
  have hfresh := hclaim _ s (second 40000000000) hrun (by rw [hnow]; exact Nat.zero_le _)
  have hsent : (⟨"a", "b", "2:2", "1:1", 40500000000, true⟩ : PunchReady) ∈ s.sent (second 40000000000) := by
    unfold PunchHistory.sent
    rw [hpending]
    decide +kernel
  obtain ⟨tx, ty, hx, hy, -, hle⟩ := (hfresh.ready "a" "b" "1:1" "2:2" (by decide)).mp ⟨_, hsent⟩
  obtain ⟨hfirst, hother⟩ := second_recorded hlatest 40000000000
  obtain ⟨rfl, -⟩ := Prod.mk.inj (Option.some.inj (hfirst.symm.trans hx))
  obtain ⟨rfl, -⟩ := Prod.mk.inj (Option.some.inj (hother.symm.trans hy))
  exact absurd hle (by decide +kernel)

end DoubleSlash.Supernode
