import DoubleSlash.Lemmas.Playout

/-!
# Content audio plays in order

What the calls of one jitter buffer do for an ordered stream, and for a stream whose frames are all in time. The buffers of a call are
such buffers, each from its first frame on.
-/

namespace DoubleSlash.Playout

open Stretch Assoc

/-- The number of ticks among the calls. -/
def ticks (ops : List Op) : Nat := ops.count .tick

/-- What the ticks played. -/
def playedSeqs (evs : List Event) : List Nat := evs.filterMap Event.played

/-- What a stream that is never in time too is due. -/
structure PlaysInOrder (ops : List Op) : Prop where
  /-- At most `MAX_BUFFERED_FRAMES` are held. -/
  bounded : ∀ pre post, ops = pre ++ post → (run pre).pending.length ≤ maxBufferedFrames
  /-- What is played between two resets strictly increases. -/
  increasing : ∀ pre mid post, shown ops = pre ++ (mid ++ post) → (∀ e ∈ mid, e.reset = false) →
    (playedSeqs mid).Pairwise fun x y => x < y
  /-- No more than `MAX_CONCEALED_FRAMES` ticks in a row conceal. -/
  concealed : ∀ pre mid post, shown ops = pre ++ (mid ++ post) → (∀ e ∈ mid, e.conceals = true) → mid.length ≤ maxConcealedFrames
  /-- A buffer that holds a frame plays within `JITTER_DEPTH + 1` ticks, unless one of them waits for a frame before it. -/
  plays : ∀ pre more post, ops = pre ++ (more ++ post) → (run pre).pending ≠ [] → ticks more = jitterDepth + 1 →
    ∃ e ∈ events JitterBuffer.step (run pre) more, e.played.isSome = true ∨ e.waiting = true
  /-- A stream that stops leaves the buffer idle. -/
  stops : ∀ pre post n, ops = pre ++ post → maxBufferedFrames * 25 + 24 ≤ n → (run (pre ++ List.replicate n .tick)).isIdle = true

namespace PlayoutAux

/-- The state before a call of an ordered stream, and what the call does to it. -/
structure Situation (b : JitterBuffer) (op : Op) : Prop where
  sound : ∃ ops, Sound ops b
  next : ∃ ops, Sound ops (b.step op).1

theorem situation {ops pre : List Op} {op : Op} {post : List Op} (h : Ordered (resyncGap - 1) ops) (hops : ops = pre ++ op :: post) :
    Situation (run pre) op := by
  subst hops
  refine ⟨⟨pre, sound_run h⟩, pre ++ [op], ?_⟩
  have hsplit : Ordered (resyncGap - 1) ((pre ++ [op]) ++ post) := by rwa [List.append_assoc, List.singleton_append]
  have hsound := sound_run hsplit
  unfold run at hsound
  rwa [after_concat] at hsound

theorem playedSeqs_concat_of_none {mid : List Event} {e : Event} (h : e.played = none) : playedSeqs (mid ++ [e]) = playedSeqs mid := by
  unfold playedSeqs
  rw [List.filterMap_append, List.filterMap_cons_none h, List.filterMap_nil, List.append_nil]

theorem playedSeqs_concat_of_some {mid : List Event} {e : Event} {x : Nat} (h : e.played = some x) :
    playedSeqs (mid ++ [e]) = playedSeqs mid ++ [x] := by
  unfold playedSeqs
  rw [List.filterMap_append, List.filterMap_cons_some h, List.filterMap_nil]

theorem nextSeq_push (b : JitterBuffer) (frame : PendingFrame) : (b.push frame).nextSeq = b.nextSeq := by
  rcases push_cases b frame with ⟨heq, -⟩ | ⟨heq, -⟩ <;> rw [heq]

theorem concealedStreak_push (b : JitterBuffer) (frame : PendingFrame) : (b.push frame).concealedStreak = b.concealedStreak := by
  rcases push_cases b frame with ⟨heq, -⟩ | ⟨heq, -⟩ <;> rw [heq]

theorem run_concat_push (ops : List Op) (frame : PendingFrame) : run (ops ++ [.push frame]) = (run ops).push frame :=
  after_concat _ ops _

theorem run_concat_tick (ops : List Op) : run (ops ++ [.tick]) = (run ops).tick.2 := after_concat _ ops _

theorem step_push (b : JitterBuffer) (frame : PendingFrame) : b.step (.push frame) = (b.push frame, none) := rfl

/-- The event of a tick. -/
def tickEvent (b : JitterBuffer) (action : TickAction) (b' : JitterBuffer) : Event :=
  { action, reset := b.nextSeq.isSome && b'.nextSeq.isNone, waiting := b.waiting }

theorem step_tick (b : JitterBuffer) : b.step .tick = (b.tick.2, some (tickEvent b b.tick.1 b.tick.2)) := rfl

/-! ## Between two resets -/

/-- What was played since a reset is behind what is expected. -/
def Behind (b : JitterBuffer) (mid : List Event) : Prop :=
  (playedSeqs mid).Pairwise (fun x y => x < y) ∧ ∀ x ∈ playedSeqs mid, ∃ next, b.nextSeq = some next ∧ x < next

theorem behind_ticks {ops : List Op} {b b' : JitterBuffer} {action : TickAction} {mid : List Event} (hsound : Sound ops b)
    (hticks : Ticks b action b') (h : Behind b mid) (hreset : (tickEvent b action b').reset = false) :
    Behind b' (mid ++ [tickEvent b action b']) := by
  obtain ⟨hsorted, hbehind⟩ := h
  unfold Behind
  cases hticks with
  | fill hnext hbuffering hlen hstalled =>
    rw [playedSeqs_concat_of_none rfl]
    exact ⟨hsorted, hbehind⟩
  | refill hnext hbuffering hstreak hstalled =>
    rw [playedSeqs_concat_of_none rfl]
    exact ⟨hsorted, hbehind⟩
  | ended hnext hstreak hlost =>
    unfold tickEvent at hreset
    rw [hnext] at hreset
    cases hreset
  | play first rest hpending hfull =>
    have hfirst : ∀ x ∈ playedSeqs mid, x < first.seq := by
      intro x hx
      obtain ⟨next, hnext, hlt⟩ := hbehind x hx
      exact Nat.lt_of_lt_of_le hlt (hsound.ahead next hnext first (hpending ▸ List.mem_cons_self))
    rw [playedSeqs_concat_of_some rfl]
    constructor
    · refine List.pairwise_append.mpr ⟨hsorted, List.pairwise_singleton _ _, fun x hx y hy => ?_⟩
      rw [List.mem_singleton.mp hy]
      exact hfirst x hx
    · intro x hx
      refine ⟨first.seq + 1, rfl, ?_⟩
      rcases List.mem_append.mp hx with hx | hx
      · exact Nat.lt_succ_of_lt (hfirst x hx)
      · rw [List.mem_singleton.mp hx]
        exact Nat.lt_succ_self _
  | skip first rest next hpending hnext hbuffering hmissing hstreak =>
    rw [playedSeqs_concat_of_none rfl]
    refine ⟨hsorted, fun x hx => ?_⟩
    obtain ⟨next', hnext', hlt⟩ := hbehind x hx
    rw [hnext] at hnext'
    rw [← Option.some.inj hnext'] at hlt
    exact ⟨next + 1, rfl, Nat.lt_succ_of_lt hlt⟩
  | underrun hnext hbuffering hpending =>
    rw [playedSeqs_concat_of_none rfl]
    exact ⟨hsorted, hbehind⟩

theorem behind_step (b : JitterBuffer) (op : Op) (mid : List Event) (hs : Situation b op) (h : Behind b mid)
    (hreset : ∀ e, (b.step op).2 = some e → e.reset = false) : Behind (b.step op).1 (mid ++ (b.step op).2.toList) := by
  cases op with
  | push frame =>
    rw [step_push, Option.toList_none, List.append_nil]
    unfold Behind
    rw [nextSeq_push]
    exact h
  | tick =>
    obtain ⟨ops, hsound⟩ := hs.sound
    exact behind_ticks hsound (tick_cases hsound) h (hreset _ rfl)

/-! ## Concealment in a row -/

/-- A stretch of concealment is no longer than the streak. -/
def WithinStreak (b : JitterBuffer) (mid : List Event) : Prop :=
  mid.length ≤ b.concealedStreak ∧ mid.length ≤ maxConcealedFrames

theorem withinStreak_ticks {ops ops' : List Op} {b b' : JitterBuffer} {action : TickAction} {mid : List Event} (hsound : Sound ops b)
    (hsound' : Sound ops' b') (hticks : Ticks b action b') (h : WithinStreak b mid)
    (hconceals : (tickEvent b action b').conceals = true) : WithinStreak b' (mid ++ [tickEvent b action b']) := by
  obtain ⟨hstreak, -⟩ := h
  have hmax := hsound'.streak
  have hlonger : mid.length + 1 ≤ b'.concealedStreak := by
    cases hticks with
    | fill hnext hbuffering hlen hstalled => cases hconceals
    | refill hnext hbuffering hlt hstalled => exact Nat.succ_le_succ hstreak
    | ended hnext hstreak hlost => cases hconceals
    | play first rest hpending hfull => cases hconceals
    | skip first rest next hpending hnext hbuffering hmissing hlt => exact Nat.succ_le_succ hstreak
    | underrun hnext hbuffering hpending =>
      rw [hsound.drained hbuffering hpending] at hstreak
      exact Nat.succ_le_succ hstreak
  unfold WithinStreak
  rw [List.length_append, List.length_singleton]
  exact ⟨hlonger, Nat.le_trans hlonger hmax⟩

theorem withinStreak_step (b : JitterBuffer) (op : Op) (mid : List Event) (hs : Situation b op) (h : WithinStreak b mid)
    (hconceals : ∀ e, (b.step op).2 = some e → e.conceals = true) :
    WithinStreak (b.step op).1 (mid ++ (b.step op).2.toList) := by
  cases op with
  | push frame =>
    rw [step_push, Option.toList_none, List.append_nil]
    unfold WithinStreak
    rw [concealedStreak_push]
    exact h
  | tick =>
    obtain ⟨ops, hsound⟩ := hs.sound
    obtain ⟨ops', hsound'⟩ := hs.next
    exact withinStreak_ticks hsound hsound' (tick_cases hsound) h (hconceals _ rfl)

/-! ## Waiting no longer than the cushion takes -/

theorem pending_push_ne_nil {b : JitterBuffer} (frame : PendingFrame) (h : b.pending ≠ []) : (b.push frame).pending ≠ [] := by
  rcases push_cases b frame with ⟨heq, -⟩ | ⟨heq, -⟩
  · rwa [heq]
  · rw [heq]
    intro hnil
    have hlen := length_arrange b.pending frame
    rw [show JitterBuffer.arrange b.pending frame = [] from hnil, List.length_nil] at hlen
    unfold maxBufferedFrames jitterDepth at hlen
    omega

theorem filling_push (b : JitterBuffer) (frame : PendingFrame) :
    (b.push frame).buffering = b.buffering ∧ (b.push frame).fillTicks = b.fillTicks := by
  rcases push_cases b frame with ⟨heq, -⟩ | ⟨heq, -⟩ <;> rw [heq] <;> exact ⟨rfl, rfl⟩

/-- A tick of a buffer that holds a frame plays, waits for a missing one, or is one of the cushion's. -/
theorem ticks_holding {b b' : JitterBuffer} {action : TickAction} (hticks : Ticks b action b')
    (hpending : b.pending ≠ []) :
    (tickEvent b action b').played.isSome = true ∨ (tickEvent b action b').waiting = true ∨
      (b.fillTicks < jitterDepth ∧ b'.pending ≠ [] ∧ b'.buffering = true ∧ b'.fillTicks = b.fillTicks + 1) := by
  cases hticks with
  | fill hnext hbuffering hlen hstalled =>
    have hlt := hstalled.resolve_left hpending
    refine Or.inr (Or.inr ⟨hlt, hpending, hbuffering, ?_⟩)
    show saturatingAdd b.fillTicks 1 = b.fillTicks + 1
    unfold saturatingAdd
    unfold jitterDepth at hlt
    omega
  | refill hnext hbuffering hstreak hstalled =>
    exact Or.inr (Or.inr ⟨hstalled.resolve_left hpending, hpending, hbuffering, rfl⟩)
  | ended hnext hstreak hlost => exact Or.inr (Or.inl (hlost.resolve_left hpending))
  | play first rest hpending hfull => exact Or.inl rfl
  | skip first rest next hpending hnext hbuffering hmissing hstreak =>
    refine Or.inr (Or.inl ?_)
    show b.waiting = true
    unfold JitterBuffer.waiting
    rw [hbuffering, hnext, hpending]
    simpa using hmissing
  | underrun hnext hbuffering hnil => exact absurd hnil hpending

/-- From a buffer that holds a frame, as many ticks as its cushion still takes and one more. -/
theorem plays_within {ops more : List Op} (h : Ordered (resyncGap - 1) (ops ++ more)) (hpending : (run ops).pending ≠ [])
    (hticks : jitterDepth + 1 ≤ min (run ops).fillTicks jitterDepth + ticks more) :
    ∃ e ∈ events JitterBuffer.step (run ops) more, e.played.isSome = true ∨ e.waiting = true := by
  induction more generalizing ops with
  | nil =>
    unfold ticks at hticks
    rw [List.count_nil] at hticks
    omega
  | cons op more ih =>
    have hrun : run (ops ++ [op]) = ((run ops).step op).1 := after_concat _ ops op
    have hsplit : Ordered (resyncGap - 1) ((ops ++ [op]) ++ more) := by rwa [List.append_assoc, List.singleton_append]
    rw [events, ← hrun]
    cases op with
    | push frame =>
      have hstep := run_concat_push ops frame
      have hsame : ticks (.push frame :: more) = ticks more := List.count_cons_of_ne (by simp)
      obtain ⟨e, he, hdue⟩ := ih hsplit (by rw [hstep]; exact pending_push_ne_nil frame hpending)
        (by rw [hstep, (filling_push _ frame).2, ← hsame]; exact hticks)
      exact ⟨e, List.mem_append_right _ he, hdue⟩
    | tick =>
      have hsound := sound_run h
      have hone : ticks (.tick :: more) = ticks more + 1 := List.count_cons_self
      have hevent : tickEvent (run ops) (run ops).tick.1 (run ops).tick.2 ∈ ((run ops).step .tick).2.toList := List.mem_cons_self
      rcases ticks_holding (tick_cases hsound) hpending with hplays | hwaits | ⟨hlt, hnonempty, -, hfill⟩
      · exact ⟨_, List.mem_append_left _ hevent, Or.inl hplays⟩
      · exact ⟨_, List.mem_append_left _ hevent, Or.inr hwaits⟩
      · have hstep : run (ops ++ [.tick]) = (run ops).tick.2 := hrun
        obtain ⟨e, he, hdue⟩ := ih hsplit (by rw [hstep]; exact hnonempty) (by rw [hstep, hfill]; omega)
        exact ⟨e, List.mem_append_right _ he, hdue⟩

/-! ## Coming to rest -/

/-- How many ticks a buffer without new frames is not idle for, at most. -/
def budget (b : JitterBuffer) : Nat :=
  if b.isIdle then 0
  else 25 * b.pending.length + (21 - b.concealedStreak) + if b.nextSeq = none then jitterDepth - b.fillTicks else 0

theorem budget_new : budget JitterBuffer.new = 0 := rfl

theorem not_isIdle_of_next {b : JitterBuffer} (h : b.nextSeq.isSome = true) : ¬ b.isIdle = true := by
  unfold JitterBuffer.isIdle
  rw [Option.isNone_eq_false_iff.mpr h]
  simp

theorem budget_of_next {b : JitterBuffer} (h : b.nextSeq.isSome = true) :
    budget b = 25 * b.pending.length + (21 - b.concealedStreak) := by
  unfold budget
  rw [if_neg (not_isIdle_of_next h), if_neg (by rintro hnone; rw [hnone] at h; cases h), Nat.add_zero]

theorem budget_ticks {ops : List Op} {b b' : JitterBuffer} {action : TickAction} (hsound : Sound ops b) (hticks : Ticks b action b') :
    budget b' ≤ budget b - 1 := by
  have hstreak := hsound.streak
  unfold maxConcealedFrames at hstreak
  cases hticks with
  | fill hnext hbuffering hlen hstalled =>
    by_cases hpending : b.pending = []
    · unfold budget JitterBuffer.isIdle
      simp [hnext, hpending]
    · have hlt := hstalled.resolve_left hpending
      have hfill : saturatingAdd b.fillTicks 1 = b.fillTicks + 1 := by
        unfold saturatingAdd
        unfold jitterDepth at hlt
        omega
      unfold budget JitterBuffer.isIdle
      simp only [hnext, hpending, hfill, Option.isNone_none, Bool.true_and, List.isEmpty_iff, if_false, if_true]
      omega
  | refill hnext hbuffering hlt hstalled =>
    rw [budget_of_next hnext, budget_of_next (b := { b with fillTicks := b.fillTicks + 1, nextPtsUs := _, concealedStreak := _ }) hnext]
    simp only
    omega
  | ended hnext hmax hlost => exact Nat.zero_le _
  | play first rest hpending hfull =>
    rw [budget_of_next rfl]
    have hidle : ¬ b.isIdle = true := by
      unfold JitterBuffer.isIdle
      simp [hpending]
    unfold budget
    rw [if_neg hidle, hpending, List.length_cons]
    simp only
    omega
  | skip first rest next hpending hnext hbuffering hmissing hlt =>
    rw [budget_of_next rfl, budget_of_next (by rw [hnext]; rfl)]
    unfold maxConcealedFrames at hlt
    simp only
    omega
  | underrun hnext hbuffering hpending =>
    rw [budget_of_next hnext, budget_of_next (b := { b with buffering := true, nextPtsUs := _, concealedStreak := 1 }) hnext,
      hsound.drained hbuffering hpending]
    simp only
    omega

theorem budget_le {ops : List Op} {b : JitterBuffer} (hsound : Sound ops b) : budget b ≤ maxBufferedFrames * 25 + 24 := by
  have hshort := hsound.short
  unfold budget maxBufferedFrames jitterDepth at *
  split
  · omega
  · split <;> omega

theorem isIdle_of_budget {b : JitterBuffer} (h : budget b = 0) (hstreak : b.concealedStreak ≤ maxConcealedFrames) : b.isIdle = true := by
  by_contra hidle
  unfold budget at h
  unfold maxConcealedFrames at hstreak
  rw [if_neg hidle] at h
  omega

/-- A buffer that only ticks spends its budget. -/
theorem budget_ticking {ops : List Op} {b : JitterBuffer} (hsound : Sound ops b) (n : Nat) :
    (∃ ops', Sound ops' (after JitterBuffer.step b (List.replicate n .tick))) ∧
      budget (after JitterBuffer.step b (List.replicate n .tick)) ≤ budget b - n := by
  induction n generalizing ops b with
  | zero => exact ⟨⟨ops, hsound⟩, Nat.le_refl _⟩
  | succ n ih =>
    rw [List.replicate_succ, after_cons]
    have hone := budget_ticks hsound (tick_cases hsound)
    obtain ⟨hsound', hrest⟩ := ih (sound_ticks hsound (tick_cases hsound))
    refine ⟨hsound', Nat.le_trans hrest ?_⟩
    show budget b.tick.2 - n ≤ budget b - (n + 1)
    omega

theorem playsInOrder {ops : List Op} (h : Ordered (resyncGap - 1) ops) : PlaysInOrder ops where
  bounded := by
    rintro pre post rfl
    exact (sound_run h).short
  increasing := by
    intro pre mid post hshown hreset
    have hnil (b : JitterBuffer) : Behind b [] := ⟨List.Pairwise.nil, fun _ hx => by cases hx⟩
    obtain ⟨b, hb⟩ := stretch hnil behind_step (fun pre op rest heq => situation h heq) hshown hreset
    exact hb.1
  concealed := by
    intro pre mid post hshown hconceals
    have hnil (b : JitterBuffer) : WithinStreak b [] := ⟨Nat.zero_le _, Nat.zero_le _⟩
    obtain ⟨b, hb⟩ := stretch hnil withinStreak_step (fun pre op rest heq => situation h heq) hshown hconceals
    exact hb.2
  plays := by
    rintro pre more post rfl hpending hticks
    refine plays_within ?_ hpending (by rw [hticks]; exact Nat.le_add_left _ _)
    exact
      { fits := fun f hf => h.fits f (by
          rw [← List.append_assoc]
          exact List.mem_append_left _ hf)
        late := fun pre' f post' heq => h.late pre' f (post' ++ post) (by
          rw [← List.append_assoc, heq, List.append_assoc, List.cons_append]) }
  stops := by
    rintro pre post n rfl hn
    have hsound := sound_run h
    obtain ⟨⟨ops', hsound'⟩, hbudget⟩ := budget_ticking hsound n
    have hle := budget_le hsound
    unfold run at *
    rw [after_append]
    exact isIdle_of_budget (by omega) hsound'.streak

end PlayoutAux

/-! ## Frames that are in time -/

/-- A stream of `n` frames from `start` on: every frame is pushed no earlier than tick `k + d` and no later than tick
`k + d + JITTER_DEPTH - 1`, where `k` is its position and the ticks are numbered by how many come before. -/
structure Punctual (start n : Nat) (d : ℤ) (ops : List Op) : Prop where
  fits : start + n < 2 ^ 32
  frames : ∀ f, .push f ∈ ops → ∃ k < n, f.seq = start + k
  window : ∀ pre f post k, ops = pre ++ .push f :: post → f.seq = start + k →
    (k : ℤ) + d ≤ ticks pre ∧ (ticks pre : ℤ) ≤ k + d + (jitterDepth - 1 : ℕ)
  arrives : ∀ k < n, (k : ℤ) + d + (jitterDepth - 1 : ℕ) < ticks ops → ∃ f, .push f ∈ ops ∧ f.seq = start + k

namespace PlayoutAux

variable {start n : Nat} {d : ℤ} {ops : List Op}

/-- What a punctual stream has reached after a part of its calls. -/
inductive Phase (start n : Nat) (d : ℤ) (pre : List Op) (b : JitterBuffer) (played : List Nat) : Prop where
  /-- The cushion is filling. -/
  | filling (hnext : b.nextSeq = none) (hbuffering : b.buffering = true) (hfill : b.fillTicks = ticks pre)
      (hticks : ticks pre ≤ jitterDepth) (hplayed : played = [])
      (hheld : ∀ x, (∃ f ∈ b.pending, f.seq = x) ↔ ∃ f, .push f ∈ pre ∧ f.seq = x)
  /-- A frame is played at every tick, from the tick `lead` on. -/
  | playing (lead m : Nat) (hm : m < n) (hearly : d + (jitterDepth - 1 : ℕ) ≤ lead) (hlate : lead ≤ jitterDepth)
      (hnext : b.nextSeq = some (start + m)) (hbuffering : b.buffering = false) (hticks : ticks pre = lead + m)
      (hplayed : played = List.range' start m)
      (hheld : ∀ x, (∃ f ∈ b.pending, f.seq = x) ↔ start + m ≤ x ∧ ∃ f, .push f ∈ pre ∧ f.seq = x)
  /-- Everything was played. -/
  | ended (hpending : b.pending = []) (hearly : d + (jitterDepth - 1 : ℕ) + n ≤ ticks pre) (hplayed : played = List.range' start n)

/-- The frames of a punctual stream are ordered: none comes more than two positions late. -/
theorem ordered_of_punctual (h : Punctual start n d ops) : Ordered (resyncGap - 1) ops where
  fits f hf := by
    obtain ⟨k, hk, hseq⟩ := h.frames f hf
    have := h.fits
    omega
  late := by
    intro pre f post heq g hg
    obtain ⟨pre', mid, rfl⟩ := List.append_of_mem hg
    have hgops : ops = pre' ++ .push g :: (mid ++ .push f :: post) := by rw [heq, List.append_assoc, List.cons_append]
    obtain ⟨k, -, hkseq⟩ := h.frames f (heq ▸ List.mem_append_right _ List.mem_cons_self)
    obtain ⟨j, -, hjseq⟩ := h.frames g (hgops ▸ List.mem_append_right _ List.mem_cons_self)
    have hk := (h.window _ f _ k heq hkseq).2
    have hj := (h.window _ g _ j hgops hjseq).1
    have hmono : ticks pre' ≤ ticks (pre' ++ .push g :: mid) := by
      unfold ticks
      rw [List.count_append]
      exact Nat.le_add_right _ _
    unfold resyncGap
    unfold jitterDepth at hk
    omega

/-- What was pushed before a tick: where its frame stands, and when it came. -/
theorem pushed_pos {pre post : List Op} (h : Punctual start n d (pre ++ post)) {f : PendingFrame} (hf : .push f ∈ pre) :
    ∃ k < n, f.seq = start + k ∧ (k : ℤ) + d ≤ ticks pre := by
  obtain ⟨before, mid, rfl⟩ := List.append_of_mem hf
  obtain ⟨k, hk, hseq⟩ := h.frames f (List.mem_append_left _ hf)
  have hwindow := (h.window before f (mid ++ post) k (by rw [List.append_assoc, List.cons_append]) hseq).1
  refine ⟨k, hk, hseq, Int.le_trans hwindow ?_⟩
  unfold ticks
  rw [List.count_append]
  omega

/-- A frame whose time has passed was pushed. -/
theorem pushed_of_due {pre post : List Op} (h : Punctual start n d (pre ++ .tick :: post)) {k : Nat} (hk : k < n)
    (hdue : (k : ℤ) + d + (jitterDepth - 1 : ℕ) ≤ ticks pre) : ∃ f, .push f ∈ pre ∧ f.seq = start + k := by
  have hmore : ticks pre < ticks (pre ++ .tick :: post) := by
    unfold ticks
    rw [List.count_append, List.count_cons_self]
    omega
  obtain ⟨f, hf, hseq⟩ := h.arrives k hk (by omega)
  refine ⟨f, ?_, hseq⟩
  rcases List.mem_append.mp hf with hf | hf
  · exact hf
  · have hf' : Op.push f ∈ post := (List.mem_cons.mp hf).resolve_left (by simp)
    obtain ⟨before, after, rfl⟩ := List.append_of_mem hf'
    have hwindow := (h.window (pre ++ .tick :: before) f after k (by simp) hseq).2
    have hcount : ticks (pre ++ .tick :: before) = ticks pre + (ticks before + 1) := by
      unfold ticks
      rw [List.count_append, List.count_cons_self]
    omega

/-- Numbers that increase within a window are no more than it is wide. -/
theorem length_le_of_window {l : List PendingFrame} {a w : Nat} (hsorted : l.Pairwise fun f g => f.seq < g.seq)
    (hwindow : ∀ f ∈ l, a ≤ f.seq ∧ f.seq < a + w) : l.length ≤ w := by
  have hnodup : (l.map PendingFrame.seq).Nodup :=
    List.pairwise_map.mpr (hsorted.imp fun h => Nat.ne_of_lt h)
  have hsub : l.map PendingFrame.seq ⊆ List.range' a w := by
    intro x hx
    obtain ⟨f, hf, rfl⟩ := List.mem_map.mp hx
    exact List.mem_range'_1.mpr (hwindow f hf)
  have hle := (List.subperm_of_subset hnodup hsub).length_le
  rwa [List.length_map, List.length_range'] at hle

theorem ticks_concat_push (pre : List Op) (frame : PendingFrame) : ticks (pre ++ [.push frame]) = ticks pre := by
  unfold ticks
  rw [List.count_append, List.count_cons_of_ne (by simp), List.count_nil, Nat.add_zero]

theorem ticks_concat_tick (pre : List Op) : ticks (pre ++ [.tick]) = ticks pre + 1 := by
  unfold ticks
  rw [List.count_append, List.count_cons_self, List.count_nil]

theorem pushed_concat_push {pre : List Op} {frame : PendingFrame} {x : Nat} :
    (∃ f, Op.push f ∈ pre ++ [.push frame] ∧ f.seq = x) ↔ (∃ f, Op.push f ∈ pre ∧ f.seq = x) ∨ frame.seq = x := by
  simp only [List.mem_append, List.mem_singleton, Op.push.injEq]
  constructor
  · rintro ⟨f, hf | rfl, hx⟩
    · exact Or.inl ⟨f, hf, hx⟩
    · exact Or.inr hx
  · rintro (⟨f, hf, hx⟩ | hx)
    · exact ⟨f, Or.inl hf, hx⟩
    · exact ⟨frame, Or.inr rfl, hx⟩

theorem pushed_concat_tick {pre : List Op} {x : Nat} :
    (∃ f, Op.push f ∈ pre ++ [.tick] ∧ f.seq = x) ↔ ∃ f, Op.push f ∈ pre ∧ f.seq = x := by
  simp

/-- A frame that is not behind what is expected is held after its push, and nothing is shed while there is room. -/
theorem held_push {b : JitterBuffer} {frame : PendingFrame} (hroom : b.pending.length < maxBufferedFrames)
    (hnext : ∀ next, b.nextSeq = some next → next ≤ frame.seq) (x : Nat) :
    (∃ f ∈ (b.push frame).pending, f.seq = x) ↔ (∃ f ∈ b.pending, f.seq = x) ∨ frame.seq = x := by
  rcases push_cases b frame with ⟨heq, hdup | ⟨next, hsome, hlt, -⟩⟩ | ⟨heq, -, -⟩
  · rw [heq]
    refine ⟨Or.inl, ?_⟩
    rintro (hheld | rfl)
    · exact hheld
    · exact hdup
  · have := hnext next hsome
    omega
  · rw [heq]
    constructor
    · rintro ⟨f, hf, hx⟩
      rcases (mem_arrange_iff hroom).mp hf with rfl | hf
      · exact Or.inr hx
      · exact Or.inl ⟨f, hf, hx⟩
    · rintro (⟨f, hf, hx⟩ | hx)
      · exact ⟨f, (mem_arrange_iff hroom).mpr (Or.inr hf), hx⟩
      · exact ⟨frame, (mem_arrange_iff hroom).mpr (Or.inl rfl), hx⟩

/-- A punctual stream that has begun is no more than `JITTER_DEPTH - 1` ticks early. -/
theorem lead_bound {pre post : List Op} {op : Op} (h : Punctual start n d (pre ++ op :: post)) (hn : 0 < n) :
    0 ≤ d + (jitterDepth - 1 : ℕ) := by
  by_contra hneg
  obtain ⟨f, hf, hseq⟩ := h.arrives 0 hn (by omega)
  obtain ⟨before, after, hsplit⟩ := List.append_of_mem hf
  have hwindow := (h.window before f after 0 hsplit hseq).2
  omega

/-- A push keeps the phase. -/
theorem phase_push {pre post : List Op} {b : JitterBuffer} {played : List Nat} {frame : PendingFrame} (hsound : Sound pre b)
    (h : Punctual start n d (pre ++ .push frame :: post)) (hphase : Phase start n d pre b played) :
    Phase start n d (pre ++ [.push frame]) (b.push frame) played := by
  obtain ⟨k, hk, hseq⟩ := h.frames frame (List.mem_append_right _ List.mem_cons_self)
  obtain ⟨-, hlate⟩ := h.window pre frame post k rfl hseq
  have hlead := lead_bound h (by omega)
  have hheldpos {f : PendingFrame} (hf : f ∈ b.pending) : ∃ j < n, f.seq = start + j ∧ (j : ℤ) + d ≤ ticks pre :=
    pushed_pos h (hsound.pushed f hf)
  cases hphase with
  | filling hnext hbuffering hfill hticks hplayed hheld =>
    have hroom : b.pending.length < maxBufferedFrames := by
      refine Nat.lt_of_le_of_lt (length_le_of_window (a := start) (w := 6) hsound.sorted fun f hf => ?_) (by decide)
      obtain ⟨j, -, hj, hpos⟩ := hheldpos hf
      unfold jitterDepth at *
      omega
    refine Phase.filling ((nextSeq_push b frame).trans hnext) ((filling_push b frame).1.trans hbuffering) ?_ ?_ hplayed fun x => ?_
    · rw [(filling_push b frame).2, ticks_concat_push, hfill]
    · rwa [ticks_concat_push]
    · rw [held_push hroom (fun next hsome => by rw [hnext] at hsome; cases hsome), hheld, pushed_concat_push]
  | playing lead m hm hearly hlate' hnext hbuffering hticks hplayed hheld =>
    have hroom : b.pending.length < maxBufferedFrames := by
      refine Nat.lt_of_le_of_lt (length_le_of_window (a := start + m) (w := 6) hsound.sorted fun f hf => ?_) (by decide)
      obtain ⟨j, -, hj, hpos⟩ := hheldpos hf
      have hge := ((hheld f.seq).mp ⟨f, hf, rfl⟩).1
      unfold jitterDepth at *
      omega
    have hnotbehind : start + m ≤ frame.seq := by omega
    refine Phase.playing lead m hm hearly hlate' ((nextSeq_push b frame).trans hnext) ((filling_push b frame).1.trans hbuffering) ?_ hplayed
      fun x => ?_
    · rwa [ticks_concat_push]
    · rw [held_push hroom (fun next hsome => by rw [hnext] at hsome; rw [← Option.some.inj hsome]; exact hnotbehind), hheld,
        pushed_concat_push]
      constructor
      · rintro (⟨hge, hpushed⟩ | rfl)
        · exact ⟨hge, Or.inl hpushed⟩
        · exact ⟨hnotbehind, Or.inr rfl⟩
      · rintro ⟨hge, hpushed | hx⟩
        · exact Or.inl ⟨hge, hpushed⟩
        · exact Or.inr hx
  | ended hpending hearly hplayed => omega

/-- The frame that is due is the first one held. -/
theorem head_due {b : JitterBuffer} {pre : List Op} {first : PendingFrame} {rest : List PendingFrame} {m : Nat} (hsound : Sound pre b)
    (hpending : b.pending = first :: rest) (hdue : ∃ f ∈ b.pending, f.seq = start + m)
    (hheld : ∀ f ∈ b.pending, start + m ≤ f.seq) : first.seq = start + m := by
  obtain ⟨f, hf, hseq⟩ := hdue
  have hsorted := hsound.sorted
  rw [hpending] at hf hsorted
  have hge := hheld first (hpending ▸ List.mem_cons_self)
  rcases List.mem_cons.mp hf with rfl | hf
  · exact hseq
  · have := List.rel_of_pairwise_cons hsorted hf
    omega

/-- After frame `m` was played at the tick `lead + m`, the next one is due or none is left. -/
theorem phase_played {pre post : List Op} {b : JitterBuffer} {played : List Nat} {first : PendingFrame} {rest : List PendingFrame}
    {lead m : Nat} (hsound : Sound pre b) (h : Punctual start n d (pre ++ .tick :: post)) (hpending : b.pending = first :: rest)
    (hseq : first.seq = start + m) (hm : m < n) (hearly : d + (jitterDepth - 1 : ℕ) ≤ lead) (hlate : lead ≤ jitterDepth)
    (hticks : ticks pre = lead + m) (hplayed : played = List.range' start m)
    (hheld : ∀ x, (∃ f ∈ b.pending, f.seq = x) ↔ start + m ≤ x ∧ ∃ f, .push f ∈ pre ∧ f.seq = x) :
    Phase start n d (pre ++ [.tick])
      { pending := rest, nextSeq := some (first.seq + 1), nextPtsUs := saturatingAdd first.ptsUs frameDurationUs,
        concealedStreak := 0, buffering := false, fillTicks := 0 } (played ++ [first.seq]) := by
  have hsorted := hsound.sorted
  rw [hpending] at hsorted
  have hrange : played ++ [first.seq] = List.range' start (m + 1) := by
    rw [hplayed, hseq, List.range'_concat, Nat.mul_comm, Nat.mul_one]
  have hrest : ∀ x, (∃ f ∈ rest, f.seq = x) ↔ start + (m + 1) ≤ x ∧ ∃ f, Op.push f ∈ pre ++ [.tick] ∧ f.seq = x := by
    intro x
    rw [pushed_concat_tick]
    constructor
    · rintro ⟨f, hf, rfl⟩
      have hlt := List.rel_of_pairwise_cons hsorted hf
      obtain ⟨-, hpushed⟩ := (hheld f.seq).mp ⟨f, hpending ▸ List.mem_cons_of_mem _ hf, rfl⟩
      exact ⟨by omega, hpushed⟩
    · rintro ⟨hge, hpushed⟩
      obtain ⟨f, hf, hx⟩ := (hheld x).mpr ⟨by omega, hpushed⟩
      rw [hpending] at hf
      rcases List.mem_cons.mp hf with rfl | hf
      · omega
      · exact ⟨f, hf, hx⟩
  by_cases hlast : m + 1 < n
  · refine Phase.playing lead (m + 1) hlast hearly hlate ?_ rfl ?_ hrange hrest
    · rw [hseq, Nat.add_assoc]
    · rw [ticks_concat_tick, hticks, Nat.add_assoc]
  · have hdone : m + 1 = n := by omega
    refine Phase.ended (List.eq_nil_iff_forall_not_mem.mpr fun f hf => ?_) ?_ (hdone ▸ hrange)
    · obtain ⟨hge, -⟩ := (hrest f.seq).mp ⟨f, hf, rfl⟩
      obtain ⟨j, hj, hfseq, -⟩ := pushed_pos h (hsound.pushed f (hpending ▸ List.mem_cons_of_mem _ hf))
      omega
    · rw [ticks_concat_tick]
      omega

theorem playedSeqs_tick {b b' : JitterBuffer} {action : TickAction} {evs : List Event} (first : PendingFrame)
    (h : action = .play first) : playedSeqs (evs ++ [tickEvent b action b']) = playedSeqs evs ++ [first.seq] := by
  subst h
  exact playedSeqs_concat_of_some rfl

/-- A tick plays the frame that is due, fills the cushion, or finds everything played. -/
theorem phase_tick {pre post : List Op} {b b' : JitterBuffer} {action : TickAction} {evs : List Event} (hsound : Sound pre b)
    (hticks : Ticks b action b') (h : Punctual start n d (pre ++ .tick :: post)) (hbegun : pre = [] ∨ ∃ f, Op.push f ∈ pre)
    (hd : ∀ f, Op.push f ∈ pre → d ≤ 1)
    (hphase : Phase start n d pre b (playedSeqs evs)) :
    Phase start n d (pre ++ [.tick]) b' (playedSeqs (evs ++ [tickEvent b action b'])) := by
  have hheldpos {f : PendingFrame} (hf : f ∈ b.pending) : ∃ j < n, f.seq = start + j ∧ (j : ℤ) + d ≤ ticks pre :=
    pushed_pos h (hsound.pushed f hf)
  cases hphase with
  | filling hnext hbuffering hfill hcount hplayed hheld =>
    cases hticks with
    | fill hnext' hbuffering' hlen hstalled =>
      have hlt : ticks pre < jitterDepth := by
        rcases hbegun with rfl | ⟨f, hf⟩
        · decide
        · obtain ⟨g, hg, -⟩ := (hheld f.seq).mpr ⟨f, hf, rfl⟩
          rw [← hfill]
          exact hstalled.resolve_left (List.ne_nil_of_mem hg)
      rw [playedSeqs_concat_of_none rfl]
      refine Phase.filling hnext hbuffering ?_ ?_ hplayed fun x => ?_
      · show saturatingAdd b.fillTicks 1 = _
        rw [hfill, ticks_concat_tick]
        unfold saturatingAdd
        unfold jitterDepth at hlt
        omega
      · rw [ticks_concat_tick]
        exact hlt
      · rw [pushed_concat_tick]
        exact hheld x
    | refill hsome hbuffering' hstreak hstalled => simp [hnext] at hsome
    | ended hsome hstreak hlost => simp [hnext] at hsome
    | play first rest hpending hfull =>
      -- With fewer than `JITTER_DEPTH` ticks gone, the cushion holds the frames up to the one that is due last.
      have hfirst : first ∈ b.pending := hpending ▸ List.mem_cons_self
      have hd := hd first (hsound.pushed first hfirst)
      have hready : d + (jitterDepth - 1 : ℕ) ≤ ticks pre := by
        by_contra hearly
        rcases hfull hbuffering with hlen | hstalled
        · have hshort := length_le_of_window (a := start) (w := 2) hsound.sorted fun f hf => by
            obtain ⟨j, -, hj, hpos⟩ := hheldpos hf
            unfold jitterDepth at hearly
            omega
          unfold jitterDepth at hlen
          omega
        · rw [hfill] at hstalled
          unfold jitterDepth at *
          omega
      obtain ⟨k, hk, -, -⟩ := hheldpos hfirst
      have hdue : ∃ f ∈ b.pending, f.seq = start + 0 :=
        (hheld _).mpr (pushed_of_due h (by omega) (by simpa using hready))
      have hge : ∀ f ∈ b.pending, start + 0 ≤ f.seq := by
        intro f hf
        obtain ⟨j, -, hj, -⟩ := hheldpos hf
        omega
      have hseq := head_due hsound hpending hdue hge
      rw [playedSeqs_tick first rfl]
      refine phase_played hsound h hpending hseq (by omega) hready hcount (Nat.add_zero _).symm (by simpa using hplayed) fun x => ?_
      rw [hheld]
      constructor
      · rintro ⟨f, hf, rfl⟩
        obtain ⟨j, -, hj, -⟩ := pushed_pos h hf
        exact ⟨by omega, f, hf, rfl⟩
      · exact fun hx => hx.2
    | skip first rest next hpending hnext' hbuffering' hmissing hstreak => simp [hnext] at hnext'
    | underrun hsome hbuffering' hpending => simp [hnext] at hsome
  | playing lead m hm hearly hlate hnext hbuffering hcount hplayed hheld =>
    have hdue : ∃ f ∈ b.pending, f.seq = start + m :=
      (hheld _).mpr ⟨Nat.le_refl _, pushed_of_due h hm (by omega)⟩
    have hge : ∀ f ∈ b.pending, start + m ≤ f.seq := fun f hf => ((hheld f.seq).mp ⟨f, hf, rfl⟩).1
    have hnonempty : b.pending ≠ [] := by
      obtain ⟨f, hf, -⟩ := hdue
      exact List.ne_nil_of_mem hf
    cases hticks with
    | fill hnone hbuffering' hlen hstalled => simp [hnext] at hnone
    | refill hsome hbuffering' hstreak hstalled => simp [hbuffering] at hbuffering'
    | ended hsome hstreak hlost =>
      have hwaiting := hlost.resolve_left hnonempty
      unfold JitterBuffer.waiting at hwaiting
      rw [hbuffering, hnext] at hwaiting
      cases hpending : b.pending with
      | nil => exact absurd hpending hnonempty
      | cons first rest =>
        have hseq := head_due hsound hpending hdue hge
        simp [hpending, hseq] at hwaiting
    | play first rest hpending hfull =>
      have hseq := head_due hsound hpending hdue hge
      rw [playedSeqs_tick first rfl]
      exact phase_played hsound h hpending hseq hm hearly hlate hcount hplayed hheld
    | skip first rest next hpending hnext' hbuffering' hmissing hstreak =>
      have hseq := head_due hsound hpending hdue hge
      rw [hnext] at hnext'
      rw [← Option.some.inj hnext'] at hmissing
      omega
    | underrun hsome hbuffering' hpending => exact absurd hpending hnonempty
  | ended hpending hearly hplayed =>
    have hlater : d + (jitterDepth - 1 : ℕ) + n ≤ ticks (pre ++ [.tick]) := by
      rw [ticks_concat_tick]
      omega
    cases hticks with
    | fill hnone hbuffering' hlen hstalled =>
      rw [playedSeqs_concat_of_none rfl]
      exact Phase.ended hpending hlater hplayed
    | refill hsome hbuffering' hstreak hstalled =>
      rw [playedSeqs_concat_of_none rfl]
      exact Phase.ended hpending hlater hplayed
    | ended hsome hstreak hlost =>
      rw [playedSeqs_concat_of_none rfl]
      exact Phase.ended rfl hlater hplayed
    | play first rest hpending' hfull => simp [hpending] at hpending'
    | skip first rest next hpending' hnext' hbuffering' hmissing hstreak => simp [hpending] at hpending'
    | underrun hsome hbuffering' hpending' =>
      rw [playedSeqs_concat_of_none rfl]
      exact Phase.ended hpending hlater hplayed

/-- Before a tick of a buffer that did not begin with two, there is a frame or nothing at all. -/
theorem begun_of_head {pre post : List Op} (hhead : ¬ [Op.tick, .tick] <+: pre ++ .tick :: post) :
    pre = [] ∨ (∃ frame rest, pre = .push frame :: rest) ∨ ∃ frame rest, pre = .tick :: .push frame :: rest := by
  cases pre with
  | nil => exact Or.inl rfl
  | cons first pre =>
    cases first with
    | push frame => exact Or.inr (Or.inl ⟨frame, pre, rfl⟩)
    | tick =>
      cases pre with
      | nil => exact absurd ⟨post, rfl⟩ hhead
      | cons second pre =>
        cases second with
        | push frame => exact Or.inr (Or.inr ⟨frame, pre, rfl⟩)
        | tick => exact absurd ⟨pre ++ .tick :: post, rfl⟩ hhead

/-- The phase of every part of a punctual stream that the buffer ticks at most once before. -/
theorem phase_run {pre post : List Op} (h : Punctual start n d (pre ++ post)) (hhead : ¬ [Op.tick, .tick] <+: pre ++ post) :
    Phase start n d pre (run pre) (playedSeqs (shown pre)) := by
  induction pre using List.reverseRecOn generalizing post with
  | nil =>
    refine Phase.filling rfl rfl rfl (Nat.zero_le _) rfl fun x => ?_
    simp [run, JitterBuffer.new]
  | append_singleton pre op ih =>
    rw [List.append_assoc, List.singleton_append] at h hhead
    have hphase := ih h hhead
    have hsound := sound_run (ordered_of_punctual h)
    have hrun : run (pre ++ [op]) = ((run pre).step op).1 := after_concat _ pre op
    have hshown : shown (pre ++ [op]) = shown pre ++ ((run pre).step op).2.toList := events_concat _ pre op
    rw [hrun, hshown]
    cases op with
    | push frame =>
      rw [step_push, Option.toList_none, List.append_nil]
      exact phase_push hsound h hphase
    | tick =>
      rw [step_tick, Option.toList_some]
      have hsoon (before : List Op) (frame : PendingFrame) (rest : List Op) (heq : pre = before ++ .push frame :: rest)
          (hbefore : ticks before ≤ 1) : d ≤ 1 := by
        subst heq
        rw [List.append_assoc, List.cons_append] at h
        obtain ⟨k, -, hseq⟩ := h.frames frame (List.mem_append_right _ List.mem_cons_self)
        have hwindow := (h.window before frame _ k rfl hseq).1
        omega
      rcases begun_of_head hhead with rfl | ⟨frame, rest, heq⟩ | ⟨frame, rest, heq⟩
      · exact phase_tick hsound (tick_cases hsound) h (Or.inl rfl) (fun _ hf => by cases hf) hphase
      · exact phase_tick hsound (tick_cases hsound) h (Or.inr ⟨frame, heq ▸ List.mem_cons_self⟩)
          (fun _ _ => hsoon [] frame rest heq (Nat.zero_le _)) hphase
      · exact phase_tick hsound (tick_cases hsound) h (Or.inr ⟨frame, heq ▸ List.mem_cons_of_mem _ List.mem_cons_self⟩)
          (fun _ _ => hsoon [.tick] frame rest heq (Nat.le_refl _)) hphase

/-- Every frame of a punctual stream is played once, at the latest `JITTER_DEPTH` ticks after its position. -/
theorem played_once (h : Punctual start n d ops) (hhead : ¬ [Op.tick, .tick] <+: ops) {k : Nat} (hk : k < n) :
    (playedSeqs (shown ops)).count (start + k) ≤ 1 ∧
      (k + jitterDepth < ticks ops → (playedSeqs (shown ops)).count (start + k) = 1) := by
  have hsplit : Punctual start n d (ops ++ []) := by rwa [List.append_nil]
  have hphase := phase_run hsplit (by rwa [List.append_nil])
  have honce (m : Nat) : (List.range' start m).count (start + k) ≤ 1 := List.nodup_iff_count_le_one.mp List.nodup_range' _
  have hin (m : Nat) (hkm : k < m) : (List.range' start m).count (start + k) = 1 :=
    List.count_eq_one_of_mem List.nodup_range' (List.mem_range'_1.mpr ⟨Nat.le_add_right _ _, by omega⟩)
  cases hphase with
  | filling hnext hbuffering hfill hcount hplayed hheld =>
    rw [hplayed, List.count_nil]
    exact ⟨Nat.zero_le _, fun hlate => by omega⟩
  | playing lead m hm hearly hlate hnext hbuffering hcount hplayed hheld =>
    rw [hplayed]
    exact ⟨honce m, fun hlater => hin m (by omega)⟩
  | ended hpending hearly hplayed =>
    rw [hplayed]
    exact ⟨honce n, fun _ => hin n hk⟩

/-! ## The buffers of a call -/

theorem lookup_step {p : ContentPlayout} {call : ContentPlayout.Call} {peer : String} {b : JitterBuffer}
    (hbegun : ∀ peer b, p.buffers.lookup peer = some b → ∃ frame ops, b = run (.push frame :: ops))
    (h : (p.step call).buffers.lookup peer = some b) : ∃ frame ops, b = run (.push frame :: ops) := by
  cases call with
  | accept sender frame =>
    by_cases hsender : peer = sender
    · subst hsender
      have hb : ((p.buffers.lookup peer).getD JitterBuffer.new).push frame = b := by
        simpa [ContentPlayout.step, ContentPlayout.accept] using h
      cases hlookup : p.buffers.lookup peer with
      | none =>
        rw [hlookup] at hb
        exact ⟨frame, [], hb.symm⟩
      | some old =>
        obtain ⟨first, ops, hold⟩ := hbegun peer old hlookup
        rw [hlookup, Option.getD_some, hold] at hb
        refine ⟨first, ops ++ [.push frame], ?_⟩
        rw [← List.cons_append]
        exact hb.symm.trans (run_concat_push _ frame).symm
    · refine hbegun peer b ?_
      simpa [ContentPlayout.step, ContentPlayout.accept, AList.lookup_insert_ne hsender] using h
  | tick =>
    have hb : ((retain p.buffers fun _ buf => buf.tick.1 != .idle || !buf.tick.2.isIdle).lookup peer).map (fun buf => buf.tick.2) =
        some b := by
      rw [← lookup_mapValues]
      exact h
    obtain ⟨old, hold, rfl⟩ := Option.map_eq_some_iff.mp hb
    rw [lookup_retain, Option.filter_eq_some_iff] at hold
    obtain ⟨first, ops, rfl⟩ := hbegun peer old hold.1
    refine ⟨first, ops ++ [.tick], ?_⟩
    rw [← List.cons_append]
    exact (run_concat_tick _).symm
  | forget other =>
    by_cases hother : peer = other
    · subst hother
      simp [ContentPlayout.step, ContentPlayout.forget] at h
    · refine hbegun peer b ?_
      simpa [ContentPlayout.step, ContentPlayout.forget, AList.lookup_erase_ne hother] using h
  | clear => simp [ContentPlayout.step, ContentPlayout.clear] at h

theorem lookup_calls {calls : List ContentPlayout.Call} {p : ContentPlayout} {peer : String} {b : JitterBuffer}
    (hbegun : ∀ peer b, p.buffers.lookup peer = some b → ∃ frame ops, b = run (.push frame :: ops))
    (h : (calls.foldl ContentPlayout.step p).buffers.lookup peer = some b) : ∃ frame ops, b = run (.push frame :: ops) := by
  induction calls generalizing p with
  | nil => exact hbegun peer b h
  | cons call calls ih => exact ih (fun _ _ => lookup_step hbegun) h

end PlayoutAux

open PlayoutAux

/-- An ordered stream is played in order and comes to rest; a stream whose frames are in time is played whole, if the buffer does not
tick twice before it; and the buffers of a call each begin with a frame. -/
theorem content_audio_in_order :
    (∀ ops, Ordered (resyncGap - 1) ops → PlaysInOrder ops) ∧
    (∀ start n d ops, Punctual start n d ops → ¬ [Op.tick, .tick] <+: ops → ∀ k < n,
      (playedSeqs (shown ops)).count (start + k) ≤ 1 ∧
        (k + jitterDepth < ticks ops → (playedSeqs (shown ops)).count (start + k) = 1)) ∧
    ∀ calls peer b, (List.foldl ContentPlayout.step ContentPlayout.new calls).buffers.lookup peer = some b →
      ∃ frame ops, b = run (.push frame :: ops) := by
  refine ⟨fun ops h => playsInOrder h, fun start n d ops h hhead k hk => played_once h hhead hk, fun calls peer b h => ?_⟩
  exact lookup_calls (fun _ _ hnone => by simp [ContentPlayout.new] at hnone) h

namespace PlayoutSample

def frame (seq : Nat) : PendingFrame := { seq, ptsUs := seq * frameDurationUs, opus := [] }

end PlayoutSample

open PlayoutSample in
/-- Three frames that come before the first tick are played at the first three. -/
theorem content_audio_sample :
    (playedSeqs (shown [.push (frame 0), .push (frame 1), .push (frame 2), .tick, .tick, .tick, .tick, .tick, .tick])).count 2 = 1 := by
  have hpunctual : Punctual 0 3 (-2) [.push (frame 0), .push (frame 1), .push (frame 2), .tick, .tick, .tick, .tick, .tick, .tick] := by
    constructor
    · decide
    · intro f hf
      simp only [List.mem_cons, Op.push.injEq, List.not_mem_nil, or_false, reduceCtorEq] at hf
      rcases hf with rfl | rfl | rfl
      · exact ⟨0, by decide, rfl⟩
      · exact ⟨1, by decide, rfl⟩
      · exact ⟨2, by decide, rfl⟩
    · intro pre f post k heq hseq
      have hk : k ≤ 2 := by
        have hmem : Op.push f ∈ pre ++ .push f :: post := List.mem_append_right _ List.mem_cons_self
        rw [← heq] at hmem
        simp only [List.mem_cons, Op.push.injEq, List.not_mem_nil, or_false, reduceCtorEq] at hmem
        rcases hmem with rfl | rfl | rfl <;> simp only [frame] at hseq <;> omega
      have hpre : ticks pre = 0 := by
        simp only [List.cons_eq_append_iff, List.nil_eq_append_iff, List.cons.injEq, reduceCtorEq, false_and, and_false, exists_false,
          or_false, Op.push.injEq] at heq
        rcases heq with ⟨rfl, -⟩ | ⟨_, rfl, ⟨rfl, -⟩ | ⟨_, rfl, rfl, -⟩⟩ <;> rfl
      rw [hpre]
      unfold jitterDepth
      omega
    · intro k hk _
      refine ⟨frame k, ?_, (Nat.zero_add k).symm⟩
      have hcases : k = 0 ∨ k = 1 ∨ k = 2 := by omega
      rcases hcases with rfl | rfl | rfl <;> simp
  exact (content_audio_in_order.2.1 0 3 (-2) _ hpunctual (by decide) 2 (by decide)).2 (by decide)

open PlayoutSample in
/-- A frame that comes after one 49 positions later is played after it; and of a stream that begins when the buffer has ticked twice, the
second frame is lost though it is in time. -/
theorem late_frame_and_idle_ticks_fail :
    (∃ ops, Ordered resyncGap ops ∧ ¬ PlaysInOrder ops) ∧
      ∃ ops, Punctual 0 3 2 ops ∧ ticks ops = 8 ∧ (playedSeqs (shown ops)).count 1 = 0 := by
  constructor
  · refine ⟨[.push (frame 49), .tick, .tick, .tick, .tick, .push (frame 0), .tick], ?_, ?_⟩
    · constructor
      · intro f hf
        simp only [List.mem_cons, Op.push.injEq, List.not_mem_nil, or_false, false_or, reduceCtorEq] at hf
        rcases hf with rfl | rfl <;> decide
      · intro pre f post heq g hg
        have hpre : g = frame 49 ∨ g = frame 0 := by
          have hmem : Op.push g ∈ pre ++ .push f :: post := List.mem_append_left _ hg
          rw [← heq] at hmem
          simpa using hmem
        have hsmall : g.seq ≤ 49 := by
          rcases hpre with rfl | rfl <;> decide
        unfold resyncGap
        omega
    · intro h
      have hshown := h.increasing [] (shown [.push (frame 49), .tick, .tick, .tick, .tick, .push (frame 0), .tick]) []
        (by simp) (by decide +kernel)
      revert hshown
      decide +kernel
  · refine ⟨[.tick, .tick, .push (frame 0), .tick, .tick, .push (frame 2), .tick, .push (frame 1), .tick, .tick, .tick], ?_, by decide,
      by decide +kernel⟩
    constructor
    · decide
    · intro f hf
      simp only [List.mem_cons, Op.push.injEq, List.not_mem_nil, or_false, false_or, reduceCtorEq] at hf
      rcases hf with rfl | rfl | rfl
      · exact ⟨0, by decide, rfl⟩
      · exact ⟨2, by decide, rfl⟩
      · exact ⟨1, by decide, rfl⟩
    · intro pre f post k heq hseq
      simp only [List.cons_eq_append_iff, List.nil_eq_append_iff, List.cons.injEq, reduceCtorEq, false_and, and_false, exists_false,
        false_or, or_false, Op.push.injEq] at heq
      rw [Nat.zero_add] at hseq
      rw [← hseq]
      obtain ⟨_, rfl, _, rfl, ⟨rfl, rfl, -⟩ | ⟨_, rfl, _, rfl, _, rfl, ⟨rfl, rfl, -⟩ | ⟨_, rfl, _, rfl, rfl, rfl, -⟩⟩⟩ := heq
      · decide
      · decide
      · decide
    · intro k hk _
      refine ⟨frame k, ?_, (Nat.zero_add k).symm⟩
      have hcases : k = 0 ∨ k = 1 ∨ k = 2 := by omega
      rcases hcases with rfl | rfl | rfl <;> simp

end DoubleSlash.Playout
