import DoubleSlash.Calls.ContentPlayout
import DoubleSlash.Lib.Stretch

/-!
# What a call does to a jitter buffer

The state that calls keep, and what a tick does in it, case by case.
-/

namespace DoubleSlash.Playout

open Stretch

/-- A buffer after calls. -/
def run (ops : List Op) : JitterBuffer := after JitterBuffer.step JitterBuffer.new ops

/-- What the ticks of the calls show. -/
def shown (ops : List Op) : List Event := events JitterBuffer.step JitterBuffer.new ops

/-- Frames of one stream: the numbers, and what comes after the last, are `u32`, and each frame is pushed only after frames fewer than
`n` positions later. -/
structure Ordered (n : Nat) (ops : List Op) : Prop where
  fits : ∀ f, .push f ∈ ops → f.seq + 1 < 2 ^ 32
  late : ∀ pre f post, ops = pre ++ .push f :: post → ∀ g, .push g ∈ pre → g.seq < f.seq + n

/-- What calls keep: `ops` are those so far. -/
structure Sound (ops : List Op) (b : JitterBuffer) : Prop where
  sorted : b.pending.Pairwise fun f g => f.seq < g.seq
  short : b.pending.length ≤ maxBufferedFrames
  pushed : ∀ f ∈ b.pending, .push f ∈ ops
  fits : ∀ f ∈ b.pending, f.seq + 1 < 2 ^ 32
  /-- Nothing that is held comes before what is expected. -/
  ahead : ∀ next, b.nextSeq = some next → ∀ f ∈ b.pending, next ≤ f.seq
  /-- What is expected is at most one position after a frame. -/
  reached : ∀ next, b.nextSeq = some next → ∃ f, .push f ∈ ops ∧ next ≤ f.seq + 1
  started : b.buffering = false → b.nextSeq.isSome = true
  streak : b.concealedStreak ≤ maxConcealedFrames
  fresh : b.nextSeq = none → b.concealedStreak = 0
  /-- A refill counts from the underrun. -/
  refill : b.buffering = true → b.nextSeq.isSome = true → b.concealedStreak = b.fillTicks + 1
  drained : b.buffering = false → b.pending = [] → b.concealedStreak = 0
  unfilled : b.buffering = false → b.fillTicks = 0

namespace PlayoutAux

variable {ops : List Op} {b : JitterBuffer} {frame : PendingFrame}

theorem wrappingAdd_one {n : Nat} (h : n + 1 < 2 ^ 32) : wrappingAdd n 1 = n + 1 := Nat.mod_eq_of_lt h

theorem wrappingSub_of_le {a b : Nat} (hb : b ≤ a) (ha : a < 2 ^ 32) : wrappingSub a b = a - b := by
  unfold wrappingSub
  omega

/-! ## Pushing -/

theorem perm_arrange (pending : List PendingFrame) (frame : PendingFrame) :
    ((pending ++ [frame]).mergeSort fun f g => f.seq ≤ g.seq).Perm (frame :: pending) :=
  (List.mergeSort_perm _ _).trans List.perm_append_comm

/-- A frame that is new is put in its place. -/
theorem sorted_arrange {pending : List PendingFrame} (hsorted : pending.Pairwise fun f g => f.seq < g.seq)
    (hnew : ∀ f ∈ pending, f.seq ≠ frame.seq) : (JitterBuffer.arrange pending frame).Pairwise fun f g => f.seq < g.seq := by
  have hle : ((pending ++ [frame]).mergeSort fun f g => f.seq ≤ g.seq).Pairwise fun f g => f.seq ≤ g.seq := by
    have h := @List.pairwise_mergeSort _ (fun f g : PendingFrame => decide (f.seq ≤ g.seq))
      (fun a b c hab hbc => by simp only [decide_eq_true_eq] at *; omega)
      (fun a b => by simp only [Bool.or_eq_true, decide_eq_true_eq]; omega) (pending ++ [frame])
    exact h.imp fun hab => by simpa using hab
  have hne : ((pending ++ [frame]).mergeSort fun f g => f.seq ≤ g.seq).Pairwise fun f g => f.seq ≠ g.seq := by
    refine ((perm_arrange pending frame).pairwise_iff fun h => h.symm).mpr ?_
    refine List.pairwise_cons.mpr ⟨fun f hf => (hnew f hf).symm, hsorted.imp fun h => Nat.ne_of_lt h⟩
  unfold JitterBuffer.arrange
  exact ((hle.and hne).imp fun h => Nat.lt_of_le_of_ne h.1 h.2).sublist (List.drop_sublist _ _)

theorem length_arrange (pending : List PendingFrame) (frame : PendingFrame) :
    (JitterBuffer.arrange pending frame).length = min (pending.length + 1) maxBufferedFrames := by
  unfold JitterBuffer.arrange
  rw [List.length_drop, (perm_arrange pending frame).length_eq, List.length_cons]
  omega

theorem mem_arrange {pending : List PendingFrame} {f : PendingFrame} (h : f ∈ JitterBuffer.arrange pending frame) :
    f = frame ∨ f ∈ pending := by
  unfold JitterBuffer.arrange at h
  exact List.mem_cons.mp ((perm_arrange pending frame).mem_iff.mp (List.mem_of_mem_drop h))

/-- With room left, nothing is shed. -/
theorem mem_arrange_iff {pending : List PendingFrame} {f : PendingFrame} (h : pending.length < maxBufferedFrames) :
    f ∈ JitterBuffer.arrange pending frame ↔ f = frame ∨ f ∈ pending := by
  unfold JitterBuffer.arrange
  have hlen := (perm_arrange pending frame).length_eq
  rw [List.length_cons] at hlen
  simp only [hlen, Nat.sub_eq_zero_of_le h, List.drop_zero, (perm_arrange pending frame).mem_iff, List.mem_cons]

/-- A push keeps the buffer, for a frame that is held or was played, or puts the frame in its place. -/
theorem push_cases (b : JitterBuffer) (frame : PendingFrame) :
    (b.push frame = b ∧ ((∃ f ∈ b.pending, f.seq = frame.seq) ∨
        ∃ next, b.nextSeq = some next ∧ frame.seq < next ∧ wrappingSub next frame.seq < resyncGap)) ∨
      (b.push frame = { b with pending := JitterBuffer.arrange b.pending frame } ∧ (∀ f ∈ b.pending, f.seq ≠ frame.seq) ∧
        ∀ next, b.nextSeq = some next → frame.seq < next → resyncGap ≤ wrappingSub next frame.seq) := by
  unfold JitterBuffer.push
  split
  · rename_i hdup
    simp only [List.any_eq_true, beq_iff_eq] at hdup
    exact Or.inl ⟨rfl, Or.inl hdup⟩
  · rename_i hdup
    simp only [List.any_eq_true, beq_iff_eq, not_exists, not_and] at hdup
    split
    · rename_i hold
      simp only [Option.any_eq_true, Bool.and_eq_true, decide_eq_true_eq] at hold
      obtain ⟨next, hnext, hlt, hgap⟩ := hold
      exact Or.inl ⟨rfl, Or.inr ⟨next, hnext, hlt, hgap⟩⟩
    · rename_i hold
      refine Or.inr ⟨rfl, hdup, fun next hnext hlt => ?_⟩
      rw [hnext] at hold
      simpa [hlt] using hold

/-! ## Ticking -/

/-- What a tick does in a sound state. -/
inductive Ticks (b : JitterBuffer) : TickAction → JitterBuffer → Prop where
  /-- Nothing was played yet, and the cushion is not full. -/
  | fill (hnext : b.nextSeq = none) (hbuffering : b.buffering = true) (hlen : b.pending.length < jitterDepth)
      (hstalled : b.pending = [] ∨ b.fillTicks < jitterDepth) :
      Ticks b .idle { b with fillTicks := saturatingAdd b.fillTicks 1 }
  /-- The cushion is rebuilt: what is expected is still waited for. -/
  | refill (hnext : b.nextSeq.isSome = true) (hbuffering : b.buffering = true) (hstreak : b.concealedStreak < maxConcealedFrames)
      (hstalled : b.pending = [] ∨ b.fillTicks < jitterDepth) :
      Ticks b (.conceal b.nextPtsUs)
        { b with fillTicks := b.fillTicks + 1, nextPtsUs := saturatingAdd b.nextPtsUs frameDurationUs,
                 concealedStreak := b.concealedStreak + 1 }
  /-- The stream is over: nothing is held, or nothing that is due. -/
  | ended (hnext : b.nextSeq.isSome = true) (hstreak : b.concealedStreak = maxConcealedFrames)
      (hlost : b.pending = [] ∨ b.waiting = true) : Ticks b .idle JitterBuffer.new
  /-- The oldest frame is played. -/
  | play (first : PendingFrame) (rest : List PendingFrame) (hpending : b.pending = first :: rest)
      (hfull : b.buffering = true → jitterDepth ≤ b.pending.length ∨ jitterDepth ≤ b.fillTicks) :
      Ticks b (.play first)
        { pending := rest, nextSeq := some (first.seq + 1), nextPtsUs := saturatingAdd first.ptsUs frameDurationUs,
          concealedStreak := 0, buffering := false, fillTicks := 0 }
  /-- A frame is missing while a later one is here. -/
  | skip (first : PendingFrame) (rest : List PendingFrame) (next : Nat) (hpending : b.pending = first :: rest)
      (hnext : b.nextSeq = some next) (hbuffering : b.buffering = false) (hmissing : next < first.seq)
      (hstreak : b.concealedStreak < maxConcealedFrames) :
      Ticks b (.conceal b.nextPtsUs)
        { b with nextSeq := some (next + 1), nextPtsUs := saturatingAdd b.nextPtsUs frameDurationUs,
                 concealedStreak := b.concealedStreak + 1 }
  /-- Nothing is held. -/
  | underrun (hnext : b.nextSeq.isSome = true) (hbuffering : b.buffering = false) (hpending : b.pending = []) :
      Ticks b (.conceal b.nextPtsUs)
        { b with buffering := true, nextPtsUs := saturatingAdd b.nextPtsUs frameDurationUs, concealedStreak := 1 }

theorem startFrom_head (h : Sound ops b) {first : PendingFrame} {rest : List PendingFrame} (hpending : b.pending = first :: rest)
    (buffering : Bool) (fillTicks : Nat) :
    ({ b with buffering, fillTicks } : JitterBuffer).startFrom first =
      { pending := rest, nextSeq := some (first.seq + 1), nextPtsUs := saturatingAdd first.ptsUs frameDurationUs,
        concealedStreak := 0, buffering, fillTicks } := by
  have hfits := h.fits first (hpending ▸ List.mem_cons_self)
  have hsorted := h.sorted
  rw [hpending] at hsorted
  have hrest : (first :: rest).filter (fun f => f.seq != first.seq) = rest := by
    rw [List.filter_cons_of_neg (by simp)]
    refine List.filter_eq_self.mpr fun f hf => ?_
    have := List.rel_of_pairwise_cons hsorted hf
    simp only [bne_iff_ne, ne_eq]
    omega
  unfold JitterBuffer.startFrom
  simp only [hpending, hrest, wrappingAdd_one hfits]

theorem conceal_of_lt {advance : Bool} (h : b.concealedStreak < maxConcealedFrames) :
    b.conceal advance = (.conceal b.nextPtsUs,
      { b with nextSeq := if advance then b.nextSeq.map fun s => wrappingAdd s 1 else b.nextSeq,
               nextPtsUs := saturatingAdd b.nextPtsUs frameDurationUs, concealedStreak := b.concealedStreak + 1 }) :=
  if_neg (by omega)

theorem conceal_of_ge {advance : Bool} (h : maxConcealedFrames ≤ b.concealedStreak) :
    b.conceal advance = (.idle, JitterBuffer.new) := if_pos h

theorem tick_buffering (h : Sound ops b) (hbuffering : b.buffering = true) : Ticks b b.tick.1 b.tick.2 := by
  unfold JitterBuffer.tick
  rw [if_pos hbuffering]
  simp only
  split
  · rename_i hwait
    obtain ⟨hlen, hstalled⟩ := hwait
    have hstall : b.pending = [] ∨ b.fillTicks < jitterDepth := by
      simp only [Bool.and_eq_false_iff, decide_eq_false_iff_not, Nat.not_le, Bool.not_eq_false', List.isEmpty_iff] at hstalled
      exact hstalled.symm
    split
    · rename_i hnext
      have hsome : b.nextSeq.isSome = true := Option.isSome_iff_exists.mpr ⟨_, hnext⟩
      have hcount := h.refill hbuffering hsome
      have hstreak := h.streak
      by_cases hlt : b.concealedStreak < maxConcealedFrames
      · have hfill : saturatingAdd b.fillTicks 1 = b.fillTicks + 1 := by
          unfold saturatingAdd
          unfold maxConcealedFrames at hlt
          omega
        rw [conceal_of_lt (b := { b with fillTicks := saturatingAdd b.fillTicks 1 }) hlt, hfill]
        exact Ticks.refill hsome hbuffering hlt hstall
      · rw [conceal_of_ge (b := { b with fillTicks := saturatingAdd b.fillTicks 1 }) (by simpa using hlt)]
        refine Ticks.ended hsome (by omega) (Or.inl (hstall.resolve_right ?_))
        unfold jitterDepth
        unfold maxConcealedFrames at hlt
        omega
    · rename_i hnext
      exact Ticks.fill hnext hbuffering hlen hstall
  · rename_i hfull
    split
    · rename_i first hhead
      obtain ⟨rest, hpending⟩ := List.head?_eq_some_iff.mp hhead
      rw [startFrom_head h hpending]
      refine Ticks.play first rest hpending fun _ => ?_
      by_contra hnot
      simp only [not_or, Nat.not_le] at hnot
      exact hfull ⟨hnot.1, by rw [decide_eq_false (Nat.not_le.mpr hnot.2), Bool.false_and]⟩
    · rename_i hhead
      rw [List.head?_eq_none_iff.mp hhead] at hfull
      exact absurd ⟨(by decide), by simp⟩ hfull

theorem tick_playing (h : Sound ops b) (hbuffering : b.buffering = false) : Ticks b b.tick.1 b.tick.2 := by
  have hsome := h.started hbuffering
  unfold JitterBuffer.tick
  rw [if_neg (by simp [hbuffering])]
  split
  · rename_i hnext
    rw [hnext] at hsome
    cases hsome
  · rename_i next hnext
    split
    · rename_i first hhead
      obtain ⟨rest, hpending⟩ := List.head?_eq_some_iff.mp hhead
      have hmem : first ∈ b.pending := hpending ▸ List.mem_cons_self
      have hfits := h.fits first hmem
      have hahead := h.ahead next hnext first hmem
      split
      · have hstart := startFrom_head h hpending b.buffering b.fillTicks
        rw [show b.startFrom first = _ from hstart, hbuffering, h.unfilled hbuffering]
        exact Ticks.play first rest hpending fun htrue => by simp [hbuffering] at htrue
      · rename_i hmissing
        simp only [not_or] at hmissing
        by_cases hlt : b.concealedStreak < maxConcealedFrames
        · have hadvance : (if true = true then b.nextSeq.map fun s => wrappingAdd s 1 else b.nextSeq) = some (next + 1) := by
            rw [if_pos rfl, hnext, Option.map_some, wrappingAdd_one (by omega)]
          rw [conceal_of_lt hlt, hadvance]
          exact Ticks.skip first rest next hpending hnext hbuffering (by omega) hlt
        · rw [conceal_of_ge (by simpa using hlt)]
          refine Ticks.ended hsome (by have := h.streak; omega) (Or.inr ?_)
          unfold JitterBuffer.waiting
          rw [hbuffering, hnext, hpending]
          simpa using (show next < first.seq by omega)
    · rename_i hhead
      have hpending := List.head?_eq_none_iff.mp hhead
      have hstreak := h.drained hbuffering hpending
      rw [conceal_of_lt (by rw [hstreak]; decide), hstreak]
      exact Ticks.underrun hsome hbuffering hpending

/-- What a tick does. -/
theorem tick_cases (h : Sound ops b) : Ticks b b.tick.1 b.tick.2 := by
  cases hbuffering : b.buffering with
  | true => exact tick_buffering h hbuffering
  | false => exact tick_playing h hbuffering

/-! ## What is kept -/

theorem sound_new : Sound [] JitterBuffer.new where
  sorted := List.Pairwise.nil
  short := Nat.zero_le _
  pushed _ h := by cases h
  fits _ h := by cases h
  ahead _ h := by cases h
  reached _ h := by cases h
  started h := by cases h
  streak := Nat.zero_le _
  fresh _ := rfl
  refill _ h := by cases h
  drained h := by cases h
  unfilled h := by cases h

/-- A frame that no later one of the gap precedes is not taken for a new one. -/
theorem sound_push (h : Sound ops b) (hfits : ∀ f, .push f ∈ ops ++ [.push frame] → f.seq + 1 < 2 ^ 32)
    (hlate : ∀ g, .push g ∈ ops → g.seq < frame.seq + (resyncGap - 1)) : Sound (ops ++ [.push frame]) (b.push frame) := by
  have hmem {f : PendingFrame} (hf : Op.push f ∈ ops) : Op.push f ∈ ops ++ [.push frame] := List.mem_append_left _ hf
  have hframe : Op.push frame ∈ ops ++ [.push frame] := List.mem_append_right _ List.mem_cons_self
  have hreached : ∀ next, b.nextSeq = some next → ∃ f, Op.push f ∈ ops ++ [.push frame] ∧ next ≤ f.seq + 1 := by
    intro next hnext
    obtain ⟨f, hf, hle⟩ := h.reached next hnext
    exact ⟨f, hmem hf, hle⟩
  rcases push_cases b frame with ⟨heq, -⟩ | ⟨heq, hnew, hgap⟩
  · rw [heq]
    exact { h with pushed := fun f hf => hmem (h.pushed f hf), reached := hreached }
  · rw [heq]
    have hahead : ∀ next, b.nextSeq = some next → next ≤ frame.seq := by
      intro next hnext
      by_contra hlt
      obtain ⟨g, hg, hle⟩ := h.reached next hnext
      have hwrap := hgap next hnext (by omega)
      have hg' := hlate g hg
      have hgfits := hfits g (hmem hg)
      unfold resyncGap at hwrap hg'
      rw [wrappingSub_of_le (by omega) (by omega)] at hwrap
      omega
    have hfilled : JitterBuffer.arrange b.pending frame ≠ [] := by
      intro hnil
      have hlen := length_arrange b.pending frame
      rw [hnil, List.length_nil] at hlen
      unfold maxBufferedFrames jitterDepth at hlen
      omega
    exact
      { sorted := sorted_arrange h.sorted hnew
        short := by
          show (JitterBuffer.arrange b.pending frame).length ≤ maxBufferedFrames
          rw [length_arrange]
          exact Nat.min_le_right _ _
        pushed := by
          intro f hf
          rcases mem_arrange hf with rfl | hf
          · exact hframe
          · exact hmem (h.pushed f hf)
        fits := by
          intro f hf
          rcases mem_arrange hf with rfl | hf
          · exact hfits f hframe
          · exact h.fits f hf
        ahead := by
          intro next hnext f hf
          rcases mem_arrange hf with rfl | hf
          · exact hahead next hnext
          · exact h.ahead next hnext f hf
        reached := hreached
        started := h.started
        streak := h.streak
        fresh := h.fresh
        refill := h.refill
        drained := fun _ hnil => absurd hnil hfilled
        unfilled := h.unfilled }

theorem sound_ticks {action : TickAction} {b' : JitterBuffer} (h : Sound ops b) (hticks : Ticks b action b') :
    Sound (ops ++ [.tick]) b' := by
  have hmem {f : PendingFrame} (hf : Op.push f ∈ ops) : Op.push f ∈ ops ++ [.tick] := List.mem_append_left _ hf
  have hpushed : ∀ f ∈ b.pending, Op.push f ∈ ops ++ [.tick] := fun f hf => hmem (h.pushed f hf)
  have hreached : ∀ next, b.nextSeq = some next → ∃ f, Op.push f ∈ ops ++ [.tick] ∧ next ≤ f.seq + 1 := by
    intro next hnext
    obtain ⟨f, hf, hle⟩ := h.reached next hnext
    exact ⟨f, hmem hf, hle⟩
  cases hticks with
  | fill hnext hbuffering hlen hstalled =>
    exact { h with
      pushed := hpushed
      reached := hreached
      refill := fun _ hsome => by simp [hnext] at hsome
      drained := fun hplaying => by simp [hbuffering] at hplaying
      unfilled := fun hplaying => by simp [hbuffering] at hplaying }
  | refill hnext hbuffering hstreak hstalled =>
    exact { h with
      pushed := hpushed
      reached := hreached
      streak := hstreak
      fresh := fun hnone => by simp [show b.nextSeq = none from hnone] at hnext
      refill := fun _ _ => congrArg (· + 1) (h.refill hbuffering hnext)
      drained := fun hplaying => by simp [hbuffering] at hplaying
      unfilled := fun hplaying => by simp [hbuffering] at hplaying }
  | ended hnext hstreak hlost =>
    exact { sound_new with
      pushed := fun _ hf => (by cases hf)
      reached := fun _ hnone => (by cases hnone) }
  | play first rest hpending hfull =>
    have hsorted := h.sorted
    have hshort := h.short
    rw [hpending] at hsorted hshort
    have htail {f : PendingFrame} (hf : f ∈ rest) : f ∈ b.pending := hpending ▸ List.mem_cons_of_mem first hf
    have hfirst : first ∈ b.pending := hpending ▸ List.mem_cons_self
    exact
      { sorted := hsorted.of_cons
        short := Nat.le_of_succ_le hshort
        pushed := fun f hf => hpushed f (htail hf)
        fits := fun f hf => h.fits f (htail hf)
        ahead := by
          intro next hnext f hf
          rw [← Option.some.inj hnext]
          exact List.rel_of_pairwise_cons hsorted hf
        reached := by
          intro next hnext
          rw [← Option.some.inj hnext]
          exact ⟨first, hpushed first hfirst, Nat.le_refl _⟩
        started := fun _ => rfl
        streak := Nat.zero_le _
        fresh := fun _ => rfl
        refill := fun hbuffering => by cases hbuffering
        drained := fun _ _ => rfl
        unfilled := fun _ => rfl }
  | skip first rest next hpending hnext hbuffering hmissing hstreak =>
    have hfirst : first ∈ b.pending := hpending ▸ List.mem_cons_self
    have hsorted := h.sorted
    rw [hpending] at hsorted
    exact { h with
      pushed := hpushed
      ahead := by
        intro next' hnext' f hf
        rw [← Option.some.inj hnext']
        have hf' : f ∈ first :: rest := hpending ▸ hf
        rcases List.mem_cons.mp hf' with rfl | hf'
        · exact hmissing
        · exact Nat.lt_trans hmissing (List.rel_of_pairwise_cons hsorted hf')
      reached := by
        intro next' hnext'
        rw [← Option.some.inj hnext']
        exact ⟨first, hpushed first hfirst, by omega⟩
      started := fun _ => rfl
      streak := hstreak
      fresh := fun hnone => by cases hnone
      refill := fun hrefill => by simp [hbuffering] at hrefill
      drained := fun _ hnil => by simp [hpending] at hnil }
  | underrun hnext hbuffering hpending =>
    exact { h with
      pushed := hpushed
      reached := hreached
      started := fun _ => hnext
      streak := (by decide : 1 ≤ maxConcealedFrames)
      fresh := fun hnone => by simp [show b.nextSeq = none from hnone] at hnext
      refill := fun _ _ => congrArg (· + 1) (h.unfilled hbuffering).symm
      drained := fun hplaying => by cases hplaying
      unfilled := fun hplaying => by cases hplaying }

/-- One call of an ordered stream. -/
theorem sound_step {op : Op} (h : Sound ops b) (hfits : ∀ f, .push f ∈ ops ++ [op] → f.seq + 1 < 2 ^ 32)
    (hlate : ∀ f, op = .push f → ∀ g, .push g ∈ ops → g.seq < f.seq + (resyncGap - 1)) : Sound (ops ++ [op]) (b.step op).1 := by
  cases op with
  | push frame => exact sound_push h hfits (hlate frame rfl)
  | tick => exact sound_ticks h (tick_cases h)

/-- Every state that an ordered stream passes is sound. -/
theorem sound_run {pre post : List Op} (h : Ordered (resyncGap - 1) (pre ++ post)) : Sound pre (run pre) := by
  have hsplit : pre ++ post = pre ++ post := rfl
  refine invariant Sound sound_new (fun pre' op post' heq hsound => ?_) hsplit
  refine sound_step hsound (fun f hf => h.fits f ?_) fun f hf g hg => ?_
  · rw [heq]
    rw [← List.singleton_append, ← List.append_assoc]
    exact List.mem_append_left _ hf
  · subst hf
    exact h.late pre' f post' heq g hg

end PlayoutAux

end DoubleSlash.Playout
