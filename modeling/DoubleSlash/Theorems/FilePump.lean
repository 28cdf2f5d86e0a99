import DoubleSlash.Lemmas.FileTurns
import DoubleSlash.Lib.Run
import Mathlib.Tactic.Linarith

/-!
# The file pump

Whatever the budgets and refusals, a stream's chunks go out in order, its record counts those that did, and COMPLETE goes out
behind the last. The stall clock is another matter: a turn in which some frames go out and others are refused leaves it running,
so that a stream that makes progress can be failed for want of a transport (`slow_stream_fails`). Where no turn of a stream
whose clock is running is of that kind, a stream is given up only after `STALL_GIVE_UP_SECS` without a frame
(`pump_sound`).
-/

namespace DoubleSlash.Manager

open Protocol Assoc Codec Files FileTransferManager Run

/-- A manager that sends, and what became of one stream. -/
structure Sending where
  mgr : FileTransferManager := {}
  clock : ℚ := 0
  /-- The index the stream last (re)started from. -/
  start : Nat := 0
  /-- The frames of it that a transport took since. -/
  frames : List Frame := []
  /-- When a transport last took a frame of it. -/
  lastTaken : Option ℚ := none
  /-- Whether the last turn failed it for want of a transport. -/
  gaveUp : Bool := false

/-- Whether an effect fails the stream for want of a transport. -/
def Effect.givesUp (tid : String) : Effect → Bool
  | .emit e => e == .fileFailed tid noTransport false
  | _ => false

/-- A peer's report of an error, which may quote any text. -/
def isReport : SenderOp → Bool
  | .errored .. => true
  | _ => false

/-- Whether the operation can begin a turn now: the pump takes active streams only. -/
def permits (s : Sending) (t : FileTurn) : Bool :=
  isTurn t.op && decide (s.clock ≤ t.env.files.now) && match t.op with
    | .pump id _ => decide (id ∈ activeOutboundStreams t.env.files.now s.mgr)
    | _ => true

/-- A turn, seen from the stream. -/
def sendStep (tid : String) (s : Sending) (t : FileTurn) : Option Sending :=
  if permits s t then
    let out := t.carry s.mgr
    let took := takenFrames t.env tid out.2
    let restart := restartOf t.env.files tid s.mgr t.op
    some
      { mgr := out.1
        clock := t.env.files.now
        start := restart.getD s.start
        frames := (if restart.isSome then [] else s.frames) ++ took
        lastTaken := if took = [] then s.lastTaken else some t.env.files.now
        gaveUp := !isReport t.op && out.2.any (Effect.givesUp tid) }
  else none

/-- The chunks from one index up to another. -/
def chunks (start stop : Nat) : List Frame := (List.range' start (stop - start)).map .chunk

/-- The frames are the chunks from `start` up to the cursor, each once and in order; behind the last there may be COMPLETE. -/
def InOrder (start cursor total : Nat) (frames : List Frame) : Prop :=
  start ≤ cursor ∧ (frames = chunks start cursor ∨ cursor = total ∧ frames = chunks start cursor ++ [.complete])

/-- The record counts what went out, in order. -/
def Counted (tid : String) (s : Sending) : Prop :=
  ∀ x, s.mgr.outbound.lookup tid = some x → InOrder s.start x.chunksSent x.totalChunks s.frames

/-- A stream is given up only when no frame of it went out for long. -/
def Patient (s : Sending) : Prop := s.gaveUp = true → ∀ t, s.lastTaken = some t → t + stallGiveUp ≤ s.clock

/-- In a turn of a stream whose stall clock is running, all frames go out or none. -/
def Steady (tid : String) (s : Sending) (t : FileTurn) : Prop :=
  ∀ budget x since, t.op = .pump tid budget → s.mgr.outbound.lookup tid = some x → x.stalledSince = some since →
    since < t.env.files.now →
      let frames := fileFrames tid (pumpStream t.env.files s.mgr tid budget).2
      t.route.takes t.env 0 frames = 0 ∨ t.route.takes t.env 0 frames = frames.length

/-! ## Order -/

namespace FilePumpAux

theorem chunks_add (start k : Nat) : chunks start (start + k) = (List.range' start k).map .chunk := by
  rw [chunks, Nat.add_sub_cancel_left]

theorem chunks_append {start cursor : Nat} (h : start ≤ cursor) (k : Nat) :
    chunks start cursor ++ (List.range' cursor k).map .chunk = chunks start (cursor + k) := by
  obtain ⟨j, rfl⟩ := Nat.exists_eq_add_of_le h
  rw [chunks_add, Nat.add_assoc, chunks_add, ← List.map_append, ← List.range'_append_1]

/-- The first frames of what a pump emits are chunks, unless they are all and COMPLETE is one. -/
theorem take_emitted {start k sent : Nat} {last : Bool} (h : sent ≤ (emitted start k last).length) :
    (sent ≤ k ∧ (emitted start k last).take sent = (List.range' start sent).map .chunk) ∨
      (last = true ∧ sent = k + 1 ∧ (emitted start k last).take sent = (List.range' start k).map .chunk ++ [.complete]) := by
  rw [length_emitted] at h
  by_cases hle : sent ≤ k
  · refine Or.inl ⟨hle, ?_⟩
    rw [emitted, List.take_append_of_le_length (by simpa using hle), ← List.map_take,
      List.take_range'_of_length_ge hle]
  · cases last with
    | false => exact absurd h hle
    | true =>
      have hall : sent = k + 1 := by
        simp only [Bool.toNat_true] at h
        omega
      refine Or.inr ⟨rfl, hall, ?_⟩
      rw [List.take_of_length_le (by rw [length_emitted, hall]; rfl)]
      rfl

/-- More of the stream, in order. -/
theorem inOrder_more {start cursor total k sent : Nat} {last : Bool} (hstart : start ≤ cursor)
    (hended : last = true → total ≤ cursor + k) (hbound : k = 0 ∨ cursor + k ≤ total) (hle : cursor ≤ total)
    (h : sent ≤ (emitted cursor k last).length) :
    InOrder start (cursor + min sent k) total (chunks start cursor ++ (emitted cursor k last).take sent) := by
  refine ⟨by omega, ?_⟩
  rcases take_emitted h with ⟨hsent, htake⟩ | ⟨hlast, hsent, htake⟩
  · rw [htake, Nat.min_eq_left hsent, chunks_append hstart]
    exact Or.inl rfl
  · have := hended hlast
    rw [htake, Nat.min_eq_right (by omega), ← List.append_assoc, chunks_append hstart]
    exact Or.inr ⟨by omega, rfl⟩

/-- What holds of a stream in every state. -/
structure Ordered (tid : String) (s : Sending) : Prop where
  keyed : Keyed s.mgr
  counted : Counted tid s
  within : ∀ x, s.mgr.outbound.lookup tid = some x → x.chunksSent ≤ x.totalChunks
  live : ∀ x, s.mgr.outbound.lookup tid = some x → x.state = .transferring → .complete ∉ s.frames
  fresh : ∀ x, s.mgr.outbound.lookup tid = some x → x.state = .pending → x.chunksSent = 0

theorem ordered_start (tid : String) : Ordered tid {} := by
  have hnone : ∀ x : OutboundTransfer, ({} : Sending).mgr.outbound.lookup tid ≠ some x := fun x hx => (by cases hx)
  exact ⟨(fun id x hx => by cases hx), fun x hx => absurd hx (hnone x), fun x hx => absurd hx (hnone x),
    fun x hx => absurd hx (hnone x), fun x hx => absurd hx (hnone x)⟩

theorem Ordered.frames_eq {tid : String} {s : Sending} {x : OutboundTransfer} (h : Ordered tid s)
    (hx : s.mgr.outbound.lookup tid = some x) (hstate : x.state = .transferring) : s.frames = chunks s.start x.chunksSent := by
  rcases (h.counted x hx).2 with heq | ⟨-, heq⟩
  · exact heq
  · refine absurd ?_ (h.live x hx hstate)
    rw [heq]
    simp

theorem step_eq {tid : String} {s s' : Sending} {t : FileTurn} (h : sendStep tid s t = some s') :
    permits s t = true ∧ isTurn t.op = true ∧ s.clock ≤ t.env.files.now ∧ s'.mgr = (t.carry s.mgr).1 ∧ s'.clock = t.env.files.now ∧
      s'.start = (restartOf t.env.files tid s.mgr t.op).getD s.start ∧
      s'.frames = (if (restartOf t.env.files tid s.mgr t.op).isSome then [] else s.frames) ++
        takenFrames t.env tid (t.carry s.mgr).2 ∧
      s'.lastTaken = (if takenFrames t.env tid (t.carry s.mgr).2 = [] then s.lastTaken else some t.env.files.now) ∧
      s'.gaveUp = (!isReport t.op && (t.carry s.mgr).2.any (Effect.givesUp tid)) := by
  unfold sendStep at h
  obtain ⟨hpermits, heq⟩ := Option.ite_none_right_eq_some.mp h
  have hand := hpermits
  simp only [permits, Bool.and_eq_true, decide_eq_true_eq] at hand
  obtain rfl := Option.some.inj heq
  exact ⟨hpermits, hand.1.1, hand.1.2, rfl, rfl, rfl, rfl, rfl, rfl⟩

/-- **The order is kept by every turn.** -/
theorem Ordered.step {tid : String} {s s' : Sending} {t : FileTurn} (htid : tid ≠ "") (h : Ordered tid s)
    (hstep : sendStep tid s t = some s') : Ordered tid s' := by
  obtain ⟨-, hturn, -, hmgr, -, hstart', hframes', -, -⟩ := step_eq hstep
  obtain ⟨hkeyed, hmoved⟩ := moved htid h.keyed h.fresh hturn
  rw [← hmgr] at hkeyed
  cases hmoved with
  | pumped x y k last sent hp hfrom =>
    have hlookup := hp.lookup
    rw [← hmgr] at hlookup
    have hcursor : y.chunksSent = x.chunksSent + min sent k := by rw [hp.record]
    have htotal : y.totalChunks = x.totalChunks := by rw [hp.record]
    -- What was taken before, and where the turn went on.
    have hbefore : ∃ start, s'.start = start ∧ start ≤ x.chunksSent ∧ x.chunksSent ≤ x.totalChunks ∧
        s'.frames = chunks start x.chunksSent ++ (emitted x.chunksSent k last).take sent := by
      rcases hfrom with ⟨hrestart, -, hle⟩ | ⟨hrestart, hx, hstate, -⟩
      · refine ⟨x.chunksSent, by rw [hstart', hrestart]; rfl, Nat.le_refl _, hle, ?_⟩
        rw [hframes', hrestart, hp.taken]
        simp [chunks]
      · refine ⟨s.start, by rw [hstart', hrestart]; rfl, (h.counted x hx).1, h.within x hx, ?_⟩
        rw [hframes', hrestart, hp.taken, h.frames_eq hx hstate]
        rfl
    obtain ⟨start, hstart, hle, hwithin, hframes⟩ := hbefore
    refine ⟨hkeyed, fun y' hy' => ?_, fun y' hy' => ?_, fun y' hy' => ?_, fun y' hy' hpending => ?_⟩
    · obtain rfl := Option.some.inj (hlookup.symm.trans hy')
      rw [hstart, hframes, hcursor, htotal]
      exact inOrder_more hle hp.ended hp.bound hwithin hp.within
    · obtain rfl := Option.some.inj (hlookup.symm.trans hy')
      rw [hcursor, htotal]
      rcases hp.bound with hk | hk <;> omega
    · obtain rfl := Option.some.inj (hlookup.symm.trans hy')
      intro hstate hmem
      rw [hframes] at hmem
      rcases take_emitted hp.within with ⟨-, htake⟩ | ⟨hlast, hsent, -⟩
      · rw [htake] at hmem
        simp [chunks] at hmem
      · rw [hp.complete hlast hsent] at hstate
        cases hstate
    · obtain rfl := Option.some.inj (hlookup.symm.trans hy')
      exact absurd hpending hp.moving
  | filed x htaken _ hrestart hlookup _ hcursor =>
    rw [← hmgr] at hlookup
    rw [hrestart] at hstart' hframes'
    rw [htaken] at hframes'
    refine ⟨hkeyed, fun y hy => ?_, fun y hy => ?_, fun y hy _ => ?_, fun y hy _ => ?_⟩
    all_goals obtain rfl := Option.some.inj (hlookup.symm.trans hy)
    · rw [hstart', hframes', hcursor]
      exact ⟨Nat.le_refl 0, Or.inl rfl⟩
    · rw [hcursor]
      exact Nat.zero_le _
    · rw [hframes']
      simp
    · exact hcursor
  | rested htaken _ hrestart hrecord =>
    rw [hrestart] at hstart' hframes'
    rw [htaken] at hframes'
    simp only [Option.getD_none, Option.isSome_none, Bool.false_eq_true, if_false, List.append_nil] at hstart' hframes'
    rw [← hmgr] at hrecord
    refine ⟨hkeyed, fun y hy => ?_, fun y hy => ?_, fun y hy hstate => ?_, fun y hy hstate => ?_⟩
    all_goals obtain ⟨x, hx, hcursor, htotal, -, htransferring, hpending⟩ := hrecord y hy
    · rw [hstart', hframes', hcursor, htotal]
      exact h.counted x hx
    · rw [hcursor, htotal]
      exact h.within x hx
    · rw [hframes']
      exact h.live x hx (htransferring hstate)
    · rw [hcursor]
      exact h.fresh x hx (hpending hstate)

/-! ## The stall clock -/

/-- No frame went out since the clock of a stream under way was started. -/
structure Timed (tid : String) (s : Sending) : Prop where
  past : ∀ t, s.lastTaken = some t → t ≤ s.clock
  since : ∀ x since, s.mgr.outbound.lookup tid = some x → x.state = .transferring → x.stalledSince = some since →
    since ≤ s.clock ∧ ∀ t, s.lastTaken = some t → t ≤ since
  patient : Patient s

theorem mem_of_givesUp {tid : String} {effects : List Effect} (h : effects.any (Effect.givesUp tid) = true) :
    Effect.emit (.fileFailed tid noTransport false) ∈ effects := by
  obtain ⟨e, he, hgives⟩ := List.any_eq_true.mp h
  cases e with
  | emit event =>
    obtain rfl := beq_iff_eq.mp hgives
    exact he
  | _ => cases hgives

/-- A turn that took nothing of the stream and gave nothing up. -/
theorem Timed.idle {tid : String} {s s' : Sending} {t : FileTurn} (h : Timed tid s) (hstep : sendStep tid s t = some s')
    (htaken : takenFrames t.env tid (t.carry s.mgr).2 = [])
    (hsilent : isReport t.op = false → Effect.emit (.fileFailed tid noTransport false) ∉ (t.carry s.mgr).2)
    (hrecord : ∀ y, (t.carry s.mgr).1.outbound.lookup tid = some y → y.state = .transferring →
      ∃ x, s.mgr.outbound.lookup tid = some x ∧ x.state = .transferring ∧ y.stalledSince = x.stalledSince) : Timed tid s' := by
  obtain ⟨-, -, hclock, hmgr, hclock', -, -, hlast, hgave⟩ := step_eq hstep
  rw [if_pos htaken] at hlast
  refine ⟨fun u hu => ?_, fun y since hy hstate hsince => ?_, fun hgives => ?_⟩
  · rw [hclock']
    exact le_trans (h.past u (hlast ▸ hu)) hclock
  · obtain ⟨x, hx, hxstate, heq⟩ := hrecord y (hmgr ▸ hy) hstate
    obtain ⟨hle, hbefore⟩ := h.since x since hx hxstate (heq ▸ hsince)
    rw [hclock', hlast]
    exact ⟨le_trans hle hclock, hbefore⟩
  · rw [hgave, Bool.and_eq_true, Bool.not_eq_true'] at hgives
    exact absurd (mem_of_givesUp hgives.2) (hsilent hgives.1)

/-- **A steady turn keeps the stall clock.** -/
theorem Timed.step {tid : String} {s s' : Sending} {t : FileTurn} (htid : tid ≠ "") (ho : Ordered tid s) (h : Timed tid s)
    (hsteady : Steady tid s t) (hstep : sendStep tid s t = some s') : Timed tid s' := by
  obtain ⟨-, hturn, hclock, hmgr, hclock', -, -, hlast, hgave⟩ := step_eq hstep
  obtain ⟨-, hmoved⟩ := moved htid ho.keyed ho.fresh hturn
  cases hmoved with
  | filed x htaken hsilent _ hlookup hfresh _ =>
    refine h.idle hstep htaken (fun _ => hsilent) fun y hy hstate => ?_
    obtain rfl := Option.some.inj (hlookup.symm.trans hy)
    rw [hfresh] at hstate
    cases hstate
  | rested htaken hsilent _ hrecord =>
    refine h.idle hstep htaken (fun hreport => hsilent fun reason hop => ?_) fun y hy hstate => ?_
    · rw [hop] at hreport
      cases hreport
    · obtain ⟨x, hx, -, -, hsince, htransferring, -⟩ := hrecord y hy
      exact ⟨x, hx, htransferring hstate, hsince⟩
  | pumped x y k last sent hp hfrom =>
    have hlookup := hp.lookup
    rw [← hmgr] at hlookup
    have hpast : ∀ u, s'.lastTaken = some u → u ≤ t.env.files.now := by
      intro u hu
      rw [hlast] at hu
      split at hu
      · exact le_trans (h.past u hu) hclock
      · exact le_of_eq (Option.some.inj hu).symm
    -- A clock that ran before the turn, in which all frames went out or none.
    have hran : ∀ since, x.stalledSince = some since → since ≤ t.env.files.now ∧ (∀ u, s.lastTaken = some u → u ≤ since) ∧
        (since < t.env.files.now → sent = 0 ∨ sent = (emitted x.chunksSent k last).length) := by
      intro since hsince
      rcases hfrom with ⟨-, hnone, -⟩ | ⟨-, hx, hstate, budget, hop, hsent, hcount⟩
      · rw [hnone] at hsince
        cases hsince
      · obtain ⟨hle, hbefore⟩ := h.since x since hx hstate hsince
        refine ⟨le_trans hle hclock, hbefore, fun hlt => ?_⟩
        rw [hsent, ← hcount]
        exact hsteady budget x since hop hx hsince hlt
    have hnothing : sent = 0 → s'.lastTaken = s.lastTaken := by
      rintro rfl
      rw [hlast, hp.taken, List.take_zero, if_pos rfl]
    refine ⟨fun u hu => by rw [hclock']; exact hpast u hu, fun y' since hy' hstate hsince => ?_, fun hgives u hu => ?_⟩
    · obtain rfl := Option.some.inj (hlookup.symm.trans hy')
      rw [hclock']
      by_cases hall : sent = (emitted x.chunksSent k last).length
      · -- The clock of a stream of which frames went out is off, unless it is complete.
        by_cases hk : k = 0
        · have hlast' : last = false := by
            cases hl : last with
            | false => rfl
            | true =>
              rw [length_emitted, hl] at hall
              rw [hp.complete hl hall] at hstate
              cases hstate
          have hzero : sent = 0 := by rw [hall, length_emitted, hk, hlast']; rfl
          rw [hp.kept hall hk] at hsince
          obtain ⟨hle, hbefore, -⟩ := hran since hsince
          rw [hnothing hzero]
          exact ⟨hle, hbefore⟩
        · rw [hp.cleared hall hk] at hsince
          cases hsince
      · have hlt := lt_of_le_of_ne hp.within hall
        rw [hp.stalled hlt, Option.some.injEq] at hsince
        cases hx : x.stalledSince with
        | none =>
          rw [hx, Option.getD_none] at hsince
          rw [← hsince]
          exact ⟨le_refl _, hpast⟩
        | some old =>
          rw [hx, Option.getD_some] at hsince
          obtain ⟨hle, hbefore, hmixed⟩ := hran old hx
          rw [← hsince]
          refine ⟨hle, fun u hu => ?_⟩
          rcases lt_or_eq_of_le hle with hold | hnow
          · rcases hmixed hold with hzero | hfull
            · exact hbefore u (hnothing hzero ▸ hu)
            · exact absurd hfull hall
          · rw [hnow]
            exact hpast u hu
    · rw [hgave, Bool.and_eq_true] at hgives
      obtain ⟨hlt, hover⟩ := hp.failed (mem_of_givesUp hgives.2)
      have hpositive : (0 : ℚ) < stallGiveUp := by norm_num [stallGiveUp]
      rw [hclock']
      cases hx : x.stalledSince with
      | none =>
        rw [hx, Option.getD_none] at hover
        linarith
      | some since =>
        rw [hx, Option.getD_some] at hover
        obtain ⟨-, hbefore, hmixed⟩ := hran since hx
        rcases hmixed (by linarith) with hzero | hfull
        · have := hbefore u (hnothing hzero ▸ hu)
          linarith
        · omega

end FilePumpAux

open FilePumpAux

/-- **The pump skips nothing, and gives up only without progress where turns are steady.** -/
theorem pump_sound (tid : String) (htid : tid ≠ "") (acts : List FileTurn) (s : Sending)
    (hrun : run (sendStep tid) {} acts = some s) :
    Counted tid s ∧ (Meets (sendStep tid) (Steady tid) {} acts → Patient s) := by
  constructor
  · have hordered := @run_invariant _ _ (sendStep tid) _ (fun _ s => Ordered tid s) (ordered_start tid)
      (fun _ _ _ _ h hstep => h.step htid hstep) _ _ hrun
    exact hordered.counted
  · intro hmeets
    have hboth := meets_invariant (fun s => Ordered tid s ∧ Timed tid s) ?_ ⟨ordered_start tid, ?_⟩ hmeets hrun
    · exact hboth.2.patient
    · rintro s t s' ⟨ho, ht⟩ hsteady hstep
      exact ⟨ho.step htid hstep, ht.step htid ho hsteady hstep⟩
    · exact ⟨(fun _ h => by cases h), (fun x _ hx => by cases hx), (fun h => by cases h)⟩

/-! ## A slow stream -/

/-- A turn with one peer at a time, and what the transport answers. -/
def turnAt (now : ℚ) (sent : Nat → Bool) (op : SenderOp) : FileTurn where
  env :=
    { crypto := ⟨fun _ => none, fun _ _ _ => false⟩
      now := 0
      displayHandle := ""
      parseSocketAddr := fun _ => none
      openEnvelope := fun _ => none
      files := { FileEnv.plain with now := now }
      sent := sent }
  route := .peer
  op := op

/-- A file of one byte. -/
def oneByte : PreparedOffer where
  source := .inline [1]
  transferId := "t"
  originalSha := ""
  originalSize := 1
  payloadLen := 1
  purpose := "file"
  compressed := false
  isDelta := false
  baseSha256 := ""

/-- It is offered and accepted, but its chunk is refused. -/
def refusedAtFirst : List FileTurn :=
  [turnAt 0 (fun _ => true) (.offer "p" "a" oneByte false), turnAt 0 (fun _ => false) (.accepted "t" none)]

theorem pump_sound_sample : ∃ s, run (sendStep "t") {} (refusedAtFirst ++ [turnAt 1 (fun _ => true) (.pump "t" 8)]) = some s ∧
    s.frames = [.chunk 0, .complete] ∧ Patient s := by
  obtain ⟨s, hrun, hframes⟩ : ∃ s, run (sendStep "t") {} (refusedAtFirst ++ [turnAt 1 (fun _ => true) (.pump "t" 8)]) = some s ∧
      s.frames = [.chunk 0, .complete] := by
    have hany : (run (sendStep "t") {} (refusedAtFirst ++ [turnAt 1 (fun _ => true) (.pump "t" 8)])).any
        (fun s => s.frames == [.chunk 0, .complete]) = true := by decide +kernel
    obtain ⟨s, hrun, hframes⟩ := (Option.any_eq_true ..).mp hany
    exact ⟨s, hrun, beq_iff_eq.mp hframes⟩
  refine ⟨s, hrun, hframes, (pump_sound "t" (by decide) _ s hrun).2 ?_⟩
  refine ⟨fun _ _ _ hop => (by cases hop), fun s₁ h₁ => ⟨fun _ _ _ hop => (by cases hop), fun s₂ h₂ => ⟨?_, fun _ _ => trivial⟩⟩⟩
  rintro _ _ _ ⟨⟩ - - -
  obtain rfl := Option.some.inj h₁
  obtain rfl := Option.some.inj h₂
  exact Or.inr (by decide +kernel)

/-- After two minutes the chunk goes out, but COMPLETE is refused; a second later the stream has failed. -/
theorem slow_stream_fails : ¬∀ (tid : String) (acts : List FileTurn) (s : Sending), tid ≠ "" →
    run (sendStep tid) {} acts = some s → Counted tid s ∧ Patient s := by
  intro hall
  have hany : (run (sendStep "t") {} (refusedAtFirst ++
      [turnAt 119 (fun n => n == 0) (.pump "t" 8), turnAt 120 (fun _ => false) (.pump "t" 8)])).any
        (fun s => s.gaveUp && decide (s.lastTaken = some 119) && decide (s.clock = 120)) = true := by decide +kernel
  obtain ⟨s, hrun, hs⟩ := (Option.any_eq_true ..).mp hany
  simp only [Bool.and_eq_true, decide_eq_true_eq] at hs
  have hpatient := (hall "t" _ s (by decide) hrun).2 hs.1.1 119 hs.1.2
  rw [hs.2] at hpatient
  norm_num [stallGiveUp] at hpatient

end DoubleSlash.Manager
