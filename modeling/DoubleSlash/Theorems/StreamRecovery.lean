import DoubleSlash.Lemmas.Streams

/-!
# Streams that go on

A sender that is new is served while there is room for its history, a stream that starts over is served again, and the byte cap takes
the work that has waited longest.
-/

namespace DoubleSlash.Video

open Assoc SenderState

/-- How many senders have a history. -/
def Reassembler.histories (r : Reassembler) : Nat := r.senders.entries.countP fun e => e.2.lastCompleted.isSome

/-- Every partial frame of a sender has expired by this instant. -/
def SenderState.Expired (s : SenderState) (now : Nat) : Prop :=
  ∀ seq p, s.partials.lookup seq = some p → partialTimeout p.chunks.length ≤ now - p.firstSeen

/-- The frames of a sender that has started over: numbered from zero, a keyframe first. -/
structure StartsOver (sender : String) (frames : Nat → Split) : Prop where
  sender : ∀ n, (frames n).sender = sender
  numbered : ∀ n, (frames n).frameSeq = UInt32.ofNat n
  keyframe : (frames 0).keyframe = true

/-- The calls in which a frame arrives: calls of others, and from some instant on all its fragments. -/
def Split.ArrivesIn (F : Split) (start : Nat) (calls : List Op) : Prop :=
  ∃ gap rest, calls = gap ++ rest ∧ (∀ op ∈ gap, op.Foreign F.sender) ∧ F.Arriving start rest

namespace StreamRecoveryAux

open Split

variable {F : Split} {r : Reassembler} {s : SenderState} {t i : Nat} {order : IterOrder} {last : Option UInt32}

/-! ## One frame -/

/-- The first fragment of a frame is pushed and reaches this state. -/
def Reaches (r : Reassembler) (F : Split) (t : Nat) (s : SenderState) : Prop :=
  ∀ order, ∀ i < F.count, r.push order (F.bytes i) t =
    (⟨(r.evictExpired t).senders.insert F.sender (s.accept order (F.header i) (F.chunk i) t).1⟩,
      (s.accept order (F.header i) (F.chunk i) t).2)

theorem arrived_one (hi : i < F.count) : F.Arrived [i] :=
  ⟨List.nodup_singleton i, fun j hj => by rwa [List.mem_singleton.mp hj]⟩

/-- A frame whose number passes is returned. -/
theorem run_open (hreaches : Reaches r F t s) (hscreen : ∀ i, s.screen (F.header i) = some (bare last))
    (hopen : Open last F.frameSeq) {ops : List Op} (hops : F.Arriving t ops) :
    r.ReturnsIn ops F.frame ∧ (r.afterCalls ops).senders.lookup F.sender = some (bare (newest last F.frameSeq)) := by
  obtain ⟨order, i, rest, hi, rfl, hrest⟩ := hops
  have hpush := hreaches order i hi
  rw [afterCalls_cons]
  rcases Split.accept_cases (hscreen i) (found_bare order i t) (arrived_one hi) with ⟨hmore, heq⟩ | ⟨hlen, heq⟩
  · rw [heq] at hpush
    have hnext : ((r.step (.push order (F.bytes i) t)).1).senders.lookup F.sender = some (F.heldState last t [i]) := by
      rw [Reassembler.step, hpush]
      exact AList.lookup_insert _
    have hperm : ([i] ++ (List.range F.count).erase i).Perm (List.range F.count) :=
      (List.perm_cons_erase (List.mem_range.mpr hi)).symm
    obtain ⟨hreturns, hlast⟩ := run_delivery hnext hopen hperm hmore hrest
    exact ⟨returnsIn_cons hreturns, hlast⟩
  · rw [heq] at hpush
    have hframe : (r.step (.push order (F.bytes i) t)).2 = some F.frame := by
      rw [Reassembler.step, hpush]
    have hbare : ((r.step (.push order (F.bytes i) t)).1).senders.lookup F.sender = some (bare (newest last F.frameSeq)) := by
      rw [Reassembler.step, hpush]
      exact AList.lookup_insert _
    have hnone : (List.range F.count).erase i = [] := by
      have hone : F.count = 1 := hlen.symm
      have hzero : i = 0 := by omega
      rw [hone, hzero]
      rfl
    obtain ⟨l, hl⟩ := newest_isSome last F.frameSeq
    rw [hl] at hbare ⊢
    rw [hnone] at hrest
    exact ⟨returnsIn_head hframe, lookup_foreigns_bare (foreign_of_delivery hrest) hbare⟩

/-- A frame whose number does not pass is ignored. -/
theorem run_late {l : UInt32} (hlate : ∀ i, (bare (some l)).screen (F.header i) = none) {idxs : List Nat} {ops : List Op}
    (hs : r.senders.lookup F.sender = some (bare (some l))) (hidxs : ∀ i ∈ idxs, i < F.count) (hops : F.Delivery t idxs ops) :
    (r.afterCalls ops).senders.lookup F.sender = some (bare (some l)) := by
  induction ops generalizing r idxs with
  | nil => exact hs
  | cons op rest ih =>
    rw [afterCalls_cons]
    obtain ⟨-, ⟨hforeign, hrest⟩ | ⟨order, now, i, hi, rfl, hrest⟩⟩ := hops
    · exact ih (lookup_foreign_stable hforeign hs (dropExpired_bare _ _) rfl) hidxs hrest
    · have hevicted : (r.evictExpired now).senders.lookup F.sender = some (bare (some l)) :=
        lookup_evict_stable hs (dropExpired_bare _ _) rfl
      have hnext : ((r.step (.push order (F.bytes i) now)).1).senders.lookup F.sender = some (bare (some l)) := by
        rw [Reassembler.step, push_own hevicted order (hidxs i hi), accept_of_screen_none (hlate i)]
        exact AList.lookup_insert _
      exact ih hnext (fun j hj => hidxs j (List.mem_of_mem_erase hj)) hrest

theorem run_late_first {l : UInt32} (hlate : ∀ i, (bare (some l)).screen (F.header i) = none)
    (hs : (r.evictExpired t).senders.lookup F.sender = some (bare (some l))) {ops : List Op} (hops : F.Arriving t ops) :
    (r.afterCalls ops).senders.lookup F.sender = some (bare (some l)) := by
  obtain ⟨order, i, rest, hi, rfl, hrest⟩ := hops
  have hnext : ((r.step (.push order (F.bytes i) t)).1).senders.lookup F.sender = some (bare (some l)) := by
    rw [Reassembler.step, push_own hs order hi, accept_of_screen_none (hlate i)]
    exact AList.lookup_insert _
  rw [afterCalls_cons]
  exact run_late hlate hnext (fun j hj => List.mem_range.mp (List.mem_of_mem_erase hj)) hrest

/-! ## The numbers of a stream that starts over -/

/-- The newest completed frame when `n` frames have come: the one of the stream before, or the one before this one. -/
def Position (start : UInt32) (n : Nat) (l : UInt32) : Prop :=
  (n ≤ start.toNat ∧ start.toNat ≤ 256 ∧ l = start) ∨ (n = 0 ∧ 256 < start.toNat ∧ l = start) ∨
    (1 ≤ n ∧ l = UInt32.ofNat (n - 1))

/-- The number of a frame follows that of the frame before. -/
theorem passes_next {n : Nat} (hn : 1 ≤ n) : Passes (UInt32.ofNat (n - 1)) (UInt32.ofNat n) := by
  have hsub := UInt32.toNat_sub (UInt32.ofNat (n - 1)) (UInt32.ofNat n)
  simp only [Passes, UInt32.le_iff_toNat_le, ← UInt32.toNat_inj, UInt32.toNat_ofNat', UInt32.toNat_ofNat] at *
  omega

theorem newest_next {n : Nat} (hn : 1 ≤ n) : newest (some (UInt32.ofNat (n - 1))) (UInt32.ofNat n) = some (UInt32.ofNat n) := by
  have hsub := UInt32.toNat_sub (UInt32.ofNat n) (UInt32.ofNat (n - 1))
  have hnewer : seqNewer (UInt32.ofNat n) (UInt32.ofNat (n - 1)) = true := by
    simp only [seqNewer, Bool.and_eq_true, decide_eq_true_eq, ne_eq, UInt32.lt_iff_toNat_lt, ← UInt32.toNat_inj,
      UInt32.toNat_ofNat', UInt32.toNat_ofNat] at *
    omega
  rw [newest, Option.all_some, if_pos hnewer]

theorem newest_none (seq : UInt32) : newest none seq = some seq := rfl

/-- A number one or two behind the newest is not newer. -/
theorem newest_behind {l seq : UInt32} (h : l - seq = 1 ∨ l - seq = 2) : newest (some l) seq = some l := by
  have hsub := UInt32.toNat_sub seq l
  have hsub' := UInt32.toNat_sub l seq
  have hl := l.toNat_lt
  have hs := seq.toNat_lt
  have hnot : seqNewer seq l = false := by
    simp only [seqNewer, Bool.and_eq_false_iff, decide_eq_false_iff_not, ne_eq, UInt32.lt_iff_toNat_lt, ← UInt32.toNat_inj,
      UInt32.toNat_ofNat] at *
    omega
  rw [newest, Option.all_some, hnot, if_neg Bool.false_ne_true]

/-- A number that passes and is not behind is newer. -/
theorem newest_ahead {l seq : UInt32} (h : 0x80000002 ≤ l - seq) : newest (some l) seq = some seq := by
  have hsub := UInt32.toNat_sub seq l
  have hsub' := UInt32.toNat_sub l seq
  have hl := l.toNat_lt
  have hs := seq.toNat_lt
  have hnewer : seqNewer seq l = true := by
    simp only [seqNewer, Bool.and_eq_true, decide_eq_true_eq, ne_eq, UInt32.lt_iff_toNat_lt, UInt32.le_iff_toNat_le,
      ← UInt32.toNat_inj, UInt32.toNat_ofNat] at *
    omega
  rw [newest, Option.all_some, hnewer, if_pos rfl]

theorem toNat_sub_small (start : UInt32) {n : Nat} (hn : n ≤ start.toNat) : (start - UInt32.ofNat n).toNat = start.toNat - n := by
  have hs := start.toNat_lt
  rw [UInt32.toNat_sub, UInt32.toNat_ofNat']
  omega

theorem screen_passes {l : UInt32} (h : Passes l F.frameSeq) (i : Nat) :
    (bare (some l)).screen (F.header i) = some (bare (some l)) := screen_of_passes rfl h

theorem open_some {l seq : UInt32} (h : Passes l seq) : Open (some l) seq := by
  intro l' hl'
  obtain rfl := Option.some.inj hl'
  exact h

/-- One frame of the stream, by the position before it: it is ignored or its number passes, and the position after it. -/
theorem position_step {start : UInt32} {n : Nat} {l : UInt32} (h : Position start n l) (hnumbered : F.frameSeq = UInt32.ofNat n)
    (hkeyframe : n = 0 → F.keyframe = true) :
    (n ≤ 256 ∧ Position start (n + 1) l ∧ ∀ i, (bare (some l)).screen (F.header i) = none) ∨
      ∃ last l', Position start (n + 1) l' ∧ (∀ i, (bare (some l)).screen (F.header i) = some (bare last)) ∧ Open last F.frameSeq ∧
        newest last F.frameSeq = some l' := by
  have hseq : ∀ i, (F.header i).frameSeq = F.frameSeq := fun _ => rfl
  rcases h with ⟨hn, hstart, rfl⟩ | ⟨rfl, hstart, rfl⟩ | ⟨hn, rfl⟩
  · have hdistance := toNat_sub_small l hn
    by_cases hpasses : Passes l F.frameSeq
    · have hbehind : l - F.frameSeq = 1 ∨ l - F.frameSeq = 2 := by
        rcases hpasses with h1 | h2 | hahead
        · exact Or.inl h1
        · exact Or.inr h2
        · rw [hnumbered, UInt32.le_iff_toNat_le, hdistance] at hahead
          have hbig : (0x80000002 : UInt32).toNat = 0x80000002 := rfl
          omega
      have hroom : n + 1 ≤ l.toNat := by
        rw [hnumbered, ← UInt32.toNat_inj, ← UInt32.toNat_inj, hdistance] at hbehind
        have h1 : (1 : UInt32).toNat = 1 := rfl
        have h2 : (2 : UInt32).toNat = 2 := rfl
        omega
      exact Or.inr ⟨some l, l, Or.inl ⟨hroom, hstart, rfl⟩, screen_passes hpasses, open_some hpasses, newest_behind hbehind⟩
    · refine Or.inl ⟨by omega, ?_, fun i => ?_⟩
      · by_cases heq : n = l.toNat
        · refine Or.inr (Or.inr ⟨by omega, ?_⟩)
          rw [Nat.add_sub_cancel, heq, UInt32.ofNat_toNat]
        · exact Or.inl ⟨by omega, hstart, rfl⟩
      · have hnot : isStreamRestart l (F.header i) = false := by
          have hjump : ¬restartBackwardJump < l - (F.header i).frameSeq := by
            rw [hseq, hnumbered, UInt32.lt_iff_toNat_lt, hdistance]
            have hbound : restartBackwardJump.toNat = 256 := rfl
            omega
          rw [isStreamRestart, decide_eq_false hjump, Bool.and_false]
        rw [screen_of_late (s := bare (some l)) rfl hpasses, hnot, if_neg Bool.false_ne_true]
  · right
    by_cases hpasses : Passes l F.frameSeq
    · have hahead : 0x80000002 ≤ l - F.frameSeq := by
        have hdistance := toNat_sub_small l (Nat.zero_le _)
        have h1 : (1 : UInt32).toNat = 1 := rfl
        have h2 : (2 : UInt32).toNat = 2 := rfl
        rcases hpasses with h | h | h
        · rw [hnumbered, ← UInt32.toNat_inj, hdistance] at h
          omega
        · rw [hnumbered, ← UInt32.toNat_inj, hdistance] at h
          omega
        · exact h
      exact ⟨some l, F.frameSeq, Or.inr (Or.inr ⟨le_rfl, hnumbered⟩), screen_passes hpasses, open_some hpasses, newest_ahead hahead⟩
    · refine ⟨none, F.frameSeq, Or.inr (Or.inr ⟨le_rfl, hnumbered⟩), fun i => ?_, fun l' hl' => (by cases hl'), newest_none _⟩
      have hrestart : isStreamRestart l (F.header i) = true := by
        have hjump : restartBackwardJump < l - (F.header i).frameSeq := by
          rw [hseq, hnumbered, UInt32.lt_iff_toNat_lt, toNat_sub_small l (Nat.zero_le _)]
          have hbound : restartBackwardJump.toNat = 256 := rfl
          omega
        have hflag : (F.header i).keyframe = true := hkeyframe rfl
        rw [isStreamRestart, hflag, decide_eq_true hjump]
        rfl
      rw [screen_of_late (s := bare (some l)) rfl hpasses, hrestart]
      rfl
  · right
    have hpasses : Passes (UInt32.ofNat (n - 1)) F.frameSeq := hnumbered ▸ passes_next hn
    refine ⟨some (UInt32.ofNat (n - 1)), UInt32.ofNat n, Or.inr (Or.inr ⟨Nat.le_add_left 1 n, ?_⟩), screen_passes hpasses,
      open_some hpasses, ?_⟩
    · rw [Nat.add_sub_cancel]
    · rw [hnumbered]
      exact newest_next hn

/-! ## The calls of a stream -/

/-- The sender has this history, and what is partial of it has expired by this instant. -/
def Rests (r : Reassembler) (sender : String) (start : Nat) (l : UInt32) : Prop :=
  ∃ s, r.senders.lookup sender = some s ∧ s.Sound ∧ s.lastCompleted = some l ∧ s.Expired start

theorem tracked_of_history {l : UInt32} (h : s.lastCompleted = some l) : s.tracked = true := by
  rw [tracked, h]
  exact Bool.or_true _

theorem rests_foreign {sender : String} {l : UInt32} (h : Rests r sender t l) {op : Op} (hop : op.Foreign sender) :
    Rests (r.step op).1 sender t l := by
  obtain ⟨s, hs, hsound, hlast, hexpired⟩ := h
  rcases lookup_foreign (r := r) hop with heq | heq
  · exact ⟨s, heq.trans hs, hsound, hlast, hexpired⟩
  · have hlast' : (s.dropExpired op.now).lastCompleted = some l := (lastCompleted_dropExpired s op.now).trans hlast
    refine ⟨s.dropExpired op.now, ?_, sound_dropExpired hsound _, hlast', ?_⟩
    · rw [heq, Reassembler.evictExpired, lookup_retain, lookup_mapValues, hs, Option.map_some, Option.filter_some,
        if_pos (tracked_of_history hlast')]
    · exact fun seq p hp => hexpired seq p (shrinks_dropExpired s _ seq p hp)

theorem rests_foreigns {sender : String} {l : UInt32} (h : Rests r sender t l) {ops : List Op}
    (hops : ∀ op ∈ ops, op.Foreign sender) : Rests (r.afterCalls ops) sender t l := by
  induction ops generalizing r with
  | nil => exact h
  | cons op ops ih =>
    exact ih (rests_foreign h (hops op List.mem_cons_self)) fun op' hop' => hops op' (List.mem_cons_of_mem op hop')

theorem lookup_evict_rests {sender : String} {l : UInt32} (h : Rests r sender t l) :
    (r.evictExpired t).senders.lookup sender = some (bare (some l)) := by
  obtain ⟨s, hs, hsound, hlast, hexpired⟩ := h
  rw [Reassembler.evictExpired, lookup_retain, lookup_mapValues, hs, Option.map_some, dropExpired_all hsound hexpired, hlast]
  rfl

theorem rests_bare {sender : String} {l : UInt32} (h : r.senders.lookup sender = some (bare (some l))) (t : Nat) :
    Rests r sender t l := by
  refine ⟨_, h, ⟨Nat.zero_le _, rfl, Nat.zero_le _, fun seq p hp => ?_⟩, rfl, fun seq p hp => ?_⟩
  · cases hp
  · cases hp

theorem returnsIn_append {ops ops' : List Op} {frame : ReassembledFrame} (h : (r.afterCalls ops).ReturnsIn ops' frame) :
    r.ReturnsIn (ops ++ ops') frame := by
  obtain ⟨pre, op, post, rfl, hframe⟩ := h
  exact ⟨ops ++ pre, op, post, (List.append_assoc ..).symm, by rwa [afterCalls_append]⟩

/-- One frame of the stream. -/
theorem stream_step {start l : UInt32} {n : Nat} (hposition : Position start n l) (hrests : Rests r F.sender t l)
    (hnumbered : F.frameSeq = UInt32.ofNat n) (hkeyframe : n = 0 → F.keyframe = true) {calls : List Op} (hcalls : F.ArrivesIn t calls) :
    (∃ l', Position start (n + 1) l' ∧ (r.afterCalls calls).senders.lookup F.sender = some (bare (some l'))) ∧
      (256 < n → r.ReturnsIn calls F.frame) := by
  obtain ⟨gap, rest, rfl, hgap, hrest⟩ := hcalls
  have hevicted := lookup_evict_rests (rests_foreigns hrests hgap)
  rw [afterCalls_append]
  rcases position_step hposition hnumbered hkeyframe with ⟨hn, hnext, hlate⟩ | ⟨last, l', hnext, hscreen, hopen, hnewest⟩
  · exact ⟨⟨l, hnext, run_late_first hlate hevicted hrest⟩, fun hlarge => absurd hn (Nat.not_le_of_lt hlarge)⟩
  · obtain ⟨hreturns, hlook⟩ := run_open (fun order i hi => push_own hevicted order hi) hscreen hopen hrest
    rw [hnewest] at hlook
    exact ⟨⟨l', hnext, hlook⟩, fun _ => returnsIn_append hreturns⟩

theorem position_start (start : UInt32) : Position start 0 start := by
  by_cases h : start.toNat ≤ 256
  · exact Or.inl ⟨Nat.zero_le _, h, rfl⟩
  · exact Or.inr (Or.inl ⟨rfl, Nat.lt_of_not_le h, rfl⟩)

/-- The stream after some of its frames. -/
theorem stream_run {sender : String} {start : UInt32} {frames : Nat → Split} {calls : Nat → List Op} {arrival : Nat → Nat}
    (hframes : StartsOver sender frames) (hcalls : ∀ n, (frames n).ArrivesIn (arrival n) (calls n))
    (hrests : Rests r sender (arrival 0) start) (n : Nat) :
    ∃ l, Position start n l ∧ Rests (r.afterCalls ((List.range n).flatMap calls)) sender (arrival n) l := by
  induction n with
  | zero => exact ⟨start, position_start start, hrests⟩
  | succ n ih =>
    obtain ⟨l, hposition, hrests'⟩ := ih
    rw [← hframes.sender n] at hrests'
    obtain ⟨⟨l', hnext, hlook⟩, -⟩ := stream_step hposition hrests' (hframes.numbered n) (fun hn => hn ▸ hframes.keyframe) (hcalls n)
    refine ⟨l', hnext, rests_bare ?_ _⟩
    rw [List.range_succ, List.flatMap_append, afterCalls_append, List.flatMap_singleton, ← hframes.sender n]
    exact hlook

/-! ## Room for a new sender -/

/-- When everything has expired only senders with a history are left. -/
theorem length_evictExpired (hr : r.Sound) (h : ∀ sender s, r.senders.lookup sender = some s → s.Expired t) :
    (r.evictExpired t).senders.entries.length = r.histories := by
  rw [Reassembler.histories, List.countP_eq_length_filter]
  show ((r.senders.entries.map fun e => (⟨e.1, e.2.dropExpired t⟩ : (_ : String) × SenderState)).filter
    fun e => e.2.tracked).length = _
  rw [List.filter_map, List.length_map]
  congr 1
  refine List.filter_congr fun e he => ?_
  have hlook : r.senders.lookup e.1 = some e.2 := mem_entries_iff.mp he
  have hbare := dropExpired_all (hr.senders e.1 e.2 hlook) (h e.1 e.2 hlook)
  show (e.2.dropExpired t).tracked = _
  rw [hbare]
  rfl

/-! ## What the byte cap takes -/

theorem oldest_of_filed (hs : s.Sound) {hdr : FragmentHeader} {p : PartialFrame} (hp : s.partials.lookup hdr.frameSeq = some p)
    (hfits : Fits p hdr) {chunk : List UInt8} (hnone : (s.filed order hdr chunk).2 = none)
    (hgone : (s.filed order hdr chunk).1.partials.lookup hdr.frameSeq = none) {seq : UInt32} {p' : PartialFrame}
    (hp' : (s.filed order hdr chunk).1.partials.lookup seq = some p') : p.firstSeen ≤ p'.firstSeen := by
  obtain ⟨s', hs', -, ⟨heq, hcause⟩ | ⟨-, -, ⟨-, heq⟩ | ⟨-, frame, -, -, heq⟩⟩⟩ := filed_cases hs order hp hfits chunk
  · rw [heq] at hp'
    obtain ⟨hne, hkept⟩ := lookup_dropPartial hp'
    rcases hcause with hshed | hover
    · rw [hs'] at hshed hkept
      exact shed_oldest order chunk.length hp hshed hkept
    · -- the loop stopped at one partial frame; it is not this one that is left
      cases hlook : s'.partials.lookup hdr.frameSeq with
      | none =>
        rw [hs'] at hlook hkept
        exact shed_oldest order chunk.length hp hlook hkept
      | some p₁ =>
        have hfits' := shed_fits order chunk.length (s := s) (Nat.le_succ s.partials.entries.length)
        rw [← hs'] at hfits'
        rcases hfits' with hfit | hone
        · omega
        · have hlength := length_erase hlook
          have hother : (s'.partials.erase hdr.frameSeq).lookup seq = some p' := by rwa [AList.lookup_erase_ne hne]
          have hlength' := length_erase hother
          omega
  · rw [heq] at hgone
    have hfilled : (s'.stored hdr p chunk).partials.lookup hdr.frameSeq = some (fill p hdr chunk) := AList.lookup_insert _
    rw [hfilled] at hgone
    cases hgone
  · rw [heq] at hnone
    cases hnone

end StreamRecoveryAux

open StreamRecoveryAux Split

/-- **No sender is starved and no stream is wedged.** After every sequence of calls. A sender that is not tracked once everything partial
has expired, while fewer than `MAX_SENDERS` senders have a history: its next complete frame is returned. A sender with any history
that starts over at zero with a keyframe, when everything partial of it has expired: every frame after the first 257 is returned. And
when the byte cap takes the partial frame of the fragment that was just accepted, none that is older is left. -/
theorem streams_go_on (ops : List Op) :
    (∀ (F : Split) (start : Nat) (calls : List Op),
      (∀ sender s, (after ops).senders.lookup sender = some s → s.Expired start) →
      ((after ops).evictExpired start).senders.lookup F.sender = none → (after ops).histories < maxSenders →
      F.Arriving start calls → (after ops).ReturnsIn calls F.frame) ∧
    (∀ (sender : String) (last : UInt32) (frames : Nat → Split) (calls : Nat → List Op) (arrival : Nat → Nat),
      (after ops).lastCompleted sender = some last → StartsOver sender frames →
      (∀ s, (after ops).senders.lookup sender = some s → s.Expired (arrival 0)) →
      (∀ n, (frames n).ArrivesIn (arrival n) (calls n)) →
      ∀ n, restartBackwardJump.toNat < n →
        ((after ops).afterCalls ((List.range n).flatMap calls)).ReturnsIn (calls n) (frames n).frame) ∧
    (∀ (order : IterOrder) (buf : List UInt8) (now : Nat) (hdr : FragmentHeader) (chunk : List UInt8) (s s' : SenderState)
      (p : PartialFrame), parseFragment buf = some (hdr, chunk) →
      ((((after ops).evictExpired now).senders.lookup hdr.sender).getD SenderState.default).screen hdr = some s →
      (s.found order hdr now).partials.lookup hdr.frameSeq = some p → Joins p hdr →
      ((after ops).push order buf now).2 = none → ((after ops).push order buf now).1.senders.lookup hdr.sender = some s' →
      s'.partials.lookup hdr.frameSeq = none → ∀ seq p', s'.partials.lookup seq = some p' → p.firstSeen ≤ p'.firstSeen) := by
  have hsound := Reassembler.sound_after ops
  refine ⟨?_, ?_, ?_⟩
  · intro F start calls hexpired hnew hroom hcalls
    have hlength := length_evictExpired hsound hexpired
    have hpush : Reaches (after ops) F start (bare none) := fun order i hi => push_new hnew (hlength ▸ hroom) order hi
    exact (run_open hpush (fun i => screen_of_none rfl _) (fun l hl => by cases hl) hcalls).1
  · intro sender last frames calls arrival hlast hframes hexpired hcalls n hn
    obtain ⟨s, hs, hhistory⟩ := Option.bind_eq_some_iff.mp hlast
    have hrests : Rests (after ops) sender (arrival 0) last := ⟨s, hs, hsound.senders sender s hs, hhistory, hexpired s hs⟩
    obtain ⟨l, hposition, hrests'⟩ := stream_run hframes hcalls hrests n
    rw [← hframes.sender n] at hrests'
    exact (stream_step hposition hrests' (hframes.numbered n) (fun hzero => hzero ▸ hframes.keyframe) (hcalls n)).2 hn
  · intro order buf now hdr chunk s s' p hparse hscreen hp hjoins hnone hs' hgone seq p' hp'
    have hchecked := checked_of_parse hparse
    have hstate := Reassembler.sound_lookup (Reassembler.sound_evictExpired hsound now) hdr.sender
    have hfound := sound_found (sound_screen hstate hscreen) order hchecked now
    obtain ⟨p₁, hp₁, ⟨hnot, -⟩ | ⟨-, heq⟩⟩ := accept_of_screen hscreen order chunk now
    · obtain rfl := Option.some.inj (hp₁.symm.trans hp)
      exact absurd hjoins hnot
    · unfold Reassembler.push at hnone hs'
      rw [hparse] at hnone hs'
      dsimp only at hnone hs'
      split at hs'
      · rename_i hfull
        rw [hs'] at hfull
        cases hfull.1
      · rename_i hroom
        rw [if_neg hroom, heq] at hnone
        rw [heq] at hs'
        obtain rfl := Option.some.inj ((AList.lookup_insert _).symm.trans hs')
        exact oldest_of_filed hfound hp (hjoins.fits hchecked) hnone hgone hp'

namespace StreamRecoveryAux

variable {r : Reassembler} {s : SenderState} {t : Nat}

theorem perm_ownOrder (entries : List ((_ : UInt32) × PartialFrame)) : (id entries).Perm entries := List.Perm.refl entries

/-- A map's own order. -/
def ownOrder : IterOrder := ⟨id, perm_ownOrder⟩

theorem length_sampleSignature : (List.replicate 64 (7 : UInt8)).length = signatureLen := rfl

def sampleSignature : Signature := ⟨List.replicate 64 7, length_sampleSignature⟩

/-- A frame of one fragment. -/
def singleSplit (seq : UInt32) (keyframe : Bool) : Split where
  sender := "a"
  frameSeq := seq
  keyframe := keyframe
  codec := .h264
  ptsUs := 5
  signature := sampleSignature
  count := 1
  chunk := fun _ => [1]
  hsender := by decide
  hlen := by decide
  hpos := Nat.one_pos
  hcount := by decide
  hfits := by decide

/-- Its push. -/
def singlePush (seq : UInt32) (keyframe : Bool) (now : Nat) : Op := .push ownOrder ((singleSplit seq keyframe).bytes 0) now

theorem arriving_single (seq : UInt32) (keyframe : Bool) (now : Nat) :
    (singleSplit seq keyframe).Arriving now [singlePush seq keyframe now] :=
  ⟨ownOrder, 0, [], Nat.one_pos, rfl, rfl⟩

/-- Thirty frames a second. -/
def singleFrames (n : Nat) : Split := singleSplit (UInt32.ofNat n) (n == 0)

def singleCalls (n : Nat) : List Op := [singlePush (UInt32.ofNat n) (n == 0) (33333333 * n)]

theorem startsOver_single : StartsOver "a" singleFrames := ⟨fun _ => rfl, fun _ => rfl, rfl⟩

theorem arrivesIn_single (n : Nat) : (singleFrames n).ArrivesIn (33333333 * n) (singleCalls n) :=
  ⟨[], singleCalls n, rfl, fun _ hop => absurd hop List.not_mem_nil, arriving_single _ _ _⟩

theorem not_returnsIn_single {op : Op} {frame : ReassembledFrame} (h : (r.step op).2 = none) : ¬r.ReturnsIn [op] frame := by
  rintro ⟨pre, op', post, heq, hframe⟩
  cases pre with
  | nil =>
    cases heq
    rw [Reassembler.afterCalls, List.foldl_nil, h] at hframe
    cases hframe
  | cons op₁ pre =>
    have hlength := congrArg List.length heq
    simp at hlength

/-! ### A table of histories -/

/-- Thirty-two other senders, each with one complete frame. -/
def crowd : List Op := (List.range 32).map fun k =>
  .push ownOrder (fragmentBytes (String.ofList (List.replicate (k + 1) 'b')) 0 true .h264 5 sampleSignature 0 1 [1]) 0

theorem crowd_check : (((after crowd).senders.entries.all fun e => e.2.partials.entries.isEmpty) &&
    (((after crowd).evictExpired 0).senders.lookup "a").isNone && ((after crowd).step (singlePush 0 true 0)).2.isNone) = true := by
  decide +kernel

theorem crowd_expired {sender : String} (hs : (after crowd).senders.lookup sender = some s) (now : Nat) : s.Expired now := by
  have hcheck := crowd_check
  rw [Bool.and_eq_true, Bool.and_eq_true, List.all_eq_true] at hcheck
  have hempty : s.partials.entries.isEmpty = true := hcheck.1.1 ⟨sender, s⟩ (mem_entries_iff.mpr hs)
  intro seq p hp
  have hmem := mem_entries_iff.mpr hp
  rw [List.isEmpty_iff.mp hempty] at hmem
  cases hmem

/-! ### A history half the number space ahead -/

/-- A complete frame with a number above the middle, and one fragment of two of frame zero. -/
def ahead : List Op := [singlePush 0x80000002 false 0,
  .push ownOrder (fragmentBytes "a" 0 true .h264 5 sampleSignature 0 2 [1]) 0]

theorem ahead_check : ((after ahead).senders.lookup "a").any (fun s => s.lastCompleted == some 0x80000002 &&
    (s.partials.lookup 0).any fun p => p.chunks.length == 2) = true := by
  decide +kernel

/-- What the sender's state keeps while its frames are lost. -/
def Wedged (r : Reassembler) (n : Nat) : Prop :=
  ∃ s, r.senders.lookup "a" = some s ∧ s.lastCompleted = some 0x80000002 ∧
    (n = 0 → ∃ p, s.partials.lookup 0 = some p ∧ p.chunks.length = 2)

theorem lookup_evict_history {sender : String} {l : UInt32} (hs : r.senders.lookup sender = some s)
    (hlast : s.lastCompleted = some l) (now : Nat) : (r.evictExpired now).senders.lookup sender = some (s.dropExpired now) := by
  rw [Reassembler.evictExpired, lookup_retain, lookup_mapValues, hs, Option.map_some, Option.filter_some,
    if_pos (tracked_of_history ((lastCompleted_dropExpired s now).trans hlast))]

/-- A fragment that is lost leaves the history as it is. -/
theorem wedged_of_lost {s₀ : SenderState} (hs : (r.evictExpired t).senders.lookup "a" = some s₀) {n : Nat}
    (hlost : ∃ s', s₀.accept ownOrder ((singleFrames n).header 0) [1] t = (s', none) ∧ s'.lastCompleted = some 0x80000002) :
    (r.step (.push ownOrder ((singleFrames n).bytes 0) t)).2 = none ∧
      Wedged (r.step (.push ownOrder ((singleFrames n).bytes 0) t)).1 (n + 1) := by
  obtain ⟨s', heq, hlast⟩ := hlost
  have hpush : r.push ownOrder ((singleFrames n).bytes 0) t = (⟨(r.evictExpired t).senders.insert "a" s'⟩, none) := by
    have hown := push_own (F := singleFrames n) hs ownOrder Nat.one_pos
    have hchunk : (singleFrames n).chunk 0 = [1] := rfl
    rw [hchunk, heq] at hown
    exact hown
  rw [Reassembler.step, hpush]
  exact ⟨rfl, s', AList.lookup_insert _, hlast, fun hzero => absurd hzero (Nat.succ_ne_zero n)⟩

theorem dropExpired_zero (s : SenderState) : s.dropExpired 0 = s := by
  have hnone : s.partials.entries.filter (fun e => partialTimeout e.2.chunks.length ≤ 0 - e.2.firstSeen) = [] := by
    refine List.filter_eq_nil_iff.mpr fun e _ hexpired => ?_
    have hpos := partialTimeout_pos e.2.chunks.length
    have hle := of_decide_eq_true hexpired
    omega
  rw [dropExpired, hnone]
  rfl

/-- Frame zero meets the fragment that is there. -/
theorem lost_first (hlast : s.lastCompleted = some 0x80000002) {p : PartialFrame} (hp : s.partials.lookup 0 = some p)
    (hcount : p.chunks.length = 2) (now : Nat) : s.accept ownOrder ((singleFrames 0).header 0) [1] now = (s, none) := by
  have hscreen : s.screen ((singleFrames 0).header 0) = some s := screen_of_passes hlast (Or.inr (Or.inr (by decide)))
  have hp' : s.partials.lookup ((singleFrames 0).header 0).frameSeq = some p := hp
  have hfound : s.found ownOrder ((singleFrames 0).header 0) now = s := by
    rw [SenderState.found, makeRoom, hp', if_neg (fun h => Bool.false_ne_true h.1), openPartial, hp']
  obtain ⟨p₁, hp₁, ⟨-, heq⟩ | ⟨hjoins, -⟩⟩ := accept_of_screen hscreen ownOrder [1] now
  · rw [heq, hfound]
  · rw [hfound, hp'] at hp₁
    obtain rfl := Option.some.inj hp₁
    have hone : ((singleFrames 0).header 0).fragCount = 1 := rfl
    have hjoined := hjoins.count
    omega

/-- A frame that is no keyframe and behind the middle is ignored. -/
theorem lost_next (hlast : s.lastCompleted = some 0x80000002) {n : Nat} (hpos : 0 < n) (hn : n < 2 ^ 31) (now : Nat) :
    s.accept ownOrder ((singleFrames n).header 0) [1] now = (s, none) := by
  have hseq : ((singleFrames n).header 0).frameSeq = UInt32.ofNat n := rfl
  have hlate : ¬Passes 0x80000002 ((singleFrames n).header 0).frameSeq := by
    have hsub := UInt32.toNat_sub 0x80000002 (UInt32.ofNat n)
    rw [hseq]
    simp only [Passes, UInt32.le_iff_toNat_le, ← UInt32.toNat_inj, UInt32.toNat_ofNat', UInt32.toNat_ofNat] at *
    omega
  have hkeyframe : ((singleFrames n).header 0).keyframe = false := by
    show (n == 0) = false
    exact beq_false_of_ne (Nat.ne_of_gt hpos)
  have hinter : isStreamRestart 0x80000002 ((singleFrames n).header 0) = false := by
    rw [isStreamRestart, hkeyframe, Bool.false_and]
  refine accept_of_screen_none ?_ ownOrder [1] now
  rw [screen_of_late hlast hlate, hinter, if_neg Bool.false_ne_true]

theorem wedged_step {n : Nat} (hn : n < 2 ^ 31) (h : Wedged r n) :
    (r.step (singlePush (UInt32.ofNat n) (n == 0) (33333333 * n))).2 = none ∧
      Wedged (r.step (singlePush (UInt32.ofNat n) (n == 0) (33333333 * n))).1 (n + 1) := by
  obtain ⟨s, hs, hlast, hzero⟩ := h
  have hevicted := lookup_evict_history hs hlast (33333333 * n)
  have hlast' := (lastCompleted_dropExpired s (33333333 * n)).trans hlast
  refine wedged_of_lost hevicted ⟨_, ?_, hlast'⟩
  rcases Nat.eq_zero_or_pos n with rfl | hpos
  · obtain ⟨p, hp, hcount⟩ := hzero rfl
    have hsame : s.dropExpired (33333333 * 0) = s := dropExpired_zero s
    rw [hsame]
    exact lost_first hlast hp hcount _
  · exact lost_next hlast' hpos hn _

theorem wedged_run (n : Nat) (hn : n ≤ 2 ^ 31) : Wedged ((after ahead).afterCalls ((List.range n).flatMap singleCalls)) n := by
  induction n with
  | zero =>
    rw [List.range_zero, List.flatMap_nil, afterCalls_nil]
    obtain ⟨s, hs, hcheck⟩ := (Option.any_eq_true ..).mp ahead_check
    rw [Bool.and_eq_true, beq_iff_eq] at hcheck
    obtain ⟨p, hp, hpart⟩ := (Option.any_eq_true ..).mp hcheck.2
    exact ⟨s, hs, hcheck.1, fun _ => ⟨p, hp, beq_iff_eq.mp hpart⟩⟩
  | succ n ih =>
    rw [List.range_succ, List.flatMap_append, afterCalls_append, List.flatMap_singleton]
    exact (wedged_step (by omega) (ih (by omega))).2

end StreamRecoveryAux

/-- **A new sender is starved, and a stream is wedged.** Thirty-two senders with a history leave no place for another one. A history half
the number space ahead and one fragment of a frame zero lose two thousand million frames of a stream that starts over. -/
theorem sender_starved :
    (∃ (ops : List Op) (F : Split) (start : Nat) (calls : List Op),
      (∀ sender s, (after ops).senders.lookup sender = some s → s.Expired start) ∧
      ((after ops).evictExpired start).senders.lookup F.sender = none ∧ F.Arriving start calls ∧
      ¬(after ops).ReturnsIn calls F.frame) ∧
    ∃ (ops : List Op) (sender : String) (last : UInt32) (frames : Nat → Split) (calls : Nat → List Op) (arrival : Nat → Nat),
      (after ops).lastCompleted sender = some last ∧ StartsOver sender frames ∧
      (∀ n, (frames n).ArrivesIn (arrival n) (calls n)) ∧
      ∀ n, n < 2 ^ 31 → ¬((after ops).afterCalls ((List.range n).flatMap calls)).ReturnsIn (calls n) (frames n).frame := by
  constructor
  · have hcheck := crowd_check
    rw [Bool.and_eq_true, Bool.and_eq_true, Option.isNone_iff_eq_none, Option.isNone_iff_eq_none] at hcheck
    exact ⟨crowd, singleSplit 0 true, 0, _, fun sender s hs => crowd_expired hs 0, hcheck.1.2, arriving_single 0 true 0,
      not_returnsIn_single hcheck.2⟩
  · obtain ⟨s, hs, hlast, -⟩ := wedged_run 0 (Nat.zero_le _)
    refine ⟨ahead, "a", 0x80000002, singleFrames, singleCalls, fun n => 33333333 * n, ?_, startsOver_single, arrivesIn_single,
      fun n hn => ?_⟩
    · exact Option.bind_eq_some_iff.mpr ⟨s, hs, hlast⟩
    · exact not_returnsIn_single (wedged_step hn (wedged_run n hn.le)).1

namespace StreamRecoveryAux

/-! ### A small stream and a large fragment -/

theorem history_check : ((after [singlePush 300 false 0]).senders.lookup "a").any (fun s => s.lastCompleted == some 300 &&
    s.partials.entries.isEmpty) = true := by
  decide +kernel

/-- A frame of one fragment. -/
def largeFragment (chunk : List UInt8) : List UInt8 := fragmentBytes "a" 0 true .h264 5 sampleSignature 0 1 chunk

theorem parse_large (chunk : List UInt8) : parseFragment (largeFragment chunk) = some ((singleSplit 0 true).header 0, chunk) :=
  FragmentsAux.parseFragment_fragmentBytes 0 true .h264 5 sampleSignature chunk (by decide) (by decide) Nat.one_pos (by decide)

theorem filed_large {chunk : List UInt8} (hlarge : maxPartialBytesPerSender < chunk.length) (s : SenderState) (order : IterOrder)
    (hdr : FragmentHeader) : ∃ s' : SenderState, s.filed order hdr chunk = (s'.dropPartial hdr.frameSeq, none) := by
  refine ⟨shed order chunk.length s.partials.entries.length s, ?_⟩
  have hover : maxPartialBytesPerSender < (shed order chunk.length s.partials.entries.length s).bytes + chunk.length := by omega
  rw [filed, if_pos hover]

/-- A fragment that does not fit by itself opens a partial frame, which the cap takes. -/
theorem push_large {chunk : List UInt8} (hlarge : maxPartialBytesPerSender < chunk.length) :
    ∃ p s', ((bare none).found ownOrder ((singleSplit 0 true).header 0) 0).partials.lookup 0 = some p ∧
      Joins p ((singleSplit 0 true).header 0) ∧ ((after []).push ownOrder (largeFragment chunk) 0).2 = none ∧
      ((after []).push ownOrder (largeFragment chunk) 0).1.senders.lookup "a" = some s' ∧ s'.partials.lookup 0 = none := by
  have hscreen : (bare none).screen ((singleSplit 0 true).header 0) = some (bare none) := rfl
  obtain ⟨p, hp, hcases⟩ := accept_of_screen hscreen ownOrder chunk 0
  have hjoins : Joins p ((singleSplit 0 true).header 0) := by
    rw [found_bare] at hp
    obtain rfl := Option.some.inj ((partials_lookup 0 []).symm.trans hp)
    exact ⟨rfl, rfl, rfl, rfl⟩
  obtain ⟨hnot, -⟩ | ⟨-, heq⟩ := hcases
  · exact absurd hjoins hnot
  · obtain ⟨s', hfiled⟩ := filed_large hlarge ((bare none).found ownOrder ((singleSplit 0 true).header 0) 0) ownOrder
      ((singleSplit 0 true).header 0)
    have hpush : (after []).push ownOrder (largeFragment chunk) 0 =
        (⟨(∅ : HashMap String SenderState).insert "a" ((bare none).accept ownOrder ((singleSplit 0 true).header 0) chunk 0).1⟩,
          ((bare none).accept ownOrder ((singleSplit 0 true).header 0) chunk 0).2) := by
      unfold Reassembler.push
      rw [parse_large]
      rfl
    rw [heq, hfiled] at hpush
    rw [hpush]
    refine ⟨p, s'.dropPartial 0, hp, hjoins, rfl, AList.lookup_insert _, ?_⟩
    rw [partials_dropPartial, AList.lookup_erase]

end StreamRecoveryAux

/-- A new sender, a stream that starts over with a history of three hundred, and a fragment that does not fit. -/
theorem streams_go_on_single :
    (after []).ReturnsIn [singlePush 0 true 0] (singleSplit 0 true).frame ∧
      ((after [singlePush 300 false 0]).afterCalls ((List.range 257).flatMap singleCalls)).ReturnsIn (singleCalls 257)
        (singleFrames 257).frame ∧
      ∃ p s', ((after []).push ownOrder (largeFragment (List.replicate (maxPartialBytesPerSender + 1) 0)) 0).1.senders.lookup "a" =
        some s' ∧ ∀ seq p', s'.partials.lookup seq = some p' → PartialFrame.firstSeen p ≤ p'.firstSeen := by
  obtain ⟨s, hs, hcheck⟩ := (Option.any_eq_true ..).mp history_check
  rw [Bool.and_eq_true, beq_iff_eq] at hcheck
  have hlast : (after [singlePush 300 false 0]).lastCompleted "a" = some 300 := Option.bind_eq_some_iff.mpr ⟨s, hs, hcheck.1⟩
  have hexpired : ∀ s', (after [singlePush 300 false 0]).senders.lookup "a" = some s' → s'.Expired (33333333 * 0) := by
    intro s' hs' seq p hp
    obtain rfl := Option.some.inj (hs.symm.trans hs')
    have hmem := mem_entries_iff.mpr hp
    rw [List.isEmpty_iff.mp hcheck.2] at hmem
    cases hmem
  have hlarge : maxPartialBytesPerSender < (List.replicate (maxPartialBytesPerSender + 1) (0 : UInt8)).length := by
    rw [List.length_replicate]
    exact Nat.lt_succ_self _
  generalize List.replicate (maxPartialBytesPerSender + 1) (0 : UInt8) = chunk at hlarge ⊢
  obtain ⟨p, s', hp, hjoins, hnone, hs', hgone⟩ := push_large hlarge
  refine ⟨?_, ?_, p, s', hs', ?_⟩
  · exact (streams_go_on []).1 (singleSplit 0 true) 0 _ (fun sender s hs => by cases hs) rfl (by decide) (arriving_single 0 true 0)
  · exact (streams_go_on [singlePush 300 false 0]).2.1 "a" 300 singleFrames singleCalls (fun n => 33333333 * n) hlast startsOver_single
      hexpired arrivesIn_single 257 (by decide)
  · exact (streams_go_on []).2.2 ownOrder (largeFragment chunk) 0 ((singleSplit 0 true).header 0) chunk (bare none) s' p
      (parse_large chunk) rfl hp hjoins hnone hs' hgone

end DoubleSlash.Video
