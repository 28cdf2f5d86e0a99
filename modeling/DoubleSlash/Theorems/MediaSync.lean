import DoubleSlash.Lib.Run
import DoubleSlash.Video.MediaSync
import Mathlib.Data.List.Perm.Subperm
import Mathlib.Logic.Function.Basic

/-!
# Video release follows the audio

A run of calls is watched: for each peer what was pushed, what was returned, and the stretch the peer is in, which is the pushes
since it was forgotten last or its timeline went back. In a stretch that has a timeline throughout, the frames in the queue are
always ahead of those that were returned. What breaks the order is a frame that comes in behind one that was returned before.
-/

namespace DoubleSlash.MediaSync

open Assoc Machine Run

variable {T : Type}

/-- What a push read off the timeline of its peer, and what it returned. -/
structure Release (T : Type) where
  reading : Option Nat
  frames : List (QueuedFrame T)

/-- The timeline is behind where an earlier push of the stretch read it. -/
def wentBack (stretch : List (Release T)) (reading : Option Nat) : Bool :=
  stretch.any fun r => r.reading.any fun b => reading.any fun a => decide (a < b)

/-- The stretch a push is in. -/
def stretchOf (stretch : List (Release T)) (reading : Option Nat) : List (Release T) :=
  if wentBack stretch reading then [] else stretch

/-- A playout under watch: for each peer the frames pushed and returned, and the pushes of its stretch. -/
structure Watched (T : Type) where
  playout : VideoPlayout T
  pushed : String → List (QueuedFrame T)
  returned : String → List (QueuedFrame T)
  stretch : String → List (Release T)

/-- Nothing has been called. -/
def start : Watched T := ⟨.new, fun _ => [], fun _ => [], fun _ => []⟩

/-- The watch after a call that left `v` and returned `out`. -/
def Watched.after (w : Watched T) (c : Call T) (v : VideoPlayout T) (out : List (QueuedFrame T)) : Watched T :=
  match c with
  | .noteAudioPlayed _ _ _ => { w with playout := v }
  | .push peer frame now =>
    let reading := w.playout.audioNowUs peer now
    { playout := v
      pushed := Function.update w.pushed peer (w.pushed peer ++ [frame])
      returned := Function.update w.returned peer (w.returned peer ++ out)
      stretch := Function.update w.stretch peer (stretchOf (w.stretch peer) reading ++ [⟨reading, out⟩]) }
  | .forget peer => { w with playout := v, stretch := Function.update w.stretch peer [] }
  | .clear => { w with playout := v, stretch := fun _ => [] }

/-- One call under watch; an addition that overflows ends the run. -/
def watch (w : Watched T) (c : Call T) : Option (Watched T) :=
  match w.playout.call c with
  | .error _ => none
  | .ok (v, out) => some (w.after c v out)

/-- The timestamps returned in a stretch never decrease. -/
def InOrder (stretch : List (Release T)) : Prop :=
  (stretch.flatMap fun r => r.frames.map (·.ptsUs)).Pairwise (· ≤ ·)

/-- What the claim of the module says of a run: no addition overflows, and at every point of it and for every peer the frames
returned and held were pushed, each as often at least; few are held; and the stretch of the peer is in order. -/
structure FollowsAudio (calls : List (Call T)) : Prop where
  fits : ∃ w, run watch start calls = some w
  once : ∀ pre w, pre <+: calls → run watch start pre = some w → ∀ peer,
    (w.returned peer ++ w.playout.queue peer).Subperm (w.pushed peer)
  few : ∀ pre w, pre <+: calls → run watch start pre = some w → ∀ peer, w.playout.queuedLen peer ≤ MAX_QUEUED_FRAMES
  ordered : ∀ pre w, pre <+: calls → run watch start pre = some w → ∀ peer, InOrder (w.stretch peer)

/-- A frame is to be shown. -/
def Due (reading : Option Nat) (f : QueuedFrame T) : Prop := decideAgainst reading f.ptsUs = .ok .showNow

/-- The additions of `decide_against` fit for all these frames. -/
def Fits (reading : Option Nat) (frames : List (QueuedFrame T)) : Prop :=
  ∀ audioNow ∈ reading, ∀ f ∈ frames, f.ptsUs + LATE_TOLERANCE_US < Word.w64.modulus ∧
    (audioNow ≤ f.ptsUs + LATE_TOLERANCE_US → audioNow + EARLY_TOLERANCE_US < Word.w64.modulus)

/-- The condition on a call: a push finds the additions to fit, its own frame is not due behind a frame returned before in the
stretch, and no held frame is due behind one that was returned while there was no timeline. -/
def InTime (w : Watched T) : Call T → Prop
  | .push peer frame now =>
    let reading := w.playout.audioNowUs peer now
    let waiting := w.playout.waiting peer frame
    Fits reading waiting ∧
      (frame ∈ waiting → Due reading frame →
        ∀ r ∈ stretchOf (w.stretch peer) reading, ∀ g ∈ r.frames, g.ptsUs ≤ frame.ptsUs) ∧
      ∀ f ∈ w.playout.queue peer, f ∈ waiting → Due reading f →
        ∀ r ∈ stretchOf (w.stretch peer) reading, r.reading = none → ∀ g ∈ r.frames, g.ptsUs ≤ f.ptsUs
  | _ => True

/-- How late a decision comes: what is dropped is before what is shown, and that is before what is held. -/
def SyncDecision.rank : SyncDecision → Nat
  | .drop => 0
  | .showNow => 1
  | .hold => 2

/-- The calls about one peer leave the queue, the timeline and the decisions of every other peer, and what its next push returns. -/
structure Apart (v v' : VideoPlayout T) (other : String) : Prop where
  queue : v'.queue other = v.queue other
  anchor : v'.anchors.lookup other = v.anchors.lookup other
  decide : ∀ ptsUs now, v'.decide other ptsUs now = v.decide other ptsUs now
  push : ∀ frame now, (v'.push other frame now).map Prod.snd = (v.push other frame now).map Prod.snd

namespace SyncAux

/-! ## One decision -/

theorem decideAgainst_if (a p : Nat) :
    decideAgainst (some a) p =
      if p + LATE_TOLERANCE_US < Word.w64.modulus then
        if p + LATE_TOLERANCE_US < a then .ok .drop
        else if a + EARLY_TOLERANCE_US < Word.w64.modulus then
          if p ≤ a + EARLY_TOLERANCE_US then .ok .showNow else .ok .hold
        else .error .addOverflow
      else .error .addOverflow := by
  -- the sum stays a variable, so that nothing counts up to a tolerance
  obtain ⟨sum, hsum⟩ : ∃ sum, sum = add .debug .w64 := ⟨_, rfl⟩
  have hadd : ∀ x y, sum x y = if x + y < Word.w64.modulus then .ok (x + y) else .error .addOverflow :=
    fun _ _ => hsum ▸ rfl
  rw [decideAgainst.eq_def, ← hsum]
  obtain ⟨late, hlate⟩ : ∃ late, late = LATE_TOLERANCE_US := ⟨_, rfl⟩
  obtain ⟨early, hearly⟩ : ∃ early, early = EARLY_TOLERANCE_US := ⟨_, rfl⟩
  rw [← hlate, ← hearly]
  by_cases hlatest : p + late < Word.w64.modulus
  · by_cases hreach : a + early < Word.w64.modulus
    · simp only [hadd, if_pos hlatest, if_pos hreach]
    · simp only [hadd, if_pos hlatest, if_neg hreach]
  · simp only [hadd, if_neg hlatest]

theorem decideAgainst_some {a p : Nat} {d : SyncDecision} :
    decideAgainst (some a) p = .ok d ↔
      p + LATE_TOLERANCE_US < Word.w64.modulus ∧
        ((p + LATE_TOLERANCE_US < a ∧ d = .drop) ∨
          (a ≤ p + LATE_TOLERANCE_US ∧ a + EARLY_TOLERANCE_US < Word.w64.modulus ∧
            ((p ≤ a + EARLY_TOLERANCE_US ∧ d = .showNow) ∨ (a + EARLY_TOLERANCE_US < p ∧ d = .hold)))) := by
  rw [decideAgainst_if]
  by_cases hlate : p + LATE_TOLERANCE_US < Word.w64.modulus
  · simp only [if_pos hlate]
    by_cases hdrop : p + LATE_TOLERANCE_US < a
    · simp only [if_pos hdrop, Except.ok.injEq]
      constructor
      · rintro rfl
        exact ⟨hlate, Or.inl ⟨hdrop, rfl⟩⟩
      · rintro ⟨-, ⟨-, rfl⟩ | ⟨hle, -⟩⟩
        · rfl
        · omega
    · simp only [if_neg hdrop]
      by_cases hearly : a + EARLY_TOLERANCE_US < Word.w64.modulus
      · simp only [if_pos hearly]
        by_cases hshow : p ≤ a + EARLY_TOLERANCE_US
        · simp only [if_pos hshow, Except.ok.injEq]
          constructor
          · rintro rfl
            exact ⟨hlate, Or.inr ⟨by omega, hearly, Or.inl ⟨hshow, rfl⟩⟩⟩
          · rintro ⟨-, ⟨h, -⟩ | ⟨-, -, ⟨-, rfl⟩ | ⟨h, -⟩⟩⟩
            · omega
            · rfl
            · omega
        · simp only [if_neg hshow, Except.ok.injEq]
          constructor
          · rintro rfl
            exact ⟨hlate, Or.inr ⟨by omega, hearly, Or.inr ⟨by omega, rfl⟩⟩⟩
          · rintro ⟨-, ⟨h, -⟩ | ⟨-, -, ⟨h, -⟩ | ⟨-, rfl⟩⟩⟩
            · omega
            · omega
            · rfl
      · simp only [if_neg hearly, reduceCtorEq, false_iff]
        rintro ⟨-, ⟨h, -⟩ | ⟨-, h, -⟩⟩
        · exact hdrop h
        · exact hearly h
  · simp only [if_neg hlate, reduceCtorEq, false_iff]
    rintro ⟨h, -⟩
    exact hlate h

theorem due_none (f : QueuedFrame T) : Due none f := rfl

theorem due_some {a : Nat} {f : QueuedFrame T} (h : Due (some a) f) : f.ptsUs ≤ a + EARLY_TOLERANCE_US := by
  obtain ⟨-, ⟨-, h⟩ | ⟨-, -, ⟨h, -⟩ | ⟨-, h⟩⟩⟩ := decideAgainst_some.mp h
  · cases h
  · exact h
  · cases h

/-- A frame that is held is ahead of the timeline. -/
theorem ahead_of_hold {reading : Option Nat} {f : QueuedFrame T} (h : decideAgainst reading f.ptsUs = .ok .hold) :
    ∃ a, reading = some a ∧ a + EARLY_TOLERANCE_US < f.ptsUs := by
  cases reading with
  | none => cases h
  | some a =>
    obtain ⟨-, ⟨-, h⟩ | ⟨-, -, ⟨-, h⟩ | ⟨h, -⟩⟩⟩ := decideAgainst_some.mp h
    · cases h
    · cases h
    · exact ⟨a, rfl, h⟩

/-- **One timeline, one order.** Of two frames the later one is decided no earlier. -/
theorem rank_mono {reading : Option Nat} {p q : Nat} {d e : SyncDecision} (hpq : p ≤ q) (hd : decideAgainst reading p = .ok d)
    (he : decideAgainst reading q = .ok e) : d.rank ≤ e.rank := by
  cases reading with
  | none =>
    obtain rfl := Except.ok.inj hd
    obtain rfl := Except.ok.inj he
    exact Nat.le_refl _
  | some a =>
    obtain ⟨-, hd⟩ := decideAgainst_some.mp hd
    obtain ⟨-, he⟩ := decideAgainst_some.mp he
    rcases hd with ⟨-, rfl⟩ | ⟨hp, -, ⟨hp', rfl⟩ | ⟨hp', rfl⟩⟩
    · exact Nat.zero_le _
    · rcases he with ⟨hq, -⟩ | ⟨-, -, ⟨-, rfl⟩ | ⟨-, rfl⟩⟩
      · omega
      · exact Nat.le_refl _
      · exact Nat.le_succ 1
    · rcases he with ⟨hq, -⟩ | ⟨-, -, ⟨hq, -⟩ | ⟨-, rfl⟩⟩
      · omega
      · omega
      · exact Nat.le_refl _

/-! ## The sweep -/

/-- The frames with one decision. -/
def decided (reading : Option Nat) (d : SyncDecision) (frames : List (QueuedFrame T)) : List (QueuedFrame T) :=
  frames.filter fun f => Decidable.decide (decideAgainst reading f.ptsUs = .ok d)

theorem mem_decided {reading : Option Nat} {d : SyncDecision} {frames : List (QueuedFrame T)} {f : QueuedFrame T} :
    f ∈ decided reading d frames ↔ f ∈ frames ∧ decideAgainst reading f.ptsUs = .ok d := by
  simp only [decided, List.mem_filter, decide_eq_true_eq]

theorem fits_iff {reading : Option Nat} {frames : List (QueuedFrame T)} :
    Fits reading frames ↔ ∀ f ∈ frames, ∃ d, decideAgainst reading f.ptsUs = .ok d := by
  cases reading with
  | none => exact ⟨fun _ f _ => ⟨.showNow, rfl⟩, fun _ a ha => absurd ha (Option.not_mem_none a)⟩
  | some a =>
    constructor
    · intro h f hf
      obtain ⟨hlate, hearly⟩ := h a rfl f hf
      rcases Nat.lt_or_ge (f.ptsUs + LATE_TOLERANCE_US) a with hlt | hge
      · exact ⟨.drop, decideAgainst_some.mpr ⟨hlate, Or.inl ⟨hlt, rfl⟩⟩⟩
      · rcases Nat.lt_or_ge (a + EARLY_TOLERANCE_US) f.ptsUs with hhold | hshow
        · exact ⟨.hold, decideAgainst_some.mpr ⟨hlate, Or.inr ⟨hge, hearly hge, Or.inr ⟨hhold, rfl⟩⟩⟩⟩
        · exact ⟨.showNow, decideAgainst_some.mpr ⟨hlate, Or.inr ⟨hge, hearly hge, Or.inl ⟨hshow, rfl⟩⟩⟩⟩
    · intro h a' ha' f hf
      obtain rfl := Option.some.inj ha'
      obtain ⟨d, hd⟩ := h f hf
      obtain ⟨hlate, hd⟩ := decideAgainst_some.mp hd
      refine ⟨hlate, fun hle => ?_⟩
      rcases hd with ⟨hlt, -⟩ | ⟨-, hearly, -⟩
      · omega
      · exact hearly

/-- The sweep shows the frames that are due and keeps those that are held, unless an addition overflows. -/
theorem sweep_eq {reading : Option Nat} {frames : List (QueuedFrame T)} (h : Fits reading frames) :
    sweep reading frames = .ok (decided reading .showNow frames, decided reading .hold frames) := by
  rw [fits_iff] at h
  induction frames with
  | nil => rfl
  | cons f rest ih =>
    obtain ⟨d, hd⟩ := h f List.mem_cons_self
    have hrest := ih fun g hg => h g (List.mem_cons_of_mem f hg)
    simp only [sweep, hd, hrest, decided, List.filter_cons, Except.ok.injEq]
    cases d <;> rfl

theorem fits_of_sweep {reading : Option Nat} {frames : List (QueuedFrame T)} {result : List (QueuedFrame T) × List (QueuedFrame T)}
    (h : sweep reading frames = .ok result) : Fits reading frames := by
  rw [fits_iff]
  induction frames generalizing result with
  | nil => simp
  | cons f rest ih =>
    rw [sweep] at h
    cases hd : decideAgainst reading f.ptsUs with
    | error fault => simp [hd] at h
    | ok d =>
      cases hrest : sweep reading rest with
      | error fault => simp [hd, hrest] at h
      | ok result' =>
        intro g hg
        rcases List.mem_cons.mp hg with rfl | hg
        · exact ⟨d, hd⟩
        · exact ih hrest g hg

/-- The two parts of a sweep are parts of the queue. -/
theorem decided_subperm (reading : Option Nat) (frames : List (QueuedFrame T)) :
    (decided reading .showNow frames ++ decided reading .hold frames).Subperm frames := by
  induction frames with
  | nil => exact List.Subperm.refl _
  | cons f rest ih =>
    simp only [decided, List.filter_cons] at ih ⊢
    by_cases hshow : decideAgainst reading f.ptsUs = .ok .showNow
    · have hhold : decideAgainst reading f.ptsUs ≠ .ok .hold := by
        rw [hshow]
        exact fun h => by cases h
      rw [if_pos (decide_eq_true hshow), if_neg (by simpa using hhold), List.cons_append]
      exact (List.subperm_cons f).mpr ih
    · by_cases hhold : decideAgainst reading f.ptsUs = .ok .hold
      · rw [if_pos (decide_eq_true hhold), if_neg (by simpa using hshow)]
        exact List.perm_middle.subperm.trans ((List.subperm_cons f).mpr ih)
      · rw [if_neg (by simpa using hshow), if_neg (by simpa using hhold)]
        exact ih.trans (List.sublist_cons_self f rest).subperm

/-! ## One push -/

/-- The playout with another queue for a peer. -/
def holding (v : VideoPlayout T) (peer : String) (frames : List (QueuedFrame T)) : VideoPlayout T :=
  { v with queues := v.queues.insert peer frames }

theorem waiting_sorted (v : VideoPlayout T) (peer : String) (frame : QueuedFrame T) :
    (v.waiting peer frame).Pairwise fun f g => f.ptsUs ≤ g.ptsUs := by
  have h := @List.pairwise_mergeSort _ (fun f g : QueuedFrame T => Decidable.decide (f.ptsUs ≤ g.ptsUs))
    (fun a b c hab hbc => decide_eq_true ((of_decide_eq_true hab).trans (of_decide_eq_true hbc)))
    (fun a b => by simpa using Nat.le_total a.ptsUs b.ptsUs) (v.queue peer ++ [frame])
  exact (h.imp fun hle => of_decide_eq_true hle).sublist (List.drop_sublist _ _)

theorem waiting_subperm (v : VideoPlayout T) (peer : String) (frame : QueuedFrame T) :
    (v.waiting peer frame).Subperm (v.queue peer ++ [frame]) :=
  (List.drop_sublist _ _).subperm.trans (List.mergeSort_perm _ _).subperm

theorem mem_of_waiting {v : VideoPlayout T} {peer : String} {frame f : QueuedFrame T} (h : f ∈ v.waiting peer frame) :
    f ∈ v.queue peer ∨ f = frame := by
  rcases List.mem_append.mp ((waiting_subperm v peer frame).subset h) with h | h
  · exact Or.inl h
  · exact Or.inr (List.mem_singleton.mp h)

theorem waiting_length (v : VideoPlayout T) (peer : String) (frame : QueuedFrame T) :
    (v.waiting peer frame).length ≤ MAX_QUEUED_FRAMES := by
  rw [VideoPlayout.waiting, List.length_drop]
  omega

/-- A push returns the frames that are due and holds those that are ahead, unless an addition overflows. -/
theorem push_eq_ok_iff {v v' : VideoPlayout T} {peer : String} {frame : QueuedFrame T} {now : Nat} {out : List (QueuedFrame T)} :
    v.push peer frame now = .ok (v', out) ↔
      Fits (v.audioNowUs peer now) (v.waiting peer frame) ∧
        v' = holding v peer (decided (v.audioNowUs peer now) .hold (v.waiting peer frame)) ∧
        out = decided (v.audioNowUs peer now) .showNow (v.waiting peer frame) := by
  unfold VideoPlayout.push
  constructor
  · intro h
    cases hsweep : sweep (v.audioNowUs peer now) (v.waiting peer frame) with
    | error fault => simp [hsweep] at h
    | ok result =>
      have hfits := fits_of_sweep hsweep
      simp only [sweep_eq hfits, Except.ok.injEq, Prod.mk.injEq] at h
      exact ⟨hfits, h.1.symm, h.2.symm⟩
  · rintro ⟨hfits, rfl, rfl⟩
    rw [sweep_eq hfits]
    rfl

theorem queue_holding (v : VideoPlayout T) (peer other : String) (frames : List (QueuedFrame T)) :
    (holding v peer frames).queue other = if other = peer then frames else v.queue other := by
  by_cases h : other = peer
  · subst h
    simp [holding, VideoPlayout.queue, AList.lookup_insert]
  · simp [holding, VideoPlayout.queue, AList.lookup_insert_ne h, h]

theorem queue_forget (v : VideoPlayout T) (peer other : String) :
    (v.forget peer).queue other = if other = peer then [] else v.queue other := by
  by_cases h : other = peer
  · subst h
    simp [VideoPlayout.queue, VideoPlayout.forget, AList.lookup_erase]
  · simp [VideoPlayout.queue, VideoPlayout.forget, AList.lookup_erase_ne h, h]

/-! ## What a watched run keeps -/

/-- What holds for a peer all along: the counts, the bound on the queue, and that the queue is ahead of every reading of the
stretch, while what was returned on a reading is not. -/
structure PeerSound (w : Watched T) (peer : String) : Prop where
  once : (w.returned peer ++ w.playout.queue peer).Subperm (w.pushed peer)
  few : (w.playout.queue peer).length ≤ MAX_QUEUED_FRAMES
  ahead : ∀ f ∈ w.playout.queue peer, ∀ r ∈ w.stretch peer, ∀ a ∈ r.reading, a + EARLY_TOLERANCE_US < f.ptsUs
  reached : ∀ r ∈ w.stretch peer, ∀ a ∈ r.reading, ∀ g ∈ r.frames, g.ptsUs ≤ a + EARLY_TOLERANCE_US

theorem mem_stretchOf {stretch : List (Release T)} {reading : Option Nat} {r : Release T} (h : r ∈ stretchOf stretch reading) :
    r ∈ stretch ∧ ∀ a ∈ reading, ∀ b ∈ r.reading, b ≤ a := by
  unfold stretchOf at h
  split_ifs at h with hback
  · cases h
  · refine ⟨h, fun a ha b hb => ?_⟩
    by_contra hlt
    refine hback (List.any_eq_true.mpr ⟨r, h, ?_⟩)
    rw [Option.mem_def] at ha hb
    rw [ha, hb]
    simpa using Nat.lt_of_not_le hlt

theorem start_sound (peer : String) : PeerSound (T := T) start peer where
  once := List.nil_subperm
  few := Nat.zero_le _
  ahead := fun _ hf => absurd hf List.not_mem_nil
  reached := fun _ hr => absurd hr List.not_mem_nil

theorem watch_push {w w' : Watched T} {peer : String} {frame : QueuedFrame T} {now : Nat}
    (h : watch w (.push peer frame now) = some w') :
    Fits (w.playout.audioNowUs peer now) (w.playout.waiting peer frame) ∧
      w' = w.after (.push peer frame now)
        (holding w.playout peer (decided (w.playout.audioNowUs peer now) .hold (w.playout.waiting peer frame)))
        (decided (w.playout.audioNowUs peer now) .showNow (w.playout.waiting peer frame)) := by
  rw [watch] at h
  cases hcall : w.playout.call (.push peer frame now) with
  | error fault => simp [hcall] at h
  | ok result =>
    obtain ⟨v, out⟩ := result
    obtain ⟨hfits, rfl, rfl⟩ := push_eq_ok_iff.mp hcall
    simp only [hcall, Option.some.injEq] at h
    exact ⟨hfits, h.symm⟩

/-- The queue a push leaves is empty without a timeline, and else ahead of it. -/
theorem sound_push {w : Watched T} {peer : String} {frame : QueuedFrame T} {now : Nat} (h : PeerSound w peer) :
    PeerSound (w.after (.push peer frame now)
      (holding w.playout peer (decided (w.playout.audioNowUs peer now) .hold (w.playout.waiting peer frame)))
      (decided (w.playout.audioNowUs peer now) .showNow (w.playout.waiting peer frame))) peer := by
  refine ⟨?_, ?_, ?_, ?_⟩
  · simp only [Watched.after, queue_holding, if_true, Function.update_self]
    have hparts := (decided_subperm (w.playout.audioNowUs peer now) (w.playout.waiting peer frame)).trans
      (waiting_subperm w.playout peer frame)
    have hheld := (List.subperm_append_left (w.returned peer)).mpr hparts
    have hpushed := (List.subperm_append_right [frame]).mpr h.once
    rw [List.append_assoc] at hpushed ⊢
    exact hheld.trans hpushed
  · simp only [Watched.after, queue_holding, if_true]
    exact (List.length_filter_le _ _).trans (waiting_length _ _ _)
  · simp only [Watched.after, queue_holding, if_true, Function.update_self]
    intro f hf r hr a ha
    obtain ⟨-, hhold⟩ := mem_decided.mp hf
    obtain ⟨a', hreading, hlt⟩ := ahead_of_hold hhold
    rcases List.mem_append.mp hr with hr | hr
    · obtain ⟨-, hle⟩ := mem_stretchOf hr
      have := hle a' hreading a ha
      omega
    · obtain rfl := List.mem_singleton.mp hr
      obtain rfl := Option.some.inj (hreading.symm.trans ha)
      exact hlt
  · simp only [Watched.after, Function.update_self]
    intro r hr a ha g hg
    rcases List.mem_append.mp hr with hr | hr
    · exact h.reached r (mem_stretchOf hr).1 a ha g hg
    · obtain rfl := List.mem_singleton.mp hr
      have hdue : Due (w.playout.audioNowUs peer now) g := (mem_decided.mp hg).2
      rw [show w.playout.audioNowUs peer now = some a from ha] at hdue
      exact due_some hdue

theorem watch_playout {w w' : Watched T} {c : Call T} (h : watch w c = some w') :
    ∃ v out, w.playout.call c = .ok (v, out) ∧ w' = w.after c v out := by
  rw [watch] at h
  cases hcall : w.playout.call c with
  | error fault => simp [hcall] at h
  | ok result =>
    simp only [hcall, Option.some.injEq] at h
    exact ⟨result.1, result.2, rfl, h.symm⟩

/-- **What a call keeps.** -/
theorem watch_sound {w w' : Watched T} {c : Call T} (h : watch w c = some w') (hsound : ∀ peer, PeerSound w peer) (peer : String) :
    PeerSound w' peer := by
  have hpeer := hsound peer
  cases c with
  | noteAudioPlayed other ptsUs playedAt =>
    obtain ⟨v, out, hcall, rfl⟩ := watch_playout h
    obtain ⟨rfl, rfl⟩ := Prod.mk.inj (Except.ok.inj hcall)
    exact ⟨hpeer.once, hpeer.few, hpeer.ahead, hpeer.reached⟩
  | push other frame now =>
    obtain ⟨-, rfl⟩ := watch_push h
    by_cases hother : peer = other
    · subst hother
      exact sound_push hpeer
    · constructor <;> simp only [Watched.after, queue_holding, if_neg hother, Function.update_of_ne hother]
      · exact hpeer.once
      · exact hpeer.few
      · exact hpeer.ahead
      · exact hpeer.reached
  | forget other =>
    obtain ⟨v, out, hcall, rfl⟩ := watch_playout h
    obtain ⟨rfl, rfl⟩ := Prod.mk.inj (Except.ok.inj hcall)
    by_cases hother : peer = other
    · subst hother
      constructor <;> simp only [Watched.after, queue_forget, if_true, Function.update_self]
      · rw [List.append_nil]
        exact (List.sublist_append_left _ _).subperm.trans hpeer.once
      · exact Nat.zero_le _
      · simp
      · simp
    · constructor <;> simp only [Watched.after, queue_forget, if_neg hother, Function.update_of_ne hother]
      · exact hpeer.once
      · exact hpeer.few
      · exact hpeer.ahead
      · exact hpeer.reached
  | clear =>
    obtain ⟨v, out, hcall, rfl⟩ := watch_playout h
    obtain ⟨rfl, rfl⟩ := Prod.mk.inj (Except.ok.inj hcall)
    have hnil : (w.playout.clear).queue peer = [] := rfl
    constructor <;> simp only [Watched.after, hnil]
    · rw [List.append_nil]
      exact (List.sublist_append_left _ _).subperm.trans hpeer.once
    · exact Nat.zero_le _
    · simp
    · simp

theorem inOrder_concat {stretch : List (Release T)} {reading : Option Nat} {out : List (QueuedFrame T)} :
    InOrder (stretch ++ [⟨reading, out⟩]) ↔
      InOrder stretch ∧ (out.Pairwise fun f g => f.ptsUs ≤ g.ptsUs) ∧ ∀ r ∈ stretch, ∀ g ∈ r.frames, ∀ f ∈ out, g.ptsUs ≤ f.ptsUs := by
  simp only [InOrder, List.flatMap_append, List.flatMap_cons, List.flatMap_nil, List.append_nil, List.pairwise_append,
    List.pairwise_map, List.mem_flatMap, List.mem_map]
  constructor
  · rintro ⟨hstretch, hout, hcross⟩
    exact ⟨hstretch, hout, fun r hr g hg f hf => hcross _ ⟨r, hr, g, hg, rfl⟩ _ ⟨f, hf, rfl⟩⟩
  · rintro ⟨hstretch, hout, hcross⟩
    refine ⟨hstretch, hout, ?_⟩
    rintro _ ⟨r, hr, g, hg, rfl⟩ _ ⟨f, hf, rfl⟩
    exact hcross r hr g hg f hf

theorem inOrder_stretchOf {stretch : List (Release T)} (h : InOrder stretch) (reading : Option Nat) :
    InOrder (stretchOf stretch reading) := by
  unfold stretchOf
  split_ifs
  · exact List.Pairwise.nil
  · exact h

/-- A held frame that is due is not behind what was returned on a reading of the stretch. -/
theorem held_behind {w : Watched T} {peer : String} (h : PeerSound w peer) {f : QueuedFrame T} (hf : f ∈ w.playout.queue peer)
    {reading : Option Nat} {r : Release T} (hr : r ∈ stretchOf (w.stretch peer) reading) (hsome : r.reading ≠ none)
    {g : QueuedFrame T} (hg : g ∈ r.frames) : g.ptsUs ≤ f.ptsUs := by
  obtain ⟨a, ha⟩ := Option.ne_none_iff_exists'.mp hsome
  have hr' := (mem_stretchOf hr).1
  exact (h.reached r hr' a ha g hg).trans (h.ahead f hf r hr' a ha).le

/-- **When a call keeps the order.** A push does exactly when no frame it shows is late. -/
theorem watch_ordered {w w' : Watched T} {c : Call T} (hsound : ∀ peer, PeerSound w peer)
    (hordered : ∀ peer, InOrder (w.stretch peer)) (h : watch w c = some w') :
    (∀ peer, InOrder (w'.stretch peer)) ↔ InTime w c := by
  cases c with
  | noteAudioPlayed other ptsUs playedAt =>
    obtain ⟨v, out, -, rfl⟩ := watch_playout h
    exact ⟨fun _ => trivial, fun _ => hordered⟩
  | forget other =>
    obtain ⟨v, out, -, rfl⟩ := watch_playout h
    refine ⟨fun _ => trivial, fun _ peer => ?_⟩
    by_cases hother : peer = other
    · subst hother
      simp only [Watched.after, Function.update_self]
      exact List.Pairwise.nil
    · simp only [Watched.after, Function.update_of_ne hother]
      exact hordered peer
  | clear =>
    obtain ⟨v, out, -, rfl⟩ := watch_playout h
    exact ⟨fun _ => trivial, fun _ _ => List.Pairwise.nil⟩
  | push other frame now =>
    obtain ⟨hfits, rfl⟩ := watch_push h
    have hsorted : (decided (w.playout.audioNowUs other now) .showNow (w.playout.waiting other frame)).Pairwise
        fun f g => f.ptsUs ≤ g.ptsUs := (waiting_sorted w.playout other frame).sublist List.filter_sublist
    have hstretch := inOrder_stretchOf (hordered other) (w.playout.audioNowUs other now)
    constructor
    · intro hall
      have hother := hall other
      simp only [Watched.after, Function.update_self] at hother
      obtain ⟨-, -, hcross⟩ := inOrder_concat.mp hother
      refine ⟨hfits, fun hmem hdue r hr g hg => hcross r hr g hg frame (mem_decided.mpr ⟨hmem, hdue⟩), ?_⟩
      intro f _ hmem hdue r hr _ g hg
      exact hcross r hr g hg f (mem_decided.mpr ⟨hmem, hdue⟩)
    · rintro ⟨-, hframe, hheld⟩ peer
      by_cases hother : peer = other
      · subst hother
        simp only [Watched.after, Function.update_self]
        refine inOrder_concat.mpr ⟨hstretch, hsorted, fun r hr g hg f hf => ?_⟩
        obtain ⟨hmem, hdue⟩ := mem_decided.mp hf
        rcases mem_of_waiting hmem with hqueue | rfl
        · by_cases hnone : r.reading = none
          · exact hheld f hqueue hmem hdue r hr hnone g hg
          · exact held_behind (hsound peer) hqueue hr hnone hg
        · exact hframe hmem hdue r hr g hg
      · simp only [Watched.after, Function.update_of_ne hother]
        exact hordered peer

/-- A call that meets the condition goes through. -/
theorem watch_of_inTime {w : Watched T} {c : Call T} (h : InTime w c) : ∃ w', watch w c = some w' := by
  cases c with
  | noteAudioPlayed peer ptsUs playedAt => exact ⟨_, rfl⟩
  | forget peer => exact ⟨_, rfl⟩
  | clear => exact ⟨_, rfl⟩
  | push peer frame now =>
    have hpush : w.playout.push peer frame now = .ok (_, _) := push_eq_ok_iff.mpr ⟨h.1, rfl, rfl⟩
    exact ⟨w.after (.push peer frame now) _ _, by rw [watch, VideoPlayout.call, hpush]⟩

theorem run_of_meets {w : Watched T} {calls : List (Call T)} (h : Meets watch InTime w calls) :
    ∃ w', run watch w calls = some w' := by
  induction calls generalizing w with
  | nil => exact ⟨w, rfl⟩
  | cons c calls ih =>
    obtain ⟨w₁, h₁⟩ := watch_of_inTime h.1
    obtain ⟨w', h'⟩ := ih (h.2 w₁ h₁)
    exact ⟨w', by rw [run_cons, h₁, Option.bind_some, h']⟩

theorem run_sound {calls : List (Call T)} {w : Watched T} (h : run watch start calls = some w) (peer : String) :
    PeerSound w peer :=
  run_invariant (fun _ w => ∀ peer, PeerSound w peer) start_sound (fun _ _ _ _ hsound hstep peer => watch_sound hstep hsound peer) h peer

/-- Calls about one peer leave the others apart. -/
theorem apart_call {v v' : VideoPlayout T} {c : Call T} {out : List (QueuedFrame T)} {peer other : String}
    (h : v.call c = .ok (v', out)) (hc : c.peer = some peer) (hne : other ≠ peer) : Apart v v' other := by
  have hkeep : v'.queue other = v.queue other ∧ v'.anchors.lookup other = v.anchors.lookup other := by
    cases c with
    | noteAudioPlayed p ptsUs playedAt =>
      obtain rfl := Option.some.inj hc
      obtain ⟨rfl, -⟩ := Prod.mk.inj (Except.ok.inj h)
      exact ⟨rfl, AList.lookup_insert_ne hne⟩
    | push p frame now =>
      obtain rfl := Option.some.inj hc
      obtain ⟨-, rfl, -⟩ := push_eq_ok_iff.mp h
      exact ⟨by rw [queue_holding, if_neg hne], rfl⟩
    | forget p =>
      obtain rfl := Option.some.inj hc
      obtain ⟨rfl, -⟩ := Prod.mk.inj (Except.ok.inj h)
      exact ⟨by rw [queue_forget, if_neg hne], AList.lookup_erase_ne hne⟩
    | clear => cases hc
  obtain ⟨hqueue, hanchor⟩ := hkeep
  have hreading : ∀ now, v'.audioNowUs other now = v.audioNowUs other now := by
    intro now
    rw [VideoPlayout.audioNowUs, VideoPlayout.audioNowUs, hanchor]
  refine ⟨hqueue, hanchor, fun ptsUs now => ?_, fun frame now => ?_⟩
  · rw [VideoPlayout.decide, VideoPlayout.decide, hreading]
  · have hwaiting : v'.waiting other frame = v.waiting other frame := by
      rw [VideoPlayout.waiting, VideoPlayout.waiting, hqueue]
    rw [VideoPlayout.push, VideoPlayout.push, hreading, hwaiting]
    cases sweep (v.audioNowUs other now) (v.waiting other frame) with
    | error fault => rfl
    | ok result => rfl

end SyncAux

open SyncAux

/-- **Video follows the audio, and when.** For every run of calls, whatever the timestamps and instants: no addition overflows,
each frame is returned at most once, few are held and the timestamps of a stretch never decrease, exactly when every push of the
run is in time. On one timeline a later frame is decided no earlier, and the calls about one peer leave the others apart, always. -/
theorem followsAudio_iff (calls : List (Call T)) :
    (FollowsAudio calls ↔ Meets watch InTime start calls) ∧
      (∀ reading p q d e, p ≤ q → decideAgainst reading p = .ok d → decideAgainst reading q = .ok e → d.rank ≤ e.rank) ∧
      ∀ (v v' : VideoPlayout T) (c : Call T) (out : List (QueuedFrame T)) (peer other : String), v.call c = .ok (v', out) →
        c.peer = some peer → other ≠ peer → Apart v v' other := by
  refine ⟨⟨fun h => ?_, fun h => ?_⟩, ?_, ?_⟩
  · obtain ⟨w, hrun⟩ := h.fits
    refine (meets_iff_prefixes (fun w => ∀ peer, PeerSound w peer) (fun w => ∀ peer, InOrder (w.stretch peer)) ?_ start_sound
      (fun _ => List.Pairwise.nil) hrun).mp fun pre w₁ hpre hrun₁ peer => h.ordered pre w₁ hpre hrun₁ peer
    intro s c s' hsound hordered hstep
    exact ⟨watch_sound hstep hsound, watch_ordered hsound hordered hstep⟩
  · obtain ⟨w, hrun⟩ := run_of_meets h
    have hordered := (meets_iff_prefixes (fun w => ∀ peer, PeerSound w peer) (fun w => ∀ peer, InOrder (w.stretch peer))
      (fun s c s' hsound hordered hstep => ⟨watch_sound hstep hsound, watch_ordered hsound hordered hstep⟩) start_sound
      (fun _ => List.Pairwise.nil) hrun).mpr h
    exact ⟨⟨w, hrun⟩, fun _ _ _ hpre peer => (run_sound hpre peer).once, fun _ _ _ hpre peer => (run_sound hpre peer).few, hordered⟩
  · intro reading p q d e hpq hd he
    exact rank_mono hpq hd he
  · intro v v' c out peer other hcall hc hne
    exact apart_call hcall hc hne

section

/-- A frame without a picture. -/
def frameAt (ptsUs : Nat) : QueuedFrame Unit := ⟨ptsUs, ()⟩

/-- Audio at 0.1 s, a frame that is shown, and one 45 ms older that is shown after it. -/
def lateCalls : List (Call Unit) :=
  [.noteAudioPlayed "peer" 100000 0, .push "peer" (frameAt 105000) 0, .push "peer" (frameAt 60000) 0]

/-- A frame of the last timestamp there is. -/
def lastTimestampCalls : List (Call Unit) := [.noteAudioPlayed "peer" 0 0, .push "peer" (frameAt (2 ^ 64 - 1)) 0]

/-- The older frame comes after the newer one, and the addition to the last timestamp overflows. -/
theorem late_frame_or_overflow : ¬FollowsAudio lateCalls ∧ ¬FollowsAudio lastTimestampCalls := by
  constructor
  · intro h
    obtain ⟨w, hrun⟩ := h.fits
    have hstretch : ((run watch start lateCalls).map fun w => (w.stretch "peer").flatMap fun r => r.frames.map (·.ptsUs)) =
        some [105000, 60000] := by decide +kernel
    rw [hrun, Option.map_some, Option.some.injEq] at hstretch
    have hordered := h.ordered lateCalls w List.prefix_rfl hrun "peer"
    rw [InOrder, hstretch] at hordered
    exact absurd hordered (by decide)
  · intro h
    obtain ⟨w, hrun⟩ := h.fits
    have hnone : (run watch start lastTimestampCalls).isSome = false := by decide +kernel
    rw [hrun] at hnone
    cases hnone

end

end DoubleSlash.MediaSync
