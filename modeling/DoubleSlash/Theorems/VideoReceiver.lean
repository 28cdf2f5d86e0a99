import DoubleSlash.Video.Receiver

/-!
# What the decode thread keeps and tells

The thread decodes few streams at once and takes no slot from a stream that runs. What it tells of one peer is read by an observer
of that peer, who accepts a request for a keyframe only after the interval, and a report only when it changes something. All that a
run tells is accepted, and the observer ends with what the maps say.
-/

namespace DoubleSlash.Video

open Assoc Run

theorem length_kerase_add_one {V : Type} {m : HashMap String V} {k : String} (h : k ∈ m) :
    (List.kerase k m.entries).length + 1 = m.entries.length := by
  have hlen (l : List ((_ : String) × V)) : l.keys.length = l.length := List.length_map _
  rw [← hlen, ← hlen m.entries, List.keys_kerase]
  exact List.length_erase_add_one h

theorem maxByKey_spec {α : Type} (key : α → Nat) {l : List α} {x : α} (h : maxByKey key l = some x) :
    x ∈ l ∧ ∀ y ∈ l, key y ≤ key x := by
  induction l generalizing x with
  | nil => simp [maxByKey] at h
  | cons a rest ih =>
    cases hrest : maxByKey key rest with
    | none =>
      cases rest with
      | nil =>
        simp only [maxByKey, Option.some.injEq] at h
        simp [h]
      | cons b rest =>
        simp only [maxByKey] at hrest
        split at hrest
        · simp at hrest
        · split at hrest <;> simp at hrest
    | some y =>
      obtain ⟨hy, hle⟩ := ih hrest
      simp only [maxByKey, hrest] at h
      split at h
      · next hlt =>
        obtain rfl : a = x := by simpa using h
        refine ⟨by simp, fun z hz => ?_⟩
        rcases List.mem_cons.mp hz with rfl | hz
        · rfl
        · exact Nat.le_trans (hle z hz) (Nat.le_of_lt hlt)
      · next hlt =>
        obtain rfl : y = x := by simpa using h
        refine ⟨by simp [hy], fun z hz => ?_⟩
        rcases List.mem_cons.mp hz with rfl | hz
        · exact Nat.le_of_not_lt hlt
        · exact hle z hz

/-- The peer that loses its slot is the one that is quiet longest. -/
theorem admitPeer_evict {peer stale : String} {active : HashMap String Nat} {now : Nat} (h : admitPeer peer active now = .evict stale) :
    peer ∉ active ∧ ∃ seen, active.lookup stale = some seen ∧ streamIdleEvict ≤ now - seen ∧
      ∀ p at', active.lookup p = some at' → now - at' ≤ now - seen := by
  simp only [admitPeer] at h
  split at h
  · simp at h
  · next hpeer =>
    split at h
    · simp at h
    · split at h
      · next e he =>
        obtain ⟨hmax, hidle⟩ := Option.filter_eq_some_iff.mp he
        obtain ⟨hmem, hle⟩ := maxByKey_spec _ hmax
        simp only [Admission.evict.injEq] at h
        refine ⟨hpeer, e.2, ?_, by simpa using hidle, fun p at' hp => ?_⟩
        · rw [← h]
          exact AList.mem_lookup_iff.mpr hmem
        · exact hle ⟨p, at'⟩ (AList.mem_lookup_iff.mp hp)
      · simp at h

/-- A frame that takes no slot from another finds one free, or its own. -/
theorem admitPeer_decode {peer : String} {active : HashMap String Nat} {now : Nat} (h : admitPeer peer active now = .decode) :
    peer ∈ active ∨ active.entries.length < maxDecodedStreams := by
  simp only [admitPeer] at h
  split at h
  · next hpeer => exact Or.inl hpeer
  · split at h
    · next hlt => exact Or.inr hlt
    · split at h <;> simp at h

/-! ## What the steps change -/

namespace DecodeThread

variable {D F : Type} (t : DecodeThread D)

theorem requestKeyframeThrottled_fst (peer : String) (now interval : Nat) :
    ∃ asked, (t.requestKeyframeThrottled peer now interval : DecodeThread D × List (ReceiverEvent F)).1 =
      { t with keyframeAsked := asked } := by
  simp only [requestKeyframeThrottled]
  split
  · exact ⟨t.keyframeAsked.insert peer now, rfl⟩
  · exact ⟨t.keyframeAsked, rfl⟩

theorem retract_fst (peer : String) :
    (t.retract peer : DecodeThread D × List (ReceiverEvent F)).1 = { t with stalled := t.stalled.erase peer } := by
  simp only [retract]
  split
  · rfl
  · next h =>
    have he : t.stalled.erase peer = t.stalled := AList.ext (List.kerase_of_notMem_keys h)
    rw [he]

theorem retract_snd (peer : String) :
    (t.retract peer : DecodeThread D × List (ReceiverEvent F)).2 = if peer ∈ t.stalled then [.reportStall peer false] else [] := by
  simp only [retract]
  split <;> rfl

/-- A peer is skipped, or asked for a keyframe, or asked and reported. -/
theorem sweepPeer_cases (hasSink : String → Bool) (now : Nat) (acc : DecodeThread D × List (ReceiverEvent F)) (e : (_ : String) × Nat) :
    sweepPeer hasSink now acc e = acc ∨
      ∃ interval, keyframeRequestInterval ≤ interval ∧ (stallReportAfter ≤ now - e.2 → interval = stalledKeyframeInterval) ∧
        (sweepPeer hasSink now acc e =
            ((acc.1.requestKeyframeThrottled e.1 now interval : DecodeThread D × List (ReceiverEvent F)).1,
              acc.2 ++ (acc.1.requestKeyframeThrottled e.1 now interval).2) ∨
          stallReportAfter ≤ now - e.2 ∧ e.1 ∉ acc.1.stalled ∧ ∃ asked,
            (acc.1.requestKeyframeThrottled e.1 now interval : DecodeThread D × List (ReceiverEvent F)).1 =
                { acc.1 with keyframeAsked := asked } ∧
              sweepPeer hasSink now acc e =
                ({ acc.1 with keyframeAsked := asked, stalled := acc.1.stalled.insert e.1 () },
                  acc.2 ++ ((acc.1.requestKeyframeThrottled e.1 now interval).2 ++ [.reportStall e.1 true]))) := by
  simp only [sweepPeer]
  split
  · exact Or.inl rfl
  · split
    · exact Or.inl rfl
    · have hpace : keyframeRequestInterval ≤
          if stallReportAfter ≤ now - e.2 then stalledKeyframeInterval else keyframeRequestInterval := by
        split <;> simp [stalledKeyframeInterval, keyframeRequestInterval]
      have hslow (h : stallReportAfter ≤ now - e.2) :
          (if stallReportAfter ≤ now - e.2 then stalledKeyframeInterval else keyframeRequestInterval) = stalledKeyframeInterval :=
        if_pos h
      generalize (if stallReportAfter ≤ now - e.2 then stalledKeyframeInterval else keyframeRequestInterval) = interval at *
      obtain ⟨asked, hasked⟩ := acc.1.requestKeyframeThrottled_fst (F := F) e.1 now interval
      refine Or.inr ⟨interval, hpace, hslow, ?_⟩
      rw [hasked]
      split
      · next h => exact Or.inr ⟨h.1, h.2, asked, rfl, rfl⟩
      · exact Or.inl rfl

/-- A frame that has its slot goes to a decoder, unless there is none and none can be made. -/
theorem admitted_cases (decode : D → List UInt8 → D × DecodeResult F) (a : Arrival D) :
    let claimed : DecodeThread D :=
      { t with lastFrame := t.lastFrame.insert a.item.peerId a.now, stalled := t.stalled.erase a.item.peerId }
    let reports : List (ReceiverEvent F) := if a.item.peerId ∈ t.stalled then [.reportStall a.item.peerId false] else []
    ∃ kept : DecodeThread D,
      (kept = claimed ∨ kept = { claimed with
        decoders := t.decoders.erase a.item.peerId, health := t.health.erase a.item.peerId }) ∧
      (kept.lastFrame = claimed.lastFrame ∧ kept.stalled = claimed.stalled ∧ kept.keyframeAsked = t.keyframeAsked) ∧
      ((∃ d, admitted decode t a =
          ((kept.decodeWith decode a.item a.now d).1, reports ++ (kept.decodeWith decode a.item a.now d).2)) ∨
        a.made = none ∧ a.item.peerId ∉ kept.decoders ∧
          admitted decode t a = ({ kept with lastFrame := kept.lastFrame.erase a.item.peerId }, reports)) := by
  intro claimed reports
  have hfst : (({ t with lastFrame := t.lastFrame.insert a.item.peerId a.now } : DecodeThread D).retract a.item.peerId :
      DecodeThread D × List (ReceiverEvent F)) = (claimed, reports) := Prod.ext (retract_fst _ _) (retract_snd _ _)
  simp only [admitted, hfst]
  generalize hkept : (if ((claimed.decoders.lookup a.item.peerId).any fun d => decide (d.codec ≠ a.item.codec)) = true then
    ({ claimed with decoders := claimed.decoders.erase a.item.peerId, health := claimed.health.erase a.item.peerId } : DecodeThread D)
    else claimed) = kept
  refine ⟨kept, ?_, ?_, ?_⟩
  · rw [← hkept]
    split
    · exact Or.inr rfl
    · exact Or.inl rfl
  · rw [← hkept]
    split <;> exact ⟨rfl, rfl, rfl⟩
  · split
    · next d _ => exact Or.inl ⟨d.decoder, rfl⟩
    · next hd =>
      split
      · next hmade => exact Or.inr ⟨hmade, AList.lookup_eq_none.mp hd, rfl⟩
      · next d _ => exact Or.inl ⟨d, rfl⟩

theorem sweepPeer_lastFrame (hasSink : String → Bool) (now : Nat) (acc : DecodeThread D × List (ReceiverEvent F))
    (e : (_ : String) × Nat) : (sweepPeer hasSink now acc e).1.lastFrame = acc.1.lastFrame := by
  rcases sweepPeer_cases hasSink now acc e with hskip | ⟨interval, _, _, hask | ⟨_, _, asked, _, hreport⟩⟩
  · rw [hskip]
  · obtain ⟨asked, hasked⟩ := acc.1.requestKeyframeThrottled_fst (F := F) e.1 now interval
    rw [hask, hasked]
  · rw [hreport]

/-- The sweep goes over the streams that have a slot, and keeps the slots. -/
theorem sweepStalls_rec {motive : DecodeThread D × List (ReceiverEvent F) → Prop} (hasSink : String → Bool) (now : Nat)
    (hstart : motive (t, []))
    (hstep : ∀ acc e, acc.1.lastFrame.lookup e.1 = some e.2 → motive acc → motive (sweepPeer hasSink now acc e)) :
    motive (t.sweepStalls hasSink now) ∧
      (t.sweepStalls hasSink now : DecodeThread D × List (ReceiverEvent F)).1.lastFrame = t.lastFrame := by
  refine List.foldlRecOn (motive := fun (acc : DecodeThread D × List (ReceiverEvent F)) => motive acc ∧ acc.1.lastFrame = t.lastFrame)
    t.lastFrame.entries _ ⟨hstart, rfl⟩ ?_
  rintro acc ⟨hacc, hlast⟩ e he
  have hlookup : acc.1.lastFrame.lookup e.1 = some e.2 := by
    rw [hlast]
    exact AList.mem_lookup_iff.mpr he
  exact ⟨hstep acc e hlookup hacc, (sweepPeer_lastFrame hasSink now acc e).trans hlast⟩

end DecodeThread

/-! ## Slots -/

/-- Few streams have a slot; decoders, their counts and the reports belong to these. A stream reported as stalled was quiet for long
at some instant up to the clock. -/
structure Slots {D : Type} (clock : Nat) (t : DecodeThread D) : Prop where
  bounded : t.lastFrame.entries.length ≤ maxDecodedStreams
  decoders : ∀ p, p ∈ t.decoders → p ∈ t.lastFrame
  health : ∀ p, p ∈ t.health → p ∈ t.decoders
  stalled : ∀ p, p ∈ t.stalled → ∃ seen, t.lastFrame.lookup p = some seen ∧ seen + stallReportAfter ≤ clock

namespace Slots

variable {D F : Type} {clock : Nat} {t : DecodeThread D}

theorem mono (h : Slots clock t) {later : Nat} (hle : clock ≤ later) : Slots later t := by
  refine ⟨h.bounded, h.decoders, h.health, fun p hp => ?_⟩
  obtain ⟨seen, hseen, hquiet⟩ := h.stalled p hp
  exact ⟨seen, hseen, Nat.le_trans hquiet hle⟩

theorem new : Slots clock (DecodeThread.new : DecodeThread D) := by
  constructor <;> simp [DecodeThread.new, maxDecodedStreams]

theorem requestKeyframeThrottled (h : Slots clock t) (peer : String) (now interval : Nat) :
    Slots clock (t.requestKeyframeThrottled peer now interval : DecodeThread D × List (ReceiverEvent F)).1 := by
  obtain ⟨asked, hasked⟩ := t.requestKeyframeThrottled_fst (F := F) peer now interval
  rw [hasked]
  exact ⟨h.bounded, h.decoders, h.health, h.stalled⟩

/-- A peer loses all it has, its report with it. -/
theorem remove_retract (h : Slots clock t) (peer : String) :
    Slots clock ((t.remove peer).retract peer : DecodeThread D × List (ReceiverEvent F)).1 := by
  rw [DecodeThread.retract_fst]
  refine ⟨?_, fun p hp => ?_, fun p hp => ?_, fun p hp => ?_⟩
  · exact Nat.le_trans (List.kerase_sublist peer t.lastFrame.entries).length_le h.bounded
  · obtain ⟨hne, hp⟩ := AList.mem_erase.mp hp
    exact AList.mem_erase.mpr ⟨hne, h.decoders p hp⟩
  · obtain ⟨hne, hp⟩ := AList.mem_erase.mp hp
    exact AList.mem_erase.mpr ⟨hne, h.health p hp⟩
  · obtain ⟨hne, hp⟩ := AList.mem_erase.mp hp
    obtain ⟨seen, hseen, hquiet⟩ := h.stalled p hp
    exact ⟨seen, (AList.lookup_erase_ne hne).trans hseen, hquiet⟩

/-- A stream without a report keeps its slot, or gets one where there is one, from an instant on. -/
theorem insertLastFrame (h : Slots clock t) {peer : String} (now : Nat)
    (hfree : peer ∈ t.lastFrame ∨ t.lastFrame.entries.length < maxDecodedStreams) :
    Slots clock (({ t with lastFrame := t.lastFrame.insert peer now } : DecodeThread D).retract peer :
      DecodeThread D × List (ReceiverEvent F)).1 := by
  rw [DecodeThread.retract_fst]
  refine ⟨?_, fun p hp => ?_, h.health, fun p hp => ?_⟩
  · have hlen : (t.lastFrame.insert peer now).entries.length = (List.kerase peer t.lastFrame.entries).length + 1 := by
      simp [AList.insert, List.kinsert_def]
    refine Nat.le_trans (Nat.le_of_eq hlen) ?_
    rcases hfree with hmem | hlt
    · rw [length_kerase_add_one hmem]
      exact h.bounded
    · exact Nat.lt_of_le_of_lt (List.kerase_sublist peer t.lastFrame.entries).length_le hlt
  · exact (AList.mem_insert _).mpr (Or.inr (h.decoders p hp))
  · obtain ⟨hne, hp⟩ := AList.mem_erase.mp hp
    obtain ⟨seen, hseen, hquiet⟩ := h.stalled p hp
    exact ⟨seen, (AList.lookup_insert_ne hne).trans hseen, hquiet⟩

/-- A decoder goes, and its counts with it. -/
theorem dropDecoder (h : Slots clock t) (peer : String) :
    Slots clock { t with decoders := t.decoders.erase peer, health := t.health.erase peer } := by
  refine ⟨h.bounded, fun p hp => h.decoders p (AList.mem_erase.mp hp).2, fun p hp => ?_, h.stalled⟩
  obtain ⟨hne, hp⟩ := AList.mem_erase.mp hp
  exact AList.mem_erase.mpr ⟨hne, h.health p hp⟩

theorem sweepPeer (hasSink : String → Bool) {now : Nat} (hnow : now ≤ clock) {acc : DecodeThread D × List (ReceiverEvent F)}
    (h : Slots clock acc.1) {e : (_ : String) × Nat} (he : acc.1.lastFrame.lookup e.1 = some e.2) :
    Slots clock (DecodeThread.sweepPeer hasSink now acc e).1 := by
  rcases DecodeThread.sweepPeer_cases hasSink now acc e with hskip | ⟨interval, _, _, hask | ⟨hquiet, _, asked, _, hreport⟩⟩
  · rw [hskip]
    exact h
  · rw [hask]
    exact h.requestKeyframeThrottled e.1 now interval
  · rw [hreport]
    refine ⟨h.bounded, h.decoders, h.health, fun p hp => ?_⟩
    rcases (AList.mem_insert _).mp hp with rfl | hp
    · refine ⟨e.2, he, ?_⟩
      simp only [stallReportAfter] at *
      omega
    · exact h.stalled p hp

theorem sweepStalls (h : Slots clock t) (hasSink : String → Bool) {now : Nat} (hnow : now ≤ clock) :
    Slots clock (t.sweepStalls hasSink now : DecodeThread D × List (ReceiverEvent F)).1 := by
  have hrec := t.sweepStalls_rec (F := F) (motive := fun acc => Slots clock acc.1) hasSink now h
    fun acc e he hacc => hacc.sweepPeer hasSink hnow he
  exact hrec.1

theorem drainControl (h : Slots clock t) (control : List Control) :
    Slots clock (t.drainControl control : DecodeThread D × List (ReceiverEvent F)).1 := by
  refine List.foldlRecOn (motive := fun (acc : DecodeThread.Drained D F) => Slots clock acc.thread) control _ h ?_
  intro acc hacc c _
  cases c with
  | forget peer => exact hacc.remove_retract peer
  | forgetAll => exact new

/-- A frame that is let in finds a slot. -/
theorem claim (h : Slots clock t) {peer : String} {now : Nat} {out : DecodeThread D × List (ReceiverEvent F)}
    (hout : t.claim peer now = some out) :
    Slots clock out.1 ∧ (peer ∈ out.1.lastFrame ∨ out.1.lastFrame.entries.length < maxDecodedStreams) := by
  simp only [DecodeThread.claim] at hout
  split at hout
  · next hadmit =>
    obtain rfl : (t, []) = out := by simpa using hout
    exact ⟨h, admitPeer_decode hadmit⟩
  · next stale hadmit =>
    obtain rfl := (Option.some.inj hout).symm
    obtain ⟨_, seen, hseen, _⟩ := admitPeer_evict hadmit
    refine ⟨h.remove_retract stale, Or.inr ?_⟩
    rw [DecodeThread.retract_fst]
    have hmem : stale ∈ t.lastFrame := AList.lookup_isSome.mp (by simp [hseen])
    exact Nat.lt_of_lt_of_le (Nat.lt_of_succ_le (Nat.le_of_eq (length_kerase_add_one hmem))) h.bounded
  · simp at hout

theorem setback (h : Slots clock t) {peer : String} (hpeer : peer ∈ t.decoders) (now : Nat) (health : DecodeHealth)
    (n request rebuild : Nat) :
    Slots clock (t.setback peer now health n request rebuild : DecodeThread D × List (ReceiverEvent F)).1 := by
  have hcounted : Slots clock { t with health := t.health.insert peer health } := by
    refine ⟨h.bounded, h.decoders, fun p hp => ?_, h.stalled⟩
    rcases (AList.mem_insert _).mp hp with rfl | hp
    · exact hpeer
    · exact h.health p hp
  have hasked : Slots clock (if request ≤ n then
      ({ t with health := t.health.insert peer health } : DecodeThread D).requestKeyframeThrottled peer now keyframeRequestInterval
      else ({ t with health := t.health.insert peer health }, []) : DecodeThread D × List (ReceiverEvent F)).1 := by
    split
    · exact hcounted.requestKeyframeThrottled peer now keyframeRequestInterval
    · exact hcounted
  simp only [DecodeThread.setback]
  split
  · exact hasked.dropDecoder peer
  · exact hasked

theorem answered (h : Slots clock t) {item : InboundFrame} (hitem : item.peerId ∈ t.decoders) (now : Nat) (answer : DecodeResult F) :
    Slots clock (t.answered item now answer).1 := by
  cases answer with
  | picture frame => exact ⟨h.bounded, h.decoders, fun p hp => h.health p (AList.mem_erase.mp hp).2, h.stalled⟩
  | nothing => exact h.setback hitem now _ _ _ _
  | failed => exact h.setback hitem now _ _ _ _

variable (decode : D → List UInt8 → D × DecodeResult F)

theorem decodeWith (h : Slots clock t) {item : InboundFrame} (hitem : item.peerId ∈ t.lastFrame) (now : Nat) (decoder : D) :
    Slots clock (t.decodeWith decode item now decoder).1 := by
  have hbuilt : Slots clock { t with decoders := t.decoders.insert item.peerId ⟨item.codec, (decode decoder item.encoded).1⟩ } := by
    refine ⟨h.bounded, fun p hp => ?_, fun p hp => ?_, h.stalled⟩
    · rcases (AList.mem_insert _).mp hp with rfl | hp
      · exact hitem
      · exact h.decoders p hp
    · exact (AList.mem_insert _).mpr (Or.inr (h.health p hp))
  exact hbuilt.answered ((AList.mem_insert _).mpr (Or.inl rfl)) now _

theorem admitted (h : Slots clock t) (a : Arrival D)
    (hfree : a.item.peerId ∈ t.lastFrame ∨ t.lastFrame.entries.length < maxDecodedStreams) :
    Slots clock (t.admitted decode a).1 := by
  obtain ⟨kept, hkept, ⟨hlast, hstalled, _⟩, hcases⟩ := t.admitted_cases decode a
  have hclaimed := h.insertLastFrame (F := F) a.now hfree
  rw [DecodeThread.retract_fst] at hclaimed
  have hslots : Slots clock kept := by
    rcases hkept with rfl | rfl
    · exact hclaimed
    · exact hclaimed.dropDecoder a.item.peerId
  rcases hcases with ⟨d, hd⟩ | ⟨_, hnone, hlost⟩
  · rw [hd]
    exact hslots.decodeWith decode (by simp [hlast]) a.now d
  · rw [hlost]
    refine ⟨?_, fun p hp => ?_, hslots.health, fun p hp => ?_⟩
    · exact Nat.le_trans (List.kerase_sublist a.item.peerId kept.lastFrame.entries).length_le hslots.bounded
    · exact AList.mem_erase.mpr ⟨fun he => hnone (he ▸ hp), hslots.decoders p hp⟩
    · have hne : p ≠ a.item.peerId := by
        rintro rfl
        simp [hstalled] at hp
      obtain ⟨seen, hseen, hquiet⟩ := hslots.stalled p hp
      exact ⟨seen, (AList.lookup_erase_ne hne).trans hseen, hquiet⟩

theorem receive (h : Slots clock t) (a : Arrival D) : Slots clock (t.receive decode a).1 := by
  simp only [DecodeThread.receive]
  split
  · exact h
  · split
    · exact h
    · next out hout =>
      obtain ⟨hslots, hfree⟩ := h.claim hout
      exact hslots.admitted decode a hfree

theorem turn (h : Slots clock t) {i : Turn D} (hnow : i.sweptAt ≤ clock) : Slots clock (t.turn decode i).1 := by
  have hswept : Slots clock ((t.drainControl i.control : DecodeThread D × List (ReceiverEvent F)).1.sweepStalls i.hasSink i.sweptAt :
      DecodeThread D × List (ReceiverEvent F)).1 := (h.drainControl i.control).sweepStalls i.hasSink hnow
  simp only [DecodeThread.turn]
  cases i.frame with
  | none => exact hswept
  | some a => exact hswept.receive decode a

/-- Over the loop, the clock is any instant that no sweep is past. -/
theorem loop {turns : List (Turn D)} (hclock : ∀ i ∈ turns, i.sweptAt ≤ clock) : Slots clock (DecodeThread.loop decode turns).1 := by
  refine List.foldlRecOn (motive := fun (acc : DecodeThread D × List (ReceiverEvent F)) => Slots clock acc.1) turns _ new ?_
  intro acc hacc i hi
  exact hacc.turn decode (hclock i hi)

end Slots

theorem exists_clock {D : Type} (turns : List (Turn D)) : ∃ clock, ∀ i ∈ turns, i.sweptAt ≤ clock := by
  induction turns with
  | nil => exact ⟨0, by simp⟩
  | cons i rest ih =>
    obtain ⟨clock, hclock⟩ := ih
    refine ⟨i.sweptAt + clock, fun j hj => ?_⟩
    rcases List.mem_cons.mp hj with rfl | hj
    · exact Nat.le_add_right ..
    · exact Nat.le_trans (hclock j hj) (Nat.le_add_left ..)

/-- Over every run of the thread, whatever its decoders answer and however the control commands fall between the frames: there are at
most `MAX_DECODED_STREAMS` decoders, each decoder has its stream's slot, each count of failures its decoder, and each stream reported
as stalled still has the slot from which the report can be taken back. -/
theorem streams_bounded {D F : Type} (decode : D → List UInt8 → D × DecodeResult F) (turns : List (Turn D)) :
    let t := (DecodeThread.loop decode turns).1
    t.decoders.entries.length ≤ maxDecodedStreams ∧ t.lastFrame.entries.length ≤ maxDecodedStreams ∧
      (∀ p, p ∈ t.health → p ∈ t.decoders) ∧ (∀ p, p ∈ t.decoders → p ∈ t.lastFrame) ∧
        (∀ p, p ∈ t.stalled → p ∈ t.lastFrame) := by
  intro t
  obtain ⟨clock, hclock⟩ := exists_clock turns
  have h : Slots clock t := Slots.loop decode hclock
  refine ⟨?_, h.bounded, h.health, h.decoders, fun p hp => ?_⟩
  · have hsubset : t.decoders.keys ⊆ t.lastFrame.keys := fun p hp => AList.mem_keys.mp (h.decoders p (AList.mem_keys.mpr hp))
    have hlen := (List.subperm_of_subset t.decoders.keys_nodup hsubset).length_le
    simp only [AList.keys, List.keys, List.length_map] at hlen
    exact Nat.le_trans hlen h.bounded
  · obtain ⟨seen, hseen, _⟩ := h.stalled p hp
    exact AList.lookup_isSome.mp (by simp [hseen])

/-! ## A stream that runs -/

/-- A command that forgets a peer. -/
def Control.forgets (p : String) : Control → Bool
  | .forget peer => peer = p
  | .forgetAll => true

/-- The stream of a peer runs: nothing forgets it, its frames can be decoded, and other frames arrive less than
`STREAM_IDLE_EVICT` after the last of its own. -/
def Live {D : Type} (p : String) : Nat → List (Turn D) → Prop
  | _, [] => True
  | seen, i :: rest =>
    (∀ c ∈ i.control, ¬ c.forgets p) ∧
      match i.frame with
      | none => Live p seen rest
      | some a =>
        if a.item.peerId = p ∧ a.displayed then a.made.isSome ∧ Live p a.now rest
        else a.now < seen + streamIdleEvict ∧ Live p seen rest

/-- When the last frame of a peer came that something displayed. -/
def lastSeen {D : Type} (p : String) : Nat → List (Turn D) → Nat
  | seen, [] => seen
  | seen, i :: rest =>
    match i.frame with
    | none => lastSeen p seen rest
    | some a => if a.item.peerId = p ∧ a.displayed then lastSeen p a.now rest else lastSeen p seen rest

namespace DecodeThread

variable {D F : Type} {t : DecodeThread D} {p : String} {seen : Nat}

theorem sweepStalls_lastFrame (hasSink : String → Bool) (now : Nat) :
    (t.sweepStalls hasSink now : DecodeThread D × List (ReceiverEvent F)).1.lastFrame = t.lastFrame := by
  have hrec := t.sweepStalls_rec (F := F) (motive := fun _ => True) hasSink now trivial fun _ _ _ _ => trivial
  exact hrec.2

theorem drainControl_lastFrame {control : List Control} (h : ∀ c ∈ control, ¬ c.forgets p) :
    (t.drainControl control : DecodeThread D × List (ReceiverEvent F)).1.lastFrame.lookup p = t.lastFrame.lookup p := by
  refine List.foldlRecOn (motive := fun (acc : Drained D F) => acc.thread.lastFrame.lookup p = t.lastFrame.lookup p) control _ rfl ?_
  intro acc hacc c hc
  cases c with
  | forget peer =>
    have hne : p ≠ peer := fun he => h _ hc (by simp [Control.forgets, he])
    simp only [apply, retract_fst, remove]
    rw [AList.lookup_erase_ne hne]
    exact hacc
  | forgetAll => exact absurd rfl (h _ hc)

theorem claim_lastFrame {peer : String} {now : Nat} {out : DecodeThread D × List (ReceiverEvent F)} (hout : t.claim peer now = some out)
    (hp : t.lastFrame.lookup p = some seen) (hrecent : p = peer ∨ now < seen + streamIdleEvict) :
    out.1.lastFrame.lookup p = some seen := by
  simp only [claim] at hout
  split at hout
  · obtain rfl : (t, []) = out := by simpa using hout
    exact hp
  · next stale hadmit =>
    obtain rfl := (Option.some.inj hout).symm
    obtain ⟨hpeer, at', hat, hidle, _⟩ := admitPeer_evict hadmit
    have hne : p ≠ stale := by
      rintro rfl
      obtain rfl : seen = at' := Option.some.inj (hp.symm.trans hat)
      rcases hrecent with rfl | hlt
      · exact hpeer (AList.lookup_isSome.mp (by simp [hp]))
      · simp only [streamIdleEvict] at hlt hidle
        omega
    rw [retract_fst]
    exact (AList.lookup_erase_ne hne).trans hp
  · simp at hout

variable (decode : D → List UInt8 → D × DecodeResult F)

theorem setback_lastFrame (t : DecodeThread D) (peer : String) (now : Nat) (health : DecodeHealth) (n request rebuild : Nat) :
    (t.setback peer now health n request rebuild : DecodeThread D × List (ReceiverEvent F)).1.lastFrame = t.lastFrame := by
  obtain ⟨asked, hasked⟩ := ({ t with health := t.health.insert peer health } : DecodeThread D).requestKeyframeThrottled_fst (F := F)
    peer now keyframeRequestInterval
  simp only [setback]
  split <;> split <;> simp [hasked]

theorem decodeWith_lastFrame (t : DecodeThread D) (item : InboundFrame) (now : Nat) (decoder : D) :
    (t.decodeWith decode item now decoder).1.lastFrame = t.lastFrame := by
  simp only [decodeWith]
  cases (decode decoder item.encoded).2 with
  | picture frame => rfl
  | nothing => exact setback_lastFrame ..
  | failed => exact setback_lastFrame ..

theorem admitted_lastFrame (a : Arrival D) (hp : p ≠ a.item.peerId) :
    (t.admitted decode a).1.lastFrame.lookup p = t.lastFrame.lookup p := by
  obtain ⟨kept, _, ⟨hlast, _, _⟩, hcases⟩ := t.admitted_cases decode a
  rcases hcases with ⟨d, hd⟩ | ⟨_, _, hlost⟩
  · rw [hd, decodeWith_lastFrame, hlast, AList.lookup_insert_ne hp]
  · simp only [hlost, hlast]
    rw [AList.lookup_erase_ne hp, AList.lookup_insert_ne hp]

theorem admitted_own (a : Arrival D) (hmade : a.made.isSome) :
    (t.admitted decode a).1.lastFrame.lookup a.item.peerId = some a.now := by
  obtain ⟨kept, _, ⟨hlast, _, _⟩, hcases⟩ := t.admitted_cases decode a
  rcases hcases with ⟨d, hd⟩ | ⟨hnone, _⟩
  · rw [hd, decodeWith_lastFrame, hlast, AList.lookup_insert]
  · simp [hnone] at hmade

theorem claim_own {now : Nat} (hp : t.lastFrame.lookup p = some seen) :
    (t.claim p now : Option (DecodeThread D × List (ReceiverEvent F))) = some (t, []) := by
  have hmem : p ∈ t.lastFrame := AList.lookup_isSome.mp (by simp [hp])
  simp [claim, admitPeer, hmem]

/-- A frame leaves the slot of a stream that runs. -/
theorem receive_lastFrame (a : Arrival D) (hp : t.lastFrame.lookup p = some seen)
    (hown : a.item.peerId = p ∧ a.displayed → a.made.isSome)
    (hother : ¬ (a.item.peerId = p ∧ a.displayed) → a.now < seen + streamIdleEvict) :
    (t.receive decode a).1.lastFrame.lookup p = some (if a.item.peerId = p ∧ a.displayed then a.now else seen) := by
  simp only [receive]
  by_cases hshown : a.displayed
  · by_cases hpeer : a.item.peerId = p
    · subst hpeer
      rw [claim_own hp]
      simp [hshown, admitted_own decode a (hown ⟨rfl, hshown⟩)]
    · simp only [hshown, hpeer, false_and, Bool.not_true, Bool.false_eq_true, if_false]
      split
      · exact hp
      · next out hout =>
        rw [admitted_lastFrame decode a (Ne.symm hpeer)]
        exact claim_lastFrame hout hp (Or.inr (hother (by simp [hpeer])))
  · simp [hshown, hp]

end DecodeThread

/-- A stream that runs keeps its slot, however many others there are and whatever they send: after the turns the thread still knows
when the last of its frames came, so the next of them is decoded and takes no slot from anyone. -/
theorem live_stream_kept {D F : Type} (decode : D → List UInt8 → D × DecodeResult F) (p : String) (turns : List (Turn D))
    (t : DecodeThread D) (seen : Nat) (hp : t.lastFrame.lookup p = some seen) (hlive : Live p seen turns) :
    let later := turns.foldl (fun s i => (DecodeThread.turn decode s i).1) t
    later.lastFrame.lookup p = some (lastSeen p seen turns) ∧ ∀ now, admitPeer p later.lastFrame now = .decode := by
  intro later
  have hkept : later.lastFrame.lookup p = some (lastSeen p seen turns) := by
    simp only [later]
    clear later
    induction turns generalizing t seen with
    | nil => exact hp
    | cons i rest ih =>
      obtain ⟨hcontrol, hrest⟩ := hlive
      have hswept : ((t.drainControl i.control : DecodeThread D × List (ReceiverEvent F)).1.sweepStalls i.hasSink i.sweptAt :
          DecodeThread D × List (ReceiverEvent F)).1.lastFrame.lookup p = some seen := by
        rw [DecodeThread.sweepStalls_lastFrame, DecodeThread.drainControl_lastFrame hcontrol]
        exact hp
      cases hframe : i.frame with
      | none =>
        simp only [hframe] at hrest
        simp only [List.foldl_cons, lastSeen, hframe]
        refine ih _ seen ?_ hrest
        simp only [DecodeThread.turn, hframe, Option.elim_none]
        exact hswept
      | some a =>
        simp only [hframe] at hrest
        simp only [List.foldl_cons, lastSeen, hframe]
        by_cases hown : a.item.peerId = p ∧ a.displayed
        · rw [if_pos hown] at hrest ⊢
          refine ih _ a.now ?_ hrest.2
          have hframed := DecodeThread.receive_lastFrame decode a hswept (fun _ => hrest.1) (fun h => absurd hown h)
          rw [if_pos hown] at hframed
          simpa only [DecodeThread.turn, hframe, Option.elim_some] using hframed
        · rw [if_neg hown] at hrest ⊢
          refine ih _ seen ?_ hrest.2
          have hframed := DecodeThread.receive_lastFrame decode a hswept (fun h => absurd h hown) (fun _ => hrest.1)
          rw [if_neg hown] at hframed
          simpa only [DecodeThread.turn, hframe, Option.elim_some] using hframed
  refine ⟨hkept, fun now => ?_⟩
  have hmem : p ∈ later.lastFrame := AList.lookup_isSome.mp (by simp [hkept])
  simp [admitPeer, hmem]

namespace ReceiverSample

/-- A frame of a peer that is displayed and can be decoded. -/
def frameOf (peerId : String) (now : Nat) : Turn Unit :=
  ⟨[], fun _ => true, now, some ⟨⟨peerId, [], .h264, 0⟩, true, now, some ()⟩⟩

end ReceiverSample

/-- Frames of two other peers between those of one that runs. -/
theorem live_stream_kept_among_others :
    let t : DecodeThread Unit := { DecodeThread.new with lastFrame := (∅ : HashMap String Nat).insert "a" 0 }
    let turns := [ReceiverSample.frameOf "b" 1000000000, ReceiverSample.frameOf "a" 2000000000, ReceiverSample.frameOf "c" 4000000000]
    let later := turns.foldl (fun s i => (DecodeThread.turn (fun d _ => (d, (.nothing : DecodeResult Unit))) s i).1) t
    later.lastFrame.lookup "a" = some (lastSeen "a" 0 turns) ∧ ∀ now, admitPeer "a" later.lastFrame now = .decode := by
  refine live_stream_kept _ "a" _ _ 0 (AList.lookup_insert _) ?_
  simp [Live, ReceiverSample.frameOf, streamIdleEvict]

/-! ## The observer -/

/-- What an observer of a peer knows. -/
structure Watch where
  asked : Option Nat
  stalled : Bool

/-- How far apart the observer wants two requests. -/
def Watch.interval (slow : Nat) (w : Watch) : Nat := if w.stalled then slow else keyframeRequestInterval

/-- The peer is forgotten, or its slot is taken. -/
def ReceiverEvent.drops {F : Type} (p : String) : ReceiverEvent F → Bool
  | .blankPeer peer => peer = p
  | .blankAll => true
  | .evicted peer => peer = p
  | _ => false

def ReceiverEvent.requests {F : Type} (p : String) : ReceiverEvent F → Bool
  | .requestKeyframe peer _ => peer = p
  | _ => false

/-- The reports about the stream of a peer. -/
def stallReports {F : Type} (p : String) (events : List (ReceiverEvent F)) : List Bool :=
  events.filterMap fun
    | .reportStall peer stalled => if peer = p then some stalled else none
    | _ => none

section

variable {D F : Type}

/-- The observer of a peer, who wants requests about a stalled stream to be that far apart. -/
def watch (slow : Nat) (p : String) (w : Watch) : ReceiverEvent F → Option Watch
  | .requestKeyframe peer now =>
    if peer ≠ p then some w
    else if w.asked.all fun asked => decide (w.interval slow ≤ now - asked) then
      some { w with asked := some now }
    else none
  | .reportStall peer stalled => if peer ≠ p then some w else if stalled = w.stalled then none else some { w with stalled := stalled }
  | .blankPeer peer => some (if peer = p then { w with asked := none } else w)
  | .blankAll => some { w with asked := none }
  | .evicted peer => some (if peer = p then { w with asked := none } else w)
  | .decoded .. => some w

/-- What the maps say of a peer. -/
def DecodeThread.known (t : DecodeThread D) (p : String) : Watch := ⟨t.keyframeAsked.lookup p, (t.stalled.lookup p).isSome⟩

variable {slow : Nat} {p : String}

/-! ## What is read off an accepted list -/

/-- The reports alternate, and the last of them stands. -/
theorem watch_reports {w w' : Watch} {events : List (ReceiverEvent F)} (h : run (watch slow p) w events = some w') :
    (w.stalled :: stallReports p events).IsChain (· ≠ ·) ∧ w'.stalled = (stallReports p events).getLastD w.stalled := by
  induction events generalizing w with
  | nil =>
    obtain rfl : w = w' := by simpa [run] using h
    simp [stallReports]
  | cons e rest ih =>
    rw [run_cons] at h
    obtain ⟨w₁, h₁, h₂⟩ := Option.bind_eq_some_iff.mp h
    obtain ⟨hchain, hlast⟩ := ih h₂
    have hsame (hnone : stallReports p (e :: rest) = stallReports p rest) (hw : w₁.stalled = w.stalled) :
        (w.stalled :: stallReports p (e :: rest)).IsChain (· ≠ ·) ∧ w'.stalled = (stallReports p (e :: rest)).getLastD w.stalled := by
      rw [hnone, ← hw]
      exact ⟨hchain, hlast⟩
    cases e with
    | requestKeyframe peer now =>
      refine hsame rfl ?_
      simp only [watch] at h₁
      split at h₁
      · rw [← Option.some.inj h₁]
      · split at h₁
        · rw [← Option.some.inj h₁]
        · simp at h₁
    | reportStall peer stalled =>
      simp only [watch] at h₁
      split at h₁
      · next hne =>
        exact hsame (by simp [stallReports, hne]) (by rw [← Option.some.inj h₁])
      · next heq =>
        split at h₁
        · simp at h₁
        · next hchange =>
          have hhead : stallReports p (.reportStall peer stalled :: rest) = stalled :: stallReports p rest := by
            simp [stallReports, not_not.mp heq]
          obtain rfl := (Option.some.inj h₁).symm
          rw [hhead]
          refine ⟨List.isChain_cons_cons.mpr ⟨Ne.symm hchange, hchain⟩, ?_⟩
          rw [List.getLastD_cons]
          exact hlast
    | blankPeer peer =>
      refine hsame rfl ?_
      rw [← Option.some.inj h₁]
      split <;> rfl
    | blankAll =>
      refine hsame rfl ?_
      rw [← Option.some.inj h₁]
    | evicted peer =>
      refine hsame rfl ?_
      rw [← Option.some.inj h₁]
      split <;> rfl
    | decoded peer ptsUs frame =>
      refine hsame rfl ?_
      rw [← Option.some.inj h₁]

/-- Without a request and with the peer kept, the last request stands. -/
theorem watch_asked {w w' : Watch} {events : List (ReceiverEvent F)} (h : run (watch slow p) w events = some w')
    (hkept : ∀ e ∈ events, ¬ e.drops p ∧ ¬ e.requests p) : w'.asked = w.asked := by
  induction events generalizing w with
  | nil =>
    obtain rfl : w = w' := by simpa [run] using h
    rfl
  | cons e rest ih =>
    rw [run_cons] at h
    obtain ⟨w₁, h₁, h₂⟩ := Option.bind_eq_some_iff.mp h
    rw [ih h₂ fun e he => hkept e (List.mem_cons_of_mem _ he)]
    obtain ⟨hdrops, hrequests⟩ := hkept e List.mem_cons_self
    cases e with
    | requestKeyframe peer now => 
      have hne : peer ≠ p := by simpa [ReceiverEvent.requests] using hrequests
      simp only [watch, hne, ne_eq, not_false_eq_true, if_true, Option.some.injEq] at h₁
      rw [h₁]
    | reportStall peer stalled =>
      simp only [watch] at h₁
      split at h₁
      · rw [← Option.some.inj h₁]
      · split at h₁
        · simp at h₁
        · rw [← Option.some.inj h₁]
    | blankPeer peer =>
      have hne : peer ≠ p := by simpa [ReceiverEvent.drops] using hdrops
      simp only [watch, hne, if_false, Option.some.injEq] at h₁
      rw [h₁]
    | blankAll => simp [ReceiverEvent.drops] at hdrops
    | evicted peer =>
      have hne : peer ≠ p := by simpa [ReceiverEvent.drops] using hdrops
      simp only [watch, hne, if_false, Option.some.injEq] at h₁
      rw [h₁]
    | decoded peer ptsUs frame => rw [← Option.some.inj h₁]

/-- An accepted request comes the interval after the one before it. -/
theorem watch_request {w w' : Watch} {now asked : Nat} (h : watch slow p w (.requestKeyframe p now : ReceiverEvent F) = some w')
    (hasked : w.asked = some asked) : w.interval slow ≤ now - asked := by
  simp only [watch, ne_eq, not_true_eq_false, if_false, hasked, Option.all_some, decide_eq_true_eq] at h
  split at h
  · next hdue => exact hdue
  · simp at h

theorem watch_request_asked {w w' : Watch} {now : Nat} (h : watch slow p w (.requestKeyframe p now : ReceiverEvent F) = some w') :
    w'.asked = some now := by
  simp only [watch, ne_eq, not_true_eq_false, if_false] at h
  split at h
  · rw [← Option.some.inj h]
  · simp at h

/-! ## The thread is accepted -/

/-- The observer who knows what the maps said accepts the events, and then knows what the maps say. -/
def Shows (slow : Nat) (p : String) (t : DecodeThread D) (events : List (ReceiverEvent F)) (t' : DecodeThread D) : Prop :=
  run (watch slow p) (t.known p) events = some (t'.known p)

namespace Shows

variable {t t₁ t₂ : DecodeThread D} {l₁ l₂ : List (ReceiverEvent F)}

theorem append (h₁ : Shows slow p t l₁ t₁) (h₂ : Shows slow p t₁ l₂ t₂) : Shows slow p t (l₁ ++ l₂) t₂ := by
  rw [Shows, run_append, h₁]
  exact h₂

/-- Nothing is told, and nothing that the observer sees has changed. -/
theorem silent (h : t₁.known p = t.known p) : Shows slow p t ([] : List (ReceiverEvent F)) t₁ := by
  simp [Shows, run, h]

theorem requestKeyframeThrottled (t : DecodeThread D) (peer : String) (now : Nat) {interval : Nat}
    (hpace : keyframeRequestInterval ≤ interval) (hslow : p = peer → p ∈ t.stalled → slow ≤ interval) :
    Shows slow p t (t.requestKeyframeThrottled peer now interval : DecodeThread D × List (ReceiverEvent F)).2
      (t.requestKeyframeThrottled peer now interval : DecodeThread D × List (ReceiverEvent F)).1 := by
  simp only [DecodeThread.requestKeyframeThrottled]
  split
  · next hdue =>
    rw [Shows, run_cons]
    by_cases hpeer : peer = p
    · subst hpeer
      have hinterval : (t.known peer).interval slow ≤ interval := by
        cases hstalled : (t.known peer).stalled with
        | true =>
          rw [Watch.interval, if_pos hstalled]
          exact hslow rfl (AList.lookup_isSome.mp hstalled)
        | false =>
          rw [Watch.interval, if_neg (by simp [hstalled])]
          exact hpace
      have hall : ((t.known peer).asked.all fun asked => decide ((t.known peer).interval slow ≤ now - asked)) = true := by
        cases hasked : t.keyframeAsked.lookup peer with
        | none => simp [DecodeThread.known, hasked]
        | some asked =>
          simp only [hasked, Option.all_some, decide_eq_true_eq] at hdue
          simp only [DecodeThread.known, hasked, Option.all_some, decide_eq_true_eq]
          exact Nat.le_trans hinterval hdue
      simp only [watch, ne_eq, not_true_eq_false, if_false, hall, if_true, Option.bind_some]
      simp [run, DecodeThread.known]
    · simp only [watch, hpeer, ne_eq, not_false_eq_true, if_true, Option.bind_some]
      simp [run, DecodeThread.known, AList.lookup_insert_ne (Ne.symm hpeer)]
  · exact silent rfl

/-- The report of a peer that had one is taken back. -/
theorem run_retract (w : Watch) (stalled : HashMap String Unit) (peer : String) (h : w.stalled = (stalled.lookup p).isSome) :
    run (watch slow p) w (if peer ∈ stalled then [(.reportStall peer false : ReceiverEvent F)] else []) =
      some ⟨w.asked, ((stalled.erase peer).lookup p).isSome⟩ := by
  by_cases hpeer : peer = p
  · subst hpeer
    by_cases hstalled : peer ∈ stalled
    · have hw : w.stalled = true := h.trans (AList.lookup_isSome.mpr hstalled)
      simp [run, watch, hstalled, hw]
    · have hw : w.stalled = false := by
        rw [h, AList.lookup_eq_none.mpr hstalled]
        rfl
      simp only [hstalled, if_false, AList.lookup_erase, Option.isSome_none, run, List.foldlM_nil, ← hw]
      rfl
  · rw [AList.lookup_erase_ne (Ne.symm hpeer), ← h]
    split
    · simp [run, watch, hpeer]
    · rfl

theorem retract (t : DecodeThread D) (peer : String) :
    Shows slow p t (t.retract peer : DecodeThread D × List (ReceiverEvent F)).2
      (t.retract peer : DecodeThread D × List (ReceiverEvent F)).1 := by
  rw [DecodeThread.retract_fst, DecodeThread.retract_snd]
  exact run_retract (t.known p) t.stalled peer rfl

theorem sweepPeer (hasSink : String → Bool) (now : Nat) {acc : DecodeThread D × List (ReceiverEvent F)} {e : (_ : String) × Nat}
    (hle : slow ≤ stalledKeyframeInterval)
    (hquiet : slow ≤ keyframeRequestInterval ∨ (e.1 ∈ acc.1.stalled → stallReportAfter ≤ now - e.2))
    (h : Shows slow p t acc.2 acc.1) :
    Shows slow p t (DecodeThread.sweepPeer hasSink now acc e).2 (DecodeThread.sweepPeer hasSink now acc e).1 := by
  rcases DecodeThread.sweepPeer_cases hasSink now acc e with hskip | ⟨interval, hpace, hlong, hcases⟩
  · rw [hskip]
    exact h
  · have hasked : Shows slow p acc.1 (acc.1.requestKeyframeThrottled e.1 now interval : DecodeThread D × List (ReceiverEvent F)).2
        (acc.1.requestKeyframeThrottled e.1 now interval : DecodeThread D × List (ReceiverEvent F)).1 := by
      refine requestKeyframeThrottled (F := F) acc.1 e.1 now hpace fun hp hstalled => ?_
      rcases hquiet with hshort | hquiet
      · exact Nat.le_trans hshort hpace
      · rw [hlong (hquiet (hp ▸ hstalled))]
        exact hle
    rcases hcases with hask | ⟨_, hfresh, asked, hfst, hreport⟩
    · rw [hask]
      exact h.append hasked
    · rw [hreport]
      rw [hfst] at hasked
      refine h.append (hasked.append ?_)
      by_cases hpeer : e.1 = p
      · subst hpeer
        simp [Shows, run, watch, DecodeThread.known, AList.lookup_eq_none.mpr hfresh]
      · simp [Shows, run, watch, DecodeThread.known, hpeer, AList.lookup_insert_ne (Ne.symm hpeer)]

theorem sweepStalls {clock now : Nat} (hslots : Slots clock t) (hasSink : String → Bool) (hle : slow ≤ stalledKeyframeInterval)
    (hclock : slow ≤ keyframeRequestInterval ∨ clock ≤ now) :
    Shows slow p t (t.sweepStalls hasSink now : DecodeThread D × List (ReceiverEvent F)).2
      (t.sweepStalls hasSink now : DecodeThread D × List (ReceiverEvent F)).1 := by
  have hrec := t.sweepStalls_rec (F := F) (motive := fun acc => Slots (max clock now) acc.1 ∧ Shows slow p t acc.2 acc.1) hasSink now
    ⟨hslots.mono (Nat.le_max_left ..), silent rfl⟩ ?_
  · exact hrec.1.2
  rintro acc e he ⟨hacc, hshows⟩
  refine ⟨hacc.sweepPeer hasSink (Nat.le_max_right ..) he, hshows.sweepPeer hasSink now hle ?_⟩
  refine hclock.imp_right fun hlater hstalled => ?_
  obtain ⟨seen, hseen, hquiet⟩ := hacc.stalled e.1 hstalled
  obtain rfl : e.2 = seen := Option.some.inj (he.symm.trans hseen)
  rw [Nat.max_eq_right hlater] at hquiet
  omega

/-- Reports taken back for the peers that had one. -/
theorem run_drain (w : Watch) (stalled : HashMap String Unit) (h : w.stalled = (stalled.lookup p).isSome) :
    run (watch slow p) w (stalled.keys.map fun peer => (.reportStall peer false : ReceiverEvent F)) = some ⟨w.asked, false⟩ := by
  have hlist (keys : List String) (hkeys : keys.Nodup) (w : Watch) (h : w.stalled = decide (p ∈ keys)) :
      run (watch slow p) w (keys.map fun peer => (.reportStall peer false : ReceiverEvent F)) = some ⟨w.asked, false⟩ := by
    induction keys generalizing w with
    | nil =>
      have hw : w = ⟨w.asked, false⟩ := by rw [← (show w.stalled = false by simpa using h)]
      simp only [run, List.map_nil, List.foldlM_nil]
      exact congrArg some hw
    | cons peer rest ih =>
      obtain ⟨hnot, hrest⟩ := List.nodup_cons.mp hkeys
      rw [List.map_cons, run_cons]
      by_cases hpeer : peer = p
      · subst hpeer
        have hw : w.stalled = true := by simpa using h
        simp only [watch, ne_eq, not_true_eq_false, if_false, hw, Bool.false_eq_true, Option.bind_some]
        exact ih hrest _ (by simp [hnot])
      · simp only [watch, ne_eq, hpeer, not_false_eq_true, if_true, Option.bind_some]
        exact ih hrest w (by simpa [Ne.symm hpeer] using h)
  refine hlist stalled.keys stalled.keys_nodup w (h.trans ?_)
  rw [Bool.eq_iff_iff, AList.lookup_isSome, decide_eq_true_eq]
  exact AList.mem_keys

theorem drainControl (t : DecodeThread D) (control : List Control) :
    Shows slow p t (t.drainControl control : DecodeThread D × List (ReceiverEvent F)).2
      (t.drainControl control : DecodeThread D × List (ReceiverEvent F)).1 := by
  have hfold :
      let drained : DecodeThread.Drained D F := control.foldl DecodeThread.apply ⟨t, [], []⟩
      run (watch slow p) (t.known p) drained.reports =
          some ⟨(t.known p).asked, (drained.thread.stalled.lookup p).isSome⟩ ∧
        ∀ stalled, run (watch slow p) ⟨(t.known p).asked, stalled⟩ drained.blank =
          some ⟨drained.thread.keyframeAsked.lookup p, stalled⟩ := by
    refine List.foldlRecOn (motive := fun (acc : DecodeThread.Drained D F) =>
      run (watch slow p) (t.known p) acc.reports = some ⟨(t.known p).asked, (acc.thread.stalled.lookup p).isSome⟩ ∧
      ∀ stalled, run (watch slow p) ⟨(t.known p).asked, stalled⟩ acc.blank = some ⟨acc.thread.keyframeAsked.lookup p, stalled⟩)
      control _ ⟨by simp [run, DecodeThread.known], fun stalled => by simp [run, DecodeThread.known]⟩ ?_
    rintro acc ⟨hreports, hblank⟩ c _
    cases c with
    | forget peer =>
      simp only [DecodeThread.apply, DecodeThread.retract_fst, DecodeThread.retract_snd, DecodeThread.remove]
      refine ⟨?_, fun stalled => ?_⟩
      · rw [run_append, hreports, Option.bind_some]
        exact run_retract _ acc.thread.stalled peer rfl
      · rw [run_append, hblank, Option.bind_some, run_cons]
        by_cases hpeer : peer = p
        · subst hpeer
          simp [watch, run]
        · simp [watch, run, hpeer, AList.lookup_erase_ne (Ne.symm hpeer)]
    | forgetAll =>
      refine ⟨?_, fun stalled => ?_⟩
      · simp only [DecodeThread.apply]
        rw [run_append, hreports, Option.bind_some, run_drain _ _ rfl]
        simp [DecodeThread.new]
      · simp only [DecodeThread.apply]
        rw [run_append, hblank, Option.bind_some, run_cons]
        simp [watch, run, DecodeThread.new]
  rw [Shows, DecodeThread.drainControl, run_append, hfold.1, Option.bind_some, hfold.2]
  rfl

theorem claim {peer : String} {now : Nat} {out : DecodeThread D × List (ReceiverEvent F)} (hout : t.claim peer now = some out) :
    Shows slow p t out.2 out.1 := by
  simp only [DecodeThread.claim] at hout
  split at hout
  · obtain rfl : (t, []) = out := by simpa using hout
    exact silent rfl
  · next stale _ =>
    obtain rfl := (Option.some.inj hout).symm
    have hevicted : Shows slow p t [(.evicted stale : ReceiverEvent F)] (t.remove stale) := by
      by_cases hpeer : stale = p
      · subst hpeer
        simp [Shows, run, watch, DecodeThread.known, DecodeThread.remove]
      · simp [Shows, run, watch, DecodeThread.known, DecodeThread.remove, hpeer, AList.lookup_erase_ne (Ne.symm hpeer)]
    exact hevicted.append (retract (t.remove stale) stale)
  · simp at hout

theorem setback {peer : String} (hpeer : peer ∉ t.stalled) (now : Nat) (health : DecodeHealth) (n request rebuild : Nat) :
    Shows slow p t (t.setback peer now health n request rebuild : DecodeThread D × List (ReceiverEvent F)).2
      (t.setback peer now health n request rebuild : DecodeThread D × List (ReceiverEvent F)).1 := by
  have hcounted : Shows slow p t ([] : List (ReceiverEvent F)) { t with health := t.health.insert peer health } := silent rfl
  have hasked := hcounted.append (requestKeyframeThrottled (F := F)
    { t with health := t.health.insert peer health } peer now (Nat.le_refl keyframeRequestInterval)
    fun hp hstalled => absurd (hp ▸ hstalled) hpeer)
  simp only [DecodeThread.setback]
  split <;> split
  · exact hasked
  · exact silent rfl
  · exact hasked
  · exact silent rfl

theorem answered {item : InboundFrame} (hitem : item.peerId ∉ t.stalled) (now : Nat) (answer : DecodeResult F) :
    Shows slow p t (t.answered item now answer).2 (t.answered item now answer).1 := by
  cases answer with
  | picture frame => simp [Shows, DecodeThread.answered, run, watch, DecodeThread.known]
  | nothing => exact setback hitem now _ _ _ _
  | failed => exact setback hitem now _ _ _ _

variable (decode : D → List UInt8 → D × DecodeResult F)

theorem decodeWith {item : InboundFrame} (hitem : item.peerId ∉ t.stalled) (now : Nat) (decoder : D) :
    Shows slow p t (t.decodeWith decode item now decoder).2 (t.decodeWith decode item now decoder).1 :=
  answered (t := { t with decoders := t.decoders.insert item.peerId ⟨item.codec, (decode decoder item.encoded).1⟩ }) hitem now _

theorem admitted (t : DecodeThread D) (a : Arrival D) : Shows slow p t (t.admitted decode a).2 (t.admitted decode a).1 := by
  obtain ⟨kept, _, ⟨_, hstalled, hasked⟩, hcases⟩ := t.admitted_cases decode a
  have hreports : Shows slow p t (if a.item.peerId ∈ t.stalled then [(.reportStall a.item.peerId false : ReceiverEvent F)] else [])
      kept := by
    rw [Shows, DecodeThread.known, DecodeThread.known, hstalled, hasked]
    exact run_retract _ t.stalled a.item.peerId rfl
  rcases hcases with ⟨d, hd⟩ | ⟨_, _, hlost⟩
  · rw [hd]
    exact hreports.append (decodeWith decode (by simp [hstalled, AList.mem_erase]) a.now d)
  · rw [hlost]
    exact hreports

theorem receive (t : DecodeThread D) (a : Arrival D) : Shows slow p t (t.receive decode a).2 (t.receive decode a).1 := by
  simp only [DecodeThread.receive]
  split
  · exact silent rfl
  · split
    · exact silent rfl
    · next out hout => exact (claim hout).append (admitted decode out.1 a)

theorem turn {clock : Nat} {i : Turn D} (hslots : Slots clock t) (hle : slow ≤ stalledKeyframeInterval)
    (hclock : slow ≤ keyframeRequestInterval ∨ clock ≤ i.sweptAt) : Shows slow p t (t.turn decode i).2 (t.turn decode i).1 := by
  have hdrained : Shows slow p t (t.drainControl i.control : DecodeThread D × List (ReceiverEvent F)).2 _ := drainControl t i.control
  have hswept := hdrained.append (sweepStalls (F := F) (p := p) (hslots.drainControl i.control) i.hasSink hle hclock)
  simp only [DecodeThread.turn]
  cases i.frame with
  | none => simpa using hswept
  | some a => simpa using hswept.append (receive decode _ a)

/-- Over the loop, one that sweeps in the order of its instants or an observer that is content with the shorter interval. -/
theorem loop {turns : List (Turn D)} (hle : slow ≤ stalledKeyframeInterval)
    (horder : slow ≤ keyframeRequestInterval ∨ turns.Pairwise fun i j => i.sweptAt ≤ j.sweptAt) :
    Shows slow p DecodeThread.new (DecodeThread.loop decode turns).2 (DecodeThread.loop decode turns).1 := by
  induction turns using List.reverseRecOn with
  | nil => exact silent rfl
  | append_singleton turns i ih =>
    have hloop : DecodeThread.loop decode (turns ++ [i]) =
        (((DecodeThread.loop decode turns).1.turn decode i).1,
          (DecodeThread.loop decode turns).2 ++ ((DecodeThread.loop decode turns).1.turn decode i).2) := by
      simp [DecodeThread.loop]
    rw [hloop]
    refine (ih (horder.imp_right fun h => (List.pairwise_append.mp h).1)).append ?_
    rcases horder with hshort | horder
    · obtain ⟨clock, hclock⟩ := exists_clock turns
      exact turn decode (Slots.loop decode hclock) hle (Or.inl hshort)
    · have hclock : ∀ j ∈ turns, j.sweptAt ≤ i.sweptAt := fun j hj => (List.pairwise_append.mp horder).2.2 j hj i (by simp)
      exact turn decode (Slots.loop decode hclock) hle (Or.inr (Nat.le_refl _))

end Shows

end

/-- Over every run, what the user interface is told about the stream of a peer alternates between stalled and resumed, beginning with
stalled, however sweeps, frames, evictions and commands fall; and the stream is marked as stalled exactly when the last report said
so, so no report is left standing for a peer that is gone. -/
theorem stall_reports_alternate {D F : Type} (decode : D → List UInt8 → D × DecodeResult F) (turns : List (Turn D)) (p : String) :
    let out := DecodeThread.loop decode turns
    (false :: stallReports p out.2).IsChain (· ≠ ·) ∧ (p ∈ out.1.stalled ↔ (stallReports p out.2).getLastD false = true) := by
  intro out
  have hshows : Shows keyframeRequestInterval p DecodeThread.new out.2 out.1 :=
    Shows.loop decode (by simp [keyframeRequestInterval, stalledKeyframeInterval]) (Or.inl (Nat.le_refl _))
  obtain ⟨hchain, hlast⟩ := watch_reports hshows
  have hnew : ((DecodeThread.new : DecodeThread D).known p).stalled = false := by simp [DecodeThread.known, DecodeThread.new]
  rw [hnew] at hchain hlast
  exact ⟨hchain, by rw [← hlast]; exact AList.lookup_isSome.symm⟩

/-- Over every run whose sweeps are in order, two requests for a keyframe that go to one peer, with nothing between them that forgets
the peer, are at least a second apart; while the stream is reported as stalled they are at least five seconds apart. -/
theorem keyframe_requests_spaced {D F : Type} (decode : D → List UInt8 → D × DecodeResult F) (turns : List (Turn D))
    (horder : turns.Pairwise fun i j => i.sweptAt ≤ j.sweptAt) (p : String) (pre mid post : List (ReceiverEvent F)) (t₁ t₂ : Nat)
    (hevents : (DecodeThread.loop decode turns).2 = pre ++ .requestKeyframe p t₁ :: mid ++ .requestKeyframe p t₂ :: post)
    (hmid : ∀ e ∈ mid, ¬ e.drops p ∧ ¬ e.requests p) :
    (if (stallReports p (pre ++ mid)).getLastD false = true then stalledKeyframeInterval else keyframeRequestInterval) ≤ t₂ - t₁ := by
  have hshows : Shows stalledKeyframeInterval p DecodeThread.new (DecodeThread.loop decode turns).2 (DecodeThread.loop decode turns).1 :=
    Shows.loop decode (Nat.le_refl _) (Or.inr horder)
  rw [Shows, hevents, run_append] at hshows
  obtain ⟨w₂, hbefore, hafter⟩ := Option.bind_eq_some_iff.mp hshows
  have hreports := (watch_reports hbefore).2
  rw [run_append] at hbefore
  obtain ⟨w, _, hrest⟩ := Option.bind_eq_some_iff.mp hbefore
  rw [run_cons] at hrest
  obtain ⟨w₁, hfirst, hmiddle⟩ := Option.bind_eq_some_iff.mp hrest
  have hasked : w₂.asked = some t₁ := (watch_asked hmiddle hmid).trans (watch_request_asked hfirst)
  rw [run_cons] at hafter
  obtain ⟨w₃, hsecond, _⟩ := Option.bind_eq_some_iff.mp hafter
  have hdue := watch_request hsecond hasked
  have hsame : stallReports p (pre ++ .requestKeyframe p t₁ :: mid) = stallReports p (pre ++ mid) := by simp [stallReports]
  have hnew : ((DecodeThread.new : DecodeThread D).known p).stalled = false := by simp [DecodeThread.known, DecodeThread.new]
  rw [hsame, hnew] at hreports
  rw [Watch.interval, hreports] at hdue
  exact hdue

/-- A stream that stops at once is asked for a keyframe after two seconds, and again a second later. -/
theorem keyframe_requests_spaced_sweeps :
    (if (stallReports "a" ([] ++ [] : List (ReceiverEvent Unit))).getLastD false = true then stalledKeyframeInterval
      else keyframeRequestInterval) ≤ 3000000000 - 2000000000 := by
  refine keyframe_requests_spaced (fun d _ => (d, (.nothing : DecodeResult Unit)))
    [ReceiverSample.frameOf "a" 0, ⟨[], fun _ => true, 2000000000, none⟩, ⟨[], fun _ => true, 3000000000, none⟩]
    (by simp [ReceiverSample.frameOf]) "a" [] [] [] 2000000000 3000000000 ?_ (by simp)
  rfl

end DoubleSlash.Video
