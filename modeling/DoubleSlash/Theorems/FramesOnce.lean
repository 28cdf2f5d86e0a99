import DoubleSlash.Theorems.FrameSplicing

/-!
# How often a frame is returned

A frame that was returned is known by its number alone, and only as the newest one or as one that is behind it. The chunks of a second
frame of the same number have all arrived after the first was returned.
-/

namespace DoubleSlash.Video

open Assoc SenderState

/-- The call at this place returns this frame. -/
def Returns (ops : List Op) (pos : Nat) (sender : String) (seq : UInt32) : Prop :=
  ∃ op f, ops[pos]? = some op ∧ ((after (ops.take pos)).step op).2 = some f ∧ f.sender = sender ∧ f.frameSeq = seq

/-- At this place a fragment of this frame arrives, and the number of the frame is one or two behind the newest completed one, or ahead
of it. -/
def Arrives (ops : List Op) (pos : Nat) (sender : String) (seq : UInt32) (idx count : Nat) : Prop :=
  ∃ hdr chunk last, Pushed ops pos hdr chunk ∧ hdr.sender = sender ∧ hdr.frameSeq = seq ∧ hdr.fragIdx = idx ∧ hdr.fragCount = count ∧
    (after (ops.take pos)).lastCompleted sender = some last ∧ Passes last seq

/-- Nothing is cleared, and the sender's stream does not restart. -/
structure GoesOn (ops : List Op) (sender : String) : Prop where
  cleared : ∀ pos : Nat, ops[pos]? ≠ some Op.clear
  restarted : ∀ (pos : Nat) order buf now, ops[pos]? = some (.push order buf now) →
    (after (ops.take pos)).restartedBy buf now ≠ some sender

namespace FramesOnceAux

open FrameSplicingAux

/-! ## One fragment -/

variable {s s' : SenderState} {order : IterOrder} {hdr : FragmentHeader} {chunk : List UInt8} {now : Nat}
  {out : Option ReassembledFrame}

theorem opened_slot (hdr : FragmentHeader) (now i : Nat) : ((opened hdr now).chunks[i]?.join).isSome = false := by
  by_cases hi : i < hdr.fragCount <;> simp [opened, hi]

/-- A chunk that a partial frame holds is the fragment's own, or was there. -/
theorem slot_accept (h : s.accept order hdr chunk now = (s', out)) {seq : UInt32} {q : PartialFrame}
    (hq : s'.partials.lookup seq = some q) {i : Nat} (hi : (q.chunks[i]?.join).isSome = true) :
    (seq = hdr.frameSeq ∧ i = hdr.fragIdx ∧ q.chunks.length = hdr.fragCount ∧ (s.screen hdr).isSome = true) ∨
      ∃ p, s.partials.lookup seq = some p ∧ p.chunks.length = q.chunks.length ∧ (p.chunks[i]?.join).isSome = true := by
  rcases accept_cases h with ⟨-, rfl, -⟩ | ⟨s₁, hscreen, houtcome⟩
  · exact Or.inr ⟨q, hq, rfl, hi⟩
  · have hold : ∀ p, s₁.partials.lookup seq = some p → s.partials.lookup seq = some p := by
      intro p hp
      rcases screen_cases hscreen with ⟨rfl, -⟩ | hempty
      · exact hp
      · rw [hempty] at hp
        cases hp
    rcases houtcome.entries seq q hq with hfound | ⟨rfl, rfl | ⟨p, hfiles, rfl⟩⟩
    · exact Or.inr ⟨q, hold q hfound, rfl, hi⟩
    · exact Bool.noConfusion ((opened_slot hdr now i).symm.trans hi)
    · have hlength : (fill p hdr chunk).chunks.length = p.chunks.length := List.length_set ..
      by_cases hidx : i = hdr.fragIdx
      · exact Or.inl ⟨rfl, hidx, hlength.trans hfiles.count, by rw [hscreen]; rfl⟩
      · have hkept : (fill p hdr chunk).chunks[i]? = p.chunks[i]? := List.getElem?_set_ne (Ne.symm hidx)
        rw [hkept] at hi
        rcases hfiles.found with hfound | rfl
        · exact Or.inr ⟨p, hold p hfound, hlength.symm, hi⟩
        · exact Bool.noConfusion ((opened_slot hdr now i).symm.trans hi)

/-- A frame that is returned has all its chunks: the fragment's own, and those that were there. -/
theorem chunks_accept (h : s.accept order hdr chunk now = (s', out)) {f : ReassembledFrame} (hf : out = some f) :
    (s.screen hdr).isSome = true ∧ ∀ i < hdr.fragCount, i = hdr.fragIdx ∨
      ∃ p, s.partials.lookup hdr.frameSeq = some p ∧ p.chunks.length = hdr.fragCount ∧ (p.chunks[i]?.join).isSome = true := by
  rcases accept_cases h with ⟨-, -, rfl⟩ | ⟨s₁, hscreen, houtcome⟩
  · cases hf
  · obtain ⟨p, hfiles, -, -, -, -, -, -, chunks, hchunks, -⟩ := houtcome.frame f hf
    refine ⟨by rw [hscreen]; rfl, fun i hi => or_iff_not_imp_left.mpr fun hidx => ?_⟩
    have hkept : (fill p hdr chunk).chunks[i]? = p.chunks[i]? := List.getElem?_set_ne (Ne.symm hidx)
    have hslot : (p.chunks[i]?.join).isSome = true := by
      have hlt : i < chunks.length := by
        have hlength := congrArg List.length (map_some_of_mapM hchunks)
        rw [List.length_map] at hlength
        rw [← hlength]
        exact lt_of_lt_of_eq hi (hfiles.count.symm.trans (List.length_set ..).symm)
      rw [← hkept, map_some_of_mapM hchunks, List.getElem?_map, List.getElem?_eq_getElem hlt]
      rfl
    rcases hfiles.found with hfound | rfl
    · refine ⟨p, ?_, hfiles.count, hslot⟩
      rcases screen_cases hscreen with ⟨rfl, -⟩ | hempty
      · exact hfound
      · rw [hempty] at hfound
        cases hfound
    · exact Bool.noConfusion ((opened_slot hdr now i).symm.trans hslot)

/-! ## The invariant -/

/-- The fragment passed the check of its number. -/
def Admitted (ops : List Op) (pos : Nat) (sender : String) (seq : UInt32) (idx count : Nat) : Prop :=
  ∃ order buf now hdr chunk, ops[pos]? = some (.push order buf now) ∧ parseFragment buf = some (hdr, chunk) ∧ hdr.sender = sender ∧
    hdr.frameSeq = seq ∧ hdr.fragIdx = idx ∧ hdr.fragCount = count ∧
    ((((after (ops.take pos)).evictExpired now).senders.lookup sender).getD SenderState.default |>.screen hdr).isSome = true

/-- A fragment of this frame has arrived since the frame was last returned. -/
def Since (ops : List Op) (sender : String) (seq : UInt32) (idx count : Nat) : Prop :=
  ∃ pos, (∀ j, Returns ops j sender seq → j < pos) ∧ Admitted ops pos sender seq idx count

/-- Every chunk that a partial frame holds has arrived since a frame of its number was last returned. -/
def Renewed (ops : List Op) : Prop :=
  ∀ sender s seq p, (after ops).senders.lookup sender = some s → s.partials.lookup seq = some p →
    ∀ i, (p.chunks[i]?.join).isSome = true → Since ops sender seq i p.chunks.length

theorem take_append_of_le {ops : List Op} {op : Op} {pos : Nat} (h : pos ≤ ops.length) : (ops ++ [op]).take pos = ops.take pos :=
  List.take_append_of_le_length h

theorem admitted_append {ops : List Op} {op : Op} {pos : Nat} {sender : String} {seq : UInt32} {idx count : Nat}
    (h : Admitted ops pos sender seq idx count) : Admitted (ops ++ [op]) pos sender seq idx count := by
  obtain ⟨order, buf, now, hdr, chunk, hat, hrest⟩ := h
  have hlt : pos < ops.length := (List.getElem?_eq_some_iff.mp hat).1
  refine ⟨order, buf, now, hdr, chunk, ?_, ?_⟩
  · rwa [List.getElem?_append_left hlt]
  · rwa [take_append_of_le hlt.le]

theorem returns_append {ops : List Op} {op : Op} {pos : Nat} {sender : String} {seq : UInt32}
    (h : Returns (ops ++ [op]) pos sender seq) :
    Returns ops pos sender seq ∨
      pos = ops.length ∧ ∃ f, ((after ops).step op).2 = some f ∧ f.sender = sender ∧ f.frameSeq = seq := by
  obtain ⟨op', f, hat, hf, hsender, hseq⟩ := h
  rcases getElem?_concat_cases hat with ⟨hlt, hat⟩ | ⟨rfl, rfl⟩
  · rw [take_append_of_le hlt.le] at hf
    exact Or.inl ⟨op', f, hat, hf, hsender, hseq⟩
  · rw [take_append_of_le le_rfl, List.take_length] at hf
    exact Or.inr ⟨rfl, f, hf, hsender, hseq⟩

/-- What has arrived since stays so in a call that does not return the frame. -/
theorem since_append {ops : List Op} {op : Op} {sender : String} {seq : UInt32} {idx count : Nat} (h : Since ops sender seq idx count)
    (hnot : ∀ f, ((after ops).step op).2 = some f → f.sender = sender → f.frameSeq ≠ seq) :
    Since (ops ++ [op]) sender seq idx count := by
  obtain ⟨pos, hlater, hadmitted⟩ := h
  refine ⟨pos, fun j hj => ?_, admitted_append hadmitted⟩
  rcases returns_append hj with hj | ⟨-, f, hf, hsender, hseq⟩
  · exact hlater j hj
  · exact absurd hseq (hnot f hf hsender)

/-- A fragment that has just arrived. -/
theorem since_now {ops : List Op} {order : IterOrder} {buf : List UInt8} {now : Nat} (hparse : parseFragment buf = some (hdr, chunk))
    (hscreen : ((((after ops).evictExpired now).senders.lookup hdr.sender).getD SenderState.default |>.screen hdr).isSome = true)
    (hnot : ∀ f, ((after ops).step (.push order buf now)).2 = some f → f.sender = hdr.sender → f.frameSeq ≠ hdr.frameSeq) :
    Since (ops ++ [.push order buf now]) hdr.sender hdr.frameSeq hdr.fragIdx hdr.fragCount := by
  refine ⟨ops.length, fun j hj => ?_, order, buf, now, hdr, chunk, ?_, hparse, rfl, rfl, rfl, rfl, ?_⟩
  · rcases returns_append hj with ⟨op, f, hat, -⟩ | ⟨-, f, hf, hsender, hseq⟩
    · exact (List.getElem?_eq_some_iff.mp hat).1
    · exact absurd hseq (hnot f hf hsender)
  · rw [List.getElem?_append_right le_rfl, Nat.sub_self]
    rfl
  · rwa [take_append_of_le le_rfl, List.take_length]

/-! ## One call -/

/-- What is held after dropping what has expired was held before. -/
theorem renewed_evict {ops : List Op} {now : Nat} (h : Renewed ops) {sender : String} {s : SenderState} {seq : UInt32}
    {p : PartialFrame} (hs : ((after ops).evictExpired now).senders.lookup sender = some s) (hp : s.partials.lookup seq = some p)
    {i : Nat} (hi : (p.chunks[i]?.join).isSome = true) : Since ops sender seq i p.chunks.length := by
  obtain ⟨s₀, hs₀, hshrinks⟩ := lookup_evict hs
  exact h sender s₀ seq p hs₀ (hshrinks seq p hp) i hi

/-- The same, of the state in which a fragment finds its sender. -/
theorem renewed_state {ops : List Op} {now : Nat} (h : Renewed ops) {sender : String} {seq : UInt32} {p : PartialFrame}
    (hp : (((((after ops).evictExpired now).senders.lookup sender).getD SenderState.default).partials.lookup seq) = some p)
    {i : Nat} (hi : (p.chunks[i]?.join).isSome = true) : Since ops sender seq i p.chunks.length := by
  cases hs : ((after ops).evictExpired now).senders.lookup sender with
  | none =>
    rw [hs] at hp
    cases hp
  | some s =>
    rw [hs] at hp
    exact renewed_evict h hs hp hi

theorem renewed_push {ops : List Op} (h : Renewed ops) (order : IterOrder) (buf : List UInt8) (now : Nat) :
    Renewed (ops ++ [.push order buf now]) := by
  intro sender s seq p hs hp i hi
  rw [after_concat] at hs
  have hsound := Reassembler.sound_evictExpired (Reassembler.sound_after ops) now
  rcases Reassembler.push_cases (after ops) order buf now with ⟨hnone, hstate⟩ | ⟨hdr, chunk, hparse, heq⟩
  · have hold : Since ops sender seq i p.chunks.length := by
      rcases hstate with hstate | hstate
      · rw [Reassembler.step, hstate] at hs
        exact h sender s seq p hs hp i hi
      · rw [Reassembler.step, hstate] at hs
        exact renewed_evict h hs hp hi
    exact since_append hold fun f hf => by rw [Reassembler.step, hnone] at hf; cases hf
  · generalize haccept : ((((after ops).evictExpired now).senders.lookup hdr.sender).getD SenderState.default).accept order hdr chunk
      now = accepted at heq
    obtain ⟨s', out⟩ := accepted
    have hout : ((after ops).step (.push order buf now)).2 = out := congrArg Prod.snd heq
    have hreturned : ∀ f, out = some f → Returned hdr s' f := by
      intro f hf
      have hret := returned_accept (Reassembler.sound_lookup hsound hdr.sender) order (checked_of_parse hparse) chunk now
        ((congrArg Prod.snd haccept).trans hf)
      rwa [haccept] at hret
    have hs₁ : ((after ops).evictExpired now).senders.insert hdr.sender s' = (((after ops).push order buf now).1).senders := by
      rw [heq]
    rw [Reassembler.step, ← hs₁] at hs
    by_cases hsender : sender = hdr.sender
    · subst hsender
      obtain rfl := Option.some.inj ((AList.lookup_insert _).symm.trans hs)
      have hnot : ∀ f, ((after ops).step (.push order buf now)).2 = some f → f.sender = hdr.sender → f.frameSeq ≠ seq := by
        rintro f hf - rfl
        have hret := hreturned f (hout.symm.trans hf)
        rw [hret.frameSeq, hret.gone] at hp
        cases hp
      rcases slot_accept haccept hp hi with ⟨rfl, rfl, hlength, hscreen⟩ | ⟨p', hp', hlength, hslot⟩
      · rw [hlength]
        exact since_now hparse hscreen hnot
      · rw [← hlength]
        exact since_append (renewed_state h hp' hslot) hnot
    · rw [AList.lookup_insert_ne hsender] at hs
      refine since_append (renewed_evict h hs hp hi) fun f hf hown => ?_
      exact absurd (hown.symm.trans (hreturned f (hout.symm.trans hf)).sender) hsender

theorem renewed_after (ops : List Op) : Renewed ops := by
  induction ops using List.reverseRecOn with
  | nil =>
    intro sender s seq p hs
    cases hs
  | append_singleton ops op ih =>
    cases op with
    | push order buf now => exact renewed_push ih order buf now
    | evictExpired now =>
      intro sender s seq p hs hp i hi
      rw [after_concat] at hs
      exact since_append (renewed_evict ih hs hp hi) fun f hf => by cases hf
    | clear =>
      intro sender s seq p hs
      rw [after_concat] at hs
      cases hs

/-! ## A frame that is returned again -/

theorem admitted_of_take {ops : List Op} {k pos : Nat} {sender : String} {seq : UInt32} {idx count : Nat}
    (h : Admitted (ops.take k) pos sender seq idx count) : Admitted ops pos sender seq idx count := by
  obtain ⟨order, buf, now, hdr, chunk, hat, hparse, hsender, hseq, hidx, hcount, hscreen⟩ := h
  have hlt : pos < k := lt_of_lt_of_le (List.getElem?_eq_some_iff.mp hat).1 (List.length_take_le k ops)
  rw [List.getElem?_take_of_lt hlt] at hat
  rw [List.take_take, min_eq_left hlt.le] at hscreen
  exact ⟨order, buf, now, hdr, chunk, hat, hparse, hsender, hseq, hidx, hcount, hscreen⟩

theorem returns_take {ops : List Op} {j k : Nat} {sender : String} {seq : UInt32} (hlt : j < k) (h : Returns ops j sender seq) :
    Returns (ops.take k) j sender seq := by
  obtain ⟨op, f, hat, hf, hrest⟩ := h
  refine ⟨op, f, ?_, ?_, hrest⟩
  · rwa [List.getElem?_take_of_lt hlt]
  · rwa [List.take_take, min_eq_left hlt.le]

/-- All chunks of a returned frame have arrived since a frame of its number was returned before. -/
theorem since_of_returns {ops : List Op} {k : Nat} {sender : String} {seq : UInt32} (h : Returns ops k sender seq) :
    ∃ count, 0 < count ∧ ∀ i < count, ∃ pos, (∀ j < k, Returns ops j sender seq → j < pos) ∧ Admitted ops pos sender seq i count := by
  obtain ⟨op, f, hat, hf, rfl, rfl⟩ := h
  cases op with
  | evictExpired now => cases hf
  | clear => cases hf
  | push order buf now =>
    rcases Reassembler.push_cases (after (ops.take k)) order buf now with ⟨hnone, -⟩ | ⟨hdr, chunk, hparse, heq⟩
    · rw [Reassembler.step, hnone] at hf
      cases hf
    · have hsound := Reassembler.sound_evictExpired (Reassembler.sound_after (ops.take k)) now
      have hout := (congrArg Prod.snd heq).symm.trans hf
      have hret := returned_accept (Reassembler.sound_lookup hsound hdr.sender) order (checked_of_parse hparse) chunk now hout
      obtain ⟨hscreen, hchunks⟩ := chunks_accept rfl hout
      refine ⟨hdr.fragCount, (checked_of_parse hparse).some, fun i hi => ?_⟩
      rw [hret.sender, hret.frameSeq]
      rcases hchunks i hi with rfl | ⟨p, hp, hlength, hslot⟩
      · exact ⟨k, fun j hj _ => hj, order, buf, now, hdr, chunk, hat, hparse, rfl, rfl, rfl, rfl, hscreen⟩
      · obtain ⟨pos, hlater, hadmitted⟩ := renewed_state (renewed_after (ops.take k)) hp hslot
        refine ⟨pos, fun j hj hreturns => hlater j (returns_take hj hreturns), ?_⟩
        rw [← hlength]
        exact admitted_of_take hadmitted

/-! ## The history of a sender -/

/-- A fragment that is admitted against the number of the newest frame restarts the stream. -/
theorem restartedBy_of_late {r : Reassembler} {buf : List UInt8} {last : UInt32} (hparse : parseFragment buf = some (hdr, chunk))
    (hlast : r.lastCompleted hdr.sender = some last) (hlate : ¬Passes last hdr.frameSeq) (hrestart : isStreamRestart last hdr = true) :
    r.restartedBy buf now = some hdr.sender := by
  have hguard : (seqNewer (last - monotonicLag) hdr.frameSeq || decide (hdr.frameSeq = last)) = true :=
    Bool.of_not_eq_false fun hfalse => hlate (passes_iff.mp hfalse)
  rw [← Reassembler.lastCompleted_evictExpired r now, Reassembler.lastCompleted] at hlast
  unfold Reassembler.restartedBy
  rw [hparse]
  simp only [Option.bind_eq_bind, Option.bind_some, hlast]
  rw [hguard, hrestart]
  rfl

/-- Without a restart a fragment is admitted as its number says. -/
theorem screen_of_history {r : Reassembler} {buf : List UInt8} {last : UInt32} (hparse : parseFragment buf = some (hdr, chunk))
    (hlast : r.lastCompleted hdr.sender = some last) (hgoes : r.restartedBy buf now ≠ some hdr.sender) :
    (Passes last hdr.frameSeq ∧
      (((r.evictExpired now).senders.lookup hdr.sender).getD SenderState.default).screen hdr =
        some (((r.evictExpired now).senders.lookup hdr.sender).getD SenderState.default)) ∨
    (((r.evictExpired now).senders.lookup hdr.sender).getD SenderState.default).screen hdr = none := by
  have hstate := (Reassembler.lastCompleted_state r now hdr.sender).trans hlast
  by_cases hpasses : Passes last hdr.frameSeq
  · exact Or.inl ⟨hpasses, screen_of_passes hstate hpasses⟩
  · right
    rw [screen_of_late hstate hpasses, if_neg]
    exact fun hrestart => hgoes (restartedBy_of_late hparse hlast hpasses hrestart)

/-- The history of a sender lasts while nothing is cleared and its stream does not restart. -/
theorem history_step {r : Reassembler} (hr : r.Sound) {op : Op} {sender : String} (h : (r.lastCompleted sender).isSome = true)
    (hclear : op ≠ .clear) (hgoes : ∀ order buf now, op = .push order buf now → r.restartedBy buf now ≠ some sender) :
    ((r.step op).1.lastCompleted sender).isSome = true := by
  cases op with
  | clear => exact absurd rfl hclear
  | evictExpired now =>
    rw [Reassembler.step, Reassembler.lastCompleted_evictExpired]
    exact h
  | push order buf now =>
    rcases Reassembler.push_cases r order buf now with ⟨-, hstate | hstate⟩ | ⟨hdr, chunk, hparse, heq⟩
    · rw [Reassembler.step, hstate]
      exact h
    · rw [Reassembler.step, hstate, Reassembler.lastCompleted_evictExpired]
      exact h
    · rw [Reassembler.step, heq]
      by_cases hsender : sender = hdr.sender
      · subst hsender
        obtain ⟨last, hlast⟩ := Option.isSome_iff_exists.mp h
        have hstate := (Reassembler.lastCompleted_state r now hdr.sender).trans hlast
        have hsound := Reassembler.sound_lookup (Reassembler.sound_evictExpired hr now) hdr.sender
        rw [Reassembler.lastCompleted, AList.lookup_insert, Option.bind_some]
        rcases screen_of_history hparse hlast (hgoes order buf now rfl) with ⟨-, hscreen⟩ | hscreen
        · exact history_accept hsound order (checked_of_parse hparse) chunk now hscreen (by rw [hstate]; rfl)
        · rw [accept_of_screen_none hscreen, hstate]
          rfl
      · rw [Reassembler.lastCompleted, AList.lookup_insert_ne hsender]
        rw [← Reassembler.lastCompleted_evictExpired r now] at h
        exact h

/-- A sender has a history from the first frame that is returned. -/
theorem history_of_returns {r : Reassembler} (hr : r.Sound) {op : Op} {f : ReassembledFrame} (hf : (r.step op).2 = some f) :
    ((r.step op).1.lastCompleted f.sender).isSome = true := by
  cases op with
  | evictExpired now => cases hf
  | clear => cases hf
  | push order buf now =>
    rcases Reassembler.push_cases r order buf now with ⟨hnone, -⟩ | ⟨hdr, chunk, hparse, heq⟩
    · rw [Reassembler.step, hnone] at hf
      cases hf
    · have hsound := Reassembler.sound_lookup (Reassembler.sound_evictExpired hr now) hdr.sender
      have hret := returned_accept hsound order (checked_of_parse hparse) chunk now ((congrArg Prod.snd heq).symm.trans hf)
      rw [Reassembler.step, heq, hret.sender, Reassembler.lastCompleted, AList.lookup_insert, Option.bind_some]
      exact hret.history

theorem after_take_succ {ops : List Op} {pos : Nat} {op : Op} (h : ops[pos]? = some op) :
    after (ops.take (pos + 1)) = ((after (ops.take pos)).step op).1 := by
  rw [List.take_add_one, h, Option.toList_some, after_concat]

theorem history_after {ops : List Op} {sender : String} (h : GoesOn ops sender) {j : Nat} {seq : UInt32}
    (hj : Returns ops j sender seq) {pos : Nat} (hpos : j < pos) (hle : pos ≤ ops.length) :
    ((after (ops.take pos)).lastCompleted sender).isSome = true := by
  induction pos, hpos using Nat.le_induction with
  | base =>
    obtain ⟨op, f, hat, hf, rfl, -⟩ := hj
    rw [after_take_succ hat]
    exact history_of_returns (Reassembler.sound_after _) hf
  | succ pos hpos ih =>
    have hat : ops[pos]? = some ops[pos] := List.getElem?_eq_getElem hle
    rw [after_take_succ hat]
    exact history_step (Reassembler.sound_after _) (ih (Nat.le_of_succ_le hle)) (fun hop => h.cleared pos (hat.trans (congrArg some hop)))
      fun order buf now hop => h.restarted pos order buf now (hat.trans (congrArg some hop))

/-- What is admitted of a frame that was returned has a number that still passes. -/
theorem arrives_of_admitted {ops : List Op} {sender : String} (h : GoesOn ops sender) {j pos : Nat} {seq : UInt32} {idx count : Nat}
    (hj : Returns ops j sender seq) (hpos : j < pos) (hadmitted : Admitted ops pos sender seq idx count) :
    Arrives ops pos sender seq idx count := by
  obtain ⟨order, buf, now, hdr, chunk, hat, hparse, rfl, rfl, hidx, hcount, hscreen⟩ := hadmitted
  have hlt : pos < ops.length := (List.getElem?_eq_some_iff.mp hat).1
  obtain ⟨last, hlast⟩ := Option.isSome_iff_exists.mp (history_after h hj hpos hlt.le)
  rcases screen_of_history hparse hlast (h.restarted pos order buf now hat) with ⟨hpasses, -⟩ | hnone
  · exact ⟨hdr, chunk, last, ⟨order, buf, now, hat, hparse⟩, rfl, rfl, hidx, hcount, hlast, hpasses⟩
  · rw [hnone] at hscreen
    cases hscreen

end FramesOnceAux

open FramesOnceAux

/-- **A frame is returned once, unless all of it arrives again in time.** In every sequence of calls without a clear and without a
restart of the sender's stream, in which no frame that was returned has all its fragments arrive again while its number is one or two
behind the newest completed one, or ahead of it. -/
theorem returned_once {ops : List Op} {sender : String} (hgoes : GoesOn ops sender)
    (hlate : ∀ seq j, Returns ops j sender seq → ∀ count, 0 < count → ¬∀ i < count, ∃ pos, j < pos ∧ Arrives ops pos sender seq i count) :
    ∀ seq j k, Returns ops j sender seq → Returns ops k sender seq → j = k := by
  have honce : ∀ seq j k, Returns ops j sender seq → Returns ops k sender seq → ¬j < k := by
    intro seq j k hj hk hlt
    obtain ⟨count, hcount, hchunks⟩ := since_of_returns hk
    refine hlate seq j hj count hcount fun i hi => ?_
    obtain ⟨pos, hlater, hadmitted⟩ := hchunks i hi
    exact ⟨pos, hlater j hlt hj, arrives_of_admitted hgoes hj (hlater j hlt hj) hadmitted⟩
  intro seq j k hj hk
  rcases Nat.lt_trichotomy j k with hlt | heq | hlt
  · exact absurd hlt (honce seq j k hj hk)
  · exact heq
  · exact absurd hlt (honce seq k j hk hj)

namespace FramesOnceAux

open FrameSplicingAux

theorem length_sevens : (List.replicate 64 (7 : UInt8)).length = signatureLen := rfl

/-- A frame of one fragment. -/
def singleFragment (seq : UInt32) : List UInt8 := fragmentBytes "a" seq false .h264 5 ⟨List.replicate 64 7, length_sevens⟩ 0 1 [1]

/-- Its header. -/
def singleHeader (seq : UInt32) : FragmentHeader where
  keyframe := false
  codec := .h264
  ptsUs := 5
  sender := "a"
  frameSeq := seq
  fragIdx := 0
  fragCount := 1
  signature := some ⟨List.replicate 64 7, length_sevens⟩

theorem singleFragment_parse (seq : UInt32) : parseFragment (singleFragment seq) = some (singleHeader seq, [1]) :=
  FragmentsAux.parseFragment_fragmentBytes seq false .h264 5 ⟨List.replicate 64 7, length_sevens⟩ [1] (by decide) (by decide) (by decide)
    (by decide)

/-- Frames pushed one after another. -/
def singlePushes (seqs : List UInt32) : List Op := seqs.map fun seq => .push sampleOrder (singleFragment seq) 0

theorem singlePushes_at {seqs : List UInt32} {pos : Nat} {op : Op} (h : (singlePushes seqs)[pos]? = some op) :
    ∃ seq, seqs[pos]? = some seq ∧ op = .push sampleOrder (singleFragment seq) 0 := by
  rw [singlePushes, List.getElem?_map] at h
  obtain ⟨seq, hseq, rfl⟩ := Option.map_eq_some_iff.mp h
  exact ⟨seq, hseq, rfl⟩

/-- No frame that is not a keyframe restarts a stream. -/
theorem goesOn_singlePushes (seqs : List UInt32) (sender : String) : GoesOn (singlePushes seqs) sender where
  cleared := by
    intro pos h
    obtain ⟨seq, -, hop⟩ := singlePushes_at h
    cases hop
  restarted := by
    intro pos order buf now h hrestart
    obtain ⟨seq, -, hop⟩ := singlePushes_at h
    cases hop
    unfold Reassembler.restartedBy at hrestart
    rw [singleFragment_parse] at hrestart
    simp only [Option.bind_eq_bind, Option.bind_some] at hrestart
    obtain ⟨last, -, hrestart⟩ := Option.bind_eq_some_iff.mp hrestart
    have hinter : isStreamRestart last (singleHeader seq) = false := rfl
    simp only [hinter, Bool.and_false] at hrestart
    cases hrestart

theorem returns_of_check {seqs : List UInt32} {pos : Nat} {seq : UInt32}
    (h : ((singlePushes seqs)[pos]?.any fun op => ((after ((singlePushes seqs).take pos)).step op).2.any fun f =>
      f.sender == "a" && f.frameSeq == seq) = true) : Returns (singlePushes seqs) pos "a" seq := by
  obtain ⟨op, hop, hreturns⟩ := (Option.any_eq_true ..).mp h
  obtain ⟨f, hf, hframe⟩ := (Option.any_eq_true ..).mp hreturns
  rw [Bool.and_eq_true, beq_iff_eq, beq_iff_eq] at hframe
  exact ⟨op, f, hop, hf, hframe.1, hframe.2⟩

/-- The number of a frame that arrives or is returned is that of the fragment. -/
theorem seq_of_arrives {seqs : List UInt32} {pos : Nat} {seq : UInt32} {idx count : Nat}
    (h : Arrives (singlePushes seqs) pos "a" seq idx count) : seqs[pos]? = some seq := by
  obtain ⟨hdr, chunk, last, ⟨order, buf, now, hat, hparse⟩, -, hseq, -⟩ := h
  obtain ⟨seq', hseq', hop⟩ := singlePushes_at hat
  cases hop
  rw [singleFragment_parse] at hparse
  cases hparse
  rw [hseq', ← hseq]
  rfl

theorem seq_of_returns {seqs : List UInt32} {pos : Nat} {seq : UInt32} (h : Returns (singlePushes seqs) pos "a" seq) :
    seqs[pos]? = some seq := by
  obtain ⟨op, f, hat, hf, -, hseq⟩ := h
  obtain ⟨seq', hseq', rfl⟩ := singlePushes_at hat
  rw [hseq']
  rcases Reassembler.push_cases (after ((singlePushes seqs).take pos)) sampleOrder (singleFragment seq') 0 with
    ⟨hnone, -⟩ | ⟨hdr, chunk, hparse, heq⟩
  · rw [Reassembler.step, hnone] at hf
    cases hf
  · have hsound := Reassembler.sound_evictExpired (Reassembler.sound_after ((singlePushes seqs).take pos)) 0
    have hret := returned_accept (Reassembler.sound_lookup hsound hdr.sender) sampleOrder (checked_of_parse hparse) chunk 0
      ((congrArg Prod.snd heq).symm.trans hf)
    rw [singleFragment_parse] at hparse
    cases hparse
    rw [← hseq, hret.frameSeq]
    rfl

end FramesOnceAux

/-- A frame that comes after a newer one is returned, and no frame twice. -/
theorem returned_once_reordered : Returns (singlePushes [2, 1]) 0 "a" 2 ∧ Returns (singlePushes [2, 1]) 1 "a" 1 ∧
    ∀ seq j k, Returns (singlePushes [2, 1]) j "a" seq → Returns (singlePushes [2, 1]) k "a" seq → j = k := by
  refine ⟨returns_of_check (by decide +kernel), returns_of_check (by decide +kernel), ?_⟩
  refine returned_once (goesOn_singlePushes [2, 1] "a") fun seq j hj count hcount hall => ?_
  obtain ⟨pos, hpos, harrives⟩ := hall 0 hcount
  have hat := seq_of_returns hj
  have hat' := seq_of_arrives harrives
  have hlt : pos < 2 := (List.getElem?_eq_some_iff.mp hat').1
  obtain ⟨rfl, rfl⟩ : j = 0 ∧ pos = 1 := by omega
  rw [← hat] at hat'
  cases hat'

/-- **A frame is returned twice.** It comes after a newer one, and its fragment comes again. -/
theorem returned_twice : GoesOn (singlePushes [2, 1, 1]) "a" ∧ Returns (singlePushes [2, 1, 1]) 1 "a" 1 ∧
    Returns (singlePushes [2, 1, 1]) 2 "a" 1 :=
  ⟨goesOn_singlePushes [2, 1, 1] "a", returns_of_check (by decide +kernel), returns_of_check (by decide +kernel)⟩

end DoubleSlash.Video
