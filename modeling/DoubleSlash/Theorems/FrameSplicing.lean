import DoubleSlash.Lemmas.SenderStates
import Mathlib.Data.List.Induction

/-!
# Where a reassembled frame comes from

Every chunk of a partial frame is the chunk of a fragment that was pushed since the last clear and the last restart of its sender, and
that fragment's header agrees with the partial frame in everything the reassembler compares. It does not compare the keyframe flag.
-/

namespace DoubleSlash.Video

open Assoc

/-- The call at this place pushes a fragment with this header and chunk. -/
def Pushed (ops : List Op) (pos : Nat) (hdr : FragmentHeader) (chunk : List UInt8) : Prop :=
  ∃ order buf now, ops[pos]? = some (.push order buf now) ∧ parseFragment buf = some (hdr, chunk)

/-- Nothing was cleared since, and the sender's stream did not restart after. -/
structure Fresh (ops : List Op) (pos : Nat) (sender : String) : Prop where
  cleared : ∀ j, pos ≤ j → ops[j]? ≠ some .clear
  restarted : ∀ j order buf now, pos < j → ops[j]? = some (.push order buf now) →
    (after (ops.take j)).restartedBy buf now ≠ some sender

/-- The frame is the concatenation of the fragments of one frame, with its signature. -/
def Whole (ops : List Op) (f : ReassembledFrame) : Prop :=
  ∃ (count : Nat) (pos : Nat → Nat) (hdr : Nat → FragmentHeader) (chunk : Nat → List UInt8), 0 < count ∧
    (∀ i < count, Pushed ops (pos i) (hdr i) (chunk i) ∧ Fresh ops (pos i) f.sender ∧ (hdr i).sender = f.sender ∧
      (hdr i).frameSeq = f.frameSeq ∧ (hdr i).fragIdx = i ∧ (hdr i).fragCount = count ∧ (hdr i).codec = f.codec ∧
      (hdr i).ptsUs = f.ptsUs ∧ (hdr i).keyframe = f.keyframe) ∧
    (∀ i < count, ∀ j < count, pos i = pos j → i = j) ∧
    f.sealed = ((List.range count).map chunk).flatten ∧ (hdr 0).signature = some f.signature

/-- A fragment that would be filed with a partial frame has the keyframe flag of that partial frame. -/
def KeyframesAgree (r : Reassembler) : Op → Prop
  | .push _ buf now => ∀ hdr chunk s p, parseFragment buf = some (hdr, chunk) →
    ((r.evictExpired now).senders.lookup hdr.sender).bind (fun s => s.screen hdr) = some s →
    s.partials.lookup hdr.frameSeq = some p → p.chunks.length = hdr.fragCount → p.codec = hdr.codec → p.ptsUs = hdr.ptsUs →
    (p.chunks[hdr.fragIdx]?.join).isSome = false → p.keyframe = hdr.keyframe
  | _ => True

namespace FrameSplicingAux

/-! ## What the operations leave of the partial frames -/

/-- The partial frame a fragment opens. -/
def opened (hdr : FragmentHeader) (now : Nat) : PartialFrame where
  keyframe := hdr.keyframe
  codec := hdr.codec
  ptsUs := hdr.ptsUs
  signature := none
  chunks := List.replicate hdr.fragCount none
  received := 0
  bytes := 0
  firstSeen := now

theorem lookup_openPartial (s : SenderState) (hdr : FragmentHeader) (now : Nat) {seq : UInt32} {p : PartialFrame}
    (h : (s.openPartial hdr now).partials.lookup seq = some p) :
    s.partials.lookup seq = some p ∨ (seq = hdr.frameSeq ∧ s.partials.lookup seq = none ∧ p = opened hdr now) := by
  unfold SenderState.openPartial at h
  split at h
  · exact Or.inl h
  · rename_i hnone
    by_cases hq : seq = hdr.frameSeq
    · subst hq
      rw [AList.lookup_insert] at h
      exact Or.inr ⟨rfl, hnone, (Option.some.inj h).symm⟩
    · rw [AList.lookup_insert_ne hq] at h
      exact Or.inl h

/-- The frame that a filled partial frame comes to. -/
def frameOf (hdr : FragmentHeader) (p : PartialFrame) (f : ReassembledFrame) : Prop :=
  f.sender = hdr.sender ∧ f.frameSeq = hdr.frameSeq ∧ f.keyframe = p.keyframe ∧ f.codec = p.codec ∧ f.ptsUs = p.ptsUs ∧
    p.signature = some f.signature ∧ ∃ chunks, p.chunks.mapM id = some chunks ∧ f.sealed = chunks.flatten

theorem store_cases {s s' : SenderState} {hdr : FragmentHeader} {chunk : List UInt8} {out : Option ReassembledFrame}
    (h : s.store hdr chunk = (s', out)) :
    (Shrinks s s' ∧ out = none) ∨ ∃ p, s.partials.lookup hdr.frameSeq = some p ∧
      (∀ seq q, s'.partials.lookup seq = some q →
        (seq = hdr.frameSeq ∧ q = SenderState.fill p hdr chunk) ∨ s.partials.lookup seq = some q) ∧
      ∀ f, out = some f → frameOf hdr (SenderState.fill p hdr chunk) f := by
  unfold SenderState.store at h
  split at h
  · cases h
    exact Or.inl ⟨shrinks_refl _, rfl⟩
  · rename_i p hp
    refine Or.inr ⟨p, hp, ?_⟩
    have hinsert : ∀ seq q, (s.partials.insert hdr.frameSeq (SenderState.fill p hdr chunk)).lookup seq = some q →
        (seq = hdr.frameSeq ∧ q = SenderState.fill p hdr chunk) ∨ s.partials.lookup seq = some q := by
      intro seq q hq
      by_cases hseq : seq = hdr.frameSeq
      · subst hseq
        rw [AList.lookup_insert] at hq
        exact Or.inl ⟨rfl, (Option.some.inj hq).symm⟩
      · rw [AList.lookup_insert_ne hseq] at hq
        exact Or.inr hq
    dsimp only at h
    split at h
    · cases h
      exact ⟨hinsert, fun f hf => by cases hf⟩
    · split at h
      · rename_i signature chunks hsig hchunks
        cases h
        refine ⟨fun seq q hq => hinsert seq q (shrinks_completed _ _ seq q hq), ?_⟩
        intro f hf
        cases hf
        exact ⟨rfl, rfl, rfl, rfl, rfl, hsig, chunks, hchunks, rfl⟩
      · cases h
        exact ⟨hinsert, fun f hf => by cases hf⟩

/-- The partial frame that the fragment is filed with: the one there, or a new one. -/
structure Files (s : SenderState) (hdr : FragmentHeader) (now : Nat) (p : PartialFrame) : Prop where
  found : s.partials.lookup hdr.frameSeq = some p ∨ p = opened hdr now
  count : p.chunks.length = hdr.fragCount
  codec : p.codec = hdr.codec
  ptsUs : p.ptsUs = hdr.ptsUs
  free : (p.chunks[hdr.fragIdx]?.join).isSome = false

/-- What a fragment that passes the screen comes to: what was there stays, is opened or filled, and a frame is a filled one. -/
structure Outcome (s₁ : SenderState) (hdr : FragmentHeader) (chunk : List UInt8) (now : Nat) (s' : SenderState)
    (out : Option ReassembledFrame) : Prop where
  entries : ∀ seq q, s'.partials.lookup seq = some q → s₁.partials.lookup seq = some q ∨
    (seq = hdr.frameSeq ∧ (q = opened hdr now ∨ ∃ p, Files s₁ hdr now p ∧ q = SenderState.fill p hdr chunk))
  frame : ∀ f, out = some f → ∃ p, Files s₁ hdr now p ∧ frameOf hdr (SenderState.fill p hdr chunk) f

/-- **What a fragment does to its sender's partial frames.** -/
theorem accept_cases {s s' : SenderState} {order : IterOrder} {hdr : FragmentHeader} {chunk : List UInt8} {now : Nat}
    {out : Option ReassembledFrame} (h : s.accept order hdr chunk now = (s', out)) :
    (s.screen hdr = none ∧ s' = s ∧ out = none) ∨ ∃ s₁, s.screen hdr = some s₁ ∧ Outcome s₁ hdr chunk now s' out := by
  unfold SenderState.accept at h
  split at h
  · rename_i hscreen
    cases h
    exact Or.inl ⟨hscreen, rfl, rfl⟩
  · rename_i s₁ hscreen
    refine Or.inr ⟨s₁, hscreen, ?_⟩
    dsimp only at h
    have hopen : ∀ seq q, ((s₁.makeRoom order hdr.frameSeq).openPartial hdr now).partials.lookup seq = some q →
        s₁.partials.lookup seq = some q ∨ (seq = hdr.frameSeq ∧ q = opened hdr now) := by
      intro seq q hq
      obtain hold | ⟨hseq, -, hq⟩ := lookup_openPartial _ _ _ hq
      · exact Or.inl (shrinks_makeRoom s₁ order hdr.frameSeq seq q hold)
      · exact Or.inr ⟨hseq, hq⟩
    generalize (s₁.makeRoom order hdr.frameSeq).openPartial hdr now = s₂ at h hopen
    -- a fragment that is not filed leaves what was there or opened
    have hleft : ∀ s₃, Shrinks s₂ s₃ → ∀ seq q, s₃.partials.lookup seq = some q → s₁.partials.lookup seq = some q ∨
        (seq = hdr.frameSeq ∧ (q = opened hdr now ∨ ∃ p, Files s₁ hdr now p ∧ q = SenderState.fill p hdr chunk)) := by
      intro s₃ hs₃ seq q hq
      obtain hold | ⟨hseq, hnew⟩ := hopen seq q (hs₃ seq q hq)
      · exact Or.inl hold
      · exact Or.inr ⟨hseq, Or.inl hnew⟩
    have hnone : ∀ s₃, Shrinks s₂ s₃ → (s₃, none) = (s', out) → Outcome s₁ hdr chunk now s' out := by
      intro s₃ hs₃ heq
      cases heq
      exact ⟨hleft _ hs₃, fun f hf => by cases hf⟩
    split at h
    · exact hnone s₂ (shrinks_refl _) h
    · rename_i p hp
      split at h
      · exact hnone s₂ (shrinks_refl _) h
      · rename_i hcount
        split at h
        · exact hnone s₂ (shrinks_refl _) h
        · rename_i hcodec
          split at h
          · exact hnone s₂ (shrinks_refl _) h
          · rename_i hpts
            split at h
            · exact hnone s₂ (shrinks_refl _) h
            · rename_i hfree
              split at h
              · exact hnone _ ((shrinks_shed _ _ _ s₂).trans (shrinks_dropPartial _ _)) h
              · rw [not_not] at hcount hcodec hpts
                obtain ⟨hshrinks, rfl⟩ | ⟨p', hp', hentries, hframe⟩ := store_cases h
                · exact ⟨hleft _ ((shrinks_shed _ _ _ s₂).trans hshrinks), fun f hf => by cases hf⟩
                · have hsame : p' = p := by
                    have := shrinks_shed _ _ _ s₂ _ _ hp'
                    rw [hp] at this
                    exact (Option.some.inj this).symm
                  subst hsame
                  have hfiles : Files s₁ hdr now p' := by
                    refine ⟨?_, hcount, hcodec, hpts, by simpa using hfree⟩
                    obtain hold | ⟨-, hnew⟩ := hopen _ _ hp
                    · exact Or.inl hold
                    · exact Or.inr hnew
                  refine ⟨?_, fun f hf => ⟨p', hfiles, hframe f hf⟩⟩
                  intro seq q hq
                  obtain ⟨hseq, hfilled⟩ | hold := hentries seq q hq
                  · exact Or.inr ⟨hseq, Or.inr ⟨p', hfiles, hfilled⟩⟩
                  · exact hleft _ (shrinks_shed _ _ _ s₂) seq q hold

/-! ## The invariant -/

/-- Every chunk of the partial frame is a pushed fragment's, and the fragment is one of this frame. -/
def Backed (ops : List Op) (sender : String) (seq : UInt32) (p : PartialFrame) : Prop :=
  ∀ i chunk, p.chunks[i]? = some (some chunk) → ∃ pos hdr, Pushed ops pos hdr chunk ∧ Fresh ops pos sender ∧
    hdr.sender = sender ∧ hdr.frameSeq = seq ∧ hdr.fragIdx = i ∧ hdr.fragCount = p.chunks.length ∧ hdr.codec = p.codec ∧
    hdr.ptsUs = p.ptsUs ∧ hdr.keyframe = p.keyframe ∧ (i = 0 → hdr.signature = p.signature)

/-- What every partial frame of the reassembler comes from. -/
def AllBacked (ops : List Op) (r : Reassembler) : Prop :=
  ∀ sender s seq p, r.senders.lookup sender = some s → s.partials.lookup seq = some p → Backed ops sender seq p

theorem after_concat (ops : List Op) (op : Op) : after (ops ++ [op]) = ((after ops).step op).1 := by
  simp [after]

theorem pushed_append {ops : List Op} {op : Op} {pos : Nat} {hdr : FragmentHeader} {chunk : List UInt8}
    (h : Pushed ops pos hdr chunk) : Pushed (ops ++ [op]) pos hdr chunk := by
  obtain ⟨order, buf, now, hpos, hparse⟩ := h
  have hlt := (List.getElem?_eq_some_iff.mp hpos).1
  exact ⟨order, buf, now, by rw [List.getElem?_append_left hlt]; exact hpos, hparse⟩

/-- A call at the end of the sequence, or one before it. -/
theorem getElem?_concat_cases {ops : List Op} {op x : Op} {j : Nat} (h : (ops ++ [op])[j]? = some x) :
    (j < ops.length ∧ ops[j]? = some x) ∨ (j = ops.length ∧ x = op) := by
  obtain hlt | hle := Nat.lt_or_ge j ops.length
  · rw [List.getElem?_append_left hlt] at h
    exact Or.inl ⟨hlt, h⟩
  · rw [List.getElem?_append_right hle] at h
    obtain ⟨hlt, hx⟩ := List.getElem?_eq_some_iff.mp h
    have hzero : j - ops.length = 0 := by simpa using hlt
    exact Or.inr ⟨by omega, by simpa [hzero] using hx.symm⟩

theorem fresh_append {ops : List Op} {op : Op} {pos : Nat} {sender : String} (h : Fresh ops pos sender) (hclear : op ≠ .clear)
    (hrestart : ∀ order buf now, op = .push order buf now → (after ops).restartedBy buf now ≠ some sender) :
    Fresh (ops ++ [op]) pos sender where
  cleared := by
    intro j hj hx
    obtain ⟨-, hold⟩ | ⟨-, hnew⟩ := getElem?_concat_cases hx
    · exact h.cleared j hj hold
    · exact hclear hnew.symm
  restarted := by
    intro j order buf now hj hx
    obtain ⟨hlt, hold⟩ | ⟨rfl, hnew⟩ := getElem?_concat_cases hx
    · rw [List.take_append_of_le_length (Nat.le_of_lt hlt)]
      exact h.restarted j order buf now hj hold
    · rw [List.take_left]
      exact hrestart order buf now hnew.symm

theorem backed_append {ops : List Op} {op : Op} {sender : String} {seq : UInt32} {p : PartialFrame}
    (h : Backed ops sender seq p) (hclear : op ≠ .clear)
    (hrestart : ∀ order buf now, op = .push order buf now → (after ops).restartedBy buf now ≠ some sender) :
    Backed (ops ++ [op]) sender seq p := by
  intro i chunk hi
  obtain ⟨pos, hdr, hpushed, hfresh, hrest⟩ := h i chunk hi
  exact ⟨pos, hdr, pushed_append hpushed, fresh_append hfresh hclear hrestart, hrest⟩

theorem backed_opened (ops : List Op) (sender : String) (seq : UInt32) (hdr : FragmentHeader) (now : Nat) :
    Backed ops sender seq (opened hdr now) := by
  intro i chunk hi
  have hnone : (List.replicate hdr.fragCount (none : Option (List UInt8)))[i]? = some (some chunk) := hi
  rw [List.getElem?_replicate] at hnone
  split at hnone
  · cases hnone
  · cases hnone

/-- A pushed fragment that is filed backs its chunk. -/
theorem backed_fill {ops : List Op} {order : IterOrder} {buf : List UInt8} {now : Nat} {hdr : FragmentHeader} {chunk : List UInt8}
    {p : PartialFrame} (hparse : parseFragment buf = some (hdr, chunk)) (hcount : p.chunks.length = hdr.fragCount)
    (hcodec : p.codec = hdr.codec) (hpts : p.ptsUs = hdr.ptsUs) (hkeyframe : p.keyframe = hdr.keyframe)
    (h : Backed (ops ++ [.push order buf now]) hdr.sender hdr.frameSeq p) :
    Backed (ops ++ [.push order buf now]) hdr.sender hdr.frameSeq (SenderState.fill p hdr chunk) := by
  have hidx := (checked_of_parse hparse).idx
  have hsig := (checked_of_parse hparse).signature
  have hself : ∀ op, (ops ++ [op])[ops.length]? = some op := by
    intro op
    simp
  intro i c hi
  have hset : (p.chunks.set hdr.fragIdx (some chunk))[i]? = some (some c) := hi
  have hlength : (SenderState.fill p hdr chunk).chunks.length = p.chunks.length := by simp [SenderState.fill]
  by_cases hi' : hdr.fragIdx = i
  · subst hi'
    rw [List.getElem?_set_self (hcount ▸ hidx)] at hset
    cases hset
    refine ⟨ops.length, hdr, ⟨order, buf, now, hself _, hparse⟩, ⟨?_, ?_⟩, rfl, rfl, rfl, ?_, hcodec.symm, hpts.symm,
      hkeyframe.symm, ?_⟩
    · intro j hj hx
      obtain ⟨hlt, -⟩ | ⟨-, hnew⟩ := getElem?_concat_cases hx
      · omega
      · cases hnew
    · intro j _ _ _ hj hx
      obtain ⟨hlt, -⟩ | ⟨heq, -⟩ := getElem?_concat_cases hx <;> omega
    · rw [hlength, hcount]
    · intro hzero
      rw [decide_eq_true hzero] at hsig
      obtain ⟨sig, hs⟩ := Option.isSome_iff_exists.mp hsig
      simp [SenderState.fill, hs]
  · rw [List.getElem?_set_ne hi'] at hset
    obtain ⟨pos, hdr', hpushed, hfresh, hsender, hseq, hpos, hcount', hcodec', hpts', hkey', hsig'⟩ := h i c hset
    refine ⟨pos, hdr', hpushed, hfresh, hsender, hseq, hpos, by rw [hlength]; exact hcount', hcodec', hpts', hkey', ?_⟩
    intro hzero
    have hnone : hdr.signature = none := by
      rw [decide_eq_false (fun h0 => hi' (h0.trans hzero.symm))] at hsig
      simpa using hsig
    rw [hsig' hzero]
    simp [SenderState.fill, hnone]

/-! ## One call -/

theorem lookup_evict {r : Reassembler} {now : Nat} {sender : String} {s' : SenderState}
    (h : (r.evictExpired now).senders.lookup sender = some s') : ∃ s, r.senders.lookup sender = some s ∧ Shrinks s s' := by
  rw [Reassembler.evictExpired, lookup_retain, lookup_mapValues] at h
  obtain ⟨hmap, -⟩ := Option.filter_eq_some_iff.mp h
  obtain ⟨s, hs, rfl⟩ := Option.map_eq_some_iff.mp hmap
  exact ⟨s, hs, shrinks_dropExpired s now⟩

/-- A stream that is not dropped goes on, or starts from nothing. -/
theorem screen_cases {s s₁ : SenderState} {hdr : FragmentHeader} (h : s.screen hdr = some s₁) :
    (s₁ = s ∧ ∀ last, s.lastCompleted = some last →
      ((seqNewer (last - monotonicLag) hdr.frameSeq || decide (hdr.frameSeq = last)) && isStreamRestart last hdr) = false) ∨
    s₁.partials = ∅ := by
  unfold SenderState.screen at h
  split at h
  · rename_i hnone
    cases h
    refine Or.inl ⟨rfl, fun last hlast => ?_⟩
    rw [hnone] at hlast
    cases hlast
  · rename_i last hlast
    split at h
    · split at h
      · cases h
        exact Or.inr rfl
      · cases h
    · rename_i hguard
      cases h
      refine Or.inl ⟨rfl, fun last' hlast' => ?_⟩
      rw [hlast] at hlast'
      cases hlast'
      rw [Bool.not_eq_true] at hguard
      rw [hguard]
      rfl

/-- The partial frames a fragment is filed among: those of the stream before, when it goes on. -/
theorem backed_screen {ops : List Op} {order : IterOrder} {buf : List UInt8} {now : Nat} {hdr : FragmentHeader}
    {chunk : List UInt8} {s₁ : SenderState} (hall : AllBacked ops (after ops)) (hparse : parseFragment buf = some (hdr, chunk))
    (hscreen : ((((after ops).evictExpired now).senders.lookup hdr.sender).getD SenderState.default).screen hdr = some s₁) :
    ∀ seq p, s₁.partials.lookup seq = some p → Backed (ops ++ [.push order buf now]) hdr.sender seq p := by
  intro seq p hp
  obtain ⟨rfl, hgoes⟩ | hempty := screen_cases hscreen
  · cases hs : ((after ops).evictExpired now).senders.lookup hdr.sender with
    | none =>
      rw [hs] at hp
      cases hp
    | some s =>
      rw [hs] at hp hgoes
      obtain ⟨s₀, hs₀, hshrinks⟩ := lookup_evict hs
      refine backed_append (hall _ s₀ seq p hs₀ (hshrinks seq p hp)) (fun h => by cases h) ?_
      intro order' buf' now' hop
      cases hop
      unfold Reassembler.restartedBy
      rw [hparse]
      simp only [Option.bind_eq_bind, Option.bind_some, hs]
      cases hlast : s.lastCompleted with
      | none => simp
      | some last =>
        simp only [Option.bind_some]
        rw [hgoes last hlast]
        simp
  · rw [hempty] at hp
    cases hp

/-- What a push restarts is the stream of the fragment's own sender. -/
theorem restartedBy_sender {r : Reassembler} {buf : List UInt8} {now : Nat} {hdr : FragmentHeader} {chunk : List UInt8}
    {sender : String} (hparse : parseFragment buf = some (hdr, chunk)) (h : r.restartedBy buf now = some sender) :
    sender = hdr.sender := by
  unfold Reassembler.restartedBy at h
  rw [hparse] at h
  simp only [Option.bind_eq_bind, Option.bind_some] at h
  obtain ⟨last, -, h⟩ := Option.bind_eq_some_iff.mp h
  split at h
  · exact (Option.some.inj h).symm
  · cases h

/-- A malformed fragment restarts nothing. -/
theorem restartedBy_none {r : Reassembler} {buf : List UInt8} {now : Nat} (hparse : parseFragment buf = none) :
    r.restartedBy buf now = none := by
  unfold Reassembler.restartedBy
  rw [hparse]
  rfl

theorem map_some_of_mapM {α : Type} {l : List (Option α)} {xs : List α} (h : l.mapM id = some xs) : l = xs.map some := by
  induction l generalizing xs with
  | nil =>
    cases h
    rfl
  | cons x l ih =>
    rw [List.mapM_cons] at h
    simp only [Option.bind_eq_bind, id, Option.bind_eq_some_iff] at h
    obtain ⟨y, rfl, ys, hys, h⟩ := h
    cases h
    rw [List.map_cons, ← ih hys]

/-- A partial frame without a gap is a whole frame. -/
theorem whole_of_backed {ops : List Op} {sender : String} {seq : UInt32} {hdr : FragmentHeader} {p : PartialFrame}
    {f : ReassembledFrame} (h : Backed ops sender seq p) (hpos : 0 < p.chunks.length) (hsender : hdr.sender = sender)
    (hseq : hdr.frameSeq = seq) (hframe : frameOf hdr p f) : Whole ops f := by
  obtain ⟨hfs, hfq, hfk, hfc, hfp, hsig, chunks, hchunks, hsealed⟩ := hframe
  have hmap := map_some_of_mapM hchunks
  have hlength : chunks.length = p.chunks.length := by rw [hmap, List.length_map]
  have hslot : ∀ i, i < p.chunks.length → p.chunks[i]? = some (some (chunks.getD i [])) := by
    intro i hi
    rw [hmap, List.getElem?_map, List.getD_eq_getElem?_getD, List.getElem?_eq_getElem (hlength ▸ hi)]
    rfl
  have hsource : ∀ i, ∃ pos hdr', i < p.chunks.length → Pushed ops pos hdr' (chunks.getD i []) ∧ Fresh ops pos sender ∧
      hdr'.sender = sender ∧ hdr'.frameSeq = seq ∧ hdr'.fragIdx = i ∧ hdr'.fragCount = p.chunks.length ∧ hdr'.codec = p.codec ∧
      hdr'.ptsUs = p.ptsUs ∧ hdr'.keyframe = p.keyframe ∧ (i = 0 → hdr'.signature = p.signature) := by
    intro i
    by_cases hi : i < p.chunks.length
    · obtain ⟨pos, hdr', hrest⟩ := h i _ (hslot i hi)
      exact ⟨pos, hdr', fun _ => hrest⟩
    · exact ⟨0, hdr, fun hi' => absurd hi' hi⟩
  choose pos hdrs hsources using hsource
  refine ⟨p.chunks.length, pos, hdrs, fun i => chunks.getD i [], hpos, ?_, ?_, ?_, ?_⟩
  · intro i hi
    obtain ⟨hp, hf, hs, hq, hidx, hcount, hc, ht, hk, -⟩ := hsources i hi
    rw [hfs, hsender, hfq, hseq, hfc, hfp, hfk]
    exact ⟨hp, hf, hs, hq, hidx, hcount, hc, ht, hk⟩
  · -- two fragments with different indices are two pushes
    intro i hi j hj hij
    obtain ⟨⟨_, buf, _, hat, hparse⟩, -, -, -, hidx, -⟩ := hsources i hi
    obtain ⟨⟨_, buf', _, hat', hparse'⟩, -, -, -, hidx', -⟩ := hsources j hj
    rw [hij, hat'] at hat
    cases hat
    rw [hparse'] at hparse
    rw [← hidx, ← hidx', (Prod.mk.inj (Option.some.inj hparse)).1]
  · rw [hsealed]
    congr 1
    apply List.ext_getElem
    · rw [List.length_map, List.length_range, hlength]
    · intro i hi _
      rw [List.getElem_map, List.getElem_range, List.getD_eq_getElem?_getD, List.getElem?_eq_getElem hi]
      rfl
  · have h0 := (hsources 0 hpos).2.2.2.2.2.2.2.2.2 rfl
    rw [h0, hsig]

/-- The fragment's own sender, after a push. -/
theorem push_own {ops : List Op} {order : IterOrder} {buf : List UInt8} {now : Nat} {hdr : FragmentHeader} {chunk : List UInt8}
    {s' : SenderState} {out : Option ReassembledFrame} (hall : AllBacked ops (after ops))
    (hparse : parseFragment buf = some (hdr, chunk)) (hagree : KeyframesAgree (after ops) (.push order buf now))
    (haccept : ((((after ops).evictExpired now).senders.lookup hdr.sender).getD SenderState.default).accept order hdr chunk now =
      (s', out)) :
    (∀ seq p, s'.partials.lookup seq = some p → Backed (ops ++ [.push order buf now]) hdr.sender seq p) ∧
      ∀ f, out = some f → Whole (ops ++ [.push order buf now]) f := by
  obtain ⟨hscreen, rfl, rfl⟩ | ⟨s₁, hscreen, houtcome⟩ := accept_cases haccept
  · refine ⟨?_, fun f hf => by cases hf⟩
    intro seq p hp
    cases hs : ((after ops).evictExpired now).senders.lookup hdr.sender with
    | none =>
      rw [hs] at hp
      cases hp
    | some s =>
      rw [hs] at hp hscreen
      obtain ⟨s₀, hs₀, hshrinks⟩ := lookup_evict hs
      refine backed_append (hall _ s₀ seq p hs₀ (hshrinks seq p hp)) (fun h => by cases h) ?_
      intro order' buf' now' hop hrestart
      cases hop
      -- a stream that restarts is not dropped
      unfold Reassembler.restartedBy at hrestart
      rw [hparse] at hrestart
      simp only [Option.bind_eq_bind, Option.bind_some, hs] at hrestart
      obtain ⟨last, hlast, hrestart⟩ := Option.bind_eq_some_iff.mp hrestart
      split at hrestart
      · rename_i hguard
        rw [Bool.and_eq_true] at hguard
        have hgoes : s.screen hdr = some { partials := ∅, bytes := 0, lastCompleted := none } := by
          unfold SenderState.screen
          rw [hlast]
          simp only [hguard.1, hguard.2, if_true]
        rw [Option.getD_some, hgoes] at hscreen
        cases hscreen
      · cases hrestart
  · have hscreened : ∀ seq p, s₁.partials.lookup seq = some p → Backed (ops ++ [.push order buf now]) hdr.sender seq p :=
      backed_screen hall hparse hscreen
    -- the keyframe flag of what the fragment is filed with is its own
    have hfiled : ∀ p, Files s₁ hdr now p → p.keyframe = hdr.keyframe ∧
        Backed (ops ++ [.push order buf now]) hdr.sender hdr.frameSeq p := by
      intro p hfiles
      obtain hfound | rfl := hfiles.found
      · refine ⟨?_, hscreened _ p hfound⟩
        refine hagree hdr chunk s₁ p hparse ?_ hfound hfiles.count hfiles.codec hfiles.ptsUs hfiles.free
        cases hs : ((after ops).evictExpired now).senders.lookup hdr.sender with
        | none =>
          rw [hs] at hscreen
          have hnew : s₁ = SenderState.default := (Option.some.inj hscreen).symm
          rw [hnew] at hfound
          cases hfound
        | some s =>
          rw [hs] at hscreen
          exact hscreen
      · exact ⟨rfl, backed_opened _ _ _ _ _⟩
    have hfill : ∀ p, Files s₁ hdr now p →
        Backed (ops ++ [.push order buf now]) hdr.sender hdr.frameSeq (SenderState.fill p hdr chunk) := by
      intro p hfiles
      obtain ⟨hkeyframe, hbacked⟩ := hfiled p hfiles
      exact backed_fill hparse hfiles.count hfiles.codec hfiles.ptsUs hkeyframe hbacked
    refine ⟨?_, ?_⟩
    · intro seq p hp
      obtain hold | ⟨rfl, rfl | ⟨q, hfiles, rfl⟩⟩ := houtcome.entries seq p hp
      · exact hscreened seq p hold
      · exact backed_opened _ _ _ _ _
      · exact hfill q hfiles
    · intro f hf
      obtain ⟨q, hfiles, hframe⟩ := houtcome.frame f hf
      refine whole_of_backed (hfill q hfiles) ?_ rfl rfl hframe
      have hlength : (SenderState.fill q hdr chunk).chunks.length = hdr.fragCount := by
        rw [← hfiles.count]
        simp [SenderState.fill]
      rw [hlength]
      exact (checked_of_parse hparse).some

/-- **One push.** -/
theorem push_step {ops : List Op} {order : IterOrder} {buf : List UInt8} {now : Nat} (hall : AllBacked ops (after ops))
    (hagree : KeyframesAgree (after ops) (.push order buf now)) :
    AllBacked (ops ++ [.push order buf now]) ((after ops).push order buf now).1 ∧
      ∀ f, ((after ops).push order buf now).2 = some f → Whole (ops ++ [.push order buf now]) f := by
  -- nothing of a sender whose stream goes on is lost or spliced by forgetting
  have hkept : ∀ sender s s' seq p, (after ops).senders.lookup sender = some s → Shrinks s s' →
      (after ops).restartedBy buf now ≠ some sender → s'.partials.lookup seq = some p →
        Backed (ops ++ [.push order buf now]) sender seq p := by
    intro sender s s' seq p hs hshrinks hgoes hp
    refine backed_append (hall sender s seq p hs (hshrinks seq p hp)) (fun h => by cases h) ?_
    intro order' buf' now' hop
    cases hop
    exact hgoes
  unfold Reassembler.push
  cases hparse : parseFragment buf with
  | none =>
    refine ⟨?_, fun f hf => by cases hf⟩
    intro sender s seq p hs hp
    refine hkept sender s s seq p hs (shrinks_refl s) ?_ hp
    rw [restartedBy_none hparse]
    exact fun h => by cases h
  | some parsed =>
    obtain ⟨hdr, chunk⟩ := parsed
    dsimp only
    split
    · rename_i hfull
      refine ⟨?_, fun f hf => by cases hf⟩
      intro sender s' seq p hs' hp
      obtain ⟨s, hs, hshrinks⟩ := lookup_evict hs'
      refine hkept sender s s' seq p hs hshrinks ?_ hp
      intro hrestart
      have hown := restartedBy_sender hparse hrestart
      subst hown
      rw [hs'] at hfull
      exact absurd hfull.1 (by simp)
    · generalize haccept : ((((after ops).evictExpired now).senders.lookup hdr.sender).getD SenderState.default).accept order hdr
        chunk now = accepted
      obtain ⟨s', out⟩ := accepted
      dsimp only
      -- the fragment's own sender
      have hown : (∀ seq p, s'.partials.lookup seq = some p → Backed (ops ++ [.push order buf now]) hdr.sender seq p) ∧
          ∀ f, out = some f → Whole (ops ++ [.push order buf now]) f := push_own hall hparse hagree haccept
      refine ⟨?_, hown.2⟩
      intro sender s seq p hs hp
      by_cases hsender : sender = hdr.sender
      · subst hsender
        rw [AList.lookup_insert] at hs
        cases hs
        exact hown.1 seq p hp
      · rw [AList.lookup_insert_ne hsender] at hs
        obtain ⟨s₁, hs₁, hshrinks⟩ := lookup_evict hs
        exact hkept sender s₁ s seq p hs₁ hshrinks (fun h => hsender (restartedBy_sender hparse h)) hp

theorem allBacked_after (ops : List Op) (hagree : ∀ pre op post, ops = pre ++ op :: post → KeyframesAgree (after pre) op) :
    AllBacked ops (after ops) := by
  induction ops using List.reverseRecOn with
  | nil =>
    intro sender s seq p hs
    cases hs
  | append_singleton ops op ih =>
    have hall := ih fun pre op' post heq => hagree pre op' (post ++ [op]) (by rw [heq]; simp)
    rw [after_concat]
    cases op with
    | push order buf now => exact (push_step hall (hagree ops _ [] rfl)).1
    | evictExpired now =>
      intro sender s' seq p hs' hp
      obtain ⟨s, hs, hshrinks⟩ := lookup_evict hs'
      exact backed_append (hall sender s seq p hs (hshrinks seq p hp)) (fun h => by cases h) (fun _ _ _ h => by cases h)
    | clear =>
      intro sender s seq p hs
      cases hs

end FrameSplicingAux

open FrameSplicingAux

/-- **A frame is never spliced.** In every sequence of calls in which no fragment is filed with a partial frame of the other keyframe
flag, every frame that a push returns is the concatenation of the fragments of one frame. -/
theorem frames_not_spliced (ops : List Op) (hagree : ∀ pre op post, ops = pre ++ op :: post → KeyframesAgree (after pre) op)
    (pre post : List Op) (order : IterOrder) (buf : List UInt8) (now : Nat) (f : ReassembledFrame)
    (hops : ops = pre ++ .push order buf now :: post) (hf : ((after pre).push order buf now).2 = some f) :
    Whole (pre ++ [.push order buf now]) f := by
  have hall : AllBacked pre (after pre) :=
    allBacked_after pre fun pre' op post' heq => hagree pre' op (post' ++ .push order buf now :: post) (by rw [hops, heq]; simp)
  exact (push_step hall (hagree pre _ post hops)).2 f hf

namespace FrameSplicingAux

/-- A map's own order. -/
def sampleOrder : IterOrder := ⟨id, fun entries => List.Perm.refl entries⟩

/-- The two fragments of a frame of two bytes; the second one may say that it is of a keyframe. -/
def sampleFragment (keyframe : Bool) (idx : Nat) (byte : UInt8) : List UInt8 :=
  fragmentBytes "a" 1 keyframe .h264 5 ⟨List.replicate 64 7, rfl⟩ idx 2 [byte]

/-- Two pushes. -/
def samplePushes (second : Bool) : List Op :=
  [.push sampleOrder (sampleFragment false 0 1) 0, .push sampleOrder (sampleFragment second 1 2) 0]

/-- The frame that the two bytes make. -/
def sampleFrame : ReassembledFrame where
  sender := "a"
  frameSeq := 1
  keyframe := false
  codec := .h264
  ptsUs := 5
  signature := ⟨List.replicate 64 7, rfl⟩
  sealed := [1, 2]

/-- The header of a sample fragment. -/
def sampleHeader (keyframe : Bool) (idx : Nat) : FragmentHeader where
  keyframe := keyframe
  codec := .h264
  ptsUs := 5
  sender := "a"
  frameSeq := 1
  fragIdx := idx
  fragCount := 2
  signature := if idx = 0 then some ⟨List.replicate 64 7, rfl⟩ else none

theorem sampleFragment_parse (keyframe : Bool) {idx : Nat} (hidx : idx < 2) (byte : UInt8) :
    parseFragment (sampleFragment keyframe idx byte) = some (sampleHeader keyframe idx, [byte]) :=
  FragmentsAux.parseFragment_fragmentBytes 1 keyframe .h264 5 ⟨List.replicate 64 7, rfl⟩ [byte] (by decide) (by decide) hidx
    (by decide)

/-- What a place of the sample pushes is. -/
theorem samplePushes_pushed {second : Bool} {pos : Nat} {hdr : FragmentHeader} {chunk : List UInt8}
    (h : Pushed (samplePushes second) pos hdr chunk) : hdr = sampleHeader false 0 ∨ hdr = sampleHeader second 1 := by
  obtain ⟨order, buf, now, hat, hparse⟩ := h
  obtain ⟨hlt, hat⟩ := List.getElem?_eq_some_iff.mp hat
  have hpos : pos = 0 ∨ pos = 1 := by
    simp only [samplePushes, List.length_cons, List.length_nil] at hlt
    omega
  obtain rfl | rfl := hpos
  · cases hat
    rw [sampleFragment_parse false (by decide)] at hparse
    cases hparse
    exact Or.inl rfl
  · cases hat
    rw [sampleFragment_parse second (by decide)] at hparse
    cases hparse
    exact Or.inr rfl

/-- Both flags agree. -/
theorem samplePushes_agree : ∀ pre op post, samplePushes false = pre ++ op :: post → KeyframesAgree (after pre) op := by
  intro pre op post hops
  cases pre with
  | nil =>
    cases hops
    intro hdr chunk s p _ hs
    cases hs
  | cons op₁ pre =>
  cases pre with
  | nil =>
    cases hops
    intro hdr chunk s p hparse hs hp _ _ _ _
    rw [sampleFragment_parse false (by decide)] at hparse
    cases hparse
    have hkept : ((((after [.push sampleOrder (sampleFragment false 0 1) 0]).evictExpired 0).senders.lookup "a").bind
        (fun s => s.screen (sampleHeader false 1))).all (fun s => (s.partials.lookup 1).all fun p => !p.keyframe) = true := by
      decide +kernel
    have hlookup : (((after [.push sampleOrder (sampleFragment false 0 1) 0]).evictExpired 0).senders.lookup "a").bind
        (fun s => s.screen (sampleHeader false 1)) = some s := hs
    have hpartial : s.partials.lookup 1 = some p := hp
    rw [hlookup, Option.all_some, hpartial, Option.all_some] at hkept
    have hfalse : p.keyframe = false := by simpa using hkept
    exact hfalse
  | cons op₂ pre =>
    have hlength := congrArg List.length hops
    simp [samplePushes] at hlength

end FrameSplicingAux

theorem frames_not_spliced_sample :
    ((after [.push sampleOrder (sampleFragment false 0 1) 0]).push sampleOrder (sampleFragment false 1 2) 0).2 = some sampleFrame ∧
      Whole (samplePushes false) sampleFrame := by
  have hframe : ((after [.push sampleOrder (sampleFragment false 0 1) 0]).push sampleOrder (sampleFragment false 1 2) 0).2 =
      some sampleFrame := by
    decide +kernel
  exact ⟨hframe, frames_not_spliced (samplePushes false) samplePushes_agree [.push sampleOrder (sampleFragment false 0 1) 0] []
    sampleOrder (sampleFragment false 1 2) 0 sampleFrame rfl hframe⟩

/-- A fragment of a keyframe completes a frame that is not one. -/
theorem frames_spliced :
    ((after [.push sampleOrder (sampleFragment false 0 1) 0]).push sampleOrder (sampleFragment true 1 2) 0).2 = some sampleFrame ∧
      ¬Whole (samplePushes true) sampleFrame := by
  refine ⟨by decide +kernel, ?_⟩
  rintro ⟨count, pos, hdr, chunk, hcount, hparts, -⟩
  obtain ⟨hpushed, -, -, -, -, hfrags, -⟩ := hparts 0 hcount
  have htwo : count = 2 := by
    obtain h | h := samplePushes_pushed hpushed <;> rw [← hfrags, h] <;> rfl
  obtain ⟨hpushed, -, -, -, hidx, -, -, -, hkeyframe⟩ := hparts 1 (by omega)
  obtain h | h := samplePushes_pushed hpushed
  · rw [h] at hidx
    cases hidx
  · rw [h] at hkeyframe
    cases hkeyframe

end DoubleSlash.Video
