import DoubleSlash.Lemmas.Reassembly
import Mathlib.Data.List.Dedup
import Mathlib.Data.Nat.Find

/-!
# A frame through the wire

Fragments of one frame that reach a reassembler in any order, any number of times and between any other bytes give the frame
back once, with the fragment that was missing last.
-/

namespace DoubleSlash.Video

open Assoc Bytes

/-- The push `k` brings the last of the fragments that were missing. -/
def LastMissing (frags sent : List (List UInt8)) (k : Nat) : Prop :=
  (∀ frag ∈ frags, frag ∈ sent.take (k + 1)) ∧ ¬∀ frag ∈ frags, frag ∈ sent.take k

/-- The senders that a reassembler tracks or that some bytes parse to. -/
def sendersSeen (r : Reassembler) (sent : List (List UInt8)) : List String :=
  (r.senders.keys ++ sent.filterMap fun buf => (parseFragment buf).map fun out => out.1.sender).dedup

/-- What the fragments of `frame` promise. -/
structure RoundTrips (frame : ReassembledFrame) (maxPayload : Nat) (frags : List (List UInt8)) : Prop where
  /-- Every fragment fits the datagram. -/
  fits : ∀ frag ∈ frags, frag.length ≤ maxPayload
  /-- Every fragment parses to the frame's header, the signature on the first one only. -/
  parses : ∀ (i : Nat) (hi : i < frags.length), ∃ chunk, parseFragment frags[i] = some ({
      keyframe := frame.keyframe
      codec := frame.codec
      ptsUs := frame.ptsUs
      sender := frame.sender
      frameSeq := frame.frameSeq
      fragIdx := i
      fragCount := frags.length
      signature := if i = 0 then some frame.signature else none }, chunk)
  /-- The pushes return the frame once, with the fragment that was missing last. -/
  reassembles : ∀ (r : Reassembler) (now : Nat) (inputs : List (IterOrder × List UInt8)),
    r.senders.lookup frame.sender = none →
    (∀ x ∈ inputs, x.2 ∈ frags ∨ ∀ out, parseFragment x.2 = some out → out.1.sender ≠ frame.sender) →
    (∀ frag ∈ frags, frag ∈ inputs.map Prod.snd) →
    (sendersSeen r (inputs.map Prod.snd)).length ≤ maxSenders →
    frame.sealed.length ≤ maxPartialBytesPerSender →
      ∃ k, LastMissing frags (inputs.map Prod.snd) k ∧ (r.pushAll now inputs)[k]? = some (some frame) ∧
        ∀ j f, (r.pushAll now inputs)[j]? = some (some f) → f.sender = frame.sender → j = k

namespace Split

variable {F : Split} {known : List String} {now : Nat} {got : List Nat} {r : Reassembler}

/-- Every fragment of the frame has arrived or is among the bytes. -/
def Covered (F : Split) (got : List Nat) (sent : List (List UInt8)) : Prop := ∀ i < F.count, i ∈ got ∨ F.bytes i ∈ sent

theorem covered_nil (h : F.Arrived got) : F.Covered got [] ↔ got.length = F.count := by
  constructor
  · intro hcov
    exact h.length_of_all fun i hi => (hcov i hi).resolve_right List.not_mem_nil
  · intro hlen i hi
    exact Or.inl (h.all_of_length hlen i hi)

theorem covered_cons {got' : List Nat} {buf : List UInt8} (h : ∀ i < F.count, i ∈ got' ↔ F.bytes i = buf ∨ i ∈ got)
    (sent : List (List UInt8)) : F.Covered got (buf :: sent) ↔ F.Covered got' sent := by
  unfold Covered
  constructor <;> intro hcov i hi <;> have := hcov i hi <;> simp only [List.mem_cons, h i hi] at this ⊢ <;> tauto

/-- The bytes a run may push: fragments of the frame, and what parses to another known sender or not at all. -/
def Allowed (F : Split) (known : List String) (buf : List UInt8) : Prop :=
  (∃ i < F.count, buf = F.bytes i) ∨ ∀ out, parseFragment buf = some out → out.1.sender ≠ F.sender ∧ out.1.sender ∈ known

/-- **One push.** -/
theorem Holds.step (h : F.Holds known now r got) (hmem : F.sender ∈ known) (hknown : known.length ≤ maxSenders)
    {buf : List UInt8} (hbuf : F.Allowed known buf) (order : IterOrder) :
    ∃ got', F.Holds known now (r.push order buf now).1 got' ∧ (∀ i < F.count, i ∈ got' ↔ F.bytes i = buf ∨ i ∈ got) ∧
      ∀ f, ((r.push order buf now).2 = some f ∧ f.sender = F.sender) ↔
        (f = F.frame ∧ got.length ≠ F.count ∧ got'.length = F.count) := by
  rcases hbuf with ⟨i, hi, rfl⟩ | hother
  · obtain ⟨got', hholds, hgot, hout⟩ := h.own hmem hknown hi order
    refine ⟨got', hholds, fun j hj => ?_, fun f => ?_⟩
    · rw [hgot]
      exact or_congr_left ⟨fun hji => by rw [hji], fun hb => F.bytes_inj hj hi hb⟩
    · have hle := h.arrived.length_le
      rw [hout]
      constructor
      · rintro ⟨hf, -⟩
        split_ifs at hf with hlast
        exact ⟨(Option.some.inj hf).symm, by omega, hlast.2⟩
      · rintro ⟨rfl, hlt, hlast⟩
        exact ⟨if_pos ⟨by omega, hlast⟩, rfl⟩
  · obtain ⟨hholds, hout⟩ := h.other hother order
    refine ⟨got, hholds, fun i hi => ?_, fun f => ?_⟩
    · have hne : F.bytes i ≠ buf := by
        rintro rfl
        exact (hother _ (F.parse_bytes hi)).1 rfl
      simp [hne]
    · constructor
      · rintro ⟨hf, hsender⟩
        exact absurd hsender (hout f hf)
      · rintro ⟨-, hlt, hlast⟩
        exact absurd hlast hlt

/-- **A run of pushes.** Push `k` returns a frame for the sender exactly when it completes what was missing. -/
theorem Holds.run (h : F.Holds known now r got) (hmem : F.sender ∈ known) (hknown : known.length ≤ maxSenders)
    (inputs : List (IterOrder × List UInt8)) (hinputs : ∀ x ∈ inputs, F.Allowed known x.2) (k : Nat) (f : ReassembledFrame) :
    ((r.pushAll now inputs)[k]? = some (some f) ∧ f.sender = F.sender) ↔
      (f = F.frame ∧ F.Covered got ((inputs.map Prod.snd).take (k + 1)) ∧
        ¬F.Covered got ((inputs.map Prod.snd).take k)) := by
  induction inputs generalizing r got k with
  | nil => simp [Reassembler.pushAll]
  | cons x rest ih =>
    obtain ⟨got', hholds, hgot, hout⟩ := h.step hmem hknown (hinputs x (by simp)) x.1
    rw [List.map_cons, List.take_succ_cons, covered_cons hgot]
    cases k with
    | zero =>
      rw [List.take_zero, List.take_zero, covered_nil h.arrived, covered_nil hholds.arrived]
      have := hout f
      simp only [Reassembler.pushAll, List.getElem?_cons_zero, Option.some.injEq]
      tauto
    | succ k =>
      rw [List.take_succ_cons, covered_cons hgot]
      exact ih hholds (fun y hy => hinputs y (by simp [hy])) k

/-- All the fragments are among some bytes. -/
theorem covered_nil_iff (sent : List (List UInt8)) :
    F.Covered [] sent ↔ ∀ frag ∈ (List.range F.count).map F.bytes, frag ∈ sent := by
  simp [Covered]

theorem Covered.mono {sent sent' : List (List UInt8)} (h : F.Covered got sent) (hsub : ∀ b ∈ sent, b ∈ sent') :
    F.Covered got sent' := fun i hi => (h i hi).imp_right (hsub _)

/-- What a run completes, it completes at one push. -/
theorem exists_last {sent : List (List UInt8)} (h : F.Covered [] sent) :
    ∃ k, F.Covered [] (sent.take (k + 1)) ∧ ¬F.Covered [] (sent.take k) := by
  classical
  have hex : ∃ n, F.Covered [] (sent.take n) := ⟨sent.length, by rwa [List.take_length]⟩
  have hpos : Nat.find hex ≠ 0 := by
    intro h0
    have hspec := Nat.find_spec hex
    rw [h0, List.take_zero] at hspec
    rcases hspec 0 F.hpos with h' | h' <;> exact absurd h' List.not_mem_nil
  obtain ⟨k, hk⟩ := Nat.exists_eq_succ_of_ne_zero hpos
  exact ⟨k, by have := Nat.find_spec hex; rwa [hk] at this, Nat.find_min hex (by omega)⟩

theorem last_unique {sent : List (List UInt8)} {j k : Nat} (hj : F.Covered got (sent.take (j + 1)))
    (hj' : ¬F.Covered got (sent.take j)) (hk : F.Covered got (sent.take (k + 1))) (hk' : ¬F.Covered got (sent.take k)) :
    j = k := by
  have hmono : ∀ a b, a < b → F.Covered got (sent.take (a + 1)) → F.Covered got (sent.take b) := fun a b hab hcov =>
    hcov.mono fun x hx => (List.take_prefix_take_left (by omega)).subset hx
  rcases Nat.lt_trichotomy j k with hlt | heq | hlt
  · exact absurd (hmono j k hlt hj) hk'
  · exact heq
  · exact absurd (hmono k j hlt hk) hj'

/-- **The pushes of a split frame.** -/
theorem reassembles (F : Split) (r : Reassembler) (now : Nat) (inputs : List (IterOrder × List UInt8))
    (hnone : r.senders.lookup F.sender = none)
    (hinputs : ∀ x ∈ inputs, x.2 ∈ (List.range F.count).map F.bytes ∨
      ∀ out, parseFragment x.2 = some out → out.1.sender ≠ F.sender)
    (hall : ∀ frag ∈ (List.range F.count).map F.bytes, frag ∈ inputs.map Prod.snd)
    (hknown : (sendersSeen r (inputs.map Prod.snd)).length ≤ maxSenders) :
    ∃ k, LastMissing ((List.range F.count).map F.bytes) (inputs.map Prod.snd) k ∧
      (r.pushAll now inputs)[k]? = some (some F.frame) ∧
      ∀ j f, (r.pushAll now inputs)[j]? = some (some f) → f.sender = F.sender → j = k := by
  have hseen : ∀ x ∈ inputs, ∀ out, parseFragment x.2 = some out →
      out.1.sender ∈ sendersSeen r (inputs.map Prod.snd) := by
    intro x hx out hout
    rw [sendersSeen, List.mem_dedup, List.mem_append, List.mem_filterMap]
    exact Or.inr ⟨x.2, List.mem_map_of_mem hx, by rw [hout, Option.map_some]⟩
  have hmem : F.sender ∈ sendersSeen r (inputs.map Prod.snd) := by
    obtain ⟨x, hx, hx0⟩ := List.mem_map.mp (hall (F.bytes 0) (List.mem_map_of_mem (List.mem_range.mpr F.hpos)))
    have hparse := F.parse_bytes F.hpos
    rw [← hx0] at hparse
    exact hseen x hx _ hparse
  have hstart : F.Holds (sendersSeen r (inputs.map Prod.snd)) now r [] := by
    refine ⟨⟨List.nodup_nil, by simp⟩, hnone, ?_⟩
    intro s hs
    rw [sendersSeen, List.mem_dedup, List.mem_append]
    exact Or.inl hs
  have hallowed : ∀ x ∈ inputs, F.Allowed (sendersSeen r (inputs.map Prod.snd)) x.2 := by
    intro x hx
    rcases hinputs x hx with hfrag | hother
    · obtain ⟨i, hi, hxi⟩ := List.mem_map.mp hfrag
      exact Or.inl ⟨i, List.mem_range.mp hi, hxi.symm⟩
    · exact Or.inr fun out hout => ⟨hother out hout, hseen x hx out hout⟩
  have hrun := hstart.run hmem hknown inputs hallowed
  obtain ⟨k, hcov, hnot⟩ := exists_last ((covered_nil_iff _).mpr hall)
  refine ⟨k, ⟨(covered_nil_iff _).mp hcov, fun hk => hnot ((covered_nil_iff _).mpr hk)⟩, ?_, ?_⟩
  · exact ((hrun k F.frame).mpr ⟨rfl, hcov, hnot⟩).1
  · intro j f hf hsender
    obtain ⟨-, hj, hj'⟩ := (hrun j f).mp ⟨hf, hsender⟩
    exact last_unique hj hj' hcov hnot

end Split

/-- **Round trip.** Whatever `fragment_frame` returns comes back whole. -/
theorem roundTrips {sender : String} {frameSeq : UInt32} {keyframe : Bool} {codec : VideoCodec} {ptsUs : UInt64}
    {signature : Signature} {sealed : List UInt8} {maxPayload : Nat} {frags : List (List UInt8)}
    (h : fragmentFrame sender frameSeq keyframe codec ptsUs signature sealed maxPayload = some frags) :
    RoundTrips { sender, frameSeq, keyframe, codec, ptsUs, signature, sealed } maxPayload frags := by
  obtain ⟨hsender, hlen, cap, count, chunk, rfl, hpos, hcount, hcap, rfl, rfl⟩ := fragmentFrame_eq_some h
  refine ⟨?_, ?_, ?_⟩
  · intro frag hfrag
    obtain ⟨i, -, rfl⟩ := List.mem_map.mp hfrag
    have := length_fragmentBytes sender frameSeq keyframe codec ptsUs signature i count (chunk i)
    have := hcap i
    omega
  · intro i hi
    have hi' : i < count := by simpa using hi
    refine ⟨chunk i, ?_⟩
    simp only [List.getElem_map, List.getElem_range, List.length_map, List.length_range]
    exact FragmentsAux.parseFragment_fragmentBytes frameSeq keyframe codec ptsUs signature (chunk i) hsender hlen hi' hcount
  · intro r now inputs hnone hinputs hall hknown hfits
    exact Split.reassembles
      { sender, frameSeq, keyframe, codec, ptsUs, signature, count, chunk, hsender, hlen, hpos, hcount, hfits } r now inputs hnone
      hinputs hall hknown

/-- Two fragments of a frame of three bytes. -/
def sampleFragments : List (List UInt8) :=
  [fragmentBytes "a" 7 true .vp8 40000 ⟨List.replicate 64 9, rfl⟩ 0 2 [1, 2],
    fragmentBytes "a" 7 true .vp8 40000 ⟨List.replicate 64 9, rfl⟩ 1 2 [3]]

theorem fragmentFrame_sample :
    fragmentFrame "a" 7 true .vp8 40000 ⟨List.replicate 64 9, rfl⟩ [1, 2, 3] 87 = some sampleFragments := by
  rfl

theorem roundTrips_sample :
    fragmentFrame "a" 7 true .vp8 40000 ⟨List.replicate 64 9, rfl⟩ [1, 2, 3] 87 = some sampleFragments ∧
      RoundTrips { sender := "a", frameSeq := 7, keyframe := true, codec := .vp8, ptsUs := 40000,
                   signature := ⟨List.replicate 64 9, rfl⟩, sealed := [1, 2, 3] } 87 sampleFragments :=
  ⟨fragmentFrame_sample, roundTrips fragmentFrame_sample⟩

end DoubleSlash.Video
