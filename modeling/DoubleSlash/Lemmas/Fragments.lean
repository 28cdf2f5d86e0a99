import DoubleSlash.Video.Fragment

/-!
# Fragments on the wire

`parse_fragment` reads back every field that `fragment_frame` writes, and the chunks of a frame's fragments are the frame.
-/

namespace DoubleSlash.Video

open Assoc Bytes

namespace FragmentsAux

/-- The flags byte of a fragment. -/
def flagsOf (keyframe first : Bool) : UInt8 :=
  (if keyframe then flagKeyframe else 0) ||| (if first then flagHasSignature else 0)

theorem flagsOf_keyframe (keyframe first : Bool) : decide (flagsOf keyframe first &&& flagKeyframe ≠ 0) = keyframe := by
  cases keyframe <;> cases first <;> decide

theorem flagsOf_hasSignature (keyframe first : Bool) : decide (flagsOf keyframe first &&& flagHasSignature ≠ 0) = first := by
  cases keyframe <;> cases first <;> decide

/-- The bytes of a fragment before its signature and chunk. -/
def headerBytes (sender : String) (frameSeq : UInt32) (keyframe : Bool) (codec : VideoCodec) (ptsUs : UInt64) (idx count : Nat) :
    List UInt8 :=
  [fragmentVersion, flagsOf keyframe (decide (idx = 0)), codec.asWire] ++ beBytes 8 ptsUs.toNat ++
    [UInt8.ofNat (utf8 sender).length] ++ utf8 sender ++ beBytes 4 frameSeq.toNat ++ beBytes 2 idx ++ beBytes 2 count

theorem fragmentBytes_eq (sender : String) (frameSeq : UInt32) (keyframe : Bool) (codec : VideoCodec) (ptsUs : UInt64)
    (signature : Signature) (idx count : Nat) (chunk : List UInt8) :
    fragmentBytes sender frameSeq keyframe codec ptsUs signature idx count chunk =
      headerBytes sender frameSeq keyframe codec ptsUs idx count ++ ((if idx = 0 then signature.val else []) ++ chunk) := by
  simp [fragmentBytes, headerBytes, flagsOf]

theorem length_headerBytes (sender : String) (frameSeq : UInt32) (keyframe : Bool) (codec : VideoCodec) (ptsUs : UInt64)
    (idx count : Nat) :
    (headerBytes sender frameSeq keyframe codec ptsUs idx count).length =
      fixedPrefixLen + (utf8 sender).length + fixedSuffixLen := by
  simp [headerBytes, fixedPrefixLen, fixedSuffixLen]
  omega

section

variable (sender : String) (frameSeq : UInt32) (keyframe : Bool) (codec : VideoCodec) (ptsUs : UInt64) (idx count : Nat)
  (tail : List UInt8)

theorem slice_pts : slice (headerBytes sender frameSeq keyframe codec ptsUs idx count ++ tail) 3 11 = beBytes 8 ptsUs.toNat := by
  simp only [headerBytes, List.append_assoc]
  exact slice_mid [_, _, _] _ _ rfl rfl (by simp)

theorem getElem?_senderLen :
    (headerBytes sender frameSeq keyframe codec ptsUs idx count ++ tail)[11]? = some (UInt8.ofNat (utf8 sender).length) := by
  simp only [headerBytes, List.append_assoc]
  exact getElem?_mid ([_, _, _] ++ beBytes 8 _) _ (List.append_assoc _ _ _).symm (by simp)

/-- The bytes up to and including the sender's length. -/
theorem headerBytes_append :
    headerBytes sender frameSeq keyframe codec ptsUs idx count ++ tail =
      ([fragmentVersion, flagsOf keyframe (decide (idx = 0)), codec.asWire] ++ beBytes 8 ptsUs.toNat ++
        [UInt8.ofNat (utf8 sender).length]) ++
        (utf8 sender ++ (beBytes 4 frameSeq.toNat ++ (beBytes 2 idx ++ (beBytes 2 count ++ tail)))) := by
  simp [headerBytes]

theorem slice_sender :
    slice (headerBytes sender frameSeq keyframe codec ptsUs idx count ++ tail) fixedPrefixLen
      (fixedPrefixLen + (utf8 sender).length) = utf8 sender := by
  rw [headerBytes_append]
  exact slice_mid _ _ _ rfl (by simp [fixedPrefixLen]) rfl

theorem slice_frameSeq :
    slice (headerBytes sender frameSeq keyframe codec ptsUs idx count ++ tail) (fixedPrefixLen + (utf8 sender).length)
      (fixedPrefixLen + (utf8 sender).length + 4) = beBytes 4 frameSeq.toNat := by
  rw [headerBytes_append, ← List.append_assoc]
  exact slice_mid _ _ _ rfl (by simp [fixedPrefixLen]; omega) (by simp)

theorem slice_fragIdx :
    slice (headerBytes sender frameSeq keyframe codec ptsUs idx count ++ tail) (fixedPrefixLen + (utf8 sender).length + 4)
      (fixedPrefixLen + (utf8 sender).length + 6) = beBytes 2 idx := by
  rw [headerBytes_append, ← List.append_assoc, ← List.append_assoc]
  exact slice_mid _ _ _ rfl (by simp [fixedPrefixLen]; omega) (by simp)

theorem slice_fragCount :
    slice (headerBytes sender frameSeq keyframe codec ptsUs idx count ++ tail) (fixedPrefixLen + (utf8 sender).length + 6)
      (fixedPrefixLen + (utf8 sender).length + fixedSuffixLen) = beBytes 2 count := by
  rw [headerBytes_append, ← List.append_assoc, ← List.append_assoc, ← List.append_assoc]
  exact slice_mid _ _ _ rfl (by simp [fixedPrefixLen]; omega) (by simp [fixedSuffixLen])

end

theorem parseSignature_fragment (head : List UInt8) (signature : Signature) (idx : Nat) (chunk : List UInt8) :
    ∃ stop, parseSignature (head ++ ((if idx = 0 then signature.val else []) ++ chunk)) (decide (idx = 0)) head.length =
        some (if idx = 0 then some signature else none, stop) ∧
      (head ++ ((if idx = 0 then signature.val else []) ++ chunk)).drop stop = chunk := by
  by_cases h : idx = 0
  · simp only [h, if_true, parseSignature, decide_true]
    have hslice : slice (head ++ (signature.val ++ chunk)) head.length (head.length + signatureLen) = signature.val :=
      slice_mid _ _ _ rfl rfl (by rw [signature.property])
    refine ⟨head.length + signatureLen, ?_, ?_⟩
    · simp only [hslice, signature.property, dif_pos]
    · rw [← List.drop_drop, List.drop_left]
      exact List.drop_left' signature.property
  · simp only [h, if_false, parseSignature, decide_false]
    exact ⟨head.length, rfl, List.drop_left⟩

/-- **Reading back a fragment.** Every field comes back, and the signature exactly from the first one. -/
theorem parseFragment_fragmentBytes {sender : String} (frameSeq : UInt32) (keyframe : Bool) (codec : VideoCodec) (ptsUs : UInt64)
    (signature : Signature) {idx count : Nat} (chunk : List UInt8) (hsender : sender ≠ "")
    (hlen : (utf8 sender).length ≤ maxSenderLen) (hidx : idx < count) (hcount : count ≤ maxFragsPerFrame) :
    parseFragment (fragmentBytes sender frameSeq keyframe codec ptsUs signature idx count chunk) =
      some ({ keyframe, codec, ptsUs, sender, frameSeq, fragIdx := idx, fragCount := count,
              signature := if idx = 0 then some signature else none }, chunk) := by
  have hpos : (utf8 sender).length ≠ 0 := by simpa using utf8_ne_nil hsender
  rw [fragmentBytes_eq]
  have hhead := length_headerBytes sender frameSeq keyframe codec ptsUs idx count
  obtain ⟨stop, hsig, hchunk⟩ := parseSignature_fragment (headerBytes sender frameSeq keyframe codec ptsUs idx count) signature
    idx chunk
  rw [hhead] at hsig
  generalize (if idx = 0 then signature.val else []) ++ chunk = tail at hsig hchunk ⊢
  have hlenByte : (UInt8.ofNat (utf8 sender).length).toNat = (utf8 sender).length := by
    simp [maxSenderLen] at hlen ⊢
    omega
  have hbuf : fixedPrefixLen + (utf8 sender).length + fixedSuffixLen ≤
      (headerBytes sender frameSeq keyframe codec ptsUs idx count ++ tail).length := by
    rw [List.length_append, hhead]
    omega
  unfold parseFragment
  rw [if_neg (by omega), if_neg (by simp [headerBytes])]
  have hflags : (headerBytes sender frameSeq keyframe codec ptsUs idx count ++ tail)[1]? =
      some (flagsOf keyframe (decide (idx = 0))) := rfl
  have hcodec : (headerBytes sender frameSeq keyframe codec ptsUs idx count ++ tail)[2]? = some codec.asWire := rfl
  simp only [hflags, hcodec, slice_pts, getElem?_senderLen, Option.bind_eq_bind, Option.bind_some, Option.map_some,
    VideoCodec.fromWire_asWire, hlenByte]
  rw [if_neg (by omega), if_neg (by omega)]
  have hpts : UInt64.ofNat (beNat (beBytes 8 ptsUs.toNat)) = ptsUs := by
    rw [beNat_beBytes _ _ ptsUs.toNat_lt, UInt64.ofNat_toNat]
  have hseq : UInt32.ofNat (beNat (beBytes 4 frameSeq.toNat)) = frameSeq := by
    rw [beNat_beBytes _ _ frameSeq.toNat_lt, UInt32.ofNat_toNat]
  have hbound : count < 256 ^ 2 := Nat.lt_of_le_of_lt hcount (by decide)
  simp only [slice_sender, fromUtf8_utf8, Option.bind_some, slice_frameSeq, slice_fragIdx, slice_fragCount, hpts, hseq,
    beNat_beBytes 2 idx (Nat.lt_trans hidx hbound), beNat_beBytes 2 count hbound, flagsOf_hasSignature, flagsOf_keyframe, hsig,
    hchunk, ne_eq, not_true_eq_false, if_false]
  rw [if_neg (by omega), if_neg (by omega)]
  rfl

theorem slice_chunk (sealed : List UInt8) (a cap : Nat) :
    slice sealed a (min (a + cap) sealed.length) = (sealed.drop a).take cap := by
  rw [slice, List.take_eq_take_iff, List.length_drop]
  omega

/-- The chunks of a frame, in order, are the frame. -/
theorem flatMap_chunks (sealed : List UInt8) (cap n : Nat) :
    ((List.range n).flatMap fun i => slice sealed (i * cap) (min (i * cap + cap) sealed.length)) = sealed.take (n * cap) := by
  induction n with
  | zero => simp
  | succ n ih =>
    rw [List.range_succ, List.flatMap_append, ih, List.flatMap_cons, List.flatMap_nil, List.append_nil, slice_chunk,
      Nat.add_mul, Nat.one_mul, List.take_add]

end FragmentsAux

open FragmentsAux

/-- What `fragment_frame` returns: chunks of one size around the header, as many as the frame needs. -/
theorem fragmentFrame_eq_some {sender : String} {frameSeq : UInt32} {keyframe : Bool} {codec : VideoCodec} {ptsUs : UInt64}
    {signature : Signature} {sealed : List UInt8} {maxPayload : Nat} {frags : List (List UInt8)}
    (h : fragmentFrame sender frameSeq keyframe codec ptsUs signature sealed maxPayload = some frags) :
    sender ≠ "" ∧ (utf8 sender).length ≤ maxSenderLen ∧ ∃ cap count chunk,
      maxPayload = fixedPrefixLen + (utf8 sender).length + fixedSuffixLen + signatureLen + cap ∧ 0 < count ∧
        count ≤ maxFragsPerFrame ∧ (∀ i, (chunk i).length ≤ cap) ∧ (List.range count).flatMap chunk = sealed ∧
        frags = (List.range count).map fun i => fragmentBytes sender frameSeq keyframe codec ptsUs signature i count (chunk i) := by
  unfold fragmentFrame at h
  split_ifs at h with hsender
  obtain ⟨hne, hlen⟩ := not_or.mp hsender
  refine ⟨hne, Nat.le_of_not_lt hlen, ?_⟩
  simp only at h
  split_ifs at h with hroom hmany
  set cap := maxPayload - (fixedPrefixLen + (utf8 sender).length + fixedSuffixLen + signatureLen) with hcap
  set count := max ((sealed.length + cap - 1) / cap) 1
  refine ⟨cap, count, fun i => slice sealed (i * cap) (min (i * cap + cap) sealed.length), by omega, by omega, by omega, ?_, ?_,
    (Option.some.inj h).symm⟩
  · intro i
    simp only [slice_chunk, List.length_take]
    omega
  · rw [flatMap_chunks, List.take_of_length_le]
    have hceil : sealed.length ≤ (sealed.length + cap - 1) / cap * cap := by
      have hdiv := Nat.div_add_mod (sealed.length + cap - 1) cap
      have hmod := Nat.mod_lt (sealed.length + cap - 1) (y := cap) (by omega)
      rw [Nat.mul_comm]
      omega
    exact Nat.le_trans hceil (Nat.mul_le_mul_right cap (Nat.le_max_left _ _))

/-- A fragment is its header, the signature when it is the first, and its chunk. -/
theorem length_fragmentBytes (sender : String) (frameSeq : UInt32) (keyframe : Bool) (codec : VideoCodec) (ptsUs : UInt64)
    (signature : Signature) (idx count : Nat) (chunk : List UInt8) :
    (fragmentBytes sender frameSeq keyframe codec ptsUs signature idx count chunk).length ≤
      fixedPrefixLen + (utf8 sender).length + fixedSuffixLen + signatureLen + chunk.length := by
  rw [fragmentBytes_eq, List.length_append, List.length_append, length_headerBytes]
  split
  · rw [signature.property]
    omega
  · rw [List.length_nil]
    omega

/-- What the parser has checked of a header. -/
structure Checked (hdr : FragmentHeader) : Prop where
  some : 0 < hdr.fragCount
  few : hdr.fragCount ≤ maxFragsPerFrame
  idx : hdr.fragIdx < hdr.fragCount
  signature : hdr.signature.isSome = decide (hdr.fragIdx = 0)

theorem checked_of_parse {buf : List UInt8} {hdr : FragmentHeader} {chunk : List UInt8} (h : parseFragment buf = some (hdr, chunk)) :
    Checked hdr := by
  unfold parseFragment at h
  split at h
  · cases h
  · split at h
    · cases h
    · simp only [Option.bind_eq_bind, Option.bind_eq_some_iff] at h
      obtain ⟨flags, -, codec, -, senderLen, -, h⟩ := h
      split at h
      · cases h
      · split at h
        · cases h
        · obtain ⟨sender, -, h⟩ := Option.bind_eq_some_iff.mp h
          split at h
          · cases h
          · rename_i hcount
            split at h
            · cases h
            · rename_i hidx
              split at h
              · cases h
              · rename_i hsig
                obtain ⟨⟨signature, start⟩, hparse, h⟩ := Option.bind_eq_some_iff.mp h
                cases h
                rw [not_not] at hsig
                obtain ⟨hsome, hfew⟩ := not_or.mp hcount
                refine ⟨Nat.pos_of_ne_zero hsome, Nat.le_of_not_lt hfew, Nat.lt_of_not_le hidx, ?_⟩
                dsimp only
                rw [← hsig]
                unfold parseSignature at hparse
                split at hparse
                · rename_i hflag
                  split at hparse
                  · rw [← (Prod.mk.inj (Option.some.inj hparse)).1, hflag]
                    rfl
                  · cases hparse
                · rename_i hflag
                  rw [← (Prod.mk.inj (Option.some.inj hparse)).1]
                  simpa using hflag

end DoubleSlash.Video
