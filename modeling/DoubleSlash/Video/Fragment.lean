import DoubleSlash.Lib.Assoc
import DoubleSlash.Lib.Bytes

/-!
# Video fragments

`fragment.rs`: a sealed frame is split into fragments that fit a datagram, and a reassembler puts the frames of several senders
together again. Instants are whole nanoseconds.
-/

namespace DoubleSlash.Video

open Assoc Bytes

/-- `VideoCodec`. -/
inductive VideoCodec where
  | h264 | vp8 | vp9 | stub
  deriving DecidableEq, Repr

/-- `as_wire`. -/
def VideoCodec.asWire : VideoCodec → UInt8
  | .h264 => 0x01
  | .vp8 => 0x02
  | .vp9 => 0x03
  | .stub => 0xFF

/-- `from_wire`. -/
def VideoCodec.fromWire (b : UInt8) : Option VideoCodec :=
  if b = 0x01 then some .h264
  else if b = 0x02 then some .vp8
  else if b = 0x03 then some .vp9
  else if b = 0xFF then some .stub
  else none

@[simp] theorem VideoCodec.fromWire_asWire (c : VideoCodec) : VideoCodec.fromWire c.asWire = some c := by
  cases c <;> rfl

/-- `FRAGMENT_VERSION`. -/
def fragmentVersion : UInt8 := 0x03

/-- `FIXED_PREFIX_LEN`. -/
def fixedPrefixLen : Nat := 12

/-- `FIXED_SUFFIX_LEN`. -/
def fixedSuffixLen : Nat := 8

/-- `SIGNATURE_LEN`. -/
def signatureLen : Nat := 64

/-- `MAX_SENDER_LEN`. -/
def maxSenderLen : Nat := 64

/-- `FLAG_KEYFRAME`. -/
def flagKeyframe : UInt8 := 0b00000001

/-- `FLAG_HAS_SIGNATURE`. -/
def flagHasSignature : UInt8 := 0b00000010

/-- `MAX_FRAGS_PER_FRAME`. -/
def maxFragsPerFrame : Nat := 512

/-- `MAX_PARTIAL_BYTES_PER_SENDER`. -/
def maxPartialBytesPerSender : Nat := 1536 * 1024

/-- `MAX_SENDERS`. -/
def maxSenders : Nat := 32

/-- `MAX_IN_FLIGHT_PER_SENDER`. -/
def maxInFlightPerSender : Nat := 8

/-- `PARTIAL_TIMEOUT`. -/
def partialTimeoutFlat : Nat := 200000000

/-- `PARTIAL_TIMEOUT_PER_FRAGMENT`. -/
def partialTimeoutPerFragment : Nat := 2000000

/-- `MONOTONIC_LAG`. -/
def monotonicLag : UInt32 := 2

/-- `RESTART_BACKWARD_JUMP`. -/
def restartBackwardJump : UInt32 := 256

/-- `partial_timeout`. -/
def partialTimeout (fragCount : Nat) : Nat := max partialTimeoutFlat (partialTimeoutPerFragment * fragCount)

/-- `[u8; SIGNATURE_LEN]`. -/
abbrev Signature := { bytes : List UInt8 // bytes.length = signatureLen }

/-- `FragmentHeader`. -/
structure FragmentHeader where
  keyframe : Bool
  codec : VideoCodec
  ptsUs : UInt64
  sender : String
  frameSeq : UInt32
  fragIdx : Nat
  fragCount : Nat
  signature : Option Signature
  deriving DecidableEq

/-- `ReassembledFrame`. -/
structure ReassembledFrame where
  sender : String
  frameSeq : UInt32
  keyframe : Bool
  codec : VideoCodec
  ptsUs : UInt64
  signature : Signature
  sealed : List UInt8
  deriving DecidableEq

/-- The bytes of fragment `idx` of `count`. -/
def fragmentBytes (sender : String) (frameSeq : UInt32) (keyframe : Bool) (codec : VideoCodec) (ptsUs : UInt64)
    (signature : Signature) (idx count : Nat) (chunk : List UInt8) : List UInt8 :=
  let flags := (if keyframe then flagKeyframe else 0) ||| (if idx = 0 then flagHasSignature else 0)
  [fragmentVersion, flags, codec.asWire] ++ beBytes 8 ptsUs.toNat ++ [UInt8.ofNat (utf8 sender).length] ++ utf8 sender ++
    beBytes 4 frameSeq.toNat ++ beBytes 2 idx ++ beBytes 2 count ++ (if idx = 0 then signature.val else []) ++ chunk

/-- `fragment_frame`. -/
def fragmentFrame (sender : String) (frameSeq : UInt32) (keyframe : Bool) (codec : VideoCodec) (ptsUs : UInt64)
    (signature : Signature) (sealed : List UInt8) (maxPayload : Nat) : Option (List (List UInt8)) :=
  if sender = "" ∨ maxSenderLen < (utf8 sender).length then none
  else
    let base := fixedPrefixLen + (utf8 sender).length + fixedSuffixLen
    -- `checked_sub` and the check for zero
    if maxPayload ≤ base + signatureLen then none
    else
      let chunkCap := maxPayload - (base + signatureLen)
      let count := max ((sealed.length + chunkCap - 1) / chunkCap) 1
      if maxFragsPerFrame < count then none
      else some ((List.range count).map fun idx =>
        fragmentBytes sender frameSeq keyframe codec ptsUs signature idx count
          (slice sealed (idx * chunkCap) (min (idx * chunkCap + chunkCap) sealed.length)))

/-- The signature field of a fragment and where its chunk starts. -/
def parseSignature (buf : List UInt8) (hasSig : Bool) (suffixEnd : Nat) : Option (Option Signature × Nat) :=
  if hasSig then
    if h : (slice buf suffixEnd (suffixEnd + signatureLen)).length = signatureLen then
      some (some ⟨_, h⟩, suffixEnd + signatureLen)
    else none
  else some (none, suffixEnd)

/-- `parse_fragment`. -/
def parseFragment (buf : List UInt8) : Option (FragmentHeader × List UInt8) :=
  if buf.length < fixedPrefixLen then none
  else if buf[0]? ≠ some fragmentVersion then none
  else do
    let flags ← buf[1]?
    let codec ← buf[2]?.bind VideoCodec.fromWire
    let ptsUs := UInt64.ofNat (beNat (slice buf 3 11))
    let senderLen ← buf[11]?.map UInt8.toNat
    if senderLen = 0 ∨ maxSenderLen < senderLen then none
    else
      let senderEnd := fixedPrefixLen + senderLen
      let suffixEnd := senderEnd + fixedSuffixLen
      if buf.length < suffixEnd then none
      else do
        let sender ← fromUtf8 (slice buf fixedPrefixLen senderEnd)
        let frameSeq := UInt32.ofNat (beNat (slice buf senderEnd (senderEnd + 4)))
        let fragIdx := beNat (slice buf (senderEnd + 4) (senderEnd + 6))
        let fragCount := beNat (slice buf (senderEnd + 6) suffixEnd)
        if fragCount = 0 ∨ maxFragsPerFrame < fragCount then none
        else if fragCount ≤ fragIdx then none
        else
          let hasSig := decide (flags &&& flagHasSignature ≠ 0)
          if hasSig ≠ decide (fragIdx = 0) then none
          else do
            let (signature, chunkStart) ← parseSignature buf hasSig suffixEnd
            return ({
              keyframe := decide (flags &&& flagKeyframe ≠ 0)
              codec := codec
              ptsUs := ptsUs
              sender := sender
              frameSeq := frameSeq
              fragIdx := fragIdx
              fragCount := fragCount
              signature := signature }, buf.drop chunkStart)

/-- `seq_newer`. -/
def seqNewer (a b : UInt32) : Bool := decide (a ≠ b) && decide (a - b < 0x80000000)

/-- `is_stream_restart`. -/
def isStreamRestart (lastCompleted : UInt32) (hdr : FragmentHeader) : Bool :=
  hdr.keyframe && decide (restartBackwardJump < lastCompleted - hdr.frameSeq)

/-- `PartialFrame`. -/
structure PartialFrame where
  keyframe : Bool
  codec : VideoCodec
  ptsUs : UInt64
  signature : Option Signature
  chunks : List (Option (List UInt8))
  received : Nat
  bytes : Nat
  firstSeen : Nat
  deriving DecidableEq

/-- `SenderState`. -/
structure SenderState where
  partials : HashMap UInt32 PartialFrame
  bytes : Nat
  lastCompleted : Option UInt32

/-- `SenderState::default()`. -/
def SenderState.default : SenderState where
  partials := ∅
  bytes := 0
  lastCompleted := none

/-- An order in which an iteration over the partial frames may come; a hash map promises none. -/
structure IterOrder where
  iter : List ((_ : UInt32) × PartialFrame) → List ((_ : UInt32) × PartialFrame)
  perm : ∀ entries, (iter entries).Perm entries

/-- `min_by_key`: the first of the least elements. -/
def minByKey {α : Type} (key : α → Nat) : List α → Option α
  | [] => none
  | x :: rest =>
    match minByKey key rest with
    | none => some x
    | some y => if key y < key x then some y else some x

namespace SenderState

/-- `drop_partial`. -/
def dropPartial (s : SenderState) (seq : UInt32) : SenderState :=
  match s.partials.lookup seq with
  | none => s
  | some p => { s with partials := s.partials.erase seq, bytes := s.bytes - p.bytes }

/-- `evict_oldest`. -/
def evictOldest (s : SenderState) (order : IterOrder) : SenderState :=
  match minByKey (fun e => e.2.firstSeen) (order.iter s.partials.entries) with
  | none => s
  | some e => s.dropPartial e.1

/-- The partial frames that have waited past their timeout go. -/
def dropExpired (s : SenderState) (now : Nat) : SenderState :=
  ((s.partials.entries.filter fun e => partialTimeout e.2.chunks.length ≤ now - e.2.firstSeen).map Sigma.fst).foldl dropPartial s

/-- What `evict_expired` keeps a sender for. -/
def tracked (s : SenderState) : Bool := !s.partials.entries.isEmpty || s.lastCompleted.isSome

/-- The check against the newest completed frame: `none` drops the fragment; a restarted stream starts from nothing. -/
def screen (s : SenderState) (hdr : FragmentHeader) : Option SenderState :=
  match s.lastCompleted with
  | none => some s
  | some last =>
    if seqNewer (last - monotonicLag) hdr.frameSeq || decide (hdr.frameSeq = last) then
      if isStreamRestart last hdr then some { partials := ∅, bytes := 0, lastCompleted := none } else none
    else some s

/-- Room for a partial frame that is not there yet. -/
def makeRoom (s : SenderState) (order : IterOrder) (seq : UInt32) : SenderState :=
  if (s.partials.lookup seq).isNone ∧ maxInFlightPerSender ≤ s.partials.entries.length then s.evictOldest order else s

/-- `entry(frame_seq).or_insert_with(..)`. -/
def openPartial (s : SenderState) (hdr : FragmentHeader) (now : Nat) : SenderState :=
  match s.partials.lookup hdr.frameSeq with
  | some _ => s
  | none =>
    { s with partials := s.partials.insert hdr.frameSeq {
        keyframe := hdr.keyframe
        codec := hdr.codec
        ptsUs := hdr.ptsUs
        signature := none
        chunks := List.replicate hdr.fragCount none
        received := 0
        bytes := 0
        firstSeen := now } }

/-- The loop that sheds the oldest work until the chunk fits; each turn takes a partial frame away. -/
def shed (order : IterOrder) (need : Nat) : Nat → SenderState → SenderState
  | 0, s => s
  | fuel + 1, s =>
    if maxPartialBytesPerSender < s.bytes + need ∧ 1 < s.partials.entries.length then
      shed order need fuel (s.evictOldest order)
    else s

/-- The fragment's chunk is filed. -/
def fill (entry : PartialFrame) (hdr : FragmentHeader) (chunk : List UInt8) : PartialFrame :=
  { entry with
    signature := hdr.signature.or entry.signature
    bytes := entry.bytes + chunk.length
    chunks := entry.chunks.set hdr.fragIdx (some chunk)
    received := entry.received + 1 }

/-- The frame `seq` is whole: it goes, and with it what it supersedes. -/
def completed (s : SenderState) (seq : UInt32) : SenderState :=
  let s := s.dropPartial seq
  if s.lastCompleted.all fun last => seqNewer seq last then
    let s := { s with lastCompleted := some seq }
    (s.partials.keys.filter fun q => seqNewer (seq - monotonicLag) q).foldl dropPartial s
  else s

/-- The chunk is stored and, when it was the last one, the frame returned. -/
def store (s : SenderState) (hdr : FragmentHeader) (chunk : List UInt8) : SenderState × Option ReassembledFrame :=
  match s.partials.lookup hdr.frameSeq with
  | none => (s, none)
  | some entry =>
    let entry := fill entry hdr chunk
    let s := { s with partials := s.partials.insert hdr.frameSeq entry, bytes := s.bytes + chunk.length }
    if entry.received < hdr.fragCount then (s, none)
    else match entry.signature, entry.chunks.mapM id with
      | some signature, some chunks =>
        (s.completed hdr.frameSeq, some {
          sender := hdr.sender
          frameSeq := hdr.frameSeq
          keyframe := entry.keyframe
          codec := entry.codec
          ptsUs := entry.ptsUs
          signature := signature
          sealed := chunks.flatten })
      | _, _ => (s, none)

/-- A fragment of this sender. -/
def accept (s : SenderState) (order : IterOrder) (hdr : FragmentHeader) (chunk : List UInt8) (now : Nat) :
    SenderState × Option ReassembledFrame :=
  match s.screen hdr with
  | none => (s, none)
  | some s =>
    let s := (s.makeRoom order hdr.frameSeq).openPartial hdr now
    match s.partials.lookup hdr.frameSeq with
    | none => (s, none)
    | some entry =>
      if entry.chunks.length ≠ hdr.fragCount then (s, none)
      else if entry.codec ≠ hdr.codec then (s, none)
      else if entry.ptsUs ≠ hdr.ptsUs then (s, none)
      else if (entry.chunks[hdr.fragIdx]?.join).isSome then (s, none)
      else
        let s := shed order chunk.length s.partials.entries.length s
        if maxPartialBytesPerSender < s.bytes + chunk.length then (s.dropPartial hdr.frameSeq, none)
        else s.store hdr chunk

end SenderState

/-- `Reassembler`. -/
structure Reassembler where
  senders : HashMap String SenderState

namespace Reassembler

/-- `clear`. -/
def clear (_ : Reassembler) : Reassembler := ⟨∅⟩

/-- `evict_expired`. -/
def evictExpired (r : Reassembler) (now : Nat) : Reassembler :=
  ⟨retain (mapValues r.senders fun s => s.dropExpired now) fun _ s => s.tracked⟩

/-- `push`. -/
def push (r : Reassembler) (order : IterOrder) (buf : List UInt8) (now : Nat) : Reassembler × Option ReassembledFrame :=
  match parseFragment buf with
  | none => (r, none)
  | some (hdr, chunk) =>
    let r := r.evictExpired now
    if (r.senders.lookup hdr.sender).isNone ∧ maxSenders ≤ r.senders.entries.length then (r, none)
    else
      let state := (r.senders.lookup hdr.sender).getD SenderState.default
      let out := state.accept order hdr chunk now
      (⟨r.senders.insert hdr.sender out.1⟩, out.2)

/-- A run of pushes at one instant: what each returns, and the reassembler at the end. -/
def pushAll (r : Reassembler) (now : Nat) : List (IterOrder × List UInt8) → List (Option ReassembledFrame)
  | [] => []
  | input :: rest =>
    let out := r.push input.1 input.2 now
    out.2 :: pushAll out.1 now rest

end Reassembler

/-- A call of the reassembler. -/
inductive Op where
  | push (order : IterOrder) (buf : List UInt8) (now : Nat)
  | evictExpired (now : Nat)
  | clear

/-- The reassembler after a call, and what the call returns. -/
def Reassembler.step (r : Reassembler) : Op → Reassembler × Option ReassembledFrame
  | .push order buf now => r.push order buf now
  | .evictExpired now => (r.evictExpired now, none)
  | .clear => (r.clear, none)

/-- The reassembler after a sequence of calls. -/
def after (ops : List Op) : Reassembler := ops.foldl (fun r op => (r.step op).1) ⟨∅⟩

/-- The sender whose stream a push restarts. -/
def Reassembler.restartedBy (r : Reassembler) (buf : List UInt8) (now : Nat) : Option String := do
  let (hdr, _) ← parseFragment buf
  let last ← ((r.evictExpired now).senders.lookup hdr.sender).bind SenderState.lastCompleted
  if (seqNewer (last - monotonicLag) hdr.frameSeq || decide (hdr.frameSeq = last)) && isStreamRestart last hdr then
    some hdr.sender
  else none

end DoubleSlash.Video
