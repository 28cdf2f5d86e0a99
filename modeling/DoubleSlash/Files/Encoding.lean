import DoubleSlash.Files.Transfer
import DoubleSlash.Lib.Machine

/-!
# Payload encodings

Compression and the binary delta (CDv1) of `file_transfer.rs`. A delta is a list of instructions, deflated behind a magic
number: copy a range of the old file, or insert bytes.

## Applying a delta with machine words

`apply_delta` of `file_transfer.rs` as it runs: offsets are words, every addition is checked or wraps as the build has it, and every
slice is checked. The loop is given a number of turns, and has no result when they do not suffice.
-/

namespace DoubleSlash.Files

/-- `zlib_decompress`: at most `limit` bytes come out. -/
def zlibDecompress (z : Zlib) (data : List UInt8) (limit : Nat) : Except String (List UInt8) :=
  match z.inflate data (limit + 1) with
  | .error e => .error e
  | .ok out =>
    if limit < out.length then .error ("decompressed output exceeds " ++ limit.repr ++ " bytes") else .ok out

/-- `compress_data`: the output, and whether it is compressed. -/
def compressData (z : Zlib) (data : List UInt8) : List UInt8 × Bool :=
  if data.length < compressionThreshold then (data, false)
  else match z.deflate data with
    | .ok compressed => if compressed.length < data.length * 9 / 10 then (compressed, true) else (data, false)
    | .error _ => (data, false)

/-- `DELTA_MAGIC`. -/
def deltaMagic : List UInt8 := [0x43, 0x44, 0x76, 0x31]

/-- `u32::to_be_bytes`. -/
def toBe32 (n : Nat) : List UInt8 :=
  [UInt8.ofNat (n / 2 ^ 24), UInt8.ofNat (n / 2 ^ 16), UInt8.ofNat (n / 2 ^ 8), UInt8.ofNat n]

/-- `u32::from_be_bytes`. -/
def ofBe32 (bytes : List UInt8) : Nat := bytes.foldl (fun n b => 256 * n + b.toNat) 0

/-- `write_copy`, of the low 32 bits. -/
def writeCopy (src len : Nat) : List UInt8 := 0 :: toBe32 (src % 2 ^ 32) ++ toBe32 (len % 2 ^ 32)

/-- `write_insert`. -/
def writeInsert (seg : List UInt8) : List UInt8 := if seg = [] then [] else 1 :: toBe32 (seg.length % 2 ^ 32) ++ seg

/-- `WINDOW`. -/
def window : Nat := 16

/-- The window index: where the old file first has these bytes, as 32 bits. -/
def findWindow (old key : List UInt8) : Option Nat :=
  if old.length < window then none
  else ((List.range (old.length - window + 1)).find? fun i => (old.drop i).take window == key).map (· % 2 ^ 32)

/-- `extend_match`: how far two byte strings agree. -/
def commonPrefix : List UInt8 → List UInt8 → Nat
  | a :: as, b :: bs => if a = b then commonPrefix as bs + 1 else 0
  | _, _ => 0

/-- The loop of `diff_opcodes`, from position `j` with the bytes from `pending` on not yet written. -/
def diffFrom (old new : List UInt8) (pending j : Nat) : List UInt8 :=
  if _h : j + window ≤ new.length then
    match findWindow old ((new.drop j).take window) with
    | some src =>
      let mlen := commonPrefix (old.drop src) (new.drop j)
      if hm : window ≤ mlen then
        writeInsert ((new.drop pending).take (j - pending)) ++ writeCopy src mlen ++ diffFrom old new (j + mlen) (j + mlen)
      else diffFrom old new pending (j + 1)
    | none => diffFrom old new pending (j + 1)
  else writeInsert (new.drop pending)
termination_by new.length - j
decreasing_by
  all_goals simp only [window] at *
  all_goals omega

/-- `diff_opcodes`. -/
def diffOpcodes (old new : List UInt8) : List UInt8 :=
  if old = new then writeCopy 0 new.length else diffFrom old new 0 0

/-- `create_delta`: none when it is not smaller than the compressed file. -/
def createDelta (z : Zlib) (old new : List UInt8) : Option (List UInt8) :=
  match z.deflate (diffOpcodes old new), z.deflate new with
  | .ok compressed, .ok full =>
    if (deltaMagic ++ compressed).length < full.length then some (deltaMagic ++ compressed) else none
  | _, _ => none

/-- The instructions of a delta, applied. -/
def applyOps (old : List UInt8) (raw out : List UInt8) : Except String (List UInt8) :=
  match raw with
  | [] => .ok out
  | tag :: rest =>
    if tag = 0 then
      if rest.length < 8 then .error "truncated COPY"
      else
        let src := ofBe32 (rest.take 4)
        let len := ofBe32 ((rest.drop 4).take 4)
        if old.length < src + len then .error "COPY out of range"
        else if inlineMax < out.length + len then .error "delta output exceeds INLINE_MAX"
        else applyOps old (rest.drop 8) (out ++ (old.drop src).take len)
    else if tag = 1 then
      if rest.length < 4 then .error "truncated INSERT"
      else
        let len := ofBe32 (rest.take 4)
        let body := rest.drop 4
        if body.length < len then .error "INSERT past end"
        else if inlineMax < out.length + len then .error "delta output exceeds INLINE_MAX"
        else applyOps old (body.drop len) (out ++ body.take len)
    else .error ("Unknown opcode: " ++ tag.toNat.repr)
termination_by raw.length
decreasing_by
  all_goals simp only [List.length_cons, List.length_drop]
  all_goals omega

/-- `apply_delta`. -/
def applyDelta (z : Zlib) (old delta : List UInt8) : Except String (List UInt8) :=
  if delta.take 4 ≠ deltaMagic then .error "Invalid delta magic"
  else match zlibDecompress z (delta.drop 4) maxDeltaBytes with
    | .error e => .error e
    | .ok raw => if raw = [] then .error "Empty delta opcode stream" else applyOps old raw []

open Machine

/-- `usize::saturating_add`. -/
def saturatingAdd (W : Word) (x y : Nat) : Nat := min (x + y) (W.modulus - 1)

/-- What one turn of the loop comes to: an error, or the next offset and what is built so far. -/
abbrev DeltaTurn := Except Fault (Except String (Nat × List UInt8))

variable (b : Build) (W : Word) (old raw : List UInt8)

/-- The COPY branch. -/
def copyTurn (off : Nat) (out : List UInt8) : DeltaTurn := do
  let stop ← add b W off 8
  if raw.length < stop then return .error "truncated COPY"
  let mid ← add b W off 4
  let srcArr ← Machine.slice raw off mid
  let lenArr ← Machine.slice raw mid stop
  let src := ofBe32 srcArr
  let len := ofBe32 lenArr
  if old.length < saturatingAdd W src len then return .error "COPY out of range"
  if inlineMax < saturatingAdd W out.length len then return .error "delta output exceeds INLINE_MAX"
  let upto ← add b W src len
  let range ← Machine.slice old src upto
  return .ok (stop, out ++ range)

/-- The INSERT branch. -/
def insertTurn (off : Nat) (out : List UInt8) : DeltaTurn := do
  let start ← add b W off 4
  if raw.length < start then return .error "truncated INSERT"
  let lenArr ← Machine.slice raw off start
  let len := ofBe32 lenArr
  -- the one addition that does not saturate
  let stop ← add b W start len
  if raw.length < stop then return .error "INSERT past end"
  if inlineMax < saturatingAdd W out.length len then return .error "delta output exceeds INLINE_MAX"
  let seg ← Machine.slice raw start stop
  return .ok (stop, out ++ seg)

/-- One turn of the loop. -/
def deltaTurn (off : Nat) (out : List UInt8) : DeltaTurn := do
  let tag ← index raw off
  let off ← add b W off 1
  if tag = 0 then copyTurn b W old raw off out
  else if tag = 1 then insertTurn b W raw off out
  else return .error ("Unknown opcode: " ++ tag.toNat.repr)

/-- The loop of `apply_delta`, with so many turns at most. -/
def deltaLoop : Nat → Nat → List UInt8 → Option (Except Fault (Except String (List UInt8)))
  | turns, off, out =>
    if raw.length ≤ off then some (.ok (.ok out))
    else match turns with
      | 0 => none
      | turns + 1 => match deltaTurn b W old raw off out with
        | .error fault => some (.error fault)
        | .ok (.error e) => some (.ok (.error e))
        | .ok (.ok (off, out)) => deltaLoop turns off out

/-- `apply_delta`, with as many turns as there are instruction bytes. -/
def applyDeltaWords (z : Zlib) (delta : List UInt8) : Option (Except Fault (Except String (List UInt8))) :=
  if delta.length < deltaMagic.length ∨ delta.take 4 ≠ deltaMagic then some (.ok (.error "Invalid delta magic"))
  else match zlibDecompress z (delta.drop 4) maxDeltaBytes with
    | .error e => some (.ok (.error e))
    | .ok raw => if raw = [] then some (.ok (.error "Empty delta opcode stream")) else deltaLoop b W old raw raw.length 0 []

end DoubleSlash.Files
