import Mathlib.Data.Nat.Bitwise
import Mathlib.Tactic.Common

/-!
# Machine words, and the faults a slice or an addition can raise

A `usize` is a natural number below `2 ^ bits`. Addition is checked in a debug build and wraps in a release build; indexing
and slicing are checked in both. A computation that can fault is `Except Fault α`: the fault is the panic, the value is what
the code goes on with. Nothing here is about one program.
-/

namespace DoubleSlash.Machine

/-- The widths of a machine word. -/
inductive Word where
  | w32 | w64
  deriving DecidableEq, Repr

/-- The number of bits of a word. -/
def Word.bits : Word → Nat
  | .w32 => 32
  | .w64 => 64

/-- One more than the largest word. -/
def Word.modulus (W : Word) : Nat := 2 ^ W.bits

/-- How the code was built: overflow is checked in a debug build and wraps in a release build. -/
inductive Build where
  | debug | release
  deriving DecidableEq, Repr

/-- What a panicking operation reports. -/
inductive Fault where
  | addOverflow
  | indexOutOfRange
  | sliceStartAfterEnd
  | sliceEndOutOfRange
  deriving DecidableEq, Repr

/-- `x + y` on machine words. -/
def add (b : Build) (W : Word) (x y : Nat) : Except Fault Nat :=
  if x + y < W.modulus then .ok (x + y)
  else match b with
    | .debug => .error .addOverflow
    | .release => .ok ((x + y) % W.modulus)

/-- `xs[i]`. -/
def index {α : Type} (xs : List α) (i : Nat) : Except Fault α :=
  match xs[i]? with
  | some x => .ok x
  | none => .error .indexOutOfRange

/-- `&xs[a..b]`. -/
def slice {α : Type} (xs : List α) (a b : Nat) : Except Fault (List α) :=
  if b < a then .error .sliceStartAfterEnd
  else if xs.length < b then .error .sliceEndOutOfRange
  else .ok ((xs.drop a).take (b - a))

/-- The computation raises no fault. -/
def NoFault {α : Type} (x : Except Fault α) : Prop := ∃ v, x = .ok v

@[simp] theorem noFault_ok {α : Type} (v : α) : NoFault (Except.ok v) := ⟨v, rfl⟩

@[simp] theorem not_noFault_error {α : Type} (e : Fault) : ¬NoFault (Except.error e : Except Fault α) := by
  rintro ⟨v, h⟩
  cases h

/-- A computation that goes on faults exactly when its first part does, or the rest does on the value. -/
theorem noFault_bind {α β : Type} (x : Except Fault α) (f : α → Except Fault β) :
    NoFault (x >>= f) ↔ ∃ v, x = .ok v ∧ NoFault (f v) := by
  cases x with
  | error e =>
    have he : (Except.error e >>= f) = Except.error e := rfl
    rw [he]
    constructor
    · intro h; exact absurd h (not_noFault_error e)
    · rintro ⟨v, hv, -⟩; cases hv
  | ok v =>
    constructor
    · intro h; exact ⟨v, rfl, h⟩
    · rintro ⟨v', hv, h⟩; cases hv; exact h

theorem add_ok {b : Build} {W : Word} {x y : Nat} (h : x + y < W.modulus) : add b W x y = .ok (x + y) := by
  simp [add, h]

theorem index_ok {α : Type} {xs : List α} {i : Nat} {x : α} (h : xs[i]? = some x) : index xs i = .ok x := by
  simp [index, h]

theorem slice_ok {α : Type} {xs : List α} {a b : Nat} (h : a ≤ b) (hb : b ≤ xs.length) :
    slice xs a b = .ok ((xs.drop a).take (b - a)) := by
  simp [slice, Nat.not_lt.mpr h, Nat.not_lt.mpr hb]

/-- A slice that ends before it starts faults. -/
theorem slice_of_lt {α : Type} {xs : List α} {a b : Nat} (h : b < a) : slice xs a b = .error .sliceStartAfterEnd := by
  simp [slice, h]

/-- The bytes a program can hold in one slice: never more than half the address space. -/
structure Bytes (W : Word) where
  data : List UInt8
  fits : data.length < 2 ^ (W.bits - 1)

/-- Half the address space, twice over, is the address space. -/
theorem Word.two_mul_half (W : Word) : 2 * 2 ^ (W.bits - 1) = W.modulus := by
  cases W <;> decide

/-- Half the address space is far more than the longest header of a length field. -/
theorem Word.half_ge (W : Word) : 2 ^ 31 ≤ 2 ^ (W.bits - 1) := by
  cases W <;> decide

end DoubleSlash.Machine
