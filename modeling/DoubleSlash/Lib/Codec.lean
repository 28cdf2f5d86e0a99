import Mathlib.Data.List.DropRight
import Mathlib.Tactic.Common

/-!
# Text codecs: hexadecimal and URL-safe base64

`hexDecode` and `b64urlDecode` are total functions from text to bytes. Base64 is decoded strictly: padding is canonical or
absent, and the bits a short last group leaves over are zero. What a decoded text looks like (`b64urlDecode_alphabet`) is
all the developments above need of them.
-/

namespace DoubleSlash.Codec

/-- `enc` is a prefix code: a coded value is read back whatever follows it. -/
def PrefixCode {α β : Type} (enc : α → List β) : Prop :=
  ∀ a b x y, enc a ++ x = enc b ++ y → a = b ∧ x = y

/-- What reads back, whatever follows, is a prefix code. -/
theorem PrefixCode.of_read {α β : Type} {enc : α → List β} (read : List β → Option (α × List β))
    (h : ∀ a x, read (enc a ++ x) = some (a, x)) : PrefixCode enc := by
  intro a b x y heq
  have hab : some (a, x) = some (b, y) := by rw [← h a x, heq, h b y]
  simpa using hab

/-- The value of a hexadecimal digit, either case. -/
def hexDigit (c : Char) : Option Nat :=
  if '0' ≤ c ∧ c ≤ '9' then some (c.toNat - 48)
  else if 'a' ≤ c ∧ c ≤ 'f' then some (c.toNat - 87)
  else if 'A' ≤ c ∧ c ≤ 'F' then some (c.toNat - 55)
  else none

/-- The bytes of a list of hexadecimal digits, two digits a byte. -/
def hexDecodeChars : List Char → Option (List UInt8)
  | [] => some []
  | [_] => none
  | a :: b :: rest => do
    let hi ← hexDigit a
    let lo ← hexDigit b
    let tail ← hexDecodeChars rest
    return UInt8.ofNat (16 * hi + lo) :: tail

/-- `hex::decode`. -/
def hexDecode (s : String) : Option (List UInt8) := hexDecodeChars s.toList

/-- The lower-case hexadecimal digit of a value below sixteen. -/
def hexChar (n : Nat) : Char :=
  if n < 10 then Char.ofNat (48 + n) else Char.ofNat (87 + n)

/-- `hex::encode`. -/
def hexEncode (bytes : List UInt8) : String :=
  String.ofList (bytes.flatMap fun b => [hexChar (b.toNat / 16), hexChar (b.toNat % 16)])

theorem hexDigit_hexChar : ∀ d < 16, hexDigit (hexChar d) = some d := by
  decide

theorem hexDecodeChars_encode (bytes : List UInt8) :
    hexDecodeChars (bytes.flatMap fun b => [hexChar (b.toNat / 16), hexChar (b.toNat % 16)]) = some bytes := by
  induction bytes with
  | nil => rfl
  | cons b bytes ih =>
    have hb := b.toNat_lt
    have hbyte : UInt8.ofNat (16 * (b.toNat / 16) + b.toNat % 16) = b := by
      rw [Nat.div_add_mod, UInt8.ofNat_toNat]
    simp only [List.flatMap_cons, List.cons_append, List.nil_append, hexDecodeChars,
      hexDigit_hexChar (b.toNat / 16) (by omega), hexDigit_hexChar (b.toNat % 16) (by omega), ih, Option.bind_eq_bind,
      Option.bind_some, hbyte]
    rfl

/-- `hex::decode` reads back what `hex::encode` writes. -/
theorem hexDecode_hexEncode (bytes : List UInt8) : hexDecode (hexEncode bytes) = some bytes := by
  unfold hexDecode hexEncode
  rw [String.toList_ofList]
  exact hexDecodeChars_encode bytes

theorem hexEncode_injective : Function.Injective hexEncode := by
  intro a b h
  have hab : some a = some b := by rw [← hexDecode_hexEncode a, h, hexDecode_hexEncode b]
  exact Option.some.inj hab

/-- The value of a character of the URL-safe base64 alphabet. -/
def b64Symbol (c : Char) : Option Nat :=
  if 'A' ≤ c ∧ c ≤ 'Z' then some (c.toNat - 65)
  else if 'a' ≤ c ∧ c ≤ 'z' then some (c.toNat - 71)
  else if '0' ≤ c ∧ c ≤ '9' then some (c.toNat + 4)
  else if c = '-' then some 62
  else if c = '_' then some 63
  else none

/-- The bytes of unpadded base64, four symbols to three bytes; a short last group must leave no bits over. -/
def b64Groups : List Char → Option (List UInt8)
  | [] => some []
  | [_] => none
  | [a, b] => do
    let x ← b64Symbol a
    let y ← b64Symbol b
    if y % 16 = 0 then return [UInt8.ofNat (4 * x + y / 16)] else none
  | [a, b, c] => do
    let x ← b64Symbol a
    let y ← b64Symbol b
    let z ← b64Symbol c
    if z % 4 = 0 then return [UInt8.ofNat (4 * x + y / 16), UInt8.ofNat (16 * (y % 16) + z / 4)] else none
  | a :: b :: c :: d :: rest => do
    let x ← b64Symbol a
    let y ← b64Symbol b
    let z ← b64Symbol c
    let t ← b64Symbol d
    let tail ← b64Groups rest
    return UInt8.ofNat (4 * x + y / 16) :: UInt8.ofNat (16 * (y % 16) + z / 4) ::
      UInt8.ofNat (64 * (z % 4) + t) :: tail

/-- `URL_SAFE.decode`: the padding is there and canonical. -/
def b64Padded (cs : List Char) : Option (List UInt8) :=
  let body := cs.rdropWhile (· == '=')
  if cs.length % 4 = 0 ∧ cs.length ≤ body.length + 2 then b64Groups body else none

/-- `b64url_decode`: with padding first, then without. -/
def b64urlDecode (s : String) : Option (List UInt8) := (b64Padded s.toList).orElse fun _ => b64Groups s.toList

/-- A character of the base64 alphabet, or the padding. -/
def IsB64Char (c : Char) : Prop := (b64Symbol c).isSome = true ∨ c = '='

/-- Every character of an unpadded text that decodes is of the alphabet. -/
theorem b64Groups_alphabet (cs : List Char) (bytes : List UInt8) (h : b64Groups cs = some bytes) :
    ∀ c ∈ cs, (b64Symbol c).isSome = true := by
  induction cs using b64Groups.induct generalizing bytes with
  | case1 => simp
  | case2 => simp [b64Groups] at h
  | case3 a b =>
    simp only [b64Groups, Option.bind_eq_bind, Option.bind_eq_some_iff] at h
    obtain ⟨x, hx, y, hy, -⟩ := h
    simp [hx, hy]
  | case4 a b c =>
    simp only [b64Groups, Option.bind_eq_bind, Option.bind_eq_some_iff] at h
    obtain ⟨x, hx, y, hy, z, hz, -⟩ := h
    simp [hx, hy, hz]
  | case5 a b c d rest ih =>
    simp only [b64Groups, Option.bind_eq_bind, Option.bind_eq_some_iff] at h
    obtain ⟨x, hx, y, hy, z, hz, t, ht, tail, htail, -⟩ := h
    have := ih tail htail
    simpa [hx, hy, hz, ht] using this

/-- Dropping from the right what satisfies `p` keeps every element that does not. -/
theorem mem_rdropWhile_of_not {α : Type} {p : α → Bool} {l : List α} {a : α} (h : a ∈ l) (hp : ¬p a = true) :
    a ∈ l.rdropWhile p := by
  have hr : a ∈ l.reverse.takeWhile p ++ l.reverse.dropWhile p := by
    rw [List.takeWhile_append_dropWhile]
    exact List.mem_reverse.mpr h
  rcases List.mem_append.mp hr with h' | h'
  · exact absurd (List.mem_takeWhile_imp h') hp
  · exact List.mem_reverse.mpr h'

/-- Every character of a text `b64urlDecode` accepts is of the alphabet or is padding. -/
theorem b64urlDecode_alphabet {s : String} {bytes : List UInt8} (h : b64urlDecode s = some bytes) :
    ∀ c ∈ s.toList, IsB64Char c := by
  intro c hc
  by_cases hpad : c = '='
  · exact Or.inr hpad
  left
  unfold b64urlDecode at h
  cases hp : b64Padded s.toList with
  | none =>
    rw [hp] at h
    exact b64Groups_alphabet _ _ h c hc
  | some bytes' =>
    simp only [b64Padded] at hp
    split at hp
    · exact b64Groups_alphabet _ _ hp c (mem_rdropWhile_of_not hc (by simpa using hpad))
    · cases hp

/-- A text that decodes also decodes without its padding. -/
theorem b64urlDecode_unpadded {s : String} {bytes : List UInt8} (h : b64urlDecode s = some bytes) :
    b64urlDecode (String.ofList (s.toList.rdropWhile (· == '='))) = some bytes := by
  have hbody : ∀ cs : List Char, b64Groups (cs.rdropWhile (· == '=')) = some bytes →
      b64urlDecode (String.ofList (cs.rdropWhile (· == '='))) = some bytes := fun cs hcs => by
    unfold b64urlDecode b64Padded
    simp only [String.toList_ofList, List.rdropWhile_idempotent]
    split <;> simp [hcs]
  unfold b64urlDecode at h
  cases hp : b64Padded s.toList with
  | some bytes' =>
    rw [hp] at h
    obtain rfl := Option.some.inj h
    simp only [b64Padded] at hp
    split at hp
    · exact hbody _ hp
    · cases hp
  | none =>
    rw [hp] at h
    have hno : s.toList.rdropWhile (· == '=') = s.toList := by
      refine List.rdropWhile_eq_self_iff.mpr fun hne heq => ?_
      have := b64Groups_alphabet _ _ h _ (List.getLast_mem hne)
      rw [beq_iff_eq.mp heq] at this
      exact absurd this (by decide)
    exact hbody _ (hno.symm ▸ h)

end DoubleSlash.Codec
