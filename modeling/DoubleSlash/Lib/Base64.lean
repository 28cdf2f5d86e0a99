import DoubleSlash.Lib.Codec

/-!
# Standard base64

The `STANDARD` engine: the alphabet with `+` and `/`, padding written and required. Decoding goes through the URL-safe decoder
by exchanging the two characters in which the alphabets differ. What is encoded decodes to the same bytes, and unpadded text that
decodes is the encoding of what it decodes to.
-/

namespace DoubleSlash.Codec

/-- The character of a value below 64. -/
def b64Char (n : Nat) : Char :=
  if n < 26 then Char.ofNat (n + 65)
  else if n < 52 then Char.ofNat (n + 71)
  else if n < 62 then Char.ofNat (n - 4)
  else if n = 62 then '+'
  else '/'

/-- The character with the same value in the URL-safe alphabet; what only that alphabet has becomes invalid. -/
def toUrlSafe (c : Char) : Char :=
  if c = '+' then '-' else if c = '/' then '_' else if c = '-' ∨ c = '_' then '!' else c

/-- `STANDARD.decode`. -/
def b64Decode (s : String) : Option (List UInt8) := b64Padded (s.toList.map toUrlSafe)

/-- `STANDARD.encode`, as characters. -/
def b64EncodeChars : List UInt8 → List Char
  | [] => []
  | [a] => [b64Char (a.toNat / 4), b64Char (16 * (a.toNat % 4)), '=', '=']
  | [a, b] =>
    [b64Char (a.toNat / 4), b64Char (16 * (a.toNat % 4) + b.toNat / 16), b64Char (4 * (b.toNat % 16)), '=']
  | a :: b :: c :: rest =>
    b64Char (a.toNat / 4) :: b64Char (16 * (a.toNat % 4) + b.toNat / 16) :: b64Char (4 * (b.toNat % 16) + c.toNat / 64) ::
      b64Char (c.toNat % 64) :: b64EncodeChars rest

/-- `STANDARD.encode`. -/
def b64Encode (bytes : List UInt8) : String := String.ofList (b64EncodeChars bytes)

/-- The value of an encoded character is read back. -/
theorem b64Symbol_b64Char {n : Nat} (h : n < 64) : b64Symbol (toUrlSafe (b64Char n)) = some n := by
  revert n
  decide

theorem toUrlSafe_b64Char_ne {n : Nat} (h : n < 64) : toUrlSafe (b64Char n) ≠ '=' := by
  revert n
  decide

/-- The characters an encoding has before its padding. -/
def b64Body : List UInt8 → List Char
  | [] => []
  | [a] => [b64Char (a.toNat / 4), b64Char (16 * (a.toNat % 4))]
  | [a, b] => [b64Char (a.toNat / 4), b64Char (16 * (a.toNat % 4) + b.toNat / 16), b64Char (4 * (b.toNat % 16))]
  | a :: b :: c :: rest =>
    b64Char (a.toNat / 4) :: b64Char (16 * (a.toNat % 4) + b.toNat / 16) :: b64Char (4 * (b.toNat % 16) + c.toNat / 64) ::
      b64Char (c.toNat % 64) :: b64Body rest

/-- `URL_SAFE_NO_PAD.encode`. -/
def b64urlEncode (bytes : List UInt8) : String := String.ofList ((b64Body bytes).map toUrlSafe)

/-- `URL_SAFE.encode`. -/
def b64urlEncodePadded (bytes : List UInt8) : String := String.ofList ((b64EncodeChars bytes).map toUrlSafe)

/-- An encoding is its body and at most two characters of padding, in groups of four. -/
theorem b64EncodeChars_eq (bytes : List UInt8) :
    ∃ pad, b64EncodeChars bytes = b64Body bytes ++ List.replicate pad '=' ∧ pad ≤ 2 ∧
      ((b64Body bytes).length + pad) % 4 = 0 := by
  induction bytes using b64Body.induct with
  | case1 => exact ⟨0, by simp [b64EncodeChars, b64Body]⟩
  | case2 a => exact ⟨2, by simp [b64EncodeChars, b64Body]⟩
  | case3 a b => exact ⟨1, by simp [b64EncodeChars, b64Body]⟩
  | case4 a b c rest ih =>
    obtain ⟨pad, heq, hle, hmod⟩ := ih
    refine ⟨pad, by simp [b64EncodeChars, b64Body, heq], hle, ?_⟩
    simp only [b64Body, List.length_cons]
    omega

/-- What holds of the characters of the alphabet holds of those of the body. -/
theorem b64Body_forall {P : Char → Prop} (h : ∀ n < 64, P (toUrlSafe (b64Char n))) (bytes : List UInt8) :
    ∀ c ∈ (b64Body bytes).map toUrlSafe, P c := by
  induction bytes using b64Body.induct with
  | case1 => simp [b64Body]
  | case2 a =>
    have ha := a.toNat_lt
    simp only [b64Body, List.map_cons, List.map_nil, List.forall_mem_cons]
    exact ⟨h _ (by omega), h _ (by omega), by simp⟩
  | case3 a b =>
    have ha := a.toNat_lt
    have hb := b.toNat_lt
    simp only [b64Body, List.map_cons, List.map_nil, List.forall_mem_cons]
    exact ⟨h _ (by omega), h _ (by omega), h _ (by omega), by simp⟩
  | case4 a b c rest ih =>
    have ha := a.toNat_lt
    have hb := b.toNat_lt
    have hc := c.toNat_lt
    simp only [b64Body, List.map_cons, List.forall_mem_cons]
    exact ⟨h _ (by omega), h _ (by omega), h _ (by omega), h _ (by omega), ih⟩

/-- No character of the body is padding. -/
theorem b64Body_ne_pad (bytes : List UInt8) : ∀ c ∈ (b64Body bytes).map toUrlSafe, (c == '=') = false :=
  b64Body_forall (fun _ hn => beq_eq_false_iff_ne.mpr (toUrlSafe_b64Char_ne hn)) bytes

/-- Three bytes take four characters. -/
theorem length_b64Body (bytes : List UInt8) : (b64Body bytes).length = (4 * bytes.length + 2) / 3 := by
  induction bytes using b64Body.induct with
  | case1 => simp [b64Body]
  | case2 a => simp [b64Body]
  | case3 a b => simp [b64Body]
  | case4 a b c rest ih =>
    simp only [b64Body, List.length_cons, ih]
    omega

/-- The body decodes to the bytes. -/
theorem b64Groups_b64Body (bytes : List UInt8) : b64Groups ((b64Body bytes).map toUrlSafe) = some bytes := by
  have hbyte : ∀ (a : UInt8) {n : Nat}, n = a.toNat → UInt8.ofNat n = a := fun a n h => by
    rw [h, UInt8.ofNat_toNat]
  induction bytes using b64Body.induct with
  | case1 => simp [b64Body, b64Groups]
  | case2 a =>
    have ha := a.toNat_lt
    simp only [b64Body, List.map_cons, List.map_nil, b64Groups]
    rw [b64Symbol_b64Char (by omega), b64Symbol_b64Char (by omega)]
    simp only [Option.bind_eq_bind, Option.bind_some]
    rw [if_pos (by omega), hbyte a (by omega)]
    rfl
  | case3 a b =>
    have ha := a.toNat_lt
    have hb := b.toNat_lt
    simp only [b64Body, List.map_cons, List.map_nil, b64Groups]
    rw [b64Symbol_b64Char (by omega), b64Symbol_b64Char (by omega), b64Symbol_b64Char (by omega)]
    simp only [Option.bind_eq_bind, Option.bind_some]
    rw [if_pos (by omega), hbyte a (by omega), hbyte b (by omega)]
    rfl
  | case4 a b c rest ih =>
    have ha := a.toNat_lt
    have hb := b.toNat_lt
    have hc := c.toNat_lt
    simp only [b64Body, List.map_cons, b64Groups]
    rw [b64Symbol_b64Char (by omega), b64Symbol_b64Char (by omega), b64Symbol_b64Char (by omega),
      b64Symbol_b64Char (by omega), ih]
    simp only [Option.bind_eq_bind, Option.bind_some]
    rw [hbyte a (by omega), hbyte b (by omega), hbyte c (by omega)]
    rfl

/-- Taking the padding off leaves the body. -/
theorem rdropWhile_pad (bytes : List UInt8) (pad : Nat) :
    ((b64Body bytes).map toUrlSafe ++ List.replicate pad '=').rdropWhile (· == '=') = (b64Body bytes).map toUrlSafe := by
  induction pad with
  | zero =>
    rw [List.replicate_zero, List.append_nil, List.rdropWhile_eq_self_iff]
    intro hne hlast
    rw [b64Body_ne_pad bytes _ (List.getLast_mem hne)] at hlast
    cases hlast
  | succ pad ih =>
    rw [List.replicate_succ', ← List.append_assoc, List.rdropWhile_concat_pos _ _ _ (by simp)]
    exact ih

/-- **What is encoded decodes to the same bytes.** -/
theorem b64Decode_b64Encode (bytes : List UInt8) : b64Decode (b64Encode bytes) = some bytes := by
  obtain ⟨pad, heq, hle, hmod⟩ := b64EncodeChars_eq bytes
  unfold b64Decode b64Encode b64Padded
  rw [String.toList_ofList, heq, List.map_append]
  have hpad : (List.replicate pad '=').map toUrlSafe = List.replicate pad '=' := by
    rw [List.map_replicate]
    rfl
  simp only [hpad, rdropWhile_pad, List.length_append, List.length_map, List.length_replicate]
  rw [if_pos ⟨hmod, by omega⟩]
  exact b64Groups_b64Body bytes

/-- A character of the alphabet is the one its value is written with. -/
theorem b64Char_of_symbol {c : Char} {n : Nat} (h : b64Symbol c = some n) : n < 64 ∧ toUrlSafe (b64Char n) = c := by
  have hchar : ∀ {k : Nat}, c.toNat = k → c = Char.ofNat k := by
    intro k hk
    rw [← hk, Char.ofNat_toNat]
  have hall : ∀ k < 128, ∀ m, b64Symbol (Char.ofNat k) = some m → m < 64 ∧ toUrlSafe (b64Char m) = Char.ofNat k := by
    intro k hk m hm
    have hcases : ∀ k < 128,
        (b64Symbol (Char.ofNat k)).all (fun m => decide (m < 64 ∧ toUrlSafe (b64Char m) = Char.ofNat k)) = true := by
      decide
    have hk := hcases k hk
    rw [hm] at hk
    exact of_decide_eq_true hk
  have hlt : c.toNat < 128 := by
    unfold b64Symbol at h
    split at h
    · rename_i hc
      have : c.toNat ≤ 'Z'.toNat := hc.2
      exact Nat.lt_of_le_of_lt this (by decide)
    · split at h
      · rename_i hc
        have : c.toNat ≤ 'z'.toNat := hc.2
        exact Nat.lt_of_le_of_lt this (by decide)
      · split at h
        · rename_i hc
          have : c.toNat ≤ '9'.toNat := hc.2
          exact Nat.lt_of_le_of_lt this (by decide)
        · split at h
          · rename_i hc
            rw [hc]
            decide
          · split at h
            · rename_i hc
              rw [hc]
              decide
            · cases h
  have hc := hchar rfl
  rw [hc] at h
  have := hall c.toNat hlt n h
  rwa [← hc] at this

/-- **Unpadded base64 has one spelling.** What decodes is the encoding of what it decodes to. -/
theorem b64Body_of_groups {cs : List Char} {bytes : List UInt8} (h : b64Groups cs = some bytes) :
    (b64Body bytes).map toUrlSafe = cs := by
  have hnat : ∀ {k : Nat}, k < 256 → (UInt8.ofNat k).toNat = k := by
    intro k hk
    rw [UInt8.toNat_ofNat']
    exact Nat.mod_eq_of_lt hk
  induction cs using b64Groups.induct generalizing bytes with
  | case1 =>
    simp only [b64Groups, Option.some.injEq] at h
    subst h
    rfl
  | case2 c => simp [b64Groups] at h
  | case3 a b =>
    simp only [b64Groups, Option.bind_eq_bind, Option.bind_eq_some_iff] at h
    obtain ⟨x, hx, y, hy, h⟩ := h
    split at h
    · rename_i hmod
      obtain ⟨hx64, hxc⟩ := b64Char_of_symbol hx
      obtain ⟨hy64, hyc⟩ := b64Char_of_symbol hy
      cases h
      simp only [b64Body, List.map_cons, List.map_nil]
      rw [hnat (by omega), show (4 * x + y / 16) / 4 = x by omega, show 16 * ((4 * x + y / 16) % 4) = y by omega, hxc, hyc]
    · cases h
  | case4 a b c =>
    simp only [b64Groups, Option.bind_eq_bind, Option.bind_eq_some_iff] at h
    obtain ⟨x, hx, y, hy, z, hz, h⟩ := h
    split at h
    · rename_i hmod
      obtain ⟨hx64, hxc⟩ := b64Char_of_symbol hx
      obtain ⟨hy64, hyc⟩ := b64Char_of_symbol hy
      obtain ⟨hz64, hzc⟩ := b64Char_of_symbol hz
      cases h
      simp only [b64Body, List.map_cons, List.map_nil]
      rw [hnat (by omega), hnat (by omega), show (4 * x + y / 16) / 4 = x by omega,
        show 16 * ((4 * x + y / 16) % 4) + (16 * (y % 16) + z / 4) / 16 = y by omega,
        show 4 * ((16 * (y % 16) + z / 4) % 16) = z by omega, hxc, hyc, hzc]
    · cases h
  | case5 a b c d rest ih =>
    simp only [b64Groups, Option.bind_eq_bind, Option.bind_eq_some_iff] at h
    obtain ⟨x, hx, y, hy, z, hz, t, ht, tail, htail, h⟩ := h
    obtain ⟨hx64, hxc⟩ := b64Char_of_symbol hx
    obtain ⟨hy64, hyc⟩ := b64Char_of_symbol hy
    obtain ⟨hz64, hzc⟩ := b64Char_of_symbol hz
    obtain ⟨ht64, htc⟩ := b64Char_of_symbol ht
    cases h
    simp only [b64Body, List.map_cons]
    rw [ih htail, hnat (by omega), hnat (by omega), hnat (by omega), show (4 * x + y / 16) / 4 = x by omega,
      show 16 * ((4 * x + y / 16) % 4) + (16 * (y % 16) + z / 4) / 16 = y by omega,
      show 4 * ((16 * (y % 16) + z / 4) % 16) + (64 * (z % 4) + t) / 64 = z by omega,
      show (64 * (z % 4) + t) % 64 = t by omega, hxc, hyc, hzc, htc]

end DoubleSlash.Codec
