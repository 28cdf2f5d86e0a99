import DoubleSlash.Lib.Codec

/-!
# The text of a flat JSON object

What `serde_json::to_vec` writes for a map of texts, booleans and numbers: no blanks, the escapes of RFC 8259 for quotes,
backslashes and control characters, everything else as it is. A map of texts and booleans can be told from its text
(`toVec_injective`).
-/

namespace DoubleSlash.JsonText

open Codec

/-- A value of a flat object. -/
inductive Scalar where
  | str (s : String)
  | bool (b : Bool)
  | nat (n : Nat)
  deriving DecidableEq, Repr

/-- How a character stands inside a text. -/
def escapeChar (c : Char) : List Char :=
  if c = '"' then ['\\', '"']
  else if c = '\\' then ['\\', '\\']
  else if c = '\n' then ['\\', 'n']
  else if c = '\r' then ['\\', 'r']
  else if c = '\t' then ['\\', 't']
  else if c = '\x08' then ['\\', 'b']
  else if c = '\x0c' then ['\\', 'f']
  else if c.toNat < 32 then ['\\', 'u', '0', '0', hexChar (c.toNat / 16), hexChar (c.toNat % 16)]
  else [c]

/-- The characters of a text and its closing quote. -/
def closeQuote : List Char → List Char
  | [] => ['"']
  | c :: rest => escapeChar c ++ closeQuote rest

/-- A text between quotes. -/
def quote (s : String) : List Char := '"' :: closeQuote s.toList

def Scalar.text : Scalar → List Char
  | .str s => quote s
  | .bool true => ['t', 'r', 'u', 'e']
  | .bool false => ['f', 'a', 'l', 's', 'e']
  | .nat n => (Nat.repr n).toList

/-- One member of an object. -/
def member (field : String × Scalar) : List Char := quote field.1 ++ ':' :: field.2.text

/-- The members after the first and the closing brace. -/
def moreMembers : List (String × Scalar) → List Char
  | [] => ['}']
  | field :: rest => ',' :: (member field ++ moreMembers rest)

/-- The members of an object and the closing brace. -/
def members : List (String × Scalar) → List Char
  | [] => ['}']
  | field :: rest => member field ++ moreMembers rest

/-- `serde_json::to_vec` of a map, its fields in the order the map has them. -/
def toVec (fields : List (String × Scalar)) : List UInt8 :=
  (String.ofList ('{' :: members fields)).toUTF8.data.toList

namespace JsonTextAux

/-- The character at the front of a text's inside. -/
def unescape : List Char → Option (Char × List Char)
  | '\\' :: 'u' :: _ :: _ :: hi :: lo :: rest => do
    let hi ← hexDigit hi
    let lo ← hexDigit lo
    return (Char.ofNat (16 * hi + lo), rest)
  | '\\' :: 'n' :: rest => some ('\n', rest)
  | '\\' :: 'r' :: rest => some ('\r', rest)
  | '\\' :: 't' :: rest => some ('\t', rest)
  | '\\' :: 'b' :: rest => some ('\x08', rest)
  | '\\' :: 'f' :: rest => some ('\x0c', rest)
  | '\\' :: c :: rest => some (c, rest)
  | c :: rest => some (c, rest)
  | [] => none

theorem unescape_escapeChar (c : Char) (x : List Char) : unescape (escapeChar c ++ x) = some (c, x) := by
  unfold escapeChar
  split_ifs with h1 h2 h3 h4 h5 h6 h7 h8
  · rw [h1]; rfl
  · rw [h2]; rfl
  · rw [h3]; rfl
  · rw [h4]; rfl
  · rw [h5]; rfl
  · rw [h6]; rfl
  · rw [h7]; rfl
  · have hc : Char.ofNat (16 * (c.toNat / 16) + c.toNat % 16) = c := by
      rw [Nat.div_add_mod, Char.ofNat_toNat]
    simp only [List.cons_append, List.nil_append, unescape, hexDigit_hexChar (c.toNat / 16) (by omega),
      hexDigit_hexChar (c.toNat % 16) (by omega), Option.bind_eq_bind, Option.bind_some, hc]
    rfl
  · simp only [List.cons_append, List.nil_append]
    unfold unescape
    split
    all_goals first
      | rfl
      | exact absurd (List.cons.inj ‹c :: x = _›).1 h2
      | simp_all

theorem escapeChar_prefixCode : PrefixCode escapeChar := PrefixCode.of_read unescape unescape_escapeChar

/-- A written character does not start with a quote. -/
theorem escapeChar_ne_quote (c : Char) (x y : List Char) : escapeChar c ++ x ≠ '"' :: y := by
  intro h
  have hhead := congrArg List.head? h
  unfold escapeChar at hhead
  split_ifs at hhead with h1
  all_goals first
    | exact absurd (Option.some.inj hhead) (by decide)
    | exact h1 (Option.some.inj hhead)

theorem closeQuote_prefixCode : PrefixCode closeQuote := by
  intro a
  induction a with
  | nil =>
    intro b x y h
    cases b with
    | nil => exact ⟨rfl, by simpa [closeQuote] using h⟩
    | cons c b =>
      simp only [closeQuote, List.append_assoc, List.cons_append, List.nil_append] at h
      exact absurd h.symm (escapeChar_ne_quote c _ _)
  | cons c a ih =>
    intro b x y h
    cases b with
    | nil =>
      simp only [closeQuote, List.append_assoc, List.cons_append, List.nil_append] at h
      exact absurd h (escapeChar_ne_quote c _ _)
    | cons d b =>
      simp only [closeQuote, List.append_assoc] at h
      obtain ⟨rfl, hrest⟩ := escapeChar_prefixCode _ _ _ _ h
      obtain ⟨rfl, hx⟩ := ih _ _ _ hrest
      exact ⟨rfl, hx⟩

theorem quote_prefixCode : PrefixCode quote := by
  intro a b x y h
  obtain ⟨hl, hx⟩ := closeQuote_prefixCode _ _ _ _ (List.cons.inj h).2
  exact ⟨String.toList_inj.mp hl, hx⟩

/-- The value shows where it ends: a text or a boolean. -/
def Closed : Scalar → Prop
  | .nat _ => False
  | _ => True

theorem text_append_inj {v w : Scalar} (hv : Closed v) (hw : Closed w) {x y : List Char}
    (h : v.text ++ x = w.text ++ y) : v = w ∧ x = y := by
  rcases v with s | b | n
  · rcases w with s' | b' | n'
    · obtain ⟨rfl, hx⟩ := quote_prefixCode _ _ _ _ h
      exact ⟨rfl, hx⟩
    · cases b' <;> simp [Scalar.text, quote] at h
    · exact hw.elim
  · rcases w with s' | b' | n'
    · cases b <;> simp [Scalar.text, quote] at h
    · cases b <;> cases b' <;> simp_all [Scalar.text]
    · exact hw.elim
  · exact hv.elim

theorem member_append_inj {f g : String × Scalar} (hf : Closed f.2) (hg : Closed g.2) {x y : List Char}
    (h : member f ++ x = member g ++ y) : f = g ∧ x = y := by
  simp only [member, List.append_assoc, List.cons_append] at h
  obtain ⟨hkey, h⟩ := quote_prefixCode _ _ _ _ h
  obtain ⟨hval, hx⟩ := text_append_inj hf hg (List.cons.inj h).2
  exact ⟨Prod.ext hkey hval, hx⟩

theorem moreMembers_inj (fs gs : List (String × Scalar)) (hf : ∀ f ∈ fs, Closed f.2) (hg : ∀ g ∈ gs, Closed g.2)
    (h : moreMembers fs = moreMembers gs) : fs = gs := by
  induction fs generalizing gs with
  | nil =>
    cases gs with
    | nil => rfl
    | cons g gs => simp [moreMembers] at h
  | cons f fs ih =>
    cases gs with
    | nil => simp [moreMembers] at h
    | cons g gs =>
      obtain ⟨rfl, hrest⟩ := member_append_inj (hf f (by simp)) (hg g (by simp)) (List.cons.inj h).2
      rw [ih gs (fun x hx => hf x (by simp [hx])) (fun x hx => hg x (by simp [hx])) hrest]

theorem members_inj (fs gs : List (String × Scalar)) (hf : ∀ f ∈ fs, Closed f.2) (hg : ∀ g ∈ gs, Closed g.2)
    (h : members fs = members gs) : fs = gs := by
  cases fs with
  | nil =>
    cases gs with
    | nil => rfl
    | cons g gs => simp [members, member, quote] at h
  | cons f fs =>
    cases gs with
    | nil => simp [members, member, quote] at h
    | cons g gs =>
      obtain ⟨rfl, hrest⟩ := member_append_inj (hf f (by simp)) (hg g (by simp)) h
      rw [moreMembers_inj fs gs (fun x hx => hf x (by simp [hx])) (fun x hx => hg x (by simp [hx])) hrest]

end JsonTextAux

open JsonTextAux

/-- Two maps of texts and booleans with one text are one map. -/
theorem toVec_injective {fs gs : List (String × Scalar)} (hf : ∀ f ∈ fs, Closed f.2) (hg : ∀ g ∈ gs, Closed g.2)
    (h : toVec fs = toVec gs) : fs = gs := by
  have hbytes : (String.ofList ('{' :: members fs)).toUTF8 = (String.ofList ('{' :: members gs)).toUTF8 :=
    ByteArray.ext (Array.toList_inj.mp h)
  have htext := String.toByteArray_inj.mp hbytes
  have hchars := congrArg String.toList htext
  rw [String.toList_ofList, String.toList_ofList] at hchars
  exact members_inj fs gs hf hg (List.cons.inj hchars).2

end DoubleSlash.JsonText
