import DoubleSlash.Lib.JsonText
import DoubleSlash.Protocol.Message
import Mathlib.Data.List.TakeWhile

/-!
# The text of a JSON value

What `serde_json::to_vec` writes for any value: no blanks, objects in the order their maps have, a number that is not an integer as
the text it was read from. A value can be told from its text, and where it ends (`text_append_inj`).
-/

namespace DoubleSlash.Protocol

open Codec JsonText

mutual

/-- The text of a value. -/
def Json.text : Json → List Char
  | .null => ['n', 'u', 'l', 'l']
  | .bool true => ['t', 'r', 'u', 'e']
  | .bool false => ['f', 'a', 'l', 's', 'e']
  | .int n => n.repr.toList
  | .float text => text.toList
  | .str s => quote s
  | .arr [] => ['[', ']']
  | .arr (v :: items) => '[' :: (v.text ++ Json.moreItems items)
  | .obj [] => ['\x7b', '\x7d']
  | .obj ((key, v) :: fields) => '\x7b' :: (quote key ++ ':' :: (v.text ++ Json.moreFields fields))

/-- The items after the first and the closing bracket. -/
def Json.moreItems : List Json → List Char
  | [] => [']']
  | v :: items => ',' :: (v.text ++ Json.moreItems items)

/-- The members after the first and the closing brace. -/
def Json.moreFields : List (String × Json) → List Char
  | [] => ['\x7d']
  | (key, v) :: fields => ',' :: (quote key ++ ':' :: (v.text ++ Json.moreFields fields))

end

/-- `Value::get` of a key. -/
def Json.get : Json → String → Option Json
  | .obj fields, key => fields.lookup key
  | _, _ => none

/-- `serde_json::to_vec`. -/
def Json.toVec (v : Json) : List UInt8 := (String.ofList v.text).toUTF8.data.toList

/-- A character numbers are written with. -/
def isNumberChar (c : Char) : Bool := c.isDigit || c == '-' || c == '+' || c == '.' || c == 'e' || c == 'E'

/-- The text of a number that is not the text of an integer. -/
structure IsFloatText (text : String) : Prop where
  nonempty : text ≠ ""
  chars : ∀ c ∈ text.toList, isNumberChar c = true
  notInt : ∀ n : Int, n.repr ≠ text

mutual

/-- Numbers in the value that are no integers have such a text. -/
def Json.Printed : Json → Prop
  | .float text => IsFloatText text
  | .arr items => Json.AllPrinted items
  | .obj fields => Json.FieldsPrinted fields
  | _ => True

def Json.AllPrinted : List Json → Prop
  | [] => True
  | v :: items => v.Printed ∧ Json.AllPrinted items

def Json.FieldsPrinted : List (String × Json) → Prop
  | [] => True
  | (_, v) :: fields => v.Printed ∧ Json.FieldsPrinted fields

end

namespace JsonValueAux

/-! ## Numbers -/

theorem repr_nat_chars (n : Nat) : ∀ c ∈ n.repr.toList, c.isDigit = true := by
  intro c hc
  rw [Nat.toList_repr] at hc
  exact Nat.isDigit_of_mem_toDigits (by decide) (by decide) hc

theorem repr_nat_inj {m n : Nat} (h : m.repr = n.repr) : m = n := by
  have hdigits : Nat.toDigits 10 m = Nat.toDigits 10 n := by
    rw [← Nat.toList_repr, ← Nat.toList_repr, h]
  rw [← Nat.ofDigitChars_ten_toDigits (n := m), hdigits, Nat.ofDigitChars_ten_toDigits]

theorem isNumberChar_of_digit {c : Char} (h : c.isDigit = true) : isNumberChar c = true := by
  unfold isNumberChar
  simp only [h, Bool.true_or]

theorem repr_int_chars (n : Int) : ∀ c ∈ n.repr.toList, c.isDigit = true ∨ c = '-' := by
  intro c hc
  cases n with
  | ofNat m => exact Or.inl (repr_nat_chars m c hc)
  | negSucc m =>
    have hc : c ∈ ("-" ++ (m + 1).repr).toList := hc
    rw [String.toList_append, List.mem_append] at hc
    rcases hc with hminus | hdigit
    · exact Or.inr (List.mem_singleton.mp hminus)
    · exact Or.inl (repr_nat_chars _ c hdigit)

theorem repr_int_numberChars (n : Int) : ∀ c ∈ n.repr.toList, isNumberChar c = true := by
  intro c hc
  rcases repr_int_chars n c hc with hdigit | rfl
  · exact isNumberChar_of_digit hdigit
  · decide

theorem repr_int_ne_nil (n : Int) : n.repr.toList ≠ [] := by
  cases n with
  | ofNat m =>
    have hne : m.repr.toList ≠ [] := by
      rw [Nat.toList_repr]
      exact Nat.toDigits_ne_nil
    exact hne
  | negSucc m =>
    have hne : ("-" ++ (m + 1).repr).toList ≠ [] := by
      rw [String.toList_append]
      exact List.append_ne_nil_of_left_ne_nil (by decide) _
    exact hne

theorem repr_int_inj {m n : Int} (h : m.repr = n.repr) : m = n := by
  have hsigned : ∀ a b : Nat, a.repr ≠ "-" ++ b.repr := by
    intro a b heq
    have hmem : '-' ∈ a.repr.toList := by
      rw [heq, String.toList_append]
      exact List.mem_append_left _ (by decide)
    exact absurd (repr_nat_chars a '-' hmem) (by decide)
  cases m with
  | ofNat a =>
    cases n with
    | ofNat b => exact congrArg Int.ofNat (repr_nat_inj h)
    | negSucc b => exact absurd h (hsigned a (b + 1))
  | negSucc a =>
    cases n with
    | ofNat b => exact absurd h.symm (hsigned b (a + 1))
    | negSucc b =>
      have h : "-" ++ (a + 1).repr = "-" ++ (b + 1).repr := h
      have hdigits := congrArg String.toList h
      rw [String.toList_append, String.toList_append, List.append_cancel_left_eq] at hdigits
      exact congrArg Int.negSucc (Nat.succ.inj (repr_nat_inj (String.toList_inj.mp hdigits)))

/-- What may follow a value. -/
def Follows (x : List Char) : Prop := ∀ c ∈ x.head?, isNumberChar c = false

/-- A number ends where its characters end. -/
theorem number_append_inj {l l' x y : List Char} (hl : ∀ c ∈ l, isNumberChar c = true) (hl' : ∀ c ∈ l', isNumberChar c = true)
    (hx : Follows x) (hy : Follows y) (h : l ++ x = l' ++ y) : l = l' ∧ x = y := by
  have hspan : ∀ {l x : List Char}, (∀ c ∈ l, isNumberChar c = true) → Follows x → (l ++ x).takeWhile isNumberChar = l := by
    intro l x hl hx
    have hnil : x.takeWhile isNumberChar = [] := by
      cases x with
      | nil => rfl
      | cons c x => exact List.takeWhile_cons_of_neg (by rw [hx c rfl]; exact Bool.false_ne_true)
    rw [List.takeWhile_append_of_pos hl, hnil, List.append_nil]
  have hsame : l = l' := by
    rw [← hspan hl hx, h, hspan hl' hy]
  rw [hsame, List.append_cancel_left_eq] at h
  exact ⟨hsame, h⟩

/-! ## Values -/

/-- The kind of a value, as its first character shows it. -/
def kind : Json → Char
  | .null => 'n'
  | .bool true => 't'
  | .bool false => 'f'
  | .int _ | .float _ => '0'
  | .str _ => '"'
  | .arr _ => '['
  | .obj _ => '\x7b'

/-- The kind a first character shows. -/
def kindOf (c : Char) : Char := if isNumberChar c then '0' else c

theorem text_head (v : Json) (hv : v.Printed) : ∃ c l, v.text = c :: l ∧ kindOf c = kind v := by
  have hnumber : ∀ l : List Char, l ≠ [] → (∀ c ∈ l, isNumberChar c = true) → ∃ c l', l = c :: l' ∧ kindOf c = '0' := by
    intro l hne hall
    cases l with
    | nil => exact absurd rfl hne
    | cons c l => exact ⟨c, l, rfl, if_pos (hall c List.mem_cons_self)⟩
  cases v with
  | null => exact ⟨_, _, rfl, rfl⟩
  | bool b => cases b <;> exact ⟨_, _, rfl, rfl⟩
  | int n => exact hnumber _ (repr_int_ne_nil n) (repr_int_numberChars n)
  | float text => exact hnumber _ (fun h => hv.nonempty (String.toList_eq_nil_iff.mp h)) hv.chars
  | str s => exact ⟨_, _, rfl, rfl⟩
  | arr items => cases items <;> exact ⟨_, _, rfl, rfl⟩
  | obj fields =>
    rcases fields with _ | ⟨⟨key, v⟩, fields⟩
    · exact ⟨_, _, rfl, rfl⟩
    · exact ⟨_, _, rfl, rfl⟩

theorem kind_eq {v w : Json} (hv : v.Printed) (hw : w.Printed) {x y : List Char} (h : v.text ++ x = w.text ++ y) : kind v = kind w := by
  obtain ⟨c, l, hc, hkind⟩ := text_head v hv
  obtain ⟨d, l', hd, hkind'⟩ := text_head w hw
  rw [hc, hd] at h
  rw [← hkind, ← hkind', (List.cons.inj h).1]

/-- A value does not begin with what closes a list. -/
theorem text_ne_close {v : Json} (hv : v.Printed) {c : Char} (hc : kindOf c = c) (hkind : kind v ≠ c) (x y : List Char) :
    v.text ++ x ≠ c :: y := by
  intro h
  obtain ⟨d, l, hd, hd'⟩ := text_head v hv
  rw [hd] at h
  have hsame : d = c := (List.cons.inj h).1
  rw [hsame, hc] at hd'
  exact hkind hd'.symm

theorem kind_ne_close (v : Json) : kind v ≠ ']' ∧ kind v ≠ '\x7d' := by
  cases v with
  | bool b => cases b <;> decide
  | _ => simp [kind]

theorem follows_moreItems (items : List Json) (x : List Char) : Follows (Json.moreItems items ++ x) := by
  cases items with
  | nil => exact fun c hc => by rw [← Option.some.inj hc]; decide
  | cons v items => exact fun c hc => by rw [← Option.some.inj hc]; decide

theorem follows_moreFields (fields : List (String × Json)) (x : List Char) : Follows (Json.moreFields fields ++ x) := by
  rcases fields with _ | ⟨⟨key, v⟩, fields⟩
  · exact fun c hc => by rw [← Option.some.inj hc]; decide
  · exact fun c hc => by rw [← Option.some.inj hc]; decide

/-- The value can be told from its text, whatever follows. -/
def Told (v : Json) : Prop :=
  v.Printed → ∀ w : Json, w.Printed → ∀ x y, Follows x → Follows y → v.text ++ x = w.text ++ y → v = w ∧ x = y

def ItemsTold (items : List Json) : Prop :=
  Json.AllPrinted items → ∀ items', Json.AllPrinted items' → ∀ x y, Json.moreItems items ++ x = Json.moreItems items' ++ y →
    items = items' ∧ x = y

def FieldsTold (fields : List (String × Json)) : Prop :=
  Json.FieldsPrinted fields → ∀ fields', Json.FieldsPrinted fields' → ∀ x y,
    Json.moreFields fields ++ x = Json.moreFields fields' ++ y → fields = fields' ∧ x = y

theorem told_number {v : Json} (hkind : kind v = '0') : Told v := by
  intro hv w hw x y hx hy h
  have hsame := kind_eq hv hw h
  rw [hkind] at hsame
  have hchars : ∀ v : Json, v.Printed → kind v = '0' → ∀ c ∈ v.text, isNumberChar c = true := by
    intro v hv hkind
    cases v with
    | int n => exact repr_int_numberChars n
    | float text => exact hv.chars
    | bool b => cases b <;> exact absurd hkind (by decide)
    | null | str | arr | obj => exact absurd hkind (by simp [kind])
  obtain ⟨htext, hxy⟩ := number_append_inj (hchars v hv hkind) (hchars w hw hsame.symm) hx hy h
  refine ⟨?_, hxy⟩
  cases v with
  | int n =>
    cases w with
    | int m => rw [repr_int_inj (String.toList_inj.mp htext)]
    | float text => exact absurd (String.toList_inj.mp htext) (hw.notInt n)
    | bool b => cases b <;> exact absurd hsame (by decide)
    | null | str | arr | obj => exact absurd hsame (by simp [kind])
  | float text =>
    cases w with
    | int m => exact absurd (String.toList_inj.mp htext).symm (hv.notInt m)
    | float text' => rw [String.toList_inj.mp htext]
    | bool b => cases b <;> exact absurd hsame (by decide)
    | null | str | arr | obj => exact absurd hsame (by simp [kind])
  | bool b => cases b <;> exact absurd hkind (by decide)
  | null | str | arr | obj => exact absurd hkind (by simp [kind])

theorem itemsTold_cons {v : Json} {items : List Json} (hv : Told v) (hitems : ItemsTold items) : ItemsTold (v :: items) := by
  intro hp items' hp' x y h
  cases items' with
  | nil => exact absurd (List.cons.inj h).1 (by decide)
  | cons w items' =>
    simp only [Json.moreItems, List.cons_append, List.append_assoc, List.cons.injEq, true_and] at h
    obtain ⟨rfl, hrest⟩ := hv hp.1 w hp'.1 _ _ (follows_moreItems items x) (follows_moreItems items' y) h
    obtain ⟨rfl, hxy⟩ := hitems hp.2 items' hp'.2 x y hrest
    exact ⟨rfl, hxy⟩

theorem itemsTold_nil : ItemsTold [] := by
  intro hp items' hp' x y h
  cases items' with
  | nil => exact ⟨rfl, (List.cons.inj h).2⟩
  | cons w items' => exact absurd (List.cons.inj h).1 (by decide)

theorem fieldsTold_cons {field : String × Json} {fields : List (String × Json)} (hv : Told field.2) (hfields : FieldsTold fields) :
    FieldsTold (field :: fields) := by
  intro hp fields' hp' x y h
  obtain ⟨key, v⟩ := field
  rcases fields' with _ | ⟨⟨key', w⟩, fields'⟩
  · exact absurd (List.cons.inj h).1 (by decide)
  · simp only [Json.moreFields, List.cons_append, List.append_assoc, List.cons.injEq, true_and] at h
    obtain ⟨rfl, hvalue⟩ := JsonTextAux.quote_prefixCode _ _ _ _ h
    obtain ⟨rfl, hrest⟩ := hv hp.1 w hp'.1 _ _ (follows_moreFields fields x) (follows_moreFields fields' y) (List.cons.inj hvalue).2
    obtain ⟨rfl, hxy⟩ := hfields hp.2 fields' hp'.2 x y hrest
    exact ⟨rfl, hxy⟩

theorem fieldsTold_nil : FieldsTold [] := by
  intro hp fields' hp' x y h
  rcases fields' with _ | ⟨⟨key', w⟩, fields'⟩
  · exact ⟨rfl, (List.cons.inj h).2⟩
  · exact absurd (List.cons.inj h).1 (by decide)

/-- An array without its first comma is told like the items that follow one. -/
theorem told_arr {items : List Json} (h : ItemsTold items) : Told (.arr items) := by
  intro hv w hw x y hx hy heq
  cases w with
  | arr items' =>
    have hsame : Json.moreItems items ++ x = Json.moreItems items' ++ y := by
      cases items with
      | nil =>
        cases items' with
        | nil => exact (List.cons.inj heq).2
        | cons w items' =>
          simp only [Json.text, List.cons_append, List.nil_append, List.append_assoc, List.cons.injEq, true_and] at heq
          exact absurd heq.symm (text_ne_close hw.1 (by decide) (kind_ne_close w).1 _ _)
      | cons v items =>
        cases items' with
        | nil =>
          simp only [Json.text, List.cons_append, List.nil_append, List.append_assoc, List.cons.injEq, true_and] at heq
          exact absurd heq (text_ne_close hv.1 (by decide) (kind_ne_close v).1 _ _)
        | cons w items' => exact congrArg (',' :: ·) (List.cons.inj heq).2
    obtain ⟨rfl, hxy⟩ := h hv items' hw x y hsame
    exact ⟨rfl, hxy⟩
  | bool b => cases b <;> exact absurd (kind_eq hv hw heq) (by simp [kind])
  | null | int | float | str | obj => exact absurd (kind_eq hv hw heq) (by simp [kind])

/-- So is an object. -/
theorem told_obj {fields : List (String × Json)} (h : FieldsTold fields) : Told (.obj fields) := by
  intro hv w hw x y hx hy heq
  cases w with
  | obj fields' =>
    have hsame : Json.moreFields fields ++ x = Json.moreFields fields' ++ y := by
      rcases fields with _ | ⟨⟨key, v⟩, fields⟩
      · rcases fields' with _ | ⟨⟨key', w⟩, fields'⟩
        · exact (List.cons.inj heq).2
        · exact absurd (List.cons.inj (List.cons.inj heq).2).1 (by decide)
      · rcases fields' with _ | ⟨⟨key', w⟩, fields'⟩
        · exact absurd (List.cons.inj (List.cons.inj heq).2).1 (by decide)
        · exact congrArg (',' :: ·) (List.cons.inj heq).2
    obtain ⟨rfl, hxy⟩ := h hv fields' hw x y hsame
    exact ⟨rfl, hxy⟩
  | bool b => cases b <;> exact absurd (kind_eq hv hw heq) (by simp [kind])
  | null | int | float | str | arr => exact absurd (kind_eq hv hw heq) (by simp [kind])

theorem told_str (s : String) : Told (.str s) := by
  intro hv w hw x y hx hy heq
  cases w with
  | str s' =>
    obtain ⟨rfl, hxy⟩ := JsonTextAux.quote_prefixCode _ _ _ _ heq
    exact ⟨rfl, hxy⟩
  | bool b => cases b <;> exact absurd (kind_eq hv hw heq) (by simp [kind])
  | null | int | float | arr | obj => exact absurd (kind_eq hv hw heq) (by simp [kind])

/-- A value of a kind of its own. -/
theorem told_word {v : Json} (h : ∀ w, kind v = kind w → v = w) : Told v := by
  intro hv w hw x y hx hy heq
  obtain rfl := h w (kind_eq hv hw heq)
  exact ⟨rfl, List.append_cancel_left heq⟩

theorem told_null : Told .null := by
  refine told_word fun w hw => ?_
  cases w with
  | null => rfl
  | bool b => cases b <;> exact absurd hw (by decide)
  | int | float | str | arr | obj => exact absurd hw (by simp [kind])

theorem told_bool (b : Bool) : Told (.bool b) := by
  refine told_word fun w hw => ?_
  cases w with
  | bool b' => cases b <;> cases b' <;> first | rfl | exact absurd hw (by decide)
  | null | int | float | str | arr | obj => cases b <;> exact absurd hw (by simp [kind])

theorem told (v : Json) : Told v :=
  @Json.rec Told ItemsTold FieldsTold (fun field => Told field.2) told_null told_bool (fun _ => told_number rfl)
    (fun _ => told_number rfl) told_str (fun _ => told_arr) (fun _ => told_obj) itemsTold_nil (fun _ _ => itemsTold_cons)
    fieldsTold_nil (fun _ _ => fieldsTold_cons) (fun _ _ h => h) v

end JsonValueAux

open JsonValueAux

/-- A field of a printed object is printed. -/
theorem Json.Printed.lookup {fields : List (String × Json)} (h : (Json.obj fields).Printed) {key : String} {v : Json}
    (hlook : fields.lookup key = some v) : v.Printed := by
  have hall : Json.FieldsPrinted fields := h
  clear h
  induction fields with
  | nil => cases hlook
  | cons field fields ih =>
    rw [List.lookup_cons] at hlook
    split at hlook
    · rw [← Option.some.inj hlook]
      exact hall.1
    · exact ih hlook hall.2

/-- A text with a point is not the text of an integer. -/
theorem isFloatText_of_point {text : String} (hpoint : '.' ∈ text.toList) (hchars : ∀ c ∈ text.toList, isNumberChar c = true) :
    IsFloatText text where
  nonempty := by
    rintro rfl
    cases hpoint
  chars := hchars
  notInt n hn := by
    rw [← hn] at hpoint
    rcases repr_int_chars n '.' hpoint with h | h
    · exact absurd h (by decide)
    · exact absurd h (by decide)

/-- Two values of which one text is the beginning of the other, with something that ends a value after it, are one value. -/
theorem text_append_inj {v w : Json} (hv : v.Printed) (hw : w.Printed) {x y : List Char} (hx : Follows x) (hy : Follows y)
    (h : v.text ++ x = w.text ++ y) : v = w ∧ x = y := told v hv w hw x y hx hy h

/-- Two values with one text are one value. -/
theorem Json.toVec_injective {v w : Json} (hv : v.Printed) (hw : w.Printed) (h : v.toVec = w.toVec) : v = w := by
  have hbytes : (String.ofList v.text).toUTF8 = (String.ofList w.text).toUTF8 := ByteArray.ext (Array.toList_inj.mp h)
  have hchars := congrArg String.toList (String.toByteArray_inj.mp hbytes)
  rw [String.toList_ofList, String.toList_ofList] at hchars
  have hend : Follows [] := fun c hc => by cases hc
  exact (text_append_inj hv hw hend hend (congrArg (· ++ []) hchars)).1

end DoubleSlash.Protocol
