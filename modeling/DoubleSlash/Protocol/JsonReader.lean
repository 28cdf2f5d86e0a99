import DoubleSlash.Lib.Bytes
import DoubleSlash.Lib.JsonTree

/-!
# Reading the text of a JSON value

`serde_json::from_str` is not part of the repository. What the code relies on: what is read is a value that is no deeper than the
parser goes, and the text of such a value reads back as it.
-/

namespace DoubleSlash.Protocol

open JsonTree

mutual

/-- How deep arrays and objects are nested in a value. -/
def Json.depth : Json → Nat
  | .arr items => Json.depths items + 1
  | .obj fields => Json.fieldDepths fields + 1
  | _ => 0

def Json.depths : List Json → Nat
  | [] => 0
  | v :: items => max v.depth (Json.depths items)

def Json.fieldDepths : List (String × Json) → Nat
  | [] => 0
  | (_, v) :: fields => max v.depth (Json.fieldDepths fields)

end

mutual

/-- A value as `serde_json::Value` has it: integers of 64 bits, the printed forms of doubles, keys in order and none twice. -/
def Json.IsValue (isF64 : String → Prop) : Json → Prop
  | .int n => -2 ^ 63 ≤ n ∧ n < 2 ^ 64
  | .float text => isF64 text
  | .arr items => Json.AllValues isF64 items
  | .obj fields => SortedKeys fields ∧ Json.FieldValues isF64 fields
  | _ => True

def Json.AllValues (isF64 : String → Prop) : List Json → Prop
  | [] => True
  | v :: items => v.IsValue isF64 ∧ Json.AllValues isF64 items

def Json.FieldValues (isF64 : String → Prop) : List (String × Json) → Prop
  | [] => True
  | (_, v) :: fields => v.IsValue isF64 ∧ Json.FieldValues isF64 fields

end

/-- How deep the parser goes: one less than `remaining_depth` starts with. -/
def parserDepth : Nat := 127

/-- `serde_json::from_str::<Value>` with the feature `float_roundtrip`. -/
structure JsonReader where
  fromStr : String → Option Json
  /-- The text is what a finite double is printed as. -/
  isF64 : String → Prop
  isFloatText : ∀ text, isF64 text → IsFloatText text
  reads : ∀ raw v, fromStr raw = some v → v.IsValue isF64 ∧ v.depth ≤ parserDepth
  readsBack : ∀ v : Json, v.IsValue isF64 → v.depth ≤ parserDepth → fromStr (String.ofList v.text) = some v
  /-- `recursion limit exceeded`. -/
  refuses : ∀ v : Json, v.IsValue isF64 → parserDepth < v.depth → fromStr (String.ofList v.text) = none

/-- `serde_json::from_slice::<Value>`. -/
def JsonReader.fromSlice (J : JsonReader) (bytes : List UInt8) : Option Json := (Bytes.fromUtf8 bytes).bind J.fromStr

variable {isF64 : String → Prop}

theorem Json.fieldDepths_le {n : Nat} {fields : List (String × Json)} :
    Json.fieldDepths fields ≤ n ↔ ∀ f ∈ fields, f.2.depth ≤ n := by
  induction fields with
  | nil => simp [Json.fieldDepths]
  | cons f fields ih => rw [Json.fieldDepths, Nat.max_le, ih, List.forall_mem_cons]

theorem Json.fieldValues_iff {fields : List (String × Json)} :
    Json.FieldValues isF64 fields ↔ ∀ f ∈ fields, f.2.IsValue isF64 := by
  induction fields with
  | nil => simp [Json.FieldValues]
  | cons f fields ih => rw [Json.FieldValues, ih, List.forall_mem_cons]

theorem mem_of_mem_insertKey {key : String} {v : Json} {fields : List (String × Json)} {f : String × Json}
    (h : f ∈ insertKey key v fields) : f = (key, v) ∨ f ∈ fields := by
  induction fields with
  | nil => exact Or.inl (List.mem_singleton.mp h)
  | cons first rest ih =>
    unfold insertKey at h
    split at h
    · exact List.mem_cons.mp h
    · split at h
      · exact (List.mem_cons.mp h).imp_right (List.mem_cons_of_mem _)
      · rcases List.mem_cons.mp h with rfl | h
        · exact Or.inr List.mem_cons_self
        · exact (ih h).imp_right (List.mem_cons_of_mem _)

/-- A field that is put in keeps the object a value. -/
theorem Json.IsValue.insertKey {fields : List (String × Json)} (h : (Json.obj fields).IsValue isF64) (key : String) {v : Json}
    (hv : v.IsValue isF64) : (Json.obj (insertKey key v fields)).IsValue isF64 := by
  refine ⟨SortedKeys.insertKey h.1 key v, Json.fieldValues_iff.mpr fun f hf => ?_⟩
  rcases mem_of_mem_insertKey hf with rfl | hf
  · exact hv
  · exact Json.fieldValues_iff.mp h.2 f hf

mutual

/-- Every value has a text it can be told from. -/
theorem Json.IsValue.printed (hF : ∀ text, isF64 text → IsFloatText text) : ∀ v : Json, v.IsValue isF64 → v.Printed
  | .null, _ => trivial
  | .bool _, _ => trivial
  | .int _, _ => trivial
  | .float text, h => hF text h
  | .str _, _ => trivial
  | .arr items, h => Json.AllValues.printed hF items h
  | .obj fields, h => Json.FieldValues.printed hF fields h.2

theorem Json.AllValues.printed (hF : ∀ text, isF64 text → IsFloatText text) :
    ∀ items : List Json, Json.AllValues isF64 items → Json.AllPrinted items
  | [], _ => trivial
  | v :: items, h => ⟨Json.IsValue.printed hF v h.1, Json.AllValues.printed hF items h.2⟩

theorem Json.FieldValues.printed (hF : ∀ text, isF64 text → IsFloatText text) :
    ∀ fields : List (String × Json), Json.FieldValues isF64 fields → Json.FieldsPrinted fields
  | [], _ => trivial
  | (_, v) :: fields, h => ⟨Json.IsValue.printed hF v h.1, Json.FieldValues.printed hF fields h.2⟩

end

/-- Values with one text are one value. -/
theorem Json.IsValue.eq_of_text {v w : Json} (hv : v.IsValue IsFloatText) (hw : w.IsValue IsFloatText)
    (h : String.ofList v.text = String.ofList w.text) : v = w := by
  refine Json.toVec_injective (Json.IsValue.printed (fun _ h => h) _ hv) (Json.IsValue.printed (fun _ h => h) _ hw) ?_
  unfold Json.toVec
  rw [h]

open Classical in
/-- The reader that reads the texts of values and no others. -/
noncomputable def JsonReader.exact : JsonReader where
  fromStr raw :=
    if h : ∃ v : Json, (v.IsValue IsFloatText ∧ v.depth ≤ parserDepth) ∧ String.ofList v.text = raw then some h.choose else none
  isF64 := IsFloatText
  isFloatText _ h := h
  reads raw v h := by
    split at h
    · rename_i hex
      rw [← Option.some.inj h]
      exact hex.choose_spec.1
    · cases h
  readsBack v hv hdepth := by
    have hex : ∃ w : Json, (w.IsValue IsFloatText ∧ w.depth ≤ parserDepth) ∧ String.ofList w.text = String.ofList v.text :=
      ⟨v, ⟨hv, hdepth⟩, rfl⟩
    rw [dif_pos hex]
    exact congrArg some (Json.IsValue.eq_of_text hex.choose_spec.1.1 hv hex.choose_spec.2)
  refuses v hv hdepth := by
    refine dif_neg ?_
    rintro ⟨w, ⟨hw, hle⟩, htext⟩
    rw [Json.IsValue.eq_of_text hw hv htext] at hle
    exact absurd hle (Nat.not_le.mpr hdepth)

end DoubleSlash.Protocol
