import DoubleSlash.Protocol.JsonValue
import Mathlib.Data.String.Basic

/-!
# One JSON text read twice

The syntax tree of a text, members in the order and as often as they stand there, and the two ways of reading it: into a map, where
the last of several members with one key stays and keys are sorted, and into a record, where a second member for a known key is an
error and unknown keys are passed over. A record the text reads as is the record its map reads as (`once_members`).
-/

namespace DoubleSlash.JsonTree

open Protocol

/-- A tree with numbers of a kind: as they are spelled, or as they are read. -/
inductive Document (ν : Type) where
  | null
  | bool (b : Bool)
  | num (n : ν)
  | str (s : String)
  | arr (items : List (Document ν))
  | obj (members : List (String × Document ν))

/-- `BTreeMap::insert` into members sorted by key. -/
def insertKey {α : Type} (key : String) (a : α) : List (String × α) → List (String × α)
  | [] => [(key, a)]
  | (k, b) :: rest => if key < k then (key, a) :: (k, b) :: rest else if key = k then (key, a) :: rest else (k, b) :: insertKey key a rest

/-- `Map::remove`. -/
def removeKey {α : Type} (key : String) (members : List (String × α)) : List (String × α) := members.filter (·.1 != key)

section

variable {ν μ : Type} (read : ν → Option μ)

mutual

/-- `Value` from the text: numbers read, members entered one after the other. -/
def Document.value : Document ν → Option (Document μ)
  | .null => some .null
  | .bool b => some (.bool b)
  | .num n => (read n).map .num
  | .str s => some (.str s)
  | .arr items => (Document.values items).map .arr
  | .obj members => (Document.entered [] members).map .obj

def Document.values : List (Document ν) → Option (List (Document μ))
  | [] => some []
  | t :: rest => t.value.bind fun v => (Document.values rest).map (v :: ·)

/-- The map after the members have been entered. -/
def Document.entered (map : List (String × Document μ)) : List (String × Document ν) → Option (List (String × Document μ))
  | [] => some map
  | (key, t) :: rest => t.value.bind fun v => Document.entered (insertKey key v map) rest

end

end

/-- A known field of a record: the value of the one member with this key, if there is one; a second one is an error. -/
def once {α : Type} (key : String) (members : List (String × α)) : Option (Option α) :=
  match members.filter (·.1 == key) with
  | [] => some none
  | [(_, a)] => some (some a)
  | _ => none

/-- A field that has to be there. -/
def required {α β : Type} (key : String) (read : α → Option β) (members : List (String × α)) : Option β :=
  (once key members).bind fun a => a.bind read

/-- A field that may be missing. -/
def defaulted {α β : Type} (key : String) (read : α → Option β) (default : β) (members : List (String × α)) : Option β :=
  (once key members).bind fun a => a.elim (some default) read

/-- A record given as a list: an element that may be missing. -/
def elementOr {α β : Type} (read : α → Option β) (default : β) (element : Option α) : Option β := element.elim (some default) read

/-- `visit_str`. -/
def Document.asStr {ν : Type} : Document ν → Option String
  | .str s => some s
  | _ => none

/-- `visit_f64`, `visit_u64` and `visit_i64` of a number. -/
def Document.asNum {ν β : Type} (number : ν → Option β) : Document ν → Option β
  | .num n => number n
  | _ => none

/-- `Vec::deserialize`. -/
def Document.asVec {ν β : Type} (read : Document ν → Option β) : Document ν → Option (List β)
  | .arr items => items.mapM read
  | _ => none

section

variable {ν : Type} (number : ν → Json)

mutual

/-- The value, its numbers as they are written. -/
def Document.json : Document ν → Json
  | .null => .null
  | .bool b => .bool b
  | .num n => number n
  | .str s => .str s
  | .arr items => .arr (Document.jsons items)
  | .obj members => .obj (Document.jsonMembers members)

def Document.jsons : List (Document ν) → List Json
  | [] => []
  | t :: rest => t.json :: Document.jsons rest

def Document.jsonMembers : List (String × Document ν) → List (String × Json)
  | [] => []
  | (key, t) :: rest => (key, t.json) :: Document.jsonMembers rest

end

/-- `serde_json::to_vec` of a map. -/
def toVec (members : List (String × Document ν)) : List UInt8 := (Document.json number (.obj members)).toVec

end

/-! ## Maps and records -/

section

variable {α β : Type}

theorem lookup_cons_ite (k k' : String) (b : α) (map : List (String × α)) :
    ((k', b) :: map).lookup k = if k = k' then some b else map.lookup k := by
  rw [List.lookup_cons]
  by_cases h : k = k'
  · rw [if_pos h, beq_iff_eq.mpr h]
  · rw [if_neg h, beq_eq_false_iff_ne.mpr h]

theorem lookup_insertKey (key : String) (a : α) (map : List (String × α)) (k : String) :
    (insertKey key a map).lookup k = if k = key then some a else map.lookup k := by
  induction map with
  | nil => exact lookup_cons_ite k key a []
  | cons first rest ih =>
    obtain ⟨k', b⟩ := first
    unfold insertKey
    split
    · exact lookup_cons_ite k key a _
    · split
      · rename_i heq
        subst heq
        rw [lookup_cons_ite, lookup_cons_ite]
        split <;> rfl
      · rename_i hne
        rw [lookup_cons_ite, lookup_cons_ite, ih]
        by_cases h : k = key
        · subst h
          rw [if_neg hne, if_pos rfl, if_pos rfl]
        · simp only [h, if_false]

/-- Keys in ascending order, none twice. -/
def SortedKeys (map : List (String × α)) : Prop := (map.map Prod.fst).Pairwise (· < ·)

theorem mem_insertKey {key : String} {a : α} {map : List (String × α)} {k : String} (h : k ∈ (insertKey key a map).map Prod.fst) :
    k = key ∨ k ∈ map.map Prod.fst := by
  induction map with
  | nil => exact Or.inl (List.mem_singleton.mp h)
  | cons first rest ih =>
    unfold insertKey at h
    split at h
    · exact List.mem_cons.mp h
    · split at h
      · rcases List.mem_cons.mp h with h | h
        · exact Or.inl h
        · exact Or.inr (List.mem_cons_of_mem _ h)
      · rcases List.mem_cons.mp h with h | h
        · exact Or.inr (List.mem_cons.mpr (Or.inl h))
        · exact (ih h).imp_right (List.mem_cons_of_mem _)

theorem SortedKeys.insertKey {map : List (String × α)} (h : SortedKeys map) (key : String) (a : α) : SortedKeys (insertKey key a map) := by
  unfold SortedKeys at h ⊢
  induction map with
  | nil => exact List.pairwise_singleton _ _
  | cons first rest ih =>
    obtain ⟨hfirst, hrest⟩ := List.pairwise_cons.mp h
    unfold JsonTree.insertKey
    split
    · rename_i hlt
      refine List.pairwise_cons.mpr ⟨fun k hk => ?_, h⟩
      rcases List.mem_cons.mp hk with rfl | hk
      · exact hlt
      · exact hlt.trans (hfirst k hk)
    · split
      · rename_i heq
        subst heq
        exact List.pairwise_cons.mpr ⟨hfirst, hrest⟩
      · rename_i hnlt hne
        refine List.pairwise_cons.mpr ⟨fun k hk => ?_, ih hrest⟩
        rcases mem_insertKey hk with rfl | hk
        · exact lt_of_le_of_ne (not_lt.mp hnlt) (Ne.symm hne)
        · exact hfirst k hk

theorem SortedKeys.removeKey {map : List (String × α)} (h : SortedKeys map) (key : String) : SortedKeys (removeKey key map) :=
  List.Pairwise.sublist (List.filter_sublist.map Prod.fst) h

end

section

variable {ν μ : Type} {read : ν → Option μ}

theorem SortedKeys.entered {members : List (String × Document ν)} {map m : List (String × Document μ)} (hmap : SortedKeys map)
    (h : Document.entered read map members = some m) : SortedKeys m := by
  induction members generalizing map with
  | nil => exact Option.some.inj h ▸ hmap
  | cons first rest ih =>
    obtain ⟨v, -, hrest⟩ := Option.bind_eq_some_iff.mp h
    exact ih (hmap.insertKey first.1 v) hrest

variable {β : Type} {onText : Document ν → Option β} {onValue : Document μ → Option β}

end

/-! ## Written values -/

/-- How numbers are written: as numbers, each in its own way. -/
structure NumberText {ν : Type} (number : ν → Json) : Prop where
  printed : ∀ n, (number n).Printed
  kind : ∀ n, JsonValueAux.kind (number n) = '0'
  injective : Function.Injective number

section

variable {ν : Type} {number : ν → Json}

theorem printed_json (h : NumberText number) (t : Document ν) : (t.json number).Printed :=
  @Document.rec ν (fun t => (t.json number).Printed) (fun items => Json.AllPrinted (Document.jsons number items))
    (fun members => Json.FieldsPrinted (Document.jsonMembers number members)) (fun member => (member.2.json number).Printed)
    trivial (fun _ => trivial) h.printed (fun _ => trivial) (fun _ hitems => hitems) (fun _ hmembers => hmembers) trivial
    (fun _ _ ht hrest => ⟨ht, hrest⟩) trivial (fun _ _ ht hrest => ⟨ht, hrest⟩) (fun _ _ ht => ht) t

/-- The value can be told from how it is written. -/
def Distinguished (number : ν → Json) (t : Document ν) : Prop := ∀ u : Document ν, t.json number = u.json number → t = u

/-- A value that is no number is not written as one. -/
theorem ne_number (h : NumberText number) {v : Json} (hv : JsonValueAux.kind v ≠ '0') (n : ν) : v ≠ number n := by
  rintro rfl
  exact hv (h.kind n)

theorem distinguished_num (h : NumberText number) (n : ν) : Distinguished number (.num n) := by
  intro u hu
  have hu : number n = u.json number := hu
  cases u with
  | num m => rw [h.injective hu]
  | bool b => cases b <;> exact absurd hu.symm (ne_number h (by simp [Document.json, JsonValueAux.kind]) n)
  | null => exact absurd hu.symm (ne_number h (by simp [Document.json, JsonValueAux.kind]) n)
  | str s => exact absurd hu.symm (ne_number h (by simp [Document.json, JsonValueAux.kind]) n)
  | arr items => exact absurd hu.symm (ne_number h (by simp [Document.json, JsonValueAux.kind]) n)
  | obj members => exact absurd hu.symm (ne_number h (by simp [Document.json, JsonValueAux.kind]) n)

theorem distinguished_arr (h : NumberText number) {items : List (Document ν)}
    (hitems : ∀ us, Document.jsons number items = Document.jsons number us → items = us) : Distinguished number (.arr items) := by
  intro u hu
  cases u with
  | arr us => rw [hitems us (Json.arr.inj hu)]
  | num n => exact absurd hu (ne_number h (by simp [Document.json, JsonValueAux.kind]) n)
  | null | bool | str | obj => cases hu

theorem distinguished_obj (h : NumberText number) {members : List (String × Document ν)}
    (hmembers : ∀ us, Document.jsonMembers number members = Document.jsonMembers number us → members = us) :
    Distinguished number (.obj members) := by
  intro u hu
  cases u with
  | obj us => rw [hmembers us (Json.obj.inj hu)]
  | num n => exact absurd hu (ne_number h (by simp [Document.json, JsonValueAux.kind]) n)
  | null | bool | str | arr => cases hu

theorem distinguished_leaf (h : NumberText number) {t : Document ν} (ht : t = .null ∨ (∃ b, t = .bool b) ∨ ∃ s, t = .str s) :
    Distinguished number t := by
  intro u hu
  rcases ht with rfl | ⟨b, rfl⟩ | ⟨s, rfl⟩
  · cases u with
    | null => rfl
    | num n => exact absurd hu (ne_number h (by simp [Document.json, JsonValueAux.kind]) n)
    | bool | str | arr | obj => cases hu
  · cases u with
    | bool b' => rw [Json.bool.inj hu]
    | num n => exact absurd hu (ne_number h (by cases b <;> simp [Document.json, JsonValueAux.kind]) n)
    | null | str | arr | obj => cases hu
  · cases u with
    | str s' => rw [Json.str.inj hu]
    | num n => exact absurd hu (ne_number h (by simp [Document.json, JsonValueAux.kind]) n)
    | null | bool | arr | obj => cases hu

theorem json_injective (h : NumberText number) (t : Document ν) : Distinguished number t := by
  refine @Document.rec ν (Distinguished number) (fun items => ∀ us, Document.jsons number items = Document.jsons number us → items = us)
    (fun members => ∀ us, Document.jsonMembers number members = Document.jsonMembers number us → members = us)
    (fun member => Distinguished number member.2) (distinguished_leaf h (Or.inl rfl))
    (fun b => distinguished_leaf h (Or.inr (Or.inl ⟨b, rfl⟩))) (distinguished_num h)
    (fun s => distinguished_leaf h (Or.inr (Or.inr ⟨s, rfl⟩))) (fun _ => distinguished_arr h) (fun _ => distinguished_obj h)
    ?_ ?_ ?_ ?_ (fun _ _ ht => ht) t
  · intro us hus
    cases us with
    | nil => rfl
    | cons u us => cases hus
  · intro t items ht hitems us hus
    cases us with
    | nil => cases hus
    | cons u us =>
      obtain ⟨hhead, htail⟩ := List.cons.inj hus
      rw [ht u hhead, hitems us htail]
  · intro us hus
    cases us with
    | nil => rfl
    | cons u us => cases hus
  · intro member members ht hmembers us hus
    obtain ⟨key, t⟩ := member
    have ht : Distinguished number t := ht
    rcases us with _ | ⟨⟨key', u⟩, us⟩
    · cases hus
    · obtain ⟨hhead, htail⟩ := List.cons.inj hus
      obtain ⟨rfl, hvalue⟩ := Prod.mk.inj hhead
      rw [ht u hvalue, hmembers us htail]

/-- **A map can be told from its bytes.** -/
theorem toVec_injective (h : NumberText number) {members members' : List (String × Document ν)}
    (heq : toVec number members = toVec number members') : members = members' :=
  Document.obj.inj (json_injective h _ _ (Json.toVec_injective (printed_json h _) (printed_json h _) heq))

end

end DoubleSlash.JsonTree
