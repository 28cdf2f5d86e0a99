import DoubleSlash.Features.Registry
import Mathlib.Data.Finset.Card

/-!
# Channel tags are given out once

The three tables of tags move together whatever is called, and an invocation that fails puts them back as they were: what it releases
is the binding it made.
-/

namespace DoubleSlash.Features

open Assoc Protocol

namespace ChannelTagRegistry

/-- The tables name each other, and the tags in use are those of the dynamic range that are bound. -/
structure Paired (r : ChannelTagRegistry) : Prop where
  inverse : ∀ feature tag, r.byFeature.lookup feature = some tag ↔ r.byTag.lookup tag = some feature
  used : ∀ tag, tag ∈ r.inUse ↔ ∃ feature, r.byTag.lookup tag = some feature
  range : ∀ tag ∈ r.inUse, dynamicTagStart ≤ tag ∧ tag ≤ dynamicTagEnd

/-- Every tag of the dynamic range is in use. -/
def AllUsed (r : ChannelTagRegistry) : Prop := ∀ tag, dynamicTagStart ≤ tag → tag ≤ dynamicTagEnd → tag ∈ r.inUse

end ChannelTagRegistry

/-- What is done with the tags of a session. An invocation comes with the registry as it is then, and with what the module
answers. -/
inductive TagOp (M : Type) where
  | bind (featureId : String)
  | bindTo (featureId : String) (tag : UInt8)
  | release (featureId : String)
  | invoke (registry : FeatureRegistry M) (onInvoke : M → InvocationContext → Except ModuleError Unit) (now : ℚ) (id peer : String)
      (params : Json)

/-- The tags after an operation. -/
def TagOp.apply {M : Type} (tags : ChannelTagRegistry) : TagOp M → ChannelTagRegistry
  | .bind featureId => (tags.bind featureId).1
  | .bindTo featureId tag => (tags.bindTo featureId tag).1
  | .release featureId => (tags.release featureId).1
  | .invoke registry onInvoke now id peer params => (registry.dispatchInvokeDatagram onInvoke now id peer params tags).2.1

namespace ChannelTagRegistry

variable {r : ChannelTagRegistry} {featureId : String} {tag : UInt8}

theorem mem_dynamicTags : tag ∈ dynamicTags ↔ dynamicTagStart ≤ tag ∧ tag ≤ dynamicTagEnd := by
  have hstart : dynamicTagStart.toNat = 16 := rfl
  have hend : dynamicTagEnd.toNat = 239 := rfl
  rw [UInt8.le_iff_toNat_le, UInt8.le_iff_toNat_le, hstart, hend]
  unfold dynamicTags
  rw [List.mem_map]
  constructor
  · rintro ⟨n, hn, rfl⟩
    have hn := List.mem_range.mp hn
    rw [UInt8.toNat_ofNat', Nat.mod_eq_of_lt (by omega)]
    omega
  · rintro ⟨hge, hle⟩
    refine ⟨tag.toNat - 16, List.mem_range.mpr (by omega), ?_⟩
    rw [show 0x10 + (tag.toNat - 16) = tag.toNat by omega]
    exact UInt8.ofNat_toNat

theorem paired_new : Paired new where
  inverse feature tag := by
    rw [show new.byFeature.lookup feature = none from AList.lookup_empty feature,
      show new.byTag.lookup tag = none from AList.lookup_empty tag]
    exact ⟨(fun h => by cases h), fun h => by cases h⟩
  used tag := by
    constructor
    · exact fun h => absurd h (Finset.notMem_empty tag)
    · rintro ⟨feature, h⟩
      rw [show new.byTag.lookup tag = none from AList.lookup_empty tag] at h
      cases h
  range tag h := absurd h (Finset.notMem_empty tag)

/-- A feature without a tag gets one that is not in use. -/
theorem Paired.record (h : Paired r) (hfeature : featureId ∉ r.byFeature) (htag : tag ∉ r.inUse)
    (hrange : dynamicTagStart ≤ tag ∧ tag ≤ dynamicTagEnd) : Paired (r.record featureId tag) where
  inverse feature t := by
    have hunbound : ∀ f, r.byTag.lookup tag ≠ some f := fun f hf => htag ((h.used tag).mpr ⟨f, hf⟩)
    have hunnamed : r.byFeature.lookup featureId = none := AList.lookup_eq_none.mpr hfeature
    unfold ChannelTagRegistry.record
    dsimp only
    by_cases hf : feature = featureId
    · subst hf
      rw [AList.lookup_insert]
      by_cases ht : t = tag
      · subst ht
        rw [AList.lookup_insert]
        exact ⟨fun _ => rfl, fun _ => rfl⟩
      · rw [AList.lookup_insert_ne ht, ← h.inverse, hunnamed]
        exact ⟨fun heq => absurd (Option.some.inj heq).symm ht, fun hnone => by cases hnone⟩
    · rw [AList.lookup_insert_ne hf, h.inverse]
      by_cases ht : t = tag
      · subst ht
        rw [AList.lookup_insert]
        exact ⟨fun heq => absurd heq (hunbound feature), fun heq => absurd (Option.some.inj heq).symm hf⟩
      · rw [AList.lookup_insert_ne ht]
  used t := by
    unfold ChannelTagRegistry.record
    dsimp only
    rw [Finset.mem_insert, h.used]
    by_cases ht : t = tag
    · subst ht
      rw [AList.lookup_insert]
      exact ⟨fun _ => ⟨featureId, rfl⟩, fun _ => Or.inl rfl⟩
    · rw [AList.lookup_insert_ne ht, or_iff_right ht]
  range t ht := by
    rcases Finset.mem_insert.mp ht with rfl | ht
    · exact hrange
    · exact h.range t ht

theorem Paired.erase (h : Paired r) (hfound : r.byFeature.lookup featureId = some tag) :
    Paired ⟨r.byFeature.erase featureId, r.byTag.erase tag, r.inUse.erase tag⟩ where
  inverse feature t := by
    have hnamed := (h.inverse featureId tag).mp hfound
    dsimp only
    by_cases hf : feature = featureId
    · subst hf
      rw [AList.lookup_erase]
      by_cases ht : t = tag
      · subst ht
        rw [AList.lookup_erase]
        exact ⟨(fun hnone => by cases hnone), fun hnone => by cases hnone⟩
      · rw [AList.lookup_erase_ne ht, ← h.inverse, hfound]
        exact ⟨(fun hnone => by cases hnone), fun heq => absurd (Option.some.inj heq).symm ht⟩
    · rw [AList.lookup_erase_ne hf, h.inverse]
      by_cases ht : t = tag
      · subst ht
        rw [AList.lookup_erase, hnamed]
        exact ⟨fun heq => absurd (Option.some.inj heq).symm hf, fun hnone => by cases hnone⟩
      · rw [AList.lookup_erase_ne ht]
  used t := by
    dsimp only
    rw [Finset.mem_erase, h.used]
    by_cases ht : t = tag
    · subst ht
      rw [AList.lookup_erase]
      constructor
      · exact fun hboth => absurd rfl hboth.1
      · rintro ⟨_, hnone⟩
        cases hnone
    · rw [AList.lookup_erase_ne ht, and_iff_right ht]
  range t ht := h.range t (Finset.mem_erase.mp ht).2

/-! ### The operations -/

/-- A bind is refused, or records a tag that is not in use. -/
theorem bind_cases (r : ChannelTagRegistry) (featureId : String) :
    (r.bind featureId = (r, .error (.alreadyBound featureId)) ∧ featureId ∈ r.byFeature) ∨
    (r.bind featureId = (r, .error .exhausted) ∧ featureId ∉ r.byFeature ∧ AllUsed r) ∨
    ∃ tag, r.bind featureId = (r.record featureId tag, .ok tag) ∧ featureId ∉ r.byFeature ∧ tag ∉ r.inUse ∧
      dynamicTagStart ≤ tag ∧ tag ≤ dynamicTagEnd := by
  unfold ChannelTagRegistry.bind
  split
  next hbound => exact Or.inl ⟨rfl, hbound⟩
  next hfree =>
    refine Or.inr ?_
    cases hfind : dynamicTags.find? fun tag => decide (tag ∉ r.inUse) with
    | none =>
      refine Or.inl ⟨rfl, hfree, fun tag hge hle => ?_⟩
      have htag := List.find?_eq_none.mp hfind tag (mem_dynamicTags.mpr ⟨hge, hle⟩)
      simpa using htag
    | some tag =>
      have htag := List.find?_some hfind
      exact Or.inr ⟨tag, rfl, hfree, of_decide_eq_true htag, mem_dynamicTags.mp (List.mem_of_find?_eq_some hfind)⟩

theorem Paired.bind (h : Paired r) (featureId : String) : Paired (r.bind featureId).1 := by
  rcases bind_cases r featureId with ⟨hbind, -⟩ | ⟨hbind, -⟩ | ⟨tag, hbind, hfree, htag, hrange⟩
  · rw [hbind]
    exact h
  · rw [hbind]
    exact h
  · rw [hbind]
    exact h.record hfree htag hrange

theorem Paired.bindTo (h : Paired r) (featureId : String) (tag : UInt8) : Paired (r.bindTo featureId tag).1 := by
  unfold ChannelTagRegistry.bindTo
  split
  · exact h
  next hrange =>
    split
    · exact h
    next hfree =>
      split
      · exact h
      next htag => exact h.record hfree htag (not_not.mp hrange)

theorem Paired.release (h : Paired r) (featureId : String) : Paired (r.release featureId).1 := by
  unfold ChannelTagRegistry.release
  split
  · exact h
  next tag hfound => exact h.erase hfound

theorem erase_insert_notMem {K V : Type} [DecidableEq K] {m : HashMap K V} {k : K} (v : V) (h : k ∉ m) :
    (m.insert k v).erase k = m := by
  apply AList.ext
  have hkeys : k ∉ m.entries.keys := h
  have hinserted : (m.insert k v).entries = ⟨k, v⟩ :: m.entries := by
    rw [AList.entries_insert, List.kerase_of_notMem_keys hkeys]
  change List.kerase k (m.insert k v).entries = m.entries
  rw [hinserted]
  exact List.kerase_cons_eq rfl

theorem erase_insert_tag {used : Finset UInt8} (h : tag ∉ used) : (insert tag used).erase tag = used := by
  ext t
  rw [Finset.mem_erase, Finset.mem_insert]
  constructor
  · exact fun hboth => hboth.2.resolve_left hboth.1
  · intro ht
    refine ⟨?_, Or.inr ht⟩
    rintro rfl
    exact h ht

/-- The release of what was just recorded leaves the tables as they were. -/
theorem release_record (h : Paired r) (hfeature : featureId ∉ r.byFeature) (htag : tag ∉ r.inUse) :
    ((r.record featureId tag).release featureId).1 = r := by
  have hunbound : tag ∉ r.byTag := by
    intro hin
    obtain ⟨feature, hbound⟩ := Option.isSome_iff_exists.mp (AList.lookup_isSome.mpr hin)
    exact htag ((h.used tag).mpr ⟨feature, hbound⟩)
  unfold ChannelTagRegistry.release ChannelTagRegistry.record
  dsimp only
  rw [AList.lookup_insert]
  dsimp only
  rw [erase_insert_notMem tag hfeature, erase_insert_notMem featureId hunbound, erase_insert_tag htag]

/-- **An invocation** binds a tag, or leaves the tables as they were. -/
theorem invoke_cases {M : Type} (h : Paired r) (registry : FeatureRegistry M)
    (onInvoke : M → InvocationContext → Except ModuleError Unit) (now : ℚ) (id peer : String) (params : Json) :
    (∃ e, (registry.dispatchInvokeDatagram onInvoke now id peer params r).2 = (r, .error e)) ∨
    ∃ tag, (registry.dispatchInvokeDatagram onInvoke now id peer params r).2 = ((r.bind id).1, .ok tag) := by
  unfold FeatureRegistry.dispatchInvokeDatagram
  split
  · exact Or.inl ⟨_, rfl⟩
  · split
    · exact Or.inl ⟨_, rfl⟩
    · dsimp only
      split
      · exact Or.inl ⟨_, rfl⟩
      · rcases bind_cases r id with ⟨hbind, -⟩ | ⟨hbind, -⟩ | ⟨tag, hbind, hfree, htag, -⟩
        · rw [hbind]
          exact Or.inl ⟨_, rfl⟩
        · rw [hbind]
          exact Or.inl ⟨_, rfl⟩
        · rw [hbind]
          dsimp only
          split
          · exact Or.inr ⟨tag, rfl⟩
          next e _ => exact Or.inl ⟨e, by rw [release_record h hfree htag]⟩

/-- **One operation.** -/
theorem Paired.apply {M : Type} (h : Paired r) (op : TagOp M) : Paired (op.apply r) := by
  cases op with
  | bind featureId => exact h.bind featureId
  | bindTo featureId tag => exact h.bindTo featureId tag
  | release featureId => exact h.release featureId
  | invoke registry onInvoke now id peer params =>
    change Paired (registry.dispatchInvokeDatagram onInvoke now id peer params r).2.1
    rcases invoke_cases h registry onInvoke now id peer params with ⟨e, hinvoke⟩ | ⟨tag, hinvoke⟩
    · rw [hinvoke]
      exact h
    · rw [hinvoke]
      exact h.bind id

theorem paired_run {M : Type} (ops : List (TagOp M)) : Paired (ops.foldl TagOp.apply new) := by
  have hrun : ∀ r, Paired r → Paired (ops.foldl TagOp.apply r) := by
    induction ops with
    | nil => exact fun _ h => h
    | cons op ops ih => exact fun r h => ih _ (h.apply op)
  exact hrun new paired_new

theorem bind_exhausted_iff (r : ChannelTagRegistry) (featureId : String) :
    (r.bind featureId).2 = .error .exhausted ↔ featureId ∉ r.byFeature ∧ AllUsed r := by
  rcases bind_cases r featureId with ⟨hbind, hbound⟩ | ⟨hbind, hfree, hused⟩ | ⟨tag, hbind, -, htag, hge, hle⟩
  · rw [hbind]
    exact ⟨(fun heq => by cases heq), fun hboth => absurd hbound hboth.1⟩
  · rw [hbind]
    exact ⟨fun _ => ⟨hfree, hused⟩, fun _ => rfl⟩
  · rw [hbind]
    exact ⟨(fun heq => by cases heq), fun hboth => absurd (hboth.2 tag hge hle) htag⟩

end ChannelTagRegistry

open ChannelTagRegistry

/-- **Channel tags.** After any operations the tables of tags are inverse to each other, a feature without a tag is told that the tags
are exhausted exactly if all are in use, and an invocation that fails has changed nothing. -/
theorem tags_given_once {M : Type} (ops : List (TagOp M)) :
    Paired (ops.foldl TagOp.apply new) ∧
    (∀ featureId, featureId ∉ (ops.foldl TagOp.apply new).byFeature →
      (((ops.foldl TagOp.apply new).bind featureId).2 = .error .exhausted ↔ AllUsed (ops.foldl TagOp.apply new))) ∧
    ∀ (registry : FeatureRegistry M) (onInvoke : M → InvocationContext → Except ModuleError Unit) (now : ℚ) (id peer : String)
      (params : Json) (e : ModuleError),
      (registry.dispatchInvokeDatagram onInvoke now id peer params (ops.foldl TagOp.apply new)).2.2 = .error e →
        (registry.dispatchInvokeDatagram onInvoke now id peer params (ops.foldl TagOp.apply new)).2.1 = ops.foldl TagOp.apply new := by
  have hpaired := paired_run ops
  refine ⟨hpaired, fun featureId hfree => ?_, fun registry onInvoke now id peer params e hfails => ?_⟩
  · rw [bind_exhausted_iff]
    exact and_iff_right hfree
  · rcases invoke_cases hpaired registry onInvoke now id peer params with ⟨_, hinvoke⟩ | ⟨tag, hinvoke⟩
    · rw [hinvoke]
    · rw [hinvoke] at hfails
      cases hfails

/-! ### All tags in use -/

/-- A name for each number. -/
def tagName (n : Nat) : String := String.ofList (List.replicate n 'f')

theorem tagName_injective : Function.Injective tagName := by
  intro n m h
  have hlength := congrArg (fun s : String => s.toList.length) h
  simpa [tagName] using hlength

/-- The binds of the first names. -/
def bindNames (n : Nat) : List (TagOp Unit) := (List.range n).map fun n => .bind (tagName n)

theorem card_dynamicTags : dynamicTags.toFinset.card = 224 := by
  have hnodup : dynamicTags.Nodup := by
    refine List.Nodup.map_on (fun n hn m hm h => ?_) List.nodup_range
    have hn := List.mem_range.mp hn
    have hm := List.mem_range.mp hm
    have heq := congrArg UInt8.toNat h
    rw [UInt8.toNat_ofNat', UInt8.toNat_ofNat', Nat.mod_eq_of_lt (by omega), Nat.mod_eq_of_lt (by omega)] at heq
    omega
  rw [List.toFinset_card_of_nodup hnodup, dynamicTags, List.length_map, List.length_range]

/-- As long as there are tags, each new name gets one. -/
theorem bindNames_used (n : Nat) (hn : n ≤ 224) : ((bindNames n).foldl TagOp.apply new).inUse.card = n ∧
    ∀ f ∈ ((bindNames n).foldl TagOp.apply new).byFeature, ∃ i < n, f = tagName i := by
  induction n with
  | zero => exact ⟨rfl, fun f hf => absurd hf (AList.notMem_empty f)⟩
  | succ n ih =>
    obtain ⟨hcard, hnames⟩ := ih (by omega)
    have hstep : (bindNames (n + 1)).foldl TagOp.apply new =
        (((bindNames n).foldl TagOp.apply new).bind (tagName n)).1 := by
      rw [bindNames, List.range_succ, List.map_append, List.foldl_append]
      rfl
    rw [hstep]
    generalize (bindNames n).foldl TagOp.apply new = r at hcard hnames
    rcases bind_cases r (tagName n) with ⟨-, hbound⟩ | ⟨-, -, hused⟩ | ⟨tag, hbind, -, htag, -⟩
    · obtain ⟨i, hi, heq⟩ := hnames _ hbound
      exact absurd (tagName_injective heq) (by omega)
    · have hall : dynamicTags.toFinset ⊆ r.inUse := fun tag htag =>
        hused tag (mem_dynamicTags.mp (List.mem_toFinset.mp htag)).1 (mem_dynamicTags.mp (List.mem_toFinset.mp htag)).2
      have hle := Finset.card_le_card hall
      rw [card_dynamicTags] at hle
      omega
    · rw [hbind]
      refine ⟨?_, fun f hf => ?_⟩
      · rw [ChannelTagRegistry.record, Finset.card_insert_of_notMem htag, hcard]
      · rcases (AList.mem_insert _).mp hf with rfl | hf
        · exact ⟨n, by omega, rfl⟩
        · obtain ⟨i, hi, heq⟩ := hnames f hf
          exact ⟨i, by omega, heq⟩

theorem exists_allUsed : ∃ ops : List (TagOp Unit), AllUsed (ops.foldl TagOp.apply new) := by
  obtain ⟨ops, hcard⟩ : ∃ ops : List (TagOp Unit), (ops.foldl TagOp.apply new).inUse.card = 224 :=
    ⟨bindNames 224, (bindNames_used 224 (Nat.le_refl _)).1⟩
  have hpaired := paired_run ops
  refine ⟨ops, ?_⟩
  generalize ops.foldl TagOp.apply new = r at hpaired hcard
  have hrange : r.inUse ⊆ dynamicTags.toFinset := fun tag htag =>
    List.mem_toFinset.mpr (mem_dynamicTags.mpr (hpaired.range tag htag))
  have hall := Finset.eq_of_subset_of_card_le hrange (by rw [card_dynamicTags, hcard])
  intro tag hge hle
  rw [hall]
  exact List.mem_toFinset.mpr (mem_dynamicTags.mpr ⟨hge, hle⟩)

/-- A feature that has a tag is told so, also when all tags are in use. -/
theorem bound_feature_not_exhausted : ¬∀ (ops : List (TagOp Unit)) (featureId : String),
    ((ops.foldl TagOp.apply new).bind featureId).2 = .error .exhausted ↔ AllUsed (ops.foldl TagOp.apply new) := by
  intro hall
  obtain ⟨ops, hused⟩ := exists_allUsed
  have hclaim := hall ops
  have hpaired := paired_run ops
  generalize ops.foldl TagOp.apply new = r at hclaim hused hpaired
  -- all tags are used, so that some feature has one
  have hstart : dynamicTagStart ∈ r.inUse := hused dynamicTagStart (UInt8.le_refl _) (by decide)
  obtain ⟨f, hf⟩ := (hpaired.used dynamicTagStart).mp hstart
  refine ((bind_exhausted_iff r f).mp ((hclaim f).mpr hused)).1 ?_
  rw [← AList.lookup_isSome, (hpaired.inverse f _).mpr hf]
  rfl

end DoubleSlash.Features
