import DoubleSlash.Keys.Group
import DoubleSlash.Lib.Run

/-!
# Epochs of group keys

Which keys a conversation keeps, and when a minted epoch is one that the members take and have no other key under.
-/

namespace DoubleSlash.Keys

open Assoc Run

/-! ## The keys that are kept -/

/-- What a client does with the keys of a conversation. -/
inductive KeyOp (K : Type) where
  | newOwnerEpoch (now : Nat) (convId : String) (key : K)
  | rotate (now : Nat) (convId : String) (key : K)
  | noteObservedEpoch (convId : String) (epoch : UInt8)
  | forget (convId : String)
  | install (now : Nat) (convId : String) (epoch : UInt8) (key : K)

/-- A client's keys, and for each conversation what was installed since its keys were last dropped, the newest first. -/
structure KeyHistory (K : Type) where
  group : SenderKeysGroup K
  installs : String → List (UInt8 × K)

namespace KeyHistory

variable {K : Type}

/-- No keys yet. -/
def new : KeyHistory K := { group := SenderKeysGroup.new, installs := fun _ => [] }

/-- One operation; an epoch is installed only if it is accepted at that moment. -/
def step (s : KeyHistory K) : KeyOp K → Option (KeyHistory K)
  | .newOwnerEpoch now convId key =>
    let minted := s.group.newOwnerEpoch now convId key
    some { group := minted.1, installs := Function.update s.installs convId [(minted.2, key)] }
  | .rotate now convId key =>
    let minted := s.group.rotate now convId key
    some { group := minted.1, installs := Function.update s.installs convId ((minted.2, key) :: s.installs convId) }
  | .noteObservedEpoch convId epoch => some { s with group := s.group.noteObservedEpoch convId epoch }
  | .forget convId => some { group := s.group.forget convId, installs := Function.update s.installs convId [] }
  | .install now convId epoch key =>
    if acceptGroupKeyEpoch (s.group.hasRealKey convId) (s.group.currentEpoch convId) epoch then
      some {
        group := s.group.install now convId epoch key
        installs := Function.update s.installs convId ((epoch, key) :: s.installs convId) }
    else none

end KeyHistory

section

variable {K : Type}

/-- The epochs that were installed, each once, the one installed last at the front. -/
def recentEpochs : List (UInt8 × K) → List UInt8
  | [] => []
  | (epoch, _) :: installs => epoch :: (recentEpochs installs).erase epoch

/-- The key that was last installed under an epoch. -/
def latestKey (installs : List (UInt8 × K)) (epoch : UInt8) : Option K := (installs.find? fun i => i.1 = epoch).map Prod.snd

/-- The keys of a conversation: the current one is there and the one just installed, and those kept are of the epochs that were
installed last, four at most. -/
structure KeepsNewest (deterministicRoomKey : String → K) (s : KeyHistory K) (convId : String) : Prop where
  seals : s.group.epochKey deterministicRoomKey convId (s.group.currentEpoch convId) ≠ none
  newest : ∀ epoch key rest, s.installs convId = (epoch, key) :: rest →
    s.group.epochKey deterministicRoomKey convId epoch = some key
  bounded : (s.group.retained convId).entries.length ≤ maxRetainedEpochs
  recent : ∀ epoch, (s.group.retained convId).lookup epoch =
    if epoch ∈ (recentEpochs (s.installs convId)).take maxRetainedEpochs then latestKey (s.installs convId) epoch else none

/-- The epoch and the conversation of a key that an operation adds to those that are kept. -/
def addedEpoch (s : KeyHistory K) : KeyOp K → Option (String × UInt8)
  | .rotate _ convId _ => (s.group.groups.lookup convId).map fun state => (convId, state.nextEpoch)
  | .install _ convId epoch _ => some (convId, epoch)
  | _ => none

/-- When a fifth epoch comes, the one installed longest ago is the lowest of the five. -/
def OldestLowest (s : KeyHistory K) (op : KeyOp K) : Prop :=
  ∀ convId epoch oldest, addedEpoch s op = some (convId, epoch) →
    (recentEpochs (s.installs convId))[maxRetainedEpochs - 1]? = some oldest →
    epoch ∉ (recentEpochs (s.installs convId)).take maxRetainedEpochs →
    oldest < epoch ∧ ∀ other ∈ (recentEpochs (s.installs convId)).take (maxRetainedEpochs - 1), oldest < other

namespace GroupEpochsAux

/-! ### The epochs installed last -/

theorem take_erase (l : List UInt8) (n : Nat) (e : UInt8) : (l.erase e).take n = ((l.take (n + 1)).erase e).take n := by
  induction l generalizing n with
  | nil => simp
  | cons x l ih =>
    rw [List.take_succ_cons, List.erase_cons, List.erase_cons]
    by_cases hx : x = e
    · rw [if_pos (by simpa using hx), if_pos (by simpa using hx), List.take_take, min_self]
    · rw [if_neg (by simpa using hx), if_neg (by simpa using hx)]
      cases n with
      | zero => rfl
      | succ n => rw [List.take_succ_cons, List.take_succ_cons, ih n]

theorem recentEpochs_cons (e : UInt8) (k : K) (installs : List (UInt8 × K)) (n : Nat) :
    (recentEpochs ((e, k) :: installs)).take (n + 1) = (e :: ((recentEpochs installs).take (n + 1)).erase e).take (n + 1) := by
  rw [recentEpochs, List.take_succ_cons, List.take_succ_cons, take_erase]

theorem nodup_recentEpochs (installs : List (UInt8 × K)) : (recentEpochs installs).Nodup := by
  induction installs with
  | nil => exact List.nodup_nil
  | cons i installs ih => exact List.nodup_cons.mpr ⟨fun h => (ih.mem_erase_iff.mp h).1 rfl, ih.erase _⟩

theorem latestKey_cons (e : UInt8) (k : K) (installs : List (UInt8 × K)) (x : UInt8) :
    latestKey ((e, k) :: installs) x = if x = e then some k else latestKey installs x := by
  unfold latestKey
  by_cases hx : x = e
  · rw [if_pos hx, List.find?_cons_of_pos (by simpa using hx.symm)]
    rfl
  · rw [if_neg hx, List.find?_cons_of_neg (by simpa using Ne.symm hx)]

theorem isSome_latestKey {installs : List (UInt8 × K)} {e : UInt8} (h : e ∈ recentEpochs installs) : (latestKey installs e).isSome := by
  induction installs with
  | nil => exact absurd h List.not_mem_nil
  | cons i installs ih =>
    obtain ⟨e', k⟩ := i
    rw [latestKey_cons]
    by_cases he : e = e'
    · rw [if_pos he]
      rfl
    · rw [if_neg he]
      exact ih (List.mem_of_mem_erase ((List.mem_cons.mp h).resolve_left he))

/-! ### One epoch comes in -/

/-- The kept keys are those of a list of epochs. -/
def Keeps (keys : HashMap UInt8 K) (w : List UInt8) (value : UInt8 → Option K) : Prop :=
  ∀ e, keys.lookup e = if e ∈ w then value e else none

theorem perm_of_keeps {keys : HashMap UInt8 K} {w : List UInt8} {value : UInt8 → Option K} (hw : w.Nodup)
    (hvalue : ∀ e ∈ w, (value e).isSome) (h : Keeps keys w value) : keys.keys.Perm w := by
  rw [List.perm_ext_iff_of_nodup keys.keys_nodup hw]
  intro e
  rw [← AList.mem_keys, ← AList.lookup_isSome, h e]
  by_cases he : e ∈ w
  · simp [he, hvalue e he]
  · simp [he]

theorem length_of_keeps {keys : HashMap UInt8 K} {w : List UInt8} {value : UInt8 → Option K} (hw : w.Nodup)
    (hvalue : ∀ e ∈ w, (value e).isSome) (h : Keeps keys w value) : keys.entries.length = w.length := by
  rw [← (perm_of_keeps hw hvalue h).length_eq]
  exact (List.length_map _).symm

theorem keeps_insert {keys : HashMap UInt8 K} {w : List UInt8} {value : UInt8 → Option K} (h : Keeps keys w value) (e : UInt8) (k : K) :
    Keeps (keys.insert e k) (e :: w.erase e) fun x => if x = e then some k else value x := by
  intro x
  by_cases hx : x = e
  · subst hx
    rw [AList.lookup_insert, if_pos List.mem_cons_self]
    exact (if_pos rfl).symm
  · dsimp only
    rw [AList.lookup_insert_ne hx, h x, if_neg hx]
    have hmem : x ∈ e :: w.erase e ↔ x ∈ w := by
      rw [List.mem_cons, List.mem_erase_of_ne hx]
      exact or_iff_right hx
    simp only [hmem]

theorem min_of_perm {keys : HashMap UInt8 K} {w : List UInt8} (h : keys.keys.Perm w) {m : UInt8} (hm : m ∈ w) (hle : ∀ x ∈ w, m ≤ x) :
    GroupState.dropLowest keys = keys.erase m := by
  have hmin : keys.keys.min? = some m :=
    List.min?_eq_some_iff.mpr ⟨h.mem_iff.mpr hm, fun x hx => hle x (h.mem_iff.mp hx)⟩
  unfold GroupState.dropLowest
  rw [hmin]

theorem keeps_erase {keys : HashMap UInt8 K} {w : List UInt8} {value : UInt8 → Option K} (hw : w.Nodup) (h : Keeps keys w value)
    (m : UInt8) : Keeps (keys.erase m) (w.erase m) value := by
  intro x
  by_cases hx : x = m
  · subst hx
    rw [AList.lookup_erase, if_neg fun hmem => (hw.mem_erase_iff.mp hmem).1 rfl]
  · rw [AList.lookup_erase_ne hx, h x]
    simp only [List.mem_erase_of_ne hx]

/-- Some epoch of a list is the lowest. -/
theorem exists_lowest (x : UInt8) (w : List UInt8) : ∃ m ∈ x :: w, ∀ y ∈ x :: w, m ≤ y := by
  induction w generalizing x with
  | nil => exact ⟨x, List.mem_cons_self, fun y hy => by rw [List.mem_singleton.mp hy]; exact UInt8.le_refl x⟩
  | cons z w ih =>
    obtain ⟨m, hm, hle⟩ := ih z
    by_cases hx : x ≤ m
    · refine ⟨x, List.mem_cons_self, fun y hy => ?_⟩
      rcases List.mem_cons.mp hy with rfl | hy
      · exact UInt8.le_refl y
      · exact UInt8.le_trans hx (hle y hy)
    · refine ⟨m, List.mem_cons_of_mem x hm, fun y hy => ?_⟩
      rcases List.mem_cons.mp hy with rfl | hy
      · exact UInt8.le_of_lt (UInt8.not_le.mp hx)
      · exact hle y hy

/-- The kept keys after an epoch came in: at most four, and of the newest epochs exactly when the oldest is the lowest. -/
theorem keeps_install {keys : HashMap UInt8 K} {w : List UInt8} {value : UInt8 → Option K} (hw : w.Nodup)
    (hlen : w.length ≤ maxRetainedEpochs) (hvalue : ∀ e ∈ w, (value e).isSome) (h : Keeps keys w value) (e : UInt8) (k : K) :
    let kept := Nat.iterate GroupState.dropLowest ((keys.insert e k).entries.length - maxRetainedEpochs) (keys.insert e k)
    kept.entries.length ≤ maxRetainedEpochs ∧ kept.entries.length ≠ 0 ∧
      (Keeps kept ((e :: w.erase e).take maxRetainedEpochs) (fun x => if x = e then some k else value x) ↔
        ∀ oldest, w[maxRetainedEpochs - 1]? = some oldest → e ∉ w → oldest < e ∧ ∀ other ∈ w.take (maxRetainedEpochs - 1), oldest < other) := by
  have hkeeps := keeps_insert h e k
  have hnodup : (e :: w.erase e).Nodup := List.nodup_cons.mpr ⟨fun hmem => (hw.mem_erase_iff.mp hmem).1 rfl, hw.erase e⟩
  have hsome : ∀ x ∈ e :: w.erase e, ((fun x => if x = e then some k else value x) x).isSome := by
    intro x hx
    dsimp only
    by_cases hxe : x = e
    · rw [if_pos hxe]
      rfl
    · rw [if_neg hxe]
      exact hvalue x (List.mem_of_mem_erase ((List.mem_cons.mp hx).resolve_left hxe))
  have hperm := perm_of_keeps hnodup hsome hkeeps
  have hsize := length_of_keeps hnodup hsome hkeeps
  dsimp only
  rw [hsize]
  by_cases hfew : (e :: w.erase e).length ≤ maxRetainedEpochs
  · rw [Nat.sub_eq_zero_of_le hfew, List.take_of_length_le hfew, Function.iterate_zero, id_eq, hsize]
    refine ⟨hfew, Nat.succ_ne_zero _, iff_of_true hkeeps fun oldest hold hnew => ?_⟩
    have hlt := (List.getElem?_eq_some_iff.mp hold).1
    rw [List.erase_of_not_mem hnew, List.length_cons] at hfew
    unfold maxRetainedEpochs at hlt hfew
    omega
  · have hnew : e ∉ w := by
      intro hmem
      rw [List.length_cons, List.length_erase_of_mem hmem] at hfew
      have hpos := List.length_pos_of_mem hmem
      omega
    rw [List.erase_of_not_mem hnew] at hfew hperm hsize hkeeps hnodup ⊢
    rw [List.length_cons] at hfew hsize ⊢
    have hfour : w.length = 4 := by
      unfold maxRetainedEpochs at hfew hlen
      omega
    obtain ⟨a, b, c, d, rfl⟩ := List.length_eq_four.mp hfour
    obtain ⟨m, hm, hle⟩ := exists_lowest e [a, b, c, d]
    have hkept := keeps_erase hnodup hkeeps m
    have hone : [a, b, c, d].length + 1 - maxRetainedEpochs = 1 := rfl
    rw [hone, Function.iterate_one, min_of_perm hperm hm hle, length_of_keeps (hnodup.erase m)
      (fun x hx => hsome x (by rw [List.erase_of_not_mem hnew]; exact List.mem_of_mem_erase hx)) hkept, List.length_erase_of_mem hm]
    refine ⟨le_rfl, Nat.succ_ne_zero _, ?_⟩
    have hd : d ∉ [e, a, b, c] := by
      have hsplit : ([e, a, b, c] ++ [d]).Nodup := hnodup
      exact fun hmem => (List.nodup_append.mp hsplit).2.2 d hmem d (List.mem_singleton_self d) rfl
    have hall (x : UInt8) : x ∈ [e, a, b, c, d] ↔ x ∈ [e, a, b, c] ∨ x = d := by
      rw [← List.mem_singleton, ← List.mem_append]
      rfl
    show Keeps _ [e, a, b, c] _ ↔ ∀ oldest, some d = some oldest → e ∉ [a, b, c, d] → oldest < e ∧ ∀ other ∈ [a, b, c], oldest < other
    constructor
    · intro hnewest oldest hold _
      obtain rfl := Option.some.inj hold
      have hmd : m = d := by
        by_contra hne
        have hlook := hkept d
        rw [hnewest d, if_neg hd, if_pos ((List.mem_erase_of_ne (Ne.symm hne)).mpr ((hall d).mpr (Or.inr rfl)))] at hlook
        have hval := hsome d (by rw [List.erase_of_not_mem hnew]; exact (hall d).mpr (Or.inr rfl))
        rw [← hlook] at hval
        exact absurd hval (by simp)
      have hlt (x : UInt8) (hx : x ∈ [e, a, b, c]) : d < x :=
        UInt8.lt_of_le_of_ne (hmd ▸ hle x ((hall x).mpr (Or.inl hx))) fun heq => hd (heq ▸ hx)
      exact ⟨hlt e List.mem_cons_self, fun other hother => hlt other (List.mem_cons_of_mem e hother)⟩
    · intro hlowest
      obtain ⟨hde, hdw⟩ := hlowest d rfl hnew
      have hmd : m = d := by
        refine ((hall m).mp hm).resolve_left fun hmem => ?_
        have hlt : d < m := (List.mem_cons.mp hmem).elim (fun heq => heq ▸ hde) (hdw m)
        exact UInt8.not_le.mpr hlt (hle d ((hall d).mpr (Or.inr rfl)))
      intro x
      rw [hkept x, hmd]
      have hmem : x ∈ [e, a, b, c, d].erase d ↔ x ∈ [e, a, b, c] := by
        rw [hnodup.mem_erase_iff, hall x]
        constructor
        · exact fun h => h.2.resolve_right h.1
        · exact fun h => ⟨fun heq => hd (heq ▸ h), Or.inl h⟩
      simp only [hmem]

/-! ### A step -/

/-- What holds of a conversation whatever was installed. -/
structure Bound (s : KeyHistory K) (convId : String) : Prop where
  bounded : (s.group.retained convId).entries.length ≤ maxRetainedEpochs
  none_installed : s.installs convId = [] → (s.group.retained convId).entries.length = 0
  current : ∀ epoch key rest, s.installs convId = (epoch, key) :: rest →
    (s.group.groups.lookup convId).map GroupState.current = some epoch ∧ (s.group.retained convId).entries.length ≠ 0

/-- The keys of a conversation are the newest ones. -/
def Newest (s : KeyHistory K) (convId : String) : Prop :=
  Keeps (s.group.retained convId) ((recentEpochs (s.installs convId)).take maxRetainedEpochs) (latestKey (s.installs convId))

theorem newest_of_none {s : KeyHistory K} {convId : String} (hb : Bound s convId) (h : s.installs convId = []) : Newest s convId := by
  intro e
  have hempty : s.group.retained convId = ∅ := AList.ext (List.length_eq_zero_iff.mp (hb.none_installed h))
  rw [hempty, h, AList.lookup_empty]
  rfl

/-- Nothing was installed in a conversation that is not there. -/
theorem Bound.installs_eq {s : KeyHistory K} {convId : String} (hb : Bound s convId) (h : s.group.groups.lookup convId = none) :
    s.installs convId = [] := by
  cases hinstalls : s.installs convId with
  | nil => rfl
  | cons i rest =>
    have hcurrent := (hb.current i.1 i.2 rest hinstalls).1
    rw [h] at hcurrent
    exact absurd hcurrent (by simp)

/-- A key is installed in a state of the conversation. -/
theorem install_step {t : KeyHistory K} {convId : String} {state : GroupState K} {now : Nat} {epoch : UInt8} {key : K}
    {installs : List (UInt8 × K)} (hlook : t.group.groups.lookup convId = some (state.install now epoch key))
    (hinstalls : t.installs convId = (epoch, key) :: installs)
    (hkeeps : Keeps state.keys ((recentEpochs installs).take maxRetainedEpochs) (latestKey installs)) :
    Bound t convId ∧ (Newest t convId ↔ ∀ oldest, (recentEpochs installs)[maxRetainedEpochs - 1]? = some oldest →
      epoch ∉ (recentEpochs installs).take maxRetainedEpochs →
      oldest < epoch ∧ ∀ other ∈ (recentEpochs installs).take (maxRetainedEpochs - 1), oldest < other) := by
  have hretained : t.group.retained convId =
      Nat.iterate GroupState.dropLowest ((state.keys.insert epoch key).entries.length - maxRetainedEpochs) (state.keys.insert epoch key) := by
    unfold SenderKeysGroup.retained
    rw [hlook]
    rfl
  have hwindow : (recentEpochs installs)[maxRetainedEpochs - 1]? =
      ((recentEpochs installs).take maxRetainedEpochs)[maxRetainedEpochs - 1]? := by
    rw [List.getElem?_take, if_pos (by decide)]
  have htake : (recentEpochs installs).take (maxRetainedEpochs - 1) =
      ((recentEpochs installs).take maxRetainedEpochs).take (maxRetainedEpochs - 1) := by
    rw [List.take_take]
    rfl
  obtain ⟨hbounded, hnonempty, hiff⟩ := keeps_install ((nodup_recentEpochs installs).sublist (List.take_sublist _ _))
    (List.length_take_le _ _) (fun e he => isSome_latestKey (List.mem_of_mem_take he)) hkeeps epoch key
  refine ⟨⟨hretained ▸ hbounded, fun h => ?_, fun e k rest h => ?_⟩, ?_⟩
  · rw [hinstalls] at h
    exact absurd h (by simp)
  · rw [hinstalls] at h
    obtain ⟨⟨rfl, rfl⟩, -⟩ := (List.cons_eq_cons.mp h).imp_left Prod.mk.inj
    rw [hlook, hretained]
    exact ⟨rfl, hnonempty⟩
  · unfold Newest
    have hcons : (recentEpochs ((epoch, key) :: installs)).take maxRetainedEpochs =
        (epoch :: ((recentEpochs installs).take maxRetainedEpochs).erase epoch).take maxRetainedEpochs :=
      recentEpochs_cons epoch key installs (maxRetainedEpochs - 1)
    have hlatest : latestKey ((epoch, key) :: installs) = fun x => if x = epoch then some key else latestKey installs x :=
      funext (latestKey_cons epoch key installs)
    rw [hretained, hinstalls, hlatest, hcons, hwindow, htake]
    exact hiff

/-- A conversation that the step does not touch. -/
theorem untouched {s s' : KeyHistory K} {convId : String} (hlook : s'.group.groups.lookup convId = s.group.groups.lookup convId)
    (hinstalls : s'.installs convId = s.installs convId) : (Bound s convId → Bound s' convId) ∧ (Newest s convId → Newest s' convId) := by
  have hretained : s'.group.retained convId = s.group.retained convId := by
    unfold SenderKeysGroup.retained
    rw [hlook]
  constructor
  · rintro ⟨hbounded, hnone, hcurrent⟩
    exact ⟨hretained ▸ hbounded, fun h => hretained ▸ hnone (hinstalls ▸ h), fun e k rest h => by
      rw [hlook, hretained]
      exact hcurrent e k rest (hinstalls ▸ h)⟩
  · intro hnewest
    unfold Newest
    rw [hretained, hinstalls]
    exact hnewest

/-- A conversation without keys. -/
theorem emptied {t : KeyHistory K} {convId : String} (hretained : t.group.retained convId = ∅) (hinstalls : t.installs convId = []) :
    Bound t convId ∧ Newest t convId := by
  have hb : Bound t convId := by
    refine ⟨?_, fun _ => ?_, fun e k rest h => ?_⟩
    · rw [hretained]
      exact Nat.zero_le _
    · rw [hretained]
      rfl
    · rw [hinstalls] at h
      exact absurd h (by simp)
  exact ⟨hb, newest_of_none hb hinstalls⟩

theorem keeps_nothing : Keeps (∅ : HashMap UInt8 K) ((recentEpochs ([] : List (UInt8 × K))).take maxRetainedEpochs) (latestKey []) :=
  fun e => AList.lookup_empty e

/-- The conversation a step is about. -/
def convOf : KeyOp K → String
  | .newOwnerEpoch _ convId _ | .rotate _ convId _ | .noteObservedEpoch convId _ | .forget convId | .install _ convId _ _ => convId

theorem step_other {s s' : KeyHistory K} {op : KeyOp K} (hstep : s.step op = some s') {convId : String} (hne : convId ≠ convOf op) :
    s'.group.groups.lookup convId = s.group.groups.lookup convId ∧ s'.installs convId = s.installs convId := by
  cases op with
  | newOwnerEpoch now c key =>
    obtain rfl := Option.some.inj hstep
    exact ⟨AList.lookup_insert_ne hne, Function.update_of_ne hne _ _⟩
  | rotate now c key =>
    obtain rfl := Option.some.inj hstep
    refine ⟨?_, Function.update_of_ne hne _ _⟩
    dsimp only
    cases hlook : s.group.groups.lookup c with
    | none =>
      rw [SenderKeysGroup.rotate_of_none hlook]
      exact AList.lookup_insert_ne hne
    | some state =>
      rw [SenderKeysGroup.rotate_of_some hlook]
      exact AList.lookup_insert_ne hne
  | noteObservedEpoch c epoch =>
    obtain rfl := Option.some.inj hstep
    exact ⟨AList.lookup_insert_ne hne, rfl⟩
  | forget c =>
    obtain rfl := Option.some.inj hstep
    exact ⟨AList.lookup_erase_ne hne, Function.update_of_ne hne _ _⟩
  | install now c epoch key =>
    unfold KeyHistory.step at hstep
    dsimp only at hstep
    split at hstep
    · obtain rfl := Option.some.inj hstep
      exact ⟨AList.lookup_insert_ne hne, Function.update_of_ne hne _ _⟩
    · exact absurd hstep (by simp)

theorem retained_eq {g : SenderKeysGroup K} {convId : String} :
    ((g.groups.lookup convId).getD GroupState.default).keys = g.retained convId := by
  unfold SenderKeysGroup.retained
  cases g.groups.lookup convId with
  | none => rfl
  | some state => rfl

theorem oldestLowest_of_none {s : KeyHistory K} {op : KeyOp K} (h : addedEpoch s op = none) : OldestLowest s op :=
  fun _ _ _ hadded => absurd (h.symm.trans hadded) (by simp)

theorem oldestLowest_iff {s : KeyHistory K} {op : KeyOp K} {convId : String} {epoch : UInt8}
    (h : addedEpoch s op = some (convId, epoch)) :
    (∀ oldest, (recentEpochs (s.installs convId))[maxRetainedEpochs - 1]? = some oldest →
      epoch ∉ (recentEpochs (s.installs convId)).take maxRetainedEpochs →
      oldest < epoch ∧ ∀ other ∈ (recentEpochs (s.installs convId)).take (maxRetainedEpochs - 1), oldest < other) ↔
      OldestLowest s op := by
  constructor
  · intro hall c e oldest hadded
    obtain ⟨rfl, rfl⟩ := Prod.mk.inj (Option.some.inj (h.symm.trans hadded))
    exact hall oldest
  · exact fun hall oldest => hall convId epoch oldest h

/-- The conversation that a step is about keeps the newest keys exactly when the step meets the condition. -/
theorem step_self {s s' : KeyHistory K} {op : KeyOp K} (hb : Bound s (convOf op)) (hn : Newest s (convOf op))
    (hstep : s.step op = some s') : Bound s' (convOf op) ∧ (Newest s' (convOf op) ↔ OldestLowest s op) := by
  have hfresh (now : Nat) (c : String) (key : K) (t : KeyHistory K) (htrue : OldestLowest s op) (ht : t.group = (s.group.newOwnerEpoch now c key).1)
      (hinstalls : t.installs c = [((s.group.newOwnerEpoch now c key).2, key)]) :
      Bound t c ∧ (Newest t c ↔ OldestLowest s op) := by
    obtain ⟨hbound, hiff⟩ := install_step (t := t) (by rw [ht]; exact AList.lookup_insert _) hinstalls keeps_nothing
    exact ⟨hbound, iff_of_true (hiff.mpr fun _ h _ => absurd h (by simp [recentEpochs])) htrue⟩
  cases op with
  | newOwnerEpoch now c key =>
    obtain rfl := Option.some.inj hstep
    exact hfresh now c key _ (oldestLowest_of_none rfl) rfl (Function.update_self _ _ _)
  | rotate now c key =>
    obtain rfl := Option.some.inj hstep
    cases hlook : s.group.groups.lookup c with
    | none =>
      have hrotate := SenderKeysGroup.rotate_of_none hlook now key
      have hempty : s.installs c = [] := hb.installs_eq hlook
      refine hfresh now c key _ (oldestLowest_of_none (by simp [addedEpoch, hlook])) (by rw [hrotate]) ?_
      rw [← hempty, ← hrotate]
      exact Function.update_self _ _ _
    | some state =>
      have hkeys : state.keys = s.group.retained c := by
        unfold SenderKeysGroup.retained
        rw [hlook]
        rfl
      rw [SenderKeysGroup.rotate_of_some hlook]
      have hadded : addedEpoch s (.rotate now c key) = some (c, state.nextEpoch) := by simp [addedEpoch, hlook]
      obtain ⟨hbound, hiff⟩ := install_step
        (t := { group := ⟨s.group.groups.insert c (state.install now state.nextEpoch key)⟩,
                installs := Function.update s.installs c ((state.nextEpoch, key) :: s.installs c) })
        (AList.lookup_insert _) (Function.update_self _ _ _) (hkeys ▸ hn)
      exact ⟨hbound, hiff.trans (oldestLowest_iff hadded)⟩
  | noteObservedEpoch c epoch =>
    obtain rfl := Option.some.inj hstep
    have hretained : (s.group.noteObservedEpoch c epoch).retained c = s.group.retained c := by
      rw [← retained_eq (g := s.group)]
      unfold SenderKeysGroup.retained SenderKeysGroup.noteObservedEpoch
      dsimp only
      rw [AList.lookup_insert]
      rfl
    refine ⟨⟨hretained ▸ hb.bounded, fun h => hretained ▸ hb.none_installed h, fun e k rest h => ?_⟩, ?_⟩
    · obtain ⟨hcurrent, hkeys⟩ := hb.current e k rest h
      refine ⟨?_, hretained ▸ hkeys⟩
      obtain ⟨state, hlook, hstate⟩ := Option.map_eq_some_iff.mp hcurrent
      unfold SenderKeysGroup.noteObservedEpoch
      dsimp only
      rw [show convOf (KeyOp.noteObservedEpoch c epoch : KeyOp K) = c from rfl] at hlook ⊢
      rw [AList.lookup_insert, hlook]
      exact congrArg some hstate
    · refine iff_of_true ?_ (oldestLowest_of_none rfl)
      unfold Newest
      rw [show convOf (KeyOp.noteObservedEpoch c epoch : KeyOp K) = c from rfl, hretained]
      exact hn
  | forget c =>
    obtain rfl := Option.some.inj hstep
    obtain ⟨hbound, hnewest⟩ := emptied (t := { group := s.group.forget c, installs := Function.update s.installs c [] })
      (by unfold SenderKeysGroup.retained SenderKeysGroup.forget; dsimp only; rw [AList.lookup_erase]; rfl) (Function.update_self _ _ _)
    exact ⟨hbound, iff_of_true hnewest (oldestLowest_of_none rfl)⟩
  | install now c epoch key =>
    unfold KeyHistory.step at hstep
    dsimp only at hstep
    split at hstep
    · obtain rfl := Option.some.inj hstep
      obtain ⟨hbound, hiff⟩ := install_step
        (t := { group := s.group.install now c epoch key, installs := Function.update s.installs c ((epoch, key) :: s.installs c) })
        (AList.lookup_insert _) (Function.update_self _ _ _) (retained_eq (g := s.group) ▸ hn)
      exact ⟨hbound, hiff.trans (oldestLowest_iff rfl)⟩
    · exact absurd hstep (by simp)

/-! ### What is kept, and what seals -/

theorem epochKey_of_real {g : SenderKeysGroup K} {convId : String} (h : g.hasRealKey convId = true) (deterministicRoomKey : String → K) :
    (∀ epoch, g.epochKey deterministicRoomKey convId epoch = (g.retained convId).lookup epoch) ∧
      (g.groups.lookup convId).map GroupState.current = some (g.currentEpoch convId) := by
  unfold SenderKeysGroup.hasRealKey at h
  unfold SenderKeysGroup.epochKey SenderKeysGroup.currentEpoch SenderKeysGroup.retained
  cases hlook : g.groups.lookup convId with
  | none =>
    rw [hlook] at h
    exact absurd h (by simp)
  | some state =>
    rw [hlook, Option.any_some] at h
    rw [Option.filter_some, if_pos h]
    exact ⟨fun _ => rfl, rfl⟩

theorem hasRealKey_iff {g : SenderKeysGroup K} {convId : String} :
    g.hasRealKey convId = true ↔ (g.retained convId).entries.length ≠ 0 := by
  unfold SenderKeysGroup.hasRealKey SenderKeysGroup.retained
  cases g.groups.lookup convId with
  | none => simp
  | some state => simp [GroupState.hasKeys]

theorem keepsNewest_iff {deterministicRoomKey : String → K} {s : KeyHistory K} {convId : String} (hb : Bound s convId) :
    (s.group.hasRealKey convId = true → KeepsNewest deterministicRoomKey s convId) ↔ Newest s convId := by
  constructor
  · intro hkeeps
    cases hinstalls : s.installs convId with
    | nil => exact newest_of_none hb hinstalls
    | cons i rest => exact (hkeeps (hasRealKey_iff.mpr (hb.current i.1 i.2 rest hinstalls).2)).recent
  · intro hnewest hreal
    obtain ⟨hkey, hcurrent⟩ := epochKey_of_real hreal deterministicRoomKey
    have hfirst (e : UInt8) (k : K) (rest : List (UInt8 × K)) (h : s.installs convId = (e, k) :: rest) :
        s.group.epochKey deterministicRoomKey convId e = some k := by
      rw [hkey, hnewest e, h, if_pos, latestKey_cons, if_pos rfl]
      exact List.mem_cons_self
    refine ⟨?_, hfirst, hb.bounded, hnewest⟩
    cases hinstalls : s.installs convId with
    | nil => exact absurd (hb.none_installed hinstalls) (hasRealKey_iff.mp hreal)
    | cons i rest =>
      have hepoch := Option.some.inj (hcurrent.symm.trans (hb.current i.1 i.2 rest hinstalls).1)
      rw [hepoch, hfirst i.1 i.2 rest hinstalls]
      exact Option.some_ne_none _

/-- All conversations keep their newest keys after a step exactly when the step meets the condition. -/
theorem newest_step {s s' : KeyHistory K} {op : KeyOp K} (hb : ∀ c, Bound s c) (hn : ∀ c, Newest s c) (hstep : s.step op = some s') :
    (∀ c, Bound s' c) ∧ ((∀ c, Newest s' c) ↔ OldestLowest s op) := by
  obtain ⟨hself, hiff⟩ := step_self (hb _) (hn _) hstep
  have hother (c : String) (hc : c ≠ convOf op) : Bound s' c ∧ Newest s' c := by
    obtain ⟨hlook, hinstalls⟩ := step_other hstep hc
    exact ⟨(untouched hlook hinstalls).1 (hb c), (untouched hlook hinstalls).2 (hn c)⟩
  refine ⟨fun c => ?_, fun h => hiff.mp (h _), fun h c => ?_⟩
  · by_cases hc : c = convOf op
    · rw [hc]
      exact hself
    · exact (hother c hc).1
  · by_cases hc : c = convOf op
    · rw [hc]
      exact hiff.mpr h
    · exact (hother c hc).2

end GroupEpochsAux

open GroupEpochsAux

/-- **What a client keeps.** In every run the keys of every conversation with a real key are the newest ones, the current one among
them, exactly when whenever a fifth epoch comes the one installed longest ago is the lowest of the five. -/
theorem keeps_newest_iff (deterministicRoomKey : String → K) {ops : List (KeyOp K)} {s : KeyHistory K}
    (hrun : run KeyHistory.step KeyHistory.new ops = some s) :
    (∀ pre s₁, pre <+: ops → run KeyHistory.step KeyHistory.new pre = some s₁ →
      ∀ convId, s₁.group.hasRealKey convId = true → KeepsNewest deterministicRoomKey s₁ convId) ↔
      Meets KeyHistory.step OldestLowest KeyHistory.new ops := by
  have hempty (c : String) : Bound (KeyHistory.new : KeyHistory K) c ∧ Newest (KeyHistory.new : KeyHistory K) c := emptied rfl rfl
  refine meets_iff_prefixes
    (fun s : KeyHistory K => ∀ c, Bound s c)
    (fun s => ∀ c, s.group.hasRealKey c = true → KeepsNewest deterministicRoomKey s c)
    ?_ (fun c => (hempty c).1) (fun c => (keepsNewest_iff (hempty c).1).mpr (hempty c).2) hrun
  intro s op s' hb hkeeps hstep
  have hn : ∀ c, Newest s c := fun c => (keepsNewest_iff (hb c)).mp (hkeeps c)
  obtain ⟨hb', hiff⟩ := newest_step hb hn hstep
  exact ⟨hb', (forall_congr' fun c => keepsNewest_iff (hb' c)).trans hiff⟩

end

namespace GroupEpochsAux

theorem oldestLowest_of_all {K : Type} {s : KeyHistory K} {op : KeyOp K} {convId : String} {epoch : UInt8}
    (hadded : addedEpoch s op = some (convId, epoch))
    (h : ((recentEpochs (s.installs convId))[maxRetainedEpochs - 1]?.all fun oldest => decide (oldest < epoch) &&
      ((recentEpochs (s.installs convId)).take (maxRetainedEpochs - 1)).all fun other => decide (oldest < other)) = true) :
    OldestLowest s op := by
  refine (oldestLowest_iff hadded).mp fun oldest hold _ => ?_
  rw [hold, Option.all_some, Bool.and_eq_true, decide_eq_true_eq, List.all_eq_true] at h
  exact ⟨h.1, fun other hother => of_decide_eq_true (h.2 other hother)⟩

/-- A room is keyed and a member leaves four times. -/
def fiveEpochs : List (KeyOp Nat) :=
  [.newOwnerEpoch 0 "r" 10, .rotate 0 "r" 11, .rotate 0 "r" 12, .rotate 0 "r" 13, .rotate 0 "r" 14]

/-- After five epochs a frame of the last epoch of all comes in, and the key is rotated once more. -/
def wrapping : List (KeyOp Nat) := fiveEpochs ++ [.noteObservedEpoch "r" 255, .rotate 0 "r" 15]

end GroupEpochsAux

open GroupEpochsAux

/-- After the five epochs the first is gone and the newest key is there. -/
theorem keeps_newest_iff_five : ∃ s, run KeyHistory.step KeyHistory.new fiveEpochs = some s ∧
    KeepsNewest (fun _ => 0) s "r" ∧ s.group.currentEpoch "r" = 4 := by
  have hrun : run KeyHistory.step KeyHistory.new fiveEpochs = some _ := rfl
  refine ⟨_, hrun, (keeps_newest_iff (fun _ => 0) hrun).mpr ?_ _ _ (List.prefix_refl _) hrun "r" (by decide +kernel), by decide +kernel⟩
  refine ⟨oldestLowest_of_none rfl, fun s₁ h₁ => ?_⟩
  obtain rfl := Option.some.inj h₁
  refine ⟨oldestLowest_of_all rfl (by decide +kernel), fun s₂ h₂ => ?_⟩
  obtain rfl := Option.some.inj h₂
  refine ⟨oldestLowest_of_all rfl (by decide +kernel), fun s₃ h₃ => ?_⟩
  obtain rfl := Option.some.inj h₃
  refine ⟨oldestLowest_of_all rfl (by decide +kernel), fun s₄ h₄ => ?_⟩
  obtain rfl := Option.some.inj h₄
  exact ⟨oldestLowest_of_all rfl (by decide +kernel), fun _ _ => trivial⟩

/-- One frame can leave a client whose current epoch is one that it has no key of. -/
theorem keeps_newest_fails : ¬ ∀ (ops : List (KeyOp Nat)) (s : KeyHistory Nat), run KeyHistory.step KeyHistory.new ops = some s →
    ∀ convId, s.group.hasRealKey convId = true → KeepsNewest (fun _ => 0) s convId := by
  intro hclaim
  have hrun : run KeyHistory.step KeyHistory.new wrapping = some _ := rfl
  have hseals := (hclaim wrapping _ hrun "r" (by decide +kernel)).seals
  exact hseals (by decide +kernel)

end DoubleSlash.Keys
