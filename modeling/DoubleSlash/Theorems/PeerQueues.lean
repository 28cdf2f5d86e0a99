import DoubleSlash.Lib.Ledger
import DoubleSlash.Supernode.PeerQueues

/-!
# What waits for an identity

However sends, writers, registrations and disconnects interleave, a budget's counter is the bytes of the frames that were reserved from it
and have not gone, and all frames of an identity are reserved from one budget.
-/

namespace DoubleSlash.Supernode.PeerQueues

open Assoc Bytes Ledger Run

/-- The counters are balanced and below the ceiling; a reference that was taken for an identity is to the budget of its entry, and nobody
else's. -/
structure Inv (s : PeerQueues) : Prop where
  balanced : Balanced (fun f : QueuedFrame => f.ref.budget) QueuedFrame.bytes s.counters s.outstanding
  cap : ∀ b, s.counters b ≤ peerQueueMaxBytes
  fresh : ∀ r ∈ s.refs, r.budget < s.nextBudget
  entry : ∀ key b, s.queueBudgets.lookup key = some b → b < s.nextBudget
  only : ∀ key b, s.queueBudgets.lookup key = some b → ∀ r ∈ s.refs, r.budget = b → r.owner = .identity key
  shared : ∀ r ∈ s.refs, ∀ key, r.owner = .identity key → s.queueBudgets.lookup key = some r.budget

/-- The bytes of the frames that were sent for an identity and have not gone. -/
def waitingFor (s : PeerQueues) (key : String) : Nat :=
  ((s.outstanding.filter fun f => decide (f.ref.owner = .identity key)).map QueuedFrame.bytes).sum

section

variable {s s' : PeerQueues}

/-! ## References -/

theorem mem_refs_iff {r : BudgetRef} : r ∈ s.refs ↔ (∃ c ch, s.channels.lookup c = some ch ∧ ch.sender = true ∧ ch.cell = r) ∨
    (∃ x ∈ s.loaded, x.2.2 = r) ∨ (∃ f ∈ s.outstanding, f.ref = r) ∨ r ∈ s.freeing ∨ r ∈ s.bindingRefs := by
  have hcells : r ∈ ((values s.channels).filter (·.sender)).map (·.cell) ↔
      ∃ c ch, s.channels.lookup c = some ch ∧ ch.sender = true ∧ ch.cell = r := by
    constructor
    · intro hr
      obtain ⟨ch, hch, hcell⟩ := List.mem_map.mp hr
      obtain ⟨hin, hsender⟩ := List.mem_filter.mp hch
      obtain ⟨c, hc⟩ := (mem_values _ _).mp hin
      exact ⟨c, ch, hc, hsender, hcell⟩
    · rintro ⟨c, ch, hc, hsender, hcell⟩
      exact List.mem_map.mpr ⟨ch, List.mem_filter.mpr ⟨(mem_values _ _).mpr ⟨c, hc⟩, hsender⟩, hcell⟩
  simp only [refs, List.mem_append, hcells, List.mem_map, or_assoc]

theorem cells_refs (s : PeerQueues) : ∀ c ch, s.channels.lookup c = some ch → ch.sender = true → ch.cell ∈ s.refs :=
  fun c ch hc hsender => mem_refs_iff.mpr (Or.inl ⟨c, ch, hc, hsender, rfl⟩)

theorem loaded_refs (s : PeerQueues) : ∀ x ∈ s.loaded, x.2.2 ∈ s.refs :=
  fun x hx => mem_refs_iff.mpr (Or.inr (Or.inl ⟨x, hx, rfl⟩))

theorem frame_refs (s : PeerQueues) : ∀ f ∈ s.outstanding, f.ref ∈ s.refs :=
  fun f hf => mem_refs_iff.mpr (Or.inr (Or.inr (Or.inl ⟨f, hf, rfl⟩)))

theorem freeing_refs (s : PeerQueues) : ∀ r ∈ s.freeing, r ∈ s.refs :=
  fun _ hr => mem_refs_iff.mpr (Or.inr (Or.inr (Or.inr (Or.inl hr))))

theorem binding_refs (s : PeerQueues) : ∀ r ∈ s.bindingRefs, r ∈ s.refs :=
  fun _ hr => mem_refs_iff.mpr (Or.inr (Or.inr (Or.inr (Or.inr hr))))

theorem strong_iff {b : Nat} : s.strong b = true ↔ ∃ r ∈ s.refs, r.budget = b := by
  simp [strong]

/-- Where references are only passed on, none is new. -/
theorem refs_subset (hcells : ∀ c ch, s'.channels.lookup c = some ch → ch.sender = true → ch.cell ∈ s.refs)
    (hloaded : ∀ x ∈ s'.loaded, x.2.2 ∈ s.refs) (hframes : ∀ f ∈ s'.outstanding, f.ref ∈ s.refs) (hfreeing : ∀ r ∈ s'.freeing, r ∈ s.refs)
    (hbinding : ∀ r ∈ s'.bindingRefs, r ∈ s.refs) : ∀ r ∈ s'.refs, r ∈ s.refs := by
  intro r hr
  rcases mem_refs_iff.mp hr with ⟨c, ch, hc, hsender, rfl⟩ | ⟨x, hx, rfl⟩ | ⟨f, hf, rfl⟩ | hr | hr
  · exact hcells c ch hc hsender
  · exact hloaded x hx
  · exact hframes f hf
  · exact hfreeing r hr
  · exact hbinding r hr

/-- A step that passes references on, without a new budget. -/
theorem Inv.pass (h : Inv s) (hrefs : ∀ r ∈ s'.refs, r ∈ s.refs) (hentries : s'.queueBudgets = s.queueBudgets)
    (hnext : s'.nextBudget = s.nextBudget)
    (hbalanced : Balanced (fun f : QueuedFrame => f.ref.budget) QueuedFrame.bytes s'.counters s'.outstanding)
    (hcap : ∀ b, s'.counters b ≤ peerQueueMaxBytes) : Inv s' := by
  refine ⟨hbalanced, hcap, fun r hr => hnext ▸ h.fresh r (hrefs r hr), ?_, ?_, ?_⟩
  · rw [hentries, hnext]
    exact h.entry
  · rw [hentries]
    exact fun key b hb r hr => h.only key b hb r (hrefs r hr)
  · rw [hentries]
    exact fun r hr => h.shared r (hrefs r hr)

/-! ## Steps -/

/-- A channel that is replaced by one whose cell is known. -/
theorem cells_insert {channels : HashMap Nat PeerChannel} {c : Nat} {ch : PeerChannel} {P : BudgetRef → Prop}
    (h : ∀ c ch, channels.lookup c = some ch → ch.sender = true → P ch.cell) (hnew : ch.sender = true → P ch.cell) :
    ∀ c' ch', (channels.insert c ch).lookup c' = some ch' → ch'.sender = true → P ch'.cell := by
  intro c' ch' hlook hsender
  by_cases hc : c' = c
  · subst hc
    rw [AList.lookup_insert, Option.some.injEq] at hlook
    subst hlook
    exact hnew hsender
  · rw [AList.lookup_insert_ne hc] at hlook
    exact h c' ch' hlook hsender

theorem inv_new : Inv new where
  balanced := balanced_nil
  cap _ := Nat.zero_le _
  fresh r hr := by simp [new, refs, outstanding, bindingRefs, values] at hr
  entry key b hb := by simp [new] at hb
  only key b hb := by simp [new] at hb
  shared r hr := by simp [new, refs, outstanding, bindingRefs, values] at hr

/-- What is not held by anyone shows nothing. -/
theorem Inv.counters_fresh (h : Inv s) {b : Nat} (hb : s.nextBudget ≤ b) : s.counters b = 0 := by
  rw [h.balanced b, held]
  have hnone : (s.outstanding.filter fun f => decide (f.ref.budget = b)) = [] := by
    refine List.filter_eq_nil_iff.mpr fun f hf hin => ?_
    have := h.fresh f.ref (s.frame_refs f hf)
    have heq : f.ref.budget = b := by simpa using hin
    omega
  rw [hnone]
  rfl

theorem inv_openChannel (h : Inv s) : Inv s.openChannel := by
  have hrefs : ∀ r ∈ s.openChannel.refs, r ∈ s.refs ∨ r = ⟨s.nextBudget, .connection s.nextChannel⟩ := by
    intro r hr
    rcases mem_refs_iff.mp hr with ⟨c, ch, hc, hsender, rfl⟩ | hr | hr | hr | hr
    · refine cells_insert (P := fun r => r ∈ s.refs ∨ r = ⟨s.nextBudget, .connection s.nextChannel⟩) ?_ (fun _ => Or.inr rfl) c ch hc hsender
      exact fun c ch hc hsender => Or.inl (s.cells_refs c ch hc hsender)
    · exact Or.inl (mem_refs_iff.mpr (Or.inr (Or.inl hr)))
    · exact Or.inl (mem_refs_iff.mpr (Or.inr (Or.inr (Or.inl hr))))
    · exact Or.inl (s.freeing_refs r hr)
    · exact Or.inl (s.binding_refs r hr)
  have hcounters : s.openChannel.counters = s.counters := by
    have hzero := h.counters_fresh (Nat.le_refl s.nextBudget)
    rw [openChannel, ← hzero, Function.update_eq_self]
  refine ⟨hcounters ▸ h.balanced, hcounters ▸ h.cap, fun r hr => ?_, fun key b hb => ?_, fun key b hb r hr heq => ?_, fun r hr key howner => ?_⟩
  · rcases hrefs r hr with hr | rfl
    · exact Nat.lt_succ_of_lt (h.fresh r hr)
    · exact Nat.lt_succ_self _
  · exact Nat.lt_succ_of_lt (h.entry key b hb)
  · rcases hrefs r hr with hr | rfl
    · exact h.only key b hb r hr heq
    · exact absurd heq (Nat.ne_of_gt (h.entry key b hb))
  · rcases hrefs r hr with hr | rfl
    · exact h.shared r hr key howner
    · cases howner

/-- The sweep takes only entries that nobody holds. -/
theorem inv_bindSweep (h : Inv s) (channel : Nat) (key : String) :
    Inv { s with queueBudgets := retain s.queueBudgets fun _ b => s.strong b, binding := some (.swept channel key) } := by
  have hrefs : ∀ r ∈ refs { s with queueBudgets := retain s.queueBudgets fun _ b => s.strong b, binding := some (.swept channel key) },
      r ∈ s.refs :=
    refs_subset s.cells_refs s.loaded_refs s.frame_refs s.freeing_refs
      (fun r hr => by cases hr)
  refine ⟨h.balanced, h.cap, fun r hr => h.fresh r (hrefs r hr), fun key b hb => ?_, fun key b hb r hr => ?_, fun r hr key howner => ?_⟩
  · rw [lookup_retain] at hb
    exact h.entry key b (Option.filter_eq_some_iff.mp hb).1
  · rw [lookup_retain] at hb
    exact h.only key b (Option.filter_eq_some_iff.mp hb).1 r (hrefs r hr)
  · have hlook := h.shared r (hrefs r hr) key howner
    have hstrong : s.strong r.budget = true := strong_iff.mpr ⟨r, hrefs r hr, rfl⟩
    rw [lookup_retain, hlook]
    exact Option.filter_eq_some_iff.mpr ⟨rfl, hstrong⟩

/-- A registration adds one reference to those there are. -/
theorem refs_upgraded {entries : HashMap String Nat} {counters : Nat → Nat} {next channel : Nat} {ref : BudgetRef} {r : BudgetRef}
    (hr : r ∈ refs { s with
      queueBudgets := entries, counters := counters, nextBudget := next, binding := some (.upgraded channel ref) }) :
    r ∈ s.refs ∨ r = ref := by
  rcases mem_refs_iff.mp hr with hr | hr | hr | hr | hr
  · exact Or.inl (mem_refs_iff.mpr (Or.inl hr))
  · exact Or.inl (mem_refs_iff.mpr (Or.inr (Or.inl hr)))
  · exact Or.inl (mem_refs_iff.mpr (Or.inr (Or.inr (Or.inl hr))))
  · exact Or.inl (s.freeing_refs r hr)
  · exact Or.inr (List.mem_singleton.mp hr)

theorem inv_bindUpgrade (h : Inv s) (channel : Nat) (key : String) : Inv (s.bindUpgrade channel key) := by
  unfold bindUpgrade
  cases hfound : (s.queueBudgets.lookup key).filter s.strong with
  | some b =>
    obtain ⟨hlook, hstrong⟩ := Option.filter_eq_some_iff.mp hfound
    obtain ⟨r₀, hr₀, hb₀⟩ := strong_iff.mp hstrong
    have howner := h.only key b hlook r₀ hr₀ hb₀
    have hsame (key' : String) : (s.queueBudgets.insert key b).lookup key' = s.queueBudgets.lookup key' := by
      by_cases hkey : key' = key
      · rw [hkey, AList.lookup_insert, hlook]
      · rw [AList.lookup_insert_ne hkey]
    refine ⟨h.balanced, h.cap, fun r hr => ?_, fun key' b' hb' => ?_, fun key' b' hb' r hr heq => ?_, fun r hr key' hr' => ?_⟩
    · rcases refs_upgraded hr with hr | rfl
      · exact h.fresh r hr
      · exact h.entry key b hlook
    · exact h.entry key' b' (hsame key' ▸ hb')
    · have hb'' : s.queueBudgets.lookup key' = some b' := hsame key' ▸ hb'
      rcases refs_upgraded hr with hr | rfl
      · exact h.only key' b' hb'' r hr heq
      · exact howner.symm.trans (h.only key' b' hb'' r₀ hr₀ (hb₀.trans heq))
    · dsimp only
      rw [hsame key']
      rcases refs_upgraded hr with hr | rfl
      · exact h.shared r hr key' hr'
      · rw [← QueueOwner.identity.inj hr', hlook]
  | none =>
    have hunheld : ∀ r ∈ s.refs, r.owner ≠ .identity key := by
      intro r hr howner
      have hlook := h.shared r hr key howner
      have hstrong : s.strong r.budget = true := strong_iff.mpr ⟨r, hr, rfl⟩
      rw [hlook, Option.filter_some, if_pos hstrong] at hfound
      cases hfound
    have hcounters : Function.update s.counters s.nextBudget 0 = s.counters := by
      have hzero := h.counters_fresh (Nat.le_refl s.nextBudget)
      rw [← hzero, Function.update_eq_self]
    refine ⟨hcounters.symm ▸ h.balanced, hcounters.symm ▸ h.cap, fun r hr => ?_, fun key' b hb => ?_, fun key' b hb r hr heq => ?_,
      fun r hr key' howner => ?_⟩
    · rcases refs_upgraded hr with hr | rfl
      · exact Nat.lt_succ_of_lt (h.fresh r hr)
      · exact Nat.lt_succ_self _
    · by_cases hkey : key' = key
      · subst hkey
        rw [AList.lookup_insert, Option.some.injEq] at hb
        exact hb ▸ Nat.lt_succ_self _
      · rw [AList.lookup_insert_ne hkey] at hb
        exact Nat.lt_succ_of_lt (h.entry key' b hb)
    · by_cases hkey : key' = key
      · subst hkey
        rw [AList.lookup_insert, Option.some.injEq] at hb
        rcases refs_upgraded hr with hr | rfl
        · have := h.fresh r hr
          omega
        · rfl
      · rw [AList.lookup_insert_ne hkey] at hb
        rcases refs_upgraded hr with hr | rfl
        · exact h.only key' b hb r hr heq
        · exact absurd heq (Nat.ne_of_gt (h.entry key' b hb))
    · rcases refs_upgraded hr with hr | rfl
      · have hkey : key' ≠ key := fun heq => hunheld r hr (heq ▸ howner)
        rw [AList.lookup_insert_ne hkey]
        exact h.shared r hr key' howner
      · rw [← QueueOwner.identity.inj howner, AList.lookup_insert]

/-! ## Frames -/

theorem inv_reserve (h : Inv s) (channel : Nat) (json : String) {ref : BudgetRef} (href : ref ∈ s.refs)
    {l : List (Nat × String × BudgetRef)} (hl : ∀ x ∈ l, x ∈ s.loaded) : Inv (reserve { s with loaded := l } channel json ref) := by
  unfold reserve
  dsimp only
  split
  · rename_i hroom
    refine h.pass (refs_subset s.cells_refs (fun x hx => s.loaded_refs x (hl x hx)) ?_ s.freeing_refs
      s.binding_refs) rfl rfl (h.balanced.reserve ⟨json, _, ref⟩) fun b => ?_
    · intro f hf
      rcases List.mem_cons.mp hf with rfl | hf
      · exact href
      · exact s.frame_refs f hf
    · dsimp only
      by_cases hb : b = ref.budget
      · subst hb
        rwa [Function.update_self]
      · rw [Function.update_of_ne hb]
        exact h.cap b
  · refine h.pass (refs_subset ?_ (fun x hx => s.loaded_refs x (hl x hx)) s.frame_refs ?_ s.binding_refs) rfl rfl h.balanced
      h.cap
    · intro c ch hc hsender
      rw [lookup_modify] at hc
      split at hc
      · obtain ⟨ch₀, hc₀, rfl⟩ := Option.map_eq_some_iff.mp hc
        rename_i heq
        exact s.cells_refs channel ch₀ hc₀ hsender
      · exact s.cells_refs c ch hc hsender
    · intro r hr
      rcases List.mem_cons.mp hr with rfl | hr
      · exact href
      · exact s.freeing_refs r hr

/-- A frame that goes gives back what it reserved. -/
theorem release_counters {f : QueuedFrame} {l : List QueuedFrame}
    (hbalanced : Balanced (fun f : QueuedFrame => f.ref.budget) QueuedFrame.bytes s.counters (f :: l))
    (hcap : ∀ b, s.counters b ≤ peerQueueMaxBytes) :
    (s.counters f.ref.budget + 2 ^ 64 - f.bytes) % 2 ^ 64 = s.counters f.ref.budget - f.bytes := by
  have hle : f.bytes ≤ s.counters f.ref.budget := hbalanced.amount_le
  have hsmall := hcap f.ref.budget
  unfold peerQueueMaxBytes at hsmall
  omega

theorem inv_release (h : Inv s) {i : Nat} {f : QueuedFrame} (hi : s.dropping[i]? = some f) :
    Inv ({ s with dropping := s.dropping.eraseIdx i }.release f) := by
  obtain ⟨hlt, hget⟩ := List.getElem?_eq_some_iff.mp hi
  have hperm : s.outstanding.Perm (f :: outstanding { s with dropping := s.dropping.eraseIdx i }) := by
    have hdrop : s.dropping.Perm (f :: s.dropping.eraseIdx i) := hget ▸ (List.getElem_cons_eraseIdx_perm hlt).symm
    exact ((hdrop.append_left _).append_left _).trans ((List.perm_middle.append_left _).trans List.perm_middle)
  have hbalanced := h.balanced.perm hperm
  have hcounters := release_counters hbalanced h.cap
  have hsub : ∀ f' ∈ outstanding { s with dropping := s.dropping.eraseIdx i }, f' ∈ s.outstanding :=
    fun f' hf' => hperm.mem_iff.mpr (List.mem_cons_of_mem f hf')
  unfold release
  dsimp only
  rw [hcounters]
  refine h.pass (refs_subset s.cells_refs s.loaded_refs (fun f' hf' => s.frame_refs f' (hsub f' hf')) ?_
    s.binding_refs) rfl rfl hbalanced.release fun b => ?_
  · intro r hr
    rcases List.mem_cons.mp hr with rfl | hr
    · exact s.frame_refs f (hperm.mem_iff.mpr List.mem_cons_self)
    · exact s.freeing_refs r hr
  · dsimp only
    by_cases hb : b = f.ref.budget
    · subst hb
      rw [Function.update_self]
      exact (Nat.sub_le _ _).trans (h.cap _)
    · rw [Function.update_of_ne hb]
      exact h.cap b

/-- A step that only moves frames. -/
theorem Inv.move (h : Inv s) (hperm : s.outstanding.Perm s'.outstanding) (hchannels : s'.channels = s.channels)
    (hloaded : s'.loaded = s.loaded) (hfreeing : s'.freeing = s.freeing) (hbinding : s'.binding = s.binding)
    (hentries : s'.queueBudgets = s.queueBudgets) (hnext : s'.nextBudget = s.nextBudget) (hcounters : s'.counters = s.counters) : Inv s' := by
  refine h.pass (refs_subset ?_ ?_ ?_ ?_ ?_) hentries hnext (hcounters ▸ h.balanced.perm hperm) (hcounters ▸ h.cap)
  · exact hchannels ▸ s.cells_refs
  · exact hloaded ▸ s.loaded_refs
  · exact fun f hf => s.frame_refs f (hperm.mem_iff.mpr hf)
  · exact hfreeing ▸ s.freeing_refs
  · intro r hr
    unfold bindingRefs at hr
    rw [hbinding] at hr
    exact s.binding_refs r hr

/-- A step that only replaces a channel and lets its budget go or stay. -/
theorem Inv.rechannel (h : Inv s) {c : Nat} {ch ch' : PeerChannel} (hc : s.channels.lookup c = some ch) (hcell : ch'.cell = ch.cell)
    (hsender : ch'.sender = true → ch.sender = true) : Inv { s with channels := s.channels.insert c ch' } := by
  refine h.pass (refs_subset ?_ s.loaded_refs s.frame_refs
    s.freeing_refs s.binding_refs) rfl rfl h.balanced h.cap
  refine cells_insert (P := fun r => r ∈ s.refs) s.cells_refs fun hs => ?_
  rw [hcell]
  exact s.cells_refs c ch hc (hsender hs)

/-! ## Senders that are borrowed -/

/-- The channel's sender is there. -/
def HasSender (s : PeerQueues) (c : Nat) : Prop := ∃ ch, s.channels.lookup c = some ch ∧ ch.sender = true

/-- Sends and registrations borrow a sender that is there. -/
structure Borrowed (s : PeerQueues) : Prop where
  sending : ∀ x ∈ s.started, s.HasSender x.1
  registering : ∀ x, s.binding = some x → s.HasSender x.channel

theorem HasSender.insert {c c' : Nat} {ch : PeerChannel} (h : s.HasSender c) (hsender : c = c' → ch.sender = true) :
    HasSender { s with channels := s.channels.insert c' ch } c := by
  obtain ⟨ch₀, hc₀, hs₀⟩ := h
  by_cases heq : c = c'
  · subst heq
    exact ⟨ch, AList.lookup_insert _, hsender rfl⟩
  · exact ⟨ch₀, (AList.lookup_insert_ne heq).trans hc₀, hs₀⟩

theorem hasSender_of_any {c : Nat} {p : PeerChannel → Bool} (h : (s.channels.lookup c).any p = true)
    (hp : ∀ ch, p ch = true → ch.sender = true) : s.HasSender c := by
  cases hc : s.channels.lookup c with
  | none => simp [hc] at h
  | some ch => exact ⟨ch, hc, hp ch (by simpa [hc] using h)⟩

theorem idle_iff {c : Nat} (h : s.idle c = true) : (∀ x ∈ s.started, x.1 ≠ c) ∧ ∀ x, s.binding = some x → x.channel ≠ c := by
  simp only [idle, Bool.and_eq_true, List.all_eq_true, bne_iff_ne, ne_eq] at h
  refine ⟨fun x hx => h.1.1.1 x hx, fun x hx => ?_⟩
  simpa [hx] using h.2

/-- What is borrowed stays borrowed when its channels keep their senders. -/
theorem Borrowed.keep (h : Borrowed s) (hsub : ∀ c, s.HasSender c → s'.HasSender c) (hstarted : ∀ x ∈ s'.started, x ∈ s.started)
    (hbinding : ∀ x, s'.binding = some x → ∃ y, s.binding = some y ∧ y.channel = x.channel) : Borrowed s' := by
  refine ⟨fun x hx => hsub _ (h.sending x (hstarted x hx)), fun x hx => ?_⟩
  obtain ⟨y, hy, hc⟩ := hbinding x hx
  exact hc ▸ hsub _ (h.registering y hy)

/-- What holds in every state that is reached. -/
structure Sound (s : PeerQueues) : Prop extends Inv s, Borrowed s

theorem sound_new : Sound new := ⟨inv_new, ⟨fun x hx => (by cases hx), fun x hx => (by cases hx)⟩⟩

/-- A channel that is replaced by one with as much of a sender. -/
theorem Sound.rechannel (h : Sound s) {c : Nat} {ch ch' : PeerChannel} (hc : s.channels.lookup c = some ch) (hcell : ch'.cell = ch.cell)
    (hsender : ch'.sender = ch.sender) : Sound { s with channels := s.channels.insert c ch' } := by
  refine ⟨h.toInv.rechannel hc hcell fun hs => hsender ▸ hs, h.toBorrowed.keep (fun c' hc' => hc'.insert ?_) (fun _ hx => hx)
    fun x hx => ⟨x, hx, rfl⟩⟩
  rintro rfl
  obtain ⟨ch₀, hc₀, hs₀⟩ := hc'
  obtain rfl := Option.some.inj (hc.symm.trans hc₀)
  rw [hsender, hs₀]

/-- A frame that is taken from the sends, in the place of which it goes elsewhere. -/
theorem perm_pushed {i : Nat} {x : Nat × QueuedFrame} (hi : s.reserved[i]? = some x) {l : List QueuedFrame}
    (hl : l.Perm (x.2 :: (s.queued.map Prod.snd ++ s.dropping))) :
    s.outstanding.Perm ((s.reserved.eraseIdx i).map Prod.snd ++ l) := by
  obtain ⟨hlt, hget⟩ := List.getElem?_eq_some_iff.mp hi
  have hout : s.reserved.Perm (x :: s.reserved.eraseIdx i) := hget ▸ (List.getElem_cons_eraseIdx_perm hlt).symm
  exact ((hout.map Prod.snd).append_right _).trans (List.perm_middle.symm.trans (hl.symm.append_left _))

theorem sound_step {a : Act} (h : Sound s) (hstep : s.step a = some s') : Sound s' := by
  have hinv := h.toInv
  have hborrowed := h.toBorrowed
  cases a with
  | «open» =>
    obtain rfl := Option.some.inj hstep
    exact ⟨inv_openChannel hinv, hborrowed.keep (fun c hc => hc.insert fun _ => rfl) (fun _ hx => hx) fun x hx => ⟨x, hx, rfl⟩⟩
  | bindSweep channel identity =>
    simp only [step] at hstep
    split at hstep
    · rename_i hguard
      obtain rfl := Option.some.inj hstep
      refine ⟨inv_bindSweep hinv channel _, hborrowed.sending, fun x hx => ?_⟩
      obtain rfl := Option.some.inj hx
      exact hasSender_of_any hguard.2 fun _ hs => hs
    · cases hstep
  | bindUpgrade =>
    simp only [step] at hstep
    split at hstep
    · rename_i channel key hbinding
      obtain rfl := Option.some.inj hstep
      have hsender := hborrowed.registering _ hbinding
      refine ⟨inv_bindUpgrade hinv channel key, ?_⟩
      unfold bindUpgrade
      split
      · exact ⟨hborrowed.sending, fun x hx => Option.some.inj hx ▸ hsender⟩
      · exact ⟨hborrowed.sending, fun x hx => Option.some.inj hx ▸ hsender⟩
    · cases hstep
  | bindEnd =>
    simp only [step] at hstep
    split at hstep
    · rename_i channel ref hbinding
      obtain ⟨ch, hc, rfl⟩ := Option.map_eq_some_iff.mp hstep
      obtain ⟨ch', hc', hs'⟩ := hborrowed.registering _ hbinding
      obtain rfl : ch' = ch := Option.some.inj (hc'.symm.trans hc)
      have href : ref ∈ s.refs := s.binding_refs ref (by simp [bindingRefs, hbinding])
      refine ⟨hinv.pass (refs_subset (cells_insert (P := fun r => r ∈ s.refs) s.cells_refs fun _ => href) s.loaded_refs s.frame_refs ?_
        (fun r hr => by cases hr)) rfl rfl hinv.balanced hinv.cap, ?_⟩
      · intro r hr
        rcases List.mem_cons.mp hr with rfl | hr
        · exact s.cells_refs channel ch' hc hs'
        · exact s.freeing_refs r hr
      · have hsub (c : Nat) (hcs : s.HasSender c) : HasSender { s with channels := s.channels.insert channel { ch' with cell := ref } } c :=
          hcs.insert fun _ => hs'
        exact ⟨fun x hx => hsub _ (hborrowed.sending x hx), fun x hx => by cases hx⟩
    · cases hstep
  | sendBegin channel json =>
    simp only [step] at hstep
    split at hstep
    · rename_i hguard
      obtain rfl := Option.some.inj hstep
      refine ⟨hinv.move (List.Perm.refl _) rfl rfl rfl rfl rfl rfl rfl, fun x hx => ?_, hborrowed.registering⟩
      rcases List.mem_cons.mp hx with rfl | hx
      · refine hasSender_of_any hguard fun ch hch => ?_
        simp only [Bool.and_eq_true] at hch
        exact hch.1.1
      · exact hborrowed.sending x hx
    · cases hstep
  | sendLoad i =>
    simp only [step] at hstep
    split at hstep
    · cases hstep
    · rename_i channel json hi
      obtain ⟨ch, hc, rfl⟩ := Option.map_eq_some_iff.mp hstep
      obtain ⟨ch', hc', hs'⟩ := hborrowed.sending _ (List.mem_of_getElem? hi)
      obtain rfl : ch' = ch := Option.some.inj (hc'.symm.trans hc)
      refine ⟨hinv.pass (refs_subset s.cells_refs ?_ s.frame_refs s.freeing_refs s.binding_refs) rfl rfl hinv.balanced hinv.cap,
        hborrowed.keep (fun _ hc => hc) (fun x hx => List.mem_of_mem_eraseIdx hx) fun x hx => ⟨x, hx, rfl⟩⟩
      intro x hx
      rcases List.mem_cons.mp hx with rfl | hx
      · exact s.cells_refs channel ch' hc hs'
      · exact s.loaded_refs x hx
  | sendReserve i =>
    simp only [step] at hstep
    split at hstep
    · cases hstep
    · rename_i channel json ref hi
      obtain rfl := Option.some.inj hstep
      have href : ref ∈ s.refs := s.loaded_refs _ (List.mem_of_getElem? hi)
      refine ⟨inv_reserve hinv channel json href fun x hx => List.mem_of_mem_eraseIdx hx, ?_⟩
      unfold reserve
      dsimp only
      split
      · exact hborrowed.keep (fun _ hc => hc) (fun _ hx => hx) fun x hx => ⟨x, hx, rfl⟩
      · refine hborrowed.keep (fun c hc => ?_) (fun _ hx => hx) fun x hx => ⟨x, hx, rfl⟩
        obtain ⟨ch, hlook, hs⟩ := hc
        by_cases heq : c = channel
        · subst heq
          exact ⟨{ ch with closed := true, notified := true }, by rw [lookup_modify, if_pos rfl, hlook]; rfl, hs⟩
        · exact ⟨ch, by rw [lookup_modify, if_neg heq, hlook], hs⟩
  | sendPush i =>
    simp only [step] at hstep
    split at hstep
    · cases hstep
    · rename_i channel f hi
      split at hstep
      · obtain rfl := Option.some.inj hstep
        refine ⟨hinv.move (perm_pushed hi ?_) rfl rfl rfl rfl rfl rfl rfl, hborrowed.keep (fun _ hc => hc) (fun _ hx => hx)
          fun x hx => ⟨x, hx, rfl⟩⟩
        rw [List.map_append, List.append_assoc]
        exact List.perm_middle
      · obtain rfl := Option.some.inj hstep
        exact ⟨hinv.move (perm_pushed hi List.perm_middle) rfl rfl rfl rfl rfl rfl rfl,
          hborrowed.keep (fun _ hc => hc) (fun _ hx => hx) fun x hx => ⟨x, hx, rfl⟩⟩
  | recv channel =>
    simp only [step] at hstep
    split at hstep
    · cases hstep
    · rename_i ch hc
      split at hstep
      · cases hstep
      split at hstep
      · obtain rfl := Option.some.inj hstep
        exact h
      split at hstep
      · obtain rfl := Option.some.inj hstep
        exact h.rechannel hc rfl rfl
      split at hstep
      · split at hstep
        · cases hstep
        · obtain rfl := Option.some.inj hstep
          exact h
      · rename_i x hx
        obtain rfl := Option.some.inj hstep
        have hin : x ∈ s.queued := List.mem_of_find?_eq_some hx
        refine ⟨hinv.move ?_ rfl rfl rfl rfl rfl rfl rfl, hborrowed.keep (fun _ hc => hc) (fun _ hx => hx) fun x hx => ⟨x, hx, rfl⟩⟩
        exact ((((List.perm_cons_erase hin).map Prod.snd).append_right _).trans List.perm_middle.symm).append_left _
  | dropFrame i =>
    simp only [step] at hstep
    split at hstep
    · cases hstep
    · rename_i f hi
      obtain rfl := Option.some.inj hstep
      exact ⟨inv_release hinv hi, hborrowed.keep (fun _ hc => hc) (fun _ hx => hx) fun x hx => ⟨x, hx, rfl⟩⟩
  | free i =>
    simp only [step] at hstep
    split at hstep
    · obtain rfl := Option.some.inj hstep
      exact ⟨hinv.pass (refs_subset s.cells_refs s.loaded_refs s.frame_refs (fun r hr => s.freeing_refs r (List.mem_of_mem_eraseIdx hr))
        s.binding_refs) rfl rfl hinv.balanced hinv.cap, hborrowed.keep (fun _ hc => hc) (fun _ hx => hx) fun x hx => ⟨x, hx, rfl⟩⟩
    · cases hstep
  | dropSender channel =>
    simp only [step] at hstep
    split at hstep
    · cases hstep
    · rename_i ch hc
      split at hstep
      · rename_i hguard
        obtain ⟨hs, hidle⟩ := Bool.and_eq_true_iff.mp hguard
        obtain ⟨hnosend, hnobind⟩ := idle_iff hidle
        obtain rfl := Option.some.inj hstep
        refine ⟨hinv.pass (refs_subset (cells_insert (P := fun r => r ∈ s.refs) s.cells_refs fun hs' => by cases hs') s.loaded_refs s.frame_refs ?_
          s.binding_refs) rfl rfl hinv.balanced hinv.cap, ?_⟩
        · intro r hr
          rcases List.mem_cons.mp hr with rfl | hr
          · exact s.cells_refs channel ch hc hs
          · exact s.freeing_refs r hr
        · exact ⟨fun x hx => (hborrowed.sending x hx).insert fun heq => absurd heq (hnosend x hx),
            fun x hx => (hborrowed.registering x hx).insert fun heq => absurd heq (hnobind x hx)⟩
      · cases hstep
  | dropReceiver channel =>
    simp only [step] at hstep
    split at hstep
    · cases hstep
    · rename_i ch hc
      split at hstep
      · obtain rfl := Option.some.inj hstep
        have hnext : Sound { s with channels := s.channels.insert channel { ch with receiver := false } } := h.rechannel hc rfl rfl
        refine ⟨hnext.toInv.move ?_ rfl rfl rfl rfl rfl rfl rfl, hnext.toBorrowed.keep (fun _ hc => hc) (fun _ hx => hx) fun x hx => ⟨x, hx, rfl⟩⟩
        refine List.Perm.append_left _ ?_
        dsimp only
        rw [← List.append_assoc, ← List.map_append]
        refine List.Perm.append_right _ (List.Perm.map Prod.snd ?_)
        exact ((List.filter_append_perm (fun x : Nat × QueuedFrame => x.1 == channel) s.queued).symm).trans List.perm_append_comm
      · cases hstep

theorem sound_run {acts : List Act} (hrun : run step new acts = some s) : Sound s :=
  run_invariant (fun _ s => Sound s) sound_new (fun _ _ _ _ => sound_step) hrun

/-! ## One ceiling for an identity -/

/-- What waits for an identity is what the budget of one of its references shows. -/
theorem waitingFor_eq (h : Inv s) {r : BudgetRef} (hr : r ∈ s.refs) {key : String} (howner : r.owner = .identity key) :
    s.waitingFor key = s.counters r.budget := by
  have hlook := h.shared r hr key howner
  refine h.balanced.sum_eq fun f hf => ?_
  rw [Bool.eq_iff_iff, decide_eq_true_eq, decide_eq_true_eq]
  constructor
  · intro hf'
    exact Option.some.inj ((h.shared f.ref (s.frame_refs f hf) key hf').symm.trans hlook)
  · exact h.only key r.budget hlook f.ref (s.frame_refs f hf)

/-- **An identity's queues have one ceiling.** In every interleaving, over all of its devices, transports and reconnects, no more than
`PEER_QUEUE_MAX_BYTES` of what was sent for an identity is there at a time; and no budget's counter ever runs below zero. -/
theorem identity_queue_bounded {acts : List Act} (hrun : run step new acts = some s) :
    (∀ key, s.waitingFor key ≤ peerQueueMaxBytes) ∧ ∀ f ∈ s.dropping, f.bytes ≤ s.counters f.ref.budget := by
  have h := (sound_run hrun).toInv
  refine ⟨fun key => ?_, fun f hf => ?_⟩
  · by_cases hsome : ∃ f ∈ s.outstanding, f.ref.owner = .identity key
    · obtain ⟨f, hf, howner⟩ := hsome
      rw [waitingFor_eq h (s.frame_refs f hf) howner]
      exact h.cap f.ref.budget
    · have hnone : (s.outstanding.filter fun f => decide (f.ref.owner = .identity key)) = [] :=
        List.filter_eq_nil_iff.mpr fun f hf howner => hsome ⟨f, hf, by simpa using howner⟩
      rw [waitingFor, hnone]
      exact Nat.zero_le _
  · have hin : f ∈ s.outstanding := List.mem_append_right _ (List.mem_append_right _ hf)
    exact (h.balanced.perm (List.perm_cons_erase hin)).amount_le

/-- **Nobody is refused for another's backlog.** A send on a connection of an identity gets its bytes exactly when they fit beside those
that wait for that identity; otherwise the connection closes and nothing is queued. -/
theorem refused_for_own_backlog {acts : List Act} (hrun : run step new acts = some s) {i channel : Nat} {json : String} {ref : BudgetRef} {key : String}
    (hi : s.loaded[i]? = some (channel, json, ref)) (howner : ref.owner = .identity key) (hstep : s.step (.sendReserve i) = some s') :
    (s.waitingFor key + (utf8 json).length ≤ peerQueueMaxBytes ∧ s'.reserved = (channel, ⟨json, (utf8 json).length, ref⟩) :: s.reserved ∧
        s'.channels = s.channels) ∨
      (peerQueueMaxBytes < s.waitingFor key + (utf8 json).length ∧ s'.outstanding = s.outstanding ∧
        ∀ ch, s'.channels.lookup channel = some ch → ch.closed = true) := by
  have h := (sound_run hrun).toInv
  rw [waitingFor_eq h (s.loaded_refs _ (List.mem_of_getElem? hi)) howner]
  simp only [step, hi, Option.some.injEq] at hstep
  subst hstep
  unfold reserve
  dsimp only
  split
  · rename_i hroom
    exact Or.inl ⟨hroom, rfl, rfl⟩
  · rename_i hroom
    refine Or.inr ⟨Nat.lt_of_not_le hroom, rfl, fun ch hch => ?_⟩
    rw [lookup_modify, if_pos rfl] at hch
    obtain ⟨ch₀, -, rfl⟩ := Option.map_eq_some_iff.mp hch
    rfl

end

/-- A connection that is bound, and a send that has its budget. -/
def sampleSend : List Act := [.open, .bindSweep 0 "alice", .bindUpgrade, .bindEnd, .sendBegin 0 "hi", .sendLoad 0]

theorem identity_queue_bounded_alice : ∃ s, run step new (sampleSend ++ [.sendReserve 0]) = some s ∧
    ((∀ key, s.waitingFor key ≤ peerQueueMaxBytes) ∧ ∀ f ∈ s.dropping, f.bytes ≤ s.counters f.ref.budget) :=
  ⟨_, rfl, @identity_queue_bounded _ (sampleSend ++ [.sendReserve 0]) rfl⟩

theorem refused_for_own_backlog_alice : ∃ s s', run step new sampleSend = some s ∧ s.step (.sendReserve 0) = some s' ∧
    ((s.waitingFor "alice" + (utf8 "hi").length ≤ peerQueueMaxBytes ∧
        s'.reserved = (0, ⟨"hi", (utf8 "hi").length, ⟨1, .identity "alice"⟩⟩) :: s.reserved ∧ s'.channels = s.channels) ∨
      (peerQueueMaxBytes < s.waitingFor "alice" + (utf8 "hi").length ∧ s'.outstanding = s.outstanding ∧
        ∀ ch, s'.channels.lookup 0 = some ch → ch.closed = true)) :=
  ⟨_, _, rfl, rfl, @refused_for_own_backlog _ _ sampleSend rfl 0 0 "hi" ⟨1, .identity "alice"⟩ "alice" rfl rfl rfl⟩

end DoubleSlash.Supernode.PeerQueues
