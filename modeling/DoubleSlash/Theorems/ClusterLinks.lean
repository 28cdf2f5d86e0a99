import DoubleSlash.Cluster.Link
import DoubleSlash.Lib.Run
import Mathlib.Data.List.Find

/-!
# The table of cluster links

While a link to a member runs, the table has a running channel for it and the rooms it last advertised on a running link, exactly
when no link ends while another one to its member runs: the end of a link takes the member's entries out, whoever put them there.
-/

namespace DoubleSlash.Cluster

open Assoc Text Run

/-- A link to the member is running. -/
def Node.Pumped (n : Node) (member : String) : Prop := ∃ link, (link, member) ∈ n.live

/-- The rooms the member last advertised on a link that still runs. -/
def Node.lastAdvertised (n : Node) (member : String) : Option (Finset String) :=
  (n.heard.find? fun a => decide ((a.1, member) ∈ n.live)).map fun a => a.2.toFinset

/-- The table serves every member with a running link. -/
structure BookKept (n : Node) : Prop where
  channel : ∀ member, n.Pumped member → ∃ e, n.state.peers.lookup member = some e ∧ (e.tx, member) ∈ n.live
  subs : ∀ member, n.Pumped member → n.state.remoteSubs.lookup member = n.lastAdvertised member

/-- The end of a link leaves alone what another link to its member registered. -/
def Spares (n n' : Node) (act : LinkAct) : Prop :=
  ∀ link member, act = .teardown link → n.live.lookup link = some member →
    ∀ e, n.state.peers.lookup member = some e → e.tx ≠ link →
      n'.state.peers.lookup member = some e ∧ n'.state.remoteSubs.lookup member = n.state.remoteSubs.lookup member

/-- What a step has to leave behind. -/
def Survives (E : Env) (n : Node) (act : LinkAct) : Prop :=
  ∀ n', linkStep E n act = some n' → BookKept n' ∧ Spares n n' act

/-- A link ends only when it is the only one to its member. -/
def SoleEnd (n : Node) (act : LinkAct) : Prop :=
  ∀ link member, act = .teardown link → n.live.lookup link = some member → ∀ other, (other, member) ∈ n.live → other = link

namespace ClusterLinksAux

theorem mem_of_lookup {α β : Type} [BEq α] [LawfulBEq α] {l : List (α × β)} {a : α} {b : β} (h : l.lookup a = some b) : (a, b) ∈ l := by
  induction l with
  | nil => cases h
  | cons x l ih =>
    rw [List.lookup_cons] at h
    split at h
    · rename_i heq
      rw [beq_iff_eq] at heq
      rw [← Option.some.inj h, heq]
      exact List.mem_cons_self
    · exact List.mem_cons_of_mem _ (ih h)

/-- What holds along the runs in which links end alone. -/
structure Tidy (n : Node) : Prop where
  fresh : ∀ l ∈ n.live, l.1 < n.nextLink
  unique : ∀ link m m', (link, m) ∈ n.live → (link, m') ∈ n.live → m = m'
  heard : ∀ a ∈ n.heard, a.1 < n.nextLink
  kept : BookKept n
  absent : ∀ member, ¬n.Pumped member → n.state.peers.lookup member = none ∧ n.state.remoteSubs.lookup member = none

theorem tidy_new : Tidy Node.new where
  fresh := by simp [Node.new]
  unique := by simp [Node.new]
  heard := by simp [Node.new]
  kept := ⟨fun _ h => absurd h (by simp [Node.Pumped, Node.new]), fun _ h => absurd h (by simp [Node.Pumped, Node.new])⟩
  absent := fun _ _ => ⟨AList.lookup_empty _, AList.lookup_empty _⟩

variable {n n' : Node}

theorem lastAdvertised_congr {m : String} (hheard : n'.heard = n.heard)
    (hlive : ∀ a ∈ n.heard, (a.1, m) ∈ n'.live ↔ (a.1, m) ∈ n.live) : n'.lastAdvertised m = n.lastAdvertised m := by
  unfold Node.lastAdvertised
  rw [hheard]
  congr 1
  apply List.find?_congr
  intro a ha
  rw [decide_eq_decide]
  exact hlive a ha

/-- The table, the links and what was heard are all that matters. -/
theorem Tidy.congr (h : Tidy n) (hstate : n'.state = n.state) (hlive : n'.live = n.live) (hnext : n'.nextLink = n.nextLink)
    (hheard : n'.heard = n.heard) : Tidy n' where
  fresh := by rw [hlive, hnext]; exact h.fresh
  unique := by rw [hlive]; exact h.unique
  heard := by rw [hheard, hnext]; exact h.heard
  kept := by
    refine ⟨fun m hm => ?_, fun m hm => ?_⟩
    · unfold Node.Pumped at hm
      rw [hlive] at hm
      rw [hstate, hlive]
      exact h.kept.channel m hm
    · unfold Node.Pumped at hm
      rw [hlive] at hm
      rw [hstate, lastAdvertised_congr hheard fun a _ => by rw [hlive]]
      exact h.kept.subs m hm
  absent := by
    unfold Node.Pumped
    rw [hstate, hlive]
    exact h.absent

/-- The rooms are right for every member, running or not. -/
theorem Tidy.subs (h : Tidy n) (m : String) : n.state.remoteSubs.lookup m = n.lastAdvertised m := by
  by_cases hm : n.Pumped m
  · exact h.kept.subs m hm
  · have hnone : n.heard.find? (fun a => decide ((a.1, m) ∈ n.live)) = none := by
      rw [List.find?_eq_none]
      intro a _ ha
      exact hm ⟨a.1, of_decide_eq_true ha⟩
    rw [(h.absent m hm).2, Node.lastAdvertised, hnone, Option.map_none]

/-- A link starts: its channel takes the place of an older one, and nothing was heard on it yet. -/
theorem Tidy.establish (h : Tidy n) (member : String) : Tidy (n.establish member) := by
  have hlast : ∀ m, (n.establish member).lastAdvertised m = n.lastAdvertised m := by
    intro m
    refine lastAdvertised_congr rfl fun a ha => ?_
    have hne : a.1 ≠ n.nextLink := Nat.ne_of_lt (h.heard a ha)
    simp [Node.establish, hne]
  have hpumped : ∀ m, (n.establish member).Pumped m ↔ m = member ∨ n.Pumped m := by
    intro m
    simp only [Node.Pumped, Node.establish, List.mem_cons, Prod.mk.injEq]
    constructor
    · rintro ⟨l, ⟨-, hm⟩ | hl⟩
      · exact Or.inl hm
      · exact Or.inr ⟨l, hl⟩
    · rintro (hm | ⟨l, hl⟩)
      · exact ⟨n.nextLink, Or.inl ⟨rfl, hm⟩⟩
      · exact ⟨l, Or.inr hl⟩
  refine ⟨?_, ?_, ?_, ⟨?_, ?_⟩, ?_⟩
  · intro l hl
    rcases List.mem_cons.mp hl with rfl | hl
    · exact Nat.lt_succ_self _
    · exact Nat.lt_succ_of_lt (h.fresh l hl)
  · intro link m m' hm hm'
    simp only [Node.establish, List.mem_cons, Prod.mk.injEq] at hm hm'
    rcases hm with ⟨rfl, rfl⟩ | hm
    · rcases hm' with ⟨-, rfl⟩ | hm'
      · rfl
      · exact absurd (h.fresh _ hm') (Nat.lt_irrefl _)
    · rcases hm' with ⟨rfl, -⟩ | hm'
      · exact absurd (h.fresh _ hm) (Nat.lt_irrefl _)
      · exact h.unique link m m' hm hm'
  · exact fun a ha => Nat.lt_succ_of_lt (h.heard a ha)
  · intro m hm
    by_cases hmem : m = member
    · subst hmem
      exact ⟨_, AList.lookup_insert _, List.mem_cons_self⟩
    · obtain ⟨e, he, hlive⟩ := h.kept.channel m (((hpumped m).mp hm).resolve_left hmem)
      refine ⟨e, ?_, List.mem_cons_of_mem _ hlive⟩
      rw [← he]
      exact AList.lookup_insert_ne hmem
  · intro m hm
    rw [hlast]
    exact h.subs m
  · intro m hm
    rw [hpumped, not_or] at hm
    obtain ⟨hpeer, hsub⟩ := h.absent m hm.2
    refine ⟨?_, hsub⟩
    rw [← hpeer]
    exact AList.lookup_insert_ne hm.1

theorem mem_teardown (link : Nat) (member : String) (l : Nat × String) :
    l ∈ (n.teardown link member).live ↔ l ∈ n.live ∧ l.1 ≠ link := by
  simp [Node.teardown]

/-- A link ends that is the only one to its member: nothing of the member stays. -/
theorem Tidy.teardown (h : Tidy n) {link : Nat} {member : String} (hlive : (link, member) ∈ n.live)
    (hsole : ∀ other, (other, member) ∈ n.live → other = link) : Tidy (n.teardown link member) := by
  have hgone : ¬(n.teardown link member).Pumped member := by
    rintro ⟨l, hl⟩
    rw [mem_teardown] at hl
    exact hl.2 (hsole l hl.1)
  have hother : ∀ m, m ≠ member → ∀ l, (l, m) ∈ (n.teardown link member).live ↔ (l, m) ∈ n.live := by
    intro m hm l
    rw [mem_teardown]
    refine and_iff_left_of_imp fun hl heq => ?_
    rw [show l = link from heq] at hl
    exact hm (h.unique link m member hl hlive)
  refine ⟨?_, ?_, h.heard, ⟨?_, ?_⟩, ?_⟩
  · exact fun l hl => h.fresh l ((mem_teardown link member l).mp hl).1
  · exact fun l m m' hm hm' => h.unique l m m' ((mem_teardown link member _).mp hm).1 ((mem_teardown link member _).mp hm').1
  · intro m hm
    have hne : m ≠ member := fun heq => hgone (heq ▸ hm)
    obtain ⟨l, hl⟩ := hm
    obtain ⟨e, he, hlive'⟩ := h.kept.channel m ⟨l, (hother m hne l).mp hl⟩
    refine ⟨e, ?_, (hother m hne e.tx).mpr hlive'⟩
    rw [← he]
    exact AList.lookup_erase_ne hne
  · intro m hm
    have hne : m ≠ member := fun heq => hgone (heq ▸ hm)
    have hlast : (n.teardown link member).lastAdvertised m = n.lastAdvertised m :=
      lastAdvertised_congr rfl fun a _ => hother m hne a.1
    rw [hlast, ← h.subs m]
    exact AList.lookup_erase_ne hne
  · intro m hm
    by_cases hne : m = member
    · subst hne
      exact ⟨AList.lookup_erase _ _, AList.lookup_erase _ _⟩
    · have hm' : ¬n.Pumped m := fun ⟨l, hl⟩ => hm ⟨l, (hother m hne l).mpr hl⟩
      obtain ⟨hpeer, hsub⟩ := h.absent m hm'
      refine ⟨?_, ?_⟩
      · rw [← hpeer]
        exact AList.lookup_erase_ne hne
      · rw [← hsub]
        exact AList.lookup_erase_ne hne

/-- The member advertises its rooms on a running link. -/
theorem Tidy.subscriptions (h : Tidy n) {link : Nat} {member : String} (hlive : (link, member) ∈ n.live) (rooms : List String) :
    Tidy (n.handleMsg link member (.subscriptions rooms)) := by
  refine ⟨h.fresh, h.unique, ?_, ⟨h.kept.channel, ?_⟩, ?_⟩
  · intro a ha
    rcases List.mem_cons.mp ha with rfl | ha
    · exact h.fresh _ hlive
    · exact h.heard a ha
  · intro m hm
    unfold Node.lastAdvertised Node.handleMsg
    by_cases hne : m = member
    · subst hne
      simp [hlive]
    · have hnot : (link, m) ∉ n.live := fun hl => hne (h.unique link m member hl hlive)
      simp only [List.find?_cons, hnot, decide_false, AList.lookup_insert_ne hne]
      exact h.subs m
  · intro m hm
    have hne : m ≠ member := fun heq => hm ⟨link, heq ▸ hlive⟩
    obtain ⟨hpeer, hsub⟩ := h.absent m hm
    refine ⟨hpeer, ?_⟩
    rw [← hsub]
    exact AList.lookup_insert_ne hne

/-- The version of a member is noted beside its channel. -/
theorem Tidy.versionInfo (h : Tidy n) (link : Nat) (member version buildId sourceHash : String) :
    Tidy (n.handleMsg link member (.versionInfo version buildId sourceHash)) := by
  refine ⟨h.fresh, h.unique, h.heard, ⟨?_, h.kept.subs⟩, ?_⟩
  · intro m hm
    obtain ⟨e, he, hlive⟩ := h.kept.channel m hm
    by_cases hne : m = member
    · subst hne
      refine ⟨{ e with version := some version, sourceHash := some sourceHash }, ?_, hlive⟩
      simp only [Node.handleMsg, lookup_modify, if_true, he, Option.map_some]
    · refine ⟨e, ?_, hlive⟩
      simp only [Node.handleMsg, lookup_modify, if_neg hne, he]
  · intro m hm
    obtain ⟨hpeer, hsub⟩ := h.absent m hm
    refine ⟨?_, hsub⟩
    by_cases hne : m = member
    · subst hne
      simp only [Node.handleMsg, lookup_modify, if_true, hpeer, Option.map_none]
    · simp only [Node.handleMsg, lookup_modify, if_neg hne, hpeer]

theorem Tidy.handleMsg (h : Tidy n) {link : Nat} {member : String} (hlive : (link, member) ∈ n.live) (kind : ClusterMsgKind) :
    Tidy (n.handleMsg link member kind) := by
  cases kind with
  | subscriptions rooms => exact h.subscriptions hlive rooms
  | versionInfo version buildId sourceHash => exact h.versionInfo link member version buildId sourceHash
  | hello | replicate | roomRoster | peerAuth | peerAuthRoster | spaceRoot => exact h.congr rfl rfl rfl rfl

/-- **One step.** -/
theorem Tidy.step {E : Env} {act : LinkAct} (h : Tidy n) (hsole : SoleEnd n act) (hstep : linkStep E n act = some n') : Tidy n' := by
  cases act with
  | establish member =>
    rw [← Option.some.inj hstep]
    exact h.establish member
  | teardown link =>
    obtain ⟨member, hlook, rfl⟩ := Option.map_eq_some_iff.mp hstep
    exact h.teardown (mem_of_lookup hlook) (hsole link member rfl hlook)
  | frame link msg =>
    obtain ⟨member, hlook, rfl⟩ := Option.map_eq_some_iff.mp hstep
    unfold Node.readFrame
    split_ifs
    · exact h
    · exact h.handleMsg (mem_of_lookup hlook) msg.kind
  | replicate roomId messageId raw =>
    rw [← Option.some.inj hstep]
    unfold Node.replicate
    simp only
    split_ifs
    · exact h
    · exact h.congr rfl rfl rfl rfl
  | sendPicked targets kind =>
    simp only [linkStep] at hstep
    split_ifs at hstep
    rw [← Option.some.inj hstep]
    exact h.congr rfl rfl rfl rfl
  | broadcast kind =>
    rw [← Option.some.inj hstep]
    exact h.congr rfl rfl rfl rfl

/-- A link that ends alone is the one whose channel is registered. -/
theorem Tidy.spares {act : LinkAct} (h : Tidy n) (hsole : SoleEnd n act) : Spares n n' act := by
  intro link member hact hlook e he hne
  obtain ⟨e', he', hlive⟩ := h.kept.channel member ⟨link, mem_of_lookup hlook⟩
  rw [he] at he'
  obtain rfl := Option.some.inj he'
  exact absurd (hsole link member hact hlook e.tx hlive) hne

/-- The end of a link beside another one leaves that other one without a channel. -/
theorem soleEnd_of_survives {E : Env} {act : LinkAct} (h : Survives E n act) : SoleEnd n act := by
  rintro link member rfl hlook other hother
  by_contra hne
  have hstep : linkStep E n (.teardown link) = some (n.teardown link member) := by
    simp only [linkStep, hlook, Option.map_some]
  obtain ⟨hkept, -⟩ := h _ hstep
  obtain ⟨e, he, -⟩ := hkept.channel member ⟨other, (mem_teardown link member _).mpr ⟨hother, hne⟩⟩
  have hnone : (n.teardown link member).state.peers.lookup member = none := AList.lookup_erase _ _
  rw [hnone] at he
  cases he

end ClusterLinksAux

open ClusterLinksAux

/-- **The table of a node's links.** Along a run every state serves the running links and every end spares the others exactly when
each link that ends is the only one to its member. -/
theorem survives_iff_soleEnd (E : Env) (acts : List LinkAct) :
    Meets (linkStep E) (Survives E) Node.new acts ↔ Meets (linkStep E) SoleEnd Node.new acts := by
  constructor
  · exact meets_mono (fun _ => True) (fun _ _ _ _ _ _ => trivial) (fun _ _ _ h => soleEnd_of_survives h) trivial
  · exact meets_mono Tidy (fun _ _ _ h hsole hstep => h.step hsole hstep)
      (fun _ _ h hsole n' hstep => ⟨(h.step hsole hstep).kept, h.spares hsole⟩) tidy_new

/-- A member opens a second link, and then the task of the first one ends. -/
theorem survives_fails_reconnect :
    ¬Meets (linkStep { verify := fun _ => true, isPeerMember := fun _ => true })
      (Survives { verify := fun _ => true, isPeerMember := fun _ => true }) Node.new
      [.establish "m", .establish "m", .teardown 0] := by
  rintro ⟨-, h⟩
  obtain ⟨-, h⟩ := h _ rfl
  obtain ⟨h, -⟩ := h _ rfl
  have hsole := soleEnd_of_survives h 0 "m" rfl rfl 1 List.mem_cons_self
  exact absurd hsole (by decide)

end DoubleSlash.Cluster
