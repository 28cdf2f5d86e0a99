import DoubleSlash.Lemmas.SpaceMerge
import DoubleSlash.Lib.Run
import DoubleSlash.Store.OwnSync

/-!
# Copies of a Space settle

Two devices that merge each other's copy of a Space end with one tree, and answer each other once at most.
-/

namespace DoubleSlash.Store

open Assoc Keyed Run Spaces Versioned

/-- One set of nodes at one epoch. -/
def SameTree (s t : Space) : Prop := s.epoch = t.epoch ∧ sortedNodes s = sortedNodes t

/-- The ids of a Space's nodes. -/
def nodeIds (space : Space) : List String := space.nodes.map SpaceNode.nodeId

/-- A device merges one Space of a snapshot. -/
def RoomStore.receiveSpace {D : Type} (s : RoomStore) (device : OwnDevice D) (incoming : Space) : RoomStore × OwnRoomMerge :=
  RoomStore.mergeOwnSpace device (s, .default) incoming

/-- The host of a Space is a supernode that the device knows. -/
def KnowsHost {D : Type} (device : OwnDevice D) (space : Space) : Prop :=
  ∀ server, space.server? = some server → device.resolveHost server.name ≠ none

/-- The device ends with the tree it was sent, signs nothing and has nothing to answer. -/
def TakenAsItIs {D : Type} (device : OwnDevice D) (s : RoomStore) (tree : Space) : Prop :=
  ∃ t, (s.receiveSpace device tree).1.spaces.lookup tree.spaceId = some t ∧ SameTree t tree ∧
    (s.receiveSpace device tree).2.roots = [] ∧ (s.receiveSpace device tree).2.siblingBehind = false

/-- The same copy again changes nothing. -/
def ChangesNothing {D : Type} (device : OwnDevice D) (s : RoomStore) (tree : Space) : Prop :=
  (s.receiveSpace device tree).1 = s ∧ (s.receiveSpace device tree).2.changed = false ∧ (s.receiveSpace device tree).2.roots = []

/-- Each of two devices merges the other's copy. -/
structure MergesAgree {D : Type} (device : Bool → OwnDevice D) (store : Bool → RoomStore) (tree : Bool → Space) (spaceId : String) : Prop where
  /-- Both end with one tree, which has the nodes of both. -/
  merged : ∃ t : Bool → Space,
    (∀ side, ((store side).receiveSpace (device side) (tree !side)).1.spaces.lookup spaceId = some (t side)) ∧
    SameTree (t true) (t false) ∧
    (∀ side nodeId, nodeId ∈ nodeIds (t side) ↔ nodeId ∈ nodeIds (tree true) ∨ nodeId ∈ nodeIds (tree false)) ∧
    ∀ side side', TakenAsItIs (device side) (store side) (t side')
  again : ∀ side, ChangesNothing (device side) ((store side).receiveSpace (device side) (tree !side)).1 (tree !side)

/-! ## Two devices that answer each other -/

/-- The stores of two devices, the trees on their way to each, with a mark on those that answer one, and how often each answered. -/
structure Exchange where
  store : Bool → RoomStore
  inbox : Bool → List (Space × Bool)
  answers : Bool → Nat

/-- A device takes one of the trees on its way to it, in any order, and answers with its own while the sender is behind. -/
def Exchange.deliver {D : Type} (device : Bool → OwnDevice D) (x : Exchange) (act : Bool × Nat) : Option Exchange :=
  match (x.inbox act.1)[act.2]? with
  | none => none
  | some (tree, _) =>
    let (s, out) := (x.store act.1).receiveSpace (device act.1) tree
    let inbox := Function.update x.inbox act.1 ((x.inbox act.1).eraseIdx act.2)
    match s.spaces.lookup tree.spaceId with
    | some ours =>
      if out.siblingBehind then
        some {
          store := Function.update x.store act.1 s
          inbox := Function.update inbox (!act.1) (inbox (!act.1) ++ [(ours, true)])
          answers := Function.update x.answers act.1 (x.answers act.1 + 1) }
      else some { x with store := Function.update x.store act.1 s, inbox := inbox }
    | none => some { x with store := Function.update x.store act.1 s, inbox := inbox }

/-- Each device has a copy; one of them or both have sent it to the other. -/
structure Exchange.Starts (x : Exchange) (tree : Bool → Space) : Prop where
  holds : ∀ side, (x.store side).spaces.lookup (tree side).spaceId = some (tree side)
  sent : ∀ side, x.inbox side = [] ∨ x.inbox side = [(tree (!side), false)]
  someone : ∃ side, x.inbox side ≠ []
  unanswered : ∀ side, x.answers side = 0

/-- No device answered twice, and when nothing is on its way any more both hold one tree. -/
structure Exchange.Settled (x : Exchange) (spaceId : String) : Prop where
  answers_le : ∀ side, x.answers side ≤ 1
  same : (∀ side, x.inbox side = []) → ∃ t t', (x.store true).spaces.lookup spaceId = some t ∧
    (x.store false).spaces.lookup spaceId = some t' ∧ SameTree t t'

namespace SpaceSettlingAux

section

variable {D : Type} {H : Hashing D}

/-! ### Owned Spaces -/

/-- What `space_is_owned_by` checks. -/
structure Owned (H : Hashing D) (owner : String) (space : Space) (server : SpaceNode) : Prop where
  identity : sameIdentity space.ownerPub owner = true
  server_eq : space.server? = some server
  kind : server.kind = "server"
  root : server.parentId = ""
  id_eq : space.spaceId = deriveNodeId H "" space.ownerPub server.name
  distinct : space.Distinct
  nodes : ∀ node ∈ space.nodes, node.nodeId ≠ "" ∧ sameIdentity node.ownerPub owner = true ∧
    (node.nodeId = space.spaceId ∨ node.parentId ≠ "")

theorem owned_of {owner : String} {space : Space} (h : spaceIsOwnedBy H space owner = true) : ∃ server, Owned H owner space server := by
  unfold spaceIsOwnedBy at h
  rw [Bool.and_eq_true] at h
  obtain ⟨hidentity, h⟩ := h
  cases hserver : space.server? with
  | none =>
    rw [hserver] at h
    exact absurd h (by simp)
  | some server =>
    rw [hserver] at h
    dsimp only at h
    split at h
    · exact absurd h (by simp)
    · rename_i hnot
      simp only [not_or, not_not] at hnot
      simp only [Bool.and_eq_true, decide_eq_true_eq, List.all_eq_true, Bool.or_eq_true] at h
      exact ⟨server, hidentity, hserver, hnot.1, hnot.2.1, hnot.2.2, h.1, fun node hnode => ⟨(h.2 node hnode).1.1, (h.2 node hnode).1.2,
        (h.2 node hnode).2⟩⟩

theorem Owned.check {owner : String} {space : Space} {server : SpaceNode} (h : Owned H owner space server) :
    spaceIsOwnedBy H space owner = true := by
  have hnot : ¬ (server.kind ≠ "server" ∨ server.parentId ≠ "" ∨ space.spaceId ≠ deriveNodeId H "" space.ownerPub server.name) := by
    rintro (hkind | hroot | hid)
    · exact hkind h.kind
    · exact hroot h.root
    · exact hid h.id_eq
  unfold spaceIsOwnedBy
  rw [h.identity, h.server_eq, Bool.true_and]
  dsimp only
  rw [if_neg hnot]
  simp only [Bool.and_eq_true, decide_eq_true_eq, List.all_eq_true, Bool.or_eq_true]
  exact ⟨h.distinct, fun node hnode => ⟨⟨(h.nodes node hnode).1, (h.nodes node hnode).2.1⟩, (h.nodes node hnode).2.2⟩⟩

/-! ### One merge -/

variable {device : OwnDevice D} {s : RoomStore} {ours incoming : Space}

/-- What a merge of one Space does to the store and to the answer. -/
theorem receiveSpace_eq {server : SpaceNode} (hi : Owned device.hashing device.ownerPub incoming server) (hknows : KnowsHost device incoming)
    (hours : s.spaces.lookup incoming.spaceId = some ours) {m : SpaceMerge}
    (hm : mergeSpace device.hashing (some ours) incoming = m) :
    ∃ s', s.receiveSpace device incoming = s' ∧
      (m = .unchanged → s'.1 = s ∧ s'.2.changed = false ∧ s'.2.roots = [] ∧
        (s'.2.siblingBehind = true ↔ ¬ SameTree ours incoming)) ∧
      (m = .adopt incoming → s'.1.spaces.lookup incoming.spaceId = some incoming ∧ s'.2.roots = [] ∧ s'.2.siblingBehind = false) ∧
      (∀ space, m = .resign space → space.spaceId = incoming.spaceId →
        s'.1.spaces.lookup incoming.spaceId = some space ∧ (s'.2.siblingBehind = true ↔ ¬ SameTree space incoming)) := by
  have hbehind (t : Space) : (decide (t.epoch ≠ incoming.epoch) || decide (sortedNodes t ≠ sortedNodes incoming)) = true ↔
      ¬ SameTree t incoming := by
    unfold SameTree
    simp only [Bool.or_eq_true, decide_eq_true_eq]
    tauto
  refine ⟨_, rfl, ?_⟩
  unfold RoomStore.receiveSpace RoomStore.mergeOwnSpace
  dsimp only
  rw [hi.check, if_neg (by decide), hi.server_eq]
  dsimp only
  rw [if_neg (hknows server hi.server_eq), hours, hm]
  refine ⟨?_, ?_, ?_⟩
  · rintro rfl
    refine ⟨rfl, rfl, rfl, ?_⟩
    simp only [Option.elim_none, hours, Option.any_some, OwnRoomMerge.default, Bool.false_or]
    exact hbehind ours
  · rintro rfl
    simp only [Option.elim_some, AList.lookup_insert, Option.any_some, OwnRoomMerge.default, Bool.false_or, true_and]
    rw [Bool.eq_false_iff, Ne, hbehind]
    exact not_not.mpr ⟨rfl, rfl⟩
  · rintro space rfl hid
    rw [← hid]
    simp only [Option.elim_some, AList.lookup_insert, Option.any_some, OwnRoomMerge.default, Bool.false_or, true_and]
    exact hbehind space

/-! ### Copies that two devices hold -/

/-- A Space of one id, owner and server, and the copy it is. -/
structure Fits (H : Hashing D) (owner id ownerPub : String) (servers : List SpaceNode) (c : Copy String SpaceNode) (space : Space) :
    Prop where
  id_eq : space.spaceId = id
  owner_eq : space.ownerPub = ownerPub
  server : ∃ server ∈ servers, Owned H owner space server
  copy_eq : space.copy = c

theorem Fits.distinct {owner id ownerPub : String} {servers : List SpaceNode} {c : Copy String SpaceNode} {space : Space}
    (h : Fits H owner id ownerPub servers c space) : space.Distinct :=
  let ⟨_, _, hserver⟩ := h.server
  hserver.distinct

theorem Fits.sameTree_iff {owner id ownerPub : String} {servers : List SpaceNode} {c c' : Copy String SpaceNode} {space space' : Space}
    (h : Fits H owner id ownerPub servers c space) (h' : Fits H owner id ownerPub servers c' space') : SameTree space space' ↔ c = c' := by
  unfold SameTree
  rw [← copy_eq_iff h.distinct h'.distinct, h.copy_eq, h'.copy_eq]

/-- A Space whose nodes are those of two owned ones is owned. -/
theorem fits_of_nodes {owner id ownerPub : String} {servers : List SpaceNode} {c c' : Copy String SpaceNode} {space space' t : Space}
    (h : Fits H owner id ownerPub servers c space) (h' : Fits H owner id ownerPub servers c' space') (hid : t.spaceId = id)
    (howner : t.ownerPub = ownerPub) (hdistinct : t.Distinct) (hsome : (t.copy.value id).isSome)
    (hnodes : ∀ k, t.copy.value k = space.copy.value k ∨ t.copy.value k = space'.copy.value k) :
    Fits H owner id ownerPub servers t.copy t := by
  obtain ⟨server, hserver⟩ := Option.isSome_iff_exists.mp hsome
  obtain ⟨server₁, hmem₁, h₁⟩ := h.server
  obtain ⟨server₂, hmem₂, h₂⟩ := h'.server
  have hat (x : Space) (hx : x.spaceId = id) : x.server? = x.copy.value id := by
    rw [← hx]
    rfl
  have hone : server = server₁ ∨ server = server₂ := by
    rcases hnodes id with heq | heq
    · have hsame : some server = some server₁ := by rw [← hserver, heq, ← hat space h.id_eq, h₁.server_eq]
      exact Or.inl (Option.some.inj hsame)
    · have hsame : some server = some server₂ := by rw [← hserver, heq, ← hat space' h'.id_eq, h₂.server_eq]
      exact Or.inr (Option.some.inj hsame)
  have hfrom (node : SpaceNode) (hnode : node ∈ t.nodes) : node ∈ space.nodes ∨ node ∈ space'.nodes := by
    have hself : t.copy.value node.nodeId = some node := at?_of_mem hdistinct hnode
    rcases hnodes node.nodeId with heq | heq
    · exact Or.inl (mem_of_at? (heq.symm.trans hself))
    · exact Or.inr (mem_of_at? (heq.symm.trans hself))
  have howned : Owned H owner t server := by
    have hid₁ := h.id_eq
    have hid₂ := h'.id_eq
    have howner₁ := h.owner_eq
    have howner₂ := h'.owner_eq
    refine ⟨?_, ?_, ?_, ?_, ?_, hdistinct, ?_⟩
    · rw [howner, ← howner₁]
      exact h₁.identity
    · rw [hat t hid, hserver]
    · rcases hone with rfl | rfl
      · exact h₁.kind
      · exact h₂.kind
    · rcases hone with rfl | rfl
      · exact h₁.root
      · exact h₂.root
    · rcases hone with rfl | rfl
      · rw [hid, howner, ← hid₁, ← howner₁]
        exact h₁.id_eq
      · rw [hid, howner, ← hid₂, ← howner₂]
        exact h₂.id_eq
    · intro node hnode
      rcases hfrom node hnode with hmem | hmem
      · rw [hid, ← hid₁]
        exact h₁.nodes node hmem
      · rw [hid, ← hid₂]
        exact h₂.nodes node hmem
  refine ⟨hid, howner, ⟨server, ?_, howned⟩, rfl⟩
  rcases hone with rfl | rfl
  · exact hmem₁
  · exact hmem₂

/-- The devices of one identity, which know the hosts of some servers. -/
structure Knows (H : Hashing D) (owner : String) (servers : List SpaceNode) (device : OwnDevice D) : Prop where
  hashing : device.hashing = H
  owner : device.ownerPub = owner
  hosts : ∀ server ∈ servers, device.resolveHost server.name ≠ none

theorem Fits.owned {owner id ownerPub : String} {servers : List SpaceNode} {c : Copy String SpaceNode}
    (h : Fits H owner id ownerPub servers c incoming) (hknows : Knows H owner servers device) :
    (∃ server, Owned device.hashing device.ownerPub incoming server) ∧ KnowsHost device incoming := by
  obtain ⟨server, hmem, hserver⟩ := h.server
  rw [hknows.hashing, hknows.owner]
  refine ⟨⟨server, hserver⟩, fun server' heq => ?_⟩
  rw [hserver.server_eq, Option.some.injEq] at heq
  rw [← heq]
  exact hknows.hosts server hmem

section

variable {owner id ownerPub : String} {servers : List SpaceNode} {c c' : Copy String SpaceNode}

/-- A copy whose join with ours is the copy: the device ends with it, signs nothing and the sender is not behind. -/
theorem receive_taken (hknows : Knows H owner servers device) (hours : s.spaces.lookup id = some ours)
    (ho : Fits H owner id ownerPub servers c ours) (hi : Fits H owner id ownerPub servers c' incoming)
    (hjoin : join (SpaceNode.rank H) c c' = c') :
    ∃ t, (s.receiveSpace device incoming).1.spaces.lookup id = some t ∧ Fits H owner id ownerPub servers c' t ∧
      (s.receiveSpace device incoming).2.roots = [] ∧ (s.receiveSpace device incoming).2.siblingBehind = false := by
  obtain ⟨⟨server, howned⟩, hhost⟩ := hi.owned hknows
  have hid := hi.id_eq
  rw [← hid] at hours
  obtain ⟨s', heq, hunchanged, hadopt, _⟩ := receiveSpace_eq howned hhost hours rfl
  rw [hknows.hashing] at hunchanged hadopt
  rw [← ho.copy_eq, ← hi.copy_eq] at hjoin
  rw [heq]
  rcases mergeSpace_of_join_eq_incoming H ho.distinct hi.distinct hjoin with hm | ⟨hm, hsame⟩
  · obtain ⟨hlookup, hroots, hbehind⟩ := hadopt hm
    rw [hid] at hlookup
    exact ⟨incoming, hlookup, hi, hroots, hbehind⟩
  · obtain ⟨hstore, _, hroots, hbehind⟩ := hunchanged hm
    have hcopy : c = c' := ho.copy_eq.symm.trans (hsame.trans hi.copy_eq)
    rw [hid] at hours
    refine ⟨ours, ?_, hcopy ▸ ho, hroots, ?_⟩
    · rw [hstore]
      exact hours
    · rw [Bool.eq_false_iff, Ne, hbehind]
      exact not_not.mpr ((ho.sameTree_iff hi).mpr hcopy)

/-- A copy whose join with ours is ours changes nothing. -/
theorem receive_again (hknows : Knows H owner servers device) (hours : s.spaces.lookup id = some ours)
    (ho : Fits H owner id ownerPub servers c ours) (hi : Fits H owner id ownerPub servers c' incoming)
    (hjoin : join (SpaceNode.rank H) c c' = c) :
    ChangesNothing device s incoming ∧ ((s.receiveSpace device incoming).2.siblingBehind = true ↔ c ≠ c') := by
  obtain ⟨⟨server, howned⟩, hhost⟩ := hi.owned hknows
  rw [← hi.id_eq] at hours
  obtain ⟨s', heq, hunchanged, _, _⟩ := receiveSpace_eq howned hhost hours rfl
  rw [hknows.hashing] at hunchanged
  rw [← ho.copy_eq, ← hi.copy_eq] at hjoin
  obtain ⟨hstore, hchanged, hroots, hbehind⟩ := hunchanged (mergeSpace_of_join_eq_ours H ho.distinct hi.distinct hjoin)
  unfold ChangesNothing
  rw [heq]
  exact ⟨⟨hstore, hchanged, hroots⟩, hbehind.trans (not_congr (ho.sameTree_iff hi))⟩

/-- Two copies are joined. -/
theorem receive_joined (hknows : Knows H owner servers device) (hours : s.spaces.lookup id = some ours)
    (ho : Fits H owner id ownerPub servers c ours) (hi : Fits H owner id ownerPub servers c' incoming)
    (hversion : c.version + 1 < 2 ^ 64) (hversion' : c'.version + 1 < 2 ^ 64) :
    ∃ t, (s.receiveSpace device incoming).1.spaces.lookup id = some t ∧
      Fits H owner id ownerPub servers (join (SpaceNode.rank H) c c') t ∧
      ((s.receiveSpace device incoming).2.siblingBehind = true ↔ join (SpaceNode.rank H) c c' ≠ c') := by
  by_cases h₁ : HeldBySecond (SpaceNode.rank H) c c'
  · have hjoin := join_of_heldBySecond h₁
    obtain ⟨t, hlookup, hfits, _, hbehind⟩ := receive_taken hknows hours ho hi hjoin
    rw [hjoin]
    refine ⟨t, hlookup, hfits, ?_⟩
    rw [hbehind]
    simp
  · by_cases h₂ : HeldByFirst (SpaceNode.rank H) c c'
    · have hjoin := join_of_heldByFirst h₂
      obtain ⟨⟨hstore, _⟩, hbehind⟩ := receive_again hknows hours ho hi hjoin
      rw [hjoin]
      refine ⟨ours, ?_, ho, hbehind⟩
      rw [hstore]
      exact hours
    · obtain ⟨⟨server, howned⟩, hhost⟩ := hi.owned hknows
      have hid := hi.id_eq
      have hlookup := hours
      rw [← hid] at hlookup
      obtain ⟨s', heq, _, _, hresign⟩ := receiveSpace_eq howned hhost hlookup rfl
      rw [hknows.hashing] at hresign
      rw [heq]
      have hc := ho.copy_eq
      have hc' := hi.copy_eq
      rw [← hc, ← hc'] at h₁ h₂
      rcases mergeSpace_cases H ho.distinct hi.distinct with ⟨hheld, _⟩ | ⟨hheld, _⟩ | ⟨_, _, nodes, hm, hnodes, hat⟩
      · exact absurd hheld h₁
      · exact absurd hheld h₂
      · have hepoch : nextEpoch (max ours.epoch incoming.epoch) = max ours.epoch incoming.epoch + 1 := by
          refine nextEpoch_eq ?_
          have hv : ours.epoch = c.version := congrArg Copy.version hc
          have hv' : incoming.epoch = c'.version := congrArg Copy.version hc'
          rw [hv, hv', ← max_add_add_right]
          exact max_lt hversion hversion'
        obtain ⟨hfound, hbehind⟩ := hresign _ hm (ho.id_eq.trans hid.symm)
        rw [hid, hepoch] at hfound
        rw [hepoch] at hbehind
        rw [← hc, ← hc', join_of_not h₁ h₂]
        have hcopy : (Space.mk ours.spaceId ours.ownerPub (max ours.epoch incoming.epoch + 1) nodes).copy =
            Copy.mk (max ours.copy.version incoming.copy.version + 1) (joined (SpaceNode.rank H) ours.copy incoming.copy) :=
          Copy.ext rfl hat
        have hsome : (joined (SpaceNode.rank H) ours.copy incoming.copy id).isSome := by
          obtain ⟨server', _, howned'⟩ := ho.server
          have hserver : ours.copy.value id = some server' := by
            rw [← ho.id_eq]
            exact howned'.server_eq
          unfold joined
          rw [isSome_joinValue, hserver]
          rfl
        rw [← hcopy]
        have hfits := fits_of_nodes (t := Space.mk ours.spaceId ours.ownerPub (max ours.epoch incoming.epoch + 1) nodes) ho hi ho.id_eq
          ho.owner_eq hnodes (hcopy.symm ▸ hsome) fun k => hcopy.symm ▸ joinValue_mem (ours.copy.value k) (incoming.copy.value k)
        refine ⟨_, hfound, hfits, hbehind.trans (not_congr ?_)⟩
        rw [hfits.sameTree_iff hi, hc']

/-! ### The exchange -/

/-- Two copies and their join, which either takes and keeps. -/
structure Joins (H : Hashing D) (c : Bool → Copy String SpaceNode) (j : Copy String SpaceNode) : Prop where
  joins : ∀ side, join (SpaceNode.rank H) (c side) (c !side) = j
  takes : ∀ side, join (SpaceNode.rank H) (c side) j = j
  keeps : ∀ side, join (SpaceNode.rank H) j (c side) = j
  version : ∀ side, (c side).version + 1 < 2 ^ 64

variable {sides : Bool → Copy String SpaceNode} {j : Copy String SpaceNode} {devices : Bool → OwnDevice D}

/-- Whatever a device holds and is sent, it ends with the join, and the sender is behind unless it sent the join. -/
theorem receive_settles (hknows : Knows H owner servers device) (hj : Joins H sides j) (side : Bool)
    (hours : s.spaces.lookup id = some ours)
    (ho : Fits H owner id ownerPub servers (sides side) ours ∨ Fits H owner id ownerPub servers j ours)
    (hi : Fits H owner id ownerPub servers (sides !side) incoming ∨ Fits H owner id ownerPub servers j incoming) :
    ∃ t, (s.receiveSpace device incoming).1.spaces.lookup id = some t ∧ Fits H owner id ownerPub servers j t ∧
      ((s.receiveSpace device incoming).2.siblingBehind = true ↔ incoming.copy ≠ j) := by
  rcases hi with hi | hi
  · rw [hi.copy_eq]
    rcases ho with ho | ho
    · obtain ⟨t, hlookup, hfits, hbehind⟩ := receive_joined hknows hours ho hi (hj.version side) (hj.version !side)
      rw [hj.joins side] at hfits hbehind
      exact ⟨t, hlookup, hfits, hbehind.trans ne_comm⟩
    · obtain ⟨⟨hstore, _⟩, hbehind⟩ := receive_again hknows hours ho hi (hj.keeps !side)
      refine ⟨ours, ?_, ho, hbehind.trans ne_comm⟩
      rw [hstore]
      exact hours
  · have hjoin : ∃ c, Fits H owner id ownerPub servers c ours ∧ join (SpaceNode.rank H) c j = j := by
      rcases ho with ho | ho
      · exact ⟨_, ho, hj.takes side⟩
      · exact ⟨_, ho, join_self j⟩
    obtain ⟨c, ho, hjoin⟩ := hjoin
    obtain ⟨t, hlookup, hfits, _, hbehind⟩ := receive_taken hknows hours ho hi hjoin
    refine ⟨t, hlookup, hfits, ?_⟩
    rw [hbehind, hi.copy_eq]
    simp

/-- What holds along an exchange. -/
structure Exchanging (H : Hashing D) (owner id ownerPub : String) (servers : List SpaceNode) (sides : Bool → Copy String SpaceNode)
    (j : Copy String SpaceNode) (x : Exchange) : Prop where
  stored : ∀ side, ∃ t, (x.store side).spaces.lookup id = some t ∧
    (Fits H owner id ownerPub servers (sides side) t ∨ Fits H owner id ownerPub servers j t)
  inbox : ∀ side, ∀ m ∈ x.inbox side, (m.2 = false ∧ Fits H owner id ownerPub servers (sides !side) m.1) ∨
    (m.2 = true ∧ Fits H owner id ownerPub servers j m.1)
  answers : ∀ side, (x.inbox side).countP (fun m => !m.2) + x.answers side ≤ 1
  /-- A device holds the join, or something is on its way that will make it do so. -/
  progress : ∀ side, (∃ t, (x.store side).spaces.lookup id = some t ∧ Fits H owner id ownerPub servers j t) ∨ x.inbox side ≠ [] ∨
    ∃ m ∈ x.inbox (!side), m.2 = false

theorem exchanging_deliver (hknows : ∀ side, Knows H owner servers (devices side)) (hj : Joins H sides j) {x x' : Exchange}
    (hx : Exchanging H owner id ownerPub servers sides j x) {act : Bool × Nat} (hstep : x.deliver devices act = some x') :
    Exchanging H owner id ownerPub servers sides j x' := by
  obtain ⟨side, i⟩ := act
  unfold Exchange.deliver at hstep
  dsimp only at hstep
  cases hm : (x.inbox side)[i]? with
  | none =>
    rw [hm] at hstep
    exact absurd hstep (by simp)
  | some m =>
    obtain ⟨tree, isAnswer⟩ := m
    rw [hm] at hstep
    dsimp only at hstep
    obtain ⟨hi, hget⟩ := List.getElem?_eq_some_iff.mp hm
    have hperm : ((x.inbox side)[i] :: (x.inbox side).eraseIdx i).Perm (x.inbox side) := List.getElem_cons_eraseIdx_perm hi
    rw [hget] at hperm
    have hmem : (tree, isAnswer) ∈ x.inbox side := hperm.mem_iff.mp List.mem_cons_self
    have hfits := hx.inbox side _ hmem
    obtain ⟨ours, hours, hstored⟩ := hx.stored side
    have hincoming : Fits H owner id ownerPub servers (sides !side) tree ∨ Fits H owner id ownerPub servers j tree :=
      hfits.imp And.right And.right
    obtain ⟨t, hlookup, htree, hbehind⟩ := receive_settles (hknows side) hj side hours hstored hincoming
    have hid : tree.spaceId = id := hincoming.elim Fits.id_eq Fits.id_eq
    rw [hid, hlookup] at hstep
    dsimp only at hstep
    -- What is left on its way to the device, and who still waits.
    have hleft (m : Space × Bool) (h : m ∈ (x.inbox side).eraseIdx i) : m ∈ x.inbox side := List.mem_of_mem_eraseIdx h
    have hcount : ((x.inbox side).eraseIdx i).countP (fun m => !m.2) + (if isAnswer then 0 else 1) =
        (x.inbox side).countP fun m => !m.2 := by
      rw [← hperm.countP_eq, List.countP_cons]
      cases isAnswer <;> rfl
    have hother : (!side) ≠ side := Bool.not_ne_self side
    by_cases hb : ((x.store side).receiveSpace (devices side) tree).2.siblingBehind = true
    · -- The sender is behind: the tree was no answer, and one goes back.
      have hfirst : isAnswer = false := by
        rcases hfits with ⟨h, _⟩ | ⟨_, h⟩
        · exact h
        · exact absurd h.copy_eq (hbehind.mp hb)
      rw [if_pos hb, Option.some.injEq] at hstep
      subst hstep
      have hans := hx.answers side
      have hans' := hx.answers (!side)
      rw [hfirst, if_neg (by decide)] at hcount
      refine ⟨fun side' => ?_, fun side' m hmem' => ?_, fun side' => ?_, fun side' => ?_⟩
      · by_cases hside : side' = side
        · rw [hside]
          dsimp only
          rw [Function.update_self]
          exact ⟨t, hlookup, Or.inr htree⟩
        · dsimp only
          rw [Function.update_of_ne hside]
          exact hx.stored side'
      · dsimp only at hmem'
        by_cases hside : side' = side
        · rw [hside, Function.update_of_ne hother.symm, Function.update_self] at hmem'
          rw [hside]
          exact hx.inbox side m (hleft m hmem')
        · have hside' : side' = !side := Bool.eq_not.mpr hside
          rw [hside', Function.update_self, Function.update_of_ne hother, List.mem_append, List.mem_singleton] at hmem'
          rw [hside']
          rcases hmem' with hmem' | rfl
          · exact hx.inbox (!side) m hmem'
          · exact Or.inr ⟨rfl, htree⟩
      · dsimp only
        by_cases hside : side' = side
        · rw [hside, Function.update_of_ne hother.symm, Function.update_self, Function.update_self]
          omega
        · have hside' : side' = !side := Bool.eq_not.mpr hside
          rw [hside', Function.update_self, Function.update_of_ne hother, Function.update_of_ne hother, List.countP_append]
          simpa using hans'
      · dsimp only
        by_cases hside : side' = side
        · rw [hside, Function.update_self]
          exact Or.inl ⟨t, hlookup, htree⟩
        · have hside' : side' = !side := Bool.eq_not.mpr hside
          rw [hside', Function.update_self]
          exact Or.inr (Or.inl (by simp))
    · -- The sender has the join.
      have hjoin : tree.copy = j := not_not.mp (fun h => hb (hbehind.mpr h))
      rw [if_neg hb, Option.some.injEq] at hstep
      subst hstep
      have hans := hx.answers side
      refine ⟨fun side' => ?_, fun side' m hmem' => ?_, fun side' => ?_, fun side' => ?_⟩
      · dsimp only
        by_cases hside : side' = side
        · rw [hside, Function.update_self]
          exact ⟨t, hlookup, Or.inr htree⟩
        · rw [Function.update_of_ne hside]
          exact hx.stored side'
      · dsimp only at hmem'
        by_cases hside : side' = side
        · rw [hside, Function.update_self] at hmem'
          rw [hside]
          exact hx.inbox side m (hleft m hmem')
        · rw [Function.update_of_ne hside] at hmem'
          exact hx.inbox side' m hmem'
      · dsimp only
        by_cases hside : side' = side
        · rw [hside, Function.update_self]
          omega
        · rw [Function.update_of_ne hside]
          exact hx.answers side'
      · dsimp only
        by_cases hside : side' = side
        · rw [hside, Function.update_self]
          exact Or.inl ⟨t, hlookup, htree⟩
        · have hside' : side' = !side := Bool.eq_not.mpr hside
          rw [hside', Function.update_of_ne hother, Function.update_of_ne hother, Bool.not_not, Function.update_self]
          rcases hx.progress (!side) with hdone | hwaits | ⟨m, hmem', hfalse⟩
          · exact Or.inl hdone
          · exact Or.inr (Or.inl hwaits)
          · rw [Bool.not_not] at hmem'
            rcases List.mem_cons.mp (hperm.mem_iff.mpr hmem') with rfl | hkept
            · -- The sender's own tree was the join, and it has not lost it.
              left
              obtain ⟨_, hsender⟩ := hfits.resolve_right fun h => absurd (hfalse.symm.trans h.1) (by decide)
              have hsame : sides (!side) = j := hsender.copy_eq.symm.trans hjoin
              obtain ⟨u, hu, hstored'⟩ := hx.stored (!side)
              rw [hsame, or_self] at hstored'
              exact ⟨u, hu, hstored'⟩
            · exact Or.inr (Or.inr ⟨m, hkept, hfalse⟩)

end

/-- The ids of what two copies join to are those of the copies. -/
theorem mem_nodeIds_iff {space : Space} {nodeId : String} : nodeId ∈ nodeIds space ↔ (space.copy.value nodeId).isSome :=
  at?_isSome_iff.symm

theorem rank_injective {x y : SpaceNode} (h : x.rank H = y.rank H) : x.leafHash H = y.leafHash H := by
  have hbytes : H.bytes (x.leafHash H) = H.bytes (y.leafHash H) := List.map_injective_iff.mpr (fun _ _ => UInt8.toNat_inj.mp) h
  have hof := congrArg H.ofBytes hbytes
  rw [H.ofBytes_bytes, H.ofBytes_bytes, Option.some.injEq] at hof
  exact hof

end

end SpaceSettlingAux

open SpaceSettlingAux

/-- **Copies of a Space settle.** Two devices of one identity that merge each other's copy of a Space end with one tree, which has the
nodes of both; either takes that tree as it is, and the same copy again changes nothing. Devices that answer each other while the
sender is behind answer once at most and end with one tree. -/
theorem copies_settle {D : Type} (H : Hashing D) (owner spaceId : String) (device : Bool → OwnDevice D) (store : Bool → RoomStore)
    (tree : Bool → Space) (hhashing : ∀ side, (device side).hashing = H) (howner : ∀ side, (device side).ownerPub = owner)
    (howned : ∀ side, spaceIsOwnedBy H (tree side) owner = true) (hid : ∀ side, (tree side).spaceId = spaceId)
    (hstore : ∀ side, (store side).spaces.lookup spaceId = some (tree side)) (hepoch : ∀ side, (tree side).epoch < 2 ^ 64 - 1)
    (hhosts : ∀ side side', KnowsHost (device side) (tree side'))
    (hleaf : ∀ x ∈ (tree true).nodes, ∀ y ∈ (tree false).nodes, x.leafHash H = y.leafHash H → x = y)
    (hderive : ∀ x ∈ (tree true).nodes, ∀ y ∈ (tree false).nodes,
      deriveNodeId H "" (tree true).ownerPub x.name = deriveNodeId H "" (tree false).ownerPub y.name →
        (tree true).ownerPub = (tree false).ownerPub) :
    MergesAgree device store tree spaceId ∧
      ∀ x acts x', x.Starts tree → run (Exchange.deliver device) x acts = some x' → x'.Settled spaceId := by
  obtain ⟨server₁, h₁⟩ := owned_of (howned true)
  obtain ⟨server₂, h₂⟩ := owned_of (howned false)
  have hmem₁ : server₁ ∈ (tree true).nodes := mem_of_at? h₁.server_eq
  have hmem₂ : server₂ ∈ (tree false).nodes := mem_of_at? h₂.server_eq
  have hone : (tree true).ownerPub = (tree false).ownerPub := by
    refine hderive server₁ hmem₁ server₂ hmem₂ ?_
    rw [← h₁.id_eq, ← h₂.id_eq, hid, hid]
  have hfits (side : Bool) :
      Fits H owner spaceId (tree true).ownerPub [server₁, server₂] (tree side).copy (tree side) := by
    cases side with
    | true => exact ⟨hid true, rfl, ⟨server₁, by simp, h₁⟩, rfl⟩
    | false => exact ⟨hid false, hone.symm, ⟨server₂, by simp, h₂⟩, rfl⟩
  have hknows (side : Bool) : Knows H owner [server₁, server₂] (device side) := by
    refine ⟨hhashing side, howner side, fun server hserver => ?_⟩
    rcases List.mem_cons.mp hserver with rfl | hserver
    · exact hhosts side true server h₁.server_eq
    · rw [List.mem_singleton.mp hserver]
      exact hhosts side false server₂ h₂.server_eq
  have hranked : RankedCopies (SpaceNode.rank H) (tree true).copy (tree false).copy := fun k x y hx hy hrank =>
    hleaf x (mem_of_at? hx) y (mem_of_at? hy) (rank_injective hrank)
  have hj : Joins H (fun side => (tree side).copy) (join (SpaceNode.rank H) (tree true).copy (tree false).copy) := by
    have hcomm := join_comm hranked
    refine ⟨fun side => ?_, fun side => ?_, fun side => ?_, fun side => Nat.add_lt_of_lt_sub (hepoch side)⟩
    · cases side with
      | true => rfl
      | false => exact hcomm.symm
    · cases side with
      | true => exact join_join_right _ _
      | false => exact join_join_left hranked
    · cases side with
      | false => exact join_absorbs hranked
      | true =>
        rw [hcomm]
        exact join_absorbs hranked.symm
  refine ⟨⟨?_, fun side => ?_⟩, fun x acts x' hstart hrun => ?_⟩
  · have hmerge (side : Bool) := receive_settles (hknows side) hj side (hstore side) (Or.inl (hfits side)) (Or.inl (hfits !side))
    choose t hlookup htree _ using hmerge
    refine ⟨t, hlookup, ((htree true).sameTree_iff (htree false)).mpr rfl, fun side nodeId => ?_, fun side side' => ?_⟩
    · rw [mem_nodeIds_iff, mem_nodeIds_iff, mem_nodeIds_iff, (htree side).copy_eq, value_join]
      unfold joined
      rw [isSome_joinValue, Bool.or_eq_true]
    · obtain ⟨t', hlookup', htree', hroots, hbehind⟩ :=
        receive_taken (hknows side) (hstore side) (hfits side) (htree side') (hj.takes side)
      refine ⟨t', ?_, (htree'.sameTree_iff (htree side')).mpr rfl, hroots, hbehind⟩
      rw [(htree side').id_eq]
      exact hlookup'
  · obtain ⟨t, hlookup, htree, _⟩ :=
      receive_settles (hknows side) hj side (hstore side) (Or.inl (hfits side)) (Or.inl (hfits !side))
    exact (receive_again (hknows side) hlookup htree (hfits !side) (hj.keeps !side)).1
  · have hinv : Exchanging H owner spaceId (tree true).ownerPub [server₁, server₂] (fun side => (tree side).copy)
        (join (SpaceNode.rank H) (tree true).copy (tree false).copy) x' := by
      refine run_invariant (fun _ x => Exchanging H owner spaceId (tree true).ownerPub [server₁, server₂] (fun side => (tree side).copy)
        (join (SpaceNode.rank H) (tree true).copy (tree false).copy) x) ?_ ?_ hrun
      · refine ⟨fun side => ?_, fun side m hm => ?_, fun side => ?_, fun side => ?_⟩
        · have hholds := hstart.holds side
          rw [hid side] at hholds
          exact ⟨tree side, hholds, Or.inl (hfits side)⟩
        · rcases hstart.sent side with hnone | hsent
          · rw [hnone] at hm
            exact absurd hm List.not_mem_nil
          · rw [hsent, List.mem_singleton] at hm
            rw [hm]
            exact Or.inl ⟨rfl, hfits !side⟩
        · rw [hstart.unanswered side]
          rcases hstart.sent side with hnone | hsent
          · rw [hnone]
            decide
          · rw [hsent]
            simp
        · obtain ⟨side', hside'⟩ := hstart.someone
          by_cases hsame : side' = side
          · exact Or.inr (Or.inl (hsame ▸ hside'))
          · have hother : side' = !side := Bool.eq_not.mpr hsame
            refine Or.inr (Or.inr ⟨(tree (!side'), false), ?_, rfl⟩)
            rw [← hother, (hstart.sent side').resolve_left hside']
            exact List.mem_singleton_self _
      · exact fun _ _ _ _ hx hstep => exchanging_deliver hknows hj hx hstep
    refine ⟨fun side => (Nat.le_add_left _ _).trans (hinv.answers side), fun hempty => ?_⟩
    have hdone (side : Bool) : ∃ t, (x'.store side).spaces.lookup spaceId = some t ∧
        Fits H owner spaceId (tree true).ownerPub [server₁, server₂]
          (join (SpaceNode.rank H) (tree true).copy (tree false).copy) t := by
      rcases hinv.progress side with hdone | hwaits | ⟨m, hm, _⟩
      · exact hdone
      · exact absurd (hempty side) hwaits
      · rw [hempty] at hm
        exact absurd hm List.not_mem_nil
    obtain ⟨t, ht, htree⟩ := hdone true
    obtain ⟨t', ht', htree'⟩ := hdone false
    exact ⟨t, t', ht, ht', (htree.sameTree_iff htree').mpr rfl⟩

/-! ## A room made on each device -/

namespace SpaceSettlingAux

/-- A digest that is the message. -/
def plainHashing : Hashing (List UInt8) := Hashing.plain

/-- A room at the top of the Space. -/
def madeRoom (space : Space) (roomId : String) : Space :=
  space.upsertNode {
    nodeId := roomId
    parentId := space.spaceId
    kind := "room"
    name := roomId
    nodeType := "public"
    ownerPub := space.ownerPub
    invitePolicy := ""
    inherit := false
    keyCommit := "" }

/-- The Space on the host "h", with the room that each device made. -/
def madeTree (side : Bool) : Space := madeRoom (Space.newServer plainHashing "me" "h") (if side then "r" else "q")

def madeDevice (_ : Bool) : OwnDevice (List UInt8) where
  hashing := plainHashing
  ownerPub := "me"
  resolveHost host := if host = "h" then some "h" else none
  sameHost a b := decide (a = b)
  issuedAt := 7
  sign bytes := bytes

def madeStore (side : Bool) : RoomStore :=
  { RoomStore.empty with spaces := (∅ : HashMap String Space).insert (madeTree side).spaceId (madeTree side) }

end SpaceSettlingAux

theorem copies_settle_made :
    MergesAgree madeDevice madeStore madeTree (madeTree true).spaceId ∧
      ∀ x acts x', x.Starts madeTree → run (Exchange.deliver madeDevice) x acts = some x' → x'.Settled (madeTree true).spaceId := by
  refine copies_settle plainHashing "me" (madeTree true).spaceId madeDevice madeStore madeTree (fun _ => rfl) (fun _ => rfl) ?_
    (by decide) ?_ ?_ ?_ ?_ (fun _ _ _ _ _ => rfl)
  · decide +kernel
  · intro side
    cases side <;> rfl
  · decide
  · intro side side' server hserver
    have hname : server.name = "h" := by
      cases side' <;> cases hserver <;> rfl
    rw [hname]
    simp [madeDevice]
  · decide +kernel

end DoubleSlash.Store
