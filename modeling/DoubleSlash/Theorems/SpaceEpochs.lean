import DoubleSlash.Lib.Run
import DoubleSlash.Store.Household
import DoubleSlash.Supernode.SpaceRoots
import DoubleSlash.Theorems.SpaceSettling

/-!
# One epoch, one tree

When the merge of two copies of a Space gets an epoch past that of every copy with other nodes, and when no two devices of an identity
announce different trees for one epoch.
-/

namespace DoubleSlash.Store

open Assoc Keyed Run Spaces Versioned

/-- One set of nodes. -/
def SameNodes (s t : Space) : Prop := ∀ node, node ∈ s.nodes ↔ node ∈ t.nodes

section

variable {D : Type} (H : Hashing D)

/-- What a merge leaves has an epoch past that of each of the two copies that has other nodes. -/
def MergesPast (ours incoming : Space) : Prop :=
  (¬ SameNodes ours ((mergeSpace H (some ours) incoming).result ours incoming) →
    ours.epoch < ((mergeSpace H (some ours) incoming).result ours incoming).epoch) ∧
  (¬ SameNodes incoming ((mergeSpace H (some ours) incoming).result ours incoming) →
    incoming.epoch < ((mergeSpace H (some ours) incoming).result ours incoming).epoch)

/-- For each node of ours the sender's copy has that node or one that wins against it. -/
def IncomingCovers (ours incoming : Space) : Prop :=
  ∀ mine ∈ ours.nodes, ∃ node ∈ incoming.nodes, node.nodeId = mine.nodeId ∧ (node = mine ∨ theirsWins H incoming ours node mine)

/-- For each node of the sender's our copy has that node or one that it does not win against. -/
def OursCovers (ours incoming : Space) : Prop :=
  ∀ node ∈ incoming.nodes, ∃ mine ∈ ours.nodes, mine.nodeId = node.nodeId ∧ (mine = node ∨ ¬ theirsWins H incoming ours node mine)

/-- At one epoch no copy covers the other unless they have the same nodes, and there is an epoch past two copies of which the newer does
not cover the other. -/
structure EpochsApart (ours incoming : Space) : Prop where
  apart : ours.epoch = incoming.epoch → IncomingCovers H ours incoming ∨ OursCovers H ours incoming → SameNodes ours incoming
  next : ¬ (IncomingCovers H ours incoming ∧ ours.epoch ≤ incoming.epoch) → ¬ (OursCovers H ours incoming ∧ incoming.epoch ≤ ours.epoch) →
    max ours.epoch incoming.epoch + 1 < 2 ^ 64

/-- The root is one of the Space at the epoch of the tree. -/
def NamesEpoch (root : SignedSpaceRoot) (tree : Space) : Prop := root.spaceId = tree.spaceId ∧ root.epoch = tree.epoch

/-- No device holds a tree, and none announced one, at an epoch for which another tree was announced. -/
structure OneRoot {ι : Type} (h : Household ι) : Prop where
  held : ∀ i k tree, (h.store i).spaces.lookup k = some tree →
    ∀ p ∈ h.announced, NamesEpoch p.2 tree → p.2.rootHash = tree.rootHash H
  signed : ∀ p ∈ h.announced, ∀ q ∈ h.announced, p.2.spaceId = q.2.spaceId → p.2.epoch = q.2.epoch → p.2.rootHash = q.2.rootHash

end

/-- A device adopts a room only into a copy of the newest epoch that was announced, or to make a tree that a device has, and there is an
epoch after it. -/
def AdoptsOnTop {D ι : Type} (identity : Identity D) (h : Household ι) : DeviceAct ι → Prop
  | .adoptRoomIntoSpace i supernodeId roomId roomName roomType parentNodeId now =>
    let spaceId := deriveNodeId identity.hashing "" identity.ownerPub supernodeId
    let epoch := ((h.store i).spaces.lookup spaceId).elim 0 Space.epoch
    let adopted := ((h.store i).adoptRoomIntoSpace identity.hashing identity.sign identity.ownerPub supernodeId roomId roomName roomType
      parentNodeId now).1
    epoch + 1 < 2 ^ 64 ∧
      ((∀ p ∈ h.announced, p.2.spaceId = spaceId → p.2.epoch ≤ epoch) ∨
        ∃ j, (h.store j).spaces.lookup spaceId = adopted.spaces.lookup spaceId)
  | _ => True

/-- A copy that a device holds or that is on its way. -/
def Household.Copies {ι : Type} (h : Household ι) (tree : Space) : Prop :=
  (∃ i k, (h.store i).spaces.lookup k = some tree) ∨ ∃ p ∈ h.sent, tree ∈ p.2.spaces

namespace SpaceEpochsAux

/-! ### The merge of two copies -/

section

variable {D : Type} {H : Hashing D} {ours incoming : Space}

theorem sameNodes_iff {s t : Space} (hs : s.Distinct) (ht : t.Distinct) : SameNodes s t ↔ s.copy.value = t.copy.value := by
  constructor
  · intro hsame
    refine funext fun k => Option.ext fun node => ?_
    have hat := (at?_eq_some_iff hs (k := k) (x := node)).trans ((and_congr_left' (hsame node)).trans (at?_eq_some_iff ht).symm)
    exact hat
  · intro hvalue node
    have hat : at? SpaceNode.nodeId s.nodes node.nodeId = at? SpaceNode.nodeId t.nodes node.nodeId := congrFun hvalue node.nodeId
    constructor
    · intro hnode
      rw [at?_of_mem hs hnode] at hat
      exact mem_of_at? hat.symm
    · intro hnode
      rw [at?_of_mem ht hnode] at hat
      exact mem_of_at? hat

theorem wins_iff {mine node : SpaceNode} : theirsWins H incoming ours node mine ↔
    ours.copy.version < incoming.copy.version ∨ (ours.copy.version = incoming.copy.version ∧ mine.rank H < node.rank H) := by
  unfold theirsWins
  rw [@eq_comm _ incoming.epoch]
  rfl

theorem incomingCovers_iff (ho : ours.Distinct) (hi : incoming.Distinct) :
    IncomingCovers H ours incoming ↔ incoming.copy.value = joined (SpaceNode.rank H) ours.copy incoming.copy := by
  rw [eq_comm, funext_iff]
  unfold joined
  simp only [joinValue_eq_right_iff, ← wins_iff]
  constructor
  · intro hcovers k mine hmine
    obtain ⟨hmem, rfl⟩ := (at?_eq_some_iff ho).mp hmine
    obtain ⟨node, hnode, hid, hwins⟩ := hcovers mine hmem
    exact ⟨node, (at?_eq_some_iff hi).mpr ⟨hnode, hid⟩, hwins⟩
  · intro hat mine hmem
    obtain ⟨node, hnode, hwins⟩ := hat mine.nodeId mine (at?_of_mem ho hmem)
    obtain ⟨hmem', hid⟩ := (at?_eq_some_iff hi).mp hnode
    exact ⟨node, hmem', hid, hwins⟩

theorem oursCovers_iff (ho : ours.Distinct) (hi : incoming.Distinct) :
    OursCovers H ours incoming ↔ ours.copy.value = joined (SpaceNode.rank H) ours.copy incoming.copy := by
  rw [eq_comm, funext_iff]
  unfold joined
  simp only [joinValue_eq_left_iff, ← wins_iff]
  constructor
  · intro hcovers k node hnode
    obtain ⟨hmem, rfl⟩ := (at?_eq_some_iff hi).mp hnode
    obtain ⟨mine, hmine, hid, hwins⟩ := hcovers node hmem
    exact ⟨mine, (at?_eq_some_iff ho).mpr ⟨hmine, hid⟩, hwins⟩
  · intro hat node hmem
    obtain ⟨mine, hmine, hwins⟩ := hat node.nodeId node (at?_of_mem hi hmem)
    obtain ⟨hmem', hid⟩ := (at?_eq_some_iff ho).mp hmine
    exact ⟨mine, hmem', hid, hwins⟩

theorem heldBySecond_iff (ho : ours.Distinct) (hi : incoming.Distinct) :
    HeldBySecond (SpaceNode.rank H) ours.copy incoming.copy ↔ IncomingCovers H ours incoming ∧ ours.epoch ≤ incoming.epoch := by
  rw [incomingCovers_iff ho hi]
  rfl

theorem heldByFirst_iff (ho : ours.Distinct) (hi : incoming.Distinct) :
    HeldByFirst (SpaceNode.rank H) ours.copy incoming.copy ↔ OursCovers H ours incoming ∧ incoming.epoch ≤ ours.epoch := by
  rw [oursCovers_iff ho hi]
  rfl

/-- The nodes and the epoch of what a merge leaves. -/
structure MergeResult (H : Hashing D) (ours incoming t : Space) : Prop where
  sameOurs : SameNodes ours t ↔ OursCovers H ours incoming
  sameIncoming : SameNodes incoming t ↔ IncomingCovers H ours incoming
  second : IncomingCovers H ours incoming ∧ ours.epoch ≤ incoming.epoch → t.epoch = incoming.epoch
  first : OursCovers H ours incoming ∧ incoming.epoch ≤ ours.epoch → t.epoch = ours.epoch
  neither : ¬ (IncomingCovers H ours incoming ∧ ours.epoch ≤ incoming.epoch) → ¬ (OursCovers H ours incoming ∧ incoming.epoch ≤ ours.epoch) →
    t.epoch = nextEpoch (max ours.epoch incoming.epoch)

theorem mergeResult (ho : ours.Distinct) (hi : incoming.Distinct) :
    MergeResult H ours incoming ((mergeSpace H (some ours) incoming).result ours incoming) := by
  have hof (t : Space) (ht : t.Distinct) (hvalue : t.copy.value = joined (SpaceNode.rank H) ours.copy incoming.copy) :
      (SameNodes ours t ↔ OursCovers H ours incoming) ∧ (SameNodes incoming t ↔ IncomingCovers H ours incoming) := by
    rw [sameNodes_iff ho ht, sameNodes_iff hi ht, hvalue, oursCovers_iff ho hi, incomingCovers_iff ho hi]
    exact ⟨Iff.rfl, Iff.rfl⟩
  rcases mergeSpace_cases H ho hi with ⟨hheld, hcase⟩ | ⟨hheld, heq⟩ | ⟨h₁, h₂, nodes, heq, hnodes, hat⟩
  · have hsecond := (heldBySecond_iff ho hi).mp hheld
    rcases hcase with heq | ⟨heq, hsame⟩
    · rw [heq]
      obtain ⟨hours, hincoming⟩ := hof incoming hi hheld.1
      exact ⟨hours, hincoming, fun _ => rfl, fun h => le_antisymm h.2 hsecond.2, fun h => absurd hsecond h⟩
    · rw [heq]
      obtain ⟨hours, hincoming⟩ := hof ours ho ((congrArg Copy.value hsame).trans hheld.1)
      exact ⟨hours, hincoming, fun _ => congrArg Copy.version hsame, fun _ => rfl, fun h => absurd hsecond h⟩
  · have hfirst := (heldByFirst_iff ho hi).mp hheld
    rw [heq]
    obtain ⟨hours, hincoming⟩ := hof ours ho hheld.1
    exact ⟨hours, hincoming, fun h => le_antisymm h.2 hfirst.2, fun _ => rfl, fun _ h => absurd hfirst h⟩
  · rw [heq]
    obtain ⟨hours, hincoming⟩ := hof
      { spaceId := ours.spaceId, ownerPub := ours.ownerPub, epoch := nextEpoch (max ours.epoch incoming.epoch), nodes := nodes } hnodes hat
    exact ⟨hours, hincoming, fun h => absurd ((heldBySecond_iff ho hi).mpr h) h₁, fun h => absurd ((heldByFirst_iff ho hi).mpr h) h₂,
      fun _ _ => rfl⟩

/-- **When the merge is past both.** The copies are of 64-bit epochs and have no id twice. -/
theorem mergesPast_iff (ho : ours.Distinct) (hi : incoming.Distinct) (hours : ours.epoch < 2 ^ 64) (hincoming : incoming.epoch < 2 ^ 64) :
    MergesPast H ours incoming ↔ EpochsApart H ours incoming := by
  have hresult := mergeResult (H := H) ho hi
  have hsame (hcovers : IncomingCovers H ours incoming ∨ OursCovers H ours incoming) :
      SameNodes ours incoming ↔ IncomingCovers H ours incoming ∧ OursCovers H ours incoming := by
    rw [sameNodes_iff ho hi, incomingCovers_iff ho hi, oursCovers_iff ho hi]
    rw [incomingCovers_iff ho hi, oursCovers_iff ho hi] at hcovers
    constructor
    · intro hvalue
      rcases hcovers with h | h
      · exact ⟨h, hvalue.trans h⟩
      · exact ⟨hvalue.symm.trans h, h⟩
    · rintro ⟨h, h'⟩
      exact h'.trans h.symm
  unfold MergesPast
  generalize (mergeSpace H (some ours) incoming).result ours incoming = t at hresult
  rw [hresult.sameOurs, hresult.sameIncoming]
  by_cases hsecond : IncomingCovers H ours incoming ∧ ours.epoch ≤ incoming.epoch
  · -- The sender's copy stands, so only ours can have other nodes.
    rw [hresult.second hsecond]
    constructor
    · rintro ⟨hpast, -⟩
      refine ⟨fun heq hcovers => (hsame hcovers).mpr ⟨hsecond.1, ?_⟩, fun h => absurd hsecond h⟩
      by_contra hno
      exact absurd heq (hpast hno).ne
    · rintro ⟨hapart, -⟩
      refine ⟨fun hno => lt_of_le_of_ne hsecond.2 fun heq => ?_, fun hno => absurd hsecond.1 hno⟩
      exact hno ((hsame (Or.inl hsecond.1)).mp (hapart heq (Or.inl hsecond.1))).2
  · by_cases hfirst : OursCovers H ours incoming ∧ incoming.epoch ≤ ours.epoch
    · rw [hresult.first hfirst]
      constructor
      · rintro ⟨-, hpast⟩
        refine ⟨fun heq hcovers => (hsame hcovers).mpr ⟨?_, hfirst.1⟩, fun _ h => absurd hfirst h⟩
        by_contra hno
        exact absurd heq.symm (hpast hno).ne
      · rintro ⟨hapart, -⟩
        refine ⟨fun hno => absurd hfirst.1 hno, fun hno => lt_of_le_of_ne hfirst.2 fun heq => ?_⟩
        exact hno ((hsame (Or.inr hfirst.1)).mp (hapart heq.symm (Or.inr hfirst.1))).1
    · rw [hresult.neither hsecond hfirst]
      constructor
      · rintro ⟨hpast, hpast'⟩
        refine ⟨fun heq hcovers => ?_, fun _ _ => ?_⟩
        · exact (hcovers.elim (fun h => hsecond ⟨h, heq.le⟩) fun h => hfirst ⟨h, heq.ge⟩).elim
        · -- One of the copies has other nodes, and no epoch is less than the first.
          by_contra hover
          have hzero : nextEpoch (max ours.epoch incoming.epoch) = 0 := by
            have hmax : max ours.epoch incoming.epoch + 1 = 2 ^ 64 := by omega
            unfold nextEpoch
            rw [hmax, Nat.mod_self]
          rw [hzero] at hpast hpast'
          have hours' : OursCovers H ours incoming := by
            by_contra hno
            exact absurd (hpast hno) (Nat.not_lt_zero _)
          have hincoming' : IncomingCovers H ours incoming := by
            by_contra hno
            exact absurd (hpast' hno) (Nat.not_lt_zero _)
          rcases le_total ours.epoch incoming.epoch with hle | hle
          · exact hsecond ⟨hincoming', hle⟩
          · exact hfirst ⟨hours', hle⟩
      · rintro ⟨-, hnext⟩
        rw [nextEpoch_eq (hnext hsecond hfirst)]
        exact ⟨fun _ => Nat.lt_succ_of_le (le_max_left _ _), fun _ => Nat.lt_succ_of_le (le_max_right _ _)⟩

end

/-! ### What leaves the Spaces as they are -/

theorem foldl_keeps {α β γ : Type} {f : β → α → β} (g : β → γ) (hf : ∀ b a, g (f b a) = g b) (l : List α) (b : β) :
    g (l.foldl f b) = g b := by
  induction l generalizing b with
  | nil => rfl
  | cons a l ih => rw [List.foldl_cons, ih, hf]

theorem spaces_noteAdded (s : RoomStore) (now : Nat) (roomId : String) : (s.noteAdded now roomId).spaces = s.spaces := by
  unfold RoomStore.noteAdded
  split <;> rfl

theorem spaces_mergeInMemory (s : RoomStore) (now : Nat) (entry : RoomEntry) (explicit : Bool) :
    (((s.mergeInMemory now entry explicit).map Prod.fst).getD s).spaces = s.spaces := by
  unfold RoomStore.mergeInMemory
  split
  · rfl
  · dsimp only
    split
    · split
      · exact spaces_noteAdded _ _ _
      · exact spaces_noteAdded _ _ _
    · split
      · rfl
      · rfl

theorem spaces_syncFromRoomList (s : RoomStore) (now : Nat) (supernodeId : String) (rooms : Protocol.Json) :
    (s.syncFromRoomList now supernodeId rooms).spaces = s.spaces := by
  unfold RoomStore.syncFromRoomList
  split
  · rfl
  · refine foldl_keeps RoomStore.spaces (fun s entry => ?_) _ s
    unfold RoomStore.upsertListed
    split
    · rfl
    · exact spaces_mergeInMemory _ _ _ _

theorem spaces_deleteLocalAt (s : RoomStore) (roomId : String) (extra : List String) (now : Nat) :
    (s.deleteLocalAt roomId extra now).spaces = s.spaces := by
  unfold RoomStore.deleteLocalAt
  split
  · rfl
  · dsimp only
    refine foldl_keeps RoomStore.spaces ?_ _ s
    intro s host
    rfl

section

variable {D : Type} (device : OwnDevice D)

/-- The Spaces of the device and the roots it signed. -/
def spacesAndRoots (acc : RoomStore × OwnRoomMerge) : HashMap String Space × List (String × SignedSpaceRoot) := (acc.1.spaces, acc.2.roots)

omit device in
theorem spaces_of_kept {acc : RoomStore × OwnRoomMerge} {p : HashMap String Space × List (String × SignedSpaceRoot)}
    (h : spacesAndRoots acc = p) : acc.1.spaces = p.1 := congrArg Prod.fst h

omit device in
theorem roots_of_kept {acc : RoomStore × OwnRoomMerge} {p : HashMap String Space × List (String × SignedSpaceRoot)}
    (h : spacesAndRoots acc = p) : acc.2.roots = p.2 := congrArg Prod.snd h

theorem kept_applyOwnDeviceRemoval (acc : RoomStore × OwnRoomMerge) (removal : RoomRemoval) :
    spacesAndRoots (RoomStore.applyOwnDeviceRemoval device acc removal) = spacesAndRoots acc := by
  unfold RoomStore.applyOwnDeviceRemoval
  dsimp only
  split
  · rfl
  · split
    · rfl
    · split
      · rfl
      · rfl

theorem spaces_mergeOwnDeviceRoomEntry (s : RoomStore) (incoming : RoomEntry) (host : String) :
    (s.mergeOwnDeviceRoomEntry device incoming host).1.spaces = s.spaces := by
  unfold RoomStore.mergeOwnDeviceRoomEntry
  dsimp only
  split
  · split
    · rfl
    · rfl
  · split
    · rfl
    · rfl

theorem spaces_stampAdded (s : RoomStore) (roomId : String) (addedAt : Nat) : (s.stampAdded roomId addedAt).1.spaces = s.spaces := by
  unfold RoomStore.stampAdded
  dsimp only
  split <;> rfl

theorem kept_mergeOwnDeviceRoom (acc : RoomStore × OwnRoomMerge) (incoming : RoomEntry) (addedAt : Nat) :
    spacesAndRoots (RoomStore.mergeOwnDeviceRoom device acc incoming addedAt) = spacesAndRoots acc := by
  unfold RoomStore.mergeOwnDeviceRoom
  dsimp only
  split
  · rfl
  · split
    · rfl
    · split
      · split
        · rfl
        · unfold spacesAndRoots
          dsimp only
          rw [spaces_stampAdded, spaces_mergeOwnDeviceRoomEntry]
          rfl
      · unfold spacesAndRoots
        dsimp only
        rw [spaces_stampAdded, spaces_mergeOwnDeviceRoomEntry]

theorem spaces_stampLinkage (s : RoomStore) : (s.stampLinkageFromOwnSpaces device).1.spaces = s.spaces := by
  refine foldl_keeps (fun acc : RoomStore × Bool => acc.1.spaces) (fun acc space => ?_) _ (s, false)
  unfold RoomStore.stampLinkage
  dsimp only
  split
  · rfl
  · split
    · rfl
    · rfl

/-- The rooms of a snapshot do not touch the Spaces. -/
theorem mergeOwnDeviceSnapshot_spaces (s : RoomStore) (snapshot : OwnRoomSnapshot) :
    spacesAndRoots (s.mergeOwnDeviceSnapshot device snapshot) = spacesAndRoots (s, .default) ∨
      spacesAndRoots (s.mergeOwnDeviceSnapshot device snapshot) =
        spacesAndRoots (snapshot.spaces.foldl (RoomStore.mergeOwnSpace device) (s, .default)) := by
  unfold RoomStore.mergeOwnDeviceSnapshot
  split
  · exact Or.inl rfl
  · refine Or.inr ?_
    have hrooms := foldl_keeps spacesAndRoots
      (fun acc incoming => kept_mergeOwnDeviceRoom device acc incoming ((snapshot.added.lookup incoming.roomId).getD 0)) snapshot.rooms
      (snapshot.removed.foldl (RoomStore.applyOwnDeviceRemoval device)
        (snapshot.spaces.foldl (RoomStore.mergeOwnSpace device) (s, .default)))
    have hremoved := foldl_keeps spacesAndRoots (kept_applyOwnDeviceRemoval device) snapshot.removed
      (snapshot.spaces.foldl (RoomStore.mergeOwnSpace device) (s, .default))
    rw [← hremoved, ← hrooms]
    unfold spacesAndRoots
    dsimp only
    rw [spaces_stampLinkage]

/-- What the merge of one Space of a snapshot does. -/
theorem mergeOwnSpace_cases (acc : RoomStore × OwnRoomMerge) (incoming : Space) :
    spacesAndRoots (RoomStore.mergeOwnSpace device acc incoming) = spacesAndRoots acc ∨
    incoming.Distinct ∧
      (spacesAndRoots (RoomStore.mergeOwnSpace device acc incoming) = (acc.1.spaces.insert incoming.spaceId incoming, acc.2.roots) ∨
        ∃ ours space server, acc.1.spaces.lookup incoming.spaceId = some ours ∧
          mergeSpace device.hashing (some ours) incoming = .resign space ∧
          spacesAndRoots (RoomStore.mergeOwnSpace device acc incoming) = (acc.1.spaces.insert space.spaceId space,
            acc.2.roots ++ [(server, space.signedRoot device.hashing device.issuedAt device.sign)])) := by
  unfold RoomStore.mergeOwnSpace
  dsimp only
  split
  · exact Or.inl rfl
  · rename_i hcheck
    obtain ⟨owned, howned⟩ := SpaceSettlingAux.owned_of (Bool.of_not_eq_false hcheck)
    split
    · exact Or.inl rfl
    · rename_i server hserver
      split
      · exact Or.inl rfl
      · cases hours : acc.1.spaces.lookup incoming.spaceId with
        | none => exact Or.inr ⟨howned.distinct, Or.inl rfl⟩
        | some ours =>
          cases hmerge : mergeSpace device.hashing (some ours) incoming with
          | unchanged => exact Or.inl rfl
          | adopt space =>
            have hspace : space = incoming := by
              unfold mergeSpace at hmerge
              dsimp only at hmerge
              split at hmerge
              · split at hmerge
                · exact absurd hmerge (by simp)
                · exact (SpaceMerge.adopt.inj hmerge).symm
              · split at hmerge
                · exact absurd hmerge (by simp)
                · exact absurd hmerge (by simp)
            rw [hspace]
            exact Or.inr ⟨howned.distinct, Or.inl rfl⟩
          | resign space => exact Or.inr ⟨howned.distinct, Or.inr ⟨ours, space, server.name, rfl, hmerge, rfl⟩⟩

/-- A merge that signs anew signs what neither copy covers. -/
theorem covers_of_resign {H : Hashing D} {ours incoming space : Space} (ho : ours.Distinct) (hi : incoming.Distinct)
    (h : mergeSpace H (some ours) incoming = .resign space) :
    (¬ (IncomingCovers H ours incoming ∧ ours.epoch ≤ incoming.epoch) ∧ ¬ (OursCovers H ours incoming ∧ incoming.epoch ≤ ours.epoch)) ∧
      space.Distinct ∧ space.spaceId = ours.spaceId ∧ space.epoch < 2 ^ 64 := by
  rcases mergeSpace_cases H ho hi with ⟨-, heq | ⟨heq, -⟩⟩ | ⟨-, heq⟩ | ⟨h₁, h₂, nodes, heq, hnodes, -⟩
  · exact absurd (h.symm.trans heq) (by simp)
  · exact absurd (h.symm.trans heq) (by simp)
  · exact absurd (h.symm.trans heq) (by simp)
  · have hspace := SpaceMerge.resign.inj (h.symm.trans heq)
    rw [heldBySecond_iff ho hi] at h₁
    rw [heldByFirst_iff ho hi] at h₂
    rw [hspace]
    exact ⟨⟨h₁, h₂⟩, hnodes, rfl, Nat.mod_lt _ (by decide)⟩

/-- The stored Spaces are under their ids, and each has a property. -/
def AllStored (Q : Space → Prop) (spaces : HashMap String Space) : Prop := ∀ k tree, spaces.lookup k = some tree → tree.spaceId = k ∧ Q tree

theorem AllStored.insert {Q : Space → Prop} {spaces : HashMap String Space} (h : AllStored Q spaces) {tree : Space} (htree : Q tree) :
    AllStored Q (spaces.insert tree.spaceId tree) := by
  intro k x hlook
  by_cases hk : k = tree.spaceId
  · subst hk
    rw [AList.lookup_insert] at hlook
    rw [← Option.some.inj hlook]
    exact ⟨rfl, htree⟩
  · rw [AList.lookup_insert_ne hk] at hlook
    exact h k x hlook

/-- The merge of a Space keeps what the copies and the trees signed anew have. -/
theorem allStored_merge {Q : Space → Prop}
    (hresign : ∀ ours incoming space, Q ours → Q incoming → ours.spaceId = incoming.spaceId → incoming.Distinct →
      mergeSpace device.hashing (some ours) incoming = .resign space → Q space)
    (acc : RoomStore × OwnRoomMerge) {incoming : Space} (hincoming : Q incoming) (hacc : AllStored Q acc.1.spaces) :
    AllStored Q (RoomStore.mergeOwnSpace device acc incoming).1.spaces := by
  rcases mergeOwnSpace_cases device acc incoming with heq | ⟨hdistinct, heq | ⟨ours, space, server, hours, hmerge, heq⟩⟩
  · rw [spaces_of_kept heq]
    exact hacc
  · rw [spaces_of_kept heq]
    exact hacc.insert hincoming
  · rw [spaces_of_kept heq]
    obtain ⟨hid, hq⟩ := hacc _ _ hours
    exact hacc.insert (hresign ours incoming space hq hincoming hid hdistinct hmerge)

theorem allStored_merges {Q : Space → Prop} {trees : List Space}
    (hresign : ∀ ours incoming space, Q ours → Q incoming → ours.spaceId = incoming.spaceId → incoming.Distinct →
      mergeSpace device.hashing (some ours) incoming = .resign space → Q space)
    (htrees : ∀ tree ∈ trees, Q tree) (acc : RoomStore × OwnRoomMerge) (hacc : AllStored Q acc.1.spaces) :
    AllStored Q (trees.foldl (RoomStore.mergeOwnSpace device) acc).1.spaces := by
  induction trees generalizing acc with
  | nil => exact hacc
  | cons incoming trees ih =>
    obtain ⟨hincoming, hrest⟩ := List.forall_mem_cons.mp htrees
    rw [List.foldl_cons]
    exact ih hrest _ (allStored_merge device hresign acc hincoming hacc)

/-- Merges none of which signs anew announce nothing. -/
theorem roots_merges {Q : Space → Prop} {trees : List Space}
    (hresign : ∀ ours incoming space, Q ours → Q incoming → ours.spaceId = incoming.spaceId → incoming.Distinct →
      mergeSpace device.hashing (some ours) incoming ≠ .resign space)
    (htrees : ∀ tree ∈ trees, Q tree) (acc : RoomStore × OwnRoomMerge) (hacc : AllStored Q acc.1.spaces) :
    (trees.foldl (RoomStore.mergeOwnSpace device) acc).2.roots = acc.2.roots := by
  induction trees generalizing acc with
  | nil => rfl
  | cons incoming trees ih =>
    obtain ⟨hincoming, hrest⟩ := List.forall_mem_cons.mp htrees
    have hstored : AllStored Q (RoomStore.mergeOwnSpace device acc incoming).1.spaces := allStored_merge device
      (fun ours inc space hq hq' hid hd hmerge => absurd hmerge (hresign ours inc space hq hq' hid hd)) acc hincoming hacc
    rw [List.foldl_cons, ih hrest _ hstored]
    rcases mergeOwnSpace_cases device acc incoming with heq | ⟨hdistinct, heq | ⟨ours, space, server, hours, hmerge, heq⟩⟩
    · exact roots_of_kept heq
    · exact roots_of_kept heq
    · obtain ⟨hid, hq⟩ := hacc _ _ hours
      exact absurd hmerge (hresign ours incoming space hq hincoming hid hdistinct)

end

/-! ### Adoption -/

theorem ids_replaceNode (node : SpaceNode) (nodes : List SpaceNode) :
    (replaceNode node nodes).map SpaceNode.nodeId =
      if node.nodeId ∈ nodes.map SpaceNode.nodeId then nodes.map SpaceNode.nodeId else nodes.map SpaceNode.nodeId ++ [node.nodeId] := by
  induction nodes with
  | nil => rfl
  | cons x nodes ih =>
    simp only [replaceNode, List.map_cons, List.mem_cons]
    by_cases hx : x.nodeId = node.nodeId
    · rw [if_pos hx, if_pos (Or.inl hx.symm), List.map_cons, hx]
    · rw [if_neg hx, List.map_cons, ih]
      by_cases hmem : node.nodeId ∈ nodes.map SpaceNode.nodeId
      · rw [if_pos hmem, if_pos (Or.inr hmem)]
      · rw [if_neg hmem, if_neg (fun h => h.elim (fun h => hx h.symm) hmem), List.cons_append]

theorem ids_upsertNode (space : Space) (node : SpaceNode) : ∀ k ∈ nodeIds space, k ∈ nodeIds (space.upsertNode node) := by
  intro k hk
  unfold nodeIds Space.upsertNode
  dsimp only
  rw [ids_replaceNode]
  split
  · exact hk
  · exact List.mem_append_left _ hk

theorem distinct_upsertNode {space : Space} (h : space.Distinct) (node : SpaceNode) : (space.upsertNode node).Distinct := by
  unfold Space.Distinct Keyed.Distinct Space.upsertNode
  dsimp only
  rw [ids_replaceNode]
  split
  · exact h
  · rename_i hnew
    exact List.nodup_append.mpr ⟨h, List.nodup_singleton _, fun a ha b hb => by
      rw [List.mem_singleton.mp hb]
      exact fun heq => hnew (heq ▸ ha)⟩

section

variable {ι D : Type} {identity : Identity D}

variable [DecidableEq ι] {h h' : Household ι}

/-! ### The steps of a household -/

/-- What a step does to the Spaces, the snapshots on their way and the announced roots. -/
theorem step_cases {act : DeviceAct ι} (hstep : h.step identity act = some h') :
    (∃ i supernodeId roomId roomName roomType parentNodeId now,
      act = .adoptRoomIntoSpace i supernodeId roomId roomName roomType parentNodeId now ∧
      h' = (h.setStore i ((h.store i).adoptRoomIntoSpace identity.hashing identity.sign identity.ownerPub supernodeId roomId roomName
          roomType parentNodeId now).1).announce i
        [((h.store i).adoptRoomIntoSpace identity.hashing identity.sign identity.ownerPub supernodeId roomId roomName roomType
          parentNodeId now).2]) ∨
    ((∀ i, (h'.store i).spaces = (h.store i).spaces) ∧ h'.announced = h.announced ∧
      ∀ p ∈ h'.sent, p ∈ h.sent ∨ ∃ i, p.2 = (h.store i).ownDeviceSnapshot identity.ownerPub) ∨
    (∃ i n view now p, act = .merge i n view now ∧ h.sent[n]? = some p ∧
      h' = (h.setStore i ((h.store i).mergeOwnDeviceSnapshot (identity.device view now) p.2).1).announce i
        (((h.store i).mergeOwnDeviceSnapshot (identity.device view now) p.2).2.roots.map Prod.snd)) := by
  have hquiet (i : ι) (s : RoomStore) (hs : s.spaces = (h.store i).spaces) (hset : h.setStore i s = h') :
      (∀ j, (h'.store j).spaces = (h.store j).spaces) ∧ h'.announced = h.announced ∧
        ∀ p ∈ h'.sent, p ∈ h.sent ∨ ∃ i, p.2 = (h.store i).ownDeviceSnapshot identity.ownerPub := by
    subst hset
    refine ⟨fun j => ?_, rfl, fun p hp => Or.inl hp⟩
    rw [Household.setStore_store]
    split
    · rename_i hj
      rw [hs, hj]
    · rfl
  cases act with
  | adoptRoomIntoSpace i supernodeId roomId roomName roomType parentNodeId now =>
    exact Or.inl ⟨i, supernodeId, roomId, roomName, roomType, parentNodeId, now, rfl, (Option.some.inj hstep).symm⟩
  | upsert i entry now =>
    exact Or.inr (Or.inl (hquiet i _ (spaces_mergeInMemory _ _ _ _) (Option.some.inj hstep)))
  | deleteLocal i roomId extra now =>
    exact Or.inr (Or.inl (hquiet i _ (spaces_deleteLocalAt _ _ _ _) (Option.some.inj hstep)))
  | syncFromRoomList i supernodeId rooms now =>
    exact Or.inr (Or.inl (hquiet i _ (spaces_syncFromRoomList _ _ _ _) (Option.some.inj hstep)))
  | send i =>
    refine Or.inr (Or.inl ?_)
    rw [← Option.some.inj hstep]
    refine ⟨fun _ => rfl, rfl, fun p hp => ?_⟩
    rcases List.mem_append.mp hp with hp | hp
    · exact Or.inl hp
    · rw [List.mem_singleton.mp hp]
      exact Or.inr ⟨i, rfl⟩
  | merge i n view now =>
    obtain ⟨p, hp, heq⟩ := Option.map_eq_some_iff.mp hstep
    exact Or.inr (Or.inr ⟨i, n, view, now, p, rfl, hp, heq.symm⟩)

theorem stored_of_snapshot {s : RoomStore} {owner : String} {tree : Space} (h : tree ∈ (s.ownDeviceSnapshot owner).spaces) :
    ∃ k, s.spaces.lookup k = some tree := by
  have hmem := (List.mergeSort_perm _ _).mem_iff.mp (List.mem_of_mem_take h)
  exact (mem_values _ _).mp (List.mem_filter.mp hmem).1

/-- What holds of a copy by itself. -/
def Sane (tree : Space) : Prop := tree.Distinct ∧ tree.epoch < 2 ^ 64

/-- Every copy is of a 64-bit epoch, has no id twice and is stored under its id. -/
structure Sound (h : Household ι) : Prop where
  stored : ∀ i, AllStored Sane (h.store i).spaces
  sent : ∀ p ∈ h.sent, ∀ tree ∈ p.2.spaces, Sane tree

omit [DecidableEq ι] in
theorem Sound.copies (hs : Sound h) {tree : Space} (ht : h.Copies tree) : Sane tree := by
  rcases ht with ⟨i, k, hlook⟩ | ⟨p, hp, hmem⟩
  · exact (hs.stored i k tree hlook).2
  · exact hs.sent p hp tree hmem

/-- What an adoption leaves: the device's own copy, or a new one at epoch 0, has one node more or another and is signed at the next
epoch. -/
structure Adopted (identity : Identity D) (s s' : RoomStore) (spaceId : String) (root : SignedSpaceRoot) (tree : Space) : Prop where
  id_eq : tree.spaceId = spaceId
  sane : Sane tree
  epoch_eq : tree.epoch = nextEpoch ((s.spaces.lookup spaceId).elim 0 Space.epoch)
  ids : ∀ own, s.spaces.lookup spaceId = some own → ∀ k ∈ nodeIds own, k ∈ nodeIds tree
  spaces : s'.spaces = s.spaces.insert tree.spaceId tree
  names : NamesEpoch root tree
  hash : root.rootHash = tree.rootHash identity.hashing

theorem adopted {s : RoomStore} (hs : AllStored Sane s.spaces) (supernodeId roomId roomName roomType parentNodeId : String) (now : Nat) :
    let adopt := s.adoptRoomIntoSpace identity.hashing identity.sign identity.ownerPub supernodeId roomId roomName roomType parentNodeId now
    ∃ tree, Adopted identity s adopt.1 (deriveNodeId identity.hashing "" identity.ownerPub supernodeId) adopt.2 tree := by
  have hbase : ∃ base, base = (s.spaces.lookup (deriveNodeId identity.hashing "" identity.ownerPub supernodeId)).getD
        (Space.newServer identity.hashing identity.ownerPub supernodeId) ∧
      base.spaceId = deriveNodeId identity.hashing "" identity.ownerPub supernodeId ∧ Sane base ∧
      base.epoch = (s.spaces.lookup (deriveNodeId identity.hashing "" identity.ownerPub supernodeId)).elim 0 Space.epoch ∧
      ∀ own, s.spaces.lookup (deriveNodeId identity.hashing "" identity.ownerPub supernodeId) = some own → own = base := by
    cases hlook : s.spaces.lookup (deriveNodeId identity.hashing "" identity.ownerPub supernodeId) with
    | none => exact ⟨_, rfl, rfl, ⟨List.nodup_singleton _, Nat.two_pow_pos 64⟩, rfl, fun _ h => absurd h (by simp)⟩
    | some space =>
      obtain ⟨hid, hsane⟩ := hs _ _ hlook
      exact ⟨space, rfl, hid, hsane, rfl, fun _ h => (Option.some.inj h).symm⟩
  obtain ⟨base, hbase, hid, hsane, hepoch, hown⟩ := hbase
  unfold RoomStore.adoptRoomIntoSpace
  dsimp only
  rw [← hbase]
  refine ⟨base.upsertNode _, hid, ⟨distinct_upsertNode hsane.1 _, Nat.mod_lt _ (Nat.two_pow_pos 64)⟩, congrArg nextEpoch hepoch, ?_,
    ?_, ⟨rfl, rfl⟩, rfl⟩
  · intro own hlook
    rw [hown own hlook]
    exact ids_upsertNode base _
  · exact congrArg (fun k => s.spaces.insert k _) hid.symm

theorem sound_step {act : DeviceAct ι} (hs : Sound h) (hstep : h.step identity act = some h') : Sound h' := by
  rcases step_cases hstep with ⟨i, supernodeId, roomId, roomName, roomType, parentNodeId, now, -, rfl⟩ | ⟨hspaces, -, hsent⟩ |
    ⟨i, n, view, now, p, -, hp, rfl⟩
  · refine ⟨fun j => ?_, hs.sent⟩
    rw [Household.announce_store, Household.setStore_store]
    split
    · obtain ⟨tree, htree⟩ := adopted (hs.stored i) supernodeId roomId roomName roomType parentNodeId now
      rw [htree.spaces]
      exact (hs.stored i).insert htree.sane
    · exact hs.stored j
  · refine ⟨fun i => hspaces i ▸ hs.stored i, fun p hp tree htree => ?_⟩
    rcases hsent p hp with hp | ⟨i, heq⟩
    · exact hs.sent p hp tree htree
    · rw [heq] at htree
      obtain ⟨k, hlook⟩ := stored_of_snapshot htree
      exact (hs.stored i k tree hlook).2
  · refine ⟨fun j => ?_, hs.sent⟩
    rw [Household.announce_store, Household.setStore_store]
    split
    · rcases mergeOwnDeviceSnapshot_spaces (identity.device view now) (h.store i) p.2 with heq | heq
      · rw [spaces_of_kept heq]
        exact hs.stored i
      · rw [spaces_of_kept heq]
        refine allStored_merges _ ?_ (hs.sent p (List.mem_of_getElem? hp)) (h.store i, .default) (hs.stored i)
        intro ours incoming space hours hincoming _ hdistinct hmerge
        obtain ⟨-, hspace, -, hepoch⟩ := covers_of_resign hours.1 hdistinct hmerge
        exact ⟨hspace, hepoch⟩
    · exact hs.stored j

theorem sound_run {acts : List (DeviceAct ι)} (hrun : run (Household.step identity) (Household.empty ι) acts = some h) : Sound h := by
  refine run_invariant (fun (_ : List (DeviceAct ι)) (h : Household ι) => Sound h) ?_ ?_ hrun
  · refine ⟨fun i k tree hlook => ?_, fun p hp => absurd hp List.not_mem_nil⟩
    exact absurd hlook (by simp [Household.empty, RoomStore.empty])
  · intro _ act h₁ h₂ hs hstep
    exact sound_step hs hstep

/-! ### Adoptions on top of the newest epoch -/

/-- The copies of a Space are one line: one tree for each epoch, the later ones with the ids of the earlier, each announced. -/
structure Linear (H : Hashing D) (h : Household ι) : Prop where
  same : ∀ c c', h.Copies c → h.Copies c' → c.spaceId = c'.spaceId → c.epoch = c'.epoch → c = c'
  grows : ∀ c c', h.Copies c → h.Copies c' → c.spaceId = c'.spaceId → c.epoch < c'.epoch → ∀ k ∈ nodeIds c, k ∈ nodeIds c'
  announced : ∀ c, h.Copies c → ∃ p ∈ h.announced, NamesEpoch p.2 c
  roots : ∀ p ∈ h.announced, ∀ c, h.Copies c → NamesEpoch p.2 c → p.2.rootHash = c.rootHash H
  one : ∀ p ∈ h.announced, ∀ q ∈ h.announced, p.2.spaceId = q.2.spaceId → p.2.epoch = q.2.epoch → p.2.rootHash = q.2.rootHash
  positive : ∀ p ∈ h.announced, 0 < p.2.epoch

omit [DecidableEq ι] in
/-- No new copy and no new root. -/
theorem Linear.mono {H : Hashing D} (hl : Linear H h) (hcopies : ∀ c, h'.Copies c → h.Copies c) (hannounced : h'.announced = h.announced) :
    Linear H h' where
  same c c' hc hc' := hl.same c c' (hcopies c hc) (hcopies c' hc')
  grows c c' hc hc' := hl.grows c c' (hcopies c hc) (hcopies c' hc')
  announced c hc := hannounced ▸ hl.announced c (hcopies c hc)
  roots p hp c hc := hl.roots p (hannounced ▸ hp) c (hcopies c hc)
  one p hp q hq := hl.one p (hannounced ▸ hp) q (hannounced ▸ hq)
  positive p hp := hl.positive p (hannounced ▸ hp)

omit [DecidableEq ι] in
/-- Of two copies in one line the later covers the other, so no merge of them signs anew. -/
theorem Linear.not_resign {H : Hashing D} (hl : Linear H h) {ours incoming space : Space} (ho : h.Copies ours) (hi : h.Copies incoming)
    (hid : ours.spaceId = incoming.spaceId) (hours : ours.Distinct) (hincoming : incoming.Distinct) :
    mergeSpace H (some ours) incoming ≠ .resign space := by
  intro hmerge
  obtain ⟨⟨h₁, h₂⟩, -⟩ := covers_of_resign hours hincoming hmerge
  rcases lt_trichotomy ours.epoch incoming.epoch with hlt | heq | hgt
  · refine h₁ ⟨fun mine hmine => ?_, hlt.le⟩
    obtain ⟨node, hnode, hnodeId⟩ := List.mem_map.mp (hl.grows _ _ ho hi hid hlt _ (List.mem_map_of_mem hmine))
    exact ⟨node, hnode, hnodeId, Or.inr (Or.inl hlt)⟩
  · have hsame := hl.same _ _ ho hi hid heq
    exact h₁ ⟨fun mine hmine => ⟨mine, hsame ▸ hmine, rfl, Or.inl rfl⟩, heq.le⟩
  · refine h₂ ⟨fun node hnode => ?_, hgt.le⟩
    obtain ⟨mine, hmine, hmineId⟩ := List.mem_map.mp (hl.grows _ _ hi ho hid.symm hgt _ (List.mem_map_of_mem hnode))
    refine ⟨mine, hmine, hmineId, Or.inr ?_⟩
    rintro (hlt | ⟨heq, -⟩)
    · exact absurd hlt hgt.asymm
    · exact absurd heq hgt.ne

omit [DecidableEq ι] in
/-- A tree that is there already is announced once more. -/
theorem Linear.repeated {H : Hashing D} (hl : Linear H h) (hcopies : ∀ c, h'.Copies c → h.Copies c) {tree : Space} (ht : h.Copies tree)
    {p : ι × SignedSpaceRoot} (hp : NamesEpoch p.2 tree) (hhash : p.2.rootHash = tree.rootHash H)
    (hannounced : h'.announced = h.announced ++ [p]) : Linear H h' := by
  have hold (q : ι × SignedSpaceRoot) (hq : q ∈ h'.announced) : q ∈ h.announced ∨ q = p := by
    rw [hannounced] at hq
    simpa using hq
  refine ⟨fun c c' hc hc' => hl.same c c' (hcopies c hc) (hcopies c' hc'),
    fun c c' hc hc' => hl.grows c c' (hcopies c hc) (hcopies c' hc'), fun c hc => ?_, fun q hq c hc hnames => ?_,
    fun q hq r hr hid hepoch => ?_, fun q hq => ?_⟩
  · obtain ⟨q, hq, hnames⟩ := hl.announced c (hcopies c hc)
    exact ⟨q, hannounced ▸ List.mem_append_left _ hq, hnames⟩
  · rcases hold q hq with hq | rfl
    · exact hl.roots q hq c (hcopies c hc) hnames
    · rw [hhash, hl.same tree c ht (hcopies c hc) (hp.1.symm.trans hnames.1) (hp.2.symm.trans hnames.2)]
  · rcases hold q hq with hq | rfl
    · rcases hold r hr with hr | rfl
      · exact hl.one q hq r hr hid hepoch
      · rw [hhash]
        exact hl.roots q hq tree ht ⟨hid.trans hp.1, hepoch.trans hp.2⟩
    · rw [hhash]
      rcases hold r hr with hr | rfl
      · exact (hl.roots r hr tree ht ⟨hid.symm.trans hp.1, hepoch.symm.trans hp.2⟩).symm
      · exact hhash.symm
  · rcases hold q hq with hq | rfl
    · exact hl.positive q hq
    · obtain ⟨r, hr, hnames⟩ := hl.announced tree ht
      rw [hp.2, ← hnames.2]
      exact hl.positive r hr

omit [DecidableEq ι] in
/-- A tree at the epoch past all that was announced, with the ids of the newest. -/
theorem Linear.onTop {H : Hashing D} (hl : Linear H h) {tree : Space} (hcopies : ∀ c, h'.Copies c → c = tree ∨ h.Copies c)
    {p : ι × SignedSpaceRoot} (hp : NamesEpoch p.2 tree) (hhash : p.2.rootHash = tree.rootHash H)
    (hannounced : h'.announced = h.announced ++ [p])
    (htop : ∀ q ∈ h.announced, q.2.spaceId = tree.spaceId → q.2.epoch < tree.epoch)
    (hids : ∀ c, h.Copies c → c.spaceId = tree.spaceId → ∀ k ∈ nodeIds c, k ∈ nodeIds tree) (hpos : 0 < tree.epoch) : Linear H h' := by
  have hold (q : ι × SignedSpaceRoot) (hq : q ∈ h'.announced) : q ∈ h.announced ∨ q = p := by
    rw [hannounced] at hq
    simpa using hq
  have hbelow (c : Space) (hc : h.Copies c) (hid : c.spaceId = tree.spaceId) : c.epoch < tree.epoch := by
    obtain ⟨q, hq, hnames⟩ := hl.announced c hc
    rw [← hnames.2]
    exact htop q hq (hnames.1.trans hid)
  refine ⟨fun c c' hc hc' hid hepoch => ?_, fun c c' hc hc' hid hlt => ?_, fun c hc => ?_, fun q hq c hc hnames => ?_,
    fun q hq r hr hid hepoch => ?_, fun q hq => ?_⟩
  · rcases hcopies c hc with rfl | hc
    · rcases hcopies c' hc' with rfl | hc'
      · rfl
      · exact absurd hepoch (hbelow c' hc' hid.symm).ne'
    · rcases hcopies c' hc' with rfl | hc'
      · exact absurd hepoch (hbelow c hc hid).ne
      · exact hl.same c c' hc hc' hid hepoch
  · rcases hcopies c hc with rfl | hc
    · rcases hcopies c' hc' with rfl | hc'
      · exact absurd hlt (lt_irrefl _)
      · exact absurd hlt (hbelow c' hc' hid.symm).asymm
    · rcases hcopies c' hc' with rfl | hc'
      · exact hids c hc hid
      · exact hl.grows c c' hc hc' hid hlt
  · rcases hcopies c hc with rfl | hc
    · exact ⟨p, hannounced ▸ List.mem_append_right _ (List.mem_singleton_self p), hp⟩
    · obtain ⟨q, hq, hnames⟩ := hl.announced c hc
      exact ⟨q, hannounced ▸ List.mem_append_left _ hq, hnames⟩
  · rcases hold q hq with hq | rfl
    · rcases hcopies c hc with rfl | hc
      · exact absurd hnames.2 (htop q hq hnames.1).ne
      · exact hl.roots q hq c hc hnames
    · rcases hcopies c hc with rfl | hc
      · exact hhash
      · exact absurd (hp.2.symm.trans hnames.2) (hbelow c hc (hnames.1.symm.trans hp.1)).ne'
  · rcases hold q hq with hq | rfl
    · rcases hold r hr with hr | rfl
      · exact hl.one q hq r hr hid hepoch
      · exact absurd (hepoch.trans hp.2) (htop q hq (hid.trans hp.1)).ne
    · rcases hold r hr with hr | rfl
      · exact absurd (hepoch.symm.trans hp.2) (htop r hr (hid.symm.trans hp.1)).ne
      · rfl
  · rcases hold q hq with hq | rfl
    · exact hl.positive q hq
    · rw [hp.2]
      exact hpos

/-- The copies after the store of one device changed. -/
theorem copies_setStore {i : ι} {s : RoomStore} {roots : List SignedSpaceRoot} {c : Space}
    (hc : ((h.setStore i s).announce i roots).Copies c) : (∃ k, s.spaces.lookup k = some c) ∨ h.Copies c := by
  rcases hc with ⟨j, k, hlook⟩ | hsent
  · rw [Household.announce_store, Household.setStore_store] at hlook
    by_cases hj : j = i
    · rw [if_pos hj] at hlook
      exact Or.inl ⟨k, hlook⟩
    · rw [if_neg hj] at hlook
      exact Or.inr (Or.inl ⟨j, k, hlook⟩)
  · exact Or.inr (Or.inr hsent)

theorem linear_adopt (hs : Sound h) (hl : Linear identity.hashing h) {i : ι}
    {supernodeId roomId roomName roomType parentNodeId : String} {now : Nat}
    (hmeets : AdoptsOnTop identity h (.adoptRoomIntoSpace i supernodeId roomId roomName roomType parentNodeId now))
    (hstep : h.step identity (.adoptRoomIntoSpace i supernodeId roomId roomName roomType parentNodeId now) = some h') :
    Linear identity.hashing h' := by
  obtain ⟨tree, htree⟩ := @adopted _ identity _ (hs.stored i) supernodeId roomId roomName roomType parentNodeId now
  have heq := (Option.some.inj hstep).symm
  have hstored (k : String) (c : Space) (hlook : ((h.store i).adoptRoomIntoSpace identity.hashing identity.sign identity.ownerPub
      supernodeId roomId roomName roomType parentNodeId now).1.spaces.lookup k = some c) : c = tree ∨ h.Copies c := by
    rw [htree.spaces] at hlook
    by_cases hk : k = tree.spaceId
    · rw [hk, AList.lookup_insert] at hlook
      exact Or.inl (Option.some.inj hlook).symm
    · rw [AList.lookup_insert_ne hk] at hlook
      exact Or.inr (Or.inl ⟨i, k, hlook⟩)
  have hcopies (c : Space) (hc : h'.Copies c) : c = tree ∨ h.Copies c := by
    rw [heq] at hc
    rcases copies_setStore hc with ⟨k, hlook⟩ | hc
    · exact hstored k c hlook
    · exact Or.inr hc
  have hannounced := congrArg Household.announced heq
  obtain ⟨hnext, hcond⟩ := hmeets
  have hepoch := htree.epoch_eq
  rw [nextEpoch_eq hnext] at hepoch
  rcases hcond with htop | ⟨j, hsame⟩
  · refine hl.onTop hcopies htree.names htree.hash hannounced ?_ ?_ (by omega)
    · intro q hq hid
      have hle := htop q hq (hid.trans htree.id_eq)
      omega
    · intro c hc hid k hk
      obtain ⟨q, hq, hnames⟩ := hl.announced c hc
      have hle := htop q hq (hnames.1.trans (hid.trans htree.id_eq))
      have hpos := hl.positive q hq
      rw [hnames.2] at hle hpos
      cases hown : (h.store i).spaces.lookup (deriveNodeId identity.hashing "" identity.ownerPub supernodeId) with
      | none =>
        rw [hown, Option.elim_none] at hle
        omega
      | some own =>
        have hownCopy : h.Copies own := Or.inl ⟨i, _, hown⟩
        have hownId := ((hs.stored i) _ _ hown).1
        have hids := hid.trans (htree.id_eq.trans hownId.symm)
        rw [hown, Option.elim_some] at hle
        refine htree.ids own hown k ?_
        rcases hle.lt_or_eq with hlt | heq
        · exact hl.grows c own hc hownCopy hids hlt k hk
        · exact hl.same c own hc hownCopy hids heq ▸ hk
  · have ht : h.Copies tree := by
      rw [htree.spaces, ← htree.id_eq, AList.lookup_insert] at hsame
      exact Or.inl ⟨j, _, hsame⟩
    refine hl.repeated (fun c hc => ?_) ht htree.names htree.hash hannounced
    rcases hcopies c hc with rfl | hc
    · exact ht
    · exact hc

theorem linear_step {act : DeviceAct ι} (hs : Sound h) (hl : Linear identity.hashing h) (hmeets : AdoptsOnTop identity h act)
    (hstep : h.step identity act = some h') : Linear identity.hashing h' := by
  rcases step_cases hstep with ⟨i, supernodeId, roomId, roomName, roomType, parentNodeId, now, rfl, -⟩ | ⟨hspaces, hannounced, hsent⟩ |
    ⟨i, n, view, now, p, -, hp, rfl⟩
  · exact linear_adopt hs hl hmeets hstep
  · refine hl.mono (fun c hc => ?_) hannounced
    rcases hc with ⟨i, k, hlook⟩ | ⟨p, hp, hmem⟩
    · exact Or.inl ⟨i, k, hspaces i ▸ hlook⟩
    · rcases hsent p hp with hp | ⟨i, heq⟩
      · exact Or.inr ⟨p, hp, hmem⟩
      · rw [heq] at hmem
        obtain ⟨k, hlook⟩ := stored_of_snapshot hmem
        exact Or.inl ⟨i, k, hlook⟩
  · -- The merge takes copies that are there and signs none.
    have htrees : ∀ tree ∈ p.2.spaces, h.Copies tree := fun tree htree => Or.inr ⟨p, List.mem_of_getElem? hp, htree⟩
    have hacc : AllStored h.Copies (h.store i).spaces := fun k tree hlook => ⟨((hs.stored i) k tree hlook).1, Or.inl ⟨i, k, hlook⟩⟩
    have hnone (ours incoming space : Space) (ho : h.Copies ours) (hi : h.Copies incoming) (hid : ours.spaceId = incoming.spaceId)
        (hdistinct : incoming.Distinct) : mergeSpace identity.hashing (some ours) incoming ≠ .resign space :=
      hl.not_resign ho hi hid (hs.copies ho).1 hdistinct
    have hmerge : AllStored h.Copies ((h.store i).mergeOwnDeviceSnapshot (identity.device view now) p.2).1.spaces ∧
        ((h.store i).mergeOwnDeviceSnapshot (identity.device view now) p.2).2.roots = [] := by
      rcases mergeOwnDeviceSnapshot_spaces (identity.device view now) (h.store i) p.2 with heq | heq
      · rw [spaces_of_kept heq, roots_of_kept heq]
        exact ⟨hacc, rfl⟩
      · have hstored := allStored_merges (identity.device view now)
          (fun ours incoming space ho hi hid hd hm => absurd hm (hnone ours incoming space ho hi hid hd)) htrees
          (h.store i, OwnRoomMerge.default) hacc
        have hroots := roots_merges (identity.device view now) hnone htrees (h.store i, OwnRoomMerge.default) hacc
        exact ⟨(spaces_of_kept heq).symm ▸ hstored, (roots_of_kept heq).trans hroots⟩
    refine hl.mono (fun c hc => ?_) ?_
    · rcases copies_setStore hc with ⟨k, hlook⟩ | hc
      · exact (hmerge.1 k c hlook).2
      · exact hc
    · rw [hmerge.2]
      exact List.append_nil _

theorem linear_run {acts : List (DeviceAct ι)} (hmeets : Meets (Household.step identity) (AdoptsOnTop identity) (Household.empty ι) acts)
    (hrun : run (Household.step identity) (Household.empty ι) acts = some h) : Linear identity.hashing h := by
  have hnone (c : Space) : ¬ (Household.empty ι).Copies c := by
    rintro (⟨i, k, hlook⟩ | ⟨p, hp, -⟩)
    · exact absurd hlook (by simp [Household.empty, RoomStore.empty])
    · exact absurd hp List.not_mem_nil
  have hinv := meets_invariant (fun h : Household ι => Sound h ∧ Linear identity.hashing h) ?_ ?_ hmeets hrun
  · exact hinv.2
  · rintro h₁ act h₂ ⟨hs, hl⟩ hcond hstep
    exact ⟨sound_step hs hstep, linear_step hs hl hcond hstep⟩
  · refine ⟨⟨fun i k tree hlook => (hnone tree (Or.inl ⟨i, k, hlook⟩)).elim, fun p hp => absurd hp List.not_mem_nil⟩,
      fun c _ hc => (hnone c hc).elim, fun c _ hc => (hnone c hc).elim, fun c hc => (hnone c hc).elim, ?_, ?_, ?_⟩
    · exact fun p hp => absurd hp List.not_mem_nil
    · exact fun p hp => absurd hp List.not_mem_nil
    · exact fun p hp => absurd hp List.not_mem_nil

end

end SpaceEpochsAux

open SpaceEpochsAux

/-- **One epoch, one tree.** In every run of the devices, the merge of two copies is past every copy with other nodes exactly when the
copies are not at one epoch with one of them covering the other; where rooms are adopted on top of the newest epoch, no device holds or
announces a tree at an epoch for which another was announced; and a supernode that has a root refuses another of that epoch. -/
theorem epochs_name_trees {ι D : Type} [DecidableEq ι] (identity : Identity D) {acts : List (DeviceAct ι)} {h : Household ι}
    (hrun : run (Household.step identity) (Household.empty ι) acts = some h) :
    (∀ i k ours incoming, (h.store i).spaces.lookup k = some ours → h.Copies incoming →
      (MergesPast identity.hashing ours incoming ↔ EpochsApart identity.hashing ours incoming)) ∧
    (Meets (Household.step identity) (AdoptsOnTop identity) (Household.empty ι) acts → OneRoot identity.hashing h) ∧
    ∀ (ed25519Verify : Supernode.Ed25519) (supernode : Supernode.SpaceRootStore) (held root : SignedSpaceRoot),
      supernode.roots.lookup root.spaceId = some held → root.epoch = held.epoch → root.rootHash ≠ held.rootHash →
      (supernode.accept ed25519Verify root).2 = false ∧ (supernode.accept ed25519Verify root).1.roots = supernode.roots := by
  have hsound := sound_run hrun
  refine ⟨fun i k ours incoming hlook hc => ?_, fun hmeets => ?_, fun ed25519Verify supernode held root hheld hepoch hhash => ?_⟩
  · have hours := (hsound.stored i k ours hlook).2
    have hincoming := hsound.copies hc
    exact mergesPast_iff hours.1 hincoming.1 hours.2 hincoming.2
  · have hlinear := linear_run hmeets hrun
    exact ⟨fun i k tree hlook p hp hnames => hlinear.roots p hp tree (Or.inl ⟨i, k, hlook⟩) hnames, hlinear.one⟩
  · unfold Supernode.SpaceRootStore.accept
    split
    · exact ⟨rfl, rfl⟩
    · dsimp only
      rw [hheld]
      dsimp only
      split
      · exact ⟨rfl, rfl⟩
      · rw [if_pos ⟨hepoch, hhash⟩]
        exact ⟨rfl, rfl⟩

/-! ## Two devices of one identity -/

namespace SpaceEpochsAux

/-- The identity whose digests are the messages. -/
def plainIdentity : Identity (List UInt8) where
  hashing := SpaceSettlingAux.plainHashing
  ownerPub := "me"
  sign bytes := bytes

/-- The Space on the host "h" before its first room. -/
def home : Space := Space.newServer SpaceSettlingAux.plainHashing "me" "h"

/-- A device adopts a room into that Space. -/
def adopting (i : Bool) (roomId : String) : DeviceAct Bool := .adoptRoomIntoSpace i "h" roomId roomId "public" "" 1

/-- The Space with some rooms, one adopted after the other. -/
def homeWith (rooms : List String) : Space := rooms.foldl SpaceSettlingAux.madeRoom home

theorem homeWith_owned (rooms : List String) : (homeWith rooms).spaceId = home.spaceId ∧ (homeWith rooms).ownerPub = "me" := by
  unfold homeWith
  induction rooms using List.reverseRecOn with
  | nil => exact ⟨rfl, rfl⟩
  | append_singleton rooms roomId ih =>
    rw [List.foldl_append]
    exact ih

theorem homeWith_append (rooms : List String) (roomId : String) :
    homeWith (rooms ++ [roomId]) = SpaceSettlingAux.madeRoom (homeWith rooms) roomId := List.foldl_append

theorem step_adopting (h : Household Bool) (i : Bool) (rooms : List String) (roomId : String)
    (hown : ((h.store i).spaces.lookup home.spaceId).getD home = homeWith rooms) :
    ∃ h', h.step plainIdentity (adopting i roomId) = some h' ∧
      (h'.store i).spaces.lookup home.spaceId = some (homeWith (rooms ++ [roomId])) ∧ h'.store (!i) = h.store (!i) := by
  obtain ⟨hid, howner⟩ := homeWith_owned rooms
  have hpublic : (if "public".toList.map Char.toLower = "private".toList then "private" else "public") = "public" := if_neg (by decide)
  refine ⟨_, rfl, ?_, ?_⟩
  · rw [Household.announce_store, Household.setStore_store, if_pos rfl]
    show AList.lookup home.spaceId (AList.insert home.spaceId (Space.upsertNode (((h.store i).spaces.lookup home.spaceId).getD home)
      { nodeId := roomId, parentId := home.spaceId, kind := "room", name := roomId
        nodeType := if "public".toList.map Char.toLower = "private".toList then "private" else "public"
        ownerPub := "me", invitePolicy := "", inherit := false, keyCommit := "" }) (h.store i).spaces) = _
    rw [AList.lookup_insert, hown, homeWith_append, SpaceSettlingAux.madeRoom, hid, howner, hpublic]
  · rw [Household.announce_store, Household.setStore_store, if_neg (by cases i <;> decide)]

/-- The devices adopt a room each. -/
theorem run_apart : ∃ h, run (Household.step plainIdentity) (Household.empty Bool) [adopting false "r", adopting true "q"] = some h ∧
    (h.store false).spaces.lookup home.spaceId = some (homeWith ["r"]) ∧
    (h.store true).spaces.lookup home.spaceId = some (homeWith ["q"]) := by
  obtain ⟨h₁, hstep₁, hown₁, hother₁⟩ := step_adopting (Household.empty Bool) false [] "r" rfl
  have htrue : h₁.store true = RoomStore.empty := hother₁
  obtain ⟨h₂, hstep₂, hown₂, hother₂⟩ := step_adopting h₁ true [] "q" (by rw [htrue]; rfl)
  have hfalse : h₂.store false = h₁.store false := hother₂
  refine ⟨h₂, ?_, hfalse.symm ▸ hown₁, hown₂⟩
  rw [run_cons, hstep₁, Option.bind_some, run_cons, hstep₂]
  rfl

/-- One device adopts a room twice, the other that room and one more. -/
theorem run_contained : ∃ h, run (Household.step plainIdentity) (Household.empty Bool)
      [adopting false "r", adopting false "r", adopting true "r", adopting true "q"] = some h ∧
    (h.store false).spaces.lookup home.spaceId = some (homeWith ["r", "r"]) ∧
    (h.store true).spaces.lookup home.spaceId = some (homeWith ["r", "q"]) := by
  obtain ⟨h₁, hstep₁, hown₁, hother₁⟩ := step_adopting (Household.empty Bool) false [] "r" rfl
  obtain ⟨h₂, hstep₂, hown₂, hother₂⟩ := step_adopting h₁ false ["r"] "r" (by rw [hown₁]; rfl)
  have htrue : h₂.store true = RoomStore.empty := hother₂.trans hother₁
  obtain ⟨h₃, hstep₃, hown₃, hother₃⟩ := step_adopting h₂ true [] "r" (by rw [htrue]; rfl)
  obtain ⟨h₄, hstep₄, hown₄, hother₄⟩ := step_adopting h₃ true ["r"] "q" (by rw [hown₃]; rfl)
  have hfalse : h₄.store false = h₂.store false := hother₄.trans hother₃
  refine ⟨h₄, ?_, hfalse.symm ▸ hown₂, hown₄⟩
  rw [run_cons, hstep₁, Option.bind_some, run_cons, hstep₂, Option.bind_some, run_cons, hstep₃, Option.bind_some, run_cons, hstep₄]
  rfl

theorem ids_of_incomingCovers {H : Hashing (List UInt8)} {ours incoming : Space} (h : IncomingCovers H ours incoming) :
    ∀ k ∈ nodeIds ours, k ∈ nodeIds incoming := by
  intro k hk
  obtain ⟨mine, hmine, rfl⟩ := List.mem_map.mp hk
  obtain ⟨node, hnode, hid, -⟩ := h mine hmine
  exact List.mem_map.mpr ⟨node, hnode, hid⟩

theorem ids_of_oursCovers {H : Hashing (List UInt8)} {ours incoming : Space} (h : OursCovers H ours incoming) :
    ∀ k ∈ nodeIds incoming, k ∈ nodeIds ours := by
  intro k hk
  obtain ⟨node, hnode, rfl⟩ := List.mem_map.mp hk
  obtain ⟨mine, hmine, hid, -⟩ := h node hnode
  exact List.mem_map.mpr ⟨mine, hmine, hid⟩

theorem ids_apart : "r" ∈ nodeIds (homeWith ["r"]) ∧ "r" ∉ nodeIds (homeWith ["q"]) ∧ "q" ∈ nodeIds (homeWith ["q"]) ∧
    "q" ∉ nodeIds (homeWith ["r"]) := by
  decide +kernel

theorem ids_contained : "q" ∈ nodeIds (homeWith ["r", "q"]) ∧ "q" ∉ nodeIds (homeWith ["r", "r"]) := by
  decide +kernel

theorem nodes_contained : ∀ node ∈ (homeWith ["r", "r"]).nodes, node ∈ (homeWith ["r", "q"]).nodes := by
  decide +kernel

end SpaceEpochsAux

/-- The two devices hold copies of one epoch that neither covers, and their merge is past both; one device alone keeps one root for
each epoch. -/
theorem epochs_name_trees_apart :
    (∃ h : Household Bool, (h.store false).spaces.lookup home.spaceId = some (homeWith ["r"]) ∧
      (h.store true).spaces.lookup home.spaceId = some (homeWith ["q"]) ∧
      MergesPast plainIdentity.hashing (homeWith ["r"]) (homeWith ["q"])) ∧
    ∃ h, run (Household.step plainIdentity) (Household.empty Bool) [adopting false "r"] = some h ∧ OneRoot plainIdentity.hashing h := by
  constructor
  · obtain ⟨h, hrun, hfalse, htrue⟩ := run_apart
    obtain ⟨hr, hr', hq, hq'⟩ := ids_apart
    refine ⟨h, hfalse, htrue, ((epochs_name_trees plainIdentity hrun).1 false _ _ _ hfalse (Or.inl ⟨true, _, htrue⟩)).mpr ⟨?_, ?_⟩⟩
    · rintro - (hcovers | hcovers)
      · exact absurd (ids_of_incomingCovers hcovers _ hr) hr'
      · exact absurd (ids_of_oursCovers hcovers _ hq) hq'
    · intro _ _
      decide +kernel
  · have hrun : run (Household.step plainIdentity) (Household.empty Bool) [adopting false "r"] = some _ := rfl
    exact ⟨_, hrun, (epochs_name_trees plainIdentity hrun).2.1
      ⟨⟨Nat.lt_of_lt_of_eq (by decide) rfl, Or.inl fun p hp => absurd hp List.not_mem_nil⟩, fun _ _ => trivial⟩⟩

/-- Two devices can hold copies of one epoch whose merge is at that epoch and has the nodes of one of them only. -/
theorem merge_stays_at_epoch :
    ¬ ∀ (acts : List (DeviceAct Bool)) (h : Household Bool),
      run (Household.step plainIdentity) (Household.empty Bool) acts = some h → ∀ i j k ours incoming,
        (h.store i).spaces.lookup k = some ours → (h.store j).spaces.lookup k = some incoming →
        MergesPast plainIdentity.hashing ours incoming := by
  intro hclaim
  obtain ⟨h, hrun, hfalse, htrue⟩ := run_contained
  have hsound := sound_run hrun
  obtain ⟨ho, hours⟩ := (hsound.stored false _ _ hfalse).2
  obtain ⟨hi, hincoming⟩ := (hsound.stored true _ _ htrue).2
  have hapart := ((mergesPast_iff ho hi hours hincoming).mp (hclaim _ h hrun false true _ _ _ hfalse htrue)).apart
  have hsame := hapart (by decide +kernel) (Or.inl fun mine hmine => ⟨mine, nodes_contained mine hmine, rfl, Or.inl rfl⟩)
  obtain ⟨hq, hq'⟩ := ids_contained
  obtain ⟨node, hnode, hid⟩ := List.mem_map.mp hq
  exact hq' (List.mem_map.mpr ⟨node, (hsame node).mpr hnode, hid⟩)

end DoubleSlash.Store
