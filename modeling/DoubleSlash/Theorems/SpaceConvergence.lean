import DoubleSlash.Supernode.SpaceRoots

/-!
# The newest root of a Space

What the root store of a node holds of a Space after any roots in any order: the newest of whichever signer came first. It is the
owner's newest root exactly when the first root that verifies names its signer as the newest of the owner's does.
-/

namespace DoubleSlash.Supernode

open Assoc Codec Spaces Text

variable (ed25519Verify : Ed25519)

/-- The root names the Space and its signature verifies. -/
def RootOf (s : String) (root : SignedSpaceRoot) : Prop := root.spaceId = s ∧ verifyRoot ed25519Verify root = true

/-- It is also signed by the owner, with whatever padding. -/
def OwnRoot (o s : String) (root : SignedSpaceRoot) : Prop :=
  RootOf ed25519Verify s root ∧ trimEndMatches '=' root.signer = trimEndMatches '=' o

instance (s : String) (root : SignedSpaceRoot) : Decidable (RootOf ed25519Verify s root) :=
  inferInstanceAs (Decidable (_ ∧ _))

instance (o s : String) (root : SignedSpaceRoot) : Decidable (OwnRoot ed25519Verify o s root) :=
  inferInstanceAs (Decidable (_ ∧ _))

/-- The store after roots are offered to it one by one. -/
def offered (roots : List SignedSpaceRoot) : SpaceRootStore :=
  roots.foldl (fun store root => (store.accept ed25519Verify root).1) SpaceRootStore.empty

/-- The root held of a Space. -/
def heldRoot (roots : List SignedSpaceRoot) (s : String) : Option SignedSpaceRoot :=
  (offered ed25519Verify roots).roots.lookup s

/-- What is signed of a root. -/
def signedPart (root : SignedSpaceRoot) : SignedSpaceRoot := { root with signature := "" }

/-- No root the owner signed is newer, and what it signed for that epoch is this one. -/
structure Newest (o s : String) (roots : List SignedSpaceRoot) (root : SignedSpaceRoot) : Prop where
  mem : root ∈ roots
  own : OwnRoot ed25519Verify o s root
  highest : ∀ r ∈ roots, OwnRoot ed25519Verify o s r → r.epoch ≤ root.epoch
  only : ∀ r ∈ roots, OwnRoot ed25519Verify o s r → r.epoch = root.epoch → signedPart r = signedPart root

/-- The store ends with the owner's newest root, when the owner has one, and its epoch never went down. -/
structure Converges (o s : String) (roots : List SignedSpaceRoot) : Prop where
  newest : (∃ r ∈ roots, OwnRoot ed25519Verify o s r) → ∃ root, heldRoot ed25519Verify roots s = some root ∧
    Newest ed25519Verify o s roots root
  monotone : ∀ pre root post, roots = pre ++ root :: post → ∀ before, heldRoot ed25519Verify pre s = some before →
    ∃ after, heldRoot ed25519Verify (pre ++ [root]) s = some after ∧ before.epoch ≤ after.epoch

/-- The owner signed at most one root for each epoch. -/
def SignsOnce (o s : String) (roots : List SignedSpaceRoot) : Prop :=
  ∀ r ∈ roots, ∀ r' ∈ roots, OwnRoot ed25519Verify o s r → OwnRoot ed25519Verify o s r' → r.epoch = r'.epoch →
    signedPart r = signedPart r'

/-- The first root that verifies for the Space has its signer spelled as the newest roots of the owner have. -/
def OwnerFirst (o s : String) (roots : List SignedSpaceRoot) : Prop :=
  ∀ first, (roots.find? fun r => decide (RootOf ed25519Verify s r)) = some first →
    ∀ r ∈ roots, OwnRoot ed25519Verify o s r → (∀ r' ∈ roots, OwnRoot ed25519Verify o s r' → r'.epoch ≤ r.epoch) →
      r.signer = first.signer

variable {ed25519Verify}

namespace SpaceConvergenceAux

variable {s : String} {store : SpaceRootStore} {root : SignedSpaceRoot} {roots : List SignedSpaceRoot}

/-- A root that names another Space or does not verify changes nothing of this one. -/
theorem lookup_accept_other (h : ¬RootOf ed25519Verify s root) :
    (store.accept ed25519Verify root).1.roots.lookup s = store.roots.lookup s := by
  unfold SpaceRootStore.accept
  by_cases hverify : verifyRoot ed25519Verify root = false
  · rw [if_pos hverify]
  · have hs : s ≠ root.spaceId := by
      intro hs
      exact h ⟨hs.symm, by simpa using hverify⟩
    rw [if_neg hverify]
    cases store.roots.lookup root.spaceId with
    | none => exact AList.lookup_insert_ne hs
    | some existing =>
      dsimp only
      split
      · rfl
      · split
        · rfl
        · split
          · rfl
          · exact AList.lookup_insert_ne hs

/-- The first root of a Space is held. -/
theorem lookup_accept_first (h : RootOf ed25519Verify s root) (hnone : store.roots.lookup s = none) :
    (store.accept ed25519Verify root).1.roots.lookup s = some root := by
  obtain ⟨rfl, hverify⟩ := h
  unfold SpaceRootStore.accept
  rw [if_neg (by simp [hverify]), hnone]
  exact AList.lookup_insert _

/-- A later one replaces it when it has the same signer and is newer. -/
theorem lookup_accept_later {existing : SignedSpaceRoot} (h : RootOf ed25519Verify s root)
    (hsome : store.roots.lookup s = some existing) :
    (store.accept ed25519Verify root).1.roots.lookup s =
      some (if root.signer = existing.signer ∧ existing.epoch < root.epoch then root else existing) := by
  obtain ⟨rfl, hverify⟩ := h
  unfold SpaceRootStore.accept
  rw [if_neg (by simp [hverify]), hsome]
  dsimp only
  by_cases hsigner : existing.signer = root.signer
  · rw [if_neg (by simp [hsigner])]
    by_cases hclash : root.epoch = existing.epoch ∧ root.rootHash ≠ existing.rootHash
    · rw [if_pos hclash, if_neg (by omega)]
      exact hsome
    · rw [if_neg hclash]
      by_cases hold : root.epoch ≤ existing.epoch
      · rw [if_pos hold, if_neg (by omega)]
        exact hsome
      · rw [if_neg hold, if_pos ⟨hsigner.symm, by omega⟩]
        exact AList.lookup_insert _
  · rw [if_pos hsigner, if_neg fun hboth => hsigner hboth.1.symm]
    exact hsome

theorem heldRoot_concat : heldRoot ed25519Verify (roots ++ [root]) s =
    ((offered ed25519Verify roots).accept ed25519Verify root).1.roots.lookup s := by
  simp [heldRoot, offered]

variable (ed25519Verify) in
/-- What is held of a Space: the newest root of the signer that came first. -/
structure HeldBy (s : String) (roots : List SignedSpaceRoot) (first root : SignedSpaceRoot) : Prop where
  mem : root ∈ roots
  rootOf : RootOf ed25519Verify s root
  signer : root.signer = first.signer
  highest : ∀ r ∈ roots, RootOf ed25519Verify s r → r.signer = first.signer → r.epoch ≤ root.epoch

/-- One more root: what is held stays, or the new root takes its place. -/
theorem heldBy_concat {first existing : SignedSpaceRoot} (h : HeldBy ed25519Verify s roots first existing)
    (hroot : RootOf ed25519Verify s root) :
    HeldBy ed25519Verify s (roots ++ [root]) first
      (if root.signer = existing.signer ∧ existing.epoch < root.epoch then root else existing) := by
  by_cases hnew : root.signer = existing.signer ∧ existing.epoch < root.epoch
  · rw [if_pos hnew]
    refine ⟨by simp, hroot, hnew.1.trans h.signer, ?_⟩
    intro r hr hof hsigner
    rcases List.mem_append.mp hr with hr | hr
    · have hle := h.highest r hr hof hsigner
      omega
    · rw [List.mem_singleton.mp hr]
  · rw [if_neg hnew]
    refine ⟨List.mem_append.mpr (Or.inl h.mem), h.rootOf, h.signer, ?_⟩
    intro r hr hof hsigner
    rcases List.mem_append.mp hr with hr | hr
    · exact h.highest r hr hof hsigner
    · rw [List.mem_singleton.mp hr] at hsigner ⊢
      by_contra hlt
      exact hnew ⟨hsigner.trans h.signer.symm, by omega⟩

/-- **What is held.** Nothing before a root verifies, then the newest of the signer of the first that does. -/
theorem heldRoot_spec (roots : List SignedSpaceRoot) :
    ((roots.find? fun r => decide (RootOf ed25519Verify s r)) = none → heldRoot ed25519Verify roots s = none) ∧
      ∀ first, (roots.find? fun r => decide (RootOf ed25519Verify s r)) = some first →
        ∃ root, heldRoot ed25519Verify roots s = some root ∧ HeldBy ed25519Verify s roots first root := by
  induction roots using List.reverseRecOn with
  | nil => exact ⟨fun _ => rfl, fun first h => by cases h⟩
  | append_singleton roots root ih =>
    obtain ⟨hnone, hsome⟩ := ih
    simp only [List.find?_append]
    cases hfind : roots.find? fun r => decide (RootOf ed25519Verify s r) with
    | none =>
      by_cases hroot : RootOf ed25519Verify s root
      · have hheld : heldRoot ed25519Verify (roots ++ [root]) s = some root := by
          rw [heldRoot_concat]
          exact lookup_accept_first hroot (hnone hfind)
        simp only [Option.none_or, List.find?_cons, hroot, decide_true]
        refine ⟨(fun h => by cases h), ?_⟩
        intro first hfirst
        obtain rfl := Option.some.inj hfirst
        refine ⟨root, hheld, by simp, hroot, rfl, ?_⟩
        intro r hr hof hsigner
        rcases List.mem_append.mp hr with hr | hr
        · exact absurd hof (by simpa using List.find?_eq_none.mp hfind r hr)
        · rw [List.mem_singleton.mp hr]
      · simp only [Option.none_or, List.find?_cons, hroot, decide_false, List.find?_nil]
        refine ⟨fun _ => ?_, fun first h => by cases h⟩
        rw [heldRoot_concat, lookup_accept_other hroot]
        exact hnone hfind
    | some first =>
      obtain ⟨existing, hheld, hby⟩ := hsome first hfind
      simp only [Option.some_or]
      refine ⟨(fun h => by cases h), ?_⟩
      intro first' hfirst
      obtain rfl := Option.some.inj hfirst
      by_cases hroot : RootOf ed25519Verify s root
      · refine ⟨_, ?_, heldBy_concat hby hroot⟩
        rw [heldRoot_concat]
        exact lookup_accept_later hroot hheld
      · refine ⟨existing, ?_, List.mem_append.mpr (Or.inl hby.mem), hby.rootOf, hby.signer, ?_⟩
        · rw [heldRoot_concat, lookup_accept_other hroot]
          exact hheld
        · intro r hr hof hsigner
          rcases List.mem_append.mp hr with hr | hr
          · exact hby.highest r hr hof hsigner
          · rw [List.mem_singleton.mp hr] at hof
            exact absurd hof hroot

/-- The epoch held of a Space never goes down. -/
theorem epoch_monotone {before : SignedSpaceRoot} (h : heldRoot ed25519Verify roots s = some before) :
    ∃ after, heldRoot ed25519Verify (roots ++ [root]) s = some after ∧ before.epoch ≤ after.epoch := by
  rw [heldRoot_concat]
  by_cases hroot : RootOf ed25519Verify s root
  · refine ⟨_, lookup_accept_later hroot h, ?_⟩
    split <;> omega
  · exact ⟨before, (lookup_accept_other hroot).trans h, le_refl _⟩

/-- Among the owner's roots there is one of the highest epoch. -/
theorem exists_highest {o : String} (h : ∃ r ∈ roots, OwnRoot ed25519Verify o s r) :
    ∃ r ∈ roots, OwnRoot ed25519Verify o s r ∧ ∀ r' ∈ roots, OwnRoot ed25519Verify o s r' → r'.epoch ≤ r.epoch := by
  induction roots with
  | nil =>
    obtain ⟨r, hr, -⟩ := h
    cases hr
  | cons r roots ih =>
    by_cases hrest : ∃ r' ∈ roots, OwnRoot ed25519Verify o s r'
    · obtain ⟨top, hmem, hown, hmax⟩ := ih hrest
      by_cases hr : OwnRoot ed25519Verify o s r ∧ top.epoch < r.epoch
      · refine ⟨r, by simp, hr.1, ?_⟩
        intro r' hr' hown'
        rcases List.mem_cons.mp hr' with rfl | hr'
        · exact le_refl _
        · have hle := hmax r' hr' hown'
          omega
      · refine ⟨top, List.mem_cons_of_mem r hmem, hown, ?_⟩
        intro r' hr' hown'
        rcases List.mem_cons.mp hr' with rfl | hr'
        · by_contra hlt
          exact hr ⟨hown', by omega⟩
        · exact hmax r' hr' hown'
    · obtain ⟨r', hr', hown⟩ := h
      rcases List.mem_cons.mp hr' with rfl | hr'
      · refine ⟨r', by simp, hown, ?_⟩
        intro r'' hr'' hown''
        rcases List.mem_cons.mp hr'' with rfl | hr''
        · exact le_refl _
        · exact absurd ⟨r'', hr'', hown''⟩ hrest
      · exact absurd ⟨r', hr', hown⟩ hrest

end SpaceConvergenceAux

open SpaceConvergenceAux

/-- **When the newest root of the owner is held.** Over every order and repetition of roots, from whoever. -/
theorem converges_iff (o s : String) (roots : List SignedSpaceRoot) (honce : SignsOnce ed25519Verify o s roots) :
    Converges ed25519Verify o s roots ↔ OwnerFirst ed25519Verify o s roots := by
  constructor
  · intro h first hfirst r hr hown hhighest
    obtain ⟨root, hheld, hnewest⟩ := h.newest ⟨r, hr, hown⟩
    obtain ⟨root', hheld', hby⟩ := (heldRoot_spec roots).2 first hfirst
    obtain rfl := Option.some.inj (hheld.symm.trans hheld')
    have hepoch : r.epoch = root.epoch := le_antisymm (hnewest.highest r hr hown) (hhighest root hnewest.mem hnewest.own)
    have hpart := congrArg SignedSpaceRoot.signer (hnewest.only r hr hown hepoch)
    exact hpart.trans hby.signer
  · intro h
    refine ⟨?_, fun pre root post _ before hbefore => epoch_monotone hbefore⟩
    intro hexists
    obtain ⟨top, hmem, hown, hhighest⟩ := exists_highest hexists
    cases hfind : roots.find? fun r => decide (RootOf ed25519Verify s r) with
    | none => exact absurd hown.1 (by simpa using List.find?_eq_none.mp hfind top hmem)
    | some first =>
      have hsigner := h first hfind top hmem hown hhighest
      obtain ⟨root, hheld, hby⟩ := (heldRoot_spec roots).2 first hfind
      have hsame : root.signer = top.signer := hby.signer.trans hsigner.symm
      have hroot : OwnRoot ed25519Verify o s root := ⟨hby.rootOf, by rw [hsame, hown.2]⟩
      have htop : top.epoch ≤ root.epoch := hby.highest top hmem hown.1 hsigner
      refine ⟨root, hheld, hby.mem, hroot, ?_, ?_⟩
      · intro r hr hr'
        exact (hhighest r hr hr').trans htop
      · intro r hr hr' hepoch
        exact honce r hr root hby.mem hr' hroot hepoch

namespace SpaceConvergenceAux

/-- A signature that is the key. -/
def echoVerify : Ed25519 := fun pk sig _ => decide (sig = pk)

/-- A digest that is the message. -/
def echoHashing : Hashing (List UInt8) := Hashing.plain

/-- The owner of a Space, and somebody else. -/
def ownerKey : List UInt8 := List.replicate 32 1

def strangerKey : List UInt8 := List.replicate 32 2

/-- The id of the owner's Space. -/
def homeSpace : String := deriveNodeId echoHashing "" (b64urlEncode ownerKey) "home"

/-- A root of the owner's Space signed with a key. -/
def rootBy (key : List UInt8) (epoch : Nat) : SignedSpaceRoot :=
  { schema := spaceSchema
    spaceId := homeSpace
    epoch := epoch
    rootHash := "00"
    nodeCount := 1
    issuedAt := 7
    signer := b64urlEncode key
    signature := b64urlEncode key }

theorem trim_encode (bytes : List UInt8) : trimEndMatches '=' (b64urlEncode bytes) = b64urlEncode bytes := by
  have hpad := rdropWhile_pad bytes 0
  rw [List.replicate_zero, List.append_nil] at hpad
  unfold trimEndMatches b64urlEncode
  rw [String.toList_ofList, hpad]

theorem decode_encode (bytes : List UInt8) : b64urlDecode (b64urlEncode bytes) = some bytes := by
  unfold b64urlDecode
  rw [trim_encode, b64urlEncode, String.toList_ofList]
  exact b64Groups_b64Body bytes

theorem rootOf_rootBy (key : List UInt8) (epoch : Nat) : RootOf echoVerify homeSpace (rootBy key epoch) := by
  refine ⟨rfl, ?_⟩
  unfold verifyRoot signedBy rootBy
  simp only [decode_encode]
  exact decide_eq_true rfl

/-- Only what the owner's key signed is the owner's. -/
theorem ownRoot_rootBy {key : List UInt8} {epoch : Nat} :
    OwnRoot echoVerify (b64urlEncode ownerKey) homeSpace (rootBy key epoch) ↔ key = ownerKey := by
  constructor
  · intro h
    have hsigner : b64urlEncode key = b64urlEncode ownerKey := by
      have htrim := h.2
      simpa only [rootBy, trim_encode] using htrim
    have hdecode := congrArg b64urlDecode hsigner
    rw [decode_encode, decode_encode] at hdecode
    exact Option.some.inj hdecode
  · rintro rfl
    exact ⟨rootOf_rootBy _ _, rfl⟩

/-- Roots by various keys, in an order. -/
def rootsBy (keys : List (List UInt8 × Nat)) : List SignedSpaceRoot := keys.map fun k => rootBy k.1 k.2

theorem signsOnce_rootsBy (keys : List (List UInt8 × Nat)) :
    SignsOnce echoVerify (b64urlEncode ownerKey) homeSpace (rootsBy keys) := by
  intro r hr r' hr' hown hown' hepoch
  obtain ⟨k, -, rfl⟩ := List.mem_map.mp hr
  obtain ⟨k', -, rfl⟩ := List.mem_map.mp hr'
  have hk := ownRoot_rootBy.mp hown
  have hk' := ownRoot_rootBy.mp hown'
  have hsame : k.2 = k'.2 := hepoch
  rw [hk, hk', hsame]

/-- The first of the roots is the first that verifies. -/
theorem find_rootsBy (k : List UInt8 × Nat) (keys : List (List UInt8 × Nat)) :
    ((rootsBy (k :: keys)).find? fun r => decide (RootOf echoVerify homeSpace r)) = some (rootBy k.1 k.2) := by
  have hroot := rootOf_rootBy k.1 k.2
  simp only [rootsBy, List.map_cons, List.find?_cons, hroot, decide_true]

/-- The owner's roots, out of order and with one of somebody else between them. -/
def shuffledRoots : List SignedSpaceRoot := rootsBy [(ownerKey, 1), (strangerKey, 9), (ownerKey, 2), (ownerKey, 1)]

theorem ownerFirst_shuffledRoots : OwnerFirst echoVerify (b64urlEncode ownerKey) homeSpace shuffledRoots := by
  intro first hfirst r hr hown _
  obtain rfl := Option.some.inj ((find_rootsBy _ _).symm.trans hfirst)
  obtain ⟨k, -, rfl⟩ := List.mem_map.mp hr
  rw [ownRoot_rootBy.mp hown]
  rfl

/-- The owner's root after that of a stranger. -/
def claimedRoots : List SignedSpaceRoot := rootsBy [(strangerKey, 0), (ownerKey, 1)]

end SpaceConvergenceAux

/-- The owner's newest root is held, though a stranger claims the Space in between. -/
theorem converges_iff_shuffled :
    Converges echoVerify (b64urlEncode ownerKey) homeSpace shuffledRoots ∧ rootBy ownerKey 2 ∈ shuffledRoots :=
  ⟨(converges_iff _ _ _ (signsOnce_rootsBy _)).mpr ownerFirst_shuffledRoots, by simp [shuffledRoots, rootsBy]⟩

/-- A stranger who claims the Space of an owner first keeps the owner's root out. -/
theorem converges_fails_claimed :
    ¬∀ roots : List SignedSpaceRoot, SignsOnce echoVerify (b64urlEncode ownerKey) homeSpace roots →
      Converges echoVerify (b64urlEncode ownerKey) homeSpace roots := by
  intro h
  have hmem : rootBy ownerKey 1 ∈ claimedRoots := by simp [claimedRoots, rootsBy]
  obtain ⟨root, hheld, hnewest⟩ := (h claimedRoots (signsOnce_rootsBy _)).newest ⟨_, hmem, ownRoot_rootBy.mpr rfl⟩
  obtain ⟨root', hheld', hby⟩ := (heldRoot_spec claimedRoots).2 _ (find_rootsBy _ _)
  obtain rfl := Option.some.inj (hheld.symm.trans hheld')
  have hstranger : OwnRoot echoVerify (b64urlEncode ownerKey) homeSpace (rootBy strangerKey 0) :=
    ⟨rootOf_rootBy _ _, by rw [← hby.signer, hnewest.own.2]⟩
  have hkeys : strangerKey ≠ ownerKey := by decide
  exact hkeys (ownRoot_rootBy.mp hstranger)

end DoubleSlash.Supernode
