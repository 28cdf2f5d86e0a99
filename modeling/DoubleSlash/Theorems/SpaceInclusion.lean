import DoubleSlash.Lemmas.Merkle
import DoubleSlash.Spaces.Tree

/-!
# Inclusion proofs of a Space

A proof that `verify_against` accepts, against a root that `signed_root` built, names the node at its position of the sorted
leaves, whatever path it carries. The node count of a signed root is cut to 32 bits; a tree that has outgrown it accepts no
proof at all.
-/

namespace DoubleSlash.Spaces

open Codec JsonText

/-- What the Merkle functions and the records built on them promise. -/
structure InclusionSound {D : Type} (H : Hashing D) : Prop where
  /-- The path of a leaf leads from it to the root. -/
  complete : ∀ (leaves : List D) (m : Nat) (hm : m < leaves.length),
    rootFromAudit (interiorHash H) leaves[m] m leaves.length (pathOf H m leaves) = some (rootOf H leaves)
  /-- A tree of at most `2 ^ 32` leaves has paths that pass the verifier's bound. -/
  depth : ∀ (leaves : List D) (m : Nat), m < leaves.length → leaves.length ≤ 2 ^ 32 → (pathOf H m leaves).length ≤ maxProofDepth
  /-- A leaf and a path that lead to the root are the tree's own. -/
  sound : Function.Injective2 (interiorHash H) → ∀ (leaves : List D) (leaf : D) (m : Nat) (path : List D) (hm : m < leaves.length),
    rootFromAudit (interiorHash H) leaf m leaves.length path = some (rootOf H leaves) →
      leaf = leaves[m] ∧ path = pathOf H m leaves
  /-- An accepted proof names the node at its position. -/
  named : Function.Injective2 (interiorHash H) → Function.Injective H.sha256 →
    ∀ (sp : Space) (issuedAt : Nat) (sign : List UInt8 → List UInt8) (p : SpaceInclusionProof),
      p.verifyAgainst H (sp.signedRoot H issuedAt sign) = true → sp.sorted[p.leafIndex]? = some p.node
  /-- The proof a Space gives of one of its nodes is accepted. -/
  accepts : ∀ (sp : Space) (issuedAt : Nat) (sign : List UInt8 → List UInt8) (nodeId : String) (p : SpaceInclusionProof),
    sp.nodes.length < 2 ^ 32 → sp.prove H nodeId = some p →
      p.verifyAgainst H (sp.signedRoot H issuedAt sign) = true ∧ p.node.nodeId = nodeId

namespace SpaceInclusionAux

variable {D : Type} {H : Hashing D}

theorem fields_injective {a b : SpaceNode} (h : a.fields = b.fields) : a = b := by
  cases a
  cases b
  simp_all [SpaceNode.fields]

theorem fields_closed (x : SpaceNode) : ∀ f ∈ x.fields, JsonTextAux.Closed f.2 := by
  simp [SpaceNode.fields, JsonTextAux.Closed]

/-- Two nodes with one leaf are one node. -/
theorem leafHash_injective (hsha : Function.Injective H.sha256) {a b : SpaceNode} (h : a.leafHash H = b.leafHash H) : a = b := by
  have hinput := (List.cons.inj (hsha h)).2
  have hbody := (List.cons.inj (List.append_cancel_left hinput)).2
  exact fields_injective (toVec_injective (fields_closed a) (fields_closed b) hbody)

/-- The prefix byte tells a leaf from an interior node. -/
theorem leafHash_ne_interiorHash (hsha : Function.Injective H.sha256) (x : SpaceNode) (l r : D) :
    x.leafHash H ≠ interiorHash H l r := by
  intro h
  exact absurd (List.cons.inj (hsha h)).1 (by decide)

theorem encodeHash_injective : Function.Injective (encodeHash H) := by
  intro a b h
  have hab : some a = some b := by rw [← H.ofBytes_bytes a, hexEncode_injective h, H.ofBytes_bytes b]
  exact Option.some.inj hab

theorem decodeHash_encodeHash (d : D) : decodeHash H (encodeHash H d) = some d := by
  unfold decodeHash encodeHash
  rw [hexDecode_hexEncode]
  exact H.ofBytes_bytes d

theorem mapM_decodeHash (path : List D) : (path.map (encodeHash H)).mapM (decodeHash H) = some path := by
  induction path with
  | nil => rfl
  | cons d path ih => simp [List.mapM_cons, decodeHash_encodeHash, ih]

theorem verifyAgainst_iff {p : SpaceInclusionProof} {root : SignedSpaceRoot} :
    p.verifyAgainst H root = true ↔
      p.epoch = root.epoch ∧ p.path.length ≤ maxProofDepth ∧ p.leafIndex < root.nodeCount ∧
        ∃ path computed, p.path.mapM (decodeHash H) = some path ∧
          rootFromAudit (interiorHash H) (p.node.leafHash H) p.leafIndex root.nodeCount path = some computed ∧
          encodeHash H computed = root.rootHash := by
  unfold SpaceInclusionProof.verifyAgainst
  by_cases hepoch : p.epoch = root.epoch
  · by_cases hdepth : p.path.length ≤ maxProofDepth
    · by_cases hm : p.leafIndex < root.nodeCount
      · rw [if_neg (by simpa using hepoch), if_neg (by omega)]
        simp only [Nat.not_le.mpr hm, if_false, hepoch, hdepth, hm, true_and]
        cases hpath : p.path.mapM (decodeHash H) with
        | none => simp
        | some path =>
          simp only [Option.some.injEq, exists_and_left, exists_eq_left']
          cases rootFromAudit (interiorHash H) (p.node.leafHash H) p.leafIndex root.nodeCount path <;> simp
      · simp [hm, Nat.le_of_not_lt hm]
    · simp [hdepth, Nat.lt_of_not_le hdepth]
  · simp [hepoch]

theorem sorted_length (sp : Space) : sp.sorted.length = sp.nodes.length := List.length_mergeSort _

theorem sortedLeaves_length (sp : Space) : (sp.sortedLeaves H).length = sp.nodes.length := by
  rw [Space.sortedLeaves, List.length_map, sorted_length]

/-- The leaf at a position is the leaf of the node there. -/
theorem sorted_of_leaf (hsha : Function.Injective H.sha256) {sp : Space} {m : Nat} {x : SpaceNode}
    (h : (sp.sortedLeaves H)[m]? = some (x.leafHash H)) : sp.sorted[m]? = some x := by
  rw [Space.sortedLeaves, List.getElem?_map] at h
  obtain ⟨y, hy, hleaf⟩ := Option.map_eq_some_iff.mp h
  rw [hy, leafHash_injective hsha hleaf]

theorem named_of_verify (hint : Function.Injective2 (interiorHash H)) (hsha : Function.Injective H.sha256) {sp : Space}
    {issuedAt : Nat} {sign : List UInt8 → List UInt8} {p : SpaceInclusionProof}
    (h : p.verifyAgainst H (sp.signedRoot H issuedAt sign) = true) : sp.sorted[p.leafIndex]? = some p.node := by
  obtain ⟨-, -, hm, path, computed, -, haudit, hroot⟩ := verifyAgainst_iff.mp h
  obtain rfl : computed = rootOf H (sp.sortedLeaves H) := encodeHash_injective hroot
  have hcount : (sp.signedRoot H issuedAt sign).nodeCount = sp.nodes.length % 4294967296 := rfl
  rw [hcount] at hm haudit
  by_cases hfits : sp.nodes.length < 4294967296
  · rw [Nat.mod_eq_of_lt hfits] at hm haudit
    have hlen := sortedLeaves_length (H := H) sp
    exact sorted_of_leaf hsha (eq_of_rootFromAudit hint _ _ _ hlen hm _ _ haudit).1
  · -- the count lost its high bits, so the path is one for too small a tree
    have hahead : Ahead (sp.sortedLeaves H).length (sp.nodes.length % 4294967296) := by
      refine ⟨32, sp.nodes.length / 4294967296, ?_, ?_, ?_⟩
      · exact Nat.le_of_lt (Nat.mod_lt _ (by decide))
      · exact Nat.div_pos (by omega) (by decide)
      · rw [sortedLeaves_length]
        omega
    exact absurd haudit (rootFromAudit_ne_of_ahead hint (leafHash_ne_interiorHash hsha p.node) _ _ _ _ hahead hm)

theorem accepts_of_prove {sp : Space} {issuedAt : Nat} {sign : List UInt8 → List UInt8} {nodeId : String}
    {p : SpaceInclusionProof} (hfits : sp.nodes.length < 2 ^ 32) (h : sp.prove H nodeId = some p) :
    p.verifyAgainst H (sp.signedRoot H issuedAt sign) = true ∧ p.node.nodeId = nodeId := by
  simp only [Space.prove, Option.bind_eq_bind, Option.bind_eq_some_iff] at h
  obtain ⟨idx, hidx, node, hnode, hp⟩ := h
  obtain rfl := (Option.some.inj hp).symm
  have hlt : idx < sp.nodes.length := by
    rw [← sorted_length]
    exact (List.getElem?_eq_some_iff.mp hnode).1
  have hcount : (sp.signedRoot H issuedAt sign).nodeCount = sp.nodes.length := Nat.mod_eq_of_lt hfits
  have hindex : idx % 4294967296 = idx := Nat.mod_eq_of_lt (by omega)
  have hleaf : (sp.sortedLeaves H)[idx]? = some (node.leafHash H) := by
    rw [Space.sortedLeaves, List.getElem?_map, hnode, Option.map_some]
  constructor
  · refine verifyAgainst_iff.mpr ⟨rfl, ?_, ?_, _, _, mapM_decodeHash _, ?_, rfl⟩
    · rw [List.length_map]
      exact auditPath_length 32 _ _ (by rw [sortedLeaves_length]; omega)
    · rw [hcount, hindex]
      exact hlt
    · rw [hcount, hindex]
      exact rootFromAudit_auditPath _ _ _ _ (sortedLeaves_length sp) hleaf
  · obtain ⟨hlen, hfound, -⟩ := List.findIdx?_eq_some_iff_getElem.mp hidx
    rw [List.getElem?_eq_getElem hlen] at hnode
    obtain rfl := Option.some.inj hnode
    simpa using hfound

end SpaceInclusionAux

open SpaceInclusionAux

/-- **Inclusion proofs.** For every hash the functions agree on every tree; with hashes that do not collide an accepted proof
names its node. -/
theorem inclusionSound {D : Type} (H : Hashing D) : InclusionSound H where
  complete leaves m hm := rootFromAudit_auditPath _ _ _ _ rfl (List.getElem?_eq_getElem hm)
  depth leaves m _ hlen := auditPath_length 32 m leaves hlen
  sound hint leaves leaf m path hm h := by
    obtain ⟨hleaf, hpath⟩ := eq_of_rootFromAudit hint _ m leaves rfl hm leaf path h
    rw [List.getElem?_eq_getElem hm] at hleaf
    exact ⟨(Option.some.inj hleaf).symm, hpath⟩
  named hint hsha sp issuedAt sign p h := named_of_verify hint hsha h
  accepts sp issuedAt sign nodeId p hfits h := accepts_of_prove hfits h

namespace SpaceInclusionAux

/-- The server node of the known-answer test. -/
def katServer : SpaceNode where
  nodeId := "srv0"
  parentId := ""
  kind := "server"
  name := "Srv"
  nodeType := "public"
  ownerPub := "KAT-OWNER-PUB"
  invitePolicy := ""
  inherit := false
  keyCommit := ""

def katSpace : Space where
  spaceId := "srv0"
  ownerPub := "KAT-OWNER-PUB"
  epoch := 7
  nodes := [katServer]

def katProof : SpaceInclusionProof where
  schema := 1
  node := katServer
  leafIndex := 0
  path := []
  epoch := 7

/-- The digest of the server node, as the test has it. -/
def katDigest : List UInt8 :=
  [0xb4, 0x6b, 0xa8, 0x7a, 0x5f, 0x6d, 0xf3, 0x40, 0xbd, 0xe3, 0xc3, 0x26, 0xa0, 0xa4, 0x1c, 0x76, 0x26, 0xe8, 0x2c, 0x37,
    0x5b, 0xf6, 0x20, 0xa6, 0xf1, 0x00, 0xa5, 0xde, 0x27, 0x1e, 0x88, 0xd8]

/-- Digests without collisions: the server node's, and one for every other input. -/
inductive FreeDigest where
  | server
  | other (input : List UInt8)

/-- Bytes with a mark before each and an end mark. -/
def delimit : List UInt8 → List UInt8
  | [] => [0]
  | b :: rest => 1 :: b :: delimit rest

def readDelimited : List UInt8 → Option (List UInt8 × List UInt8)
  | 0 :: rest => some ([], rest)
  | 1 :: b :: rest => (readDelimited rest).map fun out => (b :: out.1, out.2)
  | _ => none

theorem readDelimited_delimit (l x : List UInt8) : readDelimited (delimit l ++ x) = some (l, x) := by
  induction l with
  | nil => rfl
  | cons b l ih => simp [delimit, readDelimited, ih]

/-- The bytes of a digest; the server node's are its real ones. -/
def FreeDigest.bytes : FreeDigest → List UInt8
  | .server => katDigest
  | .other input => 0 :: delimit input

def FreeDigest.read : List UInt8 → Option (FreeDigest × List UInt8)
  | 0 :: rest => (readDelimited rest).map fun out => (.other out.1, out.2)
  | bytes => if bytes.take 32 = katDigest then some (.server, bytes.drop 32) else none

theorem FreeDigest.read_bytes (d : FreeDigest) (x : List UInt8) : FreeDigest.read (d.bytes ++ x) = some (d, x) := by
  cases d with
  | server => simp [FreeDigest.read, FreeDigest.bytes, katDigest]
  | other input => simp [FreeDigest.read, FreeDigest.bytes, readDelimited_delimit]

def katHashing : Hashing FreeDigest where
  sha256 input := if input = katServer.leafInput then .server else .other input
  bytes := FreeDigest.bytes
  ofBytes bytes := (FreeDigest.read bytes).map Prod.fst
  ofBytes_bytes d := by
    have h := FreeDigest.read_bytes d []
    rw [List.append_nil] at h
    rw [h, Option.map_some]

theorem katHashing_sha256 : Function.Injective katHashing.sha256 := by
  intro a b h
  simp only [katHashing] at h
  split_ifs at h with ha hb
  · rw [ha, hb]
  · exact FreeDigest.other.inj h

theorem katHashing_interior : Function.Injective2 (interiorHash katHashing) := by
  intro a b c d h
  have hbytes := (List.cons.inj (katHashing_sha256 h)).2
  have hcode := PrefixCode.of_read FreeDigest.read FreeDigest.read_bytes
  obtain ⟨rfl, hrest⟩ := hcode _ _ _ _ hbytes
  refine ⟨rfl, (hcode c d [] [] ?_).1⟩
  rw [List.append_nil, List.append_nil]
  exact hrest

theorem katServer_leafHash : katServer.leafHash katHashing = .server := by
  unfold SpaceNode.leafHash
  simp only [katHashing, if_true]

theorem katProof_verifies : katProof.verifyAgainst katHashing (katSpace.signedRoot katHashing 1000 id) = true := by
  have hsorted : katSpace.sortedLeaves katHashing = [katServer.leafHash katHashing] := by
    rw [Space.sortedLeaves, Space.sorted, katSpace, List.mergeSort_singleton, List.map_singleton]
  refine verifyAgainst_iff.mpr ⟨rfl, by decide, by decide, [], katServer.leafHash katHashing, rfl, rootFromAudit_one _ [], ?_⟩
  have hroot : (katSpace.signedRoot katHashing 1000 id).rootHash =
      encodeHash katHashing (rootOf katHashing (katSpace.sortedLeaves katHashing)) := rfl
  rw [hroot, hsorted, rootOf, merkleRoot_singleton]

end SpaceInclusionAux

theorem inclusionSound_kat :
    Function.Injective2 (interiorHash katHashing) ∧ Function.Injective katHashing.sha256 ∧
      encodeHash katHashing (katServer.leafHash katHashing) = hexEncode katDigest ∧
      katSpace.sorted[katProof.leafIndex]? = some katProof.node :=
  ⟨katHashing_interior, katHashing_sha256, by rw [katServer_leafHash]; rfl,
    (inclusionSound katHashing).named katHashing_interior katHashing_sha256 katSpace 1000 id katProof katProof_verifies⟩

end DoubleSlash.Spaces
