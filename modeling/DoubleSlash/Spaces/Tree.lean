import DoubleSlash.Lib.Base64
import DoubleSlash.Lib.JsonText
import DoubleSlash.Spaces.Merkle

/-!
# Spaces

The node records of `space.rs`, their leaf hashes, the signed root of a Space and the inclusion proof of a node. A digest is a
value of a type `D`; SHA-256 and the 32 bytes of a digest are parameters. `usize` has 64 bits.
-/

namespace DoubleSlash.Spaces

open Codec JsonText

/-- What the records take from outside: SHA-256 and the bytes of its digests. -/
structure Hashing (D : Type) where
  sha256 : List UInt8 → D
  /-- The bytes of a digest. -/
  bytes : D → List UInt8
  /-- `try_into::<[u8; 32]>`. -/
  ofBytes : List UInt8 → Option D
  ofBytes_bytes : ∀ d, ofBytes (bytes d) = some d

/-- No hashing at all: the digest is the message. -/
def Hashing.plain : Hashing (List UInt8) := ⟨id, id, some, fun _ => rfl⟩

/-- `SPACE_LEAF_LABEL`. -/
def spaceLeafLabel : String := "doubleslash-space-leaf-v1"

/-- `SPACE_ROOT_LABEL`. -/
def spaceRootLabel : String := "doubleslash-space-root-v1"

/-- `MAX_PROOF_DEPTH`. -/
def maxProofDepth : Nat := 32

/-- `SPACE_SCHEMA`. -/
def spaceSchema : Nat := 1

structure SpaceNode where
  nodeId : String
  parentId : String
  kind : String
  name : String
  nodeType : String
  ownerPub : String
  invitePolicy : String
  inherit : Bool
  keyCommit : String
  deriving DecidableEq

/-- The fields of a node in the order of the sorted map. -/
def SpaceNode.fields (x : SpaceNode) : List (String × Scalar) :=
  [("inherit", .bool x.inherit), ("invite_policy", .str x.invitePolicy), ("key_commit", .str x.keyCommit), ("kind", .str x.kind),
    ("name", .str x.name), ("node_id", .str x.nodeId), ("node_type", .str x.nodeType), ("owner_pub", .str x.ownerPub),
    ("parent_id", .str x.parentId)]

/-- `canonical_json`. -/
def SpaceNode.canonicalJson (x : SpaceNode) : List UInt8 := toVec x.fields

/-- A label and a bar before a body. -/
def labelled (label : String) (body : List UInt8) : List UInt8 :=
  label.toUTF8.data.toList ++ '|'.toUInt8 :: body

/-- What `leaf_hash` hashes. -/
def SpaceNode.leafInput (x : SpaceNode) : List UInt8 := 0x00 :: labelled spaceLeafLabel x.canonicalJson

/-- A treehead a Space owner signed. -/
structure SignedSpaceRoot where
  schema : Nat
  spaceId : String
  epoch : Nat
  rootHash : String
  nodeCount : Nat
  issuedAt : Nat
  signer : String
  signature : String
  deriving DecidableEq

/-- `signing_bytes`. -/
def SignedSpaceRoot.signingBytes (root : SignedSpaceRoot) : List UInt8 :=
  labelled spaceRootLabel (toVec
    [("epoch", .nat root.epoch), ("issued_at", .nat root.issuedAt), ("node_count", .nat root.nodeCount),
      ("root_hash", .str root.rootHash), ("schema", .nat root.schema), ("signer", .str root.signer),
      ("space_id", .str root.spaceId)])

structure SpaceInclusionProof where
  schema : Nat
  node : SpaceNode
  leafIndex : Nat
  path : List String
  epoch : Nat
  deriving DecidableEq

/-- The owner's view of a Space. -/
structure Space where
  spaceId : String
  ownerPub : String
  epoch : Nat
  nodes : List SpaceNode
  deriving DecidableEq

/-- The order of `sort_by(|a, b| a.node_id.cmp(&b.node_id))`. -/
def SpaceNode.le (a b : SpaceNode) : Bool := decide (a.nodeId ≤ b.nodeId)

/-- The nodes in the order of their leaves; the sort is stable. -/
def Space.sorted (sp : Space) : List SpaceNode := sp.nodes.mergeSort SpaceNode.le

section

variable {D : Type} (H : Hashing D)

/-- `interior_hash`. -/
def interiorHash (left right : D) : D := H.sha256 (0x01 :: (H.bytes left ++ H.bytes right))

/-- `leaf_hash`. -/
def SpaceNode.leafHash (x : SpaceNode) : D := H.sha256 x.leafInput

/-- `merkle_root` over the digests of SHA-256. -/
def rootOf (leaves : List D) : D := merkleRoot (H.sha256 []) (interiorHash H) leaves

/-- `audit_path` over the digests of SHA-256. -/
def pathOf (m : Nat) (leaves : List D) : List D := auditPath (H.sha256 []) (interiorHash H) m leaves

/-- `hex::encode` of a digest. -/
def encodeHash (d : D) : String := hexEncode (H.bytes d)

/-- `decode_hash`. -/
def decodeHash (s : String) : Option D := (hexDecode s).bind H.ofBytes

/-- `verify_against`. -/
def SpaceInclusionProof.verifyAgainst (p : SpaceInclusionProof) (root : SignedSpaceRoot) : Bool :=
  if p.epoch ≠ root.epoch then false
  else if maxProofDepth < p.path.length then false
  else
    let n := root.nodeCount
    let m := p.leafIndex
    if n ≤ m then false
    else match p.path.mapM (decodeHash H) with
      | none => false
      | some path =>
        match rootFromAudit (interiorHash H) (p.node.leafHash H) m n path with
        | some computed => decide (encodeHash H computed = root.rootHash)
        | none => false

/-- `sorted_leaves`. -/
def Space.sortedLeaves (sp : Space) : List D := sp.sorted.map (·.leafHash H)

/-- `root_hash`. -/
def Space.rootHash (sp : Space) : String := encodeHash H (rootOf H (sp.sortedLeaves H))

/-- `signed_root`. -/
def Space.signedRoot (sp : Space) (issuedAt : Nat) (sign : List UInt8 → List UInt8) : SignedSpaceRoot :=
  let root : SignedSpaceRoot :=
    { schema := spaceSchema
      spaceId := sp.spaceId
      epoch := sp.epoch
      rootHash := sp.rootHash H
      nodeCount := sp.nodes.length % 4294967296
      issuedAt := issuedAt
      signer := sp.ownerPub
      signature := "" }
  { root with signature := b64urlEncode (sign root.signingBytes) }

/-- `prove`. -/
def Space.prove (sp : Space) (nodeId : String) : Option SpaceInclusionProof := do
  let idx ← sp.sorted.findIdx? fun x => x.nodeId = nodeId
  let node ← sp.sorted[idx]?
  return {
    schema := spaceSchema
    node := node
    leafIndex := idx % 4294967296
    path := (pathOf H idx (sp.sortedLeaves H)).map (encodeHash H)
    epoch := sp.epoch }

end

end DoubleSlash.Spaces
