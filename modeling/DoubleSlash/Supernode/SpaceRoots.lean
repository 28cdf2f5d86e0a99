import DoubleSlash.Lib.Assoc
import DoubleSlash.Lib.Text
import DoubleSlash.Spaces.Tree

/-!
# Space roots on a supernode

The signatures of roots and grants of the supernode's `space.rs`, and the `SpaceRootStore` of its `main.rs`: the newest root a
node holds of each Space. Ed25519 is a parameter; what is logged is left out.
-/

namespace DoubleSlash.Supernode

open Assoc Codec JsonText Spaces Text

/-- `b64url_decode` of the supernode: the padding goes before decoding. -/
def b64urlDecode (s : String) : Option (List UInt8) := b64Groups (trimEndMatches '=' s).toList

/-- `ed25519_verify(public, signature, message)`. -/
abbrev Ed25519 := List UInt8 → List UInt8 → List UInt8 → Bool

/-- A signature in base64 over a text by a key in base64. -/
def signedBy (ed25519Verify : Ed25519) (key signature : String) (message : List UInt8) : Bool :=
  match b64urlDecode key, b64urlDecode signature with
  | some pk, some sig => ed25519Verify pk sig message
  | _, _ => false

/-- `SignedSpaceRoot::verify`. -/
def verifyRoot (ed25519Verify : Ed25519) (root : SignedSpaceRoot) : Bool :=
  signedBy ed25519Verify root.signer root.signature root.signingBytes

/-- `SPACE_GRANT_LABEL`. -/
def spaceGrantLabel : String := "doubleslash-space-grant-v1"

/-- `SpaceGrant`. -/
structure SpaceGrant where
  schema : Nat
  nodeId : String
  epoch : Nat
  granteePub : String
  expiresAt : Nat
  signature : String
  deriving DecidableEq

/-- `SpaceGrant::signing_bytes`. -/
def SpaceGrant.signingBytes (grant : SpaceGrant) : List UInt8 :=
  labelled spaceGrantLabel (toVec
    [("epoch", .nat grant.epoch), ("expires_at", .nat grant.expiresAt), ("grantee_pub", .str grant.granteePub),
      ("node_id", .str grant.nodeId), ("schema", .nat grant.schema)])

/-- `SpaceGrant::verify`. -/
def SpaceGrant.verify (ed25519Verify : Ed25519) (grant : SpaceGrant) (ownerPub : String) : Bool :=
  signedBy ed25519Verify ownerPub grant.signature grant.signingBytes

/-- `derive_node_id`. -/
def deriveNodeId {D : Type} (H : Hashing D) (parentId ownerPub name : String) : String :=
  String.ofList ((encodeHash H (H.sha256 (parentId ++ ":" ++ ownerPub ++ ":" ++ name).toUTF8.data.toList)).toList.take 16)

/-- `SpaceRootStore`. -/
structure SpaceRootStore where
  roots : HashMap String SignedSpaceRoot
  equivocations : HashMap String Nat

/-- `SpaceRootStore::default`. -/
def SpaceRootStore.empty : SpaceRootStore := ⟨∅, ∅⟩

/-- `SpaceRootStore::accept`: the store after it and whether the root is newly stored. -/
def SpaceRootStore.accept (ed25519Verify : Ed25519) (store : SpaceRootStore) (root : SignedSpaceRoot) : SpaceRootStore × Bool :=
  if verifyRoot ed25519Verify root = false then (store, false)
  else
    let stored : SpaceRootStore × Bool := ({ store with roots := store.roots.insert root.spaceId root }, true)
    match store.roots.lookup root.spaceId with
    | none => stored
    | some existing =>
      if existing.signer ≠ root.signer then (store, false)
      else if root.epoch = existing.epoch ∧ root.rootHash ≠ existing.rootHash then
        -- Two roots of one epoch: the first stays and the conflict is counted.
        let count := (store.equivocations.lookup root.spaceId).getD 0 + 1
        ({ store with equivocations := store.equivocations.insert root.spaceId count }, false)
      else if root.epoch ≤ existing.epoch then (store, false)
      else stored

/-- `space_admission_ok`. -/
def spaceAdmissionOk {D : Type} (H : Hashing D) (ed25519Verify : Ed25519) (root : SignedSpaceRoot) (proof : SpaceInclusionProof)
    (grant : Option SpaceGrant) (sender roomId : String) (now : Nat) : Bool :=
  if proof.node.nodeId ≠ roomId ∨ proof.verifyAgainst H root = false then false
  else if proof.node.nodeType ≠ "private" then true
  else match grant with
    | none => false
    | some grant =>
      if grant.verify ed25519Verify root.signer = false ∨ grant.nodeId ≠ roomId ∨
          trimEndMatches '=' grant.granteePub ≠ trimEndMatches '=' sender ∨ root.epoch < grant.epoch then false
      else decide (grant.expiresAt = 0) || decide (now ≤ grant.expiresAt)

end DoubleSlash.Supernode
