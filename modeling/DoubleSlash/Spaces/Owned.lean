import DoubleSlash.Lib.Keyed
import DoubleSlash.Lib.Text
import DoubleSlash.Spaces.Tree
import Mathlib.Data.List.Lex
import Mathlib.Data.Nat.Basic
import Mathlib.Data.String.Basic

/-!
# Owned Spaces

The owner's side of the client's `space.rs`, and the merge of two copies of one Space in its `own_sync.rs`. Epochs have 64 bits.
-/

namespace DoubleSlash.Spaces

open Assoc Codec Keyed Text

section

variable {D : Type} (H : Hashing D)

/-- `derive_node_id`. -/
def deriveNodeId (parentId ownerPub name : String) : String :=
  String.ofList ((encodeHash H (H.sha256 (parentId ++ ":" ++ ownerPub ++ ":" ++ name).toUTF8.data.toList)).toList.take 16)

/-- `Space::new_server`. -/
def Space.newServer (ownerPub serverName : String) : Space :=
  let spaceId := deriveNodeId H "" ownerPub serverName
  { spaceId := spaceId
    ownerPub := ownerPub
    epoch := 0
    nodes := [
      { nodeId := spaceId
        parentId := ""
        kind := "server"
        name := serverName
        nodeType := "public"
        ownerPub := ownerPub
        invitePolicy := "owner"
        inherit := false
        keyCommit := "" }] }

/-- The record replaces the first of its id, or comes last. -/
def replaceNode (node : SpaceNode) : List SpaceNode → List SpaceNode
  | [] => [node]
  | x :: nodes => if x.nodeId = node.nodeId then node :: nodes else x :: replaceNode node nodes

/-- The epoch after this one. -/
def nextEpoch (epoch : Nat) : Nat := (epoch + 1) % 2 ^ 64

/-- `upsert_node`. -/
def Space.upsertNode (space : Space) (node : SpaceNode) : Space :=
  { space with nodes := replaceNode node space.nodes, epoch := nextEpoch space.epoch }

/-! ## Merging two copies -/

/-- `same_identity`. -/
def sameIdentity (a b : String) : Bool := decide (trimEndMatches '=' a = trimEndMatches '=' b)

/-- The server node. -/
def Space.server? (space : Space) : Option SpaceNode := space.nodes.find? fun n => n.nodeId = space.spaceId

/-- `space_is_owned_by`. -/
def spaceIsOwnedBy (space : Space) (ownerPub : String) : Bool :=
  sameIdentity space.ownerPub ownerPub &&
    match space.server? with
    | none => false
    | some server =>
      if server.kind ≠ "server" ∨ server.parentId ≠ "" ∨ space.spaceId ≠ deriveNodeId H "" space.ownerPub server.name then false
      else
        decide (space.nodes.map SpaceNode.nodeId).Nodup &&
          space.nodes.all fun node => decide (node.nodeId ≠ "") && sameIdentity node.ownerPub ownerPub &&
            (decide (node.nodeId = space.spaceId) || decide (node.parentId ≠ ""))

/-- `sorted_nodes`. -/
def sortedNodes (space : Space) : List SpaceNode := sortByKey SpaceNode.nodeId space.nodes

/-- The bytes of a leaf hash, which are compared in their order. -/
def SpaceNode.rank (node : SpaceNode) : List Nat := (H.bytes (node.leafHash H)).map UInt8.toNat

/-- The sender's node stands against ours. -/
def theirsWins (incoming ours : Space) (node mine : SpaceNode) : Prop :=
  ours.epoch < incoming.epoch ∨ (incoming.epoch = ours.epoch ∧ mine.rank H < node.rank H)

instance (incoming ours : Space) (node mine : SpaceNode) : Decidable (theirsWins H incoming ours node mine) :=
  inferInstanceAs (Decidable (_ ∨ _))

/-- One node of the sender's goes into the merge. -/
def mergeNode (ours incoming : Space) (merged : HashMap String SpaceNode) (node : SpaceNode) : HashMap String SpaceNode :=
  match merged.lookup node.nodeId with
  | none => merged.insert node.nodeId node
  | some mine => if mine ≠ node ∧ theirsWins H incoming ours node mine then merged.insert node.nodeId node else merged

/-- The merged nodes, in the order of their ids. -/
def mergedNodes (ours incoming : Space) : List SpaceNode :=
  let mine := ours.nodes.foldl (fun merged node => merged.insert node.nodeId node) (∅ : HashMap String SpaceNode)
  sortByKey SpaceNode.nodeId (values (incoming.nodes.foldl (mergeNode H ours incoming) mine))

/-- `SpaceMerge`. -/
inductive SpaceMerge where
  | unchanged
  | adopt (space : Space)
  | resign (space : Space)
  deriving DecidableEq

/-- `merge_space`. -/
def mergeSpace (ours? : Option Space) (incoming : Space) : SpaceMerge :=
  match ours? with
  | none => .adopt incoming
  | some ours =>
    let nodes := mergedNodes H ours incoming
    let oursSame := decide (sortedNodes ours = nodes)
    let incomingSame := decide (sortedNodes incoming = nodes)
    if incomingSame ∧ ours.epoch ≤ incoming.epoch then
      if oursSame ∧ incoming.epoch = ours.epoch then .unchanged else .adopt incoming
    else if oursSame ∧ incoming.epoch ≤ ours.epoch then .unchanged
    else
      -- Past both epochs: a root at an epoch the supernode already holds is not accepted.
      .resign { spaceId := ours.spaceId, ownerPub := ours.ownerPub, epoch := nextEpoch (max ours.epoch incoming.epoch), nodes := nodes }

end

end DoubleSlash.Spaces
