import DoubleSlash.Lib.Assoc
import DoubleSlash.Lib.Text
import DoubleSlash.Spaces.Tree
import Mathlib.Data.Finset.Basic

/-!
# Cluster links

The link table of the supernode's `cluster_link.rs` and the tasks that share it: each link registers its channel, hands on the
frames it reads and takes its entries out when it ends. A step is what one task does under one lock.
-/

namespace DoubleSlash.Cluster

open Assoc Text Spaces

/-- `RoomDescriptor`. -/
structure RoomDescriptor where
  roomId : String
  roomName : String
  roomType : String
  creatorId : String
  invitePolicy : String
  deriving DecidableEq

/-- `PeerAuthDescriptor`, and `PeerAuthGrant`, which has the same fields. -/
structure PeerAuthDescriptor where
  identityPub : String
  handle : String
  directInvite : Bool
  accessGranted : Bool
  deriving DecidableEq

/-- `ClusterMsgKind`. -/
inductive ClusterMsgKind where
  | hello (clusterId : String)
  | subscriptions (rooms : List String)
  | replicate (roomId messageId raw : String)
  | roomRoster (rooms : List RoomDescriptor)
  | peerAuth (grant : PeerAuthDescriptor)
  | peerAuthRoster (peers : List PeerAuthDescriptor)
  | versionInfo (version buildId sourceHash : String)
  | spaceRoot (root : SignedSpaceRoot)
  deriving DecidableEq

/-- `ClusterMsg`. -/
structure ClusterMsg where
  kind : ClusterMsgKind
  sender : String
  signature : String

/-- `PeerLink`. A channel is named by the link whose task drains it. -/
structure PeerLink where
  tx : Nat
  version : Option String
  sourceHash : Option String
  deriving DecidableEq

/-- `LinkState`. -/
structure LinkState where
  peers : HashMap String PeerLink
  remoteSubs : HashMap String (Finset String)

/-- `members_for_room`. -/
def LinkState.membersForRoom (st : LinkState) (roomId : String) : List String :=
  (st.remoteSubs.entries.filter fun e => decide (roomId ∈ e.2)).map Sigma.fst

/-- What a node hands to the rest of the supernode. -/
inductive Callback where
  | onReplicate (roomId messageId raw : String)
  | onRoomRoster (room : RoomDescriptor)
  | onPeerAuth (grant : PeerAuthDescriptor)
  | onSpaceRoot (root : SignedSpaceRoot)

/-- What a node's links take from outside: the signature check and the roster of its cluster. -/
structure Env where
  verify : ClusterMsg → Bool
  isPeerMember : String → Bool

/-- A node: the shared table, the links whose tasks are running, with their members, and what they have done. -/
structure Node where
  state : LinkState
  live : List (Nat × String)
  nextLink : Nat
  /-- The frames put on the channels. -/
  queued : List (Nat × ClusterMsgKind)
  /-- Replications that have picked their targets and not sent yet. -/
  picked : List (List String × ClusterMsgKind)
  calls : List Callback
  /-- The subscriptions heard, the newest first. No code reads this. -/
  heard : List (Nat × List String)

/-- `ClusterLink::new`. -/
def Node.new : Node where
  state := { peers := ∅, remoteSubs := ∅ }
  live := []
  nextLink := 0
  queued := []
  picked := []
  calls := []
  heard := []

namespace Node

/-- `run_link` up to its reader: the link's channel is registered. -/
def establish (n : Node) (member : String) : Node :=
  { n with
    state := { n.state with peers := n.state.peers.insert member { tx := n.nextLink, version := none, sourceHash := none } }
    live := (n.nextLink, member) :: n.live
    nextLink := n.nextLink + 1 }

/-- The end of `run_link`. -/
def teardown (n : Node) (link : Nat) (member : String) : Node :=
  { n with
    state := { peers := n.state.peers.erase member, remoteSubs := n.state.remoteSubs.erase member }
    live := n.live.filter fun l => l.1 ≠ link }

/-- `handle_msg`. -/
def handleMsg (n : Node) (link : Nat) (member : String) : ClusterMsgKind → Node
  | .hello _ => n
  | .subscriptions rooms =>
    { n with
      state := { n.state with remoteSubs := n.state.remoteSubs.insert member rooms.toFinset }
      heard := (link, rooms) :: n.heard }
  | .replicate roomId messageId raw => { n with calls := n.calls ++ [.onReplicate roomId messageId raw] }
  | .roomRoster rooms => { n with calls := n.calls ++ rooms.map .onRoomRoster }
  | .peerAuth grant => { n with calls := n.calls ++ [.onPeerAuth grant] }
  | .peerAuthRoster peers => { n with calls := n.calls ++ peers.map .onPeerAuth }
  | .versionInfo version _ sourceHash =>
    { n with
      state := { n.state with
        peers := modify n.state.peers member fun p => { p with version := some version, sourceHash := some sourceHash } } }
  | .spaceRoot root => { n with calls := n.calls ++ [.onSpaceRoot root] }

/-- One frame of `read_loop`. -/
def readFrame (E : Env) (n : Node) (link : Nat) (member : String) (msg : ClusterMsg) : Node :=
  if E.verify msg = false ∨ trimEndMatches '=' msg.sender ≠ member ∨ E.isPeerMember member = false then n
  else n.handleMsg link member msg.kind

/-- The first half of `replicate`: the targets are picked under one lock. -/
def replicate (n : Node) (roomId messageId raw : String) : Node :=
  let targets := n.state.membersForRoom roomId
  if targets.isEmpty then n else { n with picked := n.picked ++ [(targets, .replicate roomId messageId raw)] }

/-- The second half of `replicate`: the frame is sent under another. -/
def sendPicked (n : Node) (targets : List String) (kind : ClusterMsgKind) : Node :=
  { n with
    queued := n.queued ++ targets.filterMap fun member => (n.state.peers.lookup member).map fun link => (link.tx, kind)
    picked := n.picked.erase (targets, kind) }

/-- `send_to_all_peers`. -/
def sendToAllPeers (n : Node) (kind : ClusterMsgKind) : Node :=
  { n with queued := n.queued ++ (values n.state.peers).map fun link => (link.tx, kind) }

end Node

inductive LinkAct where
  | establish (member : String)
  | teardown (link : Nat)
  | frame (link : Nat) (msg : ClusterMsg)
  | replicate (roomId messageId raw : String)
  | sendPicked (targets : List String) (kind : ClusterMsgKind)
  | broadcast (kind : ClusterMsgKind)

/-- One step of a node's tasks. A link's task reads and ends only while it runs. -/
def linkStep (E : Env) (n : Node) : LinkAct → Option Node
  | .establish member => some (n.establish member)
  | .teardown link => (n.live.lookup link).map fun member => n.teardown link member
  | .frame link msg => (n.live.lookup link).map fun member => n.readFrame E link member msg
  | .replicate roomId messageId raw => some (n.replicate roomId messageId raw)
  | .sendPicked targets kind => if (targets, kind) ∈ n.picked then some (n.sendPicked targets kind) else none
  | .broadcast kind => some (n.sendToAllPeers kind)

end DoubleSlash.Cluster
