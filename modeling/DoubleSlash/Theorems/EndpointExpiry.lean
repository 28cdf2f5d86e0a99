import DoubleSlash.Supernode.EndpointMailbox
import Mathlib.Data.List.Induction
import Mathlib.Tactic.Common

/-!
# How long an endpoint update is kept

The last update of one peer is followed through updates, saves and restarts, and compared with the entries that the supernode loads.
-/

namespace DoubleSlash.Supernode

open Assoc

/-- What became of the last update of a peer: when it was made, whether the supernode has it in memory, and whether the file has
it. -/
structure LastUpdate where
  updatedAt : Int
  held : Bool
  saved : Bool
  deriving DecidableEq

/-- The update is at most as old as an entry may be. -/
def LastUpdate.fresh (u : LastUpdate) (now : Int) : Bool := decide (now - u.updatedAt ≤ endpointMaxAge)

/-- The file is written. -/
def LastUpdate.write (u : LastUpdate) : WriteOutcome → LastUpdate
  | .written => { u with saved := u.held }
  | .untouched => u
  | .torn => { u with saved := false }

/-- How an operation changes what is known of the last update of a peer. -/
def LastUpdate.step (peer : String) (u : Option LastUpdate) : EndpointOp → Option LastUpdate
  | .update sender _ now outcome =>
    (if sender = peer then some { updatedAt := now, held := true, saved := false } else u).map (·.write outcome)
  | .save _ outcome => u.map (·.write outcome)
  | .restart now => u.map fun u => { u with held := u.saved && u.fresh now }

/-- The last update that a peer made in a run. -/
def lastUpdate (peer : String) (ops : List EndpointOp) : Option LastUpdate :=
  ops.foldl (LastUpdate.step peer) none

/-- The last update of a peer was saved and is not too old. -/
def Due (ops : List EndpointOp) (now : Int) (peer : String) : Prop :=
  ∃ u, lastUpdate peer ops = some u ∧ u.saved = true ∧ u.fresh now = true

namespace EndpointExpiryAux

/-- What the file and the mailbox hold: at most one entry of a peer, and the last updates that they should. -/
structure Follows (last : String → Option LastUpdate) (s : EndpointStore) : Prop where
  nodup : ((s.file.getD []).map StoredEndpoint.peerId).Nodup
  held : ∀ peer u, last peer = some u → u.held = true → peer ∈ s.endpointMailbox
  saved : ∀ peer u, last peer = some u → u.saved = true → peer ∈ (s.file.getD []).map StoredEndpoint.peerId

end EndpointExpiryAux

open EndpointExpiryAux

end DoubleSlash.Supernode
