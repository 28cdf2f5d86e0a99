import DoubleSlash.Lib.Assoc
import Mathlib.Data.String.Basic

/-!
# The endpoint mailbox

The last endpoint update of each peer, which the supernode keeps in memory and in `supernode_endpoints.json` (`main.rs`). Times are in
nanoseconds. A file is the entries of its array: the text of the JSON is left out.
-/

namespace DoubleSlash.Supernode

open Assoc

/-- `ENDPOINT_MAX_AGE_S`. -/
def endpointMaxAge : Int := 86400000000000

/-- An element of the array in `supernode_endpoints.json`. -/
structure StoredEndpoint where
  peerId : String
  raw : String
  storedAt : Int
  deriving DecidableEq, Repr

/-- What `std::fs::write` does to the file: it holds the new text, or it was not opened, or it was cut and only a part written. -/
inductive WriteOutcome where
  | written
  | untouched
  | torn
  deriving DecidableEq, Repr

/-- The fields of the supernode that keep endpoint updates. `file` is `none` where there is none, or none that can be parsed. -/
structure EndpointStore where
  endpointMailbox : HashMap String String
  file : Option (List StoredEndpoint)

namespace EndpointStore

/-- A supernode that starts in an empty `data_dir`. -/
def new : EndpointStore := { endpointMailbox := ∅, file := none }

/-- `save_endpoint_mailbox`. Every entry gets the time of the save; an error is only logged. -/
def saveEndpointMailbox (s : EndpointStore) (now : Int) (outcome : WriteOutcome) : EndpointStore :=
  let entries := s.endpointMailbox.entries.map fun entry => { peerId := entry.1, raw := entry.2, storedAt := now : StoredEndpoint }
  match outcome with
  | .written => { s with file := some entries }
  | .untouched => s
  | .torn => { s with file := none }

/-- `on_endpoint_update`. -/
def onEndpointUpdate (s : EndpointStore) (sender raw : String) (now : Int) (outcome : WriteOutcome) : EndpointStore :=
  { s with endpointMailbox := s.endpointMailbox.insert sender raw }.saveEndpointMailbox now outcome

end EndpointStore

/-- The entries that a load does not skip. -/
def StoredEndpoint.kept (now : Int) (entry : StoredEndpoint) : Bool :=
  !(entry.peerId.isEmpty || entry.raw.isEmpty) && !decide (now - entry.storedAt > endpointMaxAge)

/-- The loop of `load_endpoint_mailbox` over the entries. -/
def insertKept (now : Int) (result : HashMap String String) (entries : List StoredEndpoint) : HashMap String String :=
  entries.foldl (fun result entry => if entry.kept now then result.insert entry.peerId entry.raw else result) result

namespace EndpointStore

/-- `load_endpoint_mailbox`. -/
def loadEndpointMailbox (file : Option (List StoredEndpoint)) (now : Int) : HashMap String String :=
  match file with
  | none => ∅
  | some entries => insertKept now ∅ entries

/-- The supernode starts again: what it had in memory is lost. -/
def restart (s : EndpointStore) (now : Int) : EndpointStore :=
  { s with endpointMailbox := loadEndpointMailbox s.file now }

end EndpointStore

/-- What happens to the mailbox, when, and what the write of the file does. -/
inductive EndpointOp where
  | update (sender raw : String) (now : Int) (outcome : WriteOutcome)
  | save (now : Int) (outcome : WriteOutcome)
  | restart (now : Int)
  deriving DecidableEq, Repr

/-- One operation. -/
def EndpointStore.step (s : EndpointStore) : EndpointOp → EndpointStore
  | .update sender raw now outcome => s.onEndpointUpdate sender raw now outcome
  | .save now outcome => s.saveEndpointMailbox now outcome
  | .restart now => s.restart now

end DoubleSlash.Supernode
