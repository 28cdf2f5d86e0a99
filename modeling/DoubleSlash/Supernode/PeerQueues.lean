import DoubleSlash.Lib.Bytes
import DoubleSlash.Lib.Run
import DoubleSlash.Sfu.Room

/-!
# The queues to connected peers

`PeerTx`, `PeerRx` and `bind_queue_budget` of the supernode's `signaling.rs`: a connection's writes go through an unbounded channel whose
bytes are reserved from a budget, and all connections of one identity share one. Senders, writers and registrations run on their own;
each action is one of their atomic steps. A send that is under way borrows its sender, and a registration holds the lock of the state.
-/

namespace DoubleSlash.Supernode

open Assoc Bytes Run

/-- `PEER_QUEUE_MAX_BYTES`. -/
def peerQueueMaxBytes : Nat := 8 * 1024 * 1024

/-- Whom a connection is bound to: nobody yet, or an identity. Nothing is decided by it; it is the history of a budget. -/
inductive QueueOwner where
  | connection (channel : Nat)
  | identity (key : String)
  deriving DecidableEq

/-- A strong reference to a budget, and whom it was taken for. -/
structure BudgetRef where
  budget : Nat
  owner : QueueOwner
  deriving DecidableEq

/-- `QueuedFrame`, with the owner of the connection when it was sent. -/
structure QueuedFrame where
  json : String
  bytes : Nat
  ref : BudgetRef
  deriving DecidableEq

/-- A `PeerTx` with its `PeerRx`: what the sender's cell holds, and which halves are there. -/
structure PeerChannel where
  cell : BudgetRef
  closed : Bool
  notified : Bool
  sender : Bool
  receiver : Bool

/-- Where a registration stands: it has swept the table, or it has its budget and has not written it yet. -/
inductive Binding where
  | swept (channel : Nat) (key : String)
  | upgraded (channel : Nat) (ref : BudgetRef)

def Binding.channel : Binding → Nat
  | .swept channel _ => channel
  | .upgraded channel _ => channel

/-- The channels, their budgets, and where sends, writers and registrations stand. -/
structure PeerQueues where
  channels : HashMap Nat PeerChannel
  nextChannel : Nat
  /-- The counters of the budgets. -/
  counters : Nat → Nat
  nextBudget : Nat
  /-- `queue_budgets`: weak entries. -/
  queueBudgets : HashMap String Nat
  binding : Option Binding
  /-- Sends that found the channel open, those that have its budget too, and those that have reserved from it. -/
  started : List (Nat × String)
  loaded : List (Nat × String × BudgetRef)
  reserved : List (Nat × QueuedFrame)
  /-- The frames in the channels. -/
  queued : List (Nat × QueuedFrame)
  /-- Frames that go, and references that are let go. -/
  dropping : List QueuedFrame
  freeing : List BudgetRef

namespace PeerQueues

def new : PeerQueues where
  channels := ∅
  nextChannel := 0
  counters := fun _ => 0
  nextBudget := 0
  queueBudgets := ∅
  binding := none
  started := []
  loaded := []
  reserved := []
  queued := []
  dropping := []
  freeing := []

/-- The frames that are somewhere. -/
def outstanding (s : PeerQueues) : List QueuedFrame := s.reserved.map Prod.snd ++ (s.queued.map Prod.snd ++ s.dropping)

/-- The reference of a registration. -/
def bindingRefs (s : PeerQueues) : List BudgetRef :=
  match s.binding with
  | some (.upgraded _ ref) => [ref]
  | _ => []

/-- The strong references to budgets. -/
def refs (s : PeerQueues) : List BudgetRef :=
  ((values s.channels).filter (·.sender)).map (·.cell) ++ s.loaded.map (·.2.2) ++ s.outstanding.map (·.ref) ++ s.freeing ++ s.bindingRefs

/-- `strong_count() > 0`. -/
def strong (s : PeerQueues) (b : Nat) : Bool := s.refs.any fun r => r.budget == b

/-- What can happen. -/
inductive Act where
  | open
  | bindSweep (channel : Nat) (identity : String)
  | bindUpgrade
  | bindEnd
  | sendBegin (channel : Nat) (json : String)
  | sendLoad (i : Nat)
  | sendReserve (i : Nat)
  | sendPush (i : Nat)
  | recv (channel : Nat)
  | dropFrame (i : Nat)
  | free (i : Nat)
  | dropSender (channel : Nat)
  | dropReceiver (channel : Nat)

/-- `peer_channel`. -/
def openChannel (s : PeerQueues) : PeerQueues :=
  { s with
    channels := s.channels.insert s.nextChannel ⟨⟨s.nextBudget, .connection s.nextChannel⟩, false, false, true, true⟩
    nextChannel := s.nextChannel + 1
    counters := Function.update s.counters s.nextBudget 0
    nextBudget := s.nextBudget + 1 }

/-- `Weak::upgrade`, and a new budget where there is none. -/
def bindUpgrade (s : PeerQueues) (channel : Nat) (key : String) : PeerQueues :=
  match (s.queueBudgets.lookup key).filter s.strong with
  | some b => { s with queueBudgets := s.queueBudgets.insert key b, binding := some (.upgraded channel ⟨b, .identity key⟩) }
  | none =>
    { s with
      queueBudgets := s.queueBudgets.insert key s.nextBudget
      binding := some (.upgraded channel ⟨s.nextBudget, .identity key⟩)
      counters := Function.update s.counters s.nextBudget 0
      nextBudget := s.nextBudget + 1 }

/-- `fetch_update` of `send`: the reservation, or the channel closed. -/
def reserve (s : PeerQueues) (channel : Nat) (json : String) (ref : BudgetRef) : PeerQueues :=
  let len := (utf8 json).length
  if s.counters ref.budget + len ≤ peerQueueMaxBytes then
    { s with
      counters := Function.update s.counters ref.budget (s.counters ref.budget + len)
      reserved := (channel, ⟨json, len, ref⟩) :: s.reserved }
  else
    { s with
      channels := modify s.channels channel fun ch => { ch with closed := true, notified := true }
      freeing := ref :: s.freeing }

/-- `fetch_sub`, which wraps; the reference goes after it. -/
def release (s : PeerQueues) (f : QueuedFrame) : PeerQueues :=
  { s with
    counters := Function.update s.counters f.ref.budget ((s.counters f.ref.budget + 2 ^ 64 - f.bytes) % 2 ^ 64)
    freeing := f.ref :: s.freeing }

/-- Nothing borrows the sender. -/
def idle (s : PeerQueues) (channel : Nat) : Bool :=
  s.started.all (fun x => x.1 != channel) && s.loaded.all (fun x => x.1 != channel) && s.reserved.all (fun x => x.1 != channel) &&
    s.binding.all fun x => x.channel != channel

/-- One step; none when it is not the time for it. -/
def step (s : PeerQueues) : Act → Option PeerQueues
  | .open => some s.openChannel
  | .bindSweep channel identity =>
    if s.binding.isNone ∧ (s.channels.lookup channel).any (·.sender) then
      some { s with
        queueBudgets := retain s.queueBudgets fun _ b => s.strong b
        binding := some (.swept channel (Sfu.normalizePublicId identity)) }
    else none
  | .bindUpgrade =>
    match s.binding with
    | some (.swept channel key) => some (s.bindUpgrade channel key)
    | _ => none
  | .bindEnd =>
    match s.binding with
    | some (.upgraded channel ref) =>
      -- The cell lets go of the budget that it had.
      (s.channels.lookup channel).map fun ch =>
        { s with channels := s.channels.insert channel { ch with cell := ref }, freeing := ch.cell :: s.freeing, binding := none }
    | _ => none
  | .sendBegin channel json =>
    if (s.channels.lookup channel).any fun ch => ch.sender && !ch.closed && ch.receiver then
      some { s with started := (channel, json) :: s.started }
    else none
  | .sendLoad i =>
    match s.started[i]? with
    | none => none
    | some (channel, json) =>
      (s.channels.lookup channel).map fun ch =>
        { s with started := s.started.eraseIdx i, loaded := (channel, json, ch.cell) :: s.loaded }
  | .sendReserve i =>
    match s.loaded[i]? with
    | none => none
    | some (channel, json, ref) => some ({ s with loaded := s.loaded.eraseIdx i }.reserve channel json ref)
  | .sendPush i =>
    match s.reserved[i]? with
    | none => none
    | some (channel, f) =>
      if (s.channels.lookup channel).any (·.receiver) then
        some { s with reserved := s.reserved.eraseIdx i, queued := s.queued ++ [(channel, f)] }
      else some { s with reserved := s.reserved.eraseIdx i, dropping := f :: s.dropping }
  | .recv channel =>
    match s.channels.lookup channel with
    | none => none
    | some ch =>
      if !ch.receiver then none
      else if ch.closed then some s
      else if ch.notified then some { s with channels := s.channels.insert channel { ch with notified := false } }
      else
        match s.queued.find? (fun x => x.1 == channel) with
        | none => if ch.sender then none else some s
        | some x => some { s with queued := s.queued.erase x, dropping := x.2 :: s.dropping }
  | .dropFrame i =>
    match s.dropping[i]? with
    | none => none
    | some f => some ({ s with dropping := s.dropping.eraseIdx i }.release f)
  | .free i => if i < s.freeing.length then some { s with freeing := s.freeing.eraseIdx i } else none
  | .dropSender channel =>
    match s.channels.lookup channel with
    | none => none
    | some ch =>
      if ch.sender && s.idle channel then
        some { s with channels := s.channels.insert channel { ch with sender := false }, freeing := ch.cell :: s.freeing }
      else none
  | .dropReceiver channel =>
    match s.channels.lookup channel with
    | none => none
    | some ch =>
      if ch.receiver then
        some { s with
          channels := s.channels.insert channel { ch with receiver := false }
          queued := s.queued.filter fun x => !(x.1 == channel)
          dropping := (s.queued.filter fun x => x.1 == channel).map Prod.snd ++ s.dropping }
      else none

end PeerQueues

end DoubleSlash.Supernode
