import DoubleSlash.Lib.Assoc
import Mathlib.Logic.Function.Iterate

/-!
# Group keys

`SenderKeysGroup` of the client's `group_key.rs`: the keys of a conversation, by epoch. Epochs are bytes that wrap. A random key is
an input, the key that every member derives from the id of a room is a parameter, and the clock is a number.
-/

namespace DoubleSlash.Keys

open Assoc

/-- `GroupKeySource`. -/
structure GroupKeySource (K : Type) where
  currentEpoch : String → UInt8
  epochKey : String → UInt8 → Option K

/-- `MAX_RETAINED_EPOCHS`. -/
def maxRetainedEpochs : Nat := 4

/-- `GroupState`. -/
structure GroupState (K : Type) where
  current : UInt8
  seenHigh : Option UInt8
  currentSince : Option Nat
  keys : HashMap UInt8 K

namespace GroupState

variable {K : Type}

/-- `GroupState::default`. -/
def default : GroupState K := { current := 0, seenHigh := none, currentSince := none, keys := ∅ }

/-- `note_seen`. -/
def noteSeen (s : GroupState K) (epoch : UInt8) : GroupState K :=
  { s with seenHigh := some (s.seenHigh.elim epoch fun high => if epoch ≤ high then high else epoch) }

/-- The lowest-numbered epoch goes. -/
def dropLowest (keys : HashMap UInt8 K) : HashMap UInt8 K :=
  match keys.keys.min? with
  | none => keys
  | some oldest => keys.erase oldest

/-- `install`, at a time. -/
def install (s : GroupState K) (now : Nat) (epoch : UInt8) (key : K) : GroupState K :=
  let keys := s.keys.insert epoch key
  { s.noteSeen epoch with
    current := epoch
    -- A reseal of the epoch that is current is not a new epoch.
    currentSince := if s.current ≠ epoch ∨ s.currentSince = none then some now else s.currentSince
    keys := Nat.iterate dropLowest (keys.entries.length - maxRetainedEpochs) keys }

/-- `has_keys`. -/
def hasKeys (s : GroupState K) : Bool := !s.keys.entries.isEmpty

/-- `next_epoch`. -/
def nextEpoch (s : GroupState K) : UInt8 := (s.seenHigh.elim s.current fun high => if s.current ≤ high then high else s.current) + 1

end GroupState

/-- `SenderKeysGroup`. -/
structure SenderKeysGroup (K : Type) where
  groups : HashMap String (GroupState K)

namespace SenderKeysGroup

variable {K : Type}

/-- `new`. -/
def new : SenderKeysGroup K := ⟨∅⟩

/-- `new_owner_epoch`, at a time and with the key that was drawn: the epoch of the key too. -/
def newOwnerEpoch (g : SenderKeysGroup K) (now : Nat) (convId : String) (key : K) : SenderKeysGroup K × UInt8 :=
  let epoch := (g.groups.lookup convId).elim 0 GroupState.nextEpoch
  let state : GroupState K := { GroupState.default with seenHigh := (g.groups.lookup convId).bind GroupState.seenHigh }
  (⟨g.groups.insert convId (state.install now epoch key)⟩, epoch)

/-- `note_observed_epoch`. -/
def noteObservedEpoch (g : SenderKeysGroup K) (convId : String) (epoch : UInt8) : SenderKeysGroup K :=
  ⟨g.groups.insert convId (((g.groups.lookup convId).getD GroupState.default).noteSeen epoch)⟩

/-- `is_behind`. -/
def isBehind (g : SenderKeysGroup K) (convId : String) : Bool :=
  (g.groups.lookup convId).any fun s => s.seenHigh.any fun high => (s.keys.lookup high).isNone

/-- `rotate`, at a time and with the key that was drawn. -/
def rotate (g : SenderKeysGroup K) (now : Nat) (convId : String) (key : K) : SenderKeysGroup K × UInt8 :=
  match g.groups.lookup convId with
  | none => g.newOwnerEpoch now convId key
  | some state => (⟨g.groups.insert convId (state.install now state.nextEpoch key)⟩, state.nextEpoch)

theorem rotate_of_none {g : SenderKeysGroup K} {convId : String} (h : g.groups.lookup convId = none) (now : Nat) (key : K) :
    g.rotate now convId key = g.newOwnerEpoch now convId key := by
  unfold rotate
  rw [h]

theorem rotate_of_some {g : SenderKeysGroup K} {convId : String} {state : GroupState K} (h : g.groups.lookup convId = some state)
    (now : Nat) (key : K) :
    g.rotate now convId key = (⟨g.groups.insert convId (state.install now state.nextEpoch key)⟩, state.nextEpoch) := by
  unfold rotate
  rw [h]

/-- `install`, at a time. -/
def install (g : SenderKeysGroup K) (now : Nat) (convId : String) (epoch : UInt8) (key : K) : SenderKeysGroup K :=
  ⟨g.groups.insert convId (((g.groups.lookup convId).getD GroupState.default).install now epoch key)⟩

/-- `has_real_key`. -/
def hasRealKey (g : SenderKeysGroup K) (convId : String) : Bool := (g.groups.lookup convId).any GroupState.hasKeys

/-- `current_epoch_age`, at a time. -/
def currentEpochAge (g : SenderKeysGroup K) (now : Nat) (convId : String) : Option Nat :=
  (((g.groups.lookup convId).filter GroupState.hasKeys).bind GroupState.currentSince).map fun since => now - since

/-- `forget`. -/
def forget (g : SenderKeysGroup K) (convId : String) : SenderKeysGroup K := ⟨g.groups.erase convId⟩

/-- `current_epoch`. -/
def currentEpoch (g : SenderKeysGroup K) (convId : String) : UInt8 :=
  ((g.groups.lookup convId).filter GroupState.hasKeys).elim 0 GroupState.current

/-- `epoch_key`. -/
def epochKey (deterministicRoomKey : String → K) (g : SenderKeysGroup K) (convId : String) (epoch : UInt8) : Option K :=
  match (g.groups.lookup convId).filter GroupState.hasKeys with
  | some state => state.keys.lookup epoch
  | none => if epoch = 0 then some (deterministicRoomKey convId) else none

/-- The group as the codec sees it. -/
def source (deterministicRoomKey : String → K) (g : SenderKeysGroup K) : GroupKeySource K where
  currentEpoch := g.currentEpoch
  epochKey := g.epochKey deterministicRoomKey

/-- The keys that are kept for a conversation. -/
def retained (g : SenderKeysGroup K) (convId : String) : HashMap UInt8 K := (g.groups.lookup convId).elim ∅ GroupState.keys

end SenderKeysGroup

/-- `MAX_EPOCH_ADVANCE`. -/
def maxEpochAdvance : UInt8 := 64

/-- `accept_group_key_epoch`. -/
def acceptGroupKeyEpoch (hasRealKey : Bool) (currentEpoch offered : UInt8) : Bool :=
  !hasRealKey || decide (offered - currentEpoch ≤ maxEpochAdvance)

end DoubleSlash.Keys
