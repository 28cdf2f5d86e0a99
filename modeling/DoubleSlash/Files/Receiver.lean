import DoubleSlash.Files.Inbound
import DoubleSlash.Lib.Run

/-!
# Runs of a manager

Everything a `FileTransferManager` is asked to do with inbound transfers, one request at a time. What it emits is kept. Each
request has its own time and its own failing file operations; the sending half, which never touches an inbound record or a
received file, may do anything in between.
-/

namespace DoubleSlash.Files

open Assoc

/-- The requests. -/
inductive Request where
  | offer (o : Offer)
  | accept (tid : String)
  | acceptLocally (tid : String)
  | reject (tid reason : String)
  | cancel (tid : String)
  | discard (tid : String)
  | chunk (tid : String) (index : Nat) (dataB64 : String)
  | chunkBytes (tid : String) (index : Nat) (data : List UInt8)
  | complete (tid : String)
  | hashed (tid : String) (actual : Except String String)
  | stall
  | retry (tid : String)
  | gc
  | setOldFileData (relPath : String) (data : List UInt8)
  /-- The sending half. -/
  | sending (outbound : HashMap String OutboundTransfer) (revoked : HashMap String ℚ)

/-- A request, when it comes and what fails during it. -/
structure Call where
  now : ℚ
  faults : Faults
  request : Request

/-- The environment during a call. -/
def FileEnv.during (E : FileEnv) (c : Call) : FileEnv := { E with now := c.now, faults := c.faults }

open FileTransferManager in
/-- What a request does. -/
def serve (E : FileEnv) (m : FileTransferManager) (st : Storage) : Request → Outcome
  | .offer o => onOfferReceived E m st o
  | .accept tid => acceptTransfer E m st tid
  | .acceptLocally tid => acceptTransferLocally E m st tid
  | .reject tid reason => rejectTransfer m st tid reason
  | .cancel tid => cancelTransfer m st tid
  | .discard tid => discardInbound E m st tid
  | .chunk tid index data => onChunkReceived E m st tid index data
  | .chunkBytes tid index data => onChunkBytesReceived E m st tid index data
  | .complete tid => onCompleteReceived E m st tid
  | .hashed tid actual => onFileHashed E m st tid actual
  | .stall => ⟨(takeStalledInbound E m).1, st, []⟩
  | .retry tid => ⟨(armRetry E m tid).1, st, []⟩
  | .gc => gc E m st
  | .setOldFileData relPath data => ⟨{ m with oldDataStore := m.oldDataStore.insert relPath data }, st, []⟩
  | .sending outbound revoked => ⟨{ m with outbound := outbound, revoked := revoked }, st, []⟩

/-- The manager, the disk and everything emitted so far. -/
structure Receiver where
  mgr : FileTransferManager
  storage : Storage
  emitted : List TransferEvent

/-- One call. -/
def Receiver.call (E : FileEnv) (s : Receiver) (c : Call) : Receiver :=
  let out := serve (E.during c) s.mgr s.storage c.request
  ⟨out.mgr, out.storage, s.emitted ++ out.events⟩

/-- A call as a step of a run; none is refused. -/
def Receiver.step (E : FileEnv) (s : Receiver) (c : Call) : Option Receiver := some (s.call E c)

/-- `FileTransferManager::new()` over a disk. -/
def Receiver.fresh (disk : Fs.Disk Path) : Receiver := ⟨{}, ⟨disk, []⟩, []⟩

end DoubleSlash.Files
