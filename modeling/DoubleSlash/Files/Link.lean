import DoubleSlash.Files.Receiver

/-!
# A sender and a receiver

Two managers and what is between them. Every frame the sender ever emitted may reach the receiver, at any time and any number of
times; refused frames, retries and resumes are operations of the sender. A streamed file is hashed off the receiver's loop: the
job reads the file at some later time, and its result comes back at a later time still.
-/

namespace DoubleSlash.Files

open Protocol Assoc Codec

/-- What the sending half of a manager is asked. -/
inductive SenderOp where
  | offer (peerId relPath : String) (p : PreparedOffer) (autoPush : Bool)
  | accepted (tid : String) (resumeFrom : Option Nat)
  | start (tid requester : String) (fromChunk budget : Nat)
  | pump (tid : String) (budget : Nat)
  | rejected (tid : String)
  | acked (tid : String)
  | errored (tid reason : String)
  /-- The transport refused the last chunks. -/
  | unsend (tid : String) (n : Nat)
  /-- The transport took COMPLETE. -/
  | completed (tid : String)
  | progressed (tid : String)
  | stalled (tid : String)
  | revoke (tid : String)
  | cancel (tid : String)
  | gc

open FileTransferManager in
/-- What it does. -/
def SenderOp.apply (E : FileEnv) (m : FileTransferManager) : SenderOp → FileTransferManager × List TransferEvent
  | .offer peerId relPath p autoPush => insertPrepared E m peerId relPath p autoPush
  | .accepted tid resumeFrom => onTransferAcceptedFrom E m tid resumeFrom
  | .start tid requester fromChunk budget => startStreamFrom E m tid requester fromChunk budget
  | .pump tid budget => pumpStream E m tid budget
  | .rejected tid => onTransferRejected m tid
  | .acked tid => onTransferAck E m tid
  | .errored tid reason => onTransferError m tid reason
  | .unsend tid n => (unsendChunks m tid n, [])
  | .completed tid => (markOutboundComplete E m tid, [])
  | .progressed tid => (noteSendProgress E m tid, [])
  | .stalled tid => noteSendStalled E m tid
  | .revoke tid => (revokeOutbound E m tid, [])
  | .cancel tid => ((cancelOutbound m {} tid).mgr, (cancelOutbound m {} tid).events)
  | .gc => ((FileTransferManager.gc E m {}).mgr, [])

/-- How often the id was offered and filed. -/
def offerings (tid : String) (events : List TransferEvent) : Nat :=
  events.countP fun
    | .offered id .. => id == tid
    | _ => false

/-- How often the id was reported complete. -/
def completions (tid : String) (events : List TransferEvent) : Nat :=
  events.countP fun
    | .complete id .. => id == tid
    | _ => false

/-- A file to be hashed, and which offering of the id asked for it. -/
structure HashJob where
  tid : String
  path : Path
  asked : Nat

/-- The hash of a file, or why it could not be read. -/
structure HashResult where
  tid : String
  actual : Except String String
  asked : Nat

/-- The two managers, and what is under way between and beside them. -/
structure Link where
  sender : FileTransferManager
  /-- What the sender emitted. -/
  sent : List TransferEvent
  receiver : Receiver
  jobs : List HashJob := []
  results : List HashResult := []
  /-- What the receiver was asked. -/
  log : List Request := []

/-- What a frame asks of the receiver. In a room a chunk travels sealed and is opened to its bytes. -/
def requestOf (room : Bool) : TransferEvent → Option Request
  | .sendMessage _ .fileTransferChunk payload =>
    let tid := payload.strOr "transfer_id" ""
    let index := payload.natOr "chunk_index" 0
    let data := payload.strOr "data" ""
    if room then (b64Decode data).map (.chunkBytes tid index) else some (.chunk tid index data)
  | .sendMessage _ .fileTransferComplete payload => some (.complete (payload.strOr "transfer_id" ""))
  | _ => none

/-- The job an event asks for, when so much was emitted. -/
def jobOf (emitted : List TransferEvent) : TransferEvent → Option HashJob
  | .hashFile tid path => some ⟨tid, path, offerings tid emitted⟩
  | _ => none

/-- The receiver is asked something. -/
def Link.ask (E : FileEnv) (s : Link) (c : Call) : Link :=
  let events := (serve (E.during c) s.receiver.mgr s.receiver.storage c.request).events
  { s with
    receiver := s.receiver.call E c
    jobs := s.jobs ++ events.filterMap (jobOf (s.receiver.emitted ++ events))
    log := s.log ++ [c.request] }

/-- `sha256_file` of a job. -/
def hashOf (E : FileEnv) (faults : Faults) (disk : Fs.Disk Path) (path : Path) : Except String String :=
  match if faults.fails .hash path then none else disk.read (resolve path) with
  | some content => .ok (E.sha256Hex content)
  | none => .error (faults.message .hash)

/-- What happens. Frames, jobs and results are named by their place. -/
inductive LinkAct where
  | send (now : ℚ) (op : SenderOp)
  | deliver (now : ℚ) (faults : Faults) (room : Bool) (frame : Nat)
  | call (c : Call)
  | hash (faults : Faults) (job : Nat)
  | report (now : ℚ) (faults : Faults) (result : Nat)

/-- Whether a request is a hash result. -/
def Request.isHashed : Request → Bool
  | .hashed .. => true
  | _ => false

/-- Whether an operation offers the id. Ids are drawn anew for each offer. -/
def SenderOp.offersId (tid : String) : SenderOp → Bool
  | .offer _ _ p _ => p.transferId == tid
  | _ => false

/-- One step of the link on which the transfer `tid` was offered. -/
def linkStep (E : FileEnv) (tid : String) (s : Link) : LinkAct → Option Link
  | .send now op =>
    if op.offersId tid then none
    else
      let out := op.apply { E with now := now } s.sender
      some { s with sender := out.1, sent := s.sent ++ out.2 }
  | .deliver now faults room frame => (s.sent[frame]?.bind (requestOf room)).map fun r => s.ask E ⟨now, faults, r⟩
  | .call c => if c.request.isHashed then none else some (s.ask E c)
  | .hash faults job =>
    s.jobs[job]?.map fun j =>
      { s with
        jobs := s.jobs.eraseIdx job
        results := s.results ++ [⟨j.tid, hashOf E faults s.receiver.storage.disk j.path, j.asked⟩] }
  | .report now faults result =>
    s.results[result]?.map fun r =>
      { s.ask E ⟨now, faults, .hashed r.tid r.actual⟩ with results := s.results.eraseIdx result }

end DoubleSlash.Files
