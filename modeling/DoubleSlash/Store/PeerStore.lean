import DoubleSlash.Lib.Assoc
import DoubleSlash.Lib.Text

/-!
# The peer store

`PeerStore` of `peer_store.rs`: trusted-peer records in a map keyed by the id each peer gave itself. A lookup by identity walks
the records in the map's order. The fields kept are those the handlers read or write.
-/

namespace DoubleSlash.Store

open Assoc Text

/-- `PeerRecord`; times are in seconds. -/
structure PeerRecord where
  peerId : String
  identityPub : String
  relayHints : List String := []
  handle : String := ""
  localName : String := ""
  blocked : Bool := false
  revoked : Bool := false
  autoConnect : Bool := false
  isSupernode : Bool := false
  supernodeFromInvite : Bool := false
  createdAt : Nat := 0
  lastSeenAt : Nat := 0
  quicPort : Nat := 0
  deriving DecidableEq, Repr

/-- The id without its padding: `trim_end_matches('=')`. -/
abbrev bare (id : String) : String := trimEndMatches '=' id

/-- The records by key. -/
abbrev PeerStore := HashMap String PeerRecord

namespace PeerStore

/-- `get`. -/
def get (s : PeerStore) (peerId : String) : Option PeerRecord :=
  s.lookup peerId

/-- `get_by_identity`. -/
def getByIdentity (s : PeerStore) (identityPub : String) : Option PeerRecord :=
  (values s).find? fun r => r.identityPub == identityPub

/-- `find_identity`. -/
def findIdentity (s : PeerStore) (id : String) : Option PeerRecord :=
  if bare id = "" then none
  else (s.lookup id).or ((values s).find? fun r => bare r.identityPub == bare id)

/-- `keep_local_name`. -/
def keepLocalName (s : PeerStore) (record : PeerRecord) : PeerRecord :=
  if record.localName ≠ "" ∨ record.identityPub = "" then record
  else
    match (values s).find? fun r => r.identityPub == record.identityPub && r.localName != "" with
    | some r => { record with localName := r.localName }
    | none => record

/-- `upsert`. -/
def upsert (s : PeerStore) (record : PeerRecord) : PeerStore :=
  let record := s.keepLocalName record
  s.insert record.peerId record

/-- `upsert_from_invite`: earlier records of the identity go, and a record of another identity keeps its key. -/
def upsertFromInvite (s : PeerStore) (record : PeerRecord) : PeerStore :=
  let record := s.keepLocalName record
  let s : PeerStore := retain s fun _ r => r.identityPub != record.identityPub
  let record :=
    match s.lookup record.peerId with
    | some existing =>
      if existing.identityPub ≠ record.identityPub then { record with peerId := record.identityPub } else record
    | none => record
  s.insert record.peerId record

/-- `is_trusted_sender`. -/
def isTrustedSender (s : PeerStore) (sender : String) : Bool :=
  ((s.get sender).or (s.getByIdentity sender)).any fun r => !r.blocked && !r.revoked

end PeerStore

end DoubleSlash.Store
