import DoubleSlash.Lib.Base64
import DoubleSlash.Lib.Bytes
import DoubleSlash.Supernode.RoomHandlers

/-!
# Cluster rosters

`cluster.rs` of the supernode, where a roster is validated and signed, and `cluster.rs` of the client, where it is read from JSON and
verified. Both have the same canonical bytes.
-/

namespace DoubleSlash.Cluster

open Bytes Codec Protocol Supernode Text

/-- `ClusterMember`. -/
structure ClusterMember where
  identityPub : String
  relayAddr : String
  clusterAddr : Option String
  wsAddr : Option String
  deriving DecidableEq

/-- `norm`. -/
def norm (id : String) : String := trimEndMatches '=' id

/-- `normalized_id`. -/
def ClusterMember.normalizedId (m : ClusterMember) : String := norm m.identityPub

/-- `ClusterConfig`. -/
structure ClusterConfig where
  clusterId : String
  members : List ClusterMember

namespace ClusterConfig

variable (c : ClusterConfig)

/-- `contains`. -/
def contains (identityPub : String) : Bool := c.members.any fun m => m.normalizedId == norm identityPub

/-- The loop of `validate` over the members, with the identities seen. -/
def validateMembers : List String → List ClusterMember → Except String Unit
  | _, [] => .ok ()
  | seen, m :: members =>
    if trim m.relayAddr.toList = [] then .error ("cluster member " ++ m.identityPub ++ " has empty relay_addr")
    else if m.normalizedId ∈ seen then .error ("duplicate cluster member: " ++ m.identityPub)
    else validateMembers (m.normalizedId :: seen) members

/-- `validate`. -/
def validate (selfIdentityPub : String) : Except String Unit :=
  if trim c.clusterId.toList = [] then .error "cluster.cluster_id must not be empty"
  else match validateMembers [] c.members with
    | .error e => .error e
    | .ok () =>
      if !c.members.isEmpty && !c.contains selfIdentityPub then .error "this node's identity is not listed in cluster.member"
      else .ok ()

end ClusterConfig

/-- `canonical_bytes`, of both programs. -/
def canonicalBytes (clusterId : String) (members : List ClusterMember) : List UInt8 :=
  let ids := (members.map ClusterMember.normalizedId).mergeSort fun a b => decide (a ≤ b)
  utf8 "doubleslash-cluster-v1|" ++ utf8 clusterId ++ ids.flatMap fun id => utf8 "|" ++ utf8 id

/-- `SignedClusterDescriptor`. -/
structure SignedClusterDescriptor where
  clusterId : String
  members : List ClusterMember
  signer : String
  signature : String
  deriving DecidableEq

/-- The identity of a node: its public id, and how it signs. -/
structure NodeIdentity where
  publicId : String
  sign : List UInt8 → List UInt8

/-- `ClusterMembership::sign`. -/
def ClusterConfig.sign (c : ClusterConfig) (identity : NodeIdentity) : SignedClusterDescriptor where
  clusterId := c.clusterId
  members := c.members
  signer := identity.publicId
  signature := b64urlEncode (identity.sign (canonicalBytes c.clusterId c.members))

/-! ## JSON -/

/-- A field that is left out when there is none. -/
def optionalField (name : String) (value : Option String) : List (String × Json) :=
  match value with
  | none => []
  | some s => [(name, .str s)]

/-- `to_value` of a member. -/
def ClusterMember.toJson (m : ClusterMember) : Json :=
  .obj (optionalField "cluster_addr" m.clusterAddr ++ [("identity_pub", .str m.identityPub), ("relay_addr", .str m.relayAddr)] ++
    optionalField "ws_addr" m.wsAddr)

/-- `to_value` of a descriptor. -/
def SignedClusterDescriptor.toJson (d : SignedClusterDescriptor) : Json :=
  .obj [("cluster_id", .str d.clusterId), ("member", .arr (d.members.map ClusterMember.toJson)), ("signature", .str d.signature),
    ("signer", .str d.signer)]

/-- An optional text. -/
def asOptionalStr : Json → Option (Option String)
  | .null => some none
  | .str s => some (some s)
  | _ => none

/-- `from_value::<ClusterMember>` of the client. -/
def memberOfJson (v : Json) : Option ClusterMember := do
  if isStruct v 4 = false then none
  let identityPub ← (structField v 0 "identity_pub").bind Json.asStr
  let relayAddr ← (structField v 1 "relay_addr").bind Json.asStr
  let clusterAddr ← orDefault (structField v 2 "cluster_addr") asOptionalStr none
  let wsAddr ← orDefault (structField v 3 "ws_addr") asOptionalStr none
  return { identityPub, relayAddr, clusterAddr, wsAddr }

/-- `from_value::<SignedClusterDescriptor>` of the client. -/
def descriptorOfJson (v : Json) : Option SignedClusterDescriptor := do
  if isStruct v 4 = false then none
  let clusterId ← (structField v 0 "cluster_id").bind Json.asStr
  let items ← (structField v 1 "member").bind Json.asArray
  let members ← items.mapM memberOfJson
  let signer ← (structField v 2 "signer").bind Json.asStr
  let signature ← (structField v 3 "signature").bind Json.asStr
  return { clusterId, members, signer, signature }

/-! ## The client -/

/-- `ed25519_verify`: of a key, a signature and what is signed. -/
abbrev VerifySignature := List UInt8 → List UInt8 → List UInt8 → Bool

namespace SignedClusterDescriptor

variable (d : SignedClusterDescriptor)

/-- `canonical_bytes`. -/
def bytes : List UInt8 := canonicalBytes d.clusterId d.members

/-- `verify`. -/
def verify (ed25519Verify : VerifySignature) : Bool :=
  match Codec.b64urlDecode d.signer, Codec.b64urlDecode d.signature with
  | some pk, some sig => ed25519Verify pk sig d.bytes
  | _, _ => false

/-- `verified_members`. -/
def verifiedMembers (ed25519Verify : VerifySignature) (expectedSigner : String) : Option (List ClusterMember) :=
  if norm d.signer ≠ norm expectedSigner ∨ d.verify ed25519Verify = false then none
  else some (d.members.filter fun m => norm m.identityPub != norm expectedSigner)

end SignedClusterDescriptor

end DoubleSlash.Cluster
