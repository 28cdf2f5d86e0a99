import DoubleSlash.Cluster.Descriptor
import DoubleSlash.Lib.Joined

/-!
# What the signature on a roster binds

The canonical bytes join the cluster id and the sorted identities with a bar. They tell rosters without bars apart, but nothing keeps a
bar out of a cluster id, and one that has it stands for other rosters.
-/

namespace DoubleSlash.Cluster

open Bytes Codec Joined Protocol Supernode Text

/-- The same cluster id, and the same identities but for padding. -/
def SameRoster (clusterId : String) (members : List ClusterMember) (c : ClusterConfig) : Prop :=
  clusterId = c.clusterId ∧ ∀ id, id ∈ members.map ClusterMember.normalizedId ↔ id ∈ c.members.map ClusterMember.normalizedId

/-- No bar in the cluster id or in an identity. -/
def NoBar (clusterId : String) (members : List ClusterMember) : Prop :=
  '|' ∉ clusterId.toList ∧ ∀ m ∈ members, '|' ∉ m.identityPub.toList

/-- What stands for nothing but itself: no members, and a cluster id that cannot be taken apart. -/
def Unambiguous (c : ClusterConfig) : Prop :=
  c.members = [] ∧ ('|' ∉ c.clusterId.toList ∨ c.clusterId.toList.getLast? = some '=')

namespace RostersAux

/-! ### The canonical bytes as text -/

/-- The identities in the order they are signed in. -/
def sortedIds (members : List ClusterMember) : List String :=
  (members.map ClusterMember.normalizedId).mergeSort fun a b => decide (a ≤ b)

theorem sortedIds_perm (members : List ClusterMember) : (sortedIds members).Perm (members.map ClusterMember.normalizedId) :=
  List.mergeSort_perm _ _

theorem pairwise_sortedIds (members : List ClusterMember) : (sortedIds members).Pairwise fun a b => decide (a ≤ b) = true := by
  refine List.pairwise_mergeSort ?_ ?_ _
  · intro a b c hab hbc
    exact decide_eq_true (String.le_trans (of_decide_eq_true hab) (of_decide_eq_true hbc))
  · intro a b
    rcases String.le_total a b with h | h
    · simp [h]
    · simp [h]

/-- What is signed, after the domain. -/
def rosterText (clusterId : String) (members : List ClusterMember) : List Char :=
  joined '|' clusterId.toList ((sortedIds members).map String.toList)

theorem canonicalBytes_eq (clusterId : String) (members : List ClusterMember) :
    canonicalBytes clusterId members = utf8 ("doubleslash-cluster-v1|" ++ String.ofList (rosterText clusterId members)) := by
  have hids : ∀ ids : List String, (ids.flatMap fun id => utf8 "|" ++ utf8 id) =
      utf8 (String.ofList ((ids.map String.toList).flatMap fun field => '|' :: field)) := by
    intro ids
    induction ids with
    | nil => rfl
    | cons id ids ih =>
      have hfield : String.ofList ('|' :: id.toList) = "|" ++ id := String.toList_inj.mp (by simp)
      rw [List.flatMap_cons, ih, List.map_cons, List.flatMap_cons, String.ofList_append, utf8_append, hfield, utf8_append]
  unfold canonicalBytes rosterText joined
  dsimp only
  rw [hids, String.ofList_append, utf8_append, utf8_append, String.ofList_toList, List.append_assoc]
  rfl

theorem canonicalBytes_eq_iff {clusterId clusterId' : String} {members members' : List ClusterMember} :
    canonicalBytes clusterId members = canonicalBytes clusterId' members' ↔
      rosterText clusterId members = rosterText clusterId' members' := by
  rw [canonicalBytes_eq, canonicalBytes_eq]
  constructor
  · intro h
    have htext := congrArg String.toList (utf8_inj h)
    simp only [String.toList_append, String.toList_ofList] at htext
    exact List.append_cancel_left htext
  · intro h
    rw [h]

/-- An identity without padding does not end with it. -/
theorem getLast?_norm (id : String) : (norm id).toList.getLast? ≠ some '=' := by
  unfold norm trimEndMatches
  rw [String.toList_ofList]
  intro hlast
  have hne : id.toList.rdropWhile (· == '=') ≠ [] := by
    intro hnil
    rw [hnil] at hlast
    cases hlast
  have hnot := List.rdropWhile_last_not _ _ hne
  rw [List.getLast?_eq_some_getLast hne, Option.some.injEq] at hlast
  rw [hlast] at hnot
  exact hnot rfl

theorem norm_eq_self {id : String} (h : id.toList.getLast? ≠ some '=') : norm id = id := by
  unfold norm trimEndMatches
  have hself : id.toList.rdropWhile (· == '=') = id.toList := by
    refine List.rdropWhile_eq_self_iff.mpr fun hne hlast => h ?_
    rw [List.getLast?_eq_some_getLast hne, beq_iff_eq.mp hlast]
  rw [hself, String.ofList_toList]

theorem bar_notMem_norm {id : String} (h : '|' ∉ id.toList) : '|' ∉ (norm id).toList := by
  unfold norm trimEndMatches
  rw [String.toList_ofList]
  exact fun hmem => h (List.IsPrefix.subset (List.rdropWhile_prefix _ _) hmem)

/-! ### When rosters are told apart -/

variable {clusterId clusterId' : String} {members members' : List ClusterMember} {c : ClusterConfig}

/-- Without bars the same bytes are of the same roster. -/
theorem sameRoster_of_noBar (h : NoBar clusterId members) (hc : NoBar c.clusterId c.members)
    (hbytes : canonicalBytes clusterId members = canonicalBytes c.clusterId c.members) : SameRoster clusterId members c := by
  have hfields : ∀ {members : List ClusterMember}, (∀ m ∈ members, '|' ∉ m.identityPub.toList) →
      ∀ field ∈ (sortedIds members).map String.toList, '|' ∉ field := by
    intro members hmembers field hfield
    obtain ⟨id, hid, rfl⟩ := List.mem_map.mp hfield
    obtain ⟨m, hm, rfl⟩ := List.mem_map.mp ((sortedIds_perm members).mem_iff.mp hid)
    exact bar_notMem_norm (hmembers m hm)
  obtain ⟨hid, hids⟩ := joined_inj h.1 hc.1 (hfields h.2) (hfields hc.2) (canonicalBytes_eq_iff.mp hbytes)
  refine ⟨String.toList_inj.mp hid, fun id => ?_⟩
  have hsorted : sortedIds members = sortedIds c.members := List.map_injective_iff.mpr (fun _ _ => String.toList_inj.mp) hids
  rw [← (sortedIds_perm members).mem_iff, hsorted, (sortedIds_perm c.members).mem_iff]

/-- The members of a valid config have different identities. -/
theorem nodup_of_validateMembers {seen : List String} (h : ClusterConfig.validateMembers seen members = .ok ()) :
    (members.map ClusterMember.normalizedId).Nodup ∧ ∀ m ∈ members, m.normalizedId ∉ seen := by
  induction members generalizing seen with
  | nil => exact ⟨List.nodup_nil, fun m hm => absurd hm List.not_mem_nil⟩
  | cons m members ih =>
    unfold ClusterConfig.validateMembers at h
    split at h
    · cases h
    · split at h
      · cases h
      next hseen =>
        obtain ⟨hnodup, hnew⟩ := ih h
        refine ⟨List.nodup_cons.mpr ⟨fun hmem => ?_, hnodup⟩, fun other hother => ?_⟩
        · obtain ⟨other, hother, heq⟩ := List.mem_map.mp hmem
          exact hnew other hother (heq ▸ List.mem_cons_self)
        · rcases List.mem_cons.mp hother with rfl | hother
          · exact hseen
          · exact fun hmem => hnew other hother (List.mem_cons_of_mem _ hmem)

theorem nodup_of_validate {self : String} (h : c.validate self = .ok ()) : (c.members.map ClusterMember.normalizedId).Nodup := by
  unfold ClusterConfig.validate at h
  split at h
  · cases h
  · split at h
    · cases h
    next hmembers => exact (nodup_of_validateMembers hmembers).1

/-- Valid configs of one roster have the same bytes, in whatever order they list it. -/
theorem canonicalBytes_congr {self self' : String} {c' : ClusterConfig} (h : c.validate self = .ok ()) (h' : c'.validate self' = .ok ())
    (hsame : SameRoster c'.clusterId c'.members c) :
    canonicalBytes c'.clusterId c'.members = canonicalBytes c.clusterId c.members := by
  have hperm : (c'.members.map ClusterMember.normalizedId).Perm (c.members.map ClusterMember.normalizedId) :=
    (List.perm_ext_iff_of_nodup (nodup_of_validate h') (nodup_of_validate h)).mpr hsame.2
  have hsorted : sortedIds c'.members = sortedIds c.members := by
    refine List.Perm.eq_of_pairwise (fun a b _ _ hab hba => ?_) (pairwise_sortedIds _) (pairwise_sortedIds _)
      ((sortedIds_perm _).trans (hperm.trans (sortedIds_perm _).symm))
    exact String.le_antisymm (of_decide_eq_true hab) (of_decide_eq_true hba)
  rw [canonicalBytes_eq_iff, rosterText, rosterText, hsame.1, hsorted]

theorem sameRoster_of_unambiguous (hc : Unambiguous c)
    (hbytes : canonicalBytes clusterId members = canonicalBytes c.clusterId c.members) : SameRoster clusterId members c := by
  obtain ⟨hnone, hid⟩ := hc
  have htext := canonicalBytes_eq_iff.mp hbytes
  have hsortedNil : sortedIds ([] : List ClusterMember) = [] := List.mergeSort_nil
  rw [hnone, rosterText, rosterText, hsortedNil, List.map_nil, joined_nil] at htext
  have hperm := sortedIds_perm members
  rcases List.eq_nil_or_concat (sortedIds members) with hnil | ⟨more, last, hlast⟩
  · rw [hnil, List.map_nil, joined_nil] at htext
    rw [hnil] at hperm
    refine ⟨String.toList_inj.mp htext, fun id => ?_⟩
    rw [hperm.symm.eq_nil, hnone]
    rfl
  · exfalso
    rw [List.concat_eq_append] at hlast
    have hmem : last ∈ members.map ClusterMember.normalizedId := by
      rw [← hperm.mem_iff, hlast]
      exact List.mem_append_right _ (List.mem_singleton_self last)
    obtain ⟨m, -, rfl⟩ := List.mem_map.mp hmem
    rw [hlast, List.map_append, List.map_singleton] at htext
    rcases hid with hbar | hpad
    · refine hbar (htext ▸ ?_)
      unfold joined
      rw [List.flatMap_append]
      exact List.mem_append_right _ (List.mem_append_right _ (List.mem_flatMap.mpr ⟨_, List.mem_singleton_self _, List.mem_cons_self⟩))
    · rw [← htext] at hpad
      cases hfield : m.normalizedId.toList.getLast? with
      | none =>
        rw [List.getLast?_eq_none_iff.mp hfield, getLast?_joined_nil] at hpad
        exact absurd (Option.some.inj hpad) (by decide)
      | some x =>
        rw [getLast?_joined hfield] at hpad
        exact getLast?_norm m.identityPub (hfield.trans hpad)

/-- A roster that is not of this kind has the bytes of another. -/
theorem exists_other (hc : ¬Unambiguous c) : ∃ (clusterId : String) (members : List ClusterMember),
    canonicalBytes clusterId members = canonicalBytes c.clusterId c.members ∧ ¬SameRoster clusterId members c := by
  by_cases hnone : c.members = []
  · have hid : '|' ∈ c.clusterId.toList ∧ c.clusterId.toList.getLast? ≠ some '=' := by
      refine ⟨?_, fun hpad => hc ⟨hnone, Or.inr hpad⟩⟩
      by_contra hbar
      exact hc ⟨hnone, Or.inl hbar⟩
    obtain ⟨first, field, htext⟩ := exists_joined hid.1
    have hfield : (String.ofList field).toList.getLast? ≠ some '=' := by
      rw [String.toList_ofList]
      intro hlast
      rw [htext] at hid
      exact hid.2 (@getLast?_joined _ _ _ [] _ _ hlast)
    refine ⟨String.ofList first, [⟨String.ofList field, "", none, none⟩], ?_, fun hsame => ?_⟩
    · have hsortedNil : sortedIds ([] : List ClusterMember) = [] := List.mergeSort_nil
      have hsorted : sortedIds [⟨String.ofList field, "", none, none⟩] = [String.ofList field] := by
        unfold sortedIds ClusterMember.normalizedId
        rw [List.map_singleton, List.mergeSort_singleton, norm_eq_self hfield]
      rw [canonicalBytes_eq_iff, rosterText, rosterText, hnone, hsorted, hsortedNil, List.map_singleton, List.map_nil, joined_nil,
        String.toList_ofList, String.toList_ofList, htext]
    · have hmem := (hsame.2 (norm (String.ofList field))).mp (List.mem_singleton_self _)
      rw [hnone] at hmem
      cases hmem
  · refine ⟨String.ofList (rosterText c.clusterId c.members), [], ?_, fun hsame => ?_⟩
    · have hsortedNil : sortedIds ([] : List ClusterMember) = [] := List.mergeSort_nil
      rw [canonicalBytes_eq_iff, rosterText, hsortedNil, List.map_nil, joined_nil, String.toList_ofList]
    · obtain ⟨m, hm⟩ := List.exists_mem_of_ne_nil _ hnone
      have hmem := (hsame.2 m.normalizedId).mpr (List.mem_map_of_mem hm)
      cases hmem

/-! ### What the client reads -/

theorem memberOfJson_toJson (m : ClusterMember) : memberOfJson m.toJson = some m := by
  obtain ⟨identityPub, relayAddr, clusterAddr, wsAddr⟩ := m
  cases clusterAddr with
  | none => cases wsAddr <;> rfl
  | some a => cases wsAddr <;> rfl

theorem descriptorOfJson_toJson (d : SignedClusterDescriptor) : descriptorOfJson d.toJson = some d := by
  have hmembers : ∀ members : List ClusterMember, (members.map ClusterMember.toJson).mapM memberOfJson = some members := by
    intro members
    induction members with
    | nil => rfl
    | cons m members ih =>
      rw [List.map_cons, List.mapM_cons, memberOfJson_toJson, ih]
      rfl
  have hfields : descriptorOfJson d.toJson = ((d.members.map ClusterMember.toJson).mapM memberOfJson).bind fun members =>
      some { d with members := members } := rfl
  rw [hfields, hmembers]
  rfl

theorem b64urlDecode_encode (bytes : List UInt8) : Codec.b64urlDecode (b64urlEncode bytes) = some bytes := by
  have hbody : ((b64Body bytes).map toUrlSafe).rdropWhile (· == '=') = (b64Body bytes).map toUrlSafe := by
    have hpad := rdropWhile_pad bytes 0
    rwa [List.replicate_zero, List.append_nil] at hpad
  unfold Codec.b64urlDecode b64urlEncode b64Padded
  rw [String.toList_ofList, hbody]
  dsimp only
  split
  · rw [b64Groups_b64Body]
    rfl
  · rw [b64Groups_b64Body]
    rfl

end RostersAux

open RostersAux

/-- What a client takes to be said by the holder of a key. -/
def Accepts (ed25519Verify : VerifySignature) (key : List UInt8) (d : SignedClusterDescriptor) : Prop :=
  Codec.b64urlDecode d.signer = some key ∧ ∃ expected members, d.verifiedMembers ed25519Verify expected = some members

/-- **What a signature on a roster binds.** For a holder of a key who signs, under the domain of rosters, the roster of one valid config
only. Every other valid config, and every descriptor a client accepts, is of the same roster exactly when the config has no members and
a cluster id that cannot be taken apart. Among rosters without bars it always is; the order of the members does not matter, and the
client computes the same bytes. -/
theorem roster_bound_iff (ed25519Verify : VerifySignature) (Signed : List UInt8 → Prop) (key : List UInt8) (identity : NodeIdentity)
    (hkey : Codec.b64urlDecode identity.publicId = some key)
    (hunforgeable : ∀ sig m, ed25519Verify key sig m = true → Signed m)
    (self : String) (c : ClusterConfig) (hvalid : c.validate self = .ok ())
    (hsign : ed25519Verify key (identity.sign (canonicalBytes c.clusterId c.members)) (canonicalBytes c.clusterId c.members) = true)
    (hhonest : ∀ m, Signed m → utf8 "doubleslash-cluster-v1|" <+: m → m = canonicalBytes c.clusterId c.members) :
    (((∀ self' c', ClusterConfig.validate c' self' = .ok () →
          canonicalBytes c'.clusterId c'.members = canonicalBytes c.clusterId c.members → SameRoster c'.clusterId c'.members c) ∧
        ∀ d, Accepts ed25519Verify key d → SameRoster d.clusterId d.members c) ↔ Unambiguous c) ∧
    (NoBar c.clusterId c.members → ∀ clusterId members, NoBar clusterId members →
      canonicalBytes clusterId members = canonicalBytes c.clusterId c.members → SameRoster clusterId members c) ∧
    (NoBar c.clusterId c.members → ∀ d, Accepts ed25519Verify key d → NoBar d.clusterId d.members →
      SameRoster d.clusterId d.members c) ∧
    (∀ self' c', ClusterConfig.validate c' self' = .ok () → SameRoster c'.clusterId c'.members c →
      canonicalBytes c'.clusterId c'.members = canonicalBytes c.clusterId c.members) ∧
    ∃ d, descriptorOfJson (c.sign identity).toJson = some d ∧ d.bytes = canonicalBytes c.clusterId c.members ∧
      Accepts ed25519Verify key d := by
  have hbytes : ∀ d, Accepts ed25519Verify key d → d.bytes = canonicalBytes c.clusterId c.members := by
    rintro d ⟨hsigner, expected, members, haccepted⟩
    unfold SignedClusterDescriptor.verifiedMembers at haccepted
    split at haccepted
    · cases haccepted
    next hnot =>
      have hverify : d.verify ed25519Verify = true := by
        rw [not_or, Bool.not_eq_false] at hnot
        exact hnot.2
      unfold SignedClusterDescriptor.verify at hverify
      rw [hsigner] at hverify
      split at hverify
      next pk sig hpk _ =>
        obtain rfl := Option.some.inj hpk
        refine hhonest _ (hunforgeable sig _ hverify) ?_
        exact ⟨_, (List.append_assoc _ _ _).symm⟩
      · cases hverify
  have haccepts : ∀ d : SignedClusterDescriptor, d.signer = identity.publicId →
      d.signature = b64urlEncode (identity.sign (canonicalBytes c.clusterId c.members)) →
      d.bytes = canonicalBytes c.clusterId c.members → Accepts ed25519Verify key d := by
    intro d hsigner hsignature hd
    refine ⟨hsigner ▸ hkey, identity.publicId, _, if_neg ?_⟩
    rintro (hne | hnot)
    · exact hne (congrArg norm hsigner)
    · unfold SignedClusterDescriptor.verify at hnot
      rw [hsigner, hsignature, hkey, b64urlDecode_encode, hd] at hnot
      dsimp only at hnot
      rw [hsign] at hnot
      cases hnot
  refine ⟨⟨fun h => ?_, fun h => ⟨?_, ?_⟩⟩, ?_, ?_, ?_, ?_⟩
  · by_contra hc
    obtain ⟨clusterId, members, hsame, hother⟩ := exists_other hc
    exact hother (h.2 ⟨clusterId, members, identity.publicId, _⟩ (haccepts _ rfl rfl hsame))
  · exact fun self' c' _ hsame => sameRoster_of_unambiguous h hsame
  · exact fun d hd => sameRoster_of_unambiguous h (hbytes d hd)
  · exact fun hc clusterId members hbar hsame => sameRoster_of_noBar hbar hc hsame
  · exact fun hc d hd hbar => sameRoster_of_noBar hbar hc (hbytes d hd)
  · exact fun self' c' hvalid' hsame => canonicalBytes_congr hvalid hvalid' hsame
  · exact ⟨c.sign identity, descriptorOfJson_toJson _, rfl, haccepts _ rfl rfl rfl⟩

/-- A roster of two, listed by the first. -/
def acme : ClusterConfig where
  clusterId := "acme-us"
  members := [⟨"PEER_B", "b.example:3478", none, none⟩, ⟨"AAAA", "a.example:3478", none, none⟩]

/-- A node, its signature on its roster, and the check that accepts that. -/
def acmeNode : NodeIdentity where
  publicId := "AAAA"
  sign _ := [1, 2, 3]

def acmeVerify : VerifySignature := fun key sig m =>
  decide (key = [0, 0, 0] ∧ sig = [1, 2, 3] ∧ m = canonicalBytes acme.clusterId acme.members)

theorem roster_bound_sample : ∃ d, descriptorOfJson (acme.sign acmeNode).toJson = some d ∧
    d.bytes = canonicalBytes acme.clusterId acme.members ∧ Accepts acmeVerify [0, 0, 0] d :=
  (roster_bound_iff acmeVerify (fun m => m = canonicalBytes acme.clusterId acme.members) [0, 0, 0] acmeNode rfl
    (fun _ _ h => (of_decide_eq_true h).2.2) "AAAA=" acme rfl (decide_eq_true ⟨rfl, rfl, rfl⟩) fun _ h _ => h).2.2.2.2

/-- A cluster id with a bar stands for a cluster with a member: both are valid, and one signature is good for both. -/
theorem bar_in_cluster_id :
    ClusterConfig.validate ⟨"acme", [⟨"AAAA", "a.example:3478", none, none⟩]⟩ "AAAA" = .ok () ∧
    ClusterConfig.validate ⟨"acme|AAAA", []⟩ "AAAA" = .ok () ∧
    canonicalBytes "acme|AAAA" [] = canonicalBytes "acme" [⟨"AAAA", "a.example:3478", none, none⟩] ∧
    ¬SameRoster "acme|AAAA" [] ⟨"acme", [⟨"AAAA", "a.example:3478", none, none⟩]⟩ ∧
    Accepts (fun _ sig m => decide (sig = [1, 2, 3] ∧ m = canonicalBytes "acme" [⟨"AAAA", "a.example:3478", none, none⟩])) [0, 0, 0]
      ⟨"acme|AAAA", [], "AAAA", "AQID"⟩ := by
  have hbytes : canonicalBytes "acme|AAAA" [] = canonicalBytes "acme" [⟨"AAAA", "a.example:3478", none, none⟩] := by
    decide +kernel
  refine ⟨rfl, rfl, hbytes, fun h => absurd h.1 (by decide), rfl, "AAAA", [], ?_⟩
  refine if_neg ?_
  rintro (hne | hnot)
  · exact hne rfl
  · exact absurd (decide_eq_true ⟨rfl, hbytes⟩) (Bool.eq_false_iff.mp hnot)

end DoubleSlash.Cluster
