import DoubleSlash.Keys.RoomSession
import DoubleSlash.Lemmas.DeviceCalls

/-!
# The rooms of a client, operation by operation

Scopes and unions of snapshots, the keys an operation hands out, and what stays quiet about a room of which there is no snapshot.
-/

namespace DoubleSlash.Keys

open Assoc Protocol SetMap Text Tls

/-! ### Scopes -/

theorem isScopeOf_iff {roomId scope : String} : isScopeOf roomId scope = true ↔ ∃ node, scope = roomScopeKey node roomId := by
  unfold isScopeOf roomScopeKey
  rw [List.isSuffixOf_iff_suffix]
  constructor
  · rintro ⟨front, hfront⟩
    refine ⟨String.ofList front, String.toList_inj.mp ?_⟩
    rw [String.toList_append, String.toList_ofList, hfront]
  · rintro ⟨node, rfl⟩
    exact ⟨node.toList, (String.toList_append ..).symm⟩

theorem isScopeOf_key (node roomId : String) : isScopeOf roomId (roomScopeKey node roomId) = true := isScopeOf_iff.mpr ⟨node, rfl⟩

/-- The node of a scope, put before its room again. -/
theorem roomScopeKey_node {roomId scope : String} (h : isScopeOf roomId scope = true) :
    roomScopeKey (String.ofList (scope.toList.take (scope.toList.length - (":" ++ roomId).toList.length))) roomId = scope := by
  obtain ⟨node, rfl⟩ := isScopeOf_iff.mp h
  have happ : (roomScopeKey node roomId).toList = node.toList ++ (":" ++ roomId).toList := String.toList_append
  rw [happ, List.length_append, Nat.add_sub_cancel_right, List.take_left, String.ofList_toList]

theorem mem_unionMembersForRoom (snapshots : HashMap String (Finset String)) (roomId m : String) :
    m ∈ unionMembersForRoom snapshots roomId ↔
      ∃ scope members, snapshots.lookup scope = some members ∧ isScopeOf roomId scope = true ∧ m ∈ members := by
  have hfold (entries : List ((_ : String) × Finset String)) :
      m ∈ entries.foldr (fun e union => e.2 ∪ union) ∅ ↔ ∃ e ∈ entries, m ∈ e.2 := by
    induction entries with
    | nil => simp
    | cons e entries ih => simp [ih]
  unfold unionMembersForRoom
  rw [hfold]
  constructor
  · rintro ⟨e, he, hm⟩
    obtain ⟨hmem, hscope⟩ := List.mem_filter.mp he
    exact ⟨e.1, e.2, AList.mem_lookup_iff.mpr hmem, hscope, hm⟩
  · rintro ⟨scope, members, hlook, hscope, hm⟩
    exact ⟨⟨scope, members⟩, List.mem_filter.mpr ⟨AList.mem_lookup_iff.mp hlook, hscope⟩, hm⟩

namespace RoomSession

variable {c : RoomSealing} {s : RoomSession} {now : Nat} {roomId r : String}

theorem mem_union (m : String) : m ∈ s.union roomId ↔
    ∃ scope members, s.roomGroupMembers.lookup scope = some members ∧ isScopeOf roomId scope = true ∧ m ∈ members :=
  mem_unionMembersForRoom ..

theorem mem_of_memberOf {sender member : String} (h : s.memberOf roomId sender = some member) : member ∈ s.union roomId := by
  unfold memberOf at h
  exact mem_inOrder.mp (List.mem_of_find?_eq_some h)

end RoomSession

/-- A key of the room, a request for it, or a join of the room. -/
def RoomSend.Concerns (r : String) : RoomSend → Prop
  | .groupKey roomId _ _ _ | .groupKeyRequest roomId _ | .join _ roomId => roomId = r
  | .ownKey message => (message.payload.get "room_id").bind Json.asStr = some r
  | .groupKeyAck _ _ _ | .leave _ _ | .subscribe _ _ => False

namespace RoomSession

/-- There is no snapshot of the room, no key of it is under way, and no join. -/
structure Quiet (r : String) (s : RoomSession) : Prop where
  snapshots : ∀ scope, isScopeOf r scope = true → scope ∉ s.roomGroupMembers
  acks : ∀ member, (r, member) ∉ s.pendingGroupKeyAcks
  joins : ∀ node, (node, r) ∉ s.pendingRoomJoinRetries

/-- The outcome is quiet about the room, and so is what is sent. -/
structure QuietOut (r : String) (out : RoomSession × List RoomSend) : Prop where
  quiet : Quiet r out.1
  silent : ∀ m ∈ out.2, ¬m.Concerns r

variable {c : RoomSealing} {s t : RoomSession} {now : Nat} {roomId r : String}

theorem Quiet.union_empty (h : Quiet r s) : s.union r = ∅ := by
  refine Finset.eq_empty_of_forall_notMem fun m hm => ?_
  obtain ⟨scope, members, hlook, hscope, -⟩ := (mem_union m).mp hm
  exact h.snapshots scope hscope (AList.lookup_isSome.mp (by rw [hlook]; rfl))

theorem Quiet.nothing (h : Quiet r s) : QuietOut r (s, []) := ⟨h, fun _ hm => absurd hm List.not_mem_nil⟩

/-- The parts that quiet is read from are the same. -/
theorem Quiet.congr (h : Quiet r s) (hmembers : t.roomGroupMembers = s.roomGroupMembers)
    (hacks : t.pendingGroupKeyAcks = s.pendingGroupKeyAcks) (hjoins : t.pendingRoomJoinRetries = s.pendingRoomJoinRetries) :
    Quiet r t := by
  refine ⟨?_, ?_, ?_⟩
  · rw [hmembers]
    exact h.snapshots
  · rw [hacks]
    exact h.acks
  · rw [hjoins]
    exact h.joins

/-- Entries of acks that go leave the room quiet. -/
theorem Quiet.retainAcks (h : Quiet r s) (keep : String × String → PendingGroupKeyAck → Bool) :
    Quiet r { s with pendingGroupKeyAcks := retain s.pendingGroupKeyAcks keep } := by
  refine ⟨h.snapshots, fun member hin => ?_, h.joins⟩
  rw [← AList.lookup_isSome, lookup_retain, AList.lookup_eq_none.mpr (h.acks member)] at hin
  cases hin

theorem Quiet.eraseAck (h : Quiet r s) (key : String × String) :
    Quiet r { s with pendingGroupKeyAcks := s.pendingGroupKeyAcks.erase key } :=
  ⟨h.snapshots, fun member hin => h.acks member (AList.mem_erase.mp hin).2, h.joins⟩

/-- Joins that go leave the room quiet. -/
theorem Quiet.retainJoins (h : Quiet r s) (keep : String × String → PendingRoomJoinRetry → Bool) :
    Quiet r { s with pendingRoomJoinRetries := retain s.pendingRoomJoinRetries keep } := by
  refine ⟨h.snapshots, h.acks, fun node hin => ?_⟩
  rw [← AList.lookup_isSome, lookup_retain, AList.lookup_eq_none.mpr (h.joins node)] at hin
  cases hin

theorem QuietOut.append {out : RoomSession × List RoomSend} (h : QuietOut r out) {sent : List RoomSend}
    (hsent : ∀ m ∈ sent, ¬m.Concerns r) : QuietOut r (out.1, sent ++ out.2) := by
  refine ⟨h.quiet, fun m hm => ?_⟩
  rcases List.mem_append.mp hm with hm | hm
  · exact hsent m hm
  · exact h.silent m hm

/-- Steps one after another, each of which keeps the room quiet. -/
theorem quietOut_foldl {α : Type} {step : RoomSession × List RoomSend → α → RoomSession × List RoomSend} {l : List α}
    (hstep : ∀ acc a, a ∈ l → QuietOut r acc → QuietOut r (step acc a)) {acc : RoomSession × List RoomSend}
    (h : QuietOut r acc) : QuietOut r (l.foldl step acc) := by
  induction l generalizing acc with
  | nil => exact h
  | cons a l ih =>
    exact ih (fun acc b hb => hstep acc b (List.mem_cons_of_mem a hb)) (hstep acc a List.mem_cons_self h)

/-! ### Keys that are handed out -/

theorem quiet_distribute (h : Quiet r s) (epoch : UInt8) (key : List UInt8) {members : List String}
    (hroom : roomId = r → members = []) : QuietOut r (s.distributeGroupKey c now roomId epoch key members) := by
  unfold distributeGroupKey
  refine quietOut_foldl (fun acc member hmember hacc => ?_) h.nothing
  have hne : roomId ≠ r := fun heq => by
    rw [hroom heq] at hmember
    exact List.not_mem_nil hmember
  unfold sendGroupKey
  split
  · refine ⟨⟨hacc.quiet.snapshots, fun other hin => ?_, hacc.quiet.joins⟩, fun m hm => ?_⟩
    · rcases (AList.mem_insert _).mp hin with heq | hin
      · exact hne (congrArg Prod.fst heq).symm
      · exact hacc.quiet.acks other hin
    · rcases List.mem_append.mp hm with hm | hm
      · exact hacc.silent m hm
      · obtain rfl := List.mem_singleton.mp hm
        exact hne
  · exact hacc

theorem quiet_sealCurrentEpoch (h : Quiet r s) (hne : roomId ≠ r) (member : String) :
    QuietOut r (s.sealCurrentEpoch c now roomId member) := by
  unfold sealCurrentEpoch
  dsimp only
  split
  · exact h.nothing
  · split
    · exact h.nothing
    · exact quiet_distribute (h.eraseAck _) _ _ fun heq => absurd heq hne

/-- A member of a room of which there is no snapshot is not found. -/
theorem Quiet.ne_of_member (h : Quiet r s) {sender member : String} (hmember : s.memberOf roomId sender = some member) :
    roomId ≠ r := by
  rintro rfl
  have hin := mem_of_memberOf hmember
  rw [h.union_empty] at hin
  exact Finset.notMem_empty _ hin

theorem quiet_serve (h : Quiet r s) (sender : String) : QuietOut r (s.serveGroupKeyRequest c now roomId sender) := by
  unfold serveGroupKeyRequest
  split
  · exact h.nothing
  · rename_i member hmember
    split
    · exact h.nothing
    · split
      · exact h.nothing
      · exact quiet_sealCurrentEpoch h (h.ne_of_member hmember) member

theorem quiet_reseal (h : Quiet r s) (sender : String) (epoch : UInt8) :
    QuietOut r (s.resealToLaggingMember c now roomId sender epoch) := by
  unfold resealToLaggingMember
  split
  · exact h.nothing
  · split
    · exact h.nothing
    · split
      · exact h.nothing
      · rename_i member hmember
        split
        · exact h.nothing
        · exact quiet_sealCurrentEpoch h (h.ne_of_member hmember) member

theorem quiet_rekey (h : Quiet r s) (key : List UInt8) : QuietOut r (s.rekeyRoomIfBehind c now roomId key) := by
  unfold rekeyRoomIfBehind
  split
  · exact h.nothing
  · split
    · exact h.nothing
    · split
      · exact h.nothing
      · rename_i hsome
        refine quiet_distribute (Quiet.retainAcks ?_ _) _ _ fun heq => absurd ?_ hsome
        · exact h.congr rfl rfl rfl
        · rw [heq]
          exact h.union_empty

/-! ### Keys that are asked for -/

/-- What `request_own_room_key` sends is about its room. -/
theorem concerns_ownKey {d : RoomKeyDevice} {message : SignalingMessage} (h : message ∈ (d.requestOwnRoomKey now roomId).2)
    (hconcerns : (RoomSend.ownKey message).Concerns r) : roomId = r := by
  unfold RoomKeyDevice.requestOwnRoomKey at h
  split at h
  · split at h
    · cases h
    · dsimp only at h
      split at h
      · cases h
      · obtain ⟨device, -, rfl⟩ := List.mem_map.mp h
        exact Option.some.inj hconcerns
  · cases h

theorem ownKey_silent {d : RoomKeyDevice} (hne : roomId ≠ r) (m : RoomSend)
    (hm : m ∈ (d.requestOwnRoomKey now roomId).2.map RoomSend.ownKey) : ¬m.Concerns r := by
  obtain ⟨message, hmessage, rfl⟩ := List.mem_map.mp hm
  exact fun hconcerns => hne (concerns_ownKey hmessage hconcerns)

theorem quiet_request (h : Quiet r s) (challenge : List UInt8) : QuietOut r (s.requestGroupKey c now roomId challenge) := by
  have hdropped : QuietOut r (s.dropRequest roomId, []) := (h.congr rfl rfl rfl : Quiet r (s.dropRequest roomId)).nothing
  unfold requestGroupKey
  split
  · exact hdropped
  · split
    · exact hdropped
    · rename_i hsome
      have hne : roomId ≠ r := fun heq => hsome (heq ▸ h.union_empty)
      dsimp only
      split
      · exact h.nothing
      · split
        · exact hdropped
        · split
          · exact h.nothing
          · split
            · unfold askOwnDevices
              dsimp only
              split
              · exact Quiet.nothing (h.congr (by rfl) (by rfl) (by rfl))
              · exact ⟨h.congr rfl rfl rfl, ownKey_silent hne⟩
            · unfold askKeyer
              split
              · refine ⟨h.congr rfl rfl rfl, fun m hm => ?_⟩
                obtain rfl := List.mem_singleton.mp hm
                exact hne
              · exact h.nothing

/-! ### Timers -/

theorem quiet_retryRequests (h : Quiet r s) (challenge : String → List UInt8) :
    QuietOut r (s.retryGroupKeyRequests c now challenge) := by
  unfold retryGroupKeyRequests
  refine quietOut_foldl (fun acc room _ hacc => ?_) (Quiet.nothing (h.congr rfl rfl rfl))
  have hone : QuietOut r (acc.1.requestGroupKey c now room (challenge room)) := quiet_request hacc.quiet (challenge room)
  exact hone.append hacc.silent

theorem quiet_retryKeys (h : Quiet r s) : QuietOut r (s.retryPendingGroupKeys c now) := by
  unfold retryPendingGroupKeys
  refine quietOut_foldl (fun acc retry hretry hacc => ?_) (h.retainAcks _).nothing
  obtain ⟨e, he, rfl⟩ := List.mem_map.mp hretry
  have hne : e.1.1 ≠ r := by
    rintro rfl
    exact h.acks e.1.2 (AList.mem_keys.mpr (List.mem_map_of_mem (List.mem_filter.mp he).1))
  unfold resealPending
  split
  · exact ⟨hacc.quiet.eraseAck _, hacc.silent⟩
  · exact (quiet_distribute hacc.quiet _ _ fun heq => absurd heq hne).append hacc.silent

theorem quiet_join (h : Quiet r s) (routes : RoomRoutes) (node : String) (hne : roomId ≠ r) :
    QuietOut r (s.sendRoomJoin routes node roomId) := by
  unfold sendRoomJoin
  dsimp only
  refine ⟨?_, fun m hm => ?_⟩
  · split
    · exact h.congr rfl rfl rfl
    · exact h
  · obtain rfl := List.mem_singleton.mp hm
    exact hne

theorem quiet_retryJoins (h : Quiet r s) (routes : RoomRoutes) : QuietOut r (s.retryPendingRoomJoins routes now) := by
  unfold retryPendingRoomJoins
  refine quietOut_foldl (fun acc key hkey hacc => ?_) (h.retainJoins _).nothing
  obtain ⟨e, he, rfl⟩ := List.mem_map.mp hkey
  have hne : e.1.2 ≠ r := by
    rintro rfl
    exact h.joins e.1.1 (AList.mem_keys.mpr (List.mem_map_of_mem (List.mem_filter.mp he).1))
  have htried : Quiet r { acc.1 with
      pendingRoomJoinRetries := modify acc.1.pendingRoomJoinRetries e.1 fun p => { lastSent := now, attempts := p.attempts + 1 } } := by
    refine ⟨hacc.quiet.snapshots, hacc.quiet.acks, fun node hin => ?_⟩
    rw [← AList.lookup_isSome, lookup_modify] at hin
    refine hacc.quiet.joins node (AList.lookup_isSome.mp ?_)
    split at hin
    · rename_i heq
      rw [← heq] at hin
      simpa using hin
    · exact hin
  exact (quiet_join htried routes e.1.1 hne).append hacc.silent

/-! ### Rosters -/

theorem quiet_keyRoom (h : Quiet r s) (hne : roomId ≠ r) (unionOld : Finset String) (key : List UInt8) :
    QuietOut r (s.keyRoom c now roomId unionOld key) := by
  have hkept := h.retainAcks fun key _ => decide (key.1 ≠ roomId) || decide (key.2 ∈ s.union roomId)
  unfold keyRoom
  dsimp only
  split
  · exact quiet_distribute (hkept.congr (by rfl) (by rfl) (by rfl)) _ _ fun heq => absurd heq hne
  · split
    · refine quiet_distribute (Quiet.retainAcks ?_ _) _ _ fun heq => absurd heq hne
      exact hkept.congr rfl rfl rfl
    · split
      · split
        · exact hkept.nothing
        · exact quiet_distribute hkept _ _ fun heq => absurd heq hne
      · exact hkept.nothing

/-- The roster of a room under a scope that is not one of the quiet room. -/
theorem quiet_sync (h : Quiet r s) {node : String} (hscope : isScopeOf r (roomScopeKey node roomId) = false)
    (members : List String) (key challenge : List UInt8) :
    QuietOut r (s.syncRoomMembership c now node roomId members key challenge) := by
  have hne : roomId ≠ r := by
    rintro rfl
    rw [isScopeOf_key] at hscope
    cases hscope
  unfold syncRoomMembership
  dsimp only
  refine QuietOut.append ?_ (ownKey_silent hne)
  have hinserted : ∀ scope, isScopeOf r scope = true →
      scope ∉ s.roomGroupMembers.insert (roomScopeKey node roomId) (members.filter fun m => m != s.publicId ||
        (s.deviceId.isSome && decide (1 < (s.roomDevices roomId s.publicId).length))).toFinset := by
    intro scope hof hin
    rcases (AList.mem_insert _).mp hin with rfl | hin
    · rw [hof] at hscope
      cases hscope
    · exact h.snapshots scope hof hin
  have hquiet (d : RoomKeyDevice) : Quiet r { s with
      toRoomKeyDevice := d
      roomGroupMembers := s.roomGroupMembers.insert (roomScopeKey node roomId) (members.filter fun m => m != s.publicId ||
        (s.deviceId.isSome && decide (1 < (s.roomDevices roomId s.publicId).length))).toFinset } :=
    ⟨hinserted, h.acks, h.joins⟩
  split
  · exact quiet_request ((hquiet _).retainAcks _) challenge
  · exact quiet_keyRoom (hquiet _) hne _ key

theorem quiet_applyRosters (h : Quiet r s) {node : String} (hscope : isScopeOf r (roomScopeKey node roomId) = false)
    (members chatMembers : List String) (key challenge : List UInt8) :
    QuietOut r (s.applyRoomRosters c now node roomId members chatMembers key challenge) := by
  unfold applyRoomRosters
  have hvoice (voice : Finset String) : Quiet r { s with
      roomVoiceMembers := s.roomVoiceMembers.insert (roomScopeKey node roomId) voice } := h.congr rfl rfl rfl
  exact quiet_sync (hvoice _) hscope chatMembers key challenge

theorem quiet_peerJoined (h : Quiet r s) {node : String} (hscope : isScopeOf r (roomScopeKey node roomId) = false) (peerId : String)
    (key challenge : List UInt8) : QuietOut r (s.applyRoomPeerJoined c now node roomId peerId key challenge) := by
  unfold applyRoomPeerJoined
  have hsync : QuietOut r (s.syncRoomMembership c now node roomId (inOrder (insert peerId (s.snapshotWithMe node roomId))) key
      challenge) := quiet_sync h hscope _ key challenge
  dsimp only
  split
  · exact hsync
  · exact ⟨hsync.quiet.congr rfl rfl rfl, hsync.silent⟩

theorem quiet_members (h : Quiet r s) {node : String} (hscope : isScopeOf r (roomScopeKey node roomId) = false) (routes : RoomRoutes)
    (members chatMembers : List String) (devices : Option Json) (key challenge : List UInt8) :
    QuietOut r (s.onSfuMembers c now routes node roomId members chatMembers devices key challenge) := by
  unfold onSfuMembers
  split
  · exact h.nothing
  · have hrecorded : Quiet r { s with
        toRoomKeyDevice := (s.recordRoomDevices c.hashing node roomId devices challenge).1 } := h.congr rfl rfl rfl
    dsimp only
    split
    · exact hrecorded.nothing
    · have hkept := hrecorded.retainJoins fun key _ => decide (key.2 ≠ roomId)
      refine quiet_applyRosters ?_ hscope members chatMembers key challenge
      split
      · exact hkept.congr rfl rfl rfl
      · exact hkept

/-! ### Messages about keys -/

theorem quiet_groupKey (h : Quiet r s) (sender : String) (device : Option DeviceId) (epoch : UInt8) (key : List UInt8) :
    QuietOut r (s.onSfuGroupKey c now sender device roomId epoch key) := by
  unfold onSfuGroupKey
  split
  · exact h.nothing
  · refine ⟨h.congr rfl rfl rfl, fun m hm => ?_⟩
    dsimp only at hm
    split at hm
    · obtain rfl := List.mem_singleton.mp hm
      exact id
    · cases hm

theorem quiet_groupKeyAck (h : Quiet r s) (sender : String) (epoch : UInt8) : Quiet r (s.onSfuGroupKeyAck sender roomId epoch) := by
  unfold onSfuGroupKeyAck
  split
  · exact h.eraseAck _
  · exact h

/-- A sync message is followed by a roster that is there already. -/
theorem quiet_deviceKeySync (h : Quiet r s) (message : SignalingMessage) (key challenge : List UInt8) :
    Quiet r (s.onSfuDeviceKeySync c now message key challenge).1 := by
  unfold onSfuDeviceKeySync
  generalize s.handleOwnRoomKeySync c.hashing now message = handled
  have hhandled : Quiet r { s with toRoomKeyDevice := handled.1 } := h.congr rfl rfl rfl
  dsimp only
  split
  · exact hhandled
  · rename_i room _
    split
    · exact hhandled
    · rename_i host members hfirst
      obtain ⟨e, he, hpair⟩ := Option.map_eq_some_iff.mp hfirst
      obtain ⟨rfl, rfl⟩ := Prod.mk.inj hpair
      have hof : isScopeOf room e.1 = true := by simpa using List.find?_some he
      have hin : e.1 ∈ s.roomGroupMembers := AList.mem_keys.mpr (List.mem_map_of_mem (List.mem_of_find?_eq_some he))
      dsimp only
      refine (quiet_sync hhandled ?_ _ key challenge).quiet
      rw [roomScopeKey_node hof, Bool.eq_false_iff]
      exact fun hscope => h.snapshots e.1 hscope hin

theorem quiet_frame (h : Quiet r s) (sender : String) (epoch : UInt8) (key challenge : List UInt8) :
    QuietOut r (s.onUnopenableRoomFrame c now roomId sender epoch key challenge) := by
  unfold onUnopenableRoomFrame
  dsimp only
  generalize hnoted : ({ s with groupKeys := s.groupKeys.noteObservedEpoch roomId epoch } : RoomSession) = noted
  have hquiet : Quiet r noted := hnoted ▸ h.congr rfl rfl rfl
  have hrekeyed : QuietOut r (noted.rekeyRoomIfBehind c now roomId key) := quiet_rekey hquiet key
  have hasked : QuietOut r ((noted.rekeyRoomIfBehind c now roomId key).1.requestGroupKey c now roomId challenge) :=
    quiet_request hrekeyed.quiet challenge
  refine QuietOut.append (quiet_reseal hasked.quiet sender epoch) fun m hm => ?_
  rcases List.mem_append.mp hm with hm | hm
  · exact hrekeyed.silent m hm
  · exact hasked.silent m hm

theorem quiet_absent (h : Quiet r s) (node : String) (hne : roomId ≠ r) : Quiet r (s.onRoomAbsent now node roomId) := by
  unfold onRoomAbsent
  refine ⟨h.snapshots, h.acks, fun other hin => ?_⟩
  dsimp only at hin
  split at hin
  · exact h.joins other hin
  · rcases (AList.mem_insert _).mp hin with heq | hin
    · exact hne (congrArg Prod.snd heq).symm
    · exact h.joins other hin

theorem quiet_leave (h : Quiet r s) (routes : RoomRoutes) (node : String) (challenge : List UInt8) :
    Quiet r (s.leaveRoomVoice c routes node roomId challenge).1 := by
  have hkept := h.retainJoins fun key _ => decide (key.2 ≠ roomId)
  unfold leaveRoomVoice
  dsimp only
  split
  · exact hkept.congr rfl rfl rfl
  · have hdropped := hkept.retainAcks fun key _ => decide (key.1 ≠ roomId)
    refine ⟨fun scope hof hin => ?_, hdropped.acks, hdropped.joins⟩
    exact hdropped.snapshots scope hof (AList.mem_erase.mp hin).2

/-! ### Device rosters -/

/-- The identity, the device and the device rosters are the same. -/
structure SameRosters (d e : RoomKeyDevice) : Prop where
  publicId : e.publicId = d.publicId
  deviceId : e.deviceId = d.deviceId
  rosters : e.roomDeviceRosters = d.roomDeviceRosters

theorem SameRosters.refl (d : RoomKeyDevice) : SameRosters d d := ⟨rfl, rfl, rfl⟩

theorem SameRosters.trans {d e f : RoomKeyDevice} (h : SameRosters d e) (h' : SameRosters e f) : SameRosters d f :=
  ⟨h'.publicId.trans h.publicId, h'.deviceId.trans h.deviceId, h'.rosters.trans h.rosters⟩

theorem sameRosters_foldl {α : Type} {step : RoomSession × List RoomSend → α → RoomSession × List RoomSend}
    (hstep : ∀ acc a, SameRosters acc.1.toRoomKeyDevice (step acc a).1.toRoomKeyDevice) (l : List α)
    (acc : RoomSession × List RoomSend) : SameRosters acc.1.toRoomKeyDevice (l.foldl step acc).1.toRoomKeyDevice := by
  induction l generalizing acc with
  | nil => exact .refl _
  | cons a l ih => exact (hstep acc a).trans (ih _)

theorem sameRosters_distribute {d : RoomKeyDevice} {s : RoomSession} (h : SameRosters d s.toRoomKeyDevice) (now : Nat) (roomId : String)
    (epoch : UInt8) (key : List UInt8) (members : List String) :
    SameRosters d (s.distributeGroupKey c now roomId epoch key members).1.toRoomKeyDevice := by
  unfold distributeGroupKey
  refine h.trans (sameRosters_foldl (fun acc member => ?_) members (s, []))
  unfold sendGroupKey
  split <;> exact ⟨rfl, rfl, rfl⟩

theorem sameRosters_sealCurrent (s : RoomSession) (now : Nat) (roomId member : String) :
    SameRosters s.toRoomKeyDevice (s.sealCurrentEpoch c now roomId member).1.toRoomKeyDevice := by
  unfold sealCurrentEpoch
  dsimp only
  split
  · exact .refl _
  · split
    · exact .refl _
    · refine sameRosters_distribute ?_ ..
      exact ⟨rfl, rfl, rfl⟩

theorem sameRosters_serve (s : RoomSession) (now : Nat) (roomId sender : String) :
    SameRosters s.toRoomKeyDevice (s.serveGroupKeyRequest c now roomId sender).1.toRoomKeyDevice := by
  unfold serveGroupKeyRequest
  split
  · exact .refl _
  · split
    · exact .refl _
    · split
      · exact .refl _
      · exact sameRosters_sealCurrent ..

theorem sameRosters_reseal (s : RoomSession) (now : Nat) (roomId sender : String) (epoch : UInt8) :
    SameRosters s.toRoomKeyDevice (s.resealToLaggingMember c now roomId sender epoch).1.toRoomKeyDevice := by
  unfold resealToLaggingMember
  split
  · exact .refl _
  · split
    · exact .refl _
    · split
      · exact .refl _
      · split
        · exact .refl _
        · exact sameRosters_sealCurrent ..

theorem sameRosters_rekey (s : RoomSession) (now : Nat) (roomId : String) (key : List UInt8) :
    SameRosters s.toRoomKeyDevice (s.rekeyRoomIfBehind c now roomId key).1.toRoomKeyDevice := by
  unfold rekeyRoomIfBehind
  split
  · exact .refl _
  · split
    · exact .refl _
    · split
      · exact .refl _
      · dsimp only
        refine sameRosters_distribute ?_ ..
        exact ⟨rfl, rfl, rfl⟩

theorem sameRosters_requestOwn (d : RoomKeyDevice) (now : Nat) (roomId : String) :
    SameRosters d (d.requestOwnRoomKey now roomId).1 := by
  unfold RoomKeyDevice.requestOwnRoomKey
  split
  · split
    · exact .refl _
    · dsimp only
      split <;> exact ⟨rfl, rfl, rfl⟩
  · exact .refl _

theorem sameRosters_reopen (d : RoomKeyDevice) (roomId : String) (challenge : List UInt8) :
    SameRosters d (d.reopenOwnRoomKeyRound roomId challenge).1 := by
  unfold RoomKeyDevice.reopenOwnRoomKeyRound
  split <;> exact ⟨rfl, rfl, rfl⟩

theorem sameRosters_request (s : RoomSession) (now : Nat) (roomId : String) (challenge : List UInt8) :
    SameRosters s.toRoomKeyDevice (s.requestGroupKey c now roomId challenge).1.toRoomKeyDevice := by
  unfold requestGroupKey
  split
  · exact .refl _
  · split
    · exact .refl _
    · dsimp only
      split
      · exact .refl _
      · split
        · exact .refl _
        · split
          · exact .refl _
          · split
            · unfold askOwnDevices
              dsimp only
              split
              · exact sameRosters_reopen ..
              · exact (sameRosters_reopen ..).trans (sameRosters_requestOwn ..)
            · unfold askKeyer
              split <;> exact .refl _

theorem sameRosters_keyRoom (s : RoomSession) (now : Nat) (roomId : String) (unionOld : Finset String) (key : List UInt8) :
    SameRosters s.toRoomKeyDevice (s.keyRoom c now roomId unionOld key).1.toRoomKeyDevice := by
  unfold keyRoom
  dsimp only
  split
  · refine sameRosters_distribute ?_ ..
    exact ⟨rfl, rfl, rfl⟩
  · split
    · refine sameRosters_distribute ?_ ..
      exact ⟨rfl, rfl, rfl⟩
    · split
      · split
        · exact .refl _
        · refine sameRosters_distribute ?_ ..
          exact ⟨rfl, rfl, rfl⟩
      · exact .refl _

theorem sameRosters_sync (s : RoomSession) (now : Nat) (node roomId : String) (members : List String) (key challenge : List UInt8) :
    SameRosters s.toRoomKeyDevice (s.syncRoomMembership c now node roomId members key challenge).1.toRoomKeyDevice := by
  unfold syncRoomMembership
  dsimp only
  have hasked := sameRosters_requestOwn s.toRoomKeyDevice now roomId
  split
  · refine hasked.trans (SameRosters.trans ?_ (sameRosters_request _ now roomId challenge))
    exact ⟨rfl, rfl, rfl⟩
  · refine hasked.trans (SameRosters.trans ?_ (sameRosters_keyRoom _ now roomId _ key))
    exact ⟨rfl, rfl, rfl⟩

theorem sameRosters_retryKeys (s : RoomSession) (now : Nat) :
    SameRosters s.toRoomKeyDevice (s.retryPendingGroupKeys c now).1.toRoomKeyDevice := by
  unfold retryPendingGroupKeys
  refine SameRosters.trans ?_ (sameRosters_foldl (fun acc retry => ?_) _ _)
  · exact ⟨rfl, rfl, rfl⟩
  · unfold resealPending
    split
    · exact ⟨rfl, rfl, rfl⟩
    · exact sameRosters_distribute (.refl _) ..

theorem sameRosters_retryRequests (s : RoomSession) (now : Nat) (challenge : String → List UInt8) :
    SameRosters s.toRoomKeyDevice (s.retryGroupKeyRequests c now challenge).1.toRoomKeyDevice := by
  unfold retryGroupKeyRequests
  refine SameRosters.trans ?_ (sameRosters_foldl (fun acc room => ?_) _ _)
  · exact ⟨rfl, rfl, rfl⟩
  · exact sameRosters_request acc.1 now room (challenge room)

theorem sameRosters_retryJoins (s : RoomSession) (routes : RoomRoutes) (now : Nat) :
    SameRosters s.toRoomKeyDevice (s.retryPendingRoomJoins routes now).1.toRoomKeyDevice := by
  unfold retryPendingRoomJoins
  refine SameRosters.trans ?_ (sameRosters_foldl (fun acc key => ?_) _ _)
  · exact ⟨rfl, rfl, rfl⟩
  · unfold resendJoin sendRoomJoin
    dsimp only
    split <;> exact ⟨rfl, rfl, rfl⟩

theorem sameRosters_handleSync (d : RoomKeyDevice) (hashing : RoomHashing) (now : Nat) (message : SignalingMessage) :
    SameRosters d (d.handleOwnRoomKeySync hashing now message).1 := by
  unfold RoomKeyDevice.handleOwnRoomKeySync
  split
  · exact .refl _
  · dsimp only
    split
    · exact .refl _
    · split
      · exact .refl _
      · split
        · exact .refl _
        · split <;> exact ⟨rfl, rfl, rfl⟩

theorem sameRosters_deviceKeySync (s : RoomSession) (now : Nat) (message : SignalingMessage) (key challenge : List UInt8) :
    SameRosters s.toRoomKeyDevice (s.onSfuDeviceKeySync c now message key challenge).1.toRoomKeyDevice := by
  have hhandled := sameRosters_handleSync s.toRoomKeyDevice c.hashing now message
  unfold onSfuDeviceKeySync
  generalize s.handleOwnRoomKeySync c.hashing now message = handled at *
  dsimp only
  split
  · exact hhandled
  · split
    · exact hhandled
    · dsimp only
      refine hhandled.trans (SameRosters.trans ?_ (sameRosters_sync _ now _ _ _ key challenge))
      exact ⟨rfl, rfl, rfl⟩

theorem sameRosters_frame (s : RoomSession) (now : Nat) (roomId sender : String) (epoch : UInt8) (key challenge : List UInt8) :
    SameRosters s.toRoomKeyDevice (s.onUnopenableRoomFrame c now roomId sender epoch key challenge).1.toRoomKeyDevice := by
  unfold onUnopenableRoomFrame
  dsimp only
  refine SameRosters.trans ?_ (sameRosters_reseal _ now roomId sender epoch)
  refine SameRosters.trans ?_ (sameRosters_request _ now roomId challenge)
  refine SameRosters.trans ?_ (sameRosters_rekey _ now roomId key)
  exact ⟨rfl, rfl, rfl⟩

end RoomSession

end DoubleSlash.Keys
