import DoubleSlash.Sfu.Room

/-!
# Room membership

`Refines` says that the sets a room answers from agree with the devices behind them. Each operation of a room keeps it; a manager
keeps it for all its rooms (`AllRefine`).
-/

namespace DoubleSlash.Sfu

open Assoc Text Tls

/-- `normalize_peer_id` leaves what it normalized. -/
theorem normalizePeerId_idem (id : String) : normalizePeerId (normalizePeerId id) = normalizePeerId id := by
  unfold normalizePeerId normalizePublicId
  by_cases h : byteLen (trimEndMatches '=' id).toList = 43
  · have htrim : trimEndMatches '=' (trimEndMatches '=' id ++ "=") = trimEndMatches '=' id := by
      unfold trimEndMatches
      simp only [String.toList_append, String.toList_ofList]
      rw [show "=".toList = ['='] from rfl, List.rdropWhile_concat_pos _ _ _ (by decide), List.rdropWhile_idempotent]
    simp [h, htrim]
  · simp [h]

namespace SFURoom

variable {S : Type}

/-- Some device of the identity has the flag. -/
def HasDevice (room : SFURoom S) (p : String) (flag : DeviceMembership → Bool) : Prop :=
  ∃ d m, room.deviceMembers.lookup (p, d) = some m ∧ flag m = true

theorem anyDevice_iff (room : SFURoom S) (p : String) (flag : DeviceMembership → Bool) :
    room.anyDevice p flag = true ↔ room.HasDevice p flag := by
  unfold anyDevice HasDevice
  rw [List.any_eq_true]
  constructor
  · rintro ⟨⟨⟨q, d⟩, m⟩, hmem, h⟩
    simp only [Bool.and_eq_true, decide_eq_true_eq] at h
    obtain ⟨rfl, hflag⟩ := h
    exact ⟨d, m, AList.mem_lookup_iff.mpr hmem, hflag⟩
  · rintro ⟨d, m, hmem, hflag⟩
    exact ⟨⟨(p, d), m⟩, AList.mem_lookup_iff.mp hmem, by simp [hflag]⟩

theorem isUnused_iff (room : SFURoom S) :
    room.isUnused = true ↔ (∀ p, room.participants.lookup p = none) ∧ room.subscribers = ∅ := by
  unfold isUnused
  rw [Bool.and_eq_true, decide_eq_true_eq, List.isEmpty_iff]
  refine and_congr_left fun _ => ?_
  constructor
  · intro h p
    rw [AList.lookup_eq_none]
    intro hp
    have hp : p ∈ room.participants.entries.map Sigma.fst := hp
    rw [h] at hp
    exact absurd hp List.not_mem_nil
  · intro h
    cases he : room.participants.entries with
    | nil => rfl
    | cons e rest =>
      have hmem : (⟨e.1, e.2⟩ : (_ : String) × UInt8) ∈ room.participants.entries := by rw [he]; exact List.mem_cons_self
      have hlook := h e.1
      rw [AList.mem_lookup_iff.mpr hmem] at hlook
      cases hlook

/-! ### When a room counts as empty -/

/-- The time since which a room is empty is set only on an unused room, and on every unused room that `must` be collected. -/
structure IdleMarked (must : Prop) (room : SFURoom S) : Prop where
  unused : room.emptySince.isSome = true → room.isUnused = true
  marked : must → room.isUnused = true → room.emptySince.isSome = true

variable {must : Prop} {room : SFURoom S} {p : String} {now : Nat}

/-- A room that is in use has no time. -/
theorem IdleMarked.none_of_used (h : IdleMarked must room) (hused : ¬room.isUnused = true) : room.emptySince = none := by
  cases he : room.emptySince with
  | none => rfl
  | some t => exact absurd (h.unused (by rw [he]; rfl)) hused

theorem idleMarked_markUnusedIfEmpty (h : ¬room.isUnused = true → room.emptySince = none) :
    IdleMarked must (room.markUnusedIfEmpty now) := by
  unfold markUnusedIfEmpty
  by_cases hu : room.isUnused = true
  · rw [if_pos hu]
    refine ⟨fun _ => hu, fun _ _ => ?_⟩
    cases he : room.emptySince <;> rfl
  · rw [if_neg hu]
    refine ⟨fun hs => ?_, fun _ hs => absurd hs hu⟩
    rw [h hu] at hs
    cases hs

theorem idleMarked_markInUse (h : ¬room.isUnused = true) : IdleMarked must room.markInUse := by
  refine ⟨fun hs => ?_, fun _ hs => absurd hs h⟩
  cases hs

theorem not_unused_of_participant (h : p ∈ room.participants) : ¬room.isUnused = true := by
  rw [isUnused_iff]
  rintro ⟨hnone, -⟩
  exact AList.lookup_eq_none.mp (hnone p) h

theorem not_unused_of_subscriber (h : p ∈ room.subscribers) : ¬room.isUnused = true := by
  rw [isUnused_iff]
  rintro ⟨-, hempty⟩
  rw [hempty] at h
  exact absurd h (Finset.notMem_empty p)

/-! ### Voice -/

/-- `room'` differs from `room` in that `p` is in its voice exactly when `V`. -/
structure Voiced (must : Prop) (room room' : SFURoom S) (p : String) (V : Prop) : Prop where
  devices : room'.deviceMembers = room.deviceMembers
  participants : ∀ q, q ∈ room'.participants ↔ (q = p ∧ V) ∨ (q ≠ p ∧ q ∈ room.participants)
  subscribers : ∀ q, q ≠ p → (q ∈ room'.subscribers ↔ q ∈ room.subscribers)
  size : room'.participants.entries.length ≤ maxRoomSize
  idle : IdleMarked must room'

/-- Whoever finds a place, or has one, is in. -/
theorem voiced_addParticipant (hidle : IdleMarked must room) (hsize : room.participants.entries.length ≤ maxRoomSize)
    (hp : normalizePeerId p = p) (hroom : p ∉ room.participants → room.isFull = false) :
    Voiced must room (room.addParticipant p).1 p True := by
  unfold addParticipant
  rw [hp]
  by_cases hin : p ∈ room.participants
  · rw [if_pos (AList.lookup_isSome.mpr hin)]
    refine ⟨rfl, fun q => ?_, fun q _ => Iff.rfl, hsize, hidle⟩
    by_cases hq : q = p
    · subst hq
      simp [hin]
    · simp [hq]
  · have hnotSome : ¬(room.participants.lookup p).isSome = true := fun h => hin (AList.lookup_isSome.mp h)
    rw [if_neg hnotSome, if_neg (by rw [hroom hin]; exact Bool.false_ne_true)]
    refine ⟨rfl, fun q => ?_, fun q hq => ?_, ?_, ?_⟩
    · rw [markInUse, AList.mem_insert]
      by_cases hq : q = p <;> simp [hq]
    · rw [markInUse, Finset.mem_erase]
      exact and_iff_right hq
    · have hfull := hroom hin
      rw [isFull, decide_eq_false_iff_not] at hfull
      rw [markInUse, AList.entries_insert_of_notMem hin, List.length_cons]
      omega
    · refine idleMarked_markInUse (not_unused_of_participant (p := p) ?_)
      exact (AList.mem_insert _).mpr (Or.inl rfl)

theorem markUnusedIfEmpty_fields (r : SFURoom S) (now : Nat) :
    (r.markUnusedIfEmpty now).deviceMembers = r.deviceMembers ∧ (r.markUnusedIfEmpty now).participants = r.participants ∧
      (r.markUnusedIfEmpty now).subscribers = r.subscribers := by
  unfold markUnusedIfEmpty
  split_ifs <;> exact ⟨rfl, rfl, rfl⟩

theorem voiced_removeParticipant (hidle : IdleMarked must room) (hsize : room.participants.entries.length ≤ maxRoomSize)
    (hp : normalizePeerId p = p) : Voiced must room (room.removeParticipant p now).1 p False := by
  unfold removeParticipant
  rw [hp]
  by_cases hin : p ∈ room.participants
  · rw [if_pos (AList.lookup_isSome.mpr hin)]
    have hused := hidle.none_of_used (not_unused_of_participant hin)
    have hmark : IdleMarked must ({ room with participants := room.participants.erase p }.markUnusedIfEmpty now) :=
      idleMarked_markUnusedIfEmpty fun _ => hused
    obtain ⟨hdev, hpart, hsub⟩ := markUnusedIfEmpty_fields { room with participants := room.participants.erase p } now
    refine ⟨hdev, fun q => ?_, fun q hq => ?_, ?_, ⟨hmark.unused, hmark.marked⟩⟩
    · rw [and_false, false_or, forgetSpeaker, hpart]
      exact AList.mem_erase
    · simp only [forgetSpeaker, hsub]
    · simp only [forgetSpeaker, hpart]
      exact Nat.le_trans (List.kerase_sublist p _).length_le hsize
  · rw [if_neg fun h => hin (AList.lookup_isSome.mp h)]
    refine ⟨rfl, fun q => ?_, fun q _ => Iff.rfl, hsize, hidle⟩
    by_cases hq : q = p
    · subst hq
      simp [hin]
    · simp [hq]

/-! ### Chat -/

/-- `room'` differs from `room` in that `p` only receives its chat exactly when `C`. -/
structure Chatted (must : Prop) (room room' : SFURoom S) (p : String) (C : Prop) : Prop where
  devices : room'.deviceMembers = room.deviceMembers
  participants : room'.participants = room.participants
  subscribers : ∀ q, q ∈ room'.subscribers ↔ (q = p ∧ C) ∨ (q ≠ p ∧ q ∈ room.subscribers)
  idle : IdleMarked must room'

theorem chatted_subscribe (hp : normalizePeerId p = p) (hout : p ∉ room.participants) :
    Chatted must room (room.subscribe p) p True := by
  unfold subscribe
  rw [hp, if_neg fun h => hout (AList.lookup_isSome.mp h)]
  refine ⟨rfl, rfl, fun q => ?_, ?_⟩
  · rw [markInUse, Finset.mem_insert]
    by_cases hq : q = p <;> simp [hq]
  · refine idleMarked_markInUse (not_unused_of_subscriber (p := p) ?_)
    exact Finset.mem_insert_self _ _

theorem chatted_unsubscribe (hidle : IdleMarked must room) (hp : normalizePeerId p = p) :
    Chatted must room (room.unsubscribe p now) p False := by
  unfold unsubscribe
  rw [hp]
  by_cases hin : p ∈ room.subscribers
  · rw [if_pos hin]
    have hused := hidle.none_of_used (not_unused_of_subscriber hin)
    have hmark : IdleMarked must ({ room with subscribers := room.subscribers.erase p }.markUnusedIfEmpty now) :=
      idleMarked_markUnusedIfEmpty fun _ => hused
    obtain ⟨hdev, hpart, hsub⟩ := markUnusedIfEmpty_fields { room with subscribers := room.subscribers.erase p } now
    refine ⟨hdev, hpart, fun q => ?_, hmark⟩
    rw [and_false, false_or, hsub]
    exact Finset.mem_erase
  · rw [if_neg hin]
    refine ⟨rfl, rfl, fun q => ?_, hidle⟩
    by_cases hq : q = p
    · subst hq
      simp [hin]
    · simp [hq]

/-! ### Devices -/

/-- The sets a room answers from are those of the devices behind them. -/
structure Refines (must : Prop) (room : SFURoom S) : Prop where
  participants : ∀ p, p ∈ room.participants ↔ room.HasDevice p DeviceMembership.voice
  subscribers : ∀ p, p ∈ room.subscribers ↔
    room.HasDevice p DeviceMembership.chat ∧ ¬room.HasDevice p DeviceMembership.voice
  size : room.participants.entries.length ≤ maxRoomSize
  devices : ∀ p, room.deviceCount p ≤ maxLiveDeviceRoutes
  flags : ∀ key m, room.deviceMembers.lookup key = some m → (m.voice || m.chat) = true
  normal : ∀ key m, room.deviceMembers.lookup key = some m → normalizePeerId key.1 = key.1
  idle : IdleMarked must room

section

variable {key : String × Option DeviceId} {m : DeviceMembership}

theorem lookup_withDevice (k : String × Option DeviceId) :
    (room.withDevice key m).deviceMembers.lookup k =
      if k = key then (if m.voice || m.chat then some m else none) else room.deviceMembers.lookup k := by
  unfold withDevice
  by_cases hk : k = key
  · subst hk
    rw [if_pos rfl]
    by_cases hm : (m.voice || m.chat) = true
    · simp only [hm, if_true, AList.lookup_insert]
    · simp only [hm, if_false, Bool.false_eq_true, AList.lookup_erase]
  · rw [if_neg hk]
    by_cases hm : (m.voice || m.chat) = true
    · simp only [hm, if_true, AList.lookup_insert_ne hk]
    · simp only [hm, if_false, Bool.false_eq_true, AList.lookup_erase_ne hk]

theorem hasDevice_congr {room room' : SFURoom S} (h : room'.deviceMembers = room.deviceMembers) (p : String)
    (flag : DeviceMembership → Bool) : room'.HasDevice p flag ↔ room.HasDevice p flag := by
  unfold HasDevice
  rw [h]

/-- The devices of other identities stay. -/
theorem hasDevice_withDevice_ne {q : String} (hq : q ≠ key.1) (flag : DeviceMembership → Bool) :
    (room.withDevice key m).HasDevice q flag ↔ room.HasDevice q flag := by
  unfold HasDevice
  have hkey : ∀ d, (q, d) ≠ key := fun d h => hq (congrArg Prod.fst h)
  simp only [lookup_withDevice, hkey, if_false]

theorem flags_withDevice (h : ∀ k m, room.deviceMembers.lookup k = some m → (m.voice || m.chat) = true) :
    ∀ k m', (room.withDevice key m).deviceMembers.lookup k = some m' → (m'.voice || m'.chat) = true := by
  intro k m' hk
  rw [lookup_withDevice] at hk
  split_ifs at hk with hkey hm
  · rwa [← Option.some.inj hk]
  · exact h k m' hk

/-- A new entry counts only when it carries a device id. -/
theorem deviceCount_withDevice (q : String)
    (h : key ∉ room.deviceMembers → key.2.isSome = true → room.deviceCount key.1 < maxLiveDeviceRoutes)
    (hcount : room.deviceCount q ≤ maxLiveDeviceRoutes) : (room.withDevice key m).deviceCount q ≤ maxLiveDeviceRoutes := by
  unfold withDevice
  by_cases hm : (m.voice || m.chat) = true
  · by_cases hin : key ∈ room.deviceMembers
    · simp only [hm, if_true, deviceCount, countP_insert_of_mem m hin]
      exact hcount
    · simp only [hm, if_true, deviceCount, countP_insert_of_notMem m hin]
      split_ifs with hkey
      · obtain ⟨rfl, hsome⟩ := of_decide_eq_true hkey
        exact h hin hsome
      · exact hcount
  · simp only [hm, if_false, Bool.false_eq_true]
    exact Nat.le_trans (countP_erase_le _ _ _) hcount

end

theorem Refines.withDevice_room {m : DeviceMembership} {device : Option DeviceId} {voice : Option Bool} (h : Refines must room)
    (hm : m.voice = voice.getD ((room.deviceMembers.lookup (p, device)).getD { voice := false, chat := false }).voice)
    (hfull : ¬(voice = some true ∧ (room.participants.lookup p).isNone = true ∧ room.isFull = true))
    (hvoice : (room.withDevice (p, device) m).HasDevice p DeviceMembership.voice) (hout : p ∉ room.participants) :
    room.isFull = false := by
  have hno : ¬room.HasDevice p DeviceMembership.voice := fun hv => hout ((h.participants p).mpr hv)
  obtain ⟨d, m', hlook, hm'⟩ := hvoice
  rw [lookup_withDevice] at hlook
  split_ifs at hlook with hkey hflag
  · obtain rfl := Option.some.inj hlook
    rw [hm] at hm'
    cases voice with
    | none =>
      -- the flag was there before the call
      cases hold : room.deviceMembers.lookup (p, device) with
      | none =>
        rw [hold] at hm'
        cases hm'
      | some old =>
        rw [hold] at hm'
        exact absurd ⟨device, old, hold, hm'⟩ hno
    | some v =>
      obtain rfl : v = true := hm'
      rw [Bool.eq_false_iff]
      intro hf
      exact hfull ⟨rfl, by rw [AList.lookup_eq_none.mpr hout]; rfl, hf⟩
  · exact absurd ⟨d, m', hlook, hm'⟩ hno

/-- The fields the sets are read from are what matters. -/
theorem Refines.congr {room' : SFURoom S} (h : Refines must room) (hdev : room'.deviceMembers = room.deviceMembers)
    (hpart : room'.participants = room.participants) (hsub : room'.subscribers = room.subscribers)
    (hidle : IdleMarked must room') : Refines must room' := by
  refine ⟨fun q => ?_, fun q => ?_, ?_, fun q => ?_, ?_, ?_, hidle⟩
  · rw [hpart, hasDevice_congr hdev]
    exact h.participants q
  · rw [hsub, hasDevice_congr hdev, hasDevice_congr hdev]
    exact h.subscribers q
  · rw [hpart]
    exact h.size
  · unfold deviceCount
    rw [hdev]
    exact h.devices q
  · rw [hdev]
    exact h.flags
  · rw [hdev]
    exact h.normal

theorem Refines.markUnusedIfEmpty (h : Refines must room) (now : Nat) : Refines must (room.markUnusedIfEmpty now) := by
  obtain ⟨hdev, hpart, hsub⟩ := markUnusedIfEmpty_fields room now
  exact h.congr hdev hpart hsub (idleMarked_markUnusedIfEmpty h.idle.none_of_used)

/-- The sets after an endpoint changed and its identity was settled. -/
theorem Refines.settle {key : String × Option DeviceId} {m : DeviceMembership} (h : Refines must room)
    (hp : normalizePeerId key.1 = key.1)
    (hcount : key ∉ room.deviceMembers → key.2.isSome = true → room.deviceCount key.1 < maxLiveDeviceRoutes)
    (hroom : (room.withDevice key m).HasDevice key.1 DeviceMembership.voice → key.1 ∉ room.participants → room.isFull = false)
    (now : Nat) : Refines must ((room.withDevice key m).settle key.1 now) := by
  set room0 := room.withDevice key m with hroom0
  have hidle : IdleMarked must room0 := ⟨h.idle.unused, h.idle.marked⟩
  have hvoice : Voiced must room0
      (if room0.anyDevice key.1 DeviceMembership.voice then (room0.addParticipant key.1).1
        else (room0.removeParticipant key.1 now).1) key.1 (room0.HasDevice key.1 DeviceMembership.voice) := by
    by_cases hv : room0.anyDevice key.1 DeviceMembership.voice = true
    · have hv' := (anyDevice_iff room0 key.1 _).mp hv
      rw [if_pos hv, eq_true hv']
      exact voiced_addParticipant hidle h.size hp (hroom hv')
    · have hv' : ¬room0.HasDevice key.1 DeviceMembership.voice := fun hd => hv ((anyDevice_iff room0 key.1 _).mpr hd)
      rw [if_neg hv, eq_false hv']
      exact voiced_removeParticipant hidle h.size hp
  unfold SFURoom.settle
  simp only
  set room1 := if room0.anyDevice key.1 DeviceMembership.voice then (room0.addParticipant key.1).1
    else (room0.removeParticipant key.1 now).1
  have hchat : Chatted must room1
      (if room0.anyDevice key.1 DeviceMembership.chat && !room0.anyDevice key.1 DeviceMembership.voice then
        room1.subscribe key.1 else room1.unsubscribe key.1 now) key.1
      (room0.HasDevice key.1 DeviceMembership.chat ∧ ¬room0.HasDevice key.1 DeviceMembership.voice) := by
    rw [← anyDevice_iff, ← anyDevice_iff]
    by_cases hc : (room0.anyDevice key.1 DeviceMembership.chat && !room0.anyDevice key.1 DeviceMembership.voice) = true
    · have hc' := hc
      rw [Bool.and_eq_true, Bool.not_eq_true'] at hc'
      rw [if_pos hc, eq_true (show _ ∧ _ from ⟨hc'.1, by rw [hc'.2]; exact Bool.false_ne_true⟩)]
      refine chatted_subscribe hp fun hin => ?_
      rcases (hvoice.participants key.1).mp hin with ⟨-, hv⟩ | ⟨hne, -⟩
      · rw [(anyDevice_iff room0 key.1 _).mpr hv] at hc'
        exact absurd hc'.2 Bool.true_eq_false_eq_False
      · exact hne rfl
    · rw [if_neg hc]
      have hc' : ¬(room0.anyDevice key.1 DeviceMembership.chat = true ∧ ¬room0.anyDevice key.1 DeviceMembership.voice = true) := by
        simpa using hc
      rw [eq_false hc']
      exact chatted_unsubscribe hvoice.idle hp
  generalize (if room0.anyDevice key.1 DeviceMembership.chat && !room0.anyDevice key.1 DeviceMembership.voice then
        room1.subscribe key.1 else room1.unsubscribe key.1 now) = room2 at hchat ⊢
  have hdev : room2.deviceMembers = room0.deviceMembers := by rw [hchat.devices, hvoice.devices]
  refine ⟨fun q => ?_, fun q => ?_, ?_, fun q => ?_, ?_, ?_, hchat.idle⟩
  · rw [hchat.participants, hvoice.participants, hasDevice_congr hdev]
    by_cases hq : q = key.1
    · subst hq
      simp
    · rw [hasDevice_withDevice_ne hq, ← h.participants q]
      simp only [hq, false_and, false_or, ne_eq, not_false_eq_true, true_and]
      exact Iff.rfl
  · rw [hchat.subscribers, hasDevice_congr hdev, hasDevice_congr hdev]
    by_cases hq : q = key.1
    · subst hq
      simp
    · rw [hasDevice_withDevice_ne hq, hasDevice_withDevice_ne hq, ← h.subscribers q, hvoice.subscribers q hq]
      simp only [hq, false_and, false_or, ne_eq, not_false_eq_true, true_and]
      exact Iff.rfl
  · rw [hchat.participants]
    exact hvoice.size
  · have hcong : room2.deviceCount q = room0.deviceCount q := by
      unfold deviceCount
      rw [hdev]
    rw [hcong]
    exact deviceCount_withDevice q hcount (h.devices q)
  · rw [hdev]
    exact flags_withDevice h.flags
  · intro k m' hk
    rw [hdev, hroom0, lookup_withDevice] at hk
    split_ifs at hk with hkey
    · rw [hkey, hp]
    · exact h.normal k m' hk

/-- **One endpoint.** The sets follow the flags of the endpoint that changed. -/
theorem Refines.setDeviceMembership (h : Refines must room) (peerId : String) (device : Option DeviceId)
    (voice chat : Option Bool) (now : Nat) : Refines must (room.setDeviceMembership peerId device voice chat now).1 := by
  have hp := normalizePeerId_idem peerId
  unfold SFURoom.setDeviceMembership
  generalize normalizePeerId peerId = p at hp ⊢
  simp only
  split_ifs with hfull hlimit
  · exact h
  · exact h
  · refine @Refines.settle S must room (p, device) _ h hp (fun hnew hsome => ?_)
      (fun hv hout => h.withDevice_room rfl hfull hv hout) now
    refine Nat.lt_of_not_le fun hle => hlimit ⟨?_, hsome, hle⟩
    rw [AList.lookup_eq_none.mpr hnew]
    rfl

/-- A call that fails changes nothing. -/
theorem setDeviceMembership_fails (peerId : String) (device : Option DeviceId) (voice chat : Option Bool) (now : Nat)
    (h : (room.setDeviceMembership peerId device voice chat now).2 = false) :
    (room.setDeviceMembership peerId device voice chat now).1 = room := by
  revert h
  unfold SFURoom.setDeviceMembership
  simp only
  split
  · exact fun _ => rfl
  · split
    · exact fun _ => rfl
    · exact fun h => absurd h Bool.true_eq_false_eq_False

theorem lookup_without (p : String) (key : String × Option DeviceId) (m : DeviceMembership) :
    (room.without p).deviceMembers.lookup key = some m ↔ key.1 ≠ p ∧ room.deviceMembers.lookup key = some m := by
  unfold without
  simp only [lookup_retain, Option.filter_eq_some_iff, decide_eq_true_eq]
  exact and_comm

theorem hasDevice_without (p q : String) (flag : DeviceMembership → Bool) :
    (room.without p).HasDevice q flag ↔ q ≠ p ∧ room.HasDevice q flag := by
  unfold HasDevice
  simp only [lookup_without]
  constructor
  · rintro ⟨d, m, ⟨hq, hlook⟩, hflag⟩
    exact ⟨hq, d, m, hlook, hflag⟩
  · rintro ⟨hq, d, m, hlook, hflag⟩
    exact ⟨d, m, ⟨hq, hlook⟩, hflag⟩

/-- What was neither in voice nor in chat leaves a room as used as it was. -/
theorem isUnused_without (hpart : p ∉ room.participants) (hsub : p ∉ room.subscribers) :
    (room.without p).isUnused = room.isUnused := by
  have hlook : ∀ q, (room.participants.erase p).lookup q = none ↔ room.participants.lookup q = none := by
    intro q
    rw [AList.lookup_eq_none, AList.lookup_eq_none, AList.mem_erase]
    constructor
    · intro h hq
      refine h ⟨?_, hq⟩
      rintro rfl
      exact hpart hq
    · exact fun h hq => h hq.2
  rw [Bool.eq_iff_iff, isUnused_iff, isUnused_iff]
  simp only [without, hlook, Finset.erase_eq_of_notMem hsub]

theorem Refines.of_without {room' : SFURoom S} (h : Refines must room)
    (hdev : room'.deviceMembers = (room.without p).deviceMembers) (hpart : room'.participants = (room.without p).participants)
    (hsub : room'.subscribers = (room.without p).subscribers) (hidle : IdleMarked must room') : Refines must room' := by
  refine ⟨fun q => ?_, fun q => ?_, ?_, fun q => ?_, fun key m hkey => ?_, fun key m hkey => ?_, hidle⟩
  · rw [hpart, hasDevice_congr hdev, hasDevice_without, ← h.participants q]
    exact AList.mem_erase
  · rw [hsub, hasDevice_congr hdev, hasDevice_congr hdev, hasDevice_without, hasDevice_without, without, Finset.mem_erase,
      h.subscribers q]
    constructor
    · rintro ⟨hq, hc, hv⟩
      exact ⟨⟨hq, hc⟩, fun hv' => hv hv'.2⟩
    · rintro ⟨⟨hq, hc⟩, hv⟩
      exact ⟨hq, hc, fun hv' => hv ⟨hq, hv'⟩⟩
  · rw [hpart]
    exact Nat.le_trans (List.kerase_sublist p _).length_le h.size
  · refine Nat.le_trans ?_ (h.devices q)
    unfold deviceCount
    rw [hdev]
    exact List.Sublist.countP_le (List.filter_sublist.map Sigma.fst)
  · rw [hdev, lookup_without] at hkey
    exact h.flags key m hkey.2
  · rw [hdev, lookup_without] at hkey
    exact h.normal key m hkey.2

/-- An identity leaves with all its devices. -/
theorem Refines.removePeerEntirely (h : Refines must room) (peerId : String) (now : Nat) :
    Refines must (room.removePeerEntirely peerId now).1 := by
  unfold SFURoom.removePeerEntirely
  generalize normalizePeerId peerId = p
  simp only
  set room1 := if (room.participants.lookup p).isSome then (room.without p).forgetSpeaker p else room.without p with hroom1
  have hfields : room1.deviceMembers = (room.without p).deviceMembers ∧ room1.participants = (room.without p).participants ∧
      room1.subscribers = (room.without p).subscribers ∧ room1.emptySince = room.emptySince := by
    rw [hroom1]
    split <;> exact ⟨rfl, rfl, rfl, rfl⟩
  obtain ⟨hdev, hpart, hsub, hempty⟩ := hfields
  by_cases hwas : ((room.participants.lookup p).isSome || decide (p ∈ room.subscribers)) = true
  · rw [if_pos hwas]
    have hused : ¬room.isUnused = true := by
      rw [Bool.or_eq_true, decide_eq_true_eq] at hwas
      rcases hwas with hp | hp
      · exact not_unused_of_participant (AList.lookup_isSome.mp hp)
      · exact not_unused_of_subscriber hp
    obtain ⟨hdev', hpart', hsub'⟩ := markUnusedIfEmpty_fields room1 now
    refine h.of_without (hdev'.trans hdev) (hpart'.trans hpart) (hsub'.trans hsub) (idleMarked_markUnusedIfEmpty fun _ => ?_)
    rw [hempty, h.idle.none_of_used hused]
  · rw [if_neg hwas]
    rw [Bool.or_eq_true, not_or, decide_eq_true_eq] at hwas
    have hsame : room1.isUnused = room.isUnused := by
      rw [← isUnused_without (fun hp => hwas.1 (AList.lookup_isSome.mpr hp)) hwas.2]
      unfold isUnused
      rw [hpart, hsub]
    refine h.of_without hdev hpart hsub ⟨?_, ?_⟩
    · rw [hempty, hsame]
      exact h.idle.unused
    · rw [hempty, hsame]
      exact h.idle.marked

end SFURoom

end DoubleSlash.Sfu
