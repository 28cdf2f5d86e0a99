import DoubleSlash.Lemmas.RoomSession

/-!
# Leaving a room

What a client still has of a room whose voice it left and whose chat it does not keep, and what its timers send for it from then on.
-/

namespace DoubleSlash.Keys

open Assoc Protocol SetMap Text Tls

/-- What happens to the rooms of a client: its timers, the messages that come in, frames that do not open, and leaving a room. -/
inductive RoomAct where
  | groupKeyTimer (now : Nat) (challenge : String → List UInt8)
  | joinTimer (now : Nat) (routes : RoomRoutes)
  | members (now : Nat) (routes : RoomRoutes) (node roomId : String) (members chatMembers : List String) (devices : Option Json)
      (key challenge : List UInt8)
  | peerJoined (now : Nat) (node roomId peerId : String) (key challenge : List UInt8)
  | peerLeft (now : Nat) (node roomId peerId : String) (key challenge : List UInt8)
  | groupKey (now : Nat) (sender : String) (device : Option DeviceId) (roomId : String) (epoch : UInt8) (key : List UInt8)
  | groupKeyRequest (now : Nat) (sender roomId : String)
  | groupKeyAck (sender roomId : String) (epoch : UInt8)
  | deviceKeySync (now : Nat) (message : SignalingMessage) (key challenge : List UInt8)
  | unopenableFrame (now : Nat) (sender roomId : String) (epoch : UInt8) (key challenge : List UInt8)
  | roomAbsent (now : Nat) (node roomId : String)
  | leave (routes : RoomRoutes) (node roomId : String) (challenge : List UInt8)

namespace RoomAct

/-- The timers of the run loop. -/
def IsTimer : RoomAct → Prop
  | .groupKeyTimer _ _ | .joinTimer _ _ => True
  | _ => False

/-- A roster of the room comes in. -/
def BringsRoster (r : String) : RoomAct → Prop
  | .members _ _ node roomId _ _ _ _ _ | .peerJoined _ node roomId _ _ _ | .peerLeft _ node roomId _ _ _ =>
    isScopeOf r (roomScopeKey node roomId) = true
  | _ => False

/-- A supernode says that it does not have the room. -/
def DeniesJoin (r : String) : RoomAct → Prop
  | .roomAbsent _ _ roomId => roomId = r
  | _ => False

end RoomAct

namespace RoomSession

section

variable (c : RoomSealing)

/-- What an act makes of the rooms, and what is sent. -/
def act (s : RoomSession) : RoomAct → RoomSession × List RoomSend
  | .groupKeyTimer now challenge =>
    let sealed := s.retryPendingGroupKeys c now
    let asked := sealed.1.retryGroupKeyRequests c now challenge
    (asked.1, sealed.2 ++ asked.2)
  | .joinTimer now routes => s.retryPendingRoomJoins routes now
  | .members now routes node roomId members chatMembers devices key challenge =>
    s.onSfuMembers c now routes node roomId members chatMembers devices key challenge
  | .peerJoined now node roomId peerId key challenge => s.applyRoomPeerJoined c now node roomId peerId key challenge
  | .peerLeft now node roomId peerId key challenge => s.onSfuPeerLeft c now node roomId peerId key challenge
  | .groupKey now sender device roomId epoch key => s.onSfuGroupKey c now sender device roomId epoch key
  | .groupKeyRequest now sender roomId => s.serveGroupKeyRequest c now roomId sender
  | .groupKeyAck sender roomId epoch => (s.onSfuGroupKeyAck sender roomId epoch, [])
  | .deviceKeySync now message key challenge => s.onSfuDeviceKeySync c now message key challenge
  | .unopenableFrame now sender roomId epoch key challenge => s.onUnopenableRoomFrame c now roomId sender epoch key challenge
  | .roomAbsent now node roomId => (s.onRoomAbsent now node roomId, [])
  | .leave routes node roomId challenge => s.leaveRoomVoice c routes node roomId challenge

/-- The rooms after acts. -/
def after (s : RoomSession) (acts : List RoomAct) : RoomSession := acts.foldl (fun s a => (s.act c a).1) s

/-- No timer sends a key of the room, a request for one, or a join of it. -/
def TimersSilent (r : String) (s : RoomSession) (acts : List RoomAct) : Prop :=
  ∀ pre a, pre ++ [a] <+: acts → a.IsTimer → ∀ m ∈ ((s.after c pre).act c a).2, ¬m.Concerns r

end

/-- A snapshot of the room, of its members, its voice or its devices, is filed under the scope. -/
def Files (s : RoomSession) (scope : String) : Prop :=
  scope ∈ s.roomGroupMembers ∨ scope ∈ s.roomVoiceMembers ∨ scope ∈ s.roomDeviceRosters

/-- Nothing of the room is left: no snapshot under any node, no key, no round of one's own devices and no key under way. -/
structure Forgotten (r : String) (s : RoomSession) : Prop where
  snapshots : ∀ scope, isScopeOf r scope = true → ¬s.Files scope
  keys : s.groupKeys.groups.lookup r = none
  round : s.ownRoomKeyRounds.lookup r = none
  acks : ∀ member, (r, member) ∉ s.pendingGroupKeyAcks

/-- Snapshots of the room are filed under no other node. -/
def OnlyUnder (node r : String) (s : RoomSession) : Prop :=
  ∀ scope, isScopeOf r scope = true → s.Files scope → scope = roomScopeKey node r

end RoomSession

/-- The device rosters that are kept are ones that a device with an id took. -/
def RoomKeyDevice.Recorded (d : RoomKeyDevice) : Prop :=
  ∀ scope roster, d.roomDeviceRosters.lookup scope = some roster → ∃ me, d.deviceId = some me ∧ roster.length ≤ 1024 ∧
    (roster.any fun e => sameIdentity e.identity d.publicId && e.device == some me) = true

namespace RoomLeavesAux

open RoomSession

variable {c : RoomSealing} {s : RoomSession} {r : String}

/-- **One act.** A quiet room stays quiet, unless a roster of it comes in or a join of it is denied. -/
theorem quiet_act (h : RoomSession.Quiet r s) (a : RoomAct) (hroster : ¬a.BringsRoster r) (hdenied : ¬a.DeniesJoin r) :
    RoomSession.Quiet r (s.act c a).1 := by
  cases a with
  | groupKeyTimer now challenge => exact (quiet_retryRequests (quiet_retryKeys h).quiet challenge).quiet
  | joinTimer now routes => exact (quiet_retryJoins h routes).quiet
  | members now routes node roomId members chatMembers devices key challenge =>
    exact (quiet_members h (Bool.eq_false_iff.mpr hroster) routes members chatMembers devices key challenge).quiet
  | peerJoined now node roomId peerId key challenge =>
    exact (quiet_peerJoined h (Bool.eq_false_iff.mpr hroster) peerId key challenge).quiet
  | peerLeft now node roomId peerId key challenge => exact (quiet_sync h (Bool.eq_false_iff.mpr hroster) _ key challenge).quiet
  | groupKey now sender device roomId epoch key => exact (quiet_groupKey h sender device epoch key).quiet
  | groupKeyRequest now sender roomId => exact (quiet_serve h sender).quiet
  | groupKeyAck sender roomId epoch => exact quiet_groupKeyAck h sender epoch
  | deviceKeySync now message key challenge => exact quiet_deviceKeySync h message key challenge
  | unopenableFrame now sender roomId epoch key challenge => exact (quiet_frame h sender epoch key challenge).quiet
  | roomAbsent now node roomId => exact quiet_absent h node hdenied
  | leave routes node roomId challenge => exact quiet_leave h routes node challenge

theorem silent_timer (h : RoomSession.Quiet r s) (a : RoomAct) (htimer : a.IsTimer) : ∀ m ∈ (s.act c a).2, ¬m.Concerns r := by
  cases a with
  | groupKeyTimer now challenge =>
    have hsealed : QuietOut r (s.retryPendingGroupKeys c now) := quiet_retryKeys h
    exact ((quiet_retryRequests hsealed.quiet challenge).append hsealed.silent).silent
  | joinTimer now routes => exact (quiet_retryJoins h routes).silent
  | _ => exact absurd htimer id

/-- **A run.** -/
theorem quiet_after (h : RoomSession.Quiet r s) {acts : List RoomAct} (hacts : ∀ a ∈ acts, ¬a.BringsRoster r ∧ ¬a.DeniesJoin r) :
    RoomSession.Quiet r (s.after c acts) := by
  induction acts generalizing s with
  | nil => exact h
  | cons a acts ih =>
    obtain ⟨hroster, hdenied⟩ := hacts a List.mem_cons_self
    exact ih (quiet_act h a hroster hdenied) fun b hb => hacts b (List.mem_cons_of_mem a hb)

theorem timersSilent_of_quiet (h : RoomSession.Quiet r s) {acts : List RoomAct} (hacts : ∀ a ∈ acts, ¬a.BringsRoster r ∧ ¬a.DeniesJoin r) :
    s.TimersSilent c r acts := by
  intro pre a hpre htimer
  refine silent_timer (quiet_after h fun b hb => hacts b ?_) a htimer
  exact hpre.subset (List.mem_append_left _ hb)

/-! ### Device rosters -/

theorem endpointOfJson_toJson (e : RoomEndpoint) :
    endpointOfJson (.obj [("identity", .str e.identity), ("device", e.device.elim .null Calls.deviceToJson)]) = some e := by
  obtain ⟨identity, device⟩ := e
  cases device with
  | none => rfl
  | some device =>
    have hdevice : optionalDevice (Calls.deviceToJson device) = some (some device) := by
      have hread := Calls.deviceOfJson_toJson device
      unfold optionalDevice
      unfold Calls.deviceToJson at hread ⊢
      dsimp only
      rw [hread]
      rfl
    simp [endpointOfJson, List.lookup_cons, Json.asStr, hdevice]

theorem rosterOfJson_toJson (roster : List RoomEndpoint) : rosterOfJson (rosterToJson roster) = some roster := by
  unfold rosterToJson rosterOfJson
  dsimp only
  induction roster with
  | nil => rfl
  | cons e roster ih => simp [List.mapM_cons, endpointOfJson_toJson, ih]

/-- A roster that was recorded once is recorded again. -/
theorem recordRoomDevices_again {d : RoomKeyDevice} {me : DeviceId} {roster : List RoomEndpoint} (hme : d.deviceId = some me)
    (hlength : roster.length ≤ 1024)
    (hlisted : (roster.any fun e => sameIdentity e.identity d.publicId && e.device == some me) = true) (hashing : RoomHashing)
    (node room : String) (challenge : List UInt8) :
    (d.recordRoomDevices hashing node room (some (rosterToJson roster)) challenge).1.roomDeviceRosters =
      d.roomDeviceRosters.insert (roomScopeKey node room) roster := by
  unfold RoomKeyDevice.recordRoomDevices
  rw [hme]
  dsimp only
  rw [Option.bind_some, rosterOfJson_toJson, Option.filter_some, if_pos (decide_eq_true hlength)]
  dsimp only
  rw [hlisted, Bool.not_true, if_neg Bool.false_ne_true]
  split
  · rfl
  · split <;> rfl

theorem recordRoomDevices_fixed (d : RoomKeyDevice) (hashing : RoomHashing) (node room : String) (value : Option Json)
    (challenge : List UInt8) : (d.recordRoomDevices hashing node room value challenge).1.groupKeys = d.groupKeys := by
  unfold RoomKeyDevice.recordRoomDevices
  split
  · rfl
  · dsimp only
    split
    · rfl
    · split
      · rfl
      · split
        · rfl
        · split <;> rfl

theorem forgetScope_groupKeys (d : RoomKeyDevice) (node room : String) (challenge : List UInt8) :
    (forgetRoomDeviceScope c d node room challenge).groupKeys = d.groupKeys := by
  unfold forgetRoomDeviceScope
  dsimp only
  split
  · rfl
  · exact recordRoomDevices_fixed ..

/-- Rosters of a room that other nodes sent stay, and where there is none the round goes too. -/
theorem forgetScope_cases {d : RoomKeyDevice} (hrecorded : d.Recorded) (node room : String) (challenge : List UInt8) :
    (∃ scope, isScopeOf room scope = true ∧ scope ≠ roomScopeKey node room ∧ scope ∈ d.roomDeviceRosters ∧
      scope ∈ (forgetRoomDeviceScope c d node room challenge).roomDeviceRosters) ∨
    ((∀ scope, isScopeOf room scope = true → scope ∈ d.roomDeviceRosters → scope = roomScopeKey node room) ∧
      (forgetRoomDeviceScope c d node room challenge).roomDeviceRosters = d.roomDeviceRosters.erase (roomScopeKey node room) ∧
      (forgetRoomDeviceScope c d node room challenge).ownRoomKeyRounds = d.ownRoomKeyRounds.erase room) := by
  unfold forgetRoomDeviceScope
  dsimp only
  have hdropped : (d.dropRoster (roomScopeKey node room) room).roomDeviceRosters =
      d.roomDeviceRosters.erase (roomScopeKey node room) := rfl
  cases hfind : (d.dropRoster (roomScopeKey node room) room).roomDeviceRosters.entries.find? fun e => isScopeOf room e.1 with
  | none =>
    refine Or.inr ⟨fun scope hof hin => ?_, rfl, rfl⟩
    by_contra hne
    obtain ⟨roster, hlook⟩ := Option.isSome_iff_exists.mp (AList.lookup_isSome.mpr hin)
    rw [hdropped] at hfind
    have hlook' : (d.roomDeviceRosters.erase (roomScopeKey node room)).lookup scope = some roster := by
      rwa [AList.lookup_erase_ne hne]
    exact List.find?_eq_none.mp hfind ⟨scope, roster⟩ (AList.mem_lookup_iff.mp hlook') hof
  | some e =>
    have hof : isScopeOf room e.1 = true := by simpa using List.find?_some hfind
    rw [hdropped] at hfind
    have hin : (d.roomDeviceRosters.erase (roomScopeKey node room)).lookup e.1 = some e.2 :=
      AList.mem_lookup_iff.mpr (List.mem_of_find?_eq_some hfind)
    have hne : e.1 ≠ roomScopeKey node room := by
      intro heq
      rw [heq, AList.lookup_erase] at hin
      cases hin
    rw [AList.lookup_erase_ne hne] at hin
    obtain ⟨me, hme, hlength, hlisted⟩ := hrecorded e.1 e.2 hin
    refine Or.inl ⟨e.1, hof, hne, AList.lookup_isSome.mp (by rw [hin]; rfl), ?_⟩
    have hme' : (d.dropRoster (roomScopeKey node room) room).deviceId = some me := hme
    dsimp only
    rw [recordRoomDevices_again hme' hlength hlisted, roomScopeKey_node hof]
    exact (AList.mem_insert _).mpr (Or.inl rfl)

theorem recorded_sameRosters {d e : RoomKeyDevice} (h : d.Recorded) (hsame : SameRosters d e) : e.Recorded := by
  intro scope roster hlook
  rw [hsame.rosters] at hlook
  rw [hsame.deviceId, hsame.publicId]
  exact h scope roster hlook

theorem recorded_dropRoster {d : RoomKeyDevice} (h : d.Recorded) (scope room : String) : (d.dropRoster scope room).Recorded := by
  intro other roster hlook
  have hne : other ≠ scope := by
    rintro rfl
    rw [RoomKeyDevice.dropRoster, AList.lookup_erase] at hlook
    cases hlook
  refine h other roster ?_
  rwa [RoomKeyDevice.dropRoster, AList.lookup_erase_ne hne] at hlook

theorem recorded_record {d : RoomKeyDevice} (h : d.Recorded) (hashing : RoomHashing) (node room : String) (value : Option Json)
    (challenge : List UInt8) : (d.recordRoomDevices hashing node room value challenge).1.Recorded := by
  unfold RoomKeyDevice.recordRoomDevices
  split
  · exact h
  next me hme =>
    dsimp only
    split
    · exact recorded_dropRoster h _ room
    next roster hroster =>
      split
      · exact recorded_dropRoster h _ room
      next hlisted =>
        have hlength : roster.length ≤ 1024 := of_decide_eq_true (Option.filter_eq_some_iff.mp hroster).2
        have hinserted : RoomKeyDevice.Recorded
            { d with roomDeviceRosters := d.roomDeviceRosters.insert (node ++ (":" ++ room)) roster } := by
          intro scope other hlook
          by_cases hscope : scope = node ++ (":" ++ room)
          · subst hscope
            rw [AList.lookup_insert] at hlook
            cases hlook
            exact ⟨me, hme, hlength, by simpa using hlisted⟩
          · rw [AList.lookup_insert_ne hscope] at hlook
            exact h scope other hlook
        split
        · exact recorded_sameRosters hinserted ⟨rfl, rfl, rfl⟩
        · split
          · exact hinserted
          · exact recorded_sameRosters hinserted ⟨rfl, rfl, rfl⟩

theorem recorded_forgetScope {d : RoomKeyDevice} (h : d.Recorded) (node room : String) (challenge : List UInt8) :
    (forgetRoomDeviceScope c d node room challenge).Recorded := by
  unfold forgetRoomDeviceScope
  dsimp only
  split
  · exact recorded_dropRoster h _ room
  · exact recorded_record (recorded_dropRoster h _ room) _ _ _ _ _

theorem recorded_onMembers (h : s.Recorded) (now : Nat) (routes : RoomRoutes) (node roomId : String) (members chatMembers : List String)
    (devices : Option Json) (key challenge : List UInt8) :
    (s.onSfuMembers c now routes node roomId members chatMembers devices key challenge).1.Recorded := by
  have hrecord := recorded_record h c.hashing node roomId devices challenge
  unfold onSfuMembers
  split
  · exact h
  · dsimp only
    split
    · exact hrecord
    · unfold applyRoomRosters
      refine recorded_sameRosters hrecord (SameRosters.trans ?_ (sameRosters_sync _ now node roomId _ key challenge))
      dsimp only
      split <;> exact ⟨rfl, rfl, rfl⟩

theorem recorded_peerJoined (h : s.Recorded) (now : Nat) (node roomId peerId : String) (key challenge : List UInt8) :
    (s.applyRoomPeerJoined c now node roomId peerId key challenge).1.Recorded := by
  have hsync := sameRosters_sync (c := c) s now node roomId (inOrder (insert peerId (s.snapshotWithMe node roomId))) key challenge
  unfold applyRoomPeerJoined
  generalize s.syncRoomMembership c now node roomId (inOrder (insert peerId (s.snapshotWithMe node roomId))) key challenge = out at *
  dsimp only
  split
  · exact recorded_sameRosters h hsync
  · exact recorded_sameRosters h (hsync.trans ⟨rfl, rfl, rfl⟩)

/-- **The rosters that are kept were taken.** -/
theorem recorded_act (h : s.Recorded) (a : RoomAct) : (s.act c a).1.Recorded := by
  cases a with
  | groupKeyTimer now challenge =>
    exact recorded_sameRosters h ((sameRosters_retryKeys s now).trans (sameRosters_retryRequests _ now challenge))
  | joinTimer now routes => exact recorded_sameRosters h (sameRosters_retryJoins s routes now)
  | members now routes node roomId members chatMembers devices key challenge =>
    exact recorded_onMembers h now routes node roomId members chatMembers devices key challenge
  | peerJoined now node roomId peerId key challenge =>
    exact recorded_peerJoined h now node roomId peerId key challenge
  | peerLeft now node roomId peerId key challenge => exact recorded_sameRosters h (sameRosters_sync s now node roomId _ key challenge)
  | groupKey now sender device roomId epoch key =>
    change (s.onSfuGroupKey c now sender device roomId epoch key).1.Recorded
    unfold onSfuGroupKey
    split
    · exact h
    · exact recorded_sameRosters h ⟨rfl, rfl, rfl⟩
  | groupKeyRequest now sender roomId => exact recorded_sameRosters h (sameRosters_serve s now roomId sender)
  | groupKeyAck sender roomId epoch =>
    change (s.onSfuGroupKeyAck sender roomId epoch).Recorded
    unfold onSfuGroupKeyAck
    split
    · exact recorded_sameRosters h ⟨rfl, rfl, rfl⟩
    · exact h
  | deviceKeySync now message key challenge => exact recorded_sameRosters h (sameRosters_deviceKeySync s now message key challenge)
  | unopenableFrame now sender roomId epoch key challenge =>
    exact recorded_sameRosters h (sameRosters_frame s now roomId sender epoch key challenge)
  | roomAbsent now node roomId => exact recorded_sameRosters h ⟨rfl, rfl, rfl⟩
  | leave routes node roomId challenge =>
    change (s.leaveRoomVoice c routes node roomId challenge).1.Recorded
    unfold leaveRoomVoice
    dsimp only
    split
    · exact recorded_sameRosters h ⟨rfl, rfl, rfl⟩
    · have hforgot : RoomKeyDevice.Recorded { s.toRoomKeyDevice with groupKeys := s.groupKeys.forget roomId } := h
      exact recorded_forgetScope hforgot node roomId challenge

/-! ### The leave -/

/-- What a leave without chat makes of the rooms. -/
structure Left (c : RoomSealing) (node r : String) (challenge : List UInt8) (s t : RoomSession) : Prop where
  members : t.roomGroupMembers = s.roomGroupMembers.erase (roomScopeKey node r)
  voice : t.roomVoiceMembers = s.roomVoiceMembers.erase (roomScopeKey node r)
  device : t.toRoomKeyDevice =
    forgetRoomDeviceScope c { s.toRoomKeyDevice with groupKeys := s.groupKeys.forget r } node r challenge
  acks : t.pendingGroupKeyAcks = retain s.pendingGroupKeyAcks fun key _ => decide (key.1 ≠ r)
  joins : t.pendingRoomJoinRetries = retain s.pendingRoomJoinRetries fun key _ => decide (key.2 ≠ r)

theorem left_of_leave (routes : RoomRoutes) {node : String} (challenge : List UInt8) (hchat : s.keepsChat node r = false) :
    Left c node r challenge s (s.leaveRoomVoice c routes node r challenge).1 := by
  unfold leaveRoomVoice
  dsimp only
  rw [hchat, if_neg Bool.false_ne_true]
  exact ⟨rfl, rfl, rfl, rfl, rfl⟩

/-- Without snapshots under other nodes, a leave forgets the room and leaves it quiet. -/
theorem forgotten_of_left {t : RoomSession} {node : String} {challenge : List UInt8} (h : Left c node r challenge s t)
    (hrecorded : s.Recorded) (honly : OnlyUnder node r s) : Forgotten r t ∧ RoomSession.Quiet r t := by
  have hrecorded' : RoomKeyDevice.Recorded { s.toRoomKeyDevice with groupKeys := s.groupKeys.forget r } := hrecorded
  have hmembers : ∀ scope, isScopeOf r scope = true → scope ∉ t.roomGroupMembers := by
    intro scope hof hin
    rw [h.members, AList.mem_erase] at hin
    exact hin.1 (honly scope hof (Or.inl hin.2))
  have hacks : ∀ member, (r, member) ∉ t.pendingGroupKeyAcks := by
    intro member hin
    rw [h.acks, ← AList.lookup_isSome, lookup_retain] at hin
    obtain ⟨pending, hpending⟩ := Option.isSome_iff_exists.mp hin
    exact of_decide_eq_true (Option.filter_eq_some_iff.mp hpending).2 rfl
  have hjoins : ∀ other, (other, r) ∉ t.pendingRoomJoinRetries := by
    intro other hin
    rw [h.joins, ← AList.lookup_isSome, lookup_retain] at hin
    obtain ⟨pending, hpending⟩ := Option.isSome_iff_exists.mp hin
    exact of_decide_eq_true (Option.filter_eq_some_iff.mp hpending).2 rfl
  refine ⟨?_, hmembers, hacks, hjoins⟩
  rcases forgetScope_cases (c := c) hrecorded' node r challenge with ⟨scope, hof, hne, hin, -⟩ | ⟨-, hrosters, hrounds⟩
  · exact absurd (honly scope hof (Or.inr (Or.inr hin))) hne
  · refine ⟨?_, ?_, ?_, hacks⟩
    · rintro scope hof (hin | hin | hin)
      · exact hmembers scope hof hin
      · rw [h.voice, AList.mem_erase] at hin
        exact hin.1 (honly scope hof (Or.inr (Or.inl hin.2)))
      · rw [h.device, hrosters, AList.mem_erase] at hin
        exact hin.1 (honly scope hof (Or.inr (Or.inr hin.2)))
    · rw [h.device, forgetScope_groupKeys]
      exact AList.lookup_erase r _
    · rw [h.device, hrounds]
      exact AList.lookup_erase r _

/-- A snapshot under another node stays. -/
theorem onlyUnder_of_left {t : RoomSession} {node : String} {challenge : List UInt8} (h : Left c node r challenge s t)
    (hrecorded : s.Recorded) (hforgotten : Forgotten r t) : OnlyUnder node r s := by
  have hrecorded' : RoomKeyDevice.Recorded { s.toRoomKeyDevice with groupKeys := s.groupKeys.forget r } := hrecorded
  rintro scope hof (hin | hin | hin)
  · by_contra hne
    refine hforgotten.snapshots scope hof (Or.inl ?_)
    rw [h.members]
    exact AList.mem_erase.mpr ⟨hne, hin⟩
  · by_contra hne
    refine hforgotten.snapshots scope hof (Or.inr (Or.inl ?_))
    rw [h.voice]
    exact AList.mem_erase.mpr ⟨hne, hin⟩
  · rcases forgetScope_cases (c := c) hrecorded' node r challenge with ⟨other, hother, -, -, hstays⟩ | ⟨honly, -⟩
    · refine absurd (Or.inr (Or.inr ?_)) (hforgotten.snapshots other hother)
      rw [h.device]
      exact hstays
    · exact honly scope hof hin

/-! ### Joins that are denied late -/

theorem keeps_resendJoin (routes : RoomRoutes) (now : Nat) (keys : List (String × String)) (acc : RoomSession × List RoomSend) :
    ∀ m ∈ acc.2, m ∈ (keys.foldl (resendJoin routes now) acc).2 := by
  induction keys generalizing acc with
  | nil => exact fun m hm => hm
  | cons key keys ih => exact fun m hm => ih _ m (List.mem_append_left _ hm)

theorem join_mem_resendJoin (routes : RoomRoutes) (now : Nat) {keys : List (String × String)} {key : String × String}
    (hkey : key ∈ keys) (acc : RoomSession × List RoomSend) :
    RoomSend.join (routes.liveRoomRoute key.1) key.2 ∈ (keys.foldl (resendJoin routes now) acc).2 := by
  induction keys generalizing acc with
  | nil => cases hkey
  | cons other keys ih =>
    rcases List.mem_cons.mp hkey with rfl | hkey
    · exact keeps_resendJoin routes now keys _ _ (List.mem_append_right _ List.mem_cons_self)
    · exact ih hkey _

/-- A denial that comes after the leave has the timer send the join again. -/
theorem join_after_denial (c : RoomSealing) (h : RoomSession.Quiet r s) {routes : RoomRoutes} {node : String}
    (hnode : routes.supernodes node = true) {now later : Nat} (hlater : roomJoinDelay 0 ≤ later - now) :
    RoomSend.join (routes.liveRoomRoute node) r ∈
      (((s.act c (.roomAbsent now node r)).1).act c (.joinTimer later routes)).2 := by
  have hpending : (s.onRoomAbsent now node r).pendingRoomJoinRetries =
      s.pendingRoomJoinRetries.insert (node, r) { lastSent := now, attempts := 0 } := by
    unfold onRoomAbsent
    rw [AList.lookup_eq_none.mpr (h.joins node)]
    rfl
  unfold act retryPendingRoomJoins
  dsimp only
  refine @join_mem_resendJoin routes later _ (node, r)
    (List.mem_map.mpr ⟨(⟨(node, r), ⟨now, 0⟩⟩ : (_ : String × String) × PendingRoomJoinRetry), ?_, rfl⟩) _
  rw [hpending]
  refine List.mem_filter.mpr ⟨AList.mem_lookup_iff.mp (AList.lookup_insert _), ?_⟩
  simp [hnode, hlater, roomJoinMaxAttempts]

end RoomLeavesAux

open RoomLeavesAux RoomSession

/-- **Leaving a room.** A leave without chat forgets the room, and no timer sends for it until a roster of it comes in, exactly if no
other node had sent a snapshot of it. A supernode that denies the join late has the timer join again. -/
theorem leave_forgets_room (c : RoomSealing) (s : RoomSession) (hrecorded : s.Recorded) (routes : RoomRoutes) (node r : String)
    (challenge : List UInt8) (hchat : s.keepsChat node r = false) :
    (Forgotten r (s.leaveRoomVoice c routes node r challenge).1 ∧
      ∀ acts : List RoomAct, (∀ a ∈ acts, ¬a.BringsRoster r ∧ ¬a.DeniesJoin r) →
        (s.leaveRoomVoice c routes node r challenge).1.TimersSilent c r acts) ↔ OnlyUnder node r s := by
  have hleft := left_of_leave (c := c) routes challenge hchat
  constructor
  · exact fun hboth => onlyUnder_of_left hleft hrecorded hboth.1
  · intro honly
    obtain ⟨hforgotten, hquiet⟩ := forgotten_of_left hleft hrecorded honly
    exact ⟨hforgotten, fun acts hacts => timersSilent_of_quiet hquiet hacts⟩

/-- Hashes that are all alike, and sealing that always succeeds. -/
def plainSealing : RoomSealing := ⟨⟨fun _ => [], fun _ => []⟩, fun _ => true⟩

/-- One connected supernode, `A`. -/
def oneRoute : RoomRoutes := ⟨fun node => node == "A", fun _ => none, fun _ => []⟩

/-- A client without device routing that has a snapshot of the room `r` from each of the given nodes. -/
def memberAt (nodes : List String) : RoomSession where
  publicId := "me"
  deviceId := none
  roomDeviceRosters := ∅
  ownRoomKeyRounds := ∅
  groupKeys := ⟨∅⟩
  roomGroupMembers := nodes.foldr (fun node m => m.insert (roomScopeKey node "r") {"x"}) ∅
  roomVoiceMembers := ∅
  pendingGroupKeyAcks := ∅
  groupKeyRequests := ∅
  pendingRoomJoinRetries := ∅
  chatActiveRooms := ∅
  failoverPendingRoom := none
  currentRoomId := "r"
  currentSupernodeId := "A"

theorem recorded_memberAt (nodes : List String) : (memberAt nodes).Recorded := by
  intro scope roster hlook
  rw [memberAt, AList.lookup_empty] at hlook
  cases hlook

theorem leave_forgets_single : (memberAt ["A"]).Recorded ∧ (memberAt ["A"]).keepsChat "A" "r" = false ∧
    ((Forgotten "r" ((memberAt ["A"]).leaveRoomVoice plainSealing oneRoute "A" "r" []).1 ∧
      ∀ acts : List RoomAct, (∀ a ∈ acts, ¬a.BringsRoster "r" ∧ ¬a.DeniesJoin "r") →
        ((memberAt ["A"]).leaveRoomVoice plainSealing oneRoute "A" "r" []).1.TimersSilent plainSealing "r" acts) ↔
      OnlyUnder "A" "r" (memberAt ["A"])) :=
  ⟨recorded_memberAt _, by decide, leave_forgets_room plainSealing _ (recorded_memberAt _) oneRoute "A" "r" [] (by decide)⟩

/-- The snapshot of another node of the cluster stays after a leave. -/
theorem leave_keeps_snapshot : ¬∀ (c : RoomSealing) (s : RoomSession), s.Recorded →
    ∀ (routes : RoomRoutes) (node r : String) (challenge : List UInt8), s.keepsChat node r = false →
      Forgotten r (s.leaveRoomVoice c routes node r challenge).1 ∧
        ∀ acts : List RoomAct, (∀ a ∈ acts, ¬a.BringsRoster r) →
          (s.leaveRoomVoice c routes node r challenge).1.TimersSilent c r acts := by
  intro hall
  have hleft := hall plainSealing (memberAt ["A", "B"]) (recorded_memberAt _) oneRoute "A" "r" [] (by decide)
  exact hleft.1.snapshots (roomScopeKey "B" "r") (isScopeOf_key "B" "r") (Or.inl (by decide))

end DoubleSlash.Keys
