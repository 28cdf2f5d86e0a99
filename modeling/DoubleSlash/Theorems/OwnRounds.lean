import DoubleSlash.Keys.OwnRounds
import DoubleSlash.Lib.Run

/-!
# One key for one's own devices

Who keys a room, which replies count, and when a device is ready to key it.
-/

namespace DoubleSlash.Keys

open Assoc Protocol Tls Run

section

variable {ι : Type} [DecidableEq ι] (h : RoomHashing)

/-- Devices with ids of their own that have no rounds yet. Which keys they hold is open. -/
structure KeyNet.Begins (s : KeyNet ι) (ids : ι → DeviceId) : Prop where
  named : ∀ i, (s.devices i).deviceId = some (ids i)
  distinct : Function.Injective ids
  noRounds : ∀ i, (s.devices i).ownRoomKeyRounds = ∅
  silent : s.inFlight = []

/-- The challenge of the device's round. -/
def HasChallenge (d : RoomKeyDevice) (room : String) (challenge : List UInt8) : Prop :=
  ∃ round, d.ownRoomKeyRounds.lookup room = some round ∧ round.challenge = challenge

/-- A reply about a room, under a challenge. -/
structure IsReply (message : SignalingMessage) (room : String) (challenge : List UInt8) : Prop where
  room : (message.payload.get "room_id").bind Json.asStr = some room
  request : (message.payload.get "request").bind Json.asBool = some false
  challenge : (message.payload.get "challenge").bind challengeOfJson = some challenge

/-- Nothing about the room is under way, no device would ask, now or later, all hold the same current epoch and key, and all have a
round over the same devices. -/
structure Quiet (s : KeyNet ι) (room : String) : Prop where
  noMessage : ∀ message ∈ s.inFlight, (message.payload.get "room_id").bind Json.asStr ≠ some room
  noRequest : ∀ i now, ((s.devices i).requestOwnRoomKey now room).2 = []
  sameKey : ∃ epoch key, ∀ i, (s.devices i).groupKeys.hasRealKey room = true ∧ (s.devices i).groupKeys.currentEpoch room = epoch ∧
    (s.devices i).groupKeys.epochKey h.deterministicRoomKey room epoch = some key
  sameRoster : ∃ members, ∀ i, ∃ round, (s.devices i).ownRoomKeyRounds.lookup room = some round ∧ round.members = members

/-- A reply the device accepts that carries, for the epoch that is current there, another key than the device's own. -/
def Disagreement (d : RoomKeyDevice) (message : SignalingMessage) : Prop :=
  ∃ room round sender reply, d.syncRound message = some (room, round, sender, round.challenge) ∧
    (message.payload.get "request").bind Json.asBool = some false ∧ RoomKeyDevice.readReply message.payload = some reply ∧
    d.disagrees h room reply = true

/-- The condition on a step: what arrives is no disagreement. -/
def Agreeable (s : KeyNet ι) : KeyAct ι → Prop
  | .deliver i n _ _ => ∀ message, s.inFlight[n]? = some message → ¬Disagreement h (s.devices i) message
  | _ => True

end

namespace OwnRoundsAux

variable {h : RoomHashing}

/-! ## One device -/

/-- The device's round is in conflict. -/
def InConflict (d : RoomKeyDevice) (room : String) : Prop := ∃ round, d.ownRoomKeyRounds.lookup room = some round ∧ round.conflict = true

/-- A step of one device keeps its id, gives no round a challenge except the one that was drawn, and brings no round into conflict
unless it met a disagreement. -/
structure Redraws (d d' : RoomKeyDevice) (drawn : List (List UInt8)) (disagreement : Prop) : Prop where
  deviceId : d'.deviceId = d.deviceId
  challenge : ∀ room challenge, HasChallenge d' room challenge → HasChallenge d room challenge ∨ challenge ∈ drawn
  conflict : ∀ room, InConflict d' room → InConflict d room ∨ disagreement

theorem redraws_of_rounds {d d' : RoomKeyDevice} (hid : d'.deviceId = d.deviceId) (hrounds : d'.ownRoomKeyRounds = d.ownRoomKeyRounds)
    (drawn : List (List UInt8)) (disagreement : Prop) : Redraws d d' drawn disagreement where
  deviceId := hid
  challenge room challenge hc := by
    obtain ⟨round, hlook, heq⟩ := hc
    exact Or.inl ⟨round, hrounds ▸ hlook, heq⟩
  conflict room hc := by
    obtain ⟨round, hlook, heq⟩ := hc
    exact Or.inl ⟨round, hrounds ▸ hlook, heq⟩

theorem redraws_keys (d : RoomKeyDevice) (keys : SenderKeysGroup (List UInt8)) (drawn : List (List UInt8)) (disagreement : Prop) :
    Redraws d { d with groupKeys := keys } drawn disagreement := redraws_of_rounds (by rfl) (by rfl) drawn disagreement

/-- Entering a round whose challenge was there or was drawn. -/
theorem redraws_insert {d d' : RoomKeyDevice} {drawn : List (List UInt8)} {disagreement : Prop} {room : String} {round : OwnKeyRound}
    (hid : d'.deviceId = d.deviceId) (hrounds : d'.ownRoomKeyRounds = d.ownRoomKeyRounds.insert room round)
    (hround : HasChallenge d room round.challenge ∨ round.challenge ∈ drawn)
    (hconflict : round.conflict = true → InConflict d room ∨ disagreement) : Redraws d d' drawn disagreement := by
  have hlookup : ∀ {room' : String} {round' : OwnKeyRound}, d'.ownRoomKeyRounds.lookup room' = some round' →
      (room' = room ∧ round' = round) ∨ d.ownRoomKeyRounds.lookup room' = some round' := by
    intro room' round' hlook
    rw [hrounds] at hlook
    by_cases hroom : room' = room
    · subst hroom
      rw [AList.lookup_insert] at hlook
      exact Or.inl ⟨rfl, (Option.some.inj hlook).symm⟩
    · rw [AList.lookup_insert_ne hroom] at hlook
      exact Or.inr hlook
  refine ⟨hid, ?_, ?_⟩
  · rintro room' challenge ⟨round', hlook, heq⟩
    rcases hlookup hlook with ⟨rfl, rfl⟩ | hold
    · rw [← heq]
      exact hround
    · exact Or.inl ⟨round', hold, heq⟩
  · rintro room' ⟨round', hlook, heq⟩
    rcases hlookup hlook with ⟨rfl, rfl⟩ | hold
    · exact hconflict heq
    · exact Or.inl ⟨round', hold, heq⟩

theorem redraws_erase {d d' : RoomKeyDevice} (room : String) (hid : d'.deviceId = d.deviceId)
    (hrounds : d'.ownRoomKeyRounds = d.ownRoomKeyRounds.erase room) (drawn : List (List UInt8)) (disagreement : Prop) :
    Redraws d d' drawn disagreement := by
  have hlookup : ∀ {room' : String} {round' : OwnKeyRound}, d'.ownRoomKeyRounds.lookup room' = some round' →
      d.ownRoomKeyRounds.lookup room' = some round' := by
    intro room' round' hlook
    rw [hrounds] at hlook
    by_cases hroom : room' = room
    · subst hroom
      rw [AList.lookup_erase] at hlook
      cases hlook
    · rwa [AList.lookup_erase_ne hroom] at hlook
  refine ⟨hid, ?_, ?_⟩
  · rintro room' challenge ⟨round', hlook, heq⟩
    exact Or.inl ⟨round', hlookup hlook, heq⟩
  · rintro room' ⟨round', hlook, heq⟩
    exact Or.inl ⟨round', hlookup hlook, heq⟩

theorem redraws_dropRoster (d : RoomKeyDevice) (scope room : String) (drawn : List (List UInt8)) (disagreement : Prop) :
    Redraws d (d.dropRoster scope room) drawn disagreement := redraws_erase room (by rfl) (by rfl) drawn disagreement

theorem redraws_record (d : RoomKeyDevice) (supernode room : String) (value : Option Json) (challenge : List UInt8) :
    Redraws d (d.recordRoomDevices h supernode room value challenge).1 [challenge] False := by
  unfold RoomKeyDevice.recordRoomDevices
  split
  · exact redraws_of_rounds (by rfl) (by rfl) _ _
  · dsimp only
    split
    · exact redraws_dropRoster d _ room _ _
    · split
      · exact redraws_dropRoster d _ room _ _
      · split
        · exact redraws_erase room (by rfl) (by rfl) _ _
        · split
          · exact redraws_of_rounds (by rfl) (by rfl) _ _
          · exact redraws_insert rfl rfl (Or.inr (List.mem_singleton.mpr rfl)) fun hconflict => Bool.noConfusion hconflict

theorem redraws_reopen (d : RoomKeyDevice) (room : String) (challenge : List UInt8) :
    Redraws d (d.reopenOwnRoomKeyRound room challenge).1 [challenge] False := by
  unfold RoomKeyDevice.reopenOwnRoomKeyRound
  split
  · exact redraws_of_rounds (by rfl) (by rfl) _ _
  · rename_i round hround
    exact redraws_insert rfl rfl (Or.inr (List.mem_singleton.mpr rfl)) fun hconflict => Or.inl ⟨round, hround, hconflict⟩

theorem redraws_request (d : RoomKeyDevice) (now : Nat) (room : String) : Redraws d (d.requestOwnRoomKey now room).1 [] False := by
  unfold RoomKeyDevice.requestOwnRoomKey
  split
  · rename_i round _ hround
    split
    · exact redraws_of_rounds (by rfl) (by rfl) _ _
    · dsimp only
      split
      · exact redraws_of_rounds (by rfl) (by rfl) _ _
      · exact redraws_insert rfl rfl (Or.inl ⟨_, hround, rfl⟩) fun hconflict => Or.inl ⟨_, hround, hconflict⟩
  · exact redraws_of_rounds (by rfl) (by rfl) _ _

/-- What a sync message that belongs to a round has passed. -/
theorem syncRound_eq_some {d : RoomKeyDevice} {message : SignalingMessage} {room : String} {round : OwnKeyRound} {sender : DeviceId}
    {challenge : List UInt8} (hsync : d.syncRound message = some (room, round, sender, challenge)) :
    (message.payload.get "room_id").bind Json.asStr = some room ∧ d.ownRoomKeyRounds.lookup room = some round ∧
      (message.payload.get "challenge").bind challengeOfJson = some challenge := by
  simp only [RoomKeyDevice.syncRound, Option.bind_eq_bind, Option.bind_eq_some_iff] at hsync
  obtain ⟨me, -, sender', -, hsync⟩ := hsync
  split at hsync
  · cases hsync
  · obtain ⟨room', hroom, hsync⟩ := Option.bind_eq_some_iff.mp hsync
    obtain ⟨round', hround, hsync⟩ := Option.bind_eq_some_iff.mp hsync
    split at hsync
    · cases hsync
    · obtain ⟨challenge', hchallenge, hsync⟩ := Option.bind_eq_some_iff.mp hsync
      simp only [Option.pure_def, Option.some.injEq, Prod.mk.injEq] at hsync
      obtain ⟨rfl, rfl, -, rfl⟩ := hsync
      exact ⟨hroom, hround, hchallenge⟩

theorem redraws_handle (d : RoomKeyDevice) (now : Nat) (message : SignalingMessage) :
    Redraws d (d.handleOwnRoomKeySync h now message).1 [] (Disagreement h d message) := by
  unfold RoomKeyDevice.handleOwnRoomKeySync
  split
  · exact redraws_of_rounds (by rfl) (by rfl) _ _
  · rename_i room round sender challenge hsync
    obtain ⟨-, hround, -⟩ := syncRound_eq_some hsync
    dsimp only
    split
    · exact redraws_of_rounds (by rfl) (by rfl) _ _
    · split
      · exact redraws_of_rounds (by rfl) (by rfl) _ _
      · rename_i hmatches
        split
        · exact redraws_of_rounds (by rfl) (by rfl) _ _
        · rename_i reply hreply
          split
          · rename_i hdisagrees
            simp only [Bool.or_eq_true, bne_iff_ne, not_or, not_not] at hmatches
            obtain ⟨rfl, hrequest⟩ := hmatches
            exact redraws_insert rfl rfl (Or.inl ⟨round, hround, rfl⟩) fun _ =>
              Or.inr ⟨room, round, sender, reply, hsync, hrequest, hreply, hdisagrees⟩
          · exact redraws_insert rfl rfl (Or.inl ⟨round, hround, rfl⟩) fun hconflict => Or.inl ⟨round, hround, hconflict⟩

/-- **A reply under another challenge than the round's changes nothing and is not answered.** -/
theorem handle_stale {d : RoomKeyDevice} {message : SignalingMessage} {room : String} {challenge : List UInt8}
    (hreply : IsReply message room challenge) (hstale : ¬HasChallenge d room challenge) (now : Nat) :
    d.handleOwnRoomKeySync h now message = (d, []) := by
  unfold RoomKeyDevice.handleOwnRoomKeySync
  split
  · rfl
  · rename_i room' round sender challenge' hsync
    obtain ⟨hroom, hround, hchallenge⟩ := syncRound_eq_some hsync
    obtain rfl : room' = room := Option.some.inj (hroom.symm.trans hreply.room)
    obtain rfl : challenge' = challenge := Option.some.inj (hchallenge.symm.trans hreply.challenge)
    dsimp only
    rw [hreply.request, if_neg (by simp), if_pos]
    rw [Bool.or_eq_true, bne_iff_ne]
    exact Or.inl fun heq => hstale ⟨round, hround, heq.symm⟩

/-! ## Steps and runs -/

section

variable {ι : Type} [DecidableEq ι]

theorem update_devices (s : KeyNet ι) (i j : ι) (d : RoomKeyDevice) (out : List SignalingMessage) :
    (s.update i d out).devices j = if j = i then d else s.devices j := rfl

/-- A device that is updated as `Redraws` says, and the others stay. -/
theorem redraws_update {s : KeyNet ι} {i : ι} {d : RoomKeyDevice} {drawn : List (List UInt8)} {disagreement : Prop}
    (hd : Redraws (s.devices i) d drawn disagreement) (out : List SignalingMessage) (j : ι) :
    Redraws (s.devices j) ((s.update i d out).devices j) drawn disagreement := by
  rw [update_devices]
  split
  · rename_i hj
    subst hj
    exact hd
  · exact redraws_of_rounds rfl rfl _ _

theorem Redraws.mono {d d' : RoomKeyDevice} {drawn : List (List UInt8)} {P Q : Prop} (hd : Redraws d d' drawn P) (himp : P → Q) :
    Redraws d d' drawn Q where
  deviceId := hd.deviceId
  challenge := hd.challenge
  conflict room hc := (hd.conflict room hc).imp_right himp

/-- What a step can do to the rounds: challenges are new ones, and a conflict comes from a disagreement. -/
theorem step_redraws {s s' : KeyNet ι} {act : KeyAct ι} (hstep : s.step h act = some s') :
    ∃ drawn, s'.drawn = drawn ++ s.drawn ∧ (∀ challenge ∈ drawn, challenge ∉ s.drawn) ∧
      ∀ i, Redraws (s.devices i) (s'.devices i) drawn (¬Agreeable h s act) := by
  cases act with
  | record i supernode room value challenge =>
    simp only [KeyNet.step] at hstep
    split at hstep
    · cases hstep
    · rename_i hfresh
      obtain rfl := Option.some.inj hstep
      refine ⟨[challenge], rfl, fun c hc => (List.mem_singleton.mp hc) ▸ hfresh, fun j => ?_⟩
      exact redraws_update ((redraws_record _ supernode room value challenge).mono False.elim) [] j
  | reopen i room challenge =>
    simp only [KeyNet.step] at hstep
    split at hstep
    · cases hstep
    · rename_i hfresh
      obtain rfl := Option.some.inj hstep
      refine ⟨[challenge], rfl, fun c hc => (List.mem_singleton.mp hc) ▸ hfresh, fun j => ?_⟩
      exact redraws_update ((redraws_reopen _ room challenge).mono False.elim) [] j
  | request i now room =>
    obtain rfl := Option.some.inj hstep
    exact ⟨[], rfl, fun c hc => absurd hc List.not_mem_nil, redraws_update ((redraws_request _ now room).mono False.elim) _⟩
  | deliver i n again now =>
    simp only [KeyNet.step] at hstep
    split at hstep
    · cases hstep
    · rename_i message hmessage
      obtain rfl := Option.some.inj hstep
      refine ⟨[], rfl, fun c hc => absurd hc List.not_mem_nil, fun j => ?_⟩
      have hhandle : Redraws (s.devices i) ((s.devices i).handleOwnRoomKeySync h now message).1 []
          (¬Agreeable h s (.deliver i n again now)) :=
        (redraws_handle _ now message).mono fun hdisagreement hagree => hagree message hmessage hdisagreement
      exact redraws_update (s := { s with inFlight := if again then s.inFlight else s.inFlight.eraseIdx n }) hhandle _ j
  | lose n =>
    obtain rfl := Option.some.inj hstep
    exact ⟨[], rfl, fun c hc => absurd hc List.not_mem_nil, fun j => redraws_of_rounds rfl rfl _ _⟩
  | install i now room epoch key =>
    obtain rfl := Option.some.inj hstep
    exact ⟨[], rfl, fun c hc => absurd hc List.not_mem_nil, redraws_update (redraws_keys _ _ _ _) []⟩
  | rotate i now room key =>
    obtain rfl := Option.some.inj hstep
    exact ⟨[], rfl, fun c hc => absurd hc List.not_mem_nil, redraws_update (redraws_keys _ _ _ _) []⟩

/-- Along a run: the ids stay, and every challenge in use was drawn. -/
structure Drawn (ids : ι → DeviceId) (s : KeyNet ι) : Prop where
  named : ∀ i, (s.devices i).deviceId = some (ids i)
  challenge : ∀ i room challenge, HasChallenge (s.devices i) room challenge → challenge ∈ s.drawn

omit [DecidableEq ι] in
theorem drawn_begins {s : KeyNet ι} {ids : ι → DeviceId} (hs : s.Begins ids) : Drawn ids s where
  named := hs.named
  challenge i room challenge hc := by
    obtain ⟨round, hlook, -⟩ := hc
    rw [hs.noRounds i, AList.lookup_empty] at hlook
    cases hlook

theorem drawn_step {s s' : KeyNet ι} {ids : ι → DeviceId} {act : KeyAct ι} (hs : Drawn ids s) (hstep : s.step h act = some s') :
    Drawn ids s' := by
  obtain ⟨drawn, hdrawn, -, hdevices⟩ := step_redraws hstep
  refine ⟨fun i => (hdevices i).deviceId.trans (hs.named i), fun i room challenge hc => ?_⟩
  rw [hdrawn, List.mem_append]
  rcases (hdevices i).challenge room challenge hc with hold | hnew
  · exact Or.inr (hs.challenge i room challenge hold)
  · exact Or.inl hnew

theorem drawn_run {s s' : KeyNet ι} {ids : ι → DeviceId} {acts : List (KeyAct ι)} (hs : Drawn ids s)
    (hrun : run (KeyNet.step h) s acts = some s') : Drawn ids s' :=
  run_invariant (fun _ => Drawn ids) hs (fun _ _ _ _ => drawn_step) hrun

/-- A challenge that was replaced stays replaced. -/
theorem replaced_run {s s' : KeyNet ι} {acts : List (KeyAct ι)} {i : ι} {room : String} {challenge : List UInt8}
    (hdrawn : challenge ∈ s.drawn) (hreplaced : ¬HasChallenge (s.devices i) room challenge)
    (hrun : run (KeyNet.step h) s acts = some s') : ¬HasChallenge (s'.devices i) room challenge := by
  have hinv : challenge ∈ s'.drawn ∧ ¬HasChallenge (s'.devices i) room challenge := by
    refine run_invariant (fun _ s => challenge ∈ s.drawn ∧ ¬HasChallenge (s.devices i) room challenge) ⟨hdrawn, hreplaced⟩ ?_ hrun
    rintro - act s₁ s₂ ⟨hmem, hnot⟩ hstep
    obtain ⟨drawn, heq, hfresh, hdevices⟩ := step_redraws hstep
    refine ⟨heq ▸ List.mem_append_right drawn hmem, fun hc => ?_⟩
    rcases (hdevices i).challenge room challenge hc with hold | hnew
    · exact hnot hold
    · exact hfresh challenge hnew hmem
  exact hinv.2

/-- Without disagreements no round is in conflict. -/
theorem calm_run {s s' : KeyNet ι} {ids : ι → DeviceId} {acts : List (KeyAct ι)} (hs : s.Begins ids)
    (hmeets : Meets (KeyNet.step h) (Agreeable h) s acts) (hrun : run (KeyNet.step h) s acts = some s') (i : ι) (room : String) :
    ¬InConflict (s'.devices i) room := by
  refine meets_invariant (fun s => ∀ i room, ¬InConflict (s.devices i) room) ?_ ?_ hmeets hrun i room
  · rintro s₁ act s₂ hcalm hagree hstep j room' hc
    obtain ⟨_, -, -, hdevices⟩ := step_redraws hstep
    rcases (hdevices j).conflict room' hc with hold | hdisagreement
    · exact hcalm j room' hold
    · exact hdisagreement hagree
  · rintro j room' ⟨round, hlook, -⟩
    rw [hs.noRounds j, AList.lookup_empty] at hlook
    cases hlook

/-! ## Who keys, and who is ready -/

theorem elected_eq {d : RoomKeyDevice} {me device : DeviceId} (hme : d.deviceId = some me) {room identity : String} :
    d.electedRoomDevice room identity (some device) = true ↔ (d.roomDevices room identity).head? = some (some device) := by
  simp [RoomKeyDevice.electedRoomDevice, hme]

/-- A device that would ask nobody, later, has heard every other device of its round, unless the round is in conflict. -/
theorem ready_of_noRequest {d : RoomKeyDevice} {me : DeviceId} {room : String} {round : OwnKeyRound} (hme : d.deviceId = some me)
    (hround : d.ownRoomKeyRounds.lookup room = some round) (hcalm : round.conflict = false)
    (hquiet : ∀ now, (d.requestOwnRoomKey now room).2 = []) : d.ownRoomKeyReady room = true := by
  have htargets : RoomKeyDevice.requestTargets me round = [] := by
    -- three seconds after the last request another one is due
    obtain ⟨now, hlate⟩ : ∃ now, ∀ last, round.lastRequest = some last → Calls.secs 3 ≤ now - last :=
      ⟨round.lastRequest.getD 0 + Calls.secs 3, fun last hlast => by rw [hlast, Option.getD_some, Nat.add_sub_cancel_left]⟩
    have hdue : (round.conflict || round.lastRequest.any fun last => decide (now - last < Calls.secs 3)) = false := by
      rw [hcalm, Bool.false_or]
      cases hlast : round.lastRequest with
      | none => rfl
      | some last => exact decide_eq_false (Nat.not_lt.mpr (hlate last hlast))
    have hnone := hquiet now
    unfold RoomKeyDevice.requestOwnRoomKey at hnone
    rw [hme, hround] at hnone
    dsimp only at hnone
    rw [hdue, if_neg Bool.false_ne_true] at hnone
    by_contra hne
    rw [if_neg (by simpa using hne)] at hnone
    exact hne (List.map_eq_nil_iff.mp hnone)
  unfold RoomKeyDevice.ownRoomKeyReady
  rw [hme]
  dsimp only
  rw [hround, Option.any_some, hcalm, Bool.not_false, Bool.true_and, List.all_eq_true]
  intro device hdevice
  have hout := List.filter_eq_nil_iff.mp htargets device hdevice
  by_cases heq : device = me
  · simp [heq]
  · simpa [heq] using hout

end

end OwnRoundsAux

section

open OwnRoundsAux

variable {ι : Type} [DecidableEq ι] (h : RoomHashing)

/-- **One key for one's own devices.** After every run: devices that list the same devices for an identity elect at most one of
themselves; a reply under a challenge the device has replaced changes nothing and is not answered; and, if no reply that was accepted
disagreed, every device is ready as soon as nothing is under way, nobody would ask, and all hold one key. -/
theorem own_devices_settle {start s : KeyNet ι} {ids : ι → DeviceId} {acts : List (KeyAct ι)} (hstart : start.Begins ids)
    (hrun : run (KeyNet.step h) start acts = some s) :
    (∀ room identity devices, (∀ i, (s.devices i).roomDevices room identity = devices) →
      ∀ i j, (s.devices i).electedRoomDevice room identity (some (ids i)) = true →
        (s.devices j).electedRoomDevice room identity (some (ids j)) = true → i = j) ∧
    (∀ before between after s₁ s₂, acts = before ++ (between ++ after) → run (KeyNet.step h) start before = some s₁ →
      run (KeyNet.step h) s₁ between = some s₂ → ∀ i room challenge, HasChallenge (s₁.devices i) room challenge →
        ¬HasChallenge (s₂.devices i) room challenge → ∀ message now, IsReply message room challenge →
          (s.devices i).handleOwnRoomKeySync h now message = (s.devices i, [])) ∧
    (Meets (KeyNet.step h) (Agreeable h) start acts → ∀ room, Quiet h s room → ∀ i, (s.devices i).ownRoomKeyReady room = true) := by
  have hdrawn : Drawn ids s := drawn_run (drawn_begins hstart) hrun
  refine ⟨fun room identity devices hsame i j hi hj => ?_, ?_, fun hmeets room hquiet i => ?_⟩
  · rw [elected_eq (hdrawn.named i), hsame i] at hi
    rw [elected_eq (hdrawn.named j), hsame j, hi] at hj
    exact hstart.distinct (Option.some.inj (Option.some.inj hj))
  · intro before between after s₁ s₂ hacts h₁ h₂ i room challenge hhad hreplaced message now hreply
    subst hacts
    rw [run_append, h₁, Option.bind_some, run_append, h₂, Option.bind_some] at hrun
    have hin₁ : challenge ∈ s₁.drawn := (drawn_run (drawn_begins hstart) h₁).challenge i room challenge hhad
    have hin₂ : challenge ∈ s₂.drawn :=
      run_invariant (fun _ s => challenge ∈ s.drawn) hin₁ (fun _ _ _ _ hmem hstep => by
        obtain ⟨drawn, heq, -, -⟩ := step_redraws hstep
        exact heq ▸ List.mem_append_right drawn hmem) h₂
    exact handle_stale hreply (replaced_run hin₂ hreplaced hrun) now
  · obtain ⟨members, hrounds⟩ := hquiet.sameRoster
    obtain ⟨round, hround, -⟩ := hrounds i
    have hcalm : round.conflict = false := by
      by_contra hconflict
      exact calm_run hstart hmeets hrun i room ⟨round, hround, by simpa using hconflict⟩
    exact ready_of_noRequest (hdrawn.named i) hround hcalm (hquiet.noRequest i)

end

/-! ## Two devices -/

namespace OwnRoundsAux

/-- A hash that gives one value, and no derived key. -/
def plainHashing : RoomHashing where
  sha256 _ := List.replicate 32 0
  deterministicRoomKey _ := []

/-- The ids of two devices. -/
def twoIds (i : Bool) : DeviceId := ⟨List.replicate 32 (if i then 1 else 2), List.length_replicate⟩

theorem twoIds_injective : Function.Injective twoIds := by
  intro i j heq
  have hhead : (twoIds i).bytes.head? = (twoIds j).bytes.head? := by rw [heq]
  cases i <;> cases j <;> first | rfl | exact absurd hhead (by decide)

/-- Two devices of one identity. -/
def twoDevices : KeyNet Bool where
  devices i := { publicId := "me", deviceId := some (twoIds i), roomDeviceRosters := ∅, ownRoomKeyRounds := ∅, groupKeys := .new }
  inFlight := []
  drawn := []

theorem twoDevices_begins : twoDevices.Begins twoIds where
  named _ := rfl
  distinct := twoIds_injective
  noRounds _ := rfl
  silent := rfl

/-- The roster that lists both. -/
def twoRoster : Json :=
  .arr ([true, false].map fun i => .obj [("identity", .str "me"), ("device", .arr ((twoIds i).bytes.map fun b => .int b.toNat))])

/-- Both join the room, ask each other and are answered. -/
def exchange : List (KeyAct Bool) :=
  [.record true "s" "r" (some twoRoster) (List.replicate 32 1), .record false "s" "r" (some twoRoster) (List.replicate 32 2),
    .request true 0 "r", .request false 0 "r",
    .deliver false 0 false 0, .deliver true 0 false 0, .deliver true 0 false 0, .deliver false 0 false 0]

/-- Both have minted a key before they ask, and get a third one later. -/
def crossing : List (KeyAct Bool) :=
  [.rotate true 0 "r" (List.replicate 32 3), .rotate false 0 "r" (List.replicate 32 4)] ++ exchange ++
    [.install true 1 "r" 1 (List.replicate 32 5), .install false 1 "r" 1 (List.replicate 32 5)]

/-- Both have one key before they ask. -/
def agreeing : List (KeyAct Bool) :=
  [.install true 0 "r" 1 (List.replicate 32 5), .install false 0 "r" 1 (List.replicate 32 5)] ++ exchange

/-- Nothing is under way, and both hold the key of epoch 1 and have a round over both. -/
def settled (s : KeyNet Bool) : Bool :=
  s.inFlight.isEmpty && [true, false].all fun i =>
    (s.devices i).groupKeys.hasRealKey "r" && (s.devices i).groupKeys.currentEpoch "r" == 1 &&
      (s.devices i).groupKeys.epochKey plainHashing.deterministicRoomKey "r" 1 == some (List.replicate 32 5) &&
      ((s.devices i).ownRoomKeyRounds.lookup "r").any fun round => round.members == [twoIds true, twoIds false]

def conflicting (s : KeyNet Bool) : Bool :=
  [true, false].all fun i => ((s.devices i).ownRoomKeyRounds.lookup "r").any (·.conflict)

def ready (s : KeyNet Bool) : Bool := [true, false].all fun i => (s.devices i).ownRoomKeyReady "r"

/-- A reply that arrives does not disagree, as far as it can be read. -/
def agrees (s : KeyNet Bool) : KeyAct Bool → Bool
  | .deliver i n _ _ =>
    (s.inFlight[n]?).all fun message => ((message.payload.get "room_id").bind Json.asStr).all fun room =>
      (RoomKeyDevice.readReply message.payload).all fun reply => !(s.devices i).disagrees plainHashing room reply
  | _ => true

theorem agreeable_of_agrees {s : KeyNet Bool} {act : KeyAct Bool} (hagrees : agrees s act = true) : Agreeable plainHashing s act := by
  cases act with
  | deliver i n again now =>
    rintro message hmessage ⟨room, round, sender, reply, hsync, -, hreply, hdisagrees⟩
    simp only [agrees, hmessage, (syncRound_eq_some hsync).1, hreply, Option.all_some, hdisagrees, Bool.not_true,
      Bool.false_eq_true] at hagrees
  | _ => trivial

def allAgree : KeyNet Bool → List (KeyAct Bool) → Bool
  | _, [] => true
  | s, act :: acts => agrees s act && (s.step plainHashing act).all fun s' => allAgree s' acts

theorem meets_of_allAgree {s : KeyNet Bool} {acts : List (KeyAct Bool)} (hall : allAgree s acts = true) :
    Meets (KeyNet.step plainHashing) (Agreeable plainHashing) s acts := by
  induction acts generalizing s with
  | nil => trivial
  | cons act acts ih =>
    obtain ⟨hagrees, hrest⟩ := (Bool.and_eq_true _ _).mp hall
    refine ⟨agreeable_of_agrees hagrees, fun s' hs' => ih ?_⟩
    rwa [hs', Option.all_some] at hrest

theorem noRequest_of_conflicting {s : KeyNet Bool} (hs : conflicting s = true) (i : Bool) (now : Nat) :
    ((s.devices i).requestOwnRoomKey now "r").2 = [] := by
  have hi : ((s.devices i).ownRoomKeyRounds.lookup "r").any (·.conflict) = true :=
    List.all_eq_true.mp hs i (by cases i <;> simp)
  obtain ⟨round, hround, hconflict⟩ := (Option.any_eq_true _ _).mp hi
  unfold RoomKeyDevice.requestOwnRoomKey
  rw [hround]
  cases (s.devices i).deviceId with
  | none => rfl
  | some me =>
    dsimp only
    rw [hconflict, Bool.true_or, if_pos rfl]

/-- A device that is ready asks nobody. -/
theorem noRequest_of_ready {d : RoomKeyDevice} {room : String} (hready : d.ownRoomKeyReady room = true) (now : Nat) :
    (d.requestOwnRoomKey now room).2 = [] := by
  unfold RoomKeyDevice.requestOwnRoomKey
  split
  · rename_i me round hme hround
    split
    · rfl
    · have htargets : RoomKeyDevice.requestTargets me round = [] := by
        rw [RoomKeyDevice.requestTargets, List.filter_eq_nil_iff]
        intro device hdevice
        simp only [RoomKeyDevice.ownRoomKeyReady, hme, hround, Option.any_some, Bool.and_eq_true, List.all_eq_true] at hready
        have hheard := hready.2 device hdevice
        by_cases heq : device = me
        · simp [heq]
        · simpa [heq] using hheard
      dsimp only
      rw [htargets, List.isEmpty_nil, if_pos rfl]
  · rfl

theorem quiet_of_settled {s : KeyNet Bool} (hs : settled s = true)
    (hquiet : ∀ i now, ((s.devices i).requestOwnRoomKey now "r").2 = []) : Quiet plainHashing s "r" := by
  obtain ⟨hempty, hall⟩ := (Bool.and_eq_true _ _).mp hs
  have hdevice : ∀ i, ((s.devices i).groupKeys.hasRealKey "r" = true ∧ (s.devices i).groupKeys.currentEpoch "r" = 1 ∧
      (s.devices i).groupKeys.epochKey plainHashing.deterministicRoomKey "r" 1 = some (List.replicate 32 5)) ∧
      ((s.devices i).ownRoomKeyRounds.lookup "r").any (fun round => round.members == [twoIds true, twoIds false]) = true := by
    intro i
    have hi := List.all_eq_true.mp hall i (by cases i <;> simp)
    simp only [Bool.and_eq_true, beq_iff_eq] at hi
    exact ⟨⟨hi.1.1.1, hi.1.1.2, hi.1.2⟩, hi.2⟩
  refine ⟨fun message hmessage => ?_, hquiet, ⟨1, List.replicate 32 5, fun i => (hdevice i).1⟩,
    ⟨[twoIds true, twoIds false], fun i => ?_⟩⟩
  · rw [List.isEmpty_iff.mp hempty] at hmessage
    exact absurd hmessage List.not_mem_nil
  · obtain ⟨round, hround, hmembers⟩ := (Option.any_eq_true _ _).mp (hdevice i).2
    exact ⟨round, hround, eq_of_beq hmembers⟩

theorem run_of_any (acts : List (KeyAct Bool)) (P : KeyNet Bool → Bool)
    (hany : (run (KeyNet.step plainHashing) twoDevices acts).any P = true) :
    ∃ s, run (KeyNet.step plainHashing) twoDevices acts = some s ∧ P s = true := (Option.any_eq_true _ _).mp hany

end OwnRoundsAux

open OwnRoundsAux in
/-- Two devices that hold one key and ask each other are ready. -/
theorem own_devices_settle_two :
    ∃ s, run (KeyNet.step plainHashing) twoDevices agreeing = some s ∧ Quiet plainHashing s "r" ∧
      ∀ i, (s.devices i).ownRoomKeyReady "r" = true := by
  obtain ⟨s, hrun, hs⟩ := run_of_any agreeing (fun s => settled s && ready s) (by decide +kernel)
  obtain ⟨hsettled, hready⟩ := (Bool.and_eq_true _ _).mp hs
  have hquiet : Quiet plainHashing s "r" :=
    quiet_of_settled hsettled fun i now => noRequest_of_ready (List.all_eq_true.mp hready i (by cases i <;> simp)) now
  exact ⟨s, hrun, hquiet,
    (own_devices_settle plainHashing twoDevices_begins hrun).2.2 (meets_of_allAgree (by decide +kernel)) "r" hquiet⟩

open OwnRoundsAux in
/-- **A disagreement that is over still silences the devices.** Both had minted a key before they asked each other; both then got one
key of a later epoch. Nothing is under way, nobody would ask, and no device is ready. -/
theorem resolved_devices_silent :
    twoDevices.Begins twoIds ∧ ∃ s, run (KeyNet.step plainHashing) twoDevices crossing = some s ∧ Quiet plainHashing s "r" ∧
      ∃ i, (s.devices i).ownRoomKeyReady "r" = false := by
  obtain ⟨s, hrun, hs⟩ := run_of_any crossing
    (fun s => (settled s && conflicting s) && !(s.devices true).ownRoomKeyReady "r") (by decide +kernel)
  simp only [Bool.and_eq_true, Bool.not_eq_true'] at hs
  exact ⟨twoDevices_begins, s, hrun, quiet_of_settled hs.1.1 (noRequest_of_conflicting hs.1.2), true, hs.2⟩

end DoubleSlash.Keys
