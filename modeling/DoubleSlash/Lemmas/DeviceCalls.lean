import DoubleSlash.Calls.Network

/-!
# What the call table does, case by case

One inversion for each operation of the call table: every way a received message, a message of the user and a tick can end, with the
guards that led there.
-/

namespace DoubleSlash.Calls

open Protocol Manager Tls Assoc Codec CallManager

/-! ## Devices in JSON -/

theorem byteOfJson_toNat (b : UInt8) : byteOfJson (.int b.toNat) = some b := by
  have hlt : b.toNat < 256 := b.toNat_lt
  have hbyte : (0 : Int) ≤ b.toNat ∧ (b.toNat : Int) < 256 := ⟨by omega, by omega⟩
  simp [byteOfJson, hbyte]

theorem deviceOfJson_toJson (d : DeviceId) : deviceOfJson (deviceToJson d) = some d := by
  have hbytes : ∀ bytes : List UInt8, (bytes.map fun b => Json.int b.toNat).mapM byteOfJson = some bytes := by
    intro bytes
    induction bytes with
    | nil => rfl
    | cons b bytes ih => simp [List.mapM_cons, byteOfJson_toNat, ih]
  unfold deviceOfJson deviceToJson
  simp only [hbytes, Option.bind_some, DeviceId.ofBytes?, d.length_eq, dite_true]

/-! ## Messages -/

variable {S : Type} {c c' : CallManager S} {msg : SignalingMessage} {now : Nat}

/-- The call id a message carries, well formed or not. -/
def rawCallId (msg : SignalingMessage) : Option String :=
  (msg.payload.get "call_id").bind Json.asStr

theorem rawCallId_of_callIdOf {id : String} (h : callIdOf msg = some id) : rawCallId msg = some id :=
  (Option.filter_eq_some_iff.mp h).1

/-- The message tells the devices of a peer that the device took the call with this id. -/
structure Selects (msg : SignalingMessage) (id : String) (caller callee : DeviceId) : Prop where
  kind : msg.msgType = .callAccept
  flag : msg.payload.flag "device_selection" = true
  id : rawCallId msg = some id
  source : msg.sourceDevice = some caller
  selected : selectedDeviceOf msg = some callee

/-- The message ends or declines the call. -/
structure Ends (msg : SignalingMessage) (id : String) (source : DeviceId) : Prop where
  kind : msg.msgType = .callReject ∨ msg.msgType = .callEnd
  id : callIdOf msg = some id
  source : msg.sourceDevice = some source

theorem selects_selectionMessage {peer : String} {call : DeviceCall} {id : String} {e d : DeviceId} :
    Selects (c.selectionMessage peer call now) id e d ↔ call.id = id ∧ c.deviceId = some e ∧ call.remote = some d := by
  have hid : rawCallId (c.selectionMessage peer call now) = some call.id := by
    simp [rawCallId, selectionMessage, Json.asStr]
  have hselected : selectedDeviceOf (c.selectionMessage peer call now) = call.remote := by
    cases hremote : call.remote with
    | none => simp [selectedDeviceOf, selectionMessage, remoteToJson, hremote, deviceOfJson]
    | some r => simp [selectedDeviceOf, selectionMessage, remoteToJson, hremote, deviceOfJson_toJson]
  constructor
  · intro h
    refine ⟨?_, h.source, ?_⟩
    · rw [← Option.some.injEq, ← hid]
      exact h.id
    · rw [← hselected]
      exact h.selected
  · rintro ⟨rfl, he, hd⟩
    exact ⟨rfl, by simp [selectionMessage, Payload.flag], hid, he, hselected.trans hd⟩

theorem not_selects_ackMessage {peer id : String} {source e d : DeviceId} {id' : String} :
    ¬Selects (c.ackMessage peer id source now) id' e d := by
  intro h
  have hflag := h.flag
  simp [ackMessage, Payload.flag, Payload.get, Payload.insert, List.lookup_cons] at hflag

/-! ## Receiving -/

/-- The key of a message's sender in the call table. -/
def senderKey (c : CallManager S) (msg : SignalingMessage) : String := canonicalPeerIdForSender c.manager msg.sender

/-- The table with one peer's call replaced. -/
def putCall (c : CallManager S) (peer : String) (call : DeviceCall) : CallManager S :=
  { c with deviceCalls := c.deviceCalls.insert peer call }

/-- The table without one peer's call. -/
def eraseCall (c : CallManager S) (peer : String) : CallManager S :=
  { c with deviceCalls := c.deviceCalls.erase peer }

/-- Every way `receive_device_call` can end on a device-enabled endpoint. -/
inductive Receives (c : CallManager S) (msg : SignalingMessage) (now : Nat) : Received S → Prop
  | ignored (consumed : Bool) : Receives c msg now { state := c, consumed := consumed }
  | rings {id : String} {source : DeviceId} (hkind : msg.msgType = .callRequest) (hsource : msg.sourceDevice = some source)
      (hid : callIdOf msg = some id) (hfree : c.deviceCalls.lookup (senderKey c msg) = none) :
      Receives c msg now { state := putCall c (senderKey c msg) (incomingCall id source now), consumed := true }
  | confirms {call : DeviceCall} {source : DeviceId} (hkind : msg.msgType = .callAccept)
      (hsource : msg.sourceDevice = some source) (hid : callIdOf msg = some call.id)
      (hcall : c.deviceCalls.lookup (senderKey c msg) = some call) (hack : msg.payload.flag "device_selection_ack" = true)
      (hinitiator : call.initiator = true) (hphase : call.phase = .active) (hremote : call.remote = some source) :
      Receives c msg now { state := putCall c (senderKey c msg) { call with confirmed := true } }
  | selected {call : DeviceCall} {source d : DeviceId} (hsel : Selects msg call.id source d) (hid : callIdOf msg = some call.id)
      (hcall : c.deviceCalls.lookup (senderKey c msg) = some call) (hremote : call.remote = some source)
      (hself : c.deviceId = some d) (hphase : call.phase = .answering ∨ call.phase = .active) :
      Receives c msg now {
        state := putCall c (senderKey c msg) { call with phase := .active, confirmed := true }
        outbound := [c.ackMessage (senderKey c msg) call.id source now] }
  | elsewhere {call : DeviceCall} {source d : DeviceId} (hsel : Selects msg call.id source d) (hid : callIdOf msg = some call.id)
      (hcall : c.deviceCalls.lookup (senderKey c msg) = some call) (hremote : call.remote = some source)
      (hother : c.deviceId ≠ some d) (hphase : call.phase ≠ .outgoing) :
      Receives c msg now {
        state := eraseCall c (senderKey c msg)
        events := [.callAnsweredElsewhere (senderKey c msg)] }
  | first {call : DeviceCall} {source : DeviceId} (hkind : msg.msgType = .callAccept)
      (hsource : msg.sourceDevice = some source) (hid : callIdOf msg = some call.id)
      (hcall : c.deviceCalls.lookup (senderKey c msg) = some call) (hinitiator : call.initiator = true)
      (hphase : call.phase = .outgoing) {call' : DeviceCall}
      (hcall' : call' = { call with remote := some source, phase := .active, deadline := now + secs 15, lastSelection := some now }) :
      Receives c msg now {
        state := putCall c (senderKey c msg) call'
        outbound := [c.selectionMessage (senderKey c msg) call' now]
        consumed := true }
  | again {call : DeviceCall} {source : DeviceId} (hkind : msg.msgType = .callAccept)
      (hsource : msg.sourceDevice = some source) (hid : callIdOf msg = some call.id)
      (hcall : c.deviceCalls.lookup (senderKey c msg) = some call) (hinitiator : call.initiator = true)
      (hphase : call.phase = .active) {call' : DeviceCall} (hcall' : call' = { call with lastSelection := some now }) :
      Receives c msg now {
        state := putCall c (senderKey c msg) call'
        outbound := [c.selectionMessage (senderKey c msg) call' now] }
  | ended {call : DeviceCall} {source : DeviceId} (hends : Ends msg call.id source)
      (hcall : c.deviceCalls.lookup (senderKey c msg) = some call) (hphase : call.phase ≠ .outgoing)
      (hremote : call.remote = some source) :
      Receives c msg now { state := eraseCall c (senderKey c msg), consumed := true }

theorem receives_request {id : String} {source : DeviceId} (hkind : msg.msgType = .callRequest)
    (hsource : msg.sourceDevice = some source) (hid : callIdOf msg = some id) :
    Receives c msg now (c.receiveRequest msg (senderKey c msg) id source now) := by
  unfold receiveRequest
  cases hcall : c.deviceCalls.lookup (senderKey c msg) with
  | some call => exact .ignored _
  | none => exact .rings hkind hsource hid hcall

theorem receives_selection {call : DeviceCall} {source : DeviceId} (hkind : msg.msgType = .callAccept)
    (hflag : msg.payload.flag "device_selection" = true) (hsource : msg.sourceDevice = some source)
    (hid : callIdOf msg = some call.id) (hcall : c.deviceCalls.lookup (senderKey c msg) = some call) :
    Receives c msg now (c.receiveSelection msg (senderKey c msg) call source now) := by
  unfold receiveSelection
  split
  · exact .ignored false
  · rename_i hguard
    rw [not_or, not_not] at hguard
    cases hd : selectedDeviceOf msg with
    | none => exact .ignored false
    | some d =>
      have hsel : Selects msg call.id source d := ⟨hkind, hflag, rawCallId_of_callIdOf hid, hsource, hd⟩
      dsimp only
      split
      · rename_i hself
        split
        · exact .ignored false
        · rename_i hphase
          refine .selected hsel hid hcall hguard.1 hself.symm ?_
          by_contra hnot
          rw [not_or] at hnot
          exact hphase hnot
      · rename_i hother
        exact .elsewhere hsel hid hcall hguard.1 (fun heq => hother heq.symm) hguard.2

theorem receives_answer {call : DeviceCall} {source : DeviceId} (hkind : msg.msgType = .callAccept)
    (hsource : msg.sourceDevice = some source) (hid : callIdOf msg = some call.id)
    (hcall : c.deviceCalls.lookup (senderKey c msg) = some call) :
    Receives c msg now (c.receiveAnswer (senderKey c msg) call source now) := by
  unfold receiveAnswer
  dsimp only
  split
  · exact .ignored false
  · rename_i hguard
    simp only [Bool.or_eq_true, Bool.not_eq_true', Bool.and_eq_true, decide_eq_true_eq, not_or, Bool.not_eq_false,
      decide_eq_false_iff_not, not_and, not_not] at hguard
    by_cases hphase : call.phase = .outgoing
    · simp only [hphase, decide_true, if_true]
      exact .first hkind hsource hid hcall hguard.1 hphase (by simp)
    · simp only [hphase, decide_false, Bool.false_eq_true, if_false]
      exact .again hkind hsource hid hcall hguard.1 (hguard.2 hphase) rfl

/-- **The cases of a received message.** -/
theorem receives (quota : Bool) : Receives c msg now (c.receiveDeviceCall msg quota now) := by
  unfold receiveDeviceCall
  split
  · exact .ignored true
  · rename_i hguard
    have hkind : isCall msg.msgType = true := by
      rw [Bool.or_eq_true, not_or] at hguard
      simpa using hguard.2
    clear hguard
    split
    · exact .ignored false
    · split
      · rename_i source id hsource hid
        dsimp only
        split
        · rename_i hrequest
          exact receives_request hrequest hsource hid
        · rename_i hrequest
          split
          · exact .ignored false
          · rename_i call hfound
            obtain ⟨hcall, hsame⟩ := Option.filter_eq_some_iff.mp hfound
            have hidcall : callIdOf msg = some call.id := by
              rw [hid, beq_iff_eq.mp hsame]
            split
            · rename_i haccept
              split
              · rename_i hack
                split
                · rename_i hguard
                  simp only [Bool.and_eq_true, decide_eq_true_eq] at hguard
                  exact .confirms haccept hsource hidcall hcall hack hguard.1.1 hguard.1.2 hguard.2
                · exact .ignored false
              · split
                · rename_i hflag
                  exact receives_selection haccept hflag hsource hidcall hcall
                · exact receives_answer haccept hsource hidcall hcall
            · rename_i haccept
              split
              · exact .ignored false
              · rename_i hguard
                rw [not_or, not_not] at hguard
                have hends : msg.msgType = .callReject ∨ msg.msgType = .callEnd := by
                  revert hkind hrequest haccept
                  generalize msg.msgType = ty
                  cases ty <;> simp [isCall]
                exact .ended ⟨hends, hidcall, hsource⟩ hcall hguard.1 hguard.2
      · exact .ignored false

/-! ## Sending -/

/-- A user's message as `dispatch_outbound` hands it to the call table. -/
def stamped (c : CallManager S) (kind : MessageType) (target : String) (fallback : Option FallbackRoom) (now : Nat) :
    SignalingMessage :=
  { c.userMessage kind target fallback now with sourceDevice := c.deviceId }

/-- A user's message carries no mark of the selection protocol. -/
theorem stamped_flag {kind : MessageType} {target : String} {fallback : Option FallbackRoom} {key : String}
    (hkey : key ∉ ["fallback_supernode_id", "fallback_room_id", "fallback_invite_token"]) :
    (stamped c kind target fallback now).payload.flag key = false := by
  simp only [List.mem_cons, List.not_mem_nil, or_false, not_or] at hkey
  unfold stamped userMessage Payload.flag
  cases fallback with
  | none => rfl
  | some room =>
    simp only [Option.elim_some, FallbackRoom.payload, Payload.get_insert_ne _ _ hkey.1, Payload.get_insert_ne _ _ hkey.2.1,
      Payload.get_insert_ne _ _ hkey.2.2]
    rfl

theorem addressed_flag {call : DeviceCall} {key : String} (hkey : key ≠ "call_id") :
    (addressed msg call).payload.flag key = msg.payload.flag key := by
  unfold Payload.flag addressed
  rw [Payload.get_insert_ne _ _ hkey]

theorem rawCallId_addressed {call : DeviceCall} : rawCallId (addressed msg call) = some call.id := by
  simp [rawCallId, addressed, Json.asStr]

/-- What a user's message comes to is not a selection. -/
theorem not_selects_addressed {kind : MessageType} {target : String} {fallback : Option FallbackRoom} {call : DeviceCall}
    {id : String} {e d : DeviceId} : ¬Selects (addressed (stamped c kind target fallback now) call) id e d := by
  intro h
  have hflag := h.flag
  rw [addressed_flag (by decide), stamped_flag (by decide)] at hflag
  cases hflag

/-- Every way a user's message can go. -/
inductive Sends (c : CallManager S) (kind : MessageType) (target : String) (fallback : Option FallbackRoom) (nonce : List UInt8)
    (now : Nat) : CallManager S × Option SignalingMessage → Prop
  | refused (hkind : kind ≠ .callRequest) : Sends c kind target fallback nonce now (c, none)
  | placed (hkind : kind = .callRequest)
      (hfree : c.deviceCalls.lookup (canonicalPeerIdForSender c.manager target) = none) :
      Sends c kind target fallback nonce now
        (putCall c (canonicalPeerIdForSender c.manager target) (outgoingCall nonce now),
          some (addressed (stamped c kind target fallback now) (outgoingCall nonce now)))
  | repeated {call : DeviceCall} (hkind : kind = .callRequest)
      (hcall : c.deviceCalls.lookup (canonicalPeerIdForSender c.manager target) = some call) :
      Sends c kind target fallback nonce now
        (putCall c (canonicalPeerIdForSender c.manager target) call,
          some (addressed (stamped c kind target fallback now) call))
  | accepts {call : DeviceCall} (hkind : kind = .callAccept)
      (hcall : c.deviceCalls.lookup (canonicalPeerIdForSender c.manager target) = some call)
      (hphase : call.phase = .incoming ∨ call.phase = .answering) :
      Sends c kind target fallback nonce now
        (putCall c (canonicalPeerIdForSender c.manager target) { call with phase := .answering, deadline := now + secs 15 },
          some (addressed (stamped c kind target fallback now) call))
  | hangsUp {call : DeviceCall} (hkind : kind = .callReject ∨ kind = .callEnd)
      (hcall : c.deviceCalls.lookup (canonicalPeerIdForSender c.manager target) = some call) :
      Sends c kind target fallback nonce now
        (c.dropCall (canonicalPeerIdForSender c.manager target),
          some (addressed (stamped c kind target fallback now) call))

/-- **The cases of a user's message.** -/
theorem sends (henabled : c.deviceId.isSome = true) {kind : MessageType} (hkind : isCall kind = true) (target : String)
    (fallback : Option FallbackRoom) (nonce : List UInt8) :
    Sends c kind target fallback nonce now (c.dispatchOutbound (c.userMessage kind target fallback now) nonce now) := by
  have hstamped : c.dispatchOutbound (c.userMessage kind target fallback now) nonce now =
      c.prepareDeviceCall (stamped c kind target fallback now) nonce now := rfl
  have htype : (stamped c kind target fallback now).msgType = kind := rfl
  have htarget : (stamped c kind target fallback now).target = some target := rfl
  rw [hstamped]
  unfold prepareDeviceCall
  rw [stamped_flag (by decide), stamped_flag (by decide), htype, htarget, hkind]
  rw [Option.isSome_iff_ne_none] at henabled
  simp only [Option.isNone_iff_eq_none, henabled, Bool.not_true, Bool.or_false, Bool.false_eq_true, if_false]
  split
  · rename_i hrequest
    cases hcall : c.deviceCalls.lookup (canonicalPeerIdForSender c.manager target) with
    | none => exact .placed hrequest hcall
    | some call => exact .repeated hrequest hcall
  · rename_i hrequest
    split
    · exact .refused hrequest
    · rename_i call hcall
      split
      · rename_i haccept
        split
        · exact .refused hrequest
        · rename_i hphase
          refine .accepts haccept hcall ?_
          by_contra hnot
          rw [not_or] at hnot
          exact hphase hnot
      · rename_i haccept
        have hends : kind = .callReject ∨ kind = .callEnd := by
          revert hkind hrequest haccept
          cases kind <;> simp [isCall]
        exact .hangsUp hends hcall

/-! ## Ticks -/

theorem lookup_dropCalls (peers : List String) (k : String) :
    (peers.foldl dropCall c).deviceCalls.lookup k = if k ∈ peers then none else c.deviceCalls.lookup k := by
  induction peers generalizing c with
  | nil => simp
  | cons p peers ih =>
    have hdrop : (c.dropCall p).deviceCalls.lookup k = if k = p then none else c.deviceCalls.lookup k := by
      unfold dropCall
      by_cases hk : k = p
      · subst hk
        rw [AList.lookup_erase, if_pos rfl]
      · rw [AList.lookup_erase_ne hk, if_neg hk]
    rw [List.foldl_cons, ih, hdrop]
    by_cases hmem : k ∈ peers
    · rw [if_pos hmem, if_pos (List.mem_cons_of_mem _ hmem)]
    · by_cases hk : k = p
      · rw [if_neg hmem, if_pos hk, if_pos (hk ▸ List.mem_cons_self)]
      · rw [if_neg hmem, if_neg hk, if_neg (by simp [hk, hmem])]

theorem manager_dropCalls (peers : List String) : (peers.foldl dropCall c).manager = c.manager := by
  induction peers generalizing c with
  | nil => rfl
  | cons p peers ih => exact ih

/-- What expiry leaves: the calls that are confirmed or in time. -/
theorem lookup_expire (k : String) :
    (c.expireDeviceCalls now).1.deviceCalls.lookup k = (c.deviceCalls.lookup k).filter fun call => !expired now call := by
  have hmem : k ∈ (c.deviceCalls.entries.filter fun e => expired now e.2).map Sigma.fst ↔
      ∃ call, c.deviceCalls.lookup k = some call ∧ expired now call = true := by
    simp only [List.mem_map, List.mem_filter]
    constructor
    · rintro ⟨⟨k', call⟩, ⟨hentry, hexpired⟩, rfl⟩
      exact ⟨call, AList.mem_lookup_iff.mpr hentry, hexpired⟩
    · rintro ⟨call, hcall, hexpired⟩
      exact ⟨⟨k, call⟩, ⟨AList.mem_lookup_iff.mp hcall, hexpired⟩, rfl⟩
  unfold expireDeviceCalls
  rw [lookup_dropCalls]
  cases hcall : c.deviceCalls.lookup k with
  | none => simp
  | some call =>
    rw [hcall] at hmem
    by_cases hexpired : expired now call = true
    · rw [if_pos (hmem.mpr ⟨call, rfl, hexpired⟩)]
      exact (Option.filter_some_neg (by simp [hexpired])).symm
    · have hnot : ¬∃ call', some call = some call' ∧ expired now call' = true := by
        rintro ⟨call', hsame, hexpired'⟩
        cases hsame
        exact hexpired hexpired'
      rw [if_neg (hmem.not.mpr hnot)]
      exact (Option.filter_some_pos (by simp [hexpired])).symm

/-- A call that a tick repeats the selection of. -/
def ticked (now : Nat) (call : DeviceCall) : DeviceCall :=
  if retries now call then { call with lastSelection := some now } else call

theorem manager_tick : (c.tick now).1.manager = c.manager := manager_dropCalls _

/-- **What a tick leaves.** -/
theorem lookup_tick (k : String) :
    (c.tick now).1.deviceCalls.lookup k = ((c.deviceCalls.lookup k).filter fun call => !expired now call).map (ticked now) := by
  rw [← lookup_expire]
  exact lookup_mapValues _ _ k

/-- A tick sends the selections of calls it keeps. -/
theorem mem_tick_out {m : SignalingMessage} (h : m ∈ (c.tick now).2) : ∃ k call, c.deviceCalls.lookup k = some call ∧
    expired now call = false ∧ retries now call = true ∧ m = (c.expireDeviceCalls now).1.selectionMessage k call now := by
  obtain ⟨⟨k, call⟩, hentry, rfl⟩ := List.mem_map.mp h
  obtain ⟨hmem, hretries⟩ := List.mem_filter.mp hentry
  have hcall := AList.mem_lookup_iff.mpr hmem
  rw [Option.mem_def, lookup_expire] at hcall
  obtain ⟨hold, hexpired⟩ := Option.filter_eq_some_iff.mp hcall
  exact ⟨k, call, hold, by simpa using hexpired, hretries, rfl⟩

/-! ## Devices to try -/

/-- A device id of one repeated byte. -/
def sampleDevice (b : UInt8) : DeviceId := ⟨List.replicate 32 b, length_equalBytes b⟩

/-- A device of an identity, with nothing stored. -/
def sampleEndpoint (identity : String) (d : DeviceId) : CallManager Unit where
  manager := {
    publicId := identity
    direct := ⟨identity, some d, ∅, ∅⟩
    store := ∅
    pendingInvites := ∅
    issuedInvites := ∅
    replay := ∅ }

end DoubleSlash.Calls
