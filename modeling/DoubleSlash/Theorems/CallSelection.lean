import DoubleSlash.Lemmas.DeviceCalls
import DoubleSlash.Lib.Run

/-!
# One answering device per call

A call id is drawn once, and only the device that drew it tells the others which device it took. What was said once is what is said
every time: the table of the calling device holds the first device that answered, and a callee's device is in the call only after it
was told that it is the one.
-/

namespace DoubleSlash.Calls

open Protocol Manager Tls Assoc Codec CallManager Run

variable {S : Type}

/-- The device answers the call and is in it. -/
def ActiveCallee (n : CallNet S) (d : DeviceId) (id : String) : Prop :=
  ∃ k call, (n.endpoints d).deviceCalls.lookup k = some call ∧ call.id = id ∧ call.initiator = false ∧ call.phase = .active

/-- The device placed the call and has recorded the device that answers it. -/
def Recorded (n : CallNet S) (e : DeviceId) (id : String) (r : DeviceId) : Prop :=
  ∃ k call, (n.endpoints e).deviceCalls.lookup k = some call ∧ call.id = id ∧ call.initiator = true ∧ call.remote = some r

/-- It holds in some state of the run. -/
def Ever (n₀ : CallNet S) (acts : List CallAct) (P : CallNet S → Prop) : Prop :=
  ∃ pre post n, acts = pre ++ post ∧ run callStep n₀ pre = some n ∧ P n

/-- One device of the callee answers a call. -/
structure OneAnswer (n₀ : CallNet S) (acts : List CallAct) (n : CallNet S) : Prop where
  /-- At most one callee device is ever in the call. -/
  single : ∀ id d d', Ever n₀ acts (ActiveCallee · d id) → Ever n₀ acts (ActiveCallee · d' id) → d = d'
  /-- It is the device that the calling device recorded. -/
  agreed : ∀ id d, Ever n₀ acts (ActiveCallee · d id) → ∃ e, Ever n₀ acts (Recorded · e id d)
  /-- The call has one calling device, and what it recorded never changes. -/
  steady : ∀ id e r e' r', Ever n₀ acts (Recorded · e id r) → Ever n₀ acts (Recorded · e' id r') → e = e' ∧ r = r'
  /-- Media is taken only between the two. -/
  media : ∀ d peer device, (n.endpoints d).deviceCallAcceptsMedia peer device = true →
    ∃ call e r, (n.endpoints d).deviceCalls.lookup peer = some call ∧ Ever n₀ acts (Recorded · e call.id r) ∧
      ((d = e ∧ device = some r) ∨ (d = r ∧ device = some e))
  /-- A decline or an end from any other device changes no call. -/
  declines : ∀ d msg quota now, msg.msgType = .callReject ∨ msg.msgType = .callEnd → ∀ k call,
    (n.endpoints d).deviceCalls.lookup k = some call → (call.remote = none ∨ msg.sourceDevice ≠ call.remote) →
      ((n.endpoints d).receiveDeviceCall msg quota now).state.deviceCalls.lookup k = some call

namespace CallSelectionAux

/-- The devices of the callee were told which device the calling device took. -/
def Chosen (n : CallNet S) (id : String) (e r : DeviceId) : Prop :=
  ∃ m ∈ n.sent, Selects m id e r

/-! ## What a step does to the calls of one device -/

variable {n n' : CallNet S} {d : DeviceId} {c' : CallManager S} {out : List SignalingMessage}

/-- How an entry of a device's table after a step comes from the table before it. `fresh` is the key and the id of a call that
the step starts. -/
inductive Entry (n : CallNet S) (d : DeviceId) (out : List SignalingMessage) (fresh : Option (String × String)) (k : String)
    (call' : DeviceCall) : Prop
  | kept (call : DeviceCall) (hcall : (n.endpoints d).deviceCalls.lookup k = some call) (hid : call'.id = call.id)
      (hinitiator : call'.initiator = call.initiator) (hremote : call'.remote = call.remote)
      (hphase : call'.phase = call.phase ∨
        ((call.phase = .incoming ∨ call.phase = .answering) ∧ call'.phase = .answering))
  | placed (hfresh : fresh = some (k, call'.id)) (hinitiator : call'.initiator = true) (hremote : call'.remote = none)
      (hphase : call'.phase = .outgoing)
  | rang (hinitiator : call'.initiator = false) (hremote : call'.remote.isSome = true) (hphase : call'.phase = .incoming)
  | selected (call : DeviceCall) (hcall : (n.endpoints d).deviceCalls.lookup k = some call) (hid : call'.id = call.id)
      (hinitiator : call'.initiator = call.initiator) (hremote : call'.remote = call.remote)
      (hold : call.phase = .answering ∨ call.phase = .active) (hphase : call'.phase = .active)
      (htold : ∃ e, call.remote = some e ∧ Chosen n call.id e d)
  | chose (call : DeviceCall) (r : DeviceId) (hcall : (n.endpoints d).deviceCalls.lookup k = some call)
      (hid : call'.id = call.id) (hold : call.initiator = true ∧ call.phase = .outgoing) (hinitiator : call'.initiator = true)
      (hremote : call'.remote = some r) (hphase : call'.phase = .active) (hsent : ∃ m ∈ out, Selects m call'.id d r)

/-- What a step of one device can do. -/
structure Moves (n : CallNet S) (d : DeviceId) (c' : CallManager S) (out : List SignalingMessage)
    (fresh : Option (String × String)) : Prop where
  named : c'.deviceId = (n.endpoints d).deviceId
  entries : ∀ k call', c'.deviceCalls.lookup k = some call' → Entry n d out fresh k call'
  told : ∀ m ∈ out, ∀ id e r, Selects m id e r → e = d ∧
    ∃ k call', c'.deviceCalls.lookup k = some call' ∧ call'.id = id ∧ call'.initiator = true ∧ call'.remote = some r

theorem entry_same {fresh : Option (String × String)} {k : String} {call : DeviceCall}
    (h : (n.endpoints d).deviceCalls.lookup k = some call) : Entry n d out fresh k call :=
  .kept call h rfl rfl rfl (Or.inl rfl)

/-- A table with one call replaced has that call and the others as they were. -/
theorem moves_put {fresh : Option (String × String)} {k : String} {call' : DeviceCall}
    (hentry : Entry n d out fresh k call')
    (htold : ∀ m ∈ out, ∀ id e r, Selects m id e r → e = d ∧ call'.id = id ∧ call'.initiator = true ∧ call'.remote = some r) :
    Moves n d (putCall (n.endpoints d) k call') out fresh where
  named := rfl
  entries := by
    intro k' call'' h
    by_cases hk : k' = k
    · subst hk
      rw [putCall, AList.lookup_insert] at h
      cases h
      exact hentry
    · rw [putCall, AList.lookup_insert_ne hk] at h
      exact entry_same h
  told := by
    intro m hm id e r hsel
    obtain ⟨he, hrest⟩ := htold m hm id e r hsel
    exact ⟨he, k, call', AList.lookup_insert _, hrest⟩

theorem moves_erase {c' : CallManager S} {k : String} (hnamed : c'.deviceId = (n.endpoints d).deviceId)
    (hcalls : c'.deviceCalls = (n.endpoints d).deviceCalls.erase k) (hsilent : ∀ m ∈ out, ∀ id e r, ¬Selects m id e r) :
    Moves n d c' out none where
  named := hnamed
  entries := by
    intro k' call'' h
    rw [hcalls] at h
    have hne : k' ≠ k := by
      intro hk
      rw [hk, AList.lookup_erase] at h
      cases h
    rw [AList.lookup_erase_ne hne] at h
    exact entry_same h
  told := fun m hm id e r hsel => absurd hsel (hsilent m hm id e r)

theorem moves_none {fresh : Option (String × String)} : Moves n d (n.endpoints d) [] fresh where
  named := rfl
  entries := fun _ _ h => entry_same h
  told := fun _ hm => by cases hm

/-- A message that arrives. -/
theorem moves_receive {msg : SignalingMessage} {now : Nat} {r : Received S} (hmsg : msg ∈ n.sent)
    (hnamed : (n.endpoints d).deviceId = some d) (h : Receives (n.endpoints d) msg now r) : Moves n d r.state r.outbound none := by
  cases h with
  | ignored consumed => exact moves_none
  | rings hkind hsource hid hfree => exact moves_put (.rang rfl rfl rfl) (fun _ hm => by cases hm)
  | confirms hkind hsource hid hcall hack hinitiator hphase hremote =>
    exact moves_put (.kept _ hcall rfl rfl rfl (Or.inl rfl)) (fun _ hm => by cases hm)
  | selected hsel hid hcall hremote hself hphase =>
    rw [hnamed] at hself
    cases hself
    refine moves_put (.selected _ hcall rfl rfl rfl hphase rfl ⟨_, hremote, msg, hmsg, hsel⟩) ?_
    intro m hm id e r hm'
    rw [List.mem_singleton] at hm
    subst hm
    exact absurd hm' not_selects_ackMessage
  | elsewhere hsel hid hcall hremote hother hphase => exact moves_erase rfl rfl (fun _ hm => by cases hm)
  | @first call source hkind hsource hid hcall hinitiator hphase call' hcall' =>
    have hsel : Selects ((n.endpoints d).selectionMessage (senderKey (n.endpoints d) msg) call' now) call'.id d source :=
      selects_selectionMessage.mpr ⟨rfl, hnamed, by rw [hcall']⟩
    refine moves_put (.chose call source hcall (by rw [hcall']) ⟨hinitiator, hphase⟩ (by rw [hcall']; exact hinitiator)
      (by rw [hcall']) (by rw [hcall']) ⟨_, List.mem_singleton_self _, hsel⟩) ?_
    intro m hm id e r hm'
    rw [List.mem_singleton] at hm
    subst hm
    obtain ⟨hid', he, hr⟩ := selects_selectionMessage.mp hm'
    rw [hnamed] at he
    cases he
    exact ⟨rfl, hid', by rw [hcall']; exact hinitiator, hr⟩
  | @again call source hkind hsource hid hcall hinitiator hphase call' hcall' =>
    refine moves_put (.kept call hcall (by rw [hcall']) (by rw [hcall']) (by rw [hcall']) (Or.inl (by rw [hcall']))) ?_
    intro m hm id e r hm'
    rw [List.mem_singleton] at hm
    subst hm
    obtain ⟨hid', he, hr⟩ := selects_selectionMessage.mp hm'
    rw [hnamed] at he
    cases he
    exact ⟨rfl, hid', by rw [hcall']; exact hinitiator, hr⟩
  | ended hends hcall hphase hremote => exact moves_erase rfl rfl (fun _ hm => by cases hm)

/-- A message of the user. -/
theorem moves_send {kind : MessageType} {target : String} {fallback : Option FallbackRoom} {nonce : List UInt8} {now : Nat}
    {r : CallManager S × Option SignalingMessage} (h : Sends (n.endpoints d) kind target fallback nonce now r) :
    Moves n d r.1 r.2.toList (if (n.endpoints d).startsCall kind target then
      some (canonicalPeerIdForSender (n.endpoints d).manager target, hexEncode nonce) else none) := by
  have hsilent : ∀ call, ∀ m ∈ (some (addressed (stamped (n.endpoints d) kind target fallback now) call)).toList,
      ∀ id e r, ¬Selects m id e r := by
    intro call m hm id e r hsel
    rw [Option.mem_toList] at hm
    cases hm
    exact not_selects_addressed hsel
  cases h with
  | refused hkind => exact moves_none
  | placed hkind hfree =>
    have hstarts : (n.endpoints d).startsCall kind target = true := by
      simp [startsCall, hkind, hfree]
    rw [if_pos hstarts]
    exact moves_put (.placed rfl rfl rfl rfl) (fun m hm id e r hsel => absurd hsel (hsilent _ m hm id e r))
  | repeated hkind hcall =>
    exact moves_put (entry_same hcall) (fun m hm id e r hsel => absurd hsel (hsilent _ m hm id e r))
  | accepts hkind hcall hphase =>
    exact moves_put (.kept _ hcall rfl rfl rfl (Or.inr ⟨hphase, rfl⟩))
      (fun m hm id e r hsel => absurd hsel (hsilent _ m hm id e r))
  | hangsUp hkind hcall =>
    have hstarts : ¬(n.endpoints d).startsCall kind target = true := by
      obtain rfl | rfl := hkind <;> simp [startsCall]
    rw [if_neg hstarts]
    exact moves_erase rfl rfl (hsilent _)

/-- A tick. -/
theorem moves_tick {now : Nat} (hnamed : (n.endpoints d).deviceId = some d) :
    Moves n d ((n.endpoints d).tick now).1 ((n.endpoints d).tick now).2 none where
  named := by
    unfold deviceId
    rw [manager_tick]
  entries := by
    intro k call' h
    rw [lookup_tick] at h
    obtain ⟨call, hcall, rfl⟩ := Option.map_eq_some_iff.mp h
    have hold := (Option.filter_eq_some_iff.mp hcall).1
    unfold ticked
    split
    · exact .kept call hold rfl rfl rfl (Or.inl rfl)
    · exact entry_same hold
  told := by
    intro m hm id e r hsel
    obtain ⟨k, call, hcall, hexpired, hretries, rfl⟩ := mem_tick_out hm
    obtain ⟨hid, he, hr⟩ := selects_selectionMessage.mp hsel
    have hdevice : ((n.endpoints d).expireDeviceCalls now).1.deviceId = some d := by
      unfold deviceId expireDeviceCalls
      rw [manager_dropCalls]
      exact hnamed
    rw [hdevice] at he
    cases he
    have hinitiator : call.initiator = true := by
      simp only [retries, Bool.and_eq_true] at hretries
      exact hretries.1.1.1
    refine ⟨rfl, k, ticked now call, ?_, ?_⟩
    · rw [lookup_tick, hcall, Option.filter_some_pos (by simp [hexpired])]
      rfl
    · unfold ticked
      split
      · exact ⟨hid, hinitiator, hr⟩
      · exact ⟨hid, hinitiator, hr⟩

/-! ## The invariant -/

/-- The calling device of an id is the one that drew it, and every device was told the same. -/
structure Agreed (n : CallNet S) : Prop where
  named : ∀ d, (n.endpoints d).deviceId = some d
  calling : ∀ d k call, (n.endpoints d).deviceCalls.lookup k = some call → call.initiator = true →
    (call.phase = .outgoing ∧ call.remote = none) ∨ (call.phase = .active ∧ call.remote.isSome = true)
  called : ∀ d k call, (n.endpoints d).deviceCalls.lookup k = some call → call.initiator = false → call.phase ≠ .outgoing
  owned : ∀ d k call, (n.endpoints d).deviceCalls.lookup k = some call → call.initiator = true → call.id ∈ n.drawn
  lone : ∀ d k call d' k' call', (n.endpoints d).deviceCalls.lookup k = some call →
    (n.endpoints d').deviceCalls.lookup k' = some call' → call.initiator = true → call'.initiator = true →
    call.id = call'.id → d = d' ∧ k = k'
  recorded : ∀ d k call r, (n.endpoints d).deviceCalls.lookup k = some call → call.initiator = true → call.remote = some r →
    Chosen n call.id d r
  unrecorded : ∀ d k call, (n.endpoints d).deviceCalls.lookup k = some call → call.initiator = true → call.remote = none →
    ∀ e r, ¬Chosen n call.id e r
  answered : ∀ d k call, (n.endpoints d).deviceCalls.lookup k = some call → call.initiator = false → call.phase = .active →
    ∃ e, call.remote = some e ∧ Chosen n call.id e d
  once : ∀ id e r e' r', Chosen n id e r → Chosen n id e' r' → e = e' ∧ r = r'
  known : ∀ id e r, Chosen n id e r → id ∈ n.drawn

theorem agreed_initial (h : n.Initial) : Agreed n := by
  have hnone : ∀ d k call, (n.endpoints d).deviceCalls.lookup k = some call → False := by
    intro d k call hcall
    rw [h.idle d] at hcall
    cases hcall
  have hsilent : ∀ id e r, ¬Chosen n id e r := by
    rintro id e r ⟨m, hm, -⟩
    rw [h.silent] at hm
    cases hm
  exact {
    named := h.named
    calling := fun d k call hcall => (hnone d k call hcall).elim
    called := fun d k call hcall => (hnone d k call hcall).elim
    owned := fun d k call hcall => (hnone d k call hcall).elim
    lone := fun d k call _ _ _ hcall => (hnone d k call hcall).elim
    recorded := fun d k call _ hcall => (hnone d k call hcall).elim
    unrecorded := fun d k call hcall => (hnone d k call hcall).elim
    answered := fun d k call hcall => (hnone d k call hcall).elim
    once := fun id e r _ _ hchosen => (hsilent id e r hchosen).elim
    known := fun id e r hchosen => (hsilent id e r hchosen).elim }

/-- What a step makes of the devices: one of them moves, and a call id may be drawn that was not drawn before. -/
structure Stepped (n n' : CallNet S) (d : DeviceId) (c' : CallManager S) (out : List SignalingMessage)
    (fresh : Option (String × String)) : Prop where
  moves : Moves n d c' out fresh
  endpoints : n'.endpoints = Function.update n.endpoints d c'
  sent : n'.sent = n.sent ++ out
  drawn : ∀ id, id ∈ n'.drawn ↔ id ∈ n.drawn ∨ ∃ k, fresh = some (k, id)
  new : ∀ k id, fresh = some (k, id) → id ∉ n.drawn

variable {fresh : Option (String × String)}

/-- Where an initiator's entry comes from. -/
theorem entry_initiator {k : String} {call' : DeviceCall} (h : Entry n d out fresh k call') (hinitiator : call'.initiator = true) :
    fresh = some (k, call'.id) ∨ ∃ call, (n.endpoints d).deviceCalls.lookup k = some call ∧ call.id = call'.id ∧
      call.initiator = true := by
  cases h with
  | kept call hcall hid hinit _ _ => exact Or.inr ⟨call, hcall, hid.symm, hinit ▸ hinitiator⟩
  | placed hfresh _ _ _ => exact Or.inl hfresh
  | rang hinit _ _ =>
    rw [hinit] at hinitiator
    cases hinitiator
  | selected call hcall hid hinit _ _ _ _ => exact Or.inr ⟨call, hcall, hid.symm, hinit ▸ hinitiator⟩
  | chose call r hcall hid hold _ _ _ _ => exact Or.inr ⟨call, hcall, hid.symm, hold.1⟩

section

variable (hn : Agreed n) (hs : Stepped n n' d c' out fresh)

include hs

theorem chosen_mono {id : String} {e r : DeviceId} (h : Chosen n id e r) : Chosen n' id e r := by
  obtain ⟨m, hm, hsel⟩ := h
  exact ⟨m, by rw [hs.sent]; exact List.mem_append_left _ hm, hsel⟩

/-- An entry after the step is one of the device that moved, or was there before. -/
theorem lookup_cases {d' : DeviceId} {k : String} {call : DeviceCall}
    (h : (n'.endpoints d').deviceCalls.lookup k = some call) :
    (d' = d ∧ c'.deviceCalls.lookup k = some call ∧ Entry n d out fresh k call) ∨
      (d' ≠ d ∧ (n.endpoints d').deviceCalls.lookup k = some call) := by
  rw [hs.endpoints] at h
  by_cases hd : d' = d
  · subst hd
    rw [Function.update_self] at h
    exact Or.inl ⟨rfl, h, hs.moves.entries k call h⟩
  · rw [Function.update_of_ne hd] at h
    exact Or.inr ⟨hd, h⟩

theorem chosen_cases {id : String} {e r : DeviceId} (h : Chosen n' id e r) : Chosen n id e r ∨ (e = d ∧
    ∃ k call', c'.deviceCalls.lookup k = some call' ∧ call'.id = id ∧ call'.initiator = true ∧ call'.remote = some r) := by
  obtain ⟨m, hm, hsel⟩ := h
  rw [hs.sent] at hm
  obtain hold | hnew := List.mem_append.mp hm
  · exact Or.inl ⟨m, hold, hsel⟩
  · exact Or.inr (hs.moves.told m hnew id e r hsel)

/-- An initiator's entry keeps its place, and a new one has an id of its own. -/
theorem initiator_cases {d' : DeviceId} {k : String} {call' : DeviceCall}
    (h : (n'.endpoints d').deviceCalls.lookup k = some call') (hinitiator : call'.initiator = true) :
    (d' = d ∧ fresh = some (k, call'.id)) ∨
      ∃ call, (n.endpoints d').deviceCalls.lookup k = some call ∧ call.id = call'.id ∧ call.initiator = true := by
  obtain ⟨rfl, -, hentry⟩ | ⟨-, hold⟩ := lookup_cases hs h
  · obtain hfresh | hcall := entry_initiator hentry hinitiator
    · exact Or.inl ⟨rfl, hfresh⟩
    · exact Or.inr hcall
  · exact Or.inr ⟨call', hold, rfl, hinitiator⟩

include hn

theorem lone_step : ∀ d₁ k₁ call₁ d₂ k₂ call₂, (n'.endpoints d₁).deviceCalls.lookup k₁ = some call₁ →
    (n'.endpoints d₂).deviceCalls.lookup k₂ = some call₂ → call₁.initiator = true → call₂.initiator = true →
    call₁.id = call₂.id → d₁ = d₂ ∧ k₁ = k₂ := by
  intro d₁ k₁ call₁ d₂ k₂ call₂ h₁ h₂ hi₁ hi₂ hid
  obtain ⟨rfl, hf₁⟩ | ⟨old₁, ho₁, hoid₁, hoi₁⟩ := initiator_cases hs h₁ hi₁
  · obtain ⟨rfl, hf₂⟩ | ⟨old₂, ho₂, hoid₂, hoi₂⟩ := initiator_cases hs h₂ hi₂
    · rw [hf₁] at hf₂
      exact ⟨rfl, (Prod.mk.inj (Option.some.inj hf₂)).1⟩
    · refine absurd (hn.owned d₂ k₂ old₂ ho₂ hoi₂) ?_
      rw [hoid₂, ← hid]
      exact hs.new _ _ hf₁
  · obtain ⟨rfl, hf₂⟩ | ⟨old₂, ho₂, hoid₂, hoi₂⟩ := initiator_cases hs h₂ hi₂
    · refine absurd (hn.owned d₁ k₁ old₁ ho₁ hoi₁) ?_
      rw [hoid₁, hid]
      exact hs.new _ _ hf₂
    · exact hn.lone d₁ k₁ old₁ d₂ k₂ old₂ ho₁ ho₂ hoi₁ hoi₂ (by rw [hoid₁, hoid₂, hid])

theorem recorded_step : ∀ d' k call r, (n'.endpoints d').deviceCalls.lookup k = some call → call.initiator = true →
    call.remote = some r → Chosen n' call.id d' r := by
  intro d' k call' r h hinitiator hremote
  obtain ⟨rfl, -, hentry⟩ | ⟨-, hold⟩ := lookup_cases hs h
  · cases hentry with
    | kept call hcall hid hinit hrem _ =>
      rw [hid]
      exact chosen_mono hs (hn.recorded _ k call r hcall (hinit ▸ hinitiator) (hrem ▸ hremote))
    | placed _ _ hnone _ =>
      rw [hnone] at hremote
      cases hremote
    | rang hinit _ _ =>
      rw [hinit] at hinitiator
      cases hinitiator
    | selected call hcall hid hinit hrem _ _ _ =>
      rw [hid]
      exact chosen_mono hs (hn.recorded _ k call r hcall (hinit ▸ hinitiator) (hrem ▸ hremote))
    | chose call r' hcall hid hold _ hrem _ hsent =>
      rw [hrem] at hremote
      cases hremote
      obtain ⟨m, hm, hsel⟩ := hsent
      exact ⟨m, by rw [hs.sent]; exact List.mem_append_right _ hm, hsel⟩
  · exact chosen_mono hs (hn.recorded d' k call' r hold hinitiator hremote)

theorem unrecorded_step : ∀ d' k call, (n'.endpoints d').deviceCalls.lookup k = some call → call.initiator = true →
    call.remote = none → ∀ e r, ¬Chosen n' call.id e r := by
  intro d' k call' h hinitiator hremote e r hchosen
  obtain hold | ⟨rfl, k₂, call₂, h₂, hid₂, hi₂, hr₂⟩ := chosen_cases hs hchosen
  · obtain ⟨-, hfresh⟩ | ⟨call, hcall, hid, hi⟩ := initiator_cases hs h hinitiator
    · exact hs.new _ _ hfresh (hn.known _ _ _ hold)
    · -- the entry had no device before either: a recorded device is not forgotten
      have hnone : call.remote = none := by
        obtain ⟨rfl, hlookup, hentry⟩ | ⟨-, hsame⟩ := lookup_cases hs h
        · cases hentry with
          | kept call₀ hcall₀ _ _ hrem _ =>
            rw [hcall] at hcall₀
            cases hcall₀
            exact hrem ▸ hremote
          | placed hfresh _ _ _ =>
            exact absurd (hid ▸ hn.owned _ k call hcall hi) (hs.new _ _ hfresh)
          | rang hinit _ _ =>
            rw [hinit] at hinitiator
            cases hinitiator
          | selected call₀ hcall₀ _ _ hrem _ _ _ =>
            rw [hcall] at hcall₀
            cases hcall₀
            exact hrem ▸ hremote
          | chose _ _ _ _ _ _ hrem _ _ =>
            rw [hrem] at hremote
            cases hremote
        · rw [hcall] at hsame
          cases hsame
          exact hremote
      exact hn.unrecorded d' k call hcall hi hnone e r (hid ▸ hold)
  · have hself : (n'.endpoints e).deviceCalls.lookup k₂ = some call₂ := by
      rw [hs.endpoints, Function.update_self]
      exact h₂
    obtain ⟨rfl, rfl⟩ := lone_step hn hs d' k call' e k₂ call₂ h hself hinitiator hi₂ hid₂.symm
    rw [h] at hself
    cases hself
    rw [hremote] at hr₂
    cases hr₂

theorem answered_step : ∀ d' k call, (n'.endpoints d').deviceCalls.lookup k = some call → call.initiator = false →
    call.phase = .active → ∃ e, call.remote = some e ∧ Chosen n' call.id e d' := by
  intro d' k call' h hinitiator hactive
  obtain ⟨rfl, -, hentry⟩ | ⟨-, hold⟩ := lookup_cases hs h
  · cases hentry with
    | kept call hcall hid hinit hrem hphase =>
      obtain hphase | ⟨-, hphase⟩ := hphase
      · obtain ⟨e, he, hchosen⟩ := hn.answered _ k call hcall (hinit ▸ hinitiator) (hphase ▸ hactive)
        exact ⟨e, hrem.trans he, hid ▸ chosen_mono hs hchosen⟩
      · rw [hphase] at hactive
        cases hactive
    | placed _ hinit _ _ =>
      rw [hinit] at hinitiator
      cases hinitiator
    | rang _ _ hphase =>
      rw [hphase] at hactive
      cases hactive
    | selected call hcall hid _ hrem _ _ htold =>
      obtain ⟨e, he, hchosen⟩ := htold
      exact ⟨e, hrem.trans he, hid ▸ chosen_mono hs hchosen⟩
    | chose _ _ _ _ _ hinit _ _ _ =>
      rw [hinit] at hinitiator
      cases hinitiator
  · obtain ⟨e, he, hchosen⟩ := hn.answered d' k call' hold hinitiator hactive
    exact ⟨e, he, chosen_mono hs hchosen⟩

/-- What is said anew was said before, or the call had no device yet. -/
theorem chosen_new {id : String} {k : String} {call' : DeviceCall} {r : DeviceId} (h : c'.deviceCalls.lookup k = some call')
    (hid : call'.id = id) (hinitiator : call'.initiator = true) (hremote : call'.remote = some r) :
    Chosen n id d r ∨ ∀ e r', ¬Chosen n id e r' := by
  have hentry := hs.moves.entries k call' h
  subst hid
  cases hentry with
  | kept call hcall hid hinit hrem _ =>
    rw [hid]
    exact Or.inl (hn.recorded _ k call r hcall (hinit ▸ hinitiator) (hrem ▸ hremote))
  | placed _ _ hnone _ =>
    rw [hnone] at hremote
    cases hremote
  | rang hinit _ _ =>
    rw [hinit] at hinitiator
    cases hinitiator
  | selected call hcall hid hinit hrem _ _ _ =>
    rw [hid]
    exact Or.inl (hn.recorded _ k call r hcall (hinit ▸ hinitiator) (hrem ▸ hremote))
  | chose call r' hcall hid hold _ _ _ _ =>
    rw [hid]
    obtain ⟨-, hnone⟩ | ⟨hactive, -⟩ := hn.calling _ k call hcall hold.1
    · exact Or.inr (hn.unrecorded _ k call hcall hold.1 hnone)
    · rw [hold.2] at hactive
      cases hactive

theorem once_step : ∀ id e r e' r', Chosen n' id e r → Chosen n' id e' r' → e = e' ∧ r = r' := by
  intro id e r e' r' h h'
  obtain hold | ⟨rfl, k, call, hcall, hid, hi, hr⟩ := chosen_cases hs h
  · obtain hold' | ⟨rfl, k', call', hcall', hid', hi', hr'⟩ := chosen_cases hs h'
    · exact hn.once id e r e' r' hold hold'
    · obtain hwas | hnot := chosen_new hn hs hcall' hid' hi' hr'
      · exact hn.once id e r e' r' hold hwas
      · exact absurd hold (hnot e r)
  · obtain hold' | ⟨rfl, k', call', hcall', hid', hi', hr'⟩ := chosen_cases hs h'
    · obtain hwas | hnot := chosen_new hn hs hcall hid hi hr
      · exact hn.once id e r e' r' hwas hold'
      · exact absurd hold' (hnot e' r')
    · have hself : ∀ k call, c'.deviceCalls.lookup k = some call → (n'.endpoints e').deviceCalls.lookup k = some call := by
        intro k call hlookup
        rw [hs.endpoints, Function.update_self]
        exact hlookup
      obtain ⟨-, rfl⟩ :=
        lone_step hn hs e' k call e' k' call' (hself _ _ hcall) (hself _ _ hcall') hi hi' (hid.trans hid'.symm)
      rw [hcall] at hcall'
      cases hcall'
      rw [hr] at hr'
      exact ⟨rfl, Option.some.inj hr'⟩

theorem calling_step : ∀ d' k call, (n'.endpoints d').deviceCalls.lookup k = some call → call.initiator = true →
    (call.phase = .outgoing ∧ call.remote = none) ∨ (call.phase = .active ∧ call.remote.isSome = true) := by
  intro d' k call' h hinitiator
  obtain ⟨rfl, -, hentry⟩ | ⟨-, hold⟩ := lookup_cases hs h
  · cases hentry with
    | kept call hcall hid hinit hrem hphase =>
      have hshape := hn.calling _ k call hcall (hinit ▸ hinitiator)
      obtain hphase | ⟨hringing, -⟩ := hphase
      · rw [hphase, hrem]
        exact hshape
      · obtain ⟨hp, -⟩ | ⟨hp, -⟩ := hshape <;> rw [hp] at hringing <;> simp at hringing
    | placed _ _ hrem hphase => exact Or.inl ⟨hphase, hrem⟩
    | rang hinit _ _ =>
      rw [hinit] at hinitiator
      cases hinitiator
    | selected call hcall hid hinit hrem hold hphase htold =>
      obtain ⟨e, he, -⟩ := htold
      exact Or.inr ⟨hphase, by rw [hrem, he]; rfl⟩
    | chose _ _ _ _ _ _ hrem hphase _ => exact Or.inr ⟨hphase, by rw [hrem]; rfl⟩
  · exact hn.calling d' k call' hold hinitiator

theorem called_step : ∀ d' k call, (n'.endpoints d').deviceCalls.lookup k = some call → call.initiator = false →
    call.phase ≠ .outgoing := by
  intro d' k call' h hinitiator
  obtain ⟨rfl, -, hentry⟩ | ⟨-, hold⟩ := lookup_cases hs h
  · cases hentry with
    | kept call hcall _ hinit _ hphase =>
      obtain hphase | ⟨-, hphase⟩ := hphase
      · rw [hphase]
        exact hn.called _ k call hcall (hinit ▸ hinitiator)
      · rw [hphase]
        decide
    | placed _ hinit _ _ =>
      rw [hinit] at hinitiator
      cases hinitiator
    | rang _ _ hphase =>
      rw [hphase]
      decide
    | selected _ _ _ _ _ _ hphase _ =>
      rw [hphase]
      decide
    | chose _ _ _ _ _ _ _ hphase _ =>
      rw [hphase]
      decide
  · exact hn.called d' k call' hold hinitiator

/-- **One step keeps the agreement.** -/
theorem agreed_stepped : Agreed n' where
  named := by
    intro d'
    rw [hs.endpoints]
    by_cases hd : d' = d
    · subst hd
      rw [Function.update_self, hs.moves.named]
      exact hn.named _
    · rw [Function.update_of_ne hd]
      exact hn.named d'
  calling := calling_step hn hs
  called := called_step hn hs
  owned := by
    intro d' k call h hinitiator
    rw [hs.drawn]
    obtain ⟨-, hfresh⟩ | ⟨old, hold, hid, hi⟩ := initiator_cases hs h hinitiator
    · exact Or.inr ⟨k, hfresh⟩
    · exact Or.inl (hid ▸ hn.owned d' k old hold hi)
  lone := lone_step hn hs
  recorded := recorded_step hn hs
  unrecorded := unrecorded_step hn hs
  answered := answered_step hn hs
  once := once_step hn hs
  known := by
    intro id e r h
    rw [hs.drawn]
    obtain hold | ⟨rfl, k, call, hcall, hid, hi, -⟩ := chosen_cases hs h
    · exact Or.inl (hn.known id e r hold)
    · obtain hfresh | ⟨old, hold, hoid, hoi⟩ := entry_initiator (hs.moves.entries k call hcall) hi
      · exact Or.inr ⟨k, hid ▸ hfresh⟩
      · exact Or.inl (hid ▸ hoid ▸ hn.owned _ k old hold hoi)

end

/-- **Every step is a move of one device.** -/
theorem stepped (hn : Agreed n) {act : CallAct} (h : callStep n act = some n') :
    ∃ d c' out fresh, Stepped n n' d c' out fresh := by
  cases act with
  | send d kind target fallback nonce now =>
    simp only [callStep] at h
    split at h
    · cases h
    · rename_i hkind
      have henabled : (n.endpoints d).deviceId.isSome = true := by
        rw [hn.named d]
        rfl
      have hsends : Sends (n.endpoints d) kind target fallback nonce now _ :=
        sends henabled (by simpa using hkind) target fallback nonce
      have hmoves := moves_send hsends
      split at h
      · rename_i hstarts
        rw [if_pos hstarts] at hmoves
        split at h
        · cases h
        · rename_i hfresh
          rw [not_or] at hfresh
          cases h
          refine ⟨d, _, _, _, hmoves, rfl, rfl, ?_, ?_⟩
          · intro id
            simp only [List.mem_cons, Option.some.injEq, Prod.mk.injEq, exists_and_right, exists_eq', true_and]
            rw [or_comm, @eq_comm _ id]
          · intro k id hsome
            cases hsome
            exact hfresh.2
      · rename_i hstarts
        rw [if_neg hstarts] at hmoves
        cases h
        exact ⟨d, _, _, none, hmoves, rfl, rfl, by simp [CallNet.update], by simp⟩
  | deliver d index quota now =>
    simp only [callStep] at h
    split at h
    · cases h
    · rename_i msg hmsg
      split at h
      · cases h
      · cases h
        have hreceives : Receives (n.endpoints d) msg now _ := receives quota
        have hmoves := moves_receive (List.mem_of_getElem? hmsg) (hn.named d) hreceives
        exact ⟨d, _, _, none, hmoves, rfl, rfl, by simp [CallNet.update], by simp⟩
  | tick d now =>
    cases h
    exact ⟨d, _, _, none, moves_tick (hn.named d), rfl, rfl, by simp [CallNet.update], by simp⟩
  | editStore d store =>
    cases h
    have hmoves : Moves n d { n.endpoints d with manager := { (n.endpoints d).manager with store := store } } [] none :=
      ⟨rfl, fun _ _ hcall => entry_same hcall, fun _ hm => by cases hm⟩
    exact ⟨d, _, _, none, hmoves, rfl, rfl, by simp [CallNet.update], by simp⟩

/-! ## Along a run -/

theorem agreed_step {act : CallAct} (hn : Agreed n) (h : callStep n act = some n') : Agreed n' := by
  obtain ⟨d, c', out, fresh, hs⟩ := stepped hn h
  exact agreed_stepped hn hs

variable {n₀ : CallNet S} {acts : List CallAct}

theorem agreed_run (hn : Agreed n₀) (h : run callStep n₀ acts = some n) : Agreed n :=
  run_invariant (fun _ m => Agreed m) hn (fun _ _ _ _ hm hstep => agreed_step hm hstep) h

theorem chosen_run (hn : Agreed n₀) (h : run callStep n₀ acts = some n) {id : String} {e r : DeviceId} (hc : Chosen n₀ id e r) :
    Chosen n id e r := by
  refine (run_invariant (fun _ m => Agreed m ∧ Chosen m id e r) ⟨hn, hc⟩ ?_ h).2
  intro _ act n₁ n₂ hI hstep
  obtain ⟨d, c', out, fresh, hs⟩ := stepped hI.1 hstep
  exact ⟨agreed_stepped hI.1 hs, chosen_mono hs hI.2⟩

/-- What was told was recorded at the time. -/
theorem recorded_of_chosen (h0 : n₀.Initial) (h : run callStep n₀ acts = some n) {id : String} {e r : DeviceId}
    (hc : Chosen n id e r) : Ever n₀ acts (Recorded · e id r) := by
  have hI : Agreed n ∧ run callStep n₀ acts = some n ∧ ∀ id e r, Chosen n id e r → Ever n₀ acts (Recorded · e id r) := by
    refine run_invariant (fun acts m => Agreed m ∧ run callStep n₀ acts = some m ∧
      ∀ id e r, Chosen m id e r → Ever n₀ acts (Recorded · e id r)) ?_ ?_ h
    · refine ⟨agreed_initial h0, rfl, ?_⟩
      rintro id e r ⟨m, hm, -⟩
      rw [h0.silent] at hm
      cases hm
    · intro acts act n₁ n₂ hI hstep
      obtain ⟨hagreed, hrun, hever⟩ := hI
      obtain ⟨d, c', out, fresh, hs⟩ := stepped hagreed hstep
      have hrun₂ : run callStep n₀ (acts ++ [act]) = some n₂ := by
        rw [run_append, hrun]
        simpa [run] using hstep
      refine ⟨agreed_stepped hagreed hs, hrun₂, ?_⟩
      intro id e r hchosen
      obtain hold | ⟨rfl, k, call, hcall, hid, hi, hr⟩ := chosen_cases hs hchosen
      · obtain ⟨pre, post, m, rfl, hpre, hrec⟩ := hever id e r hold
        exact ⟨pre, post ++ [act], m, by simp, hpre, hrec⟩
      · refine ⟨acts ++ [act], [], n₂, by simp, hrun₂, k, call, ?_, hid, hi, hr⟩
        rw [hs.endpoints, Function.update_self]
        exact hcall
  exact hI.2.2 id e r hc

/-- What holds at some time of the run and gives a choice gives the choice at the end. -/
theorem chosen_of_ever (h0 : n₀.Initial) (h : run callStep n₀ acts = some n) {P : CallNet S → Prop} {id : String} {e r : DeviceId}
    (hever : Ever n₀ acts P) (hP : ∀ m, Agreed m → P m → Chosen m id e r) : Chosen n id e r := by
  obtain ⟨pre, post, m, rfl, hpre, hm⟩ := hever
  have hagreed := agreed_run (agreed_initial h0) hpre
  rw [run_append, hpre] at h
  exact chosen_run hagreed h (hP m hagreed hm)

theorem chosen_of_recorded (h0 : n₀.Initial) (h : run callStep n₀ acts = some n) {id : String} {e r : DeviceId}
    (hever : Ever n₀ acts (Recorded · e id r)) : Chosen n id e r := by
  refine chosen_of_ever h0 h hever ?_
  rintro m hagreed ⟨k, call, hcall, rfl, hi, hr⟩
  exact hagreed.recorded e k call r hcall hi hr

theorem chosen_of_active (h0 : n₀.Initial) (h : run callStep n₀ acts = some n) {id : String} {d : DeviceId}
    (hever : Ever n₀ acts (ActiveCallee · d id)) : ∃ e, Chosen n id e d := by
  obtain ⟨pre, post, m, rfl, hpre, k, call, hcall, rfl, hi, hactive⟩ := hever
  have hagreed := agreed_run (agreed_initial h0) hpre
  obtain ⟨e, -, hchosen⟩ := hagreed.answered d k call hcall hi hactive
  rw [run_append, hpre] at h
  exact ⟨e, chosen_run hagreed h hchosen⟩

/-- A decline or an end that is not the call's own leaves it. -/
theorem lookup_receive_other {c : CallManager S} {msg : SignalingMessage} {quota : Bool} {now : Nat} {k : String}
    {call : DeviceCall} (hkind : msg.msgType = .callReject ∨ msg.msgType = .callEnd) (hcall : c.deviceCalls.lookup k = some call)
    (hother : call.remote = none ∨ msg.sourceDevice ≠ call.remote) :
    (c.receiveDeviceCall msg quota now).state.deviceCalls.lookup k = some call := by
  have hnot : ∀ ty, ty ≠ .callReject → ty ≠ .callEnd → msg.msgType ≠ ty := by
    intro ty hreject hend heq
    obtain hk | hk := hkind
    · exact hreject (heq ▸ hk)
    · exact hend (heq ▸ hk)
  generalize hr : c.receiveDeviceCall msg quota now = r
  have h : Receives c msg now r := hr ▸ receives quota
  cases h with
  | ignored consumed => exact hcall
  | rings hk => exact absurd hk (hnot _ (by decide) (by decide))
  | confirms hk => exact absurd hk (hnot _ (by decide) (by decide))
  | selected hsel => exact absurd hsel.kind (hnot _ (by decide) (by decide))
  | elsewhere hsel => exact absurd hsel.kind (hnot _ (by decide) (by decide))
  | first hk => exact absurd hk (hnot _ (by decide) (by decide))
  | again hk => exact absurd hk (hnot _ (by decide) (by decide))
  | @ended call' source hends hcall' hphase hremote =>
    have hne : k ≠ senderKey c msg := by
      intro hk
      rw [hk, hcall'] at hcall
      cases hcall
      obtain hnone | hne := hother
      · rw [hremote] at hnone
        cases hnone
      · exact hne (hends.source.trans hremote.symm)
    exact (AList.lookup_erase_ne hne).trans hcall

end CallSelectionAux

open CallSelectionAux

/-- **One answering device per call.** In every run of any number of devices, whatever is delayed, repeated or lost, at most one
device of the callee is ever in a call, the calling device recorded it and never another, media is taken only between these two,
and no other device's decline or end touches the call. -/
theorem one_answering_device (n₀ : CallNet S) (h0 : n₀.Initial) (acts : List CallAct) (n : CallNet S)
    (h : run callStep n₀ acts = some n) : OneAnswer n₀ acts n where
  single := by
    intro id d d' hd hd'
    obtain ⟨e, he⟩ := chosen_of_active h0 h hd
    obtain ⟨e', he'⟩ := chosen_of_active h0 h hd'
    exact ((agreed_run (agreed_initial h0) h).once id e d e' d' he he').2
  agreed := by
    intro id d hd
    obtain ⟨e, he⟩ := chosen_of_active h0 h hd
    exact ⟨e, recorded_of_chosen h0 h he⟩
  steady := by
    intro id e r e' r' hr hr'
    exact (agreed_run (agreed_initial h0) h).once id e r e' r' (chosen_of_recorded h0 h hr) (chosen_of_recorded h0 h hr')
  media := by
    intro d peer device hmedia
    have hagreed := agreed_run (agreed_initial h0) h
    rw [deviceCallAcceptsMedia, hagreed.named d] at hmedia
    simp only [Option.isNone_some, Bool.false_or, Option.any_eq_true, Bool.and_eq_true, decide_eq_true_eq] at hmedia
    obtain ⟨call, hcall, hactive, hremote⟩ := hmedia
    cases hi : call.initiator with
    | true =>
      obtain ⟨hout, -⟩ | ⟨-, hsome⟩ := hagreed.calling d peer call hcall hi
      · rw [hactive] at hout
        cases hout
      · obtain ⟨r, hr⟩ := Option.isSome_iff_exists.mp hsome
        have hchosen := hagreed.recorded d peer call r hcall hi hr
        exact ⟨call, d, r, hcall, recorded_of_chosen h0 h hchosen, Or.inl ⟨rfl, hremote ▸ hr⟩⟩
    | false =>
      obtain ⟨e, he, hchosen⟩ := hagreed.answered d peer call hcall hi hactive
      exact ⟨call, e, d, hcall, recorded_of_chosen h0 h hchosen, Or.inr ⟨rfl, hremote ▸ he⟩⟩
  declines := by
    intro d msg quota now hkind k call hcall hother
    exact lookup_receive_other hkind hcall hother

namespace CallSelectionAux

/-- A caller with one device, and a callee whose devices are all the others. -/
def sampleNet : CallNet Unit where
  endpoints d := sampleEndpoint (if d = sampleDevice 9 then "caller" else "callee") d
  sent := []
  drawn := []

/-- A call that two devices ring for and both answer. -/
def sampleCall : List CallAct := [
  .send (sampleDevice 9) .callRequest "callee" none (List.replicate 16 7) 0,
  .deliver (sampleDevice 1) 0 true 1, .deliver (sampleDevice 2) 0 true 1,
  .send (sampleDevice 1) .callAccept "caller" none [] 2, .send (sampleDevice 2) .callAccept "caller" none [] 3,
  .deliver (sampleDevice 9) 1 true 4, .deliver (sampleDevice 9) 2 true 5,
  .deliver (sampleDevice 1) 3 true 6, .deliver (sampleDevice 2) 3 true 6]

end CallSelectionAux

theorem one_answering_device_sample : ∃ n, run callStep sampleNet sampleCall = some n ∧ OneAnswer sampleNet sampleCall n ∧
    (n.endpoints (sampleDevice 1)).deviceCallAcceptsMedia "caller" (some (sampleDevice 9)) = true ∧
    (n.endpoints (sampleDevice 2)).deviceCallAcceptsMedia "caller" (some (sampleDevice 9)) = false := by
  have hinitial : sampleNet.Initial := ⟨fun _ => rfl, fun _ => rfl, rfl, rfl⟩
  have hrun : ((run callStep sampleNet sampleCall).any fun n =>
      (n.endpoints (sampleDevice 1)).deviceCallAcceptsMedia "caller" (some (sampleDevice 9)) &&
      !(n.endpoints (sampleDevice 2)).deviceCallAcceptsMedia "caller" (some (sampleDevice 9))) = true := by
    decide +kernel
  obtain ⟨n, hn, hmedia⟩ := (Option.any_eq_true _ _).mp hrun
  rw [Bool.and_eq_true, Bool.not_eq_true'] at hmedia
  exact ⟨n, hn, one_answering_device sampleNet hinitial sampleCall n hn, hmedia.1, hmedia.2⟩

end DoubleSlash.Calls
