import DoubleSlash.Lemmas.DeviceCalls
import DoubleSlash.Lib.Run

/-!
# A finished call and the next one

Two endpoints. A confirmed call has no deadline: once the other endpoint has let go of it, only a message takes it out of the table.
An endpoint lets go without a message when a call expires, and a message may be lost, or come when its sender has let go already.
-/

namespace DoubleSlash.Calls

open Protocol Manager Tls Assoc Codec CallManager Run

variable {S : Type}

/-- The call is confirmed: it does not expire. -/
def Confirmed (call : DeviceCall) : Prop := call.phase = .active ∧ call.confirmed = true

/-- The endpoint holds the call with this id. -/
def Holds (p : CallPair S) (e : Bool) (id : String) : Prop := ∃ call, p.callOf e = some call ∧ call.id = id

/-- The endpoint calls and waits for an answer. -/
def Calling (p : CallPair S) (e : Bool) (id : String) : Prop :=
  ∃ call, p.callOf e = some call ∧ call.id = id ∧ call.phase = .outgoing

/-- A finished call does not block the next one. -/
structure Unblocked (p : CallPair S) : Prop where
  /-- A call that the other endpoint no longer holds expires, or a message that removes it is in flight. -/
  released : ∀ e call, p.callOf e = some call → ¬Holds p (!e) call.id →
    (∀ now, call.deadline ≤ now → ((p.endpoints e).expireDeviceCalls now).1.deviceCalls.lookup (p.peerKey e) = none) ∨
    ∃ m, (e, m) ∈ p.flight ∧ ∀ now, ((p.endpoints e).receiveDeviceCall m true now).state.deviceCalls.lookup (p.peerKey e) = none
  /-- Without a call, a request is offered. -/
  offers : ∀ e, p.callOf e = none → ∀ m id, m.msgType = .callRequest → m.sender = (p.endpoints !e).manager.publicId →
    m.sourceDevice = (p.endpoints !e).deviceId → callIdOf m = some id → ∀ now,
      ((p.endpoints e).receiveDeviceCall m true now).consumed = true
  /-- When both call, one of the requests is offered or still on its way. -/
  crossed : ∀ x y, Calling p false x → Calling p true y → (true, x) ∈ p.offered ∨ (false, y) ∈ p.offered ∨
    ∃ e m, (e, m) ∈ p.flight ∧ m.msgType = .callRequest

/-! ## The condition -/

/-- The message ends or declines the call with this id. -/
def EndsCall (m : SignalingMessage) (id : String) : Prop :=
  (m.msgType = .callReject ∨ m.msgType = .callEnd) ∧ callIdOf m = some id

/-- An end of the call is on its way to the endpoint. -/
def EndTo (p : CallPair S) (e : Bool) (id : String) : Prop := ∃ m, (e, m) ∈ p.flight ∧ EndsCall m id

/-- What keeps the two endpoints together. -/
def Prompt (p : CallPair S) : PairAct → Prop
  -- a new call is not placed while a request of the other endpoint is unheard
  | .send e kind target _ _ _ => (p.endpoints e).startsCall kind target = true → ∀ id, Calling p (!e) id → (e, id) ∈ p.offered
  | .deliver index _ => ∀ e m id, p.flight[index]? = some (e, m) → callIdOf m = some id →
    -- a selection or its acknowledgement comes while its sender holds the call, or before its end
    (m.payload.flag "device_selection" = true ∨ m.payload.flag "device_selection_ack" = true →
      Holds p (!e) id ∨ EndTo p e id) ∧
    -- an end comes before its sender is in the call again
    (EndsCall m id → ∀ call, p.callOf (!e) = some call → call.id = id → ¬Confirmed call)
  -- the end of a confirmed call is not lost
  | .lose index => ∀ e m call, p.flight[index]? = some (e, m) → p.callOf e = some call → EndsCall m call.id → ¬Confirmed call
  -- a call does not expire that the other endpoint has confirmed
  | .tick e now => ∀ call call', p.callOf e = some call → expired now call = true → p.callOf (!e) = some call' →
    call'.id = call.id → ¬Confirmed call'

namespace CallReleaseAux

variable {p p' : CallPair S} {e : Bool}

/-! ## Ids -/

theorem validCallId_hexEncode {nonce : List UInt8} (h : nonce.length = 16) : validCallId (hexEncode nonce) = true := by
  have hall : ∀ bytes : List UInt8,
      (bytes.flatMap fun b => [hexChar (b.toNat / 16), hexChar (b.toNat % 16)]).length = 2 * bytes.length ∧
      (bytes.flatMap fun b => [hexChar (b.toNat / 16), hexChar (b.toNat % 16)]).all (fun c => (hexDigit c).isSome) = true := by
    intro bytes
    induction bytes with
    | nil => exact ⟨rfl, rfl⟩
    | cons b bytes ih =>
      have hlt : b.toNat < 256 := b.toNat_lt
      have hhi := hexDigit_hexChar (b.toNat / 16) (by omega)
      have hlo := hexDigit_hexChar (b.toNat % 16) (by omega)
      refine ⟨?_, ?_⟩
      · simp only [List.flatMap_cons, List.length_append, List.length_cons, List.length_nil, ih.1]
        omega
      · simp only [List.flatMap_cons, List.all_append, List.all_cons, List.all_nil, hhi, hlo, ih.2]
        rfl
  unfold validCallId hexEncode
  rw [String.toList_ofList, (hall nonce).1, (hall nonce).2, h]
  rfl

theorem callIdOf_addressed {m : SignalingMessage} {call : DeviceCall} (h : validCallId call.id = true) :
    callIdOf (addressed m call) = some call.id :=
  Option.filter_eq_some_iff.mpr ⟨rawCallId_addressed, h⟩

/-! ## The invariant -/

/-- The tables and the messages fit together, and a confirmed call is held at both ends or ended. -/
structure Sound (p : CallPair S) : Prop where
  enabled : ∀ e, (p.endpoints e).deviceId.isSome = true
  only : ∀ e k call, (p.endpoints e).deviceCalls.lookup k = some call → k = p.peerKey e
  valid : ∀ e call, p.callOf e = some call → validCallId call.id = true
  remote : ∀ e call, p.callOf e = some call → call.phase ≠ .outgoing → call.remote = (p.endpoints !e).deviceId
  unconfirmed : ∀ e call, p.callOf e = some call → call.phase ≠ .active → call.confirmed = false
  signed : ∀ e m, (e, m) ∈ p.flight → m.sender = (p.endpoints !e).manager.publicId ∧
    m.sourceDevice = (p.endpoints !e).deviceId ∧ ∀ id s d, Selects m id s d → (p.endpoints e).deviceId = some d
  confirmed : ∀ e call, p.callOf e = some call → Confirmed call → Holds p (!e) call.id ∨ EndTo p e call.id
  heard : ∀ x y, Calling p false x → Calling p true y → (true, x) ∈ p.offered ∨ (false, y) ∈ p.offered

theorem sound_initial (h : p.Initial) : Sound p := by
  have hnone : ∀ e k call, (p.endpoints e).deviceCalls.lookup k = some call → False := by
    intro e k call hcall
    rw [h.idle e] at hcall
    cases hcall
  have hcall : ∀ e call, p.callOf e = some call → False := fun e call hcall => hnone e _ call hcall
  exact {
    enabled := h.enabled
    only := fun e k call hc => (hnone e k call hc).elim
    valid := fun e call hc => (hcall e call hc).elim
    remote := fun e call hc => (hcall e call hc).elim
    unconfirmed := fun e call hc => (hcall e call hc).elim
    signed := fun e m hm => by
      rw [h.silent] at hm
      cases hm
    confirmed := fun e call hc => (hcall e call hc).elim
    heard := fun _ _ hx => by
      obtain ⟨call, hc, -⟩ := hx
      exact (hcall false call hc).elim }

/-- An end of an endpoint's call removes it. -/
theorem end_removes (hp : Sound p) {m : SignalingMessage} {call : DeviceCall} (hflight : (e, m) ∈ p.flight)
    (hcall : p.callOf e = some call) (hends : EndsCall m call.id) (hphase : call.phase ≠ .outgoing) (now : Nat) :
    ((p.endpoints e).receiveDeviceCall m true now).state.deviceCalls.lookup (p.peerKey e) = none := by
  obtain ⟨hsender, hsource, -⟩ := hp.signed e m hflight
  obtain ⟨d, hd⟩ := Option.isSome_iff_exists.mp (hp.enabled !e)
  have hremote : call.remote = some d := (hp.remote e call hcall hphase).trans hd
  have henabled : (p.endpoints e).deviceId.isNone = false := by
    rw [Option.isNone_eq_false_iff]
    exact hp.enabled e
  have hkind : isCall m.msgType = true ∧ m.msgType ≠ .callRequest ∧ m.msgType ≠ .callAccept := by
    obtain hk | hk := hends.1 <;> rw [hk] <;> decide
  have hkey : canonicalPeerIdForSender (p.endpoints e).manager m.sender = p.peerKey e := by
    rw [hsender]
    rfl
  have hlookup : (p.endpoints e).deviceCalls.lookup (canonicalPeerIdForSender (p.endpoints e).manager m.sender) = some call := by
    rw [hkey]
    exact hcall
  rw [← hkey]
  unfold receiveDeviceCall
  rw [henabled, hkind.1, hsource, hd, hends.2]
  simp only [Bool.not_true, Bool.or_false, Bool.false_eq_true, if_false, hkind.2.1, hkind.2.2, hlookup, Option.filter_some,
    beq_self_eq_true, if_true, hphase, hremote, ne_eq, not_true_eq_false, or_self]
  exact AList.lookup_erase _ (p.endpoints e).deviceCalls

/-- **What the invariant gives.** -/
theorem unblocked_of_sound (hp : Sound p) : Unblocked p where
  released := by
    intro e call hcall hnot
    by_cases hconfirmed : Confirmed call
    · obtain hholds | ⟨m, hm, hends⟩ := hp.confirmed e call hcall hconfirmed
      · exact absurd hholds hnot
      · refine Or.inr ⟨m, hm, end_removes hp hm hcall hends ?_⟩
        rw [hconfirmed.1]
        decide
    · refine Or.inl fun now hnow => ?_
      have hlookup : (p.endpoints e).deviceCalls.lookup (p.peerKey e) = some call := hcall
      have hexpired : expired now call = true := by
        unfold expired
        rw [Bool.and_eq_true, Bool.or_eq_true, decide_eq_true_eq, decide_eq_true_eq, Bool.not_eq_true']
        refine ⟨?_, hnow⟩
        by_cases hactive : call.phase = .active
        · right
          by_contra hc
          exact hconfirmed ⟨hactive, by simpa using hc⟩
        · exact Or.inl hactive
      rw [lookup_expire, hlookup]
      exact Option.filter_some_neg (by simp [hexpired])
  offers := by
    intro e hfree m id hkind hsender hsource hid now
    obtain ⟨d, hd⟩ := Option.isSome_iff_exists.mp (hp.enabled !e)
    have henabled : (p.endpoints e).deviceId.isNone = false := by
      rw [Option.isNone_eq_false_iff]
      exact hp.enabled e
    have hkey : canonicalPeerIdForSender (p.endpoints e).manager m.sender = p.peerKey e := by
      rw [hsender]
      rfl
    have hlookup : (p.endpoints e).deviceCalls.lookup (canonicalPeerIdForSender (p.endpoints e).manager m.sender) = none := by
      rw [hkey]
      exact hfree
    unfold receiveDeviceCall
    rw [henabled, hkind, hsource, hd, hid]
    simp only [isCall, Bool.not_true, Bool.or_false, Bool.false_eq_true, if_false, if_true, receiveRequest, hlookup]
  crossed := by
    intro x y hx hy
    obtain h | h := hp.heard x y hx hy
    · exact Or.inl h
    · exact Or.inr (Or.inl h)

/-! ## What one endpoint does -/

/-- An endpoint's own step, as far as the other endpoint is concerned. -/
structure Turned (p : CallPair S) (e : Bool) (c' : CallManager S) (out : List SignalingMessage) : Prop where
  manager : c'.manager = (p.endpoints e).manager
  only : ∀ k call, c'.deviceCalls.lookup k = some call → k = p.peerKey e
  valid : ∀ call, c'.deviceCalls.lookup (p.peerKey e) = some call → validCallId call.id = true
  remote : ∀ call, c'.deviceCalls.lookup (p.peerKey e) = some call → call.phase ≠ .outgoing →
    call.remote = (p.endpoints !e).deviceId
  unconfirmed : ∀ call, c'.deviceCalls.lookup (p.peerKey e) = some call → call.phase ≠ .active → call.confirmed = false
  signed : ∀ m ∈ out, m.sender = (p.endpoints e).manager.publicId ∧ m.sourceDevice = (p.endpoints e).deviceId ∧
    ∀ id s d, Selects m id s d → (p.endpoints !e).deviceId = some d
  /-- A call that is confirmed was, or the step may confirm it. -/
  confirmed : ∀ call, c'.deviceCalls.lookup (p.peerKey e) = some call → Confirmed call →
    (∃ old, p.callOf e = some old ∧ old.id = call.id ∧ Confirmed old) ∨ Holds p (!e) call.id ∨
      ∃ m, (e, m) ∈ p.flight ∧ EndsCall m call.id
  /-- A call that the other endpoint has confirmed stays, or its end goes out. -/
  released : ∀ call, p.callOf (!e) = some call → Confirmed call → Holds p e call.id →
    (∃ call', c'.deviceCalls.lookup (p.peerKey e) = some call' ∧ call'.id = call.id) ∨ ∃ m ∈ out, EndsCall m call.id
  /-- A call that waits for an answer did before, or the other's request was heard. -/
  calling : ∀ call, c'.deviceCalls.lookup (p.peerKey e) = some call → call.phase = .outgoing →
    Calling p e call.id ∨ ∀ id, Calling p (!e) id → (e, id) ∈ p.offered

/-- The endpoint's table does not change, and nothing is sent. -/
theorem turned_none (hp : Sound p) : Turned p e (p.endpoints e) [] where
  manager := rfl
  only := hp.only e
  valid := hp.valid e
  remote := hp.remote e
  unconfirmed := hp.unconfirmed e
  signed := fun _ hm => by cases hm
  confirmed := fun call hcall hc => Or.inl ⟨call, hcall, rfl, hc⟩
  released := fun _ _ _ hholds => Or.inl hholds
  calling := fun call hcall hphase => Or.inl ⟨call, hcall, rfl, hphase⟩

/-- The endpoint's call is replaced. -/
theorem turned_put (hp : Sound p) {out : List SignalingMessage} {call' : DeviceCall} (hvalid : validCallId call'.id = true)
    (hremote : call'.phase ≠ .outgoing → call'.remote = (p.endpoints !e).deviceId)
    (hunconfirmed : call'.phase ≠ .active → call'.confirmed = false)
    (hsigned : ∀ m ∈ out, m.sender = (p.endpoints e).manager.publicId ∧ m.sourceDevice = (p.endpoints e).deviceId ∧
      ∀ id s d, Selects m id s d → (p.endpoints !e).deviceId = some d)
    (hconfirmed : Confirmed call' → (∃ old, p.callOf e = some old ∧ old.id = call'.id ∧ Confirmed old) ∨
      Holds p (!e) call'.id ∨ ∃ m, (e, m) ∈ p.flight ∧ EndsCall m call'.id)
    (hid : ∀ old, p.callOf e = some old → call'.id = old.id)
    (hcalling : call'.phase = .outgoing → Calling p e call'.id ∨ ∀ id, Calling p (!e) id → (e, id) ∈ p.offered) :
    Turned p e (putCall (p.endpoints e) (p.peerKey e) call') out := by
  have hself : ∀ call, (putCall (p.endpoints e) (p.peerKey e) call').deviceCalls.lookup (p.peerKey e) = some call →
      call = call' := by
    intro call h
    rw [putCall, AList.lookup_insert] at h
    exact (Option.some.inj h).symm
  refine ⟨rfl, ?_, ?_, ?_, ?_, hsigned, ?_, ?_, ?_⟩
  · intro k call h
    by_cases hk : k = p.peerKey e
    · exact hk
    · rw [putCall, AList.lookup_insert_ne hk] at h
      exact hp.only e k call h
  · intro call h
    rw [hself call h]
    exact hvalid
  · intro call h
    rw [hself call h]
    exact hremote
  · intro call h
    rw [hself call h]
    exact hunconfirmed
  · intro call h
    rw [hself call h]
    exact hconfirmed
  · rintro call - - ⟨old, hold, hsame⟩
    exact Or.inl ⟨call', AList.lookup_insert _, (hid old hold).trans hsame⟩
  · intro call h
    rw [hself call h]
    exact hcalling

/-- The endpoint's call is gone. -/
theorem turned_erase (hp : Sound p) {c' : CallManager S} {out : List SignalingMessage}
    (hmanager : c'.manager = (p.endpoints e).manager) (hcalls : c'.deviceCalls = (p.endpoints e).deviceCalls.erase (p.peerKey e))
    (hsigned : ∀ m ∈ out, m.sender = (p.endpoints e).manager.publicId ∧ m.sourceDevice = (p.endpoints e).deviceId ∧
      ∀ id s d, Selects m id s d → (p.endpoints !e).deviceId = some d)
    (hreleased : ∀ call, p.callOf (!e) = some call → Confirmed call → Holds p e call.id → ∃ m ∈ out, EndsCall m call.id) :
    Turned p e c' out := by
  have hnone : ∀ call, c'.deviceCalls.lookup (p.peerKey e) = some call → False := by
    intro call h
    rw [hcalls, AList.lookup_erase] at h
    cases h
  refine ⟨hmanager, ?_, fun call h => (hnone call h).elim, fun call h => (hnone call h).elim,
    fun call h => (hnone call h).elim, hsigned, fun call h => (hnone call h).elim, ?_, fun call h => (hnone call h).elim⟩
  · intro k call h
    by_cases hk : k = p.peerKey e
    · exact hk
    · rw [hcalls, AList.lookup_erase_ne hk] at h
      exact hp.only e k call h
  · intro call hcall hc hholds
    exact Or.inr (hreleased call hcall hc hholds)

/-- A selection names the endpoint that answered. -/
theorem signed_selection {call : DeviceCall} {now : Nat} {c : CallManager S}
    (hmanager : c.manager = (p.endpoints e).manager) (hremote : call.remote = (p.endpoints !e).deviceId) {k : String} :
    ∀ m ∈ [c.selectionMessage k call now], m.sender = (p.endpoints e).manager.publicId ∧
      m.sourceDevice = (p.endpoints e).deviceId ∧ ∀ id s d, Selects m id s d → (p.endpoints !e).deviceId = some d := by
  intro m hm
  rw [List.mem_singleton] at hm
  subst hm
  refine ⟨?_, ?_, ?_⟩
  · rw [← hmanager]
    rfl
  · unfold deviceId
    rw [← hmanager]
    rfl
  · intro id s d hsel
    exact hremote ▸ (selects_selectionMessage.mp hsel).2.2

/-- A message that arrives, in time. -/
theorem turned_receive (hp : Sound p) {m : SignalingMessage} {now : Nat} {r : Received S} (hflight : (e, m) ∈ p.flight)
    (hprompt : ∀ id, callIdOf m = some id →
      (m.payload.flag "device_selection" = true ∨ m.payload.flag "device_selection_ack" = true →
        Holds p (!e) id ∨ EndTo p e id) ∧
      (EndsCall m id → ∀ call, p.callOf (!e) = some call → call.id = id → ¬Confirmed call))
    (h : Receives (p.endpoints e) m now r) : Turned p e r.state r.outbound := by
  obtain ⟨hsender, hsource, hselects⟩ := hp.signed e m hflight
  have hkey : senderKey (p.endpoints e) m = p.peerKey e := by
    unfold senderKey
    rw [hsender]
    rfl
  -- the entry that the handler finds is the endpoint's call with the other one
  have hcallOf : ∀ {call}, (p.endpoints e).deviceCalls.lookup (senderKey (p.endpoints e) m) = some call →
      p.callOf e = some call := by
    intro call hcall
    rw [hkey] at hcall
    exact hcall
  have hsameId : ∀ {call : DeviceCall} (call' : DeviceCall), p.callOf e = some call → call'.id = call.id →
      ∀ old, p.callOf e = some old → call'.id = old.id := by
    intro call call' hcall hid old hold
    rw [hcall] at hold
    cases hold
    exact hid
  cases h with
  | ignored consumed => exact turned_none hp
  | @rings id source hkind hsource' hid hfree =>
    rw [hkey] at hfree ⊢
    rw [hsource'] at hsource
    refine turned_put hp (Option.filter_eq_some_iff.mp hid).2 (fun _ => hsource) (fun _ => rfl) (fun _ hm => by cases hm) ?_ ?_ ?_
    · rintro ⟨hactive, -⟩
      cases hactive
    · intro old hold
      have hnone : p.callOf e = none := hfree
      rw [hnone] at hold
      cases hold
    · intro hphase
      cases hphase
  | @confirms call source hkind hsource' hid hcall hack hinitiator hphase hremote =>
    have hcall' := hcallOf hcall
    rw [hkey]
    refine turned_put hp (hp.valid e call hcall') (hp.remote e call hcall') (fun hne => absurd hphase hne)
      (fun _ hm => by cases hm) ?_ (hsameId _ hcall' rfl) (fun hout => Or.inl ⟨call, hcall', rfl, hout⟩)
    intro _
    exact Or.inr ((hprompt call.id hid).1 (Or.inr hack))
  | @selected call source d hsel hid hcall hremote hself hphase =>
    have hcall' := hcallOf hcall
    rw [hkey]
    refine turned_put hp (hp.valid e call hcall') ?_ (fun hne => absurd rfl hne) ?_ ?_ (hsameId _ hcall' rfl)
      (fun hout => by cases hout)
    · intro _
      refine hp.remote e call hcall' ?_
      obtain hp' | hp' := hphase <;> rw [hp'] <;> decide
    · intro a ha
      rw [List.mem_singleton] at ha
      subst ha
      exact ⟨rfl, rfl, fun _ _ _ hs => absurd hs not_selects_ackMessage⟩
    · intro _
      exact Or.inr ((hprompt call.id hid).1 (Or.inl hsel.flag))
  | elsewhere hsel hid hcall hremote hother hphase => exact absurd (hselects _ _ _ hsel) hother
  | @first call source hkind hsource' hid hcall hinitiator hphase call' hcall' =>
    have hold := hcallOf hcall
    have hremote : call'.remote = (p.endpoints !e).deviceId := by
      rw [hcall', ← hsource, hsource']
    rw [hkey]
    refine turned_put hp (by rw [hcall']; exact hp.valid e call hold) (fun _ => hremote) ?_
      (signed_selection rfl hremote) ?_ (hsameId call' hold (by rw [hcall'])) ?_
    · intro hne
      rw [hcall'] at hne
      exact absurd rfl hne
    · rintro ⟨-, hconfirmed⟩
      have hnot := hp.unconfirmed e call hold (by rw [hphase]; decide)
      rw [hcall'] at hconfirmed
      rw [hnot] at hconfirmed
      cases hconfirmed
    · intro hout
      rw [hcall'] at hout
      cases hout
  | @again call source hkind hsource' hid hcall hinitiator hphase call' hcall' =>
    have hold := hcallOf hcall
    have hremote : call'.remote = (p.endpoints !e).deviceId := by
      rw [hcall']
      exact hp.remote e call hold (by rw [hphase]; decide)
    rw [hkey]
    refine turned_put hp (by rw [hcall']; exact hp.valid e call hold) (fun _ => hremote) ?_
      (signed_selection rfl hremote) ?_ (hsameId call' hold (by rw [hcall'])) ?_
    · intro hne
      rw [hcall'] at hne
      exact absurd hphase hne
    · intro hconfirmed
      rw [hcall'] at hconfirmed
      exact Or.inl ⟨call, hold, by rw [hcall'], hconfirmed⟩
    · intro hout
      rw [hcall'] at hout
      exact Or.inl ⟨call, hold, by rw [hcall'], hout⟩
  | @ended call source hends hcall hphase hremote =>
    have hold := hcallOf hcall
    rw [hkey]
    refine turned_erase hp rfl rfl (fun _ hm => by cases hm) ?_
    rintro call' hcall' hconfirmed ⟨old, hold', hsame⟩
    rw [hold] at hold'
    cases hold'
    exact absurd hconfirmed ((hprompt call.id hends.id).2 ⟨hends.kind, hends.id⟩ call' hcall' hsame.symm)

/-- A message of the user. -/
theorem turned_send (hp : Sound p) {kind : MessageType} {target : String} {fallback : Option FallbackRoom} {nonce : List UInt8}
    {now : Nat} {r : CallManager S × Option SignalingMessage}
    (hkey : canonicalPeerIdForSender (p.endpoints e).manager target = p.peerKey e)
    (hnonce : (p.endpoints e).startsCall kind target = true → nonce.length = 16)
    (hprompt : (p.endpoints e).startsCall kind target = true → ∀ id, Calling p (!e) id → (e, id) ∈ p.offered)
    (h : Sends (p.endpoints e) kind target fallback nonce now r) : Turned p e r.1 r.2.toList := by
  have hsigned : ∀ call, ∀ m ∈ (some (addressed (stamped (p.endpoints e) kind target fallback now) call)).toList,
      m.sender = (p.endpoints e).manager.publicId ∧ m.sourceDevice = (p.endpoints e).deviceId ∧
        ∀ id s d, Selects m id s d → (p.endpoints !e).deviceId = some d := by
    intro call m hm
    rw [Option.mem_toList] at hm
    cases hm
    exact ⟨rfl, rfl, fun _ _ _ hs => absurd hs not_selects_addressed⟩
  have hcallOf : ∀ {call}, (p.endpoints e).deviceCalls.lookup (canonicalPeerIdForSender (p.endpoints e).manager target) = call →
      p.callOf e = call := by
    intro call hcall
    rw [hkey] at hcall
    exact hcall
  have hsame : ∀ {call : DeviceCall} (call' : DeviceCall), p.callOf e = some call → call'.id = call.id →
      ∀ old, p.callOf e = some old → call'.id = old.id := by
    intro call call' hcall hid old hold
    rw [hcall] at hold
    cases hold
    exact hid
  cases h with
  | refused hkind => exact turned_none hp
  | placed hkind hfree =>
    have hnone := hcallOf hfree
    have hstarts : (p.endpoints e).startsCall kind target = true := by
      simp [startsCall, hkind, hfree]
    rw [hkey]
    refine turned_put hp (validCallId_hexEncode (hnonce hstarts)) (fun hne => absurd rfl hne) (fun _ => rfl) (hsigned _) ?_ ?_
      (fun _ => Or.inr (hprompt hstarts))
    · rintro ⟨hactive, -⟩
      cases hactive
    · intro old hold
      rw [hnone] at hold
      cases hold
  | @repeated call hkind hcall =>
    have hold := hcallOf hcall
    rw [hkey]
    exact turned_put hp (hp.valid e call hold) (hp.remote e call hold) (hp.unconfirmed e call hold) (hsigned _)
      (fun hc => Or.inl ⟨call, hold, rfl, hc⟩) (hsame _ hold rfl) (fun hout => Or.inl ⟨call, hold, rfl, hout⟩)
  | @accepts call hkind hcall hphase =>
    have hold := hcallOf hcall
    have hringing : call.phase ≠ .outgoing ∧ call.phase ≠ .active := by
      obtain h' | h' := hphase <;> rw [h'] <;> decide
    rw [hkey]
    refine turned_put hp (hp.valid e call hold) (fun _ => hp.remote e call hold hringing.1)
      (fun _ => hp.unconfirmed e call hold hringing.2) (hsigned _) ?_ (hsame _ hold rfl) (fun hout => by cases hout)
    rintro ⟨hactive, -⟩
    cases hactive
  | @hangsUp call hkind hcall =>
    have hold := hcallOf hcall
    rw [hkey]
    refine turned_erase hp rfl rfl (hsigned _) ?_
    rintro call' - - ⟨old, hold', hid⟩
    rw [hold] at hold'
    cases hold'
    refine ⟨_, Option.mem_toList.mpr rfl, hkind, ?_⟩
    rw [callIdOf_addressed (hp.valid e call hold), hid]

/-- A tick, when what expires is not confirmed at the other end. -/
theorem turned_tick (hp : Sound p) {now : Nat} (hprompt : ∀ call call', p.callOf e = some call → expired now call = true →
      p.callOf (!e) = some call' → call'.id = call.id → ¬Confirmed call') :
    Turned p e ((p.endpoints e).tick now).1 ((p.endpoints e).tick now).2 := by
  have hlookup : ∀ k call', ((p.endpoints e).tick now).1.deviceCalls.lookup k = some call' →
      ∃ call, (p.endpoints e).deviceCalls.lookup k = some call ∧ call' = ticked now call := by
    intro k call' h
    rw [lookup_tick] at h
    obtain ⟨call, hcall, rfl⟩ := Option.map_eq_some_iff.mp h
    exact ⟨call, (Option.filter_eq_some_iff.mp hcall).1, rfl⟩
  have hsame : ∀ call, (ticked now call).id = call.id ∧ (ticked now call).phase = call.phase ∧
      (ticked now call).remote = call.remote ∧ (ticked now call).confirmed = call.confirmed := by
    intro call
    unfold ticked
    split <;> exact ⟨rfl, rfl, rfl, rfl⟩
  refine ⟨manager_tick, ?_, ?_, ?_, ?_, ?_, ?_, ?_, ?_⟩
  · intro k call' h
    obtain ⟨call, hcall, -⟩ := hlookup k call' h
    exact hp.only e k call hcall
  · intro call' h
    obtain ⟨call, hcall, rfl⟩ := hlookup _ call' h
    rw [(hsame call).1]
    exact hp.valid e call hcall
  · intro call' h hphase
    obtain ⟨call, hcall, rfl⟩ := hlookup _ call' h
    rw [(hsame call).2.1] at hphase
    rw [(hsame call).2.2.1]
    exact hp.remote e call hcall hphase
  · intro call' h hphase
    obtain ⟨call, hcall, rfl⟩ := hlookup _ call' h
    rw [(hsame call).2.1] at hphase
    rw [(hsame call).2.2.2]
    exact hp.unconfirmed e call hcall hphase
  · intro m hm
    obtain ⟨k, call, hcall, -, hretries, rfl⟩ := mem_tick_out hm
    have hk := hp.only e k call hcall
    subst hk
    have hactive : call.phase = .active := by
      simp only [retries, Bool.and_eq_true, decide_eq_true_eq] at hretries
      exact hretries.1.1.2
    have hremote := hp.remote e call hcall (by rw [hactive]; decide)
    exact signed_selection (manager_dropCalls _) hremote _ (List.mem_singleton_self _)
  · intro call' h hconfirmed
    obtain ⟨call, hcall, rfl⟩ := hlookup _ call' h
    obtain ⟨hactive, hyes⟩ := hconfirmed
    rw [(hsame call).2.1] at hactive
    rw [(hsame call).2.2.2] at hyes
    exact Or.inl ⟨call, hcall, (hsame call).1.symm, hactive, hyes⟩
  · rintro call' hcall' hconfirmed ⟨call, hcall, hid⟩
    have hkept : expired now call = false := by
      by_contra hexpired
      rw [Bool.not_eq_false] at hexpired
      exact hprompt call call' hcall hexpired hcall' hid.symm hconfirmed
    have hlookup' : (p.endpoints e).deviceCalls.lookup (p.peerKey e) = some call := hcall
    refine Or.inl ⟨ticked now call, ?_, (hsame call).1.trans hid⟩
    rw [lookup_tick, hlookup', Option.filter_some_pos (by simp [hkept])]
    rfl
  · intro call' h hphase
    obtain ⟨call, hcall, rfl⟩ := hlookup _ call' h
    rw [(hsame call).2.1] at hphase
    exact Or.inl ⟨call, hcall, (hsame call).1.symm, hphase⟩

/-! ## One step -/

/-- What a step makes of the two endpoints: one of them turns; what was in flight stays, but for what the step takes out, and no end
of a call that is confirmed afterwards is taken out. -/
structure PairTurned (p p' : CallPair S) (e : Bool) (c' : CallManager S) (out : List SignalingMessage) : Prop where
  turned : Turned p e c' out
  endpoints : p'.endpoints = Function.update p.endpoints e c'
  flight : ∀ x ∈ p'.flight, x ∈ p.flight ∨ ∃ m ∈ out, x = (!e, m)
  sent : ∀ m ∈ out, (!e, m) ∈ p'.flight
  others : ∀ m, (!e, m) ∈ p.flight → (!e, m) ∈ p'.flight
  ends : ∀ m call, (e, m) ∈ p.flight → c'.deviceCalls.lookup (p.peerKey e) = some call → Confirmed call → EndsCall m call.id →
    (e, m) ∈ p'.flight
  offered : ∀ x ∈ p.offered, x ∈ p'.offered

section

variable {c' : CallManager S} {out : List SignalingMessage} (hp : Sound p) (ht : PairTurned p p' e c' out)

include ht

theorem endpoints_self : p'.endpoints e = c' := by
  rw [ht.endpoints, Function.update_self]

theorem endpoints_other : p'.endpoints (!e) = p.endpoints (!e) := by
  rw [ht.endpoints, Function.update_of_ne (by cases e <;> decide)]

theorem manager_eq (e' : Bool) : (p'.endpoints e').manager = (p.endpoints e').manager := by
  by_cases he : e' = e
  · subst he
    rw [endpoints_self ht, ht.turned.manager]
  · rw [ht.endpoints, Function.update_of_ne he]

theorem deviceId_eq (e' : Bool) : (p'.endpoints e').deviceId = (p.endpoints e').deviceId := by
  unfold deviceId
  rw [manager_eq ht]

theorem peerKey_eq (e' : Bool) : p'.peerKey e' = p.peerKey e' := by
  unfold CallPair.peerKey
  rw [manager_eq ht, manager_eq ht]

theorem callOf_self : p'.callOf e = c'.deviceCalls.lookup (p.peerKey e) := by
  unfold CallPair.callOf
  rw [endpoints_self ht, peerKey_eq ht]

theorem callOf_other : p'.callOf (!e) = p.callOf (!e) := by
  unfold CallPair.callOf
  rw [endpoints_other ht, peerKey_eq ht]

omit ht in
theorem side_cases (e e' : Bool) : e' = e ∨ e' = !e := by
  cases e <;> cases e' <;> simp

theorem endTo_mono {id : String} (h : EndTo p (!e) id) : EndTo p' (!e) id := by
  obtain ⟨m, hm, hends⟩ := h
  exact ⟨m, ht.others m hm, hends⟩

/-- A call that waits for an answer did before, or it is the turned endpoint's and the other's request was heard. -/
theorem calling_cases {e' : Bool} {id : String} (h : Calling p' e' id) :
    Calling p e' id ∨ (e' = e ∧ ∀ x, Calling p (!e) x → (e, x) ∈ p'.offered) := by
  obtain ⟨call, hcall, rfl, hphase⟩ := h
  obtain rfl | rfl := side_cases e e'
  · rw [callOf_self ht] at hcall
    obtain h | h := ht.turned.calling call hcall hphase
    · exact Or.inl h
    · exact Or.inr ⟨rfl, fun x hx => ht.offered _ (h x hx)⟩
  · rw [callOf_other ht] at hcall
    exact Or.inl ⟨call, hcall, rfl, hphase⟩

include hp

theorem confirmed_turned : ∀ e' call, p'.callOf e' = some call → Confirmed call → Holds p' (!e') call.id ∨ EndTo p' e' call.id := by
  intro e' call hcall hconfirmed
  obtain rfl | rfl := side_cases e e'
  · rw [callOf_self ht] at hcall
    have hholds : Holds p (!e') call.id → Holds p' (!e') call.id := by
      rintro ⟨other, hother, hid⟩
      exact ⟨other, by rw [callOf_other ht]; exact hother, hid⟩
    have hend : EndTo p e' call.id → EndTo p' e' call.id := by
      rintro ⟨m, hm, hends⟩
      exact ⟨m, ht.ends m call hm hcall hconfirmed hends, hends⟩
    obtain ⟨old, hold, hid, hc⟩ | hdirect := ht.turned.confirmed call hcall hconfirmed
    · obtain h | h := hp.confirmed e' old hold hc
      · exact Or.inl (hholds (hid ▸ h))
      · exact Or.inr (hend (hid ▸ h))
    · exact hdirect.imp hholds hend
  · rw [callOf_other ht] at hcall
    rw [Bool.not_not]
    obtain h | h := hp.confirmed (!e) call hcall hconfirmed
    · rw [Bool.not_not] at h
      obtain ⟨call', hcall', hid⟩ | ⟨m, hm, hends⟩ := ht.turned.released call hcall hconfirmed h
      · exact Or.inl ⟨call', by rw [callOf_self ht]; exact hcall', hid⟩
      · exact Or.inr ⟨m, ht.sent m hm, hends⟩
    · exact Or.inr (endTo_mono ht h)

theorem heard_turned : ∀ x y, Calling p' false x → Calling p' true y → (true, x) ∈ p'.offered ∨ (false, y) ∈ p'.offered := by
  have hother : ∀ x, Calling p' (!e) x → Calling p (!e) x := by
    rintro x ⟨call, hcall, hid, hphase⟩
    rw [callOf_other ht] at hcall
    exact ⟨call, hcall, hid, hphase⟩
  intro x y hx hy
  obtain hx' | ⟨hside, hheard⟩ := calling_cases ht hx
  · obtain hy' | ⟨hside, hheard⟩ := calling_cases ht hy
    · obtain h | h := hp.heard x y hx' hy'
      · exact Or.inl (ht.offered _ h)
      · exact Or.inr (ht.offered _ h)
    · subst hside
      exact Or.inl (hheard x (hother x hx))
  · subst hside
    exact Or.inr (hheard y (hother y hy))

/-- **A turn keeps the invariant.** -/
theorem sound_turned : Sound p' where
  enabled := by
    intro e'
    rw [deviceId_eq ht]
    exact hp.enabled e'
  only := by
    intro e' k call h
    rw [peerKey_eq ht]
    obtain rfl | rfl := side_cases e e'
    · rw [endpoints_self ht] at h
      exact ht.turned.only k call h
    · rw [endpoints_other ht] at h
      exact hp.only _ k call h
  valid := by
    intro e' call h
    obtain rfl | rfl := side_cases e e'
    · rw [callOf_self ht] at h
      exact ht.turned.valid call h
    · rw [callOf_other ht] at h
      exact hp.valid _ call h
  remote := by
    intro e' call h
    rw [deviceId_eq ht]
    obtain rfl | rfl := side_cases e e'
    · rw [callOf_self ht] at h
      exact ht.turned.remote call h
    · rw [callOf_other ht] at h
      exact hp.remote _ call h
  unconfirmed := by
    intro e' call h
    obtain rfl | rfl := side_cases e e'
    · rw [callOf_self ht] at h
      exact ht.turned.unconfirmed call h
    · rw [callOf_other ht] at h
      exact hp.unconfirmed _ call h
  signed := by
    intro e' m hm
    rw [manager_eq ht, deviceId_eq ht, deviceId_eq ht]
    obtain hold | ⟨m', hm', heq⟩ := ht.flight _ hm
    · exact hp.signed e' m hold
    · cases heq
      rw [Bool.not_not]
      exact ht.turned.signed m hm'
  confirmed := confirmed_turned hp ht
  heard := heard_turned hp ht

end

/-- Nothing turns, and a message that no confirmed call waits for is gone. -/
theorem sound_shrink (hp : Sound p) {flight : List (Bool × SignalingMessage)} (hsub : ∀ x ∈ flight, x ∈ p.flight)
    (hends : ∀ e m call, (e, m) ∈ p.flight → p.callOf e = some call → Confirmed call → EndsCall m call.id → (e, m) ∈ flight) :
    Sound { p with flight := flight } where
  enabled := hp.enabled
  only := hp.only
  valid := hp.valid
  remote := hp.remote
  unconfirmed := hp.unconfirmed
  signed := fun e m hm => hp.signed e m (hsub _ hm)
  confirmed := by
    intro e call hcall hconfirmed
    obtain h | ⟨m, hm, hm'⟩ := hp.confirmed e call hcall hconfirmed
    · exact Or.inl h
    · exact Or.inr ⟨m, hends e m call hm hcall hconfirmed hm', hm'⟩
  heard := hp.heard

theorem mem_eraseIdx_of_ne {α : Type} {l : List α} {i : Nat} {x y : α} (hx : x ∈ l) (hy : l[i]? = some y) (hne : x ≠ y) :
    x ∈ l.eraseIdx i := by
  obtain ⟨j, hj⟩ := List.mem_iff_getElem?.mp hx
  refine List.mem_eraseIdx_iff_getElem?.mpr ⟨j, ?_, hj⟩
  rintro rfl
  rw [hj] at hy
  exact hne (Option.some.inj hy)

theorem mem_update_flight {flight : List (Bool × SignalingMessage)} {out : List SignalingMessage} {x : Bool × SignalingMessage} :
    (x ∈ flight ++ out.map fun m => (!e, m)) ↔ x ∈ flight ∨ ∃ m ∈ out, x = (!e, m) := by
  simp only [List.mem_append, List.mem_map, @eq_comm _ x]

/-- An end does not leave the confirmed call it names. -/
theorem end_arrived (hp : Sound p) {m : SignalingMessage} {call : DeviceCall} {now : Nat} (hflight : (e, m) ∈ p.flight)
    (hends : EndsCall m call.id) (hconfirmed : Confirmed call)
    (hcall : ((p.endpoints e).receiveDeviceCall m true now).state.deviceCalls.lookup (p.peerKey e) = some call) : False := by
  have hkept : p.callOf e = some call := by
    by_contra hnot
    have hkind : ∀ ty, ty ≠ .callReject → ty ≠ .callEnd → m.msgType ≠ ty := by
      intro ty hreject hend heq
      obtain hk | hk := hends.1
      · exact hreject (heq ▸ hk)
      · exact hend (heq ▸ hk)
    have hkey : senderKey (p.endpoints e) m = p.peerKey e := by
      unfold senderKey
      rw [(hp.signed e m hflight).1]
      rfl
    generalize hr : (p.endpoints e).receiveDeviceCall m true now = r at hcall
    have h : Receives (p.endpoints e) m now r := hr ▸ receives true
    cases h with
    | ignored consumed => exact hnot hcall
    | rings hk => exact hkind _ (by decide) (by decide) hk
    | confirms hk => exact hkind _ (by decide) (by decide) hk
    | selected hsel => exact hkind _ (by decide) (by decide) hsel.kind
    | elsewhere hsel => exact hkind _ (by decide) (by decide) hsel.kind
    | first hk => exact hkind _ (by decide) (by decide) hk
    | again hk => exact hkind _ (by decide) (by decide) hk
    | ended hends hcall' hphase hremote =>
      rw [hkey, eraseCall, AList.lookup_erase] at hcall
      cases hcall
  rw [end_removes hp hflight hkept hends (by rw [hconfirmed.1]; decide) now] at hcall
  cases hcall

theorem sound_step (hp : Sound p) {act : PairAct} (hprompt : Prompt p act) (h : pairStep p act = some p') : Sound p' := by
  cases act with
  | send e kind target fallback nonce now =>
    simp only [pairStep] at h
    split at h
    · cases h
    · rename_i hguard
      simp only [Bool.or_eq_true, Bool.not_eq_true', decide_eq_true_eq, not_or, Bool.not_eq_false, not_not] at hguard
      have hsends : Sends (p.endpoints e) kind target fallback nonce now _ := sends (hp.enabled e) hguard.1 target fallback nonce
      -- whatever is drawn, the step is the same to the two endpoints
      have hturned : ∀ drawn, ((p.endpoints e).startsCall kind target = true → nonce.length = 16) →
          Sound { p.update e _ _ with drawn := drawn } := fun drawn hnonce => by
        refine sound_turned hp (e := e) ⟨turned_send hp hguard.2 hnonce hprompt hsends, rfl, ?_, ?_, ?_, ?_, fun _ hx => hx⟩
        · intro x hx
          exact mem_update_flight.mp hx
        · intro m hm
          exact mem_update_flight.mpr (Or.inr ⟨m, hm, rfl⟩)
        · intro m hm
          exact mem_update_flight.mpr (Or.inl hm)
        · intro m call hm _ _ _
          exact mem_update_flight.mpr (Or.inl hm)
      split at h
      · rename_i hstarts
        split at h
        · cases h
        · rename_i hfresh
          rw [not_or, not_not] at hfresh
          cases h
          exact hturned _ fun _ => hfresh.1
      · rename_i hstarts
        cases h
        exact hturned p.drawn fun hs => absurd hs hstarts
  | deliver index now =>
    simp only [pairStep] at h
    split at h
    · cases h
    · rename_i e msg hmsg
      split at h
      · cases h
      · cases h
        have hreceives : Receives (p.endpoints e) msg now _ := receives true
        have hturned := turned_receive hp (List.mem_of_getElem? hmsg) (fun id hid => hprompt e msg id hmsg hid) hreceives
        refine sound_turned hp (e := e) ⟨hturned, rfl, ?_, ?_, ?_, ?_, ?_⟩
        · intro x hx
          exact (mem_update_flight.mp hx).imp_left List.mem_of_mem_eraseIdx
        · intro m hm
          exact mem_update_flight.mpr (Or.inr ⟨m, hm, rfl⟩)
        · intro m hm
          refine mem_update_flight.mpr (Or.inl (mem_eraseIdx_of_ne hm hmsg ?_))
          intro heq
          have hside := (Prod.mk.inj heq).1
          cases e <;> cases hside
        · -- an end that arrives has ended what it names
          intro m call hm hcall hconfirmed hends
          refine mem_update_flight.mpr (Or.inl (mem_eraseIdx_of_ne hm hmsg ?_))
          intro heq
          cases (Prod.mk.inj heq).2
          exact end_arrived hp hm hends hconfirmed hcall
        · intro x hx
          exact List.mem_append_left _ hx
  | lose index =>
    simp only [pairStep] at h
    split at h
    · rename_i hindex
      cases h
      refine sound_shrink hp (fun x hx => List.mem_of_mem_eraseIdx hx) ?_
      intro e m call hm hcall hconfirmed hends
      obtain ⟨y, hy⟩ : ∃ y, p.flight[index]? = some y := ⟨_, List.getElem?_eq_getElem hindex⟩
      refine mem_eraseIdx_of_ne hm hy ?_
      rintro rfl
      exact hprompt e m call hy hcall hends hconfirmed
    · cases h
  | tick e now =>
    cases h
    refine sound_turned hp (e := e) ⟨turned_tick hp hprompt, rfl, ?_, ?_, ?_, ?_, fun _ hx => hx⟩
    · intro x hx
      exact mem_update_flight.mp hx
    · intro m hm
      exact mem_update_flight.mpr (Or.inr ⟨m, hm, rfl⟩)
    · intro m hm
      exact mem_update_flight.mpr (Or.inl hm)
    · intro m call hm _ _ _
      exact mem_update_flight.mpr (Or.inl hm)

end CallReleaseAux

open CallReleaseAux

/-- **A finished call does not block the next one.** In every run of two endpoints whose steps are prompt, a call that the other
endpoint no longer holds expires or has its end on the way, and of two requests that cross one is offered. -/
theorem finished_call_released (p₀ : CallPair S) (h0 : p₀.Initial) (acts : List PairAct) (p : CallPair S)
    (hmeets : Meets pairStep Prompt p₀ acts) (h : run pairStep p₀ acts = some p) : Unblocked p :=
  unblocked_of_sound (meets_invariant Sound (fun _ _ _ hs hprompt hstep => sound_step hs hprompt hstep) (sound_initial h0) hmeets h)

namespace CallReleaseAux

/-- Two endpoints, before the first call. -/
def samplePair : CallPair Unit where
  endpoints e := if e then sampleEndpoint "callee" (sampleDevice 2) else sampleEndpoint "caller" (sampleDevice 1)
  flight := []
  drawn := []
  offered := []

theorem samplePair_initial : samplePair.Initial where
  enabled := by decide
  idle := by
    intro e
    cases e <;> rfl
  silent := rfl

/-- A request, and its arrival. -/
def heardCall : List PairAct := [.send false .callRequest "callee" none (List.replicate 16 7) 0, .deliver 0 1]

theorem heardCall_prompt : Meets pairStep Prompt samplePair heardCall := by
  refine ⟨?_, fun p hp => ⟨?_, fun _ _ => trivial⟩⟩
  · rintro - id ⟨call, hcall, -⟩
    cases hcall
  · have hfacts : ((pairStep samplePair (.send false .callRequest "callee" none (List.replicate 16 7) 0)).all fun p =>
        p.flight.all fun x => decide (x.2.msgType = .callRequest) && !x.2.payload.flag "device_selection" &&
          !x.2.payload.flag "device_selection_ack") = true := by
      decide +kernel
    rw [hp, Option.all_some, List.all_eq_true] at hfacts
    intro e m id hm hid
    have hx := hfacts (e, m) (List.mem_of_getElem? hm)
    simp only [Bool.and_eq_true, decide_eq_true_eq, Bool.not_eq_true'] at hx
    obtain ⟨⟨hkind, hselection⟩, hack⟩ := hx
    refine ⟨?_, ?_⟩
    · rw [hselection, hack]
      rintro (h | h) <;> cases h
    · rintro ⟨h, -⟩
      rw [hkind] at h
      obtain h | h := h <;> cases h

/-- A call up to its confirmation; then the caller hangs up, and the message is lost. -/
def lostEnd : List PairAct := [
  .send false .callRequest "callee" none (List.replicate 16 7) 0, .deliver 0 1, .send true .callAccept "caller" none [] 2,
  .deliver 0 3, .deliver 0 4, .deliver 0 5, .send false .callEnd "callee" none [] 6, .lose 0]

/-- Both endpoints call, and both requests arrive. -/
def crossedCalls : List PairAct := [
  .send false .callRequest "callee" none (List.replicate 16 7) 0, .send true .callRequest "caller" none (List.replicate 16 8) 0,
  .deliver 0 1, .deliver 0 1]

/-- The endpoint's call is past its deadline and does not expire. -/
def stuck (p : CallPair Unit) (e : Bool) : Bool :=
  (p.callOf e).any fun call =>
    (((p.endpoints e).expireDeviceCalls call.deadline).1.deviceCalls.lookup (p.peerKey e)).isSome

end CallReleaseAux

theorem finished_call_released_sample : ∃ p, run pairStep samplePair heardCall = some p ∧ Unblocked p := by
  have hrun : (run pairStep samplePair heardCall).isSome = true := by decide +kernel
  obtain ⟨p, hp⟩ := Option.isSome_iff_exists.mp hrun
  exact ⟨p, hp, finished_call_released samplePair samplePair_initial heardCall p heardCall_prompt hp⟩

/-- A lost end leaves the callee with a confirmed call that nothing removes; and of two calls placed at the same time both requests
are refused. -/
theorem finished_call_kept : (∃ p, run pairStep samplePair lostEnd = some p ∧ p.flight = [] ∧ ¬Unblocked p) ∧
    ∃ p, run pairStep samplePair crossedCalls = some p ∧ p.flight = [] ∧ p.offered = [] ∧ ¬Unblocked p := by
  constructor
  · have hrun : ((run pairStep samplePair lostEnd).any fun p =>
        p.flight.isEmpty && (p.callOf false).isNone && stuck p true) = true := by
      decide +kernel
    obtain ⟨p, hp, hfacts⟩ := (Option.any_eq_true _ _).mp hrun
    simp only [Bool.and_eq_true, List.isEmpty_iff, Option.isNone_iff_eq_none] at hfacts
    obtain ⟨⟨hflight, hfree⟩, hstuck⟩ := hfacts
    refine ⟨p, hp, hflight, fun hun => ?_⟩
    obtain ⟨call, hcall, hkept⟩ := (Option.any_eq_true _ _).mp hstuck
    have hnot : ¬Holds p (!true) call.id := by
      rintro ⟨other, hother, -⟩
      rw [Bool.not_true, hfree] at hother
      cases hother
    obtain hexpires | ⟨m, hm, -⟩ := hun.released true call hcall hnot
    · rw [hexpires call.deadline (Nat.le_refl _)] at hkept
      cases hkept
    · rw [hflight] at hm
      cases hm
  · have hrun : ((run pairStep samplePair crossedCalls).any fun p => p.flight.isEmpty && p.offered.isEmpty &&
        ((p.callOf false).any fun call => decide (call.phase = .outgoing)) &&
        ((p.callOf true).any fun call => decide (call.phase = .outgoing))) = true := by
      decide +kernel
    obtain ⟨p, hp, hfacts⟩ := (Option.any_eq_true _ _).mp hrun
    simp only [Bool.and_eq_true, List.isEmpty_iff] at hfacts
    obtain ⟨⟨⟨hflight, hoffered⟩, hcaller⟩, hcallee⟩ := hfacts
    refine ⟨p, hp, hflight, hoffered, fun hun => ?_⟩
    obtain ⟨x, hx, hxphase⟩ := (Option.any_eq_true _ _).mp hcaller
    obtain ⟨y, hy, hyphase⟩ := (Option.any_eq_true _ _).mp hcallee
    have hcrossed := hun.crossed x.id y.id ⟨x, hx, rfl, of_decide_eq_true hxphase⟩ ⟨y, hy, rfl, of_decide_eq_true hyphase⟩
    rw [hoffered, hflight] at hcrossed
    obtain h | h | ⟨e, m, h, -⟩ := hcrossed <;> cases h

end DoubleSlash.Calls
