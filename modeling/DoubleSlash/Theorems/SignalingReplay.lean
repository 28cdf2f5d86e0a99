import DoubleSlash.Lib.Run
import DoubleSlash.Supernode.Signaling

/-!
# Signed messages that come again

What the guard of the signaling layer remembers, over every schedule of frames, connections and waiting: a control message that
was accepted is refused while it is remembered, in whatever spelling its signature comes.
-/

namespace DoubleSlash.Supernode

open Assoc Bytes Codec Protocol Relay Run Sfu Text Tls

/-! ## What is said of a run -/

/-- Two messages of one key with one text to sign and one signature. -/
def SameFrame (a b : WireMessage) : Prop :=
  b64urlDecode a.sender = b64urlDecode b.sender ∧ a.canonicalBytes = b.canonicalBytes ∧
    a.signature.bind b64urlDecode = b.signature.bind b64urlDecode

/-- No control message was accepted twice. -/
def NeverTwice (s : Signaling) : Prop :=
  s.accepted.Pairwise fun a b => isExempt a.msg = false → isExempt b.msg = false → ¬SameFrame a.msg b.msg

/-- If the message was accepted before, it was so within the window and its sender was not forgotten since. -/
def Remembered (s : Signaling) (msg : WireMessage) : Prop :=
  ∀ a ∈ s.accepted, isExempt a.msg = false → SameFrame a.msg msg → a.forgotten = false ∧ s.clock ≤ a.time + freshSecs

/-- A control message that comes so far as the guard is one it remembers, if it was accepted before. -/
def ArrivesRemembered (C : SignalingConfig) (s : Signaling) (ev : SignalingEvent) : Prop :=
  match ev with
  | .wsText c raw => ∀ conn msg, s.wsConnections.lookup c = some conn → WireMessage.fromJson C.serde raw = some msg →
      wsGate C s conn msg = .check → isExempt msg = false → Remembered s msg
  | .quicBytes c bytes => ∀ identity device raw msg, s.quicConnections.lookup c = some (identity, device) →
      fromUtf8 bytes = some raw → WireMessage.fromJson C.serde raw = some msg → quicGate C s identity device msg = true →
      isExempt msg = false → Remembered s msg
  | _ => True

namespace SignalingReplayAux

/-! ## Messages -/

/-- What a message that was accepted is: read from a text and signed. -/
structure Genuine (msg : WireMessage) : Prop where
  printed : (Json.obj msg.canonicalFields).Printed
  signed : ∃ sig bytes, msg.signature = some sig ∧ b64urlDecode sig = some bytes ∧ bytes.length = 64

/-- What the guard keys a message under. -/
def keyOf (msg : WireMessage) : List UInt8 := sigKey (utf8 (msg.signature.getD ""))

theorem fieldsPrinted_append {fs gs : List (String × Json)} (hf : Json.FieldsPrinted fs) (hg : Json.FieldsPrinted gs) :
    Json.FieldsPrinted (fs ++ gs) := by
  induction fs with
  | nil => exact hg
  | cons f fs ih => exact ⟨hf.1, ih hf.2⟩

theorem fieldsPrinted_device (name : String) (device : Option DeviceId) :
    Json.FieldsPrinted (WireMessage.deviceAddress name device) := by
  have hbytes : ∀ bytes : List UInt8, Json.AllPrinted (bytes.map fun b => .int b.toNat) := by
    intro bytes
    induction bytes with
    | nil => trivial
    | cons b bytes ih => exact ⟨trivial, ih⟩
  cases device with
  | none => trivial
  | some device => exact ⟨hbytes device.bytes, trivial⟩

theorem printed_ofFields {fields : List (String × Json)} {msg : WireMessage} (hp : (Json.obj fields).Printed)
    (h : WireMessage.ofFields fields = some msg) : (Json.obj msg.canonicalFields).Printed := by
  have hpayload : ∀ v, fields.lookup "payload" = some v → v.Printed := fun v => hp.lookup
  have htime : ∀ v, fields.lookup "timestamp" = some v → v.Printed := fun v => hp.lookup
  unfold WireMessage.ofFields at h
  simp only [Option.bind_eq_bind, Option.bind_eq_some_iff] at h
  obtain ⟨ty, -, source, -, device, -, h⟩ := h
  split at h
  · cases h
  · rw [← Option.some.inj h]
    refine fieldsPrinted_append (fieldsPrinted_append (fieldsPrinted_append (fieldsPrinted_append ?_ ?_) ?_) ?_) ?_
    · refine ⟨?_, trivial, trivial⟩
      dsimp only
      cases hlook : fields.lookup "payload" with
      | none => trivial
      | some v => exact hpayload v hlook
    · exact fieldsPrinted_device _ _
    · dsimp only
      cases (fields.lookup "target").bind Json.asStr with
      | none => trivial
      | some target => exact ⟨trivial, trivial⟩
    · exact fieldsPrinted_device _ _
    · refine ⟨?_, trivial, trivial, trivial⟩
      dsimp only
      cases hlook : fields.lookup "timestamp" with
      | none => exact isFloatText_of_point (by decide) (List.all_eq_true.mp (by decide))
      | some v => exact htime v hlook

theorem genuine_of_verifies {C : SignalingConfig} {s : Signaling} {raw : String} {msg : WireMessage}
    (hread : WireMessage.fromJson C.serde raw = some msg) (h : verifies C s msg = true) : Genuine msg := by
  constructor
  · unfold WireMessage.fromJson at hread
    split at hread
    · rename_i fields hfields
      exact printed_ofFields (C.serde.printed raw _ hfields) hread
    · cases hread
  · unfold verifies at h
    rw [Bool.and_eq_true] at h
    have hverify := h.1
    unfold WireMessage.verify at hverify
    split_ifs at hverify
    split at hverify
    · rename_i sigBytes pubBytes hsig hpub
      obtain ⟨sig, hsome, hdecode⟩ := Option.bind_eq_some_iff.mp hsig
      unfold verifyWithPub at hverify
      rw [Bool.and_eq_true, decide_eq_true_eq] at hverify
      exact ⟨sig, sigBytes, hsome, hdecode, hverify.1.2⟩
    · cases hverify

/-- The canonical bytes name the sender. -/
theorem sender_of_canonical {a b : WireMessage} (ha : Genuine a) (hb : Genuine b) (h : a.canonicalBytes = b.canonicalBytes) :
    a.sender = b.sender := by
  have hobj : Json.obj a.canonicalFields = Json.obj b.canonicalFields := Json.toVec_injective ha.printed hb.printed h
  have hfields : a.canonicalFields = b.canonicalFields := Json.obj.inj hobj
  have hsecond : ("sender", Json.str a.sender) = ("sender", Json.str b.sender) := (List.cons.inj (List.cons.inj hfields).2).1
  exact Json.str.inj (Prod.mk.inj hsecond).2

/-- A signature has one key in the guard, however it is spelled. -/
theorem sigKey_of_decode {sig sig' : String} {bytes : List UInt8} (h : b64urlDecode sig = some bytes)
    (h' : b64urlDecode sig' = some bytes) (hlen : bytes.length = 64) : sigKey (utf8 sig) = sigKey (utf8 sig') := by
  -- a spelling is the unpadded one and padding, and the key lies within the unpadded one
  have hkey : ∀ s : String, b64urlDecode s = some bytes → sigKey (utf8 s) = (utf8 (b64urlEncode bytes)).take 16 := by
    intro s hs
    unfold b64urlDecode at hs
    have htrim : b64urlEncode bytes = trimEndMatches '=' s := by
      unfold b64urlEncode
      rw [b64Body_of_groups hs, String.ofList_toList]
    obtain ⟨pad, hpad⟩ := List.rdropWhile_prefix (· == '=') (l := s.toList)
    have hs : s = b64urlEncode bytes ++ String.ofList pad := by
      rw [htrim]
      unfold trimEndMatches
      rw [← String.ofList_append, hpad, String.ofList_toList]
    have hlong : 16 ≤ (utf8 (b64urlEncode bytes)).length := by
      refine Nat.le_trans ?_ (length_le_utf8 _)
      unfold b64urlEncode
      rw [String.toList_ofList, List.length_map, length_b64Body, hlen]
      decide
    unfold sigKey
    rw [hs, utf8_append, List.take_append_of_le_length hlong, List.length_append, Nat.sub_eq_zero_of_le (by omega),
      List.replicate_zero, List.append_nil]
  rw [hkey sig h, hkey sig' h']

theorem key_of_same {a b : WireMessage} (ha : Genuine a) (hb : Genuine b) (h : SameFrame a b) :
    a.sender = b.sender ∧ keyOf a = keyOf b := by
  obtain ⟨-, hcanonical, hsig⟩ := h
  obtain ⟨sig, bytes, hsome, hdecode, hlen⟩ := ha.signed
  obtain ⟨sig', bytes', hsome', hdecode', -⟩ := hb.signed
  rw [hsome, hsome', Option.bind_some, Option.bind_some, hdecode, hdecode'] at hsig
  obtain rfl := Option.some.inj hsig
  refine ⟨sender_of_canonical ha hb hcanonical, ?_⟩
  unfold keyOf
  rw [hsome, hsome', Option.getD_some, Option.getD_some]
  exact sigKey_of_decode hdecode hdecode' hlen

/-! ## What the guard holds -/

/-- A record still counts. -/
def live (now firstSeen : ℚ) : Bool := decide (now - firstSeen ≤ freshSecs)

/-- The guard remembers what was accepted within the window from a sender it has not forgotten since, and nothing was accepted
twice. -/
structure Kept (clock : ℚ) (guard : HashMap String (HashMap (List UInt8) ℚ)) (accepted : List Accepted) : Prop where
  genuine : ∀ a ∈ accepted, Genuine a.msg
  recorded : ∀ a ∈ accepted, isExempt a.msg = false → a.forgotten = false → clock ≤ a.time + freshSecs →
    ∃ t, a.time ≤ t ∧ Recorded guard a.msg.sender (keyOf a.msg) t
  twice : accepted.Pairwise fun a b => isExempt a.msg = false → isExempt b.msg = false → ¬SameFrame a.msg b.msg

variable {clock : ℚ} {guard : HashMap String (HashMap (List UInt8) ℚ)} {accepted : List Accepted} {msg : WireMessage}

theorem checkAndRecord_eq_record (h : Genuine msg) :
    checkAndRecord guard msg clock = recordSignature live guard msg.sender (utf8 (msg.signature.getD "")) clock := by
  obtain ⟨sig, -, hsome, -⟩ := h.signed
  unfold checkAndRecord
  rw [hsome]
  rfl

theorem live_of_time {a : Accepted} {t : ℚ} (h : clock ≤ a.time + freshSecs) (ht : a.time ≤ t) : live clock t = true := by
  unfold live
  rw [decide_eq_true_eq]
  linarith

/-- Asking the guard keeps what it remembers. -/
theorem Kept.check (h : Kept clock guard accepted) (hmsg : Genuine msg) : Kept clock (checkAndRecord guard msg clock).1 accepted := by
  refine ⟨h.genuine, ?_, h.twice⟩
  intro a ha hcontrol hforgotten hclock
  obtain ⟨t, ht, hrecorded⟩ := h.recorded a ha hcontrol hforgotten hclock
  rw [checkAndRecord_eq_record hmsg]
  exact ⟨t, ht, recordSignature_keeps hrecorded (live_of_time hclock ht)⟩

/-- A control message that is new to the guard and remembered if it was accepted before was not accepted before. -/
theorem Kept.accept_control (h : Kept clock guard accepted) (hmsg : Genuine msg) (hnew : (checkAndRecord guard msg clock).2 = true)
    (hremembered : ∀ a ∈ accepted, isExempt a.msg = false → SameFrame a.msg msg → a.forgotten = false ∧ clock ≤ a.time + freshSecs) :
    Kept clock (checkAndRecord guard msg clock).1 (accepted ++ [⟨msg, clock, false⟩]) := by
  have hchecked := h.check hmsg
  rw [checkAndRecord_eq_record hmsg] at hnew hchecked ⊢
  refine ⟨?_, ?_, ?_⟩
  · intro a ha
    rcases List.mem_append.mp ha with ha | ha
    · exact h.genuine a ha
    · rw [List.mem_singleton.mp ha]
      exact hmsg
  · intro a ha hcontrol hforgotten hclock
    rcases List.mem_append.mp ha with ha | ha
    · exact hchecked.recorded a ha hcontrol hforgotten hclock
    · rw [List.mem_singleton.mp ha]
      exact ⟨clock, le_refl _, recordSignature_records hnew⟩
  · rw [List.pairwise_append]
    refine ⟨h.twice, List.pairwise_singleton _ _, ?_⟩
    intro a ha b hb hcontrol _ hsame
    rw [List.mem_singleton.mp hb] at hsame
    obtain ⟨hforgotten, hclock⟩ := hremembered a ha hcontrol hsame
    obtain ⟨t, ht, hrecorded⟩ := h.recorded a ha hcontrol hforgotten hclock
    obtain ⟨hsender, hkey⟩ := key_of_same (h.genuine a ha) hmsg hsame
    rw [hsender, hkey] at hrecorded
    have hrefused := recordSignature_refuses hrecorded (live_of_time hclock ht)
    exact Bool.false_ne_true (hrefused.symm.trans hnew)

/-- Bulk file data and audio are accepted as often as they come. -/
theorem Kept.accept_exempt (h : Kept clock guard accepted) (hmsg : Genuine msg) (hexempt : isExempt msg = true) (time : ℚ) :
    Kept clock guard (accepted ++ [⟨msg, time, false⟩]) := by
  have hnot : ∀ a ∈ [(⟨msg, time, false⟩ : Accepted)], ¬isExempt a.msg = false := by
    intro a ha
    rw [List.mem_singleton.mp ha, hexempt]
    exact Bool.true_eq_false_eq_False
  refine ⟨?_, ?_, ?_⟩
  · intro a ha
    rcases List.mem_append.mp ha with ha | ha
    · exact h.genuine a ha
    · rw [List.mem_singleton.mp ha]
      exact hmsg
  · intro a ha hcontrol
    rcases List.mem_append.mp ha with ha | ha
    · exact h.recorded a ha hcontrol
    · exact absurd hcontrol (hnot a ha)
  · rw [List.pairwise_append]
    exact ⟨h.twice, List.pairwise_singleton _ _, fun a _ b hb _ hcontrol => absurd hcontrol (hnot b hb)⟩

theorem Kept.forget (h : Kept clock guard accepted) (pid : String) :
    Kept clock (guard.erase pid) (accepted.map fun a => if a.msg.sender = pid then { a with forgotten := true } else a) := by
  have hmap : ∀ b ∈ accepted.map fun a => if a.msg.sender = pid then { a with forgotten := true } else a,
      ∃ a ∈ accepted, b.msg = a.msg ∧ b.time = a.time ∧ (b.forgotten = false → a.forgotten = false ∧ a.msg.sender ≠ pid) := by
    intro b hb
    obtain ⟨a, ha, rfl⟩ := List.mem_map.mp hb
    refine ⟨a, ha, ?_⟩
    split_ifs with hpid
    · exact ⟨rfl, rfl, fun h => by cases h⟩
    · exact ⟨rfl, rfl, fun h => ⟨h, hpid⟩⟩
  refine ⟨?_, ?_, ?_⟩
  · intro b hb
    obtain ⟨a, ha, hmsg, -⟩ := hmap b hb
    rw [hmsg]
    exact h.genuine a ha
  · intro b hb hcontrol hforgotten hclock
    obtain ⟨a, ha, hmsg, htime, hkept⟩ := hmap b hb
    obtain ⟨hforgotten, hpid⟩ := hkept hforgotten
    rw [hmsg] at hcontrol ⊢
    rw [htime] at hclock ⊢
    obtain ⟨t, ht, win, hwin, hkey⟩ := h.recorded a ha hcontrol hforgotten hclock
    exact ⟨t, ht, win, (AList.lookup_erase_ne hpid).trans hwin, hkey⟩
  · rw [List.pairwise_map]
    refine h.twice.imp ?_
    intro a b hab
    split_ifs <;> exact hab

theorem Kept.later (h : Kept clock guard accepted) {secs : ℚ} (hsecs : 0 ≤ secs) : Kept (clock + secs) guard accepted :=
  ⟨h.genuine, fun a ha hcontrol hforgotten hclock => h.recorded a ha hcontrol hforgotten (by linarith), h.twice⟩

/-! ## One event -/

/-- What is kept, of a state of the layer. -/
def Keeps (s : Signaling) : Prop := Kept s.clock s.guard s.accepted

variable {C : SignalingConfig} {s : Signaling}

theorem keeps_register (h : Keeps s) (haccept : Kept s.clock s.guard (s.accepted ++ [⟨msg, s.clock, false⟩])) (c : Nat)
    (conn : WsConnection) : Keeps (registerAndAccept s c conn msg) := by
  unfold registerAndAccept
  split_ifs
  · exact haccept
  · split
    · exact h
    · exact haccept

/-- What the checks before the guard look at stays when a message is counted. -/
theorem wsGate_counted (c : Nat) (conn conn' : WsConnection) :
    wsGate C (s.withWs c conn') (countControl conn s.clock) msg = wsGate C s conn msg := by
  unfold countControl
  split_ifs <;> rfl

theorem verifies_of_wsGate {conn : WsConnection} (h : wsGate C s conn msg = .check) : verifies C s msg = true := by
  unfold wsGate at h
  by_contra hnot
  rw [Bool.not_eq_true] at hnot
  rw [if_pos hnot] at h
  cases h

theorem keeps_wsFrame (h : Keeps s) {c : Nat} {conn : WsConnection} {raw : String} (hconn : s.wsConnections.lookup c = some conn)
    (hcond : ArrivesRemembered C s (.wsText c raw)) : Keeps (wsFrame C s c conn raw) := by
  unfold wsFrame
  split_ifs
  · exact h
  · cases hread : WireMessage.fromJson C.serde raw with
    | none => exact h
    | some msg =>
      dsimp only
      cases hexempt : isExempt msg with
      | true =>
        simp only [if_true, Bool.not_true, Bool.false_and, Bool.false_eq_true, if_false]
        have hgate : wsGate C (s.withWs c conn) conn msg = wsGate C s conn msg := rfl
        rw [hgate]
        cases hverdict : wsGate C s conn msg with
        | drop => exact h
        | close => exact h
        | check =>
          have hgenuine := genuine_of_verifies hread (verifies_of_wsGate hverdict)
          have hkept : Keeps (s.withWs c conn) := h
          exact keeps_register hkept (Kept.accept_exempt h hgenuine hexempt s.clock) c conn
      | false =>
        simp only [Bool.false_eq_true, if_false, Bool.not_false, Bool.true_and]
        split
        · exact h
        · rw [wsGate_counted]
          cases hverdict : wsGate C s conn msg with
          | drop => exact h
          | close => exact h
          | check =>
            have hgenuine := genuine_of_verifies hread (verifies_of_wsGate hverdict)
            have hremembered : Remembered s msg := hcond conn msg hconn hread hverdict hexempt
            have hchecked : Kept s.clock (checkAndRecord s.guard msg s.clock).1 s.accepted := Kept.check h hgenuine
            have hsame : (s.withWs c (countControl conn s.clock)).guard = s.guard := rfl
            have hclock : (s.withWs c (countControl conn s.clock)).clock = s.clock := rfl
            dsimp only
            rw [hsame, hclock]
            split_ifs with hnew
            · refine keeps_register ?_ (Kept.accept_control h hgenuine hnew hremembered) c _
              exact hchecked
            · exact hchecked

theorem keeps_quicFrame (h : Keeps s) {c : Nat} {identity : String} {device : Option DeviceId} {bytes : List UInt8}
    (hconn : s.quicConnections.lookup c = some (identity, device)) (hcond : ArrivesRemembered C s (.quicBytes c bytes)) :
    Keeps (quicFrame C s identity device bytes) := by
  unfold quicFrame
  cases htext : fromUtf8 bytes with
  | none => exact h
  | some raw =>
    dsimp only
    split_ifs
    · exact h
    · cases hread : WireMessage.fromJson C.serde raw with
      | none => exact h
      | some msg =>
        dsimp only
        split_ifs with hgate hnew
        · exact h
        · have hverdict : quicGate C s identity device msg = true := Bool.of_not_eq_false hgate
          have hverifies : verifies C s msg = true := by
            unfold quicGate at hverdict
            simp only [Bool.and_eq_true] at hverdict
            exact hverdict.1.1.1
          have hgenuine := genuine_of_verifies hread hverifies
          cases hexempt : isExempt msg with
          | true => exact Kept.accept_exempt (Kept.check h hgenuine) hgenuine hexempt s.clock
          | false =>
            exact Kept.accept_control h hgenuine hnew (hcond identity device raw msg hconn htext hread hverdict hexempt)
        · have hverdict : quicGate C s identity device msg = true := Bool.of_not_eq_false hgate
          have hverifies : verifies C s msg = true := by
            unfold quicGate at hverdict
            simp only [Bool.and_eq_true] at hverdict
            exact hverdict.1.1.1
          exact Kept.check h (genuine_of_verifies hread hverifies)

theorem keeps_wsCleanup (h : Keeps s) (c : Nat) (conn : WsConnection) : Keeps (wsCleanup s c conn) := by
  unfold wsCleanup
  dsimp only
  split
  · exact h
  · split_ifs <;> exact h

/-- **The step lemma.** -/
theorem keeps_step {s' : Signaling} {ev : SignalingEvent} (h : Keeps s) (hcond : ArrivesRemembered C s ev)
    (hstep : signalingStep C s ev = some s') : Keeps s' := by
  cases ev with
  | wait secs =>
    unfold signalingStep at hstep
    dsimp only at hstep
    split_ifs at hstep with hsecs
    rw [← Option.some.inj hstep]
    exact Kept.later h hsecs
  | wsOpen c =>
    unfold signalingStep at hstep
    dsimp only at hstep
    split_ifs at hstep
    rw [← Option.some.inj hstep]
    exact h
  | wsText c raw =>
    unfold signalingStep at hstep
    dsimp only at hstep
    split at hstep
    · cases hstep
    · rename_i conn hconn
      split_ifs at hstep
      rw [← Option.some.inj hstep]
      exact keeps_wsFrame h hconn hcond
  | wsEnd c =>
    obtain ⟨conn, -, rfl⟩ := Option.map_eq_some_iff.mp hstep
    exact keeps_wsCleanup h c conn
  | forget =>
    unfold signalingStep at hstep
    dsimp only at hstep
    split at hstep
    · cases hstep
    · rename_i pid rest _
      rw [← Option.some.inj hstep]
      exact Kept.forget h pid
  | quicOpen c identity device =>
    unfold signalingStep at hstep
    dsimp only at hstep
    split_ifs at hstep
    · rw [← Option.some.inj hstep]
      exact h
    · split at hstep
      · rw [← Option.some.inj hstep]
        exact h
      · rw [← Option.some.inj hstep]
        exact h
  | quicBytes c bytes =>
    obtain ⟨⟨identity, device⟩, hconn, rfl⟩ := Option.map_eq_some_iff.mp hstep
    exact keeps_quicFrame h hconn hcond
  | quicEnd c =>
    unfold signalingStep at hstep
    dsimp only at hstep
    split at hstep
    · cases hstep
    · split_ifs at hstep
      · rw [← Option.some.inj hstep]
        exact h
      · rw [← Option.some.inj hstep]
        exact h

theorem keeps_start (clock : ℚ) : Keeps (Signaling.start clock) :=
  ⟨fun _ ha => absurd ha List.not_mem_nil, fun _ ha => absurd ha List.not_mem_nil, List.Pairwise.nil⟩

end SignalingReplayAux

open SignalingReplayAux

/-- **No control message twice.** In every run in which each control message that comes so far as the guard, and was accepted
before, was accepted within the window and its sender not forgotten since. -/
theorem never_twice (C : SignalingConfig) (clock : ℚ) (acts : List SignalingEvent) (s : Signaling)
    (hrun : run (signalingStep C) (Signaling.start clock) acts = some s)
    (hmeets : Meets (signalingStep C) (ArrivesRemembered C) (Signaling.start clock) acts) : NeverTwice s :=
  (meets_invariant Keeps (fun _ _ _ h hcond hstep => keeps_step h hcond hstep) (keeps_start clock) hmeets hrun).twice

/-! ## A message that comes back after a disconnect -/

namespace SignalingReplayAux

def helloKey : List UInt8 := List.replicate 32 1

/-- A key that signs with itself, twice. -/
def pairVerify : Ed25519 := fun pk sig _ => decide (sig = pk ++ pk)

def helloFields : List (String × Json) :=
  [("payload", .obj []), ("sender", .str (b64urlEncodePadded helloKey)), ("signature", .str (b64urlEncode (helloKey ++ helloKey))),
    ("timestamp", .int 0), ("type", .str "hello"), ("v", .int 2)]

def helloText : String := String.ofList (Json.obj helloFields).text

/-- A parser of the one text. -/
def helloSerde : SerdeJson where
  fromStr raw := if raw = helloText then some (.obj helloFields) else none
  f64 _ := none
  printed raw v h := by
    split_ifs at h
    rw [← Option.some.inj h]
    exact ⟨trivial, trivial, trivial, trivial, trivial, trivial, trivial⟩

def helloConfig : SignalingConfig := ⟨helloSerde, pairVerify, false⟩

/-- A connection that says hello. -/
def greets : List SignalingEvent := [.wsOpen 0, .wsText 0 helloText]

def openConnection : WsConnection := ⟨none, none, 0, 0, false⟩

def greeted : Signaling := wsFrame helloConfig ((Signaling.start 0).withWs 0 openConnection) 0 openConnection helloText

theorem run_greets : run (signalingStep helloConfig) (Signaling.start 0) greets = some greeted := rfl

theorem meets_greets : Meets (signalingStep helloConfig) (ArrivesRemembered helloConfig) (Signaling.start 0) greets := by
  refine ⟨trivial, fun s' hs' => ⟨?_, fun _ _ => trivial⟩⟩
  have hopen : (Signaling.start 0).withWs 0 openConnection = s' := Option.some.inj hs'
  rw [← hopen]
  exact fun conn msg _ _ _ _ a ha => absurd ha List.not_mem_nil

/-- The peer says hello and disconnects; the same text comes again on another connection. -/
def comesBack : List SignalingEvent := [.wsOpen 0, .wsText 0 helloText, .wsEnd 0, .forget, .wsOpen 1, .wsText 1 helloText]

/-- Accepted is the message of the text. -/
def isHello (a : Accepted) : Bool :=
  decide (a.msg.sender = b64urlEncodePadded helloKey) && decide (a.msg.signature = some (b64urlEncode (helloKey ++ helloKey))) &&
    decide (a.msg.canonicalBytes = (Json.obj (helloFields.filter fun e => e.1 ≠ "signature")).toVec) && !isExempt a.msg

theorem comesBack_accepted : (run (signalingStep helloConfig) (Signaling.start 0) comesBack).any
    (fun s => decide (s.accepted.length = 2) && s.accepted.all isHello) = true := by
  decide +kernel

theorem same_of_isHello {a b : Accepted} (ha : isHello a = true) (hb : isHello b = true) :
    isExempt a.msg = false ∧ isExempt b.msg = false ∧ SameFrame a.msg b.msg := by
  unfold isHello at ha hb
  simp only [Bool.and_eq_true, decide_eq_true_eq, Bool.not_eq_true'] at ha hb
  obtain ⟨⟨⟨hsender, hsig⟩, hcanonical⟩, hcontrol⟩ := ha
  obtain ⟨⟨⟨hsender', hsig'⟩, hcanonical'⟩, hcontrol'⟩ := hb
  refine ⟨hcontrol, hcontrol', ?_, hcanonical.trans hcanonical'.symm, ?_⟩
  · rw [hsender, hsender']
  · rw [hsig, hsig']

end SignalingReplayAux

/-- A hello is accepted once. -/
theorem never_twice_greets : NeverTwice greeted := never_twice helloConfig 0 greets greeted run_greets meets_greets

/-- A hello that comes back after its sender disconnected is accepted a second time. -/
theorem never_twice_fails_disconnect :
    ¬∀ (C : SignalingConfig) (clock : ℚ) (acts : List SignalingEvent) (s : Signaling),
      run (signalingStep C) (Signaling.start clock) acts = some s → NeverTwice s := by
  intro h
  obtain ⟨s, hrun, haccepted⟩ := (Option.any_eq_true _ _).mp comesBack_accepted
  rw [Bool.and_eq_true, decide_eq_true_eq] at haccepted
  obtain ⟨hlen, hall⟩ := haccepted
  have htwice := h helloConfig 0 comesBack s hrun
  unfold NeverTwice at htwice
  obtain ⟨a, b, hab⟩ := List.length_eq_two.mp hlen
  rw [hab] at htwice hall
  obtain ⟨hcontrol, hcontrol', hsame⟩ :=
    same_of_isHello (List.all_eq_true.mp hall a (by simp)) (List.all_eq_true.mp hall b (by simp))
  exact (List.pairwise_cons.mp htwice).1 b (by simp) hcontrol hcontrol' hsame

end DoubleSlash.Supernode
