import DoubleSlash.Manager.Invites
import DoubleSlash.Manager.Files

/-!
# Inbound messages

`handle_inbound_inner` of `manager/inbound.rs`: what every message passes before it is dispatched on its type. A message is
dropped, with a log line, or handed to the handler of its type.
-/

namespace DoubleSlash.Manager

open Protocol Store Direct Assoc Codec Text

section

variable {S : Type} [DecidableEq S]

/-- `check_replay`: the guard afterwards, and whether the message is new. -/
def checkReplay (E : Env) (σ : ConnectionManager S) (msg : SignalingMessage) : ReplayGuard × Bool :=
  match msg.signature.bind b64urlDecode with
  | none => (σ.replay, false)
  | some sig => σ.replay.checkAndRecord msg.sender sig E.now

/-- The types that are honoured only from trusted peers. -/
def trustGated : MessageType → Bool
  | .chatMessage | .chatAck | .chatTyping | .callRequest | .callAccept | .callReject | .callEnd | .fileTransferOffer
  | .fileTransferAccept | .fileTransferReject | .fileTransferChunk | .fileTransferComplete | .fileTransferAck
  | .fileTransferError => true
  | _ => false

/-- Chat from another device of our own identity. -/
def ownChat (σ : ConnectionManager S) (msg : SignalingMessage) : Bool :=
  (msg.msgType == .chatMessage || msg.msgType == .chatAck || msg.msgType == .chatTyping) &&
    bare msg.sender == bare σ.publicId

/-- Own chat is taken only inside an envelope, from another of our devices, addressed to us. -/
def ownChatRefused (σ : ConnectionManager S) (msg : SignalingMessage) (t : Transport) : Bool :=
  !t.encrypted || σ.direct.deviceId.isNone || msg.sourceDevice.isNone || msg.sourceDevice == σ.direct.deviceId ||
    msg.target.all fun target => bare target != bare σ.publicId

/-- The types whose signatures are not remembered. -/
def dedupExempt (ty : MessageType) : Bool :=
  ty == .sfuAudio || isOrderedFilePayload ty

/-- The replay check, which bulk payload and audio do not take. -/
def noteReplay (E : Env) (σ : ConnectionManager S) (msg : SignalingMessage) : ReplayGuard × Bool :=
  if dedupExempt msg.msgType then (σ.replay, true) else checkReplay E σ msg

/-- The checks before the dispatch: the state afterwards and, for a message that is dropped, the effects of dropping it. Call
messages, which `receive_device_call` may answer itself, are outside the model; it lets every other type pass. -/
def screen (E : Env) (σ : ConnectionManager S) (msg : SignalingMessage) (t : Transport) :
    ConnectionManager S × Option (List Effect) :=
  let drop : List Effect := [.cut msg.sender 8]
  let noted := { σ with replay := (noteReplay E σ msg).1 }
  if verifyInboundSignature E.crypto E.now msg σ.direct.deviceId.isSome = false then (σ, some drop)
  else if msg.targetDevice.isSome ∧ msg.targetDevice ≠ σ.direct.deviceId then (σ, some [])
  else if (noteReplay E σ msg).2 = false then (noted, some drop)
  else if ownChat σ msg && ownChatRefused σ msg t then (noted, some [])
  else if trustGated msg.msgType && !ownChat σ msg && !σ.store.isTrustedSender msg.sender then (noted, some drop)
  else (noted, none)

/-- The handler of a message's type; `none` for the types outside the model. -/
def dispatch (E : Env) (σ : ConnectionManager S) (msg : SignalingMessage) (t : Transport) :
    Option (ConnectionManager S × List Effect) :=
  match msg.msgType with
  | .inviteHandshakeInit => some (inviteHandshakeInit E σ msg t)
  | .inviteHandshakeAccept => some (inviteHandshakeAccept E σ msg t)
  | .fileTransferOffer => some (fileTransferOffer E σ msg)
  | .fileTransferAccept => some (fileTransferAccept E σ msg)
  | .fileTransferReject => some (fileTransferReject E σ msg)
  | .fileTransferChunk => some (fileTransferChunk E σ msg)
  | .fileTransferComplete => some (fileTransferComplete E σ msg)
  | .fileTransferAck => some (fileTransferAck E σ msg)
  | .fileTransferError => some (fileTransferError E σ msg)
  | .sfuFileOffer => some (sfuFileOffer E σ msg (t.supernodeId.getD ""))
  | .sfuFileRequest => some (sfuFileRequest E σ msg (t.supernodeId.getD ""))
  | .sfuFileRevoke => some (sfuFileRevoke E σ msg)
  | .sfuFileChunk => some (sfuFileChunk E σ msg)
  | .sfuFileComplete => some (sfuFileComplete E σ msg)
  | _ => none

/-- `handle_inbound_inner` for a message that is not an envelope. -/
def handlePlain (E : Env) (σ : ConnectionManager S) (msg : SignalingMessage) (t : Transport) :
    Option (ConnectionManager S × List Effect) :=
  match (screen E σ msg t).2 with
  | some effects => some ((screen E σ msg t).1, effects)
  | none => dispatch E (screen E σ msg t).1 msg t

/-- `handle_inbound_inner`. An envelope that opens to a message of the same sender and devices is handled as that message, one
layer deep. -/
def handleInboundInner (E : Env) (σ : ConnectionManager S) (msg : SignalingMessage) (t : Transport) :
    Option (ConnectionManager S × List Effect) :=
  if msg.msgType = .encryptedSignal then
    match (screen E σ msg t).2 with
    | some effects => some ((screen E σ msg t).1, effects)
    | none =>
      let σ := (screen E σ msg t).1
      match E.openEnvelope msg with
      | none => some (σ, [.cut msg.sender 8])
      | some inner =>
        if inner.msgType = .encryptedSignal ∨ inner.sender ≠ msg.sender ∨ inner.sourceDevice ≠ msg.sourceDevice ∨
            inner.targetDevice ≠ msg.targetDevice then some (σ, [.cut msg.sender 8])
        else handlePlain E σ inner { t with encrypted := true }
  else handlePlain E σ msg t

/-- The message passes every check and is dispatched. -/
def Reaches (E : Env) (σ : ConnectionManager S) (msg : SignalingMessage) (t : Transport) : Prop :=
  (screen E σ msg t).2 = none

/-! ## What the checks leave alone -/

omit [DecidableEq S] in
/-- The checks change nothing but the replay guard. -/
theorem screen_state (E : Env) (σ : ConnectionManager S) (msg : SignalingMessage) (t : Transport) :
    ∃ replay, (screen E σ msg t).1 = { σ with replay := replay } := by
  unfold screen
  dsimp only
  split
  · exact ⟨σ.replay, rfl⟩
  split
  · exact ⟨σ.replay, rfl⟩
  split
  · exact ⟨_, rfl⟩
  split
  · exact ⟨_, rfl⟩
  split
  · exact ⟨_, rfl⟩
  · exact ⟨_, rfl⟩

omit [DecidableEq S] in
/-- A dropped message has no effect but to cut its sender for the log. -/
theorem screen_dropped {E : Env} {σ : ConnectionManager S} {msg : SignalingMessage} {t : Transport} {effects : List Effect}
    (h : (screen E σ msg t).2 = some effects) : ∀ e ∈ effects, e = .cut msg.sender 8 := by
  have : some effects = some [.cut msg.sender 8] ∨ some effects = some [] := by
    rw [← h]
    unfold screen
    dsimp only
    split
    · exact Or.inl rfl
    split
    · exact Or.inr rfl
    split
    · exact Or.inl rfl
    split
    · exact Or.inr rfl
    split
    · exact Or.inl rfl
    · simp_all [screen]
  rcases this with hs | hs <;> obtain rfl := Option.some.inj hs <;> simp

/-- **What can happen to a message.** It is dropped, with nothing changed but the replay guard and nothing done but cutting its
sender for the log, or it is dispatched. -/
theorem handlePlain_cases (E : Env) (σ : ConnectionManager S) (msg : SignalingMessage) (t : Transport) :
    (¬Reaches E σ msg t ∧ ∃ replay effects, handlePlain E σ msg t = some ({ σ with replay := replay }, effects) ∧
      ∀ e ∈ effects, e = .cut msg.sender 8) ∨
    (Reaches E σ msg t ∧ ∃ replay, handlePlain E σ msg t = dispatch E { σ with replay := replay } msg t) := by
  obtain ⟨replay, hstate⟩ := screen_state E σ msg t
  unfold Reaches handlePlain
  cases hs : (screen E σ msg t).2 with
  | some effects => exact Or.inl ⟨nofun, replay, effects, by rw [hstate], screen_dropped hs⟩
  | none => exact Or.inr ⟨rfl, replay, by rw [hstate]⟩

omit [DecidableEq S] in
/-- A signed message that is neither chat, call, file transfer nor exempt from the replay check reaches its handler exactly when
it is not addressed to another device and its signature is new. -/
theorem screen_control {E : Env} {σ : ConnectionManager S} {msg : SignalingMessage} {t : Transport}
    (hsig : verifyInboundSignature E.crypto E.now msg σ.direct.deviceId.isSome = true)
    (hgate : trustGated msg.msgType = false) (hexempt : dedupExempt msg.msgType = false) :
    Reaches E σ msg t ↔
      (msg.targetDevice = none ∨ msg.targetDevice = σ.direct.deviceId) ∧ (checkReplay E σ msg).2 = true := by
  have hown : ownChat σ msg = false := by
    cases hty : msg.msgType <;> simp_all [ownChat, trustGated]
  have hnote : noteReplay E σ msg = checkReplay E σ msg := by
    simp [noteReplay, hexempt]
  unfold Reaches screen
  simp only [hsig, hgate, hown, hnote, Bool.true_eq_false, if_false, Bool.false_and, Bool.false_eq_true]
  by_cases hdev : msg.targetDevice.isSome = true ∧ msg.targetDevice ≠ σ.direct.deviceId
  · rw [if_pos hdev]
    refine ⟨nofun, fun h => ?_⟩
    rcases h.1 with h | h
    · simp [h] at hdev
    · exact absurd h hdev.2
  · rw [if_neg hdev]
    have hor : msg.targetDevice = none ∨ msg.targetDevice = σ.direct.deviceId := by
      cases hd : msg.targetDevice with
      | none => exact Or.inl rfl
      | some d => exact Or.inr (by_contra fun hne => hdev ⟨by simp [hd], by rwa [hd]⟩)
    cases (checkReplay E σ msg).2 <;> simp [hor]

end

end DoubleSlash.Manager
