import DoubleSlash.Lib.Run
import DoubleSlash.Manager.Ws

/-!
# Nothing passes before the proof

What one connection writes and reports before the supernode has proved itself, what it reports afterwards, and the order of what the
task reports and writes over all its connections.
-/

namespace DoubleSlash.Manager

open Codec Protocol Run

section

variable (cfg : WsConfig) (Signed : List UInt8 → List UInt8 → Prop)

/-! ## What is recorded -/

namespace WsEntry

def event : WsEntry → Option WsEvent
  | .emitted event => some event
  | _ => none

def reading : WsEntry → Option (WsRead × Nat)
  | .read next now => some (next, now)
  | _ => none

def sending : WsEntry → Option (Nat × WsMessage)
  | .sent n frame => some (n, frame)
  | _ => none

end WsEntry

namespace Attempt

def events (a : Attempt) : List WsEvent := a.log.filterMap WsEntry.event

def reads (a : Attempt) : List (WsRead × Nat) := a.log.filterMap WsEntry.reading

end Attempt

/-- The attempt that is under way. -/
def WsPhase.attempt : WsPhase → Option Attempt
  | .connecting d | .proving d _ _ | .opening d _ | .live d => some d.attempt
  | _ => none

namespace WsTask

/-- Every attempt so far. -/
def attempts (s : WsTask) : List Attempt := s.past ++ s.phase.attempt.toList

def log (s : WsTask) : List WsEntry := s.attempts.flatMap Attempt.log

/-- What the task has reported, and the outbound messages it has written. -/
def events (s : WsTask) : List WsEvent := s.log.filterMap WsEntry.event

def sending (s : WsTask) : List (Nat × WsMessage) := s.log.filterMap WsEntry.sending

end WsTask

/-! ## What is allowed when -/

/-- HELLO, with the challenge of the attempt. -/
def IsHello (challenge : Option String) (frame : WsMessage) : Prop :=
  ∃ c now text, challenge = some c ∧ cfg.buildHello c now = some text ∧ frame = .text text

/-- The task gives up a node that did not agree to device routing, before HELLO. -/
def GivesUp (challenge : Option String) (frame : WsMessage) : Prop := challenge = none ∧ cfg.deviceId.isSome = true ∧ frame = .close

/-- What must not happen before the proof: anything is written but HELLO or the close of a connection that is given up, an outbound
message is taken, or the session or a message is reported. -/
def NeedsProof (challenge : Option String) : WsEntry → Prop
  | .read _ _ => False
  | .wrote frame => ¬IsHello cfg challenge frame ∧ ¬GivesUp cfg challenge frame
  | .took _ _ | .sent _ _ => True
  | .emitted (.wsConnected _) | .emitted (.wsSignalingMessage _ _) => True
  | .emitted (.wsDisconnected _) | .emitted (.deviceRoutingUnsupported _) => False

/-- What is read is a HelloProof with the challenge, signed by the key that the supernode's id spells. -/
def ProvesSupernode (challenge : String) (next : WsRead) : Prop :=
  ∃ text msg key canonical, next = .frame (.text text) ∧ cfg.parse text = some msg ∧ msg.msgType = .helloProof ∧
    (msg.payload.get "challenge").bind Json.asStr = some challenge ∧ b64urlDecode (Text.trimEndMatches '=' cfg.peerId) = some key ∧
    cfg.crypto.canonicalBytes msg = some canonical ∧ Signed key canonical

/-- The proof is accepted, at the time it is read. -/
def accepts (challenge : String) : WsRead × Nat → Bool
  | (.frame (.text text), now) =>
    (cfg.parse text).any fun msg => decide (msg.msgType = .helloProof) && cfg.isValidHelloProof msg challenge now
  | _ => false

/-- The message in a frame. -/
def parsed : WsRead × Nat → Option SignalingMessage
  | (.frame (.text text), _) => cfg.parse text
  | _ => none

/-- What is reported of a session: that it is there, each message before the proof and after it, and that it is over. -/
def sessionEvents (before after : List (WsRead × Nat)) : List WsEvent :=
  .wsConnected cfg.peerId ::
    (((before ++ after).filterMap (parsed cfg)).map (WsEvent.wsSignalingMessage cfg.peerId) ++ [.wsDisconnected cfg.peerId])

/-- Neither a session nor a message. -/
def WsEvent.IsQuiet : WsEvent → Prop
  | .wsConnected _ | .wsSignalingMessage _ _ => False
  | .wsDisconnected _ | .deviceRoutingUnsupported _ => True

def WsEvent.IsMessage : WsEvent → Prop
  | .wsSignalingMessage _ _ => True
  | _ => False

/-- The first proof that is accepted on a connection, and what was read before and after it. -/
structure ProvedBy (a : Attempt) (before : List (WsRead × Nat)) (proof : WsRead × Nat) (after : List (WsRead × Nat)) : Prop where
  reads : a.reads = before ++ proof :: after
  accepted : ∃ challenge, a.challenge = some challenge ∧ accepts cfg challenge proof = true ∧
    ∀ next ∈ before, accepts cfg challenge next = false

/-- No proof was accepted. -/
def Unproved (a : Attempt) : Prop :=
  ∀ challenge, a.challenge = some challenge → ∀ next ∈ a.reads, accepts cfg challenge next = false

end

namespace SupernodeLinksAux

variable {cfg : WsConfig}

/-! ## One attempt -/

@[simp] theorem events_add (a : Attempt) (entry : WsEntry) : (a.add entry).events = a.events ++ entry.event.toList := by
  cases hentry : entry.event <;> simp [Attempt.events, Attempt.add, List.filterMap_append, hentry]

@[simp] theorem reads_add (a : Attempt) (entry : WsEntry) : (a.add entry).reads = a.reads ++ entry.reading.toList := by
  cases hentry : entry.reading <;> simp [Attempt.reads, Attempt.add, List.filterMap_append, hentry]

@[simp] theorem challenge_add (a : Attempt) (entry : WsEntry) : (a.add entry).challenge = a.challenge := rfl

@[simp] theorem log_add (a : Attempt) (entry : WsEntry) : (a.add entry).log = a.log ++ [entry] := rfl

@[simp] theorem attempt_add (d : Dialing) (entry : WsEntry) : (d.add entry).attempt = d.attempt.add entry := rfl

/-- What needs a proof comes after one. -/
def Gated (cfg : WsConfig) (a : Attempt) : Prop :=
  ∀ before entry after, a.log = before ++ entry :: after → NeedsProof cfg a.challenge entry →
    ∃ challenge next now, a.challenge = some challenge ∧ WsEntry.read next now ∈ before ∧ accepts cfg challenge (next, now) = true

/-- A proof has been accepted. -/
def Accepted (cfg : WsConfig) (a : Attempt) : Prop :=
  ∃ challenge next now, a.challenge = some challenge ∧ WsEntry.read next now ∈ a.log ∧ accepts cfg challenge (next, now) = true

theorem gated_add {a : Attempt} {entry : WsEntry} (ha : Gated cfg a) (hentry : NeedsProof cfg a.challenge entry → Accepted cfg a) :
    Gated cfg (a.add entry) := by
  intro before entry' after hlog hneeds
  rw [log_add] at hlog
  rcases List.eq_nil_or_concat after with rfl | ⟨after', last, rfl⟩
  · obtain ⟨rfl, hlast⟩ := List.append_inj' hlog rfl
    obtain rfl : entry = entry' := by simpa using hlast
    exact hentry hneeds
  · have hsplit : a.log ++ [entry] = (before ++ entry' :: after') ++ [last] := by
      rw [hlog]
      simp
    obtain ⟨hlog', -⟩ := List.append_inj' hsplit rfl
    exact ha before entry' after' hlog' hneeds

theorem accepted_add {a : Attempt} (ha : Accepted cfg a) (entry : WsEntry) : Accepted cfg (a.add entry) := by
  obtain ⟨challenge, next, now, hchallenge, hmem, haccepts⟩ := ha
  exact ⟨challenge, next, now, hchallenge, List.mem_append_left _ hmem, haccepts⟩

theorem gated_start (url : String) : Gated cfg (.start url) := by
  intro before entry after hlog
  exact absurd hlog.symm (by simp [Attempt.start])

/-- A reply that is accepted proves the supernode. -/
theorem proves_of_accepts {Signed : List UInt8 → List UInt8 → Prop}
    (hunforgeable : ∀ key sig bytes, cfg.crypto.ed25519Verify key sig bytes = true → Signed key bytes) {challenge : String}
    {next : WsRead} {now : Nat} (haccepts : accepts cfg challenge (next, now) = true) : ProvesSupernode cfg Signed challenge next := by
  unfold accepts at haccepts
  split at haccepts
  · rename_i text now' heq
    obtain ⟨rfl, rfl⟩ := Prod.mk.inj heq
    obtain ⟨msg, hparse, hmsg⟩ := (Option.any_eq_true _ _).mp haccepts
    obtain ⟨htype, hvalid⟩ := (Bool.and_eq_true _ _).mp hmsg
    unfold WsConfig.isValidHelloProof at hvalid
    split at hvalid
    · cases hvalid
    · rename_i hsender
      split at hvalid
      · cases hvalid
      · rename_i hchallenge
        split at hvalid
        · rename_i sig key canonical hsig hkey hcanonical
          simp only [Bool.and_eq_true] at hvalid
          have hspelled : b64urlDecode (Text.trimEndMatches '=' cfg.peerId) = some key := by
            have hsame : Text.trimEndMatches '=' msg.sender = Text.trimEndMatches '=' cfg.peerId := by simpa using hsender
            rw [← hsame]
            exact b64urlDecode_unpadded hkey
          exact ⟨text, msg, key, canonical, rfl, hparse, of_decide_eq_true htype, by simpa using hchallenge, hspelled, hcanonical,
            hunforgeable key sig canonical hvalid.1.2⟩
        · cases hvalid
  · cases haccepts

/-- Before the proof: nothing that needs it, nothing reported but what is quiet. -/
structure Waiting (cfg : WsConfig) (a : Attempt) : Prop where
  gated : Gated cfg a
  quiet : ∀ event ∈ a.events, event.IsQuiet
  unproved : Unproved cfg a

/-- After the proof, with messages from before it that are not reported yet. -/
def Proven (cfg : WsConfig) (a : Attempt) (early : List SignalingMessage) : Prop :=
  Gated cfg a ∧ Accepted cfg a ∧ ∃ before proof after, ProvedBy cfg a before proof after ∧
    a.events ++ early.map (WsEvent.wsSignalingMessage cfg.peerId) ++ [.wsDisconnected cfg.peerId] = sessionEvents cfg before after

/-- What an attempt is after it. -/
def Finished (cfg : WsConfig) (a : Attempt) : Prop :=
  Gated cfg a ∧ (((∀ event ∈ a.events, event.IsQuiet) ∧ Unproved cfg a) ∨
    ∃ before proof after, ProvedBy cfg a before proof after ∧ a.events = sessionEvents cfg before after)

theorem waiting_start (url : String) : Waiting cfg (.start url) where
  gated := gated_start url
  quiet _ hevent := absurd hevent List.not_mem_nil
  unproved _ _ _ hnext := absurd hnext List.not_mem_nil

/-- An entry that needs no proof. -/
theorem waiting_add {a : Attempt} (ha : Waiting cfg a) (entry : WsEntry) (hneeds : ¬NeedsProof cfg a.challenge entry)
    (hread : ∀ challenge, a.challenge = some challenge → ∀ next ∈ entry.reading, accepts cfg challenge next = false) :
    Waiting cfg (a.add entry) where
  gated := gated_add ha.gated fun h => absurd h hneeds
  quiet event hevent := by
    rw [events_add, List.mem_append] at hevent
    rcases hevent with hold | hnew
    · exact ha.quiet event hold
    · cases entry with
      | emitted event' =>
        obtain rfl : event = event' := by simpa [WsEntry.event] using hnew
        cases event <;> first | trivial | exact absurd trivial hneeds
      | _ => simp [WsEntry.event] at hnew
  unproved challenge hchallenge next hnext := by
    rw [reads_add, List.mem_append] at hnext
    rcases hnext with hold | hnew
    · exact ha.unproved challenge hchallenge next hold
    · exact hread challenge hchallenge next (by simpa using hnew)

theorem finished_of_waiting {a : Attempt} (ha : Waiting cfg a) : Finished cfg (a.add (.emitted (.wsDisconnected cfg.peerId))) := by
  have hadd := waiting_add ha (.emitted (.wsDisconnected cfg.peerId)) id fun _ _ next hnext =>
    absurd hnext (by simp [WsEntry.reading])
  exact ⟨hadd.gated, Or.inl ⟨hadd.quiet, hadd.unproved⟩⟩

theorem provedBy_add {a : Attempt} {before after : List (WsRead × Nat)} {proof : WsRead × Nat} (ha : ProvedBy cfg a before proof after)
    (entry : WsEntry) : ProvedBy cfg (a.add entry) before proof (after ++ entry.reading.toList) where
  reads := by rw [reads_add, ha.reads, List.append_assoc, List.cons_append]
  accepted := ha.accepted

theorem provedBy_unread {a : Attempt} {before after : List (WsRead × Nat)} {proof : WsRead × Nat} (ha : ProvedBy cfg a before proof after)
    {entry : WsEntry} (hread : entry.reading = none) : ProvedBy cfg (a.add entry) before proof after := by
  have hadd := provedBy_add ha entry
  rwa [hread, Option.toList_none, List.append_nil] at hadd

/-- An entry after the proof that is neither read nor reported. -/
theorem proven_add {a : Attempt} {early : List SignalingMessage} (ha : Proven cfg a early) {entry : WsEntry}
    (hevent : entry.event = none) (hread : entry.reading = none) : Proven cfg (a.add entry) early := by
  obtain ⟨hgated, haccepted, before, proof, after, hproved, hevents⟩ := ha
  refine ⟨gated_add hgated fun _ => haccepted, accepted_add haccepted entry, before, proof, after, provedBy_unread hproved hread, ?_⟩
  rw [events_add, hevent, Option.toList_none, List.append_nil, hevents]

/-- The next of the messages from before the proof. -/
theorem proven_deliver {a : Attempt} {msg : SignalingMessage} {early : List SignalingMessage} (ha : Proven cfg a (msg :: early)) :
    Proven cfg (a.add (.emitted (.wsSignalingMessage cfg.peerId msg))) early := by
  obtain ⟨hgated, haccepted, before, proof, after, hproved, hevents⟩ := ha
  refine ⟨gated_add hgated fun _ => haccepted, accepted_add haccepted _, before, proof, after, provedBy_unread hproved rfl, ?_⟩
  rw [← hevents, events_add]
  simp [WsEntry.event]

/-- A frame after the proof, and the message it holds. -/
theorem proven_read {a : Attempt} (ha : Proven cfg a []) (next : WsRead) (now : Nat) :
    Proven cfg (a.add (.read next now)) (parsed cfg (next, now)).toList := by
  obtain ⟨hgated, haccepted, before, proof, after, hproved, hevents⟩ := ha
  have hproved' := provedBy_add hproved (.read next now)
  refine ⟨gated_add hgated fun _ => haccepted, accepted_add haccepted _, before, proof, _, hproved', ?_⟩
  have hcancel : a.events = .wsConnected cfg.peerId ::
      ((before ++ after).filterMap (parsed cfg)).map (WsEvent.wsSignalingMessage cfg.peerId) := by
    unfold sessionEvents at hevents
    rw [List.map_nil, List.append_nil, ← List.cons_append] at hevents
    exact (List.append_inj' hevents rfl).1
  rw [events_add, hcancel]
  cases hparsed : parsed cfg (next, now) <;> simp [sessionEvents, WsEntry.event, WsEntry.reading, hparsed, List.filterMap_append]

/-- The proof. -/
theorem proven_proof {a : Attempt} (hgated : Gated cfg a) (hevents : a.events = []) {challenge : String}
    (hchallenge : a.challenge = some challenge) (hunproved : ∀ next ∈ a.reads, accepts cfg challenge next = false) {next : WsRead}
    {now : Nat} (haccepts : accepts cfg challenge (next, now) = true) :
    Proven cfg ((a.add (.read next now)).add (.emitted (.wsConnected cfg.peerId))) (a.reads.filterMap (parsed cfg)) := by
  have haccepted : Accepted cfg (a.add (.read next now)) :=
    ⟨challenge, next, now, hchallenge, List.mem_append_right _ (List.mem_singleton.mpr rfl), haccepts⟩
  refine ⟨gated_add (gated_add hgated False.elim) fun _ => haccepted, accepted_add haccepted _, a.reads, (next, now), [], ?_, ?_⟩
  · refine ⟨?_, challenge, hchallenge, haccepts, hunproved⟩
    simp [WsEntry.reading]
  · simp [hevents, WsEntry.event, sessionEvents]

theorem finished_of_proven {a : Attempt} (ha : Proven cfg a []) : Finished cfg (a.add (.emitted (.wsDisconnected cfg.peerId))) := by
  obtain ⟨hgated, haccepted, before, proof, after, hproved, hevents⟩ := ha
  refine ⟨gated_add hgated fun _ => haccepted, Or.inr ⟨before, proof, after, provedBy_unread hproved rfl, ?_⟩⟩
  rw [← hevents, events_add]
  simp [WsEntry.event]

/-! ## What is written and drawn over all attempts -/

/-- The outbound messages that are written, in the order of their numbers, and the challenges, each of its own draw. -/
structure Books (attempts : List Attempt) (queued : List WsMessage) (taken : Nat) (drawn : List (List UInt8)) : Prop where
  ordered : (((attempts.flatMap Attempt.log).filterMap WsEntry.sending).map Prod.fst).Pairwise (· < ·)
  numbered : ∀ e ∈ (attempts.flatMap Attempt.log).filterMap WsEntry.sending, e.1 < taken ∧ queued[e.1]? = some e.2
  drawn : ∀ a ∈ attempts, ∀ challenge, a.challenge = some challenge → ∃ random ∈ drawn, newHelloChallenge random = challenge
  distinct : (attempts.filterMap Attempt.challenge).Nodup

theorem newHelloChallenge_injective : Function.Injective newHelloChallenge := by
  intro r r' heq
  have hchars : (b64Body r).map toUrlSafe = (b64Body r').map toUrlSafe := String.ofList_injective heq
  have hgroups := congrArg b64Groups hchars
  rw [b64Groups_b64Body, b64Groups_b64Body] at hgroups
  exact Option.some.inj hgroups

section

variable {past : List Attempt} {a : Attempt} {queued : List WsMessage} {taken : Nat} {drawn : List (List UInt8)}

theorem books_nil : Books [] [] 0 [] where
  ordered := List.Pairwise.nil
  numbered _ he := absurd he List.not_mem_nil
  drawn _ ha := absurd ha List.not_mem_nil
  distinct := List.nodup_nil

theorem sending_add (past : List Attempt) (a : Attempt) (entry : WsEntry) :
    ((past ++ [a.add entry]).flatMap Attempt.log).filterMap WsEntry.sending =
      ((past ++ [a]).flatMap Attempt.log).filterMap WsEntry.sending ++ entry.sending.toList := by
  cases hentry : entry.sending <;> simp [List.flatMap_append, List.filterMap_append, hentry]

theorem challenges_add (entry : WsEntry) :
    (past ++ [a.add entry]).filterMap Attempt.challenge = (past ++ [a]).filterMap Attempt.challenge := by
  simp [List.filterMap_append, List.filterMap_cons]

theorem books_add (hbooks : Books (past ++ [a]) queued taken drawn) {entry : WsEntry} (hentry : entry.sending = none) :
    Books (past ++ [a.add entry]) queued taken drawn := by
  have hsending := sending_add past a entry
  rw [hentry, Option.toList_none, List.append_nil] at hsending
  refine ⟨hsending ▸ hbooks.ordered, hsending ▸ hbooks.numbered, fun b hb challenge hchallenge => ?_,
    (challenges_add entry).symm ▸ hbooks.distinct⟩
  rcases List.mem_append.mp hb with hold | hnew
  · exact hbooks.drawn b (List.mem_append_left _ hold) challenge hchallenge
  · obtain rfl := List.mem_singleton.mp hnew
    exact hbooks.drawn a (List.mem_append_right _ (List.mem_singleton.mpr rfl)) challenge hchallenge

/-- The next outbound message is written. -/
theorem books_sent (hbooks : Books (past ++ [a]) queued taken drawn) {frame : WsMessage} (hframe : queued[taken]? = some frame) :
    Books (past ++ [a.add (.sent taken frame)]) queued (taken + 1) drawn := by
  have hsending := sending_add past a (.sent taken frame)
  rw [WsEntry.sending, Option.toList_some] at hsending
  refine ⟨?_, ?_, fun b hb challenge hchallenge => ?_, (challenges_add (.sent taken frame)).symm ▸ hbooks.distinct⟩
  · rw [hsending, List.map_append, List.pairwise_append]
    refine ⟨hbooks.ordered, List.pairwise_singleton _ _, fun n hn m hm => ?_⟩
    obtain ⟨e, he, rfl⟩ := List.mem_map.mp hn
    obtain rfl : m = taken := by simpa using hm
    exact (hbooks.numbered e he).1
  · rw [hsending]
    intro e he
    rcases List.mem_append.mp he with hold | hnew
    · exact ⟨Nat.lt_succ_of_lt (hbooks.numbered e hold).1, (hbooks.numbered e hold).2⟩
    · obtain rfl := List.mem_singleton.mp hnew
      exact ⟨Nat.lt_succ_self taken, hframe⟩
  · rcases List.mem_append.mp hb with hold | hnew
    · exact hbooks.drawn b (List.mem_append_left _ hold) challenge hchallenge
    · obtain rfl := List.mem_singleton.mp hnew
      exact hbooks.drawn a (List.mem_append_right _ (List.mem_singleton.mpr rfl)) challenge hchallenge

/-- A message that is taken, written or not. -/
theorem books_taken (hbooks : Books past queued taken drawn) : Books past queued (taken + 1) drawn where
  ordered := hbooks.ordered
  numbered e he := ⟨Nat.lt_succ_of_lt (hbooks.numbered e he).1, (hbooks.numbered e he).2⟩
  drawn := hbooks.drawn
  distinct := hbooks.distinct

theorem books_queue (hbooks : Books past queued taken drawn) (frame : WsMessage) : Books past (queued ++ [frame]) taken drawn where
  ordered := hbooks.ordered
  numbered e he := by
    obtain ⟨hlt, hget⟩ := hbooks.numbered e he
    exact ⟨hlt, by rw [List.getElem?_append_left (List.getElem?_eq_some_iff.mp hget).1, hget]⟩
  drawn := hbooks.drawn
  distinct := hbooks.distinct

theorem books_start (hbooks : Books past queued taken drawn) (url : String) : Books (past ++ [.start url]) queued taken drawn := by
  have hlog : (past ++ [Attempt.start url]).flatMap Attempt.log = past.flatMap Attempt.log := by simp [Attempt.start]
  refine ⟨hlog ▸ hbooks.ordered, hlog ▸ hbooks.numbered, fun b hb challenge hchallenge => ?_, ?_⟩
  · rcases List.mem_append.mp hb with hold | hnew
    · exact hbooks.drawn b hold challenge hchallenge
    · obtain rfl := List.mem_singleton.mp hnew
      cases hchallenge
  · simpa [List.filterMap_append, Attempt.start] using hbooks.distinct

/-- A challenge is drawn. -/
theorem books_draw (hbooks : Books (past ++ [a]) queued taken drawn) {random : List UInt8}
    (hfresh : random ∉ drawn) :
    Books (past ++ [{ a with challenge := some (newHelloChallenge random) }]) queued taken (random :: drawn) := by
  have hlog : (past ++ [{ a with challenge := some (newHelloChallenge random) }]).flatMap Attempt.log =
      (past ++ [a]).flatMap Attempt.log := by simp
  refine ⟨hlog ▸ hbooks.ordered, hlog ▸ hbooks.numbered, fun b hb challenge hchallenge => ?_, ?_⟩
  · rcases List.mem_append.mp hb with hold | hnew
    · obtain ⟨r, hr, heq⟩ := hbooks.drawn b (List.mem_append_left _ hold) challenge hchallenge
      exact ⟨r, List.mem_cons_of_mem _ hr, heq⟩
    · obtain rfl := List.mem_singleton.mp hnew
      exact ⟨random, List.mem_cons_self, Option.some.inj hchallenge⟩
  · have hdistinct := hbooks.distinct
    rw [List.filterMap_append, List.nodup_append] at hdistinct
    rw [List.filterMap_append, List.nodup_append]
    refine ⟨hdistinct.1, by simp, fun challenge hmem challenge' hnew heq => ?_⟩
    subst heq
    obtain rfl : challenge = newHelloChallenge random := by simpa using hnew
    obtain ⟨b, hb, hchallenge⟩ := List.mem_filterMap.mp hmem
    obtain ⟨r, hr, heq⟩ := hbooks.drawn b (List.mem_append_left _ hb) _ hchallenge
    exact hfresh (newHelloChallenge_injective heq ▸ hr)

end

/-! ## The task -/

theorem await_waiting {challenge : String} {early early' : List SignalingMessage} {now : Nat} {next : WsRead}
    (hawait : cfg.awaitHelloProof challenge early now next = .waiting early') :
    early' = early ++ (parsed cfg (next, now)).toList ∧ accepts cfg challenge (next, now) = false := by
  unfold WsConfig.awaitHelloProof at hawait
  split at hawait
  · rename_i text
    split at hawait
    · rename_i hparse
      obtain rfl := WsConfig.ProofStep.waiting.inj hawait
      simp [parsed, accepts, hparse]
    · rename_i msg hparse
      split at hawait
      · split at hawait <;> cases hawait
      · rename_i htype
        split at hawait
        · cases hawait
        · obtain rfl := WsConfig.ProofStep.waiting.inj hawait
          simp [parsed, accepts, hparse, htype]
  · cases hawait
  · cases hawait
  · rename_i frame hnotText _
    obtain rfl := WsConfig.ProofStep.waiting.inj hawait
    cases frame with
    | text text => exact absurd rfl (hnotText text)
    | _ => simp [parsed, accepts]
  · cases hawait

theorem await_proved {challenge : String} {early early' : List SignalingMessage} {now : Nat} {next : WsRead}
    (hawait : cfg.awaitHelloProof challenge early now next = .proved early') :
    early' = early ∧ accepts cfg challenge (next, now) = true := by
  unfold WsConfig.awaitHelloProof at hawait
  split at hawait
  · rename_i text
    split at hawait
    · cases hawait
    · rename_i msg hparse
      split at hawait
      · rename_i htype
        split at hawait
        · rename_i hvalid
          obtain rfl := WsConfig.ProofStep.proved.inj hawait
          simp [accepts, hparse, htype, hvalid]
        · cases hawait
      · split at hawait <;> cases hawait
  all_goals cases hawait

theorem await_failed {challenge : String} {early : List SignalingMessage} {now : Nat} {next : WsRead}
    (hawait : cfg.awaitHelloProof challenge early now next = .failed) : accepts cfg challenge (next, now) = false := by
  unfold WsConfig.awaitHelloProof at hawait
  split at hawait
  · rename_i text
    split at hawait
    · cases hawait
    · rename_i msg hparse
      split at hawait
      · split at hawait
        · cases hawait
        · rename_i hvalid
          simp [accepts, hparse, hvalid]
      · rename_i htype
        simp [accepts, hparse, htype]
  all_goals simp_all [accepts]

/-- What holds of the attempt under way. -/
def Current (cfg : WsConfig) : WsPhase → Prop
  | .connecting d => d.attempt = .start d.attempt.url
  | .proving d challenge early => Waiting cfg d.attempt ∧ d.attempt.events = [] ∧ d.attempt.challenge = some challenge ∧
      early = d.attempt.reads.filterMap (parsed cfg)
  | .opening d early => Proven cfg d.attempt early
  | .live d => Proven cfg d.attempt []
  | _ => True

/-- What holds of every state of the task. -/
structure Inv (cfg : WsConfig) (s : WsTask) : Prop where
  past : ∀ a ∈ s.past, Finished cfg a
  current : Current cfg s.phase
  books : Books s.attempts s.queued s.taken s.drawn

theorem inv_start (candidates : List String) : Inv cfg (.start candidates) := by
  unfold WsTask.start
  split <;> exact ⟨fun _ ha => absurd ha List.not_mem_nil, trivial, books_nil⟩

theorem inv_dial {s : WsTask} (hpast : ∀ a ∈ s.past, Finished cfg a) (hbooks : Books s.past s.queued s.taken s.drawn)
    (targets : List String) (idx : Nat) : Inv cfg (s.dial targets idx) := by
  unfold WsTask.dial
  split
  · exact ⟨hpast, rfl, books_start hbooks _⟩
  · exact ⟨hpast, trivial, by simpa [WsTask.attempts, WsPhase.attempt] using hbooks⟩

theorem inv_finish {s : WsTask} {d : Dialing} (hpast : ∀ a ∈ s.past, Finished cfg a)
    (hfinished : Finished cfg (d.attempt.add (.emitted (.wsDisconnected cfg.peerId))))
    (hbooks : Books (s.past ++ [d.attempt]) s.queued s.taken s.drawn) (outcome : Option WsSessionEnd) (established : Bool) :
    Inv cfg (s.finish cfg d outcome established) := by
  have hpast' : ∀ a ∈ s.past ++ [d.attempt.add (.emitted (.wsDisconnected cfg.peerId))], Finished cfg a := by
    intro a ha
    rcases List.mem_append.mp ha with hold | hnew
    · exact hpast a hold
    · exact List.mem_singleton.mp hnew ▸ hfinished
  have hbooks' : Books (s.past ++ [d.attempt.add (.emitted (.wsDisconnected cfg.peerId))]) s.queued s.taken s.drawn :=
    books_add hbooks rfl
  have hover : ∀ s' : WsTask, s'.past = s.past ++ [d.attempt.add (.emitted (.wsDisconnected cfg.peerId))] → s'.queued = s.queued →
      s'.taken = s.taken → s'.drawn = s.drawn → s'.phase.attempt = none → Current cfg s'.phase → Inv cfg s' := by
    intro s' hp hq ht hd hnone hcurrent
    refine ⟨hp ▸ hpast', hcurrent, ?_⟩
    rw [WsTask.attempts, hnone, hp, hq, ht, hd, Option.toList_none, List.append_nil]
    exact hbooks'
  unfold WsTask.finish
  cases outcome with
  | some outcome => cases outcome <;> exact hover _ rfl rfl rfl rfl rfl trivial
  | none =>
    dsimp only
    split
    · exact inv_dial hpast' hbooks' _ _
    · exact hover _ rfl rfl rfl rfl rfl trivial

theorem books_of_attempt {s : WsTask} {d : Dialing} (hbooks : Books s.attempts s.queued s.taken s.drawn)
    (hattempt : s.phase.attempt = some d.attempt) : Books (s.past ++ [d.attempt]) s.queued s.taken s.drawn := by
  rwa [WsTask.attempts, hattempt, Option.toList_some] at hbooks

theorem inv_opened {s : WsTask} {d : Dialing} (hpast : ∀ a ∈ s.past, Finished cfg a) (hstart : d.attempt = .start d.attempt.url)
    (hbooks : Books (s.past ++ [d.attempt]) s.queued s.taken s.drawn) (agreed : Bool) {random : List UInt8} (hfresh : random ∉ s.drawn)
    (now : Nat) (written : Bool) : Inv cfg (s.opened cfg d agreed random now written) := by
  have hwaiting : Waiting cfg d.attempt := hstart ▸ waiting_start _
  have hnone : d.attempt.challenge = none := by rw [hstart]; rfl
  unfold WsTask.opened
  split
  · rename_i hdevice
    have hgivesUp : GivesUp cfg d.attempt.challenge .close := ⟨hnone, by simpa using (Bool.and_eq_true _ _).mp hdevice |>.1, rfl⟩
    have hclosed : Waiting cfg (d.attempt.add (.wrote .close)) :=
      waiting_add hwaiting _ (fun hneeds => hneeds.2 hgivesUp) fun _ _ _ hnext => absurd hnext (by simp [WsEntry.reading])
    have hreported := waiting_add hclosed (.emitted (.deviceRoutingUnsupported cfg.peerId)) id fun _ _ _ hnext =>
      absurd hnext (by simp [WsEntry.reading])
    exact inv_finish hpast (finished_of_waiting hreported) (books_add (books_add hbooks rfl) rfl) none false
  · have hdrawn := books_draw hbooks hfresh
    have hwaiting' : Waiting cfg { d.attempt with challenge := some (newHelloChallenge random) } := by
      rw [hstart]
      refine ⟨fun before entry after hlog => absurd hlog.symm (by simp [Attempt.start]), ?_, ?_⟩
      · exact fun _ hevent => absurd hevent List.not_mem_nil
      · exact fun _ _ _ hnext => absurd hnext List.not_mem_nil
    dsimp only
    split
    · refine inv_finish ?_ ?_ ?_ none false
      · exact hpast
      · exact finished_of_waiting hwaiting'
      · exact hdrawn
    · rename_i hello hhello
      split
      · refine ⟨hpast, ⟨waiting_add hwaiting' _ ?_ ?_, ?_, rfl, ?_⟩, books_add hdrawn rfl⟩
        · exact fun hneeds => hneeds.1 ⟨_, now, hello, rfl, hhello, rfl⟩
        · exact fun _ _ _ hnext => absurd hnext (by simp [WsEntry.reading])
        · rw [attempt_add, events_add, hstart]
          rfl
        · rw [attempt_add, reads_add, hstart]
          rfl
      · refine inv_finish ?_ ?_ ?_ none false
        · exact hpast
        · exact finished_of_waiting hwaiting'
        · exact hdrawn

theorem inv_awaited {s : WsTask} {d : Dialing} {challenge : String} {early : List SignalingMessage}
    (hpast : ∀ a ∈ s.past, Finished cfg a) (hcurrent : Current cfg (.proving d challenge early))
    (hbooks : Books (s.past ++ [d.attempt]) s.queued s.taken s.drawn) (next : WsRead) (now : Nat) :
    Inv cfg (s.awaited cfg d challenge early next now) := by
  obtain ⟨hwaiting, hevents, hchallenge, hearly⟩ := hcurrent
  have hread : accepts cfg challenge (next, now) = false → Waiting cfg (d.attempt.add (.read next now)) := by
    intro hrejects
    refine waiting_add hwaiting _ id fun challenge' hchallenge' next' hnext' => ?_
    obtain rfl : challenge' = challenge := Option.some.inj (hchallenge'.symm.trans hchallenge)
    obtain rfl : next' = (next, now) := by simpa [WsEntry.reading] using hnext'.symm
    exact hrejects
  unfold WsTask.awaited
  dsimp only
  split
  · rename_i early' hawait
    obtain ⟨rfl, hrejects⟩ := await_waiting hawait
    refine ⟨hpast, ⟨hread hrejects, ?_, hchallenge, ?_⟩, books_add hbooks rfl⟩
    · simp [hevents, WsEntry.event]
    · cases hparsed : parsed cfg (next, now) <;> simp [hearly, WsEntry.reading, hparsed, List.filterMap_append]
  · rename_i early' hawait
    obtain ⟨rfl, haccepts⟩ := await_proved hawait
    subst hearly
    exact ⟨hpast, proven_proof hwaiting.gated hevents hchallenge (hwaiting.unproved challenge hchallenge) haccepts,
      books_add (books_add hbooks rfl) rfl⟩
  · rename_i hawait
    exact inv_finish hpast (finished_of_waiting (hread (await_failed hawait))) (books_add hbooks rfl) none false

theorem inv_inbound {s : WsTask} {d : Dialing} (hpast : ∀ a ∈ s.past, Finished cfg a) (hproven : Proven cfg d.attempt [])
    (hbooks : Books (s.past ++ [d.attempt]) s.queued s.taken s.drawn) (next : WsRead) (now : Nat) :
    Inv cfg (s.inbound cfg d next now) := by
  have hread := proven_read hproven next now
  have hbooks' : Books (s.past ++ [d.attempt.add (.read next now)]) s.queued s.taken s.drawn := books_add hbooks rfl
  unfold WsTask.inbound
  dsimp only
  split
  · rename_i text
    split
    · rename_i msg hparse
      rw [show parsed cfg (.frame (.text text), now) = some msg from hparse, Option.toList_some] at hread
      exact ⟨hpast, proven_deliver hread, books_add hbooks' rfl⟩
    · rename_i hparse
      rw [show parsed cfg (.frame (.text text), now) = none from hparse, Option.toList_none] at hread
      exact ⟨hpast, hread, hbooks'⟩
  · exact inv_finish hpast (finished_of_proven hread) hbooks' _ _
  · exact inv_finish hpast (finished_of_proven hread) hbooks' _ _
  · rename_i frame hnotText _
    have hnone : parsed cfg (.frame frame, now) = none := by
      cases frame with
      | text text => exact absurd rfl (hnotText text)
      | _ => rfl
    rw [hnone, Option.toList_none] at hread
    exact ⟨hpast, hread, hbooks'⟩
  · exact inv_finish hpast (finished_of_proven hread) hbooks' _ _

theorem inv_outbound {s s' : WsTask} {d : Dialing} (hpast : ∀ a ∈ s.past, Finished cfg a) (hproven : Proven cfg d.attempt [])
    (hbooks : Books (s.past ++ [d.attempt]) s.queued s.taken s.drawn) {written : Bool} (hstep : s.outbound cfg d written = some s') :
    Inv cfg s' := by
  unfold WsTask.outbound at hstep
  split at hstep
  · rename_i frame hframe
    have htook : Proven cfg (d.attempt.add (.took s.taken frame)) [] := proven_add hproven rfl rfl
    have hbooks' : Books (s.past ++ [d.attempt.add (.took s.taken frame)]) s.queued s.taken s.drawn := books_add hbooks rfl
    dsimp only at hstep
    split at hstep
    · obtain rfl := Option.some.inj hstep
      exact ⟨hpast, proven_add htook rfl rfl, books_sent hbooks' hframe⟩
    · obtain rfl := Option.some.inj hstep
      refine inv_finish ?_ ?_ ?_ none true
      · exact hpast
      · exact finished_of_proven htook
      · exact books_taken hbooks'
  · split at hstep
    · cases hstep
    · obtain rfl := Option.some.inj hstep
      split
      · exact inv_finish hpast (finished_of_proven (proven_add hproven rfl rfl)) (books_add hbooks rfl) _ _
      · exact inv_finish hpast (finished_of_proven hproven) hbooks _ _

/-- The books do not depend on where the task is, as long as the attempts are the same. -/
theorem inv_of_attempts {s s' : WsTask} (hs : Inv cfg s) (hpast : s'.past = s.past) (hattempt : s'.phase.attempt = s.phase.attempt)
    (hcurrent : Current cfg s'.phase) (hqueued : s'.queued = s.queued) (htaken : s'.taken = s.taken) (hdrawn : s'.drawn = s.drawn) :
    Inv cfg s' where
  past := hpast ▸ hs.past
  current := hcurrent
  books := by
    rw [WsTask.attempts, hpast, hattempt, hqueued, htaken, hdrawn]
    exact hs.books

theorem inv_taskStep {s s' : WsTask} (hs : Inv cfg s) {phase : WsPhase} (hphase : s.phase = phase) {act : WsAct}
    (hstep : s.taskStep cfg phase act = some s') : Inv cfg s' := by
  have hcurrent : Current cfg phase := hphase ▸ hs.current
  have hbooks : Books (s.past ++ phase.attempt.toList) s.queued s.taken s.drawn := hphase ▸ hs.books
  unfold WsTask.taskStep at hstep
  split at hstep
  · obtain rfl := Option.some.inj hstep
    unfold WsTask.choose
    split <;> exact inv_of_attempts hs rfl (hphase ▸ rfl) trivial rfl rfl rfl
  · obtain rfl := Option.some.inj hstep
    unfold WsTask.lookedUp
    split
    · exact inv_of_attempts hs rfl (hphase ▸ rfl) trivial rfl rfl rfl
    · exact inv_dial hs.past (by simpa [WsPhase.attempt] using hbooks) _ _
  · rename_i d unsupported
    obtain rfl := Option.some.inj hstep
    have hwaiting : Waiting cfg d.attempt := hcurrent ▸ waiting_start _
    split
    · refine inv_finish hs.past (finished_of_waiting (waiting_add hwaiting _ id ?_)) (books_add hbooks rfl) none false
      exact fun _ _ _ hnext => absurd hnext (by simp [WsEntry.reading])
    · exact inv_finish hs.past (finished_of_waiting hwaiting) hbooks none false
  · split at hstep
    · rename_i hfresh
      obtain rfl := Option.some.inj hstep
      exact inv_opened hs.past hcurrent hbooks _ hfresh.2 _ _
    · cases hstep
  · obtain rfl := Option.some.inj hstep
    exact inv_awaited hs.past hcurrent hbooks _ _
  · obtain rfl := Option.some.inj hstep
    exact inv_finish hs.past (finished_of_waiting hcurrent.1) hbooks none false
  · obtain rfl := Option.some.inj hstep
    exact ⟨hs.past, proven_deliver hcurrent, books_add hbooks rfl⟩
  · obtain rfl := Option.some.inj hstep
    exact ⟨hs.past, hcurrent, hbooks⟩
  · exact inv_outbound hs.past hcurrent hbooks hstep
  · obtain rfl := Option.some.inj hstep
    exact inv_inbound hs.past hcurrent hbooks _ _
  · rename_i d written
    obtain rfl := Option.some.inj hstep
    unfold WsTask.ping
    split
    · exact ⟨hs.past, proven_add hcurrent rfl rfl, books_add hbooks rfl⟩
    · exact inv_finish hs.past (finished_of_proven hcurrent) hbooks none true
  · obtain rfl := Option.some.inj hstep
    exact inv_finish hs.past (finished_of_proven hcurrent) hbooks none true
  · split at hstep
    · obtain rfl := Option.some.inj hstep
      refine inv_finish ?_ ?_ ?_ _ _
      · exact hs.past
      · exact finished_of_proven hcurrent
      · exact hbooks
    · cases hstep
  · obtain rfl := Option.some.inj hstep
    exact inv_dial hs.past (by simpa [WsPhase.attempt] using hbooks) _ _
  · obtain rfl := Option.some.inj hstep
    exact inv_of_attempts hs rfl (hphase ▸ rfl) trivial rfl rfl rfl
  · split at hstep
    · obtain rfl := Option.some.inj hstep
      exact inv_of_attempts hs rfl (hphase ▸ rfl) trivial rfl rfl rfl
    · cases hstep
  · cases hstep

theorem inv_step {s s' : WsTask} (hs : Inv cfg s) {act : WsAct} (hstep : s.step cfg act = some s') : Inv cfg s' := by
  unfold WsTask.step at hstep
  split at hstep
  · split at hstep
    · obtain rfl := Option.some.inj hstep
      exact ⟨hs.past, hs.current, books_queue hs.books _⟩
    · cases hstep
  · obtain rfl := Option.some.inj hstep
    exact inv_of_attempts hs rfl rfl hs.current rfl rfl rfl
  · obtain rfl := Option.some.inj hstep
    exact inv_of_attempts hs rfl rfl hs.current rfl rfl rfl
  · obtain rfl := Option.some.inj hstep
    exact inv_of_attempts hs rfl rfl hs.current rfl rfl rfl
  · exact inv_taskStep hs rfl hstep

theorem inv_run {candidates : List String} {s : WsTask} {acts : List WsAct}
    (hrun : run (WsTask.step cfg) (.start candidates) acts = some s) : Inv cfg s :=
  run_invariant (fun _ => Inv cfg) (inv_start candidates) (fun _ _ _ _ hs hstep => inv_step hs hstep) hrun

/-! ## The order of what is reported -/

/-- Whether a session is reported as there, after an event; none where the event does not fit. -/
def reportStep : Bool → WsEvent → Option Bool
  | false, .wsConnected _ => some true
  | true, .wsSignalingMessage _ _ => some true
  | _, .wsDisconnected _ => some false
  | false, .deviceRoutingUnsupported _ => some false
  | _, _ => none

theorem report_messages (msgs : List SignalingMessage) :
    run reportStep true (msgs.map (WsEvent.wsSignalingMessage cfg.peerId)) = some true := by
  induction msgs with
  | nil => rfl
  | cons msg msgs ih =>
    rw [List.map_cons, run_cons]
    exact ih

theorem report_session (cfg : WsConfig) (before after : List (WsRead × Nat)) :
    run reportStep false (sessionEvents cfg before after) = some false := by
  unfold sessionEvents
  rw [run_cons]
  show run reportStep true _ = _
  rw [run_append, report_messages]
  rfl

theorem report_quiet {events : List WsEvent} (hquiet : ∀ event ∈ events, event.IsQuiet) : run reportStep false events = some false := by
  induction events with
  | nil => rfl
  | cons event events ih =>
    have hrest := ih fun e he => hquiet e (List.mem_cons_of_mem _ he)
    have hevent := hquiet event List.mem_cons_self
    rw [run_cons]
    cases event with
    | wsConnected => exact hevent.elim
    | wsSignalingMessage => exact hevent.elim
    | wsDisconnected => exact hrest
    | deviceRoutingUnsupported => exact hrest

theorem report_attempts {attempts : List Attempt} (hall : ∀ a ∈ attempts, Finished cfg a) :
    run reportStep false (attempts.flatMap Attempt.events) = some false := by
  induction attempts with
  | nil => rfl
  | cons a attempts ih =>
    have ha : run reportStep false a.events = some false := by
      rcases (hall a List.mem_cons_self).2 with ⟨hquiet, -⟩ | ⟨before, proof, after, -, hevents⟩
      · exact report_quiet hquiet
      · rw [hevents]
        exact report_session cfg before after
    rw [List.flatMap_cons, run_append, ha]
    exact ih fun b hb => hall b (List.mem_cons_of_mem _ hb)

theorem events_eq (s : WsTask) : s.events = s.past.flatMap Attempt.events ++ s.phase.attempt.elim [] Attempt.events := by
  unfold WsTask.events WsTask.log WsTask.attempts
  rw [List.flatMap_append, List.filterMap_append, List.filterMap_flatMap]
  cases s.phase.attempt with
  | none => exact congrArg _ (List.filterMap_nil)
  | some a => exact congrArg _ (congrArg _ (List.append_nil a.log))

theorem report_proven {a : Attempt} {early : List SignalingMessage} (ha : Proven cfg a early) :
    ∃ there, run reportStep false a.events = some there := by
  obtain ⟨-, -, before, proof, after, -, hevents⟩ := ha
  have hall := report_session cfg before after
  rw [← hevents, List.append_assoc, run_append] at hall
  obtain ⟨there, hthere, -⟩ := Option.bind_eq_some_iff.mp hall
  exact ⟨there, hthere⟩

/-- What a task reports fits. -/
theorem reports {s : WsTask} (hs : Inv cfg s) : ∃ there, run reportStep false s.events = some there := by
  have hcurrent := hs.current
  rw [events_eq, run_append, report_attempts hs.past]
  show ∃ there, run reportStep false (s.phase.attempt.elim [] Attempt.events) = some there
  cases hphase : s.phase with
  | connecting d =>
    rw [hphase] at hcurrent
    have hattempt : d.attempt = .start d.attempt.url := hcurrent
    show ∃ there, run reportStep false d.attempt.events = some there
    rw [hattempt]
    exact ⟨false, rfl⟩
  | proving d challenge early =>
    rw [hphase] at hcurrent
    exact ⟨false, report_quiet hcurrent.1.quiet⟩
  | opening d early =>
    rw [hphase] at hcurrent
    exact report_proven hcurrent
  | live d =>
    rw [hphase] at hcurrent
    exact report_proven hcurrent
  | _ => exact ⟨false, rfl⟩

theorem silent_of_closed {rest : List WsEvent} (hrun : run reportStep false rest = some false)
    (hno : ∀ event ∈ rest, ∀ p, event ≠ .wsConnected p) : ∀ event ∈ rest, ¬event.IsMessage := by
  induction rest with
  | nil => exact fun _ h => absurd h List.not_mem_nil
  | cons event rest ih =>
    rw [run_cons] at hrun
    have hrest : run reportStep false rest = some false → ∀ e ∈ rest, ¬e.IsMessage :=
      fun h => ih h fun e he => hno e (List.mem_cons_of_mem _ he)
    cases event with
    | wsConnected p => exact absurd rfl (hno _ List.mem_cons_self p)
    | wsSignalingMessage p msg => cases hrun
    | wsDisconnected p => exact List.forall_mem_cons.mpr ⟨id, hrest hrun⟩
    | deviceRoutingUnsupported p => exact List.forall_mem_cons.mpr ⟨id, hrest hrun⟩

/-- A session that is over before the next one: messages, its end, and no message after that. -/
theorem session_ends {mid : List WsEvent} (hrun : run reportStep true mid = some false)
    (hno : ∀ event ∈ mid, ∀ p, event ≠ .wsConnected p) :
    ∃ session p rest, mid = session ++ .wsDisconnected p :: rest ∧ (∀ event ∈ session, event.IsMessage) ∧
      ∀ event ∈ rest, ¬event.IsMessage := by
  induction mid with
  | nil => cases hrun
  | cons event mid ih =>
    rw [run_cons] at hrun
    have hno' : ∀ e ∈ mid, ∀ p, e ≠ .wsConnected p := fun e he => hno e (List.mem_cons_of_mem _ he)
    cases event with
    | wsConnected p => exact absurd rfl (hno _ List.mem_cons_self p)
    | deviceRoutingUnsupported p => cases hrun
    | wsSignalingMessage p msg =>
      obtain ⟨session, p', rest, rfl, hsession, hrest⟩ := ih hrun hno'
      exact ⟨_ :: session, p', rest, rfl, List.forall_mem_cons.mpr ⟨trivial, hsession⟩, hrest⟩
    | wsDisconnected p =>
      refine ⟨[], p, mid, rfl, fun _ h => absurd h List.not_mem_nil, ?_⟩
      exact silent_of_closed hrun hno'

/-- What holds of an attempt, under way or not. -/
theorem attempt_of_current {phase : WsPhase} (hcurrent : Current cfg phase) {a : Attempt} (ha : a ∈ phase.attempt.toList) :
    Gated cfg a ∧ ((Unproved cfg a ∧ ∀ event ∈ a.events, event.IsQuiet) ∨
      ∃ before proof after, ProvedBy cfg a before proof after ∧ a.events <+: sessionEvents cfg before after) := by
  have hwaiting : ∀ {a : Attempt}, Waiting cfg a → Gated cfg a ∧ ((Unproved cfg a ∧ ∀ event ∈ a.events, event.IsQuiet) ∨
      ∃ before proof after, ProvedBy cfg a before proof after ∧ a.events <+: sessionEvents cfg before after) :=
    fun h => ⟨h.gated, Or.inl ⟨h.unproved, h.quiet⟩⟩
  have hproven : ∀ {a : Attempt} {early : List SignalingMessage}, Proven cfg a early → Gated cfg a ∧
      ((Unproved cfg a ∧ ∀ event ∈ a.events, event.IsQuiet) ∨
        ∃ before proof after, ProvedBy cfg a before proof after ∧ a.events <+: sessionEvents cfg before after) := by
    rintro a early ⟨hgated, -, before, proof, after, hproved, hevents⟩
    exact ⟨hgated, Or.inr ⟨before, proof, after, hproved, ⟨_, (List.append_assoc _ _ _).symm.trans hevents⟩⟩⟩
  cases phase with
  | connecting d =>
    obtain rfl := List.mem_singleton.mp ha
    have hattempt : d.attempt = .start d.attempt.url := hcurrent
    rw [hattempt]
    exact hwaiting (waiting_start _)
  | proving d challenge early =>
    obtain rfl := List.mem_singleton.mp ha
    exact hwaiting hcurrent.1
  | opening d early =>
    obtain rfl := List.mem_singleton.mp ha
    exact hproven hcurrent
  | live d =>
    obtain rfl := List.mem_singleton.mp ha
    exact hproven hcurrent
  | _ => exact absurd ha List.not_mem_nil

end SupernodeLinksAux

section

open SupernodeLinksAux

variable (cfg : WsConfig) (Signed : List UInt8 → List UInt8 → Prop)

/-- **Nothing passes before the proof.** In every run of the task, with unforgeable signatures. Challenges are not repeated. On every
connection, what needs a proof comes after a HelloProof with the challenge of the connection, signed by the supernode's key. A
connection that was proved has reported the session, each message that came before the proof and each that came after it, and at its
end that it is over; one that was not proved has reported neither session nor message. Between a session and the next one stands that
it is over, after all its messages. Outbound messages are written in the order they were queued, each at most once. -/
theorem links_proved_first (hunforgeable : ∀ key sig bytes, cfg.crypto.ed25519Verify key sig bytes = true → Signed key bytes)
    {candidates : List String} {acts : List WsAct} {s : WsTask} (hrun : run (WsTask.step cfg) (.start candidates) acts = some s) :
    (s.attempts.filterMap Attempt.challenge).Nodup ∧
    (∀ a ∈ s.attempts, ∀ before entry after, a.log = before ++ entry :: after → NeedsProof cfg a.challenge entry →
      ∃ challenge next now, a.challenge = some challenge ∧ .read next now ∈ before ∧ ProvesSupernode cfg Signed challenge next) ∧
    (∀ a ∈ s.attempts, (Unproved cfg a ∧ ∀ event ∈ a.events, event.IsQuiet) ∨
      ∃ before proof after, ProvedBy cfg a before proof after ∧ a.events <+: sessionEvents cfg before after ∧
        (a ∈ s.past → a.events = sessionEvents cfg before after)) ∧
    (∀ before p mid q after, s.events = before ++ .wsConnected p :: (mid ++ .wsConnected q :: after) →
      (∀ event ∈ mid, ∀ r, event ≠ .wsConnected r) →
        ∃ session r rest, mid = session ++ .wsDisconnected r :: rest ∧ (∀ event ∈ session, event.IsMessage) ∧
          ∀ event ∈ rest, ¬event.IsMessage) ∧
    ((s.sending.map Prod.fst).Pairwise (· < ·) ∧ ∀ e ∈ s.sending, s.queued[e.1]? = some e.2) := by
  have hs : Inv cfg s := inv_run hrun
  have hgated : ∀ a ∈ s.attempts, Gated cfg a := by
    intro a ha
    rcases List.mem_append.mp ha with hold | hnow
    · exact (hs.past a hold).1
    · exact (attempt_of_current hs.current hnow).1
  refine ⟨hs.books.distinct, fun a ha before entry after hlog hneeds => ?_, fun a ha => ?_, ?_, hs.books.ordered, fun e he =>
    (hs.books.numbered e he).2⟩
  · obtain ⟨challenge, next, now, hchallenge, hmem, haccepts⟩ := hgated a ha before entry after hlog hneeds
    exact ⟨challenge, next, now, hchallenge, hmem, proves_of_accepts hunforgeable haccepts⟩
  · by_cases hold : a ∈ s.past
    · rcases (hs.past a hold).2 with ⟨hquiet, hunproved⟩ | ⟨before, proof, after, hproved, hevents⟩
      · exact Or.inl ⟨hunproved, hquiet⟩
      · exact Or.inr ⟨before, proof, after, hproved, hevents ▸ List.prefix_refl _, fun _ => hevents⟩
    · have hnow : a ∈ s.phase.attempt.toList := (List.mem_append.mp ha).resolve_left hold
      rcases (attempt_of_current hs.current hnow).2 with hquiet | ⟨before, proof, after, hproved, hfront⟩
      · exact Or.inl hquiet
      · exact Or.inr ⟨before, proof, after, hproved, hfront, fun h => absurd h hold⟩
  · intro before p mid q after hevents hno
    obtain ⟨there, hreports⟩ := reports hs
    rw [hevents, run_append] at hreports
    obtain ⟨open₁, -, hreports⟩ := Option.bind_eq_some_iff.mp hreports
    rw [run_cons] at hreports
    obtain ⟨open₂, hopen₂, hreports⟩ := Option.bind_eq_some_iff.mp hreports
    rw [run_append] at hreports
    obtain ⟨open₃, hmid, hreports⟩ := Option.bind_eq_some_iff.mp hreports
    rw [run_cons] at hreports
    obtain ⟨open₄, hopen₄, -⟩ := Option.bind_eq_some_iff.mp hreports
    obtain rfl : open₂ = true := by cases open₁ <;> cases hopen₂; rfl
    obtain rfl : open₃ = false := by cases open₃ <;> first | rfl | cases hopen₄
    exact session_ends hmid hno

end

namespace SupernodeLinksAux

/-- The key of a supernode, and a challenge. -/
def nodeKey : List UInt8 := List.replicate 32 9

def drawnBytes : List UInt8 := List.replicate 32 7

/-- What is signed of a message: here its challenge. -/
def challengeBytes (msg : SignalingMessage) : List UInt8 := (msg.payload.strOr "challenge" "").toUTF8.data.toList

/-- The supernode's answer to the challenge. -/
def nodeProof : SignalingMessage :=
  { SignalingMessage.new .helloProof (b64urlEncode nodeKey) 0 with
    payload := [("challenge", .str (newHelloChallenge drawnBytes))]
    signature := some (b64urlEncode (newHelloChallenge drawnBytes).toUTF8.data.toList) }

/-- Two texts that parse, and a signature that is what it signs. -/
def plainConfig (deviceId : Option Tls.DeviceId) : WsConfig where
  crypto := { canonicalBytes := fun msg => some (challengeBytes msg), ed25519Verify := fun key sig bytes => key == nodeKey && sig == bytes }
  parse text :=
    if text = "proof" then some nodeProof
    else if text = "presence" then some (SignalingMessage.new .presenceUpdate "someone" 0)
    else none
  toJson _ := some "hello"
  publicId := "me"
  ownPeerId := "me"
  sign bytes := bytes
  deviceId := deviceId
  peerId := b64urlEncode nodeKey

/-- A message before the proof, the proof, one after it, and a message to the supernode. -/
def oneSession : List WsAct :=
  [.queue (.text "join"), .choose, .lookedUp ["ws://192.0.2.1:34935"], .opened true drawnBytes 0 true, .next (.frame (.text "presence")) 0,
    .next (.frame (.text "proof")) 0, .deliver, .deliver, .outbound true, .next (.frame (.text "presence")) 0, .next .eof 0]

/-- A node that does not know device routing. -/
def oldNode : List WsAct := [.choose, .lookedUp ["ws://192.0.2.1:34935"], .opened false drawnBytes 0 true]

theorem run_of_check (cfg : WsConfig) (candidates : List String) (acts : List WsAct) (check : WsTask → Bool)
    (h : (run (WsTask.step cfg) (.start candidates) acts).any check = true) :
    ∃ s, run (WsTask.step cfg) (.start candidates) acts = some s ∧ check s = true := (Option.any_eq_true _ _).mp h

end SupernodeLinksAux

open SupernodeLinksAux in
/-- One session: its message is written after the proof. -/
theorem links_proved_first_session :
    ∃ s, run (WsTask.step (plainConfig none)) (.start ["ws://192.0.2.1:34935"]) oneSession = some s ∧
      s.sending = [(0, .text "join")] ∧
      ∀ a ∈ s.attempts, ∀ before entry after, a.log = before ++ entry :: after → NeedsProof (plainConfig none) a.challenge entry →
        ∃ challenge next now, a.challenge = some challenge ∧ .read next now ∈ before ∧
          ProvesSupernode (plainConfig none) (fun key _ => key = nodeKey) challenge next := by
  obtain ⟨s, hrun, hs⟩ := run_of_check (plainConfig none) ["ws://192.0.2.1:34935"] oneSession
    (fun s => s.sending == [(0, .text "join")]) (by decide +kernel)
  have hunforgeable : ∀ key sig bytes, (plainConfig none).crypto.ed25519Verify key sig bytes = true → key = nodeKey :=
    fun key sig bytes hverify => eq_of_beq ((Bool.and_eq_true _ _).mp hverify).1
  exact ⟨s, hrun, eq_of_beq hs, (links_proved_first (plainConfig none) (fun key _ => key = nodeKey) hunforgeable hrun).2.1⟩

open SupernodeLinksAux in
/-- **More than HELLO is written before a proof.** With a device id, a node that does not agree to device routing gets a close frame. -/
theorem close_before_proof :
    ∃ s, run (WsTask.step (plainConfig (some ⟨drawnBytes, List.length_replicate⟩))) (.start ["ws://192.0.2.1:34935"]) oldNode =
        some s ∧
      ∃ a ∈ s.attempts, a.reads = [] ∧ ∃ frame, .wrote frame ∈ a.log ∧
        ¬IsHello (plainConfig (some ⟨drawnBytes, List.length_replicate⟩)) a.challenge frame := by
  refine ⟨_, rfl, _, List.mem_cons_self, rfl, .close, List.mem_cons_self, ?_⟩
  rintro ⟨challenge, now, text, -, -, htext⟩
  cases htext

end DoubleSlash.Manager
