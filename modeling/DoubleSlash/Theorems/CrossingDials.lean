import DoubleSlash.Lemmas.Crossing

/-!
# Crossing dials

Each manager keeps the connection it registered last and closes the other one. When the two managers register the two
connections in the same order they keep the same one; in opposite orders each closes the one the other kept, and none is left.
-/

namespace DoubleSlash.Direct

open Tls Assoc Run

namespace CrossingAux

open SessionsAux PeerConnection

section

variable {S : Type} {D : Dials S}

theorem accepts_both : (D.accepts .a = true ∧ D.accepts .b = true) ↔ (D.device .a).isSome = (D.device .b).isSome := by
  simp only [Dials.accepts, Side.other]
  cases D.device .a <;> cases D.device .b <;> simp

/-- A list of the two connections without repetition. -/
theorem two_orders {l : List Conn} (hn : l.Nodup) (hab : .ab ∈ l) (hba : .ba ∈ l) :
    l = [.ab, .ba] ∨ l = [.ba, .ab] := by
  rcases l with _ | ⟨x, _ | ⟨y, _ | ⟨z, l⟩⟩⟩
  · cases hab
  · cases x <;> simp_all
  · cases x <;> cases y <;> simp_all
  · cases x <;> cases y <;> cases z <;> simp_all

/-- A connection is registered at a side exactly when the side holds it. -/
theorem registered_iff {acts : List Act} {w : World S} {held : Side → Option Conn} (h : Inv D acts w held) (s : Side)
    (c : Conn) : D.Registered w s c ↔ held s = some c := by
  obtain ⟨e, he, honly⟩ := (h.keeps s).entry
  have hhas : e.hasEndpoint (D.endpoint s c) = true ↔ held s = some c := by
    rw [Dials.endpoint, hasEndpoint_only honly.endpoints]
    cases hs : held s with
    | none => simp
    | some c' => simpa using ⟨fun h => connectionId_inj h, fun h => h ▸ rfl⟩
  constructor
  · rintro ⟨x, hx, hep⟩
    obtain rfl : e = x := Option.some.inj (he.symm.trans hx)
    exact hhas.mp hep
  · exact fun hc => ⟨e, he, hhas.mpr hc⟩

/-- When everything is processed, each side has seen both connections. -/
theorem mem_connects_of_quiescent [DecidableEq S] {acts : List Act} {w : World S} {held : Side → Option Conn} (h : Inv D acts w held)
    (hq : D.Quiescent w) (s : Side) (c : Conn) : c ∈ connects s acts := by
  rw [← h.connected]
  have := hq (.connected s c)
  simp only [Dials.step] at this
  split at this
  · assumption
  · cases this

/-- A connection that both sides, which take sessions, registered last is never closed. -/
theorem open_of_last {acts : List Act} {w : World S} {held : Side → Option Conn} (h : Inv D acts w held) {c : Conn}
    (ha : ∀ s, D.accepts s = true) (hl : ∀ s, (connects s acts).getLast? = some c) : w.closed c = false := by
  rw [← Bool.not_eq_true]
  intro hcl
  obtain ⟨s, -, hr | hne⟩ := h.cause c hcl
  · simp [ha s] at hr
  · exact hne (hl s)

/-- It is also still held. -/
theorem held_of_last {acts : List Act} {w : World S} {held : Side → Option Conn} (h : Inv D acts w held) {c : Conn}
    (ha : ∀ s, D.accepts s = true) (hl : ∀ s, (connects s acts).getLast? = some c) (s : Side) : held s = some c := by
  cases hs : held s with
  | none =>
    have hcl := h.closed s c (h.ended s c (h.lost s c (ha s) hs (hl s)))
    simp [open_of_last h ha hl] at hcl
  | some x => exact (h.last s x hs).symm.trans (hl s)

/-- If both sides hold the same open connection, no side keeps a dead peer. -/
theorem noDeadPeer_of_held {acts : List Act} {w : World S} {held : Side → Option Conn} (h : Inv D acts w held) {c : Conn}
    (hh : ∀ s, held s = some c) (ho : w.closed c = false) : D.NoDeadPeer w := by
  intro s p e he hstate
  by_cases hp : p = D.peerId s.other
  · subst hp
    obtain ⟨x, hx, honly⟩ := (h.keeps s).entry
    obtain rfl : x = e := Option.some.inj (hx.symm.trans he)
    refine ⟨D.tx s c, (mem_channels_iff honly.endpoints _).mpr (by simp [hh s]), fun c' hc' => ?_⟩
    exact tx_inj hc' ▸ ho
  · have hbefore := ((h.keeps s).frame p hp).symm.trans he
    obtain ⟨t, ht⟩ := List.exists_mem_of_ne_nil _ (D.live s p e hbefore hstate)
    obtain ⟨d, id, hd⟩ := (mem_channels e t).mp ht
    exact ⟨t, ht, fun c' hc' => absurd hc' ((D.fresh s c' p e hbefore).2 d id t hd).2⟩

end

/-! ## Every run ends -/

section

variable {S : Type}

/-- How many of its three steps a session has made. -/
def Session.progress (x : Session) : Nat :=
  x.connected.toNat + x.ended.toNat + x.disconnected.toNat

/-- How many steps the sessions have made. -/
def progress (w : World S) : Nat :=
  (Session.progress (w.session .a .ab) + Session.progress (w.session .a .ba)) +
    (Session.progress (w.session .b .ab) + Session.progress (w.session .b .ba))

/-- A session that makes one step brings the whole world one step further. -/
theorem progress_setSession {w : World S} {s : Side} {c : Conn} {x : Session}
    (hx : Session.progress x = Session.progress (w.session s c) + 1) (m : Side → DirectSessions S) (cl : Conn → Bool) :
    progress ⟨m, Dials.setSession w s c x, cl⟩ = progress w + 1 := by
  cases s <;> cases c <;> simp [progress, setSession_apply, hx] <;> omega

variable [DecidableEq S] {D : Dials S}

theorem progress_step {w w' : World S} {a : Act} (h : D.step w a = some w') : progress w' = progress w + 1 := by
  cases a with
  | connected s c =>
    simp only [Dials.step] at h
    split at h
    · cases h
    · obtain rfl := Option.some.inj h
      exact progress_setSession (by simp_all [Session.progress]; omega) _ _
  | ended s c =>
    simp only [Dials.step] at h
    split at h
    · obtain rfl := Option.some.inj h
      exact progress_setSession (by simp_all [Session.progress]; omega) _ _
    · cases h
  | disconnected s c =>
    simp only [Dials.step] at h
    split at h
    · obtain rfl := Option.some.inj h
      exact progress_setSession (by simp_all [Session.progress]) _ _
    · cases h

end

end CrossingAux

open CrossingAux

section

variable {S : Type} [DecidableEq S]

/-- Every run ends: it has at most twelve steps, three for each of the four sessions. -/
theorem crossing_length_le {D : Dials S} {acts : List Act} {w : World S} (h : run D.step D.start acts = some w) :
    acts.length ≤ 12 := by
  have hp : progress w = acts.length := by
    refine run_invariant (fun acts w => progress w = acts.length) rfl ?_ h
    intro acts a w w' ih hstep
    simp [progress_step hstep, ih]
  have hle : ∀ x : Session, Session.progress x ≤ 3 := fun x => by
    rcases x with ⟨_ | _, _ | _, _ | _⟩ <;> decide
  have h1 := hle (w.session .a .ab)
  have h2 := hle (w.session .a .ba)
  have h3 := hle (w.session .b .ab)
  have h4 := hle (w.session .b .ba)
  unfold progress at hp
  omega

/-- **Crossing dials.** When all events of the two connections are processed, one connection is registered at both managers and
no manager keeps a dead peer exactly when the managers handled the two connected events in the same order and both or neither
of them has a device id. -/
theorem sessionLeft_iff (D : Dials S) (acts : List Act) (w : World S) (hrun : run D.step D.start acts = some w)
    (hq : D.Quiescent w) :
    D.SessionLeft w ↔ connects .a acts = connects .b acts ∧ (D.device .a).isSome = (D.device .b).isSome := by
  obtain ⟨held, h⟩ := inv_run hrun
  have horder : ∀ s, connects s acts = [.ab, .ba] ∨ connects s acts = [.ba, .ab] := fun s =>
    two_orders (h.nodup s) (mem_connects_of_quiescent h hq s .ab) (mem_connects_of_quiescent h hq s .ba)
  rw [← accepts_both]
  constructor
  · rintro ⟨⟨c, ha, hb⟩, -⟩
    rw [registered_iff h] at ha hb
    have hacc : ∀ s, held s = some c → D.accepts s = true := fun s hs => by
      by_contra hno
      simp [h.refused s (by simpa using hno)] at hs
    refine ⟨?_, hacc .a ha, hacc .b hb⟩
    have hla := h.last .a c ha
    have hlb := h.last .b c hb
    rcases horder .a with hoa | hoa <;> rcases horder .b with hob | hob <;> simp_all
  · rintro ⟨hsame, hacc⟩
    have ha : ∀ s, D.accepts s = true := fun s => by
      cases s
      · exact hacc.1
      · exact hacc.2
    obtain ⟨c, hc⟩ : ∃ c, (connects .a acts).getLast? = some c := by
      rcases horder .a with ho | ho <;> simp [ho]
    have hl : ∀ s, (connects s acts).getLast? = some c := fun s => by
      cases s
      · exact hc
      · exact hsame ▸ hc
    have hh := held_of_last h ha hl
    exact ⟨⟨c, (registered_iff h .a c).mpr (hh .a), (registered_iff h .b c).mpr (hh .b)⟩,
      noDeadPeer_of_held h hh (open_of_last h ha hl)⟩

end

/-- Two managers without device ids and with empty tables, the second side's connection ids being the first one's. -/
def plainDials : Dials Nat where
  peerId s := match s with
    | .a => "a1"
    | .b => "b2"
  device _ := none
  connectionId _ c := match c with
    | .ab => 1
    | .ba => 2
  tx _ c := match c with
    | .ab => 10
    | .ba => 20
  clock _ _ := 0
  before s := ⟨match s with
    | .a => "a1"
    | .b => "b2", none, ∅, ∅⟩
  connectionId_ne _ := by decide
  tx_ne _ := by decide
  deviceId_eq _ := rfl
  idle _ _ h := nomatch h
  fresh _ _ _ _ h := nomatch h
  live _ _ _ h := nomatch h

/-- Both managers register the connection dialled by the first one and then the other one; its replacement is closed at both
ends. -/
def sameOrder : List Act :=
  [.connected .a .ab, .connected .b .ab, .connected .a .ba, .connected .b .ba, .ended .a .ab, .ended .b .ab,
    .disconnected .a .ab, .disconnected .b .ab]

/-- The first manager registers the connection it dialled first, the second manager the one it dialled. Each then closes the
connection that the other one kept. -/
def ownFirst : List Act :=
  [.connected .a .ab, .connected .b .ba, .connected .a .ba, .connected .b .ab, .ended .a .ab, .ended .b .ba, .ended .a .ba,
    .ended .b .ab, .disconnected .a .ab, .disconnected .b .ab, .disconnected .a .ba, .disconnected .b .ba]

theorem sessionLeft_sameOrder :
    ∃ w, run plainDials.step plainDials.start sameOrder = some w ∧ plainDials.Quiescent w ∧ plainDials.SessionLeft w := by
  refine ⟨_, rfl, ?_, ?_⟩
  · rintro (⟨s, c⟩ | ⟨s, c⟩ | ⟨s, c⟩) <;> cases s <;> cases c <;> rfl
  · refine (sessionLeft_iff plainDials sameOrder _ rfl ?_).mpr ⟨rfl, rfl⟩
    rintro (⟨s, c⟩ | ⟨s, c⟩ | ⟨s, c⟩) <;> cases s <;> cases c <;> rfl

theorem sessionLeft_fails_ownFirst :
    ∃ w, run plainDials.step plainDials.start ownFirst = some w ∧ plainDials.Quiescent w ∧
      ¬plainDials.SessionLeft w := by
  refine ⟨_, rfl, ?_, ?_⟩
  · rintro (⟨s, c⟩ | ⟨s, c⟩ | ⟨s, c⟩) <;> cases s <;> cases c <;> rfl
  · rintro ⟨⟨c, ⟨e, he, hep⟩, -⟩, -⟩
    obtain rfl := Option.some.inj he
    cases c <;> cases hep

end DoubleSlash.Direct
