import DoubleSlash.Direct.Crossing
import DoubleSlash.Lemmas.Sessions

/-!
# What the two tables hold while the dials cross

Each manager keeps the session it registered last. The invariant says so, and says why a connection was closed: some side had
registered the other one after it, or does not take sessions of this kind.
-/

namespace DoubleSlash.Direct

open Tls Assoc Run PeerConnection

namespace CrossingAux

open SessionsAux

section

variable {S : Type} [DecidableEq S]

/-! ## One table -/

/-- The table differs from `m₀` only in what is filed under `p`, and there its only session is `held`. -/
structure Keeps (m₀ m : DirectSessions S) (p : String) (d : Option DeviceId) (held : Option (Nat × S)) : Prop where
  entry : ∃ e, m.peers.lookup p = some e ∧ Only e d held
  frame : ∀ q, q ≠ p → m.peers.lookup q = m₀.peers.lookup q
  resolve : m.resolveQuicPeerAlias p = m₀.resolveQuicPeerAlias p
  device : m.deviceId = m₀.deviceId

omit [DecidableEq S] in
/-- A dial to a peer without a session files the peer without one. -/
theorem keeps_dial {m₀ : DirectSessions S} {p : String} (d : Option DeviceId)
    (h : ∀ e, m₀.peers.lookup p = some e → e.state = .disconnected ∧ e.quicOutTx = none ∧ e.endpoints.isEmpty) :
    Keeps m₀ (m₀.connectDirectQuic p) p d none := by
  have hdials : m₀.dials p = true := by
    unfold DirectSessions.dials
    cases he : m₀.peers.lookup p with
    | none => rfl
    | some e => simp [(h e he).1]
  unfold DirectSessions.connectDirectQuic
  rw [if_pos hdials]
  refine ⟨⟨_, AList.lookup_insert _, ?_⟩, fun q hq => AList.lookup_insert_ne hq, rfl, rfl⟩
  cases he : m₀.peers.lookup p with
  | none => exact ⟨fun d' => by simp [PeerConnection.new], rfl, by simp⟩
  | some e =>
    obtain ⟨-, hq, hempty⟩ := h e he
    exact ⟨fun d' => by simp [Std.TreeMap.getElem?_of_isEmpty hempty], hq, by simp⟩

/-- A session that is taken is the one held from then on. -/
theorem keeps_connected {m₀ m : DirectSessions S} {p : String} {d : Option DeviceId} {held : Option (Nat × S)}
    (h : Keeps m₀ m p d held) (hd : (d.isSome && m.deviceId.isNone) = false) (id : Nat) (t : S) (now : Nat) :
    Keeps m₀ (m.quicConnected p ⟨d, id⟩ t now) p d (some (id, t)) := by
  obtain ⟨e, he, honly⟩ := h.entry
  obtain ⟨htaken, hreg⟩ := register_only honly.endpoints id t
  have heq : m.quicConnected p ⟨d, id⟩ t now = { m with
      peers := m.peers.insert p { (e.registerEndpoint ⟨d, id⟩ t).1 with connectedAt := some now } } := by
    unfold DirectSessions.quicConnected
    rw [hd, he]
    simp only [Option.getD_some]
    generalize e.registerEndpoint ⟨d, id⟩ t = r at htaken
    obtain ⟨e', b⟩ := r
    simp only at htaken
    subst htaken
    rfl
  rw [heq]
  exact ⟨⟨_, AList.lookup_insert _, hreg.endpoints, hreg.selected, hreg.state⟩,
    fun q hq => (AList.lookup_insert_ne hq).trans (h.frame q hq), h.resolve, h.device⟩

/-- A disconnect removes the session it names, if that is the one held, and nothing else. -/
theorem keeps_disconnected {m₀ m : DirectSessions S} {p : String} {d : Option DeviceId} {held : Option (Nat × S)}
    (h : Keeps m₀ m p d held) (id : Nat)
    (hfresh : ∀ q e, m₀.peers.lookup q = some e → e.hasEndpoint ⟨d, id⟩ = false) :
    ∃ held', Keeps m₀ (m.quicDisconnected p (some ⟨d, id⟩)) p d held' ∧
      (held' = held ∨ held' = none ∧ (held.any fun x => x.1 == id) = true) := by
  obtain ⟨e, he, honly⟩ := h.entry
  by_cases hcan : m.resolveQuicPeerAlias p = p
  · by_cases hid : (held.any fun x => x.1 == id) = true
    · obtain ⟨hrem, hnone, hempty⟩ := remove_only honly.endpoints hid
      generalize hr : e.removeEndpoint ⟨d, id⟩ = r at hrem hnone hempty
      obtain ⟨e', b⟩ := r
      simp only at hrem hnone hempty
      subst hrem
      refine ⟨none, ?_, Or.inr ⟨rfl, hid⟩⟩
      rw [quicDisconnected_last (hcan.symm ▸ he) hr hempty, hcan]
      unfold DirectSessions.forgetSession
      simp only [ne_eq, not_true_eq_false, if_false]
      refine ⟨⟨DirectSessions.dropSession e', ?_, hnone.endpoints, rfl, by simp [DirectSessions.dropSession]⟩,
        fun q hq => ?_, ?_, h.device⟩
      · simp [lookup_modify]
      · rw [lookup_modify, if_neg hq, AList.lookup_insert_ne hq]
        exact h.frame q hq
      · rw [← h.resolve, hcan]
        simp [DirectSessions.resolveQuicPeerAlias]
    · refine ⟨held, ?_, Or.inl rfl⟩
      have hno : e.hasEndpoint ⟨d, id⟩ = false := by
        rw [hasEndpoint_only honly.endpoints]
        simpa using hid
      rwa [quicDisconnected_stale fun x hx => (Option.some.inj ((hcan ▸ hx).symm.trans he)) ▸ hno]
  · -- the event is looked up under the alias, where the session is not filed
    refine ⟨held, ?_, Or.inl rfl⟩
    rwa [quicDisconnected_stale fun x hx => hfresh _ x ((h.frame _ hcan).symm.trans hx)]

/-- The table holds a channel that was not in it before exactly when it is the session's. -/
theorem holds_iff {m₀ m : DirectSessions S} {p : String} {d : Option DeviceId} {held : Option (Nat × S)}
    (h : Keeps m₀ m p d held) {t : S}
    (hfresh : ∀ q e, m₀.peers.lookup q = some e → e.quicOutTx ≠ some t ∧ t ∉ e.channels) :
    m.holds t = true ↔ held.map Prod.snd = some t := by
  obtain ⟨e, he, honly⟩ := h.entry
  simp only [DirectSessions.holds, List.any_eq_true, mem_values, Bool.or_eq_true, decide_eq_true_eq, List.contains_eq_mem]
  constructor
  · rintro ⟨x, ⟨q, hq⟩, hx⟩
    by_cases hqp : q = p
    · subst hqp
      obtain rfl : e = x := Option.some.inj (he.symm.trans hq)
      rcases hx with hx | hx
      · rw [← honly.selected, hx]
      · exact (mem_channels_iff honly.endpoints t).mp hx
    · obtain ⟨hs, hc⟩ := hfresh q x ((h.frame q hqp).symm.trans hq)
      exact (hx.elim hs hc).elim
  · intro ht
    exact ⟨e, ⟨p, he⟩, Or.inl (honly.selected.trans ht)⟩

/-! ## Both sides -/

omit [DecidableEq S] in
theorem setSession_apply (w : World S) (s s' : Side) (c c' : Conn) (x : Session) :
    Dials.setSession w s c x s' c' = if s' = s ∧ c' = c then x else w.session s' c' := by
  unfold Dials.setSession
  by_cases hs : s' = s
  · subst hs
    by_cases hc : c' = c <;> simp [hc]
  · simp [hs]

omit [DecidableEq S] in
/-- What holds of every session, and of the one put in its place, holds of every session afterwards. -/
theorem setSession_forall {w : World S} {s : Side} {c : Conn} {x : Session} (P : Side → Conn → Session → Prop)
    (h : ∀ s' c', P s' c' (w.session s' c')) (hx : P s c x) (s' : Side) (c' : Conn) :
    P s' c' (Dials.setSession w s c x s' c') := by
  rw [setSession_apply]
  split
  · rename_i heq
    obtain ⟨rfl, rfl⟩ := heq
    exact hx
  · exact h s' c'

theorem connects_concat (s : Side) (acts : List Act) (a : Act) :
    connects s (acts ++ [a]) = connects s acts ++ connects s [a] := by
  simp [connects]

variable (D : Dials S)

/-- What is true after the actions `acts`, when the sides hold `held`. -/
structure Inv (acts : List Act) (w : World S) (held : Side → Option Conn) : Prop where
  keeps : ∀ s, Keeps (D.before s) (w.manager s) (D.peerId s.other) (D.device s.other)
    ((held s).map fun c => (D.connectionId s c, D.tx s c))
  refused : ∀ s, D.accepts s = false → held s = none
  last : ∀ s c, held s = some c → (connects s acts).getLast? = some c
  lost : ∀ s c, D.accepts s = true → held s = none → (connects s acts).getLast? = some c →
    (w.session s c).disconnected = true
  connected : ∀ s c, (w.session s c).connected = true ↔ c ∈ connects s acts
  nodup : ∀ s, (connects s acts).Nodup
  ended : ∀ s c, (w.session s c).disconnected = true → (w.session s c).ended = true
  closed : ∀ s c, (w.session s c).ended = true → w.closed c = true
  cause : ∀ c, w.closed c = true →
    ∃ s, c ∈ connects s acts ∧ (D.accepts s = false ∨ (connects s acts).getLast? ≠ some c)

omit [DecidableEq S] in
theorem inv_start : Inv D [] D.start fun _ => none where
  keeps s := keeps_dial _ (D.idle s)
  refused _ _ := rfl
  last _ _ h := nomatch h
  lost _ _ _ _ h := nomatch h
  connected _ _ := by simp [Dials.start, connects]
  nodup _ := List.nodup_nil
  ended _ _ h := by simp [Dials.start] at h
  closed _ _ h := by simp [Dials.start] at h
  cause _ h := by simp [Dials.start] at h

variable {D}

omit [DecidableEq S] in
theorem tx_inj {s : Side} {c c' : Conn} (h : D.tx s c = D.tx s c') : c = c' := by
  have := D.tx_ne s
  cases c <;> cases c' <;> simp_all

omit [DecidableEq S] in
theorem connectionId_inj {s : Side} {c c' : Conn} (h : D.connectionId s c = D.connectionId s c') : c = c' := by
  have := D.connectionId_ne s
  cases c <;> cases c' <;> simp_all

/-- A side's table holds a connection's channel exactly when the side holds the connection. -/
theorem holds_tx {acts : List Act} {w : World S} {held : Side → Option Conn} (h : Inv D acts w held) (s : Side) (c : Conn) :
    (w.manager s).holds (D.tx s c) = true ↔ held s = some c := by
  rw [holds_iff (h.keeps s) fun q e he => ⟨(D.fresh s c q e he).1, fun hmem => ?_⟩]
  · cases hs : held s with
    | none => simp
    | some c' => simpa using ⟨fun h => tx_inj h, fun h => h ▸ rfl⟩
  · obtain ⟨d, id, hd⟩ := (mem_channels e _).mp hmem
    exact ((D.fresh s c q e he).2 d id _ hd).2 rfl

/-- A connected event: the side takes the connection, if it takes any. -/
theorem inv_connected {acts : List Act} {w w' : World S} {held : Side → Option Conn} (h : Inv D acts w held) {s : Side}
    {c : Conn} (hstep : D.step w (.connected s c) = some w') :
    Inv D (acts ++ [.connected s c]) w'
      (Function.update held s (if D.accepts s = true then some c else held s)) := by
  simp only [Dials.step] at hstep
  split at hstep
  · cases hstep
  rename_i hnew
  obtain rfl := Option.some.inj hstep
  have hc : c ∉ connects s acts := fun hmem => hnew ((h.connected s c).mpr hmem)
  have hcs : connects s (acts ++ [.connected s c]) = connects s acts ++ [c] := by
    rw [connects_concat]
    simp [connects]
  have hne : ∀ s', s' ≠ s → connects s' (acts ++ [.connected s c]) = connects s' acts := fun s' hs' => by
    rw [connects_concat]
    simp [connects, Ne.symm hs']
  refine ⟨fun s' => ?_, fun s' hs' => ?_, fun s' c' hh => ?_, fun s' c' ha hn hl => ?_, fun s' c' => ?_, fun s' => ?_,
    fun s' c' => ?_, fun s' c' => ?_, fun c' hcl => ?_⟩
  · by_cases hs : s' = s
    · subst hs
      simp only [Function.update_self]
      by_cases ha : D.accepts s' = true
      · have hd : ((D.device s'.other).isSome && (w.manager s').deviceId.isNone) = false := by
          rw [(h.keeps s').device, D.deviceId_eq]
          exact (Bool.not_eq_true' _).mp ha
        rw [if_pos ha]
        exact keeps_connected (h.keeps s') hd _ _ _
      · have hd : ((D.device s'.other).isSome && (w.manager s').deviceId.isNone) = true := by
          rw [(h.keeps s').device, D.deviceId_eq]
          simpa only [Dials.accepts, Bool.not_eq_true', Bool.not_eq_false] using ha
        have heq : (w.manager s').quicConnected (D.peerId s'.other) (D.endpoint s' c) (D.tx s' c) (D.clock s' c) =
            w.manager s' := by
          simp only [DirectSessions.quicConnected, Dials.endpoint, hd, if_true]
        simpa only [if_neg ha, heq] using h.keeps s'
    · simpa only [Function.update_of_ne hs] using h.keeps s'
  · by_cases hs : s' = s
    · subst hs
      simpa [hs'] using h.refused s' hs'
    · simpa [hs] using h.refused s' hs'
  · by_cases hs : s' = s
    · subst hs
      rw [hcs]
      by_cases ha : D.accepts s' = true
      · simpa [ha] using hh
      · have := h.refused s' (by simpa using ha)
        simp [ha, this] at hh
    · rw [hne s' hs]
      exact h.last s' c' (by simpa [hs] using hh)
  · by_cases hs : s' = s
    · subst hs
      simp [ha] at hn
    · rw [hne s' hs] at hl
      simp only [setSession_apply, hs, false_and, if_false]
      exact h.lost s' c' ha (by simpa [hs] using hn) hl
  · by_cases hs : s' = s
    · subst hs
      rw [hcs]
      by_cases hcc : c' = c
      · simp [setSession_apply, hcc]
      · simp [setSession_apply, hcc, h.connected]
    · rw [hne s' hs]
      simp [setSession_apply, hs, h.connected]
  · by_cases hs : s' = s
    · subst hs
      rw [hcs]
      exact List.Nodup.append (h.nodup s') (List.nodup_singleton c) (by simpa using hc)
    · rw [hne s' hs]
      exact h.nodup s'
  · refine setSession_forall (fun _ _ x => x.disconnected = true → x.ended = true) h.ended ?_ s' c'
    exact h.ended s c
  · refine setSession_forall (fun _ c x => x.ended = true → w.closed c = true) h.closed ?_ s' c'
    exact h.closed s c
  · obtain ⟨s', hmem, hwhy⟩ := h.cause c' hcl
    refine ⟨s', by rw [connects_concat]; exact List.mem_append_left _ hmem, ?_⟩
    by_cases hs : s' = s
    · -- the connection registered now is not the closed one, which this side has already seen
      subst hs
      refine Or.inr ?_
      rw [hcs]
      intro heq
      obtain rfl : c = c' := by simpa using heq
      exact hc hmem
    · rwa [hne s' hs]

/-- A session's end: it closes its connection. -/
theorem inv_ended {acts : List Act} {w w' : World S} {held : Side → Option Conn} (h : Inv D acts w held) {s : Side}
    {c : Conn} (hstep : D.step w (.ended s c) = some w') : Inv D (acts ++ [.ended s c]) w' held := by
  simp only [Dials.step] at hstep
  split at hstep
  swap
  · cases hstep
  rename_i hguard
  obtain rfl := Option.some.inj hstep
  have hcs : ∀ s', connects s' (acts ++ [.ended s c]) = connects s' acts := fun s' => by
    rw [connects_concat]
    simp [connects]
  refine ⟨h.keeps, h.refused, fun s' c' => by rw [hcs]; exact h.last s' c', fun s' c' ha hn hl => ?_, fun s' c' => ?_,
    fun s' => by rw [hcs]; exact h.nodup s', fun s' c' => ?_, fun s' c' => ?_, fun c' hcl => ?_⟩
  · rw [hcs] at hl
    refine setSession_forall (fun s c x => D.accepts s = true → held s = none → (connects s acts).getLast? = some c → x.disconnected = true) h.lost ?_ s' c' ha hn hl
    exact h.lost s c
  · rw [hcs]
    refine setSession_forall (fun s c x => x.connected = true ↔ c ∈ connects s acts) h.connected ?_ s' c'
    exact h.connected s c
  · refine setSession_forall (fun _ _ x => x.disconnected = true → x.ended = true) h.ended ?_ s' c'
    exact fun _ => rfl
  · simp only [setSession_apply, Function.update_apply]
    split
    · rename_i heq
      simp [heq.2]
    · intro he
      simp [h.closed s' c' he]
  · simp only [hcs]
    by_cases hwas : w.closed c' = true
    · exact h.cause c' hwas
    · obtain rfl : c' = c := by
        by_contra hne
        simp [hne, hwas] at hcl
      -- the channel was dropped: another connection was registered after this one, or none is taken
      have hfree : (w.session s c').connected = true ∧ held s ≠ some c' := by
        have hor := (Bool.and_eq_true_iff.mp hguard).2
        rw [Bool.or_eq_true] at hor
        obtain hor | hor := hor
        · rw [Bool.and_eq_true, Bool.not_eq_true'] at hor
          exact ⟨hor.1, fun hh => by simp [(holds_tx h s c').mpr hh] at hor⟩
        · exact absurd hor hwas
      refine ⟨s, (h.connected s c').mp hfree.1, ?_⟩
      by_cases ha : D.accepts s = true
      · refine Or.inr fun hl => ?_
        cases hh : held s with
        | none => exact hwas (h.closed s c' (h.ended s c' (h.lost s c' ha hh hl)))
        | some x =>
          have hx := (h.last s x hh).symm.trans hl
          exact hfree.2 (hx ▸ hh)
      · exact Or.inl (by simpa using ha)

/-- A disconnected event: the side gives the connection up if it held it. -/
theorem inv_disconnected {acts : List Act} {w w' : World S} {held : Side → Option Conn} (h : Inv D acts w held) {s : Side}
    {c : Conn} (hstep : D.step w (.disconnected s c) = some w') :
    ∃ held', Inv D (acts ++ [.disconnected s c]) w' held' := by
  simp only [Dials.step] at hstep
  split at hstep
  swap
  · cases hstep
  rename_i hguard
  simp only [Bool.and_eq_true, Bool.not_eq_true'] at hguard
  obtain rfl := Option.some.inj hstep
  have hcs : ∀ s', connects s' (acts ++ [.disconnected s c]) = connects s' acts := fun s' => by
    rw [connects_concat]
    simp [connects]
  obtain ⟨x, hkeep, hx⟩ := keeps_disconnected (h.keeps s) (D.connectionId s c) fun q e he => by
    simp only [hasEndpoint, Option.any_eq_false_iff_get, beq_eq_false_iff_ne]
    intro hsome
    exact ((D.fresh s c q e he).2 _ _ _ (Option.some_get hsome).symm).1
  -- the connection given up, if any, is the one the event names
  obtain ⟨y, rfl, hy⟩ : ∃ y : Option Conn, x = y.map (fun c => (D.connectionId s c, D.tx s c)) ∧
      (y = held s ∨ y = none ∧ held s = some c) := by
    obtain rfl | ⟨rfl, hany⟩ := hx
    · exact ⟨held s, rfl, Or.inl rfl⟩
    · refine ⟨none, rfl, Or.inr ⟨rfl, ?_⟩⟩
      cases hh : held s with
      | none => simp [hh] at hany
      | some c' =>
        rw [hh] at hany
        simp only [Option.map_some, Option.any_some, beq_iff_eq] at hany
        rw [connectionId_inj hany]
  refine ⟨Function.update held s y, fun s' => ?_, fun s' hs' => ?_, fun s' c' hh => ?_, fun s' c' ha hn hl => ?_,
    fun s' c' => ?_, fun s' => by rw [hcs]; exact h.nodup s', fun s' c' => ?_, fun s' c' => ?_,
    fun c' hcl => by simpa only [hcs] using h.cause c' hcl⟩
  · by_cases hs : s' = s
    · subst hs
      simp only [Function.update_self]
      exact hkeep
    · simpa only [Function.update_of_ne hs] using h.keeps s'
  · by_cases hs : s' = s
    · subst hs
      have := h.refused s' hs'
      simp only [Function.update_self]
      rcases hy with hy | hy
      · exact hy.trans this
      · exact hy.1
    · simpa [hs] using h.refused s' hs'
  · rw [hcs]
    by_cases hs : s' = s
    · subst hs
      simp only [Function.update_self] at hh
      rcases hy with hy | hy
      · exact h.last s' c' (hy.symm.trans hh)
      · simp [hy.1] at hh
    · exact h.last s' c' (by simpa [hs] using hh)
  · rw [hcs] at hl
    simp only [setSession_apply]
    split
    · rfl
    · rename_i hne
      by_cases hs : s' = s
      · subst hs
        simp only [Function.update_self] at hn
        rcases hy with hy | hy
        · exact h.lost s' c' ha (hy.symm.trans hn) hl
        · have := (h.last s' c hy.2).symm.trans hl
          exact absurd ⟨rfl, (Option.some.inj this).symm⟩ hne
      · exact h.lost s' c' ha (by simpa [hs] using hn) hl
  · rw [hcs]
    refine setSession_forall (fun s c x => x.connected = true ↔ c ∈ connects s acts) h.connected ?_ s' c'
    exact h.connected s c
  · refine setSession_forall (fun _ _ x => x.disconnected = true → x.ended = true) h.ended ?_ s' c'
    exact fun _ => hguard.1.2
  · refine setSession_forall (fun _ c x => x.ended = true → w.closed c = true) h.closed ?_ s' c'
    exact h.closed s c

/-- The invariant holds after every run. -/
theorem inv_run {acts : List Act} {w : World S} (h : run D.step D.start acts = some w) : ∃ held, Inv D acts w held := by
  refine run_invariant (fun acts w => ∃ held, Inv D acts w held) ⟨_, inv_start D⟩ ?_ h
  rintro acts a w w' ⟨held, hinv⟩ hstep
  cases a with
  | connected s c => exact ⟨_, inv_connected hinv hstep⟩
  | ended s c => exact ⟨_, inv_ended hinv hstep⟩
  | disconnected s c => exact inv_disconnected hinv hstep

end

end CrossingAux

end DoubleSlash.Direct
