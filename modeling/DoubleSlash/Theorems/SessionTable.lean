import DoubleSlash.Direct.Sessions
import DoubleSlash.Lib.Run
import DoubleSlash.Manager.DirectLane

/-!
# The direct-session table and the live sessions

An endpoint is filed under one id and its session's events reach it through one alias. The table follows the live sessions as long
as no session starts under an id that has an alias, no relabel cuts the way of a session that is filed, and no dial ends without a
word to the entry that waits for it.
-/

namespace DoubleSlash.Direct

open Tls Assoc Run PeerConnection

variable {S : Type} [DecidableEq S]

/-- The endpoint is filed under the peer id. -/
def Filed (m : DirectSessions S) (q : String) (ep : DirectEndpoint) : Prop :=
  ∃ c, m.peers.lookup q = some c ∧ c.hasEndpoint ep = true

omit [DecidableEq S] in
theorem filed_iff_any {m : DirectSessions S} {q : String} {ep : DirectEndpoint} :
    Filed m q ep ↔ ((m.peers.lookup q).any fun c => c.hasEndpoint ep) = true := by
  rw [Option.any_eq_true]
  rfl

instance (m : DirectSessions S) (q : String) (ep : DirectEndpoint) : Decidable (Filed m q ep) :=
  decidable_of_iff _ filed_iff_any.symm

/-- The table follows the live sessions. -/
structure Follows (t : Tracker S) : Prop where
  /-- Data of a live session is processed under the id it is filed under. -/
  heard : ∀ s ∈ t.live, ∀ q, Filed t.table q s.endpoint →
    Manager.mediaAttribution t.table s.startedAs s.endpoint = some q
  /-- What is filed is live. -/
  alive : ∀ q ep, Filed t.table q ep → ∃ s ∈ t.live, s.endpoint = ep
  /-- A peer without a live session is disconnected and can be dialled, unless a dial is in flight. -/
  dialable : ∀ q, (∀ s ∈ t.live, ¬Filed t.table q s.endpoint) → q ∉ t.dialing →
    (∀ c, t.table.peers.lookup q = some c → c.state = .disconnected) ∧ t.table.dials q = true

/-- The end of a session takes its endpoint out of the table and no other. -/
def EndsAlone (t : Tracker S) (event : TableEvent S) (t' : Tracker S) : Prop :=
  ∀ s, event = .ended s →
    (∀ q, ¬Filed t'.table q s.endpoint) ∧ ∀ q ep, ep ≠ s.endpoint → Filed t.table q ep → Filed t'.table q ep

/-! ## The condition -/

/-- The peer's entry waits for a dial, and nothing else of the peer is in flight or connected. -/
def WaitsAlone (t : Tracker S) (peerId : String) : Prop :=
  peerId ∉ t.dialing.erase peerId ∧
    ∃ c, t.table.peers.lookup peerId = some c ∧ c.state = .connecting ∧ c.endpoints.isEmpty = true

/-- The session is not let in: it names a device and device routing is off. -/
def TurnedAway (t : Tracker S) (session : TrackedSession S) : Prop :=
  session.endpoint.device.isSome = true ∧ t.table.deviceId = none

/-- The peer id has no alias, or one to itself. -/
def Unaliased (t : Tracker S) (peerId : String) : Prop := t.table.resolveQuicPeerAlias peerId = peerId

/-- What keeps the table and the sessions together. -/
def Orderly (t : Tracker S) (event : TableEvent S) : Prop :=
  match event with
  | .connected session answers _ =>
    (TurnedAway t session → answers = true → ¬WaitsAlone t session.startedAs) ∧
      (¬TurnedAway t session → Unaliased t session.startedAs ∨
        (((t.table.peers.lookup session.startedAs).getD (PeerConnection.new session.startedAs)).registerEndpoint
          session.endpoint session.channel).2 = false)
  | .relabel current canonical =>
    current ≠ canonical → canonical ≠ "" → canonical ≠ t.table.ownPeerId → (t.table.peers.lookup current).isSome = true →
      ∀ s ∈ t.live, (Filed t.table current s.endpoint → s.startedAs = current) ∧
        (s.startedAs = current → ∀ q, Filed t.table q s.endpoint → q = current ∨ q = canonical)
  | .dialFailed peerId =>
    ¬Unaliased t peerId →
      (∀ c, t.table.peers.lookup (t.table.resolveQuicPeerAlias peerId) = some c → c.endpoints.isEmpty = false) →
        ¬WaitsAlone t peerId
  | _ => True

namespace SessionTableAux

/-! ## Entries -/

omit [DecidableEq S] in
theorem hasEndpoint_iff {c : PeerConnection S} {ep : DirectEndpoint} :
    c.hasEndpoint ep = true ↔ ∃ tx, c.endpoints[ep.device]? = some (ep.connectionId, tx) := by
  simp only [hasEndpoint, Option.any_eq_true, beq_iff_eq, Prod.exists]
  constructor
  · rintro ⟨id, tx, h, rfl⟩
    exact ⟨tx, h⟩
  · rintro ⟨tx, h⟩
    exact ⟨_, tx, h, rfl⟩

omit [DecidableEq S] in
theorem isEmpty_iff {c : PeerConnection S} : c.endpoints.isEmpty = true ↔ ∀ ep, c.hasEndpoint ep = false := by
  rw [Std.TreeMap.isEmpty_iff_forall_not_mem]
  constructor
  · intro h ep
    rw [← Bool.not_eq_true, hasEndpoint_iff]
    rintro ⟨tx, htx⟩
    exact h ep.device (Std.TreeMap.mem_iff_isSome_getElem?.mpr (by rw [htx]; rfl))
  · intro h device hmem
    obtain ⟨⟨id, tx⟩, hx⟩ := Option.isSome_iff_exists.mp (Std.TreeMap.mem_iff_isSome_getElem?.mp hmem)
    have := h ⟨device, id⟩
    rw [← Bool.not_eq_true, hasEndpoint_iff] at this
    exact this ⟨tx, hx⟩

/-- A session that is taken is there, beside those of the other devices. -/
theorem hasEndpoint_register {c : PeerConnection S} {ep ep' : DirectEndpoint} {tx : S}
    (h : (c.registerEndpoint ep tx).1.hasEndpoint ep' = true) :
    c.hasEndpoint ep' = true ∨ (ep' = ep ∧ (c.registerEndpoint ep tx).2 = true) := by
  unfold registerEndpoint at h ⊢
  split at h
  · exact Or.inl h
  · rename_i hroom
    rw [if_neg hroom]
    obtain ⟨tx', htx'⟩ := hasEndpoint_iff.mp h
    rw [refreshEndpointState_endpoints, Std.TreeMap.getElem?_insert] at htx'
    split at htx'
    · rename_i hdevice
      have hd : ep.device = ep'.device := Std.LawfulEqCmp.eq_of_compare hdevice
      obtain ⟨hid, -⟩ := Prod.mk.inj (Option.some.inj htx')
      refine Or.inr ⟨?_, rfl⟩
      cases ep
      cases ep'
      cases hd
      cases hid
      rfl
    · exact Or.inl (hasEndpoint_iff.mpr ⟨tx', htx'⟩)

/-- An entry that takes or refuses a session is not left empty. -/
theorem register_nonempty {c : PeerConnection S} {ep : DirectEndpoint} {tx : S} :
    (c.registerEndpoint ep tx).1.endpoints.isEmpty = false := by
  unfold registerEndpoint
  split
  · rename_i hfull
    simp only [Bool.and_eq_true, maxLiveDeviceRoutes] at hfull
    rw [← Bool.not_eq_true, Std.TreeMap.isEmpty_iff_forall_not_mem]
    intro hempty
    have hkeys : c.endpoints.keys = [] := List.eq_nil_iff_forall_not_mem.mpr fun d hd => hempty d (Std.TreeMap.mem_keys.mp hd)
    rw [hkeys] at hfull
    simp at hfull
  · rw [refreshEndpointState_endpoints]
    exact Std.TreeMap.isEmpty_insert

theorem hasEndpoint_remove {c c' : PeerConnection S} {ep ep' : DirectEndpoint} (h : c.removeEndpoint ep = (c', true)) :
    c'.hasEndpoint ep' = true ↔ c.hasEndpoint ep' = true ∧ ep' ≠ ep := by
  unfold removeEndpoint at h
  split at h
  · rename_i hhas
    obtain ⟨tx, htx⟩ := hasEndpoint_iff.mp hhas
    rw [← (Prod.mk.inj h).1, hasEndpoint_iff, hasEndpoint_iff]
    simp only [refreshEndpointState_endpoints, Std.TreeMap.getElem?_erase]
    by_cases hdevice : ep.device = ep'.device
    · rw [hdevice] at htx ⊢
      simp only [Std.ReflCmp.compare_self, if_true]
      constructor
      · rintro ⟨tx', htx'⟩
        cases htx'
      · rintro ⟨⟨tx', htx'⟩, hne⟩
        rw [htx] at htx'
        refine absurd ?_ hne
        cases ep
        cases ep'
        cases hdevice
        cases (Prod.mk.inj (Option.some.inj htx')).1
        rfl
    · have hcmp : compare ep.device ep'.device ≠ .eq := fun heq => hdevice (Std.LawfulEqCmp.eq_of_compare heq)
      rw [if_neg hcmp]
      exact ⟨fun h => ⟨h, fun heq => hdevice (by rw [heq])⟩, fun h => h.1⟩
  · cases (Prod.mk.inj h).2

/-- Without endpoints a refreshed entry is disconnected. -/
theorem remove_disconnected {c c' : PeerConnection S} {ep : DirectEndpoint} (h : c.removeEndpoint ep = (c', true))
    (hempty : c'.endpoints.isEmpty = true) : c'.state = .disconnected := by
  unfold removeEndpoint at h
  split at h
  · rw [← (Prod.mk.inj h).1] at hempty ⊢
    have hnil : channels { c with endpoints := c.endpoints.erase ep.device } = [] := by
      rw [List.eq_nil_iff_forall_not_mem]
      intro tx htx
      obtain ⟨d, id, hd⟩ := (mem_channels _ tx).mp htx
      rw [refreshEndpointState_endpoints] at hempty
      have hnot := Std.TreeMap.isEmpty_iff_forall_not_mem.mp hempty d
      exact hnot (Std.TreeMap.mem_iff_isSome_getElem?.mpr (by rw [hd]; rfl))
    generalize { c with endpoints := c.endpoints.erase ep.device } = d at hnil
    have hselected : ¬d.refreshEndpointState.quicOutTx.isSome = true := (selected_isSome d).not.mpr (not_not.mpr hnil)
    exact if_neg hselected
  · cases (Prod.mk.inj h).2

/-- An entry is settled when without endpoints it is disconnected or waits for a dial in flight. -/
def Settled (dialing : List String) (q : String) (c : PeerConnection S) : Prop :=
  c.endpoints.isEmpty = true → c.state = .disconnected ∨ (c.state = .connecting ∧ q ∈ dialing)

theorem hasEndpoint_moveEndpoints {ep : DirectEndpoint} (l : List (Option DeviceId × (Nat × S))) (c : PeerConnection S)
    (h : (DirectSessions.moveEndpoints l c).hasEndpoint ep = true) :
    c.hasEndpoint ep = true ∨ ∃ tx, (ep.device, (ep.connectionId, tx)) ∈ l := by
  induction l generalizing c with
  | nil => exact Or.inl h
  | cons e l ih =>
    obtain hhas | ⟨tx, hmem⟩ := ih _ h
    · obtain hold | ⟨rfl, -⟩ := hasEndpoint_register hhas
      · exact Or.inl hold
      · exact Or.inr ⟨e.2.2, List.mem_cons_self⟩
    · exact Or.inr ⟨tx, List.mem_cons_of_mem _ hmem⟩

theorem settled_moveEndpoints {dialing : List String} {q : String} (l : List (Option DeviceId × (Nat × S)))
    (c : PeerConnection S) (h : Settled dialing q c) : Settled dialing q (DirectSessions.moveEndpoints l c) := by
  induction l generalizing c with
  | nil => exact h
  | cons e l ih =>
    apply ih
    intro hempty
    rw [register_nonempty] at hempty
    cases hempty

/-! ## The table -/

variable {m m' : DirectSessions S} {p q : String} {ep : DirectEndpoint}

omit [DecidableEq S] in
theorem filed_insert {c : PeerConnection S} (hpeers : m'.peers = m.peers.insert p c) :
    Filed m' q ep ↔ (q = p ∧ c.hasEndpoint ep = true) ∨ (q ≠ p ∧ Filed m q ep) := by
  unfold Filed
  rw [hpeers]
  by_cases hq : q = p
  · subst hq
    simp
  · rw [AList.lookup_insert_ne hq]
    exact ⟨fun h => Or.inr ⟨hq, h⟩, fun h => (h.resolve_left fun h => hq h.1).2⟩

omit [DecidableEq S] in
/-- The entry a handler starts from has what is filed. -/
theorem filed_of_entry (h : ((m.peers.lookup p).getD (PeerConnection.new p)).hasEndpoint ep = true) : Filed m p ep := by
  cases hp : m.peers.lookup p with
  | some c =>
    rw [hp] at h
    exact ⟨c, hp, h⟩
  | none =>
    rw [hp] at h
    obtain ⟨tx, htx⟩ := hasEndpoint_iff.mp h
    simp [PeerConnection.new] at htx

/-- What the start of a session does to the table. -/
theorem quicConnected_cases (s : TrackedSession S) (now : Nat) :
    ((s.endpoint.device.isSome = true ∧ m.deviceId = none) ∧ m.quicConnected s.startedAs s.endpoint s.channel now = m) ∨
      (¬(s.endpoint.device.isSome = true ∧ m.deviceId = none) ∧ ∃ c,
        (m.quicConnected s.startedAs s.endpoint s.channel now) = { m with peers := m.peers.insert s.startedAs c } ∧
        c.endpoints.isEmpty = false ∧ ∀ ep, c.hasEndpoint ep = true → Filed m s.startedAs ep ∨
          (ep = s.endpoint ∧ (((m.peers.lookup s.startedAs).getD (PeerConnection.new s.startedAs)).registerEndpoint
            s.endpoint s.channel).2 = true)) := by
  unfold DirectSessions.quicConnected
  split
  · rename_i haway
    rw [Bool.and_eq_true, Option.isNone_iff_eq_none] at haway
    exact Or.inl ⟨haway, rfl⟩
  · rename_i hin
    rw [Bool.and_eq_true, Option.isNone_iff_eq_none] at hin
    refine Or.inr ⟨hin, ?_⟩
    dsimp only
    generalize hentry : (m.peers.lookup s.startedAs).getD (PeerConnection.new s.startedAs) = entry
    have hfiled : ∀ ep, entry.hasEndpoint ep = true → Filed m s.startedAs ep := by
      intro ep hep
      rw [← hentry] at hep
      exact filed_of_entry hep
    have hnonempty : (entry.registerEndpoint s.endpoint s.channel).1.endpoints.isEmpty = false := register_nonempty
    have hhas : ∀ ep, (entry.registerEndpoint s.endpoint s.channel).1.hasEndpoint ep = true → Filed m s.startedAs ep ∨
        (ep = s.endpoint ∧ (entry.registerEndpoint s.endpoint s.channel).2 = true) :=
      fun ep hep => (hasEndpoint_register hep).imp (hfiled ep) id
    cases hreg : entry.registerEndpoint s.endpoint s.channel with
    | mk c taken =>
      rw [hreg] at hnonempty hhas
      cases taken with
      | true => exact ⟨{ c with connectedAt := some now }, rfl, hnonempty, hhas⟩
      | false =>
        have hsame : c = entry := by
          unfold registerEndpoint at hreg
          split at hreg
          · exact (Prod.mk.inj hreg).1.symm
          · cases (Prod.mk.inj hreg).2
        subst hsame
        exact ⟨c, rfl, hnonempty, hhas⟩

omit [DecidableEq S] in
theorem lookup_forgetSession (canonical : String) :
    (m.forgetSession p canonical).peers.lookup q =
      if q = p ∨ q = canonical then (m.peers.lookup q).map DirectSessions.dropSession else m.peers.lookup q := by
  have hself : ∀ (peers : HashMap String (PeerConnection S)) k, (modify peers k DirectSessions.dropSession).lookup k =
      (peers.lookup k).map DirectSessions.dropSession := by
    intro peers k
    rw [lookup_modify, if_pos rfl]
  have hother : ∀ (peers : HashMap String (PeerConnection S)) k, q ≠ k →
      (modify peers k DirectSessions.dropSession).lookup q = peers.lookup q := by
    intro peers k hk
    rw [lookup_modify, if_neg hk]
  unfold DirectSessions.forgetSession
  dsimp only
  by_cases hp : q = p
  · subst hp
    rw [if_pos (Or.inl rfl)]
    split
    · rename_i hne
      rw [hother _ _ hne.symm, hself]
    · exact hself _ _
  · by_cases hc : q = canonical
    · subst hc
      rw [if_pos (Or.inr rfl), if_pos hp, hself, hother _ _ hp]
    · rw [if_neg (not_or.mpr ⟨hp, hc⟩)]
      split
      · rw [hother _ _ hc, hother _ _ hp]
      · exact hother _ _ hp

omit [DecidableEq S] in
theorem filed_forgetSession (canonical : String) : Filed (m.forgetSession p canonical) q ep ↔ Filed m q ep := by
  unfold Filed
  rw [lookup_forgetSession]
  split
  · constructor
    · rintro ⟨c, hc, hep⟩
      obtain ⟨c₀, hc₀, rfl⟩ := Option.map_eq_some_iff.mp hc
      exact ⟨c₀, hc₀, hep⟩
    · rintro ⟨c, hc, hep⟩
      exact ⟨DirectSessions.dropSession c, by rw [hc]; rfl, hep⟩
  · rfl

/-- What the end of a session or of a dial does to the table: nothing, when what it names is not there, or it takes the endpoint
out, and with the last one the alias. -/
theorem quicDisconnected_cases (e : Option DirectEndpoint) :
    (m.quicDisconnected p e = m ∧ (∀ ep, e = some ep → ¬Filed m (m.resolveQuicPeerAlias p) ep) ∧
      (e = none → ∀ c, m.peers.lookup (m.resolveQuicPeerAlias p) = some c → c.endpoints.isEmpty = false)) ∨
    ∃ (m₁ : DirectSessions S) (c : PeerConnection S), m₁.quicPeerAliases = m.quicPeerAliases ∧
      (∀ q, q ≠ m.resolveQuicPeerAlias p → m₁.peers.lookup q = m.peers.lookup q) ∧
      m₁.peers.lookup (m.resolveQuicPeerAlias p) = some c ∧
      (∀ q ep, Filed m₁ q ep ↔ Filed m q ep ∧ ¬(q = m.resolveQuicPeerAlias p ∧ e = some ep)) ∧
      ((e ≠ none ∧ c.endpoints.isEmpty = false ∧ m.quicDisconnected p e = m₁) ∨
        (c.endpoints.isEmpty = true ∧ m.quicDisconnected p e = m₁.forgetSession p (m.resolveQuicPeerAlias p))) := by
  unfold DirectSessions.quicDisconnected
  dsimp only
  generalize m.resolveQuicPeerAlias p = canonical
  cases hconn : m.peers.lookup canonical with
  | none =>
    refine Or.inl ⟨rfl, ?_, ?_⟩
    · rintro ep - ⟨c, hc, -⟩
      rw [hconn] at hc
      cases hc
    · intro _ c hc
      cases hc
  | some conn =>
    cases e with
    | none =>
      dsimp only
      by_cases hempty : conn.endpoints.isEmpty = true
      · rw [if_pos hempty]
        refine Or.inr ⟨m, conn, rfl, fun _ _ => rfl, hconn, ?_, Or.inr ⟨hempty, rfl⟩⟩
        intro q ep
        simp
      · rw [if_neg hempty]
        refine Or.inl ⟨rfl, (fun _ h => by cases h), ?_⟩
        intro _ c hc
        rw [Option.some.inj hc] at hempty
        simpa using hempty
    | some ep =>
      dsimp only
      cases hremove : conn.removeEndpoint ep with
      | mk conn' found =>
        cases found with
        | false =>
          refine Or.inl ⟨rfl, ?_, (fun h => by cases h)⟩
          rintro ep' hep ⟨c, hc, hhas⟩
          cases hep
          rw [hconn] at hc
          cases hc
          rw [removeEndpoint, if_pos hhas] at hremove
          cases (Prod.mk.inj hremove).2
        | true =>
          refine Or.inr ⟨{ m with peers := m.peers.insert canonical conn' }, conn', rfl, ?_, AList.lookup_insert _, ?_, ?_⟩
          · intro q hq
            exact AList.lookup_insert_ne hq
          · intro q ep'
            rw [filed_insert rfl, hasEndpoint_remove hremove]
            by_cases hq : q = canonical
            · subst hq
              have hfiled : Filed m q ep' ↔ conn.hasEndpoint ep' = true := by
                unfold Filed
                rw [hconn]
                simp
              rw [hfiled]
              simp [@eq_comm _ ep ep']
            · simp [hq]
          · dsimp only
            by_cases hempty : conn'.endpoints.isEmpty = true
            · rw [if_pos hempty]
              exact Or.inr ⟨hempty, rfl⟩
            · rw [if_neg hempty]
              exact Or.inl ⟨by simp, by simpa using hempty, rfl⟩

/-- What a relabel does to the table. -/
theorem relabel_cases (current canonical : String) :
    m.relabelQuicPeerSession current canonical = m ∨
    ((current ≠ canonical ∧ canonical ≠ "" ∧ canonical ≠ m.ownPeerId ∧ (m.peers.lookup current).isSome = true) ∧
      (m.relabelQuicPeerSession current canonical).quicPeerAliases = m.quicPeerAliases.insert current canonical ∧
      (∀ q ep, Filed (m.relabelQuicPeerSession current canonical) q ep →
        (q = canonical ∧ (Filed m current ep ∨ Filed m canonical ep)) ∨ (q ≠ current ∧ q ≠ canonical ∧ Filed m q ep)) ∧
      ∀ dialing, (∀ q c, m.peers.lookup q = some c → Settled dialing q c) →
        ∀ q c, (m.relabelQuicPeerSession current canonical).peers.lookup q = some c → Settled dialing q c) := by
  unfold DirectSessions.relabelQuicPeerSession
  split
  · exact Or.inl rfl
  · rename_i hguard
    simp only [not_or] at hguard
    cases hcurrent : m.peers.lookup current with
    | none => exact Or.inl rfl
    | some provisional =>
      refine Or.inr ⟨⟨hguard.1, hguard.2.1, hguard.2.2, rfl⟩, rfl, ?_, ?_⟩
      · intro q ep hfiled
        obtain ⟨hq, hhas⟩ | ⟨hq, c, hc, hhas⟩ :=
          (@filed_insert S { m with peers := m.peers.erase current } _ canonical q ep _ (by rfl)).mp hfiled
        · refine Or.inl ⟨hq, ?_⟩
          obtain hold | ⟨tx, hmoved⟩ := hasEndpoint_moveEndpoints _ _ hhas
          · right
            have hcanonical : (m.peers.erase current).lookup canonical = m.peers.lookup canonical :=
              AList.lookup_erase_ne (Ne.symm hguard.1)
            rw [hcanonical] at hold
            exact filed_of_entry hold
          · left
            have hentry := Std.TreeMap.mem_toList_iff_getElem?_eq_some.mp hmoved
            exact ⟨provisional, hcurrent, hasEndpoint_iff.mpr ⟨tx, hentry⟩⟩
        · have hne : q ≠ current := by
            intro heq
            rw [heq, AList.lookup_erase] at hc
            cases hc
          rw [AList.lookup_erase_ne hne] at hc
          exact Or.inr ⟨hne, hq, c, hc, hhas⟩
      · intro dialing hsettled q c hc
        by_cases hq : q = canonical
        · subst hq
          rw [AList.lookup_insert] at hc
          cases hc
          apply settled_moveEndpoints provisional.endpoints.toList
          rw [AList.lookup_erase_ne (Ne.symm hguard.1)]
          cases hold : m.peers.lookup q with
          | none => exact fun _ => Or.inl rfl
          | some c => exact hsettled q c hold
        · rw [AList.lookup_insert_ne hq] at hc
          have hne : q ≠ current := by
            intro heq
            rw [heq, AList.lookup_erase] at hc
            cases hc
          rw [AList.lookup_erase_ne hne] at hc
          exact hsettled q c hc

/-! ## The invariant -/

/-- What is filed is a live session, under the id its events resolve to; and an entry without one is not stuck. -/
structure Tracks (t : Tracker S) : Prop where
  apart : ∀ s ∈ t.live, ∀ s' ∈ t.live, s.endpoint.connectionId = s'.endpoint.connectionId → s = s'
  filed : ∀ q ep, Filed t.table q ep → ∃ s ∈ t.live, s.endpoint = ep ∧ t.table.resolveQuicPeerAlias s.startedAs = q
  settled : ∀ q c, t.table.peers.lookup q = some c → Settled t.dialing q c

variable {t t' : Tracker S}

omit [DecidableEq S] in
theorem tracks_new (ownPeerId : String) (deviceId : Option DeviceId) : Tracks (Tracker.new ownPeerId deviceId : Tracker S) where
  apart := fun s hs => by cases hs
  filed := by
    rintro q ep ⟨c, hc, -⟩
    cases hc
  settled := fun q c hc => by cases hc

omit [DecidableEq S] in
/-- Nothing of a session is filed at an empty entry. -/
theorem not_filed_of_empty {c : PeerConnection S} (hc : m.peers.lookup q = some c) (hempty : c.endpoints.isEmpty = true) :
    ¬Filed m q ep := by
  rintro ⟨c', hc', hhas⟩
  rw [hc] at hc'
  cases hc'
  rw [isEmpty_iff.mp hempty ep] at hhas
  cases hhas

theorem tracks_dial (h : Tracks t) (peerId : String) (hstep : trackStep t (.dial peerId) = some t') : Tracks t' := by
  cases hstep
  unfold DirectSessions.connectDirectQuic
  by_cases hdials : t.table.dials peerId = true
  · simp only [if_pos hdials]
    refine ⟨h.apart, ?_, ?_⟩
    · intro q ep hfiled
      obtain ⟨rfl, hhas⟩ | ⟨-, hold⟩ := (filed_insert rfl).mp hfiled
      · exact h.filed q ep (filed_of_entry hhas)
      · exact h.filed q ep hold
    · intro q c hc hempty
      by_cases hq : q = peerId
      · subst hq
        rw [AList.lookup_insert] at hc
        cases hc
        exact Or.inr ⟨rfl, List.mem_cons_self⟩
      · rw [AList.lookup_insert_ne hq] at hc
        exact (h.settled q c hc hempty).imp_right fun hw => ⟨hw.1, List.mem_cons_of_mem _ hw.2⟩
  · simp only [if_neg hdials]
    exact h

omit [DecidableEq S] in
/-- A dial that is over leaves no entry stuck that does not wait for it alone. -/
theorem settled_erase (h : Tracks t) (peerId : String) (hwait : ¬WaitsAlone t peerId) :
    ∀ q c, t.table.peers.lookup q = some c → Settled (t.dialing.erase peerId) q c := by
  intro q c hc hempty
  obtain hdisc | ⟨hconn, hdialing⟩ := h.settled q c hc hempty
  · exact Or.inl hdisc
  · refine Or.inr ⟨hconn, ?_⟩
    by_cases hq : q = peerId
    · subst hq
      by_contra hnot
      exact hwait ⟨hnot, c, hc, hconn, hempty⟩
    · exact (List.mem_erase_of_ne hq).mpr hdialing

omit [DecidableEq S] in
/-- Once nothing is filed at the id a session's events resolve to, its alias may go. -/
theorem filed_forget (h : Tracks t) {m₁ : DirectSessions S} (haliases : m₁.quicPeerAliases = t.table.quicPeerAliases)
    (hfiled : ∀ q ep, Filed m₁ q ep → Filed t.table q ep) (hnone : ∀ ep, ¬Filed m₁ (t.table.resolveQuicPeerAlias p) ep)
    (hq : Filed (m₁.forgetSession p (t.table.resolveQuicPeerAlias p)) q ep) :
    ∃ s ∈ t.live, s.endpoint = ep ∧
      (m₁.forgetSession p (t.table.resolveQuicPeerAlias p)).resolveQuicPeerAlias s.startedAs = q := by
  have hq₁ := (filed_forgetSession _).mp hq
  obtain ⟨s, hs, hep, hresolve⟩ := h.filed q ep (hfiled q ep hq₁)
  refine ⟨s, hs, hep, ?_⟩
  have hne : s.startedAs ≠ p := by
    intro heq
    rw [heq] at hresolve
    exact hnone ep (hresolve ▸ hq₁)
  unfold DirectSessions.resolveQuicPeerAlias DirectSessions.forgetSession
  dsimp only
  rw [AList.lookup_erase_ne hne, haliases]
  exact hresolve

omit [DecidableEq S] in
/-- The entries a session or a dial leaves behind are disconnected. -/
theorem settled_forget {dialing dialing' : List String} {canonical : String}
    (hsettled : ∀ q c, q ≠ canonical → m.peers.lookup q = some c → Settled dialing q c)
    (hkept : ∀ q, q ≠ p → q ∈ dialing → q ∈ dialing') :
    ∀ q c, (m.forgetSession p canonical).peers.lookup q = some c → Settled dialing' q c := by
  intro q c hc hempty
  rw [lookup_forgetSession] at hc
  split at hc
  · obtain ⟨c₀, -, rfl⟩ := Option.map_eq_some_iff.mp hc
    exact Or.inl rfl
  · rename_i hq
    rw [not_or] at hq
    exact (hsettled q c hq.2 hc hempty).imp_right fun hw => ⟨hw.1, hkept q hq.1 hw.2⟩

theorem tracks_dialFailed (h : Tracks t) (peerId : String) (horderly : Orderly t (.dialFailed peerId))
    (hstep : trackStep t (.dialFailed peerId) = some t') : Tracks t' := by
  simp only [trackStep] at hstep
  split at hstep
  · cases hstep
    obtain ⟨hsame, -, hnonempty⟩ | ⟨m₁, c, haliases, hothers, hc, hfiled, hend⟩ :=
      @quicDisconnected_cases S _ t.table peerId none
    · simp only [hsame]
      refine ⟨h.apart, h.filed, settled_erase h peerId ?_⟩
      by_cases halias : Unaliased t peerId
      · rintro ⟨-, c, hc, -, hempty⟩
        have := hnonempty rfl c (by rw [halias]; exact hc)
        rw [hempty] at this
        cases this
      · exact horderly halias (hnonempty rfl)
    · obtain ⟨hne, -⟩ | ⟨hempty, heq⟩ := hend
      · exact absurd rfl hne
      · simp only [heq]
        refine ⟨h.apart, ?_, ?_⟩
        · intro q ep hq
          exact filed_forget h haliases (fun q ep hq => ((hfiled q ep).mp hq).1) (fun ep => not_filed_of_empty hc hempty) hq
        · apply settled_forget
          · intro q c hq hc
            rw [hothers q hq] at hc
            exact h.settled q c hc
          · intro q hq hmem
            exact (List.mem_erase_of_ne hq).mpr hmem
  · cases hstep

theorem tracks_connected (h : Tracks t) (session : TrackedSession S) (answers : Bool) (now : Nat)
    (horderly : Orderly t (.connected session answers now))
    (hstep : trackStep t (.connected session answers now) = some t') : Tracks t' := by
  simp only [trackStep] at hstep
  split at hstep
  · cases hstep
  · rename_i hnew
    simp only [Bool.or_eq_true, List.any_eq_true, beq_iff_eq, not_or, not_exists, not_and] at hnew
    cases hstep
    have hapart : ∀ s ∈ session :: t.live, ∀ s' ∈ session :: t.live,
        s.endpoint.connectionId = s'.endpoint.connectionId → s = s' := by
      intro s hs s' hs' heq
      obtain hs | hlive := List.mem_cons.mp hs
      · obtain hs' | hlive' := List.mem_cons.mp hs'
        · rw [hs, hs']
        · exact absurd (hs ▸ heq.symm) (hnew.1 s' hlive')
      · obtain hs' | hlive' := List.mem_cons.mp hs'
        · exact absurd (hs' ▸ heq) (hnew.1 s hlive)
        · exact h.apart s hlive s' hlive' heq
    obtain ⟨haway, hsame⟩ | ⟨hin, c, htable, hnonempty, hhas⟩ := @quicConnected_cases S _ t.table session now
    · simp only [hsame]
      refine ⟨hapart, ?_, ?_⟩
      · intro q ep hq
        obtain ⟨s, hs, hrest⟩ := h.filed q ep hq
        exact ⟨s, List.mem_cons_of_mem _ hs, hrest⟩
      · cases answers with
        | false => exact h.settled
        | true => exact settled_erase h session.startedAs (horderly.1 haway rfl)
    · simp only [htable]
      refine ⟨hapart, ?_, ?_⟩
      · intro q ep hq
        have hold : Filed t.table q ep → ∃ s ∈ session :: t.live, s.endpoint = ep ∧
            t.table.resolveQuicPeerAlias s.startedAs = q := by
          intro hfiled
          obtain ⟨s, hs, hrest⟩ := h.filed q ep hfiled
          exact ⟨s, List.mem_cons_of_mem _ hs, hrest⟩
        obtain ⟨rfl, hep⟩ | ⟨-, hfiled⟩ := (filed_insert rfl).mp hq
        · obtain hfiled | ⟨rfl, htaken⟩ := hhas ep hep
          · exact hold hfiled
          · refine ⟨session, List.mem_cons_self, rfl, (horderly.2 hin).resolve_right ?_⟩
            rw [htaken]
            exact Bool.noConfusion
        · exact hold hfiled
      · intro q c' hc' hempty
        by_cases hq : q = session.startedAs
        · subst hq
          rw [AList.lookup_insert] at hc'
          cases hc'
          rw [hnonempty] at hempty
          cases hempty
        · rw [AList.lookup_insert_ne hq] at hc'
          refine (h.settled q c' hc' hempty).imp_right fun hw => ⟨hw.1, ?_⟩
          split
          · exact (List.mem_erase_of_ne hq).mpr hw.2
          · exact hw.2

/-- What the end of a session leaves filed. -/
theorem filed_ended (e : DirectEndpoint) :
    Filed (m.quicDisconnected p (some e)) q ep ↔ Filed m q ep ∧ ¬(q = m.resolveQuicPeerAlias p ∧ ep = e) := by
  obtain ⟨hsame, hnot, -⟩ | ⟨m₁, c, -, -, -, hfiled, hend⟩ := @quicDisconnected_cases S _ m p (some e)
  · rw [hsame]
    refine ⟨fun hq => ⟨hq, ?_⟩, fun hq => hq.1⟩
    rintro ⟨rfl, rfl⟩
    exact hnot ep rfl hq
  · have hm₁ : Filed m₁ q ep ↔ Filed m q ep ∧ ¬(q = m.resolveQuicPeerAlias p ∧ ep = e) := by
      rw [hfiled, Option.some.injEq, @eq_comm _ e ep]
    obtain ⟨-, -, heq⟩ | ⟨-, heq⟩ := hend
    · rw [heq, hm₁]
    · rw [heq, filed_forgetSession, hm₁]

theorem tracks_ended (h : Tracks t) (session : TrackedSession S) (hstep : trackStep t (.ended session) = some t') : Tracks t' := by
  simp only [trackStep] at hstep
  split at hstep
  · cases hstep
    have hapart : ∀ s ∈ t.live.erase session, ∀ s' ∈ t.live.erase session,
        s.endpoint.connectionId = s'.endpoint.connectionId → s = s' :=
      fun s hs s' hs' => h.apart s (List.mem_of_mem_erase hs) s' (List.mem_of_mem_erase hs')
    -- a session that is still filed is not the one that ended
    have hstill : ∀ q ep, Filed (t.table.quicDisconnected session.startedAs (some session.endpoint)) q ep →
        ∀ s ∈ t.live, s.endpoint = ep → t.table.resolveQuicPeerAlias s.startedAs = q → s ∈ t.live.erase session := by
      intro q ep hq s hs hep hresolve
      refine (List.mem_erase_of_ne ?_).mpr hs
      rintro rfl
      exact ((filed_ended _).mp hq).2 ⟨hresolve.symm, hep.symm⟩
    obtain ⟨hsame, -, -⟩ | ⟨m₁, c, haliases, hothers, hc, hfiled, hend⟩ :=
      @quicDisconnected_cases S _ t.table session.startedAs (some session.endpoint)
    · rw [hsame] at hstill
      simp only [hsame]
      refine ⟨hapart, ?_, h.settled⟩
      intro q ep hq
      obtain ⟨s, hs, hep, hresolve⟩ := h.filed q ep hq
      exact ⟨s, hstill q ep hq s hs hep hresolve, hep, hresolve⟩
    · obtain ⟨-, hnonempty, heq⟩ | ⟨hempty, heq⟩ := hend
      · rw [heq] at hstill
        simp only [heq]
        refine ⟨hapart, ?_, ?_⟩
        · intro q ep hq
          obtain ⟨s, hs, hep, hresolve⟩ := h.filed q ep ((hfiled q ep).mp hq).1
          refine ⟨s, hstill q ep hq s hs hep hresolve, hep, ?_⟩
          unfold DirectSessions.resolveQuicPeerAlias
          rw [haliases]
          exact hresolve
        · intro q c' hc' hempty
          by_cases hq : q = t.table.resolveQuicPeerAlias session.startedAs
          · rw [hq, hc] at hc'
            cases hc'
            rw [hnonempty] at hempty
            cases hempty
          · rw [hothers q hq] at hc'
            exact h.settled q c' hc' hempty
      · rw [heq] at hstill
        simp only [heq]
        refine ⟨hapart, ?_, ?_⟩
        · intro q ep hq
          obtain ⟨s, hs, hep, hresolve⟩ :=
            filed_forget h haliases (fun q ep hq => ((hfiled q ep).mp hq).1) (fun ep => not_filed_of_empty hc hempty) hq
          obtain ⟨s', hs', hep', hresolve'⟩ := h.filed q ep ((hfiled q ep).mp ((filed_forgetSession _).mp hq)).1
          have hsame : s = s' := h.apart s hs s' hs' (by rw [hep, hep'])
          subst hsame
          exact ⟨s, hstill q ep hq s hs hep hresolve', hep, hresolve⟩
        · apply settled_forget
          · intro q c hq hc
            rw [hothers q hq] at hc
            exact h.settled q c hc
          · exact fun q _ hmem => hmem
  · cases hstep

theorem tracks_relabel (h : Tracks t) (current canonical : String) (horderly : Orderly t (.relabel current canonical))
    (hstep : trackStep t (.relabel current canonical) = some t') : Tracks t' := by
  cases hstep
  obtain hsame | ⟨⟨hne, hsome, hown, hcurrent⟩, haliases, hfiled, hsettled⟩ := @relabel_cases S _ t.table current canonical
  · simp only [hsame]
    exact h
  · refine ⟨h.apart, ?_, hsettled _ h.settled⟩
    have hway := horderly hne hsome hown hcurrent
    have hself : (t.table.relabelQuicPeerSession current canonical).resolveQuicPeerAlias current = canonical := by
      unfold DirectSessions.resolveQuicPeerAlias
      rw [haliases, AList.lookup_insert]
      rfl
    have hother : ∀ x, x ≠ current →
        (t.table.relabelQuicPeerSession current canonical).resolveQuicPeerAlias x = t.table.resolveQuicPeerAlias x := by
      intro x hx
      unfold DirectSessions.resolveQuicPeerAlias
      rw [haliases, AList.lookup_insert_ne hx]
    intro q ep hq
    obtain ⟨rfl, hfrom | hthere⟩ | ⟨hqcurrent, hqcanonical, hkept⟩ := hfiled q ep hq
    · obtain ⟨s, hs, rfl, -⟩ := h.filed current ep hfrom
      refine ⟨s, hs, rfl, ?_⟩
      rw [(hway s hs).1 hfrom]
      exact hself
    · obtain ⟨s, hs, rfl, hresolve⟩ := h.filed q ep hthere
      refine ⟨s, hs, rfl, ?_⟩
      by_cases hs' : s.startedAs = current
      · rw [hs']
        exact hself
      · rw [hother _ hs']
        exact hresolve
    · obtain ⟨s, hs, rfl, hresolve⟩ := h.filed q ep hkept
      refine ⟨s, hs, rfl, ?_⟩
      by_cases hs' : s.startedAs = current
      · obtain hq' | hq' := (hway s hs).2 hs' q hkept
        · exact absurd hq' hqcurrent
        · exact absurd hq' hqcanonical
      · rw [hother _ hs']
        exact hresolve

theorem tracks_step (h : Tracks t) (event : TableEvent S) (horderly : Orderly t event) (hstep : trackStep t event = some t') :
    Tracks t' := by
  cases event with
  | dial peerId => exact tracks_dial h peerId hstep
  | dialFailed peerId => exact tracks_dialFailed h peerId horderly hstep
  | connected session answers now => exact tracks_connected h session answers now horderly hstep
  | ended session => exact tracks_ended h session hstep
  | relabel current canonical => exact tracks_relabel h current canonical horderly hstep
  | data session =>
    simp only [trackStep] at hstep
    split at hstep
    · cases hstep
      exact h
    · cases hstep

/-! ## What the invariant gives -/

theorem follows_of_tracks (h : Tracks t) : Follows t where
  heard := by
    intro s hs q hq
    obtain ⟨s', hs', hep, hresolve⟩ := h.filed q s.endpoint hq
    have hsame : s' = s := h.apart s' hs' s hs (by rw [hep])
    subst hsame
    obtain ⟨c, hc, hhas⟩ := hq
    unfold Manager.mediaAttribution
    dsimp only
    rw [hresolve, hc]
    exact if_pos hhas
  alive := by
    intro q ep hq
    obtain ⟨s, hs, hep, -⟩ := h.filed q ep hq
    exact ⟨s, hs, hep⟩
  dialable := by
    intro q hnone hdialing
    have hdisconnected : ∀ c, t.table.peers.lookup q = some c → c.state = .disconnected := by
      intro c hc
      have hempty : c.endpoints.isEmpty = true := by
        rw [isEmpty_iff]
        intro ep
        by_contra hhas
        rw [Bool.not_eq_false] at hhas
        obtain ⟨s, hs, rfl, -⟩ := h.filed q ep ⟨c, hc, hhas⟩
        exact hnone s hs ⟨c, hc, hhas⟩
      exact (h.settled q c hc hempty).resolve_right fun hw => hdialing hw.2
    refine ⟨hdisconnected, ?_⟩
    unfold DirectSessions.dials
    cases hc : t.table.peers.lookup q with
    | none => rfl
    | some c => simp [hdisconnected c hc]

theorem endsAlone_of_tracks (h : Tracks t) (event : TableEvent S) (hstep : trackStep t event = some t') :
    EndsAlone t event t' := by
  rintro s rfl
  simp only [trackStep] at hstep
  split at hstep
  · rename_i hs
    cases hstep
    constructor
    · intro q hq
      obtain ⟨hold, hnot⟩ := (filed_ended _).mp hq
      obtain ⟨s', hs', hep, hresolve⟩ := h.filed q _ hold
      have hsame : s' = s := h.apart s' hs' s hs (by rw [hep])
      subst hsame
      exact hnot ⟨hresolve.symm, rfl⟩
    · intro q ep hep hold
      exact (filed_ended _).mpr ⟨hold, fun hboth => hep hboth.2⟩
  · cases hstep

end SessionTableAux

open SessionTableAux

/-- **The table follows the sessions.** In every run whose steps are orderly, a live session that is filed is heard under the id it
is filed under, what is filed is live, a peer without a live session can be dialled; and the next end of a session takes that
session out of the table and nothing else. -/
theorem table_follows_sessions (ownPeerId : String) (deviceId : Option DeviceId) (events : List (TableEvent S)) (t : Tracker S)
    (hmeets : Meets trackStep Orderly (Tracker.new ownPeerId deviceId) events)
    (h : run trackStep (Tracker.new ownPeerId deviceId) events = some t) :
    Follows t ∧ ∀ event t', trackStep t event = some t' → EndsAlone t event t' := by
  have htracks : Tracks t :=
    meets_invariant Tracks (fun _ event _ hs horderly hstep => tracks_step hs event horderly hstep)
      (tracks_new ownPeerId deviceId) hmeets h
  exact ⟨follows_of_tracks htracks, fun event _ hstep => endsAlone_of_tracks htracks event hstep⟩

namespace SessionTableAux

/-- Two sessions of one transport id. -/
def firstSession : TrackedSession Nat := ⟨"transport", ⟨none, 1⟩, 1⟩

def secondSession : TrackedSession Nat := ⟨"transport", ⟨none, 2⟩, 2⟩

/-- The first session comes up and is relabelled. -/
def relabelled : List (TableEvent Nat) := [.connected firstSession false 0, .relabel "transport" "peer"]

theorem relabelled_orderly : Meets trackStep Orderly (Tracker.new "own" none) (relabelled ++ [.ended firstSession]) := by
  have hconnected : Orderly (Tracker.new "own" none) (.connected firstSession false 0) :=
    ⟨(fun haway => by cases haway.1), fun _ => Or.inl rfl⟩
  refine ⟨hconnected, fun t ht => ⟨?_, fun t' _ => ⟨trivial, fun _ _ => trivial⟩⟩⟩
  have htracks := tracks_step (tracks_new "own" none) _ hconnected ht
  have hlive : t.live = [firstSession] := by
    cases ht
    rfl
  have halias : t.table.resolveQuicPeerAlias "transport" = "transport" := by
    cases ht
    rfl
  intro _ _ _ _ s hs
  rw [hlive, List.mem_singleton] at hs
  subst hs
  refine ⟨fun _ => rfl, fun _ q hq => ?_⟩
  obtain ⟨s, hs, -, hresolve⟩ := htracks.filed q _ hq
  rw [hlive, List.mem_singleton] at hs
  subst hs
  exact Or.inl (hresolve.symm.trans halias)

end SessionTableAux

theorem table_follows_sessions_sample : ∃ t, run trackStep (Tracker.new "own" none) (relabelled ++ [.ended firstSession]) = some t ∧
    Follows t ∧ ∀ event t', trackStep t event = some t' → EndsAlone t event t' := by
  have hrun : (run trackStep (Tracker.new "own" none) (relabelled ++ [.ended firstSession])).isSome = true := by decide +kernel
  obtain ⟨t, ht⟩ := Option.isSome_iff_exists.mp hrun
  exact ⟨t, ht, table_follows_sessions "own" none _ t relabelled_orderly ht⟩

/-- A session that starts under an id with an alias is filed under that id, but its events go to the alias: nothing it sends is
processed, and when it ends its endpoint stays in the table, which counts the peer as connected with no session alive. -/
theorem table_keeps_dead_session : ∃ t t', run trackStep (Tracker.new "own" none)
      (relabelled ++ [.connected secondSession false 0]) = some t ∧
    trackStep t (.ended secondSession) = some t' ∧ ¬Follows t ∧ ¬EndsAlone t (.ended secondSession) t' ∧ ¬Follows t' := by
  have hrun : ((run trackStep (Tracker.new "own" none) (relabelled ++ [.connected secondSession false 0])).any fun t =>
      decide (secondSession ∈ t.live ∧ Filed t.table "transport" secondSession.endpoint ∧
        Manager.mediaAttribution t.table secondSession.startedAs secondSession.endpoint = none) &&
      (trackStep t (.ended secondSession)).any fun t' =>
        decide (Filed t'.table "transport" secondSession.endpoint ∧ ∀ s ∈ t'.live, s.endpoint ≠ secondSession.endpoint)) =
      true := by
    decide +kernel
  obtain ⟨t, ht, hfacts⟩ := (Option.any_eq_true _ _).mp hrun
  obtain ⟨hbefore, hafter⟩ := Bool.and_eq_true_iff.mp hfacts
  obtain ⟨hlive, hfiled, hdeaf⟩ := of_decide_eq_true hbefore
  obtain ⟨t', ht', hstill⟩ := (Option.any_eq_true _ _).mp hafter
  obtain ⟨hfiled', hnone⟩ := of_decide_eq_true hstill
  refine ⟨t, t', ht, ht', ?_, ?_, ?_⟩
  · intro hfollows
    have hheard := hfollows.heard _ hlive _ hfiled
    rw [hdeaf] at hheard
    cases hheard
  · intro hends
    exact (hends secondSession rfl).1 _ hfiled'
  · intro hfollows
    obtain ⟨s, hs, hep⟩ := hfollows.alive _ _ hfiled'
    exact hnone s hs hep

end DoubleSlash.Direct
