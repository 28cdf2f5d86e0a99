import DoubleSlash.Direct.Sessions

/-!
# A peer with at most one session

What the table's handlers do to an entry whose only session, if it has one, is that of a fixed device.
-/

namespace DoubleSlash.Direct

open Tls Assoc PeerConnection

namespace SessionsAux

section

variable {S : Type} [DecidableEq S]

/-- The connection's only session is `held`, under the device `d`. -/
structure Only (e : PeerConnection S) (d : Option DeviceId) (held : Option (Nat × S)) : Prop where
  endpoints : ∀ d' : Option DeviceId, e.endpoints[d']? = if d' = d then held else none
  selected : e.quicOutTx = held.map Prod.snd
  state : e.state = .connected ↔ held.isSome = true

omit [DecidableEq S] in
/-- With one session there is one channel. -/
theorem mem_channels_iff {e : PeerConnection S} {d : Option DeviceId} {held : Option (Nat × S)}
    (h : ∀ d' : Option DeviceId, e.endpoints[d']? = if d' = d then held else none) (t : S) :
    t ∈ e.channels ↔ held.map Prod.snd = some t := by
  rw [mem_channels]
  constructor
  · rintro ⟨d', id, hd⟩
    rw [h d'] at hd
    split at hd
    · simp [hd]
    · cases hd
  · intro ht
    obtain ⟨⟨id, t'⟩, hheld, rfl⟩ := Option.map_eq_some_iff.mp ht
    exact ⟨d, id, by simp [h d, hheld]⟩

/-- A refresh selects the one session there is. -/
theorem only_refresh {e : PeerConnection S} {d : Option DeviceId} {held : Option (Nat × S)}
    (h : ∀ d' : Option DeviceId, e.endpoints[d']? = if d' = d then held else none) :
    Only e.refreshEndpointState d held := by
  have hch := mem_channels_iff h
  have hne : e.channels ≠ [] ↔ held.isSome = true := by
    rw [Option.isSome_iff_exists]
    constructor
    · intro hnil
      obtain ⟨t, ht⟩ := List.exists_mem_of_ne_nil _ hnil
      obtain ⟨x, hx, -⟩ := Option.map_eq_some_iff.mp ((hch t).mp ht)
      exact ⟨x, hx⟩
    · rintro ⟨x, hx⟩
      exact List.ne_nil_of_mem ((hch x.2).mpr (by simp [hx]))
  refine ⟨h, ?_, (refreshEndpointState_connected e).trans hne⟩
  cases hq : e.refreshEndpointState.quicOutTx with
  | some t => exact ((hch t).mp (selected_mem e hq)).symm
  | none =>
    have hnone : ¬held.isSome = true := fun hs => by
      have := (selected_isSome e).mpr (hne.mpr hs)
      simp [hq] at this
    cases held with
    | none => rfl
    | some x => exact absurd rfl hnone

/-- A new session of the device takes the place of the old one: the limit on devices is not in the way. -/
theorem register_only {e : PeerConnection S} {d : Option DeviceId} {held : Option (Nat × S)}
    (h : ∀ d' : Option DeviceId, e.endpoints[d']? = if d' = d then held else none) (id : Nat) (t : S) :
    (e.registerEndpoint ⟨d, id⟩ t).2 = true ∧ Only (e.registerEndpoint ⟨d, id⟩ t).1 d (some (id, t)) := by
  have hroom : (d.isSome && !e.endpoints.contains d
      && decide (maxLiveDeviceRoutes ≤ (e.endpoints.keys.filter Option.isSome).length)) = false := by
    by_cases hc : e.endpoints.contains d = true
    · simp [hc]
    · have hkeys : e.endpoints.keys = [] := by
        refine List.eq_nil_iff_forall_not_mem.mpr fun k hk => ?_
        have hmem := Std.TreeMap.mem_keys.mp hk
        have hk' := h k
        rw [Std.TreeMap.getElem?_eq_some_getElem hmem] at hk'
        split at hk'
        · subst_vars
          exact hc (Std.TreeMap.mem_iff_contains.mp hmem)
        · cases hk'
      simp [hkeys, maxLiveDeviceRoutes]
  unfold registerEndpoint
  dsimp only
  rw [hroom]
  refine ⟨rfl, only_refresh fun d' => ?_⟩
  dsimp only
  rw [Std.TreeMap.getElem?_insert, h d']
  by_cases hd : d' = d
  · subst hd
    simp
  · have : compare d d' ≠ .eq := fun heq => hd (Std.LawfulEqCmp.eq_of_compare heq).symm
    simp [hd, this]

omit [DecidableEq S] in
/-- Whether an endpoint of the device is the session held. -/
theorem hasEndpoint_only {e : PeerConnection S} {d : Option DeviceId} {held : Option (Nat × S)}
    (h : ∀ d' : Option DeviceId, e.endpoints[d']? = if d' = d then held else none) (id : Nat) :
    e.hasEndpoint ⟨d, id⟩ = held.any fun x => x.1 == id := by
  simp [hasEndpoint, h d]

/-- Removing the session held leaves none. -/
theorem remove_only {e : PeerConnection S} {d : Option DeviceId} {held : Option (Nat × S)}
    (h : ∀ d' : Option DeviceId, e.endpoints[d']? = if d' = d then held else none) {id : Nat}
    (hid : (held.any fun x => x.1 == id) = true) :
    (e.removeEndpoint ⟨d, id⟩).2 = true ∧ Only (e.removeEndpoint ⟨d, id⟩).1 d none ∧
      (e.removeEndpoint ⟨d, id⟩).1.endpoints.isEmpty = true := by
  have hE : ∀ d' : Option DeviceId, (e.endpoints.erase d)[d']? = none := fun d' => by
    rw [Std.TreeMap.getElem?_erase, h d']
    by_cases hd : d' = d
    · subst hd
      simp
    · simp [hd]
  unfold removeEndpoint
  rw [hasEndpoint_only h, if_pos hid]
  refine ⟨rfl, only_refresh fun d' => by simp [hE d'], ?_⟩
  rw [refreshEndpointState_endpoints, Std.TreeMap.isEmpty_iff_forall_not_mem]
  intro d' hmem
  simpa [hE d'] using Std.TreeMap.getElem?_eq_some_getElem hmem

/-! ## Who holds a channel -/

/-- The connection holds the channel, as an endpoint's or as the selected one. -/
def Held (c : PeerConnection S) (l : S) : Prop :=
  l ∈ c.channels ∨ c.quicOutTx = some l

/-- The table holds the channel under the peer id. -/
def Holder (d : DirectSessions S) (p : String) (l : S) : Prop :=
  ∃ e, d.peers.lookup p = some e ∧ Held e l

theorem held_refresh {c : PeerConnection S} {l : S} (h : Held c.refreshEndpointState l) : l ∈ c.channels := by
  rcases h with h | h
  · exact h
  · exact selected_mem c h

omit [DecidableEq S] in
theorem mem_channels_insert {c : PeerConnection S} {d : Option DeviceId} {id : Nat} {tx l : S}
    (h : l ∈ channels { c with endpoints := c.endpoints.insert d (id, tx) }) : l = tx ∨ l ∈ c.channels := by
  obtain ⟨d', id', h⟩ := (mem_channels _ l).mp h
  rw [Std.TreeMap.getElem?_insert] at h
  split at h
  · obtain ⟨-, rfl⟩ := Prod.mk.inj (Option.some.inj h)
    exact Or.inl rfl
  · exact Or.inr ((mem_channels c l).mpr ⟨d', id', h⟩)

omit [DecidableEq S] in
theorem mem_channels_erase {c : PeerConnection S} {d : Option DeviceId} {l : S}
    (h : l ∈ channels { c with endpoints := c.endpoints.erase d }) : l ∈ c.channels := by
  obtain ⟨d', id', h⟩ := (mem_channels _ l).mp h
  rw [Std.TreeMap.getElem?_erase] at h
  split at h
  · cases h
  · exact (mem_channels c l).mpr ⟨d', id', h⟩

theorem held_register {c : PeerConnection S} {ep : DirectEndpoint} {tx l : S} (h : Held (c.registerEndpoint ep tx).1 l) :
    l = tx ∨ Held c l := by
  unfold registerEndpoint at h
  split at h
  · exact Or.inr h
  · exact (mem_channels_insert (held_refresh h)).imp id Or.inl

theorem held_remove {c : PeerConnection S} {ep : DirectEndpoint} {l : S} (h : Held (c.removeEndpoint ep).1 l) : Held c l := by
  unfold removeEndpoint at h
  split at h
  · exact Or.inl (mem_channels_erase (held_refresh h))
  · exact h

omit [DecidableEq S] in
theorem held_drop {c : PeerConnection S} {l : S} (h : Held (DirectSessions.dropSession c) l) : Held c l := by
  rcases h with h | h
  · exact Or.inl h
  · cases h

omit [DecidableEq S] in
/-- A connection that holds nothing new may be filed in place of the old one. -/
theorem holder_insert {d : DirectSessions S} {q : String} {e' : PeerConnection S} {p : String} {l : S}
    (h : Holder { d with peers := d.peers.insert q e' } p l) : Holder d p l ∨ p = q ∧ Held e' l := by
  obtain ⟨e, he, hl⟩ := h
  by_cases hp : p = q
  · subst hp
    dsimp only at he
    rw [AList.lookup_insert] at he
    obtain rfl := Option.some.inj he
    exact Or.inr ⟨rfl, hl⟩
  · exact Or.inl ⟨e, (AList.lookup_insert_ne hp).symm.trans he, hl⟩

omit [DecidableEq S] in
theorem holder_modify {d : DirectSessions S} {q : String} {f : PeerConnection S → PeerConnection S} {p : String} {l : S}
    (hf : ∀ c, Held (f c) l → Held c l) (h : Holder { d with peers := modify d.peers q f } p l) : Holder d p l := by
  obtain ⟨e, he, hl⟩ := h
  dsimp only at he
  rw [lookup_modify] at he
  split at he
  · obtain ⟨c, hc, rfl⟩ := Option.map_eq_some_iff.mp he
    subst_vars
    exact ⟨c, hc, hf c hl⟩
  · exact ⟨e, he, hl⟩

omit [DecidableEq S] in
/-- A peer that is new to the table holds nothing. -/
theorem held_new {p : String} {l : S} (h : Held (PeerConnection.new p) l) : False := by
  rcases h with h | h
  · simp [channels, PeerConnection.new] at h
  · cases h

omit [DecidableEq S] in
theorem held_entry {d : DirectSessions S} {p : String} {l : S} (h : Held ((d.peers.lookup p).getD (PeerConnection.new p)) l) :
    Holder d p l := by
  cases he : d.peers.lookup p with
  | none =>
    rw [he] at h
    exact (held_new h).elim
  | some e =>
    rw [he] at h
    exact ⟨e, he, h⟩

omit [DecidableEq S] in
theorem holder_connect {d : DirectSessions S} {q p : String} {l : S} (h : Holder (d.connectDirectQuic q) p l) :
    Holder d p l := by
  unfold DirectSessions.connectDirectQuic at h
  split at h
  · obtain h | ⟨rfl, hnew⟩ := holder_insert h
    · exact h
    · exact held_entry hnew
  · exact h

/-- A session that comes up puts its own channel into the table, under the id it was started with. -/
theorem holder_connected {d : DirectSessions S} {q : String} {ep : DirectEndpoint} {tx : S} {now : Nat} {p : String} {l : S}
    (h : Holder (d.quicConnected q ep tx now) p l) : Holder d p l ∨ p = q ∧ l = tx := by
  unfold DirectSessions.quicConnected at h
  split at h
  · exact Or.inl h
  · dsimp only at h
    split at h
    · obtain h | ⟨rfl, hnew⟩ := holder_insert h
      · exact Or.inl h
      · exact Or.inl (held_entry hnew)
    · rename_i entry heq
      obtain h | ⟨rfl, hnew⟩ := holder_insert h
      · exact Or.inl h
      · have hreg : Held (((d.peers.lookup p).getD (PeerConnection.new p)).registerEndpoint ep tx).1 l := by
          rw [heq]
          exact hnew
        obtain rfl | hold := held_register hreg
        · exact Or.inr ⟨rfl, rfl⟩
        · exact Or.inl (held_entry hold)

omit [DecidableEq S] in
theorem holder_forget {d : DirectSessions S} {q canonical p : String} {l : S}
    (h : Holder (d.forgetSession q canonical) p l) : Holder d p l := by
  unfold DirectSessions.forgetSession at h
  dsimp only at h
  split at h
  · exact holder_modify (fun _ => held_drop) (holder_modify (d := { d with peers := modify d.peers q _ }) (fun _ => held_drop) h)
  · exact holder_modify (fun _ => held_drop) h

/-- A session that goes puts nothing into the table. -/
theorem holder_disconnected {d : DirectSessions S} {q : String} {ep : Option DirectEndpoint} {p : String} {l : S}
    (h : Holder (d.quicDisconnected q ep) p l) : Holder d p l := by
  unfold DirectSessions.quicDisconnected at h
  dsimp only at h
  split at h
  · exact h
  · rename_i conn ep he
    split at h
    · exact h
    · rename_i conn' heq
      have hrem : Held conn' l → Held conn l := fun hl => by
        have hl' : Held (conn.removeEndpoint ep).1 l := by
          rw [heq]
          exact hl
        exact held_remove hl'
      have hins : Holder { d with peers := d.peers.insert (d.resolveQuicPeerAlias q) conn' } p l → Holder d p l := fun h => by
        obtain h | ⟨rfl, hnew⟩ := holder_insert h
        · exact h
        · exact ⟨conn, he, hrem hnew⟩
      split at h
      · exact hins (holder_forget h)
      · exact hins h
  · split at h
    · exact holder_forget h
    · exact h

/-- No disconnect adds an alias. -/
theorem alias_disconnected {d : DirectSessions S} {q : String} {ep : Option DirectEndpoint} {p : String}
    (h : d.quicPeerAliases.lookup p = none) : (d.quicDisconnected q ep).quicPeerAliases.lookup p = none := by
  have herase : (d.quicPeerAliases.erase q).lookup p = none := by
    by_cases hp : p = q
    · subst hp
      simp
    · rw [AList.lookup_erase_ne hp, h]
  unfold DirectSessions.quicDisconnected
  dsimp only
  split
  · exact h
  · split
    · exact h
    · split
      · exact herase
      · exact h
  · split
    · exact herase
    · exact h

/-! ## The disconnect handler -/

/-- A disconnect of an endpoint that is not filed changes nothing. -/
theorem quicDisconnected_stale {m : DirectSessions S} {p : String} {ep : DirectEndpoint}
    (h : ∀ e, m.peers.lookup (m.resolveQuicPeerAlias p) = some e → e.hasEndpoint ep = false) :
    m.quicDisconnected p (some ep) = m := by
  unfold DirectSessions.quicDisconnected
  dsimp only
  cases he : m.peers.lookup (m.resolveQuicPeerAlias p) with
  | none => rfl
  | some e => simp [removeEndpoint, h e he]

/-- A disconnect of a peer's last endpoint forgets the session. -/
theorem quicDisconnected_last {m : DirectSessions S} {p : String} {ep : DirectEndpoint} {e e' : PeerConnection S}
    (he : m.peers.lookup (m.resolveQuicPeerAlias p) = some e) (hr : e.removeEndpoint ep = (e', true))
    (hempty : e'.endpoints.isEmpty = true) :
    m.quicDisconnected p (some ep) = DirectSessions.forgetSession
      { m with peers := m.peers.insert (m.resolveQuicPeerAlias p) e' } p (m.resolveQuicPeerAlias p) := by
  unfold DirectSessions.quicDisconnected
  dsimp only
  rw [he]
  dsimp only
  rw [hr]
  simp [hempty]

end

end SessionsAux

end DoubleSlash.Direct
