import DoubleSlash.Lemmas.Relearning

/-!
# Rooms that are learned again

The calls by which a client learns of its rooms again take nothing of what it knows of them, and where they do: an upsert of the user,
a type of no kind, two spellings of one host, a host that ends early.
-/

namespace DoubleSlash.Store

open Assoc Protocol Run Spaces Text

section

variable {D : Type} (H : Hashing D)

/-- Along every run whose hosts are plain and that brings no two stored rooms together, a room keeps what is known of it, under the
identity of its host: it stays stored, a creator bit, a token, a creator, a Space, a parent, a policy and a display name stay, a private
room of the user's stays private unless another type than the usual ones is named for it, and an entry that no call is about stays as
it is. A tombstone stays unless the user brings the room back. And a list whose entries change nothing is not saved. -/
theorem relearning_keeps (hH : ∀ d, H.bytes d ≠ []) (s s' : RoomStore) (hs : s.Filed) (calls : List RoomCall)
    (hplain : Meets (RoomCall.step H) RoomCall.Plain s calls) (hrun : run (RoomCall.step H) s calls = some s') :
    Relearns (RoomCall.hostAfterAll calls) (fun host room => RoomCall.Occurs (RoomCall.About room) calls host)
        (fun host room => RoomCall.Occurs (RoomCall.NamesOther room) calls host)
        (fun host room => RoomCall.Occurs (RoomCall.Unhides room) calls host) s s' ∧
      ∀ call now entries, RoomCall.brings s' call = some (now, entries) →
        (∀ entry ∈ entries,
          (s'.upsertFromRemote now entry).1.get entry.supernodeId entry.roomId = s'.get entry.supernodeId entry.roomId) →
        call.apply H s' = (s', false) := by
  refine ⟨RelearningAux.relearns_run hH hs hplain hrun, fun call now entries hbrings hquiet => ?_⟩
  have hlist := RelearningAux.list_quiet hquiet
  cases call with
  | upsertFromRemote at_ entry =>
    obtain ⟨rfl, rfl⟩ := Prod.mk.inj (Option.some.inj hbrings)
    exact hlist
  | upsertManyFromRemote at_ listed =>
    obtain ⟨rfl, rfl⟩ := Prod.mk.inj (Option.some.inj hbrings)
    exact hlist
  | syncFromRoomList at_ supernodeId rooms =>
    obtain ⟨rfl, rfl⟩ := Prod.mk.inj (Option.some.inj hbrings)
    exact hlist
  | _ => cases hbrings

end

namespace RelearningSample

/-- A hashing of one byte. -/
def hashing : Hashing UInt8 where
  sha256 bytes := UInt8.ofNat bytes.length
  bytes d := [d]
  ofBytes bytes := bytes.head?
  ofBytes_bytes _ := rfl

/-- A node that the client has joined, with the id it gave itself. -/
def peers : PeerStore :=
  (∅ : PeerStore).insert "hex" { peerId := "hex", identityPub := "key", isSupernode := true }

/-- A room of the user's, behind a token. -/
def vault : RoomEntry :=
  { roomId := "vault", roomName := "Vault", roomType := "private", supernodeId := "hex", inviteToken := "token", isCreator := true }

/-- A list that has the room without its type. -/
def list : Json := .arr [.obj [("room_id", .str "vault")]]

/-- The store with the room and with a tombstone. -/
def stored : RoomStore := { RoomStore.empty with rooms := RoomStore.empty.rooms.insert "hex:vault" vault, deletedIds := {"hex:old"} }

/-- The room is listed, hosts are rewritten, and it is listed again. -/
def calls : List RoomCall :=
  [.syncFromRoomList 2 "hex" list, .normalizeSupernodeIds peers ["hex:old"], .syncFromRoomList 3 "key" list]

theorem settles : peers.Settles := by
  intro host canon h
  have hcanon : canon = "key" := by
    unfold PeerStore.resolveSupernodeIdentityPub at h
    split at h
    · cases h
    · obtain ⟨r, hfind, rfl⟩ := Option.map_eq_some_iff.mp h
      have hmem := List.mem_of_find?_eq_some hfind
      simp only [peers, values, AList.entries_insert, AList.empty_entries, List.kerase_nil, List.map_cons, List.map_nil,
        List.mem_singleton] at hmem
      rw [hmem]
  subst hcanon
  exact ⟨by decide, by decide +kernel⟩

theorem lookup_single {s : RoomStore} {k : String} {e : RoomEntry} (h : s.rooms.entries = [⟨k, e⟩]) {k' : String} {e' : RoomEntry}
    (hget : s.rooms.lookup k' = some e') : k' = k ∧ e' = e := by
  have hmem := AList.mem_lookup_iff.mp hget
  rw [h, List.mem_singleton] at hmem
  cases hmem
  exact ⟨rfl, rfl⟩

theorem filed : stored.Filed := by
  intro k e hk
  obtain ⟨rfl, rfl⟩ := lookup_single (k := "hex:vault") (e := vault) rfl hk
  decide

theorem foldsNone {s : RoomStore} (h : s.rooms.entries = [⟨"hex:vault", vault⟩]) : s.FoldsNone peers := by
  intro k₁ e₁ k₂ e₂ h₁ h₂ _ _
  rw [(lookup_single h h₁).2, (lookup_single h h₂).2]

theorem plain : Meets (RoomCall.step hashing) RoomCall.Plain stored calls := by
  have hhex : PlainHost "hex" := by decide
  have hkey : PlainHost "key" := by decide
  refine ⟨hhex, fun s₁ h₁ => ⟨⟨settles, foldsNone ?_, fun key => ?_⟩, fun s₂ _ => ⟨hkey, fun _ _ => trivial⟩⟩⟩
  · rw [← Option.some.inj h₁]
    decide +kernel
  · have hdeleted : s₁.deletedIds = {"hex:old"} := by
      rw [← Option.some.inj h₁]
      decide +kernel
    rw [hdeleted, List.mem_singleton, Finset.mem_singleton]

theorem list_untyped {now : Nat} {supernodeId host : String} :
    ¬ (RoomCall.syncFromRoomList now supernodeId list).NamesOther "vault" host := by
  rintro ⟨-, listed, hlisted, -, type, htype, -⟩
  obtain rfl := List.mem_singleton.mp hlisted
  simp [RoomStore.listedField, List.lookup_cons] at htype

end RelearningSample

open RelearningSample in
theorem relearning_keeps_vault : ∃ s' e', run (RoomCall.step hashing) stored calls = some s' ∧
    s'.get "key" "vault" = some e' ∧ Kept vault e' ∧ e'.roomType = "private" ∧ s'.isHiddenFromSidebar "key" "old" = true := by
  obtain ⟨s', hrun⟩ : ∃ s', run (RoomCall.step hashing) stored calls = some s' := ⟨_, rfl⟩
  have hhost : RoomCall.hostAfterAll calls "hex" = "key" := by decide +kernel
  obtain ⟨hkeeps, -⟩ := relearning_keeps hashing (fun _ => List.cons_ne_nil _ _) stored s' filed calls plain hrun
  have hnames : ¬ RoomCall.Occurs (RoomCall.NamesOther "vault") calls "hex" := by
    rintro (h | h | h | h)
    · exact list_untyped h
    · exact h
    · exact list_untyped h
    · exact h
  obtain ⟨e', hget, hkept, hprivate, -⟩ := hkeeps.kept "hex" "vault" vault (by decide) rfl
  have hhidden := hkeeps.hidden "hex" "old" (by decide) (by decide) (by rintro (h | h | h | h) <;> exact h)
  rw [hhost] at hget hhidden
  exact ⟨s', e', hrun, hget, hkept, hprivate ⟨rfl, Or.inl rfl⟩ hnames, hhidden⟩

namespace RelearningSample

/-- A store with rooms. -/
def storeOf (entries : List RoomEntry) : RoomStore :=
  { RoomStore.empty with rooms := entries.foldl (fun rooms e => rooms.insert (entryKey e.supernodeId e.roomId) e) ∅ }

/-- The room of the user's as others see it. -/
def listed (roomType : String) : RoomEntry := { roomId := "vault", roomName := "Vault", roomType := roomType, supernodeId := "hex" }

/-- The room under the identity of its host. -/
def home : RoomEntry := { vault with supernodeId := "key" }

end RelearningSample

open RelearningSample in
/-- What the calls do forget. An upsert takes the tombstone of its room away. A private room of the user's is public after another type
was named for it. A room under another spelling of its host takes the place of the one under the host's identity, with its token. A
room whose host ends early takes the place of another. A list that names a room twice is saved though it changes nothing. -/
theorem relearning_forgets :
    (stored.isHiddenFromSidebar "hex" "old" = true ∧
      ((RoomCall.upsert 1 { vault with roomId := "old" }).apply hashing stored).1.isHiddenFromSidebar "hex" "old" = false) ∧
    (((storeOf [vault]).get "hex" "vault").map RoomEntry.roomType = some "private" ∧
      (((RoomCall.upsertManyFromRemote 1 [listed "members", listed "public"]).apply hashing (storeOf [vault])).1.get "hex" "vault").map
        RoomEntry.roomType = some "public") ∧
    (((storeOf [home, listed "public"]).get "key" "vault").map RoomEntry.inviteToken = some "token" ∧
      (((RoomCall.normalizeSupernodeIds peers []).apply hashing (storeOf [home, listed "public"])).1.get "key" "vault").map
        RoomEntry.inviteToken = some "") ∧
    (((storeOf [{ home with roomId := "a:b" }]).get "key" "a:b").map RoomEntry.roomId = some "a:b" ∧
      (((RoomCall.upsert 1 { listed "public" with supernodeId := "key:a", roomId := "b" }).apply hashing
        (storeOf [{ home with roomId := "a:b" }])).1.get "key" "a:b").map RoomEntry.roomId = some "b") ∧
    ((RoomCall.upsertManyFromRemote 1 [{ listed "public" with roomName := "Safe" }, listed "public"]).apply hashing
        (storeOf [listed "public"])).2 = true ∧
      ((RoomCall.upsertManyFromRemote 1 [{ listed "public" with roomName := "Safe" }, listed "public"]).apply hashing
        (storeOf [listed "public"])).1.get "hex" "vault" = (storeOf [listed "public"]).get "hex" "vault" := by
  refine ⟨⟨?_, ?_⟩, ⟨?_, ?_⟩, ⟨?_, ?_⟩, ⟨?_, ?_⟩, ?_, ?_⟩ <;> decide +kernel

end DoubleSlash.Store
