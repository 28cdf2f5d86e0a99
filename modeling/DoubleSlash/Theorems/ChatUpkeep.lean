import DoubleSlash.Theorems.ChatHistory

/-!
# What the upkeep of a chat history leaves

The upgrade of the rows from before the rename of the store's keys, trimming to the newest messages, and reading a room.
-/

namespace DoubleSlash.Store.Chat

open Keys

/-! ## The upgrade -/

/-- The encrypted columns of a row. -/
structure Encrypted where
  id : String
  body : List UInt8
  senderHandle : List UInt8

/-- The encrypted columns of a table. -/
def encrypted (t : Messages) : List Encrypted := t.rows.map fun r => ⟨r.id, r.body, r.senderHandle⟩

section

variable {K : Type} (cipher : AesGcm K) (key legacy : K)

/-- A blob from before the rename. -/
def OnlyLegacy (blob : List UInt8) : Prop := decryptBlob cipher key blob = none ∧ (decryptBlob cipher legacy blob).isSome

/-- What was written before the rename comes first, and a row is not written in part under each key. -/
structure LegacyFirst (l : List Encrypted) : Prop where
  order : (l.map Encrypted.body).Pairwise fun a b => OnlyLegacy cipher key legacy b → decryptBlob cipher key a = none
  handle : ∀ b ∈ l, OnlyLegacy cipher key legacy b.senderHandle → decryptBlob cipher key b.body = none

variable {cipher key legacy}

theorem LegacyFirst.sublist {l l' : List Encrypted} (h : LegacyFirst cipher key legacy l) (hsub : l'.Sublist l) :
    LegacyFirst cipher key legacy l' :=
  ⟨h.order.sublist (hsub.map Encrypted.body), fun b hb => h.handle b (hsub.subset hb)⟩

theorem encrypted_updateWhere {t : Messages} {p : MessageRow → Bool} {f : MessageRow → MessageRow} (hf : ∀ r, (f r).id = r.id)
    (hbody : ∀ r, (f r).body = r.body) (hhandle : ∀ r, (f r).senderHandle = r.senderHandle) :
    encrypted (t.updateWhere p f hf) = encrypted t := by
  rw [encrypted, Table.rows_updateWhere, List.map_map]
  refine List.map_congr_left fun r _ => ?_
  simp only [Function.comp_apply]
  split
  · rw [hf, hbody, hhandle]
  · rfl

@[simp] theorem encrypted_rekey (t : Messages) (newKey oldKey : String) : encrypted (rekey t newKey oldKey) = encrypted t :=
  encrypted_updateWhere (by simp) (by simp) (by simp)

end

/-- The newest messages of a conversation. A negative limit is none. -/
def newestOf (keep : Int) (rows : List MessageRow) : List MessageRow := if keep < 0 then rows else newest keep.toNat rows

theorem newestIds_eq (t : Messages) (peerId : String) (keep : Int) :
    newestIds t peerId keep = ((newestOf keep (conversation t peerId)).map MessageRow.id).reverse := by
  unfold newestIds newestOf
  dsimp only
  split
  · rw [List.map_reverse]
  · rw [newest, List.map_reverse, List.reverse_reverse]

theorem newest_suffix {α : Type} (n : Nat) (l : List α) : newest n l <:+ l := by
  rw [newest, ← List.reverse_prefix, List.reverse_reverse]
  exact List.take_prefix n _

theorem newestOf_suffix (keep : Int) (rows : List MessageRow) : newestOf keep rows <:+ rows := by
  unfold newestOf
  split
  · exact List.suffix_rfl
  · exact newest_suffix _ _

/-- Where ids are told apart, the rows with the ids of the last ones are the last ones. -/
theorem filter_ids_suffix {rows last : List MessageRow} (hnodup : (rows.map MessageRow.id).Nodup) (hlast : last <:+ rows) :
    (rows.filter fun r => (last.map MessageRow.id).contains r.id) = last := by
  obtain ⟨first, rfl⟩ := hlast
  rw [List.map_append, List.nodup_append] at hnodup
  have hfirst : (first.filter fun r => (last.map MessageRow.id).contains r.id) = [] := by
    refine List.filter_eq_nil_iff.mpr fun r hr hin => ?_
    exact hnodup.2.2 r.id (List.mem_map_of_mem hr) r.id (by simpa using hin) rfl
  have hall : (last.filter fun r => (last.map MessageRow.id).contains r.id) = last := by
    refine List.filter_eq_self.mpr fun r hr => ?_
    simpa using ⟨r, hr, rfl⟩
  rw [List.filter_append, hfirst, hall, List.nil_append]

theorem nodup_conversation (t : Messages) (peerId : String) : ((conversation t peerId).map MessageRow.id).Nodup :=
  t.unique.sublist (List.filter_sublist.map _)

/-- A conversation that the test keeps whole. -/
theorem conversation_filter {t t' : Messages} {p : MessageRow → Bool} (hrows : t'.rows = t.rows.filter p) (peerId : String) :
    conversation t' peerId = (conversation t peerId).filter p := by
  rw [conversation, conversation, hrows, List.filter_comm]

/-- The rows after the conversations of a list have been trimmed. -/
theorem rows_trimmed (t : Messages) (keep : Int) {peers : List String} (hnodup : peers.Nodup) :
    (peers.foldl (trimConversation keep) (t, 0)).1.rows =
      t.rows.filter fun r => !(decide (r.peerId ∈ peers) && !(newestIds t r.peerId keep).contains r.id) := by
  induction peers using List.reverseRecOn with
  | nil => simp
  | append_singleton peers peerId ih =>
    obtain ⟨hpeers, -, hapart⟩ := List.nodup_append.mp hnodup
    have hnew : peerId ∉ peers := fun hmem => hapart peerId hmem peerId (List.mem_singleton_self _) rfl
    have hrows := ih hpeers
    rw [List.foldl_append, List.foldl_cons, List.foldl_nil]
    generalize peers.foldl (trimConversation keep) (t, 0) = acc at hrows ⊢
    have hsame : conversation acc.1 peerId = conversation t peerId := by
      rw [conversation_filter hrows]
      refine List.filter_eq_self.mpr fun r hr => ?_
      obtain rfl : r.peerId = peerId := by simpa using (List.mem_filter.mp hr).2
      simp [hnew]
    have hids : newestIds acc.1 peerId keep = newestIds t peerId keep := by rw [newestIds_eq, newestIds_eq, hsame]
    simp only [trimConversation, Table.rows_deleteWhere, hrows, List.filter_filter, hids]
    refine List.filter_congr fun r _ => ?_
    by_cases hpeer : r.peerId = peerId
    · subst hpeer
      simp [hnew]
    · simp [hpeer]

/-- What a trim takes away it counts. -/
theorem length_trimmed (t : Messages) (keep : Int) (peers : List String) :
    (peers.foldl (trimConversation keep) (t, 0)).1.rows.length + (peers.foldl (trimConversation keep) (t, 0)).2 = t.rows.length := by
  refine List.foldlRecOn (motive := fun acc : Messages × Nat => acc.1.rows.length + acc.2 = t.rows.length) _ _ rfl ?_
  intro acc hacc peerId _
  rw [← hacc, ← Table.length_deleteWhere acc.1 fun r => decide (r.peerId = peerId) && !(newestIds acc.1 peerId keep).contains r.id]
  simp only [trimConversation]
  omega

theorem mem_distinctPeers {t : Messages} {r : MessageRow} (hr : r ∈ t.rows) : r.peerId ∈ distinctPeers t := by
  simpa [distinctPeers] using ⟨r, hr, rfl⟩

/-- **Trimming keeps the newest of every conversation.** Each conversation is left with its newest `keep` messages in their order, all of
them when the limit is negative, and the rows that went are counted. -/
theorem trimByCount_keeps_newest (t : Messages) (keep : Int) :
    (∀ peerId, conversation (trimByCount t keep).1 peerId = newestOf keep (conversation t peerId)) ∧
      (trimByCount t keep).1.rows.length + (trimByCount t keep).2 = t.rows.length := by
  refine ⟨fun peerId => ?_, length_trimmed t keep _⟩
  have hnodup : (distinctPeers t).Nodup := List.nodup_dedup _
  rw [trimByCount, conversation_filter (rows_trimmed t keep hnodup), ← filter_ids_suffix (nodup_conversation t peerId) (newestOf_suffix keep _)]
  refine List.filter_congr fun r hr => ?_
  obtain ⟨hin, hpeer⟩ := List.mem_filter.mp hr
  obtain rfl : r.peerId = peerId := by simpa using hpeer
  have hlisted := mem_distinctPeers hin
  rw [newestIds_eq]
  simp [hlisted]

/-! ## Reading a room -/

/-- A row that is read when its conversation is in the list. -/
def readIn (peers : List String) (r : MessageRow) : MessageRow :=
  if decide (r.peerId ∈ peers) && r.unread then { r with status := "read" } else r

@[simp] theorem peerId_readIn (peers : List String) (r : MessageRow) : (readIn peers r).peerId = r.peerId := by
  unfold readIn
  split <;> rfl

theorem unread_readIn (peers : List String) (r : MessageRow) : (readIn peers r).unread = (r.unread && !decide (r.peerId ∈ peers)) := by
  unfold readIn
  split
  · rename_i h
    obtain ⟨hin, -⟩ := Bool.and_eq_true_iff.mp h
    simp [MessageRow.unread, hin]
  · rename_i h
    cases hread : r.unread <;> simp_all

theorem readIn_of_notMem {peers : List String} {r : MessageRow} (h : r.peerId ∉ peers) : readIn peers r = r := by
  simp [readIn, h]

theorem readIn_readIn (peers : List String) (peerId : String) (r : MessageRow) :
    readIn [peerId] (readIn peers r) = readIn (peers ++ [peerId]) r := by
  by_cases hread : r.peerId ∈ peers ∧ r.unread = true
  · have hdone : (readIn peers r).unread = false := by simp [unread_readIn, hread.1]
    have hall : readIn (peers ++ [peerId]) r = readIn peers r := by simp [readIn, hread]
    rw [hall]
    simp [readIn.eq_def [peerId], hdone]
  · have hsame : readIn peers r = r := by rw [readIn, if_neg (by simpa using hread)]
    rw [hsame]
    unfold readIn
    congr 1
    simp only [List.mem_singleton, List.mem_append, Bool.and_eq_true, decide_eq_true_eq, eq_iff_iff]
    tauto

theorem rows_markPeerRead (t : Messages) (peerId : String) : (markPeerRead t peerId).1.rows = t.rows.map (readIn [peerId]) := by
  simp [markPeerRead, readIn]

/-- The rows and the count after the conversations of a list have been read. -/
theorem rows_read (t : Messages) {peers : List String} (hnodup : peers.Nodup) :
    (peers.foldl readConversation (t, 0)).1.rows = t.rows.map (readIn peers) ∧
      (peers.foldl readConversation (t, 0)).2 = (peers.map (unreadCount t)).sum := by
  induction peers using List.reverseRecOn with
  | nil =>
    have hsame : t.rows.map (readIn []) = t.rows := List.map_id'' (fun r => readIn_of_notMem List.not_mem_nil) _
    exact ⟨hsame.symm, rfl⟩
  | append_singleton peers peerId ih =>
    obtain ⟨hpeers, -, hapart⟩ := List.nodup_append.mp hnodup
    have hnew : peerId ∉ peers := fun hmem => hapart peerId hmem peerId (List.mem_singleton_self _) rfl
    obtain ⟨hrows, hcount⟩ := ih hpeers
    rw [List.foldl_append, List.foldl_cons, List.foldl_nil]
    generalize peers.foldl readConversation (t, 0) = acc at hrows hcount ⊢
    constructor
    · simp only [readConversation, rows_markPeerRead, hrows, List.map_map]
      exact List.map_congr_left fun r _ => readIn_readIn peers peerId r
    · simp only [readConversation, markPeerRead, hrows, hcount, List.countP_map, List.map_append, List.map_cons, List.map_nil,
        List.sum_append, List.sum_singleton, unreadCount]
      congr 1
      refine List.countP_congr fun r _ => ?_
      by_cases hpeer : r.peerId = peerId
      · have hout : r.peerId ∉ peers := hpeer ▸ hnew
        simp [readIn_of_notMem hout]
      · simp [hpeer]

/-- Conversations are told apart by their keys, so that what is unread in them adds up. -/
theorem sum_unreadCount (t : Messages) {peers : List String} (hnodup : peers.Nodup) :
    (peers.map (unreadCount t)).sum = t.rows.countP fun r => decide (r.peerId ∈ peers) && r.unread := by
  induction peers with
  | nil => simp
  | cons peerId peers ih =>
    obtain ⟨hnew, hpeers⟩ := List.nodup_cons.mp hnodup
    rw [List.map_cons, List.sum_cons, ih hpeers, unreadCount]
    induction t.rows with
    | nil => rfl
    | cons r rows ihrows =>
      simp only [List.countP_cons]
      rw [← ihrows]
      by_cases hpeer : r.peerId = peerId
      · subst hpeer
        simp only [hnew, decide_true, decide_false, Bool.true_and, Bool.false_and, List.mem_cons, true_or]
        simp only [Bool.false_eq_true, if_false]
        omega
      · simp only [hpeer, List.mem_cons, false_or, decide_false, Bool.false_and, Bool.false_eq_true, if_false]
        omega

theorem nodup_roomConversations (t : Messages) (roomId : String) : (roomConversations t roomId).Nodup := by
  unfold roomConversations
  dsimp only
  split
  · exact List.nodup_singleton _
  · exact (List.nodup_dedup _).filter _

/-- **Reading a room.** Marking a room read reports what was unread in it, leaves nothing unread in it, takes just that much from the total
and changes no other conversation. -/
theorem markRoomRead_spec (t : Messages) (roomId : String) :
    (markRoomRead t roomId).2 = roomUnreadCount t roomId ∧ roomUnreadCount (markRoomRead t roomId).1 roomId = 0 ∧
      totalUnreadCount (markRoomRead t roomId).1 + roomUnreadCount t roomId = totalUnreadCount t ∧
      ∀ peerId ∉ roomConversations t roomId, conversation (markRoomRead t roomId).1 peerId = conversation t peerId := by
  have hnodup := nodup_roomConversations t roomId
  obtain ⟨hrows, hcount⟩ := rows_read t hnodup
  have hconversations : roomConversations (markRoomRead t roomId).1 roomId = roomConversations t roomId := by
    have hkeys : (markRoomRead t roomId).1.rows.map MessageRow.peerId = t.rows.map MessageRow.peerId := by
      rw [markRoomRead, hrows, List.map_map]
      exact List.map_congr_left fun r _ => peerId_readIn _ r
    rw [roomConversations, roomConversations, distinctPeers, distinctPeers, hkeys]
  have htotal := sum_unreadCount t hnodup
  refine ⟨hcount, ?_, ?_, fun peerId hout => ?_⟩
  · rw [roomUnreadCount, hconversations, sum_unreadCount _ hnodup, markRoomRead, hrows, List.countP_map, List.countP_eq_zero]
    intro r _
    simp only [Function.comp_apply, peerId_readIn, unread_readIn]
    cases hin : decide (r.peerId ∈ roomConversations t roomId) <;> simp
  · rw [roomUnreadCount, htotal, totalUnreadCount, totalUnreadCount, markRoomRead, hrows, List.countP_map,
      List.countP_eq_countP_filter_add t.rows MessageRow.unread fun r => decide (r.peerId ∈ roomConversations t roomId),
      List.countP_filter, List.countP_filter, Nat.add_comm]
    congr 1
    · exact List.countP_congr fun r _ => by rw [Bool.and_comm]
    · exact List.countP_congr fun r _ => by rw [Function.comp_apply, unread_readIn]
  · rw [conversation, conversation, markRoomRead, hrows, List.filter_map]
    have hsame : (t.rows.filter ((fun r : MessageRow => decide (r.peerId = peerId)) ∘ readIn (roomConversations t roomId))) =
        t.rows.filter fun r => decide (r.peerId = peerId) :=
      List.filter_congr fun r _ => by rw [Function.comp_apply, peerId_readIn]
    rw [hsame]
    refine (List.map_congr_left fun r hr => ?_).trans (List.map_id _)
    have hpeer : r.peerId = peerId := by simpa using (List.mem_filter.mp hr).2
    exact readIn_of_notMem (hpeer ▸ hout)

end DoubleSlash.Store.Chat
