import DoubleSlash.Store.ChatStore

/-!
# What a chat history shows

Along every run of the store's operations a conversation lists its messages in the order in which they were written, however its
pages are cut; and no message leaves the room that it was written to.
-/

namespace DoubleSlash.Store.Chat

open Bytes Keys Text

section

variable {K : Type} (cipher : AesGcm K) (key legacy : K)

/-- The message whose row an operation wrote. -/
def ChatOp.written (t : Messages) : ChatOp → Option ChatMessage
  | .insert nonces msg => (Chat.insert cipher key t nonces msg).map fun _ => msg
  | .insertNew nonces msg => (Chat.insertNew cipher key t nonces msg).bind fun out => if out.2 then some msg else none
  | .upsert nonces msg => (Chat.upsert cipher key t nonces msg).map fun _ => msg
  | _ => none

/-- The table, and the messages in the order in which they were written, each id at its last write. -/
structure History where
  table : Messages
  arrivals : List ChatMessage

/-- A history after an operation. -/
def History.step (h : History) (op : ChatOp) : History :=
  ⟨op.apply cipher key legacy h.table, match op.written cipher key h.table with
    | some msg => Table.arrive ChatMessage.id h.arrivals msg
    | none => h.arrivals⟩

/-- The history after a run from an empty table. -/
def historyOf (ops : List ChatOp) : History := ops.foldl (History.step cipher key legacy) ⟨Table.empty, []⟩

/-- A row tells what was written: its status and the place of its attachment may have changed, and its conversation is one that the
written one may become. -/
structure Tells (S : String → String → Prop) (msg : ChatMessage) (row : MessageRow) : Prop where
  conversation : S msg.peerId row.peerId
  sender : row.sender = msg.sender
  recipient : row.recipient = msg.recipient
  body : decrypt cipher key row.body = some msg.body
  timestamp : row.timestamp = msg.timestamp
  isSelf : row.isSelf = msg.isSelf
  kind : row.kind = msg.kind.asStr
  attachmentName : row.attachmentName = msg.attachmentName
  senderHandle : decrypt cipher key row.senderHandle = some msg.senderHandle

/-- A message is shown as it was written. -/
structure Shows (msg shown : ChatMessage) : Prop where
  id : shown.id = msg.id
  sender : shown.sender = msg.sender
  recipient : shown.recipient = msg.recipient
  body : shown.body = msg.body
  timestamp : shown.timestamp = msg.timestamp
  isSelf : shown.isSelf = msg.isSelf
  kind : shown.kind = msg.kind
  attachmentName : shown.attachmentName = msg.attachmentName
  senderHandle : shown.senderHandle = msg.senderHandle

end

section

variable {K : Type} {cipher : AesGcm K} {key legacy : K}

/-- AES-GCM opens what it sealed under the same key and nonce. -/
def Opens (cipher : AesGcm K) : Prop :=
  ∀ key nonce plaintext aad ciphertext, cipher.encrypt key nonce plaintext aad = some ciphertext →
    cipher.decrypt key nonce ciphertext aad = some plaintext

/-- **Envelopes open.** -/
theorem decryptBlob_encryptBlob (hopens : Opens cipher) {nonce : Nonce} {plaintext envelope : List UInt8}
    (h : encryptBlob cipher key nonce plaintext = some envelope) : decryptBlob cipher key envelope = some plaintext := by
  obtain ⟨ct, hct, rfl⟩ := Option.map_eq_some_iff.mp h
  have hlen : nonce.1.length = voiceNonceLen := nonce.2
  have hslice : slice (envelopeVersion :: (nonce.1 ++ ct)) 1 headerLen = nonce.1 :=
    slice_mid [envelopeVersion] nonce.1 ct rfl rfl (by rw [hlen]; rfl)
  have hdrop : (envelopeVersion :: (nonce.1 ++ ct)).drop headerLen = ct := by
    rw [headerLen, Nat.add_comm, List.drop_succ_cons]
    exact List.drop_left' hlen
  have hlong : ¬(envelopeVersion :: (nonce.1 ++ ct)).length < headerLen := by
    simp only [List.length_cons, List.length_append, hlen, headerLen]
    omega
  rw [decryptBlob, if_neg hlong, if_neg (by simp), hslice, hdrop, aesgcmDecrypt, dif_pos hlen]
  exact hopens _ _ _ _ _ hct

theorem decrypt_encryptBlob (hopens : Opens cipher) {nonce : Nonce} {text : String} {envelope : List UInt8}
    (h : encryptBlob cipher key nonce (utf8 text) = some envelope) : decrypt cipher key envelope = some text := by
  rw [decrypt, decryptBlob_encryptBlob hopens h, Option.bind_some, fromUtf8_utf8]

/-- The row of a message tells it. -/
theorem tells_rowOf (hopens : Opens cipher) {S : String → String → Prop} {nonces : Nonces} {msg : ChatMessage} {row : MessageRow}
    (h : rowOf cipher key nonces msg = some row) (hS : S msg.peerId msg.peerId) : msg.id = row.id ∧ Tells cipher key S msg row := by
  simp only [rowOf, Option.bind_eq_bind, Option.bind_eq_some_iff, Option.some.injEq] at h
  obtain ⟨body, hbody, handle, hhandle, rfl⟩ := h
  exact ⟨rfl, hS, rfl, rfl, decrypt_encryptBlob hopens hbody, rfl, rfl, rfl, rfl, decrypt_encryptBlob hopens hhandle⟩

theorem Tells.shows {S : String → String → Prop} {msg : ChatMessage} {row : MessageRow} (h : Tells cipher key S msg row) (hid : msg.id = row.id) :
    Shows msg (readRow cipher key row) where
  id := hid.symm
  sender := h.sender
  recipient := h.recipient
  body := by simp [readRow, h.body]
  timestamp := h.timestamp
  isSelf := h.isSelf
  kind := by simp [readRow, h.kind]
  attachmentName := h.attachmentName
  senderHandle := by simp [readRow, h.senderHandle]

/-- A run may take a conversation's key only to keys that the relation allows. -/
def ChatOp.Keeps (S : String → String → Prop) : ChatOp → Prop
  | .insert _ msg => S msg.peerId msg.peerId
  | .insertNew _ msg => S msg.peerId msg.peerId
  | .upsert _ msg => S msg.peerId msg.peerId
  | .openStore _ => ∀ a key, isLegacyRoomKey key → S a key → S a (foldedRoomKey key)
  | .openWithKey => ∀ a key, isLegacyRoomKey key → S a key → S a (foldedRoomKey key)
  | .adoptSharedDefaultRoomHistory nodeId =>
    ∀ a, S a (roomConversationId defaultRoomId) → S a (roomHistoryId nodeId defaultRoomId)
  | .foldDefaultRoomHistory nodeId members =>
    ∀ a, ∀ member ∈ members, S a (roomHistoryId member defaultRoomId) → S a (roomHistoryId nodeId defaultRoomId)
  | _ => True

/-- The rows follow what was written. -/
abbrev FollowsWrites (cipher : AesGcm K) (key : K) (S : String → String → Prop) (t : Messages) (log : List ChatMessage) : Prop :=
  Table.Follows (Tells cipher key S) ChatMessage.id t log

/-! ## Updates change no place -/

section

variable {S : String → String → Prop} {t : Messages} {log : List ChatMessage}

theorem follows_rekey (h : FollowsWrites cipher key S t log) {newKey oldKey : String} (hkeys : ∀ a, S a oldKey → S a newKey) :
    FollowsWrites cipher key S (rekey t newKey oldKey) log := by
  refine h.updateWhere (by simp) fun msg row hold hr => ?_
  have hkey : row.peerId = oldKey := by simpa using hold
  exact { hr with conversation := hkeys _ (hkey ▸ hr.conversation) }

theorem follows_markPeerRead (h : FollowsWrites cipher key S t log) (peerId : String) :
    FollowsWrites cipher key S (markPeerRead t peerId).1 log :=
  h.updateWhere (by simp) fun _ _ _ hr => { hr with }

theorem follows_markRoomRead (h : FollowsWrites cipher key S t log) (roomId : String) :
    FollowsWrites cipher key S (markRoomRead t roomId).1 log :=
  List.foldlRecOn (motive := fun acc : Messages × Nat => FollowsWrites cipher key S acc.1 log) _ _ h
    fun _ hacc peerId _ => follows_markPeerRead hacc peerId

theorem follows_adoptSharedDefaultRoomHistory (h : FollowsWrites cipher key S t log) (nodeId : String)
    (hkeys : ∀ a, S a (roomConversationId defaultRoomId) → S a (roomHistoryId nodeId defaultRoomId)) :
    FollowsWrites cipher key S (adoptSharedDefaultRoomHistory t nodeId).1 log := by
  unfold adoptSharedDefaultRoomHistory
  dsimp only
  split
  · exact h
  · exact follows_rekey h hkeys

theorem follows_foldDefaultRoomHistory (h : FollowsWrites cipher key S t log) (nodeId : String) (members : List String)
    (hkeys : ∀ a, ∀ member ∈ members, S a (roomHistoryId member defaultRoomId) → S a (roomHistoryId nodeId defaultRoomId)) :
    FollowsWrites cipher key S (foldDefaultRoomHistory t nodeId members).1 log := by
  refine List.foldlRecOn (motive := fun acc : (Messages × Nat) × List String => FollowsWrites cipher key S acc.1.1 log) _ _ h ?_
  intro acc hacc member hmember
  dsimp only
  split
  · exact hacc
  · exact follows_rekey hacc fun a => hkeys a member hmember

theorem follows_trimByCount (h : FollowsWrites cipher key S t log) (keep : Int) :
    FollowsWrites cipher key S (trimByCount t keep).1 log :=
  List.foldlRecOn (motive := fun acc : Messages × Nat => FollowsWrites cipher key S acc.1 log) _ _ h
    fun _ hacc _ _ => hacc.deleteWhere _

theorem follows_openWithKey (h : FollowsWrites cipher key S t log)
    (hkeys : ∀ a key, isLegacyRoomKey key → S a key → S a (foldedRoomKey key)) :
    FollowsWrites cipher key S (openWithKey t) log := by
  have hrooms : FollowsWrites cipher key S (migrateRoomKeys t) log := by
    refine List.foldlRecOn (motive := fun t : Messages => FollowsWrites cipher key S t log) _ _ h ?_
    intro t' h' oldKey hold
    split
    · exact h'
    · exact follows_rekey h' fun a => hkeys a oldKey (List.mem_filter.mp hold).2
  exact hrooms.updateWhere (by simp) fun _ _ _ hr => { hr with }

/-- What opens under the current key is not encrypted again. -/
theorem reencrypt_of_decrypt {nonce : Nonce} {blob : List UInt8} {text : String}
    (h : decrypt cipher key blob = some text) : reencrypt cipher key legacy nonce blob = some none := by
  have hopen : (decryptBlob cipher key blob).isSome := by
    obtain ⟨plaintext, hplain, -⟩ := Option.bind_eq_some_iff.mp h
    simp [hplain]
  rw [reencrypt, if_pos hopen]

theorem upgradeRow_of_tells {nonces : Nonces} {msg : ChatMessage} {row : MessageRow} (h : Tells cipher key S msg row) :
    upgradeRow cipher key legacy nonces row = some row := by
  simp [upgradeRow, reencrypt_of_decrypt h.body, reencrypt_of_decrypt h.senderHandle]

theorem follows_openStore (h : FollowsWrites cipher key S t log)
    (hkeys : ∀ a key, isLegacyRoomKey key → S a key → S a (foldedRoomKey key)) (nonces : String → Nonces) :
    FollowsWrites cipher key S (openStore cipher key legacy nonces t) log := by
  have hopen := follows_openWithKey h hkeys
  unfold openStore upgradeLegacyRows
  split
  · exact hopen
  split
  · refine hopen.update (fun _ => id_getD_upgradeRow cipher key legacy _ _) fun msg row _ hr => ?_
    rw [upgradeRow_of_tells hr]
    exact hr
  · exact hopen

end

/-! ## Runs -/

/-- What is written comes last, and the rest keeps its place. -/
theorem follows_written (hopens : Opens cipher) {S : String → String → Prop} {h : History}
    (hfollows : FollowsWrites cipher key S h.table h.arrivals) {op : ChatOp} (hop : op.Keeps S) :
    FollowsWrites cipher key S (h.step cipher key legacy op).table (h.step cipher key legacy op).arrivals := by
  cases op with
  | openStore nonces => exact follows_openStore hfollows hop nonces
  | openWithKey => exact follows_openWithKey hfollows hop
  | insert nonces msg =>
    cases hrow : rowOf cipher key nonces msg with
    | none => simpa [History.step, ChatOp.apply, ChatOp.written, insert, hrow] using hfollows
    | some row =>
      obtain ⟨hid, htells⟩ := tells_rowOf hopens hrow hop
      cases hins : h.table.insertNew row with
      | mk t' fresh =>
        have hnext := hfollows.insertNew_eq hid htells hins
        cases fresh with
        | false => simpa [History.step, ChatOp.apply, ChatOp.written, insert, hrow, hins] using hfollows
        | true => simpa [History.step, ChatOp.apply, ChatOp.written, insert, hrow, hins] using hnext
  | insertNew nonces msg =>
    cases hrow : rowOf cipher key nonces msg with
    | none => simpa [History.step, ChatOp.apply, ChatOp.written, insertNew, hrow] using hfollows
    | some row =>
      obtain ⟨hid, htells⟩ := tells_rowOf hopens hrow hop
      cases hins : h.table.insertNew row with
      | mk t' fresh =>
        have hnext := hfollows.insertNew_eq hid htells hins
        cases fresh <;> simpa [History.step, ChatOp.apply, ChatOp.written, insertNew, hrow, hins] using hnext
  | upsert nonces msg =>
    cases hrow : rowOf cipher key nonces msg with
    | none => simpa [History.step, ChatOp.apply, ChatOp.written, upsert, hrow] using hfollows
    | some row =>
      obtain ⟨hid, htells⟩ := tells_rowOf hopens hrow hop
      simpa [History.step, ChatOp.apply, ChatOp.written, upsert, hrow] using hfollows.replace hid htells
  | updateStatus msgId status => exact hfollows.updateWhere (by simp) fun _ _ _ hr => { hr with }
  | updateStatusNote msgId status note => exact hfollows.updateWhere (by simp) fun _ _ _ hr => { hr with }
  | updateAttachment msgId attachmentPath sizeStr => exact hfollows.updateWhere (by simp) fun _ _ _ hr => { hr with }
  | markPeerRead peerId => exact follows_markPeerRead hfollows peerId
  | markRoomRead roomId => exact follows_markRoomRead hfollows roomId
  | adoptSharedDefaultRoomHistory nodeId =>
    simpa only [History.step, ChatOp.apply, ChatOp.written] using follows_adoptSharedDefaultRoomHistory hfollows nodeId hop
  | foldDefaultRoomHistory nodeId members => exact follows_foldDefaultRoomHistory hfollows nodeId members hop
  | deleteMessage msgId => exact hfollows.deleteWhere _
  | clearHistory peerId => exact hfollows.deleteWhere _
  | trimByAge now days => exact hfollows.deleteWhere _
  | trimByCount keep => exact follows_trimByCount hfollows keep
  | purgeAll => exact ⟨hfollows.1, by simp [History.step, ChatOp.apply, ChatOp.written, purgeAll, Table.keys]⟩

theorem follows_historyOf (hopens : Opens cipher) {S : String → String → Prop} {ops : List ChatOp} (hops : ∀ op ∈ ops, op.Keeps S) :
    FollowsWrites cipher key S (historyOf cipher key legacy ops).table (historyOf cipher key legacy ops).arrivals :=
  List.foldlRecOn (motive := fun h : History => FollowsWrites cipher key S h.table h.arrivals) _ _ Table.follows_empty
    fun _ hfollows op hop => follows_written hopens hfollows (hops op hop)

/-! ## Order -/

/-- The newest of a list. -/
def newest {α : Type} (n : Nat) (l : List α) : List α := (l.reverse.take n).reverse

theorem forall₂_newest {α β : Type} {R : α → β → Prop} {l₁ : List α} {l₂ : List β} (h : List.Forall₂ R l₁ l₂) (n : Nat) :
    List.Forall₂ R (newest n l₁) (newest n l₂) :=
  List.forall₂_reverse_iff.mpr (List.forall₂_take n (List.forall₂_reverse_iff.mpr h))

theorem flatten_getHistory (t : Messages) (peerId : String) (n : Nat) :
    ((List.range n).map (getHistory cipher key t peerId)).reverse.flatten =
      (newest (n * pageSize) (conversation t peerId)).map (readRow cipher key) := by
  rw [newest, ← Table.flatten_pages, List.map_flatten, List.map_reverse, List.map_map]
  rfl

/-- What was written of the messages that are in a conversation, in the order in which it was written. -/
def History.writtenIn (h : History) (peerId : String) : List ChatMessage :=
  h.arrivals.filter fun msg => (conversation h.table peerId).any fun row => row.id == msg.id

/-- The rows of a conversation follow what was written of its messages. -/
theorem writtenIn_conversation {S : String → String → Prop} {h : History} (hfollows : FollowsWrites cipher key S h.table h.arrivals)
    (peerId : String) :
    List.Forall₂ (fun msg row => msg.id = row.id ∧ Tells cipher key S msg row) (h.writtenIn peerId) (conversation h.table peerId) := by
  have hseen : h.writtenIn peerId = (h.arrivals.filter fun msg => decide (msg.id ∈ h.table.keys)).filter fun msg =>
      (conversation h.table peerId).any fun row => row.id == msg.id := by
    rw [List.filter_filter]
    refine List.filter_congr fun msg _ => ?_
    cases hany : (conversation h.table peerId).any fun row => row.id == msg.id with
    | false => rw [Bool.false_and]
    | true =>
      obtain ⟨row, hrow, hid⟩ := List.any_eq_true.mp hany
      have hkey : msg.id ∈ h.table.keys := List.mem_map.mpr ⟨row, List.mem_of_mem_filter hrow, by simpa using hid⟩
      simp [hkey]
  rw [hseen]
  refine Table.forall₂_filter hfollows.2 fun msg row hrow hmsg => ?_
  rw [Bool.eq_iff_iff, List.any_eq_true]
  constructor
  · rintro ⟨row', hrow', hid⟩
    obtain ⟨hin, hpeer⟩ := List.mem_filter.mp hrow'
    have hsame : row'.id = row.id := (by simpa using hid : row'.id = msg.id).trans hmsg.1
    exact Table.eq_of_key hin hrow hsame ▸ hpeer
  · intro hpeer
    exact ⟨row, List.mem_filter.mpr ⟨hrow, hpeer⟩, by simp [hmsg.1]⟩

/-- **A conversation is shown in the order in which it was written.** After every run of the store's operations the first pages of a
conversation, the last of them first, are the newest of what was written of its messages, whatever the clocks that stamped them. -/
theorem history_in_order (hopens : Opens cipher) (ops : List ChatOp) (peerId : String) (n : Nat) :
    List.Forall₂ Shows (newest (n * pageSize) ((historyOf cipher key legacy ops).writtenIn peerId))
      ((List.range n).map (getHistory cipher key (historyOf cipher key legacy ops).table peerId)).reverse.flatten := by
  have hfollows : FollowsWrites cipher key (fun _ _ => True) (historyOf cipher key legacy ops).table (historyOf cipher key legacy ops).arrivals :=
    follows_historyOf hopens fun op _ => by cases op <;> simp [ChatOp.Keeps]
  rw [flatten_getHistory, List.forall₂_map_right_iff]
  refine (forall₂_newest (writtenIn_conversation hfollows peerId) _).imp fun msg row h => ?_
  exact h.2.shows h.1

end

namespace ChatSample

/-- A cipher whose ciphertext is the plaintext behind the key. -/
def cipher : AesGcm UInt8 where
  encrypt key _ plaintext _ := some (key :: plaintext)
  decrypt key _ ciphertext _ := if ciphertext.head? = some key then some ciphertext.tail else none

theorem opens : Opens cipher := by
  rintro key nonce plaintext aad ciphertext h
  obtain rfl := Option.some.inj h
  simp [cipher]

def nonce : Nonce := ⟨List.replicate 12 0, rfl⟩

/-- A message to a conversation. -/
def message (id peerId body : String) (timestamp : ℚ) : ChatMessage where
  id := id
  peerId := peerId
  sender := "a"
  recipient := "b"
  body := body
  timestamp := timestamp
  isSelf := false
  status := .delivered
  kind := .text
  attachmentName := ""
  attachmentPath := ""
  sizeStr := ""
  statusNote := ""
  senderHandle := "alice"

/-- A question, an answer with an earlier stamp, and the question once more. -/
def deliveries (peerId : String) : List ChatOp :=
  [.insertNew (nonce, nonce) (message "m1" peerId "question" 1000), .insertNew (nonce, nonce) (message "m2" peerId "answer" 500),
    .insertNew (nonce, nonce) (message "m1" peerId "question" 1000)]

end ChatSample

/-- The question stays above the answer. -/
theorem history_in_order_deliveries : List.Forall₂ Shows
    (newest (1 * pageSize) ((historyOf ChatSample.cipher 1 2 (ChatSample.deliveries "peer")).writtenIn "peer"))
    ((List.range 1).map (getHistory ChatSample.cipher 1 (historyOf ChatSample.cipher 1 2 (ChatSample.deliveries "peer")).table
      "peer")).reverse.flatten :=
  history_in_order ChatSample.opens _ "peer" 1

/-! ## Rooms -/

/-- A key that names a room in another case is none of the client's: node ids and room ids stand behind `room:`. -/
def PlainKey (key : String) : Prop := likePrefix "room:" key = true → "room:".toList.isPrefixOf key.toList = true

/-- The node ids and keys of an operation are such as the client has: a node id is base64url and has no colon. -/
def ChatOp.Plain : ChatOp → Prop
  | .insert _ msg => PlainKey msg.peerId
  | .insertNew _ msg => PlainKey msg.peerId
  | .upsert _ msg => PlainKey msg.peerId
  | .adoptSharedDefaultRoomHistory nodeId => ':' ∉ nodeId.toList
  | .foldDefaultRoomHistory nodeId members => ':' ∉ nodeId.toList ∧ ∀ member ∈ members, ':' ∉ member.toList
  | _ => True

/-- One conversation, or two of one room. -/
def SameRoom (a b : String) : Prop := a = b ∨ ∃ room, roomIdFromHistoryId a = some room ∧ roomIdFromHistoryId b = some room

theorem SameRoom.to_room {a b c room : String} (h : SameRoom a b) (hb : roomIdFromHistoryId b = some room)
    (hc : roomIdFromHistoryId c = some room) : SameRoom a c := by
  rcases h with rfl | ⟨room', ha, hb'⟩
  · exact Or.inr ⟨room, hb, hc⟩
  · rw [hb] at hb'
    exact Or.inr ⟨room, hb' ▸ ha, hc⟩

/-- What stands behind the last colon of a text stands behind the last colon of what follows any part before it. -/
theorem rtakeWhile_append_of_mem {a b : List Char} (h : ':' ∈ b) : (a ++ b).rtakeWhile (· != ':') = b.rtakeWhile (· != ':') := by
  have hshort : ¬(b.reverse.takeWhile (· != ':')).length = b.reverse.length := by
    intro hlen
    have hall := List.takeWhile_eq_self_iff.mp ((List.takeWhile_prefix _).eq_of_length hlen)
    simpa using hall ':' (List.mem_reverse.mpr h)
  rw [List.rtakeWhile, List.rtakeWhile, List.reverse_append, List.takeWhile_append, if_neg hshort]

theorem prefix_roomConversationId (rest : String) : "room:".toList.isPrefixOf (roomConversationId rest).toList = true := by
  rw [roomConversationId, String.toList_append, List.isPrefixOf_iff_prefix]
  exact List.prefix_append _ _

theorem plainKey_roomConversationId (rest : String) : PlainKey (roomConversationId rest) := fun _ => prefix_roomConversationId rest

theorem plainKey_roomHistoryId (nodeId : String) : PlainKey (roomHistoryId nodeId defaultRoomId) := by
  unfold roomHistoryId
  dsimp only
  split
  · simpa only [roomConversationId, String.append_assoc] using plainKey_roomConversationId (defaultRoomId ++ "@" ++ trimEndMatches '=' nodeId)
  · exact plainKey_roomConversationId _

theorem roomIdFromHistoryId_roomConversationId (rest : String) : roomIdFromHistoryId (roomConversationId rest) =
    some (String.ofList ((rest.toList.rtakeWhile (· != ':')).takeWhile (· != '@'))) := by
  have hdrop : (roomConversationId rest).toList.drop 5 = rest.toList := by
    rw [roomConversationId, String.toList_append]
    exact List.drop_left' rfl
  rw [roomIdFromHistoryId, if_pos (prefix_roomConversationId rest), hdrop]

/-- The built-in room's keys are of the built-in room, whatever the node. -/
theorem roomIdFromHistoryId_roomHistoryId {nodeId : String} (h : ':' ∉ nodeId.toList) :
    roomIdFromHistoryId (roomHistoryId nodeId defaultRoomId) = some defaultRoomId := by
  unfold roomHistoryId
  dsimp only
  split
  · have hnode : ':' ∉ (trimEndMatches '=' nodeId).toList := by
      rw [trimEndMatches, String.toList_ofList]
      intro hmem
      exact h ((List.rdropWhile_prefix _ _).subset hmem)
    have hkey : "room:" ++ defaultRoomId ++ "@" ++ trimEndMatches '=' nodeId =
        roomConversationId (defaultRoomId ++ "@" ++ trimEndMatches '=' nodeId) := by
      simp only [roomConversationId, String.append_assoc]
    have hlist : (defaultRoomId ++ "@" ++ trimEndMatches '=' nodeId).toList =
        defaultRoomId.toList ++ '@' :: (trimEndMatches '=' nodeId).toList := by
      simp [String.toList_append]
    have hplain : ∀ c ∈ defaultRoomId.toList ++ '@' :: (trimEndMatches '=' nodeId).toList, (c != ':') = true := by
      intro c hc
      have hroom : defaultRoomId.toList.all (· != ':') = true := by decide
      rcases List.mem_append.mp hc with hc | hc
      · exact List.all_eq_true.mp hroom c hc
      · rcases List.mem_cons.mp hc with rfl | hc
        · decide
        · simp only [bne_iff_ne, ne_eq]
          rintro rfl
          exact hnode hc
    have hname : (defaultRoomId.toList ++ '@' :: (trimEndMatches '=' nodeId).toList).takeWhile (· != '@') = defaultRoomId.toList := by
      have hroom : defaultRoomId.toList.all (· != '@') = true := by decide
      rw [List.takeWhile_append_of_pos (List.all_eq_true.mp hroom), List.takeWhile_cons_of_neg (by decide), List.append_nil]
    rw [hkey, roomIdFromHistoryId_roomConversationId, hlist, List.rtakeWhile_eq_self_iff.mpr hplain, hname, String.ofList_toList]
  · decide

/-- The key without its host is of the same room. -/
theorem roomIdFromHistoryId_foldedRoomKey {key : String} (hplain : PlainKey key) (h : isLegacyRoomKey key) :
    PlainKey (foldedRoomKey key) ∧ ∃ room, roomIdFromHistoryId key = some room ∧ roomIdFromHistoryId (foldedRoomKey key) = some room := by
  obtain ⟨hlike, hcolon⟩ := Bool.and_eq_true_iff.mp h
  have hprefix := hplain hlike
  have hcolon' : ':' ∈ key.toList.drop 5 := by simpa using hcolon
  have hbehind : key.toList.rtakeWhile (· != ':') = (key.toList.drop 5).rtakeWhile (· != ':') := by
    conv_lhs => rw [← List.take_append_drop 5 key.toList]
    exact rtakeWhile_append_of_mem hcolon'
  refine ⟨plainKey_roomConversationId _, _, by rw [roomIdFromHistoryId, if_pos hprefix], ?_⟩
  rw [foldedRoomKey, roomIdFromHistoryId_roomConversationId, String.toList_ofList, hbehind, List.rtakeWhile_idempotent]

/-- Operations with such ids and keys keep every message in its room. -/
theorem keeps_of_plain {op : ChatOp} (h : op.Plain) : op.Keeps fun a b => PlainKey b ∧ SameRoom a b := by
  have hnode {nodeId : String} (hid : ':' ∉ nodeId.toList) {a b : String} (hb : roomIdFromHistoryId b = some defaultRoomId)
      (hab : SameRoom a b) : PlainKey (roomHistoryId nodeId defaultRoomId) ∧ SameRoom a (roomHistoryId nodeId defaultRoomId) :=
    ⟨plainKey_roomHistoryId nodeId, hab.to_room hb (roomIdFromHistoryId_roomHistoryId hid)⟩
  have hfolded (a key : String) (hlegacy : isLegacyRoomKey key) (hkey : PlainKey key ∧ SameRoom a key) :
      PlainKey (foldedRoomKey key) ∧ SameRoom a (foldedRoomKey key) := by
    obtain ⟨hplain, room, hold, hnew⟩ := roomIdFromHistoryId_foldedRoomKey hkey.1 hlegacy
    exact ⟨hplain, hkey.2.to_room hold hnew⟩
  cases op with
  | insert nonces msg => exact ⟨h, Or.inl rfl⟩
  | insertNew nonces msg => exact ⟨h, Or.inl rfl⟩
  | upsert nonces msg => exact ⟨h, Or.inl rfl⟩
  | openStore nonces => exact hfolded
  | openWithKey => exact hfolded
  | adoptSharedDefaultRoomHistory nodeId => exact fun a hkey => hnode h (by decide) hkey.2
  | foldDefaultRoomHistory nodeId members =>
    exact fun a member hmember hkey => hnode h.1 (roomIdFromHistoryId_roomHistoryId (h.2 member hmember)) hkey.2
  | _ => trivial

/-- **No message leaves its room.** After every run with such ids and keys, each stored message is in the conversation that it was last
written to or in another one of the same room. -/
theorem message_room_kept {K : Type} {cipher : AesGcm K} {key legacy : K} (hopens : Opens cipher) {ops : List ChatOp}
    (hplain : ∀ op ∈ ops, op.Plain) {row : MessageRow} (hrow : row ∈ (historyOf cipher key legacy ops).table.rows) :
    ∃ msg ∈ (historyOf cipher key legacy ops).arrivals, msg.id = row.id ∧ SameRoom msg.peerId row.peerId := by
  have hfollows : FollowsWrites cipher key (fun a b => PlainKey b ∧ SameRoom a b) (historyOf cipher key legacy ops).table
      (historyOf cipher key legacy ops).arrivals := follows_historyOf hopens fun op hop => keeps_of_plain (hplain op hop)
  obtain ⟨msg, hmsg, hid, htells⟩ := Table.exists_of_forall₂ hfollows.2 hrow
  exact ⟨msg, List.mem_of_mem_filter hmsg, hid, htells.conversation.2⟩

/-- A message of the built-in room that was written before its key named a node. -/
theorem message_room_kept_adopted :
    ∃ row ∈ (historyOf ChatSample.cipher 1 2 (ChatSample.deliveries "room:default" ++ [.adoptSharedDefaultRoomHistory "node="])).table.rows,
      ∃ msg ∈ (historyOf ChatSample.cipher 1 2 (ChatSample.deliveries "room:default" ++
        [.adoptSharedDefaultRoomHistory "node="])).arrivals, msg.id = row.id ∧ SameRoom msg.peerId row.peerId := by
  have hsome : (historyOf ChatSample.cipher 1 2 (ChatSample.deliveries "room:default" ++
      [.adoptSharedDefaultRoomHistory "node="])).table.rows ≠ [] := by decide
  obtain ⟨row, hrow⟩ := List.exists_mem_of_ne_nil _ hsome
  refine ⟨row, hrow, message_room_kept ChatSample.opens ?_ hrow⟩
  have hkey : PlainKey "room:default" := fun _ => by decide
  have hnode : ':' ∉ "node=".toList := by decide
  intro op hop
  simp only [ChatSample.deliveries, List.cons_append, List.nil_append, List.mem_cons, List.not_mem_nil, or_false] at hop
  rcases hop with rfl | rfl | rfl | rfl
  · exact hkey
  · exact hkey
  · exact hkey
  · exact hnode

end DoubleSlash.Store.Chat
