import DoubleSlash.Keys.Sealed
import DoubleSlash.Lib.Table
import DoubleSlash.Lib.Text
import Mathlib.Algebra.Order.Ring.Rat
import Mathlib.Data.List.Dedup

/-!
# The chat history

The client's `chat_store.rs`, with the envelopes of `crypto.rs` and the upgrade of `store_migration.rs`: the table of messages in the
order of its row ids, what is written to it and what is read from it. AES-GCM is a parameter, and the nonces are inputs. SQLite is
taken to give a new row an id above all others.
-/

namespace DoubleSlash.Store.Chat

open Bytes Keys Text

/-! ## Envelopes -/

section

variable {K : Type} (cipher : AesGcm K)

/-- `ENVELOPE_VERSION`. -/
def envelopeVersion : UInt8 := 0x01

/-- `HEADER_LEN`. -/
def headerLen : Nat := 1 + voiceNonceLen

/-- `encrypt_blob`, with its nonce. -/
def encryptBlob (key : K) (nonce : Nonce) (plaintext : List UInt8) : Option (List UInt8) :=
  (cipher.encrypt key nonce plaintext []).map fun ct => envelopeVersion :: (nonce.1 ++ ct)

/-- `decrypt_blob`. -/
def decryptBlob (key : K) (envelope : List UInt8) : Option (List UInt8) :=
  if envelope.length < headerLen then none
  else if envelope.head? ≠ some envelopeVersion then none
  else aesgcmDecrypt cipher key (slice envelope 1 headerLen) (envelope.drop headerLen) []

/-- `reencrypt`, with its nonce: an error when the encryption fails. -/
def reencrypt (current legacy : K) (nonce : Nonce) (blob : List UInt8) : Option (Option (List UInt8)) :=
  if (decryptBlob cipher current blob).isSome then some none
  else
    match decryptBlob cipher legacy blob with
    | some plaintext => (encryptBlob cipher current nonce plaintext).map some
    | none => some none

end

/-- `MessageKind`. -/
inductive MessageKind where
  | text | file | image | video | system
  deriving DecidableEq, Repr

def MessageKind.asStr : MessageKind → String
  | .text => "text"
  | .file => "file"
  | .image => "image"
  | .video => "video"
  | .system => "system"

def MessageKind.fromStr (s : String) : MessageKind :=
  if s = "file" then .file else if s = "image" then .image else if s = "video" then .video else if s = "system" then .system else .text

/-- `MessageStatus`. -/
inductive MessageStatus where
  | sending | sent | delivered | read | failed
  deriving DecidableEq, Repr

def MessageStatus.asStr : MessageStatus → String
  | .sending => "sending"
  | .sent => "sent"
  | .delivered => "delivered"
  | .read => "read"
  | .failed => "failed"

def MessageStatus.fromStr (s : String) : MessageStatus :=
  if s = "sending" then .sending else if s = "sent" then .sent else if s = "delivered" then .delivered else if s = "read" then .read
  else if s = "failed" then .failed else .sending

@[simp] theorem MessageKind.fromStr_asStr (k : MessageKind) : fromStr k.asStr = k := by
  cases k <;> decide

@[simp] theorem MessageStatus.fromStr_asStr (s : MessageStatus) : fromStr s.asStr = s := by
  cases s <;> decide

/-! ## Conversation keys -/

/-- `DEFAULT_ROOM_ID`. -/
def defaultRoomId : String := "default"

/-- `room_conversation_id`. -/
def roomConversationId (roomId : String) : String := "room:" ++ roomId

/-- `room_history_id`. -/
def roomHistoryId (nodeId roomId : String) : String :=
  let node := trimEndMatches '=' nodeId
  if roomId = defaultRoomId ∧ node ≠ "" then "room:" ++ defaultRoomId ++ "@" ++ node else roomConversationId roomId

/-- `room_id_from_history_id`: what stands behind the last colon, up to the first `@`. -/
def roomIdFromHistoryId (key : String) : Option String :=
  if "room:".toList.isPrefixOf key.toList then
    some (String.ofList (((key.toList.drop 5).rtakeWhile (· != ':')).takeWhile (· != '@')))
  else none

/-- `LIKE` with a text that everything may follow: letters of ASCII match in either case. -/
def likePrefix (text s : String) : Bool :=
  (s.toList.take text.toList.length).map Char.toLower == text.toList.map Char.toLower

/-- `LIKE 'room:%:%'`. -/
def isLegacyRoomKey (key : String) : Bool := likePrefix "room:" key && (key.toList.drop 5).contains ':'

/-- The key without its host. -/
def foldedRoomKey (key : String) : String := roomConversationId (String.ofList (key.toList.rtakeWhile (· != ':')))

/-! ## The table -/

/-- `ChatMessage`. -/
structure ChatMessage where
  id : String
  peerId : String
  sender : String
  recipient : String
  body : String
  timestamp : ℚ
  isSelf : Bool
  status : MessageStatus
  kind : MessageKind
  attachmentName : String
  attachmentPath : String
  sizeStr : String
  statusNote : String
  senderHandle : String
  deriving DecidableEq

/-- A row of `messages`. -/
structure MessageRow where
  id : String
  peerId : String
  sender : String
  recipient : String
  body : List UInt8
  timestamp : ℚ
  isSelf : Bool
  status : String
  kind : String
  attachmentName : String
  attachmentPath : String
  sizeStr : String
  statusNote : String
  senderHandle : List UInt8
  deriving DecidableEq

/-- `messages`, whose primary key is `id`. -/
abbrev Messages := Table MessageRow.id

/-- The nonces of a body and of a handle. -/
abbrev Nonces := Nonce × Nonce

section

variable {K : Type} (cipher : AesGcm K) (key : K)

/-- The row of a message: an error when the encryption fails. -/
def rowOf (nonces : Nonces) (msg : ChatMessage) : Option MessageRow := do
  let body ← encryptBlob cipher key nonces.1 (utf8 msg.body)
  let handle ← encryptBlob cipher key nonces.2 (utf8 msg.senderHandle)
  some
    { id := msg.id
      peerId := msg.peerId
      sender := msg.sender
      recipient := msg.recipient
      body := body
      timestamp := msg.timestamp
      isSelf := msg.isSelf
      status := msg.status.asStr
      kind := msg.kind.asStr
      attachmentName := msg.attachmentName
      attachmentPath := msg.attachmentPath
      sizeStr := msg.sizeStr
      statusNote := msg.statusNote
      senderHandle := handle }

/-- `decrypt`. -/
def decrypt (blob : List UInt8) : Option String := (decryptBlob cipher key blob).bind fromUtf8

/-- A row as it is read: what does not decrypt is empty. -/
def readRow (row : MessageRow) : ChatMessage where
  id := row.id
  peerId := row.peerId
  sender := row.sender
  recipient := row.recipient
  body := (decrypt cipher key row.body).getD ""
  timestamp := row.timestamp
  isSelf := row.isSelf
  status := .fromStr row.status
  kind := .fromStr row.kind
  attachmentName := row.attachmentName
  attachmentPath := row.attachmentPath
  sizeStr := row.sizeStr
  statusNote := row.statusNote
  senderHandle := (decrypt cipher key row.senderHandle).getD ""

/-! ### Writing -/

/-- `insert`: an error when the encryption fails or the id is taken. -/
def insert (t : Messages) (nonces : Nonces) (msg : ChatMessage) : Option Messages :=
  match (rowOf cipher key nonces msg).map t.insertNew with
  | some (t', true) => some t'
  | _ => none

/-- `insert_new`, and whether a row was written. -/
def insertNew (t : Messages) (nonces : Nonces) (msg : ChatMessage) : Option (Messages × Bool) :=
  (rowOf cipher key nonces msg).map t.insertNew

/-- `upsert`. -/
def upsert (t : Messages) (nonces : Nonces) (msg : ChatMessage) : Option Messages := (rowOf cipher key nonces msg).map t.replace

end

/-- `update_status`. -/
def updateStatus (t : Messages) (msgId : String) (status : MessageStatus) : Messages :=
  t.updateWhere (fun r => decide (r.id = msgId)) (fun r => { r with status := status.asStr }) fun _ => rfl

/-- `update_status_note`. -/
def updateStatusNote (t : Messages) (msgId : String) (status : MessageStatus) (note : String) : Messages :=
  t.updateWhere (fun r => decide (r.id = msgId)) (fun r => { r with status := status.asStr, statusNote := note }) fun _ => rfl

/-- `update_attachment`. -/
def updateAttachment (t : Messages) (msgId attachmentPath sizeStr : String) : Messages :=
  t.updateWhere (fun r => decide (r.id = msgId)) (fun r => { r with attachmentPath, sizeStr }) fun _ => rfl

/-- `UPDATE messages SET peer_id = ? WHERE peer_id = ?`. -/
def rekey (t : Messages) (newKey oldKey : String) : Messages :=
  t.updateWhere (fun r => decide (r.peerId = oldKey)) (fun r => { r with peerId := newKey }) fun _ => rfl

/-- `delete_message`. -/
def deleteMessage (t : Messages) (msgId : String) : Messages := t.deleteWhere fun r => decide (r.id = msgId)

/-- `clear_history`. -/
def clearHistory (t : Messages) (peerId : String) : Messages := t.deleteWhere fun r => decide (r.peerId = peerId)

/-- `trim_by_age`, with the number of rows that went. -/
def trimByAge (t : Messages) (now : ℚ) (days : Int) : Messages × Nat :=
  let old := fun r : MessageRow => decide (r.timestamp < now - days * 86400)
  (t.deleteWhere old, t.rows.countP old)

/-- `purge_all`. -/
def purgeAll (t : Messages) : Messages × Nat := (Table.empty, t.rows.length)

/-! ### Reading -/

/-- The rows of a conversation. -/
def conversation (t : Messages) (peerId : String) : List MessageRow := t.rows.filter fun r => decide (r.peerId = peerId)

/-- `PAGE_SIZE`. -/
def pageSize : Nat := 50

/-- `get_history`. -/
def getHistory {K : Type} (cipher : AesGcm K) (key : K) (t : Messages) (peerId : String) (page : Nat) : List ChatMessage :=
  (Table.page (conversation t peerId) pageSize page).map (readRow cipher key)

/-- `get_by_id`. -/
def getById {K : Type} (cipher : AesGcm K) (key : K) (t : Messages) (msgId : String) : Option ChatMessage :=
  (t.get msgId).map (readRow cipher key)

/-- Inbound and not read. -/
def MessageRow.unread (r : MessageRow) : Bool := !r.isSelf && decide (r.status ≠ "read")

/-- `unread_count`. -/
def unreadCount (t : Messages) (peerId : String) : Nat := t.rows.countP fun r => decide (r.peerId = peerId) && r.unread

/-- `total_unread_count`. -/
def totalUnreadCount (t : Messages) : Nat := t.rows.countP MessageRow.unread

/-- `total_direct_unread_count`. -/
def totalDirectUnreadCount (t : Messages) : Nat := t.rows.countP fun r => r.unread && !likePrefix "room:" r.peerId

/-- `SELECT DISTINCT peer_id`. -/
def distinctPeers (t : Messages) : List String := (t.rows.map MessageRow.peerId).dedup

/-- `mark_peer_read`, with the number of rows it changed. -/
def markPeerRead (t : Messages) (peerId : String) : Messages × Nat :=
  let due := fun r : MessageRow => decide (r.peerId = peerId) && r.unread
  (t.updateWhere due (fun r => { r with status := "read" }) fun _ => rfl, t.rows.countP due)

/-- `room_conversations`. -/
def roomConversations (t : Messages) (roomId : String) : List String :=
  let key := roomConversationId roomId
  if roomId ≠ defaultRoomId then [key]
  else (distinctPeers t).filter fun p => decide (p = key) || likePrefix (key ++ "@") p

/-- `room_unread_count`. -/
def roomUnreadCount (t : Messages) (roomId : String) : Nat := ((roomConversations t roomId).map (unreadCount t)).sum

/-- One conversation of `mark_room_read`. -/
def readConversation (acc : Messages × Nat) (key : String) : Messages × Nat :=
  let out := markPeerRead acc.1 key
  (out.1, acc.2 + out.2)

/-- `mark_room_read`. -/
def markRoomRead (t : Messages) (roomId : String) : Messages × Nat := (roomConversations t roomId).foldl readConversation (t, 0)

/-! ### Re-keying and trimming -/

/-- `adopt_shared_default_room_history`. -/
def adoptSharedDefaultRoomHistory (t : Messages) (nodeId : String) : Messages × Nat :=
  let oldKey := roomConversationId defaultRoomId
  let newKey := roomHistoryId nodeId defaultRoomId
  if newKey = oldKey then (t, 0) else (rekey t newKey oldKey, (conversation t oldKey).length)

/-- `fold_default_room_history`. -/
def foldDefaultRoomHistory (t : Messages) (nodeId : String) (members : List String) : Messages × Nat :=
  let target := roomHistoryId nodeId defaultRoomId
  let out := members.foldl (fun (acc : (Messages × Nat) × List String) member =>
    let key := roomHistoryId member defaultRoomId
    if key = target ∨ key = roomConversationId defaultRoomId ∨ key ∈ acc.2 then acc
    else ((rekey acc.1.1 target key, acc.1.2 + (conversation acc.1.1 key).length), key :: acc.2)) ((t, 0), [])
  out.1

/-- The ids of the newest rows of a conversation. A negative limit is none. -/
def newestIds (t : Messages) (peerId : String) (keep : Int) : List String :=
  let newest := (conversation t peerId).reverse
  (if keep < 0 then newest else newest.take keep.toNat).map MessageRow.id

/-- One conversation of `trim_by_count`. -/
def trimConversation (keep : Int) (acc : Messages × Nat) (peerId : String) : Messages × Nat :=
  let kept := newestIds acc.1 peerId keep
  let old := fun r : MessageRow => decide (r.peerId = peerId) && !kept.contains r.id
  (acc.1.deleteWhere old, acc.2 + acc.1.rows.countP old)

/-- `trim_by_count`, with the number of rows that went. -/
def trimByCount (t : Messages) (keep : Int) : Messages × Nat := (distinctPeers t).foldl (trimConversation keep) (t, 0)

/-! ### Opening -/

/-- `migrate_room_keys`. -/
def migrateRoomKeys (t : Messages) : Messages :=
  ((distinctPeers t).filter isLegacyRoomKey).foldl (fun t oldKey =>
    if foldedRoomKey oldKey = oldKey then t else rekey t (foldedRoomKey oldKey) oldKey) t

/-- `fail_stale_sending`. -/
def failStaleSending (t : Messages) : Messages :=
  t.updateWhere (fun r => r.isSelf && decide (r.status = "sending"))
    (fun r => { r with status := "failed", statusNote := "interrupted before delivery" }) fun _ => rfl

/-- `open_with_key`. -/
def openWithKey (t : Messages) : Messages := failStaleSending (migrateRoomKeys t)

/-- What may happen to a chat history. -/
inductive ChatOp where
  | openStore (nonces : String → Nonces)
  | openWithKey
  | insert (nonces : Nonces) (msg : ChatMessage)
  | insertNew (nonces : Nonces) (msg : ChatMessage)
  | upsert (nonces : Nonces) (msg : ChatMessage)
  | updateStatus (msgId : String) (status : MessageStatus)
  | updateStatusNote (msgId : String) (status : MessageStatus) (note : String)
  | updateAttachment (msgId attachmentPath sizeStr : String)
  | markPeerRead (peerId : String)
  | markRoomRead (roomId : String)
  | adoptSharedDefaultRoomHistory (nodeId : String)
  | foldDefaultRoomHistory (nodeId : String) (members : List String)
  | deleteMessage (msgId : String)
  | clearHistory (peerId : String)
  | trimByAge (now : ℚ) (days : Int)
  | trimByCount (keep : Int)
  | purgeAll

section

variable {K : Type} (cipher : AesGcm K) (key legacy : K)

/-- Whether the oldest body that opens under either key opens under the legacy key. -/
def hasLegacy : List (List UInt8) → Bool
  | [] => false
  | body :: bodies =>
    if (decryptBlob cipher key body).isSome then false
    else if (decryptBlob cipher legacy body).isSome then true
    else hasLegacy bodies

/-- A row with its body and its handle encrypted again. -/
def upgradeRow (nonces : Nonces) (row : MessageRow) : Option MessageRow := do
  let body ← reencrypt cipher key legacy nonces.1 row.body
  let handle ← reencrypt cipher key legacy nonces.2 row.senderHandle
  some { row with body := body.getD row.body, senderHandle := handle.getD row.senderHandle }

theorem id_upgradeRow {nonces : Nonces} {row row' : MessageRow} (h : upgradeRow cipher key legacy nonces row = some row') :
    row'.id = row.id := by
  simp only [upgradeRow, Option.bind_eq_bind, Option.bind_eq_some_iff, Option.some.injEq] at h
  obtain ⟨_, _, _, _, rfl⟩ := h
  rfl

theorem id_getD_upgradeRow (nonces : Nonces) (row : MessageRow) : ((upgradeRow cipher key legacy nonces row).getD row).id = row.id := by
  cases hrow : upgradeRow cipher key legacy nonces row with
  | none => rfl
  | some row' => exact id_upgradeRow cipher key legacy hrow

/-- `upgrade_legacy_rows`, one transaction, with the nonces of each row. -/
def upgradeLegacyRows (nonces : String → Nonces) (t : Messages) : Option Messages :=
  if !hasLegacy cipher key legacy (t.rows.map MessageRow.body) then some t
  else if t.rows.all fun r => (upgradeRow cipher key legacy (nonces r.id) r).isSome then
    some (t.update (fun r => (upgradeRow cipher key legacy (nonces r.id) r).getD r) fun _ => id_getD_upgradeRow cipher key legacy _ _)
  else none

/-- `ChatStore::open`: an upgrade that fails leaves the rows as they are. -/
def openStore (nonces : String → Nonces) (t : Messages) : Messages :=
  (upgradeLegacyRows cipher key legacy nonces (openWithKey t)).getD (openWithKey t)

/-- The table after an operation. -/
def ChatOp.apply (t : Messages) : ChatOp → Messages
  | .openStore nonces => Chat.openStore cipher key legacy nonces t
  | .openWithKey => Chat.openWithKey t
  | .insert nonces msg => (Chat.insert cipher key t nonces msg).getD t
  | .insertNew nonces msg => ((Chat.insertNew cipher key t nonces msg).map Prod.fst).getD t
  | .upsert nonces msg => (Chat.upsert cipher key t nonces msg).getD t
  | .updateStatus msgId status => Chat.updateStatus t msgId status
  | .updateStatusNote msgId status note => Chat.updateStatusNote t msgId status note
  | .updateAttachment msgId attachmentPath sizeStr => Chat.updateAttachment t msgId attachmentPath sizeStr
  | .markPeerRead peerId => (Chat.markPeerRead t peerId).1
  | .markRoomRead roomId => (Chat.markRoomRead t roomId).1
  | .adoptSharedDefaultRoomHistory nodeId => (Chat.adoptSharedDefaultRoomHistory t nodeId).1
  | .foldDefaultRoomHistory nodeId members => (Chat.foldDefaultRoomHistory t nodeId members).1
  | .deleteMessage msgId => Chat.deleteMessage t msgId
  | .clearHistory peerId => Chat.clearHistory t peerId
  | .trimByAge now days => (Chat.trimByAge t now days).1
  | .trimByCount keep => (Chat.trimByCount t keep).1
  | .purgeAll => (Chat.purgeAll t).1

end

end DoubleSlash.Store.Chat
