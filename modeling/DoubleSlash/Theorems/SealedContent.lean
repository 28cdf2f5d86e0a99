import DoubleSlash.Keys.Sealed

/-!
# Where sealed content opens

What is sealed for one place of a room (a frame of a stream, a message, a chunk of a file) opens at another one exactly when the
associated data of the two coincide.
-/

namespace DoubleSlash.Keys

open Bytes

/-- What a room seals, with the fields of its own. -/
inductive Content where
  | media (kind : MediaKind) (sequence : UInt64)
  | chat (messageId : String)
  | fileChunk (transferId : String) (chunkIndex : UInt64)
  deriving DecidableEq

/-- Where something sealed belongs. -/
structure Place where
  convId : String
  sender : String
  content : Content
  deriving DecidableEq

/-- The associated data of a place. -/
def Place.aad (p : Place) : List UInt8 :=
  match p.content with
  | .media kind sequence => mediaAad kind p.convId p.sender sequence
  | .chat messageId => chatAad p.convId p.sender messageId
  | .fileChunk transferId chunkIndex => fileChunkAad p.convId p.sender transferId chunkIndex

/-- The texts of some content. -/
def Content.texts : Content → List String
  | .media _ _ => []
  | .chat messageId => [messageId]
  | .fileChunk transferId _ => [transferId]

/-- The length of every text fits its four bytes. -/
def Place.Fits (p : Place) : Prop := ∀ text ∈ p.convId :: p.sender :: p.content.texts, (utf8 text).length < 2 ^ 32

/-- What is sent of something sealed: a frame, or a body with its epoch beside it. -/
inductive Wire where
  | frame (bytes : List UInt8)
  | body (epoch : UInt8) (bytes : List UInt8)

namespace Wire

def epoch? : Wire → Option UInt8
  | frame bytes => bytes.head?
  | body epoch _ => some epoch

def ciphertext : Wire → List UInt8
  | frame bytes => bytes.drop voiceHeaderLen
  | body _ bytes => bytes.drop voiceNonceLen

end Wire

section

variable {K : Type} (cipher : AesGcm K) (keys : GroupKeySource K)

/-- The function that seals the content of a place. -/
def sealAt (p : Place) (nonce : Nonce) (plaintext : List UInt8) : Option Wire :=
  match p.content with
  | .media kind sequence => (sealMediaFrame cipher keys kind p.convId p.sender sequence nonce plaintext).map .frame
  | .chat messageId =>
    (sealChatBody cipher keys p.convId p.sender messageId nonce plaintext).map fun s => .body s.1 s.2
  | .fileChunk transferId chunkIndex =>
    (sealFileChunk cipher keys p.convId p.sender transferId chunkIndex nonce plaintext).map fun s => .body s.1 s.2

/-- The function that opens the content of a place; a frame is not a body. -/
def openAt (p : Place) (w : Wire) : Option (List UInt8) :=
  match p.content, w with
  | .media kind sequence, .frame bytes => openMediaFrame cipher keys kind p.convId p.sender sequence bytes
  | .chat messageId, .body epoch bytes => openChatBody cipher keys p.convId p.sender messageId epoch bytes
  | .fileChunk transferId chunkIndex, .body epoch bytes =>
    openFileChunk cipher keys p.convId p.sender transferId chunkIndex epoch bytes
  | _, _ => none

end

/-- A frame of a stream and a message whose id reads as the end of the frame's associated data: the id is four bytes and what the
kind of the stream appends, and the sequence number is the length of the id before those four bytes. -/
def Confusable (kind : MediaKind) (sequence : UInt64) (messageId : String) : Prop :=
  ∃ four : List UInt8, four.length = 4 ∧ utf8 messageId = four ++ kind.suffix ∧
    sequence.toNat = (utf8 messageId).length * 2 ^ 32 + beNat four

/-- A frame and a message of one sender in one room that are confusable. -/
def Collide (p q : Place) : Prop :=
  p.convId = q.convId ∧ p.sender = q.sender ∧ ∃ kind sequence messageId, Confusable kind sequence messageId ∧
    (p.content = .media kind sequence ∧ q.content = .chat messageId ∨ p.content = .chat messageId ∧ q.content = .media kind sequence)

namespace SealedContentAux

/-! ### Associated data -/

/-- What a place appends to the room and the sender. -/
def tail : Content → List UInt8
  | .media kind sequence => beBytes 8 sequence.toNat ++ kind.suffix
  | .chat messageId => lengthPrefixed 4 (utf8 messageId)
  | .fileChunk transferId chunkIndex => lengthPrefixed 4 (utf8 transferId) ++ beBytes 8 chunkIndex.toNat

theorem aad_eq (p : Place) : p.aad = lengthPrefixed 4 (utf8 p.convId) ++ (lengthPrefixed 4 (utf8 p.sender) ++ tail p.content) := by
  unfold Place.aad tail lengthPrefixed
  cases p.content with
  | media kind sequence => simp [mediaAad, voiceAad]
  | chat messageId => simp [chatAad, fieldsAad]
  | fileChunk transferId chunkIndex => simp [fileChunkAad, fieldsAad]

theorem aad_inj {p q : Place} (hp : p.Fits) (hq : q.Fits) :
    p.aad = q.aad ↔ p.convId = q.convId ∧ p.sender = q.sender ∧ tail p.content = tail q.content := by
  rw [aad_eq, aad_eq]
  constructor
  · intro h
    obtain ⟨hconv, h⟩ := lengthPrefixed_append_inj (hp _ List.mem_cons_self) (hq _ List.mem_cons_self) h
    obtain ⟨hsender, h⟩ := lengthPrefixed_append_inj (hp _ (List.mem_cons_of_mem _ List.mem_cons_self))
      (hq _ (List.mem_cons_of_mem _ List.mem_cons_self)) h
    exact ⟨utf8_inj hconv, utf8_inj hsender, h⟩
  · rintro ⟨hconv, hsender, htail⟩
    rw [hconv, hsender, htail]

theorem length_suffix (kind : MediaKind) : kind.suffix.length ≤ 1 := by
  cases kind with
  | voice => exact Nat.zero_le _
  | video => exact le_rfl
  | contentAudio => exact le_rfl

theorem suffix_inj {a b : MediaKind} (h : a.suffix = b.suffix) : a = b := by
  cases a <;> cases b <;> first | rfl | exact absurd h (by decide)

theorem tail_media {kind kind' : MediaKind} {sequence sequence' : UInt64}
    (h : tail (.media kind sequence) = tail (.media kind' sequence')) : kind = kind' ∧ sequence = sequence' := by
  obtain ⟨hseq, hsuffix⟩ := List.append_inj h (by rw [length_beBytes, length_beBytes])
  exact ⟨suffix_inj hsuffix, UInt64.toNat_inj.mp (beBytes_inj sequence.toNat_lt sequence'.toNat_lt hseq)⟩

theorem tail_fileChunk {transferId transferId' : String} {chunkIndex chunkIndex' : UInt64}
    (h : (utf8 transferId).length < 2 ^ 32) (h' : (utf8 transferId').length < 2 ^ 32)
    (heq : tail (.fileChunk transferId chunkIndex) = tail (.fileChunk transferId' chunkIndex')) :
    transferId = transferId' ∧ chunkIndex = chunkIndex' := by
  obtain ⟨hid, hindex⟩ := lengthPrefixed_append_inj h h' heq
  exact ⟨utf8_inj hid, UInt64.toNat_inj.mp (beBytes_inj chunkIndex.toNat_lt chunkIndex'.toNat_lt hindex)⟩

theorem tail_chat {messageId messageId' : String} (h : (utf8 messageId).length < 2 ^ 32) (h' : (utf8 messageId').length < 2 ^ 32)
    (heq : tail (.chat messageId) = tail (.chat messageId')) : messageId = messageId' := by
  have hsame : lengthPrefixed 4 (utf8 messageId) ++ [] = lengthPrefixed 4 (utf8 messageId') ++ [] := congrArg (· ++ []) heq
  exact utf8_inj (lengthPrefixed_append_inj h h' hsame).1

/-- The tail of a chunk is longer than that of any frame. -/
theorem tail_media_ne_fileChunk (kind : MediaKind) (sequence : UInt64) (transferId : String) (chunkIndex : UInt64) :
    tail (.media kind sequence) ≠ tail (.fileChunk transferId chunkIndex) := by
  intro h
  have hlen := congrArg List.length h
  have hsuffix := length_suffix kind
  simp only [tail, lengthPrefixed, List.length_append, length_beBytes] at hlen
  omega

/-- A message and a chunk begin with the length of an id, and the chunk goes on after it. -/
theorem tail_chat_ne_fileChunk {messageId transferId : String} (h : (utf8 messageId).length < 2 ^ 32)
    (h' : (utf8 transferId).length < 2 ^ 32) (chunkIndex : UInt64) : tail (.chat messageId) ≠ tail (.fileChunk transferId chunkIndex) := by
  intro heq
  have hend := (lengthPrefixed_append_inj (x := []) h h' ((List.append_nil _).trans heq)).2
  have hlen := congrArg List.length hend
  rw [length_beBytes] at hlen
  exact absurd hlen (by decide)

theorem tail_media_chat_iff {kind : MediaKind} {sequence : UInt64} {messageId : String} (h : (utf8 messageId).length < 2 ^ 32) :
    tail (.media kind sequence) = tail (.chat messageId) ↔ Confusable kind sequence messageId := by
  have hseq : sequence.toNat < 256 ^ 8 := sequence.toNat_lt
  have hnum (four : List UInt8) (hfour : four.length = 4) :
      beBytes 8 sequence.toNat = beBytes 4 (utf8 messageId).length ++ four ↔
        sequence.toNat = (utf8 messageId).length * 2 ^ 32 + beNat four := by
    rw [beBytes_eq_iff hseq (by rw [List.length_append, length_beBytes, hfour]), beNat_append, beNat_beBytes 4 _ h, hfour]
    rfl
  constructor
  · intro heq
    -- The eight bytes of the number are the length of the id and its first four bytes.
    have hlen := congrArg List.length heq
    simp only [tail, lengthPrefixed, List.length_append, length_beBytes] at hlen
    have hsplit : beBytes 8 sequence.toNat ++ kind.suffix =
        (beBytes 4 (utf8 messageId).length ++ (utf8 messageId).take 4) ++ (utf8 messageId).drop 4 := by
      rw [List.append_assoc, List.take_append_drop]
      exact heq
    have hfour : ((utf8 messageId).take 4).length = 4 := by
      rw [List.length_take]
      omega
    obtain ⟨hhead, hrest⟩ := List.append_inj hsplit (by rw [length_beBytes, List.length_append, length_beBytes, hfour])
    refine ⟨(utf8 messageId).take 4, hfour, ?_, (hnum _ hfour).mp hhead⟩
    rw [hrest, List.take_append_drop]
  · rintro ⟨four, hfour, hid, hsequence⟩
    show beBytes 8 sequence.toNat ++ kind.suffix = beBytes 4 (utf8 messageId).length ++ utf8 messageId
    rw [(hnum four hfour).mpr hsequence, List.append_assoc, ← hid]

/-- Two contents, one of a frame and one of a message, that are confusable. -/
def Mixed (c d : Content) : Prop :=
  ∃ kind sequence messageId, Confusable kind sequence messageId ∧
    (c = .media kind sequence ∧ d = .chat messageId ∨ c = .chat messageId ∧ d = .media kind sequence)

theorem mixed_media_chat {kind : MediaKind} {sequence : UInt64} {messageId : String} :
    Mixed (.media kind sequence) (.chat messageId) ↔ Confusable kind sequence messageId := by
  constructor
  · rintro ⟨k, n, m, hconf, ⟨hc, hd⟩ | ⟨hc, -⟩⟩
    · obtain ⟨rfl, rfl⟩ := Content.media.inj hc
      obtain rfl := Content.chat.inj hd
      exact hconf
    · exact absurd hc (by simp)
  · exact fun hconf => ⟨kind, sequence, messageId, hconf, Or.inl ⟨rfl, rfl⟩⟩

theorem mixed_symm {c d : Content} (h : Mixed c d) : Mixed d c := by
  obtain ⟨kind, sequence, messageId, hconf, ⟨hc, hd⟩ | ⟨hc, hd⟩⟩ := h
  · exact ⟨kind, sequence, messageId, hconf, Or.inr ⟨hd, hc⟩⟩
  · exact ⟨kind, sequence, messageId, hconf, Or.inl ⟨hd, hc⟩⟩

/-- Only a frame and a message are ever mixed. -/
theorem not_mixed_fileChunk {c : Content} {transferId : String} {chunkIndex : UInt64} : ¬ Mixed c (.fileChunk transferId chunkIndex) := by
  rintro ⟨_, _, _, _, ⟨-, hd⟩ | ⟨-, hd⟩⟩
  · exact absurd hd (by simp)
  · exact absurd hd (by simp)

theorem ne_of_mixed {c d : Content} (h : Mixed c d) : c ≠ d := by
  obtain ⟨_, _, _, _, ⟨hc, hd⟩ | ⟨hc, hd⟩⟩ := h
  · rw [hc, hd]
    simp
  · rw [hc, hd]
    simp

/-- What two contents append is the same when they are, and when they are mixed. -/
theorem tail_eq_iff {c d : Content} (hc : ∀ text ∈ c.texts, (utf8 text).length < 2 ^ 32)
    (hd : ∀ text ∈ d.texts, (utf8 text).length < 2 ^ 32) : tail c = tail d ↔ c = d ∨ Mixed c d := by
  have hsplit (hne : c ≠ d) (h : tail c = tail d ↔ Mixed c d) : tail c = tail d ↔ c = d ∨ Mixed c d :=
    h.trans (or_iff_right hne).symm
  have hsame (hinj : tail c = tail d → c = d) : tail c = tail d ↔ c = d ∨ Mixed c d := by
    refine ⟨fun h => Or.inl (hinj h), ?_⟩
    rintro (rfl | h)
    · rfl
    · obtain ⟨kind, sequence, messageId, hconf, ⟨rfl, rfl⟩ | ⟨rfl, rfl⟩⟩ := h
      · exact (tail_media_chat_iff (hd messageId (by simp [Content.texts]))).mpr hconf
      · exact ((tail_media_chat_iff (hc messageId (by simp [Content.texts]))).mpr hconf).symm
  cases c with
  | media kind sequence =>
    cases d with
    | media kind' sequence' =>
      refine hsame fun h => ?_
      obtain ⟨rfl, rfl⟩ := tail_media h
      rfl
    | chat messageId =>
      exact hsplit (by simp) ((tail_media_chat_iff (hd messageId (by simp [Content.texts]))).trans mixed_media_chat.symm)
    | fileChunk transferId chunkIndex =>
      exact hsplit (by simp) (iff_of_false (tail_media_ne_fileChunk _ _ _ _) not_mixed_fileChunk)
  | chat messageId =>
    have hid := hc messageId (by simp [Content.texts])
    cases d with
    | media kind sequence =>
      refine hsplit (by simp) (eq_comm.trans ((tail_media_chat_iff hid).trans (mixed_media_chat.symm.trans ?_)))
      exact ⟨mixed_symm, mixed_symm⟩
    | chat messageId' => exact hsame fun h => congrArg Content.chat (tail_chat hid (hd messageId' (by simp [Content.texts])) h)
    | fileChunk transferId chunkIndex =>
      exact hsplit (by simp) (iff_of_false (tail_chat_ne_fileChunk hid (hd transferId (by simp [Content.texts])) _) not_mixed_fileChunk)
  | fileChunk transferId chunkIndex =>
    have hid := hc transferId (by simp [Content.texts])
    cases d with
    | media kind sequence =>
      exact hsplit (by simp) (iff_of_false (tail_media_ne_fileChunk _ _ _ _).symm fun h => not_mixed_fileChunk (mixed_symm h))
    | chat messageId =>
      exact hsplit (by simp)
        (iff_of_false (tail_chat_ne_fileChunk (hd messageId (by simp [Content.texts])) hid _).symm
          fun h => not_mixed_fileChunk (mixed_symm h))
    | fileChunk transferId' chunkIndex' =>
      refine hsame fun h => ?_
      obtain ⟨rfl, rfl⟩ := tail_fileChunk hid (hd transferId' (by simp [Content.texts])) h
      rfl

/-- **Where associated data coincide.** Those of two places are the same when the places are, and when the places collide. -/
theorem aad_eq_iff {p q : Place} (hp : p.Fits) (hq : q.Fits) : p.aad = q.aad ↔ p = q ∨ Collide p q := by
  rw [aad_inj hp hq, tail_eq_iff (fun text h => hp text (List.mem_cons_of_mem _ (List.mem_cons_of_mem _ h)))
    (fun text h => hq text (List.mem_cons_of_mem _ (List.mem_cons_of_mem _ h)))]
  unfold Collide
  constructor
  · rintro ⟨hconv, hsender, hcontent | hmixed⟩
    · obtain ⟨convId, sender, content⟩ := p
      obtain ⟨convId', sender', content'⟩ := q
      obtain ⟨rfl, rfl, rfl⟩ : convId = convId' ∧ sender = sender' ∧ content = content' := ⟨hconv, hsender, hcontent⟩
      exact Or.inl rfl
    · exact Or.inr ⟨hconv, hsender, hmixed⟩
  · rintro (rfl | ⟨hconv, hsender, hmixed⟩)
    · exact ⟨rfl, rfl, Or.inl rfl⟩
    · exact ⟨hconv, hsender, Or.inr hmixed⟩

theorem ne_of_collide {p q : Place} (h : Collide p q) : p ≠ q :=
  fun heq => ne_of_mixed h.2.2 (congrArg Place.content heq)

/-! ### What was sealed -/

/-- What is sent for a place of an epoch, a nonce and a ciphertext. -/
def wireFor (c : Content) (epoch : UInt8) (nonce : Nonce) (ciphertext : List UInt8) : Wire :=
  match c with
  | .media _ _ => .frame (epoch :: nonce.1 ++ ciphertext)
  | _ => .body epoch (nonce.1 ++ ciphertext)

theorem wireFor_parts (c : Content) (epoch : UInt8) (nonce : Nonce) (ciphertext : List UInt8) :
    (wireFor c epoch nonce ciphertext).epoch? = some epoch ∧ (wireFor c epoch nonce ciphertext).ciphertext = ciphertext := by
  have hbody : (nonce.1 ++ ciphertext).drop voiceNonceLen = ciphertext := List.drop_left' nonce.2
  cases c with
  | media kind sequence => exact ⟨rfl, hbody⟩
  | chat messageId => exact ⟨rfl, hbody⟩
  | fileChunk transferId chunkIndex => exact ⟨rfl, hbody⟩

variable {K : Type} {cipher : AesGcm K}

theorem aesgcmDecrypt_nonce (key : K) (nonce : Nonce) (ciphertext aad : List UInt8) :
    aesgcmDecrypt cipher key nonce.1 ciphertext aad = cipher.decrypt key nonce ciphertext aad := dif_pos nonce.2

theorem openBody_eq (keys : GroupKeySource K) (convId : String) (aad : List UInt8) (epoch : UInt8) (nonce : Nonce) (ct : List UInt8) :
    openBody cipher keys convId aad epoch (nonce.1 ++ ct) =
      (keys.epochKey convId epoch).bind fun key => cipher.decrypt key nonce ct aad := by
  have hlen : ¬ (nonce.1 ++ ct).length < voiceNonceLen := by
    rw [List.length_append, nonce.2]
    omega
  unfold openBody
  rw [if_neg hlen, List.take_left' nonce.2, List.drop_left' nonce.2]
  simp only [aesgcmDecrypt_nonce]
  rfl

theorem openMediaFrame_eq (keys : GroupKeySource K) (kind : MediaKind) (convId sender : String) (sequence : UInt64) (epoch : UInt8)
    (nonce : Nonce) (ct : List UInt8) : openMediaFrame cipher keys kind convId sender sequence (epoch :: nonce.1 ++ ct) =
      (keys.epochKey convId epoch).bind fun key => cipher.decrypt key nonce ct (mediaAad kind convId sender sequence) := by
  have hlen : ¬ (epoch :: nonce.1 ++ ct).length < voiceHeaderLen := by
    rw [List.length_append, List.length_cons, nonce.2, voiceHeaderLen]
    omega
  have hnonce : slice (epoch :: nonce.1 ++ ct) 1 voiceHeaderLen = nonce.1 :=
    slice_mid [epoch] nonce.1 ct (by simp) rfl (by rw [nonce.2]; rfl)
  have hct : (epoch :: nonce.1 ++ ct).drop voiceHeaderLen = ct :=
    List.drop_left' (by rw [List.length_cons, nonce.2, voiceHeaderLen, Nat.add_comm])
  unfold openMediaFrame
  rw [if_neg hlen, hnonce, hct]
  simp only [aesgcmDecrypt_nonce]
  rfl

/-- What is sent for a place is opened there by the key of its epoch. -/
theorem openAt_wireFor (keys : GroupKeySource K) (p : Place) (epoch : UInt8) (nonce : Nonce) (ct : List UInt8) :
    openAt cipher keys p (wireFor p.content epoch nonce ct) =
      (keys.epochKey p.convId epoch).bind fun key => cipher.decrypt key nonce ct p.aad := by
  obtain ⟨convId, sender, content⟩ := p
  cases content with
  | media kind sequence => exact openMediaFrame_eq keys kind convId sender sequence epoch nonce ct
  | chat messageId => exact openBody_eq keys convId _ epoch nonce ct
  | fileChunk transferId chunkIndex => exact openBody_eq keys convId _ epoch nonce ct

/-- Sealing is encryption under the current key of the room and the associated data of the place. -/
theorem sealAt_eq_some {keys : GroupKeySource K} {p : Place} {nonce : Nonce} {plaintext : List UInt8} {w : Wire}
    (h : sealAt cipher keys p nonce plaintext = some w) : ∃ epoch key ct, keys.epochKey p.convId epoch = some key ∧
      cipher.encrypt key nonce plaintext p.aad = some ct ∧ w = wireFor p.content epoch nonce ct := by
  obtain ⟨convId, sender, content⟩ := p
  have hbody (aad : List UInt8) (e : UInt8 × List UInt8) (hseal : sealBody cipher keys convId aad nonce plaintext = some e) :
      ∃ key ct, keys.epochKey convId e.1 = some key ∧ cipher.encrypt key nonce plaintext aad = some ct ∧ e.2 = nonce.1 ++ ct := by
    obtain ⟨key, hkey, hseal⟩ := Option.bind_eq_some_iff.mp hseal
    obtain ⟨ct, hct, hseal⟩ := Option.bind_eq_some_iff.mp hseal
    obtain rfl := Option.some.inj hseal
    exact ⟨key, ct, hkey, hct, rfl⟩
  cases content with
  | media kind sequence =>
    obtain ⟨bytes, hseal, rfl⟩ := Option.map_eq_some_iff.mp h
    obtain ⟨key, hkey, hseal⟩ := Option.bind_eq_some_iff.mp hseal
    obtain ⟨ct, hct, hseal⟩ := Option.bind_eq_some_iff.mp hseal
    obtain rfl := Option.some.inj hseal
    exact ⟨_, key, ct, hkey, hct, rfl⟩
  | chat messageId =>
    obtain ⟨e, hseal, rfl⟩ := Option.map_eq_some_iff.mp h
    obtain ⟨key, ct, hkey, hct, hbytes⟩ := hbody _ e hseal
    exact ⟨e.1, key, ct, hkey, hct, by rw [hbytes]; rfl⟩
  | fileChunk transferId chunkIndex =>
    obtain ⟨e, hseal, rfl⟩ := Option.map_eq_some_iff.mp h
    obtain ⟨key, ct, hkey, hct, hbytes⟩ := hbody _ e hseal
    exact ⟨e.1, key, ct, hkey, hct, by rw [hbytes]; rfl⟩

/-- What opens at a place was sent for it. -/
theorem openAt_eq_some {keys : GroupKeySource K} {p : Place} {w : Wire} {opened : List UInt8}
    (h : openAt cipher keys p w = some opened) : ∃ epoch nonce, w = wireFor p.content epoch nonce w.ciphertext := by
  obtain ⟨convId, sender, content⟩ := p
  have hbody (aad bytes : List UInt8) (epoch : UInt8) (hopen : openBody cipher keys convId aad epoch bytes = some opened) :
      ∃ nonce : Nonce, bytes = nonce.1 ++ bytes.drop voiceNonceLen := by
    unfold openBody at hopen
    split at hopen
    · exact absurd hopen (by simp)
    · rename_i hlen
      exact ⟨⟨bytes.take voiceNonceLen, by rw [List.length_take]; omega⟩, (List.take_append_drop _ _).symm⟩
  cases content with
  | media kind sequence =>
    cases w with
    | body epoch bytes => exact absurd h (by simp [openAt])
    | frame bytes =>
      have hopen : openMediaFrame cipher keys kind convId sender sequence bytes = some opened := h
      unfold openMediaFrame at hopen
      split at hopen
      · exact absurd hopen (by simp)
      · rename_i hlen
        cases bytes with
        | nil => exact absurd (by decide) hlen
        | cons epoch rest =>
          rw [voiceHeaderLen, List.length_cons] at hlen
          refine ⟨epoch, ⟨rest.take voiceNonceLen, by rw [List.length_take]; omega⟩, ?_⟩
          show Wire.frame (epoch :: rest) = .frame (epoch :: rest.take voiceNonceLen ++ rest.drop voiceNonceLen)
          rw [List.cons_append, List.take_append_drop]
  | chat messageId =>
    cases w with
    | frame bytes => exact absurd h (by simp [openAt])
    | body epoch bytes =>
      obtain ⟨nonce, hbytes⟩ := hbody _ bytes epoch h
      exact ⟨epoch, nonce, congrArg (Wire.body epoch) hbytes⟩
  | fileChunk transferId chunkIndex =>
    cases w with
    | frame bytes => exact absurd h (by simp [openAt])
    | body epoch bytes =>
      obtain ⟨nonce, hbytes⟩ := hbody _ bytes epoch h
      exact ⟨epoch, nonce, congrArg (Wire.body epoch) hbytes⟩

end SealedContentAux

open SealedContentAux

/-- **Where sealed content opens.** The associated data of two places coincide only when the places do, and what is sealed for one
opens at the other only when they are the same place, under an equal key and to what was sealed, exactly when the two do not collide;
and at its own place it opens. -/
theorem sealed_content_bound_iff {K : Type} {cipher : AesGcm K} (hideal : cipher.Ideal) {p q : Place} (hp : p.Fits) (hq : q.Fits) :
    ((p.aad = q.aad → p = q) ↔ ¬ Collide p q) ∧
    ∀ keys nonce plaintext w, sealAt cipher keys p nonce plaintext = some w → ∃ epoch, w.epoch? = some epoch ∧
      ((∀ keys' w' opened, w'.ciphertext = w.ciphertext → openAt cipher keys' q w' = some opened →
        q = p ∧ (∃ epoch', w'.epoch? = some epoch' ∧ keys'.epochKey q.convId epoch' = keys.epochKey p.convId epoch) ∧ opened = plaintext) ↔
        ¬ Collide p q) ∧
      ∀ keys', keys'.epochKey p.convId epoch = keys.epochKey p.convId epoch → openAt cipher keys' p w = some plaintext := by
  have hcoincide : (p.aad = q.aad → p = q) ↔ ¬ Collide p q := by
    rw [aad_eq_iff hp hq]
    constructor
    · exact fun h hcollide => ne_of_collide hcollide (h (Or.inr hcollide))
    · exact fun h => Or.rec id fun hcollide => absurd hcollide h
  refine ⟨hcoincide, fun keys nonce plaintext w hseal => ?_⟩
  obtain ⟨epoch, key, ct, hkey, hct, rfl⟩ := sealAt_eq_some hseal
  obtain ⟨hepoch, hcipher⟩ := wireFor_parts p.content epoch nonce ct
  refine ⟨epoch, hepoch, ?_, fun keys' hkeys => ?_⟩
  · rw [hcipher]
    constructor
    · intro hbound hcollide
      -- Under the same keys the frame opens as the message, and the message as the frame.
      have haad : p.aad = q.aad := (aad_eq_iff hp hq).mpr (Or.inr hcollide)
      have hopen : openAt cipher keys q (wireFor q.content epoch nonce ct) = some plaintext := by
        rw [openAt_wireFor, ← hcollide.1, hkey, Option.bind_some, ← haad]
        exact hideal.opens hct
      exact ne_of_collide hcollide (hbound keys _ plaintext (wireFor_parts q.content epoch nonce ct).2 hopen).1.symm
    · intro hnot keys' w' opened hsame hopen
      obtain ⟨epoch', nonce', hw⟩ := openAt_eq_some hopen
      rw [hsame] at hw
      rw [hw, openAt_wireFor] at hopen
      obtain ⟨key', hkey', hdecrypt⟩ := Option.bind_eq_some_iff.mp hopen
      obtain ⟨rfl, rfl, haad⟩ := hideal.only hct hdecrypt
      obtain rfl := hcoincide.mpr hnot haad.symm
      refine ⟨rfl, ⟨epoch', hw ▸ (wireFor_parts p.content epoch' nonce' ct).1, hkey'.trans hkey.symm⟩, ?_⟩
      exact Option.some.inj (hdecrypt.symm.trans (hideal.opens hct))
  · rw [openAt_wireFor, hkeys, hkey, Option.bind_some]
    exact hideal.opens hct

namespace SealedContentAux

/-- A key, a nonce and associated data in bytes that no other ones begin with. -/
def header (key : Nat) (nonce : Nonce) (aad : List UInt8) : List UInt8 :=
  nonce.1 ++ (List.replicate key 1 ++ 0 :: (List.replicate aad.length 1 ++ 0 :: aad))

/-- A cipher that writes what it was given. -/
def plainCipher : AesGcm Nat where
  encrypt key nonce plaintext aad := some (header key nonce aad ++ plaintext)
  decrypt key nonce ciphertext aad :=
    if header key nonce aad <+: ciphertext then some (ciphertext.drop (header key nonce aad).length) else none

theorem unary_inj {a b : Nat} {x y : List UInt8} (h : List.replicate a 1 ++ 0 :: x = List.replicate b 1 ++ 0 :: y) : a = b ∧ x = y := by
  induction a generalizing b with
  | zero =>
    cases b with
    | zero => exact ⟨rfl, (List.cons.inj h).2⟩
    | succ b => exact absurd (List.cons.inj h).1 (by decide)
  | succ a ih =>
    cases b with
    | zero => exact absurd (List.cons.inj h).1 (by decide)
    | succ b =>
      obtain ⟨rfl, hrest⟩ := ih (List.cons.inj h).2
      exact ⟨rfl, hrest⟩

theorem plainCipher_ideal : plainCipher.Ideal where
  opens := by
    intro key nonce plaintext aad ciphertext h
    obtain rfl := Option.some.inj h
    show (if _ then _ else _) = _
    rw [if_pos (List.prefix_append _ _), List.drop_left]
  only := by
    intro key nonce plaintext aad ciphertext key' nonce' aad' opened h hopen
    obtain rfl := Option.some.inj h
    have hfront : header key' nonce' aad' <+: header key nonce aad ++ plaintext := by
      by_contra hnot
      exact absurd ((if_neg hnot).symm.trans hopen) (by simp)
    obtain ⟨rest, hrest⟩ := hfront
    unfold header at hrest
    simp only [List.append_assoc, List.cons_append] at hrest
    obtain ⟨hnonce, hrest⟩ := List.append_inj hrest (by rw [nonce.2, nonce'.2])
    obtain ⟨hkey, hrest⟩ := unary_inj hrest
    obtain ⟨hlen, hrest⟩ := unary_inj hrest
    exact ⟨hkey, Subtype.ext hnonce, (List.append_inj hrest hlen).1⟩

def oneKey : GroupKeySource Nat := { currentEpoch := fun _ => 0, epochKey := fun _ epoch => if epoch = 0 then some 7 else none }

def zeroNonce : Nonce := ⟨List.replicate voiceNonceLen 0, List.length_replicate⟩

/-- The fifth frame of a member's voice. -/
def voiceFive : Place := ⟨"r", "s", .media .voice 5⟩

/-- The fifth frame of its video. -/
def videoFive : Place := ⟨"r", "s", .media .video 5⟩

/-- The frame of its voice whose number is four before the four bytes of an id, and the message with that id. -/
def voiceFar : Place := ⟨"r", "s", .media .voice 0x461626364⟩

def chatAbcd : Place := ⟨"r", "s", .chat "abcd"⟩

theorem fits_of_all {p : Place} (h : ((p.convId :: p.sender :: p.content.texts).all fun text => decide ((utf8 text).length < 2 ^ 32)) = true) :
    p.Fits := fun text ht => of_decide_eq_true (List.all_eq_true.mp h text ht)

end SealedContentAux

open SealedContentAux

/-- A frame of a voice opens as that frame, and not as the frame of the video of the same number. -/
theorem sealed_content_bound_iff_voice : ∃ w, sealAt plainCipher oneKey voiceFive zeroNonce [1, 2, 3] = some w ∧
    openAt plainCipher oneKey voiceFive w = some [1, 2, 3] ∧ openAt plainCipher oneKey videoFive w = none := by
  have hvoice : voiceFive.Fits := fits_of_all (by decide +kernel)
  have hvideo : videoFive.Fits := fits_of_all (by decide +kernel)
  obtain ⟨w, hseal⟩ : ∃ w, sealAt plainCipher oneKey voiceFive zeroNonce [1, 2, 3] = some w := ⟨_, rfl⟩
  obtain ⟨-, hbound⟩ := sealed_content_bound_iff plainCipher_ideal hvoice hvideo
  obtain ⟨epoch, -, hiff, hopens⟩ := hbound oneKey zeroNonce [1, 2, 3] w hseal
  have hnot : ¬ Collide voiceFive videoFive := by
    rintro ⟨-, -, kind, sequence, messageId, -, ⟨-, h⟩ | ⟨h, -⟩⟩
    · exact absurd h (by simp [videoFive])
    · exact absurd h (by simp [voiceFive])
  refine ⟨w, hseal, hopens oneKey rfl, Option.eq_none_iff_forall_ne_some.mpr fun opened hopen => ?_⟩
  exact absurd (hiff.mpr hnot oneKey w opened rfl hopen).1 (by decide)

/-- A message whose id has four bytes has the associated data of a frame far on in its sender's voice, and opens as that frame. -/
theorem sealed_content_bound_fails : ¬ ((∀ p q : Place, p.Fits → q.Fits → p.aad = q.aad → p = q) ∨
    ∀ p q : Place, p.Fits → q.Fits → ∀ keys nonce plaintext w w' opened, sealAt plainCipher keys p nonce plaintext = some w →
      w'.ciphertext = w.ciphertext → openAt plainCipher keys q w' = some opened → q = p) := by
  have hvoice : voiceFar.Fits := fits_of_all (by decide +kernel)
  have hchat : chatAbcd.Fits := fits_of_all (by decide +kernel)
  have haad : chatAbcd.aad = voiceFar.aad := by decide +kernel
  rintro (h | h)
  · exact absurd (h _ _ hchat hvoice haad) (by decide)
  · have hopen : openAt plainCipher oneKey voiceFar (.frame (0 :: zeroNonce.1 ++ (header 7 zeroNonce chatAbcd.aad ++ [1]))) = some [1] := by
      decide +kernel
    exact absurd (h chatAbcd voiceFar hchat hvoice oneKey zeroNonce [1] _ _ [1] rfl (by decide +kernel) hopen) (by decide)

end DoubleSlash.Keys
