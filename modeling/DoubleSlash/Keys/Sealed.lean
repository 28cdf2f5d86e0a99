import DoubleSlash.Keys.Group
import DoubleSlash.Lib.Bytes

/-!
# Sealed room content

The codecs of the client's `group_key.rs`: media frames, bodies of chat messages and chunks of files under the key of an epoch. The
cipher is a parameter, and the nonce that is drawn for a seal is an input.
-/

namespace DoubleSlash.Keys

open Bytes

/-- `VOICE_NONCE_LEN`. -/
def voiceNonceLen : Nat := 12

/-- `VOICE_HEADER_LEN`. -/
def voiceHeaderLen : Nat := 1 + voiceNonceLen

/-- A nonce of the cipher. -/
abbrev Nonce := { bytes : List UInt8 // bytes.length = voiceNonceLen }

/-- AES-GCM over keys of one length: what is sealed from a key, a nonce, a plaintext and associated data, and what is opened. -/
structure AesGcm (K : Type) where
  encrypt : K → Nonce → List UInt8 → List UInt8 → Option (List UInt8)
  decrypt : K → Nonce → List UInt8 → List UInt8 → Option (List UInt8)

/-- A ciphertext opens under the key, the nonce and the associated data that it was sealed with, and under no others. -/
structure AesGcm.Ideal {K : Type} (cipher : AesGcm K) : Prop where
  opens : ∀ {key nonce plaintext aad ciphertext}, cipher.encrypt key nonce plaintext aad = some ciphertext →
    cipher.decrypt key nonce ciphertext aad = some plaintext
  only : ∀ {key nonce plaintext aad ciphertext key' nonce' aad' opened}, cipher.encrypt key nonce plaintext aad = some ciphertext →
    cipher.decrypt key' nonce' ciphertext aad' = some opened → key' = key ∧ nonce' = nonce ∧ aad' = aad

/-- `aesgcm_decrypt`: a nonce of another length is an error. -/
def aesgcmDecrypt {K : Type} (cipher : AesGcm K) (key : K) (nonce ciphertext aad : List UInt8) : Option (List UInt8) :=
  if h : nonce.length = voiceNonceLen then cipher.decrypt key ⟨nonce, h⟩ ciphertext aad else none

/-! ## Associated data -/

/-- `voice_aad`. -/
def voiceAad (convId sender : String) (sequence : UInt64) : List UInt8 :=
  beBytes 4 (utf8 convId).length ++ utf8 convId ++ beBytes 4 (utf8 sender).length ++ utf8 sender ++ beBytes 8 sequence.toNat

/-- `MediaKind`. -/
inductive MediaKind where
  | voice
  | video
  | contentAudio
  deriving DecidableEq

/-- What a kind appends. -/
def MediaKind.suffix : MediaKind → List UInt8
  | .voice => []
  | .video => [0x02]
  | .contentAudio => [0x03]

/-- `media_aad`. -/
def mediaAad (kind : MediaKind) (convId sender : String) (sequence : UInt64) : List UInt8 :=
  voiceAad convId sender sequence ++ kind.suffix

/-- Every field after its length. -/
def fieldsAad (fields : List String) : List UInt8 := fields.flatMap fun field => beBytes 4 (utf8 field).length ++ utf8 field

/-- `chat_aad`. -/
def chatAad (convId sender messageId : String) : List UInt8 := fieldsAad [convId, sender, messageId]

/-- `file_chunk_aad`. -/
def fileChunkAad (convId sender transferId : String) (chunkIndex : UInt64) : List UInt8 :=
  fieldsAad [convId, sender, transferId] ++ beBytes 8 chunkIndex.toNat

/-! ## Seal and open -/

section

variable {K : Type} (cipher : AesGcm K) (keys : GroupKeySource K)

/-- `seal_media_frame`, with the nonce that was drawn. -/
def sealMediaFrame (kind : MediaKind) (convId sender : String) (sequence : UInt64) (nonce : Nonce) (plaintext : List UInt8) :
    Option (List UInt8) := do
  let epoch := keys.currentEpoch convId
  let key ← keys.epochKey convId epoch
  let ct ← cipher.encrypt key nonce plaintext (mediaAad kind convId sender sequence)
  some (epoch :: nonce.1 ++ ct)

/-- `open_media_frame`. -/
def openMediaFrame (kind : MediaKind) (convId sender : String) (sequence : UInt64) (frame : List UInt8) : Option (List UInt8) :=
  if frame.length < voiceHeaderLen then none
  else do
    let epoch ← frame.head?
    let key ← keys.epochKey convId epoch
    aesgcmDecrypt cipher key (slice frame 1 voiceHeaderLen) (frame.drop voiceHeaderLen) (mediaAad kind convId sender sequence)

/-- A body that is sealed under the current epoch of a room: the epoch, and the nonce before the ciphertext. -/
def sealBody (convId : String) (aad : List UInt8) (nonce : Nonce) (body : List UInt8) : Option (UInt8 × List UInt8) := do
  let epoch := keys.currentEpoch convId
  let key ← keys.epochKey convId epoch
  let ct ← cipher.encrypt key nonce body aad
  some (epoch, nonce.1 ++ ct)

/-- A body that was sealed under an epoch of a room is opened. -/
def openBody (convId : String) (aad : List UInt8) (epoch : UInt8) (body : List UInt8) : Option (List UInt8) :=
  if body.length < voiceNonceLen then none
  else do
    let key ← keys.epochKey convId epoch
    aesgcmDecrypt cipher key (body.take voiceNonceLen) (body.drop voiceNonceLen) aad

/-- `seal_chat_body`, with the nonce that was drawn. -/
def sealChatBody (convId sender messageId : String) (nonce : Nonce) (body : List UInt8) : Option (UInt8 × List UInt8) :=
  sealBody cipher keys convId (chatAad convId sender messageId) nonce body

/-- `open_chat_body`. -/
def openChatBody (convId sender messageId : String) (epoch : UInt8) (body : List UInt8) : Option (List UInt8) :=
  openBody cipher keys convId (chatAad convId sender messageId) epoch body

/-- `seal_file_chunk`, with the nonce that was drawn. -/
def sealFileChunk (convId sender transferId : String) (chunkIndex : UInt64) (nonce : Nonce) (data : List UInt8) :
    Option (UInt8 × List UInt8) :=
  sealBody cipher keys convId (fileChunkAad convId sender transferId chunkIndex) nonce data

/-- `open_file_chunk`. -/
def openFileChunk (convId sender transferId : String) (chunkIndex : UInt64) (epoch : UInt8) (data : List UInt8) :
    Option (List UInt8) :=
  openBody cipher keys convId (fileChunkAad convId sender transferId chunkIndex) epoch data

end

end DoubleSlash.Keys
