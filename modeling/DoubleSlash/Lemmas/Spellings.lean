import DoubleSlash.Lemmas.Rooms
import DoubleSlash.Lib.Base64
import DoubleSlash.Sfu.Invites

/-!
# Spellings of an identity

A 32-byte key is written with its padding or without it. What the operations on rooms do with the two spellings, up to the names
the invite tokens keep of who made them, which nothing reads.
-/

namespace DoubleSlash.Sfu

open Assoc Codec Text Tls

/-- The two texts are the same, or spell one 32-byte key with and without its padding. -/
def SameKey (p q : String) : Prop :=
  p = q ∨ ∃ key : List UInt8, key.length = 32 ∧
    (p = b64urlEncode key ∨ p = b64urlEncodePadded key) ∧ (q = b64urlEncode key ∨ q = b64urlEncodePadded key)

namespace SpellingAux

theorem byteLen_of_ascii {cs : List Char} (h : ∀ c ∈ cs, c.utf8Size = 1) : byteLen cs = cs.length := by
  induction cs with
  | nil => rfl
  | cons c cs ih =>
    have hc := h c (by simp)
    have hcs := ih fun d hd => h d (by simp [hd])
    simp only [byteLen, hc, hcs, List.length_cons]
    omega

theorem utf8Size_b64Char {n : Nat} (h : n < 64) : (toUrlSafe (b64Char n)).utf8Size = 1 := by
  revert n
  decide

/-- Whatever padding follows the body of a key, it is normalized to one character of it. -/
theorem normalizePeerId_body {key : List UInt8} (h : key.length = 32) (pad : Nat) :
    normalizePeerId (String.ofList ((b64Body key).map toUrlSafe ++ List.replicate pad '=')) = b64urlEncode key ++ "=" := by
  have htrim : trimEndMatches '=' (String.ofList ((b64Body key).map toUrlSafe ++ List.replicate pad '=')) = b64urlEncode key := by
    unfold trimEndMatches b64urlEncode
    rw [String.toList_ofList, rdropWhile_pad]
  have hlen : byteLen (b64urlEncode key).toList = 43 := by
    unfold b64urlEncode
    rw [String.toList_ofList, byteLen_of_ascii (b64Body_forall (fun n hn => utf8Size_b64Char hn) key), List.length_map,
      length_b64Body, h]
  unfold normalizePeerId normalizePublicId
  simp only [htrim, hlen, ne_eq, not_true_eq_false, if_false]

theorem normalizePeerId_encode {key : List UInt8} (h : key.length = 32) :
    normalizePeerId (b64urlEncode key) = b64urlEncode key ++ "=" := by
  have hbody := normalizePeerId_body h 0
  rwa [List.replicate_zero, List.append_nil] at hbody

theorem normalizePeerId_encodePadded {key : List UInt8} (h : key.length = 32) :
    normalizePeerId (b64urlEncodePadded key) = b64urlEncode key ++ "=" := by
  obtain ⟨pad, heq, -, -⟩ := b64EncodeChars_eq key
  have hpad : (List.replicate pad '=').map toUrlSafe = List.replicate pad '=' := by
    rw [List.map_replicate]
    rfl
  unfold b64urlEncodePadded
  rw [heq, List.map_append, hpad]
  exact normalizePeerId_body h pad

end SpellingAux

open SpellingAux

/-- The spellings of a key are normalized to one. -/
theorem SameKey.normalize {p q : String} (h : SameKey p q) : normalizePeerId p = normalizePeerId q := by
  rcases h with rfl | ⟨key, hlen, hp, hq⟩
  · rfl
  · have hspell : ∀ r : String, r = b64urlEncode key ∨ r = b64urlEncodePadded key →
        normalizePeerId r = b64urlEncode key ++ "=" := by
      intro r hr
      rcases hr with rfl | rfl
      · exact normalizePeerId_encode hlen
      · exact normalizePeerId_encodePadded hlen
    rw [hspell p hp, hspell q hq]

/-! ## Tokens without their makers -/

/-- The token without who made it. -/
def InviteToken.unsigned (it : InviteToken) : InviteToken := { it with createdBy := "" }

namespace SFURoom

variable {S : Type}

/-- The room with other tokens. -/
def withTokens (room : SFURoom S) (tokens : HashMap String InviteToken) : SFURoom S := { room with inviteTokens := tokens }

/-- The room without who made its tokens. -/
def unsigned (room : SFURoom S) : SFURoom S := room.withTokens (mapValues room.inviteTokens InviteToken.unsigned)

variable (room : SFURoom S) (tokens : HashMap String InviteToken) (peerId : String) (now : Nat)

theorem unsigned_idem : room.unsigned.unsigned = room.unsigned := by
  simp only [unsigned, withTokens, mapValues_mapValues]
  rfl

theorem isPeerAllowed_unsigned : room.unsigned.isPeerAllowed peerId = room.isPeerAllowed peerId := rfl

theorem isInviteEligibleMember_unsigned : room.unsigned.isInviteEligibleMember peerId = room.isInviteEligibleMember peerId := rfl

theorem markUnusedIfEmpty_withTokens : (room.withTokens tokens).markUnusedIfEmpty now = (room.markUnusedIfEmpty now).withTokens tokens := by
  have hunused : (room.withTokens tokens).isUnused = room.isUnused := rfl
  unfold markUnusedIfEmpty
  rw [hunused]
  split <;> rfl

theorem addParticipant_withTokens :
    (room.withTokens tokens).addParticipant peerId =
      ((room.addParticipant peerId).1.withTokens tokens, (room.addParticipant peerId).2) := by
  have hpart : (room.withTokens tokens).participants = room.participants := rfl
  have hfull : (room.withTokens tokens).isFull = room.isFull := rfl
  unfold addParticipant
  simp only [hpart, hfull]
  split
  · rfl
  · split <;> rfl

theorem removeParticipant_withTokens :
    (room.withTokens tokens).removeParticipant peerId now =
      ((room.removeParticipant peerId now).1.withTokens tokens, (room.removeParticipant peerId now).2) := by
  have hpart : (room.withTokens tokens).participants = room.participants := rfl
  have herase : { room.withTokens tokens with participants := room.participants.erase (normalizePeerId peerId) } =
      ({ room with participants := room.participants.erase (normalizePeerId peerId) } : SFURoom S).withTokens tokens := rfl
  unfold removeParticipant
  simp only [hpart, herase, markUnusedIfEmpty_withTokens]
  split <;> rfl

theorem subscribe_withTokens : (room.withTokens tokens).subscribe peerId = (room.subscribe peerId).withTokens tokens := by
  have hpart : (room.withTokens tokens).participants = room.participants := rfl
  unfold subscribe
  simp only [hpart]
  split <;> rfl

theorem unsubscribe_withTokens :
    (room.withTokens tokens).unsubscribe peerId now = (room.unsubscribe peerId now).withTokens tokens := by
  have hsubs : (room.withTokens tokens).subscribers = room.subscribers := rfl
  have herase : { room.withTokens tokens with subscribers := room.subscribers.erase (normalizePeerId peerId) } =
      ({ room with subscribers := room.subscribers.erase (normalizePeerId peerId) } : SFURoom S).withTokens tokens := rfl
  unfold unsubscribe
  simp only [hsubs, herase, markUnusedIfEmpty_withTokens]
  split <;> rfl

theorem settle_withTokens : (room.withTokens tokens).settle peerId now = (room.settle peerId now).withTokens tokens := by
  have hany : ∀ flag, (room.withTokens tokens).anyDevice peerId flag = room.anyDevice peerId flag := fun _ => rfl
  unfold settle
  simp only [hany, addParticipant_withTokens, removeParticipant_withTokens]
  split <;> split <;> simp only [subscribe_withTokens, unsubscribe_withTokens]

theorem setDeviceMembership_withTokens (device : Option DeviceId) (voice chat : Option Bool) :
    (room.withTokens tokens).setDeviceMembership peerId device voice chat now =
      ((room.setDeviceMembership peerId device voice chat now).1.withTokens tokens,
        (room.setDeviceMembership peerId device voice chat now).2) := by
  have hdev : (room.withTokens tokens).deviceMembers = room.deviceMembers := rfl
  have hpart : (room.withTokens tokens).participants = room.participants := rfl
  have hfull : (room.withTokens tokens).isFull = room.isFull := rfl
  have hcount : ∀ p, (room.withTokens tokens).deviceCount p = room.deviceCount p := fun _ => rfl
  have hset : ∀ key m, (room.withTokens tokens).withDevice key m = (room.withDevice key m).withTokens tokens := fun _ _ => rfl
  unfold setDeviceMembership
  simp only [hdev, hpart, hfull, hcount, hset, settle_withTokens]
  split
  · rfl
  · split <;> rfl

theorem removePeerEntirely_withTokens :
    (room.withTokens tokens).removePeerEntirely peerId now =
      ((room.removePeerEntirely peerId now).1.withTokens tokens, (room.removePeerEntirely peerId now).2) := by
  have hpart : (room.withTokens tokens).participants = room.participants := rfl
  have hsubs : (room.withTokens tokens).subscribers = room.subscribers := rfl
  have hwithout : ∀ p, (room.withTokens tokens).without p = (room.without p).withTokens tokens := fun _ => rfl
  have hforget : ∀ (r : SFURoom S) p, (r.withTokens tokens).forgetSpeaker p = (r.forgetSpeaker p).withTokens tokens :=
    fun _ _ => rfl
  unfold removePeerEntirely
  simp only [hpart, hsubs, hwithout, hforget]
  split <;> split <;> simp only [markUnusedIfEmpty_withTokens]

variable {room}

/-- What sets the tokens of a room apart keeps them, and with them who made them. -/
theorem unsigned_of_withTokens {f : SFURoom S → SFURoom S} (h : ∀ room tokens, f (room.withTokens tokens) = (f room).withTokens tokens) :
    f room.unsigned = (f room).unsigned := by
  have hkept : (f room).inviteTokens = room.inviteTokens := by
    have hself := congrArg inviteTokens (h room room.inviteTokens)
    exact hself
  unfold unsigned
  rw [h, hkept]

end SFURoom

end DoubleSlash.Sfu
