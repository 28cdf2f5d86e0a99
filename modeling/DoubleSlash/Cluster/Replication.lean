import DoubleSlash.Lib.Base64
import DoubleSlash.Lib.Bytes
import DoubleSlash.Lib.Recent
import DoubleSlash.Relay.State
import DoubleSlash.Supernode.Wire

/-!
# Replicated frames

The receiving side of `Replicate` in the supernode's `main.rs`: the cache of the ids seen and the five ways a frame is delivered, with
the ids that the sending side gives its frames. What the node's tables and quotas are when a frame comes is an argument.
-/

namespace DoubleSlash.Cluster

open Assoc Bytes Codec Protocol Recent Relay Sfu Supernode Text Tls

/-! ## The cache -/

/-- `SeenCache`. -/
structure SeenCache where
  set : Finset String
  order : List String
  cap : Nat

/-- `SeenCache::new`. -/
def SeenCache.new (cap : Nat) : SeenCache := { set := ∅, order := [], cap := cap }

/-- `insert_new`: the cache afterwards, and whether the id had not been seen before. -/
def SeenCache.insertNew (c : SeenCache) (id : String) : SeenCache × Bool :=
  -- no id to dedup on
  if id = "" then (c, true)
  else if id ∈ c.set then (c, false)
  else
    let set := insert id c.set
    let order := c.order ++ [id]
    if c.cap < order.length then
      ({ c with set := order.head?.elim set set.erase, order := order.tail }, true)
    else ({ c with set := set, order := order }, true)

/-- What is in the set is what is in the queue, once, and the queue is not too long. -/
structure SeenCache.Sound (c : SeenCache) : Prop where
  set_eq : c.set = c.order.toFinset
  nodup : c.order.Nodup
  length_le : c.order.length ≤ c.cap
  cap_pos : 0 < c.cap

theorem SeenCache.sound_new {cap : Nat} (h : 0 < cap) : (SeenCache.new cap).Sound where
  set_eq := rfl
  nodup := List.nodup_nil
  length_le := Nat.zero_le cap
  cap_pos := h

theorem SeenCache.Sound.mem_set {c : SeenCache} (hc : c.Sound) (id : String) : id ∈ c.set ↔ id ∈ c.order := by
  rw [hc.set_eq, List.mem_toFinset]

theorem SeenCache.insertNew_snd (c : SeenCache) (id : String) : (c.insertNew id).2 = decide (id = "" ∨ id ∉ c.set) := by
  unfold SeenCache.insertNew
  by_cases hempty : id = ""
  · simp [hempty]
  · by_cases hseen : id ∈ c.set
    · simp [hempty, hseen]
    · simp only [hempty, hseen, if_false, false_or, not_false_eq_true, decide_true]
      split <;> rfl

/-- The queue remembers the id, unless it is empty. -/
theorem SeenCache.Sound.order_insertNew {c : SeenCache} (hc : c.Sound) (id : String) :
    (c.insertNew id).1.order = if id = "" then c.order else remember c.cap c.order id := by
  unfold SeenCache.insertNew
  by_cases hempty : id = ""
  · simp [hempty]
  · rw [if_neg hempty, if_neg hempty]
    by_cases hseen : id ∈ c.set
    · rw [if_pos hseen, remember_of_mem ((hc.mem_set id).mp hseen)]
    · rw [if_neg hseen]
      have hnew : id ∉ c.order := fun h => hseen ((hc.mem_set id).mpr h)
      rcases remember_cases hc.cap_pos hc.length_le hnew with ⟨hlt, heq⟩ | ⟨old, rest, hold, hfull, heq⟩
      · rw [if_neg (by simpa using Nat.succ_le_of_lt hlt), heq]
      · rw [if_pos (by simp [hfull]), heq, hold]
        rfl

theorem SeenCache.cap_insertNew (c : SeenCache) (id : String) : (c.insertNew id).1.cap = c.cap := by
  unfold SeenCache.insertNew
  split
  · rfl
  · split
    · rfl
    · dsimp only
      split <;> rfl

theorem SeenCache.Sound.set_insertNew {c : SeenCache} (hc : c.Sound) (id : String) :
    (c.insertNew id).1.set = (c.insertNew id).1.order.toFinset := by
  unfold SeenCache.insertNew
  split
  · exact hc.set_eq
  · split
    · exact hc.set_eq
    · rename_i hseen
      have hnew : id ∉ c.order := fun h => hseen ((hc.mem_set id).mpr h)
      dsimp only
      split
      · -- The oldest id leaves both; it is in the queue once.
        cases horder : c.order with
        | nil =>
          rename_i hlt
          rw [horder] at hlt
          exact absurd hlt (Nat.not_lt.mpr hc.cap_pos)
        | cons old rest =>
          have hnodup := hc.nodup
          rw [horder, List.nodup_cons] at hnodup
          have hold : old ≠ id := fun h => hnew (by rw [horder, h]; exact List.mem_cons_self)
          rw [List.cons_append, List.head?_cons, Option.elim_some, List.tail_cons, hc.set_eq, horder]
          ext x
          simp only [Finset.mem_erase, Finset.mem_insert, List.mem_toFinset, List.mem_cons, List.mem_append, List.not_mem_nil, or_false]
          constructor
          · rintro ⟨hne, rfl | rfl | h⟩
            · exact Or.inr rfl
            · exact absurd rfl hne
            · exact Or.inl h
          · rintro (h | rfl)
            · exact ⟨fun heq => hnodup.1 (heq ▸ h), Or.inr (Or.inr h)⟩
            · exact ⟨hold.symm, Or.inl rfl⟩
      · rw [hc.set_eq]
        ext x
        simp

theorem SeenCache.Sound.insertNew {c : SeenCache} (hc : c.Sound) (id : String) : (c.insertNew id).1.Sound := by
  refine ⟨hc.set_insertNew id, ?_, ?_, ?_⟩
  · rw [hc.order_insertNew]
    split
    · exact hc.nodup
    · exact nodup_remember c.cap id hc.nodup
  · rw [hc.order_insertNew, c.cap_insertNew]
    split
    · exact hc.length_le
    · exact length_remember_le id hc.cap_pos hc.length_le
  · rw [c.cap_insertNew]
    exact hc.cap_pos

/-! ## Ids minted by the sending side -/

/-- The id `replicate_game_datagram` gives a frame. -/
def gameReplicationId (nodePublicId : String) (seq : Nat) : String := "game:" ++ nodePublicId ++ ":" ++ toString seq

/-- The id of `room_video_replication_message`. -/
def roomVideoReplicationId (nodePublicId : String) (seq : Nat) : String := "rv:" ++ nodePublicId ++ ":" ++ toString seq

/-! ## Delivery -/

/-- `ReplicatedMsg`. -/
structure ReplicatedMsg where
  roomId : String
  messageId : String
  raw : String
  deriving DecidableEq

/-- `ReplicatedKind`, and the game sessions, which share the channel. -/
inductive ReplicatedKind where
  | audio | videoState | roomVideo | chat | game
  deriving DecidableEq

/-- `ReplicatedKind::of`. -/
def ReplicatedKind.of (serde : SerdeJson) (raw : String) : ReplicatedKind :=
  match ((serde.fromStr raw).bind fun v => v.get "type").bind Json.asStr with
  | some "sfu_audio" => .audio
  | some "sfu_video_state" => .videoState
  | some "room_video_datagram" => .roomVideo
  | _ => .chat

/-- A call of `send_datagram` on a connection of the relay, or one on the signaling layer. -/
inductive ReplicaSend where
  | datagram (feature peer : String) (connection : Nat) (fwd : List UInt8)
  | signaling (delivery : Delivery)
  deriving DecidableEq

/-- What a node has when a replicated frame comes: its rooms and its relay, if it serves them, which connections are closed, and what
`gate_through_feature` and `try_forward_datagram` answer. -/
structure ReplicaEnv where
  sfu : Option (SFURoomManager SpeakerScore)
  relay : Option RelayState
  closed : Nat → Bool
  outbound : String → Endpoint → Nat → Bool
  forwards : String → String → RelayPeer → List UInt8 → Bool

/-- `BROADCAST_INDEX`. -/
def broadcastIndex : UInt8 := 0xFF

/-- `ROOM_AUDIO_TAG`. -/
def roomAudioTag : UInt8 := 0x04

/-- `build_forwarded_datagram`. -/
def buildForwardedDatagram (senderIndex : UInt8) (payload : List UInt8) : List UInt8 := senderIndex :: payload

namespace ReplicaEnv

variable (env : ReplicaEnv) (st : RelayState)

/-- The members of a list that `try_forward_datagram` reaches. -/
def forwardTo (feature peer : String) (fwd : List UInt8) (members : List RelayPeer) : List ReplicaSend :=
  (members.filter fun member => env.forwards feature peer member fwd).map fun member =>
    .datagram feature peer member.connection fwd

/-- `send_feature_datagram`: nothing when the recipient has no live session. -/
def sendFeatureDatagram (recipient feature : String) (fwd : List UInt8) : Option (List ReplicaSend) :=
  let recipient := trimEndMatches '=' recipient
  let live := ((st.peers.endpoints recipient).map Prod.snd).filter fun peer => !env.closed peer.connection
  if live.isEmpty then none else some (env.forwardTo feature recipient fwd live)

/-- `forward_replicated_room_video`. The order within a room is not the code's. -/
def forwardReplicatedRoomVideo (roomId sender : String) (payload : List UInt8) : List ReplicaSend :=
  if payload.isEmpty ∨ roomId = "" then []
  else
    let fwd := buildForwardedDatagram broadcastIndex payload
    let members := SetMap.inOrder ((st.rooms.lookup roomId).getD ∅)
    (members.filter fun memberId => decide (trimEndMatches '=' memberId ≠ trimEndMatches '=' sender)).flatMap fun memberId =>
      env.forwardTo "room.video.sfu" memberId fwd
        (((st.peers.endpoints memberId).map Prod.snd).filter fun member =>
          decide (member.roomId = some roomId) && st.wantsVideo memberId sender)

/-- What `deliver_replicated_game_datagram` sends. -/
def gameSends (serde : SerdeJson) (sessionId raw : String) : List ReplicaSend :=
  match env.relay, serde.fromStr raw with
  | some relay, some message =>
    match ((message.get "payload_b64").bind Json.asStr).bind b64Decode with
    | none => []
    | some payload =>
      let sender := ((message.get "sender").bind Json.asStr).getD ""
      let fwd := buildForwardedDatagram broadcastIndex payload
      let members := SetMap.inOrder ((relay.gameSessions.lookup sessionId).getD ∅)
      (members.filter fun member => decide (trimEndMatches '=' member ≠ trimEndMatches '=' sender)).flatMap fun member =>
        (env.sendFeatureDatagram relay member "game.relay.v1" fwd).getD []
  | _, _ => []

/-- What `deliver_replicated_chat` sends. -/
def chatSends (serde : SerdeJson) (roomId raw : String) : List ReplicaSend :=
  match WireMessage.fromJson serde raw, env.sfu with
  | some message, some sfu =>
    let endpoints := ((sfu.rooms.lookup roomId).map fun room =>
      room.chatDeliveryEndpoints message.sender message.sourceDevice).getD []
    (endpoints.filter fun e => env.outbound "room.chat.v1" e (byteLen raw.toList)).map fun e => .signaling (.endpoint e)
  | _, _ => []

/-- The sender a replicated frame names, if it can be read. -/
def senderOf (serde : SerdeJson) (raw : String) : String := ((WireMessage.fromJson serde raw).map WireMessage.sender).getD ""

/-- What `deliver_replicated_audio` sends. A recipient on the relay gets nothing over the WebSocket. -/
def audioSends (serde : SerdeJson) (roomId raw : String) : List ReplicaSend :=
  match env.sfu with
  | none => []
  | some sfu =>
    let recipients := ((sfu.rooms.lookup roomId).map SFURoom.participantIds).getD []
    let fwd := buildForwardedDatagram broadcastIndex (roomAudioTag :: utf8 raw)
    (recipients.filter fun peer => !isRoomFrameAuthor peer (senderOf serde raw)).flatMap fun peer =>
      match env.relay.bind fun relay => env.sendFeatureDatagram relay peer "room.audio.sfu" fwd with
      | some sends => sends
      | none =>
        if env.outbound "room.audio.sfu" (peer, none) (byteLen raw.toList) then [.signaling (.peer peer)] else []

/-- What `deliver_replicated_video_state` sends. -/
def videoStateSends (serde : SerdeJson) (roomId raw : String) : List ReplicaSend :=
  match env.sfu with
  | none => []
  | some sfu => (deliverVideoState sfu roomId (senderOf serde raw)).map .signaling

/-- `room_video_payload_from_replication`. -/
def roomVideoPayloadFromReplication (serde : SerdeJson) (raw : String) : Option (String × List UInt8) := do
  let message ← serde.fromStr raw
  let sender ← (message.get "sender").bind Json.asStr
  let b64 ← (message.get "payload_b64").bind Json.asStr
  let payload ← b64Decode b64
  if payload.isEmpty ∨ sender = "" then none
  return (sender, payload)

/-- What `deliver_replicated_room_video` sends. -/
def roomVideoSends (serde : SerdeJson) (roomId raw : String) : List ReplicaSend :=
  match env.relay, roomVideoPayloadFromReplication serde raw with
  | some relay, some (sender, payload) => env.forwardReplicatedRoomVideo relay roomId sender payload
  | _, _ => []

end ReplicaEnv

/-- A frame is handed to its delivery when its id is new; `none` when it is discarded as already seen. -/
def handNew (cache : SeenCache) (messageId : String) (sends : List ReplicaSend) : SeenCache × Option (List ReplicaSend) :=
  ((cache.insertNew messageId).1, if (cache.insertNew messageId).2 then some sends else none)

section

variable (serde : SerdeJson) (env : ReplicaEnv) (cache : SeenCache) (roomId messageId raw : String)

/-- `deliver_replicated_game_datagram`. -/
def deliverReplicatedGameDatagram := handNew cache messageId (env.gameSends serde roomId raw)

/-- `deliver_replicated_chat`. -/
def deliverReplicatedChat := handNew cache messageId (env.chatSends serde roomId raw)

/-- `deliver_replicated_audio`. -/
def deliverReplicatedAudio := handNew cache messageId (env.audioSends serde roomId raw)

/-- `deliver_replicated_video_state`. -/
def deliverReplicatedVideoState := handNew cache messageId (env.videoStateSends serde roomId raw)

/-- `deliver_replicated_room_video`. -/
def deliverReplicatedRoomVideo := handNew cache messageId (env.roomVideoSends serde roomId raw)

end

/-- The way a frame is delivered. -/
def deliveryKind (serde : SerdeJson) (msg : ReplicatedMsg) : ReplicatedKind :=
  if "game:".toList.isPrefixOf msg.roomId.toList then .game else ReplicatedKind.of serde msg.raw

/-- `deliver_replicated_room_frame`. -/
def deliverReplicatedRoomFrame (serde : SerdeJson) (env : ReplicaEnv) (cache : SeenCache) (msg : ReplicatedMsg) :
    SeenCache × Option (List ReplicaSend) :=
  match deliveryKind serde msg with
  | .game => deliverReplicatedGameDatagram serde env cache msg.roomId msg.messageId msg.raw
  | .audio => deliverReplicatedAudio serde env cache msg.roomId msg.messageId msg.raw
  | .videoState => deliverReplicatedVideoState serde env cache msg.roomId msg.messageId msg.raw
  | .roomVideo => deliverReplicatedRoomVideo serde env cache msg.roomId msg.messageId msg.raw
  | .chat => deliverReplicatedChat serde env cache msg.roomId msg.messageId msg.raw

/-! ## A sequence of frames -/

/-- The capacity of `replication_seen`. -/
def seenCapacity : Nat := 16384

/-- The cache of a node that has just started, after a sequence of frames. -/
def seenAfter (serde : SerdeJson) (arrivals : List (ReplicaEnv × ReplicatedMsg)) : SeenCache :=
  arrivals.foldl (fun cache a => (deliverReplicatedRoomFrame serde a.1 cache a.2).1) (SeenCache.new seenCapacity)

/-- What comes of a frame that arrives after a sequence of frames. -/
def outcomeAfter (serde : SerdeJson) (before : List (ReplicaEnv × ReplicatedMsg)) (env : ReplicaEnv) (msg : ReplicatedMsg) :
    Option (List ReplicaSend) :=
  (deliverReplicatedRoomFrame serde env (seenAfter serde before) msg).2

end DoubleSlash.Cluster
