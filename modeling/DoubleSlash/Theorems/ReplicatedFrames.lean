import DoubleSlash.Cluster.Replication

/-!
# Replicated frames are delivered once

What the cache discards is what carries an id it remembers, and it remembers the last ids it took in, whatever the frames they came
on.
-/

namespace DoubleSlash.Cluster

open Bytes Protocol Recent Supernode

/-- The ids a sequence of frames brings. -/
def broughtIds (arrivals : List (ReplicaEnv × ReplicatedMsg)) : List String :=
  (arrivals.map fun a => a.2.messageId).filter fun id => id ≠ ""

/-- The ids that were new when they came, in their order. -/
def recordedIds (arrivals : List (ReplicaEnv × ReplicatedMsg)) : List String := taken seenCapacity [] (broughtIds arrivals)

/-- The last of them. -/
def rememberedIds (arrivals : List (ReplicaEnv × ReplicatedMsg)) : List String :=
  (recordedIds arrivals).drop ((recordedIds arrivals).length - seenCapacity)

/-- A frame that was handed to its delivery. -/
def HandedIn (serde : SerdeJson) (arrivals : List (ReplicaEnv × ReplicatedMsg)) (msg : ReplicatedMsg) : Prop :=
  ∃ before env after, arrivals = before ++ (env, msg) :: after ∧ (outcomeAfter serde before env msg).isSome

/-- The same room, the same kind and the same content. -/
def SameFrame (serde : SerdeJson) (msg msg' : ReplicatedMsg) : Prop :=
  msg.roomId = msg'.roomId ∧ deliveryKind serde msg = deliveryKind serde msg' ∧ msg.raw = msg'.raw

/-- The ids that the sending side mints. -/
inductive MintedId where
  | audio (msg : SignalingMessage)
  | videoState (msg : SignalingMessage)
  | game (nodePublicId : String) (seq : Nat)
  | roomVideo (nodePublicId : String) (seq : Nat)

/-- The id. -/
def MintedId.text : MintedId → String
  | audio msg => audioReplicationId msg
  | videoState msg => videoStateReplicationId msg
  | game nodePublicId seq => gameReplicationId nodePublicId seq
  | roomVideo nodePublicId seq => roomVideoReplicationId nodePublicId seq

/-- What it is minted for. -/
def MintedId.kind : MintedId → ReplicatedKind
  | audio _ => .audio
  | videoState _ => .videoState
  | game _ _ => .game
  | roomVideo _ _ => .roomVideo

/-- The node and the count, where they make the id. -/
def MintedId.counter : MintedId → Option (String × Nat)
  | game nodePublicId seq | roomVideo nodePublicId seq => some (nodePublicId, seq)
  | audio _ | videoState _ => none

/-- The character the ids of a kind start with. -/
def ReplicatedKind.mark : ReplicatedKind → Char
  | .audio => 'a'
  | .videoState => 'v'
  | .roomVideo => 'r'
  | .game => 'g'
  | .chat => ' '

/-- What is discarded was handed to its delivery before. -/
def OnlyDuplicates (serde : SerdeJson) : Prop :=
  ∀ before env msg, outcomeAfter serde before env msg = none → ∃ first, HandedIn serde before first ∧ SameFrame serde first msg

/-- No frame is handed to its delivery twice, unless more ids than the cache holds came from the first to the second. -/
def OncePerWindow (serde : SerdeJson) : Prop :=
  ∀ before env msg between env', (outcomeAfter serde before env msg).isSome →
    (outcomeAfter serde (before ++ (env, msg) :: between) env' msg).isSome →
    seenCapacity < (((env, msg) :: between).map fun a => a.2.messageId).toFinset.card

/-! ## The cache along a sequence of frames -/

namespace ReplicationAux

theorem deliver_fst (serde : SerdeJson) (env : ReplicaEnv) (cache : SeenCache) (msg : ReplicatedMsg) :
    (deliverReplicatedRoomFrame serde env cache msg).1 = (cache.insertNew msg.messageId).1 := by
  unfold deliverReplicatedRoomFrame
  cases deliveryKind serde msg <;> rfl

theorem deliver_isSome (serde : SerdeJson) (env : ReplicaEnv) (cache : SeenCache) (msg : ReplicatedMsg) :
    (deliverReplicatedRoomFrame serde env cache msg).2.isSome = (cache.insertNew msg.messageId).2 := by
  have hnew (sends : List ReplicaSend) :
      (handNew cache msg.messageId sends).2.isSome = (cache.insertNew msg.messageId).2 := by
    unfold handNew
    cases (cache.insertNew msg.messageId).2 <;> rfl
  unfold deliverReplicatedRoomFrame
  cases deliveryKind serde msg <;> exact hnew _

theorem seenAfter_concat (serde : SerdeJson) (arrivals : List (ReplicaEnv × ReplicatedMsg)) (a : ReplicaEnv × ReplicatedMsg) :
    seenAfter serde (arrivals ++ [a]) = ((seenAfter serde arrivals).insertNew a.2.messageId).1 := by
  unfold seenAfter
  rw [List.foldl_append, List.foldl_cons, List.foldl_nil, deliver_fst]

theorem broughtIds_append (xs ys : List (ReplicaEnv × ReplicatedMsg)) : broughtIds (xs ++ ys) = broughtIds xs ++ broughtIds ys := by
  simp [broughtIds]

theorem broughtIds_singleton (a : ReplicaEnv × ReplicatedMsg) :
    broughtIds [a] = if a.2.messageId = "" then [] else [a.2.messageId] := by
  unfold broughtIds
  by_cases h : a.2.messageId = "" <;> simp [h]

/-- The cache is sound, and its queue is what the ids so far leave. -/
theorem seenAfter_spec (serde : SerdeJson) (arrivals : List (ReplicaEnv × ReplicatedMsg)) :
    (seenAfter serde arrivals).Sound ∧ (seenAfter serde arrivals).cap = seenCapacity ∧
      (seenAfter serde arrivals).order = (broughtIds arrivals).foldl (remember seenCapacity) [] := by
  induction arrivals using List.reverseRecOn with
  | nil => exact ⟨SeenCache.sound_new (by decide), rfl, rfl⟩
  | append_singleton arrivals a ih =>
    obtain ⟨hsound, hcap, horder⟩ := ih
    rw [seenAfter_concat]
    refine ⟨hsound.insertNew _, by rw [SeenCache.cap_insertNew, hcap], ?_⟩
    rw [hsound.order_insertNew, broughtIds_append, broughtIds_singleton, List.foldl_append, hcap, horder]
    split <;> rfl

/-- What is remembered is the end of what was recorded. -/
theorem order_seenAfter (serde : SerdeJson) (arrivals : List (ReplicaEnv × ReplicatedMsg)) :
    (seenAfter serde arrivals).order = rememberedIds arrivals := by
  obtain ⟨_, _, horder⟩ := seenAfter_spec serde arrivals
  rw [horder, foldl_remember_eq (by decide) (broughtIds arrivals) (Nat.zero_le seenCapacity)]
  rfl

/-- A frame is handed to its delivery when its id is empty or not remembered. -/
theorem handed_iff (serde : SerdeJson) (before : List (ReplicaEnv × ReplicatedMsg)) (env : ReplicaEnv) (msg : ReplicatedMsg) :
    (outcomeAfter serde before env msg).isSome ↔ msg.messageId = "" ∨ msg.messageId ∉ rememberedIds before := by
  obtain ⟨hsound, _, _⟩ := seenAfter_spec serde before
  unfold outcomeAfter
  rw [deliver_isSome, SeenCache.insertNew_snd, decide_eq_true_eq, hsound.mem_set, order_seenAfter]

theorem discarded_iff (serde : SerdeJson) (before : List (ReplicaEnv × ReplicatedMsg)) (env : ReplicaEnv) (msg : ReplicatedMsg) :
    outcomeAfter serde before env msg = none ↔ msg.messageId ≠ "" ∧ msg.messageId ∈ rememberedIds before := by
  rw [← Option.not_isSome_iff_eq_none, handed_iff, not_or, not_not]

/-- An id that was recorded came on a frame that was handed to its delivery. -/
theorem handed_of_recorded (serde : SerdeJson) {arrivals : List (ReplicaEnv × ReplicatedMsg)} {id : String}
    (h : id ∈ recordedIds arrivals) : ∃ msg, HandedIn serde arrivals msg ∧ msg.messageId = id := by
  induction arrivals using List.reverseRecOn with
  | nil => exact absurd h List.not_mem_nil
  | append_singleton arrivals a ih =>
    unfold recordedIds at h
    rw [broughtIds_append, taken_append, List.mem_append] at h
    rcases h with h | h
    · obtain ⟨msg, ⟨before, env, after, rfl, hhanded⟩, hid⟩ := ih h
      exact ⟨msg, ⟨before, env, after ++ [a], by simp, hhanded⟩, hid⟩
    · have hid : id = a.2.messageId := by
        have hmem := mem_of_mem_taken h
        rw [broughtIds_singleton] at hmem
        split at hmem
        · exact absurd hmem List.not_mem_nil
        · exact List.mem_singleton.mp hmem
      have hne : a.2.messageId ≠ "" := by
        intro hempty
        rw [broughtIds_singleton, if_pos hempty] at h
        exact List.not_mem_nil h
      have hnew : a.2.messageId ∉ rememberedIds arrivals := by
        rw [← order_seenAfter serde, (seenAfter_spec serde arrivals).2.2]
        intro hmem
        rw [broughtIds_singleton, if_neg hne, taken, if_pos hmem] at h
        exact List.not_mem_nil h
      exact ⟨a.2, ⟨arrivals, a.1, [], rfl, (handed_iff serde arrivals a.1 a.2).mpr (Or.inr hnew)⟩, hid.symm⟩

/-- An id that comes back after it was dropped: more ids than the cache holds came since. -/
theorem card_of_handed_twice {serde : SerdeJson} {before between : List (ReplicaEnv × ReplicatedMsg)} {env env' : ReplicaEnv}
    {msg : ReplicatedMsg} (hid : msg.messageId ≠ "") (hfirst : (outcomeAfter serde before env msg).isSome)
    (hagain : (outcomeAfter serde (before ++ (env, msg) :: between) env' msg).isSome) :
    seenCapacity < (((env, msg) :: between).map fun a => a.2.messageId).toFinset.card := by
  obtain ⟨hsound, hcap, horder⟩ := seenAfter_spec serde before
  have hnew : msg.messageId ∉ (broughtIds before).foldl (remember seenCapacity) [] := by
    rw [← horder, order_seenAfter]
    exact ((handed_iff serde before env msg).mp hfirst).resolve_left hid
  have hdropped := ((handed_iff serde _ env' msg).mp hagain).resolve_left hid
  rw [← order_seenAfter serde, (seenAfter_spec serde _).2.2, List.append_cons, broughtIds_append, broughtIds_append,
    broughtIds_singleton, if_neg hid, List.foldl_append, List.foldl_append, List.foldl_cons, List.foldl_nil] at hdropped
  have hlen : ((broughtIds before).foldl (remember seenCapacity) []).length ≤ seenCapacity := by
    rw [← horder, ← hcap]
    exact hsound.length_le
  have hnodup : ((broughtIds before).foldl (remember seenCapacity) []).Nodup := horder ▸ hsound.nodup
  have hothers := card_of_dropped (by decide) hlen hnodup hnew hdropped
  have hsub : (broughtIds between).toFinset.erase msg.messageId ⊆
      (((env, msg) :: between).map fun a => a.2.messageId).toFinset.erase msg.messageId := by
    refine Finset.erase_subset_erase _ fun id h => ?_
    rw [List.mem_toFinset] at h ⊢
    exact List.mem_cons_of_mem _ (List.mem_of_mem_filter h)
  have hself : msg.messageId ∈ (((env, msg) :: between).map fun a => a.2.messageId).toFinset :=
    List.mem_toFinset.mpr List.mem_cons_self
  calc seenCapacity ≤ ((broughtIds between).toFinset.erase msg.messageId).card := hothers
    _ ≤ _ := Finset.card_le_card hsub
    _ < _ := Finset.card_erase_lt_of_mem hself

/-! ### The ids that are minted -/

/-- The first character of an id tells its kind. -/
theorem head?_text (id : MintedId) : id.text.toList.head? = some id.kind.mark := by
  cases id with
  | audio msg =>
    show (audioReplicationId msg).toList.head? = some 'a'
    unfold audioReplicationId
    cases replicationSignature msg <;> simp [String.toList_append]
  | videoState msg =>
    show (videoStateReplicationId msg).toList.head? = some 'v'
    unfold videoStateReplicationId
    cases replicationSignature msg <;> simp [String.toList_append]
  | game node seq => simp [MintedId.text, gameReplicationId, String.toList_append, MintedId.kind, ReplicatedKind.mark]
  | roomVideo node seq => simp [MintedId.text, roomVideoReplicationId, String.toList_append, MintedId.kind, ReplicatedKind.mark]

/-- Two texts that end in a colon and a number: the numbers agree, and what stands before. -/
theorem counted_inj {node node' : List Char} {seq seq' : Nat}
    (h : node ++ ':' :: (toString seq).toList = node' ++ ':' :: (toString seq').toList) : node = node' ∧ seq = seq' := by
  have hcolon (n : Nat) : ':' ∉ (toString n).toList := fun hmem =>
    absurd (JsonValueAux.repr_nat_chars n ':' hmem) (by decide)
  have hsplit : node = node' ∧ (toString seq).toList = (toString seq').toList := by
    rcases List.append_eq_append_iff.mp h with ⟨mid, hnode, hmid⟩ | ⟨mid, hnode, hmid⟩
    · cases mid with
      | nil => exact ⟨by simpa using hnode.symm, (List.cons.inj hmid).2⟩
      | cons c mid =>
        have hmem : ':' ∈ (toString seq).toList := by
          rw [(List.cons.inj hmid).2]
          exact List.mem_append_right _ List.mem_cons_self
        exact absurd hmem (hcolon seq)
    · cases mid with
      | nil => exact ⟨by simpa using hnode, (List.cons.inj hmid).2.symm⟩
      | cons c mid =>
        have hmem : ':' ∈ (toString seq').toList := by
          rw [(List.cons.inj hmid).2]
          exact List.mem_append_right _ List.mem_cons_self
        exact absurd hmem (hcolon seq')
  exact ⟨hsplit.1, JsonValueAux.repr_nat_inj (String.toList_inj.mp hsplit.2)⟩

theorem counter_eq {label node node' : String} {seq seq' : Nat}
    (h : label ++ node ++ ":" ++ toString seq = label ++ node' ++ ":" ++ toString seq') : node = node' ∧ seq = seq' := by
  have hchars := congrArg String.toList h
  simp only [String.toList_append, List.append_assoc, List.append_cancel_left_eq] at hchars
  obtain ⟨hnode, hseq⟩ := counted_inj hchars
  exact ⟨String.toList_inj.mp hnode, hseq⟩

theorem minted_apart {id id' : MintedId} (h : id.text = id'.text) : id.kind = id'.kind ∧ id.counter = id'.counter := by
  have hmark : id.kind.mark = id'.kind.mark := by
    rw [← Option.some.injEq, ← head?_text, ← head?_text, h]
  have hkind : id.kind = id'.kind := by
    cases id <;> cases id' <;> first | rfl | exact absurd hmark (by simp [MintedId.kind, ReplicatedKind.mark])
  refine ⟨hkind, ?_⟩
  cases id with
  | audio msg => cases id' <;> first | rfl | cases hkind
  | videoState msg => cases id' <;> first | rfl | cases hkind
  | game node seq =>
    cases id' with
    | game node' seq' =>
      obtain ⟨rfl, rfl⟩ := counter_eq h
      rfl
    | audio msg => cases hkind
    | videoState msg => cases hkind
    | roomVideo node' seq' => cases hkind
  | roomVideo node seq =>
    cases id' with
    | roomVideo node' seq' =>
      obtain ⟨rfl, rfl⟩ := counter_eq h
      rfl
    | audio msg => cases hkind
    | videoState msg => cases hkind
    | game node' seq' => cases hkind

end ReplicationAux

open ReplicationAux

/-- **A frame is suppressed by its id.** A frame is discarded only when its id is not empty and one of the last ones recorded; a frame
with this id was handed to its delivery before, the same frame where frames with one id are one frame. A frame with an id is not handed
over twice within a window of as many ids as the cache holds. The ids that are minted differ between the kinds, and between two counts
of a node. -/
theorem suppresses_remembered (serde : SerdeJson) :
    (∀ before env msg, outcomeAfter serde before env msg = none →
      msg.messageId ≠ "" ∧ msg.messageId ∈ rememberedIds before ∧
        ∃ first, HandedIn serde before first ∧ first.messageId = msg.messageId ∧
          ((∀ a ∈ before, a.2.messageId = msg.messageId → a.2 = msg) → SameFrame serde first msg)) ∧
    (∀ before env msg between env', msg.messageId ≠ "" → (outcomeAfter serde before env msg).isSome →
      (outcomeAfter serde (before ++ (env, msg) :: between) env' msg).isSome →
      seenCapacity < (((env, msg) :: between).map fun a => a.2.messageId).toFinset.card) ∧
    ∀ id id' : MintedId, id.text = id'.text → id.kind = id'.kind ∧ id.counter = id'.counter := by
  refine ⟨?_, ?_, fun _ _ => minted_apart⟩
  · intro before env msg hnone
    obtain ⟨hid, hmem⟩ := (discarded_iff serde before env msg).mp hnone
    obtain ⟨first, hhanded, hfirst⟩ := handed_of_recorded serde (List.mem_of_mem_drop hmem)
    refine ⟨hid, hmem, first, hhanded, hfirst, fun hone => ?_⟩
    obtain ⟨pre, env₁, post, heq, _⟩ := hhanded
    have hsame : first = msg := hone (env₁, first) (heq ▸ List.mem_append_right _ List.mem_cons_self) hfirst
    rw [hsame]
    exact ⟨rfl, rfl, rfl⟩
  · intro before env msg between env' hid hfirst hagain
    exact card_of_handed_twice hid hfirst hagain

/-! ## An id that a client chose -/

namespace ReplicationAux

def chatFields : List (String × Json) :=
  [("payload", .obj [("body", .str "SGk="), ("message_id", .str "rv:n:0"), ("room_id", .str "r")]), ("sender", .str "A"),
    ("timestamp", .int 0), ("type", .str "sfu_chat"), ("v", .int 2)]

def fragmentFields : List (String × Json) :=
  [("message_id", .str "rv:n:0"), ("payload_b64", .str "BQE="), ("sender", .str "B"), ("type", .str "room_video_datagram")]

/-- A parser of the two texts. -/
def twoSerde : SerdeJson where
  fromStr raw :=
    if raw = String.ofList (Json.obj chatFields).text then some (.obj chatFields)
    else if raw = String.ofList (Json.obj fragmentFields).text then some (.obj fragmentFields) else none
  f64 _ := none
  printed raw v h := by
    split_ifs at h
    · rw [← Option.some.inj h]
      exact ⟨⟨trivial, trivial, trivial, trivial⟩, trivial, trivial, trivial, trivial, trivial⟩
    · rw [← Option.some.inj h]
      exact ⟨trivial, trivial, trivial, trivial, trivial⟩

/-- A chat message whose client chose the id of the next fragment. -/
def chosenChat : ReplicatedMsg := { roomId := "r", messageId := "rv:n:0", raw := String.ofList (Json.obj chatFields).text }

/-- The first fragment of the node "n". -/
def firstFragment : ReplicatedMsg :=
  { roomId := "r", messageId := roomVideoReplicationId "n" 0, raw := String.ofList (Json.obj fragmentFields).text }

/-- A chat message without an id. -/
def namelessChat : ReplicatedMsg := { roomId := "r", messageId := "", raw := String.ofList (Json.obj chatFields).text }

/-- A node without rooms and without a relay. -/
def bareEnv : ReplicaEnv where
  sfu := none
  relay := none
  closed _ := false
  outbound _ _ _ := true
  forwards _ _ _ _ := true

end ReplicationAux

/-- A fragment is lost to a chat message with its id, and a chat message without an id is delivered again. -/
theorem suppresses_others : ¬ (OnlyDuplicates twoSerde ∧ OncePerWindow twoSerde) ∧ ¬ OnlyDuplicates twoSerde ∧ ¬ OncePerWindow twoSerde := by
  have hlost : ¬ OnlyDuplicates twoSerde := by
    intro hclaim
    have hnone : outcomeAfter twoSerde [(bareEnv, chosenChat)] bareEnv firstFragment = none :=
      (discarded_iff _ _ _ _).mpr ⟨by decide, by decide⟩
    obtain ⟨first, ⟨before, env, after, heq, _⟩, _, hkind, _⟩ := hclaim _ _ _ hnone
    have hfirst : first = chosenChat := by
      cases before with
      | nil => exact (congrArg Prod.snd (List.cons.inj heq).1).symm
      | cons a before => exact absurd (List.cons.inj heq).2.symm (by simp)
    rw [hfirst] at hkind
    exact absurd hkind (by decide +kernel)
  have hagain : ¬ OncePerWindow twoSerde := by
    intro hclaim
    have h := hclaim [] bareEnv namelessChat [] bareEnv ((handed_iff _ _ _ _).mpr (Or.inl rfl)) ((handed_iff _ _ _ _).mpr (Or.inl rfl))
    exact absurd h (by decide)
  exact ⟨fun h => hlost h.1, hlost, hagain⟩

end DoubleSlash.Cluster
