import DoubleSlash.Lemmas.Brand
import DoubleSlash.Lemmas.Spellings
import DoubleSlash.Manager.RoomLinks

/-!
# Room invite links in a text

A link that was built is found in a text around it, reduced to its payload, and read back as what it was built from.
-/

namespace DoubleSlash.Manager

open Brand Codec JsonTree Protocol Text

/-- The text is empty, or that of an object which leaves the payload around it within what the parser reads. -/
def SpaceText (J : JsonReader) (text : String) : Prop :=
  text = "" ∨ ∃ fields, J.fromStr text = some (.obj fields) ∧ (Json.obj fields).depth < parserDepth

/-- What a link can be built from. -/
structure Sendable (J : JsonReader) (p : RoomInvitePayload) : Prop where
  supernodeId : p.supernodeId ≠ ""
  roomId : p.roomId ≠ ""
  expiresAt : p.expiresAt < 2 ^ 64
  spaceRoot : SpaceText J p.spaceRoot
  spaceProof : SpaceText J p.spaceProof
  spaceGrant : SpaceText J p.spaceGrant
  size : (p.encoded J).length ≤ 262144

/-- Both texts are empty, or read as one value. -/
def SameJson (J : JsonReader) (text text' : String) : Prop :=
  text = "" ∧ text' = "" ∨ ∃ v, J.fromStr text = some v ∧ J.fromStr text' = some v

/-- What was read is what the link was built from. -/
structure SameInvite (J : JsonReader) (p q : RoomInvitePayload) : Prop where
  supernodeId : q.supernodeId = p.supernodeId
  supernodeHint : q.supernodeHint = p.supernodeHint
  roomId : q.roomId = p.roomId
  roomName : q.roomName = p.roomName
  roomType : q.roomType = if p.roomType = "" then "private" else p.roomType
  inviteToken : q.inviteToken = p.inviteToken
  expiresAt : q.expiresAt = p.expiresAt
  spaceRoot : SameJson J p.spaceRoot q.spaceRoot
  spaceProof : SameJson J p.spaceProof q.spaceProof
  spaceGrant : SameJson J p.spaceGrant q.spaceGrant

/-- The text stands between delimiters or the ends, and no link before it. -/
structure Surrounds (before link after : List Char) : Prop where
  left : ∀ c ∈ before.getLast?, isDelimiter c = true
  right : ∀ c ∈ after.head?, isDelimiter c = true
  first : ∀ before' link' after', SoughtIn (before ++ link ++ after) before' link' after' → before <+: before'

namespace RoomLinksAux

variable {J : JsonReader}

/-! ## The payload -/

/-- An object which the parser reads when it is a field of the payload. -/
structure Fields (J : JsonReader) (fields : List (String × Json)) : Prop where
  value : (Json.obj fields).IsValue J.isF64
  shallow : ∀ f ∈ fields, f.2.depth < parserDepth

theorem fields_plainFields {p : RoomInvitePayload} (h : p.expiresAt < 2 ^ 64) : Fields J p.plainFields where
  value := by
    refine ⟨?_, Json.fieldValues_iff.mpr ?_⟩
    · show (["expires_at", "invite_token", "room_id", "room_name", "room_type", "supernode_hint", "supernode_id", "v"] : List String).Pairwise
        (· < ·)
      decide
    · unfold RoomInvitePayload.plainFields
      simp only [List.forall_mem_cons, List.not_mem_nil, false_implies, implies_true, and_true]
      refine ⟨⟨by omega, by omega⟩, trivial, trivial, trivial, trivial, trivial, trivial, by decide, by decide⟩
  shallow := by
    unfold RoomInvitePayload.plainFields
    simp [Json.depth, parserDepth]

theorem Fields.insertSpaceField {fields : List (String × Json)} (h : Fields J fields) (key : String) {text : String}
    (htext : SpaceText J text) : Fields J (insertSpaceField J fields (key, text)) := by
  unfold Manager.insertSpaceField
  rcases htext with hempty | ⟨members, hread, hdepth⟩
  · rw [if_pos hempty]
    exact h
  · by_cases hempty : text = ""
    · rw [if_pos hempty]
      exact h
    · rw [if_neg hempty, hread]
      refine ⟨h.value.insertKey _ (J.reads _ _ hread).1, ?_⟩
      intro f hf
      rcases mem_of_mem_insertKey hf with rfl | hf
      · exact hdepth
      · exact h.shallow f hf

/-- What a Space field puts into the payload. -/
def spaceValue (J : JsonReader) (text : String) : Option Json := if text = "" then none else J.fromStr text

theorem lookup_insertSpaceField (fields : List (String × Json)) (key text k : String) :
    (insertSpaceField J fields (key, text)).lookup k =
      if k = key then (spaceValue J text).or (fields.lookup k) else fields.lookup k := by
  unfold insertSpaceField spaceValue
  by_cases hempty : text = ""
  · rw [if_pos hempty, if_pos hempty]
    split <;> rfl
  · rw [if_neg hempty, if_neg hempty]
    cases J.fromStr text with
    | none =>
      show fields.lookup k = if k = key then fields.lookup k else fields.lookup k
      rw [ite_self]
    | some v => exact lookup_insertKey key v fields k

/-- Every field of the payload. -/
theorem get_payload (p : RoomInvitePayload) (k : String) :
    (p.payload J).get k =
      if k = "space_grant" then spaceValue J p.spaceGrant else if k = "space_proof" then spaceValue J p.spaceProof
      else if k = "space_root" then spaceValue J p.spaceRoot else p.plainFields.lookup k := by
  unfold RoomInvitePayload.payload Json.get
  simp only [List.foldl_cons, List.foldl_nil, lookup_insertSpaceField]
  by_cases hgrant : k = "space_grant"
  · subst hgrant
    simp [RoomInvitePayload.plainFields, List.lookup_cons]
  · by_cases hproof : k = "space_proof"
    · subst hproof
      simp [RoomInvitePayload.plainFields, List.lookup_cons]
    · by_cases hroot : k = "space_root"
      · subst hroot
        simp [RoomInvitePayload.plainFields, List.lookup_cons]
      · simp only [hgrant, hproof, hroot, if_false]

theorem toVec_eq (v : Json) : v.toVec = Bytes.utf8 (String.ofList v.text) := rfl

/-- The payload reads back from its bytes. -/
theorem fromSlice_payload {p : RoomInvitePayload} (h : Sendable J p) : J.fromSlice (p.payload J).toVec = some (p.payload J) := by
  have hfields := (((fields_plainFields (J := J) h.expiresAt).insertSpaceField "space_root" h.spaceRoot).insertSpaceField "space_proof"
    h.spaceProof).insertSpaceField "space_grant" h.spaceGrant
  have hdepth : (p.payload J).depth ≤ parserDepth := by
    have hle := Json.fieldDepths_le.mpr fun f hf => Nat.le_sub_one_of_lt (hfields.shallow f hf)
    show Json.fieldDepths _ + 1 ≤ parserDepth
    have hpos : 0 < parserDepth := by decide
    exact Nat.le_trans (Nat.add_le_add_right hle 1) (by omega)
  unfold JsonReader.fromSlice
  rw [toVec_eq, Bytes.fromUtf8_utf8, Option.bind_some]
  exact J.readsBack _ hfields.value hdepth

/-! ## Reading the payload -/

theorem trimmed_encode (bytes : List UInt8) :
    b64Groups (trimEndMatches '=' (b64urlEncode bytes)).toList = some bytes := by
  have hpad := rdropWhile_pad bytes 0
  rw [List.replicate_zero, List.append_nil] at hpad
  unfold trimEndMatches b64urlEncode
  rw [String.toList_ofList, String.toList_ofList, hpad]
  exact b64Groups_b64Body bytes

theorem mem_encoded {P : Char → Prop} (h : ∀ n < 64, P (toUrlSafe (b64Char n))) (p : RoomInvitePayload) :
    ∀ c ∈ (p.encoded J).toList, P c := by
  unfold RoomInvitePayload.encoded b64urlEncode
  rw [String.toList_ofList]
  exact b64Body_forall h _

theorem byteLen_encoded {p : RoomInvitePayload} (h : (p.encoded J).length ≤ 262144) : ¬ 262144 < byteLen (p.encoded J).toList := by
  rw [Sfu.SpellingAux.byteLen_of_ascii (mem_encoded (fun n hn => Sfu.SpellingAux.utf8Size_b64Char hn) p), String.length_toList]
  exact Nat.not_lt.mpr h

theorem sameJson_objectField {p : RoomInvitePayload} {text k : String} (htext : SpaceText J text)
    (hget : (p.payload J).get k = spaceValue J text) : SameJson J text (objectField (p.payload J) k) := by
  unfold objectField
  rw [hget]
  unfold spaceValue
  by_cases hempty : text = ""
  · rw [if_pos hempty]
    exact Or.inl ⟨hempty, rfl⟩
  · rcases htext with h | ⟨fields, hread, -⟩
    · exact absurd h hempty
    · rw [if_neg hempty, hread]
      obtain ⟨hvalue, hdepth⟩ := J.reads _ _ hread
      exact Or.inr ⟨_, hread, J.readsBack _ hvalue hdepth⟩

theorem asU64_natCast {n : Nat} (h : n < 2 ^ 64) : Json.asU64 (.int n) = some n := by
  have hrange : 0 ≤ (n : Int) ∧ (n : Int) < 2 ^ 64 := ⟨Int.natCast_nonneg n, by omega⟩
  simp only [Json.asU64]
  rw [if_pos hrange, Int.toNat_natCast]

/-- What was built is read back. -/
theorem parse_encoded {p : RoomInvitePayload} (h : Sendable J p) :
    ∃ q, parseRoomInvite J (p.encoded J) = .ok q ∧ SameInvite J p q := by
  have htext : ∀ k s, (p.payload J).get k = some (.str s) → textField (p.payload J) k = s := by
    intro k s hget
    unfold textField
    rw [hget]
    rfl
  have hsupernode : textField (p.payload J) "supernode_id" = p.supernodeId := htext _ _ (get_payload p _)
  have hroom : textField (p.payload J) "room_id" = p.roomId := htext _ _ (get_payload p _)
  have htype : textField (p.payload J) "room_type" = p.roomType := htext _ _ (get_payload p _)
  have hversion : ((p.payload J).get "v").bind Json.asU64 = some 1 := by
    rw [get_payload]
    rfl
  have hexpires : ((p.payload J).get "expires_at").bind Json.asU64 = some p.expiresAt := by
    have hget : (p.payload J).get "expires_at" = some (.int p.expiresAt) := get_payload p _
    rw [hget, Option.bind_some, asU64_natCast h.expiresAt]
  unfold parseRoomInvite
  rw [if_neg (byteLen_encoded h.size)]
  unfold RoomInvitePayload.encoded
  simp only [trimmed_encode, fromSlice_payload h, hversion, hsupernode, hroom, if_neg h.supernodeId, if_neg h.roomId]
  refine ⟨_, rfl, ?_⟩
  exact
    { supernodeId := rfl
      supernodeHint := htext _ _ (get_payload p _)
      roomId := rfl
      roomName := htext _ _ (get_payload p _)
      roomType := by rw [htype]
      inviteToken := htext _ _ (get_payload p _)
      expiresAt := by rw [hexpires]; rfl
      spaceRoot := sameJson_objectField h.spaceRoot (get_payload p _)
      spaceProof := sameJson_objectField h.spaceProof (get_payload p _)
      spaceGrant := sameJson_objectField h.spaceGrant (get_payload p _) }

/-! ## The link in a text -/

/-- A link that was minted is reduced to its action and payload. -/
theorem normalize_minted {payload : List Char} (h : payload ≠ []) :
    normalizeAppUrl (mintInviteHttps "room".toList payload) = some (some ("room#".toList ++ payload)) := by
  have hstrip : stripHttpsInvite (mintInviteHttps "room".toList payload) =
      some (if payload = [] then none else some ("room".toList, payload)) := rfl
  unfold normalizeAppUrl
  rw [hstrip, if_neg h]
  rfl

theorem not_delimiter_of_alphanumeric {c : Char} (h : isAsciiAlphanumeric c = true) : isDelimiter c = false := by
  have hall : ∀ n < 128, isAsciiAlphanumeric (Char.ofNat n) = true → isDelimiter (Char.ofNat n) = false := by decide +kernel
  have hc : c.toNat ≤ 127 := Char.utf8Size_eq_one_iff.mp (utf8Size_of_alphanumeric h)
  have := hall c.toNat (by omega)
  rw [Char.ofNat_toNat] at this
  exact this h

theorem encode_ne_nil {bytes : List UInt8} (h : bytes ≠ []) : (b64urlEncode bytes).toList ≠ [] := by
  intro hnil
  have hbytes := trimmed_encode bytes
  rw [String.toList_eq_nil_iff.mp hnil] at hbytes
  exact h (Option.some.inj hbytes).symm

theorem encoded_ne_nil (p : RoomInvitePayload) : (p.encoded J).toList ≠ [] := by
  refine encode_ne_nil fun hnil => ?_
  have hlen := congrArg List.length hnil
  rw [toVec_eq, length_utf8] at hlen
  obtain ⟨l, hl⟩ : ∃ l, (p.payload J).text = '\x7b' :: l := by
    unfold RoomInvitePayload.payload
    generalize List.foldl _ _ _ = fields
    cases fields with
    | nil => exact ⟨_, rfl⟩
    | cons f fields => exact ⟨_, rfl⟩
  rw [hl] at hlen
  have hpos := Char.utf8Size_pos '\x7b'
  rw [byteLen_cons, List.length_nil] at hlen
  omega

/-- Between delimiters a link that was built is one that is looked for. -/
theorem soughtIn_built {p : RoomInvitePayload} {before after : List Char} (left : ∀ c ∈ before.getLast?, isDelimiter c = true)
    (right : ∀ c ∈ after.head?, isDelimiter c = true) :
    SoughtIn (before ++ buildRoomInviteUrl J p ++ after) before (buildRoomInviteUrl J p) after where
  parts := rfl
  plain := by
    intro c hc
    have hminted : buildRoomInviteUrl J p = "https://doubleslash.space/r#".toList ++ (p.encoded J).toList := rfl
    rw [hminted] at hc
    rcases List.mem_append.mp hc with hc | hc
    · have hall : ("https://doubleslash.space/r#".toList.all fun d => isDelimiter d == false) = true := by decide +kernel
      exact beq_iff_eq.mp (List.all_eq_true.mp hall c hc)
    · have hall : ∀ n < 64, isDelimiter (toUrlSafe (b64Char n)) = false := by decide +kernel
      exact mem_encoded (P := fun d => isDelimiter d = false) hall p c hc
  stop := right
  accepted := ⟨_, normalize_minted (encoded_ne_nil p)⟩
  form := ⟨"https://".toList, by simp [needles], by exact ⟨_, rfl⟩⟩
  word := by
    intro c hc
    refine eq_false_of_ne_true fun halnum => ?_
    exact Bool.false_ne_true ((not_delimiter_of_alphanumeric halnum).symm.trans (left c hc))

end RoomLinksAux

open RoomLinksAux in
/-- A link between delimiters with no other before it is found as it was built, reduced to its action and payload, and read as what it
was built from, the empty type as private. In every text the search and the reduction end without a slice that panics, and what is found
is the first of the links that have one of the forms looked for and continue no word. -/
theorem room_links_round_trip (J : JsonReader) :
    (∀ p before after, Sendable J p → Surrounds before (buildRoomInviteUrl J p) after →
      findAppUrl (before ++ buildRoomInviteUrl J p ++ after) = some (some (buildRoomInviteUrl J p)) ∧
        normalizeAppUrl (buildRoomInviteUrl J p) = some (some ("room#".toList ++ (p.encoded J).toList)) ∧
        ∃ q, parseRoomInvite J (p.encoded J) = .ok q ∧ SameInvite J p q) ∧
      ∀ text, (∃ reduced, normalizeAppUrl text = some reduced) ∧
        ∃ found, findAppUrl text = some found ∧ (found = none → ∀ before link after, ¬ SoughtIn text before link after) ∧
          ∀ link, found = some link → ∃ before after, SoughtIn text before link after ∧
            ∀ before' link' after', SoughtIn text before' link' after' → before <+: before' := by
  refine ⟨?_, fun text => ⟨normalizeAppUrl_total text, findAppUrl_spec text⟩⟩
  intro p before after hp hsurrounds
  refine ⟨?_, normalize_minted (encoded_ne_nil p), parse_encoded hp⟩
  have hbuilt := soughtIn_built (J := J) (p := p) hsurrounds.left hsurrounds.right
  obtain ⟨found, hfound, hnone, hsome⟩ := findAppUrl_spec (before ++ buildRoomInviteUrl J p ++ after)
  rw [hfound]
  cases found with
  | none => exact absurd hbuilt (hnone rfl _ _ _)
  | some link =>
    obtain ⟨before', after', hlink, hfirst⟩ := hsome link rfl
    -- Each of the two starts no later than the other.
    have hsame : before' = before :=
      (hfirst _ _ _ hbuilt).eq_of_length_le (hsurrounds.first _ _ _ hlink).length_le
    subst hsame
    have hrest : buildRoomInviteUrl J p ++ after = link ++ after' := by
      have hparts := hlink.parts
      rw [List.append_assoc, List.append_assoc] at hparts
      exact List.append_cancel_left hparts
    rw [← hlink.linkPart, ← hrest, hbuilt.linkPart]

/-! ## Where more is asked of the links -/

/-- Objects in one another, with one key each. -/
def nested : Nat → Json
  | 0 => .obj []
  | n + 1 => .obj [("a", nested n)]

/-- An invite with such a Space root. -/
def nestedInvite (n : Nat) : RoomInvitePayload where
  supernodeId := "s"
  supernodeHint := ""
  roomId := "r"
  roomName := ""
  roomType := ""
  inviteToken := ""
  expiresAt := 0
  spaceRoot := String.ofList (nested n).text
  spaceProof := ""
  spaceGrant := ""

namespace RoomLinksAux

variable {J : JsonReader} {n : Nat}

theorem isValue_nested (isF64 : String → Prop) (n : Nat) : (nested n).IsValue isF64 := by
  induction n with
  | zero => exact ⟨List.Pairwise.nil, trivial⟩
  | succ n ih => exact ⟨List.pairwise_singleton _ _, ih, trivial⟩

theorem depth_nested (n : Nat) : (nested n).depth = n + 1 := by
  induction n with
  | zero => rfl
  | succ n ih =>
    show max (nested n).depth 0 + 1 = n + 1 + 1
    rw [ih, Nat.max_zero]

theorem nested_eq_obj (n : Nat) : ∃ fields, nested n = .obj fields := by
  cases n with
  | zero => exact ⟨_, rfl⟩
  | succ n => exact ⟨_, rfl⟩

theorem byteLen_nested (n : Nat) : byteLen (nested n).text = 6 * n + 2 := by
  induction n with
  | zero => rfl
  | succ n ih =>
    have htext : (nested (n + 1)).text = "\x7b\"a\":".toList ++ ((nested n).text ++ "\x7d".toList) := rfl
    rw [htext, byteLen_append, byteLen_append, ih, show byteLen "\x7b\"a\":".toList = 5 from rfl,
      show byteLen "\x7d".toList = 1 from rfl]
    omega

theorem fromStr_nested (hn : n < parserDepth) : J.fromStr (nestedInvite n).spaceRoot = some (nested n) :=
  J.readsBack _ (isValue_nested _ _) ((depth_nested n).trans_le hn)

/-- The fields of the payload with a value as the Space root. -/
def rootedFields (v : Json) : List (String × Json) :=
  [("expires_at", .int 0), ("invite_token", .str ""), ("room_id", .str "r"), ("room_name", .str ""), ("room_type", .str ""),
    ("space_root", v), ("supernode_hint", .str ""), ("supernode_id", .str "s"), ("v", .int 1)]

theorem insertKey_plainFields (v : Json) : insertKey "space_root" v (nestedInvite n).plainFields = rootedFields v := rfl

theorem payload_nestedInvite (hn : n < parserDepth) : (nestedInvite n).payload J = .obj (rootedFields (nested n)) := by
  have hnone : ∀ fields key, insertSpaceField J fields (key, "") = fields := fun fields key => if_pos rfl
  have hne : (nestedInvite n).spaceRoot ≠ "" := by
    intro h
    have hlen := byteLen_nested n
    have hlist := congrArg String.toList h
    rw [show (nestedInvite n).spaceRoot = String.ofList (nested n).text from rfl, String.toList_ofList] at hlist
    rw [hlist] at hlen
    cases hlen
  have hroot : insertSpaceField J (nestedInvite n).plainFields ("space_root", (nestedInvite n).spaceRoot) = rootedFields (nested n) := by
    unfold insertSpaceField
    rw [if_neg hne, fromStr_nested hn]
    exact insertKey_plainFields _
  unfold RoomInvitePayload.payload
  rw [List.foldl_cons, List.foldl_cons, List.foldl_cons, List.foldl_nil, hroot]
  exact congrArg Json.obj ((hnone _ _).trans (hnone _ _))

/-- The payload is longer than the one with `null` in it by as much as the Space root is longer. -/
theorem byteLen_rootedFields (v : Json) :
    byteLen (Json.obj (rootedFields v)).text + byteLen Json.null.text = byteLen (Json.obj (rootedFields .null)).text + byteLen v.text := by
  unfold rootedFields
  generalize Json.null = w
  simp only [Json.text, Json.moreFields, byteLen_append, byteLen_cons]
  ac_rfl

theorem length_nestedInvite (hn : n < parserDepth) : ((nestedInvite n).encoded J).length ≤ 262144 := by
  unfold RoomInvitePayload.encoded b64urlEncode
  rw [payload_nestedInvite hn, ← String.length_toList, String.toList_ofList, List.length_map, length_b64Body, toVec_eq, length_utf8]
  have hbytes := byteLen_rootedFields (nested n)
  have hnull : byteLen (Json.obj (rootedFields .null)).text ≤ 200 := by decide +kernel
  have hdepth : parserDepth = 127 := rfl
  rw [byteLen_nested] at hbytes
  generalize byteLen (Json.obj (rootedFields (nested n))).text = len at hbytes ⊢
  omega

theorem expiresAt_nestedInvite : (nestedInvite n).expiresAt < 2 ^ 64 := by
  rw [show (nestedInvite n).expiresAt = 0 from rfl]
  norm_num

theorem isValue_nestedInvite (hn : n < parserDepth) : ((nestedInvite n).payload J).IsValue J.isF64 := by
  have hfields : Fields J (nestedInvite n).plainFields := fields_plainFields expiresAt_nestedInvite
  have hvalue := hfields.value.insertKey "space_root" (isValue_nested J.isF64 n)
  rwa [payload_nestedInvite hn, ← insertKey_plainFields (n := n)]

/-- An object is deeper than each of its fields. -/
theorem depth_lt_depth {key : String} {v : Json} {fields : List (String × Json)} (hmem : (key, v) ∈ fields) :
    v.depth < (Json.obj fields).depth :=
  Nat.lt_succ_of_le (Json.fieldDepths_le.mp (Nat.le_refl _) _ hmem)

/-- A payload that is deeper than the parser goes is not read. -/
theorem parse_of_deep {p : RoomInvitePayload} (hsize : (p.encoded J).length ≤ 262144) (hvalue : (p.payload J).IsValue J.isF64)
    (hdepth : parserDepth < (p.payload J).depth) : parseRoomInvite J (p.encoded J) = .error .json := by
  have hread : J.fromSlice (p.payload J).toVec = none := by
    unfold JsonReader.fromSlice
    rw [toVec_eq, Bytes.fromUtf8_utf8, Option.bind_some]
    exact J.refuses _ hvalue hdepth
  unfold parseRoomInvite
  rw [if_neg (byteLen_encoded hsize)]
  unfold RoomInvitePayload.encoded
  simp only [trimmed_encode, hread]

/-- So is one with a Space root that the parser still reads alone. -/
theorem parse_deepest : parseRoomInvite J ((nestedInvite 126).encoded J) = .error .json := by
  have hn : 126 < parserDepth := by decide
  refine parse_of_deep (length_nestedInvite hn) (isValue_nestedInvite hn) ?_
  rw [payload_nestedInvite hn]
  have hmem : ("space_root", nested 126) ∈ rootedFields (nested 126) := by
    unfold rootedFields
    simp
  exact (depth_nested 126).ge.trans_lt (depth_lt_depth hmem)

end RoomLinksAux

open RoomLinksAux in
/-- An invite with an empty object as its Space root, before a blank. -/
theorem room_links_sample :
    findAppUrl ([] ++ buildRoomInviteUrl JsonReader.exact (nestedInvite 0) ++ " now".toList) =
        some (some (buildRoomInviteUrl JsonReader.exact (nestedInvite 0))) ∧
      ∃ q, parseRoomInvite JsonReader.exact ((nestedInvite 0).encoded JsonReader.exact) = .ok q ∧ q.roomType = "private" := by
  have hsendable : Sendable JsonReader.exact (nestedInvite 0) :=
    { supernodeId := by decide
      roomId := by decide
      expiresAt := expiresAt_nestedInvite
      spaceRoot := Or.inr ⟨[], fromStr_nested (by decide), by decide⟩
      spaceProof := Or.inl rfl
      spaceGrant := Or.inl rfl
      size := length_nestedInvite (by decide) }
  have hsurrounds : Surrounds [] (buildRoomInviteUrl JsonReader.exact (nestedInvite 0)) " now".toList :=
    { left := by simp
      right := by
        intro c hc
        obtain rfl : ' ' = c := Option.some.inj hc
        decide
      first := fun _ _ _ _ => List.nil_prefix }
  obtain ⟨hfind, -, q, hparse, hsame⟩ := (room_links_round_trip JsonReader.exact).1 _ _ _ hsendable hsurrounds
  exact ⟨hfind, q, hparse, hsame.roomType⟩

open RoomLinksAux in
/-- A link with one slash is accepted and not found. A Space root that the parser still reads makes a link it does not read. -/
theorem one_slash_and_deep_root_fail :
    (LinkIn "d:/invite#a".toList [] "d:/invite#a".toList [] ∧ findAppUrl "d:/invite#a".toList = some none) ∧
      ∀ J : JsonReader, J.fromStr (nestedInvite 126).spaceRoot = some (nested 126) ∧ ((nestedInvite 126).encoded J).length ≤ 262144 ∧
        parseRoomInvite J ((nestedInvite 126).encoded J) = .error .json := by
  refine ⟨⟨?_, ?_⟩, fun J => ⟨fromStr_nested (by decide), length_nestedInvite (by decide), parse_deepest⟩⟩
  · have hall : ("d:/invite#a".toList.all fun c => isDelimiter c == false) = true := by decide +kernel
    exact
      { parts := rfl
        plain := fun c hc => beq_iff_eq.mp (List.all_eq_true.mp hall c hc)
        stop := by simp
        accepted := ⟨"invite#a".toList, by decide +kernel⟩ }
  · obtain ⟨found, hfound, -, hsome⟩ := findAppUrl_spec "d:/invite#a".toList
    rw [hfound]
    cases found with
    | none => rfl
    | some link =>
      obtain ⟨before, after, hlink, -⟩ := hsome link rfl
      obtain ⟨needle, hneedle, hform⟩ := hlink.form
      have hinfix : needle <:+: "d:/invite#a".toList.map asciiLower := by
        rw [hlink.parts, List.map_append, List.map_append]
        exact hform.isInfix.trans ⟨before.map asciiLower, after.map asciiLower, rfl⟩
      have hnone : ∀ n ∈ needles, ¬ n <:+: "d:/invite#a".toList.map asciiLower := by decide +kernel
      exact absurd hinfix (hnone needle hneedle)

end DoubleSlash.Manager
