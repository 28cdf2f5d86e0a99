import DoubleSlash.Store.Backup

/-!
# What an archive is made of

The plaintexts of an archive and their frames; what the writer puts out, what the reader has read when it accepts, and what an
extraction leaves in a directory.
-/

namespace DoubleSlash.Store.Backup

open Assoc Bytes

theorem bind_eq_ok {ε α β : Type} {x : Except ε α} {f : α → Except ε β} {b : β} : x >>= f = .ok b ↔ ∃ a, x = .ok a ∧ f a = .ok b := by
  cases x with
  | error e => exact ⟨fun h => (by cases h), fun ⟨_, ha, _⟩ => (by cases ha)⟩
  | ok a => exact ⟨fun h => ⟨a, rfl, h⟩, fun ⟨a', ha, hf⟩ => by cases ha; exact hf⟩

/-- The pieces of a file. -/
def pieces (content : List UInt8) : List (List UInt8) :=
  if _hempty : content = [] then [] else content.take chunk :: pieces (content.drop chunk)
termination_by content.length
decreasing_by
  have hchunk := chunk_pos
  have hlen := List.length_pos_iff.mpr _hempty
  rw [List.length_drop]
  omega

theorem pieces_nil : pieces [] = [] := by
  unfold pieces
  rw [dif_pos rfl]

theorem pieces_of_ne_nil {content : List UInt8} (h : content ≠ []) :
    pieces content = content.take chunk :: pieces (content.drop chunk) := by
  conv_lhs => unfold pieces
  rw [dif_neg h]

/-- How many pieces a file of a size has. -/
def pieceCount (size : Nat) : Nat := if _hempty : size = 0 then 0 else pieceCount (size - min size chunk) + 1
termination_by size
decreasing_by
  have hchunk := chunk_pos
  omega

theorem pieceCount_zero : pieceCount 0 = 0 := by
  unfold pieceCount
  rw [dif_pos rfl]

theorem pieceCount_pos {size : Nat} (h : size ≠ 0) : pieceCount size = pieceCount (size - min size chunk) + 1 := by
  conv_lhs => unfold pieceCount
  rw [dif_neg h]

theorem pieceCount_le (size : Nat) : pieceCount size ≤ size := by
  induction size using Nat.strong_induction_on with
  | _ size ih =>
    rcases Nat.eq_zero_or_pos size with rfl | hpos
    · rw [pieceCount_zero]
    · have hchunk := chunk_pos
      have hrest := ih (size - min size chunk) (by omega)
      rw [pieceCount_pos (by omega)]
      omega

theorem length_pieces (content : List UInt8) : (pieces content).length = pieceCount content.length := by
  induction content using pieces.induct with
  | case1 => rw [pieces_nil, List.length_nil, List.length_nil, pieceCount_zero]
  | case2 content hne ih =>
    have hlen : content.length ≠ 0 := fun h => hne (List.length_eq_zero_iff.mp h)
    rw [pieces_of_ne_nil hne, List.length_cons, ih, List.length_drop, pieceCount_pos hlen]
    congr 2
    omega

theorem length_piece {content piece : List UInt8} (h : piece ∈ pieces content) : piece.length ≤ chunk := by
  induction content using pieces.induct with
  | case1 => rw [pieces_nil] at h; exact absurd h List.not_mem_nil
  | case2 content hne ih =>
    rw [pieces_of_ne_nil hne] at h
    rcases List.mem_cons.mp h with rfl | hrest
    · exact List.length_take_le chunk content
    · exact ih hrest

theorem flatten_pieces (content : List UInt8) : (pieces content).flatten = content := by
  induction content using pieces.induct with
  | case1 => rw [pieces_nil, List.flatten_nil]
  | case2 content hne ih => rw [pieces_of_ne_nil hne, List.flatten_cons, ih, List.take_append_drop]

section

variable (C : BackupCrypto)

/-- What the frames of an archive hold, in order. -/
def plaintexts (manifest : Manifest) (seed : List UInt8) (contents : List (List UInt8)) : List (List UInt8) :=
  C.manifestToVec manifest :: seed :: (contents.flatMap pieces ++ [endMarker])

/-- The frame of a plaintext at its position. -/
def sealFrame (key header : List UInt8) (nonces : Nat → List UInt8) (index : Nat) (plaintext : List UInt8) : List UInt8 :=
  frameBytes (nonces index) (C.aesgcmEncrypt key (nonces index) plaintext (aad header index))

/-- The frames of plaintexts, from a position on. -/
def sealAll (key header : List UInt8) (nonces : Nat → List UInt8) : List (List UInt8) → Nat → List UInt8
  | [], _ => []
  | plaintext :: rest, index => sealFrame C key header nonces index plaintext ++ sealAll key header nonces rest (index + 1)

end

section

variable {C : BackupCrypto} {key header : List UInt8} {nonces : Nat → List UInt8}

theorem sealAll_append (xs ys : List (List UInt8)) (index : Nat) :
    sealAll C key header nonces (xs ++ ys) index =
      sealAll C key header nonces xs index ++ sealAll C key header nonces ys (index + xs.length) := by
  induction xs generalizing index with
  | nil => rfl
  | cons x xs ih =>
    rw [List.cons_append, sealAll, sealAll, ih, List.append_assoc, List.length_cons, Nat.add_assoc, Nat.add_comm 1]

/-! ## The writer -/

theorem writeFrame_eq_ok {bytes : List UInt8} {out out' : Output} :
    writeFrame C key header nonces bytes out = .ok out' ↔
      bytes.length ≤ chunk ∧ out' = ⟨out.bytes ++ sealFrame C key header nonces out.index bytes, out.index + 1⟩ := by
  unfold writeFrame
  split
  · exact ⟨fun h => (by cases h), fun h => by omega⟩
  · rename_i hle
    exact ⟨fun h => ⟨by omega, (Except.ok.inj h).symm⟩, fun h => congrArg Except.ok h.2.symm⟩

theorem readExact_eq_ok {n : Nat} {input front rest : List UInt8} :
    readExact n input = .ok (front, rest) ↔ front.length = n ∧ input = front ++ rest := by
  unfold readExact
  split
  · rename_i hshort
    refine ⟨fun h => (by cases h), fun h => ?_⟩
    rw [h.2, List.length_append] at hshort
    omega
  · rename_i hlong
    constructor
    · intro h
      obtain ⟨rfl, rfl⟩ := Prod.mk.inj (Except.ok.inj h)
      exact ⟨by rw [List.length_take]; omega, (List.take_append_drop n input).symm⟩
    · rintro ⟨hlen, rfl⟩
      rw [← hlen, List.take_left, List.drop_left]

/-- The writer of a file's pieces puts out as much as was declared. -/
theorem writeChunks_eq_ok (remaining : Nat) (input : List UInt8) (out : Output) (rest : List UInt8) (out' : Output) :
    writeChunks C key header nonces remaining input out = .ok (rest, out') ↔
      ∃ content, content.length = remaining ∧ input = content ++ rest ∧
        out' = ⟨out.bytes ++ sealAll C key header nonces (pieces content) out.index, out.index + (pieces content).length⟩ := by
  induction remaining, input, out using writeChunks.induct with
  | case1 input out =>
    unfold writeChunks
    rw [dif_pos rfl]
    constructor
    · intro h
      obtain ⟨rfl, rfl⟩ := Prod.mk.inj (Except.ok.inj h)
      exact ⟨[], rfl, rfl, by rw [pieces_nil, sealAll, List.append_nil, List.length_nil, Nat.add_zero]⟩
    · rintro ⟨content, hlen, rfl, rfl⟩
      obtain rfl := List.length_eq_zero_iff.mp hlen
      rw [pieces_nil, sealAll, List.append_nil, List.length_nil, Nat.add_zero, List.nil_append]
  | case2 remaining input out hne ih =>
    have hchunk := chunk_pos
    unfold writeChunks
    rw [dif_neg hne]
    simp only [bind_eq_ok, Prod.exists, readExact_eq_ok, writeFrame_eq_ok, ih]
    constructor
    · rintro ⟨buffer, input', ⟨hbuffer, rfl⟩, out₁, ⟨hle, rfl⟩, content, hlen, rfl, rfl⟩
      have hcontent : buffer ++ content ≠ [] := by
        intro h
        rw [List.append_eq_nil_iff] at h
        rw [h.1, List.length_nil] at hbuffer
        omega
      have hfirst : (buffer ++ content).take chunk = buffer ∧ (buffer ++ content).drop chunk = content := by
        by_cases hfull : remaining ≤ chunk
        · have hnil : content = [] := List.length_eq_zero_iff.mp (by omega)
          subst hnil
          rw [List.append_nil]
          exact ⟨List.take_of_length_le (by omega), List.drop_of_length_le (by omega)⟩
        · have hlen' : buffer.length = chunk := by omega
          rw [← hlen']
          exact ⟨List.take_left, List.drop_left⟩
      refine ⟨buffer ++ content, by rw [List.length_append]; omega, by rw [List.append_assoc], ?_⟩
      rw [pieces_of_ne_nil hcontent, hfirst.1, hfirst.2, sealAll, List.length_cons, ← List.append_assoc, Nat.add_assoc, Nat.add_comm 1]
    · rintro ⟨content, hlen, rfl, rfl⟩
      have hcontent : content ≠ [] := fun h => hne (by rw [← hlen, h, List.length_nil])
      refine ⟨content.take chunk, content.drop chunk ++ rest, ⟨?_, ?_⟩, _, ⟨List.length_take_le _ _, rfl⟩, content.drop chunk, ?_, rfl, ?_⟩
      · rw [List.length_take, hlen, Nat.min_comm]
      · rw [← List.append_assoc, List.take_append_drop]
      · rw [List.length_drop]
        omega
      · rw [pieces_of_ne_nil hcontent, sealAll, List.length_cons, ← List.append_assoc, Nat.add_assoc, Nat.add_comm 1]

/-- The writer of the files: each is read to its end, and has the size that is declared. -/
theorem writeEntries_eq_ok {pairs : List (Entry × Option SourceFile)} {out out' : Output} :
    writeEntries C key header nonces pairs out = .ok out' ↔
      ∃ contents : List (List UInt8), pairs.map Prod.snd = contents.map (fun content => some ⟨content, false⟩) ∧
        contents.map List.length = pairs.map (fun e => e.1.size) ∧
        out' = ⟨out.bytes ++ sealAll C key header nonces (contents.flatMap pieces) out.index,
          out.index + (contents.flatMap pieces).length⟩ := by
  induction pairs generalizing out with
  | nil =>
    unfold writeEntries
    constructor
    · intro h
      obtain rfl := Except.ok.inj h
      exact ⟨[], rfl, rfl, by rw [List.flatMap_nil, sealAll, List.append_nil, List.length_nil, Nat.add_zero]⟩
    · rintro ⟨contents, hcontents, -, rfl⟩
      obtain rfl : contents = [] := List.map_eq_nil_iff.mp hcontents.symm
      rw [List.flatMap_nil, sealAll, List.append_nil, List.length_nil, Nat.add_zero]
  | cons pair pairs ih =>
    obtain ⟨entry, source⟩ := pair
    cases source with
    | none =>
      refine ⟨fun h => (by cases h), ?_⟩
      rintro ⟨contents, hcontents, -, -⟩
      cases contents with
      | nil => cases hcontents
      | cons content contents => exact absurd (List.cons.inj hcontents).1 (by simp)
    | some file =>
      unfold writeEntries
      simp only [bind_eq_ok, Prod.exists, writeChunks_eq_ok]
      constructor
      · rintro ⟨rest, out₁, ⟨content, hlen, hfile, rfl⟩, h⟩
        split at h
        · cases h
        · rename_i hunchanged
          rw [not_or, not_not] at hunchanged
          obtain ⟨rfl, huntouched⟩ := hunchanged
          obtain ⟨contents, hcontents, hlens, rfl⟩ := ih.mp h
          obtain ⟨_, touched⟩ := file
          obtain rfl : touched = false := by simpa using huntouched
          rw [List.append_nil] at hfile
          refine ⟨content :: contents, ?_, ?_, ?_⟩
          · rw [List.map_cons, List.map_cons, hcontents, ← hfile]
          · rw [List.map_cons, List.map_cons, hlens, hlen]
          · rw [List.flatMap_cons, sealAll_append, List.length_append, List.append_assoc, Nat.add_assoc]
      · rintro ⟨contents, hcontents, hlens, rfl⟩
        cases contents with
        | nil => cases hcontents
        | cons content contents =>
          obtain ⟨hfile, hfiles⟩ := List.cons.inj hcontents
          obtain rfl := Option.some.inj hfile
          obtain ⟨hlen, hsizes⟩ := List.cons.inj hlens
          refine ⟨[], _, ⟨content, hlen, (List.append_nil content).symm, rfl⟩, ?_⟩
          rw [if_neg (by simp)]
          refine ih.mpr ⟨contents, hfiles, hsizes, ?_⟩
          rw [List.flatMap_cons, sealAll_append, List.length_append, List.append_assoc, Nat.add_assoc]

theorem backupKey_eq_ok {password : List UInt8} :
    backupKey C password header = .ok key ↔ C.argon2id password (header.drop 8) = some key := by
  unfold backupKey
  cases C.argon2id password (header.drop 8) <;> simp

theorem length_endMarker : endMarker.length ≤ chunk := by
  unfold chunk
  decide +kernel

/-- What the writer puts out: the header, and the frames of the plaintexts. -/
theorem writeArchive_eq_ok {password random : List UInt8} {manifest : Manifest} {seed : List UInt8} {sources : List (Option SourceFile)}
    {bytes : List UInt8} :
    writeArchive C password random nonces manifest seed sources = .ok bytes ↔
      ∃ (key : List UInt8) (contents : List (List UInt8)), backupKey C password (magic ++ random) = .ok key ∧
        (C.manifestToVec manifest).length ≤ chunk ∧
        seed.length ≤ chunk ∧
        (manifest.entries.zip sources).map Prod.snd = contents.map (fun content => some ⟨content, false⟩) ∧
        contents.map List.length = (manifest.entries.zip sources).map (fun e => e.1.size) ∧
        bytes = magic ++ random ++ sealAll C key (magic ++ random) nonces (plaintexts C manifest seed contents) 0 := by
  have hseal : ∀ (key : List UInt8) (contents : List (List UInt8)),
    magic ++ random ++ sealAll C key (magic ++ random) nonces (plaintexts C manifest seed contents) 0 =
      magic ++ random ++ sealFrame C key (magic ++ random) nonces 0 (C.manifestToVec manifest) ++
        sealFrame C key (magic ++ random) nonces 1 seed ++ sealAll C key (magic ++ random) nonces (contents.flatMap pieces) 2 ++
        sealFrame C key (magic ++ random) nonces (2 + (contents.flatMap pieces).length) endMarker := by
    intro key contents
    unfold plaintexts
    rw [sealAll, sealAll, sealAll_append, sealAll, sealAll, List.append_nil]
    simp only [List.append_assoc]
  unfold writeArchive
  simp only [bind_eq_ok, writeFrame_eq_ok, writeEntries_eq_ok]
  constructor
  · rintro ⟨key, hkey, out₁, ⟨hjson, rfl⟩, out₂, ⟨hseed, rfl⟩, out₃, ⟨contents, hcontents, hlens, rfl⟩, out₄, ⟨-, rfl⟩, h⟩
    refine ⟨key, contents, hkey, hjson, hseed, hcontents, hlens, ?_⟩
    rw [← Except.ok.inj h, hseal]
  · rintro ⟨key, contents, hkey, hjson, hseed, hcontents, hlens, rfl⟩
    refine ⟨key, hkey, _, ⟨hjson, rfl⟩, _, ⟨hseed, rfl⟩, _, ⟨contents, hcontents, hlens, rfl⟩, _, ⟨length_endMarker, rfl⟩, ?_⟩
    rw [hseal]

/-! ## Frames that open -/

theorem readFrame_eq_ok {c c' : Cursor} {plaintext : List UInt8} :
    readFrame C key header c = .ok (plaintext, c') ↔
      ∃ nonce ciphertext, nonce.length = 12 ∧ 16 ≤ ciphertext.length ∧ ciphertext.length ≤ chunk + 16 ∧
        c.input = frameBytes nonce ciphertext ++ c'.input ∧ c'.index = c.index + 1 ∧
        C.aesgcmDecrypt key nonce ciphertext (aad header c.index) = some plaintext := by
  have hfits : chunk + 28 < 256 ^ 4 := by
    unfold chunk
    decide
  unfold readFrame
  simp only [bind_eq_ok, Prod.exists, readExact_eq_ok]
  constructor
  · rintro ⟨length, input, ⟨hlength, hinput⟩, h⟩
    split at h
    · cases h
    · rename_i hrange
      simp only [bind_eq_ok, Prod.exists, readExact_eq_ok] at h
      obtain ⟨frame, rest, ⟨hframe, rfl⟩, h⟩ := h
      split at h
      · cases h
      · rename_i hopen
        obtain ⟨rfl, rfl⟩ := Prod.mk.inj (Except.ok.inj h)
        refine ⟨frame.take 12, frame.drop 12, ?_, ?_, ?_, ?_, rfl, hopen⟩
        · rw [List.length_take]
          omega
        · rw [List.length_drop]
          omega
        · rw [List.length_drop]
          omega
        · unfold frameBytes
          rw [← List.length_append, List.take_append_drop, hframe, ← hlength, beBytes_beNat, List.append_assoc, hinput]
  · rintro ⟨nonce, ciphertext, hnonce, hlow, hhigh, hinput, hindex, hopen⟩
    have hlen : beNat (beBytes 4 (nonce.length + ciphertext.length)) = nonce.length + ciphertext.length :=
      beNat_beBytes 4 _ (by omega)
    refine ⟨beBytes 4 (nonce.length + ciphertext.length), nonce ++ ciphertext ++ c'.input, ⟨length_beBytes _ _, ?_⟩, ?_⟩
    · rw [hinput, frameBytes, List.append_assoc]
    · rw [hlen, if_neg (by omega)]
      simp only [bind_eq_ok, Prod.exists, readExact_eq_ok]
      refine ⟨nonce ++ ciphertext, c'.input, ⟨List.length_append, rfl⟩, ?_⟩
      rw [← hnonce, List.take_left, List.drop_left, hopen, ← hindex]

/-- These plaintexts are what the frames hold from one place to another. -/
def Opens (C : BackupCrypto) (key header : List UInt8) : List (List UInt8) → Cursor → Cursor → Prop
  | [], c, c' => c' = c
  | plaintext :: rest, c, c' => ∃ c₁, readFrame C key header c = .ok (plaintext, c₁) ∧ Opens C key header rest c₁ c'

theorem opens_append {xs ys : List (List UInt8)} {c c₁ c' : Cursor} (hxs : Opens C key header xs c c₁) (hys : Opens C key header ys c₁ c') :
    Opens C key header (xs ++ ys) c c' := by
  induction xs generalizing c with
  | nil =>
    obtain rfl : c₁ = c := hxs
    exact hys
  | cons x xs ih =>
    obtain ⟨c₂, hread, hrest⟩ := hxs
    exact ⟨c₂, hread, ih hrest⟩

/-- The laws of the cipher, for the frames of plaintexts from a position on: each opens, and is 16 bytes longer. -/
structure CipherLaws (C : BackupCrypto) (key header : List UInt8) (nonces : Nat → List UInt8) (xs : List (List UInt8)) (index : Nat) :
    Prop where
  opens : ∀ i x, xs[i]? = some x →
    C.aesgcmDecrypt key (nonces (index + i)) (C.aesgcmEncrypt key (nonces (index + i)) x (aad header (index + i))) (aad header (index + i)) =
      some x
  length : ∀ i x, xs[i]? = some x →
    (C.aesgcmEncrypt key (nonces (index + i)) x (aad header (index + i))).length = x.length + 16

/-- Sealed frames open. -/
theorem opens_sealAll (hnonces : ∀ i, (nonces i).length = 12) {xs : List (List UInt8)} {index : Nat}
    (laws : CipherLaws C key header nonces xs index) (hxs : ∀ x ∈ xs, x.length ≤ chunk) (rest : List UInt8) :
    Opens C key header xs ⟨sealAll C key header nonces xs index ++ rest, index⟩ ⟨rest, index + xs.length⟩ := by
  induction xs generalizing index with
  | nil => exact rfl
  | cons x xs ih =>
    have hx := hxs x List.mem_cons_self
    have hlen := laws.length 0 x rfl
    have hopens := laws.opens 0 x rfl
    rw [Nat.add_zero] at hlen hopens
    refine ⟨⟨sealAll C key header nonces xs (index + 1) ++ rest, index + 1⟩, readFrame_eq_ok.mpr ?_, ?_⟩
    · exact ⟨nonces index, C.aesgcmEncrypt key (nonces index) x (aad header index), hnonces index, by omega, by omega,
        by rw [sealAll, sealFrame, List.append_assoc], rfl, hopens⟩
    · have laws' : CipherLaws C key header nonces xs (index + 1) := by
        refine ⟨fun i y hy => ?_, fun i y hy => ?_⟩
        · rw [Nat.add_right_comm]
          exact laws.opens (i + 1) y hy
        · rw [Nat.add_right_comm]
          exact laws.length (i + 1) y hy
      have hrest := ih laws' (fun y hy => hxs y (List.mem_cons_of_mem _ hy))
      rwa [List.length_cons, ← Nat.add_assoc, Nat.add_right_comm]

/-- Frames that open only as the ones that were sealed are those. -/
theorem sealAll_of_opens {plain : List (List UInt8)} {n : Nat}
    (honly : ∀ index < n, ∀ nonce ciphertext plaintext, C.aesgcmDecrypt key nonce ciphertext (aad header index) = some plaintext →
      plain[index]? = some plaintext ∧ nonce = nonces index ∧ ciphertext = C.aesgcmEncrypt key nonce plaintext (aad header index))
    {xs : List (List UInt8)} {c c' : Cursor} (hopens : Opens C key header xs c c') (hbound : c.index + xs.length ≤ n) :
    c.input = sealAll C key header nonces xs c.index ++ c'.input ∧ c'.index = c.index + xs.length ∧
      ∀ i < xs.length, xs[i]? = plain[c.index + i]? := by
  induction xs generalizing c with
  | nil =>
    obtain rfl : c' = c := hopens
    exact ⟨rfl, rfl, fun i hi => absurd hi (Nat.not_lt_zero i)⟩
  | cons x xs ih =>
    obtain ⟨c₁, hread, hrest⟩ := hopens
    obtain ⟨nonce, ciphertext, -, -, -, hinput, hindex, hopen⟩ := readFrame_eq_ok.mp hread
    rw [List.length_cons] at hbound
    obtain ⟨hplain, rfl, rfl⟩ := honly c.index (by omega) nonce ciphertext x hopen
    obtain ⟨hinput', hindex', hget⟩ := ih hrest (by omega)
    refine ⟨?_, by rw [hindex', hindex, List.length_cons]; omega, fun i hi => ?_⟩
    · rw [hinput, hinput', sealAll, sealFrame, hindex, List.append_assoc]
    · cases i with
      | zero => rw [List.getElem?_cons_zero, Nat.add_zero, hplain]
      | succ i =>
        rw [List.getElem?_cons_succ, hget i (by simpa using hi), hindex, Nat.add_assoc, Nat.add_comm 1]

theorem opens_split {xs ys : List (List UInt8)} {c c' : Cursor} (h : Opens C key header (xs ++ ys) c c') :
    ∃ c₁, Opens C key header xs c c₁ ∧ Opens C key header ys c₁ c' := by
  induction xs generalizing c with
  | nil => exact ⟨c, rfl, h⟩
  | cons x xs ih =>
    obtain ⟨c₂, hread, hrest⟩ := h
    obtain ⟨c₁, hxs, hys⟩ := ih hrest
    exact ⟨c₁, ⟨c₂, hread, hxs⟩, hys⟩

/-- Frames hold one thing. -/
theorem opens_unique {xs ys : List (List UInt8)} {c c₁ c₂ : Cursor} (hxs : Opens C key header xs c c₁) (hys : Opens C key header ys c c₂)
    (hlen : xs.length = ys.length) : xs = ys := by
  induction xs generalizing ys c with
  | nil => exact (List.length_eq_zero_iff.mp hlen.symm).symm
  | cons x xs ih =>
    cases ys with
    | nil => cases hlen
    | cons y ys =>
      obtain ⟨c₃, hx, hxs⟩ := hxs
      obtain ⟨c₄, hy, hys⟩ := hys
      obtain ⟨rfl, rfl⟩ := Prod.mk.inj (Except.ok.inj (hx.symm.trans hy))
      rw [ih hxs hys (Nat.succ.inj hlen)]

/-! ## What the reader has read -/

theorem readChunks_opens {name : String} {remaining : Nat} {d d' : Destination} {c c' : Cursor}
    (h : readChunks C key header name remaining d c = (d', .ok c')) :
    ∃ xs, Opens C key header xs c c' ∧ xs.length = pieceCount remaining := by
  induction remaining, d, c using readChunks.induct C key header name with
  | case1 d c =>
    unfold readChunks at h
    rw [dif_pos rfl] at h
    obtain ⟨-, hc⟩ := Prod.mk.inj h
    obtain rfl := Except.ok.inj hc
    exact ⟨[], rfl, pieceCount_zero.symm⟩
  | case2 remaining d c hne e herror =>
    unfold readChunks at h
    rw [dif_neg hne, herror] at h
    cases (Prod.mk.inj h).2
  | case3 remaining d c hne frame c₁ hframe hlen ih =>
    unfold readChunks at h
    rw [dif_neg hne, hframe] at h
    dsimp only at h
    rw [dif_pos hlen] at h
    obtain ⟨xs, hopens, hcount⟩ := ih h
    refine ⟨frame :: xs, ⟨c₁, hframe, hopens⟩, ?_⟩
    rw [List.length_cons, hcount, pieceCount_pos hne, hlen]
  | case4 remaining d c hne frame c₁ hframe hlen =>
    unfold readChunks at h
    rw [dif_neg hne, hframe] at h
    dsimp only at h
    rw [dif_neg hlen] at h
    cases (Prod.mk.inj h).2

/-- The frames of a manifest's files. -/
def frameCount (entries : List Entry) : Nat := (entries.map fun entry => pieceCount entry.size).sum

theorem readEntries_opens {entries : List Entry} {d d' : Destination} {c c' : Cursor}
    (h : readEntries C key header entries d c = (d', .ok c')) :
    ∃ xs, Opens C key header xs c c' ∧ xs.length = frameCount entries := by
  induction entries generalizing d c with
  | nil =>
    obtain ⟨-, hc⟩ := Prod.mk.inj h
    obtain rfl := Except.ok.inj hc
    exact ⟨[], rfl, rfl⟩
  | cons entry entries ih =>
    unfold readEntries at h
    split at h
    · cases (Prod.mk.inj h).2
    · rename_i d₁ hcreate
      split at h
      · cases (Prod.mk.inj h).2
      · rename_i d₂ c₁ hchunks
        obtain ⟨xs, hxs, hcount⟩ := readChunks_opens hchunks
        obtain ⟨ys, hys, hcounts⟩ := ih h
        refine ⟨xs ++ ys, opens_append hxs hys, ?_⟩
        rw [List.length_append, hcount, hcounts, frameCount, frameCount, List.map_cons, List.sum_cons]

/-! ## The manifest -/

theorem validateEntries_eq_ok {entries : List Entry} {seen seen' : List String} {total total' : Nat} (hseen : seen.Nodup)
    (htotal : total ≤ maxTotal) (h : validateEntries entries seen total = .ok (seen', total')) :
    seen' = seen ++ entries.map Entry.name ∧ seen'.Nodup ∧ (∀ entry ∈ entries, validName entry.name = true) ∧
      total' = total + (entries.map Entry.size).sum ∧ total' ≤ maxTotal := by
  induction entries generalizing seen total with
  | nil =>
    obtain ⟨rfl, rfl⟩ := Prod.mk.inj (Except.ok.inj h)
    exact ⟨(List.append_nil _).symm, hseen, fun _ hentry => absurd hentry List.not_mem_nil, rfl, htotal⟩
  | cons entry entries ih =>
    unfold validateEntries at h
    split at h
    · cases h
    · split at h
      · cases h
      · split at h
        · cases h
        · rename_i hvalid
          split at h
          · cases h
          · rename_i hfits
            simp only [Bool.or_eq_true, Bool.not_eq_true', not_or, Bool.not_eq_false, Bool.not_eq_true] at hvalid
            have hfresh : entry.name ∉ seen := by simpa using hvalid.2
            have hnodup : (seen ++ [entry.name]).Nodup := by
              rw [List.nodup_append]
              refine ⟨hseen, List.nodup_singleton _, fun a ha b hb hab => hfresh ?_⟩
              rwa [← List.mem_singleton.mp hb, ← hab]
            obtain ⟨rfl, hnodup', hnames, rfl, hle⟩ := ih hnodup (by omega) h
            refine ⟨by rw [List.map_cons, List.append_assoc]; rfl, hnodup', List.forall_mem_cons.mpr ⟨hvalid.1, hnames⟩, ?_, hle⟩
            rw [List.map_cons, List.sum_cons, Nat.add_assoc]

/-- What a manifest that validates says. -/
theorem validateManifest_ok {manifest : Manifest} (h : validateManifest manifest = .ok ()) :
    (manifest.entries.map Entry.name).Nodup ∧ (∀ entry ∈ manifest.entries, validName entry.name = true) ∧
      (manifest.entries.map Entry.size).sum = manifest.summary.bytes ∧ manifest.summary.bytes ≤ maxTotal ∧
      manifest.entries.length ≤ maxFiles := by
  unfold validateManifest at h
  split at h
  · cases h
  · rename_i hfiles
    obtain ⟨⟨seen, total⟩, hentries, h⟩ := bind_eq_ok.mp h
    dsimp only at h
    split at h
    · cases h
    · rename_i hcomplete
      obtain ⟨rfl, hnodup, hnames, rfl, hle⟩ := validateEntries_eq_ok List.nodup_nil (Nat.zero_le _) hentries
      simp only [not_or, not_not, Nat.zero_add] at hcomplete hle
      exact ⟨hnodup, hnames, hcomplete.1, hcomplete.1 ▸ hle, by omega⟩

/-- An archive has few frames. -/
theorem frameCount_le {manifest : Manifest} (h : validateManifest manifest = .ok ()) : frameCount manifest.entries + 3 ≤ 2 ^ 64 := by
  obtain ⟨-, -, hsum, hle, hfiles⟩ := validateManifest_ok h
  have hall : ∀ entries : List Entry, frameCount entries ≤ (entries.map Entry.size).sum := by
    intro entries
    induction entries with
    | nil => exact Nat.le_refl _
    | cons entry entries ih =>
      rw [frameCount, List.map_cons, List.sum_cons, List.map_cons, List.sum_cons]
      exact Nat.add_le_add (pieceCount_le entry.size) ih
  have hbound := hall manifest.entries
  have hmax : maxTotal + 3 ≤ 2 ^ 64 := by decide
  omega

/-! ## What is extracted -/

/-- The pieces of a file, one after the other. -/
def Extraction.appendAll (x : Extraction) (name : String) (ps : List (List UInt8)) : Extraction := ps.foldl (fun x p => x.append name p) x

def Destination.appendAll (d : Destination) (name : String) (ps : List (List UInt8)) : Destination :=
    ps.foldl (fun d p => d.append name p) d

theorem lookup_append_self (x : Extraction) (name : String) (bytes : List UInt8) :
    (x.append name bytes).files.lookup name = some ((x.files.lookup name).getD [] ++ bytes) := AList.lookup_insert x.files

theorem lookup_append_ne (x : Extraction) {name other : String} (h : other ≠ name) (bytes : List UInt8) :
    (x.append name bytes).files.lookup other = x.files.lookup other := AList.lookup_insert_ne h

theorem lookup_appendAll (x : Extraction) (name : String) (ps : List (List UInt8)) (old : List UInt8)
    (hold : x.files.lookup name = some old) :
    (x.appendAll name ps).files.lookup name = some (old ++ ps.flatten) ∧
      ∀ other, other ≠ name → (x.appendAll name ps).files.lookup other = x.files.lookup other := by
  induction ps generalizing x old with
  | nil => exact ⟨by rw [List.flatten_nil, List.append_nil]; exact hold, fun _ _ => rfl⟩
  | cons p ps ih =>
    have hnext : (x.append name p).files.lookup name = some (old ++ p) := by rw [lookup_append_self, hold, Option.getD_some]
    obtain ⟨hself, hothers⟩ := ih (x.append name p) (old ++ p) hnext
    refine ⟨by rw [List.flatten_cons, ← List.append_assoc]; exact hself, fun other hne => ?_⟩
    exact (hothers other hne).trans (lookup_append_ne x hne p)

theorem createNew_ok {x : Extraction} {name : String} (h : x.files.lookup name = none) :
    ∃ x₁, x.createNew name = (x₁, .ok ()) ∧ x₁.files.lookup name = some [] ∧
      ∀ other, other ≠ name → x₁.files.lookup other = x.files.lookup other := by
  unfold Extraction.createNew
  split
  · rw [if_neg (by rw [h]; simp)]
    exact ⟨_, rfl, AList.lookup_insert x.files, fun other hne => AList.lookup_insert_ne hne⟩
  · rw [if_neg (by rw [h]; simp)]
    exact ⟨_, rfl, AList.lookup_insert x.files, fun other hne => AList.lookup_insert_ne hne⟩

theorem appendAll_extract (x : Extraction) (name : String) (ps : List (List UInt8)) :
    (Destination.extract x).appendAll name ps = .extract (x.appendAll name ps) := by
  induction ps generalizing x with
  | nil => rfl
  | cons p ps ih => exact ih (x.append name p)

theorem appendAll_copy (x : Extraction) (ps : List (List UInt8)) :
    (Destination.verify (some x)).appendAll deviceTrustFile ps = .verify (some (x.appendAll deviceTrustFile ps)) := by
  induction ps generalizing x with
  | nil => rfl
  | cons p ps ih => exact ih (x.append deviceTrustFile p)

theorem appendAll_verify {name : String} {copy : Option Extraction} (h : name ≠ deviceTrustFile ∨ copy = none) (ps : List (List UInt8)) :
    (Destination.verify copy).appendAll name ps = .verify copy := by
  have happend : ∀ p, (Destination.verify copy).append name p = .verify copy := by
    intro p
    unfold Destination.append Destination.target
    rcases h with hne | rfl
    · simp only [if_neg hne]
    · simp only [ite_self]
  induction ps with
  | nil => rfl
  | cons p ps ih =>
    show ((Destination.verify copy).append name p).appendAll name ps = _
    rw [happend, ih]

/-- The loop over an entry's frames, on the pieces of its content. -/
theorem readChunks_pieces {name : String} {content : List UInt8} {d : Destination} {c c' : Cursor}
    (h : Opens C key header (pieces content) c c') :
    readChunks C key header name content.length d c = (d.appendAll name (pieces content), .ok c') := by
  induction content using pieces.induct generalizing d c with
  | case1 =>
    rw [pieces_nil] at h ⊢
    obtain rfl : c' = c := h
    unfold readChunks
    rw [List.length_nil, dif_pos rfl]
    rfl
  | case2 content hne ih =>
    have hlen : content.length ≠ 0 := fun h => hne (List.length_eq_zero_iff.mp h)
    rw [pieces_of_ne_nil hne] at h ⊢
    obtain ⟨c₁, hread, hrest⟩ := h
    have htake : (content.take chunk).length = min content.length chunk := by rw [List.length_take, Nat.min_comm]
    unfold readChunks
    rw [dif_neg hlen, hread]
    dsimp only
    rw [dif_pos htake]
    have hdrop : content.length - (content.take chunk).length = (content.drop chunk).length := by
      rw [htake, List.length_drop]
      omega
    rw [hdrop, ih hrest]
    rfl

/-- Extraction into a directory that holds none of the names. -/
theorem readEntries_extract {entries : List Entry} {contents : List (List UInt8)}
    (hlens : contents.map List.length = entries.map Entry.size)
    (hnames : (entries.map Entry.name).Nodup) {x : Extraction} (hfree : ∀ entry ∈ entries, x.files.lookup entry.name = none)
    {c c' : Cursor} (h : Opens C key header (contents.flatMap pieces) c c') :
    ∃ x', readEntries C key header entries (.extract x) c = (.extract x', .ok c') ∧
      (∀ e ∈ entries.zip contents, x'.files.lookup e.1.name = some e.2) ∧
      ∀ name, name ∉ entries.map Entry.name → x'.files.lookup name = x.files.lookup name := by
  induction entries generalizing contents x c with
  | nil =>
    obtain rfl : contents = [] := List.map_eq_nil_iff.mp hlens
    obtain rfl : c' = c := h
    exact ⟨x, rfl, fun e he => absurd he List.not_mem_nil, fun _ _ => rfl⟩
  | cons entry entries ih =>
    cases contents with
    | nil => cases hlens
    | cons content contents =>
      obtain ⟨hlen, hlens⟩ := List.cons.inj hlens
      rw [List.map_cons, List.nodup_cons] at hnames
      obtain ⟨c₁, hpieces, hrest⟩ := opens_split h
      obtain ⟨x₁, hcreate, hempty, hothers⟩ := createNew_ok (hfree entry List.mem_cons_self)
      obtain ⟨hself, hkept⟩ := lookup_appendAll x₁ entry.name (pieces content) [] hempty
      rw [List.nil_append, flatten_pieces] at hself
      have hfree' : ∀ e ∈ entries, (x₁.appendAll entry.name (pieces content)).files.lookup e.name = none := by
        intro e he
        have hne : e.name ≠ entry.name := fun heq => hnames.1 (heq ▸ List.mem_map_of_mem he)
        rw [hkept _ hne, hothers _ hne]
        exact hfree e (List.mem_cons_of_mem _ he)
      obtain ⟨x', hread, hcontents, hunchanged⟩ := ih hlens hnames.2 hfree' hrest
      refine ⟨x', ?_, ?_, ?_⟩
      · unfold readEntries
        have hcreate' : (Destination.extract x).create entry.name = (.extract x₁, .ok ()) := by
          show (Destination.extract (x.createNew entry.name).1, (x.createNew entry.name).2) = _
          rw [hcreate]
        rw [hcreate']
        dsimp only
        rw [← hlen, readChunks_pieces hpieces, appendAll_extract]
        exact hread
      · intro e he
        rw [List.zip_cons_cons] at he
        rcases List.mem_cons.mp he with rfl | he
        · rw [hunchanged _ hnames.1]
          exact hself
        · exact hcontents e he
      · intro name hname
        rw [List.map_cons, List.mem_cons, not_or] at hname
        rw [hunchanged name hname.2, hkept name hname.1, hothers name hname.1]

/-- The verification keeps a copy of the trust database, where there is one to keep. -/
theorem readEntries_verify {entries : List Entry} {contents : List (List UInt8)} (hlens : contents.map List.length = entries.map Entry.size)
    (hnames : (entries.map Entry.name).Nodup) {copy : Option Extraction}
    (hfree : deviceTrustFile ∈ entries.map Entry.name → ∀ x, copy = some x → x.files.lookup deviceTrustFile = none)
    {c c' : Cursor} (h : Opens C key header (contents.flatMap pieces) c c') :
    ∃ copy', readEntries C key header entries (.verify copy) c = (.verify copy', .ok c') ∧
      (deviceTrustFile ∉ entries.map Entry.name → copy' = copy) ∧
      (copy = none → copy' = none) ∧
      ∀ e ∈ entries.zip contents, e.1.name = deviceTrustFile → ∀ y, copy' = some y → y.files.lookup deviceTrustFile = some e.2 := by
  induction entries generalizing contents copy c with
  | nil =>
    obtain rfl : contents = [] := List.map_eq_nil_iff.mp hlens
    obtain rfl : c' = c := h
    exact ⟨copy, rfl, fun _ => rfl, id, fun e he => absurd he List.not_mem_nil⟩
  | cons entry entries ih =>
    cases contents with
    | nil => cases hlens
    | cons content contents =>
      obtain ⟨hlen, hlens⟩ := List.cons.inj hlens
      rw [List.map_cons, List.nodup_cons] at hnames
      obtain ⟨c₁, hpieces, hrest⟩ := opens_split h
      have hstep : ∀ d₁ : Destination, (Destination.verify copy).create entry.name = (d₁, .ok ()) →
          readEntries C key header (entry :: entries) (.verify copy) c =
            readEntries C key header entries (d₁.appendAll entry.name (pieces content)) c₁ := by
        intro d₁ hcreate
        conv_lhs => unfold readEntries
        rw [hcreate]
        dsimp only
        rw [← hlen, readChunks_pieces hpieces]
      by_cases hkeep : entry.name = deviceTrustFile ∧ copy.isSome = true
      · obtain ⟨htrust, hsome⟩ := hkeep
        obtain ⟨x, rfl⟩ := Option.isSome_iff_exists.mp hsome
        obtain ⟨x₁, hcreate, hempty, -⟩ := createNew_ok (hfree (by rw [List.map_cons, htrust]; exact List.mem_cons_self) x rfl)
        obtain ⟨hself, -⟩ := lookup_appendAll x₁ deviceTrustFile (pieces content) [] hempty
        rw [List.nil_append, flatten_pieces] at hself
        have hcreate' : (Destination.verify (some x)).create entry.name = (.verify (some x₁), .ok ()) := by
          rw [htrust]
          show (Destination.verify (some (x.createNew deviceTrustFile).1), (x.createNew deviceTrustFile).2) = _
          rw [hcreate]
        have hout : deviceTrustFile ∉ entries.map Entry.name := htrust ▸ hnames.1
        have hfree' : deviceTrustFile ∈ entries.map Entry.name → ∀ y, some (x₁.appendAll deviceTrustFile (pieces content)) = some y →
            y.files.lookup deviceTrustFile = none := fun hmem => absurd hmem hout
        obtain ⟨copy', hread, hsame, -, -⟩ := ih hlens hnames.2 hfree' hrest
        obtain rfl := hsame hout
        refine ⟨some (x₁.appendAll deviceTrustFile (pieces content)), ?_, fun hmem => ?_, fun hnone => (by cases hnone), ?_⟩
        · rw [hstep _ hcreate', htrust, appendAll_copy]
          exact hread
        · exact absurd (by rw [List.map_cons, htrust]; exact List.mem_cons_self) hmem
        · intro e he hname y hy
          obtain rfl := Option.some.inj hy
          rw [List.zip_cons_cons] at he
          rcases List.mem_cons.mp he with rfl | he
          · exact hself
          · exact absurd (hname ▸ List.mem_map_of_mem (List.of_mem_zip he).1) hout
      · have hskip : entry.name ≠ deviceTrustFile ∨ copy = none := by
          rw [not_and_or] at hkeep
          exact hkeep.imp id fun hsome => Option.not_isSome_iff_eq_none.mp hsome
        have hcreate : (Destination.verify copy).create entry.name = (.verify copy, .ok ()) := by
          unfold Destination.create Destination.target
          rcases hskip with hne | rfl
          · simp only [if_neg hne]
          · simp only [ite_self]
        obtain ⟨copy', hread, hsame, hnone, hcontent⟩ := ih hlens hnames.2
          (fun hmem => hfree (List.mem_cons_of_mem _ hmem)) hrest
        refine ⟨copy', ?_, fun hout => hsame fun hmem => hout (List.mem_cons_of_mem _ hmem), hnone, ?_⟩
        · rw [hstep _ hcreate, appendAll_verify hskip]
          exact hread
        · intro e he hname y hy
          rw [List.zip_cons_cons] at he
          rcases List.mem_cons.mp he with rfl | he
          · rcases hskip with hne | rfl
            · exact absurd hname hne
            · rw [hnone rfl] at hy
              cases hy
          · exact hcontent e he hname y hy

/-! ## What an extraction may leave -/

/-- From one state of a directory to a later one: only these names are created, none of them was there, files that were there stay,
and at most so many bytes are written. -/
structure Grows (x x' : Extraction) (names : List String) (bound : Nat) : Prop where
  others : ∀ name, name ∉ names → x'.files.lookup name = x.files.lookup name
  kept : ∀ name content, x.files.lookup name = some content → x'.files.lookup name = some content
  created : ∃ new, x'.created = x.created ++ new ∧ ∀ name ∈ new, name ∈ names ∧ x.files.lookup name = none
  written : x'.written ≤ x.written + bound

theorem grows_refl (x : Extraction) (names : List String) (bound : Nat) : Grows x x names bound where
  others _ _ := rfl
  kept _ _ h := h
  created := ⟨[], (List.append_nil _).symm, fun _ h => absurd h List.not_mem_nil⟩
  written := Nat.le_add_right _ _

theorem grows_trans {x y z : Extraction} {ns ms : List String} {m n : Nat} (hxy : Grows x y ns m) (hyz : Grows y z ms n) :
    Grows x z (ns ++ ms) (m + n) where
  others name hname := by
    rw [List.mem_append, not_or] at hname
    exact (hyz.others name hname.2).trans (hxy.others name hname.1)
  kept name content h := hyz.kept name content (hxy.kept name content h)
  created := by
    obtain ⟨new₁, hnew₁, hold₁⟩ := hxy.created
    obtain ⟨new₂, hnew₂, hold₂⟩ := hyz.created
    refine ⟨new₁ ++ new₂, by rw [hnew₂, hnew₁, List.append_assoc], fun name hname => ?_⟩
    rcases List.mem_append.mp hname with h | h
    · exact ⟨List.mem_append_left _ (hold₁ name h).1, (hold₁ name h).2⟩
    · refine ⟨List.mem_append_right _ (hold₂ name h).1, ?_⟩
      cases hx : x.files.lookup name with
      | none => rfl
      | some content => exact absurd (hxy.kept name content hx) (by rw [(hold₂ name h).2]; simp)
  written := by
    have h₁ := hxy.written
    have h₂ := hyz.written
    omega

/-- The loop over an entry's frames writes to its file, and no more than was declared. -/
theorem readChunks_extract (name : String) (remaining : Nat) (x : Extraction) (c : Cursor) :
    ∃ x', (readChunks C key header name remaining (.extract x) c).1 = .extract x' ∧ x'.created = x.created ∧
      (∀ other, other ≠ name → x'.files.lookup other = x.files.lookup other) ∧ x'.written ≤ x.written + remaining := by
  induction remaining using Nat.strong_induction_on generalizing x c with
  | _ remaining ih =>
    unfold readChunks
    split
    · exact ⟨x, rfl, rfl, fun _ _ => rfl, Nat.le_add_right _ _⟩
    · rename_i hne
      cases readFrame C key header c with
      | error e => exact ⟨x, rfl, rfl, fun _ _ => rfl, Nat.le_add_right _ _⟩
      | ok read =>
        obtain ⟨frame, c₁⟩ := read
        dsimp only
        split
        · rename_i hlen
          have hchunk := chunk_pos
          obtain ⟨x', hx', hcreated, hothers, hwritten⟩ := ih (remaining - frame.length) (by omega) (x.append name frame) c₁
          refine ⟨x', hx', hcreated, fun other hne => (hothers other hne).trans (lookup_append_ne x hne frame), ?_⟩
          have happend : (x.append name frame).written = x.written + frame.length := rfl
          omega
        · exact ⟨x, rfl, rfl, fun _ _ => rfl, Nat.le_add_right _ _⟩

theorem readEntries_grows (C : BackupCrypto) (key header : List UInt8) (entries : List Entry) (x : Extraction) (c : Cursor) :
    ∃ x', (readEntries C key header entries (.extract x) c).1 = .extract x' ∧
      Grows x x' (entries.map Entry.name) (entries.map Entry.size).sum := by
  induction entries generalizing x c with
  | nil => exact ⟨x, rfl, grows_refl x _ _⟩
  | cons entry entries ih =>
    have hcreate : (Destination.extract x).create entry.name = (.extract (x.createNew entry.name).1, (x.createNew entry.name).2) := rfl
    unfold readEntries
    rw [hcreate]
    cases hfree : x.files.lookup entry.name with
    | some content =>
      -- the file is there: it is not opened
      have hfails : (x.createNew entry.name).2 = .error .io ∧ (x.createNew entry.name).1.files = x.files ∧
          (x.createNew entry.name).1.created = x.created ∧ (x.createNew entry.name).1.written = x.written := by
        unfold Extraction.createNew
        split <;> rw [if_pos (by rw [hfree]; rfl)] <;> exact ⟨rfl, rfl, rfl, rfl⟩
      rw [hfails.1]
      refine ⟨_, rfl, ⟨fun _ _ => by rw [hfails.2.1], fun _ _ h => by rw [hfails.2.1]; exact h, ⟨[], ?_, ?_⟩, ?_⟩⟩
      · rw [hfails.2.2.1, List.append_nil]
      · exact fun _ h => absurd h List.not_mem_nil
      · rw [hfails.2.2.2]
        exact Nat.le_add_right _ _
    | none =>
      have hnew : ∃ x₁, x.createNew entry.name = (x₁, .ok ()) ∧ x₁.created = x.created ++ [entry.name] ∧ x₁.written = x.written ∧
          ∀ other, other ≠ entry.name → x₁.files.lookup other = x.files.lookup other := by
        unfold Extraction.createNew
        split <;> rw [if_neg (by rw [hfree]; simp)] <;> exact ⟨_, rfl, rfl, rfl, fun other hne => AList.lookup_insert_ne hne⟩
      obtain ⟨x₁, hx₁, hcreated₁, hwritten₁, hothers₁⟩ := hnew
      rw [hx₁]
      dsimp only
      obtain ⟨x₂, hx₂, hcreated₂, hothers₂, hwritten₂⟩ := readChunks_extract (C := C) entry.name entry.size x₁ c
      have hentry : Grows x x₂ [entry.name] entry.size := by
        refine ⟨fun name hname => ?_, fun name content h => ?_, ⟨[entry.name], ?_, fun name hname => ?_⟩, by omega⟩
        · have hne : name ≠ entry.name := fun heq => hname (List.mem_singleton.mpr heq)
          rw [hothers₂ name hne, hothers₁ name hne]
        · have hne : name ≠ entry.name := fun heq => by rw [heq, hfree] at h; cases h
          rw [hothers₂ name hne, hothers₁ name hne, h]
        · rw [hcreated₂, hcreated₁]
        · exact ⟨hname, List.mem_singleton.mp hname ▸ hfree⟩
      split
      · rename_i d e hread
        rw [hread] at hx₂
        obtain rfl : d = .extract x₂ := hx₂
        refine ⟨x₂, rfl, ?_⟩
        have hgrows := grows_trans hentry (grows_refl x₂ (entries.map Entry.name) (entries.map Entry.size).sum)
        rwa [List.singleton_append] at hgrows
      · rename_i d c₁ hread
        rw [hread] at hx₂
        obtain rfl : d = .extract x₂ := hx₂
        obtain ⟨x₃, hx₃, hgrows⟩ := ih x₂ c₁
        have hall := grows_trans hentry hgrows
        rw [List.singleton_append] at hall
        exact ⟨x₃, hx₃, hall⟩

end

end DoubleSlash.Store.Backup
