import DoubleSlash.Lemmas.Backups

/-!
# A backup is all or nothing

What was written reads back, nothing else is accepted, and an extraction creates no file but those a backup may hold.
-/

namespace DoubleSlash.Store.Backup

open Assoc Bytes

/-- A call of `write`, as far as it came: the frames before this one were sealed. -/
structure WriteCall where
  password : List UInt8
  random : List UInt8
  nonces : Nat → List UInt8
  manifest : Manifest
  seed : List UInt8
  contents : List (List UInt8)
  reached : Nat

namespace WriteCall

def header (w : WriteCall) : List UInt8 := magic ++ w.random

/-- A manifest that `capture` has validated, and files of the declared sizes. -/
structure WellFormed (w : WriteCall) : Prop where
  random : w.random.length = 32
  manifest : validateManifest w.manifest = .ok ()
  contents : w.contents.map List.length = w.manifest.entries.map Entry.size

def plain (C : BackupCrypto) (w : WriteCall) : List (List UInt8) := plaintexts C w.manifest w.seed w.contents

/-- What a call that came to its end has written. -/
def archive (C : BackupCrypto) (w : WriteCall) (key : List UInt8) : List UInt8 :=
  w.header ++ sealAll C key w.header w.nonces (w.plain C) 0

end WriteCall

/-- The ideal cipher under the secret keys of a password: what opens was sealed, under that password and with that position. -/
def Unforgeable (C : BackupCrypto) (writes : List WriteCall) (password : List UInt8) : Prop :=
  ∀ header key nonce ciphertext data plaintext, backupKey C password header = .ok key →
    C.aesgcmDecrypt key nonce ciphertext data = some plaintext →
      ∃ w ∈ writes, w.password = password ∧ backupKey C password w.header = .ok key ∧ ∃ i < w.reached, data = aad w.header i ∧
        (w.plain C)[i]? = some plaintext ∧ nonce = w.nonces i ∧ ciphertext = C.aesgcmEncrypt key nonce plaintext data

/-- A name a backup may hold: one of six, or a number under `attachments`. -/
def IsArchiveName (name : String) : Prop :=
  name ∈ fixedNames ∨ ∃ n : List Char, name.toList = "attachments/".toList ++ n ∧ n ≠ [] ∧ n.length ≤ 6 ∧ ∀ c ∈ n, c.isDigit = true

namespace BackupsAux

variable {C : BackupCrypto} {key header : List UInt8} {nonces : Nat → List UInt8}

theorem identityFromSeed_eq_ok {seed identity : List UInt8} :
    identityFromSeed seed = .ok identity ↔ identity = seed ∧ seed.length = 32 := by
  unfold identityFromSeed
  split
  · rename_i hlen
    exact ⟨fun h => ⟨(Except.ok.inj h).symm, hlen⟩, fun h => congrArg Except.ok h.1.symm⟩
  · rename_i hlen
    exact ⟨fun h => (by cases h), fun h => absurd h.2 hlen⟩

/-- What a head that is accepted holds. -/
theorem readHead_eq_ok {bytes password identity : List UInt8} {manifest : Manifest} {c : Cursor} :
    readHead C bytes password = .ok (key, header, manifest, identity, c) ↔
      password.length ≤ 4096 ∧ header.length = 40 ∧ header.take 8 = magic ∧ backupKey C password header = .ok key ∧
        validateManifest manifest = .ok () ∧ identity.length = 32 ∧ C.publicId identity = manifest.summary.publicId ∧
        ∃ input json, bytes = header ++ input ∧ C.manifestFromSlice json = some manifest ∧
          Opens C key header [json, identity] ⟨input, 0⟩ c := by
  unfold readHead
  split
  · rename_i hlong
    exact ⟨fun h => (by cases h), fun h => by omega⟩
  · rename_i hshort
    simp only [bind_eq_ok, Prod.exists, readExact_eq_ok]
    constructor
    · rintro ⟨header', input, ⟨hlen, rfl⟩, h⟩
      split at h
      · cases h
      · rename_i hmagic
        simp only [bind_eq_ok, Prod.exists] at h
        obtain ⟨key', hkey, json, c₁, hjson, h⟩ := h
        split at h
        · cases h
        · rename_i manifest' hmanifest
          simp only [bind_eq_ok, Prod.exists, identityFromSeed_eq_ok] at h
          obtain ⟨u, hvalid, seed, c₂, hseed, identity', ⟨rfl, hseedLen⟩, h⟩ := h
          split at h
          · cases h
          · rename_i hpublic
            obtain ⟨rfl, rfl, rfl, rfl, rfl⟩ : key' = key ∧ header' = header ∧ manifest' = manifest ∧ identity' = identity ∧ c₂ = c := by
              simpa using h
            exact ⟨by omega, hlen, not_not.mp hmagic, hkey, hvalid, hseedLen, not_not.mp hpublic, input, json, rfl, hmanifest,
              c₁, hjson, c₂, hseed, rfl⟩
    · rintro ⟨-, hlen, hmagic, hkey, hvalid, hseedLen, hpublic, input, json, rfl, hmanifest, c₁, hjson, c₂, hseed, rfl⟩
      refine ⟨header, input, ⟨hlen, rfl⟩, ?_⟩
      rw [if_neg (not_not.mpr hmagic)]
      simp only [bind_eq_ok, Prod.exists]
      refine ⟨key, hkey, json, c₁, hjson, ?_⟩
      rw [hmanifest]
      simp only [bind_eq_ok, Prod.exists, identityFromSeed_eq_ok]
      refine ⟨(), hvalid, identity, c, hseed, identity, ⟨rfl, hseedLen⟩, ?_⟩
      rw [if_neg (not_not.mpr hpublic)]

theorem readEnd_eq_ok {c : Cursor} : readEnd C key header c = .ok () ↔ ∃ c', Opens C key header [endMarker] c c' ∧ c'.input = [] := by
  unfold readEnd
  simp only [bind_eq_ok, Prod.exists]
  constructor
  · rintro ⟨marker, c', hread, h⟩
    split at h
    · cases h
    · rename_i hend
      rw [not_or, not_not, not_not] at hend
      obtain ⟨rfl, hempty⟩ := hend
      exact ⟨c', ⟨c', hread, rfl⟩, hempty⟩
  · rintro ⟨c', ⟨c₁, hread, rfl⟩, hempty⟩
    refine ⟨endMarker, c', hread, ?_⟩
    rw [if_neg (by simp [hempty])]

theorem length_plaintexts {manifest : Manifest} {seed : List UInt8} {contents : List (List UInt8)}
    (hlens : contents.map List.length = manifest.entries.map Entry.size) :
    (plaintexts C manifest seed contents).length = frameCount manifest.entries + 3 := by
  have hcount : (contents.flatMap pieces).length = frameCount manifest.entries := by
    rw [List.length_flatMap]
    unfold frameCount
    have hmap : manifest.entries.map (fun entry => pieceCount entry.size) = (manifest.entries.map Entry.size).map pieceCount := by
      rw [List.map_map]
      rfl
    rw [hmap, ← hlens, List.map_map]
    congr 1
    exact List.map_congr_left fun content _ => length_pieces content
  unfold plaintexts
  rw [List.length_cons, List.length_cons, List.length_append, hcount, List.length_singleton]

/-! ## What was written reads back -/

theorem opens_archive (hnonces : ∀ i, (nonces i).length = 12) {manifest : Manifest} {seed : List UInt8} {contents : List (List UInt8)}
    (laws : CipherLaws C key header nonces (plaintexts C manifest seed contents) 0)
    (hjson : (C.manifestToVec manifest).length ≤ chunk) (hseed : seed.length ≤ chunk) :
    ∃ c₁ c₂ c₃, Opens C key header [C.manifestToVec manifest, seed]
        ⟨sealAll C key header nonces (plaintexts C manifest seed contents) 0, 0⟩ c₁ ∧
      Opens C key header (contents.flatMap pieces) c₁ c₂ ∧ Opens C key header [endMarker] c₂ c₃ ∧ c₃.input = [] := by
  have hall : ∀ x ∈ plaintexts C manifest seed contents, x.length ≤ chunk := by
    intro x hx
    unfold plaintexts at hx
    rcases List.mem_cons.mp hx with rfl | hx
    · exact hjson
    · rcases List.mem_cons.mp hx with rfl | hx
      · exact hseed
      · rcases List.mem_append.mp hx with hx | hx
        · obtain ⟨content, -, hpiece⟩ := List.mem_flatMap.mp hx
          exact length_piece hpiece
        · exact List.mem_singleton.mp hx ▸ length_endMarker
  have hopens := opens_sealAll hnonces laws hall []
  rw [List.append_nil] at hopens
  have hsplit : plaintexts C manifest seed contents = [C.manifestToVec manifest, seed] ++ (contents.flatMap pieces ++ [endMarker]) := rfl
  rw [hsplit] at hopens ⊢
  obtain ⟨c₁, hhead, hrest⟩ := opens_split hopens
  obtain ⟨c₂, hbody, hend⟩ := opens_split hrest
  exact ⟨c₁, c₂, _, hhead, hbody, hend, rfl⟩

/-- The read of an archive whose frames open as they should: verified, and extracted. -/
theorem readArchive_of_opens {bytes password seed : List UInt8} {manifest : Manifest} {contents : List (List UInt8)}
    {c₁ c₂ : Cursor} (hhead : readHead C bytes password = .ok (key, header, manifest, seed, c₁))
    (hvalid : validateManifest manifest = .ok ()) (hlens : contents.map List.length = manifest.entries.map Entry.size)
    (hbody : Opens C key header (contents.flatMap pieces) c₁ c₂) (hend : readEnd C key header c₂ = .ok ()) :
    ((∀ e ∈ manifest.entries.zip contents, e.1.name = deviceTrustFile → C.trustValid seed e.2 = true) →
      readArchive C bytes password none = (none, .ok (manifest, seed))) ∧
    ∀ x : Extraction, (∀ entry ∈ manifest.entries, x.files.lookup entry.name = none) →
      ∃ x', readArchive C bytes password (some x) = (some x', .ok (manifest, seed)) ∧
        ∀ e ∈ manifest.entries.zip contents, x'.files.lookup e.1.name = some e.2 := by
  obtain ⟨hnodup, -, -, -, -⟩ := validateManifest_ok hvalid
  refine ⟨fun htrust => ?_, fun x hfree => ?_⟩
  · -- the copy that is verified is there exactly when the trust database is among the files
    have hverify : ∀ copy : Option Extraction, (copy = if manifest.entries.any (fun entry => entry.name = deviceTrustFile) then
        some Extraction.empty else none) → ∃ copy', readEntries C key header manifest.entries (.verify copy) c₁ = (.verify copy', .ok c₂) ∧
          ∀ y, copy' = some y → C.trustValid seed ((y.files.lookup deviceTrustFile).getD []) = true := by
      intro copy hcopy
      have hempty : deviceTrustFile ∈ manifest.entries.map Entry.name → ∀ y, copy = some y → y.files.lookup deviceTrustFile = none := by
        intro _ y hy
        rw [hy] at hcopy
        split at hcopy
        · obtain rfl := Option.some.inj hcopy
          rfl
        · cases hcopy
      obtain ⟨copy', hread, -, hnone, hcontent⟩ := readEntries_verify hlens hnodup hempty hbody
      refine ⟨copy', hread, fun y hy => ?_⟩
      by_cases hhas : manifest.entries.any (fun entry => entry.name = deviceTrustFile) = true
      · obtain ⟨entry, hentry, hname⟩ := List.any_eq_true.mp hhas
        obtain ⟨content, he⟩ : ∃ content, (entry, content) ∈ manifest.entries.zip contents := by
          obtain ⟨i, hi, rfl⟩ := List.mem_iff_getElem.mp hentry
          have hlen : i < contents.length := by
            have h := congrArg List.length hlens
            rw [List.length_map, List.length_map] at h
            omega
          exact ⟨contents[i], List.mem_iff_getElem.mpr ⟨i, by rw [List.length_zip]; omega, List.getElem_zip⟩⟩
        rw [hcontent _ he (of_decide_eq_true hname) y hy, Option.getD_some]
        exact htrust _ he (of_decide_eq_true hname)
      · rw [if_neg hhas] at hcopy
        rw [hnone hcopy] at hy
        cases hy
    obtain ⟨copy', hread, hcopy⟩ := hverify _ rfl
    unfold readArchive
    rw [hhead]
    dsimp only
    rw [hread]
    refine Prod.ext rfl (bind_eq_ok.mpr ⟨c₂, rfl, bind_eq_ok.mpr ⟨(), hend, ?_⟩⟩)
    cases copy' with
    | none => rfl
    | some y => exact if_pos (hcopy y rfl)
  · obtain ⟨x', hread, hcontents, -⟩ := readEntries_extract hlens hnodup hfree hbody
    refine ⟨x', ?_, hcontents⟩
    unfold readArchive
    rw [hhead]
    dsimp only
    rw [hread]
    exact Prod.ext rfl (bind_eq_ok.mpr ⟨c₂, rfl, bind_eq_ok.mpr ⟨(), hend, rfl⟩⟩)

/-! ## What is accepted was written -/

/-- What a read that is accepted has read. -/
theorem opens_of_readArchive {bytes password identity : List UInt8} {manifest : Manifest} {destination : Option Extraction}
    (h : (readArchive C bytes password destination).2 = .ok (manifest, identity)) :
    ∃ key header input xs c, header.length = 40 ∧ header.take 8 = magic ∧ backupKey C password header = .ok key ∧
      validateManifest manifest = .ok () ∧ bytes = header ++ input ∧ Opens C key header xs ⟨input, 0⟩ c ∧ c.input = [] ∧
      xs.length = frameCount manifest.entries + 3 ∧ (∃ json, xs[0]? = some json ∧ C.manifestFromSlice json = some manifest) ∧
      xs[1]? = some identity := by
  unfold readArchive at h
  split at h
  · cases h
  · rename_i key header manifest' identity' c₁ hhead
    obtain ⟨-, hlen, hmagic, hkey, hvalid, -, -, input, json, rfl, hjson, hopens⟩ := readHead_eq_ok.mp hhead
    have hfinish : ∀ {d d' : Destination} {c₂ : Cursor}, readEntries C key header manifest'.entries d c₁ = (d', .ok c₂) →
        readEnd C key header c₂ = .ok () → manifest' = manifest → identity' = identity →
        ∃ key header' input' xs c, header'.length = 40 ∧ header'.take 8 = magic ∧ backupKey C password header' = .ok key ∧
          validateManifest manifest = .ok () ∧ header ++ input = header' ++ input' ∧ Opens C key header' xs ⟨input', 0⟩ c ∧ c.input = [] ∧
          xs.length = frameCount manifest.entries + 3 ∧ (∃ json, xs[0]? = some json ∧ C.manifestFromSlice json = some manifest) ∧
          xs[1]? = some identity := by
      intro d d' c₂ hentries hend hm hi
      subst hm hi
      obtain ⟨ys, hys, hcount⟩ := readEntries_opens hentries
      obtain ⟨c₃, hmarker, hempty⟩ := readEnd_eq_ok.mp hend
      refine ⟨key, header, input, [json, identity'] ++ (ys ++ [endMarker]), c₃, hlen, hmagic, hkey, hvalid, rfl,
        opens_append hopens (opens_append hys hmarker), hempty, ?_, ⟨json, rfl, hjson⟩, rfl⟩
      rw [List.length_append, List.length_append, hcount]
      show 2 + (frameCount manifest'.entries + 1) = _
      omega
    dsimp only at h
    split at h
    · rename_i x result hread
      obtain ⟨c₂, rfl, htail⟩ := bind_eq_ok.mp h
      obtain ⟨_, hend, hdone⟩ := bind_eq_ok.mp htail
      obtain ⟨rfl, rfl⟩ := Prod.mk.inj (Except.ok.inj hdone)
      exact hfinish hread hend rfl rfl
    · rename_i copy result hread
      obtain ⟨c₂, rfl, htail⟩ := bind_eq_ok.mp h
      obtain ⟨_, hend, hdone⟩ := bind_eq_ok.mp htail
      have hsame : manifest' = manifest ∧ identity' = identity := by
        split at hdone
        · exact Prod.mk.inj (Except.ok.inj hdone)
        · split at hdone
          · exact Prod.mk.inj (Except.ok.inj hdone)
          · cases hdone
      exact hfinish hread hend hsame.1 hsame.2

theorem aad_inj {header header' : List UInt8} {i j : Nat} (hlen : header.length = header'.length) (hi : i < 2 ^ 64) (hj : j < 2 ^ 64)
    (h : aad header i = aad header' j) : header = header' ∧ i = j := by
  obtain ⟨hheader, hindex⟩ := List.append_inj h hlen
  exact ⟨hheader, beBytes_inj (w := 8) (by simpa using hi) (by simpa using hj) hindex⟩

theorem length_header {w : WriteCall} (hw : w.WellFormed) : w.header.length = 40 := by
  unfold WriteCall.header
  rw [List.length_append, hw.random]
  rfl

theorem length_plain {w : WriteCall} (hw : w.WellFormed) : (w.plain C).length = frameCount w.manifest.entries + 3 :=
  length_plaintexts hw.contents

/-- A frame that opens is one of the frames that a call with this header sealed, at its place. -/
theorem sealed_of_opens {writes : List WriteCall} {password : List UInt8} (hwrites : ∀ w ∈ writes, w.WellFormed)
    (hunforgeable : Unforgeable C writes password) (hlen : header.length = 40) (hkey : backupKey C password header = .ok key) {index : Nat}
    (hindex : index < 2 ^ 64) {nonce ciphertext plaintext : List UInt8}
    (hopen : C.aesgcmDecrypt key nonce ciphertext (aad header index) = some plaintext) :
    ∃ w ∈ writes, w.password = password ∧ w.header = header ∧ ((w.plain C).take w.reached)[index]? = some plaintext ∧
      nonce = w.nonces index ∧ ciphertext = C.aesgcmEncrypt key nonce plaintext (aad header index) := by
  obtain ⟨w, hw, hpassword, -, i, hreached, hdata, hplain, hnonce, hciphertext⟩ :=
    hunforgeable header key nonce ciphertext (aad header index) plaintext hkey hopen
  have hi : i < 2 ^ 64 := by
    have hlt := (List.getElem?_eq_some_iff.mp hplain).1
    have hcount := frameCount_le (hwrites w hw).manifest
    rw [length_plain (hwrites w hw)] at hlt
    omega
  obtain ⟨hheader, rfl⟩ := aad_inj (hlen.trans (length_header (hwrites w hw)).symm) hindex hi hdata
  exact ⟨w, hw, hpassword, hheader.symm, by rw [List.getElem?_take_of_lt hreached, hplain], hnonce, hciphertext⟩

/-- **What is accepted was written in full.** -/
theorem written_of_accepted {writes : List WriteCall} {password : List UInt8} (hwrites : ∀ w ∈ writes, w.WellFormed)
    (hjson : ∀ w ∈ writes, C.manifestFromSlice (C.manifestToVec w.manifest) = some w.manifest)
    (hheaders : (writes.map WriteCall.header).Nodup) (hunforgeable : Unforgeable C writes password) {bytes identity : List UInt8}
    {manifest : Manifest} {destination : Option Extraction}
    (h : (readArchive C bytes password destination).2 = .ok (manifest, identity)) :
    ∃ w ∈ writes, w.password = password ∧ (w.plain C).length ≤ w.reached ∧ manifest = w.manifest ∧ identity = w.seed ∧
      ∃ key, backupKey C password w.header = .ok key ∧ bytes = w.archive C key := by
  obtain ⟨key, header, input, xs, c, hlen, hmagic, hkey, hvalid, rfl, hopens, hempty, hcount, ⟨json, hfirst, hmanifest⟩, hsecond⟩ :=
    opens_of_readArchive h
  have hbound := frameCount_le hvalid
  -- the first frame names the call
  obtain ⟨w, hw, hpassword, hheader⟩ : ∃ w ∈ writes, w.password = password ∧ w.header = header := by
    cases xs with
    | nil => cases hfirst
    | cons x xs =>
      obtain ⟨c₁, hread, -⟩ := hopens
      obtain ⟨nonce, ciphertext, -, -, -, -, -, hopen⟩ := readFrame_eq_ok.mp hread
      obtain ⟨w, hw, hpassword, hheader, -⟩ := sealed_of_opens hwrites hunforgeable hlen hkey (by decide : 0 < 2 ^ 64) hopen
      exact ⟨w, hw, hpassword, hheader⟩
  have honly : ∀ index < frameCount manifest.entries + 3, ∀ nonce ciphertext plaintext,
      C.aesgcmDecrypt key nonce ciphertext (aad header index) = some plaintext →
        ((w.plain C).take w.reached)[index]? = some plaintext ∧ nonce = w.nonces index ∧
          ciphertext = C.aesgcmEncrypt key nonce plaintext (aad header index) := by
    intro index hindex nonce ciphertext plaintext hopen
    obtain ⟨w', hw', -, hheader', hplain⟩ := sealed_of_opens hwrites hunforgeable hlen hkey (by omega) hopen
    obtain rfl : w' = w := List.inj_on_of_nodup_map hheaders hw' hw (hheader'.trans hheader.symm)
    exact hplain
  obtain ⟨hinput, -, hget⟩ := sealAll_of_opens honly hopens (by rw [hcount, Nat.zero_add])
  simp only [Nat.zero_add] at hget
  have hmanifest' : manifest = w.manifest := by
    have h0 := hget 0 (by omega)
    rw [hfirst] at h0
    have hw0 : (w.plain C)[0]? = some json := by
      by_cases hreached : 0 < w.reached
      · rw [List.getElem?_take_of_lt hreached] at h0
        exact h0.symm
      · rw [Nat.eq_zero_of_not_pos hreached, List.take_zero, List.getElem?_nil] at h0
        cases h0
    obtain rfl : C.manifestToVec w.manifest = json := Option.some.inj hw0
    exact Option.some.inj (hmanifest.symm.trans (hjson w hw))
  subst hmanifest'
  have hlength : xs.length = (w.plain C).length := by rw [hcount, length_plain (hwrites w hw)]
  have hreached : (w.plain C).length ≤ w.reached := by
    have hlast := hget (xs.length - 1) (by omega)
    rw [List.getElem?_eq_getElem (by omega : xs.length - 1 < xs.length)] at hlast
    have hlt := (List.getElem?_eq_some_iff.mp hlast.symm).1
    rw [List.length_take] at hlt
    omega
  rw [List.take_of_length_le hreached] at hget
  obtain rfl : xs = w.plain C := by
    refine List.ext_getElem? fun i => ?_
    by_cases hi : i < xs.length
    · exact hget i hi
    · rw [List.getElem?_eq_none (by omega), List.getElem?_eq_none (by omega)]
  refine ⟨w, hw, hpassword, hreached, rfl, (Option.some.inj hsecond).symm, key, hheader ▸ hkey, ?_⟩
  rw [hempty, List.append_nil] at hinput
  rw [WriteCall.archive, hheader]
  exact congrArg (header ++ ·) hinput

theorem isArchiveName_of_valid {name : String} (h : validName name = true) : IsArchiveName name := by
  unfold validName at h
  rcases (Bool.or_eq_true _ _).mp h with hfixed | hnumber
  · exact Or.inl (List.contains_iff_mem.mp hfixed)
  · obtain ⟨n, hn, hdigits⟩ := (Option.any_eq_true _ _).mp hnumber
    unfold attachmentNumber at hn
    split at hn
    · rename_i hfront
      obtain rfl := Option.some.inj hn
      obtain ⟨t, ht⟩ := List.isPrefixOf_iff_prefix.mp hfront
      have hdrop : name.toList.drop "attachments/".length = t := by
        rw [← ht]
        exact List.drop_left
      rw [hdrop] at hdigits
      unfold isNumberName at hdigits
      simp only [Bool.and_eq_true, Bool.not_eq_true', decide_eq_true_eq, List.all_eq_true] at hdigits
      exact Or.inr ⟨t, ht.symm, fun hnil => by rw [hnil] at hdigits; exact Bool.noConfusion hdigits.1.1, hdigits.1.2, hdigits.2⟩
    · cases hn

/-- The archive that `write` puts out reads back. -/
theorem reads_back {password random : List UInt8} (hpassword : password.length ≤ 4096) (hrandom : random.length = 32)
    (hnonces : ∀ i, (nonces i).length = 12) {manifest : Manifest} (hvalid : validateManifest manifest = .ok ())
    (hjson : C.manifestFromSlice (C.manifestToVec manifest) = some manifest) {seed : List UInt8}
    (hseed : seed.length = 32) (hpublic : C.publicId seed = manifest.summary.publicId) {contents : List (List UInt8)}
    (hlens : contents.map List.length = manifest.entries.map Entry.size) (hsize : (C.manifestToVec manifest).length ≤ chunk)
    (hkey : backupKey C password (magic ++ random) = .ok key)
    (laws : CipherLaws C key (magic ++ random) nonces (plaintexts C manifest seed contents) 0) :
    ((∀ e ∈ manifest.entries.zip contents, e.1.name = deviceTrustFile → C.trustValid seed e.2 = true) →
      readArchive C (magic ++ random ++ sealAll C key (magic ++ random) nonces (plaintexts C manifest seed contents) 0) password none =
        (none, .ok (manifest, seed))) ∧
    ∀ x : Extraction, (∀ entry ∈ manifest.entries, x.files.lookup entry.name = none) →
      ∃ x', readArchive C (magic ++ random ++ sealAll C key (magic ++ random) nonces (plaintexts C manifest seed contents) 0) password
          (some x) = (some x', .ok (manifest, seed)) ∧ ∀ e ∈ manifest.entries.zip contents, x'.files.lookup e.1.name = some e.2 := by
  have hseedLe : seed.length ≤ chunk := by
    rw [hseed]
    unfold chunk
    decide
  obtain ⟨c₁, c₂, c₃, hhead, hbody, hend, hempty⟩ :=
    opens_archive hnonces laws hsize hseedLe
  refine readArchive_of_opens (readHead_eq_ok.mpr ⟨hpassword, ?_, ?_, hkey, hvalid, hseed, hpublic, _, _, rfl, hjson, hhead⟩)
    hvalid hlens hbody (readEnd_eq_ok.mpr ⟨c₃, hend, hempty⟩)
  · rw [List.length_append, hrandom]
    rfl
  · exact List.take_left' rfl

end BackupsAux

section

open BackupsAux

variable (C : BackupCrypto)

/-- **A backup is all or nothing.** Every manifest that validates, with files of the declared sizes, is written (while its JSON fits a
frame). What `write` has put out reads back as exactly the manifest, the identity and the contents. With the ideal cipher, whatever is
accepted under a password is the archive of a call that wrote it in full under that password. And whatever is read, an extraction
creates only names that a backup may hold, where no file was, leaves the files that were there, and writes no more than the
manifest declares. -/
theorem backup_all_or_nothing :
    (∀ password random nonces manifest seed contents key, checkPassword password = .ok () → random.length = 32 →
      (∀ i, (nonces i : List UInt8).length = 12) → validateManifest manifest = .ok () →
      C.manifestFromSlice (C.manifestToVec manifest) = some manifest → seed.length = 32 →
      C.publicId seed = manifest.summary.publicId → contents.map List.length = manifest.entries.map Entry.size →
      (C.manifestToVec manifest).length ≤ chunk → backupKey C password (magic ++ random) = .ok key →
      CipherLaws C key (magic ++ random) nonces (plaintexts C manifest seed contents) 0 →
      (∀ e ∈ manifest.entries.zip contents, e.1.name = deviceTrustFile → C.trustValid seed e.2 = true) →
        ∃ bytes, write C password random nonces manifest seed (contents.map fun content => some ⟨content, false⟩) false =
          .ok (bytes, manifest.summary)) ∧
    (∀ password random nonces manifest seed sources occupied bytes summary, random.length = 32 →
      (∀ i, (nonces i : List UInt8).length = 12) → validateManifest manifest = .ok () →
      C.manifestFromSlice (C.manifestToVec manifest) = some manifest → sources.length = manifest.entries.length →
      (∀ (key : List UInt8) (contents : List (List UInt8)), backupKey C password (magic ++ random) = .ok key →
        sources = contents.map (fun content => some ⟨content, false⟩) →
          CipherLaws C key (magic ++ random) nonces (plaintexts C manifest seed contents) 0) →
      write C password random nonces manifest seed sources occupied = .ok (bytes, summary) →
        summary = manifest.summary ∧ ∃ contents : List (List UInt8), sources = contents.map (fun content => some ⟨content, false⟩) ∧
          contents.map List.length = manifest.entries.map Entry.size ∧
          (readArchive C bytes password none).2 = .ok (manifest, seed) ∧
          ∀ x : Extraction, (∀ entry ∈ manifest.entries, x.files.lookup entry.name = none) →
            ∃ x', readArchive C bytes password (some x) = (some x', .ok (manifest, seed)) ∧
              ∀ e ∈ manifest.entries.zip contents, x'.files.lookup e.1.name = some e.2) ∧
    (∀ writes password, (∀ w ∈ writes, w.WellFormed) →
      (∀ w ∈ writes, C.manifestFromSlice (C.manifestToVec w.manifest) = some w.manifest) →
        (writes.map WriteCall.header).Nodup → Unforgeable C writes password →
      ∀ bytes destination manifest identity, (readArchive C bytes password destination).2 = .ok (manifest, identity) →
        ∃ w ∈ writes, w.password = password ∧ (w.plain C).length ≤ w.reached ∧ manifest = w.manifest ∧ identity = w.seed ∧
          ∃ key, backupKey C password w.header = .ok key ∧ bytes = w.archive C key) ∧
    (∀ bytes password x, ∃ x', (readArchive C bytes password (some x)).1 = some x' ∧
      (x' = x ∨ ∃ key header manifest identity c, readHead C bytes password = .ok (key, header, manifest, identity, c) ∧
        Grows x x' (manifest.entries.map Entry.name) manifest.summary.bytes ∧
        ∀ entry ∈ manifest.entries, IsArchiveName entry.name)) := by
  refine ⟨?_, ?_, ?_, ?_⟩
  · intro password random nonces manifest seed contents key hcheck hrandom hnonces hvalid hjson hseed hpublic hlens hsize hkey laws htrust
    have hpassword : password.length ≤ 4096 := by
      unfold checkPassword at hcheck
      split at hcheck
      · cases hcheck
      · omega
    have hseedLe : seed.length ≤ chunk := by
      rw [hseed]
      unfold chunk
      decide
    have hzip : (manifest.entries.zip (contents.map fun content => some (SourceFile.mk content false))).map Prod.snd =
        contents.map (fun content => some ⟨content, false⟩) ∧
        contents.map List.length =
          (manifest.entries.zip (contents.map fun content => some (SourceFile.mk content false))).map (fun e => e.1.size) := by
      have hlen := congrArg List.length hlens
      rw [List.length_map, List.length_map] at hlen
      refine ⟨List.map_snd_zip (by rw [List.length_map]; omega), ?_⟩
      rw [hlens]
      have hfst : ((manifest.entries.zip (contents.map fun content => some (SourceFile.mk content false))).map Prod.fst) =
        manifest.entries :=
        List.map_fst_zip (by rw [List.length_map]; omega)
      conv_lhs => rw [← hfst, List.map_map]
      rfl
    refine ⟨_, bind_eq_ok.mpr ⟨(), hcheck, bind_eq_ok.mpr ⟨_, writeArchive_eq_ok.mpr
      ⟨key, contents, hkey, hsize, hseedLe, hzip.1, hzip.2, rfl⟩, bind_eq_ok.mpr ⟨(manifest, seed), ?_, rfl⟩⟩⟩⟩
    rw [(reads_back hpassword hrandom hnonces hvalid hjson hseed hpublic hlens hsize hkey laws).1 htrust]
  · intro password random nonces manifest seed sources occupied bytes summary hrandom hnonces hvalid hjson hcount laws h
    obtain ⟨_, -, h⟩ := bind_eq_ok.mp h
    obtain ⟨archive, harchive, h⟩ := bind_eq_ok.mp h
    obtain ⟨⟨manifest', identity⟩, hverified, h⟩ := bind_eq_ok.mp h
    obtain ⟨rfl, rfl⟩ : archive = bytes ∧ manifest.summary = summary := by
      split at h
      · cases h
      · exact Prod.mk.inj (Except.ok.inj h)
    obtain ⟨key, contents, hkey, hsize, hseedLe, hfiles, hlens, rfl⟩ := writeArchive_eq_ok.mp harchive
    rw [List.map_snd_zip (by omega)] at hfiles
    have hsizes : contents.map List.length = manifest.entries.map Entry.size := by
      have hfst : ((manifest.entries.zip sources).map Prod.fst) = manifest.entries := List.map_fst_zip (by omega)
      rw [hlens]
      conv_rhs => rw [← hfst, List.map_map]
      rfl
    -- the verification has read the manifest and the identity that were written
    obtain ⟨c₁, -, -, hopens, -, -, -⟩ := opens_archive hnonces (laws key contents hkey hfiles) hsize hseedLe
    obtain ⟨hpassword, hseed, hpublic, rfl, rfl⟩ : password.length ≤ 4096 ∧ seed.length = 32 ∧
        C.publicId seed = manifest.summary.publicId ∧ manifest = manifest' ∧ seed = identity := by
      have hread := hverified
      unfold readArchive at hread
      split at hread
      · cases hread
      · rename_i key' header' read seed' c hhead
        obtain ⟨hpassword, hheader, -, hkey', -, hseed, hpublic, input, json, hbytes, hmanifest, hopens'⟩ := readHead_eq_ok.mp hhead
        obtain ⟨rfl, rfl⟩ := List.append_inj hbytes.symm (by rw [hheader, List.length_append, hrandom]; rfl)
        obtain rfl : key' = key := Except.ok.inj (hkey'.symm.trans hkey)
        obtain ⟨rfl, hsame⟩ := List.cons.inj (opens_unique hopens' hopens rfl)
        obtain ⟨rfl, -⟩ := List.cons.inj hsame
        obtain rfl : manifest = read := Option.some.inj (hjson.symm.trans hmanifest)
        have hresult : ∀ {destination : Option Extraction}, (readArchive C (magic ++ random ++
            sealAll C key' (magic ++ random) nonces (plaintexts C manifest seed' contents) 0) password destination).2 =
              .ok (manifest', identity) → manifest = manifest' ∧ seed' = identity := by
          intro destination hok
          unfold readArchive at hok
          rw [hhead] at hok
          dsimp only at hok
          split at hok
          · obtain ⟨_, -, hok⟩ := bind_eq_ok.mp hok
            obtain ⟨_, -, hok⟩ := bind_eq_ok.mp hok
            exact Prod.mk.inj (Except.ok.inj hok)
          · obtain ⟨_, -, hok⟩ := bind_eq_ok.mp hok
            obtain ⟨_, -, hok⟩ := bind_eq_ok.mp hok
            split at hok
            · exact Prod.mk.inj (Except.ok.inj hok)
            · split at hok
              · exact Prod.mk.inj (Except.ok.inj hok)
              · cases hok
        obtain ⟨hm, hi⟩ := hresult hverified
        exact ⟨hpassword, hseed, hpublic, hm, hi⟩
    exact ⟨rfl, contents, hfiles, hsizes, hverified,
      (reads_back hpassword hrandom hnonces hvalid hjson hseed hpublic hsizes hsize hkey (laws key contents hkey hfiles)).2⟩
  · intro writes password hwrites hjson hheaders hunforgeable bytes destination manifest identity h
    exact written_of_accepted hwrites hjson hheaders hunforgeable h
  · intro bytes password x
    unfold readArchive
    split
    · exact ⟨x, rfl, Or.inl rfl⟩
    · rename_i key header manifest identity c hhead
      obtain ⟨-, -, -, -, hvalid, -, -, -⟩ := readHead_eq_ok.mp hhead
      obtain ⟨-, hnames, hsum, -, -⟩ := validateManifest_ok hvalid
      obtain ⟨x', hx', hgrows⟩ := readEntries_grows C key header manifest.entries x c
      rw [hsum] at hgrows
      refine ⟨x', ?_, Or.inr ⟨key, header, manifest, identity, c, hhead, hgrows,
        fun entry hentry => isArchiveName_of_valid (hnames entry hentry)⟩⟩
      dsimp only
      split
      · rename_i y result hread
        rw [hread] at hx'
        exact congrArg some (Destination.extract.inj hx')
      · rename_i copy result hread
        rw [hread] at hx'
        cases hx'

end

/-! ## One backup -/

namespace BackupsAux

def smallManifest : Manifest where
  summary := { publicId := "me", createdAt := 0, files := 3, bytes := 3, messages := 0, attachments := 0, missingAttachments := 0,
               includesAttachments := false }
  entries := [⟨"peers.dat", 1⟩, ⟨"my_rooms.dat", 1⟩, ⟨"chat_history.db", 1⟩]

def smallCall : WriteCall where
  password := List.replicate 12 1
  random := List.replicate 32 2
  nonces i := List.replicate 12 (UInt8.ofNat i)
  manifest := smallManifest
  seed := List.replicate 32 3
  contents := [[4], [5], [6]]
  reached := 6

def smallPlain : List (List UInt8) := [[1], List.replicate 32 3, [4], [5], [6], endMarker]

/-- A frame opens exactly if it is one of the call's. -/
def smallOpens (key nonce ciphertext data : List UInt8) (e : List UInt8 × Nat) : Bool :=
  decide (key = [7] ∧ nonce = smallCall.nonces e.2 ∧ ciphertext = e.1 ++ List.replicate 16 0 ∧ data = aad smallCall.header e.2)

theorem of_smallOpens {key nonce ciphertext data : List UInt8} {e : List UInt8 × Nat} (h : smallOpens key nonce ciphertext data e = true) :
    key = [7] ∧ nonce = smallCall.nonces e.2 ∧ ciphertext = e.1 ++ List.replicate 16 0 ∧ data = aad smallCall.header e.2 :=
  of_decide_eq_true h

def smallCrypto : BackupCrypto where
  argon2id _ _ := some [7]
  aesgcmEncrypt _ _ plaintext _ := plaintext ++ List.replicate 16 0
  aesgcmDecrypt key nonce ciphertext data := (smallPlain.zipIdx.find? (smallOpens key nonce ciphertext data)).map Prod.fst
  manifestToVec _ := [1]
  manifestFromSlice _ := some smallManifest
  publicId _ := "me"
  trustValid _ _ := true

theorem pieces_of_le {content : List UInt8} (hne : content ≠ []) (hle : content.length ≤ chunk) : pieces content = [content] := by
  rw [pieces_of_ne_nil hne, List.take_of_length_le hle, List.drop_of_length_le hle, pieces_nil]

theorem plain_small : smallCall.plain smallCrypto = smallPlain := by
  have hchunk := chunk_pos
  have hone : ∀ b : UInt8, pieces [b] = [[b]] := fun b => pieces_of_le (List.cons_ne_nil b []) hchunk
  unfold WriteCall.plain plaintexts smallCall
  simp only [List.flatMap_cons, List.flatMap_nil, hone]
  rfl

theorem cipherLaws_small : CipherLaws smallCrypto [7] smallCall.header smallCall.nonces (smallCall.plain smallCrypto) 0 := by
  rw [plain_small]
  refine ⟨fun i x hx => ?_, fun i x _ => by simp [smallCrypto]⟩
  rw [Nat.zero_add]
  show (smallPlain.zipIdx.find? (smallOpens [7] (smallCall.nonces i) (x ++ List.replicate 16 0) (aad smallCall.header i))).map Prod.fst = some x
  cases hfind : smallPlain.zipIdx.find? (smallOpens [7] (smallCall.nonces i) (x ++ List.replicate 16 0) (aad smallCall.header i)) with
  | none =>
    have hno := List.find?_eq_none.mp hfind (x, i) (List.mk_mem_zipIdx_iff_getElem?.mpr hx)
    exact absurd (by simp [smallOpens]) hno
  | some e =>
    have he := of_smallOpens (List.find?_some hfind)
    rw [Option.map_some, List.append_cancel_right he.2.2.1]

theorem unforgeable_small : Unforgeable smallCrypto [smallCall] smallCall.password := by
  intro header key nonce ciphertext data plaintext hkey hopen
  obtain rfl : [7] = key := Except.ok.inj hkey
  obtain ⟨e, hfind, rfl⟩ := Option.map_eq_some_iff.mp hopen
  have hmem := List.mem_of_find?_eq_some hfind
  obtain ⟨-, hnonce, hciphertext, hdata⟩ := of_smallOpens (List.find?_some hfind)
  have hplain : smallPlain[e.2]? = some e.1 := List.mk_mem_zipIdx_iff_getElem?.mp hmem
  refine ⟨smallCall, List.mem_singleton.mpr rfl, rfl, rfl, e.2, (List.getElem?_eq_some_iff.mp hplain).1, hdata, ?_, hnonce, hciphertext⟩
  rw [plain_small]
  exact hplain

theorem validate_small : validateManifest smallManifest = .ok () := by
  have hcheck : (validateManifest smallManifest).isOk = true := by decide +kernel
  cases h : validateManifest smallManifest with
  | ok u => rfl
  | error e =>
    rw [h] at hcheck
    cases hcheck

end BackupsAux

open BackupsAux in
/-- One backup is written, and nothing else is accepted under its password. -/
theorem backup_all_or_nothing_small :
    (∃ bytes, write smallCrypto smallCall.password smallCall.random smallCall.nonces smallManifest smallCall.seed
      (smallCall.contents.map fun content => some ⟨content, false⟩) false = .ok (bytes, smallManifest.summary)) ∧
    ∀ bytes destination manifest identity, (readArchive smallCrypto bytes smallCall.password destination).2 = .ok (manifest, identity) →
      bytes = smallCall.archive smallCrypto [7] := by
  have hnonces : ∀ i, (smallCall.nonces i).length = 12 := fun _ => List.length_replicate
  have hrandom : smallCall.random.length = 32 := List.length_replicate
  have hsizes : smallCall.contents.map List.length = smallManifest.entries.map Entry.size := rfl
  refine ⟨(backup_all_or_nothing smallCrypto).1 smallCall.password smallCall.random smallCall.nonces smallManifest smallCall.seed
    smallCall.contents [7] rfl hrandom hnonces validate_small rfl List.length_replicate rfl hsizes chunk_pos rfl cipherLaws_small
    fun _ _ _ => rfl, fun bytes destination manifest identity h => ?_⟩
  obtain ⟨w, hw, -, -, -, -, key, hkey, hbytes⟩ := (backup_all_or_nothing smallCrypto).2.2.1 [smallCall] smallCall.password
    (fun w hw => List.mem_singleton.mp hw ▸ ⟨hrandom, validate_small, hsizes⟩) (fun w hw => List.mem_singleton.mp hw ▸ rfl)
    (List.nodup_singleton _) unforgeable_small bytes destination manifest identity h
  obtain rfl := List.mem_singleton.mp hw
  obtain rfl : [7] = key := Except.ok.inj hkey
  exact hbytes

end DoubleSlash.Store.Backup
