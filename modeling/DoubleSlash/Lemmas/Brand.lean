import DoubleSlash.Features.Brand
import DoubleSlash.Lib.UnixPath

/-!
# What the search for a link finds

One lemma for each loop: the occurrences of a form, the sorted starts, and the first start that is accepted. No slice panics.
-/

namespace DoubleSlash.Brand

open Text

/-! ## Reducing a link -/

theorem sliceFrom_of_prefix {s r p : List Char} {n : Nat} (h : sliceFrom s n = some r) (hp : p <+: r) :
    ∃ r', r = p ++ r' ∧ sliceFrom s (n + byteLen p) = some r' := by
  obtain ⟨a, rfl, rfl⟩ := sliceFrom_eq_some_iff.mp h
  obtain ⟨r', rfl⟩ := hp
  refine ⟨r', rfl, ?_⟩
  rw [← byteLen_append, ← List.append_assoc]
  exact sliceFrom_append _ _

/-- Going on over a prefix, where it is there, stays at a character. -/
theorem sliceFrom_skip {s r : List Char} {n : Nat} (h : sliceFrom s n = some r) (p : List Char) :
    ∃ r', sliceFrom s (if p <+: r then n + byteLen p else n) = some r' := by
  by_cases hp : p <+: r
  · obtain ⟨r', -, hr'⟩ := sliceFrom_of_prefix h hp
    exact ⟨r', by rw [if_pos hp, hr']⟩
  · exact ⟨r, by rw [if_neg hp, h]⟩

theorem stripHttpsInvite_total (url : List Char) : ∃ v, stripHttpsInvite url = some v := by
  have hzero := sliceFrom_zero (url.map asciiLower)
  obtain ⟨r₁, hr₁⟩ : ∃ r, sliceFrom (url.map asciiLower)
      (if "https://".toList <+: url.map asciiLower then 8 else if "http://".toList <+: url.map asciiLower then 7 else 0) = some r := by
    by_cases hhttps : "https://".toList <+: url.map asciiLower
    · obtain ⟨r, -, hr⟩ := sliceFrom_of_prefix hzero hhttps
      exact ⟨r, by rw [if_pos hhttps]; exact hr⟩
    · rw [if_neg hhttps]
      exact sliceFrom_skip hzero "http://".toList
  unfold stripHttpsInvite
  simp only
  generalize (if "https://".toList <+: url.map asciiLower then 8 else if "http://".toList <+: url.map asciiLower then 7 else 0) = off
    at hr₁ ⊢
  by_cases hoff : off = 0
  · exact ⟨none, if_pos hoff⟩
  · rw [if_neg hoff, hr₁, Option.bind_eq_bind, Option.bind_some]
    obtain ⟨r₂, hr₂⟩ := sliceFrom_skip hr₁ "www.".toList
    rw [show byteLen "www.".toList = 4 from rfl] at hr₂
    generalize (if "www.".toList <+: r₁ then off + 4 else off) = off₂ at hr₂ ⊢
    rw [hr₂, Option.bind_some]
    by_cases hhost : inviteHttpsHost <+: r₂
    · rw [if_neg (not_not.mpr hhost)]
      obtain ⟨r₃, -, hr₃⟩ := sliceFrom_of_prefix hr₂ hhost
      rw [hr₃, Option.bind_some]
      cases hfind : httpsInvitePaths.find? fun p => decide (p.2 <+: r₃) with
      | none => exact ⟨none, rfl⟩
      | some found =>
        have hpath : found.2 <+: r₃ := by simpa using List.find?_some hfind
        obtain ⟨r₄, -, hr₄⟩ := sliceFrom_of_prefix hr₃ hpath
        simp only [hr₄, Option.bind_some]
        split
        · exact ⟨_, rfl⟩
        · exact ⟨none, rfl⟩
    · exact ⟨none, if_pos hhost⟩

theorem stripSchemeIn_total (url : List Char) (schemes : List (List Char)) : ∃ v, stripSchemeIn url schemes = some v := by
  unfold stripSchemeIn
  simp only
  split
  · exact ⟨_, rfl⟩
  · rename_i sep scheme hfind
    have hscheme := List.find?_some hfind
    unfold hasScheme at hscheme
    cases hhead : sliceTo url (byteLen scheme + byteLen sep) with
    | none =>
      rw [hhead] at hscheme
      cases hscheme
    | some head =>
      obtain ⟨⟨r, hr⟩, hlen⟩ := sliceTo_eq_some hhead
      rw [← hr, ← hlen, sliceFrom_append]
      exact ⟨some r, rfl⟩

/-- Reducing a link never panics. -/
theorem normalizeAppUrl_total (url : List Char) : ∃ v, normalizeAppUrl url = some v := by
  obtain ⟨v, hv⟩ := stripHttpsInvite_total url
  obtain ⟨w, hw⟩ := stripSchemeIn_total url handoffSchemes
  unfold normalizeAppUrl
  rw [hv]
  cases v with
  | none =>
    simp only [bind, Option.bind, hw]
    exact ⟨_, rfl⟩
  | some p => exact ⟨_, rfl⟩

/-! ## The occurrences of a form -/

theorem utf8Size_of_alphanumeric {c : Char} (h : isAsciiAlphanumeric c = true) : c.utf8Size = 1 := by
  refine Char.utf8Size_eq_one_iff.mpr ?_
  unfold isAsciiAlphanumeric at h
  rw [Bool.or_eq_true, Bool.or_eq_true, Bool.and_eq_true, Bool.and_eq_true, decide_eq_true_eq, decide_eq_true_eq, decide_eq_true_eq,
    decide_eq_true_eq] at h
  have hle : ∀ d : Char, c ≤ d → d.toNat ≤ 127 → c.val ≤ 0x7f := fun d hcd hd => Nat.le_trans (show c.toNat ≤ d.toNat from hcd) hd
  rcases h with (hdigit | ⟨-, hlow⟩) | ⟨-, hup⟩
  · unfold Char.isDigit at hdigit
    rw [Bool.and_eq_true, decide_eq_true_eq, decide_eq_true_eq] at hdigit
    exact hle '9' hdigit.2 (by decide)
  · exact hle 'z' hlow (by decide)
  · exact hle 'Z' hup (by decide)

theorem isAlphanumericByte_of_ge {b : UInt8} (hb : 0x80 ≤ b) : isAlphanumericByte b = false := by
  have hall : ∀ n < 256, 128 ≤ n → (Char.ofNat n).utf8Size ≠ 1 := by decide +kernel
  exact eq_false_of_ne_true fun h => hall b.toNat b.toNat_lt (UInt8.le_iff_toNat_le.mp hb) (utf8Size_of_alphanumeric h)

/-- The last byte of a character tells whether it is an ASCII letter or digit. -/
theorem last_byte (c : Char) :
    ∃ front b, String.utf8EncodeChar c = front ++ [b] ∧ isAlphanumericByte b = isAsciiAlphanumeric c := by
  by_cases hsize : c.utf8Size = 1
  · refine ⟨[], c.val.toUInt8, String.utf8EncodeChar_eq_singleton hsize, ?_⟩
    have hc : c.toNat ≤ 127 := Char.utf8Size_eq_one_iff.mp hsize
    have hbyte : c.val.toUInt8.toNat = c.toNat := by
      rw [UInt32.toNat_toUInt8]
      exact Nat.mod_eq_of_lt (by show c.toNat < 256; omega)
    unfold isAlphanumericByte
    rw [hbyte, Char.ofNat_toNat]
  · have hlen := String.length_utf8EncodeChar c
    have hpos := c.utf8Size_pos
    obtain ⟨front, b, hfront⟩ : ∃ front b, String.utf8EncodeChar c = front ++ [b] := by
      refine (List.eq_nil_or_concat' (String.utf8EncodeChar c)).resolve_left ?_
      intro hnil
      rw [hnil, List.length_nil] at hlen
      omega
    refine ⟨front, b, hfront, ?_⟩
    have hne : front ≠ [] := by
      rintro rfl
      rw [hfront] at hlen
      exact hsize hlen.symm
    rw [isAlphanumericByte_of_ge (UnixPath.continuation_ge (by rw [hfront]) hne)]
    exact (eq_false_of_ne_true fun halnum => hsize (utf8Size_of_alphanumeric halnum)).symm

theorem length_utf8 (a : List Char) : (Bytes.utf8 (String.ofList a)).length = byteLen a := by
  rw [UnixPath.utf8_eq_flatMap, String.toList_ofList]
  induction a with
  | nil => rfl
  | cons c a ih => rw [List.flatMap_cons, List.length_append, ih, String.length_utf8EncodeChar, byteLen_cons]

/-- The text starts here, or what stands before is no ASCII letter or digit. -/
def NoWordBefore (a : List Char) : Prop := ∀ c ∈ a.getLast?, isAsciiAlphanumeric c = false

theorem startsWord_append (a r : List Char) :
    ∃ word, startsWord (a ++ r) (byteLen a) = some word ∧ (word = true ↔ NoWordBefore a) := by
  unfold startsWord NoWordBefore
  rcases List.eq_nil_or_concat' a with rfl | ⟨front, c, rfl⟩
  · exact ⟨true, rfl, by simp⟩
  · obtain ⟨bytes, b, hbytes, hb⟩ := last_byte c
    have hpos := c.utf8Size_pos
    have hlen := String.length_utf8EncodeChar c
    rw [hbytes, List.length_append, List.length_singleton] at hlen
    have hsplit : Bytes.utf8 (String.ofList (front ++ [c] ++ r)) =
        (Bytes.utf8 (String.ofList front) ++ bytes) ++ b :: Bytes.utf8 (String.ofList r) := by
      rw [UnixPath.utf8_eq_flatMap, UnixPath.utf8_eq_flatMap, UnixPath.utf8_eq_flatMap, String.toList_ofList, String.toList_ofList,
        String.toList_ofList, List.flatMap_append, List.flatMap_append, List.flatMap_singleton, hbytes]
      simp
    have hpos' : byteLen (front ++ [c]) - 1 = (Bytes.utf8 (String.ofList front) ++ bytes).length := by
      rw [List.length_append, length_utf8, byteLen_append, byteLen_cons, byteLen_nil]
      omega
    rw [if_neg (by rw [byteLen_append, byteLen_cons]; omega), hsplit, hpos', List.getElem?_append_right (Nat.le_refl _), Nat.sub_self]
    refine ⟨!isAlphanumericByte b, rfl, ?_⟩
    rw [hb]
    simp

/-- An offset at which a form stands and no word goes on. -/
def StartsAt (lower needle : List Char) (pos : Nat) : Prop :=
  ∃ a r, lower = a ++ r ∧ byteLen a = pos ∧ needle <+: r ∧ NoWordBefore a

/-- The loop over one form gives the offsets at which it starts a word, from where it begins. -/
theorem startsFrom_spec {lower needle : List Char} {d : Char} {t : List Char} (hneedle : needle = d :: t) (hd : d.utf8Size = 1)
    (start : Nat) (hstart : ∃ rest, sliceFrom lower start = some rest) :
    ∃ l, startsFrom lower needle start = some l ∧ ∀ pos, pos ∈ l ↔ start ≤ pos ∧ StartsAt lower needle pos := by
  induction hn : byteLen lower + 1 - start using Nat.strong_induction_on generalizing start with
  | _ n ih =>
  obtain ⟨rest, hrest⟩ := hstart
  obtain ⟨front, hfront, hlen⟩ := sliceFrom_eq_some_iff.mp hrest
  -- What starts at the offset or later starts in the rest.
  have hinside : ∀ a r, lower = a ++ r → start ≤ byteLen a → ∃ m, a = front ++ m ∧ rest = m ++ r := by
    intro a r hlower hle
    obtain ⟨m, rfl⟩ := prefix_of_byteLen_le ⟨rest, hfront.symm⟩ ⟨r, hlower.symm⟩ (hlen ▸ hle)
    refine ⟨m, rfl, ?_⟩
    rw [hfront, List.append_assoc] at hlower
    exact List.append_cancel_left hlower
  rw [startsFrom]
  split
  · rename_i hnone
    rw [hrest] at hnone
    cases hnone
  · rename_i rest' hsome
    obtain rfl := Option.some.inj (hrest.symm.trans hsome)
    cases hfind : find needle rest with
    | none =>
      refine ⟨[], rfl, fun pos => ⟨fun h => absurd h List.not_mem_nil, ?_⟩⟩
      rintro ⟨hle, a, r, hlower, rfl, hr, -⟩
      obtain ⟨m, -, hm⟩ := hinside a r hlower hle
      exact absurd hr (find_none hfind m r hm)
    | some rel =>
      obtain ⟨m, r, hm, hrel, hr, hfirst⟩ := find_some hfind
      have hpos : byteLen (front ++ m) = start + rel := by rw [byteLen_append, hlen, hrel]
      have hlower : lower = (front ++ m) ++ r := by rw [hfront, hm, List.append_assoc]
      obtain ⟨word, hword, hiff⟩ := startsWord_append (front ++ m) r
      have hnext : ∃ rest', sliceFrom lower (start + rel + 1) = some rest' := by
        obtain ⟨r', hr'⟩ := hr
        rw [hneedle, List.cons_append] at hr'
        refine ⟨t ++ r', sliceFrom_eq_some_iff.mpr ⟨(front ++ m) ++ [d], ?_, ?_⟩⟩
        · rw [hlower, ← hr']
          simp
        · rw [byteLen_append, hpos, byteLen_cons, hd]
          rfl
      have hle := length_le_of_sliceFrom hrest
      obtain ⟨more, hmore, hmem⟩ := ih (byteLen lower + 1 - (start + rel + 1)) (by omega) (start + rel + 1) hnext rfl
      rw [← hlower, hpos] at hword
      refine ⟨if word then (start + rel) :: more else more, ?_, ?_⟩
      · simp only [hword, hmore, bind, Option.bind, pure]
      · intro pos
        have hhere : pos ∈ (if word then (start + rel) :: more else more) ↔ (word = true ∧ pos = start + rel) ∨ pos ∈ more := by
          cases word <;> simp
        rw [hhere, hmem]
        constructor
        · rintro (⟨hw, rfl⟩ | ⟨hle, hat⟩)
          · exact ⟨Nat.le_add_right _ _, front ++ m, r, hlower, hpos, hr, hiff.mp hw⟩
          · exact ⟨by omega, hat⟩
        · rintro ⟨hle, a, r', hlower', rfl, hr', hw⟩
          obtain ⟨m', rfl, hm'⟩ := hinside a r' hlower' hle
          have hrel' := hfirst m' r' hm' hr'
          have hlen' : byteLen (front ++ m') = start + byteLen m' := by rw [byteLen_append, hlen]
          rcases Nat.lt_or_eq_of_le hrel' with hlt | heq
          · exact Or.inr ⟨by omega, front ++ m', r', hlower', rfl, hr', hw⟩
          · have hsame : front ++ m' = front ++ m :=
              eq_of_byteLen_eq ⟨r', hlower'.symm⟩ ⟨r, hlower.symm⟩ (by rw [hlen', hpos, heq])
            exact Or.inl ⟨hiff.mpr (hsame ▸ hw), by omega⟩

/-! ## The starts in order -/

theorem mem_dedup (l : List Nat) (pos : Nat) : pos ∈ dedup l ↔ pos ∈ l := by
  induction l using dedup.induct with
  | case1 b rest ih =>
    rw [dedup, if_pos rfl, ih]
    simp
  | case2 a b rest hne ih =>
    rw [dedup, if_neg hne, List.mem_cons, ih, List.mem_cons (b := a)]
  | case3 short _ => rw [dedup.eq_2]; assumption

theorem sorted_dedup {l : List Nat} (h : l.Pairwise (· ≤ ·)) : (dedup l).Pairwise (· ≤ ·) := by
  induction l using dedup.induct with
  | case1 b rest ih =>
    rw [dedup, if_pos rfl]
    exact ih (List.pairwise_cons.mp h).2
  | case2 a b rest hne ih =>
    rw [dedup, if_neg hne]
    refine List.pairwise_cons.mpr ⟨?_, ih (List.pairwise_cons.mp h).2⟩
    intro pos hpos
    exact (List.pairwise_cons.mp h).1 pos ((mem_dedup _ _).mp hpos)
  | case3 short _ => rw [dedup.eq_2]; assumption; assumption

/-- Every form begins with an ASCII letter. -/
theorem needle_head : ∀ needle ∈ needles, ∃ d t, needle = d :: t ∧ d.utf8Size = 1 := by
  intro needle h
  simp only [needles, List.mem_cons, List.not_mem_nil, or_false] at h
  rcases h with rfl | rfl | rfl | rfl
  · exact ⟨_, _, rfl, rfl⟩
  · exact ⟨_, _, rfl, rfl⟩
  · exact ⟨_, _, rfl, rfl⟩
  · exact ⟨_, _, rfl, rfl⟩

/-- The starts are the offsets at which one of the forms starts a word, in order. -/
theorem plausibleStarts_spec (lower : List Char) :
    ∃ starts, plausibleStarts lower = some starts ∧ starts.Pairwise (· ≤ ·) ∧
      ∀ pos, pos ∈ starts ↔ ∃ needle ∈ needles, StartsAt lower needle pos := by
  have hforms : ∀ ns : List (List Char), (∀ needle ∈ ns, ∃ d t, needle = d :: t ∧ d.utf8Size = 1) →
      ∃ ls, (ns.mapM fun needle => startsFrom lower needle 0) = some ls ∧
        ∀ pos, pos ∈ ls.flatten ↔ ∃ needle ∈ ns, StartsAt lower needle pos := by
    intro ns hns
    induction ns with
    | nil => exact ⟨[], rfl, by simp⟩
    | cons needle ns ih =>
      obtain ⟨d, t, hneedle, hd⟩ := hns needle List.mem_cons_self
      obtain ⟨l, hl, hmem⟩ := startsFrom_spec hneedle hd 0 ⟨lower, sliceFrom_zero lower⟩
      obtain ⟨ls, hls, hrest⟩ := ih fun n hn => hns n (List.mem_cons_of_mem _ hn)
      refine ⟨l :: ls, ?_, ?_⟩
      · rw [List.mapM_cons, hl, hls]
        rfl
      · intro pos
        rw [List.flatten_cons, List.mem_append, hmem, hrest, List.exists_mem_cons_iff]
        simp
  obtain ⟨ls, hls, hmem⟩ := hforms needles needle_head
  refine ⟨dedup (ls.flatten.mergeSort fun a b => decide (a ≤ b)), ?_, ?_, ?_⟩
  · unfold plausibleStarts
    rw [hls]
    rfl
  · refine sorted_dedup ?_
    have hsorted := @List.pairwise_mergeSort _ (fun a b : Nat => decide (a ≤ b)) (by simp; omega) (by simp; omega) ls.flatten
    exact hsorted.imp fun h => of_decide_eq_true h
  · intro pos
    rw [mem_dedup, List.mem_mergeSort, hmem]

/-! ## The first start that is accepted -/

/-- The link is one that the client acts on. -/
def Accepted (link : List Char) : Prop := ∃ rest, normalizeAppUrl link = some (some rest)

/-- What stands before the first delimiter. -/
def linkPart (rest : List Char) : List Char := rest.takeWhile fun c => !isDelimiter c

theorem looksLikeAppUrl_spec (link : List Char) : ∃ b, looksLikeAppUrl link = some b ∧ (b = true ↔ Accepted link) := by
  obtain ⟨v, hv⟩ := normalizeAppUrl_total link
  refine ⟨v.isSome, by rw [looksLikeAppUrl, hv]; rfl, ?_⟩
  unfold Accepted
  rw [hv, Option.isSome_iff_exists]
  simp

/-- Of sorted starts the first that is accepted is taken. -/
theorem firstLink_spec (text : List Char) {starts : List Nat} (hsorted : starts.Pairwise (· ≤ ·))
    (hchar : ∀ pos ∈ starts, ∃ a r, text = a ++ r ∧ byteLen a = pos) :
    ∃ v, firstLink text starts = some v ∧
      (v = none → ∀ a r, text = a ++ r → byteLen a ∈ starts → ¬ Accepted (linkPart r)) ∧
      ∀ link, v = some link → ∃ a r, text = a ++ r ∧ byteLen a ∈ starts ∧ link = linkPart r ∧ Accepted link ∧
        ∀ a' r', text = a' ++ r' → byteLen a' ∈ starts → Accepted (linkPart r') → a <+: a' := by
  induction starts with
  | nil => exact ⟨none, rfl, fun _ _ _ _ h => absurd h List.not_mem_nil, fun link h => by cases h⟩
  | cons pos starts ih =>
    obtain ⟨hleast, htail⟩ := List.pairwise_cons.mp hsorted
    obtain ⟨a, r, htext, rfl⟩ := hchar pos List.mem_cons_self
    obtain ⟨v, hv, hnone, hsome⟩ := ih htail fun p hp => hchar p (List.mem_cons_of_mem _ hp)
    obtain ⟨b, hb, hiff⟩ := looksLikeAppUrl_spec (linkPart r)
    have hstep : firstLink text (byteLen a :: starts) = if b then some (some (linkPart r)) else firstLink text starts := by
      have hslice : sliceFrom text (byteLen a) = some r := by
        rw [htext]
        exact sliceFrom_append a r
      rw [firstLink, hslice]
      simp only [bind, Option.bind, sliceTo_findChar]
      unfold linkPart at hb ⊢
      rw [hb]
    -- The offset tells where the text is cut.
    have hcut : ∀ a' r', text = a' ++ r' → byteLen a' = byteLen a → r' = r := by
      intro a' r' htext' hlen
      obtain rfl := eq_of_byteLen_eq ⟨r', htext'.symm⟩ ⟨r, htext.symm⟩ hlen
      exact List.append_cancel_left (htext'.symm.trans htext)
    rw [hstep]
    cases b with
    | true =>
      refine ⟨some (linkPart r), rfl, fun h => (by cases h), ?_⟩
      intro link hlink
      obtain rfl := Option.some.inj hlink
      refine ⟨a, r, htext, List.mem_cons_self, rfl, hiff.mp rfl, ?_⟩
      intro a' r' htext' hmem _
      refine prefix_of_byteLen_le ⟨r, htext.symm⟩ ⟨r', htext'.symm⟩ ?_
      rcases List.mem_cons.mp hmem with heq | hmem
      · exact heq.ge
      · exact hleast _ hmem
    | false =>
      have hnot : ¬ Accepted (linkPart r) := fun h => Bool.false_ne_true (hiff.mpr h)
      refine ⟨v, hv, ?_, ?_⟩
      · intro hv a' r' htext' hmem
        rcases List.mem_cons.mp hmem with heq | hmem
        · rw [hcut a' r' htext' heq]
          exact hnot
        · exact hnone hv a' r' htext' hmem
      · intro link hlink
        obtain ⟨a₁, r₁, htext₁, hmem₁, hpart, haccepted, hfirst⟩ := hsome link hlink
        refine ⟨a₁, r₁, htext₁, List.mem_cons_of_mem _ hmem₁, hpart, haccepted, ?_⟩
        intro a' r' htext' hmem haccepted'
        rcases List.mem_cons.mp hmem with heq | hmem
        · rw [hcut a' r' htext' heq] at haccepted'
          exact absurd haccepted' hnot
        · exact hfirst a' r' htext' hmem haccepted'

/-! ## Links in a text -/

/-- A part of the text up to a delimiter that is accepted as a link. -/
structure LinkIn (text before link after : List Char) : Prop where
  parts : text = before ++ link ++ after
  plain : ∀ c ∈ link, isDelimiter c = false
  stop : ∀ c ∈ after.head?, isDelimiter c = true
  accepted : Accepted link

/-- It has one of the forms that are looked for, and continues no word. -/
structure SoughtIn (text before link after : List Char) : Prop extends LinkIn text before link after where
  form : ∃ needle ∈ needles, needle <+: link.map asciiLower
  word : NoWordBefore before

/-- What holds alike of every ASCII letter in both cases holds alike of a character and its lower case. -/
theorem asciiLower_alike {p : Char → Bool} (h : ∀ n < 91, 65 ≤ n → p (Char.ofNat (n + 32)) = p (Char.ofNat n)) (c : Char) :
    p (asciiLower c) = p c := by
  unfold asciiLower
  by_cases hc : 'A' ≤ c ∧ c ≤ 'Z'
  · rw [if_pos hc]
    have hlow : 65 ≤ c.toNat := hc.1
    have hhigh : c.toNat ≤ 90 := hc.2
    have hletter := h c.toNat (by omega) hlow
    rwa [Char.ofNat_toNat] at hletter
  · rw [if_neg hc]

theorem isAsciiAlphanumeric_asciiLower (c : Char) : isAsciiAlphanumeric (asciiLower c) = isAsciiAlphanumeric c :=
  asciiLower_alike (by decide +kernel) c

theorem isDelimiter_asciiLower (c : Char) : isDelimiter (asciiLower c) = isDelimiter c := asciiLower_alike (by decide +kernel) c

theorem noWordBefore_map (a : List Char) : NoWordBefore (a.map asciiLower) ↔ NoWordBefore a := by
  unfold NoWordBefore
  rw [List.getLast?_map]
  cases a.getLast? with
  | none => simp
  | some c => simp [isAsciiAlphanumeric_asciiLower]

/-- No form has a delimiter in it. -/
theorem needle_plain : ∀ needle ∈ needles, ∀ c ∈ needle, isDelimiter c = false := by
  have hall : (needles.all fun needle => needle.all fun c => isDelimiter c == false) = true := by decide +kernel
  intro needle hneedle c hc
  exact beq_iff_eq.mp (List.all_eq_true.mp (List.all_eq_true.mp hall needle hneedle) c hc)

/-- The starts of a text are where one of the forms stands and no word goes on. -/
theorem startsAt_map {text needle : List Char} {pos : Nat} :
    StartsAt (text.map asciiLower) needle pos ↔
      ∃ a r, text = a ++ r ∧ byteLen a = pos ∧ needle <+: r.map asciiLower ∧ NoWordBefore a := by
  constructor
  · rintro ⟨_, _, htext, rfl, hneedle, hword⟩
    obtain ⟨a, r, rfl, rfl, rfl⟩ := List.map_eq_append_iff.mp htext
    exact ⟨a, r, rfl, (byteLen_map_asciiLower a).symm, hneedle, (noWordBefore_map a).mp hword⟩
  · rintro ⟨a, r, rfl, rfl, hneedle, hword⟩
    exact ⟨a.map asciiLower, r.map asciiLower, List.map_append, byteLen_map_asciiLower a, hneedle, (noWordBefore_map a).mpr hword⟩

/-- A form at the front of a text is at the front of the link there. -/
theorem prefix_linkPart {needle r : List Char} (hneedle : needle ∈ needles) (h : needle <+: r.map asciiLower) :
    needle <+: (linkPart r).map asciiLower := by
  obtain ⟨rest, hrest⟩ := h
  obtain ⟨x, y, rfl, rfl, -⟩ := List.map_eq_append_iff.mp hrest.symm
  have hplain : ∀ c ∈ x, (!isDelimiter c) = true := by
    intro c hc
    have := needle_plain _ hneedle (asciiLower c) (List.mem_map_of_mem hc)
    rw [isDelimiter_asciiLower] at this
    rw [this]
    rfl
  rw [linkPart, List.takeWhile_append_of_pos hplain, List.map_append]
  exact List.prefix_append _ _

theorem SoughtIn.linkPart {text before link after : List Char} (h : SoughtIn text before link after) :
    Brand.linkPart (link ++ after) = link := by
  have hplain : ∀ c ∈ link, (!isDelimiter c) = true := fun c hc => by rw [h.plain c hc]; rfl
  rw [Brand.linkPart, List.takeWhile_append_of_pos hplain]
  cases after with
  | nil => exact List.append_nil link
  | cons c after =>
    rw [List.takeWhile_cons_of_neg (by simp [h.stop c rfl])]
    exact List.append_nil link

/-- **The search finds the first link of a text**, and never panics. -/
theorem findAppUrl_spec (text : List Char) :
    ∃ v, findAppUrl text = some v ∧ (v = none → ∀ before link after, ¬ SoughtIn text before link after) ∧
      ∀ link, v = some link → ∃ before after, SoughtIn text before link after ∧
        ∀ before' link' after', SoughtIn text before' link' after' → before <+: before' := by
  obtain ⟨starts, hstarts, hsorted, hmem⟩ := plausibleStarts_spec (text.map asciiLower)
  have hat : ∀ pos, pos ∈ starts ↔ ∃ a r, text = a ++ r ∧ byteLen a = pos ∧ NoWordBefore a ∧ ∃ needle ∈ needles, needle <+: r.map asciiLower := by
    intro pos
    rw [hmem]
    constructor
    · rintro ⟨needle, hneedle, h⟩
      obtain ⟨a, r, htext, hlen, hfront, hword⟩ := startsAt_map.mp h
      exact ⟨a, r, htext, hlen, hword, needle, hneedle, hfront⟩
    · rintro ⟨a, r, htext, hlen, hword, needle, hneedle, hfront⟩
      exact ⟨needle, hneedle, startsAt_map.mpr ⟨a, r, htext, hlen, hfront, hword⟩⟩
  have hsought : ∀ before link after, SoughtIn text before link after →
      text = before ++ (link ++ after) ∧ byteLen before ∈ starts ∧ Accepted (linkPart (link ++ after)) := by
    intro before link after h
    have htext : text = before ++ (link ++ after) := by rw [h.parts, List.append_assoc]
    obtain ⟨needle, hneedle, hform⟩ := h.form
    refine ⟨htext, (hat _).mpr ⟨before, link ++ after, htext, rfl, h.word, needle, hneedle, ?_⟩, h.linkPart.symm ▸ h.accepted⟩
    rw [List.map_append]
    exact hform.trans (List.prefix_append _ _)
  obtain ⟨v, hv, hnone, hsome⟩ := firstLink_spec text hsorted fun pos hpos => by
    obtain ⟨a, r, htext, hlen, -⟩ := (hat pos).mp hpos
    exact ⟨a, r, htext, hlen⟩
  refine ⟨v, ?_, ?_, ?_⟩
  · unfold findAppUrl
    rw [hstarts]
    exact hv
  · intro hv before link after h
    obtain ⟨htext, hin, haccepted⟩ := hsought before link after h
    exact hnone hv before (link ++ after) htext hin haccepted
  · intro link hlink
    obtain ⟨a, r, htext, hin, rfl, haccepted, hfirst⟩ := hsome link hlink
    obtain ⟨a₁, r₁, htext₁, hlen, hword, needle, hneedle, hfront⟩ := (hat _).mp hin
    obtain rfl := eq_of_byteLen_eq ⟨r₁, htext₁.symm⟩ ⟨r, htext.symm⟩ hlen
    obtain rfl := List.append_cancel_left (htext.symm.trans htext₁)
    refine ⟨a₁, r.dropWhile fun c => !isDelimiter c, ?_, ?_⟩
    · exact
        { parts := by rw [List.append_assoc, linkPart, List.takeWhile_append_dropWhile, htext]
          plain := fun c hc => by simpa using List.mem_takeWhile_imp hc
          stop := by
            intro c hc
            have hhead := List.head?_dropWhile_not (fun c => !isDelimiter c) r
            rw [Option.mem_def.mp hc] at hhead
            simpa using hhead
          accepted := haccepted
          form := ⟨needle, hneedle, prefix_linkPart hneedle hfront⟩
          word := hword }
    · intro before' link' after' h
      obtain ⟨htext', hin', haccepted'⟩ := hsought before' link' after' h
      exact hfirst before' (link' ++ after') htext' hin' haccepted'

end DoubleSlash.Brand
