import DoubleSlash.Lib.Bytes
import DoubleSlash.Lib.Offsets
import Mathlib.Data.List.Sort

/-!
# Invite links

`brand.rs`: minting a link, reducing a link to what the invite code parses, and finding a link in a text. A text is its list of
characters, offsets are byte offsets; the outer option of a result is empty where a slice would panic.
-/

namespace DoubleSlash.Brand

open Text

/-- `HANDOFF_SCHEMES`. -/
def handoffSchemes : List (List Char) := ["doubleslash".toList, "d".toList]

/-- `INVITE_HTTPS_HOST`. -/
def inviteHttpsHost : List Char := "doubleslash.space".toList

/-- `HTTPS_INVITE_PATHS`. -/
def httpsInvitePaths : List (List Char × List Char) := [("invite".toList, "/i".toList), ("room".toList, "/r".toList)]

/-- `mint_invite_https`. -/
def mintInviteHttps (action encoded : List Char) : List Char :=
  let path := ((httpsInvitePaths.find? fun p => p.1 == action).map Prod.snd).getD "/i".toList
  "https://".toList ++ inviteHttpsHost ++ path ++ '#' :: encoded

/-- `strip_https_invite`. -/
def stripHttpsInvite (url : List Char) : Option (Option (List Char × List Char)) := do
  let lower := url.map asciiLower
  let off := if "https://".toList <+: lower then 8 else if "http://".toList <+: lower then 7 else 0
  if off = 0 then some none
  else
    let rest ← sliceFrom lower off
    let off := if "www.".toList <+: rest then off + 4 else off
    let rest ← sliceFrom lower off
    if ¬ inviteHttpsHost <+: rest then some none
    else
      let off := off + byteLen inviteHttpsHost
      let rest ← sliceFrom lower off
      match httpsInvitePaths.find? fun p => decide (p.2 <+: rest) with
      | none => some none
      | some (action, path) =>
        let off := off + byteLen path
        let rest ← sliceFrom lower off
        let off := if rest.head? = some '/' then off + 1 else off
        match sliceFrom url off with
        | some ('#' :: payload) => some (if payload = [] then none else some (action, payload))
        | _ => some none

/-- The scheme and what separates it stand at the front of the link, in any case. -/
def hasScheme (url : List Char) (form : List Char × List Char) : Bool :=
  match sliceTo url (byteLen form.2 + byteLen form.1) with
  | none => false
  | some head =>
    match sliceTo head (byteLen form.2), sliceFrom head (byteLen form.2) with
    | some got, some tail => got.map asciiLower == form.2.map asciiLower && tail == form.1
    | _, _ => false

/-- `strip_scheme_in`. -/
def stripSchemeIn (url : List Char) (schemes : List (List Char)) : Option (Option (List Char)) :=
  let forms := ["://".toList, ":/".toList].flatMap fun sep => schemes.map fun scheme => (sep, scheme)
  match forms.find? (hasScheme url) with
  | none => some none
  | some (sep, scheme) => (sliceFrom url (byteLen scheme + byteLen sep)).map some

/-- `is_handoff_remainder`. -/
def isHandoffRemainder (rest : List Char) : Bool :=
  let lower := rest.map asciiLower
  decide ("invite#".toList <+: lower) || decide ("room#".toList <+: lower)

/-- `normalize_app_url`. -/
def normalizeAppUrl (url : List Char) : Option (Option (List Char)) := do
  match ← stripHttpsInvite url with
  | some (action, payload) => some (some (action ++ '#' :: payload))
  | none => return (← stripSchemeIn url handoffSchemes).filter isHandoffRemainder

/-- `looks_like_app_url`. -/
def looksLikeAppUrl (url : List Char) : Option Bool := (normalizeAppUrl url).map Option.isSome

/-! ## Finding a link -/

/-- What ends a link in a text. -/
def isDelimiter (c : Char) : Bool := isWhitespace c || c == '"' || c == '\x27' || c == '<' || c == '>'

/-- The forms that are looked for. -/
def needles : List (List Char) := ["https://".toList, "http://".toList, "doubleslash://".toList, "d://".toList]

/-- `u8::is_ascii_alphanumeric`. -/
def isAlphanumericByte (b : UInt8) : Bool := isAsciiAlphanumeric (Char.ofNat b.toNat)

/-- The offset is the start of the text, or no word ends there. -/
def startsWord (lower : List Char) (pos : Nat) : Option Bool :=
  if pos = 0 then some true else ((Bytes.utf8 (String.ofList lower))[pos - 1]?).map fun b => !isAlphanumericByte b

theorem length_le_of_sliceFrom {s r : List Char} {n : Nat} (h : sliceFrom s n = some r) : n ≤ byteLen s := by
  obtain ⟨a, rfl, rfl⟩ := sliceFrom_eq_some_iff.mp h
  rw [byteLen_append]
  exact Nat.le_add_right _ _

/-- The loop over the occurrences of one form, from an offset on. -/
def startsFrom (lower needle : List Char) (start : Nat) : Option (List Nat) :=
  match _hslice : sliceFrom lower start with
  | none => none
  | some rest =>
    match find needle rest with
    | none => some []
    | some rel => do
      let word ← startsWord lower (start + rel)
      let more ← startsFrom lower needle (start + rel + 1)
      return if word then (start + rel) :: more else more
termination_by byteLen lower + 1 - start
decreasing_by
  have := length_le_of_sliceFrom _hslice
  omega

/-- `Vec::dedup`. -/
def dedup : List Nat → List Nat
  | a :: b :: rest => if a = b then dedup (b :: rest) else a :: dedup (b :: rest)
  | short => short

/-- The start offsets in the text, from left to right. -/
def plausibleStarts (lower : List Char) : Option (List Nat) := do
  let starts ← needles.mapM fun needle => startsFrom lower needle 0
  return dedup (starts.flatten.mergeSort (fun a b => decide (a ≤ b)))

/-- The first start at which a link is accepted. -/
def firstLink (text : List Char) : List Nat → Option (Option (List Char))
  | [] => some none
  | start :: more => do
    let rest ← sliceFrom text start
    let candidate ← sliceTo rest ((findChar isDelimiter rest).getD (byteLen rest))
    if ← looksLikeAppUrl candidate then some (some candidate) else firstLink text more

/-- `find_app_url`. -/
def findAppUrl (text : List Char) : Option (Option (List Char)) := do
  firstLink text (← plausibleStarts (text.map asciiLower))

end DoubleSlash.Brand
