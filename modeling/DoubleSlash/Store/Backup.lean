import DoubleSlash.Lib.Assoc
import DoubleSlash.Lib.Bytes

/-!
# Profile backups

The archive of the client's `backup.rs`: a header, then frames that are sealed under their position, of the manifest, the identity,
the files piece by piece, and a marker. Argon2, AES-GCM, JSON and the check of the device trust database are parameters; random bytes
are inputs. Files are bytes, and a directory is what it holds.
-/

namespace DoubleSlash.Store.Backup

open Assoc Bytes

/-- `MAGIC`. -/
def magic : List UInt8 := utf8 "DSSHBA01"

/-- `CHUNK`. -/
@[irreducible] def chunk : Nat := 1024 * 1024

theorem chunk_pos : 0 < chunk := by
  unfold chunk
  decide

/-- `MAX_FILES`. -/
def maxFiles : Nat := 100000

/-- `MAX_TOTAL`. -/
def maxTotal : Nat := 1024 * 1024 * 1024 * 1024

/-- `END`. -/
def endMarker : List UInt8 := utf8 "DoubleSlash backup complete"

/-- `DEVICE_TRUST_FILE`. -/
def deviceTrustFile : String := "device-trust.db"

/-- `ClientError`. -/
inductive BackupError where
  | store (message : String)
  | identity (message : String)
  | crypto
  | json
  | trust
  | io

structure BackupSummary where
  publicId : String
  createdAt : Nat
  files : Nat
  bytes : Nat
  messages : Nat
  attachments : Nat
  missingAttachments : Nat
  includesAttachments : Bool
  deriving DecidableEq

structure Entry where
  name : String
  size : Nat
  deriving DecidableEq

structure Manifest where
  summary : BackupSummary
  entries : List Entry
  deriving DecidableEq

/-- What the archive takes from elsewhere. -/
structure BackupCrypto where
  /-- `argon2id_kdf(password, salt, 3, 65536, 4)`. -/
  argon2id : List UInt8 → List UInt8 → Option (List UInt8)
  /-- `aesgcm_encrypt(key, plaintext, aad)` with its nonce, and `aesgcm_decrypt(key, nonce, ciphertext, aad)`. -/
  aesgcmEncrypt : List UInt8 → List UInt8 → List UInt8 → List UInt8 → List UInt8
  aesgcmDecrypt : List UInt8 → List UInt8 → List UInt8 → List UInt8 → Option (List UInt8)
  manifestToVec : Manifest → List UInt8
  manifestFromSlice : List UInt8 → Option Manifest
  /-- `public_id` of the identity with this seed. -/
  publicId : List UInt8 → String
  /-- `DeviceTrustStore::read_existing` and `validate_all`. -/
  trustValid : List UInt8 → List UInt8 → Bool

/-- `Identity::from_seed`: an identity is its seed. -/
def identityFromSeed (seed : List UInt8) : Except BackupError (List UInt8) :=
  if seed.length = 32 then .ok seed else .error (.identity "seed must be 32 bytes")

/-! ## The manifest -/

/-- The names a backup may hold, but for attachments. -/
def fixedNames : List String :=
  ["peers.dat", "my_rooms.dat", "chat_history.db", "settings.json", "android-settings.json", deviceTrustFile]

/-- What follows `attachments/`. -/
def attachmentNumber (name : String) : Option (List Char) :=
  if "attachments/".toList.isPrefixOf name.toList then some (name.toList.drop "attachments/".length) else none

/-- A number of at most six digits. -/
def isNumberName (n : List Char) : Bool := !n.isEmpty && decide (n.length ≤ 6) && n.all Char.isDigit

/-- `valid`. -/
def validName (name : String) : Bool := fixedNames.contains name || (attachmentNumber name).any isNumberName

/-- The loop of `validate_manifest`: the names seen and the total so far. -/
def validateEntries : List Entry → List String → Nat → Except BackupError (List String × Nat)
  | [], seen, total => .ok (seen, total)
  | entry :: entries, seen, total =>
    if entry.name = deviceTrustFile ∧ 512 * 1024 * 1024 < entry.size then
      .error (.store "Device trust database is too large")
    else if entry.name ≠ "chat_history.db" ∧ entry.name ≠ deviceTrustFile ∧ (attachmentNumber entry.name).isNone ∧
        16 * chunk < entry.size then
      .error (.store "Profile metadata is too large")
    else if !validName entry.name || seen.contains entry.name then
      .error (.store "Invalid or duplicate backup entry")
    else if maxTotal < total + entry.size then
      .error (.store "Backup exceeds the supported size")
    else
      validateEntries entries (seen ++ [entry.name]) (total + entry.size)

/-- `validate_manifest`. -/
def validateManifest (manifest : Manifest) : Except BackupError Unit :=
  if maxFiles < manifest.entries.length then
    .error (.store "Too many backup files")
  else do
    let (seen, total) ← validateEntries manifest.entries [] 0
    if total ≠ manifest.summary.bytes ∨ seen.length ≠ manifest.summary.files ∨
        ! ["peers.dat", "my_rooms.dat", "chat_history.db"].all seen.contains then
      .error (.store "Incomplete backup manifest")
    else
      .ok ()

/-! ## Frames -/

section

variable (C : BackupCrypto)

/-- `check_password`. -/
def checkPassword (password : List UInt8) : Except BackupError Unit :=
  if password.length < 12 ∨ 4096 < password.length then
    .error (.store "Use a backup password of at least 12 characters (maximum 4096 bytes).")
  else
    .ok ()

/-- `backup_key`. -/
def backupKey (password header : List UInt8) : Except BackupError (List UInt8) :=
  match C.argon2id password (header.drop 8) with
  | some key => .ok key
  | none => .error .crypto

/-- `aad`. -/
def aad (header : List UInt8) (index : Nat) : List UInt8 := header ++ beBytes 8 index

/-- What was written, and the number of the next frame. -/
structure Output where
  bytes : List UInt8
  index : Nat

/-- The bytes of a frame. -/
def frameBytes (nonce ciphertext : List UInt8) : List UInt8 :=
  beBytes 4 (nonce.length + ciphertext.length) ++ (nonce ++ ciphertext)

/-- `write_frame`, with the nonces that are drawn. -/
def writeFrame (key header : List UInt8) (nonces : Nat → List UInt8) (bytes : List UInt8) (out : Output) : Except BackupError Output :=
  if chunk < bytes.length then
    .error (.store "Backup manifest exceeds the supported size")
  else
    let nonce := nonces out.index
    let ciphertext := C.aesgcmEncrypt key nonce bytes (aad header out.index)
    .ok { bytes := out.bytes ++ frameBytes nonce ciphertext, index := out.index + 1 }

/-- What is left to read, and the number of the next frame. -/
structure Cursor where
  input : List UInt8
  index : Nat

/-- `read_exact`. -/
def readExact (n : Nat) (input : List UInt8) : Except BackupError (List UInt8 × List UInt8) :=
  if input.length < n then .error .io else .ok (input.take n, input.drop n)

/-- `read_frame`. -/
def readFrame (key header : List UInt8) (c : Cursor) : Except BackupError (List UInt8 × Cursor) := do
  let (length, input) ← readExact 4 c.input
  let length := beNat length
  if length < 28 ∨ chunk + 28 < length then
    .error (.store "Invalid backup frame length")
  else do
    let (frame, input) ← readExact length input
    match C.aesgcmDecrypt key (frame.take 12) (frame.drop 12) (aad header c.index) with
    | none => .error (.store "Incorrect backup password or damaged backup")
    | some plaintext => .ok (plaintext, { input, index := c.index + 1 })

/-! ## Reading -/

/-- A directory that entries are extracted to: its files, the names that were created, and how many bytes were written. -/
structure Extraction where
  files : HashMap String (List UInt8)
  attachments : Bool
  created : List String
  written : Nat

namespace Extraction

def empty : Extraction := { files := ∅, attachments := false, created := [], written := 0 }

/-- `create_dir_all` for an attachment, and `create_new`. -/
def createNew (x : Extraction) (name : String) : Extraction × Except BackupError Unit :=
  let x := if (attachmentNumber name).isSome then { x with attachments := true } else x
  if (x.files.lookup name).isSome then (x, .error .io)
  else ({ x with files := x.files.insert name [], created := x.created ++ [name] }, .ok ())

/-- `write_all`. -/
def append (x : Extraction) (name : String) (bytes : List UInt8) : Extraction :=
  { x with files := x.files.insert name ((x.files.lookup name).getD [] ++ bytes), written := x.written + bytes.length }

end Extraction

/-- Where entries go: a destination, or at most a copy of the trust database, to verify it. -/
inductive Destination where
  | extract (x : Extraction)
  | verify (copy : Option Extraction)

namespace Destination

/-- `extract_to`. -/
def target (d : Destination) (name : String) : Option Extraction :=
  match d with
  | .extract x => some x
  | .verify copy => if name = deviceTrustFile then copy else none

/-- The directory of an entry as it is now. -/
def put (d : Destination) (name : String) (x : Extraction) : Destination :=
  match d with
  | .extract _ => .extract x
  | .verify copy => if name = deviceTrustFile then .verify (some x) else .verify copy

/-- `create_new` where the entry is extracted. -/
def create (d : Destination) (name : String) : Destination × Except BackupError Unit :=
  match d.target name with
  | none => (d, .ok ())
  | some x => (d.put name (x.createNew name).1, (x.createNew name).2)

/-- `write_all` where the entry is extracted. -/
def append (d : Destination) (name : String) (bytes : List UInt8) : Destination :=
  match d.target name with
  | none => d
  | some x => d.put name (x.append name bytes)

end Destination

/-- The loop over the frames of an entry. -/
def readChunks (key header : List UInt8) (name : String) (remaining : Nat) (d : Destination) (c : Cursor) :
    Destination × Except BackupError Cursor :=
  if _hdone : remaining = 0 then (d, .ok c)
  else
    match readFrame C key header c with
    | .error e => (d, .error e)
    | .ok (frame, c) =>
      if _hlen : frame.length = min remaining chunk then
        readChunks key header name (remaining - frame.length) (d.append name frame) c
      else
        (d, .error (.store "Backup file size mismatch"))
termination_by remaining
decreasing_by
  have hchunk := chunk_pos
  omega

/-- The loop over the entries. -/
def readEntries (key header : List UInt8) : List Entry → Destination → Cursor → Destination × Except BackupError Cursor
  | [], d, c => (d, .ok c)
  | entry :: entries, d, c =>
    match d.create entry.name with
    | (d, .error e) => (d, .error e)
    | (d, .ok ()) =>
      match readChunks C key header entry.name entry.size d c with
      | (d, .error e) => (d, .error e)
      | (d, .ok c) => readEntries key header entries d c

/-- `read_archive` up to the entries: the key, the header, the manifest and the identity. -/
def readHead (bytes password : List UInt8) : Except BackupError (List UInt8 × List UInt8 × Manifest × List UInt8 × Cursor) := do
  if 4096 < password.length then
    .error (.store "Backup password is too long")
  else do
    let (header, input) ← readExact 40 bytes
    if header.take 8 ≠ magic then
      .error (.store "Unsupported backup format or version")
    else do
      let key ← backupKey C password header
      let (json, c) ← readFrame C key header { input, index := 0 }
      match C.manifestFromSlice json with
      | none => .error .json
      | some manifest => do
        validateManifest manifest
        let (seed, c) ← readFrame C key header c
        let identity ← identityFromSeed seed
        if C.publicId identity ≠ manifest.summary.publicId then
          .error (.store "Backup identity does not match its manifest")
        else
          .ok (key, header, manifest, identity, c)

/-- The marker, and nothing after it. -/
def readEnd (key header : List UInt8) (c : Cursor) : Except BackupError Unit := do
  let (marker, c) ← readFrame C key header c
  if marker ≠ endMarker ∨ c.input ≠ [] then
    .error (.store "Incomplete backup or unexpected trailing data")
  else
    .ok ()

/-- `read_archive`: what is extracted, even if it fails, and the manifest and the identity. -/
def readArchive (bytes password : List UInt8) (destination : Option Extraction) :
    Option Extraction × Except BackupError (Manifest × List UInt8) :=
  match readHead C bytes password with
  | .error e => (destination, .error e)
  | .ok (key, header, manifest, identity, c) =>
    let start : Destination :=
      match destination with
      | some x => .extract x
      | none => .verify (if manifest.entries.any (fun entry => entry.name = deviceTrustFile) then some Extraction.empty else none)
    match readEntries C key header manifest.entries start c with
    | (.extract x, result) => (some x, do
        let c ← result
        readEnd C key header c
        .ok (manifest, identity))
    | (.verify copy, result) => (none, do
        let c ← result
        readEnd C key header c
        match copy with
        | none => .ok (manifest, identity)
        | some copy =>
          if C.trustValid identity ((copy.files.lookup deviceTrustFile).getD []) then .ok (manifest, identity) else .error .trust)

/-! ## Writing -/

/-- A file as `write` finds it: its content, and whether it is touched meanwhile. -/
structure SourceFile where
  content : List UInt8
  touched : Bool

/-- The loop over the pieces of a file: what is left of it. -/
def writeChunks (key header : List UInt8) (nonces : Nat → List UInt8) (remaining : Nat) (input : List UInt8) (out : Output) :
    Except BackupError (List UInt8 × Output) :=
  if _hdone : remaining = 0 then .ok (input, out)
  else do
    let size := min remaining chunk
    let (buffer, input) ← readExact size input
    let out ← writeFrame C key header nonces buffer out
    writeChunks key header nonces (remaining - min remaining chunk) input out
termination_by remaining
decreasing_by
  have hchunk := chunk_pos
  omega

/-- The loop over the entries and their files. -/
def writeEntries (key header : List UInt8) (nonces : Nat → List UInt8) :
    List (Entry × Option SourceFile) → Output → Except BackupError Output
  | [], out => .ok out
  | (_, none) :: _, _ => .error .io
  | (entry, some file) :: sources, out => do
    let (rest, out) ← writeChunks C key header nonces entry.size file.content out
    if rest ≠ [] ∨ file.touched then
      .error (.store "A file changed during backup. Please try again.")
    else
      writeEntries key header nonces sources out

/-- `write` up to the marker: the archive. -/
def writeArchive (password random : List UInt8) (nonces : Nat → List UInt8) (manifest : Manifest) (seed : List UInt8)
    (sources : List (Option SourceFile)) : Except BackupError (List UInt8) := do
  let header := magic ++ random
  let key ← backupKey C password header
  let out ← writeFrame C key header nonces (C.manifestToVec manifest) { bytes := header, index := 0 }
  let out ← writeFrame C key header nonces seed out
  let out ← writeEntries C key header nonces (manifest.entries.zip sources) out
  let out ← writeFrame C key header nonces endMarker out
  .ok out.bytes

/-- `BackupSnapshot::write`: the archive, if it reads back and nothing is at its place. -/
def write (password random : List UInt8) (nonces : Nat → List UInt8) (manifest : Manifest) (seed : List UInt8)
    (sources : List (Option SourceFile)) (occupied : Bool) : Except BackupError (List UInt8 × BackupSummary) := do
  checkPassword password
  let bytes ← writeArchive C password random nonces manifest seed sources
  let _ ← (readArchive C bytes password none).2
  if occupied then .error .io else .ok (bytes, manifest.summary)

end

end DoubleSlash.Store.Backup
