import DoubleSlash.Lib.Codec
import DoubleSlash.Lib.Text
import DoubleSlash.Tls.Der

/-!
# The identity a certificate claims, and the signature that proves it

`cn_from_cert_der`, `device_from_cert_der` and `verify_device_root_signature` of `quic_tls.rs`. The CN of a peer certificate
is the hex of its identity key, with an optional `.` and the base64url of a device id after it. Ed25519 is a parameter: a
verification function, and the relation "the holder of this key signed this message" it is taken to witness.
-/

namespace DoubleSlash.Tls

open Machine Codec Text

/-- Ed25519 as the TLS layer uses it, taken as unforgeable: a signature that verifies was made by the holder of the key. -/
structure Ed25519 where
  /-- `VerifyingKey::from_bytes` accepts the 32 bytes. -/
  isKey : List UInt8 → Bool
  /-- `Signature::from_slice` accepts the bytes. -/
  isSignature : List UInt8 → Bool
  /-- `VerifyingKey::verify_strict`. -/
  verifyStrict : List UInt8 → List UInt8 → List UInt8 → Bool
  /-- The holder of the key signed the message. -/
  Signed : List UInt8 → List UInt8 → Prop
  unforgeable : ∀ key message sig, verifyStrict key message sig = true → Signed key message

/-- The reading of a verification function in which a message counts as signed when some signature on it verifies. -/
def Ed25519.ofVerify (isKey isSignature : List UInt8 → Bool)
    (verify : List UInt8 → List UInt8 → List UInt8 → Bool) : Ed25519 where
  isKey := isKey
  isSignature := isSignature
  verifyStrict := verify
  Signed key message := ∃ sig, verify key message sig = true
  unforgeable _ _ sig h := ⟨sig, h⟩

/-- `rustls::SignatureScheme`, as far as it is told apart here. -/
inductive SignatureScheme where
  | ed25519 | other
  deriving DecidableEq, Repr

/-- `rustls::DigitallySignedStruct`. -/
structure DigitallySigned where
  scheme : SignatureScheme
  signature : List UInt8

/-- The two certificate errors the check reports. -/
inductive CertificateError where
  | badEncoding | badSignature
  deriving DecidableEq, Repr

/-- A device id: 32 bytes. -/
structure DeviceId where
  bytes : List UInt8
  length_eq : bytes.length = 32
  deriving DecidableEq

/-- `bytes.try_into()` at a device id. -/
def DeviceId.ofBytes? (bytes : List UInt8) : Option DeviceId :=
  if h : bytes.length = 32 then some ⟨bytes, h⟩ else none

theorem length_equalBytes (byte : UInt8) : (List.replicate 32 byte).length = 32 := List.length_replicate

variable (b : Build) (W : Word)

/-- `cn_from_cert_der`: the CN up to its first dot. -/
def cnFromCertDer (cert : List UInt8) : Except Fault (Option String) := do
  match ← parseCnFromDer b W cert with
  | none => return none
  | some cn => return some ((splitOnce '.' cn).elim cn Prod.fst)

/-- The device suffix of a CN. -/
def deviceOfCn (cn : String) : Option DeviceId := do
  let (_, device) ← splitOnce '.' cn
  let bytes ← b64urlDecode device
  DeviceId.ofBytes? bytes

/-- `device_from_cert_der`. -/
def deviceFromCertDer (cert : List UInt8) : Except Fault (Option DeviceId) := do
  match ← parseCnFromDer b W cert with
  | none => return none
  | some cn => return deviceOfCn cn

/-- The hex of the identity key in a CN, its device suffix checked first when there is one. -/
def identityHex (cert : List UInt8) (cn : String) : Except Fault (Option String) := do
  match splitOnce '.' cn with
  | some (identity, _) =>
    -- the suffix is validated through a second scan of the certificate
    match ← deviceFromCertDer b W cert with
    | none => return none
    | some _ => return some identity
  | none => return some cn

/-- The signature check once the identity's hex is known. -/
def checkRoot (E : Ed25519) (message : List UInt8) (dss : DigitallySigned) (hex : String) : Option Unit := do
  let root ← hexDecode hex
  if root.length ≠ 32 then none
  if dss.scheme ≠ .ed25519 then none
  if E.isKey root = false then none
  if E.isSignature dss.signature = false then none
  if E.verifyStrict root message dss.signature then some () else none

/-- `verify_device_root_signature`. -/
def verifyDeviceRootSignature (E : Ed25519) (message : List UInt8) (cert : List UInt8) (dss : DigitallySigned) :
    Except Fault (Except CertificateError Unit) := do
  match ← parseCnFromDer b W cert with
  | none => return .error .badEncoding
  | some cn =>
    match ← identityHex b W cert cn with
    | none => return .error .badSignature
    | some hex =>
      match checkRoot E message dss hex with
      | none => return .error .badSignature
      | some () => return .ok ()

end DoubleSlash.Tls
