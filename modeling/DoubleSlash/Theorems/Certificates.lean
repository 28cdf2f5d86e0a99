import DoubleSlash.Tls.Certificate

/-!
# Peer certificates: no crash, and the CN names the signer

The scanner of a peer certificate runs on bytes nobody has authenticated. It is safe on a certificate exactly when the CN's
length, cut to a machine word and added to where the value starts, still fits in a word (`certificateSafe_iff`).
-/

namespace DoubleSlash.Tls

open Machine Codec Text

/-- A CN with a well-formed device suffix: after its first dot, the base64url of 32 bytes. -/
def HasDeviceSuffix (cn : String) : Prop :=
  ∃ identity device bytes, cn.toList = identity ++ '.' :: device ∧ '.' ∉ identity ∧
    b64urlDecode (String.ofList device) = some bytes ∧ bytes.length = 32

/-- What a certificate must not do to the TLS layer, and what the layer may conclude from it. -/
structure CertificateSafe (b : Build) (W : Word) (E : Ed25519) (cert : Bytes W) : Prop where
  /-- No length header of any slice of bytes faults. -/
  length_noFault : ∀ data : Bytes W, NoFault (parseDerLength b W data.data)
  /-- Nor does the scan of the certificate. -/
  cn_noFault : NoFault (parseCnFromDer b W cert.data)
  /-- A CN is a run of the certificate's bytes. -/
  cn_subslice : ∀ cn, parseCnFromDer b W cert.data = .ok (some cn) →
    ∃ pre post, cert.data = pre ++ cn.toUTF8.data.toList ++ post
  /-- A handshake is accepted only when the key the CN reports signed it. -/
  signer : ∀ message dss, verifyDeviceRootSignature b W E message cert.data dss = .ok (.ok ()) →
    ∃ hex key, cnFromCertDer b W cert.data = .ok (some hex) ∧ hexDecode hex = some key ∧ E.Signed key message
  /-- No device is reported exactly when the CN has no well-formed device suffix. -/
  device_none : deviceFromCertDer b W cert.data = .ok none ↔
    ∀ cn, parseCnFromDer b W cert.data = .ok (some cn) → ¬HasDeviceSuffix cn

namespace CertificatesAux

/-- A CN carries a device exactly when its suffix is well formed. -/
theorem deviceOfCn_isSome_iff (cn : String) : (∃ d, deviceOfCn cn = some d) ↔ HasDeviceSuffix cn := by
  constructor
  · rintro ⟨d, hd⟩
    simp only [deviceOfCn, Option.bind_eq_bind, Option.bind_eq_some_iff] at hd
    obtain ⟨⟨identity, device⟩, hsplit, bytes, hbytes, hdev⟩ := hd
    obtain ⟨hcn, hdot⟩ := splitOnce_eq_some_iff.mp hsplit
    refine ⟨identity.toList, device.toList, bytes, hcn, hdot, by simpa using hbytes, ?_⟩
    simp only [DeviceId.ofBytes?] at hdev
    split at hdev
    · assumption
    · cases hdev
  · rintro ⟨identity, device, bytes, hcn, hdot, hbytes, hlen⟩
    have hsplit : splitOnce '.' cn = some (String.ofList identity, String.ofList device) :=
      splitOnce_eq_some_iff.mpr ⟨by simpa using hcn, by simpa using hdot⟩
    exact ⟨⟨bytes, hlen⟩, by simp [deviceOfCn, hsplit, hbytes, DeviceId.ofBytes?, hlen]⟩

/-- A passed signature check is a signature by the decoded key. -/
theorem signed_of_checkRoot {E : Ed25519} {message : List UInt8} {dss : DigitallySigned} {hex : String}
    (h : checkRoot E message dss hex = some ()) : ∃ key, hexDecode hex = some key ∧ E.Signed key message := by
  unfold checkRoot at h
  cases hk : hexDecode hex with
  | none => simp [hk] at h
  | some key =>
    refine ⟨key, rfl, E.unforgeable key message dss.signature ?_⟩
    simp only [hk, Option.bind_eq_bind, Option.bind_some] at h
    by_contra hv
    simp only [hv, if_false] at h
    split at h <;> split at h <;> split at h <;> split at h <;> simp at h

/-- The hex an accepted handshake was checked against is the part of the CN that `cn_from_cert_der` reports. -/
theorem identityHex_eq {b : Build} {W : Word} {cert : List UInt8} {cn hex : String}
    (h : identityHex b W cert cn = .ok (some hex)) : hex = (splitOnce '.' cn).elim cn Prod.fst := by
  unfold identityHex at h
  cases hs : splitOnce '.' cn with
  | none =>
    simp only [hs, pure, Except.pure, Except.ok.injEq, Option.some.injEq] at h
    simp [h]
  | some p =>
    simp only [hs, bind, Except.bind] at h
    cases hd : deviceFromCertDer b W cert with
    | error e => simp [hd] at h
    | ok d =>
      cases d with
      | none => simp [hd, pure, Except.pure] at h
      | some d =>
        simp only [hd, pure, Except.pure, Except.ok.injEq, Option.some.injEq] at h
        simp [h]

/-- An accepted handshake was signed by the key the CN reports. -/
theorem signer_of_verify {b : Build} {W : Word} {E : Ed25519} {message cert : List UInt8} {dss : DigitallySigned}
    (h : verifyDeviceRootSignature b W E message cert dss = .ok (.ok ())) :
    ∃ hex key, cnFromCertDer b W cert = .ok (some hex) ∧ hexDecode hex = some key ∧ E.Signed key message := by
  unfold verifyDeviceRootSignature at h
  cases hcn : parseCnFromDer b W cert with
  | error e => simp [hcn, bind, Except.bind] at h
  | ok o =>
    cases o with
    | none => simp [hcn, bind, Except.bind, pure, Except.pure] at h
    | some cn =>
      simp only [hcn, bind, Except.bind] at h
      cases hhex : identityHex b W cert cn with
      | error e => simp [hhex] at h
      | ok o =>
        cases o with
        | none => simp [hhex, pure, Except.pure] at h
        | some hex =>
          simp only [hhex] at h
          cases hc : checkRoot E message dss hex with
          | none => simp [hc, pure, Except.pure] at h
          | some u =>
            obtain ⟨key, hkey, hsigned⟩ := signed_of_checkRoot hc
            refine ⟨hex, key, ?_, hkey, hsigned⟩
            rw [identityHex_eq hhex]
            simp [cnFromCertDer, hcn, bind, Except.bind, pure, Except.pure]

/-- Where the scan does not fault, no device is reported exactly when the CN has no device suffix. -/
theorem device_none_iff {b : Build} {W : Word} {cert : List UInt8} (h : NoFault (parseCnFromDer b W cert)) :
    deviceFromCertDer b W cert = .ok none ↔
      ∀ cn, parseCnFromDer b W cert = .ok (some cn) → ¬HasDeviceSuffix cn := by
  obtain ⟨o, ho⟩ := h
  cases o with
  | none => simp [deviceFromCertDer, ho, bind, Except.bind, pure, Except.pure]
  | some cn =>
    simp only [deviceFromCertDer, ho, bind, Except.bind, pure, Except.pure, Except.ok.injEq, Option.some.injEq,
      forall_eq', ← deviceOfCn_isSome_iff]
    cases deviceOfCn cn <;> simp

end CertificatesAux

open CertificatesAux

/-- A certificate is safe for the TLS layer exactly when its CN length does not overflow: on both word sizes, checked or
wrapping. -/
theorem certificateSafe_iff (b : Build) (W : Word) (E : Ed25519) (cert : Bytes W) :
    CertificateSafe b W E cert ↔ ¬LengthOverflows W cert.data := by
  rw [← noFault_parseCnFromDer_iff b W cert]
  constructor
  · intro h
    exact h.cn_noFault
  · intro h
    exact {
      length_noFault := fun data => ⟨_, parseDerLength_eq b W data.data⟩
      cn_noFault := h
      cn_subslice := fun cn hcn => parseCnFromDer_subslice hcn
      signer := fun message dss hv => signer_of_verify hv
      device_none := device_none_iff h }

/-- A CN header on a 64-bit machine whose eight length bytes are all `0xFF`: thirteen bytes that end the handshake with a
panic. -/
def overflowingCert : Bytes .w64 :=
  ⟨[0x55, 0x04, 0x03, 0x0C, 0x88, 0xFF, 0xFF, 0xFF, 0xFF, 0xFF, 0xFF, 0xFF, 0xFF], by decide⟩

/-- Not every certificate is safe: a release build panics on `overflowingCert`. -/
theorem certificateSafe_fails : ¬∀ (b : Build) (W : Word) (E : Ed25519) (cert : Bytes W), CertificateSafe b W E cert := by
  intro h
  have hs := (h .release .w64 (Ed25519.ofVerify (fun _ => true) (fun _ => true) fun _ _ _ => false) overflowingCert).cn_noFault
  rw [noFault_parseCnFromDer_iff] at hs
  exact hs ⟨0, 0x0C, 0x88, List.replicate 8 0xFF, by decide, by decide, by decide, by decide, by decide, by decide⟩

end DoubleSlash.Tls
