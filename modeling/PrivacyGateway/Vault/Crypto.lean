/-
AES-256-GCM envelope encryption for vault records.

An envelope is a header with the key id, a nonce and a ciphertext. The
cipher itself is a parameter (`Aead`): what is assumed of it is that it
opens what it sealed, and refuses what it sealed under other associated
data. `VaultAad.toBytes` frames each field behind its length, so different
identities have different associated data.

`unsealEnvelope_seal` and `unsealEnvelope_other` are what the vault uses: an envelope
opens for the identity it was sealed for, and for no other.
-/
import PrivacyGateway.Domain
import PrivacyGateway.Lib.Frame
import PrivacyGateway.Lib.Splice

namespace PrivacyGateway.Vault

open Splice

def vaultEncryptionError (why : String) : Exn :=
  gatewayError .vaultEncryptionFailed (reason why)

-- ==================================================== keys

def vaultKeyBytes : Nat := 32

/-- An explicit in-memory key ring. -/
structure StaticKeyRing where
  keys : Dict Text Bytes
  activeKeyId : Text
  active_present : (keys.get? activeKeyId).isSome = true
  keys_valid : ∀ entry ∈ keys, entry.2.length = vaultKeyBytes

def StaticKeyRing.key (ring : StaticKeyRing) (keyId : Text) :
    Except Exn Bytes :=
  match ring.keys.get? keyId with
  | some key => .ok key
  | none => .error (vaultEncryptionError "unknown_key_id")

/-- The active key is on the ring. -/
theorem StaticKeyRing.key_active (ring : StaticKeyRing) :
    ∃ key, ring.key ring.activeKeyId = .ok key := by
  obtain ⟨key, hkey⟩ := Option.isSome_iff_exists.mp ring.active_present
  refine ⟨key, ?_⟩
  unfold StaticKeyRing.key
  rw [hkey]

-- ==================================================== associated data

def envelopeVersion : UInt8 := 1

def aadDomain : Bytes := encodeUtf8 "sgw.vault.aad.v1".toList

/-- The identity a record is cryptographically bound to. -/
structure VaultAad where
  tenantId : UUID
  sessionId : UUID
  entityType : Text
  tokenId : Text
deriving DecidableEq

namespace VaultAad

def fields (aad : VaultAad) : List Bytes :=
  [aadDomain, [envelopeVersion], encodeUtf8 aad.tenantId.str,
    encodeUtf8 aad.sessionId.str, encodeUtf8 aad.entityType,
    encodeUtf8 aad.tokenId]

/-- Every field behind its two-byte length; `none` where a length does not
fit. -/
def toBytes (aad : VaultAad) : Option Bytes :=
  Frame.frame 2 aad.fields

/-- One serialization, one identity. -/
theorem eq_of_toBytes {aad other : VaultAad} {bytes : Bytes}
    (h : aad.toBytes = some bytes) (ho : other.toBytes = some bytes) :
    aad = other := by
  have hfields := Frame.frame_injective (by omega) _ _ _ h ho
  simp only [fields, List.cons.injEq, true_and, and_true] at hfields
  obtain ⟨htenant, hsession, htype, hid⟩ := hfields
  cases aad
  cases other
  simp only [VaultAad.mk.injEq]
  exact ⟨UUID.str_injective (encodeUtf8_injective htenant),
    UUID.str_injective (encodeUtf8_injective hsession),
    encodeUtf8_injective htype, encodeUtf8_injective hid⟩

end VaultAad

-- ==================================================== envelopes

def envelopeMagic : Bytes := encodeUtf8 "SGWV".toList
def headerSize : Nat := 6
def nonceBytes : Nat := 12
def gcmTagBytes : Nat := 16
def maxKeyIdBytes : Nat := 255

/-- A parsed stored record; the ciphertext includes the tag. -/
structure Envelope where
  version : UInt8
  keyId : Text
  nonce : Bytes
  ciphertext : Bytes
deriving DecidableEq

namespace Envelope

def toBytes (envelope : Envelope) : Except Exn Bytes :=
  let keyId := encodeUtf8 envelope.keyId
  if 0 < keyId.length ∧ keyId.length ≤ maxKeyIdBytes then
    .ok (envelopeMagic ++ [envelope.version, UInt8.ofNat keyId.length] ++
      keyId ++ envelope.nonce ++ envelope.ciphertext)
  else .error (vaultEncryptionError "key_id_length_invalid")

/-- Parse a stored record. -/
def fromBytes (raw : Bytes) : Except Exn Envelope :=
  if raw.length < headerSize then
    .error (vaultEncryptionError "envelope_truncated")
  else
    let version := raw.getD 4 0
    let keyIdLength := (raw.getD 5 0).toNat
    if raw.take 4 ≠ envelopeMagic then
      .error (vaultEncryptionError "envelope_magic_mismatch")
    else if version ≠ envelopeVersion then
      .error (gatewayError .vaultEncryptionFailed
        (reason "envelope_version_unsupported" ++
          [("version", .int version.toNat)]))
    else if keyIdLength = 0 then
      .error (vaultEncryptionError "envelope_key_id_missing")
    else
      let keyIdEnd := headerSize + keyIdLength
      let nonceEnd := keyIdEnd + nonceBytes
      if raw.length < nonceEnd + gcmTagBytes then
        .error (vaultEncryptionError "envelope_truncated")
      else
        match decodeUtf8 (slice raw headerSize keyIdEnd) with
        | none => .error (vaultEncryptionError "envelope_key_id_invalid")
        | some keyId =>
            .ok
              { version := version
                keyId := keyId
                nonce := slice raw keyIdEnd nonceEnd
                ciphertext := raw.drop nonceEnd }

/-- The bytes of an envelope: a header of six, then its three parts. -/
def layout (version : UInt8) (keyId nonce ciphertext : Bytes) : Bytes :=
  [83, 71, 87, 86, version, UInt8.ofNat keyId.length] ++
    (keyId ++ (nonce ++ ciphertext))

theorem slice_layout (version : UInt8) (keyId nonce ciphertext : Bytes) :
    slice (layout version keyId nonce ciphertext) headerSize
      (headerSize + keyId.length) = keyId := by
  unfold layout
  rw [show headerSize = ([83, 71, 87, 86, version,
      UInt8.ofNat keyId.length] : Bytes).length from rfl,
    slice_append_left, List.take_left' rfl]

theorem drop_layout (version : UInt8) (keyId nonce ciphertext : Bytes) :
    (layout version keyId nonce ciphertext).drop
      (headerSize + keyId.length) = nonce ++ ciphertext := by
  rw [← List.drop_drop, show (layout version keyId nonce ciphertext).drop
    headerSize = keyId ++ (nonce ++ ciphertext) by rfl, List.drop_left' rfl]

theorem toBytes_ok {envelope : Envelope} {raw : Bytes}
    (h : envelope.toBytes = .ok raw) :
    0 < (encodeUtf8 envelope.keyId).length ∧
      (encodeUtf8 envelope.keyId).length ≤ maxKeyIdBytes ∧
      raw = layout envelope.version (encodeUtf8 envelope.keyId)
        envelope.nonce envelope.ciphertext := by
  unfold toBytes at h
  simp only at h
  by_cases hkey : 0 < (encodeUtf8 envelope.keyId).length ∧
      (encodeUtf8 envelope.keyId).length ≤ maxKeyIdBytes
  · rw [if_pos hkey] at h
    cases h
    refine ⟨hkey.1, hkey.2, ?_⟩
    unfold layout
    rw [show envelopeMagic = [83, 71, 87, 86] by decide +kernel]
    simp only [List.append_assoc, List.cons_append, List.nil_append]
  · rw [if_neg hkey] at h
    cases h

/-- Parsing reads back what was written. -/
theorem fromBytes_toBytes {envelope : Envelope} {raw : Bytes}
    (h : envelope.toBytes = .ok raw)
    (hversion : envelope.version = envelopeVersion)
    (hnonce : envelope.nonce.length = nonceBytes)
    (htag : gcmTagBytes ≤ envelope.ciphertext.length) :
    fromBytes raw = .ok envelope := by
  obtain ⟨hpos, hmax, rfl⟩ := toBytes_ok h
  cases envelope with
  | mk version keyId nonce ciphertext =>
      simp only at hversion hnonce htag hpos hmax ⊢
      have hlen : (UInt8.ofNat (encodeUtf8 keyId).length).toNat =
          (encodeUtf8 keyId).length := by
        apply UInt8.toNat_ofNat_of_lt'
        show (encodeUtf8 keyId).length < 256
        unfold maxKeyIdBytes at hmax
        omega
      have hsize : (layout version (encodeUtf8 keyId) nonce
          ciphertext).length = headerSize + (encodeUtf8 keyId).length +
            nonceBytes + ciphertext.length := by
        unfold layout headerSize
        simp only [List.length_append, List.length_cons, List.length_nil,
          hnonce]
        omega
      have hnum : (layout version (encodeUtf8 keyId) nonce
          ciphertext).getD 5 0 = UInt8.ofNat (encodeUtf8 keyId).length := rfl
      have hnonces : slice (layout version (encodeUtf8 keyId) nonce
            ciphertext) (headerSize + (encodeUtf8 keyId).length)
            (headerSize + (encodeUtf8 keyId).length + nonceBytes) =
          nonce := by
        unfold slice
        rw [List.drop_take, drop_layout, Nat.add_sub_cancel_left,
          List.take_left' hnonce]
      have hcipher : (layout version (encodeUtf8 keyId) nonce
            ciphertext).drop (headerSize + (encodeUtf8 keyId).length +
              nonceBytes) = ciphertext := by
        rw [← List.drop_drop, drop_layout, List.drop_left' hnonce]
      unfold fromBytes
      rw [if_neg (by omega)]
      simp only
      rw [if_neg (by
        rw [not_not]
        exact (show envelopeMagic = [83, 71, 87, 86] by
          decide +kernel).symm)]
      rw [if_neg (by
        rw [not_not]
        exact hversion)]
      rw [hnum, hlen, if_neg (by omega), if_neg (by omega), slice_layout,
        decodeUtf8_encodeUtf8, hnonces, hcipher]
      rfl

end Envelope

-- ==================================================== the cipher

/-- AES-GCM, as an ideal authenticated cipher. -/
structure Aead where
  encrypt : (key nonce plaintext aad : Bytes) → Bytes
  decrypt : (key nonce ciphertext aad : Bytes) → Option Bytes
  decrypt_encrypt : ∀ key nonce plaintext aad,
    decrypt key nonce (encrypt key nonce plaintext aad) aad = some plaintext
  decrypt_other : ∀ key nonce plaintext aad other, other ≠ aad →
    decrypt key nonce (encrypt key nonce plaintext aad) other = none
  tag_length : ∀ key nonce plaintext aad,
    gcmTagBytes ≤ (encrypt key nonce plaintext aad).length

/-- Seals and unseals vault records under a rotating key ring. -/
structure EnvelopeCipher where
  aead : Aead
  keyRing : StaticKeyRing

namespace EnvelopeCipher

variable (cipher : EnvelopeCipher)

/-- Encrypt under the active key and return the serialized envelope. -/
def sealEnvelope (nonce plaintext : Bytes) (aad : VaultAad) : Except Exn Bytes :=
  match cipher.keyRing.key cipher.keyRing.activeKeyId with
  | .error e => .error e
  | .ok key =>
      match aad.toBytes with
      | none => .error (vaultEncryptionError "seal_failed")
      | some aadBytes =>
          Envelope.toBytes
            { version := envelopeVersion
              keyId := cipher.keyRing.activeKeyId
              nonce := nonce
              ciphertext := cipher.aead.encrypt key nonce plaintext aadBytes }

/-- Authenticate and decrypt a stored envelope. -/
def unsealEnvelope (raw : Bytes) (aad : VaultAad) : Except Exn Bytes :=
  match Envelope.fromBytes raw with
  | .error e => .error e
  | .ok envelope =>
      match cipher.keyRing.key envelope.keyId with
      | .error e => .error e
      | .ok key =>
          match aad.toBytes with
          | none => .error (.other "OverflowError")
          | some aadBytes =>
              match cipher.aead.decrypt key envelope.nonce
                  envelope.ciphertext aadBytes with
              | none => .error (vaultEncryptionError "authentication_failed")
              | some plaintext => .ok plaintext

variable {cipher} {nonce plaintext raw : Bytes} {aad other : VaultAad}

/-- A sealed envelope, as its reader parses it. -/
theorem sealEnvelope_ok (h : cipher.sealEnvelope nonce plaintext aad = .ok raw)
    (hnonce : nonce.length = nonceBytes) :
    ∃ key aadBytes, cipher.keyRing.key cipher.keyRing.activeKeyId =
        .ok key ∧ aad.toBytes = some aadBytes ∧
      Envelope.fromBytes raw = .ok ⟨envelopeVersion,
        cipher.keyRing.activeKeyId, nonce,
        cipher.aead.encrypt key nonce plaintext aadBytes⟩ := by
  unfold sealEnvelope at h
  cases hkey : cipher.keyRing.key cipher.keyRing.activeKeyId with
  | error e =>
      rw [hkey] at h
      cases h
  | ok key =>
      rw [hkey] at h
      cases haad : aad.toBytes with
      | none =>
          rw [haad] at h
          cases h
      | some aadBytes =>
          rw [haad] at h
          exact ⟨key, aadBytes, rfl, rfl, Envelope.fromBytes_toBytes h rfl
            hnonce (cipher.aead.tag_length _ _ _ _)⟩

/-- An envelope opens for the identity it was sealed for. -/
theorem unsealEnvelope_seal (h : cipher.sealEnvelope nonce plaintext aad = .ok raw)
    (hnonce : nonce.length = nonceBytes) :
    cipher.unsealEnvelope raw aad = .ok plaintext := by
  obtain ⟨key, aadBytes, hkey, haad, hparse⟩ := sealEnvelope_ok h hnonce
  unfold unsealEnvelope
  rw [hparse]
  simp only [hkey, haad, cipher.aead.decrypt_encrypt]

/-- An envelope does not open for any other identity. -/
theorem unsealEnvelope_other (h : cipher.sealEnvelope nonce plaintext aad = .ok raw)
    (hnonce : nonce.length = nonceBytes) (hne : other ≠ aad)
    {otherBytes : Bytes} (hother : other.toBytes = some otherBytes) :
    cipher.unsealEnvelope raw other =
      .error (vaultEncryptionError "authentication_failed") := by
  obtain ⟨key, aadBytes, hkey, haad, hparse⟩ := sealEnvelope_ok h hnonce
  have hbytes : otherBytes ≠ aadBytes := by
    intro hsame
    rw [hsame] at hother
    exact hne (VaultAad.eq_of_toBytes hother haad)
  unfold unsealEnvelope
  rw [hparse]
  simp only [hkey, hother, cipher.aead.decrypt_other _ _ _ _ _ hbytes]

end EnvelopeCipher

end PrivacyGateway.Vault
