/-
Envelopes and document headers: what is written is read back, and only
what is written is accepted.

Both formats open with a magic, a version and a key id behind its length.
Reading back what was written is `Envelope.fromBytes_toBytes` and
`DocumentHeader.parse_toBytes`; here is the other direction. A reader
that accepts has cut its input at the ends of the fields
(`fromBytes_cases`, `parse_cases`), so the fields put side by side are
the input again, and a key id that decodes has the bytes it was decoded
from.
-/
import PrivacyGateway.Documents.Proofs.Streams

namespace PrivacyGateway

open Splice

/-- Text that was decoded is encoded as the bytes it was decoded from. -/
theorem encodeUtf8_of_decodeUtf8 {bytes : Bytes} {text : Text}
    (h : decodeUtf8 bytes = some text) : encodeUtf8 text = bytes := by
  unfold decodeUtf8 at h
  obtain ⟨characters, hdecoded, rfl⟩ := Option.map_eq_some_iff.mp h
  have hencoded := @ByteArray.utf8Encode_get_utf8Decode? bytes.toByteArray
    (by rw [hdecoded]; rfl)
  simp only [hdecoded, Option.get_some] at hencoded
  have hbytes := congrArg (fun array => array.data.toList) hencoded
  simp only [List.utf8Encode, List.data_toByteArray] at hbytes
  exact hbytes

-- ==================================================== the common prefix

/-- A magic, a version and a key id behind its length, before more. -/
structure Prefixed (magic : Bytes) (version : UInt8) (raw : Bytes)
    (keyId : Text) : Prop where
  magic_eq : raw.take 4 = magic
  version_eq : raw.getD 4 0 = version
  length_pos : (raw.getD 5 0).toNat ≠ 0
  long : 6 + (raw.getD 5 0).toNat ≤ raw.length
  decodes : decodeUtf8 (slice raw 6 (6 + (raw.getD 5 0).toNat)) =
    some keyId

namespace Prefixed

variable {magic raw : Bytes} {version : UInt8} {keyId : Text}

theorem length_keyId (h : Prefixed magic version raw keyId) :
    (encodeUtf8 keyId).length = (raw.getD 5 0).toNat := by
  have := h.long
  rw [encodeUtf8_of_decodeUtf8 h.decodes, length_slice]
  omega

theorem keyId_bounded (h : Prefixed magic version raw keyId) :
    0 < (encodeUtf8 keyId).length ∧ (encodeUtf8 keyId).length ≤ 255 := by
  have hpos := h.length_pos
  have hbyte := (raw.getD 5 0).toNat_lt
  rw [h.length_keyId]
  omega

/-- The prefix written out, and what follows it, are the input. -/
theorem written (h : Prefixed magic version raw keyId) :
    magic ++ [version, UInt8.ofNat (encodeUtf8 keyId).length] ++
      encodeUtf8 keyId ++ raw.drop (6 + (raw.getD 5 0).toNat) = raw := by
  rw [h.length_keyId, UInt8.ofNat_toNat,
    encodeUtf8_of_decodeUtf8 h.decodes, List.append_assoc,
    slice_append_drop raw (by omega), ← h.magic_eq, ← h.version_eq]
  have hlong := h.long
  match raw, hlong with
  | _ :: _ :: _ :: _ :: _ :: _ :: _, _ => rfl

theorem head (h : Prefixed magic version raw keyId) :
    magic ++ [version, UInt8.ofNat (encodeUtf8 keyId).length] ++
      encodeUtf8 keyId = raw.take (6 + (raw.getD 5 0).toNat) :=
  List.append_cancel_right
    (h.written.trans (List.take_append_drop _ raw).symm)

end Prefixed

end PrivacyGateway

namespace PrivacyGateway.Vault.Envelope

open Splice

/-- What the reader of an envelope relies on. -/
structure WellFormed (envelope : Envelope) : Prop where
  version : envelope.version = envelopeVersion
  key_id : 0 < (encodeUtf8 envelope.keyId).length ∧
    (encodeUtf8 envelope.keyId).length ≤ maxKeyIdBytes
  nonce : envelope.nonce.length = nonceBytes
  tag : gcmTagBytes ≤ envelope.ciphertext.length

theorem toBytes_returns {envelope : Envelope} (h : envelope.WellFormed) :
    ∃ raw, envelope.toBytes = .ok raw :=
  ⟨_, if_pos h.key_id⟩

/-- An input is refused as a vault encryption failure, or cut at the ends
of its fields. -/
theorem fromBytes_cases (raw : Bytes) :
    (∃ context, fromBytes raw =
      .error (gatewayError .vaultEncryptionFailed context)) ∨
    ∃ keyId, Prefixed envelopeMagic envelopeVersion raw keyId ∧
      6 + (raw.getD 5 0).toNat + nonceBytes + gcmTagBytes ≤ raw.length ∧
      fromBytes raw = .ok
        { version := raw.getD 4 0
          keyId := keyId
          nonce := slice raw (6 + (raw.getD 5 0).toNat)
            (6 + (raw.getD 5 0).toNat + nonceBytes)
          ciphertext :=
            raw.drop (6 + (raw.getD 5 0).toNat + nonceBytes) } := by
  unfold fromBytes headerSize
  by_cases hsix : raw.length < 6
  · exact Or.inl ⟨_, if_pos hsix⟩
  rw [if_neg hsix]
  by_cases hmagic : raw.take 4 ≠ envelopeMagic
  · exact Or.inl ⟨_, if_pos hmagic⟩
  rw [if_neg hmagic]
  by_cases hversion : raw.getD 4 0 ≠ envelopeVersion
  · exact Or.inl ⟨_, if_pos hversion⟩
  rw [if_neg hversion]
  by_cases hzero : (raw.getD 5 0).toNat = 0
  · exact Or.inl ⟨_, if_pos hzero⟩
  rw [if_neg hzero]
  by_cases hshort : raw.length <
      6 + (raw.getD 5 0).toNat + nonceBytes + gcmTagBytes
  · exact Or.inl ⟨_, if_pos hshort⟩
  rw [if_neg hshort]
  cases hdecode : decodeUtf8
      (slice raw 6 (6 + (raw.getD 5 0).toNat)) with
  | none => exact Or.inl ⟨_, rfl⟩
  | some keyId =>
      exact Or.inr ⟨keyId, ⟨not_not.mp hmagic, not_not.mp hversion, hzero,
        by omega, hdecode⟩, by omega, rfl⟩

/-- An accepted envelope is written as the bytes it was read from. -/
theorem toBytes_of_fromBytes {raw : Bytes} {envelope : Envelope}
    (h : fromBytes raw = .ok envelope) :
    envelope.toBytes = .ok raw ∧ envelope.WellFormed := by
  rcases fromBytes_cases raw with ⟨context, hrefused⟩ |
    ⟨keyId, hopening, hlong, haccepted⟩
  · rw [hrefused] at h
    cases h
  · rw [haccepted] at h
    cases h
    have hbounded : 0 < (encodeUtf8 keyId).length ∧
        (encodeUtf8 keyId).length ≤ maxKeyIdBytes :=
      hopening.keyId_bounded
    constructor
    · unfold toBytes
      simp only
      rw [if_pos hbounded, hopening.version_eq, List.append_assoc,
        slice_append_drop raw (by omega), hopening.written]
    · refine ⟨hopening.version_eq, hbounded, ?_, ?_⟩
      · show (slice raw _ _).length = nonceBytes
        rw [length_slice]
        omega
      · show gcmTagBytes ≤ (raw.drop _).length
        rw [List.length_drop]
        omega

end PrivacyGateway.Vault.Envelope

namespace PrivacyGateway.Documents.DocumentHeader

open Splice

/-- What the reader of a header relies on. -/
structure WellFormed (header : DocumentHeader) : Prop where
  version : header.version = documentFormatVersion
  key_id : 0 < (encodeUtf8 header.keyId).length ∧
    (encodeUtf8 header.keyId).length ≤ maxKeyIdBytes
  salt : header.salt.length = saltBytes
  chunk : 0 < header.chunkBytes ∧ header.chunkBytes ≤ maxChunkBytes

theorem chunk_lt {chunkBytes : Nat}
    (h : 0 < chunkBytes ∧ chunkBytes ≤ maxChunkBytes) :
    ¬ chunkBytes ≥ 256 ^ headerSuffixSize := by
  have hmax := h.2
  unfold maxChunkBytes at hmax
  show ¬ chunkBytes ≥ 4294967296
  omega

theorem toBytes_returns {header : DocumentHeader}
    (h : header.WellFormed) : ∃ raw, header.toBytes = .ok raw := by
  unfold toBytes
  rw [if_neg (not_not.mpr h.key_id), if_neg (chunk_lt h.chunk)]
  exact ⟨_, rfl⟩

/-- Four bytes are the number they stand for, written out. -/
theorem bigEndian_unpack (bytes : Bytes) :
    Frame.bigEndian bytes.length (unpack bytes) = bytes := by
  have hdigits : ∀ d ∈ bytes.map UInt8.toNat, d < 256 := by
    intro d hd
    obtain ⟨byte, -, rfl⟩ := List.mem_map.mp hd
    exact byte.toNat_lt
  have hback := Radix.digits_value _ hdigits
  rw [List.length_map] at hback
  unfold Frame.bigEndian unpack
  rw [hback, List.map_map]
  conv_rhs => rw [← List.map_id bytes]
  exact List.map_congr_left (fun byte _ => UInt8.ofNat_toNat)

/-- An input is refused as a document encryption failure, or cut at the
ends of its fields. -/
theorem parse_cases (raw : Bytes) :
    (∃ context, parse raw =
      .error (gatewayError .documentEncryptionFailed context)) ∨
    ∃ keyId chunkBytes,
      Prefixed documentMagic documentFormatVersion raw keyId ∧
      6 + (raw.getD 5 0).toNat + saltBytes + headerSuffixSize ≤
        raw.length ∧
      chunkBytes = unpack (slice raw
        (6 + (raw.getD 5 0).toNat + saltBytes)
        (6 + (raw.getD 5 0).toNat + saltBytes + headerSuffixSize)) ∧
      (0 < chunkBytes ∧ chunkBytes ≤ maxChunkBytes) ∧
      parse raw = .ok (⟨raw.getD 4 0, keyId,
        slice raw (6 + (raw.getD 5 0).toNat)
          (6 + (raw.getD 5 0).toNat + saltBytes), chunkBytes⟩,
        6 + (raw.getD 5 0).toNat + saltBytes + headerSuffixSize) := by
  unfold parse headerPrefixSize
  by_cases hsix : raw.length < 6
  · exact Or.inl ⟨_, if_pos hsix⟩
  rw [if_neg hsix]
  by_cases hmagic : raw.take 4 ≠ documentMagic
  · exact Or.inl ⟨_, if_pos hmagic⟩
  rw [if_neg hmagic]
  by_cases hversion : raw.getD 4 0 ≠ documentFormatVersion
  · exact Or.inl ⟨_, if_pos hversion⟩
  rw [if_neg hversion]
  by_cases hzero : (raw.getD 5 0).toNat = 0
  · exact Or.inl ⟨_, if_pos hzero⟩
  rw [if_neg hzero]
  by_cases hshort : raw.length <
      6 + (raw.getD 5 0).toNat + saltBytes + headerSuffixSize
  · exact Or.inl ⟨_, if_pos hshort⟩
  rw [if_neg hshort]
  cases hdecode : decodeUtf8
      (slice raw 6 (6 + (raw.getD 5 0).toNat)) with
  | none => exact Or.inl ⟨_, rfl⟩
  | some keyId =>
      simp only
      by_cases hchunk : 0 < unpack (slice raw
            (6 + (raw.getD 5 0).toNat + saltBytes)
            (6 + (raw.getD 5 0).toNat + saltBytes + headerSuffixSize)) ∧
          unpack (slice raw (6 + (raw.getD 5 0).toNat + saltBytes)
            (6 + (raw.getD 5 0).toNat + saltBytes + headerSuffixSize)) ≤
            maxChunkBytes
      · rw [if_neg (not_not.mpr hchunk)]
        exact Or.inr ⟨keyId, _, ⟨not_not.mp hmagic, not_not.mp hversion,
          hzero, by omega, hdecode⟩, by omega, rfl, hchunk, rfl⟩
      · exact Or.inl ⟨_, if_pos hchunk⟩

/-- An accepted header is written as the bytes it takes. -/
theorem toBytes_of_parse {raw : Bytes} {header : DocumentHeader}
    {consumed : Nat} (h : parse raw = .ok (header, consumed)) :
    consumed ≤ raw.length ∧ header.toBytes = .ok (raw.take consumed) ∧
      header.WellFormed := by
  rcases parse_cases raw with ⟨context, hrefused⟩ |
    ⟨keyId, chunkBytes, hopening, hlong, hsize, hchunk, haccepted⟩
  · rw [hrefused] at h
    cases h
  · rw [haccepted] at h
    cases h
    have hbounded : 0 < (encodeUtf8 keyId).length ∧
        (encodeUtf8 keyId).length ≤ maxKeyIdBytes :=
      hopening.keyId_bounded
    have hsuffix : Frame.bigEndian headerSuffixSize chunkBytes =
        slice raw (6 + (raw.getD 5 0).toNat + saltBytes)
          (6 + (raw.getD 5 0).toNat + saltBytes + headerSuffixSize) := by
      rw [hsize]
      conv_rhs => rw [← bigEndian_unpack (slice raw _ _)]
      rw [length_slice]
      congr 1
      omega
    have htaken : raw.take (6 + (raw.getD 5 0).toNat + saltBytes +
          headerSuffixSize) =
        raw.take (6 + (raw.getD 5 0).toNat) ++
          slice raw (6 + (raw.getD 5 0).toNat) (6 + (raw.getD 5 0).toNat +
            saltBytes + headerSuffixSize) := by
      conv_lhs => rw [← List.take_append_drop
        (6 + (raw.getD 5 0).toNat) (raw.take _)]
      rw [List.take_take, Nat.min_eq_left (by omega)]
      rfl
    refine ⟨hlong, ?_, hopening.version_eq, hbounded, ?_, hchunk⟩
    · unfold toBytes
      rw [if_neg (not_not.mpr hbounded), if_neg (chunk_lt hchunk),
        hopening.version_eq, hopening.head, hsuffix, List.append_assoc,
        slice_append_slice raw (by omega) (by omega), htaken]
    · show (slice raw _ _).length = saltBytes
      rw [length_slice]
      omega

end PrivacyGateway.Documents.DocumentHeader

namespace PrivacyGateway.Documents

open Vault

-- ==================================================== both formats

/-- Envelopes and headers are read back from what they are written as; a
reader accepts no other bytes, and refuses them with its own error. A
header takes exactly its bytes, whatever follows them. -/
theorem formats_exact :
    (∀ envelope : Envelope, envelope.WellFormed →
      ∃ raw, envelope.toBytes = .ok raw ∧
        Envelope.fromBytes raw = .ok envelope) ∧
    (∀ raw envelope, Envelope.fromBytes raw = .ok envelope →
      envelope.toBytes = .ok raw) ∧
    (∀ raw e, Envelope.fromBytes raw = .error e →
      ∃ context, e = gatewayError .vaultEncryptionFailed context) ∧
    (∀ (header : DocumentHeader) (rest : Bytes), header.WellFormed →
      ∃ raw, header.toBytes = .ok raw ∧
        DocumentHeader.parse (raw ++ rest) = .ok (header, raw.length)) ∧
    (∀ raw header consumed,
      DocumentHeader.parse raw = .ok (header, consumed) →
        consumed ≤ raw.length ∧
          header.toBytes = .ok (raw.take consumed)) ∧
    ∀ raw e, DocumentHeader.parse raw = .error e →
      ∃ context, e = gatewayError .documentEncryptionFailed context := by
  refine ⟨?_, ?_, ?_, ?_, ?_, ?_⟩
  · intro envelope hformed
    obtain ⟨raw, hraw⟩ := Envelope.toBytes_returns hformed
    exact ⟨raw, hraw, Envelope.fromBytes_toBytes hraw hformed.version
      hformed.nonce hformed.tag⟩
  · intro raw envelope h
    exact (Envelope.toBytes_of_fromBytes h).1
  · intro raw e h
    rcases Envelope.fromBytes_cases raw with ⟨context, hrefused⟩ |
      ⟨keyId, -, -, haccepted⟩
    · exact ⟨context, Except.error.inj (h.symm.trans hrefused)⟩
    · rw [haccepted] at h
      cases h
  · intro header rest hformed
    obtain ⟨raw, hraw⟩ := DocumentHeader.toBytes_returns hformed
    exact ⟨raw, hraw, DocumentHeader.parse_toBytes hraw hformed.version
      hformed.salt hformed.chunk rest⟩
  · intro raw header consumed h
    obtain ⟨hconsumed, hwritten, -⟩ := DocumentHeader.toBytes_of_parse h
    exact ⟨hconsumed, hwritten⟩
  · intro raw e h
    rcases DocumentHeader.parse_cases raw with ⟨context, hrefused⟩ |
      ⟨keyId, chunkBytes, -, -, -, -, haccepted⟩
    · exact ⟨context, Except.error.inj (h.symm.trans hrefused)⟩
    · rw [haccepted] at h
      cases h

/-- The smallest envelope and the smallest header, and one byte less. -/
theorem formats_exact_smallest :
    Envelope.fromBytes (envelopeMagic ++ [1, 1, 107] ++
        List.replicate 28 0) =
      .ok ⟨1, "k".toList, List.replicate 12 0, List.replicate 16 0⟩ ∧
    (∃ raw, DocumentHeader.toBytes ⟨1, "k".toList, List.replicate 16 0, 1⟩ =
        .ok raw ∧
      DocumentHeader.parse (raw ++ [9]) =
        .ok (⟨1, "k".toList, List.replicate 16 0, 1⟩, raw.length)) ∧
    Envelope.fromBytes (envelopeMagic ++ [1, 1, 107] ++
        List.replicate 27 0) =
      .error (vaultEncryptionError "envelope_truncated") := by
  have hread : Envelope.fromBytes (envelopeMagic ++ [1, 1, 107] ++
        List.replicate 28 0) =
      .ok ⟨1, "k".toList, List.replicate 12 0, List.replicate 16 0⟩ := by
    decide +kernel
  refine ⟨hread, ?_, by decide +kernel⟩
  exact formats_exact.2.2.2.1 ⟨1, "k".toList, List.replicate 16 0, 1⟩ [9]
    ⟨rfl, by decide +kernel, rfl, by decide⟩

end PrivacyGateway.Documents
