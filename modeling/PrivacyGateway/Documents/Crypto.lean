/-
Chunked AES-256-GCM encryption for stored documents.

A document is sealed as a header and a sequence of frames, each
authenticated on its own: its associated data carries the identity, the
chunk index and whether the chunk is the last. A computation over
`List Bytes` is a generator; the state is what it has yielded so far.

The cipher, the key derivation and the random draws are parameters. What
is asked of the cipher is that it opens what it sealed, and that a
ciphertext is a tag longer than its plaintext.
-/
import PrivacyGateway.Lib.Cut
import PrivacyGateway.Lib.Effect
import PrivacyGateway.Outbound.Attestation
import PrivacyGateway.Vault.Crypto

namespace PrivacyGateway.Documents

open Effect Splice

def documentMagic : Bytes := encodeUtf8 "SGWD".toList
def documentFormatVersion : UInt8 := 1
def nonceBytes : Nat := 12
def gcmTagBytes : Nat := 16
def saltBytes : Nat := 16
def maxKeyIdBytes : Nat := 255

/-- 64 MiB. -/
def maxChunkBytes : Nat := 67108864

theorem two_le_maxChunkBytes : 0 < 2 ∧ 2 ≤ maxChunkBytes := by decide

/-- The magic, the version and the length of the key id. -/
def headerPrefixSize : Nat := 6

/-- The chunk size. -/
def headerSuffixSize : Nat := 4

def purposeBody : Text := "body".toList
def purposeFilename : Text := "filename".toList

def aadDomain : Bytes := encodeUtf8 "sgw.document.aad.v1".toList
def hkdfDomain : Bytes := encodeUtf8 "sgw.document.datakey.v1".toList

def documentEncryptionError (why : String) : Exn :=
  gatewayError .documentEncryptionFailed (reason why)

-- ==================================================== identity

/-- The context a document's ciphertext is bound to. -/
structure DocumentIdentity where
  tenantId : UUID
  userId : UUID
  documentId : UUID
  contentType : Text
  schemaVersion : Int := documentFormatVersion.toNat
deriving DecidableEq

/-- Join fields unambiguously; a field of 64 KiB overflows its prefix. -/
def lengthPrefixed (fields : List Bytes) : Except Exn Bytes :=
  match Frame.frame 2 fields with
  | some bytes => .ok bytes
  | none => .error Audit.overflowError

namespace DocumentIdentity

variable (identity : DocumentIdentity)

/-- What makes the data key document-specific. -/
def info : Except Exn Bytes :=
  lengthPrefixed [hkdfDomain, encodeUtf8 identity.tenantId.str,
    encodeUtf8 identity.userId.str, encodeUtf8 identity.documentId.str]

def aadFields (purpose : Text) (chunkIndex : Nat) (final : Bool) :
    List Bytes :=
  [aadDomain, [documentFormatVersion], encodeUtf8 identity.tenantId.str,
    encodeUtf8 identity.userId.str, encodeUtf8 identity.documentId.str,
    encodeUtf8 identity.contentType,
    encodeUtf8 (decimal identity.schemaVersion), encodeUtf8 purpose,
    encodeUtf8 (decimal chunkIndex),
    encodeUtf8 (if final then "1".toList else "0".toList)]

/-- Associated data for one chunk. -/
def aad (purpose : Text) (chunkIndex : Nat) (final : Bool) :
    Except Exn Bytes :=
  lengthPrefixed (identity.aadFields purpose chunkIndex final)

end DocumentIdentity

-- ==================================================== the header

/-- The self-describing prefix of a sealed document. -/
structure DocumentHeader where
  version : UInt8
  keyId : Text
  salt : Bytes
  chunkBytes : Nat
deriving DecidableEq

namespace DocumentHeader

def toBytes (header : DocumentHeader) : Except Exn Bytes :=
  if ¬ (0 < (encodeUtf8 header.keyId).length ∧
      (encodeUtf8 header.keyId).length ≤ maxKeyIdBytes) then
    .error (documentEncryptionError "key_id_length_invalid")
  else if header.chunkBytes ≥ 256 ^ headerSuffixSize then
    .error (.other "struct.error")
  else
    .ok (documentMagic ++
      [header.version, UInt8.ofNat (encodeUtf8 header.keyId).length] ++
      encodeUtf8 header.keyId ++ header.salt ++
      Frame.bigEndian headerSuffixSize header.chunkBytes)

/-- A big-endian number. -/
def unpack (bytes : Bytes) : Nat :=
  Radix.value 256 (bytes.map UInt8.toNat)

/-- Parse a header; also the number of bytes it takes. -/
def parse (raw : Bytes) : Except Exn (DocumentHeader × Nat) :=
  if raw.length < headerPrefixSize then
    .error (documentEncryptionError "header_truncated")
  else
    let version := raw.getD 4 0
    let keyIdLength := (raw.getD 5 0).toNat
    if raw.take 4 ≠ documentMagic then
      .error (documentEncryptionError "header_magic_mismatch")
    else if version ≠ documentFormatVersion then
      .error (gatewayError .documentEncryptionFailed
        (reason "header_version_unsupported" ++
          [("version", .int version.toNat)]))
    else if keyIdLength = 0 then
      .error (documentEncryptionError "header_key_id_missing")
    else
      let keyIdEnd := headerPrefixSize + keyIdLength
      let saltEnd := keyIdEnd + saltBytes
      let total := saltEnd + headerSuffixSize
      if raw.length < total then
        .error (documentEncryptionError "header_truncated")
      else
        match decodeUtf8 (slice raw headerPrefixSize keyIdEnd) with
        | none => .error (documentEncryptionError "header_key_id_invalid")
        | some keyId =>
            let chunkBytes := unpack (slice raw saltEnd total)
            if ¬ (0 < chunkBytes ∧ chunkBytes ≤ maxChunkBytes) then
              .error (documentEncryptionError "header_chunk_size_invalid")
            else
              .ok (⟨version, keyId, slice raw keyIdEnd saltEnd, chunkBytes⟩,
                total)

def minimumSize : Nat :=
  headerPrefixSize + 1 + saltBytes + headerSuffixSize

end DocumentHeader

-- ==================================================== the cipher

/-- AES-GCM, as far as the format relies on it. -/
structure ChunkAead where
  encrypt : (key nonce plaintext aad : Bytes) → Bytes
  decrypt : (key nonce ciphertext aad : Bytes) → Option Bytes
  decrypt_encrypt : ∀ key nonce plaintext aad,
    decrypt key nonce (encrypt key nonce plaintext aad) aad = some plaintext
  length_encrypt : ∀ key nonce plaintext aad,
    (encrypt key nonce plaintext aad).length =
      plaintext.length + gcmTagBytes

/-- What a sealing draws at random: its salt, and a nonce for each
chunk. -/
structure Draws where
  salt : Bytes
  nonce : Nat → Bytes
  salt_length : salt.length = saltBytes
  nonce_length : ∀ index, (nonce index).length = nonceBytes

/-- Seals and opens documents under a rotating key ring. -/
structure DocumentCipher where
  aead : ChunkAead
  hkdf : (master salt info : Bytes) → Bytes
  key : Text → Except Exn Bytes
  activeKeyId : Text
  chunkBytes : Nat
  chunkBytes_bounded : 0 < chunkBytes ∧ chunkBytes ≤ maxChunkBytes

/-- Yield one piece. -/
def emit (piece : Bytes) : Eff (List Bytes) Exn Unit :=
  act fun yielded => (.ok (), yielded ++ [piece])

/-- Regroup an arbitrarily chunked stream into blocks of one size. -/
def rechunk (source : List Bytes) (size : Nat) : List Bytes :=
  let blocks := Cut.cutAll size size [] source
  if blocks.2 = [] then blocks.1 else blocks.1 ++ [blocks.2]

/-- What the reader of a stream knows: the data key and the frame size,
once there was a header, what it has not used yet, and how many frames it
has opened. -/
structure OpenState where
  opened : Option (Bytes × Nat) := none
  buffer : Bytes := []
  index : Nat := 0
deriving DecidableEq

namespace DocumentCipher

variable (cipher : DocumentCipher)

/-- This document's data key. The ring key encrypts nothing. -/
def derive (keyId : Text) (salt : Bytes) (identity : DocumentIdentity) :
    Except Exn Bytes :=
  match cipher.key keyId with
  | .error (.gateway error) =>
      .error (gatewayError .documentEncryptionFailed
        [("reason", (error.logContext.lookup "reason").getD
          (.text "key_unavailable".toList))])
  | .error _ => .error (documentEncryptionError "key_unavailable")
  | .ok master =>
      match identity.info with
      | .error e => .error e
      | .ok info => .ok (cipher.hkdf master salt info)

def sealChunk (dataKey nonce plaintext aad : Bytes) : Bytes :=
  nonce ++ cipher.aead.encrypt dataKey nonce plaintext aad

def openChunk (dataKey frame aad : Bytes) : Except Exn Bytes :=
  if frame.length < nonceBytes + gcmTagBytes then
    .error (documentEncryptionError "chunk_truncated")
  else
    match cipher.aead.decrypt dataKey (frame.take nonceBytes)
        (frame.drop nonceBytes) aad with
    | none => .error (documentEncryptionError "authentication_failed")
    | some plaintext => .ok plaintext

-- ==================================================== whole values

/-- Seal one short value, a filename, as a single-chunk document. -/
def sealBytes (identity : DocumentIdentity) (purpose : Text)
    (draws : Draws) (plaintext : Bytes) : Except Exn Bytes := do
  let dataKey ← cipher.derive cipher.activeKeyId draws.salt identity
  let aad ← identity.aad purpose 0 true
  let header ← DocumentHeader.toBytes
    ⟨documentFormatVersion, cipher.activeKeyId, draws.salt,
      max plaintext.length 1⟩
  return header ++ cipher.sealChunk dataKey (draws.nonce 0) plaintext aad

/-- Open a value sealed by `sealBytes`. -/
def openBytes (identity : DocumentIdentity) (purpose : Text)
    (raw : Bytes) : Except Exn Bytes := do
  let (header, consumed) ← DocumentHeader.parse raw
  let dataKey ← cipher.derive header.keyId header.salt identity
  let aad ← identity.aad purpose 0 true
  cipher.openChunk dataKey (raw.drop consumed) aad

-- ==================================================== sealing a stream

/-- Seal and yield one chunk of a body. -/
def emitSealed (identity : DocumentIdentity) (draws : Draws)
    (dataKey : Bytes) (index : Nat) (plaintext : Bytes) (final : Bool) :
    Eff (List Bytes) Exn Unit := do
  let aad ← checked (identity.aad purposeBody index final)
  emit (cipher.sealChunk dataKey (draws.nonce index) plaintext aad)

/-- One frame behind the input, so that the last one is known to be. -/
def sealRest (identity : DocumentIdentity) (draws : Draws)
    (dataKey : Bytes) : Nat → Bytes → List Bytes →
    Eff (List Bytes) Exn Unit
  | index, pending, [] =>
      cipher.emitSealed identity draws dataKey index pending true
  | index, pending, block :: blocks => do
      cipher.emitSealed identity draws dataKey index pending false
      sealRest identity draws dataKey (index + 1) block blocks

/-- Yield the header, then one sealed frame per plaintext chunk. An empty
document gets one frame too. -/
def sealStream (identity : DocumentIdentity) (draws : Draws)
    (plaintext : List Bytes) : Eff (List Bytes) Exn Unit := do
  let dataKey ← checked (cipher.derive cipher.activeKeyId draws.salt
    identity)
  let header ← checked (DocumentHeader.toBytes
    ⟨documentFormatVersion, cipher.activeKeyId, draws.salt,
      cipher.chunkBytes⟩)
  emit header
  match rechunk plaintext cipher.chunkBytes with
  | [] => cipher.sealRest identity draws dataKey 0 [] []
  | block :: blocks =>
      cipher.sealRest identity draws dataKey 0 block blocks

-- ==================================================== opening a stream

/-- Open and yield one chunk of a body. -/
def emitOpened (identity : DocumentIdentity) (dataKey : Bytes)
    (index : Nat) (frame : Bytes) (final : Bool) :
    Eff (List Bytes) Exn Unit := do
  let aad ← checked (identity.aad purposeBody index final)
  let plaintext ← checked (cipher.openChunk dataKey frame aad)
  emit plaintext

/-- Open frames that are known not to be the last. -/
def openFrames (identity : DocumentIdentity) (dataKey : Bytes) :
    Nat → List Bytes → Eff (List Bytes) Exn Unit
  | _, [] => return ()
  | index, frame :: frames => do
      cipher.emitOpened identity dataKey index frame false
      openFrames identity dataKey (index + 1) frames

/-- Open every frame the buffer holds but the last: one is held back until
another byte arrives. -/
def openBuffered (identity : DocumentIdentity) (dataKey : Bytes)
    (frameSize index : Nat) (buffer : Bytes) :
    Eff (List Bytes) Exn OpenState := do
  let cut := Cut.cut frameSize (frameSize + 1) buffer
  cipher.openFrames identity dataKey index cut.1
  return {
    opened := some (dataKey, frameSize)
    buffer := cut.2
    index := index + cut.1.length }

/-- Take in one block. -/
def openBlock (identity : DocumentIdentity) (state : OpenState)
    (block : Bytes) : Eff (List Bytes) Exn OpenState :=
  match state.opened with
  | some (dataKey, frameSize) =>
      cipher.openBuffered identity dataKey frameSize state.index
        (state.buffer ++ block)
  | none =>
      if (state.buffer ++ block).length < DocumentHeader.minimumSize then
        return { state with buffer := state.buffer ++ block }
      else do
        let (header, consumed) ← checked
          (DocumentHeader.parse (state.buffer ++ block))
        let dataKey ← checked (cipher.derive header.keyId header.salt
          identity)
        cipher.openBuffered identity dataKey
          (nonceBytes + header.chunkBytes + gcmTagBytes) state.index
          ((state.buffer ++ block).drop consumed)

def openBlocks (identity : DocumentIdentity) :
    OpenState → List Bytes → Eff (List Bytes) Exn OpenState
  | state, [] => return state
  | state, block :: blocks => do
      let next ← cipher.openBlock identity state block
      openBlocks identity next blocks

/-- Yield plaintext chunks, authenticating each one as it is read. -/
def openStream (identity : DocumentIdentity) (ciphertext : List Bytes) :
    Eff (List Bytes) Exn Unit := do
  let state ← cipher.openBlocks identity {} ciphertext
  match state.opened with
  | none => throw (documentEncryptionError "header_truncated")
  | some (dataKey, _) =>
      cipher.emitOpened identity dataKey state.index state.buffer true

end DocumentCipher

end PrivacyGateway.Documents
