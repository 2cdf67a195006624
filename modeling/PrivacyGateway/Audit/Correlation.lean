/-
Keyed correlation digests for audit records.

A digest is the HMAC of a framing that opens with the kind of thing
digested and the tenant, so no two kinds and no two tenants share one.
What a digest looks like is a field of `Digest`: 64 lower-case
hexadecimal digits. A part too long for its length prefix overflows, and
then there is no digest.
-/
import PrivacyGateway.Tokenization.Identity

namespace PrivacyGateway.Audit

def promptDomain : Bytes := encodeUtf8 "sgw:audit:prompt:v1".toList
def responseDomain : Bytes := encodeUtf8 "sgw:audit:response:v1".toList
def sessionDomain : Bytes := encodeUtf8 "sgw:audit:session:v1".toList
def outboundDomain : Bytes := encodeUtf8 "sgw:audit:outbound:v1".toList

def minKeyBytes : Nat := 16
def lengthPrefixBytes : Nat := 4

/-- What a `to_bytes` raises for a number its bytes cannot hold. -/
def overflowError : Exn := .other "OverflowError"

/-- A lower-case hexadecimal digit. -/
def isHexChar (c : Char) : Bool :=
  ('0' ≤ c && c ≤ '9') || ('a' ≤ c && c ≤ 'f')

/-- Keyed digest output. -/
structure Digest where
  text : Text
  length_text : text.length = 64
  hex_text : ∀ c ∈ text, isHexChar c = true
deriving DecidableEq

theorem isHexChar_hexDigit :
    ∀ d, d < 16 → isHexChar (UUID.hexDigit d) = true := by
  decide

theorem length_hexdigest (bytes : Bytes) :
    (hexdigest bytes).length = 2 * bytes.length := by
  unfold hexdigest
  induction bytes with
  | nil => rfl
  | cons b bytes ih =>
      rw [List.flatMap_cons, List.length_append, ih]
      simp only [List.length_cons, List.length_nil]
      omega

theorem isHexChar_of_mem_hexdigest {bytes : Bytes} {c : Char}
    (hc : c ∈ hexdigest bytes) : isHexChar c = true := by
  obtain ⟨b, -, hmem⟩ := List.mem_flatMap.mp hc
  have hb : b.toNat < 256 := b.toNat_lt
  rcases List.mem_cons.mp hmem with rfl | hmem
  · exact isHexChar_hexDigit _ (by omega)
  · rw [List.mem_singleton.mp hmem]
    exact isHexChar_hexDigit _ (by omega)

/-- Computes the keyed digests that appear on an audit record. -/
structure CorrelationHasher where
  key : Bytes
  key_length : minKeyBytes ≤ key.length

namespace CorrelationHasher

variable (hasher : CorrelationHasher) (hashes : Hashes) (tenantId : UUID)

def digest (domain : Bytes) (parts : List Bytes) : Except Exn Digest :=
  match Frame.frame lengthPrefixBytes
      (domain :: tenantId.bytes :: parts) with
  | some message =>
      .ok
        { text := hexdigest (hashes.hmacSha256 hasher.key message)
          length_text := by
            rw [length_hexdigest, hashes.hmacSha256_length]
          hex_text := fun _ hc => isHexChar_of_mem_hexdigest hc }
  | none => .error overflowError

/-- Digest the outbound conversation: the message texts in order. -/
def promptDigest (segments : List Text) : Except Exn Digest :=
  hasher.digest hashes tenantId promptDomain (segments.map encodeUtf8)

/-- Digest one provider response. -/
def responseDigest (text : Text) : Except Exn Digest :=
  hasher.digest hashes tenantId responseDomain [encodeUtf8 text]

/-- Digest the exact bytes handed to a provider adapter. -/
def outboundDigest (payload : Bytes) : Except Exn Digest :=
  hasher.digest hashes tenantId outboundDomain [payload]

/-- Digest a session id. -/
def sessionDigest (sessionId : UUID) : Except Exn Digest :=
  hasher.digest hashes tenantId sessionDomain [sessionId.bytes]

/-- A length prefix holds the length of the part. -/
def Prefixes (part : Bytes) : Prop :=
  part.length < 256 ^ lengthPrefixBytes

theorem length_bytes (u : UUID) : u.bytes.length = 16 := by
  simp [UUID.bytes]

theorem digest_isOk_iff {domain : Bytes} {parts : List Bytes}
    (hdomain : Prefixes domain) :
    (∃ d, hasher.digest hashes tenantId domain parts = .ok d) ↔
      ∀ part ∈ parts, Prefixes part := by
  have htenant : Prefixes tenantId.bytes := by
    unfold Prefixes
    rw [length_bytes]
    decide
  unfold digest
  constructor
  · intro h
    obtain ⟨d, hd⟩ := h
    split at hd
    · rename_i message hframe
      intro part hpart
      exact Frame.length_lt_of_frame _ hframe part
        (List.mem_cons_of_mem _ (List.mem_cons_of_mem _ hpart))
    · cases hd
  · intro h
    obtain ⟨message, hframe⟩ := Frame.frame_isSome
      (domain :: tenantId.bytes :: parts)
      (List.forall_mem_cons.mpr
        ⟨hdomain, List.forall_mem_cons.mpr ⟨htenant, h⟩⟩)
    rw [hframe]
    exact ⟨_, rfl⟩

/-- A session id always has a digest. -/
theorem sessionDigest_isOk (sessionId : UUID) :
    ∃ d, hasher.sessionDigest hashes tenantId sessionId = .ok d := by
  refine (hasher.digest_isOk_iff hashes tenantId
    (by unfold Prefixes; decide)).mpr ?_
  intro part hpart
  rw [List.mem_singleton.mp hpart]
  unfold Prefixes
  rw [length_bytes]
  decide

/-- A response has a digest when a length prefix holds its length. -/
theorem responseDigest_isOk_iff {text : Text} :
    (∃ d, hasher.responseDigest hashes tenantId text = .ok d) ↔
      Prefixes (encodeUtf8 text) := by
  refine (hasher.digest_isOk_iff hashes tenantId
    (by unfold Prefixes; decide)).trans ?_
  exact List.forall_mem_singleton

end CorrelationHasher

end PrivacyGateway.Audit
