/-
The authenticated framings are injective.

Four things are written field by field behind their lengths: the payload
that is attested, the associated data of a vault record and of a
document's chunk, and the message that is fingerprinted. `Frame` says
that no two lists of fields share a framing; what is left is that the
fields of each determine what they were taken from.
-/
import PrivacyGateway.Documents.Proofs.Splices
import PrivacyGateway.Tokenization.Identity

namespace PrivacyGateway

-- ==================================================== the payload

theorem MessageRole.value_injective : Function.Injective MessageRole.value := by
  intro role other h
  cases role <;> cases other <;> first | rfl | exact absurd h (by decide)

/-- The sixteen bytes identify the identifier. -/
theorem UUID.bytes_injective : Function.Injective UUID.bytes := by
  intro u v h
  have hint : u.int.val = v.int.val := by
    refine Radix.map_digits_inj (b := 256) (n := 16) (by omega) ?_
      (by have := u.int.isLt; omega) (by have := v.int.isLt; omega) h
    intro d hd e he hde
    have hval := congrArg UInt8.toNat hde
    rwa [UInt8.toNat_ofNat_of_lt' hd, UInt8.toNat_ofNat_of_lt' he] at hval
  cases u
  cases v
  exact congrArg UUID.mk (Fin.ext hint)

end PrivacyGateway

namespace PrivacyGateway.Outbound

open Frame Vault Documents Tokenization

/-- Two fields for each message, so the fields are cut back into
messages. -/
theorem messages_of_fields (messages : List ChatMessage) :
    ∀ others : List ChatMessage,
      messages.flatMap (fun message =>
        [encodeUtf8 message.role.value, encodeUtf8 message.content]) =
      others.flatMap (fun message =>
        [encodeUtf8 message.role.value, encodeUtf8 message.content]) →
        messages = others := by
  induction messages with
  | nil =>
      intro others h
      cases others with
      | nil => rfl
      | cons other others => cases h
  | cons message messages ih =>
      intro others h
      cases others with
      | nil => cases h
      | cons other others =>
          simp only [List.flatMap_cons, List.cons_append, List.nil_append,
            List.cons.injEq] at h
          obtain ⟨hrole, hcontent, h⟩ := h
          have hsame : message = other := by
            cases message
            cases other
            rw [ChatMessage.mk.injEq]
            exact ⟨MessageRole.value_injective (encodeUtf8_injective hrole),
              encodeUtf8_injective hcontent⟩
          rw [hsame, ih others h]

/-- What the payload of a request says. -/
structure SamePayload (request other : ProtectedChatRequest) : Prop where
  provider : request.providerAlias = other.providerAlias
  model : request.modelAlias = other.modelAlias
  version : request.policyVersion = other.policyVersion
  messages : request.messages = other.messages

theorem samePayload_of_parts {request other : ProtectedChatRequest}
    (h : outboundParts request = outboundParts other) :
    SamePayload request other := by
  unfold outboundParts at h
  simp only [List.cons_append, List.nil_append, List.cons.injEq,
    true_and] at h
  obtain ⟨hprovider, hmodel, hversion, -, hmessages⟩ := h
  exact ⟨encodeUtf8_injective hprovider, encodeUtf8_injective hmodel,
    decimal_injective (encodeUtf8_injective hversion),
    messages_of_fields _ _ hmessages⟩

theorem frame_of_serializeOutbound {request other : ProtectedChatRequest}
    (hfits : Fits lengthPrefixBytes (outboundParts request))
    (h : serializeOutbound request = serializeOutbound other) :
    frame lengthPrefixBytes (outboundParts request) =
      frame lengthPrefixBytes (outboundParts other) := by
  obtain ⟨payload, hpayload⟩ := frame_isSome _ hfits
  unfold serializeOutbound at h
  rw [hpayload] at h
  cases hother : frame lengthPrefixBytes (outboundParts other) with
  | none =>
      rw [hother] at h
      cases h
  | some payload' =>
      rw [hother] at h
      rw [hpayload, Except.ok.inj h]

-- ==================================================== the fingerprint

/-- The fields of the message that is fingerprinted. -/
def fingerprintFields (tenantId sessionId : UUID)
    (entityType normalizedValue : Text) : List Bytes :=
  [tenantId.bytes, sessionId.bytes, encodeUtf8 entityType,
    encodeUtf8 normalizedValue]

/-- The framed message of a fingerprint. -/
def fingerprintMessage (tenantId sessionId : UUID)
    (entityType normalizedValue : Text) : Option Bytes :=
  frame 4 (fingerprintFields tenantId sessionId entityType
    normalizedValue)

theorem fingerprint_eq (fingerprinter : Fingerprinter) (hashes : Hashes)
    (tenantId sessionId : UUID) (entityType normalizedValue : Text) :
    fingerprinter.fingerprint hashes tenantId sessionId entityType
        normalizedValue =
      match fingerprintMessage tenantId sessionId entityType
          normalizedValue with
      | some message =>
          .ok (hexdigest (hashes.hmacSha256 fingerprinter.key message))
      | none => .error (.other "OverflowError") :=
  rfl

theorem fingerprintFields_injective {tenantId tenantId' sessionId
    sessionId' : UUID} {entityType entityType' value value' : Text}
    (h : fingerprintFields tenantId sessionId entityType value =
      fingerprintFields tenantId' sessionId' entityType' value') :
    tenantId = tenantId' ∧ sessionId = sessionId' ∧
      entityType = entityType' ∧ value = value' := by
  simp only [fingerprintFields, List.cons.injEq, and_true] at h
  obtain ⟨htenant, hsession, htype, hvalue⟩ := h
  exact ⟨UUID.bytes_injective htenant, UUID.bytes_injective hsession,
    encodeUtf8_injective htype, encodeUtf8_injective hvalue⟩

-- ==================================================== all four

theorem aad_ok_of_fits {identity : DocumentIdentity} {purpose : Text}
    {index : Nat} {final : Bool}
    (h : Fits 2 (identity.aadFields purpose index final)) :
    ∃ bytes, identity.aad purpose index final = .ok bytes := by
  obtain ⟨bytes, hbytes⟩ := frame_isSome _ h
  refine ⟨bytes, ?_⟩
  unfold DocumentIdentity.aad lengthPrefixed
  rw [hbytes]

/-- Fields that fit their prefixes are not shared: one payload is one
provider, model, policy version and list of messages, and one associated
data or fingerprinted message is one identity. -/
theorem framings_injective :
    (∀ request other : ProtectedChatRequest,
      Fits lengthPrefixBytes (outboundParts request) →
      serializeOutbound request = serializeOutbound other →
        SamePayload request other) ∧
    (∀ aad other : VaultAad, Fits 2 aad.fields →
      aad.toBytes = other.toBytes → aad = other) ∧
    (∀ (identity other : DocumentIdentity) (purpose purpose' : Text)
      (index index' : Nat) (final final' : Bool),
      Fits 2 (identity.aadFields purpose index final) →
      identity.aad purpose index final = other.aad purpose' index' final' →
        identity = other ∧ purpose = purpose' ∧ index = index' ∧
          final = final') ∧
    ∀ (tenantId tenantId' sessionId sessionId' : UUID)
      (entityType entityType' value value' : Text),
      Fits 4 (fingerprintFields tenantId sessionId entityType value) →
      fingerprintMessage tenantId sessionId entityType value =
        fingerprintMessage tenantId' sessionId' entityType' value' →
          tenantId = tenantId' ∧ sessionId = sessionId' ∧
            entityType = entityType' ∧ value = value' := by
  refine ⟨?_, ?_, ?_, ?_⟩
  · intro request other hfits h
    exact samePayload_of_parts (hfits.eq_of_frame (by decide)
      (frame_of_serializeOutbound hfits h))
  · intro aad other hfits h
    obtain ⟨bytes, hbytes⟩ := frame_isSome _ hfits
    exact VaultAad.eq_of_toBytes hbytes (h ▸ hbytes)
  · intro identity other purpose purpose' index index' final final' hfits h
    obtain ⟨bytes, hbytes⟩ := aad_ok_of_fits hfits
    exact DocumentIdentity.aad_injective hbytes (h ▸ hbytes)
  · intro tenantId tenantId' sessionId sessionId' entityType entityType'
      value value' hfits h
    exact fingerprintFields_injective (hfits.eq_of_frame (by omega) h)

/-- A request of two messages. -/
def twoTurns (first second : Text) : ProtectedChatRequest where
  requestId := ⟨1⟩
  tenantId := ⟨2⟩
  sessionId := ⟨3⟩
  providerAlias := "echo".toList
  modelAlias := "small".toList
  messages := [⟨.user, first⟩, ⟨.user, second⟩]
  policyVersion := 1
  messages_nonempty := List.cons_ne_nil _ _

/-- A character moved from one message to the next is another payload. -/
theorem framings_injective_moved :
    serializeOutbound (twoTurns "AB".toList "C".toList) ≠
      serializeOutbound (twoTurns "A".toList "BC".toList) := by
  intro h
  have hfits : Fits lengthPrefixBytes
      (outboundParts (twoTurns "AB".toList "C".toList)) := by
    unfold Fits
    decide +kernel
  have hsame := (framings_injective.1 _ _ hfits h).messages
  exact absurd hsame (by decide)

end PrivacyGateway.Outbound
