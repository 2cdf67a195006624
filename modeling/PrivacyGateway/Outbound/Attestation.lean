/-
The exact bytes that leave, in one canonical framing, and the evidence
about them.

Every field of a request is written behind its length. A field too long
for its prefix overflows, and then there is no payload.
-/
import PrivacyGateway.Audit.Correlation
import PrivacyGateway.Outbound.Scan

namespace PrivacyGateway

/-- The role as it is written. -/
def MessageRole.value : MessageRole → Text
  | .system => "system".toList
  | .user => "user".toList
  | .assistant => "assistant".toList

/-- `str` of an integer. -/
def decimal (n : Int) : Text :=
  if n < 0 then '-' :: Nat.toDigits 10 n.natAbs
  else Nat.toDigits 10 n.natAbs

theorem toDigits_injective {n k : Nat}
    (h : Nat.toDigits 10 n = Nat.toDigits 10 k) : n = k := by
  have hback := congrArg (fun digits => Nat.ofDigitChars 10 digits 0) h
  simpa only [Nat.ofDigitChars_ten_toDigits] using hback

theorem dash_not_mem_toDigits (n : Nat) : '-' ∉ Nat.toDigits 10 n := by
  intro h
  have hdigit := Nat.isDigit_of_mem_toDigits (by decide) (by decide) h
  exact absurd hdigit (by decide)

theorem decimal_injective : Function.Injective decimal := by
  intro n k h
  unfold decimal at h
  by_cases hn : n < 0
  · by_cases hk : k < 0
    · rw [if_pos hn, if_pos hk] at h
      have habs := toDigits_injective (List.cons.inj h).2
      omega
    · rw [if_pos hn, if_neg hk] at h
      exact absurd (h ▸ List.mem_cons_self) (dash_not_mem_toDigits k.natAbs)
  · by_cases hk : k < 0
    · rw [if_neg hn, if_pos hk] at h
      exact absurd (h ▸ List.mem_cons_self) (dash_not_mem_toDigits n.natAbs)
    · rw [if_neg hn, if_neg hk] at h
      have habs := toDigits_injective h
      omega

end PrivacyGateway

namespace PrivacyGateway.Outbound

def serializationVersion : Bytes := encodeUtf8 "sgw:outbound:v1".toList

def lengthPrefixBytes : Nat := 4

/-- The fields of the canonical framing, in order. -/
def outboundParts (request : ProtectedChatRequest) : List Bytes :=
  [serializationVersion, encodeUtf8 request.providerAlias,
    encodeUtf8 request.modelAlias,
    encodeUtf8 (decimal request.policyVersion),
    encodeUtf8 (decimal request.messages.length)] ++
  request.messages.flatMap (fun message =>
    [encodeUtf8 message.role.value, encodeUtf8 message.content])

/-- The canonical bytes for one protected request. -/
def serializeOutbound (request : ProtectedChatRequest) :
    Except Exn Bytes :=
  match Frame.frame lengthPrefixBytes (outboundParts request) with
  | some payload => .ok payload
  | none => .error Audit.overflowError

/-- The message texts, for the prompt correlation digest. -/
def outboundSegments (request : ProtectedChatRequest) : List Text :=
  request.messages.map ChatMessage.content

/-- Evidence that one payload was assembled, checked, and what came of
it. -/
structure Attestation where
  payloadHmac : Audit.Digest
  promptHmac : Audit.Digest
  scan : OutboundScan
deriving DecidableEq

/-- `clean` or `blocked`, as written to the audit table. -/
def Attestation.verdict (attestation : Attestation) : Text :=
  attestation.scan.verdict.value

end PrivacyGateway.Outbound
