/-
The contracts every other module shares: text, identifiers, errors,
detections, and the records that travel between the stages.

A string is the list of its code points, so `len`, slicing and offsets
are the list's own, as Python's are. A score is a rational number: the
source compares scores and takes maxima of them, and both are exact on
the floats it holds.

`DetectedEntity` and `ProtectedChatRequest` carry as fields the checks
their constructors make, so a value the source refuses to construct does
not exist here either.
-/
import Mathlib.Algebra.Order.Ring.Rat
import Mathlib.Data.Char
import Mathlib.Data.List.Lex
import Mathlib.Data.List.Sort
import Mathlib.Data.Prod.Lex
import PrivacyGateway.Lib.Dict
import PrivacyGateway.Lib.Radix

namespace PrivacyGateway

/-- A string: its code points in order. -/
abbrev Text := List Char

abbrev Bytes := List UInt8

instance text_lawfulBEq : LawfulBEq Text := List.instLawfulBEq

/-- `str.encode("utf-8")`. -/
def encodeUtf8 (text : Text) : Bytes :=
  text.flatMap String.utf8EncodeChar

/-- `bytes.decode("utf-8")`, where the bytes are UTF-8. -/
def decodeUtf8 (bytes : Bytes) : Option Text :=
  bytes.toByteArray.utf8Decode?.map Array.toList

@[simp] theorem decodeUtf8_encodeUtf8 (text : Text) :
    decodeUtf8 (encodeUtf8 text) = some text := by
  have h := @List.utf8Decode?_utf8Encode text
  unfold List.utf8Encode at h
  unfold decodeUtf8 encodeUtf8
  rw [h]
  rfl

theorem encodeUtf8_injective : Function.Injective encodeUtf8 := by
  intro a b h
  have hdecode := congrArg decodeUtf8 h
  rw [decodeUtf8_encodeUtf8, decodeUtf8_encodeUtf8] at hdecode
  exact Option.some.inj hdecode

-- ==================================================== identifiers

/-- A 128-bit identifier. -/
structure UUID where
  int : Fin (2 ^ 128)
deriving DecidableEq

instance uuidRange_neZero : NeZero (2 ^ 128) := ⟨by decide⟩

namespace UUID

def hexDigit (d : Nat) : Char :=
  "0123456789abcdef".toList.getD d '0'

/-- The 32 lower-case hexadecimal digits. -/
def hex (u : UUID) : Text :=
  (Radix.digits 16 32 u.int.val).map hexDigit

/-- `str(uuid)`: the digits in groups of 8, 4, 4, 4 and 12. -/
def str (u : UUID) : Text :=
  u.hex.take 8 ++ ('-' :: (u.hex.drop 8).take 4 ++
    ('-' :: (u.hex.drop 12).take 4 ++ ('-' :: (u.hex.drop 16).take 4 ++
      '-' :: u.hex.drop 20)))

/-- `uuid.bytes`: the 16 bytes, most significant first. -/
def bytes (u : UUID) : Bytes :=
  (Radix.digits 256 16 u.int.val).map UInt8.ofNat

private theorem hexDigit_inj :
    ∀ d, d < 16 → ∀ e, e < 16 → hexDigit d = hexDigit e → d = e := by
  decide

@[simp] theorem length_hex (u : UUID) : u.hex.length = 32 := by
  simp [hex]

@[simp] theorem length_str (u : UUID) : u.str.length = 36 := by
  simp [str]

theorem hex_injective : Function.Injective hex := by
  intro u v h
  have hint : u.int.val = v.int.val :=
    Radix.map_digits_inj (b := 16) (n := 32) (by omega) hexDigit_inj
      (by have := u.int.isLt; omega) (by have := v.int.isLt; omega) h
  cases u with
  | mk i =>
      cases v with
      | mk j => exact congrArg UUID.mk (Fin.ext hint)

/-- The canonical rendering identifies the identifier: the groups are
read back off it by position. -/
theorem str_injective : Function.Injective str := by
  intro u v h
  apply hex_injective
  have hlen : ∀ (w : UUID) (a b : Nat), a + b ≤ 32 →
      ((w.hex.drop a).take b).length = b := by
    intro w a b hab
    simp
    omega
  unfold str at h
  obtain ⟨h1, h⟩ := List.append_inj h (by simp)
  obtain ⟨h2, h⟩ := List.append_inj (List.cons.inj h).2
    (by rw [hlen u 8 4 (by omega), hlen v 8 4 (by omega)])
  obtain ⟨h3, h⟩ := List.append_inj (List.cons.inj h).2
    (by rw [hlen u 12 4 (by omega), hlen v 12 4 (by omega)])
  obtain ⟨h4, h⟩ := List.append_inj (List.cons.inj h).2
    (by rw [hlen u 16 4 (by omega), hlen v 16 4 (by omega)])
  have h5 := (List.cons.inj h).2
  have hsplit : ∀ w : UUID, w.hex = w.hex.take 8 ++
      ((w.hex.drop 8).take 4 ++ ((w.hex.drop 12).take 4 ++
        ((w.hex.drop 16).take 4 ++ w.hex.drop 20))) := by
    intro w
    rw [show (20 : Nat) = 16 + 4 by rfl, ← List.drop_drop,
      List.take_append_drop, show (16 : Nat) = 12 + 4 by rfl,
      ← List.drop_drop, List.take_append_drop,
      show (12 : Nat) = 8 + 4 by rfl, ← List.drop_drop,
      List.take_append_drop, List.take_append_drop]
  rw [hsplit u, hsplit v, h1, h2, h3, h4, h5]

end UUID

-- ==================================================== errors

/-- The stable machine-readable error identifiers. -/
inductive ErrorCode
  | authenticationRequired
  | authenticationFailed
  | authorizationFailed
  | rateLimitExceeded
  | requestTooLarge
  | invalidRequest
  | unsupportedLanguage
  | policyNotFound
  | policyViolation
  | entityLimitExceeded
  | privacyDetectorUnavailable
  | vaultUnavailable
  | vaultEncryptionFailed
  | providerNotAllowed
  | modelNotAllowed
  | providerTimeout
  | providerUnavailable
  | providerResponseInvalid
  | restorationFailed
  | auditUnavailable
  | documentNotFound
  | documentTooLarge
  | documentTypeUnsupported
  | documentInvalid
  | documentStorageUnavailable
  | documentEncryptionFailed
  | documentExtractionFailed
  | documentExtractionTimeout
  | internalError
deriving DecidableEq

/-- One value of an error's structured log context. -/
inductive LogValue
  | text (value : Text)
  | int (value : Int)
deriving DecidableEq

/-- An error the gateway turns into an API response. -/
structure GatewayError where
  code : ErrorCode
  logContext : List (String × LogValue) := []
deriving DecidableEq

/-- What a function of the gateway may raise. -/
inductive Exn
  | gateway (error : GatewayError)
  | value (message : String)
  | assertion (message : String)
  | other (typeName : String)
deriving DecidableEq

/-- Raise a gateway error with a log context. -/
def gatewayError (code : ErrorCode) (logContext : List (String × LogValue)) :
    Exn :=
  .gateway ⟨code, logContext⟩

/-- The log context that only names a reason. -/
def reason (text : String) : List (String × LogValue) :=
  [("reason", .text text.toList)]

-- ==================================================== policy values

/-- What the policy does with a detected entity. -/
inductive EntityAction
  | allow
  | tokenize
  | redact
  | pseudonymize
  | block
deriving DecidableEq

/-- What restoration does with a token it cannot resolve. -/
inductive UnknownTokenAction
  | preserve
  | redact
  | fail
deriving DecidableEq

-- ==================================================== callers

/-- The authenticated caller. -/
structure Principal where
  tenantId : UUID
  apiKeyId : UUID
deriving DecidableEq

-- ==================================================== detection

/-- A span of text the detector believes is sensitive. -/
structure DetectedEntity where
  entityType : Text
  start : Nat
  stop : Nat
  score : Rat
  recognizer : Option Text := none
  span_forward : start < stop
  score_bounded : 0 ≤ score ∧ score ≤ 1
deriving DecidableEq

namespace DetectedEntity

def length (e : DetectedEntity) : Nat :=
  e.stop - e.start

def overlaps (e other : DetectedEntity) : Bool :=
  e.start < other.stop && other.start < e.stop

/-- The position lies in the span. -/
def Covers (e : DetectedEntity) (i : Nat) : Prop :=
  e.start ≤ i ∧ i < e.stop

theorem overlaps_iff {e other : DetectedEntity} :
    e.overlaps other = true ↔ e.start < other.stop ∧ other.start < e.stop := by
  simp [overlaps]

theorem overlaps_comm (e other : DetectedEntity) :
    e.overlaps other = other.overlaps e := by
  simp [overlaps, Bool.and_comm]

@[simp] theorem overlaps_self (e : DetectedEntity) :
    e.overlaps e = true := by
  simp [overlaps_iff, e.span_forward]

end DetectedEntity

-- The bounds that the values of the worked examples carry.
namespace Bounds

theorem half : (0 : Rat) ≤ 1 / 2 ∧ (1 / 2 : Rat) ≤ 1 := by decide +kernel
theorem threeFifths : (0 : Rat) ≤ 3 / 5 ∧ (3 / 5 : Rat) ≤ 1 := by
  decide +kernel
theorem fourFifths : (0 : Rat) ≤ 4 / 5 ∧ (4 / 5 : Rat) ≤ 1 := by
  decide +kernel
theorem seventeenTwentieths :
    (0 : Rat) ≤ 17 / 20 ∧ (17 / 20 : Rat) ≤ 1 := by
  decide +kernel
theorem nineTenths : (0 : Rat) ≤ 9 / 10 ∧ (9 / 10 : Rat) ≤ 1 := by
  decide +kernel
theorem whole : (0 : Rat) ≤ 1 ∧ (1 : Rat) ≤ 1 := by decide +kernel
theorem one_le_one : 1 ≤ 1 := by decide
theorem one_le_two : 1 ≤ 2 := by decide
theorem zero_le_three : 0 ≤ 3 := by decide
theorem zero_lt_three : 0 < 3 := by decide
theorem zero_lt_six : 0 < 6 := by decide
theorem zero_lt_ten : 0 < 10 := by decide
theorem four_lt_ten : 4 < 10 := by decide
theorem one_nonempty : [1] ≠ [] := by decide
theorem tokenize_ne_block : EntityAction.tokenize ≠ .block := by decide

end Bounds

-- ==================================================== tokenization

/-- A token and the original value it stands for. -/
structure EntityMapping where
  token : Text
  tokenId : Text
  entityType : Text
  originalValue : Text
  normalizedHmac : Text
deriving DecidableEq

/-- One mapping to mint or reuse, as handed to the vault in a batch. -/
structure VaultWriteRequest where
  entityType : Text
  normalizedHmac : Text
  originalValue : Text
deriving DecidableEq

/-- Counts only: the sole privacy detail that leaves the gateway. -/
structure PrivacySummary where
  detected : Nat := 0
  tokenized : Nat := 0
  redacted : Nat := 0
  pseudonymized : Nat := 0
  blocked : Nat := 0
  allowed : Nat := 0
  restored : Nat := 0
  unknownTokens : Nat := 0
  entityTypes : Dict Text Nat := []
deriving DecidableEq

namespace PrivacySummary

/-- Count one more of each of another summary's types. -/
def mergeTypes (combined : Dict Text Nat) : Dict Text Nat → Dict Text Nat
  | [] => combined
  | e :: rest =>
      mergeTypes (combined.set e.1 ((combined.get? e.1).getD 0 + e.2)) rest

/-- Combine two summaries. -/
def mergedWith (s other : PrivacySummary) : PrivacySummary where
  detected := s.detected + other.detected
  tokenized := s.tokenized + other.tokenized
  redacted := s.redacted + other.redacted
  pseudonymized := s.pseudonymized + other.pseudonymized
  blocked := s.blocked + other.blocked
  allowed := s.allowed + other.allowed
  restored := s.restored + other.restored
  unknownTokens := s.unknownTokens + other.unknownTokens
  entityTypes := mergeTypes s.entityTypes other.entityTypes

end PrivacySummary

/-- The result of applying policy actions to one message. -/
structure TransformedText where
  text : Text
  mappings : List EntityMapping
  summary : PrivacySummary
deriving DecidableEq

-- ==================================================== provider boundary

inductive MessageRole
  | system
  | user
  | assistant
deriving DecidableEq

/-- One conversational turn. -/
structure ChatMessage where
  role : MessageRole
  content : Text
deriving DecidableEq

/-- The only request type a provider adapter accepts. -/
structure ProtectedChatRequest where
  requestId : UUID
  tenantId : UUID
  sessionId : UUID
  providerAlias : Text
  modelAlias : Text
  messages : List ChatMessage
  policyVersion : Int
  temperature : Option Rat := none
  maxOutputTokens : Option Int := none
  messages_nonempty : messages ≠ []
deriving DecidableEq

/-- Token accounting reported by the provider. -/
structure ProviderUsage where
  inputTokens : Option Int := none
  outputTokens : Option Int := none
  totalTokens : Option Int := none
deriving DecidableEq

/-- Provider output. The two fields that restoration checks at run time
are optional: `none` stands for a value that is not a string. -/
structure ProviderResponse where
  content : Option Text
  model : Option Text
  usage : Option ProviderUsage := none
  finishReason : Option Text := none
deriving DecidableEq

end PrivacyGateway
