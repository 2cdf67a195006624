/-
The catalogue of errors: what each code is called, and the HTTP status it
is answered with.

`catalog_well_formed` is what the audit record asks of both.
-/
import PrivacyGateway.Domain

namespace PrivacyGateway

namespace ErrorCode

/-- `str(code)`. -/
def value : ErrorCode → Text
  | authenticationRequired => "AUTHENTICATION_REQUIRED".toList
  | authenticationFailed => "AUTHENTICATION_FAILED".toList
  | authorizationFailed => "AUTHORIZATION_FAILED".toList
  | rateLimitExceeded => "RATE_LIMIT_EXCEEDED".toList
  | requestTooLarge => "REQUEST_TOO_LARGE".toList
  | invalidRequest => "INVALID_REQUEST".toList
  | unsupportedLanguage => "UNSUPPORTED_LANGUAGE".toList
  | policyNotFound => "POLICY_NOT_FOUND".toList
  | policyViolation => "POLICY_VIOLATION".toList
  | entityLimitExceeded => "ENTITY_LIMIT_EXCEEDED".toList
  | privacyDetectorUnavailable => "PRIVACY_DETECTOR_UNAVAILABLE".toList
  | vaultUnavailable => "VAULT_UNAVAILABLE".toList
  | vaultEncryptionFailed => "VAULT_ENCRYPTION_FAILED".toList
  | providerNotAllowed => "PROVIDER_NOT_ALLOWED".toList
  | modelNotAllowed => "MODEL_NOT_ALLOWED".toList
  | providerTimeout => "PROVIDER_TIMEOUT".toList
  | providerUnavailable => "PROVIDER_UNAVAILABLE".toList
  | providerResponseInvalid => "PROVIDER_RESPONSE_INVALID".toList
  | restorationFailed => "RESTORATION_FAILED".toList
  | auditUnavailable => "AUDIT_UNAVAILABLE".toList
  | documentNotFound => "DOCUMENT_NOT_FOUND".toList
  | documentTooLarge => "DOCUMENT_TOO_LARGE".toList
  | documentTypeUnsupported => "DOCUMENT_TYPE_UNSUPPORTED".toList
  | documentInvalid => "DOCUMENT_INVALID".toList
  | documentStorageUnavailable => "DOCUMENT_STORAGE_UNAVAILABLE".toList
  | documentEncryptionFailed => "DOCUMENT_ENCRYPTION_FAILED".toList
  | documentExtractionFailed => "DOCUMENT_EXTRACTION_FAILED".toList
  | documentExtractionTimeout => "DOCUMENT_EXTRACTION_TIMEOUT".toList
  | internalError => "INTERNAL_ERROR".toList

/-- The status of the catalogue's entry. -/
def status : ErrorCode → Nat
  | authenticationRequired => 401
  | authenticationFailed => 401
  | authorizationFailed => 403
  | rateLimitExceeded => 429
  | requestTooLarge => 413
  | invalidRequest => 400
  | unsupportedLanguage => 400
  | policyNotFound => 409
  | policyViolation => 422
  | entityLimitExceeded => 422
  | privacyDetectorUnavailable => 503
  | vaultUnavailable => 503
  | vaultEncryptionFailed => 503
  | providerNotAllowed => 403
  | modelNotAllowed => 403
  | providerTimeout => 504
  | providerUnavailable => 502
  | providerResponseInvalid => 502
  | restorationFailed => 500
  | auditUnavailable => 503
  | documentNotFound => 404
  | documentTooLarge => 413
  | documentTypeUnsupported => 415
  | documentInvalid => 400
  | documentStorageUnavailable => 503
  | documentEncryptionFailed => 503
  | documentExtractionFailed => 422
  | documentExtractionTimeout => 503
  | internalError => 500

end ErrorCode

def GatewayError.statusCode (error : GatewayError) : Nat :=
  error.code.status

/-- `pattern` on one character of an alias or a code: `[A-Za-z0-9._:-]`. -/
def isCodeChar (c : Char) : Bool :=
  c.isAlphanum || c == '.' || c == '_' || c == ':' || c == '-'

/-- `[A-Za-z0-9._:-]{1,64}`, matched from end to end. -/
def matchesCode (value : Text) : Bool :=
  decide (1 ≤ value.length) && decide (value.length ≤ 64) &&
    value.all isCodeChar

/-- Every entry is named by a code, and its status is a client's or a
server's error. -/
theorem catalog_well_formed (code : ErrorCode) :
    matchesCode code.value = true ∧ 400 ≤ code.status ∧
      code.status ≤ 599 := by
  cases code <;> decide

end PrivacyGateway
