/-
The shape in which every failure leaves the gateway.

A response is the two messages it is sent as. The envelope holds the
code, the catalogue's own text and the request's id, none of which has a
character that JSON escapes.
-/
import PrivacyGateway.Errors
import PrivacyGateway.Outbound.Attestation

namespace PrivacyGateway

/-- The public message of the catalogue's entry. -/
def ErrorCode.publicMessage : ErrorCode → Text
  | authenticationRequired => "Authentication is required.".toList
  | authenticationFailed =>
      "The provided credentials are not valid.".toList
  | authorizationFailed =>
      "The credentials do not grant access to this operation.".toList
  | rateLimitExceeded =>
      "The request rate limit has been exceeded.".toList
  | requestTooLarge =>
      "The request body exceeds the configured limit.".toList
  | invalidRequest => "The request is not valid.".toList
  | unsupportedLanguage =>
      "The requested language is not supported.".toList
  | policyNotFound => "No active privacy policy is configured.".toList
  | policyViolation =>
      "The request was blocked by the active privacy policy.".toList
  | entityLimitExceeded =>
      "The request contains more sensitive values than the policy allows."
        |>.toList
  | privacyDetectorUnavailable =>
      "The privacy detection service is unavailable.".toList
  | vaultUnavailable =>
      "The secure mapping service is unavailable.".toList
  | vaultEncryptionFailed =>
      "The secure mapping service could not complete the operation.".toList
  | providerNotAllowed =>
      "The requested provider is not permitted.".toList
  | modelNotAllowed => "The requested model is not permitted.".toList
  | providerTimeout =>
      "The upstream model provider did not respond in time.".toList
  | providerUnavailable =>
      "The upstream model provider is unavailable.".toList
  | providerResponseInvalid =>
      "The upstream model provider returned an unusable response.".toList
  | restorationFailed =>
      "The response could not be securely restored.".toList
  | auditUnavailable => "The audit service is unavailable.".toList
  | documentNotFound => "No such document.".toList
  | documentTooLarge =>
      "The document exceeds the configured size limit.".toList
  | documentTypeUnsupported =>
      "The document type is not supported.".toList
  | documentInvalid => "The document could not be accepted.".toList
  | documentStorageUnavailable =>
      "The document storage service is unavailable.".toList
  | documentEncryptionFailed =>
      "The document storage service could not complete the operation."
        |>.toList
  | documentExtractionFailed => "The document could not be read.".toList
  | documentExtractionTimeout =>
      "The document could not be read in the time allowed.".toList
  | internalError => "An internal error occurred.".toList

namespace Api

/-- A message of a response. -/
inductive Message
  | start (status : Nat) (headers : List (Text × Text))
  | body (body : Bytes) (moreBody : Bool)
  | other (type : Text)
deriving DecidableEq

/-- One complete response: its start, and its body up to the last part. -/
def Complete (messages : List Message) : Prop :=
  ∃ (status : Nat) (headers : List (Text × Text)) (chunks : List Bytes)
    (last : Bytes), messages =
      .start status headers ::
        chunks.map (fun chunk => .body chunk true) ++ [.body last false]

structure ErrorBody where
  code : ErrorCode
  message : Text
  requestId : Option Text

/-- The envelope, rendered. -/
def ErrorBody.render (error : ErrorBody) : Bytes :=
  encodeUtf8
    ("\x7b\"error\":\x7b\"code\":\"".toList ++ error.code.value ++
      "\",\"message\":\"".toList ++ error.message ++
      "\",\"request_id\":".toList ++
      (match error.requestId with
        | none => "null".toList
        | some id => '"' :: id ++ ['"']) ++ "\x7d\x7d".toList)

def errorHeaders : List (Text × Text) :=
  [("cache-control".toList, "no-store".toList),
    ("x-content-type-options".toList, "nosniff".toList)]

/-- The canonical error response for a code. -/
def errorResponse (code : ErrorCode) (requestId : Option Text) :
    List Message :=
  let body := ErrorBody.render ⟨code, code.publicMessage, requestId⟩
  [.start code.status
      (errorHeaders ++
        [("content-length".toList, decimal body.length),
          ("content-type".toList, "application/json".toList)]),
    .body body false]

theorem complete_errorResponse (code : ErrorCode)
    (requestId : Option Text) : Complete (errorResponse code requestId) :=
  ⟨_, _, [], _, rfl⟩

end Api

end PrivacyGateway
