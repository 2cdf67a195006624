/-
The provider seam: the model allowlist, the error mapping, and the
deadline.

Seconds are rational numbers.
-/
import Mathlib.Algebra.Order.Ring.Rat
import PrivacyGateway.Llm.Registry

namespace PrivacyGateway.Llm

-- ==================================================== retries

def retryableStatusCodes : List Int := [408, 429, 500, 502, 503, 504]
def timeoutStatusCodes : List Int := [408, 504]
def defaultRetryBackoffBaseSeconds : Rat := 1 / 4
def retryBackoffMultiplier : Rat := 2
def retryBackoffMaxSeconds : Rat := 8
def deadlineSlackSeconds : Rat := 1

/-- Whether a provider status may be retried. -/
def isRetryableStatus (statusCode : Int) : Bool :=
  retryableStatusCodes.contains statusCode

/-- Map a provider HTTP status onto a domain error. -/
def errorForStatus (statusCode : Int) (providerAlias : Text)
    (attempts : Nat) : Exn :=
  let context := [("provider_alias", .text (safeAliasForLog providerAlias)),
    ("provider_status", .int statusCode), ("attempts", .int attempts)]
  if timeoutStatusCodes.contains statusCode then
    gatewayError .providerTimeout context
  else gatewayError .providerUnavailable context

/-- Exponential backoff for a zero-indexed attempt, capped. -/
def retryBackoffSeconds (attempt : Nat) (baseSeconds : Rat) : Rat :=
  min (baseSeconds * retryBackoffMultiplier ^ attempt)
    retryBackoffMaxSeconds

/-- Budget for one call including every retry and every sleep. -/
def overallDeadlineSeconds (connectTimeoutSeconds readTimeoutSeconds : Rat)
    (maxRetries : Nat) (backoffBaseSeconds : Rat) : Rat :=
  let attempts : Nat := maxRetries + 1
  let attemptBudget :=
    (attempts : Rat) * (connectTimeoutSeconds + readTimeoutSeconds)
  let backoffBudget := ((List.range maxRetries).map fun attempt =>
    retryBackoffSeconds attempt backoffBaseSeconds).sum
  attemptBudget + backoffBudget + deadlineSlackSeconds

-- ==================================================== model allowlist

/-- Server-controlled map from a public model alias to a provider model
id. -/
structure ModelCatalog where
  entries : Dict Text Text

/-- The provider model id for an alias. -/
def ModelCatalog.resolve (catalog : ModelCatalog) (unicode : Unicode)
    (modelAlias : Text) : Except Exn Text :=
  match catalog.entries.get? (normalizeAlias unicode modelAlias) with
  | some modelId => .ok modelId
  | none =>
      .error (gatewayError .modelNotAllowed
        [("model_alias", .text (safeAliasForLog modelAlias))])

end PrivacyGateway.Llm
