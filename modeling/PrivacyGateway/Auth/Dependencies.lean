/-
What stands in front of an endpoint: the principal, the rate limit, and
the scope.

The collaborators are what the application was wired with, and each may be
missing: then nobody is identified, or nobody is admitted. A limiter is
what it decides for a principal in its state. The state of the gate is the
limiter's, the tracker's, and the principal that is left for the request's
later stages.
-/
import PrivacyGateway.Auth.LastUsed
import PrivacyGateway.Auth.Principal
import PrivacyGateway.Auth.RateLimit
import PrivacyGateway.Lib.Effect

namespace PrivacyGateway.Auth

open Effect

def reasonNotConfigured : Text := "rate_limiter_not_configured".toList

/-- No limiter is wired: reject. -/
def notConfiguredDecision : RateLimitDecision where
  allowed := false
  bucket := bucketTenant
  limit := 0
  remaining := 0
  retryAfterSeconds := backendErrorRetryAfterSeconds
  reason := reasonNotConfigured

/-- A rate limiter with its own state. -/
abbrev RateLimiter (σ : Type) := Principal → σ → RateLimitDecision × σ

/-- What the application was wired with. -/
structure Wiring (σ : Type) where
  unicode : Unicode
  hashes : Hashes
  pepper : Text
  authenticator : Option KeyStore
  limiter : Option (RateLimiter σ)
  tracker : LastUsedTracker

/-- A request, as the gate sees it, and what writing down the use of its
key would come to. -/
structure GateRequest where
  authorization : Option Text
  moment : Rat
  now : Rat
  usedAt : Rat
  write : Option (Except WriteError Unit)

structure GateState (σ : Type) where
  limits : σ
  seen : SeenKeys
  principal : Option KeyPrincipal

variable {σ : Type}

/-- The limiter's decision; an unconfigured one denies. -/
def acquire (limiter : Option (RateLimiter σ)) (principal : Principal)
    (limits : σ) : RateLimitDecision × σ :=
  match limiter with
  | none => (notConfiguredDecision, limits)
  | some limiter => limiter principal limits

/-- Apply the limiter, raising the public error when it denies. -/
def enforce (limiter : Option (RateLimiter σ)) (principal : Principal) :
    Eff (GateState σ) Exn RateLimitDecision := do
  let decision ← act fun s =>
    let (decision, limits) := acquire limiter principal s.limits
    (.ok decision, { s with limits := limits })
  if decision.allowed then return decision
  else throw (gatewayError .rateLimitExceeded
    [("reason", .text decision.reason),
      ("retry_after", .int decision.retryAfterSeconds)])

/-- Authenticate the caller, charge the rate limit, and note the use of
the key. -/
def getPrincipal (wiring : Wiring σ) (request : GateRequest) :
    Eff (GateState σ) Exn KeyPrincipal := do
  let store ← checked (match wiring.authenticator with
    | none => fail "authenticator_not_configured"
    | some store => .ok store)
  let principal ← checked (authenticateBearer wiring.hashes wiring.pepper
    wiring.unicode store request.authorization request.moment request.now)
  let _ ← enforce wiring.limiter principal.toPrincipal
  act fun s =>
    (.ok (), { s with
      principal := some principal
      seen := (wiring.tracker.recordUse s.seen
        ⟨principal.apiKeyId, request.usedAt, request.write⟩).2 })
  return principal

/-- Admit only principals that hold the scope. -/
def requireScope (wiring : Wiring σ) (scope : Scope)
    (request : GateRequest) : Eff (GateState σ) Exn KeyPrincipal := do
  let principal ← getPrincipal wiring request
  if principal.hasScope scope then return principal
  else throw (gatewayError .authorizationFailed (reason "missing_scope"))

end PrivacyGateway.Auth
