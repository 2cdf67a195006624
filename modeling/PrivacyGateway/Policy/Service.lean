/-
Resolution of the active policy snapshot for a request.

`activeSnapshot` reads the clock and the cache in one step. When the cache
has nothing to give it waits for the table, and what it then caches is
trusted from the moment it started, not from the moment it was answered.
-/
import PrivacyGateway.Journal

namespace PrivacyGateway.Policy

open Effect Ledger

/-- Resolves and briefly caches the active policy of each tenant. The
round trip to the table is a collaborator's; it may fail. -/
structure PolicyService (σ : Type) where
  clock : Clock
  roundTrip : UUID → Eff σ Exn Unit
  cacheTtlSeconds : Rat := policyCacheTtlSeconds

variable {σ : Type} (service : PolicyService σ) (tenantId : UUID)

/-- The tenant's active row, as of some moment of the wait. -/
def getActivePolicy : Eff (Task σ) Exn (Option StoredPolicy) := do
  await (service.roundTrip tenantId)
  let stored ← inspect (fun shared : Shared =>
    shared.policies.active.get? tenantId)
  pause sharedStep
  return stored

/-- `remember`, on the shared state. -/
def rememberShared (expiresAt : Rat) (stored : Option StoredPolicy)
    (shared : Shared) : Except Exn PolicySnapshot × Shared :=
  ((remember tenantId expiresAt stored shared.policies).1,
    { shared with
      policies := (remember tenantId expiresAt stored shared.policies).2 })

/-- Ask the table, and cache what it answers. -/
def reloadSnapshot (now : Rat) : Eff (Task σ) Exn PolicySnapshot := do
  let stored ← getActivePolicy service tenantId
  alter (rememberShared tenantId (now + service.cacheTtlSeconds) stored)

/-- The tenant's active policy, without authorizing a destination. -/
def activeSnapshot : Eff (Task σ) Exn PolicySnapshot := do
  let now ← readClock service.clock
  let cached ← inspect (fun shared : Shared =>
    lookup now tenantId shared.policies)
  match cached with
  | some snapshot => return snapshot
  | none => reloadSnapshot service tenantId now

/-- The tenant's active policy, for a caller with no route to
authorize. -/
def snapshotFor : Eff (Task σ) Exn PolicySnapshot :=
  activeSnapshot service tenantId

/-- Refuse a destination outside the allowlists of the policy. -/
def authorizeDestination (snapshot : PolicySnapshot)
    (provider model : Text) : Except Exn Unit :=
  if snapshot.allowsProvider provider = false then
    .error (gatewayError .providerNotAllowed
      [("tenant_id", .text tenantId.str),
        ("policy_version", .int snapshot.version),
        ("provider", .text provider)])
  else if snapshot.allowsModel provider model = false then
    .error (gatewayError .modelNotAllowed
      [("tenant_id", .text tenantId.str),
        ("policy_version", .int snapshot.version),
        ("provider", .text provider), ("model", .text model)])
  else .ok ()

/-- Resolve the active policy and authorize the requested
destination. -/
def resolve (provider model : Text) :
    Eff (Task σ) Exn PolicySnapshot := do
  let snapshot ← activeSnapshot service tenantId
  checked (authorizeDestination tenantId snapshot provider model)
  note (Event.authorized snapshot.version)
  return snapshot

end PrivacyGateway.Policy
