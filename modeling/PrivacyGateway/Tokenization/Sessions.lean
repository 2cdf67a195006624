/-
Transforms that share a vault, over time.

A transform touches the vault in one atomic batch, so any interleaving of
the batches of any number of callers is a sequence of whole transforms.
Between them time passes and keys may be lost. The state remembers every
mapping that a transform returned.
-/
import PrivacyGateway.Vault.System

namespace PrivacyGateway.Tokenization

open Effect Splice Vault

/-- One step. -/
inductive SessionOp
  | protect (tenantId sessionId : UUID) (text : Text)
      (entities : List DetectedEntity) (policy : PolicySnapshot)
  | wait (milliseconds : Nat)
  | lose (key : Text)

/-- A mapping that was returned, and the session it was returned in. -/
structure Emission where
  tenantId : UUID
  sessionId : UUID
  mapping : EntityMapping

structure SessionState where
  world : World
  emitted : List Emission

/-- An empty server, and nothing returned. -/
def SessionState.start : SessionState where
  world := VaultState.start.world
  emitted := []

section Step

variable (vault : RedisTokenVault) (unicode : Unicode)
  (fingerprinter : Fingerprinter)

/-- One step. A transform that raises leaves what it did before it
raised. -/
def sessionStep (state : SessionState) : SessionOp → SessionState
  | .protect tenantId sessionId text entities policy =>
      match runIn (transform unicode vault.hashes fingerprinter vault.like
          tenantId sessionId text entities policy) state.world with
      | (.ok out, world) =>
          ⟨world, state.emitted ++
            out.mappings.map (Emission.mk tenantId sessionId)⟩
      | (.error _, world) => ⟨world, state.emitted⟩
  | .wait milliseconds =>
      { state with world := state.world.elapse milliseconds }
  | .lose key =>
      { state with
        world := { state.world with
          redis := state.world.redis.putKeys
            (state.world.redis.keys.eraseAll [key]) } }

/-- The state after a run of steps. -/
def sessionRun (state : SessionState) (ops : List SessionOp) :
    SessionState :=
  ops.foldl (sessionStep vault unicode fingerprinter) state

end Step

-- ==================================================== identities

/-- What a fingerprint frames. -/
structure Identity where
  tenantId : UUID
  sessionId : UUID
  entityType : Text
  normalForm : Text
deriving DecidableEq

def Identity.fingerprint (identity : Identity)
    (fingerprinter : Fingerprinter) (hashes : Hashes) : Except Exn Text :=
  fingerprinter.fingerprint hashes identity.tenantId identity.sessionId
    identity.entityType identity.normalForm

/-- The identities of a step's detections. -/
def SessionOp.identities (unicode : Unicode) : SessionOp → List Identity
  | .protect tenantId sessionId text entities _ =>
      entities.map (fun e => ⟨tenantId, sessionId, e.entityType,
        normalize unicode e.entityType (slice text e.start e.stop)⟩)
  | _ => []

end PrivacyGateway.Tokenization
