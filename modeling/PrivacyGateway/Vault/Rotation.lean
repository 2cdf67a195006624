/-
The vault under a key ring that changes.

A rotation is a new configuration: the vault is the same but for its ring.
It retains the old ring when every key that was on it is on the new one
under its id. `observed` is what the callers of a run are answered, where
each call is made under a ring of its own.
-/
import PrivacyGateway.Vault.System

namespace PrivacyGateway.Vault

open Effect

/-- Every key of the older ring is on the newer one. -/
def StaticKeyRing.RetainedBy (older newer : StaticKeyRing) : Prop :=
  ∀ keyId key, older.keys.get? keyId = some key →
    newer.keys.get? keyId = some key

/-- What a caller is answered. -/
inductive VaultAnswer
  | tokens (answer : Except Exn (List Text))
  | values (answer : Except Exn (Dict Text Text))
  | keys (answer : Except Exn (List Text))
  | deleted (answer : Except Exn Nat)
  | silent
deriving DecidableEq

namespace RedisTokenVault

variable (vault : RedisTokenVault)

/-- The vault, configured with another ring. -/
def withRing (ring : StaticKeyRing) : RedisTokenVault :=
  { vault with cipher := { vault.cipher with keyRing := ring } }

/-- What a step answers its caller. -/
def answer (state : VaultState) : VaultOp → VaultAnswer
  | .batch tenantId sessionId entries ttlSeconds =>
      .tokens (runIn (vault.getOrCreateMany tenantId sessionId entries
        ttlSeconds) state.world).1
  | .resolve tenantId sessionId tokens =>
      .values (runIn (vault.resolveMany tenantId sessionId tokens)
        state.world).1
  | .wait _ => .silent
  | .delete tenantId sessionId =>
      .deleted (runIn (vault.deleteSession tenantId sessionId)
        state.world).1
  | .list tenantId sessionId =>
      .keys (runIn (vault.listSession tenantId sessionId) state.world).1
  | .erase index =>
      match state.pending[index]? with
      | none => .silent
      | some listing =>
          .deleted (runIn (vault.eraseListed listing.tenantId
            listing.sessionId listing.members) state.world).1

/-- The answers of a run, each call under its own ring. -/
def observed : VaultState → List (StaticKeyRing × VaultOp) → List VaultAnswer
  | _, [] => []
  | state, (ring, op) :: calls =>
      (vault.withRing ring).answer state op ::
        observed ((vault.withRing ring).step state op) calls

end RedisTokenVault

end PrivacyGateway.Vault
