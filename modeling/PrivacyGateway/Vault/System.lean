/-
The vault over time: batches, resolutions, deletions, and the clock.

A deletion is either one step (`delete`, no writer in between) or two: the
listing of the meta set (`list`) and, at any later moment, the transaction
that erases what was listed (`erase`). Every other call on the server is
one atomic step, so a run of these steps is an interleaving of any number
of callers.

The state remembers, besides the world, the deletions under way and every
token handed out.
-/
import PrivacyGateway.Lib.Run
import PrivacyGateway.Vault.RedisVault

namespace PrivacyGateway.Vault

open Effect

/-- One step of the system. -/
inductive VaultOp
  | batch (tenantId sessionId : UUID) (entries : List VaultWriteRequest)
      (ttlSeconds : Int)
  | resolve (tenantId sessionId : UUID) (tokens : List Text)
  | wait (milliseconds : Nat)
  | delete (tenantId sessionId : UUID)
  | list (tenantId sessionId : UUID)
  | erase (index : Nat)
deriving DecidableEq

/-- A deletion between its two round trips. -/
structure Listing where
  tenantId : UUID
  sessionId : UUID
  members : List Text
deriving DecidableEq

structure VaultState where
  world : World
  pending : List Listing
  issued : List (UUID × UUID × Text)

/-- Nothing stored, nothing drawn. -/
def VaultState.start : VaultState where
  world := ⟨⟨0, fun _ => none⟩, 0, 0⟩
  pending := []
  issued := []

/-- The server after some time has passed. -/
def World.elapse (w : World) (milliseconds : Nat) : World :=
  { w with redis := { w.redis with now := w.redis.now + milliseconds } }

namespace RedisTokenVault

variable (vault : RedisTokenVault)

/-- One step. A call that raises leaves what it did before it raised. -/
def step (state : VaultState) : VaultOp → VaultState
  | .batch tenantId sessionId entries ttlSeconds =>
      match runIn (vault.getOrCreateMany tenantId sessionId entries
          ttlSeconds) state.world with
      | (.ok tokens, world) =>
          { state with
            world := world
            issued := state.issued ++
              tokens.map (fun token => (tenantId, sessionId, token)) }
      | (.error _, world) => { state with world := world }
  | .resolve tenantId sessionId tokens =>
      { state with
        world := (runIn (vault.resolveMany tenantId sessionId tokens)
          state.world).2 }
  | .wait milliseconds =>
      { state with world := state.world.elapse milliseconds }
  | .delete tenantId sessionId =>
      { state with
        world := (runIn (vault.deleteSession tenantId sessionId)
          state.world).2 }
  | .list tenantId sessionId =>
      match runIn (vault.listSession tenantId sessionId) state.world with
      | (.ok members, world) =>
          { state with
            world := world
            pending := state.pending ++ [⟨tenantId, sessionId, members⟩] }
      | (.error _, world) => { state with world := world }
  | .erase index =>
      match state.pending[index]? with
      | none => state
      | some listing =>
          { state with
            world := (runIn (vault.eraseListed listing.tenantId
              listing.sessionId listing.members) state.world).2
            pending := state.pending.eraseIdx index }

/-- The state after a run of steps. -/
def run (state : VaultState) (ops : List VaultOp) : VaultState :=
  ops.foldl vault.step state

end RedisTokenVault

end PrivacyGateway.Vault
