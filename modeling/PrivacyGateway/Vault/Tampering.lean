/-
A vault on a server that others can write to.

Between any two calls on the vault the whole content of the server may be
replaced: stored strings copied, moved, swapped or replayed to any key, or
any other bytes put there. The state remembers every envelope the vault
sealed, with what it was sealed for.

What is asked of the cipher is `Unforged`: of the ciphertexts that are
stored so, only those the vault sealed open at all, under a key of the
ring and with any associated data.
-/
import PrivacyGateway.Vault.System

namespace PrivacyGateway.Vault

open Effect

/-- An envelope, and what it was sealed for. -/
structure Sealing where
  tenantId : UUID
  sessionId : UUID
  entityType : Text
  tokenId : Text
  originalValue : Text
  envelope : Bytes
deriving DecidableEq

/-- One step: a call on the vault, or a replacement of what the server
stores. -/
inductive AttackOp
  | call (op : VaultOp)
  | store (keys : Keyspace Text RedisValue)

structure AttackState where
  state : VaultState
  sealings : List Sealing

def AttackState.start : AttackState where
  state := VaultState.start
  sealings := []

namespace RedisTokenVault

variable (vault : RedisTokenVault)

/-- What a batch seals: nothing where a check stops it first. An envelope
that was sealed before the sealing of a later entry raised goes nowhere. -/
def sealingsOf (w : World) (tenantId sessionId : UUID)
    (entries : List VaultWriteRequest) (ttlSeconds : Int) :
    List Sealing :=
  match validatedTtl ttlSeconds, validateEntries entries with
  | .ok _, .ok _ =>
      if entries.length > maxBatchEntries then []
      else
        match (runIn (vault.sealEntries tenantId sessionId
            (deduplicate entries).1) w).1 with
        | .ok candidates =>
            List.zipWith (fun entry candidate =>
              { tenantId := tenantId
                sessionId := sessionId
                entityType := entry.entityType
                tokenId := candidate.candidateId
                originalValue := entry.originalValue
                envelope := candidate.envelope })
              (deduplicate entries).1 candidates
        | .error _ => []
  | _, _ => []

/-- What a call seals. -/
def sealedBy (w : World) : VaultOp → List Sealing
  | .batch tenantId sessionId entries ttlSeconds =>
      vault.sealingsOf w tenantId sessionId entries ttlSeconds
  | _ => []

def attackStep (st : AttackState) : AttackOp → AttackState
  | .call op =>
      { state := vault.step st.state op
        sealings := st.sealings ++ vault.sealedBy st.state.world op }
  | .store keys =>
      { st with
        state := { st.state with
          world := { st.state.world with
            redis := st.state.world.redis.putKeys keys } } }

/-- The state after a run of steps. -/
def attackRun (st : AttackState) (ops : List AttackOp) : AttackState :=
  ops.foldl vault.attackStep st

-- ==================================================== forgeries

/-- A string that is an envelope opens, under a key of the ring and with
any associated data, only if its nonce and ciphertext are those of an
envelope sealed under that key. -/
def Unforged (sealings : List Sealing) (raw : Bytes) : Prop :=
  ∀ envelope key aad plaintext,
    Envelope.fromBytes raw = .ok envelope →
    vault.cipher.keyRing.key envelope.keyId = .ok key →
    vault.cipher.aead.decrypt key envelope.nonce envelope.ciphertext aad =
      some plaintext →
    ∃ sealing ∈ sealings, ∃ sealed,
      Envelope.fromBytes sealing.envelope = .ok sealed ∧
        vault.cipher.keyRing.key sealed.keyId = .ok key ∧
        sealed.nonce = envelope.nonce ∧
        sealed.ciphertext = envelope.ciphertext

/-- What is stored from outside holds no forged ciphertext. -/
def StoresUnforged (st : AttackState) : AttackOp → Prop
  | .call _ => True
  | .store keys =>
      ∀ key raw, (st.state.world.redis.putKeys keys).stringAt key =
        some raw → vault.Unforged st.sealings raw

end RedisTokenVault

end PrivacyGateway.Vault
