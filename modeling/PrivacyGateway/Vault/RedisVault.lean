/-
The Redis-backed encrypted token vault.

Every key of a session starts with the session's own prefix: one record
key for each token id, one index key for each fingerprint, and the meta
set, which lists both. `getOrCreateMany` seals every candidate before the
batch script runs; `resolveMany` opens the records that the wanted tokens
name; `deleteSession` is two round trips, the listing of the meta set and
the transaction that erases what was listed.

The process's random draws are a parameter (`Secrets`), consumed in
order.
-/
import PrivacyGateway.Lib.Find
import PrivacyGateway.Tokenization.Ids
import PrivacyGateway.Tokenization.Tokenizer
import PrivacyGateway.Vault.Records
import PrivacyGateway.Vault.Redis

namespace PrivacyGateway.Vault

open Effect Tokenization

def defaultKeyPrefix : Text := "sgw:v1".toList
def minTtlSeconds : Int := 1
def maxTtlSeconds : Int := 7200
def maxBatchEntries : Nat := 10000

/-- The random draws of the process, in order. -/
structure Secrets where
  tokenBytes : Nat → Fin (2 ^ 128)
  urandom : Nat → Bytes
  urandom_length : ∀ n, (urandom n).length = nonceBytes

/-- The vault: its configuration and what it computes with. -/
structure RedisTokenVault where
  keyPrefix : Text
  hashes : Hashes
  cipher : EnvelopeCipher
  codec : RecordCodec
  secrets : Secrets

/-- What the vault acts on: the server, and the draws made so far. -/
structure World where
  redis : Redis
  idsDrawn : Nat
  noncesDrawn : Nat

/-- Run commands on the server; a failure closes the call. -/
def storeCall {α : Type} (operation : String)
    (command : Eff Redis RedisError α) : Eff World Exn α :=
  act fun w =>
    match runIn command w.redis with
    | (.ok a, redis) => (.ok a, { w with redis := redis })
    | (.error _, redis) =>
        (.error (gatewayError .vaultUnavailable
          [("operation", .text operation.toList)]),
          { w with redis := redis })

-- ==================================================== validation

def validatedTtl (ttlSeconds : Int) : Except Exn Nat :=
  if minTtlSeconds ≤ ttlSeconds ∧ ttlSeconds ≤ maxTtlSeconds then
    .ok ttlSeconds.toNat
  else .error (.value "ttl_seconds must be between 1 and 7200")

def validateEntityType (entityType : Text) : Except Exn Unit :=
  if isValidEntityType entityType then .ok ()
  else .error (.value
    "entity_type must be uppercase ASCII with underscores")

/-- The checks of every entry, in order. -/
def validateEntries : List VaultWriteRequest → Except Exn Unit
  | [] => .ok ()
  | entry :: entries =>
      match validateEntityType entry.entityType with
      | .error e => .error e
      | .ok () =>
          if entry.normalizedHmac = [] then
            .error (.value "normalized_hmac must not be empty")
          else validateEntries entries

/-- The dedup loop: the entries kept so far, and where each entry read so
far went. -/
def deduplicateFrom (seen : Dict (Text × Text) Nat)
    (unique : List VaultWriteRequest) (positions : List Nat) :
    List VaultWriteRequest → List VaultWriteRequest × List Nat
  | [] => (unique, positions)
  | entry :: entries =>
      let identity := (entry.entityType, entry.normalizedHmac)
      match seen.get? identity with
      | some index =>
          deduplicateFrom seen unique (positions ++ [index]) entries
      | none =>
          deduplicateFrom (seen.set identity unique.length)
            (unique ++ [entry]) (positions ++ [unique.length]) entries

/-- Collapse repeats: the unique entries and each entry's index. -/
def deduplicate (entries : List VaultWriteRequest) :
    List VaultWriteRequest × List Nat :=
  deduplicateFrom [] [] [] entries

def asText : Redis.Reply → Text
  | .bulk value => value
  | .int value => (toString value).toList

/-- The reply's pairs against the entries, in order. -/
def readPairs : List Redis.Reply → List VaultWriteRequest →
    Except Exn (List Text)
  | tokenId :: _ :: raw, entry :: unique =>
      if isValidTokenId (asText tokenId) then
        match formatToken entry.entityType (asText tokenId),
            readPairs raw unique with
        | .ok token, .ok tokens => .ok (token :: tokens)
        | .error e, _ => .error e
        | _, .error e => .error e
      else .error (vaultEncryptionError "malformed_index_entry")
  | _, _ => .ok []

/-- Turn the script's flat pairs into tokens. -/
def readBatchResult (raw : List Redis.Reply)
    (unique : List VaultWriteRequest) : Except Exn (List Text) :=
  if raw.length ≠ 2 * unique.length then
    .error (vaultEncryptionError "batch_reply_length_mismatch")
  else readPairs raw unique

-- ==================================================== the vault

namespace RedisTokenVault

variable (vault : RedisTokenVault)

def sessionPrefix (tenantId sessionId : UUID) : Text :=
  vault.keyPrefix ++ ':' :: (tenantId.str ++ ':' :: sessionId.str)

def tokenSegment : Text := ":token:".toList

def tokenKey (session tokenId : Text) : Text :=
  session ++ (tokenSegment ++ tokenId)

def fingerprintSegment : Text := ":fingerprint:".toList

/-- The digest that names a fingerprint. -/
def indexDigest (normalizedHmac : Text) : Text :=
  hexdigest (vault.hashes.sha256 (encodeUtf8 normalizedHmac))

def fingerprintKey (session entityType normalizedHmac : Text) : Text :=
  session ++ (fingerprintSegment ++
    (entityType ++ ':' :: vault.indexDigest normalizedHmac))

def metaKey (session : Text) : Text :=
  session ++ ":meta".toList

section Calls

variable (tenantId sessionId : UUID)

/-- A fresh token id. -/
def newTokenId : Eff World Exn Text :=
  act fun w =>
    (.ok (encodeCrockford (vault.secrets.tokenBytes w.idsDrawn)),
      { w with idsDrawn := w.idsDrawn + 1 })

def newNonce : Eff World Exn Bytes :=
  act fun w => (.ok (vault.secrets.urandom w.noncesDrawn),
    { w with noncesDrawn := w.noncesDrawn + 1 })

/-- The record of a mapping, as its envelope holds it. -/
def recordFor (entityType token originalValue : Text) : VaultRecord where
  tenantId := tenantId
  sessionId := sessionId
  token := token
  entityType := entityType
  originalValue := originalValue

def aadFor (entityType tokenId : Text) : VaultAad where
  tenantId := tenantId
  sessionId := sessionId
  entityType := entityType
  tokenId := tokenId

/-- Encrypt one record under a fresh nonce. -/
def sealRecord (entityType token tokenId originalValue : Text) :
    Eff World Exn Bytes := do
  let nonce ← vault.newNonce
  checked (vault.cipher.sealEnvelope nonce
    ((recordFor tenantId sessionId entityType token
      originalValue).toBytes vault.codec)
    (aadFor tenantId sessionId entityType tokenId))

/-- The candidate of one entry, sealed. -/
def sealEntry (entry : VaultWriteRequest) :
    Eff World Exn Redis.ScriptEntry := do
  let session := vault.sessionPrefix tenantId sessionId
  let candidateId ← vault.newTokenId
  let token ← checked (formatToken entry.entityType candidateId)
  let envelope ← vault.sealRecord tenantId sessionId entry.entityType
    token candidateId entry.originalValue
  return {
    fingerprintKey :=
      vault.fingerprintKey session entry.entityType entry.normalizedHmac
    candidateKey := tokenKey session candidateId
    candidateId := candidateId
    envelope := envelope }

def sealEntries : List VaultWriteRequest →
    Eff World Exn (List Redis.ScriptEntry)
  | [] => return []
  | entry :: entries => do
      let head ← vault.sealEntry tenantId sessionId entry
      let tail ← sealEntries entries
      return head :: tail

/-- The part of a batch that touches the server. -/
def writeBatch (ttl : Nat) (entries : List VaultWriteRequest) :
    Eff World Exn (List Text) := do
  let session := vault.sessionPrefix tenantId sessionId
  let unique := (deduplicate entries).1
  let candidates ← vault.sealEntries tenantId sessionId unique
  let raw ← storeCall "get_or_create_many" (Redis.batchWrite
    (metaKey session) (session ++ tokenSegment) ttl candidates)
  let tokens ← checked (readBatchResult raw unique)
  return (deduplicate entries).2.map (fun index => tokens.getD index [])

/-- One token per entry, minting what does not already exist. -/
def getOrCreateMany (entries : List VaultWriteRequest) (ttlSeconds : Int) :
    Eff World Exn (List Text) := do
  let ttl ← checked (validatedTtl ttlSeconds)
  checked (validateEntries entries)
  if entries.length > maxBatchEntries then
    throw (.value "batch exceeds the 10000 ceiling")
  else if entries = [] then return []
  else vault.writeBatch tenantId sessionId ttl entries

/-- Open a stored envelope as the record of a token. -/
def unsealRecord (raw : Bytes) (entityType tokenId : Text) :
    Except Exn VaultRecord :=
  match vault.cipher.unsealEnvelope raw
      (aadFor tenantId sessionId entityType tokenId) with
  | .error e => .error e
  | .ok plaintext => VaultRecord.fromBytes vault.codec plaintext

/-- The loop over the wanted tokens and what the store returned for
them. -/
def openRecords (resolved : Dict Text Text) :
    List (Token × Option Bytes) → Except Exn (Dict Text Text)
  | [] => .ok resolved
  | (_, none) :: rest => openRecords resolved rest
  | (token, some raw) :: rest =>
      match vault.unsealRecord tenantId sessionId raw token.entityType
          token.tokenId with
      | .error e => .error e
      | .ok record =>
          if record.token ≠ token.text then
            .error (vaultEncryptionError "record_token_mismatch")
          else openRecords (resolved.set token.text record.originalValue)
            rest

/-- The well-formed tokens of a request, in the order they are read. -/
def wantedTokens (tokens : List Text) : List Token :=
  (tokens.dedup.insertionSort (· ≤ ·)).filterMap parseToken

/-- Map tokens to their original values. -/
def resolveMany (tokens : List Text) : Eff World Exn (Dict Text Text) := do
  let session := vault.sessionPrefix tenantId sessionId
  let wanted := wantedTokens tokens
  if wanted = [] then return []
  else
    let raw ← storeCall "resolve_many" (Redis.mget
      (wanted.map (fun token => tokenKey session token.tokenId)))
    checked (vault.openRecords tenantId sessionId [] (wanted.zip raw))

/-- The first round trip of a deletion: what the meta set lists. -/
def listSession : Eff World Exn (List Text) :=
  storeCall "delete_session"
    (Redis.smembers (metaKey (vault.sessionPrefix tenantId sessionId)))

/-- The members inside the session's namespace. -/
def ownedKeys (members : List Text) : List Text :=
  members.filter (fun key =>
    (vault.sessionPrefix tenantId sessionId ++ [':']).isPrefixOf key)

/-- The key names a record, not an index entry. -/
def isRecordKey (key : Text) : Bool :=
  (Find.findFrom tokenSegment key 0).isSome

/-- The second round trip of a deletion: one transaction that erases the
listed keys and the meta set, and counts the records. -/
def eraseListed (members : List Text) : Eff World Exn Nat :=
  storeCall "delete_session" (do
    let owned := vault.ownedKeys tenantId sessionId members
    let recordKeys := owned.filter isRecordKey
    let indexKeys := owned.filter (fun key => !isRecordKey key)
    let deleted ← Redis.delAny recordKeys
    let _ ← Redis.delAny indexKeys
    let _ ← Redis.del
      [metaKey (vault.sessionPrefix tenantId sessionId)]
    return deleted)

/-- Remove every mapping for one session. -/
def deleteSession : Eff World Exn Nat := do
  let members ← vault.listSession tenantId sessionId
  vault.eraseListed tenantId sessionId members

end Calls

/-- The vault, as the tokenizer sees it. -/
def like : VaultLike World where
  getOrCreateMany := vault.getOrCreateMany

end RedisTokenVault

end PrivacyGateway.Vault
