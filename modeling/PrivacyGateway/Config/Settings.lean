/-
Deployment settings, as far as the vault depends on them.

The limits carry the bounds the settings model enforces. The key ring is
not bounded so: outside production a deployment may start without a usable
active key, and nothing notices until the vault seals its first record.
`tokenVault` is the vault such settings give, with or without a key.

A secret is stored as its base64 text; the decoder is a parameter.
-/
import PrivacyGateway.Vault.RedisVault

namespace PrivacyGateway

open Effect Vault

inductive AppEnv
  | localDevelopment
  | test
  | production
deriving DecidableEq

/-- The runtime configuration that the stages below read. -/
structure Settings where
  appEnv : AppEnv
  vaultActiveKeyId : Text
  vaultKeys : Dict Text Text
  maxMessageChars : Nat := 32768
  maxEntitiesPerRequest : Nat := 500
  maxDocumentEntities : Nat := 10000
  auditFailClosed : Bool := true
  maxMessageChars_bounded : 1 ≤ maxMessageChars
  maxEntitiesPerRequest_bounded : 1 ≤ maxEntitiesPerRequest ∧
    maxEntitiesPerRequest ≤ 10000
  maxDocumentEntities_bounded : 1 ≤ maxDocumentEntities ∧
    maxDocumentEntities ≤ 100000

namespace Settings

-- The defaults are within their own bounds.
theorem maxMessageChars_default : 1 ≤ 32768 := by decide
theorem maxEntitiesPerRequest_default : 1 ≤ 500 ∧ 500 ≤ 10000 := by decide
theorem maxDocumentEntities_default : 1 ≤ 10000 ∧ 10000 ≤ 100000 := by
  decide

/-- Values that mean nobody set this. -/
def developmentPlaceholders : List Text :=
  ["local-development-pepper-do-not-use-in-production".toList,
    "BBBBBBBBBBBBBBBBBBBBBBBBBBBBBBBBBBBBBBBBBBB=".toList,
    "change-me".toList, "changeme".toList, "secret".toList]

variable (unicode : Unicode) (decode : Text → Option Bytes)
  (settings : Settings)

/-- What production holds against the active vault key. -/
def vaultKeyProblems (raw : Text) : List String :=
  if developmentPlaceholders.contains raw then
    ["the active vault key is still the development placeholder"]
  else
    match decode raw with
    | none => ["the active vault key is not valid base64"]
    | some decoded =>
        if decoded.length ≠ vaultKeyBytes then
          ["the active vault key must decode to exactly 32 bytes"]
        else if decoded = List.replicate vaultKeyBytes 0 then
          ["the active vault key is all zero bytes"]
        else []

/-- The vault's share of the production checks. -/
def hardeningProblems : List String :=
  if settings.appEnv ≠ .production then []
  else
    match settings.vaultKeys.get?
        (unicode.lower settings.vaultActiveKeyId) with
    | none => ["no VAULT_KEY_ entry matches VAULT_ACTIVE_KEY_ID"]
    | some raw => vaultKeyProblems decode raw

-- ==================================================== the key ring

/-- A specific key from the ring. -/
def vaultKey (keyId : Text) : Except Exn Bytes :=
  match settings.vaultKeys.get? (unicode.lower keyId) with
  | none => .error (.value
      "the requested vault key id is not present in the key ring")
  | some raw =>
      match decode raw with
      | none => .error (.value "binascii.Error")
      | some key => .ok key

def activeKeyId : Text :=
  unicode.lower settings.vaultActiveKeyId

/-- The ring's answer for a key id. -/
def ringKey (keyId : Text) : Except Exn Bytes :=
  match settings.vaultKey unicode decode keyId with
  | .error _ => .error (vaultEncryptionError "unknown_key_id")
  | .ok key =>
      if key.length ≠ vaultKeyBytes then
        .error (vaultEncryptionError "key_length_invalid")
      else .ok key

theorem ringKey_length {keyId : Text} {key : Bytes}
    (h : settings.ringKey unicode decode keyId = .ok key) :
    key.length = vaultKeyBytes := by
  unfold ringKey at h
  split at h
  · cases h
  · split at h
    · cases h
    · rename_i hlength
      cases h
      exact not_not.mp hlength

/-- A retired key, where its text is a key. -/
def retiredKey (entry : Text × Text) : Option (Text × Bytes) :=
  match decode entry.2 with
  | none => none
  | some key =>
      if key.length = vaultKeyBytes then some (entry.1, key) else none

theorem retiredKey_length {entry : Text × Text} {key : Text × Bytes}
    (h : retiredKey decode entry = some key) :
    key.2.length = vaultKeyBytes := by
  unfold retiredKey at h
  split at h
  · cases h
  · split at h
    · rename_i hlength
      cases h
      exact hlength
    · cases h

/-- The ring of a usable active key: that key, and what other keys the
settings hold. -/
def ringOf (key : Bytes) (h : key.length = vaultKeyBytes) :
    StaticKeyRing where
  keys := (settings.activeKeyId unicode, key) ::
    settings.vaultKeys.filterMap (retiredKey decode)
  activeKeyId := settings.activeKeyId unicode
  active_present := by simp [Dict.get?]
  keys_valid := by
    intro entry hentry
    rcases List.mem_cons.mp hentry with rfl | hentry
    · exact h
    · obtain ⟨_, _, hretired⟩ := List.mem_filterMap.mp hentry
      exact retiredKey_length decode hretired

-- ==================================================== the vault

/-- What a vault is built from, besides its keys. -/
structure VaultParts where
  keyPrefix : Text
  hashes : Hashes
  aead : Aead
  codec : RecordCodec
  secrets : Secrets

def VaultParts.withRing (parts : VaultParts) (ring : StaticKeyRing) :
    RedisTokenVault where
  keyPrefix := parts.keyPrefix
  hashes := parts.hashes
  cipher := ⟨parts.aead, ring⟩
  codec := parts.codec
  secrets := parts.secrets

/-- The vault without an active key: every check is the vault's, and
sealing the first record raises. -/
def keylessVault (e : Exn) : Tokenization.VaultLike World where
  getOrCreateMany _ _ entries ttlSeconds := do
    let _ ← checked (validatedTtl ttlSeconds)
    checked (validateEntries entries)
    if entries.length > maxBatchEntries then
      throw (.value "batch exceeds the 10000 ceiling")
    else if entries = [] then return []
    else
      act fun w => (.error e, { w with idsDrawn := w.idsDrawn + 1 })

/-- The token vault of a deployment. -/
def tokenVault (parts : VaultParts) : Tokenization.VaultLike World :=
  match h : settings.ringKey unicode decode
      (settings.activeKeyId unicode) with
  | .ok key =>
      (parts.withRing (settings.ringOf unicode decode key
        (settings.ringKey_length unicode decode h))).like
  | .error e => keylessVault e

end Settings

end PrivacyGateway
