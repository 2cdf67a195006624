/-
Bearer credentials and the principals they stand for.

A header is a scheme, a space and one printable token, with space around
them. Whatever else comes in it fails with one public error, except that a
header which is missing or blank fails with another.

The key store answers or it does not; that it does not is one more way to
fail. The clock is read once before the lookup and once in it.
-/
import Mathlib.Data.Finset.Dedup
import PrivacyGateway.Auth.ApiKeys
import PrivacyGateway.Unicode

namespace PrivacyGateway.Auth

-- ==================================================== scopes

/-- What an API key may be granted. -/
inductive Scope
  | chatInvoke
  | detectInvoke
  | sessionsDelete
  | documentsWrite
  | documentsRead
  | documentsDelete
  | policiesRead
  | policiesWrite
  | policiesTest
deriving DecidableEq

def Scope.value : Scope → Text
  | chatInvoke => "chat:invoke".toList
  | detectInvoke => "detect:invoke".toList
  | sessionsDelete => "sessions:delete".toList
  | documentsWrite => "documents:write".toList
  | documentsRead => "documents:read".toList
  | documentsDelete => "documents:delete".toList
  | policiesRead => "policies:read".toList
  | policiesWrite => "policies:write".toList
  | policiesTest => "policies:test".toList

def Scope.all : List Scope :=
  [chatInvoke, detectInvoke, sessionsDelete, documentsWrite, documentsRead,
    documentsDelete, policiesRead, policiesWrite, policiesTest]

/-- `Scope(value)`. -/
def Scope.ofValue (value : Text) : Option Scope :=
  Scope.all.find? fun scope => decide (scope.value = value)

/-- A string that names no scope grants nothing. -/
def parseScopes (rawScopes : List Text) : Finset Scope :=
  (rawScopes.filterMap Scope.ofValue).toFinset

/-- The caller, with all that the key's record says of it. -/
structure KeyPrincipal extends Principal where
  apiKeyPrefix : Text
  scopes : Finset Scope
deriving DecidableEq

def KeyPrincipal.hasScope (principal : KeyPrincipal) (scope : Scope) :
    Bool :=
  decide (scope ∈ principal.scopes)

def buildPrincipal (record : ApiKey) : KeyPrincipal where
  tenantId := record.tenantId
  apiKeyId := record.id
  apiKeyPrefix := record.keyPrefix
  scopes := parseScopes record.scopes

-- ==================================================== the header

def bearerScheme : Text := "bearer".toList
def maxCredentialChars : Nat := 512

/-- Raise the public error of an outcome. -/
def fail {α : Type} (why : String)
    (code : ErrorCode := .authenticationFailed) : Except Exn α :=
  .error (gatewayError code (reason why))

/-- `value.partition(" ")`, where there is a space. -/
def partitionSpace (value : Text) : Option (Text × Text) :=
  match value.dropWhile (fun c => c ≠ ' ') with
  | [] => none
  | _ :: remainder => some (value.takeWhile (fun c => c ≠ ' '), remainder)

/-- One run of printable ASCII without a space. -/
def isToken (value : Text) : Bool :=
  value.all fun c => decide (0x21 ≤ c.toNat) && decide (c.toNat ≤ 0x7E)

/-- A candidate, where it is one token of a bounded length. -/
def credentialOf (candidate : Text) : Except Exn Text :=
  if candidate = [] ∨ maxCredentialChars < candidate.length ∨
      isToken candidate = false then
    fail "malformed_credential"
  else .ok candidate

/-- Extract the credential from a header's value. -/
def parseBearerCredential (unicode : Unicode) (header : Option Text) :
    Except Exn Text :=
  let value := unicode.strip (header.getD [])
  if value = [] then
    fail "missing_authorization_header" .authenticationRequired
  else
    match partitionSpace value with
    | none => fail "unsupported_scheme"
    | some (scheme, remainder) =>
        if unicode.lower scheme ≠ bearerScheme then fail "unsupported_scheme"
        else credentialOf (unicode.strip remainder)

-- ==================================================== the principal

/-- The key store, as a request finds it. -/
inductive KeyStore
  | unreachable
  | reachable (table : KeyTable)

section Resolution

variable (hashes : Hashes) (pepper : Text)

/-- Verify a credential and build the principal it authorizes. `moment` is
read before the lookup, `now` in it. -/
def resolvePrincipal (store : KeyStore) (credential : Text)
    (moment now : Rat) : Except Exn KeyPrincipal :=
  match store with
  | .unreachable => fail "key_store_unavailable"
  | .reachable table =>
      match authenticate hashes pepper table credential now with
      | .error _ => fail "key_store_unavailable"
      | .ok none => fail "invalid_credential"
      | .ok (some record) =>
          if record.status ≠ .active then fail "invalid_credential"
          else if ∃ expiry ∈ record.expiresAt, expiry ≤ moment then
            fail "invalid_credential"
          else .ok (buildPrincipal record)

/-- The whole authentication path. -/
def authenticateBearer (unicode : Unicode) (store : KeyStore)
    (header : Option Text) (moment now : Rat) : Except Exn KeyPrincipal := do
  let credential ← parseBearerCredential unicode header
  resolvePrincipal hashes pepper store credential moment now

end Resolution

end PrivacyGateway.Auth
