/-
API keys: minting, the table that holds their records, and verification.

A raw key is 32 random bytes in the URL-safe base64 alphabet behind a
fixed label. It leaves `create` once; the table holds its first
characters and a keyed digest of the whole. A table is rows whose ids,
prefixes, and names within a tenant are unique, as its constraints have
it, so `insert` may refuse a row, and nothing else can.

`KeyOp` is what the repository's callers do to the table, each as the one
statement that it commits. The tenants are those the database has; a row
of any other is refused.
-/
import PrivacyGateway.Tokenization.Identity

namespace PrivacyGateway.Auth

/-- The environment marker of a raw key and of its prefix. -/
def keyLabel : Text := "sgw_live_".toList

def keyRandomBytes : Nat := 32
def prefixBodyChars : Nat := 8

-- ==================================================== base64

/-- The URL-safe alphabet. -/
def urlsafeAlphabet : Text :=
  "ABCDEFGHIJKLMNOPQRSTUVWXYZabcdefghijklmnopqrstuvwxyz0123456789-_".toList

def urlsafeChar (n : Nat) : Char :=
  urlsafeAlphabet.getD n '='

/-- So many digits of a number, in the alphabet. -/
def urlsafeDigits (count n : Nat) : Text :=
  (Radix.digits 64 count n).map urlsafeChar

/-- `base64.urlsafe_b64encode`: four characters for each three bytes, the
last group padded. -/
def urlsafeB64encode : Bytes → Text
  | a :: b :: c :: rest =>
      urlsafeDigits 4 ((a.toNat * 256 + b.toNat) * 256 + c.toNat) ++
        urlsafeB64encode rest
  | [a, b] => urlsafeDigits 3 ((a.toNat * 256 + b.toNat) * 4) ++ ['=']
  | [a] => urlsafeDigits 2 (a.toNat * 16) ++ ['=', '=']
  | [] => []

/-- The encoding without its padding. -/
def encodeBody (rawBytes : Bytes) : Text :=
  ((urlsafeB64encode rawBytes).reverse.dropWhile (· == '=')).reverse

-- ==================================================== one key

structure GeneratedApiKey where
  rawKey : Text
  keyPrefix : Text
  keyHash : Text
deriving DecidableEq

/-- `secrets.token_bytes(KEY_RANDOM_BYTES)`. -/
structure KeyBytes where
  bytes : Bytes
  length_eq : bytes.length = keyRandomBytes

/-- The raw key that the random bytes make. -/
def rawKeyOf (random : KeyBytes) : Text :=
  keyLabel ++ encodeBody random.bytes

def prefixOf (rawKey : Text) : Text :=
  rawKey.take (keyLabel.length + prefixBodyChars)

section Digest

variable (hashes : Hashes) (pepper : Text)

/-- The stored representation of a raw key. -/
def hashApiKey (rawKey : Text) : Text :=
  hexdigest (hashes.hmacSha256 (encodeUtf8 pepper) (encodeUtf8 rawKey))

def verifyApiKey (rawKey storedHash : Text) : Bool :=
  hashApiKey hashes pepper rawKey == storedHash

def generateApiKey (random : KeyBytes) : GeneratedApiKey :=
  let body := encodeBody random.bytes
  { rawKey := keyLabel ++ body
    keyPrefix := keyLabel ++ body.take prefixBodyChars
    keyHash := hashApiKey hashes pepper (keyLabel ++ body) }

end Digest

-- ==================================================== the table

inductive KeyStatus
  | active
  | revoked
deriving DecidableEq

/-- A `datetime`: with a time zone, or without one. -/
inductive DateTime
  | aware (instant : Rat)
  | naive (wall : Rat)
deriving DecidableEq

/-- A credential record. -/
structure ApiKey where
  id : UUID
  tenantId : UUID
  name : Text
  keyPrefix : Text
  keyHash : Text
  scopes : List Text
  status : KeyStatus
  expiresAt : Option Rat
  lastUsedAt : Option Rat
  createdAt : Rat
deriving DecidableEq

/-- The key may authenticate a request at this moment. -/
def ApiKey.isUsable (record : ApiKey) (now : Rat) : Bool :=
  decide (record.status = .active) &&
    match record.expiresAt with
    | none => true
    | some expiry => decide (now < expiry)

/-- Two records that the table does not hold together. -/
def ApiKey.Clashes (record other : ApiKey) : Prop :=
  record.id = other.id ∨ record.keyPrefix = other.keyPrefix ∨
    record.tenantId = other.tenantId ∧ record.name = other.name

instance (record other : ApiKey) : Decidable (record.Clashes other) := by
  unfold ApiKey.Clashes
  exact instDecidableOr

/-- The table, with what its constraints promise. -/
structure KeyTable where
  rows : List ApiKey
  apart : rows.Pairwise (fun record other => ¬ record.Clashes other)

namespace KeyTable

def empty : KeyTable := ⟨[], .nil⟩

/-- The widest name the column takes. -/
def nameWidth : Nat := 200

variable (tenants : List UUID)

/-- The database takes the row. -/
def Admits (table : KeyTable) (record : ApiKey) : Prop :=
  record.tenantId ∈ tenants ∧ record.name.length ≤ nameWidth ∧
    ∀ row ∈ table.rows, ¬ row.Clashes record

instance (table : KeyTable) (record : ApiKey) :
    Decidable (table.Admits tenants record) := by
  unfold Admits
  exact instDecidableAnd

theorem apart_append {table : KeyTable} {record : ApiKey}
    (h : table.Admits tenants record) :
    (table.rows ++ [record]).Pairwise
      (fun record other => ¬ record.Clashes other) := by
  rw [List.pairwise_append]
  refine ⟨table.apart, List.pairwise_singleton _ _, fun row hrow new hnew => ?_⟩
  rw [List.mem_singleton.mp hnew]
  exact h.2.2 row hrow

/-- `INSERT`. A name that its column does not hold is refused before a
constraint is looked at. -/
def insert (table : KeyTable) (record : ApiKey) : Except Exn KeyTable :=
  if h : table.Admits tenants record then
    .ok ⟨table.rows ++ [record], apart_append tenants h⟩
  else if nameWidth < record.name.length then .error (.other "DBAPIError")
  else .error (.other "IntegrityError")

/-- What an update of a tenant's record does to a row. -/
def updated (tenantId apiKeyId : UUID) (change : ApiKey → ApiKey)
    (row : ApiKey) : ApiKey :=
  if row.tenantId = tenantId ∧ row.id = apiKeyId then change row else row

/-- The change leaves alone what the constraints are about. -/
def Keeps (change : ApiKey → ApiKey) : Prop :=
  ∀ row, (change row).id = row.id ∧
    (change row).keyPrefix = row.keyPrefix ∧
    (change row).tenantId = row.tenantId ∧ (change row).name = row.name

theorem apart_update {change : ApiKey → ApiKey} (h : Keeps change)
    (tenantId apiKeyId : UUID) (table : KeyTable) :
    (table.rows.map (updated tenantId apiKeyId change)).Pairwise
      (fun record other => ¬ record.Clashes other) := by
  have hrow : ∀ row, (updated tenantId apiKeyId change row).id = row.id ∧
      (updated tenantId apiKeyId change row).keyPrefix = row.keyPrefix ∧
      (updated tenantId apiKeyId change row).tenantId = row.tenantId ∧
      (updated tenantId apiKeyId change row).name = row.name := by
    intro row
    unfold updated
    split
    · exact h row
    · exact ⟨rfl, rfl, rfl, rfl⟩
  rw [List.pairwise_map]
  refine table.apart.imp (fun {a b} hab hclash => hab ?_)
  obtain ⟨haid, hapre, hatenant, haname⟩ := hrow a
  obtain ⟨hbid, hbpre, hbtenant, hbname⟩ := hrow b
  unfold ApiKey.Clashes at hclash ⊢
  rw [haid, hapre, hatenant, haname, hbid, hbpre, hbtenant, hbname] at hclash
  exact hclash

/-- `UPDATE`, of the columns a change is about. -/
def update (table : KeyTable) (tenantId apiKeyId : UUID)
    (change : ApiKey → ApiKey) (h : Keeps change) : KeyTable :=
  ⟨table.rows.map (updated tenantId apiKeyId change),
    apart_update h tenantId apiKeyId table⟩

def get (table : KeyTable) (tenantId apiKeyId : UUID) : Option ApiKey :=
  table.rows.find? fun row =>
    decide (row.tenantId = tenantId) && decide (row.id = apiKeyId)

end KeyTable

-- ==================================================== the repository

def ApiKey.revoked (row : ApiKey) : ApiKey := { row with status := .revoked }

def ApiKey.usedAt (moment : Rat) (row : ApiKey) : ApiKey :=
  { row with lastUsedAt := some moment }

theorem keeps_revoked : KeyTable.Keeps ApiKey.revoked :=
  fun _ => ⟨rfl, rfl, rfl, rfl⟩

theorem keeps_usedAt (moment : Rat) : KeyTable.Keeps (ApiKey.usedAt moment) :=
  fun _ => ⟨rfl, rfl, rfl, rfl⟩

/-- A record beside its raw credential. -/
structure IssuedApiKey where
  record : ApiKey
  rawKey : Text
deriving DecidableEq

/-- What a caller asks of `create`, and the random choices it makes. -/
structure KeyRequest where
  tenantId : UUID
  name : Text
  scopes : List Text
  expiresAt : Option DateTime
  id : UUID
  random : KeyBytes
  createdAt : Rat

inductive KeyOp
  | create (request : KeyRequest)
  | revoke (tenantId apiKeyId : UUID)
  | touchLastUsed (tenantId apiKeyId : UUID) (moment : DateTime)

section Repository

variable (hashes : Hashes) (pepper : Text) (tenants : List UUID)

/-- The expiry of a request, where it has a time zone. -/
def KeyRequest.expiry (request : KeyRequest) : Except Exn (Option Rat) :=
  match request.expiresAt with
  | none => .ok none
  | some (.aware instant) => .ok (some instant)
  | some (.naive _) => .error (.value "expires_at must be timezone-aware")

/-- The record of a new key. -/
def KeyRequest.record (request : KeyRequest) (expiresAt : Option Rat) :
    ApiKey :=
  let generated := generateApiKey hashes pepper request.random
  { id := request.id, tenantId := request.tenantId, name := request.name
    keyPrefix := generated.keyPrefix, keyHash := generated.keyHash
    scopes := request.scopes, status := .active, expiresAt := expiresAt
    lastUsedAt := none, createdAt := request.createdAt }

/-- Mint and persist a key. -/
def create (table : KeyTable) (request : KeyRequest) :
    Except Exn (IssuedApiKey × KeyTable) := do
  let expiresAt ← request.expiry
  let record := request.record hashes pepper expiresAt
  let table ← table.insert tenants record
  return (⟨record, (generateApiKey hashes pepper request.random).rawKey⟩,
    table)

/-- Revoke a tenant's key; there is nothing to do where it has none. -/
def revoke (table : KeyTable) (tenantId apiKeyId : UUID) :
    Option ApiKey × KeyTable :=
  match table.get tenantId apiKeyId with
  | none => (none, table)
  | some record =>
      (some record.revoked,
        table.update tenantId apiKeyId ApiKey.revoked keeps_revoked)

def touchLastUsed (table : KeyTable) (tenantId apiKeyId : UUID)
    (moment : DateTime) : Except Exn KeyTable :=
  match moment with
  | .naive _ => .error (.value "last_used_at must be timezone-aware")
  | .aware instant =>
      match table.get tenantId apiKeyId with
      | none => .ok table
      | some _ =>
          .ok (table.update tenantId apiKeyId (ApiKey.usedAt instant)
            (keeps_usedAt instant))

/-- What `create` hands out at this step, if it is one and succeeds. -/
def issuedBy (table : KeyTable) : KeyOp → Option IssuedApiKey
  | .create request =>
      match create hashes pepper tenants table request with
      | .ok (issued, _) => some issued
      | .error _ => none
  | _ => none

/-- The table after one operation; one that raises leaves it as it is. -/
def step (table : KeyTable) : KeyOp → KeyTable
  | .create request =>
      match create hashes pepper tenants table request with
      | .ok (_, table) => table
      | .error _ => table
  | .revoke tenantId apiKeyId => (revoke table tenantId apiKeyId).2
  | .touchLastUsed tenantId apiKeyId moment =>
      match touchLastUsed table tenantId apiKeyId moment with
      | .ok table => table
      | .error _ => table

/-- The table after a run from the empty one. -/
def keyTable (ops : List KeyOp) : KeyTable :=
  ops.foldl (step hashes pepper tenants) .empty

end Repository

-- ==================================================== the lookup

/-- `scalar_one_or_none()`. -/
def scalarOneOrNone : List ApiKey → Except Exn (Option ApiKey)
  | [] => .ok none
  | [record] => .ok (some record)
  | _ => .error (.other "MultipleResultsFound")

/-- Resolve a raw credential to its record. -/
def authenticate (hashes : Hashes) (pepper : Text) (table : KeyTable)
    (rawKey : Text) (now : Rat) : Except Exn (Option ApiKey) := do
  let found ← scalarOneOrNone
    (table.rows.filter fun row => decide (row.keyPrefix = prefixOf rawKey))
  match found with
  | none => return none
  | some record =>
      if !verifyApiKey hashes pepper rawKey record.keyHash then return none
      else if !record.isUsable now then return none
      else return some record

end PrivacyGateway.Auth
