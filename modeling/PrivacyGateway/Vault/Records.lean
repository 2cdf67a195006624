/-
The plaintext payload that goes inside an envelope.

The JSON text of a record is a parameter: `RecordCodec` is the encoder and
the decoder, with the one law that decoding gives back what was encoded.
The schema check is the record's own.
-/
import PrivacyGateway.Vault.Crypto

namespace PrivacyGateway.Vault

def recordSchemaVersion : Int := 1

/-- One token-to-original mapping, before encryption or after
decryption. -/
structure VaultRecord where
  tenantId : UUID
  sessionId : UUID
  token : Text
  entityType : Text
  originalValue : Text
  schemaVersion : Int := recordSchemaVersion
deriving DecidableEq

/-- How a record is written as JSON and read back. -/
structure RecordCodec where
  dumps : VaultRecord → Bytes
  loads : Bytes → Option VaultRecord
  loads_dumps : ∀ record, loads (dumps record) = some record

namespace VaultRecord

/-- Serialize for encryption. -/
def toBytes (codec : RecordCodec) (record : VaultRecord) : Bytes :=
  codec.dumps record

/-- Parse decrypted plaintext. -/
def fromBytes (codec : RecordCodec) (raw : Bytes) :
    Except Exn VaultRecord :=
  match codec.loads raw with
  | none => .error (vaultEncryptionError "record_fields_invalid")
  | some record =>
      if record.schemaVersion ≠ recordSchemaVersion then
        .error (gatewayError .vaultEncryptionFailed
          (reason "record_schema_unsupported" ++
            [("schema_version", .int record.schemaVersion)]))
      else .ok record

/-- A record of this version is read back as it was written. -/
theorem fromBytes_toBytes (codec : RecordCodec) {record : VaultRecord}
    (h : record.schemaVersion = recordSchemaVersion) :
    fromBytes codec (record.toBytes codec) = .ok record := by
  unfold fromBytes toBytes
  rw [codec.loads_dumps]
  exact if_neg (not_not.mpr h)

end VaultRecord

end PrivacyGateway.Vault
