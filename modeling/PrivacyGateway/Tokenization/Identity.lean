/-
When two spans of text are the same value.

A value is normalized by the rule for its entity type and the normal form
is fingerprinted together with the tenant, the session and the type. Two
spans of one session share a token exactly when they share this
fingerprint. Neither step touches the value that is stored: the vault
keeps the span as it appeared.

The hash functions are parameters: `Hashes` is their byte-level
interface.
-/
import PrivacyGateway.Lib.Frame
import PrivacyGateway.Unicode

namespace PrivacyGateway

/-- The hash functions of the standard library that the gateway calls. -/
structure Hashes where
  /-- HMAC-SHA256 of a message under a key. -/
  hmacSha256 : Bytes → Bytes → Bytes
  sha256 : Bytes → Bytes
  /-- BLAKE2b with a 64-byte digest. -/
  blake2b : Bytes → Bytes
  hmacSha256_length : ∀ key message, (hmacSha256 key message).length = 32
  sha256_length : ∀ message, (sha256 message).length = 32
  blake2b_length : ∀ message, (blake2b message).length = 64

/-- Bytes cut or padded with zeros to a length. -/
def fitBytes (n : Nat) (bytes : Bytes) : Bytes :=
  (bytes ++ List.replicate n 0).take n

theorem length_fitBytes (n : Nat) (bytes : Bytes) :
    (fitBytes n bytes).length = n := by
  simp [fitBytes]

/-- Hash functions given by a table of known digests. -/
def Hashes.ofTables (hmac : Dict (Bytes × Bytes) Bytes)
    (sha : Dict Bytes Bytes) : Hashes where
  hmacSha256 key message :=
    fitBytes 32 ((hmac.get? (key, message)).getD [])
  sha256 message := fitBytes 32 ((sha.get? message).getD [])
  blake2b message := fitBytes 64 message
  hmacSha256_length _ _ := length_fitBytes 32 _
  sha256_length _ := length_fitBytes 32 _
  blake2b_length _ := length_fitBytes 64 _

/-- `digest.hexdigest()`: two lower-case digits for each byte. -/
def hexdigest (bytes : Bytes) : Text :=
  bytes.flatMap (fun b =>
    [UUID.hexDigit (b.toNat / 16), UUID.hexDigit (b.toNat % 16)])

end PrivacyGateway

namespace PrivacyGateway.Tokenization

-- ==================================================== normalization

section Normalization

variable (unicode : Unicode)

/-- Trim the ends and reduce every internal whitespace run to one
space. -/
def collapseWhitespace (value : Text) : Text :=
  [' '].intercalate (unicode.split value)

/-- Keep decimal digits only, converting non-ASCII decimals to ASCII. -/
def asciiDigits (value : Text) : Text :=
  (value.filter unicode.isDecimal).flatMap
    (fun char => Nat.toDigits 10 (unicode.decimal char))

/-- Keep letters and digits only, upper-cased. -/
def alphanumericUpper (value : Text) : Text :=
  unicode.upperText ((unicode.nfkc value).filter unicode.isAlnum)

def normalizeDefault (value : Text) : Text :=
  collapseWhitespace unicode (unicode.nfkc value)

def normalizeEmail (value : Text) : Text :=
  unicode.lower (collapseWhitespace unicode (unicode.nfkc value))

def normalizePhone (value : Text) : Text :=
  asciiDigits unicode (unicode.nfkc value)

def normalizePerson (value : Text) : Text :=
  collapseWhitespace unicode (unicode.nfkc value)

def normalizeNumericIdentifier (value : Text) : Text :=
  asciiDigits unicode (unicode.nfkc value)

def normalizeAlphanumericIdentifier (value : Text) : Text :=
  alphanumericUpper unicode value

def normalizeHostname (value : Text) : Text :=
  unicode.lower (collapseWhitespace unicode (unicode.nfkc value))

def normalizeCaseSensitive (value : Text) : Text :=
  unicode.strip (unicode.nfkc value)

/-- Entity type to normalizer. -/
def normalizers : Dict Text (Text → Text) :=
  [("EMAIL_ADDRESS".toList, normalizeEmail unicode),
    ("PHONE_NUMBER".toList, normalizePhone unicode),
    ("PERSON".toList, normalizePerson unicode),
    ("LOCATION".toList, normalizePerson unicode),
    ("ORGANIZATION".toList, normalizePerson unicode),
    ("NRP".toList, normalizePerson unicode),
    ("US_SSN".toList, normalizeNumericIdentifier unicode),
    ("US_ITIN".toList, normalizeNumericIdentifier unicode),
    ("US_BANK_NUMBER".toList, normalizeNumericIdentifier unicode),
    ("CREDIT_CARD".toList, normalizeNumericIdentifier unicode),
    ("UK_NHS".toList, normalizeNumericIdentifier unicode),
    ("IBAN_CODE".toList, normalizeAlphanumericIdentifier unicode),
    ("US_PASSPORT".toList, normalizeAlphanumericIdentifier unicode),
    ("US_DRIVER_LICENSE".toList, normalizeAlphanumericIdentifier unicode),
    ("MEDICAL_LICENSE".toList, normalizeAlphanumericIdentifier unicode),
    ("IP_ADDRESS".toList, normalizeHostname unicode),
    ("URL".toList, normalizeHostname unicode),
    ("DOMAIN_NAME".toList, normalizeHostname unicode),
    ("CRYPTO".toList, normalizeCaseSensitive unicode)]

def normalizerFor (entityType : Text) : Text → Text :=
  ((normalizers unicode).get? (unicode.upperText entityType)).getD
    (normalizeDefault unicode)

/-- The canonical form of a value, by the rule for its type. -/
def normalize (entityType value : Text) : Text :=
  normalizerFor unicode entityType value

end Normalization

-- ==================================================== fingerprints

def minKeyBytes : Nat := 16

/-- Computes keyed fingerprints. -/
structure Fingerprinter where
  key : Bytes
  key_length : minKeyBytes ≤ key.length

/-- The hex fingerprint for one normalized value in one session. -/
def Fingerprinter.fingerprint (fingerprinter : Fingerprinter)
    (hashes : Hashes) (tenantId sessionId : UUID)
    (entityType normalizedValue : Text) : Except Exn Text :=
  match Frame.frame 4 [tenantId.bytes, sessionId.bytes,
      encodeUtf8 entityType, encodeUtf8 normalizedValue] with
  | some message =>
      .ok (hexdigest (hashes.hmacSha256 fingerprinter.key message))
  | none => .error (.other "OverflowError")

end PrivacyGateway.Tokenization
