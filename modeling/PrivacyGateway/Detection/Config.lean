/-
Detector configuration: entity types, tuning tables, value validators and
the per-deployment configuration object.

`DetectionConfig` carries the constructor's own checks as fields.
`DetectionConfig.create` is the constructor: it refuses what the checks
refuse and normalizes the allowlist once, so every later comparison is
membership.
-/
import PrivacyGateway.Unicode

namespace PrivacyGateway.Detection

-- ==================================================== entity types

def personType : Text := "PERSON".toList
def emailAddressType : Text := "EMAIL_ADDRESS".toList
def phoneNumberType : Text := "PHONE_NUMBER".toList
def usSsnType : Text := "US_SSN".toList
def creditCardType : Text := "CREDIT_CARD".toList
def ipAddressType : Text := "IP_ADDRESS".toList
def locationType : Text := "LOCATION".toList
def dateTimeType : Text := "DATE_TIME".toList
def usDriverLicenseType : Text := "US_DRIVER_LICENSE".toList
def usPassportType : Text := "US_PASSPORT".toList
def medicalRecordNumberType : Text := "MEDICAL_RECORD_NUMBER".toList
def healthPlanIdType : Text := "HEALTH_PLAN_ID".toList
def accountNumberType : Text := "ACCOUNT_NUMBER".toList
def apiKeyType : Text := "API_KEY".toList
def accessTokenType : Text := "ACCESS_TOKEN".toList
def customIdentifierType : Text := "CUSTOM_IDENTIFIER".toList

def supportedEntityTypes : List Text :=
  [personType, emailAddressType, phoneNumberType, usSsnType,
    creditCardType, ipAddressType, locationType, dateTimeType,
    usDriverLicenseType, usPassportType, medicalRecordNumberType,
    healthPlanIdType, accountNumberType, apiKeyType, accessTokenType,
    customIdentifierType]

/-- The global floor. -/
def defaultMinScore : Rat := 35 / 100

def defaultEntityThresholds : Dict Text Rat :=
  [(emailAddressType, 1 / 2), (creditCardType, 1 / 2),
    (usSsnType, 1 / 2), (ipAddressType, 1 / 2), (apiKeyType, 1 / 2),
    (accessTokenType, 1 / 2), (medicalRecordNumberType, 1 / 2),
    (healthPlanIdType, 1 / 2), (accountNumberType, 1 / 2),
    (customIdentifierType, 1 / 2),
    (phoneNumberType, 2 / 5), (usDriverLicenseType, 2 / 5),
    (usPassportType, 2 / 5),
    (personType, 3 / 5), (locationType, 3 / 5), (dateTimeType, 3 / 5)]

def severityCritical : Int := 40
def severityHigh : Int := 30
def severityMedium : Int := 20
def severityLow : Int := 10

def entityPriority : Dict Text Int :=
  [(apiKeyType, severityCritical), (accessTokenType, severityCritical),
    (usSsnType, severityHigh), (creditCardType, severityHigh),
    (usPassportType, severityHigh), (usDriverLicenseType, severityHigh),
    (medicalRecordNumberType, severityHigh),
    (healthPlanIdType, severityHigh), (accountNumberType, severityHigh),
    (emailAddressType, severityMedium), (phoneNumberType, severityMedium),
    (ipAddressType, severityMedium),
    (customIdentifierType, severityMedium),
    (personType, severityLow), (locationType, severityLow),
    (dateTimeType, severityLow)]

-- ==================================================== checksums

def minCardDigits : Nat := 13
def maxCardDigits : Nat := 19

section Checksums

variable (unicode : Unicode)

def digitsOnly (value : Text) : Text :=
  value.filter unicode.isDigit

/-- One digit's share of the Luhn sum, at its position from the right. -/
def luhnTerm (char : Char) (position : Nat) : Int :=
  let digit : Int := char.toNat - '0'.toNat
  if position % 2 = 1 then
    if digit * 2 > 9 then digit * 2 - 9 else digit * 2
  else digit

def luhnIsValid (value : Text) : Bool :=
  let digits := digitsOnly unicode value
  if digits.length < 2 then false
  else
    (digits.reverse.zipIdx.map (fun x => luhnTerm x.1 x.2)).sum % 10 == 0

/-- A plausible card number: right length and Luhn-clean. -/
def isValidCreditCard (value : Text) : Bool :=
  let digits := digitsOnly unicode value
  if minCardDigits ≤ digits.length ∧ digits.length ≤ maxCardDigits then
    luhnIsValid unicode digits
  else false

/-- The per-type value validators: only cards have one. -/
def valueValidator (entityType : Text) : Option (Text → Bool) :=
  if entityType = creditCardType then some (isValidCreditCard unicode)
  else none

end Checksums

-- ==================================================== configuration

/-- The comparison form of an allowlist entry or a matched span. -/
def normalizeAllowlistValue (unicode : Unicode) (value : Text) : Text :=
  unicode.casefoldText (unicode.strip value)

def defaultMaxEntities : Nat := 500

/-- Immutable detector tuning. -/
structure DetectionConfig where
  enabledEntities : List Text := supportedEntityTypes
  entityThresholds : Dict Text Rat := defaultEntityThresholds
  entityPriority : Dict Text Int := entityPriority
  minScore : Rat := defaultMinScore
  allowlist : List Text := []
  maxEntities : Nat := defaultMaxEntities
  minScore_bounded : 0 ≤ minScore ∧ minScore ≤ 1
  maxEntities_pos : 1 ≤ maxEntities

namespace DetectionConfig

/-- `DetectionConfig()`: every default. -/
def default : DetectionConfig where
  minScore_bounded := by decide +kernel
  maxEntities_pos := by decide

/-- The constructor: check the bounds and normalize the allowlist. -/
def create (unicode : Unicode) (enabledEntities : List Text)
    (entityThresholds : Dict Text Rat) (entityPriority : Dict Text Int)
    (minScore : Rat) (allowlist : List Text) (maxEntities : Nat) :
    Except Exn DetectionConfig :=
  if hscore : 0 ≤ minScore ∧ minScore ≤ 1 then
    if hmax : 1 ≤ maxEntities then
      .ok
        { enabledEntities := enabledEntities
          entityThresholds := entityThresholds
          entityPriority := entityPriority
          minScore := minScore
          allowlist := (allowlist.map
            (normalizeAllowlistValue unicode)).filter (fun v => v ≠ [])
          maxEntities := maxEntities
          minScore_bounded := hscore
          maxEntities_pos := hmax }
    else .error (.value "max_entities must be at least 1")
  else .error (.value "min_score must be within [0.0, 1.0]")

variable (config : DetectionConfig)

/-- The effective minimum score: the per-type value or the floor. -/
def thresholdFor (entityType : Text) : Rat :=
  max config.minScore
    ((config.entityThresholds.get? entityType).getD config.minScore)

/-- The value must never be reported as an entity. -/
def isAllowlisted (unicode : Unicode) (value : Text) : Bool :=
  if config.allowlist = [] then false
  else config.allowlist.contains (normalizeAllowlistValue unicode value)

/-- No threshold is below zero: the floor is not. -/
theorem thresholdFor_nonneg (entityType : Text) :
    0 ≤ config.thresholdFor entityType :=
  le_trans config.minScore_bounded.1 (le_max_left _ _)

end DetectionConfig

end PrivacyGateway.Detection
