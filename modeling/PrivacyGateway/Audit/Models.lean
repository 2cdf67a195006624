/-
The audit event.

`AuditFields` is what a caller hands to the constructor, and
`AuditFields.check` is the constructor's own walk over it, in order.
An `AuditRecord` is fields that passed, so a record the source refuses to
construct does not exist here either. `Valid` says what passing means, one
field of the proof for each check, and `check_ok_iff` that it is that.
-/
import PrivacyGateway.Audit.Correlation
import PrivacyGateway.Errors

namespace PrivacyGateway.Audit

def maxKeyChars : Nat := 64
def maxProviderAliasChars : Nat := 64
def maxModelAliasChars : Nat := 128
def maxCodeChars : Nat := 64
def maxDigestChars : Nat := 128
def minDigestChars : Nat := 32
def minStatusCode : Int := 100
def maxStatusCode : Int := 599

/-- A point in time, and whether it names its time zone. -/
structure Moment where
  instant : Rat
  aware : Bool
deriving DecidableEq

/-- What a record is constructed from. -/
structure AuditFields where
  tenantId : UUID
  requestId : UUID
  statusCode : Int
  occurredAt : Option Moment := none
  apiKeyId : Option UUID := none
  sessionIdHash : Option Text := none
  policyId : Option UUID := none
  policyVersion : Option Int := none
  providerAlias : Option Text := none
  modelAlias : Option Text := none
  inputCharacterCount : Int := 0
  outputCharacterCount : Int := 0
  entityCounts : Dict Text Int := []
  actions : Dict Text Int := []
  blocked : Bool := false
  blockReasonCode : Option Text := none
  providerLatencyMs : Option Int := none
  pipelineLatencyMs : Option Int := none
  errorCode : Option Text := none
  promptHmac : Option Text := none
  responseHmac : Option Text := none
  outboundHmac : Option Text := none
  outboundScan : Option Text := none
deriving DecidableEq

-- ==================================================== the checks

/-- The error of a failed check. -/
def invalid (message : String) : Except Exn Unit :=
  .error (.value message)

def requireStatus (statusCode : Int) : Except Exn Unit :=
  if minStatusCode ≤ statusCode ∧ statusCode ≤ maxStatusCode then .ok ()
  else invalid "status_code must be a valid HTTP status"

def requireAware (occurredAt : Moment) : Except Exn Unit :=
  if occurredAt.aware = true then .ok ()
  else invalid "occurred_at must be timezone-aware"

def requireNonNegative (value : Int) (name : String) : Except Exn Unit :=
  if value < 0 then invalid s!"{name} must not be negative" else .ok ()

/-- The check of a field that may be absent. -/
def ifPresent {α : Type} (check : α → Except Exn Unit) :
    Option α → Except Exn Unit
  | none => .ok ()
  | some value => check value

def requireCode (value : Text) (name : String) (maximum : Nat) :
    Except Exn Unit :=
  if value.length > maximum ∨ matchesCode value = false then
    invalid s!"{name} must be a short identifier-shaped code"
  else .ok ()

/-- The length is in bounds and every character is a hexadecimal digit. -/
def isDigestText (maximum : Nat) (value : Text) : Bool :=
  decide (minDigestChars ≤ value.length) &&
    decide (value.length ≤ maximum) && value.all isHexChar

def requireDigest (value : Text) (name : String) (maximum : Nat) :
    Except Exn Unit :=
  if isDigestText maximum value = false then
    invalid s!"{name} must be lowercase hexadecimal digest output"
  else .ok ()

/-- `[A-Za-z0-9_]{1,64}`, matched from end to end. -/
def matchesCountKey (key : Text) : Bool :=
  decide (1 ≤ key.length) && decide (key.length ≤ 64) &&
    key.all (fun c => c.isAlphanum || c == '_')

def validatedCounts (kind : String) : Dict Text Int → Except Exn Unit
  | [] => .ok ()
  | entry :: counts =>
      if matchesCountKey entry.1 = false then
        invalid s!"{kind} count keys must be short identifier-shaped names"
      else if entry.2 < 0 then
        invalid s!"{kind} counts must be non-negative integers"
      else validatedCounts kind counts

def AuditFields.check (fields : AuditFields) : Except Exn Unit := do
  requireStatus fields.statusCode
  ifPresent requireAware fields.occurredAt
  requireNonNegative fields.inputCharacterCount "input_character_count"
  requireNonNegative fields.outputCharacterCount "output_character_count"
  ifPresent (requireNonNegative · "policy_version") fields.policyVersion
  ifPresent (requireNonNegative · "provider_latency_ms")
    fields.providerLatencyMs
  ifPresent (requireNonNegative · "pipeline_latency_ms")
    fields.pipelineLatencyMs
  ifPresent (requireCode · "provider_alias" maxProviderAliasChars)
    fields.providerAlias
  ifPresent (requireCode · "model_alias" maxModelAliasChars)
    fields.modelAlias
  ifPresent (requireCode · "block_reason_code" maxCodeChars)
    fields.blockReasonCode
  ifPresent (requireCode · "error_code" maxCodeChars) fields.errorCode
  ifPresent (requireDigest · "session_id_hash" maxKeyChars)
    fields.sessionIdHash
  ifPresent (requireDigest · "prompt_hmac" maxDigestChars)
    fields.promptHmac
  ifPresent (requireDigest · "response_hmac" maxDigestChars)
    fields.responseHmac
  ifPresent (requireDigest · "outbound_hmac" maxDigestChars)
    fields.outboundHmac
  ifPresent (requireCode · "outbound_scan" maxCodeChars)
    fields.outboundScan
  validatedCounts "entity" fields.entityCounts
  validatedCounts "action" fields.actions

/-- A privacy-safe description of one completed request. -/
structure AuditRecord where
  fields : AuditFields
  checked : fields.check = .ok ()
deriving DecidableEq

/-- The constructor. -/
def AuditRecord.create (fields : AuditFields) : Except Exn AuditRecord :=
  match h : fields.check with
  | .ok () => .ok ⟨fields, h⟩
  | .error e => .error e

/-- A summary as the two count maps: the entity types, and the actions. -/
def countsFromSummary (summary : PrivacySummary) :
    Dict Text Int × Dict Text Int :=
  (summary.entityTypes.map (fun entry => (entry.1, (entry.2 : Int))),
    [("detected".toList, summary.detected),
      ("tokenized".toList, summary.tokenized),
      ("redacted".toList, summary.redacted),
      ("pseudonymized".toList, summary.pseudonymized),
      ("blocked".toList, summary.blocked),
      ("allowed".toList, summary.allowed),
      ("restored".toList, summary.restored),
      ("unknown_tokens".toList, summary.unknownTokens)])

-- ==================================================== what passes

/-- A present value has the property. -/
def Present {α : Type} (P : α → Prop) (value : Option α) : Prop :=
  ∀ a ∈ value, P a

/-- Names and counts that an audit column may hold. -/
def CountsValid (counts : Dict Text Int) : Prop :=
  ∀ entry ∈ counts, matchesCountKey entry.1 = true ∧ 0 ≤ entry.2

/-- The fields pass the record's own validation. -/
structure AuditFields.Valid (fields : AuditFields) : Prop where
  status : minStatusCode ≤ fields.statusCode ∧
    fields.statusCode ≤ maxStatusCode
  occurred : Present (fun moment => moment.aware = true) fields.occurredAt
  input : 0 ≤ fields.inputCharacterCount
  output : 0 ≤ fields.outputCharacterCount
  version : Present (0 ≤ ·) fields.policyVersion
  providerLatency : Present (0 ≤ ·) fields.providerLatencyMs
  pipelineLatency : Present (0 ≤ ·) fields.pipelineLatencyMs
  provider : Present (fun value => matchesCode value = true)
    fields.providerAlias
  model : Present (fun value => matchesCode value = true) fields.modelAlias
  blockReason : Present (fun value => matchesCode value = true)
    fields.blockReasonCode
  error : Present (fun value => matchesCode value = true) fields.errorCode
  session : Present (fun value => isDigestText maxKeyChars value = true)
    fields.sessionIdHash
  prompt : Present (fun value => isDigestText maxDigestChars value = true)
    fields.promptHmac
  response : Present
    (fun value => isDigestText maxDigestChars value = true)
    fields.responseHmac
  outbound : Present
    (fun value => isDigestText maxDigestChars value = true)
    fields.outboundHmac
  scan : Present (fun value => matchesCode value = true)
    fields.outboundScan
  entities : CountsValid fields.entityCounts
  acted : CountsValid fields.actions

theorem length_le_of_matchesCode {value : Text}
    (h : matchesCode value = true) : value.length ≤ 64 := by
  unfold matchesCode at h
  simp only [Bool.and_eq_true, decide_eq_true_eq] at h
  exact h.1.2

theorem requireStatus_ok_iff {statusCode : Int} :
    requireStatus statusCode = .ok () ↔
      minStatusCode ≤ statusCode ∧ statusCode ≤ maxStatusCode := by
  unfold requireStatus invalid
  split <;> simp [*]

theorem requireAware_ok_iff {occurredAt : Moment} :
    requireAware occurredAt = .ok () ↔ occurredAt.aware = true := by
  unfold requireAware invalid
  split <;> simp [*]

theorem requireNonNegative_ok_iff {value : Int} {name : String} :
    requireNonNegative value name = .ok () ↔ 0 ≤ value := by
  unfold requireNonNegative invalid
  split <;> simp <;> omega

theorem ifPresent_ok_iff {α : Type} (check : α → Except Exn Unit)
    {P : α → Prop} (hcheck : ∀ a, check a = .ok () ↔ P a)
    (value : Option α) : ifPresent check value = .ok () ↔ Present P value := by
  cases value with
  | none => simp [ifPresent, Present]
  | some a => simp [ifPresent, Present, hcheck a]

/-- Every length limit but the pattern's own is slack: the pattern stops
at 64 characters. -/
theorem requireCode_ok_iff {value : Text} {name : String} {maximum : Nat}
    (hmaximum : 64 ≤ maximum) :
    requireCode value name maximum = .ok () ↔ matchesCode value = true := by
  unfold requireCode invalid
  by_cases hcode : matchesCode value = true
  · have hlength := length_le_of_matchesCode hcode
    rw [if_neg (by simp [hcode]; omega)]
    simp [hcode]
  · simp [hcode]

theorem requireDigest_ok_iff {value : Text} {name : String}
    {maximum : Nat} :
    requireDigest value name maximum = .ok () ↔
      isDigestText maximum value = true := by
  unfold requireDigest invalid
  cases isDigestText maximum value <;> simp

theorem validatedCounts_ok_iff {kind : String} (counts : Dict Text Int) :
    validatedCounts kind counts = .ok () ↔ CountsValid counts := by
  induction counts with
  | nil => simp [validatedCounts, CountsValid]
  | cons entry counts ih =>
      unfold validatedCounts invalid CountsValid
      rw [List.forall_mem_cons]
      by_cases hkey : matchesCountKey entry.1 = true
      · by_cases hneg : entry.2 < 0
        · simp [hkey, hneg]
        · simp only [hkey, hneg, Bool.true_eq_false, if_false, ih, true_and]
          rw [CountsValid]
          simp [not_lt.mp hneg]
      · simp [hkey]

/-- A check before the rest: both pass. -/
theorem check_seq_ok_iff {first rest : Except Exn Unit} :
    (first >>= fun _ => rest) = .ok () ↔
      first = .ok () ∧ rest = .ok () := by
  cases first with
  | error e => simp [bind, Except.bind]
  | ok u => simp [bind, Except.bind]

/-- The constructor accepts exactly the valid fields. -/
theorem AuditFields.check_ok_iff {fields : AuditFields} :
    fields.check = .ok () ↔ fields.Valid := by
  have hnonneg := fun (name : String) => ifPresent_ok_iff
    (requireNonNegative · name)
    (fun _ => requireNonNegative_ok_iff)
  have hcode := fun (name : String) (maximum : Nat) (h : 64 ≤ maximum) =>
    ifPresent_ok_iff (requireCode · name maximum)
      (fun _ => requireCode_ok_iff h)
  have hdigest := fun (name : String) (maximum : Nat) => ifPresent_ok_iff
    (requireDigest · name maximum)
    (fun _ => requireDigest_ok_iff)
  unfold check
  simp only [check_seq_ok_iff, requireStatus_ok_iff,
    ifPresent_ok_iff _ (fun _ => requireAware_ok_iff),
    requireNonNegative_ok_iff, hnonneg, hdigest, validatedCounts_ok_iff,
    hcode _ maxProviderAliasChars (by decide),
    hcode _ maxModelAliasChars (by decide),
    hcode _ maxCodeChars (by decide)]
  constructor
  · intro ⟨h1, h2, h3, h4, h5, h6, h7, h8, h9, h10, h11, h12, h13, h14, h15,
      h16, h17, h18⟩
    exact ⟨h1, h2, h3, h4, h5, h6, h7, h8, h9, h10, h11, h12, h13, h14, h15,
      h16, h17, h18⟩
  · intro h
    exact ⟨h.status, h.occurred, h.input, h.output, h.version,
      h.providerLatency, h.pipelineLatency, h.provider, h.model,
      h.blockReason, h.error, h.session, h.prompt, h.response, h.outbound,
      h.scan, h.entities, h.acted⟩

theorem AuditRecord.valid (record : AuditRecord) : record.fields.Valid :=
  AuditFields.check_ok_iff.mp record.checked

/-- What the constructor returns holds what it was given. -/
theorem AuditRecord.create_ok {fields : AuditFields} {record : AuditRecord}
    (h : AuditRecord.create fields = .ok record) :
    record.fields = fields := by
  unfold create at h
  split at h
  · cases h
    rfl
  · cases h

theorem AuditRecord.create_of_valid {fields : AuditFields}
    (h : fields.Valid) :
    ∃ record, AuditRecord.create fields = .ok record ∧
      record.fields = fields := by
  have hcheck := AuditFields.check_ok_iff.mpr h
  unfold create
  split
  · exact ⟨_, rfl, rfl⟩
  · rename_i e herror
    rw [hcheck] at herror
    cases herror

/-- Digest output fits every digest column. -/
theorem Digest.isDigestText (digest : Digest) {maximum : Nat}
    (hmaximum : 64 ≤ maximum) : isDigestText maximum digest.text = true := by
  unfold Audit.isDigestText
  simp only [Bool.and_eq_true, decide_eq_true_eq, List.all_eq_true,
    digest.length_text]
  exact ⟨⟨by decide, hmaximum⟩, digest.hex_text⟩

theorem present_none {α : Type} {P : α → Prop} : Present P none := by
  intro a ha
  cases ha

theorem present_some {α : Type} {P : α → Prop} {a : α} :
    Present P (some a) ↔ P a := by
  simp [Present]

end PrivacyGateway.Audit
