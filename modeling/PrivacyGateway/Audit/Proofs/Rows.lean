/-
What the audit row of a request writes in the journal, and when it can be
constructed.

`rowEvents` is both: a row that passes the record's validation is built and
submitted, one that does not is built and goes no further. This holds
whatever the queue answers.

Of a row the chat pipeline builds, everything but the two aliases is in the
gateway's own hands, and passes: `payload_valid_iff`.
-/
import PrivacyGateway.Pipeline.Reporting
import PrivacyGateway.Tokenization.Proofs.Counts

namespace PrivacyGateway.Audit

open Effect Ledger

variable {unicode : Unicode} {σ : Type} {l l' : Task σ}

/-- The acts of constructing a record and handing it over. -/
def rowEvents (fields : AuditFields) : List Event :=
  .built fields ::
    match AuditRecord.create fields with
    | .ok record => [.submitted record]
    | .error _ => []

theorem rowEvents_of_valid {fields : AuditFields} (h : fields.Valid) :
    ∃ record, record.fields = fields ∧
      rowEvents fields = [.built fields, .submitted record] := by
  obtain ⟨record, hcreate, hfields⟩ := AuditRecord.create_of_valid h
  refine ⟨record, hfields, ?_⟩
  unfold rowEvents
  rw [hcreate]

theorem rowEvents_of_invalid {fields : AuditFields} (h : ¬ fields.Valid) :
    rowEvents fields = [.built fields] := by
  unfold rowEvents
  cases hcreate : AuditRecord.create fields with
  | ok record =>
      have hvalid := record.valid
      rw [AuditRecord.create_ok hcreate] at hvalid
      exact absurd hvalid h
  | error e => rfl

theorem mem_rowEvents {fields : AuditFields} {event : Event} :
    event ∈ rowEvents fields ↔ event = .built fields ∨
      ∃ record, record.fields = fields ∧ event = .submitted record := by
  by_cases hvalid : fields.Valid
  · obtain ⟨record, hfields, hrow⟩ := rowEvents_of_valid hvalid
    rw [hrow, List.mem_cons, List.mem_singleton]
    constructor
    · intro h
      rcases h with h | h
      · exact Or.inl h
      · exact Or.inr ⟨record, hfields, h⟩
    · intro h
      rcases h with h | ⟨other, hother, h⟩
      · exact Or.inl h
      · right
        rw [h]
        cases record
        cases other
        cases hfields
        cases hother
        rfl
  · rw [rowEvents_of_invalid hvalid, List.mem_singleton]
    constructor
    · exact Or.inl
    · intro h
      rcases h with h | ⟨record, hfields, -⟩
      · exact h
      · exact absurd (hfields ▸ record.valid) hvalid

theorem silent_utcNow (service : AuditService σ) :
    Silent (utcNow service) :=
  silent_onWorld _

/-- Handing over writes the record first, whatever the queue answers. -/
theorem submit_after {service : AuditService σ} {record : AuditRecord}
    {r : Except Exn Unit}
    (h : runIn (submit service record) l = (r, l')) :
    After l [.submitted record] l' := by
  unfold submit at h
  obtain ⟨m, hnote, h⟩ := note_bind_cases h
  refine hnote.quiet (Silent.quiet ?_ h)
  exact silent_bind (silent_utcNow service) (fun now =>
    silent_bind (silent_checked _) (fun stamped => silent_alter _))

theorem submitFields_after {service : AuditService σ}
    {fields : AuditFields} {r : Except Exn Unit}
    (h : runIn (submitFields service fields) l = (r, l')) :
    After l (rowEvents fields) l' ∧ (r = .ok () → fields.Valid) := by
  unfold submitFields at h
  obtain ⟨m, hnote, h⟩ := note_bind_cases h
  unfold rowEvents
  cases hcreate : AuditRecord.create fields with
  | error e =>
      rw [hcreate, checked_bind_error] at h
      cases h
      exact ⟨hnote, fun hr => nomatch hr⟩
  | ok record =>
      rw [hcreate, checked_bind_ok] at h
      refine ⟨hnote.trans (submit_after h), fun _ => ?_⟩
      have hvalid := record.valid
      rwa [AuditRecord.create_ok hcreate] at hvalid

/-- The adapter's row carries the digest of the session. -/
theorem record_after {adapter : PipelineAuditAdapter σ}
    {payload : AuditFields} {sessionId : UUID} {r : Except Exn Unit}
    (h : runIn (adapter.record payload sessionId) l = (r, l')) :
    ∃ digest : Digest,
      After l (rowEvents { payload with
        sessionIdHash := some digest.text }) l' ∧
      (r = .ok () → ({ payload with
        sessionIdHash := some digest.text } : AuditFields).Valid) := by
  unfold PipelineAuditAdapter.record at h
  obtain ⟨digest, hdigest⟩ := adapter.hasher.sessionDigest_isOk
    adapter.hashes payload.tenantId sessionId
  rw [hdigest, checked_bind_ok] at h
  exact ⟨digest, submitFields_after h⟩

-- ==================================================== valid columns

/-- Both aliases are codes. -/
def AliasesAreCodes (provider model : Text) : Prop :=
  matchesCode provider = true ∧ matchesCode model = true

/-- The summary counts types the detector emits. -/
abbrev TypesSupported (summary : PrivacySummary) : Prop :=
  summary.Counts (· ∈ Detection.supportedEntityTypes)

theorem matchesCountKey_supported :
    ∀ name ∈ Detection.supportedEntityTypes,
      matchesCountKey name = true := by
  decide

theorem entityCounts_valid {summary : PrivacySummary}
    (h : TypesSupported summary) :
    CountsValid (summary.entityTypes.map
      (fun entry => (entry.1, (entry.2 : Int)))) := by
  intro entry hentry
  obtain ⟨e, he, rfl⟩ := List.mem_map.mp hentry
  exact ⟨matchesCountKey_supported _
    (h e.1 (List.mem_map.mpr ⟨e, he, rfl⟩)), Int.natCast_nonneg _⟩

/-- Entries of natural numbers under fixed names. -/
theorem countsValid_of_names (counts : List (Text × Nat))
    (h : ∀ entry ∈ counts, matchesCountKey entry.1 = true) :
    CountsValid (counts.map (fun entry => (entry.1, (entry.2 : Int)))) := by
  intro entry hentry
  obtain ⟨e, he, rfl⟩ := List.mem_map.mp hentry
  exact ⟨h e he, Int.natCast_nonneg _⟩

theorem matchesCode_verdict (attestation : Outbound.Attestation) :
    matchesCode attestation.verdict = true := by
  unfold Outbound.Attestation.verdict
  cases attestation.scan.verdict <;> decide

theorem present_map_digest {digest : Option Digest} {maximum : Nat}
    (hmaximum : 64 ≤ maximum) :
    Present (fun value => isDigestText maximum value = true)
      (digest.map Digest.text) := by
  intro value hvalue
  obtain ⟨d, -, rfl⟩ := Option.map_eq_some_iff.mp hvalue
  exact d.isDigestText hmaximum

end PrivacyGateway.Audit

namespace PrivacyGateway.Pipeline

open Audit Effect Ledger

variable {unicode : Unicode} {σ : Type} {services : Services unicode σ}
  {l l' : Task σ}

/-- The fields of the row of a chat request. -/
def rowFields (attempt : PipelineAttempt)
    (snapshot : Option PolicySnapshot) (outcome : RequestOutcome)
    (sessionDigest : Digest) : AuditFields :=
  { auditPayload attempt snapshot outcome with
    sessionIdHash := some sessionDigest.text }

/-- The row is written whatever the policy for audit failures is; when
that is to fail closed, a request that goes on has a valid row. -/
theorem recordOutcome_after {attempt : PipelineAttempt}
    {snapshot : Option PolicySnapshot} {outcome : RequestOutcome}
    {failClosed : Bool} {r : Except Exn Unit}
    (h : runIn (recordOutcome services attempt snapshot outcome failClosed)
      l = (r, l')) :
    ∃ digest, After l (rowEvents (rowFields attempt snapshot outcome digest))
        l' ∧
      (failClosed = true → r = .ok () →
        (rowFields attempt snapshot outcome digest).Valid) := by
  unfold recordOutcome at h
  cases hrun : runIn (runStage .audit auditFailure
      (services.auditAdapter.record (auditPayload attempt snapshot outcome)
        attempt.sessionId)) l with
  | mk r' m =>
      cases r' with
      | ok u =>
          rw [recover_of_ok hrun] at h
          cases h
          obtain ⟨digest, hafter, hvalid⟩ :=
            record_after (translate_ok_iff.mp hrun)
          exact ⟨digest, hafter, fun _ _ => hvalid rfl⟩
      | error e =>
          rw [recover_of_error hrun] at h
          obtain ⟨error, rfl⟩ := runStage_raises _ _ _ l e m hrun
          obtain ⟨e', hraised, -⟩ := translate_error_iff.mp hrun
          obtain ⟨digest, hafter, -⟩ := record_after hraised
          unfold auditRefused at h
          refine ⟨digest, ?_, ?_⟩
          · cases failClosed
            · cases h
              exact hafter
            · cases h
              exact hafter
          · intro hclosed hr
            rw [hclosed, hr] at h
            cases h

-- ==================================================== valid rows

theorem actionCounts_valid (summary : PrivacySummary) :
    CountsValid (actionCounts summary) := by
  refine countsValid_of_names
    [("detected".toList, summary.detected),
      ("tokenized".toList, summary.tokenized),
      ("redacted".toList, summary.redacted),
      ("pseudonymized".toList, summary.pseudonymized),
      ("allowed".toList, summary.allowed),
      ("blocked".toList, summary.blocked),
      ("restored".toList, summary.restored),
      ("unknown_tokens".toList, summary.unknownTokens)] ?_
  simp only [List.forall_mem_cons]
  decide

/-- What the gateway itself puts into an outcome passes the record's
validation. -/
structure RequestOutcome.Sound (outcome : RequestOutcome) : Prop where
  status : minStatusCode ≤ outcome.statusCode ∧
    outcome.statusCode ≤ maxStatusCode
  types : TypesSupported outcome.summary
  input : 0 ≤ outcome.inputCharacterCount
  output : 0 ≤ outcome.outputCharacterCount
  providerLatency : Present (0 ≤ ·) outcome.providerLatencyMs
  pipelineLatency : Present (0 ≤ ·) outcome.pipelineLatencyMs
  error : Present (fun value => matchesCode value = true) outcome.errorCode
  scan : Present (fun value => matchesCode value = true)
    outcome.outboundScan

theorem PipelineAttempt.elapsedMs_nonneg (attempt : PipelineAttempt)
    (now : Rat) : 0 ≤ attempt.elapsedMs now :=
  le_max_right _ _

theorem failureOutcome_sound (error : GatewayError) {elapsedMs : Int}
    (helapsed : 0 ≤ elapsedMs) : (failureOutcome error elapsedMs).Sound where
  status := by
    have hcode := catalog_well_formed error.code
    show (100 : Int) ≤ (error.code.status : Int) ∧
      (error.code.status : Int) ≤ 599
    omega
  types := fun _ h => nomatch h
  input := le_refl _
  output := le_refl _
  providerLatency := present_none
  pipelineLatency := present_some.mpr helapsed
  error := present_some.mpr (catalog_well_formed error.code).1
  scan := present_none

/-- A row of the chat pipeline is valid exactly when both aliases are
codes. -/
theorem rowFields_valid_iff {attempt : PipelineAttempt}
    {snapshot : Option PolicySnapshot} {outcome : RequestOutcome}
    (digest : Digest) (hsound : outcome.Sound)
    (haware : attempt.startedAt.aware = true)
    (hversion : ∀ s ∈ snapshot, 0 < s.version) :
    (rowFields attempt snapshot outcome digest).Valid ↔
      matchesCode attempt.providerAlias = true ∧
        matchesCode attempt.modelAlias = true := by
  constructor
  · intro h
    exact ⟨h.provider _ rfl, h.model _ rfl⟩
  · intro h
    exact
      { status := hsound.status
        occurred := present_some.mpr haware
        input := hsound.input
        output := hsound.output
        version := by
          intro version hmem
          obtain ⟨s, hs, rfl⟩ := Option.map_eq_some_iff.mp hmem
          exact le_of_lt (hversion s hs)
        providerLatency := hsound.providerLatency
        pipelineLatency := hsound.pipelineLatency
        provider := present_some.mpr h.1
        model := present_some.mpr h.2
        blockReason := present_none
        error := hsound.error
        session := present_some.mpr (digest.isDigestText (le_refl 64))
        prompt := present_map_digest (by decide)
        response := present_map_digest (by decide)
        outbound := present_map_digest (by decide)
        scan := hsound.scan
        entities := entityCounts_valid hsound.types
        acted := actionCounts_valid outcome.summary }

end PrivacyGateway.Pipeline
