/-
What a document request writes in the journal.

`process_ended` follows a request from its authorized destination to its
end. There is no handler around the stages: a payload the scan refused has
a row of its own, an answer that was restored has one, and every other
failure leaves without a row.

The analysis resolves a policy again. So two versions can appear in one
journal, that of the request and that of the decision; `Told` says which
acts are whose.
-/
import PrivacyGateway.Audit.Proofs.Endings
import PrivacyGateway.Documents.Pipeline
import PrivacyGateway.Documents.Proofs.Types
import PrivacyGateway.Policy.Proofs.Service

namespace PrivacyGateway

/-- The policy version an act tells. -/
def Event.policyVersion : Event → Option Int
  | .authorized version => some version
  | .decided version => some version
  | .scanned version => some version
  | .attested request _ => some request.policyVersion
  | .called _ => none
  | .restored version _ => some version
  | .built fields => fields.policyVersion
  | .submitted record => record.fields.policyVersion

end PrivacyGateway

namespace PrivacyGateway.Documents

open Audit Effect Ledger Outbound Tokenization

variable {unicode : Unicode} {σ : Type} {services : Services unicode σ}
  {principal : Principal} {request : DocumentRequest}
  {policy : PolicySnapshot} {l l' : Task σ}

-- ==================================================== analysis

theorem silent_detectSegmentTexts (segmented : SegmentedDocument)
    (segments : List Segment) :
    Silent (detectSegmentTexts services segmented segments) := by
  induction segments with
  | nil => exact silent_pure []
  | cons segment segments ih =>
      exact silent_bind (silent_translate (silent_await_task _))
        (fun _ => silent_bind ih (fun _ => silent_pure _))

theorem detectSegmentTexts_supported (segmented : SegmentedDocument)
    (segments : List Segment) :
    ∀ {l : Task σ} {runs : List (Segment × List DetectedEntity)},
      runIn (detectSegmentTexts services segmented segments) l =
        (.ok runs, l') →
      ∀ run ∈ runs, ∀ e ∈ run.2,
        e.entityType ∈ Detection.supportedEntityTypes := by
  induction segments with
  | nil =>
      intro l runs h
      cases h
      exact fun run hrun => nomatch hrun
  | cons segment segments ih =>
      intro l runs h
      obtain ⟨entities, m, hdetect, h⟩ := bind_ok_iff.mp h
      obtain ⟨rest, n, hrest, h⟩ := bind_ok_iff.mp h
      cases h
      exact List.forall_mem_cons.mpr
        ⟨services.detect_supported (translate_ok_iff.mp hdetect), ih hrest⟩

/-- The snapshot an analysis that starts here would be decided under. -/
def DecidesUnder (services : Services unicode σ) (tenantId : UUID)
    (l : Task σ) (version : Int) : Prop :=
  ∃ snapshot m, snapshot.version = version ∧
    runIn (Policy.snapshotFor services.policies tenantId) l =
      (.ok snapshot, m)

/-- An analysis returns decided spans and says so, or writes nothing. -/
theorem analyze_cases {r : Except Exn AnalyzedDocument}
    (h : runIn (analyze services principal request) l = (r, l')) :
    (∃ analyzed, r = .ok analyzed ∧
      DecidesUnder services principal.tenantId l analyzed.policyVersion ∧
      (∀ span ∈ analyzed.spans,
        span.entityType ∈ Detection.supportedEntityTypes) ∧
      After l [.decided analyzed.policyVersion] l') ∨
      ∃ e, r = .error e ∧ Quiet l l' := by
  unfold analyze at h
  rcases Policy.silent_activeSnapshot.bind_cases h with
    ⟨e, rfl, hquiet, -⟩ | ⟨snapshot, m, hresolved, hsnapshot, h⟩
  · exact Or.inr ⟨e, rfl, hquiet⟩
  rcases (silent_await_task _).bind_cases h with
    ⟨e, rfl, hquiet, -⟩ | ⟨segmented, m', hsegmented, -, h⟩
  · exact Or.inr ⟨e, rfl, hresolved.trans hquiet⟩
  have hopened := hresolved.trans hsegmented
  rcases (silent_detectSegmentTexts segmented _).bind_cases h with
    ⟨e, rfl, hquiet, -⟩ | ⟨runs, m'', hdetected, hruns, h⟩
  · exact Or.inr ⟨e, rfl, hopened.trans hquiet⟩
  have hread := hopened.trans hdetected
  cases hanalyzed : analyzeSegments snapshot principal.tenantId
      request.documentId segmented services.settings.maxDocumentEntities
      runs with
  | error e =>
      rw [hanalyzed, checked_bind_error] at h
      cases h
      exact Or.inr ⟨e, rfl, hread⟩
  | ok analyzed =>
      rw [hanalyzed, checked_bind_ok] at h
      obtain ⟨n, hnote, h⟩ := note_bind_cases h
      have hversion : analyzed.policyVersion = snapshot.version := by
        unfold AnalyzedDocument.policyVersion
        rw [analyzeSegments_policy hanalyzed]
      rw [← hversion] at hnote
      cases h
      exact Or.inl ⟨analyzed, rfl, ⟨snapshot, m, hversion.symm, hsnapshot⟩,
        analyzeSegments_types (detectSegmentTexts_supported _ _ hruns)
          hanalyzed, hread.after hnote⟩

-- ==================================================== protection

theorem silent_detectOverInstruction :
    Silent (detectOverInstruction services request) := by
  unfold detectOverInstruction
  exact moves_ite (silent_pure _) (silent_await_task _)

theorem detectOverInstruction_supported {entities : List DetectedEntity}
    (h : runIn (detectOverInstruction services request) l =
      (.ok entities, l')) :
    ∀ e ∈ entities, e.entityType ∈ Detection.supportedEntityTypes := by
  unfold detectOverInstruction at h
  by_cases hblank : unicode.strip request.instruction = []
  · rw [if_pos hblank] at h
    cases h
    exact fun e he => nomatch he
  · rw [if_neg hblank] at h
    exact services.detect_supported h

/-- Once protection has begun, all it writes is the decision. -/
theorem protectStored_cases {r : Except Exn ProtectedDocument}
    (h : runIn (protectStored services principal request) l = (r, l')) :
    (∃ document, r = .ok document ∧
      DecidesUnder services principal.tenantId l document.policyVersion ∧
      TypesSupported document.summary ∧
      After l [.decided document.policyVersion] l') ∨
      ∃ e, r = .error e ∧ (Quiet l l' ∨ ∃ version,
        DecidesUnder services principal.tenantId l version ∧
          After l [.decided version] l') := by
  unfold protectStored at h
  rcases bind_cases h with ⟨e, rfl, hanalyze⟩ | ⟨analyzed, m, hanalyze, h⟩
  · rcases analyze_cases hanalyze with ⟨_, hr, -⟩ | ⟨_, -, hquiet⟩
    · cases hr
    · exact Or.inr ⟨e, rfl, Or.inl hquiet⟩
  rcases analyze_cases hanalyze with
    ⟨_, hr, hunder, hspans, hdecided⟩ | ⟨_, hr, -⟩
  swap
  · cases hr
  cases hr
  rcases silent_detectOverInstruction.bind_cases h with
    ⟨e, rfl, hquiet, -⟩ | ⟨entities, m', hdetected, hentities, h⟩
  · exact Or.inr ⟨e, rfl, Or.inr ⟨_, hunder, hdecided.quiet hquiet⟩⟩
  have hread := hdecided.quiet hdetected
  have hlast := hread.quiet ((silent_await_task _).quiet h)
  cases r with
  | error e => exact Or.inr ⟨e, rfl, Or.inr ⟨_, hunder, hlast⟩⟩
  | ok document =>
      obtain ⟨w, hw⟩ := await_ok h
      obtain ⟨hcounts, hversion⟩ := protectAnalyzed_counts hspans
        (detectOverInstruction_supported hentities) hw
      rw [← hversion] at hunder hlast
      exact Or.inl ⟨document, rfl, hunder, hcounts, hlast⟩

-- ==================================================== the audit row

/-- A response there is can be digested. -/
def Digestible (responseText : Option Text) : Prop :=
  ∀ text ∈ responseText, CorrelationHasher.Prefixes (encodeUtf8 text)

theorem responseDigestOf_isOk_iff {responseText : Option Text} :
    (∃ digest, responseDigestOf services principal responseText =
      .ok digest) ↔ Digestible responseText := by
  cases responseText with
  | none =>
      constructor
      · intro _ text htext
        cases htext
      · intro _
        exact ⟨none, rfl⟩
  | some text =>
      have hprefix :
          (∃ d, services.outbound.hasher.responseDigest
            services.outbound.hashes principal.tenantId text = .ok d) ↔
          CorrelationHasher.Prefixes (encodeUtf8 text) :=
        CorrelationHasher.responseDigest_isOk_iff _ _ _
      unfold responseDigestOf OutboundGateway.responseDigest
      constructor
      · intro h text' htext
        cases htext
        obtain ⟨digest, hdigest⟩ := h
        apply hprefix.mp
        cases hresponse : services.outbound.hasher.responseDigest
            services.outbound.hashes principal.tenantId text with
        | ok d => exact ⟨d, rfl⟩
        | error e =>
            simp only [hresponse] at hdigest
            cases hdigest
      · intro h
        obtain ⟨d, hd⟩ := hprefix.mpr (h text rfl)
        exact ⟨some d, by simp only [hd]⟩

/-- What the stages put into the row of an attestation passes the record's
validation. -/
structure Attested.Sound (attested : Attested) : Prop where
  types : TypesSupported attested.summary
  latency : Present (0 ≤ ·) attested.providerLatencyMs

theorem countsFromSummary_actions_valid (summary : PrivacySummary) :
    CountsValid (countsFromSummary summary).2 := by
  refine countsValid_of_names
    [("detected".toList, summary.detected),
      ("tokenized".toList, summary.tokenized),
      ("redacted".toList, summary.redacted),
      ("pseudonymized".toList, summary.pseudonymized),
      ("blocked".toList, summary.blocked),
      ("allowed".toList, summary.allowed),
      ("restored".toList, summary.restored),
      ("unknown_tokens".toList, summary.unknownTokens)] ?_
  simp only [List.forall_mem_cons]
  decide

/-- The row of a document request is valid exactly when both aliases are
codes. -/
theorem attestFields_valid_iff {attested : Attested}
    (sessionDigest : Digest) {elapsedMs : Int} {digest : Option Digest}
    (hpolicy : 0 < policy.version) (hsound : attested.Sound)
    (helapsed : 0 ≤ elapsedMs) :
    (attestFields principal request policy attested sessionDigest elapsedMs
      digest).Valid ↔ AliasesAreCodes request.provider request.model := by
  constructor
  · intro h
    exact ⟨h.provider _ rfl, h.model _ rfl⟩
  · intro h
    exact
      { status := by
          show minStatusCode ≤ (if attested.isBlocked then 422 else 200) ∧
            (if attested.isBlocked then 422 else 200) ≤ maxStatusCode
          cases attested.isBlocked <;> decide
        occurred := present_none
        input := Int.natCast_nonneg _
        output := Int.natCast_nonneg _
        version := present_some.mpr (le_of_lt hpolicy)
        providerLatency := hsound.latency
        pipelineLatency := present_some.mpr helapsed
        provider := present_some.mpr h.1
        model := present_some.mpr h.2
        blockReason := by
          show Present _
            (if attested.isBlocked then some "outbound_scan".toList else none)
          cases attested.isBlocked
          · exact present_none
          · exact present_some.mpr (by decide)
        error := present_none
        session := present_some.mpr
          (sessionDigest.isDigestText (le_refl 64))
        prompt := present_some.mpr (Digest.isDigestText _ (by decide))
        response := present_map_digest (by decide)
        outbound := present_some.mpr (Digest.isDigestText _ (by decide))
        scan := present_some.mpr (matchesCode_verdict _)
        entities := entityCounts_valid hsound.types
        acted := countsFromSummary_actions_valid attested.summary }

/-- The clock was read for `started` no later than here. -/
def StartedBefore (services : Services unicode σ) (started : Rat)
    (l : Task σ) : Prop :=
  ∃ index ≤ l.readings, started = services.clock.reading index

theorem StartedBefore.after {started : Rat} {new : List Event}
    (h : StartedBefore services started l) (hafter : After l new l') :
    StartedBefore services started l' := by
  obtain ⟨index, hindex, hstarted⟩ := h
  exact ⟨index, le_trans hindex hafter.readings, hstarted⟩

theorem StartedBefore.le {started : Rat}
    (h : StartedBefore services started l) :
    started ≤ services.clock.reading l.readings := by
  obtain ⟨index, hindex, rfl⟩ := h
  exact services.clock.nondecreasing hindex

/-- The row is built and handed over, unless the response is too long to
digest. -/
theorem attestRow_cases {started : Rat} {attested : Attested}
    {r : Except Exn Unit} (hstarted : StartedBefore services started l)
    (h : runIn (attestRow services principal request policy started
      attested) l = (r, l')) :
    (Digestible attested.responseText ∧ ∃ sessionDigest elapsedMs digest,
      0 ≤ elapsedMs ∧
      After l (rowEvents (attestFields principal request policy attested
        sessionDigest elapsedMs digest)) l' ∧
      (r = .ok () → (attestFields principal request policy attested
        sessionDigest elapsedMs digest).Valid)) ∨
    (¬ Digestible attested.responseText ∧
      ∃ e, r = .error e ∧ Quiet l l') := by
  unfold attestRow at h
  obtain ⟨sessionDigest, hsession⟩ :=
    services.outbound.hasher.sessionDigest_isOk services.outbound.hashes
      principal.tenantId request.sessionId
  rw [OutboundGateway.sessionDigest, hsession, checked_bind_ok] at h
  obtain ⟨m, hclock, -, h⟩ := clock_bind_cases h
  cases hresponse : responseDigestOf services principal
      attested.responseText with
  | error e =>
      rw [hresponse, checked_bind_error] at h
      cases h
      refine Or.inr ⟨?_, e, rfl, hclock⟩
      intro hdigestible
      obtain ⟨digest, hdigest⟩ := responseDigestOf_isOk_iff.mpr hdigestible
      rw [hresponse] at hdigest
      cases hdigest
  | ok digest =>
      rw [hresponse, checked_bind_ok] at h
      obtain ⟨hrow, hvalid⟩ := submitFields_after h
      exact Or.inl ⟨responseDigestOf_isOk_iff.mp ⟨digest, hresponse⟩,
        sessionDigest, _, digest,
        milliseconds_nonneg (sub_nonneg.mpr hstarted.le),
        hclock.after hrow, hvalid⟩

-- ==================================================== after sending

/-- Restoration returns and says so, or writes nothing. -/
theorem restoreAnswer_cases {response : ProviderResponse}
    {r : Except Exn Restoration.RestoredOutput}
    (h : runIn (restoreAnswer services principal request policy response)
      l = (r, l')) :
    (∃ restored, r = .ok restored ∧ restored.summary.entityTypes = [] ∧
      After l [.restored policy.version restored.text] l') ∨
      ∃ e, r = .error e ∧ Quiet l l' := by
  unfold restoreAnswer at h
  rcases (silent_await_task _).bind_cases h with
    ⟨e, rfl, hquiet, -⟩ | ⟨restored, m, hquiet, hrun, h⟩
  · exact Or.inr ⟨e, rfl, hquiet⟩
  obtain ⟨w, hw⟩ := await_ok hrun
  obtain ⟨n, hnote, h⟩ := note_bind_cases h
  cases h
  exact Or.inl ⟨restored, rfl,
    Restoration.OutputPipeline.restore_counts hw, hquiet.after hnote⟩

/-- The fields are the row of the attestation. -/
structure IsRowOf (request : DocumentRequest) (policy : PolicySnapshot)
    (attestation : Attestation) (fields : AuditFields) : Prop where
  valid : fields.Valid ↔ AliasesAreCodes request.provider request.model
  hmac : fields.outboundHmac = some attestation.payloadHmac.text
  scan : fields.outboundScan = some attestation.verdict
  version : fields.policyVersion = some policy.version

theorem isRowOf_attestFields {attested : Attested}
    (sessionDigest : Digest) {elapsedMs : Int} {digest : Option Digest}
    (hpolicy : 0 < policy.version) (hsound : attested.Sound)
    (helapsed : 0 ≤ elapsedMs) :
    IsRowOf request policy attested.attestation
      (attestFields principal request policy attested sessionDigest
        elapsedMs digest) where
  valid := attestFields_valid_iff sessionDigest hpolicy hsound helapsed
  hmac := rfl
  scan := rfl
  version := rfl

/-- How what follows the provider's answer ends. -/
inductive Concluded (request : DocumentRequest) (policy : PolicySnapshot)
    (attestation : Attestation) (l l' : Task σ) :
    Except Exn DocumentAnswer → Prop
  | unrestored (e : Exn) (quiet : Quiet l l') :
      Concluded request policy attestation l l' (.error e)
  | undigested (e : Exn) (text : Text)
      (overflows : ¬ CorrelationHasher.Prefixes (encodeUtf8 text))
      (acts : After l [.restored policy.version text] l') :
      Concluded request policy attestation l l' (.error e)
  | recorded (r : Except Exn DocumentAnswer) (text : Text)
      (fields : AuditFields)
      (digestible : CorrelationHasher.Prefixes (encodeUtf8 text))
      (row : IsRowOf request policy attestation fields)
      (closed : (∃ answer, r = .ok answer) → fields.Valid)
      (acts : After l ([.restored policy.version text] ++
        rowEvents fields) l') :
      Concluded request policy attestation l l' r

theorem conclude_cases {started : Rat} {document : ProtectedDocument}
    {transmission : Transmission} {r : Except Exn DocumentAnswer}
    (hstarted : StartedBefore services started l)
    (hpolicy : 0 < policy.version)
    (hsummary : TypesSupported document.summary)
    (hlatency : 0 ≤ transmission.providerLatencyMs)
    (h : runIn (conclude services principal request policy started document
      transmission) l = (r, l')) :
    Concluded request policy transmission.attestation l l' r := by
  unfold conclude at h
  rcases bind_cases h with ⟨e, rfl, hrestore⟩ | ⟨restored, m, hrestore, h⟩
  · rcases restoreAnswer_cases hrestore with ⟨_, hr, -⟩ | ⟨_, -, hquiet⟩
    · cases hr
    · exact .unrestored e hquiet
  rcases restoreAnswer_cases hrestore with
    ⟨_, hr, htypes, hrestored⟩ | ⟨_, hr, -⟩
  swap
  · cases hr
  cases hr
  have hsound : Attested.Sound
      { attestation := transmission.attestation
        summary := document.summary.mergedWith restored.summary
        isBlocked := false
        requestCharacters := document.text.length
        responseText := some restored.text
        providerLatencyMs := some transmission.providerLatencyMs } :=
    { types := hsummary.mergedWith_nil htypes
      latency := present_some.mpr hlatency }
  rcases bind_cases h with ⟨e, rfl, hrow⟩ | ⟨_, n, hrow, h⟩
  · rcases attestRow_cases (hstarted.after hrestored) hrow with
      ⟨hdigestible, sessionDigest, elapsedMs, digest, helapsed, hafter, -⟩ |
      ⟨hdigestible, _, -, hquiet⟩
    · refine .recorded _ restored.text _ (hdigestible _ rfl)
        (isRowOf_attestFields sessionDigest hpolicy hsound helapsed) ?_
        (hrestored.trans hafter)
      intro hanswered
      obtain ⟨answer, hr⟩ := hanswered
      cases hr
    · refine .undigested e restored.text ?_ (hrestored.quiet hquiet)
      intro hprefix
      apply hdigestible
      intro text htext
      cases htext
      exact hprefix
  · rcases attestRow_cases (hstarted.after hrestored) hrow with
      ⟨hdigestible, sessionDigest, elapsedMs, digest, helapsed, hafter,
        hvalid⟩ | ⟨-, _, hr, -⟩
    · cases h
      exact .recorded _ restored.text _ (hdigestible _ rfl)
        (isRowOf_attestFields sessionDigest hpolicy hsound helapsed)
        (fun _ => hvalid rfl) (hrestored.trans hafter)
    · cases hr

/-- A payload the scan refused gets its row before the error goes on. -/
theorem refusedBy_cases {started : Rat} {document : ProtectedDocument}
    {attestation : Attestation} {r : Except Exn Transmission}
    (hstarted : StartedBefore services started l)
    (hpolicy : 0 < policy.version)
    (hsummary : TypesSupported document.summary)
    (h : runIn (refusedBy services principal request policy started document
      (.blocked attestation)) l = (r, l')) :
    ∃ e fields, r = .error e ∧ IsRowOf request policy attestation fields ∧
      After l (rowEvents fields) l' := by
  unfold refusedBy at h
  have hsound : Attested.Sound
      { attestation := attestation
        summary := document.summary
        isBlocked := true
        requestCharacters := document.text.length } :=
    { types := hsummary
      latency := present_none }
  have hrow : ∀ {r' : Except Exn Unit} {m : Task σ},
      runIn (attestRow services principal request policy started
        { attestation := attestation
          summary := document.summary
          isBlocked := true
          requestCharacters := document.text.length }) l = (r', m) →
      ∃ fields, IsRowOf request policy attestation fields ∧
        After l (rowEvents fields) m := by
    intro r' m hattest
    rcases attestRow_cases hstarted hattest with
      ⟨-, sessionDigest, elapsedMs, digest, helapsed, hafter, -⟩ |
      ⟨hdigestible, -⟩
    · exact ⟨_, isRowOf_attestFields sessionDigest hpolicy hsound helapsed,
        hafter⟩
    · exact absurd (fun text htext => nomatch htext) hdigestible
  rcases bind_cases h with ⟨e, rfl, hattest⟩ | ⟨_, m, hattest, h⟩
  · obtain ⟨fields, hfields, hafter⟩ := hrow hattest
    exact ⟨e, fields, rfl, hfields, hafter⟩
  · obtain ⟨fields, hfields, hafter⟩ := hrow hattest
    cases h
    exact ⟨_, fields, rfl, hfields, hafter⟩

-- ==================================================== the whole request

/-- The decision is told under its own version, and what is attested with
it; every other act under the version of the request. -/
structure Told (policyVersion decided : Int) (events : List Event) :
    Prop where
  decides : Event.decided decided ∈ events
  versions : ∀ event ∈ events, ∀ version ∈ event.policyVersion,
    version = policyVersion ∨ version = decided

theorem Told.row {decided : Int} {acts : List Event} {fields : AuditFields}
    (h : Told policy.version decided acts)
    (hversion : fields.policyVersion = some policy.version) :
    Told policy.version decided (acts ++ rowEvents fields) where
  decides := List.mem_append_left _ h.decides
  versions := by
    intro event hevent version htold
    rcases List.mem_append.mp hevent with hevent | hevent
    · exact h.versions event hevent version htold
    left
    rcases mem_rowEvents.mp hevent with rfl | ⟨record, hfields, rfl⟩
    · have hsome := hversion.symm.trans htold
      cases hsome
      rfl
    · have htold : record.fields.policyVersion = some version := htold
      rw [hfields, hversion] at htold
      cases htold
      rfl

variable (services principal request policy) in
/-- What holds of the journal of a request from its authorized destination
on. -/
structure Processed (l : Task σ) (answered : Prop)
    (events : List Event) : Prop where
  ended : Ended (AliasesAreCodes request.provider request.model) True
    answered services.settings.auditFailClosed events
  told : events = [] ∨ ∃ decided,
    DecidesUnder services principal.tenantId l decided ∧
      Told policy.version decided events

theorem not_answered_error {e : Exn} :
    ¬ ∃ answer : DocumentAnswer,
      (Except.error e : Except Exn DocumentAnswer) = .ok answer := by
  intro h
  obtain ⟨answer, hr⟩ := h
  cases hr

/-- A failure before anything was attested. -/
theorem processed_unattested {e : Exn} {decided : Int}
    {scan : List Event}
    (hunder : DecidesUnder services principal.tenantId l decided)
    (hscan : scan = [] ∨ scan = [.scanned policy.version]) :
    Processed services principal request policy l
      (∃ answer : DocumentAnswer, Except.error e = Except.ok answer)
      (.decided decided :: scan) where
  ended := by
    refine .unrecorded _ ?_ ?_ ?_ not_answered_error
    · rcases hscan with rfl | rfl
      · simp [Event.isStage]
      · simp [Event.isStage]
    · rw [restoredDigestible_cons (by simp)]
      rcases hscan with rfl | rfl
      · exact not_restoredDigestible_nil
      · rw [restoredDigestible_cons (by simp)]
        exact not_restoredDigestible_nil
    · intro _ q a hmem
      rcases hscan with rfl | rfl
      · simp at hmem
      · simp at hmem
  told := by
    refine Or.inr ⟨decided, hunder, List.mem_cons_self, ?_⟩
    rcases hscan with rfl | rfl
    · simp [Event.policyVersion]
    · simp [Event.policyVersion]

/-- A failure after a clean payload was attested, and before a row. -/
theorem processed_unrecorded {e : Exn} {document : ProtectedDocument}
    {attestation : Attestation} (after : List Event)
    (hunder : DecidesUnder services principal.tenantId l
      document.policyVersion)
    (hclean : attestation.scan.isClean = true)
    (hstages : ∀ event ∈ after, event.isStage = true)
    (hundigested : ¬ RestoredDigestible after)
    (hattested : ∀ q a, Event.attested q a ∉ after)
    (htold : ∀ event ∈ after, ∀ version ∈ event.policyVersion,
      version = policy.version) :
    Processed services principal request policy l
      (∃ answer : DocumentAnswer, Except.error e = Except.ok answer)
      (.decided document.policyVersion :: .scanned policy.version ::
        .attested (protectedRequest principal request document) attestation
          :: after) where
  ended := by
    refine .unrecorded _ ?_ ?_ ?_ not_answered_error
    · simp only [List.forall_mem_cons]
      exact ⟨rfl, rfl, rfl, hstages⟩
    · rw [restoredDigestible_cons (by simp),
        restoredDigestible_cons (by simp), restoredDigestible_cons (by simp)]
      exact hundigested
    · intro _ q a hmem
      simp only [List.mem_cons, reduceCtorEq, false_or,
        Event.attested.injEq] at hmem
      rcases hmem with ⟨-, rfl⟩ | hmem
      · exact hclean
      · exact absurd hmem (hattested q a)
  told := by
    refine Or.inr ⟨document.policyVersion, hunder, List.mem_cons_self, ?_⟩
    simp only [List.forall_mem_cons]
    refine ⟨?_, ?_, ?_, fun event hevent version hversion =>
      Or.inl (htold event hevent version hversion)⟩
    · simp [Event.policyVersion]
    · simp [Event.policyVersion]
    · simp [Event.policyVersion, protectedRequest]

/-- The row of the attestation ends the journal. -/
theorem processed_recorded {r : Except Exn DocumentAnswer}
    {document : ProtectedDocument} {attestation : Attestation}
    (after : List Event) {fields : AuditFields}
    (hunder : DecidesUnder services principal.tenantId l
      document.policyVersion)
    (hrow : IsRowOf request policy attestation fields)
    (hclosed : (∃ answer, r = .ok answer) → fields.Valid)
    (hreached : RestoredDigestible after ∨
      attestation.scan.isClean = false)
    (hstages : ∀ event ∈ after, event.isStage = true)
    (hattested : ∀ q a, Event.attested q a ∉ after)
    (htold : ∀ event ∈ after, ∀ version ∈ event.policyVersion,
      version = policy.version) :
    Processed services principal request policy l
      (∃ answer, r = .ok answer)
      ((.decided document.policyVersion :: .scanned policy.version ::
        .attested (protectedRequest principal request document) attestation
          :: after) ++ rowEvents fields) where
  ended := by
    refine .recorded _ fields attestation ?_ ?_ hrow.valid hrow.hmac
      hrow.scan ?_ (fun _ => hclosed)
    · simp only [List.forall_mem_cons]
      exact ⟨rfl, rfl, rfl, hstages⟩
    · intro q a hmem
      simp only [List.mem_cons, reduceCtorEq, false_or,
        Event.attested.injEq] at hmem
      rcases hmem with ⟨-, rfl⟩ | hmem
      · rfl
      · exact absurd hmem (hattested q a)
    · rw [restoredDigestible_cons (by simp),
        restoredDigestible_cons (by simp), restoredDigestible_cons (by simp)]
      exact hreached.imp_right (fun hfound => ⟨trivial, hfound⟩)
  told := by
    refine Or.inr ⟨document.policyVersion, hunder,
      Told.row ⟨List.mem_cons_self, ?_⟩ hrow.version⟩
    simp only [List.forall_mem_cons]
    refine ⟨?_, ?_, ?_, fun event hevent version hversion =>
      Or.inl (htold event hevent version hversion)⟩
    · simp [Event.policyVersion]
    · simp [Event.policyVersion]
    · simp [Event.policyVersion, protectedRequest]

theorem silent_callDirectly (adapter : Llm.LLMProvider σ)
    (protectedChat : ProtectedChatRequest) :
    Silent (callDirectly adapter protectedChat) :=
  silent_await_task _

theorem process_ended {started : Rat} {r : Except Exn DocumentAnswer}
    (hstarted : StartedBefore services started l)
    (hpolicy : 0 < policy.version)
    (h : runIn (process services principal request policy started) l =
      (r, l')) :
    ∃ events, After l events l' ∧
      Processed services principal request policy l
        (∃ answer, r = .ok answer) events := by
  unfold process at h
  rcases bind_cases h with ⟨e, rfl, hprotect⟩ | ⟨document, m, hprotect, h⟩
  · rcases protectStored_cases hprotect with
      ⟨_, hr, -⟩ | ⟨_, -, hquiet | ⟨version, hunder, hdecided⟩⟩
    · cases hr
    · exact ⟨[], hquiet,
        .unrecorded [] (by simp) not_restoredDigestible_nil (by simp)
          not_answered_error, Or.inl rfl⟩
    · exact ⟨_, hdecided, processed_unattested hunder (Or.inl rfl)⟩
  rcases protectStored_cases hprotect with
    ⟨_, hr, hunder, hsummary, hdecided⟩ | ⟨_, hr, -⟩
  swap
  · cases hr
  cases hr
  have hstarted := hstarted.after hdecided
  cases hsend : runIn (services.outbound.send
      (protectedRequest principal request document) policy callDirectly)
      m with
  | mk sent n =>
      rcases bind_cases h with ⟨e, rfl, hfailed⟩ |
        ⟨transmission, u, hanswered, h⟩
      · cases sent with
        | ok transmission =>
            rw [recover_of_ok hsend] at hfailed
            cases hfailed
        | error failure =>
            rw [recover_of_error hsend] at hfailed
            cases send_cases silent_callDirectly hsend with
            | blocked attestation found acts =>
                obtain ⟨_, fields, -, hrow, hafter⟩ := refusedBy_cases
                  (hstarted.after acts) hpolicy hsummary hfailed
                exact ⟨_, hdecided.trans (acts.trans hafter),
                  processed_recorded [] hunder hrow
                    (fun hok => absurd hok not_answered_error)
                    (Or.inr found) (by simp) (by simp) (by simp)⟩
            | unanswered e' attestation clean after called acts =>
                cases hfailed
                refine ⟨_, hdecided.trans acts,
                  processed_unrecorded _ hunder clean ?_ ?_ ?_ ?_⟩
                · rcases called with rfl | ⟨providerAlias, rfl⟩
                  · simp
                  · simp [Event.isStage]
                · rcases called with rfl | ⟨providerAlias, rfl⟩
                  · exact not_restoredDigestible_nil
                  · rw [restoredDigestible_cons (by simp)]
                    exact not_restoredDigestible_nil
                · rcases called with rfl | ⟨providerAlias, rfl⟩
                  · simp
                  · simp
                · rcases called with rfl | ⟨providerAlias, rfl⟩
                  · simp
                  · simp [Event.policyVersion]
            | unattested e' scan hscan acts =>
                cases hfailed
                exact ⟨_, hdecided.trans acts,
                  processed_unattested hunder hscan⟩
      · cases sent with
        | error failure =>
            rw [recover_of_error hsend] at hanswered
            cases failure with
            | blocked attestation =>
                cases send_cases silent_callDirectly hsend with
                | blocked _ found acts =>
                    obtain ⟨_, _, hr, -⟩ := refusedBy_cases
                      (hstarted.after acts) hpolicy hsummary hanswered
                    cases hr
            | raised e => cases hanswered
        | ok transmission' =>
            rw [recover_of_ok hsend] at hanswered
            cases hanswered
            cases send_cases silent_callDirectly hsend with
            | answered _ clean latency acts =>
                have hsent := hdecided.trans acts
                cases conclude_cases (hstarted.after acts) hpolicy hsummary
                    latency h with
                | unrestored e quiet =>
                    exact ⟨_, hsent.quiet quiet,
                      processed_unrecorded
                        [.called transmission.providerAlias] hunder clean
                        (by simp [Event.isStage])
                        (by
                          rw [restoredDigestible_cons (by simp)]
                          exact not_restoredDigestible_nil)
                        (by simp) (by simp [Event.policyVersion])⟩
                | undigested e text overflows concluded =>
                    exact ⟨_, hsent.trans concluded,
                      processed_unrecorded
                        [.called transmission.providerAlias,
                          .restored policy.version text] hunder clean
                        (by simp [Event.isStage])
                        (by
                          rw [restoredDigestible_cons (by simp),
                            restoredDigestible_restored]
                          exact overflows)
                        (by simp) (by simp [Event.policyVersion])⟩
                | recorded _ text fields digestible row closed concluded =>
                    exact ⟨_, hsent.trans concluded,
                      processed_recorded
                        [.called transmission.providerAlias,
                          .restored policy.version text] hunder row closed
                        (Or.inl (by
                          rw [restoredDigestible_cons (by simp),
                            restoredDigestible_restored]
                          exact digestible))
                        (by simp [Event.isStage])
                        (by simp) (by simp [Event.policyVersion])⟩

/-- How a document request goes: refused before a policy authorizes it, or
authorized and processed. -/
inductive Ran (services : Services unicode σ) (principal : Principal)
    (request : DocumentRequest) (l l' : Task σ) :
    Except Exn DocumentAnswer → Prop
  | refused (e : Exn) (quiet : Quiet l l') :
      Ran services principal request l l' (.error e)
  | authorized (r : Except Exn DocumentAnswer) (policy : PolicySnapshot)
      (m : Task σ)
      (resolved : runIn (authorizingPolicy services principal request) l =
        (.ok policy, m))
      (cached : ∃ entry,
        m.shared.policies.entries.get? principal.tenantId = some entry ∧
          entry.snapshot = policy)
      (events : List Event)
      (processed : Processed services principal request policy m
        (∃ answer, r = .ok answer) events)
      (after : After l (.authorized policy.version :: events) l') :
      Ran services principal request l l' r

theorem run_cases {r : Except Exn DocumentAnswer}
    (h : runIn (run services principal request) l = (r, l')) :
    Ran services principal request l l' r := by
  unfold run at h
  rw [runIn_bind, runIn_readClock] at h
  have hclock := silent_readClock (x := Exn) services.clock l
  rw [runIn_readClock] at hclock
  simp only at h hclock
  cases hsize : enforceInstructionSize request.instruction
      defaultInstructionMaxChars with
  | error e =>
      rw [hsize, checked_bind_error] at h
      cases h
      exact .refused e hclock
  | ok u =>
      rw [hsize, checked_bind_ok] at h
      rcases bind_cases h with ⟨e, rfl, hresolve⟩ | ⟨policy, n, hresolve, h⟩
      · rcases Policy.resolve_cases hresolve with ⟨_, hr, -⟩ | ⟨_, -, hquiet⟩
        · cases hr
        · exact .refused e (hclock.trans hquiet)
      rcases Policy.resolve_cases hresolve with
        ⟨_, hr, hauthorized, hcached⟩ | ⟨_, hr, -⟩
      swap
      · cases hr
      cases hr
      have hresolved : runIn (authorizingPolicy services principal request)
          l = (.ok policy, n) := by
        unfold authorizingPolicy
        rw [runIn_bind, runIn_readClock, hsize]
        simp only
        rw [checked_bind_ok]
        exact hresolve
      cases hroute : services.outbound.authorize request.provider with
      | error e =>
          rw [hroute, checked_bind_error] at h
          cases h
          exact .authorized _ policy _ hresolved hcached []
            ⟨.unrecorded [] (by simp) not_restoredDigestible_nil (by simp)
              not_answered_error, Or.inl rfl⟩
            (hclock.after hauthorized)
      | ok u =>
          rw [hroute, checked_bind_ok] at h
          have hstarted : StartedBefore services
              (services.clock.reading l.readings) n :=
            ⟨l.readings, le_trans hclock.readings hauthorized.readings, rfl⟩
          obtain ⟨events, hafter, hprocessed⟩ := process_ended hstarted
            (Policy.version_positive_of_cached hcached) h
          exact .authorized _ policy n hresolved hcached events hprocessed
            ((hclock.after hauthorized).trans hafter)

/-- How a document request ends. -/
theorem run_ended {r : Except Exn DocumentAnswer}
    (h : runIn (run services principal request) l = (r, l')) :
    ∃ events, After l events l' ∧
      Ended (AliasesAreCodes request.provider request.model) True
        (∃ answer, r = .ok answer) services.settings.auditFailClosed
        events := by
  cases run_cases h with
  | refused e quiet =>
      exact ⟨[], quiet, .unrecorded [] (by simp) not_restoredDigestible_nil
        (by simp) not_answered_error⟩
  | authorized _ policy m resolved cached events processed after =>
      exact ⟨_, after, processed.ended.authorized⟩

end PrivacyGateway.Documents
