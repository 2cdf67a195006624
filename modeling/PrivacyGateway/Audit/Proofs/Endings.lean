/-
How a request ends, as far as its audit row goes.

`Ended` is what both pipelines have in common. A request ends without a
row; or with the row of a refusal, which knows nothing of an attestation;
or with the row of its attestation. Whether a row that is built is also
submitted depends on its validation alone, so two questions are answered
here for both pipelines at once: which rows are valid (`valid_iff`), and
when the attestation is on record exactly once (`Ended.once_iff`).
-/
import PrivacyGateway.Audit.Proofs.Rows
import PrivacyGateway.Outbound.Proofs.Journal

namespace PrivacyGateway

/-- The event is an act of a stage, not of the audit trail. -/
def Event.isStage : Event → Bool
  | .built _ => false
  | .submitted _ => false
  | _ => true

end PrivacyGateway

namespace PrivacyGateway.Audit

open Outbound

/-- The records that were handed to the audit service. -/
def submittedRecords (events : List Event) : List AuditRecord :=
  events.filterMap (fun event =>
    match event with
    | .submitted record => some record
    | _ => none)

/-- Exactly one record was submitted, and it carries the payload digest
and the verdict of the attestation. -/
def RecordedOnce (attestation : Outbound.Attestation)
    (events : List Event) : Prop :=
  ∃ record, submittedRecords events = [record] ∧
    record.fields.outboundHmac = some attestation.payloadHmac.text ∧
    record.fields.outboundScan = some attestation.verdict

/-- An answer was restored, to a text that can be digested. -/
def RestoredDigestible (events : List Event) : Prop :=
  ∃ version text, Event.restored version text ∈ events ∧
    CorrelationHasher.Prefixes (encodeUtf8 text)

/-- How a request ends: `codes` says that its aliases are codes,
`rowsBlocked` that a payload the scan refused has a row of its own,
`answered` that the caller got an answer. -/
inductive Ended (codes rowsBlocked answered : Prop) (failClosed : Bool) :
    List Event → Prop
  /-- No row is built. -/
  | unrecorded (acts : List Event)
      (stages : ∀ event ∈ acts, event.isStage = true)
      (undigested : ¬ RestoredDigestible acts)
      (clean : rowsBlocked → ∀ request attestation,
        Event.attested request attestation ∈ acts →
          attestation.scan.isClean = true)
      (unanswered : ¬ answered) :
      Ended codes rowsBlocked answered failClosed acts
  /-- The row of a refusal. -/
  | refused (acts : List Event) (fields : AuditFields)
      (stages : ∀ event ∈ acts, event.isStage = true)
      (undigested : ¬ RestoredDigestible acts)
      (row : fields.Valid ↔ codes)
      (unattested : fields.outboundHmac = none)
      (unblocked : ¬ rowsBlocked) (unanswered : ¬ answered) :
      Ended codes rowsBlocked answered failClosed
        (acts ++ rowEvents fields)
  /-- The row of an attestation. -/
  | recorded (acts : List Event) (fields : AuditFields)
      (attestation : Outbound.Attestation)
      (stages : ∀ event ∈ acts, event.isStage = true)
      (only : ∀ request other, Event.attested request other ∈ acts →
        other = attestation)
      (row : fields.Valid ↔ codes)
      (hmac : fields.outboundHmac = some attestation.payloadHmac.text)
      (scan : fields.outboundScan = some attestation.verdict)
      (reached : RestoredDigestible acts ∨
        rowsBlocked ∧ attestation.scan.isClean = false)
      (closed : failClosed = true → answered → fields.Valid) :
      Ended codes rowsBlocked answered failClosed
        (acts ++ rowEvents fields)

variable {codes rowsBlocked answered : Prop} {failClosed : Bool}
  {events acts : List Event}

theorem submittedRecords_of_stages
    (h : ∀ event ∈ acts, event.isStage = true) :
    submittedRecords acts = [] := by
  unfold submittedRecords
  rw [List.filterMap_eq_nil_iff]
  intro event hevent
  have hstage := h event hevent
  cases event <;> first | rfl | cases hstage

theorem submittedRecords_append (first second : List Event) :
    submittedRecords (first ++ second) =
      submittedRecords first ++ submittedRecords second :=
  List.filterMap_append

/-- A row submits its record when it is valid, and nothing otherwise. -/
theorem recordedOnce_row_iff {fields : AuditFields}
    (attestation : Outbound.Attestation)
    (h : ∀ event ∈ acts, event.isStage = true) :
    RecordedOnce attestation (acts ++ rowEvents fields) ↔
      fields.Valid ∧
        fields.outboundHmac = some attestation.payloadHmac.text ∧
        fields.outboundScan = some attestation.verdict := by
  unfold RecordedOnce
  rw [submittedRecords_append, submittedRecords_of_stages h,
    List.nil_append]
  by_cases hvalid : fields.Valid
  · obtain ⟨record, rfl, hrow⟩ := rowEvents_of_valid hvalid
    rw [hrow]
    constructor
    · intro hrecorded
      obtain ⟨other, hother, hmac, hscan⟩ := hrecorded
      cases hother
      exact ⟨hvalid, hmac, hscan⟩
    · intro hfields
      exact ⟨record, rfl, hfields.2⟩
  · rw [rowEvents_of_invalid hvalid]
    constructor
    · intro hrecorded
      obtain ⟨other, hother, -⟩ := hrecorded
      cases hother
    · intro hfields
      exact absurd hfields.1 hvalid

theorem not_mem_stages_of_built {fields : AuditFields}
    (h : ∀ event ∈ acts, event.isStage = true) :
    Event.built fields ∉ acts := by
  intro hmem
  cases h _ hmem

/-- A row that was built is the one of the ending. -/
theorem built_mem_row {fields other : AuditFields}
    (h : ∀ event ∈ acts, event.isStage = true)
    (hmem : Event.built other ∈ acts ++ rowEvents fields) :
    other = fields := by
  rcases List.mem_append.mp hmem with hmem | hmem
  · exact absurd hmem (not_mem_stages_of_built h)
  · rcases mem_rowEvents.mp hmem with hbuilt | ⟨record, -, hsubmitted⟩
    · cases hbuilt
      rfl
    · cases hsubmitted

/-- Every row that is built is valid exactly when the aliases are
codes. -/
theorem Ended.valid_iff
    (h : Ended codes rowsBlocked answered failClosed events)
    {fields : AuditFields} (hbuilt : Event.built fields ∈ events) :
    fields.Valid ↔ codes := by
  cases h with
  | unrecorded acts stages =>
      exact absurd hbuilt (not_mem_stages_of_built stages)
  | refused acts row stages _ hrow =>
      rw [built_mem_row stages hbuilt]
      exact hrow
  | recorded acts row _ stages _ hrow =>
      rw [built_mem_row stages hbuilt]
      exact hrow

/-- Failing closed, an answered request has a valid row. -/
theorem Ended.codes_of_answered
    (h : Ended codes rowsBlocked answered failClosed events)
    (hclosed : failClosed = true) (hanswered : answered) : codes := by
  cases h with
  | unrecorded _ _ _ _ unanswered => exact absurd hanswered unanswered
  | refused _ _ _ _ _ _ _ unanswered => exact absurd hanswered unanswered
  | recorded _ fields _ _ _ hrow _ _ _ closed =>
      exact hrow.mp (closed hclosed hanswered)

theorem mem_stages_of_attested {fields : AuditFields}
    {request : ProtectedChatRequest} {attestation : Outbound.Attestation}
    (h : Event.attested request attestation ∈ acts ++ rowEvents fields) :
    Event.attested request attestation ∈ acts := by
  rcases List.mem_append.mp h with h | h
  · exact h
  · rcases mem_rowEvents.mp h with hbuilt | ⟨record, -, hsubmitted⟩
    · cases hbuilt
    · cases hsubmitted

theorem restoredDigestible_row {fields : AuditFields} :
    RestoredDigestible (acts ++ rowEvents fields) ↔
      RestoredDigestible acts := by
  unfold RestoredDigestible
  constructor
  · intro h
    obtain ⟨version, text, hmem, hprefix⟩ := h
    refine ⟨version, text, ?_, hprefix⟩
    rcases List.mem_append.mp hmem with hmem | hmem
    · exact hmem
    · rcases mem_rowEvents.mp hmem with hbuilt | ⟨record, -, hsubmitted⟩
      · cases hbuilt
      · cases hsubmitted
  · intro h
    obtain ⟨version, text, hmem, hprefix⟩ := h
    exact ⟨version, text, List.mem_append_left _ hmem, hprefix⟩

/-- When an attestation is on record exactly once. -/
theorem Ended.once_iff
    (h : Ended codes rowsBlocked answered failClosed events)
    {request : ProtectedChatRequest} {attestation : Outbound.Attestation}
    (hattested : Event.attested request attestation ∈ events) :
    RecordedOnce attestation events ↔
      codes ∧ (RestoredDigestible events ∨
        rowsBlocked ∧ attestation.scan.isClean = false) := by
  cases h with
  | unrecorded acts stages undigested clean =>
      constructor
      · intro hrecorded
        obtain ⟨record, hone, -⟩ := hrecorded
        rw [submittedRecords_of_stages stages] at hone
        cases hone
      · intro hreached
        rcases hreached.2 with hrestored | ⟨hrows, hfound⟩
        · exact absurd hrestored undigested
        · rw [clean hrows _ _ hattested] at hfound
          cases hfound
  | refused acts fields stages undigested row unattested unblocked =>
      rw [recordedOnce_row_iff attestation stages, restoredDigestible_row]
      constructor
      · intro hfields
        rw [unattested] at hfields
        cases hfields.2.1
      · intro hreached
        rcases hreached.2 with hrestored | ⟨hrows, -⟩
        · exact absurd hrestored undigested
        · exact absurd hrows unblocked
  | recorded acts fields own stages only row hmac scan reached =>
      cases only _ _ (mem_stages_of_attested hattested)
      rw [recordedOnce_row_iff attestation stages, restoredDigestible_row,
        row]
      constructor
      · intro hfields
        exact ⟨hfields.1, reached⟩
      · intro hreached
        exact ⟨hreached.1, hmac, scan⟩

-- ==================================================== acts of a request

/-- The acts of a request whose answer was restored. -/
def restoredActs (policyVersion : Int)
    (protectedChat : ProtectedChatRequest)
    (attestation : Attestation) (providerAlias text : Text) : List Event :=
  sendActs policyVersion protectedChat attestation providerAlias ++
    [.restored policyVersion text]

theorem not_restoredDigestible_nil : ¬ RestoredDigestible [] := by
  intro h
  obtain ⟨version, text, hmem, -⟩ := h
  cases hmem

/-- Only a restored answer is digestible. -/
theorem restoredDigestible_cons {event : Event} {acts : List Event}
    (h : ∀ version text, event ≠ .restored version text) :
    RestoredDigestible (event :: acts) ↔ RestoredDigestible acts := by
  unfold RestoredDigestible
  constructor
  · intro hcons
    obtain ⟨version, text, hmem, hprefix⟩ := hcons
    rcases List.mem_cons.mp hmem with rfl | hmem
    · exact absurd rfl (h version text)
    · exact ⟨version, text, hmem, hprefix⟩
  · intro hacts
    obtain ⟨version, text, hmem, hprefix⟩ := hacts
    exact ⟨version, text, List.mem_cons_of_mem _ hmem, hprefix⟩

theorem restoredDigestible_restored {version : Int} {text : Text} :
    RestoredDigestible [.restored version text] ↔
      CorrelationHasher.Prefixes (encodeUtf8 text) := by
  simp [RestoredDigestible]

theorem restoredDigestible_sendActs {version : Int}
    {protectedChat : ProtectedChatRequest} {attestation : Attestation}
    {providerAlias : Text} {acts : List Event} :
    RestoredDigestible (sendActs version protectedChat attestation
      providerAlias ++ acts) ↔ RestoredDigestible acts := by
  unfold sendActs
  simp only [List.cons_append, List.nil_append]
  rw [restoredDigestible_cons (by simp), restoredDigestible_cons (by simp),
    restoredDigestible_cons (by simp)]

theorem isStage_sendActs {version : Int}
    {protectedChat : ProtectedChatRequest} {attestation : Attestation}
    {providerAlias : Text} :
    ∀ event ∈ sendActs version protectedChat attestation providerAlias,
      event.isStage = true := by
  simp [sendActs, Event.isStage]

/-- What is authorized before the stages run changes nothing about the
row. -/
theorem restoredDigestible_authorized {version : Int} {acts : List Event} :
    RestoredDigestible (.authorized version :: acts) ↔
      RestoredDigestible acts :=
  restoredDigestible_cons (by simp)

/-- What is authorized first changes nothing about the ending. -/
theorem Ended.authorized {version : Int}
    (h : Ended codes rowsBlocked answered failClosed events) :
    Ended codes rowsBlocked answered failClosed
      (.authorized version :: events) := by
  have hstages : ∀ {acts : List Event},
      (∀ event ∈ acts, event.isStage = true) →
      ∀ event ∈ Event.authorized version :: acts, event.isStage = true :=
    fun stages => List.forall_mem_cons.mpr ⟨rfl, stages⟩
  have hattested : ∀ {acts : List Event} {request : ProtectedChatRequest}
      {attestation : Attestation},
      Event.attested request attestation ∈
        Event.authorized version :: acts →
      Event.attested request attestation ∈ acts :=
    fun hmem => (List.mem_cons.mp hmem).resolve_left (fun heq => nomatch heq)
  cases h with
  | unrecorded acts stages undigested clean unanswered =>
      refine .unrecorded _ (hstages stages) ?_ ?_ unanswered
      · rw [restoredDigestible_authorized]
        exact undigested
      · exact fun hrows q a hmem => clean hrows q a (hattested hmem)
  | refused acts fields stages undigested row unattested unblocked
      unanswered =>
      refine .refused (.authorized version :: acts) fields (hstages stages)
        ?_ row unattested unblocked unanswered
      rw [restoredDigestible_authorized]
      exact undigested
  | recorded acts fields attestation stages only row hmac scan reached
      closed =>
      refine .recorded (.authorized version :: acts) fields attestation
        (hstages stages) (fun q a hmem => only q a (hattested hmem)) row
        hmac scan ?_ closed
      rw [restoredDigestible_authorized]
      exact reached

end PrivacyGateway.Audit
