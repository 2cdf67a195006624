/-
The tokenizer's own selection, applied to an analysis.

Protection hands the labeled spans to the tokenizer as plain detections,
and the tokenizer selects again: bounds, thresholds, overlaps and the
limit, under the analysis policy with the document's budget. Analysis
resolved overlaps by another rule, so what makes the second selection
return what it is given are facts about the labeled spans alone: they
stand one after the other, each is as sure as the policy asks, and there
are no more of them than the analyzer's budget (`Protectable`).
-/
import PrivacyGateway.Documents.Proofs.Checkpoint
import PrivacyGateway.Documents.Proofs.Protection
import PrivacyGateway.Documents.Segmenter
import PrivacyGateway.Tokenization.Proofs.Surrogates

-- ==================================================== the written text

namespace PrivacyGateway.Tokenization

open Effect Splice

theorem formatRedaction_ne_nil {entityType placeholder : Text}
    (h : formatRedaction entityType = .ok placeholder) :
    placeholder ≠ [] := by
  unfold formatRedaction at h
  split at h
  · cases h
  · cases h
    exact List.cons_ne_nil _ _

section Written

variable {σ : Type} {unicode : Unicode} {hashes : Hashes}
  {fingerprinter : Fingerprinter} {vault : VaultLike σ}
  {tenantId sessionId : UUID} {text : Text}

/-- What the transform writes in place of a span is never empty. -/
theorem replacementOf_ne_nil {plan : List Planned} {ttlSeconds : Int}
    {w w' : σ} {minted : Dict Nat EntityMapping}
    (hmint : runIn (mint unicode hashes fingerprinter tenantId sessionId
      vault text plan ttlSeconds) w = (.ok minted, w'))
    {item : Planned × Nat} (hspan : item.1.1.stop ≤ text.length)
    {body : Text}
    (h : replacementOf unicode hashes text minted item = .ok (some body)) :
    body ≠ [] := by
  have hforward := item.1.1.span_forward
  unfold replacementOf replacementFor at h
  split at h
  · cases h
  · split at h
    · rename_i hformat
      cases h
      exact formatRedaction_ne_nil hformat
    · cases h
  · split at h
    · cases h
    · rename_i mapping hget
      split at h
      · cases h
        rw [← List.length_pos_iff, length_surrogateFor, length_slice]
        omega
      · cases h
        obtain ⟨token, htoken⟩ := mint_token hmint hget
        rw [htoken]
        exact List.cons_ne_nil _ _

/-- A text that is not empty is not empty once transformed. -/
theorem transform_ne_nil {entities : List DetectedEntity}
    {policy : PolicySnapshot} {w w' : σ} {out : TransformedText}
    (htext : text ≠ [])
    (h : runIn (transform unicode hashes fingerprinter vault tenantId
      sessionId text entities policy) w = (.ok out, w')) :
    out.text ≠ [] := by
  obtain ⟨selected, minted, hplans, hmint, -, hfill, -⟩ := transform_ok h
  rw [hfill]
  apply fill_ne_nil htext
  intro p hp
  obtain ⟨item, hitem, hpatch⟩ := List.mem_filterMap.mp hp
  obtain ⟨-, -, hbody⟩ := patchOf_eq_some hpatch
  obtain ⟨e, he, hplanned⟩ :=
    List.mem_map.mp (List.fst_mem_of_mem_zipIdx hitem)
  have hspan : item.1.1.stop ≤ text.length := by
    rw [← hplanned]
    exact hplans.stop_le e he
  exact replacementOf_ne_nil hmint hspan hbody

end Written

end PrivacyGateway.Tokenization

namespace PrivacyGateway.Documents

open Effect Tokenization Vault

-- ==================================================== labeled spans

/-- Spans in order stand one after the other inside the buffer. -/
theorem SpansOrdered.chain {limit : Nat} (spans : List LabeledSpan) :
    ∀ {previousEnd : Nat}, SpansOrdered limit previousEnd spans →
      (∀ span ∈ spans, previousEnd ≤ span.start ∧ span.stop ≤ limit) ∧
        spans.Pairwise (fun a b => a.stop ≤ b.start) := by
  induction spans with
  | nil => exact fun _ => ⟨fun span hspan => (nomatch hspan), .nil⟩
  | cons first spans ih =>
      intro previousEnd h
      obtain ⟨hprevious, hlimit, hrest⟩ := h
      obtain ⟨hafter, hchain⟩ := ih hrest
      have hforward := first.span_forward
      refine ⟨?_, List.pairwise_cons.mpr
        ⟨fun span hspan => (hafter span hspan).1, hchain⟩⟩
      intro span hspan
      rcases List.mem_cons.mp hspan with rfl | hspan
      · exact ⟨hprevious, hlimit⟩
      · obtain ⟨hstart, hstop⟩ := hafter span hspan
        exact ⟨by omega, hstop⟩

/-- The labeled spans stand one after the other inside the text, each with
the policy's action and as sure as the policy asks, within the budget. -/
structure Protectable (maxEntities : Nat) (analyzed : AnalyzedDocument) :
    Prop where
  chain : analyzed.spans.Pairwise (fun a b => a.stop ≤ b.start)
  inside : ∀ span ∈ analyzed.spans,
    span.stop ≤ analyzed.segmented.document.text.length
  confident : ∀ span ∈ analyzed.spans,
    analyzed.policy.minScoreFor span.entityType ≤ span.score
  action_eq : ∀ span ∈ analyzed.spans,
    span.action = analyzed.policy.actionFor span.entityType
  within_budget : analyzed.spans.length ≤ maxEntities

/-- What is resolved was confident. -/
theorem confident_of_resolve {policy : PolicySnapshot}
    {detections resolved : List GlobalDetection}
    (h : resolve (selectConfident policy detections) = .ok resolved)
    {g : GlobalDetection} (hg : g ∈ resolved) :
    policy.minScoreFor g.entity.entityType ≤ g.entity.score := by
  have hkept : g.entity ∈ resolved.map GlobalDetection.entity :=
    List.mem_map_of_mem hg
  rw [attach_ok _ h] at hkept
  obtain ⟨d, hd, hentity⟩ :=
    List.mem_map.mp (Detection.mem_of_mem_resolveOverlaps hkept)
  rw [← hentity]
  exact of_decide_eq_true (List.mem_filter.mp hd).2

variable {policy : PolicySnapshot} {tenantId documentId : UUID}
  {segmented : SegmentedDocument} {maxEntities : Nat}
  {runs : List (Segment × List DetectedEntity)}
  {analyzed : AnalyzedDocument}

/-- Every analysis the analyzer returns is protectable. -/
theorem protectable_of_analysis
    (h : analyzeSegments policy tenantId documentId segmented maxEntities
      runs = .ok analyzed) : Protectable maxEntities analyzed := by
  obtain ⟨detections, resolved, hstaged⟩ := analyzeSegments_staged h
  have hlabels := label_forall resolved hstaged.labeled
  obtain ⟨hbounds, hchain⟩ :=
    SpansOrdered.chain analyzed.spans analyzed.spans_ordered
  refine ⟨hchain, fun span hspan => (hbounds span hspan).2, ?_, ?_, ?_⟩
  · intro span hspan
    obtain ⟨g, hg, hlabeled⟩ := Aligned.exists_left hlabels hspan
    rw [hstaged.policy_eq, hlabeled.entityType_eq, hlabeled.score_eq]
    exact confident_of_resolve hstaged.resolves hg
  · intro span hspan
    obtain ⟨g, hg, hlabeled⟩ := Aligned.exists_left hlabels hspan
    rw [hstaged.policy_eq, hlabeled.action_eq, hlabeled.entityType_eq]
  · rw [← hlabels.length_eq]
    exact hstaged.within_budget

-- ==================================================== the selection

/-- The tokenizer selects every span of a protectable analysis. -/
theorem Protectable.plans (h : Protectable maxEntities analyzed) {budget : Nat}
    (hbudget : maxEntities ≤ budget) :
    Plans analyzed.segmented.document.text (asDetections analyzed)
      (documentEntityBudget analyzed.policy budget)
      (asDetections analyzed) := by
  have hconfident : (asDetections analyzed).filter
      (isConfident (documentEntityBudget analyzed.policy budget)) =
        asDetections analyzed := by
    apply List.filter_eq_self.mpr
    intro e he
    obtain ⟨span, hspan, rfl⟩ := List.mem_map.mp he
    exact isConfident_iff.mpr (h.confident span hspan)
  have hresolved : resolveOverlaps (asDetections analyzed) =
      asDetections analyzed :=
    resolveOverlaps_eq_self (List.pairwise_map.mpr h.chain)
  refine ⟨selectEntities_ok_iff.mpr ⟨?_, ?_⟩, ?_, ?_⟩
  · intro e he
    obtain ⟨span, hspan, rfl⟩ := List.mem_map.mp he
    exact h.inside span hspan
  · rw [hconfident, hresolved]
  · show (analyzed.spans.map LabeledSpan.detection).length ≤ budget
    rw [List.length_map]
    exact le_trans h.within_budget hbudget
  · intro e he hblock
    obtain ⟨span, hspan, rfl⟩ := List.mem_map.mp he
    exact span.not_blocked ((h.action_eq span hspan).trans hblock)

/-- The actions the tokenizer plans are the labeled ones. -/
theorem Protectable.withActions_eq (h : Protectable maxEntities analyzed)
    (budget : Nat) :
    withActions (documentEntityBudget analyzed.policy budget)
      (asDetections analyzed) =
        analyzed.spans.map (fun span => (span.detection, span.action)) := by
  unfold withActions asDetections
  rw [List.map_map]
  apply List.map_congr_left
  intro span hspan
  rw [h.action_eq span hspan]
  rfl

/-- Of any analysis, under any budget at least the analyzer's: selection
returns the labeled spans, with the labeled actions as their plan; so the
transform of the document refuses nothing, and where it returns, it acted
on every span and its text is not empty. -/
theorem reselection_is_identity {segmenter : Segmenter}
    {document : ExtractedDocument}
    (hsegment : segmenter.segment document = .ok segmented)
    (hanalyze : analyzeSegments policy tenantId documentId segmented
      maxEntities runs = .ok analyzed) {budget : Nat}
    (hbudget : maxEntities ≤ budget) (vault : RedisTokenVault)
    (unicode : Unicode) (fingerprinter : Fingerprinter) (t s : UUID)
    (w : World) :
    let text := analyzed.segmented.document.text
    let view := documentEntityBudget analyzed.policy budget
    let transformed := runIn (transform unicode vault.hashes fingerprinter
      vault.like t s text (asDetections analyzed) view) w
    selectEntities text (asDetections analyzed) view =
        .ok (asDetections analyzed) ∧
      planFor text (asDetections analyzed) view =
        .ok (analyzed.spans.map
          (fun span => (span.detection, span.action))) ∧
      (∀ e, transformed.1 = .error e → e.isRefusal = false) ∧
      ∀ out, transformed.1 = .ok out →
        verifyEverySpanWasActedOn analyzed out = .ok () ∧
          out.text ≠ [] := by
  intro text view transformed
  have hprotectable := protectable_of_analysis hanalyze
  have hplans := hprotectable.plans hbudget
  have hplan : planFor text (asDetections analyzed) view =
      .ok (analyzed.spans.map
        (fun span => (span.detection, span.action))) :=
    planFor_ok_iff.mpr
      ⟨_, hplans, (hprotectable.withActions_eq budget).symm⟩
  refine ⟨hplans.selects, hplan, ?_, ?_⟩
  · intro e he
    have hrun : transformed = (.error e, transformed.2) :=
      Prod.ext he rfl
    rcases transform_error (vault.getOrCreateMany_faults t s) hrun with
      ⟨hnoplan, -⟩ | ⟨-, hfault⟩
    · rw [hplan] at hnoplan
      cases hnoplan
    · exact hfault
  · intro out hout
    have hrun : transformed = (.ok out, transformed.2) :=
      Prod.ext hout rfl
    obtain ⟨selected, minted, hplans', -, -, -, -, hsummary⟩ :=
      transform_ok hrun
    obtain rfl : asDetections analyzed = selected :=
      Except.ok.inj (hplans.selects.symm.trans hplans'.selects)
    constructor
    · unfold verifyEverySpanWasActedOn
      rw [if_pos]
      rw [hsummary, detected_eq_length]
      exact List.length_map _
    · -- the segmenter refuses a document without text
      have htext : text ≠ [] := by
        obtain ⟨detections, resolved, hstaged⟩ :=
          analyzeSegments_staged hanalyze
        show analyzed.segmented.document.text ≠ []
        rw [hstaged.segmented_eq]
        unfold Segmenter.segment at hsegment
        split at hsegment
        · cases hsegment
        · rename_i hnonempty
          split at hsegment
          · cases hsegment
          · cases hsegment
            exact hnonempty
      exact transform_ne_nil htext hrun

theorem reselection_is_identity_sampleLine :
    selectEntities sampleLine.document.text (asDetections sampleAnalyzed)
      (documentEntityBudget evenPolicy 20000) =
        .ok (asDetections sampleAnalyzed) := by
  have hsegment : Segmenter.segment ⟨20, 8, by decide, by decide⟩
      sampleLine.document = .ok sampleLine := by decide +kernel
  have hanalyze : analyzeSegments evenPolicy ⟨2⟩ ⟨3⟩ sampleLine
      defaultMaxEntities sampleRuns = .ok sampleAnalyzed := by
    decide +kernel
  exact (reselection_is_identity hsegment hanalyze
    (show defaultMaxEntities ≤ 20000 by decide)
    (Reference.vault (Hashes.ofTables [] [])) Unicode.ascii
    sampleFingerprinter ⟨2⟩ ⟨4⟩ VaultState.start.world).1

end PrivacyGateway.Documents
