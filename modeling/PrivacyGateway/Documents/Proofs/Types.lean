/-
Which types a document's protection counts.

Analysis moves detections, merges them and drops some; it never renames
one. So what holds of every type the detector reported in a segment holds
of every labeled span, and of every type that the protected document's
summary counts.
-/
import PrivacyGateway.Documents.Protection
import PrivacyGateway.Documents.Proofs.Stages
import PrivacyGateway.Tokenization.Proofs.Counts

namespace PrivacyGateway.Documents

open Effect Tokenization

variable {P : Text → Prop}

/-- Every detection is of a type with the property. -/
def TypesHave (P : Text → Prop) (detections : List GlobalDetection) :
    Prop :=
  ∀ d ∈ detections, P d.entity.entityType

theorem toGlobal_types {segment : Segment} (entities : List DetectedEntity)
    (hentities : ∀ e ∈ entities, P e.entityType) :
    ∀ {detections : List GlobalDetection},
      toGlobal segment entities = .ok detections →
        TypesHave P detections := by
  induction entities with
  | nil =>
      intro detections h
      cases h
      exact fun d hd => nomatch hd
  | cons entity entities ih =>
      intro detections h
      obtain ⟨hentity, hentities⟩ := List.forall_mem_cons.mp hentities
      unfold toGlobal at h
      cases hpromote : promote segment entity with
      | error err =>
          rw [hpromote] at h
          cases h
      | ok detection =>
          rw [hpromote] at h
          cases hrest : toGlobal segment entities with
          | error err =>
              rw [hrest] at h
              cases h
          | ok promoted =>
              rw [hrest] at h
              cases h
              refine List.forall_mem_cons.mpr ⟨?_, ih hentities hrest⟩
              rw [(promote_ok hpromote).entityType_eq]
              exact hentity

theorem promoteAll_types (runs : List (Segment × List DetectedEntity))
    (hruns : ∀ run ∈ runs, ∀ e ∈ run.2, P e.entityType) :
    ∀ {detections : List GlobalDetection},
      promoteAll runs = .ok detections → TypesHave P detections := by
  induction runs with
  | nil =>
      intro detections h
      cases h
      exact fun d hd => nomatch hd
  | cons first runs ih =>
      intro detections h
      obtain ⟨hfirst, hruns⟩ := List.forall_mem_cons.mp hruns
      unfold promoteAll at h
      cases hglobal : toGlobal first.1 first.2 with
      | error err =>
          rw [hglobal] at h
          cases h
      | ok ds =>
          rw [hglobal] at h
          cases hrest : promoteAll runs with
          | error err =>
              rw [hrest] at h
              cases h
          | ok promoted =>
              rw [hrest] at h
              cases h
              exact List.forall_mem_append.mpr
                ⟨toGlobal_types _ hfirst hglobal, ih hruns hrest⟩

/-- An assignment adds at most its own value. -/
theorem mem_values_set {κ ν : Type} [DecidableEq κ] {d : Dict κ ν}
    {k : κ} {v : ν} {entry : κ × ν} (h : entry ∈ Dict.set d k v) :
    entry.2 = v ∨ entry ∈ d := by
  induction d with
  | nil =>
      rw [Dict.set, List.mem_singleton] at h
      exact Or.inl (h ▸ rfl)
  | cons e d ih =>
      unfold Dict.set at h
      by_cases he : e.1 = k
      · rw [if_pos he] at h
        rcases List.mem_cons.mp h with rfl | h
        · exact Or.inl rfl
        · exact Or.inr (List.mem_cons_of_mem _ h)
      · rw [if_neg he] at h
        rcases List.mem_cons.mp h with rfl | h
        · exact Or.inr List.mem_cons_self
        · rcases ih h with hv | hmem
          · exact Or.inl hv
          · exact Or.inr (List.mem_cons_of_mem _ hmem)

theorem mergeInto_types {merged : Dict SpanKey GlobalDetection}
    {detection : GlobalDetection}
    (hmerged : TypesHave P (merged.map Prod.snd))
    (hdetection : P detection.entity.entityType) :
    TypesHave P ((mergeInto merged detection).map Prod.snd) := by
  intro d hd
  obtain ⟨entry, hentry, rfl⟩ := List.mem_map.mp hd
  unfold mergeInto at hentry
  cases hget : merged.get? detection.key with
  | none =>
      rw [hget] at hentry
      rcases mem_values_set hentry with hv | hmem
      · rw [hv]
        exact hdetection
      · exact hmerged _ (List.mem_map.mpr ⟨entry, hmem, rfl⟩)
  | some existing =>
      rw [hget] at hentry
      rcases mem_values_set hentry with hv | hmem
      · rw [hv]
        exact hdetection
      · exact hmerged _ (List.mem_map.mpr ⟨entry, hmem, rfl⟩)

theorem foldl_mergeInto_types (detections : List GlobalDetection) :
    ∀ (merged : Dict SpanKey GlobalDetection),
      TypesHave P (merged.map Prod.snd) → TypesHave P detections →
        TypesHave P ((detections.foldl mergeInto merged).map Prod.snd) := by
  induction detections with
  | nil =>
      intro merged hmerged _
      exact hmerged
  | cons detection detections ih =>
      intro merged hmerged hall
      obtain ⟨hfirst, hrest⟩ := List.forall_mem_cons.mp hall
      exact ih _ (mergeInto_types hmerged hfirst) hrest

theorem coalesce_types {detections : List GlobalDetection}
    (h : TypesHave P detections) : TypesHave P (coalesce detections) := by
  intro d hd
  unfold coalesce at hd
  rw [Selection.mem_sortBy] at hd
  exact foldl_mergeInto_types detections [] (fun e he => nomatch he) h d hd

theorem resolve_types {detections result : List GlobalDetection}
    (hdetections : TypesHave P detections)
    (h : resolve detections = .ok result) : TypesHave P result := by
  intro g hg
  have hkept : g.entity ∈ result.map GlobalDetection.entity :=
    List.mem_map.mpr ⟨g, hg, rfl⟩
  rw [attach_ok _ h] at hkept
  obtain ⟨d, hd, hentity⟩ := List.mem_map.mp
    (Detection.mem_of_mem_resolveOverlaps hkept)
  rw [← hentity]
  exact hdetections d hd

theorem labelSpan_type {entity : DetectedEntity} {action : EntityAction}
    {pages segments : List Nat} {span : LabeledSpan}
    (h : labelSpan entity action pages segments = .ok span) :
    span.entityType = entity.entityType := by
  unfold labelSpan at h
  split at h
  · cases h
  · split at h
    · cases h
    · split at h
      · cases h
      · cases h
        rfl

theorem label_types {document : ExtractedDocument}
    {policy : PolicySnapshot} (detections : List GlobalDetection)
    (hdetections : TypesHave P detections) :
    ∀ {spans : List LabeledSpan},
      label document policy detections = .ok spans →
        ∀ span ∈ spans, P span.entityType := by
  induction detections with
  | nil =>
      intro spans h
      cases h
      exact fun span hspan => nomatch hspan
  | cons detection detections ih =>
      intro spans h
      obtain ⟨hfirst, hrest⟩ := List.forall_mem_cons.mp hdetections
      unfold label at h
      cases hpages : document.pagesCovering detection.entity.start
          detection.entity.stop with
      | error err =>
          rw [hpages] at h
          cases h
      | ok pages =>
          rw [hpages] at h
          simp only at h
          cases hspan : labelSpan detection.entity
              (policy.actionFor detection.entity.entityType) pages
              detection.segments with
          | error err =>
              rw [hspan] at h
              cases h
          | ok span =>
              rw [hspan] at h
              simp only at h
              cases hlater : label document policy detections with
              | error err =>
                  rw [hlater] at h
                  cases h
              | ok spans =>
                  rw [hlater] at h
                  cases h
                  refine List.forall_mem_cons.mpr ⟨?_, ih hrest hlater⟩
                  rw [labelSpan_type hspan]
                  exact hfirst

/-- Every labeled span is of a type the detector reported. -/
theorem analyzeSegments_types {policy : PolicySnapshot}
    {tenantId documentId : UUID} {segmented : SegmentedDocument}
    {maxEntities : Nat} {runs : List (Segment × List DetectedEntity)}
    {analyzed : AnalyzedDocument}
    (hruns : ∀ run ∈ runs, ∀ e ∈ run.2, P e.entityType)
    (h : analyzeSegments policy tenantId documentId segmented maxEntities
      runs = .ok analyzed) :
    ∀ span ∈ analyzed.spans, P span.entityType := by
  obtain ⟨detections, resolved, hpromote, hresolve, hlabel⟩ :=
    analyzeSegments_ok h
  have hcoalesced := coalesce_types (promoteAll_types runs hruns hpromote)
  refine label_types resolved (resolve_types ?_ hresolve) hlabel
  exact fun d hd => hcoalesced d (List.mem_of_mem_filter hd)

/-- A protected document counts the types of its spans and of its
instruction's detections. -/
theorem protectAnalyzed_counts {σ : Type} {unicode : Unicode}
    {hashes : Hashes} {fingerprinter : Fingerprinter}
    {vault : VaultLike σ} {tenantId sessionId : UUID} {maxEntities : Nat}
    {analyzed : AnalyzedDocument} {instruction : Text}
    {entities : List DetectedEntity} {s t : σ}
    {document : ProtectedDocument}
    (hspans : ∀ span ∈ analyzed.spans, P span.entityType)
    (hentities : ∀ e ∈ entities, P e.entityType)
    (h : runIn (protectAnalyzed unicode hashes fingerprinter vault tenantId
      sessionId maxEntities analyzed instruction entities) s =
        (.ok document, t)) :
    document.summary.Counts P ∧
      document.policyVersion = analyzed.policyVersion := by
  unfold protectAnalyzed at h
  obtain ⟨-, -, h⟩ := checked_bind_ok_iff.mp h
  obtain ⟨transformed, u, htransform, h⟩ := bind_ok_iff.mp h
  obtain ⟨-, -, h⟩ := checked_bind_ok_iff.mp h
  obtain ⟨instructed, v, hinstruct, h⟩ := bind_ok_iff.mp h
  have htransformed : transformed.summary.Counts P := by
    refine transform_counts ?_ htransform
    intro e he
    obtain ⟨span, hspan, rfl⟩ := List.mem_map.mp he
    exact hspans span hspan
  have hinstructed : ∀ out ∈ instructed, out.summary.Counts P := by
    intro out hout
    unfold protectInstruction at hinstruct
    by_cases hnone : entities = []
    · rw [if_pos hnone] at hinstruct
      cases hinstruct
      cases hout
    · rw [if_neg hnone] at hinstruct
      obtain ⟨out', w, hrun, hreturn⟩ := bind_ok_iff.mp hinstruct
      cases hreturn
      cases hout
      exact transform_counts hentities hrun
  rw [runIn_checked] at h
  have hdocument := (Prod.mk.inj h).1
  unfold protectedDocument at hdocument
  split at hdocument
  · cases hdocument
  · cases hdocument
    refine ⟨?_, rfl⟩
    cases instructed with
    | none => exact htransformed
    | some out => exact htransformed.mergedWith (hinstructed out rfl)

end PrivacyGateway.Documents
