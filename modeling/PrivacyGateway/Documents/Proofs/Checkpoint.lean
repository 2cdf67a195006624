/-
No validating constructor of the analysis can refuse what reaches it.

`Sound` is what every detection has from its promotion on: it ends inside
the buffer, and its segments are listed once each, in order. Coalescing and
resolution keep it, and resolution finds the provenance of everything it
keeps. So labeling succeeds unless the policy blocks, and its spans are in
order (`checkpoint_never_fails`).

The pages of a span are those it shares a character with: a page without
text, in a document whose separator is not empty, is the last and empty
(`pages_of_span`).
-/
import Mathlib.Data.List.Dedup
import PrivacyGateway.Documents.Extraction
import PrivacyGateway.Documents.Proofs.Stages
import PrivacyGateway.Lib.Aligned

namespace PrivacyGateway.Documents

open Detection

-- ==================================================== detections

/-- A detection whose range and provenance the checkpoint accepts. -/
structure Sound (limit : Nat) (detection : GlobalDetection) : Prop where
  inside : detection.entity.stop ≤ limit
  segments_nonempty : detection.segments ≠ []
  segments_ascending : detection.segments.Pairwise (· < ·)

variable {limit : Nat}

/-- A detection inside its segment is promoted. -/
theorem promote_of_within {segment : Segment} {entity : DetectedEntity}
    (hentity : entity.stop ≤ segment.length)
    (hsegment : segment.stop ≤ limit) :
    ∃ detection, promote segment entity = .ok detection ∧
      Sound limit detection := by
  have hforward := entity.span_forward
  unfold Segment.length at hentity
  unfold promote Segment.toGlobal Segment.length
  rw [if_neg (by omega), if_neg (by omega)]
  simp only
  rw [dif_pos (by omega)]
  refine ⟨_, rfl, ?_, List.cons_ne_nil _ _, List.pairwise_singleton _ _⟩
  show segment.start + entity.stop ≤ limit
  omega

theorem toGlobal_of_within {segment : Segment}
    (hsegment : segment.stop ≤ limit) (entities : List DetectedEntity)
    (hentities : ∀ e ∈ entities, e.stop ≤ segment.length) :
    ∃ detections, toGlobal segment entities = .ok detections ∧
      ∀ d ∈ detections, Sound limit d := by
  induction entities with
  | nil => exact ⟨[], rfl, fun d hd => nomatch hd⟩
  | cons entity entities ih =>
      obtain ⟨detection, hpromote, hsound⟩ := promote_of_within
        (hentities entity List.mem_cons_self) hsegment
      obtain ⟨rest, hrest, hsoundRest⟩ := ih
        (fun e he => hentities e (List.mem_cons_of_mem _ he))
      refine ⟨detection :: rest, ?_, ?_⟩
      · simp only [toGlobal, hpromote, hrest]
      · intro d hd
        rcases List.mem_cons.mp hd with rfl | hd
        · exact hsound
        · exact hsoundRest d hd

/-- Detections inside their segments are promoted. -/
theorem promoteAll_of_within (runs : List (Segment × List DetectedEntity))
    (hsegments : ∀ run ∈ runs, run.1.stop ≤ limit)
    (hentities : ∀ run ∈ runs, ∀ e ∈ run.2, e.stop ≤ run.1.length) :
    ∃ detections, promoteAll runs = .ok detections ∧
      ∀ d ∈ detections, Sound limit d := by
  induction runs with
  | nil => exact ⟨[], rfl, fun d hd => nomatch hd⟩
  | cons run runs ih =>
      obtain ⟨first, hfirst, hsound⟩ := toGlobal_of_within
        (hsegments run List.mem_cons_self) run.2
          (hentities run List.mem_cons_self)
      obtain ⟨rest, hrest, hsoundRest⟩ := ih
        (fun r hr => hsegments r (List.mem_cons_of_mem _ hr))
        (fun r hr => hentities r (List.mem_cons_of_mem _ hr))
      refine ⟨first ++ rest, ?_, ?_⟩
      · simp only [promoteAll, hfirst, hrest]
      · intro d hd
        rcases List.mem_append.mp hd with hd | hd
        · exact hsound d hd
        · exact hsoundRest d hd

-- ==================================================== coalescing

theorem mem_segmentUnion {a b : List Nat} {index : Nat} :
    index ∈ segmentUnion a b ↔ index ∈ a ∨ index ∈ b := by
  unfold segmentUnion
  rw [List.mem_insertionSort, List.mem_dedup, List.mem_append]

theorem segmentUnion_ascending (a b : List Nat) :
    (segmentUnion a b).Pairwise (· < ·) := by
  unfold segmentUnion
  have hsorted := List.pairwise_insertionSort (· ≤ ·) (a ++ b).dedup
  have hnodup : ((a ++ b).dedup.insertionSort (· ≤ ·)).Nodup :=
    (List.perm_insertionSort _ _).nodup_iff.mpr (List.nodup_dedup _)
  refine (hsorted.and hnodup).imp ?_
  intro first second ⟨hle, hne⟩
  exact lt_of_le_of_ne hle hne

theorem Sound.mergeCopies {detection : GlobalDetection}
    (h : Sound limit detection) (existing : GlobalDetection) :
    Sound limit (mergeCopies existing detection) := by
  refine ⟨h.inside, ?_, segmentUnion_ascending _ _⟩
  obtain ⟨index, hindex⟩ := List.exists_mem_of_ne_nil _ h.segments_nonempty
  exact List.ne_nil_of_mem (mem_segmentUnion.mpr (Or.inr hindex))

theorem sound_foldl (detections : List GlobalDetection) :
    ∀ merged : Dict SpanKey GlobalDetection,
      (∀ entry ∈ merged, Sound limit entry.2) →
      (∀ d ∈ detections, Sound limit d) →
        ∀ entry ∈ detections.foldl mergeInto merged,
          Sound limit entry.2 := by
  induction detections with
  | nil => exact fun merged hmerged _ => hmerged
  | cons detection detections ih =>
      intro merged hmerged hdetections
      refine ih _ ?_ (fun d hd => hdetections d (List.mem_cons_of_mem _ hd))
      have hfirst := hdetections detection List.mem_cons_self
      unfold mergeInto
      cases merged.get? detection.key with
      | none =>
          intro entry hentry
          rcases Dict.mem_set hentry with rfl | hold
          · exact hfirst
          · exact hmerged entry hold
      | some existing =>
          intro entry hentry
          rcases Dict.mem_set hentry with rfl | hold
          · exact hfirst.mergeCopies existing
          · exact hmerged entry hold

theorem coalesce_sound {detections : List GlobalDetection}
    (h : ∀ d ∈ detections, Sound limit d) :
    ∀ d ∈ coalesce detections, Sound limit d := by
  intro d hd
  unfold coalesce at hd
  rw [Selection.mem_sortBy] at hd
  obtain ⟨entry, hentry, rfl⟩ := List.mem_map.mp hd
  exact sound_foldl detections [] (fun _ hnone => nomatch hnone) h entry
    hentry

-- ==================================================== resolution

/-- The provenance of a span is that of a detection of its type and
range. -/
theorem get?_provenance_foldl (detections : List GlobalDetection) :
    ∀ (provenance : Dict SpanKey (List Nat)) (key : SpanKey),
      (∃ segments, provenance.get? key = some segments ∧
          (∀ d ∈ detections, d.key ≠ key)) ∨
        (∃ d ∈ detections, d.key = key) →
      ∃ segments, (detections.foldl (fun provenance detection =>
          provenance.set detection.key detection.segments)
            provenance).get? key = some segments ∧
        (provenance.get? key = some segments ∨
          ∃ d ∈ detections, d.segments = segments) := by
  induction detections with
  | nil =>
      intro provenance key h
      rcases h with ⟨segments, hget, -⟩ | ⟨d, hd, -⟩
      · exact ⟨segments, hget, Or.inl hget⟩
      · cases hd
  | cons detection detections ih =>
      intro provenance key h
      rw [List.foldl_cons]
      have hnext : (∃ segments,
          (provenance.set detection.key detection.segments).get? key =
            some segments ∧ (∀ d ∈ detections, d.key ≠ key)) ∨
          (∃ d ∈ detections, d.key = key) := by
        by_cases hlater : ∃ d ∈ detections, d.key = key
        · exact Or.inr hlater
        · left
          have hnone : ∀ d ∈ detections, d.key ≠ key :=
            fun d hd hkey => hlater ⟨d, hd, hkey⟩
          rw [Dict.get?_set]
          by_cases hkey : detection.key = key
          · rw [if_pos hkey]
            exact ⟨_, rfl, hnone⟩
          · rw [if_neg hkey]
            rcases h with ⟨segments, hget, -⟩ | ⟨d, hd, hdkey⟩
            · exact ⟨segments, hget, hnone⟩
            · rcases List.mem_cons.mp hd with rfl | hd
              · exact absurd hdkey hkey
              · exact absurd ⟨d, hd, hdkey⟩ hlater
      obtain ⟨segments, hget, hfrom⟩ := ih _ key hnext
      refine ⟨segments, hget, ?_⟩
      rcases hfrom with hbefore | ⟨d, hd, hsegments⟩
      · rw [Dict.get?_set] at hbefore
        split at hbefore
        · cases hbefore
          exact Or.inr ⟨detection, List.mem_cons_self, rfl⟩
        · exact Or.inl hbefore
      · exact Or.inr ⟨d, List.mem_cons_of_mem _ hd, hsegments⟩

theorem get?_provenanceOf {detections : List GlobalDetection}
    {d : GlobalDetection} (hd : d ∈ detections) :
    ∃ segments, (provenanceOf detections).get? d.key = some segments ∧
      ∃ e ∈ detections, e.segments = segments := by
  obtain ⟨segments, hget, hfrom⟩ := get?_provenance_foldl detections [] d.key
    (Or.inr ⟨d, hd, rfl⟩)
  rcases hfrom with hnone | hsome
  · cases hnone
  · exact ⟨segments, hget, hsome⟩

/-- Every kept entity finds its provenance. -/
theorem attach_total {detections : List GlobalDetection}
    (hsound : ∀ d ∈ detections, Sound limit d) (kept : List DetectedEntity)
    (hkept : ∀ e ∈ kept, e ∈ detections.map GlobalDetection.entity) :
    ∃ result, attach (provenanceOf detections) kept = .ok result ∧
      ∀ g ∈ result, Sound limit g := by
  induction kept with
  | nil => exact ⟨[], rfl, fun g hg => nomatch hg⟩
  | cons entity kept ih =>
      obtain ⟨rest, hrest, hsoundRest⟩ := ih
        (fun e he => hkept e (List.mem_cons_of_mem _ he))
      obtain ⟨d, hd, hentity⟩ :=
        List.mem_map.mp (hkept entity List.mem_cons_self)
      obtain ⟨segments, hget, e, he, hsegments⟩ := get?_provenanceOf hd
      have hkey : d.key = spanKey entity := congrArg spanKey hentity
      rw [hkey] at hget
      refine ⟨⟨entity, segments⟩ :: rest, ?_, ?_⟩
      · simp only [attach, hget, hrest]
      · intro g hg
        rcases List.mem_cons.mp hg with rfl | hg
        · refine ⟨?_, ?_, ?_⟩
          · show entity.stop ≤ limit
            rw [← hentity]
            exact (hsound d hd).inside
          · show segments ≠ []
            rw [← hsegments]
            exact (hsound e he).segments_nonempty
          · show segments.Pairwise (· < ·)
            rw [← hsegments]
            exact (hsound e he).segments_ascending
        · exact hsoundRest g hg

/-- Resolution finds the provenance of whatever it keeps, and what it
keeps stands in order. -/
theorem resolve_total {detections : List GlobalDetection}
    (hsound : ∀ d ∈ detections, Sound limit d) :
    ∃ resolved, resolve detections = .ok resolved ∧
      (∀ g ∈ resolved, Sound limit g) ∧
      resolved.Pairwise (fun a b => a.entity.stop ≤ b.entity.start) := by
  obtain ⟨resolved, hresolved, hsoundResolved⟩ := attach_total hsound
    (Detection.resolveOverlaps entityPriority
      (detections.map GlobalDetection.entity))
    (fun e he => Detection.mem_of_mem_resolveOverlaps he)
  refine ⟨resolved, hresolved, hsoundResolved, ?_⟩
  have hchain := @Detection.resolveOverlaps_chain entityPriority
    (detections.map GlobalDetection.entity)
  rw [← attach_ok _ hresolved] at hchain
  exact List.pairwise_map.mp hchain

-- ==================================================== pages

/-- The page and the range share a character. -/
def PageRef.Shares (page : PageRef) (start stop : Nat) : Prop :=
  ∃ offset, page.start ≤ offset ∧ offset < page.stop ∧
    start ≤ offset ∧ offset < stop

theorem PageRef.shares_iff {page : PageRef} {start stop : Nat} :
    page.Shares start stop ↔ max page.start start < min page.stop stop := by
  unfold Shares
  constructor
  · rintro ⟨offset, h1, h2, h3, h4⟩
    omega
  · intro h
    exact ⟨max page.start start, by omega, by omega, by omega, by omega⟩

instance (page : PageRef) (start stop : Nat) :
    Decidable (page.Shares start stop) :=
  decidable_of_iff _ PageRef.shares_iff.symm

/-- Some page of a tiling has a character of every range in the buffer. -/
theorem exists_page (pages : List PageRef) {start stop : Nat}
    (hforward : start < stop) (hstop : stop ≤ limit) :
    ∀ expected, PagesTile limit expected pages → expected ≤ start →
      ∃ page ∈ pages, page.start < stop ∧ start < page.stop := by
  induction pages with
  | nil =>
      intro expected htile hexpected
      have htile : expected = limit := htile
      omega
  | cons page pages ih =>
      intro expected htile hexpected
      obtain ⟨hstart, hrest⟩ := htile
      by_cases hpage : start < page.stop
      · exact ⟨page, List.mem_cons_self, by omega, hpage⟩
      · obtain ⟨found, hfound, hrange⟩ := ih page.stop hrest (by omega)
        exact ⟨found, List.mem_cons_of_mem _ hfound, hrange⟩

/-- A range in the buffer is covered by some page. -/
theorem pagesCovering_total (document : ExtractedDocument) {start stop : Nat}
    (hforward : start < stop) (hstop : stop ≤ document.text.length) :
    ∃ pages, document.pagesCovering start stop = .ok pages ∧
      pages ≠ [] := by
  obtain ⟨page, hpage, hrange⟩ := exists_page document.pages hforward hstop
    0 document.pages_tile (Nat.zero_le start)
  have hmem : page ∈ document.pages.filter (fun page =>
      decide (page.start < stop ∧ start < page.stop)) :=
    List.mem_filter.mpr ⟨hpage, decide_eq_true hrange⟩
  unfold ExtractedDocument.pagesCovering
  rw [if_neg (by omega), if_neg (by omega)]
  exact ⟨_, rfl, List.ne_nil_of_mem (List.mem_map_of_mem hmem)⟩

/-- The pages of a span, where only the end of the buffer can be an empty
page: those it shares a character with. -/
theorem pages_of_span {document : ExtractedDocument}
    (hpages : ∀ page ∈ document.pages,
      page.start < page.stop ∨ page.start = document.text.length)
    {start stop : Nat} (hforward : start < stop)
    (hstop : stop ≤ document.text.length) :
    document.pagesCovering start stop = .ok ((document.pages.filter
      (fun page => decide (page.Shares start stop))).map
        PageRef.number) := by
  have hsame : ∀ page ∈ document.pages,
      (page.start < stop ∧ start < page.stop) ↔
        page.Shares start stop := by
    intro page hpage
    rw [PageRef.shares_iff]
    rcases hpages page hpage with hnonempty | hend
    · omega
    · have := page.range_forward
      omega
  have hfilter : document.pages.filter (fun page =>
        decide (page.start < stop ∧ start < page.stop)) =
      document.pages.filter (fun page =>
        decide (page.Shares start stop)) := by
    apply List.filter_congr
    intro page hpage
    exact decide_eq_decide.mpr (hsame page hpage)
  unfold ExtractedDocument.pagesCovering
  rw [if_neg (by omega), if_neg (by omega), hfilter]

-- ==================================================== labeling

theorem blockedEntityType_none {policy : PolicySnapshot}
    {detections : List GlobalDetection}
    (h : blockedEntityType policy detections = none) :
    ∀ g ∈ detections, policy.actionFor g.entity.entityType ≠ .block := by
  induction detections with
  | nil => exact fun g hg => nomatch hg
  | cons detection detections ih =>
      unfold blockedEntityType at h
      split at h
      · cases h
      · rename_i hallowed
        intro g hg
        rcases List.mem_cons.mp hg with rfl | hg
        · exact hallowed
        · exact ih h g hg

/-- The span is the detection's, with the policy's action. -/
structure Labels (document : ExtractedDocument) (policy : PolicySnapshot)
    (detection : GlobalDetection) (span : LabeledSpan) : Prop where
  entityType_eq : span.entityType = detection.entity.entityType
  start_eq : span.start = detection.entity.start
  stop_eq : span.stop = detection.entity.stop
  score_eq : span.score = detection.entity.score
  action_eq : span.action = policy.actionFor detection.entity.entityType
  segments_eq : span.segments = detection.segments
  pages_eq : document.pagesCovering span.start span.stop = .ok span.pages

/-- Labeling names each detection, in order. -/
theorem label_forall {document : ExtractedDocument}
    {policy : PolicySnapshot} (detections : List GlobalDetection) :
    ∀ {spans : List LabeledSpan},
      label document policy detections = .ok spans →
        List.Forall₂ (Labels document policy) detections spans := by
  induction detections with
  | nil =>
      intro spans h
      cases h
      exact .nil
  | cons detection detections ih =>
      intro spans h
      unfold label at h
      cases hpages : document.pagesCovering detection.entity.start
          detection.entity.stop with
      | error e =>
          rw [hpages] at h
          cases h
      | ok pages =>
          simp only [hpages] at h
          cases hspan : labelSpan detection.entity
              (policy.actionFor detection.entity.entityType) pages
                detection.segments with
          | error e =>
              simp only [hspan] at h
              cases h
          | ok span =>
              simp only [hspan] at h
              cases hrest : label document policy detections with
              | error e =>
                  simp only [hrest] at h
                  cases h
              | ok rest =>
                  simp only [hrest] at h
                  cases h
                  refine .cons ?_ (ih hrest)
                  unfold labelSpan at hspan
                  split at hspan
                  · cases hspan
                  · split at hspan
                    · cases hspan
                    · split at hspan
                      · cases hspan
                      · cases hspan
                        exact ⟨rfl, rfl, rfl, rfl, rfl, rfl, hpages⟩

/-- Sound detections that are not blocked are labeled. -/
theorem label_total {document : ExtractedDocument} {policy : PolicySnapshot}
    (detections : List GlobalDetection)
    (hsound : ∀ g ∈ detections, Sound document.text.length g)
    (hallowed : ∀ g ∈ detections,
      policy.actionFor g.entity.entityType ≠ .block) :
    ∃ spans, label document policy detections = .ok spans := by
  induction detections with
  | nil => exact ⟨[], rfl⟩
  | cons detection detections ih =>
      obtain ⟨rest, hrest⟩ := ih
        (fun g hg => hsound g (List.mem_cons_of_mem _ hg))
        (fun g hg => hallowed g (List.mem_cons_of_mem _ hg))
      have hfirst := hsound detection List.mem_cons_self
      obtain ⟨pages, hcovering, hnonempty⟩ := pagesCovering_total document
        detection.entity.span_forward hfirst.inside
      unfold label labelSpan
      rw [hcovering]
      simp only
      rw [dif_neg (hallowed detection List.mem_cons_self),
        dif_neg hnonempty, dif_neg hfirst.segments_nonempty]
      simp only [hrest]
      exact ⟨_, rfl⟩

/-- Spans one after the other, inside the buffer, are in order. -/
theorem spansOrdered_of_chain (spans : List LabeledSpan) :
    ∀ previousEnd, (∀ span ∈ spans, previousEnd ≤ span.start) →
      spans.Pairwise (fun a b => a.stop ≤ b.start) →
      (∀ span ∈ spans, span.stop ≤ limit) →
        SpansOrdered limit previousEnd spans := by
  induction spans with
  | nil => exact fun _ _ _ _ => trivial
  | cons span spans ih =>
      intro previousEnd hprevious hchain hlimit
      obtain ⟨hnext, hrest⟩ := List.pairwise_cons.mp hchain
      refine ⟨hprevious span List.mem_cons_self,
        hlimit span List.mem_cons_self, ?_⟩
      exact ih span.stop hnext hrest
        (fun other hother => hlimit other (List.mem_cons_of_mem _ hother))

theorem chain_of_labels {document : ExtractedDocument}
    {policy : PolicySnapshot} {detections : List GlobalDetection}
    {spans : List LabeledSpan}
    (h : List.Forall₂ (Labels document policy) detections spans)
    (hchain : detections.Pairwise
      (fun a b => a.entity.stop ≤ b.entity.start)) :
    spans.Pairwise (fun a b => a.stop ≤ b.start) := by
  induction h with
  | nil => exact List.Pairwise.nil
  | @cons detection span detections spans hlabels hrest ih =>
      obtain ⟨hfirst, hchain⟩ := List.pairwise_cons.mp hchain
      refine List.pairwise_cons.mpr ⟨?_, ih hchain⟩
      intro other hother
      obtain ⟨d, hd, hotherLabels⟩ := Aligned.exists_left hrest hother
      rw [hlabels.stop_eq, hotherLabels.start_eq]
      exact hfirst d hd

/-- Sound detections one after the other, within the budget and with
nothing blocked, are analyzed: each is labeled, in order. -/
theorem analyzeSegments_total {policy : PolicySnapshot}
    {segmented : SegmentedDocument} {maxEntities : Nat}
    {runs : List (Segment × List DetectedEntity)}
    {detections resolved : List GlobalDetection}
    (hpromote : promoteAll runs = .ok detections)
    (hresolve : resolve (selectConfident policy (coalesce detections)) =
      .ok resolved)
    (hsound : ∀ g ∈ resolved, Sound segmented.document.text.length g)
    (hchain : resolved.Pairwise (fun a b => a.entity.stop ≤ b.entity.start))
    (hbudget : resolved.length ≤ maxEntities)
    (hblocked : blockedEntityType policy resolved = none)
    (tenantId documentId : UUID) :
    ∃ analyzed, analyzeSegments policy tenantId documentId segmented
        maxEntities runs = .ok analyzed ∧
      analyzed.segmented = segmented ∧
      List.Forall₂ (Labels segmented.document policy) resolved
        analyzed.spans := by
  obtain ⟨spans, hlabel⟩ := label_total resolved hsound
    (blockedEntityType_none hblocked)
  have hlabels := label_forall resolved hlabel
  have hinside : ∀ span ∈ spans,
      span.stop ≤ segmented.document.text.length := by
    intro span hspan
    obtain ⟨g, hg, hlabeled⟩ := Aligned.exists_left hlabels hspan
    rw [hlabeled.stop_eq]
    exact (hsound g hg).inside
  have hordered := spansOrdered_of_chain spans 0
    (fun _ _ => Nat.zero_le _) (chain_of_labels hlabels hchain) hinside
  refine ⟨⟨tenantId, documentId, segmented, spans, policy, hordered⟩, ?_,
    rfl, hlabels⟩
  unfold analyzeSegments
  simp only [hpromote, hresolve, bind, Except.bind, hblocked, hlabel]
  rw [if_neg (Nat.not_lt.mpr hbudget), dif_pos hordered]
  rfl

-- ==================================================== the checkpoint

/-- What the checkpoint says of an analysis: the spans stand one after the
other in the buffer, each with its segments in order and with the pages it
shares a character with. -/
structure Checked (analyzed : AnalyzedDocument) : Prop where
  chain : analyzed.spans.Pairwise (fun a b => a.stop ≤ b.start)
  inside : ∀ span ∈ analyzed.spans,
    span.stop ≤ analyzed.segmented.document.text.length
  segments : ∀ span ∈ analyzed.spans,
    span.segments ≠ [] ∧ span.segments.Pairwise (· < ·)
  pages : ∀ span ∈ analyzed.spans, span.pages ≠ [] ∧
    span.pages = (analyzed.segmented.document.pages.filter
      (fun page => decide (page.Shares span.start span.stop))).map
        PageRef.number

/-- For any pages, any segments inside the buffer and any detections inside
their segments, resolution succeeds, and with it the whole analysis unless
the document is over budget or holds what the policy blocks. -/
theorem checkpoint_never_fails {pageTexts : List Text} {separator : Text}
    {document : ExtractedDocument}
    (hbuild : buildExtractedDocument pageTexts separator = .ok document)
    (hseparator : separator ≠ []) {segmented : SegmentedDocument}
    (hdocument : segmented.document = document)
    (hsegments : ∀ segment ∈ segmented.segments,
      segment.stop ≤ document.text.length)
    {runs : List (Segment × List DetectedEntity)}
    (hruns : ∀ run ∈ runs, run.1 ∈ segmented.segments)
    (hentities : ∀ run ∈ runs, ∀ e ∈ run.2, e.stop ≤ run.1.length)
    (policy : PolicySnapshot) (tenantId documentId : UUID)
    (maxEntities : Nat) :
    ∃ detections resolved, promoteAll runs = .ok detections ∧
      resolve (selectConfident policy (coalesce detections)) =
        .ok resolved ∧
      (resolved.length ≤ maxEntities →
        blockedEntityType policy resolved = none →
          ∃ analyzed, analyzeSegments policy tenantId documentId segmented
            maxEntities runs = .ok analyzed ∧ Checked analyzed) := by
  subst hdocument
  have hpages := pages_of_build hseparator hbuild
  obtain ⟨detections, hpromote, hsound⟩ := promoteAll_of_within runs
    (fun run hrun => hsegments run.1 (hruns run hrun)) hentities
  obtain ⟨resolved, hresolve, hsoundResolved, hchain⟩ := resolve_total
    (fun d hd => coalesce_sound hsound d (List.mem_of_mem_filter hd) :
      ∀ d ∈ selectConfident policy (coalesce detections), Sound _ d)
  refine ⟨detections, resolved, hpromote, hresolve, ?_⟩
  intro hbudget hblocked
  obtain ⟨analyzed, hrun, hsegmented, hlabels⟩ := analyzeSegments_total
    hpromote hresolve hsoundResolved hchain hbudget hblocked tenantId
      documentId
  have hinside : ∀ span ∈ analyzed.spans,
      span.stop ≤ segmented.document.text.length := by
    intro span hspan
    obtain ⟨g, hg, hlabeled⟩ := Aligned.exists_left hlabels hspan
    rw [hlabeled.stop_eq]
    exact (hsoundResolved g hg).inside
  refine ⟨analyzed, hrun, chain_of_labels hlabels hchain, ?_, ?_, ?_⟩
  · rw [hsegmented]
    exact hinside
  · intro span hspan
    obtain ⟨g, hg, hlabeled⟩ := Aligned.exists_left hlabels hspan
    rw [hlabeled.segments_eq]
    exact ⟨(hsoundResolved g hg).segments_nonempty,
      (hsoundResolved g hg).segments_ascending⟩
  · intro span hspan
    obtain ⟨g, hg, hlabeled⟩ := Aligned.exists_left hlabels hspan
    have hcovering := pages_of_span hpages span.span_forward
      (hinside span hspan)
    have heq := hlabeled.pages_eq
    rw [hcovering] at heq
    injection heq with heq
    rw [hsegmented]
    exact ⟨span.pages_nonempty, heq.symm⟩

/-- Three pages, the second without text. -/
def threePages : ExtractedDocument where
  text := "Hi\n\na@b.co".toList
  pages := [⟨1, 0, 3, Bounds.one_le_one, Bounds.zero_le_three⟩,
    ⟨2, 3, 4, Bounds.one_le_two, by decide⟩,
    ⟨3, 4, 10, by decide, by decide⟩]
  pages_nonempty := by decide
  pages_tile := by decide

def threeSegments : SegmentedDocument where
  document := threePages
  segments := [⟨0, 0, 10, [1, 2, 3], Bounds.zero_lt_ten⟩,
    ⟨1, 4, 10, [3], Bounds.four_lt_ten⟩]

/-- The address on the third page, seen from both segments. -/
def threeRuns : List (Segment × List DetectedEntity) :=
  [(⟨0, 0, 10, [1, 2, 3], Bounds.zero_lt_ten⟩,
      [⟨emailAddressType, 4, 10, 9 / 10, none, Bounds.four_lt_ten,
        Bounds.nineTenths⟩]),
    (⟨1, 4, 10, [3], Bounds.four_lt_ten⟩,
      [⟨emailAddressType, 0, 6, 1, none, Bounds.zero_lt_six, Bounds.whole⟩])]

theorem checkpoint_never_fails_threePages :
    ∃ analyzed, analyzeSegments evenPolicy ⟨2⟩ ⟨3⟩ threeSegments 5
      threeRuns = .ok analyzed ∧ Checked analyzed := by
  have hbuild : buildExtractedDocument
      ["Hi".toList, [], "a@b.co".toList] "\n".toList =
        .ok threePages := by decide +kernel
  have hknown : (promoteAll threeRuns).bind (fun detections =>
      resolve (selectConfident evenPolicy (coalesce detections))) =
        .ok [⟨⟨emailAddressType, 4, 10, 1, none, Bounds.four_lt_ten,
          Bounds.whole⟩, [0, 1]⟩] := by decide +kernel
  obtain ⟨detections, resolved, hpromote, hresolve, hanalyzed⟩ :=
    @checkpoint_never_fails _ _ _ hbuild (by decide) threeSegments rfl
      (by decide) threeRuns (by decide) (by decide) evenPolicy ⟨2⟩ ⟨3⟩ 5
  simp only [hpromote, Except.bind, hresolve] at hknown
  cases hknown
  exact hanalyzed (by decide) (by decide +kernel)

end PrivacyGateway.Documents
