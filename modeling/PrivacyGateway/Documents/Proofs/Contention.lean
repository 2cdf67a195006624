/-
What resolving overlaps twice can lose.

A segment reports the kernel of its candidates. What is labeled is the
kernel of everything the segments report, moved into the document, that
the policy is sure of (`resolved_isKernel`): the copies of a value that
overlapping segments report add nothing, since a copy that coalescing
absorbs is beaten in its own place by the one that absorbs it.

So a value that lost inside its segment is lost when the span it lost to
is beaten by one of another segment that does not reach the value
(`adjacent_segment_uncovers`). `candidate_labeled` rules that out by the
candidates alone (`Uncrossed`), and says of the reported spans which
values are labeled.
-/
import PrivacyGateway.Detection.Proofs.Hiding
import PrivacyGateway.Detection.Proofs.Resolution
import PrivacyGateway.Documents.Proofs.Coalescing

namespace PrivacyGateway.Documents

open Detection Selection Tokenization

-- ==================================================== the contest

/-- What the segments report, in the document, as far as the policy is sure
of it. -/
def sureSpans (policy : PolicySnapshot)
    (runs : List (Segment × List DetectedEntity)) : List DetectedEntity :=
  (runs.flatMap (fun run =>
    run.2.map (fun e => (moved run.1 e).entity))).filter
      (isConfident policy)

theorem mem_sureSpans {policy : PolicySnapshot}
    {runs : List (Segment × List DetectedEntity)} {e : DetectedEntity} :
    e ∈ sureSpans policy runs ↔ ∃ run ∈ runs, ∃ k ∈ run.2,
      e = (moved run.1 k).entity ∧
        policy.minScoreFor k.entityType ≤ k.score := by
  unfold sureSpans
  simp only [List.mem_filter, List.mem_flatMap, List.mem_map,
    isConfident_iff]
  constructor
  · rintro ⟨⟨run, hrun, k, hk, rfl⟩, hsure⟩
    exact ⟨run, hrun, k, hk, rfl, hsure⟩
  · rintro ⟨run, hrun, k, hk, rfl, hsure⟩
    exact ⟨⟨run, hrun, k, hk, rfl⟩, hsure⟩

section Contest

variable {policy : PolicySnapshot} {tenantId documentId : UUID}
  {segmented : SegmentedDocument} {maxEntities : Nat}
  {runs : List (Segment × List DetectedEntity)}
  {analyzed : AnalyzedDocument} {detections resolved : List GlobalDetection}

theorem entity_eq_of_key {a b : DetectedEntity}
    (hkey : spanKey a = spanKey b) (hscore : a.score = b.score)
    (hname : a.recognizer = b.recognizer) : a = b := by
  unfold spanKey at hkey
  obtain ⟨entityType, start, stop, score, recognizer, _, _⟩ := a
  obtain ⟨entityType', start', stop', score', recognizer', _, _⟩ := b
  simp only [Prod.mk.injEq] at hkey hscore hname
  obtain ⟨rfl, rfl, rfl⟩ := hkey
  subst hscore hname
  rfl

/-- Spans in one place overlap the same spans. -/
theorem overlaps_eq_of_key {a b : DetectedEntity}
    (hkey : spanKey a = spanKey b) (k : DetectedEntity) :
    a.overlaps k = b.overlaps k := by
  unfold spanKey at hkey
  simp only [Prod.mk.injEq] at hkey
  unfold DetectedEntity.overlaps
  rw [hkey.2.1, hkey.2.2]

/-- A better copy of a span precedes it. -/
theorem dominanceKey_lt_of_copy {priority : Dict Text Int}
    {a b : DetectedEntity} (hkey : spanKey b = spanKey a)
    (hscore : a.score < b.score) :
    dominanceKey priority b < dominanceKey priority a := by
  unfold spanKey at hkey
  simp only [Prod.mk.injEq] at hkey
  unfold dominanceKey
  refine Prod.Lex.lt_iff.mpr (Or.inr ⟨by simp [hkey.1], ?_⟩)
  exact Prod.Lex.lt_iff.mpr (Or.inl (by simpa using hscore))

/-- What the segments detected, moved into the document. -/
theorem Staged.detections_eq
    (h : Staged policy segmented maxEntities runs detections resolved
      analyzed) :
    detections = runs.flatMap (fun run => run.2.map (moved run.1)) := by
  have hpromoted := h.promoted
  rw [promoteAll_eq] at hpromoted
  split at hpromoted
  · exact (Except.ok.inj hpromoted).symm
  · cases hpromoted

theorem Staged.mem_detections_iff
    (h : Staged policy segmented maxEntities runs detections resolved
      analyzed) {d : GlobalDetection} :
    d ∈ detections ↔ ∃ run ∈ runs, ∃ k ∈ run.2, moved run.1 k = d := by
  rw [h.detections_eq]
  simp only [List.mem_flatMap, List.mem_map]

theorem Staged.coalesced
    (h : Staged policy segmented maxEntities runs detections resolved
      analyzed) : Coalesced detections (coalesce detections) := by
  apply coalesce_coalesced
  intro d hd
  obtain ⟨run, -, k, -, rfl⟩ := h.mem_detections_iff.mp hd
  exact ⟨List.pairwise_singleton _ _, rfl⟩

/-- What coalescing leaves, and the policy is sure of, was reported. -/
theorem mem_sureSpans_of_coalesced
    (h : Staged policy segmented maxEntities runs detections resolved
      analyzed) {g : GlobalDetection}
    (hg : g ∈ selectConfident policy (coalesce detections)) :
    g.entity ∈ sureSpans policy runs := by
  obtain ⟨hg, hsure⟩ := List.mem_filter.mp hg
  have hmerges := h.coalesced.merges g hg
  obtain ⟨d, hd, hkey, hscore⟩ := hmerges.attained
  obtain ⟨run, hrun, k, hk, rfl⟩ := h.mem_detections_iff.mp hd
  have hsame : g.entity = (moved run.1 k).entity :=
    entity_eq_of_key hkey.symm hscore.symm hmerges.tidy.anonymous
  have hsure := of_decide_eq_true hsure
  rw [hsame] at hsure
  exact mem_sureSpans.mpr ⟨run, hrun, k, hk, hsame, hsure⟩

/-- A reported span that the policy is sure of is left by coalescing, or a
better copy of it is. -/
theorem exists_better_copy
    (h : Staged policy segmented maxEntities runs detections resolved
      analyzed) {a : DetectedEntity} (ha : a ∈ sureSpans policy runs) :
    ∃ g ∈ selectConfident policy (coalesce detections),
      spanKey g.entity = spanKey a ∧
        (g.entity = a ∨ a.score < g.entity.score) := by
  obtain ⟨run, hrun, k, hk, rfl, hsure⟩ := mem_sureSpans.mp ha
  have hd : moved run.1 k ∈ detections :=
    h.mem_detections_iff.mpr ⟨run, hrun, k, hk, rfl⟩
  obtain ⟨g, hg, hkey⟩ := h.coalesced.covers _ hd
  have hmerges := h.coalesced.merges g hg
  have hbest := hmerges.best _ hd hkey.symm
  have hspan : spanKey g.entity = spanKey (moved run.1 k).entity := hkey
  have htype : g.entity.entityType = k.entityType :=
    congrArg (fun key : SpanKey => key.1) hspan
  refine ⟨g, List.mem_filter.mpr ⟨hg, decide_eq_true ?_⟩, hspan, ?_⟩
  · rw [htype]
    exact hsure.trans hbest
  · rcases lt_or_eq_of_le hbest with hlt | heq
    · exact Or.inr hlt
    · exact Or.inl (entity_eq_of_key hspan heq.symm hmerges.tidy.anonymous)

/-- The spans left to label are the kernel of what the segments report and
the policy is sure of. -/
theorem resolved_isKernel
    (h : Staged policy segmented maxEntities runs detections resolved
      analyzed) :
    IsKernel (dominanceKey entityPriority) DetectedEntity.overlaps
      {e | e ∈ sureSpans policy runs}
      {e | e ∈ resolved.map GlobalDetection.entity} := by
  -- what resolution is given: one entry for each type and range
  have hkernel := @resolveOverlaps_isKernel entityPriority
    ((selectConfident policy (coalesce detections)).map
      GlobalDetection.entity) (by
        intro e he
        obtain ⟨g, hg, rfl⟩ := List.mem_map.mp he
        have hname := (h.coalesced.merges g
          (List.mem_of_mem_filter hg)).tidy.anonymous
        exact fun hempty => nomatch hname.symm.trans hempty)
  rw [← attach_ok _ h.resolves] at hkernel
  refine hkernel.with_copies ?_ ?_
  · intro e he
    obtain ⟨g, hg, rfl⟩ := List.mem_map.mp he
    exact mem_sureSpans_of_coalesced h hg
  · intro a ha hout
    obtain ⟨g, hg, hspan, rfl | hlt⟩ := exists_better_copy h ha
    · exact absurd (List.mem_map_of_mem hg) hout
    · refine ⟨g.entity, List.mem_map_of_mem hg,
        dominanceKey_lt_of_copy hspan hlt, ?_, ?_⟩
      · rw [overlaps_eq_of_key hspan.symm]
        exact g.entity.overlaps_self
      · intro k hk
        rw [overlaps_eq_of_key hspan.symm]
        exact hk

end Contest

-- ==================================================== candidates

/-- The range of a span, moved by the segment's start, overlaps a labeled
span. -/
def Labeled (analyzed : AnalyzedDocument) (segment : Segment)
    (start stop : Int) : Prop :=
  ∃ span ∈ analyzed.spans, (segment.start : Int) + start < span.stop ∧
    (span.start : Int) < segment.start + stop

instance (analyzed : AnalyzedDocument) (segment : Segment)
    (start stop : Int) : Decidable (Labeled analyzed segment start stop) :=
  inferInstanceAs (Decidable (∃ span ∈ analyzed.spans, _ ∧ _))

/-- The candidate's range in the document overlaps the span. -/
def Reaches (segment : Segment) (c : Candidate) (e : DetectedEntity) :
    Prop :=
  (segment.start : Int) + c.start < e.stop ∧
    (e.start : Int) < segment.start + c.stop

/-- The ranges of two candidates overlap, each moved by an offset. -/
def Meets (offset : Nat) (c : Candidate) (offset' : Nat) (c' : Candidate) :
    Prop :=
  (offset : Int) + c.start < offset' + c'.stop ∧
    (offset' : Int) + c'.start < offset + c.stop

instance (offset : Nat) (c : Candidate) (offset' : Nat) (c' : Candidate) :
    Decidable (Meets offset c offset' c') :=
  inferInstanceAs (Decidable (_ ∧ _))

/-- The dominance key of a candidate moved by an offset. -/
def rankIn (priority : Dict Text Int) (offset : Nat) (c : Candidate) :
    DominanceKey :=
  toLex (-severityOf priority c.entityType,
    toLex (-clampScore c.score, toLex (-(c.stop - c.start),
      toLex ((offset + c.start).toNat, toLex (c.entityType,
        c.recognizer.getD [])))))

/-- A candidate on the document's coordinates, where recognizers are not
named. -/
def unnamed (c : Candidate) : Candidate :=
  { c with recognizer := none }

/-- Where a candidate of a segment may be kept in another's place, and one
of another segment would be kept in the place of that, the last overlaps
the first. -/
def Uncrossed (priority : Dict Text Int)
    (scans : List (Segment × List Candidate)) : Prop :=
  ∀ scan ∈ scans, ∀ other ∈ scans, other ≠ scan →
    ∀ c ∈ scan.2, ∀ k ∈ scan.2, Meets 0 c 0 k →
      rankIn priority 0 k ≤ rankIn priority 0 c →
        ∀ f ∈ other.2, Meets scan.1.start k other.1.start f →
          rankIn entityPriority other.1.start (unnamed f) <
              rankIn entityPriority scan.1.start (unnamed k) →
            Meets scan.1.start c other.1.start f

instance (scans : List (Segment × List Candidate))
    (priority : Dict Text Int) :
    Decidable (Uncrossed priority scans) := by
  unfold Uncrossed
  infer_instance

theorem rankIn_of_stands {priority : Dict Text Int} {c : Candidate}
    {e : DetectedEntity} (h : Stands c e) :
    dominanceKey priority e = rankIn priority 0 c := by
  have hlength : (e.length : Int) = c.stop - c.start := by
    have := h.start_eq
    have := h.stop_eq
    have := e.span_forward
    unfold DetectedEntity.length
    omega
  have hstart : e.start = (((0 : Nat) : Int) + c.start).toNat := by
    have := h.start_eq
    omega
  unfold dominanceKey rankIn
  rw [hlength, hstart, h.entityType_eq, h.score_eq, h.recognizer_eq]

theorem rankIn_of_moved {priority : Dict Text Int} {c : Candidate}
    {e : DetectedEntity} (h : Stands c e) (segment : Segment) :
    dominanceKey priority (moved segment e).entity =
      rankIn priority segment.start (unnamed c) := by
  have hlength : ((moved segment e).entity.length : Int) =
      c.stop - c.start := by
    have := h.start_eq
    have := h.stop_eq
    have := e.span_forward
    unfold DetectedEntity.length moved
    simp only
    omega
  have hstart : (moved segment e).entity.start =
      ((segment.start : Int) + c.start).toNat := by
    have := h.start_eq
    show segment.start + e.start = _
    omega
  unfold dominanceKey rankIn unnamed
  rw [hlength, hstart, ← h.entityType_eq, ← h.score_eq]
  rfl

/-- Where a span that stands for a candidate is in the document. -/
theorem start_moved {c : Candidate} {e : DetectedEntity} (h : Stands c e)
    (segment : Segment) :
    ((moved segment e).entity.start : Int) = segment.start + c.start := by
  rw [← h.start_eq]
  exact Nat.cast_add _ _

theorem stop_moved {c : Candidate} {e : DetectedEntity} (h : Stands c e)
    (segment : Segment) :
    ((moved segment e).entity.stop : Int) = segment.start + c.stop := by
  rw [← h.stop_eq]
  exact Nat.cast_add _ _

theorem overlaps_moved_iff {c c' : Candidate} {e e' : DetectedEntity}
    (h : Stands c e) (h' : Stands c' e') (segment segment' : Segment) :
    (moved segment e).entity.overlaps (moved segment' e').entity = true ↔
      Meets segment.start c segment'.start c' := by
  rw [DetectedEntity.overlaps_iff]
  unfold Meets
  rw [← start_moved h, ← stop_moved h, ← start_moved h', ← stop_moved h']
  exact and_congr Int.ofNat_lt.symm Int.ofNat_lt.symm

/-- A candidate reaches the span of another one when the two meet. -/
theorem reaches_moved_iff {c c' : Candidate} {e : DetectedEntity}
    (h : Stands c' e) (segment segment' : Segment) :
    Reaches segment c (moved segment' e).entity ↔
      Meets segment.start c segment'.start c' := by
  unfold Reaches Meets
  rw [start_moved h, stop_moved h]

/-- Two candidates that meet still do when both are moved. -/
theorem Meets.shift {c c' : Candidate} (h : Meets 0 c 0 c') (offset : Nat) :
    Meets offset c offset c' := by
  obtain ⟨h1, h2⟩ := h
  exact ⟨by omega, by omega⟩

/-- A reported span stands for a candidate that passed the filters. -/
theorem stands_of_mem_finalize {unicode : Unicode} {config : DetectionConfig}
    {candidates : List Candidate} {text : Text}
    {result : List DetectedEntity}
    (hfin : finalize unicode config candidates text = .ok result)
    {k : DetectedEntity} (hk : k ∈ result) :
    ∃ c ∈ candidates, ∃ e, Passes unicode config text none c ∧
      Stands c e ∧ k = withoutRecognizer e := by
  obtain ⟨-, rfl⟩ := finalize_ok_iff.mp hfin
  obtain ⟨e, he, rfl⟩ := List.mem_map.mp hk
  obtain ⟨c, hc, haccept⟩ :=
    mem_survivors.mp (Detection.mem_of_mem_resolveOverlaps he)
  obtain ⟨hpass, hstands⟩ := accept_eq_some haccept
  exact ⟨c, hc, e, hpass, hstands, rfl⟩

/-- What one segment reports does not compete. -/
theorem not_beats_of_mem_finalize {unicode : Unicode}
    {config : DetectionConfig} {candidates : List Candidate} {text : Text}
    {result : List DetectedEntity}
    (hfin : finalize unicode config candidates text = .ok result)
    {segment : Segment} {k j : DetectedEntity} (hk : k ∈ result)
    (hj : j ∈ result) :
    ¬ Beats entityPriority (moved segment j).entity
      (moved segment k).entity := by
  rintro ⟨hlt, hover⟩
  have hne : k ≠ j := by
    rintro rfl
    exact lt_irrefl _ hlt
  have hapart := apart_of_chain (finalize_chain hfin) hk hj hne
  have hclash := DetectedEntity.overlaps_iff.mp hover
  unfold moved at hclash
  simp only at hclash
  omega

/-- Each segment's run holds what its candidates finalize to. -/
theorem mem_detectSegments {unicode : Unicode} {config : DetectionConfig}
    {segmented : SegmentedDocument}
    (scans : List (Segment × List Candidate)) :
    ∀ {runs : List (Segment × List DetectedEntity)},
      detectSegments unicode config segmented scans = .ok runs →
      (∀ scan ∈ scans, ∃ result,
        finalize unicode config scan.2 (segmented.textOf scan.1) =
          .ok result ∧ (scan.1, result) ∈ runs) ∧
      ∀ run ∈ runs, ∃ scan ∈ scans, scan.1 = run.1 ∧
        finalize unicode config scan.2 (segmented.textOf scan.1) =
          .ok run.2 := by
  induction scans with
  | nil =>
      intro runs h
      cases h
      exact ⟨fun scan hscan => (nomatch hscan),
        fun run hrun => (nomatch hrun)⟩
  | cons first scans ih =>
      intro runs h
      unfold detectSegments at h
      cases hfirst : finalize unicode config first.2
          (segmented.textOf first.1) with
      | error err =>
          rw [hfirst] at h
          cases h
      | ok entities =>
          rw [hfirst] at h
          cases hrest : detectSegments unicode config segmented scans with
          | error err =>
              rw [hrest] at h
              cases h
          | ok rest =>
              rw [hrest] at h
              cases h
              obtain ⟨hscans, hruns⟩ := ih hrest
              constructor
              · intro scan hscan
                rcases List.mem_cons.mp hscan with rfl | hscan
                · exact ⟨entities, hfirst, List.mem_cons_self⟩
                · obtain ⟨result, hresult, hmem⟩ := hscans scan hscan
                  exact ⟨result, hresult, List.mem_cons_of_mem _ hmem⟩
              · intro run hrun
                rcases List.mem_cons.mp hrun with rfl | hrun
                · exact ⟨first, List.mem_cons_self, rfl, hfirst⟩
                · obtain ⟨scan, hscan, hsame⟩ := hruns run hrun
                  exact ⟨scan, List.mem_cons_of_mem _ hscan, hsame⟩

section Candidates

variable {unicode : Unicode} {config : DetectionConfig}
  {policy : PolicySnapshot} {tenantId documentId : UUID}
  {segmented : SegmentedDocument} {maxEntities : Nat}
  {scans : List (Segment × List Candidate)}
  {runs : List (Segment × List DetectedEntity)}
  {analyzed : AnalyzedDocument}

/-- What is labeled is a kernel, over which a range is labeled when it
reaches a member. -/
theorem exists_labeled_kernel
    (hanalyze : analyzeSegments policy tenantId documentId segmented
      maxEntities runs = .ok analyzed) :
    ∃ kept, IsKernel (dominanceKey entityPriority) DetectedEntity.overlaps
        {e | e ∈ sureSpans policy runs} kept ∧
      ∀ (segment : Segment) (c : Candidate),
        Labeled analyzed segment c.start c.stop ↔
          ∃ e ∈ kept, Reaches segment c e := by
  obtain ⟨detections, resolved, hstaged⟩ := analyzeSegments_staged hanalyze
  have hlabels := label_forall _ hstaged.labeled
  refine ⟨_, resolved_isKernel hstaged, fun segment c => ⟨?_, ?_⟩⟩
  · rintro ⟨span, hspan, h1, h2⟩
    obtain ⟨g, hg, hsame⟩ := Aligned.exists_left hlabels hspan
    refine ⟨g.entity, List.mem_map.mpr ⟨g, hg, rfl⟩, ?_, ?_⟩
    · rw [← hsame.stop_eq]
      exact h1
    · rw [← hsame.start_eq]
      exact h2
  · rintro ⟨e, he, h1, h2⟩
    obtain ⟨g, hg, rfl⟩ := List.mem_map.mp he
    obtain ⟨span, hspan, hsame⟩ := Aligned.exists_right hlabels hg
    refine ⟨span, hspan, ?_, ?_⟩
    · rw [hsame.stop_eq]
      exact h1
    · rw [hsame.start_eq]
      exact h2

/-- A range is labeled when it reaches a reported span, and every one that
beats that span. -/
theorem labeled_of_reaches
    (hanalyze : analyzeSegments policy tenantId documentId segmented
      maxEntities runs = .ok analyzed) {segment : Segment} {c : Candidate}
    {k : DetectedEntity} (hk : k ∈ sureSpans policy runs)
    (hreaches : Reaches segment c k)
    (hbeaten : ∀ f ∈ sureSpans policy runs, Beats entityPriority f k →
      Reaches segment c f) :
    Labeled analyzed segment c.start c.stop := by
  obtain ⟨kept, hkernel, hlabeled⟩ := exists_labeled_kernel hanalyze
  refine (hlabeled segment c).mpr ?_
  by_cases hin : k ∈ kept
  · exact ⟨k, hin, hreaches⟩
  · obtain ⟨f, hf, hlt, hover⟩ := hkernel.covers hk hin
    exact ⟨f, hf, hbeaten f (hkernel.subset hf) ⟨hlt, hover⟩⟩

/-- Where no beaten span beats another, what is labeled is what reaches an
unbeaten one. -/
theorem labeled_iff_unbeaten
    (hanalyze : analyzeSegments policy tenantId documentId segmented
      maxEntities runs = .ok analyzed)
    (hflat : Flat entityPriority (sureSpans policy runs))
    (segment : Segment) (c : Candidate) :
    Labeled analyzed segment c.start c.stop ↔
      ∃ k ∈ sureSpans policy runs, Reaches segment c k ∧
        ∀ f ∈ sureSpans policy runs, ¬ Beats entityPriority f k := by
  obtain ⟨kept, hkernel, hlabeled⟩ := exists_labeled_kernel hanalyze
  rw [hlabeled]
  constructor
  · rintro ⟨k, hk, hreaches⟩
    have hmem := hkernel.subset hk
    exact ⟨k, hmem, hreaches,
      (mem_iff_unbeaten_of_flat hkernel hflat hmem).mp hk⟩
  · rintro ⟨k, hk, hreaches, hclear⟩
    exact ⟨k, (mem_iff_unbeaten_of_flat hkernel hflat hk).mpr hclear,
      hreaches⟩

/-- Uncrossed, a candidate that clears the thresholds is labeled, among
candidates that all do. -/
theorem labeled_of_uncrossed
    (hdetect : detectSegments unicode config segmented scans = .ok runs)
    (hanalyze : analyzeSegments policy tenantId documentId segmented
      maxEntities runs = .ok analyzed)
    (huncrossed : Uncrossed config.entityPriority scans)
    (hclear : ∀ scan ∈ scans, ∀ c ∈ scan.2,
      Passes unicode config (segmented.textOf scan.1) none c ∧
        policy.minScoreFor c.entityType ≤ c.score)
    {scan : Segment × List Candidate} (hscan : scan ∈ scans)
    {c : Candidate} (hc : c ∈ scan.2) :
    Labeled analyzed scan.1 c.start c.stop := by
  obtain ⟨hscans, hruns⟩ := mem_detectSegments scans hdetect
  obtain ⟨result, hfin, hrun⟩ := hscans scan hscan
  obtain ⟨e, k, hstands, -, hk, hmem, hover, hdom⟩ :=
    finalize_covers hfin hc (hclear scan hscan c hc).1
  obtain ⟨ck, hck, haccept⟩ := mem_survivors.mp hk
  obtain ⟨hpass, hkstands⟩ := accept_eq_some haccept
  have hsure : policy.minScoreFor (withoutRecognizer k).entityType ≤
      (withoutRecognizer k).score := by
    rw [withoutRecognizer_entityType, withoutRecognizer_score]
    exact (sure_iff_of_stands hpass hkstands).mpr (hclear scan hscan ck hck).2
  have hmeets : Meets 0 c 0 ck := by
    obtain ⟨h1, h2⟩ := hover
    have := hkstands.start_eq
    have := hkstands.stop_eq
    rw [withoutRecognizer_stop] at h1
    rw [withoutRecognizer_start] at h2
    exact ⟨by omega, by omega⟩
  have hreaches : Reaches scan.1 c
      (moved scan.1 (withoutRecognizer k)).entity :=
    (reaches_moved_iff hkstands scan.1 scan.1).mpr (hmeets.shift _)
  have hrank : rankIn config.entityPriority 0 ck ≤
      rankIn config.entityPriority 0 c := by
    rw [← rankIn_of_stands hkstands, ← rankIn_of_stands hstands]
    rcases hdom with rfl | hdom
    · exact le_refl _
    · exact hdom
  refine labeled_of_reaches hanalyze
    (mem_sureSpans.mpr ⟨_, hrun, _, hmem, rfl, hsure⟩) hreaches ?_
  intro f hf hbeats
  obtain ⟨run, hrunmem, j, hj, rfl, -⟩ := mem_sureSpans.mp hf
  obtain ⟨other, hother, hsegment, hotherFin⟩ := hruns run hrunmem
  by_cases hsame : other = scan
  · -- the spans of one segment do not beat one another
    rw [hsame] at hotherFin hsegment
    rw [hfin] at hotherFin
    rw [← Except.ok.inj hotherFin] at hj
    rw [← hsegment] at hbeats
    exact absurd hbeats (not_beats_of_mem_finalize hfin hmem hj)
  · obtain ⟨cf, hcf, f', -, hfstands, rfl⟩ :=
      stands_of_mem_finalize hotherFin hj
    refine (reaches_moved_iff hfstands scan.1 run.1).mpr ?_
    rw [← hsegment] at hbeats ⊢
    obtain ⟨hlt, hclash⟩ := hbeats
    refine huncrossed scan hscan other hother hsame c hc ck hck hmeets hrank
      cf hcf ((overlaps_moved_iff hkstands hfstands _ _).mp hclash) ?_
    rw [← rankIn_of_moved hfstands, ← rankIn_of_moved hkstands]
    exact hlt

/-- Which values the two resolutions keep. Where every candidate clears the
thresholds, all of them overlap a labeled span as long as no span of
another segment crosses between one and what its segment may keep in its
place. Of the spans that the segments do report, a value is labeled when it
reaches one together with all that beat it; and where no beaten span beats
another, exactly when it reaches an unbeaten one. -/
theorem candidate_labeled
    (hdetect : detectSegments unicode config segmented scans = .ok runs)
    (hanalyze : analyzeSegments policy tenantId documentId segmented
      maxEntities runs = .ok analyzed) :
    (Uncrossed config.entityPriority scans →
      (∀ scan ∈ scans, ∀ c ∈ scan.2,
        Passes unicode config (segmented.textOf scan.1) none c ∧
          policy.minScoreFor c.entityType ≤ c.score) →
      ∀ scan ∈ scans, ∀ c ∈ scan.2,
        Labeled analyzed scan.1 c.start c.stop) ∧
    (∀ (segment : Segment) (c : Candidate),
      (∃ k ∈ sureSpans policy runs, Reaches segment c k ∧
        ∀ f ∈ sureSpans policy runs, Beats entityPriority f k →
          Reaches segment c f) →
      Labeled analyzed segment c.start c.stop) ∧
    (Flat entityPriority (sureSpans policy runs) →
      ∀ (segment : Segment) (c : Candidate),
        Labeled analyzed segment c.start c.stop ↔
          ∃ k ∈ sureSpans policy runs, Reaches segment c k ∧
            ∀ f ∈ sureSpans policy runs, ¬ Beats entityPriority f k) := by
  refine ⟨fun huncrossed hclear scan hscan c hc => ?_, ?_, ?_⟩
  · exact labeled_of_uncrossed hdetect hanalyze huncrossed hclear hscan hc
  · rintro segment c ⟨k, hk, hreaches, hbeaten⟩
    exact labeled_of_reaches hanalyze hk hreaches hbeaten
  · exact labeled_iff_unbeaten hanalyze

end Candidates

-- ==================================================== on a fixed document

theorem range_first : 0 < 20 := by decide
theorem range_second : 12 < 27 := by decide

def sampleScans : List (Segment × List Candidate) :=
  [(⟨0, 0, 20, [1], range_first⟩,
      [⟨personType, 4, 11, 17 / 20, none⟩,
        ⟨emailAddressType, 8, 17, 9 / 10, none⟩]),
    (⟨1, 12, 27, [1], range_second⟩,
      [⟨usSsnType, 4, 15, 17 / 20, none⟩])]

/-- The same line without the name. -/
def addressScans : List (Segment × List Candidate) :=
  [(⟨0, 0, 20, [1], range_first⟩,
      [⟨emailAddressType, 8, 17, 9 / 10, none⟩]),
    (⟨1, 12, 27, [1], range_second⟩,
      [⟨usSsnType, 4, 15, 17 / 20, none⟩])]

/-- The address loses to the number, which overlaps it. -/
theorem address_labeled :
    Labeled sampleAnalyzed ⟨0, 0, 20, [1], by decide⟩ 8 17 := by
  have hdetect : detectSegments Unicode.ascii DetectionConfig.default
      sampleLine addressScans = .ok sampleRuns := by decide +kernel
  have hanalyze : analyzeSegments evenPolicy ⟨2⟩ ⟨3⟩ sampleLine
      defaultMaxEntities sampleRuns = .ok sampleAnalyzed := by
    decide +kernel
  have hclear : ∀ scan ∈ addressScans, ∀ c ∈ scan.2,
      Passes Unicode.ascii DetectionConfig.default
        (sampleLine.textOf scan.1) none c ∧
        evenPolicy.minScoreFor c.entityType ≤ c.score := by
    unfold addressScans
    simp only [List.forall_mem_cons, List.not_mem_nil, false_imp_iff,
      implies_true, and_true]
    refine ⟨⟨⟨?_, ?_, ?_, ?_, ?_⟩, ?_⟩, ⟨?_, ?_, ?_, ?_, ?_⟩, ?_⟩ <;>
      decide +kernel
  exact (candidate_labeled hdetect hanalyze).1 (by decide +kernel) hclear
    _ (List.mem_cons_self) ⟨emailAddressType, 8, 17, 9 / 10, none⟩
    (List.mem_cons_self)

/-- The first segment reports the address, which beats the name; the
number, seen whole only by the second segment, beats the address. The
name at `[4, 11)` clears every filter and overlaps nothing labeled. -/
theorem adjacent_segment_uncovers :
    detectSegments Unicode.ascii DetectionConfig.default sampleLine
      sampleScans = .ok sampleRuns ∧
    analyzeSegments evenPolicy ⟨2⟩ ⟨3⟩ sampleLine defaultMaxEntities
      sampleRuns = .ok sampleAnalyzed ∧
    Passes Unicode.ascii DetectionConfig.default
      (sampleLine.textOf ⟨0, 0, 20, [1], by decide⟩) none
      ⟨personType, 4, 11, 17 / 20, none⟩ ∧
    evenPolicy.minScoreFor personType ≤ 17 / 20 ∧
    ¬ Labeled sampleAnalyzed ⟨0, 0, 20, [1], by decide⟩ 4 11 := by
  exact ⟨by decide +kernel, by decide +kernel,
    ⟨by decide +kernel, by decide +kernel, by decide +kernel,
      by decide +kernel, by decide +kernel⟩, by decide +kernel,
    by decide +kernel⟩

example : ¬ Uncrossed DetectionConfig.default.entityPriority sampleScans := by
  decide +kernel

end PrivacyGateway.Documents
