/-
The two limits on the entities of a document.

The detector refuses a segment with more spans than its own cap, and the
analyzer refuses a document with more labeled spans than its budget. Both
raise the same error, the first before duplicates collapse and before the
policy's thresholds. `limitRaised_iff` is the disjunction of the two; so
the budget is the only limit except on a document within its budget that
has a segment over the cap (`budget_alone_iff`). Five hundred and one names
on one page are such a document (`crowded_page_refused`).
-/
import Mathlib.Algebra.Order.BigOperators.Group.List
import PrivacyGateway.Documents.Proofs.Checkpoint

namespace PrivacyGateway.Documents

open Detection

/-- The result is the error of a limit on entities. -/
def LimitRaised {α : Type} (result : Except Exn α) : Prop :=
  ∃ error, result = .error (.gateway error) ∧
    error.code = .entityLimitExceeded

variable {unicode : Unicode} {config : DetectionConfig}
  {segmented : SegmentedDocument}

-- ==================================================== the detector's cap

/-- What the detector reports in a segment, before its cap. -/
def reportedIn (unicode : Unicode) (config : DetectionConfig)
    (segmented : SegmentedDocument) (scan : Segment × List Candidate) :
    List DetectedEntity :=
  (resolveOverlaps config.entityPriority (survivors unicode config scan.2
    (segmented.textOf scan.1) none)).map withoutRecognizer

/-- Every segment with what is reported in it. -/
def uncapped (unicode : Unicode) (config : DetectionConfig)
    (segmented : SegmentedDocument)
    (scans : List (Segment × List Candidate)) :
    List (Segment × List DetectedEntity) :=
  scans.map (fun scan => (scan.1, reportedIn unicode config segmented scan))

/-- No segment alone is over the detector's cap. -/
def WithinCap (unicode : Unicode) (config : DetectionConfig)
    (segmented : SegmentedDocument)
    (scans : List (Segment × List Candidate)) : Prop :=
  ∀ scan ∈ scans, (reportedIn unicode config segmented scan).length ≤
    config.maxEntities

/-- What is reported in a segment ends inside it. -/
theorem stop_le_of_mem_reportedIn {scan : Segment × List Candidate}
    {e : DetectedEntity}
    (he : e ∈ reportedIn unicode config segmented scan) :
    e.stop ≤ scan.1.length := by
  obtain ⟨k, hk, rfl⟩ := List.mem_map.mp he
  obtain ⟨c, -, hc⟩ := mem_survivors.mp (mem_of_mem_resolveOverlaps hk)
  obtain ⟨hpass, hstands⟩ := accept_eq_some hc
  have hspan := hpass.span_valid
  have hstop := hstands.stop_eq
  have hlength := length_textOf_le segmented scan.1
  unfold Candidate.SpanIsValid at hspan
  rw [withoutRecognizer_stop]
  omega

/-- Within the cap, the detector returns it. -/
theorem finalize_of_within {scan : Segment × List Candidate}
    (h : (reportedIn unicode config segmented scan).length ≤
      config.maxEntities) :
    finalize unicode config scan.2 (segmented.textOf scan.1) =
      .ok (reportedIn unicode config segmented scan) := by
  unfold reportedIn at h
  rw [List.length_map] at h
  exact finalize_ok_iff.mpr ⟨h, rfl⟩

/-- Over the cap, it raises. -/
theorem finalize_of_over {scan : Segment × List Candidate}
    (h : ¬ (reportedIn unicode config segmented scan).length ≤
      config.maxEntities) :
    ∃ error, finalize unicode config scan.2 (segmented.textOf scan.1) =
        .error (.gateway error) ∧ error.code = .entityLimitExceeded := by
  unfold reportedIn at h
  rw [List.length_map, Nat.not_le] at h
  unfold finalize
  simp only
  rw [if_pos h]
  exact ⟨_, rfl, rfl⟩

theorem detectSegments_of_withinCap (scans : List (Segment × List Candidate))
    (h : WithinCap unicode config segmented scans) :
    detectSegments unicode config segmented scans =
      .ok (uncapped unicode config segmented scans) := by
  induction scans with
  | nil => rfl
  | cons scan scans ih =>
      obtain ⟨hscan, hscans⟩ := List.forall_mem_cons.mp h
      unfold detectSegments
      simp only [finalize_of_within hscan, ih hscans]
      rfl

/-- One segment over the cap refuses them all. -/
theorem detectSegments_of_overCap (scans : List (Segment × List Candidate))
    (h : ¬ WithinCap unicode config segmented scans) :
    ∃ error, detectSegments unicode config segmented scans =
        .error (.gateway error) ∧ error.code = .entityLimitExceeded := by
  induction scans with
  | nil => exact absurd (fun scan hscan => nomatch hscan) h
  | cons scan scans ih =>
      unfold detectSegments
      by_cases hscan : (reportedIn unicode config segmented scan).length ≤
          config.maxEntities
      · obtain ⟨error, hraised, hcode⟩ :=
          ih (fun hscans => h (List.forall_mem_cons.mpr ⟨hscan, hscans⟩))
        simp only [finalize_of_within hscan, hraised]
        exact ⟨error, rfl, hcode⟩
      · obtain ⟨error, hraised, hcode⟩ := finalize_of_over hscan
        simp only [hraised]
        exact ⟨error, rfl, hcode⟩

-- ==================================================== the budget

/-- More spans of the whole document are resolved than the budget
allows. -/
def OverBudget (policy : PolicySnapshot) (maxEntities : Nat)
    (runs : List (Segment × List DetectedEntity)) : Prop :=
  ∃ detections resolved, promoteAll runs = .ok detections ∧
    resolve (selectConfident policy (coalesce detections)) = .ok resolved ∧
    maxEntities < resolved.length

variable {policy : PolicySnapshot} {tenantId documentId : UUID}
  {maxEntities : Nat}

theorem pagesCovering_not_limitRaised {document : ExtractedDocument}
    {start stop : Nat} :
    ¬ LimitRaised (document.pagesCovering start stop) := by
  rintro ⟨error, hraised, hcode⟩
  unfold ExtractedDocument.pagesCovering at hraised
  split at hraised
  · cases hraised
    cases hcode
  · split at hraised
    · cases hraised
    · cases hraised

theorem labelSpan_not_limitRaised {entity : DetectedEntity}
    {action : EntityAction} {pages segments : List Nat} :
    ¬ LimitRaised (labelSpan entity action pages segments) := by
  rintro ⟨error, hraised, -⟩
  unfold labelSpan at hraised
  split at hraised
  · cases hraised
  · split at hraised
    · cases hraised
    · split at hraised
      · cases hraised
      · cases hraised

theorem label_not_limitRaised {document : ExtractedDocument}
    (detections : List GlobalDetection) :
    ¬ LimitRaised (label document policy detections) := by
  induction detections with
  | nil =>
      rintro ⟨error, hraised, -⟩
      cases hraised
  | cons detection detections ih =>
      rintro ⟨error, hraised, hcode⟩
      unfold label at hraised
      split at hraised
      · rename_i hpages
        cases hraised
        exact pagesCovering_not_limitRaised ⟨error, hpages, hcode⟩
      · split at hraised
        · rename_i hspan
          cases hraised
          exact labelSpan_not_limitRaised ⟨error, hspan, hcode⟩
        · split at hraised
          · rename_i hrest
            cases hraised
            exact ih ⟨error, hrest, hcode⟩
          · cases hraised

/-- Over spans inside their segments, the analyzer raises the error exactly
when the document is over budget. -/
theorem analyzeSegments_limitRaised_iff
    {runs : List (Segment × List DetectedEntity)}
    (hentities : ∀ run ∈ runs, ∀ e ∈ run.2, e.stop ≤ run.1.length) :
    LimitRaised (analyzeSegments policy tenantId documentId segmented
      maxEntities runs) ↔ OverBudget policy maxEntities runs := by
  obtain ⟨limit, hlimit⟩ : ∃ limit, ∀ run ∈ runs, run.1.stop ≤ limit :=
    ⟨(runs.map (fun run => run.1.stop)).sum, fun run hrun =>
      List.le_sum_of_mem (List.mem_map_of_mem hrun)⟩
  obtain ⟨detections, hpromote, hsound⟩ :=
    promoteAll_of_within runs hlimit hentities
  obtain ⟨resolved, hresolve, -, -⟩ := resolve_total
    (fun d hd => coalesce_sound hsound d (List.mem_of_mem_filter hd) :
      ∀ d ∈ selectConfident policy (coalesce detections), Sound limit d)
  have hover : OverBudget policy maxEntities runs ↔
      maxEntities < resolved.length := by
    constructor
    · rintro ⟨detections', resolved', hpromote', hresolve', hlength⟩
      rw [hpromote] at hpromote'
      cases hpromote'
      rw [hresolve] at hresolve'
      cases hresolve'
      exact hlength
    · exact fun hlength =>
        ⟨detections, resolved, hpromote, hresolve, hlength⟩
  rw [hover]
  unfold analyzeSegments
  simp only [hpromote, hresolve, bind, Except.bind]
  by_cases hlength : maxEntities < resolved.length
  · rw [if_pos hlength]
    exact ⟨fun _ => hlength, fun _ => ⟨_, rfl, rfl⟩⟩
  · rw [if_neg hlength]
    refine ⟨?_, fun h => absurd h hlength⟩
    rintro ⟨error, hraised, hcode⟩
    exfalso
    split at hraised
    · cases hraised
      cases hcode
    · split at hraised
      · rename_i hlabel
        cases hraised
        exact label_not_limitRaised resolved ⟨error, hlabel, hcode⟩
      · split at hraised
        · cases hraised
        · cases hraised

-- ==================================================== both limits

/-- The error is raised exactly when a segment is over the detector's cap
or the document is over its budget. -/
theorem limitRaised_iff (scans : List (Segment × List Candidate)) :
    LimitRaised (analyzeScans unicode config policy tenantId documentId
        segmented maxEntities scans) ↔
      ¬ WithinCap unicode config segmented scans ∨
        OverBudget policy maxEntities
          (uncapped unicode config segmented scans) := by
  have hentities : ∀ run ∈ uncapped unicode config segmented scans,
      ∀ e ∈ run.2, e.stop ≤ run.1.length := by
    intro run hrun e he
    obtain ⟨scan, -, rfl⟩ := List.mem_map.mp hrun
    exact stop_le_of_mem_reportedIn he
  unfold analyzeScans
  by_cases hcap : WithinCap unicode config segmented scans
  · simp only [detectSegments_of_withinCap scans hcap, bind, Except.bind]
    rw [analyzeSegments_limitRaised_iff hentities]
    exact ⟨Or.inr, fun h => h.resolve_left (not_not.mpr hcap)⟩
  · obtain ⟨error, hraised, hcode⟩ := detectSegments_of_overCap scans hcap
    simp only [hraised, bind, Except.bind]
    exact ⟨fun _ => Or.inl hcap, fun _ => ⟨error, rfl, hcode⟩⟩

/-- The budget is the only limit on a document exactly when no segment of
it is over the detector's cap, or it is over its budget anyway. -/
theorem budget_alone_iff (unicode : Unicode) (config : DetectionConfig)
    (policy : PolicySnapshot) (tenantId documentId : UUID)
    (segmented : SegmentedDocument) (maxEntities : Nat)
    (scans : List (Segment × List Candidate)) :
    (LimitRaised (analyzeScans unicode config policy tenantId documentId
        segmented maxEntities scans) ↔
      OverBudget policy maxEntities
        (uncapped unicode config segmented scans)) ↔
      WithinCap unicode config segmented scans ∨
        OverBudget policy maxEntities
          (uncapped unicode config segmented scans) := by
  rw [limitRaised_iff]
  tauto

-- ==================================================== a crowded page

/-- A name, `n` times. -/
def namesText (n : Nat) : Text :=
  (List.replicate n "Ann ".toList).flatten

theorem length_namesText (n : Nat) : (namesText n).length = 4 * n := by
  unfold namesText
  rw [List.length_flatten, List.map_replicate, List.sum_replicate_nat]
  exact Nat.mul_comm n 4

/-- The document of one page and one segment with that text. -/
def namesPage (n : Nat) (hpos : 0 < n) : SegmentedDocument where
  document :=
    { text := namesText n
      pages := [⟨1, 0, 4 * n, Bounds.one_le_one, Nat.zero_le _⟩]
      pages_nonempty := List.cons_ne_nil _ _
      pages_tile := ⟨rfl, (length_namesText n).symm⟩ }
  segments := [⟨0, 0, 4 * n, [1], by omega⟩]

/-- What a recognizer of names reports of one of them. -/
def nameCandidate (i : Nat) : Candidate :=
  ⟨personType, 4 * i, 4 * i + 3, 17 / 20, none⟩

def namesScan (n : Nat) : List Candidate :=
  (List.range n).map nameCandidate

def nameAt (i : Nat) : DetectedEntity :=
  ⟨personType, 4 * i, 4 * i + 3, 17 / 20, none, by omega, by decide +kernel⟩

theorem accept_nameAt {text : Text} {i : Nat}
    (hi : 4 * i + 3 ≤ text.length) :
    accept Unicode.ascii DetectionConfig.default text none
      (nameCandidate i) = some (nameAt i) := by
  have htype : personType ∈ DetectionConfig.default.enabledEntities := by
    decide +kernel
  have hsure : DetectionConfig.default.thresholdFor personType ≤ 17 / 20 := by
    decide +kernel
  have hspan : (nameCandidate i).SpanIsValid text.length := by
    unfold Candidate.SpanIsValid nameCandidate
    simp only
    omega
  have hpasses : Passes Unicode.ascii DetectionConfig.default text none
      (nameCandidate i) := ⟨htype, hspan, rfl, rfl, hsure⟩
  obtain ⟨e, haccept⟩ := accept_of_passes hpasses
  obtain ⟨-, hstands⟩ := accept_eq_some haccept
  rw [haccept]
  have hstart : (e.start : Int) = 4 * i := hstands.start_eq
  have hstop : (e.stop : Int) = 4 * i + 3 := hstands.stop_eq
  have hscore : e.score = 17 / 20 :=
    hstands.score_eq.trans (show clampScore (17 / 20) = 17 / 20 by
      decide +kernel)
  have hname : e.entityType = personType := hstands.entityType_eq
  have hrecognizer : e.recognizer = none := hstands.recognizer_eq
  obtain ⟨entityType, start, stop, score, recognizer, _, _⟩ := e
  simp only at hstart hstop hscore hname hrecognizer
  obtain rfl : start = 4 * i := by omega
  obtain rfl : stop = 4 * i + 3 := by omega
  subst hscore hname hrecognizer
  rfl

/-- Every name is reported. -/
theorem reportedIn_namesPage {n : Nat} (hpos : 0 < n) :
    reportedIn Unicode.ascii DetectionConfig.default (namesPage n hpos)
      (⟨0, 0, 4 * n, [1], by omega⟩, namesScan n) =
        (List.range n).map nameAt := by
  have htext : ((namesPage n hpos).textOf
      ⟨0, 0, 4 * n, [1], by omega⟩).length = 4 * n := by
    unfold SegmentedDocument.textOf
    rw [Splice.length_slice]
    show min (4 * n) (namesText n).length - 0 = 4 * n
    rw [length_namesText]
    omega
  have hsurvivors : survivors Unicode.ascii DetectionConfig.default
      (namesScan n) ((namesPage n hpos).textOf
        ⟨0, 0, 4 * n, [1], by omega⟩) none = (List.range n).map nameAt := by
    unfold survivors namesScan
    rw [List.filterMap_map, ← List.filterMap_eq_map]
    apply List.filterMap_congr
    intro i hi
    have := List.mem_range.mp hi
    exact accept_nameAt (by omega)
  have hchain : ((List.range n).map nameAt).Pairwise
      (fun a b => a.stop ≤ b.start) := by
    refine List.pairwise_map.mpr (List.pairwise_lt_range.imp ?_)
    intro i j hij
    show 4 * i + 3 ≤ 4 * j
    omega
  unfold reportedIn
  simp only
  rw [hsurvivors, resolveOverlaps_eq_self _ hchain, List.map_map]
  rfl

/-- Spans that stand one after the other are no more than the
characters. -/
theorem length_le_of_chain {limit : Nat} (detections : List GlobalDetection) :
    ∀ first, first ≤ limit →
      (∀ g ∈ detections, first ≤ g.entity.start ∧ g.entity.stop ≤ limit) →
      detections.Pairwise (fun a b => a.entity.stop ≤ b.entity.start) →
        first + detections.length ≤ limit := by
  induction detections with
  | nil => exact fun first hfirst _ _ => hfirst
  | cons g detections ih =>
      intro first hfirst hinside hchain
      obtain ⟨hg, hrest⟩ := List.forall_mem_cons.mp hinside
      obtain ⟨hafter, hchain⟩ := List.pairwise_cons.mp hchain
      have hforward := g.entity.span_forward
      have := ih g.entity.stop hg.2
        (fun d hd => ⟨hafter d hd, (hrest d hd).2⟩) hchain
      rw [List.length_cons]
      omega

/-- A document with no more characters than its budget is within it. -/
theorem not_overBudget_of_short {limit : Nat}
    {runs : List (Segment × List DetectedEntity)}
    (hsegments : ∀ run ∈ runs, run.1.stop ≤ limit)
    (hentities : ∀ run ∈ runs, ∀ e ∈ run.2, e.stop ≤ run.1.length)
    (hlimit : limit ≤ maxEntities) :
    ¬ OverBudget policy maxEntities runs := by
  rintro ⟨detections, resolved, hpromote, hresolve, hover⟩
  obtain ⟨detections', hpromote', hsound⟩ :=
    promoteAll_of_within runs hsegments hentities
  rw [hpromote] at hpromote'
  cases hpromote'
  obtain ⟨resolved', hresolve', hinside, hchain⟩ := resolve_total
    (fun d hd => coalesce_sound hsound d (List.mem_of_mem_filter hd) :
      ∀ d ∈ selectConfident policy (coalesce detections), Sound limit d)
  rw [hresolve] at hresolve'
  cases hresolve'
  have hcount := length_le_of_chain resolved 0 (Nat.zero_le _)
    (fun g hg => ⟨Nat.zero_le _, (hinside g hg).inside⟩) hchain
  omega

/-- A page with five hundred and one names, under every default: the
detector refuses its only segment, and the document is far below its
budget. -/
theorem crowded_page_refused :
    let page := namesPage 501 (by decide)
    let scans := [(⟨0, 0, 2004, [1], by decide⟩, namesScan 501)]
    LimitRaised (analyzeScans Unicode.ascii DetectionConfig.default evenPolicy
        ⟨2⟩ ⟨3⟩ page defaultMaxEntities scans) ∧
      ¬ OverBudget evenPolicy defaultMaxEntities
        (uncapped Unicode.ascii DetectionConfig.default page scans) := by
  intro page scans
  have hreported : reportedIn Unicode.ascii DetectionConfig.default page
      (⟨0, 0, 2004, [1], by decide⟩, namesScan 501) =
        (List.range 501).map nameAt :=
    reportedIn_namesPage (by decide)
  constructor
  · refine (limitRaised_iff scans).mpr (Or.inl ?_)
    intro hcap
    have hscan := hcap _ List.mem_cons_self
    rw [hreported, List.length_map, List.length_range] at hscan
    exact absurd hscan (by decide)
  · have hlimit : (2004 : Nat) ≤ defaultMaxEntities := by decide
    refine not_overBudget_of_short ?_ ?_ hlimit
    · intro run hrun
      obtain ⟨scan, hscan, rfl⟩ := List.mem_map.mp hrun
      cases List.mem_singleton.mp hscan
      exact le_refl _
    · intro run hrun e he
      obtain ⟨scan, -, rfl⟩ := List.mem_map.mp hrun
      exact stop_le_of_mem_reportedIn he

end PrivacyGateway.Documents
