/-
From per-segment detections to one labeled span per value.

`toGlobal` moves a segment's detections onto the document's coordinates,
`coalesce` merges the duplicates that overlapping segments create,
`selectConfident` drops what the policy is not sure of, `resolve` keeps
one interpretation per character, and `label` attaches actions and pages.
`analyzeSegments` is that sequence with the analyzer's checks between.
-/
import PrivacyGateway.Detection.Postprocess
import PrivacyGateway.Documents.Segmentation
import PrivacyGateway.Policy.Models

namespace PrivacyGateway.Documents

-- ==================================================== detections

abbrev SpanKey := Text × Nat × Nat

/-- One detection on the document's coordinates, with the segments it came
from. -/
structure GlobalDetection where
  entity : DetectedEntity
  segments : List Nat
deriving DecidableEq

def spanKey (entity : DetectedEntity) : SpanKey :=
  (entity.entityType, entity.start, entity.stop)

def GlobalDetection.key (detection : GlobalDetection) : SpanKey :=
  spanKey detection.entity

/-- The detector over every segment: what its recognizers report there,
finalized against the segment's text. -/
def detectSegments (unicode : Unicode) (config : Detection.DetectionConfig)
    (segmented : SegmentedDocument) :
    List (Segment × List Detection.Candidate) →
      Except Exn (List (Segment × List DetectedEntity))
  | [] => .ok []
  | scan :: scans =>
      match Detection.finalize unicode config scan.2
          (segmented.textOf scan.1) with
      | .error e => .error e
      | .ok entities =>
          match detectSegments unicode config segmented scans with
          | .error e => .error e
          | .ok runs => .ok ((scan.1, entities) :: runs)

/-- One detection rewritten as document-global. -/
def promote (segment : Segment) (entity : DetectedEntity) :
    Except Exn GlobalDetection :=
  match segment.toGlobal entity.start, segment.toGlobal entity.stop with
  | .ok start, .ok stop =>
      if hspan : start < stop then
        .ok
          { entity :=
              { entityType := entity.entityType
                start := start
                stop := stop
                score := entity.score
                recognizer := none
                span_forward := hspan
                score_bounded := entity.score_bounded }
            segments := [segment.index] }
      else .error (.value "entity span must be a non-empty forward range")
  | .error e, _ => .error e
  | _, .error e => .error e

/-- Rewrite segment-local detections as document-global ones. -/
def toGlobal (segment : Segment) :
    List DetectedEntity → Except Exn (List GlobalDetection)
  | [] => .ok []
  | entity :: entities =>
      match promote segment entity with
      | .error e => .error e
      | .ok detection =>
          match toGlobal segment entities with
          | .error e => .error e
          | .ok promoted => .ok (detection :: promoted)

/-- The detections of every segment, in segment order. -/
def promoteAll : List (Segment × List DetectedEntity) →
    Except Exn (List GlobalDetection)
  | [] => .ok []
  | run :: runs =>
      match toGlobal run.1 run.2 with
      | .error e => .error e
      | .ok detections =>
          match promoteAll runs with
          | .error e => .error e
          | .ok promoted => .ok (detections ++ promoted)

-- ==================================================== coalescing

/-- `sorted(set(a) | set(b))`. -/
def segmentUnion (a b : List Nat) : List Nat :=
  (a ++ b).dedup.insertionSort (· ≤ ·)

/-- Two copies of one detection: the higher score, both provenances. -/
def mergeCopies (existing detection : GlobalDetection) : GlobalDetection where
  entity :=
    { entityType := detection.entity.entityType
      start := detection.entity.start
      stop := detection.entity.stop
      score := max existing.entity.score detection.entity.score
      recognizer := none
      span_forward := detection.entity.span_forward
      score_bounded :=
        ⟨le_trans existing.entity.score_bounded.1 (le_max_left _ _),
          max_le existing.entity.score_bounded.2
            detection.entity.score_bounded.2⟩ }
  segments := segmentUnion existing.segments detection.segments

/-- One round of the merge loop. -/
def mergeInto (merged : Dict SpanKey GlobalDetection)
    (detection : GlobalDetection) : Dict SpanKey GlobalDetection :=
  match merged.get? detection.key with
  | none => merged.set detection.key detection
  | some existing =>
      merged.set detection.key (mergeCopies existing detection)

/-- Collapse detections of the same value at the same place into one. -/
def coalesce (detections : List GlobalDetection) : List GlobalDetection :=
  Selection.sortBy
    (fun item : GlobalDetection => Detection.positionKey item.entity)
    ((detections.foldl mergeInto []).map Prod.snd)

-- ==================================================== selection

def selectConfident (policy : PolicySnapshot)
    (detections : List GlobalDetection) : List GlobalDetection :=
  detections.filter (fun detection =>
    decide (policy.minScoreFor detection.entity.entityType ≤
      detection.entity.score))

def provenanceOf (detections : List GlobalDetection) :
    Dict SpanKey (List Nat) :=
  detections.foldl (fun provenance detection =>
    provenance.set detection.key detection.segments) []

/-- Re-attach provenance to the kept entities. -/
def attach (provenance : Dict SpanKey (List Nat)) :
    List DetectedEntity → Except Exn (List GlobalDetection)
  | [] => .ok []
  | entity :: kept =>
      match provenance.get? (spanKey entity) with
      | none => .error (.other "KeyError")
      | some segments =>
          match attach provenance kept with
          | .error e => .error e
          | .ok rest => .ok (⟨entity, segments⟩ :: rest)

/-- A non-overlapping subset, ordered by offset. -/
def resolve (detections : List GlobalDetection) :
    Except Exn (List GlobalDetection) :=
  attach (provenanceOf detections)
    (Detection.resolveOverlaps Detection.entityPriority
      (detections.map GlobalDetection.entity))

/-- The first entity type the policy blocks. -/
def blockedEntityType (policy : PolicySnapshot) :
    List GlobalDetection → Option Text
  | [] => none
  | detection :: detections =>
      if policy.actionFor detection.entity.entityType = .block then
        some detection.entity.entityType
      else blockedEntityType policy detections

-- ==================================================== labeling

/-- One sensitive value found in a document, with the policy's
decision. -/
@[ext]
structure LabeledSpan where
  entityType : Text
  start : Nat
  stop : Nat
  score : Rat
  action : EntityAction
  pages : List Nat
  segments : List Nat
  span_forward : start < stop
  score_bounded : 0 ≤ score ∧ score ≤ 1
  not_blocked : action ≠ .block
  pages_nonempty : pages ≠ []
  segments_nonempty : segments ≠ []

instance : DecidableEq LabeledSpan := fun _ _ =>
  decidable_of_iff _ LabeledSpan.ext_iff.symm

/-- The constructor's checks on what labeling hands it. -/
def labelSpan (entity : DetectedEntity) (action : EntityAction)
    (pages segments : List Nat) : Except Exn LabeledSpan :=
  if hblock : action = .block then
    .error (.value
      "a blocked entity cannot be labeled; the document is refused instead")
  else if hpages : pages = [] then
    .error (.value "a labeled span must name at least one page")
  else if hsegments : segments = [] then
    .error (.value "a labeled span must name at least one segment")
  else
    .ok
      { entityType := entity.entityType
        start := entity.start
        stop := entity.stop
        score := entity.score
        action := action
        pages := pages
        segments := segments
        span_forward := entity.span_forward
        score_bounded := entity.score_bounded
        not_blocked := hblock
        pages_nonempty := hpages
        segments_nonempty := hsegments }

/-- Attach the policy action and the page references to each span. -/
def label (document : ExtractedDocument) (policy : PolicySnapshot) :
    List GlobalDetection → Except Exn (List LabeledSpan)
  | [] => .ok []
  | detection :: detections =>
      match document.pagesCovering detection.entity.start
          detection.entity.stop with
      | .error e => .error e
      | .ok pages =>
          match labelSpan detection.entity
              (policy.actionFor detection.entity.entityType) pages
              detection.segments with
          | .error e => .error e
          | .ok span =>
              match label document policy detections with
              | .error e => .error e
              | .ok spans => .ok (span :: spans)

/-- Spans in order, not overlapping, inside the buffer. -/
def SpansOrdered (limit : Nat) : Nat → List LabeledSpan → Prop
  | _, [] => True
  | previousEnd, span :: spans =>
      previousEnd ≤ span.start ∧ span.stop ≤ limit ∧
        SpansOrdered limit span.stop spans

instance spansOrderedDecidable (limit : Nat) :
    ∀ (previousEnd : Nat) (spans : List LabeledSpan),
      Decidable (SpansOrdered limit previousEnd spans)
  | _, [] => inferInstanceAs (Decidable True)
  | _, span :: spans =>
      have := spansOrderedDecidable limit span.stop spans
      inferInstanceAs (Decidable (_ ∧ _ ∧ _))

/-- What the constructor says of the first span that breaks the order. -/
def spanFault (limit : Nat) : Nat → Nat → List LabeledSpan → Option String
  | _, _, [] => none
  | index, previousEnd, span :: spans =>
      if span.start < previousEnd then
        some s!"span {index} overlaps or precedes the span before it"
      else if span.stop > limit then
        some s!"span {index} extends past the end of the document text"
      else spanFault limit (index + 1) span.stop spans

/-- A segmented document plus every labeled span found in it, under the
snapshot that decided them. -/
structure AnalyzedDocument where
  tenantId : UUID
  documentId : UUID
  segmented : SegmentedDocument
  spans : List LabeledSpan
  policy : PolicySnapshot
  spans_ordered : SpansOrdered segmented.document.text.length 0 spans
deriving DecidableEq

def AnalyzedDocument.policyVersion (analyzed : AnalyzedDocument) : Int :=
  analyzed.policy.version

def defaultMaxEntities : Nat := 10000

/-- Everything the analyzer does once the policy is resolved and every
segment has been read. -/
def analyzeSegments (policy : PolicySnapshot) (tenantId documentId : UUID)
    (segmented : SegmentedDocument) (maxEntities : Nat)
    (runs : List (Segment × List DetectedEntity)) :
    Except Exn AnalyzedDocument := do
  let detections ← promoteAll runs
  let resolved ← resolve (selectConfident policy (coalesce detections))
  if resolved.length > maxEntities then
    throw (gatewayError .entityLimitExceeded
      [("tenant_id", .text tenantId.str),
        ("document_id", .text documentId.str),
        ("entity_count", .int resolved.length),
        ("limit", .int maxEntities),
        ("reason", .text "document_entity_budget_exceeded".toList)])
  match blockedEntityType policy resolved with
  | some blocked =>
      throw (gatewayError .policyViolation
        [("tenant_id", .text tenantId.str),
          ("document_id", .text documentId.str),
          ("entity_type", .text blocked),
          ("reason", .text "policy_blocked_entity".toList)])
  | none =>
      let spans ← label segmented.document policy resolved
      if hordered : SpansOrdered segmented.document.text.length 0 spans then
        return ⟨tenantId, documentId, segmented, spans, policy, hordered⟩
      else
        throw (.value ((spanFault segmented.document.text.length 0 0
          spans).getD ""))

/-- The analyzer, from what the recognizers report in each segment. -/
def analyzeScans (unicode : Unicode) (config : Detection.DetectionConfig)
    (policy : PolicySnapshot) (tenantId documentId : UUID)
    (segmented : SegmentedDocument) (maxEntities : Nat)
    (scans : List (Segment × List Detection.Candidate)) :
    Except Exn AnalyzedDocument := do
  let runs ← detectSegments unicode config segmented scans
  analyzeSegments policy tenantId documentId segmented maxEntities runs

end PrivacyGateway.Documents
