/-
One policy, one text, four answers.

The prompt path sweeps the detector's spans once more, the document path
promotes, coalesces and resolves them, and the playground and
`POST /v1/detect` only look each up. What the detector returns stands one
after the other, so neither overlap rule has anything to drop: all that is
left in each path is the policy's threshold. Over a text that is one
segment the four act on the same spans with the same actions
(`paths_agree`).

Both refusing paths count what the policy is sure of before they look for
a type it blocks, each against a limit of its own: the guard of a prompt
against the stricter of the policy's limit and the deployment's, the
analyzer against the document's. `Settles` is what such a path does at its
limit and below it.
-/
import PrivacyGateway.Api.Playground
import PrivacyGateway.Config.Settings
import PrivacyGateway.Documents.Proofs.Coalescing
import PrivacyGateway.Documents.Proofs.Segments
import PrivacyGateway.Pipeline.Proofs.Guards
import PrivacyGateway.Tokenization.Proofs.Refusals

-- ============================================== one segment's detections

namespace PrivacyGateway.Documents

open Detection

/-- Detections of a segment, unmoved. -/
def unmoved (segment : Segment) (entities : List DetectedEntity) :
    List GlobalDetection :=
  entities.map (fun e => ⟨e, [segment.index]⟩)

theorem unmoved_chain {segment : Segment} {entities : List DetectedEntity}
    (h : entities.Pairwise (fun a b => a.stop ≤ b.start)) :
    (unmoved segment entities).Pairwise
      (fun a b => a.entity.stop ≤ b.entity.start) :=
  List.pairwise_map.mpr h

/-- The first segment moves nothing. -/
theorem toGlobal_first {segment : Segment} (hstart : segment.start = 0)
    (entities : List DetectedEntity)
    (hstop : ∀ e ∈ entities, e.stop ≤ segment.length)
    (hrecognizer : ∀ e ∈ entities, e.recognizer = none) :
    toGlobal segment entities = .ok (unmoved segment entities) := by
  have hinside : Inside (segment, entities) := hstop
  rw [toGlobal_eq, if_pos hinside]
  congr 1
  apply List.map_congr_left
  intro e he
  unfold moved
  simp only [hstart, Nat.zero_add]
  rw [← hrecognizer e he]

-- ============================================== nothing to coalesce

/-- The merge loop over detections of different keys keeps them all. -/
theorem foldl_mergeInto_distinct (detections : List GlobalDetection) :
    ∀ merged : Dict SpanKey GlobalDetection,
      (∀ d ∈ detections, merged.get? d.key = none) →
      detections.Pairwise (fun a b => a.key ≠ b.key) →
        detections.foldl mergeInto merged =
          merged ++ detections.map (fun d => (d.key, d)) := by
  induction detections with
  | nil => exact fun merged _ _ => (List.append_nil merged).symm
  | cons detection detections ih =>
      intro merged hfresh hdistinct
      obtain ⟨hfirst, hrest⟩ := List.pairwise_cons.mp hdistinct
      have hnone := hfresh detection List.mem_cons_self
      have hstep : mergeInto merged detection =
          merged.set detection.key detection := by
        unfold mergeInto
        rw [hnone]
      have hnext : ∀ d ∈ detections,
          (merged.set detection.key detection).get? d.key = none := by
        intro d hd
        rw [Dict.get?_set_ne _ _ (hfirst d hd)]
        exact hfresh d (List.mem_cons_of_mem _ hd)
      rw [List.foldl_cons, hstep, ih _ hnext hrest,
        Dict.set_of_get?_none hnone]
      simp

/-- Detections one after the other are coalesced to themselves. -/
theorem coalesce_eq_self {detections : List GlobalDetection}
    (h : detections.Pairwise
      (fun a b => a.entity.stop ≤ b.entity.start)) :
    coalesce detections = detections := by
  have hdistinct : detections.Pairwise (fun a b => a.key ≠ b.key) := by
    refine h.imp ?_
    intro a b hab hkey
    have hstart : a.entity.start = b.entity.start :=
      congrArg (fun key : SpanKey => key.2.1) hkey
    have := a.entity.span_forward
    omega
  unfold coalesce
  rw [foldl_mergeInto_distinct detections [] (fun _ _ => rfl) hdistinct,
    List.nil_append, List.map_map]
  show Selection.sortBy _ (detections.map id) = detections
  rw [List.map_id]
  apply Selection.sortBy_eq_self
  refine h.imp ?_
  intro a b hab
  refine Prod.Lex.le_iff.mpr (Or.inl ?_)
  have := a.entity.span_forward
  show a.entity.start < b.entity.start
  omega

/-- Sound detections one after the other are all resolved. -/
theorem resolve_chain {limit : Nat} {detections : List GlobalDetection}
    (hsound : ∀ d ∈ detections, Sound limit d)
    (h : detections.Pairwise
      (fun a b => a.entity.stop ≤ b.entity.start)) :
    ∃ resolved, resolve detections = .ok resolved ∧
      (∀ g ∈ resolved, Sound limit g) ∧
      resolved.map GlobalDetection.entity =
        detections.map GlobalDetection.entity := by
  obtain ⟨resolved, hresolve, hsoundResolved, -⟩ := resolve_total hsound
  refine ⟨resolved, hresolve, hsoundResolved, ?_⟩
  rw [attach_ok _ hresolve]
  exact resolveOverlaps_eq_self _ (List.pairwise_map.mpr h)

end PrivacyGateway.Documents

namespace PrivacyGateway

open Detection Documents Pipeline Policy Tokenization

-- ==================================================== decisions

/-- A range, its entity type, and what is done with it. -/
structure Decision where
  start : Nat
  stop : Nat
  entityType : Text
  action : EntityAction
deriving DecidableEq

/-- The decisions that do something. -/
def acted (decisions : List Decision) : List Decision :=
  decisions.filter (fun d => d.action ≠ .allow)

def planDecision (item : Planned) : Decision :=
  ⟨item.1.start, item.1.stop, item.1.entityType, item.2⟩

def decisionFor (policy : PolicySnapshot) (entity : DetectedEntity) :
    Decision :=
  ⟨entity.start, entity.stop, entity.entityType,
    policy.actionFor entity.entityType⟩

def spanDecision (span : LabeledSpan) : Decision :=
  ⟨span.start, span.stop, span.entityType, span.action⟩

/-- What the playground reports. -/
def PolicyTestResult.decisions (result : PolicyTestResult) : List Decision :=
  acted (result.spans.map (fun span =>
    ⟨span.start, span.stop, span.entityType, span.action⟩))

/-- What `POST /v1/detect` reports. -/
def DetectResponse.decisions (response : DetectResponse) : List Decision :=
  acted (response.entities.map (fun view =>
    ⟨view.start, view.stop, view.entityType, view.action⟩))

/-- The spans a detection leaves that the policy is sure of. -/
def sure (policy : PolicySnapshot) (entities : List DetectedEntity) :
    List DetectedEntity :=
  entities.filter (isConfident policy)

/-- What the policy does with the spans it is sure of. -/
def decided (policy : PolicySnapshot) (entities : List DetectedEntity) :
    List Decision :=
  acted ((sure policy entities).map (decisionFor policy))

section Paths

variable (unicode : Unicode) (config : DetectionConfig)
  (policy : PolicySnapshot)

/-- What the prompt path acts on. -/
def chatDecisions (text : Text) (candidates : List Candidate) :
    Except Exn (List Decision) := do
  let entities ← finalize unicode config candidates text
  let selected ← selectEntities text entities policy
  return acted (selected.map (decisionFor policy))

/-- What document analysis decides. -/
def documentDecisions (segmented : SegmentedDocument)
    (scans : List (Segment × List Candidate)) :
    Except Exn (List Decision) := do
  let runs ← detectSegments unicode config segmented scans
  let detections ← promoteAll runs
  let resolved ← resolve (selectConfident policy (coalesce detections))
  return acted (resolved.map (fun g => decisionFor policy g.entity))

/-- The prompt path over a request of one message, with its refusals: the
message's size, the guard over the request, and the plan of the message's
own transform. -/
def chatPlan (settings : Settings) (role : MessageRole) (text : Text)
    (candidates : List Candidate) : Except Exn (List Planned) := do
  enforceMessageSizes settings.maxMessageChars [⟨role, text⟩]
  let entities ← finalize unicode config candidates text
  guardRequest [⟨role, text⟩] [entities] policy
    settings.maxEntitiesPerRequest
  planFor text entities policy

end Paths

variable {unicode : Unicode} {config : DetectionConfig}
  {policy : PolicySnapshot} {text : Text} {candidates : List Candidate}
  {entities : List DetectedEntity}

-- ==================================================== the views

/-- An intended action that does something is the policy's, on a span it
is sure of. -/
theorem acted_intended (policy : PolicySnapshot)
    (entities : List DetectedEntity) :
    acted (entities.map (fun e => ⟨e.start, e.stop, e.entityType,
        intendedAction policy e⟩)) = decided policy entities := by
  unfold decided acted sure
  induction entities with
  | nil => rfl
  | cons e entities ih =>
      by_cases hsure : isConfident policy e = true
      · have hintended :
            intendedAction policy e = policy.actionFor e.entityType :=
          if_pos (isConfident_iff.mp hsure)
        rw [List.filter_cons_of_pos hsure, List.map_cons, List.map_cons,
          List.filter_cons, List.filter_cons, ih, hintended]
        rfl
      · have hintended : intendedAction policy e = .allow :=
          if_neg (fun h => hsure (isConfident_iff.mpr h))
        rw [List.filter_cons_of_neg hsure, List.map_cons, hintended,
          List.filter_cons_of_neg (by simp), ih]

theorem detect_decisions (requestId : UUID) (diagnosticsAllowed : Bool)
    {payload : DetectRequest} (hall : payload.requestedEntities = none)
    (hfinal : finalize unicode config candidates payload.text =
      .ok entities) :
    (detect unicode config policy requestId diagnosticsAllowed payload
        candidates).map DetectResponse.decisions =
      .ok (decided policy entities) := by
  unfold detect
  rw [hall, hfinal]
  show Except.ok (acted ((entities.map (viewOf policy payload.text
    diagnosticsAllowed)).map _)) = _
  rw [List.map_map, ← acted_intended]
  rfl

theorem testPolicy_decisions {δ : Type} {routes : PolicyRoutes δ}
    {tenantId : UUID} {first second : PolicyTable δ}
    {payload : PolicyTestRequest} {row : PolicyRow δ}
    (hrow : loadVersion tenantId payload.policyName payload.version first
      second = .ok row)
    (hpolicy : snapshotOf routes tenantId row = .ok policy)
    (hfinal : finalize unicode config candidates payload.text =
      .ok entities) :
    (testPolicy unicode config routes tenantId first second payload
        candidates).map PolicyTestResult.decisions =
      .ok (decided policy entities) := by
  unfold testPolicy
  simp only [hrow, hpolicy, hfinal, bind, Except.bind]
  show Except.ok (acted ((entities.map (testSpan policy)).map _)) = _
  rw [List.map_map, ← acted_intended]
  rfl

-- ==================================================== the prompt path

/-- The sweep has nothing to drop from what the detector returns. -/
theorem selectEntities_finalize
    (hfinal : finalize unicode config candidates text = .ok entities) :
    selectEntities text entities policy = .ok (sure policy entities) := by
  refine selectEntities_ok_iff.mpr
    ⟨fun e he => stop_le_of_mem_finalize hfinal he, ?_⟩
  exact (Tokenization.resolveOverlaps_eq_self
    ((finalize_chain hfinal).filter _)).symm

theorem chatDecisions_finalize
    (hfinal : finalize unicode config candidates text = .ok entities) :
    chatDecisions unicode config policy text candidates =
      .ok (decided policy entities) := by
  unfold chatDecisions
  simp only [hfinal, selectEntities_finalize hfinal, bind, Except.bind]
  rfl

-- ==================================================== the document path

section Document

variable {document : ExtractedDocument} {segment : Segment}

/-- One segment's analysis up to its resolution: what the policy is sure
of, unmoved. -/
theorem stages_first (policy : PolicySnapshot) (hstart : segment.start = 0)
    (hstop : segment.stop = document.text.length)
    (hfinal : finalize unicode config candidates document.text =
      .ok entities) :
    ∃ resolved, promoteAll [(segment, entities)] =
        .ok (unmoved segment entities) ∧
      resolve (selectConfident policy
        (coalesce (unmoved segment entities))) = .ok resolved ∧
      (∀ g ∈ resolved, Sound document.text.length g) ∧
      resolved.map GlobalDetection.entity = sure policy entities := by
  have hchain := finalize_chain hfinal
  have hinside : ∀ e ∈ entities, e.stop ≤ document.text.length :=
    fun e he => stop_le_of_mem_finalize hfinal he
  have hlength : segment.length = document.text.length := by
    unfold Segment.length
    omega
  have hanonymous : ∀ e ∈ entities, e.recognizer = none := by
    obtain ⟨-, rfl⟩ := finalize_ok_iff.mp hfinal
    intro e he
    obtain ⟨k, -, rfl⟩ := List.mem_map.mp he
    rfl
  have hpromote : promoteAll [(segment, entities)] =
      .ok (unmoved segment entities) := by
    unfold promoteAll
    simp only [toGlobal_first hstart entities (hlength ▸ hinside)
      hanonymous, promoteAll, List.append_nil]
  have hconfident : selectConfident policy (unmoved segment entities) =
      unmoved segment (sure policy entities) := by
    unfold selectConfident unmoved sure
    rw [List.filter_map]
    rfl
  have hsure : (sure policy entities).Pairwise
      (fun a b => a.stop ≤ b.start) := hchain.filter _
  have hsound : ∀ d ∈ unmoved segment (sure policy entities),
      Sound document.text.length d := by
    intro d hd
    obtain ⟨e, he, rfl⟩ := List.mem_map.mp hd
    exact ⟨hinside e (List.mem_of_mem_filter he), List.cons_ne_nil _ _,
      List.pairwise_singleton _ _⟩
  obtain ⟨resolved, hresolve, hsoundResolved, hkept⟩ :=
    resolve_chain hsound (unmoved_chain hsure)
  refine ⟨resolved, hpromote, ?_, hsoundResolved, ?_⟩
  · rw [coalesce_eq_self (unmoved_chain hchain), hconfident]
    exact hresolve
  · rw [hkept]
    unfold unmoved
    rw [List.map_map]
    exact List.map_id _

theorem detectSegments_first (hstart : segment.start = 0)
    (hstop : segment.stop = document.text.length)
    (candidates : List Candidate) :
    detectSegments unicode config ⟨document, [segment]⟩
        [(segment, candidates)] =
      (finalize unicode config candidates document.text).map
        (fun entities => [(segment, entities)]) := by
  have htext : SegmentedDocument.textOf ⟨document, [segment]⟩ segment =
      document.text := by
    unfold SegmentedDocument.textOf
    rw [hstart, hstop]
    exact Splice.slice_zero_length document.text
  unfold detectSegments
  simp only [htext, detectSegments]
  cases finalize unicode config candidates document.text with
  | error e => rfl
  | ok entities => rfl

theorem documentDecisions_first (hstart : segment.start = 0)
    (hstop : segment.stop = document.text.length)
    (hfinal : finalize unicode config candidates document.text =
      .ok entities) :
    documentDecisions unicode config policy ⟨document, [segment]⟩
        [(segment, candidates)] = .ok (decided policy entities) := by
  obtain ⟨resolved, hpromote, hresolve, -, hkept⟩ :=
    stages_first policy hstart hstop hfinal
  unfold documentDecisions
  simp only [detectSegments_first hstart hstop, hfinal, Except.map, hpromote,
    hresolve, bind, Except.bind]
  unfold decided
  rw [← hkept, List.map_map]
  rfl

end Document

-- ==================================================== refusals

/-- A path that counts spans against a limit before it looks for blocked
types among its decisions, and that acts on them otherwise. -/
structure Settles {α : Type} (decisionsOf : α → List Decision)
    (count limit : Nat) (decisions : List Decision)
    (result : Except Exn α) : Prop where
  over_limit : RefusedWith .entityLimitExceeded result ↔ limit < count
  blocked : RefusedWith .policyViolation result ↔
    count ≤ limit ∧ ∃ d ∈ decisions, d.action = .block
  returns : (∃ a, result = .ok a) ↔
    count ≤ limit ∧ ∀ d ∈ decisions, d.action ≠ .block
  acts : ∀ a, result = .ok a → acted (decisionsOf a) = decisions

/-- What a path does in each of its three cases settles it. -/
theorem Settles.of_cases {α : Type} {decisionsOf : α → List Decision}
    {count limit : Nat} {decisions : List Decision} {result : Except Exn α}
    (hover : limit < count → RefusedWith .entityLimitExceeded result)
    (hblock : count ≤ limit → (∃ d ∈ decisions, d.action = .block) →
      RefusedWith .policyViolation result)
    (hact : count ≤ limit → (∀ d ∈ decisions, d.action ≠ .block) →
      ∃ a, result = .ok a ∧ acted (decisionsOf a) = decisions) :
    Settles decisionsOf count limit decisions result := by
  by_cases hcount : limit < count
  · have hrefused := hover hcount
    refine ⟨⟨fun _ => hcount, fun _ => hrefused⟩, ⟨?_, ?_⟩, ⟨?_, ?_⟩, ?_⟩
    · intro hviolation
      cases hrefused.code_eq hviolation
    · intro h
      omega
    · rintro ⟨a, ha⟩
      exact absurd ha hrefused.not_ok
    · intro h
      omega
    · intro a ha
      exact absurd ha hrefused.not_ok
  · have hcount := Nat.not_lt.mp hcount
    by_cases hany : ∃ d ∈ decisions, d.action = .block
    · have hrefused := hblock hcount hany
      refine ⟨⟨?_, ?_⟩, ⟨fun _ => ⟨hcount, hany⟩, fun _ => hrefused⟩,
        ⟨?_, ?_⟩, ?_⟩
      · intro hlimit
        cases hrefused.code_eq hlimit
      · intro h
        omega
      · rintro ⟨a, ha⟩
        exact absurd ha hrefused.not_ok
      · rintro ⟨-, hnone⟩
        obtain ⟨d, hd, haction⟩ := hany
        exact absurd haction (hnone d hd)
      · intro a ha
        exact absurd ha hrefused.not_ok
    · have hnone : ∀ d ∈ decisions, d.action ≠ .block :=
        fun d hd haction => hany ⟨d, hd, haction⟩
      obtain ⟨a, ha, hacted⟩ := hact hcount hnone
      refine ⟨⟨?_, ?_⟩, ⟨?_, ?_⟩, ⟨fun _ => ⟨hcount, hnone⟩,
        fun _ => ⟨a, ha⟩⟩, ?_⟩
      · intro hlimit
        exact absurd ha hlimit.not_ok
      · intro h
        omega
      · intro hviolation
        exact absurd ha hviolation.not_ok
      · exact fun h => absurd h.2 hany
      · intro a' ha'
        rw [ha] at ha'
        cases ha'
        exact hacted

/-- A blocked type among the decisions is one among the spans. -/
theorem exists_blocked_iff :
    (∃ d ∈ decided policy entities, d.action = .block) ↔
      ∃ e ∈ sure policy entities,
        policy.actionFor e.entityType = .block := by
  unfold decided acted
  constructor
  · rintro ⟨d, hd, haction⟩
    obtain ⟨e, he, rfl⟩ := List.mem_map.mp (List.mem_of_mem_filter hd)
    exact ⟨e, he, haction⟩
  · rintro ⟨e, he, haction⟩
    refine ⟨decisionFor policy e, List.mem_filter.mpr
      ⟨List.mem_map_of_mem he, ?_⟩, haction⟩
    show decide (policy.actionFor e.entityType ≠ .allow) = true
    rw [haction]
    rfl

theorem forall_unblocked_iff :
    (∀ d ∈ decided policy entities, d.action ≠ .block) ↔
      ∀ e ∈ sure policy entities,
        policy.actionFor e.entityType ≠ .block := by
  have h := not_congr (@exists_blocked_iff policy entities)
  push Not at h
  exact h

section Chat

variable {settings : Settings} {role : MessageRole}

theorem enforceMessageSizes_single {maxChars : Nat} :
    (text.length ≤ maxChars →
      enforceMessageSizes maxChars [⟨role, text⟩] = .ok ()) ∧
    (maxChars < text.length → RefusedWith .requestTooLarge
      (enforceMessageSizes maxChars [⟨role, text⟩])) := by
  unfold enforceMessageSizes
  constructor
  · intro hsize
    rw [if_neg (Nat.not_lt.mpr hsize)]
    rfl
  · intro hsize
    rw [if_pos hsize]
    exact ⟨_, rfl, rfl⟩

theorem chatPlan_oversize
    (hsize : settings.maxMessageChars < text.length) :
    RefusedWith .requestTooLarge
      (chatPlan unicode config policy settings role text candidates) := by
  obtain ⟨error, herror, hcode⟩ :=
    (@enforceMessageSizes_single text role _).2 hsize
  refine ⟨error, ?_, hcode⟩
  unfold chatPlan
  simp only [herror, bind, Except.bind]

/-- Past the size check, the plan of the detector's spans. -/
theorem chatPlan_eq (hsize : text.length ≤ settings.maxMessageChars) :
    chatPlan unicode config policy settings role text candidates =
      (finalize unicode config candidates text >>= fun entities =>
        guardRequest [⟨role, text⟩] [entities] policy
          settings.maxEntitiesPerRequest >>= fun _ =>
            planFor text entities policy) := by
  have hsizes := (@enforceMessageSizes_single text role _).1 hsize
  unfold chatPlan
  simp only [hsizes, bind, Except.bind]

/-- The limit of the prompt path is the stricter of the policy's and the
deployment's: the guard counts before it looks for blocked types, and what
it passes has a plan. -/
theorem chatPlan_settles (hsize : text.length ≤ settings.maxMessageChars)
    (hfinal : finalize unicode config candidates text = .ok entities) :
    Settles (List.map planDecision) (sure policy entities).length
      (entityBudget policy settings.maxEntitiesPerRequest)
      (decided policy entities)
      (chatPlan unicode config policy settings role text candidates) := by
  have hselected := @selectEntities_finalize _ _ policy _ _ _ hfinal
  obtain ⟨hover, hwithin⟩ := @guardRequest_single policy
    settings.maxEntitiesPerRequest ⟨role, text⟩ _ _ hselected
  rw [chatPlan_eq hsize, hfinal]
  simp only [bind, Except.bind]
  apply Settles.of_cases
  · intro hcount
    obtain ⟨error, herror, hcode⟩ := hover hcount
    rw [herror]
    exact ⟨error, rfl, hcode⟩
  · intro hcount hany
    obtain ⟨error, herror, hcode⟩ :=
      rejectBlockedIn_of_blocked (exists_blocked_iff.mp hany)
    rw [hwithin hcount, herror]
    exact ⟨error, rfl, hcode⟩
  · intro hcount hnone
    have hunblocked := forall_unblocked_iff.mp hnone
    have hlimit : (sure policy entities).length ≤ policy.maxEntities :=
      hcount.trans (min_le_left _ _)
    rw [hwithin hcount, rejectBlockedIn_of_unblocked hunblocked]
    refine ⟨withActions policy (sure policy entities),
      planFor_ok_iff.mpr ⟨_, ⟨hselected, hlimit, hunblocked⟩, rfl⟩, ?_⟩
    unfold withActions decided
    rw [List.map_map]
    rfl

end Chat

section Analysis

variable {document : ExtractedDocument} {segment : Segment}

/-- The type an analysis is refused for is one it found. -/
theorem blockedEntityType_some {detections : List GlobalDetection}
    {blocked : Text} (h : blockedEntityType policy detections = some blocked) :
    ∃ g ∈ detections, policy.actionFor g.entity.entityType = .block := by
  induction detections with
  | nil => cases h
  | cons detection detections ih =>
      unfold blockedEntityType at h
      split at h
      · rename_i haction
        exact ⟨detection, List.mem_cons_self, haction⟩
      · obtain ⟨g, hg, haction⟩ := ih h
        exact ⟨g, List.mem_cons_of_mem _ hg, haction⟩

/-- The spans of an analysis carry the policy's decisions on what was
resolved. -/
theorem map_spanDecision {detections : List GlobalDetection}
    {spans : List LabeledSpan}
    (h : List.Forall₂ (Labels document policy) detections spans) :
    spans.map spanDecision =
      (detections.map GlobalDetection.entity).map (decisionFor policy) := by
  induction h with
  | nil => rfl
  | @cons detection span detections spans hlabels hrest ih =>
      have hspan : spanDecision span =
          decisionFor policy detection.entity := by
        unfold spanDecision decisionFor
        rw [hlabels.start_eq, hlabels.stop_eq, hlabels.entityType_eq,
          hlabels.action_eq]
      rw [List.map_cons, List.map_cons, List.map_cons, hspan, ih]

theorem analyzeScans_settles (hstart : segment.start = 0)
    (hstop : segment.stop = document.text.length)
    (hfinal : finalize unicode config candidates document.text =
      .ok entities) (tenantId documentId : UUID) (maxEntities : Nat) :
    Settles (fun analyzed => analyzed.spans.map spanDecision)
      (sure policy entities).length maxEntities (decided policy entities)
      (analyzeScans unicode config policy tenantId documentId
        ⟨document, [segment]⟩ maxEntities [(segment, candidates)]) := by
  obtain ⟨resolved, hpromote, hresolve, hsound, hkept⟩ :=
    stages_first policy hstart hstop hfinal
  have hlength : (sure policy entities).length = resolved.length := by
    rw [← hkept, List.length_map]
  have hrun : analyzeScans unicode config policy tenantId documentId
        ⟨document, [segment]⟩ maxEntities [(segment, candidates)] =
      analyzeSegments policy tenantId documentId ⟨document, [segment]⟩
        maxEntities [(segment, entities)] := by
    unfold analyzeScans
    rw [detectSegments_first hstart hstop, hfinal]
    rfl
  rw [hrun, hlength]
  apply Settles.of_cases
  · intro hcount
    unfold analyzeSegments
    simp only [hpromote, hresolve, bind, Except.bind]
    rw [if_pos hcount]
    exact ⟨_, rfl, rfl⟩
  · intro hcount hany
    obtain ⟨e, he, haction⟩ := exists_blocked_iff.mp hany
    rw [← hkept] at he
    obtain ⟨g, hg, rfl⟩ := List.mem_map.mp he
    unfold analyzeSegments
    simp only [hpromote, hresolve, bind, Except.bind]
    rw [if_neg (Nat.not_lt.mpr hcount)]
    cases hblocked : blockedEntityType policy resolved with
    | none => exact absurd haction (blockedEntityType_none hblocked g hg)
    | some blocked => exact ⟨_, rfl, rfl⟩
  · intro hcount hnone
    have hblocked : blockedEntityType policy resolved = none := by
      cases hblocked : blockedEntityType policy resolved with
      | none => rfl
      | some blocked =>
          obtain ⟨g, hg, haction⟩ := blockedEntityType_some hblocked
          have hmem : g.entity ∈ sure policy entities :=
            hkept ▸ List.mem_map_of_mem hg
          exact absurd haction (forall_unblocked_iff.mp hnone _ hmem)
    have hchain : resolved.Pairwise
        (fun a b => a.entity.stop ≤ b.entity.start) := by
      have hsure : (sure policy entities).Pairwise
          (fun a b => a.stop ≤ b.start) := (finalize_chain hfinal).filter _
      rw [← hkept] at hsure
      exact List.pairwise_map.mp hsure
    obtain ⟨analyzed, hanalyzed, -, hlabels⟩ := @analyzeSegments_total
      policy ⟨document, [segment]⟩ maxEntities _ _ _ hpromote hresolve
        hsound hchain hcount hblocked tenantId documentId
    refine ⟨analyzed, hanalyzed, ?_⟩
    rw [map_spanDecision hlabels, hkept]
    rfl

end Analysis

-- ==================================================== one text

/-- The four answers about one text, and what the two paths that may
refuse it do. -/
structure Agreement (unicode : Unicode) (config : DetectionConfig)
    (policy : PolicySnapshot) (candidates : List Candidate)
    (settings : Settings) (role : MessageRole)
    (tenantId documentId : UUID) (maxEntities : Nat)
    (segmented : SegmentedDocument) : Prop where
  document_agrees :
    documentDecisions unicode config policy segmented
        (segmented.segments.map (fun s => (s, candidates))) =
      chatDecisions unicode config policy segmented.document.text candidates
  playground_agrees : ∀ {δ : Type} (routes : PolicyRoutes δ)
    (first second : PolicyTable δ) (payload : PolicyTestRequest)
    (row : PolicyRow δ), payload.text = segmented.document.text →
      loadVersion tenantId payload.policyName payload.version first second =
        .ok row →
      snapshotOf routes tenantId row = .ok policy →
        (testPolicy unicode config routes tenantId first second payload
            candidates).map PolicyTestResult.decisions =
          chatDecisions unicode config policy segmented.document.text
            candidates
  detect_agrees : ∀ (requestId : UUID) (diagnosticsAllowed : Bool)
    (payload : DetectRequest), payload.text = segmented.document.text →
      payload.requestedEntities = none →
        (detect unicode config policy requestId diagnosticsAllowed payload
            candidates).map DetectResponse.decisions =
          chatDecisions unicode config policy segmented.document.text
            candidates
  oversize : settings.maxMessageChars < segmented.document.text.length →
    RefusedWith .requestTooLarge (chatPlan unicode config policy settings
      role segmented.document.text candidates)
  unread : ∀ e, finalize unicode config candidates
      segmented.document.text = .error e →
    (segmented.document.text.length ≤ settings.maxMessageChars →
      chatPlan unicode config policy settings role segmented.document.text
        candidates = .error e) ∧
      analyzeScans unicode config policy tenantId documentId segmented
        maxEntities (segmented.segments.map (fun s => (s, candidates))) =
          .error e
  chat_settles : ∀ entities, finalize unicode config candidates
      segmented.document.text = .ok entities →
    segmented.document.text.length ≤ settings.maxMessageChars →
    Settles (List.map planDecision) (sure policy entities).length
      (entityBudget policy settings.maxEntitiesPerRequest)
      (decided policy entities)
      (chatPlan unicode config policy settings role segmented.document.text
        candidates)
  document_settles : ∀ entities, finalize unicode config candidates
      segmented.document.text = .ok entities →
    Settles (fun analyzed => analyzed.spans.map spanDecision)
      (sure policy entities).length maxEntities (decided policy entities)
      (analyzeScans unicode config policy tenantId documentId segmented
        maxEntities (segmented.segments.map (fun s => (s, candidates))))
  same_refusals : ∀ entities, finalize unicode config candidates
      segmented.document.text = .ok entities →
    segmented.document.text.length ≤ settings.maxMessageChars →
    (sure policy entities).length ≤
      entityBudget policy settings.maxEntitiesPerRequest →
    (sure policy entities).length ≤ maxEntities →
      (RefusedWith .policyViolation (chatPlan unicode config policy
          settings role segmented.document.text candidates) ↔
        RefusedWith .policyViolation (analyzeScans unicode config policy
          tenantId documentId segmented maxEntities
            (segmented.segments.map (fun s => (s, candidates)))))

/-- Prompt, document, playground and dry run agree on a text that fits one
segment. -/
theorem paths_agree {segmenter : Segmenter} {document : ExtractedDocument}
    (htext : document.text ≠ [])
    (hfits : document.text.length ≤ segmenter.maxCharacters)
    (unicode : Unicode) (config : DetectionConfig)
    (policy : PolicySnapshot) (candidates : List Candidate)
    (settings : Settings) (role : MessageRole)
    (tenantId documentId : UUID) (maxEntities : Nat) :
    ∃ segmented, segmenter.segment document = .ok segmented ∧
      segmented.document = document ∧
      Agreement unicode config policy candidates settings role tenantId
        documentId maxEntities segmented := by
  obtain ⟨segments, hsegment, hcuts⟩ :=
    Segmenter.segment_cuts segmenter htext
  obtain ⟨segment, rfl, hstart, hstop⟩ := hcuts.single hfits
  refine ⟨⟨document, [segment]⟩, hsegment, rfl, ?_⟩
  have hdetect := @detectSegments_first unicode config document segment
    hstart hstop candidates
  have hchat : ∀ entities, finalize unicode config candidates
      document.text = .ok entities →
      document.text.length ≤ settings.maxMessageChars →
      Settles (List.map planDecision) (sure policy entities).length
        (entityBudget policy settings.maxEntitiesPerRequest)
        (decided policy entities)
        (chatPlan unicode config policy settings role document.text
          candidates) :=
    fun entities hfinal hsize => chatPlan_settles hsize hfinal
  have hanalysis : ∀ entities, finalize unicode config candidates
      document.text = .ok entities →
      Settles (fun analyzed => analyzed.spans.map spanDecision)
        (sure policy entities).length maxEntities (decided policy entities)
        (analyzeScans unicode config policy tenantId documentId
          ⟨document, [segment]⟩ maxEntities [(segment, candidates)]) :=
    fun entities hfinal =>
      analyzeScans_settles hstart hstop hfinal tenantId documentId
        maxEntities
  have hunread : ∀ e, finalize unicode config candidates document.text =
      .error e →
      chatDecisions unicode config policy document.text candidates =
        .error e := by
    intro e hfinal
    unfold chatDecisions
    rw [hfinal]
    rfl
  constructor
  case document_agrees =>
    cases hfinal : finalize unicode config candidates document.text with
    | ok entities =>
        rw [chatDecisions_finalize hfinal]
        exact documentDecisions_first hstart hstop hfinal
    | error e =>
        rw [hunread e hfinal]
        unfold documentDecisions
        show (detectSegments unicode config ⟨document, [segment]⟩
          [(segment, candidates)] >>= _) = _
        rw [hdetect, hfinal]
        rfl
  case playground_agrees =>
    intro δ routes first second payload row hpayload hrow hpolicy
    cases hfinal : finalize unicode config candidates document.text with
    | ok entities =>
        rw [chatDecisions_finalize hfinal]
        rw [← hpayload] at hfinal
        exact testPolicy_decisions hrow hpolicy hfinal
    | error e =>
        rw [hunread e hfinal]
        rw [← hpayload] at hfinal
        unfold testPolicy
        simp only [hrow, hpolicy, hfinal, bind, Except.bind]
        rfl
  case detect_agrees =>
    intro requestId diagnosticsAllowed payload hpayload hall
    cases hfinal : finalize unicode config candidates document.text with
    | ok entities =>
        rw [chatDecisions_finalize hfinal]
        rw [← hpayload] at hfinal
        exact detect_decisions requestId diagnosticsAllowed hall hfinal
    | error e =>
        rw [hunread e hfinal]
        rw [← hpayload] at hfinal
        unfold detect
        rw [hall, hfinal]
        rfl
  case oversize => exact chatPlan_oversize
  case unread =>
    intro e hfinal
    constructor
    · intro hsize
      rw [chatPlan_eq hsize, hfinal]
      rfl
    · unfold analyzeScans
      show (detectSegments unicode config ⟨document, [segment]⟩
        [(segment, candidates)] >>= _) = _
      rw [hdetect, hfinal]
      rfl
  case chat_settles => exact hchat
  case document_settles => exact hanalysis
  case same_refusals =>
    intro entities hfinal hsize hlimit hbudget
    refine (hchat entities hfinal hsize).blocked.trans
      (Iff.trans ?_ (hanalysis entities hfinal).blocked.symm)
    exact ⟨fun h => ⟨hbudget, h.2⟩, fun h => ⟨hlimit, h.2⟩⟩

-- ==================================================== two names

/-- A document of one page that names two people. -/
def twoNames : ExtractedDocument :=
  Segmenter.onePage "Ann Bob".toList

def nameScan : List Candidate :=
  [⟨personType, 0, 3, 9 / 10, none⟩, ⟨personType, 4, 7, 4 / 5, none⟩,
    ⟨personType, 0, 7, 1 / 2, none⟩]

def namesFound : List DetectedEntity :=
  [⟨personType, 0, 3, 9 / 10, none, Bounds.zero_lt_three, Bounds.nineTenths⟩,
    ⟨personType, 4, 7, 4 / 5, none, by decide, Bounds.fourFifths⟩]

theorem finalize_twoNames :
    finalize .ascii .default nameScan twoNames.text = .ok namesFound := by
  decide +kernel

/-- A policy for names that acts on at most so many spans. -/
def namesDocument (action : EntityAction) (minScore : Rat)
    (maxEntities : Nat) (hscore : 0 ≤ minScore ∧ minScore ≤ 1)
    (hlimit : 0 < maxEntities ∧ maxEntities ≤ maxPolicyEntityBudget) :
    PolicyDocument where
  name := "names".toList
  sessionTtlSeconds := 3600
  maxEntities := maxEntities
  providers := []
  entities := [(personType, ⟨action, minScore, true, none, none, hscore⟩)]
  sessionTtl_bounded := hour_le_maxSessionTtl
  maxEntities_bounded := hlimit

/-- Documents that are parsed already. -/
def parsedRoutes : PolicyRoutes PolicyDocument where
  validate document := .ok ⟨document, []⟩
  same a b := decide (a = b)

def namesRow : PolicyRow PolicyDocument where
  id := ⟨7⟩
  tenantId := some ⟨2⟩
  name := "names".toList
  version := 3
  document := namesDocument .redact (17 / 20) 5 Bounds.seventeenTwentieths
    (by decide)
  isActive := true
  status := .published
  publishedAt := some 0

def namesPolicy (document : PolicyDocument) : PolicySnapshot :=
  .fromDocument document ⟨7⟩ ⟨2⟩ 3

def blockingPolicy : PolicySnapshot :=
  namesPolicy (namesDocument .block 0 1 (by decide) (by decide))

/-- A deployment with the default limits. -/
def defaultLimits : Settings where
  appEnv := .test
  vaultActiveKeyId := "k1".toList
  vaultKeys := []
  maxMessageChars_bounded := Settings.maxMessageChars_default
  maxEntitiesPerRequest_bounded := Settings.maxEntitiesPerRequest_default
  maxDocumentEntities_bounded := Settings.maxDocumentEntities_default

/-- Of the two names the policy is sure of one, and each path says so. -/
theorem two_names_agree :
    ∃ segmented, Segmenter.segment ⟨16, 4, by decide, by decide⟩ twoNames =
        .ok segmented ∧
      documentDecisions .ascii .default (namesPolicy namesRow.document)
          segmented (segmented.segments.map (fun s => (s, nameScan))) =
        .ok [⟨0, 3, personType, .redact⟩] ∧
      (testPolicy .ascii .default parsedRoutes ⟨2⟩ [namesRow] [namesRow]
          ⟨"Ann Bob".toList, "names".toList, none⟩ nameScan).map
            PolicyTestResult.decisions =
        .ok [⟨0, 3, personType, .redact⟩] := by
  have hchat : chatDecisions .ascii .default (namesPolicy namesRow.document)
      twoNames.text nameScan = .ok [⟨0, 3, personType, .redact⟩] := by
    decide +kernel
  obtain ⟨segmented, hsegment, hdocument, hagree⟩ :=
    @paths_agree ⟨16, 4, by decide, by decide⟩ twoNames (by decide)
      (by decide) .ascii .default (namesPolicy namesRow.document) nameScan
        defaultLimits .user ⟨2⟩ ⟨3⟩ 10
  have hplayground := hagree.playground_agrees parsedRoutes [namesRow]
    [namesRow]
    ⟨"Ann Bob".toList, "names".toList, none⟩ namesRow
      (congrArg ExtractedDocument.text hdocument).symm rfl rfl
  refine ⟨segmented, hsegment, ?_, ?_⟩
  · rw [hagree.document_agrees, hdocument]
    exact hchat
  · rw [hplayground, hdocument]
    exact hchat

/-- The policy blocks names and acts on at most one span: the document is
refused for the blocked type, the prompt for the number of spans. -/
theorem limit_before_block :
    ∃ segmented, Segmenter.segment ⟨16, 4, by decide, by decide⟩ twoNames =
        .ok segmented ∧
      RefusedWith .policyViolation (analyzeScans .ascii .default
        blockingPolicy ⟨2⟩ ⟨3⟩ segmented Documents.defaultMaxEntities
          (segmented.segments.map (fun s => (s, nameScan)))) ∧
      ¬ RefusedWith .policyViolation (chatPlan .ascii .default
        blockingPolicy defaultLimits .user twoNames.text nameScan) := by
  obtain ⟨segments, hsegment, hcuts⟩ := @Segmenter.segment_cuts twoNames
    ⟨16, 4, by decide, by decide⟩ (by decide)
  obtain ⟨segment, rfl, hstart, hstop⟩ := hcuts.single (by decide)
  have hblocked : ∃ d ∈ decided blockingPolicy namesFound,
      d.action = .block := by decide +kernel
  refine ⟨⟨twoNames, [segment]⟩, hsegment, ?_, ?_⟩
  · exact (analyzeScans_settles hstart hstop finalize_twoNames ⟨2⟩ ⟨3⟩
      Documents.defaultMaxEntities).blocked.mpr ⟨by decide +kernel, hblocked⟩
  · intro hviolation
    have hsize : twoNames.text.length ≤ defaultLimits.maxMessageChars := by
      decide
    have hcount := ((chatPlan_settles hsize finalize_twoNames).blocked.mp
      hviolation).1
    exact absurd hcount (by decide +kernel)

end PrivacyGateway
