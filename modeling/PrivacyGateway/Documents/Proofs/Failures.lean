/-
Which detection failure is reported.

A task's voice is the domain error it raises, if it raises one; the report
is the first voice of the failures collected, in the order the tasks ended.
A task that speaks first has fewer tasks with a voice before it than there
are permits, and when nobody speaks the first to fail has fewer failed
tasks before it. So the report is the one of the segments in order, under
every schedule, exactly when all of these report the same
(`failure_in_order_iff`).
-/
import PrivacyGateway.Documents.Proofs.Budget
import PrivacyGateway.Documents.Tasks

namespace PrivacyGateway.Documents

open TaskGroup

-- ==================================================== voices

/-- The first domain error of a failure. -/
def domainError (failure : Failure) : Option Exn :=
  failure.flatten.find? isGatewayError

/-- The domain error the task raises. -/
def voice (outcomes : List (Except Failure (List DetectedEntity)))
    (task : Nat) : Option Exn :=
  (failureOf outcomes task).bind domainError

def raisesDomain (outcomes : List (Except Failure (List DetectedEntity)))
    (task : Nat) : Bool :=
  (voice outcomes task).isSome

/-- What is reported when the task's failure is the only one. -/
def reportOf (outcomes : List (Except Failure (List DetectedEntity)))
    (task : Nat) : Exn :=
  firstFailure (failureOf outcomes task).toList

theorem flattenAll_eq (exceptions : List Failure) :
    flattenAll exceptions = exceptions.flatMap Failure.flatten := by
  induction exceptions with
  | nil => simp [flattenAll]
  | cons failure exceptions ih =>
      rw [List.flatMap_cons, ← ih]
      simp [flattenAll]

theorem firstFailure_eq (exceptions : List Failure) :
    firstFailure exceptions =
      (exceptions.findSome? domainError).getD stageFailed := by
  have hfind : (flattenAll exceptions).find? isGatewayError =
      exceptions.findSome? domainError := by
    rw [flattenAll_eq, List.find?_flatMap]
    rfl
  unfold firstFailure
  rw [hfind]
  cases exceptions.findSome? domainError <;> rfl

variable {outcomes : List (Except Failure (List DetectedEntity))}

theorem reportOf_eq (task : Nat) :
    reportOf outcomes task = (voice outcomes task).getD stageFailed := by
  unfold reportOf voice
  rw [firstFailure_eq]
  cases failureOf outcomes task with
  | none => rfl
  | some failure =>
      show (List.findSome? domainError [failure]).getD _ =
        (domainError failure).getD _
      cases h : domainError failure <;> simp [List.findSome?, h]

theorem firstFailure_filterMap (finished : List Nat) :
    firstFailure (finished.filterMap (failureOf outcomes)) =
      (finished.findSome? (voice outcomes)).getD stageFailed := by
  rw [firstFailure_eq, ← List.head?_filterMap, List.filterMap_filterMap,
    List.head?_filterMap]
  rfl

theorem voice_of_not_failed {task : Nat}
    (h : failed outcomes task = false) : voice outcomes task = none := by
  unfold voice
  rw [Option.not_isSome_iff_eq_none.mp (Bool.eq_false_iff.mp h)]
  rfl

/-- Nobody before the task speaks, so its own failure is reported. -/
theorem firstFailure_last {finished : List Nat} {task : Nat}
    (hsilent : ∀ other ∈ finished, voice outcomes other = none) :
    firstFailure ((finished ++ [task]).filterMap (failureOf outcomes)) =
      reportOf outcomes task := by
  rw [firstFailure_filterMap, reportOf_eq, List.findSome?_append,
    List.findSome?_eq_none_iff.mpr hsilent, Option.none_or]
  cases h : voice outcomes task <;> simp [List.findSome?, h]

-- ==================================================== the group's report

variable {permits : Nat} {g : Group}

/-- A task that can be the first to fail, or the first to fail with a
domain error. -/
def Contends (permits : Nat)
    (outcomes : List (Except Failure (List DetectedEntity)))
    (task : Nat) : Prop :=
  Foremost permits (failed outcomes) task ∨
    Foremost permits (raisesDomain outcomes) task

theorem Contends.failed {task : Nat} (h : Contends permits outcomes task) :
    failed outcomes task = true := by
  rcases h with h | h
  · exact h.1
  · refine Bool.not_eq_false _ ▸ fun hok => ?_
    have hkind := h.1
    unfold raisesDomain at hkind
    rw [voice_of_not_failed hok] at hkind
    cases hkind

theorem Contends.permits_pos {task : Nat}
    (h : Contends permits outcomes task) : 0 < permits := by
  rcases h with h | h
  · exact (Nat.zero_le _).trans_lt h.2
  · exact (Nat.zero_le _).trans_lt h.2

/-- The report of tasks in an order in which the first of every kind is
foremost is the report of one that contends. -/
theorem exists_contends {order : List Nat}
    (hfirst : ∀ (kind : Nat → Bool) (earlier : List Nat) (task : Nat)
      (later : List Nat), order = earlier ++ task :: later →
        (∀ other ∈ earlier, kind other = false) → kind task = true →
          Foremost permits kind task)
    (hsome : order.filterMap (failureOf outcomes) ≠ []) :
    ∃ task, Contends permits outcomes task ∧
      firstFailure (order.filterMap (failureOf outcomes)) =
        reportOf outcomes task := by
  rw [firstFailure_filterMap]
  cases hvoice : order.findSome? (voice outcomes) with
  | some error =>
      obtain ⟨earlier, task, later, hsplit, htask, hsilent⟩ :=
        List.findSome?_eq_some_iff.mp hvoice
      refine ⟨task, Or.inr (hfirst _ earlier task later hsplit ?_ ?_), ?_⟩
      · intro other hother
        unfold raisesDomain
        rw [hsilent other hother]
        rfl
      · unfold raisesDomain
        rw [htask]
        rfl
      · rw [reportOf_eq, htask]
  | none =>
      have hsilent := List.findSome?_eq_none_iff.mp hvoice
      have hfound : order.findSome? (failureOf outcomes) ≠ none := by
        intro hnone
        exact hsome (List.filterMap_eq_nil_iff.mpr
          (List.findSome?_eq_none_iff.mp hnone))
      obtain ⟨failure, hfailure⟩ := Option.ne_none_iff_exists'.mp hfound
      obtain ⟨earlier, task, later, hsplit, htask, hquiet⟩ :=
        List.findSome?_eq_some_iff.mp hfailure
      refine ⟨task, Or.inl (hfirst _ earlier task later hsplit ?_ ?_), ?_⟩
      · intro other hother
        unfold TaskGroup.failed
        rw [hquiet other hother]
        rfl
      · exact failed_iff.mpr ⟨failure, htask⟩
      · rw [reportOf_eq, hsilent task (by rw [hsplit]; simp)]

/-- A group that is over reports a task that contends. -/
theorem report_of_over (h : TaskGroup.Sound permits outcomes g)
    (hover : Over outcomes g) (hsome : failures outcomes ≠ []) :
    ∃ task, Contends permits outcomes task ∧
      firstFailure (errors outcomes g) = reportOf outcomes task := by
  have herrors : g.finished.filterMap (failureOf outcomes) ≠ [] := by
    rw [← errors_of_over hover]
    exact fun hnone => hsome ((h.errors_eq_nil_iff hover).mp hnone)
  rw [errors_of_over hover]
  exact exists_contends h.first herrors

/-- So does the order of the segments. -/
theorem report_of_order (hsome : failures outcomes ≠ [])
    (hpermits : 0 < permits) :
    ∃ task, Contends permits outcomes task ∧
      firstFailure (failures outcomes) = reportOf outcomes task := by
  rw [failures_eq_filterMap] at hsome ⊢
  exact exists_contends (fun kind earlier task later hsplit hnone hkind =>
    foremost_of_range hsplit hnone hkind hpermits) hsome

/-- A task that can be the first to fail is the only one reported in some
schedule. -/
theorem exists_report_failed {task : Nat}
    (h : Foremost permits (failed outcomes) task) :
    ∃ events : List Event,
      Over outcomes
          (events.foldl (step permits outcomes) Group.initial) ∧
        firstFailure (errors outcomes
          (events.foldl (step permits outcomes) Group.initial)) =
            reportOf outcomes task := by
  obtain ⟨events, hover, hfinished⟩ := exists_schedule h.1 h
  refine ⟨events, hover, ?_⟩
  rw [errors_of_over hover, hfinished]
  apply firstFailure_last
  intro other hother
  have hok := (List.mem_filter.mp hother).2
  rw [Bool.not_eq_true'] at hok
  exact voice_of_not_failed hok

/-- So is a task that can be the first to fail with a domain error. -/
theorem exists_report_domain {task : Nat}
    (h : Foremost permits (raisesDomain outcomes) task) :
    ∃ events : List Event,
      Over outcomes
          (events.foldl (step permits outcomes) Group.initial) ∧
        firstFailure (errors outcomes
          (events.foldl (step permits outcomes) Group.initial)) =
            reportOf outcomes task := by
  have hfailed := Contends.failed (Or.inr h)
  obtain ⟨events, hover, hfinished⟩ := exists_schedule hfailed h
  refine ⟨events, hover, ?_⟩
  rw [errors_of_over hover, hfinished]
  apply firstFailure_last
  intro other hother
  have hsilent := (List.mem_filter.mp hother).2
  rw [Bool.not_eq_true'] at hsilent
  exact Option.not_isSome_iff_eq_none.mp (Bool.eq_false_iff.mp hsilent)

-- ==================================================== the sequential model

section

open Detection

variable {unicode : Unicode} {config : DetectionConfig}
  {segmented : SegmentedDocument}

/-- The task of a segment that the detector reads. -/
def scanTask (unicode : Unicode) (config : DetectionConfig)
    (segmented : SegmentedDocument) (scan : Segment × List Candidate) :
    SegmentTask :=
  (scan.1,
    (finalize unicode config scan.2 (segmented.textOf scan.1)).mapError .leaf)

theorem firstFailure_gateway (error : GatewayError)
    (exceptions : List Failure) :
    firstFailure (.leaf (.gateway error) :: exceptions) =
      .gateway error := by
  have hvoice : domainError (.leaf (.gateway error)) =
      some (.gateway error) := by
    simp [domainError, Failure.flatten, isGatewayError]
  rw [firstFailure_eq, List.findSome?_cons, hvoice]
  rfl

/-- Reading the segments one after another stops at the first failure. -/
theorem detectSegments_eq (scans : List (Segment × List Candidate)) :
    detectSegments unicode config segmented scans =
      match failures (outcomesOf
        (scans.map (scanTask unicode config segmented))) with
      | [] => .ok (results (scans.map (scanTask unicode config segmented)))
      | failure :: rest => .error (firstFailure (failure :: rest)) := by
  induction scans with
  | nil => rfl
  | cons scan scans ih =>
      unfold detectSegments
      by_cases hcap : (reportedIn unicode config segmented scan).length ≤
          config.maxEntities
      · have htask : scanTask unicode config segmented scan =
            (scan.1, .ok (reportedIn unicode config segmented scan)) := by
          unfold scanTask
          rw [finalize_of_within hcap]
          rfl
        have hfailures : failures (outcomesOf
            ((scan :: scans).map (scanTask unicode config segmented))) =
              failures (outcomesOf
                (scans.map (scanTask unicode config segmented))) := by
          rw [List.map_cons, htask]
          rfl
        rw [hfailures, List.map_cons, htask]
        simp only [finalize_of_within hcap, ih]
        cases failures (outcomesOf
          (scans.map (scanTask unicode config segmented))) <;> rfl
      · obtain ⟨error, hraised, -⟩ := finalize_of_over hcap
        have htask : scanTask unicode config segmented scan =
            (scan.1, .error (.leaf (.gateway error))) := by
          unfold scanTask
          rw [hraised]
          rfl
        simp only [hraised, List.map_cons, htask, outcomesOf, failures,
          firstFailure_gateway]

/-- The analysis in the order of the segments is the one that reads them
one after another. -/
theorem analyzeInOrder_scans (policy : PolicySnapshot)
    (tenantId documentId : UUID) (maxEntities : Nat)
    (scans : List (Segment × List Candidate)) :
    analyzeInOrder policy tenantId documentId segmented maxEntities
        (scans.map (scanTask unicode config segmented)) =
      analyzeScans unicode config policy tenantId documentId segmented
        maxEntities scans := by
  unfold analyzeScans
  rw [detectSegments_eq]
  unfold analyzeInOrder
  cases failures (outcomesOf (scans.map (scanTask unicode config
    segmented))) <;> rfl

end

-- ==================================================== the order of segments

/-- Some failure is reported in the order of the segments exactly when the
group, once it is over, reports one. -/
theorem analyzeGroup_eq_inOrder_iff {policy : PolicySnapshot}
    {tenantId documentId : UUID} {segmented : SegmentedDocument}
    {maxEntities : Nat} {tasks : List SegmentTask}
    (h : TaskGroup.Sound permits (outcomesOf tasks) g)
    (hover : Over (outcomesOf tasks) g) :
    analyzeGroup policy tenantId documentId segmented maxEntities tasks g =
        analyzeInOrder policy tenantId documentId segmented maxEntities
          tasks ↔
      (failures (outcomesOf tasks) ≠ [] →
        firstFailure (errors (outcomesOf tasks) g) =
          firstFailure (failures (outcomesOf tasks))) := by
  have hnil := h.errors_eq_nil_iff hover
  unfold analyzeGroup analyzeInOrder
  cases hfailures : failures (outcomesOf tasks) with
  | nil =>
      rw [hnil.mpr hfailures]
      simp
  | cons failure rest =>
      cases herrors : errors (outcomesOf tasks) g with
      | nil =>
          rw [hnil.mp herrors] at hfailures
          cases hfailures
      | cons error others =>
          unfold analyzeTasks
          simp

/-- The analysis reports the first domain error in the order of the
segments, whatever the schedule, exactly when all segments that contend
would have the same error reported. -/
theorem failure_in_order_iff (policy : PolicySnapshot)
    (tenantId documentId : UUID) (segmented : SegmentedDocument)
    (maxEntities concurrency : Nat) (tasks : List SegmentTask) :
    (∀ events : List Event,
      Over (outcomesOf tasks) (runTasks concurrency tasks events) →
        analyzeGroup policy tenantId documentId segmented maxEntities tasks
            (runTasks concurrency tasks events) =
          analyzeInOrder policy tenantId documentId segmented maxEntities
            tasks) ↔
      ∀ task other, Contends concurrency (outcomesOf tasks) task →
        Contends concurrency (outcomesOf tasks) other →
          reportOf (outcomesOf tasks) task =
            reportOf (outcomesOf tasks) other := by
  constructor
  · intro h
    have hordered : ∀ task, Contends concurrency (outcomesOf tasks) task →
        reportOf (outcomesOf tasks) task =
          firstFailure (failures (outcomesOf tasks)) := by
      intro task htask
      have hscheduled : ∃ events : List Event,
          Over (outcomesOf tasks) (runTasks concurrency tasks events) ∧
            firstFailure (errors (outcomesOf tasks)
              (runTasks concurrency tasks events)) =
                reportOf (outcomesOf tasks) task :=
        htask.elim exists_report_failed exists_report_domain
      obtain ⟨events, hover, hreport⟩ := hscheduled
      have hsound := @sound_run _ _ concurrency (outcomesOf tasks) events
      rw [← hreport]
      refine (analyzeGroup_eq_inOrder_iff hsound hover).mp
        (h events hover) (fun hnone => ?_)
      have hquiet := failures_eq_nil_iff.mp hnone task
      rw [htask.failed] at hquiet
      cases hquiet
    intro task other htask hother
    rw [hordered task htask, hordered other hother]
  · intro h events hover
    have hsound := @sound_run _ _ concurrency (outcomesOf tasks) events
    refine (analyzeGroup_eq_inOrder_iff hsound hover).mpr (fun hsome => ?_)
    obtain ⟨task, htask, hreport⟩ := report_of_over hsound hover hsome
    obtain ⟨other, hother, hexpected⟩ :=
      report_of_order hsome htask.permits_pos
    rw [hreport, hexpected]
    exact h task other htask hother

/-- The first segment holds more entities than the detector may return,
and the analyzer runs out of memory on the second. -/
def overrunTasks : List SegmentTask :=
  [(⟨0, 0, 10, [1], Bounds.zero_lt_ten⟩,
      .error (.leaf (gatewayError .entityLimitExceeded
        [("limit", .int 500), ("detected", .int 501)]))),
    (⟨1, 6, 16, [1], by decide⟩,
      .error (.leaf (gatewayError .privacyDetectorUnavailable
        [("stage", .text "analyze".toList),
          ("reason", .text "MemoryError".toList)])))]

/-- The second segment is done first, and its error is reported. -/
theorem overrun_out_of_order :
    ¬ ∀ events : List Event,
      Over (outcomesOf overrunTasks)
          (runTasks defaultConcurrency overrunTasks events) →
        analyzeGroup evenPolicy ⟨2⟩ ⟨3⟩ sampleLine defaultMaxEntities
            overrunTasks
            (runTasks defaultConcurrency overrunTasks events) =
          analyzeInOrder evenPolicy ⟨2⟩ ⟨3⟩ sampleLine defaultMaxEntities
            overrunTasks := by
  intro h
  have hsame := h [.start, .start, .finish 1, .collect] (by decide)
  exact absurd (Except.error.inj hsame) (by decide)

end PrivacyGateway.Documents
