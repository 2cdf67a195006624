/-
Detection over the segments of a document, one task for each.

The tasks of a document form a group whose permits the analyzer shares
among the documents in flight. What a segment's task comes to does not
depend on the schedule; which failures the group collects, and in which
order, does. `analyzeGroup` is the analysis from a group that is over, and
`analyzeInOrder` is the one that the schedule has no part in: it reports
the failures of all segments, in the order of the segments.
-/
import PrivacyGateway.Documents.Analysis
import PrivacyGateway.Lib.TaskGroup

namespace PrivacyGateway.Documents

open TaskGroup

/-- Segments detected at once, across every document in flight. -/
def defaultConcurrency : Nat := 4

/-- What a task raises: an exception, or a group of them. -/
inductive Failure
  | leaf (error : Exn)
  | group (exceptions : List Failure)

mutual

/-- The leaf exceptions of a possibly nested group, in order. -/
def Failure.flatten : Failure → List Exn
  | .leaf error => [error]
  | .group exceptions => flattenAll exceptions

def flattenAll : List Failure → List Exn
  | [] => []
  | failure :: failures => failure.flatten ++ flattenAll failures

end

/-- `isinstance(failure, GatewayError)`. -/
def isGatewayError : Exn → Bool
  | .gateway _ => true
  | _ => false

/-- What is reported when no failure is a domain error. -/
def stageFailed : Exn :=
  gatewayError .privacyDetectorUnavailable
    [("stage", .text "document_detection".toList),
      ("reason", .text "stage_failed".toList)]

/-- The domain error to report for a group of failed segments. -/
def firstFailure (exceptions : List Failure) : Exn :=
  match (flattenAll exceptions).find? isGatewayError with
  | some failure => failure
  | none => stageFailed

/-- A segment and what its task comes to. -/
abbrev SegmentTask := Segment × Except Failure (List DetectedEntity)

/-- The outcomes of the group's tasks. -/
def outcomesOf (tasks : List SegmentTask) :
    List (Except Failure (List DetectedEntity)) :=
  tasks.map Prod.snd

/-- The results of the tasks that return one. -/
def results : List SegmentTask → List (Segment × List DetectedEntity)
  | [] => []
  | (segment, .ok entities) :: tasks => (segment, entities) :: results tasks
  | (_, .error _) :: tasks => results tasks

/-- The group after a schedule. -/
def runTasks (concurrency : Nat) (tasks : List SegmentTask)
    (events : List Event) : Group :=
  events.foldl (step concurrency (outcomesOf tasks)) Group.initial

section

variable (policy : PolicySnapshot) (tenantId documentId : UUID)
  (segmented : SegmentedDocument) (maxEntities : Nat)

/-- The analysis, from the failures that are reported to it. -/
def analyzeTasks (tasks : List SegmentTask) :
    List Failure → Except Exn AnalyzedDocument
  | [] =>
      analyzeSegments policy tenantId documentId segmented maxEntities
        (results tasks)
  | failure :: failures => .error (firstFailure (failure :: failures))

/-- The analysis when the task group is over. -/
def analyzeGroup (tasks : List SegmentTask) (group : Group) :
    Except Exn AnalyzedDocument :=
  analyzeTasks policy tenantId documentId segmented maxEntities tasks
    (errors (outcomesOf tasks) group)

/-- The analysis with every failure reported, in the order of the
segments. -/
def analyzeInOrder (tasks : List SegmentTask) :
    Except Exn AnalyzedDocument :=
  analyzeTasks policy tenantId documentId segmented maxEntities tasks
    (failures (outcomesOf tasks))

end

end PrivacyGateway.Documents
