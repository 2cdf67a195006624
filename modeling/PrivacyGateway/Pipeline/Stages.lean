/-
Stage execution: one failure translation for every stage.

A gateway error passes through a stage unchanged. A time limit or any
other exception becomes the error that stage is supposed to produce, so
what leaves a stage is a gateway error.
-/
import PrivacyGateway.Domain
import PrivacyGateway.Lib.Effect

namespace PrivacyGateway.Pipeline

open Effect

/-- Named stages. -/
inductive PipelineStage
  | policy
  | detection
  | tokenization
  | provider
  | restoration
  | audit
deriving DecidableEq

def PipelineStage.value : PipelineStage → Text
  | .policy => "policy".toList
  | .detection => "detection".toList
  | .tokenization => "tokenization".toList
  | .provider => "provider".toList
  | .restoration => "restoration".toList
  | .audit => "audit".toList

def deadlineExceeded : Text := "deadline_exceeded".toList
def stageFailed : Text := "stage_failed".toList

/-- The exception a passed deadline surfaces as. -/
def timeoutError : Exn := .other "TimeoutError"

/-- The error codes a stage fails with: when it fails unexpectedly, and
when the failure was the deadline. -/
structure StageFailure where
  code : ErrorCode
  timeoutCode : ErrorCode

/-- A failure builder for one stage. -/
def stageFailure (code : ErrorCode)
    (timeoutCode : Option ErrorCode := none) : StageFailure where
  code := code
  timeoutCode := timeoutCode.getD code

/-- The domain error of a stage, for a reason code. -/
def StageFailure.build (failure : StageFailure) (stage : PipelineStage)
    (why : Text) : Exn :=
  gatewayError
    (if why = deadlineExceeded then failure.timeoutCode else failure.code)
    [("stage", .text stage.value), ("reason", .text why)]

/-- What a stage raises for what its work raised. -/
def stageError (stage : PipelineStage) (failure : StageFailure) :
    Exn → Exn
  | .gateway error => .gateway error
  | e =>
      if e = timeoutError then failure.build stage deadlineExceeded
      else failure.build stage stageFailed

/-- Await one stage, failing closed. -/
def runStage {σ α : Type} (stage : PipelineStage) (failure : StageFailure)
    (work : Eff σ Exn α) : Eff σ Exn α :=
  translate (stageError stage failure) work

/-- What a stage raises is a gateway error. -/
theorem stageError_gateway (stage : PipelineStage) (failure : StageFailure)
    (e : Exn) : ∃ error, stageError stage failure e = .gateway error := by
  unfold stageError
  split
  · exact ⟨_, rfl⟩
  · split
    · exact ⟨_, rfl⟩
    · exact ⟨_, rfl⟩

theorem runStage_raises {σ α : Type} (stage : PipelineStage)
    (failure : StageFailure) (work : Eff σ Exn α) :
    Raises (fun e => ∃ error, e = .gateway error)
      (runStage stage failure work) := by
  intro s e t hrun
  obtain ⟨e', -, rfl⟩ := translate_error_iff.mp hrun
  exact stageError_gateway stage failure e'

end PrivacyGateway.Pipeline
