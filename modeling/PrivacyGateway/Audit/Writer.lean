/-
The background writer, its queue, and the calls that stop it.

A writer waits for a record, takes it, hands it to the sink, and counts the
answer; then it waits again. Stopping cancels the writer, after the queue
has run empty or the drain timed out, waits for it to end, and counts what
is left. A cancelled writer ends where it next resumes, with the record it
was writing if there is one.

A step is what one task does between two suspensions, or less. Records go
by their place in the order of acceptance: the queue is first in, first
out, so what it holds is what was accepted and not yet taken.
-/
import PrivacyGateway.Audit.Queue

namespace PrivacyGateway.Audit

-- ==================================================== tasks

/-- Where a writer stands in `_run`. -/
inductive WriterPhase where
  | getting
  | writing (number : Nat)
  | ended
deriving DecidableEq

structure WriterTask where
  phase : WriterPhase := .getting
  cancelRequested : Bool := false
deriving DecidableEq

def WriterPhase.number? : WriterPhase → Option Nat
  | .writing number => some number
  | _ => none

/-- The record a writer holds. -/
def WriterTask.holding (task : WriterTask) : Option Nat :=
  task.phase.number?

/-- Where a call of `stop` stands. -/
inductive StopPhase where
  /-- In `queue.join()`, and whether the queue has run empty since. -/
  | joining (worker : Nat) (released : Bool)
  | awaiting (worker : Nat)
  | finished
deriving DecidableEq

def StopPhase.release : StopPhase → StopPhase
  | .joining worker _ => .joining worker true
  | phase => phase

-- ==================================================== the service

/-- The service with its tasks, and the records its counters count. -/
structure WriterSystem where
  audit : QueueState
  /-- How many records writers have taken. -/
  taken : Nat := 0
  /-- Records put and not yet `task_done`. -/
  unfinished : Nat := 0
  worker : Option Nat := none
  writers : List WriterTask := []
  stopping : List StopPhase := []
  written : List Nat := []
  failed : List Nat := []
  dropped : List Nat := []
deriving DecidableEq

def WriterSystem.init (maxQueueSize : Nat) : WriterSystem where
  audit := { maxQueueSize := maxQueueSize }

inductive WriterEvent where
  /-- `start()`. -/
  | starts
  /-- `submit`, with the record stamped. -/
  | submits (stamped : AuditRecord)
  /-- A writer resumes; the sink, if it was asked, stored the record or
  raised. -/
  | resumes (writer : Nat) (stored : Bool)
  /-- `stop` is called. -/
  | stops (drain : Bool)
  /-- A call of `stop` resumes. -/
  | proceeds (call : Nat)
  /-- The drain timeout of a call of `stop` expires. -/
  | expires (call : Nat)

namespace WriterSystem

variable (system : WriterSystem)

def accepted : Nat := system.taken + system.audit.queue.length

/-- The records in the queue. -/
def queued : List Nat :=
  List.range' system.taken system.audit.queue.length

/-- The records writers hold. -/
def held : List Nat := system.writers.filterMap WriterTask.holding

def setWriter (writer : Nat) (task : WriterTask) : WriterSystem :=
  { system with writers := system.writers.set writer task }

def setStop (call : Nat) (phase : StopPhase) : WriterSystem :=
  { system with stopping := system.stopping.set call phase }

def start : WriterSystem :=
  match system.worker with
  | some _ => system
  | none =>
      { system with
        audit := { system.audit with stopped := false }
        worker := some system.writers.length
        writers := system.writers ++ [{}] }

/-- `submit`; what it queues is one more `task_done` to come. -/
def submit (failClosed : Bool) (stamped : AuditRecord) : WriterSystem :=
  let audit := (accept failClosed stamped system.audit).2
  { system with
    audit := audit
    unfinished := system.unfinished +
      (audit.queue.length - system.audit.queue.length) }

/-- `queue.get_nowait()`: the head goes, and the rest stays. -/
def take (rest : List AuditRecord) : WriterSystem :=
  { system with
    audit := { system.audit with queue := rest }
    taken := system.taken + 1 }

/-- `queue.task_done()`: the last one releases every `join`. -/
def taskDone : WriterSystem :=
  { system with
    unfinished := system.unfinished - 1
    stopping :=
      if system.unfinished ≤ 1 then system.stopping.map StopPhase.release
      else system.stopping }

/-- What the sink made of the record, counted. -/
def count (number : Nat) (stored : Bool) : WriterSystem :=
  if stored then
    { system with
      audit := { system.audit with degraded := false }
      written := system.written ++ [number] }
  else
    { system with
      audit := { system.audit with degraded := true }
      failed := system.failed ++ [number] }

/-- One step of a writer. A record whose write is cancelled is done with,
and not counted. -/
def runWriter (writer : Nat) (stored : Bool) : WriterSystem :=
  match system.writers[writer]? with
  | none => system
  | some task =>
      match task.phase with
      | .ended => system
      | .getting =>
          if task.cancelRequested then
            system.setWriter writer { task with phase := .ended }
          else
            match system.audit.queue with
            | [] => system
            | _ :: rest =>
                (system.setWriter writer
                  { task with phase := .writing system.taken }).take rest
      | .writing number =>
          if task.cancelRequested then
            (system.setWriter writer { task with phase := .ended }).taskDone
          else
            ((system.setWriter writer { task with phase := .getting }).count
              number stored).taskDone

/-- `worker.cancel()`. -/
def cancel (writer : Nat) : WriterSystem :=
  match system.writers[writer]? with
  | none => system
  | some task => system.setWriter writer { task with cancelRequested := true }

/-- A call of `stop`, up to where it first waits. -/
def stop (drain : Bool) : WriterSystem :=
  let stopped :=
    { system with audit := { system.audit with stopped := true } }
  match system.worker with
  | none => stopped
  | some worker =>
      if drain && !system.audit.queue.isEmpty then
        { stopped with stopping := system.stopping ++
            [.joining worker (decide (system.unfinished = 0))] }
      else
        { stopped.cancel worker with
          stopping := system.stopping ++ [.awaiting worker] }

/-- The worker has ended: forget it, and count what it left. -/
def undelivered : WriterSystem :=
  { system with
    worker := none
    dropped := system.dropped ++ system.queued }

def hasEnded (writer : Nat) : Bool :=
  match system.writers[writer]? with
  | none => true
  | some task => decide (task.phase = .ended)

/-- The next step of a call of `stop`. -/
def proceed (call : Nat) : WriterSystem :=
  match system.stopping[call]? with
  | some (.joining worker true) =>
      (system.cancel worker).setStop call (.awaiting worker)
  | some (.awaiting worker) =>
      if system.hasEnded worker then
        system.undelivered.setStop call .finished
      else system
  | _ => system

def expire (call : Nat) : WriterSystem :=
  match system.stopping[call]? with
  | some (.joining worker _) =>
      (system.cancel worker).setStop call (.awaiting worker)
  | _ => system

def step (failClosed : Bool) : WriterEvent → WriterSystem
  | .starts => system.start
  | .submits stamped => system.submit failClosed stamped
  | .resumes writer stored => system.runWriter writer stored
  | .stops drain => system.stop drain
  | .proceeds call => system.proceed call
  | .expires call => system.expire call

/-- Every accepted record, where it is: waiting in the queue, in a
writer's hands, or counted. -/
def fates : List Nat :=
  system.queued.filter (fun n => decide (n ∉ system.dropped)) ++
    system.held ++ system.written ++ system.failed ++ system.dropped

/-- Every accepted record is in one place, and in one only. -/
def Conserved : Prop :=
  system.fates.Perm (List.range system.accepted)

instance : Decidable system.Conserved :=
  inferInstanceAs (Decidable (List.Perm _ _))

/-- What a step must not meet: a writer that resumes with a record and a
cancellation, a writer that takes a record a shutdown has counted, or a
shutdown that counts one again. -/
def Counts : WriterEvent → Prop
  | .resumes writer _ =>
      ∀ task ∈ system.writers[writer]?,
        (∀ number, task.phase = .writing number →
          task.cancelRequested = false) ∧
        (task.phase = .getting → task.cancelRequested = false →
          ∀ number ∈ system.queued.head?, number ∉ system.dropped)
  | .proceeds call =>
      ∀ worker, system.stopping[call]? = some (.awaiting worker) →
        system.hasEnded worker = true →
          ∀ number ∈ system.queued, number ∉ system.dropped
  | _ => True

end WriterSystem

end PrivacyGateway.Audit
