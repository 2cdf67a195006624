/-
A process that reads and writes, one message at a time, through a filter.

The process decides each action from what it was handed before. The filter
stands between it and the two ends: what is read may be handed on changed,
and what is written may be passed on, dropped or replaced. `run` is any
number of turns of a process over what there is to read; `run_invariant`
says that what the filter keeps at each action holds along every run of
every process.
-/
import Mathlib.Data.List.Basic
import Mathlib.Logic.Function.Iterate

namespace Interaction

variable {γ ι ο σ : Type}

/-- The next action of a process. -/
inductive Action (ι ο σ : Type)
  | read (next : ι → σ)
  | write (message : ο) (next : σ)
  | finish

/-- What the process did: a message was read for it, or it wrote one. -/
inductive Event (ι ο : Type)
  | read (message : ι)
  | write (message : ο)
deriving DecidableEq

/-- The messages written. -/
def written : List (Event ι ο) → List ο
  | [] => []
  | .read _ :: events => written events
  | .write message :: events => message :: written events

@[simp] theorem written_append (events more : List (Event ι ο)) :
    written (events ++ more) = written events ++ written more := by
  induction events with
  | nil => rfl
  | cons event events ih =>
      cases event with
      | read message => exact ih
      | write message => exact congrArg (message :: ·) ih

/-- What stands between the process and the two ends. -/
structure Filter (γ ι ο : Type) where
  onRead : ι → γ → ι × γ
  onWrite : ο → γ → List ο × γ

/-- Nothing is changed. -/
def Filter.passThrough : Filter γ ι ο where
  onRead := fun message state => (message, state)
  onWrite := fun message state => ([message], state)

/-- A process under way: what is left to read, the filter's state, what
happened, what was handed to the process and what came out. -/
structure Exchange (γ ι ο σ : Type) where
  process : σ
  incoming : List ι
  state : γ
  events : List (Event ι ο)
  delivered : List ι
  output : List ο

/-- Before the first action. -/
def Exchange.begin (process : σ) (incoming : List ι) (state : γ) :
    Exchange γ ι ο σ :=
  ⟨process, incoming, state, [], [], []⟩

section Run

variable (filter : Filter γ ι ο) (actions : σ → Action ι ο σ)

/-- One action. A process that reads waits while there is nothing to
read. -/
def advance (x : Exchange γ ι ο σ) : Exchange γ ι ο σ :=
  match actions x.process with
  | .finish => x
  | .read next =>
      match x.incoming with
      | [] => x
      | message :: incoming =>
          let (handed, state) := filter.onRead message x.state
          { process := next handed
            incoming := incoming
            state := state
            events := x.events ++ [.read message]
            delivered := x.delivered ++ [handed]
            output := x.output }
  | .write message next =>
      let (passed, state) := filter.onWrite message x.state
      { process := next
        incoming := x.incoming
        state := state
        events := x.events ++ [.write message]
        delivered := x.delivered
        output := x.output ++ passed }

/-- A number of turns. -/
def run (turns : Nat) (x : Exchange γ ι ο σ) : Exchange γ ι ο σ :=
  (advance filter actions)^[turns] x

variable {filter actions}
  {P : γ → List (Event ι ο) → List ι → List ο → Prop}

/-- What the filter keeps at each action holds along every run. -/
theorem run_invariant
    (hread : ∀ state events delivered output message,
      P state events delivered output →
        P (filter.onRead message state).2 (events ++ [.read message])
          (delivered ++ [(filter.onRead message state).1]) output)
    (hwrite : ∀ state events delivered output message,
      P state events delivered output →
        P (filter.onWrite message state).2 (events ++ [.write message])
          delivered (output ++ (filter.onWrite message state).1))
    {x : Exchange γ ι ο σ} (turns : Nat)
    (hstart : P x.state x.events x.delivered x.output) :
    P (run filter actions turns x).state (run filter actions turns x).events
      (run filter actions turns x).delivered
      (run filter actions turns x).output := by
  induction turns generalizing x with
  | zero => exact hstart
  | succ turns ih =>
      apply ih
      unfold advance
      split
      · exact hstart
      · split
        · exact hstart
        · exact hread _ _ _ _ _ hstart
      · exact hwrite _ _ _ _ _ hstart

end Run

end Interaction
