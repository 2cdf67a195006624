/-
Runs of a step function.

A run is a list of operations, taken one after another from a state.
`Along` is a condition on every step of a run, in the state it is taken
in; `Throughout` is a property of every state the run reaches, its first
and its last included; `Sometime` is a property of one of them.
`Along.invariant` is the induction: what holds at the start and is
preserved by every step that meets the condition holds throughout a run
that meets it. `history` is the one for what a state owes to the run that
led to it.
-/
import Mathlib.Data.List.Basic
import Mathlib.Data.List.Induction

namespace Run

variable {σ ι : Type} (step : σ → ι → σ)

/-- Every step of the run meets the condition, in its state. -/
def Along (allowed : σ → ι → Prop) (s : σ) (ops : List ι) : Prop :=
  ∀ before op after, ops = before ++ op :: after →
    allowed (before.foldl step s) op

/-- The property holds in every state of the run. -/
def Throughout (P : σ → Prop) (s : σ) (ops : List ι) : Prop :=
  ∀ before after, ops = before ++ after → P (before.foldl step s)

/-- The property holds in some state of the run. -/
def Sometime (P : σ → Prop) (s : σ) (ops : List ι) : Prop :=
  ∃ before after, ops = before ++ after ∧ P (before.foldl step s)

variable {step} {allowed : σ → ι → Prop} {P Q : σ → Prop} {s : σ}
  {ops : List ι}

theorem along_nil : Along step allowed s [] := by
  intro before op after hsplit
  exact absurd hsplit.symm (by simp)

/-- A run meets the condition when its first step does, and the rest from
there. -/
theorem along_cons_iff {op : ι} :
    Along step allowed s (op :: ops) ↔
      allowed s op ∧ Along step allowed (step s op) ops := by
  constructor
  · intro h
    refine ⟨h [] op ops rfl, ?_⟩
    intro before next after hsplit
    exact h (op :: before) next after (congrArg (List.cons op) hsplit)
  · intro h before next after hsplit
    cases before with
    | nil =>
        injection hsplit with hop _
        rw [← hop]
        exact h.1
    | cons first before =>
        injection hsplit with hop hrest
        rw [← hop]
        exact h.2 before next after hrest

theorem Along.before {ops after : List ι}
    (h : Along step allowed s (ops ++ after)) : Along step allowed s ops := by
  intro before op rest hsplit
  apply h before op (rest ++ after)
  rw [hsplit, List.append_assoc, List.cons_append]

theorem Along.last {op : ι} (h : Along step allowed s (ops ++ [op])) :
    allowed (ops.foldl step s) op :=
  h ops op [] rfl

theorem Throughout.last (h : Throughout step P s ops) :
    P (ops.foldl step s) :=
  h ops [] (List.append_nil ops).symm

/-- A condition on the operations alone. -/
theorem along_of_forall {good : ι → Prop} (h : ∀ op ∈ ops, good op) :
    Along step (fun _ op => good op) s ops := by
  intro before op after hsplit
  apply h
  rw [hsplit]
  exact List.mem_append_right _ List.mem_cons_self

theorem Along.and {other : σ → ι → Prop} (h : Along step allowed s ops)
    (h' : Along step other s ops) :
    Along step (fun s op => allowed s op ∧ other s op) s ops := by
  intro before op after hsplit
  exact ⟨h before op after hsplit, h' before op after hsplit⟩

theorem Throughout.imp (h : Throughout step P s ops)
    (hpq : ∀ s, P s → Q s) : Throughout step Q s ops := by
  intro before after hsplit
  exact hpq _ (h before after hsplit)

/-- What holds at the start and across every step that meets the
condition holds at the end of a run that meets it. -/
theorem Along.preserves (h : Along step allowed s ops)
    (hstep : ∀ s op, allowed s op → P s → P (step s op)) (hstart : P s) :
    P (ops.foldl step s) := by
  induction ops using List.reverseRecOn with
  | nil => exact hstart
  | append_singleton ops op ih =>
      rw [List.foldl_append]
      exact hstep _ _ h.last (ih h.before)

/-- The same, in every state of the run. -/
theorem Along.invariant (h : Along step allowed s ops)
    (hstep : ∀ s op, allowed s op → P s → P (step s op)) (hstart : P s) :
    Throughout step P s ops := by
  intro before after hsplit
  rw [hsplit] at h
  exact h.before.preserves hstep hstart

/-- What every step preserves holds throughout every run. -/
theorem invariant (hstep : ∀ s op, P s → P (step s op)) (hstart : P s)
    (ops : List ι) : Throughout step P s ops :=
  (along_of_forall (fun _ _ => trivial)).invariant
    (fun s op _ => hstep s op) hstart

/-- Where a condition on a step is exactly that it keeps the property, it is
on a run exactly that every state has it. -/
theorem throughout_iff_along
    (hstep : ∀ s op, P s → (P (step s op) ↔ allowed s op)) (hstart : P s) :
    Throughout step P s ops ↔ Along step allowed s ops := by
  constructor
  · intro h before op after hsplit
    have hbefore := h before (op :: after) hsplit
    have hafter := h (before ++ [op]) after (by rw [hsplit]; simp)
    rw [List.foldl_append] at hafter
    exact (hstep _ op hbefore).mp hafter
  · intro h
    exact h.invariant (fun s op hop hs => (hstep s op hs).mpr hop) hstart

theorem sometime_last (h : P (ops.foldl step s)) :
    Sometime step P s ops :=
  ⟨ops, [], (List.append_nil ops).symm, h⟩

theorem Sometime.append (h : Sometime step P s ops) (more : List ι) :
    Sometime step P s (ops ++ more) := by
  obtain ⟨before, after, rfl, hbefore⟩ := h
  exact ⟨before, after ++ more, List.append_assoc .., hbefore⟩

theorem Sometime.imp (h : Sometime step P s ops)
    (hpq : ∀ s, P s → Q s) : Sometime step Q s ops := by
  obtain ⟨before, after, hops, hbefore⟩ := h
  exact ⟨before, after, hops, hpq _ hbefore⟩

theorem Throughout.sometime (h : Throughout step P s ops)
    (h' : Sometime step Q s ops) :
    Sometime step (fun s => P s ∧ Q s) s ops := by
  obtain ⟨before, after, hops, hbefore⟩ := h'
  exact ⟨before, after, hops, h before after hops, hbefore⟩

/-- What a run and the state it leads to have in common. -/
theorem history {R : List ι → σ → Prop} (hstart : R [] s)
    (hstep : ∀ ops op, R ops (ops.foldl step s) →
      R (ops ++ [op]) (step (ops.foldl step s) op)) (ops : List ι) :
    R ops (ops.foldl step s) := by
  induction ops using List.reverseRecOn with
  | nil => exact hstart
  | append_singleton ops op ih =>
      rw [List.foldl_append]
      exact hstep ops op ih

end Run
