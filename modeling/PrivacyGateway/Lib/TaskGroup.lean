/-
A group of tasks that share a bounded number of permits.

A task needs a permit to run and keeps it until it ends; the tasks get
theirs in order, and users outside the group may hold some of them in the
meantime. A task that has ended is collected later, in the order the tasks
ended. Collecting the first one that failed aborts the group: no task
starts any more, and one that still runs is cancelled and ends without an
outcome.

Which failures are collected depends on the schedule, but not on it alone:
of any kind of task, the first one to end has fewer of its kind before it
than there are permits (`Sound.first`). And every such task is the first of
its kind to end in some schedule: the ones before it keep their permits
until the end (`exists_schedule`).
-/
import Mathlib.Data.List.Perm.Subperm
import Mathlib.Data.List.Range
import PrivacyGateway.Lib.Run

namespace TaskGroup

variable {ε α : Type}

/-- The first `started` tasks have a permit or had one; `finished` is in
the order they ended, and the first `collected` of those are collected. -/
structure Group where
  started : Nat
  running : List Nat
  finished : List Nat
  collected : Nat
  aborting : Bool
  borrowed : Nat
deriving DecidableEq

def Group.initial : Group := ⟨0, [], [], 0, false, 0⟩

inductive Event
  /-- A user outside the group takes a permit, and returns it. -/
  | borrow
  | giveBack
  | start
  | finish (task : Nat)
  | collect
deriving DecidableEq

/-- What the task fails with. -/
def failureOf (outcomes : List (Except ε α)) (task : Nat) : Option ε :=
  match outcomes[task]? with
  | some (.error failure) => some failure
  | _ => none

def failed (outcomes : List (Except ε α)) (task : Nat) : Bool :=
  (failureOf outcomes task).isSome

/-- One step; an event that is not possible changes nothing. -/
def step (permits : Nat) (outcomes : List (Except ε α)) (g : Group) :
    Event → Group
  | .borrow =>
      if g.running.length + g.borrowed < permits then
        { g with borrowed := g.borrowed + 1 }
      else g
  | .giveBack => { g with borrowed := g.borrowed - 1 }
  | .start =>
      if g.aborting = false ∧ g.started < outcomes.length ∧
          g.running.length + g.borrowed < permits then
        { g with
          started := g.started + 1
          running := g.running ++ [g.started] }
      else g
  | .finish task =>
      if task ∈ g.running then
        { g with
          running := g.running.erase task
          finished := g.finished ++ [task] }
      else g
  | .collect =>
      match g.finished[g.collected]? with
      | none => g
      | some task =>
          if failed outcomes task then
            { g with
              collected := g.collected + 1
              aborting := true
              running := [] }
          else { g with collected := g.collected + 1 }

/-- Every task has ended or is cancelled, and all that ended are
collected. -/
def Over (outcomes : List (Except ε α)) (g : Group) : Prop :=
  g.collected = g.finished.length ∧
    (g.aborting = true ∨
      (g.started = outcomes.length ∧ g.running = []))

instance (outcomes : List (Except ε α)) (g : Group) :
    Decidable (Over outcomes g) := by
  unfold Over
  infer_instance

/-- The failures collected, in the order the tasks ended. -/
def errors (outcomes : List (Except ε α)) (g : Group) : List ε :=
  (g.finished.take g.collected).filterMap (failureOf outcomes)

/-- The failures of all tasks, in the order of the tasks. -/
def failures : List (Except ε α) → List ε
  | [] => []
  | .error failure :: outcomes => failure :: failures outcomes
  | .ok _ :: outcomes => failures outcomes

variable {permits : Nat} {outcomes : List (Except ε α)} {g : Group}

theorem failureOf_eq_some {task : Nat} {failure : ε} :
    failureOf outcomes task = some failure ↔
      outcomes[task]? = some (.error failure) := by
  unfold failureOf
  constructor
  · intro h
    split at h
    · rename_i hget
      rw [hget, Option.some.inj h]
    · cases h
  · intro h
    rw [h]

theorem failed_iff {task : Nat} :
    failed outcomes task = true ↔
      ∃ failure, failureOf outcomes task = some failure :=
  Option.isSome_iff_exists

theorem lt_length_of_failed {task : Nat} (h : failed outcomes task) :
    task < outcomes.length := by
  obtain ⟨failure, hfailure⟩ := failed_iff.mp h
  have hget := failureOf_eq_some.mp hfailure
  exact (List.getElem?_eq_some_iff.mp hget).1

theorem mem_failures {failure : ε} :
    failure ∈ failures outcomes ↔ Except.error failure ∈ outcomes := by
  induction outcomes with
  | nil => exact ⟨fun h => (nomatch h), fun h => (nomatch h)⟩
  | cons outcome outcomes ih =>
      cases outcome with
      | error other =>
          show failure ∈ other :: failures outcomes ↔ _
          rw [List.mem_cons, List.mem_cons, ih, Except.error.injEq]
      | ok value =>
          show failure ∈ failures outcomes ↔ _
          rw [List.mem_cons, ih]
          exact ⟨Or.inr, fun h => h.resolve_left (fun h => nomatch h)⟩

theorem failures_eq_nil_iff :
    failures outcomes = [] ↔ ∀ task, failed outcomes task = false := by
  rw [List.eq_nil_iff_forall_not_mem]
  constructor
  · intro h task
    refine Bool.eq_false_iff.mpr (fun hfailed => ?_)
    obtain ⟨failure, hfailure⟩ := failed_iff.mp hfailed
    have hget := failureOf_eq_some.mp hfailure
    exact h failure (mem_failures.mpr (List.mem_of_getElem? hget))
  · intro h failure hmem
    obtain ⟨task, hget⟩ := List.mem_iff_getElem?.mp (mem_failures.mp hmem)
    have hfailed : failed outcomes task = true :=
      failed_iff.mpr ⟨failure, failureOf_eq_some.mpr hget⟩
    rw [h task] at hfailed
    cases hfailed

/-- The failures are those of the tasks in order. -/
theorem failures_eq_filterMap (outcomes : List (Except ε α)) :
    failures outcomes =
      (List.range outcomes.length).filterMap (failureOf outcomes) := by
  induction outcomes with
  | nil => rfl
  | cons outcome outcomes ih =>
      have hrest : (List.range outcomes.length).filterMap
          (failureOf (outcome :: outcomes) ∘ Nat.succ) =
            failures outcomes := by
        rw [ih]
        rfl
      rw [List.length_cons, List.range_succ_eq_map, List.filterMap_cons,
        List.filterMap_map, hrest]
      cases outcome <;> rfl

-- ==================================================== the first of a kind

/-- A task of the kind with fewer of them before it than permits. -/
def Foremost (permits : Nat) (kind : Nat → Bool) (task : Nat) : Prop :=
  kind task = true ∧ (List.range task).countP kind < permits

/-- In the order of the tasks, the first of a kind has none before it. -/
theorem foremost_of_range {kind : Nat → Bool} {count task : Nat}
    {earlier later : List Nat}
    (hsplit : List.range count = earlier ++ task :: later)
    (hnone : ∀ other ∈ earlier, kind other = false)
    (hkind : kind task = true) (hpermits : 0 < permits) :
    Foremost permits kind task := by
  refine ⟨hkind, ?_⟩
  have hsorted := List.pairwise_lt_range (n := count)
  have htask : task ∈ List.range count := by
    rw [hsplit]
    simp
  rw [hsplit] at hsorted
  have hzero : (List.range task).countP kind = 0 := by
    refine List.countP_eq_zero.mpr (fun other hother => ?_)
    have hlt := List.mem_range.mp hother
    have hmem : other ∈ List.range count :=
      List.mem_range.mpr (hlt.trans (List.mem_range.mp htask))
    rw [hsplit] at hmem
    rcases List.mem_append.mp hmem with hmem | hmem
    · exact Bool.eq_false_iff.mp (hnone other hmem)
    · rcases List.mem_cons.mp hmem with rfl | hmem
      · exact absurd hlt (lt_irrefl _)
      · have hlater := (List.pairwise_cons.mp
          (List.pairwise_append.mp hsorted).2.1).1 other hmem
        omega
  omega

/-- What holds of the group after every schedule. -/
structure Sound (permits : Nat) (outcomes : List (Except ε α))
    (g : Group) : Prop where
  bounded : g.running.length + g.borrowed ≤ permits
  started_le : g.started ≤ outcomes.length
  nodup : g.running.Nodup
  running_lt : ∀ task ∈ g.running, task < g.started
  collected_le : g.collected ≤ g.finished.length
  accounted : g.aborting = false →
    ∀ task < g.started, task ∈ g.running ∨ task ∈ g.finished
  stopped : g.aborting = true → g.running = []
  aborts : g.aborting = true ↔
    ∃ task ∈ g.finished.take g.collected, failed outcomes task = true
  first : ∀ (kind : Nat → Bool) (earlier : List Nat) (task : Nat)
    (later : List Nat), g.finished = earlier ++ task :: later →
      (∀ other ∈ earlier, kind other = false) → kind task = true →
        Foremost permits kind task

theorem sound_initial : Sound permits outcomes Group.initial where
  bounded := Nat.zero_le _
  started_le := Nat.zero_le _
  nodup := List.nodup_nil
  running_lt := fun _ h => nomatch h
  collected_le := le_refl _
  accounted := fun _ _ h => nomatch h
  stopped := fun h => nomatch h
  aborts := ⟨fun h => (nomatch h), fun ⟨_, h, _⟩ => (nomatch h)⟩
  first := by
    intro kind earlier task later hsplit
    exact absurd hsplit.symm (by simp [Group.initial])

/-- A task that ends now, before any of its kind: the ones before it are
running, so each has a permit, and so has the task itself. -/
theorem Sound.ends_first (h : Sound permits outcomes g)
    {kind : Nat → Bool} {task : Nat} (htask : task ∈ g.running)
    (hnone : ∀ other ∈ g.finished, kind other = false)
    (hkind : kind task = true) : Foremost permits kind task := by
  refine ⟨hkind, ?_⟩
  have hgoing : g.aborting = false := by
    refine Bool.eq_false_iff.mpr (fun habort => ?_)
    rw [h.stopped habort] at htask
    cases htask
  have hnodup : (task :: (List.range task).filter kind).Nodup := by
    refine List.nodup_cons.mpr ⟨?_, List.nodup_range.filter _⟩
    intro hmem
    exact absurd (List.mem_range.mp (List.mem_filter.mp hmem).1)
      (lt_irrefl task)
  have hsub : task :: (List.range task).filter kind ⊆ g.running := by
    intro other hother
    rcases List.mem_cons.mp hother with rfl | hother
    · exact htask
    · obtain ⟨hlt, hotherKind⟩ := List.mem_filter.mp hother
      have hstarted : other < g.started :=
        (List.mem_range.mp hlt).trans (h.running_lt task htask)
      rcases h.accounted hgoing other hstarted with hrun | hdone
      · exact hrun
      · rw [hnone other hdone] at hotherKind
        cases hotherKind
  have hlength := (List.subperm_of_subset hnodup hsub).length_le
  rw [List.length_cons, ← List.countP_eq_length_filter] at hlength
  have hbounded := h.bounded
  omega

theorem Sound.start (h : Sound permits outcomes g)
    (hgoing : g.aborting = false) (hleft : g.started < outcomes.length)
    (hfree : g.running.length + g.borrowed < permits) :
    Sound permits outcomes
      { g with
        started := g.started + 1
        running := g.running ++ [g.started] } := by
  refine ⟨?_, hleft, ?_, ?_, h.collected_le, ?_, ?_, h.aborts, h.first⟩
  · show (g.running ++ [g.started]).length + g.borrowed ≤ permits
    rw [List.length_append, List.length_singleton]
    omega
  · show (g.running ++ [g.started]).Nodup
    refine List.nodup_append.mpr ⟨h.nodup, by simp, ?_⟩
    intro task htask other hother
    rw [List.mem_singleton.mp hother]
    exact ne_of_lt (h.running_lt task htask)
  · intro task htask
    show task < g.started + 1
    rcases List.mem_append.mp htask with htask | htask
    · have hlt := h.running_lt task htask
      omega
    · rw [List.mem_singleton.mp htask]
      exact Nat.lt_succ_self _
  · intro _ task htask
    show task ∈ g.running ++ [g.started] ∨ task ∈ g.finished
    rcases Nat.lt_succ_iff_lt_or_eq.mp htask with hlt | rfl
    · exact (h.accounted hgoing task hlt).imp_left
        (List.mem_append_left _)
    · exact Or.inl (by simp)
  · intro habort
    exact absurd (hgoing.symm.trans habort) Bool.false_ne_true

theorem Sound.finish (h : Sound permits outcomes g) {task : Nat}
    (htask : task ∈ g.running) :
    Sound permits outcomes
      { g with
        running := g.running.erase task
        finished := g.finished ++ [task] } := by
  have hlength := List.length_erase_of_mem htask
  have htake : (g.finished ++ [task]).take g.collected =
      g.finished.take g.collected :=
    List.take_append_of_le_length h.collected_le
  refine ⟨?_, h.started_le, h.nodup.erase _, ?_, ?_, ?_, ?_, ?_, ?_⟩
  · show (g.running.erase task).length + g.borrowed ≤ permits
    have hbounded := h.bounded
    omega
  · intro other hother
    exact h.running_lt other (List.mem_of_mem_erase hother)
  · show g.collected ≤ (g.finished ++ [task]).length
    rw [List.length_append]
    exact h.collected_le.trans (Nat.le_add_right _ _)
  · intro hgoing other hother
    show other ∈ g.running.erase task ∨ other ∈ g.finished ++ [task]
    by_cases heq : other = task
    · exact Or.inr (by simp [heq])
    · rcases h.accounted hgoing other hother with hrun | hdone
      · exact Or.inl ((List.mem_erase_of_ne heq).mpr hrun)
      · exact Or.inr (List.mem_append_left _ hdone)
  · intro habort
    show g.running.erase task = []
    rw [h.stopped habort]
    rfl
  · show g.aborting = true ↔ ∃ other ∈
      (g.finished ++ [task]).take g.collected, failed outcomes other = true
    rw [htake]
    exact h.aborts
  · intro kind earlier other later hsplit hnone hkind
    -- the task that ends now is the last one, and the others ended before
    rcases List.eq_nil_or_concat later with rfl | ⟨rest, last, rfl⟩
    · obtain ⟨hearlier, hother⟩ := List.append_inj' hsplit rfl
      cases hother
      exact h.ends_first htask (hearlier ▸ hnone) hkind
    · rw [List.concat_eq_append, ← List.cons_append, ← List.append_assoc]
        at hsplit
      exact h.first kind earlier other rest
        (List.append_inj' hsplit rfl).1 hnone hkind

theorem Sound.collect (h : Sound permits outcomes g) {task : Nat}
    (htask : g.finished[g.collected]? = some task) :
    Sound permits outcomes
      (if failed outcomes task then
        { g with
          collected := g.collected + 1
          aborting := true
          running := [] }
      else { g with collected := g.collected + 1 }) := by
  obtain ⟨hlt, hget⟩ := List.getElem?_eq_some_iff.mp htask
  have htake : g.finished.take (g.collected + 1) =
      g.finished.take g.collected ++ [task] := by
    rw [List.take_succ_eq_append_getElem hlt, hget]
  by_cases hfailed : failed outcomes task = true
  · rw [if_pos hfailed]
    refine ⟨?_, h.started_le, List.nodup_nil, fun _ hmem => (nomatch hmem),
      hlt, fun hgoing => (nomatch hgoing), fun _ => rfl, ?_, h.first⟩
    · show 0 + g.borrowed ≤ permits
      have hbounded := h.bounded
      omega
    · refine ⟨fun _ => ⟨task, ?_, hfailed⟩, fun _ => rfl⟩
      show task ∈ g.finished.take (g.collected + 1)
      rw [htake]
      exact List.mem_append_right _ (List.mem_singleton_self _)
  · rw [if_neg hfailed]
    refine ⟨h.bounded, h.started_le, h.nodup, h.running_lt, hlt,
      h.accounted, h.stopped, ?_, h.first⟩
    show g.aborting = true ↔ ∃ other ∈ g.finished.take (g.collected + 1),
      failed outcomes other = true
    rw [htake, h.aborts]
    simp [List.mem_append, or_and_right, exists_or, hfailed]

/-- No step breaks it. -/
theorem Sound.step (h : Sound permits outcomes g) (event : Event) :
    Sound permits outcomes (step permits outcomes g event) := by
  cases event with
  | borrow =>
      simp only [TaskGroup.step]
      split
      · rename_i hfree
        exact ⟨Nat.succ_le_of_lt hfree, h.started_le, h.nodup, h.running_lt,
          h.collected_le, h.accounted, h.stopped, h.aborts, h.first⟩
      · exact h
  | giveBack =>
      have hbounded : g.running.length + (g.borrowed - 1) ≤ permits :=
        (Nat.add_le_add_left (Nat.sub_le _ _) _).trans h.bounded
      exact ⟨hbounded, h.started_le, h.nodup, h.running_lt, h.collected_le,
        h.accounted, h.stopped, h.aborts, h.first⟩
  | start =>
      simp only [TaskGroup.step]
      split
      · rename_i hcan
        exact h.start hcan.1 hcan.2.1 hcan.2.2
      · exact h
  | finish task =>
      simp only [TaskGroup.step]
      split
      · rename_i htask
        exact h.finish htask
      · exact h
  | collect =>
      simp only [TaskGroup.step]
      split
      · exact h
      · rename_i task htask
        exact h.collect htask

theorem sound_run (events : List Event) :
    Sound permits outcomes
      (events.foldl (TaskGroup.step permits outcomes) Group.initial) := by
  have hstep : ∀ (g : Group) (event : Event), Sound permits outcomes g →
      Sound permits outcomes (TaskGroup.step permits outcomes g event) :=
    fun _ event h => h.step event
  exact (Run.invariant hstep sound_initial events).last

-- ==================================================== what is reported

theorem errors_of_over (hover : Over outcomes g) :
    errors outcomes g = g.finished.filterMap (failureOf outcomes) := by
  unfold errors
  rw [hover.1, List.take_length]

/-- A group that is over has collected a failure exactly when some task
fails. -/
theorem Sound.errors_eq_nil_iff (h : Sound permits outcomes g)
    (hover : Over outcomes g) :
    errors outcomes g = [] ↔ failures outcomes = [] := by
  rw [errors_of_over hover, failures_eq_nil_iff,
    List.filterMap_eq_nil_iff]
  constructor
  · intro hnone task
    refine Bool.eq_false_iff.mpr (fun hfailed => ?_)
    have hgoing : g.aborting = false := by
      refine Bool.eq_false_iff.mpr (fun habort => ?_)
      obtain ⟨other, hother, hotherFailed⟩ := h.aborts.mp habort
      obtain ⟨failure, hfailure⟩ := failed_iff.mp hotherFailed
      rw [hnone other (List.mem_of_mem_take hother)] at hfailure
      cases hfailure
    obtain ⟨hstarted, hrunning⟩ := hover.2.resolve_left
      (fun habort => Bool.false_ne_true (hgoing.symm.trans habort))
    have hlt := lt_length_of_failed hfailed
    rw [← hstarted] at hlt
    rcases h.accounted hgoing task hlt with hrun | hdone
    · rw [hrunning] at hrun
      cases hrun
    · obtain ⟨failure, hfailure⟩ := failed_iff.mp hfailed
      rw [hnone task hdone] at hfailure
      cases hfailure
  · intro hnone task _
    exact Option.not_isSome_iff_eq_none.mp
      (Bool.eq_false_iff.mp (hnone task))

-- ==================================================== a schedule

/-- The group after its first `count` tasks have started, and all but the
ones held back have ended. -/
def heldBack (held : Nat → Bool) (count : Nat) : Group :=
  ⟨count, (List.range count).filter held,
    (List.range count).filter (fun task => !held task), 0, false, 0⟩

/-- Holding tasks back needs a permit for each and one more. -/
theorem exists_heldBack {held : Nat → Bool} {count : Nat}
    (hle : count ≤ outcomes.length)
    (hfree : ∀ k < count, (List.range k).countP held < permits) :
    ∃ events : List Event,
      events.foldl (step permits outcomes) Group.initial =
        heldBack held count := by
  induction count with
  | zero => exact ⟨[], rfl⟩
  | succ count ih =>
      obtain ⟨events, hevents⟩ := ih (by omega)
        (fun k hk => hfree k (hk.trans (Nat.lt_succ_self _)))
      have hlength := hfree count (Nat.lt_succ_self _)
      rw [List.countP_eq_length_filter] at hlength
      have hstart : step permits outcomes (heldBack held count) .start =
          { heldBack held count with
            started := count + 1
            running := (List.range count).filter held ++ [count] } :=
        if_pos ⟨rfl, Nat.lt_of_succ_le hle, hlength⟩
      have hfresh : count ∉ (List.range count).filter held := by
        intro hmem
        exact absurd (List.mem_range.mp (List.mem_filter.mp hmem).1)
          (lt_irrefl count)
      cases hheld : held count with
      | true =>
          refine ⟨events ++ [.start], ?_⟩
          rw [List.foldl_append, hevents, List.foldl_cons, hstart]
          unfold heldBack
          simp [List.range_succ, hheld]
      | false =>
          refine ⟨events ++ [.start, .finish count], ?_⟩
          rw [List.foldl_append, hevents, List.foldl_cons, hstart,
            List.foldl_cons, List.foldl_nil]
          have hfinish : count ∈ (List.range count).filter held ++
              [count] := by simp
          refine (if_pos hfinish).trans ?_
          unfold heldBack
          simp [List.range_succ, hheld, List.erase_append_right _ hfresh]

/-- Whatever has ended can be collected. -/
theorem exists_collect (h : Sound permits outcomes g) :
    ∃ events : List Event,
      (events.foldl (step permits outcomes) g).collected =
          g.finished.length ∧
        (events.foldl (step permits outcomes) g).finished =
          g.finished := by
  generalize hleft : g.finished.length - g.collected = left
  induction left generalizing g with
  | zero =>
      have hle := h.collected_le
      exact ⟨[], by show g.collected = _; omega, rfl⟩
  | succ left ih =>
      have hlt : g.collected < g.finished.length := by omega
      have hget := List.getElem?_eq_getElem hlt
      have hnext : (step permits outcomes g .collect).collected =
            g.collected + 1 ∧
          (step permits outcomes g .collect).finished = g.finished := by
        unfold step
        rw [hget]
        simp only
        split <;> exact ⟨rfl, rfl⟩
      obtain ⟨events, hcollected, hfinished⟩ := ih (h.step .collect)
        (by rw [hnext.1, hnext.2]; omega)
      refine ⟨.collect :: events, ?_, ?_⟩
      · rw [List.foldl_cons, hcollected, hnext.2]
      · rw [List.foldl_cons, hfinished, hnext.2]

/-- The tasks of the kind keep their permits until one that fails, with
few enough of the kind before it, has ended; all others before it end
before it does. -/
theorem exists_schedule {kind : Nat → Bool} {task : Nat}
    (hfailed : failed outcomes task = true)
    (hforemost : Foremost permits kind task) :
    ∃ events : List Event,
      Over outcomes
          (events.foldl (step permits outcomes) Group.initial) ∧
        (events.foldl (step permits outcomes) Group.initial).finished =
          (List.range task).filter (fun other => !kind other) ++
            [task] := by
  let held := fun other => kind other && decide (other ≠ task)
  have hheld : ∀ other ∈ List.range task, held other = kind other := by
    intro other hother
    have hne := ne_of_lt (List.mem_range.mp hother)
    simp [held, hne]
  have hbefore : ∀ k < task + 1,
      (List.range k).countP held < permits := by
    intro k hk
    have hsub : (List.range k).Sublist (List.range task) :=
      List.range_sublist.mpr (Nat.lt_succ_iff.mp hk)
    calc (List.range k).countP held
        ≤ (List.range task).countP held := hsub.countP_le
      _ = (List.range task).countP kind :=
          List.countP_congr (fun other hother => by rw [hheld other hother])
      _ < permits := hforemost.2
  obtain ⟨events, hevents⟩ := exists_heldBack
    (lt_length_of_failed hfailed) hbefore
  obtain ⟨more, hcollected, hfinished⟩ := exists_collect
    (hevents ▸ sound_run events)
  have hended : (heldBack held (task + 1)).finished =
      (List.range task).filter (fun other => !kind other) ++ [task] := by
    have hlast : held task = false := by simp [held]
    have hrest : (List.range task).filter (fun other => !held other) =
        (List.range task).filter (fun other => !kind other) :=
      List.filter_congr (fun other hother => by rw [hheld other hother])
    unfold heldBack
    simp [List.range_succ, hlast, hrest]
  refine ⟨events ++ more, ?_, ?_⟩
  · have hsound := @sound_run _ _ permits outcomes (events ++ more)
    rw [List.foldl_append, hevents] at hsound ⊢
    refine ⟨by rw [hcollected, hfinished], Or.inl (hsound.aborts.mpr ?_)⟩
    refine ⟨task, ?_, hfailed⟩
    rw [hcollected, hfinished, List.take_length, hended]
    exact List.mem_append_right _ (List.mem_singleton_self _)
  · rw [List.foldl_append, hevents, hfinished, hended]

end TaskGroup
