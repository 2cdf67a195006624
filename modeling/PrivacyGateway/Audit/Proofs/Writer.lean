/-
No accepted record is lost or counted twice, and when that is so.

Each step moves records between the queue, the writers and the counters.
From a state in which every record is in one place, a step leads to such a
state exactly when it is none of the three that lose a record or count it
again (`step_conserved_iff`), and a run stays in such states exactly when
it takes none of them.
-/
import PrivacyGateway.Audit.Writer
import PrivacyGateway.Lib.Run

namespace PrivacyGateway.Audit

namespace WriterSystem

variable {system : WriterSystem}

theorem Conserved.nodup (h : system.Conserved) : system.fates.Nodup :=
  h.nodup_iff.mpr List.nodup_range

theorem Conserved.length_eq (h : system.Conserved) :
    system.fates.length = system.accepted := by
  rw [List.Perm.length_eq h, List.length_range]

theorem Conserved.dropped_lt (h : system.Conserved) {n : Nat}
    (hn : n ∈ system.dropped) : n < system.accepted := by
  have hmem : n ∈ system.fates := List.mem_append_right _ hn
  exact List.mem_range.mp ((List.Perm.mem_iff h).mp hmem)

/-- A step after which every record is in the place it was in, or in
another. -/
theorem conserved_congr {system' : WriterSystem}
    (hfates : system'.fates.Perm system.fates)
    (haccepted : system'.accepted = system.accepted) :
    system'.Conserved ↔ system.Conserved := by
  unfold Conserved
  rw [haccepted]
  exact ⟨hfates.symm.trans, hfates.trans⟩

-- ==================================================== what moves

/-- A writer gives up the record it held, and gets the one it holds. -/
theorem setWriter_fates {writer : Nat} {task : WriterTask}
    (hget : system.writers[writer]? = some task) (task' : WriterTask) :
    (task.holding.toList ++ (system.setWriter writer task').fates).Perm
      (task'.holding.toList ++ system.fates) := by
  obtain ⟨hlt, htask⟩ := List.getElem?_eq_some_iff.mp hget
  obtain ⟨before, after, hbefore, -, hset⟩ :=
    @List.exists_of_set _ writer task' system.writers hlt
  rw [htask] at hbefore
  have hsplit : ∀ t : WriterTask,
      (before ++ t :: after).filterMap WriterTask.holding =
        before.filterMap WriterTask.holding ++ (t.holding.toList ++
          after.filterMap WriterTask.holding) := by
    intro t
    cases hholding : t.holding with
    | none => simp [hholding]
    | some n => simp [hholding]
  have hheld : (system.setWriter writer task').held =
      before.filterMap WriterTask.holding ++ (task'.holding.toList ++
        after.filterMap WriterTask.holding) := by
    unfold held setWriter
    simp only [hset]
    exact hsplit task'
  have hafter : (system.setWriter writer task').fates =
      system.queued.filter (fun n => decide (n ∉ system.dropped)) ++
        (system.setWriter writer task').held ++ system.written ++
        system.failed ++ system.dropped := rfl
  rw [hafter, hheld]
  unfold fates held
  rw [hbefore, hsplit, List.perm_iff_count]
  intro n
  simp only [List.count_append]
  omega

/-- The head of the queue goes, unless a shutdown had counted it. -/
theorem take_fates {first : AuditRecord} {rest : List AuditRecord}
    (hqueue : system.audit.queue = first :: rest)
    (hfresh : system.taken ∉ system.dropped) :
    system.fates.Perm (system.taken :: (system.take rest).fates) := by
  have hqueued : system.queued =
      system.taken :: (system.take rest).queued := by
    unfold queued
    rw [hqueue]
    rfl
  unfold fates
  rw [hqueued, List.filter_cons, if_pos (decide_eq_true hfresh)]
  rfl

theorem count_fates (number : Nat) (stored : Bool) :
    (system.count number stored).fates.Perm (number :: system.fates) := by
  rw [List.perm_iff_count]
  intro n
  cases stored with
  | true =>
      simp only [count, if_true, fates, queued, held, List.count_append,
        List.count_cons, List.count_nil]
      omega
  | false =>
      simp only [count, Bool.false_eq_true, if_false, fates, queued, held,
        List.count_append, List.count_cons, List.count_nil]
      omega

theorem holding_of_writing {task : WriterTask} {number : Nat}
    (hphase : task.phase = .writing number) :
    task.holding = some number := by
  unfold WriterTask.holding
  rw [hphase]
  rfl

theorem holding_of_getting {task : WriterTask}
    (hphase : task.phase = .getting) : task.holding = none := by
  unfold WriterTask.holding
  rw [hphase]
  rfl

-- ==================================================== the writer

/-- A writer takes the record at the head of the queue. -/
theorem take_conserved (h : system.Conserved) {writer : Nat}
    {task : WriterTask} (hget : system.writers[writer]? = some task)
    (hphase : task.phase = .getting) {first : AuditRecord}
    {rest : List AuditRecord} (hqueue : system.audit.queue = first :: rest) :
    ((system.setWriter writer
      { task with phase := .writing system.taken }).take rest).Conserved ↔
      system.taken ∉ system.dropped := by
  have hset := setWriter_fates hget
    { task with phase := .writing system.taken }
  rw [holding_of_getting hphase] at hset
  constructor
  · intro hafter hdropped
    have hheld : system.taken ∈ (system.setWriter writer
        { task with phase := .writing system.taken }).held := by
      refine List.mem_filterMap.mpr ⟨_, List.mem_set ?_ _, rfl⟩
      exact (List.getElem?_eq_some_iff.mp hget).1
    refine List.disjoint_of_nodup_append hafter.nodup ?_ hdropped
    exact List.mem_append_left _ (List.mem_append_left _
      (List.mem_append_right _ hheld))
  · intro hfresh
    have hsame : ((system.setWriter writer
        { task with phase := .writing system.taken }).take rest).accepted =
          system.accepted := by
      show system.taken + 1 + rest.length = system.taken + _
      rw [hqueue, List.length_cons]
      omega
    refine (conserved_congr ?_ hsame).mpr h
    have htake := @take_fates (system.setWriter writer
      { task with phase := .writing system.taken }) first rest hqueue hfresh
    exact (List.perm_cons _).mp (htake.symm.trans hset)

/-- A writer whose write came to an answer counts it. -/
theorem count_conserved (h : system.Conserved) {writer : Nat}
    {task : WriterTask} (hget : system.writers[writer]? = some task)
    {number : Nat} (hphase : task.phase = .writing number) (stored : Bool) :
    ((system.setWriter writer { task with phase := .getting }).count number
      stored).Conserved := by
  have hset := setWriter_fates hget { task with phase := .getting }
  rw [holding_of_writing hphase] at hset
  have hsame : ((system.setWriter writer { task with phase := .getting }).count
      number stored).accepted = system.accepted := by
    cases stored with
    | true => rfl
    | false => rfl
  refine (conserved_congr ?_ hsame).mpr h
  exact (count_fates number stored).trans hset

/-- A writer that ends with a record in its hands loses it. -/
theorem lost_not_conserved (h : system.Conserved) {writer : Nat}
    {task : WriterTask} (hget : system.writers[writer]? = some task)
    {number : Nat} (hphase : task.phase = .writing number) :
    ¬(system.setWriter writer { task with phase := .ended }).Conserved := by
  intro hafter
  have hset := setWriter_fates hget { task with phase := .ended }
  rw [holding_of_writing hphase] at hset
  have hlength := hset.length_eq
  have hbefore := h.length_eq
  have hnow : (system.setWriter writer
      { task with phase := .ended }).fates.length = system.accepted :=
    hafter.length_eq
  simp only [WriterTask.holding, WriterPhase.number?, Option.toList,
    List.length_append, List.length_cons, List.length_nil] at hlength
  omega

theorem runWriter_conserved (h : system.Conserved) (writer : Nat)
    (stored : Bool) :
    (system.runWriter writer stored).Conserved ↔
      system.Counts (.resumes writer stored) := by
  unfold runWriter
  split
  · rename_i hnone
    refine ⟨fun _ => ?_, fun _ => h⟩
    intro task htask
    rw [hnone] at htask
    cases htask
  · rename_i task hget
    have hcounts : system.Counts (.resumes writer stored) ↔
        (∀ number, task.phase = .writing number →
          task.cancelRequested = false) ∧
        (task.phase = .getting → task.cancelRequested = false →
          ∀ number ∈ system.queued.head?, number ∉ system.dropped) := by
      unfold Counts
      simp only [hget, Option.mem_def, Option.some.injEq, forall_eq']
    rw [hcounts]
    split
    · rename_i hphase
      refine ⟨fun _ => ⟨?_, ?_⟩, fun _ => h⟩
      · intro number hwriting
        rw [hphase] at hwriting
        cases hwriting
      · intro hgetting
        rw [hphase] at hgetting
        cases hgetting
    · rename_i hphase
      have hidle : ∀ number, task.phase = .writing number →
          task.cancelRequested = false := by
        intro number hwriting
        rw [hphase] at hwriting
        cases hwriting
      split
      · rename_i hcancel
        have hset := setWriter_fates hget { task with phase := .ended }
        rw [holding_of_getting hphase] at hset
        have hkept : (system.setWriter writer
          { task with phase := .ended }).fates.Perm system.fates := hset
        refine ⟨fun _ => ⟨hidle, ?_⟩,
          fun _ => (conserved_congr hkept rfl).mpr h⟩
        intro _ hfree
        rw [hcancel] at hfree
        cases hfree
      · rename_i hfree
        have hfree' : task.cancelRequested = false := by simpa using hfree
        split
        · rename_i hqueue
          refine ⟨fun _ => ⟨hidle, ?_⟩, fun _ => h⟩
          intro _ _ number hnumber
          unfold queued at hnumber
          rw [hqueue] at hnumber
          cases hnumber
        · rename_i first rest hqueue
          have hhead : system.queued.head? = some system.taken := by
            unfold queued
            rw [hqueue]
            rfl
          refine (take_conserved h hget hphase hqueue).trans ⟨?_, ?_⟩
          · intro hfresh
            refine ⟨hidle, fun _ _ number hnumber => ?_⟩
            rw [hhead] at hnumber
            cases hnumber
            exact hfresh
          · intro hcounts
            exact hcounts.2 hphase hfree' system.taken hhead
    · rename_i number hphase
      have hbusy : task.phase = .getting → task.cancelRequested = false →
          ∀ number ∈ system.queued.head?, number ∉ system.dropped := by
        intro hgetting
        rw [hphase] at hgetting
        cases hgetting
      split
      · rename_i hcancel
        refine ⟨fun hafter => ?_, fun hcounts => ?_⟩
        · exact absurd hafter (lost_not_conserved h hget hphase)
        · have hfree := hcounts.1 number hphase
          rw [hcancel] at hfree
          cases hfree
      · rename_i hfree
        refine ⟨fun _ => ⟨fun _ _ => by simpa using hfree, hbusy⟩, fun _ => ?_⟩
        exact count_conserved h hget hphase stored

-- ==================================================== the calls

theorem start_conserved :
    system.start.Conserved ↔ system.Conserved := by
  unfold start
  split
  · exact Iff.rfl
  · have hheld : (system.writers ++ [({} : WriterTask)]).filterMap
        WriterTask.holding = system.held := by
      rw [List.filterMap_append]
      exact List.append_nil _
    refine conserved_congr (List.Perm.of_eq ?_) rfl
    unfold fates
    rw [← hheld]
    rfl

theorem submit_conserved (failClosed : Bool) (stamped : AuditRecord)
    (h : system.Conserved) : (system.submit failClosed stamped).Conserved := by
  unfold submit accept
  split
  · exact h
  · split
    · exact h
    · have hnew : system.accepted ∉ system.dropped := fun hmem =>
        absurd (h.dropped_lt hmem) (Nat.lt_irrefl _)
      unfold Conserved at h ⊢
      unfold accepted at hnew h ⊢
      simp only [fates, held, queued, List.length_append,
        List.length_singleton] at h ⊢
      rw [List.range'_concat, List.filter_append, ← Nat.add_assoc,
        List.range_succ]
      simp only [Nat.one_mul, List.filter_cons, decide_eq_true hnew,
        List.filter_nil, if_true]
      rw [List.perm_iff_count] at h ⊢
      intro n
      have hn := h n
      simp only [List.count_append] at hn ⊢
      omega

theorem cancel_conserved (writer : Nat) :
    (system.cancel writer).Conserved ↔ system.Conserved := by
  unfold cancel
  split
  · exact Iff.rfl
  · rename_i task hget
    have hset := setWriter_fates hget { task with cancelRequested := true }
    exact conserved_congr ((List.perm_append_left_iff _).mp hset) rfl

theorem stop_conserved (drain : Bool) :
    (system.stop drain).Conserved ↔ system.Conserved := by
  unfold stop
  split
  · exact Iff.rfl
  · rename_i worker hworker
    dsimp only
    split
    · exact Iff.rfl
    · exact cancel_conserved worker

theorem expire_conserved (call : Nat) :
    (system.expire call).Conserved ↔ system.Conserved := by
  unfold expire
  split
  · exact cancel_conserved _
  · exact Iff.rfl

/-- A shutdown counts what is left, and once more what was counted. -/
theorem undelivered_conserved (h : system.Conserved) :
    system.undelivered.Conserved ↔
      ∀ number ∈ system.queued, number ∉ system.dropped := by
  have hnone : system.queued.filter (fun n =>
      decide (n ∉ system.dropped ++ system.queued)) = [] := by
    rw [List.filter_eq_nil_iff]
    intro n hn hkept
    exact of_decide_eq_true hkept (List.mem_append_right _ hn)
  have hfates : system.undelivered.fates = system.held ++ system.written ++
      system.failed ++ (system.dropped ++ system.queued) := by
    show system.queued.filter (fun n =>
      decide (n ∉ system.dropped ++ system.queued)) ++ _ ++ _ ++ _ ++ _ = _
    rw [hnone]
    rfl
  constructor
  · intro hafter n hn hdropped
    have hnodup := hafter.nodup
    rw [hfates] at hnodup
    exact (List.disjoint_of_nodup_append hnodup.of_append_right) hdropped hn
  · intro hfresh
    have hall : system.queued.filter (fun n =>
        decide (n ∉ system.dropped)) = system.queued :=
      List.filter_eq_self.mpr fun n hn => decide_eq_true (hfresh n hn)
    have hperm : system.undelivered.fates.Perm system.fates := by
      rw [hfates]
      unfold fates
      rw [hall, List.perm_iff_count]
      intro n
      simp only [List.count_append]
      omega
    exact (conserved_congr hperm rfl).mpr h

theorem proceed_conserved (h : system.Conserved) (call : Nat) :
    (system.proceed call).Conserved ↔ system.Counts (.proceeds call) := by
  unfold proceed
  split
  · rename_i worker hcall
    refine (cancel_conserved worker).trans ⟨fun _ => ?_, fun _ => h⟩
    intro other hother
    rw [hcall] at hother
    cases hother
  · rename_i worker hcall
    split
    · rename_i hended
      refine (undelivered_conserved h).trans ⟨?_, ?_⟩
      · intro hfresh other hother _
        exact hfresh
      · intro hcounts
        exact hcounts worker hcall hended
    · rename_i hrunning
      refine ⟨fun _ => ?_, fun _ => h⟩
      intro other hother hended
      rw [hcall] at hother
      cases hother
      exact absurd hended hrunning
  · rename_i hother
    refine ⟨fun _ => ?_, fun _ => h⟩
    intro worker hcall
    exact absurd hcall (hother worker)

-- ==================================================== runs

/-- From a state in which every record is in one place, a step leads to
such a state exactly when it loses none and counts none again. -/
theorem step_conserved_iff (failClosed : Bool) (h : system.Conserved)
    (event : WriterEvent) :
    (system.step failClosed event).Conserved ↔ system.Counts event := by
  cases event with
  | starts => exact ⟨fun _ => trivial, fun _ => start_conserved.mpr h⟩
  | submits stamped =>
      exact ⟨fun _ => trivial, fun _ => submit_conserved failClosed stamped h⟩
  | resumes writer stored => exact runWriter_conserved h writer stored
  | stops drain =>
      exact ⟨fun _ => trivial, fun _ => (stop_conserved drain).mpr h⟩
  | proceeds call => exact proceed_conserved h call
  | expires call =>
      exact ⟨fun _ => trivial, fun _ => (expire_conserved call).mpr h⟩

/-- In every run of the service: every accepted record is, in every state,
in the queue, in a writer's hands, or counted, in one of them and once,
exactly when no writer met its cancellation with a record in its hands, no
writer took a record a shutdown had counted, and no shutdown counted one
again. -/
theorem conserved_iff (failClosed : Bool) (maxQueueSize : Nat)
    (events : List WriterEvent) :
    Run.Throughout (fun system event => system.step failClosed event)
        Conserved (init maxQueueSize) events ↔
      Run.Along (fun system event => system.step failClosed event)
        Counts (init maxQueueSize) events :=
  Run.throughout_iff_along
    (fun _ event h => step_conserved_iff failClosed h event) (List.Perm.refl _)

/-- A record of a request that went well. -/
def sampleRecord : AuditRecord :=
  ⟨{ tenantId := ⟨0⟩, requestId := ⟨0⟩, statusCode := 200 }, rfl⟩

/-- The service is stopped while the sink has the only record: the queue is
empty, so the writer is cancelled at once. -/
def stoppedMidWrite : List WriterEvent :=
  [.starts, .submits sampleRecord, .resumes 0 true, .stops true,
    .resumes 0 true, .proceeds 0]

/-- The record is accepted, and in no place. -/
theorem stopped_mid_write_lost :
    ((stoppedMidWrite.foldl (fun system event => system.step true event)
      (init defaultMaxQueueSize)).accepted = 1 ∧
    (stoppedMidWrite.foldl (fun system event => system.step true event)
      (init defaultMaxQueueSize)).fates = []) ∧
    ¬Run.Throughout (fun system event => system.step true event)
      Conserved (init defaultMaxQueueSize) stoppedMidWrite := by
  refine ⟨by decide, fun h => ?_⟩
  exact absurd h.last (by decide)

end WriterSystem

end PrivacyGateway.Audit
