/-
How old a snapshot can be.

An entry expires one TTL after the call that cached it started, and what
it caches was read after that call started. So a call that is answered from
the cache gets what was active less than a TTL before it started, and one
that is answered from the table gets what was active since
(`Dated`, `staleness_bounded`). How slowly the table answers, and in which
order late readers overwrite each other's entries, does not matter: the
stamp is taken before the read, not after it.
-/
import Mathlib.Tactic.Linarith
import PrivacyGateway.Lib.Run
import PrivacyGateway.Policy.Calls

namespace PrivacyGateway.Policy

namespace CallSystem

variable {ι : Type} [DecidableEq ι] {ttl : Rat} {system : CallSystem ι}

-- ==================================================== time

theorem now_step (event : CallEvent ι) :
    system.now ≤ (system.step ttl event).now := by
  cases event with
  | passes seconds =>
      exact le_add_of_nonneg_right seconds.coe_nonneg
  | runs i => exact le_refl _
  | fails i e => exact le_refl _
  | publishes tenantId stored => exact le_refl _
  | deactivates tenantId => exact le_refl _
  | invalidates tenantId => exact le_refl _
  | clears => exact le_refl _

/-- The clock does not go back. -/
theorem now_run (events : List (CallEvent ι)) :
    system.now ≤ (events.foldl (step ttl) system).now := by
  have hrun : Run.Throughout (step ttl)
      (fun later => system.now ≤ later.now) system events := by
    apply Run.invariant
    · intro later event h
      exact le_trans h (now_step event)
    · exact le_refl system.now
  exact hrun.last

theorem begun_step {call : SnapshotCall} {now : Rat} {state : PolicyState} :
    (call.step ttl now state).1.begun = true := by
  cases call with
  | ready request =>
      unfold SnapshotCall.step
      simp only
      split <;> rfl
  | waiting request started => rfl
  | answered request started stored => rfl
  | done request started outcome => rfl

theorem begun_fail {call : SnapshotCall} {e : Exn} :
    (call.fail e).begun = call.begun := by
  cases call <;> rfl

/-- A call that has started has started from then on. -/
theorem begun_run {i : ι} (h : (system.calls i).begun = true)
    (events : List (CallEvent ι)) :
    ((events.foldl (step ttl) system).calls i).begun = true := by
  have hrun : Run.Throughout (step ttl)
      (fun later => (later.calls i).begun = true) system events := by
    apply Run.invariant
    · intro later event hbegun
      cases event with
      | runs j =>
          show (Function.update later.calls j _ i).begun = true
          rw [Function.update_apply]
          split
          · exact begun_step
          · exact hbegun
      | fails j e =>
          show (Function.update later.calls j _ i).begun = true
          rw [Function.update_apply]
          split
          · rename_i hij
            rw [begun_fail, ← hij]
            exact hbegun
          · exact hbegun
      | passes seconds => exact hbegun
      | publishes tenantId stored => exact hbegun
      | deactivates tenantId => exact hbegun
      | invalidates tenantId => exact hbegun
      | clears => exact hbegun
    · exact h
  exact hrun.last

theorem remember_active {tenantId : UUID} {expiresAt : Rat}
    {stored : Option StoredPolicy} {state : PolicyState} :
    (remember tenantId expiresAt stored state).2.active = state.active := by
  unfold remember
  cases stored with
  | none => rfl
  | some row =>
      simp only
      split <;> rfl

/-- A call does not change what is active. -/
theorem step_active {call : SnapshotCall} {now : Rat}
    {state : PolicyState} :
    (call.step ttl now state).2.active = state.active := by
  cases call with
  | ready request =>
      unfold SnapshotCall.step
      simp only
      split <;> rfl
  | waiting request started => rfl
  | answered request started stored => exact remember_active
  | done request started outcome => rfl

-- ==================================================== where a row was read

/-- The row was the tenant's active one, at some moment of the run for
which this holds. -/
def ActiveWhen (ttl : Rat) (begin : CallSystem ι)
    (events : List (CallEvent ι)) (tenantId : UUID)
    (snapshot : PolicySnapshot) (moment : CallSystem ι → Prop) : Prop :=
  ∃ row, snapshotOf tenantId row = .ok snapshot ∧
    Run.Sometime (step ttl)
      (fun system => system.policies.active.get? tenantId = some row ∧
        moment system) begin events

/-- Every snapshot that is cached or was answered, and every row that is
about to be, was the active one, no longer ago than its stamp says. -/
structure Dated (ttl : Rat) (begin : CallSystem ι)
    (events : List (CallEvent ι)) (system : CallSystem ι) : Prop where
  waiting : ∀ i request started,
    system.calls i = .waiting request started → started ≤ system.now
  cached : ∀ tenantId cached,
    system.policies.entries.get? tenantId = some cached →
      ActiveWhen ttl begin events tenantId cached.snapshot
        (fun moment => cached.expiresAt - ttl ≤ moment.now)
  answered : ∀ i request started row,
    system.calls i = .answered request started (some row) →
      Run.Sometime (step ttl)
        (fun moment =>
          moment.policies.active.get? request.tenantId = some row ∧
            (started ≤ moment.now ∧ (moment.calls i).begun = true))
        begin events
  done : ∀ i request started snapshot,
    system.calls i = .done request started (.ok snapshot) →
      ActiveWhen ttl begin events request.tenantId snapshot
        (fun moment => started - ttl < moment.now ∨
          (started ≤ moment.now ∧ (moment.calls i).begun = true))

variable {begin : CallSystem ι} {events : List (CallEvent ι)}
  {tenantId : UUID} {snapshot : PolicySnapshot}
  {moment moment' : CallSystem ι → Prop}

theorem ActiveWhen.append
    (h : ActiveWhen ttl begin events tenantId snapshot moment)
    (more : List (CallEvent ι)) :
    ActiveWhen ttl begin (events ++ more) tenantId snapshot moment := by
  obtain ⟨row, hrow, hactive⟩ := h
  exact ⟨row, hrow, hactive.append more⟩

theorem ActiveWhen.imp
    (h : ActiveWhen ttl begin events tenantId snapshot moment)
    (himp : ∀ system, moment system → moment' system) :
    ActiveWhen ttl begin events tenantId snapshot moment' := by
  obtain ⟨row, hrow, hactive⟩ := h
  exact ⟨row, hrow, hactive.imp (fun system hmoment =>
    ⟨hmoment.1, himp system hmoment.2⟩)⟩

/-- What is cached after a row was remembered is that row's snapshot, or
was cached before. -/
theorem remember_entries {expiresAt : Rat} {stored : Option StoredPolicy}
    {state : PolicyState} {other : UUID} {cached : CacheEntry}
    (h : (remember tenantId expiresAt stored state).2.entries.get? other =
      some cached) :
    state.entries.get? other = some cached ∨
      (tenantId = other ∧ ∃ row, stored = some row ∧
        snapshotOf other row = .ok cached.snapshot ∧
          cached.expiresAt = expiresAt) := by
  unfold remember at h
  cases stored with
  | none => exact Or.inl (Dict.get?_of_erase h)
  | some row =>
      simp only at h
      split at h
      · exact Or.inl h
      · rename_i snapshot hrow
        simp only [Dict.get?_set] at h
        split at h
        · rename_i hother
          cases h
          subst hother
          exact Or.inr ⟨rfl, row, rfl, hrow, rfl⟩
        · exact Or.inl h

/-- What a request does not refuse is the snapshot it was given. -/
theorem finish_ok {request : SnapshotRequest} {given : PolicySnapshot}
    (h : request.finish given = .ok snapshot) : given = snapshot := by
  unfold SnapshotRequest.finish at h
  split at h
  · cases h
    rfl
  · rename_i provider model _
    cases hauthorized : authorizeDestination request.tenantId given provider
        model with
    | error e =>
        simp only [hauthorized, bind, Except.bind] at h
        cases h
    | ok authorized =>
        simp only [hauthorized, bind, Except.bind] at h
        cases h
        rfl

namespace Dated

/-- Time passes, or the table changes, or entries are dropped. -/
theorem environment (h : Dated ttl begin events system)
    {after : CallSystem ι} (event : CallEvent ι)
    (hcalls : after.calls = system.calls) (hnow : system.now ≤ after.now)
    (hentries : ∀ tenantId cached,
      after.policies.entries.get? tenantId = some cached →
        system.policies.entries.get? tenantId = some cached) :
    Dated ttl begin (events ++ [event]) after := by
  constructor
  · intro i request started hcall
    rw [hcalls] at hcall
    exact le_trans (h.waiting i request started hcall) hnow
  · intro tenantId cached hcached
    exact (h.cached tenantId cached (hentries _ _ hcached)).append _
  · intro i request started row hcall
    rw [hcalls] at hcall
    exact (h.answered i request started row hcall).append _
  · intro i request started snapshot hcall
    rw [hcalls] at hcall
    exact (h.done i request started snapshot hcall).append _

/-- One call goes on, and may write the cache. -/
theorem goes_on (h : Dated ttl begin events system) (event : CallEvent ι)
    (i : ι) (call : SnapshotCall) (policies : PolicyState)
    (hwaiting : ∀ request started,
      call = .waiting request started → started ≤ system.now)
    (hcached : ∀ tenantId cached,
      policies.entries.get? tenantId = some cached →
        ActiveWhen ttl begin events tenantId cached.snapshot
          (fun moment => cached.expiresAt - ttl ≤ moment.now))
    (hanswered : ∀ request started row,
      call = .answered request started (some row) →
        Run.Sometime (step ttl)
          (fun moment =>
            moment.policies.active.get? request.tenantId = some row ∧
              (started ≤ moment.now ∧ (moment.calls i).begun = true))
          begin events)
    (hdone : ∀ request started snapshot,
      call = .done request started (.ok snapshot) →
        ActiveWhen ttl begin events request.tenantId snapshot
          (fun moment => started - ttl < moment.now ∨
            (started ≤ moment.now ∧ (moment.calls i).begun = true))) :
    Dated ttl begin (events ++ [event])
      ⟨system.now, policies, Function.update system.calls i call⟩ := by
  constructor
  · intro j request started hcall
    simp only [Function.update_apply] at hcall
    split at hcall
    · exact hwaiting request started hcall
    · exact h.waiting j request started hcall
  · intro tenantId cached hentry
    exact (hcached tenantId cached hentry).append _
  · intro j request started row hcall
    simp only [Function.update_apply] at hcall
    split at hcall
    · rename_i hji
      rw [hji]
      exact (hanswered request started row hcall).append _
    · exact (h.answered j request started row hcall).append _
  · intro j request started snapshot hcall
    simp only [Function.update_apply] at hcall
    split at hcall
    · rename_i hji
      rw [hji]
      exact (hdone request started snapshot hcall).append _
    · exact (h.done j request started snapshot hcall).append _

/-- One step of a call. -/
theorem runs (h : Dated ttl begin events system)
    (hlast : events.foldl (step ttl) begin = system) (i : ι) :
    Dated ttl begin (events ++ [.runs i]) (system.step ttl (.runs i)) := by
  have hstep : system.step ttl (.runs i) =
      ⟨system.now,
        ((system.calls i).step ttl system.now system.policies).2,
        Function.update system.calls i
          ((system.calls i).step ttl system.now system.policies).1⟩ := rfl
  rw [hstep]
  cases hcall : system.calls i with
  | ready request =>
      cases hlookup : lookup system.now request.tenantId
          system.policies with
      | none =>
          simp only [SnapshotCall.step, hlookup]
          refine h.goes_on _ i _ _ ?_ h.cached (fun _ _ _ h => by cases h)
            (fun _ _ _ h => by cases h)
          intro request' started hwaiting
          injection hwaiting with _ hstarted
          exact le_of_eq hstarted.symm
      | some found =>
          obtain ⟨cached, hcached, hfresh, hsnapshot⟩ :=
            lookup_eq_some_iff.mp hlookup
          simp only [SnapshotCall.step, hlookup]
          refine h.goes_on _ i _ _ (fun _ _ h => by cases h) h.cached
            (fun _ _ _ h => by cases h) ?_
          intro request' started snapshot hdone
          injection hdone with hrequest hstarted houtcome
          rw [← hrequest, ← finish_ok houtcome, ← hsnapshot]
          refine (h.cached _ _ hcached).imp ?_
          intro moment hmoment
          left
          rw [← hstarted]
          linarith
  | waiting request started =>
      simp only [SnapshotCall.step]
      refine h.goes_on _ i _ _ (fun _ _ h => by cases h) h.cached ?_
        (fun _ _ _ h => by cases h)
      intro request' started' row hanswered
      injection hanswered with hrequest hstarted hrow
      apply Run.sometime_last
      rw [hlast, ← hrequest, ← hstarted]
      refine ⟨hrow, h.waiting i request started hcall, ?_⟩
      rw [hcall]
      rfl
  | answered request started stored =>
      simp only [SnapshotCall.step]
      have hread : ∀ row, stored = some row →
          Run.Sometime (step ttl)
            (fun moment =>
              moment.policies.active.get? request.tenantId = some row ∧
                (started ≤ moment.now ∧ (moment.calls i).begun = true))
            begin events := by
        intro row hrow
        rw [hrow] at hcall
        exact h.answered i request started row hcall
      refine h.goes_on _ i _ _ (fun _ _ h => by cases h) ?_ (fun _ _ _ h => by cases h) ?_
      · intro tenantId cached hcached
        rcases remember_entries hcached with hold |
          ⟨rfl, row, hrow, hsnapshot, hexpires⟩
        · exact h.cached tenantId cached hold
        · refine ⟨row, hsnapshot, (hread row hrow).imp ?_⟩
          rintro moment ⟨hactive, hnow, -⟩
          rw [hexpires]
          exact ⟨hactive, by linarith⟩
      · intro request' started' snapshot hdone
        injection hdone with hrequest hstarted houtcome
        rw [← hrequest, ← hstarted]
        cases hremember : remember request.tenantId (started + ttl) stored
            system.policies with
        | mk outcome policies =>
            rw [hremember] at houtcome
            cases outcome with
            | error e => cases houtcome
            | ok given =>
                obtain rfl := finish_ok houtcome
                obtain ⟨⟨row, hrow, hsnapshot⟩, -⟩ := remember_ok hremember
                refine ⟨row, hsnapshot, (hread row hrow).imp ?_⟩
                rintro moment ⟨hactive, hmoment⟩
                exact ⟨hactive, Or.inr hmoment⟩
  | done request started outcome =>
      simp only [SnapshotCall.step]
      refine h.goes_on _ i _ _ (fun _ _ h => by cases h) h.cached
        (fun _ _ _ h => by cases h) ?_
      intro request' started' snapshot hdone
      rw [hdone] at hcall
      exact h.done i request' started' snapshot hcall

/-- A call that fails answers nothing. -/
theorem fails (h : Dated ttl begin events system) (i : ι) (e : Exn) :
    Dated ttl begin (events ++ [.fails i e])
      (system.step ttl (.fails i e)) := by
  have hstep : system.step ttl (.fails i e) =
      ⟨system.now, system.policies,
        Function.update system.calls i ((system.calls i).fail e)⟩ := rfl
  rw [hstep]
  cases hcall : system.calls i with
  | ready request =>
      exact h.goes_on _ i _ _ (fun _ _ h => by cases h) h.cached
        (fun _ _ _ h => by cases h) (fun _ _ _ h => by cases h)
  | waiting request started =>
      exact h.goes_on _ i _ _ (fun _ _ h => by cases h) h.cached
        (fun _ _ _ h => by cases h) (fun _ _ _ h => by cases h)
  | answered request started stored =>
      exact h.goes_on _ i _ _ (fun _ _ h => by cases h) h.cached
        (fun _ _ _ h => by cases h) (fun _ _ _ h => by cases h)
  | done request started outcome =>
      refine h.goes_on _ i _ _ (fun _ _ h => by cases h) h.cached
        (fun _ _ _ h => by cases h) ?_
      intro request' started' snapshot hdone
      have hdone : SnapshotCall.done request started outcome =
          .done request' started' (.ok snapshot) := hdone
      rw [hdone] at hcall
      exact h.done i request' started' snapshot hcall

theorem step (h : Dated ttl begin events system)
    (hlast : events.foldl (step ttl) begin = system)
    (event : CallEvent ι) :
    Dated ttl begin (events ++ [event]) (system.step ttl event) := by
  cases event with
  | runs i => exact h.runs hlast i
  | fails i e => exact h.fails i e
  | passes seconds =>
      exact h.environment _ rfl (now_step (.passes seconds))
        (fun _ _ hentry => hentry)
  | publishes tenantId stored =>
      exact h.environment _ rfl (le_refl _) (fun _ _ hentry => hentry)
  | deactivates tenantId =>
      exact h.environment _ rfl (le_refl _) (fun _ _ hentry => hentry)
  | invalidates tenantId =>
      refine h.environment _ rfl (le_refl _) ?_
      intro other cached hentry
      exact Dict.get?_of_erase hentry
  | clears =>
      exact h.environment _ rfl (le_refl _) (fun _ _ hentry => nomatch hentry)

end Dated

-- ==================================================== runs

variable {now : Rat} {active : Dict UUID StoredPolicy}
  {requests : ι → SnapshotRequest} {i : ι} {request : SnapshotRequest}
  {started : Rat}

theorem dated_run (events : List (CallEvent ι)) :
    Dated ttl (start now active requests) events
      (events.foldl (step ttl) (start now active requests)) := by
  apply Run.history (R := Dated ttl (start now active requests))
  · constructor
    · exact fun _ _ _ => nofun
    · exact fun _ _ hentry => nomatch hentry
    · exact fun _ _ _ _ => nofun
    · exact fun _ _ _ _ => nofun
  · intro events event hdated
    exact hdated.step rfl event

/-- Of a call that starts a TTL after a publication, or later, the row was
active at that publication or since. -/
theorem active_since {past future : List (CallEvent ι)}
    {event : CallEvent ι} {begin : CallSystem ι}
    (hbegun : (((past ++ [event]).foldl (step ttl) begin).calls i).begun =
      false)
    (hnow : ((past ++ [event]).foldl (step ttl) begin).now + ttl ≤ started)
    (h : ActiveWhen ttl begin (past ++ event :: future) tenantId snapshot
      (fun moment => started - ttl < moment.now ∨
        (started ≤ moment.now ∧ (moment.calls i).begun = true))) :
    ActiveWhen ttl ((past ++ [event]).foldl (step ttl) begin) future tenantId
      snapshot (fun _ => True) := by
  obtain ⟨row, hrow, before, after, hsplit, hactive, hmoment⟩ := h
  refine ⟨row, hrow, ?_⟩
  rw [← List.singleton_append, ← List.append_assoc] at hsplit
  rcases List.append_eq_append_iff.mp hsplit with ⟨between, hbefore, hafter⟩ |
    ⟨between, hpast, hafter⟩
  · refine ⟨between, after, hafter, ?_, trivial⟩
    rw [hbefore, List.foldl_append] at hactive
    exact hactive
  · -- The moment is not after the publication: then it is too long ago, and
    -- the call had not started.
    rw [hpast, List.foldl_append] at hbegun hnow
    rcases hmoment with hrecent | ⟨-, hstarted⟩
    · have hlater : (before.foldl (step ttl) begin).now ≤
          (between.foldl (step ttl) (before.foldl (step ttl) begin)).now :=
        now_run between
      exact absurd hrecent (not_lt.mpr (by linarith))
    · rw [begun_run hstarted between] at hbegun
      cases hbegun

/-- While no older version is published, none is active. -/
theorem version_of_active {future : List (CallEvent ι)} {version : Int}
    {begin : CallSystem ι}
    (hfuture : ∀ later, .publishes tenantId later ∈ future →
      version ≤ later.version)
    (hbegin : ∀ row, begin.policies.active.get? tenantId = some row →
      version ≤ row.version)
    (h : ActiveWhen ttl begin future tenantId snapshot (fun _ => True)) :
    version ≤ snapshot.version := by
  obtain ⟨row, hrow, hactive⟩ := h
  have hversions : Run.Throughout (step ttl)
      (fun system => ∀ row,
        system.policies.active.get? tenantId = some row →
          version ≤ row.version) begin future := by
    have halong : Run.Along (step ttl)
        (fun _ event => ∀ later, event = .publishes tenantId later →
          version ≤ later.version) begin future :=
      Run.along_of_forall (fun event hevent later hlater =>
        hfuture later (hlater ▸ hevent))
    refine halong.invariant ?_ hbegin
    intro system event hevent hsystem
    cases event with
    | publishes other stored =>
        intro row hrow
        simp only [step, policyStep, Dict.get?_set] at hrow
        split at hrow
        · rename_i hother
          cases hrow
          exact hevent stored (by rw [hother])
        · exact hsystem row hrow
    | deactivates other =>
        intro row hrow
        exact hsystem row (Dict.get?_of_erase hrow)
    | runs j =>
        intro row hrow
        simp only [step, step_active] at hrow
        exact hsystem row hrow
    | fails j e => exact hsystem
    | passes seconds => exact hsystem
    | invalidates other => exact hsystem
    | clears => exact hsystem
  obtain ⟨_, _, _, hversion, hrowactive, -⟩ := hversions.sometime hactive
  rw [snapshotOf_version hrow]
  exact hversion row hrowactive

/-- A snapshot was the tenant's active row no longer than a TTL before the
call started; and of a call that starts a TTL after a publication, or
later, it was active since, and is no older version. -/
theorem staleness_bounded {events : List (CallEvent ι)} (httl : 0 ≤ ttl)
    (h : (events.foldl (step ttl) (start now active requests)).calls i =
      .done request started (.ok snapshot)) :
    ActiveWhen ttl (start now active requests) events request.tenantId
        snapshot (fun moment => started - ttl ≤ moment.now) ∧
      ∀ past stored future,
        events = past ++ .publishes request.tenantId stored :: future →
        let published := (past ++ [.publishes request.tenantId stored]).foldl
          (step ttl) (start now active requests)
        (published.calls i).begun = false →
        published.now + ttl ≤ started →
        ActiveWhen ttl published future request.tenantId snapshot
            (fun _ => True) ∧
          ((∀ later, .publishes request.tenantId later ∈ future →
            stored.version ≤ later.version) →
              stored.version ≤ snapshot.version) := by
  have hactive := (dated_run events).done i request started snapshot h
  constructor
  · refine hactive.imp ?_
    rintro moment (hrecent | ⟨hsince, -⟩)
    · exact le_of_lt hrecent
    · linarith
  · intro past stored future hevents published hbegun hnow
    rw [hevents] at hactive
    have hsince := active_since hbegun hnow hactive
    refine ⟨hsince, ?_⟩
    intro hfuture
    refine version_of_active hfuture ?_ hsince
    intro row hrow
    simp only [List.foldl_append, List.foldl_cons,
      List.foldl_nil, step, policyStep, Dict.get?_set_self] at hrow
    cases hrow
    exact le_refl _

/-- A version of a policy with no rules. -/
def plainStored (version : Nat) : StoredPolicy where
  policyId := ⟨5⟩
  version := version + 1
  document := .ok
    { name := "a".toList, sessionTtlSeconds := 3600, maxEntities := 100
      providers := [], entities := []
      sessionTtl_bounded := hour_le_maxSessionTtl
      maxEntities_bounded := hundred_le_maxEntityBudget }
  version_positive := by omega

/-- A call caches the first version, the second is published, and a call
that starts a TTL later reads it. -/
def republished : List (CallEvent Bool) :=
  [.runs true, .runs true, .runs true] ++
    .publishes ⟨0⟩ (plainStored 1) ::
      [.passes 30, .runs false, .runs false, .runs false]

def republishedStart : CallSystem Bool :=
  start 0 [(⟨0⟩, plainStored 0)] (fun _ => ⟨⟨0⟩, none⟩)

theorem staleness_bounded_republished :
    ∃ snapshot : PolicySnapshot, snapshot.version = 2 ∧
      ActiveWhen 30 republishedStart republished ⟨0⟩ snapshot
        (fun moment => 30 - 30 ≤ moment.now) := by
  have hdone : ((republished.foldl (step 30) republishedStart).calls false) =
      .done ⟨⟨0⟩, none⟩ 30 (.ok
        ⟨⟨5⟩, ⟨0⟩, 2, "a".toList, 3600, 100, .preserve, [], []⟩) := by
    decide +kernel
  exact ⟨_, rfl, (staleness_bounded (by decide +kernel) hdone).1⟩

end CallSystem

end PrivacyGateway.Policy
