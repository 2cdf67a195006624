/-
The pre-pass and the loop behind it agree.

Selection is a function of a message, its detections and the policy, so
what the guard selected for a message is what its transform selects. The
request's total is at most the policy's own limit, and each message's
share is at most the total; a type that is not blocked in the guard's
selection is not blocked in the plan. So after the guard every transform
has a plan (`plan_of_guard`), and what it may still raise is no refusal.
-/
import Mathlib.Algebra.Order.BigOperators.Group.List
import PrivacyGateway.Pipeline.Guards
import PrivacyGateway.Tokenization.Proofs.Refusals

namespace PrivacyGateway.Pipeline

open Effect Tokenization

variable {messages : List ChatMessage}
  {detections : List (List DetectedEntity)} {policy : PolicySnapshot}
  {selections : Selections} {ceiling : Nat}

-- ==================================================== the guards

theorem enforceEntityBudget_ok {budget total : Nat}
    (h : enforceEntityBudget selections budget = .ok total) :
    (selections.map List.length).sum ≤ budget := by
  unfold enforceEntityBudget at h
  by_cases hover : (selections.map List.length).sum > budget
  · simp only [if_pos hover] at h
    cases h
  · omega

theorem rejectBlockedIn_ok {selected : List DetectedEntity}
    (h : rejectBlockedIn policy selected = .ok ()) :
    ∀ e ∈ selected, policy.actionFor e.entityType ≠ .block := by
  induction selected with
  | nil =>
      intro e he
      exact absurd he List.not_mem_nil
  | cons entity selected ih =>
      intro e he
      unfold rejectBlockedIn at h
      by_cases hblock : policy.actionFor entity.entityType = .block
      · rw [if_pos hblock] at h
        cases h
      · rw [if_neg hblock] at h
        rcases List.mem_cons.mp he with rfl | he
        · exact hblock
        · exact ih h e he

theorem rejectBlockedEntities_ok
    (h : rejectBlockedEntities policy selections = .ok ()) :
    ∀ selected ∈ selections, ∀ e ∈ selected,
      policy.actionFor e.entityType ≠ .block := by
  induction selections with
  | nil =>
      intro selected hselected
      exact absurd hselected List.not_mem_nil
  | cons first selections ih =>
      intro selected hselected
      unfold rejectBlockedEntities at h
      cases hfirst : rejectBlockedIn policy first with
      | error e =>
          rw [hfirst] at h
          cases h
      | ok u =>
          rw [hfirst] at h
          rcases List.mem_cons.mp hselected with rfl | hselected
          · exact rejectBlockedIn_ok hfirst
          · exact ih h selected hselected

theorem rejectBlockedIn_of_unblocked {selected : List DetectedEntity}
    (h : ∀ e ∈ selected, policy.actionFor e.entityType ≠ .block) :
    rejectBlockedIn policy selected = .ok () := by
  induction selected with
  | nil => rfl
  | cons entity selected ih =>
      obtain ⟨hentity, hrest⟩ := List.forall_mem_cons.mp h
      unfold rejectBlockedIn
      rw [if_neg hentity]
      exact ih hrest

theorem rejectBlockedIn_of_blocked {selected : List DetectedEntity}
    (h : ∃ e ∈ selected, policy.actionFor e.entityType = .block) :
    RefusedWith .policyViolation (rejectBlockedIn policy selected) := by
  induction selected with
  | nil =>
      obtain ⟨e, he, -⟩ := h
      exact absurd he List.not_mem_nil
  | cons entity selected ih =>
      unfold rejectBlockedIn
      by_cases hblock : policy.actionFor entity.entityType = .block
      · rw [if_pos hblock]
        exact ⟨_, rfl, rfl⟩
      · rw [if_neg hblock]
        obtain ⟨e, he, haction⟩ := h
        rcases List.mem_cons.mp he with rfl | he
        · exact absurd haction hblock
        · exact ih ⟨e, he, haction⟩

/-- The guard of a request of one message, once its spans are selected. -/
theorem guardRequest_single {message : ChatMessage}
    {entities selected : List DetectedEntity}
    (hselect : selectEntities message.content entities policy =
      .ok selected) :
    (entityBudget policy ceiling < selected.length →
      RefusedWith .entityLimitExceeded
        (guardRequest [message] [entities] policy ceiling)) ∧
    (selected.length ≤ entityBudget policy ceiling →
      guardRequest [message] [entities] policy ceiling =
        rejectBlockedIn policy selected) := by
  have hselections : selectRequestEntities policy [message] [entities] =
      .ok [selected] := by
    unfold selectRequestEntities
    rw [hselect]
    rfl
  have htotal : ([selected].map List.length).sum = selected.length := by
    simp
  unfold guardRequest
  simp only [hselections, bind, Except.bind]
  unfold enforceEntityBudget
  simp only [htotal]
  constructor
  · intro hover
    rw [if_pos hover]
    exact ⟨_, rfl, rfl⟩
  · intro hwithin
    rw [if_neg (Nat.not_lt.mpr hwithin)]
    simp only [rejectBlockedEntities]
    cases rejectBlockedIn policy selected with
    | error e => rfl
    | ok u => rfl

/-- What the guard establishes when it passes. -/
structure Guarded (messages : List ChatMessage)
    (detections : List (List DetectedEntity)) (policy : PolicySnapshot)
    (ceiling : Nat) (selections : Selections) : Prop where
  selects : selectRequestEntities policy messages detections =
    .ok selections
  within_budget : (selections.map List.length).sum ≤
    entityBudget policy ceiling
  not_blocked : ∀ selected ∈ selections, ∀ e ∈ selected,
    policy.actionFor e.entityType ≠ .block

theorem guardRequest_ok
    (h : guardRequest messages detections policy ceiling = .ok ()) :
    ∃ selections, Guarded messages detections policy ceiling
      selections := by
  unfold guardRequest at h
  cases hselect : selectRequestEntities policy messages detections with
  | error e =>
      rw [hselect] at h
      cases h
  | ok selections =>
      rw [hselect] at h
      cases hbudget : enforceEntityBudget selections
          (entityBudget policy ceiling) with
      | error e =>
          simp only [hbudget, bind, Except.bind] at h
          cases h
      | ok total =>
          simp only [hbudget, bind, Except.bind] at h
          exact ⟨selections, hselect, enforceEntityBudget_ok hbudget,
            rejectBlockedEntities_ok h⟩

-- ==================================================== message by message

/-- The selections stand in step with the messages, and each is its
message's own. -/
theorem selectRequestEntities_get (messages : List ChatMessage) :
    ∀ {detections : List (List DetectedEntity)} {selections : Selections},
      selectRequestEntities policy messages detections = .ok selections →
        detections.length = messages.length ∧
          selections.length = messages.length ∧
          ∀ {i : Nat} {message : ChatMessage}
            {entities : List DetectedEntity},
            messages[i]? = some message → detections[i]? = some entities →
              ∃ selected, selections[i]? = some selected ∧
                selectEntities message.content entities policy =
                  .ok selected := by
  induction messages with
  | nil =>
      intro detections selections h
      cases detections with
      | cons entities detections => cases h
      | nil =>
          cases h
          refine ⟨rfl, rfl, ?_⟩
          intro i message entities hmessage
          cases hmessage
  | cons message messages ih =>
      intro detections selections h
      cases detections with
      | nil => cases h
      | cons entities detections =>
          unfold selectRequestEntities at h
          cases hfirst : selectEntities message.content entities
              policy with
          | error e =>
              rw [hfirst] at h
              cases h
          | ok selected =>
              rw [hfirst] at h
              simp only at h
              cases hrest : selectRequestEntities policy messages
                  detections with
              | error e =>
                  rw [hrest] at h
                  cases h
              | ok rest =>
                  rw [hrest] at h
                  cases h
                  obtain ⟨hdetections, hselections, hget⟩ := ih hrest
                  refine ⟨congrArg Nat.succ hdetections,
                    congrArg Nat.succ hselections, ?_⟩
                  intro i message' entities' hmessage hentities
                  cases i with
                  | zero =>
                      cases hmessage
                      cases hentities
                      exact ⟨selected, rfl, hfirst⟩
                  | succ i => exact hget hmessage hentities

/-- After the guard, each message has the plan of its own selection. -/
theorem plan_of_guard (h : Guarded messages detections policy ceiling
      selections) {i : Nat} {message : ChatMessage}
    {entities selected : List DetectedEntity}
    (hmessage : messages[i]? = some message)
    (hentities : detections[i]? = some entities)
    (hselected : selections[i]? = some selected) :
    planFor message.content entities policy =
      .ok (withActions policy selected) := by
  obtain ⟨-, -, hget⟩ := selectRequestEntities_get messages h.selects
  obtain ⟨own, hown, hselects⟩ := hget hmessage hentities
  rw [hselected] at hown
  cases hown
  have hmem : selected ∈ selections := List.mem_of_getElem? hselected
  have hshare : selected.length ≤ (selections.map List.length).sum :=
    List.le_sum_of_mem (List.mem_map.mpr ⟨selected, hmem, rfl⟩)
  have hbudget := h.within_budget
  unfold entityBudget at hbudget
  rw [planFor_ok_iff]
  refine ⟨selected, ⟨hselects, ?_, h.not_blocked selected hmem⟩, rfl⟩
  omega

/-- The pre-pass is exact. Where it raises, the vault is as it was; where
it passes, it selected for each message what that message's transform acts
on, and no transform of the request raises a refusal. -/
theorem guard_exact (unicode : Unicode) (hashes : Hashes)
    (fingerprinter : Fingerprinter) (vault : Vault.RedisTokenVault)
    (tenantId sessionId : UUID) (messages : List ChatMessage)
    (detections : List (List DetectedEntity)) (policy : PolicySnapshot)
    (ceiling : Nat) :
    (∀ e, guardRequest messages detections policy ceiling = .error e →
      ∀ w, runIn (protectMessages unicode hashes fingerprinter vault.like
        tenantId sessionId policy messages detections ceiling) w =
          (.error e, w)) ∧
    (guardRequest messages detections policy ceiling = .ok () →
      ∃ selections, selectRequestEntities policy messages detections =
          .ok selections ∧ detections.length = messages.length ∧
        selections.length = messages.length ∧
        ∀ (i : Nat) (message : ChatMessage)
          (entities selected : List DetectedEntity),
          messages[i]? = some message →
          detections[i]? = some entities →
          selections[i]? = some selected →
          planFor message.content entities policy =
            .ok (withActions policy selected) ∧
          ∀ w e w', runIn (transform unicode hashes fingerprinter
              vault.like tenantId sessionId message.content entities
              policy) w = (.error e, w') → e.isRefusal = false) := by
  constructor
  · intro e herror w
    unfold protectMessages
    rw [herror, checked_bind_error]
  · intro hok
    obtain ⟨selections, hguarded⟩ := guardRequest_ok hok
    obtain ⟨hdetections, hselections, -⟩ :=
      selectRequestEntities_get messages hguarded.selects
    refine ⟨selections, hguarded.selects, hdetections, hselections, ?_⟩
    intro i message entities selected hmessage hentities hselected
    have hplan := plan_of_guard hguarded hmessage hentities hselected
    refine ⟨hplan, ?_⟩
    intro w e w' hrun
    rcases transform_error (vault.getOrCreateMany_faults tenantId sessionId)
      hrun with ⟨hnoplan, -⟩ | ⟨-, hfault⟩
    · rw [hplan] at hnoplan
      cases hnoplan
    · exact hfault

end PrivacyGateway.Pipeline
