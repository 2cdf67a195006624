/-
How often `last_used_at` is written.

The tracker remembers, for the keys whose use it let through last, when
that was. A use is let through when its key is not among them or its time
is an interval ago, and it is remembered before anything is written: a
write that fails has claimed its interval all the same. The memory is
bounded, and the key that was let through longest ago is forgotten first.
-/
import PrivacyGateway.Domain
import PrivacyGateway.Lib.Recency

namespace PrivacyGateway.Auth

open Recency

structure LastUsedTracker where
  intervalSeconds : Rat
  maxTracked : Nat
  interval_pos : 0 < intervalSeconds
  max_pos : 1 ≤ maxTracked

/-- `LAST_USED_UPDATE_INTERVAL_SECONDS` and `MAX_TRACKED_KEYS`. -/
def defaultTracker : LastUsedTracker where
  intervalSeconds := 300
  maxTracked := 10000
  interval_pos := by decide +kernel
  max_pos := by decide

/-- When each remembered key was let through, longest ago first. -/
abbrev SeenKeys := Dict UUID Rat

/-- `while len(seen) > bound: seen.popitem(last=False)`. -/
def popOldest (bound : Nat) : SeenKeys → SeenKeys
  | [] => []
  | e :: seen =>
      if bound < seen.length + 1 then popOldest bound seen else e :: seen

/-- What a write of the repository fails with: `SQLAlchemyError`, or
`OSError`. The moment it is given has a time zone, so it raises nothing of
its own. -/
inductive WriteError
  | database
  | system
deriving DecidableEq

/-- A request's use of its key: the time, and what writing it down would
come to, where there is a writer. -/
structure KeyUse where
  apiKeyId : UUID
  now : Rat
  write : Option (Except WriteError Unit)

namespace LastUsedTracker

variable (tracker : LastUsedTracker)

/-- The key is let through, and remembered. -/
def claim (seen : SeenKeys) (apiKeyId : UUID) (now : Rat) : SeenKeys :=
  popOldest tracker.maxTracked (touch seen (apiKeyId, now))

/-- Whether the key is due a write, claiming the interval if so. -/
def shouldUpdate (seen : SeenKeys) (apiKeyId : UUID) (now : Rat) :
    Bool × SeenKeys :=
  match seen.get? apiKeyId with
  | some previous =>
      if now - previous < tracker.intervalSeconds then (false, seen)
      else (true, tracker.claim seen apiKeyId now)
  | none => (true, tracker.claim seen apiKeyId now)

/-- Write if due: whether a write happened. Both failures are caught. -/
def recordUse (seen : SeenKeys) (use : KeyUse) : Bool × SeenKeys :=
  match use.write with
  | none => (false, seen)
  | some outcome =>
      match tracker.shouldUpdate seen use.apiKeyId use.now with
      | (false, seen) => (false, seen)
      | (true, seen) => (outcome.toBool, seen)

/-- The use is let through to its writer. -/
def attempts (seen : SeenKeys) (use : KeyUse) : Bool :=
  use.write.isSome && (tracker.shouldUpdate seen use.apiKeyId use.now).1

/-- What is remembered after a run of uses. -/
def seenAfter (uses : List KeyUse) : SeenKeys :=
  uses.foldl (fun seen use => (tracker.recordUse seen use).2) []

/-- The uses that a run let through, each with its key and time. -/
def attempted (uses : List KeyUse) : List (UUID × Rat) :=
  (List.range uses.length).filterMap fun i =>
    match uses[i]? with
    | some use =>
        if tracker.attempts (tracker.seenAfter (uses.take i)) use then
          some (use.apiKeyId, use.now)
        else none
    | none => none

end LastUsedTracker

-- ==================================================== what is forgotten

theorem popOldest_eq_newest (bound : Nat) (seen : SeenKeys) :
    popOldest bound seen = newest bound seen := by
  induction seen with
  | nil => simp [popOldest, newest]
  | cons e seen ih =>
      unfold popOldest
      by_cases h : bound < seen.length + 1
      · rw [if_pos h, ih]
        unfold newest
        rw [List.length_cons,
          show seen.length + 1 - bound = seen.length - bound + 1 by omega,
          List.drop_succ_cons]
      · rw [if_neg h, newest_of_le (by rw [List.length_cons]; omega)]

namespace LastUsedTracker

variable {tracker : LastUsedTracker}

theorem recordUse_eq (seen : SeenKeys) (use : KeyUse) :
    (tracker.recordUse seen use).2 =
      if tracker.attempts seen use then
        newest tracker.maxTracked (touch seen (use.apiKeyId, use.now))
      else seen := by
  unfold recordUse attempts shouldUpdate claim
  rw [← popOldest_eq_newest]
  cases use.write with
  | none => rfl
  | some outcome =>
      cases seen.get? use.apiKeyId with
      | none => rfl
      | some previous =>
          by_cases h : use.now - previous < tracker.intervalSeconds
          · simp only [if_pos h]
            rfl
          · simp only [if_neg h]
            rfl

theorem attempted_append (uses : List KeyUse) (use : KeyUse) :
    tracker.attempted (uses ++ [use]) = tracker.attempted uses ++
      if tracker.attempts (tracker.seenAfter uses) use then
        [(use.apiKeyId, use.now)]
      else [] := by
  unfold attempted
  rw [List.length_append, List.length_singleton, List.range_succ,
    List.filterMap_append]
  congr 1
  · refine List.filterMap_congr (fun i hi => ?_)
    have hlt := List.mem_range.mp hi
    rw [List.getElem?_append_left hlt, List.take_append_of_le_length
      (Nat.le_of_lt hlt)]
  · rw [List.filterMap_cons, List.getElem?_append_right (Nat.le_refl _),
      Nat.sub_self, List.take_left]
    simp only [List.getElem?_cons_zero, List.filterMap_nil]
    split
    · rename_i h
      split at h
      · cases h
      · rename_i hno
        rw [if_neg hno]
    · rename_i e h
      split at h
      · rename_i hyes
        cases h
        rw [if_pos hyes]
      · cases h

/-- What is remembered is the newest of all that was ever let through. -/
theorem seenAfter_eq_newest (uses : List KeyUse) :
    tracker.seenAfter uses =
      newest tracker.maxTracked (order (tracker.attempted uses)) := by
  induction uses using List.reverseRecOn with
  | nil => simp [seenAfter, attempted, order, newest]
  | append_singleton uses use ih =>
      have hstep : tracker.seenAfter (uses ++ [use]) =
          (tracker.recordUse (tracker.seenAfter uses) use).2 := by
        unfold seenAfter
        rw [List.foldl_append]
        rfl
      rw [hstep, recordUse_eq, attempted_append]
      by_cases h : tracker.attempts (tracker.seenAfter uses) use = true
      · rw [if_pos h, if_pos h, order_append, ih,
          newest_touch (nodup_order _)]
      · rw [if_neg h, if_neg h, List.append_nil, ih]

/-- After any run, at most so many keys are remembered, and a use is let
through to its writer exactly when its key was not let through within the
interval, or as many other keys as are remembered were let through
since. -/
theorem attempts_iff (uses : List KeyUse) (use : KeyUse) :
    (tracker.seenAfter uses).length ≤ tracker.maxTracked ∧
      (tracker.attempts (tracker.seenAfter uses) use = true ↔
        use.write.isSome ∧ ∀ before previous after,
          tracker.attempted uses =
              before ++ (use.apiKeyId, previous) :: after →
            use.apiKeyId ∉ after.map Prod.fst →
            use.now - previous < tracker.intervalSeconds →
            tracker.maxTracked ≤ (after.map Prod.fst).dedup.length) := by
  rw [seenAfter_eq_newest]
  refine ⟨length_newest _ _, ?_⟩
  have hget : ∀ previous, Dict.get? (newest tracker.maxTracked
      (order (tracker.attempted uses))) use.apiKeyId = some previous ↔ _ :=
    fun previous => get?_newest_iff
  unfold attempts shouldUpdate
  rw [Bool.and_eq_true]
  refine and_congr_right (fun _ => ?_)
  cases hseen : Dict.get? (newest tracker.maxTracked
      (order (tracker.attempted uses))) use.apiKeyId with
  | none =>
      simp only [true_iff]
      intro before previous after hsplit hafter _
      by_contra hshort
      rw [(hget previous).mpr
        ⟨before, after, hsplit, hafter, not_le.mp hshort⟩] at hseen
      cases hseen
  | some previous =>
      obtain ⟨before, after, hsplit, hafter, hshort⟩ :=
        (hget previous).mp hseen
      by_cases h : use.now - previous < tracker.intervalSeconds
      · simp only [if_pos h, Bool.false_eq_true, false_iff]
        intro hall
        exact absurd (hall before previous after hsplit hafter h)
          (not_le.mpr hshort)
      · simp only [if_neg h, true_iff]
        intro before' previous' after' hsplit' hafter' hclose
        by_contra hshort'
        rw [(hget previous').mpr
          ⟨before', after', hsplit', hafter', not_le.mp hshort'⟩] at hseen
        cases hseen
        exact h hclose

end LastUsedTracker

end PrivacyGateway.Auth
