/-
Counting a log of moments in windows.

A window starts at any moment and is half open. A log is `Spread` when no
window of a width holds more of it than a limit. `Spread.append` is the
rule a limiter lives by: a moment may be added where fewer than the limit
are `recent`, that is, later than a window before it. The moments of the
log need not be in order.
-/
import Mathlib.Data.List.Basic

namespace SlidingWindow

/-- How many moments lie in the window that starts there. -/
def within (width start : Nat) (log : List Nat) : Nat :=
  log.countP (fun t => decide (start ≤ t ∧ t < start + width))

/-- How many moments are later than a window before `now`. -/
def recent (width now : Nat) (log : List Nat) : Nat :=
  log.countP (fun t => decide (now < t + width))

/-- No window holds more than the limit. -/
def Spread (limit width : Nat) (log : List Nat) : Prop :=
  ∀ start, within width start log ≤ limit

variable {limit width : Nat} {log : List Nat}

theorem spread_nil : Spread limit width [] := by
  intro start
  exact Nat.zero_le limit

/-- A window that reaches `now` holds recent moments only. -/
theorem within_le_recent {start now : Nat} (hnow : now < start + width) :
    within width start log ≤ recent width now log := by
  apply List.countP_mono_left
  intro t _ h
  have := of_decide_eq_true h
  exact decide_eq_true (by omega)

theorem Spread.append (h : Spread limit width log) {now : Nat}
    (hrecent : recent width now log < limit) :
    Spread limit width (log ++ [now]) := by
  intro start
  have hold := h start
  unfold within at hold ⊢
  rw [List.countP_append]
  by_cases hin : start ≤ now ∧ now < start + width
  · have hle : within width start log ≤ recent width now log :=
      within_le_recent hin.2
    unfold within at hle
    rw [List.countP_singleton, if_pos (decide_eq_true hin)]
    omega
  · rw [List.countP_singleton, if_neg (by simpa using hin)]
    exact hold

-- ==================================================== as time goes on

/-- A log that is spread and lies in the past has no more recent moments
than the limit. -/
theorem Spread.recent_le (h : Spread limit width log) {now : Nat}
    (hpast : ∀ t ∈ log, t ≤ now) : recent width now log ≤ limit := by
  refine Nat.le_trans ?_ (h (now + 1 - width))
  apply List.countP_mono_left
  intro t ht hlate
  have := hpast t ht
  have := of_decide_eq_true hlate
  exact decide_eq_true (by omega)

/-- Time only takes recent moments away. -/
theorem recent_mono {now later : Nat} (hle : now ≤ later) :
    recent width later log ≤ recent width now log := by
  apply List.countP_mono_left
  intro t _ hlate
  have := of_decide_eq_true hlate
  exact decide_eq_true (by omega)

/-- A moment that leaves the window is counted no more. -/
theorem recent_lt {now later t : Nat} (ht : t ∈ log)
    (hin : now < t + width) (hout : t + width ≤ later) :
    recent width later log < recent width now log := by
  have hle : now ≤ later := by omega
  obtain ⟨before, after, rfl⟩ := List.append_of_mem ht
  have hbefore := @recent_mono width before now later hle
  have hafter := @recent_mono width after now later hle
  unfold recent at hbefore hafter ⊢
  rw [List.countP_append, List.countP_append, List.countP_cons,
    List.countP_cons, if_pos (decide_eq_true hin),
    if_neg (by simpa using hout)]
  omega

/-- A full log has room again when its oldest recent moment leaves the
window, and not before. -/
theorem Spread.room_iff (h : Spread limit width log) {now later oldest : Nat}
    (hpast : ∀ t ∈ log, t ≤ now) (hfull : limit ≤ recent width now log)
    (hmem : oldest ∈ log) (hrecent : now < oldest + width)
    (holdest : ∀ t ∈ log, now < t + width → oldest ≤ t) :
    recent width later log < limit ↔ oldest + width ≤ later := by
  constructor
  · intro hroom
    by_contra hstays
    have hsame : recent width now log ≤ recent width later log := by
      apply List.countP_mono_left
      intro t ht hlate
      have := holdest t ht (of_decide_eq_true hlate)
      exact decide_eq_true (by omega)
    omega
  · intro hleaves
    have hlt := recent_lt hmem hrecent hleaves
    have hbound := h.recent_le hpast
    omega

end SlidingWindow
