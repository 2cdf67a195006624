/-
Deterministic overlap resolution.

Candidates compete under a total order on six keys: severity, score,
length, start, entity type, recognizer. They are walked best-first and
one is kept when it overlaps nothing already kept; the kept spans are
then put in document order.

The three facts below are the whole interface: the kept spans are
candidates (`mem_of_mem_resolveOverlaps`), no two of them overlap
(`resolveOverlaps_pairwise`), and a candidate that is not kept overlaps a
kept one that dominates it (`resolveOverlaps_covers`).
-/
import PrivacyGateway.Domain
import PrivacyGateway.Lib.Selection

namespace PrivacyGateway.Detection

open Selection

/-- A type with no entry in the severity table ranks lowest. -/
def severityUnknown : Int := 0

def severityOf (priority : Dict Text Int) (entityType : Text) : Int :=
  (priority.get? entityType).getD severityUnknown

abbrev DominanceKey := Int ×ₗ Rat ×ₗ Int ×ₗ Nat ×ₗ Text ×ₗ Text

/-- The sort key of the ordering rule. Smaller is better, so what should
be large is negated. -/
def dominanceKey (priority : Dict Text Int) (entity : DetectedEntity) :
    DominanceKey :=
  toLex (-severityOf priority entity.entityType,
    toLex (-entity.score, toLex (-(entity.length : Int),
      toLex (entity.start, toLex (entity.entityType,
        entity.recognizer.getD [])))))

/-- The order in which kept spans are returned. -/
def positionKey (entity : DetectedEntity) : Nat ×ₗ Nat ×ₗ Text :=
  toLex (entity.start, toLex (entity.stop, entity.entityType))

/-- A non-overlapping subset, sorted by position. -/
def resolveOverlaps (priority : Dict Text Int)
    (entities : List DetectedEntity) : List DetectedEntity :=
  sortBy positionKey
    (greedy DetectedEntity.overlaps
      (sortBy (dominanceKey priority) entities))

-- ==================================================== the order

/-- What it means to dominate: a higher severity, or the same severity
and no lower score. -/
theorem severity_of_dominates {priority : Dict Text Int}
    {a b : DetectedEntity}
    (h : dominanceKey priority a ≤ dominanceKey priority b) :
    severityOf priority b.entityType < severityOf priority a.entityType ∨
      (severityOf priority a.entityType =
        severityOf priority b.entityType ∧ b.score ≤ a.score) := by
  unfold dominanceKey at h
  rcases Prod.Lex.le_iff.mp h with h | ⟨heq, h⟩
  · exact Or.inl (by simpa using h)
  · have heq : severityOf priority a.entityType =
        severityOf priority b.entityType := by simpa using heq
    rcases Prod.Lex.le_iff.mp h with h | ⟨hscore, -⟩
    · have : b.score < a.score := by simpa using h
      exact Or.inr ⟨heq, this.le⟩
    · have : a.score = b.score := by simpa using hscore
      exact Or.inr ⟨heq, this.ge⟩

/-- And what suffices for it, up to length. -/
theorem dominanceKey_le {priority : Dict Text Int} {a b : DetectedEntity}
    (h : severityOf priority b.entityType < severityOf priority a.entityType ∨
      (severityOf priority a.entityType = severityOf priority b.entityType ∧
        (b.score < a.score ∨ (b.score = a.score ∧ b.length < a.length)))) :
    dominanceKey priority a ≤ dominanceKey priority b := by
  unfold dominanceKey
  rcases h with h | ⟨hsev, h | ⟨hscore, hlen⟩⟩
  · exact Prod.Lex.le_iff.mpr (Or.inl (by simpa using h))
  · refine Prod.Lex.le_iff.mpr (Or.inr ⟨by simpa using hsev, ?_⟩)
    exact Prod.Lex.le_iff.mpr (Or.inl (by simpa using h))
  · refine Prod.Lex.le_iff.mpr (Or.inr ⟨by simpa using hsev, ?_⟩)
    refine Prod.Lex.le_iff.mpr (Or.inr ⟨by simpa using hscore.symm, ?_⟩)
    exact Prod.Lex.le_iff.mpr (Or.inl (by simpa using hlen))

-- ==================================================== the kept spans

variable {priority : Dict Text Int} {entities : List DetectedEntity}

theorem mem_of_mem_resolveOverlaps {e : DetectedEntity}
    (he : e ∈ resolveOverlaps priority entities) : e ∈ entities := by
  unfold resolveOverlaps at he
  rw [mem_sortBy] at he
  exact mem_sortBy.mp (mem_of_mem_greedy he)

/-- No two kept spans overlap. -/
theorem resolveOverlaps_pairwise :
    (resolveOverlaps priority entities).Pairwise
      (fun a b => a.overlaps b = false) := by
  unfold resolveOverlaps
  refine (List.Perm.pairwise_iff ?_ (sortBy_perm _ _)).mpr
    (greedy_pairwise DetectedEntity.overlaps_comm _)
  intro a b h
  rw [DetectedEntity.overlaps_comm]
  exact h

/-- The kept spans stand one after the other. -/
theorem resolveOverlaps_chain :
    (resolveOverlaps priority entities).Pairwise
      (fun a b => a.stop ≤ b.start) := by
  have hpos : (resolveOverlaps priority entities).Pairwise
      (fun a b => positionKey a ≤ positionKey b) := sortBy_pairwise _ _
  refine (hpos.and resolveOverlaps_pairwise).imp ?_
  intro a b h
  obtain ⟨hle, hclear⟩ := h
  have hstart : a.start ≤ b.start := by
    rcases Prod.Lex.le_iff.mp hle with h | ⟨h, -⟩
    · exact Nat.le_of_lt h
    · exact Nat.le_of_eq h
  by_contra hlt
  have hover : a.overlaps b = true :=
    DetectedEntity.overlaps_iff.mpr
      ⟨by have := b.span_forward; omega, by omega⟩
  rw [hover] at hclear
  cases hclear

/-- A candidate is kept, or overlaps a kept span that dominates it. -/
theorem resolveOverlaps_covers (priority : Dict Text Int)
    {entities : List DetectedEntity} {e : DetectedEntity}
    (he : e ∈ entities) :
    e ∈ resolveOverlaps priority entities ∨
      ∃ k ∈ resolveOverlaps priority entities, e.overlaps k = true ∧
        dominanceKey priority k ≤ dominanceKey priority e := by
  unfold resolveOverlaps
  simp only [mem_sortBy]
  exact greedy_covers (sortBy_pairwise (dominanceKey priority) entities)
    (mem_sortBy.mpr he)

/-- Spans that stand one after the other are all kept, in their order. -/
theorem resolveOverlaps_eq_self (priority : Dict Text Int)
    {entities : List DetectedEntity}
    (h : entities.Pairwise (fun a b => a.stop ≤ b.start)) :
    resolveOverlaps priority entities = entities := by
  have hclear : entities.Pairwise (fun a b => b.overlaps a = false) := by
    refine h.imp ?_
    intro a b hab
    cases hover : b.overlaps a with
    | false => rfl
    | true =>
        have := (DetectedEntity.overlaps_iff.mp hover).1
        omega
  have hperm := sortBy_perm (dominanceKey priority) entities
  have hkept := greedy_eq_self ((List.Perm.pairwise_iff
    (fun h => by rw [DetectedEntity.overlaps_comm]; exact h) hperm).mpr
      hclear)
  unfold resolveOverlaps
  rw [hkept]
  apply sortBy_eq_of_perm hperm
  refine h.imp ?_
  intro a b hab
  refine Prod.Lex.lt_iff.mpr (Or.inl ?_)
  have := a.span_forward
  show a.start < b.start
  omega

end PrivacyGateway.Detection
