/-
Choosing which detected spans the tokenizer acts on.

Spans outside the text are an error; spans below the policy's threshold
for their type are dropped; overlaps among the rest are resolved by a
sweep from the left that never splits a span.

`selectEntities_ok_iff` is the equation callers use. Of the sweep, three facts
matter: what is selected was confident, selected spans stand one after
the other, and a confident span that is not selected starts inside one
that is (`selectEntities_covers`).
-/
import PrivacyGateway.Lib.Selection
import PrivacyGateway.Policy.Models

namespace PrivacyGateway.Tokenization

open Selection

/-- Earliest span first; then longest, then most confident, then type
name. -/
def orderingKey (entity : DetectedEntity) : Nat ×ₗ Int ×ₗ Rat ×ₗ Text :=
  toLex (entity.start, toLex (-(entity.length : Int),
    toLex (-entity.score, entity.entityType)))

/-- The first span that does not lie inside the text, as an error. -/
def validateSpans (text : Text) : List DetectedEntity → Except Exn Unit
  | [] => .ok ()
  | entity :: entities =>
      if entity.stop > text.length then
        .error (gatewayError .invalidRequest
          (reason "entity span outside text bounds" ++
            [("entity_type", .text entity.entityType),
              ("span_end", .int entity.stop),
              ("text_length", .int text.length)]))
      else validateSpans text entities

/-- A non-overlapping subset, preferring longer then higher-scoring
spans. -/
def resolveOverlaps (entities : List DetectedEntity) : List DetectedEntity :=
  sweep DetectedEntity.start DetectedEntity.stop
    (sortBy orderingKey entities)

/-- The policy is sure enough of the span. -/
def isConfident (policy : PolicySnapshot) (entity : DetectedEntity) : Bool :=
  policy.minScoreFor entity.entityType ≤ entity.score

theorem isConfident_iff {policy : PolicySnapshot} {entity : DetectedEntity} :
    isConfident policy entity = true ↔
      policy.minScoreFor entity.entityType ≤ entity.score :=
  decide_eq_true_iff

/-- The spans to act on, ascending by start offset. -/
def selectEntities (text : Text) (entities : List DetectedEntity)
    (policy : PolicySnapshot) : Except Exn (List DetectedEntity) := do
  validateSpans text entities
  return resolveOverlaps (entities.filter (isConfident policy))

-- ==================================================== bounds

theorem validateSpans_ok_iff {text : Text} {entities : List DetectedEntity} :
    validateSpans text entities = .ok () ↔
      ∀ e ∈ entities, e.stop ≤ text.length := by
  induction entities with
  | nil => simp [validateSpans]
  | cons e entities ih =>
      unfold validateSpans
      by_cases he : e.stop > text.length
      · rw [if_pos he]
        constructor
        · intro h
          cases h
        · intro h
          have := h e List.mem_cons_self
          omega
      · rw [if_neg he, ih, List.forall_mem_cons]
        exact ⟨fun h => ⟨by omega, h⟩, fun h => h.2⟩

/-- Selection returns the sweep of the confident spans, unless a span lies
outside the text. -/
theorem selectEntities_ok_iff {text : Text} {entities : List DetectedEntity}
    {policy : PolicySnapshot} {selected : List DetectedEntity} :
    selectEntities text entities policy = .ok selected ↔
      (∀ e ∈ entities, e.stop ≤ text.length) ∧
        selected = resolveOverlaps (entities.filter (isConfident policy)) := by
  rw [← validateSpans_ok_iff]
  unfold selectEntities
  cases hval : validateSpans text entities with
  | error err =>
      constructor
      · intro h
        cases h
      · intro h
        cases h.1
  | ok u =>
      constructor
      · intro h
        cases h
        exact ⟨rfl, rfl⟩
      · intro h
        rw [h.2]
        rfl

-- ==================================================== the sweep

theorem mem_of_mem_resolveOverlaps {entities : List DetectedEntity}
    {e : DetectedEntity} (he : e ∈ resolveOverlaps entities) :
    e ∈ entities :=
  mem_sortBy.mp (mem_of_mem_sweep he)

theorem resolveOverlaps_chain (entities : List DetectedEntity) :
    (resolveOverlaps entities).Pairwise (fun a b => a.stop ≤ b.start) :=
  sweep_chain (fun e => Nat.le_of_lt e.span_forward) _

theorem start_le_of_orderingKey_le {a b : DetectedEntity}
    (h : orderingKey a ≤ orderingKey b) : a.start ≤ b.start := by
  rcases Prod.Lex.le_iff.mp h with h | ⟨h, -⟩
  · exact Nat.le_of_lt h
  · exact Nat.le_of_eq h

/-- A span the sweep drops starts inside one it keeps, which sorts before
it. -/
theorem resolveOverlaps_covers_sorted {entities : List DetectedEntity}
    {e : DetectedEntity} (he : e ∈ entities) :
    e ∈ resolveOverlaps entities ∨ ∃ k ∈ resolveOverlaps entities,
      orderingKey k ≤ orderingKey e ∧ e.start < k.stop :=
  sweep_covers (sortBy_pairwise orderingKey entities) (mem_sortBy.mpr he)

/-- A span the sweep drops starts inside one it keeps. -/
theorem resolveOverlaps_covers {entities : List DetectedEntity}
    {e : DetectedEntity} (he : e ∈ entities) :
    e ∈ resolveOverlaps entities ∨
      ∃ k ∈ resolveOverlaps entities, k.start ≤ e.start ∧ e.start < k.stop := by
  rcases resolveOverlaps_covers_sorted he with hkept | ⟨k, hk, hle, hin⟩
  · exact Or.inl hkept
  · exact Or.inr ⟨k, hk, start_le_of_orderingKey_le hle, hin⟩

/-- Two spans of a chain stand apart, whichever comes first. -/
theorem apart_of_chain {entities : List DetectedEntity}
    (h : entities.Pairwise (fun a b => a.stop ≤ b.start))
    {e k : DetectedEntity} (he : e ∈ entities) (hk : k ∈ entities)
    (hne : e ≠ k) : e.stop ≤ k.start ∨ k.stop ≤ e.start := by
  have hsymm : Std.Symm (fun a b : DetectedEntity =>
      a.stop ≤ b.start ∨ b.stop ≤ a.start) := ⟨fun _ _ h => h.symm⟩
  exact (h.imp (fun {a b} (hab : a.stop ≤ b.start) =>
    (Or.inl hab : a.stop ≤ b.start ∨ b.stop ≤ a.start))).forall he hk hne

/-- Spans that do not overlap are all kept by the sweep, in whatever order
they are listed. -/
theorem mem_resolveOverlaps_of_disjoint {entities : List DetectedEntity}
    (h : entities.Pairwise (fun a b => a.overlaps b = false))
    {e : DetectedEntity} (he : e ∈ entities) :
    e ∈ resolveOverlaps entities := by
  rcases resolveOverlaps_covers he with hkept | ⟨k, hk, hstart, hstop⟩
  · exact hkept
  -- the span it starts inside overlaps it, so it is the span itself
  · by_cases hsame : e = k
    · rw [hsame]
      exact hk
    · have hsymm : Std.Symm
          (fun a b : DetectedEntity => a.overlaps b = false) :=
        ⟨fun a b h => (b.overlaps_comm a).trans h⟩
      have hclear := h.forall he (mem_of_mem_resolveOverlaps hk) hsame
      have hover : e.overlaps k = true :=
        DetectedEntity.overlaps_iff.mpr
          ⟨hstop, by have := e.span_forward; omega⟩
      rw [hover] at hclear
      cases hclear

/-- Spans that stand one after the other are all kept, in their order. -/
theorem resolveOverlaps_eq_self {entities : List DetectedEntity}
    (h : entities.Pairwise (fun a b => a.stop ≤ b.start)) :
    resolveOverlaps entities = entities := by
  unfold resolveOverlaps
  have hsorted : entities.Pairwise
      (fun a b => orderingKey a ≤ orderingKey b) := by
    refine h.imp ?_
    intro a b hab
    refine Prod.Lex.le_iff.mpr (Or.inl ?_)
    have := a.span_forward
    show a.start < b.start
    omega
  rw [sortBy_eq_self hsorted]
  exact sweep_eq_self h

end PrivacyGateway.Tokenization
