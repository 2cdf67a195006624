/-
What overlap resolution keeps, and that nothing else decides it.

The dominance order ranks spans that differ apart from each other, where a
recognizer name is absent or not empty (`dominanceKey_injective`). So the
greedy walk keeps the one kernel of its candidates: a span is kept exactly
when it overlaps no kept span that precedes it. The kept spans, in order,
are then a function of which candidates there are (`Resolution`).

A narrowed detection filters its candidates by type first. What survives
of each type is the same, so the two results are kernels of a set and of
one of its parts, and they agree on that part exactly when no span of it
is lost to other types alone (`narrowing_filters_iff`).
-/
import Mathlib.Data.List.Sort
import PrivacyGateway.Detection.Postprocess
import PrivacyGateway.Lib.Kernel

namespace PrivacyGateway.Detection

open Selection

-- ==================================================== the order

/-- The recognizer's name is absent or not empty. -/
def Named (e : DetectedEntity) : Prop :=
  e.recognizer ≠ some []

/-- Spans of one rank are one span. -/
theorem dominanceKey_injective {priority : Dict Text Int}
    {a b : DetectedEntity} (ha : Named a) (hb : Named b)
    (h : dominanceKey priority a = dominanceKey priority b) : a = b := by
  have hfields : a.score = b.score ∧ a.length = b.length ∧
      a.start = b.start ∧ a.entityType = b.entityType ∧
      a.recognizer.getD [] = b.recognizer.getD [] := by
    unfold dominanceKey at h
    simp only [toLex_inj, Prod.mk.injEq, neg_inj, Nat.cast_inj] at h
    exact ⟨h.2.1, h.2.2.1, h.2.2.2.1, h.2.2.2.2.1, h.2.2.2.2.2⟩
  obtain ⟨hscore, hlength, hstart, htype, hname⟩ := hfields
  have hrecognizer : a.recognizer = b.recognizer := by
    unfold Named at ha hb
    cases ha' : a.recognizer with
    | none =>
        cases hb' : b.recognizer with
        | none => rfl
        | some name =>
            rw [ha', hb'] at hname
            rw [hb'] at hb
            exact absurd (congrArg some hname.symm) hb
    | some name =>
        cases hb' : b.recognizer with
        | none =>
            rw [ha', hb'] at hname
            rw [ha'] at ha
            exact absurd (congrArg some hname) ha
        | some name' =>
            rw [ha', hb'] at hname
            exact congrArg some hname
  have hstop : a.stop = b.stop := by
    have := a.span_forward
    have := b.span_forward
    unfold DetectedEntity.length at hlength
    omega
  cases a
  cases b
  simp only at hscore hstart hstop htype hrecognizer
  subst hscore hstart hstop htype hrecognizer
  rfl

-- ==================================================== the kept spans

section Kept

variable {priority : Dict Text Int} {entities : List DetectedEntity}

theorem resolveOverlaps_isKernel (h : ∀ e ∈ entities, Named e) :
    IsKernel (dominanceKey priority) DetectedEntity.overlaps
      {e | e ∈ entities} {e | e ∈ resolveOverlaps priority entities} := by
  have hrank : ∀ a ∈ sortBy (dominanceKey priority) entities,
      ∀ b ∈ sortBy (dominanceKey priority) entities,
        dominanceKey priority a = dominanceKey priority b → a = b :=
    fun a ha b hb => dominanceKey_injective
      (h a (mem_sortBy.mp ha)) (h b (mem_sortBy.mp hb))
  have hkernel := greedy_isKernel DetectedEntity.overlaps_comm hrank
    (sortBy_pairwise (dominanceKey priority) entities)
  unfold resolveOverlaps
  simpa only [mem_sortBy] using hkernel

/-- Spans one after the other are determined by which they are. -/
theorem eq_of_chain {kept other : List DetectedEntity}
    (h : kept.Pairwise (fun a b => a.stop ≤ b.start))
    (h' : other.Pairwise (fun a b => a.stop ≤ b.start))
    (hsame : ∀ e, e ∈ kept ↔ e ∈ other) : kept = other := by
  have hirrefl : Std.Irrefl
      (fun a b : DetectedEntity => a.stop ≤ b.start) := by
    refine ⟨fun a ha => ?_⟩
    have := a.span_forward
    omega
  have hantisymm : Std.Antisymm
      (fun a b : DetectedEntity => a.stop ≤ b.start) := by
    refine ⟨fun a b hab hba => ?_⟩
    have := a.span_forward
    have := b.span_forward
    omega
  exact List.Pairwise.eq_of_mem_iff h h' hsame

/-- The spans kept of the candidates: in order, disjoint, the one kernel of
the dominance order, and decided by which candidates there are. -/
structure Resolution (priority : Dict Text Int)
    (entities kept : List DetectedEntity) : Prop where
  disjoint : kept.Pairwise (fun a b => a.stop ≤ b.start)
  sorted : kept.Pairwise (fun a b => positionKey a ≤ positionKey b)
  kernel : IsKernel (dominanceKey priority) DetectedEntity.overlaps
    {e | e ∈ entities} {e | e ∈ kept}
  unique : ∀ other, IsKernel (dominanceKey priority)
    DetectedEntity.overlaps {e | e ∈ entities} other →
      other = {e | e ∈ kept}
  maximal : ∀ e ∈ entities, e ∉ kept →
    ∃ k ∈ kept, e.overlaps k = true
  idempotent : resolveOverlaps priority kept = kept
  order_free : ∀ entities', (∀ e, e ∈ entities' ↔ e ∈ entities) →
    resolveOverlaps priority entities' = kept

/-- Overlap resolution is characterised by the dominance order. -/
theorem resolveOverlaps_resolution (priority : Dict Text Int)
    (entities : List DetectedEntity) (h : ∀ e ∈ entities, Named e) :
    Resolution priority entities (resolveOverlaps priority entities) where
  disjoint := resolveOverlaps_chain
  sorted := sortBy_pairwise positionKey _
  kernel := resolveOverlaps_isKernel h
  unique := fun _ hother =>
    hother.unique_of_list (resolveOverlaps_isKernel h)
  maximal := by
    intro e he hout
    obtain ⟨k, hk, -, hover⟩ := (resolveOverlaps_isKernel h).covers he hout
    exact ⟨k, hk, hover⟩
  idempotent := resolveOverlaps_eq_self priority resolveOverlaps_chain
  order_free := by
    intro entities' hsame
    have hnamed : ∀ e ∈ entities', Named e :=
      fun e he => h e ((hsame e).mp he)
    have hmembers : {e | e ∈ entities'} = {e | e ∈ entities} :=
      Set.ext hsame
    have hkernel := @resolveOverlaps_isKernel priority _ hnamed
    rw [hmembers] at hkernel
    have hkept := hkernel.unique_of_list (resolveOverlaps_isKernel h)
    exact eq_of_chain resolveOverlaps_chain resolveOverlaps_chain
      (fun e => Set.ext_iff.mp hkept e)

end Kept

/-- A number read as a date, and twice as a social security number. -/
def contested : List DetectedEntity :=
  [⟨dateTimeType, 0, 11, 9 / 10, none, by decide, Bounds.nineTenths⟩,
    ⟨usSsnType, 0, 11, 1 / 2, none, by decide, Bounds.half⟩,
    ⟨usSsnType, 0, 11, 1 / 2, none, by decide, Bounds.half⟩,
    ⟨personType, 12, 15, 4 / 5, none, by decide, Bounds.fourFifths⟩]

theorem contested_resolution :
    Resolution entityPriority contested
      [⟨usSsnType, 0, 11, 1 / 2, none, by decide, Bounds.half⟩,
        ⟨personType, 12, 15, 4 / 5, none, by decide,
          Bounds.fourFifths⟩] := by
  have hkept : resolveOverlaps entityPriority contested =
      [⟨usSsnType, 0, 11, 1 / 2, none, by decide, Bounds.half⟩,
        ⟨personType, 12, 15, 4 / 5, none, by decide,
          Bounds.fourFifths⟩] := by
    decide +kernel
  rw [← hkept]
  exact resolveOverlaps_resolution entityPriority contested
    (by unfold Named; decide)

-- ==================================================== without names

/-- The walk commutes with a map that leaves clashes as they are. -/
theorem greedyFrom_withoutRecognizer (entities : List DetectedEntity) :
    ∀ kept : List DetectedEntity,
      greedyFrom DetectedEntity.overlaps (kept.map withoutRecognizer)
          (entities.map withoutRecognizer) =
        (greedyFrom DetectedEntity.overlaps kept entities).map
          withoutRecognizer := by
  induction entities with
  | nil => exact fun kept => rfl
  | cons e entities ih =>
      intro kept
      have hany : (kept.map withoutRecognizer).any
          (DetectedEntity.overlaps (withoutRecognizer e)) =
            kept.any e.overlaps := by
        rw [List.any_map]
        rfl
      rw [List.map_cons]
      unfold greedyFrom
      rw [hany]
      split
      · exact ih kept
      · rw [← ih (kept ++ [e]), List.map_append]
        rfl

/-- A later component of a lexicographic order may change where the
earlier ones decide the same. -/
theorem lex_le_of_le {α β γ : Type} [LinearOrder α] [Preorder β]
    [Preorder γ] {x y : α} {t u : β} {t' u' : γ}
    (h : toLex (x, t) ≤ toLex (y, u)) (hlater : t ≤ u → t' ≤ u') :
    toLex (x, t') ≤ toLex (y, u') := by
  rcases Prod.Lex.le_iff.mp h with hlt | ⟨heq, hle⟩
  · exact Prod.Lex.le_iff.mpr (Or.inl hlt)
  · exact Prod.Lex.le_iff.mpr (Or.inr ⟨heq, hlater hle⟩)

theorem dominanceKey_withoutRecognizer {priority : Dict Text Int}
    {a b : DetectedEntity}
    (h : dominanceKey priority a ≤ dominanceKey priority b) :
    dominanceKey priority (withoutRecognizer a) ≤
      dominanceKey priority (withoutRecognizer b) := by
  unfold dominanceKey at h ⊢
  refine lex_le_of_le h fun h => lex_le_of_le h fun h =>
    lex_le_of_le h fun h => lex_le_of_le h fun h => lex_le_of_le h fun _ => ?_
  exact le_refl ([] : Text)

/-- Which names the recognizers have decides nothing. -/
theorem resolveOverlaps_withoutRecognizer (priority : Dict Text Int)
    (entities : List DetectedEntity) :
    resolveOverlaps priority (entities.map withoutRecognizer) =
      (resolveOverlaps priority entities).map withoutRecognizer := by
  have hsorted : sortBy (dominanceKey priority)
        (entities.map withoutRecognizer) =
      (sortBy (dominanceKey priority) entities).map withoutRecognizer := by
    apply sortBy_eq_of_perm_of_injective
    · exact (sortBy_perm _ entities).symm.map _
    · exact List.pairwise_map.mpr
        ((sortBy_pairwise (dominanceKey priority) entities).imp
          dominanceKey_withoutRecognizer)
    · intro a ha b hb
      obtain ⟨a, -, rfl⟩ := List.mem_map.mp ha
      obtain ⟨b, -, rfl⟩ := List.mem_map.mp hb
      exact dominanceKey_injective (fun h => nomatch h) (fun h => nomatch h)
  have hwalk := greedyFrom_withoutRecognizer
    (sortBy (dominanceKey priority) entities) []
  have hplaced := List.map_insertionSort
    (r := fun a b => positionKey a ≤ positionKey b)
    (s := fun a b => positionKey a ≤ positionKey b) withoutRecognizer
    (greedy DetectedEntity.overlaps
      (sortBy (dominanceKey priority) entities)) (fun a _ b _ => Iff.rfl)
  unfold resolveOverlaps
  rw [hsorted]
  show sortBy positionKey (greedyFrom _ [] _) = _
  rw [← List.map_nil (f := withoutRecognizer), hwalk]
  exact hplaced.symm

-- ==================================================== narrowing

section Narrowing

variable {unicode : Unicode} {config : DetectionConfig} {text : Text}

/-- The candidates of the requested types. -/
def candidatesOf (requested : List Text) (candidates : List Candidate) :
    List Candidate :=
  candidates.filter (fun c => requested.contains c.entityType)

/-- The spans of the requested types. -/
def spansOf (requested : List Text) (entities : List DetectedEntity) :
    List DetectedEntity :=
  entities.filter (fun e => requested.contains e.entityType)

/-- What the filters leave of the candidates. -/
def contenders (unicode : Unicode) (config : DetectionConfig)
    (candidates : List Candidate) (text : Text) : List DetectedEntity :=
  (survivors unicode config candidates text none).map withoutRecognizer

/-- The span precedes the other in the dominance order, and overlaps it. -/
def Beats (priority : Dict Text Int) (k e : DetectedEntity) : Prop :=
  dominanceKey priority k < dominanceKey priority e ∧ e.overlaps k = true

/-- No span that is beaten beats another. -/
def Flat (priority : Dict Text Int) (entities : List DetectedEntity) :
    Prop :=
  ∀ g ∈ entities, ∀ f ∈ entities, ∀ e ∈ entities, Beats priority f e →
    ¬ Beats priority g f

/-- Then the kernel is the spans that none beats. -/
theorem mem_iff_unbeaten_of_flat {priority : Dict Text Int}
    {entities : List DetectedEntity} {kept : Set DetectedEntity}
    (hkernel : IsKernel (dominanceKey priority) DetectedEntity.overlaps
      {e | e ∈ entities} kept) (hflat : Flat priority entities)
    {e : DetectedEntity} (he : e ∈ entities) :
    e ∈ kept ↔ ∀ f ∈ entities, ¬ Beats priority f e := by
  refine (hkernel.mem_iff_of_flat ?_ he).trans
    (forall₂_congr (fun f _ => ?_))
  · intro f hf a ha hlt hclash g hg hbefore
    have hno := hflat g hg f hf a ha ⟨hlt, hclash⟩
    unfold Beats at hno
    rw [not_and, Bool.not_eq_true] at hno
    exact hno hbefore
  · unfold Beats
    rw [not_and, Bool.not_eq_true]

theorem accept_some (requested : List Text) (c : Candidate) :
    accept unicode config text (some requested) c =
      if requested.contains c.entityType then
        accept unicode config text none c
      else none := by
  unfold accept allowedTypes
  simp only [List.mem_filter]
  by_cases hrequested : requested.contains c.entityType = true
  · simp only [hrequested, and_true, if_true]
  · rw [if_neg hrequested, if_pos (fun h => hrequested h.2)]

/-- Narrowing is a filter on the candidates. -/
theorem survivors_some (requested : List Text)
    (candidates : List Candidate) :
    survivors unicode config candidates text (some requested) =
      survivors unicode config (candidatesOf requested candidates) text
        none := by
  unfold survivors candidatesOf
  rw [List.filterMap_filter]
  apply List.filterMap_congr
  intro c _
  exact accept_some requested c

/-- And so one on what survives. -/
theorem survivors_candidatesOf (requested : List Text)
    (candidates : List Candidate) :
    survivors unicode config (candidatesOf requested candidates) text
        none =
      spansOf requested (survivors unicode config candidates text none) := by
  unfold survivors candidatesOf spansOf
  rw [List.filterMap_filter, List.filter_filterMap]
  apply List.filterMap_congr
  intro c _
  cases haccept : accept unicode config text none c with
  | none => simp
  | some e =>
      have htype := (accept_eq_some haccept).2.entityType_eq
      rw [Option.filter_some, htype]

theorem spansOf_withoutRecognizer (requested : List Text)
    (entities : List DetectedEntity) :
    spansOf requested (entities.map withoutRecognizer) =
      (spansOf requested entities).map withoutRecognizer := by
  unfold spansOf
  rw [List.filter_map]
  rfl

/-- A result is the resolution of the contenders. -/
theorem finalize_contenders {candidates : List Candidate}
    {result : List DetectedEntity}
    (h : finalize unicode config candidates text = .ok result) :
    result = resolveOverlaps config.entityPriority
      (contenders unicode config candidates text) := by
  obtain ⟨-, rfl⟩ := finalize_ok_iff.mp h
  exact (resolveOverlaps_withoutRecognizer _ _).symm

theorem contenders_named {candidates : List Candidate} :
    ∀ e ∈ contenders unicode config candidates text, Named e := by
  intro e he
  obtain ⟨k, -, rfl⟩ := List.mem_map.mp he
  exact fun h => nomatch h

/-- The resolved spans of some types are what those types alone resolve to
exactly when they are the kernel of those types. -/
theorem resolveOverlaps_spansOf_iff {priority : Dict Text Int}
    {entities : List DetectedEntity} (hnamed : ∀ e ∈ entities, Named e)
    (requested : List Text) :
    resolveOverlaps priority (spansOf requested entities) =
        spansOf requested (resolveOverlaps priority entities) ↔
      ∀ e ∈ entities, requested.contains e.entityType = true →
        (∃ k ∈ resolveOverlaps priority entities, Beats priority k e) →
          ∃ k ∈ resolveOverlaps priority entities,
            requested.contains k.entityType = true ∧ Beats priority k e := by
  have hpart : ∀ l : List DetectedEntity,
      {e | e ∈ spansOf requested l} =
        {e | e ∈ l} ∩ {e | requested.contains e.entityType = true} := by
    intro l
    ext e
    exact List.mem_filter
  have hnarrow := @resolveOverlaps_isKernel priority
    (spansOf requested entities)
    (fun e he => hnamed e (List.mem_of_mem_filter he))
  have hkernel := (@resolveOverlaps_isKernel priority entities
    hnamed).inter_iff {e | requested.contains e.entityType = true}
  rw [← hpart, ← hpart] at hkernel
  have hsame : resolveOverlaps priority (spansOf requested entities) =
        spansOf requested (resolveOverlaps priority entities) ↔
      IsKernel (dominanceKey priority) DetectedEntity.overlaps
        {e | e ∈ spansOf requested entities}
        {e | e ∈ spansOf requested
          (resolveOverlaps priority entities)} := by
    constructor
    · intro heq
      rw [← heq]
      exact hnarrow
    · intro hpartKernel
      have hmembers := hnarrow.unique_of_list hpartKernel
      exact eq_of_chain resolveOverlaps_chain
        (resolveOverlaps_chain.filter _)
        (fun e => Set.ext_iff.mp hmembers e)
  rw [hsame, hkernel]
  constructor
  · rintro h e he htype ⟨k, hk, hbeats⟩
    obtain ⟨k', hk', hbeats'⟩ := h e (List.mem_filter.mpr ⟨he, htype⟩)
      ⟨k, hk, hbeats⟩
    obtain ⟨hkept, hrequested⟩ := List.mem_filter.mp hk'
    exact ⟨k', hkept, hrequested, hbeats'⟩
  · rintro h e he ⟨k, hk, hbeats⟩
    obtain ⟨he, htype⟩ := List.mem_filter.mp he
    obtain ⟨k', hk', hrequested, hbeats'⟩ := h e he htype ⟨k, hk, hbeats⟩
    exact ⟨k', List.mem_filter.mpr ⟨hk', hrequested⟩, hbeats'⟩

/-- Narrowing to some types filters the candidates, and then everything
else is as without it. The result is the full one filtered exactly when no
span of a requested type is beaten by other types alone. -/
theorem narrowing_filters_iff (unicode : Unicode) (config : DetectionConfig)
    (text : Text) (candidates : List Candidate) (requested : List Text) :
    (∀ diagnostic, finalize unicode config candidates text (some requested)
        diagnostic =
      finalize unicode config (candidatesOf requested candidates) text none
        diagnostic) ∧
    ∀ full narrowed,
      finalize unicode config candidates text = .ok full →
      finalize unicode config candidates text (some requested) =
        .ok narrowed →
      (narrowed = spansOf requested full ↔
        ∀ e ∈ contenders unicode config candidates text,
          requested.contains e.entityType = true →
          (∃ k ∈ full, Beats config.entityPriority k e) →
            ∃ k ∈ full, requested.contains k.entityType = true ∧
              Beats config.entityPriority k e) ∧
      ((∀ e ∈ contenders unicode config candidates text,
          requested.contains e.entityType = true →
          ∀ k ∈ contenders unicode config candidates text,
            requested.contains k.entityType = false →
              ¬ Beats config.entityPriority k e) →
        narrowed = spansOf requested full) := by
  have hfinalize : ∀ diagnostic, finalize unicode config candidates text
        (some requested) diagnostic =
      finalize unicode config (candidatesOf requested candidates) text none
        diagnostic := by
    intro diagnostic
    unfold finalize
    rw [survivors_some]
  refine ⟨hfinalize, fun full narrowed hfull hnarrowed => ?_⟩
  rw [hfinalize false] at hnarrowed
  have hcontenders : contenders unicode config
      (candidatesOf requested candidates) text =
        spansOf requested (contenders unicode config candidates text) := by
    unfold contenders
    rw [survivors_candidatesOf, spansOf_withoutRecognizer]
  have hfullEq := finalize_contenders hfull
  have hnarrowedEq := finalize_contenders hnarrowed
  rw [hcontenders] at hnarrowedEq
  subst hfullEq hnarrowedEq
  have hiff := @resolveOverlaps_spansOf_iff config.entityPriority _
    (@contenders_named unicode config text candidates) requested
  refine ⟨hiff, fun hnone => hiff.mpr ?_⟩
  rintro e he htype ⟨k, hk, hbeats⟩
  refine ⟨k, hk, ?_, hbeats⟩
  by_contra hother
  exact hnone e he htype k (mem_of_mem_resolveOverlaps hk)
    (Bool.not_eq_true _ ▸ hother) hbeats

end Narrowing

end PrivacyGateway.Detection
