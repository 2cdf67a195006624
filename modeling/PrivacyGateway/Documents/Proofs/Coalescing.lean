/-
Coalescing forgets the order of its input and the way it was split.

`Merges` says what the entry of a type and range is, given the detections
it stands for: the best score, and every segment once, in order. Entries
are determined by it, and `coalesce` lists one for each type and range, by
position (`coalesce_coalesced`); so its result is determined by what the
detections say of each type and range. Lists that say the same are
`Alike`: the same detections in another order, and detections with some of
them coalesced already. All the rest is that relation
(`coalesce_order_free`).
-/
import Mathlib.Data.List.Sort
import PrivacyGateway.Documents.Proofs.Checkpoint

namespace PrivacyGateway.Documents

open Detection Selection

-- ==================================================== promotion

/-- An entity on the document's coordinates. -/
def moved (segment : Segment) (entity : DetectedEntity) :
    GlobalDetection where
  entity :=
    { entityType := entity.entityType
      start := segment.start + entity.start
      stop := segment.start + entity.stop
      score := entity.score
      recognizer := none
      span_forward := by have := entity.span_forward; omega
      score_bounded := entity.score_bounded }
  segments := [segment.index]

def outsideSegment : Exn :=
  gatewayError .documentExtractionFailed (reason "offset_out_of_segment")

/-- Promotion fails in one way only. -/
theorem promote_eq (segment : Segment) (entity : DetectedEntity) :
    promote segment entity =
      if entity.stop ≤ segment.length then .ok (moved segment entity)
      else .error outsideSegment := by
  have hforward := entity.span_forward
  unfold promote Segment.toGlobal
  by_cases hstop : entity.stop ≤ segment.length
  · rw [if_neg (by omega), if_neg (by omega), if_pos hstop]
    simp only
    rw [dif_pos (by omega)]
    rfl
  · rw [if_neg hstop, if_pos (show entity.stop > segment.length by omega)]
    by_cases hstart : entity.start > segment.length
    · rw [if_pos hstart]
      rfl
    · rw [if_neg hstart]
      rfl

/-- Every entity of the run ends inside its segment. -/
def Inside (run : Segment × List DetectedEntity) : Prop :=
  ∀ e ∈ run.2, e.stop ≤ run.1.length

instance (run : Segment × List DetectedEntity) : Decidable (Inside run) := by
  unfold Inside
  infer_instance

theorem inside_cons {segment : Segment} {e : DetectedEntity}
    {entities : List DetectedEntity} :
    Inside (segment, e :: entities) ↔
      e.stop ≤ segment.length ∧ Inside (segment, entities) :=
  List.forall_mem_cons

theorem toGlobal_eq (segment : Segment) (entities : List DetectedEntity) :
    toGlobal segment entities =
      if Inside (segment, entities) then
        .ok (entities.map (moved segment))
      else .error outsideSegment := by
  induction entities with
  | nil => exact (if_pos (fun e he => nomatch he)).symm
  | cons e entities ih =>
      unfold toGlobal
      rw [promote_eq, ih]
      by_cases he : e.stop ≤ segment.length
      · by_cases hrest : Inside (segment, entities)
        · rw [if_pos he, if_pos hrest, if_pos (inside_cons.mpr ⟨he, hrest⟩)]
          rfl
        · rw [if_pos he, if_neg hrest,
            if_neg (fun h => hrest (inside_cons.mp h).2)]
      · rw [if_neg he, if_neg (fun h => he (inside_cons.mp h).1)]

theorem promoteAll_eq (runs : List (Segment × List DetectedEntity)) :
    promoteAll runs =
      if ∀ run ∈ runs, Inside run then
        .ok (runs.flatMap (fun run => run.2.map (moved run.1)))
      else .error outsideSegment := by
  induction runs with
  | nil => rfl
  | cons run runs ih =>
      unfold promoteAll
      rw [toGlobal_eq, ih]
      simp only [List.forall_mem_cons]
      by_cases hrun : Inside run
      · by_cases hrest : ∀ run ∈ runs, Inside run
        · rw [if_pos hrun, if_pos hrest, if_pos ⟨hrun, hrest⟩]
          rfl
        · rw [if_pos hrun, if_neg hrest, if_neg (fun h => hrest h.2)]
      · rw [if_neg hrun]
        exact (if_neg (fun h => hrun h.1)).symm

/-- A detection that promotion makes. -/
def Promoted (d : GlobalDetection) : Prop :=
  ∃ segment entity, promote segment entity = .ok d

/-- Segments are listed once each, in order, and no recognizer is named. -/
structure Tidy (d : GlobalDetection) : Prop where
  ascending : d.segments.Pairwise (· < ·)
  anonymous : d.entity.recognizer = none

theorem Promoted.tidy {d : GlobalDetection} (h : Promoted d) : Tidy d := by
  obtain ⟨segment, entity, hpromote⟩ := h
  rw [promote_eq] at hpromote
  split at hpromote
  · cases hpromote
    exact ⟨List.pairwise_singleton _ _, rfl⟩
  · cases hpromote

-- ==================================================== one entry

/-- The entry for all detections of one type and range. -/
structure Merges (detections : List GlobalDetection)
    (g : GlobalDetection) : Prop where
  attained : ∃ d ∈ detections, d.key = g.key ∧
    d.entity.score = g.entity.score
  best : ∀ d ∈ detections, d.key = g.key →
    d.entity.score ≤ g.entity.score
  sources : ∀ i, i ∈ g.segments ↔
    ∃ d ∈ detections, d.key = g.key ∧ i ∈ d.segments
  tidy : Tidy g

variable {detections other : List GlobalDetection} {g d : GlobalDetection}

/-- There is one entry for a type and range. -/
theorem Merges.unique {g' : GlobalDetection} (h : Merges detections g)
    (h' : Merges detections g') (hkey : g.key = g'.key) : g = g' := by
  have hscore : g.entity.score = g'.entity.score := by
    obtain ⟨d, hd, hdkey, hdscore⟩ := h.attained
    obtain ⟨d', hd', hdkey', hdscore'⟩ := h'.attained
    apply le_antisymm
    · rw [← hdscore]
      exact h'.best d hd (hdkey.trans hkey)
    · rw [← hdscore']
      exact h.best d' hd' (hdkey'.trans hkey.symm)
  have hsegments : g.segments = g'.segments := by
    apply List.Pairwise.eq_of_mem_iff h.tidy.ascending h'.tidy.ascending
    intro i
    rw [h.sources, h'.sources, hkey]
  have hname := h.tidy.anonymous.trans h'.tidy.anonymous.symm
  obtain ⟨⟨entityType, start, stop, score, recognizer, _, _⟩, segments⟩ := g
  obtain ⟨⟨entityType', start', stop', score', recognizer', _, _⟩,
    segments'⟩ := g'
  unfold GlobalDetection.key spanKey at hkey
  simp only [Prod.mk.injEq] at hkey hscore hsegments hname
  obtain ⟨rfl, rfl, rfl⟩ := hkey
  subst hscore hsegments hname
  rfl

/-- The first detection of its type and range. -/
theorem Merges.fresh (hfresh : ∀ d' ∈ detections, d'.key ≠ d.key)
    (htidy : Tidy d) : Merges (detections ++ [d]) d := by
  refine ⟨⟨d, by simp, rfl, rfl⟩, ?_, ?_, htidy⟩
  · intro d' hd' hkey
    rcases List.mem_append.mp hd' with hd' | hd'
    · exact absurd hkey (hfresh d' hd')
    · rw [List.mem_singleton.mp hd']
  · intro i
    constructor
    · exact fun hi => ⟨d, by simp, rfl, hi⟩
    · rintro ⟨d', hd', hkey, hi⟩
      rcases List.mem_append.mp hd' with hd' | hd'
      · exact absurd hkey (hfresh d' hd')
      · rw [List.mem_singleton.mp hd'] at hi
        exact hi

/-- A detection of another type or range. -/
theorem Merges.skip (h : Merges detections g) (hkey : d.key ≠ g.key) :
    Merges (detections ++ [d]) g := by
  have hmem : ∀ {d' : GlobalDetection}, d' ∈ detections ++ [d] →
      d'.key = g.key → d' ∈ detections := by
    intro d' hd' hkey'
    rcases List.mem_append.mp hd' with hd' | hd'
    · exact hd'
    · rw [List.mem_singleton.mp hd'] at hkey'
      exact absurd hkey' hkey
  obtain ⟨best, hbest, hbestKey, hscore⟩ := h.attained
  refine ⟨⟨best, List.mem_append_left _ hbest, hbestKey, hscore⟩,
    fun d' hd' hkey' => h.best d' (hmem hd' hkey') hkey', ?_, h.tidy⟩
  intro i
  rw [h.sources]
  constructor
  · rintro ⟨d', hd', hrest⟩
    exact ⟨d', List.mem_append_left _ hd', hrest⟩
  · rintro ⟨d', hd', hkey', hi⟩
    exact ⟨d', hmem hd' hkey', hkey', hi⟩

/-- A detection of the same type and range. -/
theorem Merges.copies (h : Merges detections g) (hkey : g.key = d.key) :
    Merges (detections ++ [d]) (mergeCopies g d) := by
  have hsame : (mergeCopies g d).key = d.key := rfl
  have hscore : (mergeCopies g d).entity.score =
      max g.entity.score d.entity.score := rfl
  refine ⟨?_, ?_, ?_, ⟨segmentUnion_ascending _ _, rfl⟩⟩
  · rw [hsame, hscore]
    rcases le_total g.entity.score d.entity.score with hle | hle
    · exact ⟨d, by simp, rfl, (max_eq_right hle).symm⟩
    · obtain ⟨best, hbest, hbestKey, hbestScore⟩ := h.attained
      exact ⟨best, List.mem_append_left _ hbest, hbestKey.trans hkey,
        hbestScore.trans (max_eq_left hle).symm⟩
  · rw [hsame, hscore]
    intro d' hd' hkey'
    rcases List.mem_append.mp hd' with hd' | hd'
    · exact le_max_of_le_left (h.best d' hd' (hkey'.trans hkey.symm))
    · rw [List.mem_singleton.mp hd']
      exact le_max_right _ _
  · intro i
    rw [hsame]
    show i ∈ segmentUnion g.segments d.segments ↔ _
    rw [mem_segmentUnion, h.sources]
    constructor
    · rintro (⟨d', hd', hkey', hi⟩ | hi)
      · exact ⟨d', List.mem_append_left _ hd', hkey'.trans hkey, hi⟩
      · exact ⟨d, by simp, rfl, hi⟩
    · rintro ⟨d', hd', hkey', hi⟩
      rcases List.mem_append.mp hd' with hd' | hd'
      · exact Or.inl ⟨d', hd', hkey'.trans hkey.symm, hi⟩
      · rw [List.mem_singleton.mp hd'] at hi
        exact Or.inr hi

-- ==================================================== the merge loop

/-- The table holds the entry of every type and range that was read. -/
structure Collected (detections : List GlobalDetection)
    (merged : Dict SpanKey GlobalDetection) : Prop where
  nodup : merged.keys.Nodup
  fresh : ∀ key, merged.get? key = none →
    ∀ d ∈ detections, d.key ≠ key
  merges : ∀ key g, merged.get? key = some g →
    g.key = key ∧ Merges detections g

theorem Collected.mergeInto {merged : Dict SpanKey GlobalDetection}
    (h : Collected detections merged) (htidy : Tidy d) :
    Collected (detections ++ [d]) (mergeInto merged d) := by
  refine ⟨?_, ?_, ?_⟩
  · unfold Documents.mergeInto
    cases merged.get? d.key with
    | none => exact Dict.nodup_keys_set h.nodup _ _
    | some existing => exact Dict.nodup_keys_set h.nodup _ _
  · intro key hnone d' hd'
    rw [get?_mergeInto] at hnone
    by_cases hkey : d.key = key
    · rw [if_pos hkey] at hnone
      cases hget : merged.get? d.key with
      | none =>
          rw [hget] at hnone
          cases hnone
      | some existing =>
          rw [hget] at hnone
          cases hnone
    · rw [if_neg hkey] at hnone
      rcases List.mem_append.mp hd' with hd' | hd'
      · exact h.fresh key hnone d' hd'
      · rw [List.mem_singleton.mp hd']
        exact hkey
  · intro key g hsome
    rw [get?_mergeInto] at hsome
    by_cases hkey : d.key = key
    · rw [if_pos hkey] at hsome
      cases hget : merged.get? d.key with
      | none =>
          rw [hget] at hsome
          cases hsome
          exact ⟨hkey, Merges.fresh (h.fresh _ hget) htidy⟩
      | some existing =>
          rw [hget] at hsome
          cases hsome
          obtain ⟨hexisting, hmerges⟩ := h.merges _ existing hget
          exact ⟨hkey, hmerges.copies hexisting⟩
    · rw [if_neg hkey] at hsome
      obtain ⟨hgkey, hmerges⟩ := h.merges key g hsome
      refine ⟨hgkey, hmerges.skip ?_⟩
      rw [hgkey]
      exact hkey

theorem collected_foldl (later : List GlobalDetection)
    (htidy : ∀ d ∈ later, Tidy d) :
    ∀ {detections : List GlobalDetection}
      {merged : Dict SpanKey GlobalDetection},
      Collected detections merged →
        Collected (detections ++ later) (later.foldl mergeInto merged) := by
  induction later with
  | nil =>
      intro detections merged h
      rw [List.append_nil]
      exact h
  | cons d later ih =>
      intro detections merged h
      obtain ⟨hd, hlater⟩ := List.forall_mem_cons.mp htidy
      have hnext := ih hlater (h.mergeInto hd)
      rw [List.append_assoc] at hnext
      exact hnext

/-- One entry for each type and range, by position. -/
structure Coalesced (detections result : List GlobalDetection) :
    Prop where
  sorted : result.Pairwise
    (fun a b => positionKey a.entity < positionKey b.entity)
  covers : ∀ d ∈ detections, ∃ g ∈ result, g.key = d.key
  merges : ∀ g ∈ result, Merges detections g

/-- Spans of one position have one type and range. -/
theorem key_eq_of_positionKey {a b : GlobalDetection}
    (h : positionKey a.entity = positionKey b.entity) : a.key = b.key := by
  unfold positionKey at h
  simp only [toLex_inj, Prod.mk.injEq] at h
  unfold GlobalDetection.key spanKey
  rw [h.1, h.2.1, h.2.2]

theorem coalesce_coalesced (htidy : ∀ d ∈ detections, Tidy d) :
    Coalesced detections (coalesce detections) := by
  have hempty : Collected [] ([] : Dict SpanKey GlobalDetection) :=
    ⟨List.nodup_nil, fun _ _ _ hd => (nomatch hd),
      fun _ _ hget => (nomatch hget)⟩
  have hcollected := collected_foldl detections htidy hempty
  rw [List.nil_append] at hcollected
  have hentry : ∀ entry ∈ detections.foldl mergeInto [],
      entry.2.key = entry.1 ∧ Merges detections entry.2 := by
    intro entry hentry
    exact hcollected.merges entry.1 entry.2
      ((Dict.get?_eq_some_iff hcollected.nodup).mpr hentry)
  have hkeys : ((detections.foldl mergeInto []).map Prod.snd).map
      GlobalDetection.key = (detections.foldl mergeInto []).keys := by
    rw [List.map_map]
    exact List.map_congr_left (fun entry he => (hentry entry he).1)
  have hdistinct : ((detections.foldl mergeInto []).map Prod.snd).Pairwise
      (fun a b => a.key ≠ b.key) := by
    refine List.pairwise_map.mp ?_
    rw [hkeys]
    exact hcollected.nodup
  refine ⟨?_, ?_, ?_⟩
  · unfold coalesce
    have hsymm : ∀ {a b : GlobalDetection}, a.key ≠ b.key → b.key ≠ a.key :=
      fun h => h.symm
    have hplaced := ((sortBy_perm (fun item : GlobalDetection =>
      positionKey item.entity) _).pairwise_iff hsymm).mpr hdistinct
    refine ((sortBy_pairwise _ _).and hplaced).imp ?_
    intro a b ⟨hle, hne⟩
    exact lt_of_le_of_ne hle (fun heq => hne (key_eq_of_positionKey heq))
  · intro d hd
    obtain ⟨g, hg, hkey, -⟩ := coalesce_covers hd
    exact ⟨g, hg, hkey⟩
  · intro g hg
    unfold coalesce at hg
    rw [mem_sortBy] at hg
    obtain ⟨entry, he, rfl⟩ := List.mem_map.mp hg
    exact (hentry entry he).2

theorem Coalesced.unique {result result' : List GlobalDetection}
    (h : Coalesced detections result) (h' : Coalesced detections result') :
    result = result' := by
  have hsub : ∀ {r r' : List GlobalDetection}, Coalesced detections r →
      Coalesced detections r' → ∀ g ∈ r, g ∈ r' := by
    intro r r' hr hr' g hg
    obtain ⟨d, hd, hdkey, -⟩ := (hr.merges g hg).attained
    obtain ⟨g', hg', hkey⟩ := hr'.covers d hd
    rw [(hr.merges g hg).unique (hr'.merges g' hg')
      (hdkey.symm.trans hkey.symm)]
    exact hg'
  have hirrefl : Std.Irrefl (fun a b : GlobalDetection =>
      positionKey a.entity < positionKey b.entity) :=
    ⟨fun _ => lt_irrefl _⟩
  have hantisymm : Std.Antisymm (fun a b : GlobalDetection =>
      positionKey a.entity < positionKey b.entity) :=
    ⟨fun _ _ hab hba => absurd hba (lt_asymm hab)⟩
  exact List.Pairwise.eq_of_mem_iff h.sorted h'.sorted
    (fun g => ⟨hsub h h' g, hsub h' h g⟩)

-- ==================================================== alike lists

/-- The detections say the same of every type and range: no better score
in one list than in the other, and the same segments. -/
structure Alike (detections other : List GlobalDetection) : Prop where
  le : ∀ d ∈ detections, ∃ d' ∈ other, d'.key = d.key ∧
    d.entity.score ≤ d'.entity.score
  ge : ∀ d' ∈ other, ∃ d ∈ detections, d.key = d'.key ∧
    d'.entity.score ≤ d.entity.score
  sources : ∀ key i, (∃ d ∈ detections, d.key = key ∧ i ∈ d.segments) ↔
    ∃ d ∈ other, d.key = key ∧ i ∈ d.segments

theorem Alike.symm (h : Alike detections other) : Alike other detections :=
  ⟨h.ge, h.le, fun key i => (h.sources key i).symm⟩

theorem Alike.of_mem_iff (h : ∀ d, d ∈ detections ↔ d ∈ other) :
    Alike detections other where
  le d hd := ⟨d, (h d).mp hd, rfl, le_refl _⟩
  ge d hd := ⟨d, (h d).mpr hd, rfl, le_refl _⟩
  sources key i := by simp only [h]

theorem Alike.append {detections' other' : List GlobalDetection}
    (h : Alike detections other) (h' : Alike detections' other') :
    Alike (detections ++ detections') (other ++ other') := by
  have hle : ∀ {a b a' b' : List GlobalDetection},
      (∀ d ∈ a, ∃ d' ∈ b, d'.key = d.key ∧
        d.entity.score ≤ d'.entity.score) →
      (∀ d ∈ a', ∃ d' ∈ b', d'.key = d.key ∧
        d.entity.score ≤ d'.entity.score) →
      ∀ d ∈ a ++ a', ∃ d' ∈ b ++ b', d'.key = d.key ∧
        d.entity.score ≤ d'.entity.score := by
    intro a b a' b' h h' d hd
    rcases List.mem_append.mp hd with hd | hd
    · obtain ⟨d', hd', hrest⟩ := h d hd
      exact ⟨d', List.mem_append_left _ hd', hrest⟩
    · obtain ⟨d', hd', hrest⟩ := h' d hd
      exact ⟨d', List.mem_append_right _ hd', hrest⟩
  refine ⟨hle h.le h'.le, hle h.ge h'.ge, fun key i => ?_⟩
  simp only [List.mem_append, or_and_right, exists_or, h.sources,
    h'.sources]

theorem Merges.of_alike (h : Merges detections g)
    (halike : Alike detections other) : Merges other g := by
  refine ⟨?_, ?_, fun i => (h.sources i).trans (halike.sources g.key i),
    h.tidy⟩
  · obtain ⟨d, hd, hkey, hscore⟩ := h.attained
    obtain ⟨d', hd', hkey', hle⟩ := halike.le d hd
    obtain ⟨d'', hd'', hkey'', hge⟩ := halike.ge d' hd'
    have hbest := h.best d'' hd'' (hkey''.trans (hkey'.trans hkey))
    exact ⟨d', hd', hkey'.trans hkey,
      le_antisymm (hge.trans hbest) (hscore ▸ hle)⟩
  · intro d' hd' hkey'
    obtain ⟨d, hd, hkey, hge⟩ := halike.ge d' hd'
    exact hge.trans (h.best d hd (hkey.trans hkey'))

/-- Lists that are alike are coalesced to one result. -/
theorem coalesce_eq_of_alike (halike : Alike detections other)
    (h : ∀ d ∈ detections, Tidy d) (h' : ∀ d ∈ other, Tidy d) :
    coalesce detections = coalesce other := by
  have hcoalesced := coalesce_coalesced h
  have hother : Coalesced other (coalesce detections) := by
    refine ⟨hcoalesced.sorted, ?_,
      fun g hg => (hcoalesced.merges g hg).of_alike halike⟩
    intro d hd
    obtain ⟨d', hd', hkey', -⟩ := halike.ge d hd
    obtain ⟨g, hg, hkey⟩ := hcoalesced.covers d' hd'
    exact ⟨g, hg, hkey.trans hkey'⟩
  exact hother.unique (coalesce_coalesced h')

/-- Coalescing loses nothing of what counts. -/
theorem coalesce_alike (h : ∀ d ∈ detections, Tidy d) :
    Alike (coalesce detections) detections := by
  have hcoalesced := coalesce_coalesced h
  refine ⟨?_, ?_, ?_⟩
  · intro g hg
    obtain ⟨d, hd, hkey, hscore⟩ := (hcoalesced.merges g hg).attained
    exact ⟨d, hd, hkey, hscore.ge⟩
  · intro d hd
    obtain ⟨g, hg, hkey⟩ := hcoalesced.covers d hd
    exact ⟨g, hg, hkey, (hcoalesced.merges g hg).best d hd hkey.symm⟩
  · intro key i
    constructor
    · rintro ⟨g, hg, rfl, hi⟩
      exact ((hcoalesced.merges g hg).sources i).mp hi
    · rintro ⟨d, hd, rfl, hi⟩
      obtain ⟨g, hg, hkey⟩ := hcoalesced.covers d hd
      exact ⟨g, hg, hkey,
        ((hcoalesced.merges g hg).sources i).mpr ⟨d, hd, hkey.symm, hi⟩⟩

theorem coalesce_tidy (h : ∀ d ∈ detections, Tidy d) :
    ∀ g ∈ coalesce detections, Tidy g :=
  fun g hg => ((coalesce_coalesced h).merges g hg).tidy

/-- The parts coalesced one by one, and then together. -/
theorem coalesce_flatten (parts : List (List GlobalDetection))
    (h : ∀ d ∈ parts.flatten, Tidy d) :
    coalesce (parts.map coalesce).flatten = coalesce parts.flatten := by
  have hparts : ∀ part ∈ parts, ∀ d ∈ part, Tidy d :=
    fun part hpart d hd => h d (List.mem_flatten.mpr ⟨part, hpart, hd⟩)
  refine coalesce_eq_of_alike ?_ ?_ h
  · clear h
    induction parts with
    | nil => exact Alike.of_mem_iff (fun _ => Iff.rfl)
    | cons part parts ih =>
        obtain ⟨hpart, hrest⟩ := List.forall_mem_cons.mp hparts
        rw [List.map_cons, List.flatten_cons, List.flatten_cons]
        exact (coalesce_alike hpart).append (ih hrest)
  · intro g hg
    obtain ⟨merged, hmerged, hg⟩ := List.mem_flatten.mp hg
    obtain ⟨part, hpart, rfl⟩ := List.mem_map.mp hmerged
    exact coalesce_tidy (hparts part hpart) g hg

-- ==================================================== the analysis

/-- The order in which segments report decides nothing. -/
theorem analyzeSegments_perm {runs runs' : List (Segment ×
      List DetectedEntity)} (hperm : runs.Perm runs')
    (policy : PolicySnapshot) (tenantId documentId : UUID)
    (segmented : SegmentedDocument) (maxEntities : Nat) :
    analyzeSegments policy tenantId documentId segmented maxEntities
        runs =
      analyzeSegments policy tenantId documentId segmented maxEntities
        runs' := by
  have hinside : (∀ run ∈ runs, Inside run) ↔
      ∀ run ∈ runs', Inside run := by simp only [hperm.mem_iff]
  unfold analyzeSegments
  rw [promoteAll_eq, promoteAll_eq]
  by_cases h : ∀ run ∈ runs, Inside run
  · have htidy : ∀ {runs : List (Segment × List DetectedEntity)},
        ∀ d ∈ runs.flatMap (fun run => run.2.map (moved run.1)),
          Tidy d := by
      intro runs d hd
      obtain ⟨run, -, hd⟩ := List.mem_flatMap.mp hd
      obtain ⟨e, -, rfl⟩ := List.mem_map.mp hd
      exact ⟨List.pairwise_singleton _ _, rfl⟩
    have hsame := coalesce_eq_of_alike
      (Alike.of_mem_iff (fun d => (hperm.flatMap_right
        (fun run => run.2.map (moved run.1))).mem_iff)) htidy htidy
    rw [if_pos h, if_pos (hinside.mp h)]
    simp only [bind, Except.bind, hsame]
  · rw [if_neg h, if_neg (fun h' => h (hinside.mpr h'))]

/-- Coalescing promoted detections gives the one entry of each type and
range, whatever their order and however they are split, and the labels do
not depend on the order in which segments report. -/
theorem coalesce_order_free :
    (∀ detections : List GlobalDetection,
      (∀ d ∈ detections, Promoted d) →
        Coalesced detections (coalesce detections) ∧
        (∀ other, other.Perm detections →
          coalesce other = coalesce detections) ∧
        coalesce (coalesce detections) = coalesce detections ∧
        ∀ parts : List (List GlobalDetection),
          parts.flatten.Perm detections →
            coalesce (parts.map coalesce).flatten =
              coalesce detections) ∧
    ∀ runs runs' : List (Segment × List DetectedEntity),
      runs.Perm runs' →
      ∀ (policy : PolicySnapshot) (tenantId documentId : UUID)
        (segmented : SegmentedDocument) (maxEntities : Nat),
        analyzeSegments policy tenantId documentId segmented maxEntities
            runs =
          analyzeSegments policy tenantId documentId segmented maxEntities
            runs' := by
  refine ⟨fun detections hpromoted => ?_, fun runs runs' hperm =>
    analyzeSegments_perm hperm⟩
  have htidy : ∀ d ∈ detections, Tidy d :=
    fun d hd => (hpromoted d hd).tidy
  have hperm : ∀ other : List GlobalDetection, other.Perm detections →
      coalesce other = coalesce detections := by
    intro other hother
    exact coalesce_eq_of_alike (Alike.of_mem_iff (fun d => hother.mem_iff))
      (fun d hd => htidy d (hother.mem_iff.mp hd)) htidy
  refine ⟨coalesce_coalesced htidy, hperm, ?_, ?_⟩
  · exact coalesce_eq_of_alike (coalesce_alike htidy)
      (coalesce_tidy htidy) htidy
  · intro parts hparts
    rw [← hperm _ hparts]
    exact coalesce_flatten parts
      (fun d hd => htidy d (hparts.mem_iff.mp hd))

/-- One address seen from two segments, at two scores. -/
def addressSeen : List GlobalDetection :=
  [moved ⟨1, 4, 10, [3], Bounds.four_lt_ten⟩
      ⟨emailAddressType, 0, 6, 1, none, Bounds.zero_lt_six, Bounds.whole⟩,
    moved ⟨0, 0, 10, [1, 2, 3], Bounds.zero_lt_ten⟩
      ⟨emailAddressType, 4, 10, 9 / 10, none, Bounds.four_lt_ten,
        Bounds.nineTenths⟩]

theorem addressSeen_promoted : ∀ d ∈ addressSeen, Promoted d := by
  intro d hd
  unfold addressSeen at hd
  rcases List.mem_cons.mp hd with rfl | hd
  · exact ⟨_, _, (promote_eq _ _).trans (if_pos (by decide))⟩
  · rw [List.mem_singleton.mp hd]
    exact ⟨_, _, (promote_eq _ _).trans (if_pos (by decide))⟩

/-- The address is one entry, whichever segment reports first. -/
theorem one_address :
    coalesce addressSeen.reverse =
      [⟨⟨emailAddressType, 4, 10, 1, none, Bounds.four_lt_ten, Bounds.whole⟩,
        [0, 1]⟩] := by
  have horder := (coalesce_order_free.1 addressSeen
    addressSeen_promoted).2.1 _ (List.reverse_perm addressSeen)
  rw [horder]
  decide +kernel

end PrivacyGateway.Documents
