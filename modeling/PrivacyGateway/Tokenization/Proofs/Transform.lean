/-
What a returned transform computed.

The splice loop walks the plan from the right and collects pieces in
reverse. `spliceFrom_ok` recognizes it as the backward walk of the splice
library over the patches of the plan, and `transform_ok` turns that into
the left-to-right fill: the protected text is the original with each
selected span that is not left alone replaced.
-/
import Mathlib.Data.List.Pairwise
import PrivacyGateway.Tokenization.Tokenizer

namespace PrivacyGateway.Tokenization

open Effect Splice

-- ==================================================== the plan

theorem rejectBlocked_ok_iff {plan : List Planned} :
    rejectBlocked plan = .ok () ↔ ∀ item ∈ plan, item.2 ≠ .block := by
  induction plan with
  | nil => simp [rejectBlocked]
  | cons item plan ih =>
      unfold rejectBlocked
      by_cases hblock : item.2 = .block
      · rw [if_pos hblock]
        constructor
        · intro h
          cases h
        · intro h
          exact absurd hblock (h item List.mem_cons_self)
      · rw [if_neg hblock, ih, List.forall_mem_cons]
        exact ⟨fun h => ⟨hblock, h⟩, fun h => h.2⟩

theorem enforceLimit_ok_iff {selected : List DetectedEntity}
    {policy : PolicySnapshot} :
    enforceLimit selected policy = .ok () ↔
      selected.length ≤ policy.maxEntities := by
  unfold enforceLimit
  by_cases h : selected.length ≤ policy.maxEntities
  · simp [h]
  · simp [h]

/-- The plan of a request: its selected spans, within the limit, none of
them blocked. -/
structure Plans (text : Text) (entities : List DetectedEntity)
    (policy : PolicySnapshot) (selected : List DetectedEntity) : Prop where
  selects : selectEntities text entities policy = .ok selected
  within_limit : selected.length ≤ policy.maxEntities
  not_blocked : ∀ e ∈ selected, policy.actionFor e.entityType ≠ .block

/-- Each selected span with the policy's action for it. -/
def withActions (policy : PolicySnapshot) (selected : List DetectedEntity) :
    List Planned :=
  selected.map (fun e => (e, policy.actionFor e.entityType))

theorem planFor_ok_iff {text : Text} {entities : List DetectedEntity}
    {policy : PolicySnapshot} {plan : List Planned} :
    planFor text entities policy = .ok plan ↔
      ∃ selected, Plans text entities policy selected ∧
        plan = withActions policy selected := by
  unfold planFor
  cases hsel : selectEntities text entities policy with
  | error e =>
      constructor
      · intro h
        cases h
      · intro h
        obtain ⟨selected, hplans, -⟩ := h
        rw [hplans.selects] at hsel
        cases hsel
  | ok selected =>
      show (do
        enforceLimit selected policy
        rejectBlocked (withActions policy selected)
        return withActions policy selected) = .ok plan ↔ _
      have hall : (∀ item ∈ withActions policy selected, item.2 ≠ .block) ↔
          ∀ e ∈ selected, policy.actionFor e.entityType ≠ .block := by
        simp [withActions]
      cases hlim : enforceLimit selected policy with
      | error e =>
          constructor
          · intro h
            cases h
          · intro h
            obtain ⟨selected', hplans, -⟩ := h
            have hsame := hplans.selects
            rw [hsel] at hsame
            cases hsame
            rw [enforceLimit_ok_iff.mpr hplans.within_limit] at hlim
            cases hlim
      | ok u =>
          cases hblock : rejectBlocked (withActions policy selected) with
          | error e =>
              constructor
              · intro h
                cases h
              · intro h
                obtain ⟨selected', hplans, -⟩ := h
                have hsame := hplans.selects
                rw [hsel] at hsame
                cases hsame
                rw [rejectBlocked_ok_iff.mpr (hall.mpr hplans.not_blocked)]
                  at hblock
                cases hblock
          | ok v =>
              constructor
              · intro h
                cases h
                exact ⟨selected, ⟨hsel, enforceLimit_ok_iff.mp hlim,
                  hall.mp (rejectBlocked_ok_iff.mp hblock)⟩, rfl⟩
              · intro h
                obtain ⟨selected', hplans, rfl⟩ := h
                have hsame := hplans.selects
                rw [hsel] at hsame
                cases hsame
                rfl

theorem Plans.chain {text : Text} {entities : List DetectedEntity}
    {policy : PolicySnapshot} {selected : List DetectedEntity}
    (h : Plans text entities policy selected) :
    selected.Pairwise (fun a b => a.stop ≤ b.start) := by
  obtain ⟨-, rfl⟩ := selectEntities_ok_iff.mp h.selects
  exact resolveOverlaps_chain _

theorem Plans.stop_le {text : Text} {entities : List DetectedEntity}
    {policy : PolicySnapshot} {selected : List DetectedEntity}
    (h : Plans text entities policy selected) :
    ∀ e ∈ selected, e.stop ≤ text.length := by
  obtain ⟨hbounds, rfl⟩ := selectEntities_ok_iff.mp h.selects
  intro e he
  exact hbounds e (List.mem_filter.mp (mem_of_mem_resolveOverlaps he)).1

/-- Some of the selected spans, with any replacements, fit the text. -/
theorem Plans.filter_fits {text : Text} {entities : List DetectedEntity}
    {policy : PolicySnapshot} {selected : List DetectedEntity}
    (h : Plans text entities policy selected)
    (kind : DetectedEntity → Bool) (body : DetectedEntity → Text) :
    Splice.Fits text.length 0 ((selected.filter kind).map
      (fun e => ⟨e.start, e.stop, body e⟩)) := by
  apply fits_of_chain (Nat.zero_le _)
  · intro p hp
    obtain ⟨e, he, rfl⟩ := List.mem_map.mp hp
    have := e.span_forward
    have := h.stop_le e (List.mem_of_mem_filter he)
    exact ⟨Nat.zero_le _, by simp only; omega, by simp only; omega⟩
  · exact List.pairwise_map.mpr (h.chain.sublist List.filter_sublist)

-- ==================================================== the splice loop

section Loop

variable (unicode : Unicode) (hashes : Hashes) (text : Text)
  (minted : Dict Nat EntityMapping)

/-- What the loop writes for a planned span: nothing for one it leaves
alone. -/
def patchOf (item : Planned × Nat) : Option (Patch Char) :=
  match replacementOf unicode hashes text minted item with
  | .ok (some body) => some ⟨item.1.1.start, item.1.1.stop, body⟩
  | _ => none

variable {unicode hashes text minted}

/-- A span is left alone exactly when its action is `ALLOW`. -/
theorem replacementFor_eq_none_iff {action : EntityAction}
    {entityType original : Text} {mapping : Option EntityMapping}
    {result : Option Text}
    (h : replacementFor unicode hashes action entityType mapping original =
      .ok result) :
    result = none ↔ action = .allow := by
  unfold replacementFor at h
  cases action with
  | allow =>
      cases h
      simp
  | redact =>
      cases hred : formatRedaction entityType with
      | error e =>
          rw [hred] at h
          cases h
      | ok placeholder =>
          rw [hred] at h
          cases h
          simp
  | tokenize =>
      cases mapping with
      | none => cases h
      | some m =>
          cases h
          simp
  | pseudonymize =>
      cases mapping with
      | none => cases h
      | some m =>
          cases h
          simp
  | block =>
      cases mapping with
      | none => cases h
      | some m =>
          cases h
          simp

theorem mappings_append (known : Option EntityMapping)
    (mappings rest : List EntityMapping) :
    (match known with
      | some mapping => mappings ++ [mapping]
      | none => mappings) ++ rest =
      mappings ++ (known.toList ++ rest) := by
  cases known with
  | none => rfl
  | some mapping => simp

/-- The loop is the backward walk over the patches of its spans, and it
collects the mappings of the spans that have one. -/
theorem spliceFrom_ok (order : List (Planned × Nat)) :
    ∀ (state final : Spliced),
      spliceFrom unicode hashes text minted state order = .ok final →
      (∀ item ∈ order, ∃ r,
        replacementOf unicode hashes text minted item = .ok r) ∧
      (final.pieces ++ [text.take final.cursor]).reverse.flatten =
        backFrom text state.cursor state.pieces
          (order.filterMap (patchOf unicode hashes text minted)) ∧
      final.mappings = state.mappings ++
        order.filterMap (fun item => minted.get? item.2) := by
  induction order with
  | nil =>
      intro state final h
      cases h
      refine ⟨fun item hitem => absurd hitem (List.not_mem_nil), rfl, ?_⟩
      simp
  | cons item order ih =>
      intro state final h
      unfold spliceFrom at h
      simp only at h
      have htail : (item :: order).filterMap
            (fun item => minted.get? item.2) =
          (minted.get? item.2).toList ++
            order.filterMap (fun item => minted.get? item.2) := by
        rw [List.filterMap_cons]
        cases minted.get? item.2 with
        | none => rfl
        | some m => rfl
      cases hrep : replacementOf unicode hashes text minted item with
      | error e =>
          rw [hrep] at h
          cases h
      | ok r =>
          rw [hrep] at h
          cases r with
          | none =>
              obtain ⟨hall, htext, hmaps⟩ := ih _ final h
              refine ⟨List.forall_mem_cons.mpr ⟨⟨_, hrep⟩, hall⟩, ?_, ?_⟩
              · rw [htext, List.filterMap_cons]
                simp only [patchOf, hrep]
              · rw [hmaps, htail]
                exact mappings_append _ _ _
          | some body =>
              obtain ⟨hall, htext, hmaps⟩ := ih _ final h
              refine ⟨List.forall_mem_cons.mpr ⟨⟨_, hrep⟩, hall⟩, ?_, ?_⟩
              · rw [htext, List.filterMap_cons]
                simp only [patchOf, hrep, backFrom]
              · rw [hmaps, htail]
                exact mappings_append _ _ _

/-- Over spans that stand one after the other, the splice order is the
plan reversed. -/
theorem spliceOrder_eq_reverse {policy : PolicySnapshot}
    {selected : List DetectedEntity}
    (hchain : selected.Pairwise (fun a b => a.stop ≤ b.start)) :
    spliceOrder (withActions policy selected) =
      (withActions policy selected).zipIdx.reverse := by
  apply Selection.sortByDesc_eq_reverse
  have hplan : (withActions policy selected).Pairwise
      (fun a b => a.1.start < b.1.start) := by
    unfold withActions
    refine List.pairwise_map.mpr (hchain.imp ?_)
    intro a b hab
    have := a.span_forward
    show a.start < b.start
    omega
  rw [← List.zipIdx_map_fst 0 (withActions policy selected)] at hplan
  exact (List.pairwise_map (f := Prod.fst)
    (R := fun a b : Planned => a.1.start < b.1.start)).mp hplan

/-- The patches of a plan, from the left. -/
def patches (unicode : Unicode) (hashes : Hashes) (text : Text)
    (minted : Dict Nat EntityMapping) (plan : List Planned) :
    List (Patch Char) :=
  plan.zipIdx.filterMap (patchOf unicode hashes text minted)

/-- A patch has its span's range and its span's replacement. -/
theorem patchOf_eq_some {item : Planned × Nat} {p : Patch Char}
    (h : patchOf unicode hashes text minted item = some p) :
    p.start = item.1.1.start ∧ p.stop = item.1.1.stop ∧
      replacementOf unicode hashes text minted item = .ok (some p.body) := by
  unfold patchOf at h
  split at h
  · rename_i body hbody
    cases h
    exact ⟨rfl, rfl, hbody⟩
  · cases h

/-- The patches of a plan fit the text. -/
theorem patches_fit {policy : PolicySnapshot}
    {selected : List DetectedEntity}
    (hchain : selected.Pairwise (fun a b => a.stop ≤ b.start))
    (hbounds : ∀ e ∈ selected, e.stop ≤ text.length) :
    Fits text.length 0 (patches unicode hashes text minted
      (withActions policy selected)) := by
  apply fits_of_chain (Nat.zero_le _)
  · intro p hp
    obtain ⟨item, hitem, hpatch⟩ := List.mem_filterMap.mp hp
    obtain ⟨hstart, hstop, -⟩ := patchOf_eq_some hpatch
    obtain ⟨e, he, hplanned⟩ :=
      List.mem_map.mp (List.fst_mem_of_mem_zipIdx hitem)
    have hspan := item.1.1.span_forward
    have hlen : item.1.1.stop ≤ text.length := by
      rw [← hplanned]
      exact hbounds e he
    omega
  · have hplan : (withActions policy selected).Pairwise
        (fun a b => a.1.stop ≤ b.1.start) := List.pairwise_map.mpr hchain
    rw [← List.zipIdx_map_fst 0 (withActions policy selected)] at hplan
    have hitems := (List.pairwise_map (f := Prod.fst)
      (R := fun a b : Planned => a.1.stop ≤ b.1.start)).mp hplan
    refine List.pairwise_filterMap.mpr (hitems.imp ?_)
    intro a b hab p hp q hq
    obtain ⟨-, hstop, -⟩ := patchOf_eq_some hp
    obtain ⟨hstart, -, -⟩ := patchOf_eq_some hq
    omega

end Loop

-- ==================================================== the transform

section Run

variable {unicode : Unicode} {hashes : Hashes}
  {fingerprinter : Fingerprinter} {tenantId sessionId : UUID} {σ : Type}
  {vault : VaultLike σ} {text : Text} {entities : List DetectedEntity}
  {policy : PolicySnapshot} {s t : σ} {out : TransformedText}

/-- What a returned transform computed: its plan, its mappings, and the
text as the fill of the plan's patches. -/
theorem transform_ok
    (h : runIn (transform unicode hashes fingerprinter vault tenantId
      sessionId text entities policy) s = (.ok out, t)) :
    ∃ selected minted, Plans text entities policy selected ∧
      runIn (mint unicode hashes fingerprinter tenantId sessionId vault text
        (withActions policy selected) policy.sessionTtlSeconds) s =
          (.ok minted, t) ∧
      (∀ item ∈ (withActions policy selected).zipIdx, ∃ r,
        replacementOf unicode hashes text minted item = .ok r) ∧
      out.text = fill text (patches unicode hashes text minted
        (withActions policy selected)) ∧
      out.mappings = (withActions policy selected).zipIdx.filterMap
        (fun item => minted.get? item.2) ∧
      out.summary = summarize (withActions policy selected) := by
  unfold transform at h
  obtain ⟨plan, hplan, h⟩ := checked_bind_ok_iff.mp h
  obtain ⟨selected, hplans, rfl⟩ := planFor_ok_iff.mp hplan
  obtain ⟨minted, u, hmint, h⟩ := bind_ok_iff.mp h
  obtain ⟨spliced, hsplice, h⟩ := checked_bind_ok_iff.mp h
  rw [runIn_pure] at h
  cases h
  rw [spliceOrder_eq_reverse hplans.chain] at hsplice
  obtain ⟨hall, htext, hmaps⟩ := spliceFrom_ok _ _ _ hsplice
  refine ⟨selected, minted, hplans, hmint,
    fun item hitem => hall item (List.mem_reverse.mpr hitem), ?_, ?_, rfl⟩
  · show (spliced.pieces ++ [text.take spliced.cursor]).reverse.flatten = _
    rw [htext, List.filterMap_reverse]
    exact fillBack_reverse text _
  · show spliced.mappings.reverse = _
    rw [hmaps, List.nil_append, List.filterMap_reverse, List.reverse_reverse]

end Run

-- ==================================================== sample values

/-- A policy that leaves places in the text and protects names. -/
def namesOnlyPolicy : PolicySnapshot where
  policyId := ⟨1⟩
  tenantId := ⟨2⟩
  version := 1
  name := "names-only".toList
  sessionTtlSeconds := 3600
  maxEntities := 100
  unknownOutputTokenAction := .preserve
  entities := [
    ("LOCATION".toList, ⟨.allow, 1 / 2, true, none, none, Bounds.half⟩),
    ("PERSON".toList, ⟨.redact, 1 / 2, true, none, none, Bounds.half⟩)]
  providers := []

def sampleFingerprinter : Fingerprinter where
  key := List.replicate 32 7
  key_length := by decide

end PrivacyGateway.Tokenization
