/-
What asking `POST /v1/detect` for some types only does to its answer.

A narrowed request drops the candidates of other types before overlaps
are resolved, so a type that is left out no longer competes for the
characters. Where no candidate of a requested type is beaten by one of
another, nothing but the other types goes (`FiltersOnly`), for the detector
and for what the endpoint reports beside what a prompt of the same text
gets. Where no beaten candidate beats another, that can be said exactly
(`narrowing_only_filters`); and `number_reported_as_date` is a text of which
the endpoint reports what no prompt does.
-/
import PrivacyGateway.Api.Proofs.Agreement
import PrivacyGateway.Detection.Proofs.Resolution

namespace PrivacyGateway

open Detection Selection

/-- Narrowed to some types, the detector's spans and the endpoint's views
are the full ones of these types, and what the endpoint reports as acted on
is what the prompt path does to spans of these types. -/
structure FiltersOnly (unicode : Unicode) (config : DetectionConfig)
    (policy : PolicySnapshot) (text : Text) (candidates : List Candidate)
    (requested : List Text) (full narrowed : List DetectedEntity) :
    Prop where
  spans : narrowed = spansOf requested full
  views : ∀ (requestId : UUID) (diagnosticsAllowed : Bool)
    (payload whole : DetectRequest), payload.text = text →
      whole.text = text → payload.requestedEntities = some requested →
        whole.requestedEntities = none →
          ∃ narrow wide, detect unicode config policy requestId
              diagnosticsAllowed payload candidates = .ok narrow ∧
            detect unicode config policy requestId diagnosticsAllowed whole
              candidates = .ok wide ∧
            narrow.entities = wide.entities.filter
              (fun view => requested.contains view.entityType)
  chat : ∀ (requestId : UUID) (diagnosticsAllowed : Bool)
    (payload : DetectRequest), payload.text = text →
      payload.requestedEntities = some requested →
        ∃ narrow decisions, detect unicode config policy requestId
            diagnosticsAllowed payload candidates = .ok narrow ∧
          chatDecisions unicode config policy text candidates =
            .ok decisions ∧
          narrow.decisions = decisions.filter
            (fun d => requested.contains d.entityType)

section Narrowing

variable {unicode : Unicode} {config : DetectionConfig}
  {policy : PolicySnapshot} {text : Text} {candidates : List Candidate}
  {requested : List Text} {full narrowed : List DetectedEntity}

/-- The answer of the endpoint, once the detector's. -/
theorem detect_of_finalize {requestId : UUID} {diagnosticsAllowed : Bool}
    {payload : DetectRequest} {entities : List DetectedEntity}
    (hfinal : finalize unicode config candidates payload.text
      payload.requestedEntities = .ok entities) :
    detect unicode config policy requestId diagnosticsAllowed payload
        candidates =
      .ok ⟨requestId,
        entities.map (viewOf policy payload.text diagnosticsAllowed),
        summaryOf (entities.map
          (viewOf policy payload.text diagnosticsAllowed))⟩ := by
  unfold detect
  rw [hfinal]
  rfl

/-- Filtering by type is the same before and after deciding. -/
theorem decided_spansOf (requested : List Text)
    (entities : List DetectedEntity) :
    decided policy (spansOf requested entities) =
      (decided policy entities).filter
        (fun d => requested.contains d.entityType) := by
  unfold decided sure acted spansOf
  simp only [List.filter_map, List.filter_filter]
  congr 1
  apply List.filter_congr
  intro e _
  unfold decisionFor
  simp only [Function.comp]
  rw [← Bool.and_assoc, ← Bool.and_assoc, Bool.and_right_comm,
    Bool.and_comm (requested.contains e.entityType)]

/-- The endpoint follows the detector. -/
theorem FiltersOnly.of_spans
    (hfull : finalize unicode config candidates text = .ok full)
    (hnarrowed : finalize unicode config candidates text (some requested) =
      .ok narrowed) (h : narrowed = spansOf requested full) :
    FiltersOnly unicode config policy text candidates requested full
      narrowed := by
  subst h
  refine ⟨rfl, ?_, ?_⟩
  · rintro requestId diagnosticsAllowed payload whole rfl hwhole htypes hall
    refine ⟨_, _, detect_of_finalize (htypes ▸ hnarrowed),
      detect_of_finalize (by rw [hwhole, hall]; exact hfull), ?_⟩
    show (spansOf requested full).map _ = (full.map _).filter _
    rw [List.filter_map, hwhole]
    rfl
  · rintro requestId diagnosticsAllowed payload rfl htypes
    refine ⟨_, _, detect_of_finalize (htypes ▸ hnarrowed),
      chatDecisions_finalize hfull, ?_⟩
    rw [← decided_spansOf]
    show acted (((spansOf requested full).map (viewOf policy payload.text
      diagnosticsAllowed)).map _) = _
    rw [List.map_map, ← acted_intended]
    rfl

/-- Narrowing only filters where no candidate of a requested type is beaten
by one of another; and where no beaten candidate beats another, exactly
where each one of a requested type that is beaten by one of another is
beaten by one of a requested type as well. -/
theorem narrowing_only_filters
    (hfull : finalize unicode config candidates text = .ok full)
    (hnarrowed : finalize unicode config candidates text (some requested) =
      .ok narrowed) :
    ((∀ e ∈ contenders unicode config candidates text,
        requested.contains e.entityType = true →
          ∀ k ∈ contenders unicode config candidates text,
            requested.contains k.entityType = false →
              ¬ Beats config.entityPriority k e) →
      FiltersOnly unicode config policy text candidates requested full
        narrowed) ∧
    (Flat config.entityPriority (contenders unicode config candidates text) →
      (FiltersOnly unicode config policy text candidates requested full
          narrowed ↔
        ∀ e ∈ contenders unicode config candidates text,
          requested.contains e.entityType = true →
            (∃ k ∈ contenders unicode config candidates text,
              requested.contains k.entityType = false ∧
                Beats config.entityPriority k e) →
              ∃ k ∈ contenders unicode config candidates text,
                requested.contains k.entityType = true ∧
                  Beats config.entityPriority k e)) := by
  obtain ⟨hexact, hfree⟩ := (narrowing_filters_iff unicode config text
    candidates requested).2 full narrowed hfull hnarrowed
  refine ⟨fun h => .of_spans hfull hnarrowed (hfree h), fun hflat => ?_⟩
  have hspans : FiltersOnly unicode config policy text candidates requested
      full narrowed ↔ narrowed = spansOf requested full :=
    ⟨fun h => h.spans, .of_spans hfull hnarrowed⟩
  rw [hspans, hexact]
  have hkept : ∀ k ∈ contenders unicode config candidates text,
      k ∈ full ↔ ∀ f ∈ contenders unicode config candidates text,
        ¬ Beats config.entityPriority f k := by
    intro k hk
    rw [finalize_contenders hfull]
    exact mem_iff_unbeaten_of_flat
      (resolveOverlaps_isKernel contenders_named) hflat hk
  have hsub : ∀ k ∈ full, k ∈ contenders unicode config candidates text := by
    intro k hk
    rw [finalize_contenders hfull] at hk
    exact Detection.mem_of_mem_resolveOverlaps hk
  -- what beats a contender is itself beaten by none, so it is kept
  have hbeater : ∀ e ∈ contenders unicode config candidates text,
      ∀ k ∈ contenders unicode config candidates text,
        Beats config.entityPriority k e → k ∈ full :=
    fun e he k hk hbeats => (hkept k hk).mpr
      (fun g hg => hflat g hg k hk e he hbeats)
  refine forall₂_congr (fun e he => ?_)
  refine forall_congr' (fun htype => ?_)
  constructor
  · rintro h ⟨k, hk, -, hbeats⟩
    obtain ⟨k', hk', hrequested, hbeats'⟩ :=
      h ⟨k, hbeater e he k hk hbeats, hbeats⟩
    exact ⟨k', hsub k' hk', hrequested, hbeats'⟩
  · rintro h ⟨k, hk, hbeats⟩
    cases hk' : requested.contains k.entityType with
    | true => exact ⟨k, hk, hk', hbeats⟩
    | false =>
        obtain ⟨k', hmem, hrequested, hbeats'⟩ :=
          h ⟨k, hsub k hk, hk', hbeats⟩
        exact ⟨k', hbeater e he k' hmem hbeats', hrequested, hbeats'⟩

end Narrowing

-- ==================================================== a number, a date

/-- A number that reads as a date too, and a name. -/
def numberAndName : Text := "123-45-6789 Ann".toList

def numberScan : List Candidate :=
  [⟨usSsnType, 0, 11, 17 / 20, none⟩, ⟨dateTimeType, 0, 11, 17 / 20, none⟩,
    ⟨personType, 12, 15, 17 / 20, none⟩]

def numberPolicy : PolicySnapshot where
  policyId := ⟨1⟩
  tenantId := ⟨2⟩
  version := 1
  name := "numbers".toList
  sessionTtlSeconds := 3600
  maxEntities := 100
  unknownOutputTokenAction := .preserve
  entities := [
    (usSsnType, ⟨.block, 1 / 2, true, none, none, Bounds.half⟩),
    (dateTimeType, ⟨.tokenize, 1 / 2, true, none, none, Bounds.half⟩),
    (personType, ⟨.redact, 1 / 2, true, none, none, Bounds.half⟩)]
  providers := []

theorem Bounds.zero_lt_eleven : 0 < 11 := by decide
theorem Bounds.twelve_lt_fifteen : 12 < 15 := by decide

def numberFound : List DetectedEntity :=
  [⟨usSsnType, 0, 11, 17 / 20, none, Bounds.zero_lt_eleven,
      Bounds.seventeenTwentieths⟩,
    ⟨personType, 12, 15, 17 / 20, none, Bounds.twelve_lt_fifteen,
      Bounds.seventeenTwentieths⟩]

def nameFound : List DetectedEntity :=
  [⟨personType, 12, 15, 17 / 20, none, Bounds.twelve_lt_fifteen,
    Bounds.seventeenTwentieths⟩]

/-- Asked for names alone, the endpoint reports the name it reports
anyway. -/
theorem name_reported_alike :
    FiltersOnly Unicode.ascii DetectionConfig.default numberPolicy
      numberAndName numberScan [personType] numberFound nameFound :=
  (narrowing_only_filters (by decide +kernel) (by decide +kernel)).1
    (by unfold Beats; decide +kernel)

/-- Asked for dates alone, the endpoint reports a date that would be
tokenized, where a prompt of the text is refused for its number. -/
theorem number_reported_as_date :
    finalize Unicode.ascii DetectionConfig.default numberScan
      numberAndName = .ok numberFound ∧
    (∃ narrowed, finalize Unicode.ascii DetectionConfig.default numberScan
        numberAndName (some [dateTimeType]) = .ok narrowed ∧
      narrowed ≠ spansOf [dateTimeType] numberFound) ∧
    (detect Unicode.ascii DetectionConfig.default numberPolicy ⟨9⟩ false
        ⟨numberAndName, some [dateTimeType]⟩ numberScan).map
          DetectResponse.decisions =
      .ok [⟨0, 11, dateTimeType, .tokenize⟩] ∧
    chatDecisions Unicode.ascii DetectionConfig.default numberPolicy
        numberAndName numberScan =
      .ok [⟨0, 11, usSsnType, .block⟩, ⟨12, 15, personType, .redact⟩] :=
  ⟨by decide +kernel,
    ⟨[⟨dateTimeType, 0, 11, 17 / 20, none, by decide,
      Bounds.seventeenTwentieths⟩], by decide +kernel, by decide +kernel⟩,
    by decide +kernel, by decide +kernel⟩

end PrivacyGateway
