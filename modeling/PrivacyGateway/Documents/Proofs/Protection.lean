/-
When a refused document request leaves the vault alone.

Protection makes its checks on the instruction in two places: the block
check before the document's transform, bounds and the entity limit inside
the instruction's own transform, after it. So a request is refused with
the document's mappings already written exactly when the document maps
something and the instruction fails one of the checks that come late
(`WritesFirst`). `refusals_leave_nothing_iff` is that statement over every
state of the vault.
-/
import PrivacyGateway.Documents.Protection
import PrivacyGateway.Documents.Proofs.Stages
import PrivacyGateway.Tokenization.Proofs.Refusals
import PrivacyGateway.Vault.Proofs.Admission
import PrivacyGateway.Vault.Proofs.Lifetimes
import PrivacyGateway.Vault.Reference

namespace PrivacyGateway.Vault.RedisTokenVault

open Tokenization

variable {vault : RedisTokenVault} {t s : UUID}

/-- After the rounds of a batch with something to do, a record is live. -/
theorem Rounds.leaves {ttl : Nat} {cs : List Candidate} {ids : List Text}
    {r r' : Redis} (h : vault.Rounds t s ttl cs ids r r')
    (hne : cs ≠ []) :
    ∃ id v, vault.valueAt r' (.token t s id) = some v := by
  have hkeep : ∀ {cs : List Candidate} {ids : List Text} {q q' : Redis},
      vault.Rounds t s ttl cs ids q q' →
      (∃ id v, vault.valueAt q (.token t s id) = some v) →
        ∃ id v, vault.valueAt q' (.token t s id) = some v := by
    intro cs ids q q' hrounds hstart
    refine hrounds.preserve (P := fun q =>
      ∃ id v, vault.valueAt q (.token t s id) = some v) ?_ ?_ hstart
    · intro _ _ p p' hp hreused
      obtain ⟨id, v, hv⟩ := hp
      exact ⟨id, v, (hreused.values _).trans hv⟩
    · intro c _ p p' _ hcreated
      refine ⟨c.id, .blob c.raw, ?_⟩
      rw [hcreated.values (by simp), if_pos rfl]
  cases h with
  | nil => exact absurd rfl hne
  | @reused c cs found ids r q r' head tail =>
      apply hkeep tail
      obtain ⟨e, he⟩ := head.token_found
      refine ⟨found, e.value, (head.values _).trans ?_⟩
      exact valueAt_eq_some_iff.mpr ⟨e.deadline, he⟩
  | @created c cs ids r q r' head stale tail =>
      apply hkeep tail
      refine ⟨c.id, .blob c.raw, ?_⟩
      rw [head.values (by simp), if_pos rfl]

theorem Batched.leaves {entries : List VaultWriteRequest} {ttl : Nat}
    {cs : List Candidate} {ids : List Text} {w w' : World}
    {tokens : List Text}
    (h : vault.Batched t s entries ttl cs ids w w' tokens) :
    ∃ id v, vault.valueAt w'.redis (.token t s id) = some v := by
  obtain ⟨q, hrounds, htouched⟩ := h.scripted
  have hne : cs ≠ [] := by
    intro hnil
    have hlength := h.candidates_sealed.length_eq
    rw [hnil, List.length_nil] at hlength
    exact deduplicate_ne_nil h.nonempty
      (List.length_eq_zero_iff.mp hlength.symm)
  obtain ⟨id, v, hv⟩ := hrounds.leaves hne
  exact ⟨id, v, (htouched.values _).trans hv⟩

end PrivacyGateway.Vault.RedisTokenVault

namespace PrivacyGateway.Documents

open Effect Tokenization Vault RedisTokenVault

-- ==================================================== the instruction

theorem rejectBlockedInstruction_ok_iff {policy : PolicySnapshot}
    (entities : List DetectedEntity) :
    rejectBlockedInstruction policy entities = .ok () ↔
      ∀ e ∈ entities, policy.actionFor e.entityType ≠ .block := by
  induction entities with
  | nil => simp [rejectBlockedInstruction]
  | cons e entities ih =>
      unfold rejectBlockedInstruction
      rw [List.forall_mem_cons, ← ih]
      by_cases hblock : policy.actionFor e.entityType = .block
      · simp [hblock]
      · simp [hblock]

/-- The spans of the instruction lie inside it, and those the policy acts
on are within its limit. -/
structure InstructionFits (policy : PolicySnapshot) (instruction : Text)
    (entities : List DetectedEntity) : Prop where
  spans_inside : ∀ e ∈ entities, e.stop ≤ instruction.length
  within_limit : (resolveOverlaps
    (entities.filter (isConfident policy))).length ≤ policy.maxEntities

variable {policy : PolicySnapshot} {instruction : Text}
  {entities : List DetectedEntity}

/-- Where nothing is blocked, these two checks are the whole plan. -/
theorem planFor_returns_iff
    (hunblocked : ∀ e ∈ entities,
      policy.actionFor e.entityType ≠ .block) :
    (∃ plan, planFor instruction entities policy = .ok plan) ↔
      InstructionFits policy instruction entities := by
  constructor
  · intro h
    obtain ⟨plan, hplan⟩ := h
    obtain ⟨selected, hplans, -⟩ := planFor_ok_iff.mp hplan
    obtain ⟨hinside, rfl⟩ := selectEntities_ok_iff.mp hplans.selects
    exact ⟨hinside, hplans.within_limit⟩
  · intro h
    refine ⟨_, planFor_ok_iff.mpr ⟨_, ⟨selectEntities_ok_iff.mpr
      ⟨h.spans_inside, rfl⟩, h.within_limit, ?_⟩, rfl⟩⟩
    intro e he
    exact hunblocked e
      (List.mem_filter.mp (mem_of_mem_resolveOverlaps he)).1

theorem validateSpans_refusal {text : Text}
    (entities : List DetectedEntity) {e : Exn}
    (h : validateSpans text entities = .error e) : e.isRefusal = true := by
  induction entities with
  | nil => cases h
  | cons entity entities ih =>
      unfold validateSpans at h
      split at h
      · cases h
        rfl
      · exact ih h

theorem rejectBlocked_refusal (plan : List Planned) {e : Exn}
    (h : rejectBlocked plan = .error e) : e.isRefusal = true := by
  induction plan with
  | nil => cases h
  | cons item plan ih =>
      unfold rejectBlocked at h
      split at h
      · cases h
        rfl
      · exact ih h

/-- Planning says no with a refusal. -/
theorem planFor_refusal {text : Text} {e : Exn}
    (h : planFor text entities policy = .error e) :
    e.isRefusal = true := by
  unfold planFor selectEntities at h
  simp only [bind, Except.bind, pure, Except.pure] at h
  cases hspans : validateSpans text entities with
  | error e' =>
      rw [hspans] at h
      cases h
      exact validateSpans_refusal entities hspans
  | ok u =>
      rw [hspans] at h
      simp only at h
      cases hlimit : enforceLimit (resolveOverlaps
          (entities.filter (isConfident policy))) policy with
      | error e' =>
          rw [hlimit] at h
          cases h
          unfold enforceLimit at hlimit
          split at hlimit
          · cases hlimit
          · cases hlimit
            rfl
      | ok u =>
          rw [hlimit] at h
          simp only at h
          split at h
          · rename_i hblocked
            cases h
            exact rejectBlocked_refusal _ hblocked
          · cases h

-- ==================================================== the request

section Request

variable (vault : RedisTokenVault) (unicode : Unicode)
  (fingerprinter : Fingerprinter) (t s : UUID) (maxEntities : Nat)

/-- The policy the document is transformed under. -/
abbrev budgeted (analyzed : AnalyzedDocument) : PolicySnapshot :=
  documentEntityBudget analyzed.policy maxEntities

/-- The document is protected and maps something, and the instruction then
fails a check that its own transform makes. -/
structure WritesFirst (analyzed : AnalyzedDocument) (instruction : Text)
    (entities : List DetectedEntity) : Prop where
  unblocked : ∀ e ∈ entities,
    analyzed.policy.actionFor e.entityType ≠ .block
  document_maps : ∃ selected,
    Plans analyzed.segmented.document.text (asDetections analyzed)
      (budgeted maxEntities analyzed) selected ∧
    selected.length = analyzed.spans.length ∧
    mappedSpans (budgeted maxEntities analyzed) selected ≠ [] ∧
    vault.Serves unicode analyzed.segmented.document.text
      (budgeted maxEntities analyzed) selected
  instruction_unfit :
    ¬ InstructionFits analyzed.policy instruction entities

variable {vault unicode fingerprinter t s maxEntities}

theorem detected_eq_length {selected : List DetectedEntity} :
    (summarize (withActions policy selected)).detected =
      selected.length := by
  unfold summarize withActions
  simp

/-- A transform that returned and mapped something left a record. -/
theorem transform_leaves {text : Text} {w w' : World}
    {out : TransformedText} {selected : List DetectedEntity}
    (htyped : vault.Typed w.redis)
    (hplans : Plans text entities policy selected)
    (hmaps : mappedSpans policy selected ≠ [])
    (h : runIn (transform unicode vault.hashes fingerprinter vault.like t s
      text entities policy) w = (.ok out, w')) :
    ∃ id v, vault.valueAt w'.redis (.token t s id) = some v := by
  obtain ⟨selected', minted, hplans', hmint, -⟩ := transform_ok h
  obtain rfl : selected = selected' :=
    Except.ok.inj (hplans.selects.symm.trans hplans'.selects)
  obtain ⟨pendings, hpending, hcase⟩ := mint_ok hmint
  have hne : pendings ≠ [] :=
    fun hnil => hmaps ((pendings_eq_nil_iff hpending).mp hnil)
  rcases hcase with ⟨hnil, -, -⟩ | ⟨tokens, hcall, -⟩
  · exact absurd hnil hne
  · have hcall' : runIn (vault.getOrCreateMany t s
        (pendings.map Pending.request) policy.sessionTtlSeconds) w =
          (.ok tokens, w') := hcall
    rcases getOrCreateMany_cases htyped hcall' with
      ⟨-, -, hempty⟩ | ⟨ttl, cs, ids, tokens', -, -, hb⟩
    · exact absurd (List.map_eq_nil_iff.mp (hempty tokens rfl).2) hne
    · exact hb.leaves

theorem verifyEverySpanWasActedOn_fault {analyzed : AnalyzedDocument}
    {transformed : TransformedText} {e : Exn}
    (h : verifyEverySpanWasActedOn analyzed transformed = .error e) :
    e.IsFault := by
  unfold verifyEverySpanWasActedOn at h
  split at h
  · cases h
  · cases h
    rfl

theorem protectedDocument_fault {t s documentId : UUID}
    {text instruction : Text} {summary : PrivacySummary} {version : Int}
    {e : Exn}
    (h : protectedDocument t s documentId text instruction summary
      version = .error e) : e.IsFault := by
  unfold protectedDocument at h
  split at h
  · cases h
    rfl
  · cases h

/-- The instruction's transform refuses while planning, if at all. -/
theorem protectInstruction_refused {w w' : World} {e : Exn}
    (h : runIn (protectInstruction unicode vault.hashes fingerprinter
      vault.like t s policy instruction entities) w = (.error e, w'))
    (hrefusal : e.isRefusal = true) :
    w' = w ∧ planFor instruction entities policy = .error e := by
  unfold protectInstruction at h
  by_cases hnil : entities = []
  · rw [if_pos hnil] at h
    cases h
  · rw [if_neg hnil] at h
    rcases bind_error_iff.mp h with h | ⟨_, _, _, h⟩
    · rcases transform_error (vault.getOrCreateMany_faults t s) h with
        ⟨hplan, hw⟩ | ⟨-, hfault⟩
      · exact ⟨hw, hplan⟩
      · exact (hfault.elim hrefusal).elim
    · cases h

/-- A refusal leaves the server as it was, or the request wrote first. -/
theorem protectAnalyzed_refused {analyzed : AnalyzedDocument}
    {w w' : World} {e : Exn} (htyped : vault.Typed w.redis)
    (h : runIn (protectAnalyzed unicode vault.hashes fingerprinter
      vault.like t s maxEntities analyzed instruction entities) w =
        (.error e, w'))
    (hrefusal : e.isRefusal = true) :
    w'.redis = w.redis ∨
      WritesFirst vault unicode maxEntities analyzed instruction
        entities := by
  unfold protectAnalyzed at h
  cases hblock : rejectBlockedInstruction analyzed.policy entities with
  | error e' =>
      rw [hblock, checked_bind_error] at h
      cases h
      exact Or.inl rfl
  | ok u =>
      rw [hblock, checked_bind_ok] at h
      have hunblocked := (rejectBlockedInstruction_ok_iff entities).mp hblock
      rcases bind_error_iff.mp h with h | ⟨transformed, w1, hdoc, h⟩
      · rcases transform_error (vault.getOrCreateMany_faults t s) h with
          ⟨-, rfl⟩ | ⟨-, hfault⟩
        · exact Or.inl rfl
        · exact (hfault.elim hrefusal).elim
      · obtain ⟨selected, minted, hplans, hmint, -, -, -, hsummary⟩ :=
          transform_ok hdoc
        cases hverify : verifyEverySpanWasActedOn analyzed transformed with
        | error e' =>
            rw [hverify, checked_bind_error] at h
            cases h
            exact ((verifyEverySpanWasActedOn_fault hverify).elim
              hrefusal).elim
        | ok u =>
            rw [hverify, checked_bind_ok] at h
            rcases bind_error_iff.mp h with h | ⟨ins, w2, -, h⟩
            · -- what is left is the instruction's own plan
              obtain ⟨rfl, hnoplan⟩ :=
                protectInstruction_refused h hrefusal
              by_cases hmaps : mappedSpans (budgeted maxEntities analyzed)
                  selected = []
              · rw [mint_unmapped vault.like w hmaps] at hmint
                cases hmint
                exact Or.inl rfl
              · right
                refine ⟨hunblocked, ⟨selected, hplans, ?_, hmaps,
                  (transform_returns_iff htyped hplans).mp
                    ⟨_, _, hdoc⟩⟩, ?_⟩
                · unfold verifyEverySpanWasActedOn at hverify
                  split at hverify
                  · rename_i hcount
                    rw [hsummary, detected_eq_length] at hcount
                    exact hcount
                  · cases hverify
                · intro hfits
                  obtain ⟨plan, hplan⟩ :=
                    (planFor_returns_iff hunblocked).mpr hfits
                  rw [hplan] at hnoplan
                  cases hnoplan
            · rw [runIn_checked] at h
              obtain ⟨herror, -⟩ := Prod.mk.inj h
              exact ((protectedDocument_fault herror).elim hrefusal).elim

/-- A request that writes first is refused with a record left behind. -/
theorem WritesFirst.refused {analyzed : AnalyzedDocument}
    (hw : WritesFirst vault unicode maxEntities analyzed instruction
      entities) {w : World} (htyped : vault.Typed w.redis) :
    ∃ e w', runIn (protectAnalyzed unicode vault.hashes fingerprinter
        vault.like t s maxEntities analyzed instruction entities) w =
        (.error e, w') ∧ e.isRefusal = true ∧
      ∃ id v, vault.valueAt w'.redis (.token t s id) = some v := by
  obtain ⟨selected, hplans, hcount, hmaps, hserves⟩ := hw.document_maps
  obtain ⟨out, w1, hdoc⟩ := (@transform_returns_iff vault t s unicode _
    fingerprinter _ selected w htyped _ hplans).mpr hserves
  have hnil : entities ≠ [] := by
    intro hempty
    apply hw.instruction_unfit
    rw [hempty]
    refine ⟨fun e he => absurd he (List.not_mem_nil), ?_⟩
    exact Nat.zero_le _
  have hnoplan : ∃ e, planFor instruction entities analyzed.policy =
      .error e := by
    cases hplan : planFor instruction entities analyzed.policy with
    | error e => exact ⟨e, rfl⟩
    | ok plan =>
        exact absurd ((planFor_returns_iff hw.unblocked).mp ⟨plan, hplan⟩)
          hw.instruction_unfit
  obtain ⟨e, hnoplan⟩ := hnoplan
  refine ⟨e, w1, ?_, planFor_refusal hnoplan,
    transform_leaves htyped hplans hmaps hdoc⟩
  obtain ⟨selected', minted, hplans', -, -, -, -, hsummary⟩ :=
    transform_ok hdoc
  obtain rfl : selected = selected' :=
    Except.ok.inj (hplans.selects.symm.trans hplans'.selects)
  unfold protectAnalyzed
  rw [(rejectBlockedInstruction_ok_iff entities).mpr hw.unblocked,
    checked_bind_ok, runIn_bind, hdoc]
  simp only
  unfold verifyEverySpanWasActedOn
  rw [hsummary, detected_eq_length, if_pos hcount, checked_bind_ok,
    runIn_bind]
  unfold protectInstruction
  rw [if_neg hnil, runIn_bind]
  unfold transform
  rw [hnoplan, checked_bind_error]

/-- A refused request leaves the vault's contents as they were, in every
state of the vault, exactly when it is not one that writes first. -/
theorem refusals_leave_nothing_iff (vault : RedisTokenVault)
    (unicode : Unicode) (fingerprinter : Fingerprinter) (t s : UUID)
    (maxEntities : Nat) (analyzed : AnalyzedDocument)
    (detect : Text → Except Exn (List DetectedEntity))
    (instruction : Text) :
    (∀ ops e w', runIn (protect unicode vault.hashes fingerprinter
        vault.like t s maxEntities (.ok analyzed) detect instruction)
        (vault.run VaultState.start ops).world = (.error e, w') →
      e.isRefusal = true →
        w'.redis = (vault.run VaultState.start ops).world.redis) ↔
      ∀ entities,
        detectInstruction unicode detect instruction = .ok entities →
          ¬ WritesFirst vault unicode maxEntities analyzed instruction
            entities := by
  unfold protect
  constructor
  · intro h entities hdetect hw
    obtain ⟨e, w', hrun, hrefusal, id, v, hv⟩ :=
      @WritesFirst.refused instruction entities vault unicode
        fingerprinter t s maxEntities analyzed hw
        (vault.run VaultState.start []).world (run_sound []).typed
    have hsame := h [] e w' (by
      rw [checked_bind_ok, hdetect, checked_bind_ok]
      exact hrun) hrefusal
    rw [hsame] at hv
    cases hv
  · intro h ops e w' hrun hrefusal
    rw [checked_bind_ok] at hrun
    cases hdetect : detectInstruction unicode detect instruction with
    | error e' =>
        rw [hdetect, checked_bind_error] at hrun
        cases hrun
        rfl
    | ok entities =>
        rw [hdetect, checked_bind_ok] at hrun
        rcases protectAnalyzed_refused (run_sound ops).typed hrun
          hrefusal with hsame | hw
        · exact hsame
        · exact absurd hw (h entities hdetect)

end Request

-- ==================================================== one request

/-- A policy that tokenizes names, one of them in a request. -/
def oneNamePolicy : PolicySnapshot where
  policyId := ⟨1⟩
  tenantId := ⟨2⟩
  version := 1
  name := "one-name".toList
  sessionTtlSeconds := 3600
  maxEntities := 1
  unknownOutputTokenAction := .preserve
  entities := [(Detection.personType,
    ⟨.tokenize, 1 / 2, true, none, none, Bounds.half⟩)]
  providers := []

def adaLine : AnalyzedDocument where
  tenantId := ⟨2⟩
  documentId := ⟨3⟩
  segmented :=
    { document :=
        { text := "Ada".toList
          pages := [⟨1, 0, 3, Bounds.one_le_one, Bounds.zero_le_three⟩]
          pages_nonempty := by decide
          pages_tile := by decide }
      segments := [⟨0, 0, 3, [1], Bounds.zero_lt_three⟩] }
  spans := [⟨Detection.personType, 0, 3, 9 / 10, .tokenize, [1], [0],
    Bounds.zero_lt_three, Bounds.nineTenths, Bounds.tokenize_ne_block,
    Bounds.one_nonempty, by decide⟩]
  policy := oneNamePolicy
  spans_ordered := by decide

/-- The detector's answer on an instruction with two names. -/
def detectTwoNames (_ : Text) : Except Exn (List DetectedEntity) :=
  .ok [⟨Detection.personType, 0, 3, 9 / 10, none, Bounds.zero_lt_three,
      Bounds.nineTenths⟩,
    ⟨Detection.personType, 8, 11, 9 / 10, none, by decide,
      Bounds.nineTenths⟩]

/-- The instruction has one name too many: the request is refused, and the
document's mapping stays. -/
theorem refused_instruction_leaves_mapping :
    let vault := Reference.vault (Hashes.ofTables [] [])
    let run := runIn (protect Unicode.ascii vault.hashes
      sampleFingerprinter vault.like ⟨2⟩ ⟨4⟩ 10 (.ok adaLine)
      detectTwoNames "Ada and Bob".toList) VaultState.start.world
    let record := vault.render
      (.token ⟨2⟩ ⟨4⟩ "00000000000000000000000000".toList)
    run.1 = .error (gatewayError .entityLimitExceeded
      [("entity_count", .int 2), ("max_entities", .int 1)]) ∧
    VaultState.start.world.redis.stringAt record = none ∧
    (run.2.redis.stringAt record).isSome = true := by
  decide +kernel

end PrivacyGateway.Documents
