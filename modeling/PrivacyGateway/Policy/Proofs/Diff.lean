/-
What a policy diff can miss.

No change is reported exactly when the two documents are written alike
(`total_eq_zero_iff`): the same types, rules that agree in their fields
and in six digits of their thresholds, the same settings, and one text for
the providers. Documents that are written alike enforce the same unless a
threshold or a permitted model is among what the texts leave out
(`enforceSame_iff`). With names free of separators the text for the providers
leaves nothing out (`permits_of_providersText`), so what is left are
thresholds that six digits do not tell apart: an edit of one is missed
exactly then (`alike_withScore_iff`).
-/
import PrivacyGateway.Lib.Joined
import PrivacyGateway.Policy.Diff

namespace PrivacyGateway.Policy

open Significant

-- ==================================================== written alike

theorem actionValue_injective :
    Function.Injective EntityAction.value := by
  intro a b h
  cases a <;> cases b <;> first | rfl | exact absurd h (by decide)

theorem unknownActionValue_injective :
    Function.Injective UnknownTokenAction.value := by
  intro a b h
  cases a <;> cases b <;> first | rfl | exact absurd h (by decide)

theorem enabledText_injective : Function.Injective enabledText := by
  intro a b h
  cases a <;> cases b <;> first | rfl | exact absurd h (by decide)

theorem priorityText_injective : Function.Injective priorityText := by
  have hdash : ∀ n : Nat, decimal n ≠ absent := by
    intro n h
    unfold decimal absent at h
    rw [if_neg (Int.not_lt.mpr (Int.natCast_nonneg n))] at h
    have hdigit := Nat.isDigit_of_mem_toDigits (b := 10) (by decide)
      (by decide) (h ▸ List.mem_singleton_self '—')
    exact absurd hdigit (by decide)
  intro a b h
  cases a with
  | none =>
      cases b with
      | none => rfl
      | some n => exact absurd h.symm (hdash n)
  | some n =>
      cases b with
      | none => exact absurd h (hdash n)
      | some k => rw [Int.ofNat.inj (decimal_injective h)]

/-- Two rules that are written alike: their fields are the same, a
recognizer that is not there counts as its dash, and the thresholds agree
in six digits. -/
structure AlikeRules (old new : EntityRule) : Prop where
  action : old.action = new.action
  minScore : significant old.minScore = significant new.minScore
  enabled : old.enabled = new.enabled
  priority : old.priority = new.priority
  recognizer : recognizerText old.recognizer =
    recognizerText new.recognizer

/-- Two documents that are written alike. -/
structure Alike (before after : PolicyDocument) : Prop where
  types : ∀ name, (before.entities.get? name).isSome =
    (after.entities.get? name).isSome
  rules : ∀ name old new, before.entities.get? name = some old →
    after.entities.get? name = some new → AlikeRules old new
  sessionTtl : before.sessionTtlSeconds = after.sessionTtlSeconds
  maxEntities : before.maxEntities = after.maxEntities
  unknownAction : before.unknownOutputTokenAction =
    after.unknownOutputTokenAction
  providers : providersText before = providersText after

theorem changedFields_eq_nil_iff {name : Text} {old new : EntityRule} :
    changedFields name old new = [] ↔ AlikeRules old new := by
  have hscore := formatG_eq_iff old.minScore_bounded new.minScore_bounded
  unfold changedFields ruleFields
  simp only [List.zip_cons_cons, List.zip_nil_right,
    List.filterMap_eq_nil_iff, List.forall_mem_cons, ite_eq_left_iff,
    reduceCtorEq, imp_false, not_not, hscore]
  constructor
  · rintro ⟨haction, hminScore, henabled, hpriority, hrecognizer, -⟩
    exact ⟨actionValue_injective haction, hminScore,
      enabledText_injective henabled, priorityText_injective hpriority,
      hrecognizer⟩
  · intro h
    exact ⟨congrArg _ h.action, h.minScore, congrArg _ h.enabled,
      congrArg _ h.priority, h.recognizer, by simp⟩

section Diff

variable {before after : PolicyDocument} {fromVersion toVersion : Int}

theorem entityChange_eq_nil_iff {name : Text} {old new : Option EntityRule} :
    entityChange name old new = [] ↔ old.isSome = new.isSome ∧
      ∀ oldRule ∈ old, ∀ newRule ∈ new, AlikeRules oldRule newRule := by
  cases old with
  | none => cases new <;> simp [entityChange]
  | some old =>
      cases new with
      | none => simp [entityChange]
      | some new => simp [entityChange, changedFields_eq_nil_iff]

theorem mem_entityNames {name : Text} :
    name ∈ entityNames before after ↔
      before.entities.get? name ≠ none ∨
        after.entities.get? name ≠ none := by
  unfold entityNames
  rw [List.mem_insertionSort, List.mem_dedup, List.mem_append, Ne, Ne,
    Dict.get?_eq_none_iff, Dict.get?_eq_none_iff, not_not, not_not]

/-- A type that neither document has changes nothing. -/
theorem entityChanges_eq_nil_iff :
    (diffDocuments before after fromVersion toVersion).entityChanges = [] ↔
      ∀ name, entityChange name (before.entities.get? name)
        (after.entities.get? name) = [] := by
  unfold diffDocuments
  simp only [List.flatMap_eq_nil_iff]
  refine ⟨fun h name => ?_, fun h name _ => h name⟩
  by_cases hname : name ∈ entityNames before after
  · exact h name hname
  · rw [mem_entityNames, not_or, not_not, not_not] at hname
    rw [hname.1, hname.2]
    rfl

theorem settingChanges_eq_nil_iff :
    (diffDocuments before after fromVersion toVersion).settingChanges = [] ↔
      before.sessionTtlSeconds = after.sessionTtlSeconds ∧
      before.maxEntities = after.maxEntities ∧
      before.unknownOutputTokenAction = after.unknownOutputTokenAction ∧
      providersText before = providersText after := by
  have hnumber : ∀ n k : Nat, decimal n = decimal k ↔ n = k := by
    intro n k
    rw [decimal_injective.eq_iff, Nat.cast_inj]
  unfold diffDocuments settingFields
  simp only [List.zip_cons_cons, List.zip_nil_right,
    List.filterMap_eq_nil_iff, List.forall_mem_cons, ite_eq_left_iff,
    reduceCtorEq, imp_false, not_not, hnumber,
    unknownActionValue_injective.eq_iff]
  simp

/-- No change is reported exactly when the documents are written alike. -/
theorem total_eq_zero_iff :
    (diffDocuments before after fromVersion toVersion).total = 0 ↔
      Alike before after := by
  unfold PolicyDiff.total
  rw [Nat.add_eq_zero_iff, List.length_eq_zero_iff,
    List.length_eq_zero_iff, entityChanges_eq_nil_iff,
    settingChanges_eq_nil_iff]
  constructor
  · rintro ⟨hentities, httl, hmax, hunknown, hproviders⟩
    refine ⟨fun name => ?_, fun name old new hold hnew => ?_, httl, hmax,
      hunknown, hproviders⟩
    · exact (entityChange_eq_nil_iff.mp (hentities name)).1
    · exact (entityChange_eq_nil_iff.mp (hentities name)).2 old hold new hnew
  · intro h
    refine ⟨fun name => ?_, h.sessionTtl, h.maxEntities, h.unknownAction,
      h.providers⟩
    exact entityChange_eq_nil_iff.mpr ⟨h.types name,
      fun old hold new hnew => h.rules name old new hold hnew⟩

end Diff

-- ==================================================== what is enforced

/-- The document permits the model under the alias. -/
def Permits (document : PolicyDocument) (providerAlias modelAlias : Text) :
    Prop :=
  ∃ models, document.providers.get? providerAlias = some models ∧
    modelAlias ∈ models

/-- Two snapshots enforce the same. -/
structure EnforceSame (policy other : PolicySnapshot) : Prop where
  action : ∀ entityType,
    policy.actionFor entityType = other.actionFor entityType
  minScore : ∀ entityType,
    policy.minScoreFor entityType = other.minScoreFor entityType
  maxEntities : policy.maxEntities = other.maxEntities
  sessionTtl : policy.sessionTtlSeconds = other.sessionTtlSeconds
  unknownAction : policy.unknownOutputTokenAction =
    other.unknownOutputTokenAction
  models : ∀ providerAlias modelAlias,
    policy.allowsModel providerAlias modelAlias =
      other.allowsModel providerAlias modelAlias

section Snapshot

variable {document : PolicyDocument} (policyId tenantId : UUID)
  (version : Int)

/-- The rule a snapshot has is the document's, if it is enabled. -/
theorem get?_fromDocument (h : Valid document) (entityType : Text) :
    (PolicySnapshot.fromDocument document policyId tenantId
      version).entities.get? entityType =
        (document.entities.get? entityType).filter (·.enabled) := by
  rw [← Dict.get?_filter h.entities_distinct]
  refine (Dict.get?_of_perm ?_ (List.perm_insertionSort _ _).symm _).symm
  exact h.entities_distinct.sublist (List.filter_sublist.map Prod.fst)

theorem allowsModel_fromDocument (h : Valid document)
    (providerAlias modelAlias : Text) :
    (PolicySnapshot.fromDocument document policyId tenantId
      version).allowsModel providerAlias modelAlias = true ↔
        Permits document providerAlias modelAlias := by
  have hproviders : (PolicySnapshot.fromDocument document policyId tenantId
      version).providers.get? providerAlias =
        document.providers.get? providerAlias :=
    (Dict.get?_of_perm h.providers_distinct
      (List.perm_insertionSort _ _).symm _).symm
  unfold PolicySnapshot.allowsModel Permits
  rw [hproviders]
  cases document.providers.get? providerAlias <;> simp

end Snapshot

-- ==================================================== what a diff misses

/-- A difference that the texts leave out: the threshold of an enabled
rule, or a model that only one document permits. -/
inductive Missed (before after : PolicyDocument) : Prop
  | threshold (entityType : Text) (old new : EntityRule)
      (before_rule : before.entities.get? entityType = some old)
      (after_rule : after.entities.get? entityType = some new)
      (enabled : old.enabled = true)
      (differ : old.minScore ≠ new.minScore)
  | model (providerAlias modelAlias : Text)
      (differ : ¬ (Permits before providerAlias modelAlias ↔
        Permits after providerAlias modelAlias))

section Enforced

variable {before after : PolicyDocument}

/-- What two documents that are written alike have under one type. -/
theorem Alike.lookup (h : Alike before after) (entityType : Text) :
    (before.entities.get? entityType = none ∧
      after.entities.get? entityType = none) ∨
    ∃ old new, before.entities.get? entityType = some old ∧
      after.entities.get? entityType = some new ∧ AlikeRules old new := by
  have htypes := h.types entityType
  cases hold : before.entities.get? entityType with
  | none =>
      rw [hold] at htypes
      exact Or.inl ⟨rfl, Option.isSome_eq_false_iff.mp htypes.symm |>
        Option.isNone_iff_eq_none.mp⟩
  | some old =>
      rw [hold] at htypes
      obtain ⟨new, hnew⟩ := Option.isSome_iff_exists.mp htypes.symm
      exact Or.inr ⟨old, new, rfl, hnew,
        h.rules entityType old new hold hnew⟩

variable (policyId tenantId otherId otherTenant : UUID)
  (version otherVersion : Int)

/-- Documents written alike enforce the same exactly when the texts left
nothing out. -/
theorem enforceSame_iff (hbefore : Valid before) (hafter : Valid after)
    (h : Alike before after) :
    EnforceSame (.fromDocument before policyId tenantId version)
        (.fromDocument after otherId otherTenant otherVersion) ↔
      ¬ Missed before after := by
  constructor
  · intro hsame hmissed
    cases hmissed with
    | threshold entityType old new hold hnew henabled hdiffer =>
        have hscore := hsame.minScore entityType
        unfold PolicySnapshot.minScoreFor at hscore
        rw [get?_fromDocument _ _ _ hbefore, get?_fromDocument _ _ _ hafter,
          hold, hnew, Option.filter_some_pos henabled,
          Option.filter_some_pos
            ((h.rules _ _ _ hold hnew).enabled ▸ henabled)] at hscore
        exact hdiffer hscore
    | model providerAlias modelAlias hdiffer =>
        have hmodels := hsame.models providerAlias modelAlias
        rw [Bool.eq_iff_iff, allowsModel_fromDocument _ _ _ hbefore,
          allowsModel_fromDocument _ _ _ hafter] at hmodels
        exact hdiffer hmodels
  · intro hnone
    refine ⟨fun entityType => ?_, fun entityType => ?_, h.maxEntities,
      h.sessionTtl, h.unknownAction, fun providerAlias modelAlias => ?_⟩
    · unfold PolicySnapshot.actionFor
      rw [get?_fromDocument _ _ _ hbefore, get?_fromDocument _ _ _ hafter]
      rcases h.lookup entityType with ⟨hold, hnew⟩ |
        ⟨old, new, hold, hnew, halike⟩
      · rw [hold, hnew]
      · rw [hold, hnew, Option.filter_some, Option.filter_some,
          halike.enabled]
        cases new.enabled
        · rfl
        · exact halike.action
    · unfold PolicySnapshot.minScoreFor
      rw [get?_fromDocument _ _ _ hbefore, get?_fromDocument _ _ _ hafter]
      rcases h.lookup entityType with ⟨hold, hnew⟩ |
        ⟨old, new, hold, hnew, halike⟩
      · rw [hold, hnew]
      · rw [hold, hnew, Option.filter_some, Option.filter_some,
          halike.enabled]
        cases henabled : new.enabled
        · rfl
        · by_contra hdiffer
          exact hnone (.threshold entityType old new hold hnew
            (halike.enabled.trans henabled) hdiffer)
    · rw [Bool.eq_iff_iff, allowsModel_fromDocument _ _ _ hbefore,
        allowsModel_fromDocument _ _ _ hafter]
      by_contra hdiffer
      exact hnone (.model providerAlias modelAlias hdiffer)

end Enforced

-- ==================================================== plain names

/-- No name of the document has the characters that separate them. -/
structure Plain (document : PolicyDocument) : Prop where
  aliases : ∀ e ∈ document.providers, ':' ∉ e.1 ∧ ';' ∉ e.1
  models : ∀ e ∈ document.providers, ∀ model ∈ e.2,
    ';' ∉ model ∧ ',' ∉ model

theorem providerText_eq (entry : Text × List Text) :
    providerText entry = entry.1 ++ ':' :: ' ' ::
      ", ".toList.intercalate (entry.2.insertionSort (· ≤ ·)) := by
  unfold providerText
  rw [List.append_assoc]
  rfl

/-- What is not in the parts and not in the separator is not in the
text. -/
theorem not_mem_intercalate {c : Char} {separator : Text}
    (hseparator : c ∉ separator) {parts : List Text}
    (h : ∀ part ∈ parts, c ∉ part) : c ∉ separator.intercalate parts := by
  induction parts with
  | nil => simp
  | cons part parts ih =>
      obtain ⟨hpart, hparts⟩ := List.forall_mem_cons.mp h
      by_cases hnil : parts = []
      · rw [hnil, List.intercalate_singleton]
        exact hpart
      · rw [List.intercalate_cons_of_ne_nil hnil, List.mem_append,
          List.mem_append]
        rintro ((hmem | hmem) | hmem)
        · exact hpart hmem
        · exact hseparator hmem
        · exact ih hparts hmem

theorem Plain.separator_not_mem {document : PolicyDocument}
    (h : Plain document) {e : Text × List Text}
    (he : e ∈ document.providers) : ';' ∉ providerText e := by
  rw [providerText_eq, List.mem_append, List.mem_cons, List.mem_cons]
  rintro (hmem | hmem | hmem | hmem)
  · exact (h.aliases e he).2 hmem
  · exact absurd hmem (by decide)
  · exact absurd hmem (by decide)
  · refine not_mem_intercalate (by decide) (fun model hmodel => ?_) hmem
    exact (h.models e he model ((List.mem_insertionSort _).mp hmodel)).1

/-- Sorting leaves nothing out. -/
theorem insertionSort_ne_nil {α : Type} {r : α → α → Prop}
    [DecidableRel r] {l : List α} (h : l ≠ []) : l.insertionSort r ≠ [] := by
  intro hnil
  exact h (List.perm_nil.mp (hnil ▸ List.perm_insertionSort r l).symm)

section Plain

variable {before after : PolicyDocument}

/-- With plain names, an entry's text is the entry, up to the order of its
models. -/
theorem entry_of_providerText {e e' : Text × List Text}
    (hbefore : Plain before) (hafter : Plain after)
    (he : e ∈ before.providers) (he' : e' ∈ after.providers)
    (hne : e.2 ≠ []) (hne' : e'.2 ≠ [])
    (h : providerText e = providerText e') :
    e.1 = e'.1 ∧ ∀ model, model ∈ e.2 ↔ model ∈ e'.2 := by
  rw [providerText_eq, providerText_eq] at h
  obtain ⟨halias, hrest⟩ := Joined.split_unique (hbefore.aliases e he).1
    (hafter.aliases e' he').1 h
  injection hrest with _ hmodels
  have hsorted := Joined.intercalate_inj ?_ ?_ ?_ ?_ hmodels
  · refine ⟨halias, fun model => ?_⟩
    rw [← List.mem_insertionSort (· ≤ ·), hsorted,
      List.mem_insertionSort]
  · exact insertionSort_ne_nil hne
  · exact insertionSort_ne_nil hne'
  · intro model hmodel
    exact (hbefore.models e he model ((List.mem_insertionSort _).mp hmodel)).2
  · intro model hmodel
    exact (hafter.models e' he' model ((List.mem_insertionSort _).mp hmodel)).2

theorem permits_of_providersText (hbefore : Valid before)
    (hafter : Valid after) (hplain : Plain before) (hplain' : Plain after)
    (h : providersText before = providersText after)
    {providerAlias modelAlias : Text}
    (hpermits : Permits before providerAlias modelAlias) :
    Permits after providerAlias modelAlias := by
  obtain ⟨models, hget, hmodel⟩ := hpermits
  have he : (providerAlias, models) ∈ before.providers :=
    Dict.mem_of_get? hget
  have htexts := Joined.intercalate_inj ?_ ?_ ?_ ?_ h
  · have hmem : providerText (providerAlias, models) ∈
        (after.providers.insertionSort (fun a b => a.1 ≤ b.1)).map
          providerText := by
      rw [← htexts]
      exact List.mem_map_of_mem ((List.mem_insertionSort _).mpr he)
    obtain ⟨e', he', htext⟩ := List.mem_map.mp hmem
    have he' := (List.mem_insertionSort _).mp he'
    obtain ⟨halias, hmodels⟩ := entry_of_providerText hplain hplain' he he'
      (hbefore.models_nonempty _ he) (hafter.models_nonempty _ he')
      htext.symm
    refine ⟨e'.2, ?_, (hmodels modelAlias).mp hmodel⟩
    rw [Dict.get?_eq_some_iff hafter.providers_distinct]
    rw [show providerAlias = e'.1 from halias]
    exact he'
  · rw [Ne, List.map_eq_nil_iff]
    exact insertionSort_ne_nil hbefore.providers_nonempty
  · rw [Ne, List.map_eq_nil_iff]
    exact insertionSort_ne_nil hafter.providers_nonempty
  · intro text htext
    obtain ⟨e, he, rfl⟩ := List.mem_map.mp htext
    exact hplain.separator_not_mem ((List.mem_insertionSort _).mp he)
  · intro text htext
    obtain ⟨e, he, rfl⟩ := List.mem_map.mp htext
    exact hplain'.separator_not_mem ((List.mem_insertionSort _).mp he)

/-- Six digits tell the thresholds of enabled rules apart, and the names
are plain where the providers are not the same. -/
structure ToldApart (before after : PolicyDocument) : Prop where
  thresholds : ∀ name old new, before.entities.get? name = some old →
    after.entities.get? name = some new → old.enabled = true →
      significant old.minScore = significant new.minScore →
        old.minScore = new.minScore
  providers : before.providers = after.providers ∨
    (Plain before ∧ Plain after)

/-- Then written alike is enforced alike. -/
theorem ToldApart.not_missed (hbefore : Valid before)
    (hafter : Valid after) (h : ToldApart before after)
    (halike : Alike before after) : ¬ Missed before after := by
  intro hmissed
  cases hmissed with
  | threshold entityType old new hold hnew henabled hdiffer =>
      exact hdiffer (h.thresholds entityType old new hold hnew henabled
        (halike.rules entityType old new hold hnew).minScore)
  | model providerAlias modelAlias hdiffer =>
      apply hdiffer
      rcases h.providers with hsame | ⟨hplain, hplain'⟩
      · unfold Permits
        rw [hsame]
      · exact ⟨permits_of_providersText hbefore hafter hplain hplain'
          halike.providers, permits_of_providersText hafter hbefore hplain'
            hplain halike.providers.symm⟩

end Plain

-- ==================================================== one threshold

section Threshold

variable {document : PolicyDocument} {name : Text} {rule : EntityRule}
  {score : Rat}

/-- The document with another threshold for a type. -/
def withScore (document : PolicyDocument) (name : Text) (rule : EntityRule)
    (score : Rat) (h : 0 ≤ score ∧ score ≤ 1) : PolicyDocument :=
  { document with
    entities := document.entities.set name
      { rule with minScore := score, minScore_bounded := h } }

theorem Valid.withScore (hvalid : Valid document)
    (hrule : document.entities.get? name = some rule)
    (h : 0 ≤ score ∧ score ≤ 1) :
    Valid (withScore document name rule score h) := by
  have hmem := Dict.mem_of_get? hrule
  have hkey : name ∈ document.entities.keys := List.mem_map_of_mem hmem
  refine { hvalid with
    entities_nonempty := ?_
    entities_distinct := Dict.nodup_keys_set hvalid.entities_distinct _ _
    type_length := ?_
    priority_le := ?_
    recognizer_length := ?_ }
  · intro hnil
    have hget := Dict.get?_set_self document.entities name
      { rule with minScore := score, minScore_bounded := h }
    rw [show document.entities.set name _ = [] from hnil] at hget
    cases hget
  · intro other hother
    rcases Dict.mem_keys_set.mp hother with rfl | hother
    · exact hvalid.type_length _ hkey
    · exact hvalid.type_length other hother
  · intro e he
    rcases Dict.mem_set he with rfl | he
    · exact hvalid.priority_le (name, rule) hmem
    · exact hvalid.priority_le e he
  · intro e he
    rcases Dict.mem_set he with rfl | he
    · exact hvalid.recognizer_length (name, rule) hmem
    · exact hvalid.recognizer_length e he

/-- An edit of one threshold leaves the document written alike exactly
when the two agree in six digits. -/
theorem alike_withScore_iff
    (hrule : document.entities.get? name = some rule)
    (h : 0 ≤ score ∧ score ≤ 1) :
    Alike document (withScore document name rule score h) ↔
      significant rule.minScore = significant score := by
  constructor
  · intro halike
    exact (halike.rules name rule _ hrule (Dict.get?_set_self _ _ _)).minScore
  · intro hsame
    refine ⟨fun other => ?_, fun other old new hold hnew => ?_, rfl, rfl,
      rfl, rfl⟩
    · unfold withScore
      rw [Dict.get?_set]
      split
      · rename_i heq
        rw [← heq, hrule]
        rfl
      · rfl
    · unfold withScore at hnew
      rw [Dict.get?_set] at hnew
      split at hnew
      · rename_i heq
        subst heq
        rw [hrule] at hold
        cases hold
        cases hnew
        exact ⟨rfl, hsame, rfl, rfl, rfl⟩
      · rw [hold] at hnew
        cases hnew
        exact ⟨rfl, rfl, rfl, rfl, rfl⟩

/-- Enforcement differs exactly when the thresholds do. -/
theorem missed_withScore_iff
    (hrule : document.entities.get? name = some rule)
    (henabled : rule.enabled = true) (h : 0 ≤ score ∧ score ≤ 1) :
    Missed document (withScore document name rule score h) ↔
      rule.minScore ≠ score := by
  constructor
  · intro hmissed
    cases hmissed with
    | threshold entityType old new hold hnew _ hdiffer =>
        unfold withScore at hnew
        rw [Dict.get?_set] at hnew
        split at hnew
        · rename_i heq
          subst heq
          rw [hrule] at hold
          cases hold
          cases hnew
          exact hdiffer
        · rw [hold] at hnew
          cases hnew
          exact absurd rfl hdiffer
    | model providerAlias modelAlias hdiffer =>
        exact absurd Iff.rfl hdiffer
  · intro hdiffer
    exact .threshold name rule _ hrule (Dict.get?_set_self _ _ _) henabled
      hdiffer

end Threshold

-- ==================================================== what a diff detects

/-- A diff of no changes means that the same is enforced. -/
def Detects (before after : PolicyDocument) : Prop :=
  ∀ fromVersion toVersion,
    (diffDocuments before after fromVersion toVersion).total = 0 →
      ∀ policyId tenantId version otherId otherTenant otherVersion,
        EnforceSame (.fromDocument before policyId tenantId version)
          (.fromDocument after otherId otherTenant otherVersion)

theorem detects_iff {before after : PolicyDocument} (hbefore : Valid before)
    (hafter : Valid after) :
    Detects before after ↔ (Alike before after → ¬ Missed before after) := by
  unfold Detects
  constructor
  · intro h halike
    exact (enforceSame_iff ⟨0⟩ ⟨0⟩ ⟨0⟩ ⟨0⟩ 1 2 hbefore hafter halike).mp
      (h 1 2 (total_eq_zero_iff.mpr halike) _ _ _ _ _ _)
  · intro h _ _ htotal policyId tenantId version otherId otherTenant
      otherVersion
    have halike := total_eq_zero_iff.mp htotal
    exact (enforceSame_iff policyId tenantId otherId otherTenant version
      otherVersion hbefore hafter halike).mpr (h halike)

/-- A diff detects every change of what is enforced, where six digits tell
the thresholds apart and the names are plain. Where one threshold is
edited, it does exactly when six digits tell the two apart. -/
theorem diff_detects (before : ValidDocument) :
    (∀ after : ValidDocument, ToldApart before after →
      Detects before after) ∧
    ∀ name rule, before.1.entities.get? name = some rule →
      rule.enabled = true → ∀ score (h : 0 ≤ score ∧ score ≤ 1),
        Valid (withScore before name rule score h) ∧
        (Detects before (withScore before name rule score h) ↔
          (significant rule.minScore = significant score →
            rule.minScore = score)) := by
  constructor
  · intro after htold
    exact (detects_iff before.2 after.2).mpr
      (htold.not_missed before.2 after.2)
  · intro name rule hrule henabled score h
    have hvalid := before.2.withScore hrule h
    refine ⟨hvalid, ?_⟩
    rw [detects_iff before.2 hvalid, alike_withScore_iff hrule,
      missed_withScore_iff hrule henabled, not_not]

section Counterexamples

theorem aboveHalf : (0 : Rat) ≤ 1 / 2 + 1 / 2 ^ 30 ∧
    (1 : Rat) / 2 + 1 / 2 ^ 30 ≤ 1 := by
  decide +kernel

/-- A document with one rule, at this threshold. -/
def scored (score : Rat) (h : 0 ≤ score ∧ score ≤ 1)
    (providers : Dict Text (List Text)) : PolicyDocument where
  name := "default".toList
  sessionTtlSeconds := 3600
  maxEntities := 100
  providers := providers
  entities := [("EMAIL_ADDRESS".toList,
    ⟨.tokenize, score, true, none, none, h⟩)]
  sessionTtl_bounded := hour_le_maxSessionTtl
  maxEntities_bounded := hundred_le_maxEntityBudget

/-- One provider, whose model has the separators in its name. -/
def joined : Dict Text (List Text) :=
  [("a".toList, ["b; c: d".toList])]

/-- Two providers with a model each. -/
def apart : Dict Text (List Text) :=
  [("a".toList, ["b".toList]), ("c".toList, ["d".toList])]

theorem valid_joined {score : Rat} (h : 0 ≤ score ∧ score ≤ 1) :
    Valid (scored score h joined) := by
  constructor <;> simp [scored, joined, Dict.keys, maxPolicyNameChars,
    maxProviderAliasChars, maxModelAliasChars, maxEntityTypeChars]

theorem valid_apart {score : Rat} (h : 0 ≤ score ∧ score ≤ 1) :
    Valid (scored score h apart) := by
  constructor <;> simp [scored, apart, Dict.keys, maxPolicyNameChars,
    maxProviderAliasChars, maxModelAliasChars, maxEntityTypeChars]

/-- A threshold that is raised by less than the sixth digit, and a model
that becomes a provider: neither is reported. -/
theorem unreported_changes :
    (Valid (scored (1 / 2) Bounds.half joined) ∧
      Valid (scored (1 / 2 + 1 / 2 ^ 30) aboveHalf joined) ∧
      (diffDocuments (scored (1 / 2) Bounds.half joined)
        (scored (1 / 2 + 1 / 2 ^ 30) aboveHalf joined) 1 2).total = 0 ∧
      PolicySnapshot.minScoreFor
          (.fromDocument (scored (1 / 2) Bounds.half joined) ⟨1⟩ ⟨0⟩ 1)
          "EMAIL_ADDRESS".toList ≠
        PolicySnapshot.minScoreFor
          (.fromDocument (scored (1 / 2 + 1 / 2 ^ 30) aboveHalf joined)
            ⟨2⟩ ⟨0⟩ 2) "EMAIL_ADDRESS".toList) ∧
    Valid (scored (1 / 2) Bounds.half apart) ∧
      (diffDocuments (scored (1 / 2) Bounds.half joined)
        (scored (1 / 2) Bounds.half apart) 1 2).total = 0 ∧
      PolicySnapshot.allowsModel
          (.fromDocument (scored (1 / 2) Bounds.half joined) ⟨1⟩ ⟨0⟩ 1)
          "c".toList "d".toList = false ∧
      PolicySnapshot.allowsModel
          (.fromDocument (scored (1 / 2) Bounds.half apart) ⟨2⟩ ⟨0⟩ 2)
          "c".toList "d".toList = true := by
  refine ⟨⟨valid_joined _, valid_joined _, ?_, ?_⟩, valid_apart _, ?_, ?_,
    ?_⟩
  all_goals decide +kernel

end Counterexamples

end PrivacyGateway.Policy
