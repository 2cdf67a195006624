/-
What the detector's overlap resolution may hide from the policy.

The detector resolves overlaps under its own thresholds; the policy's
thresholds are applied afterwards, by span selection. A span can
therefore win in the detector and be dropped by the policy, and what it
beat is then lost.

`NeverHides` says this never happens under a configuration and a policy:
every candidate that passes the detector's filters and the policy's
threshold overlaps a selected span. `ThresholdsAligned` is the condition
on the two threshold tables and the severity table under which it holds,
and `neverHides_iff` proves the condition exact. One direction follows a
lost candidate to the span that dominates it; the other builds, from a
misaligned pair of types, a text and two candidates that show the loss.
-/
import Mathlib.Tactic.Linarith
import PrivacyGateway.Detection.Postprocess
import PrivacyGateway.Tokenization.Selection

namespace PrivacyGateway.Detection

open Splice Tokenization

variable (unicode : Unicode) (config : DetectionConfig)
  (policy : PolicySnapshot)

-- ==================================================== the statement

/-- Every candidate that passes the detector's filters and the policy's
threshold overlaps a span that selection acts on. -/
def NeverHides : Prop :=
  ∀ (text : Text) (candidates : List Candidate)
    (result selected : List DetectedEntity),
    finalize unicode config candidates text = .ok result →
    selectEntities text result policy = .ok selected →
    ∀ c ∈ candidates, Passes unicode config text none c →
      policy.minScoreFor c.entityType ≤ c.score →
      ∃ s ∈ selected, c.start < s.stop ∧ (s.start : Int) < c.stop

/-- The lowest score a reported span of the type can have and still be
one the policy is sure of. -/
def confidentFloor (entityType : Text) : Rat :=
  max (min 1 (config.thresholdFor entityType))
    (policy.minScoreFor entityType)

/-- A type whose reported spans the policy may drop never outranks an
enabled type, and where it ranks level it scores below every span of that
type the policy is sure of. -/
def ThresholdsAligned : Prop :=
  ∀ t ∈ config.enabledEntities, ∀ u ∈ config.enabledEntities,
    config.thresholdFor t < policy.minScoreFor t →
      severityOf config.entityPriority t ≤
          severityOf config.entityPriority u ∧
        (severityOf config.entityPriority t =
            severityOf config.entityPriority u →
          policy.minScoreFor t ≤ confidentFloor config policy u)

instance : Decidable (ThresholdsAligned config policy) :=
  inferInstanceAs (Decidable (∀ t ∈ _, ∀ u ∈ _, _ → _ ∧ (_ → _)))

variable {unicode config policy}

-- ==================================================== aligned tables

/-- Under aligned tables, a reported span that dominates one the policy
is sure of is itself one the policy is sure of. -/
theorem confident_of_dominates (halign : ThresholdsAligned config policy)
    {k e : DetectedEntity}
    (hk : k.entityType ∈ config.enabledEntities ∧
      min 1 (config.thresholdFor k.entityType) ≤ k.score)
    (he : e.entityType ∈ config.enabledEntities ∧
      min 1 (config.thresholdFor e.entityType) ≤ e.score)
    (hconf : policy.minScoreFor e.entityType ≤ e.score)
    (hdom : dominanceKey config.entityPriority k ≤
      dominanceKey config.entityPriority e) :
    policy.minScoreFor k.entityType ≤ k.score := by
  by_contra hlow
  have hlow : k.score < policy.minScoreFor k.entityType := not_le.mp hlow
  have hone := (policy.minScoreFor_bounded k.entityType).2
  -- the dominating span clears the detector's threshold below the policy's
  have hthr : config.thresholdFor k.entityType <
      policy.minScoreFor k.entityType := by
    by_contra hle
    have : policy.minScoreFor k.entityType ≤
        min 1 (config.thresholdFor k.entityType) :=
      le_min hone (not_lt.mp hle)
    linarith [hk.2]
  obtain ⟨hsev, hlevel⟩ := halign _ hk.1 _ he.1 hthr
  rcases severity_of_dominates hdom with hlt | ⟨heq, hscore⟩
  · omega
  · have hfloor := hlevel heq
    have : confidentFloor config policy e.entityType ≤ e.score :=
      max_le he.2 hconf
    linarith

section Covers

variable {text : Text} {candidates : List Candidate}
  {result : List DetectedEntity} {c : Candidate}

/-- The candidate's span overlaps the entity's. -/
def Overlapped (c : Candidate) (k : DetectedEntity) : Prop :=
  c.start < k.stop ∧ (k.start : Int) < c.stop

/-- The policy is as sure of a span as of the candidate it stands for. -/
theorem sure_iff_of_stands {e : DetectedEntity}
    (hpass : Passes unicode config text none c) (hstands : Stands c e) :
    policy.minScoreFor e.entityType ≤ e.score ↔
      policy.minScoreFor c.entityType ≤ c.score := by
  rw [hstands.entityType_eq, hstands.score_eq]
  exact le_clampScore_iff
    (le_trans (config.thresholdFor_nonneg _) hpass.reportable)
    (policy.minScoreFor_bounded _).2

/-- A candidate that passes the filters overlaps a reported span, which is
its own or one that dominates it. -/
theorem finalize_covers
    (hfin : finalize unicode config candidates text = .ok result)
    (hc : c ∈ candidates) (hpass : Passes unicode config text none c) :
    ∃ e k, Stands c e ∧ e ∈ survivors unicode config candidates text none ∧
      k ∈ survivors unicode config candidates text none ∧
      withoutRecognizer k ∈ result ∧ Overlapped c (withoutRecognizer k) ∧
      (k = e ∨ dominanceKey config.entityPriority k ≤
        dominanceKey config.entityPriority e) := by
  obtain ⟨-, hresult⟩ := finalize_ok_iff.mp hfin
  obtain ⟨e, haccept⟩ := accept_of_passes hpass
  obtain ⟨-, hstands⟩ := accept_eq_some haccept
  have he : e ∈ survivors unicode config candidates text none :=
    mem_survivors.mpr ⟨c, hc, haccept⟩
  have hfound : ∃ k ∈ Detection.resolveOverlaps config.entityPriority
      (survivors unicode config candidates text none),
      e.overlaps k = true ∧ (k = e ∨ dominanceKey config.entityPriority k ≤
        dominanceKey config.entityPriority e) := by
    rcases Detection.resolveOverlaps_covers config.entityPriority he with
      hmem | ⟨k, hk, hover, hdom⟩
    · exact ⟨e, hmem, e.overlaps_self, Or.inl rfl⟩
    · exact ⟨k, hk, hover, Or.inr hdom⟩
  obtain ⟨k, hk, hover, hdom⟩ := hfound
  obtain ⟨h1, h2⟩ := DetectedEntity.overlaps_iff.mp hover
  have hstart := hstands.start_eq
  have hstop := hstands.stop_eq
  refine ⟨e, k, hstands, he, Detection.mem_of_mem_resolveOverlaps hk, ?_,
    ⟨?_, ?_⟩, hdom⟩
  · rw [hresult]
    exact List.mem_map.mpr ⟨k, hk, rfl⟩
  · rw [withoutRecognizer_stop]
    omega
  · rw [withoutRecognizer_start]
    omega

/-- Under aligned tables, a candidate the policy is sure of overlaps a
reported span the policy is sure of. -/
theorem finalize_covers_confident (halign : ThresholdsAligned config policy)
    (hfin : finalize unicode config candidates text = .ok result)
    (hc : c ∈ candidates) (hpass : Passes unicode config text none c)
    (hconf : policy.minScoreFor c.entityType ≤ c.score) :
    ∃ k ∈ result, Overlapped c k ∧
      policy.minScoreFor k.entityType ≤ k.score := by
  obtain ⟨e, k, hstands, he, hk, hmem, hover, hdom⟩ :=
    finalize_covers hfin hc hpass
  have hconf' := (sure_iff_of_stands hpass hstands).mpr hconf
  refine ⟨withoutRecognizer k, hmem, hover, ?_⟩
  rw [withoutRecognizer_entityType, withoutRecognizer_score]
  rcases hdom with rfl | hdom
  · exact hconf'
  · exact confident_of_dominates halign (threshold_le_of_mem_survivors hk)
      (threshold_le_of_mem_survivors he) hconf' hdom

end Covers

theorem neverHides_of_aligned (halign : ThresholdsAligned config policy) :
    NeverHides unicode config policy := by
  intro text candidates result selected hfin hsel c hc hpass hconf
  obtain ⟨k, hk, hover, hsure⟩ :=
    finalize_covers_confident halign hfin hc hpass hconf
  obtain ⟨-, hselected⟩ := selectEntities_ok_iff.mp hsel
  refine ⟨k, ?_, hover⟩
  -- the reported spans do not overlap: selection keeps every confident one
  rw [hselected, Tokenization.resolveOverlaps_eq_self
    ((finalize_chain hfin).filter _)]
  exact List.mem_filter.mpr ⟨hk, isConfident_iff.mpr hsure⟩

-- ==================================================== misaligned tables

/-- A text every value check accepts: a card number of thirteen zeros and
`k` letters after it, which no check reads. -/
def plainText (k : Nat) : Text :=
  List.replicate 13 '0' ++ List.replicate k 'x'

theorem mem_plainText {k : Nat} {char : Char} (h : char ∈ plainText k) :
    char = '0' ∨ char = 'x' := by
  rcases List.mem_append.mp h with h | h
  · exact Or.inl (List.eq_of_mem_replicate h)
  · exact Or.inr (List.eq_of_mem_replicate h)

theorem length_plainText (k : Nat) : (plainText k).length = 13 + k := by
  rw [plainText, List.length_append, List.length_replicate,
    List.length_replicate]

/-- A prefix of such a text is one. -/
theorem slice_plainText {k n : Nat} (hk : k ≤ n) :
    slice (plainText n) 0 (13 + k) = plainText k := by
  unfold slice plainText
  rw [List.drop_zero, List.take_append, List.length_replicate,
    List.take_of_length_le (by simp), Nat.add_sub_cancel_left,
    List.take_replicate, Nat.min_eq_left hk]

theorem valueIsValid_plainText (c : Candidate) (k : Nat) :
    valueIsValid unicode c (plainText k) = true := by
  have hzero : unicode.isDigit '0' = true := by
    rw [unicode.isDigit_ascii '0' (by decide)]
    decide
  have hx : unicode.isDigit 'x' = false := by
    rw [unicode.isDigit_ascii 'x' (by decide)]
    decide
  have hdigits : digitsOnly unicode (plainText k) =
      List.replicate 13 '0' := by
    simp [digitsOnly, plainText, hzero, hx]
  have hagain : digitsOnly unicode (List.replicate 13 '0') =
      List.replicate 13 '0' := by
    simp [digitsOnly, hzero]
  have hcard : isValidCreditCard unicode (plainText k) = true := by
    unfold isValidCreditCard luhnIsValid
    rw [hdigits]
    simp only [hagain]
    decide
  unfold valueIsValid valueValidator
  by_cases htype : c.entityType = creditCardType
  · rw [if_pos htype]
    exact hcard
  · rw [if_neg htype]

/-- The allowlist compares such a text as it stands. -/
theorem normalize_plainText (k : Nat) :
    normalizeAllowlistValue unicode (plainText k) = plainText k := by
  have hspace : ∀ char ∈ plainText k, unicode.isSpace char = false := by
    intro char hchar
    rcases mem_plainText hchar with rfl | rfl
    · rw [unicode.isSpace_ascii '0' (by decide)]
      decide
    · rw [unicode.isSpace_ascii 'x' (by decide)]
      decide
  have hfold : ∀ text : Text, (∀ char ∈ text, char = '0' ∨ char = 'x') →
      unicode.casefoldText text = text := by
    intro text htext
    induction text with
    | nil => rfl
    | cons char text ih =>
        obtain ⟨hchar, htext⟩ := List.forall_mem_cons.mp htext
        have hone : unicode.casefold char = [char] := by
          rcases hchar with rfl | rfl
          · exact unicode.casefold_ascii '0' (by decide)
          · exact unicode.casefold_ascii 'x' (by decide)
        unfold Unicode.casefoldText at ih ⊢
        rw [List.flatMap_cons, hone, ih htext]
        rfl
  unfold normalizeAllowlistValue
  rw [unicode.strip_eq_self hspace]
  exact hfold _ (fun char h => mem_plainText h)

/-- Past the longest entry of the allowlist, nothing is allowlisted. -/
theorem exists_not_allowlisted (unicode : Unicode)
    (config : DetectionConfig) : ∃ n, ∀ k, n ≤ k →
      config.isAllowlisted unicode (plainText k) = false := by
  have hbound : ∀ l : List Text, ∃ n, ∀ v ∈ l, v.length ≤ n := by
    intro l
    induction l with
    | nil => exact ⟨0, fun v hv => absurd hv (List.not_mem_nil)⟩
    | cons v l ih =>
        obtain ⟨n, hn⟩ := ih
        refine ⟨max v.length n, fun w hw => ?_⟩
        rcases List.mem_cons.mp hw with rfl | hw
        · exact le_max_left _ _
        · exact le_trans (hn w hw) (le_max_right _ _)
  obtain ⟨n, hn⟩ := hbound config.allowlist
  refine ⟨n, fun k hk => ?_⟩
  unfold DetectionConfig.isAllowlisted
  by_cases hempty : config.allowlist = []
  · rw [if_pos hempty]
  · rw [if_neg hempty, normalize_plainText]
    by_contra hmem
    have hmem : plainText k ∈ config.allowlist := by
      simpa using hmem
    have := hn _ hmem
    rw [length_plainText] at this
    omega

/-- A candidate over a prefix of a plain text, at a score its type's
threshold allows, passes the filters. -/
theorem passes_plainText {entityType : Text} {k n : Nat} {score : Rat}
    (htype : entityType ∈ config.enabledEntities)
    (hscore : config.thresholdFor entityType ≤ score) (hk : k ≤ n)
    (hallow : config.isAllowlisted unicode (plainText k) = false) :
    Passes unicode config (plainText n) none
      { entityType := entityType, start := 0, stop := ((13 + k : Nat) : Int)
        score := score } := by
  have hvalue : Candidate.valueIn
      { entityType := entityType, start := 0, stop := ((13 + k : Nat) : Int)
        score := score } (plainText n) = plainText k := by
    show slice (plainText n) 0 (13 + k) = plainText k
    exact slice_plainText hk
  refine ⟨htype, ?_, ?_, ?_, hscore⟩
  · unfold Candidate.SpanIsValid
    rw [length_plainText]
    refine ⟨le_refl 0, ?_, ?_⟩ <;> simp only <;> omega
  · rw [hvalue]
    exact valueIsValid_plainText _ k
  · rw [hvalue]
    exact hallow

/-- Of two spans that start together, the dominating one alone is
kept. -/
theorem resolveOverlaps_pair {priority : Dict Text Int}
    {a b : DetectedEntity}
    (hdom : dominanceKey priority a ≤ dominanceKey priority b)
    (hover : b.overlaps a = true) :
    Detection.resolveOverlaps priority [a, b] = [a] := by
  unfold Detection.resolveOverlaps
  rw [Selection.sortBy_eq_self
    (List.pairwise_pair.mpr hdom)]
  have hgreedy : Selection.greedy DetectedEntity.overlaps [a, b] = [a] := by
    simp [Selection.greedy, Selection.greedyFrom, hover]
  rw [hgreedy]
  exact Selection.sortBy_eq_self (List.pairwise_singleton _ _)

/-- A pair of types the tables rank the wrong way round loses a value: the
first type's span beats the second's and is then dropped itself. -/
theorem not_neverHides_of_pair {t u : Text}
    (ht : t ∈ config.enabledEntities) (hu : u ∈ config.enabledEntities)
    {score : Rat} (hthr : config.thresholdFor t ≤ score)
    (hlow : score < policy.minScoreFor t)
    (hrank : severityOf config.entityPriority u <
        severityOf config.entityPriority t ∨
      (severityOf config.entityPriority t =
          severityOf config.entityPriority u ∧
        confidentFloor config policy u ≤ score)) :
    ¬ NeverHides unicode config policy := by
  intro hnever
  obtain ⟨n, hallow⟩ := exists_not_allowlisted unicode config
  have hscore : 0 ≤ score := le_trans (config.thresholdFor_nonneg t) hthr
  have hclamp : clampScore score = score := by
    unfold clampScore
    rw [max_eq_left hscore, min_eq_left]
    exact le_trans hlow.le (policy.minScoreFor_bounded t).2
  -- the weaker span gets the lowest score that is still reported and
  -- confident
  let sure : Rat := max (config.thresholdFor u) (policy.minScoreFor u)
  have hsure : clampScore sure = confidentFloor config policy u := by
    unfold clampScore confidentFloor
    rw [max_eq_left (le_trans (config.thresholdFor_nonneg u)
      (le_max_left _ _)), min_comm, min_max_distrib_left,
      min_eq_right (policy.minScoreFor_bounded u).2]
  let blocker : Candidate :=
    { entityType := t, start := 0, stop := ((13 + (n + 1) : Nat) : Int)
      score := score }
  let lost : Candidate :=
    { entityType := u, start := 0, stop := ((13 + n : Nat) : Int)
      score := sure }
  have hblocker : Passes unicode config (plainText (n + 1)) none blocker :=
    passes_plainText ht hthr (le_refl _) (hallow _ (by omega))
  have hlost : Passes unicode config (plainText (n + 1)) none lost :=
    passes_plainText hu (le_max_left _ _) (by omega) (hallow _ (le_refl _))
  obtain ⟨a, ha⟩ := accept_of_passes hblocker
  obtain ⟨b, hb⟩ := accept_of_passes hlost
  obtain ⟨-, hastands⟩ := accept_eq_some ha
  obtain ⟨-, hbstands⟩ := accept_eq_some hb
  have hastart : a.start = 0 := by
    have := hastands.start_eq
    simp only [blocker] at this
    omega
  have hastop : a.stop = 13 + (n + 1) := by
    have := hastands.stop_eq
    simp only [blocker] at this
    omega
  have hbstart : b.start = 0 := by
    have := hbstands.start_eq
    simp only [lost] at this
    omega
  have hbstop : b.stop = 13 + n := by
    have := hbstands.stop_eq
    simp only [lost] at this
    omega
  have hascore : a.score = score := hastands.score_eq.trans hclamp
  have hbscore : b.score = confidentFloor config policy u :=
    hbstands.score_eq.trans hsure
  have hdom : dominanceKey config.entityPriority a ≤
      dominanceKey config.entityPriority b := by
    refine dominanceKey_le ?_
    rw [hastands.entityType_eq, hbstands.entityType_eq, hascore, hbscore]
    rcases hrank with hsev | ⟨hsev, hfloor⟩
    · exact Or.inl hsev
    · refine Or.inr ⟨hsev, ?_⟩
      rcases lt_or_eq_of_le hfloor with hlt | heq
      · exact Or.inl hlt
      · refine Or.inr ⟨heq, ?_⟩
        unfold DetectedEntity.length
        omega
  have hover : b.overlaps a = true :=
    DetectedEntity.overlaps_iff.mpr ⟨by omega, by omega⟩
  have hsurvivors : survivors unicode config [blocker, lost]
      (plainText (n + 1)) none = [a, b] := by
    simp [survivors, ha, hb]
  have hfin : finalize unicode config [blocker, lost] (plainText (n + 1)) =
      .ok [withoutRecognizer a] := by
    refine finalize_ok_iff.mpr ?_
    rw [hsurvivors, resolveOverlaps_pair hdom hover]
    exact ⟨config.maxEntities_pos, rfl⟩
  have hsel : selectEntities (plainText (n + 1)) [withoutRecognizer a]
      policy = .ok [] := by
    refine selectEntities_ok_iff.mpr ⟨?_, ?_⟩
    · intro e he
      rw [List.mem_singleton.mp he, withoutRecognizer_stop, hastop,
        length_plainText]
    · have hdrop : isConfident policy (withoutRecognizer a) = false := by
        rw [← Bool.not_eq_true, isConfident_iff, not_le,
          withoutRecognizer_entityType, withoutRecognizer_score,
          hastands.entityType_eq, hascore]
        exact hlow
      rw [List.filter_cons_of_neg (by rw [hdrop]; exact Bool.noConfusion)]
      rfl
  obtain ⟨s, hs, -⟩ := hnever _ _ _ _ hfin hsel lost (by simp) hlost
    (le_max_right _ _)
  exact absurd hs (List.not_mem_nil)

/-- A policy that wants more of a social security number than the
detector's default does. -/
def strictSsnPolicy : PolicySnapshot where
  policyId := ⟨1⟩
  tenantId := ⟨2⟩
  version := 1
  name := "strict-ssn".toList
  sessionTtlSeconds := 3600
  maxEntities := 100
  unknownOutputTokenAction := .preserve
  entities := [
    (dateTimeType, ⟨.tokenize, 3 / 5, true, none, none, Bounds.threeFifths⟩),
    (usSsnType, ⟨.tokenize, 19 / 20, true, none, none,
      by decide +kernel⟩)]
  providers := []

/-- Eleven digits and dashes read as a social security number and as a
date, both at 0.85. The number wins in the detector and is dropped by the
policy; the date, which the policy is sure of, is gone. -/
theorem ssn_hides_date :
    ¬ NeverHides Unicode.ascii DetectionConfig.default strictSsnPolicy := by
  intro hnever
  have hlost := hnever "123-45-6789".toList
    [⟨usSsnType, 0, 11, 17 / 20, none⟩, ⟨dateTimeType, 0, 11, 17 / 20, none⟩]
    [⟨usSsnType, 0, 11, 17 / 20, none, by decide, Bounds.seventeenTwentieths⟩] []
    (by decide +kernel) (by decide +kernel)
    ⟨dateTimeType, 0, 11, 17 / 20, none⟩ (by decide +kernel)
    ⟨by decide +kernel, by decide +kernel, by decide +kernel,
      by decide +kernel, by decide +kernel⟩
    (by decide +kernel)
  obtain ⟨s, hs, -⟩ := hlost
  exact absurd hs (List.not_mem_nil)

/-- Overlap resolution never hides a value from the policy exactly when
the thresholds are aligned. -/
theorem neverHides_iff (unicode : Unicode) (config : DetectionConfig)
    (policy : PolicySnapshot) :
    NeverHides unicode config policy ↔ ThresholdsAligned config policy := by
  constructor
  · intro hnever t ht u hu hthr
    by_contra hmis
    rw [not_and_or, not_le, Classical.not_imp, not_le] at hmis
    rcases hmis with hsev | ⟨hsev, hfloor⟩
    · exact not_neverHides_of_pair ht hu (le_refl _) hthr (Or.inl hsev)
        hnever
    · exact not_neverHides_of_pair ht hu (le_max_left _ _)
        (max_lt hthr hfloor) (Or.inr ⟨hsev, le_max_right _ _⟩) hnever
  · exact neverHides_of_aligned

end PrivacyGateway.Detection
