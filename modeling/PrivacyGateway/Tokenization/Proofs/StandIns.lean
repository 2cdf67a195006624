/-
What a transform writes where a value was.

A returned transform is the original text with each hidden span replaced by
its stand-in: a redaction of its type, a token of its type, or the
surrogate of its value (`transform_standIns`). Nothing else is written, and
every span that the policy does not leave alone has one.

Selection drops whole spans, so a span the policy would protect can reach
the output when it starts inside a selected one. `transform_coverage` states
what is guaranteed, and `allow_span_uncovers` is a text where less is
protected than its detections ask for.
-/
import PrivacyGateway.Tokenization.Proofs.Disclosure

namespace PrivacyGateway.Tokenization

open Effect Splice

section StandIns

variable (unicode : Unicode) (hashes : Hashes)
  (fingerprinter : Fingerprinter) (t s : UUID) (policy : PolicySnapshot)

/-- The text may stand for a value of the type. -/
def StandIn (entityType original body : Text) : Prop :=
  match policy.actionFor entityType with
  | .redact => formatRedaction entityType = .ok body
  | .tokenize =>
      ∃ token : Token, token.entityType = entityType ∧ body = token.text
  | .pseudonymize =>
      ∃ hmac, identityOf unicode hashes fingerprinter t s entityType
          original = .ok hmac ∧
        body = surrogateFor unicode hashes entityType original hmac
  | _ => False

/-- The patch is a span's stand-in, in the span's place. -/
structure StandsAt (text : Text) (e : DetectedEntity) (p : Patch Char) :
    Prop where
  start_eq : p.start = e.start
  stop_eq : p.stop = e.stop
  standIn : StandIn unicode hashes fingerprinter t s policy e.entityType
    (slice text e.start e.stop) p.body

/-- The protected text is the original with a stand-in for every hidden
span of the detections. -/
def Shields (text : Text) (entities : List DetectedEntity)
    (shielded : Text) : Prop :=
  ∃ selected ps, selectEntities text entities policy = .ok selected ∧
    List.Forall₂ (StandsAt unicode hashes fingerprinter t s policy text)
      (hiddenSpans policy selected) ps ∧
    Fits text.length 0 ps ∧ shielded = fill text ps

variable {unicode hashes fingerprinter t s policy} {text : Text}
  {entities : List DetectedEntity}

/-- The stand-in of one planned span. -/
theorem standsAt_patchOf {σ : Type} {vault : VaultLike σ}
    {selected : List DetectedEntity} {ttlSeconds : Int} {w w' : σ}
    {minted : Dict Nat EntityMapping}
    (hmint : runIn (mint unicode hashes fingerprinter t s vault text
      (withActions policy selected) ttlSeconds) w = (.ok minted, w'))
    (hblocked : ∀ e ∈ selected, policy.actionFor e.entityType ≠ .block)
    {item : Planned × Nat}
    (hitem : item ∈ (withActions policy selected).zipIdx)
    (hhidden : item.1.2 ≠ .allow) {r : Option Text}
    (hr : replacementOf unicode hashes text minted item = .ok r) :
    ∃ p, patchOf unicode hashes text minted item = some p ∧
      StandsAt unicode hashes fingerprinter t s policy text item.1.1 p := by
  obtain ⟨e, he, hplanned⟩ :=
    List.mem_map.mp (List.fst_mem_of_mem_zipIdx hitem)
  have haction : policy.actionFor item.1.1.entityType = item.1.2 := by
    rw [← hplanned]
  cases r with
  | none => exact absurd ((replacementFor_eq_none_iff hr).mp rfl) hhidden
  | some body =>
      refine ⟨⟨item.1.1.start, item.1.1.stop, body⟩, ?_, rfl, rfl, ?_⟩
      · unfold patchOf
        rw [hr]
      unfold StandIn
      unfold replacementOf replacementFor at hr
      rw [haction]
      cases hkind : item.1.2 with
      | allow => exact absurd hkind hhidden
      | block =>
          rw [← hplanned] at hkind
          exact absurd hkind (hblocked e he)
      | redact =>
          rw [hkind] at hr
          simp only at hr ⊢
          cases hred : formatRedaction item.1.1.entityType with
          | error error =>
              rw [hred] at hr
              cases hr
          | ok placeholder =>
              rw [hred] at hr
              cases hr
              rfl
      | tokenize =>
          rw [hkind] at hr
          cases hget : minted.get? item.2 with
          | none =>
              rw [hget] at hr
              cases hr
          | some m =>
              rw [hget] at hr
              obtain ⟨token, htoken, htype⟩ := mint_typed hmint hitem hget
              cases hr
              exact ⟨token, htype, htoken⟩
      | pseudonymize =>
          rw [hkind] at hr
          cases hget : minted.get? item.2 with
          | none =>
              rw [hget] at hr
              cases hr
          | some m =>
              rw [hget] at hr
              obtain ⟨-, -, -, hidentity⟩ := mint_own hmint hitem hget
              cases hr
              exact ⟨m.normalizedHmac, hidentity, rfl⟩

/-- The patches of plan entries are the stand-ins of the hidden ones. -/
theorem standsAt_patches {minted : Dict Nat EntityMapping}
    (items : List (Planned × Nat))
    (h : ∀ item ∈ items, (item.1.2 = .allow →
        patchOf unicode hashes text minted item = none) ∧
      (item.1.2 ≠ .allow → ∃ p,
        patchOf unicode hashes text minted item = some p ∧
          StandsAt unicode hashes fingerprinter t s policy text item.1.1 p)) :
    List.Forall₂ (StandsAt unicode hashes fingerprinter t s policy text)
      (hiddenItems items)
      (items.filterMap (patchOf unicode hashes text minted)) := by
  induction items with
  | nil => exact .nil
  | cons item items ih =>
      obtain ⟨⟨hallow, hhidden⟩, htail⟩ := List.forall_mem_cons.mp h
      unfold hiddenItems at ih ⊢
      by_cases haction : item.1.2 = .allow
      · rw [List.filter_cons_of_neg (by
            rw [decide_eq_true_eq]
            exact fun h => h haction),
          List.filterMap_cons_none (hallow haction)]
        exact ih htail
      · obtain ⟨p, hp, hstands⟩ := hhidden haction
        rw [List.filter_cons_of_pos (by exact decide_eq_true haction),
          List.filterMap_cons_some hp]
        exact .cons hstands (ih htail)

/-- A fill copies the positions that its patches' spans leave alone. -/
theorem mem_copied_iff_of_standsAt {spans : List DetectedEntity}
    {ps : List (Patch Char)}
    (hstands : List.Forall₂
      (StandsAt unicode hashes fingerprinter t s policy text) spans ps)
    (hfits : Fits text.length 0 ps) {i : Nat} :
    i ∈ copied text ps ↔
      i < text.length ∧ ∀ e ∈ spans, ¬ e.Covers i := by
  rw [mem_copied hfits]
  refine and_congr_right (fun _ => ?_)
  clear hfits
  induction hstands with
  | nil => simp
  | @cons e p spans ps hp _ ih =>
      have hcovers : p.Covers i ↔ e.Covers i := by
        unfold Patch.Covers DetectedEntity.Covers
        rw [hp.start_eq, hp.stop_eq]
      rw [List.forall_mem_cons, List.forall_mem_cons, hcovers, ih]

/-- A confident detection that overlaps no other one is selected. -/
theorem mem_selected_of_disjoint {selected : List DetectedEntity}
    (hselect : selectEntities text entities policy = .ok selected)
    (hdisjoint : (entities.filter (isConfident policy)).Pairwise
      (fun a b => a.overlaps b = false)) {e : DetectedEntity}
    (he : e ∈ entities) (hconf : isConfident policy e = true) :
    e ∈ selected := by
  obtain ⟨-, rfl⟩ := selectEntities_ok_iff.mp hselect
  exact mem_resolveOverlaps_of_disjoint hdisjoint
    (List.mem_filter.mpr ⟨he, hconf⟩)

theorem transform_standIns {σ : Type} {vault : VaultLike σ} {w w' : σ}
    {out : TransformedText}
    (h : runIn (transform unicode hashes fingerprinter vault t s text
      entities policy) w = (.ok out, w')) :
    Shields unicode hashes fingerprinter t s policy text entities
      out.text := by
  obtain ⟨selected, minted, hplans, hmint, hall, htext, -, -⟩ :=
    transform_ok h
  refine ⟨selected, _, hplans.selects, ?_,
    patches_fit hplans.chain hplans.stop_le, htext⟩
  rw [← hiddenItems_withActions selected 0]
  refine standsAt_patches _ (fun item hitem => ⟨fun hallow => ?_,
    fun hhidden => ?_⟩)
  · obtain ⟨r, hr⟩ := hall item hitem
    have hnone := (replacementFor_eq_none_iff hr).mpr hallow
    unfold patchOf
    rw [hr, hnone]
  · obtain ⟨r, hr⟩ := hall item hitem
    exact standsAt_patchOf hmint hplans.not_blocked hitem hhidden hr

/-- What a returned transform leaves and replaces. The protected text is
the original with one stand-in for each selected span whose action is other
than `ALLOW`, and the positions it copies are those under no such span; a
confident detection is selected or starts inside a selected span; and where
no two confident detections overlap, no position of one that the policy
protects is copied. -/
theorem transform_coverage {σ : Type} {vault : VaultLike σ} {w w' : σ}
    {out : TransformedText}
    (h : runIn (transform unicode hashes fingerprinter vault t s text
      entities policy) w = (.ok out, w')) :
    ∃ selected ps, selectEntities text entities policy = .ok selected ∧
      List.Forall₂ (StandsAt unicode hashes fingerprinter t s policy text)
        (hiddenSpans policy selected) ps ∧
      Fits text.length 0 ps ∧ out.text = fill text ps ∧
      (∀ i, i ∈ copied text ps ↔ i < text.length ∧
        ∀ e ∈ selected, policy.actionFor e.entityType ≠ .allow →
          ¬ e.Covers i) ∧
      (∀ e ∈ entities, isConfident policy e = true → e ∈ selected ∨
        ∃ k ∈ selected, k.start ≤ e.start ∧ e.start < k.stop) ∧
      ((entities.filter (isConfident policy)).Pairwise
          (fun a b => a.overlaps b = false) →
        ∀ e ∈ entities, isConfident policy e = true →
          policy.actionFor e.entityType ≠ .allow →
            ∀ i, e.Covers i → i ∉ copied text ps) := by
  obtain ⟨selected, ps, hselect, hstands, hfits, htext⟩ :=
    transform_standIns h
  have hcopied : ∀ i, i ∈ copied text ps ↔ i < text.length ∧
      ∀ e ∈ selected, policy.actionFor e.entityType ≠ .allow →
        ¬ e.Covers i := by
    intro i
    rw [mem_copied_iff_of_standsAt hstands hfits]
    refine and_congr_right (fun _ => ?_)
    simp only [mem_hiddenSpans, and_imp]
  refine ⟨selected, ps, hselect, hstands, hfits, htext, hcopied, ?_, ?_⟩
  · intro e he hconf
    obtain ⟨-, rfl⟩ := selectEntities_ok_iff.mp hselect
    exact resolveOverlaps_covers (List.mem_filter.mpr ⟨he, hconf⟩)
  · intro hdisjoint e he hconf haction i hcov hmem
    have hsel := mem_selected_of_disjoint hselect hdisjoint he hconf
    exact ((hcopied i).mp hmem).2 e hsel haction hcov

end StandIns

-- ==================================================== on fixed inputs

/-- A vault that is never asked. -/
def unusedVault : VaultLike Unit where
  getOrCreateMany _ _ _ _ := throw (gatewayError .vaultUnavailable [])

def namedPlace : DetectedEntity :=
  ⟨"LOCATION".toList, 0, 13, 4 / 5, none, by decide, Bounds.fourFifths⟩

def namedPerson : DetectedEntity :=
  ⟨"PERSON".toList, 9, 17, 4 / 5, none, by decide, Bounds.fourFifths⟩

/-- A place read as `New York Jane` hides the name `Jane Doe` that starts
inside it: the policy redacts names, and the name reaches the output. -/
theorem allow_span_uncovers :
    runIn (transform Unicode.ascii (Hashes.ofTables [] [])
        sampleFingerprinter unusedVault ⟨2⟩ ⟨3⟩ "New York Jane Doe".toList
        [namedPlace, namedPerson] namesOnlyPolicy) () =
      (.ok ⟨"New York Jane Doe".toList, [],
        { detected := 1, allowed := 1
          entityTypes := [("LOCATION".toList, 1)] }⟩, ()) ∧
    isConfident namesOnlyPolicy namedPerson = true ∧
    namesOnlyPolicy.actionFor namedPerson.entityType = .redact := by
  decide +kernel

/-- Without the overlapping place the name is replaced. -/
theorem name_alone_covered :
    ∃ selected ps, selectEntities "New York Jane Doe".toList
        [namedPerson] namesOnlyPolicy = .ok selected ∧
      List.Forall₂ (StandsAt Unicode.ascii (Hashes.ofTables [] [])
          sampleFingerprinter ⟨2⟩ ⟨3⟩ namesOnlyPolicy
          "New York Jane Doe".toList)
        (hiddenSpans namesOnlyPolicy selected) ps ∧
      Fits "New York Jane Doe".toList.length 0 ps ∧
      "New York ⟦SGW:REDACTED:PERSON⟧".toList =
        fill "New York Jane Doe".toList ps ∧
      (∀ i, i ∈ copied "New York Jane Doe".toList ps ↔
        i < "New York Jane Doe".toList.length ∧
        ∀ e ∈ selected, namesOnlyPolicy.actionFor e.entityType ≠ .allow →
          ¬ e.Covers i) ∧
      (∀ e ∈ [namedPerson], isConfident namesOnlyPolicy e = true →
        e ∈ selected ∨
          ∃ k ∈ selected, k.start ≤ e.start ∧ e.start < k.stop) ∧
      (([namedPerson].filter (isConfident namesOnlyPolicy)).Pairwise
          (fun a b => a.overlaps b = false) →
        ∀ e ∈ [namedPerson], isConfident namesOnlyPolicy e = true →
          namesOnlyPolicy.actionFor e.entityType ≠ .allow →
            ∀ i, e.Covers i →
              i ∉ copied "New York Jane Doe".toList ps) :=
  transform_coverage
    (show runIn (transform Unicode.ascii (Hashes.ofTables [] [])
        sampleFingerprinter unusedVault ⟨2⟩ ⟨3⟩ "New York Jane Doe".toList
        [namedPerson] namesOnlyPolicy) () =
      (.ok ⟨"New York ⟦SGW:REDACTED:PERSON⟧".toList, [],
        { detected := 1, redacted := 1
          entityTypes := [("PERSON".toList, 1)] }⟩, ()) by decide +kernel)

end PrivacyGateway.Tokenization
