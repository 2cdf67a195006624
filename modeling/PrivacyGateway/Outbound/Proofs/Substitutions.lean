/-
The scan of a protected text, where the detector reports the gateway's
own substitutions.

A transform writes three kinds of string: tokens, redactions and
surrogates. `Wrote` says which span a string was written for and where it
stands in the protected text. The scan looks past the first two:
`Wrote.reserved` shows that each of them is a reserved range of the text
it was written into. It has no way to recognize the third.

`own_output_clean_iff` is exact: detections of the gateway's own strings
leave the verdict clean when each actionable one that lies in a surrogate
touches a token or a redaction marker.
-/
import PrivacyGateway.Outbound.Proofs.Completeness
import PrivacyGateway.Tokenization.Proofs.Surrogates
import PrivacyGateway.Vault.Reference
import PrivacyGateway.Vault.System

namespace PrivacyGateway.Outbound

open Detection Effect Find Splice Tokenization

-- ==================================================== what was written

/-- A string that a transform writes: the span it replaces, and its range
in the protected text. -/
def Wrote {σ : Type} (unicode : Unicode) (hashes : Hashes)
    (fingerprinter : Fingerprinter) (vault : VaultLike σ)
    (tenantId sessionId : UUID) (text : Text)
    (entities : List DetectedEntity) (policy : PolicySnapshot) (s : σ)
    (span : DetectedEntity) (range : Nat × Nat) : Prop :=
  ∃ selected minted t item p,
    selectEntities text entities policy = .ok selected ∧
    runIn (mint unicode hashes fingerprinter tenantId sessionId vault text
      (withActions policy selected) policy.sessionTtlSeconds) s =
        (.ok minted, t) ∧
    item ∈ (withActions policy selected).zipIdx ∧ item.1.1 = span ∧
    patchOf unicode hashes text minted item = some p ∧
    Landed text (patches unicode hashes text minted
      (withActions policy selected)) p range.1 ∧
    range.2 = range.1 + p.body.length

section Wrote

variable {unicode : Unicode} {hashes : Hashes}
  {fingerprinter : Fingerprinter} {tenantId sessionId : UUID} {σ : Type}
  {vault : VaultLike σ} {text : Text} {entities : List DetectedEntity}
  {policy : PolicySnapshot} {s t : σ} {out : TransformedText}
  {span : DetectedEntity} {range : Nat × Nat}

/-- What is written for a span whose action keeps no surrogate: a token,
or the redaction of its type. -/
theorem patchOf_shape {minted : Dict Nat EntityMapping}
    {item : Planned × Nat} {p : Patch Char}
    (hminted : ∀ n m, minted.get? n = some m →
      ∃ token : Token, m.token = token.text)
    (hpatch : patchOf unicode hashes text minted item = some p)
    (haction : item.1.2 ≠ .pseudonymize) :
    (∃ token : Token, p.body = token.text) ∨
      formatRedaction item.1.1.entityType = .ok p.body := by
  obtain ⟨-, -, hreplace⟩ := patchOf_eq_some hpatch
  unfold replacementOf replacementFor at hreplace
  cases hact : item.1.2 with
  | allow =>
      rw [hact] at hreplace
      cases hreplace
  | redact =>
      rw [hact] at hreplace
      simp only at hreplace
      cases hformat : formatRedaction item.1.1.entityType with
      | error e =>
          rw [hformat] at hreplace
          cases hreplace
      | ok placeholder =>
          rw [hformat] at hreplace
          cases hreplace
          exact Or.inr rfl
  | pseudonymize => exact absurd hact haction
  | tokenize =>
      rw [hact] at hreplace
      cases hget : minted.get? item.2 with
      | none =>
          rw [hget] at hreplace
          cases hreplace
      | some m =>
          rw [hget] at hreplace
          have hbody : m.token = p.body := by simpa using hreplace
          rw [← hbody]
          exact Or.inl (hminted item.2 m hget)
  | block =>
      rw [hact] at hreplace
      cases hget : minted.get? item.2 with
      | none =>
          rw [hget] at hreplace
          cases hreplace
      | some m =>
          rw [hget] at hreplace
          have hbody : m.token = p.body := by simpa using hreplace
          rw [← hbody]
          exact Or.inl (hminted item.2 m hget)

/-- A string written for a span that the policy does not pseudonymize is a
token or a redaction of the protected text. -/
theorem Wrote.isPlaceholder
    (htransform : runIn (transform unicode hashes fingerprinter vault
      tenantId sessionId text entities policy) s = (.ok out, t))
    (hwrote : Wrote unicode hashes fingerprinter vault tenantId sessionId
      text entities policy s span range)
    (haction : policy.actionFor span.entityType ≠ .pseudonymize) :
    IsPlaceholder out.text range := by
  obtain ⟨selected, minted, t', item, p, hselect, hmint, hitem, rfl,
    hpatch, hlanded, hstop⟩ := hwrote
  obtain ⟨selected', minted', hplans, hmint', -, hout, -⟩ :=
    transform_ok htransform
  -- the plan and the mint's answer are the transform's own
  cases hselect.symm.trans hplans.selects
  cases hmint.symm.trans hmint'
  have hat : At p.body out.text range.1 := by
    rw [hout]
    exact hlanded.prefix_drop
  have hplanned : item.1.2 = policy.actionFor item.1.1.entityType := by
    obtain ⟨e, -, he⟩ :=
      List.mem_map.mp (List.fst_mem_of_mem_zipIdx hitem)
    rw [← he]
  rw [← hplanned] at haction
  rcases patchOf_shape (fun n m => mint_token hmint) hpatch haction with
    ⟨token, hbody⟩ | hformat
  · rw [hbody] at hat hstop
    exact Or.inl ⟨_, mem_findTokens hat, Prod.ext rfl hstop.symm⟩
  · exact Or.inr ⟨_, p.body, hformat, hat, hstop⟩

/-- The scan looks past what lies in a placeholder. -/
theorem overlaps_of_placeholder {text : Text} {d : DetectedEntity}
    (hplace : IsPlaceholder text range) (hinside : Inside d range) :
    ∃ r, (IsToken text r ∨ Lookalike text r) ∧
      overlapsRange d r = true := by
  refine ⟨range, ?_, overlapsRange_of_inside hinside⟩
  cases hplace with
  | inl htoken => exact Or.inl htoken
  | inr hredaction => exact Or.inr hredaction.lookalike

end Wrote

-- ==================================================== the verdict

section Verdict

variable {unicode : Unicode} {τ : Type}
  {detector : Detector unicode τ} {policy : PolicySnapshot}
  {language : Text} {u v : τ}

/-- The scan of one message returns when its detection does. -/
theorem findingsIn_returns {text : Text} {reported : List DetectedEntity}
    (hdetect : runIn (detector.detect text language) u =
      (.ok reported, v)) :
    ∃ w, runIn (findingsIn detector policy language text) u =
      (.ok (actionableTypes policy text reported), w) := by
  unfold findingsIn
  by_cases hblank : unicode.strip text = []
  · rw [if_pos hblank,
      detector.detect_blank text language u v reported hblank hdetect]
    refine ⟨u, ?_⟩
    unfold actionableTypes outsidePlaceholders
    simp [runIn_pure]
  · rw [if_neg hblank]
    exact ⟨v, bind_ok_iff.mpr ⟨reported, v, hdetect, rfl⟩⟩

/-- The scan of a payload of one message: clean when its detection leaves
nothing to act on. -/
theorem scanOutbound_returns {text : Text} {role : MessageRole}
    {request : ProtectedChatRequest} {reported : List DetectedEntity}
    (hmessages : request.messages = [⟨role, text⟩])
    (hdetect : runIn (detector.detect text language) u =
      (.ok reported, v)) :
    ∃ scan w, runIn (scanOutbound detector policy language request) u =
        (.ok scan, w) ∧
      (scan.isClean = true ↔ actionableTypes policy text reported = []) := by
  obtain ⟨w, hfindings⟩ := @findingsIn_returns _ _ _ policy _ _ _ _ _
    hdetect
  have hall : runIn (findingsOf detector policy language
      request.messages) u =
        (.ok (actionableTypes policy text reported), w) := by
    rw [hmessages]
    unfold findingsOf
    refine bind_ok_iff.mpr ⟨_, w, hfindings, ?_⟩
    refine bind_ok_iff.mpr ⟨[], w, rfl, ?_⟩
    rw [List.append_nil]
    rfl
  obtain ⟨scan, hscan⟩ : ∃ scan, runIn (scanOutbound detector policy
      language request) u = (.ok scan, w) :=
    ⟨_, bind_ok_iff.mpr ⟨_, w, hall, rfl⟩⟩
  refine ⟨scan, w, hscan, ?_⟩
  obtain ⟨findings, hfind, hverdict⟩ := scanOutbound_ok hscan
  rw [hall] at hfind
  cases hfind
  unfold OutboundScan.isClean
  cases hv : scan.verdict with
  | clean => simpa [hv] using hverdict
  | blocked => simpa [hv] using hverdict

theorem actionableTypes_eq_nil_iff {text : Text}
    {reported : List DetectedEntity} :
    actionableTypes policy text reported = [] ↔
      ∀ d ∈ reported, isActionable policy d = true →
        ∃ range, (IsToken text range ∨ Lookalike text range) ∧
          overlapsRange d range = true := by
  unfold actionableTypes
  rw [List.map_eq_nil_iff, List.filter_eq_nil_iff]
  constructor
  · intro h d hd haction
    apply reserved_iff.mp
    by_contra hkept
    exact h d (mem_outsidePlaceholders_iff.mpr ⟨hd, hkept⟩) haction
  · intro h d hd haction
    obtain ⟨hd, hkept⟩ := mem_outsidePlaceholders_iff.mp hd
    exact hkept (reserved_iff.mpr (h d hd haction))

end Verdict

/-- The scan of a protected text whose detections all lie in strings that
its transform wrote. It is clean exactly when each detection that the
policy acts on and that lies in a surrogate touches a token or a redaction
marker of the text. -/
theorem own_output_clean_iff {unicode : Unicode} {hashes : Hashes}
    {fingerprinter : Fingerprinter} {tenantId sessionId : UUID} {σ τ : Type}
    {vault : VaultLike σ} {text : Text} {entities : List DetectedEntity}
    {policy : PolicySnapshot} {s t : σ} {out : TransformedText}
    {detector : Detector unicode τ} {language : Text} {role : MessageRole}
    {request : ProtectedChatRequest} {reported : List DetectedEntity}
    {u v : τ}
    (htransform : runIn (transform unicode hashes fingerprinter vault
      tenantId sessionId text entities policy) s = (.ok out, t))
    (hmessages : request.messages = [⟨role, out.text⟩])
    (hdetect : runIn (detector.detect out.text language) u =
      (.ok reported, v))
    (hown : ∀ d ∈ reported, ∃ span range,
      Wrote unicode hashes fingerprinter vault tenantId sessionId text
        entities policy s span range ∧ Inside d range) :
    ∃ scan w, runIn (scanOutbound detector policy language request) u =
        (.ok scan, w) ∧
      (scan.isClean = true ↔
        ∀ d ∈ reported, isActionable policy d = true →
          ∀ span range,
            Wrote unicode hashes fingerprinter vault tenantId sessionId
              text entities policy s span range → Inside d range →
            policy.actionFor span.entityType = .pseudonymize →
            ∃ reserved, (IsToken out.text reserved ∨
                Lookalike out.text reserved) ∧
              overlapsRange d reserved = true) := by
  obtain ⟨scan, w, hscan, hclean⟩ :=
    @scanOutbound_returns _ _ _ policy _ _ _ _ _ _ _ hmessages hdetect
  refine ⟨scan, w, hscan, ?_⟩
  rw [hclean, actionableTypes_eq_nil_iff]
  constructor
  · intro h d hd haction span range _ _ _
    exact h d hd haction
  · intro h d hd haction
    obtain ⟨span, range, hwrote, hinside⟩ := hown d hd
    by_cases hpseudonym : policy.actionFor span.entityType = .pseudonymize
    · exact h d hd haction span range hwrote hinside hpseudonym
    · exact overlaps_of_placeholder
        (hwrote.isPlaceholder htransform hpseudonym) hinside

-- ==================================================== on fixed inputs

/-- The mapping of one pseudonymized name. -/
def nameMapping : EntityMapping where
  token := "⟦SGW:PERSON:00000000000000000000000000⟧".toList
  tokenId := "00000000000000000000000000".toList
  entityType := "PERSON".toList
  originalValue := "Ann".toList
  normalizedHmac :=
    "8fa10aa62b26b4e89905fd0726c6d5cd45c8cd32efa65026cc0b50559fb87103".toList

def surrogateRequest : ProtectedChatRequest where
  requestId := ⟨1⟩
  tenantId := ⟨2⟩
  sessionId := ⟨3⟩
  providerAlias := "mock".toList
  modelAlias := "mock".toList
  messages := [⟨.user, "Wfn".toList⟩]
  policyVersion := 1
  messages_nonempty := by decide

/-- The surrogate of the name is a string that its transform writes. -/
theorem wrote_name :
    Wrote Unicode.ascii nameHashes sampleFingerprinter
      (Vault.Reference.vault nameHashes).like ⟨2⟩ ⟨3⟩ "Ann".toList
      [nameAt 0] surrogatesPolicy Vault.VaultState.start.world (nameAt 0)
      (0, 3) := by
  have hreplace : replacementOf Unicode.ascii nameHashes "Ann".toList
      [(0, nameMapping)] ((nameAt 0, .pseudonymize), 0) =
        .ok (some "Wfn".toList) := by decide +kernel
  have hpatch : patchOf Unicode.ascii nameHashes "Ann".toList
      [(0, nameMapping)] ((nameAt 0, .pseudonymize), 0) =
        some ⟨0, 3, "Wfn".toList⟩ := by
    unfold patchOf
    rw [hreplace]
    rfl
  have haction : surrogatesPolicy.actionFor (nameAt 0).entityType =
      .pseudonymize := by decide +kernel
  have hplan : withActions surrogatesPolicy [nameAt 0] =
      [(nameAt 0, .pseudonymize)] := by
    unfold withActions
    rw [List.map_cons, haction]
    rfl
  have hselects : selectEntities "Ann".toList [nameAt 0] surrogatesPolicy =
      .ok [nameAt 0] := by decide +kernel
  have hmint : (runIn (mint Unicode.ascii nameHashes sampleFingerprinter
      ⟨2⟩ ⟨3⟩ (Vault.Reference.vault nameHashes).like "Ann".toList
      (withActions surrogatesPolicy [nameAt 0])
      surrogatesPolicy.sessionTtlSeconds)
        Vault.VaultState.start.world).1 = .ok [(0, nameMapping)] := by
    decide +kernel
  refine ⟨[nameAt 0], [(0, nameMapping)], _,
    ((nameAt 0, .pseudonymize), 0), _, hselects, Prod.ext hmint rfl, ?_, rfl,
    hpatch, ⟨[], [], ?_, rfl⟩, rfl⟩
  · rw [hplan]
    exact List.mem_cons_self
  · unfold patches
    rw [hplan, List.zipIdx_cons, List.filterMap_cons, hpatch]
    rfl

/-- What the transform of the name returns. -/
theorem transform_name :
    (runIn (transform Unicode.ascii nameHashes sampleFingerprinter
      (Vault.Reference.vault nameHashes).like ⟨2⟩ ⟨3⟩ "Ann".toList
      [nameAt 0] surrogatesPolicy) Vault.VaultState.start.world).1 =
      .ok ⟨"Wfn".toList, [nameMapping],
        { detected := 1, pseudonymized := 1
          entityTypes := [("PERSON".toList, 1)] }⟩ := by
  decide +kernel

/-- The detector reads the surrogate as the name it stands in for, and the
payload that carries nothing else is refused. -/
theorem surrogate_refused :
    (runIn (transform Unicode.ascii nameHashes sampleFingerprinter
      (Vault.Reference.vault nameHashes).like ⟨2⟩ ⟨3⟩ "Ann".toList
      [nameAt 0] surrogatesPolicy)
        Vault.VaultState.start.world).1.toOption.map TransformedText.text =
          some "Wfn".toList ∧
    (∃ range, Wrote Unicode.ascii nameHashes sampleFingerprinter
      (Vault.Reference.vault nameHashes).like ⟨2⟩ ⟨3⟩ "Ann".toList
      [nameAt 0] surrogatesPolicy Vault.VaultState.start.world (nameAt 0)
      range ∧ Inside (nameAt 0) range) ∧
    runIn (scanOutbound (Detector.ofTable Unicode.ascii Unit
        [("Wfn".toList, [nameAt 0])]) surrogatesPolicy "en".toList
        surrogateRequest) () =
      (.ok ⟨.blocked, ["PERSON".toList]⟩, ()) := by
  refine ⟨?_, ⟨(0, 3), wrote_name, by decide, by decide⟩, ?_⟩
  · rw [transform_name]
    rfl
  · decide +kernel

/-- The refusal, read off the general statement: the detection touches no
reserved range. -/
theorem surrogate_not_clean :
    ∃ scan w, runIn (scanOutbound (Detector.ofTable Unicode.ascii Unit
        [("Wfn".toList, [nameAt 0])]) surrogatesPolicy "en".toList
        surrogateRequest) () = (.ok scan, w) ∧ ¬ scan.isClean = true := by
  have htransform : runIn (transform Unicode.ascii nameHashes
      sampleFingerprinter (Vault.Reference.vault nameHashes).like ⟨2⟩ ⟨3⟩
      "Ann".toList [nameAt 0] surrogatesPolicy)
        Vault.VaultState.start.world =
      (.ok ⟨"Wfn".toList, [nameMapping],
        { detected := 1, pseudonymized := 1
          entityTypes := [("PERSON".toList, 1)] }⟩, _) :=
    Prod.ext transform_name rfl
  obtain ⟨scan, w, hscan, hclean⟩ :=
    own_output_clean_iff htransform
      (show surrogateRequest.messages = [⟨.user, "Wfn".toList⟩] from rfl)
      (show runIn ((Detector.ofTable Unicode.ascii Unit
        [("Wfn".toList, [nameAt 0])]).detect "Wfn".toList "en".toList) () =
          (.ok [nameAt 0], ()) by decide +kernel) (by
        intro d hd
        rw [List.mem_singleton.mp hd]
        exact ⟨nameAt 0, (0, 3), wrote_name, by decide, by decide⟩)
  refine ⟨scan, w, hscan, ?_⟩
  rw [hclean]
  intro h
  have hreserved := reserved_iff.mpr (h (nameAt 0) List.mem_cons_self
    (by decide +kernel) (nameAt 0) (0, 3) wrote_name
    ⟨by decide, by decide⟩ (by decide +kernel))
  exact absurd hreserved (by decide +kernel)

end PrivacyGateway.Outbound
