/-
What a policy that pseudonymizes writes.

A surrogate has the length of the value it replaces, so every span stays
where it was, and it is a function of the session, the span and its value
alone: the mint writes a mapping for the span, and the text shows none of
it. `transform_surrogates` gives the protected text as the fill of the
surrogates.
-/
import PrivacyGateway.Tokenization.Proofs.Mint

namespace PrivacyGateway.Tokenization

open Effect Splice

-- ==================================================== surrogates

theorem length_keystream (hashes : Hashes) (seed : Bytes) (length : Nat) :
    (keystream hashes seed length).length = length := by
  unfold keystream
  rw [List.length_take, List.length_flatMap]
  have hblocks : ((List.range ((length + blockBytes - 1) /
      blockBytes)).map (fun counter => (hashes.blake2b (seed ++
        Frame.bigEndian counterBytes counter)).length)).sum =
          (length + blockBytes - 1) / blockBytes * blockBytes := by
    simp [hashes.blake2b_length, blockBytes]
  rw [hblocks, show blockBytes = 64 from rfl]
  omega

/-- A surrogate is as long as the value it replaces. -/
theorem length_surrogateFor (unicode : Unicode) (hashes : Hashes)
    (entityType original fingerprint : Text) :
    (surrogateFor unicode hashes entityType original fingerprint).length =
      original.length := by
  unfold surrogateFor
  rw [List.length_zipWith, length_keystream, Nat.min_self]

/-- The selected spans that the policy pseudonymizes. -/
def pseudonymizedSpans (policy : PolicySnapshot)
    (selected : List DetectedEntity) : List DetectedEntity :=
  selected.filter (fun e =>
    decide (policy.actionFor e.entityType = .pseudonymize))

section Session

variable (unicode : Unicode) (hashes : Hashes)
  (fingerprinter : Fingerprinter) (tenantId sessionId : UUID) (text : Text)

/-- The surrogate of a span, in a session. -/
def surrogateOf (e : DetectedEntity) : Text :=
  match identityOf unicode hashes fingerprinter tenantId sessionId
      e.entityType (slice text e.start e.stop) with
  | .ok hmac => surrogateFor unicode hashes e.entityType
      (slice text e.start e.stop) hmac
  | .error _ => slice text e.start e.stop

/-- The patch that writes a span's surrogate. -/
def surrogatePatch (e : DetectedEntity) : Patch Char :=
  ⟨e.start, e.stop,
    surrogateOf unicode hashes fingerprinter tenantId sessionId text e⟩

variable {unicode hashes fingerprinter tenantId sessionId text}

theorem length_surrogateOf (e : DetectedEntity) :
    (surrogateOf unicode hashes fingerprinter tenantId sessionId text
      e).length = (slice text e.start e.stop).length := by
  unfold surrogateOf
  cases identityOf unicode hashes fingerprinter tenantId sessionId
      e.entityType (slice text e.start e.stop) with
  | error error => rfl
  | ok hmac => exact length_surrogateFor _ _ _ _ _

/-- Under a policy that only pseudonymizes and allows, the protected text
is the text with a surrogate in each span that is not allowed. -/
theorem transform_surrogates {σ : Type} {vault : VaultLike σ}
    {entities : List DetectedEntity} {policy : PolicySnapshot} {w w' : σ}
    {out : TransformedText} {selected : List DetectedEntity}
    (htransform : runIn (transform unicode hashes fingerprinter vault
      tenantId sessionId text entities policy) w = (.ok out, w'))
    (hselected : selectEntities text entities policy = .ok selected)
    (hactions : ∀ e ∈ selected,
      policy.actionFor e.entityType = .pseudonymize ∨
        policy.actionFor e.entityType = .allow) :
    Plans text entities policy selected ∧
    out.text = fill text ((pseudonymizedSpans policy selected).map
      (surrogatePatch unicode hashes fingerprinter tenantId sessionId
        text)) := by
  obtain ⟨selected', minted, hplans, hmint, hok, hout, -⟩ :=
    transform_ok htransform
  cases hselected.symm.trans hplans.selects
  refine ⟨hplans, ?_⟩
  rw [hout, patches_mapped (by
    intro e he
    apply (hactions e he).imp_left
    intro haction
    rw [haction]
    rfl)]
  have hspans : pseudonymizedSpans policy selected =
      ((withActions policy selected).zipIdx.filter
        (fun item => needsMapping item.1.2)).map (fun item => item.1.1) := by
    rw [filter_withActions policy needsMapping selected 0]
    unfold pseudonymizedSpans
    apply List.filter_congr
    intro e he
    rcases hactions e he with haction | haction
    · rw [haction]
      rfl
    · rw [haction]
      rfl
  rw [hspans, List.map_map]
  congr 1
  rw [← List.filterMap_eq_map]
  apply List.filterMap_congr
  intro item hitem
  obtain ⟨hmem, hneeds⟩ := List.mem_filter.mp hitem
  obtain ⟨e, he, hplanned⟩ :=
    List.mem_map.mp (List.fst_mem_of_mem_zipIdx hmem)
  have haction : item.1.2 = .pseudonymize := by
    rw [← hplanned] at hneeds ⊢
    apply (hactions e he).resolve_right
    intro hallow
    rw [hallow] at hneeds
    cases hneeds
  -- its mapping is there, with the span's own fingerprint
  obtain ⟨r, hr⟩ := hok item hmem
  obtain ⟨m, hget⟩ := ((replacementOf_returns_iff (by
    rw [haction]
    exact EntityAction.noConfusion)).mp ⟨r, hr⟩).2 hneeds
  obtain ⟨-, -, -, hidentity⟩ := mint_own hmint hmem hget
  unfold patchOf replacementOf replacementFor surrogatePatch surrogateOf
  rw [haction, hget]
  simp [hidentity]

section Plans

variable {entities : List DetectedEntity} {policy : PolicySnapshot}
  {selected : List DetectedEntity}

theorem surrogates_fit (hplans : Plans text entities policy selected) :
    Splice.Fits text.length 0 ((pseudonymizedSpans policy selected).map
      (surrogatePatch unicode hashes fingerprinter tenantId sessionId
        text)) :=
  hplans.filter_fits
    (fun e => decide (policy.actionFor e.entityType = .pseudonymize))
    (surrogateOf unicode hashes fingerprinter tenantId sessionId text)

/-- Surrogates fill their spans and no more. -/
theorem length_surrogatePatch
    (hplans : Plans text entities policy selected) :
    ∀ p ∈ (pseudonymizedSpans policy selected).map (surrogatePatch unicode
        hashes fingerprinter tenantId sessionId text),
      p.body.length = p.stop - p.start := by
  intro p hp
  obtain ⟨e, he, rfl⟩ := List.mem_map.mp hp
  show (surrogateOf unicode hashes fingerprinter tenantId sessionId text
    e).length = e.stop - e.start
  have hstop := hplans.stop_le e (List.mem_of_mem_filter he)
  rw [length_surrogateOf, length_slice, Nat.min_eq_left hstop]

theorem length_surrogates (hplans : Plans text entities policy selected) :
    (fill text ((pseudonymizedSpans policy selected).map (surrogatePatch
      unicode hashes fingerprinter tenantId sessionId text))).length =
        text.length :=
  length_fillTo (le_refl _) (surrogates_fit hplans)
    (length_surrogatePatch hplans)

/-- Each pseudonymized span of the protected text holds its surrogate,
in the span's own place. -/
theorem slice_surrogates (hplans : Plans text entities policy selected)
    {e : DetectedEntity} (he : e ∈ pseudonymizedSpans policy selected) :
    slice (fill text ((pseudonymizedSpans policy selected).map
        (surrogatePatch unicode hashes fingerprinter tenantId sessionId
          text))) e.start e.stop =
      surrogateOf unicode hashes fingerprinter tenantId sessionId text
        e :=
  slice_fill (surrogates_fit hplans) (length_surrogatePatch hplans)
    (List.mem_map_of_mem he)

end Plans

-- ==================================================== delimiters

theorem mem_or_eq_getD {alphabet : Text} {i : Nat} {source : Char} :
    alphabet.getD i source ∈ alphabet ∨
      alphabet.getD i source = source := by
  rw [List.getD_eq_getElem?_getD]
  cases hget : alphabet[i]? with
  | none => exact Or.inr rfl
  | some c => exact Or.inl (List.mem_of_getElem? hget)

/-- No other character becomes a left delimiter. -/
theorem substituteChar_eq_leftDelimiter {source : Char} {noise : UInt8}
    (h : substituteChar unicode source noise = leftDelimiter) :
    source = leftDelimiter := by
  have halphabet : ∀ (alphabet : Text) (i : Nat),
      leftDelimiter ∉ alphabet →
        alphabet.getD i source = leftDelimiter →
          source = leftDelimiter := by
    intro alphabet i hnot heq
    rcases @mem_or_eq_getD alphabet i source with hmem | hsource
    · rw [heq] at hmem
      exact absurd hmem hnot
    · rw [← hsource, heq]
  unfold substituteChar at h
  split at h
  · exact halphabet _ _ (by decide) h
  · split at h
    · split at h
      · exact halphabet _ _ (by decide) h
      · exact halphabet _ _ (by decide) h
    · exact h

theorem leftDelimiter_mem_of_surrogateFor {entityType original hmac : Text}
    (h : leftDelimiter ∈
      surrogateFor unicode hashes entityType original hmac) :
    leftDelimiter ∈ original := by
  unfold surrogateFor at h
  simp only at h
  rw [← List.map_uncurry_zip_eq_zipWith] at h
  obtain ⟨pair, hpair, hchar⟩ := List.mem_map.mp h
  have hsource := (List.of_mem_zip hpair).1
  rw [substituteChar_eq_leftDelimiter hchar] at hsource
  exact hsource

/-- A text without left delimiters has none after its spans are
pseudonymized. -/
theorem leftDelimiter_not_mem_surrogates (htext : leftDelimiter ∉ text)
    (spans : List DetectedEntity) :
    leftDelimiter ∉ fill text (spans.map (surrogatePatch unicode hashes
      fingerprinter tenantId sessionId text)) := by
  have hslice : ∀ a b, leftDelimiter ∉ slice text a b := by
    intro a b hmem
    exact htext (List.mem_of_mem_take (List.mem_of_mem_drop hmem))
  intro hmem
  rcases mem_of_mem_fill hmem with hmem | ⟨p, hp, hmem⟩
  · exact htext hmem
  · obtain ⟨e, -, rfl⟩ := List.mem_map.mp hp
    change leftDelimiter ∈ surrogateOf unicode hashes fingerprinter
      tenantId sessionId text e at hmem
    unfold surrogateOf at hmem
    cases hidentity : identityOf unicode hashes fingerprinter tenantId
        sessionId e.entityType (slice text e.start e.stop) with
    | error error =>
        rw [hidentity] at hmem
        exact hslice _ _ hmem
    | ok hmac =>
        rw [hidentity] at hmem
        exact hslice _ _ (leftDelimiter_mem_of_surrogateFor hmem)

end Session

-- ==================================================== one name

/-- The digests of one name: its fingerprint under a fixed key, the digest
of that, and the digest its surrogate is drawn from. -/
def nameHashes : Hashes :=
  { Hashes.ofTables
      [((List.replicate 32 7,
          [0, 0, 0, 16, 0, 0, 0, 0, 0, 0, 0, 0, 0, 0, 0, 0, 0, 0, 0, 2,
            0, 0, 0, 16, 0, 0, 0, 0, 0, 0, 0, 0, 0, 0, 0, 0, 0, 0, 0, 3,
            0, 0, 0, 6, 80, 69, 82, 83, 79, 78, 0, 0, 0, 3, 65, 110, 110]),
        [143, 161, 10, 166, 43, 38, 180, 232, 153, 5, 253, 7, 38, 198, 213,
          205, 69, 200, 205, 50, 239, 166, 80, 38, 204, 11, 80, 85, 159,
          184, 113, 3])]
      [(encodeUtf8
          "8fa10aa62b26b4e89905fd0726c6d5cd45c8cd32efa65026cc0b50559fb87103".toList,
        [157, 114, 224, 130, 247, 129, 103, 234, 188, 99, 182, 17, 42, 161,
          29, 220, 166, 104, 227, 127, 111, 23, 2, 45, 5, 174, 91, 173, 58,
          137, 184, 45])] with
    blake2b := fun message => fitBytes 64
      (if message = encodeUtf8
          "8fa10aa62b26b4e89905fd0726c6d5cd45c8cd32efa65026cc0b50559fb87103:PERSON".toList ++
            [0, 0, 0, 0]
        then [230, 213, 247, 32, 171, 64, 184, 177, 5, 109, 98, 34, 38, 0,
          38, 104, 90, 242, 197, 208, 1, 211, 132, 40, 19, 46, 227, 145,
          225, 141, 156, 155, 63, 13, 152, 179, 101, 145, 206, 78, 220,
          130, 218, 203, 51, 111, 141, 197, 178, 137, 84, 209, 134, 148,
          93, 223, 233, 238, 142, 137, 176, 136, 254, 70]
        else [])
    blake2b_length := fun _ => length_fitBytes 64 _ }

def nameAt (start : Nat) : DetectedEntity where
  entityType := "PERSON".toList
  start := start
  stop := start + 3
  score := 17 / 20
  span_forward := by omega
  score_bounded := Bounds.seventeenTwentieths

/-- A policy that pseudonymizes names. -/
def surrogatesPolicy : PolicySnapshot where
  policyId := ⟨1⟩
  tenantId := ⟨2⟩
  version := 1
  name := "surrogates".toList
  sessionTtlSeconds := 3600
  maxEntities := 100
  unknownOutputTokenAction := .preserve
  entities := [
    ("PERSON".toList, ⟨.pseudonymize, 1 / 2, true, none, none, Bounds.half⟩)]
  providers := []

end PrivacyGateway.Tokenization
