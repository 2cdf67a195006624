/-
What restoring makes of a pseudonymized text.

The mint writes a vault mapping for every pseudonymized span, under a
token. The text holds the surrogate, and restoring looks for tokens alone:
nothing leads from the surrogate back to the mapping. So a protected text
without tokens comes back as it was written (`undone_iff_of_no_tokens`),
and what comes back of a value is its surrogate.

`pseudonyms_undone_iff` says which values survive that. One without
letters and digits is its own surrogate. One with a letter or digit outside
ASCII never is. Of the rest some digests make another value, so no
condition but the first holds whatever the digests.
-/
import PrivacyGateway.Restoration.Proofs.RoundTrip
import PrivacyGateway.Tokenization.Proofs.Shapes

namespace PrivacyGateway.Restoration

open Effect Splice Tokenization Vault RedisTokenVault

/-- The spans hold the text's own values in a text of the same layout. -/
def HoldsValues (text : Text) (spans : List DetectedEntity)
    (other : Text) : Prop :=
  ∀ e ∈ spans, slice other e.start e.stop = slice text e.start e.stop

/-- A text without left delimiters has no token. -/
theorem findTokens_eq_nil {text : Text} (h : leftDelimiter ∉ text) :
    findTokens text = [] := by
  rw [findTokens_eq_nil_iff]
  intro suffix hsuffix
  cases hmatch : matchStrict suffix with
  | none => rfl
  | some n =>
      obtain ⟨token, rest, rfl, -⟩ := matchStrict_eq_some_iff.mp hmatch
      exact absurd (hsuffix.mem List.mem_cons_self) h

section Undone

variable {vault : RedisTokenVault} {unicode : Unicode} {hashes' : Hashes}
  {fingerprinter : Fingerprinter} {t s : UUID}
  {before after : List VaultOp} {text : Text}
  {entities selected : List DetectedEntity} {policy : PolicySnapshot}
  {out : TransformedText} {w later : World} {model : Text} {limit : Nat}

/-- Restoring the text a transform wrote gives back the value of every
pseudonymized span. -/
def Undone (vault : RedisTokenVault) (unicode : Unicode) (t s : UUID)
    (policy : PolicySnapshot) (limit : Nat) (hlimit : 1 ≤ limit)
    (model text : Text) (selected : List DetectedEntity) (later : World)
    (out : TransformedText) : Prop :=
  ∃ restored,
    runIn ((OutputPipeline.mk (resolver vault) limit hlimit).restore
      unicode t s { content := some out.text, model := some model }
        policy) later = (.ok restored, later) ∧
    HoldsValues text (pseudonymizedSpans policy selected) restored.text

/-- A pseudonymized span has been fingerprinted. -/
theorem surrogateOf_eq {σ : Type} {like : Tokenization.VaultLike σ}
    {v v' : σ}
    {hashes : Hashes}
    (htransform : runIn (transform unicode hashes fingerprinter like t s
      text entities policy) v = (.ok out, v'))
    (hselected : selectEntities text entities policy = .ok selected)
    {e : DetectedEntity} (he : e ∈ pseudonymizedSpans policy selected) :
    ∃ hmac, surrogateOf unicode hashes fingerprinter t s text e =
      surrogateFor unicode hashes e.entityType
        (slice text e.start e.stop) hmac := by
  obtain ⟨selected', _, hplans, hmint, -⟩ := transform_ok htransform
  cases hselected.symm.trans hplans.selects
  obtain ⟨pendings, hpending, -⟩ := mint_ok hmint
  have hmapped : e ∈ mappedSpans policy selected := by
    obtain ⟨hmem, haction⟩ := List.mem_filter.mp he
    refine mem_mappedSpans.mpr ⟨hmem, ?_⟩
    rw [of_decide_eq_true haction]
    rfl
  obtain ⟨p, -, htype, horiginal, hidentity⟩ :=
    Aligned.exists_right (mappedSpans_awaited hpending) hmapped
  rw [htype, horiginal] at hidentity
  refine ⟨p.normalizedHmac, ?_⟩
  unfold surrogateOf
  rw [hidentity]

section Returned

variable {hlimit : 1 ≤ limit}
  (hmodel : unicode.strip model ≠ [])
  (hhashes : SameButBlake2b vault.hashes hashes')
  (htransform : runIn (transform unicode hashes' fingerprinter vault.like
    t s text entities policy) (vault.run .start before).world =
      (.ok out, w))
  (hselected : selectEntities text entities policy = .ok selected)
  (hactions : ∀ e ∈ selected,
    policy.actionFor e.entityType = .pseudonymize ∨
      policy.actionFor e.entityType = .allow)
  (hlength : text.length ≤ limit)
  (hlater : (vault.run { vault.run .start before with world := w }
    after).world = later)

include hmodel hhashes htransform hselected hactions hlength hlater

/-- A protected text without tokens comes back as it was written: a value
is back when its surrogate is the value. -/
theorem undone_iff_of_no_tokens (hnone : findTokens out.text = []) :
    Undone vault unicode t s policy limit hlimit model text selected later
        out ↔
      ∀ e ∈ pseudonymizedSpans policy selected,
        surrogateOf unicode hashes' fingerprinter t s text e =
          slice text e.start e.stop := by
  obtain ⟨hplans, hout⟩ :=
    transform_surrogates htransform hselected hactions
  -- the state the reply is restored in
  obtain ⟨_, _, -, hmint, -⟩ := transform_ok htransform
  rw [mint_congr hhashes] at hmint
  obtain ⟨st, rfl, hpending, hst, -, -⟩ :=
    mint_reaches (run_sound before) hmint
  have hfinal : vault.Sound (vault.run st after) :=
    (hst.throughout after).last
  have hworld : (vault.run st after).world = later := by
    rw [← hlater]
    exact run_world (show st.world = VaultState.world
      { vault.run .start before with world := st.world } from rfl)
      hpending after
  have hkept : out.text.length ≤ limit := by
    rw [hout, length_surrogates hplans]
    exact hlength
  have hsurrogates : HoldsValues text (pseudonymizedSpans policy selected)
        out.text ↔
      ∀ e ∈ pseudonymizedSpans policy selected,
        surrogateOf unicode hashes' fingerprinter t s text e =
          slice text e.start e.stop := by
    apply forall₂_congr
    intro e he
    rw [hout, slice_surrogates hplans he]
  have hrestores : ∀ {restored : Text}, Restores vault t s
      (vault.run st after).world.redis policy.unknownOutputTokenAction
        out.text restored ↔ restored = out.text :=
    restores_of_no_tokens hnone
  rw [← hsurrogates, ← hworld]
  unfold Undone
  constructor
  · rintro ⟨restored, hrun, hholds⟩
    have htext := (restore_returns_iff hlimit hmodel hfinal hkept).mp
      ⟨restored, hrun, rfl⟩
    rw [hrestores.mp htext] at hholds
    exact hholds
  · intro hholds
    obtain ⟨output, hrun, htext⟩ :=
      (restore_returns_iff hlimit hmodel hfinal hkept).mpr
        (hrestores.mpr rfl)
    refine ⟨output, hrun, ?_⟩
    rw [htext]
    exact hholds

/-- A value that is never its own surrogate does not come back. -/
theorem not_undone_of_char (hplain : leftDelimiter ∉ text)
    {e : DetectedEntity} (he : e ∈ pseudonymizedSpans policy selected)
    (hnot : ∀ hmac, surrogateFor unicode hashes' e.entityType
      (slice text e.start e.stop) hmac ≠ slice text e.start e.stop) :
    ¬ Undone vault unicode t s policy limit hlimit model text selected later
      out := by
  obtain ⟨-, hout⟩ := transform_surrogates htransform hselected hactions
  rw [undone_iff_of_no_tokens hmodel hhashes htransform hselected hactions
    hlength hlater (hout ▸ findTokens_eq_nil
      (leftDelimiter_not_mem_surrogates hplain _))]
  intro hall
  obtain ⟨hmac, heq⟩ := surrogateOf_eq htransform hselected he
  exact hnot hmac (heq ▸ hall e he)

/-- Values without letters and digits survive. -/
theorem undone_of_plain (htext : findTokens text = [])
    (hplain : ∀ e ∈ pseudonymizedSpans policy selected,
      ∀ c ∈ slice text e.start e.stop, ¬ IsDrawn unicode c) :
    Undone vault unicode t s policy limit hlimit model text selected later
      out := by
  obtain ⟨hplans, hout⟩ :=
    transform_surrogates htransform hselected hactions
  have hsame : ∀ e ∈ pseudonymizedSpans policy selected,
      surrogateOf unicode hashes' fingerprinter t s text e =
        slice text e.start e.stop := by
    intro e he
    obtain ⟨hmac, heq⟩ := surrogateOf_eq htransform hselected he
    rw [heq, surrogateFor_eq_self (hplain e he)]
  -- so the text is written back, and it has no tokens
  have hkept : out.text = text := by
    rw [hout]
    apply fill_eq_self (surrogates_fit hplans)
    intro p hp
    obtain ⟨e, he, rfl⟩ := List.mem_map.mp hp
    exact hsame e he
  exact (undone_iff_of_no_tokens hmodel hhashes htransform hselected
    hactions hlength hlater (hkept ▸ htext)).mpr hsame

end Returned

end Undone

/-- When restoring undoes pseudonymization. Under a policy that
pseudonymizes or allows every selected span, restoring what a transform
returned, at any later moment, gives back the value of every pseudonymized
span if none has a letter or digit. In a text without left delimiters it
does not if one has a letter or digit outside ASCII, and it does whatever
BLAKE2b is only if none has a letter or digit. -/
theorem pseudonyms_undone_iff (vault : RedisTokenVault) (unicode : Unicode)
    (fingerprinter : Fingerprinter) (t s : UUID)
    (before after : List VaultOp) {text : Text}
    {entities : List DetectedEntity} {policy : PolicySnapshot}
    {out : TransformedText} {w later : World} {model : Text} {limit : Nat}
    (hlimit : 1 ≤ limit) (hmodel : unicode.strip model ≠ [])
    (htext : findTokens text = [])
    (htransform : runIn (transform unicode vault.hashes fingerprinter
      vault.like t s text entities policy)
        (vault.run .start before).world = (.ok out, w))
    {selected : List DetectedEntity}
    (hselected : selectEntities text entities policy = .ok selected)
    (hactions : ∀ e ∈ selected,
      policy.actionFor e.entityType = .pseudonymize ∨
        policy.actionFor e.entityType = .allow)
    (hlength : text.length ≤ limit)
    (hlater : (vault.run { vault.run .start before with world := w }
      after).world = later) :
    let spans := pseudonymizedSpans policy selected
    let undone := Undone vault unicode t s policy limit hlimit model text
      selected later
    ((∀ e ∈ spans, ∀ c ∈ slice text e.start e.stop,
      ¬ IsDrawn unicode c) → undone out) ∧
    (leftDelimiter ∉ text →
      (∃ e ∈ spans, ∃ c ∈ slice text e.start e.stop,
        IsDrawn unicode c ∧ isAscii c = false) → ¬ undone out) ∧
    (leftDelimiter ∉ text →
      ((∀ hashes', SameButBlake2b vault.hashes hashes' →
          ∃ out', runIn (transform unicode hashes' fingerprinter vault.like
            t s text entities policy) (vault.run .start before).world =
              (.ok out', w) ∧ undone out') ↔
        ∀ e ∈ spans, ∀ c ∈ slice text e.start e.stop,
          ¬ IsDrawn unicode c)) := by
  intro spans undone
  refine ⟨undone_of_plain hmodel (.refl _) htransform hselected hactions
    hlength hlater htext, ?_, ?_⟩
  · rintro hplain ⟨e, he, c, hc, hdrawn, hascii⟩
    exact not_undone_of_char hmodel (.refl _) htransform hselected hactions
      hlength hlater hplain he
        (fun _ => surrogateFor_ne_of_not_ascii hc hdrawn hascii)
  · intro hplain
    constructor
    · intro hall e he c hc hdrawn
      -- a digest of one byte that does not draw the character
      obtain ⟨noise, hnoise⟩ := exists_not_redrawn hdrawn
      have hhashes : SameButBlake2b vault.hashes
          (constantHashes vault.hashes noise) := ⟨rfl, rfl⟩
      obtain ⟨out', htransform', hundone⟩ := hall _ hhashes
      refine not_undone_of_char hmodel hhashes htransform' hselected
        hactions hlength hlater hplain he (fun hmac hsame => ?_) hundone
      obtain ⟨byte, hpair⟩ := exists_mem_zip hc (length_keystream
        (constantHashes vault.hashes noise)
        (encodeUtf8 (hmac ++ ':' :: e.entityType)) _).symm
      have hredrawn := surrogateFor_eq_self_iff.mp hsame _ hpair
      rw [mem_keystream_constantHashes (List.of_mem_zip hpair).2]
        at hredrawn
      exact hnoise hredrawn
    · intro hnone hashes' hhashes
      obtain ⟨out', htransform'⟩ := transform_congr hhashes htransform
      exact ⟨out', htransform', undone_of_plain hmodel hhashes
        htransform' hselected hactions hlength hlater htext hnone⟩

-- ==================================================== on fixed inputs

def namePipeline : OutputPipeline World where
  vault := resolver (Reference.vault nameHashes)
  maxOutputChars_pos := defaultMaxOutputChars_pos

/-- Transform a text on an empty server, with these names detected. -/
def pseudonymizeNames (text : Text) (starts : List Nat) :
    Except Exn TransformedText × World :=
  runIn (transform Unicode.ascii nameHashes sampleFingerprinter
    (Reference.vault nameHashes).like ⟨2⟩ ⟨3⟩ text (starts.map nameAt)
    surrogatesPolicy) VaultState.start.world

/-- A name is pseudonymized with a mapping in the vault, and restoring at
once gives the surrogate back. -/
theorem surrogate_kept :
    findTokens "Ann".toList = [] ∧
    (pseudonymizeNames "Ann".toList [0]).1.toOption.map
        TransformedText.text = some "Wfn".toList ∧
    (pseudonymizeNames "Ann".toList [0]).1.toOption.map
        (fun out => out.mappings.map EntityMapping.originalValue) =
      some ["Ann".toList] ∧
    (runIn (namePipeline.restore Unicode.ascii ⟨2⟩ ⟨3⟩
        { content := some "Wfn".toList, model := some "m".toList }
        surrogatesPolicy)
        (pseudonymizeNames "Ann".toList [0]).2).1.toOption.map
          RestoredOutput.text = some "Wfn".toList := by
  decide +kernel

def dashesHmac : Text :=
  "ab42e7f531ea56ec4cae7da2cf759eb406d64253fa0f1654cf8a27b7c4903583".toList

/-- The digests of a value that has been struck out already. -/
def dashesHashes : Hashes :=
  { Hashes.ofTables
      [((List.replicate 32 7,
          [0, 0, 0, 16, 0, 0, 0, 0, 0, 0, 0, 0, 0, 0, 0, 0, 0, 0, 0, 2,
            0, 0, 0, 16, 0, 0, 0, 0, 0, 0, 0, 0, 0, 0, 0, 0, 0, 0, 0, 3,
            0, 0, 0, 6, 80, 69, 82, 83, 79, 78, 0, 0, 0, 3, 45, 45, 45]),
        [171, 66, 231, 245, 49, 234, 86, 236, 76, 174, 125, 162, 207, 117,
          158, 180, 6, 214, 66, 83, 250, 15, 22, 84, 207, 138, 39, 183,
          196, 144, 53, 131])]
      [(encodeUtf8 dashesHmac,
        [4, 71, 36, 181, 10, 54, 147, 222, 203, 93, 70, 217, 200, 187, 159,
          255, 182, 170, 115, 165, 222, 18, 98, 248, 134, 137, 71, 192, 17,
          164, 205, 9])] with
    blake2b := fun message => fitBytes 64
      (if message = encodeUtf8 (dashesHmac ++ ":PERSON".toList) ++
            [0, 0, 0, 0]
        then [46, 205, 237, 12, 56, 136, 197, 82, 30, 60, 208, 19, 211, 247,
          20, 114, 123, 212, 30, 245, 170, 109, 73, 2, 167, 139, 71, 47, 42,
          251, 73, 153, 216, 205, 143, 237, 240, 84, 197, 45, 252, 92, 128,
          140, 179, 66, 159, 32, 213, 22, 41, 135, 134, 155, 197, 244, 229,
          232, 231, 225, 254, 8, 122, 184]
        else [])
    blake2b_length := fun _ => length_fitBytes 64 _ }

/-- What pseudonymizing it returns. -/
def pseudonymizedDashes : TransformedText where
  text := "---".toList
  mappings := [
    { token := "⟦SGW:PERSON:00000000000000000000000000⟧".toList
      tokenId := "00000000000000000000000000".toList
      entityType := "PERSON".toList
      originalValue := "---".toList
      normalizedHmac := dashesHmac }]
  summary :=
    { detected := 1, pseudonymized := 1
      entityTypes := [("PERSON".toList, 1)] }

/-- It is its own surrogate, and so it comes back. -/
theorem dashes_undone :
    let vault := Reference.vault dashesHashes
    let protectedWorld := (runIn (transform Unicode.ascii dashesHashes
      sampleFingerprinter vault.like ⟨2⟩ ⟨3⟩ "---".toList [nameAt 0]
      surrogatesPolicy) VaultState.start.world).2
    Undone vault Unicode.ascii ⟨2⟩ ⟨3⟩ surrogatesPolicy
      defaultMaxOutputChars defaultMaxOutputChars_pos "m".toList
      "---".toList [nameAt 0] (protectedWorld.elapse 1000)
      pseudonymizedDashes := by
  intro vault protectedWorld
  have htransform : runIn (transform Unicode.ascii vault.hashes
      sampleFingerprinter vault.like ⟨2⟩ ⟨3⟩ "---".toList [nameAt 0]
      surrogatesPolicy) (vault.run .start []).world =
        (.ok pseudonymizedDashes, protectedWorld) :=
    Prod.ext (by decide +kernel) rfl
  refine (pseudonyms_undone_iff vault Unicode.ascii sampleFingerprinter
    ⟨2⟩ ⟨3⟩ [] [.wait 1000] defaultMaxOutputChars_pos
    (show Unicode.ascii.strip "m".toList ≠ [] by decide +kernel)
    (by decide +kernel) htransform
    (show selectEntities "---".toList [nameAt 0] surrogatesPolicy =
      .ok [nameAt 0] by decide +kernel)
    (by decide +kernel) (by decide +kernel) rfl).1 ?_
  intro e he c hc
  have hdash : c = '-' := by
    have hspans : pseudonymizedSpans surrogatesPolicy [nameAt 0] =
        [nameAt 0] := by decide +kernel
    rw [hspans, List.mem_singleton] at he
    subst he
    have hvalue : slice "---".toList (nameAt 0).start (nameAt 0).stop =
        List.replicate 3 '-' := by decide
    rw [hvalue] at hc
    exact List.eq_of_mem_replicate hc
  subst hdash
  decide +kernel

end PrivacyGateway.Restoration
