/-
Output parsing and restoration: the last stage before the caller.

The tokens of a reply are found by the grammar, resolved in one vault
call, and replaced in one pass over the reply; a restored value is never
looked at again. `substitute_eq_fill` says the pass is the left-to-right
fill of the splice library, and that it never raises: a found token has a
valid type, so its redaction can be formatted.
-/
import PrivacyGateway.Lib.Effect
import PrivacyGateway.Lib.Splice
import PrivacyGateway.Policy.Models
import PrivacyGateway.Tokenization.Grammar
import PrivacyGateway.Unicode

namespace PrivacyGateway.Restoration

open Effect Splice Tokenization

def defaultMaxOutputChars : Nat := 131072

theorem defaultMaxOutputChars_pos : 1 ≤ defaultMaxOutputChars := by decide

/-- The session vault, from the restorer's point of view: one read
operation over a state. -/
structure VaultLike (σ : Type) where
  resolveMany : (tenantId sessionId : UUID) → (tokens : List Text) →
    Eff σ Exn (Dict Text Text)

/-- Authorized output. -/
structure RestoredOutput where
  text : Text
  summary : PrivacySummary
  model : Option Text
  usage : Option ProviderUsage
deriving DecidableEq

-- ==================================================== validation

def providerResponseInvalid (logContext : List (String × LogValue)) : Exn :=
  gatewayError .providerResponseInvalid logContext

/-- The response body, or the reason to reject the payload. -/
def validatedContent (unicode : Unicode) (response : ProviderResponse)
    (limit : Nat) : Except Exn Text :=
  match response.content with
  | none => .error (providerResponseInvalid (reason "content_not_text"))
  | some content =>
      match response.model with
      | none => .error (providerResponseInvalid (reason "missing_model"))
      | some model =>
          if unicode.strip model = [] then
            .error (providerResponseInvalid (reason "missing_model"))
          else if content.length > limit then
            .error (providerResponseInvalid
              (reason "output_too_large" ++
                [("characters", .int content.length),
                  ("limit", .int limit)]))
          else .ok content

-- ==================================================== substitution

/-- The text that stands in for one matched token. -/
def replacement (found : TokenMatch) (resolved : Dict Text Text)
    (action : UnknownTokenAction) : Except Exn Text :=
  match resolved.get? found.text with
  | some original => .ok original
  | none =>
      if action = .redact then formatRedaction found.token.entityType
      else .ok found.text

/-- The walk over the matches: what is still to come starts at the
cursor. -/
def substituteFrom (text : Text) (resolved : Dict Text Text)
    (action : UnknownTokenAction) :
    Nat → List TokenMatch → Except Exn Text
  | cursor, [] => .ok (text.drop cursor)
  | cursor, found :: rest =>
      match replacement found resolved action with
      | .error e => .error e
      | .ok piece =>
          match substituteFrom text resolved action found.stop rest with
          | .error e => .error e
          | .ok pieces =>
              .ok (slice text cursor found.start ++ piece ++ pieces)

/-- Rebuild a text from segments, each match replaced once. -/
def substitute (text : Text) (found : List TokenMatch)
    (resolved : Dict Text Text) (action : UnknownTokenAction) :
    Except Exn Text :=
  substituteFrom text resolved action 0 found

/-- What stands in for a token's text. -/
def standIn (resolved : Dict Text Text) (action : UnknownTokenAction)
    (token : Token) : Text :=
  match resolved.get? token.text with
  | some original => original
  | none =>
      if action = .redact then renderRedaction token.entityType
      else token.text

theorem replacement_eq (found : TokenMatch) (resolved : Dict Text Text)
    (action : UnknownTokenAction) :
    replacement found resolved action =
      .ok (standIn resolved action found.token) := by
  unfold replacement standIn
  show (match resolved.get? found.token.text with
    | some original => _
    | none => _) = _
  cases resolved.get? found.token.text with
  | some original => rfl
  | none =>
      by_cases hredact : action = .redact
      · rw [if_pos hredact]
        simp only
        rw [if_pos hredact]
        unfold formatRedaction
        rw [found.token.entityType_valid]
        rfl
      · rw [if_neg hredact]
        simp only
        rw [if_neg hredact]
        rfl

/-- The patch of a match. -/
def patchFor (resolved : Dict Text Text) (action : UnknownTokenAction)
    (found : TokenMatch) : Patch Char :=
  ⟨found.start, found.stop, standIn resolved action found.token⟩

/-- The pass is a fill, and it never raises. -/
theorem substitute_eq_fill (text : Text) (resolved : Dict Text Text)
    (action : UnknownTokenAction) (found : List TokenMatch) :
    substitute text found resolved action =
      .ok (fill text (found.map (patchFor resolved action))) := by
  have hwalk : ∀ cursor, substituteFrom text resolved action cursor found =
      .ok (fillTo text text.length cursor
        (found.map (patchFor resolved action))) := by
    induction found with
    | nil =>
        intro cursor
        show Except.ok (text.drop cursor) = _
        simp [fillTo, slice]
    | cons found rest ih =>
        intro cursor
        unfold substituteFrom
        rw [replacement_eq, ih found.stop]
        rfl
  exact hwalk 0

-- ==================================================== restoration

/-- Restores gateway tokens in one provider response. -/
structure OutputPipeline (σ : Type) where
  vault : VaultLike σ
  maxOutputChars : Nat := defaultMaxOutputChars
  maxOutputChars_pos : 1 ≤ maxOutputChars

/-- The distinct token texts of a reply. -/
def candidatesOf (found : List TokenMatch) : List Text :=
  (found.map TokenMatch.text).dedup

/-- The candidates the vault did not resolve. -/
def unknownOf (candidates : List Text) (resolved : Dict Text Text) :
    List Text :=
  candidates.filter (fun candidate => (resolved.get? candidate).isNone)

/-- A reply without tokens. -/
def passthrough (response : ProviderResponse) (text : Text) :
    RestoredOutput where
  text := text
  summary := {}
  model := response.model
  usage := response.usage

/-- A reply with this session's tokens replaced by their originals. -/
def OutputPipeline.restore {σ : Type} (pipeline : OutputPipeline σ)
    (unicode : Unicode) (tenantId sessionId : UUID)
    (response : ProviderResponse) (policy : PolicySnapshot) :
    Eff σ Exn RestoredOutput := do
  let text ← checked (validatedContent unicode response
    pipeline.maxOutputChars)
  let found := findTokens text
  if found = [] then
    return passthrough response text
  else
    let candidates := candidatesOf found
    let resolved ← pipeline.vault.resolveMany tenantId sessionId candidates
    let unknown := unknownOf candidates resolved
    let action := policy.unknownOutputTokenAction
    if unknown ≠ [] ∧ action = .fail then
      throw (gatewayError .restorationFailed
        [("unknown_tokens", .int unknown.length)])
    else
      let restored ← checked (substitute text found resolved action)
      return {
        text := restored
        summary :=
          { restored := resolved.length, unknownTokens := unknown.length }
        model := response.model
        usage := response.usage }

/-- Restoration counts tokens, and no entity types. -/
theorem OutputPipeline.restore_counts {σ : Type} {unicode : Unicode}
    {pipeline : OutputPipeline σ} {tenantId sessionId : UUID}
    {response : ProviderResponse} {policy : PolicySnapshot} {s t : σ}
    {restored : RestoredOutput}
    (h : runIn (pipeline.restore unicode tenantId sessionId response
      policy) s = (.ok restored, t)) : restored.summary.entityTypes = [] := by
  unfold OutputPipeline.restore at h
  obtain ⟨text, -, h⟩ := checked_bind_ok_iff.mp h
  simp only at h
  split at h
  · cases h
    rfl
  · obtain ⟨resolved, u, -, h⟩ := bind_ok_iff.mp h
    split at h
    · cases h
    · obtain ⟨filled, -, h⟩ := checked_bind_ok_iff.mp h
      cases h
      rfl

end PrivacyGateway.Restoration
