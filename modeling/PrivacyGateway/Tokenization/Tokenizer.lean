/-
The tokenizer: apply policy actions to detected spans and splice the text.

`transform` selects the spans, enforces the entity limit, refuses blocked
spans, mints every mapping in one vault call, and only then splices the
text from the right. Everything before the vault call leaves the vault
alone.

The vault is a parameter (`VaultLike`): one operation over a state of its
own. `transform_ok` is the specification: what a returned transform
computed, stage by stage, with the spliced text given as a left-to-right
fill of the original.
-/
import PrivacyGateway.Lib.Effect
import PrivacyGateway.Lib.Splice
import PrivacyGateway.Tokenization.Grammar
import PrivacyGateway.Tokenization.Identity
import PrivacyGateway.Tokenization.Selection

namespace PrivacyGateway.Tokenization

open Effect Splice

-- ==================================================== pseudonyms

def blockBytes : Nat := 64
def counterBytes : Nat := 4

/-- Expand a seed into `length` bytes, one digest after another. -/
def keystream (hashes : Hashes) (seed : Bytes) (length : Nat) : Bytes :=
  ((List.range ((length + blockBytes - 1) / blockBytes)).flatMap
    (fun counter =>
      hashes.blake2b (seed ++ Frame.bigEndian counterBytes counter))).take
        length

def surrogateDigits : Text := "0123456789".toList
def surrogateLower : Text := "abcdefghijklmnopqrstuvwxyz".toList
def surrogateUpper : Text := "ABCDEFGHIJKLMNOPQRSTUVWXYZ".toList

/-- Map one character onto another of the same class, or keep it. -/
def substituteChar (unicode : Unicode) (source : Char) (noise : UInt8) :
    Char :=
  if unicode.isDigit source then
    surrogateDigits.getD (noise.toNat % 10) source
  else if unicode.isAlpha source then
    if isAscii source && unicode.isUpper source then
      surrogateUpper.getD (noise.toNat % 26) source
    else surrogateLower.getD (noise.toNat % 26) source
  else source

/-- A stable, same-shape surrogate. -/
def surrogateFor (unicode : Unicode) (hashes : Hashes)
    (entityType originalValue fingerprint : Text) : Text :=
  let seed := encodeUtf8 (fingerprint ++ ':' :: entityType)
  List.zipWith (substituteChar unicode) originalValue
    (keystream hashes seed originalValue.length)

-- ==================================================== the vault seam

/-- The session vault, from the tokenizer's point of view: one write
operation over a state. -/
structure VaultLike (σ : Type) where
  getOrCreateMany : (tenantId sessionId : UUID) →
    (entries : List VaultWriteRequest) → (ttlSeconds : Int) →
      Eff σ Exn (List Text)

/-- A span awaiting a token, and where it sits in the plan. -/
structure Pending where
  index : Nat
  original : Text
  entityType : Text
  normalizedHmac : Text
deriving DecidableEq

/-- What the vault is asked for a pending span. -/
def Pending.request (item : Pending) : VaultWriteRequest where
  entityType := item.entityType
  normalizedHmac := item.normalizedHmac
  originalValue := item.original

/-- One entry of the plan: a selected span and what to do with it. -/
abbrev Planned := DetectedEntity × EntityAction

/-- The actions that need a vault mapping. -/
def needsMapping (action : EntityAction) : Bool :=
  action == .tokenize || action == .pseudonymize

-- ==================================================== planning

def enforceLimit (selected : List DetectedEntity)
    (policy : PolicySnapshot) : Except Exn Unit :=
  if selected.length ≤ policy.maxEntities then .ok ()
  else .error (gatewayError .entityLimitExceeded
    [("entity_count", .int selected.length),
      ("max_entities", .int policy.maxEntities)])

/-- Fail if any span is blocked. -/
def rejectBlocked : List Planned → Except Exn Unit
  | [] => .ok ()
  | item :: plan =>
      if item.2 = .block then
        .error (gatewayError .policyViolation
          [("entity_type", .text item.1.entityType)])
      else rejectBlocked plan

/-- The selected spans with their actions, once every check passed. -/
def planFor (text : Text) (entities : List DetectedEntity)
    (policy : PolicySnapshot) : Except Exn (List Planned) := do
  let selected ← selectEntities text entities policy
  enforceLimit selected policy
  let plan := selected.map (fun e => (e, policy.actionFor e.entityType))
  rejectBlocked plan
  return plan

section Mint

variable (unicode : Unicode) (hashes : Hashes)
  (fingerprinter : Fingerprinter) (tenantId sessionId : UUID)

/-- The fingerprint of a value in a session. -/
def identityOf (entityType original : Text) : Except Exn Text :=
  fingerprinter.fingerprint hashes tenantId sessionId entityType
    (normalize unicode entityType original)

def pendingFor (index : Nat) (original entityType : Text) :
    Except Exn Pending :=
  match identityOf unicode hashes fingerprinter tenantId sessionId
      entityType original with
  | .ok normalizedHmac =>
      .ok ⟨index, original, entityType, normalizedHmac⟩
  | .error e => .error e

/-- The spans of the plan that need a mapping, in plan order. -/
def pendingOf (text : Text) :
    List (Planned × Nat) → Except Exn (List Pending)
  | [] => .ok []
  | (item, index) :: rest =>
      if needsMapping item.2 then
        match pendingFor unicode hashes fingerprinter tenantId sessionId
            index (slice text item.1.start item.1.stop)
            item.1.entityType with
        | .error e => .error e
        | .ok pending =>
            match pendingOf text rest with
            | .error e => .error e
            | .ok pendings => .ok (pending :: pendings)
      else pendingOf text rest

/-- Interpret what the vault returned as a token. -/
def coerceVaultToken (rawToken entityType : Text) : Except Exn Token :=
  match parseToken rawToken with
  | some token =>
      if token.entityType = entityType then .ok token
      else .error (gatewayError .internalError
        (reason "vault token entity type does not match the request" ++
          [("expected_entity_type", .text entityType),
            ("token_entity_type", .text token.entityType)]))
  | none =>
      if hid : isValidTokenId rawToken = true then
        if htype : isValidEntityType entityType = true then
          .ok ⟨entityType, rawToken, htype, hid⟩
        else .error (.value "invalid token entity type")
      else .error (gatewayError .internalError
        (reason "vault returned a malformed token" ++
          [("entity_type", .text entityType)]))

def mappingFor (item : Pending) (rawToken : Text) :
    Except Exn EntityMapping :=
  match coerceVaultToken rawToken item.entityType with
  | .ok token =>
      .ok
        { token := token.text
          tokenId := token.tokenId
          entityType := item.entityType
          originalValue := item.original
          normalizedHmac := item.normalizedHmac }
  | .error e => .error e

/-- Pair each pending span with its token, keyed by plan index. -/
def mappingsFor : List Pending → List Text →
    Except Exn (Dict Nat EntityMapping)
  | item :: pending, rawToken :: tokens =>
      match mappingFor item rawToken with
      | .error e => .error e
      | .ok mapping =>
          match mappingsFor pending tokens with
          | .error e => .error e
          | .ok minted => .ok ((item.index, mapping) :: minted)
  | _, _ => .ok []

/-- Create every mapping the plan needs, in one vault call. -/
def mint {σ : Type} (vault : VaultLike σ) (text : Text)
    (plan : List Planned) (ttlSeconds : Int) :
    Eff σ Exn (Dict Nat EntityMapping) := do
  let pending ← checked (pendingOf unicode hashes fingerprinter tenantId
    sessionId text plan.zipIdx)
  if pending = [] then
    return []
  else
    let tokens ← vault.getOrCreateMany tenantId sessionId
      (pending.map Pending.request) ttlSeconds
    if tokens.length = pending.length then
      checked (mappingsFor pending tokens)
    else
      throw (gatewayError .internalError
        (reason "vault returned the wrong number of tokens" ++
          [("expected", .int pending.length),
            ("received", .int tokens.length)]))

end Mint

-- ==================================================== splicing

/-- The text that replaces a span, or `none` to leave it alone. -/
def replacementFor (unicode : Unicode) (hashes : Hashes)
    (action : EntityAction) (entityType : Text)
    (mapping : Option EntityMapping) (original : Text) :
    Except Exn (Option Text) :=
  match action with
  | .allow => .ok none
  | .redact =>
      match formatRedaction entityType with
      | .ok placeholder => .ok (some placeholder)
      | .error e => .error e
  | _ =>
      match mapping with
      | none => .error (.assertion
          "a mapping action reached replacement without a mapping")
      | some mapping =>
          if action = .pseudonymize then
            .ok (some (surrogateFor unicode hashes entityType original
              mapping.normalizedHmac))
          else .ok (some mapping.token)

/-- What the splice loop has collected: pieces and mappings in reverse
text order, and the offset everything up to which is still to come. -/
structure Spliced where
  pieces : List Text
  mappings : List EntityMapping
  cursor : Nat

/-- The replacement of one planned span. -/
def replacementOf (unicode : Unicode) (hashes : Hashes) (text : Text)
    (minted : Dict Nat EntityMapping) (item : Planned × Nat) :
    Except Exn (Option Text) :=
  replacementFor unicode hashes item.1.2 item.1.1.entityType
    (minted.get? item.2) (slice text item.1.1.start item.1.1.stop)

/-- The splice loop over the remaining spans. -/
def spliceFrom (unicode : Unicode) (hashes : Hashes) (text : Text)
    (minted : Dict Nat EntityMapping) :
    Spliced → List (Planned × Nat) → Except Exn Spliced
  | state, [] => .ok state
  | state, item :: order =>
      let mappings := match minted.get? item.2 with
        | some mapping => state.mappings ++ [mapping]
        | none => state.mappings
      match replacementOf unicode hashes text minted item with
      | .error e => .error e
      | .ok none =>
          spliceFrom unicode hashes text minted
            { state with mappings := mappings } order
      | .ok (some replacement) =>
          spliceFrom unicode hashes text minted
            { pieces := state.pieces ++
                [slice text item.1.1.stop state.cursor, replacement]
              mappings := mappings
              cursor := item.1.1.start } order

/-- The plan from the right: `sorted(..., reverse=True)` on the starts. -/
def spliceOrder (plan : List Planned) : List (Planned × Nat) :=
  Selection.sortByDesc (fun item => item.1.1.start) plan.zipIdx

def countTypes : List Planned → Dict Text Nat → Dict Text Nat
  | [], counts => counts
  | item :: plan, counts =>
      countTypes plan (counts.set item.1.entityType
        ((counts.get? item.1.entityType).getD 0 + 1))

def tally (plan : List Planned) (action : EntityAction) : Nat :=
  plan.countP (fun item => item.2 == action)

/-- The counts-only summary. -/
def summarize (plan : List Planned) : PrivacySummary where
  detected := plan.length
  tokenized := tally plan .tokenize
  redacted := tally plan .redact
  pseudonymized := tally plan .pseudonymize
  allowed := tally plan .allow
  entityTypes := countTypes plan []

/-- The protected text, its mappings, and a counts-only summary. -/
def transform {σ : Type} (unicode : Unicode) (hashes : Hashes)
    (fingerprinter : Fingerprinter) (vault : VaultLike σ)
    (tenantId sessionId : UUID) (text : Text)
    (entities : List DetectedEntity) (policy : PolicySnapshot) :
    Eff σ Exn TransformedText := do
  let plan ← checked (planFor text entities policy)
  let minted ← mint unicode hashes fingerprinter tenantId sessionId vault
    text plan policy.sessionTtlSeconds
  let spliced ← checked (spliceFrom unicode hashes text minted
    ⟨[], [], text.length⟩ (spliceOrder plan))
  return {
    text := (spliced.pieces ++ [text.take spliced.cursor]).reverse.flatten
    mappings := spliced.mappings.reverse
    summary := summarize plan }

end PrivacyGateway.Tokenization
