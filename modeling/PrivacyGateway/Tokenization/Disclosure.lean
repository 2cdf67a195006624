/-
What a protected text gives away.

A run is seen from outside as the list of its protected texts and counts
(`disclosures`). Two runs are `Indistinct` step by step when they differ
only in the values that the policy hides: each pair of texts has hidden
spans of the same types in the same order, and the same text around them
(`SameOutside`). What a step tokenizes is its list of identities; which of
these repeat is the pattern of a run (`RepeatTogether`).
-/
import PrivacyGateway.Tokenization.Proofs.Coherence
import PrivacyGateway.Vault.Proofs.Keys

namespace PrivacyGateway.Tokenization

open Effect Splice Vault

-- ==================================================== seen from outside

/-- What leaves of a transform: the text and the counts, or the error. -/
def disclosed : Except Exn TransformedText →
    Except Exn (Text × PrivacySummary)
  | .ok out => .ok (out.text, out.summary)
  | .error e => .error e

section Observer

variable (vault : RedisTokenVault) (unicode : Unicode)
  (fingerprinter : Fingerprinter)

/-- What a step discloses. Time passing and a lost key disclose nothing. -/
def disclosure (state : SessionState) :
    SessionOp → List (Except Exn (Text × PrivacySummary))
  | .protect tenantId sessionId text entities policy =>
      [disclosed (runIn (transform unicode vault.hashes fingerprinter
        vault.like tenantId sessionId text entities policy) state.world).1]
  | _ => []

def disclosures (state : SessionState) :
    List SessionOp → List (Except Exn (Text × PrivacySummary))
  | [] => []
  | op :: ops => disclosure vault unicode fingerprinter state op ++
      disclosures (sessionStep vault unicode fingerprinter state op) ops

end Observer

-- ==================================================== texts

/-- The selected spans that do not stay in the text. -/
def hiddenSpans (policy : PolicySnapshot)
    (selected : List DetectedEntity) : List DetectedEntity :=
  selected.filter (fun e =>
    decide (policy.actionFor e.entityType ≠ .allow))

theorem mem_hiddenSpans {policy : PolicySnapshot}
    {selected : List DetectedEntity} {e : DetectedEntity} :
    e ∈ hiddenSpans policy selected ↔
      e ∈ selected ∧ policy.actionFor e.entityType ≠ .allow := by
  unfold hiddenSpans
  rw [List.mem_filter, decide_eq_true_eq]

/-- The text before, between and after the spans. -/
def around (text : Text) (cursor stop : Nat) :
    List DetectedEntity → List Text
  | [] => [slice text cursor stop]
  | e :: spans =>
      slice text cursor e.start :: around text e.stop stop spans

/-- The texts differ only in what the policy hides. -/
structure SameOutside (policy : PolicySnapshot) (text text' : Text)
    (selected selected' : List DetectedEntity) : Prop where
  types : selected.map DetectedEntity.entityType =
    selected'.map DetectedEntity.entityType
  outside : around text 0 text.length (hiddenSpans policy selected) =
    around text' 0 text'.length (hiddenSpans policy selected')

-- ==================================================== identities

/-- The identities of what is tokenized, in text order. -/
def identitiesIn (unicode : Unicode) (tenantId sessionId : UUID)
    (policy : PolicySnapshot) (text : Text)
    (selected : List DetectedEntity) : List Identity :=
  (tokenizedSpans policy selected).map (fun e =>
    identityIn unicode tenantId sessionId e.entityType
      (slice text e.start e.stop))

/-- The identities that a step tokenizes. -/
def SessionOp.tokenized (unicode : Unicode) : SessionOp → List Identity
  | .protect tenantId sessionId text entities policy =>
      match selectEntities text entities policy with
      | .ok selected =>
          identitiesIn unicode tenantId sessionId policy text selected
      | .error _ => []
  | _ => []

/-- The one list repeats where the other does. -/
def RepeatTogether (l l' : List Identity) : Prop :=
  ∀ p ∈ l.zip l', ∀ q ∈ l.zip l', p.1 = q.1 ↔ p.2 = q.2

/-- The normal form fits the length prefix of a fingerprint's frame. -/
def Identity.Fits (identity : Identity) : Prop :=
  (encodeUtf8 identity.normalForm).length < 256 ^ 4

-- ==================================================== runs

/-- The names of one thing in two runs: index keys go by the identities,
everything else keeps its name. -/
inductive Counterpart (vault : RedisTokenVault)
    (fingerprinter : Fingerprinter) (pairs : List (Identity × Identity)) :
    VaultKey → VaultKey → Prop
  | token (tenantId sessionId : UUID) (tokenId : Text) :
      Counterpart vault fingerprinter pairs
        (.token tenantId sessionId tokenId)
        (.token tenantId sessionId tokenId)
  | metaSet (tenantId sessionId : UUID) :
      Counterpart vault fingerprinter pairs (.metaSet tenantId sessionId)
        (.metaSet tenantId sessionId)
  | index {a a' : Identity} {hmac hmac' : Text} (mem : (a, a') ∈ pairs)
      (fingerprint : a.fingerprint fingerprinter vault.hashes = .ok hmac)
      (fingerprint' :
        a'.fingerprint fingerprinter vault.hashes = .ok hmac') :
      Counterpart vault fingerprinter pairs
        (.index a.tenantId a.sessionId
          (vault.indexSegment a.entityType hmac))
        (.index a'.tenantId a'.sessionId
          (vault.indexSegment a'.entityType hmac'))

/-- The steps differ only in hidden values. A surrogate has the shape of
the value it stands for, so the policy must not ask for one. -/
inductive Indistinct (vault : RedisTokenVault)
    (fingerprinter : Fingerprinter) (pairs : List (Identity × Identity)) :
    SessionOp → SessionOp → Prop
  | protect (tenantId sessionId : UUID) (policy : PolicySnapshot)
      {text text' : Text}
      {entities entities' selected selected' : List DetectedEntity}
      (selects : selectEntities text entities policy = .ok selected)
      (selects' : selectEntities text' entities' policy = .ok selected')
      (shape : SameOutside policy text text' selected selected')
      (plain : ∀ e ∈ selected,
        policy.actionFor e.entityType ≠ .pseudonymize) :
      Indistinct vault fingerprinter pairs
        (.protect tenantId sessionId text entities policy)
        (.protect tenantId sessionId text' entities' policy)
  | wait (milliseconds : Nat) :
      Indistinct vault fingerprinter pairs (.wait milliseconds)
        (.wait milliseconds)
  | lose {k k' : VaultKey}
      (counterpart : Counterpart vault fingerprinter pairs k k') :
      Indistinct vault fingerprinter pairs (.lose (vault.render k))
        (.lose (vault.render k'))

end PrivacyGateway.Tokenization
