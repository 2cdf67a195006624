/-
Which deployments and policies the vault can serve.

A policy document may ask for a session of a day and a deployment for a
document of a hundred thousand entities; the vault stops at two hours and
at ten thousand entries. `deployed_returns_iff` is the exact condition
under which a planned transform returns, over every setting, every policy
document and every state of the store; `day_long_session_refused` is a
publishable draft whose first sensitive value is refused.
-/
import PrivacyGateway.Config.Settings
import PrivacyGateway.Documents.Protection
import PrivacyGateway.Policy.Authoring
import PrivacyGateway.Vault.Proofs.Admission
import PrivacyGateway.Vault.Reference

namespace PrivacyGateway

open Effect Splice Tokenization Vault

/-- Every type the detector emits has a name the token grammar takes. -/
theorem supportedEntityTypes_valid :
    ∀ ty ∈ Detection.supportedEntityTypes,
      isValidEntityType ty = true := by
  decide +kernel

namespace Settings

variable {unicode : Unicode} {decode : Text → Option Bytes}
  {settings : Settings} {parts : VaultParts}

/-- The active key is on the ring, is a key, and its id fits the header of
an envelope. -/
def KeyUsable (unicode : Unicode) (decode : Text → Option Bytes)
    (settings : Settings) : Prop :=
  (∃ key, settings.ringKey unicode decode
      (settings.activeKeyId unicode) = .ok key) ∧
    0 < (encodeUtf8 (settings.activeKeyId unicode)).length ∧
    (encodeUtf8 (settings.activeKeyId unicode)).length ≤ maxKeyIdBytes

/-- The vault without a key answers no batch that asks for something. -/
theorem keylessVault_never {e : Exn} {t s : UUID}
    {entries : List VaultWriteRequest} (hne : entries ≠ [])
    {ttlSeconds : Int} {w w' : World} {tokens : List Text} :
    runIn ((keylessVault e).getOrCreateMany t s entries ttlSeconds) w ≠
      (.ok tokens, w') := by
  intro h
  unfold keylessVault at h
  obtain ⟨ttl, -, h⟩ := checked_bind_ok_iff.mp h
  obtain ⟨u, -, h⟩ := checked_bind_ok_iff.mp h
  by_cases hmany : entries.length > maxBatchEntries
  · rw [if_pos hmany] at h
    cases h
  · rw [if_neg hmany, if_neg hne] at h
    cases h

/-- What the vault of a deployment can map: nothing, or spans that fit its
limits, under a usable key. -/
structure CanMap (unicode : Unicode) (decode : Text → Option Bytes)
    (settings : Settings) (text : Text) (policy : PolicySnapshot)
    (selected : List DetectedEntity) : Prop where
  redacted_valid : ∀ e ∈ selected,
    policy.actionFor e.entityType = .redact →
      isValidEntityType e.entityType = true
  mapped : mappedSpans policy selected ≠ [] →
    policy.sessionTtlSeconds ≤ 7200 ∧
    (mappedSpans policy selected).length ≤ 10000 ∧
    settings.KeyUsable unicode decode ∧
    ∀ e ∈ mappedSpans policy selected,
      isValidEntityType e.entityType = true ∧
        (encodeUtf8 (normalize unicode e.entityType
          (slice text e.start e.stop))).length < 2 ^ 32

/-- The policy a text is transformed under: the snapshot of a document,
with the deployment's entity budget where the text is a document's. -/
inductive Applies (settings : Settings) (document : PolicyDocument)
    (policyId tenantId : UUID) (version : Int) : PolicySnapshot → Prop
  | request : Applies settings document policyId tenantId version
      (PolicySnapshot.fromDocument document policyId tenantId version)
  | document : Applies settings document policyId tenantId version
      (Documents.documentEntityBudget
        (PolicySnapshot.fromDocument document policyId tenantId version)
        settings.maxDocumentEntities)

theorem Applies.ttl_positive {document : PolicyDocument}
    {policyId tenantId : UUID} {version : Int} {policy : PolicySnapshot}
    (h : Applies settings document policyId tenantId version policy) :
    0 < policy.sessionTtlSeconds := by
  cases h with
  | request => exact document.sessionTtl_bounded.1
  | document => exact document.sessionTtl_bounded.1

/-- A planned transform in a deployment returns exactly when the
deployment serves it, whatever was stored before and under whichever
keys. -/
theorem deployed_returns_iff {document : PolicyDocument}
    {policyId t s : UUID} {version : Int} {policy : PolicySnapshot}
    (hpolicy : Applies settings document policyId t version policy)
    {fingerprinter : Fingerprinter} {text : Text}
    {entities selected : List DetectedEntity}
    (hplans : Plans text entities policy selected)
    (earlier : StaticKeyRing) (ops : List VaultOp) :
    (∃ out w', runIn (transform unicode parts.hashes fingerprinter
        (settings.tokenVault unicode decode parts) t s text entities
        policy) ((parts.withRing earlier).run VaultState.start ops).world =
          (.ok out, w')) ↔
      settings.CanMap unicode decode text policy selected := by
  have httl := hpolicy.ttl_positive
  have htyped := (@RedisTokenVault.run_sound (parts.withRing earlier)
    ops).typed
  generalize ((parts.withRing earlier).run VaultState.start ops).world =
    w at htyped
  unfold tokenVault
  split
  · rename_i key hkey
    have htyped' : (parts.withRing (settings.ringOf unicode decode key
        (settings.ringKey_length unicode decode hkey))).Typed w.redis :=
      htyped
    have hiff := @RedisTokenVault.transform_returns_iff _ t s unicode text
      fingerprinter policy selected w htyped' entities hplans
    refine hiff.trans ?_
    constructor
    · intro h
      refine ⟨h.redacted_valid, ?_⟩
      intro hspans
      have hs := h.mapped_storable hspans
      have hmax := hs.ttl_within.2
      unfold maxTtlSeconds at hmax
      refine ⟨by omega, hs.within_ceiling, ⟨⟨key, hkey⟩, hs.key_fits⟩, ?_⟩
      intro e he
      exact ⟨hs.types_valid e he, hs.forms_fit e he⟩
    · intro h
      refine ⟨h.redacted_valid, ?_⟩
      intro hspans
      obtain ⟨hmax, hceiling, hkeys, hall⟩ := h.mapped hspans
      refine ⟨⟨?_, ?_⟩, hceiling, hkeys.2, fun e he => (hall e he).1,
        fun e he => (hall e he).2⟩
      · unfold minTtlSeconds
        omega
      · unfold maxTtlSeconds
        omega
  · rename_i e hkey
    rw [transform_returns_iff_mint hplans]
    have hunusable : ¬ settings.KeyUsable unicode decode := by
      intro h
      obtain ⟨⟨key, hok⟩, -⟩ := h
      rw [hkey] at hok
      cases hok
    constructor
    · intro h
      obtain ⟨hredacted, minted, w', hmint, -⟩ := h
      refine ⟨hredacted, ?_⟩
      intro hspans
      obtain ⟨pendings, hpending, hcase⟩ := mint_ok hmint
      have hne : pendings ≠ [] :=
        fun hnil => hspans ((pendings_eq_nil_iff hpending).mp hnil)
      rcases hcase with ⟨hnil, -, -⟩ | ⟨tokens, hcall, -⟩
      · exact absurd hnil hne
      · exact absurd hcall (keylessVault_never
          (fun hempty => hne (List.map_eq_nil_iff.mp hempty)))
    · intro h
      have hspans : mappedSpans policy selected = [] := by
        by_contra hne
        exact hunusable (h.mapped hne).2.2.1
      refine ⟨h.redacted_valid, [], w, mint_unmapped _ w hspans, ?_⟩
      intro item hitem hneeds
      have hspan := mem_mappedSpans_of_item hitem hneeds
      rw [hspans] at hspan
      exact absurd hspan (List.not_mem_nil)

-- ==================================================== two deployments

/-- A draft that tokenizes names, with a session of so many seconds. -/
def namesDraft (seconds : Nat)
    (h : 0 < seconds ∧ seconds ≤ maxSessionTtlSeconds) : Draft where
  document :=
    { name := "names".toList
      sessionTtlSeconds := seconds
      maxEntities := 10
      providers := [("mock".toList, ["mock-echo".toList])]
      entities :=
        [("PERSON".toList, ⟨.tokenize, 1 / 2, true, none, none, Bounds.half⟩)]
      sessionTtl_bounded := h
      maxEntities_bounded := by decide }
  recognizers := []

def sampleDecode (raw : Text) : Option Bytes :=
  if raw = "BwcHBwcHBwcHBwcHBwcHBwcHBwcHBwcHBwcHBwcHBwc=".toList then
    some (List.replicate vaultKeyBytes 7)
  else none

def sampleSettings : Settings where
  appEnv := .production
  vaultActiveKeyId := "k1".toList
  vaultKeys := [("k1".toList,
    "BwcHBwcHBwcHBwcHBwcHBwcHBwcHBwcHBwcHBwcHBwc=".toList)]
  maxMessageChars_bounded := maxMessageChars_default
  maxEntitiesPerRequest_bounded := maxEntitiesPerRequest_default
  maxDocumentEntities_bounded := maxDocumentEntities_default

def sampleParts : VaultParts where
  keyPrefix := defaultKeyPrefix
  hashes := Hashes.ofTables [] []
  aead := Reference.aead
  codec := Reference.codec
  secrets := Reference.secrets

def adaSpan : DetectedEntity :=
  ⟨"PERSON".toList, 0, 3, 9 / 10, none, Bounds.zero_lt_three, Bounds.nineTenths⟩

/-- The snapshot of a names draft. -/
def namesPolicy (seconds : Nat)
    (h : 0 < seconds ∧ seconds ≤ maxSessionTtlSeconds) : PolicySnapshot :=
  PolicySnapshot.fromDocument (namesDraft seconds h).document ⟨1⟩ ⟨2⟩ 1

theorem namesPolicy_plans (seconds : Nat)
    (h : 0 < seconds ∧ seconds ≤ maxSessionTtlSeconds) :
    Plans "Ada".toList [adaSpan] (namesPolicy seconds h) [adaSpan] := by
  have hentities : (namesPolicy seconds h).entities =
      [("PERSON".toList, ⟨.tokenize, 1 / 2, true, none, none, Bounds.half⟩)] :=
    rfl
  have hconfident : isConfident (namesPolicy seconds h) adaSpan = true := by
    rw [isConfident_iff]
    unfold PolicySnapshot.minScoreFor
    rw [hentities]
    decide +kernel
  refine ⟨selectEntities_ok_iff.mpr ⟨?_, ?_⟩, ?_, ?_⟩
  · intro e he
    rw [List.mem_singleton.mp he]
    decide
  · rw [List.filter_cons_of_pos hconfident]
    rfl
  · show 1 ≤ 10
    omega
  · intro e he
    rw [List.mem_singleton.mp he]
    unfold PolicySnapshot.actionFor
    rw [hentities]
    decide +kernel

/-- A session of an hour is served. -/
theorem hour_long_session_served :
    ∃ out w', runIn (transform Unicode.ascii sampleParts.hashes
        sampleFingerprinter
        (sampleSettings.tokenVault Unicode.ascii sampleDecode sampleParts)
        ⟨2⟩ ⟨3⟩ "Ada".toList [adaSpan]
        (namesPolicy 3600 (by decide)))
        ((sampleParts.withRing Reference.keyRing).run VaultState.start
          []).world = (.ok out, w') := by
  refine (@deployed_returns_iff Unicode.ascii sampleDecode sampleSettings
    sampleParts (namesDraft 3600 (by decide)).document ⟨1⟩ ⟨2⟩ ⟨3⟩ 1 _
    .request sampleFingerprinter _ _ _ (namesPolicy_plans 3600 (by decide))
    Reference.keyRing []).mpr ?_
  refine ⟨?_, ?_⟩
  · intro e he hredact
    rw [List.mem_singleton.mp he]
    decide +kernel
  · intro _
    refine ⟨by decide, by decide +kernel, ⟨⟨List.replicate vaultKeyBytes 7,
      by decide +kernel⟩, by decide +kernel⟩, ?_⟩
    intro e he
    rw [List.mem_singleton.mp (mem_mappedSpans.mp he).1]
    decide +kernel

/-- A session of a day is not, although the draft may be published and
production starts with these settings. -/
theorem day_long_session_refused :
    (validateDraft (.ok (namesDraft 86400 (by decide)))).valid = true ∧
    sampleSettings.hardeningProblems Unicode.ascii sampleDecode = [] ∧
    planFor "Ada".toList [adaSpan] (namesPolicy 86400 (by decide)) =
      .ok [(adaSpan, .tokenize)] ∧
    (runIn (transform Unicode.ascii sampleParts.hashes sampleFingerprinter
        (sampleSettings.tokenVault Unicode.ascii sampleDecode sampleParts)
        ⟨2⟩ ⟨3⟩ "Ada".toList [adaSpan]
        (namesPolicy 86400 (by decide))) VaultState.start.world).1 =
      .error (.value "ttl_seconds must be between 1 and 7200") := by
  refine ⟨?_, ?_, ?_, ?_⟩
  · decide +kernel
  · decide +kernel
  · decide +kernel
  · decide +kernel

end Settings

end PrivacyGateway
