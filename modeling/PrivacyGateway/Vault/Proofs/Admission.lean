/-
When a transform gets its mappings.

The vault checks a batch before it seals anything: the time to live, the
type and the fingerprint of each entry, and their number. What is left
after the checks is the key id, which has to fit an envelope's header.
`getOrCreateMany_returns_iff` is the whole condition on a batch, and
`transform_returns_iff` the whole condition on a planned transform, in
every typed state of the server.
-/
import PrivacyGateway.Lib.Aligned
import PrivacyGateway.Tokenization.Proofs.Mint
import PrivacyGateway.Vault.Proofs.Bindings

namespace PrivacyGateway.Vault

open Effect Tokenization Splice

-- ==================================================== sealing

/-- The active key id fits the header of an envelope. -/
def StaticKeyRing.FitsHeader (ring : StaticKeyRing) : Prop :=
  0 < (encodeUtf8 ring.activeKeyId).length ∧
    (encodeUtf8 ring.activeKeyId).length ≤ maxKeyIdBytes

theorem EnvelopeCipher.sealEnvelope_returns_iff {cipher : EnvelopeCipher}
    {nonce plaintext : Bytes} {aad : VaultAad} :
    (∃ raw, cipher.sealEnvelope nonce plaintext aad = .ok raw) ↔
      (∃ bytes, aad.toBytes = some bytes) ∧ cipher.keyRing.FitsHeader := by
  obtain ⟨key, hkey⟩ := cipher.keyRing.key_active
  unfold sealEnvelope
  rw [hkey]
  simp only
  cases haad : aad.toBytes with
  | none =>
      constructor
      · intro h
        obtain ⟨raw, hraw⟩ := h
        cases hraw
      · intro h
        obtain ⟨⟨bytes, hbytes⟩, -⟩ := h
        cases hbytes
  | some bytes =>
      simp only [Envelope.toBytes]
      by_cases hfits : 0 < (encodeUtf8 cipher.keyRing.activeKeyId).length ∧
          (encodeUtf8 cipher.keyRing.activeKeyId).length ≤ maxKeyIdBytes
      · rw [if_pos hfits]
        constructor
        · intro _
          exact ⟨⟨bytes, rfl⟩, hfits⟩
        · intro _
          exact ⟨_, rfl⟩
      · rw [if_neg hfits]
        constructor
        · intro h
          obtain ⟨raw, hraw⟩ := h
          cases hraw
        · intro h
          exact absurd h.2 hfits

namespace RedisTokenVault

variable {vault : RedisTokenVault} {t s : UUID}

/-- An entry of a valid type is sealed. -/
theorem sealEntry_returns (hfits : vault.cipher.keyRing.FitsHeader)
    {entry : VaultWriteRequest}
    (hty : isValidEntityType entry.entityType = true) (w : World) :
    ∃ sealed w', runIn (vault.sealEntry t s entry) w =
      (.ok sealed, w') := by
  have hid := isValidTokenId_encodeCrockford
    (vault.secrets.tokenBytes w.idsDrawn)
  have hraw : ∃ raw, vault.cipher.sealEnvelope
      (vault.secrets.urandom w.noncesDrawn)
      ((recordFor t s entry.entityType
        (renderToken entry.entityType (encodeCrockford
          (vault.secrets.tokenBytes w.idsDrawn)))
        entry.originalValue).toBytes vault.codec)
      (aadFor t s entry.entityType (encodeCrockford
        (vault.secrets.tokenBytes w.idsDrawn))) = .ok raw :=
    EnvelopeCipher.sealEnvelope_returns_iff.mpr
      ⟨aadFor_toBytes hty hid, hfits⟩
  obtain ⟨raw, hraw⟩ := hraw
  have hrecord : runIn (vault.sealRecord t s entry.entityType
      (renderToken entry.entityType (encodeCrockford
        (vault.secrets.tokenBytes w.idsDrawn)))
      (encodeCrockford (vault.secrets.tokenBytes w.idsDrawn))
      entry.originalValue) { w with idsDrawn := w.idsDrawn + 1 } =
        (.ok raw, { w with
          idsDrawn := w.idsDrawn + 1
          noncesDrawn := w.noncesDrawn + 1 }) := by
    unfold sealRecord
    rw [bind_ok_iff]
    refine ⟨_, _, rfl, ?_⟩
    rw [runIn_checked]
    exact congrArg (fun result => (result, _)) hraw
  have hdraw : runIn vault.newTokenId w =
      (.ok (encodeCrockford (vault.secrets.tokenBytes w.idsDrawn)),
        { w with idsDrawn := w.idsDrawn + 1 }) := rfl
  unfold sealEntry
  apply returns_bind hdraw
  rw [formatToken_of_valid hty hid, checked_bind_ok]
  apply returns_bind hrecord
  exact ⟨_, _, rfl⟩

theorem sealEntries_returns (hfits : vault.cipher.keyRing.FitsHeader)
    (entries : List VaultWriteRequest) :
    ∀ w : World,
      (∀ entry ∈ entries, isValidEntityType entry.entityType = true) →
      ∃ sealed w', runIn (vault.sealEntries t s entries) w =
        (.ok sealed, w') := by
  induction entries with
  | nil =>
      intro w _
      exact ⟨[], w, rfl⟩
  | cons entry entries ih =>
      intro w h
      obtain ⟨hentry, hentries⟩ := List.forall_mem_cons.mp h
      obtain ⟨head, w1, hhead⟩ :=
        @sealEntry_returns vault t s hfits entry hentry w
      obtain ⟨tail, w2, htail⟩ := ih w1 hentries
      unfold sealEntries
      apply returns_bind hhead
      apply returns_bind htail
      exact ⟨_, w2, rfl⟩

-- ==================================================== checks

theorem validatedTtl_returns_iff {ttlSeconds : Int} :
    (∃ ttl, validatedTtl ttlSeconds = .ok ttl) ↔
      minTtlSeconds ≤ ttlSeconds ∧ ttlSeconds ≤ maxTtlSeconds := by
  unfold validatedTtl
  by_cases hrange : minTtlSeconds ≤ ttlSeconds ∧
      ttlSeconds ≤ maxTtlSeconds
  · rw [if_pos hrange]
    exact ⟨fun _ => hrange, fun _ => ⟨_, rfl⟩⟩
  · rw [if_neg hrange]
    constructor
    · intro h
      obtain ⟨ttl, httl⟩ := h
      cases httl
    · intro h
      exact absurd h hrange

theorem validateEntries_ok_iff (entries : List VaultWriteRequest) :
    validateEntries entries = .ok () ↔
      ∀ entry ∈ entries, isValidEntityType entry.entityType = true ∧
        entry.normalizedHmac ≠ [] := by
  induction entries with
  | nil => simp [validateEntries]
  | cons entry entries ih =>
      unfold validateEntries validateEntityType
      rw [List.forall_mem_cons, ← ih]
      by_cases hty : isValidEntityType entry.entityType = true
      · simp only [hty, if_true]
        by_cases hhmac : entry.normalizedHmac = []
        · simp [hhmac]
        · simp [hhmac]
      · simp [hty]

/-- The unique entries of a batch are entries of it. -/
theorem mem_of_mem_deduplicateFrom (entries : List VaultWriteRequest) :
    ∀ (seen : Dict (Text × Text) Nat) (unique : List VaultWriteRequest)
      (positions : List Nat),
      ∀ u ∈ (deduplicateFrom seen unique positions entries).1,
        u ∈ unique ∨ u ∈ entries := by
  induction entries with
  | nil =>
      intro seen unique positions u hu
      exact Or.inl hu
  | cons entry entries ih =>
      intro seen unique positions u hu
      unfold deduplicateFrom at hu
      simp only at hu
      cases hget : seen.get? (entry.entityType, entry.normalizedHmac) with
      | some index =>
          rw [hget] at hu
          exact (ih _ _ _ u hu).imp id (List.mem_cons_of_mem _)
      | none =>
          rw [hget] at hu
          rcases ih _ _ _ u hu with h | h
          · rcases List.mem_append.mp h with h | h
            · exact Or.inl h
            · rw [List.mem_singleton.mp h]
              exact Or.inr List.mem_cons_self
          · exact Or.inr (List.mem_cons_of_mem _ h)

theorem mem_of_mem_deduplicate {entries : List VaultWriteRequest}
    {u : VaultWriteRequest} (h : u ∈ (deduplicate entries).1) :
    u ∈ entries := by
  rcases mem_of_mem_deduplicateFrom entries [] [] [] u h with h | h
  · exact absurd h (List.not_mem_nil)
  · exact h

-- ==================================================== batches

variable (vault)

/-- What the vault asks of a batch. -/
structure Accepts (entries : List VaultWriteRequest) (ttlSeconds : Int) :
    Prop where
  ttl_within : minTtlSeconds ≤ ttlSeconds ∧ ttlSeconds ≤ maxTtlSeconds
  entries_valid : ∀ entry ∈ entries,
    isValidEntityType entry.entityType = true ∧ entry.normalizedHmac ≠ []
  within_ceiling : entries.length ≤ maxBatchEntries
  key_fits : vault.cipher.keyRing.FitsHeader

variable {vault}

/-- A batch that is accepted returns its tokens. -/
theorem Accepts.returns {entries : List VaultWriteRequest}
    {ttlSeconds : Int} (h : vault.Accepts entries ttlSeconds)
    (hne : entries ≠ []) {w : World} (htyped : vault.Typed w.redis) :
    ∃ ttl cs ids tokens w', ttlSeconds = (ttl : Nat) ∧
      runIn (vault.getOrCreateMany t s entries ttlSeconds) w =
        (.ok tokens, w') ∧
      (∀ id ∈ ids, isValidTokenId id = true) ∧
      vault.Batched t s entries ttl cs ids w w' tokens := by
  obtain ⟨ttl, httl⟩ := validatedTtl_returns_iff.mpr h.ttl_within
  obtain ⟨hsame, hpositive, -⟩ := validatedTtl_ok httl
  obtain ⟨candidates, w1, hseal⟩ := @sealEntries_returns vault t s
    h.key_fits (deduplicate entries).1 w
    (fun u hu => (h.entries_valid u (mem_of_mem_deduplicate hu)).1)
  obtain ⟨cs, ids, tokens, w', hrun, hids, hbatched⟩ :=
    writeBatch_of_sealed htyped hpositive hne hseal
  refine ⟨ttl, cs, ids, tokens, w', hsame, ?_, hids, hbatched⟩
  unfold getOrCreateMany
  rw [httl, checked_bind_ok, (validateEntries_ok_iff entries).mpr
    h.entries_valid, checked_bind_ok,
    if_neg (not_lt.mpr h.within_ceiling), if_neg hne]
  exact hrun

/-- Some entry of a batch that is not empty is unique. -/
theorem deduplicate_ne_nil {entries : List VaultWriteRequest}
    (hne : entries ≠ []) : (deduplicate entries).1 ≠ [] := by
  obtain ⟨more, found, hrun, hall, -⟩ := deduplicateFrom_spec entries
    [] [] [] (fun _ _ _ h => by cases h)
  have hpair : deduplicate entries = (more, found) := hrun
  rw [hpair]
  cases hall with
  | nil => exact absurd rfl hne
  | cons hentry _ =>
      obtain ⟨u, hu, -⟩ := hentry
      intro hnil
      have hnone : more = [] := hnil
      rw [hnone] at hu
      cases hu

/-- A batch with something to do returns exactly when it is accepted. -/
theorem getOrCreateMany_returns_iff {entries : List VaultWriteRequest}
    {ttlSeconds : Int} (hne : entries ≠ []) {w : World}
    (htyped : vault.Typed w.redis) :
    (∃ tokens w', runIn (vault.getOrCreateMany t s entries ttlSeconds) w =
        (.ok tokens, w')) ↔ vault.Accepts entries ttlSeconds := by
  constructor
  · intro h
    obtain ⟨tokens, w', hrun⟩ := h
    have hcases := getOrCreateMany_cases htyped hrun
    unfold getOrCreateMany at hrun
    obtain ⟨ttl, httl, hrun⟩ := checked_bind_ok_iff.mp hrun
    obtain ⟨u, hvalid, hrun⟩ := checked_bind_ok_iff.mp hrun
    have hceiling : ¬ entries.length > maxBatchEntries := by
      intro hmany
      rw [if_pos hmany] at hrun
      cases hrun
    refine ⟨validatedTtl_returns_iff.mp ⟨ttl, httl⟩,
      (validateEntries_ok_iff entries).mp hvalid, not_lt.mp hceiling, ?_⟩
    rcases hcases with ⟨-, -, hempty⟩ | ⟨ttl', cs, ids, tokens', -, -, hb⟩
    · exact absurd (hempty tokens rfl).2 hne
    · -- the envelope of the first unique entry was sealed
      obtain ⟨u, hu⟩ := List.exists_mem_of_ne_nil _ (deduplicate_ne_nil hne)
      obtain ⟨c, -, -, -, nonce, -, hseal⟩ :=
        hb.candidates_sealed.entry_holds u hu
      exact (EnvelopeCipher.sealEnvelope_returns_iff.mp ⟨_, hseal⟩).2
  · intro h
    obtain ⟨-, -, -, tokens, w', -, hrun, -⟩ := h.returns hne htyped
    exact ⟨tokens, w', hrun⟩

/-- The tokens of a batch are of their entries' own types. -/
theorem Batched.renders {entries : List VaultWriteRequest} {ttl : Nat}
    {cs : List Candidate} {ids : List Text} {w w' : World}
    {tokens : List Text}
    (h : vault.Batched t s entries ttl cs ids w w' tokens)
    (hids : ∀ id ∈ ids, isValidTokenId id = true) :
    List.Forall₂ (fun entry token => ∃ id, isValidTokenId id = true ∧
      token = renderToken entry.entityType id) entries tokens := by
  refine (h.pointwise (Q := fun _ id => isValidTokenId id = true)
    (fun p hp => hids _ (List.of_mem_zip hp).2)).imp ?_
  intro entry token hentry
  obtain ⟨u, id, -, htoken, hid⟩ := hentry
  exact ⟨id, hid, htoken⟩

-- ==================================================== transforms

section Transform

variable (vault) (unicode : Unicode) (text : Text)

/-- What the vault asks of the spans it is to map. -/
structure Storable (ttlSeconds : Int) (spans : List DetectedEntity) :
    Prop where
  ttl_within : minTtlSeconds ≤ ttlSeconds ∧ ttlSeconds ≤ maxTtlSeconds
  within_ceiling : spans.length ≤ maxBatchEntries
  key_fits : vault.cipher.keyRing.FitsHeader
  types_valid : ∀ e ∈ spans, isValidEntityType e.entityType = true
  forms_fit : ∀ e ∈ spans, (encodeUtf8 (normalize unicode e.entityType
    (slice text e.start e.stop))).length < fingerprintLimit

/-- What a planned transform needs: a name for each span it redacts, and
a vault that takes the spans it maps, if there are any. -/
structure Serves (policy : PolicySnapshot)
    (selected : List DetectedEntity) : Prop where
  redacted_valid : ∀ e ∈ selected,
    policy.actionFor e.entityType = .redact →
      isValidEntityType e.entityType = true
  mapped_storable : mappedSpans policy selected ≠ [] →
    vault.Storable unicode text policy.sessionTtlSeconds
      (mappedSpans policy selected)

variable {vault unicode text} {fingerprinter : Fingerprinter}
  {policy : PolicySnapshot} {selected : List DetectedEntity}

/-- The span of a valid type and a short enough normal form has an
identity. -/
theorem identityOf_of_storable {ttlSeconds : Int}
    {spans : List DetectedEntity}
    (h : vault.Storable unicode text ttlSeconds spans)
    {e : DetectedEntity} (he : e ∈ spans) :
    ∃ hmac, identityOf unicode vault.hashes fingerprinter t s e.entityType
      (slice text e.start e.stop) = .ok hmac := by
  apply identityOf_returns_iff.mpr
  refine ⟨?_, h.forms_fit e he⟩
  have hbytes := length_encodeUtf8_le e.entityType
  have hlength := (length_of_validEntityType (h.types_valid e he)).2
  unfold fingerprintLimit
  omega

/-- The batch of a plan is accepted exactly when its spans are
storable. -/
theorem accepts_requests_iff {pendings : List Pending} {ttlSeconds : Int}
    (h : pendingOf unicode vault.hashes fingerprinter t s text
      (withActions policy selected).zipIdx = .ok pendings) :
    vault.Accepts (pendings.map Pending.request) ttlSeconds ↔
      vault.Storable unicode text ttlSeconds
        (mappedSpans policy selected) := by
  have hawaited := mappedSpans_awaited h
  have hlength := hawaited.length_eq
  constructor
  · intro ha
    refine ⟨ha.ttl_within, ?_, ha.key_fits, ?_, ?_⟩
    · rw [hlength, ← List.length_map (f := Pending.request)]
      exact ha.within_ceiling
    · intro e he
      obtain ⟨p, hp, hty, -, -⟩ := Aligned.exists_right hawaited he
      have hvalid := (ha.entries_valid p.request
        (List.mem_map_of_mem hp)).1
      rw [← hty]
      exact hvalid
    · intro e he
      obtain ⟨p, hp, hty, horiginal, hidentity⟩ :=
        Aligned.exists_right hawaited he
      rw [hty, horiginal] at hidentity
      exact (identityOf_returns_iff.mp ⟨_, hidentity⟩).2
  · intro hs
    refine ⟨hs.ttl_within, ?_, ?_, hs.key_fits⟩
    · intro entry hentry
      obtain ⟨p, hp, rfl⟩ := List.mem_map.mp hentry
      obtain ⟨e, he, hty, horiginal, hidentity⟩ :=
        Aligned.exists_left hawaited hp
      refine ⟨?_, identityOf_ne_nil hidentity⟩
      show isValidEntityType p.entityType = true
      rw [hty]
      exact hs.types_valid e he
    · rw [List.length_map, ← hlength]
      exact hs.within_ceiling

/-- The mint returns a mapping for each span that needs one exactly when
there is none, or the spans are storable. -/
theorem mint_returns_iff {w : World} (htyped : vault.Typed w.redis)
    {ttlSeconds : Int} :
    (∃ minted w', runIn (mint unicode vault.hashes fingerprinter t s
        vault.like text (withActions policy selected) ttlSeconds) w =
        (.ok minted, w') ∧
      ∀ item ∈ (withActions policy selected).zipIdx,
        needsMapping item.1.2 = true →
          ∃ m, minted.get? item.2 = some m) ↔
      (mappedSpans policy selected ≠ [] →
        vault.Storable unicode text ttlSeconds
          (mappedSpans policy selected)) := by
  constructor
  · intro h hspans
    obtain ⟨minted, w', hmint, -⟩ := h
    obtain ⟨pendings, hpending, hcase⟩ := mint_ok hmint
    have hne : pendings ≠ [] :=
      fun hnil => hspans ((pendings_eq_nil_iff hpending).mp hnil)
    rcases hcase with ⟨hnil, -, -⟩ | ⟨tokens, hcall, -⟩
    · exact absurd hnil hne
    · have hcall' : runIn (vault.getOrCreateMany t s
          (pendings.map Pending.request) ttlSeconds) w =
            (.ok tokens, w') := hcall
      exact (accepts_requests_iff hpending).mp
        ((getOrCreateMany_returns_iff
          (fun hempty => hne (List.map_eq_nil_iff.mp hempty))
          htyped).mp ⟨tokens, w', hcall'⟩)
  · intro hstorable
    by_cases hspans : mappedSpans policy selected = []
    · refine ⟨[], w, mint_unmapped vault.like w hspans, ?_⟩
      intro item hitem hneeds
      have hspan := mem_mappedSpans_of_item hitem hneeds
      rw [hspans] at hspan
      exact absurd hspan (List.not_mem_nil)
    · have hs := hstorable hspans
      obtain ⟨pendings, hpending⟩ := (@pendingOf_returns_iff unicode
        vault.hashes fingerprinter t s text
        (withActions policy selected).zipIdx).mpr (by
          intro item hitem hneeds
          exact identityOf_of_storable hs
            (mem_mappedSpans_of_item hitem hneeds))
      have hnil : pendings ≠ [] :=
        fun hnil => hspans ((pendings_eq_nil_iff hpending).mp hnil)
      have haccepts := (accepts_requests_iff hpending).mpr hs
      obtain ⟨ttl, cs, ids, tokens, w', -, hrun, hids, hbatched⟩ :=
        @Accepts.returns vault t s _ _ haccepts
          (fun hempty => hnil (List.map_eq_nil_iff.mp hempty)) w htyped
      have hrenders := hbatched.renders hids
      rw [List.forall₂_map_left_iff] at hrenders
      -- each answer is a token of its span's own type
      have hall : List.Forall₂ Renders pendings tokens := by
        refine List.Forall₂.imp ?_ (List.forall₂_and_left _ _ |>.mpr
          ⟨fun p hp => (haccepts.entries_valid p.request
            (List.mem_map_of_mem hp)).1, hrenders⟩)
        intro p token hp
        exact hp
      obtain ⟨minted, hminted, hget⟩ := mappingsFor_returns hall
      refine ⟨minted, w', ?_, ?_⟩
      · unfold mint
        rw [hpending]
        simp only [checked_bind_ok]
        rw [if_neg hnil, bind_ok_iff]
        refine ⟨tokens, w', hrun, ?_⟩
        rw [if_pos hall.length_eq.symm, runIn_checked, hminted]
      · intro item hitem hneeds
        obtain ⟨p, hp, hawait⟩ := Aligned.exists_right
          (pendingOf_ok _ hpending) (List.mem_filter.mpr ⟨hitem, hneeds⟩)
        rw [← hawait.index_eq]
        exact hget p hp

/-- A planned transform returns exactly when the vault serves it. -/
theorem transform_returns_iff {w : World} (htyped : vault.Typed w.redis)
    {entities : List DetectedEntity}
    (hplans : Plans text entities policy selected) :
    (∃ out w', runIn (transform unicode vault.hashes fingerprinter
        vault.like t s text entities policy) w = (.ok out, w')) ↔
      vault.Serves unicode text policy selected := by
  rw [transform_returns_iff_mint hplans, mint_returns_iff htyped]
  constructor
  · intro h
    exact ⟨h.1, h.2⟩
  · intro h
    exact ⟨h.redacted_valid, h.mapped_storable⟩

end Transform

end RedisTokenVault

end PrivacyGateway.Vault
