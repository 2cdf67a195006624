/-
Rotating the key ring changes nothing that a caller sees.

Two vaults that differ in their rings are run side by side. Their servers
correspond (`rings`): the same keys with the same deadlines, holding the
same texts and sets, and envelopes that were sealed for one plaintext and
one identity, each under a key on its own ring. Such envelopes open alike
for every identity (`SameSecret.unseal_eq`), so every call goes the same
way on both sides, and answers the same. A ring that retains the one
before it keeps the relation, since an envelope names its own key.
-/
import PrivacyGateway.Lib.Simulation
import PrivacyGateway.Vault.Proofs.Admission
import PrivacyGateway.Vault.Proofs.Renaming
import PrivacyGateway.Vault.Reference
import PrivacyGateway.Vault.Rotation

namespace PrivacyGateway.Vault

open Effect Renaming Tokenization

-- ==================================================== envelopes

section Envelopes

variable {aead : Aead}

/-- The envelope was sealed for the plaintext and the identity, under a
key that is on the ring. -/
def SealedAs (aead : Aead) (ring : StaticKeyRing) (plaintext aad : Bytes)
    (raw : Bytes) : Prop :=
  ∃ keyId key nonce, ring.keys.get? keyId = some key ∧
    Envelope.fromBytes raw = .ok ⟨envelopeVersion, keyId, nonce,
      aead.encrypt key nonce plaintext aad⟩

/-- What an envelope opens as. -/
theorem SealedAs.unseal {ring : StaticKeyRing} {plaintext bytes raw : Bytes}
    (h : SealedAs aead ring plaintext bytes raw) (aad : VaultAad) :
    EnvelopeCipher.unsealEnvelope ⟨aead, ring⟩ raw aad =
      match aad.toBytes with
      | none => .error (.other "OverflowError")
      | some other =>
          if other = bytes then .ok plaintext
          else .error (vaultEncryptionError "authentication_failed") := by
  obtain ⟨keyId, key, nonce, hkey, hparse⟩ := h
  have hring : ring.key keyId = .ok key := by
    unfold StaticKeyRing.key
    rw [hkey]
  unfold EnvelopeCipher.unsealEnvelope
  rw [hparse]
  simp only [hring]
  cases aad.toBytes with
  | none => rfl
  | some other =>
      simp only
      by_cases hsame : other = bytes
      · rw [if_pos hsame, hsame, aead.decrypt_encrypt]
      · rw [if_neg hsame, aead.decrypt_other _ _ _ _ _ hsame]

/-- A ring that retains another opens what was sealed under it. -/
theorem SealedAs.retained {older newer : StaticKeyRing}
    {plaintext bytes raw : Bytes}
    (h : SealedAs aead older plaintext bytes raw)
    (hretained : older.RetainedBy newer) :
    SealedAs aead newer plaintext bytes raw := by
  obtain ⟨keyId, key, nonce, hkey, hparse⟩ := h
  exact ⟨keyId, key, nonce, hretained keyId key hkey, hparse⟩

/-- Two envelopes with one plaintext, sealed for one identity. -/
def SameSecret (aead : Aead) (A B : StaticKeyRing) (raw raw' : Bytes) :
    Prop :=
  ∃ plaintext bytes, SealedAs aead A plaintext bytes raw ∧
    SealedAs aead B plaintext bytes raw'

theorem SameSecret.unseal_eq {A B : StaticKeyRing} {raw raw' : Bytes}
    (h : SameSecret aead A B raw raw') (aad : VaultAad) :
    EnvelopeCipher.unsealEnvelope ⟨aead, A⟩ raw aad =
      EnvelopeCipher.unsealEnvelope ⟨aead, B⟩ raw' aad := by
  obtain ⟨plaintext, bytes, hA, hB⟩ := h
  rw [hA.unseal, hB.unseal]

/-- Sealing fails alike, or yields such a pair. -/
theorem seal_same {A B : StaticKeyRing} (hA : A.FitsHeader)
    (hB : B.FitsHeader) {nonce : Bytes} (hnonce : nonce.length = nonceBytes)
    (plaintext : Bytes) (aad : VaultAad) :
    Same (SameSecret aead A B)
      (EnvelopeCipher.sealEnvelope ⟨aead, A⟩ nonce plaintext aad)
      (EnvelopeCipher.sealEnvelope ⟨aead, B⟩ nonce plaintext aad) := by
  cases haad : aad.toBytes with
  | none =>
      obtain ⟨keyA, hkeyA⟩ := A.key_active
      obtain ⟨keyB, hkeyB⟩ := B.key_active
      unfold EnvelopeCipher.sealEnvelope
      simp only [hkeyA, hkeyB, haad]
      exact .error _
  | some bytes =>
      have hreturns : ∀ {ring : StaticKeyRing}, ring.FitsHeader →
          ∃ raw, EnvelopeCipher.sealEnvelope ⟨aead, ring⟩ nonce plaintext
            aad = .ok raw := fun hring =>
        EnvelopeCipher.sealEnvelope_returns_iff.mpr ⟨⟨bytes, haad⟩, hring⟩
      obtain ⟨raw, hraw⟩ := hreturns hA
      obtain ⟨raw', hraw'⟩ := hreturns hB
      have hsealed : ∀ {ring : StaticKeyRing} {raw : Bytes},
          EnvelopeCipher.sealEnvelope ⟨aead, ring⟩ nonce plaintext aad =
            .ok raw → SealedAs aead ring plaintext bytes raw := by
        intro ring raw h
        obtain ⟨key, bytes', hkey, haad', hparse⟩ :=
          EnvelopeCipher.sealEnvelope_ok h hnonce
        cases haad.symm.trans haad'
        refine ⟨ring.activeKeyId, key, nonce, ?_, hparse⟩
        simp only [StaticKeyRing.key] at hkey
        split at hkey
        · rename_i found hfound
          cases hkey
          exact hfound
        · cases hkey
      rw [hraw, hraw']
      exact .ok ⟨plaintext, bytes, hsealed hraw, hsealed hraw'⟩

end Envelopes

namespace RedisTokenVault

-- ==================================================== servers

variable (vault : RedisTokenVault) (A B : StaticKeyRing)

/-- The two sides use the same keys. -/
def rings : Correspondence where
  keys := Eq
  secrets := SameSecret vault.cipher.aead A B
  records key := ∃ t s id, key = vault.render (.token t s id)
  oneToOne := ⟨fun _ _ _ h h' => h.trans h'.symm,
    fun _ _ _ h h' => h.symm.trans h'⟩

/-- The worlds of the two sides. -/
abbrev SameWorld : World → World → Prop := AlikeWorld (vault.rings A B)

variable {vault A B}

theorem sameKeys (keys : List Text) :
    List.Forall₂ (vault.rings A B).keys keys keys :=
  List.forall₂_same.mpr fun _ _ => rfl

theorem eq_of_sameKeys {keys keys' : List Text}
    (h : List.Forall₂ (vault.rings A B).keys keys keys') : keys = keys' := by
  induction h with
  | nil => rfl
  | cons hhead htail ih => exact congrArg₂ List.cons hhead ih

section Fitting

variable (hA : A.FitsHeader) (hB : B.FitsHeader) (t s : UUID)

include hA hB

theorem tracks_sealRecord (entityType token tokenId originalValue : Text) :
    Tracks (vault.SameWorld A B) (SameSecret vault.cipher.aead A B)
      ((vault.withRing A).sealRecord t s entityType token tokenId
        originalValue)
      ((vault.withRing B).sealRecord t s entityType token tokenId
        originalValue) := by
  refine (tracks_newNonce vault).bind ?_
  rintro nonce _ ⟨rfl, hnonce⟩
  exact tracks_checked (seal_same hA hB hnonce _ _)

theorem tracks_sealEntry (entry : VaultWriteRequest) :
    Tracks (vault.SameWorld A B) (AlikeArguments (vault.rings A B))
      ((vault.withRing A).sealEntry t s entry)
      ((vault.withRing B).sealEntry t s entry) := by
  refine (tracks_newTokenId vault).bind ?_
  rintro candidateId _ rfl
  refine (tracks_checked (same_refl _)).bind ?_
  rintro token _ rfl
  refine (tracks_sealRecord hA hB t s _ _ _ _).bind
    (fun envelope envelope' hsecret => ?_)
  refine tracks_pure ⟨rfl, rfl, rfl, hsecret, ?_,
    ⟨t, s, candidateId, tokenKey_eq_render vault t s candidateId⟩⟩
  rintro ⟨t', s', id, hrender⟩
  have hname : vault.fingerprintKey (vault.sessionPrefix t s)
      entry.entityType entry.normalizedHmac =
        vault.render (.token t' s' id) := hrender
  rw [fingerprintKey_eq_render] at hname
  cases render_injective hname

theorem tracks_sealEntries (entries : List VaultWriteRequest) :
    Tracks (vault.SameWorld A B)
      (List.Forall₂ (AlikeArguments (vault.rings A B)))
      ((vault.withRing A).sealEntries t s entries)
      ((vault.withRing B).sealEntries t s entries) := by
  induction entries with
  | nil => exact tracks_pure .nil
  | cons entry entries ih =>
      refine (tracks_sealEntry hA hB t s entry).bind
        (fun head head' hhead => ?_)
      exact ih.bind (fun tail tail' htail =>
        tracks_pure (.cons hhead htail))

theorem tracks_getOrCreateMany (entries : List VaultWriteRequest)
    (ttlSeconds : Int) :
    Tracks (vault.SameWorld A B) Eq
      ((vault.withRing A).getOrCreateMany t s entries ttlSeconds)
      ((vault.withRing B).getOrCreateMany t s entries ttlSeconds) := by
  refine (tracks_checked (same_refl _)).bind ?_
  rintro ttl _ rfl
  refine (tracks_checked (same_refl _)).bind (fun _ _ _ => ?_)
  refine tracks_ite (fun _ => tracks_throw _) (fun _ => ?_)
  refine tracks_ite (fun _ => tracks_pure rfl) (fun _ => ?_)
  refine (tracks_sealEntries hA hB t s _).bind
    (fun candidates candidates' hcandidates => ?_)
  refine (tracks_storeCall _ (tracks_batchWrite rfl (fun _ => rfl) _
    hcandidates)).bind ?_
  rintro raw _ rfl
  refine (tracks_checked (same_refl _)).bind ?_
  rintro tokens _ rfl
  exact tracks_pure rfl

end Fitting

theorem unsealRecord_eq (t s : UUID) {raw raw' : Bytes}
    (h : SameSecret vault.cipher.aead A B raw raw')
    (entityType tokenId : Text) :
    (vault.withRing A).unsealRecord t s raw entityType tokenId =
      (vault.withRing B).unsealRecord t s raw' entityType tokenId := by
  unfold unsealRecord
  rw [show (vault.withRing A).cipher = ⟨vault.cipher.aead, A⟩ from rfl,
    show (vault.withRing B).cipher = ⟨vault.cipher.aead, B⟩ from rfl,
    h.unseal_eq]
  rfl

/-- What is read opens alike on the two sides. -/
theorem openRecords_eq (t s : UUID) (resolved : Dict Text Text)
    {wanted : List Token} {raw raw' : List (Option Bytes)}
    (h : List.Forall₂ (AlikeRead (vault.rings A B)) raw raw') :
    (vault.withRing A).openRecords t s resolved (wanted.zip raw) =
      (vault.withRing B).openRecords t s resolved (wanted.zip raw') := by
  induction h generalizing resolved wanted with
  | nil =>
      rw [List.zip_nil_right]
      rfl
  | cons head tail ih =>
      cases wanted with
      | nil => rfl
      | cons token wanted =>
          cases head with
          | absent => exact ih resolved
          | blob secret =>
              simp only [List.zip_cons_cons, openRecords]
              rw [unsealRecord_eq t s secret]
              cases (vault.withRing B).unsealRecord t s _
                token.entityType token.tokenId with
              | error e => rfl
              | ok record =>
                  simp only
                  by_cases htoken : record.token ≠ token.text
                  · rw [if_pos htoken, if_pos htoken]
                  · rw [if_neg htoken, if_neg htoken]
                    exact ih _

theorem tracks_resolveMany (t s : UUID) (tokens : List Text) :
    Tracks (vault.SameWorld A B) Eq
      ((vault.withRing A).resolveMany t s tokens)
      ((vault.withRing B).resolveMany t s tokens) := by
  refine tracks_ite (fun _ => tracks_pure rfl) (fun _ => ?_)
  refine (tracks_storeCall _ (tracks_mget (sameKeys _) ?_)).bind
    (fun raw raw' hraw => ?_)
  · intro key hkey
    obtain ⟨token, -, rfl⟩ := List.mem_map.mp hkey
    exact ⟨t, s, token.tokenId, tokenKey_eq_render vault t s token.tokenId⟩
  · refine tracks_checked ?_
    rw [openRecords_eq t s [] hraw]
    exact same_refl _

theorem tracks_listSession (t s : UUID) :
    Tracks (vault.SameWorld A B) Eq ((vault.withRing A).listSession t s)
      ((vault.withRing B).listSession t s) :=
  tracks_storeCall _ (fun r r' h =>
    (tracks_smembers rfl r r' h).imp (fun _ _ h => h)
      (fun _ _ => eq_of_sameKeys))

theorem tracks_eraseListed (t s : UUID) (members : List Text) :
    Tracks (vault.SameWorld A B) Eq
      ((vault.withRing A).eraseListed t s members)
      ((vault.withRing B).eraseListed t s members) := by
  refine tracks_storeCall _ ?_
  refine (tracks_delAny (sameKeys _)).bind ?_
  rintro deleted _ rfl
  refine (tracks_delAny (sameKeys _)).bind (fun _ _ _ => ?_)
  exact (tracks_del (sameKeys _)).bind (fun _ _ _ => tracks_pure rfl)

theorem tracks_deleteSession (t s : UUID) :
    Tracks (vault.SameWorld A B) Eq
      ((vault.withRing A).deleteSession t s)
      ((vault.withRing B).deleteSession t s) := by
  refine (tracks_listSession t s).bind ?_
  rintro members _ rfl
  exact tracks_eraseListed t s members

-- ==================================================== runs

/-- The states of the two sides. -/
structure SameState (vault : RedisTokenVault) (A B : StaticKeyRing)
    (state state' : VaultState) : Prop where
  world : vault.SameWorld A B state.world state'.world
  pending : state.pending = state'.pending
  issued : state.issued = state'.issued

theorem sameState_start : SameState vault A B .start .start where
  world := ⟨⟨rfl, fun _ _ _ => .absent⟩, rfl, rfl⟩
  pending := rfl
  issued := rfl

/-- A rotation keeps the relation. -/
theorem SameState.rotated {C : StaticKeyRing} {state state' : VaultState}
    (h : SameState vault A B state state') (hretained : A.RetainedBy C) :
    SameState vault C B state state' := by
  refine ⟨⟨⟨h.world.redis.now, fun key _ hkey => ?_⟩, h.world.idsDrawn,
    h.world.noncesDrawn⟩, h.pending, h.issued⟩
  cases hkey
  have hkey := h.world.redis.keys key key rfl
  generalize state.world.redis.keys key = e at hkey ⊢
  generalize state'.world.redis.keys key = e' at hkey ⊢
  cases hkey with
  | absent => exact .absent
  | text value deadline place => exact .text value deadline place
  | blob deadline place secret =>
      obtain ⟨plaintext, bytes, hA, hB⟩ := secret
      exact .blob deadline place ⟨plaintext, bytes, hA.retained hretained, hB⟩
  | set deadline names => exact .set deadline names

/-- One step: the callers are answered the same, and the states stay
related. -/
theorem step_same (hA : A.FitsHeader) (hB : B.FitsHeader)
    {state state' : VaultState} (h : SameState vault A B state state')
    (op : VaultOp) :
    (vault.withRing A).answer state op =
        (vault.withRing B).answer state' op ∧
      SameState vault A B ((vault.withRing A).step state op)
        ((vault.withRing B).step state' op) := by
  cases op with
  | batch tenantId sessionId entries ttlSeconds =>
      have hrun := tracks_getOrCreateMany hA hB tenantId sessionId entries
        ttlSeconds state.world state'.world h.world
      unfold answer step
      simp only
      generalize runIn ((vault.withRing A).getOrCreateMany tenantId
        sessionId entries ttlSeconds) state.world = left at hrun ⊢
      generalize runIn ((vault.withRing B).getOrCreateMany tenantId
        sessionId entries ttlSeconds) state'.world = right at hrun ⊢
      cases hrun with
      | ok result world =>
          subst result
          refine ⟨rfl, world, h.pending, ?_⟩
          simp only [h.issued]
      | error e world => exact ⟨rfl, world, h.pending, h.issued⟩
  | resolve tenantId sessionId tokens =>
      obtain ⟨hanswer, hworld⟩ := (tracks_resolveMany tenantId sessionId
        tokens state.world state'.world h.world).result_eq
      exact ⟨congrArg VaultAnswer.values hanswer, hworld, h.pending,
        h.issued⟩
  | wait milliseconds =>
      exact ⟨rfl, h.world.elapse milliseconds, h.pending, h.issued⟩
  | delete tenantId sessionId =>
      obtain ⟨hanswer, hworld⟩ := (tracks_deleteSession tenantId sessionId
        state.world state'.world h.world).result_eq
      exact ⟨congrArg VaultAnswer.deleted hanswer, hworld, h.pending,
        h.issued⟩
  | list tenantId sessionId =>
      have hrun := tracks_listSession tenantId sessionId state.world
        state'.world h.world
      unfold answer step
      simp only
      generalize runIn ((vault.withRing A).listSession tenantId sessionId)
        state.world = left at hrun ⊢
      generalize runIn ((vault.withRing B).listSession tenantId sessionId)
        state'.world = right at hrun ⊢
      cases hrun with
      | ok result world =>
          subst result
          refine ⟨rfl, world, ?_, h.issued⟩
          simp only [h.pending]
      | error e world => exact ⟨rfl, world, h.pending, h.issued⟩
  | erase index =>
      unfold answer step
      simp only
      rw [← h.pending]
      cases state.pending[index]? with
      | none => exact ⟨rfl, h⟩
      | some listing =>
          obtain ⟨hanswer, hworld⟩ := (tracks_eraseListed listing.tenantId
            listing.sessionId listing.members state.world state'.world
            h.world).result_eq
          refine ⟨congrArg VaultAnswer.deleted hanswer, hworld, ?_,
            h.issued⟩
          simp only [h.pending]

/-- From related states on, whatever rings follow. -/
theorem observed_eq {fixed : StaticKeyRing} (hfixed : fixed.FitsHeader)
    (calls : List (StaticKeyRing × VaultOp)) {state state' : VaultState}
    {current : StaticKeyRing}
    (hstate : SameState vault current fixed state state')
    (hfits : ∀ call ∈ calls, call.1.FitsHeader)
    (hretained : ∀ call ∈ calls, current.RetainedBy call.1)
    (hpairs : (calls.map Prod.fst).Pairwise StaticKeyRing.RetainedBy) :
    vault.observed state calls =
      vault.observed state' (calls.map fun call => (fixed, call.2)) := by
  induction calls generalizing state state' current with
  | nil => rfl
  | cons call calls ih =>
      obtain ⟨ring, op⟩ := call
      obtain ⟨hring, hfits⟩ := List.forall_mem_cons.mp hfits
      obtain ⟨hlater, hpairs⟩ := List.pairwise_cons.mp hpairs
      obtain ⟨hanswer, hnext⟩ := step_same hring hfixed
        (hstate.rotated (hretained _ List.mem_cons_self)) op
      show _ :: _ = _ :: _
      rw [hanswer, ih hnext hfits
        (fun later hmem => hlater later.1 (List.mem_map_of_mem hmem))
        hpairs]

/-- Rotating the keys is transparent. In any run, whatever rings its calls
are made under, the callers are answered as they would be under one ring
that never changes, as long as each ring retains the keys of those before
it: the same tokens, values and counts, and the same errors. -/
theorem rotation_transparent (vault : RedisTokenVault)
    (fixed : StaticKeyRing) (hfixed : fixed.FitsHeader)
    (calls : List (StaticKeyRing × VaultOp))
    (hfits : ∀ call ∈ calls, call.1.FitsHeader)
    (hpairs : (calls.map Prod.fst).Pairwise StaticKeyRing.RetainedBy) :
    vault.observed .start calls =
      vault.observed .start (calls.map fun call => (fixed, call.2)) := by
  cases calls with
  | nil => rfl
  | cons call calls =>
      refine observed_eq hfixed _
        (sameState_start (A := call.1)) hfits ?_ hpairs
      intro later hmem
      rcases List.mem_cons.mp hmem with rfl | hmem
      · exact fun _ _ hkey => hkey
      · exact (List.pairwise_cons.mp hpairs).1 later.1
          (List.mem_map_of_mem hmem)

/-- A ring with a second key, now the active one. -/
def rotatedRing : StaticKeyRing where
  keys := [("k1".toList, List.replicate vaultKeyBytes 7),
    ("k2".toList, List.replicate vaultKeyBytes 9)]
  activeKeyId := "k2".toList
  active_present := by decide +kernel
  keys_valid := by
    intro entry hentry
    rcases List.mem_cons.mp hentry with rfl | hentry
    · rfl
    · rw [List.mem_singleton] at hentry
      rw [hentry]
      rfl

/-- A token minted before a rotation is resolved after it. -/
theorem rotation_transparent_minted :
    let vault := Reference.vault Reference.sampleHashes
    let mint := VaultOp.batch ⟨2⟩ ⟨3⟩ [Reference.adaEntry] 60
    let read := VaultOp.resolve ⟨2⟩ ⟨3⟩ [Reference.adaToken]
    vault.observed .start [(Reference.keyRing, mint), (rotatedRing, read)] =
        vault.observed .start
          [(Reference.keyRing, mint), (Reference.keyRing, read)] ∧
      vault.observed .start
          [(Reference.keyRing, mint), (Reference.keyRing, read)] =
        [.tokens (.ok [Reference.adaToken]),
          .values (.ok [(Reference.adaToken, "Ada".toList)])] := by
  have hold : Reference.keyRing.FitsHeader :=
    ⟨by decide +kernel, by decide +kernel⟩
  have hnew : rotatedRing.FitsHeader :=
    ⟨by decide +kernel, by decide +kernel⟩
  refine ⟨rotation_transparent _ Reference.keyRing hold
    [(Reference.keyRing, .batch ⟨2⟩ ⟨3⟩ [Reference.adaEntry] 60),
      (rotatedRing, .resolve ⟨2⟩ ⟨3⟩ [Reference.adaToken])] ?_ ?_,
    by decide +kernel⟩
  · intro call hcall
    rcases List.mem_cons.mp hcall with rfl | hcall
    · exact hold
    · rw [List.mem_singleton.mp hcall]
      exact hnew
  · refine List.pairwise_pair.mpr (fun keyId key hkey => ?_)
    cases List.mem_singleton.mp (Dict.mem_of_get? hkey)
    decide +kernel

end RedisTokenVault

end PrivacyGateway.Vault
