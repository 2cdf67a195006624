/-
A batch does not look at the values it stores.

Two batches whose requests correspond one to one, with the same types but
any originals and any fingerprints, are answered with the same tokens from
servers that are alike: the dedup goes the same way
(`deduplicate_alike`), the same ids and nonces are drawn, and an envelope
seals or fails to whatever is inside it (`seal_alike`).
-/
import PrivacyGateway.Vault.Proofs.Renaming

namespace PrivacyGateway.Vault

open Effect Renaming Tokenization

theorem seal_alike (cipher : EnvelopeCipher) (nonce plaintext other : Bytes)
    (aad : VaultAad) :
    Same (fun _ _ => True) (cipher.sealEnvelope nonce plaintext aad)
      (cipher.sealEnvelope nonce other aad) := by
  unfold EnvelopeCipher.sealEnvelope
  cases cipher.keyRing.key cipher.keyRing.activeKeyId with
  | error e => exact .error e
  | ok key =>
      cases aad.toBytes with
      | none => exact .error _
      | some bytes =>
          unfold Envelope.toBytes
          simp only
          -- the header alone decides, and the key's name is the same
          by_cases hfits : 0 < (encodeUtf8 cipher.keyRing.activeKeyId).length
              ∧ (encodeUtf8 cipher.keyRing.activeKeyId).length ≤
                maxKeyIdBytes
          · rw [if_pos hfits, if_pos hfits]
            exact .ok trivial
          · rw [if_neg hfits, if_neg hfits]
            exact .error _

-- ==================================================== the dedup

/-- What the dedup of a batch tells requests apart by. -/
def dedupKey (entry : VaultWriteRequest) : Text × Text :=
  (entry.entityType, entry.normalizedHmac)

/-- Requests that correspond repeat at the same places. -/
def RepeatAlike (P : VaultWriteRequest → VaultWriteRequest → Prop) : Prop :=
  ∀ e e' f f', P e e' → P f f' →
    (dedupKey e = dedupKey f ↔ dedupKey e' = dedupKey f')

section Dedup

variable {P : VaultWriteRequest → VaultWriteRequest → Prop}
  (hrepeat : RepeatAlike P)

include hrepeat

theorem deduplicateFrom_alike {entries entries' : List VaultWriteRequest}
    (h : List.Forall₂ P entries entries') :
    ∀ (seen seen' : Dict (Text × Text) Nat)
      (unique unique' : List VaultWriteRequest) (positions : List Nat),
      (∀ e e', P e e' →
        seen.get? (dedupKey e) = seen'.get? (dedupKey e')) →
      List.Forall₂ P unique unique' →
      List.Forall₂ P (deduplicateFrom seen unique positions entries).1
          (deduplicateFrom seen' unique' positions entries').1 ∧
        (deduplicateFrom seen unique positions entries).2 =
          (deduplicateFrom seen' unique' positions entries').2 := by
  induction h with
  | nil =>
      intro seen seen' unique unique' positions _ hunique
      exact ⟨hunique, rfl⟩
  | @cons entry entry' entries entries' hhead htail ih =>
      intro seen seen' unique unique' positions hseen hunique
      have hsame := hseen _ _ hhead
      unfold dedupKey at hsame
      simp only [deduplicateFrom]
      rw [← hsame]
      cases seen.get? (entry.entityType, entry.normalizedHmac) with
      | some index => exact ih _ _ _ _ _ hseen hunique
      | none =>
          rw [← hunique.length_eq]
          refine ih _ _ _ _ _ (fun e e' he => ?_)
            (List.rel_append hunique (.cons hhead .nil))
          have hkey := hrepeat _ _ _ _ hhead he
          show (seen.set (dedupKey entry) _).get? _ =
            (seen'.set (dedupKey entry') _).get? _
          rw [Dict.get?_set, Dict.get?_set]
          by_cases hrepeats : dedupKey entry = dedupKey e
          · rw [if_pos hrepeats, if_pos (hkey.mp hrepeats)]
          · rw [if_neg hrepeats,
              if_neg (fun h' => hrepeats (hkey.mpr h'))]
            exact hseen e e' he

theorem deduplicate_alike {entries entries' : List VaultWriteRequest}
    (h : List.Forall₂ P entries entries') :
    List.Forall₂ P (deduplicate entries).1 (deduplicate entries').1 ∧
      (deduplicate entries).2 = (deduplicate entries').2 :=
  deduplicateFrom_alike hrepeat h _ _ _ _ _ (fun _ _ _ => rfl) .nil

end Dedup

-- ==================================================== the batch

namespace Hiding

open RedisTokenVault

variable (C : Correspondence) (vault : RedisTokenVault) (t s : UUID)

/-- Two requests that ask for one token: of one type, and with index keys
that correspond. -/
structure AskAlike (entry entry' : VaultWriteRequest) : Prop where
  entityType : entry.entityType = entry'.entityType
  given : entry.normalizedHmac ≠ []
  given' : entry'.normalizedHmac ≠ []
  key : C.keys
    (vault.fingerprintKey (vault.sessionPrefix t s) entry.entityType
      entry.normalizedHmac)
    (vault.fingerprintKey (vault.sessionPrefix t s) entry'.entityType
      entry'.normalizedHmac)

/-- The correspondence keeps the session's records and its meta set, and
does not mind what is sealed. -/
structure Blind : Prop where
  record : ∀ id, C.keys (tokenKey (vault.sessionPrefix t s) id)
    (tokenKey (vault.sessionPrefix t s) id)
  metaSet : C.keys (metaKey (vault.sessionPrefix t s))
    (metaKey (vault.sessionPrefix t s))
  secrets : ∀ raw raw', C.secrets raw raw'
  sealed : ∀ id, C.records (tokenKey (vault.sessionPrefix t s) id)
  plain : ∀ entityType hmac, ¬ C.records
    (vault.fingerprintKey (vault.sessionPrefix t s) entityType hmac)

variable {C vault t s} {P : VaultWriteRequest → VaultWriteRequest → Prop}
  {entries entries' : List VaultWriteRequest}

theorem validateEntries_alike (hP : ∀ e e', P e e' → AskAlike C vault t s e e')
    (h : List.Forall₂ P entries entries') :
    validateEntries entries = validateEntries entries' := by
  induction h with
  | nil => rfl
  | cons hhead htail ih =>
      have hask := hP _ _ hhead
      unfold validateEntries
      rw [hask.entityType, if_neg hask.given, if_neg hask.given', ih]

theorem readPairs_alike (hP : ∀ e e', P e e' → AskAlike C vault t s e e')
    (h : List.Forall₂ P entries entries') (raw : List Redis.Reply) :
    readPairs raw entries = readPairs raw entries' := by
  induction h generalizing raw with
  | nil => cases raw <;> rfl
  | cons hhead htail ih =>
      match raw with
      | [] => rfl
      | [_] => rfl
      | tokenId :: flag :: raw =>
          unfold readPairs
          rw [(hP _ _ hhead).entityType, ih]

variable (hblind : Blind C vault t s)

include hblind

theorem tracks_sealEntry {entry entry' : VaultWriteRequest}
    (h : AskAlike C vault t s entry entry') :
    Tracks (AlikeWorld C) (AlikeArguments C) (vault.sealEntry t s entry)
      (vault.sealEntry t s entry') := by
  unfold sealEntry
  rw [h.entityType]
  refine (tracks_newTokenId vault).bind ?_
  rintro candidateId _ rfl
  refine (tracks_checked (same_refl _)).bind ?_
  rintro token _ rfl
  have hseal : Tracks (AlikeWorld C) (fun _ _ => True)
      (vault.sealRecord t s entry'.entityType token candidateId
        entry.originalValue)
      (vault.sealRecord t s entry'.entityType token candidateId
        entry'.originalValue) := by
    refine (tracks_newNonce vault).bind ?_
    rintro nonce _ ⟨rfl, -⟩
    exact tracks_checked (seal_alike _ _ _ _ _)
  refine hseal.bind (fun envelope envelope' _ => tracks_pure ?_)
  have hkey := h.key
  rw [h.entityType] at hkey
  exact ⟨hkey, hblind.record _, rfl, hblind.secrets _ _,
    hblind.plain _ _, hblind.sealed _⟩

theorem tracks_sealEntries (hP : ∀ e e', P e e' → AskAlike C vault t s e e')
    (h : List.Forall₂ P entries entries') :
    Tracks (AlikeWorld C) (List.Forall₂ (AlikeArguments C))
      (vault.sealEntries t s entries) (vault.sealEntries t s entries') := by
  induction h with
  | nil => exact tracks_pure .nil
  | cons hhead htail ih =>
      refine (tracks_sealEntry hblind (hP _ _ hhead)).bind
        (fun head head' hargs => ?_)
      exact ih.bind (fun tail tail' hrest =>
        tracks_pure (.cons hargs hrest))

/-- The batches are answered with the same tokens. -/
theorem tracks_getOrCreateMany
    (hP : ∀ e e', P e e' → AskAlike C vault t s e e')
    (hrepeat : RepeatAlike P) (h : List.Forall₂ P entries entries')
    (ttlSeconds : Int) :
    Tracks (AlikeWorld C) Eq
      (vault.getOrCreateMany t s entries ttlSeconds)
      (vault.getOrCreateMany t s entries' ttlSeconds) := by
  obtain ⟨hunique, hpositions⟩ := deduplicate_alike hrepeat h
  have hnil : entries = [] ↔ entries' = [] := by
    rw [← List.length_eq_zero_iff, ← List.length_eq_zero_iff, h.length_eq]
  unfold getOrCreateMany
  rw [validateEntries_alike hP h, h.length_eq]
  refine (tracks_checked (same_refl _)).bind ?_
  rintro ttl _ rfl
  refine (tracks_checked (same_refl _)).bind (fun _ _ _ => ?_)
  refine tracks_ite (fun _ => tracks_throw _) (fun _ => ?_)
  by_cases hempty : entries = []
  · rw [if_pos hempty, if_pos (hnil.mp hempty)]
    exact tracks_pure rfl
  · rw [if_neg hempty, if_neg (fun h' => hempty (hnil.mpr h'))]
    refine (tracks_sealEntries hblind hP hunique).bind
      (fun candidates candidates' hcandidates => ?_)
    refine (tracks_storeCall _ (tracks_batchWrite hblind.metaSet
      (fun id => ?_) _ hcandidates)).bind ?_
    · rw [List.append_assoc]
      exact hblind.record id
    rintro raw _ rfl
    have hread : readBatchResult raw (deduplicate entries).1 =
        readBatchResult raw (deduplicate entries').1 := by
      unfold readBatchResult
      rw [hunique.length_eq, readPairs_alike hP hunique]
    rw [hread]
    refine (tracks_checked (same_refl _)).bind ?_
    rintro tokens _ rfl
    rw [hpositions]
    exact tracks_pure rfl

end Hiding

end PrivacyGateway.Vault
