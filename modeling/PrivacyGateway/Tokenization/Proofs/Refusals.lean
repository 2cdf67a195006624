/-
Which errors a transform raises, and when.

A refusal is one of the three errors that say no to a request: too many
entities, a blocked type, a span outside its text. All of them come from
planning, before the vault is called; `transform_error` splits an error
into those, which leave the vault alone, and the faults that come after,
none of which is a refusal. The vault's own errors are all faults
(`getOrCreateMany_faults`).
-/
import PrivacyGateway.Tokenization.Proofs.Transform
import PrivacyGateway.Vault.RedisVault

namespace PrivacyGateway

open Effect

/-- The codes that say no to a request. -/
def ErrorCode.isRefusal : ErrorCode → Bool
  | .entityLimitExceeded => true
  | .policyViolation => true
  | .invalidRequest => true
  | _ => false

def Exn.isRefusal : Exn → Bool
  | .gateway error => error.code.isRefusal
  | _ => false

/-- An error that is no refusal. -/
def Exn.IsFault (e : Exn) : Prop :=
  e.isRefusal = false

theorem Exn.IsFault.elim {e : Exn} (h : e.IsFault)
    (hrefusal : e.isRefusal = true) : False := by
  rw [h] at hrefusal
  cases hrefusal

/-- The result is a refusal with this code. -/
def RefusedWith {α : Type} (code : ErrorCode) (result : Except Exn α) :
    Prop :=
  ∃ error, result = .error (.gateway error) ∧ error.code = code

theorem RefusedWith.code_eq {α : Type} {result : Except Exn α}
    {code code' : ErrorCode} (h : RefusedWith code result)
    (h' : RefusedWith code' result) : code = code' := by
  obtain ⟨error, rfl, rfl⟩ := h
  obtain ⟨error', hsame, rfl⟩ := h'
  cases hsame
  rfl

theorem RefusedWith.not_ok {α : Type} {result : Except Exn α}
    {code : ErrorCode} (h : RefusedWith code result) {a : α} :
    result ≠ .ok a := by
  obtain ⟨error, rfl, -⟩ := h
  intro hsame
  cases hsame

-- ==================================================== the vault

namespace Vault

open Tokenization

theorem formatToken_fault {entityType tokenId : Text} {e : Exn}
    (h : formatToken entityType tokenId = .error e) : e.IsFault := by
  unfold formatToken at h
  split at h
  · cases h
    rfl
  · split at h
    · cases h
      rfl
    · cases h

theorem sealEnvelope_fault {cipher : EnvelopeCipher}
    {nonce plaintext : Bytes} {aad : VaultAad} {e : Exn}
    (h : cipher.sealEnvelope nonce plaintext aad = .error e) :
    e.IsFault := by
  unfold EnvelopeCipher.sealEnvelope at h
  obtain ⟨key, hkey⟩ := cipher.keyRing.key_active
  rw [hkey] at h
  simp only at h
  cases haad : aad.toBytes with
  | none =>
      rw [haad] at h
      cases h
      rfl
  | some aadBytes =>
      rw [haad] at h
      simp only [Envelope.toBytes] at h
      split at h
      · cases h
      · cases h
        rfl

theorem validatedTtl_fault {ttlSeconds : Int} {e : Exn}
    (h : validatedTtl ttlSeconds = .error e) : e.IsFault := by
  unfold validatedTtl at h
  split at h
  · cases h
  · cases h
    rfl

theorem validateEntries_fault (entries : List VaultWriteRequest) :
    ∀ {e : Exn}, validateEntries entries = .error e → e.IsFault := by
  induction entries with
  | nil =>
      intro e h
      cases h
  | cons entry entries ih =>
      intro e h
      unfold validateEntries validateEntityType at h
      by_cases htype : isValidEntityType entry.entityType = true
      · rw [if_pos htype] at h
        simp only at h
        by_cases hhmac : entry.normalizedHmac = []
        · rw [if_pos hhmac] at h
          cases h
          rfl
        · rw [if_neg hhmac] at h
          exact ih h
      · rw [if_neg htype] at h
        cases h
        rfl

theorem readPairs_fault (unique : List VaultWriteRequest) :
    ∀ {raw : List Redis.Reply} {e : Exn},
      readPairs raw unique = .error e → e.IsFault := by
  induction unique with
  | nil =>
      intro raw e h
      match raw with
      | [] => cases h
      | [_] => cases h
      | _ :: _ :: _ => cases h
  | cons entry unique ih =>
      intro raw e h
      match raw with
      | [] => cases h
      | [_] => cases h
      | tokenId :: _ :: raw =>
          rw [readPairs] at h
          by_cases hid : isValidTokenId (asText tokenId) = true
          · rw [if_pos hid] at h
            split at h
            · cases h
            · rename_i hformat
              cases h
              exact formatToken_fault hformat
            · rename_i hrest _
              cases h
              exact ih hrest
          · rw [if_neg hid] at h
            cases h
            rfl

theorem readBatchResult_fault {raw : List Redis.Reply}
    {unique : List VaultWriteRequest} {e : Exn}
    (h : readBatchResult raw unique = .error e) : e.IsFault := by
  unfold readBatchResult at h
  split at h
  · cases h
    rfl
  · exact readPairs_fault unique h

theorem storeCall_faults {α : Type} (operation : String)
    (command : Eff Redis RedisError α) :
    Raises Exn.IsFault (storeCall operation command) := by
  apply raises_act
  intro w e t h
  split at h
  · cases h
  · cases h
    rfl

namespace RedisTokenVault

variable (vault : RedisTokenVault) (tenantId sessionId : UUID)

theorem sealEntry_faults (entry : VaultWriteRequest) :
    Raises Exn.IsFault (vault.sealEntry tenantId sessionId entry) := by
  apply Raises.bind
  · exact raises_act (fun _ _ _ h => by cases h)
  · intro candidateId
    apply Raises.bind
    · exact raises_checked (fun _ h => formatToken_fault h)
    · intro token
      apply Raises.bind
      · apply Raises.bind
        · exact raises_act (fun _ _ _ h => by cases h)
        · intro nonce
          exact raises_checked (fun _ h => sealEnvelope_fault h)
      · intro envelope
        exact raises_pure _

theorem sealEntries_faults (entries : List VaultWriteRequest) :
    Raises Exn.IsFault (vault.sealEntries tenantId sessionId entries) := by
  induction entries with
  | nil => exact raises_pure _
  | cons entry entries ih =>
      apply Raises.bind
      · exact vault.sealEntry_faults tenantId sessionId entry
      · intro head
        exact ih.bind (fun _ => raises_pure _)

/-- The vault refuses nothing: what it raises is a fault. -/
theorem getOrCreateMany_faults (entries : List VaultWriteRequest)
    (ttlSeconds : Int) :
    Raises Exn.IsFault (vault.getOrCreateMany tenantId sessionId entries
      ttlSeconds) := by
  apply Raises.bind
  · exact raises_checked (fun _ h => validatedTtl_fault h)
  · intro ttl
    apply Raises.bind
    · exact raises_checked (fun _ h => validateEntries_fault entries h)
    · intro _
      apply raises_ite
      · exact raises_throw rfl
      · apply raises_ite
        · exact raises_pure _
        · apply Raises.bind
          · exact vault.sealEntries_faults tenantId sessionId _
          · intro candidates
            apply Raises.bind
            · exact storeCall_faults _ _
            · intro raw
              apply Raises.bind
              · exact raises_checked (fun _ h => readBatchResult_fault h)
              · intro tokens
                exact raises_pure _

end RedisTokenVault

end Vault

-- ==================================================== the transform

namespace Tokenization

theorem pendingOf_fault {unicode : Unicode} {hashes : Hashes}
    {fingerprinter : Fingerprinter} {tenantId sessionId : UUID}
    {text : Text} (items : List (Planned × Nat)) :
    ∀ {e : Exn}, pendingOf unicode hashes fingerprinter tenantId sessionId
      text items = .error e → e.IsFault := by
  induction items with
  | nil =>
      intro e h
      cases h
  | cons item items ih =>
      intro e h
      unfold pendingOf at h
      by_cases hneeds : needsMapping item.1.2 = true
      · rw [if_pos hneeds] at h
        unfold pendingFor identityOf Fingerprinter.fingerprint at h
        cases hframe : Frame.frame 4 [tenantId.bytes, sessionId.bytes,
            encodeUtf8 item.1.1.entityType,
            encodeUtf8 (normalize unicode item.1.1.entityType
              (Splice.slice text item.1.1.start item.1.1.stop))] with
        | none =>
            rw [hframe] at h
            cases h
            rfl
        | some message =>
            rw [hframe] at h
            simp only at h
            split at h
            · rename_i hrest
              cases h
              exact ih hrest
            · cases h
      · rw [if_neg hneeds] at h
        exact ih h

theorem coerceVaultToken_fault {rawToken entityType : Text} {e : Exn}
    (h : coerceVaultToken rawToken entityType = .error e) :
    e.IsFault := by
  unfold coerceVaultToken at h
  split at h
  · split at h
    · cases h
    · cases h
      rfl
  · split at h
    · split at h
      · cases h
      · cases h
        rfl
    · cases h
      rfl

theorem mappingsFor_fault (pending : List Pending) :
    ∀ {tokens : List Text} {e : Exn},
      mappingsFor pending tokens = .error e → e.IsFault := by
  induction pending with
  | nil =>
      intro tokens e h
      cases h
  | cons item pending ih =>
      intro tokens e h
      cases tokens with
      | nil => cases h
      | cons rawToken tokens =>
          unfold mappingsFor mappingFor at h
          cases hcoerce : coerceVaultToken rawToken item.entityType with
          | error e' =>
              rw [hcoerce] at h
              cases h
              exact coerceVaultToken_fault hcoerce
          | ok token =>
              rw [hcoerce] at h
              simp only at h
              split at h
              · rename_i hrest
                cases h
                exact ih hrest
              · cases h

theorem replacementOf_fault {unicode : Unicode} {hashes : Hashes}
    {text : Text} {minted : Dict Nat EntityMapping} {item : Planned × Nat}
    {e : Exn}
    (h : replacementOf unicode hashes text minted item = .error e) :
    e.IsFault := by
  unfold replacementOf replacementFor at h
  split at h
  · cases h
  · unfold formatRedaction at h
    split at h
    · cases h
    · rename_i hformat
      cases h
      split at hformat
      · cases hformat
        rfl
      · cases hformat
  · split at h
    · cases h
      rfl
    · split at h
      · cases h
      · cases h

theorem spliceFrom_fault {unicode : Unicode} {hashes : Hashes}
    {text : Text} {minted : Dict Nat EntityMapping}
    (order : List (Planned × Nat)) :
    ∀ {state : Spliced} {e : Exn},
      spliceFrom unicode hashes text minted state order = .error e →
        e.IsFault := by
  induction order with
  | nil =>
      intro state e h
      cases h
  | cons item order ih =>
      intro state e h
      unfold spliceFrom at h
      simp only at h
      cases hreplace : replacementOf unicode hashes text minted item with
      | error e' =>
          rw [hreplace] at h
          cases h
          exact replacementOf_fault hreplace
      | ok result =>
          rw [hreplace] at h
          cases result with
          | none => exact ih h
          | some replacement => exact ih h

/-- One blocked span refuses the plan. -/
theorem rejectBlocked_refuses (plan : List Planned)
    (h : ∃ item ∈ plan, item.2 = .block) :
    RefusedWith .policyViolation (rejectBlocked plan) := by
  induction plan with
  | nil =>
      obtain ⟨item, hitem, -⟩ := h
      cases hitem
  | cons item plan ih =>
      unfold rejectBlocked
      by_cases hblock : item.2 = .block
      · rw [if_pos hblock]
        exact ⟨_, rfl, rfl⟩
      · rw [if_neg hblock]
        obtain ⟨other, hother, haction⟩ := h
        rcases List.mem_cons.mp hother with rfl | hother
        · exact absurd haction hblock
        · exact ih ⟨other, hother, haction⟩

/-- Within the limit, a plan is refused for a blocked type exactly when it
selects a span of one. -/
theorem planFor_violation_iff {text : Text} {entities : List DetectedEntity}
    {policy : PolicySnapshot} {selected : List DetectedEntity}
    (hselect : selectEntities text entities policy = .ok selected)
    (hcount : selected.length ≤ policy.maxEntities) :
    RefusedWith .policyViolation (planFor text entities policy) ↔
      ∃ e ∈ selected, policy.actionFor e.entityType = .block := by
  constructor
  · intro hrefused
    by_contra hnone
    have hplan := planFor_ok_iff.mpr ⟨selected, ⟨hselect, hcount,
      fun e he haction => hnone ⟨e, he, haction⟩⟩, rfl⟩
    exact hrefused.not_ok hplan
  · rintro ⟨e, he, haction⟩
    obtain ⟨error, hrefused, hcode⟩ := rejectBlocked_refuses
      (withActions policy selected) ⟨_, List.mem_map_of_mem he, haction⟩
    unfold planFor
    simp only [hselect, enforceLimit_ok_iff.mpr hcount, bind, Except.bind]
    unfold withActions at hrefused
    rw [hrefused]
    exact ⟨error, rfl, hcode⟩

section Transform

variable {σ : Type} {unicode : Unicode} {hashes : Hashes}
  {fingerprinter : Fingerprinter} {vault : VaultLike σ}
  {tenantId sessionId : UUID} {text : Text}
  {entities : List DetectedEntity} {policy : PolicySnapshot}

theorem mint_faults (plan : List Planned) (ttlSeconds : Int)
    (hvault : ∀ entries ttlSeconds, Raises Exn.IsFault
      (vault.getOrCreateMany tenantId sessionId entries ttlSeconds)) :
    Raises Exn.IsFault (mint unicode hashes fingerprinter tenantId sessionId
      vault text plan ttlSeconds) := by
  apply Raises.bind
  · exact raises_checked (fun _ h => pendingOf_fault _ h)
  · intro pending
    apply raises_ite
    · exact raises_pure _
    · apply (hvault _ _).bind
      intro tokens
      apply raises_ite
      · exact raises_checked (fun _ h => mappingsFor_fault _ h)
      · exact raises_throw rfl

/-- A transform that raises did so while planning, and then changed
nothing; or it had a plan, and then its error is a fault. -/
theorem transform_error {s t : σ} {e : Exn}
    (hvault : ∀ entries ttlSeconds, Raises Exn.IsFault
      (vault.getOrCreateMany tenantId sessionId entries ttlSeconds))
    (h : runIn (transform unicode hashes fingerprinter vault tenantId
      sessionId text entities policy) s = (.error e, t)) :
    (planFor text entities policy = .error e ∧ t = s) ∨
      (∃ plan, planFor text entities policy = .ok plan) ∧ e.IsFault := by
  unfold transform at h
  cases hplan : planFor text entities policy with
  | error e' =>
      rw [hplan, checked_bind_error] at h
      cases h
      exact Or.inl ⟨rfl, rfl⟩
  | ok plan =>
      rw [hplan, checked_bind_ok] at h
      refine Or.inr ⟨⟨plan, rfl⟩, ?_⟩
      rcases bind_error_iff.mp h with h | ⟨minted, u, -, h⟩
      · exact mint_faults plan _ hvault s e t h
      · rcases bind_error_iff.mp h with h | ⟨spliced, v, -, h⟩
        · rw [runIn_checked] at h
          obtain ⟨herror, -⟩ := Prod.mk.inj h
          exact spliceFrom_fault _ herror
        · cases h

end Transform

end Tokenization

end PrivacyGateway
