/-
What each call of the vault does.

- `getOrCreateMany_cases`: a batch that raises writes nothing; one that
  returns is `Batched`: its candidates were sealed for its unique entries
  (`SealedFrom`), the script ran on them, and the tokens are the
  renderings of the ids it answered.
- `runIn_listSession`, `eraseListed_spec`, `deleteSession_spec`: a
  deletion erases the session's own keys among those listed, and the meta
  set.
- `runIn_resolveMany`: a resolution reads the wanted records and changes
  nothing.

`Holds` says what an envelope was sealed for. An envelope that holds a
mapping opens for the mapping's token (`unsealRecord_holds`) and for no
other (`unsealRecord_other`).
-/
import PrivacyGateway.Vault.Proofs.Batch

namespace PrivacyGateway.Vault.RedisTokenVault

open Effect Tokenization

-- ==================================================== envelopes

variable (vault : RedisTokenVault) (t s : UUID)

/-- The envelope was sealed for a token of the session and its value. -/
def Holds (ty id v : Text) (raw : Bytes) : Prop :=
  isValidEntityType ty = true ∧ isValidTokenId id = true ∧
    ∃ nonce : Bytes, nonce.length = nonceBytes ∧
      vault.cipher.sealEnvelope nonce
        ((recordFor t s ty (renderToken ty id) v).toBytes vault.codec)
        (aadFor t s ty id) = .ok raw

variable {vault t s}

theorem length_encodeUtf8_le (text : Text) :
    (encodeUtf8 text).length ≤ 4 * text.length := by
  unfold encodeUtf8
  induction text with
  | nil => simp
  | cons c text ih =>
      rw [List.flatMap_cons, List.length_append,
        String.length_utf8EncodeChar, List.length_cons]
      have := Char.utf8Size_le_four c
      omega

/-- The associated data of a well-formed token can be written. -/
theorem aadFor_toBytes {ty id : Text} (hty : isValidEntityType ty = true)
    (hid : isValidTokenId id = true) :
    ∃ bytes, (aadFor t s ty id).toBytes = some bytes := by
  apply Frame.frame_isSome
  intro field hfield
  have h1 := length_encodeUtf8_le t.str
  have h2 := length_encodeUtf8_le s.str
  have h3 := length_encodeUtf8_le ty
  have h4 := length_encodeUtf8_le id
  rw [UUID.length_str] at h1 h2
  have h5 := (length_of_validEntityType hty).2
  rw [length_of_validTokenId hid] at h4
  have hdomain : aadDomain.length = 16 := by decide +kernel
  simp only [VaultAad.fields, aadFor, List.mem_cons, List.not_mem_nil,
    or_false] at hfield
  rcases hfield with rfl | rfl | rfl | rfl | rfl | rfl
  · omega
  · simp
  · omega
  · omega
  · omega
  · omega

theorem unsealRecord_holds {ty id v : Text} {raw : Bytes}
    (h : vault.Holds t s ty id v raw) :
    vault.unsealRecord t s raw ty id =
      .ok (recordFor t s ty (renderToken ty id) v) := by
  obtain ⟨-, -, nonce, hnonce, hseal⟩ := h
  unfold unsealRecord
  rw [EnvelopeCipher.unsealEnvelope_seal hseal hnonce]
  exact VaultRecord.fromBytes_toBytes vault.codec rfl

theorem unsealRecord_other {ty id v ty' : Text} {raw : Bytes}
    (h : vault.Holds t s ty id v raw) (hty : isValidEntityType ty' = true)
    (hne : ty' ≠ ty) :
    vault.unsealRecord t s raw ty' id =
      .error (vaultEncryptionError "authentication_failed") := by
  obtain ⟨-, hid, nonce, hnonce, hseal⟩ := h
  obtain ⟨bytes, hbytes⟩ := @aadFor_toBytes t s ty' id hty hid
  have haad : aadFor t s ty' id ≠ aadFor t s ty id :=
    fun hsame => hne (congrArg VaultAad.entityType hsame)
  unfold unsealRecord
  rw [EnvelopeCipher.unsealEnvelope_other hseal hnonce haad hbytes]

/-- An envelope holds one value of one type. -/
theorem Holds.unique {ty id v ty' v' : Text} {raw : Bytes}
    (h : vault.Holds t s ty id v raw) (h' : vault.Holds t s ty' id v' raw) :
    ty' = ty ∧ v' = v := by
  have hopen := unsealRecord_holds h'
  by_cases hty : ty' = ty
  · subst hty
    rw [unsealRecord_holds h] at hopen
    exact ⟨rfl, (congrArg VaultRecord.originalValue
      (Except.ok.inj hopen)).symm⟩
  · rw [unsealRecord_other h h'.1 hty] at hopen
    cases hopen

-- ==================================================== sealing

variable (vault t s)

/-- The candidates of a list of entries, sealed from a draw on. -/
inductive SealedFrom : Nat → List VaultWriteRequest → List Candidate → Prop
  | nil (n : Nat) : SealedFrom n [] []
  | cons {n : Nat} {entry : VaultWriteRequest}
      {entries : List VaultWriteRequest} {c : Candidate}
      {cs : List Candidate}
      (segment_eq : c.segment =
        vault.indexSegment entry.entityType entry.normalizedHmac)
      (id_eq : c.id = encodeCrockford (vault.secrets.tokenBytes n))
      (holds : vault.Holds t s entry.entityType c.id entry.originalValue
        c.raw)
      (tail : SealedFrom (n + 1) entries cs) :
      SealedFrom n (entry :: entries) (c :: cs)

variable {vault t s}

theorem SealedFrom.length_eq {n : Nat} {entries : List VaultWriteRequest}
    {cs : List Candidate} (h : vault.SealedFrom t s n entries cs) :
    cs.length = entries.length := by
  induction h with
  | nil n => rfl
  | cons _ _ _ _ ih => rw [List.length_cons, List.length_cons, ih]

/-- Every candidate holds a mapping of its own id. -/
theorem SealedFrom.holds {n : Nat} {entries : List VaultWriteRequest}
    {cs : List Candidate} (h : vault.SealedFrom t s n entries cs) :
    ∀ c ∈ cs, ∃ entry ∈ entries, c.segment =
        vault.indexSegment entry.entityType entry.normalizedHmac ∧
      vault.Holds t s entry.entityType c.id entry.originalValue c.raw := by
  induction h with
  | nil n =>
      intro c hc
      exact absurd hc (List.not_mem_nil)
  | @cons n entry entries c cs hsegment hid hholds tail ih =>
      intro c' hc'
      rcases List.mem_cons.mp hc' with rfl | hc'
      · exact ⟨entry, List.mem_cons_self, hsegment, hholds⟩
      · obtain ⟨e, he, hrest⟩ := ih c' hc'
        exact ⟨e, List.mem_cons_of_mem _ he, hrest⟩

/-- Every entry has a candidate that holds its mapping. -/
theorem SealedFrom.entry_holds {n : Nat}
    {entries : List VaultWriteRequest} {cs : List Candidate}
    (h : vault.SealedFrom t s n entries cs) :
    ∀ entry ∈ entries, ∃ c ∈ cs,
      vault.Holds t s entry.entityType c.id entry.originalValue c.raw := by
  induction h with
  | nil n =>
      intro entry hentry
      exact absurd hentry (List.not_mem_nil)
  | @cons n entry entries c cs hsegment hid hholds tail ih =>
      intro entry' hentry'
      rcases List.mem_cons.mp hentry' with rfl | hentry'
      · exact ⟨c, List.mem_cons_self, hholds⟩
      · obtain ⟨c', hc', hrest⟩ := ih entry' hentry'
        exact ⟨c', List.mem_cons_of_mem _ hc', hrest⟩

/-- Every entry has a candidate under its own index key. -/
theorem SealedFrom.candidate {n : Nat} {entries : List VaultWriteRequest}
    {cs : List Candidate} (h : vault.SealedFrom t s n entries cs) :
    ∀ entry ∈ entries, ∃ c ∈ cs, c.segment =
      vault.indexSegment entry.entityType entry.normalizedHmac := by
  induction h with
  | nil n =>
      intro entry hentry
      exact absurd hentry (List.not_mem_nil)
  | @cons n entry entries c cs hsegment hid hholds tail ih =>
      intro entry' hentry'
      rcases List.mem_cons.mp hentry' with rfl | hentry'
      · exact ⟨c, List.mem_cons_self, hsegment⟩
      · obtain ⟨c', hc', hrest⟩ := ih entry' hentry'
        exact ⟨c', List.mem_cons_of_mem _ hc', hrest⟩

theorem SealedFrom.validIds {n : Nat} {entries : List VaultWriteRequest}
    {cs : List Candidate} (h : vault.SealedFrom t s n entries cs) :
    ∀ c ∈ cs, isValidTokenId c.id = true := by
  intro c hc
  obtain ⟨entry, -, -, hholds⟩ := h.holds c hc
  exact hholds.2.1

/-- A sealed entry: its candidate, and the draws it took. -/
theorem sealEntry_ok {entry : VaultWriteRequest} {w w' : World}
    {sealed : Redis.ScriptEntry}
    (h : runIn (vault.sealEntry t s entry) w = (.ok sealed, w')) :
    ∃ c : Candidate, sealed = c.scriptEntry vault t s ∧
      c.segment = vault.indexSegment entry.entityType
        entry.normalizedHmac ∧
      c.id = encodeCrockford (vault.secrets.tokenBytes w.idsDrawn) ∧
      vault.Holds t s entry.entityType c.id entry.originalValue c.raw ∧
      w'.redis = w.redis ∧ w'.idsDrawn = w.idsDrawn + 1 := by
  unfold sealEntry at h
  simp only at h
  obtain ⟨id, w1, hdraw, h⟩ := bind_ok_iff.mp h
  unfold newTokenId at hdraw
  rw [runIn_act] at hdraw
  cases hdraw
  obtain ⟨token, hformat, h⟩ := checked_bind_ok_iff.mp h
  have hid := isValidTokenId_encodeCrockford
    (vault.secrets.tokenBytes w.idsDrawn)
  have hty : isValidEntityType entry.entityType = true := by
    by_contra hnot
    rw [Bool.not_eq_true] at hnot
    unfold formatToken at hformat
    rw [hnot] at hformat
    cases hformat
  rw [formatToken_of_valid hty hid] at hformat
  cases hformat
  obtain ⟨raw, w2, hraw, h⟩ := bind_ok_iff.mp h
  rw [runIn_pure] at h
  cases h
  unfold sealRecord at hraw
  obtain ⟨nonce, w3, hnonce, hraw⟩ := bind_ok_iff.mp hraw
  unfold newNonce at hnonce
  rw [runIn_act] at hnonce
  cases hnonce
  rw [runIn_checked] at hraw
  obtain ⟨hseal, hw⟩ := Prod.mk.inj hraw
  refine ⟨⟨vault.indexSegment entry.entityType entry.normalizedHmac,
    encodeCrockford (vault.secrets.tokenBytes w.idsDrawn), raw⟩, rfl, rfl,
    rfl, ⟨hty, hid, _, vault.secrets.urandom_length _, hseal⟩, ?_, ?_⟩
  · rw [← hw]
  · rw [← hw]

/-- Sealing never touches the server. -/
theorem sealEntry_redis (entry : VaultWriteRequest) (w : World) :
    (runIn (vault.sealEntry t s entry) w).2.redis = w.redis ∧
      w.idsDrawn ≤ (runIn (vault.sealEntry t s entry) w).2.idsDrawn := by
  cases hrun : runIn (vault.sealEntry t s entry) w with
  | mk result w' =>
      cases result with
      | ok sealed =>
          obtain ⟨-, -, -, -, -, hredis, hdrawn⟩ := sealEntry_ok hrun
          exact ⟨hredis, by simp only; omega⟩
      | error e =>
          unfold sealEntry at hrun
          simp only at hrun
          have hdraw : runIn vault.newTokenId w = (.ok (encodeCrockford
              (vault.secrets.tokenBytes w.idsDrawn)),
              { w with idsDrawn := w.idsDrawn + 1 }) := rfl
          rw [runIn_bind, hdraw] at hrun
          simp only at hrun
          rw [runIn_bind, runIn_checked] at hrun
          cases hformat : formatToken entry.entityType (encodeCrockford
              (vault.secrets.tokenBytes w.idsDrawn)) with
          | error e' =>
              rw [hformat] at hrun
              cases hrun
              exact ⟨rfl, Nat.le_succ _⟩
          | ok token =>
              rw [hformat] at hrun
              simp only at hrun
              unfold sealRecord newNonce at hrun
              rw [runIn_bind, runIn_bind, runIn_act] at hrun
              simp only at hrun
              rw [runIn_checked] at hrun
              split at hrun
              · cases hrun
              · rename_i hraw
                obtain ⟨-, rfl⟩ := Prod.mk.inj hraw
                cases hrun
                exact ⟨rfl, Nat.le_succ _⟩

theorem sealEntries_ok (entries : List VaultWriteRequest) :
    ∀ {w w' : World} {sealed : List Redis.ScriptEntry},
      runIn (vault.sealEntries t s entries) w = (.ok sealed, w') →
      ∃ cs : List Candidate,
        sealed = cs.map (Candidate.scriptEntry vault t s) ∧
        vault.SealedFrom t s w.idsDrawn entries cs ∧
        w'.redis = w.redis ∧
        w'.idsDrawn = w.idsDrawn + entries.length := by
  induction entries with
  | nil =>
      intro w w' sealed h
      unfold sealEntries at h
      rw [runIn_pure] at h
      cases h
      exact ⟨[], rfl, .nil _, rfl, rfl⟩
  | cons entry entries ih =>
      intro w w' sealed h
      unfold sealEntries at h
      obtain ⟨head, w1, hhead, h⟩ := bind_ok_iff.mp h
      obtain ⟨tail, w2, htail, h⟩ := bind_ok_iff.mp h
      rw [runIn_pure] at h
      cases h
      obtain ⟨c, rfl, hsegment, hid, hholds, hredis, hdrawn⟩ :=
        sealEntry_ok hhead
      obtain ⟨cs, rfl, hsealed, hredis', hdrawn'⟩ := ih htail
      rw [hdrawn] at hsealed
      refine ⟨c :: cs, rfl, .cons hsegment hid hholds hsealed,
        hredis'.trans hredis, ?_⟩
      rw [hdrawn', hdrawn, List.length_cons]
      omega

theorem sealEntries_redis (entries : List VaultWriteRequest) :
    ∀ w : World,
      (runIn (vault.sealEntries t s entries) w).2.redis = w.redis ∧
        w.idsDrawn ≤
          (runIn (vault.sealEntries t s entries) w).2.idsDrawn := by
  induction entries with
  | nil =>
      intro w
      exact ⟨rfl, le_refl _⟩
  | cons entry entries ih =>
      intro w
      have hhead := @sealEntry_redis vault t s entry w
      unfold sealEntries
      rw [runIn_bind]
      cases hrun : runIn (vault.sealEntry t s entry) w with
      | mk result w1 =>
          rw [hrun] at hhead
          cases result with
          | error e => exact hhead
          | ok sealed =>
              have htail := ih w1
              simp only
              rw [runIn_bind]
              cases hrest : runIn (vault.sealEntries t s entries) w1 with
              | mk result' w2 =>
                  rw [hrest] at htail
                  have hboth : w2.redis = w.redis ∧
                      w.idsDrawn ≤ w2.idsDrawn :=
                    ⟨htail.1.trans hhead.1, le_trans hhead.2 htail.2⟩
                  cases result' with
                  | error e => exact hboth
                  | ok tail => exact hboth

-- ==================================================== batches

/-- The tokens of a batch's unique entries. -/
def tokensOf (entries : List VaultWriteRequest) (ids : List Text) :
    List Text :=
  List.zipWith (fun entry id => renderToken entry.entityType id) entries ids

theorem readPairs_spec (unique : List VaultWriteRequest) :
    ∀ {ids : List Text} {flags : List Int},
      (∀ entry ∈ unique, isValidEntityType entry.entityType = true) →
      (∀ id ∈ ids, isValidTokenId id = true) →
      ids.length = unique.length → flags.length = unique.length →
      readPairs (pairsOf ids flags) unique = .ok (tokensOf unique ids) := by
  induction unique with
  | nil =>
      intro ids flags _ _ hids _
      rw [List.length_eq_zero_iff.mp hids]
      rfl
  | cons entry unique ih =>
      intro ids flags hty hvalid hids hflags
      cases ids with
      | nil => cases hids
      | cons id ids =>
          cases flags with
          | nil => cases hflags
          | cons flag flags =>
              obtain ⟨hhead, htail⟩ := List.forall_mem_cons.mp hty
              obtain ⟨hid, hrest⟩ := List.forall_mem_cons.mp hvalid
              have hread := ih htail hrest (Nat.succ.inj hids)
                (Nat.succ.inj hflags)
              show readPairs (.bulk id :: .int flag :: pairsOf ids flags)
                (entry :: unique) = _
              unfold readPairs
              rw [show asText (.bulk id) = id by rfl, if_pos hid,
                formatToken_of_valid hhead hid, hread]
              rfl

theorem length_pairsOf {ids : List Text} {flags : List Int}
    (h : flags.length = ids.length) :
    (pairsOf ids flags).length = 2 * ids.length := by
  induction ids generalizing flags with
  | nil => rfl
  | cons id ids ih =>
      cases flags with
      | nil => cases h
      | cons flag flags =>
          have htail := ih (Nat.succ.inj h)
          show (pairsOf ids flags).length + 1 + 1 = _
          rw [htail, List.length_cons]
          omega

theorem validatedTtl_ok {ttlSeconds : Int} {ttl : Nat}
    (h : validatedTtl ttlSeconds = .ok ttl) :
    ttlSeconds = ttl ∧ 1 ≤ ttl ∧ ttl ≤ 7200 := by
  unfold validatedTtl minTtlSeconds maxTtlSeconds at h
  by_cases hrange : (1 : Int) ≤ ttlSeconds ∧ ttlSeconds ≤ 7200
  · rw [if_pos hrange] at h
    cases h
    omega
  · rw [if_neg hrange] at h
    cases h

variable (vault t s)

/-- A batch that returned its tokens. -/
structure Batched (entries : List VaultWriteRequest) (ttl : Nat)
    (cs : List Candidate) (ids : List Text) (w w' : World)
    (tokens : List Text) : Prop where
  ttl_positive : 1 ≤ ttl
  nonempty : entries ≠ []
  candidates_sealed : vault.SealedFrom t s w.idsDrawn (deduplicate entries).1 cs
  scripted : vault.Scripted t s ttl cs ids w.redis w'.redis
  length_eq : ids.length = cs.length
  tokens_eq : tokens = (deduplicate entries).2.map
    (fun index => (tokensOf (deduplicate entries).1 ids).getD index [])
  drawn_eq : w'.idsDrawn = w.idsDrawn + (deduplicate entries).1.length

variable {vault t s}

/-- Once the candidates are sealed, nothing fails: the script runs, and
its answer is read. -/
theorem writeBatch_of_sealed {entries : List VaultWriteRequest}
    {ttl : Nat} {w w1 : World} {candidates : List Redis.ScriptEntry}
    (htyped : vault.Typed w.redis) (httl : 1 ≤ ttl) (hne : entries ≠ [])
    (hseal : runIn (vault.sealEntries t s (deduplicate entries).1) w =
      (.ok candidates, w1)) :
    ∃ cs ids tokens w', runIn (vault.writeBatch t s ttl entries) w =
        (.ok tokens, w') ∧
      (∀ id ∈ ids, isValidTokenId id = true) ∧
      vault.Batched t s entries ttl cs ids w w' tokens := by
  obtain ⟨cs, rfl, hsealed, hr1, hdrawn⟩ := sealEntries_ok _ hseal
  have htyped1 : vault.Typed w1.redis := by
    rw [hr1]
    exact htyped
  obtain ⟨r', ids, flags, hrun, hscripted, hids, hflags, hall⟩ :=
    @batchWrite_spec vault t s ttl cs w1.redis htyped1 hsealed.validIds
  have hlen := hsealed.length_eq
  have hstore : runIn (storeCall "get_or_create_many"
      (Redis.batchWrite (metaKey (vault.sessionPrefix t s))
        (vault.sessionPrefix t s ++ tokenSegment) ttl
        (cs.map (Candidate.scriptEntry vault t s)))) w1 =
      (.ok (pairsOf ids flags), { w1 with redis := r' }) := by
    unfold storeCall
    rw [runIn_act, metaKey_eq_render, hrun]
  have hread : readBatchResult (pairsOf ids flags)
      (deduplicate entries).1 =
        .ok (tokensOf (deduplicate entries).1 ids) := by
    unfold readBatchResult
    rw [if_neg]
    · refine readPairs_spec _ ?_ hall (by omega) (by omega)
      intro entry hentry
      obtain ⟨c, -, hc⟩ := hsealed.entry_holds entry hentry
      exact hc.1
    · rw [not_not, length_pairsOf (by omega), hids, hlen]
  refine ⟨cs, ids, _, { w1 with redis := r' }, ?_, hall, httl, hne,
    hsealed, ?_, hids, rfl, hdrawn⟩
  · unfold writeBatch
    simp only
    rw [runIn_bind, hseal]
    simp only
    rw [runIn_bind, hstore]
    simp only
    rw [runIn_bind, runIn_checked, hread]
    rfl
  · rw [← hr1]
    exact hscripted

/-- A batch raises and writes nothing, or has nothing to do, or is
`Batched`. -/
theorem getOrCreateMany_cases {entries : List VaultWriteRequest}
    {ttlSeconds : Int} {w w' : World} {result : Except Exn (List Text)}
    (htyped : vault.Typed w.redis)
    (h : runIn (vault.getOrCreateMany t s entries ttlSeconds) w =
      (result, w')) :
    (w'.redis = w.redis ∧ w.idsDrawn ≤ w'.idsDrawn ∧
      ∀ tokens, result = .ok tokens → tokens = [] ∧ entries = []) ∨
    ∃ ttl cs ids tokens, ttlSeconds = (ttl : Nat) ∧ result = .ok tokens ∧
      vault.Batched t s entries ttl cs ids w w' tokens := by
  unfold getOrCreateMany at h
  cases httl : validatedTtl ttlSeconds with
  | error e =>
      rw [httl, checked_bind_error] at h
      cases h
      exact Or.inl ⟨rfl, le_refl _, fun tokens htokens => by cases htokens⟩
  | ok ttl =>
      rw [httl, checked_bind_ok] at h
      cases hvalid : validateEntries entries with
      | error e =>
          rw [hvalid, checked_bind_error] at h
          cases h
          exact Or.inl ⟨rfl, le_refl _,
            fun tokens htokens => by cases htokens⟩
      | ok u =>
          rw [hvalid, checked_bind_ok] at h
          by_cases hmany : entries.length > maxBatchEntries
          · rw [if_pos hmany] at h
            cases h
            exact Or.inl ⟨rfl, le_refl _,
              fun tokens htokens => by cases htokens⟩
          · rw [if_neg hmany] at h
            by_cases hnil : entries = []
            · rw [if_pos hnil] at h
              cases h
              refine Or.inl ⟨rfl, le_refl _, fun tokens htokens => ?_⟩
              cases htokens
              exact ⟨rfl, hnil⟩
            · rw [if_neg hnil] at h
              cases hseal : runIn (vault.sealEntries t s
                  (deduplicate entries).1) w with
              | mk sealing w1 =>
                  cases sealing with
                  | error e =>
                      have hredis := @sealEntries_redis vault t s
                        (deduplicate entries).1 w
                      unfold writeBatch at h
                      simp only at h
                      rw [runIn_bind, hseal] at h
                      rw [hseal] at hredis
                      cases h
                      exact Or.inl ⟨hredis.1, hredis.2,
                        fun tokens htokens => by cases htokens⟩
                  | ok candidates =>
                      obtain ⟨cs, ids, tokens, w2, hrun, -, hbatched⟩ :=
                        writeBatch_of_sealed htyped
                          (validatedTtl_ok httl).2.1 hnil hseal
                      rw [hrun] at h
                      cases h
                      exact Or.inr ⟨ttl, cs, ids, _,
                        (validatedTtl_ok httl).1, rfl, hbatched⟩

-- ==================================================== resolution

/-- A resolution reads the wanted records and changes nothing. -/
theorem runIn_resolveMany (tokens : List Text) (w : World) :
    runIn (vault.resolveMany t s tokens) w =
      (vault.openRecords t s [] ((wantedTokens tokens).map
        (fun token => (token,
          w.redis.stringAt (vault.render (.token t s token.tokenId))))), w) := by
  unfold resolveMany
  simp only
  by_cases hnone : wantedTokens tokens = []
  · rw [if_pos hnone, hnone]
    rfl
  · rw [if_neg hnone, runIn_bind]
    have hread : runIn (storeCall "resolve_many" (Redis.mget
        ((wantedTokens tokens).map (fun token =>
          tokenKey (vault.sessionPrefix t s) token.tokenId)))) w =
        (.ok ((wantedTokens tokens).map (fun token =>
          w.redis.stringAt (vault.render (.token t s token.tokenId)))),
          w) := by
      unfold storeCall Redis.mget
      rw [runIn_act, runIn_act]
      simp only [List.map_map]
      rfl
    rw [hread]
    simp only
    rw [runIn_checked]
    congr 2
    generalize wantedTokens tokens = wanted
    induction wanted with
    | nil => rfl
    | cons token wanted ih =>
        simp only [List.map_cons, List.zip_cons_cons, ih]

-- ==================================================== deletion

theorem runIn_listSession {w : World} (htyped : vault.Typed w.redis) :
    ∃ members, runIn (vault.listSession t s) w = (.ok members, w) ∧
      ∀ m, m ∈ members ↔ vault.Lists t s w.redis m := by
  unfold listSession storeCall Redis.smembers
  rw [metaKey_eq_render]
  cases hmeta : w.redis.peek (vault.render (.metaSet t s)) with
  | none =>
      refine ⟨[], ?_, ?_⟩
      · rw [runIn_act, runIn_act, hmeta]
      · intro m
        constructor
        · intro h
          exact absurd h (List.not_mem_nil)
        · intro h
          obtain ⟨members, deadline, hset, -⟩ := h
          cases hmeta.symm.trans hset
  | some e =>
      obtain ⟨members, hset⟩ := htyped.metaSet hmeta
      cases e with
      | mk value deadline =>
          cases hset
          refine ⟨members, ?_, ?_⟩
          · rw [runIn_act, runIn_act, hmeta]
          · intro m
            constructor
            · intro h
              exact ⟨members, deadline, hmeta, h⟩
            · intro h
              obtain ⟨members', deadline', hset', hm⟩ := h
              cases hmeta.symm.trans hset'
              exact hm

variable (vault t s)

/-- The effect of a deletion's transaction: the session's own keys among
those listed are gone, and the meta set. -/
structure Erased (members : List Text) (r r' : Redis) : Prop where
  now_eq : r'.now = r.now
  gone : ∀ k, k = .metaSet t s ∨
      (k.session = (t, s) ∧ vault.render k ∈ members) →
    vault.entryAt r' k = none
  kept : ∀ k, ¬ (k = .metaSet t s ∨
      (k.session = (t, s) ∧ vault.render k ∈ members)) →
    vault.entryAt r' k = vault.entryAt r k

variable {vault t s}

theorem runIn_delAny (keys : List Text) (r : Redis) :
    ∃ n, runIn (Redis.delAny keys) r =
      (.ok n, r.putKeys (r.keys.eraseAll keys)) := by
  unfold Redis.delAny
  by_cases hnil : keys = []
  · refine ⟨0, ?_⟩
    rw [if_pos hnil, hnil]
    have hsame : r.keys.eraseAll [] = r.keys := by
      funext k
      simp [Keyspace.eraseAll]
    rw [hsame]
    rfl
  · rw [if_neg hnil]
    exact ⟨_, rfl⟩

theorem mem_ownedKeys_iff {members : List Text} {k : VaultKey} :
    vault.render k ∈ vault.ownedKeys t s members ↔
      k.session = (t, s) ∧ vault.render k ∈ members := by
  unfold ownedKeys
  rw [List.mem_filter, owned_iff, and_comm]

theorem eraseListed_spec (members : List Text) (w : World) :
    ∃ n r', runIn (vault.eraseListed t s members) w =
        (.ok n, { w with redis := r' }) ∧
      vault.Erased t s members w.redis r' := by
  obtain ⟨n1, h1⟩ := runIn_delAny
    ((vault.ownedKeys t s members).filter isRecordKey) w.redis
  have ha1 := @entryAt_eraseAll vault w.redis
    ((vault.ownedKeys t s members).filter isRecordKey)
  generalize hr1 : w.redis.putKeys (w.redis.keys.eraseAll
    ((vault.ownedKeys t s members).filter isRecordKey)) = r1 at h1 ha1
  obtain ⟨n2, h2⟩ := runIn_delAny
    ((vault.ownedKeys t s members).filter (fun key => !isRecordKey key)) r1
  have ha2 := @entryAt_eraseAll vault r1
    ((vault.ownedKeys t s members).filter (fun key => !isRecordKey key))
  generalize hr2 : r1.putKeys (r1.keys.eraseAll
    ((vault.ownedKeys t s members).filter (fun key => !isRecordKey key))) =
      r2 at h2 ha2
  have ha3 := @entryAt_eraseAll vault r2
    [metaKey (vault.sessionPrefix t s)]
  have hat : ∀ k, vault.entryAt (r2.putKeys (r2.keys.eraseAll
        [metaKey (vault.sessionPrefix t s)])) k =
      if k = .metaSet t s ∨
          vault.render k ∈ vault.ownedKeys t s members then none
      else vault.entryAt w.redis k := by
    intro k
    rw [ha3 k, ha2 k, ha1 k, metaKey_eq_render]
    by_cases hmeta : k = .metaSet t s
    · rw [if_pos (by rw [hmeta]; exact List.mem_singleton.mpr rfl),
        if_pos (Or.inl hmeta)]
    · rw [if_neg (by
        rw [List.mem_singleton]
        exact fun h => hmeta (render_injective h))]
      by_cases howned : vault.render k ∈ vault.ownedKeys t s members
      · rw [if_pos (Or.inr howned)]
        by_cases hrecord : isRecordKey (vault.render k) = true
        · rw [if_neg (by simp [hrecord]),
            if_pos (List.mem_filter.mpr ⟨howned, hrecord⟩)]
        · rw [if_pos (List.mem_filter.mpr ⟨howned, by simp [hrecord]⟩)]
      · rw [if_neg (fun h => howned (List.mem_filter.mp h).1),
          if_neg (fun h => howned (List.mem_filter.mp h).1),
          if_neg (fun h => h.elim hmeta howned)]
  refine ⟨n1, r2.putKeys (r2.keys.eraseAll
    [metaKey (vault.sessionPrefix t s)]), ?_, ?_, ?_, ?_⟩
  · unfold eraseListed storeCall
    rw [runIn_act]
    have hrun : runIn (do
        let owned := vault.ownedKeys t s members
        let recordKeys := owned.filter isRecordKey
        let indexKeys := owned.filter (fun key => !isRecordKey key)
        let deleted ← Redis.delAny recordKeys
        let _ ← Redis.delAny indexKeys
        let _ ← Redis.del [metaKey (vault.sessionPrefix t s)]
        return deleted) w.redis = (.ok n1, r2.putKeys (r2.keys.eraseAll
          [metaKey (vault.sessionPrefix t s)])) := by
      rw [bind_ok_iff]
      refine ⟨n1, r1, h1, ?_⟩
      rw [bind_ok_iff]
      refine ⟨n2, r2, h2, ?_⟩
      rw [bind_ok_iff]
      exact ⟨_, _, rfl, rfl⟩
    rw [hrun]
  · rw [← hr2, ← hr1]
    rfl
  · intro k hk
    rw [hat k, if_pos]
    exact hk.imp id mem_ownedKeys_iff.mpr
  · intro k hk
    rw [hat k, if_neg]
    exact fun h => hk (h.imp id mem_ownedKeys_iff.mp)

theorem Erased.typed {members : List Text} {r r' : Redis}
    (h : vault.Erased t s members r r') (htyped : vault.Typed r) :
    vault.Typed r' := by
  intro k e he
  by_cases hk : k = .metaSet t s ∨
      (k.session = (t, s) ∧ vault.render k ∈ members)
  · rw [h.gone k hk] at he
    cases he
  · rw [h.kept k hk] at he
    exact htyped k e he

/-- A deletion without a writer in between erases what is listed. -/
theorem deleteSession_spec {w : World} (htyped : vault.Typed w.redis) :
    ∃ members n r', runIn (vault.deleteSession t s) w =
        (.ok n, { w with redis := r' }) ∧
      (∀ m, m ∈ members ↔ vault.Lists t s w.redis m) ∧
      vault.Erased t s members w.redis r' := by
  obtain ⟨members, hlist, hmem⟩ := @runIn_listSession vault t s w htyped
  obtain ⟨n, r', herase, herased⟩ := @eraseListed_spec vault t s members w
  refine ⟨members, n, r', ?_, hmem, herased⟩
  unfold deleteSession
  rw [bind_ok_iff]
  exact ⟨members, w, hlist, herase⟩

end PrivacyGateway.Vault.RedisTokenVault
