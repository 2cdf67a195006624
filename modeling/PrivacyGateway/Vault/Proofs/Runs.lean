/-
What every run of the vault preserves.

One equation per step (`step_batch`, `step_resolve`, `step_delete`,
`step_list`, `step_erase`) says all a step can do to a typed state; the
invariants are derived from these and never unfold a call. A batch leaves
other sessions alone (`Scripted.frame`), and each record live after it was
live before or was written by it for a token it returned
(`Scripted.records`).

`Sound` holds of every reachable state (`run_sound`): the keyspace is
typed, and every live record is the sealed mapping of a token that was
handed out.
-/
import PrivacyGateway.Vault.Proofs.Calls

namespace PrivacyGateway.Vault.RedisTokenVault

open Effect Tokenization

variable {vault : RedisTokenVault} {t s : UUID}

-- ==================================================== steps

theorem step_resolve (st : VaultState) (tokens : List Text) :
    vault.step st (.resolve t s tokens) = st := by
  unfold step
  simp only
  rw [runIn_resolveMany]

theorem step_wait (st : VaultState) (d : Nat) :
    vault.step st (.wait d) = { st with world := st.world.elapse d } := rfl

/-- A batch step writes nothing, or is `Batched`. -/
theorem step_batch {st : VaultState} (htyped : vault.Typed st.world.redis)
    (entries : List VaultWriteRequest) (ttlSeconds : Int) :
    ((vault.step st (.batch t s entries ttlSeconds)).world.redis =
        st.world.redis ∧
      st.world.idsDrawn ≤
        (vault.step st (.batch t s entries ttlSeconds)).world.idsDrawn ∧
      (vault.step st (.batch t s entries ttlSeconds)).pending =
        st.pending ∧
      (vault.step st (.batch t s entries ttlSeconds)).issued =
        st.issued) ∨
    ∃ ttl cs ids tokens, ttlSeconds = (ttl : Nat) ∧
      vault.Batched t s entries ttl cs ids st.world
        (vault.step st (.batch t s entries ttlSeconds)).world tokens ∧
      (vault.step st (.batch t s entries ttlSeconds)).pending =
        st.pending ∧
      (vault.step st (.batch t s entries ttlSeconds)).issued =
        st.issued ++ tokens.map (fun token => (t, s, token)) := by
  unfold step
  simp only
  cases hrun : runIn (vault.getOrCreateMany t s entries ttlSeconds)
      st.world with
  | mk result w =>
      rcases getOrCreateMany_cases htyped hrun with
        ⟨hredis, hdrawn, hempty⟩ | ⟨ttl, cs, ids, tokens, httl, rfl, hb⟩
      · left
        cases result with
        | error e => exact ⟨hredis, hdrawn, rfl, rfl⟩
        | ok tokens =>
            obtain ⟨rfl, -⟩ := hempty tokens rfl
            exact ⟨hredis, hdrawn, rfl, List.append_nil _⟩
      · exact Or.inr ⟨ttl, cs, ids, tokens, httl, hb, rfl, rfl⟩

theorem step_delete {st : VaultState}
    (htyped : vault.Typed st.world.redis) :
    ∃ members r', vault.step st (.delete t s) =
        { st with world := { st.world with redis := r' } } ∧
      (∀ m, m ∈ members ↔ vault.Lists t s st.world.redis m) ∧
      vault.Erased t s members st.world.redis r' := by
  obtain ⟨members, n, r', hrun, hmem, herased⟩ :=
    @deleteSession_spec vault t s st.world htyped
  refine ⟨members, r', ?_, hmem, herased⟩
  unfold step
  simp only
  rw [hrun]

theorem step_list {st : VaultState} (htyped : vault.Typed st.world.redis) :
    ∃ members, vault.step st (.list t s) =
        { st with pending := st.pending ++ [⟨t, s, members⟩] } ∧
      ∀ m, m ∈ members ↔ vault.Lists t s st.world.redis m := by
  obtain ⟨members, hrun, hmem⟩ :=
    @runIn_listSession vault t s st.world htyped
  refine ⟨members, ?_, hmem⟩
  unfold step
  simp only
  rw [hrun]

theorem step_erase (st : VaultState) (i : Nat) :
    (st.pending[i]? = none ∧ vault.step st (.erase i) = st) ∨
    ∃ listing r', st.pending[i]? = some listing ∧
      vault.step st (.erase i) =
        { st with
          world := { st.world with redis := r' }
          pending := st.pending.eraseIdx i } ∧
      vault.Erased listing.tenantId listing.sessionId listing.members
        st.world.redis r' := by
  unfold step
  simp only
  cases hlisting : st.pending[i]? with
  | none => exact Or.inl ⟨rfl, rfl⟩
  | some listing =>
      obtain ⟨n, r', hrun, herased⟩ := @eraseListed_spec vault
        listing.tenantId listing.sessionId listing.members st.world
      refine Or.inr ⟨listing, r', rfl, ?_, herased⟩
      simp only
      rw [hrun]

-- ==================================================== frames

theorem Created.frame {ttl : Nat} {segment id : Text} {raw : Bytes}
    {r r' : Redis} (h : vault.Created t s ttl segment id raw r r')
    {k : VaultKey} (hk : k.session ≠ (t, s)) :
    vault.entryAt r' k = vault.entryAt r k := by
  apply h.other
  · intro heq
    exact hk (by rw [heq]; rfl)
  · intro heq
    exact hk (by rw [heq]; rfl)
  · intro heq
    exact hk (by rw [heq]; rfl)

theorem Reused.frame {ttl : Nat} {segment id : Text} {r r' : Redis}
    (h : vault.Reused t s ttl segment id r r') {k : VaultKey}
    (hk : k.session ≠ (t, s)) :
    vault.entryAt r' k = vault.entryAt r k := by
  apply h.other
  · intro heq
    exact hk (by rw [heq]; rfl)
  · intro heq
    exact hk (by rw [heq]; rfl)

/-- The script leaves other sessions alone. -/
theorem Scripted.frame {ttl : Nat} {cs : List Candidate} {ids : List Text}
    {r r' : Redis} (h : vault.Scripted t s ttl cs ids r r') {k : VaultKey}
    (hk : k.session ≠ (t, s)) :
    vault.entryAt r' k = vault.entryAt r k := by
  obtain ⟨q, hrounds, htouched⟩ := h
  rw [htouched.other k (fun heq => hk (by rw [heq]; rfl))]
  refine hrounds.preserve
    (P := fun q => vault.entryAt q k = vault.entryAt r k) ?_ ?_ rfl
  · intro _ _ p p' hp hreused
    rw [hreused.frame hk]
    exact hp
  · intro _ _ p p' hp hcreated
    rw [hcreated.frame hk]
    exact hp

theorem Erased.frame {members : List Text} {r r' : Redis}
    (h : vault.Erased t s members r r') {k : VaultKey}
    (hk : k.session ≠ (t, s)) :
    vault.entryAt r' k = vault.entryAt r k := by
  apply h.kept
  intro hgone
  rcases hgone with rfl | ⟨hsession, -⟩
  · exact hk rfl
  · exact hk hsession

theorem Scripted.now_eq {ttl : Nat} {cs : List Candidate}
    {ids : List Text} {r r' : Redis}
    (h : vault.Scripted t s ttl cs ids r r') : r'.now = r.now := by
  obtain ⟨q, hrounds, htouched⟩ := h
  exact htouched.now_eq.trans hrounds.now_eq

theorem Scripted.typed {ttl : Nat} {cs : List Candidate} {ids : List Text}
    {r r' : Redis} (h : vault.Scripted t s ttl cs ids r r')
    (hvalid : ∀ c ∈ cs, isValidTokenId c.id = true)
    (htyped : vault.Typed r) : vault.Typed r' := by
  obtain ⟨q, hrounds, htouched⟩ := h
  apply htouched.typed
  refine hrounds.preserve (P := vault.Typed) ?_ ?_ htyped
  · intro _ _ p p' hp hreused
    exact hreused.typed hp
  · intro c hc p p' hp hcreated
    exact hcreated.typed (hvalid c hc) hp

-- ==================================================== records

theorem Rounds.records {ttl : Nat} {cs : List Candidate}
    {ids : List Text} {r r' : Redis}
    (h : vault.Rounds t s ttl cs ids r r') :
    ∀ {n : Nat} {entries : List VaultWriteRequest},
      vault.SealedFrom t s n entries cs →
      ∀ id e, vault.entryAt r' (.token t s id) = some e →
        (∃ e0, vault.entryAt r (.token t s id) = some e0 ∧
          e0.value = e.value) ∨
        ∃ ty v raw, e.value = .blob raw ∧ vault.Holds t s ty id v raw ∧
          renderToken ty id ∈ tokensOf entries ids := by
  induction h with
  | nil r =>
      intro n entries _ id e he
      exact Or.inl ⟨e, he, rfl⟩
  | @reused c cs found ids r q r' head tail ih =>
      intro n entries hsealed id e he
      cases hsealed with
      | @cons _ entry entries _ _ hsegment hid hholds hrest =>
          rcases ih hrest id e he with ⟨e0, he0, hvalue⟩ |
            ⟨ty, v, raw, hraw, hh, hmem⟩
          · left
            by_cases hsame : id = found
            · rw [hsame] at he0 ⊢
              rw [head.token] at he0
              obtain ⟨e1, he1, rfl⟩ := Option.map_eq_some_iff.mp he0
              exact ⟨e1, he1, hvalue⟩
            · rw [head.other _ (by simpa using hsame) (by simp)] at he0
              exact ⟨e0, he0, hvalue⟩
          · exact Or.inr ⟨ty, v, raw, hraw, hh, List.mem_cons_of_mem _ hmem⟩
  | @created c cs ids r q r' head stale tail ih =>
      intro n entries hsealed id e he
      cases hsealed with
      | @cons _ entry entries _ _ hsegment hid hholds hrest =>
          rcases ih hrest id e he with ⟨e0, he0, hvalue⟩ |
            ⟨ty, v, raw, hraw, hh, hmem⟩
          · by_cases hsame : id = c.id
            · right
              rw [hsame] at he0 ⊢
              rw [head.token] at he0
              cases he0
              exact ⟨_, _, _, hvalue.symm, hholds, List.mem_cons_self⟩
            · left
              rw [head.other _ (by simpa using hsame) (by simp)
                (by simp)] at he0
              exact ⟨e0, he0, hvalue⟩
          · exact Or.inr ⟨ty, v, raw, hraw, hh, List.mem_cons_of_mem _ hmem⟩

/-- A record live after the script was live before it, or was written by
it for a token of its entries. -/
theorem Scripted.records {ttl : Nat} {cs : List Candidate}
    {ids : List Text} {r r' : Redis}
    (h : vault.Scripted t s ttl cs ids r r') {n : Nat}
    {entries : List VaultWriteRequest}
    (hsealed : vault.SealedFrom t s n entries cs) {id : Text}
    {e : Entry RedisValue}
    (he : vault.entryAt r' (.token t s id) = some e) :
    (∃ e0, vault.entryAt r (.token t s id) = some e0 ∧
      e0.value = e.value) ∨
    ∃ ty v raw, e.value = .blob raw ∧ vault.Holds t s ty id v raw ∧
      renderToken ty id ∈ tokensOf entries ids := by
  obtain ⟨q, hrounds, htouched⟩ := h
  rw [htouched.other _ (by simp)] at he
  exact hrounds.records hsealed id e he

-- ==================================================== repeats

/-- The dedup loop gives every unique entry a position. -/
theorem deduplicateFrom_covers (entries : List VaultWriteRequest) :
    ∀ (seen : Dict (Text × Text) Nat) (unique : List VaultWriteRequest)
      (positions : List Nat), (∀ i < unique.length, i ∈ positions) →
      ∀ i < (deduplicateFrom seen unique positions entries).1.length,
        i ∈ (deduplicateFrom seen unique positions entries).2 := by
  induction entries with
  | nil =>
      intro seen unique positions h
      exact h
  | cons entry entries ih =>
      intro seen unique positions h
      unfold deduplicateFrom
      simp only
      cases seen.get? (entry.entityType, entry.normalizedHmac) with
      | some index =>
          apply ih
          intro i hi
          exact List.mem_append_left _ (h i hi)
      | none =>
          apply ih
          intro i hi
          rw [List.length_append, List.length_singleton] at hi
          by_cases hlast : i < unique.length
          · exact List.mem_append_left _ (h i hlast)
          · have : i = unique.length := by omega
            rw [this]
            exact List.mem_append_right _ (List.mem_singleton.mpr rfl)

theorem deduplicate_covers (entries : List VaultWriteRequest) :
    ∀ i < (deduplicate entries).1.length, i ∈ (deduplicate entries).2 :=
  deduplicateFrom_covers entries [] [] []
    (fun _ hi => absurd hi (Nat.not_lt_zero _))

/-- Every unique entry's token is handed out. -/
theorem Batched.mem_tokens {entries : List VaultWriteRequest} {ttl : Nat}
    {cs : List Candidate} {ids : List Text} {w w' : World}
    {tokens : List Text}
    (h : vault.Batched t s entries ttl cs ids w w' tokens) {token : Text}
    (hmem : token ∈ tokensOf (deduplicate entries).1 ids) :
    token ∈ tokens := by
  obtain ⟨i, hi, hget⟩ := List.getElem_of_mem hmem
  have hlen : i < (deduplicate entries).1.length := by
    unfold tokensOf at hi
    rw [List.length_zipWith] at hi
    omega
  rw [h.tokens_eq]
  refine List.mem_map.mpr ⟨i, deduplicate_covers entries i hlen, ?_⟩
  rw [List.getD_eq_getElem?_getD, List.getElem?_eq_getElem hi, hget]
  rfl

-- ==================================================== soundness

variable (vault)

/-- The keyspace is typed, and every live record is the sealed mapping of
a token that was handed out. -/
structure Sound (st : VaultState) : Prop where
  typed : vault.Typed st.world.redis
  genuine : ∀ t s id e,
    vault.entryAt st.world.redis (.token t s id) = some e →
      ∃ ty v raw, e.value = .blob raw ∧ vault.Holds t s ty id v raw ∧
        (t, s, renderToken ty id) ∈ st.issued

variable {vault}

theorem sound_start : vault.Sound VaultState.start := by
  refine ⟨?_, ?_⟩
  · intro k e he
    cases he
  · intro t s id e he
    cases he

theorem Sound.batch {st : VaultState} (h : vault.Sound st)
    (entries : List VaultWriteRequest) (ttlSeconds : Int) :
    vault.Sound (vault.step st (.batch t s entries ttlSeconds)) := by
  rcases step_batch (t := t) (s := s) h.typed entries ttlSeconds with
    ⟨hredis, -, -, hissued⟩ | ⟨ttl, cs, ids, tokens, -, hb, -, hissued⟩
  · refine ⟨?_, ?_⟩
    · rw [hredis]
      exact h.typed
    · rw [hredis, hissued]
      exact h.genuine
  · refine ⟨hb.scripted.typed hb.candidates_sealed.validIds h.typed, ?_⟩
    intro t' s' id e he
    rw [hissued]
    have hold : ∀ e0, vault.entryAt st.world.redis (.token t' s' id) =
        some e0 → e0.value = e.value →
        ∃ ty v raw, e.value = .blob raw ∧ vault.Holds t' s' ty id v raw ∧
          (t', s', renderToken ty id) ∈ st.issued ++
            tokens.map (fun token => (t, s, token)) := by
      intro e0 he0 hvalue
      obtain ⟨ty, v, raw, hraw, hholds, hmem⟩ := h.genuine _ _ _ _ he0
      exact ⟨ty, v, raw, hvalue ▸ hraw, hholds,
        List.mem_append_left _ hmem⟩
    by_cases hsession : (t', s') = (t, s)
    · cases hsession
      rcases hb.scripted.records hb.candidates_sealed he with
        ⟨e0, he0, hvalue⟩ | ⟨ty, v, raw, hraw, hholds, hmem⟩
      · exact hold e0 he0 hvalue
      · exact ⟨ty, v, raw, hraw, hholds, List.mem_append_right _
          (List.mem_map.mpr ⟨_, hb.mem_tokens hmem, rfl⟩)⟩
    · rw [hb.scripted.frame (k := .token t' s' id) hsession] at he
      exact hold e he rfl

theorem Sound.erased {st : VaultState} (h : vault.Sound st)
    {members : List Text} {r' : Redis}
    (herased : vault.Erased t s members st.world.redis r')
    (pending : List Listing) :
    vault.Sound { st with
      world := { st.world with redis := r' }
      pending := pending } := by
  refine ⟨herased.typed h.typed, ?_⟩
  intro t' s' id e he
  by_cases hk : (VaultKey.token t' s' id) = .metaSet t s ∨
      ((VaultKey.token t' s' id).session = (t, s) ∧
        vault.render (.token t' s' id) ∈ members)
  · rw [herased.gone _ hk] at he
    cases he
  · rw [herased.kept _ hk] at he
    exact h.genuine _ _ _ _ he

/-- Soundness is preserved by every step. -/
theorem Sound.step {st : VaultState} (h : vault.Sound st) (op : VaultOp) :
    vault.Sound (vault.step st op) := by
  cases op with
  | batch t s entries ttlSeconds => exact h.batch entries ttlSeconds
  | resolve t s tokens =>
      rw [step_resolve]
      exact h
  | wait d =>
      rw [step_wait]
      refine ⟨?_, ?_⟩
      · intro k e he
        exact h.typed k e (entryAt_elapse_iff.mp he).1
      · intro t s id e he
        exact h.genuine _ _ _ _ (entryAt_elapse_iff.mp he).1
  | delete t s =>
      obtain ⟨members, r', hstep, -, herased⟩ :=
        @step_delete vault t s st h.typed
      rw [hstep]
      exact h.erased herased st.pending
  | list t s =>
      obtain ⟨members, hstep, -⟩ := @step_list vault t s st h.typed
      rw [hstep]
      exact ⟨h.typed, h.genuine⟩
  | erase i =>
      rcases @step_erase vault st i with
        ⟨-, hstep⟩ | ⟨listing, r', -, hstep, herased⟩
      · rw [hstep]
        exact h
      · rw [hstep]
        exact h.erased herased _

theorem Sound.throughout {st : VaultState} (h : vault.Sound st)
    (ops : List VaultOp) :
    Run.Throughout vault.step vault.Sound st ops :=
  Run.invariant (fun _ op h => h.step op) h ops

/-- Every reachable state is sound. -/
theorem run_sound (ops : List VaultOp) :
    vault.Sound (vault.run VaultState.start ops) :=
  (sound_start.throughout ops).last

end PrivacyGateway.Vault.RedisTokenVault
