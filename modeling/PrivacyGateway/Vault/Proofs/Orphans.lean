/-
Which deletions orphan a record.

A deletion is two round trips: it lists the meta set, and later erases
what it listed together with the meta set. A batch that runs in between
adds its keys to a meta set that is about to be erased, and nothing lists
them afterwards: in `batch_between_orphans` a record written there is out
of the reach of every later deletion.

With one time to live for all batches of the session, this is the only
way a key gets lost. `Covered` is the invariant: the live keys are in the
meta set, and none of them outlasts it. `no_orphans_iff` follows: the
meta set covers the live keys throughout a run exactly when every erasing
transaction had listed all the keys it finds.
-/
import PrivacyGateway.Vault.Proofs.Deletion

namespace PrivacyGateway.Vault

open Effect Tokenization

/-- A batch of the session uses this time to live. -/
def VaultOp.UsesTtl (t s : UUID) (ttlSeconds : Int) : VaultOp → Bool
  | .batch t' s' _ ttlSeconds' =>
      decide ((t', s') = (t, s) → ttlSeconds' = ttlSeconds)
  | _ => true

namespace RedisTokenVault

variable (vault : RedisTokenVault) (t s : UUID)

/-- A key of the session other than its meta set: a record key or an index
key. -/
def Indexed (k : VaultKey) : Prop :=
  k.session = (t, s) ∧ k ≠ .metaSet t s

/-- Every live record key and index key of the session is in its live meta
set. -/
def NoOrphans (st : VaultState) : Prop :=
  vault.Listed t s (fun _ => True) st.world.redis

/-- The transaction of a deletion of the session had listed every key of
the session that is live when it runs. -/
def ErasesAll (st : VaultState) : VaultOp → Prop
  | .erase i =>
      ∀ listing, st.pending[i]? = some listing →
        listing.tenantId = t → listing.sessionId = s →
          ∀ k, Indexed t s k → ∀ e,
            vault.entryAt st.world.redis k = some e →
              vault.render k ∈ listing.members
  | _ => True

-- ==================================================== the invariant

/-- No live key of the session expires later than a batch made now
would. -/
def Recent (ttl : Nat) (r : Redis) : Prop :=
  ∀ k, Indexed t s k → ∀ e, vault.entryAt r k = some e →
    ∃ d, e.deadline = some d ∧ d ≤ r.deadline ttl

/-- No live key of the session outlasts the meta set. -/
def Outlasted (r : Redis) : Prop :=
  ∀ k, Indexed t s k → ∀ e, vault.entryAt r k = some e →
    ∀ e', vault.entryAt r (.metaSet t s) = some e' →
      ∀ d' ∈ e'.deadline, ∃ d, e.deadline = some d ∧ d ≤ d'

/-- The live keys of the session are in its meta set, which outlasts
them. -/
structure Covered (ttl : Nat) (r : Redis) : Prop where
  listed : vault.Listed t s (fun _ => True) r
  recent : vault.Recent t s ttl r
  outlasted : vault.Outlasted t s r

variable {vault t s} {ttl : Nat} {r r' : Redis}

theorem Recent.created {segment id : Text} {raw : Bytes}
    (h : vault.Recent t s ttl r)
    (hcreated : vault.Created t s ttl segment id raw r r') :
    vault.Recent t s ttl r' := by
  intro k hk e he
  rw [deadline_congr hcreated.now_eq]
  by_cases htoken : k = .token t s id
  · rw [htoken, hcreated.token] at he
    cases he
    exact ⟨_, rfl, le_refl _⟩
  · by_cases hindex : k = .index t s segment
    · rw [hindex, hcreated.index] at he
      cases he
      exact ⟨_, rfl, le_refl _⟩
    · rw [hcreated.other k htoken hindex hk.2] at he
      exact h k hk e he

theorem Recent.reused {segment id : Text} (h : vault.Recent t s ttl r)
    (hreused : vault.Reused t s ttl segment id r r') :
    vault.Recent t s ttl r' := by
  intro k hk e he
  rw [deadline_congr hreused.now_eq]
  by_cases htoken : k = .token t s id
  · rw [htoken, hreused.token] at he
    obtain ⟨e0, -, rfl⟩ := Option.map_eq_some_iff.mp he
    exact ⟨_, rfl, le_refl _⟩
  · by_cases hindex : k = .index t s segment
    · rw [hindex, hreused.index] at he
      obtain ⟨e0, -, rfl⟩ := Option.map_eq_some_iff.mp he
      exact ⟨_, rfl, le_refl _⟩
    · rw [hreused.other k htoken hindex] at he
      exact h k hk e he

/-- A batch of the same time to live covers the session: whatever was
written before it expires no later than what it writes, and so no later
than the meta set it leaves. -/
theorem Covered.scripted {cs : List Candidate} {ids : List Text}
    (h : vault.Covered t s ttl r)
    (hscripted : vault.Scripted t s ttl cs ids r r') :
    vault.Covered t s ttl r' := by
  have hlisted := h.listed.scripted hscripted
  obtain ⟨q, hrounds, htouched⟩ := hscripted
  have hrecent : vault.Recent t s ttl q := by
    refine hrounds.preserve (P := fun p => vault.Recent t s ttl p) ?_ ?_
      h.recent
    · intro _ _ p p' hp hreused
      exact hp.reused hreused
    · intro _ _ p p' hp hcreated
      exact hp.created hcreated
  refine ⟨hlisted, ?_, ?_⟩
  · intro k hk e he
    rw [deadline_congr htouched.now_eq]
    rw [htouched.other k hk.2] at he
    exact hrecent k hk e he
  · intro k hk e he e' he' d' hd'
    rw [htouched.other k hk.2] at he
    rw [htouched.metaSet] at he'
    obtain ⟨e0, -, rfl⟩ := Option.map_eq_some_iff.mp he'
    cases hd'
    exact hrecent k hk e he

theorem Covered.congr (hnow : r'.now = r.now)
    (hsame : ∀ k, k.session = (t, s) →
      vault.entryAt r' k = vault.entryAt r k)
    (h : vault.Covered t s ttl r) : vault.Covered t s ttl r' := by
  refine ⟨h.listed.congr hsame, ?_, ?_⟩
  · intro k hk e he
    rw [deadline_congr hnow]
    rw [hsame k hk.1] at he
    exact h.recent k hk e he
  · intro k hk e he e' he'
    rw [hsame k hk.1] at he
    rw [hsame (.metaSet t s) rfl] at he'
    exact h.outlasted k hk e he e' he'

/-- A session without live keys is covered. -/
theorem covered_of_empty
    (h : ∀ k, Indexed t s k → vault.entryAt r k = none) :
    vault.Covered t s ttl r := by
  have hnone : ∀ k, Indexed t s k → ∀ e,
      vault.entryAt r k = some e → False := by
    intro k hk e he
    rw [h k hk] at he
    cases he
  refine ⟨?_, ?_, ?_⟩
  · intro k _ hsession hmeta e he
    exact (hnone k ⟨hsession, hmeta⟩ e he).elim
  · intro k hk e he
    exact (hnone k hk e he).elim
  · intro k hk e he
    exact (hnone k hk e he).elim

/-- Time passes over a covered session: a live key's meta set is live. -/
theorem Covered.elapse {w : World} {d : Nat}
    (h : vault.Covered t s ttl w.redis) :
    vault.Covered t s ttl (w.elapse d).redis := by
  refine ⟨?_, ?_, ?_⟩
  · apply h.listed.elapse
    intro k _ hsession hmeta e he
    obtain ⟨hbefore, hlive⟩ := entryAt_elapse_iff.mp he
    obtain ⟨members, deadline, hset, -⟩ :=
      h.listed k trivial hsession hmeta e hbefore
    refine ⟨_, entryAt_elapse_iff.mpr ⟨hset, ?_⟩⟩
    intro d' hd'
    obtain ⟨d0, hd0, hle⟩ :=
      h.outlasted k ⟨hsession, hmeta⟩ e hbefore _ hset d' hd'
    exact le_trans (hlive d0 hd0) hle
  · intro k hk e he
    obtain ⟨d0, hd0, hle⟩ :=
      h.recent k hk e (entryAt_elapse_iff.mp he).1
    refine ⟨d0, hd0, le_trans hle ?_⟩
    unfold Redis.deadline World.elapse
    simp only
    omega
  · intro k hk e he e' he'
    exact h.outlasted k hk e (entryAt_elapse_iff.mp he).1 e'
      (entryAt_elapse_iff.mp he').1

/-- A transaction that had listed every live key leaves none. -/
theorem Erased.empties {members : List Text}
    (h : vault.Erased t s members r r')
    (hall : ∀ k, Indexed t s k → ∀ e, vault.entryAt r k = some e →
      vault.render k ∈ members) {k : VaultKey} (hk : Indexed t s k) :
    vault.entryAt r' k = none := by
  by_cases hgone : k = .metaSet t s ∨
      (k.session = (t, s) ∧ vault.render k ∈ members)
  · exact h.gone k hgone
  · rw [h.kept k hgone, Option.eq_none_iff_forall_ne_some]
    intro e he
    exact hgone (Or.inr ⟨hk.1, hall k hk e he⟩)

/-- Every step keeps the session covered, as long as the transactions of
its deletions had listed what they find. -/
theorem Covered.step {st : VaultState} {ttlSeconds : Int}
    (hsound : vault.Sound st)
    (h : vault.Covered t s ttlSeconds.toNat st.world.redis) {op : VaultOp}
    (httl : op.UsesTtl t s ttlSeconds = true)
    (herases : vault.ErasesAll t s st op) :
    vault.Covered t s ttlSeconds.toNat (vault.step st op).world.redis := by
  cases op with
  | batch t' s' entries ttlSeconds' =>
      rcases step_batch (t := t') (s := s') hsound.typed entries
        ttlSeconds' with ⟨hredis, -, -, -⟩ | ⟨ttl, cs, ids, tokens, hval,
          hb, -, -⟩
      · rw [hredis]
        exact h
      · by_cases hsession : (t', s') = (t, s)
        · have hsame := (decide_eq_true_iff.mp httl) hsession
          have hnat : ttl = ttlSeconds.toNat := by omega
          cases hsession
          rw [← hnat] at h ⊢
          exact h.scripted hb.scripted
        · apply h.congr hb.scripted.now_eq
          intro k hk
          apply hb.scripted.frame
          rw [hk]
          exact fun heq => hsession heq.symm
  | resolve t' s' tokens =>
      rw [step_resolve]
      exact h
  | wait d => exact h.elapse
  | delete t' s' =>
      obtain ⟨members, r', hstep, hmem, herased⟩ :=
        @step_delete vault t' s' st hsound.typed
      rw [hstep]
      by_cases hsession : (t', s') = (t, s)
      · cases hsession
        apply covered_of_empty
        intro k hk
        apply herased.empties _ hk
        intro k' hk' e he
        exact (hmem _).mpr (h.listed k' trivial hk'.1 hk'.2 e he)
      · apply h.congr herased.now_eq
        intro k hk
        apply herased.frame
        rw [hk]
        exact fun heq => hsession heq.symm
  | list t' s' =>
      obtain ⟨members, hstep, -⟩ := @step_list vault t' s' st hsound.typed
      rw [hstep]
      exact h
  | erase i =>
      rcases @step_erase vault st i with
        ⟨-, hstep⟩ | ⟨listing, r', hlisting, hstep, herased⟩
      · rw [hstep]
        exact h
      · rw [hstep]
        by_cases hsession : (listing.tenantId, listing.sessionId) = (t, s)
        · obtain ⟨ht, hs⟩ := Prod.mk.inj hsession
          rw [ht, hs] at herased
          apply covered_of_empty
          intro k hk
          exact herased.empties (herases listing hlisting ht hs) hk
        · apply h.congr herased.now_eq
          intro k hk
          apply herased.frame
          rw [hk]
          exact fun heq => hsession heq.symm

/-- A transaction that had not listed a live key orphans it. -/
theorem erasesAll_of_noOrphans {st : VaultState} {i : Nat}
    (hafter : vault.NoOrphans t s (vault.step st (.erase i))) :
    vault.ErasesAll t s st (.erase i) := by
  intro listing hlisting ht hs k hk e he
  rcases @step_erase vault st i with
    ⟨hnone, -⟩ | ⟨listing', r', hlisting', hstep, herased⟩
  · rw [hlisting] at hnone
    cases hnone
  · cases hlisting.symm.trans hlisting'
    rw [ht, hs] at herased
    by_contra hnot
    -- the key is kept, the meta set is not
    have hkept : vault.entryAt r' k = some e := by
      rw [herased.kept k, he]
      intro hgone
      exact hgone.elim hk.2 (fun h => hnot h.2)
    unfold NoOrphans at hafter
    rw [hstep] at hafter
    obtain ⟨members, deadline, hset, -⟩ :=
      hafter k trivial hk.1 hk.2 e hkept
    rw [herased.gone _ (Or.inl rfl)] at hset
    cases hset

/-- Exactly when no deletion orphans a key. In a run whose batches of the
session share one time to live, every live record key and index key of
the session is in its live meta set throughout if and only if each
deletion's transaction had listed every key it finds live. -/
theorem no_orphans_iff (vault : RedisTokenVault) (t s : UUID)
    (ttlSeconds : Int) (ops : List VaultOp)
    (httl : ∀ op ∈ ops, op.UsesTtl t s ttlSeconds = true) :
    Run.Throughout vault.step (vault.NoOrphans t s) VaultState.start ops ↔
      Run.Along vault.step (vault.ErasesAll t s) VaultState.start ops := by
  constructor
  · intro hnone before op after hops
    cases op with
    | erase i =>
        apply erasesAll_of_noOrphans
        have hafter := hnone (before ++ [.erase i]) after (by
          rw [hops, List.append_assoc]
          rfl)
        rw [List.foldl_append] at hafter
        exact hafter
    | _ => trivial
  · intro herases
    have huses : Run.Along vault.step
        (fun _ op => op.UsesTtl t s ttlSeconds = true) VaultState.start
        ops := Run.along_of_forall httl
    have hcovered := (huses.and herases).invariant
      (P := fun st => vault.Sound st ∧
        vault.Covered t s ttlSeconds.toNat st.world.redis)
      (fun st op hop h => ⟨h.1.step op, h.2.step h.1 hop.1 hop.2⟩)
      ⟨sound_start, covered_of_empty (fun _ _ => rfl)⟩
    exact hcovered.imp (fun st h => h.2.listed)

end RedisTokenVault

namespace Reference

open RedisTokenVault

/-- A deletion lists an empty meta set, a batch writes a record, and the
deletion's transaction runs: the record is live, the meta set is gone,
and after one more deletion the record still resolves. -/
theorem batch_between_orphans :
    let v := vault sampleHashes
    let st := v.run .start [.list ⟨2⟩ ⟨3⟩,
      .batch ⟨2⟩ ⟨3⟩ [adaEntry] 3600, .erase 0]
    (v.entryAt st.world.redis (.token ⟨2⟩ ⟨3⟩
        "00000000000000000000000000".toList)).isSome = true ∧
      v.entryAt st.world.redis (.metaSet ⟨2⟩ ⟨3⟩) = none ∧
      (runIn (v.resolveMany ⟨2⟩ ⟨3⟩ [adaToken])
        (v.step st (.delete ⟨2⟩ ⟨3⟩)).world).1 =
          .ok [(adaToken, "Ada".toList)] := by
  decide +kernel

/-- A run with a batch before the listing and one after the erasing. -/
theorem batch_around_iff :
    let ops : List VaultOp := [.batch ⟨2⟩ ⟨3⟩ [adaEntry] 3600,
      .list ⟨2⟩ ⟨3⟩, .wait 500, .erase 0,
      .batch ⟨2⟩ ⟨3⟩ [bobEntry] 3600]
    Run.Throughout (vault sampleHashes).step
        ((vault sampleHashes).NoOrphans ⟨2⟩ ⟨3⟩) .start ops ↔
      Run.Along (vault sampleHashes).step
        ((vault sampleHashes).ErasesAll ⟨2⟩ ⟨3⟩) .start ops :=
  no_orphans_iff (vault sampleHashes) ⟨2⟩ ⟨3⟩ 3600 _ (by decide)

end Reference

end PrivacyGateway.Vault
