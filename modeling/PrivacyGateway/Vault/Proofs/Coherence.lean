/-
Index keys and the records they lead to.

`Coherent` extends the invariant of the drawn ids. Two index keys never
lead to one id, and where an index key and the record it leads to are both
there, the record's original is one that the key's fingerprint was
computed from. What "computed from" means is a parameter, `Of`: all the
vault needs is that every request it is given satisfies it.

The invariant is kept by every round of the batch script and by whatever
takes values away, in any order: a key may expire, or be lost, without the
key it was written with.

`Coupled` says more of runs in which nothing is lost: a record's index key
is there as long as the record is.
-/
import PrivacyGateway.Vault.Proofs.Admission
import PrivacyGateway.Vault.Proofs.Lifetimes

namespace PrivacyGateway.Vault.RedisTokenVault

open Effect Tokenization

/-- What a fingerprint was computed from: in a session, of a type, an
original and its fingerprint. -/
abbrev Fingerprinted := UUID → UUID → Text → Text → Text → Prop

variable (vault : RedisTokenVault) (Of : Fingerprinted)

/-- The invariant of index keys and records. -/
structure Coherent (n : Nat) (r : Redis) : Prop where
  minted : vault.Minted n r
  one_key : ∀ t s segment t' s' segment' id,
    vault.valueAt r (.index t s segment) = some (.text id) →
      vault.valueAt r (.index t' s' segment') = some (.text id) →
        t = t' ∧ s = s' ∧ segment = segment'
  record_of : ∀ t s segment id v,
    vault.valueAt r (.index t s segment) = some (.text id) →
      vault.valueAt r (.token t s id) = some v →
        ∃ ty hmac original raw, segment = vault.indexSegment ty hmac ∧
          v = .blob raw ∧ vault.Holds t s ty id original raw ∧
          Of t s ty original hmac

variable {vault Of} {t s : UUID} {r r' : Redis} {n : Nat}

theorem coherent_start :
    vault.Coherent Of 0 VaultState.start.world.redis := by
  refine ⟨minted_start, ?_, ?_⟩
  · intro t s segment t' s' segment' id hindex
    cases hindex
  · intro t s segment id v hindex
    cases hindex

theorem Coherent.mono {m : Nat} (h : vault.Coherent Of m r)
    (hle : m ≤ n) : vault.Coherent Of n r :=
  ⟨h.minted.mono hle, h.one_key, h.record_of⟩

/-- Taking values away keeps the invariant. -/
theorem Coherent.shrinks (h : vault.Coherent Of n r)
    (hle : vault.Shrinks r r') : vault.Coherent Of n r' := by
  refine ⟨h.minted.shrinks hle, ?_, ?_⟩
  · intro t s segment t' s' segment' id hindex hindex'
    exact h.one_key _ _ _ _ _ _ _ (hle _ _ hindex) (hle _ _ hindex')
  · intro t s segment id v hindex hrecord
    exact h.record_of _ _ _ _ _ (hle _ _ hindex) (hle _ _ hrecord)

-- ==================================================== one batch

/-- A created pair has an id that no other key leads to. -/
theorem Coherent.created {ttl : Nat} {entry : VaultWriteRequest}
    {c : Candidate} (h : vault.Coherent Of n r)
    (hdistinct : vault.secrets.DistinctBelow (n + 1))
    (hof : Of t s entry.entityType entry.originalValue
      entry.normalizedHmac)
    (hsegment : c.segment =
      vault.indexSegment entry.entityType entry.normalizedHmac)
    (hid : c.id = encodeCrockford (vault.secrets.tokenBytes n))
    (hholds : vault.Holds t s entry.entityType c.id entry.originalValue
      c.raw)
    (hcreated : vault.Created t s ttl c.segment c.id c.raw r r') :
    vault.Coherent Of (n + 1) r' := by
  have hfresh : ∀ id, vault.Drawn n id → id ≠ c.id := by
    intro id hdrawn
    rw [hid]
    exact hdrawn.ne hdistinct (le_refl n)
  -- an index key after is the created one, or was there before
  have hindex : ∀ t' s' segment id,
      vault.valueAt r' (.index t' s' segment) = some (.text id) →
        (t' = t ∧ s' = s ∧ segment = c.segment ∧ id = c.id) ∨
          vault.valueAt r (.index t' s' segment) = some (.text id) := by
    intro t' s' segment id hv
    rw [hcreated.values (by simp), if_neg (by simp)] at hv
    by_cases hsame : VaultKey.index t' s' segment = .index t s c.segment
    · rw [if_pos hsame] at hv
      cases hsame
      cases hv
      exact Or.inl ⟨rfl, rfl, rfl, rfl⟩
    · rw [if_neg hsame] at hv
      exact Or.inr hv
  refine ⟨h.minted.created hdistinct hsegment hid hholds hcreated, ?_, ?_⟩
  · intro t1 s1 segment1 t2 s2 segment2 id h1 h2
    rcases hindex _ _ _ _ h1 with ⟨rfl, rfl, rfl, rfl⟩ | hold1
    · rcases hindex _ _ _ _ h2 with ⟨rfl, rfl, rfl, -⟩ | hold2
      · exact ⟨rfl, rfl, rfl⟩
      · exact absurd rfl (hfresh _ (h.minted.index_drawn _ _ _ _ hold2))
    · rcases hindex _ _ _ _ h2 with ⟨-, -, -, rfl⟩ | hold2
      · exact absurd rfl (hfresh _ (h.minted.index_drawn _ _ _ _ hold1))
      · exact h.one_key _ _ _ _ _ _ _ hold1 hold2
  · intro t' s' segment id v hi hv
    rw [hcreated.values (by simp)] at hv
    rcases hindex _ _ _ _ hi with ⟨rfl, rfl, rfl, rfl⟩ | hold
    · rw [if_pos rfl] at hv
      cases hv
      exact ⟨_, _, _, _, hsegment, rfl, hholds, hof⟩
    · have hne : VaultKey.token t' s' id ≠ .token t s c.id := by
        intro heq
        injection heq with _ _ heq
        exact hfresh _ (h.minted.index_drawn _ _ _ _ hold) heq
      rw [if_neg hne, if_neg (by simp)] at hv
      exact h.record_of _ _ _ _ _ hold hv

/-- The rounds of a batch keep the invariant. -/
theorem Rounds.coherent {ttl : Nat} {cs : List Candidate}
    {ids : List Text} (h : vault.Rounds t s ttl cs ids r r') :
    ∀ {n : Nat} {entries : List VaultWriteRequest},
      vault.SealedFrom t s n entries cs → vault.Coherent Of n r →
      vault.secrets.DistinctBelow (n + entries.length) →
      (∀ entry ∈ entries, Of t s entry.entityType entry.originalValue
        entry.normalizedHmac) →
      vault.Coherent Of (n + entries.length) r' := by
  induction h with
  | nil r =>
      intro n entries hsealed hcoherent _ _
      cases hsealed
      exact hcoherent
  | @reused c cs found ids r q r' head tail ih =>
      intro n entries hsealed hcoherent hdistinct hof
      cases hsealed with
      | @cons _ entry entries _ _ hsegment hid hholds hrest =>
          rw [List.length_cons] at hdistinct ⊢
          have hq : vault.Coherent Of (n + 1) q :=
            (hcoherent.shrinks (fun k v hv => by
              rw [← head.values k]
              exact hv)).mono (Nat.le_succ n)
          have hfinal := ih hrest hq (hdistinct.mono (by omega))
            (List.forall_mem_cons.mp hof).2
          rw [Nat.add_right_comm] at hfinal
          exact hfinal
  | @created c cs ids r q r' head stale tail ih =>
      intro n entries hsealed hcoherent hdistinct hof
      cases hsealed with
      | @cons _ entry entries _ _ hsegment hid hholds hrest =>
          rw [List.length_cons] at hdistinct ⊢
          obtain ⟨hhead, hentries⟩ := List.forall_mem_cons.mp hof
          have hq := hcoherent.created (hdistinct.mono (by omega)) hhead
            hsegment hid hholds head
          have hfinal := ih hrest hq (hdistinct.mono (by omega)) hentries
          rw [Nat.add_right_comm] at hfinal
          exact hfinal

theorem Batched.coherent {entries : List VaultWriteRequest} {ttl : Nat}
    {cs : List Candidate} {ids : List Text} {w w' : World}
    {tokens : List Text}
    (h : vault.Batched t s entries ttl cs ids w w' tokens)
    (hcoherent : vault.Coherent Of w.idsDrawn w.redis)
    (hdistinct : vault.secrets.DistinctBelow w'.idsDrawn)
    (hof : ∀ entry ∈ entries, Of t s entry.entityType entry.originalValue
      entry.normalizedHmac) :
    vault.Coherent Of w'.idsDrawn w'.redis := by
  obtain ⟨q, hrounds, htouched⟩ := h.scripted
  rw [h.drawn_eq] at hdistinct ⊢
  have hq := hrounds.coherent h.candidates_sealed hcoherent hdistinct
    (fun entry hentry => hof entry (mem_of_mem_deduplicate hentry))
  apply hq.shrinks
  intro k v hv
  rw [← htouched.values k]
  exact hv

/-- What was bound before a batch is bound after it. -/
theorem Batched.keeps_bound {entries : List VaultWriteRequest}
    {ttl : Nat} {cs : List Candidate} {ids : List Text} {w w' : World}
    {tokens : List Text}
    (h : vault.Batched t s entries ttl cs ids w w' tokens)
    (hminted : vault.Minted w.idsDrawn w.redis)
    (hdistinct : vault.secrets.DistinctBelow w'.idsDrawn)
    {ty hmac id original : Text}
    (hbound : vault.Bound t s w.redis ty hmac id original) :
    vault.Bound t s w'.redis ty hmac id original := by
  obtain ⟨q, hrounds, htouched⟩ := h.scripted
  rw [h.drawn_eq] at hdistinct
  obtain ⟨-, hkept, -, -⟩ :=
    hrounds.bindings h.candidates_sealed hminted hdistinct
  obtain ⟨hindex, raw, hrecord, hholds⟩ := hkept _ _ _ _ hbound
  exact ⟨(htouched.values _).trans hindex, raw,
    (htouched.values _).trans hrecord, hholds⟩

-- ==================================================== expiry

/-- A record's index key is there as long as the record. -/
def Coupled (vault : RedisTokenVault) (r : Redis) : Prop :=
  ∀ t s id e, vault.entryAt r (.token t s id) = some e →
    ∃ segment, vault.entryAt r (.index t s segment) =
      some ⟨.text id, e.deadline⟩

theorem coupled_start : vault.Coupled VaultState.start.world.redis := by
  intro t s id e he
  cases he

/-- The two keys of a mapping expire together. -/
theorem Coupled.elapse {w : World} (h : vault.Coupled w.redis) (d : Nat) :
    vault.Coupled (w.elapse d).redis := by
  intro t s id e he
  obtain ⟨hbefore, hlive⟩ := entryAt_elapse_iff.mp he
  obtain ⟨segment, hindex⟩ := h t s id e hbefore
  exact ⟨segment, entryAt_elapse_iff.mpr ⟨hindex, hlive⟩⟩

theorem Coupled.reused {ttl : Nat} {segment id : Text}
    (h : vault.Coupled r) (hreused : vault.Reused t s ttl segment id r r') :
    vault.Coupled r' := by
  obtain ⟨ei, hei, hvalue⟩ := hreused.index_found
  obtain ⟨et, het⟩ := hreused.token_found
  intro t' s' id' e he
  by_cases hsame : VaultKey.token t' s' id' = .token t s id
  · -- the pair that was found moves its deadlines as one
    cases hsame
    rw [hreused.token, het] at he
    cases he
    refine ⟨segment, ?_⟩
    rw [hreused.index, hei, ← hvalue]
    rfl
  · rw [hreused.other _ hsame (by simp)] at he
    obtain ⟨segment', hindex⟩ := h t' s' id' e he
    refine ⟨segment', ?_⟩
    rw [hreused.other _ (by simp), hindex]
    intro heq
    cases heq
    rw [hei] at hindex
    cases hindex
    cases hvalue
    exact hsame rfl

theorem Coupled.created {ttl : Nat} {c : Candidate} (h : vault.Coupled r)
    (hcreated : vault.Created t s ttl c.segment c.id c.raw r r')
    (hstale : ∀ other e,
      vault.entryAt r (.index t s c.segment) = some e →
        e.value = .text other →
          vault.entryAt r (.token t s other) = none) :
    vault.Coupled r' := by
  intro t' s' id' e he
  by_cases hsame : VaultKey.token t' s' id' = .token t s c.id
  · cases hsame
    rw [hcreated.token] at he
    cases he
    exact ⟨c.segment, hcreated.index⟩
  · rw [hcreated.other _ hsame (by simp) (by simp)] at he
    obtain ⟨segment', hindex⟩ := h t' s' id' e he
    refine ⟨segment', ?_⟩
    rw [hcreated.other _ (by simp) _ (by simp), hindex]
    intro heq
    cases heq
    -- an index key is only written over when its record is gone
    have hnone := hstale id' _ hindex rfl
    rw [he] at hnone
    cases hnone

theorem Rounds.coupled {ttl : Nat} {cs : List Candidate}
    {ids : List Text} (h : vault.Rounds t s ttl cs ids r r') :
    vault.Coupled r → vault.Coupled r' := by
  induction h with
  | nil r => exact id
  | reused head tail ih => exact fun hr => ih (hr.reused head)
  | created head stale tail ih =>
      exact fun hr => ih (hr.created head stale)

theorem Batched.coupled {entries : List VaultWriteRequest} {ttl : Nat}
    {cs : List Candidate} {ids : List Text} {w w' : World}
    {tokens : List Text}
    (h : vault.Batched t s entries ttl cs ids w w' tokens)
    (hcoupled : vault.Coupled w.redis) : vault.Coupled w'.redis := by
  obtain ⟨q, hrounds, htouched⟩ := h.scripted
  have hq := hrounds.coupled hcoupled
  intro t' s' id e he
  rw [htouched.other _ (by simp)] at he
  obtain ⟨segment, hindex⟩ := hq t' s' id e he
  refine ⟨segment, ?_⟩
  rw [htouched.other _ (by simp)]
  exact hindex

end PrivacyGateway.Vault.RedisTokenVault
