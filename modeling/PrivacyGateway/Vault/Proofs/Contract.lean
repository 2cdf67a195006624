/-
What a batch promises, in every reachable state.

The tokens stand in the order of the entries and are equal exactly where
the identities are; each of them opens to the original its identity was
first stored with (`StoredSince`); and the mappings of other identities
and of other sessions are as they were, deadlines included. A batch that
raises writes nothing.

Two things are assumed of what the vault draws and hashes, for the run and
the batch at its end: no token id comes twice, and no two fingerprints
have one digest.
-/
import PrivacyGateway.Lib.Aligned
import PrivacyGateway.Vault.Proofs.Coherence
import PrivacyGateway.Vault.Proofs.Openings

namespace PrivacyGateway.Vault

open Effect Tokenization

/-- The fingerprints a step hands to the vault. -/
def VaultOp.fingerprints : VaultOp → List Text
  | .batch _ _ entries _ => entries.map VaultWriteRequest.normalizedHmac
  | _ => []

namespace RedisTokenVault

variable (vault : RedisTokenVault) (t s : UUID)

/-- No two of the fingerprints have one digest. -/
def DigestsApart (known : List Text) : Prop :=
  ∀ a ∈ known, ∀ b ∈ known, vault.indexDigest a = vault.indexDigest b →
    a = b

/-- The original of the first entry of an identity. -/
def firstOf (entries : List VaultWriteRequest) (ty hmac : Text) :
    Option Text :=
  (entries.find? (fun entry =>
    decide (entry.entityType = ty ∧ entry.normalizedHmac = hmac))).map
      VaultWriteRequest.originalValue

/-- In the run some batch found nothing held for the identity, the
original was that of its first entry of the identity, and it has been held
in every state since. -/
def StoredSince (ops : List VaultOp) (ty hmac original : Text) : Prop :=
  ∃ before entries ttlSeconds after,
    ops = before ++ .batch t s entries ttlSeconds :: after ∧
    vault.held t s (vault.run VaultState.start before).world.redis ty hmac =
      none ∧
    firstOf entries ty hmac = some original ∧
    ∀ mid rest, after = mid ++ rest →
      vault.held t s (vault.run VaultState.start
        (before ++ .batch t s entries ttlSeconds :: mid)).world.redis ty
          hmac = some original

variable {vault t s} {r r' : Redis} {known : List Text}

-- ==================================================== identities

theorem indexSegment_eq_iff (hapart : vault.DigestsApart known)
    {ty hmac ty' hmac' : Text} (hty : isValidEntityType ty = true)
    (hty' : isValidEntityType ty' = true) (hmem : hmac ∈ known)
    (hmem' : hmac' ∈ known) :
    vault.indexSegment ty hmac = vault.indexSegment ty' hmac' ↔
      ty = ty' ∧ hmac = hmac' := by
  constructor
  · intro h
    have hsame := indexSegment_type hty hty' h
    subst hsame
    refine ⟨rfl, hapart _ hmem _ hmem' ?_⟩
    exact (List.cons.inj (List.append_cancel_left h)).2
  · intro h
    rw [h.1, h.2]

/-- Where digests are apart, an index key finds the entries of its
identity. -/
theorem firstOriginal_eq_firstOf (hapart : vault.DigestsApart known)
    {entries : List VaultWriteRequest}
    (hvalid : ∀ entry ∈ entries, isValidEntityType entry.entityType = true)
    (hentries : ∀ entry ∈ entries, entry.normalizedHmac ∈ known)
    {ty hmac : Text} (hty : isValidEntityType ty = true)
    (hmem : hmac ∈ known) :
    vault.firstOriginal entries ty hmac = firstOf entries ty hmac := by
  unfold firstOriginal firstOf
  congr 1
  induction entries with
  | nil => rfl
  | cons entry entries ih =>
      obtain ⟨hhead, htail⟩ := List.forall_mem_cons.mp hvalid
      obtain ⟨hhead', htail'⟩ := List.forall_mem_cons.mp hentries
      have hsame := indexSegment_eq_iff hapart hhead hty hhead' hmem
      simp only [List.find?_cons, hsame, ih htail htail']

/-- The entries of a batch that returned are of valid types. -/
theorem Batched.valid {entries : List VaultWriteRequest} {ttl : Nat}
    {cs : List Candidate} {ids : List Text} {w w' : World}
    {tokens : List Text}
    (h : vault.Batched t s entries ttl cs ids w w' tokens)
    (hminted : vault.Minted w.idsDrawn w.redis)
    (hdistinct : vault.secrets.DistinctBelow w'.idsDrawn) :
    ∀ entry ∈ entries, isValidEntityType entry.entityType = true := by
  obtain ⟨-, -, hall⟩ := h.bindings hminted hdistinct
  intro entry hentry
  obtain ⟨token, -, id, original, -, -, raw, -, hholds⟩ :=
    Aligned.exists_right hall hentry
  exact hholds.1

-- ==================================================== other mappings

/-- The rounds of a batch leave every key alone that is not one of their
own. -/
theorem Rounds.other {ttl : Nat} {cs : List Candidate} {ids : List Text}
    (h : vault.Rounds t s ttl cs ids r r') {k : VaultKey}
    (htoken : ∀ id ∈ ids, k ≠ .token t s id)
    (hindex : ∀ c ∈ cs, k ≠ .index t s c.segment)
    (hmeta : k ≠ .metaSet t s) :
    vault.entryAt r' k = vault.entryAt r k := by
  induction h with
  | nil r => rfl
  | reused head tail ih =>
      obtain ⟨hid, hids⟩ := List.forall_mem_cons.mp htoken
      obtain ⟨hc, hcs⟩ := List.forall_mem_cons.mp hindex
      rw [ih hids hcs, head.other k hid hc]
  | created head stale tail ih =>
      obtain ⟨hid, hids⟩ := List.forall_mem_cons.mp htoken
      obtain ⟨hc, hcs⟩ := List.forall_mem_cons.mp hindex
      rw [ih hids hcs, head.other k hid hc hmeta]

theorem SealedFrom.segments {n : Nat} {entries : List VaultWriteRequest}
    {cs : List Candidate} (h : vault.SealedFrom t s n entries cs)
    {segment : Text}
    (hother : ∀ entry ∈ entries,
      vault.indexSegment entry.entityType entry.normalizedHmac ≠ segment) :
    ∀ c ∈ cs, VaultKey.index t s segment ≠ .index t s c.segment := by
  intro c hc heq
  obtain ⟨entry, hentry, hsegment, -⟩ := h.holds c hc
  injection heq with _ _ heq
  exact hother entry hentry (hsegment.symm.trans heq.symm)

/-- A batch leaves the index keys of other identities alone, and the
records they lead to. -/
theorem Batched.others {Of : Fingerprinted}
    {entries : List VaultWriteRequest} {ttl : Nat}
    {cs : List Candidate} {ids : List Text} {w w' : World}
    {tokens : List Text}
    (h : vault.Batched t s entries ttl cs ids w w' tokens)
    (hminted : vault.Minted w.idsDrawn w.redis)
    (hcoherent : vault.Coherent Of w'.idsDrawn w'.redis)
    (hdistinct : vault.secrets.DistinctBelow w'.idsDrawn) {segment : Text}
    (hother : ∀ entry ∈ entries,
      vault.indexSegment entry.entityType entry.normalizedHmac ≠ segment) :
    vault.entryAt w'.redis (.index t s segment) =
        vault.entryAt w.redis (.index t s segment) ∧
      ∀ id, vault.valueAt w.redis (.index t s segment) = some (.text id) →
        vault.entryAt w'.redis (.token t s id) =
          vault.entryAt w.redis (.token t s id) := by
  obtain ⟨q, hrounds, htouched⟩ := h.scripted
  have hunique : ∀ u ∈ (deduplicate entries).1,
      vault.indexSegment u.entityType u.normalizedHmac ≠ segment :=
    fun u hu => hother u (mem_of_mem_deduplicate hu)
  have hkeys := h.candidates_sealed.segments hunique
  have hindex : vault.entryAt w'.redis (.index t s segment) =
      vault.entryAt w.redis (.index t s segment) := by
    rw [htouched.other _ (by simp),
      hrounds.other (fun _ _ => by simp) hkeys (by simp)]
  refine ⟨hindex, fun id hid => ?_⟩
  rw [htouched.other _ (by simp)]
  refine hrounds.other ?_ (fun _ _ => by simp) (by simp)
  -- an id that the batch answered is led to by an entry's own key
  intro id' hid' heq
  injection heq with _ _ heq
  subst heq
  rw [h.drawn_eq] at hdistinct
  obtain ⟨-, -, -, hpairs⟩ :=
    hrounds.bindings h.candidates_sealed hminted hdistinct
  have hbound : List.Forall₂ (fun u id => ∃ original, vault.Bound t s q
      u.entityType u.normalizedHmac id original)
      (deduplicate entries).1 ids :=
    List.forall₂_iff_zip.mpr
      ⟨(h.length_eq.trans h.candidates_sealed.length_eq).symm,
        fun hmem => hpairs _ hmem⟩
  obtain ⟨u, hu, original, hnamed, -⟩ := Aligned.exists_left hbound hid'
  rw [← htouched.values] at hnamed
  obtain ⟨-, -, hsame⟩ := hcoherent.one_key _ _ _ _ _ _ _ hnamed
    ((valueAt_congr hindex).trans hid)
  exact hunique u hu hsame

-- ==================================================== what is returned

/-- The original of a token that a batch returned is read back at once. -/
theorem Bound.resolves {w : World} {ty hmac id original : Text}
    (h : vault.Bound t s w.redis ty hmac id original) :
    runIn (vault.resolveMany t s [renderToken ty id]) w =
      (.ok [(renderToken ty id, original)], w) := by
  obtain ⟨-, raw, hrecord, hholds⟩ := h
  obtain ⟨deadline, hlive⟩ := valueAt_eq_some_iff.mp hrecord
  exact @resolveMany_of_reads vault t s ⟨ty, id, hholds.1, hholds.2.1⟩ w
    original ⟨raw, stringAt_blob hlive, hholds.opens⟩

/-- Two of a batch's tokens are equal exactly when their entries are of
one identity. -/
theorem token_eq_iff {Of : Fingerprinted} {w : World}
    (hapart : vault.DigestsApart known)
    (hcoherent : vault.Coherent Of w.idsDrawn w.redis)
    {a b : VaultWriteRequest} {id id' original original' : Text}
    (ha : vault.Bound t s w.redis a.entityType a.normalizedHmac id original)
    (hb : vault.Bound t s w.redis b.entityType b.normalizedHmac id'
      original')
    (hmem : a.normalizedHmac ∈ known) (hmem' : b.normalizedHmac ∈ known) :
    renderToken a.entityType id = renderToken b.entityType id' ↔
      SameIdentity a b := by
  obtain ⟨hindex, raw, -, hholds⟩ := ha
  obtain ⟨hindex', raw', -, hholds'⟩ := hb
  constructor
  · intro h
    obtain ⟨-, rfl⟩ := renderToken_inj hholds.1 hholds.2.1 hholds'.1
      hholds'.2.1 h
    obtain ⟨-, -, hsegment⟩ :=
      hcoherent.one_key _ _ _ _ _ _ _ hindex hindex'
    exact (indexSegment_eq_iff hapart hholds.1 hholds'.1 hmem hmem').mp
      hsegment
  · intro hsame
    rw [hsame.1, hsame.2, hindex'] at hindex
    cases hindex
    rw [hsame.1]

-- ==================================================== runs

/-- Every original is one that its fingerprint was computed from, as far
as the vault can tell. -/
def anyOriginal : Fingerprinted := fun _ _ _ _ _ => True

theorem Coherent.step {st : VaultState}
    (h : vault.Coherent anyOriginal st.world.idsDrawn st.world.redis)
    {op : VaultOp}
    (hdistinct : vault.secrets.DistinctBelow
      (vault.step st op).world.idsDrawn) :
    vault.Coherent anyOriginal (vault.step st op).world.idsDrawn
      (vault.step st op).world.redis := by
  rcases step_shrinks h.minted.typed op with
    hshrinks | ⟨t, s, entries, ttl, cs, ids, tokens, -, hb⟩
  · exact (h.shrinks hshrinks).mono (step_drawn_le h.minted.typed op)
  · exact hb.coherent h hdistinct (fun _ _ => trivial)

theorem run_coherent (ops : List VaultOp)
    (hdistinct : vault.secrets.DistinctBelow
      (vault.run VaultState.start ops).world.idsDrawn) :
    vault.Coherent anyOriginal
      (vault.run VaultState.start ops).world.idsDrawn
      (vault.run VaultState.start ops).world.redis := by
  induction ops using List.reverseRecOn with
  | nil => exact coherent_start
  | append_singleton ops op ih =>
      have hhere : vault.Sound (vault.run VaultState.start ops) :=
        run_sound ops
      rw [run_concat] at hdistinct ⊢
      exact (ih (hdistinct.mono (step_drawn_le hhere.typed op))).step
        hdistinct

theorem held_of_shrinks {ty hmac original : Text}
    (hle : vault.Shrinks r r')
    (h : vault.held t s r' ty hmac = some original) :
    vault.held t s r ty hmac = some original := by
  unfold held at h ⊢
  split at h
  · rename_i id hindex
    split at h
    · rename_i raw hrecord
      simp only [hle _ _ hindex, hle _ _ hrecord]
      exact h
    · cases h
  · cases h

/-- A batch of another session changes nothing that is held. -/
theorem held_frame {t' s' : UUID} {ttl : Nat} {cs : List Candidate}
    {ids : List Text} (h : vault.Scripted t' s' ttl cs ids r r')
    (hsession : (t, s) ≠ (t', s')) (ty hmac : Text) :
    vault.held t s r' ty hmac = vault.held t s r ty hmac := by
  have hsame : ∀ k : VaultKey, k.session = (t, s) →
      vault.valueAt r' k = vault.valueAt r k := by
    intro k hk
    apply valueAt_congr
    apply h.frame
    rw [hk]
    exact hsession
  unfold held
  simp only [hsame (.index t s _) rfl, hsame (.token t s _) rfl]

/-- What is still held after one more step has been held since the same
batch. -/
theorem StoredSince.step {ops : List VaultOp} {op : VaultOp}
    {ty hmac original : Text}
    (h : vault.StoredSince t s ops ty hmac original)
    (hheld : vault.held t s
      (vault.run VaultState.start (ops ++ [op])).world.redis ty hmac =
        some original) :
    vault.StoredSince t s (ops ++ [op]) ty hmac original := by
  obtain ⟨before, entries, ttlSeconds, after, rfl, hnone, hfirst, hsince⟩ := h
  refine ⟨before, entries, ttlSeconds, after ++ [op], ?_, hnone, hfirst, ?_⟩
  · rw [List.append_assoc, List.cons_append]
  · intro mid rest hsplit
    rcases List.eq_nil_or_concat rest with rfl | ⟨rest', last, rfl⟩
    · rw [List.append_nil] at hsplit
      rw [← hsplit, ← List.cons_append, ← List.append_assoc]
      exact hheld
    · rw [List.concat_eq_append, ← List.append_assoc] at hsplit
      exact hsince mid rest' (List.append_inj_left' hsplit rfl)

/-- What an identity holds was stored with the first entry of the batch
that found nothing, and has been held since. -/
theorem held_storedSince (hapart : vault.DigestsApart known)
    (ops : List VaultOp)
    (hknown : ∀ f ∈ ops.flatMap VaultOp.fingerprints, f ∈ known)
    (hdistinct : vault.secrets.DistinctBelow
      (vault.run VaultState.start ops).world.idsDrawn)
    {ty hmac original : Text} (hty : isValidEntityType ty = true)
    (hmem : hmac ∈ known)
    (hheld : vault.held t s
      (vault.run VaultState.start ops).world.redis ty hmac =
        some original) :
    vault.StoredSince t s ops ty hmac original := by
  induction ops using List.reverseRecOn with
  | nil => cases hheld
  | append_singleton ops op ih =>
      have hhere : vault.Sound (vault.run VaultState.start ops) :=
        run_sound ops
      have hknown' : ∀ f ∈ ops.flatMap VaultOp.fingerprints, f ∈ known := by
        intro f hf
        apply hknown
        rw [List.flatMap_append]
        exact List.mem_append_left _ hf
      have hlast := hheld
      rw [run_concat] at hdistinct hlast
      have hbefore := hdistinct.mono (step_drawn_le hhere.typed op)
      rcases step_shrinks hhere.typed op with
        hshrinks | ⟨t', s', entries, ttl, cs, ids, tokens, rfl, hb⟩
      · exact (ih hknown' hbefore (held_of_shrinks hshrinks hlast)).step hheld
      · by_cases hsession : (t, s) = (t', s')
        · cases hsession
          obtain ⟨-, hbound, -⟩ := hb.bindings (run_minted hbefore) hdistinct
          rw [hbound ty hmac hty] at hlast
          cases hnow : vault.held t s
              (vault.run VaultState.start ops).world.redis ty hmac with
          | some value =>
              rw [hnow] at hlast
              cases hlast
              exact (ih hknown' hbefore hnow).step hheld
          | none =>
              rw [hnow, Option.none_or, firstOriginal_eq_firstOf hapart
                (hb.valid (run_minted hbefore) hdistinct) ?_ hty hmem] at hlast
              · refine ⟨ops, entries, _, [], rfl, hnow, hlast, ?_⟩
                intro mid rest hsplit
                rw [(List.append_eq_nil_iff.mp hsplit.symm).1]
                exact hheld
              · intro entry hentry
                apply hknown
                rw [List.flatMap_append]
                refine List.mem_append_right _ ?_
                simp only [List.flatMap_cons, List.flatMap_nil,
                  List.append_nil, VaultOp.fingerprints]
                exact List.mem_map_of_mem hentry
        · rw [held_frame hb.scripted hsession] at hlast
          exact (ih hknown' hbefore hlast).step hheld

-- ==================================================== the contract

variable (vault t s)

/-- What a batch at the end of a run promises of the tokens it returns. -/
structure BatchContract (ops : List VaultOp)
    (entries : List VaultWriteRequest) (ttlSeconds : Int)
    (tokens : List Text) (w w' : World) : Prop where
  one_each : tokens.length = entries.length
  equal_iff : ∀ (i j : Nat), ∀ a ∈ entries[i]?, ∀ b ∈ entries[j]?,
    ∀ x ∈ tokens[i]?, ∀ y ∈ tokens[j]?, x = y ↔ SameIdentity a b
  resolves : ∀ (i : Nat), ∀ a ∈ entries[i]?, ∀ x ∈ tokens[i]?, ∃ original,
    vault.StoredSince t s (ops ++ [.batch t s entries ttlSeconds])
      a.entityType a.normalizedHmac original ∧
    runIn (vault.resolveMany t s [x]) w' = (.ok [(x, original)], w')
  others : ∀ ty hmac, isValidEntityType ty = true →
    hmac ∈ ops.flatMap VaultOp.fingerprints →
    (∀ entry ∈ entries,
      ¬(entry.entityType = ty ∧ entry.normalizedHmac = hmac)) →
    vault.entryAt w'.redis (.index t s (vault.indexSegment ty hmac)) =
        vault.entryAt w.redis (.index t s (vault.indexSegment ty hmac)) ∧
      ∀ id, vault.valueAt w.redis
          (.index t s (vault.indexSegment ty hmac)) = some (.text id) →
        vault.entryAt w'.redis (.token t s id) =
          vault.entryAt w.redis (.token t s id)
  sessions : ∀ k : VaultKey, k.session ≠ (t, s) →
    vault.entryAt w'.redis k = vault.entryAt w.redis k

/-- A batch without entries has nothing to promise. -/
theorem batchContract_nil (ops : List VaultOp) (ttlSeconds : Int)
    {w w' : World} (h : w'.redis = w.redis) :
    vault.BatchContract t s ops [] ttlSeconds [] w w' := by
  refine ⟨rfl, ?_, ?_, ?_, ?_⟩
  · intro i j a ha
    cases ha
  · intro i a ha
    cases ha
  · intro ty hmac _ _ _
    rw [h]
    exact ⟨rfl, fun _ _ => rfl⟩
  · intro k _
    rw [h]

variable {vault t s}

theorem mem_fingerprints_batch {ops : List VaultOp}
    {entries : List VaultWriteRequest} {ttlSeconds : Int}
    {entry : VaultWriteRequest} (h : entry ∈ entries) :
    entry.normalizedHmac ∈ (ops ++
      [VaultOp.batch t s entries ttlSeconds]).flatMap
        VaultOp.fingerprints := by
  rw [List.flatMap_append]
  refine List.mem_append_right _ ?_
  simp only [List.flatMap_cons, List.flatMap_nil, List.append_nil,
    VaultOp.fingerprints]
  exact List.mem_map_of_mem h

/-- A batch that ran its script keeps the contract. -/
theorem Batched.contract {ops : List VaultOp}
    {entries : List VaultWriteRequest} {ttl : Nat} {cs : List Candidate}
    {ids : List Text} {tokens : List Text}
    (hapart : vault.DigestsApart ((ops ++
      [VaultOp.batch t s entries ttl]).flatMap VaultOp.fingerprints))
    (hdistinct : vault.secrets.DistinctBelow (vault.run VaultState.start
      (ops ++ [.batch t s entries ttl])).world.idsDrawn)
    (h : vault.Batched t s entries ttl cs ids
      (vault.run VaultState.start ops).world
      (vault.run VaultState.start (ops ++ [.batch t s entries ttl])).world
      tokens) :
    vault.BatchContract t s ops entries ttl tokens
      (vault.run VaultState.start ops).world
      (vault.run VaultState.start
        (ops ++ [.batch t s entries ttl])).world := by
  have hbefore : vault.secrets.DistinctBelow
      (vault.run VaultState.start ops).world.idsDrawn := by
    apply hdistinct.mono
    rw [h.drawn_eq]
    exact Nat.le_add_right _ _
  have hminted := run_minted hbefore
  have hcoherent := run_coherent _ hdistinct
  have hvalid := h.valid hminted hdistinct
  obtain ⟨-, -, hall⟩ := h.bindings hminted hdistinct
  have hat : ∀ (i : Nat), ∀ a ∈ entries[i]?, ∀ x ∈ tokens[i]?,
      ∃ id original, x = renderToken a.entityType id ∧
        vault.Bound t s (vault.run VaultState.start
          (ops ++ [.batch t s entries ttl])).world.redis
            a.entityType a.normalizedHmac id original :=
    fun i a ha x hx => Aligned.getElem? hall ha hx
  refine ⟨hall.length_eq.symm, ?_, ?_, ?_, fun k hk => h.scripted.frame hk⟩
  · intro i j a ha b hb x hx y hy
    obtain ⟨id, original, rfl, hbound⟩ := hat i a ha x hx
    obtain ⟨id', original', rfl, hbound'⟩ := hat j b hb y hy
    exact token_eq_iff hapart hcoherent hbound hbound'
      (mem_fingerprints_batch (List.mem_of_getElem? ha))
      (mem_fingerprints_batch (List.mem_of_getElem? hb))
  · intro i a ha x hx
    obtain ⟨id, original, rfl, hbound⟩ := hat i a ha x hx
    have hmem := List.mem_of_getElem? ha
    exact ⟨original, held_storedSince hapart _ (fun _ hf => hf) hdistinct
      (hvalid a hmem) (mem_fingerprints_batch hmem) hbound.held,
      hbound.resolves⟩
  · intro ty hmac hty hmac' hother
    refine h.others hminted hcoherent hdistinct ?_
    intro entry hentry hsame
    refine hother entry hentry ((indexSegment_eq_iff hapart
      (hvalid entry hentry) hty (mem_fingerprints_batch hentry) ?_).mp hsame)
    rw [List.flatMap_append]
    exact List.mem_append_left _ hmac'

/-- A batch that returns has sealed its candidates. -/
theorem getOrCreateMany_seals {entries : List VaultWriteRequest}
    {ttlSeconds : Int} {w w' : World} {tokens : List Text}
    (h : runIn (vault.getOrCreateMany t s entries ttlSeconds) w =
      (.ok tokens, w')) :
    ∃ sealed w1, runIn (vault.sealEntries t s (deduplicate entries).1) w =
      (.ok sealed, w1) := by
  unfold getOrCreateMany at h
  obtain ⟨ttl, -, h⟩ := checked_bind_ok_iff.mp h
  obtain ⟨u, -, h⟩ := checked_bind_ok_iff.mp h
  by_cases hmany : entries.length > maxBatchEntries
  · rw [if_pos hmany] at h
    cases h
  · rw [if_neg hmany] at h
    by_cases hnil : entries = []
    · subst hnil
      exact ⟨[], w, rfl⟩
    · rw [if_neg hnil] at h
      unfold writeBatch at h
      obtain ⟨sealed, w1, hseal, -⟩ := bind_ok_iff.mp h
      exact ⟨sealed, w1, hseal⟩

/-- The contract of a batch after any run of the vault: if it returns, its
tokens keep `BatchContract`; if it raises, the server is as it was; and it
raises where an entry is invalid or a seal fails. -/
theorem batch_contract (vault : RedisTokenVault) (t s : UUID)
    (ops : List VaultOp) (entries : List VaultWriteRequest)
    (ttlSeconds : Int)
    (hapart : vault.DigestsApart ((ops ++
      [VaultOp.batch t s entries ttlSeconds]).flatMap VaultOp.fingerprints))
    (hdistinct : vault.secrets.DistinctBelow (vault.run VaultState.start
      (ops ++ [.batch t s entries ttlSeconds])).world.idsDrawn) :
    let w := (vault.run VaultState.start ops).world
    let call := runIn (vault.getOrCreateMany t s entries ttlSeconds) w
    (∀ tokens, call.1 = .ok tokens →
      vault.BatchContract t s ops entries ttlSeconds tokens w call.2) ∧
    (∀ e, call.1 = .error e → call.2.redis = w.redis) ∧
    ((∃ entry ∈ entries, ¬(isValidEntityType entry.entityType = true ∧
      entry.normalizedHmac ≠ [])) → ∃ e, call.1 = .error e) ∧
    ((∃ e, (runIn (vault.sealEntries t s (deduplicate entries).1) w).1 =
      .error e) → ∃ e, call.1 = .error e) := by
  intro w call
  have hsound : vault.Sound (vault.run VaultState.start ops) := run_sound ops
  have hstep : vault.run VaultState.start
      (ops ++ [.batch t s entries ttlSeconds]) =
        vault.step (vault.run VaultState.start ops)
          (.batch t s entries ttlSeconds) := run_concat _ _
  unfold step at hstep
  simp only at hstep
  cases hcall : call with
  | mk result w' =>
      have hrun : runIn (vault.getOrCreateMany t s entries ttlSeconds)
          (vault.run VaultState.start ops).world = (result, w') := hcall
      have hcases := getOrCreateMany_cases hsound.typed hrun
      rw [hrun] at hstep
      cases result with
      | error e =>
          refine ⟨fun tokens h => (nomatch h), fun _ _ => ?_,
            fun _ => ⟨e, rfl⟩, fun _ => ⟨e, rfl⟩⟩
          rcases hcases with ⟨hredis, -⟩ | ⟨ttl, cs, ids, tokens, -, h, -⟩
          · exact hredis
          · cases h
      | ok tokens =>
          refine ⟨?_, fun e h => (nomatch h), ?_, ?_⟩
          · intro tokens' htokens
            cases htokens
            rcases hcases with ⟨hredis, -, hempty⟩ |
              ⟨ttl, cs, ids, tokens', rfl, hok, hb⟩
            · obtain ⟨rfl, rfl⟩ := hempty _ rfl
              exact batchContract_nil vault t s ops ttlSeconds hredis
            · cases hok
              have hworld := congrArg VaultState.world hstep
              rw [← show _ = w' from hworld] at hb ⊢
              exact hb.contract hapart hdistinct
          · intro hinvalid
            obtain ⟨entry, hentry, hbad⟩ := hinvalid
            exact absurd (((getOrCreateMany_returns_iff
              (List.ne_nil_of_mem hentry) hsound.typed).mp
                ⟨tokens, w', hrun⟩).entries_valid entry hentry) hbad
          · intro hfails
            obtain ⟨e, hfails⟩ := hfails
            obtain ⟨sealed, w1, hseal⟩ := getOrCreateMany_seals hrun
            rw [show runIn _ w = _ from hseal] at hfails
            cases hfails

end RedisTokenVault

end PrivacyGateway.Vault

namespace PrivacyGateway.Vault.Reference

open Effect RedisTokenVault

/-- Ada is known from an earlier batch; this one names Bob twice. -/
theorem batch_contract_ada_bob :
    let v := vault sampleHashes
    let ops := [VaultOp.batch ⟨2⟩ ⟨3⟩ [adaEntry] 3600]
    let entries := [bobEntry, adaEntry, bobEntry]
    let w := (v.run VaultState.start ops).world
    let call := runIn (v.getOrCreateMany ⟨2⟩ ⟨3⟩ entries 60) w
    ∃ tokens, call.1 = .ok tokens ∧ tokens[1]? = some adaToken ∧
      v.BatchContract ⟨2⟩ ⟨3⟩ ops entries 60 tokens w call.2 := by
  intro v ops entries w call
  have hapart : v.DigestsApart ((ops ++
      [VaultOp.batch ⟨2⟩ ⟨3⟩ entries 60]).flatMap VaultOp.fingerprints) := by
    unfold DigestsApart
    decide +kernel
  have hdrawn : (v.run VaultState.start
      (ops ++ [.batch ⟨2⟩ ⟨3⟩ entries 60])).world.idsDrawn ≤ 2 ^ 128 := by
    decide +kernel
  have hcontract := (batch_contract v ⟨2⟩ ⟨3⟩ ops entries 60 hapart
    (secrets_distinct hdrawn)).1
  have hok : call.1 = .ok
      ["⟦SGW:PERSON:00000000000000000000000001⟧".toList, adaToken,
        "⟦SGW:PERSON:00000000000000000000000001⟧".toList] := by
    decide +kernel
  exact ⟨_, hok, rfl, hcontract _ hok⟩

end PrivacyGateway.Vault.Reference
