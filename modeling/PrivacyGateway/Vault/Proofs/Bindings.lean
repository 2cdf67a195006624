/-
Which original an identity is bound to.

The index key of an identity (an entity type and a fingerprint) names a
token id, and the record of that id holds an original: `held` reads it. A
round of the batch script that finds the pair changes no value
(`Reused.values`); one that does not binds the identity to the original of
its own entry. So a batch leaves each identity with the original it was
bound to before, or with that of the first of the batch's entries
(`Rounds.bindings`): the spelling seen first is the one that stays.

This needs the drawn ids to be distinct, since a record key has nothing
but the id in it. `Minted` is the invariant that says so: ids in use were
drawn, and an index key and the record it names agree on the type.
-/
import Mathlib.Data.List.Forall2
import PrivacyGateway.Vault.Proofs.Resolution

namespace PrivacyGateway.Vault

open Effect Tokenization

/-- No two of the first draws coincide. -/
def Secrets.DistinctBelow (secrets : Secrets) (n : Nat) : Prop :=
  ∀ i j, i < n → j < n → secrets.tokenBytes i = secrets.tokenBytes j →
    i = j

theorem Secrets.DistinctBelow.mono {secrets : Secrets} {m n : Nat}
    (h : secrets.DistinctBelow n) (hle : m ≤ n) : secrets.DistinctBelow m :=
  fun i j hi hj => h i j (by omega) (by omega)

namespace RedisTokenVault

variable (vault : RedisTokenVault)

/-- The id is one of the first draws. -/
def Drawn (n : Nat) (id : Text) : Prop :=
  ∃ j, j < n ∧ id = encodeCrockford (vault.secrets.tokenBytes j)

/-- The value that is live under a key. -/
def valueAt (r : Redis) (k : VaultKey) : Option RedisValue :=
  (vault.entryAt r k).map Entry.value

/-- The invariant of the drawn ids. -/
structure Minted (n : Nat) (r : Redis) : Prop where
  typed : vault.Typed r
  record_drawn : ∀ t s id v, vault.valueAt r (.token t s id) = some v →
    vault.Drawn n id
  index_drawn : ∀ t s segment id,
    vault.valueAt r (.index t s segment) = some (.text id) →
      vault.Drawn n id
  genuine : ∀ t s id v, vault.valueAt r (.token t s id) = some v →
    ∃ ty original raw, v = .blob raw ∧ vault.Holds t s ty id original raw
  paired : ∀ t s segment id v,
    vault.valueAt r (.index t s segment) = some (.text id) →
      vault.valueAt r (.token t s id) = some v →
        ∃ ty hmac original raw, segment = vault.indexSegment ty hmac ∧
          v = .blob raw ∧ vault.Holds t s ty id original raw

variable {vault} {t s : UUID} {r r' : Redis} {n : Nat}

theorem valueAt_eq_some_iff {k : VaultKey} {v : RedisValue} :
    vault.valueAt r k = some v ↔
      ∃ deadline, vault.entryAt r k = some ⟨v, deadline⟩ := by
  unfold valueAt
  rw [Option.map_eq_some_iff]
  constructor
  · intro h
    obtain ⟨e, he, rfl⟩ := h
    exact ⟨e.deadline, he⟩
  · intro h
    obtain ⟨deadline, he⟩ := h
    exact ⟨_, he, rfl⟩

theorem valueAt_congr {k : VaultKey}
    (h : vault.entryAt r' k = vault.entryAt r k) :
    vault.valueAt r' k = vault.valueAt r k := by
  unfold valueAt
  rw [h]

/-- A moved deadline does not move the value. -/
theorem valueAt_map {k : VaultKey} {d : Option Nat}
    (h : vault.entryAt r' k = (vault.entryAt r k).map
      (fun e => ⟨e.value, d⟩)) :
    vault.valueAt r' k = vault.valueAt r k := by
  unfold valueAt
  rw [h, Option.map_map]
  rfl

theorem Drawn.mono {m : Nat} {id : Text} (h : vault.Drawn m id)
    (hle : m ≤ n) : vault.Drawn n id := by
  obtain ⟨j, hj, rfl⟩ := h
  exact ⟨j, by omega, rfl⟩

/-- An id drawn later is another id. -/
theorem Drawn.ne {m : Nat} {id : Text} (h : vault.Drawn n id)
    (hdistinct : vault.secrets.DistinctBelow (m + 1)) (hle : n ≤ m) :
    id ≠ encodeCrockford (vault.secrets.tokenBytes m) := by
  obtain ⟨j, hj, rfl⟩ := h
  intro heq
  have := hdistinct j m (by omega) (by omega)
    (encodeCrockford_injective heq)
  omega

-- ==================================================== identities

theorem separator_not_mem {ty : Text} (h : isValidEntityType ty = true) :
    ':' ∉ ty :=
  (not_mem_of_entityTypeChars (isEntityTypeChar_of_valid h)).1

/-- The type is read off the segment of an index key. -/
theorem indexSegment_type {ty hmac ty' hmac' : Text}
    (hty : isValidEntityType ty = true)
    (hty' : isValidEntityType ty' = true)
    (h : vault.indexSegment ty hmac = vault.indexSegment ty' hmac') :
    ty = ty' := by
  have hfront : ∀ (x rest : Text), ':' ∉ x →
      (x ++ ':' :: rest).takeWhile (fun c => c != ':') = x := by
    intro x rest hx
    rw [List.takeWhile_append_of_pos]
    · simp
    · intro c hc
      rw [bne_iff_ne]
      intro heq
      rw [heq] at hc
      exact hx hc
  unfold indexSegment at h
  have hsame := congrArg (List.takeWhile (fun c => c != ':')) h
  rw [hfront _ _ (separator_not_mem hty),
    hfront _ _ (separator_not_mem hty')] at hsame
  exact hsame

variable (vault t s)

/-- The identity is bound to the id and the original. -/
def Bound (r : Redis) (ty hmac id original : Text) : Prop :=
  vault.valueAt r (.index t s (vault.indexSegment ty hmac)) =
      some (.text id) ∧
    ∃ raw, vault.valueAt r (.token t s id) = some (.blob raw) ∧
      vault.Holds t s ty id original raw

/-- The original the session holds for an identity, if it holds one. -/
def held (r : Redis) (ty hmac : Text) : Option Text :=
  match vault.valueAt r (.index t s (vault.indexSegment ty hmac)) with
  | some (.text id) =>
      match vault.valueAt r (.token t s id) with
      | some (.blob raw) =>
          match vault.unsealRecord t s raw ty id with
          | .ok record => some record.originalValue
          | .error _ => none
      | _ => none
  | _ => none

/-- The original of the first entry with an identity's index key. -/
def firstOriginal (entries : List VaultWriteRequest) (ty hmac : Text) :
    Option Text :=
  (entries.find? (fun entry =>
    decide (vault.indexSegment entry.entityType entry.normalizedHmac =
      vault.indexSegment ty hmac))).map VaultWriteRequest.originalValue

variable {vault t s}

theorem Bound.held {ty hmac id original : Text}
    (h : vault.Bound t s r ty hmac id original) :
    vault.held t s r ty hmac = some original := by
  obtain ⟨hindex, raw, hrecord, hholds⟩ := h
  unfold RedisTokenVault.held
  simp only [hindex, hrecord, unsealRecord_holds hholds]
  rfl

theorem held_congr (h : ∀ k, vault.valueAt r' k = vault.valueAt r k)
    (ty hmac : Text) :
    vault.held t s r' ty hmac = vault.held t s r ty hmac := by
  unfold held
  simp only [h]

/-- An index key and the record it names bind the identity. -/
theorem Minted.bound {ty hmac id : Text} {v : RedisValue}
    (h : vault.Minted n r) (hty : isValidEntityType ty = true)
    (hindex : vault.valueAt r
      (.index t s (vault.indexSegment ty hmac)) = some (.text id))
    (hrecord : vault.valueAt r (.token t s id) = some v) :
    ∃ original, vault.Bound t s r ty hmac id original := by
  obtain ⟨ty', hmac', original, raw, hsegment, rfl, hholds⟩ :=
    h.paired _ _ _ _ _ hindex hrecord
  rw [← indexSegment_type hty hholds.1 hsegment] at hholds
  exact ⟨original, hindex, raw, hrecord, hholds⟩

-- ==================================================== rounds

/-- A round that finds a pair changes no value. -/
theorem Reused.values {ttl : Nat} {segment id : Text}
    (h : vault.Reused t s ttl segment id r r') (k : VaultKey) :
    vault.valueAt r' k = vault.valueAt r k := by
  by_cases htoken : k = .token t s id
  · rw [htoken]
    exact valueAt_map h.token
  · by_cases hindex : k = .index t s segment
    · rw [hindex]
      exact valueAt_map h.index
    · exact valueAt_congr (h.other k htoken hindex)

theorem Touched.values {ttl : Nat} (h : vault.Touched t s ttl r r')
    (k : VaultKey) : vault.valueAt r' k = vault.valueAt r k := by
  by_cases hmeta : k = .metaSet t s
  · rw [hmeta]
    exact valueAt_map h.metaSet
  · exact valueAt_congr (h.other k hmeta)

theorem Created.values {ttl : Nat} {segment id : Text} {raw : Bytes}
    (h : vault.Created t s ttl segment id raw r r') {k : VaultKey}
    (hmeta : k ≠ .metaSet t s) :
    vault.valueAt r' k =
      if k = .token t s id then some (.blob raw)
      else if k = .index t s segment then some (.text id)
      else vault.valueAt r k := by
  by_cases htoken : k = .token t s id
  · rw [if_pos htoken, htoken]
    unfold valueAt
    rw [h.token]
    rfl
  · rw [if_neg htoken]
    by_cases hindex : k = .index t s segment
    · rw [if_pos hindex, hindex]
      unfold valueAt
      rw [h.index]
      rfl
    · rw [if_neg hindex]
      exact valueAt_congr (h.other k htoken hindex hmeta)

theorem Minted.mono {m : Nat} (h : vault.Minted m r) (hle : m ≤ n) :
    vault.Minted n r :=
  ⟨h.typed, fun t s id v hv => (h.record_drawn t s id v hv).mono hle,
    fun t s segment id hv => (h.index_drawn t s segment id hv).mono hle,
    h.genuine, h.paired⟩

/-- What is live after was live before, with the same value. -/
def Shrinks (vault : RedisTokenVault) (r r' : Redis) : Prop :=
  ∀ k v, vault.valueAt r' k = some v → vault.valueAt r k = some v

theorem Minted.shrinks (h : vault.Minted n r) (hle : vault.Shrinks r r') :
    vault.Minted n r' := by
  refine ⟨?_, ?_, ?_, ?_, ?_⟩
  · intro k e he
    have hlive : vault.valueAt r' k = some e.value :=
      valueAt_eq_some_iff.mpr ⟨e.deadline, he⟩
    obtain ⟨deadline, hbefore⟩ :=
      valueAt_eq_some_iff.mp (hle k e.value hlive)
    have hfits := h.typed k _ hbefore
    exact hfits
  · intro t s id v hv
    exact h.record_drawn t s id v (hle _ _ hv)
  · intro t s segment id hv
    exact h.index_drawn t s segment id (hle _ _ hv)
  · intro t s id v hv
    exact h.genuine t s id v (hle _ _ hv)
  · intro t s segment id v hindex hrecord
    exact h.paired t s segment id v (hle _ _ hindex) (hle _ _ hrecord)

/-- A created pair has a fresh id, and its two halves agree. -/
theorem Minted.created {ttl : Nat} {entry : VaultWriteRequest}
    {c : Candidate} (h : vault.Minted n r)
    (hdistinct : vault.secrets.DistinctBelow (n + 1))
    (hsegment : c.segment =
      vault.indexSegment entry.entityType entry.normalizedHmac)
    (hid : c.id = encodeCrockford (vault.secrets.tokenBytes n))
    (hholds : vault.Holds t s entry.entityType c.id entry.originalValue
      c.raw)
    (hcreated : vault.Created t s ttl c.segment c.id c.raw r r') :
    vault.Minted (n + 1) r' := by
  have hfresh : ∀ id, vault.Drawn n id → id ≠ c.id := by
    intro id hdrawn
    rw [hid]
    exact hdrawn.ne hdistinct (le_refl n)
  have htoken : ∀ t' s' id v,
      vault.valueAt r' (.token t' s' id) = some v →
        ((t', s') = (t, s) ∧ id = c.id ∧ v = .blob c.raw) ∨
          vault.valueAt r (.token t' s' id) = some v := by
    intro t' s' id v hv
    rw [hcreated.values (by simp)] at hv
    by_cases hsame : VaultKey.token t' s' id = .token t s c.id
    · rw [if_pos hsame] at hv
      cases hsame
      cases hv
      exact Or.inl ⟨rfl, rfl, rfl⟩
    · rw [if_neg hsame, if_neg (by simp)] at hv
      exact Or.inr hv
  have hindex : ∀ t' s' segment id,
      vault.valueAt r' (.index t' s' segment) = some (.text id) →
        ((t', s') = (t, s) ∧ segment = c.segment ∧ id = c.id) ∨
          vault.valueAt r (.index t' s' segment) = some (.text id) := by
    intro t' s' segment id hv
    rw [hcreated.values (by simp), if_neg (by simp)] at hv
    by_cases hsame : VaultKey.index t' s' segment = .index t s c.segment
    · rw [if_pos hsame] at hv
      cases hsame
      cases hv
      exact Or.inl ⟨rfl, rfl, rfl⟩
    · rw [if_neg hsame] at hv
      exact Or.inr hv
  have hdrawn : vault.Drawn (n + 1) c.id := ⟨n, Nat.lt_succ_self n, hid⟩
  refine ⟨hcreated.typed hholds.2.1 h.typed, ?_, ?_, ?_, ?_⟩
  · intro t' s' id v hv
    rcases htoken t' s' id v hv with ⟨-, rfl, -⟩ | hold
    · exact hdrawn
    · exact (h.record_drawn _ _ _ _ hold).mono (Nat.le_succ n)
  · intro t' s' segment id hv
    rcases hindex t' s' segment id hv with ⟨-, -, rfl⟩ | hold
    · exact hdrawn
    · exact (h.index_drawn _ _ _ _ hold).mono (Nat.le_succ n)
  · intro t' s' id v hv
    rcases htoken t' s' id v hv with ⟨hsession, rfl, rfl⟩ | hold
    · cases hsession
      exact ⟨_, _, _, rfl, hholds⟩
    · exact h.genuine _ _ _ _ hold
  · intro t' s' segment id v hi hv
    rcases hindex t' s' segment id hi with ⟨hsession, rfl, rfl⟩ | hold
    · cases hsession
      rcases htoken t s c.id v hv with ⟨-, -, rfl⟩ | hrecord
      · exact ⟨_, _, _, _, hsegment, rfl, hholds⟩
      · exact absurd rfl (hfresh _ (h.record_drawn _ _ _ _ hrecord))
    · rcases htoken t' s' id v hv with ⟨-, rfl, -⟩ | hrecord
      · exact absurd rfl (hfresh _ (h.index_drawn _ _ _ _ hold))
      · exact h.paired _ _ _ _ _ hold hrecord

-- ==================================================== the loop

/-- A created pair binds its identity, and no other identity changes. -/
theorem held_created {ttl : Nat} {entry : VaultWriteRequest}
    {c : Candidate} (h : vault.Minted n r)
    (hdistinct : vault.secrets.DistinctBelow (n + 1))
    (hsegment : c.segment =
      vault.indexSegment entry.entityType entry.normalizedHmac)
    (hid : c.id = encodeCrockford (vault.secrets.tokenBytes n))
    (hholds : vault.Holds t s entry.entityType c.id entry.originalValue
      c.raw)
    (hcreated : vault.Created t s ttl c.segment c.id c.raw r r')
    {ty hmac : Text} (hty : isValidEntityType ty = true) :
    vault.held t s r' ty hmac =
      if c.segment = vault.indexSegment ty hmac then
        some entry.originalValue
      else vault.held t s r ty hmac := by
  by_cases hsame : c.segment = vault.indexSegment ty hmac
  · rw [if_pos hsame]
    have htype : entry.entityType = ty :=
      indexSegment_type hholds.1 hty (hsegment.symm.trans hsame)
    refine @Bound.held vault t s r' ty hmac c.id _ ?_
    refine ⟨?_, c.raw, ?_, ?_⟩
    · rw [← hsame, hcreated.values (by simp), if_neg (by simp),
        if_pos rfl]
    · rw [hcreated.values (by simp), if_pos rfl]
    · rw [← htype]
      exact hholds
  · rw [if_neg hsame]
    have hindex : vault.valueAt r'
        (.index t s (vault.indexSegment ty hmac)) =
          vault.valueAt r (.index t s (vault.indexSegment ty hmac)) := by
      rw [hcreated.values (by simp), if_neg (by simp), if_neg]
      intro heq
      injection heq with _ _ heq
      exact hsame heq.symm
    unfold held
    rw [hindex]
    split
    · rename_i id hid'
      have hne : id ≠ c.id := by
        rw [hid]
        exact (h.index_drawn _ _ _ _ hid').ne hdistinct (le_refl n)
      have hrecord : vault.valueAt r' (.token t s id) =
          vault.valueAt r (.token t s id) := by
        rw [hcreated.values (by simp), if_neg (by simpa using hne),
          if_neg (by simp)]
      rw [hrecord]
    · rfl

/-- What was bound before a created pair is bound after it. -/
theorem Bound.created {ttl : Nat} {c : Candidate}
    {ty hmac id original : Text} (h : vault.Minted n r)
    (hbound : vault.Bound t s r ty hmac id original)
    (hdistinct : vault.secrets.DistinctBelow (n + 1))
    (hid : c.id = encodeCrockford (vault.secrets.tokenBytes n))
    (hcreated : vault.Created t s ttl c.segment c.id c.raw r r')
    (hstale : ∀ other e,
      vault.entryAt r (.index t s c.segment) = some e →
        e.value = .text other →
          vault.entryAt r (.token t s other) = none) :
    vault.Bound t s r' ty hmac id original := by
  obtain ⟨hindex, raw, hrecord, hholds⟩ := hbound
  have hsegment : vault.indexSegment ty hmac ≠ c.segment := by
    intro heq
    rw [heq] at hindex
    obtain ⟨deadline, hlive⟩ := valueAt_eq_some_iff.mp hindex
    have hnone := hstale id _ hlive rfl
    unfold valueAt at hrecord
    rw [hnone] at hrecord
    cases hrecord
  have hne : id ≠ c.id := by
    rw [hid]
    exact (h.record_drawn _ _ _ _ hrecord).ne hdistinct (le_refl n)
  refine ⟨?_, raw, ?_, hholds⟩
  · rw [hcreated.values (by simp), if_neg (by simp),
      if_neg (by simpa using hsegment)]
    exact hindex
  · rw [hcreated.values (by simp), if_neg (by simpa using hne),
      if_neg (by simp)]
    exact hrecord

theorem firstOriginal_cons (entry : VaultWriteRequest)
    (entries : List VaultWriteRequest) (ty hmac : Text) :
    vault.firstOriginal (entry :: entries) ty hmac =
      if vault.indexSegment entry.entityType entry.normalizedHmac =
          vault.indexSegment ty hmac then some entry.originalValue
      else vault.firstOriginal entries ty hmac := by
  unfold firstOriginal
  rw [List.find?_cons]
  by_cases h : vault.indexSegment entry.entityType entry.normalizedHmac =
      vault.indexSegment ty hmac
  · rw [if_pos h, decide_eq_true h]
    rfl
  · rw [if_neg h, decide_eq_false h]

/-- What the rounds of a batch leave bound. The invariant of the ids is
kept; what was bound stays bound; an identity holds what it held before,
or else the original of the first entry with it; and every entry's
identity is bound to the id that its round answered. -/
theorem Rounds.bindings {ttl : Nat} {cs : List Candidate}
    {ids : List Text} (h : vault.Rounds t s ttl cs ids r r') :
    ∀ {n : Nat} {entries : List VaultWriteRequest},
      vault.SealedFrom t s n entries cs → vault.Minted n r →
      vault.secrets.DistinctBelow (n + entries.length) →
      vault.Minted (n + entries.length) r' ∧
      (∀ ty hmac id original, vault.Bound t s r ty hmac id original →
        vault.Bound t s r' ty hmac id original) ∧
      (∀ ty hmac, isValidEntityType ty = true →
        vault.held t s r' ty hmac = (vault.held t s r ty hmac).or
          (vault.firstOriginal entries ty hmac)) ∧
      ∀ p ∈ entries.zip ids, ∃ original, vault.Bound t s r'
        p.1.entityType p.1.normalizedHmac p.2 original := by
  induction h with
  | nil r =>
      intro n entries hsealed hminted _
      cases hsealed
      refine ⟨hminted, fun _ _ _ _ hb => hb, ?_, ?_⟩
      · intro ty hmac _
        exact Option.or_none.symm
      · intro p hp
        exact absurd hp (List.not_mem_nil)
  | @reused c cs found ids r q r' head tail ih =>
      intro n entries hsealed hminted hdistinct
      cases hsealed with
      | @cons _ entry entries _ _ hsegment hid hholds hrest =>
          rw [List.length_cons] at hdistinct ⊢
          have hq : vault.Minted (n + 1) q :=
            (hminted.shrinks (fun k v hv => by
              rw [← head.values k]
              exact hv)).mono (Nat.le_succ n)
          obtain ⟨hfinal, hkept, hheld, hids⟩ := ih hrest hq
            (hdistinct.mono (by omega))
          -- the pair that the round found is the entry's
          obtain ⟨e, he, hvalue⟩ := head.index_found
          obtain ⟨e', he'⟩ := head.token_found
          have hindex : vault.valueAt r (.index t s
              (vault.indexSegment entry.entityType
                entry.normalizedHmac)) = some (.text found) := by
            rw [← hsegment]
            unfold valueAt
            rw [he, ← hvalue]
            rfl
          have hrecord : vault.valueAt r (.token t s found) =
              some e'.value := by
            unfold valueAt
            rw [he']
            rfl
          obtain ⟨original, hbound⟩ :=
            hminted.bound hholds.1 hindex hrecord
          have hcarry : ∀ ty hmac id original,
              vault.Bound t s r ty hmac id original →
                vault.Bound t s q ty hmac id original := by
            intro ty hmac id original hb
            obtain ⟨h1, raw, h2, h3⟩ := hb
            exact ⟨(head.values _).trans h1, raw,
              (head.values _).trans h2, h3⟩
          refine ⟨?_, ?_, ?_, ?_⟩
          · rw [Nat.add_right_comm] at hfinal
            exact hfinal
          · intro ty hmac id original hb
            exact hkept _ _ _ _ (hcarry _ _ _ _ hb)
          · intro ty hmac hty
            rw [hheld ty hmac hty, held_congr head.values,
              firstOriginal_cons]
            by_cases hsame : vault.indexSegment entry.entityType
                entry.normalizedHmac = vault.indexSegment ty hmac
            · have hsome : vault.held t s r ty hmac = some original := by
                have htype := indexSegment_type hholds.1 hty hsame
                refine @Bound.held vault t s r ty hmac found _ ?_
                obtain ⟨h1, raw, h2, h3⟩ := hbound
                rw [hsame] at h1
                rw [htype] at h3
                exact ⟨h1, raw, h2, h3⟩
              rw [hsome]
              rfl
            · rw [if_neg hsame]
          · intro p hp
            rw [List.zip_cons_cons] at hp
            rcases List.mem_cons.mp hp with rfl | hp
            · exact ⟨original, hkept _ _ _ _ (hcarry _ _ _ _ hbound)⟩
            · exact hids p hp
  | @created c cs ids r q r' head stale tail ih =>
      intro n entries hsealed hminted hdistinct
      cases hsealed with
      | @cons _ entry entries _ _ hsegment hid hholds hrest =>
          rw [List.length_cons] at hdistinct ⊢
          have hone := hdistinct.mono (m := n + 1) (by omega)
          have hq := hminted.created hone hsegment hid hholds head
          obtain ⟨hfinal, hkept, hheld, hids⟩ := ih hrest hq
            (hdistinct.mono (by omega))
          have hstep := fun ty hmac hty => @held_created vault t s r q n
            ttl entry c hminted hone hsegment hid hholds head ty hmac hty
          refine ⟨?_, ?_, ?_, ?_⟩
          · rw [Nat.add_right_comm] at hfinal
            exact hfinal
          · intro ty hmac id original hb
            exact hkept _ _ _ _ (hb.created hminted hone hid head stale)
          · intro ty hmac hty
            rw [hheld ty hmac hty, hstep ty hmac hty, firstOriginal_cons,
              hsegment]
            by_cases hsame : vault.indexSegment entry.entityType
                entry.normalizedHmac = vault.indexSegment ty hmac
            · -- nothing was held: a live pair would have been reused
              have hnone : vault.held t s r ty hmac = none := by
                unfold held
                rw [← hsame, ← hsegment]
                split
                · rename_i id hid'
                  obtain ⟨deadline, hlive⟩ := valueAt_eq_some_iff.mp hid'
                  have hgone := stale id _ hlive rfl
                  unfold valueAt
                  rw [hgone]
                  rfl
                · rfl
              rw [if_pos hsame, if_pos hsame, hnone]
              rfl
            · rw [if_neg hsame, if_neg hsame]
          · intro p hp
            rw [List.zip_cons_cons] at hp
            rcases List.mem_cons.mp hp with rfl | hp
            · refine ⟨entry.originalValue, hkept _ _ _ _ ?_⟩
              refine ⟨?_, c.raw, ?_, hholds⟩
              · rw [← hsegment, head.values (by simp), if_neg (by simp),
                  if_pos rfl]
              · rw [head.values (by simp), if_pos rfl]
            · exact hids p hp

-- ==================================================== batches

/-- Two requests name one identity. -/
def SameIdentity (a b : VaultWriteRequest) : Prop :=
  a.entityType = b.entityType ∧ a.normalizedHmac = b.normalizedHmac

/-- The dedup loop: it appends to both its lists; each entry's position
holds an entry of its identity; and a search by identity finds among the
kept entries what it finds among all. -/
theorem deduplicateFrom_spec (entries : List VaultWriteRequest) :
    ∀ (seen : Dict (Text × Text) Nat) (unique : List VaultWriteRequest)
      (positions : List Nat),
      (∀ ty hmac index, seen.get? (ty, hmac) = some index →
        ∃ u, unique[index]? = some u ∧ u.entityType = ty ∧
          u.normalizedHmac = hmac) →
      ∃ more found, deduplicateFrom seen unique positions entries =
          (unique ++ more, positions ++ found) ∧
        List.Forall₂ (fun entry index => ∃ u,
          (unique ++ more)[index]? = some u ∧ SameIdentity u entry)
          entries found ∧
        ∀ p : VaultWriteRequest → Bool,
          (∀ a b, SameIdentity a b → p a = p b) →
            (unique ++ more).find? p = (unique ++ entries).find? p := by
  induction entries with
  | nil =>
      intro seen unique positions _
      refine ⟨[], [], ?_, .nil, fun p _ => rfl⟩
      rw [List.append_nil, List.append_nil]
      rfl
  | cons entry entries ih =>
      intro seen unique positions hseen
      unfold deduplicateFrom
      simp only
      cases hget : seen.get? (entry.entityType, entry.normalizedHmac) with
      | some index =>
          obtain ⟨u, hu, hty, hhmac⟩ := hseen _ _ _ hget
          have hsame : SameIdentity u entry := ⟨hty, hhmac⟩
          obtain ⟨more, found, hrun, hall, hfind⟩ :=
            ih seen unique (positions ++ [index]) hseen
          refine ⟨more, index :: found, ?_, .cons ⟨u, ?_, hsame⟩ hall, ?_⟩
          · show deduplicateFrom seen unique (positions ++ [index])
              entries = _
            rw [hrun, List.append_assoc, List.singleton_append]
          · rw [List.getElem?_append_left
              (List.getElem?_eq_some_iff.mp hu).1]
            exact hu
          · intro p hp
            rw [hfind p hp, List.find?_append, List.find?_append]
            -- the repeat is found only where its first occurrence is
            cases hfirst : unique.find? p with
            | some v => rfl
            | none =>
                have hnot := List.find?_eq_none.mp hfirst u
                  (List.mem_of_getElem? hu)
                rw [hp u entry hsame] at hnot
                rw [List.find?_cons_of_neg hnot]
      | none =>
          obtain ⟨more, found, hrun, hall, hfind⟩ := ih
            (seen.set (entry.entityType, entry.normalizedHmac)
              unique.length) (unique ++ [entry])
            (positions ++ [unique.length]) (by
              intro ty hmac index hindex
              rw [Dict.get?_set] at hindex
              by_cases hkey : (entry.entityType, entry.normalizedHmac) =
                  (ty, hmac)
              · rw [if_pos hkey] at hindex
                cases hindex
                obtain ⟨hty, hhmac⟩ := Prod.mk.inj hkey
                exact ⟨entry, by simp, hty, hhmac⟩
              · rw [if_neg hkey] at hindex
                obtain ⟨u, hu, hrest⟩ := hseen _ _ _ hindex
                refine ⟨u, ?_, hrest⟩
                rw [List.getElem?_append_left
                  (List.getElem?_eq_some_iff.mp hu).1]
                exact hu)
          refine ⟨entry :: more, unique.length :: found, ?_,
            .cons ⟨entry, ?_, rfl, rfl⟩ ?_, ?_⟩
          · show deduplicateFrom (seen.set
              (entry.entityType, entry.normalizedHmac) unique.length)
              (unique ++ [entry]) (positions ++ [unique.length])
              entries = _
            rw [hrun, List.append_assoc, List.append_assoc,
              List.singleton_append, List.singleton_append]
          · simp
          · rw [List.append_assoc, List.singleton_append] at hall
            exact hall
          · intro p hp
            have hsearch := hfind p hp
            rw [List.append_assoc, List.append_assoc,
              List.singleton_append, List.singleton_append] at hsearch
            exact hsearch

theorem firstOriginal_deduplicate (entries : List VaultWriteRequest)
    (ty hmac : Text) :
    vault.firstOriginal (deduplicate entries).1 ty hmac =
      vault.firstOriginal entries ty hmac := by
  obtain ⟨more, found, hrun, -, hfind⟩ := deduplicateFrom_spec entries
    [] [] [] (fun _ _ _ h => by cases h)
  have hunique : (deduplicate entries).1 = [] ++ more :=
    congrArg Prod.fst hrun
  unfold firstOriginal
  rw [hunique, hfind]
  · rfl
  · intro a b hab
    rw [hab.1, hab.2]

/-- What holds of each unique entry and the id the script answered for it
holds of every entry and the id its token renders. -/
theorem Batched.pointwise {entries : List VaultWriteRequest} {ttl : Nat}
    {cs : List Candidate} {ids : List Text} {w w' : World}
    {tokens : List Text} {Q : VaultWriteRequest → Text → Prop}
    (h : vault.Batched t s entries ttl cs ids w w' tokens)
    (hq : ∀ p ∈ (deduplicate entries).1.zip ids, Q p.1 p.2) :
    List.Forall₂ (fun entry token => ∃ u id, SameIdentity u entry ∧
      token = renderToken entry.entityType id ∧ Q u id)
      entries tokens := by
  obtain ⟨more, found, hrun, hall, -⟩ := deduplicateFrom_spec entries
    [] [] [] (fun _ _ _ h => by cases h)
  have hpair : deduplicate entries = (more, found) := hrun
  have htokens := h.tokens_eq
  have hlength := h.length_eq.trans h.candidates_sealed.length_eq
  rw [hpair] at htokens hlength hq
  rw [htokens, List.forall₂_map_right_iff]
  refine hall.imp ?_
  intro entry index hentry
  obtain ⟨u, hu, hsame⟩ := hentry
  obtain ⟨hlt, hget⟩ := List.getElem?_eq_some_iff.mp hu
  have hid : index < ids.length := by
    rw [hlength]
    exact hlt
  refine ⟨u, ids[index], hsame, ?_, ?_⟩
  · unfold tokensOf
    rw [List.getD_eq_getElem?_getD, List.getElem?_zipWith]
    have hu' : more[index]? = some u := hu
    rw [hu', List.getElem?_eq_getElem hid, ← hsame.1]
    rfl
  · apply hq (u, ids[index])
    rw [List.mem_iff_getElem]
    refine ⟨index, ?_, ?_⟩
    · rw [List.length_zip]
      exact Nat.lt_min.mpr ⟨hlt, hid⟩
    · rw [List.getElem_zip, ← hget]
      rfl

/-- What a batch leaves bound: the original an identity held before, or
that of the batch's first entry with it; and every entry's token is the
rendering of the id its identity is bound to. -/
theorem Batched.bindings {entries : List VaultWriteRequest} {ttl : Nat}
    {cs : List Candidate} {ids : List Text} {w w' : World}
    {tokens : List Text}
    (h : vault.Batched t s entries ttl cs ids w w' tokens)
    (hminted : vault.Minted w.idsDrawn w.redis)
    (hdistinct : vault.secrets.DistinctBelow w'.idsDrawn) :
    vault.Minted w'.idsDrawn w'.redis ∧
    (∀ ty hmac, isValidEntityType ty = true →
      vault.held t s w'.redis ty hmac =
        (vault.held t s w.redis ty hmac).or
          (vault.firstOriginal entries ty hmac)) ∧
    List.Forall₂ (fun entry token => ∃ id original,
      token = renderToken entry.entityType id ∧
      vault.Bound t s w'.redis entry.entityType entry.normalizedHmac id
        original) entries tokens := by
  obtain ⟨q, hrounds, htouched⟩ := h.scripted
  rw [h.drawn_eq] at hdistinct ⊢
  obtain ⟨hfinal, -, hheld, hids⟩ :=
    hrounds.bindings h.candidates_sealed hminted hdistinct
  refine ⟨hfinal.shrinks ?_, ?_, ?_⟩
  · intro k v hv
    rw [← htouched.values k]
    exact hv
  · intro ty hmac hty
    rw [held_congr htouched.values, hheld ty hmac hty,
      firstOriginal_deduplicate]
  · refine (h.pointwise (Q := fun u id => ∃ original, vault.Bound t s q
      u.entityType u.normalizedHmac id original) hids).imp ?_
    intro entry token hentry
    obtain ⟨u, id, hsame, htoken, original, hindex, raw, hrecord,
      hholds⟩ := hentry
    rw [hsame.1, hsame.2] at hindex
    rw [hsame.1] at hholds
    exact ⟨id, original, htoken, (htouched.values _).trans hindex, raw,
      (htouched.values _).trans hrecord, hholds⟩

end RedisTokenVault

end PrivacyGateway.Vault
