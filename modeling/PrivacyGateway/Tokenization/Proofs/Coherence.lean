/-
Tokens and values over a whole session.

`Logged` is the invariant of a run of transforms: the vault's index keys
and records are coherent, every returned mapping has a drawn id, the
record under that id, where there is one, holds a value of the mapping's
type and normal form, and two mappings of one session with one id agree on
both. A transform keeps it (`Logged.protect`): a mapping it returns has a
fresh id, or the id of a live record that was written for its own
identity.

What is assumed of the hash functions is that none of the identities that
the run fingerprints collide (`Collisionless`), and of the draws that no
two ids coincide.
-/
import PrivacyGateway.Tokenization.Proofs.Mint
import PrivacyGateway.Tokenization.Sessions
import PrivacyGateway.Vault.Proofs.Coherence

namespace PrivacyGateway.Tokenization

open Effect Splice Vault RedisTokenVault

-- ==================================================== one transform

section Transform

variable {unicode : Unicode} {hashes : Hashes}
  {fingerprinter : Fingerprinter} {t s : UUID} {text : Text}
  {entities : List DetectedEntity} {policy : PolicySnapshot}

/-- Selected spans are detections. -/
theorem Plans.mem_entities {selected : List DetectedEntity}
    (h : Plans text entities policy selected) :
    ∀ e ∈ selected, e ∈ entities := by
  obtain ⟨-, rfl⟩ := selectEntities_ok_iff.mp h.selects
  intro e he
  exact List.mem_of_mem_filter (mem_of_mem_resolveOverlaps he)

/-- A request for a detection of the text, with its fingerprint. -/
def Requested (unicode : Unicode) (hashes : Hashes)
    (fingerprinter : Fingerprinter) (t s : UUID) (text : Text)
    (entities : List DetectedEntity) (entry : VaultWriteRequest) : Prop :=
  identityOf unicode hashes fingerprinter t s entry.entityType
      entry.originalValue = .ok entry.normalizedHmac ∧
    ∃ e ∈ entities, e.entityType = entry.entityType ∧
      slice text e.start e.stop = entry.originalValue

theorem pendings_requested {selected : List DetectedEntity}
    {pendings : List Pending}
    (hplans : Plans text entities policy selected)
    (hpending : pendingOf unicode hashes fingerprinter t s text
      (withActions policy selected).zipIdx = .ok pendings) :
    ∀ entry ∈ pendings.map Pending.request,
      Requested unicode hashes fingerprinter t s text entities entry := by
  intro entry hentry
  obtain ⟨p, hp, rfl⟩ := List.mem_map.mp hentry
  obtain ⟨e, he, hty, horiginal, hidentity⟩ :=
    Aligned.exists_left (mappedSpans_awaited hpending) hp
  exact ⟨hidentity, e,
    hplans.mem_entities e (mem_mappedSpans.mp he).1, hty.symm,
    horiginal.symm⟩

/-- A mapping made of an entry and the token that was returned for it. -/
structure Pairs (entries : List VaultWriteRequest) (tokens : List Text)
    (m : EntityMapping) (entry : VaultWriteRequest) (token : Text) :
    Prop where
  mem : (entry, token) ∈ entries.zip tokens
  type_eq : m.entityType = entry.entityType
  original_eq : m.originalValue = entry.originalValue
  hmac_eq : m.normalizedHmac = entry.normalizedHmac
  token_eq : ∀ id, isValidEntityType entry.entityType = true →
    isValidTokenId id = true → token = renderToken entry.entityType id →
      m.token = token ∧ m.tokenId = id

/-- A transform made no call, or one for requested entries, and every
mapping it returned pairs one of them with its token. -/
theorem transform_calls {σ : Type} {vault : VaultLike σ} {w w' : σ}
    {result : Except Exn TransformedText}
    (h : runIn (transform unicode hashes fingerprinter vault t s text
      entities policy) w = (result, w')) :
    (w' = w ∧ ∀ out, result = .ok out → out.mappings = []) ∨
    ∃ entries answer, (∀ entry ∈ entries,
        Requested unicode hashes fingerprinter t s text entities entry) ∧
      runIn (vault.getOrCreateMany t s entries policy.sessionTtlSeconds)
        w = (answer, w') ∧
      ∀ out, result = .ok out → ∃ tokens, answer = .ok tokens ∧
        ∀ m ∈ out.mappings, ∃ entry token, Pairs entries tokens m entry
          token := by
  cases result with
  | ok out =>
      obtain ⟨selected, minted, hplans, hmint, -, -, hmappings, -⟩ :=
        transform_ok h
      obtain ⟨pendings, hpending, hcase⟩ := mint_ok hmint
      rcases hcase with ⟨-, rfl, rfl⟩ | ⟨tokens, hcall, hpairs, -⟩
      · left
        refine ⟨rfl, ?_⟩
        intro out' hout
        cases hout
        rw [hmappings, List.filterMap_eq_nil_iff]
        intro item _
        rfl
      · right
        refine ⟨_, _, pendings_requested hplans hpending, hcall, ?_⟩
        intro out' hout
        cases hout
        refine ⟨tokens, rfl, ?_⟩
        intro m hm
        rw [hmappings] at hm
        obtain ⟨item, hitem, hget⟩ := List.mem_filterMap.mp hm
        obtain ⟨-, p, token, hzip, -, hmapping⟩ :=
          mappingsFor_awaits hpending hpairs hitem hget
        obtain ⟨hty, horiginal, hhmac, -⟩ := mappingFor_ok hmapping
        refine ⟨p.request, token, ?_, hty, horiginal, hhmac, ?_⟩
        · rw [List.zip_map_left]
          exact List.mem_map.mpr ⟨(p, token), hzip, rfl⟩
        · intro id hvalid hid htoken
          rw [htoken] at hmapping
          rw [htoken]
          exact mappingFor_render hvalid hid hmapping
  | error e =>
      unfold transform at h
      cases hplan : planFor text entities policy with
      | error e' =>
          rw [hplan, checked_bind_error] at h
          cases h
          exact Or.inl ⟨rfl, fun out hout => by cases hout⟩
      | ok plan =>
          rw [hplan, checked_bind_ok] at h
          obtain ⟨selected, hplans, rfl⟩ := planFor_ok_iff.mp hplan
          -- the mint raised, or what came after it did
          have hmint : ∃ result', runIn (mint unicode hashes fingerprinter
              t s vault text (withActions policy selected)
              policy.sessionTtlSeconds) w = (result', w') := by
            rcases bind_error_iff.mp h with h | ⟨minted, u, hmint, h⟩
            · exact ⟨_, h⟩
            · rcases bind_error_iff.mp h with h | ⟨spliced, v, -, h⟩
              · rw [runIn_checked] at h
                obtain ⟨-, rfl⟩ := Prod.mk.inj h
                exact ⟨_, hmint⟩
              · cases h
          obtain ⟨result', hmint⟩ := hmint
          rcases mint_calls hmint with rfl |
            ⟨pendings, answer, hpending, hcall⟩
          · exact Or.inl ⟨rfl, fun out hout => by cases hout⟩
          · exact Or.inr ⟨_, answer, pendings_requested hplans hpending,
              hcall, fun out hout => by cases hout⟩

end Transform

-- ==================================================== identities

section Run

variable {vault : RedisTokenVault} {unicode : Unicode}
  {fingerprinter : Fingerprinter} {t s : UUID} {n : Nat} {r r' : Redis}

/-- The identity of a value in a session. -/
def identityIn (unicode : Unicode) (t s : UUID) (ty value : Text) :
    Identity :=
  ⟨t, s, ty, normalize unicode ty value⟩

/-- No two of the identities collide, as fingerprints or as the digests
that name these. -/
structure Collisionless (vault : RedisTokenVault)
    (fingerprinter : Fingerprinter) (known : List Identity) : Prop where
  fingerprints : ∀ a ∈ known, ∀ b ∈ known, ∀ hmac,
    a.fingerprint fingerprinter vault.hashes = .ok hmac →
      b.fingerprint fingerprinter vault.hashes = .ok hmac → a = b
  digests : ∀ a ∈ known, ∀ b ∈ known, ∀ hmac hmac',
    a.fingerprint fingerprinter vault.hashes = .ok hmac →
      b.fingerprint fingerprinter vault.hashes = .ok hmac' →
        vault.indexDigest hmac = vault.indexDigest hmac' → hmac = hmac'

/-- The fingerprint is that of the value, and the value's identity is a
known one. -/
def OfKnown (vault : RedisTokenVault) (unicode : Unicode)
    (fingerprinter : Fingerprinter) (known : List Identity) :
    Fingerprinted :=
  fun t s ty value hmac =>
    identityIn unicode t s ty value ∈ known ∧
      identityOf unicode vault.hashes fingerprinter t s ty value = .ok hmac

variable {known : List Identity}

/-- An identity is bound to an original of its own normal form. -/
theorem normalForm_of_bound
    (hcollision : Collisionless vault fingerprinter known)
    (hcoherent : vault.Coherent (OfKnown vault unicode fingerprinter known)
      n r) {ty hmac id original value : Text}
    (hof : OfKnown vault unicode fingerprinter known t s ty value hmac)
    (hbound : vault.Bound t s r ty hmac id original) :
    normalize unicode ty original = normalize unicode ty value := by
  obtain ⟨hindex, raw, hrecord, hholds⟩ := hbound
  obtain ⟨ty', hmac', original', raw', hsegment, hraw, hholds', hof'⟩ :=
    hcoherent.record_of _ _ _ _ _ hindex hrecord
  cases hraw
  obtain ⟨rfl, rfl⟩ := hholds.unique hholds'
  unfold indexSegment at hsegment
  have hdigest := (List.cons.inj (List.append_cancel_left hsegment)).2
  have hsame := hcollision.digests _ hof.1 _ hof'.1 hmac hmac' hof.2
    hof'.2 hdigest
  rw [← hsame] at hof'
  have hidentity :=
    hcollision.fingerprints _ hof'.1 _ hof.1 hmac hof'.2 hof.2
  exact congrArg Identity.normalForm hidentity

-- ==================================================== the invariant

/-- Two values are one to the tokenizer. -/
def SameValue (unicode : Unicode) (a b : EntityMapping) : Prop :=
  a.entityType = b.entityType ∧
    normalize unicode a.entityType a.originalValue =
      normalize unicode b.entityType b.originalValue

/-- A returned mapping: its token is well formed, its id was drawn, its
fingerprint is that of its value, and a record under its id holds a value
of its type and normal form. -/
structure Kept (vault : RedisTokenVault) (unicode : Unicode)
    (fingerprinter : Fingerprinter) (known : List Identity) (n : Nat)
    (r : Redis) (em : Emission) : Prop where
  type_valid : isValidEntityType em.mapping.entityType = true
  id_valid : isValidTokenId em.mapping.tokenId = true
  token_eq : em.mapping.token =
    renderToken em.mapping.entityType em.mapping.tokenId
  drawn : vault.Drawn n em.mapping.tokenId
  of_known : OfKnown vault unicode fingerprinter known em.tenantId
    em.sessionId em.mapping.entityType em.mapping.originalValue
    em.mapping.normalizedHmac
  record : ∀ v, vault.valueAt r (.token em.tenantId em.sessionId
      em.mapping.tokenId) = some v →
    ∃ original raw, v = .blob raw ∧
      vault.Holds em.tenantId em.sessionId em.mapping.entityType
        em.mapping.tokenId original raw ∧
      normalize unicode em.mapping.entityType original =
        normalize unicode em.mapping.entityType em.mapping.originalValue

/-- The invariant of a run. -/
structure Logged (vault : RedisTokenVault) (unicode : Unicode)
    (fingerprinter : Fingerprinter) (known : List Identity)
    (st : SessionState) : Prop where
  coherent : vault.Coherent (OfKnown vault unicode fingerprinter known)
    st.world.idsDrawn st.world.redis
  kept : ∀ em ∈ st.emitted, Kept vault unicode fingerprinter known
    st.world.idsDrawn st.world.redis em
  same : ∀ em ∈ st.emitted, ∀ em' ∈ st.emitted,
    em.tenantId = em'.tenantId → em.sessionId = em'.sessionId →
      em.mapping.tokenId = em'.mapping.tokenId →
        SameValue unicode em.mapping em'.mapping

theorem Kept.later {m : Nat} {em : Emission}
    (h : Kept vault unicode fingerprinter known n r em) (hle : n ≤ m)
    (hcarries : ∀ v, vault.valueAt r' (.token em.tenantId em.sessionId
        em.mapping.tokenId) = some v →
      vault.valueAt r (.token em.tenantId em.sessionId
        em.mapping.tokenId) = some v) :
    Kept vault unicode fingerprinter known m r' em :=
  ⟨h.type_valid, h.id_valid, h.token_eq, h.drawn.mono hle, h.of_known,
    fun v hv => h.record v (hcarries v hv)⟩

/-- What a batch leaves of a mapping that it answered. -/
theorem kept_of_bound
    (hcollision : Collisionless vault fingerprinter known)
    (hcoherent : vault.Coherent (OfKnown vault unicode fingerprinter known)
      n r) {m : EntityMapping} {original : Text}
    (htoken : m.token = renderToken m.entityType m.tokenId)
    (hof : OfKnown vault unicode fingerprinter known t s m.entityType
      m.originalValue m.normalizedHmac)
    (hbound : vault.Bound t s r m.entityType m.normalizedHmac m.tokenId
      original) :
    Kept vault unicode fingerprinter known n r ⟨t, s, m⟩ := by
  have hform := normalForm_of_bound hcollision hcoherent hof hbound
  obtain ⟨hindex, raw, hrecord, hholds⟩ := hbound
  refine ⟨hholds.1, hholds.2.1, htoken,
    hcoherent.minted.record_drawn _ _ _ _ hrecord, hof, ?_⟩
  intro v hv
  cases hrecord.symm.trans hv
  exact ⟨original, raw, rfl, hholds, hform⟩

/-- Two mappings with one id in one session, and a live record there, are
of one value. -/
theorem Kept.same {em em' : Emission}
    (h : Kept vault unicode fingerprinter known n r em)
    (h' : Kept vault unicode fingerprinter known n r em')
    (htenant : em.tenantId = em'.tenantId)
    (hsession : em.sessionId = em'.sessionId)
    (hid : em.mapping.tokenId = em'.mapping.tokenId) {v : RedisValue}
    (hlive : vault.valueAt r (.token em.tenantId em.sessionId
      em.mapping.tokenId) = some v) :
    SameValue unicode em.mapping em'.mapping := by
  obtain ⟨original, raw, rfl, hholds, hform⟩ := h.record v hlive
  rw [htenant, hsession, hid] at hlive hholds
  obtain ⟨original', raw', hraw, hholds', hform'⟩ := h'.record _ hlive
  cases hraw
  obtain ⟨hty, horiginal⟩ := hholds.unique hholds'
  refine ⟨hty.symm, ?_⟩
  rw [← hform, ← hform', hty, horiginal]

-- ==================================================== steps

section Steps

variable {st : SessionState} {text : Text} {entities : List DetectedEntity}
  {policy : PolicySnapshot}

/-- All a transform can do: write nothing and return no mapping, or run
one batch of requested entries and return mappings that pair these with
their tokens. -/
theorem sessionStep_protect (htyped : vault.Typed st.world.redis) :
    let st' := sessionStep vault unicode fingerprinter st
      (.protect t s text entities policy)
    (st'.world.redis = st.world.redis ∧
      st.world.idsDrawn ≤ st'.world.idsDrawn ∧
      st'.emitted = st.emitted) ∨
    ∃ entries ttl cs ids tokens, ∃ ms : List EntityMapping,
      (∀ entry ∈ entries, Requested unicode vault.hashes fingerprinter t s
        text entities entry) ∧
      vault.Batched t s entries ttl cs ids st.world st'.world tokens ∧
      st'.emitted = st.emitted ++ ms.map (Emission.mk t s) ∧
      ∀ m ∈ ms, ∃ entry token, Pairs entries tokens m entry token := by
  intro st'
  cases hrun : runIn (transform unicode vault.hashes fingerprinter
      vault.like t s text entities policy) st.world with
  | mk result w' =>
      -- the mappings that were returned, none for a transform that raised
      obtain ⟨ms, hworld, hemitted, hms⟩ : ∃ ms : List EntityMapping,
          st'.world = w' ∧
          st'.emitted = st.emitted ++ ms.map (Emission.mk t s) ∧
          (ms = [] ∨ ∃ out, result = .ok out ∧ ms = out.mappings) := by
        cases result with
        | ok out =>
            refine ⟨out.mappings, ?_, ?_, Or.inr ⟨out, rfl, rfl⟩⟩
            · show (sessionStep _ _ _ _ _).world = _
              unfold sessionStep
              simp only [hrun]
            · show (sessionStep _ _ _ _ _).emitted = _
              unfold sessionStep
              simp only [hrun]
        | error e =>
            refine ⟨[], ?_, ?_, Or.inl rfl⟩
            · show (sessionStep _ _ _ _ _).world = _
              unfold sessionStep
              simp only [hrun]
            · show (sessionStep _ _ _ _ _).emitted = _
              unfold sessionStep
              simp only [hrun, List.map_nil, List.append_nil]
      rw [hworld, hemitted]
      rcases transform_calls hrun with
        ⟨rfl, hnone⟩ | ⟨entries, answer, hrequested, hcall, hpairs⟩
      · left
        refine ⟨rfl, le_refl _, ?_⟩
        rcases hms with rfl | ⟨out, rfl, rfl⟩
        · exact List.append_nil _
        · rw [hnone out rfl]
          exact List.append_nil _
      · have hall : ∀ m ∈ ms, ∃ tokens, answer = .ok tokens ∧
            ∃ entry token, Pairs entries tokens m entry token := by
          intro m hm
          rcases hms with rfl | ⟨out, rfl, rfl⟩
          · exact absurd hm (List.not_mem_nil)
          · obtain ⟨tokens, htokens, hmappings⟩ := hpairs out rfl
            exact ⟨tokens, htokens, hmappings m hm⟩
        rcases getOrCreateMany_cases htyped hcall with
          ⟨hredis, hdrawn, hempty⟩ | ⟨ttl, cs, ids, tokens, -, rfl, hb⟩
        · left
          refine ⟨hredis, hdrawn, ?_⟩
          cases ms with
          | nil => exact List.append_nil _
          | cons m ms =>
              obtain ⟨tokens, htokens, entry, token, hpair⟩ :=
                hall m List.mem_cons_self
              have hmem := hpair.mem
              rw [(hempty tokens htokens).2] at hmem
              cases hmem
        · right
          refine ⟨entries, ttl, cs, ids, tokens, ms, hrequested, hb, rfl,
            ?_⟩
          intro m hm
          obtain ⟨tokens', htokens, hpair⟩ := hall m hm
          cases htokens
          exact hpair

/-- A paired mapping is bound after the batch. -/
theorem Pairs.bound {entries : List VaultWriteRequest} {ttl : Nat}
    {cs : List Candidate} {ids : List Text} {w w' : World}
    {tokens : List Text} {m : EntityMapping} {entry : VaultWriteRequest}
    {token : Text} (hpair : Pairs entries tokens m entry token)
    (hb : vault.Batched t s entries ttl cs ids w w' tokens)
    (hminted : vault.Minted w.idsDrawn w.redis)
    (hdistinct : vault.secrets.DistinctBelow w'.idsDrawn) :
    m.token = renderToken m.entityType m.tokenId ∧
      ∃ original, vault.Bound t s w'.redis m.entityType m.normalizedHmac
        m.tokenId original := by
  obtain ⟨-, -, hall⟩ := hb.bindings hminted hdistinct
  obtain ⟨id, original, htoken, hbound⟩ := List.forall₂_zip hall hpair.mem
  have hholds := hbound.2.choose_spec.2
  obtain ⟨hsame, hid⟩ := hpair.token_eq id hholds.1 hholds.2.1 htoken
  rw [hsame, hid, hpair.type_eq, hpair.hmac_eq]
  exact ⟨htoken, original, hbound⟩

theorem Pairs.of_known {entries : List VaultWriteRequest}
    {tokens : List Text} {m : EntityMapping} {entry : VaultWriteRequest}
    {token : Text} (hpair : Pairs entries tokens m entry token)
    (hof : ∀ entry ∈ entries, OfKnown vault unicode fingerprinter known t s
      entry.entityType entry.originalValue entry.normalizedHmac) :
    OfKnown vault unicode fingerprinter known t s m.entityType
      m.originalValue m.normalizedHmac := by
  rw [hpair.type_eq, hpair.original_eq, hpair.hmac_eq]
  exact hof entry (List.of_mem_zip hpair.mem).1

/-- Requested entries are of known identities. -/
theorem Requested.of_known
    (hknown : ∀ identity ∈ (SessionOp.protect t s text entities
      policy).identities unicode, identity ∈ known)
    {entry : VaultWriteRequest}
    (h : Requested unicode vault.hashes fingerprinter t s text entities
      entry) :
    OfKnown vault unicode fingerprinter known t s entry.entityType
      entry.originalValue entry.normalizedHmac := by
  obtain ⟨hidentity, e, he, hty, hslice⟩ := h
  refine ⟨hknown _ ?_, hidentity⟩
  unfold SessionOp.identities identityIn
  refine List.mem_map.mpr ⟨e, he, ?_⟩
  rw [hty, hslice]

/-- A step that only takes values away keeps the invariant. -/
theorem Logged.shrinks {st' : SessionState}
    (h : Logged vault unicode fingerprinter known st)
    (hle : vault.Shrinks st.world.redis st'.world.redis)
    (hdrawn : st.world.idsDrawn ≤ st'.world.idsDrawn)
    (hemitted : st'.emitted = st.emitted) :
    Logged vault unicode fingerprinter known st' := by
  refine ⟨(h.coherent.shrinks hle).mono hdrawn, ?_, ?_⟩
  · rw [hemitted]
    exact fun em hem => (h.kept em hem).later hdrawn
      (fun v hv => hle _ _ hv)
  · rw [hemitted]
    exact h.same

/-- A transform keeps the invariant. -/
theorem Logged.protect
    (h : Logged vault unicode fingerprinter known st)
    (hcollision : Collisionless vault fingerprinter known)
    (hknown : ∀ identity ∈ (SessionOp.protect t s text entities
      policy).identities unicode, identity ∈ known)
    (hdistinct : vault.secrets.DistinctBelow (sessionStep vault unicode
      fingerprinter st (.protect t s text entities
        policy)).world.idsDrawn) :
    Logged vault unicode fingerprinter known (sessionStep vault unicode
      fingerprinter st (.protect t s text entities policy)) := by
  have hstep := @sessionStep_protect vault unicode fingerprinter t s st text
    entities policy h.coherent.minted.typed
  generalize sessionStep vault unicode fingerprinter st
    (.protect t s text entities policy) = st' at hdistinct hstep ⊢
  rcases hstep with ⟨hredis, hdrawn, hemitted⟩ |
    ⟨entries, ttl, cs, ids, tokens, ms, hrequested, hb, hemitted, hpairs⟩
  · apply h.shrinks _ hdrawn hemitted
    rw [hredis]
    exact fun k v hv => hv
  · have hof := fun entry hentry =>
      (hrequested entry hentry).of_known hknown
    have hcoherent := hb.coherent h.coherent hdistinct hof
    have hmore : st.world.idsDrawn ≤ st'.world.idsDrawn := by
      rw [hb.drawn_eq]
      exact Nat.le_add_right _ _
    have hold : ∀ em ∈ st.emitted, Kept vault unicode fingerprinter known
        st'.world.idsDrawn st'.world.redis em := by
      intro em hem
      have hkept := h.kept em hem
      exact hkept.later hmore
        (fun v hv => hb.carries hdistinct hkept.drawn hv)
    have hnew : ∀ m ∈ ms, Kept vault unicode fingerprinter known
        st'.world.idsDrawn st'.world.redis ⟨t, s, m⟩ ∧
        ∃ v, vault.valueAt st'.world.redis (.token t s m.tokenId) =
          some v := by
      intro m hm
      obtain ⟨entry, token, hpair⟩ := hpairs m hm
      obtain ⟨htoken, original, hbound⟩ :=
        hpair.bound hb h.coherent.minted hdistinct
      refine ⟨kept_of_bound hcollision hcoherent htoken
        (hpair.of_known hof) hbound, ?_⟩
      obtain ⟨-, raw, hrecord, -⟩ := hbound
      exact ⟨_, hrecord⟩
    have hcases : ∀ em ∈ st'.emitted, em ∈ st.emitted ∨
        ∃ m ∈ ms, em = ⟨t, s, m⟩ := by
      intro em hem
      rw [hemitted] at hem
      rcases List.mem_append.mp hem with hem | hem
      · exact Or.inl hem
      · obtain ⟨m, hm, rfl⟩ := List.mem_map.mp hem
        exact Or.inr ⟨m, hm, rfl⟩
    have hkept : ∀ em ∈ st'.emitted, Kept vault unicode fingerprinter known
        st'.world.idsDrawn st'.world.redis em := by
      intro em hem
      rcases hcases em hem with hem | ⟨m, hm, rfl⟩
      · exact hold em hem
      · exact (hnew m hm).1
    refine ⟨hcoherent, hkept, ?_⟩
    intro em hem em' hem' htenant hsession hid
    -- a new mapping's record is live, so it decides what the other is of
    rcases hcases em hem with hem1 | ⟨m, hm, rfl⟩
    · rcases hcases em' hem' with hem2 | ⟨m', hm', rfl⟩
      · exact h.same em hem1 em' hem2 htenant hsession hid
      · obtain ⟨v, hv⟩ := (hnew m' hm').2
        have hlive : vault.valueAt st'.world.redis (.token em.tenantId
            em.sessionId em.mapping.tokenId) = some v := by
          rw [htenant, hsession, hid]
          exact hv
        exact (hkept em hem).same (hkept _ hem') htenant hsession hid hlive
    · obtain ⟨v, hv⟩ := (hnew m hm).2
      exact (hkept _ hem).same (hkept em' hem') htenant hsession hid hv

end Steps

end Run

end PrivacyGateway.Tokenization
