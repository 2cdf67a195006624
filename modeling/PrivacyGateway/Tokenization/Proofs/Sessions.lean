/-
Runs of transforms over one vault.

`logged_run` is the invariant at the end of a run, `sessions_coherent` what
follows from it: no two index keys lead to one id; the mappings of one
value are one token, within a transform and across transforms as long as
the first mapping is live; the mappings of one token are of one value; and
a token with a live record resolves to an original of its own type and
normal form.

A mapping is live when its index key leads to its id and the record is
there. Where no key is lost, the record alone decides (`live_of_record`):
expiry takes both keys together.
-/
import PrivacyGateway.Tokenization.Proofs.Coherence
import PrivacyGateway.Tokenization.Proofs.Surrogates
import PrivacyGateway.Vault.Proofs.Openings
import PrivacyGateway.Vault.Reference

namespace PrivacyGateway.Tokenization

open Effect Splice Vault RedisTokenVault

section Runs

variable {vault : RedisTokenVault} {unicode : Unicode}
  {fingerprinter : Fingerprinter} {t s : UUID} {st : SessionState}
  {known : List Identity}

-- ==================================================== every step

theorem shrinks_eraseAll (r : Redis) (keys : List Text) :
    vault.Shrinks r (r.putKeys (r.keys.eraseAll keys)) := by
  intro k v hv
  unfold valueAt at hv ⊢
  rw [entryAt_eraseAll] at hv
  by_cases hgone : vault.render k ∈ keys
  · rw [if_pos hgone] at hv
    cases hv
  · rw [if_neg hgone] at hv
    exact hv

/-- A step takes values away and returns nothing, or runs a batch. -/
theorem sessionStep_cases (htyped : vault.Typed st.world.redis)
    (op : SessionOp) :
    (vault.Shrinks st.world.redis
        (sessionStep vault unicode fingerprinter st op).world.redis ∧
      st.world.idsDrawn ≤
        (sessionStep vault unicode fingerprinter st op).world.idsDrawn ∧
      (sessionStep vault unicode fingerprinter st op).emitted =
        st.emitted) ∨
    ∃ t s entries ttl cs ids tokens, vault.Batched t s entries ttl cs ids
      st.world (sessionStep vault unicode fingerprinter st op).world
        tokens := by
  cases op with
  | protect t s text entities policy =>
      rcases @sessionStep_protect vault unicode fingerprinter t s st text
        entities policy htyped with ⟨hredis, hdrawn, hemitted⟩ |
          ⟨entries, ttl, cs, ids, tokens, -, -, hb, -⟩
      · left
        refine ⟨?_, hdrawn, hemitted⟩
        rw [hredis]
        exact fun k v hv => hv
      · exact Or.inr ⟨t, s, entries, ttl, cs, ids, tokens, hb⟩
  | wait d => exact Or.inl ⟨elapse_shrinks st.world d, le_refl _, rfl⟩
  | lose key => exact Or.inl ⟨shrinks_eraseAll _ _, le_refl _, rfl⟩

theorem sessionStep_typed (htyped : vault.Typed st.world.redis)
    (op : SessionOp) :
    vault.Typed
      (sessionStep vault unicode fingerprinter st op).world.redis := by
  rcases sessionStep_cases htyped op with
    ⟨hshrinks, -, -⟩ | ⟨t, s, entries, ttl, cs, ids, tokens, hb⟩
  · intro k e he
    obtain ⟨deadline, hbefore⟩ := valueAt_eq_some_iff.mp
      (hshrinks k e.value (valueAt_eq_some_iff.mpr ⟨e.deadline, he⟩))
    have hfits := htyped k ⟨e.value, deadline⟩ hbefore
    exact hfits
  · exact hb.scripted.typed hb.candidates_sealed.validIds htyped

theorem sessionStep_drawn_le (htyped : vault.Typed st.world.redis)
    (op : SessionOp) :
    st.world.idsDrawn ≤
      (sessionStep vault unicode fingerprinter st op).world.idsDrawn := by
  rcases sessionStep_cases htyped op with
    ⟨-, hdrawn, -⟩ | ⟨t, s, entries, ttl, cs, ids, tokens, hb⟩
  · exact hdrawn
  · rw [hb.drawn_eq]
    exact Nat.le_add_right _ _

/-- Every step keeps the invariant. -/
theorem Logged.step (h : Logged vault unicode fingerprinter known st)
    (hcollision : Collisionless vault fingerprinter known)
    {op : SessionOp}
    (hknown : ∀ identity ∈ op.identities unicode, identity ∈ known)
    (hdistinct : vault.secrets.DistinctBelow
      (sessionStep vault unicode fingerprinter st op).world.idsDrawn) :
    Logged vault unicode fingerprinter known
      (sessionStep vault unicode fingerprinter st op) := by
  cases op with
  | protect t s text entities policy =>
      exact h.protect hcollision hknown hdistinct
  | wait d => exact h.shrinks (elapse_shrinks st.world d) (le_refl _) rfl
  | lose key => exact h.shrinks (shrinks_eraseAll _ _) (le_refl _) rfl

-- ==================================================== runs

theorem sessionRun_concat (ops : List SessionOp) (op : SessionOp) :
    sessionRun vault unicode fingerprinter st (ops ++ [op]) =
      sessionStep vault unicode fingerprinter
        (sessionRun vault unicode fingerprinter st ops) op := by
  unfold sessionRun
  rw [List.foldl_append]
  rfl

theorem sessionRun_append (ops more : List SessionOp) :
    sessionRun vault unicode fingerprinter st (ops ++ more) =
      sessionRun vault unicode fingerprinter
        (sessionRun vault unicode fingerprinter st ops) more :=
  List.foldl_append

theorem sessionRun_typed (htyped : vault.Typed st.world.redis)
    (ops : List SessionOp) :
    vault.Typed
      (sessionRun vault unicode fingerprinter st ops).world.redis := by
  have hthroughout : Run.Throughout
      (sessionStep vault unicode fingerprinter)
      (fun st => vault.Typed st.world.redis) st ops := by
    apply Run.invariant
    · exact fun _ op h => sessionStep_typed h op
    · exact htyped
  exact hthroughout.last

theorem sessionRun_drawn_le (htyped : vault.Typed st.world.redis)
    (ops : List SessionOp) :
    st.world.idsDrawn ≤
      (sessionRun vault unicode fingerprinter st ops).world.idsDrawn := by
  induction ops using List.reverseRecOn with
  | nil => exact le_refl _
  | append_singleton ops op ih =>
      rw [sessionRun_concat]
      exact le_trans ih
        (sessionStep_drawn_le (sessionRun_typed htyped ops) op)

theorem typed_start : vault.Typed SessionState.start.world.redis :=
  minted_start.typed

theorem logged_start :
    Logged vault unicode fingerprinter known SessionState.start := by
  refine ⟨coherent_start, ?_, ?_⟩
  · intro em hem
    exact absurd hem (List.not_mem_nil)
  · intro em hem
    exact absurd hem (List.not_mem_nil)

/-- The invariant holds after every run whose identities are known. -/
theorem logged_run (hcollision : Collisionless vault fingerprinter known)
    (ops : List SessionOp)
    (hknown : ∀ op ∈ ops, ∀ identity ∈ op.identities unicode,
      identity ∈ known)
    (hdistinct : vault.secrets.DistinctBelow (sessionRun vault unicode
      fingerprinter SessionState.start ops).world.idsDrawn) :
    Logged vault unicode fingerprinter known
      (sessionRun vault unicode fingerprinter SessionState.start ops) := by
  induction ops using List.reverseRecOn with
  | nil => exact logged_start
  | append_singleton ops op ih =>
      have htyped := @sessionRun_typed vault unicode fingerprinter _
        typed_start ops
      rw [sessionRun_concat] at hdistinct ⊢
      have hbefore := ih
        (fun op hop => hknown op (List.mem_append_left _ hop))
        (hdistinct.mono (sessionStep_drawn_le htyped op))
      apply hbefore.step hcollision _ hdistinct
      exact hknown op (List.mem_append_right _ List.mem_cons_self)

-- ==================================================== live mappings

/-- The mapping is live: its index key leads to its id, and the record is
there. -/
def Live (vault : RedisTokenVault) (r : Redis) (em : Emission) : Prop :=
  vault.valueAt r (.index em.tenantId em.sessionId
      (vault.indexSegment em.mapping.entityType
        em.mapping.normalizedHmac)) = some (.text em.mapping.tokenId) ∧
    ∃ v, vault.valueAt r
      (.token em.tenantId em.sessionId em.mapping.tokenId) = some v

/-- One value has one fingerprint. -/
theorem OfKnown.hmac_eq {ty value hmac ty' value' hmac' : Text}
    (h : OfKnown vault unicode fingerprinter known t s ty value hmac)
    (h' : OfKnown vault unicode fingerprinter known t s ty' value' hmac')
    (hty : ty = ty')
    (hform : normalize unicode ty value = normalize unicode ty' value') :
    hmac = hmac' := by
  have hfirst := h.2
  have hsecond := h'.2
  unfold identityOf at hfirst hsecond
  rw [hform, hty] at hfirst
  cases hfirst.symm.trans hsecond
  rfl

/-- Two bound mappings of one value are one token. -/
theorem token_eq_of_bound {r : Redis} {m m' : EntityMapping}
    {original original' : Text}
    (hof : OfKnown vault unicode fingerprinter known t s m.entityType
      m.originalValue m.normalizedHmac)
    (hof' : OfKnown vault unicode fingerprinter known t s m'.entityType
      m'.originalValue m'.normalizedHmac)
    (htoken : m.token = renderToken m.entityType m.tokenId)
    (htoken' : m'.token = renderToken m'.entityType m'.tokenId)
    (hbound : vault.Bound t s r m.entityType m.normalizedHmac m.tokenId
      original)
    (hbound' : vault.Bound t s r m'.entityType m'.normalizedHmac
      m'.tokenId original')
    (hsame : SameValue unicode m m') : m.token = m'.token := by
  have hhmac := hof.hmac_eq hof' hsame.1 hsame.2
  have hindex := hbound.1
  rw [hsame.1, hhmac] at hindex
  have hid : m.tokenId = m'.tokenId := by
    injection Option.some.inj (hindex.symm.trans hbound'.1)
  rw [htoken, htoken', hsame.1, hid]

/-- A transform gives two mappings of one value one token, and a mapping of
a value that is live the token that is live. -/
theorem protect_answers {text : Text} {entities : List DetectedEntity}
    {policy : PolicySnapshot}
    (h : Logged vault unicode fingerprinter known st)
    (hknown : ∀ identity ∈ (SessionOp.protect t s text entities
      policy).identities unicode, identity ∈ known)
    (hdistinct : vault.secrets.DistinctBelow (sessionStep vault unicode
      fingerprinter st (.protect t s text entities
        policy)).world.idsDrawn)
    {out : TransformedText} {w : World}
    (hrun : runIn (transform unicode vault.hashes fingerprinter vault.like
      t s text entities policy) st.world = (.ok out, w)) :
    ∀ m ∈ out.mappings,
      (∀ m' ∈ out.mappings, SameValue unicode m m' →
        m.token = m'.token) ∧
      ∀ em ∈ st.emitted, em.tenantId = t → em.sessionId = s →
        Live vault st.world.redis em → SameValue unicode m em.mapping →
          m.token = em.mapping.token := by
  have hstep := @sessionStep_protect vault unicode fingerprinter t s st text
    entities policy h.coherent.minted.typed
  have hst : sessionStep vault unicode fingerprinter st
      (.protect t s text entities policy) =
        ⟨w, st.emitted ++ out.mappings.map (Emission.mk t s)⟩ := by
    unfold sessionStep
    simp only [hrun]
  simp only [hst] at hstep hdistinct
  intro m hm
  rcases hstep with ⟨-, -, hemitted⟩ |
    ⟨entries, ttl, cs, ids, tokens, ms, hrequested, hb, hemitted, hpairs⟩
  · rw [List.map_eq_nil_iff.mp (List.append_right_eq_self.mp hemitted)]
      at hm
    exact absurd hm (List.not_mem_nil)
  · have hms : out.mappings = ms := by
      apply List.map_injective_iff.mpr _ (List.append_cancel_left hemitted)
      intro a b hab
      exact congrArg Emission.mapping hab
    rw [hms] at hm ⊢
    have hof := fun entry hentry =>
      (hrequested entry hentry).of_known hknown
    have hbound : ∀ m ∈ ms, OfKnown vault unicode fingerprinter known t s
          m.entityType m.originalValue m.normalizedHmac ∧
        m.token = renderToken m.entityType m.tokenId ∧
        ∃ original, vault.Bound t s w.redis m.entityType m.normalizedHmac
          m.tokenId original := by
      intro m hm
      obtain ⟨entry, token, hpair⟩ := hpairs m hm
      exact ⟨hpair.of_known hof,
        hpair.bound hb h.coherent.minted hdistinct⟩
    obtain ⟨hofm, htoken, original, hboundm⟩ := hbound m hm
    refine ⟨?_, ?_⟩
    · intro m' hm' hsame
      obtain ⟨hofm', htoken', original', hboundm'⟩ := hbound m' hm'
      exact token_eq_of_bound hofm hofm' htoken htoken' hboundm hboundm'
        hsame
    · intro em hem htenant hsession hlive hsame
      have hkept := h.kept em hem
      obtain ⟨hindex, v, hrecord⟩ := hlive
      -- what was live before the batch is bound after it
      obtain ⟨original', hbefore⟩ := h.coherent.minted.bound
        hkept.type_valid hindex hrecord
      have hofem := hkept.of_known
      rw [htenant, hsession] at hbefore hofem
      exact token_eq_of_bound hofm hofem htoken hkept.token_eq hboundm
        (hb.keeps_bound h.coherent.minted hdistinct hbefore) hsame

/-- Where the index keys of records last as long as these, a mapping with
a record is live. -/
theorem live_of_record (h : Logged vault unicode fingerprinter known st)
    (hcoupled : vault.Coupled st.world.redis) {em : Emission}
    (hem : em ∈ st.emitted) {v : RedisValue}
    (hrecord : vault.valueAt st.world.redis (.token em.tenantId
      em.sessionId em.mapping.tokenId) = some v) :
    Live vault st.world.redis em := by
  have hkept := h.kept em hem
  obtain ⟨deadline, hentry⟩ := valueAt_eq_some_iff.mp hrecord
  obtain ⟨segment, hindex⟩ := hcoupled _ _ _ _ hentry
  have hindexed := valueAt_eq_some_iff.mpr ⟨deadline, hindex⟩
  obtain ⟨ty, hmac, original, raw, rfl, rfl, hholds, hof⟩ :=
    h.coherent.record_of _ _ _ _ _ hindexed hrecord
  obtain ⟨original', raw', hraw, hholds', hform⟩ := hkept.record _ hrecord
  cases hraw
  obtain ⟨hty, rfl⟩ := hholds'.unique hholds
  rw [hty] at hindexed hof
  rw [hof.hmac_eq hkept.of_known rfl hform] at hindexed
  exact ⟨hindexed, _, hrecord⟩

/-- A token with a live record resolves to an original of its type and of
its value's normal form. -/
theorem Kept.resolves {n : Nat} {w : World} {em : Emission}
    (h : Kept vault unicode fingerprinter known n w.redis em)
    {v : RedisValue} (hrecord : vault.valueAt w.redis (.token em.tenantId
      em.sessionId em.mapping.tokenId) = some v) :
    ∃ original,
      vault.Stands em.tenantId em.sessionId w.redis em.mapping.token
        original ∧
      runIn (vault.resolveMany em.tenantId em.sessionId
          [em.mapping.token]) w =
        (.ok [(em.mapping.token, original)], w) ∧
      normalize unicode em.mapping.entityType original =
        normalize unicode em.mapping.entityType
          em.mapping.originalValue := by
  obtain ⟨original, raw, rfl, hholds, hform⟩ := h.record v hrecord
  obtain ⟨deadline, hentry⟩ := valueAt_eq_some_iff.mp hrecord
  refine ⟨original, ⟨_, _, raw, deadline, h.token_eq, hentry, hholds⟩, ?_,
    hform⟩
  rw [h.token_eq]
  exact @resolveMany_of_reads vault em.tenantId em.sessionId
    ⟨em.mapping.entityType, em.mapping.tokenId, h.type_valid, h.id_valid⟩
    w original ⟨raw, stringAt_blob hentry, hholds.opens⟩

theorem sessionStep_coupled (htyped : vault.Typed st.world.redis)
    (h : vault.Coupled st.world.redis) {op : SessionOp}
    (hkeeps : ∀ key, op ≠ .lose key) :
    vault.Coupled
      (sessionStep vault unicode fingerprinter st op).world.redis := by
  cases op with
  | protect t s text entities policy =>
      rcases @sessionStep_protect vault unicode fingerprinter t s st text
        entities policy htyped with ⟨hredis, -, -⟩ |
          ⟨entries, ttl, cs, ids, tokens, -, -, hb, -⟩
      · rw [hredis]
        exact h
      · exact hb.coupled h
  | wait d => exact h.elapse d
  | lose key => exact absurd rfl (hkeeps key)

theorem sessionRun_coupled (ops : List SessionOp)
    (hkeeps : ∀ op ∈ ops, ∀ key, op ≠ SessionOp.lose key) :
    vault.Coupled (sessionRun vault unicode fingerprinter
      SessionState.start ops).world.redis := by
  induction ops using List.reverseRecOn with
  | nil => exact coupled_start
  | append_singleton ops op ih =>
      rw [sessionRun_concat]
      apply sessionStep_coupled (sessionRun_typed typed_start ops)
      · exact ih (fun op hop => hkeeps op (List.mem_append_left _ hop))
      · exact hkeeps op (List.mem_append_right _ List.mem_cons_self)

end Runs

/-- Tokens and values are coherent over every run of transforms: any
number of sessions, any interleaving, any expiry, and any loss of keys. If
the identities of the run's detections do not collide and the ids it draws
are distinct, then at its end
- no two index keys lead to one id;
- every transform that returned mapped the spans that need it, each with
  the type and the text of its span, gave two mappings of one value one
  token, and gave a value with a live mapping the token of that mapping;
- two mappings of one session with one token are of one value;
- a token with a live record resolves, to an original of its type and of
  its value's normal form;
- if no key was lost, a mapping with a live record is live. -/
theorem sessions_coherent (vault : RedisTokenVault) (unicode : Unicode)
    (fingerprinter : Fingerprinter) (ops : List SessionOp)
    (hcollision : Collisionless vault fingerprinter
      (ops.flatMap (SessionOp.identities unicode)))
    (hdistinct : vault.secrets.DistinctBelow (sessionRun vault unicode
      fingerprinter SessionState.start ops).world.idsDrawn) :
    let st := sessionRun vault unicode fingerprinter SessionState.start ops
    (∀ t s segment t' s' segment' id,
      vault.valueAt st.world.redis (.index t s segment) =
          some (.text id) →
        vault.valueAt st.world.redis (.index t' s' segment') =
          some (.text id) →
        t = t' ∧ s = s' ∧ segment = segment') ∧
    (∀ before t s text entities policy after,
      ops = before ++ .protect t s text entities policy :: after →
      let here := sessionRun vault unicode fingerprinter SessionState.start
        before
      ∀ out w, runIn (transform unicode vault.hashes fingerprinter
          vault.like t s text entities policy) here.world = (.ok out, w) →
        (∃ selected written, Plans text entities policy selected ∧
          Splice.Fits text.length 0 written ∧
          out.text = fill text written ∧
          List.Forall₂ (Maps text policy written)
            (mappedSpans policy selected) out.mappings) ∧
        ∀ m ∈ out.mappings,
          (∀ m' ∈ out.mappings, SameValue unicode m m' →
            m.token = m'.token) ∧
          ∀ em ∈ here.emitted, em.tenantId = t → em.sessionId = s →
            Live vault here.world.redis em →
              SameValue unicode m em.mapping →
                m.token = em.mapping.token) ∧
    (∀ em ∈ st.emitted, ∀ em' ∈ st.emitted, em.tenantId = em'.tenantId →
      em.sessionId = em'.sessionId → em.mapping.token = em'.mapping.token →
        SameValue unicode em.mapping em'.mapping) ∧
    (∀ em ∈ st.emitted, ∀ v, vault.valueAt st.world.redis
        (.token em.tenantId em.sessionId em.mapping.tokenId) = some v →
      ∃ original,
        vault.Stands em.tenantId em.sessionId st.world.redis
          em.mapping.token original ∧
        runIn (vault.resolveMany em.tenantId em.sessionId
            [em.mapping.token]) st.world =
          (.ok [(em.mapping.token, original)], st.world) ∧
        normalize unicode em.mapping.entityType original =
          normalize unicode em.mapping.entityType
            em.mapping.originalValue) ∧
    ((∀ op ∈ ops, ∀ key, op ≠ .lose key) →
      ∀ em ∈ st.emitted, ∀ v, vault.valueAt st.world.redis
          (.token em.tenantId em.sessionId em.mapping.tokenId) = some v →
        Live vault st.world.redis em) := by
  intro st
  have hknown : ∀ op ∈ ops, ∀ identity ∈ op.identities unicode,
      identity ∈ ops.flatMap (SessionOp.identities unicode) := by
    intro op hop identity hidentity
    exact List.mem_flatMap.mpr ⟨op, hop, hidentity⟩
  have hlogged := logged_run hcollision ops hknown hdistinct
  refine ⟨hlogged.coherent.one_key, ?_, ?_, ?_, ?_⟩
  · intro before t s text entities policy after hops here out w hrun
    refine ⟨transform_mappings hrun, ?_⟩
    have htyped := @sessionRun_typed vault unicode fingerprinter _
      typed_start before
    have hop : SessionOp.protect t s text entities policy ∈ ops := by
      rw [hops]
      exact List.mem_append_right _ List.mem_cons_self
    -- the ids drawn up to here, and by this step, are the run's
    have hhere : vault.secrets.DistinctBelow (sessionStep vault unicode
        fingerprinter here (.protect t s text entities
          policy)).world.idsDrawn := by
      rw [hops, ← List.singleton_append, ← List.append_assoc,
        sessionRun_append, sessionRun_concat] at hdistinct
      exact hdistinct.mono
        (sessionRun_drawn_le (sessionStep_typed htyped _) after)
    have hbefore := logged_run hcollision before
      (fun op hmem => hknown op (by
        rw [hops]
        exact List.mem_append_left _ hmem))
      (hhere.mono (sessionStep_drawn_le htyped _))
    exact protect_answers hbefore (hknown _ hop) hhere hrun
  · intro em hem em' hem' htenant hsession htoken
    have hkept := hlogged.kept em hem
    have hkept' := hlogged.kept em' hem'
    rw [hkept.token_eq, hkept'.token_eq] at htoken
    obtain ⟨-, hid⟩ := renderToken_inj hkept.type_valid hkept.id_valid
      hkept'.type_valid hkept'.id_valid htoken
    exact hlogged.same em hem em' hem' htenant hsession hid
  · intro em hem v hrecord
    exact (hlogged.kept em hem).resolves hrecord
  · intro hkeeps em hem v hrecord
    exact live_of_record hlogged (sessionRun_coupled ops hkeeps) hem hrecord

-- ==================================================== on fixed inputs

/-- A policy that tokenizes names. -/
def tokensPolicy : PolicySnapshot :=
  { surrogatesPolicy with
    name := "tokens".toList
    entities := [
      ("PERSON".toList, ⟨.tokenize, 1 / 2, true, none, none, Bounds.half⟩)] }

/-- One name in two messages of a session, a second apart. -/
def nameTwice : List SessionOp :=
  [.protect ⟨2⟩ ⟨3⟩ "Ann".toList [nameAt 0] tokensPolicy, .wait 1000,
    .protect ⟨2⟩ ⟨3⟩ "Ann".toList [nameAt 0] tokensPolicy]

/-- Both mappings have the one token, and it resolves. -/
theorem nameTwice_coherent :
    let st := sessionRun (Reference.vault nameHashes) Unicode.ascii
      sampleFingerprinter SessionState.start nameTwice
    st.emitted.map (fun em => em.mapping.token) =
      ["⟦SGW:PERSON:00000000000000000000000000⟧".toList,
        "⟦SGW:PERSON:00000000000000000000000000⟧".toList] ∧
    ∀ em ∈ st.emitted, ∃ original,
      runIn ((Reference.vault nameHashes).resolveMany em.tenantId
          em.sessionId [em.mapping.token]) st.world =
        (.ok [(em.mapping.token, original)], st.world) ∧
      normalize Unicode.ascii em.mapping.entityType original =
        normalize Unicode.ascii em.mapping.entityType
          em.mapping.originalValue := by
  intro st
  have honly : ∀ identity ∈ nameTwice.flatMap
      (SessionOp.identities Unicode.ascii),
        identity = ⟨⟨2⟩, ⟨3⟩, "PERSON".toList, "Ann".toList⟩ := by
    decide +kernel
  obtain ⟨-, -, -, hresolves, -⟩ := sessions_coherent
    (Reference.vault nameHashes) Unicode.ascii sampleFingerprinter nameTwice
    ⟨fun a ha b hb hmac _ _ => (honly a ha).trans (honly b hb).symm,
      fun a ha b hb hmac hmac' h h' _ => by
        rw [honly a ha] at h
        rw [honly b hb] at h'
        cases h.symm.trans h'
        rfl⟩
    (Reference.secrets_distinct (show st.world.idsDrawn ≤ 2 ^ 128 by
      decide +kernel))
  refine ⟨by decide +kernel, ?_⟩
  intro em hem
  have hlive : ∀ em ∈ st.emitted, ((Reference.vault nameHashes).valueAt
      st.world.redis (.token em.tenantId em.sessionId
        em.mapping.tokenId)).isSome = true := by
    decide +kernel
  obtain ⟨v, hv⟩ := Option.isSome_iff_exists.mp (hlive em hem)
  obtain ⟨original, -, hresolved, hform⟩ := hresolves em hem v hv
  exact ⟨original, hresolved, hform⟩

end PrivacyGateway.Tokenization
