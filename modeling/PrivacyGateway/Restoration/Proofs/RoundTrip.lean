/-
What restoring a protected text gives back.

`findTokens_fill` is the scanner's side: tokens written into a text that
has none are found again, each where it was written, and nothing else is,
since a token has one left delimiter and a gap has no whole token.

`transform_tokens` is the vault's side: each tokenized span is replaced
by the token its identity is bound to, and the original bound there is
the span's `spelling`: the one the session held before, or that of the
first span of the text with the same identity.

`round_trip_iff` puts the two together. Two spellings of one value share
a token, so what comes back is the text with every tokenized span in the
spelling that came first (`respelled`), which is the text itself exactly
when these spellings say so.
-/
import PrivacyGateway.Lib.Aligned
import PrivacyGateway.Restoration.Proofs.Replies
import PrivacyGateway.Restoration.Proofs.SinglePass
import PrivacyGateway.Tokenization.Proofs.Mint
import PrivacyGateway.Vault.Proofs.Lifetimes
import PrivacyGateway.Vault.Reference

namespace PrivacyGateway.Restoration

open Effect Splice Scan Tokenization Vault RedisTokenVault

-- ==================================================== finding

section Finding

variable {text : Text}

/-- No token begins in a gap of a text without tokens, whatever token is
written after the gap. -/
theorem matchStrict_gap (htext : findTokens text = []) {a b : Nat}
    {gap : Text} (hgap : gap <:+ slice text a b) (hne : gap ≠ [])
    (token : Token) (rest : Text) :
    matchStrict (gap ++ (token.text ++ rest)) = none := by
  -- a whole token in the gap would be one in the text
  have hinside : ∀ (inner : Token) (more : Text),
      gap ≠ inner.text ++ more := by
    intro inner more hsplit
    obtain ⟨front, hfront⟩ := hgap
    have hsuffix : gap ++ text.drop b <:+ text.drop a := by
      refine ⟨front, ?_⟩
      rw [← List.append_assoc, hfront]
      unfold slice
      by_cases hab : a ≤ (text.take b).length
      · rw [← List.drop_append_of_le_length hab, List.take_append_drop]
      · rw [List.drop_eq_nil_of_le (by omega), List.nil_append]
        have hempty : gap = [] := by
          have hnil : front ++ gap = [] := by
            rw [hfront]
            unfold slice
            exact List.drop_eq_nil_of_le (by omega)
          exact (List.append_eq_nil_iff.mp hnil).2
        exact absurd hempty hne
    have hnone := (findTokens_eq_nil_iff text).mp htext _
      (hsuffix.trans (List.drop_suffix a text))
    have hsome : matchStrict (gap ++ text.drop b) =
        some inner.text.length :=
      matchStrict_eq_some_iff.mpr ⟨inner, more ++ text.drop b,
        by rw [hsplit, List.append_assoc], rfl⟩
    rw [hsome] at hnone
    cases hnone
  cases hmatch : matchStrict (gap ++ (token.text ++ rest)) with
  | none => rfl
  | some n =>
      obtain ⟨inner, more, hsplit, -⟩ := matchStrict_eq_some_iff.mp hmatch
      have hleads : inner.text <+: gap :=
        Token.prefix_of_prefix_append hne ⟨more, hsplit.symm⟩
      obtain ⟨more, hmore⟩ := hleads
      exact absurd hmore.symm (hinside inner more)

/-- The tokens of a fill are the patches' tokens, where they were
written. -/
theorem findTokens_fill (htext : findTokens text = [])
    {ps : List (Patch Char)}
    (hps : ∀ p ∈ ps, ∃ token : Token, p.body = token.text) :
    findTokens (fill text ps) =
      (spots 0 (pieces text 0 ps)).filterMap (fun spot =>
        (parseToken spot.2).map (fun token =>
          ⟨token, spot.1, spot.1 + spot.2.length⟩)) := by
  have hfill : fill text ps = weave (pieces text 0 ps)
      (slice text (lastStop 0 ps) text.length) :=
    fillTo_eq_weave text text.length ps 0
  rw [findTokens_eq_scan, hfill, scan_weave matchStrict_bounded]
  · rfl
  · intro w hw r
    obtain ⟨-, p, hp, hbody⟩ := of_mem_pieces hw
    obtain ⟨token, htoken⟩ := hps p hp
    rw [hbody, htoken]
    exact matchStrict_eq_some_iff.mpr ⟨token, r, rfl, rfl⟩
  · intro w hw r gap hgap hne
    obtain ⟨⟨a, b, hslice⟩, p, hp, hbody⟩ := of_mem_pieces hw
    obtain ⟨token, htoken⟩ := hps p hp
    rw [hslice] at hgap
    rw [hbody, htoken]
    exact matchStrict_gap htext hgap hne token r
  · intro gap hgap _
    apply (findTokens_eq_nil_iff text).mp htext
    refine hgap.trans ?_
    unfold slice
    rw [List.take_length]
    exact List.drop_suffix _ _

/-- The patches of a restoration rewrite the spots of a fill. -/
theorem map_patchFor (resolved : Dict Text Text)
    (action : UnknownTokenAction) {spots : List (Nat × Text)}
    (h : ∀ spot ∈ spots, ∃ token : Token, spot.2 = token.text) :
    (spots.filterMap (fun spot => (parseToken spot.2).map (fun token =>
        (⟨token, spot.1, spot.1 + spot.2.length⟩ : TokenMatch)))).map
          (patchFor resolved action) =
      spots.map (rewriteAt (restoreBody resolved action)) := by
  induction spots with
  | nil => rfl
  | cons spot spots ih =>
      obtain ⟨hspot, hspots⟩ := List.forall_mem_cons.mp h
      obtain ⟨token, htoken⟩ := hspot
      have hparse : parseToken spot.2 = some token := by
        rw [htoken]
        exact parseToken_text token
      rw [List.filterMap_cons, hparse]
      simp only [Option.map_some, List.map_cons]
      rw [ih hspots]
      congr 1
      unfold patchFor rewriteAt restoreBody
      rw [hparse]

end Finding

-- ==================================================== spellings

section Spelling

variable (vault : RedisTokenVault) (unicode : Unicode)
  (fingerprinter : Fingerprinter) (t s : UUID) (text : Text)

/-- The index key segment of a span's identity. -/
def identityKey (e : DetectedEntity) : Option Text :=
  match identityOf unicode vault.hashes fingerprinter t s e.entityType
      (slice text e.start e.stop) with
  | .ok hmac => some (vault.indexSegment e.entityType hmac)
  | .error _ => none

/-- How a span's value was spelled first: as the session holds it, or as
the first span of the text with the same identity has it. -/
def spelling (r : Redis) (spans : List DetectedEntity)
    (e : DetectedEntity) : Text :=
  match identityOf unicode vault.hashes fingerprinter t s e.entityType
      (slice text e.start e.stop) with
  | .error _ => slice text e.start e.stop
  | .ok hmac =>
      match vault.held t s r e.entityType hmac with
      | some original => original
      | none =>
          match spans.find? (fun other =>
              identityKey vault unicode fingerprinter t s text other ==
                identityKey vault unicode fingerprinter t s text e) with
          | some first => slice text first.start first.stop
          | none => slice text e.start e.stop

/-- The text with each of the spans in its first spelling. -/
def respelled (r : Redis) (spans : List DetectedEntity) : Text :=
  fill text (spans.map (fun e => ⟨e.start, e.stop,
    spelling vault unicode fingerprinter t s text r spans e⟩))

variable {vault unicode fingerprinter t s text}

/-- A span whose identity is computed. -/
theorem identityKey_of_ok {e : DetectedEntity} {hmac : Text}
    (h : identityOf unicode vault.hashes fingerprinter t s e.entityType
      (slice text e.start e.stop) = .ok hmac) :
    identityKey vault unicode fingerprinter t s text e =
      some (vault.indexSegment e.entityType hmac) := by
  unfold identityKey
  rw [h]

/-- The first request with an identity is the first span with it. -/
theorem firstOriginal_requests {items : List (Planned × Nat)}
    {pendings : List Pending}
    (h : List.Forall₂ (Awaits unicode vault.hashes fingerprinter t s text)
      items pendings) (ty hmac : Text) :
    vault.firstOriginal (pendings.map Pending.request) ty hmac =
      ((items.map (fun item => item.1.1)).find? (fun e =>
        identityKey vault unicode fingerprinter t s text e ==
          some (vault.indexSegment ty hmac))).map
            (fun e => slice text e.start e.stop) := by
  induction h with
  | nil => rfl
  | @cons item p items pendings hawaits _ ih =>
      have hidentity := hawaits.identity
      rw [hawaits.type_eq, hawaits.original_eq] at hidentity
      have hkey := identityKey_of_ok hidentity
      rw [← hawaits.type_eq] at hkey
      change _ = some (vault.indexSegment p.request.entityType
        p.request.normalizedHmac) at hkey
      rw [List.map_cons, List.map_cons, firstOriginal_cons,
        List.find?_cons, hkey]
      by_cases hsame : vault.indexSegment p.request.entityType
          p.request.normalizedHmac = vault.indexSegment ty hmac
      · rw [if_pos hsame, beq_iff_eq.mpr (congrArg some hsame)]
        exact congrArg some hawaits.original_eq
      · rw [if_neg hsame, beq_eq_false_iff_ne.mpr
          (fun heq => hsame (Option.some.inj heq))]
        exact ih

/-- The spelling of a span is what its identity holds after the batch. -/
theorem spelling_eq {items : List (Planned × Nat)}
    {pendings : List Pending}
    (h : List.Forall₂ (Awaits unicode vault.hashes fingerprinter t s text)
      items pendings) {r : Redis} {e : DetectedEntity}
    {hmac original : Text}
    (hidentity : identityOf unicode vault.hashes fingerprinter t s
      e.entityType (slice text e.start e.stop) = .ok hmac)
    (hheld : (vault.held t s r e.entityType hmac).or
      (vault.firstOriginal (pendings.map Pending.request) e.entityType
        hmac) = some original) :
    spelling vault unicode fingerprinter t s text r
      (items.map (fun item => item.1.1)) e = original := by
  unfold spelling
  rw [hidentity]
  simp only
  cases hbefore : vault.held t s r e.entityType hmac with
  | some held =>
      rw [hbefore] at hheld
      exact Option.some.inj hheld
  | none =>
      rw [hbefore, Option.none_or, firstOriginal_requests h] at hheld
      rw [identityKey_of_ok hidentity]
      obtain ⟨first, hfirst, hslice⟩ := Option.map_eq_some_iff.mp hheld
      simp only [hfirst]
      exact hslice

end Spelling

-- ==================================================== tokenizing

section Tokenizing

variable {vault : RedisTokenVault} {unicode : Unicode}
  {fingerprinter : Fingerprinter} {t s : UUID} {text : Text}
  {entities : List DetectedEntity} {policy : PolicySnapshot}
  {st : VaultState} {w : World}

/-- The mint moves the system by one batch, or not at all. -/
theorem mint_reaches {plan : List Planned} {ttlSeconds : Int}
    {minted : Dict Nat EntityMapping} (hsound : vault.Sound st)
    (h : runIn (mint unicode vault.hashes fingerprinter t s vault.like text
      plan ttlSeconds) st.world = (.ok minted, w)) :
    ∃ st', st'.world = w ∧ st'.pending = st.pending ∧ vault.Sound st' ∧
      st.world.idsDrawn ≤ w.idsDrawn ∧
      (vault.Minted st.world.idsDrawn st.world.redis →
        vault.secrets.DistinctBelow w.idsDrawn →
          vault.Minted w.idsDrawn w.redis) := by
  obtain ⟨pendings, -, hcase⟩ := mint_ok h
  rcases hcase with ⟨-, -, rfl⟩ | ⟨tokens, hcall, -⟩
  · exact ⟨st, rfl, rfl, hsound, le_refl _, fun hminted _ => hminted⟩
  · have hcall' : runIn (vault.getOrCreateMany t s
        (pendings.map Pending.request) ttlSeconds) st.world =
          (.ok tokens, w) := hcall
    have hstep : vault.step st (.batch t s
        (pendings.map Pending.request) ttlSeconds) =
          { st with
            world := w
            issued := st.issued ++
              tokens.map (fun token => (t, s, token)) } := by
      unfold RedisTokenVault.step
      simp only
      rw [hcall']
    have hafter := hsound.step (.batch t s
      (pendings.map Pending.request) ttlSeconds)
    have hmore := step_drawn_le hsound.typed (.batch t s
      (pendings.map Pending.request) ttlSeconds)
    have hids := fun hminted => @Minted.step vault st hminted (.batch t s
      (pendings.map Pending.request) ttlSeconds)
    rw [hstep] at hafter hmore hids
    exact ⟨{ st with
      world := w
      issued := st.issued ++ tokens.map (fun token => (t, s, token)) },
      rfl, rfl, hafter, hmore, hids⟩

/-- The token written for a span, and what it stands for. -/
structure Replaces (vault : RedisTokenVault) (unicode : Unicode)
    (fingerprinter : Fingerprinter) (t s : UUID) (text : Text)
    (before after : Redis) (spans : List DetectedEntity)
    (mappings : List EntityMapping) (e : DetectedEntity)
    (p : Patch Char) : Prop where
  start_eq : p.start = e.start
  stop_eq : p.stop = e.stop
  bound : ∃ hmac id, p.body = renderToken e.entityType id ∧
    (∃ m ∈ mappings, m.tokenId = id) ∧
    vault.Bound t s after e.entityType hmac id
      (spelling vault unicode fingerprinter t s text before spans e)

/-- A transform under a policy that only tokenizes and allows writes, for
each span it tokenizes, the token its identity is bound to. -/
theorem transform_tokens {out : TransformedText}
    (hminted : vault.Minted st.world.idsDrawn st.world.redis)
    (hdistinct : vault.secrets.DistinctBelow w.idsDrawn)
    {selected : List DetectedEntity} {minted : Dict Nat EntityMapping}
    (hactions : ∀ e ∈ selected, policy.actionFor e.entityType = .tokenize ∨
      policy.actionFor e.entityType = .allow)
    (hmint : runIn (mint unicode vault.hashes fingerprinter t s vault.like
      text (withActions policy selected) policy.sessionTtlSeconds)
        st.world = (.ok minted, w))
    (hok : ∀ item ∈ (withActions policy selected).zipIdx, ∃ r,
      replacementOf unicode vault.hashes text minted item = .ok r)
    (hmappings : out.mappings = (withActions policy selected).zipIdx.filterMap
      (fun item => minted.get? item.2)) :
    List.Forall₂ (Replaces vault unicode fingerprinter t s text
        st.world.redis w.redis (tokenizedSpans policy selected)
        out.mappings)
      (tokenizedSpans policy selected)
      (patches unicode vault.hashes text minted
        (withActions policy selected)) := by
  obtain ⟨pendings, hpending, hcase⟩ := mint_ok hmint
  have hawaits := pendingOf_ok _ hpending
  have hspans := filter_needsMapping hactions
  rw [← hspans, List.forall₂_map_left_iff]
  -- the spans that need no mapping are left alone
  rw [patches_mapped (by
    intro e he
    apply (hactions e he).imp_left
    intro haction
    rw [haction]
    rfl)]
  apply Aligned.filterMap
  intro item hitem
  obtain ⟨hmem, hneeds⟩ := List.mem_filter.mp hitem
  obtain ⟨e, he, hplanned⟩ :=
    List.mem_map.mp (List.fst_mem_of_mem_zipIdx hmem)
  have haction : item.1.2 = .tokenize := by
    rcases hactions e he with h | h
    · rw [← hplanned]
      exact h
    · rw [← hplanned, h] at hneeds
      cases hneeds
  -- its mapping is there, or the splice loop would have raised
  obtain ⟨r, hr⟩ := hok item hmem
  have hmapping : ∃ m, minted.get? item.2 = some m ∧
      patchOf unicode vault.hashes text minted item =
        some ⟨item.1.1.start, item.1.1.stop, m.token⟩ := by
    have hr' := hr
    unfold replacementOf replacementFor at hr'
    rw [haction] at hr'
    cases hget : minted.get? item.2 with
    | none =>
        rw [hget] at hr'
        cases hr'
    | some m =>
        rw [hget] at hr'
        cases hr'
        refine ⟨m, rfl, ?_⟩
        unfold patchOf
        rw [hr]
  obtain ⟨m, hget, hpatch⟩ := hmapping
  refine ⟨_, hpatch, rfl, rfl, ?_⟩
  rcases hcase with ⟨-, rfl, -⟩ | ⟨tokens, hcall, hpairs, -⟩
  · cases hget
  · obtain ⟨-, p, token, hzip, hthis, hpair⟩ :=
      mappingsFor_awaits hpending hpairs hmem hget
    have htyped := hminted.typed
    have hcases := getOrCreateMany_cases htyped
      (show runIn (vault.getOrCreateMany t s
        (pendings.map Pending.request) policy.sessionTtlSeconds) st.world =
          (.ok tokens, w) from hcall)
    rcases hcases with ⟨-, -, hempty⟩ |
      ⟨ttl, cs, ids, tokens', -, htokens, hb⟩
    · obtain ⟨-, hnone⟩ := hempty tokens rfl
      rw [List.map_eq_nil_iff.mp hnone] at hzip
      cases hzip
    · cases htokens
      obtain ⟨-, hheld, hbound⟩ := hb.bindings hminted hdistinct
      rw [List.forall₂_map_left_iff] at hbound
      obtain ⟨id, original, hrender, hb'⟩ := List.forall₂_zip hbound hzip
      have hrender' : token = renderToken p.entityType id := hrender
      have hb'' : vault.Bound t s w.redis p.entityType p.normalizedHmac id
          original := hb'
      have hheld' := hheld p.entityType p.normalizedHmac
        hb''.2.choose_spec.2.1
      rw [hb''.held] at hheld'
      rw [hrender'] at hpair
      obtain ⟨htoken, hid⟩ := mappingFor_render
        hb''.2.choose_spec.2.1 hb''.2.choose_spec.2.2.1 hpair
      have hidentity := hthis.identity
      rw [hthis.type_eq] at hheld' hb'' htoken hidentity
      rw [hthis.original_eq] at hidentity
      refine ⟨p.normalizedHmac, id, htoken, ⟨m, ?_, hid⟩, ?_⟩
      · rw [hmappings]
        exact List.mem_filterMap.mpr ⟨item, hmem, hget⟩
      · rw [← spelling_eq hawaits hidentity hheld'.symm] at hb''
        exact hb''

end Tokenizing

-- ==================================================== restoring

section Restoring

variable {vault : RedisTokenVault} {unicode : Unicode} {t s : UUID}
  {policy : PolicySnapshot} {model : Text} {limit : Nat}

/-- A reply made of patched tokens that all stand for something is
restored, each token to its original, whatever the policy says of unknown
ones. -/
theorem restore_fill (hlimit : 1 ≤ limit)
    (hmodel : unicode.strip model ≠ []) {st : VaultState}
    (hsound : vault.Sound st) {text : Text}
    (htext : findTokens text = []) {ps : List (Patch Char)}
    (hlength : (fill text ps).length ≤ limit) {f : Text → Text}
    (hps : ∀ p ∈ ps, (∃ token : Token, p.body = token.text) ∧
      vault.Stands t s st.world.redis p.body (f p.body)) :
    ∃ restored, runIn ((OutputPipeline.mk (resolver vault) limit
        hlimit).restore unicode t s
          { content := some (fill text ps), model := some model } policy)
        st.world = (.ok restored, st.world) ∧
      restored.text = fill text (ps.map (Patch.rewrite f)) := by
  have hcontent : validatedContent unicode
      { content := some (fill text ps), model := some model } limit =
        .ok (fill text ps) := by
    unfold validatedContent
    simp only
    rw [if_neg hmodel, if_neg (by omega)]
  have hfound := findTokens_fill htext (fun p hp => (hps p hp).1)
  have hspots : ∀ spot ∈ spots 0 (pieces text 0 ps),
      ∃ p ∈ ps, spot.2 = p.body := by
    intro spot hspot
    obtain ⟨v, hv, hbody⟩ := of_mem_spots hspot
    obtain ⟨-, p, hp, hp'⟩ := of_mem_pieces hv
    exact ⟨p, hp, hbody.trans hp'⟩
  -- every token that is found stands for something
  have hstands : ∀ candidate ∈ candidatesOf (findTokens (fill text ps)),
      vault.Stands t s st.world.redis candidate (f candidate) := by
    intro candidate hmem
    unfold candidatesOf at hmem
    rw [List.mem_dedup, hfound] at hmem
    obtain ⟨found, hfound', rfl⟩ := List.mem_map.mp hmem
    obtain ⟨spot, hspot, hparse⟩ := List.mem_filterMap.mp hfound'
    obtain ⟨p, hp, hbody⟩ := hspots spot hspot
    obtain ⟨token, htoken, rfl⟩ := Option.map_eq_some_iff.mp hparse
    show vault.Stands t s st.world.redis token.text (f token.text)
    rw [← parseToken_eq_some_iff.mp htoken, hbody]
    exact (hps p hp).2
  have hgood : ∀ candidate ∈ candidatesOf (findTokens (fill text ps)),
      ¬ vault.Retyped t s st.world.redis candidate := by
    intro candidate hmem hretyped
    obtain ⟨ty, id, raw, deadline, rfl, hlive, hholds⟩ :=
      hstands candidate hmem
    obtain ⟨ty1, ty2, id', original, raw', deadline', htoken, hty, hne,
      hlive', hholds'⟩ := hretyped
    obtain ⟨rfl, rfl⟩ := renderToken_inj hholds.1 hholds.2.1 hty
      hholds'.2.1 htoken
    cases hlive.symm.trans hlive'
    exact hne (hholds'.unique hholds).1
  obtain ⟨resolved, hresolve, hget⟩ :=
    resolveMany_of_not_retyped hsound hgood
  have hknown : unknownOf (candidatesOf (findTokens (fill text ps)))
      resolved = [] := by
    unfold unknownOf
    rw [List.filter_eq_nil_iff]
    intro candidate hmem
    rw [(hget candidate _).mpr ⟨hmem, hstands candidate hmem⟩]
    exact Bool.false_ne_true
  -- what is written for a body is what it stands for
  have hwritten : ∀ p ∈ ps, restoreBody resolved
      policy.unknownOutputTokenAction p.body = f p.body := by
    intro p hp
    obtain ⟨token, htoken⟩ := (hps p hp).1
    obtain ⟨v, hv, hbody⟩ := @mem_pieces_body _ text _ _ hp 0
    obtain ⟨spot, hspot, hspot'⟩ := mem_spots hv 0
    have hparse : parseToken spot.2 = some token := by
      rw [hspot', hbody, htoken]
      exact parseToken_text token
    have hmem : token.text ∈
        candidatesOf (findTokens (fill text ps)) := by
      unfold candidatesOf
      rw [List.mem_dedup, hfound, List.mem_map]
      refine ⟨⟨token, spot.1, spot.1 + spot.2.length⟩,
        List.mem_filterMap.mpr ⟨spot, hspot, ?_⟩, rfl⟩
      rw [hparse]
      rfl
    unfold restoreBody standIn
    rw [htoken, parseToken_text]
    simp only
    rw [(hget _ _).mpr ⟨hmem, hstands _ hmem⟩]
  have hfill : fill (fill text ps) ((findTokens (fill text ps)).map
      (patchFor resolved policy.unknownOutputTokenAction)) =
        fill text (ps.map (Patch.rewrite f)) := by
    rw [hfound, map_patchFor _ _ (by
      intro spot hspot
      obtain ⟨p, hp, hbody⟩ := hspots spot hspot
      obtain ⟨token, htoken⟩ := (hps p hp).1
      exact ⟨token, hbody.trans htoken⟩), fill_fill]
    congr 1
    apply List.map_congr_left
    intro p hp
    unfold Patch.rewrite
    rw [hwritten p hp]
  unfold OutputPipeline.restore
  by_cases hnone : findTokens (fill text ps) = []
  · refine ⟨passthrough
      { content := some (fill text ps), model := some model }
      (fill text ps), ?_, ?_⟩
    · rw [checked_bind_ok_iff]
      refine ⟨_, hcontent, ?_⟩
      simp only
      rw [if_pos hnone]
      rfl
    · rw [← hfill, hnone]
      show fill text ps = fill (fill text ps) []
      exact (slice_zero_length _).symm
  · refine ⟨⟨fill text (ps.map (Patch.rewrite f)),
      { restored := resolved.length
        unknownTokens := (unknownOf
          (candidatesOf (findTokens (fill text ps))) resolved).length },
      some model, none⟩, ?_, rfl⟩
    rw [checked_bind_ok_iff]
    refine ⟨_, hcontent, ?_⟩
    simp only
    rw [if_neg hnone, bind_ok_iff]
    refine ⟨resolved, st.world, hresolve, ?_⟩
    rw [if_neg (by
      rw [hknown]
      exact fun h => h.1 rfl), checked_bind_ok_iff]
    refine ⟨_, substitute_eq_fill _ _ _ _, ?_⟩
    rw [hfill]
    rfl

end Restoring

-- ==================================================== the round trip

/-- What the round trip gives back. Under a policy that tokenizes or
allows every selected span, restoring what a transform returned, at any
later moment at which the records of its mappings are live, gives the
text with each tokenized span in its first spelling. That is the text
itself exactly when writing these spellings into it changes nothing: when
each span has its first spelling, and, where the spellings are as long as
the spans, only then. -/
theorem round_trip_iff (vault : RedisTokenVault) (unicode : Unicode)
    (fingerprinter : Fingerprinter) (t s : UUID)
    (before after : List VaultOp) {text : Text}
    {entities : List DetectedEntity} {policy : PolicySnapshot}
    {out : TransformedText} {w later : World} {model : Text} {limit : Nat}
    (hlimit : 1 ≤ limit) (hmodel : unicode.strip model ≠ [])
    (htext : findTokens text = [])
    (htransform : runIn (transform unicode vault.hashes fingerprinter
      vault.like t s text entities policy)
        (vault.run .start before).world = (.ok out, w))
    {selected : List DetectedEntity}
    (hselected : selectEntities text entities policy = .ok selected)
    (hactions : ∀ e ∈ selected, policy.actionFor e.entityType = .tokenize ∨
      policy.actionFor e.entityType = .allow)
    (hlength : out.text.length ≤ limit)
    (hlater : (vault.run { vault.run .start before with world := w }
      after).world = later)
    (hdistinct : vault.secrets.DistinctBelow later.idsDrawn)
    (hlive : ∀ m ∈ out.mappings, ∃ e,
      vault.entryAt later.redis (.token t s m.tokenId) = some e) :
    let r := (vault.run .start before).world.redis
    let spans := tokenizedSpans policy selected
    let first := spelling vault unicode fingerprinter t s text r spans
    ∃ restored, runIn ((OutputPipeline.mk (resolver vault) limit
        hlimit).restore unicode t s
          { content := some out.text, model := some model } policy) later =
        (.ok restored, later) ∧
      (restored.text = text ↔
        respelled vault unicode fingerprinter t s text r spans = text) ∧
      ((∀ e ∈ spans, first e = slice text e.start e.stop) →
        restored.text = text) ∧
      ((∀ e ∈ spans, (first e).length = e.stop - e.start) →
        restored.text = text →
          ∀ e ∈ spans, first e = slice text e.start e.stop) := by
  intro r spans first
  obtain ⟨selected', minted, hplans, hmint, hok, hout, hmappings, -⟩ :=
    transform_ok htransform
  cases hselected.symm.trans hplans.selects
  have hsound : vault.Sound (vault.run .start before) := run_sound before
  -- the system after the transform, and later
  obtain ⟨st, rfl, hpending, hst, hdrawn, hminting⟩ :=
    mint_reaches hsound hmint
  have hfinal : vault.Sound (vault.run st after) :=
    (hst.throughout after).last
  have hworld : (vault.run st after).world = later := by
    rw [← hlater]
    exact run_world (show st.world = VaultState.world
      { vault.run .start before with world := st.world } from rfl)
      hpending after
  have hmore := run_drawn_le hst after
  rw [← hworld] at hdistinct hlive ⊢
  have hbefore := run_minted
    (hdistinct.mono (le_trans hdrawn hmore))
  have hminted := hminting hbefore (hdistinct.mono hmore)
  obtain ⟨-, hcarries⟩ := run_carries hminted hst after hdistinct
  have htokens := transform_tokens hbefore (hdistinct.mono hmore) hactions
    hmint hok hmappings
  -- each token still stands for the first spelling of its span
  have hstands : ∀ e p, Replaces vault unicode fingerprinter t s text r
      st.world.redis spans out.mappings e p →
        (∃ token : Token, p.body = token.text) ∧
          vault.Stands t s (vault.run st after).world.redis p.body
            (first e) := by
    intro e p hp
    obtain ⟨hmac, id, hbody, ⟨m, hm, rfl⟩, -, raw, hrecord, hholds⟩ :=
      hp.bound
    refine ⟨⟨⟨e.entityType, m.tokenId, hholds.1, hholds.2.1⟩, hbody⟩, ?_⟩
    obtain ⟨entry, hentry⟩ := hlive m hm
    have hvalue := hcarries t s m.tokenId entry.value
      (hminted.record_drawn _ _ _ _ hrecord)
      (valueAt_eq_some_iff.mpr ⟨entry.deadline, hentry⟩)
    rw [hrecord] at hvalue
    refine ⟨e.entityType, m.tokenId, raw, entry.deadline, hbody, ?_,
      hholds⟩
    rw [hentry, Option.some.inj hvalue]
  have hchoice : ∃ f : Text → Text, ∀ body original,
      vault.Stands t s (vault.run st after).world.redis body original →
        f body = original := by
    classical
    refine ⟨fun body => if h : ∃ original, vault.Stands t s
      (vault.run st after).world.redis body original
        then h.choose else [], ?_⟩
    intro body original h
    have hex : ∃ original, vault.Stands t s
      (vault.run st after).world.redis body original := ⟨original, h⟩
    exact (dif_pos hex).trans (h.unique hex.choose_spec)
  obtain ⟨f, hf⟩ := hchoice
  have hps : ∀ p ∈ patches unicode vault.hashes text minted
      (withActions policy selected),
      (∃ token : Token, p.body = token.text) ∧
        vault.Stands t s (vault.run st after).world.redis p.body
          (f p.body) := by
    intro p hp
    obtain ⟨e, -, hep⟩ := Aligned.exists_left htokens hp
    obtain ⟨htoken, hstand⟩ := hstands e p hep
    refine ⟨htoken, ?_⟩
    rw [hf p.body _ hstand]
    exact hstand
  have hrespelled : fill text ((patches unicode vault.hashes text minted
      (withActions policy selected)).map (Patch.rewrite f)) =
        respelled vault unicode fingerprinter t s text r spans := by
    unfold respelled
    congr 1
    apply Aligned.map_eq htokens
    intro e _ p hep
    unfold Patch.rewrite
    rw [hf p.body _ (hstands e p hep).2, hep.start_eq, hep.stop_eq]
  rw [hout] at hlength ⊢
  obtain ⟨restored, hrun, htext'⟩ := @restore_fill vault unicode t s
    policy model limit hlimit hmodel _ hfinal text htext _ hlength f hps
  rw [hrespelled] at htext'
  have hfits := hplans.filter_fits
    (fun e => decide (policy.actionFor e.entityType = .tokenize)) first
  refine ⟨restored, hrun, by rw [htext'], ?_, ?_⟩
  · intro hall
    rw [htext']
    apply fill_eq_self hfits
    intro p hp
    obtain ⟨e, he, rfl⟩ := List.mem_map.mp hp
    exact hall e he
  · intro hsize hsame e he
    rw [htext'] at hsame
    refine eq_slice_of_fill_eq_self hfits ?_ hsame
      ⟨e.start, e.stop, first e⟩ (List.mem_map.mpr ⟨e, he, rfl⟩)
    intro p hp
    obtain ⟨e', he', rfl⟩ := List.mem_map.mp hp
    exact hsize e' he'

-- ==================================================== on fixed inputs

/-- The digests of one address: its fingerprint under a fixed key, and the
digest of that. -/
def addressHashes : Hashes :=
  Hashes.ofTables
    [((List.replicate 32 7,
        [0, 0, 0, 16, 0, 0, 0, 0, 0, 0, 0, 0, 0, 0, 0, 0, 0, 0, 0, 2,
          0, 0, 0, 16, 0, 0, 0, 0, 0, 0, 0, 0, 0, 0, 0, 0, 0, 0, 0, 3,
          0, 0, 0, 13, 69, 77, 65, 73, 76, 95, 65, 68, 68, 82, 69, 83, 83,
          0, 0, 0, 6, 97, 64, 120, 46, 105, 111]),
      [172, 130, 128, 15, 202, 60, 18, 128, 174, 129, 58, 176, 134, 137,
        88, 88, 144, 140, 19, 247, 16, 155, 61, 185, 79, 90, 83, 83, 222,
        68, 141, 104])]
    [(encodeUtf8
        "ac82800fca3c1280ae813ab086895858908c13f7109b3db94f5a5353de448d68".toList,
      [82, 178, 169, 96, 70, 26, 77, 202, 176, 210, 46, 35, 65, 76, 240,
        152, 172, 137, 145, 14, 128, 198, 16, 130, 2, 203, 1, 237, 85, 68,
        37, 1])]

def addressAt (start : Nat) : DetectedEntity where
  entityType := "EMAIL_ADDRESS".toList
  start := start
  stop := start + 6
  score := 1
  span_forward := by omega
  score_bounded := by decide +kernel

/-- Transform a text on an empty server, with these addresses detected. -/
def protectAddresses (text : Text) (starts : List Nat) :
    Except Exn TransformedText × World :=
  runIn (transform Unicode.ascii addressHashes sampleFingerprinter
    (Reference.vault addressHashes).like ⟨2⟩ ⟨3⟩ text
    (starts.map addressAt) namesOnlyPolicy) VaultState.start.world

def addressPipeline : OutputPipeline World where
  vault := resolver (Reference.vault addressHashes)
  maxOutputChars_pos := defaultMaxOutputChars_pos

def addressToken : Text :=
  "⟦SGW:EMAIL_ADDRESS:00000000000000000000000000⟧".toList

/-- Two spellings of one address share a token, and the second comes back
in the spelling of the first. -/
theorem second_spelling_lost :
    findTokens "A@x.io a@x.io".toList = [] ∧
    (protectAddresses "A@x.io a@x.io".toList [0, 7]).1.toOption.map
        TransformedText.text = some (addressToken ++ ' ' :: addressToken) ∧
    (runIn (addressPipeline.restore Unicode.ascii ⟨2⟩ ⟨3⟩
        { content := some (addressToken ++ ' ' :: addressToken)
          model := some "m".toList } namesOnlyPolicy)
        (protectAddresses "A@x.io a@x.io".toList [0, 7]).2).1 =
      .ok { text := "A@x.io A@x.io".toList
            summary := { restored := 1 }
            model := some "m".toList
            usage := none } := by
  decide +kernel

/-- What protecting one address returns. -/
def protectedAddress : TransformedText where
  text := addressToken
  mappings := [
    { token := addressToken
      tokenId := "00000000000000000000000000".toList
      entityType := "EMAIL_ADDRESS".toList
      originalValue := "A@x.io".toList
      normalizedHmac :=
        "ac82800fca3c1280ae813ab086895858908c13f7109b3db94f5a5353de448d68".toList }]
  summary :=
    { detected := 1, tokenized := 1
      entityTypes := [("EMAIL_ADDRESS".toList, 1)] }

/-- A single spelling comes back as it was, a second later. -/
theorem one_spelling_kept :
    let later := (protectAddresses "A@x.io".toList [0]).2.elapse 1000
    ∃ restored, runIn (addressPipeline.restore Unicode.ascii ⟨2⟩ ⟨3⟩
        { content := some addressToken, model := some "m".toList }
        namesOnlyPolicy) later = (.ok restored, later) ∧
      restored.text = "A@x.io".toList := by
  intro later
  have hprotected : (protectAddresses "A@x.io".toList [0]).1 =
      .ok protectedAddress := by decide +kernel
  have htransform : protectAddresses "A@x.io".toList [0] =
      (.ok protectedAddress, (protectAddresses "A@x.io".toList [0]).2) :=
    Prod.ext hprotected rfl
  have hlive : ∀ m ∈ protectedAddress.mappings,
      ((Reference.vault addressHashes).entryAt later.redis
        (.token ⟨2⟩ ⟨3⟩ m.tokenId)).isSome = true := by
    decide +kernel
  obtain ⟨restored, hrun, -, hsame, -⟩ :=
    round_trip_iff (Reference.vault addressHashes) Unicode.ascii
      sampleFingerprinter ⟨2⟩ ⟨3⟩ [] [.wait 1000]
      defaultMaxOutputChars_pos
      (show Unicode.ascii.strip "m".toList ≠ [] by decide +kernel)
      (by decide +kernel) htransform
      (show selectEntities "A@x.io".toList [addressAt 0] namesOnlyPolicy =
        .ok [addressAt 0] by decide +kernel)
      (by decide +kernel) (by decide +kernel) rfl
      (Reference.secrets_distinct (show later.idsDrawn ≤ 2 ^ 128 by
        decide +kernel))
      (fun m hm => Option.isSome_iff_exists.mp (hlive m hm))
  exact ⟨restored, hrun, hsame (by decide +kernel)⟩

end PrivacyGateway.Restoration
