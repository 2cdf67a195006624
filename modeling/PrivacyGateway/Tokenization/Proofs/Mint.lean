/-
What the mint asks of the vault, and what it makes of the answer.

Every span of the plan that needs a mapping is asked for, in plan order
(`pendingOf_ok`), in one call (`mint_ok`). The mapping of a plan index
comes from the pending span with that index and the token that was
returned for it (`mappingsFor_awaits`); where the vault returned the
rendering of an id under the span's own type, the mapping's token is that
rendering (`mappingFor_render`). A transform returns a mapping for each
span that needs one, in plan order (`transform_mappings`).

The last section says when the mint returns.
-/
import PrivacyGateway.Lib.Aligned
import PrivacyGateway.Tokenization.Proofs.Transform

namespace PrivacyGateway.Tokenization

open Effect Splice

section Mint

variable {unicode : Unicode} {hashes : Hashes}
  {fingerprinter : Fingerprinter} {tenantId sessionId : UUID} {text : Text}

/-- The pending span of a planned one. -/
structure Awaits (unicode : Unicode) (hashes : Hashes)
    (fingerprinter : Fingerprinter) (tenantId sessionId : UUID)
    (text : Text) (item : Planned × Nat) (p : Pending) : Prop where
  index_eq : p.index = item.2
  type_eq : p.entityType = item.1.1.entityType
  original_eq : p.original = slice text item.1.1.start item.1.1.stop
  identity : identityOf unicode hashes fingerprinter tenantId sessionId
    p.entityType p.original = .ok p.normalizedHmac

theorem pendingOf_ok (items : List (Planned × Nat)) :
    ∀ {pendings : List Pending},
      pendingOf unicode hashes fingerprinter tenantId sessionId text
        items = .ok pendings →
      List.Forall₂ (Awaits unicode hashes fingerprinter tenantId sessionId
        text) (items.filter (fun item => needsMapping item.1.2))
          pendings := by
  induction items with
  | nil =>
      intro pendings h
      cases h
      exact .nil
  | cons item items ih =>
      intro pendings h
      unfold pendingOf at h
      by_cases hneeds : needsMapping item.1.2 = true
      · rw [if_pos hneeds] at h
        rw [List.filter_cons, if_pos hneeds]
        unfold pendingFor at h
        cases hidentity : identityOf unicode hashes fingerprinter tenantId
            sessionId item.1.1.entityType
            (slice text item.1.1.start item.1.1.stop) with
        | error e =>
            rw [hidentity] at h
            cases h
        | ok hmac =>
            rw [hidentity] at h
            simp only at h
            cases hrest : pendingOf unicode hashes fingerprinter tenantId
                sessionId text items with
            | error e =>
                rw [hrest] at h
                cases h
            | ok rest =>
                rw [hrest] at h
                cases h
                exact .cons ⟨rfl, rfl, rfl, hidentity⟩ (ih hrest)
      · rw [if_neg hneeds] at h
        rw [List.filter_cons, if_neg hneeds]
        exact ih h

theorem mappingsFor_get (pendings : List Pending) :
    ∀ {tokens : List Text} {minted : Dict Nat EntityMapping},
      mappingsFor pendings tokens = .ok minted →
      ∀ {n : Nat} {m : EntityMapping}, minted.get? n = some m →
        ∃ p token, (p, token) ∈ pendings.zip tokens ∧ p.index = n ∧
          mappingFor p token = .ok m := by
  induction pendings with
  | nil =>
      intro tokens minted h n m hget
      cases h
      cases hget
  | cons p pendings ih =>
      intro tokens minted h n m hget
      cases tokens with
      | nil =>
          cases h
          cases hget
      | cons token tokens =>
          unfold mappingsFor at h
          cases hmapping : mappingFor p token with
          | error e =>
              rw [hmapping] at h
              cases h
          | ok mapping =>
              rw [hmapping] at h
              simp only at h
              cases hrest : mappingsFor pendings tokens with
              | error e =>
                  rw [hrest] at h
                  cases h
              | ok rest =>
                  rw [hrest] at h
                  cases h
                  rw [List.zip_cons_cons]
                  unfold Dict.get? at hget
                  by_cases hindex : p.index = n
                  · rw [if_pos hindex] at hget
                    cases hget
                    exact ⟨p, token, List.mem_cons_self, hindex, hmapping⟩
                  · rw [if_neg hindex] at hget
                    obtain ⟨q, token', hmem, hq, hm⟩ := ih hrest hget
                    exact ⟨q, token', List.mem_cons_of_mem _ hmem, hq, hm⟩

/-- A token of the span's own type is taken as it is. -/
theorem mappingFor_render {p : Pending} {id : Text} {m : EntityMapping}
    (hty : isValidEntityType p.entityType = true)
    (hid : isValidTokenId id = true)
    (h : mappingFor p (renderToken p.entityType id) = .ok m) :
    m.token = renderToken p.entityType id ∧ m.tokenId = id := by
  have hcoerce : coerceVaultToken (renderToken p.entityType id)
      p.entityType = .ok ⟨p.entityType, id, hty, hid⟩ := by
    have hparse := parseToken_text ⟨p.entityType, id, hty, hid⟩
    unfold Token.text at hparse
    unfold coerceVaultToken
    rw [hparse]
    exact if_pos rfl
  unfold mappingFor at h
  rw [hcoerce] at h
  cases h
  exact ⟨rfl, rfl⟩

/-- The mint made no call, or one, and paired its answer with the pending
spans. -/
theorem mint_ok {σ : Type} {vault : VaultLike σ} {plan : List Planned}
    {ttlSeconds : Int} {w w' : σ} {minted : Dict Nat EntityMapping}
    (h : runIn (mint unicode hashes fingerprinter tenantId sessionId vault
      text plan ttlSeconds) w = (.ok minted, w')) :
    ∃ pendings, pendingOf unicode hashes fingerprinter tenantId sessionId
        text plan.zipIdx = .ok pendings ∧
      ((pendings = [] ∧ minted = [] ∧ w' = w) ∨
        ∃ tokens, runIn (vault.getOrCreateMany tenantId sessionId
            (pendings.map Pending.request) ttlSeconds) w =
            (.ok tokens, w') ∧
          mappingsFor pendings tokens = .ok minted ∧
          tokens.length = pendings.length) := by
  unfold mint at h
  obtain ⟨pendings, hpending, h⟩ := checked_bind_ok_iff.mp h
  refine ⟨pendings, hpending, ?_⟩
  by_cases hnil : pendings = []
  · rw [if_pos hnil] at h
    cases h
    exact Or.inl ⟨hnil, rfl, rfl⟩
  · rw [if_neg hnil] at h
    obtain ⟨tokens, w1, hcall, h⟩ := bind_ok_iff.mp h
    by_cases hlength : tokens.length = pendings.length
    · rw [if_pos hlength] at h
      obtain ⟨hminted, rfl⟩ := Prod.mk.inj h
      exact Or.inr ⟨tokens, hcall, hminted, hlength⟩
    · rw [if_neg hlength] at h
      cases h

/-- The mapping at a planned span's index is made from the span's own
pending entry. -/
theorem mappingsFor_awaits {plan : List Planned} {pendings : List Pending}
    {tokens : List Text} {minted : Dict Nat EntityMapping}
    (hpending : pendingOf unicode hashes fingerprinter tenantId sessionId
      text plan.zipIdx = .ok pendings)
    (hmappings : mappingsFor pendings tokens = .ok minted)
    {item : Planned × Nat} (hitem : item ∈ plan.zipIdx)
    {m : EntityMapping} (hget : minted.get? item.2 = some m) :
    needsMapping item.1.2 = true ∧
    ∃ p token, (p, token) ∈ pendings.zip tokens ∧
      Awaits unicode hashes fingerprinter tenantId sessionId text item p ∧
      mappingFor p token = .ok m := by
  obtain ⟨p, token, hzip, hindex, hpair⟩ :=
    mappingsFor_get _ hmappings hget
  obtain ⟨other, hother, hawaits⟩ :=
    Aligned.exists_left (pendingOf_ok _ hpending) (List.of_mem_zip hzip).1
  -- two entries of the plan with one index are one entry
  have hsame : other = item := by
    have h1 := List.mem_zipIdx_iff_getElem?.mp (List.mem_filter.mp hother).1
    have h2 := List.mem_zipIdx_iff_getElem?.mp hitem
    have hidx := hawaits.index_eq.symm.trans hindex
    rw [hidx, h2] at h1
    exact Prod.ext (Option.some.inj h1).symm hidx
  rw [hsame] at hawaits hother
  exact ⟨(List.mem_filter.mp hother).2, p, token, hzip, hawaits, hpair⟩

/-- A mapping carries its pending span's fields and a well-formed
token. -/
theorem mappingFor_ok {p : Pending} {rawToken : Text} {m : EntityMapping}
    (h : mappingFor p rawToken = .ok m) :
    m.entityType = p.entityType ∧ m.originalValue = p.original ∧
      m.normalizedHmac = p.normalizedHmac ∧
      ∃ token : Token, m.token = token.text ∧
        m.tokenId = token.tokenId := by
  unfold mappingFor at h
  cases hcoerce : coerceVaultToken rawToken p.entityType with
  | error e =>
      rw [hcoerce] at h
      cases h
  | ok token =>
      rw [hcoerce] at h
      cases h
      exact ⟨rfl, rfl, rfl, token, rfl, rfl⟩

/-- The token is of the span's own type. -/
theorem mappingFor_token {p : Pending} {rawToken : Text} {m : EntityMapping}
    (h : mappingFor p rawToken = .ok m) :
    ∃ token : Token, m.token = token.text ∧
      token.entityType = p.entityType := by
  unfold mappingFor at h
  cases hcoerce : coerceVaultToken rawToken p.entityType with
  | error e =>
      rw [hcoerce] at h
      cases h
  | ok token =>
      rw [hcoerce] at h
      cases h
      refine ⟨token, rfl, ?_⟩
      unfold coerceVaultToken at hcoerce
      split at hcoerce
      · split at hcoerce
        · cases hcoerce
          assumption
        · cases hcoerce
      · split at hcoerce
        · split at hcoerce
          · cases hcoerce
            rfl
          · cases hcoerce
        · cases hcoerce

/-- Whatever becomes of it, the mint touches the vault in one call or not
at all. -/
theorem mint_calls {σ : Type} {vault : VaultLike σ} {plan : List Planned}
    {ttlSeconds : Int} {w w' : σ}
    {result : Except Exn (Dict Nat EntityMapping)}
    (h : runIn (mint unicode hashes fingerprinter tenantId sessionId vault
      text plan ttlSeconds) w = (result, w')) :
    w' = w ∨ ∃ pendings answer, pendingOf unicode hashes fingerprinter
        tenantId sessionId text plan.zipIdx = .ok pendings ∧
      runIn (vault.getOrCreateMany tenantId sessionId
        (pendings.map Pending.request) ttlSeconds) w = (answer, w') := by
  unfold mint at h
  cases hpending : pendingOf unicode hashes fingerprinter tenantId
      sessionId text plan.zipIdx with
  | error e =>
      rw [hpending, checked_bind_error] at h
      cases h
      exact Or.inl rfl
  | ok pendings =>
      rw [hpending, checked_bind_ok] at h
      by_cases hnil : pendings = []
      · rw [if_pos hnil] at h
        cases h
        exact Or.inl rfl
      · rw [if_neg hnil, runIn_bind] at h
        cases hcall : runIn (vault.getOrCreateMany tenantId sessionId
            (pendings.map Pending.request) ttlSeconds) w with
        | mk answer w1 =>
            refine Or.inr ⟨pendings, answer, rfl, ?_⟩
            rw [hcall] at h
            cases answer with
            | error e =>
                cases h
                exact hcall
            | ok tokens =>
                simp only at h
                by_cases hlength : tokens.length = pendings.length
                · rw [if_pos hlength, runIn_checked] at h
                  cases h
                  exact hcall
                · rw [if_neg hlength] at h
                  cases h
                  exact hcall

theorem mint_token {σ : Type} {vault : VaultLike σ} {plan : List Planned}
    {ttlSeconds : Int} {w w' : σ} {minted : Dict Nat EntityMapping}
    (h : runIn (mint unicode hashes fingerprinter tenantId sessionId vault
      text plan ttlSeconds) w = (.ok minted, w')) {n : Nat}
    {m : EntityMapping} (hget : minted.get? n = some m) :
    ∃ token : Token, m.token = token.text := by
  obtain ⟨pendings, -, hcase⟩ := mint_ok h
  rcases hcase with ⟨-, rfl, -⟩ | ⟨tokens, -, hmappings, -⟩
  · cases hget
  · obtain ⟨p, rawToken, -, -, hmapping⟩ := mappingsFor_get _ hmappings hget
    obtain ⟨-, -, -, token, htoken, -⟩ := mappingFor_ok hmapping
    exact ⟨token, htoken⟩

/-- The mapping of a planned span is the span's own: it needs one, and
the mapping has its type, its text and its fingerprint. -/
theorem mint_own {σ : Type} {vault : VaultLike σ}
    {plan : List Planned} {ttlSeconds : Int} {w w' : σ}
    {minted : Dict Nat EntityMapping}
    (h : runIn (mint unicode hashes fingerprinter tenantId sessionId vault
      text plan ttlSeconds) w = (.ok minted, w'))
    {item : Planned × Nat} (hitem : item ∈ plan.zipIdx)
    {m : EntityMapping} (hget : minted.get? item.2 = some m) :
    needsMapping item.1.2 = true ∧ m.entityType = item.1.1.entityType ∧
      m.originalValue = slice text item.1.1.start item.1.1.stop ∧
      identityOf unicode hashes fingerprinter tenantId sessionId
        item.1.1.entityType (slice text item.1.1.start item.1.1.stop) =
          .ok m.normalizedHmac := by
  obtain ⟨pendings, hpending, hcase⟩ := mint_ok h
  rcases hcase with ⟨-, rfl, -⟩ | ⟨tokens, -, hmappings, -⟩
  · cases hget
  · obtain ⟨hneeds, p, token, -, hawaits, hmapping⟩ :=
      mappingsFor_awaits hpending hmappings hitem hget
    obtain ⟨htype, horiginal, hhmac, -⟩ := mappingFor_ok hmapping
    have hidentity := hawaits.identity
    rw [hawaits.type_eq, hawaits.original_eq] at hidentity
    refine ⟨hneeds, htype.trans hawaits.type_eq,
      horiginal.trans hawaits.original_eq, ?_⟩
    rw [hhmac]
    exact hidentity

/-- And its token is of the span's type. -/
theorem mint_typed {σ : Type} {vault : VaultLike σ}
    {plan : List Planned} {ttlSeconds : Int} {w w' : σ}
    {minted : Dict Nat EntityMapping}
    (h : runIn (mint unicode hashes fingerprinter tenantId sessionId vault
      text plan ttlSeconds) w = (.ok minted, w'))
    {item : Planned × Nat} (hitem : item ∈ plan.zipIdx)
    {m : EntityMapping} (hget : minted.get? item.2 = some m) :
    ∃ token : Token, m.token = token.text ∧
      token.entityType = item.1.1.entityType := by
  obtain ⟨pendings, hpending, hcase⟩ := mint_ok h
  rcases hcase with ⟨-, rfl, -⟩ | ⟨tokens, -, hmappings, -⟩
  · cases hget
  · obtain ⟨-, p, rawToken, -, hawaits, hmapping⟩ :=
      mappingsFor_awaits hpending hmappings hitem hget
    obtain ⟨token, htoken, htype⟩ := mappingFor_token hmapping
    exact ⟨token, htoken, htype.trans hawaits.type_eq⟩

end Mint

/-- The selected spans that the policy tokenizes. -/
def tokenizedSpans (policy : PolicySnapshot)
    (selected : List DetectedEntity) : List DetectedEntity :=
  selected.filter (fun e =>
    decide (policy.actionFor e.entityType = .tokenize))

/-- The plan's entries with an action of a kind, in plan order, are the
selected spans the policy has such an action for. -/
theorem filter_withActions (policy : PolicySnapshot)
    (kind : EntityAction → Bool) (spans : List DetectedEntity) :
    ∀ n, (((withActions policy spans).zipIdx n).filter
        (fun item => kind item.1.2)).map (fun item => item.1.1) =
      spans.filter (fun e => kind (policy.actionFor e.entityType)) := by
  induction spans with
  | nil =>
      intro n
      rfl
  | cons e spans ih =>
      intro n
      show ((((e, policy.actionFor e.entityType), n) ::
        (withActions policy spans).zipIdx (n + 1)).filter _).map _ = _
      by_cases hkind : kind (policy.actionFor e.entityType) = true
      · rw [List.filter_cons_of_pos (by exact hkind),
          List.filter_cons_of_pos (by exact hkind), List.map_cons, ih]
      · rw [List.filter_cons_of_neg (by exact hkind),
          List.filter_cons_of_neg (by exact hkind), ih]

/-- Under a policy that only tokenizes and allows, the spans that need a
mapping are those it tokenizes. -/
theorem filter_needsMapping {policy : PolicySnapshot}
    {selected : List DetectedEntity}
    (h : ∀ e ∈ selected, policy.actionFor e.entityType = .tokenize ∨
      policy.actionFor e.entityType = .allow) :
    ((withActions policy selected).zipIdx.filter
        (fun item => needsMapping item.1.2)).map (fun item => item.1.1) =
      tokenizedSpans policy selected := by
  rw [filter_withActions policy needsMapping selected 0]
  unfold tokenizedSpans
  apply List.filter_congr
  intro e he
  rcases h e he with haction | haction
  · rw [haction]
    rfl
  · rw [haction]
    rfl

/-- Where every span is mapped or allowed, the patches are those of the
spans that need a mapping. -/
theorem patches_mapped {unicode : Unicode} {hashes : Hashes} {text : Text}
    {policy : PolicySnapshot} {selected : List DetectedEntity}
    {minted : Dict Nat EntityMapping}
    (hactions : ∀ e ∈ selected,
      needsMapping (policy.actionFor e.entityType) = true ∨
        policy.actionFor e.entityType = .allow) :
    patches unicode hashes text minted (withActions policy selected) =
      ((withActions policy selected).zipIdx.filter
        (fun item => needsMapping item.1.2)).filterMap
          (patchOf unicode hashes text minted) := by
  unfold patches
  rw [List.filterMap_filter]
  apply List.filterMap_congr
  intro item hitem
  by_cases hneeds : needsMapping item.1.2 = true
  · rw [if_pos hneeds]
  · rw [if_neg hneeds]
    obtain ⟨e, he, hplanned⟩ :=
      List.mem_map.mp (List.fst_mem_of_mem_zipIdx hitem)
    have haction : item.1.2 = .allow := by
      rw [← hplanned] at hneeds ⊢
      exact (hactions e he).resolve_left hneeds
    unfold patchOf replacementOf replacementFor
    rw [haction]

/-- The selected spans that need a mapping. -/
def mappedSpans (policy : PolicySnapshot)
    (selected : List DetectedEntity) : List DetectedEntity :=
  selected.filter (fun e => needsMapping (policy.actionFor e.entityType))

theorem mem_mappedSpans {policy : PolicySnapshot}
    {selected : List DetectedEntity} {e : DetectedEntity} :
    e ∈ mappedSpans policy selected ↔ e ∈ selected ∧
      needsMapping (policy.actionFor e.entityType) = true :=
  List.mem_filter

/-- What a returned mapping says of the span it was made for. -/
structure Maps (text : Text) (policy : PolicySnapshot)
    (written : List (Patch Char)) (e : DetectedEntity)
    (m : EntityMapping) : Prop where
  type_eq : m.entityType = e.entityType
  original_eq : m.originalValue = slice text e.start e.stop
  token_written : policy.actionFor e.entityType = .tokenize →
    (⟨e.start, e.stop, m.token⟩ : Patch Char) ∈ written

/-- The mappings of a returned transform are those of the spans that need
one, in plan order, and its text has the token of each span it
tokenizes. -/
theorem transform_mappings {σ : Type} {unicode : Unicode}
    {hashes : Hashes} {fingerprinter : Fingerprinter}
    {tenantId sessionId : UUID} {text : Text}
    {entities : List DetectedEntity} {policy : PolicySnapshot}
    {vault : VaultLike σ} {w w' : σ} {out : TransformedText}
    (h : runIn (transform unicode hashes fingerprinter vault tenantId
      sessionId text entities policy) w = (.ok out, w')) :
    ∃ selected written, Plans text entities policy selected ∧
      Splice.Fits text.length 0 written ∧ out.text = fill text written ∧
      List.Forall₂ (Maps text policy written)
        (mappedSpans policy selected) out.mappings := by
  obtain ⟨selected, minted, hplans, hmint, hok, htext, hmappings, -⟩ :=
    transform_ok h
  refine ⟨selected, _, hplans, patches_fit hplans.chain hplans.stop_le,
    htext, ?_⟩
  have hneeded : out.mappings = ((withActions policy selected).zipIdx.filter
      (fun item => needsMapping item.1.2)).filterMap
        (fun item => minted.get? item.2) := by
    rw [hmappings, List.filterMap_filter]
    apply List.filterMap_congr
    intro item hitem
    by_cases hneeds : needsMapping item.1.2 = true
    · rw [if_pos hneeds]
    · rw [if_neg hneeds]
      cases hget : minted.get? item.2 with
      | none => rfl
      | some m => exact absurd (mint_own hmint hitem hget).1 hneeds
  rw [hneeded]
  unfold mappedSpans
  rw [← filter_withActions policy needsMapping selected 0,
    List.forall₂_map_left_iff]
  apply Aligned.filterMap
  intro item hitem
  obtain ⟨hmem, hneeds⟩ := List.mem_filter.mp hitem
  obtain ⟨r, hr⟩ := hok item hmem
  -- its mapping is there, or the splice loop would have raised
  have hmapping : ∃ m, minted.get? item.2 = some m := by
    unfold replacementOf replacementFor at hr
    cases hget : minted.get? item.2 with
    | some m => exact ⟨m, rfl⟩
    | none =>
        rw [hget] at hr
        cases haction : item.1.2 with
        | allow =>
            rw [haction] at hneeds
            cases hneeds
        | redact =>
            rw [haction] at hneeds
            cases hneeds
        | block =>
            rw [haction] at hr
            cases hr
        | tokenize =>
            rw [haction] at hr
            cases hr
        | pseudonymize =>
            rw [haction] at hr
            cases hr
  obtain ⟨m, hget⟩ := hmapping
  obtain ⟨-, hty, horiginal, -⟩ := mint_own hmint hmem hget
  refine ⟨m, hget, hty, horiginal, ?_⟩
  intro haction
  refine List.mem_filterMap.mpr ⟨item, hmem, ?_⟩
  obtain ⟨e, he, hplanned⟩ :=
    List.mem_map.mp (List.fst_mem_of_mem_zipIdx hmem)
  have htokenize : item.1.2 = .tokenize := by
    rw [← hplanned] at haction ⊢
    exact haction
  unfold patchOf replacementOf replacementFor
  rw [htokenize, hget]
  rfl

-- ==================================================== what returns

section Returns

variable {unicode : Unicode} {hashes : Hashes}
  {fingerprinter : Fingerprinter} {tenantId sessionId : UUID} {text : Text}

/-- The longest normal form that can be fingerprinted, in bytes. -/
def fingerprintLimit : Nat := 256 ^ 4

/-- A fingerprint is computed for whatever fits its framing. -/
theorem identityOf_returns_iff {entityType original : Text} :
    (∃ hmac, identityOf unicode hashes fingerprinter tenantId sessionId
      entityType original = .ok hmac) ↔
      (encodeUtf8 entityType).length < fingerprintLimit ∧
        (encodeUtf8 (normalize unicode entityType original)).length <
          fingerprintLimit := by
  have hbytes : ∀ u : UUID, u.bytes.length = 16 := by
    intro u
    simp [UUID.bytes]
  unfold identityOf Fingerprinter.fingerprint
  cases hframe : Frame.frame 4 [tenantId.bytes, sessionId.bytes,
      encodeUtf8 entityType,
      encodeUtf8 (normalize unicode entityType original)] with
  | none =>
      constructor
      · intro h
        obtain ⟨hmac, hmac_eq⟩ := h
        cases hmac_eq
      · intro h
        obtain ⟨bytes, hsome⟩ := @Frame.frame_isSome 4
          [tenantId.bytes, sessionId.bytes, encodeUtf8 entityType,
            encodeUtf8 (normalize unicode entityType original)] (by
          intro field hfield
          simp only [List.mem_cons, List.not_mem_nil, or_false] at hfield
          rcases hfield with rfl | rfl | rfl | rfl
          · rw [hbytes]
            omega
          · rw [hbytes]
            omega
          · exact h.1
          · exact h.2)
        rw [hframe] at hsome
        cases hsome
  | some message =>
      have hfit := Frame.length_lt_of_frame _ hframe
      constructor
      · intro _
        exact ⟨hfit _ (by simp), hfit _ (by simp)⟩
      · intro _
        exact ⟨_, rfl⟩

/-- A fingerprint is never the empty string. -/
theorem identityOf_ne_nil {entityType original hmac : Text}
    (h : identityOf unicode hashes fingerprinter tenantId sessionId
      entityType original = .ok hmac) : hmac ≠ [] := by
  have hhex : ∀ bytes : Bytes, (hexdigest bytes).length =
      2 * bytes.length := by
    intro bytes
    unfold hexdigest
    induction bytes with
    | nil => rfl
    | cons b bytes ih =>
        rw [List.flatMap_cons, List.length_append, ih, List.length_cons]
        simp only [List.length_cons, List.length_nil]
        omega
  unfold identityOf Fingerprinter.fingerprint at h
  split at h
  · rename_i message hframe
    cases h
    intro hnil
    have hlength := congrArg List.length hnil
    rw [hhex, hashes.hmacSha256_length] at hlength
    cases hlength
  · cases h

theorem pendingOf_returns_iff (items : List (Planned × Nat)) :
    (∃ pendings, pendingOf unicode hashes fingerprinter tenantId sessionId
      text items = .ok pendings) ↔
      ∀ item ∈ items, needsMapping item.1.2 = true →
        ∃ hmac, identityOf unicode hashes fingerprinter tenantId sessionId
          item.1.1.entityType (slice text item.1.1.start item.1.1.stop) =
            .ok hmac := by
  induction items with
  | nil =>
      constructor
      · intro _ item hitem
        exact absurd hitem (List.not_mem_nil)
      · intro _
        exact ⟨[], rfl⟩
  | cons item items ih =>
      unfold pendingOf
      rw [List.forall_mem_cons]
      by_cases hneeds : needsMapping item.1.2 = true
      · rw [if_pos hneeds]
        unfold pendingFor
        cases hidentity : identityOf unicode hashes fingerprinter tenantId
            sessionId item.1.1.entityType
            (slice text item.1.1.start item.1.1.stop) with
        | error e =>
            constructor
            · intro h
              obtain ⟨pendings, hpending⟩ := h
              cases hpending
            · intro h
              obtain ⟨hmac, hok⟩ := h.1 hneeds
              cases hok
        | ok hmac =>
            simp only
            cases hrest : pendingOf unicode hashes fingerprinter tenantId
                sessionId text items with
            | error e =>
                constructor
                · intro h
                  obtain ⟨pendings, hpending⟩ := h
                  cases hpending
                · intro h
                  obtain ⟨pendings, hpending⟩ := ih.mpr h.2
                  rw [hrest] at hpending
                  cases hpending
            | ok rest =>
                constructor
                · intro _
                  exact ⟨fun _ => ⟨hmac, rfl⟩, ih.mp ⟨rest, hrest⟩⟩
                · intro _
                  exact ⟨_, rfl⟩
      · rw [if_neg hneeds, ih]
        constructor
        · intro h
          exact ⟨fun hyes => absurd hyes hneeds, h⟩
        · intro h
          exact h.2

/-- The rendering of a token of the span's own type. -/
def Renders (p : Pending) (token : Text) : Prop :=
  isValidEntityType p.entityType = true ∧
    ∃ id, isValidTokenId id = true ∧ token = renderToken p.entityType id

/-- Where the vault answers with tokens of the spans' own types, every
span gets its mapping. -/
theorem mappingsFor_returns {pendings : List Pending} {tokens : List Text}
    (h : List.Forall₂ Renders pendings tokens) :
    ∃ minted, mappingsFor pendings tokens = .ok minted ∧
      ∀ p ∈ pendings, ∃ m, minted.get? p.index = some m := by
  induction h with
  | nil =>
      refine ⟨[], rfl, ?_⟩
      intro p hp
      exact absurd hp (List.not_mem_nil)
  | @cons p token pendings tokens hrenders _ ih =>
      obtain ⟨minted, hrest, hget⟩ := ih
      obtain ⟨hty, id, hid, rfl⟩ := hrenders
      have hparse := parseToken_text ⟨p.entityType, id, hty, hid⟩
      unfold Token.text at hparse
      have hmapping : ∃ m, mappingFor p (renderToken p.entityType id) =
          .ok m := by
        unfold mappingFor coerceVaultToken
        rw [hparse]
        simp only [if_true]
        exact ⟨_, rfl⟩
      obtain ⟨m, hm⟩ := hmapping
      refine ⟨(p.index, m) :: minted, ?_, ?_⟩
      · unfold mappingsFor
        rw [hm, hrest]
      · intro q hq
        unfold Dict.get?
        by_cases hindex : p.index = q.index
        · exact ⟨m, if_pos hindex⟩
        · rw [if_neg hindex]
          rcases List.mem_cons.mp hq with rfl | hq
          · exact absurd rfl hindex
          · exact hget q hq

/-- The splice loop returns where every span has its replacement. -/
theorem spliceFrom_returns {minted : Dict Nat EntityMapping}
    (order : List (Planned × Nat)) :
    ∀ state : Spliced,
      (∀ item ∈ order, ∃ r,
        replacementOf unicode hashes text minted item = .ok r) →
      ∃ final, spliceFrom unicode hashes text minted state order =
        .ok final := by
  induction order with
  | nil =>
      intro state _
      exact ⟨state, rfl⟩
  | cons item order ih =>
      intro state h
      obtain ⟨⟨r, hr⟩, hrest⟩ := List.forall_mem_cons.mp h
      unfold spliceFrom
      simp only [hr]
      cases r with
      | none => exact ih _ hrest
      | some body => exact ih _ hrest

/-- A span has its replacement unless it is redacted under a name that is
no entity type, or needs a mapping that is not there. -/
theorem replacementOf_returns_iff {minted : Dict Nat EntityMapping}
    {item : Planned × Nat} (hblock : item.1.2 ≠ .block) :
    (∃ r, replacementOf unicode hashes text minted item = .ok r) ↔
      (item.1.2 = .redact →
        isValidEntityType item.1.1.entityType = true) ∧
      (needsMapping item.1.2 = true →
        ∃ m, minted.get? item.2 = some m) := by
  unfold replacementOf replacementFor
  cases haction : item.1.2 with
  | allow => simp [needsMapping]
  | block => exact absurd haction hblock
  | redact =>
      unfold formatRedaction
      cases hvalid : isValidEntityType item.1.1.entityType with
      | true => simp [needsMapping]
      | false => simp [needsMapping]
  | tokenize =>
      cases minted.get? item.2 with
      | none => simp [needsMapping]
      | some m => simp [needsMapping]
  | pseudonymize =>
      cases minted.get? item.2 with
      | none => simp [needsMapping]
      | some m => simp [needsMapping]

/-- The pending spans of a plan stand for the spans it maps. -/
theorem mappedSpans_awaited {policy : PolicySnapshot}
    {selected : List DetectedEntity} {pendings : List Pending}
    (h : pendingOf unicode hashes fingerprinter tenantId sessionId text
      (withActions policy selected).zipIdx = .ok pendings) :
    List.Forall₂ (fun e p => p.entityType = e.entityType ∧
        p.original = slice text e.start e.stop ∧
        identityOf unicode hashes fingerprinter tenantId sessionId
          p.entityType p.original = .ok p.normalizedHmac)
      (mappedSpans policy selected) pendings := by
  unfold mappedSpans
  rw [← filter_withActions policy needsMapping selected 0,
    List.forall₂_map_left_iff]
  refine (pendingOf_ok _ h).imp ?_
  intro item p hawaits
  exact ⟨hawaits.type_eq, hawaits.original_eq, hawaits.identity⟩

/-- There is something to ask for exactly when there is something to
map. -/
theorem pendings_eq_nil_iff {policy : PolicySnapshot}
    {selected : List DetectedEntity} {pendings : List Pending}
    (h : pendingOf unicode hashes fingerprinter tenantId sessionId text
      (withActions policy selected).zipIdx = .ok pendings) :
    pendings = [] ↔ mappedSpans policy selected = [] := by
  have hlength := (mappedSpans_awaited h).length_eq
  rw [← List.length_eq_zero_iff, ← hlength, List.length_eq_zero_iff]

theorem mem_mappedSpans_of_item {policy : PolicySnapshot}
    {selected : List DetectedEntity} {item : Planned × Nat}
    (hitem : item ∈ (withActions policy selected).zipIdx)
    (hneeds : needsMapping item.1.2 = true) :
    item.1.1 ∈ mappedSpans policy selected := by
  unfold mappedSpans
  rw [← filter_withActions policy needsMapping selected 0]
  exact List.mem_map_of_mem (List.mem_filter.mpr ⟨hitem, hneeds⟩)

/-- With nothing to map, the mint makes no call. -/
theorem mint_unmapped {σ : Type} (vault : VaultLike σ)
    {policy : PolicySnapshot} {selected : List DetectedEntity}
    {ttlSeconds : Int} (w : σ) (hnone : mappedSpans policy selected = []) :
    runIn (mint unicode hashes fingerprinter tenantId sessionId vault text
      (withActions policy selected) ttlSeconds) w = (.ok [], w) := by
  obtain ⟨pendings, hpending⟩ := (@pendingOf_returns_iff unicode hashes
    fingerprinter tenantId sessionId text
    (withActions policy selected).zipIdx).mpr (by
      intro item hitem hneeds
      have hspan := mem_mappedSpans_of_item hitem hneeds
      rw [hnone] at hspan
      exact absurd hspan (List.not_mem_nil))
  unfold mint
  rw [hpending]
  simp only [checked_bind_ok]
  rw [if_pos ((pendings_eq_nil_iff hpending).mpr hnone)]
  rfl

/-- A planned transform returns exactly when the mint returns a mapping
for each span that needs one, and each span it redacts has a type with a
valid name. -/
theorem transform_returns_iff_mint {σ : Type} {vault : VaultLike σ}
    {entities : List DetectedEntity} {policy : PolicySnapshot}
    {selected : List DetectedEntity}
    (hplans : Plans text entities policy selected) {w : σ} :
    (∃ out w', runIn (transform unicode hashes fingerprinter vault tenantId
        sessionId text entities policy) w = (.ok out, w')) ↔
      (∀ e ∈ selected, policy.actionFor e.entityType = .redact →
        isValidEntityType e.entityType = true) ∧
      ∃ minted w', runIn (mint unicode hashes fingerprinter tenantId
          sessionId vault text (withActions policy selected)
          policy.sessionTtlSeconds) w = (.ok minted, w') ∧
        ∀ item ∈ (withActions policy selected).zipIdx,
          needsMapping item.1.2 = true →
            ∃ m, minted.get? item.2 = some m := by
  have hentry : ∀ item ∈ (withActions policy selected).zipIdx,
      item.1.1 ∈ selected ∧
        item.1.2 = policy.actionFor item.1.1.entityType := by
    intro item hitem
    obtain ⟨e, he, hplanned⟩ :=
      List.mem_map.mp (List.fst_mem_of_mem_zipIdx hitem)
    rw [← hplanned]
    exact ⟨he, rfl⟩
  have hunblocked : ∀ item ∈ (withActions policy selected).zipIdx,
      item.1.2 ≠ .block := by
    intro item hitem
    obtain ⟨he, haction⟩ := hentry item hitem
    rw [haction]
    exact hplans.not_blocked _ he
  constructor
  · intro h
    obtain ⟨out, w', hrun⟩ := h
    obtain ⟨selected', minted, hplans', hmint, hok, -⟩ := transform_ok hrun
    obtain rfl : selected = selected' :=
      Except.ok.inj (hplans.selects.symm.trans hplans'.selects)
    refine ⟨?_, minted, w', hmint, ?_⟩
    · intro e he hredact
      obtain ⟨n, hn, hget⟩ := List.getElem_of_mem he
      have hitem : ((e, policy.actionFor e.entityType), n) ∈
          (withActions policy selected).zipIdx := by
        rw [List.mem_zipIdx_iff_getElem?]
        unfold withActions
        simp [hn, hget]
      exact ((replacementOf_returns_iff (hunblocked _ hitem)).mp
        (hok _ hitem)).1 hredact
    · intro item hitem
      exact ((replacementOf_returns_iff (hunblocked item hitem)).mp
        (hok item hitem)).2
  · intro h
    obtain ⟨hredacted, minted, w', hmint, hget⟩ := h
    obtain ⟨spliced, hsplice⟩ := @spliceFrom_returns unicode hashes text
      minted (spliceOrder (withActions policy selected))
      ⟨[], [], text.length⟩ (by
        intro item hitem
        rw [spliceOrder_eq_reverse hplans.chain,
          List.mem_reverse] at hitem
        obtain ⟨he, haction⟩ := hentry item hitem
        apply (replacementOf_returns_iff (hunblocked item hitem)).mpr
        refine ⟨?_, hget item hitem⟩
        intro hredact
        rw [haction] at hredact
        exact hredacted _ he hredact)
    unfold transform
    rw [planFor_ok_iff.mpr ⟨selected, hplans, rfl⟩, checked_bind_ok]
    apply returns_bind hmint
    rw [hsplice, checked_bind_ok]
    exact ⟨_, w', rfl⟩

end Returns

end PrivacyGateway.Tokenization
