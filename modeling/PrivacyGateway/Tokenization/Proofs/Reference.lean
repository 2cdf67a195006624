/-
The protected text, as one would write it down from the left.

`reference` copies the gaps between the selected spans and writes what
each span's action asks for, taking the next mapping where the action
needs one. The splice loop walks the other way, over indices into the
plan and a dictionary of mappings; `transform_reference` says that it
computes the reference, with the mappings in the order of the spans, each
made of its own span and of the vault's reply at that span's place.
-/
import PrivacyGateway.Tokenization.Proofs.Counts
import PrivacyGateway.Tokenization.Proofs.Mint

namespace PrivacyGateway.Tokenization

open Effect Splice

section Reference

variable (unicode : Unicode) (hashes : Hashes) (policy : PolicySnapshot)
  (text : Text)

/-- The rest of the text from the cursor, over the spans and mappings that
are left; nothing for a span that cannot be written. -/
def reference : Nat → List DetectedEntity → List EntityMapping → Option Text
  | cursor, [], _ => some (slice text cursor text.length)
  | cursor, e :: spans, mappings =>
      match policy.actionFor e.entityType, mappings with
      | .allow, mappings =>
          (reference e.stop spans mappings).map (fun rest =>
            slice text cursor e.start ++ slice text e.start e.stop ++ rest)
      | .redact, mappings =>
          match formatRedaction e.entityType with
          | .ok placeholder =>
              (reference e.stop spans mappings).map (fun rest =>
                slice text cursor e.start ++ placeholder ++ rest)
          | .error _ => none
      | .tokenize, m :: mappings =>
          (reference e.stop spans mappings).map (fun rest =>
            slice text cursor e.start ++ m.token ++ rest)
      | .pseudonymize, m :: mappings =>
          (reference e.stop spans mappings).map (fun rest =>
            slice text cursor e.start ++
              surrogateFor unicode hashes e.entityType
                (slice text e.start e.stop) m.normalizedHmac ++ rest)
      | _, _ => none

variable {unicode hashes policy text} {minted : Dict Nat EntityMapping}

-- ==================================================== from the left

/-- The walk from the left over the spans of a plan is the fill of their
patches. -/
theorem reference_fill (spans : List DetectedEntity) :
    ∀ n cursor, cursor ≤ text.length →
      spans.Pairwise (fun a b => a.stop ≤ b.start) →
      (∀ e ∈ spans, cursor ≤ e.start ∧ e.stop ≤ text.length) →
      (∀ e ∈ spans, policy.actionFor e.entityType ≠ .block) →
      (∀ item ∈ (withActions policy spans).zipIdx n, ∃ r,
        replacementOf unicode hashes text minted item = .ok r) →
      (∀ item ∈ (withActions policy spans).zipIdx n, ∀ m,
        minted.get? item.2 = some m → needsMapping item.1.2 = true) →
      reference unicode hashes policy text cursor spans
          (((withActions policy spans).zipIdx n).filterMap
            (fun item => minted.get? item.2)) =
        some (fillTo text text.length cursor
          (((withActions policy spans).zipIdx n).filterMap
            (patchOf unicode hashes text minted))) := by
  induction spans with
  | nil =>
      intro n cursor _ _ _ _ _ _
      rfl
  | cons e spans ih =>
      intro n cursor hcursor hchain hbounds hblock hok hneeds
      have hitems : (withActions policy (e :: spans)).zipIdx n =
          ((e, policy.actionFor e.entityType), n) ::
            (withActions policy spans).zipIdx (n + 1) := rfl
      rw [hitems] at hok hneeds ⊢
      obtain ⟨⟨r, hr⟩, hok⟩ := List.forall_mem_cons.mp hok
      obtain ⟨hneeds', hneeds⟩ := List.forall_mem_cons.mp hneeds
      obtain ⟨hhere, hbounds⟩ := List.forall_mem_cons.mp hbounds
      obtain ⟨hafter, hchain⟩ := List.pairwise_cons.mp hchain
      obtain ⟨hblocked, hblock⟩ := List.forall_mem_cons.mp hblock
      have hforward := e.span_forward
      have hrest := ih (n + 1) e.stop hhere.2 hchain
        (fun e' he' => ⟨hafter e' he', (hbounds e' he').2⟩) hblock hok hneeds
      have hsame : ∀ body : Text, (some (fillTo text text.length e.stop
          (((withActions policy spans).zipIdx (n + 1)).filterMap
            (patchOf unicode hashes text minted)))).map
              (fun rest => slice text cursor e.start ++ body ++ rest) =
          some (fillTo text text.length cursor (⟨e.start, e.stop, body⟩ ::
            ((withActions policy spans).zipIdx (n + 1)).filterMap
              (patchOf unicode hashes text minted))) := fun _ => rfl
      rw [List.filterMap_cons, List.filterMap_cons]
      simp only [patchOf, hr]
      unfold replacementOf at hr
      simp only at hr
      cases haction : policy.actionFor e.entityType with
      | allow =>
          rw [haction] at hr hneeds'
          cases hr
          cases hget : minted.get? n with
          | some m => cases hneeds' m hget
          | none =>
              have hfirst : ∀ p ∈ ((withActions policy spans).zipIdx
                  (n + 1)).filterMap (patchOf unicode hashes text minted),
                  e.stop ≤ p.start := by
                intro p hp
                obtain ⟨item, hitem, hpatch⟩ := List.mem_filterMap.mp hp
                obtain ⟨e', he', hplanned⟩ :=
                  List.mem_map.mp (List.fst_mem_of_mem_zipIdx hitem)
                rw [(patchOf_eq_some hpatch).1, ← hplanned]
                exact hafter e' he'
              have hto : cursor ≤ e.stop := hhere.1.trans hforward.le
              have hcopy := fillTo_split text hto hhere.2 hfirst
              rw [← slice_append_slice text hhere.1 hforward.le] at hcopy
              rw [hcopy]
              simp only [reference, haction, hrest, Option.map_some]
      | redact =>
          rw [haction] at hr hneeds'
          unfold replacementFor at hr
          cases hget : minted.get? n with
          | some m => cases hneeds' m hget
          | none =>
              cases hred : formatRedaction e.entityType with
              | error error =>
                  rw [hred] at hr
                  cases hr
              | ok placeholder =>
                  rw [hred] at hr
                  cases hr
                  simp only [reference, haction, hred, hrest]
                  exact hsame placeholder
      | tokenize =>
          rw [haction] at hr
          unfold replacementFor at hr
          cases hget : minted.get? n with
          | none =>
              rw [hget] at hr
              cases hr
          | some m =>
              rw [hget] at hr
              cases hr
              simp only [reference, haction, hrest]
              exact hsame m.token
      | pseudonymize =>
          rw [haction] at hr
          unfold replacementFor at hr
          cases hget : minted.get? n with
          | none =>
              rw [hget] at hr
              cases hr
          | some m =>
              rw [hget] at hr
              cases hr
              simp only [reference, haction, hrest]
              exact hsame _
      | block => exact absurd haction hblocked

end Reference

-- ==================================================== span by span

section Mappings

variable {unicode : Unicode} {hashes : Hashes}
  {fingerprinter : Fingerprinter} {tenantId sessionId : UUID} {text : Text}

/-- What the vault is asked for a span. -/
structure Asks (unicode : Unicode) (hashes : Hashes)
    (fingerprinter : Fingerprinter) (tenantId sessionId : UUID)
    (text : Text) (e : DetectedEntity) (request : VaultWriteRequest) :
    Prop where
  type_eq : request.entityType = e.entityType
  original_eq : request.originalValue = slice text e.start e.stop
  identity : identityOf unicode hashes fingerprinter tenantId sessionId
    e.entityType (slice text e.start e.stop) = .ok request.normalizedHmac

/-- A mapping made of a span and of what the vault replied for it. -/
structure Answers (unicode : Unicode) (hashes : Hashes)
    (fingerprinter : Fingerprinter) (tenantId sessionId : UUID)
    (text : Text) (asked : DetectedEntity × Text) (m : EntityMapping) :
    Prop where
  type_eq : m.entityType = asked.1.entityType
  original_eq : m.originalValue = slice text asked.1.start asked.1.stop
  identity : identityOf unicode hashes fingerprinter tenantId sessionId
    asked.1.entityType (slice text asked.1.start asked.1.stop) =
      .ok m.normalizedHmac
  token_eq : ∃ token : Token,
    coerceVaultToken asked.2 asked.1.entityType = .ok token ∧
      m.token = token.text ∧ m.tokenId = token.tokenId

theorem Awaits.asks {item : Planned × Nat} {p : Pending}
    (h : Awaits unicode hashes fingerprinter tenantId sessionId text item
      p) :
    Asks unicode hashes fingerprinter tenantId sessionId text item.1.1
      p.request := by
  have hidentity := h.identity
  rw [h.type_eq, h.original_eq] at hidentity
  exact ⟨h.type_eq, h.original_eq, hidentity⟩

/-- A pending span's mapping answers for its planned span. -/
theorem Awaits.answers {item : Planned × Nat} {p : Pending}
    {rawToken : Text} {m : EntityMapping}
    (h : Awaits unicode hashes fingerprinter tenantId sessionId text item p)
    (hm : mappingFor p rawToken = .ok m) :
    Answers unicode hashes fingerprinter tenantId sessionId text
      (item.1.1, rawToken) m := by
  have hidentity := h.identity
  rw [h.type_eq, h.original_eq] at hidentity
  unfold mappingFor at hm
  rw [h.type_eq] at hm
  cases hcoerce : coerceVaultToken rawToken item.1.1.entityType with
  | error e =>
      rw [hcoerce] at hm
      cases hm
  | ok token =>
      rw [hcoerce] at hm
      cases hm
      exact ⟨rfl, h.original_eq, hidentity, token, hcoerce, rfl, rfl⟩

/-- The mappings stand in the order of the pending spans, each under its
span's index and made of the reply at its place. -/
theorem mappingsFor_aligned (pendings : List Pending) :
    ∀ {tokens : List Text} {minted : Dict Nat EntityMapping},
      mappingsFor pendings tokens = .ok minted →
      List.Forall₂ (fun asked entry => entry.1 = asked.1.index ∧
        mappingFor asked.1 asked.2 = .ok entry.2)
          (pendings.zip tokens) minted := by
  induction pendings with
  | nil =>
      intro tokens minted h
      cases h
      exact .nil
  | cons p pendings ih =>
      intro tokens minted h
      cases tokens with
      | nil =>
          cases h
          exact .nil
      | cons token tokens =>
          unfold mappingsFor at h
          cases hmapping : mappingFor p token with
          | error e =>
              rw [hmapping] at h
              cases h
          | ok mapping =>
              rw [hmapping] at h
              simp only at h
              cases hrest : mappingsFor pendings tokens with
              | error e =>
                  rw [hrest] at h
                  cases h
              | ok rest =>
                  rw [hrest] at h
                  cases h
                  exact .cons ⟨rfl, hmapping⟩ (ih hrest)

variable {policy : PolicySnapshot} {selected : List DetectedEntity}
  {pendings : List Pending} {tokens : List Text}
  {minted : Dict Nat EntityMapping}

/-- The dictionary of a plan's mappings, read along the plan, is its
values in the order they were put in. -/
theorem filterMap_minted
    (hpending : pendingOf unicode hashes fingerprinter tenantId sessionId
      text (withActions policy selected).zipIdx = .ok pendings)
    (hmappings : mappingsFor pendings tokens = .ok minted)
    (hlength : tokens.length = pendings.length) :
    (withActions policy selected).zipIdx.filterMap
        (fun item => minted.get? item.2) = minted.map Prod.snd := by
  have hkeys : minted.keys = ((withActions policy selected).zipIdx.filter
      (fun item => needsMapping item.1.2)).map Prod.snd := by
    have hasked := Aligned.map_eq (mappingsFor_aligned _ hmappings)
      (f := fun asked => asked.1.index) (g := Prod.fst)
      (fun asked _ entry hentry => hentry.1)
    have hindex := Aligned.map_eq (pendingOf_ok _ hpending)
      (f := Prod.snd) (g := Pending.index)
      (fun item _ p hp => hp.index_eq)
    have hzip : (pendings.zip tokens).map (fun asked => asked.1.index) =
        pendings.map Pending.index := by
      conv_rhs => rw [← List.map_fst_zip hlength.ge]
      rw [List.map_map]
      rfl
    show minted.map Prod.fst = _
    rw [hasked, hzip, hindex]
  -- the plan's indices are distinct, and the keys are some of them
  have hindices : ((withActions policy selected).zipIdx.map
      Prod.snd).Nodup := by
    rw [List.zipIdx_map_snd]
    exact List.nodup_range'
  have hnodup : minted.keys.Nodup := by
    rw [hkeys]
    exact hindices.sublist (List.filter_sublist.map Prod.snd)
  rw [← Dict.filterMap_get?_keys hnodup, hkeys, List.filterMap_map,
    List.filterMap_filter]
  apply List.filterMap_congr
  intro item hitem
  by_cases hneeds : needsMapping item.1.2 = true
  · rw [if_pos hneeds]
    rfl
  · rw [if_neg hneeds, Dict.get?_eq_none_iff, hkeys]
    intro hmem
    obtain ⟨other, hother, hsame⟩ := List.mem_map.mp hmem
    obtain ⟨hother, hneeds'⟩ := List.mem_filter.mp hother
    have h1 := List.mem_zipIdx_iff_getElem?.mp hother
    have h2 := List.mem_zipIdx_iff_getElem?.mp hitem
    rw [hsame, h2] at h1
    rw [← Option.some.inj h1] at hneeds'
    exact hneeds hneeds'

/-- Each mapping answers for its own span and for the reply at its
place. -/
theorem minted_answers
    (hpending : pendingOf unicode hashes fingerprinter tenantId sessionId
      text (withActions policy selected).zipIdx = .ok pendings)
    (hmappings : mappingsFor pendings tokens = .ok minted) :
    List.Forall₂ (Answers unicode hashes fingerprinter tenantId sessionId
      text) ((mappedSpans policy selected).zip tokens)
        (minted.map Prod.snd) := by
  unfold mappedSpans
  rw [← filter_withActions policy needsMapping selected 0,
    List.zip_map_left, List.forall₂_map_left_iff,
    List.forall₂_map_right_iff]
  refine (Aligned.trans (Aligned.zip (pendingOf_ok _ hpending) tokens)
    (mappingsFor_aligned _ hmappings)).imp ?_
  rintro ⟨item, rawToken⟩ entry ⟨⟨p, rawToken'⟩, ⟨hawaits, htoken⟩, -, hm⟩
  cases htoken
  exact hawaits.answers hm

end Mappings

-- ==================================================== the transform

section Run

variable {unicode : Unicode} {hashes : Hashes}
  {fingerprinter : Fingerprinter} {tenantId sessionId : UUID} {σ : Type}
  {vault : VaultLike σ} {text : Text} {entities : List DetectedEntity}
  {policy : PolicySnapshot} {s t : σ} {out : TransformedText}

/-- A returned transform against the reference. The selected spans stand
in ascending order; the vault is asked once for those that need a
mapping, and not at all when there are none; the text is the reference
read with the mappings, which stand in the order of those spans, each
made of its own span and of its own reply; and every selected span is
counted once among the actions and once among the types. -/
theorem transform_reference
    (h : runIn (transform unicode hashes fingerprinter vault tenantId
      sessionId text entities policy) s = (.ok out, t)) :
    ∃ selected tokens, selectEntities text entities policy = .ok selected ∧
      selected.Pairwise (fun a b => a.stop ≤ b.start) ∧
      (mappedSpans policy selected = [] ∧ tokens = [] ∧ t = s ∨
        ∃ requests, List.Forall₂ (Asks unicode hashes fingerprinter
            tenantId sessionId text) (mappedSpans policy selected)
              requests ∧
          runIn (vault.getOrCreateMany tenantId sessionId requests
            policy.sessionTtlSeconds) s = (.ok tokens, t)) ∧
      tokens.length = (mappedSpans policy selected).length ∧
      reference unicode hashes policy text 0 selected out.mappings =
        some out.text ∧
      List.Forall₂ (Answers unicode hashes fingerprinter tenantId sessionId
        text) ((mappedSpans policy selected).zip tokens) out.mappings ∧
      out.summary.detected = out.summary.tokenized + out.summary.redacted +
        out.summary.pseudonymized + out.summary.allowed ∧
      out.summary.detected = (out.summary.entityTypes.map Prod.snd).sum ∧
      out.summary.detected = selected.length := by
  obtain ⟨selected, minted, hplans, hmint, hok, htext, hmappings,
    hsummary⟩ := transform_ok h
  have hreference : reference unicode hashes policy text 0 selected
      out.mappings = some out.text := by
    rw [hmappings, htext]
    exact reference_fill selected 0 0 (Nat.zero_le _) hplans.chain
      (fun e he => ⟨Nat.zero_le _, hplans.stop_le e he⟩) hplans.not_blocked
      hok (fun item hitem m hget => (mint_own hmint hitem hget).1)
  have hcounts : out.summary.detected = out.summary.tokenized +
        out.summary.redacted + out.summary.pseudonymized +
        out.summary.allowed ∧
      out.summary.detected = (out.summary.entityTypes.map Prod.snd).sum ∧
      out.summary.detected = selected.length := by
    have hunblocked : ∀ item ∈ withActions policy selected,
        item.2 ≠ .block := by
      intro item hitem
      obtain ⟨e, he, rfl⟩ := List.mem_map.mp hitem
      exact hplans.not_blocked e he
    rw [hsummary, countTypes_total]
    exact ⟨(tally_total hunblocked).symm, rfl, List.length_map _⟩
  obtain ⟨pendings, hpending, hcase⟩ := mint_ok hmint
  have hasks : List.Forall₂ (Asks unicode hashes fingerprinter tenantId
      sessionId text) (mappedSpans policy selected)
        (pendings.map Pending.request) := by
    unfold mappedSpans
    rw [← filter_withActions policy needsMapping selected 0,
      List.forall₂_map_left_iff, List.forall₂_map_right_iff]
    exact (pendingOf_ok _ hpending).imp (fun _ _ hawaits => hawaits.asks)
  have hlength := hasks.length_eq
  rw [List.length_map] at hlength
  rcases hcase with ⟨rfl, rfl, rfl⟩ | ⟨tokens, hcall, hpairs, hreplies⟩
  · have hnone : mappedSpans policy selected = [] :=
      List.length_eq_zero_iff.mp hlength
    have hempty : out.mappings = [] := by
      rw [hmappings, List.filterMap_eq_nil_iff]
      intro item _
      rfl
    refine ⟨selected, [], hplans.selects, hplans.chain,
      Or.inl ⟨hnone, rfl, rfl⟩, hlength.symm, hreference, ?_, hcounts⟩
    rw [hnone, hempty]
    exact .nil
  · refine ⟨selected, tokens, hplans.selects, hplans.chain,
      Or.inr ⟨_, hasks, hcall⟩, hreplies.trans hlength.symm, hreference,
      ?_, hcounts⟩
    rw [hmappings, filterMap_minted hpending hpairs hreplies]
    exact minted_answers hpending hpairs

end Run

-- ==================================================== on fixed inputs

/-- A policy with one action of each kind that returns. -/
def mixedPolicy : PolicySnapshot where
  policyId := ⟨1⟩
  tenantId := ⟨2⟩
  version := 1
  name := "mixed".toList
  sessionTtlSeconds := 3600
  maxEntities := 100
  unknownOutputTokenAction := .preserve
  entities := [
    ("LOCATION".toList, ⟨.allow, 1 / 2, true, none, none, Bounds.half⟩),
    ("EMAIL".toList, ⟨.redact, 1 / 2, true, none, none, Bounds.half⟩),
    ("PERSON".toList, ⟨.tokenize, 1 / 2, true, none, none, Bounds.half⟩)]
  providers := []

/-- A vault that answers with the next ids of its state. -/
def drawingVault : VaultLike (List Text) where
  getOrCreateMany _ _ entries _ := do
    let ids ← get
    set (ids.drop entries.length)
    return ids.take entries.length

def mixedText : Text := "Jane@York a@b".toList

def mixedEntities : List DetectedEntity := [
  ⟨"EMAIL".toList, 10, 13, 4 / 5, none, by decide, Bounds.fourFifths⟩,
  ⟨"LOCATION".toList, 5, 9, 4 / 5, none, by decide, Bounds.fourFifths⟩,
  ⟨"PERSON".toList, 0, 4, 4 / 5, none, by decide, Bounds.fourFifths⟩]

/-- A name that is tokenized, a place that stays and an address that is
redacted. -/
theorem mixed_reference :
    ∃ selected tokens,
      selectEntities mixedText mixedEntities mixedPolicy = .ok selected ∧
      tokens.length = (mappedSpans mixedPolicy selected).length ∧
      ∃ mappings, reference Unicode.ascii (Hashes.ofTables [] [])
          mixedPolicy mixedText 0 selected mappings =
        some ("⟦SGW:PERSON:01ARZ3NDEKTSV4RRFFQ69G5FAV⟧@York ".toList ++
          "⟦SGW:REDACTED:EMAIL⟧".toList) ∧
      List.Forall₂ (Answers Unicode.ascii (Hashes.ofTables [] [])
        sampleFingerprinter ⟨2⟩ ⟨3⟩ mixedText)
          ((mappedSpans mixedPolicy selected).zip tokens) mappings := by
  have htext : (runIn (transform Unicode.ascii (Hashes.ofTables [] [])
      sampleFingerprinter drawingVault ⟨2⟩ ⟨3⟩ mixedText mixedEntities
      mixedPolicy) ["01ARZ3NDEKTSV4RRFFQ69G5FAV".toList]).1.map
        TransformedText.text =
      .ok ("⟦SGW:PERSON:01ARZ3NDEKTSV4RRFFQ69G5FAV⟧@York ".toList ++
        "⟦SGW:REDACTED:EMAIL⟧".toList) := by
    decide +kernel
  cases hrun : runIn (transform Unicode.ascii (Hashes.ofTables [] [])
      sampleFingerprinter drawingVault ⟨2⟩ ⟨3⟩ mixedText mixedEntities
      mixedPolicy) ["01ARZ3NDEKTSV4RRFFQ69G5FAV".toList] with
  | mk result t =>
      rw [hrun] at htext
      cases result with
      | error e => cases htext
      | ok out =>
          obtain ⟨selected, tokens, hselects, -, -, hlength, href,
            hanswers, -⟩ := transform_reference hrun
          rw [Except.ok.inj htext] at href
          exact ⟨selected, tokens, hselects, hlength, _, href, hanswers⟩

end PrivacyGateway.Tokenization
