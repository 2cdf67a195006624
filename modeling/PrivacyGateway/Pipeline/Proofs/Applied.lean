/-
What is reported as applied, against what was applied.

The report re-reads the protected text. A token is read as itself and a
redaction as itself (`allOrNothing_token`, `allOrNothing_redaction`), but
a redaction whose type has the form of an identifier is a token to the
token pattern as well, and a surrogate is nothing to either. So what is
read of a planned span depends on the span alone (`tokensRead`,
`redactionsRead`) wherever the surrogates complete nothing, and comparing
it with what the plan did settles when the report agrees with the plan.
-/
import Mathlib.Algebra.BigOperators.Group.List.Lemmas
import PrivacyGateway.Lib.Tally
import PrivacyGateway.Pipeline.Preview
import PrivacyGateway.Pipeline.Proofs.Guards
import PrivacyGateway.Tokenization.Proofs.Scanning
import PrivacyGateway.Tokenization.Proofs.Reference
import PrivacyGateway.Tokenization.Proofs.Surrogates

namespace PrivacyGateway.Pipeline

open Effect Scan Splice Tokenization

-- ==================================================== what is read

/-- The keys one message adds to the report. -/
def keysRead (message : Text) : List (Text × EntityAction) :=
  (scan matchToken message).map (fun hit => (tokenGroup hit.2, .tokenize)) ++
    (scan matchRedaction message).map
      (fun hit => (redactionGroup hit.2, .redact))

theorem countHits_eq (group : Text → Text) (action : EntityAction)
    (counts : Dict (Text × EntityAction) Nat) (hits : List (Hit Char)) :
    countHits group action counts hits =
      counts.tally (hits.map (fun hit => (group hit.2, action))) := by
  unfold countHits Dict.tally
  rw [List.foldl_map]
  rfl

theorem counts_eq (messages : List Text) :
    ∀ counts, messages.foldl countMessage counts =
      counts.tally (messages.flatMap keysRead) := by
  induction messages with
  | nil => exact fun counts => rfl
  | cons message messages ih =>
      intro counts
      rw [List.foldl_cons, ih, List.flatMap_cons, Dict.tally_append]
      congr 1
      unfold countMessage keysRead
      rw [countHits_eq, countHits_eq, Dict.tally_append]

/-- The order in which the report lists its entries. -/
theorem appliedActions_perm (messages : List Text) :
    (appliedActions messages).Perm
      ((Dict.tally [] (messages.flatMap keysRead)).map
        (fun item => ⟨item.1.1, item.2, item.1.2⟩)) := by
  unfold appliedActions
  rw [counts_eq]
  exact (List.perm_insertionSort _ _).map _

theorem mem_appliedActions_iff {messages : List Text}
    {entry : ProtectedEntitySummary} :
    entry ∈ appliedActions messages ↔ 0 < entry.count ∧
      entry.count = Dict.times (messages.flatMap keysRead)
        (entry.entityType, entry.action) := by
  rw [(appliedActions_perm messages).mem_iff, List.mem_map]
  constructor
  · rintro ⟨item, hitem, rfl⟩
    exact Dict.mem_tally_iff.mp hitem
  · intro h
    exact ⟨_, Dict.mem_tally_iff.mpr h, rfl⟩

/-- What an entry is about. -/
def ProtectedEntitySummary.key (entry : ProtectedEntitySummary) :
    Text × EntityAction :=
  (entry.entityType, entry.action)

theorem nodup_keys_appliedActions (messages : List Text) :
    ((appliedActions messages).map ProtectedEntitySummary.key).Nodup := by
  rw [((appliedActions_perm messages).map _).nodup_iff, List.map_map]
  exact Dict.nodup_keys_tally _ List.nodup_nil

theorem sum_appliedActions (messages : List Text) (p : EntityAction → Bool) :
    (((appliedActions messages).filter (fun entry => p entry.action)).map
        ProtectedEntitySummary.count).sum =
      (messages.flatMap keysRead).countP (fun key => p key.2) := by
  have hsum := Dict.sum_tally (fun key : Text × EntityAction => p key.2)
    (messages.flatMap keysRead) []
  rw [List.filter_nil, List.map_nil, List.sum_nil, Nat.zero_add] at hsum
  rw [← hsum, (((appliedActions_perm messages).filter _).map _).sum_eq,
    List.filter_map, List.map_map]
  rfl

-- ==================================================== bodies

/-- A redaction is spelled as a token of the reserved type. -/
theorem renderRedaction_eq_token (entityType : Text) :
    renderRedaction entityType = renderToken redactedMarker entityType :=
  rfl

theorem typeField_redactedMarker : TypeField redactedMarker where
  chars := List.all_eq_true.mp (by decide)
  length := by decide

/-- The token pattern reads the fields of what it matches. -/
theorem fields_of_matchToken {entityType tokenId rest : Text} {n : Nat}
    (htype : ∀ char ∈ entityType, isEntityTypeChar char = true)
    (hid : rightDelimiter ∉ tokenId)
    (h : matchToken (renderToken entityType tokenId ++ rest) = some n) :
    isValidTokenId tokenId = true := by
  obtain ⟨field, id, more, hshape, htext, -⟩ := of_matchToken h
  rw [renderToken_eq, renderToken_eq] at htext
  have hrest := List.append_cancel_left htext
  have hsep : isEntityTypeChar fieldSeparator = false := by decide
  have hfield := congrArg (List.takeWhile isEntityTypeChar) hrest
  rw [takeWhile_field htype hsep,
    takeWhile_field hshape.type_chars hsep] at hfield
  rw [hfield] at hrest
  injection List.append_cancel_left hrest with _ hids
  -- both identifiers end at the first closing delimiter
  have hclosed : ∀ char ∈ id, (char != rightDelimiter) = true := by
    intro char hchar
    have hnot := (not_mem_of_crockfordChars
      (isCrockfordChar_of_valid hshape.id_valid)).2.2
    exact bne_iff_ne.mpr (fun heq => hnot (heq ▸ hchar))
  have hopen : ∀ char ∈ tokenId, (char != rightDelimiter) = true :=
    fun char hchar => bne_iff_ne.mpr (fun heq => hid (heq ▸ hchar))
  have htake := congrArg (List.takeWhile (fun char =>
    char != rightDelimiter)) hids
  rw [List.takeWhile_append_of_pos hopen,
    List.takeWhile_append_of_pos hclosed,
    List.takeWhile_cons_of_neg (by simp),
    List.takeWhile_cons_of_neg (by simp), List.append_nil,
    List.append_nil] at htake
  rw [htake]
  exact hshape.id_valid

theorem matchToken_redaction {entityType : Text} (h : TypeField entityType)
    (rest : Text) :
    matchToken (renderRedaction entityType ++ rest) =
      if isValidTokenId entityType then
        some (renderRedaction entityType).length
      else none := by
  rw [renderRedaction_eq_token]
  by_cases hid : isValidTokenId entityType = true
  · rw [if_pos hid]
    exact matchToken_render ⟨typeField_redactedMarker.chars,
      typeField_redactedMarker.length, hid⟩ rest
  · rw [if_neg hid]
    cases hmatch : matchToken
        (renderToken redactedMarker entityType ++ rest) with
    | none => rfl
    | some n =>
        exact absurd (fields_of_matchToken typeField_redactedMarker.chars
          (not_mem_of_entityTypeChars h.chars).2.2 hmatch) hid

theorem matchRedaction_token (token : Token) (rest : Text) :
    matchRedaction (token.text ++ rest) = none := by
  cases hmatch : matchRedaction (token.text ++ rest) with
  | none => rfl
  | some n =>
      obtain ⟨entityType, more, -, htext, -⟩ := of_matchRedaction hmatch
      exact absurd ⟨rest, htext⟩ (token.not_prefix_redaction more)

/-- Nothing begins inside a text whose only left delimiter is at its
head. -/
theorem quiet_of_head {m : Text → Option Nat} (hm : Headed leftDelimiter m)
    {body : Text} (hbody : leftDelimiter ∉ body.tail)
    (hnone : ∀ r, m (body ++ r) = none) : AllOrNothing m body := by
  refine Or.inr (fun r s hs hne => ?_)
  cases body with
  | nil => exact absurd (List.suffix_nil.mp hs) hne
  | cons first body =>
      rcases List.suffix_cons_iff.mp hs with rfl | hs
      · exact hnone r
      · exact hm.unmarked_quiet (fun hmem => hbody (hs.mem hmem)) hne r

theorem allOrNothing_token (token : Token) :
    AllOrNothing matchToken token.text ∧
      AllOrNothing matchRedaction token.text := by
  refine ⟨Or.inl (matchToken_render token.looksLikeToken), ?_⟩
  exact quiet_of_head matchRedaction_headed (leftDelimiter_not_mem_tail
    (isEntityTypeChar_of_valid token.entityType_valid)
    (isCrockfordChar_of_valid token.tokenId_valid))
    (matchRedaction_token token)

theorem allOrNothing_redaction {entityType : Text}
    (h : TypeField entityType) :
    AllOrNothing matchToken (renderRedaction entityType) ∧
      AllOrNothing matchRedaction (renderRedaction entityType) := by
  refine ⟨?_, Or.inl (matchRedaction_render h)⟩
  by_cases hid : isValidTokenId entityType = true
  · refine Or.inl (fun r => ?_)
    rw [matchToken_redaction h, if_pos hid]
  · refine quiet_of_head matchToken_headed
      (leftDelimiter_not_mem_redaction h.chars) (fun r => ?_)
    rw [matchToken_redaction h, if_neg hid]

theorem allOrNothing_unmarked {m : Text → Option Nat}
    (hm : Headed leftDelimiter m) {body : Text}
    (h : leftDelimiter ∉ body) : AllOrNothing m body :=
  Or.inr (fun r _ hs hne =>
    hm.unmarked_quiet (fun hmem => h (hs.mem hmem)) hne r)

-- ==================================================== one span

/-- The types the token pattern reads of what replaces a planned span. -/
def tokensRead (item : Planned) : List Text :=
  match item.2 with
  | .tokenize => [item.1.entityType]
  | .redact =>
      if isValidTokenId item.1.entityType then [redactedMarker] else []
  | _ => []

/-- The types the redaction pattern reads of it. -/
def redactionsRead (item : Planned) : List Text :=
  match item.2 with
  | .redact => [item.1.entityType]
  | _ => []

/-- What replaces a planned span. -/
inductive Written (text : Text) (item : Planned) (body : Text) : Prop
  | token (token : Token) (action_eq : item.2 = .tokenize)
      (type_eq : token.entityType = item.1.entityType)
      (body_eq : body = token.text)
  | redaction (action_eq : item.2 = .redact)
      (type_valid : isValidEntityType item.1.entityType = true)
      (body_eq : body = renderRedaction item.1.entityType)
  | surrogate (action_eq : item.2 = .pseudonymize)
      (type_valid : isValidEntityType item.1.entityType = true)
      (unmarked : leftDelimiter ∉ text → leftDelimiter ∉ body)

/-- What a pattern reads of the replacements, each by itself. -/
structure Reads (m : Text → Option Nat) (group : Text → Text)
    (read : Planned → List Text) : Prop where
  headed : Headed leftDelimiter m
  token : ∀ token : Token, AllOrNothing m token.text
  redaction : ∀ entityType, TypeField entityType →
    AllOrNothing m (renderRedaction entityType)
  reads : ∀ {text item body}, Written text item body →
    (item.2 = .pseudonymize → leftDelimiter ∉ body) →
      (if (m body).isSome then [group body] else []) = read item
  spared : ∀ item : Planned, item.2 = .allow → read item = []

theorem reads_tokens : Reads matchToken tokenGroup tokensRead where
  headed := matchToken_headed
  token token := (allOrNothing_token token).1
  redaction _ h := (allOrNothing_redaction h).1
  reads := by
    intro text item body hwritten hplain
    cases hwritten with
    | token token haction htype hbody =>
        have hmatch := matchToken_render token.looksLikeToken []
        rw [List.append_nil] at hmatch
        have hgroup : tokenGroup token.text = token.entityType :=
          tokenGroup_render (isEntityTypeChar_of_valid token.entityType_valid)
        unfold tokensRead
        rw [hbody, haction, hgroup, Token.text, hmatch, htype]
        rfl
    | redaction haction hvalid hbody =>
        have hfield := typeField_of_valid hvalid
        have hmatch := matchToken_redaction hfield []
        rw [List.append_nil] at hmatch
        unfold tokensRead
        rw [hbody, haction, hmatch]
        by_cases hid : isValidTokenId item.1.entityType = true
        · simp only
          rw [if_pos hid, if_pos hid, renderRedaction_eq_token,
            tokenGroup_render typeField_redactedMarker.chars]
          rfl
        · simp only
          rw [if_neg hid, if_neg hid]
          rfl
    | surrogate haction hvalid hmark =>
        unfold tokensRead
        rw [matchToken_headed.unmarked_none (hplain haction), haction]
        rfl
  spared item h := by
    unfold tokensRead
    rw [h]

theorem reads_redactions :
    Reads matchRedaction redactionGroup redactionsRead where
  headed := matchRedaction_headed
  token token := (allOrNothing_token token).2
  redaction _ h := (allOrNothing_redaction h).2
  reads := by
    intro text item body hwritten hplain
    cases hwritten with
    | token token haction htype hbody =>
        have hmatch := matchRedaction_token token []
        rw [List.append_nil] at hmatch
        unfold redactionsRead
        rw [hbody, haction, hmatch]
        rfl
    | redaction haction hvalid hbody =>
        have hfield := typeField_of_valid hvalid
        have hmatch := matchRedaction_render hfield []
        rw [List.append_nil] at hmatch
        unfold redactionsRead
        rw [hbody, haction, hmatch, redactionGroup_render hfield.chars]
        rfl
    | surrogate haction hvalid hmark =>
        unfold redactionsRead
        rw [matchRedaction_headed.unmarked_none (hplain haction), haction]
        rfl
  spared item h := by
    unfold redactionsRead
    rw [h]

-- ==================================================== one message

/-- The text holds nothing of the gateway's shape. -/
def Ungated (text : Text) : Prop :=
  scan matchToken text = [] ∧ scan matchRedaction text = []

instance (text : Text) : Decidable (Ungated text) :=
  inferInstanceAs (Decidable (_ ∧ _))

/-- No surrogate completes anything: there is none, or nothing for it to
complete. -/
def Inert (text : Text) (plan : List Planned) : Prop :=
  (Ungated text ∧ ∀ item ∈ plan, item.2 ≠ .pseudonymize) ∨
    leftDelimiter ∉ text

/-- Reading the written bodies one after the other. -/
theorem map_read (items : List (Planned × Nat))
    (patch : Planned × Nat → Option (Patch Char))
    (m : Text → Option Nat) (group : Text → Text)
    (read : Planned → List Text)
    (h : ∀ item ∈ items, match patch item with
      | none => read item.1 = []
      | some p => (if (m p.body).isSome then [group p.body] else []) =
          read item.1) :
    (((items.filterMap patch).map Patch.body).filter
        (fun body => (m body).isSome)).map group =
      (items.map Prod.fst).flatMap read := by
  induction items with
  | nil => rfl
  | cons item items ih =>
      have hrest := ih (fun i hi => h i (List.mem_cons_of_mem _ hi))
      have hfirst := h item List.mem_cons_self
      rw [List.map_cons, List.flatMap_cons, ← hrest, List.filterMap_cons]
      cases hpatch : patch item with
      | none =>
          rw [hpatch] at hfirst
          simp only at hfirst ⊢
          rw [hfirst, List.nil_append]
      | some p =>
          rw [hpatch] at hfirst
          simp only at hfirst ⊢
          rw [← hfirst, List.map_cons, List.filter_cons]
          cases (m p.body).isSome with
          | true => rfl
          | false => rfl

section Message

variable {σ : Type} {unicode : Unicode} {hashes : Hashes}
  {fingerprinter : Fingerprinter} {tenantId sessionId : UUID}
  {vault : VaultLike σ} {text : Text} {entities : List DetectedEntity}
  {policy : PolicySnapshot} {s t : σ} {out : TransformedText}

theorem written_of_patch {selected : List DetectedEntity}
    {minted : Dict Nat EntityMapping} {ttlSeconds : Int}
    (hmint : runIn (mint unicode hashes fingerprinter tenantId sessionId
      vault text (withActions policy selected) ttlSeconds) s =
        (.ok minted, t))
    {item : Planned × Nat}
    (hitem : item ∈ (withActions policy selected).zipIdx)
    (hblock : item.1.2 ≠ .block) {p : Patch Char}
    (hpatch : patchOf unicode hashes text minted item = some p) :
    Written text item.1 p.body := by
  obtain ⟨-, -, hreplacement⟩ := patchOf_eq_some hpatch
  have htyped : ∀ {m}, minted.get? item.2 = some m → ∃ token : Token,
      m.token = token.text ∧ token.entityType = item.1.1.entityType :=
    fun hget => mint_typed hmint hitem hget
  unfold replacementOf replacementFor at hreplacement
  cases haction : item.1.2 with
  | allow =>
      rw [haction] at hreplacement
      cases hreplacement
  | block => exact absurd haction hblock
  | redact =>
      rw [haction] at hreplacement
      simp only at hreplacement
      cases hformat : formatRedaction item.1.1.entityType with
      | error e =>
          rw [hformat] at hreplacement
          cases hreplacement
      | ok placeholder =>
          rw [hformat] at hreplacement
          cases hreplacement
          obtain ⟨hvalid, heq⟩ := formatRedaction_ok_iff.mp hformat
          exact .redaction haction hvalid heq.symm
  | tokenize =>
      rw [haction] at hreplacement
      cases hget : minted.get? item.2 with
      | none =>
          rw [hget] at hreplacement
          cases hreplacement
      | some m =>
          rw [hget] at hreplacement
          have hbody := Option.some.inj (Except.ok.inj hreplacement)
          obtain ⟨token, htoken, htype⟩ := htyped hget
          exact .token token haction htype (hbody.symm.trans htoken)
  | pseudonymize =>
      rw [haction] at hreplacement
      cases hget : minted.get? item.2 with
      | none =>
          rw [hget] at hreplacement
          cases hreplacement
      | some m =>
          rw [hget] at hreplacement
          have hbody := Option.some.inj (Except.ok.inj hreplacement)
          obtain ⟨token, -, htype⟩ := htyped hget
          refine .surrogate haction ?_ (fun hmark hmem => hmark ?_)
          · rw [← htype]
            exact token.entityType_valid
          · rw [← hbody] at hmem
            exact List.mem_of_mem_take (List.mem_of_mem_drop
              (leftDelimiter_mem_of_surrogateFor hmem))

/-- What a pattern reads of the protected text is what it reads of the
plan. -/
theorem read_fill {selected : List DetectedEntity}
    {minted : Dict Nat EntityMapping} {m : Text → Option Nat}
    {group : Text → Text} {read : Planned → List Text}
    (hreads : Reads m group read)
    (hwritten : ∀ item ∈ (withActions policy selected).zipIdx,
      ∀ p, patchOf unicode hashes text minted item = some p →
        Written text item.1 p.body)
    (hspared : ∀ item ∈ (withActions policy selected).zipIdx,
      patchOf unicode hashes text minted item = none →
        item.1.2 = .allow)
    (hinert : (scan m text = [] ∧ ∀ item ∈ withActions policy selected,
      item.2 ≠ .pseudonymize) ∨ leftDelimiter ∉ text) :
    (scan m (fill text (patches unicode hashes text minted
        (withActions policy selected)))).map (fun hit => group hit.2) =
      (withActions policy selected).flatMap read := by
  have hm := hreads.headed
  -- every body is told by the span it replaces
  have hitems : ∀ p ∈ patches unicode hashes text minted
      (withActions policy selected), ∃ item ∈ withActions policy selected,
        Written text item p.body := by
    intro p hp
    obtain ⟨item, hitem, hpatch⟩ := List.mem_filterMap.mp hp
    exact ⟨item.1, List.fst_mem_of_mem_zipIdx hitem,
      hwritten item hitem p hpatch⟩
  have hplain : ∀ {item body}, item ∈ withActions policy selected →
      Written text item body → item.2 = .pseudonymize →
        leftDelimiter ∉ body := by
    intro item body hitem hbody haction
    rcases hinert with ⟨-, hnone⟩ | hmark
    · exact absurd haction (hnone item hitem)
    · cases hbody with
      | token _ h => exact absurd (h.symm.trans haction) (by decide)
      | redaction h => exact absurd (h.symm.trans haction) (by decide)
      | surrogate _ _ h => exact h hmark
  have hscan := scan_fill hm.bounded text
    (patches unicode hashes text minted (withActions policy selected))
    ?_ ?_ ?_
  · have hgroups := congrArg (List.map group) hscan
    rw [List.map_map] at hgroups
    refine hgroups.trans ?_
    unfold patches
    have hread := map_read (withActions policy selected).zipIdx
      (patchOf unicode hashes text minted) m group read ?_
    · rw [List.zipIdx_map_fst] at hread
      exact hread
    intro item hitem
    have hmem := List.fst_mem_of_mem_zipIdx hitem
    cases hpatch : patchOf unicode hashes text minted item with
    | none => exact hreads.spared item.1 (hspared item hitem hpatch)
    | some p =>
        have hbody := hwritten item hitem p hpatch
        exact hreads.reads hbody (hplain hmem hbody)
  · intro p hp
    obtain ⟨item, hitem, hbody⟩ := hitems p hp
    cases hbody with
    | token token _ _ heq =>
        rw [heq]
        exact hreads.token token
    | redaction _ hvalid heq =>
        rw [heq]
        exact hreads.redaction _ (typeField_of_valid hvalid)
    | surrogate haction hvalid hmark =>
        exact allOrNothing_unmarked hm
          (hplain hitem (.surrogate haction hvalid hmark) haction)
  · intro p hp a b r g hg hne
    obtain ⟨item, hitem, hbody⟩ := hitems p hp
    rcases hinert with ⟨hscan, hnone⟩ | hmark
    · have hclean := (scan_eq_nil_iff hm.bounded text).mp hscan
      cases hbody with
      | token token _ _ heq =>
          rw [heq]
          exact hm.gap_quiet hclean a b r g hg hne
      | redaction _ _ heq =>
          rw [heq]
          exact hm.gap_quiet hclean a b r g hg hne
      | surrogate haction => exact absurd haction (hnone item hitem)
    · refine hm.unmarked_quiet (fun hmem => hmark ?_) hne _
      exact List.mem_of_mem_take (List.mem_of_mem_drop (hg.mem hmem))
  · intro a g hg hne
    rcases hinert with ⟨hscan, -⟩ | hmark
    · exact (scan_eq_nil_iff hm.bounded text).mp hscan g
        (hg.trans (List.drop_suffix a text))
    · have hquiet := hm.unmarked_quiet
        (fun hmem => hmark (List.mem_of_mem_drop (hg.mem hmem))) hne []
      rw [List.append_nil] at hquiet
      exact hquiet

/-- The keys that the report reads of a plan. -/
def keysOf (plan : List Planned) : List (Text × EntityAction) :=
  (plan.flatMap tokensRead).map (fun name => (name, .tokenize)) ++
    (plan.flatMap redactionsRead).map (fun name => (name, .redact))

/-- What a returned transform selected, and what is read of its text. -/
theorem transform_read
    (h : runIn (transform unicode hashes fingerprinter vault tenantId
      sessionId text entities policy) s = (.ok out, t)) :
    ∃ selected, Plans text entities policy selected ∧
      out.summary = summarize (withActions policy selected) ∧
      (∀ item ∈ withActions policy selected, item.2 ≠ .allow →
        isValidEntityType item.1.entityType = true) ∧
      (Inert text (withActions policy selected) →
        keysRead out.text = keysOf (withActions policy selected)) := by
  obtain ⟨selected, minted, hplans, hmint, hok, htext, -, hsummary⟩ :=
    transform_ok h
  have hblock : ∀ item ∈ (withActions policy selected).zipIdx,
      item.1.2 ≠ .block := by
    intro item hitem
    obtain ⟨e, he, heq⟩ :=
      List.mem_map.mp (List.fst_mem_of_mem_zipIdx hitem)
    rw [← heq]
    exact hplans.not_blocked e he
  have hwritten : ∀ item ∈ (withActions policy selected).zipIdx,
      ∀ p, patchOf unicode hashes text minted item = some p →
        Written text item.1 p.body :=
    fun item hitem p hpatch =>
      written_of_patch hmint hitem (hblock item hitem) hpatch
  have hspared : ∀ item ∈ (withActions policy selected).zipIdx,
      patchOf unicode hashes text minted item = none →
        item.1.2 = .allow := by
    intro item hitem hpatch
    obtain ⟨r, hr⟩ := hok item hitem
    unfold patchOf at hpatch
    rw [hr] at hpatch
    cases r with
    | none => exact (replacementFor_eq_none_iff hr).mp rfl
    | some body => cases hpatch
  refine ⟨selected, hplans, hsummary, ?_, ?_⟩
  · intro item hitem hallow
    obtain ⟨i, hi⟩ := List.mem_iff_getElem?.mp hitem
    have hmem : (item, i) ∈ (withActions policy selected).zipIdx :=
      List.mem_zipIdx_iff_getElem?.mpr hi
    cases hpatch : patchOf unicode hashes text minted (item, i) with
    | none => exact absurd (hspared _ hmem hpatch) hallow
    | some p =>
        cases hwritten _ hmem p hpatch with
        | token token _ htype _ =>
            rw [← htype]
            exact token.entityType_valid
        | redaction _ hvalid _ => exact hvalid
        | surrogate _ hvalid _ => exact hvalid
  · intro hinert
    unfold keysRead keysOf
    rw [htext, ← read_fill reads_tokens hwritten hspared
        (hinert.imp (fun h => ⟨h.1.1, h.2⟩) id),
      ← read_fill reads_redactions hwritten hspared
        (hinert.imp (fun h => ⟨h.1.2, h.2⟩) id), List.map_map, List.map_map]
    rfl

end Message

-- ==================================================== a whole request

/-- What a planned span is to be reported as. -/
def doneKey (item : Planned) : Option (Text × EntityAction) :=
  match item.2 with
  | .tokenize => some (item.1.entityType, .tokenize)
  | .pseudonymize => some (item.1.entityType, .tokenize)
  | .redact => some (item.1.entityType, .redact)
  | _ => none

theorem keysOf_append (plan more : List Planned) :
    (keysOf (plan ++ more)).Perm (keysOf plan ++ keysOf more) := by
  unfold keysOf
  rw [List.flatMap_append, List.flatMap_append, List.map_append,
    List.map_append, List.append_assoc, List.append_assoc]
  refine List.Perm.append_left _ ?_
  rw [← List.append_assoc, ← List.append_assoc]
  exact List.Perm.append_right _ List.perm_append_comm

theorem filterMap_doneKey_cons (item : Planned) (plan : List Planned) :
    (item :: plan).filterMap doneKey =
      [item].filterMap doneKey ++ plan.filterMap doneKey := by
  rw [← List.filterMap_append, List.singleton_append]

section Request

variable {σ : Type} {unicode : Unicode} {hashes : Hashes}
  {fingerprinter : Fingerprinter} {tenantId sessionId : UUID}
  {vault : VaultLike σ} {policy : PolicySnapshot}

/-- No surrogate of the request completes anything. -/
def InertRequest (messages : List ChatMessage) (plan : List Planned) :
    Prop :=
  ((∀ message ∈ messages, Ungated message.content) ∧
      ∀ item ∈ plan, item.2 ≠ .pseudonymize) ∨
    ∀ message ∈ messages, leftDelimiter ∉ message.content

/-- What a request's transforms selected, counted, and are read as. -/
structure ReadBack (policy : PolicySnapshot) (messages : List ChatMessage)
    (before : PrivacySummary) (selections : Selections)
    (out : List ChatMessage × PrivacySummary) : Prop where
  valid : ∀ item ∈ withActions policy selections.flatten,
    item.2 ≠ .allow → isValidEntityType item.1.entityType = true
  tokenized : out.2.tokenized = before.tokenized +
    tally (withActions policy selections.flatten) .tokenize
  pseudonymized : out.2.pseudonymized = before.pseudonymized +
    tally (withActions policy selections.flatten) .pseudonymize
  redacted : out.2.redacted = before.redacted +
    tally (withActions policy selections.flatten) .redact
  read : InertRequest messages (withActions policy selections.flatten) →
    ((out.1.map ChatMessage.content).flatMap keysRead).Perm
      (keysOf (withActions policy selections.flatten))

theorem tally_cons_selected (selected : List DetectedEntity)
    (selections : Selections) (action : EntityAction) :
    tally (withActions policy (selected :: selections).flatten) action =
      tally (withActions policy selected) action +
        tally (withActions policy selections.flatten) action := by
  unfold tally withActions
  rw [List.flatten_cons, List.map_append, List.countP_append]

theorem tokenizeMessages_read (messages : List ChatMessage) :
    ∀ {detections : List (List DetectedEntity)} {before : PrivacySummary}
      {s t : σ} {out : List ChatMessage × PrivacySummary},
      runIn (tokenizeMessages unicode hashes fingerprinter vault tenantId
        sessionId policy before messages detections) s = (.ok out, t) →
      ∃ selections, selectRequestEntities policy messages detections =
        .ok selections ∧ ReadBack policy messages before selections out := by
  induction messages with
  | nil =>
      intro detections before s t out h
      cases detections with
      | nil =>
          cases h
          refine ⟨[], rfl, ⟨fun item hitem => absurd hitem List.not_mem_nil,
            rfl, rfl, rfl, fun _ => List.Perm.refl _⟩⟩
      | cons entities detections => cases h
  | cons message messages ih =>
      intro detections before s t out h
      cases detections with
      | nil => cases h
      | cons entities detections =>
          obtain ⟨transformed, u, htransform, h⟩ := bind_ok_iff.mp h
          obtain ⟨rest, v, htail, h⟩ := bind_ok_iff.mp h
          cases h
          obtain ⟨selected, hplans, hsummary, hvalid, hread⟩ :=
            transform_read (translate_ok_iff.mp htransform)
          obtain ⟨selections, hselections, hrest⟩ := ih htail
          have hplan : withActions policy (selected :: selections).flatten =
              withActions policy selected ++
                withActions policy selections.flatten := by
            unfold withActions
            rw [List.flatten_cons, List.map_append]
          refine ⟨selected :: selections, ?_, ?_, ?_, ?_, ?_, ?_⟩
          · unfold selectRequestEntities
            rw [hplans.selects, hselections]
          · intro item hitem
            rw [hplan] at hitem
            rcases List.mem_append.mp hitem with hitem | hitem
            · exact hvalid item hitem
            · exact hrest.valid item hitem
          · rw [hrest.tokenized, tally_cons_selected, ← Nat.add_assoc,
              hsummary]
            rfl
          · rw [hrest.pseudonymized, tally_cons_selected, ← Nat.add_assoc,
              hsummary]
            rfl
          · rw [hrest.redacted, tally_cons_selected, ← Nat.add_assoc,
              hsummary]
            rfl
          · intro hinert
            rw [hplan] at hinert
            have hfirst : Inert message.content
                (withActions policy selected) :=
              hinert.imp
                (fun h => ⟨h.1 message List.mem_cons_self, fun item hitem =>
                  h.2 item (List.mem_append_left _ hitem)⟩)
                (fun h => h message List.mem_cons_self)
            have hlater : InertRequest messages
                (withActions policy selections.flatten) :=
              hinert.imp
                (fun h => ⟨fun m hm => h.1 m (List.mem_cons_of_mem _ hm),
                  fun item hitem =>
                    h.2 item (List.mem_append_right _ hitem)⟩)
                (fun h m hm => h m (List.mem_cons_of_mem _ hm))
            rw [hplan]
            refine List.Perm.trans ?_ (keysOf_append _ _).symm
            show (keysRead transformed.text ++
              (rest.1.map ChatMessage.content).flatMap keysRead).Perm _
            rw [hread hfirst]
            exact List.Perm.append_left _ (hrest.read hlater)

end Request

-- ==================================================== agreement

/-- The report of the messages agrees with the plan and the summary: each
span that was tokenized, pseudonymized or redacted is reported once under
its type, nothing else is, and the totals are the summary's. -/
structure Agrees (messages : List Text) (plan : List Planned)
    (summary : PrivacySummary) : Prop where
  reported : ∀ entry : ProtectedEntitySummary,
    entry ∈ appliedActions messages ↔ 0 < entry.count ∧
      entry.count = Dict.times (plan.filterMap doneKey) entry.key
  once : ((appliedActions messages).map
    ProtectedEntitySummary.key).Nodup
  tokens : (((appliedActions messages).filter
      (fun entry => entry.action == .tokenize)).map
        ProtectedEntitySummary.count).sum =
    summary.tokenized + summary.pseudonymized
  redactions : (((appliedActions messages).filter
      (fun entry => entry.action == .redact)).map
        ProtectedEntitySummary.count).sum = summary.redacted

/-- Every replacement of the spans can be told from the text: none is a
surrogate, and none is a redaction that is also spelled as a token. -/
def Recoverable (policy : PolicySnapshot) (spans : List DetectedEntity) :
    Prop :=
  ∀ e ∈ spans, policy.actionFor e.entityType ≠ .pseudonymize ∧
    (policy.actionFor e.entityType = .redact →
      isValidTokenId e.entityType = false)

/-- Of a plan that can be told from the text, what is read is what was
done. -/
theorem keysOf_perm {plan : List Planned}
    (h : ∀ item ∈ plan, item.2 ≠ .pseudonymize ∧
      (item.2 = .redact → isValidTokenId item.1.entityType = false)) :
    (keysOf plan).Perm (plan.filterMap doneKey) := by
  induction plan with
  | nil => exact List.Perm.refl _
  | cons item plan ih =>
      obtain ⟨⟨hplain, hredact⟩, hrest⟩ := List.forall_mem_cons.mp h
      refine (keysOf_append [item] plan).trans ?_
      rw [filterMap_doneKey_cons]
      refine List.Perm.append ?_ (ih hrest)
      unfold keysOf doneKey
      rw [List.flatMap_singleton, List.flatMap_singleton,
        List.filterMap_cons, List.filterMap_nil]
      unfold tokensRead redactionsRead
      cases haction : item.2 with
      | allow => exact List.Perm.refl _
      | block => exact List.Perm.refl _
      | tokenize => exact List.Perm.refl _
      | pseudonymize => exact absurd haction hplain
      | redact =>
          simp only [hredact haction]
          exact List.Perm.refl _

theorem countP_done_tokens (plan : List Planned) :
    (plan.filterMap doneKey).countP (fun key => key.2 == .tokenize) =
      tally plan .tokenize + tally plan .pseudonymize := by
  induction plan with
  | nil => rfl
  | cons item plan ih =>
      unfold tally at ih ⊢
      rw [filterMap_doneKey_cons, List.countP_append, ih, List.countP_cons,
        List.countP_cons, List.filterMap_cons, List.filterMap_nil]
      unfold doneKey
      cases haction : item.2 with
      | allow => simp
      | block => simp
      | tokenize => simp; omega
      | pseudonymize => simp; omega
      | redact => simp

theorem countP_done_redactions (plan : List Planned) :
    (plan.filterMap doneKey).countP (fun key => key.2 == .redact) =
      tally plan .redact := by
  induction plan with
  | nil => rfl
  | cons item plan ih =>
      unfold tally at ih ⊢
      rw [filterMap_doneKey_cons, List.countP_append, ih, List.countP_cons,
        List.filterMap_cons, List.filterMap_nil]
      unfold doneKey
      cases haction : item.2 with
      | allow => simp
      | block => simp
      | tokenize => simp
      | pseudonymize => simp
      | redact => simp; omega

/-- A pseudonymized span is missing from what is read of its type. -/
theorem times_keysOf {name : Text} (hname : name ≠ redactedMarker)
    (plan : List Planned) :
    Dict.times (keysOf plan) (name, .tokenize) +
        plan.countP (fun item => decide (item.2 = .pseudonymize ∧
          item.1.entityType = name)) =
      Dict.times (plan.filterMap doneKey) (name, .tokenize) := by
  induction plan with
  | nil => rfl
  | cons item plan ih =>
      have hcons := (keysOf_append [item] plan).countP_eq
        (fun key => decide (key = (name, EntityAction.tokenize)))
      rw [List.countP_append] at hcons
      have hsplit : keysOf (item :: plan) = keysOf ([item] ++ plan) := rfl
      unfold Dict.times at ih ⊢
      rw [hsplit, hcons, List.countP_cons, filterMap_doneKey_cons,
        List.countP_append, ← ih]
      have hitem : (keysOf [item]).countP
            (fun key => decide (key = (name, EntityAction.tokenize))) +
          (if decide (item.2 = .pseudonymize ∧ item.1.entityType = name) =
            true then 1 else 0) =
          ([item].filterMap doneKey).countP
            (fun key => decide (key = (name, EntityAction.tokenize))) := by
        unfold keysOf doneKey
        rw [List.flatMap_singleton, List.flatMap_singleton,
          List.filterMap_cons, List.filterMap_nil]
        unfold tokensRead redactionsRead
        cases haction : item.2 with
        | allow => simp
        | block => simp
        | tokenize => simp
        | pseudonymize => simp
        | redact =>
            by_cases hid : isValidTokenId item.1.entityType = true
            · simp [hid, Ne.symm hname]
            · simp [hid]
      omega

section Request

variable {σ : Type} {unicode : Unicode} {hashes : Hashes}
  {fingerprinter : Fingerprinter} {tenantId sessionId : UUID}
  {vault : VaultLike σ} {policy : PolicySnapshot}
  {messages : List ChatMessage} {before : PrivacySummary}
  {selections : Selections} {out : List ChatMessage × PrivacySummary}

theorem agrees_of_recoverable
    (h : ReadBack policy messages {} selections out)
    (hclean : ∀ message ∈ messages, Ungated message.content)
    (hrecoverable : Recoverable policy selections.flatten) :
    Agrees (out.1.map ChatMessage.content)
      (withActions policy selections.flatten) out.2 := by
  have hplan : ∀ item ∈ withActions policy selections.flatten,
      item.2 ≠ .pseudonymize ∧
        (item.2 = .redact → isValidTokenId item.1.entityType = false) := by
    intro item hitem
    obtain ⟨e, he, rfl⟩ := List.mem_map.mp hitem
    exact hrecoverable e he
  have hperm := (h.read (Or.inl ⟨hclean, fun item hitem =>
    (hplan item hitem).1⟩)).trans (keysOf_perm hplan)
  refine ⟨fun entry => ?_, nodup_keys_appliedActions _, ?_, ?_⟩
  · rw [mem_appliedActions_iff]
    have htimes := hperm.countP_eq (fun key => decide (key = entry.key))
    show _ ∧ _ = Dict.times _ entry.key ↔ _
    unfold Dict.times
    rw [htimes]
  · rw [sum_appliedActions _ (fun action => action == .tokenize),
      hperm.countP_eq, countP_done_tokens, h.tokenized, h.pseudonymized]
    show _ = 0 + _ + (0 + _)
    rw [Nat.zero_add, Nat.zero_add]
  · rw [sum_appliedActions _ (fun action => action == .redact),
      hperm.countP_eq, countP_done_redactions, h.redacted]
    show _ = 0 + _
    rw [Nat.zero_add]

theorem recoverable_of_agrees
    (h : ReadBack policy messages {} selections out)
    (hunmarked : ∀ message ∈ messages, leftDelimiter ∉ message.content)
    (hagrees : Agrees (out.1.map ChatMessage.content)
      (withActions policy selections.flatten) out.2) :
    Recoverable policy selections.flatten := by
  have hperm := h.read (Or.inr hunmarked)
  -- the report and the plan count every key alike
  have htimes : ∀ key, Dict.times (keysOf (withActions policy
      selections.flatten)) key = Dict.times ((withActions policy
        selections.flatten).filterMap doneKey) key := by
    intro key
    have hread := hperm.countP_eq (fun other => decide (other = key))
    unfold Dict.times
    rw [← hread]
    have hentry := fun n => (mem_appliedActions_iff.symm.trans
      (hagrees.reported ⟨key.1, n, key.2⟩))
    have hread := hentry (Dict.times ((out.1.map
      ChatMessage.content).flatMap keysRead) key)
    have hdone := hentry (Dict.times ((withActions policy
      selections.flatten).filterMap doneKey) key)
    by_contra hne
    rcases Nat.lt_or_gt_of_ne hne with hlt | hgt
    · exact hne (hdone.mpr ⟨Nat.lt_of_le_of_lt (Nat.zero_le _) hlt,
        rfl⟩).2.symm
    · exact hne (hread.mp ⟨Nat.lt_of_le_of_lt (Nat.zero_le _) hgt, rfl⟩).2
  have hmem : ∀ e ∈ selections.flatten, (e, policy.actionFor e.entityType) ∈
      withActions policy selections.flatten :=
    fun e he => List.mem_map.mpr ⟨e, he, rfl⟩
  intro e he
  have hitem := hmem e he
  refine ⟨fun haction => ?_, fun haction => ?_⟩
  · have hvalid := h.valid _ hitem
      (by rw [haction]; exact EntityAction.noConfusion)
    have hname : e.entityType ≠ redactedMarker := by
      intro hname
      rw [hname] at hvalid
      exact absurd hvalid (by decide)
    have hmissing := times_keysOf hname
      (withActions policy selections.flatten)
    rw [htimes] at hmissing
    have hpos := List.countP_pos_iff (p := fun item : Planned =>
      decide (item.2 = .pseudonymize ∧
        item.1.entityType = e.entityType)).mpr
        ⟨_, hitem, decide_eq_true ⟨haction, rfl⟩⟩
    omega
  · cases hid : isValidTokenId e.entityType with
    | false => rfl
    | true =>
        have hread : (redactedMarker, EntityAction.tokenize) ∈
            keysOf (withActions policy selections.flatten) := by
          refine List.mem_append_left _ (List.mem_map.mpr
            ⟨redactedMarker, List.mem_flatMap.mpr ⟨_, hitem, ?_⟩, rfl⟩)
          unfold tokensRead
          rw [haction]
          simp only
          rw [if_pos hid]
          exact List.mem_singleton_self _
        have hpos := List.countP_pos_iff (p := fun key =>
          decide (key = (redactedMarker, EntityAction.tokenize))).mpr
            ⟨_, hread, decide_eq_true rfl⟩
        have heq := htimes (redactedMarker, .tokenize)
        unfold Dict.times at heq
        rw [heq] at hpos
        obtain ⟨key, hkey, hdecided⟩ := List.countP_pos_iff.mp hpos
        rw [of_decide_eq_true hdecided] at hkey
        obtain ⟨item, hin, hdone⟩ := List.mem_filterMap.mp hkey
        -- a span of that type could not have been tokenized
        have hmarker : item.1.entityType = redactedMarker ∧
            item.2 ≠ .allow := by
          unfold doneKey at hdone
          cases hact : item.2 with
          | allow =>
              rw [hact] at hdone
              cases hdone
          | block =>
              rw [hact] at hdone
              cases hdone
          | redact =>
              rw [hact] at hdone
              exact absurd (Prod.mk.inj (Option.some.inj hdone)).2
                (by decide)
          | tokenize =>
              rw [hact] at hdone
              exact ⟨(Prod.mk.inj (Option.some.inj hdone)).1, by decide⟩
          | pseudonymize =>
              rw [hact] at hdone
              exact ⟨(Prod.mk.inj (Option.some.inj hdone)).1, by decide⟩
        have hvalid := h.valid item hin hmarker.2
        rw [hmarker.1] at hvalid
        exact absurd hvalid (by decide)

end Request

/-- Where no span is pseudonymized and no redacted type has the form of an
identifier, the report agrees with what was done; and over messages without
a left delimiter it agrees nowhere else. -/
theorem actions_reported {σ : Type} {unicode : Unicode} {hashes : Hashes}
    {fingerprinter : Fingerprinter} {tenantId sessionId : UUID}
    {vault : VaultLike σ} {policy : PolicySnapshot}
    {messages : List ChatMessage} {detections : List (List DetectedEntity)}
    {ceiling : Nat} {s t : σ} {out : List ChatMessage × PrivacySummary}
    (hrun : runIn (protectMessages unicode hashes fingerprinter vault
      tenantId sessionId policy messages detections ceiling) s =
        (.ok out, t))
    (hclean : ∀ message ∈ messages, Ungated message.content) :
    ∃ selections,
      selectRequestEntities policy messages detections = .ok selections ∧
      (Recoverable policy selections.flatten →
        Agrees (out.1.map ChatMessage.content)
          (withActions policy selections.flatten) out.2) ∧
      ((∀ message ∈ messages, leftDelimiter ∉ message.content) →
        Agrees (out.1.map ChatMessage.content)
            (withActions policy selections.flatten) out.2 →
          Recoverable policy selections.flatten) := by
  unfold protectMessages at hrun
  obtain ⟨_, -, htokenize⟩ := checked_bind_ok_iff.mp hrun
  obtain ⟨selections, hselections, hread⟩ :=
    tokenizeMessages_read messages htokenize
  exact ⟨selections, hselections, agrees_of_recoverable hread hclean,
    recoverable_of_agrees hread⟩

-- ==================================================== on fixed inputs

/-- A name that is tokenized, a place that stays and an address that is
redacted: the report tells the first and the last. -/
theorem actions_reported_mixed :
    ∃ out t, runIn (protectMessages Unicode.ascii (Hashes.ofTables [] [])
        sampleFingerprinter drawingVault ⟨2⟩ ⟨3⟩ mixedPolicy
        [⟨.user, mixedText⟩] [mixedEntities] 100)
          ["01ARZ3NDEKTSV4RRFFQ69G5FAV".toList] = (.ok out, t) ∧
      ∃ selections, selectRequestEntities mixedPolicy [⟨.user, mixedText⟩]
          [mixedEntities] = .ok selections ∧
        Agrees (out.1.map ChatMessage.content)
          (withActions mixedPolicy selections.flatten) out.2 := by
  have hrun : runIn (protectMessages Unicode.ascii (Hashes.ofTables [] [])
      sampleFingerprinter drawingVault ⟨2⟩ ⟨3⟩ mixedPolicy
      [⟨.user, mixedText⟩] [mixedEntities] 100)
        ["01ARZ3NDEKTSV4RRFFQ69G5FAV".toList] =
      (.ok ([⟨.user, "⟦SGW:PERSON:01ARZ3NDEKTSV4RRFFQ69G5FAV⟧@York ".toList ++
          "⟦SGW:REDACTED:EMAIL⟧".toList⟩],
        { detected := 3, tokenized := 1, redacted := 1, allowed := 1
          entityTypes := [("PERSON".toList, 1), ("LOCATION".toList, 1),
            ("EMAIL".toList, 1)] }), []) := by
    decide +kernel
  obtain ⟨selections, hselections, hagrees, -⟩ :=
    actions_reported hrun (by decide)
  refine ⟨_, _, hrun, selections, hselections, hagrees ?_⟩
  have hselected : selectRequestEntities mixedPolicy [⟨.user, mixedText⟩]
      [mixedEntities] = .ok [mixedEntities.reverse] := by
    decide +kernel
  cases hselected.symm.trans hselections
  unfold Recoverable
  decide +kernel

/-- A pseudonymized name leaves no trace that the report could read. -/
theorem pseudonym_unreported :
    runIn (protectMessages Unicode.ascii nameHashes sampleFingerprinter
        drawingVault ⟨2⟩ ⟨3⟩ surrogatesPolicy [⟨.user, "Ann".toList⟩]
        [[nameAt 0]] 100) ["01ARZ3NDEKTSV4RRFFQ69G5FAV".toList] =
      (.ok ([⟨.user, "Wfn".toList⟩],
        { detected := 1, pseudonymized := 1
          entityTypes := [("PERSON".toList, 1)] }), []) ∧
    selectRequestEntities surrogatesPolicy [⟨.user, "Ann".toList⟩]
      [[nameAt 0]] = .ok [[nameAt 0]] ∧
    Ungated "Ann".toList ∧
    ¬ Agrees ["Wfn".toList]
        (withActions surrogatesPolicy [nameAt 0])
        { detected := 1, pseudonymized := 1
          entityTypes := [("PERSON".toList, 1)] } := by
  refine ⟨by decide +kernel, by decide +kernel, by decide,
    fun hagrees => ?_⟩
  have htotal := hagrees.tokens
  have hempty : appliedActions ["Wfn".toList] = [] := by decide
  rw [hempty] at htotal
  exact absurd htotal (by decide)

end PrivacyGateway.Pipeline
