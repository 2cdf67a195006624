/-
What the outbound scan lets past, and when it lets past only placeholders.

Tokens and well-formed redactions are `Delimited`: a left delimiter, a
right delimiter, and neither between them. Two such ranges that share a
position are one range (`Delimited.unique`). The redaction search reserves
more than that: `exists_redactionsFrom` shows that its ranges cover every
`Lookalike`, the redaction marker up to the next right delimiter, whatever
stands between.

`scanComplete_iff` is exact for one text and one detection list: only
placeholders are let past when no detection crosses the edge of a
placeholder and none touches a malformed lookalike from outside one.
-/
import PrivacyGateway.Outbound.Scan
import PrivacyGateway.Tokenization.Proofs.Scanning

namespace PrivacyGateway.Outbound

open Detection Effect Find Scan Splice Tokenization

variable {text : Text}

-- ==================================================== delimited ranges

theorem at_singleton_iff {c : Char} {i : Nat} :
    At [c] text i ↔ text[i]? = some c := by
  unfold At
  rw [← List.head?_drop]
  cases text.drop i with
  | nil => simp
  | cons a rest => simp [eq_comm]

/-- A left delimiter, a right delimiter, and neither between them. -/
structure Delimited (text : Text) (range : Nat × Nat) : Prop where
  opens : text[range.1]? = some leftDelimiter
  closes : text[range.2 - 1]? = some rightDelimiter
  forward : range.1 + 1 < range.2
  inner_left : ∀ i, range.1 < i → i < range.2 - 1 →
    text[i]? ≠ some leftDelimiter
  inner_right : ∀ i, range.1 < i → i < range.2 - 1 →
    text[i]? ≠ some rightDelimiter

theorem delimited_of_at {body : Text} {a : Nat}
    (hat : At (leftDelimiter :: (body ++ [rightDelimiter])) text a)
    (hleft : leftDelimiter ∉ body) (hright : rightDelimiter ∉ body) :
    Delimited text (a, a + (body.length + 2)) := by
  obtain ⟨rest, hrest⟩ := hat
  have hget : ∀ k, text[a + k]? =
      (leftDelimiter :: (body ++ [rightDelimiter]) ++ rest)[k]? := by
    intro k
    rw [hrest, List.getElem?_drop]
  have hinner : ∀ i, a < i → i < a + (body.length + 2) - 1 →
      ∃ c ∈ body, text[i]? = some c := by
    intro i hlow hhigh
    obtain ⟨k, rfl⟩ : ∃ k, i = a + (k + 1) := ⟨i - a - 1, by omega⟩
    have hk : k < body.length := by omega
    refine ⟨body[k], List.getElem_mem hk, ?_⟩
    rw [hget, List.cons_append, List.getElem?_cons_succ, List.append_assoc,
      List.getElem?_append_left hk, List.getElem?_eq_getElem hk]
  refine ⟨?_, ?_, ?_, ?_, ?_⟩
  · exact hget 0
  · show text[a + (body.length + 2) - 1]? = _
    rw [show a + (body.length + 2) - 1 = a + (body.length + 1) by omega,
      hget, List.cons_append, List.getElem?_cons_succ, List.append_assoc,
      List.getElem?_append_right (le_refl _), Nat.sub_self]
    rfl
  · show a + 1 < a + (body.length + 2)
    omega
  · intro i hlow hhigh hc
    obtain ⟨c, hmem, hsome⟩ := hinner i hlow hhigh
    rw [hsome] at hc
    cases hc
    exact hleft hmem
  · intro i hlow hhigh hc
    obtain ⟨c, hmem, hsome⟩ := hinner i hlow hhigh
    rw [hsome] at hc
    cases hc
    exact hright hmem

/-- Of two delimited ranges that share a position, neither starts before
the other. -/
theorem Delimited.start_le {r s : Nat × Nat} (hr : Delimited text r)
    (hs : Delimited text s) (hmeet : s.1 < r.2) : s.1 ≤ r.1 := by
  by_contra hlt
  by_cases hlast : s.1 = r.2 - 1
  · have hopen := hs.opens
    rw [hlast, hr.closes] at hopen
    exact absurd hopen (by decide)
  · exact hr.inner_left s.1 (by omega) (by omega) hs.opens

/-- Of two delimited ranges with one start, neither stops before the
other. -/
theorem Delimited.stop_le {r s : Nat × Nat} (hr : Delimited text r)
    (hs : Delimited text s) (hstart : r.1 = s.1) : s.2 ≤ r.2 := by
  by_contra hlt
  have := hr.forward
  exact hs.inner_right (r.2 - 1) (by omega) (by omega) hr.closes

/-- Two delimited ranges that share a position are one range. -/
theorem Delimited.unique {r s : Nat × Nat} (hr : Delimited text r)
    (hs : Delimited text s) (hrs : r.1 < s.2) (hsr : s.1 < r.2) :
    r = s := by
  have h1 := hr.start_le hs hsr
  have h2 := hs.start_le hr hrs
  have hstart : r.1 = s.1 := by omega
  have h3 := hr.stop_le hs hstart
  have h4 := hs.stop_le hr hstart.symm
  exact Prod.ext hstart (by omega)

-- ==================================================== placeholders

/-- The range of a gateway token. -/
def IsToken (text : Text) (range : Nat × Nat) : Prop :=
  ∃ found ∈ findTokens text, (found.start, found.stop) = range

/-- The range of a string that `formatRedaction` can produce. -/
def IsRedaction (text : Text) (range : Nat × Nat) : Prop :=
  ∃ entityType placeholder, formatRedaction entityType = .ok placeholder ∧
    At placeholder text range.1 ∧
    range.2 = range.1 + placeholder.length

/-- A well-formed token or redaction. -/
def IsPlaceholder (text : Text) (range : Nat × Nat) : Prop :=
  IsToken text range ∨ IsRedaction text range

/-- The redaction marker, up to the next right delimiter. -/
structure Lookalike (text : Text) (range : Nat × Nat) : Prop where
  opens : At redactionPrefix text range.1
  closes : At [rightDelimiter] text (range.2 - 1)
  forward : range.1 < range.2
  first : ∀ i, range.1 ≤ i → i < range.2 - 1 →
    ¬ At [rightDelimiter] text i

/-- The span lies in the range. -/
def Inside (entity : DetectedEntity) (range : Nat × Nat) : Prop :=
  range.1 ≤ entity.start ∧ entity.stop ≤ range.2

theorem overlapsRange_iff {entity : DetectedEntity} {range : Nat × Nat} :
    overlapsRange entity range = true ↔
      entity.start < range.2 ∧ range.1 < entity.stop := by
  simp [overlapsRange]

theorem overlapsRange_of_inside {entity : DetectedEntity}
    {range : Nat × Nat} (h : Inside entity range) :
    overlapsRange entity range = true := by
  have := entity.span_forward
  have := h.1
  have := h.2
  exact overlapsRange_iff.mpr ⟨by omega, by omega⟩

theorem IsToken.delimited {range : Nat × Nat} (h : IsToken text range) :
    Delimited text range := by
  obtain ⟨found, hmem, rfl⟩ := h
  obtain ⟨hat, hstop⟩ := occurs_iff.mp (occurs_of_mem_findTokens hmem)
  obtain ⟨-, ht1, ht2⟩ := not_mem_of_entityTypeChars
    (isEntityTypeChar_of_valid found.token.entityType_valid)
  obtain ⟨-, hi1, hi2⟩ := not_mem_of_crockfordChars
    (isCrockfordChar_of_valid found.token.tokenId_valid)
  have hshape : found.token.text = leftDelimiter ::
      ((tokenNamespace ++ fieldSeparator :: (found.token.entityType ++
        fieldSeparator :: found.token.tokenId)) ++ [rightDelimiter]) := by
    simp [Token.text, renderToken]
  have hlen : found.token.text.length =
      (tokenNamespace ++ fieldSeparator :: (found.token.entityType ++
        fieldSeparator :: found.token.tokenId)).length + 2 := by
    rw [hshape, List.length_cons, List.length_append]
    rfl
  rw [hstop, hlen]
  apply delimited_of_at (hshape ▸ hat)
  · simp [tokenNamespace, fieldSeparator, leftDelimiter] at ht1 hi1 ⊢
    exact ⟨ht1, hi1⟩
  · simp [tokenNamespace, fieldSeparator, rightDelimiter] at ht2 hi2 ⊢
    exact ⟨ht2, hi2⟩

/-- What a well-formed redaction is made of. -/
theorem formatRedaction_ok {entityType placeholder : Text}
    (h : formatRedaction entityType = .ok placeholder) :
    isValidEntityType entityType = true ∧
      placeholder = redactionPrefix ++ (entityType ++ [rightDelimiter]) := by
  obtain ⟨hvalid, hrender⟩ := formatRedaction_ok_iff.mp h
  exact ⟨hvalid, hrender.symm⟩

theorem IsRedaction.delimited {range : Nat × Nat}
    (h : IsRedaction text range) : Delimited text range := by
  obtain ⟨entityType, placeholder, hformat, hat, hstop⟩ := h
  obtain ⟨hvalid, rfl⟩ := formatRedaction_ok hformat
  obtain ⟨-, ht1, ht2⟩ := not_mem_of_entityTypeChars
    (isEntityTypeChar_of_valid hvalid)
  have hshape : redactionPrefix ++ (entityType ++ [rightDelimiter]) =
      leftDelimiter ::
        ((redactionPrefix.tail ++ entityType) ++ [rightDelimiter]) := by
    rw [List.append_assoc]
    rfl
  have hlen : (redactionPrefix ++ (entityType ++ [rightDelimiter])).length =
      (redactionPrefix.tail ++ entityType).length + 2 := by
    rw [hshape, List.length_cons, List.length_append]
    rfl
  have hrange : range =
      (range.1, range.1 + ((redactionPrefix.tail ++ entityType).length + 2)) :=
    Prod.ext rfl (by rw [hstop, hlen])
  rw [hrange]
  rw [hshape] at hat
  apply delimited_of_at hat
  · rw [List.mem_append]
    exact fun hmem => hmem.elim (by decide) ht1
  · rw [List.mem_append]
    exact fun hmem => hmem.elim (by decide) ht2

theorem IsPlaceholder.delimited {range : Nat × Nat}
    (h : IsPlaceholder text range) : Delimited text range := by
  cases h with
  | inl htoken => exact htoken.delimited
  | inr hredaction => exact hredaction.delimited

/-- A well-formed redaction is a lookalike. -/
theorem IsRedaction.lookalike {range : Nat × Nat}
    (h : IsRedaction text range) : Lookalike text range := by
  have hdelim := h.delimited
  obtain ⟨entityType, placeholder, hformat, hat, -⟩ := h
  obtain ⟨-, rfl⟩ := formatRedaction_ok hformat
  refine ⟨(List.prefix_append _ _).trans hat,
    at_singleton_iff.mpr hdelim.closes, by have := hdelim.forward; omega, ?_⟩
  intro i hlow hhigh hclose
  rw [at_singleton_iff] at hclose
  by_cases hopen : i = range.1
  · rw [hopen, hdelim.opens] at hclose
    exact absurd hclose (by decide)
  · exact hdelim.inner_right i (by omega) hhigh hclose

-- ==================================================== the search loop

/-- The next right delimiter lies past the marker's first character. -/
theorem closing_gt {cursor closing : Nat}
    (hopen : At redactionPrefix text cursor)
    (hclose : findFrom [rightDelimiter] text cursor = some closing) :
    cursor < closing := by
  obtain ⟨hle, hat, -⟩ :=
    (findFrom_eq_some_iff (List.cons_ne_nil _ _)).mp hclose
  rcases Nat.lt_or_eq_of_le hle with hlt | rfl
  · exact hlt
  · have hfirst : At [leftDelimiter] text cursor :=
      List.IsPrefix.trans (by decide) hopen
    rw [at_singleton_iff] at hat hfirst
    rw [hfirst] at hat
    exact absurd hat (by decide)

/-- Every range the loop reserves is a lookalike. -/
theorem lookalike_of_mem_redactionsFrom (rounds : Nat) :
    ∀ {start : Nat} {range : Nat × Nat},
      range ∈ redactionsFrom text rounds start → Lookalike text range := by
  induction rounds with
  | zero =>
      intro start range h
      exact absurd h (List.not_mem_nil)
  | succ rounds ih =>
      intro start range h
      unfold redactionsFrom at h
      cases hopen : findFrom redactionPrefix text start with
      | none =>
          rw [hopen] at h
          exact absurd h (List.not_mem_nil)
      | some cursor =>
          rw [hopen] at h
          simp only at h
          cases hclose : findFrom [rightDelimiter] text cursor with
          | none =>
              rw [hclose] at h
              exact absurd h (List.not_mem_nil)
          | some closing =>
              rw [hclose] at h
              rcases List.mem_cons.mp h with rfl | hmem
              · obtain ⟨-, hat, -⟩ :=
                  (findFrom_eq_some_iff (by decide)).mp hopen
                obtain ⟨hle, hend, hbefore⟩ :=
                  (findFrom_eq_some_iff (List.cons_ne_nil _ _)).mp hclose
                exact ⟨hat, hend, by simp only; omega, hbefore⟩
              · exact ih hmem

/-- The loop's ranges cover every lookalike from its start on. Induction
on the rounds: the first range found either reaches the lookalike's own
end, or it ends before the lookalike begins. -/
theorem exists_redactionsFrom (rounds : Nat) :
    ∀ {start : Nat} {range : Nat × Nat}, Lookalike text range →
      start ≤ range.1 → text.length < start + rounds →
      ∃ r ∈ redactionsFrom text rounds start, r.1 ≤ range.1 ∧
        range.2 ≤ r.2 := by
  induction rounds with
  | zero =>
      intro start range hlook hstart hrounds
      have := hlook.opens.lt_length (by decide)
      omega
  | succ rounds ih =>
      intro start range hlook hstart hrounds
      have hforward := hlook.forward
      obtain ⟨cursor, hopen, hcursor⟩ :=
        exists_findFrom (by decide) hstart hlook.opens
      obtain ⟨hsc, hat, -⟩ := (findFrom_eq_some_iff (by decide)).mp hopen
      obtain ⟨closing, hclose, hclosing⟩ :=
        exists_findFrom (List.cons_ne_nil _ _)
          (show cursor ≤ range.2 - 1 by omega) hlook.closes
      obtain ⟨-, hend, -⟩ :=
        (findFrom_eq_some_iff (List.cons_ne_nil _ _)).mp hclose
      have hgt := closing_gt hat hclose
      unfold redactionsFrom
      rw [hopen]
      simp only
      rw [hclose]
      by_cases hbefore : closing < range.1
      · obtain ⟨r, hr, h1, h2⟩ := ih hlook (Nat.le_of_lt hbefore)
          (by omega)
        exact ⟨r, List.mem_cons_of_mem _ hr, h1, h2⟩
      · have hsame : ¬ closing < range.2 - 1 :=
          fun hlt => hlook.first closing (by omega) hlt hend
        exact ⟨_, List.mem_cons_self, hcursor, by simp only; omega⟩

/-- A detection meets a reserved range when it meets a token or a
lookalike. -/
theorem reserved_iff {entity : DetectedEntity} :
    (reservedRanges text).any (overlapsRange entity) = true ↔
      ∃ range, (IsToken text range ∨ Lookalike text range) ∧
        overlapsRange entity range = true := by
  rw [List.any_eq_true]
  unfold reservedRanges
  constructor
  · intro h
    obtain ⟨range, hmem, hover⟩ := h
    rcases List.mem_append.mp hmem with htoken | hredaction
    · obtain ⟨found, hfound, rfl⟩ := List.mem_map.mp htoken
      exact ⟨_, Or.inl ⟨found, hfound, rfl⟩, hover⟩
    · exact ⟨range,
        Or.inr (lookalike_of_mem_redactionsFrom _ hredaction), hover⟩
  · intro h
    obtain ⟨range, hkind, hover⟩ := h
    cases hkind with
    | inl htoken =>
        obtain ⟨found, hfound, rfl⟩ := htoken
        exact ⟨_, List.mem_append_left _
          (List.mem_map.mpr ⟨found, hfound, rfl⟩), hover⟩
    | inr hlook =>
        obtain ⟨r, hr, h1, h2⟩ := exists_redactionsFrom (text.length + 1)
          hlook (Nat.zero_le _) (by omega)
        obtain ⟨ho1, ho2⟩ := overlapsRange_iff.mp hover
        exact ⟨r, List.mem_append_right _ hr,
          overlapsRange_iff.mpr ⟨by omega, by omega⟩⟩

/-- What the scan discards. -/
theorem mem_outsidePlaceholders_iff {detected : List DetectedEntity}
    {entity : DetectedEntity} :
    entity ∈ outsidePlaceholders text detected ↔
      entity ∈ detected ∧
        ¬ (reservedRanges text).any (overlapsRange entity) = true := by
  unfold outsidePlaceholders
  by_cases hnone : reservedRanges text = []
  · rw [if_pos hnone, hnone]
    simp
  · rw [if_neg hnone, List.mem_filter, Bool.not_eq_true, Bool.not_eq_true']

-- ==================================================== completeness

/-- The position lies in a well-formed token or redaction. -/
def InPlaceholder (text : Text) (i : Nat) : Prop :=
  ∃ range, IsPlaceholder text range ∧ range.1 ≤ i ∧ i < range.2

/-- The scan of this text with these detections is complete: what it
discards lies in one placeholder, and an actionable detection that reaches
outside them blocks every payload that holds the text. -/
def ScanComplete (unicode : Unicode) (policy : PolicySnapshot)
    (text : Text) (detected : List DetectedEntity) : Prop :=
  (∀ e ∈ detected, e ∉ outsidePlaceholders text detected →
    ∃ range, IsPlaceholder text range ∧ Inside e range) ∧
  ∀ (σ : Type) (detector : Detector unicode σ) (language : Text)
    (request : ProtectedChatRequest) (before after : List ChatMessage)
    (role : MessageRole) (earlier : List Text) (scan : OutboundScan)
    (s mid u t : σ),
    request.messages = before ++ ⟨role, text⟩ :: after →
    runIn (findingsOf detector policy language before) s =
      (.ok earlier, mid) →
    runIn (detector.detect text language) mid = (.ok detected, u) →
    runIn (scanOutbound detector policy language request) s =
      (.ok scan, t) →
    (∃ e ∈ detected, isActionable policy e = true ∧
      ∃ i, e.Covers i ∧ ¬ InPlaceholder text i) →
    scan.verdict = .blocked

/-- The detection crosses the edge of no placeholder, and meets malformed
lookalikes only from inside a placeholder. -/
structure Aligned (text : Text) (entity : DetectedEntity) : Prop where
  whole : ∀ range, IsPlaceholder text range →
    overlapsRange entity range = true → Inside entity range
  wellFormed : ∀ range, Lookalike text range → ¬ IsPlaceholder text range →
    overlapsRange entity range = true →
      ∃ inner, IsPlaceholder text inner ∧ Inside entity inner

/-- A detection is aligned when it is discarded from inside a placeholder
only. -/
theorem aligned_iff {entity : DetectedEntity} :
    Aligned text entity ↔
      ((reservedRanges text).any (overlapsRange entity) = true →
        ∃ range, IsPlaceholder text range ∧ Inside entity range) := by
  constructor
  · intro halign hreserved
    obtain ⟨range, hkind, hover⟩ := reserved_iff.mp hreserved
    by_cases hplace : IsPlaceholder text range
    · exact ⟨range, hplace, halign.whole range hplace hover⟩
    · cases hkind with
      | inl htoken => exact absurd (Or.inl htoken) hplace
      | inr hlook => exact halign.wellFormed range hlook hplace hover
  · intro h
    refine ⟨?_, ?_⟩
    · intro range hplace hover
      have hkind : IsToken text range ∨ Lookalike text range := by
        cases hplace with
        | inl htoken => exact Or.inl htoken
        | inr hredaction => exact Or.inr hredaction.lookalike
      obtain ⟨other, hother, hinside⟩ :=
        h (reserved_iff.mpr ⟨range, hkind, hover⟩)
      -- both ranges hold the detection's characters, so they are one
      obtain ⟨ho1, ho2⟩ := overlapsRange_iff.mp hover
      have hsame := hplace.delimited.unique hother.delimited
        (by have := hinside.2; omega) (by have := hinside.1; omega)
      rw [hsame]
      exact hinside
    · intro range hlook _ hover
      exact h (reserved_iff.mpr ⟨range, Or.inr hlook, hover⟩)

/-- A kept actionable detection blocks the payload. -/
theorem blocked_of_kept {unicode : Unicode} {policy : PolicySnapshot}
    {σ : Type} {detector : Detector unicode σ} {language : Text}
    {request : ProtectedChatRequest} {before after : List ChatMessage}
    {role : MessageRole} {earlier : List Text} {scan : OutboundScan}
    {s mid u t : σ} {detected : List DetectedEntity}
    (hmessages : request.messages = before ++ ⟨role, text⟩ :: after)
    (hbefore : runIn (findingsOf detector policy language before) s =
      (.ok earlier, mid))
    (hdetect : runIn (detector.detect text language) mid =
      (.ok detected, u))
    (hscan : runIn (scanOutbound detector policy language request) s =
      (.ok scan, t))
    {e : DetectedEntity} (hkept : e ∈ outsidePlaceholders text detected)
    (haction : isActionable policy e = true) : scan.verdict = .blocked := by
  obtain ⟨findings, hfindings, hverdict⟩ := scanOutbound_ok hscan
  rw [hmessages] at hfindings
  obtain ⟨earlier', mid', own, u', later, hbefore', hown, hall⟩ :=
    findingsOf_split before hfindings
  rw [hbefore] at hbefore'
  cases hbefore'
  have htypes := findingsIn_ok hdetect hown
  have hmem : e.entityType ∈ own := by
    rw [htypes]
    exact List.mem_map.mpr
      ⟨e, List.mem_filter.mpr ⟨hkept, haction⟩, rfl⟩
  rw [hverdict, hall]
  intro hnil
  have := (List.append_eq_nil_iff.mp (List.append_eq_nil_iff.mp hnil).2).1
  rw [this] at hmem
  exact absurd hmem (List.not_mem_nil)

/-- The scan is complete on a text and its detections exactly when every
detection is aligned with the placeholders. -/
theorem scanComplete_iff (unicode : Unicode) (policy : PolicySnapshot)
    (text : Text) (detected : List DetectedEntity) :
    ScanComplete unicode policy text detected ↔
      ∀ e ∈ detected, Aligned text e := by
  constructor
  · intro h e he
    rw [aligned_iff]
    intro hreserved
    apply h.1 e he
    rw [mem_outsidePlaceholders_iff]
    exact fun hkept => hkept.2 hreserved
  · intro halign
    have hdiscard : ∀ e ∈ detected, e ∉ outsidePlaceholders text detected →
        ∃ range, IsPlaceholder text range ∧ Inside e range := by
      intro e he hout
      apply aligned_iff.mp (halign e he)
      by_contra hreserved
      exact hout (mem_outsidePlaceholders_iff.mpr ⟨he, hreserved⟩)
    refine ⟨hdiscard, ?_⟩
    intro σ detector language request before after role earlier scan s mid
      u t hmessages hbefore hdetect hscan hleak
    obtain ⟨e, he, haction, i, hcov, hout⟩ := hleak
    have hkept : e ∈ outsidePlaceholders text detected := by
      by_contra hdrop
      obtain ⟨range, hplace, hinside⟩ := hdiscard e he hdrop
      have := hcov.1
      have := hcov.2
      have := hinside.1
      have := hinside.2
      exact hout ⟨range, hplace, by omega, by omega⟩
    exact blocked_of_kept hmessages hbefore hdetect hscan hkept haction

-- ==================================================== on a fixed text

/-- A marker that opens a redaction, and a name before the delimiter. -/
def markedName : Text := "⟦SGW:REDACTED: Ann⟧".toList

def annSpan : DetectedEntity where
  entityType := "PERSON".toList
  start := 15
  stop := 18
  score := 17 / 20
  span_forward := by decide
  score_bounded := Bounds.seventeenTwentieths

/-- A policy with no rules: everything is tokenized. -/
def barePolicy : PolicySnapshot where
  policyId := ⟨1⟩
  tenantId := ⟨2⟩
  version := 1
  name := "bare".toList
  sessionTtlSeconds := 3600
  maxEntities := 100
  unknownOutputTokenAction := .preserve
  entities := []
  providers := []

def markedRequest : ProtectedChatRequest where
  requestId := ⟨1⟩
  tenantId := ⟨2⟩
  sessionId := ⟨3⟩
  providerAlias := "mock".toList
  modelAlias := "mock".toList
  messages := [⟨.user, markedName⟩]
  policyVersion := 1
  messages_nonempty := by decide

/-- No token and no well-formed redaction stands in the text. -/
theorem not_isPlaceholder_markedName (range : Nat × Nat) :
    ¬ IsPlaceholder markedName range := by
  intro h
  cases h with
  | inl htoken =>
      obtain ⟨found, hmem, -⟩ := htoken
      rw [show findTokens markedName = [] by decide +kernel] at hmem
      exact absurd hmem (List.not_mem_nil)
  | inr hredaction =>
      have hopens := hredaction.delimited.opens
      have hlt : range.1 < markedName.length :=
        (List.getElem?_eq_some_iff.mp hopens).1
      have hzero : ∀ i, i < markedName.length →
          markedName[i]? = some leftDelimiter → i = 0 := by decide +kernel
      obtain ⟨entityType, placeholder, hformat, hat, -⟩ := hredaction
      obtain ⟨hvalid, rfl⟩ := formatRedaction_ok hformat
      rw [hzero _ hlt hopens] at hat
      obtain ⟨rest, hrest⟩ := hat
      -- the character after the marker is a blank, which no type holds
      cases entityType with
      | nil => exact absurd hvalid (by decide)
      | cons c entityType =>
          have hc := isEntityTypeChar_of_valid hvalid c List.mem_cons_self
          have hget := congrArg (fun l : Text => l[14]?) hrest
          have hblank : c = ' ' := by
            have : some c = some ' ' := hget
            exact Option.some.inj this
          rw [hblank] at hc
          exact absurd hc (by decide)

/-- A detected name inside a malformed lookalike is discarded, and the
payload that carries it is passed as clean. -/
theorem marked_name_passes :
    ¬ ScanComplete Unicode.ascii barePolicy markedName [annSpan] ∧
    isActionable barePolicy annSpan = true ∧
    runIn (scanOutbound (Detector.ofTable Unicode.ascii Unit
        [(markedName, [annSpan])]) barePolicy "en".toList markedRequest)
      () = (.ok ⟨.clean, []⟩, ()) := by
  refine ⟨?_, by decide +kernel, by decide +kernel⟩
  intro h
  obtain ⟨range, hplace, -⟩ :=
    h.1 annSpan (by decide +kernel) (by decide +kernel)
  exact not_isPlaceholder_markedName range hplace

end PrivacyGateway.Outbound
