/-
The masked preview shows no token identifier.

Both substitutions write masks, which neither pattern matches
(`matchToken_mask`, `matchRedaction_mask`), so nothing is left for either
to find (`matchToken_maskTokens`, `matchRedaction_maskTokens`) and masking
twice is masking once. An identifier in the masked text stands in it
outside every token, or is a token's type: in the text that was masked it
stood somewhere as no token's identifier (`not_infix_maskTokens`).
Joining, stripping and cutting only lose characters, and put none next to
each other that an identifier could be made of. A cut goes back to a
delimiter that nothing closes (`truncate_cuts`), so it stands before or
after a mask and never in it.
-/
import PrivacyGateway.Pipeline.Preview

namespace PrivacyGateway.Pipeline

open Find Scan Splice Tokenization

-- ==================================================== masks

/-- What a mask shows in place of what it hides. -/
def IsShown (shown : Text) : Prop :=
  shown = mask ∨ shown = redactedMarker

theorem tokenGroup_chars (found : Text) :
    ∀ char ∈ tokenGroup found, isEntityTypeChar char = true :=
  fun _ h => List.mem_takeWhile_imp h

theorem redactionGroup_chars (found : Text) :
    ∀ char ∈ redactionGroup found, isEntityTypeChar char = true :=
  fun _ h => List.mem_takeWhile_imp h

theorem IsShown.delimiter_not_mem {shown : Text} (h : IsShown shown) :
    leftDelimiter ∉ shown ∧ rightDelimiter ∉ shown := by
  rcases h with rfl | rfl
  · decide
  · decide

theorem leftDelimiter_not_mem_mask {entityType shown : Text}
    (htype : ∀ char ∈ entityType, isEntityTypeChar char = true)
    (hshown : IsShown shown) :
    leftDelimiter ∉ (renderMask entityType shown).tail := by
  obtain ⟨-, ht, -⟩ := not_mem_of_entityTypeChars htype
  have hs := hshown.delimiter_not_mem.1
  have hsep : leftDelimiter ≠ fieldSeparator := by decide
  have hright : leftDelimiter ≠ rightDelimiter := by decide
  unfold renderMask
  simp only [List.tail_cons, List.mem_append, List.mem_cons,
    List.not_mem_nil, or_false, not_or]
  exact ⟨ht, hsep, hs, hright⟩

theorem maskToken_stamped : Stamped leftDelimiter maskToken where
  head _ := rfl
  once found := leftDelimiter_not_mem_mask (tokenGroup_chars found)
    (Or.inl rfl)

theorem maskRedaction_stamped : Stamped leftDelimiter maskRedaction where
  head _ := rfl
  once found := leftDelimiter_not_mem_mask (redactionGroup_chars found)
    (Or.inr rfl)

/-- After the opening that both patterns ask for, a mask has no second
field that a separator ends. -/
theorem mask_ne_opening {entityType shown : Text}
    (htype : ∀ char ∈ entityType, isEntityTypeChar char = true)
    (hshown : IsShown shown) (rest field : Text)
    (hfield : ∀ char ∈ field, isEntityTypeChar char = true)
    (hne : field ≠ []) (more : Text) :
    renderMask entityType shown ++ rest ≠
      tokenOpening ++ (field ++ fieldSeparator :: more) := by
  intro h
  have hmask : renderMask entityType shown ++ rest = leftDelimiter ::
      (entityType ++ fieldSeparator ::
        (shown ++ rightDelimiter :: rest)) := by
    simp [renderMask]
  have hopening : tokenOpening ++ (field ++ fieldSeparator :: more) =
      leftDelimiter :: (tokenNamespace ++ fieldSeparator ::
        (field ++ fieldSeparator :: more)) := by
    simp [tokenOpening]
  rw [hmask, hopening] at h
  injection h with _ h
  -- the first fields agree, so the second ones do
  have hsep : isEntityTypeChar fieldSeparator = false := by decide
  have hnamespace : ∀ char ∈ tokenNamespace,
      isEntityTypeChar char = true :=
    List.all_eq_true.mp (by decide)
  have hfirst := congrArg (List.takeWhile isEntityTypeChar) h
  rw [takeWhile_field htype hsep, takeWhile_field hnamespace hsep] at hfirst
  rw [hfirst] at h
  injection List.append_cancel_left h with _ hsecond
  have htake := congrArg (List.takeWhile isEntityTypeChar) hsecond
  rw [takeWhile_field hfield hsep] at htake
  rcases hshown with rfl | rfl
  · exact hne htake.symm
  · have hmarker : ∀ char ∈ redactedMarker,
        isEntityTypeChar char = true :=
      List.all_eq_true.mp (by decide)
    rw [takeWhile_field hmarker (by decide)] at htake
    rw [← htake] at hsecond
    injection List.append_cancel_left hsecond with hright _
    exact absurd hright (by decide)

theorem matchToken_mask {entityType shown : Text}
    (htype : ∀ char ∈ entityType, isEntityTypeChar char = true)
    (hshown : IsShown shown) (rest : Text) :
    matchToken (renderMask entityType shown ++ rest) = none := by
  cases hmatch : matchToken (renderMask entityType shown ++ rest) with
  | none => rfl
  | some n =>
      obtain ⟨field, tokenId, more, hshape, htext, -⟩ :=
        of_matchToken hmatch
      have hne : field ≠ [] :=
        List.ne_nil_of_length_pos hshape.type_length.1
      rw [renderToken_eq] at htext
      exact absurd htext (mask_ne_opening htype hshown rest field
        hshape.type_chars hne _)

theorem matchRedaction_mask {entityType shown : Text}
    (htype : ∀ char ∈ entityType, isEntityTypeChar char = true)
    (hshown : IsShown shown) (rest : Text) :
    matchRedaction (renderMask entityType shown ++ rest) = none := by
  cases hmatch : matchRedaction (renderMask entityType shown ++ rest) with
  | none => rfl
  | some n =>
      obtain ⟨field, more, -, htext, -⟩ := of_matchRedaction hmatch
      have hsplit : redactionOpening = tokenOpening ++
          (redactedMarker ++ [fieldSeparator]) := by decide
      rw [renderRedaction_eq, hsplit, List.append_assoc,
        List.append_assoc] at htext
      exact absurd htext (mask_ne_opening htype hshown rest
        redactedMarker (List.all_eq_true.mp (by decide)) (by decide) _)

-- ==================================================== masking

theorem matchToken_maskTokens (text : Text) :
    ∀ s, s <:+ maskTokens text → matchToken s = none := by
  refine quiet_of_sub matchRedaction_headed matchToken_headed
    maskRedaction_stamped (fun found rest => matchToken_mask
      (redactionGroup_chars found) (Or.inr rfl) rest) (fun s hs _ => ?_)
  exact quiet_of_sub matchToken_headed matchToken_headed
    maskToken_stamped (fun found rest => matchToken_mask
      (tokenGroup_chars found) (Or.inl rfl) rest) (fun _ _ h => h) s hs

theorem matchRedaction_maskTokens (text : Text) :
    ∀ s, s <:+ maskTokens text → matchRedaction s = none :=
  quiet_of_sub matchRedaction_headed matchRedaction_headed
    maskRedaction_stamped (fun found rest => matchRedaction_mask
      (redactionGroup_chars found) (Or.inr rfl) rest) (fun _ _ h => h)

theorem maskTokens_idempotent (text : Text) :
    maskTokens (maskTokens text) = maskTokens text := by
  show sub matchRedaction maskRedaction (sub matchToken maskToken
    (maskTokens text)) = maskTokens text
  rw [sub_eq_self matchToken_bounded (matchToken_maskTokens text),
    sub_eq_self matchRedaction_headed.bounded
      (matchRedaction_maskTokens text)]

/-- A token that stands in a text is matched at its head. -/
theorem matchToken_of_infix {token : Token} {text : Text}
    (h : token.text <:+: text) :
    ∃ s, s <:+ text ∧ matchToken s ≠ none := by
  obtain ⟨before, after, rfl⟩ := h
  refine ⟨token.text ++ after, ⟨before, by rw [List.append_assoc]⟩, ?_⟩
  rw [Token.text, matchToken_render token.looksLikeToken]
  exact Option.some_ne_none _

-- ==================================================== identifiers

/-- The characters of a token before its identifier. -/
def opensField (entityType : Text) : Text :=
  tokenOpening ++ (entityType ++ [fieldSeparator])

/-- Between these two texts an identifier is the identifier field of a
token. -/
def FieldOf (id before after : Text) : Prop :=
  ∃ entityType, LooksLikeToken entityType id ∧
    opensField entityType <:+ before ∧ [rightDelimiter] <+: after

/-- Wherever it stands, the identifier is the identifier field of a
token. -/
def OnlyField (id text : Text) : Prop :=
  ∀ before after, text = before ++ (id ++ after) → FieldOf id before after

theorem FieldOf.widen {id before after : Text} (h : FieldOf id before after)
    (pre post : Text) : FieldOf id (pre ++ before) (after ++ post) := by
  obtain ⟨entityType, hshape, hopens, hcloses⟩ := h
  exact ⟨entityType, hshape, hopens.trans (List.suffix_append _ _),
    hcloses.trans (List.prefix_append _ _)⟩

section Identifier

variable {id : Text} (hid : isValidTokenId id = true)

include hid

theorem id_ne_nil : id ≠ [] := by
  intro h
  rw [h] at hid
  cases hid

theorem not_mem_id {char : Char} (h : isCrockfordChar char = false) :
    char ∉ id := by
  intro hmem
  rw [isCrockfordChar_of_valid hid char hmem] at h
  cases h

/-- An identifier in a mask is in its type. -/
theorem infix_of_mask {entityType shown : Text} (hshown : IsShown shown)
    (h : id <:+: renderMask entityType shown) : id <:+: entityType := by
  have hnil : ¬ id <:+: [] := fun hin =>
    id_ne_nil hid (List.infix_nil.mp hin)
  unfold renderMask at h
  rcases infix_of_separated (a := []) (not_mem_id hid (by decide)) h with
    hin | h
  · exact absurd hin hnil
  rcases infix_of_separated (not_mem_id hid (by decide)) h with hin | h
  · exact hin
  rcases infix_of_separated (not_mem_id hid (by decide)) h with hin | h
  · -- what a mask shows is too short for an identifier
    have hlength := hin.length_le
    rw [length_of_validTokenId hid] at hlength
    rcases hshown with rfl | rfl
    · exact absurd hlength (by decide)
    · exact absurd hlength (by decide)
  · exact absurd h hnil

theorem mask_last (entityType shown : Text) :
    ∃ y b, renderMask entityType shown = y ++ [b] ∧ b ∉ id := by
  refine ⟨leftDelimiter :: (entityType ++ fieldSeparator :: shown),
    rightDelimiter, ?_, not_mem_id hid (by decide)⟩
  simp [renderMask]

omit hid in
/-- A text that stands as a token's type stands as no identifier field. -/
theorem not_field_of_type {entityType tokenId before after : Text}
    (hchars : ∀ char ∈ entityType, isEntityTypeChar char = true)
    (h : id <:+: entityType) :
    ¬ OnlyField id (before ++ (renderToken entityType tokenId ++ after)) := by
  intro honly
  obtain ⟨pre, post, hsplit⟩ := h
  obtain ⟨_, -, -, hcloses⟩ := honly
    (before ++ (tokenOpening ++ pre))
    (post ++ fieldSeparator :: (tokenId ++ rightDelimiter :: after))
    (by rw [renderToken_eq, ← hsplit]; simp)
  cases post with
  | nil => exact absurd ((List.cons_prefix_cons.mp hcloses).1) (by decide)
  | cons char post =>
      have hchar : isEntityTypeChar char = true :=
        hchars char (by rw [← hsplit]; simp)
      have heq := (List.cons_prefix_cons.mp hcloses).1
      rw [← heq] at hchar
      exact absurd hchar (by decide)

/-- What stands outside every match is no identifier field. -/
theorem not_field_of_outside {before after : Text}
    (h : Outside matchToken (before ++ (id ++ after)) before.length
      (before.length + id.length)) : ¬ FieldOf id before after := by
  rintro ⟨entityType, hshape, ⟨pre, rfl⟩, ⟨post, rfl⟩⟩
  have hsplit : pre ++ opensField entityType ++
      (id ++ ([rightDelimiter] ++ post)) =
        pre ++ (renderToken entityType id ++ post) := by
    rw [renderToken_eq]
    simp [opensField]
  have hmatch := matchToken_render hshape post
  have hlength := length_of_validTokenId hid
  rw [hsplit] at h
  rcases h pre.length _ (by rw [List.drop_left]; exact hmatch) with h | h
  · rw [length_renderToken, List.length_append] at h
    simp only [opensField, tokenOpening, tokenNamespace, List.length_append,
      List.length_cons, List.length_nil] at h
    omega
  · rw [List.length_append] at h
    omega

theorem not_infix_maskTokens {text : Text} (honly : OnlyField id text) :
    ¬ id <:+: maskTokens text := by
  intro h
  have hne := id_ne_nil hid
  have hmark : leftDelimiter ∉ id := not_mem_id hid (by decide)
  -- before the redactions were masked it was there too
  have htokens : id <:+: sub matchToken maskToken text := by
    rcases stands_of_sub matchRedaction_headed maskRedaction_stamped hne
      hmark (fun found => mask_last hid _ _) h with
        ⟨found, rest, hmatch, hsuffix, hin⟩ | ⟨before, after, hsplit, -⟩
    · refine ((infix_of_mask hid (Or.inr rfl) hin).trans ?_).trans
        ((List.prefix_append found rest).isInfix.trans hsuffix.isInfix)
      exact (List.takeWhile_prefix _).isInfix.trans
        (List.drop_suffix _ _).isInfix
    · rw [hsplit]
      exact ⟨before, after, by rw [List.append_assoc]⟩
  rcases stands_of_sub matchToken_headed maskToken_stamped hne hmark
    (fun found => mask_last hid _ _) htokens with
      ⟨found, rest, hmatch, ⟨before, hsuffix⟩, hin⟩ |
        ⟨before, after, hsplit, hout⟩
  · obtain ⟨entityType, tokenId, more, hshape, htext, hlength⟩ :=
      of_matchToken hmatch
    obtain ⟨rfl, rfl⟩ := List.append_inj htext hlength
    have htype := infix_of_mask hid (Or.inl rfl) hin
    rw [tokenGroup_render hshape.type_chars] at htype
    rw [← hsuffix] at honly
    exact not_field_of_type hshape.type_chars htype honly
  · have hfield := honly before after hsplit
    rw [hsplit] at hout
    exact not_field_of_outside hid hout hfield

-- ==================================================== joining

theorem onlyField_append {a b : Text} (sep : Char)
    (hsep : isCrockfordChar sep = false) (ha : OnlyField id a)
    (hb : OnlyField id b) : OnlyField id (a ++ sep :: b) := by
  intro before after hsplit
  rcases split_of_separated (id_ne_nil hid) (not_mem_id hid hsep) hsplit with
    ⟨rest, hleft, rfl⟩ | ⟨rest, rfl, hright⟩
  · have hfield := (ha before rest hleft).widen [] (sep :: b)
    rw [List.nil_append] at hfield
    exact hfield
  · have hfield := (hb rest after hright).widen (a ++ [sep]) []
    rw [List.append_nil, List.append_assoc, List.singleton_append] at hfield
    exact hfield

theorem onlyField_nil : OnlyField id [] := by
  intro before after hsplit
  have hid' := List.append_eq_nil_iff.mp hsplit.symm
  exact absurd (List.append_eq_nil_iff.mp hid'.2).1 (id_ne_nil hid)

theorem onlyField_join (messages : List Text)
    (h : ∀ message ∈ messages, OnlyField id message) :
    OnlyField id (['\n', '\n'].intercalate messages) := by
  induction messages with
  | nil => exact onlyField_nil hid
  | cons message messages ih =>
      have hfirst := h message List.mem_cons_self
      have hrest := ih (fun m hm => h m (List.mem_cons_of_mem _ hm))
      cases messages with
      | nil =>
          rw [List.intercalate_singleton]
          exact hfirst
      | cons next messages =>
          have hstep := onlyField_append hid '\n' (by decide)
            (onlyField_nil hid) hrest
          have hjoined := onlyField_append hid '\n' (by decide)
            hfirst hstep
          rw [List.intercalate_cons_cons, List.append_assoc]
          exact hjoined

end Identifier

-- ==================================================== whitespace

theorem rstrip_split (text : Text) :
    ∃ blank, text = rstrip text ++ blank ∧
      ∀ char ∈ blank, isWhitespace char = true := by
  refine ⟨text.rtakeWhile isWhitespace,
    List.rdropWhile_append_rtakeWhile.symm, fun char hchar => ?_⟩
  exact List.mem_rtakeWhile_imp hchar

theorem strip_split (text : Text) :
    ∃ before after, text = before ++ (strip text ++ after) ∧
      (∀ char ∈ before, isWhitespace char = true) ∧
        ∀ char ∈ after, isWhitespace char = true := by
  obtain ⟨after, hafter, hblank⟩ :=
    rstrip_split (text.dropWhile isWhitespace)
  refine ⟨text.takeWhile isWhitespace, after, ?_,
    fun char hchar => List.mem_takeWhile_imp hchar, hblank⟩
  show text = _ ++ (rstrip (text.dropWhile isWhitespace) ++ after)
  rw [← hafter, List.takeWhile_append_dropWhile]

/-- Stripping takes no part of a token. -/
theorem onlyField_strip {id text : Text} (h : OnlyField id text) :
    OnlyField id (strip text) := by
  intro before after hsplit
  obtain ⟨left, right, htext, hleft, hright⟩ := strip_split text
  rw [hsplit] at htext
  obtain ⟨entityType, hshape, hopens, hcloses⟩ :=
    h (left ++ before) (after ++ right) (by rw [htext]; simp)
  refine ⟨entityType, hshape, ?_, ?_⟩
  · rcases suffix_append_cases hopens with hopens | ⟨t, hne, ht, heq⟩
    · exact hopens
    · -- the opening would begin in whitespace
      cases t with
      | nil => exact absurd rfl hne
      | cons char t =>
          injection heq with hchar _
          have hmem := ht.mem List.mem_cons_self
          rw [← hchar] at hmem
          exact absurd (hleft _ hmem) (by decide)
  · cases after with
    | nil =>
        have hmem : rightDelimiter ∈ right :=
          hcloses.mem List.mem_cons_self
        exact absurd (hright _ hmem) (by decide)
    | cons char after =>
        rw [List.cons_append] at hcloses
        rw [(List.cons_prefix_cons.mp hcloses).1]
        exact List.prefix_append [char] after

-- ==================================================== cutting

theorem at_singleton_iff {char : Char} {text : Text} {i : Nat} :
    At [char] text i ↔ text[i]? = some char := by
  unfold At
  rw [← List.head?_drop]
  cases text.drop i with
  | nil => simp
  | cons first rest =>
      rw [List.cons_prefix_cons]
      simp [eq_comm]

theorem within_singleton_iff {char : Char} {text : Text} {i : Nat} :
    Within [char] text 0 text.length i ↔ text[i]? = some char := by
  unfold Within
  rw [at_singleton_iff]
  constructor
  · exact fun h => h.2.2
  · intro h
    have hlt := (List.getElem?_eq_some_iff.mp h).1
    exact ⟨Nat.zero_le _, hlt, h⟩

/-- `rfind` of one character: it is not before any other. -/
theorem le_lastIndex (char : Char) (text : Text) {i : Nat}
    (h : text[i]? = some char) : (i : Int) ≤ lastIndex char text := by
  have hwithin := within_singleton_iff.mpr h
  unfold lastIndex
  cases hfind : rfind [char] text 0 text.length with
  | none =>
      exact absurd hwithin
        ((rfind_eq_none_iff (List.cons_ne_nil _ _)).mp hfind i)
  | some j =>
      exact Int.ofNat_le.mpr (le_of_rfind (List.cons_ne_nil _ _) hfind hwithin)

theorem lastIndex_cases (char : Char) (text : Text) :
    lastIndex char text = -1 ∨
      ∃ i : Nat, lastIndex char text = i ∧ text[i]? = some char := by
  unfold lastIndex
  cases hfind : rfind [char] text 0 text.length with
  | none => exact Or.inl rfl
  | some j =>
      exact Or.inr ⟨j, rfl,
        within_singleton_iff.mp (within_of_rfind hfind)⟩

/-- A range between two delimiters, holding neither. -/
structure Bracketed (text : Text) (start stop : Nat) : Prop where
  forward : start < stop
  opens : text[start]? = some leftDelimiter
  closes : text[stop]? = some rightDelimiter
  inside : ∀ i, start < i → i < stop →
    text[i]? ≠ some leftDelimiter ∧ text[i]? ≠ some rightDelimiter

/-- What is kept of a text that is too long: up to a place in no bracket,
and no whitespace at its end. -/
theorem truncate_cuts {limit : Nat} {text : Text}
    (h : limit < text.length) :
    ∃ k, truncate limit text = rstrip (text.take k) ++ truncationSuffix ∧
      ∀ start stop, Bracketed text start stop → stop < k ∨ k ≤ start := by
  have hle : ¬ text.length ≤ limit := Nat.not_le.mpr h
  have htake : ∀ i, i < limit → (text.take limit)[i]? = text[i]? :=
    fun i hi => List.getElem?_take_of_lt hi
  unfold truncate
  rw [if_neg hle]
  simp only
  by_cases hopened : lastIndex leftDelimiter (text.take limit) >
      lastIndex rightDelimiter (text.take limit)
  · rw [if_pos hopened]
    rcases lastIndex_cases leftDelimiter (text.take limit) with
      hnone | ⟨i, hi, hleft⟩
    · -- an index is never below -1
      rcases lastIndex_cases rightDelimiter (text.take limit) with
        hclosed | ⟨j, hj, -⟩
      · omega
      · omega
    · have hlt := (List.getElem?_eq_some_iff.mp hleft).1
      rw [List.length_take] at hlt
      rw [htake i (by omega)] at hleft
      refine ⟨i, ?_, fun start stop hb => ?_⟩
      · rw [hi, Int.toNat_natCast, List.take_take,
          Nat.min_eq_left (by omega)]
      · by_contra hcut
        rw [not_or, Nat.not_lt, Nat.not_le] at hcut
        by_cases heq : i = stop
        · have hcloses := hb.closes
          rw [← heq, hleft] at hcloses
          exact absurd hcloses (by decide)
        · exact (hb.inside i hcut.2 (by omega)).1 hleft
  · rw [if_neg hopened]
    refine ⟨limit, rfl, fun start stop hb => ?_⟩
    by_contra hcut
    rw [not_or, Nat.not_lt, Nat.not_le] at hcut
    have hopens : (text.take limit)[start]? = some leftDelimiter := by
      rw [htake start hcut.2]
      exact hb.opens
    have hstart := le_lastIndex leftDelimiter (text.take limit) hopens
    rcases lastIndex_cases rightDelimiter (text.take limit) with
      hnone | ⟨j, hj, hright⟩
    · omega
    · have hlt := (List.getElem?_eq_some_iff.mp hright).1
      rw [List.length_take] at hlt
      rw [htake j (by omega)] at hright
      by_cases heq : j = start
      · have hopens := hb.opens
        rw [← heq, hright] at hopens
        exact absurd hopens (by decide)
      · exact (hb.inside j (by omega) (by omega)).2 hright

-- ==================================================== the preview

/-- The messages joined, stripped and masked: what the cut is made in. -/
def maskedMessages (messages : List Text) : Text :=
  maskTokens (strip (['\n', '\n'].intercalate messages))

/-- Every mask of the text lies in its first `n` characters or after
them. -/
def MasksWhole (text : Text) (n : Nat) : Prop :=
  ∀ before entityType shown after,
    (∀ char ∈ entityType, isEntityTypeChar char = true) → IsShown shown →
    text = before ++ (renderMask entityType shown ++ after) →
      before.length + (renderMask entityType shown).length ≤ n ∨
        n ≤ before.length

theorem bracketed_mask (before after : Text) {entityType shown : Text}
    (htype : ∀ char ∈ entityType, isEntityTypeChar char = true)
    (hshown : IsShown shown) :
    Bracketed (before ++ (renderMask entityType shown ++ after))
      before.length (before.length + entityType.length + shown.length + 2) := by
  have hbody : ∀ char ∈ entityType ++ fieldSeparator :: shown,
      char ≠ leftDelimiter ∧ char ≠ rightDelimiter := by
    obtain ⟨-, hleft, hright⟩ := not_mem_of_entityTypeChars htype
    obtain ⟨hleft', hright'⟩ := hshown.delimiter_not_mem
    intro char hchar
    rcases List.mem_append.mp hchar with hchar | hchar
    · exact ⟨fun h => hleft (h ▸ hchar), fun h => hright (h ▸ hchar)⟩
    rcases List.mem_cons.mp hchar with rfl | hchar
    · decide
    · exact ⟨fun h => hleft' (h ▸ hchar), fun h => hright' (h ▸ hchar)⟩
  have hsplit : before ++ (renderMask entityType shown ++ after) =
      before ++ leftDelimiter :: ((entityType ++ fieldSeparator :: shown) ++
        rightDelimiter :: after) := by
    simp [renderMask]
  have hlength : (entityType ++ fieldSeparator :: shown).length =
      entityType.length + shown.length + 1 := by
    simp [Nat.add_assoc]
  rw [hsplit]
  generalize entityType ++ fieldSeparator :: shown = body at *
  refine ⟨by omega, ?_, ?_, fun i hstart hstop => ?_⟩
  · rw [List.getElem?_append_right (Nat.le_refl _), Nat.sub_self]
    rfl
  · rw [List.getElem?_append_right (by omega),
      show before.length + entityType.length + shown.length + 2 -
        before.length = body.length + 1 by omega,
      List.getElem?_cons_succ, List.getElem?_append_right (Nat.le_refl _),
      Nat.sub_self]
    rfl
  · obtain ⟨k, rfl⟩ : ∃ k, i = before.length + (k + 1) :=
      ⟨i - before.length - 1, by omega⟩
    rw [List.getElem?_append_right (by omega), Nat.add_sub_cancel_left,
      List.getElem?_cons_succ, List.getElem?_append_left (by omega)]
    exact ⟨fun h => (hbody _ (List.mem_of_getElem? h)).1 rfl,
      fun h => (hbody _ (List.mem_of_getElem? h)).2 rfl⟩

/-- A cut in no bracket, then whitespace taken off the end. -/
theorem masksWhole_of_cut {text : Text} {k : Nat}
    (h : ∀ start stop, Bracketed text start stop → stop < k ∨ k ≤ start) :
    MasksWhole text (rstrip (text.take k)).length := by
  intro before entityType shown after htype hshown htext
  have hmask : (renderMask entityType shown).length =
      entityType.length + shown.length + 3 := by
    simp [renderMask]
    omega
  obtain ⟨blank, hblank, hspace⟩ := rstrip_split (text.take k)
  have hlength := congrArg List.length hblank
  rw [List.length_take, List.length_append] at hlength
  have hbracket := bracketed_mask before after htype hshown
  rw [← htext] at hbracket
  rcases h _ _ hbracket with hstop | hstart
  · refine Or.inl ?_
    rw [hmask]
    by_contra hcut
    -- the closing delimiter would be among the whitespace
    have hcloses := hbracket.closes
    rw [← List.getElem?_take_of_lt hstop, hblank,
      List.getElem?_append_right (by omega)] at hcloses
    exact absurd (hspace _ (List.mem_of_getElem? hcloses)) (by decide)
  · exact Or.inr (by omega)

/-- What a preview shows of its messages. -/
structure Discreet (messages : List Text) (preview : Text) : Prop where
  no_token : ∀ candidate, candidate <:+: preview →
    parseToken candidate = none
  no_identifier : ∀ id, isValidTokenId id = true →
    (∀ message ∈ messages, OnlyField id message) → ¬ id <:+: preview
  masks_whole : ∃ kept, kept <+: maskedMessages messages ∧
    (preview = kept ∨ preview = kept ++ truncationSuffix) ∧
      MasksWhole (maskedMessages messages) kept.length

theorem previewOf_eq (messages : List Text) :
    ∃ kept, kept <+: maskedMessages messages ∧
      (previewOf messages = kept ∨
        previewOf messages = kept ++ truncationSuffix) ∧
      MasksWhole (maskedMessages messages) kept.length := by
  show ∃ kept, _ ∧ (truncate maxPreviewChars (maskedMessages messages) = _ ∨
    truncate maxPreviewChars (maskedMessages messages) = _) ∧ _
  generalize maskedMessages messages = text
  by_cases hlong : maxPreviewChars < text.length
  · obtain ⟨k, heq, hcut⟩ := truncate_cuts hlong
    exact ⟨rstrip (text.take k),
      (List.rdropWhile_prefix _ _).trans (List.take_prefix _ _),
      Or.inr heq, masksWhole_of_cut hcut⟩
  · refine ⟨text, List.prefix_refl _, Or.inl ?_, ?_⟩
    · unfold truncate
      rw [if_pos (Nat.le_of_not_lt hlong)]
    · intro before entityType shown after _ _ htext
      have hlength := congrArg List.length htext
      rw [List.length_append, List.length_append] at hlength
      exact Or.inl (by omega)

/-- Something without a blank, found in the preview, is in the masked
text or in what marks the cut. -/
theorem infix_of_preview {w : Text} {messages : List Text}
    (hblank : ' ' ∉ w) (hlong : 1 < w.length)
    (h : w <:+: previewOf messages) : w <:+: maskedMessages messages := by
  obtain ⟨kept, hkept, heq, -⟩ := previewOf_eq messages
  refine List.IsInfix.trans ?_ hkept.isInfix
  rcases heq with heq | heq
  · rw [heq] at h
    exact h
  · rw [heq] at h
    rcases infix_of_separated (b := ['…']) hblank h with h | h
    · exact h
    · have hlength := h.length_le
      exact absurd hlength (Nat.not_le.mpr hlong)

/-- The preview holds no token and no identifier that stands in the
messages as a token's identifier and nothing else; every mask is shown
whole or not at all; and masking again changes nothing. -/
theorem preview_discreet :
    (∀ messages, Discreet messages (previewOf messages)) ∧
      ∀ text, maskTokens (maskTokens text) = maskTokens text := by
  refine ⟨fun messages => ⟨fun candidate hin => ?_,
    fun id hid honly hin => ?_, previewOf_eq messages⟩,
    maskTokens_idempotent⟩
  · cases hparse : parseToken candidate with
    | none => rfl
    | some token =>
        rw [parseToken_eq_some_iff.mp hparse] at hin
        have hlength := length_renderToken token.entityType token.tokenId
        have hblank : ' ' ∉ token.text := by
          intro hmem
          simp only [Token.text, renderToken, List.mem_cons,
            List.mem_append] at hmem
          rcases hmem with hmem | hmem | hmem | hmem | hmem | hmem | hmem
          · exact absurd hmem (by decide)
          · exact absurd hmem (by decide)
          · exact absurd hmem (by decide)
          · exact absurd (isEntityTypeChar_of_valid
              token.entityType_valid _ hmem) (by decide)
          · exact absurd hmem (by decide)
          · exact absurd (isCrockfordChar_of_valid
              token.tokenId_valid _ hmem) (by decide)
          · exact absurd hmem (by decide)
        obtain ⟨s, hs, hmatch⟩ := matchToken_of_infix
          (infix_of_preview hblank (by rw [Token.text]; omega) hin)
        exact absurd (matchToken_maskTokens _ s hs) hmatch
  · have hlength := length_of_validTokenId hid
    refine not_infix_maskTokens hid
      (onlyField_strip (onlyField_join hid messages honly))
      (infix_of_preview (not_mem_id hid (by decide)) (by omega) hin)

end PrivacyGateway.Pipeline
