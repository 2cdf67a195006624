/-
The gateway token grammar: builder, strict parser, and scanner.

A token is `⟦SGW:TYPE:ID⟧`. `parseToken` accepts a whole string and
nothing less; `findTokens` finds candidates with the token pattern and
keeps those the parser accepts. The pattern is wider than the parser in
one respect: its type field may be the reserved marker `REDACTED`.

# What the rest of the development uses

- `parseToken_eq_some_iff`: the parser accepts a string exactly when it
  is the rendering of the token it returns;
- `matchToken_eq_some_iff`: what the pattern matches at a position;
- `findTokens_eq_scan`: the scanner's result is the walk of a pattern
  that matches tokens only (`matchStrict`), because no match begins
  inside another.
-/
import Mathlib.Data.List.TakeWhile
import PrivacyGateway.Domain
import PrivacyGateway.Lib.Scan

namespace PrivacyGateway.Tokenization

open Scan Splice

def leftDelimiter : Char := '⟦'
def rightDelimiter : Char := '⟧'

/-- The namespace field. -/
def tokenNamespace : Text := ['S', 'G', 'W']

def fieldSeparator : Char := ':'

/-- The reserved second field of a redaction placeholder. -/
def redactedMarker : Text := ['R', 'E', 'D', 'A', 'C', 'T', 'E', 'D']

def tokenIdLength : Nat := 26
def maxEntityTypeLength : Nat := 64

def crockfordAlphabet : Text :=
  "0123456789ABCDEFGHJKMNPQRSTVWXYZ".toList

def isCrockfordChar (char : Char) : Bool :=
  crockfordAlphabet.contains char

def isEntityTypeChar (char : Char) : Bool :=
  char.isUpper || char.isDigit || char == '_'

def isValidEntityType (entityType : Text) : Bool :=
  decide (1 ≤ entityType.length) &&
    decide (entityType.length ≤ maxEntityTypeLength) &&
    decide (entityType ≠ redactedMarker) &&
    entityType.all isEntityTypeChar

def isValidTokenId (tokenId : Text) : Bool :=
  decide (tokenId.length = tokenIdLength) && tokenId.all isCrockfordChar

/-- The characters of a token with these fields, valid or not. -/
def renderToken (entityType tokenId : Text) : Text :=
  leftDelimiter :: (tokenNamespace ++ fieldSeparator ::
    (entityType ++ fieldSeparator :: (tokenId ++ [rightDelimiter])))

/-- A parsed gateway token: both fields are valid. -/
structure Token where
  entityType : Text
  tokenId : Text
  entityType_valid : isValidEntityType entityType = true
  tokenId_valid : isValidTokenId tokenId = true
deriving DecidableEq

/-- The canonical rendering of a token. -/
def Token.text (token : Token) : Text :=
  renderToken token.entityType token.tokenId

/-- A token located inside a larger string. -/
structure TokenMatch where
  token : Token
  start : Nat
  stop : Nat
deriving DecidableEq

def TokenMatch.text (found : TokenMatch) : Text :=
  found.token.text

def formatToken (entityType tokenId : Text) : Except Exn Text :=
  if !isValidEntityType entityType then
    .error (.value "invalid token entity type")
  else if !isValidTokenId tokenId then
    .error (.value
      "invalid token id: expected 26 Crockford base32 characters")
  else .ok (renderToken entityType tokenId)

/-- The characters of a redaction placeholder for a type, valid or not. -/
def renderRedaction (entityType : Text) : Text :=
  leftDelimiter :: (tokenNamespace ++ fieldSeparator ::
    (redactedMarker ++ fieldSeparator ::
      (entityType ++ [rightDelimiter])))

def formatRedaction (entityType : Text) : Except Exn Text :=
  if !isValidEntityType entityType then
    .error (.value "invalid token entity type")
  else .ok (renderRedaction entityType)

/-- The shortest string that can be a token. -/
def minimumTokenLength : Nat :=
  1 + tokenNamespace.length + 2 + 1 + tokenIdLength + 1

/-- Parse a string as a complete token. -/
def parseToken (candidate : Text) : Option Token :=
  if candidate.length < minimumTokenLength then none
  else if candidate.head? ≠ some leftDelimiter ∨
      candidate.getLast? ≠ some rightDelimiter then none
  else
    match (candidate.drop 1).dropLast.splitOn fieldSeparator with
    | [ns, entityType, tokenId] =>
        if ns ≠ tokenNamespace then none
        else if htype : isValidEntityType entityType = true then
          if hid : isValidTokenId tokenId = true then
            some ⟨entityType, tokenId, htype, hid⟩
          else none
        else none
    | _ => none

/-- The opening of the token pattern. -/
def tokenOpening : Text :=
  leftDelimiter :: (tokenNamespace ++ [fieldSeparator])

/-- `TOKEN_PATTERN` at one position: how many characters it matches. The
classes of its two fields exclude the separator, so reading each field
as far as it goes is the only way to match. -/
def matchToken (text : Text) : Option Nat :=
  if tokenOpening.isPrefixOf text then
    let rest := text.drop tokenOpening.length
    let entityType := rest.takeWhile isEntityTypeChar
    let tail := rest.drop entityType.length
    let tokenId := (tail.drop 1).take tokenIdLength
    if 1 ≤ entityType.length ∧ entityType.length ≤ maxEntityTypeLength ∧
        tail.head? = some fieldSeparator ∧
        isValidTokenId tokenId = true ∧
        (tail.drop (1 + tokenIdLength)).head? = some rightDelimiter then
      some (renderToken entityType tokenId).length
    else none
  else none

/-- Every token embedded in a text, in order of appearance. -/
def findTokens (text : Text) : List TokenMatch :=
  (scan matchToken text).filterMap (fun hit =>
    (parseToken hit.2).map (fun token => ⟨token, hit.1, hit.stop⟩))

-- ==================================================== characters

theorem isEntityTypeChar_of_valid {entityType : Text}
    (h : isValidEntityType entityType = true) :
    ∀ char ∈ entityType, isEntityTypeChar char = true := by
  simp only [isValidEntityType, Bool.and_eq_true] at h
  exact List.all_eq_true.mp h.2

theorem isCrockfordChar_of_valid {tokenId : Text}
    (h : isValidTokenId tokenId = true) :
    ∀ char ∈ tokenId, isCrockfordChar char = true := by
  simp only [isValidTokenId, Bool.and_eq_true] at h
  exact List.all_eq_true.mp h.2

theorem length_of_validTokenId {tokenId : Text}
    (h : isValidTokenId tokenId = true) : tokenId.length = 26 := by
  simp only [isValidTokenId, Bool.and_eq_true, decide_eq_true_eq] at h
  exact h.1

theorem length_of_validEntityType {entityType : Text}
    (h : isValidEntityType entityType = true) :
    1 ≤ entityType.length ∧ entityType.length ≤ 64 := by
  simp only [isValidEntityType, Bool.and_eq_true, decide_eq_true_eq] at h
  exact ⟨h.1.1.1, h.1.1.2⟩

/-- The separator and the delimiters stand in neither field. -/
theorem not_mem_of_entityTypeChars {entityType : Text}
    (h : ∀ char ∈ entityType, isEntityTypeChar char = true) :
    fieldSeparator ∉ entityType ∧ leftDelimiter ∉ entityType ∧
      rightDelimiter ∉ entityType :=
  ⟨fun hm => absurd (h _ hm) (by decide),
    fun hm => absurd (h _ hm) (by decide),
    fun hm => absurd (h _ hm) (by decide)⟩

theorem not_mem_of_crockfordChars {tokenId : Text}
    (h : ∀ char ∈ tokenId, isCrockfordChar char = true) :
    fieldSeparator ∉ tokenId ∧ leftDelimiter ∉ tokenId ∧
      rightDelimiter ∉ tokenId :=
  ⟨fun hm => absurd (h _ hm) (by decide),
    fun hm => absurd (h _ hm) (by decide),
    fun hm => absurd (h _ hm) (by decide)⟩

theorem length_renderToken (entityType tokenId : Text) :
    (renderToken entityType tokenId).length =
      entityType.length + tokenId.length + 7 := by
  simp [renderToken, tokenNamespace]
  omega

/-- A rendering begins with the only left delimiter in it. -/
theorem leftDelimiter_not_mem_tail {entityType tokenId : Text}
    (htype : ∀ char ∈ entityType, isEntityTypeChar char = true)
    (hid : ∀ char ∈ tokenId, isCrockfordChar char = true) :
    leftDelimiter ∉ (renderToken entityType tokenId).tail := by
  obtain ⟨-, ht, -⟩ := not_mem_of_entityTypeChars htype
  obtain ⟨-, hi, -⟩ := not_mem_of_crockfordChars hid
  have hns : leftDelimiter ∉ tokenNamespace := by decide
  have hsep : leftDelimiter ≠ fieldSeparator := by decide
  have hright : leftDelimiter ≠ rightDelimiter := by decide
  unfold renderToken
  simp only [List.tail_cons, List.mem_append, List.mem_cons,
    List.not_mem_nil, or_false, not_or]
  exact ⟨hns, hsep, ht, hsep, hi, hright⟩

/-- A redaction begins with the only left delimiter in it. -/
theorem leftDelimiter_not_mem_redaction {entityType : Text}
    (htype : ∀ char ∈ entityType, isEntityTypeChar char = true) :
    leftDelimiter ∉ (renderRedaction entityType).tail := by
  obtain ⟨-, ht, -⟩ := not_mem_of_entityTypeChars htype
  have hns : leftDelimiter ∉ tokenNamespace := by decide
  have hmarker : leftDelimiter ∉ redactedMarker := by decide
  have hsep : leftDelimiter ≠ fieldSeparator := by decide
  have hright : leftDelimiter ≠ rightDelimiter := by decide
  unfold renderRedaction
  simp only [List.tail_cons, List.mem_append, List.mem_cons,
    List.not_mem_nil, or_false, not_or]
  exact ⟨hns, hsep, hmarker, hsep, ht, hright⟩

-- ==================================================== the parser

/-- What lies between the delimiters, split at the separators. -/
private theorem splitOn_renderToken {entityType tokenId : Text}
    (htype : ∀ char ∈ entityType, isEntityTypeChar char = true)
    (hid : ∀ char ∈ tokenId, isCrockfordChar char = true) :
    ((renderToken entityType tokenId).drop 1).dropLast.splitOn
      fieldSeparator = [tokenNamespace, entityType, tokenId] := by
  have hbody : ((renderToken entityType tokenId).drop 1).dropLast =
      [fieldSeparator].intercalate
        [tokenNamespace, entityType, tokenId] := by
    have hlast : (renderToken entityType tokenId).drop 1 =
        (tokenNamespace ++ fieldSeparator ::
          (entityType ++ fieldSeparator :: tokenId)) ++
            [rightDelimiter] := by
      simp [renderToken]
    rw [hlast, List.dropLast_concat]
    simp [List.intercalate, List.intersperse]
  rw [hbody]
  refine List.splitOn_intercalate _ (fun field hfield => ?_) (by simp)
  simp only [List.mem_cons, List.not_mem_nil, or_false] at hfield
  rcases hfield with rfl | rfl | rfl
  · decide
  · exact (not_mem_of_entityTypeChars htype).1
  · exact (not_mem_of_crockfordChars hid).1

/-- The parser reads back what a token renders to. -/
theorem parseToken_text (token : Token) :
    parseToken token.text = some token := by
  have htype := isEntityTypeChar_of_valid token.entityType_valid
  have hid := isCrockfordChar_of_valid token.tokenId_valid
  have hlen : ¬ token.text.length < minimumTokenLength := by
    have := length_of_validEntityType token.entityType_valid
    have := length_of_validTokenId token.tokenId_valid
    rw [Token.text, length_renderToken]
    have hmin : minimumTokenLength = 34 := rfl
    omega
  have hends : ¬ (token.text.head? ≠ some leftDelimiter ∨
      token.text.getLast? ≠ some rightDelimiter) := by
    have hlast : token.text = (leftDelimiter :: (tokenNamespace ++
        fieldSeparator :: (token.entityType ++
          fieldSeparator :: token.tokenId))) ++ [rightDelimiter] := by
      simp [Token.text, renderToken]
    rw [not_or, not_not, not_not, hlast]
    exact ⟨rfl, List.getLast?_concat⟩
  unfold parseToken
  rw [if_neg hlen, if_neg hends, Token.text,
    splitOn_renderToken htype hid]
  simp only [ne_eq, not_true_eq_false, if_false,
    dif_pos token.entityType_valid, dif_pos token.tokenId_valid]

/-- The parser accepts a string exactly when it is the rendering of the
token it returns. -/
theorem parseToken_eq_some_iff {candidate : Text} {token : Token} :
    parseToken candidate = some token ↔ candidate = token.text := by
  constructor
  · intro h
    unfold parseToken at h
    split at h
    · cases h
    · rename_i hlen
      split at h
      · cases h
      · rename_i hends
        rw [not_or, not_not, not_not] at hends
        obtain ⟨hhead, hlast⟩ := hends
        split at h
        · rename_i ns entityType tokenId hsplit
          split at h
          · cases h
          · rename_i hns
            rw [not_not] at hns
            split at h
            · split at h
              · -- the pieces put back together are the candidate
                cases h
                have hbody := @List.intercalate_splitOn _
                  (candidate.drop 1).dropLast _ _ fieldSeparator
                rw [hsplit, hns] at hbody
                cases candidate with
                | nil => cases hhead
                | cons c rest =>
                    cases hhead
                    have hne : rest ≠ [] := by
                      intro hnil
                      rw [hnil] at hlen
                      exact hlen (by decide)
                    rw [List.getLast?_cons_of_ne_nil hne] at hlast
                    rw [List.drop_one, List.tail_cons] at hbody
                    have hrest := List.dropLast_append_getLast? _ hlast
                    rw [← hbody] at hrest
                    rw [← hrest]
                    simp [Token.text, renderToken, List.intercalate,
                      List.intersperse]
              · cases h
            · cases h
        · cases h
  · intro h
    rw [h]
    exact parseToken_text token

/-- Different tokens render differently. -/
theorem Token.text_injective {a b : Token} (h : a.text = b.text) :
    a = b := by
  have ha := parseToken_text a
  rw [h, parseToken_text b] at ha
  exact (Option.some.inj ha).symm

theorem formatToken_of_valid {entityType tokenId : Text}
    (htype : isValidEntityType entityType = true)
    (hid : isValidTokenId tokenId = true) :
    formatToken entityType tokenId =
      .ok (renderToken entityType tokenId) := by
  simp [formatToken, htype, hid]

-- ==================================================== the pattern

/-- A string the pattern matches whole: a rendering whose type may be the
reserved marker. -/
structure LooksLikeToken (entityType tokenId : Text) : Prop where
  type_chars : ∀ char ∈ entityType, isEntityTypeChar char = true
  type_length : 1 ≤ entityType.length ∧ entityType.length ≤ 64
  id_valid : isValidTokenId tokenId = true

theorem Token.looksLikeToken (token : Token) :
    LooksLikeToken token.entityType token.tokenId :=
  ⟨isEntityTypeChar_of_valid token.entityType_valid,
    length_of_validEntityType token.entityType_valid, token.tokenId_valid⟩

/-- The pattern matches a rendering, whatever follows it. -/
theorem matchToken_render {entityType tokenId : Text}
    (h : LooksLikeToken entityType tokenId) (rest : Text) :
    matchToken (renderToken entityType tokenId ++ rest) =
      some (renderToken entityType tokenId).length := by
  have hid := length_of_validTokenId h.id_valid
  have hsplit : renderToken entityType tokenId ++ rest =
      tokenOpening ++ (entityType ++ (fieldSeparator ::
        (tokenId ++ (rightDelimiter :: rest)))) := by
    simp [renderToken, tokenOpening]
  have htake : (entityType ++ (fieldSeparator ::
      (tokenId ++ (rightDelimiter :: rest)))).takeWhile
        isEntityTypeChar = entityType := by
    rw [List.takeWhile_append_of_pos h.type_chars,
      List.takeWhile_cons_of_neg (by decide), List.append_nil]
  unfold matchToken
  rw [hsplit, if_pos (by simp), List.drop_left]
  simp only [htake, List.drop_left, List.drop_one, List.tail_cons]
  have htakeid : (tokenId ++ (rightDelimiter :: rest)).take
      tokenIdLength = tokenId := by
    rw [show tokenIdLength = tokenId.length by rw [hid]; rfl]
    exact List.take_left
  have hdropid : (fieldSeparator :: (tokenId ++
      (rightDelimiter :: rest))).drop (1 + tokenIdLength) =
        rightDelimiter :: rest := by
    rw [Nat.add_comm, List.drop_succ_cons,
      show tokenIdLength = tokenId.length by rw [hid]; rfl]
    exact List.drop_left
  rw [htakeid, hdropid, if_pos]
  exact ⟨h.type_length.1, h.type_length.2, rfl, h.id_valid, rfl⟩

/-- And it matches nothing else. -/
theorem of_matchToken {text : Text} {n : Nat}
    (h : matchToken text = some n) :
    ∃ entityType tokenId rest, LooksLikeToken entityType tokenId ∧
      text = renderToken entityType tokenId ++ rest ∧
      n = (renderToken entityType tokenId).length := by
  unfold matchToken at h
  split at h
  · rename_i hopen
    obtain ⟨rest, rfl⟩ := List.isPrefixOf_iff_prefix.mp hopen
    rw [List.drop_left] at h
    simp only at h
    split at h
    · rename_i hshape
      obtain ⟨hmin, hmax, hsep, hid, hright⟩ := hshape
      cases h
      -- name the two fields and what follows each
      generalize htype : rest.takeWhile isEntityTypeChar = entityType at *
      have hrest : rest = entityType ++ rest.drop entityType.length := by
        have := @List.takeWhile_append_dropWhile _ isEntityTypeChar rest
        rw [htype] at this
        conv_lhs => rw [← this]
        congr 1
        conv_rhs => rw [← this]
        exact List.drop_left.symm
      generalize htail : rest.drop entityType.length = tail at *
      generalize hidt : (tail.drop 1).take tokenIdLength = tokenId at *
      have hchars : ∀ char ∈ entityType, isEntityTypeChar char = true := by
        rw [← htype]
        intro char hchar
        exact List.mem_takeWhile_imp hchar
      have htailsplit : tail = fieldSeparator :: (tokenId ++
          (rightDelimiter :: tail.drop (2 + tokenIdLength))) := by
        cases tail with
        | nil => cases hsep
        | cons c tail =>
            cases hsep
            rw [List.drop_one, List.tail_cons] at hidt
            rw [Nat.add_comm, List.drop_succ_cons] at hright
            obtain ⟨tl, htl⟩ : ∃ tl, tail.drop tokenIdLength =
                rightDelimiter :: tl := by
              cases hd : tail.drop tokenIdLength with
              | nil =>
                  rw [hd] at hright
                  cases hright
              | cons c' tl =>
                  rw [hd] at hright
                  cases hright
                  exact ⟨tl, rfl⟩
            rw [show 2 + tokenIdLength = (tokenIdLength + 1) + 1 by
              omega, List.drop_succ_cons]
            have hone : tail.drop (tokenIdLength + 1) = tl := by
              rw [← List.drop_drop, htl]
              rfl
            rw [hone, ← htl, ← hidt, List.take_append_drop]
      refine ⟨entityType, tokenId, tail.drop (2 + tokenIdLength),
        ⟨hchars, ⟨hmin, hmax⟩, hid⟩, ?_, rfl⟩
      rw [hrest]
      conv_lhs => rw [htailsplit]
      simp [renderToken, tokenOpening]
    · cases h
  · cases h

theorem matchToken_bounded : Bounded matchToken := by
  intro text n h
  obtain ⟨entityType, tokenId, rest, -, rfl, rfl⟩ := of_matchToken h
  rw [length_renderToken, List.length_append, length_renderToken]
  omega

/-- A match begins with the left delimiter. -/
theorem head_of_matchToken {text : Text} {n : Nat}
    (h : matchToken text = some n) :
    text.head? = some leftDelimiter := by
  obtain ⟨entityType, tokenId, rest, -, rfl, -⟩ := of_matchToken h
  rfl

/-- No match begins inside another: the left delimiter stands only at the
start of one. -/
theorem matchToken_solid : Solid matchToken := by
  intro text n h k hk hkn
  obtain ⟨entityType, tokenId, rest, hshape, rfl, rfl⟩ := of_matchToken h
  have hid := isCrockfordChar_of_valid hshape.id_valid
  have hnot := leftDelimiter_not_mem_tail hshape.type_chars hid
  cases hm : matchToken
      ((renderToken entityType tokenId ++ rest).drop k) with
  | none => rfl
  | some j =>
      have hhead := head_of_matchToken hm
      rw [List.drop_append_of_le_length (by omega)] at hhead
      obtain ⟨k, rfl⟩ : ∃ i, k = i + 1 := ⟨k - 1, by omega⟩
      have htail : (renderToken entityType tokenId).drop (k + 1) =
          (renderToken entityType tokenId).tail.drop k := by
        rw [← List.drop_one, List.drop_drop, Nat.add_comm]
      rw [htail] at hhead
      cases hd : (renderToken entityType tokenId).tail.drop k with
      | nil =>
          have hlen := congrArg List.length hd
          simp only [List.length_drop, List.length_tail,
            List.length_nil] at hlen
          omega
      | cons c l =>
          rw [hd] at hhead
          cases hhead
          exact absurd (List.mem_of_mem_drop
            (by rw [hd]; exact List.mem_cons_self)) hnot

-- ==================================================== the scanner

/-- The pattern restricted to what the parser accepts. -/
def matchStrict : Text → Option Nat :=
  restrict matchToken (fun text => (parseToken text).isSome)

theorem matchStrict_bounded : Bounded matchStrict :=
  restrict_bounded matchToken_bounded _

/-- The strict pattern matches exactly where a token stands. -/
theorem matchStrict_eq_some_iff {text : Text} {n : Nat} :
    matchStrict text = some n ↔
      ∃ (token : Token) (rest : Text), text = token.text ++ rest ∧
        n = token.text.length := by
  unfold matchStrict
  rw [restrict_eq_some]
  constructor
  · rintro ⟨hmatch, hparse⟩
    obtain ⟨entityType, tokenId, rest, -, rfl, rfl⟩ := of_matchToken hmatch
    rw [List.take_left] at hparse
    obtain ⟨token, htoken⟩ := Option.isSome_iff_exists.mp hparse
    have htext := parseToken_eq_some_iff.mp htoken
    exact ⟨token, rest, by rw [htext], by rw [htext]⟩
  · rintro ⟨token, rest, rfl, rfl⟩
    refine ⟨matchToken_render token.looksLikeToken rest, ?_⟩
    rw [List.take_left, parseToken_text]
    rfl

/-- The scanner's result is the walk of the strict pattern, each hit
parsed. -/
theorem findTokens_eq_scan (text : Text) :
    findTokens text = (scan matchStrict text).filterMap (fun hit =>
      (parseToken hit.2).map
        (fun token => ⟨token, hit.1, Hit.stop hit⟩)) := by
  unfold matchStrict findTokens
  rw [scan_filter matchToken_bounded matchToken_solid,
    List.filterMap_filter]
  refine List.filterMap_congr (fun hit _ => ?_)
  cases parseToken hit.2 with
  | none => rfl
  | some token => rfl

/-- A token that stands in a text is found there. -/
theorem mem_findTokens {text : Text} {token : Token} {i : Nat}
    (h : token.text <+: text.drop i) :
    (⟨token, i, i + token.text.length⟩ : TokenMatch) ∈ findTokens text := by
  obtain ⟨rest, hrest⟩ := h
  have hmatch : matchStrict (text.drop i) = some token.text.length :=
    matchStrict_eq_some_iff.mpr ⟨token, rest, hrest.symm, rfl⟩
  have htake : (text.drop i).take token.text.length = token.text := by
    rw [← hrest, List.take_left]
  have hmem := mem_scan_of_match matchStrict_bounded
    (restrict_solid matchToken_solid _) hmatch
  rw [htake] at hmem
  rw [findTokens_eq_scan]
  refine List.mem_filterMap.mpr ⟨_, hmem, ?_⟩
  rw [parseToken_text]
  rfl

/-- What the strict pattern hits is a token's text. -/
theorem exists_token_of_hit {text : Text} {hit : Hit Char}
    (h : hit ∈ scan matchStrict text) :
    ∃ token : Token, hit.2 = token.text := by
  obtain ⟨-, -, hslice, hmatch⟩ := of_mem_scan matchStrict_bounded h
  obtain ⟨token, rest, htext, hlen⟩ := matchStrict_eq_some_iff.mp hmatch
  refine ⟨token, ?_⟩
  rw [hslice, slice, Hit.stop, List.drop_take, htext,
    Nat.add_sub_cancel_left, hlen]
  exact List.take_left

/-- A text has no token exactly when no position of it starts one. -/
theorem findTokens_eq_nil_iff (text : Text) :
    findTokens text = [] ↔ ∀ s, s <:+ text → matchStrict s = none := by
  rw [← scan_eq_nil_iff matchStrict_bounded, findTokens_eq_scan]
  constructor
  · intro h
    rw [List.filterMap_eq_nil_iff] at h
    cases hscan : scan matchStrict text with
    | nil => rfl
    | cons hit hits =>
        have hmem : hit ∈ scan matchStrict text := by
          rw [hscan]
          exact List.mem_cons_self
        obtain ⟨token, hhit⟩ := exists_token_of_hit hmem
        have hnone := h hit hmem
        rw [hhit, parseToken_text] at hnone
        cases hnone
  · intro h
    rw [h]
    rfl

end PrivacyGateway.Tokenization
