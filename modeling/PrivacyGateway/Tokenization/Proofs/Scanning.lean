/-
What the scanner finds, told by the parser.

`Occurs` says that a range of a text is a token, in the parser's words
alone. `mem_findTokens_iff` is the scanner against it: what the pattern
and its walk find is every occurrence, from the left, none inside another
(`findTokens_chain`).

A token has one left delimiter, at its head, so no token begins before a
left delimiter and ends after it (`Token.prefix_of_prefix_append`). Two
texts joined where no token straddles are scanned one by one
(`findTokens_append`), and so are two texts with a redaction between them.
-/
import Mathlib.Data.List.Sort
import PrivacyGateway.Tokenization.Grammar

namespace PrivacyGateway.Tokenization

open Scan Splice

-- ==================================================== occurrences

/-- The range holds a string that the parser accepts. -/
structure Occurs (text : Text) (found : TokenMatch) : Prop where
  forward : found.start ≤ found.stop
  inside : found.stop ≤ text.length
  parses : parseToken (slice text found.start found.stop) =
    some found.token

theorem Token.text_ne_nil (token : Token) : token.text ≠ [] :=
  List.cons_ne_nil _ _

variable {text : Text} {found : TokenMatch}

/-- An occurrence is a token's text at its place. -/
theorem occurs_iff :
    Occurs text found ↔ found.token.text <+: text.drop found.start ∧
      found.stop = found.start + found.token.text.length := by
  have htake : slice text found.start found.stop =
      (text.drop found.start).take (found.stop - found.start) := by
    unfold slice
    rw [List.drop_take]
  constructor
  · intro h
    have hslice := parseToken_eq_some_iff.mp h.parses
    have hlength := congrArg List.length hslice
    have := h.forward
    have := h.inside
    rw [length_slice] at hlength
    rw [← hslice, htake]
    refine ⟨List.take_prefix _ _, ?_⟩
    rw [← htake, hslice]
    omega
  · intro h
    obtain ⟨⟨rest, hrest⟩, hstop⟩ := h
    have hlength := congrArg List.length hrest
    have hpos := List.length_pos_of_ne_nil found.token.text_ne_nil
    rw [List.length_append, List.length_drop] at hlength
    refine ⟨by omega, by omega, ?_⟩
    rw [htake, ← hrest, hstop, Nat.add_sub_cancel_left, List.take_left]
    exact parseToken_text found.token

theorem Occurs.nonempty (h : Occurs text found) :
    found.start < found.stop := by
  have := List.length_pos_of_ne_nil found.token.text_ne_nil
  have := (occurs_iff.mp h).2
  omega

theorem occurs_of_mem_findTokens (h : found ∈ findTokens text) :
    Occurs text found := by
  rw [findTokens_eq_scan] at h
  obtain ⟨hit, hmem, hfound⟩ := List.mem_filterMap.mp h
  obtain ⟨token, hparse, rfl⟩ := Option.map_eq_some_iff.mp hfound
  obtain ⟨-, hstop, hslice, -⟩ := of_mem_scan matchStrict_bounded hmem
  rw [hslice] at hparse
  exact ⟨Nat.le_add_right _ _, hstop, hparse⟩

theorem mem_findTokens_iff : found ∈ findTokens text ↔ Occurs text found := by
  constructor
  · exact occurs_of_mem_findTokens
  · intro h
    obtain ⟨hleads, hstop⟩ := occurs_iff.mp h
    have hmem := mem_findTokens hleads
    rw [← hstop] at hmem
    exact hmem

/-- What is found stands one after the other. -/
theorem findTokens_chain (text : Text) :
    (findTokens text).Pairwise (fun a b => a.stop ≤ b.start) := by
  rw [findTokens_eq_scan]
  refine List.pairwise_filterMap.mpr
    ((scan_chain matchStrict_bounded text).imp ?_)
  intro a b hab p hp q hq
  obtain ⟨_, -, rfl⟩ := Option.map_eq_some_iff.mp hp
  obtain ⟨_, -, rfl⟩ := Option.map_eq_some_iff.mp hq
  exact hab

theorem findTokens_starts (text : Text) :
    (findTokens text).Pairwise (fun a b => a.start < b.start) := by
  refine (findTokens_chain text).imp_of_mem ?_
  intro a b ha _ hab
  have := (occurs_of_mem_findTokens ha).nonempty
  omega

theorem findTokens_nodup (text : Text) : (findTokens text).Nodup := by
  refine (findTokens_starts text).imp ?_
  intro a b hab heq
  rw [heq] at hab
  omega

-- ==================================================== joined texts

/-- The match, so many characters further on. -/
def TokenMatch.shift (n : Nat) (found : TokenMatch) : TokenMatch :=
  ⟨found.token, n + found.start, n + found.stop⟩

/-- In the first of two texts. -/
theorem occurs_append_left {a b : Text} (h : found.stop ≤ a.length) :
    Occurs (a ++ b) found ↔ Occurs a found := by
  have hslice : slice (a ++ b) found.start found.stop =
      slice a found.start found.stop := by
    unfold slice
    rw [List.take_append_of_le_length h]
  constructor
  · intro hoccurs
    refine ⟨hoccurs.forward, h, ?_⟩
    rw [← hslice]
    exact hoccurs.parses
  · intro hoccurs
    refine ⟨hoccurs.forward, ?_, ?_⟩
    · rw [List.length_append]
      omega
    · rw [hslice]
      exact hoccurs.parses

/-- In the second. -/
theorem occurs_append_right {a b : Text} :
    Occurs (a ++ b) (found.shift a.length) ↔ Occurs b found := by
  rw [occurs_iff, occurs_iff]
  have hdrop : (a ++ b).drop (a.length + found.start) =
      b.drop found.start := by
    rw [← List.drop_drop, List.drop_left]
  unfold TokenMatch.shift
  simp only [hdrop]
  constructor
  · intro h
    exact ⟨h.1, by omega⟩
  · intro h
    exact ⟨h.1, by omega⟩

/-- No token begins in the first text and ends in the second. -/
def Apart (a b : Text) : Prop :=
  ∀ found, Occurs (a ++ b) found →
    found.stop ≤ a.length ∨ a.length ≤ found.start

/-- What comes after a first part is as far apart from what follows. -/
theorem Apart.of_append {a b c : Text} (h : Apart (a ++ b) c) :
    Apart b c := by
  intro found hoccurs
  have hshift : Occurs (a ++ b ++ c) (found.shift a.length) := by
    rw [List.append_assoc]
    exact occurs_append_right.mpr hoccurs
  have hapart := h _ hshift
  unfold TokenMatch.shift at hapart
  simp only [List.length_append] at hapart
  omega

/-- Where no token straddles the join, each text is scanned on its
own. -/
theorem findTokens_append {a b : Text} (h : Apart a b) :
    findTokens (a ++ b) =
      findTokens a ++ (findTokens b).map (TokenMatch.shift a.length) := by
  have hirrefl : Std.Irrefl (fun x y : TokenMatch => x.start < y.start) :=
    ⟨fun x => Nat.lt_irrefl _⟩
  have hantisymm : Std.Antisymm
      (fun x y : TokenMatch => x.start < y.start) :=
    ⟨fun x y hxy hyx => absurd hxy (Nat.lt_asymm hyx)⟩
  refine List.Pairwise.eq_of_mem_iff (findTokens_starts _) ?_ ?_
  · refine List.pairwise_append.mpr ⟨findTokens_starts a, ?_, ?_⟩
    · refine List.pairwise_map.mpr ((findTokens_starts b).imp ?_)
      intro x y hxy
      exact Nat.add_lt_add_left hxy _
    · intro x hx y hy
      obtain ⟨y, -, rfl⟩ := List.mem_map.mp hy
      have hoccurs := occurs_of_mem_findTokens hx
      have := hoccurs.nonempty
      have := hoccurs.inside
      show x.start < a.length + y.start
      omega
  · intro found
    rw [mem_findTokens_iff, List.mem_append, mem_findTokens_iff]
    constructor
    · intro hoccurs
      rcases h found hoccurs with hleft | hright
      · exact Or.inl ((occurs_append_left hleft).mp hoccurs)
      · right
        have hstop := hoccurs.nonempty
        obtain ⟨token, start, stop⟩ := found
        simp only at hright hstop
        obtain ⟨i, rfl⟩ := Nat.exists_eq_add_of_le hright
        obtain ⟨j, rfl⟩ :=
          Nat.exists_eq_add_of_le (show a.length ≤ stop by omega)
        refine List.mem_map.mpr ⟨⟨token, i, j⟩, ?_, rfl⟩
        rw [mem_findTokens_iff]
        exact occurs_append_right.mp hoccurs
    · intro hfound
      rcases hfound with hoccurs | hmem
      · exact (occurs_append_left hoccurs.inside).mpr hoccurs
      · obtain ⟨found, hfound, rfl⟩ := List.mem_map.mp hmem
        exact occurs_append_right.mpr (mem_findTokens_iff.mp hfound)

-- ==================================================== at a delimiter

/-- A token that begins before a left delimiter ends before it. -/
theorem Token.prefix_of_prefix_append {token : Token} {a b : Text}
    (hne : a ≠ []) (h : token.text <+: a ++ leftDelimiter :: b) :
    token.text <+: a := by
  obtain ⟨rest, hrest⟩ := h
  rcases List.append_eq_append_iff.mp hrest with
    ⟨more, ha, -⟩ | ⟨more, htoken, hmore⟩
  · exact ⟨more, ha.symm⟩
  · -- the token holds the delimiter, or ends right before it
    cases more with
    | nil =>
        rw [List.append_nil] at htoken
        exact ⟨[], by rw [htoken, List.append_nil]⟩
    | cons c more =>
        have hc : leftDelimiter = c := (List.cons.inj hmore).1
        have hnot := leftDelimiter_not_mem_tail
          (isEntityTypeChar_of_valid token.entityType_valid)
          (isCrockfordChar_of_valid token.tokenId_valid)
        have htail : (renderToken token.entityType token.tokenId).tail =
            (a ++ c :: more).tail := congrArg List.tail htoken
        rw [htail, List.tail_append_of_ne_nil hne, ← hc] at hnot
        exact absurd (List.mem_append_right _ List.mem_cons_self) hnot

/-- No token straddles the place before a left delimiter. -/
theorem apart_leftDelimiter (a b : Text) :
    Apart a (leftDelimiter :: b) := by
  intro found hoccurs
  obtain ⟨hleads, hstop⟩ := occurs_iff.mp hoccurs
  by_cases hright : a.length ≤ found.start
  · exact Or.inr hright
  · left
    rw [List.drop_append_of_le_length (by omega)] at hleads
    have hne : a.drop found.start ≠ [] := by
      intro hnil
      have := List.drop_eq_nil_iff.mp hnil
      omega
    have hlength :=
      (Token.prefix_of_prefix_append hne hleads).length_le
    rw [List.length_drop] at hlength
    omega

-- ==================================================== redactions

theorem formatRedaction_ok_iff {entityType placeholder : Text} :
    formatRedaction entityType = .ok placeholder ↔
      isValidEntityType entityType = true ∧
        renderRedaction entityType = placeholder := by
  unfold formatRedaction
  cases isValidEntityType entityType with
  | false => simp
  | true => simp

section Redaction

variable {entityType : Text}

/-- No token begins where a redaction does: its type would be the
reserved marker. -/
theorem Token.not_prefix_redaction (token : Token) (rest : Text) :
    ¬ token.text <+: renderRedaction entityType ++ rest := by
  intro h
  obtain ⟨more, hmore⟩ := h
  have htoken : token.text ++ more = tokenOpening ++
      (token.entityType ++ fieldSeparator ::
        (token.tokenId ++ rightDelimiter :: more)) := by
    simp [Token.text, renderToken, tokenOpening]
  have hredaction : renderRedaction entityType ++ rest = tokenOpening ++
      (redactedMarker ++ fieldSeparator ::
        (entityType ++ rightDelimiter :: rest)) := by
    simp [renderRedaction, tokenOpening]
  rw [htoken, hredaction] at hmore
  have hfields := congrArg (List.takeWhile isEntityTypeChar)
    (List.append_cancel_left hmore)
  have hmarker : redactedMarker.all isEntityTypeChar = true := by decide
  rw [List.takeWhile_append_of_pos
      (isEntityTypeChar_of_valid token.entityType_valid),
    List.takeWhile_append_of_pos (List.all_eq_true.mp hmarker),
    List.takeWhile_cons_of_neg (by decide),
    List.takeWhile_cons_of_neg (by decide),
    List.append_nil, List.append_nil] at hfields
  have htype := token.entityType_valid
  rw [hfields] at htype
  exact absurd htype (by decide)

/-- No token begins inside a redaction, whatever follows it. -/
theorem redaction_le_start
    (hvalid : isValidEntityType entityType = true) {rest : Text}
    (h : Occurs (renderRedaction entityType ++ rest) found) :
    (renderRedaction entityType).length ≤ found.start := by
  obtain ⟨hleads, -⟩ := occurs_iff.mp h
  by_contra hlt
  cases hstart : found.start with
  | zero =>
      rw [hstart, List.drop_zero] at hleads
      exact found.token.not_prefix_redaction rest hleads
  | succ i =>
      -- the token's head would be a left delimiter past the redaction's
      rw [hstart, List.drop_append_of_le_length (by omega)] at hleads
      have htail : (renderRedaction entityType).drop (i + 1) =
          (renderRedaction entityType).tail.drop i := by
        rw [← List.drop_one, List.drop_drop, Nat.add_comm]
      rw [htail] at hleads
      cases hdrop : (renderRedaction entityType).tail.drop i with
      | nil =>
          have hlength := congrArg List.length hdrop
          rw [List.length_drop, List.length_tail,
            List.length_nil] at hlength
          omega
      | cons c l =>
          rw [hdrop] at hleads
          obtain ⟨more, hmore⟩ := hleads
          have hc : leftDelimiter = c := (List.cons.inj hmore).1
          refine leftDelimiter_not_mem_redaction
            (isEntityTypeChar_of_valid hvalid)
            (List.mem_of_mem_drop (i := i) ?_)
          rw [hdrop, hc]
          exact List.mem_cons_self

theorem findTokens_redaction
    (hvalid : isValidEntityType entityType = true) :
    findTokens (renderRedaction entityType) = [] := by
  rw [List.eq_nil_iff_forall_not_mem]
  intro found hfound
  have hoccurs := occurs_of_mem_findTokens hfound
  have hnonempty := hoccurs.nonempty
  have hinside := hoccurs.inside
  rw [← List.append_nil (renderRedaction entityType)] at hoccurs
  have := redaction_le_start hvalid hoccurs
  omega

theorem parseToken_redaction :
    parseToken (renderRedaction entityType) = none := by
  cases hparse : parseToken (renderRedaction entityType) with
  | none => rfl
  | some token =>
      have htext := parseToken_eq_some_iff.mp hparse
      have hnot := @Token.not_prefix_redaction entityType token []
      rw [htext, List.append_nil] at hnot
      exact absurd (List.prefix_refl _) hnot

/-- A redaction between two texts leaves both scans as they were. -/
theorem findTokens_around_redaction
    (hvalid : isValidEntityType entityType = true) (before after : Text) :
    findTokens (before ++ renderRedaction entityType ++ after) =
      findTokens before ++ (findTokens after).map (TokenMatch.shift
        (before.length + (renderRedaction entityType).length)) := by
  have hright : Apart (renderRedaction entityType) after :=
    fun found hoccurs => Or.inr (redaction_le_start hvalid hoccurs)
  have hleft : Apart before (renderRedaction entityType ++ after) :=
    apart_leftDelimiter before _
  rw [List.append_assoc, findTokens_append hleft, findTokens_append hright,
    findTokens_redaction hvalid, List.nil_append, List.map_map]
  congr 2
  funext found
  unfold TokenMatch.shift Function.comp
  simp only [Nat.add_assoc]

end Redaction

-- ==================================================== the grammar

theorem formatToken_ok_iff {entityType tokenId candidate : Text} :
    formatToken entityType tokenId = .ok candidate ↔
      ∃ token : Token, token.entityType = entityType ∧
        token.tokenId = tokenId ∧ token.text = candidate := by
  constructor
  · intro h
    unfold formatToken at h
    cases htype : isValidEntityType entityType with
    | false =>
        rw [htype] at h
        cases h
    | true =>
        cases hid : isValidTokenId tokenId with
        | false =>
            rw [htype, hid] at h
            cases h
        | true =>
            rw [htype, hid] at h
            cases h
            exact ⟨⟨entityType, tokenId, htype, hid⟩, rfl, rfl, rfl⟩
  · rintro ⟨token, rfl, rfl, rfl⟩
    exact formatToken_of_valid token.entityType_valid token.tokenId_valid

/-- The grammar, as its three functions share it. The scanner finds the
substrings that the parser accepts, from the left, each once, none inside
another. The parser accepts what the builder makes of the same fields, and
nothing else. And a redaction holds no token and hides none: between any
two texts it leaves the tokens of both, and there are no others. -/
theorem scanning_exact :
    (∀ text, (∀ found, found ∈ findTokens text ↔ Occurs text found) ∧
      (findTokens text).Nodup ∧
      (findTokens text).Pairwise (fun a b => a.stop ≤ b.start)) ∧
    (∀ candidate entityType tokenId,
      (∃ token, parseToken candidate = some token ∧
        token.entityType = entityType ∧ token.tokenId = tokenId) ↔
          formatToken entityType tokenId = .ok candidate) ∧
    (∀ entityType placeholder,
      formatRedaction entityType = .ok placeholder →
        parseToken placeholder = none ∧ findTokens placeholder = [] ∧
        ∀ before after, findTokens (before ++ placeholder ++ after) =
          findTokens before ++ (findTokens after).map (TokenMatch.shift
            (before.length + placeholder.length))) := by
  refine ⟨?_, ?_, ?_⟩
  · intro text
    exact ⟨fun _ => mem_findTokens_iff, findTokens_nodup text,
      findTokens_chain text⟩
  · intro candidate entityType tokenId
    rw [formatToken_ok_iff]
    constructor
    · rintro ⟨token, hparse, htype, hid⟩
      exact ⟨token, htype, hid, (parseToken_eq_some_iff.mp hparse).symm⟩
    · rintro ⟨token, htype, hid, htext⟩
      exact ⟨token, parseToken_eq_some_iff.mpr htext.symm, htype, hid⟩
  · intro entityType placeholder hformat
    obtain ⟨hvalid, rfl⟩ := formatRedaction_ok_iff.mp hformat
    exact ⟨parseToken_redaction, findTokens_redaction hvalid,
      findTokens_around_redaction hvalid⟩

/-- A redaction whose type looks like an identifier, between two halves
of a token. -/
theorem redaction_between_halves :
    findTokens ("⟦SGW:PERSON:".toList ++
      "⟦SGW:REDACTED:01ARZ3NDEKTSV4RRFFQ69G5FAV⟧".toList ++
        "⟦SGW:PERSON:01ARZ3NDEKTSV4RRFFQ69G5FAV⟧".toList) =
      findTokens "⟦SGW:PERSON:".toList ++
        (findTokens "⟦SGW:PERSON:01ARZ3NDEKTSV4RRFFQ69G5FAV⟧".toList).map
          (TokenMatch.shift (12 + 41)) :=
  (scanning_exact.2.2 "01ARZ3NDEKTSV4RRFFQ69G5FAV".toList _ rfl).2.2 _ _

end PrivacyGateway.Tokenization
