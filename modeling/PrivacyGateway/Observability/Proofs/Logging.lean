/-
What a log line cannot disclose.

The seven shapes may be scrubbed in their order: the mark that is written
is foreign to every one of them, and the two that stand between word
boundaries come last (`scrubbable`). So no value that reaches the renderer
holds any of them, whatever the substitutions before and after it wrote.
A gateway token and an API key are words of the first two, and cannot
stand in a value at all.
-/
import PrivacyGateway.Auth.Proofs.Keys
import PrivacyGateway.Observability.Logging

namespace PrivacyGateway.Observability

open Regex Detection Tokenization

-- ==================================================== words

theorem word_literally (text : Text) :
    Word (word (literally text)) text := by
  induction text with
  | nil => rfl
  | cons c text ih =>
      exact ⟨[c], text, rfl, ⟨c, rfl, beq_self_eq_true c⟩, ih⟩

/-- Words in a row. -/
theorem word_cons {r : Pattern Char} {rs : List (Pattern Char)} {u v : Text}
    (hu : Word r u) (hv : Word (sequence rs) v) :
    Word (sequence (r :: rs)) (u ++ v) :=
  ⟨u, v, rfl, hu, hv⟩

theorem word_last {r : Pattern Char} {u : Text} (h : Word r u) :
    Word (sequence [r]) u :=
  ⟨u, [], (List.append_nil u).symm, h, rfl⟩

/-- A shape without edges stands wherever one of its words does. -/
theorem occurs_of_within {s : Shape Char} {w text : Text}
    (hedges : s.edges = none) (hword : Word s.body w) (h : w <:+: text) :
    s.Occurs text := by
  obtain ⟨before, after, rfl⟩ := h
  have hnone : ∀ p, p ∉ s.edges := by
    intro p hp
    rw [hedges] at hp
    cases hp
  refine ⟨before, w, after, List.append_assoc .., hword, ?_, ?_⟩
  · intro p hp
    exact absurd hp (hnone p)
  · intro p hp
    exact absurd hp (hnone p)

/-- A gateway token is one of the words that are scrubbed. -/
theorem word_token (token : Token) : Word tokenShape.body token.text := by
  have hvalid := token.entityType_valid
  unfold isValidEntityType at hvalid
  simp only [Bool.and_eq_true, decide_eq_true_eq] at hvalid
  obtain ⟨⟨⟨hleast, hmost⟩, -⟩, hchars⟩ := hvalid
  have hid := token.tokenId_valid
  unfold isValidTokenId at hid
  simp only [Bool.and_eq_true, decide_eq_true_eq] at hid
  obtain ⟨hlen, hidchars⟩ := hid
  have htext : token.text = "⟦SGW:".toList ++ (token.entityType ++
      (":".toList ++ (token.tokenId ++ "⟧".toList))) := by
    unfold Token.text renderToken
    simp [tokenNamespace, fieldSeparator, leftDelimiter, rightDelimiter]
  rw [htext]
  refine word_cons (word_literally _) (word_cons ⟨hleast, ?_, ?_⟩
    (word_cons (word_literally _) (word_cons ⟨?_, ?_, ?_⟩
      (word_last (word_literally _)))))
  · intro bound hbound
    cases hbound
    exact hmost
  · exact List.all_eq_true.mp hchars
  · exact Nat.le_of_eq hlen.symm
  · intro bound hbound
    cases hbound
    exact Nat.le_of_eq hlen
  · exact List.all_eq_true.mp hidchars

/-- And so is an API key. -/
theorem word_rawKey (random : Auth.KeyBytes) :
    Word gatewayKeyShape.body (Auth.rawKeyOf random) := by
  obtain ⟨hbody, hlen⟩ := Auth.encodeBody_spec random.bytes
  rw [random.length_eq] at hlen
  have hraw : Auth.rawKeyOf random = "sgw_".toList ++ ("live".toList ++
      ("_".toList ++ Auth.encodeBody random.bytes)) := by
    unfold Auth.rawKeyOf Auth.keyLabel
    simp
  rw [hraw]
  refine word_cons (word_literally _) (word_cons
    (Or.inl (word_literally _)) (word_cons (word_literally _)
      (word_last ⟨?_, ?_, ?_⟩)))
  · rw [hlen]
    decide
  · intro bound hbound
    cases hbound
  · intro c hc
    exact List.all_eq_true.mp (show Auth.urlsafeAlphabet.all
      (alnumOr "_-".toList) = true by decide) c (hbody c hc)

-- ==================================================== the mark

theorem rejects_times {a : Char} {r : Pattern Char}
    (h : rejects a r = true) (n : Nat) : rejects a (times r n) = true := by
  induction n with
  | zero => rfl
  | succ n ih => exact Bool.and_eq_true_iff.mpr ⟨h, ih⟩

theorem rejects_upTo {a : Char} {r : Pattern Char}
    (h : rejects a r = true) (n : Nat) : rejects a (upTo r n) = true := by
  induction n with
  | zero => rfl
  | succ n ih =>
      exact Bool.and_eq_true_iff.mpr
        ⟨Bool.and_eq_true_iff.mpr ⟨h, ih⟩, rfl⟩

section Patterns

variable (unicode : Unicode)

/-- The characters of the mark are neither digits nor space. -/
theorem mark_plain : ∀ c ∈ redacted,
    unicode.isDecimal c = false ∧ unicode.isSpace c = false := by
  intro c hc
  have hall : redacted.all (fun c => isAscii c && !c.isDigit &&
      !asciiSpace c) = true := by decide
  have h := List.all_eq_true.mp hall c hc
  simp only [Bool.and_eq_true, Bool.not_eq_true'] at h
  obtain ⟨⟨hascii, hdigit⟩, hspace⟩ := h
  rw [unicode.isDecimal_ascii c hascii, unicode.isSpace_ascii c hascii]
  exact ⟨hdigit, hspace⟩

theorem foreign_bearer :
    (bearerShape unicode).Foreign '[' redactedWord ']' := by
  have hopen := (mark_plain unicode '[' (by decide)).2
  have hclose := (mark_plain unicode ']' (by decide)).2
  refine Shape.foreign_of ?_ ?_ ?_
  · show (rejects '[' (spelled "bearer".toList) &&
      (!unicode.isSpace '[' && (_ && true))) = true
    rw [hopen]
    decide
  · show (rejects ']' (spelled "bearer".toList) &&
      (!unicode.isSpace ']' && (_ && true))) = true
    rw [hclose]
    decide
  · exact Bool.or_eq_true_iff.mpr (Or.inl (by decide))

theorem leaves_decimal (least : Nat) (most : Option Nat) (h : 0 < least) :
    leaves redactedWord (.many unicode.isDecimal least most) = true := by
  refine Bool.and_eq_true_iff.mpr ⟨decide_eq_true h, ?_⟩
  refine List.all_eq_true.mpr (fun c hc => ?_)
  rw [(mark_plain unicode c (List.mem_cons_of_mem _
    (List.mem_append_left _ hc))).1]
  rfl

theorem foreign_socialSecurity :
    (socialSecurityShape unicode).Foreign '[' redactedWord ']' := by
  have hopen := (mark_plain unicode '[' (by decide)).1
  have hclose := (mark_plain unicode ']' (by decide)).1
  refine Shape.foreign_of ?_ ?_ ?_
  · show (!unicode.isDecimal '[' && (rejects '[' (word (literally _)) &&
      (!unicode.isDecimal '[' && (rejects '[' (word (literally _)) &&
        (!unicode.isDecimal '[' && true))))) = true
    rw [hopen]
    decide
  · show (!unicode.isDecimal ']' && (rejects ']' (word (literally _)) &&
      (!unicode.isDecimal ']' && (rejects ']' (word (literally _)) &&
        (!unicode.isDecimal ']' && true))))) = true
    rw [hclose]
    decide
  · exact Bool.or_eq_true_iff.mpr
      (Or.inl (leaves_decimal unicode 3 (some 3) (by decide)))

theorem foreign_cardNumber :
    (cardNumberShape unicode).Foreign '[' redactedWord ']' := by
  have hrejects : ∀ c, unicode.isDecimal c = false →
      (" -".toList.contains c) = false →
        rejects c (cardNumberShape unicode).body = true := by
    intro c hdecimal hseparator
    have hdigit : rejects c (sequence [.one unicode.isDecimal,
        .many (fun c => " -".toList.contains c) 0 (some 1)]) = true := by
      show (!unicode.isDecimal c && (!" -".toList.contains c && true)) = true
      rw [hdecimal, hseparator]
      rfl
    exact Bool.and_eq_true_iff.mpr
      ⟨rejects_times hdigit 13, rejects_upTo hdigit 6⟩
  refine Shape.foreign_of
    (hrejects '[' (mark_plain unicode '[' (by decide)).1 (by decide))
    (hrejects ']' (mark_plain unicode ']' (by decide)).1 (by decide)) ?_
  -- the first digit of the first of the thirteen
  refine Bool.or_eq_true_iff.mpr (Or.inl (Bool.or_eq_true_iff.mpr
    (Or.inl (Bool.or_eq_true_iff.mpr (Or.inl ?_)))))
  refine List.all_eq_true.mpr (fun c hc => ?_)
  rw [(mark_plain unicode c (List.mem_cons_of_mem _
    (List.mem_append_left _ hc))).1]
  rfl

/-- The patterns may be scrubbed in their order. -/
theorem scrubbable :
    Scrubbable '[' redactedWord ']' (scrubPatterns unicode) := by
  have hplain : ∀ s ∈ [tokenShape, gatewayKeyShape, providerKeyShape,
      emailShape], s.Foreign '[' redactedWord ']' := by
    intro s hs
    simp only [List.mem_cons, List.not_mem_nil, or_false] at hs
    rcases hs with rfl | rfl | rfl | rfl
    · exact Shape.foreign_of (by decide) (by decide) (by decide)
    · exact Shape.foreign_of (by decide) (by decide) (by decide)
    · exact Shape.foreign_of (by decide) (by decide) (by decide)
    · exact Shape.foreign_of (by decide) (by decide) (by decide)
  constructor
  · intro s hs
    simp only [scrubPatterns, List.mem_cons, List.not_mem_nil,
      or_false] at hs
    rcases hs with rfl | rfl | rfl | rfl | rfl | rfl | rfl
    · exact hplain _ (by simp)
    · exact hplain _ (by simp)
    · exact hplain _ (by simp)
    · exact foreign_bearer unicode
    · exact hplain _ (by simp)
    · exact foreign_socialSecurity unicode
    · exact foreign_cardNumber unicode
  · have hnone : ∀ {q : Shape Char} {rest : List (Shape Char)},
        q.edges = none → ∀ r ∈ rest, ∀ word, q.edges = some word →
          r.edges = some word := by
      intro q rest hq r _ word hword
      rw [hq] at hword
      cases hword
    refine .cons (hnone rfl) (.cons (hnone rfl) (.cons (hnone rfl)
      (.cons (hnone rfl) (.cons (hnone rfl) (.cons ?_
        (List.pairwise_singleton _ _))))))
    intro r hr word hword
    rw [List.mem_singleton.mp hr]
    exact hword

-- ==================================================== values

variable {unicode}

/-- No pattern finds anything in a scrubbed value. -/
theorem finditer_scrubText (value : Text) :
    ∀ s ∈ scrubPatterns unicode,
      finditer s.pattern (scrubText unicode value) = [] := by
  intro s hs
  exact (finditer_eq_nil_iff ((scrubbable unicode).foreign s hs)).mpr
    (not_occurs_scrub (scrubbable unicode) value s hs)

/-- A value is left alone exactly when no pattern finds anything in it. -/
theorem scrubText_eq_self_iff {value : Text} :
    scrubText unicode value = value ↔
      ∀ s ∈ scrubPatterns unicode, finditer s.pattern value = [] := by
  constructor
  · intro h
    rw [← h]
    exact finditer_scrubText value
  · intro h
    exact scrub_eq_self (scrubbable unicode).foreign (fun s hs =>
      (finditer_eq_nil_iff ((scrubbable unicode).foreign s hs)).mp (h s hs))

/-- A text in which the first pattern finds nothing holds no token. -/
theorem findTokens_eq_nil {value : Text} (h : ¬ tokenShape.Occurs value) :
    findTokens value = [] := by
  rw [findTokens_eq_nil_iff]
  intro s hs
  cases hmatch : matchStrict s with
  | none => rfl
  | some n =>
      obtain ⟨token, rest, rfl, -⟩ := matchStrict_eq_some_iff.mp hmatch
      refine absurd (occurs_of_within rfl (word_token token) ?_) h
      exact (List.prefix_append _ _).isInfix.trans hs.isInfix

-- ==================================================== events

variable {ν : Type}

theorem mem_keys_dropUnlistedKeys {event : EventDict ν} {key : Text}
    (h : key ∈ (dropUnlistedKeys event).keys) :
    key ∈ allowedEventKeys ∨ key = droppedKeyMarker := by
  unfold dropUnlistedKeys at h
  simp only at h
  split at h
  · rename_i hdropped
    rw [List.filter_eq_nil_iff] at hdropped
    have := hdropped key h
    simp only [Bool.not_eq_true', Bool.not_eq_false] at this
    exact Or.inl (List.contains_iff_mem.mp this)
  · rcases Dict.mem_keys_set.mp h with h | h
    · exact Or.inr h
    · obtain ⟨e, he, rfl⟩ := List.mem_map.mp h
      exact Or.inl (List.contains_iff_mem.mp (List.mem_filter.mp he).2)

/-- The marker is not itself a key that may be logged. -/
theorem marker_unlisted : droppedKeyMarker ∉ allowedEventKeys := by
  decide

/-- A field that may be logged is there after the others are dropped. -/
theorem mem_dropUnlistedKeys {event : EventDict ν} {e : Text × EventValue ν}
    (he : e ∈ event) (hkey : e.1 ∈ allowedEventKeys) :
    e ∈ dropUnlistedKeys event := by
  unfold dropUnlistedKeys
  simp only
  split
  · exact he
  · have hmem : e ∈ event.filter
        (fun e => allowedEventKeys.contains e.1) :=
      List.mem_filter.mpr ⟨he, List.contains_iff_mem.mpr hkey⟩
    rw [Dict.set_of_get?_none]
    · exact List.mem_append_left _ hmem
    · rw [Dict.get?_eq_none_iff]
      intro hmarker
      obtain ⟨other, hother, hname⟩ := List.mem_map.mp hmarker
      apply marker_unlisted
      rw [← hname]
      exact List.contains_iff_mem.mp (List.mem_filter.mp hother).2

/-- A line that is logged has no field outside the allowlist but the one
that names what was dropped. No string in it holds anything that one of
the patterns finds, a gateway token or an API key; and a field that may be
logged and holds nothing of the kind is logged as it is. -/
theorem processEvent_discloses_nothing (event : EventDict ν) :
    (∀ key ∈ (processEvent unicode event).keys,
      key ∈ allowedEventKeys ∨ key = droppedKeyMarker) ∧
    (∀ key value, (key, .text value) ∈ processEvent unicode event →
      (∀ s ∈ scrubPatterns unicode, finditer s.pattern value = []) ∧
        findTokens value = [] ∧
        ∀ random, ¬ Auth.rawKeyOf random <:+: value) ∧
    ∀ key value, (key, EventValue.text value) ∈ event →
      key ∈ allowedEventKeys →
      (∀ s ∈ scrubPatterns unicode, finditer s.pattern value = []) →
      (key, .text value) ∈ processEvent unicode event := by
  refine ⟨?_, ?_, ?_⟩
  · intro key hkey
    unfold processEvent scrubValues Dict.keys at hkey
    rw [List.map_map] at hkey
    have hkept : key ∈ (dropUnlistedKeys event).keys := hkey
    exact mem_keys_dropUnlistedKeys hkept
  · intro key value hmem
    obtain ⟨e, -, heq⟩ := List.mem_map.mp hmem
    obtain ⟨name, old⟩ := e
    cases old with
    | names list => cases heq
    | object thing => cases heq
    | text text =>
        have hvalue : scrubText unicode text = value :=
          EventValue.text.inj (Prod.mk.inj heq).2
        rw [← hvalue]
        have hclean := not_occurs_scrub (scrubbable unicode) text
        refine ⟨finditer_scrubText text,
          findTokens_eq_nil (hclean _ (by simp [scrubPatterns])), ?_⟩
        intro random hinfix
        exact hclean gatewayKeyShape (by simp [scrubPatterns])
          (occurs_of_within rfl (word_rawKey random) hinfix)
  · intro key value hmem hkey hclean
    refine List.mem_map.mpr
      ⟨(key, .text value), mem_dropUnlistedKeys hmem hkey, ?_⟩
    show (key, EventValue.text (scrubText unicode value)) = _
    rw [scrubText_eq_self_iff.mpr hclean]

end Patterns

end PrivacyGateway.Observability
