/-
A masked rendering of what the provider was sent.

Two substitutions run over the joined messages: every token loses its
identifier, then every redaction placeholder its namespace. What they
write is cut to a ceiling, and a cut that lands inside a mask goes back
to the delimiter that opened it. `appliedActions` reads the same two
patterns to tell what was done, message by message.

# What the proofs use

- `of_matchRedaction`, `matchRedaction_render`: the redaction pattern
  against the rendering, as the grammar has it for tokens;
- `tokenGroup_render`, `redactionGroup_render`: the named group of a match;
- `matchToken_headed`, `matchRedaction_headed`: both patterns are headed
  by the left delimiter.
-/
import Mathlib.Data.List.DropRight
import Mathlib.Data.List.Sort
import PrivacyGateway.Lib.Dict
import PrivacyGateway.Lib.Find
import PrivacyGateway.Lib.Marked
import PrivacyGateway.Tokenization.Grammar
import PrivacyGateway.Unicode

namespace PrivacyGateway.Pipeline

open Find Scan Splice Tokenization

/-- What replaces a token identifier. -/
def mask : Text := "••••".toList

/-- Ceiling on the preview. -/
def maxPreviewChars : Nat := 600

def truncationSuffix : Text := " …".toList

/-- The opening of the redaction pattern. -/
def redactionOpening : Text :=
  leftDelimiter :: (tokenNamespace ++ fieldSeparator ::
    (redactedMarker ++ [fieldSeparator]))

/-- `_REDACTION_PATTERN` at one position: how many characters it matches. -/
def matchRedaction (text : Text) : Option Nat :=
  if redactionOpening.isPrefixOf text then
    let rest := text.drop redactionOpening.length
    let entityType := rest.takeWhile isEntityTypeChar
    if 1 ≤ entityType.length ∧ entityType.length ≤ maxEntityTypeLength ∧
        (rest.drop entityType.length).head? = some rightDelimiter then
      some (renderRedaction entityType).length
    else none
  else none

/-- `match.group("entity_type")` of a token. -/
def tokenGroup (found : Text) : Text :=
  (found.drop tokenOpening.length).takeWhile isEntityTypeChar

/-- `match.group("entity_type")` of a redaction placeholder. -/
def redactionGroup (found : Text) : Text :=
  (found.drop redactionOpening.length).takeWhile isEntityTypeChar

-- ==================================================== whitespace

/-- `str.isspace`, the whole table. -/
def isWhitespace (char : Char) : Bool :=
  asciiSpace char || [0x85, 0xA0, 0x1680, 0x2028, 0x2029, 0x202F, 0x205F,
    0x3000].contains char.toNat ||
      (0x2000 ≤ char.toNat && char.toNat ≤ 0x200A)

/-- `text.rstrip()`. -/
def rstrip (text : Text) : Text :=
  text.rdropWhile isWhitespace

/-- `text.strip()`. -/
def strip (text : Text) : Text :=
  rstrip (text.dropWhile isWhitespace)

-- ==================================================== masking

/-- A masked form: the entity type, and what stands for the rest. -/
def renderMask (entityType shown : Text) : Text :=
  leftDelimiter :: (entityType ++ fieldSeparator ::
    (shown ++ [rightDelimiter]))

def maskToken (found : Text) : Text :=
  renderMask (tokenGroup found) mask

def maskRedaction (found : Text) : Text :=
  renderMask (redactionGroup found) redactedMarker

/-- Replace every gateway token and redaction placeholder with a masked
form. -/
def maskTokens (text : Text) : Text :=
  let masked := sub matchToken maskToken text
  sub matchRedaction maskRedaction masked

/-- `cut.rfind(char)`, which is -1 where there is none. -/
def lastIndex (char : Char) (text : Text) : Int :=
  match rfind [char] text 0 text.length with
  | some i => i
  | none => -1

/-- Shorten to `limit` characters without splitting a mask in half. -/
def truncate (limit : Nat) (text : Text) : Text :=
  if text.length ≤ limit then text
  else
    let cut := text.take limit
    let opened := lastIndex leftDelimiter cut
    let closed := lastIndex rightDelimiter cut
    let cut := if opened > closed then cut.take opened.toNat else cut
    rstrip cut ++ truncationSuffix

/-- The masked preview of the protected messages, newest last. -/
def previewOf (messages : List Text) : Text :=
  truncate maxPreviewChars
    (maskTokens (strip (['\n', '\n'].intercalate messages)))

-- ==================================================== what was applied

/-- One entity type, how many were transformed, and what was applied. -/
structure ProtectedEntitySummary where
  entityType : Text
  count : Nat
  action : EntityAction
deriving DecidableEq

/-- `counts[key] = counts.get(key, 0) + 1`, hit after hit. -/
def countHits (group : Text → Text) (action : EntityAction)
    (counts : Dict (Text × EntityAction) Nat) (hits : List (Hit Char)) :
    Dict (Text × EntityAction) Nat :=
  hits.foldl (fun counts hit =>
    let key := (group hit.2, action)
    counts.set key ((counts.get? key).getD 0 + 1)) counts

/-- The counts of one message added to those of the messages before it. -/
def countMessage (counts : Dict (Text × EntityAction) Nat)
    (message : Text) : Dict (Text × EntityAction) Nat :=
  countHits redactionGroup .redact
    (countHits tokenGroup .tokenize counts (scan matchToken message))
    (scan matchRedaction message)

/-- Count what was applied, per entity type, by reading the tokens. -/
def appliedActions (messages : List Text) : List ProtectedEntitySummary :=
  let counts := messages.foldl countMessage []
  let ordered := counts.insertionSort (fun a b =>
    b.2 < a.2 ∨ (a.2 = b.2 ∧ a.1.1 ≤ b.1.1))
  ordered.map (fun item => ⟨item.1.1, item.2, item.1.2⟩)

-- ==================================================== the patterns

/-- What stands in the type field of a match. -/
structure TypeField (entityType : Text) : Prop where
  chars : ∀ char ∈ entityType, isEntityTypeChar char = true
  length : 1 ≤ entityType.length ∧ entityType.length ≤ 64

theorem typeField_of_valid {entityType : Text}
    (h : isValidEntityType entityType = true) : TypeField entityType :=
  ⟨isEntityTypeChar_of_valid h, length_of_validEntityType h⟩

/-- The field ends at the first character outside its class. -/
theorem takeWhile_field {entityType : Text} {stop : Char}
    (h : ∀ char ∈ entityType, isEntityTypeChar char = true)
    (hstop : isEntityTypeChar stop = false) (rest : Text) :
    (entityType ++ stop :: rest).takeWhile isEntityTypeChar =
      entityType := by
  rw [List.takeWhile_append_of_pos h,
    List.takeWhile_cons_of_neg (by rw [hstop]; exact Bool.noConfusion),
    List.append_nil]

theorem renderRedaction_eq (entityType rest : Text) :
    renderRedaction entityType ++ rest =
      redactionOpening ++ (entityType ++ rightDelimiter :: rest) := by
  simp [renderRedaction, redactionOpening]

theorem renderToken_eq (entityType tokenId rest : Text) :
    renderToken entityType tokenId ++ rest =
      tokenOpening ++ (entityType ++ fieldSeparator ::
        (tokenId ++ rightDelimiter :: rest)) := by
  simp [renderToken, tokenOpening]

theorem length_renderRedaction (entityType : Text) :
    (renderRedaction entityType).length = entityType.length + 15 := by
  simp [renderRedaction, tokenNamespace, redactedMarker]

theorem matchRedaction_render {entityType : Text} (h : TypeField entityType)
    (rest : Text) :
    matchRedaction (renderRedaction entityType ++ rest) =
      some (renderRedaction entityType).length := by
  unfold matchRedaction
  rw [renderRedaction_eq, if_pos (by simp), List.drop_left]
  simp only [takeWhile_field h.chars (by decide : isEntityTypeChar
    rightDelimiter = false), List.drop_left]
  rw [if_pos ⟨h.length.1, h.length.2, rfl⟩]

theorem of_matchRedaction {text : Text} {n : Nat}
    (h : matchRedaction text = some n) :
    ∃ entityType rest, TypeField entityType ∧
      text = renderRedaction entityType ++ rest ∧
      n = (renderRedaction entityType).length := by
  unfold matchRedaction at h
  split at h
  · rename_i hopen
    obtain ⟨rest, rfl⟩ := List.isPrefixOf_iff_prefix.mp hopen
    rw [List.drop_left] at h
    simp only at h
    split at h
    · rename_i hshape
      obtain ⟨hmin, hmax, hright⟩ := hshape
      cases h
      generalize htype : rest.takeWhile isEntityTypeChar = entityType at *
      have hprefixed : entityType <+: rest := by
        rw [← htype]
        exact List.takeWhile_prefix _
      obtain ⟨tail, rfl⟩ := hprefixed
      rw [List.drop_left] at hright
      cases tail with
      | nil => cases hright
      | cons char tail =>
          cases hright
          refine ⟨entityType, tail, ⟨?_, hmin, hmax⟩, ?_, rfl⟩
          · rw [← htype]
            intro char hchar
            exact List.mem_takeWhile_imp hchar
          · rw [renderRedaction_eq]
    · cases h
  · cases h

@[simp] theorem tokenGroup_render {entityType tokenId : Text}
    (h : ∀ char ∈ entityType, isEntityTypeChar char = true) :
    tokenGroup (renderToken entityType tokenId) = entityType := by
  have hsplit := renderToken_eq entityType tokenId []
  rw [List.append_nil] at hsplit
  unfold tokenGroup
  rw [hsplit, List.drop_left]
  exact takeWhile_field h (by decide) _

@[simp] theorem redactionGroup_render {entityType : Text}
    (h : ∀ char ∈ entityType, isEntityTypeChar char = true) :
    redactionGroup (renderRedaction entityType) = entityType := by
  have hsplit := renderRedaction_eq entityType []
  rw [List.append_nil] at hsplit
  unfold redactionGroup
  rw [hsplit, List.drop_left]
  exact takeWhile_field h (by decide) _

theorem matchToken_headed : Headed leftDelimiter matchToken where
  bounded := matchToken_bounded
  head _ _ h := head_of_matchToken h
  once text n h := by
    obtain ⟨entityType, tokenId, rest, hshape, rfl, rfl⟩ :=
      of_matchToken h
    rw [List.take_left]
    exact leftDelimiter_not_mem_tail hshape.type_chars
      (isCrockfordChar_of_valid hshape.id_valid)
  closed text n h r := by
    obtain ⟨entityType, tokenId, rest, hshape, rfl, rfl⟩ :=
      of_matchToken h
    rw [List.take_left]
    exact matchToken_render hshape r

theorem matchRedaction_headed : Headed leftDelimiter matchRedaction where
  bounded text n h := by
    obtain ⟨entityType, rest, -, rfl, rfl⟩ := of_matchRedaction h
    rw [length_renderRedaction, List.length_append, length_renderRedaction]
    omega
  head text n h := by
    obtain ⟨entityType, rest, -, rfl, -⟩ := of_matchRedaction h
    rfl
  once text n h := by
    obtain ⟨entityType, rest, hshape, rfl, rfl⟩ := of_matchRedaction h
    rw [List.take_left]
    exact leftDelimiter_not_mem_redaction hshape.chars
  closed text n h r := by
    obtain ⟨entityType, rest, hshape, rfl, rfl⟩ := of_matchRedaction h
    rw [List.take_left]
    exact matchRedaction_render hshape r

end PrivacyGateway.Pipeline
