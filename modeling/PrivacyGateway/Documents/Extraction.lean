/-
Joining the text of pages into one buffer.

The separator belongs to the page that precedes it, so the pages are
contiguous as the constructor asks. A page without text still occupies its
separator; only the last page of a document can be empty.
-/
import PrivacyGateway.Documents.Segmentation

namespace PrivacyGateway.Documents

/-- The index of the first page that breaks the chain. -/
def pageFault : Nat → Nat → List PageRef → Option Nat
  | _, _, [] => none
  | index, expected, page :: pages =>
      if page.start ≠ expected then some index
      else pageFault (index + 1) page.stop pages

/-- The constructor's checks. -/
def ExtractedDocument.new (text : Text) (pages : List PageRef) :
    Except Exn ExtractedDocument :=
  if hpages : pages = [] then
    .error (gatewayError .documentExtractionFailed (reason "no_pages"))
  else if htile : PagesTile text.length 0 pages then
    .ok ⟨text, pages, hpages, htile⟩
  else
    match pageFault 0 0 pages with
    | some index =>
        .error (gatewayError .documentExtractionFailed
          [("reason", .text "pages_not_contiguous".toList),
            ("page_index", .int index)])
    | none =>
        .error (gatewayError .documentExtractionFailed
          (reason "pages_do_not_cover_text"))

/-- Every page but the last is followed by a separator. -/
def pagePieces (separator : Text) : List Text → List Text
  | [] => []
  | [last] => [last]
  | pageText :: pageTexts =>
      (pageText ++ separator) :: pagePieces separator pageTexts

/-- Where each piece lands. -/
def pagesFrom : Nat → Nat → List Text → List PageRef
  | _, _, [] => []
  | index, cursor, piece :: pieces =>
      { number := index + 1
        start := cursor
        stop := cursor + piece.length
        number_pos := by omega
        range_forward := by omega } ::
          pagesFrom (index + 1) (cursor + piece.length) pieces

/-- Join per-page text into one buffer. -/
def buildExtractedDocument (pageTexts : List Text) (separator : Text) :
    Except Exn ExtractedDocument :=
  if pageTexts = [] then
    .error (gatewayError .documentExtractionFailed (reason "no_pages"))
  else
    ExtractedDocument.new (pagePieces separator pageTexts).flatten
      (pagesFrom 0 0 (pagePieces separator pageTexts))

-- ==================================================== what is built

theorem new_ok {text : Text} {pages : List PageRef}
    {document : ExtractedDocument}
    (h : ExtractedDocument.new text pages = .ok document) :
    document.text = text ∧ document.pages = pages := by
  unfold ExtractedDocument.new at h
  split at h
  · cases h
  · split at h
    · cases h
      exact ⟨rfl, rfl⟩
    · split at h <;> cases h

theorem pagesFrom_tile (pieces : List Text) (index cursor : Nat) :
    PagesTile (cursor + pieces.flatten.length) cursor
      (pagesFrom index cursor pieces) := by
  induction pieces generalizing index cursor with
  | nil => exact (Nat.add_zero cursor).symm
  | cons piece pieces ih =>
      refine ⟨rfl, ?_⟩
      have hrest := ih (index + 1) (cursor + piece.length)
      rw [List.flatten_cons, List.length_append, ← Nat.add_assoc]
      exact hrest

/-- Pages are always contiguous: a document is built of any pages. -/
theorem buildExtractedDocument_ok {pageTexts : List Text} {separator : Text}
    (h : pageTexts ≠ []) :
    ∃ document, buildExtractedDocument pageTexts separator =
      .ok document := by
  unfold buildExtractedDocument ExtractedDocument.new
  have htile := pagesFrom_tile (pagePieces separator pageTexts) 0 0
  rw [Nat.zero_add] at htile
  have hpages : pagesFrom 0 0 (pagePieces separator pageTexts) ≠ [] := by
    cases pageTexts with
    | nil => exact absurd rfl h
    | cons pageText pageTexts =>
        cases pageTexts with
        | nil => exact List.cons_ne_nil _ _
        | cons next pageTexts => exact List.cons_ne_nil _ _
  rw [if_neg h, dif_neg hpages, dif_pos htile]
  exact ⟨_, rfl⟩

/-- Of pages with a separator between them, only one at the end of the
buffer is empty. -/
theorem pagesFrom_nonempty {separator : Text} (hseparator : separator ≠ [])
    (pageTexts : List Text) (index cursor : Nat) :
    ∀ page ∈ pagesFrom index cursor (pagePieces separator pageTexts),
      page.start < page.stop ∨ page.start = cursor +
        (pagePieces separator pageTexts).flatten.length := by
  induction pageTexts generalizing index cursor with
  | nil => exact fun page hpage => nomatch hpage
  | cons pageText pageTexts ih =>
      cases pageTexts with
      | nil =>
          intro page hpage
          obtain rfl := List.mem_singleton.mp hpage
          show cursor < cursor + pageText.length ∨
            cursor = cursor + [pageText].flatten.length
          rw [List.flatten_singleton]
          omega
      | cons next pageTexts =>
          intro page hpage
          have hlength := List.length_pos_iff.mpr hseparator
          rcases List.mem_cons.mp hpage with rfl | hpage
          · left
            show cursor < cursor + (pageText ++ separator).length
            rw [List.length_append]
            omega
          · rcases ih _ _ page hpage with hforward | hlast
            · exact Or.inl hforward
            · right
              show page.start = cursor + ((pageText ++ separator) ::
                pagePieces separator (next :: pageTexts)).flatten.length
              rw [hlast, List.flatten_cons,
                @List.length_append _ (pageText ++ separator), Nat.add_assoc]

theorem pages_of_build {pageTexts : List Text} {separator : Text}
    {document : ExtractedDocument} (hseparator : separator ≠ [])
    (h : buildExtractedDocument pageTexts separator = .ok document) :
    ∀ page ∈ document.pages,
      page.start < page.stop ∨ page.start = document.text.length := by
  unfold buildExtractedDocument at h
  split at h
  · cases h
  · obtain ⟨htext, hpages⟩ := new_ok h
    rw [htext, hpages]
    intro page hpage
    have hnonempty := pagesFrom_nonempty hseparator pageTexts 0 0 page hpage
    rwa [Nat.zero_add] at hnonempty

end PrivacyGateway.Documents
