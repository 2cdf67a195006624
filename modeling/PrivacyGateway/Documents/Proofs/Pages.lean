/-
Page ranges tile the extracted text.

The builder lays one piece after the other, so the ranges of the pages
read the pieces back (`texts_of_pagesFrom`) and the numbers count them
(`numbers_of_pagesFrom`). The query reports the pages whose ranges meet a
span: a separator between the pages leaves no empty page but one at the
end of the buffer, and a range that is not empty ends before it starts
(`pages_of_span`).
-/
import PrivacyGateway.Documents.Proofs.Checkpoint

namespace PrivacyGateway.Documents

open Splice

/-- The text of one page, read off its range. -/
def ExtractedDocument.pageText (document : ExtractedDocument)
    (page : PageRef) : Text :=
  slice document.text page.start page.stop

-- ==================================================== pieces

@[simp] theorem length_pagePieces (separator : Text)
    (pageTexts : List Text) :
    (pagePieces separator pageTexts).length = pageTexts.length := by
  induction pageTexts with
  | nil => rfl
  | cons pageText pageTexts ih =>
      cases pageTexts with
      | nil => rfl
      | cons next pageTexts =>
          show (pagePieces separator (next :: pageTexts)).length + 1 = _
          rw [ih]
          rfl

/-- The piece of a page: its text, and a separator on all but the last. -/
theorem getElem?_pagePieces (separator : Text) (pageTexts : List Text) :
    ∀ i pageText, pageTexts[i]? = some pageText →
      (pagePieces separator pageTexts)[i]? = some (pageText ++
        if i + 1 = pageTexts.length then [] else separator) := by
  induction pageTexts with
  | nil => exact fun i pageText h => nomatch h
  | cons first pageTexts ih =>
      intro i pageText h
      cases pageTexts with
      | nil =>
          cases i with
          | zero =>
              cases h
              show some first = some (first ++ [])
              rw [List.append_nil]
          | succ i => cases h
      | cons next pageTexts =>
          cases i with
          | zero =>
              cases h
              rw [if_neg (by simp)]
              rfl
          | succ i =>
              have hrest := ih i pageText h
              simp only [List.length_cons, Nat.add_right_cancel_iff] at hrest ⊢
              exact hrest

-- ==================================================== ranges

theorem numbers_of_pagesFrom (pieces : List Text) (index cursor : Nat) :
    (pagesFrom index cursor pieces).map PageRef.number =
      List.range' (index + 1) pieces.length := by
  induction pieces generalizing index cursor with
  | nil => rfl
  | cons piece pieces ih =>
      rw [List.length_cons, List.range'_succ]
      exact congrArg _ (ih (index + 1) (cursor + piece.length))

/-- The ranges read back the pieces they were laid for. -/
theorem texts_of_pagesFrom (pieces : List Text) :
    ∀ (before : Text) (index : Nat),
      (pagesFrom index before.length pieces).map (fun page =>
        slice (before ++ pieces.flatten) page.start page.stop) =
          pieces := by
  induction pieces with
  | nil => exact fun before index => rfl
  | cons piece pieces ih =>
      intro before index
      have hfirst : slice (before ++ (piece :: pieces).flatten)
          before.length (before.length + piece.length) = piece := by
        rw [slice_append_left, List.flatten_cons, List.take_left]
      have hrest := ih (before ++ piece) (index + 1)
      rw [List.length_append, List.append_assoc,
        ← List.flatten_cons] at hrest
      show slice _ before.length (before.length + piece.length) ::
        (pagesFrom (index + 1) (before.length + piece.length)
          pieces).map _ = _
      rw [hfirst, hrest]

-- ==================================================== what is built

theorem build_eq {pageTexts : List Text} {separator : Text}
    {document : ExtractedDocument}
    (h : buildExtractedDocument pageTexts separator = .ok document) :
    document.text = (pagePieces separator pageTexts).flatten ∧
      document.pages =
        pagesFrom 0 0 (pagePieces separator pageTexts) := by
  unfold buildExtractedDocument at h
  split at h
  · cases h
  · exact new_ok h

variable {pageTexts : List Text} {separator : Text}
  {document : ExtractedDocument}

theorem numbers_of_build
    (h : buildExtractedDocument pageTexts separator = .ok document) :
    document.pages.map PageRef.number =
      List.range' 1 pageTexts.length := by
  rw [(build_eq h).2, numbers_of_pagesFrom, length_pagePieces]

theorem pageText_of_build
    (h : buildExtractedDocument pageTexts separator = .ok document)
    {i : Nat} {pageText : Text} (hi : pageTexts[i]? = some pageText) :
    ∃ page, document.pages[i]? = some page ∧
      document.pageText page = pageText ++
        if i + 1 = pageTexts.length then [] else separator := by
  obtain ⟨htext, hpages⟩ := build_eq h
  have hread := texts_of_pagesFrom (pagePieces separator pageTexts) [] 0
  rw [List.nil_append, List.length_nil, ← hpages, ← htext] at hread
  have hpiece := getElem?_pagePieces separator pageTexts i pageText hi
  rw [← hread, List.getElem?_map, Option.map_eq_some_iff] at hpiece
  exact hpiece

/-- What a query reports: the pages a span shares a character with, each
once and in order. -/
structure CoveringPages (document : ExtractedDocument) (start stop : Nat)
    (numbers : List Nat) : Prop where
  nonempty : numbers ≠ []
  ascending : numbers.Pairwise (· < ·)
  exact : ∀ number, number ∈ numbers ↔
    ∃ page ∈ document.pages, page.number = number ∧
      page.Shares start stop

theorem coveringPages_of_build (hseparator : separator ≠ [])
    (h : buildExtractedDocument pageTexts separator = .ok document)
    {start stop : Nat} (hforward : start < stop)
    (hstop : stop ≤ document.text.length) :
    ∃ numbers, document.pagesCovering start stop = .ok numbers ∧
      CoveringPages document start stop numbers := by
  have hspan := pages_of_span (pages_of_build hseparator h) hforward hstop
  obtain ⟨numbers, hcovering, hnonempty⟩ :=
    pagesCovering_total document hforward hstop
  have hnumbers : numbers = (document.pages.filter (fun page =>
      decide (page.Shares start stop))).map PageRef.number :=
    Except.ok.inj (hcovering.symm.trans hspan)
  refine ⟨numbers, hcovering, hnonempty, ?_, ?_⟩
  · have hordered : (document.pages.map PageRef.number).Pairwise
        (· < ·) := by
      rw [numbers_of_build h]
      exact List.pairwise_lt_range'
    rw [hnumbers]
    exact hordered.sublist (List.filter_sublist.map PageRef.number)
  · intro number
    rw [hnumbers]
    constructor
    · intro hmem
      obtain ⟨page, hpage, rfl⟩ := List.mem_map.mp hmem
      obtain ⟨hpage, hshares⟩ := List.mem_filter.mp hpage
      exact ⟨page, hpage, rfl, of_decide_eq_true hshares⟩
    · rintro ⟨page, hpage, rfl, hshares⟩
      exact List.mem_map_of_mem
        (List.mem_filter.mpr ⟨hpage, decide_eq_true hshares⟩)

/-- Any pages are built into one buffer that they tile, numbered from one,
each to be read back from its range; and a span of the buffer is on the
pages whose ranges it meets. -/
theorem pages_tile_text (pageTexts : List Text) (separator : Text)
    (hpages : pageTexts ≠ []) (hseparator : separator ≠ []) :
    ∃ document, buildExtractedDocument pageTexts separator = .ok document ∧
      PagesTile document.text.length 0 document.pages ∧
      document.pages.map PageRef.number =
        List.range' 1 pageTexts.length ∧
      (∀ i pageText, pageTexts[i]? = some pageText →
        ∃ page, document.pages[i]? = some page ∧
          document.pageText page = pageText ++
            if i + 1 = pageTexts.length then [] else separator) ∧
      ∀ start stop, start < stop → stop ≤ document.text.length →
        ∃ numbers, document.pagesCovering start stop = .ok numbers ∧
          CoveringPages document start stop numbers := by
  obtain ⟨document, hbuild⟩ := buildExtractedDocument_ok hpages
  exact ⟨document, hbuild, document.pages_tile, numbers_of_build hbuild,
    fun _ _ => pageText_of_build hbuild,
    fun _ _ => coveringPages_of_build hseparator hbuild⟩

/-- Three pages, the second without text: it is read back as its
separator. -/
theorem pages_tile_text_threePages :
    ∃ document, buildExtractedDocument
        ["Hi".toList, [], "a@b.co".toList] "\n".toList = .ok document ∧
      ∃ page, document.pages[1]? = some page ∧
        document.pageText page = "\n".toList := by
  obtain ⟨document, hbuild, -, -, htexts, -⟩ := pages_tile_text
    ["Hi".toList, [], "a@b.co".toList] "\n".toList
    (List.cons_ne_nil _ _) (by decide)
  obtain ⟨page, hpage, htext⟩ := htexts 1 [] rfl
  exact ⟨document, hbuild, page, hpage, htext⟩

end PrivacyGateway.Documents
