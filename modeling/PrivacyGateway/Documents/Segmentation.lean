/-
Extracted documents and the segments cut from them.

One text buffer holds a document; pages and segments are half-open ranges
into it. The page ranges tile the buffer, and that is a field of the
document, as the constructor's checks make it.
-/
import PrivacyGateway.Domain
import PrivacyGateway.Lib.Splice

namespace PrivacyGateway.Documents

open Splice

-- ==================================================== extraction

/-- One page, as a half-open range into the document's text buffer. -/
structure PageRef where
  number : Nat
  start : Nat
  stop : Nat
  number_pos : 1 ≤ number
  range_forward : start ≤ stop
deriving DecidableEq

/-- Each page starts where the last one ended, and the last one ends at
`limit`. -/
def PagesTile (limit : Nat) : Nat → List PageRef → Prop
  | expected, [] => expected = limit
  | expected, page :: pages =>
      page.start = expected ∧ PagesTile limit page.stop pages

instance pagesTileDecidable (limit : Nat) :
    ∀ (expected : Nat) (pages : List PageRef),
      Decidable (PagesTile limit expected pages)
  | expected, [] => inferInstanceAs (Decidable (expected = limit))
  | expected, page :: pages =>
      have := pagesTileDecidable limit page.stop pages
      inferInstanceAs (Decidable (page.start = expected ∧ _))

/-- The text of one document, plus where its pages fall within it. -/
structure ExtractedDocument where
  text : Text
  pages : List PageRef
  pages_nonempty : pages ≠ []
  pages_tile : PagesTile text.length 0 pages
deriving DecidableEq

/-- Page numbers touched by a half-open span of the buffer. -/
def ExtractedDocument.pagesCovering (document : ExtractedDocument)
    (start stop : Nat) : Except Exn (List Nat) :=
  if stop < start then
    .error (gatewayError .documentExtractionFailed (reason "span_invalid"))
  else if start = stop then
    .ok ((document.pages.filter (fun page =>
      decide (page.start ≤ start ∧ start < page.stop))).map PageRef.number)
  else
    .ok ((document.pages.filter (fun page =>
      decide (page.start < stop ∧ start < page.stop))).map PageRef.number)

-- ==================================================== segments

/-- One piece of a document, as a half-open range into its buffer. -/
@[ext]
structure Segment where
  index : Nat
  start : Nat
  stop : Nat
  pages : List Nat
  range_forward : start < stop

instance : DecidableEq Segment := fun _ _ =>
  decidable_of_iff _ Segment.ext_iff.symm

def Segment.length (segment : Segment) : Nat :=
  segment.stop - segment.start

/-- Map an offset within the segment's text to a document offset. -/
def Segment.toGlobal (segment : Segment) (offset : Nat) :
    Except Exn Nat :=
  if offset > segment.length then
    .error (gatewayError .documentExtractionFailed
      (reason "offset_out_of_segment"))
  else .ok (segment.start + offset)

/-- An extracted document and the segments cut from it. -/
structure SegmentedDocument where
  document : ExtractedDocument
  segments : List Segment
deriving DecidableEq

/-- The text of one segment. -/
def SegmentedDocument.textOf (segmented : SegmentedDocument)
    (segment : Segment) : Text :=
  slice segmented.document.text segment.start segment.stop

theorem length_textOf_le (segmented : SegmentedDocument)
    (segment : Segment) :
    (segmented.textOf segment).length ≤ segment.length := by
  unfold SegmentedDocument.textOf Segment.length
  rw [length_slice]
  omega

end PrivacyGateway.Documents
