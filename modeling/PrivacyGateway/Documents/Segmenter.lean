/-
Cutting an extracted document into pieces a detector can handle.

A segment ends at the last break in the tail of its window: a paragraph
break if there is one, else a line break, a sentence end, a space. A break
inside the previous segment is passed over, and where no break is left the
window is cut hard. The next segment starts an overlap before that end,
and at least one character after this one started.
-/
import PrivacyGateway.Documents.Segmentation
import PrivacyGateway.Lib.Find

namespace PrivacyGateway.Documents

open Find

def breakPatterns : List Text :=
  ["\n\n".toList, "\n".toList, ". ".toList, " ".toList]

/-- The offset in a window from which on a break is sought:
`max(1, int(size * 0.75))`. The product is exact on every size that a text
can exceed. -/
def breakFloor (maxCharacters : Nat) : Nat :=
  max 1 (3 * maxCharacters / 4)

/-- Cuts a document into overlapping segments. -/
@[ext]
structure Segmenter where
  maxCharacters : Nat
  overlap : Nat
  max_pos : 1 ≤ maxCharacters
  overlap_lt : overlap < maxCharacters

instance : DecidableEq Segmenter := fun _ _ =>
  decidable_of_iff _ Segmenter.ext_iff.symm

/-- The constructor's checks. -/
def Segmenter.new (maxCharacters overlapCharacters : Int) :
    Except Exn Segmenter :=
  if hmax : maxCharacters < 1 then
    .error (.value "max_characters must be at least 1")
  else if hneg : overlapCharacters < 0 then
    .error (.value "overlap_characters cannot be negative")
  else if hlt : overlapCharacters ≥ maxCharacters then
    .error (.value "overlap_characters must be smaller than max_characters")
  else .ok
    { maxCharacters := maxCharacters.toNat
      overlap := overlapCharacters.toNat
      max_pos := by omega
      overlap_lt := by omega }

/-- The end of the first usable break, in order of preference: the last
one of its kind in the window, unless it ends inside the previous
segment. -/
def usableBreak (text : Text) (floor limit minimumEnd : Nat) :
    List Text → Option Nat
  | [] => none
  | pattern :: patterns =>
      match rfind pattern text floor limit with
      | none => usableBreak text floor limit minimumEnd patterns
      | some found =>
          if found + pattern.length > minimumEnd then
            some (found + pattern.length)
          else usableBreak text floor limit minimumEnd patterns

namespace Segmenter

variable (segmenter : Segmenter)

/-- The break that ends a segment early, if there is one. -/
def earlyBreak (text : Text) (start minimumEnd : Nat) : Option Nat :=
  usableBreak text (start + breakFloor segmenter.maxCharacters)
    (start + segmenter.maxCharacters) minimumEnd breakPatterns

/-- Where this segment ends: at a break if there is a usable one. -/
def endOfSegment (text : Text) (start minimumEnd : Nat) : Nat :=
  if start + segmenter.maxCharacters ≥ text.length then text.length
  else (segmenter.earlyBreak text start minimumEnd).getD
    (start + segmenter.maxCharacters)

/-- Where the segment after one that starts and ends there starts. -/
def nextStart (start stop : Nat) : Nat :=
  max (stop - segmenter.overlap) (start + 1)

end Segmenter

/-- The segment's own checks on its range. -/
def Segment.new (index start stop : Nat) (pages : List Nat) :
    Except Exn Segment :=
  if hrange : start < stop then .ok ⟨index, start, stop, pages, hrange⟩
  else .error (gatewayError .documentExtractionFailed
    (reason "segment_range_invalid"))

namespace Segmenter

variable (segmenter : Segmenter)

/-- The loop, from a start and the end of the segment before it. -/
def segmentFrom (document : ExtractedDocument)
    (index start previousEnd : Nat) : Except Exn (List Segment) :=
  if start < document.text.length then
    let stop := segmenter.endOfSegment document.text start previousEnd
    match document.pagesCovering start stop with
    | .error e => .error e
    | .ok pages =>
        match Segment.new index start stop pages with
        | .error e => .error e
        | .ok segment =>
            if stop ≥ document.text.length then .ok [segment]
            else
              match segmentFrom document (index + 1)
                  (segmenter.nextStart start stop) stop with
              | .error e => .error e
              | .ok segments => .ok (segment :: segments)
  else .ok []
termination_by document.text.length - start
decreasing_by
  unfold nextStart
  omega

/-- Cut a document into ordered, overlapping segments. -/
def segment (document : ExtractedDocument) :
    Except Exn SegmentedDocument :=
  if document.text = [] then
    .error (gatewayError .documentExtractionFailed
      (reason "no_extractable_text"))
  else
    match segmenter.segmentFrom document 0 0 0 with
    | .error e => .error e
    | .ok segments => .ok ⟨document, segments⟩

end Segmenter

end PrivacyGateway.Documents
