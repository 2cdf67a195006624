/-
Turning bytes into the text of pages, one supported type at a time.

The parsers are not part of this repository: `Parsers` is what they find in
a file. Every extractor counts something against the character limit, and
no two count the same: a text file its bytes and then its characters, a PDF
the characters of its pages, and a Word document the characters of its
blocks with a separator after each. The buffer is joined later, by
`buildExtractedDocument`.
-/
import PrivacyGateway.Documents.Extraction
import PrivacyGateway.Documents.Validation
import PrivacyGateway.Unicode

namespace PrivacyGateway.Documents

/-- Uncompressed-to-compressed ratio a DOCX may not exceed. -/
def maxZipExpansionRatio : Nat := 200

/-- A DOCX with more members than this is refused. -/
def maxZipEntries : Nat := 2048

def docxParagraphSeparator : Text := ['\n']

structure ZipEntry where
  fileSize : Nat
  compressSize : Nat

/-- What the PDF parser makes of a file; a page is none when its text
cannot be read. -/
inductive PdfReading
  | unreadable
  | malformed
  | reader (isEncrypted : Bool) (pages : List (Option Text))

/-- A child of a Word document's body. -/
inductive DocxChild
  | paragraph (text : Text)
  | table (rows : List (List Text))
  | other
  | malformed

/-- The parsers, as what they find in the bytes of a file. -/
structure Parsers where
  pdf : Bytes → PdfReading
  zip : Bytes → Option (List ZipEntry)
  docx : Bytes → Option (List DocxChild)

def extractionFailed (text : String) : Exn :=
  gatewayError .documentExtractionFailed (reason text)

-- ==================================================== guards

def guardLength (count : Nat) (limit : Int) : Except Exn Unit :=
  if (count : Int) > limit then
    .error (gatewayError .documentExtractionFailed
      (reason "extracted_text_over_limit" ++ [("limit", .int limit)]))
  else .ok ()

/-- `round(uncompressed / compressed)`: a tie goes to the even side. -/
def roundedRatio (uncompressed compressed : Nat) : Nat :=
  let whole := uncompressed / compressed
  let rest := 2 * (uncompressed % compressed)
  if rest < compressed then whole
  else if rest > compressed then whole + 1
  else if whole % 2 = 0 then whole
  else whole + 1

/-- Refuse an archive shaped like a bomb, from its directory. -/
def guardZip (parsers : Parsers) (data : Bytes) : Except Exn Unit :=
  match parsers.zip data with
  | none => .error (extractionFailed "docx_not_a_zip")
  | some entries =>
      if entries.length > maxZipEntries then
        .error (extractionFailed "docx_too_many_entries")
      else
        let uncompressed := (entries.map ZipEntry.fileSize).sum
        let compressed := (entries.map ZipEntry.compressSize).sum
        if compressed > 0 ∧
            uncompressed > maxZipExpansionRatio * compressed then
          .error (gatewayError .documentExtractionFailed
            (reason "docx_expansion_ratio_exceeded" ++
              [("ratio", .int (roundedRatio uncompressed compressed))]))
        else .ok ()

-- ==================================================== the extractors

/-- Decode a text file: the guard on its bytes, and then on its
characters. -/
def extractTxt (data : Bytes) (maxCharacters : Int) :
    Except Exn (List Text) := do
  guardLength data.length maxCharacters
  match decodeUtf8 data with
  | none => throw (extractionFailed "text_not_utf8")
  | some text =>
      guardLength text.length maxCharacters
      return [text]

/-- The loop over the pages of a PDF. -/
def pdfPages (maxCharacters : Int) :
    List (Option Text) → List Text → Nat → Except Exn (List Text)
  | [], pages, _ => .ok pages
  | none :: _, pages, _ =>
      .error (gatewayError .documentExtractionFailed
        (reason "pdf_page_unreadable" ++ [("page", .int (pages.length + 1))]))
  | some text :: rest, pages, running => do
      guardLength (running + text.length) maxCharacters
      pdfPages maxCharacters rest (pages ++ [text]) (running + text.length)

def extractPdf (parsers : Parsers) (data : Bytes) (maxCharacters : Int) :
    Except Exn (List Text) :=
  match parsers.pdf data with
  | .unreadable => .error (extractionFailed "pdf_unreadable")
  | .malformed => .error (extractionFailed "pdf_malformed")
  | .reader isEncrypted found =>
      if isEncrypted then .error (extractionFailed "pdf_encrypted")
      else
        match pdfPages maxCharacters found [] 0 with
        | .error e => .error e
        | .ok pages =>
            if pages = [] then .error (extractionFailed "pdf_no_pages")
            else .ok pages

/-- Flatten a table to text, row by row. -/
def tableText (unicode : Unicode) (rows : List (List Text)) : Text :=
  let cells := rows.map (fun row => row.map unicode.strip)
  ['\n'].intercalate
    ((cells.filter (fun row => row.any (fun cell => !cell.isEmpty))).map
      ['\t'].intercalate)

/-- The text of a child, if it is of a kind that has one. -/
def childText (unicode : Unicode) : DocxChild → Except Exn (Option Text)
  | .paragraph text => .ok (some text)
  | .table rows => .ok (some (tableText unicode rows))
  | .other => .ok none
  | .malformed => .error (extractionFailed "docx_malformed")

/-- The loop over the body of a Word document. -/
def docxBlocks (unicode : Unicode) (maxCharacters : Int) :
    List DocxChild → List Text → Nat → Except Exn (List Text)
  | [], blocks, _ => .ok blocks
  | child :: rest, blocks, running =>
      match childText unicode child with
      | .error e => .error e
      | .ok none => docxBlocks unicode maxCharacters rest blocks running
      | .ok (some text) =>
          if text = [] then
            docxBlocks unicode maxCharacters rest blocks running
          else do
            let running :=
              running + (text.length + docxParagraphSeparator.length)
            guardLength running maxCharacters
            docxBlocks unicode maxCharacters rest (blocks ++ [text]) running

def extractDocx (unicode : Unicode) (parsers : Parsers) (data : Bytes)
    (maxCharacters : Int) : Except Exn (List Text) := do
  guardZip parsers data
  match parsers.docx data with
  | none => throw (extractionFailed "docx_unreadable")
  | some children =>
      let blocks ← docxBlocks unicode maxCharacters children [] 0
      return [docxParagraphSeparator.intercalate blocks]

def extractors (unicode : Unicode) (parsers : Parsers) :
    Dict Text (Bytes → Int → Except Exn (List Text)) :=
  [(contentTypeTxt, extractTxt), (contentTypePdf, extractPdf parsers),
    (contentTypeDocx, extractDocx unicode parsers)]

/-- Extract one document into per-page text. -/
def extractText (unicode : Unicode) (parsers : Parsers) (data : Bytes)
    (contentType : Text) (maxCharacters : Int) : Except Exn (List Text) :=
  match (extractors unicode parsers).get? contentType with
  | none => .error (extractionFailed "content_type_not_extractable")
  | some extractor =>
      if maxCharacters ≤ 0 then
        .error (extractionFailed "character_limit_invalid")
      else extractor data maxCharacters

/-- The runner: extraction, and the buffer joined from what it returns. -/
def runExtraction (unicode : Unicode) (parsers : Parsers) (data : Bytes)
    (contentType : Text) (maxCharacters : Int) :
    Except Exn ExtractedDocument := do
  let pages ← extractText unicode parsers data contentType maxCharacters
  buildExtractedDocument pages ['\n']

end PrivacyGateway.Documents
