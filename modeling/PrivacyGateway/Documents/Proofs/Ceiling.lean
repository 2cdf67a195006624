/-
The character limit of extraction, against the buffer it bounds.

What an extractor counts is compared with the length of the text that is
joined from its pages. The counts differ from it by type: a text file has
more bytes than characters, a PDF has separators between its pages that
nobody counts, and a Word document counts one separator more than it has
(`extraction_limit_iff`).
-/
import PrivacyGateway.Documents.Extractors

namespace PrivacyGateway.Documents

-- ==================================================== joined text

theorem length_intercalate (separator : Text) (texts : List Text) :
    (separator.intercalate texts).length =
      (texts.map List.length).sum +
        separator.length * (texts.length - 1) := by
  induction texts with
  | nil => rfl
  | cons text texts ih =>
      cases texts with
      | nil => simp [List.intercalate]
      | cons next texts =>
          rw [List.intercalate_cons_cons, List.length_append,
            List.length_append, ih]
          simp only [List.map_cons, List.sum_cons, List.length_cons,
            Nat.add_sub_cancel, Nat.mul_add]
          omega

theorem flatten_pagePieces (separator : Text) (texts : List Text) :
    (pagePieces separator texts).flatten = separator.intercalate texts := by
  induction texts with
  | nil => rfl
  | cons text texts ih =>
      cases texts with
      | nil => simp [pagePieces, List.intercalate]
      | cons next texts =>
          rw [List.intercalate_cons_cons, ← ih]
          simp [pagePieces]

theorem text_of_build {pageTexts : List Text} {separator : Text}
    {document : ExtractedDocument}
    (h : buildExtractedDocument pageTexts separator = .ok document) :
    document.text = separator.intercalate pageTexts := by
  unfold buildExtractedDocument at h
  split at h
  · cases h
  · rw [(new_ok h).1, flatten_pagePieces]

-- ==================================================== the loops

theorem guardLength_ok_iff {count : Nat} {limit : Int} :
    guardLength count limit = .ok () ↔ (count : Int) ≤ limit := by
  unfold guardLength
  split
  · simp
    omega
  · simp
    omega

theorem guardLength_error {count : Nat} {limit : Int}
    (h : ¬ (count : Int) ≤ limit) :
    ∃ e, guardLength count limit = .error e := by
  unfold guardLength
  rw [if_pos (by omega)]
  exact ⟨_, rfl⟩

/-- A guard in front of the rest of a loop. -/
theorem guarded_ok_iff {count : Nat} {limit : Int} {α : Type}
    {rest : Except Exn α} {out : α} :
    (do guardLength count limit; rest) = .ok out ↔
      (count : Int) ≤ limit ∧ rest = .ok out := by
  by_cases hguard : (count : Int) ≤ limit
  · simp only [guardLength_ok_iff.mpr hguard, bind, Except.bind, hguard,
      true_and]
  · obtain ⟨e, he⟩ := guardLength_error hguard
    simp only [he, bind, Except.bind, hguard, false_and, iff_false]
    exact fun h => nomatch h

variable {limit : Int}

theorem pdfPages_ok_iff (pages : List Text) :
    ∀ {before : List Text} {running : Nat} {out : List Text},
      (running : Int) ≤ limit →
        (pdfPages limit (pages.map some) before running = .ok out ↔
          ((running + (pages.map List.length).sum : Nat) : Int) ≤ limit ∧
            out = before ++ pages) := by
  induction pages with
  | nil =>
      intro before running out hrunning
      simp [pdfPages, hrunning, eq_comm]
  | cons text pages ih =>
      intro before running out hrunning
      rw [List.map_cons, pdfPages, guarded_ok_iff]
      constructor
      · rintro ⟨hguard, hrest⟩
        obtain ⟨hsum, hout⟩ := (ih hguard).mp hrest
        rw [List.map_cons, List.sum_cons, ← Nat.add_assoc]
        exact ⟨hsum, by rw [hout]; simp⟩
      · rintro ⟨hsum, hout⟩
        rw [List.map_cons, List.sum_cons, ← Nat.add_assoc] at hsum
        have hguard : ((running + text.length : Nat) : Int) ≤ limit := by
          omega
        exact ⟨hguard, (ih hguard).mpr ⟨hsum, by rw [hout]; simp⟩⟩

/-- The texts of a body, without the empty ones. -/
def blocksOf (unicode : Unicode) (children : List DocxChild) : List Text :=
  children.filterMap (fun child =>
    match childText unicode child with
    | .ok (some text) => if text = [] then none else some text
    | _ => none)

/-- A body in which every child can be read. -/
def Readable (children : List DocxChild) : Prop :=
  ∀ child ∈ children, child ≠ .malformed

theorem childText_ok {unicode : Unicode} {child : DocxChild}
    (h : child ≠ .malformed) :
    ∃ text, childText unicode child = .ok text := by
  cases child with
  | paragraph text => exact ⟨_, rfl⟩
  | table rows => exact ⟨_, rfl⟩
  | other => exact ⟨_, rfl⟩
  | malformed => exact absurd rfl h

/-- The characters of the blocks, with a separator after each. -/
def separated (blocks : List Text) : Nat :=
  (blocks.map List.length).sum + blocks.length

theorem separated_cons (block : Text) (blocks : List Text) :
    separated (block :: blocks) = block.length + 1 + separated blocks := by
  unfold separated
  simp only [List.map_cons, List.sum_cons, List.length_cons]
  omega

theorem docxBlocks_ok_iff {unicode : Unicode} (children : List DocxChild)
    (hread : Readable children) :
    ∀ {before : List Text} {running : Nat} {out : List Text},
      (running : Int) ≤ limit →
        (docxBlocks unicode limit children before running = .ok out ↔
          ((running + separated (blocksOf unicode children) : Nat) : Int) ≤
              limit ∧ out = before ++ blocksOf unicode children) := by
  induction children with
  | nil =>
      intro before running out hrunning
      simp [docxBlocks, blocksOf, separated, hrunning, eq_comm]
  | cons child children ih =>
      intro before running out hrunning
      obtain ⟨hchild, hchildren⟩ := List.forall_mem_cons.mp hread
      obtain ⟨found, hfound⟩ := @childText_ok unicode _ hchild
      unfold docxBlocks
      rw [hfound]
      cases found with
      | none =>
          have hskip : blocksOf unicode (child :: children) =
              blocksOf unicode children := by
            unfold blocksOf
            rw [List.filterMap_cons_none (by rw [hfound])]
          rw [hskip]
          exact ih hchildren hrunning
      | some text =>
          by_cases hempty : text = []
          · have hskip : blocksOf unicode (child :: children) =
                blocksOf unicode children := by
              unfold blocksOf
              rw [List.filterMap_cons_none
                (by rw [hfound]; exact if_pos hempty)]
            rw [hskip]
            simp only [if_pos hempty]
            exact ih hchildren hrunning
          · have htake : blocksOf unicode (child :: children) =
                text :: blocksOf unicode children := by
              unfold blocksOf
              rw [List.filterMap_cons_some
                (by rw [hfound]; exact if_neg hempty)]
            rw [htake, separated_cons]
            simp only [if_neg hempty]
            rw [guarded_ok_iff]
            have hone : docxParagraphSeparator.length = 1 := rfl
            rw [hone]
            constructor
            · rintro ⟨hguard, hrest⟩
              obtain ⟨hsum, hout⟩ := (ih hchildren hguard).mp hrest
              rw [Nat.add_assoc] at hsum
              exact ⟨hsum, by rw [hout]; simp⟩
            · rintro ⟨hsum, hout⟩
              rw [← Nat.add_assoc] at hsum
              have hguard :
                  ((running + (text.length + 1) : Nat) : Int) ≤ limit := by
                omega
              exact ⟨hguard,
                (ih hchildren hguard).mpr ⟨hsum, by rw [hout]; simp⟩⟩

-- ==================================================== a file that parses

/-- What a parser finds in a file. -/
inductive Parsed
  | txt (text : Text)
  | pdf (pages : List Text)
  | docx (blocks : List Text)

/-- The text that is joined of it. -/
def Parsed.joined : Parsed → Text
  | .txt text => text
  | .pdf pages => ['\n'].intercalate pages
  | .docx blocks => ['\n'].intercalate blocks

/-- Parsing the file succeeds. -/
def Parses (unicode : Unicode) (parsers : Parsers) (data : Bytes)
    (contentType : Text) : Parsed → Prop
  | .txt text =>
      contentType = contentTypeTxt ∧ decodeUtf8 data = some text
  | .pdf pages =>
      contentType = contentTypePdf ∧ pages ≠ [] ∧
        parsers.pdf data = .reader false (pages.map some)
  | .docx blocks =>
      contentType = contentTypeDocx ∧ guardZip parsers data = .ok () ∧
        ∃ children, parsers.docx data = some children ∧
          Readable children ∧ blocks = blocksOf unicode children

/-- What is compared with the limit: the bytes of a text file, the
characters of a PDF's pages, and those of a Word document's blocks with a
separator after each. -/
def Parsed.counted (data : Bytes) : Parsed → Nat
  | .txt text => max data.length text.length
  | .pdf pages => (pages.map List.length).sum
  | .docx blocks => separated blocks

/-- The pages handed to the buffer. -/
def Parsed.pages : Parsed → List Text
  | .txt text => [text]
  | .pdf pages => pages
  | .docx blocks => [['\n'].intercalate blocks]

theorem Parsed.intercalate_pages (parsed : Parsed) :
    ['\n'].intercalate parsed.pages = parsed.joined := by
  cases parsed <;> simp [Parsed.pages, Parsed.joined, List.intercalate]

variable {unicode : Unicode} {parsers : Parsers} {data : Bytes}
  {contentType : Text} {parsed : Parsed}

theorem Parses.pages_ne_nil
    (h : Parses unicode parsers data contentType parsed) :
    parsed.pages ≠ [] := by
  cases parsed with
  | txt text => exact List.cons_ne_nil _ _
  | pdf pages => exact h.2.1
  | docx blocks => exact List.cons_ne_nil _ _

theorem extractors_txt :
    (extractors unicode parsers).get? contentTypeTxt = some extractTxt :=
  rfl

theorem extractors_pdf :
    (extractors unicode parsers).get? contentTypePdf =
      some (extractPdf parsers) :=
  rfl

theorem extractors_docx :
    (extractors unicode parsers).get? contentTypeDocx =
      some (extractDocx unicode parsers) :=
  rfl

theorem extractTxt_ok_iff {text : Text} (h : decodeUtf8 data = some text)
    {out : List Text} :
    extractTxt data limit = .ok out ↔
      ((max data.length text.length : Nat) : Int) ≤ limit ∧
        out = [text] := by
  unfold extractTxt
  rw [guarded_ok_iff, h]
  simp only
  rw [guarded_ok_iff]
  have hout : (pure [text] : Except Exn (List Text)) = .ok out ↔
      out = [text] :=
    ⟨fun heq => (Except.ok.inj heq).symm, fun heq => heq ▸ rfl⟩
  have hmax : ((max data.length text.length : Nat) : Int) ≤ limit ↔
      (data.length : Int) ≤ limit ∧ (text.length : Int) ≤ limit := by
    omega
  rw [hout, hmax, and_assoc]

theorem extractPdf_ok_iff {pages : List Text} (hlimit : 0 ≤ limit)
    (hpages : pages ≠ [])
    (h : parsers.pdf data = .reader false (pages.map some))
    {out : List Text} :
    extractPdf parsers data limit = .ok out ↔
      (((pages.map List.length).sum : Nat) : Int) ≤ limit ∧
        out = pages := by
  have hloop := @pdfPages_ok_iff limit pages [] 0
  unfold extractPdf
  rw [h]
  simp only [Bool.false_eq_true, if_false]
  cases hread : pdfPages limit (pages.map some) [] 0 with
  | error e =>
      have hover : ¬ (((pages.map List.length).sum : Nat) : Int) ≤ limit := by
        intro hle
        have hok := (hloop hlimit).mpr ⟨by simpa using hle, rfl⟩
        rw [hread] at hok
        cases hok
      exact ⟨fun heq => (nomatch heq), fun hout => absurd hout.1 hover⟩
  | ok found =>
      obtain ⟨hsum, rfl⟩ := (hloop hlimit).mp hread
      rw [Nat.zero_add] at hsum
      simp only [if_neg hpages, hsum, true_and]
      exact ⟨fun heq => (Except.ok.inj heq).symm, fun heq => heq ▸ rfl⟩

theorem extractDocx_ok_iff {children : List DocxChild} (hlimit : 0 ≤ limit)
    (hzip : guardZip parsers data = .ok ())
    (h : parsers.docx data = some children) (hread : Readable children)
    {out : List Text} :
    extractDocx unicode parsers data limit = .ok out ↔
      (separated (blocksOf unicode children) : Int) ≤ limit ∧
        out = [['\n'].intercalate (blocksOf unicode children)] := by
  have hloop := @docxBlocks_ok_iff limit unicode children hread [] 0
  unfold extractDocx
  simp only [hzip, h, bind, Except.bind]
  cases hblocks : docxBlocks unicode limit children [] 0 with
  | error e =>
      have hover :
          ¬ (separated (blocksOf unicode children) : Int) ≤ limit := by
        intro hle
        have hok := (hloop hlimit).mpr ⟨by simpa using hle, rfl⟩
        rw [hblocks] at hok
        cases hok
      exact ⟨fun heq => (nomatch heq), fun hout => absurd hout.1 hover⟩
  | ok blocks =>
      obtain ⟨hsum, rfl⟩ := (hloop hlimit).mp hblocks
      rw [Nat.zero_add] at hsum
      simp only [List.nil_append, hsum, true_and]
      exact ⟨fun heq => (Except.ok.inj heq).symm, fun heq => heq ▸ rfl⟩

/-- A file that parses is extracted exactly when what its extractor counts
is within a limit that is positive. -/
theorem extractText_ok_iff
    (h : Parses unicode parsers data contentType parsed)
    {out : List Text} :
    extractText unicode parsers data contentType limit = .ok out ↔
      1 ≤ limit ∧ (parsed.counted data : Int) ≤ limit ∧
        out = parsed.pages := by
  have hextractor : ∃ extractor,
      (extractors unicode parsers).get? contentType = some extractor ∧
        (0 ≤ limit → (extractor data limit = .ok out ↔
          (parsed.counted data : Int) ≤ limit ∧ out = parsed.pages)) := by
    cases parsed with
    | txt text =>
        obtain ⟨rfl, htext⟩ := h
        exact ⟨_, extractors_txt, fun _ => extractTxt_ok_iff htext⟩
    | pdf pages =>
        obtain ⟨rfl, hpages, hreader⟩ := h
        exact ⟨_, extractors_pdf,
          fun hlimit => extractPdf_ok_iff hlimit hpages hreader⟩
    | docx blocks =>
        obtain ⟨rfl, hzip, children, hchildren, hread, rfl⟩ := h
        exact ⟨_, extractors_docx,
          fun hlimit => extractDocx_ok_iff hlimit hzip hchildren hread⟩
  obtain ⟨extractor, hget, hextract⟩ := hextractor
  unfold extractText
  rw [hget]
  simp only
  by_cases hlimit : limit ≤ 0
  · rw [if_pos hlimit]
    have hnot : ¬ 1 ≤ limit := by omega
    simp [hnot]
  · rw [if_neg hlimit, hextract (by omega)]
    have hpos : 1 ≤ limit := by omega
    simp [hpos]

/-- The document that is built has the joined text, and it is built under
the same condition. -/
theorem runExtraction_spec
    (h : Parses unicode parsers data contentType parsed) :
    (∀ document, runExtraction unicode parsers data contentType limit =
        .ok document → document.text = parsed.joined) ∧
      ((∃ document, runExtraction unicode parsers data contentType limit =
          .ok document) ↔
        1 ≤ limit ∧ (parsed.counted data : Int) ≤ limit) := by
  unfold runExtraction
  cases hextract : extractText unicode parsers data contentType limit with
  | error e =>
      have hnot : ¬ (1 ≤ limit ∧ (parsed.counted data : Int) ≤ limit) := by
        intro ⟨hpos, hcounted⟩
        have hok := (extractText_ok_iff h).mpr ⟨hpos, hcounted, rfl⟩
        rw [hextract] at hok
        cases hok
      refine ⟨fun document hrun => (nomatch hrun), ?_⟩
      exact ⟨fun ⟨_, hrun⟩ => (nomatch hrun), fun hok => absurd hok hnot⟩
  | ok pages =>
      obtain ⟨hpos, hcounted, rfl⟩ := (extractText_ok_iff h).mp hextract
      refine ⟨fun document hrun => ?_, fun _ => ⟨hpos, hcounted⟩,
        fun _ => buildExtractedDocument_ok h.pages_ne_nil⟩
      rw [text_of_build hrun, parsed.intercalate_pages]

-- ==================================================== the ceiling

/-- The limit is not between what is counted and what is joined. -/
def LimitExact (data : Bytes) (limit : Int) (parsed : Parsed) : Prop :=
  (parsed.joined = [] → limit ≠ 0) ∧
    match parsed with
    | .txt text => ¬ ((text.length : Int) ≤ limit ∧
        limit < data.length)
    | .pdf pages => ¬ (1 ≤ limit ∧
        (((pages.map List.length).sum : Nat) : Int) ≤ limit ∧
        limit < ((pages.map List.length).sum + (pages.length - 1) : Nat))
    | .docx blocks => ¬ (blocks ≠ [] ∧
        limit = ((blocks.map List.length).sum + (blocks.length - 1) : Nat))

instance (data : Bytes) (limit : Int) (parsed : Parsed) :
    Decidable (LimitExact data limit parsed) :=
  match parsed with
  | .txt _ => inferInstanceAs (Decidable (_ ∧ _))
  | .pdf _ => inferInstanceAs (Decidable (_ ∧ _))
  | .docx _ => inferInstanceAs (Decidable (_ ∧ _))

/-- Extraction accepts the files whose joined text is within the limit, and
no others, exactly when the limit is not between what the extractor counts
and the length of the text. -/
theorem extraction_limit_iff (unicode : Unicode) (parsers : Parsers)
    (data : Bytes) (contentType : Text) (limit : Int) (parsed : Parsed)
    (h : Parses unicode parsers data contentType parsed) :
    (∀ document, runExtraction unicode parsers data contentType limit =
        .ok document → document.text = parsed.joined) ∧
      (((∃ document, runExtraction unicode parsers data contentType limit =
            .ok document) ↔ (parsed.joined.length : Int) ≤ limit) ↔
        LimitExact data limit parsed) := by
  obtain ⟨htext, hruns⟩ := @runExtraction_spec limit _ _ _ _ _ h
  refine ⟨htext, ?_⟩
  rw [hruns]
  have hempty : parsed.joined = [] ↔ parsed.joined.length = 0 :=
    List.length_eq_zero_iff.symm
  unfold LimitExact
  rw [hempty]
  cases parsed with
  | txt text =>
      simp only [Parsed.joined, Parsed.counted]
      omega
  | pdf pages =>
      have hlength := length_intercalate ['\n'] pages
      simp only [List.length_singleton, Nat.one_mul] at hlength
      simp only [Parsed.joined, Parsed.counted, hlength]
      omega
  | docx blocks =>
      have hlength := length_intercalate ['\n'] blocks
      simp only [List.length_singleton, Nat.one_mul] at hlength
      simp only [Parsed.joined, Parsed.counted, hlength, separated]
      have hblocks : blocks = [] ↔ blocks.length = 0 :=
        List.length_eq_zero_iff.symm
      simp only [Ne, hblocks]
      omega

/-- A reader that finds the same pages in every file. -/
def pdfOf (pages : List Text) : Parsers where
  pdf := fun _ => .reader false (pages.map some)
  zip := fun _ => none
  docx := fun _ => none

/-- Two pages of text, under a limit that leaves room for the separator. -/
theorem two_pages_within :
    (∃ document, runExtraction .ascii (pdfOf ["ab".toList, "cd".toList])
      [0x25] contentTypePdf 5 = .ok document) ∧
      ¬ ∃ document, runExtraction .ascii
        (pdfOf ["abc".toList, "def".toList]) [0x25] contentTypePdf 5 =
          .ok document := by
  have hshort := (extraction_limit_iff .ascii
    (pdfOf ["ab".toList, "cd".toList]) [0x25] contentTypePdf 5
    (.pdf ["ab".toList, "cd".toList])
    ⟨rfl, List.cons_ne_nil _ _, rfl⟩).2.mpr (by decide)
  have hlong := (extraction_limit_iff .ascii
    (pdfOf ["abc".toList, "def".toList]) [0x25] contentTypePdf 5
    (.pdf ["abc".toList, "def".toList])
    ⟨rfl, List.cons_ne_nil _ _, rfl⟩).2.mpr (by decide)
  exact ⟨hshort.mpr (by decide), fun hrun => absurd (hlong.mp hrun)
    (by decide)⟩

/-- Two pages of 512 characters are within a limit of 1024, and the text
joined of them is not. -/
theorem separator_uncounted :
    ¬ ((∃ document, runExtraction .ascii
        (pdfOf [List.replicate 512 'a', List.replicate 512 'b']) [0x25]
        contentTypePdf 1024 = .ok document) ↔
      ((Parsed.pdf [List.replicate 512 'a',
        List.replicate 512 'b']).joined.length : Int) ≤ 1024) := by
  have hruns := (@runExtraction_spec 1024 .ascii
    (pdfOf [List.replicate 512 'a', List.replicate 512 'b']) [0x25]
    contentTypePdf
    (.pdf [List.replicate 512 'a', List.replicate 512 'b'])
    ⟨rfl, List.cons_ne_nil _ _, rfl⟩).2
  have hlengths : [List.replicate 512 'a', List.replicate 512 'b'].map
      List.length = [512, 512] := by
    simp only [List.map_cons, List.map_nil, List.length_replicate]
  have hlength : (Parsed.pdf [List.replicate 512 'a',
      List.replicate 512 'b']).joined.length = 1025 := by
    refine (length_intercalate _ _).trans ?_
    rw [hlengths]
    rfl
  have hcounted : (Parsed.pdf [List.replicate 512 'a',
      List.replicate 512 'b']).counted [0x25] = 1024 := by
    unfold Parsed.counted
    simp only
    rw [hlengths]
    rfl
  rw [hruns, hlength, hcounted]
  decide

end PrivacyGateway.Documents
