/-
What the segment loop produces.

`AtHead` is the loop's invariant: the start and the previous end lie in
the text, and the previous end is at most an overlap past the start. From
it every segment ends in front of the previous end (`endOfSegment_spec`),
and the next round starts in the same condition (`AtHead.next`). `Cuts`
lists the rounds of a whole loop; `segmentFrom_cuts` is its run.

The rounds form a list of windows that advance, so they cover the text
(`segment_covers`). How much two neighbours share depends on the break
between them: a break that ends a segment within an overlap of its start
leaves its successor only one character later, and then a range shorter
than the overlap can miss every segment. `overlap_guarantee_iff` says for
which texts and for which sizes that cannot happen.
-/
import PrivacyGateway.Documents.Segmenter
import PrivacyGateway.Lib.Windows

namespace PrivacyGateway.Documents

open Find Windows

-- ==================================================== breaks

theorem usableBreak_some {text : Text} {floor limit minimumEnd stop : Nat}
    {patterns : List Text} (hne : ∀ pattern ∈ patterns, pattern ≠ []) :
    usableBreak text floor limit minimumEnd patterns = some stop →
      floor < stop ∧ stop ≤ limit ∧ minimumEnd < stop := by
  induction patterns with
  | nil =>
      intro h
      cases h
  | cons pattern patterns ih =>
      intro h
      have hrest := ih (fun p hp => hne p (List.mem_cons_of_mem _ hp))
      have hpos := List.length_pos_iff.mpr (hne pattern List.mem_cons_self)
      unfold usableBreak at h
      cases hfind : rfind pattern text floor limit with
      | none =>
          rw [hfind] at h
          exact hrest h
      | some found =>
          rw [hfind] at h
          simp only at h
          by_cases hmin : found + pattern.length > minimumEnd
          · rw [if_pos hmin] at h
            cases h
            obtain ⟨hfloor, hlimit, -⟩ := within_of_rfind hfind
            omega
          · rw [if_neg hmin] at h
            exact hrest h

theorem breakPatterns_nonempty : ∀ p ∈ breakPatterns, p ≠ [] := by
  decide

theorem breakFloor_pos (maxCharacters : Nat) :
    1 ≤ breakFloor maxCharacters :=
  le_max_left _ _

namespace Segmenter

variable {segmenter : Segmenter} {document : ExtractedDocument}
  {text : Text} {index start previousEnd stop : Nat}
  {segments : List Segment}

theorem earlyBreak_some
    (h : segmenter.earlyBreak text start previousEnd = some stop) :
    start + breakFloor segmenter.maxCharacters < stop ∧
      stop ≤ start + segmenter.maxCharacters ∧ previousEnd < stop :=
  usableBreak_some breakPatterns_nonempty h

theorem endOfSegment_last
    (h : text.length ≤ start + segmenter.maxCharacters) :
    segmenter.endOfSegment text start previousEnd = text.length :=
  if_pos h

theorem endOfSegment_inner
    (h : start + segmenter.maxCharacters < text.length) :
    segmenter.endOfSegment text start previousEnd =
      (segmenter.earlyBreak text start previousEnd).getD
        (start + segmenter.maxCharacters) :=
  if_neg (by omega)

-- ==================================================== one round

/-- What holds at the head of the loop. -/
structure AtHead (segmenter : Segmenter) (text : Text)
    (start previousEnd : Nat) : Prop where
  start_lt : start < text.length
  previous_lt : previousEnd < text.length
  reaches : previousEnd ≤ start + segmenter.overlap

/-- A segment is not empty, is no longer than allowed, and ends past the
one before it. -/
theorem endOfSegment_spec (h : segmenter.AtHead text start previousEnd) :
    start < segmenter.endOfSegment text start previousEnd ∧
      previousEnd < segmenter.endOfSegment text start previousEnd ∧
      segmenter.endOfSegment text start previousEnd ≤
        start + segmenter.maxCharacters ∧
      segmenter.endOfSegment text start previousEnd ≤ text.length := by
  have hstart := h.start_lt
  have hprevious := h.previous_lt
  have hreaches := h.reaches
  have hmax := segmenter.max_pos
  have hoverlap := segmenter.overlap_lt
  by_cases hlast : text.length ≤ start + segmenter.maxCharacters
  · rw [endOfSegment_last hlast]
    omega
  · rw [endOfSegment_inner (by omega)]
    cases hbreak : segmenter.earlyBreak text start previousEnd with
    | none =>
        rw [Option.getD_none]
        omega
    | some stop =>
        rw [Option.getD_some]
        have hfound := earlyBreak_some hbreak
        omega

/-- The next round starts in the same condition. -/
theorem AtHead.next (h : segmenter.AtHead text start previousEnd)
    (hinner : segmenter.endOfSegment text start previousEnd <
      text.length) :
    segmenter.AtHead text
      (segmenter.nextStart start
        (segmenter.endOfSegment text start previousEnd))
      (segmenter.endOfSegment text start previousEnd) := by
  have hspec := endOfSegment_spec h
  unfold nextStart
  exact ⟨by omega, hinner, by omega⟩

/-- The pages of a forward range are found. -/
theorem pagesCovering_ok (document : ExtractedDocument) {start stop : Nat}
    (h : start ≤ stop) :
    ∃ pages, document.pagesCovering start stop = .ok pages := by
  unfold ExtractedDocument.pagesCovering
  rw [if_neg (by omega)]
  by_cases heq : start = stop
  · exact ⟨_, if_pos heq⟩
  · exact ⟨_, if_neg heq⟩

-- ==================================================== the loop

/-- The rounds of the loop from a start and a previous end, each with the
segment it appends. -/
inductive Cuts (segmenter : Segmenter) (text : Text) :
    Nat → Nat → Nat → List Segment → Prop
  | last {index start previousEnd : Nat} {segment : Segment}
      (index_eq : segment.index = index)
      (start_eq : segment.start = start)
      (stop_eq : segment.stop =
        segmenter.endOfSegment text start previousEnd)
      (ends : segment.stop = text.length) :
      Cuts segmenter text index start previousEnd [segment]
  | more {index start previousEnd : Nat} {segment : Segment}
      {segments : List Segment}
      (index_eq : segment.index = index)
      (start_eq : segment.start = start)
      (stop_eq : segment.stop =
        segmenter.endOfSegment text start previousEnd)
      (inner : segment.stop < text.length)
      (rest : Cuts segmenter text (index + 1)
        (segmenter.nextStart segment.start segment.stop) segment.stop
        segments) :
      Cuts segmenter text index start previousEnd (segment :: segments)

/-- From a head state on the loop returns, round by round. -/
theorem segmentFrom_cuts (rounds : Nat) :
    ∀ (index : Nat) {start previousEnd : Nat},
      document.text.length - start ≤ rounds →
      segmenter.AtHead document.text start previousEnd →
      ∃ segments, segmenter.segmentFrom document index start previousEnd =
          .ok segments ∧
        Cuts segmenter document.text index start previousEnd segments := by
  induction rounds with
  | zero =>
      intro index start previousEnd hrounds hhead
      have := hhead.start_lt
      omega
  | succ rounds ih =>
      intro index start previousEnd hrounds hhead
      have hspec := endOfSegment_spec hhead
      obtain ⟨pages, hpages⟩ := pagesCovering_ok document
        (Nat.le_of_lt hspec.1)
      have hsegment : Segment.new index start
          (segmenter.endOfSegment document.text start previousEnd) pages =
          .ok ⟨index, start, _, pages, hspec.1⟩ := dif_pos hspec.1
      unfold segmentFrom
      rw [if_pos hhead.start_lt]
      simp only [hpages, hsegment]
      by_cases hlast : segmenter.endOfSegment document.text start
          previousEnd ≥ document.text.length
      · rw [if_pos hlast]
        refine ⟨_, rfl, Cuts.last rfl rfl rfl ?_⟩
        exact Nat.le_antisymm hspec.2.2.2 hlast
      · rw [if_neg hlast]
        have hinner : segmenter.endOfSegment document.text start
            previousEnd < document.text.length := by
          omega
        have hnext := hhead.next hinner
        -- each round moves the start by one at least
        have hdown : document.text.length - segmenter.nextStart start
            (segmenter.endOfSegment document.text start previousEnd) ≤
            rounds := by
          unfold nextStart
          omega
        obtain ⟨rest, hrest, hcuts⟩ := ih (index + 1) hdown hnext
        rw [hrest]
        exact ⟨_, rfl, Cuts.more rfl rfl rfl hinner hcuts⟩

/-- A text that is not empty is cut. -/
theorem segment_cuts (segmenter : Segmenter) (htext : document.text ≠ []) :
    ∃ segments, segmenter.segment document = .ok ⟨document, segments⟩ ∧
      Cuts segmenter document.text 0 0 0 segments := by
  have hpos := List.length_pos_iff.mpr htext
  have hhead : segmenter.AtHead document.text 0 0 :=
    ⟨hpos, hpos, Nat.zero_le _⟩
  obtain ⟨segments, hrun, hcuts⟩ := segmentFrom_cuts _ 0
    (Nat.le_refl (document.text.length - 0)) hhead
  refine ⟨segments, ?_, hcuts⟩
  unfold segment
  rw [if_neg htext, hrun]

-- ==================================================== the rounds

theorem Cuts.uncons
    (h : Cuts segmenter text index start previousEnd segments) :
    ∃ first rest, segments = first :: rest ∧ first.index = index ∧
      first.start = start ∧
      first.stop = segmenter.endOfSegment text start previousEnd := by
  cases h with
  | last index_eq start_eq stop_eq ends =>
      exact ⟨_, _, rfl, index_eq, start_eq, stop_eq⟩
  | more index_eq start_eq stop_eq inner rest =>
      exact ⟨_, _, rfl, index_eq, start_eq, stop_eq⟩

/-- A text that fits one segment is one segment. -/
theorem Cuts.single (h : Cuts segmenter text 0 0 0 segments)
    (hfits : text.length ≤ segmenter.maxCharacters) :
    ∃ segment, segments = [segment] ∧ segment.start = 0 ∧
      segment.stop = text.length := by
  have hlast : segmenter.endOfSegment text 0 0 = text.length :=
    endOfSegment_last (by omega)
  cases h with
  | last index_eq start_eq stop_eq ends =>
      exact ⟨_, rfl, start_eq, ends⟩
  | more index_eq start_eq stop_eq inner rest =>
      exfalso
      omega

theorem Cuts.indexes
    (h : Cuts segmenter text index start previousEnd segments) :
    segments.map Segment.index = List.range' index segments.length := by
  induction h with
  | last index_eq start_eq stop_eq ends =>
      rw [List.map_singleton, index_eq]
      rfl
  | more index_eq start_eq stop_eq inner rest ih =>
      rw [List.map_cons, ih, index_eq]
      rfl

theorem Cuts.getLast
    (h : Cuts segmenter text index start previousEnd segments) :
    ∃ last, segments.getLast? = some last ∧ last.stop = text.length := by
  induction h with
  | last index_eq start_eq stop_eq ends => exact ⟨_, rfl, ends⟩
  | more index_eq start_eq stop_eq inner rest ih =>
      obtain ⟨first, tail, rfl, -⟩ := rest.uncons
      rw [List.getLast?_cons_cons]
      exact ih

theorem Cuts.sizes
    (h : Cuts segmenter text index start previousEnd segments)
    (hhead : segmenter.AtHead text start previousEnd) :
    ∀ w ∈ segments, w.length ≤ segmenter.maxCharacters := by
  induction h with
  | last index_eq start_eq stop_eq ends =>
      intro w hw
      rw [List.mem_singleton.mp hw]
      have hspec := endOfSegment_spec hhead
      unfold Segment.length
      omega
  | more index_eq start_eq stop_eq inner rest ih =>
      intro w hw
      have hspec := endOfSegment_spec hhead
      rcases List.mem_cons.mp hw with rfl | hw
      · unfold Segment.length
        omega
      · rw [start_eq, stop_eq] at ih
        rw [stop_eq] at inner
        exact ih (hhead.next inner) w hw

/-- Each segment starts where the one before it says, and ends later. -/
theorem Cuts.chain
    (h : Cuts segmenter text index start previousEnd segments)
    (hhead : segmenter.AtHead text start previousEnd) :
    segments.IsChain (Advances Segment.start Segment.stop) := by
  induction h with
  | last index_eq start_eq stop_eq ends => exact List.isChain_singleton _
  | @more index start previousEnd segment segments index_eq start_eq
      stop_eq inner rest ih =>
      have hnext : segmenter.AtHead text
          (segmenter.nextStart segment.start segment.stop)
          segment.stop := by
        have hin := inner
        rw [stop_eq] at hin
        rw [start_eq, stop_eq]
        exact hhead.next hin
      obtain ⟨second, tail, rfl, -, hstart, hstop⟩ := rest.uncons
      rw [List.isChain_cons_cons]
      refine ⟨⟨?_, ?_, ?_⟩, ih hnext⟩
      · rw [hstart]
        unfold nextStart
        omega
      · rw [hstop]
        exact (endOfSegment_spec hnext).2.1
      · have hforward := segment.range_forward
        rw [hstart]
        unfold nextStart
        omega

-- ==================================================== coverage

/-- The segments of a text that is not empty: numbered from 0, moving
forward at both ends, none empty or too long, from the text's first
character to its last with no gap between. -/
theorem segment_covers (segmenter : Segmenter)
    (document : ExtractedDocument) (htext : document.text ≠ []) :
    ∃ segments, segmenter.segment document = .ok ⟨document, segments⟩ ∧
      segments.map Segment.index = List.range segments.length ∧
      segments.Pairwise (fun a b => a.start < b.start) ∧
      segments.Pairwise (fun a b => a.stop < b.stop) ∧
      (∀ w ∈ segments, w.start < w.stop ∧
        w.stop - w.start ≤ segmenter.maxCharacters) ∧
      segments.head?.map Segment.start = some 0 ∧
      segments.getLast?.map Segment.stop = some document.text.length ∧
      segments.IsChain (fun a b => b.start ≤ a.stop) ∧
      ∀ i, i < document.text.length →
        ∃ w ∈ segments, w.start ≤ i ∧ i < w.stop := by
  have hpos := List.length_pos_iff.mpr htext
  obtain ⟨segments, hrun, hcuts⟩ := segment_cuts segmenter htext
  have hhead : segmenter.AtHead document.text 0 0 :=
    ⟨hpos, hpos, Nat.zero_le _⟩
  have hchain := hcuts.chain hhead
  have hsizes := hcuts.sizes hhead
  have hindexes := hcuts.indexes
  obtain ⟨last, hlast, hend⟩ := hcuts.getLast
  obtain ⟨first, rest, rfl, -, hstart, -⟩ := hcuts.uncons
  refine ⟨_, hrun, ?_, starts_pairwise hchain, stops_pairwise hchain,
    ?_, ?_, ?_, ?_, ?_⟩
  · rw [hindexes, List.range_eq_range']
  · intro w hw
    exact ⟨w.range_forward, hsizes w hw⟩
  · rw [List.head?_cons, Option.map_some, hstart]
  · rw [hlast, Option.map_some, hend]
  · exact hchain.imp (fun _ _ hab => hab.touches)
  · intro i hi
    exact covers hchain hlast (by omega) (by omega)

/-- A text of one page. -/
def onePage (text : Text) : ExtractedDocument where
  text := text
  pages := [⟨1, 0, text.length, le_refl 1, Nat.zero_le _⟩]
  pages_nonempty := List.cons_ne_nil _ _
  pages_tile := ⟨rfl, rfl⟩

/-- Five characters in segments of three that share two. -/
theorem segment_covers_five :
    ∃ segments, Segmenter.segment ⟨3, 2, by decide, by decide⟩
        (onePage "ab cd".toList) =
          .ok ⟨onePage "ab cd".toList, segments⟩ ∧
      ∀ i, i < 5 → ∃ w ∈ segments, w.start ≤ i ∧ i < w.stop := by
  obtain ⟨segments, hrun, -, -, -, -, -, -, -, hcovers⟩ :=
    segment_covers ⟨3, 2, by decide, by decide⟩ (onePage "ab cd".toList)
      (by decide)
  exact ⟨segments, hrun, hcovers⟩

-- ==================================================== the overlap

/-- The states the loop's head is reached in. -/
inductive Visits (segmenter : Segmenter) (text : Text) : Nat → Nat → Prop
  | first : Visits segmenter text 0 0
  | next {start previousEnd : Nat}
      (before : Visits segmenter text start previousEnd)
      (inner : segmenter.endOfSegment text start previousEnd <
        text.length) :
      Visits segmenter text
        (segmenter.nextStart start
          (segmenter.endOfSegment text start previousEnd))
        (segmenter.endOfSegment text start previousEnd)

/-- A usable break ends the segment within an overlap of its start. -/
def CutsShort (segmenter : Segmenter) (text : Text)
    (start previousEnd : Nat) : Prop :=
  start + segmenter.maxCharacters < text.length ∧
    ∃ stop, segmenter.earlyBreak text start previousEnd = some stop ∧
      stop + 1 < start + segmenter.overlap

/-- Every range of the text shorter than the overlap lies wholly inside
one of the segments. -/
def Guaranteed (segmenter : Segmenter) (document : ExtractedDocument) :
    Prop :=
  ∃ segmented, segmenter.segment document = .ok segmented ∧
    ∀ x y, x ≤ y → y ≤ document.text.length →
      y - x < segmenter.overlap →
        Holds Segment.start Segment.stop segmented.segments x y

/-- A segment ends an overlap past its start, or nearly, unless a break
cuts it short. -/
theorem endOfSegment_far (h : ¬ segmenter.CutsShort text start previousEnd)
    (hinner : segmenter.endOfSegment text start previousEnd <
      text.length) :
    start + segmenter.overlap ≤
      segmenter.endOfSegment text start previousEnd + 1 := by
  have hoverlap := segmenter.overlap_lt
  by_cases hlast : text.length ≤ start + segmenter.maxCharacters
  · rw [endOfSegment_last hlast] at hinner
    omega
  · rw [endOfSegment_inner (by omega)]
    cases hbreak : segmenter.earlyBreak text start previousEnd with
    | none =>
        rw [Option.getD_none]
        omega
    | some stop =>
        rw [Option.getD_some]
        by_contra hshort
        exact h ⟨by omega, stop, hbreak, by omega⟩

/-- Two neighbours share enough when no break cut the first one short. -/
theorem shares_of_far {a b : Segment}
    (hnext : b.start = segmenter.nextStart a.start a.stop)
    (h : a.start + segmenter.overlap ≤ a.stop + 1) :
    Shares Segment.start Segment.stop segmenter.overlap a b := by
  unfold Shares
  rw [hnext]
  unfold nextStart
  omega

theorem Cuts.shares
    (h : Cuts segmenter text index start previousEnd segments)
    (hvisits : segmenter.Visits text start previousEnd)
    (hlong : ∀ start previousEnd,
      segmenter.Visits text start previousEnd →
        ¬ segmenter.CutsShort text start previousEnd) :
    segments.IsChain
      (Shares Segment.start Segment.stop segmenter.overlap) := by
  induction h with
  | last index_eq start_eq stop_eq ends => exact List.isChain_singleton _
  | @more index start previousEnd segment segments index_eq start_eq
      stop_eq inner rest ih =>
      have hin := inner
      rw [stop_eq] at hin
      have hfar := endOfSegment_far (hlong _ _ hvisits) hin
      have hvisited := hvisits.next hin
      rw [← stop_eq, ← start_eq] at hvisited
      have htail := ih hvisited
      obtain ⟨second, tail, rfl, -, hstart, -⟩ := rest.uncons
      rw [List.isChain_cons_cons]
      refine ⟨shares_of_far hstart ?_, htail⟩
      rw [start_eq, stop_eq]
      exact hfar

/-- Every visited state is the head of a rest of the loop. -/
theorem Visits.cuts (h : segmenter.Visits text start previousEnd)
    (hcuts : Cuts segmenter text 0 0 0 segments) :
    ∃ before index rest, segments = before ++ rest ∧
      Cuts segmenter text index start previousEnd rest := by
  induction h with
  | first => exact ⟨[], 0, segments, rfl, hcuts⟩
  | next hbefore inner ih =>
      obtain ⟨before, index, rest, rfl, hrest⟩ := ih
      cases hrest with
      | last index_eq start_eq stop_eq ends =>
          rw [← stop_eq, ends] at inner
          omega
      | @more _ _ _ segment tail index_eq start_eq stop_eq inner rest =>
          rw [← stop_eq, ← start_eq]
          refine ⟨before ++ [segment], index + 1, tail, ?_, rest⟩
          rw [List.append_assoc, List.singleton_append]

/-- Where a break cuts a segment short, the range from that segment's
start on that is one shorter than the overlap lies in no segment. -/
theorem not_guaranteed_of_cutsShort
    (hvisits : segmenter.Visits document.text start previousEnd)
    (hshort : segmenter.CutsShort document.text start previousEnd)
    (htext : document.text ≠ []) : ¬ segmenter.Guaranteed document := by
  intro hguaranteed
  obtain ⟨hinner, stop, hbreak, hstop⟩ := hshort
  obtain ⟨segments, hrun, hcuts⟩ := segment_cuts segmenter htext
  obtain ⟨segmented, hrun', hall⟩ := hguaranteed
  rw [hrun] at hrun'
  cases hrun'
  have hpos := List.length_pos_iff.mpr htext
  have hchain := hcuts.chain ⟨hpos, hpos, Nat.zero_le _⟩
  obtain ⟨before, index', rest, rfl, hrest⟩ := hvisits.cuts hcuts
  have hend : segmenter.endOfSegment document.text start previousEnd =
      stop := by
    rw [endOfSegment_inner hinner, hbreak, Option.getD_some]
  have hfound := earlyBreak_some hbreak
  have hoverlap := segmenter.overlap_lt
  cases hrest with
  | last index_eq start_eq stop_eq ends => omega
  | @more _ _ _ a tail index_eq start_eq stop_eq inner rest =>
      obtain ⟨b, after, rfl, -, hstart, -⟩ := rest.uncons
      have hnext : b.start = start + 1 := by
        rw [hstart, start_eq, stop_eq, hend]
        unfold nextStart
        omega
      refine loses_short (k := segmenter.overlap) hchain ?_ ?_
      · unfold Shares
        rw [hnext, stop_eq, hend]
        omega
      · apply hall <;> rw [hnext] <;> omega

/-- One document is guaranteed exactly when no break cuts a segment of it
short. -/
theorem guaranteed_iff (htext : document.text ≠ []) :
    segmenter.Guaranteed document ↔
      ∀ start previousEnd,
        segmenter.Visits document.text start previousEnd →
          ¬ segmenter.CutsShort document.text start previousEnd := by
  constructor
  · intro h start previousEnd hvisits hshort
    exact not_guaranteed_of_cutsShort hvisits hshort htext h
  · intro hlong
    obtain ⟨segments, hrun, hcuts⟩ := segment_cuts segmenter htext
    refine ⟨_, hrun, ?_⟩
    intro x y hxy hy hshort
    have hchain := hcuts.shares Visits.first hlong
    obtain ⟨last, hlast, hend⟩ := hcuts.getLast
    obtain ⟨first, rest, rfl, -, hstart, -⟩ := hcuts.uncons
    exact covers_short hchain hlast (by omega) (by omega) (by omega)

-- ==================================================== the sizes

theorem not_at_of_not_mem {needle l : Text} {c : Char} {i : Nat}
    (hc : c ∈ needle) (hl : c ∉ l) : ¬ At needle l i := by
  intro hat
  exact hl (List.mem_of_mem_drop (hat.subset hc))

theorem usableBreak_absent {floor limit minimumEnd : Nat}
    {pattern : Text} {patterns : List Text} {c : Char}
    (hc : c ∈ pattern) (htext : c ∉ text) :
    usableBreak text floor limit minimumEnd (pattern :: patterns) =
      usableBreak text floor limit minimumEnd patterns := by
  have hnone : rfind pattern text floor limit = none := by
    rw [rfind_eq_none_iff (List.ne_nil_of_mem hc)]
    intro i hi
    exact not_at_of_not_mem hc htext hi.2.2
  rw [usableBreak, hnone]

/-- A word that fills the window up to where breaks are sought, a space,
and a word too long for what is left. -/
def twoWords (segmenter : Segmenter) : Text :=
  List.replicate (breakFloor segmenter.maxCharacters) 'x' ++
    ' ' :: List.replicate segmenter.maxCharacters 'x'

theorem length_twoWords (segmenter : Segmenter) :
    segmenter.twoWords.length =
      breakFloor segmenter.maxCharacters + segmenter.maxCharacters + 1 := by
  unfold twoWords
  rw [List.length_append, List.length_cons, List.length_replicate,
    List.length_replicate]
  omega

theorem not_mem_twoWords {c : Char} (hx : c ≠ 'x') (hspace : c ≠ ' ') :
    c ∉ segmenter.twoWords := by
  unfold twoWords
  simp [List.mem_replicate, hx, hspace]

/-- The only space stands behind the first word. -/
theorem at_space_iff {i : Nat} :
    At [' '] segmenter.twoWords i ↔
      i = breakFloor segmenter.maxCharacters := by
  unfold At twoWords
  rw [List.prefix_iff_eq_take, List.length_singleton, List.take_one,
    List.head?_drop]
  constructor
  · intro h
    by_contra hne
    by_cases hlt : i < breakFloor segmenter.maxCharacters
    · rw [List.getElem?_append_left (by rwa [List.length_replicate]),
        List.getElem?_replicate, if_pos hlt] at h
      cases h
    · rw [List.getElem?_append_right (by rw [List.length_replicate]; omega),
        List.length_replicate] at h
      obtain ⟨j, hj⟩ := Nat.exists_eq_add_of_lt
        (show 0 < i - breakFloor segmenter.maxCharacters by omega)
      rw [hj, Nat.zero_add, List.getElem?_cons_succ,
        List.getElem?_replicate] at h
      split at h <;> cases h
  · intro h
    rw [h, List.getElem?_append_right (by rw [List.length_replicate]),
      List.length_replicate, Nat.sub_self]
    rfl

theorem earlyBreak_twoWords
    (h : breakFloor segmenter.maxCharacters < segmenter.maxCharacters) :
    segmenter.earlyBreak segmenter.twoWords 0 0 =
      some (breakFloor segmenter.maxCharacters + 1) := by
  have hfound : rfind [' '] segmenter.twoWords
      (0 + breakFloor segmenter.maxCharacters)
      (0 + segmenter.maxCharacters) =
        some (breakFloor segmenter.maxCharacters) := by
    cases hfind : rfind [' '] segmenter.twoWords
        (0 + breakFloor segmenter.maxCharacters)
        (0 + segmenter.maxCharacters) with
    | some i =>
        rw [at_space_iff.mp (within_of_rfind hfind).2.2]
    | none =>
        rw [rfind_eq_none_iff (List.cons_ne_nil _ _)] at hfind
        refine absurd ?_ (hfind (breakFloor segmenter.maxCharacters))
        exact ⟨by omega, by rw [List.length_singleton]; omega,
          at_space_iff.mpr rfl⟩
  have hline : '\n' ∉ segmenter.twoWords :=
    not_mem_twoWords (by decide) (by decide)
  have hstop : '.' ∉ segmenter.twoWords :=
    not_mem_twoWords (by decide) (by decide)
  unfold earlyBreak breakPatterns
  rw [usableBreak_absent (c := '\n') (by decide) hline,
    usableBreak_absent (c := '\n') (by decide) hline,
    usableBreak_absent (c := '.') (by decide) hstop, usableBreak,
    show (" ".toList : Text) = [' '] by decide, hfound]
  exact if_pos (Nat.succ_pos _)

/-- The overlap guarantee. A document has it exactly when no round of the
loop ends at a break within an overlap of its start; and all documents
have it exactly when the overlap reaches at most two characters past the
offset from which on breaks are sought. -/
theorem overlap_guarantee_iff (segmenter : Segmenter) :
    (∀ document : ExtractedDocument, document.text ≠ [] →
      (segmenter.Guaranteed document ↔
        ∀ start previousEnd,
          segmenter.Visits document.text start previousEnd →
            ¬ segmenter.CutsShort document.text start previousEnd)) ∧
    ((∀ document : ExtractedDocument, document.text ≠ [] →
        segmenter.Guaranteed document) ↔
      segmenter.overlap ≤ breakFloor segmenter.maxCharacters + 2) := by
  refine ⟨fun document htext => guaranteed_iff htext, ?_⟩
  constructor
  · intro hall
    by_contra hlarge
    have hoverlap := segmenter.overlap_lt
    have hne : (onePage segmenter.twoWords).text ≠ [] := by
      apply List.ne_nil_of_length_pos
      have hlength := length_twoWords segmenter
      show 0 < segmenter.twoWords.length
      omega
    refine (guaranteed_iff hne).mp (hall _ hne) 0 0 Visits.first ?_
    have hlength := length_twoWords segmenter
    have hfloor := breakFloor_pos segmenter.maxCharacters
    refine ⟨?_, _, earlyBreak_twoWords (by omega), by omega⟩
    show 0 + segmenter.maxCharacters < segmenter.twoWords.length
    omega
  · intro hsmall document htext
    rw [guaranteed_iff htext]
    intro start previousEnd _ hshort
    obtain ⟨-, stop, hbreak, hstop⟩ := hshort
    have := earlyBreak_some hbreak
    omega

/-- Segments of 16 that share 15, over two words of 12 and 8 characters:
the first 14 characters lie in no segment. -/
theorem early_break_loses :
    let document := onePage "abcdefghijkl mnopqrst".toList
    let segmenter : Segmenter := ⟨16, 15, by decide, by decide⟩
    (match segmenter.segment document with
      | .ok segmented =>
          decide (∀ w ∈ segmented.segments, ¬ (w.start ≤ 0 ∧ 14 ≤ w.stop))
      | .error _ => false) = true ∧
      14 - 0 < segmenter.overlap ∧ 14 ≤ document.text.length ∧
      ¬ segmenter.Guaranteed document := by
  refine ⟨by decide +kernel, by decide, by decide, ?_⟩
  refine not_guaranteed_of_cutsShort Visits.first ?_ (by decide)
  exact ⟨by decide, 13, by decide +kernel, by decide⟩

end Segmenter

end PrivacyGateway.Documents
