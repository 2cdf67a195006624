/-
Scrubbing: every match of some patterns gives way to one mark.

A plain pattern looks at nothing but what it matches, so it is the set of
its words (`mem_run_iff`). A `Shape` is a plain pattern, sought anywhere
or only between word boundaries, and `Occurs` says that it stands
somewhere in a list.

`sub` is `re.sub` with a constant replacement. What it writes can neither
hide a match nor make one, under two conditions: no word of the shape
holds either end of the mark or lies inside it (`Foreign`), and a shape
with boundaries is only followed by substitutions whose matches end at
the same boundaries. The first keeps a word of the result inside one gap
(`fillTo_infix_cases`), the second gives it back the edges it had there
(`not_occurs_sub`). A list of shapes scrubbed in order is then free of
all of them (`not_occurs_scrub`).
-/
import PrivacyGateway.Lib.Marked
import PrivacyGateway.Lib.Regex

namespace Regex

open Splice Scan

variable {α : Type}

-- ==================================================== words

/-- The pattern looks at nothing but what it matches. -/
def isPlain : Pattern α → Bool
  | .empty => true
  | .one _ => true
  | .many _ _ _ => true
  | .boundary _ => false
  | .seq first second => isPlain first && isPlain second
  | .alt first second => isPlain first && isPlain second
  | .group body => isPlain body

/-- What a plain pattern matches. -/
def Word : Pattern α → List α → Prop
  | .empty, w => w = []
  | .one p, w => ∃ a, w = [a] ∧ p a = true
  | .many p least most, w =>
      least ≤ w.length ∧ (∀ bound ∈ most, w.length ≤ bound) ∧
        ∀ a ∈ w, p a = true
  | .boundary _, _ => False
  | .seq first second, w =>
      ∃ u v, w = u ++ v ∧ Word first u ∧ Word second v
  | .alt first second, w => Word first w ∨ Word second w
  | .group body, w => Word body w

/-- A run of elements that satisfy the predicate is as long as any. -/
theorem le_runLength {p : α → Bool} {most : Option Nat} {xs w : List α}
    {pos : Nat} (hfront : w <+: xs.drop pos) (hall : ∀ a ∈ w, p a = true)
    (hmost : ∀ bound ∈ most, w.length ≤ bound) :
    w.length ≤ runLength p most xs pos := by
  have hwhile : w.length ≤ ((xs.drop pos).takeWhile p).length := by
    obtain ⟨rest, hrest⟩ := hfront
    rw [← hrest, List.takeWhile_append_of_pos hall, List.length_append]
    exact Nat.le_add_right _ _
  unfold runLength
  cases most with
  | none => exact hwhile
  | some bound => exact Nat.le_min.mpr ⟨hmost bound rfl, hwhile⟩

/-- And every shorter one is such a run. -/
theorem of_le_runLength {p : α → Bool} {most : Option Nat} {xs : List α}
    {pos n : Nat} (h : n ≤ runLength p most xs pos) :
    ((xs.drop pos).take n).length = n ∧
      (∀ bound ∈ most, n ≤ bound) ∧
      ∀ a ∈ (xs.drop pos).take n, p a = true := by
  have hwhile : n ≤ ((xs.drop pos).takeWhile p).length ∧
      ∀ bound ∈ most, n ≤ bound := by
    unfold runLength at h
    cases most with
    | none => exact ⟨h, fun bound hbound => nomatch hbound⟩
    | some b =>
        obtain ⟨hb, hlen⟩ := Nat.le_min.mp h
        refine ⟨hlen, fun bound hbound => ?_⟩
        cases hbound
        exact hb
  have hfront := List.takeWhile_prefix (l := xs.drop pos) p
  have hlen := hfront.length_le
  refine ⟨by rw [List.length_take]; omega, hwhile.2, fun a ha => ?_⟩
  have htake : (xs.drop pos).take n =
      ((xs.drop pos).takeWhile p).take n := by
    conv_rhs => rw [List.prefix_iff_eq_take.mp hfront]
    rw [List.take_take, Nat.min_eq_left hwhile.1]
  rw [htake] at ha
  exact List.all_eq_true.mp List.all_takeWhile a
    (List.mem_of_mem_take ha)

/-- The runs of a plain pattern are its words. -/
theorem mem_run_iff {xs : List α} (r : Pattern α) :
    isPlain r = true → ∀ {t : Thread} {j : Nat},
      (∃ v, ⟨j, v⟩ ∈ run xs r t) ↔
        ∃ w, w <+: xs.drop t.pos ∧ j = t.pos + w.length ∧ Word r w := by
  induction r with
  | empty =>
      intro _ t j
      constructor
      · intro h
        obtain ⟨v, hv⟩ := h
        cases List.mem_singleton.mp hv
        exact ⟨[], List.nil_prefix, rfl, rfl⟩
      · intro h
        obtain ⟨w, -, hj, rfl⟩ := h
        exact ⟨t.value, List.mem_singleton.mpr (by rw [hj]; rfl)⟩
  | one p =>
      intro _ t j
      constructor
      · intro h
        obtain ⟨v, hv⟩ := h
        obtain ⟨a, ha, hp, hpos⟩ := run_one hv
        obtain ⟨hlt, rfl⟩ := List.getElem?_eq_some_iff.mp ha
        refine ⟨[xs[t.pos]], ?_, hpos, _, rfl, hp⟩
        rw [List.drop_eq_getElem_cons hlt]
        exact ⟨xs.drop (t.pos + 1), rfl⟩
      · intro h
        obtain ⟨w, hfront, hj, a, rfl, hp⟩ := h
        obtain ⟨rest, hrest⟩ := hfront
        have ha : xs[t.pos]? = some a := by
          rw [← List.head?_drop, ← hrest]
          rfl
        refine ⟨t.value, ?_⟩
        unfold run
        rw [ha, hj]
        simp [hp]
  | many p least most =>
      intro _ t j
      constructor
      · intro h
        obtain ⟨v, hv⟩ := h
        obtain ⟨fewer, hfewer, hthread⟩ := List.mem_map.mp hv
        have hfewer := List.mem_range.mp hfewer
        obtain ⟨hlen, hmost, hall⟩ := of_le_runLength
          (Nat.sub_le (runLength p most xs t.pos) fewer)
        cases hthread
        refine ⟨_, List.take_prefix _ _, by rw [hlen], ?_, ?_, hall⟩
        · rw [hlen]
          omega
        · rw [hlen]
          exact hmost
      · intro h
        obtain ⟨w, hfront, hj, hleast, hmost, hall⟩ := h
        have hle := le_runLength hfront hall hmost
        refine ⟨t.value, List.mem_map.mpr
          ⟨runLength p most xs t.pos - w.length,
            List.mem_range.mpr (by omega), ?_⟩⟩
        rw [hj, Nat.sub_sub_self hle]
  | boundary word =>
      intro hplain
      cases hplain
  | seq first second hfirst hsecond =>
      intro hplain t j
      obtain ⟨hpf, hps⟩ := Bool.and_eq_true_iff.mp hplain
      constructor
      · intro h
        obtain ⟨v, hv⟩ := h
        obtain ⟨mid, hmid, hend⟩ := List.mem_flatMap.mp hv
        obtain ⟨u, hu, hk, hwu⟩ := (hfirst hpf).mp ⟨mid.value, hmid⟩
        obtain ⟨w, hw, hj, hww⟩ := (hsecond hps).mp ⟨v, hend⟩
        refine ⟨u ++ w, ?_, by rw [hj, hk, List.length_append]; omega,
          u, w, rfl, hwu, hww⟩
        obtain ⟨rest, hrest⟩ := hu
        obtain ⟨tail, htail⟩ := hw
        rw [hk, ← List.drop_drop, ← hrest, List.drop_left] at htail
        exact ⟨tail, by rw [List.append_assoc, htail, hrest]⟩
      · intro h
        obtain ⟨w, hfront, hj, u, v, rfl, hu, hv⟩ := h
        obtain ⟨rest, hrest⟩ := hfront
        rw [List.append_assoc] at hrest
        obtain ⟨value, hmid⟩ := (hfirst hpf (t := t)).mpr
          ⟨u, ⟨v ++ rest, hrest⟩, rfl, hu⟩
        obtain ⟨value', hend⟩ := (hsecond hps
          (t := ⟨t.pos + u.length, value⟩)).mpr
          ⟨v, ⟨rest, by
            rw [← List.drop_drop, ← hrest, List.drop_left]⟩, rfl, hv⟩
        refine ⟨value', List.mem_flatMap.mpr ⟨_, hmid, ?_⟩⟩
        rw [hj, List.length_append, ← Nat.add_assoc]
        exact hend
  | alt first second hfirst hsecond =>
      intro hplain t j
      obtain ⟨hpf, hps⟩ := Bool.and_eq_true_iff.mp hplain
      constructor
      · intro h
        obtain ⟨v, hv⟩ := h
        rcases List.mem_append.mp hv with hv | hv
        · obtain ⟨w, hw, hj, hword⟩ := (hfirst hpf).mp ⟨v, hv⟩
          exact ⟨w, hw, hj, Or.inl hword⟩
        · obtain ⟨w, hw, hj, hword⟩ := (hsecond hps).mp ⟨v, hv⟩
          exact ⟨w, hw, hj, Or.inr hword⟩
      · intro h
        obtain ⟨w, hw, hj, hword⟩ := h
        rcases hword with hword | hword
        · obtain ⟨v, hv⟩ := (hfirst hpf).mpr ⟨w, hw, hj, hword⟩
          exact ⟨v, List.mem_append_left _ hv⟩
        · obtain ⟨v, hv⟩ := (hsecond hps).mpr ⟨w, hw, hj, hword⟩
          exact ⟨v, List.mem_append_right _ hv⟩
  | group body hbody =>
      intro hplain t j
      constructor
      · intro h
        obtain ⟨v, hv⟩ := h
        obtain ⟨inner, hinner, hthread⟩ := List.mem_map.mp hv
        cases hthread
        exact (hbody hplain).mp ⟨inner.value, hinner⟩
      · intro h
        obtain ⟨v, hv⟩ := (hbody hplain).mpr h
        exact ⟨_, List.mem_map.mpr ⟨_, hv, rfl⟩⟩

-- ==================================================== shapes

/-- What is looked for: a plain pattern, anywhere or only between word
boundaries. -/
structure Shape (α : Type) where
  body : Pattern α
  plain : isPlain body = true
  edges : Option (α → Bool)

/-- A word ends or begins between the two lists. -/
def Edge (word : α → Bool) (before after : List α) : Prop :=
  inWord word before.getLast? ≠ inWord word after.head?

namespace Shape

/-- The shape as a pattern. -/
def pattern (s : Shape α) : Pattern α :=
  match s.edges with
  | none => s.body
  | some word => sequence [.boundary word, s.body, .boundary word]

/-- The shape stands between the two lists. -/
structure Stands (s : Shape α) (before w after : List α) : Prop where
  word : Word s.body w
  opens : ∀ p ∈ s.edges, Edge p before (w ++ after)
  closes : ∀ p ∈ s.edges, Edge p (before ++ w) after

/-- The shape stands somewhere in the list. -/
def Occurs (s : Shape α) (xs : List α) : Prop :=
  ∃ before w after, xs = before ++ (w ++ after) ∧ s.Stands before w after

end Shape

theorem elementBefore_append (before after : List α) :
    elementBefore (before ++ after) before.length = before.getLast? := by
  unfold elementBefore
  cases before using List.reverseRecOn with
  | nil => rfl
  | append_singleton before a =>
      rw [if_neg (by simp), List.getLast?_concat]
      simp

/-- A boundary is passed where a word ends or begins. -/
theorem run_boundary_iff {word : α → Bool} {before after : List α}
    {t : Thread} {v : Option (Nat × Nat)} :
    t ∈ run (before ++ after) (.boundary word) ⟨before.length, v⟩ ↔
      t = ⟨before.length, v⟩ ∧ Edge word before after := by
  have hafter : (before ++ after)[before.length]? = after.head? := by
    rw [List.getElem?_append_right (Nat.le_refl _), Nat.sub_self,
      List.head?_eq_getElem?]
  unfold run
  simp only [elementBefore_append, hafter]
  by_cases h : inWord word before.getLast? = inWord word after.head?
  · rw [if_pos h]
    constructor
    · intro hmem
      cases hmem
    · intro hboth
      exact absurd h hboth.2
  · rw [if_neg h, List.mem_singleton]
    exact ⟨fun ht => ⟨ht, h⟩, fun hboth => hboth.1⟩

/-- The runs of a shape are where it stands. -/
theorem Shape.mem_run_iff (s : Shape α) {before rest : List α}
    {v : Option (Nat × Nat)} {j : Nat} :
    (∃ v', ⟨j, v'⟩ ∈ run (before ++ rest) s.pattern ⟨before.length, v⟩) ↔
      ∃ w after, rest = w ++ after ∧ j = before.length + w.length ∧
        s.Stands before w after := by
  have hbody : ∀ {v : Option (Nat × Nat)} {k : Nat},
      (∃ v', ⟨k, v'⟩ ∈ run (before ++ rest) s.body ⟨before.length, v⟩) ↔
        ∃ w, w <+: rest ∧ k = before.length + w.length ∧ Word s.body w := by
    intro v k
    rw [Regex.mem_run_iff s.body s.plain]
    simp only [List.drop_left]
  unfold Shape.pattern
  cases hedges : s.edges with
  | none =>
      simp only
      rw [hbody]
      constructor
      · intro h
        obtain ⟨w, ⟨after, hafter⟩, hj, hword⟩ := h
        refine ⟨w, after, hafter.symm, hj, hword, ?_, ?_⟩
        · intro p hp
          rw [hedges] at hp
          cases hp
        · intro p hp
          rw [hedges] at hp
          cases hp
      · intro h
        obtain ⟨w, after, hrest, hj, hstands⟩ := h
        exact ⟨w, ⟨after, hrest.symm⟩, hj, hstands.word⟩
  | some word =>
      simp only [sequence]
      constructor
      · intro h
        obtain ⟨v', hv'⟩ := h
        obtain ⟨first, hfirst, hv'⟩ := List.mem_flatMap.mp hv'
        obtain ⟨rfl, hopens⟩ := run_boundary_iff.mp hfirst
        obtain ⟨mid, hmid, hv'⟩ := List.mem_flatMap.mp hv'
        obtain ⟨w, ⟨after, hafter⟩, hk, hword⟩ :=
          hbody.mp ⟨mid.value, hmid⟩
        obtain ⟨last, hlast, hv'⟩ := List.mem_flatMap.mp hv'
        have hmidpos : mid = ⟨(before ++ w).length, mid.value⟩ := by
          rw [List.length_append, ← hk]
        rw [hmidpos, ← hafter, ← List.append_assoc] at hlast
        obtain ⟨rfl, hcloses⟩ := run_boundary_iff.mp hlast
        cases List.mem_singleton.mp hv'
        refine ⟨w, after, hafter.symm, List.length_append, hword, ?_, ?_⟩
        · intro p hp
          rw [hedges] at hp
          cases hp
          rw [hafter]
          exact hopens
        · intro p hp
          rw [hedges] at hp
          cases hp
          exact hcloses
      · intro h
        obtain ⟨w, after, rfl, hj, hstands⟩ := h
        obtain ⟨value, hmid⟩ := hbody.mpr
          ⟨w, ⟨after, rfl⟩, rfl, hstands.word⟩
        have hlast : (⟨(before ++ w).length, value⟩ : Thread) ∈
            run (before ++ (w ++ after)) (.boundary word)
              ⟨before.length + w.length, value⟩ := by
          rw [← List.append_assoc, ← List.length_append]
          exact run_boundary_iff.mpr ⟨rfl, hstands.closes word hedges⟩
        refine ⟨value, List.mem_flatMap.mpr ⟨_,
          run_boundary_iff.mpr ⟨rfl, hstands.opens word hedges⟩,
          List.mem_flatMap.mpr ⟨_, hmid,
            List.mem_flatMap.mpr ⟨_, hlast, List.mem_singleton.mpr ?_⟩⟩⟩⟩
        rw [hj, List.length_append]

-- ==================================================== substitution

/-- The patch that writes a mark in place of a match. -/
def patchOf (mark : List α) (found : Match) : Patch α :=
  ⟨found.start, found.stop, mark⟩

/-- `re.sub` with a constant replacement. -/
def sub (r : Pattern α) (mark xs : List α) : List α :=
  fill xs ((finditer r xs).map (patchOf mark))

/-- What a pass over these starting positions reports: matches that stand
one after the other, and every other position matches nothing. -/
structure Scanned (r : Pattern α) (xs : List α) (cursor : Nat)
    (starts : List Nat) (ms : List Match) : Prop where
  bounds : ∀ m ∈ ms, cursor ≤ m.start ∧ m.start < m.stop ∧
    m.stop ≤ xs.length
  chain : ms.Pairwise (fun m n => m.stop ≤ n.start)
  rest : ∀ i ∈ starts, cursor ≤ i → matchAt r xs i = none ∨
    ∃ m ∈ ms, m.start ≤ i ∧ i < m.stop

/-- A match of the pattern has a length and ends inside the list. -/
def Proper (r : Pattern α) (xs : List α) : Prop :=
  ∀ i m, i ≤ xs.length → matchAt r xs i = some m →
    m.start = i ∧ i < m.stop ∧ m.stop ≤ xs.length

theorem finditerFrom_scanned {r : Pattern α} {xs : List α}
    (hr : Proper r xs) (starts : List Nat) :
    ∀ {cursor}, starts.Pairwise (· < ·) → (∀ i ∈ starts, i ≤ xs.length) →
      Scanned r xs cursor starts (finditerFrom r xs cursor starts) := by
  induction starts with
  | nil =>
      intro cursor _ _
      exact ⟨fun m hm => absurd hm (List.not_mem_nil), .nil,
        fun i hi => absurd hi (List.not_mem_nil)⟩
  | cons start starts ih =>
      intro cursor hsorted hinside
      obtain ⟨hlater, hsorted⟩ := List.pairwise_cons.mp hsorted
      obtain ⟨hhere, hinside⟩ := List.forall_mem_cons.mp hinside
      unfold finditerFrom
      by_cases hcursor : start < cursor
      · rw [if_pos hcursor]
        have hpass : Scanned r xs cursor starts _ := ih hsorted hinside
        refine ⟨hpass.bounds, hpass.chain, fun i hi hle => ?_⟩
        rcases List.mem_cons.mp hi with rfl | hi
        · omega
        · exact hpass.rest i hi hle
      · rw [if_neg hcursor]
        cases hmatch : matchAt r xs start with
        | none =>
            have hpass : Scanned r xs cursor starts _ := ih hsorted hinside
            refine ⟨hpass.bounds, hpass.chain, fun i hi hle => ?_⟩
            rcases List.mem_cons.mp hi with rfl | hi
            · exact Or.inl hmatch
            · exact hpass.rest i hi hle
        | some found =>
            have hpass : Scanned r xs found.stop starts _ :=
              ih hsorted hinside
            obtain ⟨hstart, hlt, hstop⟩ := hr start found hhere hmatch
            refine ⟨fun m hm => ?_, List.pairwise_cons.mpr ⟨fun m hm =>
              (hpass.bounds m hm).1, hpass.chain⟩, fun i hi hle => ?_⟩
            · rcases List.mem_cons.mp hm with rfl | hm
              · omega
              · have := hpass.bounds m hm
                omega
            · rcases List.mem_cons.mp hi with rfl | hi
              · exact Or.inr ⟨found, List.mem_cons_self, by omega, hlt⟩
              · by_cases hcovered : i < found.stop
                · have := hlater i hi
                  exact Or.inr ⟨found, List.mem_cons_self, by omega,
                    hcovered⟩
                · rcases hpass.rest i hi (by omega) with h | ⟨m, hm, h⟩
                  · exact Or.inl h
                  · exact Or.inr ⟨m, List.mem_cons_of_mem _ hm, h⟩

/-- What a whole pass reports. -/
theorem finditer_scanned {r : Pattern α} {xs : List α} (hr : Proper r xs) :
    Scanned r xs 0 (List.range (xs.length + 1)) (finditer r xs) :=
  finditerFrom_scanned hr _ List.pairwise_lt_range
    (fun _ hi => Nat.le_of_lt_succ (List.mem_range.mp hi))

/-- The patches of a pass fit the list. -/
theorem Scanned.fits {r : Pattern α} {xs : List α} {starts : List Nat}
    {ms : List Match} (h : Scanned r xs 0 starts ms) (mark : List α) :
    Fits xs.length 0 (ms.map (patchOf mark)) := by
  apply fits_of_chain (Nat.zero_le _)
  · intro p hp
    obtain ⟨m, hm, rfl⟩ := List.mem_map.mp hp
    have := h.bounds m hm
    show 0 ≤ m.start ∧ m.start ≤ m.stop ∧ m.stop ≤ xs.length
    omega
  · rw [List.pairwise_map]
    exact h.chain

-- ==================================== a word in a filled list

/-- A range of the list that no patch touches, and what stands around it
before and after the fill: the same neighbours, or a patch. -/
structure InGap (xs : List α) (ps : List (Patch α)) (cursor : Nat)
    (pre w post before after : List α) : Prop where
  split : xs = before ++ (w ++ after)
  reached : cursor ≤ before.length
  clear : ∀ p ∈ ps, p.stop ≤ before.length ∨
    before.length + w.length ≤ p.start
  left : (∃ p ∈ ps, p.stop = before.length) ∨
    (pre = [] ∧ before.length = cursor) ∨ pre.getLast? = before.getLast?
  right : (∃ p ∈ ps, p.start = before.length + w.length) ∨
    post.head? = after.head?

/-- A word that holds neither end of the mark stands inside a mark, or in
a gap. -/
theorem fillTo_infix_cases {xs w mid : List α} {first last : α}
    (hne : w ≠ []) (hfirst : first ∉ w) (hlast : last ∉ w)
    {ps : List (Patch α)} :
    ∀ {cursor} {pre post : List α},
      (∀ p ∈ ps, p.body = first :: (mid ++ [last])) →
      Fits xs.length cursor ps →
      fillTo xs xs.length cursor ps = pre ++ (w ++ post) →
      w <:+: mid ∨
        ∃ before after, InGap xs ps cursor pre w post before after := by
  induction ps with
  | nil =>
      intro cursor pre post _ hfits hfill
      have hcur : cursor ≤ xs.length := hfits
      have hdrop : xs.drop cursor = pre ++ (w ++ post) := by
        rw [← hfill, fillTo, slice, List.take_length]
      refine Or.inr ⟨xs.take cursor ++ pre, post, ?_, ?_, ?_, ?_,
        Or.inr rfl⟩
      · rw [List.append_assoc, ← hdrop, List.take_append_drop]
      · rw [List.length_append, List.length_take]
        omega
      · intro p hp
        cases hp
      · cases pre using List.reverseRecOn with
        | nil =>
            refine Or.inr (Or.inl ⟨rfl, ?_⟩)
            rw [List.append_nil, List.length_take, Nat.min_eq_left hcur]
        | append_singleton pre a =>
            refine Or.inr (Or.inr ?_)
            rw [← List.append_assoc, List.getLast?_concat,
              List.getLast?_concat]
  | cons p ps ih =>
      intro cursor pre post hbodies hfits hfill
      obtain ⟨hcur, hspan, hrest⟩ := hfits
      obtain ⟨hp, hps⟩ := List.forall_mem_cons.mp hbodies
      obtain ⟨hend, hbounds⟩ := hrest.bounds
      have hgap : (xs.take cursor).length +
          (slice xs cursor p.start).length = p.start := by
        rw [length_slice, List.length_take]
        omega
      have hxs : xs = xs.take cursor ++
          (slice xs cursor p.start ++ xs.drop p.start) := by
        rw [slice_append_drop xs hcur, List.take_append_drop]
      rw [fillTo, hp, List.append_assoc, List.cons_append,
        List.append_assoc] at hfill
      rcases split_of_separated hne hfirst hfill with
        ⟨r, hslice, hpost⟩ | ⟨r, hpre, hmark⟩
      · -- the word lies in front of the first patch
        rw [hslice] at hxs hgap
        simp only [List.length_append] at hgap
        refine Or.inr ⟨xs.take cursor ++ pre, r ++ xs.drop p.start,
          ?_, ?_, ?_, ?_, ?_⟩
        · conv_lhs => rw [hxs]
          simp only [List.append_assoc]
        · rw [List.length_append, List.length_take]
          omega
        · intro q hq
          right
          rw [List.length_append]
          rcases List.mem_cons.mp hq with rfl | hq
          · omega
          · have := hbounds q hq
            omega
        · cases pre using List.reverseRecOn with
          | nil =>
              refine Or.inr (Or.inl ⟨rfl, ?_⟩)
              rw [List.append_nil, List.length_take]
              omega
          | append_singleton pre a =>
              refine Or.inr (Or.inr ?_)
              rw [← List.append_assoc, List.getLast?_concat,
                List.getLast?_concat]
        · cases r with
          | nil =>
              refine Or.inl ⟨p, List.mem_cons_self, ?_⟩
              rw [List.length_append]
              simp only [List.length_nil] at hgap
              omega
          | cons a r =>
              refine Or.inr ?_
              rw [hpost]
              rfl
      · -- or behind the mark's first element
        rcases split_of_separated hne hlast
            (show mid ++ last :: fillTo xs xs.length p.stop ps =
              r ++ (w ++ post) from by
                rw [← hmark]
                rfl) with
          ⟨s, hmid, -⟩ | ⟨s, hr, hfill⟩
        · exact Or.inl ⟨r, s, by rw [hmid, List.append_assoc]⟩
        · rcases ih hps hrest hfill with h | ⟨before, after, h⟩
          · exact Or.inl h
          have hreached := h.reached
          refine Or.inr ⟨before, after, h.split, by omega, ?_, ?_, ?_⟩
          · intro q hq
            rcases List.mem_cons.mp hq with rfl | hq
            · exact Or.inl hreached
            · exact h.clear q hq
          · rcases h.left with ⟨q, hq, hstop⟩ | ⟨-, hlen⟩ | hlast
            · exact Or.inl ⟨q, List.mem_cons_of_mem _ hq, hstop⟩
            · exact Or.inl ⟨p, List.mem_cons_self, hlen.symm⟩
            · cases s using List.reverseRecOn with
              | nil =>
                  refine Or.inl ⟨p, List.mem_cons_self, ?_⟩
                  have hnil : before = [] :=
                    List.getLast?_eq_none_iff.mp hlast.symm
                  rw [hnil] at hreached ⊢
                  exact Nat.le_zero.mp hreached
              | append_singleton s a =>
                  refine Or.inr (Or.inr ?_)
                  have hpre : pre = slice xs cursor p.start ++
                      first :: (mid ++ last :: s) ++ [a] := by
                    rw [hpre, hr]
                    simp
                  rw [← hlast, hpre, List.getLast?_concat,
                    List.getLast?_concat]
          · rcases h.right with ⟨q, hq, hstart⟩ | hhead
            · exact Or.inl ⟨q, List.mem_cons_of_mem _ hq, hstart⟩
            · exact Or.inr hhead

-- ==================================================== scrubbing

namespace Shape

variable {s q : Shape α}

/-- No word of the shape holds an end of the mark, or lies inside it. -/
def Foreign (s : Shape α) (first : α) (mid : List α) (last : α) : Prop :=
  ∀ w, Word s.body w → first ∉ w ∧ last ∉ w ∧ ∃ a ∈ w, a ∉ mid

theorem Foreign.ne_nil {first last : α} {mid w : List α}
    (h : s.Foreign first mid last) (hw : Word s.body w) : w ≠ [] := by
  obtain ⟨-, -, a, ha, -⟩ := h w hw
  exact List.ne_nil_of_mem ha

/-- A run of a shape is a place where it stands. -/
theorem stands_of_mem_run {xs : List α} {i j : Nat}
    {v v' : Option (Nat × Nat)} (hi : i ≤ xs.length)
    (h : ⟨j, v'⟩ ∈ run xs s.pattern ⟨i, v⟩) :
    ∃ before w after, xs = before ++ (w ++ after) ∧ before.length = i ∧
      j = i + w.length ∧ s.Stands before w after := by
  have hlen : (xs.take i).length = i := by
    rw [List.length_take, Nat.min_eq_left hi]
  have hat : ⟨j, v'⟩ ∈ run (xs.take i ++ xs.drop i) s.pattern
      ⟨(xs.take i).length, v⟩ := by
    rw [hlen, List.take_append_drop]
    exact h
  obtain ⟨w, after, hrest, hstop, hstands⟩ := s.mem_run_iff.mp ⟨_, hat⟩
  rw [hlen] at hstop
  exact ⟨xs.take i, w, after, by rw [← hrest, List.take_append_drop], hlen,
    hstop, hstands⟩

/-- And where it stands there is a match. -/
theorem matchAt_of_stands {before w after : List α}
    (h : s.Stands before w after) :
    matchAt s.pattern (before ++ (w ++ after)) before.length ≠ none := by
  obtain ⟨v, hv⟩ := s.mem_run_iff.mpr ⟨w, after, rfl, rfl, h⟩
  intro hnone
  have hnil : run (before ++ (w ++ after)) s.pattern
      ⟨before.length, none⟩ = [] :=
    List.head?_eq_none_iff.mp (Option.map_eq_none_iff.mp hnone)
  rw [hnil] at hv
  cases hv

variable {first last : α} {mid : List α}

theorem Foreign.proper (h : s.Foreign first mid last) (xs : List α) :
    Proper s.pattern xs := by
  intro i m hi hm
  obtain ⟨t, ht, rfl⟩ := Option.map_eq_some_iff.mp hm
  obtain ⟨before, w, after, rfl, rfl, hstop, hstands⟩ :=
    stands_of_mem_run (j := t.pos) hi (List.mem_of_mem_head? ht)
  have hpos := List.length_pos_iff.mpr (h.ne_nil hstands.word)
  refine ⟨rfl, ?_, ?_⟩
  · show before.length < t.pos
    omega
  · show t.pos ≤ _
    rw [List.length_append, List.length_append]
    omega

end Shape

theorem edge_congr {word : α → Bool} {a a' b b' : List α}
    (hlast : a.getLast? = a'.getLast?) (hhead : b.head? = b'.head?) :
    Edge word a b ↔ Edge word a' b' := by
  unfold Edge
  rw [hlast, hhead]

theorem head?_append_congr {w a b : List α} (hne : w ≠ []) :
    (w ++ a).head? = (w ++ b).head? := by
  rw [List.head?_append_of_ne_nil _ hne, List.head?_append_of_ne_nil _ hne]

theorem getLast?_append_congr {w a b : List α} (hne : w ≠ []) :
    (a ++ w).getLast? = (b ++ w).getLast? := by
  rw [List.getLast?_append_of_ne_nil _ hne,
    List.getLast?_append_of_ne_nil _ hne]

/-- Where a shape with edges was reported, the list has an edge at both
ends. -/
theorem edges_of_mem_finditer {r : Shape α} {xs : List α} {m : Match}
    {word : α → Bool} (hm : m ∈ finditer r.pattern xs)
    (hstart : m.start ≤ xs.length) (hword : r.edges = some word)
    {a b : List α} (hxs : xs = a ++ b)
    (hat : a.length = m.start ∨ a.length = m.stop) : Edge word a b := by
  obtain ⟨before, w, after, rfl, hlen, hstop, hstands⟩ :=
    Shape.stands_of_mem_run hstart (of_mem_finditer hm)
  rcases hat with hat | hat
  · obtain ⟨rfl, rfl⟩ := List.append_inj hxs (by omega)
    exact hstands.opens word hword
  · rw [← List.append_assoc] at hxs
    obtain ⟨rfl, rfl⟩ := List.append_inj hxs (by
      rw [List.length_append]
      omega)
    exact hstands.closes word hword

/-- A substitution by one shape lets none other in: where it writes, the
shape cannot stand, and elsewhere it stood already. -/
theorem not_occurs_sub {q r : Shape α} {first last : α} {mid xs : List α}
    (hq : q.Foreign first mid last) (hr : r.Foreign first mid last)
    (hedges : ∀ word, q.edges = some word → r.edges = some word)
    (hbefore : ¬ q.Occurs xs ∨ q = r) :
    ¬ q.Occurs (sub r.pattern (first :: (mid ++ [last])) xs) := by
  intro hoccurs
  obtain ⟨pre, w, post, hsub, hstands⟩ := hoccurs
  obtain ⟨hfirst, hlast, a, ha, hmid⟩ := hq w hstands.word
  have hne := hq.ne_nil hstands.word
  have hscanned := finditer_scanned (hr.proper xs)
  have hfits := hscanned.fits (first :: (mid ++ [last]))
  rcases fillTo_infix_cases hne hfirst hlast (by
      intro p hp
      obtain ⟨m, -, rfl⟩ := List.mem_map.mp hp
      rfl) hfits hsub with
    hinside | ⟨before, after, hgap⟩
  · exact hmid (hinside.subset ha)
  -- at an end of a substituted match the list had an edge already
  have hends : ∀ p ∈ (finditer r.pattern xs).map
        (patchOf (first :: (mid ++ [last]))),
      ∀ word, q.edges = some word → ∀ a b, xs = a ++ b →
        a.length = p.start ∨ a.length = p.stop → Edge word a b := by
    intro p hp word hword a b hxs hat
    obtain ⟨m, hm, rfl⟩ := List.mem_map.mp hp
    have := hscanned.bounds m hm
    exact edges_of_mem_finditer hm (by omega) (hedges word hword) hxs hat
  have hthere : q.Stands before w after := by
    refine ⟨hstands.word, ?_, ?_⟩
    · intro word hword
      rcases hgap.left with ⟨p, hp, hstop⟩ | ⟨rfl, hzero⟩ | hsame
      · exact hends p hp word hword before (w ++ after) hgap.split
          (Or.inr hstop.symm)
      · rw [List.length_eq_zero_iff.mp hzero]
        exact (edge_congr rfl (head?_append_congr hne)).mp
          (hstands.opens word hword)
      · exact (edge_congr hsame (head?_append_congr hne)).mp
          (hstands.opens word hword)
    · intro word hword
      rcases hgap.right with ⟨p, hp, hstart⟩ | hsame
      · refine hends p hp word hword (before ++ w) after ?_ (Or.inl ?_)
        · rw [hgap.split, List.append_assoc]
        · rw [List.length_append, hstart]
      · exact (edge_congr (getLast?_append_congr hne) hsame).mp
          (hstands.closes word hword)
  rcases hbefore with hbefore | rfl
  · exact hbefore ⟨before, w, after, hgap.split, hthere⟩
  · -- a match of the shape itself was not passed over
    have hmatch := Shape.matchAt_of_stands hthere
    rw [← hgap.split] at hmatch
    have hlen : before.length ≤ xs.length := by
      rw [hgap.split, List.length_append]
      exact Nat.le_add_right _ _
    rcases hscanned.rest before.length
        (List.mem_range.mpr (Nat.lt_succ_of_le hlen)) (Nat.zero_le _) with
      hnone | ⟨m, hm, hle, hlt⟩
    · exact hmatch hnone
    · have hpos := List.length_pos_iff.mpr hne
      have := hgap.clear (patchOf _ m) (List.mem_map_of_mem hm)
      simp only [patchOf] at this
      omega

/-- Where the shape does not stand there is nothing to report. -/
theorem finditer_eq_nil_iff {s : Shape α} {first last : α} {mid : List α}
    (h : s.Foreign first mid last) {xs : List α} :
    finditer s.pattern xs = [] ↔ ¬ s.Occurs xs := by
  have hscanned := finditer_scanned (h.proper xs)
  constructor
  · intro hnil hoccurs
    obtain ⟨before, w, after, rfl, hstands⟩ := hoccurs
    rw [hnil] at hscanned
    rcases hscanned.rest before.length (List.mem_range.mpr (by
        rw [List.length_append]
        omega)) (Nat.zero_le _) with hnone | ⟨m, hm, -⟩
    · exact Shape.matchAt_of_stands hstands hnone
    · cases hm
  · intro hoccurs
    rw [List.eq_nil_iff_forall_not_mem]
    intro m hm
    have := hscanned.bounds m hm
    obtain ⟨before, w, after, hxs, -, -, hstands⟩ :=
      Shape.stands_of_mem_run (by omega) (of_mem_finditer hm)
    exact hoccurs ⟨before, w, after, hxs, hstands⟩

theorem sub_eq_self {s : Shape α} {mark xs : List α}
    (h : finditer s.pattern xs = []) : sub s.pattern mark xs = xs := by
  unfold sub
  rw [h]
  exact slice_zero_length xs

/-- One substitution after another, all with one mark. -/
def scrub (mark : List α) (shapes : List (Shape α)) (xs : List α) :
    List α :=
  shapes.foldl (fun xs s => sub s.pattern mark xs) xs

/-- Shapes that may be scrubbed in this order: none meets the mark, and
after one with edges come only shapes with the same. -/
structure Scrubbable (first : α) (mid : List α) (last : α)
    (shapes : List (Shape α)) : Prop where
  foreign : ∀ s ∈ shapes, s.Foreign first mid last
  edges : shapes.Pairwise
    (fun q r => ∀ word, q.edges = some word → r.edges = some word)

section Scrub

variable {first last : α} {mid : List α} {shapes : List (Shape α)}

/-- What stands nowhere stays out. -/
theorem not_occurs_scrub_of {q : Shape α} (hq : q.Foreign first mid last)
    (hshapes : ∀ s ∈ shapes, s.Foreign first mid last ∧
      ∀ word, q.edges = some word → s.edges = some word) :
    ∀ {xs : List α}, ¬ q.Occurs xs →
      ¬ q.Occurs (scrub (first :: (mid ++ [last])) shapes xs) := by
  induction shapes with
  | nil =>
      intro xs h
      exact h
  | cons s shapes ih =>
      intro xs h
      obtain ⟨hs, hshapes⟩ := List.forall_mem_cons.mp hshapes
      exact ih hshapes (not_occurs_sub hq hs.1 hs.2 (Or.inl h))

/-- Scrubbing leaves none of its shapes. -/
theorem not_occurs_scrub (h : Scrubbable first mid last shapes) :
    ∀ (xs : List α), ∀ s ∈ shapes,
      ¬ s.Occurs (scrub (first :: (mid ++ [last])) shapes xs) := by
  obtain ⟨hforeign, hedges⟩ := h
  induction shapes with
  | nil =>
      intro xs s hs
      cases hs
  | cons r shapes ih =>
      intro xs s hs
      obtain ⟨hr, hrest⟩ := List.forall_mem_cons.mp hforeign
      obtain ⟨hafter, htail⟩ := List.pairwise_cons.mp hedges
      rcases List.mem_cons.mp hs with rfl | hs
      · exact not_occurs_scrub_of hr
          (fun q hq => ⟨hrest q hq, hafter q hq⟩)
          (not_occurs_sub hr hr (fun _ h => h) (Or.inr rfl))
      · exact ih hrest htail _ s hs

/-- And what holds none of them is left alone. -/
theorem scrub_eq_self (h : ∀ s ∈ shapes, s.Foreign first mid last)
    {mark xs : List α} (hquiet : ∀ s ∈ shapes, ¬ s.Occurs xs) :
    scrub mark shapes xs = xs := by
  induction shapes with
  | nil => rfl
  | cons r shapes ih =>
      obtain ⟨hr, h⟩ := List.forall_mem_cons.mp h
      obtain ⟨hquiet, hrest⟩ := List.forall_mem_cons.mp hquiet
      show scrub mark shapes (sub r.pattern mark xs) = xs
      rw [sub_eq_self ((finditer_eq_nil_iff hr).mpr hquiet)]
      exact ih h hrest

end Scrub

-- ==================================================== telling the words

/-- The pattern accepts this element nowhere. -/
def rejects (a : α) : Pattern α → Bool
  | .empty => true
  | .one p => !p a
  | .many p _ _ => !p a
  | .boundary _ => true
  | .seq first second => rejects a first && rejects a second
  | .alt first second => rejects a first && rejects a second
  | .group body => rejects a body

theorem not_mem_of_rejects {a : α} (r : Pattern α) :
    rejects a r = true → ∀ {w}, Word r w → a ∉ w := by
  induction r with
  | empty =>
      intro _ w hw
      rw [show w = [] from hw]
      exact List.not_mem_nil
  | one p =>
      intro h w hw hmem
      obtain ⟨b, rfl, hp⟩ := hw
      rw [List.mem_singleton.mp hmem] at h
      simp [rejects, hp] at h
  | many p least most =>
      intro h w hw hmem
      obtain ⟨-, -, hall⟩ := hw
      simp [rejects, hall a hmem] at h
  | boundary word =>
      intro _ w hw
      cases hw
  | seq first second hfirst hsecond =>
      intro h w hw
      obtain ⟨hf, hs⟩ := Bool.and_eq_true_iff.mp h
      obtain ⟨u, v, rfl, hu, hv⟩ := hw
      rw [List.mem_append, not_or]
      exact ⟨hfirst hf hu, hsecond hs hv⟩
  | alt first second hfirst hsecond =>
      intro h w hw
      obtain ⟨hf, hs⟩ := Bool.and_eq_true_iff.mp h
      rcases hw with hw | hw
      · exact hfirst hf hw
      · exact hsecond hs hw
  | group body hbody =>
      intro h w hw
      exact hbody h hw

/-- Every word of the pattern holds an element outside the list. -/
def leaves (mid : List α) : Pattern α → Bool
  | .empty => false
  | .one p => mid.all (fun a => !p a)
  | .many p least _ => decide (0 < least) && mid.all (fun a => !p a)
  | .boundary _ => false
  | .seq first second => leaves mid first || leaves mid second
  | .alt first second => leaves mid first && leaves mid second
  | .group body => leaves mid body

theorem exists_outside_of_leaves {mid : List α} (r : Pattern α) :
    leaves mid r = true → ∀ {w}, Word r w → ∃ a ∈ w, a ∉ mid := by
  have hout : ∀ {p : α → Bool}, mid.all (fun a => !p a) = true →
      ∀ {a}, p a = true → a ∉ mid := by
    intro p h a hp hmem
    have := List.all_eq_true.mp h a hmem
    simp [hp] at this
  induction r with
  | empty =>
      intro h
      cases h
  | one p =>
      intro h w hw
      obtain ⟨a, rfl, hp⟩ := hw
      exact ⟨a, List.mem_singleton_self a, hout h hp⟩
  | many p least most =>
      intro h w hw
      obtain ⟨hpos, h⟩ := Bool.and_eq_true_iff.mp h
      obtain ⟨hleast, -, hall⟩ := hw
      have hpos : 0 < w.length :=
        Nat.lt_of_lt_of_le (of_decide_eq_true hpos) hleast
      obtain ⟨a, ha⟩ := List.exists_mem_of_length_pos hpos
      exact ⟨a, ha, hout h (hall a ha)⟩
  | boundary word =>
      intro h
      cases h
  | seq first second hfirst hsecond =>
      intro h w hw
      obtain ⟨u, v, rfl, hu, hv⟩ := hw
      rcases Bool.or_eq_true_iff.mp h with h | h
      · obtain ⟨a, ha, hmid⟩ := hfirst h hu
        exact ⟨a, List.mem_append_left _ ha, hmid⟩
      · obtain ⟨a, ha, hmid⟩ := hsecond h hv
        exact ⟨a, List.mem_append_right _ ha, hmid⟩
  | alt first second hfirst hsecond =>
      intro h w hw
      obtain ⟨hf, hs⟩ := Bool.and_eq_true_iff.mp h
      rcases hw with hw | hw
      · exact hfirst hf hw
      · exact hsecond hs hw
  | group body hbody =>
      intro h w hw
      exact hbody h hw

/-- A shape whose pattern rejects both ends of the mark, and leaves what
lies between them, is foreign to it. -/
theorem Shape.foreign_of {s : Shape α} {first last : α} {mid : List α}
    (hfirst : rejects first s.body = true)
    (hlast : rejects last s.body = true) (hmid : leaves mid s.body = true) :
    s.Foreign first mid last := by
  intro w hw
  exact ⟨not_mem_of_rejects _ hfirst hw, not_mem_of_rejects _ hlast hw,
    exists_outside_of_leaves _ hmid hw⟩

end Regex
