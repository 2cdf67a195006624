/-
Replacing ranges of a list.

A `Patch` is a range and what goes in its place. `fill` writes a list of
patches in one pass from the left, copying what stands between them;
`fillBack` writes them from the right, collecting the pieces in reverse
and joining them once at the end. The two are one function
(`fillBack_reverse`), so what is said of the left-to-right form below is
said of both.

# What a fill copies

A fill does not look at the elements it moves: it commutes with every map
(`fillTo_map`). Run over elements paired with their positions, it says
where each element of its result came from, so `copied` is the list of
positions that survive. `mem_copied` determines it: a position survives
exactly when it lies in the list and under no patch.

# What a second fill undoes

`weave` lists a result by its gaps and bodies, and `spots` says where
the bodies landed. `fill_weave` is the round trip: patching each spot
with `f` of what stands there rewrites every body by `f` and touches no
gap, and `fill_fill` says so of the fill itself.
-/
import Mathlib.Data.List.Basic
import Mathlib.Data.List.Induction

namespace Splice

variable {α β : Type}

-- ==================================================== slices

/-- The elements at positions `start`, …, `stop - 1`. -/
def slice (xs : List α) (start stop : Nat) : List α :=
  (xs.take stop).drop start

theorem slice_map (f : α → β) (xs : List α) (start stop : Nat) :
    slice (xs.map f) start stop = (slice xs start stop).map f := by
  unfold slice
  rw [← List.map_take, ← List.map_drop]

theorem length_slice (xs : List α) (start stop : Nat) :
    (slice xs start stop).length = min stop xs.length - start := by
  simp [slice]

theorem slice_append_slice (xs : List α) {a b c : Nat} (hab : a ≤ b)
    (hbc : b ≤ c) : slice xs a b ++ slice xs b c = slice xs a c := by
  unfold slice
  have htake : xs.take c = xs.take b ++ (xs.take c).drop b := by
    conv_lhs => rw [← List.take_append_drop b (xs.take c)]
    rw [List.take_take, Nat.min_eq_left hbc]
  by_cases hlen : b ≤ xs.length
  · conv_rhs => rw [htake]
    rw [List.drop_append_of_le_length (by simp; omega)]
  · rw [List.take_of_length_le (by omega : xs.length ≤ b),
      List.take_of_length_le (by omega : xs.length ≤ c),
      List.drop_eq_nil_of_le (by omega : xs.length ≤ b), List.append_nil]

theorem slice_append_drop (xs : List α) {a b : Nat} (h : a ≤ b) :
    slice xs a b ++ xs.drop b = xs.drop a := by
  unfold slice
  rw [List.drop_take]
  conv_rhs => rw [← List.take_append_drop (b - a) (xs.drop a)]
  rw [List.drop_drop, Nat.add_sub_cancel' h]

theorem slice_zero_length (xs : List α) : slice xs 0 xs.length = xs := by
  simp [slice]

/-- A slice that ends where its first list does. -/
theorem slice_append_left (pre xs : List α) (n : Nat) :
    slice (pre ++ xs) pre.length (pre.length + n) = xs.take n := by
  unfold slice
  rw [List.take_append, List.drop_append]
  simp

-- ==================================================== patches

/-- A range and the elements that replace it. -/
structure Patch (α : Type) where
  start : Nat
  stop : Nat
  body : List α

namespace Patch

def map (f : α → β) (p : Patch α) : Patch β :=
  ⟨p.start, p.stop, p.body.map f⟩

/-- The position lies under the patch. -/
def Covers (p : Patch α) (i : Nat) : Prop :=
  p.start ≤ i ∧ i < p.stop

end Patch

/-- Copy `xs` from `cursor` up to `stop`, writing each patch in place of
its range. -/
def fillTo (xs : List α) (stop : Nat) : Nat → List (Patch α) → List α
  | cursor, [] => slice xs cursor stop
  | cursor, p :: ps =>
      slice xs cursor p.start ++ p.body ++ fillTo xs stop p.stop ps

/-- The whole list with every patch written. -/
def fill (xs : List α) (ps : List (Patch α)) : List α :=
  fillTo xs xs.length 0 ps

/-- Write the patches from the right: the pieces are collected in reverse
order and joined once, at the end. -/
def backFrom (xs : List α) :
    Nat → List (List α) → List (Patch α) → List α
  | cursor, pieces, [] => (pieces ++ [xs.take cursor]).reverse.flatten
  | cursor, pieces, p :: ps =>
      backFrom xs p.start (pieces ++ [slice xs p.stop cursor, p.body]) ps

def fillBack (xs : List α) (ps : List (Patch α)) : List α :=
  backFrom xs xs.length [] ps

/-- The patches stand one after the other from `cursor`, inside a list of
length `len`. -/
def Fits (len : Nat) : Nat → List (Patch α) → Prop
  | cursor, [] => cursor ≤ len
  | cursor, p :: ps =>
      cursor ≤ p.start ∧ p.start ≤ p.stop ∧ Fits len p.stop ps

/-- A fill copies up to any place before its first patch. -/
theorem fillTo_split (xs : List α) {stop cursor c : Nat} (hle : cursor ≤ c)
    (hstop : c ≤ stop) {ps : List (Patch α)}
    (hfirst : ∀ p ∈ ps, c ≤ p.start) :
    fillTo xs stop cursor ps = slice xs cursor c ++ fillTo xs stop c ps := by
  cases ps with
  | nil => exact (slice_append_slice xs hle hstop).symm
  | cons p ps =>
      have hp := hfirst p List.mem_cons_self
      show slice xs cursor p.start ++ p.body ++ _ =
        slice xs cursor c ++ (slice xs c p.start ++ p.body ++ _)
      rw [← slice_append_slice xs hle hp]
      simp only [List.append_assoc]

/-- A fitting patch lies between the cursor and the end of the list. -/
theorem Fits.bounds {len : Nat} {ps : List (Patch α)} :
    ∀ {cursor}, Fits len cursor ps → cursor ≤ len ∧
      ∀ p ∈ ps, cursor ≤ p.start ∧ p.start ≤ p.stop ∧ p.stop ≤ len := by
  induction ps with
  | nil =>
      intro cursor hfits
      exact ⟨hfits, fun p hp => absurd hp (List.not_mem_nil)⟩
  | cons q ps ih =>
      intro cursor hfits
      obtain ⟨hcur, hlen, hrest⟩ := hfits
      obtain ⟨hend, hall⟩ := ih hrest
      refine ⟨by omega, fun p hp => ?_⟩
      rcases List.mem_cons.mp hp with rfl | hp
      · exact ⟨hcur, hlen, hend⟩
      · obtain ⟨h1, h2, h3⟩ := hall p hp
        exact ⟨by omega, h2, h3⟩

/-- Patches that stand one after the other inside the list fit it. -/
theorem fits_of_chain {len : Nat} {ps : List (Patch α)} :
    ∀ {cursor}, cursor ≤ len →
      (∀ p ∈ ps, cursor ≤ p.start ∧ p.start ≤ p.stop ∧ p.stop ≤ len) →
      ps.Pairwise (fun p q => p.stop ≤ q.start) → Fits len cursor ps := by
  induction ps with
  | nil =>
      intro cursor hcur _ _
      exact hcur
  | cons p ps ih =>
      intro cursor hcur hall hchain
      obtain ⟨hp, hps⟩ := List.forall_mem_cons.mp hall
      obtain ⟨hafter, hchain⟩ := List.pairwise_cons.mp hchain
      refine ⟨hp.1, hp.2.1, ih hp.2.2 (fun q hq => ?_) hchain⟩
      exact ⟨hafter q hq, (hps q hq).2⟩

/-- A fill writes nothing but what is in the list or in a body. -/
theorem mem_of_mem_fillTo {xs : List α} {stop : Nat} {a : α}
    {ps : List (Patch α)} :
    ∀ {cursor}, a ∈ fillTo xs stop cursor ps →
      a ∈ xs ∨ ∃ p ∈ ps, a ∈ p.body := by
  have hslice : ∀ i j, a ∈ slice xs i j → a ∈ xs :=
    fun i j h => List.mem_of_mem_take (List.mem_of_mem_drop h)
  induction ps with
  | nil =>
      intro cursor h
      exact Or.inl (hslice _ _ h)
  | cons p ps ih =>
      intro cursor h
      rw [fillTo, List.mem_append, List.mem_append] at h
      rcases h with (hgap | hbody) | hrest
      · exact Or.inl (hslice _ _ hgap)
      · exact Or.inr ⟨p, List.mem_cons_self, hbody⟩
      · refine (ih hrest).imp_right ?_
        intro hp
        obtain ⟨q, hq, hbody⟩ := hp
        exact ⟨q, List.mem_cons_of_mem _ hq, hbody⟩

theorem mem_of_mem_fill {xs : List α} {ps : List (Patch α)} {a : α}
    (h : a ∈ fill xs ps) : a ∈ xs ∨ ∃ p ∈ ps, a ∈ p.body :=
  mem_of_mem_fillTo h

/-- A list that is not empty, filled with bodies that are not, is not
empty. -/
theorem fill_ne_nil {xs : List α} {ps : List (Patch α)} (hxs : xs ≠ [])
    (hbodies : ∀ p ∈ ps, p.body ≠ []) : fill xs ps ≠ [] := by
  unfold fill
  cases ps with
  | nil =>
      rw [fillTo, slice_zero_length]
      exact hxs
  | cons p ps =>
      rw [fillTo]
      have hbody := hbodies p List.mem_cons_self
      simp [hbody]

-- ==================================== the two directions agree

/-- A fill around one of its patches. -/
theorem fillTo_append_cons (xs : List α) (stop : Nat) (p : Patch α)
    (before after : List (Patch α)) :
    ∀ cursor, fillTo xs stop cursor (before ++ p :: after) =
      fillTo xs p.start cursor before ++ p.body ++
        fillTo xs stop p.stop after := by
  induction before with
  | nil =>
      intro cursor
      rfl
  | cons q before ih =>
      intro cursor
      simp only [List.cons_append, fillTo, ih, List.append_assoc]

/-- The backward walk over a reversed list is the forward fill up to the
cursor, followed by the pieces already collected. -/
theorem backFrom_reverse (xs : List α) (ps : List (Patch α)) :
    ∀ cursor pieces, backFrom xs cursor pieces ps.reverse =
      fillTo xs cursor 0 ps ++ pieces.reverse.flatten := by
  induction ps using List.reverseRecOn with
  | nil =>
      intro cursor pieces
      simp [backFrom, fillTo, slice]
  | append_singleton ps p ih =>
      intro cursor pieces
      rw [List.reverse_append, List.reverse_singleton,
        List.singleton_append, backFrom, ih, fillTo_append_cons]
      simp [fillTo]

/-- Writing the patches from the right is writing them from the left. -/
theorem fillBack_reverse (xs : List α) (ps : List (Patch α)) :
    fillBack xs ps.reverse = fill xs ps := by
  simp [fillBack, fill, backFrom_reverse]

-- ==================================== a fill moves, it does not look

theorem fillTo_map (f : α → β) (xs : List α) (stop : Nat)
    (ps : List (Patch α)) :
    ∀ cursor, fillTo (xs.map f) stop cursor (ps.map (Patch.map f)) =
      (fillTo xs stop cursor ps).map f := by
  induction ps with
  | nil =>
      intro cursor
      exact slice_map f xs cursor stop
  | cons p ps ih =>
      intro cursor
      simp only [List.map_cons, fillTo, List.map_append]
      rw [← ih p.stop]
      simp only [Patch.map, slice_map]

theorem fill_map (f : α → β) (xs : List α) (ps : List (Patch α)) :
    fill (xs.map f) (ps.map (Patch.map f)) = (fill xs ps).map f := by
  unfold fill
  rw [List.length_map]
  exact fillTo_map f xs xs.length ps 0

/-- Each element with the position it stands at. -/
def labelled (xs : List α) : List (α × Option Nat) :=
  xs.zipIdx.map (fun x => (x.1, some x.2))

/-- A patch whose elements come from no position. -/
def unlabelled (p : Patch α) : Patch (α × Option Nat) :=
  p.map (fun a => (a, none))

/-- The positions a fill copies, read off the fill of the labelled list. -/
def copied (xs : List α) (ps : List (Patch α)) : List Nat :=
  (fill (labelled xs) (ps.map unlabelled)).filterMap Prod.snd

theorem map_fst_labelled (xs : List α) : (labelled xs).map Prod.fst = xs := by
  simp [labelled, List.map_map, Function.comp_def]

/-- Forgetting the labels gives the fill itself, so `copied` speaks of
the very elements the fill moved. -/
theorem map_fst_fill_labelled (xs : List α) (ps : List (Patch α)) :
    (fill (labelled xs) (ps.map unlabelled)).map Prod.fst = fill xs ps := by
  rw [← fill_map, map_fst_labelled, List.map_map]
  congr 1
  conv_rhs => rw [← List.map_id ps]
  refine List.map_congr_left (fun p _ => ?_)
  simp [unlabelled, Patch.map, Function.comp_def]

theorem filterMap_slice_labelled (xs : List α) (a b : Nat) :
    (slice (labelled xs) a b).filterMap Prod.snd =
      slice (List.range xs.length) a b := by
  have hrange : (labelled xs).map Prod.snd =
      (List.range xs.length).map some := by
    rw [labelled, List.map_map]
    conv_rhs => rw [List.range_eq_range', ← List.zipIdx_map_snd 0 xs]
    rw [List.map_map]
    rfl
  have hfm : ∀ l : List (α × Option Nat),
      l.filterMap Prod.snd = (l.map Prod.snd).filterMap id := by
    intro l
    rw [List.filterMap_map]
    rfl
  rw [hfm, ← slice_map, hrange, slice_map, List.filterMap_map]
  exact List.filterMap_some

theorem mem_slice_range {n a b i : Nat} :
    i ∈ slice (List.range n) a b ↔ a ≤ i ∧ i < b ∧ i < n := by
  unfold slice
  rw [List.take_range, List.mem_drop_iff_getElem]
  constructor
  · rintro ⟨j, hj, rfl⟩
    simp only [List.length_range] at hj
    simp only [List.getElem_range]
    omega
  · rintro ⟨ha, hb, hn⟩
    refine ⟨i - a, by simp; omega, ?_⟩
    simp only [List.getElem_range]
    omega

private theorem mem_copiedTo (xs : List α) (ps : List (Patch α)) :
    ∀ cursor, Fits xs.length cursor ps → ∀ i,
      i ∈ (fillTo (labelled xs) xs.length cursor
          (ps.map unlabelled)).filterMap Prod.snd ↔
        cursor ≤ i ∧ i < xs.length ∧ ∀ p ∈ ps, ¬ p.Covers i := by
  induction ps with
  | nil =>
      intro cursor _ i
      simp [fillTo, filterMap_slice_labelled, mem_slice_range]
  | cons p ps ih =>
      intro cursor hfits i
      obtain ⟨hcur, hlen, hrest⟩ := hfits
      obtain ⟨hend, hafter⟩ := hrest.bounds
      have hbody : ((unlabelled p).body).filterMap Prod.snd = [] := by
        simp [unlabelled, Patch.map]
      simp only [List.map_cons, fillTo, List.filterMap_append,
        List.mem_append, hbody, List.not_mem_nil, or_false,
        List.forall_mem_cons]
      rw [show (unlabelled p).stop = p.stop from rfl,
        show (unlabelled p).start = p.start from rfl,
        filterMap_slice_labelled, mem_slice_range, ih p.stop hrest i]
      constructor
      · rintro (⟨hc, hp, hn⟩ | ⟨hp, hn, hps⟩)
        · -- copied from the gap before the patch, so before all later ones
          refine ⟨hc, hn, fun hcov => absurd hcov.1 (by omega), ?_⟩
          intro q hq hcov
          have := (hafter q hq).1
          have := hcov.1
          omega
        · exact ⟨by omega, hn, fun hcov => absurd hcov.2 (by omega), hps⟩
      · rintro ⟨hc, hn, hp, hps⟩
        by_cases hi : i < p.start
        · exact Or.inl ⟨hc, hi, hn⟩
        · refine Or.inr ⟨?_, hn, hps⟩
          by_contra hstop
          exact hp ⟨by omega, by omega⟩

/-- A fill copies exactly the positions that lie under no patch. -/
theorem mem_copied {xs : List α} {ps : List (Patch α)}
    (hfits : Fits xs.length 0 ps) {i : Nat} :
    i ∈ copied xs ps ↔ i < xs.length ∧ ∀ p ∈ ps, ¬ p.Covers i := by
  have hlen : (labelled xs).length = xs.length := by simp [labelled]
  unfold copied fill
  rw [hlen, mem_copiedTo xs ps 0 hfits i]
  simp

-- ==================================== gaps, bodies and a second fill

/-- The gaps of a fill, each with the body written after it. -/
def pieces (xs : List α) : Nat → List (Patch α) → List (List α × List α)
  | _, [] => []
  | cursor, p :: ps =>
      (slice xs cursor p.start, p.body) :: pieces xs p.stop ps

/-- Where the last patch ends. -/
def lastStop (cursor : Nat) : List (Patch α) → Nat
  | [] => cursor
  | p :: ps => lastStop p.stop ps

/-- Gaps and bodies in order, then a tail. -/
def weave : List (List α × List α) → List α → List α
  | [], tail => tail
  | w :: ws, tail => w.1 ++ w.2 ++ weave ws tail

theorem fillTo_eq_weave (xs : List α) (stop : Nat) (ps : List (Patch α)) :
    ∀ cursor, fillTo xs stop cursor ps =
      weave (pieces xs cursor ps) (slice xs (lastStop cursor ps) stop) := by
  induction ps with
  | nil =>
      intro cursor
      rfl
  | cons p ps ih =>
      intro cursor
      simp only [fillTo, pieces, weave, lastStop, ih]

/-- Where the bodies of a weave stand, each with its position. -/
def spots : Nat → List (List α × List α) → List (Nat × List α)
  | _, [] => []
  | pos, w :: ws =>
      (pos + w.1.length, w.2) ::
        spots (pos + w.1.length + w.2.length) ws

/-- The patch that rewrites by `f` what stands at a spot. -/
def rewriteAt (f : List α → List α) (spot : Nat × List α) : Patch α :=
  ⟨spot.1, spot.1 + spot.2.length, f spot.2⟩

private theorem fillTo_weave (f : List α → List α) (xs tail : List α)
    (ws : List (List α × List α)) :
    ∀ pre : List α, xs = pre ++ weave ws tail →
      fillTo xs xs.length pre.length
          ((spots pre.length ws).map (rewriteAt f)) =
        weave (ws.map (Prod.map id f)) tail := by
  induction ws with
  | nil =>
      intro pre hxs
      show slice xs pre.length xs.length = tail
      have hxs : xs = pre ++ tail := hxs
      rw [hxs, List.length_append, slice_append_left]
      exact List.take_length
  | cons w ws ih =>
      intro pre hxs
      have hweave : xs = pre ++ (w.1 ++ (w.2 ++ weave ws tail)) := by
        rw [hxs, weave, List.append_assoc]
      have hgap : slice xs pre.length (pre.length + w.1.length) = w.1 := by
        rw [hweave, slice_append_left]
        exact List.take_left
      -- the part already read grows by the gap and the body
      have hlen : (pre ++ w.1 ++ w.2).length =
          pre.length + w.1.length + w.2.length := by
        simp [Nat.add_assoc]
      have hrest := ih (pre ++ w.1 ++ w.2) (by rw [hweave]; simp)
      rw [hlen] at hrest
      simp only [spots, List.map_cons, fillTo, rewriteAt, hgap, weave,
        Prod.map, id_eq]
      exact congrArg _ hrest

/-- Rewriting by `f` what stands at each spot of a weave rewrites every
body and leaves every gap. -/
theorem fill_weave (f : List α → List α) (ws : List (List α × List α))
    (tail : List α) :
    fill (weave ws tail) ((spots 0 ws).map (rewriteAt f)) =
      weave (ws.map (Prod.map id f)) tail :=
  fillTo_weave f (weave ws tail) tail ws [] rfl

/-- A patch with `f` applied to its body. -/
def Patch.rewrite (f : List α → List α) (p : Patch α) : Patch α :=
  ⟨p.start, p.stop, f p.body⟩

theorem pieces_rewrite (f : List α → List α) (xs : List α)
    (ps : List (Patch α)) :
    ∀ cursor, pieces xs cursor (ps.map (Patch.rewrite f)) =
      (pieces xs cursor ps).map (Prod.map id f) := by
  induction ps with
  | nil =>
      intro cursor
      rfl
  | cons p ps ih =>
      intro cursor
      simp only [List.map_cons, pieces, ih]
      rfl

theorem lastStop_rewrite (f : List α → List α) (ps : List (Patch α)) :
    ∀ cursor, lastStop cursor (ps.map (Patch.rewrite f)) =
      lastStop cursor ps := by
  induction ps with
  | nil =>
      intro cursor
      rfl
  | cons p ps ih =>
      intro cursor
      exact ih p.stop

/-- Rewriting by `f` what a fill wrote is filling with rewritten
bodies. -/
theorem fill_fill (f : List α → List α) (xs : List α)
    (ps : List (Patch α)) :
    fill (fill xs ps) ((spots 0 (pieces xs 0 ps)).map (rewriteAt f)) =
      fill xs (ps.map (Patch.rewrite f)) := by
  have hfill : fill xs ps = weave (pieces xs 0 ps)
      (slice xs (lastStop 0 ps) xs.length) :=
    fillTo_eq_weave xs xs.length ps 0
  rw [hfill, fill_weave, ← pieces_rewrite, ← lastStop_rewrite f ps 0]
  exact (fillTo_eq_weave xs xs.length (ps.map (Patch.rewrite f)) 0).symm

/-- A gap is a slice, and a body is a patch's. -/
theorem of_mem_pieces {xs : List α} {ps : List (Patch α)} :
    ∀ {cursor : Nat} {w : List α × List α}, w ∈ pieces xs cursor ps →
      (∃ a b, w.1 = slice xs a b) ∧ ∃ p ∈ ps, w.2 = p.body := by
  induction ps with
  | nil =>
      intro cursor w hw
      exact absurd hw (List.not_mem_nil)
  | cons p ps ih =>
      intro cursor w hw
      rcases List.mem_cons.mp hw with rfl | hw
      · exact ⟨⟨cursor, p.start, rfl⟩, p, List.mem_cons_self, rfl⟩
      · obtain ⟨hgap, q, hq, hbody⟩ := ih hw
        exact ⟨hgap, q, List.mem_cons_of_mem _ hq, hbody⟩

theorem mem_pieces_body {xs : List α} {ps : List (Patch α)}
    {p : Patch α} (h : p ∈ ps) :
    ∀ cursor, ∃ w ∈ pieces xs cursor ps, w.2 = p.body := by
  induction ps with
  | nil => exact absurd h (List.not_mem_nil)
  | cons q ps ih =>
      intro cursor
      rcases List.mem_cons.mp h with rfl | h
      · exact ⟨_, List.mem_cons_self, rfl⟩
      · obtain ⟨w, hw, hbody⟩ := ih h q.stop
        exact ⟨w, List.mem_cons_of_mem _ hw, hbody⟩

/-- What stands at a spot is a body. -/
theorem of_mem_spots {ws : List (List α × List α)} :
    ∀ {pos : Nat} {spot : Nat × List α}, spot ∈ spots pos ws →
      ∃ w ∈ ws, spot.2 = w.2 := by
  induction ws with
  | nil =>
      intro pos spot h
      exact absurd h (List.not_mem_nil)
  | cons w ws ih =>
      intro pos spot h
      rcases List.mem_cons.mp h with rfl | h
      · exact ⟨w, List.mem_cons_self, rfl⟩
      · obtain ⟨v, hv, hbody⟩ := ih h
        exact ⟨v, List.mem_cons_of_mem _ hv, hbody⟩

theorem mem_spots {ws : List (List α × List α)} {w : List α × List α}
    (h : w ∈ ws) : ∀ pos, ∃ spot ∈ spots pos ws, spot.2 = w.2 := by
  induction ws with
  | nil => exact absurd h (List.not_mem_nil)
  | cons v ws ih =>
      intro pos
      rcases List.mem_cons.mp h with rfl | h
      · exact ⟨_, List.mem_cons_self, rfl⟩
      · obtain ⟨spot, hspot, hbody⟩ := ih h (pos + v.1.length + v.2.length)
        exact ⟨spot, List.mem_cons_of_mem _ hspot, hbody⟩

-- ==================================== where a patch lands

/-- The patch's body stands at the position of the fill. -/
def Landed (xs : List α) (ps : List (Patch α)) (p : Patch α)
    (pos : Nat) : Prop :=
  ∃ before after, ps = before ++ p :: after ∧
    pos = (fillTo xs p.start 0 before).length

theorem Landed.mem {xs : List α} {ps : List (Patch α)} {p : Patch α}
    {pos : Nat} (h : Landed xs ps p pos) : p ∈ ps := by
  obtain ⟨before, after, rfl, -⟩ := h
  exact List.mem_append_right _ List.mem_cons_self

/-- What stands before a fitting patch fits up to it. -/
theorem Fits.before {len : Nat} {p : Patch α} {after : List (Patch α)}
    (before : List (Patch α)) :
    ∀ {cursor}, Fits len cursor (before ++ p :: after) →
      Fits p.start cursor before ∧ p.start ≤ p.stop ∧ p.stop ≤ len := by
  induction before with
  | nil =>
      intro cursor h
      exact ⟨h.1, h.2.1, h.2.2.bounds.1⟩
  | cons q before ih =>
      intro cursor h
      obtain ⟨hcur, hspan, hrest⟩ := h
      obtain ⟨hbefore, hp⟩ := ih hrest
      exact ⟨⟨hcur, hspan, hbefore⟩, hp⟩

/-- A fill whose bodies are as long as their ranges keeps every length. -/
theorem length_fillTo {xs : List α} {stop : Nat} (hstop : stop ≤ xs.length)
    {ps : List (Patch α)} :
    ∀ {cursor}, Fits stop cursor ps →
      (∀ p ∈ ps, p.body.length = p.stop - p.start) →
      (fillTo xs stop cursor ps).length = stop - cursor := by
  induction ps with
  | nil =>
      intro cursor _ _
      show (slice xs cursor stop).length = stop - cursor
      rw [length_slice, Nat.min_eq_left hstop]
  | cons p ps ih =>
      intro cursor hfits hlength
      obtain ⟨hcur, hspan, hrest⟩ := hfits
      obtain ⟨hp, hps⟩ := List.forall_mem_cons.mp hlength
      have hend := hrest.bounds.1
      rw [fillTo, List.length_append, List.length_append, length_slice,
        ih hrest hps, hp]
      omega

/-- And it has each body in the body's own range. -/
theorem slice_fill {xs : List α} {ps : List (Patch α)}
    (hfits : Fits xs.length 0 ps)
    (hlength : ∀ p ∈ ps, p.body.length = p.stop - p.start)
    {p : Patch α} (hp : p ∈ ps) :
    slice (fill xs ps) p.start p.stop = p.body := by
  obtain ⟨before, after, rfl⟩ := List.append_of_mem hp
  obtain ⟨hbefore, hspan, hstop⟩ := hfits.before before
  have hpos : (fillTo xs p.start 0 before).length = p.start := by
    rw [length_fillTo (by omega) hbefore
      (fun q hq => hlength q (List.mem_append_left _ hq))]
    omega
  have hsplit := slice_append_left (fillTo xs p.start 0 before)
    (p.body ++ fillTo xs xs.length p.stop after) p.body.length
  rw [List.take_left, hpos, hlength p hp,
    Nat.add_sub_cancel' hspan] at hsplit
  unfold fill
  rw [fillTo_append_cons, List.append_assoc]
  exact hsplit

/-- A fill has each body where it landed. -/
theorem Landed.prefix_drop {xs : List α} {ps : List (Patch α)}
    {p : Patch α} {pos : Nat} (h : Landed xs ps p pos) :
    p.body <+: (fill xs ps).drop pos := by
  obtain ⟨before, after, rfl, rfl⟩ := h
  unfold fill
  rw [fillTo_append_cons, List.append_assoc, List.drop_left]
  exact List.prefix_append _ _

-- ==================================== fills that change nothing

/-- A fill leaves the list alone when each patch writes what stands in
its range, and only then when each writes as much as stands there. -/
theorem fillTo_eq_slice_iff (xs : List α) {ps : List (Patch α)} :
    ∀ {cursor : Nat}, Fits xs.length cursor ps →
      ((∀ p ∈ ps, p.body = slice xs p.start p.stop) →
        fillTo xs xs.length cursor ps = slice xs cursor xs.length) ∧
      ((∀ p ∈ ps, p.body.length = p.stop - p.start) →
        fillTo xs xs.length cursor ps = slice xs cursor xs.length →
          ∀ p ∈ ps, p.body = slice xs p.start p.stop) := by
  induction ps with
  | nil =>
      intro cursor _
      exact ⟨fun _ => rfl, fun _ _ p hp => absurd hp (List.not_mem_nil)⟩
  | cons p ps ih =>
      intro cursor hfits
      obtain ⟨hcur, hspan, hrest⟩ := hfits
      have hstop := hrest.bounds.1
      obtain ⟨hsame, honly⟩ := ih hrest
      have hsplit : slice xs cursor xs.length =
          slice xs cursor p.start ++ slice xs p.start p.stop ++
            slice xs p.stop xs.length := by
        rw [slice_append_slice xs hcur hspan,
          slice_append_slice xs (by omega) hstop]
      refine ⟨?_, ?_⟩
      · intro hall
        obtain ⟨hp, hps⟩ := List.forall_mem_cons.mp hall
        rw [fillTo, hsame hps, hp, hsplit]
      · intro hlength hfill
        obtain ⟨hp, hps⟩ := List.forall_mem_cons.mp hlength
        rw [fillTo, hsplit, List.append_assoc, List.append_assoc] at hfill
        have hrest := List.append_cancel_left hfill
        obtain ⟨hbody, htail⟩ := List.append_inj hrest (by
          rw [hp, length_slice, Nat.min_eq_left hstop])
        exact List.forall_mem_cons.mpr ⟨hbody, honly hps htail⟩

theorem fill_eq_self {xs : List α} {ps : List (Patch α)}
    (hfits : Fits xs.length 0 ps)
    (h : ∀ p ∈ ps, p.body = slice xs p.start p.stop) : fill xs ps = xs := by
  have hsame := (fillTo_eq_slice_iff xs hfits).1 h
  rw [slice_zero_length] at hsame
  exact hsame

theorem eq_slice_of_fill_eq_self {xs : List α} {ps : List (Patch α)}
    (hfits : Fits xs.length 0 ps)
    (hlength : ∀ p ∈ ps, p.body.length = p.stop - p.start)
    (h : fill xs ps = xs) : ∀ p ∈ ps, p.body = slice xs p.start p.stop := by
  apply (fillTo_eq_slice_iff xs hfits).2 hlength
  rw [slice_zero_length]
  exact h

end Splice
