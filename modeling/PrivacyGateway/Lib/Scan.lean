/-
Scanning a list for the leftmost, non-overlapping matches of a pattern.

A pattern is a function `m` that, given what is left of the input, says
how many elements a match starting right there takes. `scan m` walks the
input once: at each position it tries `m`, and after a hit of length `n`
it passes over the `n - 1` elements that remain of the hit. A hit is
reported as its position and what it matched. The walk is structural, so
it evaluates.

# What is used of it

- `scan_eq_nil_iff`: nothing is found exactly when no suffix matches;
- `of_mem_scan`: a hit is a match at its own position;
- `scan_chain`: hits stand one after the other;
- `scan_filter`: where no match begins inside another, a stricter pattern
  finds the hits it accepts and no others;
- `scan_weave`: in a list made of gaps and bodies where every body is a
  match and no match begins in a gap, the bodies are what is found;
- `rewrites_scan`: writing in place of each hit what a function makes of
  it rewrites every match on its own (`Rewrites`) and nothing else.
-/
import PrivacyGateway.Lib.Splice

namespace Scan

open Splice

variable {α : Type}

/-- A hit: where it starts and what it matched. -/
abbrev Hit (α : Type) := Nat × List α

/-- The position just after a hit. -/
def Hit.stop (hit : Hit α) : Nat :=
  hit.1 + hit.2.length

/-- The hits of a walk; `skip` elements belong to the last one, and `pos`
is the position of the next element. -/
def scanFrom (m : List α → Option Nat) :
    Nat → Nat → List α → List (Hit α)
  | _, _, [] => []
  | skip + 1, pos, _ :: l => scanFrom m skip (pos + 1) l
  | 0, pos, a :: l =>
      match m (a :: l) with
      | none => scanFrom m 0 (pos + 1) l
      | some n => (pos, (a :: l).take n) :: scanFrom m (n - 1) (pos + 1) l

/-- The hits of a whole list. -/
def scan (m : List α → Option Nat) (l : List α) : List (Hit α) :=
  scanFrom m 0 0 l

/-- A match takes at least one element and no more than there are. -/
def Bounded (m : List α → Option Nat) : Prop :=
  ∀ l n, m l = some n → 0 < n ∧ n ≤ l.length

variable {m : List α → Option Nat}

-- ==================================================== one walk

theorem scanFrom_skip (l : List α) :
    ∀ skip pos, skip ≤ l.length →
      scanFrom m skip pos l = scanFrom m 0 (pos + skip) (l.drop skip) := by
  induction l with
  | nil =>
      intro skip pos hskip
      have : skip = 0 := by simpa using hskip
      subst this
      rfl
  | cons a l ih =>
      intro skip pos hskip
      cases skip with
      | zero => rfl
      | succ skip =>
          simp only [List.length_cons] at hskip
          rw [scanFrom, ih skip (pos + 1) (by omega), List.drop_succ_cons]
          congr 1
          omega

/-- A hit at the head: the walk resumes where the match ends. -/
theorem scanFrom_hit (hm : Bounded m) {l : List α} {n : Nat}
    (hit : m l = some n) (pos : Nat) :
    scanFrom m 0 pos l =
      (pos, l.take n) :: scanFrom m 0 (pos + n) (l.drop n) := by
  obtain ⟨hpos, hlen⟩ := hm l n hit
  cases l with
  | nil => exact absurd hlen (by simp; omega)
  | cons a l =>
      simp only [List.length_cons] at hlen
      rw [scanFrom, hit]
      simp only
      rw [scanFrom_skip l (n - 1) (pos + 1) (by omega)]
      obtain ⟨k, rfl⟩ : ∃ k, n = k + 1 := ⟨n - 1, by omega⟩
      simp only [Nat.add_sub_cancel, List.drop_succ_cons]
      congr 2
      omega

/-- A miss at the head: the walk steps over it. -/
theorem scanFrom_miss {a : α} {l : List α} (miss : m (a :: l) = none)
    (pos : Nat) :
    scanFrom m 0 pos (a :: l) = scanFrom m 0 (pos + 1) l := by
  rw [scanFrom, miss]

/-- No match begins in the first part: the walk passes over it. -/
theorem scanFrom_quiet (g r : List α) :
    ∀ pos, (∀ s, s <:+ g → s ≠ [] → m (s ++ r) = none) →
      scanFrom m 0 pos (g ++ r) = scanFrom m 0 (pos + g.length) r := by
  induction g with
  | nil =>
      intro pos _
      rfl
  | cons a g ih =>
      intro pos hquiet
      have hhead : m (a :: (g ++ r)) = none :=
        hquiet (a :: g) (List.suffix_refl _) (by simp)
      rw [List.cons_append, scanFrom_miss hhead,
        ih (pos + 1) (fun s hs => hquiet s (hs.trans (List.suffix_cons a g)))]
      congr 1
      simp only [List.length_cons]
      omega

-- ==================================================== what is found

/-- Induction along a walk that skips nothing: the end, a miss at the
head, and a hit at the head. -/
theorem scanFrom_induct (hm : Bounded m)
    {P : Nat → List α → List (Hit α) → Prop}
    (hnil : ∀ pos, P pos [] [])
    (hmiss : ∀ pos a l, m (a :: l) = none →
      P (pos + 1) l (scanFrom m 0 (pos + 1) l) →
      P pos (a :: l) (scanFrom m 0 (pos + 1) l))
    (hhit : ∀ pos l n, m l = some n → 0 < n → n ≤ l.length →
      P (pos + n) (l.drop n) (scanFrom m 0 (pos + n) (l.drop n)) →
      P pos l ((pos, l.take n) :: scanFrom m 0 (pos + n) (l.drop n)))
    (pos : Nat) (l : List α) : P pos l (scanFrom m 0 pos l) := by
  induction hk : l.length using Nat.strongRecOn
    generalizing pos l with
  | ind k ih =>
      cases l with
      | nil => exact hnil pos
      | cons a l =>
          cases hma : m (a :: l) with
          | none =>
              rw [scanFrom_miss hma]
              refine hmiss pos a l hma (ih l.length ?_ (pos + 1) l rfl)
              rw [← hk, List.length_cons]
              omega
          | some n =>
              obtain ⟨hpos, hlen⟩ := hm _ n hma
              rw [scanFrom_hit hm hma]
              refine hhit pos _ n hma hpos hlen
                (ih _ ?_ (pos + n) _ rfl)
              rw [List.length_drop]
              omega

/-- Nothing is found exactly when no suffix matches. -/
theorem scan_eq_nil_iff (hm : Bounded m) (l : List α) :
    scan m l = [] ↔ ∀ s, s <:+ l → m s = none := by
  constructor
  · intro hnil
    refine scanFrom_induct hm
      (P := fun _ l found => found = [] → ∀ s, s <:+ l → m s = none)
      ?_ ?_ ?_ 0 l hnil
    · intro _ _ s hs
      rw [List.suffix_nil.mp hs]
      cases hmn : m [] with
      | none => rfl
      | some n =>
          have := hm [] n hmn
          simp only [List.length_nil] at this
          omega
    · intro _ a l hmiss ih hnil s hs
      rcases List.suffix_cons_iff.mp hs with rfl | hs
      · exact hmiss
      · exact ih hnil s hs
    · intro _ _ _ _ _ _ _ hnil
      exact absurd hnil (List.cons_ne_nil _ _)
  · intro hnone
    have h := scanFrom_quiet (m := m) l [] 0
      (fun s hs _ => by rw [List.append_nil]; exact hnone s hs)
    rw [List.append_nil] at h
    exact h

/-- A hit is a match, all of it, at its position. -/
theorem of_mem_scanFrom (hm : Bounded m) (pos : Nat) (l : List α) :
    ∀ hit ∈ scanFrom m 0 pos l, pos ≤ hit.1 ∧ 0 < hit.2.length ∧
      hit.stop ≤ pos + l.length ∧
      hit.2 = (l.drop (hit.1 - pos)).take hit.2.length ∧
      m (l.drop (hit.1 - pos)) = some hit.2.length := by
  refine scanFrom_induct hm
    (P := fun pos l found => ∀ hit ∈ found, pos ≤ hit.1 ∧
      0 < hit.2.length ∧ hit.stop ≤ pos + l.length ∧
      hit.2 = (l.drop (hit.1 - pos)).take hit.2.length ∧
      m (l.drop (hit.1 - pos)) = some hit.2.length)
    ?_ ?_ ?_ pos l
  · intro _ hit hmem
    exact absurd hmem (List.not_mem_nil)
  · intro pos a l _ ih hit hmem
    obtain ⟨h1, h2, h3, h4, h5⟩ := ih hit hmem
    have hdrop : (a :: l).drop (hit.1 - pos) =
        l.drop (hit.1 - (pos + 1)) := by
      rw [show hit.1 - pos = (hit.1 - (pos + 1)) + 1 by omega,
        List.drop_succ_cons]
    rw [hdrop]
    exact ⟨by omega, h2, by rw [List.length_cons]; omega, h4, h5⟩
  · intro pos l n hhit hpos hlen ih hit hmem
    rcases List.mem_cons.mp hmem with rfl | hmem
    · simp only [Hit.stop, List.length_take, Nat.min_eq_left hlen,
        Nat.sub_self, List.drop_zero]
      exact ⟨Nat.le_refl _, hpos, by omega, trivial, hhit⟩
    · obtain ⟨h1, h2, h3, h4, h5⟩ := ih hit hmem
      have hdrop : (l.drop n).drop (hit.1 - (pos + n)) =
          l.drop (hit.1 - pos) := by
        rw [List.drop_drop]
        congr 1
        omega
      rw [hdrop] at h4 h5
      rw [List.length_drop] at h3
      exact ⟨by omega, h2, by omega, h4, h5⟩

theorem of_mem_scan (hm : Bounded m) {l : List α} {hit : Hit α}
    (hmem : hit ∈ scan m l) : 0 < hit.2.length ∧ hit.stop ≤ l.length ∧
      hit.2 = slice l hit.1 hit.stop ∧
      m (l.drop hit.1) = some hit.2.length := by
  obtain ⟨-, h2, h3, h4, h5⟩ := of_mem_scanFrom hm 0 l hit hmem
  refine ⟨h2, by omega, ?_, by simpa using h5⟩
  rw [Nat.sub_zero] at h4
  rw [slice, Hit.stop, List.drop_take, Nat.add_sub_cancel_left]
  exact h4

/-- Hits stand one after the other. -/
theorem scan_chain (hm : Bounded m) (l : List α) :
    (scan m l).Pairwise (fun r s => r.stop ≤ s.1) := by
  refine scanFrom_induct hm
    (P := fun _ _ found => found.Pairwise (fun r s => r.stop ≤ s.1))
    ?_ ?_ ?_ 0 l
  · intro _
    exact List.Pairwise.nil
  · intro _ _ _ _ ih
    exact ih
  · intro pos l n _ _ hlen ih
    refine List.pairwise_cons.mpr ⟨fun s hs => ?_, ih⟩
    have := (of_mem_scanFrom hm (pos + n) (l.drop n) s hs).1
    simp only [Hit.stop, List.length_take, Nat.min_eq_left hlen]
    exact this

-- ==================================================== stricter patterns

/-- No match begins inside another. -/
def Solid (m : List α → Option Nat) : Prop :=
  ∀ l n, m l = some n → ∀ k, 0 < k → k < n → m (l.drop k) = none

/-- Where no match begins inside another, every match is found. -/
theorem mem_scan_of_match (hm : Bounded m) (hsolid : Solid m)
    {l : List α} {i n : Nat} (hmatch : m (l.drop i) = some n) :
    (i, (l.drop i).take n) ∈ scan m l := by
  have hfrom := scanFrom_induct hm
    (P := fun pos l found => ∀ i, m (l.drop i) = some n →
      (pos + i, (l.drop i).take n) ∈ found) ?_ ?_ ?_ 0 l i hmatch
  · rw [Nat.zero_add] at hfrom
    exact hfrom
  · intro pos i hmatch
    rw [List.drop_nil] at hmatch
    have hlen := hm [] n hmatch
    rw [List.length_nil] at hlen
    omega
  · intro pos a l hmiss ih i hmatch
    cases i with
    | zero =>
        rw [List.drop_zero, hmiss] at hmatch
        cases hmatch
    | succ i =>
        have hfound := ih i hmatch
        rw [show pos + (i + 1) = pos + 1 + i by omega]
        exact hfound
  · intro pos l k hhit hpos hlen ih i hmatch
    by_cases hzero : i = 0
    · rw [hzero, List.drop_zero] at hmatch ⊢
      cases hhit.symm.trans hmatch
      exact List.mem_cons_self
    · by_cases hinside : i < k
      · rw [hsolid l k hhit i (by omega) hinside] at hmatch
        cases hmatch
      · obtain ⟨j, rfl⟩ : ∃ j, i = k + j := ⟨i - k, by omega⟩
        rw [← List.drop_drop] at hmatch ⊢
        have hfound := ih j hmatch
        rw [Nat.add_assoc] at hfound
        exact List.mem_cons_of_mem _ hfound

/-- The pattern restricted to the matches that `keep` accepts. -/
def restrict (m : List α → Option Nat) (keep : List α → Bool)
    (l : List α) : Option Nat :=
  (m l).filter (fun n => keep (l.take n))

theorem restrict_eq_some {keep : List α → Bool} {l : List α} {n : Nat} :
    restrict m keep l = some n ↔ m l = some n ∧ keep (l.take n) = true := by
  unfold restrict
  rw [Option.filter_eq_some_iff]

theorem restrict_bounded (hm : Bounded m) (keep : List α → Bool) :
    Bounded (restrict m keep) :=
  fun l n h => hm l n (restrict_eq_some.mp h).1

theorem restrict_solid (hsolid : Solid m) (keep : List α → Bool) :
    Solid (restrict m keep) := by
  intro l n h k hk hkn
  unfold restrict
  rw [hsolid l n (restrict_eq_some.mp h).1 k hk hkn]
  rfl

/-- Where no match begins inside another, a stricter pattern finds the
hits it accepts and no others. -/
theorem scanFrom_filter (hm : Bounded m) (hsolid : Solid m)
    (keep : List α → Bool) (pos : Nat) (l : List α) :
    scanFrom (restrict m keep) 0 pos l =
      (scanFrom m 0 pos l).filter (fun hit => keep hit.2) := by
  have hm' := restrict_bounded hm keep
  refine scanFrom_induct hm
    (P := fun pos l found => scanFrom (restrict m keep) 0 pos l =
      found.filter (fun hit => keep hit.2)) ?_ ?_ ?_ pos l
  · intro _
    rfl
  · intro pos a l hmiss ih
    rw [scanFrom_miss (by rw [restrict, hmiss]; rfl), ih]
  · intro pos l n hhit hpos hlen ih
    cases hkeep : keep (l.take n) with
    | true =>
        rw [scanFrom_hit hm' (restrict_eq_some.mpr ⟨hhit, hkeep⟩), ih,
          List.filter_cons, if_pos hkeep]
    | false =>
        -- the refused match holds no other: the walk passes over it
        rw [List.filter_cons, if_neg (by rw [hkeep]; exact Bool.noConfusion),
          ← ih]
        have hquiet := scanFrom_quiet (m := restrict m keep) (l.take n)
          (l.drop n) pos ?_
        · rw [List.take_append_drop, List.length_take,
            Nat.min_eq_left hlen] at hquiet
          exact hquiet
        · intro s hs hne
          obtain ⟨k, rfl⟩ : ∃ k, s = (l.take n).drop k :=
            ⟨_, List.suffix_iff_eq_drop.mp hs⟩
          have hk : k < n := by
            by_contra hk
            exact hne (List.drop_eq_nil_of_le
              (by rw [List.length_take]; omega))
          have hs' : (l.take n).drop k ++ l.drop n = l.drop k := by
            conv_rhs => rw [← List.take_append_drop n l]
            rw [List.drop_append_of_le_length
              (by rw [List.length_take]; omega)]
          rw [hs']
          cases k with
          | zero =>
              unfold restrict
              rw [List.drop_zero, hhit, Option.filter_some, hkeep]
              rfl
          | succ k =>
              unfold restrict
              rw [hsolid l n hhit (k + 1) (by omega) hk]
              rfl

theorem scan_filter (hm : Bounded m) (hsolid : Solid m)
    (keep : List α → Bool) (l : List α) :
    scan (restrict m keep) l =
      (scan m l).filter (fun hit => keep hit.2) :=
  scanFrom_filter hm hsolid keep 0 l

-- ==================================================== woven lists

/-- The bodies of a weave are what is found in it, when each of them is a
match whatever follows and no match begins in a gap or in the tail. -/
theorem scanFrom_weave (hm : Bounded m) {ws : List (List α × List α)}
    {tail : List α}
    (hbody : ∀ w ∈ ws, ∀ r, m (w.2 ++ r) = some w.2.length)
    (hgap : ∀ w ∈ ws, ∀ r s, s <:+ w.1 → s ≠ [] →
      m (s ++ (w.2 ++ r)) = none)
    (htail : ∀ s, s <:+ tail → s ≠ [] → m s = none) :
    ∀ pos, scanFrom m 0 pos (weave ws tail) = spots pos ws := by
  induction ws with
  | nil =>
      intro pos
      have h := scanFrom_quiet (m := m) tail [] pos
        (fun s hs hne => by rw [List.append_nil]; exact htail s hs hne)
      rw [List.append_nil] at h
      exact h
  | cons w ws ih =>
      intro pos
      have hrest := ih (fun v hv => hbody v (List.mem_cons_of_mem _ hv))
        (fun v hv => hgap v (List.mem_cons_of_mem _ hv))
      rw [weave, List.append_assoc,
        scanFrom_quiet w.1 _ pos (hgap w List.mem_cons_self _),
        scanFrom_hit hm (hbody w List.mem_cons_self _), List.take_left,
        List.drop_left, hrest, spots]

theorem scan_weave (hm : Bounded m) {ws : List (List α × List α)}
    {tail : List α}
    (hbody : ∀ w ∈ ws, ∀ r, m (w.2 ++ r) = some w.2.length)
    (hgap : ∀ w ∈ ws, ∀ r s, s <:+ w.1 → s ≠ [] →
      m (s ++ (w.2 ++ r)) = none)
    (htail : ∀ s, s <:+ tail → s ≠ [] → m s = none) :
    scan m (weave ws tail) = spots 0 ws :=
  scanFrom_weave hm hbody hgap htail 0

-- ==================================================== rewriting

/-- The second list is the first with every match rewritten, from the
left, and every other element where it was. -/
inductive Rewrites (m : List α → Option Nat) (f : List α → List α) :
    List α → List α → Prop
  | nil : Rewrites m f [] []
  | miss {a : α} {l l' : List α} (miss : m (a :: l) = none)
      (rest : Rewrites m f l l') : Rewrites m f (a :: l) (a :: l')
  | hit {l l' : List α} {n : Nat} (hit : m l = some n)
      (rest : Rewrites m f (l.drop n) l') :
      Rewrites m f l (f (l.take n) ++ l')

/-- What is written in place of a hit. -/
def patchBy (f : List α → List α) (hit : Hit α) : Patch α :=
  ⟨hit.1, hit.stop, f hit.2⟩

theorem rewrites_scanFrom (hm : Bounded m) (f : List α → List α)
    (xs : List α) (pos : Nat) (l : List α) (hl : xs.drop pos = l)
    (hpos : pos ≤ xs.length) :
    Rewrites m f l (fillTo xs xs.length pos
      ((scanFrom m 0 pos l).map (patchBy f))) := by
  refine scanFrom_induct hm
    (P := fun pos l found => xs.drop pos = l → pos ≤ xs.length →
      (∀ hit ∈ found, pos ≤ hit.1) →
        Rewrites m f l (fillTo xs xs.length pos (found.map (patchBy f))))
    ?_ ?_ ?_ pos l hl hpos
    (fun hit hhit => (of_mem_scanFrom hm pos l hit hhit).1)
  · intro pos hl hpos _
    have hend : slice xs pos xs.length = [] := by
      unfold slice
      rw [List.take_length, hl]
    show Rewrites m f [] (slice xs pos xs.length)
    rw [hend]
    exact .nil
  · intro pos a l hmiss ih hl hpos _
    have hlength := congrArg List.length hl
    rw [List.length_drop, List.length_cons] at hlength
    have hnext : xs.drop (pos + 1) = l := by
      rw [← List.drop_drop, hl]
      rfl
    have hone : slice xs pos (pos + 1) = [a] := by
      unfold slice
      rw [List.drop_take, hl]
      simp
    have hlater : ∀ hit ∈ scanFrom m 0 (pos + 1) l, pos + 1 ≤ hit.1 :=
      fun hit hhit => (of_mem_scanFrom hm _ _ hit hhit).1
    rw [fillTo_split xs (Nat.le_succ pos) (by omega) (by
      intro p hp
      obtain ⟨hit, hhit, rfl⟩ := List.mem_map.mp hp
      exact hlater hit hhit), hone]
    exact .miss hmiss (ih hnext (by omega) hlater)
  · intro pos l n hhit hpos' hlen ih hl hpos _
    have hstop : Hit.stop (pos, l.take n) = pos + n := by
      unfold Hit.stop
      rw [List.length_take, Nat.min_eq_left hlen]
    have hlength := congrArg List.length hl
    rw [List.length_drop] at hlength
    have hempty : slice xs pos pos = [] := by
      unfold slice
      exact List.drop_eq_nil_of_le (List.length_take_le _ _)
    show Rewrites m f l (slice xs pos pos ++ f (l.take n) ++
      fillTo xs xs.length (Hit.stop (pos, l.take n)) _)
    rw [hempty, hstop, List.nil_append]
    refine .hit hhit (ih ?_ (by omega)
      (fun hit hhit => (of_mem_scanFrom hm _ _ hit hhit).1))
    rw [← List.drop_drop, hl]

/-- Filling a list at its hits rewrites its matches. -/
theorem rewrites_scan (hm : Bounded m) (f : List α → List α)
    (xs : List α) :
    Rewrites m f xs (fill xs ((scan m xs).map (patchBy f))) :=
  rewrites_scanFrom hm f xs 0 xs rfl (Nat.zero_le _)

end Scan
