/-
Patterns whose matches begin with a mark, and substitution by them.

A pattern is headed by a mark when each of its matches begins with the
mark, holds it nowhere else, and is a match whatever follows it. A
rewriting function is stamped by the mark when what it writes begins with
it and holds it nowhere else. Substitution by such a pair moves nothing
that holds no mark (`Rewrites.begins_iff`), from which

- `quiet_of_sub`: a headed pattern that matched only where the
  substitution wrote, and does not match what it writes, matches nowhere
  afterwards;
- `stands_of_sub`: a list without the mark, found in the result, stands
  inside something written, or outside every match of the original.

Filling a list is scanned body by body (`scan_fill`), where every body is
matched whole or not at all and no match begins in a gap. The last holds
for a headed pattern when nothing was matched before and the bodies begin
with the mark, and when the list holds no mark.
-/
import PrivacyGateway.Lib.Scan

namespace Scan

open Splice

variable {α : Type}

/-- `re.sub`: every match, from the left, rewritten on its own. -/
def sub (m : List α → Option Nat) (f : List α → List α) (l : List α) :
    List α :=
  fill l ((scan m l).map (patchBy f))

/-- Every match begins with the mark, holds no other, and is a match
whatever follows it. -/
structure Headed (mark : α) (m : List α → Option Nat) : Prop where
  bounded : Bounded m
  head : ∀ l n, m l = some n → l.head? = some mark
  once : ∀ l n, m l = some n → mark ∉ (l.take n).tail
  closed : ∀ l n, m l = some n → ∀ r, m (l.take n ++ r) = some n

/-- What is written begins with the mark and holds no other. -/
structure Stamped (mark : α) (f : List α → List α) : Prop where
  head : ∀ x, (f x).head? = some mark
  once : ∀ x, mark ∉ (f x).tail

variable {mark : α} {m q : List α → Option Nat} {f : List α → List α}

-- ==================================================== splits

/-- A list without the separator lies on one side of it. -/
theorem split_of_separated {w a b before after : List α} {sep : α}
    (hne : w ≠ []) (hsep : sep ∉ w)
    (h : a ++ sep :: b = before ++ (w ++ after)) :
    (∃ rest, a = before ++ (w ++ rest) ∧ after = rest ++ sep :: b) ∨
      ∃ rest, before = a ++ sep :: rest ∧ b = rest ++ (w ++ after) := by
  rcases List.append_eq_append_iff.mp h with ⟨c, hc, hb⟩ | ⟨c, hc, hb⟩
  · cases c with
    | nil =>
        cases w with
        | nil => exact absurd rfl hne
        | cons first w =>
            cases hb
            exact absurd List.mem_cons_self hsep
    | cons first rest =>
        cases hb
        exact Or.inr ⟨rest, hc, rfl⟩
  · rcases List.append_eq_append_iff.mp hb with ⟨d, hd, hb⟩ | ⟨d, hd, hb⟩
    · exact Or.inl ⟨d, by rw [hc, hd], hb⟩
    · cases d with
      | nil =>
          rw [List.append_nil] at hd
          exact Or.inl ⟨[], by rw [hc, hd, List.append_nil], hb.symm⟩
      | cons first d =>
          cases hb
          rw [hd] at hsep
          exact absurd (List.mem_append_right _ List.mem_cons_self) hsep

theorem infix_of_separated {w a b : List α} {sep : α} (hsep : sep ∉ w)
    (h : w <:+: a ++ sep :: b) : w <:+: a ∨ w <:+: b := by
  by_cases hne : w = []
  · rw [hne]
    exact Or.inl (List.nil_infix)
  · obtain ⟨before, after, hsplit⟩ := h
    rw [List.append_assoc] at hsplit
    rcases split_of_separated hne hsep hsplit.symm with
      ⟨rest, ha, -⟩ | ⟨rest, -, hb⟩
    · exact Or.inl ⟨before, rest, by rw [ha, List.append_assoc]⟩
    · exact Or.inr ⟨rest, after, by rw [hb, List.append_assoc]⟩

/-- A suffix of two lists joined is one of the second, or reaches into
the first. -/
theorem suffix_append_cases {s a b : List α} (h : s <:+ a ++ b) :
    s <:+ b ∨ ∃ t, t ≠ [] ∧ t <:+ a ∧ s = t ++ b := by
  obtain ⟨p, hp⟩ := h
  rcases List.append_eq_append_iff.mp hp with ⟨c, hc, hs⟩ | ⟨c, hc, hb⟩
  · by_cases hnil : c = []
    · rw [hnil, List.nil_append] at hs
      rw [hs]
      exact Or.inl (List.suffix_refl _)
    · exact Or.inr ⟨c, hnil, ⟨p, hc.symm⟩, hs⟩
  · exact Or.inl ⟨c, hb.symm⟩

-- ==================================================== headed patterns

theorem Bounded.nil (hm : Bounded m) : m [] = none := by
  cases h : m [] with
  | none => rfl
  | some n =>
      have := hm [] n h
      rw [List.length_nil] at this
      omega

theorem Headed.solid (hm : Headed mark m) : Solid m := by
  intro l n hmatch k hk hkn
  cases hinner : m (l.drop k) with
  | none => rfl
  | some j =>
      have hhead := hm.head _ j hinner
      have hmem : mark ∈ (l.take n).tail := by
        rw [List.head?_drop] at hhead
        rw [List.mem_iff_getElem?]
        refine ⟨k - 1, ?_⟩
        rw [List.getElem?_tail, Nat.sub_add_cancel hk,
          List.getElem?_take_of_lt hkn]
        exact hhead
      exact absurd hmem (hm.once l n hmatch)

/-- The match is the mark and something without it. -/
theorem Headed.take_eq (hm : Headed mark m) {l : List α} {n : Nat}
    (h : m l = some n) :
    ∃ w, mark ∉ w ∧ l.take n = mark :: w ∧ l = mark :: (w ++ l.drop n) := by
  have hhead := hm.head l n h
  have hpos := (hm.bounded l n h).1
  have honce := hm.once l n h
  cases l with
  | nil => cases hhead
  | cons a l =>
      cases hhead
      obtain ⟨k, rfl⟩ : ∃ k, n = k + 1 := ⟨n - 1, by omega⟩
      refine ⟨l.take k, honce, rfl, ?_⟩
      rw [List.drop_succ_cons, List.take_append_drop]

theorem Stamped.eq_cons (hf : Stamped mark f) (x : List α) :
    ∃ y, mark ∉ y ∧ f x = mark :: y := by
  have hhead := hf.head x
  have honce := hf.once x
  cases hx : f x with
  | nil =>
      rw [hx] at hhead
      cases hhead
  | cons a y =>
      rw [hx] at hhead honce
      cases hhead
      exact ⟨y, honce, rfl⟩

-- ==================================================== one rewriting

/-- Up to the next mark nothing changes. -/
theorem Rewrites.begins_iff (hm : Headed mark m) (hf : Stamped mark f)
    {l l' : List α} (h : Rewrites m f l l') :
    ∀ {w : List α}, mark ∉ w → (w <+: l ↔ w <+: l') := by
  induction h with
  | nil => exact fun _ => Iff.rfl
  | miss _ _ ih =>
      intro w hw
      cases w with
      | nil => exact ⟨fun _ => List.nil_prefix, fun _ => List.nil_prefix⟩
      | cons b w =>
          have hrest : mark ∉ w := fun hmem =>
            hw (List.mem_cons_of_mem _ hmem)
          rw [List.cons_prefix_cons, List.cons_prefix_cons, ih hrest]
  | hit hit _ _ =>
      intro w hw
      cases w with
      | nil => exact ⟨fun _ => List.nil_prefix, fun _ => List.nil_prefix⟩
      | cons b w =>
          obtain ⟨v, -, -, hl⟩ := hm.take_eq hit
          obtain ⟨y, -, hy⟩ := hf.eq_cons _
          have hb : b ≠ mark := fun heq => hw (by rw [heq]; simp)
          rw [hy, hl, List.cons_append, List.cons_prefix_cons,
            List.cons_prefix_cons]
          exact ⟨fun h => absurd h.1 hb, fun h => absurd h.1 hb⟩

theorem Rewrites.quiet (hm : Headed mark m) (hq : Headed mark q)
    (hf : Stamped mark f) (hwrites : ∀ x r, q (f x ++ r) = none)
    {l l' : List α} (h : Rewrites m f l l') :
    (∀ s, s <:+ l → m s = none → q s = none) →
      ∀ s, s <:+ l' → q s = none := by
  induction h with
  | nil =>
      intro _ s hs
      rw [List.suffix_nil.mp hs]
      exact hq.bounded.nil
  | @miss a l l' miss rest ih =>
      intro hmiss s hs
      rcases List.suffix_cons_iff.mp hs with rfl | hs
      · cases hmatch : q (a :: l') with
        | none => rfl
        | some n =>
            -- the match ends before the next mark, so it was there before
            obtain ⟨w, hw, htake, hl'⟩ := hq.take_eq hmatch
            injection hl' with ha hl'
            have hbegins : w <+: l :=
              (rest.begins_iff hm hf hw).mpr ⟨_, hl'.symm⟩
            obtain ⟨r, hr⟩ := hbegins
            have hbefore := hq.closed _ n hmatch r
            rw [htake, List.cons_append, hr, ← ha,
              hmiss (a :: l) (List.suffix_refl _) miss] at hbefore
            cases hbefore
      · exact ih (fun s hs => hmiss s (hs.trans (List.suffix_cons a l))) s hs
  | @hit l l' n hit _ ih =>
      intro hmiss s hs
      rcases suffix_append_cases hs with hs | ⟨t, hne, ht, rfl⟩
      · exact ih (fun s hs => hmiss s (hs.trans (List.drop_suffix n l))) s hs
      · obtain ⟨y, hy, hfy⟩ := hf.eq_cons (l.take n)
        rw [hfy] at ht
        rcases List.suffix_cons_iff.mp ht with rfl | ht
        · rw [← hfy]
          exact hwrites _ _
        · cases hmatch : q (t ++ l') with
          | none => rfl
          | some j =>
              have hhead := hq.head _ j hmatch
              rw [List.head?_append_of_ne_nil t hne] at hhead
              exact absurd (ht.mem (List.mem_of_head? hhead)) hy

/-- No match meets the positions from `i` up to `j`. -/
def Outside (m : List α → Option Nat) (l : List α) (i j : Nat) : Prop :=
  ∀ k n, m (l.drop k) = some n → k + n ≤ i ∨ j ≤ k

/-- What the walk knows of the part `c` it has passed: no match that
begins in it ends after it. The induction carries it along. -/
theorem Rewrites.stands (hm : Headed mark m) (hf : Stamped mark f)
    {w : List α} (hne : w ≠ []) (hmark : mark ∉ w)
    (hlast : ∀ x, ∃ y b, f x = y ++ [b] ∧ b ∉ w)
    {l l' : List α} (h : Rewrites m f l l') :
    ∀ c : List α, (∀ k n, m ((c ++ l).drop k) = some n → k < c.length →
        k + n ≤ c.length) → w <:+: l' →
      (∃ x r, m (x ++ r) = some x.length ∧ x ++ r <:+ l ∧ w <:+: f x) ∨
        ∃ before after, c ++ l = before ++ (w ++ after) ∧
          Outside m (c ++ l) before.length (before.length + w.length) := by
  induction h with
  | nil =>
      intro _ _ hw
      exact absurd (List.infix_nil.mp hw) hne
  | @miss a l l' miss rest ih =>
      intro c hc hw
      rcases List.infix_cons_iff.mp hw with hbegins | hw
      · -- it begins right here
        refine Or.inr ?_
        have hbefore : w <+: a :: l :=
          ((Rewrites.miss miss rest).begins_iff hm hf hmark).mpr hbegins
        obtain ⟨after, hafter⟩ := hbefore
        refine ⟨c, after, by rw [hafter], fun k n hmatch => ?_⟩
        by_cases hk : k < c.length
        · exact Or.inl (hc k n hmatch hk)
        · refine Or.inr ?_
          by_contra hlt
          -- a match that begins inside would put the mark there
          have hhead := hm.head _ n hmatch
          rw [List.head?_drop, ← hafter,
            List.getElem?_append_right (by omega),
            List.getElem?_append_left (by omega)] at hhead
          exact hmark (List.mem_of_getElem? hhead)
      · have hstep := ih (c ++ [a]) ?_ hw
        · rw [List.append_assoc, List.singleton_append] at hstep
          rcases hstep with ⟨x, r, hx, hsuffix, hin⟩ | hout
          · exact Or.inl ⟨x, r, hx,
              hsuffix.trans (List.suffix_cons a l), hin⟩
          · exact Or.inr hout
        · intro k n hmatch hk
          rw [List.append_assoc, List.singleton_append] at hmatch
          rw [List.length_append, List.length_singleton] at hk ⊢
          by_cases hkc : k < c.length
          · have := hc k n hmatch hkc
            omega
          · have hkeq : k = c.length := by omega
            rw [hkeq, List.drop_left, miss] at hmatch
            cases hmatch
  | @hit l l' n hit _ ih =>
      intro c hc hw
      obtain ⟨y, b, hy, hb⟩ := hlast (l.take n)
      have hlen := (hm.bounded l n hit).2
      rw [hy, List.append_assoc, List.singleton_append] at hw
      rcases infix_of_separated hb hw with hin | hw
      · refine Or.inl ⟨l.take n, l.drop n, ?_, ?_, ?_⟩
        · rw [List.take_append_drop, hit, List.length_take,
            Nat.min_eq_left hlen]
        · exact (List.take_append_drop n l).symm ▸ List.suffix_refl _
        · rw [hy]
          exact hin.trans (List.infix_append' [] y [b])
      · have hstep := ih (c ++ l.take n) ?_ hw
        · rw [List.append_assoc, List.take_append_drop] at hstep
          rcases hstep with ⟨x, r, hx, hsuffix, hin⟩ | hout
          · exact Or.inl ⟨x, r, hx,
              hsuffix.trans (List.drop_suffix n l), hin⟩
          · exact Or.inr hout
        · intro k j hmatch hk
          rw [List.append_assoc, List.take_append_drop] at hmatch
          rw [List.length_append, List.length_take,
            Nat.min_eq_left hlen] at hk ⊢
          by_cases hkc : k < c.length
          · have := hc k j hmatch hkc
            omega
          · obtain ⟨i, rfl⟩ : ∃ i, k = c.length + i :=
              ⟨k - c.length, by omega⟩
            rw [← List.drop_drop, List.drop_left] at hmatch
            cases i with
            | zero =>
                rw [List.drop_zero, hit] at hmatch
                cases hmatch
                exact Nat.le_refl _
            | succ i =>
                rw [hm.solid l n hit (i + 1) (Nat.succ_pos i)
                  (by omega)] at hmatch
                cases hmatch

-- ==================================================== substitution

theorem sub_eq_self (hm : Bounded m) {l : List α}
    (h : ∀ s, s <:+ l → m s = none) : sub m f l = l := by
  unfold sub
  rw [(scan_eq_nil_iff hm l).mpr h]
  exact slice_zero_length l

theorem quiet_of_sub (hm : Headed mark m) (hq : Headed mark q)
    (hf : Stamped mark f) (hwrites : ∀ x r, q (f x ++ r) = none)
    {l : List α} (h : ∀ s, s <:+ l → m s = none → q s = none) :
    ∀ s, s <:+ sub m f l → q s = none :=
  (rewrites_scan hm.bounded f l).quiet hm hq hf hwrites h

theorem stands_of_sub (hm : Headed mark m) (hf : Stamped mark f)
    {w : List α} (hne : w ≠ []) (hmark : mark ∉ w)
    (hlast : ∀ x, ∃ y b, f x = y ++ [b] ∧ b ∉ w) {l : List α}
    (h : w <:+: sub m f l) :
    (∃ x r, m (x ++ r) = some x.length ∧ x ++ r <:+ l ∧ w <:+: f x) ∨
      ∃ before after, l = before ++ (w ++ after) ∧
        Outside m l before.length (before.length + w.length) :=
  (rewrites_scan hm.bounded f l).stands hm hf hne hmark hlast []
    (fun k _ _ hk => absurd hk (Nat.not_lt_zero k)) h

-- ==================================================== scanning a fill

/-- A body that is matched whole, whatever follows, or in which no match
begins. -/
def AllOrNothing (m : List α → Option Nat) (body : List α) : Prop :=
  (∀ r, m (body ++ r) = some body.length) ∨
    ∀ r s, s <:+ body → s ≠ [] → m (s ++ r) = none

theorem scanFrom_woven (hm : Bounded m) {ws : List (List α × List α)}
    {tail : List α} (hbody : ∀ w ∈ ws, AllOrNothing m w.2)
    (hgap : ∀ w ∈ ws, ∀ r s, s <:+ w.1 → s ≠ [] →
      m (s ++ (w.2 ++ r)) = none)
    (htail : ∀ s, s <:+ tail → s ≠ [] → m s = none) :
    ∀ pos, (scanFrom m 0 pos (weave ws tail)).map Prod.snd =
      (ws.map Prod.snd).filter (fun body => (m body).isSome) := by
  induction ws with
  | nil =>
      intro pos
      have h := scanFrom_quiet (m := m) tail [] pos
        (fun s hs hne => by rw [List.append_nil]; exact htail s hs hne)
      rw [List.append_nil] at h
      show (scanFrom m 0 pos tail).map Prod.snd = []
      rw [h]
      rfl
  | cons w ws ih =>
      intro pos
      have hrest := ih (fun v hv => hbody v (List.mem_cons_of_mem _ hv))
        (fun v hv => hgap v (List.mem_cons_of_mem _ hv))
      rw [weave, List.append_assoc,
        scanFrom_quiet w.1 _ pos (hgap w List.mem_cons_self _),
        List.map_cons]
      rcases hbody w List.mem_cons_self with hwhole | hquiet
      · have hself := hwhole []
        rw [List.append_nil] at hself
        rw [scanFrom_hit hm (hwhole _), List.take_left, List.drop_left,
          List.map_cons, hrest,
          List.filter_cons_of_pos (by rw [hself]; rfl)]
      · have hself : m w.2 = none := by
          by_cases hnil : w.2 = []
          · rw [hnil]
            exact hm.nil
          · have h := hquiet [] w.2 (List.suffix_refl _) hnil
            rw [List.append_nil] at h
            exact h
        rw [scanFrom_quiet w.2 _ _ (hquiet _), hrest,
          List.filter_cons_of_neg (by rw [hself]; exact Bool.noConfusion)]

theorem bodies_of_pieces (xs : List α) (ps : List (Patch α)) :
    ∀ cursor, (pieces xs cursor ps).map Prod.snd = ps.map Patch.body := by
  induction ps with
  | nil => exact fun _ => rfl
  | cons p ps ih =>
      intro cursor
      rw [pieces, List.map_cons, List.map_cons, ih]

theorem scan_fill (hm : Bounded m) (xs : List α) (ps : List (Patch α))
    (hbody : ∀ p ∈ ps, AllOrNothing m p.body)
    (hgap : ∀ p ∈ ps, ∀ a b r s, s <:+ slice xs a b → s ≠ [] →
      m (s ++ (p.body ++ r)) = none)
    (htail : ∀ a s, s <:+ xs.drop a → s ≠ [] → m s = none) :
    (scan m (fill xs ps)).map Prod.snd =
      (ps.map Patch.body).filter (fun body => (m body).isSome) := by
  unfold scan fill
  rw [fillTo_eq_weave, scanFrom_woven hm, bodies_of_pieces]
  · intro w hw
    obtain ⟨-, p, hp, hw⟩ := of_mem_pieces hw
    rw [hw]
    exact hbody p hp
  · intro w hw
    obtain ⟨⟨a, b, hslice⟩, p, hp, hw⟩ := of_mem_pieces hw
    rw [hslice, hw]
    exact fun r => hgap p hp a b r
  · intro s hs
    unfold slice at hs
    rw [List.take_length] at hs
    exact htail _ s hs

/-- A list with no match, cut where a mark is written next: no match
reaches over the cut. -/
theorem Headed.gap_quiet (hm : Headed mark m) {xs : List α}
    (hnone : ∀ s, s <:+ xs → m s = none) {y : List α} (a b : Nat)
    (r s : List α) (hs : s <:+ slice xs a b) (hne : s ≠ []) :
    m (s ++ (mark :: y ++ r)) = none := by
  cases hmatch : m (s ++ (mark :: y ++ r)) with
  | none => rfl
  | some n =>
      have hlen : n ≤ s.length := by
        by_contra hlong
        -- the mark at the cut would be inside the match
        apply hm.once _ n hmatch
        cases s with
        | nil => exact absurd rfl hne
        | cons first s =>
            rw [List.length_cons] at hlong
            obtain ⟨k, rfl⟩ : ∃ k, n = s.length + 1 + (k + 1) :=
              ⟨n - s.length - 2, by omega⟩
            rw [List.mem_iff_getElem?]
            refine ⟨s.length, ?_⟩
            rw [List.getElem?_tail, List.getElem?_take_of_lt (by omega),
              List.cons_append, List.getElem?_cons_succ,
              List.getElem?_append_right (Nat.le_refl _), Nat.sub_self]
            rfl
      have htake : (s ++ (mark :: y ++ r)).take n = s.take n :=
        List.take_append_of_le_length hlen
      have hbefore := hm.closed _ n hmatch (s.drop n ++ xs.drop b)
      rw [htake, ← List.append_assoc, List.take_append_drop,
        hnone (s ++ xs.drop b)] at hbefore
      · cases hbefore
      · obtain ⟨q, hq⟩ := hs.trans (List.drop_suffix a (xs.take b))
        refine ⟨q, ?_⟩
        rw [← List.append_assoc, hq, List.take_append_drop]

/-- Where there is no mark, no match begins. -/
theorem Headed.unmarked_quiet (hm : Headed mark m) {s : List α}
    (hmark : mark ∉ s) (hne : s ≠ []) (r : List α) : m (s ++ r) = none := by
  cases hmatch : m (s ++ r) with
  | none => rfl
  | some n =>
      have hhead := hm.head _ n hmatch
      rw [List.head?_append_of_ne_nil s hne] at hhead
      exact absurd (List.mem_of_head? hhead) hmark

theorem Headed.unmarked_none (hm : Headed mark m) {s : List α}
    (hmark : mark ∉ s) : m s = none := by
  by_cases hnil : s = []
  · rw [hnil]
    exact hm.bounded.nil
  · have hquiet := hm.unmarked_quiet hmark hnil []
    rw [List.append_nil] at hquiet
    exact hquiet

end Scan
