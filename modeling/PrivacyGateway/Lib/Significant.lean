/-
Numbers from zero to one, written to six significant digits.

`significant` rounds such a number half to even, to six digits and the
place of the first of them. `layout` is the shortest way to write that:
positional down to the fourth place, scientific below, and no trailing
zeros. The text says exactly what was rounded to (`layout_inj`), so two
numbers are written alike exactly when they round alike
(`formatG_eq_iff`).
-/
import PrivacyGateway.Lib.Radix
import Mathlib.Data.List.DropRight
import Mathlib.Data.Rat.Floor
import Mathlib.Tactic.Linarith
import Mathlib.Tactic.NormNum

namespace Significant

-- ==================================================== rounding

/-- Round to an integer, halves to the even one. -/
def roundHalfEven (x : ℚ) : Nat :=
  let n := ⌊x⌋₊
  if x - n < 1 / 2 ∨ x - n = 1 / 2 ∧ n % 2 = 0 then n else n + 1

/-- How many places the first digit of a small number is to the right of
the units. A number that is not zero has at most as many as its
denominator. -/
def places : Nat → ℚ → Nat
  | 0, _ => 0
  | fuel + 1, q => if 1 ≤ q then 0 else places fuel (10 * q) + 1

/-- Six digits, and the place of the first. Zero has none. -/
structure Rounded where
  digits : Nat
  place : Nat
deriving DecidableEq

/-- The first of the digits is not zero, except for zero itself. -/
def Rounded.WellFormed (r : Rounded) : Prop :=
  (r.digits = 0 ∧ r.place = 0) ∨ (10 ^ 5 ≤ r.digits ∧ r.digits < 10 ^ 6)

/-- A number from zero to one, to six significant digits. -/
def significant (q : ℚ) : Rounded :=
  if q = 0 then ⟨0, 0⟩
  else
    let place := places q.den q
    let digits := roundHalfEven (q * 10 ^ (place + 5))
    -- a number that rounds up to the next place has its first digit there
    if digits = 10 ^ 6 then ⟨10 ^ 5, place - 1⟩ else ⟨digits, place⟩

theorem le_roundHalfEven {x : ℚ} {n : Nat} (h : n ≤ x) :
    n ≤ roundHalfEven x := by
  have hfloor : n ≤ ⌊x⌋₊ := Nat.le_floor h
  unfold roundHalfEven
  simp only
  split <;> omega

theorem roundHalfEven_le {x : ℚ} {n : Nat} (hx : 0 ≤ x) (h : x < n) :
    roundHalfEven x ≤ n := by
  have hfloor : ⌊x⌋₊ < n := (Nat.floor_lt hx).mpr h
  unfold roundHalfEven
  simp only
  split <;> omega

theorem places_spec (fuel : Nat) :
    ∀ {q : ℚ}, q < 10 → 1 ≤ q * 10 ^ fuel →
      1 ≤ q * 10 ^ places fuel q ∧ q * 10 ^ places fuel q < 10 := by
  induction fuel with
  | zero =>
      intro q hlt hle
      rw [places, pow_zero, mul_one]
      exact ⟨by simpa using hle, hlt⟩
  | succ fuel ih =>
      intro q hlt hle
      unfold places
      split
      · rename_i hone
        rw [pow_zero, mul_one]
        exact ⟨hone, hlt⟩
      · rename_i hone
        have hten : 10 * q < 10 := by linarith
        have hfuel : 1 ≤ 10 * q * 10 ^ fuel := by
          rw [pow_succ] at hle
          linarith
        have h := ih hten hfuel
        rw [pow_succ, show q * (10 ^ places fuel (10 * q) * 10) =
          10 * q * 10 ^ places fuel (10 * q) by ring]
        exact h

/-- The denominator has more than enough digits. -/
theorem one_le_mul_pow_den {q : ℚ} (hq : 0 < q) :
    1 ≤ q * 10 ^ q.den := by
  have hnum : (1 : ℚ) ≤ q.num := by
    exact_mod_cast Rat.num_pos.mpr hq
  have hden : ((q.den : ℕ) : ℚ) ≤ 10 ^ q.den := by
    exact_mod_cast (Nat.lt_pow_self (by decide : 1 < 10)).le
  calc (1 : ℚ) ≤ q.num := hnum
    _ = q * q.den := (Rat.mul_den_eq_num q).symm
    _ ≤ q * 10 ^ q.den := mul_le_mul_of_nonneg_left hden hq.le

theorem significant_wellFormed {q : ℚ} (hnonneg : 0 ≤ q) (hle : q ≤ 1) :
    (significant q).WellFormed := by
  unfold significant
  split
  · exact Or.inl ⟨rfl, rfl⟩
  · rename_i hne
    have hpos : 0 < q := lt_of_le_of_ne hnonneg (Ne.symm hne)
    obtain ⟨hlow, hhigh⟩ := places_spec q.den
      (lt_of_le_of_lt hle (by norm_num)) (one_le_mul_pow_den hpos)
    have hscaled : q * 10 ^ (places q.den q + 5) =
        q * 10 ^ places q.den q * 10 ^ 5 := by ring
    have hfirst := le_roundHalfEven (n := 10 ^ 5)
      (x := q * 10 ^ (places q.den q + 5)) (by
        rw [hscaled]
        push_cast
        linarith)
    have hlast := roundHalfEven_le (n := 10 ^ 6)
      (x := q * 10 ^ (places q.den q + 5)) (by positivity) (by
        rw [hscaled]
        push_cast
        linarith)
    simp only
    split
    · exact Or.inr ⟨le_refl _, Nat.pow_lt_pow_right (by decide) (by decide)⟩
    · rename_i hfits
      exact Or.inr ⟨hfirst, lt_of_le_of_ne hlast hfits⟩

-- ==================================================== writing

/-- The six digits. -/
def written (n : Nat) : List Char :=
  (Radix.digits 10 6 n).map Nat.digitChar

/-- The digits up to the last that is not zero. -/
def mantissa (n : Nat) : List Char :=
  (written n).rdropWhile (· == '0')

/-- A point after the first digit, if others follow. -/
def pointed : List Char → List Char
  | [] => []
  | [c] => [c]
  | c :: d :: rest => c :: '.' :: d :: rest

/-- An exponent has two digits at least. -/
def twoDigits (n : Nat) : List Char :=
  if n < 10 then '0' :: Nat.toDigits 10 n else Nat.toDigits 10 n

def layout (r : Rounded) : List Char :=
  if r.digits = 0 then ['0']
  else if r.place = 0 then pointed (mantissa r.digits)
  else if r.place ≤ 4 then
    '0' :: '.' :: List.replicate (r.place - 1) '0' ++ mantissa r.digits
  else pointed (mantissa r.digits) ++ 'e' :: '-' :: twoDigits r.place

/-- `f"{q:g}"`, of a number from zero to one. -/
def formatG (q : ℚ) : List Char :=
  layout (significant q)

example : formatG 0 = ['0'] := by decide +kernel
example : formatG 1 = ['1'] := by decide +kernel
example : formatG (17 / 20) = ['0', '.', '8', '5'] := by decide +kernel
example : formatG (1 / 80000) = "1.25e-05".toList := by decide +kernel

-- ==================================================== what a text says

theorem digitChar_inj : ∀ d, d < 10 → ∀ e, e < 10 →
    Nat.digitChar d = Nat.digitChar e → d = e := by
  decide

theorem isDigit_of_mem_written {n : Nat} {c : Char} (h : c ∈ written n) :
    c.isDigit = true := by
  obtain ⟨d, hd, rfl⟩ := List.mem_map.mp h
  rw [Nat.isDigit_digitChar]
  exact decide_eq_true (Radix.lt_of_mem_digits (by decide) hd)

theorem isDigit_of_mem_mantissa {n : Nat} {c : Char}
    (h : c ∈ mantissa n) : c.isDigit = true :=
  isDigit_of_mem_written ((List.rdropWhile_prefix _ _).subset h)

/-- What is no digit is not in the mantissa. -/
theorem not_mem_mantissa {c : Char} (hc : c.isDigit = false) (n : Nat) :
    c ∉ mantissa n := by
  intro h
  rw [isDigit_of_mem_mantissa h] at hc
  cases hc

/-- The zeros that were dropped are put back up to the six digits. -/
theorem written_eq (n : Nat) :
    written n = mantissa n ++
      List.replicate (6 - (mantissa n).length) '0' := by
  have hsplit := List.rdropWhile_append_rtakeWhile (p := (· == '0')) (l := written n)
  have hzeros : (written n).rtakeWhile (· == '0') =
      List.replicate ((written n).rtakeWhile (· == '0')).length '0' := by
    rw [List.eq_replicate_length]
    intro c hc
    simpa using List.mem_rtakeWhile_imp hc
  have hlength : (mantissa n).length +
      ((written n).rtakeWhile (· == '0')).length = 6 := by
    have h := congrArg List.length hsplit
    rw [List.length_append] at h
    rw [mantissa, h, written, List.length_map, Radix.length_digits]
  rw [← hlength, Nat.add_sub_cancel_left, ← hzeros]
  exact hsplit.symm

theorem mantissa_inj {n k : Nat} (hn : n < 10 ^ 6) (hk : k < 10 ^ 6)
    (h : mantissa n = mantissa k) : n = k := by
  have hwritten : written n = written k := by
    rw [written_eq n, written_eq k, h]
  exact Radix.map_digits_inj (by decide) digitChar_inj hn hk hwritten

/-- Its first digit is not zero. -/
theorem mantissa_cons {n : Nat} (hlow : 10 ^ 5 ≤ n) (hhigh : n < 10 ^ 6) :
    ∃ c rest, mantissa n = c :: rest ∧ c ≠ '0' := by
  have hfirst : written n = Nat.digitChar (n / 10 ^ 5 % 10) ::
      (written n).tail := rfl
  have hne : Nat.digitChar (n / 10 ^ 5 % 10) ≠ '0' := by
    rw [Ne, Nat.digitChar_eq_zero]
    omega
  cases hmantissa : mantissa n with
  | nil =>
      have hall := List.rdropWhile_eq_nil_iff.mp hmantissa
      rw [hfirst] at hall
      exact absurd (by simpa using hall _ List.mem_cons_self) hne
  | cons c rest =>
      have hstart : mantissa n <+: written n := List.rdropWhile_prefix _ _
      rw [hmantissa, hfirst, List.cons_prefix_cons] at hstart
      exact ⟨c, rest, rfl, hstart.1 ▸ hne⟩

theorem pointed_inj {l k : List Char} (h : pointed l = pointed k) :
    l = k := by
  cases l with
  | nil =>
      cases k with
      | nil => rfl
      | cons d k => cases k <;> cases h
  | cons c l =>
      cases k with
      | nil => cases l <;> cases h
      | cons d k =>
          cases l with
          | nil =>
              cases k with
              | nil => exact h
              | cons e k => cases h
          | cons e l =>
              cases k with
              | nil => cases h
              | cons f k =>
                  injection h with hfirst hrest
                  injection hrest with _ hrest
                  rw [hfirst, hrest]

/-- Where a point was put, nothing else is added. -/
theorem mem_pointed {c : Char} {l : List Char} (h : c ∈ pointed l) :
    c = '.' ∨ c ∈ l := by
  cases l with
  | nil => cases h
  | cons d l =>
      cases l with
      | nil => exact Or.inr h
      | cons e l =>
          rcases List.mem_cons.mp h with rfl | h
          · exact Or.inr List.mem_cons_self
          · rcases List.mem_cons.mp h with rfl | h
            · exact Or.inl rfl
            · exact Or.inr (List.mem_cons_of_mem _ h)

theorem head?_pointed (l : List Char) : (pointed l).head? = l.head? := by
  cases l with
  | nil => rfl
  | cons d l => cases l <;> rfl

theorem twoDigits_inj {n k : Nat} (h : twoDigits n = twoDigits k) :
    n = k := by
  have hread : ∀ n, Nat.ofDigitChars 10 (twoDigits n) 0 = n := by
    intro n
    unfold twoDigits
    split
    · rw [Nat.ofDigitChars_cons]
      exact Nat.ofDigitChars_ten_toDigits
    · exact Nat.ofDigitChars_ten_toDigits
  rw [← hread n, h, hread k]

/-- Leading zeros are counted by what follows them. -/
theorem replicate_append_inj {c : Char} {a : Nat} :
    ∀ {b : Nat} {d e : Char} {l k : List Char}, d ≠ c → e ≠ c →
      List.replicate a c ++ d :: l = List.replicate b c ++ e :: k →
        a = b ∧ d :: l = e :: k := by
  induction a with
  | zero =>
      intro b d e l k hd he h
      cases b with
      | zero => exact ⟨rfl, h⟩
      | succ b => exact absurd (List.cons.inj h).1 hd
  | succ a ih =>
      intro b d e l k hd he h
      cases b with
      | zero => exact absurd (List.cons.inj h).1.symm he
      | succ b =>
          obtain ⟨hab, hrest⟩ := ih hd he (List.cons.inj h).2
          exact ⟨congrArg Nat.succ hab, hrest⟩

-- ==================================================== four kinds of text

/-- The four kinds of layout: zero, with a first digit before the point,
with leading zeros, and scientific. -/
def Rounded.kind (r : Rounded) : Nat :=
  if r.digits = 0 then 0
  else if r.place = 0 then 1
  else if r.place ≤ 4 then 2
  else 3

/-- The kind, read off the text. -/
def kindOf (text : List Char) : Nat :=
  if 'e' ∈ text then 3
  else if text.head? = some '0' then
    if text.length = 1 then 0 else 2
  else 1

theorem exponent_not_mem_pointed (n : Nat) :
    'e' ∉ pointed (mantissa n) := by
  intro h
  rcases mem_pointed h with h | h
  · exact absurd h (by decide)
  · exact not_mem_mantissa (by decide) n h

theorem exponent_not_mem_place (n : Nat) : 'e' ∉ '-' :: twoDigits n := by
  have hdigits : 'e' ∉ Nat.toDigits 10 n := by
    intro h
    exact absurd (Nat.isDigit_of_mem_toDigits (by decide) (by decide) h)
      (by decide)
  unfold twoDigits
  split <;> simp [hdigits]

theorem kindOf_layout {r : Rounded} (h : r.WellFormed) :
    kindOf (layout r) = r.kind := by
  unfold layout Rounded.kind
  split
  · decide
  · rename_i hdigits
    obtain ⟨hlow, hhigh⟩ : 10 ^ 5 ≤ r.digits ∧ r.digits < 10 ^ 6 :=
      h.resolve_left (fun hzero => hdigits hzero.1)
    obtain ⟨c, rest, hmantissa, hfirst⟩ := mantissa_cons hlow hhigh
    split
    · have hhead : (pointed (mantissa r.digits)).head? ≠ some '0' := by
        rw [head?_pointed, hmantissa]
        exact fun hc => hfirst (Option.some.inj hc)
      rw [kindOf, if_neg (exponent_not_mem_pointed _), if_neg hhead]
    · split
      · have hnone : 'e' ∉ '0' :: '.' ::
            List.replicate (r.place - 1) '0' ++ mantissa r.digits := by
          simp only [List.mem_append, List.mem_cons, List.mem_replicate]
          rintro ((h | h | ⟨-, h⟩) | h)
          · exact absurd h (by decide)
          · exact absurd h (by decide)
          · exact absurd h (by decide)
          · exact not_mem_mantissa (by decide) _ h
        have hhead : ('0' :: '.' :: List.replicate (r.place - 1) '0' ++
            mantissa r.digits).head? = some '0' := rfl
        rw [kindOf, if_neg hnone, if_pos hhead, if_neg (by simp)]
      · rw [kindOf, if_pos (by simp)]

/-- A layout, by its kind. -/
inductive Laid (r : Rounded) : Nat → Prop
  | zero (digits : r.digits = 0) : Laid r 0
  | units (digits : r.digits ≠ 0) (place : r.place = 0)
      (text : layout r = pointed (mantissa r.digits)) : Laid r 1
  | fixed (digits : r.digits ≠ 0) (place : r.place ≠ 0)
      (text : layout r = '0' :: '.' ::
        (List.replicate (r.place - 1) '0' ++ mantissa r.digits)) : Laid r 2
  | scientific (digits : r.digits ≠ 0)
      (text : layout r = pointed (mantissa r.digits) ++
        'e' :: '-' :: twoDigits r.place) : Laid r 3

theorem laid (r : Rounded) : Laid r r.kind := by
  unfold Rounded.kind
  by_cases hdigits : r.digits = 0
  · rw [if_pos hdigits]
    exact .zero hdigits
  · rw [if_neg hdigits]
    by_cases hplace : r.place = 0
    · rw [if_pos hplace]
      refine .units hdigits hplace ?_
      rw [layout, if_neg hdigits, if_pos hplace]
    · rw [if_neg hplace]
      by_cases hnear : r.place ≤ 4
      · rw [if_pos hnear]
        refine .fixed hdigits hplace ?_
        rw [layout, if_neg hdigits, if_neg hplace, if_pos hnear]
        rfl
      · rw [if_neg hnear]
        refine .scientific hdigits ?_
        rw [layout, if_neg hdigits, if_neg hplace, if_neg hnear]

theorem Rounded.WellFormed.bounds {r : Rounded} (h : r.WellFormed)
    (hdigits : r.digits ≠ 0) : 10 ^ 5 ≤ r.digits ∧ r.digits < 10 ^ 6 :=
  h.resolve_left (fun hzero => hdigits hzero.1)

theorem mantissa_inj_of_wellFormed {r s : Rounded} (hr : r.WellFormed)
    (hs : s.WellFormed) (hrd : r.digits ≠ 0) (hsd : s.digits ≠ 0)
    (h : mantissa r.digits = mantissa s.digits) : r.digits = s.digits :=
  mantissa_inj (hr.bounds hrd).2 (hs.bounds hsd).2 h

/-- A text says what was rounded to. -/
theorem layout_inj {r s : Rounded} (hr : r.WellFormed)
    (hs : s.WellFormed) (h : layout r = layout s) : r = s := by
  have hrlaid := laid r
  have hslaid := laid s
  rw [show r.kind = s.kind by
    rw [← kindOf_layout hr, h, kindOf_layout hs]] at hrlaid
  have hext : r.digits = s.digits → r.place = s.place → r = s := by
    cases r
    cases s
    rintro rfl rfl
    rfl
  generalize s.kind = kind at hrlaid hslaid
  cases hrlaid with
  | zero hrd =>
      cases hslaid with
      | zero hsd =>
          refine hext (hrd.trans hsd.symm) ?_
          rcases hr with hr | hr
          · rcases hs with hs | hs
            · exact hr.2.trans hs.2.symm
            · omega
          · omega
  | units hrd hrp hrt =>
      cases hslaid with
      | units hsd hsp hst =>
          rw [hrt, hst] at h
          exact hext (mantissa_inj_of_wellFormed hr hs hrd hsd
            (pointed_inj h)) (hrp.trans hsp.symm)
  | fixed hrd hrp hrt =>
      cases hslaid with
      | fixed hsd hsp hst =>
          rw [hrt, hst] at h
          injection h with _ h
          injection h with _ h
          obtain ⟨c, rest, hrm, hrc⟩ :=
            mantissa_cons (hr.bounds hrd).1 (hr.bounds hrd).2
          obtain ⟨d, rest', hsm, hsc⟩ :=
            mantissa_cons (hs.bounds hsd).1 (hs.bounds hsd).2
          rw [hrm, hsm] at h
          obtain ⟨hplaces, hmantissa⟩ := replicate_append_inj hrc hsc h
          rw [← hrm, ← hsm] at hmantissa
          exact hext (mantissa_inj_of_wellFormed hr hs hrd hsd hmantissa)
            (by omega)
  | scientific hrd hrt =>
      cases hslaid with
      | scientific hsd hst =>
          rw [hrt, hst, List.append_cons_inj_of_notMem
            (exponent_not_mem_pointed _) (exponent_not_mem_place _)] at h
          obtain ⟨hpointed, -, hrest⟩ := h
          injection hrest with _ hplaces
          exact hext (mantissa_inj_of_wellFormed hr hs hrd hsd
            (pointed_inj hpointed)) (twoDigits_inj hplaces)

theorem formatG_eq_iff {q p : ℚ} (hq : 0 ≤ q ∧ q ≤ 1)
    (hp : 0 ≤ p ∧ p ≤ 1) :
    formatG q = formatG p ↔ significant q = significant p := by
  constructor
  · exact layout_inj (significant_wellFormed hq.1 hq.2)
      (significant_wellFormed hp.1 hp.2)
  · exact fun h => congrArg layout h

end Significant
