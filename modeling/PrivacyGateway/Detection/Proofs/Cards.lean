/-
When the card validator and the normalizer mean the same number.

The validator keeps the characters of `isdigit` and takes each for its code
point less 48. The normalizer keeps the decimals of the compatibility form
and writes each with the ASCII digit of its value. On ASCII digits the two
agree. On others they do not: an Arabic-Indic four is worth 1588 to the
validator, a superscript two is a digit to it and no decimal. So there are
three readings of a value: by code points, by decimal values, and by
decimal values of the compatibility form. It is validated as the number it
shows when they are card numbers together (`validated_iff_readAlike`).
They are the same when its digits are plain (`readAlike_of_plain`), and
none is a card number when none has a card's length
(`readAlike_of_length`). On other values the validator adds up code points
that are not digits, and what the sums leave modulo ten is chance.
-/
import PrivacyGateway.Detection.Config
import PrivacyGateway.Tokenization.Identity

namespace PrivacyGateway.Detection

open Tokenization

-- ==================================================== the Luhn check

/-- A doubled digit, its own digits added up. -/
def doubled (digit : Nat) : Nat :=
  if 9 < 2 * digit then 2 * digit - 9 else 2 * digit

/-- The Luhn sum of digits given from the right: every second is
doubled. -/
def luhnSum : List Nat → Nat
  | [] => 0
  | [digit] => digit
  | digit :: other :: digits => digit + doubled other + luhnSum digits

/-- Between 13 and 19 digits, and the Luhn check holds. -/
def CardNumber (digits : List Nat) : Prop :=
  minCardDigits ≤ digits.length ∧ digits.length ≤ maxCardDigits ∧
    luhnSum digits.reverse % 10 = 0

instance (digits : List Nat) : Decidable (CardNumber digits) :=
  inferInstanceAs (Decidable (_ ∧ _ ∧ _))

/-- What a digit is worth by its code point. -/
def worth (c : Char) : Nat :=
  c.toNat - '0'.toNat

theorem luhnTerm_even {c : Char} {position : Nat}
    (hc : '0'.toNat ≤ c.toNat) (hposition : position % 2 = 0) :
    luhnTerm c position = worth c := by
  unfold luhnTerm worth
  simp only [hposition]
  rw [if_neg Nat.zero_ne_one]
  omega

theorem luhnTerm_odd {c : Char} {position : Nat}
    (hc : '0'.toNat ≤ c.toNat) (hposition : position % 2 = 1) :
    luhnTerm c position = doubled (worth c) := by
  unfold luhnTerm doubled worth
  simp only [hposition, if_true]
  by_cases hlarge : 9 < 2 * (c.toNat - '0'.toNat)
  · rw [if_pos hlarge, if_pos (by omega)]
    omega
  · rw [if_neg hlarge, if_neg (by omega)]
    omega

/-- The loop adds up the Luhn sum of the code points. -/
theorem sum_luhnTerm : ∀ (cs : Text) (position : Nat),
    (∀ c ∈ cs, '0'.toNat ≤ c.toNat) → position % 2 = 0 →
      ((cs.zipIdx position).map (fun x => luhnTerm x.1 x.2)).sum =
        luhnSum (cs.map worth)
  | [], _, _, _ => rfl
  | [c], position, hcs, hposition => by
      have hc := hcs c List.mem_cons_self
      simp [luhnSum, luhnTerm_even hc hposition]
  | c :: other :: cs, position, hcs, hposition => by
      have hc := hcs c List.mem_cons_self
      have hother := hcs other (by simp)
      have hrest := sum_luhnTerm cs (position + 1 + 1)
        (fun c hc => hcs c (by simp [hc])) (by omega)
      simp only [List.zipIdx_cons, List.map_cons, List.sum_cons, hrest,
        luhnTerm_even hc hposition,
        luhnTerm_odd hother (show (position + 1) % 2 = 1 by omega),
        luhnSum]
      push_cast
      ring

-- ==================================================== the three readings

section Readings

variable (unicode : Unicode)

/-- The digits of a value as the validator reads them. -/
def codePoints (value : Text) : List Nat :=
  (digitsOnly unicode value).map worth

/-- The decimal digit values of a value. -/
def decimals (value : Text) : List Nat :=
  (value.filter unicode.isDecimal).map unicode.decimal

/-- The three readings of a value are card numbers together, or none of
them is. -/
structure ReadAlike (value : Text) : Prop where
  codePoints : CardNumber (codePoints unicode value) ↔
    CardNumber (decimals unicode value)
  compatibility : CardNumber (decimals unicode (unicode.nfkc value)) ↔
    CardNumber (decimals unicode value)

/-- The digit characters are ASCII, and the compatibility form has the
decimals of the value. -/
structure PlainDigits (value : Text) : Prop where
  ascii : ∀ c ∈ value, unicode.isDigit c = true ∨
    unicode.isDecimal c = true → isAscii c = true
  form : decimals unicode (unicode.nfkc value) = decimals unicode value

/-- A card number does not have this many digits. -/
def NoCardLength (count : Nat) : Prop :=
  count < minCardDigits ∨ maxCardDigits < count

instance (count : Nat) : Decidable (NoCardLength count) :=
  inferInstanceAs (Decidable (_ ∨ _))

/-- However the digit characters are counted, there are too few of them or
too many. -/
structure NoCardLengths (value : Text) : Prop where
  digits : NoCardLength (value.countP unicode.isDigit)
  decimals : NoCardLength (value.countP unicode.isDecimal)
  form : NoCardLength ((unicode.nfkc value).countP unicode.isDecimal)

end Readings

variable {unicode : Unicode} {value : Text}

theorem zero_le_of_isDigit {c : Char} (h : unicode.isDigit c = true) :
    '0'.toNat ≤ c.toNat := by
  by_cases hascii : isAscii c = true
  · rw [unicode.isDigit_ascii c hascii] at h
    have hdigit := (Bool.and_eq_true _ _).mp h
    exact UInt32.le_iff_toNat_le.mp (of_decide_eq_true hdigit.1)
  · have hlarge : ¬ c.toNat < 128 := fun hlt =>
      hascii (decide_eq_true hlt)
    show 48 ≤ c.toNat
    omega

/-- The validator accepts a value that is a card number by its code
points. -/
theorem isValidCreditCard_iff :
    isValidCreditCard unicode value = true ↔
      CardNumber (codePoints unicode value) := by
  have hagain : digitsOnly unicode (digitsOnly unicode value) =
      digitsOnly unicode value := by
    simp [digitsOnly]
  have hlarge : ∀ c ∈ (digitsOnly unicode value).reverse,
      '0'.toNat ≤ c.toNat := by
    intro c hc
    exact zero_le_of_isDigit
      (List.mem_filter.mp (List.mem_reverse.mp hc)).2
  have hsum := sum_luhnTerm _ 0 hlarge rfl
  unfold isValidCreditCard CardNumber codePoints
  simp only
  rw [List.length_map, ← List.map_reverse]
  split
  · rename_i hlength
    unfold luhnIsValid
    simp only
    have htwo : ¬ (digitsOnly unicode value).length < 2 := by
      have hmin := hlength.1
      unfold minCardDigits at hmin
      omega
    rw [hagain, if_neg htwo, hsum]
    simp only [beq_iff_eq, hlength.1, hlength.2, true_and]
    omega
  · rename_i hlength
    constructor
    · intro h
      cases h
    · intro h
      exact absurd ⟨h.1, h.2.1⟩ hlength

/-- A decimal is written with one digit, which is worth its value. -/
theorem worth_digitChar {d : Nat} (hd : d < 10) :
    (Nat.digitChar d).isDigit = true ∧ worth (Nat.digitChar d) = d := by
  revert d
  decide

theorem isDigit_digitChar {d : Nat} (hd : d < 10) :
    unicode.isDigit (Nat.digitChar d) = true := by
  have hascii : isAscii (Nat.digitChar d) = true := by
    revert d
    decide
  rw [unicode.isDigit_ascii _ hascii]
  exact (worth_digitChar hd).1

/-- What the normalizer writes is worth the decimals it read. -/
theorem codePoints_asciiDigits
    (hdecimal : ∀ c, unicode.isDecimal c = true → unicode.decimal c < 10) :
    codePoints unicode (asciiDigits unicode value) =
      decimals unicode value := by
  have hsmall : ∀ d ∈ decimals unicode value, d < 10 := by
    intro d hd
    obtain ⟨c, hc, rfl⟩ := List.mem_map.mp hd
    exact hdecimal c (List.mem_filter.mp hc).2
  have hwritten : asciiDigits unicode value =
      (decimals unicode value).map Nat.digitChar := by
    have hflat : asciiDigits unicode value =
        (decimals unicode value).flatMap (Nat.toDigits 10) := by
      unfold asciiDigits decimals
      rw [List.flatMap_map]
    rw [hflat, List.map_eq_flatMap]
    apply List.flatMap_congr
    intro d hd
    exact Nat.toDigits_of_lt_base (hsmall d hd)
  have hkept : digitsOnly unicode ((decimals unicode value).map
      Nat.digitChar) = (decimals unicode value).map Nat.digitChar := by
    apply List.filter_eq_self.mpr
    intro c hc
    obtain ⟨d, hd, rfl⟩ := List.mem_map.mp hc
    exact isDigit_digitChar (hsmall d hd)
  unfold codePoints
  rw [hwritten, hkept, List.map_map]
  refine (List.map_congr_left (fun d hd => ?_)).trans (List.map_id _)
  exact (worth_digitChar (hsmall d hd)).2

/-- The normalized value is accepted when it is a card number by the
decimals of its compatibility form. -/
theorem isValidCreditCard_normalize_iff
    (hdecimal : ∀ c, unicode.isDecimal c = true → unicode.decimal c < 10) :
    isValidCreditCard unicode (normalizeNumericIdentifier unicode value) =
        true ↔
      CardNumber (decimals unicode (unicode.nfkc value)) := by
  unfold normalizeNumericIdentifier
  rw [isValidCreditCard_iff, codePoints_asciiDigits hdecimal]

-- ==================================================== validation

/-- A value whose digits are plain is read alike. -/
theorem readAlike_of_plain (h : PlainDigits unicode value) :
    ReadAlike unicode value := by
  have hsame : codePoints unicode value = decimals unicode value := by
    have hpick : value.filter unicode.isDigit =
        value.filter unicode.isDecimal := by
      apply List.filter_congr
      intro c hc
      rw [Bool.eq_iff_iff]
      constructor
      · intro hdigit
        have hascii := h.ascii c hc (Or.inl hdigit)
        rwa [unicode.isDecimal_ascii c hascii,
          ← unicode.isDigit_ascii c hascii]
      · intro hdecimal
        have hascii := h.ascii c hc (Or.inr hdecimal)
        rwa [unicode.isDigit_ascii c hascii,
          ← unicode.isDecimal_ascii c hascii]
    unfold codePoints decimals digitsOnly
    rw [hpick]
    apply List.map_congr_left
    intro c hc
    obtain ⟨hc, hdecimal⟩ := List.mem_filter.mp hc
    have hascii := h.ascii c hc (Or.inr hdecimal)
    rw [unicode.isDecimal_ascii c hascii] at hdecimal
    exact (unicode.decimal_ascii c hdecimal).symm
  exact ⟨by rw [hsame], by rw [h.form]⟩

theorem NoCardLength.not_cardNumber {digits : List Nat}
    (h : NoCardLength digits.length) : ¬ CardNumber digits := by
  rintro ⟨hmin, hmax, -⟩
  unfold NoCardLength at h
  omega

/-- One with too few digits or too many is no card number in any
reading. -/
theorem readAlike_of_length (h : NoCardLengths unicode value) :
    ReadAlike unicode value := by
  have hlength : ∀ text : Text, (decimals unicode text).length =
      text.countP unicode.isDecimal := by
    intro text
    unfold decimals
    rw [List.length_map, List.countP_eq_length_filter]
  have hpoints : (codePoints unicode value).length =
      value.countP unicode.isDigit := by
    unfold codePoints digitsOnly
    rw [List.length_map, List.countP_eq_length_filter]
  have hcode := (hpoints ▸ h.digits).not_cardNumber
  have hdecimals := (hlength value ▸ h.decimals).not_cardNumber
  have hform := (hlength (unicode.nfkc value) ▸ h.form).not_cardNumber
  exact ⟨iff_of_false hcode hdecimals, iff_of_false hform hdecimals⟩

/-- A value is validated as its normalized form is, and as the number its
decimals show, exactly when it is read alike. -/
theorem validated_iff_readAlike
    (hdecimal : ∀ c, unicode.isDecimal c = true → unicode.decimal c < 10) :
    (isValidCreditCard unicode value = isValidCreditCard unicode
        (normalizeNumericIdentifier unicode value) ∧
      (isValidCreditCard unicode value = true ↔
        CardNumber (decimals unicode value))) ↔
      ReadAlike unicode value := by
  rw [Bool.eq_iff_iff, isValidCreditCard_iff,
    isValidCreditCard_normalize_iff hdecimal]
  constructor
  · rintro ⟨hnormal, hshown⟩
    exact ⟨hshown, hnormal.symm.trans hshown⟩
  · rintro ⟨hshown, hform⟩
    exact ⟨hshown.trans hform.symm, hshown⟩

theorem decimal_lt {c : Char} (h : Unicode.ascii.isDecimal c = true) :
    Unicode.ascii.decimal c < 10 := by
  have hdigit := (Bool.and_eq_true _ _).mp h
  have hnine := UInt32.le_iff_toNat_le.mp (of_decide_eq_true hdigit.2)
  have hlast : c.toNat ≤ 57 := hnine
  show c.toNat - 48 < 10
  omega

/-- A value with plain digits, or with too few or too many of them, is
validated as its normalized form is, and as the number its decimals
show. -/
theorem card_validation_agrees (unicode : Unicode)
    (hdecimal : ∀ c, unicode.isDecimal c = true → unicode.decimal c < 10)
    (value : Text)
    (h : PlainDigits unicode value ∨ NoCardLengths unicode value) :
    isValidCreditCard unicode value = isValidCreditCard unicode
        (normalizeNumericIdentifier unicode value) ∧
      (isValidCreditCard unicode value = true ↔
        CardNumber (decimals unicode value)) :=
  (validated_iff_readAlike hdecimal).mpr
    (h.elim readAlike_of_plain readAlike_of_length)

theorem card_validation_agrees_ascii :
    isValidCreditCard Unicode.ascii "4532-0151-1283-0366".toList =
        isValidCreditCard Unicode.ascii (normalizeNumericIdentifier
          Unicode.ascii "4532-0151-1283-0366".toList) ∧
      (isValidCreditCard Unicode.ascii "4532-0151-1283-0366".toList = true ↔
        CardNumber (decimals Unicode.ascii "4532-0151-1283-0366".toList)) := by
  have hascii : "4532-0151-1283-0366".toList.all isAscii = true := by
    decide +kernel
  exact card_validation_agrees Unicode.ascii (fun _ => decimal_lt)
    "4532-0151-1283-0366".toList
      (Or.inl ⟨fun c hc _ => List.all_eq_true.mp hascii c hc, rfl⟩)

def arabicDigit (c : Char) : Bool :=
  decide (1632 ≤ c.toNat ∧ c.toNat ≤ 1641)

theorem arabicDigit_ascii {c : Char} (h : isAscii c = true) :
    arabicDigit c = false := by
  have hsmall : c.toNat < 128 := of_decide_eq_true h
  exact decide_eq_false (by omega)

theorem arabicDigit_isDigit {c : Char} (h : c.isDigit = true) :
    arabicDigit c = false := by
  have hdigit := (Bool.and_eq_true _ _).mp h
  have hlast : c.toNat ≤ 57 :=
    UInt32.le_iff_toNat_le.mp (of_decide_eq_true hdigit.2)
  exact decide_eq_false (by omega)

/-- A database that knows the Arabic-Indic digits besides ASCII. -/
def arabicIndic : Unicode :=
  { Unicode.ascii with
    isDigit := fun c => c.isDigit || arabicDigit c
    isDecimal := fun c => c.isDigit || arabicDigit c
    decimal := fun c =>
      if arabicDigit c then c.toNat - 1632 else c.toNat - 48
    isAlnum := fun c => c.isAlphanum || arabicDigit c
    isDigit_ascii := fun c h => by rw [arabicDigit_ascii h, Bool.or_false]
    isDecimal_ascii := fun c h => by rw [arabicDigit_ascii h, Bool.or_false]
    decimal_ascii := fun c h => by
      rw [arabicDigit_isDigit h]
      rfl
    isAlnum_ascii := fun c h => by rw [arabicDigit_ascii h, Bool.or_false] }

theorem arabicIndic_decimal_lt (c : Char)
    (h : arabicIndic.isDecimal c = true) : arabicIndic.decimal c < 10 := by
  show (if arabicDigit c = true then c.toNat - 1632 else c.toNat - 48) < 10
  by_cases harabic : arabicDigit c = true
  · rw [if_pos harabic]
    have hrange : 1632 ≤ c.toNat ∧ c.toNat ≤ 1641 :=
      of_decide_eq_true harabic
    omega
  · rw [if_neg harabic]
    have hdigit : Unicode.ascii.isDecimal c = true :=
      ((Bool.or_eq_true _ _).mp h).resolve_right harabic
    exact decimal_lt hdigit

def arabicCard : Text :=
  "4532015112830366".toList.map (fun c => Char.ofNat (c.toNat + 1584))

/-- A card number in Arabic-Indic digits is not validated, and its
normalized form is. -/
theorem card_missed_arabicIndic :
    ¬ ∀ (unicode : Unicode),
      (∀ c, unicode.isDecimal c = true → unicode.decimal c < 10) →
      ∀ value : Text, isValidCreditCard unicode value =
          isValidCreditCard unicode
            (normalizeNumericIdentifier unicode value) ∧
        (isValidCreditCard unicode value = true ↔
          CardNumber (decimals unicode value)) := by
  intro hclaim
  have hsame := (hclaim arabicIndic arabicIndic_decimal_lt arabicCard).1
  revert hsame
  decide +kernel

end PrivacyGateway.Detection
