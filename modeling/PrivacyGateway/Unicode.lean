/-
The Unicode character database, as far as the gateway reads it.

Python's `str` methods consult tables that are not part of this
repository. `Unicode` is those tables as parameters. Its laws state what
the tables say of ASCII characters, where the gateway's own constants
live; nothing is assumed of any other character. `Unicode.ascii` is the
smallest database that satisfies them: it knows no character outside
ASCII.
-/
import PrivacyGateway.Domain

namespace PrivacyGateway

/-- An ASCII character. -/
def isAscii (c : Char) : Bool :=
  c.toNat < 128

/-- `str.isspace` on ASCII. -/
def asciiSpace (c : Char) : Bool :=
  (9 ≤ c.toNat && c.toNat ≤ 13) || (28 ≤ c.toNat && c.toNat ≤ 32)

/-- The character tables behind the `str` methods the gateway uses. -/
structure Unicode where
  isDigit : Char → Bool
  isDecimal : Char → Bool
  decimal : Char → Nat
  isAlnum : Char → Bool
  isAlpha : Char → Bool
  isUpper : Char → Bool
  isSpace : Char → Bool
  casefold : Char → Text
  upper : Char → Text
  lower : Text → Text
  nfkc : Text → Text
  isDigit_ascii : ∀ c, isAscii c = true → isDigit c = c.isDigit
  isDecimal_ascii : ∀ c, isAscii c = true → isDecimal c = c.isDigit
  decimal_ascii : ∀ c, c.isDigit = true → decimal c = c.toNat - 48
  isAlnum_ascii : ∀ c, isAscii c = true → isAlnum c = c.isAlphanum
  isAlpha_ascii : ∀ c, isAscii c = true → isAlpha c = c.isAlpha
  isUpper_ascii : ∀ c, isAscii c = true → isUpper c = c.isUpper
  isSpace_ascii : ∀ c, isAscii c = true → isSpace c = asciiSpace c
  casefold_ascii : ∀ c, isAscii c = true → casefold c = [c.toLower]
  upper_ascii : ∀ c, isAscii c = true → upper c = [c.toUpper]
  lower_ascii : ∀ t : Text, (∀ c ∈ t, isAscii c = true) →
    lower t = t.map Char.toLower
  nfkc_ascii : ∀ t : Text, (∀ c ∈ t, isAscii c = true) → nfkc t = t

namespace Unicode

variable (unicode : Unicode)

/-- `value.strip()`. -/
def strip (text : Text) : Text :=
  ((text.dropWhile unicode.isSpace).reverse.dropWhile
    unicode.isSpace).reverse

/-- `value.casefold()`. -/
def casefoldText (text : Text) : Text :=
  text.flatMap unicode.casefold

/-- `value.upper()`. -/
def upperText (text : Text) : Text :=
  text.flatMap unicode.upper

/-- The whitespace-separated fields of a text, `pending` being the field
read so far, in reverse. -/
def splitFrom : Text → Text → List Text
  | pending, [] => if pending = [] then [] else [pending.reverse]
  | pending, c :: text =>
      if unicode.isSpace c then
        if pending = [] then splitFrom [] text
        else pending.reverse :: splitFrom [] text
      else splitFrom (c :: pending) text

/-- `value.split()`. -/
def split (text : Text) : List Text :=
  splitFrom unicode [] text

/-- A text with no whitespace is its own stripped form. -/
theorem strip_eq_self {text : Text}
    (h : ∀ c ∈ text, unicode.isSpace c = false) :
    unicode.strip text = text := by
  have hdrop : ∀ t : Text, (∀ c ∈ t, unicode.isSpace c = false) →
      t.dropWhile unicode.isSpace = t := by
    intro t ht
    cases t with
    | nil => rfl
    | cons c t =>
        rw [List.dropWhile_cons, ht c List.mem_cons_self]
        rfl
  unfold strip
  rw [hdrop text h, hdrop text.reverse
    (fun c hc => h c (List.mem_reverse.mp hc)), List.reverse_reverse]

/-- The database that knows ASCII and nothing else. -/
def ascii : Unicode where
  isDigit := Char.isDigit
  isDecimal := Char.isDigit
  decimal c := c.toNat - 48
  isAlnum := Char.isAlphanum
  isAlpha := Char.isAlpha
  isUpper := Char.isUpper
  isSpace := asciiSpace
  casefold c := [c.toLower]
  upper c := [c.toUpper]
  lower t := t.map Char.toLower
  nfkc t := t
  isDigit_ascii _ _ := rfl
  isDecimal_ascii _ _ := rfl
  decimal_ascii _ _ := rfl
  isAlnum_ascii _ _ := rfl
  isAlpha_ascii _ _ := rfl
  isUpper_ascii _ _ := rfl
  isSpace_ascii _ _ := rfl
  casefold_ascii _ _ := rfl
  upper_ascii _ _ := rfl
  lower_ascii _ _ := rfl
  nfkc_ascii _ _ := rfl

end Unicode

end PrivacyGateway
