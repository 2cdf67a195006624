/-
An incremental UTF-8 decoder, as far as it refuses.

The decoder stands between characters, or inside one with so many bytes
still owed and a range the next byte must be in. It refuses at the first
byte that rules the text out; bytes that end inside a character are not
refused. So what is accepted as a whole is accepted in every beginning of
it (`accepts_of_append`).
-/
import Mathlib.Data.List.Basic

namespace Utf8

/-- Where the decoder stands. -/
inductive State
  | start
  | inside (owed : Nat) (low high : UInt8)
deriving DecidableEq

/-- The state after a character's first byte. -/
def first (byte : UInt8) : Option State :=
  if byte ≤ 0x7F then some .start
  else if 0xC2 ≤ byte ∧ byte ≤ 0xDF then some (.inside 1 0x80 0xBF)
  else if byte = 0xE0 then some (.inside 2 0xA0 0xBF)
  else if byte = 0xED then some (.inside 2 0x80 0x9F)
  else if 0xE1 ≤ byte ∧ byte ≤ 0xEF then some (.inside 2 0x80 0xBF)
  else if byte = 0xF0 then some (.inside 3 0x90 0xBF)
  else if 0xF1 ≤ byte ∧ byte ≤ 0xF3 then some (.inside 3 0x80 0xBF)
  else if byte = 0xF4 then some (.inside 3 0x80 0x8F)
  else none

/-- One byte: the state after it, or none where it is refused. -/
def step : State → UInt8 → Option State
  | .start, byte => first byte
  | .inside owed low high, byte =>
      if low ≤ byte ∧ byte ≤ high then
        if owed ≤ 1 then some .start
        else some (.inside (owed - 1) 0x80 0xBF)
      else none

def feed : State → List UInt8 → Option State
  | state, [] => some state
  | state, byte :: bytes => (step state byte).bind (feed · bytes)

/-- The decoder refuses none of the bytes. -/
def accepts (bytes : List UInt8) : Bool :=
  (feed .start bytes).isSome

theorem feed_append (bytes rest : List UInt8) :
    ∀ state, feed state (bytes ++ rest) =
      (feed state bytes).bind (feed · rest) := by
  induction bytes with
  | nil =>
      intro state
      rfl
  | cons byte bytes ih =>
      intro state
      simp only [List.cons_append, feed, ih, Option.bind_assoc]

theorem accepts_of_append {bytes rest : List UInt8}
    (h : accepts (bytes ++ rest) = true) : accepts bytes = true := by
  unfold accepts at h ⊢
  rw [feed_append] at h
  cases hfeed : feed .start bytes with
  | none =>
      rw [hfeed] at h
      cases h
  | some state => rfl

end Utf8
