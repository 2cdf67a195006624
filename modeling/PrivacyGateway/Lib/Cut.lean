/-
Cutting pieces of one size off a growing buffer.

`cut` takes pieces off the front for as long as enough is there; `cutAll`
appends block after block and cuts after each. How the input was divided
into blocks does not show: `cutAll_eq` says that cutting as the blocks
arrive is cutting once at the end. `cut_pieces` reads a buffer back that
was put together from pieces.
-/
import Mathlib.Data.List.Basic

namespace Cut

variable {α : Type}

def cutAux (size need : Nat) : Nat → List α → List (List α) × List α
  | 0, buffer => ([], buffer)
  | fuel + 1, buffer =>
      if need ≤ buffer.length then
        (buffer.take size ::
          (cutAux size need fuel (buffer.drop size)).1,
          (cutAux size need fuel (buffer.drop size)).2)
      else ([], buffer)

/-- Pieces of `size` off the front, while `need` elements are there, and
what is left. -/
def cut (size need : Nat) (buffer : List α) : List (List α) × List α :=
  cutAux size need buffer.length buffer

/-- Cut after each block. -/
def cutAll (size need : Nat) : List α → List (List α) →
    List (List α) × List α
  | buffer, [] => ([], buffer)
  | buffer, block :: blocks =>
      ((cut size need (buffer ++ block)).1 ++
        (cutAll size need (cut size need (buffer ++ block)).2 blocks).1,
        (cutAll size need (cut size need (buffer ++ block)).2 blocks).2)

variable {size need : Nat} {buffer : List α}

theorem cutAux_stop (hshort : buffer.length < need) (fuel : Nat) :
    cutAux size need fuel buffer = ([], buffer) := by
  cases fuel with
  | zero => rfl
  | succ fuel =>
      rw [cutAux, if_neg (by omega)]

/-- More fuel than the buffer is long makes no difference. -/
theorem cutAux_fuel (hsize : 0 < size) (hneed : size ≤ need)
    (fuel : Nat) :
    ∀ (other : Nat) {buffer : List α}, buffer.length ≤ fuel →
      buffer.length ≤ other →
        cutAux size need fuel buffer = cutAux size need other buffer := by
  induction fuel with
  | zero =>
      intro other buffer hfuel _
      rw [cutAux_stop (by omega), cutAux_stop (by omega)]
  | succ fuel ih =>
      intro other buffer hfuel hother
      by_cases hlong : need ≤ buffer.length
      · obtain ⟨m, rfl⟩ : ∃ m, other = m + 1 := ⟨other - 1, by omega⟩
        rw [cutAux, cutAux, if_pos hlong, if_pos hlong,
          ih m (by rw [List.length_drop]; omega)
            (by rw [List.length_drop]; omega)]
      · rw [cutAux_stop (by omega), cutAux_stop (by omega)]

theorem cut_stop (buffer : List α) (hshort : buffer.length < need) :
    cut size need buffer = ([], buffer) :=
  cutAux_stop hshort _

theorem cut_step (hsize : 0 < size) (hneed : size ≤ need)
    (hlong : need ≤ buffer.length) :
    cut size need buffer =
      (buffer.take size :: (cut size need (buffer.drop size)).1,
        (cut size need (buffer.drop size)).2) := by
  obtain ⟨n, hn⟩ : ∃ n, buffer.length = n + 1 :=
    ⟨buffer.length - 1, by omega⟩
  have hdrop : (buffer.drop size).length ≤ n := by
    rw [List.length_drop]
    omega
  conv_lhs => unfold cut
  rw [hn, cutAux, if_pos hlong]
  unfold cut
  rw [cutAux_fuel hsize hneed n _ hdrop (Nat.le_refl _)]

/-- The pieces have the size, and with the rest they are the buffer. -/
theorem cut_spec (hsize : 0 < size) (hneed : size ≤ need) (n : Nat) :
    ∀ (buffer : List α), buffer.length ≤ n →
      (∀ piece ∈ (cut size need buffer).1, piece.length = size) ∧
      (cut size need buffer).1.flatten ++ (cut size need buffer).2 =
        buffer ∧
      (cut size need buffer).2.length < need := by
  induction n with
  | zero =>
      intro buffer hlength
      rw [cut_stop buffer (by omega)]
      exact ⟨by simp, by simp, by show buffer.length < need; omega⟩
  | succ n ih =>
      intro buffer hlength
      by_cases hlong : need ≤ buffer.length
      · obtain ⟨hpieces, hflatten, hrest⟩ := ih
          (buffer.drop size) (by rw [List.length_drop]; omega)
        rw [cut_step hsize hneed hlong]
        refine ⟨List.forall_mem_cons.mpr ⟨?_, hpieces⟩, ?_, hrest⟩
        · rw [List.length_take]
          omega
        · simp only [List.flatten_cons, List.append_assoc]
          rw [hflatten, List.take_append_drop]
      · rw [cut_stop buffer (by omega)]
        exact ⟨by simp, by simp, by show buffer.length < need; omega⟩

/-- Cutting what is there first changes nothing. -/
theorem cut_append (hsize : 0 < size) (hneed : size ≤ need) (n : Nat) :
    ∀ (buffer : List α), buffer.length ≤ n → ∀ (block : List α),
      cut size need (buffer ++ block) =
        ((cut size need buffer).1 ++
          (cut size need ((cut size need buffer).2 ++ block)).1,
          (cut size need ((cut size need buffer).2 ++ block)).2) := by
  induction n with
  | zero =>
      intro buffer hlength block
      rw [cut_stop buffer (by omega)]
      rfl
  | succ n ih =>
      intro buffer hlength block
      by_cases hlong : need ≤ buffer.length
      · have hdrop : (buffer.drop size).length ≤ n := by
          rw [List.length_drop]
          omega
        rw [cut_step hsize hneed hlong,
          cut_step hsize hneed (by rw [List.length_append]; omega),
          List.take_append_of_le_length (by omega),
          List.drop_append_of_le_length (by omega), ih _ hdrop block]
        rfl
      · rw [cut_stop buffer (by omega)]
        rfl

/-- How the input was divided into blocks does not show. -/
theorem cutAll_eq (hsize : 0 < size) (hneed : size ≤ need)
    (blocks : List (List α)) :
    ∀ {buffer : List α}, buffer.length < need →
      cutAll size need buffer blocks =
        cut size need (buffer ++ blocks.flatten) := by
  induction blocks with
  | nil =>
      intro buffer hshort
      rw [List.flatten_nil, List.append_nil, cut_stop buffer hshort]
      rfl
  | cons block blocks ih =>
      intro buffer hshort
      have hrest := (cut_spec hsize hneed _ _
        (Nat.le_refl (buffer ++ block).length)).2.2
      rw [cutAll, ih hrest, List.flatten_cons, ← List.append_assoc,
        cut_append hsize hneed _ _ (Nat.le_refl (buffer ++ block).length)]

/-- An input that arrives in blocks is cut as a whole. -/
theorem cutAll_start (hsize : 0 < size) (hneed : size ≤ need)
    (blocks : List (List α)) :
    cutAll size need [] blocks = cut size need blocks.flatten := by
  rw [cutAll_eq hsize hneed blocks (by simp; omega), List.nil_append]

/-- A buffer put together from pieces is cut into them. -/
theorem cut_pieces (hsize : 0 < size) (hneed : size ≤ need)
    {rest : List α} (hshort : rest.length < need)
    (henough : need ≤ size + rest.length) (pieces : List (List α)) :
    (∀ piece ∈ pieces, piece.length = size) →
      cut size need (pieces.flatten ++ rest) = (pieces, rest) := by
  induction pieces with
  | nil =>
      intro _
      exact cut_stop rest hshort
  | cons piece pieces ih =>
      intro hpieces
      obtain ⟨hpiece, hpieces⟩ := List.forall_mem_cons.mp hpieces
      rw [List.flatten_cons, List.append_assoc,
        cut_step hsize hneed (by
          simp only [List.length_append]
          omega),
        List.take_left' hpiece, List.drop_left' hpiece, ih hpieces]

end Cut
