/-
Length-prefixed framing of byte strings.

A field is written as its length in a fixed number of big-endian bytes
and then its content; a record is its fields one after the other. A
length that does not fit its prefix is an overflow, and nothing is
written.

`frame_injective`: two lists of fields with one framing are equal. The
prefix tells where a field ends, so no combination of fields can be read
as another.
-/
import PrivacyGateway.Lib.Radix

namespace Frame

/-- A number in `width` big-endian bytes. -/
def bigEndian (width n : Nat) : List UInt8 :=
  (Radix.digits 256 width n).map UInt8.ofNat

@[simp] theorem length_bigEndian (width n : Nat) :
    (bigEndian width n).length = width := by
  simp [bigEndian]

theorem bigEndian_inj {width n k : Nat} (hn : n < 256 ^ width)
    (hk : k < 256 ^ width) (h : bigEndian width n = bigEndian width k) :
    n = k := by
  refine Radix.map_digits_inj (b := 256) (by omega) ?_ hn hk h
  intro d hd e he hde
  have hval := congrArg UInt8.toNat hde
  rwa [UInt8.toNat_ofNat_of_lt' hd, UInt8.toNat_ofNat_of_lt' he] at hval

/-- One field behind its length, unless the length overflows. -/
def frameField (width : Nat) (field : List UInt8) : Option (List UInt8) :=
  if field.length < 256 ^ width then
    some (bigEndian width field.length ++ field)
  else none

/-- The fields one after the other. -/
def frame (width : Nat) : List (List UInt8) → Option (List UInt8)
  | [] => some []
  | field :: fields =>
      match frameField width field, frame width fields with
      | some head, some tail => some (head ++ tail)
      | _, _ => none

theorem frame_cons_eq_some {width : Nat} {field : List UInt8}
    {fields : List (List UInt8)} {bytes : List UInt8} :
    frame width (field :: fields) = some bytes ↔
      field.length < 256 ^ width ∧ ∃ tail, frame width fields = some tail ∧
        bytes = bigEndian width field.length ++ field ++ tail := by
  conv_lhs => rw [frame, frameField]
  by_cases hlen : field.length < 256 ^ width
  · rw [if_pos hlen]
    cases frame width fields with
    | none => simp
    | some tail =>
        simp only [Option.some.injEq, hlen, true_and, exists_eq_left']
        exact eq_comm
  · rw [if_neg hlen]
    simp [hlen]

/-- The framing of fields that fit their prefixes is defined. -/
theorem frame_isSome {width : Nat} (fields : List (List UInt8))
    (h : ∀ field ∈ fields, field.length < 256 ^ width) :
    ∃ bytes, frame width fields = some bytes := by
  induction fields with
  | nil => exact ⟨[], rfl⟩
  | cons field fields ih =>
      obtain ⟨hfield, hfields⟩ := List.forall_mem_cons.mp h
      obtain ⟨tail, htail⟩ := ih hfields
      exact ⟨_, frame_cons_eq_some.mpr ⟨hfield, tail, htail, rfl⟩⟩

/-- The fields of a framing fit their prefixes. -/
theorem length_lt_of_frame {width : Nat} (fields : List (List UInt8)) :
    ∀ {bytes : List UInt8}, frame width fields = some bytes →
      ∀ field ∈ fields, field.length < 256 ^ width := by
  induction fields with
  | nil =>
      intro bytes _ field hfield
      exact absurd hfield (List.not_mem_nil)
  | cons field fields ih =>
      intro bytes h
      obtain ⟨hlen, tail, htail, -⟩ := frame_cons_eq_some.mp h
      exact List.forall_mem_cons.mpr ⟨hlen, ih htail⟩

/-- The fields' lengths fit their prefixes. -/
def Fits (width : Nat) (fields : List (List UInt8)) : Prop :=
  ∀ field ∈ fields, field.length < 256 ^ width

/-- Two lists of fields with one framing are equal. -/
theorem frame_injective {width : Nat} (hwidth : 0 < width)
    (fields : List (List UInt8)) :
    ∀ (others : List (List UInt8)) (bytes : List UInt8),
      frame width fields = some bytes → frame width others = some bytes →
        fields = others := by
  induction fields with
  | nil =>
      intro others bytes hfields hothers
      cases others with
      | nil => rfl
      | cons other others =>
          obtain ⟨-, tail, -, hbytes⟩ := frame_cons_eq_some.mp hothers
          cases hfields
          have hlen := congrArg List.length hbytes
          simp only [List.length_nil, List.length_append,
            length_bigEndian] at hlen
          omega
  | cons field fields ih =>
      intro others bytes hfields hothers
      obtain ⟨hlen, tail, htail, hbytes⟩ := frame_cons_eq_some.mp hfields
      cases others with
      | nil =>
          cases hothers
          have hlen' := congrArg List.length hbytes
          simp only [List.length_nil, List.length_append,
            length_bigEndian] at hlen'
          omega
      | cons other others =>
          obtain ⟨hlen', tail', htail', hbytes'⟩ :=
            frame_cons_eq_some.mp hothers
          rw [hbytes, List.append_assoc, List.append_assoc] at hbytes'
          -- the prefixes agree, so the fields have one length
          obtain ⟨hwritten, hrest⟩ := List.append_inj hbytes' (by simp)
          have hsame := bigEndian_inj hlen hlen' hwritten
          obtain ⟨rfl, rfl⟩ := List.append_inj hrest hsame
          rw [ih others tail htail htail']

/-- Fields that fit are told by their framing from any others. -/
theorem Fits.eq_of_frame {width : Nat} (hwidth : 0 < width)
    {fields others : List (List UInt8)} (hfits : Fits width fields)
    (h : frame width fields = frame width others) : fields = others := by
  obtain ⟨bytes, hbytes⟩ := frame_isSome fields hfits
  exact frame_injective hwidth fields others bytes hbytes (h ▸ hbytes)

end Frame
