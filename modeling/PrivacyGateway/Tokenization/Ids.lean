/-
Token identifiers: 128 random bits in Crockford base32.

The 26 characters carry 130 bits, so every draw has an encoding and two
draws with one encoding are equal. `encodeCrockford` takes the drawn
number; `encodeCrockfordBytes` takes the bytes, group by group as the source
shifts them out, and `encodeCrockfordBytes_eq` says that the two agree.
-/
import PrivacyGateway.Lib.Radix
import PrivacyGateway.Tokenization.Grammar

namespace PrivacyGateway.Tokenization

def bitsPerCharacter : Nat := 5

/-- Sixteen bytes, read most significant first, as 26 characters. -/
def encodeCrockford (raw : Fin (2 ^ 128)) : Text :=
  (Radix.digits (2 ^ bitsPerCharacter) tokenIdLength raw.val).map
    (fun digit => crockfordAlphabet.getD digit '0')

private theorem crockford_inj :
    ∀ d, d < 32 → ∀ e, e < 32 →
      crockfordAlphabet.getD d '0' = crockfordAlphabet.getD e '0' →
        d = e := by
  decide

private theorem isCrockfordChar_getD :
    ∀ d, d < 32 → isCrockfordChar (crockfordAlphabet.getD d '0') = true := by
  decide

theorem isValidTokenId_encodeCrockford (raw : Fin (2 ^ 128)) :
    isValidTokenId (encodeCrockford raw) = true := by
  unfold isValidTokenId
  rw [Bool.and_eq_true]
  refine ⟨?_, ?_⟩
  · simp [encodeCrockford]
  · rw [List.all_eq_true]
    intro c hc
    obtain ⟨d, hd, rfl⟩ := List.mem_map.mp hc
    exact isCrockfordChar_getD d (Radix.lt_of_mem_digits (by decide) hd)

theorem encodeCrockford_injective :
    Function.Injective encodeCrockford := by
  intro a b h
  have hval : a.val = b.val :=
    Radix.map_digits_inj (b := 32) (n := 26) (by omega) crockford_inj
      (by have := a.isLt; omega) (by have := b.isLt; omega) h
  exact Fin.ext hval

-- ==================================================== sixteen bytes

def tokenIdBytes : Nat := 16
def characterMask : Nat := 31
def highestShift : Nat := bitsPerCharacter * (tokenIdLength - 1)

/-- `range(highest, -1, -bits)`: the group at position `i` starts
`i` groups below the highest shift. -/
def shifts : List Nat :=
  (List.range tokenIdLength).map (fun i =>
    highestShift - i * bitsPerCharacter)

/-- Encode exactly sixteen bytes as 26 characters. -/
def encodeCrockfordBytes (raw : Bytes) : Except Exn Text :=
  if raw.length ≠ tokenIdBytes then
    .error (.value "token ids encode exactly 16 bytes")
  else
    .ok (shifts.map (fun shift => crockfordAlphabet.getD
      ((Radix.value 256 (raw.map UInt8.toNat) >>> shift) &&&
        characterMask) '0'))

/-- The groups are the base-32 digits, most significant first. -/
theorem map_shifts (value : Nat) :
    shifts.map (fun shift => (value >>> shift) &&& characterMask) =
      Radix.digits (2 ^ bitsPerCharacter) tokenIdLength value := by
  unfold shifts Radix.digits
  rw [List.map_map]
  refine List.map_congr_left (fun i hi => ?_)
  have hi : i < 26 := List.mem_range.mp hi
  have hpower : highestShift - i * bitsPerCharacter =
      bitsPerCharacter * (tokenIdLength - 1 - i) := by
    unfold highestShift bitsPerCharacter tokenIdLength
    omega
  show (value >>> (highestShift - i * bitsPerCharacter)) &&&
    (2 ^ bitsPerCharacter - 1) = _
  rw [Nat.and_two_pow_sub_one_eq_mod, Nat.shiftRight_eq_div_pow, hpower,
    Nat.pow_mul]

theorem mem_bytes_lt {raw : Bytes} :
    ∀ d ∈ raw.map UInt8.toNat, d < 256 := by
  intro d hd
  obtain ⟨byte, -, rfl⟩ := List.mem_map.mp hd
  exact byte.toNat_lt

/-- The number that sixteen bytes stand for. -/
def drawOf (raw : Bytes) (h : raw.length = tokenIdBytes) : Fin (2 ^ 128) :=
  ⟨Radix.value 256 (raw.map UInt8.toNat), by
    have hlt := Radix.value_lt (raw.map UInt8.toNat) mem_bytes_lt
    rw [List.length_map, h] at hlt
    exact hlt⟩

theorem drawOf_inj {raw other : Bytes} (h : raw.length = tokenIdBytes)
    (ho : other.length = tokenIdBytes) (heq : drawOf raw h = drawOf other ho) :
    raw = other := by
  have hnumbers : raw.map UInt8.toNat = other.map UInt8.toNat :=
    Radix.value_inj mem_bytes_lt mem_bytes_lt
      (by rw [List.length_map, List.length_map, h, ho])
      (congrArg Fin.val heq)
  exact List.map_injective_iff.mpr (fun _ _ => UInt8.toNat_inj.mp) hnumbers

theorem encodeCrockfordBytes_eq {raw : Bytes} (h : raw.length = tokenIdBytes) :
    encodeCrockfordBytes raw = .ok (encodeCrockford (drawOf raw h)) := by
  unfold encodeCrockfordBytes encodeCrockford
  rw [if_neg (not_not.mpr h), ← map_shifts, List.map_map]
  rfl

/-- Every sixteen bytes have an identifier that the grammar accepts, in a
token of any valid type that parses back, and no other sixteen bytes have
it. -/
theorem identifiers_carry_all_bits (raw : Bytes)
    (h : raw.length = tokenIdBytes) :
    ∃ tokenId, encodeCrockfordBytes raw = .ok tokenId ∧
      tokenId.length = tokenIdLength ∧ isValidTokenId tokenId = true ∧
      (∀ entityType, isValidEntityType entityType = true →
        ∃ text token, formatToken entityType tokenId = .ok text ∧
          parseToken text = some token ∧ token.entityType = entityType ∧
          token.tokenId = tokenId) ∧
      ∀ other : Bytes, other.length = tokenIdBytes →
        encodeCrockfordBytes other = .ok tokenId → other = raw := by
  have hid := isValidTokenId_encodeCrockford (drawOf raw h)
  refine ⟨encodeCrockford (drawOf raw h), encodeCrockfordBytes_eq h,
    length_of_validTokenId hid, hid, ?_, ?_⟩
  · intro entityType htype
    exact ⟨_, ⟨entityType, _, htype, hid⟩, formatToken_of_valid htype hid,
      parseToken_text ⟨entityType, _, htype, hid⟩, rfl, rfl⟩
  · intro other ho heq
    rw [encodeCrockfordBytes_eq ho] at heq
    exact drawOf_inj ho h
      (encodeCrockford_injective (Except.ok.inj heq))

/-- The highest draw: its first character carries three bits. -/
theorem identifiers_carry_all_bits_highest :
    encodeCrockfordBytes (List.replicate 16 255) =
        .ok "7ZZZZZZZZZZZZZZZZZZZZZZZZZ".toList ∧
      ∃ tokenId, encodeCrockfordBytes (List.replicate 16 255) = .ok tokenId ∧
        isValidTokenId tokenId = true := by
  obtain ⟨tokenId, hencode, -, hid, -⟩ :=
    identifiers_carry_all_bits (List.replicate 16 255) rfl
  exact ⟨by decide +kernel, tokenId, hencode, hid⟩

end PrivacyGateway.Tokenization
