/-
A vault that can be run.

The vault is written over a cipher, a record codec, hash functions and a
source of random draws. This file gives one of each that satisfies the
laws asked of it and that evaluates: the cipher carries its associated
data in front of the plaintext and refuses any other, the codec is
self-delimiting, and the hash functions are tables of known digests.

None of them hides anything. They serve to run the vault on an input and
see what it answers; the theorems about the vault are over every choice.
-/
import PrivacyGateway.Vault.RedisVault

namespace PrivacyGateway.Vault.Reference

-- ==================================================== fields

/-- A number in so many bytes. -/
def writeNat (n x : Nat) : Bytes :=
  (Radix.digits 256 n x).map UInt8.ofNat

/-- The number in the first so many bytes, and what follows them. -/
def readNat (n : Nat) (bytes : Bytes) : Nat × Bytes :=
  (Radix.value 256 ((bytes.take n).map UInt8.toNat), bytes.drop n)

theorem readNat_writeNat {n x : Nat} (h : x < 256 ^ n) (rest : Bytes) :
    readNat n (writeNat n x ++ rest) = (x, rest) := by
  have hlen : (writeNat n x).length = n := by simp [writeNat]
  unfold readNat
  rw [List.take_left' hlen, List.drop_left' hlen]
  unfold writeNat
  have hback : ((Radix.digits 256 n x).map UInt8.ofNat).map UInt8.toNat =
      Radix.digits 256 n x := by
    rw [List.map_map]
    conv_rhs => rw [← List.map_id (Radix.digits 256 n x)]
    apply List.map_congr_left
    intro d hd
    have hd := Radix.lt_of_mem_digits (b := 256) (by decide) hd
    exact UInt8.toNat_ofNat_of_lt' hd
  rw [hback, Radix.value_digits, Nat.mod_eq_of_lt h]

/-- A text: each character behind a one, then a zero. -/
def writeText : Text → Bytes
  | [] => [0]
  | c :: text => 1 :: (writeNat 3 c.toNat ++ writeText text)

/-- Read a text off the front, in so many characters at most. -/
def readText : Nat → Bytes → Option (Text × Bytes)
  | fuel + 1, 1 :: bytes =>
      (readText fuel (readNat 3 bytes).2).map
        (fun read => (Char.ofNat (readNat 3 bytes).1 :: read.1, read.2))
  | _, 0 :: bytes => some ([], bytes)
  | _, _ => none

theorem readText_writeText (text : Text) :
    ∀ {fuel : Nat} (rest : Bytes), text.length ≤ fuel →
      readText fuel (writeText text ++ rest) = some (text, rest) := by
  induction text with
  | nil =>
      intro fuel rest _
      cases fuel with
      | zero => rfl
      | succ fuel => rfl
  | cons c text ih =>
      intro fuel rest hfuel
      cases fuel with
      | zero => cases hfuel
      | succ fuel =>
          have hchar : c.toNat < 256 ^ 3 := by
            have := c.valid
            show c.val.toNat < _
            rcases this with h | h
            · omega
            · omega
          have htail := ih rest (Nat.le_of_succ_le_succ hfuel)
          have hread := readNat_writeNat hchar (writeText text ++ rest)
          show (readText fuel (readNat 3 (writeNat 3 c.toNat ++
            writeText text ++ rest)).2).map (fun read =>
              (Char.ofNat (readNat 3 (writeNat 3 c.toNat ++
                writeText text ++ rest)).1 :: read.1, read.2)) = _
          rw [List.append_assoc, hread, htail]
          simp

theorem length_le_writeText (text : Text) :
    text.length ≤ (writeText text).length := by
  induction text with
  | nil => simp [writeText]
  | cons c text ih =>
      simp only [writeText, List.length_cons, List.length_append]
      omega

def writeUuid (u : UUID) : Bytes :=
  writeNat 16 u.int.val

def readUuid (bytes : Bytes) : UUID × Bytes :=
  (⟨Fin.ofNat _ (readNat 16 bytes).1⟩, (readNat 16 bytes).2)

theorem readUuid_writeUuid (u : UUID) (rest : Bytes) :
    readUuid (writeUuid u ++ rest) = (u, rest) := by
  have hu : u.int.val < 256 ^ 16 := by
    have := u.int.isLt
    omega
  unfold readUuid writeUuid
  rw [readNat_writeNat hu]
  simp

/-- A whole number: its sign, then its size in ones. -/
def writeInt (x : Int) : Bytes :=
  (if x < 0 then 1 else 0) :: List.replicate x.natAbs 1

def readInt (bytes : Bytes) : Int :=
  if bytes.head? = some 1 then -((bytes.length - 1 : Nat) : Int)
  else ((bytes.length - 1 : Nat) : Int)

theorem readInt_writeInt (x : Int) : readInt (writeInt x) = x := by
  unfold readInt writeInt
  by_cases h : x < 0
  · rw [if_pos h, if_pos (List.head?_cons ..), List.length_cons,
      List.length_replicate]
    omega
  · rw [if_neg h, if_neg (by rw [List.head?_cons]; decide), List.length_cons,
      List.length_replicate]
    omega

-- ==================================================== records

def dumps (record : VaultRecord) : Bytes :=
  writeUuid record.tenantId ++ (writeUuid record.sessionId ++
    (writeText record.token ++ (writeText record.entityType ++
      (writeText record.originalValue ++ writeInt record.schemaVersion))))

def loads (bytes : Bytes) : Option VaultRecord :=
  let (tenantId, rest) := readUuid bytes
  let (sessionId, rest) := readUuid rest
  (readText bytes.length rest).bind fun (token, rest) =>
    (readText bytes.length rest).bind fun (entityType, rest) =>
      (readText bytes.length rest).map fun (originalValue, rest) =>
        ⟨tenantId, sessionId, token, entityType, originalValue,
          readInt rest⟩

theorem loads_dumps (record : VaultRecord) :
    loads (dumps record) = some record := by
  have h1 := length_le_writeText record.token
  have h2 := length_le_writeText record.entityType
  have h3 := length_le_writeText record.originalValue
  have hlen : (dumps record).length =
      (writeUuid record.tenantId).length +
        ((writeUuid record.sessionId).length +
          ((writeText record.token).length +
            ((writeText record.entityType).length +
              ((writeText record.originalValue).length +
                (writeInt record.schemaVersion).length)))) := by
    simp [dumps]
  unfold loads
  rw [hlen]
  unfold dumps
  simp only [readUuid_writeUuid]
  rw [readText_writeText record.token _ (by omega), Option.bind_some,
    readText_writeText record.entityType _ (by omega), Option.bind_some,
    readText_writeText record.originalValue _ (by omega),
    Option.map_some, readInt_writeInt]

def codec : RecordCodec where
  dumps := dumps
  loads := loads
  loads_dumps := loads_dumps

-- ==================================================== cipher

/-- The associated data: each byte behind a one, then a zero. -/
def label : Bytes → Bytes
  | [] => [0]
  | b :: aad => 1 :: b :: label aad

/-- The associated data at the front, and what follows it. -/
def readLabel : Bytes → Option (Bytes × Bytes)
  | 1 :: b :: bytes =>
      (readLabel bytes).map (fun read => (b :: read.1, read.2))
  | 0 :: bytes => some ([], bytes)
  | _ => none

theorem readLabel_label (aad rest : Bytes) :
    readLabel (label aad ++ rest) = some (aad, rest) := by
  induction aad with
  | nil => rfl
  | cons b aad ih =>
      show (readLabel (label aad ++ rest)).map _ = _
      rw [ih]
      rfl

/-- Open a box whose label is the associated data. -/
def openBox (ciphertext aad : Bytes) : Option Bytes :=
  match readLabel ciphertext with
  | some (found, rest) =>
      if found = aad then some (rest.drop gcmTagBytes) else none
  | none => none

def aead : Aead where
  encrypt _ _ plaintext aad :=
    label aad ++ (List.replicate gcmTagBytes 0 ++ plaintext)
  decrypt _ _ ciphertext aad := openBox ciphertext aad
  decrypt_encrypt _ _ plaintext aad := by
    unfold openBox
    rw [readLabel_label]
    simp
  decrypt_other _ _ plaintext aad other hne := by
    unfold openBox
    rw [readLabel_label]
    exact if_neg (fun h => hne h.symm)
  tag_length _ _ plaintext aad := by
    simp
    omega

def keyRing : StaticKeyRing where
  keys := [("k1".toList, List.replicate vaultKeyBytes 7)]
  activeKeyId := "k1".toList
  active_present := by decide +kernel
  keys_valid := by
    intro entry hentry
    rw [List.mem_singleton] at hentry
    rw [hentry]
    rfl

-- ==================================================== the vault

/-- Draws that count up. -/
def secrets : Secrets where
  tokenBytes n := Fin.ofNat _ n
  urandom n := List.replicate nonceBytes (UInt8.ofNat n)
  urandom_length _ := by simp

theorem secrets_distinct {n : Nat} (h : n ≤ 2 ^ 128) :
    ∀ i j, i < n → j < n →
      secrets.tokenBytes i = secrets.tokenBytes j → i = j := by
  intro i j hi hj heq
  have hval : i % 2 ^ 128 = j % 2 ^ 128 := congrArg Fin.val heq
  rw [Nat.mod_eq_of_lt (by omega), Nat.mod_eq_of_lt (by omega)] at hval
  exact hval

/-- A vault over these parts and some hash functions. -/
def vault (hashes : Hashes) : RedisTokenVault where
  keyPrefix := defaultKeyPrefix
  hashes := hashes
  cipher := ⟨aead, keyRing⟩
  codec := codec
  secrets := secrets

/-- The SHA-256 digests of two fingerprints. -/
def sampleHashes : Hashes :=
  Hashes.ofTables [] [
    (encodeUtf8 "fp-ada".toList,
      [129, 129, 5, 32, 185, 23, 68, 197, 55, 64, 216, 103, 233, 91, 135,
        182, 241, 86, 67, 220, 191, 162, 170, 112, 118, 180, 87, 152, 81,
        124, 123, 4]),
    (encodeUtf8 "fp-bob".toList,
      [60, 199, 172, 87, 167, 113, 120, 209, 77, 120, 199, 74, 227, 146,
        105, 193, 110, 158, 194, 162, 79, 247, 31, 33, 137, 195, 181, 158,
        221, 64, 179, 227])]

def adaEntry : VaultWriteRequest where
  entityType := "PERSON".toList
  normalizedHmac := "fp-ada".toList
  originalValue := "Ada".toList

def adaToken : Text :=
  "⟦SGW:PERSON:00000000000000000000000000⟧".toList

def bobEntry : VaultWriteRequest where
  entityType := "PERSON".toList
  normalizedHmac := "fp-bob".toList
  originalValue := "Bob".toList

end PrivacyGateway.Vault.Reference
