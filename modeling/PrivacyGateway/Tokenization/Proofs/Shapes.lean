/-
What a surrogate has in common with its original, and when all of it.

Every character is drawn from the alphabet of its class, or kept. So the
shape is the original's. What is drawn is ASCII, so a letter or digit
outside ASCII is never drawn again. Any other may be: nothing excludes the
character itself, and a digest can be any 64 bytes (`exists_keystream`).
So a surrogate differs from its original whatever the digests exactly when
the original has a letter or digit outside ASCII
(`surrogate_differs_iff`).
-/
import PrivacyGateway.Tokenization.Proofs.Surrogates

namespace PrivacyGateway.Tokenization

open Effect

variable {unicode : Unicode} {hashes : Hashes}

-- ==================================================== one character

/-- A digit for a digit, an ASCII upper-case letter for one, an ASCII
lower-case letter for any other letter, and anything else itself. -/
def SameShape (unicode : Unicode) (source drawn : Char) : Prop :=
  if unicode.isDigit source then drawn.isDigit = true
  else if unicode.isAlpha source then
    if isAscii source && unicode.isUpper source then drawn.isUpper = true
    else drawn.isLower = true
  else drawn = source

/-- A letter or a digit: a character is drawn for it. -/
def IsDrawn (unicode : Unicode) (source : Char) : Prop :=
  unicode.isDigit source = true ∨ unicode.isAlpha source = true

instance (unicode : Unicode) (source : Char) :
    Decidable (IsDrawn unicode source) :=
  inferInstanceAs (Decidable (_ ∨ _))

/-- The noise draws the character itself, or nothing is drawn. -/
def Redrawn (unicode : Unicode) (source : Char) (noise : UInt8) : Prop :=
  if unicode.isDigit source then
    source.toNat = '0'.toNat + noise.toNat % 10
  else if unicode.isAlpha source then
    if isAscii source && unicode.isUpper source then
      source.toNat = 'A'.toNat + noise.toNat % 26
    else source.toNat = 'a'.toNat + noise.toNat % 26
  else True

section Alphabets

variable {alphabet : Text} {i : Nat} {source : Char}

theorem getD_irrel (hi : i < alphabet.length) (other : Char) :
    alphabet.getD i source = alphabet.getD i other := by
  rw [List.getD_eq_getElem?_getD, List.getD_eq_getElem?_getD,
    List.getElem?_eq_getElem hi]
  rfl

theorem surrogateDigits_drawn (hi : i < 10) :
    (surrogateDigits.getD i source).isDigit = true ∧
      (surrogateDigits.getD i source).toNat = '0'.toNat + i := by
  rw [getD_irrel hi '0']
  revert i
  decide

theorem surrogateUpper_drawn (hi : i < 26) :
    (surrogateUpper.getD i source).isUpper = true ∧
      (surrogateUpper.getD i source).toNat = 'A'.toNat + i := by
  rw [getD_irrel hi 'A']
  revert i
  decide

theorem surrogateLower_drawn (hi : i < 26) :
    (surrogateLower.getD i source).isLower = true ∧
      (surrogateLower.getD i source).toNat = 'a'.toNat + i := by
  rw [getD_irrel hi 'a']
  revert i
  decide

/-- What is drawn is a character when it has its code. -/
theorem drawn_eq_iff {drawn : Char} {code : Nat}
    (hdrawn : drawn.toNat = code) : drawn = source ↔ source.toNat = code := by
  rw [← Char.toNat_inj, hdrawn]
  exact eq_comm

end Alphabets

theorem sameShape_substituteChar (source : Char) (noise : UInt8) :
    SameShape unicode source (substituteChar unicode source noise) := by
  have hten : noise.toNat % 10 < 10 := Nat.mod_lt _ (by decide)
  have hletters : noise.toNat % 26 < 26 := Nat.mod_lt _ (by decide)
  unfold SameShape substituteChar
  split
  · exact (surrogateDigits_drawn hten).1
  · split
    · split
      · exact (surrogateUpper_drawn hletters).1
      · exact (surrogateLower_drawn hletters).1
    · rfl

theorem substituteChar_eq_iff (source : Char) (noise : UInt8) :
    substituteChar unicode source noise = source ↔
      Redrawn unicode source noise := by
  have hten : noise.toNat % 10 < 10 := Nat.mod_lt _ (by decide)
  have hletters : noise.toNat % 26 < 26 := Nat.mod_lt _ (by decide)
  unfold Redrawn substituteChar
  split
  · exact drawn_eq_iff (surrogateDigits_drawn hten).2
  · split
    · split
      · exact drawn_eq_iff (surrogateUpper_drawn hletters).2
      · exact drawn_eq_iff (surrogateLower_drawn hletters).2
    · exact iff_of_true rfl trivial

/-- Nothing outside ASCII is drawn. -/
theorem isAscii_of_redrawn {source : Char} {noise : UInt8}
    (hdrawn : IsDrawn unicode source)
    (h : Redrawn unicode source noise) : isAscii source = true := by
  have hten : noise.toNat % 10 < 10 := Nat.mod_lt _ (by decide)
  have hletters : noise.toNat % 26 < 26 := Nat.mod_lt _ (by decide)
  have hzero : '0'.toNat = 48 := rfl
  have hupper : 'A'.toNat = 65 := rfl
  have hlower : 'a'.toNat = 97 := rfl
  have hcode : source.toNat < 128 := by
    unfold Redrawn at h
    split at h
    · omega
    · split at h
      · split at h <;> omega
      · rename_i hdigit halpha
        exact absurd hdrawn (by
          rintro (h | h)
          · exact hdigit h
          · exact halpha h)
  exact decide_eq_true hcode

theorem toNat_of_isUpper {c : Char} (h : c.isUpper = true) :
    65 ≤ c.toNat ∧ c.toNat ≤ 90 :=
  of_decide_eq_true h

theorem toNat_of_isLower {c : Char} (h : c.isLower = true) :
    97 ≤ c.toNat ∧ c.toNat ≤ 122 := by
  unfold Char.isLower at h
  rw [Bool.and_eq_true, decide_eq_true_iff, decide_eq_true_iff] at h
  exact h

/-- Some noise draws any other character again. -/
theorem exists_redrawn {source : Char}
    (hascii : IsDrawn unicode source → isAscii source = true) :
    ∃ noise, Redrawn unicode source noise := by
  have hbyte : ∀ k < 256, (UInt8.ofNat k).toNat = k :=
    fun k hk => UInt8.toNat_ofNat_of_lt' hk
  have hzero : '0'.toNat = 48 := rfl
  have hupper : 'A'.toNat = 65 := rfl
  have hlower : 'a'.toNat = 97 := rfl
  by_cases hdigit : unicode.isDigit source = true
  · have hcode : '0'.toNat ≤ source.toNat ∧ source.toNat ≤ '9'.toNat := by
      have hsource := hascii (Or.inl hdigit)
      rw [unicode.isDigit_ascii source hsource] at hdigit
      exact Char.isDigit_iff_toNat.mp hdigit
    have hnine : '9'.toNat = 57 := rfl
    refine ⟨UInt8.ofNat (source.toNat - 48), ?_⟩
    unfold Redrawn
    rw [if_pos hdigit, hbyte _ (by omega)]
    omega
  · by_cases halpha : unicode.isAlpha source = true
    · have hsource := hascii (Or.inr halpha)
      have hletter : source.isAlpha = true :=
        unicode.isAlpha_ascii source hsource ▸ halpha
      by_cases hcase : (isAscii source && unicode.isUpper source) = true
      · have hcapital : source.isUpper = true := by
          rw [hsource, Bool.true_and, unicode.isUpper_ascii source hsource]
            at hcase
          exact hcase
        have hcode := toNat_of_isUpper hcapital
        refine ⟨UInt8.ofNat (source.toNat - 65), ?_⟩
        unfold Redrawn
        rw [if_neg hdigit, if_pos halpha, if_pos hcase,
          hbyte _ (by omega)]
        omega
      · have hsmall : source.isLower = true := by
          rw [hsource, Bool.true_and, unicode.isUpper_ascii source hsource]
            at hcase
          exact (Bool.or_eq_true _ _ ▸ hletter).resolve_left hcase
        have hcode := toNat_of_isLower hsmall
        refine ⟨UInt8.ofNat (source.toNat - 97), ?_⟩
        unfold Redrawn
        rw [if_neg hdigit, if_pos halpha, if_neg hcase,
          hbyte _ (by omega)]
        omega
    · refine ⟨0, ?_⟩
      unfold Redrawn
      rw [if_neg hdigit, if_neg halpha]
      trivial

/-- Of two noises one draws another character. -/
theorem exists_not_redrawn {source : Char} (hdrawn : IsDrawn unicode source) :
    ∃ noise : UInt8, ¬ Redrawn unicode source noise := by
  by_contra hall
  have hall : ∀ noise : UInt8, Redrawn unicode source noise :=
    fun noise => by
      by_contra hno
      exact hall ⟨noise, hno⟩
  have hfirst := hall 0
  have hsecond := hall 1
  have hzero : (0 : UInt8).toNat = 0 := rfl
  have hone : (1 : UInt8).toNat = 1 := rfl
  unfold Redrawn at hfirst hsecond
  rcases hdrawn with hdigit | halpha
  · rw [if_pos hdigit] at hfirst hsecond
    omega
  · split at hfirst
    · rename_i hdigit
      rw [if_pos hdigit] at hsecond
      omega
    · rename_i hdigit
      rw [if_neg hdigit, if_pos halpha] at hsecond
      split at hfirst
      · rename_i hcase
        rw [if_pos hcase] at hsecond
        omega
      · rename_i hcase
        rw [if_neg hcase] at hsecond
        omega

-- ==================================================== the keystream

theorem fitBytes_of_length {n : Nat} {bytes : Bytes}
    (h : bytes.length = n) : fitBytes n bytes = bytes := by
  unfold fitBytes
  rw [List.take_append_of_le_length (by omega), ← h, List.take_length]

/-- A list in blocks, one after the other. -/
theorem flatMap_blocks (bytes : Bytes) (count : Nat) :
    (List.range count).flatMap
        (fun i => (bytes.drop (blockBytes * i)).take blockBytes) =
      bytes.take (blockBytes * count) := by
  induction count with
  | zero => rfl
  | succ count ih =>
      rw [List.range_succ, List.flatMap_append, ih, Nat.mul_succ,
        List.take_add]
      simp

/-- The digests that make a keystream of the wanted bytes. -/
def wantedHashes (hashes : Hashes) (seed wanted : Bytes) : Hashes :=
  { hashes with
    blake2b := fun message => fitBytes 64 (
      (((wanted ++ List.replicate blockBytes 0).drop (blockBytes *
        ((List.range (wanted.length + 1)).find? (fun i =>
          message = seed ++ Frame.bigEndian counterBytes i)).getD 0)).take
            blockBytes))
    blake2b_length := fun _ => length_fitBytes 64 _ }

/-- A keystream can be any bytes, as long as the counter does not
overflow. -/
theorem exists_keystream (hashes : Hashes) (seed wanted : Bytes)
    (hlength : wanted.length ≤ blockBytes * 256 ^ counterBytes) :
    keystream (wantedHashes hashes seed wanted) seed wanted.length =
      wanted := by
  have hsize : blockBytes = 64 := rfl
  have hcount : ∀ i < (wanted.length + blockBytes - 1) / blockBytes,
      blockBytes * i < wanted.length := by
    intro i hi
    rw [hsize] at hi ⊢
    omega
  have hblocks : ∀ i ∈ List.range
      ((wanted.length + blockBytes - 1) / blockBytes),
      (wantedHashes hashes seed wanted).blake2b
          (seed ++ Frame.bigEndian counterBytes i) =
        ((wanted ++ List.replicate blockBytes 0).drop
          (blockBytes * i)).take blockBytes := by
    intro i hi
    have hi := hcount i (List.mem_range.mp hi)
    have hbound : i < 256 ^ counterBytes := by
      rw [hsize] at hi hlength
      omega
    -- the counter is read off the message
    have hfind : (List.range (wanted.length + 1)).find? (fun j =>
        decide (seed ++ Frame.bigEndian counterBytes i =
          seed ++ Frame.bigEndian counterBytes j)) = some i := by
      rw [List.find?_range_eq_some]
      refine ⟨decide_eq_true rfl, List.mem_range.mpr ?_, ?_⟩
      · rw [hsize] at hi
        omega
      · intro j hj
        rw [Bool.not_eq_true', decide_eq_false_iff_not,
          List.append_cancel_left_eq]
        intro hsame
        have := Frame.bigEndian_inj hbound (hj.trans hbound) hsame
        omega
    unfold wantedHashes
    simp only [hfind, Option.getD_some]
    apply fitBytes_of_length
    rw [List.length_take, List.length_drop, List.length_append,
      List.length_replicate]
    rw [hsize] at hi ⊢
    omega
  have hlast : wanted.length ≤
      blockBytes * ((wanted.length + blockBytes - 1) / blockBytes) := by
    rw [hsize]
    omega
  unfold keystream
  rw [List.flatMap_congr hblocks, flatMap_blocks, List.take_take,
    Nat.min_eq_left hlast, List.take_append_of_le_length (le_refl _),
    List.take_length]

-- ==================================================== a whole value

/-- A list is what it becomes exactly when each of its elements is. -/
theorem zipWith_eq_self_iff {α β : Type} {f : α → β → α} :
    ∀ {xs : List α} {ys : List β}, xs.length = ys.length →
      (List.zipWith f xs ys = xs ↔ ∀ p ∈ xs.zip ys, f p.1 p.2 = p.1)
  | [], [], _ => by simp
  | x :: xs, y :: ys, hlength => by
      have ih := zipWith_eq_self_iff (f := f) (Nat.succ.inj hlength)
      rw [List.zipWith_cons_cons, List.cons.injEq, ih, List.zip_cons_cons,
        List.forall_mem_cons]

theorem forall₂_zipWith {α β : Type} {f : α → β → α} {R : α → α → Prop}
    (hR : ∀ x y, R x (f x y)) :
    ∀ {xs : List α} {ys : List β}, xs.length = ys.length →
      List.Forall₂ R xs (List.zipWith f xs ys)
  | [], [], _ => List.Forall₂.nil
  | x :: _, y :: _, hlength =>
      List.Forall₂.cons (hR x y) (forall₂_zipWith hR (Nat.succ.inj hlength))

/-- Each element of a list has its partner. -/
theorem exists_mem_zip {α β : Type} {x : α} :
    ∀ {xs : List α} {ys : List β}, x ∈ xs → xs.length = ys.length →
      ∃ y, (x, y) ∈ xs.zip ys
  | x' :: xs, y' :: ys, hx, hlength => by
      rcases List.mem_cons.mp hx with rfl | hx
      · exact ⟨y', List.mem_cons_self⟩
      · obtain ⟨y, hy⟩ := exists_mem_zip hx (Nat.succ.inj hlength)
        exact ⟨y, List.mem_cons_of_mem _ hy⟩

/-- A surrogate is its original exactly when every character is drawn
again. -/
theorem surrogateFor_eq_self_iff {entityType value fingerprint : Text} :
    surrogateFor unicode hashes entityType value fingerprint = value ↔
      ∀ pair ∈ value.zip (keystream hashes
          (encodeUtf8 (fingerprint ++ ':' :: entityType)) value.length),
        Redrawn unicode pair.1 pair.2 := by
  refine (zipWith_eq_self_iff (length_keystream hashes _ _).symm).trans ?_
  exact forall₂_congr (fun pair _ => substituteChar_eq_iff _ _)

/-- A value with a letter or digit outside ASCII is never drawn again. -/
theorem surrogateFor_ne_of_not_ascii {entityType value fingerprint : Text}
    {c : Char} (hc : c ∈ value) (hdrawn : IsDrawn unicode c)
    (hascii : isAscii c = false) :
    surrogateFor unicode hashes entityType value fingerprint ≠ value := by
  rw [Ne, surrogateFor_eq_self_iff]
  intro hall
  obtain ⟨noise, hpair⟩ := exists_mem_zip hc
    (length_keystream hashes
      (encodeUtf8 (fingerprint ++ ':' :: entityType)) value.length).symm
  rw [isAscii_of_redrawn hdrawn (hall _ hpair)] at hascii
  cases hascii

/-- One without letters and digits is its own surrogate. -/
theorem surrogateFor_eq_self {entityType value fingerprint : Text}
    (h : ∀ c ∈ value, ¬ IsDrawn unicode c) :
    surrogateFor unicode hashes entityType value fingerprint = value := by
  rw [surrogateFor_eq_self_iff]
  intro pair hpair
  have hplain := h pair.1 (List.of_mem_zip hpair).1
  unfold Redrawn
  rw [if_neg (fun h => hplain (Or.inl h)), if_neg (fun h =>
    hplain (Or.inr h))]
  trivial

/-- Of any other value, some digests draw every character again. -/
theorem exists_surrogateFor_eq (hashes : Hashes)
    {entityType value fingerprint : Text}
    (hascii : ∀ c ∈ value, IsDrawn unicode c → isAscii c = true)
    (hlength : value.length ≤ blockBytes * 256 ^ counterBytes) :
    ∃ hashes' : Hashes,
      surrogateFor unicode hashes' entityType value fingerprint = value := by
  obtain ⟨wanted, hwanted⟩ : ∃ wanted : Bytes,
      List.Forall₂ (Redrawn unicode) value wanted := by
    clear hlength
    induction value with
    | nil => exact ⟨[], .nil⟩
    | cons c value ih =>
        obtain ⟨hc, hvalue⟩ := List.forall_mem_cons.mp hascii
        obtain ⟨noise, hnoise⟩ := exists_redrawn hc
        obtain ⟨wanted, hwanted⟩ := ih hvalue
        exact ⟨noise :: wanted, .cons hnoise hwanted⟩
  have hsame := hwanted.length_eq
  refine ⟨wantedHashes hashes
    (encodeUtf8 (fingerprint ++ ':' :: entityType)) wanted, ?_⟩
  rw [surrogateFor_eq_self_iff, hsame,
    exists_keystream hashes _ wanted (hsame ▸ hlength)]
  intro pair hpair
  exact (List.forall₂_iff_zip.mp hwanted).2 hpair

/-- A surrogate has its original's shape whatever is drawn. It is another
value whatever the digests are exactly when a letter or digit of the
original is outside ASCII. -/
theorem surrogate_differs_iff (unicode : Unicode)
    (entityType value fingerprint : Text) :
    (∀ hashes, (surrogateFor unicode hashes entityType value
        fingerprint).length = value.length ∧
      List.Forall₂ (SameShape unicode) value
        (surrogateFor unicode hashes entityType value fingerprint)) ∧
    ((∃ c ∈ value, IsDrawn unicode c ∧ isAscii c = false) →
      ∀ hashes, surrogateFor unicode hashes entityType value fingerprint ≠
        value) ∧
    (value.length ≤ blockBytes * 256 ^ counterBytes →
      ((∀ hashes, surrogateFor unicode hashes entityType value fingerprint ≠
          value) ↔
        ∃ c ∈ value, IsDrawn unicode c ∧ isAscii c = false)) := by
  have hsuffices : (∃ c ∈ value, IsDrawn unicode c ∧ isAscii c = false) →
      ∀ hashes, surrogateFor unicode hashes entityType value fingerprint ≠
        value := by
    rintro ⟨c, hc, hdrawn, hascii⟩ hashes
    exact surrogateFor_ne_of_not_ascii hc hdrawn hascii
  refine ⟨fun hashes => ⟨length_surrogateFor _ _ _ _ _,
    forall₂_zipWith sameShape_substituteChar
      (length_keystream hashes _ _).symm⟩, hsuffices,
    fun hlength => ⟨fun h => ?_, hsuffices⟩⟩
  by_contra hnone
  obtain ⟨hashes', hsame⟩ := @exists_surrogateFor_eq unicode
    (Hashes.ofTables [] []) entityType value fingerprint (by
      intro c hc hdrawn
      by_contra hascii
      exact hnone ⟨c, hc, hdrawn, Bool.not_eq_true _ ▸ hascii⟩) hlength
  exact h hashes' hsame

-- ==================================================== other digests

/-- The functions differ in BLAKE2b at most, which surrogates alone are
drawn from. -/
structure SameButBlake2b (hashes hashes' : Hashes) : Prop where
  hmac_eq : hashes'.hmacSha256 = hashes.hmacSha256
  sha_eq : hashes'.sha256 = hashes.sha256

theorem SameButBlake2b.refl (hashes : Hashes) :
    SameButBlake2b hashes hashes :=
  ⟨rfl, rfl⟩

/-- One byte over and over, whatever is digested. -/
def constantHashes (hashes : Hashes) (noise : UInt8) : Hashes :=
  { hashes with
    blake2b := fun _ => List.replicate 64 noise
    blake2b_length := fun _ => List.length_replicate }

theorem mem_keystream_constantHashes {noise byte : UInt8} {seed : Bytes}
    {length : Nat}
    (h : byte ∈ keystream (constantHashes hashes noise) seed length) :
    byte = noise := by
  obtain ⟨counter, -, hbyte⟩ := List.mem_flatMap.mp (List.mem_of_mem_take h)
  exact List.eq_of_mem_replicate hbyte

section Congruence

variable {hashes' : Hashes} {fingerprinter : Fingerprinter}
  {tenantId sessionId : UUID} {text : Text}

theorem identityOf_congr (h : SameButBlake2b hashes hashes')
    (entityType original : Text) :
    identityOf unicode hashes' fingerprinter tenantId sessionId entityType
        original =
      identityOf unicode hashes fingerprinter tenantId sessionId entityType
        original := by
  unfold identityOf Fingerprinter.fingerprint
  rw [h.hmac_eq]

theorem pendingOf_congr (h : SameButBlake2b hashes hashes')
    (items : List (Planned × Nat)) :
    pendingOf unicode hashes' fingerprinter tenantId sessionId text items =
      pendingOf unicode hashes fingerprinter tenantId sessionId text
        items := by
  induction items with
  | nil => rfl
  | cons item items ih =>
      unfold pendingOf pendingFor
      rw [identityOf_congr h, ih]

theorem mint_congr {σ : Type} (h : SameButBlake2b hashes hashes')
    (vault : VaultLike σ) (plan : List Planned) (ttlSeconds : Int) :
    mint unicode hashes' fingerprinter tenantId sessionId vault text plan
        ttlSeconds =
      mint unicode hashes fingerprinter tenantId sessionId vault text plan
        ttlSeconds := by
  unfold mint
  rw [pendingOf_congr h]

/-- Under other digests a transform returns just as well, and leaves the
vault alike. -/
theorem transform_congr {σ : Type} {vault : VaultLike σ}
    {entities : List DetectedEntity} {policy : PolicySnapshot} {w w' : σ}
    {out : TransformedText} (h : SameButBlake2b hashes hashes')
    (hrun : runIn (transform unicode hashes fingerprinter vault tenantId
      sessionId text entities policy) w = (.ok out, w')) :
    ∃ out', runIn (transform unicode hashes' fingerprinter vault tenantId
      sessionId text entities policy) w = (.ok out', w') := by
  obtain ⟨selected, minted, hplans, hmint, -⟩ := transform_ok hrun
  have hreturns := (transform_returns_iff_mint hplans).mp ⟨out, w', hrun⟩
  simp only [← mint_congr h] at hreturns
  obtain ⟨out', w'', hrun'⟩ :=
    (transform_returns_iff_mint hplans).mpr hreturns
  obtain ⟨selected', minted', hplans', hmint', -⟩ := transform_ok hrun'
  cases hplans.selects.symm.trans hplans'.selects
  rw [mint_congr h, hmint] at hmint'
  cases hmint'
  exact ⟨out', hrun'⟩

end Congruence

-- ==================================================== one account

def accountHmac : Text :=
  "fd2b1c3c917cf65707317e7aa9f7627131014a1d9df7852bd1b69ef49c0eaa7e".toList

/-- The digests of one account number: its fingerprint under a fixed key,
and the digest its surrogate is drawn from. -/
def accountHashes : Hashes :=
  { Hashes.ofTables
      [((List.replicate 32 7,
          [0, 0, 0, 16, 0, 0, 0, 0, 0, 0, 0, 0, 0, 0, 0, 0, 0, 0, 0, 2,
            0, 0, 0, 16, 0, 0, 0, 0, 0, 0, 0, 0, 0, 0, 0, 0, 0, 0, 0, 3,
            0, 0, 0, 14, 65, 67, 67, 79, 85, 78, 84, 95, 78, 85, 77, 66, 69,
            82, 0, 0, 0, 4, 57, 49, 48, 56]),
        [253, 43, 28, 60, 145, 124, 246, 87, 7, 49, 126, 122, 169, 247, 98,
          113, 49, 1, 74, 29, 157, 247, 133, 43, 209, 182, 158, 244, 156, 14,
          170, 126])] [] with
    blake2b := fun message => fitBytes 64
      (if message = encodeUtf8 (accountHmac ++ ":ACCOUNT_NUMBER".toList) ++
            [0, 0, 0, 0]
        then [89, 41, 90, 208, 52, 35, 79, 34, 57, 207, 246, 0, 66, 55, 80,
          242, 31, 87, 202, 34, 20, 131, 68, 83, 35, 53, 29, 170, 147, 248,
          66, 140, 29, 146, 195, 3, 90, 84, 222, 225, 165, 250, 6, 5, 189,
          31, 22, 247, 106, 1, 167, 193, 28, 236, 22, 216, 37, 114, 225, 66,
          3, 87, 218, 59]
        else [])
    blake2b_length := fun _ => length_fitBytes 64 _ }

/-- The surrogate of account 9108, under its fingerprint in its session, is
9108. -/
theorem surrogate_repeats_account :
    identityOf Unicode.ascii accountHashes sampleFingerprinter ⟨2⟩ ⟨3⟩
        "ACCOUNT_NUMBER".toList "9108".toList = .ok accountHmac ∧
      ¬ ∀ (unicode : Unicode) (hashes : Hashes)
        (entityType value fingerprint : Text),
        (∃ c ∈ value, unicode.isDigit c = true ∨ unicode.isAlpha c = true) →
        (surrogateFor unicode hashes entityType value fingerprint).length =
            value.length ∧
          List.Forall₂ (SameShape unicode) value
            (surrogateFor unicode hashes entityType value fingerprint) ∧
          surrogateFor unicode hashes entityType value fingerprint ≠
            value := by
  refine ⟨by decide +kernel, fun hclaim => ?_⟩
  obtain ⟨-, -, hdiffers⟩ := hclaim Unicode.ascii accountHashes
    "ACCOUNT_NUMBER".toList "9108".toList accountHmac
      ⟨'9', List.mem_cons_self, Or.inl rfl⟩
  revert hdiffers
  decide +kernel

end PrivacyGateway.Tokenization
