/-
Opening what was sealed.

`openStream_eq` is about any stream of bytes: once the header is parsed,
how the bytes were divided into blocks does not show; only the buffer the
header is parsed from depends on it. `parse_toBytes` and `parse_short` are
about that buffer. A header that is there in full is read back, and one of
which a byte is missing is refused, also where the missing bytes would
have arrived with the next block.

So a sealed document opens to its plaintext exactly when the header arrived
whole (`openStream_sealStream_iff`).
-/
import PrivacyGateway.Documents.Crypto

namespace PrivacyGateway.Documents

open Effect Splice

-- ==================================================== rechunking

/-- A chunk stream and its pieces are the same bytes. -/
theorem rechunk_flatten {size : Nat} (hsize : 0 < size)
    (source : List Bytes) :
    (rechunk source size).flatten = source.flatten := by
  have hcut := Cut.cutAll_start hsize (Nat.le_refl size) source
  have hspec := (Cut.cut_spec hsize (Nat.le_refl size) _ _
    (Nat.le_refl (source.flatten).length)).2.1
  unfold rechunk
  rw [hcut]
  simp only
  by_cases hrest : (Cut.cut size size source.flatten).2 = []
  · rw [if_pos hrest]
    rw [hrest, List.append_nil] at hspec
    exact hspec
  · rw [if_neg hrest, List.flatten_append, List.flatten_singleton]
    exact hspec

/-- Every piece but the last has the size, and the last has no more. -/
theorem rechunk_sizes {size : Nat} (hsize : 0 < size)
    (source : List Bytes) :
    ∃ full last, (rechunk source size = full ++ [last] ∨
        rechunk source size = [] ∧ full = [] ∧ last = []) ∧
      (∀ chunk ∈ full, chunk.length = size) ∧ last.length ≤ size := by
  have hcut := Cut.cutAll_start hsize (Nat.le_refl size) source
  obtain ⟨hpieces, -, hshort⟩ := Cut.cut_spec hsize (Nat.le_refl size) _ _
    (Nat.le_refl (source.flatten).length)
  unfold rechunk
  rw [hcut]
  simp only
  by_cases hrest : (Cut.cut size size source.flatten).2 = []
  · rw [if_pos hrest]
    rcases List.eq_nil_or_concat
        (Cut.cut size size source.flatten).1 with
      hnone | ⟨full, last, hlast⟩
    · rw [hnone]
      exact ⟨[], [], Or.inr ⟨rfl, rfl, rfl⟩, by simp, Nat.zero_le _⟩
    · rw [hlast] at hpieces ⊢
      rw [List.concat_eq_append] at hpieces ⊢
      obtain ⟨hfull, hone⟩ := List.forall_mem_append.mp hpieces
      exact ⟨full, last, Or.inl rfl, hfull,
        Nat.le_of_eq (hone last (List.mem_singleton.mpr rfl))⟩
  · rw [if_neg hrest]
    exact ⟨_, _, Or.inl rfl, hpieces, Nat.le_of_lt hshort⟩

-- ==================================================== the header

namespace DocumentHeader

/-- The bytes of a header: a prefix of six, then its three parts. -/
def layout (version : UInt8) (keyId salt : Bytes) (chunkBytes : Nat) :
    Bytes :=
  [83, 71, 87, 68, version, UInt8.ofNat keyId.length] ++
    (keyId ++ (salt ++ Frame.bigEndian headerSuffixSize chunkBytes))

theorem toBytes_ok {header : DocumentHeader} {raw : Bytes}
    (h : header.toBytes = .ok raw) :
    0 < (encodeUtf8 header.keyId).length ∧
      (encodeUtf8 header.keyId).length ≤ maxKeyIdBytes ∧
      raw = layout header.version (encodeUtf8 header.keyId) header.salt
        header.chunkBytes := by
  unfold toBytes at h
  by_cases hkey : 0 < (encodeUtf8 header.keyId).length ∧
      (encodeUtf8 header.keyId).length ≤ maxKeyIdBytes
  · rw [if_neg (not_not.mpr hkey)] at h
    by_cases hchunk : header.chunkBytes ≥ 256 ^ headerSuffixSize
    · rw [if_pos hchunk] at h
      cases h
    · rw [if_neg hchunk] at h
      cases h
      refine ⟨hkey.1, hkey.2, ?_⟩
      unfold layout
      rw [show documentMagic = [83, 71, 87, 68] by decide +kernel]
      simp only [List.append_assoc, List.cons_append, List.nil_append]
  · rw [if_pos hkey] at h
    cases h

theorem length_layout (version : UInt8) (keyId salt : Bytes)
    (chunkBytes : Nat) :
    (layout version keyId salt chunkBytes).length =
      headerPrefixSize + keyId.length + salt.length +
        headerSuffixSize := by
  unfold layout headerPrefixSize
  simp only [List.length_append, List.length_cons, List.length_nil,
    Frame.length_bigEndian]
  omega

theorem unpack_bigEndian {width n : Nat} (h : n < 256 ^ width) :
    unpack (Frame.bigEndian width n) = n := by
  unfold unpack Frame.bigEndian
  have hback : ((Radix.digits 256 width n).map UInt8.ofNat).map
      UInt8.toNat = Radix.digits 256 width n := by
    rw [List.map_map]
    conv_rhs => rw [← List.map_id (Radix.digits 256 width n)]
    apply List.map_congr_left
    intro d hd
    exact UInt8.toNat_ofNat_of_lt'
      (Radix.lt_of_mem_digits (b := 256) (by decide) hd)
  rw [hback, Radix.value_digits, Nat.mod_eq_of_lt h]

section Parse

variable {header : DocumentHeader} {raw : Bytes}

/-- A header that is there in full is read back, whatever follows it. -/
theorem parse_toBytes (h : header.toBytes = .ok raw)
    (hversion : header.version = documentFormatVersion)
    (hsalt : header.salt.length = saltBytes)
    (hchunk : 0 < header.chunkBytes ∧ header.chunkBytes ≤ maxChunkBytes)
    (rest : Bytes) :
    parse (raw ++ rest) = .ok (header, raw.length) := by
  obtain ⟨hpos, hmax, rfl⟩ := toBytes_ok h
  cases header with
  | mk version keyId salt chunkBytes =>
      simp only at hversion hsalt hchunk hpos hmax ⊢
      have hlen : (UInt8.ofNat (encodeUtf8 keyId).length).toNat =
          (encodeUtf8 keyId).length := by
        apply UInt8.toNat_ofNat_of_lt'
        show (encodeUtf8 keyId).length < 256
        unfold maxKeyIdBytes at hmax
        omega
      have htotal : (layout version (encodeUtf8 keyId) salt
          chunkBytes).length = headerPrefixSize +
            (encodeUtf8 keyId).length + saltBytes + headerSuffixSize := by
        rw [length_layout, hsalt]
      have hlayout : layout version (encodeUtf8 keyId) salt chunkBytes ++
          rest = [83, 71, 87, 68, version,
            UInt8.ofNat (encodeUtf8 keyId).length] ++
          (encodeUtf8 keyId ++ (salt ++ (Frame.bigEndian headerSuffixSize
            chunkBytes ++ rest))) := by
        unfold layout
        simp only [List.append_assoc]
      have hsix : headerPrefixSize =
          ([83, 71, 87, 68, version,
            UInt8.ofNat (encodeUtf8 keyId).length] : Bytes).length := rfl
      have hid : slice (layout version (encodeUtf8 keyId) salt chunkBytes ++
          rest) headerPrefixSize (headerPrefixSize +
            (encodeUtf8 keyId).length) = encodeUtf8 keyId := by
        rw [hlayout, hsix, slice_append_left, List.take_left' rfl]
      have hdropId : (layout version (encodeUtf8 keyId) salt chunkBytes ++
          rest).drop (headerPrefixSize + (encodeUtf8 keyId).length) =
          salt ++ (Frame.bigEndian headerSuffixSize chunkBytes ++ rest) := by
        rw [hlayout, ← List.drop_drop, hsix, List.drop_left' rfl,
          List.drop_left' rfl]
      have hsalts : slice (layout version (encodeUtf8 keyId) salt
            chunkBytes ++ rest)
          (headerPrefixSize + (encodeUtf8 keyId).length)
          (headerPrefixSize + (encodeUtf8 keyId).length + saltBytes) =
          salt := by
        unfold slice
        rw [List.drop_take, hdropId, Nat.add_sub_cancel_left,
          List.take_left' hsalt]
      have hsize : slice (layout version (encodeUtf8 keyId) salt
            chunkBytes ++ rest)
          (headerPrefixSize + (encodeUtf8 keyId).length + saltBytes)
          (headerPrefixSize + (encodeUtf8 keyId).length + saltBytes +
            headerSuffixSize) =
          Frame.bigEndian headerSuffixSize chunkBytes := by
        unfold slice
        rw [List.drop_take, ← List.drop_drop, hdropId,
          List.drop_left' hsalt, Nat.add_sub_cancel_left,
          List.take_left' (Frame.length_bigEndian _ _)]
      have hbytes : unpack (Frame.bigEndian headerSuffixSize chunkBytes) =
          chunkBytes := by
        apply unpack_bigEndian
        show chunkBytes < 4294967296
        have := hchunk.2
        unfold maxChunkBytes at this
        omega
      have hnum : (layout version (encodeUtf8 keyId) salt chunkBytes ++
          rest).getD 5 0 = UInt8.ofNat (encodeUtf8 keyId).length := rfl
      unfold parse
      rw [if_neg (by
        rw [List.length_append, htotal]
        omega)]
      simp only
      rw [if_neg (by
        rw [not_not]
        exact (show documentMagic = [83, 71, 87, 68] by
          decide +kernel).symm)]
      rw [if_neg (by
        rw [not_not]
        exact hversion)]
      rw [hnum, hlen, if_neg (by omega), if_neg (by
        rw [List.length_append, htotal]
        omega), hid, decodeUtf8_encodeUtf8]
      simp only
      rw [hsize, hbytes, if_neg (not_not.mpr hchunk), hsalts, htotal]
      rfl

/-- A header of which a byte is missing is refused. -/
theorem parse_short (h : header.toBytes = .ok raw)
    (hversion : header.version = documentFormatVersion)
    (hsalt : header.salt.length = saltBytes) {k : Nat}
    (hsix : headerPrefixSize ≤ k) (hshort : k < raw.length) :
    parse (raw.take k) =
      .error (documentEncryptionError "header_truncated") := by
  obtain ⟨hpos, hmax, rfl⟩ := toBytes_ok h
  have hlen : (UInt8.ofNat (encodeUtf8 header.keyId).length).toNat =
      (encodeUtf8 header.keyId).length := by
    apply UInt8.toNat_ofNat_of_lt'
    show (encodeUtf8 header.keyId).length < 256
    unfold maxKeyIdBytes at hmax
    omega
  have htotal := length_layout header.version (encodeUtf8 header.keyId)
    header.salt header.chunkBytes
  have htaken : ((layout header.version (encodeUtf8 header.keyId)
      header.salt header.chunkBytes).take k).length = k := by
    rw [List.length_take]
    omega
  unfold headerPrefixSize at hsix
  obtain ⟨j, rfl⟩ : ∃ j, k = j + 6 := ⟨k - 6, by omega⟩
  have hbytes : (layout header.version (encodeUtf8 header.keyId)
      header.salt header.chunkBytes).take (j + 6) =
      [83, 71, 87, 68, header.version,
        UInt8.ofNat (encodeUtf8 header.keyId).length] ++
      (encodeUtf8 header.keyId ++ (header.salt ++ Frame.bigEndian
        headerSuffixSize header.chunkBytes)).take j := by
    unfold layout
    rfl
  unfold parse
  rw [htaken, if_neg (by unfold headerPrefixSize; omega)]
  simp only
  rw [hbytes, if_neg (by
    rw [not_not]
    exact (show documentMagic = [83, 71, 87, 68] by decide +kernel).symm)]
  rw [if_neg (by
    rw [not_not]
    exact hversion)]
  rw [show ([83, 71, 87, 68, header.version,
      UInt8.ofNat (encodeUtf8 header.keyId).length] ++
    (encodeUtf8 header.keyId ++ (header.salt ++ Frame.bigEndian
      headerSuffixSize header.chunkBytes)).take j).getD 5 0 =
    UInt8.ofNat (encodeUtf8 header.keyId).length from rfl,
    hlen, if_neg (by omega), if_pos (by omega)]

end Parse

end DocumentHeader

-- ==================================================== the reader

/-- The buffer when it first holds `size` bytes, as the blocks arrive. -/
def firstReaching (size : Nat) : Bytes → List Bytes → Bytes
  | buffer, [] => buffer
  | buffer, block :: blocks =>
      if (buffer ++ block).length < size then
        firstReaching size (buffer ++ block) blocks
      else buffer ++ block

theorem firstReaching_prefix (size : Nat) (blocks : List Bytes) :
    ∀ buffer, ∃ rest, firstReaching size buffer blocks ++ rest =
      buffer ++ blocks.flatten := by
  induction blocks with
  | nil =>
      intro buffer
      exact ⟨[], by simp [firstReaching]⟩
  | cons block blocks ih =>
      intro buffer
      unfold firstReaching
      by_cases hshort : (buffer ++ block).length < size
      · rw [if_pos hshort]
        obtain ⟨rest, hrest⟩ := ih (buffer ++ block)
        exact ⟨rest, by rw [hrest, List.flatten_cons, List.append_assoc]⟩
      · rw [if_neg hshort]
        exact ⟨blocks.flatten, by rw [List.flatten_cons, List.append_assoc]⟩

theorem le_length_firstReaching (size : Nat) (blocks : List Bytes) :
    ∀ buffer, size ≤ (buffer ++ blocks.flatten).length →
      size ≤ (firstReaching size buffer blocks).length := by
  induction blocks with
  | nil =>
      intro buffer h
      simpa [firstReaching] using h
  | cons block blocks ih =>
      intro buffer h
      unfold firstReaching
      by_cases hshort : (buffer ++ block).length < size
      · rw [if_pos hshort]
        apply ih (buffer ++ block)
        rwa [List.append_assoc, ← List.flatten_cons]
      · rw [if_neg hshort]
        exact Nat.not_lt.mp hshort

namespace DocumentCipher

variable {cipher : DocumentCipher} {identity : DocumentIdentity}

theorem openFrames_append (dataKey : Bytes) (frames others : List Bytes) :
    ∀ index, cipher.openFrames identity dataKey index (frames ++ others) =
      (do
        cipher.openFrames identity dataKey index frames
        cipher.openFrames identity dataKey (index + frames.length)
          others) := by
  induction frames with
  | nil =>
      intro index
      simp [openFrames]
  | cons frame frames ih =>
      intro index
      simp only [List.cons_append, openFrames, List.length_cons, ih,
        bind_assoc]
      rw [Nat.add_assoc, Nat.add_comm 1]

/-- Blocks that arrive after the header are read as one buffer. -/
theorem openBuffered_blocks {dataKey : Bytes} {frameSize : Nat}
    (hsize : 0 < frameSize) (blocks : List Bytes) :
    ∀ index buffer,
      (cipher.openBuffered identity dataKey frameSize index buffer >>=
        fun state => cipher.openBlocks identity state blocks) =
      cipher.openBuffered identity dataKey frameSize index
        (buffer ++ blocks.flatten) := by
  induction blocks with
  | nil =>
      intro index buffer
      simp [openBlocks]
  | cons block blocks ih =>
      intro index buffer
      have hcut := Cut.cut_append hsize (Nat.le_succ frameSize) _ _
        (Nat.le_refl buffer.length) (block ++ blocks.flatten)
      have hinner := ih
        (index + (Cut.cut frameSize (frameSize + 1) buffer).1.length)
        ((Cut.cut frameSize (frameSize + 1) buffer).2 ++ block)
      unfold openBuffered
      simp only [openBlocks, openBlock, bind_assoc, pure_bind,
        List.flatten_cons]
      rw [hcut, openFrames_append]
      simp only [bind_assoc, List.length_append, ← Nat.add_assoc]
      rw [hinner]
      unfold openBuffered
      simp only [List.append_assoc]

theorem openBlocks_short (blocks : List Bytes) :
    ∀ buffer, (buffer ++ blocks.flatten).length <
        DocumentHeader.minimumSize →
      cipher.openBlocks identity { buffer := buffer } blocks =
        pure { buffer := buffer ++ blocks.flatten } := by
  induction blocks with
  | nil =>
      intro buffer _
      simp [openBlocks]
  | cons block blocks ih =>
      intro buffer hshort
      rw [List.flatten_cons, ← List.append_assoc] at hshort ⊢
      have hblock : (buffer ++ block).length <
          DocumentHeader.minimumSize := by
        rw [List.length_append] at hshort
        omega
      simp only [openBlocks, openBlock]
      rw [if_pos hblock, pure_bind]
      exact ih (buffer ++ block) hshort

theorem parse_ok {raw : Bytes} {header : DocumentHeader}
    {consumed : Nat}
    (h : DocumentHeader.parse raw = .ok (header, consumed)) :
    consumed ≤ raw.length := by
  unfold DocumentHeader.parse at h
  split at h
  · cases h
  · simp only at h
    split at h
    · cases h
    · split at h
      · cases h
      · split at h
        · cases h
        · split at h
          · cases h
          · rename_i hlong
            split at h
            · cases h
            · split at h
              · cases h
              · cases h
                exact Nat.not_lt.mp hlong

/-- The size of a full frame under a header. -/
def frameSize (header : DocumentHeader) : Nat :=
  nonceBytes + header.chunkBytes + gcmTagBytes

theorem frameSize_pos (header : DocumentHeader) : 0 < frameSize header := by
  unfold frameSize nonceBytes
  omega

/-- Blocks are read as one buffer, but for the header: it is parsed from
what has arrived when that is long enough for the shortest header. -/
theorem openBlocks_header (blocks : List Bytes) :
    ∀ buffer, DocumentHeader.minimumSize ≤
        (buffer ++ blocks.flatten).length →
      buffer.length < DocumentHeader.minimumSize →
      cipher.openBlocks identity { buffer := buffer } blocks = (do
        let parsed ← checked (DocumentHeader.parse
          (firstReaching DocumentHeader.minimumSize buffer blocks))
        let dataKey ← checked (cipher.derive parsed.1.keyId parsed.1.salt
          identity)
        cipher.openBuffered identity dataKey (frameSize parsed.1) 0
          ((buffer ++ blocks.flatten).drop parsed.2)) := by
  induction blocks with
  | nil =>
      intro buffer hlong hbuffer
      rw [List.flatten_nil, List.append_nil] at hlong
      omega
  | cons block blocks ih =>
      intro buffer hlong hbuffer
      rw [List.flatten_cons, ← List.append_assoc] at hlong ⊢
      unfold firstReaching
      simp only [openBlocks, openBlock]
      by_cases hblock : (buffer ++ block).length <
          DocumentHeader.minimumSize
      · rw [if_pos hblock, if_pos hblock, pure_bind]
        exact ih (buffer ++ block) hlong hblock
      · rw [if_neg hblock, if_neg hblock]
        cases hparse : DocumentHeader.parse (buffer ++ block) with
        | error e => rfl
        | ok parsed =>
            cases parsed with
            | mk header consumed =>
                have hconsumed := parse_ok hparse
                rw [checked_ok, pure_bind, pure_bind,
                  List.drop_append_of_le_length hconsumed, bind_assoc]
                have hread : ∀ dataKey,
                    (cipher.openBuffered identity dataKey
                      (frameSize header) 0 ((buffer ++ block).drop consumed)
                        >>= fun state => cipher.openBlocks identity state
                          blocks) =
                    cipher.openBuffered identity dataKey (frameSize header)
                      0 ((buffer ++ block).drop consumed ++
                        blocks.flatten) :=
                  fun dataKey => openBuffered_blocks (frameSize_pos header)
                    blocks 0 _
                simp only [← hread]
                rfl

variable (cipher identity) in
/-- Open a whole body: its full frames, and the last one. -/
def openBody (dataKey : Bytes) (frameSize : Nat) (body : Bytes) :
    Eff (List Bytes) Exn Unit := do
  let cut := Cut.cut frameSize (frameSize + 1) body
  cipher.openFrames identity dataKey 0 cut.1
  cipher.emitOpened identity dataKey cut.1.length cut.2 true

/-- What the reader makes of a stream, however it is divided: the header is
parsed from the first buffer that is long enough for one, and the body is
what comes after it in the whole stream. -/
theorem openStream_eq (blocks : List Bytes)
    (hlong : DocumentHeader.minimumSize ≤ blocks.flatten.length) :
    cipher.openStream identity blocks = (do
      let parsed ← checked (DocumentHeader.parse
        (firstReaching DocumentHeader.minimumSize [] blocks))
      let dataKey ← checked (cipher.derive parsed.1.keyId parsed.1.salt
        identity)
      cipher.openBody identity dataKey (frameSize parsed.1)
        (blocks.flatten.drop parsed.2)) := by
  unfold openStream
  rw [openBlocks_header blocks [] hlong (by decide)]
  unfold openBuffered openBody
  simp only [bind_assoc, pure_bind, List.nil_append, Nat.zero_add]

theorem openStream_short (blocks : List Bytes)
    (hshort : blocks.flatten.length < DocumentHeader.minimumSize) :
    cipher.openStream identity blocks =
      throw (documentEncryptionError "header_truncated") := by
  unfold openStream
  rw [openBlocks_short blocks [] hshort]
  rfl

-- ==================================================== sealed frames

/-- The frames are the chunks, sealed in order from an index on, the last
one as the last. -/
inductive SealedAs (cipher : DocumentCipher) (identity : DocumentIdentity)
    (draws : Draws) (dataKey : Bytes) :
    Nat → List Bytes → List Bytes → Prop
  | final (index : Nat) (chunk aad : Bytes)
      (haad : identity.aad purposeBody index true = .ok aad) :
      SealedAs cipher identity draws dataKey index [chunk]
        [cipher.sealChunk dataKey (draws.nonce index) chunk aad]
  | next (index : Nat) (chunk aad : Bytes) (chunks frames : List Bytes)
      (haad : identity.aad purposeBody index false = .ok aad)
      (rest : SealedAs cipher identity draws dataKey (index + 1) chunks
        frames) :
      SealedAs cipher identity draws dataKey index (chunk :: chunks)
        (cipher.sealChunk dataKey (draws.nonce index) chunk aad :: frames)

variable {draws : Draws} {dataKey : Bytes}

theorem emitSealed_ok {index : Nat} {chunk : Bytes} {final : Bool}
    {yielded yielded' : List Bytes}
    (h : runIn (cipher.emitSealed identity draws dataKey index chunk final)
      yielded = (.ok (), yielded')) :
    ∃ aad, identity.aad purposeBody index final = .ok aad ∧
      yielded' = yielded ++
        [cipher.sealChunk dataKey (draws.nonce index) chunk aad] := by
  unfold emitSealed at h
  obtain ⟨aad, haad, h⟩ := checked_bind_ok_iff.mp h
  cases h
  exact ⟨aad, haad, rfl⟩

theorem sealRest_ok (blocks : List Bytes) :
    ∀ {index : Nat} {pending : Bytes} {yielded yielded' : List Bytes},
      runIn (cipher.sealRest identity draws dataKey index pending blocks)
        yielded = (.ok (), yielded') →
      ∃ frames, yielded' = yielded ++ frames ∧
        SealedAs cipher identity draws dataKey index (pending :: blocks)
          frames := by
  induction blocks with
  | nil =>
      intro index pending yielded yielded' h
      obtain ⟨aad, haad, rfl⟩ := emitSealed_ok h
      exact ⟨_, rfl, .final index pending aad haad⟩
  | cons block blocks ih =>
      intro index pending yielded yielded' h
      obtain ⟨_, middle, hfirst, h⟩ := bind_ok_iff.mp h
      obtain ⟨aad, haad, rfl⟩ := emitSealed_ok hfirst
      obtain ⟨frames, rfl, hsealed⟩ := ih h
      exact ⟨_, List.append_assoc _ _ _,
        .next index pending aad _ frames haad hsealed⟩

/-- The chunks of a body: an empty document has one. -/
def bodyChunks (plaintext : List Bytes) (size : Nat) : List Bytes :=
  match rechunk plaintext size with
  | [] => [[]]
  | chunks => chunks

theorem bodyChunks_flatten {size : Nat} (hsize : 0 < size)
    (plaintext : List Bytes) :
    (bodyChunks plaintext size).flatten = plaintext.flatten := by
  have hflatten := rechunk_flatten hsize plaintext
  unfold bodyChunks
  split
  · rename_i hnone
    rw [hnone] at hflatten
    exact hflatten
  · exact hflatten

theorem bodyChunks_sizes {size : Nat} (hsize : 0 < size)
    (plaintext : List Bytes) :
    ∃ full last, bodyChunks plaintext size = full ++ [last] ∧
      (∀ chunk ∈ full, chunk.length = size) ∧ last.length ≤ size := by
  obtain ⟨full, last, hcut, hfull, hlast⟩ := rechunk_sizes hsize plaintext
  refine ⟨full, last, ?_, hfull, hlast⟩
  unfold bodyChunks
  rcases hcut with hcut | ⟨hcut, rfl, rfl⟩
  · rw [hcut]
    cases full <;> rfl
  · rw [hcut]
    rfl

/-- A sealed stream is its header and its sealed chunks. -/
theorem sealStream_ok {plaintext sealed : List Bytes}
    (h : runIn (cipher.sealStream identity draws plaintext) [] =
      (.ok (), sealed)) :
    ∃ dataKey header frames,
      cipher.derive cipher.activeKeyId draws.salt identity = .ok dataKey ∧
      DocumentHeader.toBytes ⟨documentFormatVersion, cipher.activeKeyId,
        draws.salt, cipher.chunkBytes⟩ = .ok header ∧
      sealed = header :: frames ∧
      SealedAs cipher identity draws dataKey 0
        (bodyChunks plaintext cipher.chunkBytes) frames := by
  unfold sealStream at h
  obtain ⟨dataKey, hderive, h⟩ := checked_bind_ok_iff.mp h
  obtain ⟨header, hheader, h⟩ := checked_bind_ok_iff.mp h
  obtain ⟨_, middle, hemit, h⟩ := bind_ok_iff.mp h
  cases hemit
  unfold bodyChunks
  cases hchunks : rechunk plaintext cipher.chunkBytes with
  | nil =>
      rw [hchunks] at h
      obtain ⟨frames, rfl, hsealed⟩ := sealRest_ok [] h
      exact ⟨dataKey, header, frames, hderive, hheader, rfl, hsealed⟩
  | cons block blocks =>
      rw [hchunks] at h
      obtain ⟨frames, rfl, hsealed⟩ := sealRest_ok blocks h
      exact ⟨dataKey, header, frames, hderive, hheader, rfl, hsealed⟩

theorem length_sealChunk (index : Nat) (chunk aad : Bytes) :
    (cipher.sealChunk dataKey (draws.nonce index) chunk aad).length =
      nonceBytes + chunk.length + gcmTagBytes := by
  unfold sealChunk
  rw [List.length_append, draws.nonce_length, cipher.aead.length_encrypt]
  omega

/-- A frame opens under the data it was sealed with. -/
theorem openChunk_sealChunk (index : Nat) (chunk aad : Bytes) :
    cipher.openChunk dataKey
      (cipher.sealChunk dataKey (draws.nonce index) chunk aad) aad =
        .ok chunk := by
  unfold openChunk
  rw [length_sealChunk, if_neg (by omega)]
  unfold sealChunk
  rw [List.take_left' (draws.nonce_length index),
    List.drop_left' (draws.nonce_length index),
    cipher.aead.decrypt_encrypt]

theorem emitOpened_sealed {index : Nat} {chunk aad : Bytes} {final : Bool}
    (haad : identity.aad purposeBody index final = .ok aad)
    (yielded : List Bytes) :
    runIn (cipher.emitOpened identity dataKey index
      (cipher.sealChunk dataKey (draws.nonce index) chunk aad) final)
        yielded = (.ok (), yielded ++ [chunk]) := by
  unfold emitOpened
  rw [haad, checked_bind_ok, openChunk_sealChunk, checked_bind_ok]
  rfl

/-- Sealed frames open, in their order, to their chunks. -/
theorem SealedAs.opens {index : Nat} {chunks frames : List Bytes}
    (h : SealedAs cipher identity draws dataKey index chunks frames) :
    ∃ full last, frames = full ++ [last] ∧
      (∀ yielded, runIn (do
          cipher.openFrames identity dataKey index full
          cipher.emitOpened identity dataKey (index + full.length) last
            true) yielded = (.ok (), yielded ++ chunks)) := by
  induction h with
  | final index chunk aad haad =>
      exact ⟨[], _, rfl, fun yielded => emitOpened_sealed haad yielded⟩
  | next index chunk aad chunks frames haad rest ih =>
      obtain ⟨full, last, rfl, hopens⟩ := ih
      refine ⟨cipher.sealChunk dataKey (draws.nonce index) chunk aad ::
        full, last, rfl, ?_⟩
      intro yielded
      have hrest := hopens (yielded ++ [chunk])
      simp only [openFrames, bind_assoc]
      rw [runIn_bind, emitOpened_sealed haad]
      simp only [List.length_cons]
      rw [Nat.add_assoc, Nat.add_comm 1] at hrest
      rw [hrest, List.append_assoc]
      rfl

theorem SealedAs.lengths {index : Nat} {chunks frames : List Bytes}
    (h : SealedAs cipher identity draws dataKey index chunks frames) :
    frames.map List.length = chunks.map (fun chunk =>
      nonceBytes + chunk.length + gcmTagBytes) := by
  induction h with
  | final index chunk aad haad =>
      simp only [List.map_singleton, length_sealChunk]
  | next index chunk aad chunks frames haad rest ih =>
      simp only [List.map_cons, length_sealChunk, ih]

/-- A body of sealed frames opens to its chunks. -/
theorem openBody_sealed {size : Nat} {chunks frames full : List Bytes}
    {last : Bytes}
    (h : SealedAs cipher identity draws dataKey 0 chunks frames)
    (hchunks : chunks = full ++ [last])
    (hfull : ∀ chunk ∈ full, chunk.length = size)
    (hlast : last.length ≤ size) (yielded : List Bytes) :
    runIn (cipher.openBody identity dataKey
      (nonceBytes + size + gcmTagBytes) frames.flatten) yielded =
        (.ok (), yielded ++ chunks) := by
  obtain ⟨frameFull, frameLast, rfl, hopens⟩ := h.opens
  have hlengths := h.lengths
  rw [hchunks, List.map_append, List.map_append] at hlengths
  obtain ⟨hfulls, hlasts⟩ := List.append_inj' hlengths rfl
  have hpieces : ∀ piece ∈ frameFull,
      piece.length = nonceBytes + size + gcmTagBytes := by
    intro piece hpiece
    have hmem : piece.length ∈ frameFull.map List.length :=
      List.mem_map.mpr ⟨piece, hpiece, rfl⟩
    rw [hfulls] at hmem
    obtain ⟨chunk, hchunk, hlength⟩ := List.mem_map.mp hmem
    rw [← hlength, hfull chunk hchunk]
  have hrest : frameLast.length =
      nonceBytes + last.length + gcmTagBytes :=
    (List.cons.inj hlasts).1
  unfold openBody
  rw [List.flatten_append, List.flatten_singleton,
    Cut.cut_pieces (by unfold nonceBytes; omega) (Nat.le_succ _)
      (by omega) (by unfold nonceBytes at hrest ⊢; omega) frameFull hpieces]
  have hrun := hopens yielded
  rw [Nat.zero_add] at hrun
  exact hrun

/-- When a buffer first holds enough for the shortest header, it holds the
whole header under this key id. -/
def HeaderArrivesWhole (keyId : Text) (blocks : List Bytes) : Prop :=
  headerPrefixSize + (encodeUtf8 keyId).length + saltBytes +
      headerSuffixSize ≤
    (firstReaching DocumentHeader.minimumSize [] blocks).length

section RoundTrip

variable {plaintext sealed blocks : List Bytes}

/-- The parts of a sealed stream, as a reader of it meets them. -/
theorem sealStream_parts
    (hsealed : runIn (cipher.sealStream identity draws plaintext) [] =
      (.ok (), sealed))
    (hblocks : blocks.flatten = sealed.flatten) :
    ∃ dataKey header frames,
      cipher.derive cipher.activeKeyId draws.salt identity = .ok dataKey ∧
      DocumentHeader.toBytes ⟨documentFormatVersion, cipher.activeKeyId,
        draws.salt, cipher.chunkBytes⟩ = .ok header ∧
      SealedAs cipher identity draws dataKey 0
        (bodyChunks plaintext cipher.chunkBytes) frames ∧
      blocks.flatten = header ++ frames.flatten ∧
      header.length = headerPrefixSize +
        (encodeUtf8 cipher.activeKeyId).length + saltBytes +
          headerSuffixSize ∧
      DocumentHeader.minimumSize ≤ header.length := by
  obtain ⟨dataKey, header, frames, hderive, hheader, rfl, hframes⟩ :=
    sealStream_ok hsealed
  obtain ⟨hpos, -, hlayout⟩ := DocumentHeader.toBytes_ok hheader
  have hlength : header.length = headerPrefixSize +
      (encodeUtf8 cipher.activeKeyId).length + saltBytes +
        headerSuffixSize := by
    rw [hlayout, DocumentHeader.length_layout, draws.salt_length]
  refine ⟨dataKey, header, frames, hderive, hheader, hframes, hblocks,
    hlength, ?_⟩
  rw [hlength]
  unfold DocumentHeader.minimumSize
  simp only at hpos
  omega

/-- A header that arrives whole is followed by the body that was
sealed. -/
theorem openStream_of_whole
    (hsealed : runIn (cipher.sealStream identity draws plaintext) [] =
      (.ok (), sealed))
    (hblocks : blocks.flatten = sealed.flatten)
    (hwhole : HeaderArrivesWhole cipher.activeKeyId blocks) :
    runIn (cipher.openStream identity blocks) [] =
      (.ok (), bodyChunks plaintext cipher.chunkBytes) := by
  obtain ⟨dataKey, header, frames, hderive, hheader, hframes, hbytes,
    hlength, hminimum⟩ := sealStream_parts hsealed hblocks
  obtain ⟨full, last, hchunks, hfull, hlast⟩ := bodyChunks_sizes
    cipher.chunkBytes_bounded.1 plaintext
  obtain ⟨rest, hrest⟩ := firstReaching_prefix
    DocumentHeader.minimumSize blocks []
  rw [List.nil_append, hbytes] at hrest
  unfold HeaderArrivesWhole at hwhole
  rw [← hlength] at hwhole
  -- the buffer is the header and some of what follows it
  have hbuffer : firstReaching DocumentHeader.minimumSize [] blocks =
      header ++ (firstReaching DocumentHeader.minimumSize []
        blocks).drop header.length := by
    have htake := congrArg (List.take header.length) hrest
    rw [List.take_append_of_le_length hwhole, List.take_left' rfl] at htake
    conv_lhs => rw [← List.take_append_drop header.length
      (firstReaching DocumentHeader.minimumSize [] blocks)]
    rw [htake]
  rw [openStream_eq blocks (by
    rw [hbytes, List.length_append]
    omega), hbuffer, DocumentHeader.parse_toBytes hheader rfl
      draws.salt_length cipher.chunkBytes_bounded, checked_bind_ok]
  simp only
  rw [hderive, checked_bind_ok, hbytes, List.drop_left' rfl]
  exact openBody_sealed hframes hchunks hfull hlast []

/-- A header of which a part is still to come is refused. -/
theorem openStream_of_parted
    (hsealed : runIn (cipher.sealStream identity draws plaintext) [] =
      (.ok (), sealed))
    (hblocks : blocks.flatten = sealed.flatten)
    (hparted : ¬ HeaderArrivesWhole cipher.activeKeyId blocks) :
    runIn (cipher.openStream identity blocks) [] =
      (.error (documentEncryptionError "header_truncated"), []) := by
  obtain ⟨dataKey, header, frames, -, hheader, -, hbytes, hlength,
    hminimum⟩ := sealStream_parts hsealed hblocks
  obtain ⟨rest, hrest⟩ := firstReaching_prefix
    DocumentHeader.minimumSize blocks []
  rw [List.nil_append, hbytes] at hrest
  unfold HeaderArrivesWhole at hparted
  rw [← hlength, Nat.not_le] at hparted
  have hlong : DocumentHeader.minimumSize ≤ blocks.flatten.length := by
    rw [hbytes, List.length_append]
    omega
  have hreached := le_length_firstReaching DocumentHeader.minimumSize blocks
    [] hlong
  have hbuffer : firstReaching DocumentHeader.minimumSize [] blocks =
      header.take (firstReaching DocumentHeader.minimumSize []
        blocks).length := by
    have htake := congrArg (List.take (firstReaching
      DocumentHeader.minimumSize [] blocks).length) hrest
    rwa [List.take_left' rfl,
      List.take_append_of_le_length (Nat.le_of_lt hparted)] at htake
  rw [openStream_eq blocks hlong, hbuffer, DocumentHeader.parse_short
    hheader rfl draws.salt_length (Nat.le_trans (by decide) hreached)
      hparted, checked_bind_error]

/-- A sealed document, however its bytes are divided, opens to its
plaintext exactly when the header arrives whole. -/
theorem openStream_sealStream_iff
    (hsealed : runIn (cipher.sealStream identity draws plaintext) [] =
      (.ok (), sealed))
    (hblocks : blocks.flatten = sealed.flatten) :
    (∃ opened, runIn (cipher.openStream identity blocks) [] =
        (.ok (), opened) ∧ opened.flatten = plaintext.flatten) ↔
      HeaderArrivesWhole cipher.activeKeyId blocks := by
  constructor
  · intro hopened
    by_contra hparted
    obtain ⟨opened, hrun, -⟩ := hopened
    rw [openStream_of_parted hsealed hblocks hparted] at hrun
    cases hrun
  · intro hwhole
    exact ⟨_, openStream_of_whole hsealed hblocks hwhole,
      bodyChunks_flatten cipher.chunkBytes_bounded.1 plaintext⟩

end RoundTrip

-- ==================================================== one byte at a time

/-- A cipher that evaluates: the plaintext, and a tag of the associated
data, the key and the nonce. -/
def markingAead : ChunkAead where
  encrypt key nonce plaintext aad :=
    plaintext ++ fitBytes gcmTagBytes (aad.reverse ++ key ++ nonce)
  decrypt key nonce ciphertext aad :=
    if ciphertext.drop (ciphertext.length - gcmTagBytes) =
        fitBytes gcmTagBytes (aad.reverse ++ key ++ nonce) then
      some (ciphertext.take (ciphertext.length - gcmTagBytes))
    else none
  decrypt_encrypt key nonce plaintext aad := by
    have hlength := length_fitBytes gcmTagBytes
      (aad.reverse ++ key ++ nonce)
    simp only [List.length_append, hlength, Nat.add_sub_cancel,
      List.drop_left, List.take_left, if_true]
  length_encrypt key nonce plaintext aad := by
    rw [List.length_append, length_fitBytes]

/-- A cipher with one key, under this id. -/
def markingCipher (keyId : Text) : DocumentCipher where
  aead := markingAead
  hkdf master salt info := fitBytes 32 (info ++ salt ++ master)
  key other :=
    if other = keyId then .ok (List.replicate 32 7)
    else .error (gatewayError .vaultEncryptionFailed
      (reason "unknown_key_id"))
  activeKeyId := keyId
  chunkBytes := 2
  chunkBytes_bounded := two_le_maxChunkBytes

def zeroDraws : Draws where
  salt := List.replicate saltBytes 0
  nonce _ := List.replicate nonceBytes 0
  salt_length := by decide
  nonce_length _ := by decide

def textIdentity : DocumentIdentity where
  tenantId := ⟨0⟩
  userId := ⟨1⟩
  documentId := ⟨2⟩
  contentType := "text/plain".toList

/-- A document of three bytes, sealed under a key id. -/
def sealedHello (keyId : Text) : List Bytes :=
  (runIn ((markingCipher keyId).sealStream textIdentity zeroDraws
    [[72], [], [101, 121]]) []).2

/-- One byte at a time. -/
def bytewise (pieces : List Bytes) : List Bytes :=
  pieces.flatten.map (fun byte => [byte])

theorem flatten_bytewise (pieces : List Bytes) :
    (bytewise pieces).flatten = pieces.flatten := by
  unfold bytewise
  induction pieces.flatten with
  | nil => rfl
  | cons byte bytes ih =>
      rw [List.map_cons, List.flatten_cons, ih]
      rfl

/-- Under a key id of one byte the document opens one byte at a time. -/
theorem openStream_bytewise :
    ∃ opened, runIn ((markingCipher "k".toList).openStream textIdentity
        (bytewise (sealedHello "k".toList))) [] = (.ok (), opened) ∧
      opened.flatten = [[72], [], [101, 121]].flatten := by
  have hsealed : runIn ((markingCipher "k".toList).sealStream textIdentity
      zeroDraws [[72], [], [101, 121]]) [] =
        (.ok (), sealedHello "k".toList) := by
    decide +kernel
  have hwhole : HeaderArrivesWhole (markingCipher "k".toList).activeKeyId
      (bytewise (sealedHello "k".toList)) := by
    unfold HeaderArrivesWhole
    decide +kernel
  exact (openStream_sealStream_iff hsealed
    (flatten_bytewise (sealedHello "k".toList))).mpr hwhole

/-- Under a key id of two bytes it is refused for want of the byte that
would come next. -/
theorem openStream_bytewise_refused :
    (runIn ((markingCipher "k1".toList).sealStream textIdentity zeroDraws
      [[72], [], [101, 121]]) []).1 = .ok () ∧
    (runIn ((markingCipher "k1".toList).openStream textIdentity
      (bytewise (sealedHello "k1".toList))) []).1 =
        .error (documentEncryptionError "header_truncated") := by
  refine ⟨?_, ?_⟩
  · decide +kernel
  · decide +kernel

end DocumentCipher

end PrivacyGateway.Documents
