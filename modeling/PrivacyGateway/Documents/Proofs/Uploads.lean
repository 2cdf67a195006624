/-
What an upload's acceptance depends on.

`measure_eq` is one pass over a body in closed form. Of how the body was
divided into blocks only the head shows: what had arrived when eight bytes
had. It is checked against the type as a whole, however long it is, and so
is its length. Sealing never fails under a key ring with an active key
(`sealStream_returns`), so an upload into a working service is decided by
its name, its type, its declared length and its measure
(`store_refusal`).

`store_agrees_iff` compares two arrivals of one body.
-/
import PrivacyGateway.Documents.Proofs.Drift

namespace PrivacyGateway.Documents

open Effect Tokenization

-- ==================================================== sealing succeeds

theorem length_encodeUtf8_le (text : Text) :
    (encodeUtf8 text).length ≤ 4 * text.length := by
  unfold encodeUtf8
  induction text with
  | nil => simp
  | cons c text ih =>
      rw [List.flatMap_cons, List.length_append, List.length_cons,
        String.length_utf8EncodeChar]
      have := Char.utf8Size_le_four c
      omega

theorem length_decimal_le (n : Nat) (h : n < 10 ^ 10) :
    (decimal n).length ≤ 10 := by
  unfold decimal
  rw [if_neg (by omega), Int.natAbs_natCast]
  exact (Nat.length_toDigits_le_iff (by decide) (by decide)).mpr h

theorem lengthPrefixed_ok {fields : List Bytes}
    (h : ∀ field ∈ fields, field.length < 256 ^ 2) :
    ∃ bytes, lengthPrefixed fields = .ok bytes := by
  obtain ⟨bytes, hbytes⟩ := Frame.frame_isSome fields h
  refine ⟨bytes, ?_⟩
  unfold lengthPrefixed
  rw [hbytes]

namespace DocumentIdentity

variable {identity : DocumentIdentity}

theorem info_ok (identity : DocumentIdentity) :
    ∃ bytes, identity.info = .ok bytes := by
  apply lengthPrefixed_ok
  have huuid : ∀ u : UUID, (encodeUtf8 u.str).length < 256 ^ 2 := by
    intro u
    have := length_encodeUtf8_le u.str
    rw [UUID.length_str] at this
    omega
  intro field hfield
  simp only [List.mem_cons, List.not_mem_nil, or_false] at hfield
  rcases hfield with rfl | rfl | rfl | rfl
  · decide
  · exact huuid _
  · exact huuid _
  · exact huuid _

theorem aad_ok (purpose : Text) (index : Nat)
    (htype : identity.contentType.length ≤ 128)
    (hschema : identity.schemaVersion = 1)
    (hpurpose : purpose.length ≤ 128) (hindex : index < 10 ^ 10)
    (final : Bool) :
    ∃ bytes, identity.aad purpose index final = .ok bytes := by
  apply lengthPrefixed_ok
  have hshort : ∀ t : Text, t.length ≤ 128 →
      (encodeUtf8 t).length < 256 ^ 2 := by
    intro t ht
    have := length_encodeUtf8_le t
    omega
  have huuid : ∀ u : UUID, (encodeUtf8 u.str).length < 256 ^ 2 := by
    intro u
    apply hshort
    rw [UUID.length_str]
    omega
  intro field hfield
  unfold aadFields at hfield
  simp only [List.mem_cons, List.not_mem_nil, or_false] at hfield
  rcases hfield with rfl | rfl | rfl | rfl | rfl | rfl | rfl | rfl | rfl |
    rfl
  · decide
  · decide
  · exact huuid _
  · exact huuid _
  · exact huuid _
  · exact hshort _ htype
  · rw [hschema]
    decide
  · exact hshort _ hpurpose
  · apply hshort
    have := length_decimal_le index hindex
    omega
  · cases final <;> decide

end DocumentIdentity

namespace DocumentCipher

variable {cipher : DocumentCipher} {identity : DocumentIdentity}
  {draws : Draws}

/-- The ring has its active key, and the id of it fits a header. -/
def Usable (cipher : DocumentCipher) : Prop :=
  (∃ master, cipher.key cipher.activeKeyId = .ok master) ∧
    0 < (encodeUtf8 cipher.activeKeyId).length ∧
    (encodeUtf8 cipher.activeKeyId).length ≤ maxKeyIdBytes

theorem Usable.derive (h : cipher.Usable) (salt : Bytes)
    (identity : DocumentIdentity) :
    ∃ dataKey, cipher.derive cipher.activeKeyId salt identity =
      .ok dataKey := by
  obtain ⟨⟨master, hmaster⟩, -, -⟩ := h
  obtain ⟨info, hinfo⟩ := DocumentIdentity.info_ok identity
  unfold DocumentCipher.derive
  rw [hmaster, hinfo]
  exact ⟨_, rfl⟩

theorem Usable.header (h : cipher.Usable) (salt : Bytes) (chunkBytes : Nat)
    (hchunk : chunkBytes < 256 ^ headerSuffixSize) :
    ∃ raw, DocumentHeader.toBytes ⟨documentFormatVersion,
      cipher.activeKeyId, salt, chunkBytes⟩ = .ok raw := by
  unfold DocumentHeader.toBytes
  rw [if_neg (not_not.mpr h.2), if_neg (Nat.not_le.mpr hchunk)]
  exact ⟨_, rfl⟩

/-- A filename is sealed. -/
theorem Usable.sealBytes (h : cipher.Usable)
    (htype : identity.contentType.length ≤ 128)
    (hschema : identity.schemaVersion = 1) (draws : Draws)
    {plaintext : Bytes}
    (hplaintext : plaintext.length < 256 ^ headerSuffixSize) :
    ∃ raw, cipher.sealBytes identity purposeFilename draws plaintext =
      .ok raw := by
  obtain ⟨dataKey, hderive⟩ := h.derive draws.salt identity
  obtain ⟨aad, haad⟩ := DocumentIdentity.aad_ok purposeFilename 0 htype
    hschema (by decide) (by decide) true
  obtain ⟨header, hheader⟩ := h.header draws.salt
    (max plaintext.length 1) (by
      rw [Nat.max_lt]
      exact ⟨hplaintext, by decide⟩)
  unfold DocumentCipher.sealBytes
  simp only [hderive, haad, hheader, bind, Except.bind]
  exact ⟨_, rfl⟩

theorem sealRest_returns {dataKey : Bytes}
    (haad : ∀ index final, index < 10 ^ 10 →
      ∃ bytes, identity.aad purposeBody index final = .ok bytes)
    (blocks : List Bytes) :
    ∀ index pending yielded, index + blocks.length < 10 ^ 10 →
      ∃ yielded', runIn (cipher.sealRest identity draws dataKey index
        pending blocks) yielded = (.ok (), yielded') := by
  induction blocks with
  | nil =>
      intro index pending yielded hindex
      obtain ⟨aad, haad⟩ := haad index true hindex
      unfold sealRest emitSealed
      rw [haad]
      exact ⟨_, rfl⟩
  | cons block blocks ih =>
      intro index pending yielded hindex
      rw [List.length_cons] at hindex
      obtain ⟨aad, haad⟩ := haad index false (by omega)
      unfold sealRest emitSealed
      rw [haad]
      exact ih (index + 1) block _ (by omega)

theorem length_rechunk_le {size : Nat} (hsize : 0 < size)
    (source : List Bytes) :
    (rechunk source size).length ≤ source.flatten.length + 1 := by
  obtain ⟨full, last, hcut, hfull, -⟩ := rechunk_sizes hsize source
  have hflatten := rechunk_flatten hsize source
  have hcount : full.length ≤ full.flatten.length := by
    have hlengths : ∀ pieces : List Bytes,
        (∀ piece ∈ pieces, piece.length = size) →
          pieces.length ≤ pieces.flatten.length := by
      intro pieces
      induction pieces with
      | nil => simp
      | cons piece pieces ih =>
          intro hall
          obtain ⟨hpiece, hrest⟩ := List.forall_mem_cons.mp hall
          rw [List.length_cons, List.flatten_cons, List.length_append]
          have := ih hrest
          omega
    exact hlengths full hfull
  rcases hcut with hcut | ⟨hcut, -, -⟩
  · rw [← hflatten, hcut, List.flatten_append, List.length_append,
      List.length_append, List.length_singleton]
    omega
  · rw [hcut]
    exact Nat.zero_le _

/-- A body is sealed. -/
theorem Usable.sealStream (h : cipher.Usable)
    (htype : identity.contentType.length ≤ 128)
    (hschema : identity.schemaVersion = 1) (draws : Draws)
    {plaintext : List Bytes}
    (hplaintext : plaintext.flatten.length < 10 ^ 10) :
    ∃ pieces, runIn (cipher.sealStream identity draws plaintext) [] =
      (.ok (), pieces) := by
  obtain ⟨dataKey, hderive⟩ := h.derive draws.salt identity
  obtain ⟨header, hheader⟩ := h.header draws.salt
    cipher.chunkBytes (by
      have := cipher.chunkBytes_bounded.2
      unfold maxChunkBytes at this
      show cipher.chunkBytes < 4294967296
      omega)
  have haad : ∀ index final, index < 10 ^ 10 →
      ∃ bytes, identity.aad purposeBody index final = .ok bytes :=
    fun index final hindex => DocumentIdentity.aad_ok purposeBody index
      htype hschema (by decide) hindex final
  have hcount := length_rechunk_le cipher.chunkBytes_bounded.1 plaintext
  unfold DocumentCipher.sealStream
  rw [hderive, checked_bind_ok, hheader, checked_bind_ok]
  cases hchunks : rechunk plaintext cipher.chunkBytes with
  | nil => exact sealRest_returns haad [] 0 [] _ (by simp)
  | cons block blocks =>
      rw [hchunks, List.length_cons] at hcount
      exact sealRest_returns haad blocks 0 block _ (by omega)

end DocumentCipher

-- ==================================================== measuring

namespace DocumentService

variable {service : DocumentService} {contentType : Text}

def streamedTooLong (service : DocumentService) : Exn :=
  gatewayError .documentTooLarge
    (reason "streamed_length_over_limit" ++
      [("limit", .int service.maxBytes)])

/-- The head that is checked against the type: what had arrived when there
were enough bytes for it. -/
def headOf (source : List Bytes) : Bytes :=
  firstReaching magicSniffBytes [] source

theorem enforceStreamedLength_eq (received : Nat) :
    enforceStreamedLength received service.maxBytes =
      if service.maxBytes < received then .error service.streamedTooLong
      else .ok () := rfl

/-- One block, before and after the head is checked. -/
theorem measureBlock_eq (m : Measuring) (block : Bytes) :
    service.measureBlock contentType m block =
      if service.maxBytes < m.total + block.length then
        .error service.streamedTooLong
      else if m.isChecked then
        .ok { m with
          total := m.total + block.length
          digested := m.digested ++ block }
      else if magicSniffBytes ≤ (m.head ++ block).length then
        match verifyMagic contentType (m.head ++ block) with
        | .error e => .error e
        | .ok _ => .ok ⟨m.total + block.length, m.digested ++ block,
            m.head ++ block, true⟩
      else .ok ⟨m.total + block.length, m.digested ++ block,
        m.head ++ block, m.isChecked⟩ := by
  unfold measureBlock
  simp only [enforceStreamedLength_eq]
  by_cases hlong : service.maxBytes < m.total + block.length
  · rw [if_pos hlong, if_pos hlong]
    rfl
  · rw [if_neg hlong, if_neg hlong]
    by_cases hchecked : m.isChecked = true
    · simp only [hchecked, if_true]
      rfl
    · simp only [hchecked]
      by_cases hhead : magicSniffBytes ≤ (m.head ++ block).length
      · rw [if_pos hhead, if_pos hhead]
        cases verifyMagic contentType (m.head ++ block) <;> rfl
      · rw [if_neg hhead, if_neg hhead]
        rfl

theorem measureBlocks_cons (m : Measuring) (block : Bytes)
    (blocks : List Bytes) :
    service.measureBlocks contentType m (block :: blocks) =
      match service.measureBlock contentType m block with
      | .error e => .error e
      | .ok next => service.measureBlocks contentType next blocks := by
  rw [measureBlocks]
  cases service.measureBlock contentType m block <;> rfl

/-- After the check a pass only counts and hashes. -/
theorem measureBlocks_checked (blocks : List Bytes) :
    ∀ m : Measuring, m.isChecked = true → m.total ≤ service.maxBytes →
      service.measureBlocks contentType m blocks =
        if service.maxBytes < m.total + blocks.flatten.length then
          .error service.streamedTooLong
        else .ok { m with
          total := m.total + blocks.flatten.length
          digested := m.digested ++ blocks.flatten } := by
  induction blocks with
  | nil =>
      intro m hchecked hwithin
      simp only [measureBlocks, List.flatten_nil, List.length_nil,
        Nat.add_zero, List.append_nil]
      rw [if_neg (Nat.not_lt.mpr hwithin)]
  | cons block blocks ih =>
      intro m hchecked hwithin
      have hlength : (block ++ blocks.flatten).length =
          block.length + blocks.flatten.length := List.length_append
      rw [measureBlocks_cons, measureBlock_eq, List.flatten_cons, hlength,
        ← Nat.add_assoc, ← List.append_assoc]
      by_cases hlong : service.maxBytes < m.total + block.length
      · have hrest : service.maxBytes <
            m.total + block.length + blocks.flatten.length := by omega
        rw [if_pos hlong, if_pos hrest]
      · rw [if_neg hlong, if_pos hchecked]
        exact ih _ hchecked (Nat.not_lt.mp hlong)

/-- Before the check a pass collects the head, and then checks it. -/
theorem measureBlocks_unchecked (blocks : List Bytes) :
    ∀ head : Bytes, head.length < magicSniffBytes →
      service.measureBlocks contentType ⟨head.length, head, head, false⟩
          blocks =
        if service.maxBytes <
            (firstReaching magicSniffBytes head blocks).length then
          .error service.streamedTooLong
        else if magicSniffBytes ≤ (head ++ blocks.flatten).length then
          match verifyMagic contentType
              (firstReaching magicSniffBytes head blocks) with
          | .error e => .error e
          | .ok _ =>
              if service.maxBytes < (head ++ blocks.flatten).length then
                .error service.streamedTooLong
              else .ok ⟨(head ++ blocks.flatten).length,
                head ++ blocks.flatten,
                firstReaching magicSniffBytes head blocks, true⟩
        else .ok ⟨(head ++ blocks.flatten).length, head ++ blocks.flatten,
          head ++ blocks.flatten, false⟩ := by
  have hlimit := service.maxBytes_bounded.1
  induction blocks with
  | nil =>
      intro head hhead
      have hwithin : ¬ service.maxBytes < head.length := by
        unfold magicSniffBytes at hhead
        omega
      simp only [firstReaching, List.flatten_nil, List.append_nil]
      rw [if_neg hwithin, if_neg (Nat.not_le.mpr hhead)]
      rfl
  | cons block blocks ih =>
      intro head hhead
      have hlength : head.length + block.length =
          (head ++ block).length := List.length_append.symm
      rw [measureBlocks_cons, measureBlock_eq]
      simp only [firstReaching, List.flatten_cons, hlength,
        ← List.append_assoc]
      by_cases hshort : (head ++ block).length < magicSniffBytes
      · have hwithin : ¬ service.maxBytes < (head ++ block).length := by
          unfold magicSniffBytes at hshort
          omega
        simp only [hwithin, if_false, Nat.not_le.mpr hshort, hshort,
          if_true, Bool.false_eq_true]
        exact ih (head ++ block) hshort
      · have hreached := Nat.not_lt.mp hshort
        have hall : magicSniffBytes ≤
            (head ++ block ++ blocks.flatten).length := by
          rw [List.length_append]
          omega
        simp only [hshort, if_false, hreached, if_true, hall,
          Bool.false_eq_true]
        by_cases hlong : service.maxBytes < (head ++ block).length
        · rw [if_pos hlong, if_pos hlong]
        · rw [if_neg hlong, if_neg hlong]
          cases hmagic : verifyMagic contentType (head ++ block) with
          | error e => rfl
          | ok _ =>
              simp only
              rw [measureBlocks_checked blocks _ rfl (Nat.not_lt.mp hlong)]
              simp only [List.length_append]

theorem firstReaching_short {size : Nat} (blocks : List Bytes) :
    ∀ buffer : Bytes, (buffer ++ blocks.flatten).length < size →
      firstReaching size buffer blocks = buffer ++ blocks.flatten := by
  induction blocks with
  | nil =>
      intro buffer _
      rw [List.flatten_nil, List.append_nil]
      rfl
  | cons block blocks ih =>
      intro buffer hshort
      rw [List.flatten_cons, ← List.append_assoc] at hshort ⊢
      have hblock : (buffer ++ block).length < size := by
        rw [List.length_append] at hshort
        omega
      unfold firstReaching
      rw [if_pos hblock]
      exact ih (buffer ++ block) hshort

/-- One pass over a body, in closed form. -/
theorem measure_eq (source : List Bytes) :
    service.measure contentType source =
      if service.maxBytes < (headOf source).length then
        .error service.streamedTooLong
      else if source.flatten = [] then
        .error (documentInvalid "document_empty")
      else
        match verifyMagic contentType (headOf source) with
        | .error e => .error e
        | .ok _ =>
            if service.maxBytes < source.flatten.length then
              .error service.streamedTooLong
            else .ok ⟨source.flatten.length, source.flatten,
              headOf source,
              decide (magicSniffBytes ≤ source.flatten.length)⟩ := by
  have hlimit := service.maxBytes_bounded.1
  have hblocks := @measureBlocks_unchecked service contentType source []
    (by decide)
  simp only [List.length_nil, List.nil_append] at hblocks
  have hstart : ({} : Measuring) = ⟨0, [], [], false⟩ := rfl
  unfold measure headOf
  rw [hstart, hblocks]
  by_cases hlong : service.maxBytes <
      (firstReaching magicSniffBytes [] source).length
  · rw [if_pos hlong, if_pos hlong]
    rfl
  · rw [if_neg hlong, if_neg hlong]
    by_cases hreached : magicSniffBytes ≤ source.flatten.length
    · have hbody : source.flatten ≠ [] := by
        intro hnone
        rw [hnone] at hreached
        exact absurd hreached (by decide)
      rw [if_pos hreached, if_neg hbody]
      cases hmagic : verifyMagic contentType
          (firstReaching magicSniffBytes [] source) with
      | error e => rfl
      | ok _ =>
          by_cases hover : service.maxBytes < source.flatten.length
          · simp only [hover, if_true]
            rfl
          · have hcount : source.flatten.length ≠ 0 :=
              fun hzero => hbody (List.length_eq_zero_iff.mp hzero)
            simp only [hover, if_false, hreached, decide_true, bind,
              Except.bind, hcount, if_true]
            rfl
    · rw [if_neg hreached]
      have hhead : firstReaching magicSniffBytes [] source =
          source.flatten :=
        firstReaching_short source [] (Nat.not_le.mp hreached)
      have hwithin : ¬ service.maxBytes < source.flatten.length := by
        unfold magicSniffBytes at hreached
        omega
      rw [hhead]
      by_cases hbody : source.flatten = []
      · rw [if_pos hbody, hbody]
        rfl
      · have hcount : source.flatten.length ≠ 0 :=
          fun hzero => hbody (List.length_eq_zero_iff.mp hzero)
        rw [if_neg hbody]
        simp only [bind, Except.bind, hcount, if_false, hwithin, hreached,
          decide_false, Bool.false_eq_true]
        cases verifyMagic contentType source.flatten <;> rfl

-- ==================================================== an upload alone

theorem normalizeFilename_length {unicode : Unicode} {data : UnicodeData}
    {raw safeName : Text}
    (h : normalizeFilename unicode data raw = .ok safeName) :
    safeName.length ≤ maxFilenameChars := by
  unfold normalizeFilename at h
  split at h
  · cases h
  · simp only at h
    split at h
    · cases h
    · rename_i hlength
      repeat' (split at h <;> [cases h; skip])
      cases h
      exact Nat.not_lt.mp hlength

/-- A resolved type is a supported one. -/
theorem resolveContentType_supported {unicode : Unicode}
    {filename contentType : Text} {declared : Option Text}
    (h : resolveContentType unicode filename declared = .ok contentType) :
    contentType = contentTypeTxt ∨ contentType = contentTypePdf ∨
      contentType = contentTypeDocx := by
  have hextensions : ∀ entry ∈ extensionToContentType,
      entry.2 = contentTypeTxt ∨ entry.2 = contentTypePdf ∨
        entry.2 = contentTypeDocx := by
    decide
  unfold resolveContentType at h
  split at h
  · cases h
  · split at h
    · cases h
    · rename_i fromExtension hget
      have hmem := hextensions _ (Dict.mem_of_get? hget)
      split at h
      · cases h
        exact hmem
      · simp only at h
        split at h
        · cases h
        · split at h
          · cases h
          · rename_i hsame
            cases h
            rw [not_not.mp hsame]
            exact hmem

theorem length_supported {contentType : Text}
    (h : contentType = contentTypeTxt ∨ contentType = contentTypePdf ∨
      contentType = contentTypeDocx) : contentType.length ≤ 128 := by
  rcases h with rfl | rfl | rfl <;> decide

/-- Why an upload is refused, if it is: its name, its type, its declared
length or its measure. -/
def refusal (service : DocumentService) (request : UploadRequest) :
    Option Exn :=
  match normalizeFilename service.unicode service.unicodeData
      request.filename with
  | .error e => some e
  | .ok safeName =>
      match resolveContentType service.unicode safeName
          request.declaredContentType with
      | .error e => some e
      | .ok contentType =>
          match enforceDeclaredLength request.declaredLength
              service.maxBytes with
          | .error e => some e
          | .ok _ =>
              match service.measure contentType request.source with
              | .error e => some e
              | .ok _ => none

/-- Neither the id nor the storage key is in use. -/
def Fresh (request : UploadRequest) (world : DocumentWorld) : Prop :=
  ∀ row ∈ world.rows, row.id ≠ request.documentId ∧
    row.storageKey ≠ request.storageKey

/-- A completed upload is answered with what was measured. -/
theorem finish_answer {request : UploadRequest} {admitted : Admitted}
    {byteSize : Nat} {sha256Hex : Text} {world : DocumentWorld}
    (hrow : ∃ row ∈ world.rows, row.ref = request.ref) :
    ∃ metadata, (finish request admitted byteSize sha256Hex world).1 =
        .ok (.document metadata admitted.safeName) ∧
      metadata.byteSize = byteSize ∧ metadata.sha256Hex = sha256Hex := by
  obtain ⟨row, hmem, href⟩ := hrow
  have hsome : (DocumentRepository.get (DocumentRepository.markStored
      world.rows request.ref byteSize sha256Hex) request.ref).isSome := by
    unfold DocumentRepository.get
    rw [List.find?_isSome]
    refine ⟨_, DocumentRepository.mem_update.mpr ⟨row, hmem, rfl⟩, ?_⟩
    rw [if_pos href]
    exact decide_eq_true href
  obtain ⟨found, hfound⟩ := Option.isSome_iff_exists.mp hsome
  obtain ⟨hin, hfoundRef⟩ := DocumentRepository.get_ok hfound
  obtain ⟨old, -, hold⟩ := DocumentRepository.mem_update.mp hin
  unfold finish
  simp only [hfound]
  refine ⟨_, rfl, ?_⟩
  by_cases hsame : old.ref = request.ref
  · rw [if_pos hsame] at hold
    subst hold
    exact ⟨rfl, rfl⟩
  · rw [if_neg hsame] at hold
    subst hold
    exact absurd hfoundRef hsame

theorem prepare_ok (hkey : service.cipher.Usable)
    {request : UploadRequest} {safeName : Text}
    (hname : normalizeFilename service.unicode service.unicodeData
      request.filename = .ok safeName)
    (htype : resolveContentType service.unicode safeName
      request.declaredContentType = .ok contentType)
    (hdeclared : enforceDeclaredLength request.declaredLength
      service.maxBytes = .ok ()) :
    ∃ ciphertext, service.prepare request =
      .ok ⟨safeName, contentType, ciphertext⟩ := by
  have hlength := length_encodeUtf8_le safeName
  have hshort := normalizeFilename_length hname
  unfold maxFilenameChars at hshort
  have hidentity : (request.identity contentType).contentType.length ≤
      128 := length_supported (resolveContentType_supported htype)
  obtain ⟨ciphertext, hsealed⟩ := hkey.sealBytes hidentity rfl
    request.nameDraws (show (encodeUtf8 safeName).length < 4294967296 by
      omega)
  refine ⟨ciphertext, ?_⟩
  unfold prepare
  simp only [hname, htype, hdeclared, hsealed, bind, Except.bind]
  rfl

theorem create_fresh {request : UploadRequest} {world : DocumentWorld}
    (hfresh : Fresh request world) (admitted : Admitted) :
    DocumentRepository.create world.rows (request.row admitted) =
      .ok (world.rows ++ [request.row admitted]) := by
  unfold DocumentRepository.create
  rw [if_neg]
  intro hused
  obtain ⟨row, hrow, hid | hstorage⟩ := hused
  · exact (hfresh row hrow).1 hid
  · exact (hfresh row hrow).2 hstorage

/-- A body that measures is received. -/
theorem receive_ok (hkey : service.cipher.Usable)
    {request : UploadRequest} {admitted : Admitted} {measured : Measuring}
    (htype : admitted.contentType.length ≤ 128)
    (hmeasure : service.measure admitted.contentType request.source =
      .ok measured)
    (hwithin : request.source.flatten.length ≤ service.maxBytes) :
    ∃ object, service.receive request admitted =
      .ok (measured, object) := by
  have hlimit := service.maxBytes_bounded.2
  have hidentity : (request.identity
      admitted.contentType).contentType.length ≤ 128 := htype
  obtain ⟨pieces, hpieces⟩ := hkey.sealStream hidentity rfl
    request.bodyDraws (show request.source.flatten.length < 10 ^ 10 by
      omega)
  unfold receive
  rw [hmeasure]
  simp only [bind, Except.bind, hpieces]
  exact ⟨_, rfl⟩

/-- What measures is within the limit, and is counted and hashed whole. -/
theorem measure_ok {source : List Bytes} {measured : Measuring}
    (h : service.measure contentType source = .ok measured) :
    source.flatten.length ≤ service.maxBytes ∧
      measured.total = source.flatten.length ∧
      measured.digested = source.flatten := by
  rw [measure_eq] at h
  split at h
  · cases h
  · split at h
    · cases h
    · split at h
      · cases h
      · split at h
        · cases h
        · rename_i hwithin
          cases h
          exact ⟨Nat.not_lt.mp hwithin, rfl, rfl⟩

theorem refusal_none {request : UploadRequest}
    (h : refusal service request = none) :
    ∃ safeName contentType measured,
      normalizeFilename service.unicode service.unicodeData
        request.filename = .ok safeName ∧
      resolveContentType service.unicode safeName
        request.declaredContentType = .ok contentType ∧
      enforceDeclaredLength request.declaredLength service.maxBytes =
        .ok () ∧
      service.measure contentType request.source = .ok measured := by
  unfold refusal at h
  split at h
  · cases h
  · rename_i safeName hname
    split at h
    · cases h
    · rename_i contentType htype
      split at h
      · cases h
      · rename_i hdeclared
        split at h
        · cases h
        · rename_i measured hmeasure
          exact ⟨safeName, contentType, measured, hname, htype, hdeclared,
            hmeasure⟩

section Alone

variable {request : UploadRequest} {world : DocumentWorld}

/-- An upload with a reason to refuse it is refused for that reason. -/
theorem store_refused (hkey : service.cipher.Usable)
    (hfresh : Fresh request world) {e : Exn}
    (h : refusal service request = some e) :
    (runIn (service.store request) world).1 = .error e := by
  unfold refusal at h
  cases hname : normalizeFilename service.unicode service.unicodeData
      request.filename with
  | error other =>
      rw [hname] at h
      cases h
      unfold store prepare
      rw [hname]
      rfl
  | ok safeName =>
      simp only [hname] at h
      cases htype : resolveContentType service.unicode safeName
          request.declaredContentType with
      | error other =>
          simp only [htype, Option.some.injEq] at h
          subst h
          unfold store prepare
          simp only [hname, htype, bind, Except.bind]
          rfl
      | ok contentType =>
          simp only [htype] at h
          cases hdeclared : enforceDeclaredLength request.declaredLength
              service.maxBytes with
          | error other =>
              simp only [hdeclared, Option.some.injEq] at h
              subst h
              unfold store prepare
              simp only [hname, htype, hdeclared, bind, Except.bind]
              rfl
          | ok _ =>
              simp only [hdeclared] at h
              obtain ⟨ciphertext, hprepare⟩ :=
                prepare_ok hkey hname htype hdeclared
              cases hmeasure : service.measure contentType
                  request.source with
              | ok measured =>
                  simp only [hmeasure, reduceCtorEq] at h
              | error other =>
                  simp only [hmeasure, Option.some.injEq] at h
                  subst h
                  have hreceive : service.receive request
                      ⟨safeName, contentType, ciphertext⟩ =
                        .error other := by
                    unfold receive
                    rw [hmeasure]
                    rfl
                  unfold store
                  rw [hprepare, checked_bind_ok, runIn_bind, runIn_act,
                    create_fresh hfresh]
                  simp only
                  rw [hreceive]
                  rfl

/-- An upload with no reason to refuse it is accepted, with its length and
its digest. -/
theorem store_accepted (hkey : service.cipher.Usable)
    (hfresh : Fresh request world) (h : refusal service request = none) :
    ∃ metadata safeName,
      (runIn (service.store request) world).1 =
        .ok (.document metadata safeName) ∧
      metadata.byteSize = request.source.flatten.length ∧
      metadata.sha256Hex =
        hexdigest (service.hashes.sha256 request.source.flatten) := by
  obtain ⟨safeName, contentType, measured, hname, htype, hdeclared,
    hmeasure⟩ := refusal_none h
  obtain ⟨ciphertext, hprepare⟩ := prepare_ok hkey hname htype hdeclared
  obtain ⟨hwithin, htotal, hdigested⟩ := measure_ok hmeasure
  obtain ⟨object, hreceive⟩ := @receive_ok service hkey request
    ⟨safeName, contentType, ciphertext⟩ measured
    (length_supported (resolveContentType_supported htype)) hmeasure hwithin
  obtain ⟨metadata, hanswer, hsize, hdigest⟩ := @finish_answer request
    ⟨safeName, contentType, ciphertext⟩ measured.total
    (service.digest measured)
    ⟨world.rows ++ [request.row ⟨safeName, contentType, ciphertext⟩],
      world.objects.set request.storageKey object⟩
    ⟨_, List.mem_append_right _ (List.mem_singleton.mpr rfl), rfl⟩
  refine ⟨metadata, safeName, ?_, ?_, ?_⟩
  · unfold store
    rw [hprepare, checked_bind_ok, runIn_bind, runIn_act,
      create_fresh hfresh]
    simp only
    rw [hreceive]
    exact hanswer
  · rw [hsize, htotal]
  · rw [hdigest, digest, hdigested]

end Alone

-- ==================================================== the head

theorem headOf_begins (source : List Bytes) :
    headOf source <+: source.flatten := by
  obtain ⟨rest, hrest⟩ := firstReaching_prefix magicSniffBytes source []
  exact ⟨rest, hrest⟩

/-- The head is long enough for every signature, or the whole body. -/
theorem headOf_reaches (source : List Bytes) :
    magicSniffBytes ≤ (headOf source).length ∨
      headOf source = source.flatten := by
  by_cases hshort : source.flatten.length < magicSniffBytes
  · exact Or.inr (firstReaching_short source [] hshort)
  · exact Or.inl (le_length_firstReaching magicSniffBytes source []
      (Nat.not_lt.mp hshort))

/-- The head starts with a signature when the body does. -/
theorem startsWithAny_headOf {signatures : List Bytes}
    (hshort : ∀ signature ∈ signatures,
      signature.length ≤ magicSniffBytes) (source : List Bytes) :
    startsWithAny signatures (headOf source) =
      startsWithAny signatures source.flatten := by
  unfold startsWithAny
  rw [Bool.eq_iff_iff, List.any_eq_true, List.any_eq_true]
  constructor
  · intro h
    obtain ⟨signature, hmem, hstarts⟩ := h
    rw [List.isPrefixOf_iff_prefix] at hstarts
    refine ⟨signature, hmem, ?_⟩
    rw [List.isPrefixOf_iff_prefix]
    exact hstarts.trans (headOf_begins source)
  · intro h
    obtain ⟨signature, hmem, hstarts⟩ := h
    refine ⟨signature, hmem, ?_⟩
    rw [List.isPrefixOf_iff_prefix] at hstarts ⊢
    rcases headOf_reaches source with hlong | hwhole
    · exact List.prefix_of_prefix_length_le hstarts (headOf_begins source)
        (Nat.le_trans (hshort signature hmem) hlong)
    · rw [hwhole]
      exact hstarts

/-- The bytes carry the signature of another type than this one. -/
def startsAsAnother (contentType : Text) (bytes : Bytes) : Bool :=
  supportedTypes.any (fun entry =>
    decide (entry.2.contentType ≠ contentType) &&
      startsWithAny entry.2.magic bytes)

def errorKind : Exn → Option ErrorCode
  | .gateway error => some error.code
  | _ => none

/-- What kind of error a check raises, if it does. -/
def checkKind : Except Exn Unit → Option (Option ErrorCode)
  | .ok _ => none
  | .error e => some (errorKind e)

/-- A type with a signature is checked against it. -/
theorem verifyMagic_signed {supported : SupportedType}
    (hget : supportedTypes.get? contentType = some supported)
    (hsigned : supported.magic ≠ []) (bytes : Bytes) :
    checkKind (verifyMagic contentType bytes) =
      if startsWithAny supported.magic bytes then none
      else some (some .documentTypeUnsupported) := by
  unfold verifyMagic
  rw [hget]
  simp only
  rw [if_pos hsigned]
  by_cases hstarts : startsWithAny supported.magic bytes = true
  · rw [if_pos hstarts, if_pos hstarts]
    rfl
  · rw [if_neg hstarts, if_neg hstarts]
    rfl

/-- Plain text is checked against the signatures of the others, and must
decode. -/
theorem verifyMagic_text (bytes : Bytes) :
    checkKind (verifyMagic contentTypeTxt bytes) =
      if startsAsAnother contentTypeTxt bytes then
        some (some .documentTypeUnsupported)
      else if Utf8.accepts bytes then none
      else some (some .documentInvalid) := by
  have hget : supportedTypes.get? contentTypeTxt =
      some ⟨contentTypeTxt, [".txt".toList], []⟩ := rfl
  unfold verifyMagic startsAsAnother
  rw [hget]
  simp only
  rw [if_neg (not_not.mpr rfl)]
  cases hfind : supportedTypes.find? (fun entry =>
      decide (entry.2.contentType ≠ contentTypeTxt) &&
        startsWithAny entry.2.magic bytes) with
  | some entry =>
      have hany : supportedTypes.any (fun entry =>
          decide (entry.2.contentType ≠ contentTypeTxt) &&
            startsWithAny entry.2.magic bytes) = true := by
        rw [List.any_eq_true]
        have hstarts := List.find?_some hfind
        exact ⟨entry, List.mem_of_find?_eq_some hfind, hstarts⟩
      rw [if_pos hany]
      rfl
  | none =>
      have hany : ¬ supportedTypes.any (fun entry =>
          decide (entry.2.contentType ≠ contentTypeTxt) &&
            startsWithAny entry.2.magic bytes) = true := by
        rw [List.any_eq_true]
        rintro ⟨entry, hmem, hstarts⟩
        exact List.find?_eq_none.mp hfind entry hmem hstarts
      rw [if_neg hany]
      by_cases htext : Utf8.accepts bytes = true
      · simp [htext, checkKind]
      · simp [htext, checkKind, errorKind, documentInvalid, gatewayError]

/-- The bytes do not look like their type. -/
def mismatches (contentType : Text) (bytes : Bytes) : Bool :=
  match supportedTypes.get? contentType with
  | none => true
  | some supported =>
      if supported.magic = [] then startsAsAnother contentType bytes
      else !startsWithAny supported.magic bytes

/-- Of what kind a refusal by the first bytes is. -/
theorem checkKind_verifyMagic
    (h : contentType = contentTypeTxt ∨ contentType = contentTypePdf ∨
      contentType = contentTypeDocx) (bytes : Bytes) :
    checkKind (verifyMagic contentType bytes) =
      if mismatches contentType bytes then
        some (some .documentTypeUnsupported)
      else if contentType = contentTypeTxt → Utf8.accepts bytes then none
      else some (some .documentInvalid) := by
  have hpdf : contentTypePdf ≠ contentTypeTxt := by decide
  have hdocx : contentTypeDocx ≠ contentTypeTxt := by decide
  rcases h with rfl | rfl | rfl
  · have hmismatch : mismatches contentTypeTxt bytes =
        startsAsAnother contentTypeTxt bytes := rfl
    rw [verifyMagic_text, hmismatch]
    simp only [forall_const]
  · rw [verifyMagic_signed rfl (by decide)]
    have hmismatch : mismatches contentTypePdf bytes =
        !startsWithAny [[0x25, 0x50, 0x44, 0x46, 0x2D]] bytes := rfl
    rw [hmismatch]
    cases startsWithAny [[0x25, 0x50, 0x44, 0x46, 0x2D]] bytes <;>
      simp [hpdf]
  · rw [verifyMagic_signed rfl (by decide)]
    have hmismatch : mismatches contentTypeDocx bytes =
        !startsWithAny [[0x50, 0x4B, 3, 4], [0x50, 0x4B, 5, 6],
          [0x50, 0x4B, 7, 8]] bytes := rfl
    rw [hmismatch]
    cases startsWithAny [[0x50, 0x4B, 3, 4], [0x50, 0x4B, 5, 6],
      [0x50, 0x4B, 7, 8]] bytes <;> simp [hdocx]

/-- A body and its head look like their type alike. -/
theorem mismatches_headOf (source : List Bytes) :
    mismatches contentType (headOf source) =
      mismatches contentType source.flatten := by
  have hshort : ∀ entry ∈ supportedTypes,
      ∀ signature ∈ entry.2.magic, signature.length ≤ magicSniffBytes := by
    decide
  have hothers : startsAsAnother contentType (headOf source) =
      startsAsAnother contentType source.flatten := by
    unfold startsAsAnother
    rw [Bool.eq_iff_iff, List.any_eq_true, List.any_eq_true]
    constructor
    · intro h
      obtain ⟨entry, hmem, hentry⟩ := h
      rw [startsWithAny_headOf (hshort entry hmem)] at hentry
      exact ⟨entry, hmem, hentry⟩
    · intro h
      obtain ⟨entry, hmem, hentry⟩ := h
      rw [← startsWithAny_headOf (hshort entry hmem)] at hentry
      exact ⟨entry, hmem, hentry⟩
  unfold mismatches
  cases hget : supportedTypes.get? contentType with
  | none => rfl
  | some supported =>
      simp only
      rw [hothers, startsWithAny_headOf
        (hshort _ (Dict.mem_of_get? hget))]

-- ==================================================== two arrivals

/-- The declared length counts the body, and the envelope around it. -/
def Enveloped (request : UploadRequest) : Prop :=
  ∀ declared, request.declaredLength = some declared →
    (request.source.flatten.length : Int) ≤ declared

/-- The declared length is over the limit. -/
def DeclaredOver (service : DocumentService)
    (request : UploadRequest) : Prop :=
  ∃ declared, request.declaredLength = some declared ∧
    (service.maxBytes : Int) < declared

/-- An arrival is too long: by its declared length, by its head, or by its
body where the head passes. -/
def TooLong (service : DocumentService) (contentType : Text)
    (request : UploadRequest) : Prop :=
  DeclaredOver service request ∨
    service.maxBytes < (headOf request.source).length ∨
    service.maxBytes < request.source.flatten.length ∧
      verifyMagic contentType (headOf request.source) = .ok ()

section Kinds

variable {request : UploadRequest} {safeName : Text}

theorem declared_over (h : DeclaredOver service request) :
    ∃ e, enforceDeclaredLength request.declaredLength service.maxBytes =
      .error e ∧ errorKind e = some .documentTooLarge := by
  obtain ⟨declared, hsome, hover⟩ := h
  unfold enforceDeclaredLength
  rw [hsome]
  simp only
  rw [if_neg (by omega), if_pos hover]
  exact ⟨_, rfl, rfl⟩

theorem declared_within (henveloped : Enveloped request)
    (h : ¬ DeclaredOver service request) :
    enforceDeclaredLength request.declaredLength service.maxBytes =
      .ok () := by
  unfold enforceDeclaredLength
  cases hsome : request.declaredLength with
  | none => rfl
  | some declared =>
      have hcounts := henveloped declared hsome
      have hwithin : ¬ (service.maxBytes : Int) < declared :=
        fun hover => h ⟨declared, hsome, hover⟩
      simp only
      rw [if_neg (by omega), if_neg hwithin]

/-- An arrival that is too long is refused as too large. -/
theorem refusal_tooLong
    (hname : normalizeFilename service.unicode service.unicodeData
      request.filename = .ok safeName)
    (htype : resolveContentType service.unicode safeName
      request.declaredContentType = .ok contentType)
    (henveloped : Enveloped request)
    (h : TooLong service contentType request) :
    (refusal service request).map errorKind =
      some (some .documentTooLarge) := by
  unfold refusal
  simp only [hname, htype]
  by_cases hdeclared : DeclaredOver service request
  · obtain ⟨e, he, hkind⟩ := declared_over hdeclared
    rw [he]
    exact congrArg some hkind
  · rw [declared_within henveloped hdeclared]
    simp only [measure_eq]
    rcases h with hover | hhead | ⟨hbody, hmagic⟩
    · exact absurd hover hdeclared
    · rw [if_pos hhead]
      rfl
    · have hsome : request.source.flatten ≠ [] := by
        intro hnone
        rw [hnone] at hbody
        exact absurd hbody (Nat.not_lt_zero _)
      by_cases hhead : service.maxBytes <
          (headOf request.source).length
      · rw [if_pos hhead]
        rfl
      · rw [if_neg hhead, if_neg hsome, hmagic]
        simp only
        rw [if_pos hbody]
        rfl

/-- An arrival that is not is refused for what its head is, or not at
all. -/
theorem refusal_notTooLong
    (hname : normalizeFilename service.unicode service.unicodeData
      request.filename = .ok safeName)
    (htype : resolveContentType service.unicode safeName
      request.declaredContentType = .ok contentType)
    (henveloped : Enveloped request)
    (h : ¬ TooLong service contentType request) :
    (refusal service request).map errorKind =
      if request.source.flatten = [] then some (some .documentInvalid)
      else checkKind (verifyMagic contentType
        (headOf request.source)) := by
  unfold TooLong at h
  rw [not_or, not_or] at h
  obtain ⟨hdeclared, hhead, hbody⟩ := h
  unfold refusal
  simp only [hname, htype, declared_within henveloped hdeclared,
    measure_eq, if_neg hhead]
  by_cases hnone : request.source.flatten = []
  · rw [if_pos hnone, if_pos hnone]
    rfl
  · rw [if_neg hnone, if_neg hnone]
    cases hmagic : verifyMagic contentType (headOf request.source) with
    | error e => rfl
    | ok _ =>
        simp only
        rw [if_neg (fun hover => hbody ⟨hover, hmagic⟩)]
        rfl

/-- The kinds of the errors that the first bytes raise. -/
theorem checkKind_not_tooLarge
    (h : contentType = contentTypeTxt ∨ contentType = contentTypePdf ∨
      contentType = contentTypeDocx) (bytes : Bytes) :
    checkKind (verifyMagic contentType bytes) ≠
      some (some .documentTooLarge) := by
  rw [checkKind_verifyMagic h]
  split
  · simp
  · split <;> simp

end Kinds

/-- Two uploads end alike: both accepted, with one size and one digest, or
both refused, with one kind of error. -/
def SameUpload : Except Exn Answer → Except Exn Answer → Prop
  | .ok (.document metadata _), .ok (.document other _) =>
      metadata.byteSize = other.byteSize ∧
        metadata.sha256Hex = other.sha256Hex
  | .error e, .error e' => errorKind e = errorKind e'
  | _, _ => False

def Accepted (answer : Except Exn Answer) : Prop :=
  ∃ metadata filename, answer = .ok (.document metadata filename)

/-- Two requests bring one document: a filename, a declared type and a
body. -/
structure SameDocument (request other : UploadRequest) : Prop where
  filename : request.filename = other.filename
  declaredContentType :
    request.declaredContentType = other.declaredContentType
  body : request.source.flatten = other.source.flatten

/-- The name and the type are accepted, and the body is of a length that
is and looks like its type. -/
def FitsItsType (service : DocumentService)
    (request : UploadRequest) : Prop :=
  ∃ safeName contentType,
    normalizeFilename service.unicode service.unicodeData
      request.filename = .ok safeName ∧
    resolveContentType service.unicode safeName
      request.declaredContentType = .ok contentType ∧
    0 < request.source.flatten.length ∧
    request.source.flatten.length ≤ service.maxBytes ∧
    verifyMagic contentType request.source.flatten = .ok ()

/-- Two arrivals are too long or not alike; and where they are not, and
the body is to be read as text, their heads decode or not alike. -/
def ArriveAlike (service : DocumentService)
    (request other : UploadRequest) : Prop :=
  ∀ safeName contentType,
    normalizeFilename service.unicode service.unicodeData
      request.filename = .ok safeName →
    resolveContentType service.unicode safeName
      request.declaredContentType = .ok contentType →
    (TooLong service contentType request ↔
      TooLong service contentType other) ∧
    (¬ TooLong service contentType request →
      contentType = contentTypeTxt →
      startsAsAnother contentTypeTxt request.source.flatten = false →
      (Utf8.accepts (headOf request.source) ↔
        Utf8.accepts (headOf other.source)))

section Arrivals

variable {request other : UploadRequest} {world world' : DocumentWorld}

/-- Uploads end alike when they are refused alike. -/
theorem sameUpload_iff (hkey : service.cipher.Usable)
    (hsame : SameDocument request other) (hfresh : Fresh request world)
    (hfresh' : Fresh other world') :
    SameUpload (runIn (service.store request) world).1
        (runIn (service.store other) world').1 ↔
      (refusal service request).map errorKind =
        (refusal service other).map errorKind := by
  cases h : refusal service request with
  | none =>
      obtain ⟨metadata, name, hrun, hsize, hdigest⟩ :=
        store_accepted hkey hfresh h
      cases h' : refusal service other with
      | none =>
          obtain ⟨metadata', name', hrun', hsize', hdigest'⟩ :=
            store_accepted hkey hfresh' h'
          rw [hrun, hrun']
          simp only [SameUpload, hsize, hdigest, hsize', hdigest',
            hsame.body, and_self]
      | some e =>
          rw [hrun, store_refused hkey hfresh' h']
          simp [SameUpload]
  | some e =>
      rw [store_refused hkey hfresh h]
      cases h' : refusal service other with
      | none =>
          obtain ⟨metadata', name', hrun', -, -⟩ :=
            store_accepted hkey hfresh' h'
          rw [hrun']
          simp [SameUpload]
      | some e' =>
          rw [store_refused hkey hfresh' h']
          simp [SameUpload]

/-- What the first bytes of one body in two arrivals come to is of one
kind, unless they are text that decodes in one of them only. -/
theorem checkKind_alike_iff (hsame : SameDocument request other)
    (h : contentType = contentTypeTxt ∨ contentType = contentTypePdf ∨
      contentType = contentTypeDocx) :
    checkKind (verifyMagic contentType (headOf request.source)) =
        checkKind (verifyMagic contentType (headOf other.source)) ↔
      (contentType = contentTypeTxt →
        startsAsAnother contentTypeTxt request.source.flatten = false →
        (Utf8.accepts (headOf request.source) ↔
          Utf8.accepts (headOf other.source))) := by
  rw [checkKind_verifyMagic h, checkKind_verifyMagic h, mismatches_headOf,
    mismatches_headOf, ← hsame.body]
  have htext : mismatches contentTypeTxt request.source.flatten =
      startsAsAnother contentTypeTxt request.source.flatten := rfl
  by_cases hmismatch : mismatches contentType request.source.flatten = true
  · rw [if_pos hmismatch, if_pos hmismatch]
    refine ⟨fun _ htxt hown => ?_, fun _ => rfl⟩
    rw [htxt, htext, hown] at hmismatch
    cases hmismatch
  · rw [if_neg hmismatch, if_neg hmismatch]
    by_cases htxt : contentType = contentTypeTxt
    · have hown : startsAsAnother contentTypeTxt request.source.flatten =
          false := by
        rw [← htext, ← htxt]
        exact Bool.eq_false_iff.mpr hmismatch
      cases hhead : Utf8.accepts (headOf request.source) <;>
        cases hhead' : Utf8.accepts (headOf other.source) <;>
          simp [htxt, hown]
    · simp [htxt]

/-- Refusals are alike when the documents arrive alike. -/
theorem refusal_alike_iff (hsame : SameDocument request other)
    (henveloped : Enveloped request) (henveloped' : Enveloped other) :
    (refusal service request).map errorKind =
        (refusal service other).map errorKind ↔
      ArriveAlike service request other := by
  cases hname : normalizeFilename service.unicode service.unicodeData
      request.filename with
  | error e =>
      constructor
      · intro _ safeName contentType hok
        rw [hname] at hok
        cases hok
      · intro _
        unfold refusal
        rw [← hsame.filename, hname]
  | ok safeName =>
      have hname' := hname
      rw [hsame.filename] at hname'
      cases htype : resolveContentType service.unicode safeName
          request.declaredContentType with
      | error e =>
          constructor
          · intro _ other contentType hok hresolved
            rw [hname] at hok
            cases hok
            rw [htype] at hresolved
            cases hresolved
          · intro _
            unfold refusal
            simp only [← hsame.filename, ← hsame.declaredContentType, hname,
              htype]
      | ok contentType =>
          have htype' := htype
          rw [hsame.declaredContentType] at htype'
          have hsupported := resolveContentType_supported htype
          have halike : ArriveAlike service request other ↔
              (TooLong service contentType request ↔
                TooLong service contentType other) ∧
              (¬ TooLong service contentType request →
                checkKind (verifyMagic contentType
                    (headOf request.source)) =
                  checkKind (verifyMagic contentType
                    (headOf other.source))) := by
            rw [checkKind_alike_iff hsame hsupported]
            constructor
            · intro h
              exact h safeName contentType hname htype
            · intro h name resolved hok hresolved
              rw [hname] at hok
              cases hok
              rw [htype] at hresolved
              cases hresolved
              exact h
          rw [halike]
          by_cases hlong : TooLong service contentType request
          · rw [refusal_tooLong hname htype henveloped hlong]
            by_cases hlong' : TooLong service contentType other
            · rw [refusal_tooLong hname' htype' henveloped' hlong']
              simp [hlong, hlong']
            · rw [refusal_notTooLong hname' htype' henveloped' hlong']
              simp only [hlong, hlong', iff_false, not_true, false_and,
                false_implies]
              split
              · simp
              · exact (checkKind_not_tooLarge hsupported _).symm
          · rw [refusal_notTooLong hname htype henveloped hlong]
            by_cases hlong' : TooLong service contentType other
            · rw [refusal_tooLong hname' htype' henveloped' hlong']
              simp only [hlong, hlong', false_iff, not_true, false_and,
                iff_false]
              split
              · simp
              · exact checkKind_not_tooLarge hsupported _
            · rw [refusal_notTooLong hname' htype' henveloped' hlong',
                ← hsame.body]
              simp only [hlong, hlong', true_and, not_false_iff,
                true_implies]
              by_cases hnone : request.source.flatten = []
              · have hhead : ∀ source : List Bytes,
                    source.flatten = [] → headOf source = [] := by
                  intro source hempty
                  have hbegins := headOf_begins source
                  rw [hempty] at hbegins
                  exact List.prefix_nil.mp hbegins
                rw [hhead _ hnone, hhead _ (hsame.body ▸ hnone)]
                simp
              · rw [if_neg hnone, if_neg hnone]

/-- A body that looks like its type does so by its head. -/
theorem verifyMagic_headOf
    (h : contentType = contentTypeTxt ∨ contentType = contentTypePdf ∨
      contentType = contentTypeDocx) {source : List Bytes}
    (hbody : verifyMagic contentType source.flatten = .ok ()) :
    verifyMagic contentType (headOf source) = .ok () := by
  have hkind : checkKind (verifyMagic contentType (headOf source)) =
      none := by
    have hwhole := checkKind_verifyMagic h source.flatten
    rw [hbody] at hwhole
    rw [checkKind_verifyMagic h, mismatches_headOf]
    by_cases hmismatch : mismatches contentType source.flatten = true
    · rw [if_pos hmismatch] at hwhole
      cases hwhole
    · rw [if_neg hmismatch] at hwhole ⊢
      by_cases htext : contentType = contentTypeTxt →
          Utf8.accepts source.flatten
      · obtain ⟨rest, hrest⟩ := headOf_begins source
        rw [if_pos]
        intro htxt
        have hwhole : Utf8.accepts (headOf source ++ rest) = true := by
          rw [hrest]
          exact htext htxt
        exact Utf8.accepts_of_append hwhole
      · rw [if_neg htext] at hwhole
        cases hwhole
  cases hmagic : verifyMagic contentType (headOf source) with
  | error e =>
      rw [hmagic] at hkind
      cases hkind
  | ok _ => rfl

/-- A document that fits its type is accepted unless its declared length is
over the limit. -/
theorem accepted_iff_of_fits (hkey : service.cipher.Usable)
    (hfresh : Fresh request world) (henveloped : Enveloped request)
    (hfits : FitsItsType service request) :
    Accepted (runIn (service.store request) world).1 ↔
      ¬ DeclaredOver service request := by
  obtain ⟨safeName, contentType, hname, htype, hpos, hwithin, hmagic⟩ :=
    hfits
  constructor
  · intro haccepted hover
    obtain ⟨e, he, -⟩ := declared_over hover
    have hrefused : refusal service request = some e := by
      unfold refusal
      simp only [hname, htype, he]
    obtain ⟨metadata, name, hrun⟩ := haccepted
    rw [store_refused hkey hfresh hrefused] at hrun
    cases hrun
  · intro hdeclared
    have hhead := verifyMagic_headOf
      (resolveContentType_supported htype) hmagic
    have hshort := (headOf_begins request.source).length_le
    have hnone : request.source.flatten ≠ [] :=
      List.ne_nil_of_length_pos hpos
    have haccepted : refusal service request = none := by
      unfold refusal
      simp only [hname, htype, declared_within henveloped hdeclared,
        measure_eq, hhead]
      rw [if_neg (by omega), if_neg hnone, if_neg (by omega)]
    obtain ⟨metadata, name, hrun, -, -⟩ :=
      store_accepted hkey hfresh haccepted
    exact ⟨metadata, name, hrun⟩

/-- Two uploads of one document end alike, and one that fits its type is
accepted, exactly when they arrive alike and the declared length of one
that fits is within the limit. -/
theorem store_agrees_iff (hkey : service.cipher.Usable)
    (hsame : SameDocument request other)
    (henveloped : Enveloped request) (henveloped' : Enveloped other)
    (hfresh : Fresh request world) (hfresh' : Fresh other world') :
    (SameUpload (runIn (service.store request) world).1
        (runIn (service.store other) world').1 ∧
      (FitsItsType service request →
        Accepted (runIn (service.store request) world).1)) ↔
    ArriveAlike service request other ∧
      (FitsItsType service request → ¬ DeclaredOver service request) := by
  rw [sameUpload_iff hkey hsame hfresh hfresh',
    refusal_alike_iff hsame henveloped henveloped']
  refine and_congr_right fun _ => forall_congr' fun hfits => ?_
  exact accepted_iff_of_fits hkey hfresh henveloped hfits

end Arrivals

-- ==================================================== one body, two ways

/-- A body as it arrives: in these blocks, with this declared length. -/
def arrival (declaredLength : Option Int) (source : List Bytes) :
    UploadRequest :=
  { noteUpload with declaredLength := declaredLength, source := source }

theorem plainService_usable : plainService.cipher.Usable := by
  refine ⟨⟨List.replicate 32 7, ?_⟩, ?_, ?_⟩
  · decide +kernel
  · decide +kernel
  · decide +kernel

/-- Ten letters, in one block and with an envelope, and letter by
letter. -/
theorem store_agrees_letters :
    SameUpload
        (runIn (plainService.store (arrival (some 300)
          [List.replicate 10 97])) ⟨[], []⟩).1
        (runIn (plainService.store (arrival none
          (List.replicate 10 [97]))) ⟨[], []⟩).1 ∧
      (FitsItsType plainService (arrival (some 300)
          [List.replicate 10 97]) →
        Accepted (runIn (plainService.store (arrival (some 300)
          [List.replicate 10 97])) ⟨[], []⟩).1) := by
  have hover : ¬ DeclaredOver plainService
      (arrival (some 300) [List.replicate 10 97]) := by
    rintro ⟨declared, hsome, hlong⟩
    cases hsome
    exact absurd hlong (by decide)
  have hover' : ¬ DeclaredOver plainService
      (arrival none (List.replicate 10 [97])) := by
    rintro ⟨declared, hsome, -⟩
    cases hsome
  have hshort : ∀ contentType, ¬ TooLong plainService contentType
      (arrival (some 300) [List.replicate 10 97]) := by
    rintro contentType (h | h | ⟨h, -⟩)
    · exact hover h
    · exact absurd h (by decide +kernel)
    · exact absurd h (by decide +kernel)
  have hshort' : ∀ contentType, ¬ TooLong plainService contentType
      (arrival none (List.replicate 10 [97])) := by
    rintro contentType (h | h | ⟨h, -⟩)
    · exact hover' h
    · exact absurd h (by decide +kernel)
    · exact absurd h (by decide +kernel)
  have hsame : SameDocument (arrival (some 300) [List.replicate 10 97])
      (arrival none (List.replicate 10 [97])) :=
    ⟨rfl, rfl, by decide +kernel⟩
  have henveloped : Enveloped
      (arrival (some 300) [List.replicate 10 97]) := by
    intro declared hsome
    have hdeclared : declared = 300 := (Option.some.inj hsome).symm
    rw [hdeclared]
    decide +kernel
  have henveloped' : Enveloped
      (arrival none (List.replicate 10 [97])) :=
    fun _ hsome => nomatch hsome
  have hfresh : ∀ declaredLength source,
      Fresh (arrival declaredLength source) ⟨[], []⟩ :=
    fun _ _ row hrow => nomatch hrow
  have halike : ArriveAlike plainService
      (arrival (some 300) [List.replicate 10 97])
      (arrival none (List.replicate 10 [97])) := by
    intro safeName contentType _ _
    refine ⟨iff_of_false (hshort contentType) (hshort' contentType), ?_⟩
    intro _ _ _
    decide +kernel
  exact (store_agrees_iff plainService_usable hsame henveloped henveloped'
    (hfresh _ _) (hfresh _ _)).mpr ⟨halike, fun _ => hover⟩

/-- A body of exactly the limit is refused for its envelope, and one whose
ninth byte is not UTF-8 is refused only where that byte arrives with the
first eight. -/
theorem store_disagrees :
    ¬ SameUpload
        (runIn (plainService.store (arrival (some 1224)
          [List.replicate 1024 97])) ⟨[], []⟩).1
        (runIn (plainService.store (arrival none
          [List.replicate 1024 97])) ⟨[], []⟩).1 ∧
      ¬ SameUpload
        (runIn (plainService.store (arrival none
          [List.replicate 8 97 ++ [255]])) ⟨[], []⟩).1
        (runIn (plainService.store (arrival none
          [List.replicate 8 97, [255]])) ⟨[], []⟩).1 := by
  have hfresh : ∀ declaredLength source,
      Fresh (arrival declaredLength source) ⟨[], []⟩ :=
    fun _ _ row hrow => nomatch hrow
  have henvelope : SameDocument
      (arrival (some 1224) [List.replicate 1024 97])
      (arrival none [List.replicate 1024 97]) := ⟨rfl, rfl, rfl⟩
  have hblocks : SameDocument
      (arrival none [List.replicate 8 97 ++ [255]])
      (arrival none [List.replicate 8 97, [255]]) := ⟨rfl, rfl, rfl⟩
  refine ⟨?_, ?_⟩
  · rw [sameUpload_iff plainService_usable henvelope (hfresh _ _)
      (hfresh _ _)]
    decide +kernel
  · rw [sameUpload_iff plainService_usable hblocks (hfresh _ _)
      (hfresh _ _)]
    decide +kernel

end DocumentService

end PrivacyGateway.Documents
