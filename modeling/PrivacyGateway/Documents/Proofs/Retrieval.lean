/-
What a reader of a document is given, whatever is interleaved.

A retrieval that finds its document answers with the name and the body of
one upload of that document, made by the same principal, and with the
length and digest of that body: the whole body, or nothing at all where a
deletion of the document came in between. It never answers with a part of
a body, with the body of another document, or with a failure to decrypt.

Two invariants carry this. `TaskFrom` and its fellows say where a row, an
object or a task comes from, which no later step can change. `Upheld`
follows one upload: from the row it writes to the object it puts, both are
there unless a deletion of the document has begun.
-/
import PrivacyGateway.Documents.Proofs.Drift
import PrivacyGateway.Documents.Proofs.Uploads

namespace PrivacyGateway.Documents

open Effect Tokenization

-- ==================================================== whole values

namespace DocumentCipher

variable {cipher : DocumentCipher} {identity : DocumentIdentity}
  {purpose : Text} {draws : Draws} {plaintext raw : Bytes}

/-- A short value that was sealed opens again. -/
theorem openBytes_sealBytes
    (h : cipher.sealBytes identity purpose draws plaintext = .ok raw)
    (hlength : plaintext.length ≤ maxChunkBytes) :
    cipher.openBytes identity purpose raw = .ok plaintext := by
  unfold sealBytes at h
  cases hderive : cipher.derive cipher.activeKeyId draws.salt identity with
  | error e =>
      rw [hderive] at h
      cases h
  | ok dataKey =>
      cases haad : identity.aad purpose 0 true with
      | error e =>
          rw [hderive, haad] at h
          cases h
      | ok aad =>
          cases hheader : DocumentHeader.toBytes ⟨documentFormatVersion,
              cipher.activeKeyId, draws.salt, max plaintext.length 1⟩ with
          | error e =>
              rw [hderive, haad, hheader] at h
              cases h
          | ok header =>
              rw [hderive, haad, hheader] at h
              cases h
              have hparse := DocumentHeader.parse_toBytes hheader rfl
                draws.salt_length
                ⟨Nat.le_max_right .., Nat.max_le.mpr ⟨hlength, by decide⟩⟩
                (cipher.sealChunk dataKey (draws.nonce 0) plaintext aad)
              unfold openBytes
              simp only [hparse, bind, Except.bind, hderive, haad,
                List.drop_left', openChunk_sealChunk]

end DocumentCipher

namespace DocumentService

variable {service : DocumentService} {request : UploadRequest}
  {admitted : Admitted}

-- ==================================================== what is sealed

/-- The name of an admitted upload opens again. -/
theorem prepare_opens (h : service.prepare request = .ok admitted) :
    service.cipher.openBytes (request.identity admitted.contentType)
      purposeFilename admitted.filenameCiphertext =
        .ok (encodeUtf8 admitted.safeName) := by
  unfold prepare at h
  cases hname : normalizeFilename service.unicode service.unicodeData
      request.filename with
  | error e =>
      rw [hname] at h
      cases h
  | ok safeName =>
      cases htype : resolveContentType service.unicode safeName
          request.declaredContentType with
      | error e =>
          simp only [hname, htype, bind, Except.bind] at h
          cases h
      | ok contentType =>
          cases hdeclared : enforceDeclaredLength request.declaredLength
              service.maxBytes with
          | error e =>
              simp only [hname, htype, hdeclared, bind, Except.bind] at h
              cases h
          | ok _ =>
              cases hseal : service.cipher.sealBytes
                  (request.identity contentType) purposeFilename
                  request.nameDraws (encodeUtf8 safeName) with
              | error e =>
                  simp only [hname, htype, hdeclared, hseal, bind,
                    Except.bind] at h
                  cases h
              | ok ciphertext =>
                  simp only [hname, htype, hdeclared, hseal, bind,
                    Except.bind] at h
                  cases h
                  apply DocumentCipher.openBytes_sealBytes hseal
                  have hchars := normalizeFilename_length hname
                  have hbytes := length_encodeUtf8_le safeName
                  unfold maxFilenameChars at hchars
                  unfold maxChunkBytes
                  omega

/-- The checksum of a whole body. -/
def checksum (service : DocumentService) (request : UploadRequest) : Text :=
  hexdigest (service.hashes.sha256 request.source.flatten)

/-- A body that was received was measured whole and sealed whole. -/
theorem received {measured : Measuring} {object : Bytes}
    (h : service.receive request admitted = .ok (measured, object)) :
    measured.total = request.source.flatten.length ∧
      service.digest measured = service.checksum request ∧
      ∃ pieces, runIn (service.cipher.sealStream
          (request.identity admitted.contentType) request.bodyDraws
          request.source) [] = (.ok (), pieces) ∧
        pieces.flatten = object := by
  unfold receive at h
  cases hmeasure : service.measure admitted.contentType request.source with
  | error e =>
      rw [hmeasure] at h
      cases h
  | ok found =>
      simp only [hmeasure, bind, Except.bind] at h
      cases hseal : runIn (service.cipher.sealStream
          (request.identity admitted.contentType) request.bodyDraws
          request.source) [] with
      | mk outcome pieces =>
          rw [hseal] at h
          cases outcome with
          | error e => cases h
          | ok _ =>
              cases h
              obtain ⟨-, htotal, hdigested⟩ := measure_ok hmeasure
              refine ⟨htotal, ?_, pieces, rfl, rfl⟩
              unfold digest checksum
              rw [hdigested]

-- ==================================================== what is read

/-- The row of an upload, as its readers rely on it. -/
structure RowOf (service : DocumentService) (request : UploadRequest)
    (admitted : Admitted) (row : DocumentRow) : Prop where
  ref_eq : row.ref = request.ref
  storageKey_eq : row.storageKey = request.storageKey
  filename_eq : row.filenameCiphertext = admitted.filenameCiphertext
  contentType_eq : row.contentType = admitted.contentType
  stored : row.status = .stored →
    row.byteSize = request.source.flatten.length ∧
      row.sha256Hex = service.checksum request

theorem RowOf.identity_eq {row : DocumentRow}
    (h : RowOf service request admitted row) :
    (⟨row.tenantId, row.userId, row.id, row.contentType,
      documentFormatVersion.toNat⟩ : DocumentIdentity) =
        request.identity admitted.contentType := by
  have href := h.ref_eq
  unfold DocumentRow.ref UploadRequest.ref at href
  simp only [DocumentRef.mk.injEq] at href
  obtain ⟨htenant, huser, hid⟩ := href
  rw [htenant, huser, hid, h.contentType_eq]
  rfl

/-- A block of the store's size holds a whole header. -/
theorem headerArrivesWhole_download {draws : Draws} {plaintext pieces :
    List Bytes} {identity : DocumentIdentity}
    (hsealed : runIn (service.cipher.sealStream identity draws plaintext)
      [] = (.ok (), pieces)) :
    DocumentCipher.HeaderArrivesWhole service.cipher.activeKeyId
      (rechunk [pieces.flatten] downloadChunkBytes) := by
  have hsize : 0 < downloadChunkBytes := by decide
  have hflatten : (rechunk [pieces.flatten] downloadChunkBytes).flatten =
      pieces.flatten := by
    rw [rechunk_flatten hsize, List.flatten_singleton]
  obtain ⟨dataKey, header, frames, -, hheader, -, hbytes, hlength, -⟩ :=
    DocumentCipher.sealStream_parts hsealed hflatten
  obtain ⟨hpos, hmax, -⟩ := DocumentHeader.toBytes_ok hheader
  simp only at hpos hmax
  obtain ⟨full, last, hcut, hfull, hlast⟩ :=
    rechunk_sizes hsize [pieces.flatten]
  have htotal := congrArg List.length hbytes
  rw [List.length_append, hlength] at htotal
  have hcut : rechunk [pieces.flatten] downloadChunkBytes =
      full ++ [last] := by
    rcases hcut with hcut | ⟨hnone, -, -⟩
    · exact hcut
    · rw [hnone] at htotal
      simp only [List.flatten_nil, List.length_nil,
        headerPrefixSize] at htotal
      omega
  unfold DocumentCipher.HeaderArrivesWhole
  rw [hcut] at htotal ⊢
  unfold headerPrefixSize saltBytes headerSuffixSize at htotal ⊢
  unfold maxKeyIdBytes at hmax
  cases full with
  | nil =>
      -- the whole object is one block
      simp only [List.nil_append, List.flatten_singleton] at htotal
      rw [List.nil_append, firstReaching]
      split
      · simp only [List.nil_append, firstReaching]
        omega
      · rw [List.nil_append]
        omega
  | cons block full =>
      have hblock := hfull block List.mem_cons_self
      unfold downloadChunkBytes at hblock
      rw [List.cons_append, firstReaching, if_neg, List.nil_append]
      · omega
      · rw [List.nil_append, hblock]
        decide

/-- A stored row with the object of its upload is read whole. -/
theorem read_ok {row : DocumentRow} {world : DocumentWorld}
    {measured : Measuring} {object : Bytes}
    (hrow : RowOf service request admitted row)
    (hstored : row.status = .stored)
    (hreceive : service.receive request admitted = .ok (measured, object))
    (hobject : world.objects.get? request.storageKey = some object) :
    ∃ pieces, service.read row world = (pieces, .ok ()) ∧
      pieces.flatten = request.source.flatten := by
  obtain ⟨-, -, sealed, hsealed, rfl⟩ := received hreceive
  obtain ⟨hsize, hsum⟩ := hrow.stored hstored
  have hopens := DocumentCipher.openStream_of_whole hsealed
    (by rw [rechunk_flatten (by decide), List.flatten_singleton])
    (headerArrivesWhole_download hsealed)
  have hflatten := DocumentCipher.bodyChunks_flatten
    service.cipher.chunkBytes_bounded.1 request.source
  refine ⟨_, ?_, hflatten⟩
  unfold read
  rw [hrow.storageKey_eq, hobject]
  simp only
  rw [hrow.identity_eq, hopens]
  simp only
  rw [hflatten, hsize, hsum, if_neg]
  unfold checksum
  simp only [ne_eq, not_true_eq_false, or_self, not_false_eq_true]

/-- A stored row of an upload is found, with the upload's name. -/
theorem locate_of_stored {rows : List DocumentRow} {row : DocumentRow}
    (hprepare : service.prepare request = .ok admitted)
    (hrow : RowOf service request admitted row)
    (hstored : row.status = .stored)
    (hget : DocumentRepository.get rows request.ref = some row) :
    service.locate rows request.ref = .ok (row, admitted.safeName) := by
  unfold locate
  rw [hget]
  simp only
  rw [if_neg (not_not.mpr hstored), hrow.identity_eq, hrow.filename_eq,
    prepare_opens hprepare]
  simp only
  rw [decodeUtf8_encodeUtf8]

-- ==================================================== origins

section Origins

variable {ι : Type}

/-- The request is that of an upload, and was admitted. -/
structure Uploaded (service : DocumentService) (ops : ι → DocumentOp)
    (request : UploadRequest) (admitted : Admitted) : Prop where
  listed : ∃ j, ops j = .store request
  prepared : service.prepare request = .ok admitted

/-- What a retrieval may be answered. -/
inductive AnswerFrom (service : DocumentService) (ops : ι → DocumentOp)
    (ref : DocumentRef) : Except Exn Answer → Prop
  | unknown :
      AnswerFrom service ops ref (.error (documentNotFound "no_such_document"))
  | unstored :
      AnswerFrom service ops ref
        (.error (documentNotFound "document_not_stored"))
  | whole (row : DocumentRow) (request : UploadRequest) (admitted : Admitted)
      (pieces : List Bytes) (href : request.ref = ref)
      (huploaded : Uploaded service ops request admitted)
      (hrow : RowOf service request admitted row)
      (hstored : row.status = .stored)
      (hbody : pieces.flatten = request.source.flatten) :
      AnswerFrom service ops ref
        (.ok (.opened (toMetadata row) admitted.safeName pieces (.ok ())))
  | missing (row : DocumentRow) (request : UploadRequest)
      (admitted : Admitted) (href : request.ref = ref)
      (huploaded : Uploaded service ops request admitted)
      (hrow : RowOf service request admitted row)
      (hstored : row.status = .stored) :
      AnswerFrom service ops ref
        (.ok (.opened (toMetadata row) admitted.safeName []
          (.error (documentNotFound "object_missing"))))

/-- Where what a task knows comes from. -/
def TaskFrom (service : DocumentService) (ops : ι → DocumentOp) :
    DocumentTask → Prop
  | .putting request admitted => Uploaded service ops request admitted
  | .marking request admitted byteSize sha256Hex =>
      Uploaded service ops request admitted ∧
        byteSize = request.source.flatten.length ∧
        sha256Hex = service.checksum request
  | .erasing ref storageKey =>
      ∃ request admitted, Uploaded service ops request admitted ∧
        request.ref = ref ∧ request.storageKey = storageKey
  | .reading row filename =>
      row.status = .stored ∧ ∃ request admitted,
        Uploaded service ops request admitted ∧
        RowOf service request admitted row ∧ filename = admitted.safeName
  | .done (.retrieve ref) outcome => AnswerFrom service ops ref outcome
  | _ => True

/-- Where everything that is there comes from. -/
structure Sourced (service : DocumentService) (ops : ι → DocumentOp)
    (s : DocumentSystem ι) : Prop where
  ops_eq : ∀ i, (s.tasks i).op = ops i
  rows_from : ∀ row ∈ s.world.rows, ∃ request admitted,
    Uploaded service ops request admitted ∧ RowOf service request admitted row
  objects_from : ∀ key object, s.world.objects.get? key = some object →
    ∃ request admitted measured, Uploaded service ops request admitted ∧
      request.storageKey = key ∧
      service.receive request admitted = .ok (measured, object)
  tasks_from : ∀ i, TaskFrom service ops (s.tasks i)

variable {ops : ι → DocumentOp} {s : DocumentSystem ι}

/-- A document has one upload, and so has an object. -/
theorem upload_unique (hdraws : DrawsApart ops) {other : UploadRequest}
    {j j' : ι} (hj : ops j = .store request) (hj' : ops j' = .store other)
    (hsame : request.ref = other.ref ∨
      request.storageKey = other.storageKey) : j = j' ∧ request = other := by
  have hdrawn : request.documentId = other.documentId ∨
      request.tokenId = other.tokenId :=
    hsame.imp (congrArg DocumentRef.documentId) storageKey_inj.mp
  cases hdraws j j' request other hj hj' hdrawn
  rw [hj] at hj'
  cases hj'
  exact ⟨rfl, rfl⟩

theorem Uploaded.unique (hdraws : DrawsApart ops) {other : UploadRequest}
    {others : Admitted} (h : Uploaded service ops request admitted)
    (h' : Uploaded service ops other others)
    (hsame : request.ref = other.ref ∨
      request.storageKey = other.storageKey) :
    request = other ∧ admitted = others := by
  obtain ⟨j, hj⟩ := h.listed
  obtain ⟨j', hj'⟩ := h'.listed
  obtain ⟨-, rfl⟩ := upload_unique hdraws hj hj' hsame
  have hprepared := h.prepared
  rw [h'.prepared] at hprepared
  cases hprepared
  exact ⟨rfl, rfl⟩

theorem sourced_start (service : DocumentService) (ops : ι → DocumentOp) :
    Sourced service ops (DocumentSystem.start ops) where
  ops_eq _ := rfl
  rows_from _ hrow := nomatch hrow
  objects_from _ _ hobject := nomatch hobject
  tasks_from _ := trivial

/-- What is located is a stored row of an upload, with its name. -/
theorem Sourced.located (h : Sourced service ops s) {ref : DocumentRef} :
    (∃ row request admitted, service.locate s.world.rows ref =
        .ok (row, admitted.safeName) ∧ row ∈ s.world.rows ∧
        row.ref = ref ∧ row.status = .stored ∧
        Uploaded service ops request admitted ∧
        RowOf service request admitted row) ∨
      (∃ row ∈ s.world.rows, row.ref = ref ∧ row.status ≠ .stored ∧
        service.locate s.world.rows ref =
          .error (documentNotFound "document_not_stored")) ∨
      ((∀ row ∈ s.world.rows, row.ref ≠ ref) ∧
        service.locate s.world.rows ref =
          .error (documentNotFound "no_such_document")) := by
  cases hget : DocumentRepository.get s.world.rows ref with
  | none =>
      refine Or.inr (Or.inr ⟨?_, by unfold locate; rw [hget]⟩)
      intro row hrow href
      unfold DocumentRepository.get at hget
      have hnone := List.find?_eq_none.mp hget row hrow
      rw [href] at hnone
      exact hnone (decide_eq_true rfl)
  | some row =>
      obtain ⟨hrow, rfl⟩ := DocumentRepository.get_ok hget
      by_cases hstored : row.status = .stored
      · obtain ⟨request, admitted, huploaded, hrowOf⟩ :=
          h.rows_from row hrow
        refine Or.inl ⟨row, request, admitted, ?_, hrow, rfl, hstored,
          huploaded, hrowOf⟩
        rw [hrowOf.ref_eq] at hget ⊢
        exact locate_of_stored huploaded.prepared hrowOf hstored hget
      · refine Or.inr (Or.inl ⟨row, hrow, rfl, hstored, ?_⟩)
        unfold locate
        rw [hget]
        exact if_pos hstored

/-- What a step does to the objects. -/
theorem objects_step (service : DocumentService) (task : DocumentTask)
    (world : DocumentWorld) :
    (service.step task world).2.objects = world.objects ∨
      (∃ key, (service.step task world).2.objects =
        world.objects.erase key) ∨
      ∃ request admitted measured object,
        task = .putting request admitted ∧
        service.receive request admitted = .ok (measured, object) ∧
        (service.step task world).2.objects =
          world.objects.set request.storageKey object := by
  cases task with
  | putting request admitted =>
      simp only [step]
      split
      · exact Or.inl rfl
      · rename_i measured object hreceive
        exact Or.inr (Or.inr ⟨request, admitted, measured, object, rfl,
          hreceive, rfl⟩)
  | abandoning request e => exact Or.inr (Or.inl ⟨_, rfl⟩)
  | erasing ref storageKey => exact Or.inr (Or.inl ⟨_, rfl⟩)
  | marking request admitted byteSize sha256Hex =>
      simp only [step, finish]
      split
      · exact Or.inl rfl
      · exact Or.inl rfl
  | ready op =>
      left
      cases op with
      | store request =>
          simp only [step]
          split
          · rfl
          · split <;> rfl
      | delete ref =>
          simp only [step]
          split <;> rfl
      | status ref =>
          simp only [step]
          split <;> rfl
      | retrieve ref =>
          simp only [step]
          split <;> rfl
  | failing request e => exact Or.inl rfl
  | removing ref => exact Or.inl rfl
  | reading row filename => exact Or.inl rfl
  | done op outcome => exact Or.inl rfl

/-- A body is read whole, unless its object is gone. -/
theorem Sourced.reads (hdraws : DrawsApart ops) (h : Sourced service ops s)
    {row : DocumentRow} (huploaded : Uploaded service ops request admitted)
    (hrow : RowOf service request admitted row)
    (hstored : row.status = .stored) :
    (s.world.objects.get? request.storageKey = none ∧
      service.read row s.world =
        ([], .error (documentNotFound "object_missing"))) ∨
      ∃ pieces, service.read row s.world = (pieces, .ok ()) ∧
        pieces.flatten = request.source.flatten := by
  cases hobject : s.world.objects.get? request.storageKey with
  | none =>
      refine Or.inl ⟨rfl, ?_⟩
      unfold read
      rw [hrow.storageKey_eq, hobject]
  | some object =>
      obtain ⟨other, others, measured, hother, hkey, hreceive⟩ :=
        h.objects_from _ _ hobject
      obtain ⟨rfl, rfl⟩ := huploaded.unique hdraws hother (Or.inr hkey.symm)
      exact Or.inr (read_ok hrow hstored hreceive hobject)

/-- What the next task knows has an origin too. -/
theorem Sourced.task_step (hdraws : DrawsApart ops)
    (h : Sourced service ops s) (i : ι) :
    TaskFrom service ops (service.step (s.tasks i) s.world).1 := by
  have hop := h.ops_eq i
  have hfrom := h.tasks_from i
  cases htask : s.tasks i with
  | ready op =>
      rw [htask] at hop
      cases op with
      | store request =>
          simp only [step]
          split
          · trivial
          · rename_i admitted hprepare
            split
            · trivial
            · exact ⟨⟨i, hop.symm⟩, hprepare⟩
      | delete ref =>
          simp only [step]
          split
          · trivial
          · rename_i row hget
            obtain ⟨hmem, rfl⟩ := DocumentRepository.get_ok hget
            obtain ⟨request, admitted, huploaded, hrow⟩ :=
              h.rows_from row hmem
            exact ⟨request, admitted, huploaded, hrow.ref_eq.symm,
              hrow.storageKey_eq.symm⟩
      | status ref =>
          simp only [step]
          split
          · trivial
          · trivial
      | retrieve ref =>
          simp only [step]
          rcases h.located with
            ⟨row, request, admitted, hlocate, -, -, hstored, huploaded,
              hrow⟩ | ⟨row, -, -, -, hlocate⟩ | ⟨-, hlocate⟩
          · rw [hlocate]
            exact ⟨hstored, request, admitted, huploaded, hrow, rfl⟩
          · rw [hlocate]
            exact .unstored
          · rw [hlocate]
            exact .unknown
  | putting request admitted =>
      rw [htask] at hfrom
      simp only [step]
      split
      · trivial
      · rename_i measured object hreceive
        obtain ⟨htotal, hdigest, -⟩ := received hreceive
        exact ⟨hfrom, htotal, hdigest⟩
  | marking request admitted byteSize sha256Hex => trivial
  | abandoning request e => trivial
  | failing request e => trivial
  | erasing ref storageKey => trivial
  | removing ref => trivial
  | reading row filename =>
      rw [htask] at hfrom
      obtain ⟨hstored, request, admitted, huploaded, hrow, rfl⟩ := hfrom
      show AnswerFrom service ops row.ref (.ok (.opened (toMetadata row) _
        (service.read row s.world).1 (service.read row s.world).2))
      rcases h.reads hdraws huploaded hrow hstored with
        ⟨-, hread⟩ | ⟨pieces, hread, hbody⟩
      · rw [hread]
        exact .missing row request admitted hrow.ref_eq.symm huploaded hrow
          hstored
      · rw [hread]
        exact .whole row request admitted pieces hrow.ref_eq.symm huploaded
          hrow hstored hbody
  | done op outcome =>
      rw [htask] at hfrom
      exact hfrom

/-- A row keeps its origin through a change that keeps its columns. -/
theorem RowOf.failed {row : DocumentRow}
    (h : RowOf service request admitted row) :
    RowOf service request admitted { row with status := .failed } where
  ref_eq := h.ref_eq
  storageKey_eq := h.storageKey_eq
  filename_eq := h.filename_eq
  contentType_eq := h.contentType_eq
  stored hstored := nomatch hstored

theorem RowOf.marked {row : DocumentRow}
    (h : RowOf service request admitted row) :
    RowOf service request admitted { row with
      byteSize := request.source.flatten.length
      sha256Hex := service.checksum request
      status := .stored } where
  ref_eq := h.ref_eq
  storageKey_eq := h.storageKey_eq
  filename_eq := h.filename_eq
  contentType_eq := h.contentType_eq
  stored _ := ⟨rfl, rfl⟩

/-- The rows after a step have an origin too. -/
theorem Sourced.rows_step (hdraws : DrawsApart ops)
    (h : Sourced service ops s) (i : ι) :
    ∀ row ∈ (service.step (s.tasks i) s.world).2.rows,
      ∃ request admitted, Uploaded service ops request admitted ∧
        RowOf service request admitted row := by
  have hnext := h.task_step hdraws i
  have hfrom := h.tasks_from i
  have hstep := step_to service (s.tasks i) s.world
  generalize s.tasks i = task at hnext hfrom hstep
  generalize hworld : s.world = world at hnext hstep
  have hrows := h.rows_from
  rw [hworld] at hrows
  generalize service.step task world = result at hnext hstep
  obtain ⟨task', world'⟩ := result
  simp only at hnext hstep ⊢
  intro row hrow
  cases hstep with
  | begins request admitted =>
      rcases List.mem_append.mp hrow with hrow | hrow
      · exact hrows row hrow
      · rw [List.mem_singleton] at hrow
        subst hrow
        exact ⟨request, admitted, hnext, rfl, rfl, rfl, rfl,
          fun hstored => nomatch hstored⟩
  | marks request admitted byteSize sha256Hex outcome =>
      obtain ⟨huploaded, rfl, rfl⟩ := hfrom
      obtain ⟨old, hold, rfl⟩ := DocumentRepository.mem_update.mp hrow
      obtain ⟨other, others, hother, hrowOf⟩ := hrows old hold
      by_cases href : old.ref = request.ref
      · rw [if_pos href]
        rw [hrowOf.ref_eq] at href
        obtain ⟨rfl, rfl⟩ := hother.unique hdraws huploaded (Or.inl href)
        exact ⟨_, _, huploaded, hrowOf.marked⟩
      · rw [if_neg href]
        exact ⟨other, others, hother, hrowOf⟩
  | fails request e outcome =>
      obtain ⟨old, hold, rfl⟩ := DocumentRepository.mem_update.mp hrow
      obtain ⟨other, others, hother, hrowOf⟩ := hrows old hold
      by_cases href : old.ref = request.ref
      · rw [if_pos href]
        exact ⟨other, others, hother, hrowOf.failed⟩
      · rw [if_neg href]
        exact ⟨other, others, hother, hrowOf⟩
  | removes ref outcome =>
      exact hrows row (DocumentRepository.mem_delete.mp hrow).1
  | ends task world outcome hidle => exact hrows row hrow
  | puts request admitted byteSize sha256Hex object =>
      exact hrows row hrow
  | refuses request admitted e => exact hrows row hrow
  | sweeps request e => exact hrows row hrow
  | finds found world hfound => exact hrows row hrow
  | erases ref storageKey => exact hrows row hrow
  | locates found filename => exact hrows row hrow

/-- The objects after a step have an origin too. -/
theorem Sourced.objects_step (h : Sourced service ops s) (i : ι)
    {key : Text} {object : Bytes}
    (hobject : (service.step (s.tasks i) s.world).2.objects.get? key =
      some object) :
    ∃ request admitted measured, Uploaded service ops request admitted ∧
      request.storageKey = key ∧
      service.receive request admitted = .ok (measured, object) := by
  rcases DocumentService.objects_step service (s.tasks i) s.world with
    hsame | ⟨other, herased⟩ | ⟨request, admitted, measured, body, htask,
      hreceive, hset⟩
  · rw [hsame] at hobject
    exact h.objects_from key object hobject
  · rw [herased] at hobject
    exact h.objects_from key object (Dict.get?_of_erase hobject)
  · rw [hset, Dict.get?_set] at hobject
    have hfrom := h.tasks_from i
    rw [htask] at hfrom
    split at hobject
    · rename_i hkey
      cases hobject
      exact ⟨request, admitted, measured, hfrom, hkey, hreceive⟩
    · exact h.objects_from key object hobject

/-- Every step keeps the origins. -/
theorem Sourced.step [DecidableEq ι] (hdraws : DrawsApart ops)
    (h : Sourced service ops s) (i : ι) :
    Sourced service ops (service.systemStep s i) where
  ops_eq j := by
    by_cases hj : j = i
    · subst hj
      show (Function.update s.tasks j _ j).op = ops j
      rw [Function.update_self,
        (step_to service (s.tasks j) s.world).op_eq, h.ops_eq]
    · show (Function.update s.tasks i _ j).op = ops j
      rw [Function.update_of_ne hj, h.ops_eq]
  rows_from := h.rows_step hdraws i
  objects_from _ _ := h.objects_step i
  tasks_from j := by
    by_cases hj : j = i
    · subst hj
      show TaskFrom service ops (Function.update s.tasks j _ j)
      rw [Function.update_self]
      exact h.task_step hdraws j
    · show TaskFrom service ops (Function.update s.tasks i _ j)
      rw [Function.update_of_ne hj]
      exact h.tasks_from j

end Origins

-- ==================================================== what is upheld

section Upheld

variable {ι : Type} {ops : ι → DocumentOp} {s : DocumentSystem ι} {i j : ι}

/-- A deletion of the document has begun. -/
def DeletionBegun (s : DocumentSystem ι) (ref : DocumentRef) : Prop :=
  ∃ k, (s.tasks k).op = .delete ref ∧ (s.tasks k).Begun

theorem DeletionBegun.step [DecidableEq ι] {ref : DocumentRef}
    (h : DeletionBegun s ref) (i : ι) :
    DeletionBegun (service.systemStep s i) ref := by
  obtain ⟨k, hop, hbegun⟩ := h
  have hstep := step_to service (s.tasks i) s.world
  refine ⟨k, ?_⟩
  show (Function.update s.tasks i _ k).op = .delete ref ∧
    (Function.update s.tasks i _ k).Begun
  by_cases hk : k = i
  · subst hk
    rw [Function.update_self]
    exact ⟨by rw [hstep.op_eq, hop], hstep.begun⟩
  · rw [Function.update_of_ne hk]
    exact ⟨hop, hbegun⟩

/-- The document has a row. -/
def Rowed (s : DocumentSystem ι) (ref : DocumentRef) : Prop :=
  ∃ row ∈ s.world.rows, row.ref = ref

/-- What there is of an upload that has come so far. -/
def Reached (s : DocumentSystem ι) (request : UploadRequest) :
    DocumentTask → Prop
  | .putting _ _ => Rowed s request.ref
  | .marking _ _ _ _ =>
      Rowed s request.ref ∧
        s.world.objects.get? request.storageKey ≠ none
  | .done _ (.ok _) =>
      Rowed s request.ref ∧
        (∀ row ∈ s.world.rows, row.ref = request.ref →
          row.status = .stored) ∧
        s.world.objects.get? request.storageKey ≠ none
  | _ => True

/-- The upload is there as far as it has come, or its document is being
deleted; and no row says stored before the upload has succeeded. -/
structure Upheld (s : DocumentSystem ι) (j : ι) (request : UploadRequest) :
    Prop where
  stored : ∀ row ∈ s.world.rows, row.ref = request.ref →
    row.status = .stored → ∃ answer, s.tasks j =
      .done (.store request) (.ok answer)
  reached : DeletionBegun s request.ref ∨ Reached s request (s.tasks j)

/-- What another operation does to a document's rows and object: nothing,
unless it deletes the document. -/
theorem Sourced.others_step (hdraws : DrawsApart ops)
    (h : Sourced service ops s) (hj : ops j = .store request) (hne : i ≠ j) :
    (∀ row, row.ref = request.ref →
      row ∈ (service.step (s.tasks i) s.world).2.rows →
      row ∈ s.world.rows) ∧
    (DeletionBegun s request.ref ∨
      (∀ row ∈ s.world.rows, row.ref = request.ref →
        row ∈ (service.step (s.tasks i) s.world).2.rows) ∧
      (s.world.objects.get? request.storageKey ≠ none →
        (service.step (s.tasks i) s.world).2.objects.get?
          request.storageKey ≠ none)) := by
  have hop := h.ops_eq i
  have hfrom := h.tasks_from i
  have hdeleting : ∀ task, s.tasks i = task → ∀ ref, task.op = .delete ref →
      task.Begun → ref = request.ref → DeletionBegun s request.ref := by
    rintro task rfl ref hdelete hbegun rfl
    exact ⟨i, hdelete, hbegun⟩
  have hstep := step_to service (s.tasks i) s.world
  -- the uploads that move are of other documents
  have hapart : ∀ {other}, ops i = .store other →
      other.ref ≠ request.ref ∧ other.storageKey ≠ request.storageKey := by
    intro other hother
    constructor
    · exact fun hsame => hne (upload_unique hdraws hother hj
        (Or.inl hsame)).1
    · exact fun hsame => hne (upload_unique hdraws hother hj
        (Or.inr hsame)).1
  have hupdate : ∀ {other : UploadRequest} {change row},
      other.ref ≠ request.ref → row.ref = request.ref →
      row ∈ s.world.rows →
      row ∈ DocumentRepository.update s.world.rows other.ref change := by
    intro other change row href hrow hmem
    refine DocumentRepository.mem_update.mpr ⟨row, hmem, ?_⟩
    rw [if_neg]
    rw [hrow]
    exact fun hsame => href hsame.symm
  have hback : ∀ {other : UploadRequest} {change row},
      row ∈ DocumentRepository.update s.world.rows other.ref change →
      (∀ row : DocumentRow, (change row).ref = row.ref) →
      other.ref ≠ request.ref → row.ref = request.ref →
      row ∈ s.world.rows := by
    intro other change row hmem hkeeps href hrow
    obtain ⟨old, hold, rfl⟩ := DocumentRepository.mem_update.mp hmem
    by_cases hsame : old.ref = other.ref
    · rw [if_pos hsame, hkeeps, hsame] at hrow
      exact absurd hrow href
    · rw [if_neg hsame]
      exact hold
  generalize htask : s.tasks i = task at *
  generalize hworld : s.world = world at *
  generalize service.step task world = result at hstep ⊢
  obtain ⟨task', world'⟩ := result
  simp only at hstep ⊢
  cases hstep with
  | begins other admitted =>
      obtain ⟨href, -⟩ := hapart hop.symm
      refine ⟨fun row hrow hmem => ?_, Or.inr ⟨fun row hmem _ =>
        List.mem_append_left _ hmem, id⟩⟩
      rcases List.mem_append.mp hmem with hmem | hmem
      · exact hmem
      · rw [List.mem_singleton.mp hmem] at hrow
        exact absurd hrow href
  | puts other admitted byteSize sha256Hex object =>
      obtain ⟨-, hkey⟩ := hapart hop.symm
      refine ⟨fun _ _ hmem => hmem, Or.inr ⟨fun _ hmem _ => hmem, ?_⟩⟩
      rw [Dict.get?_set_ne _ _ hkey]
      exact id
  | marks other admitted byteSize sha256Hex outcome =>
      obtain ⟨href, -⟩ := hapart hop.symm
      exact ⟨fun row hrow hmem => hback hmem (fun _ => rfl) href hrow,
        Or.inr ⟨fun row hmem hrow => hupdate href hrow hmem, id⟩⟩
  | sweeps other e =>
      obtain ⟨-, hkey⟩ := hapart hop.symm
      refine ⟨fun _ _ hmem => hmem, Or.inr ⟨fun _ hmem _ => hmem, ?_⟩⟩
      rw [Dict.get?_erase, if_neg hkey]
      exact id
  | fails other e outcome =>
      obtain ⟨href, -⟩ := hapart hop.symm
      exact ⟨fun row hrow hmem => hback hmem (fun _ => rfl) href hrow,
        Or.inr ⟨fun row hmem hrow => hupdate href hrow hmem, id⟩⟩
  | erases ref storageKey =>
      refine ⟨fun _ _ hmem => hmem, ?_⟩
      by_cases hkey : storageKey = request.storageKey
      · obtain ⟨other, others, huploaded, rfl, hother⟩ := hfrom
        obtain ⟨j', hj'⟩ := huploaded.listed
        obtain ⟨-, rfl⟩ := upload_unique hdraws hj' hj
          (Or.inr (hother.trans hkey))
        exact Or.inl (hdeleting _ rfl _ rfl (by simp [DocumentTask.Begun]) rfl)
      · refine Or.inr ⟨fun _ hmem _ => hmem, ?_⟩
        rw [Dict.get?_erase, if_neg hkey]
        exact id
  | removes ref outcome =>
      refine ⟨fun row _ hmem =>
        (DocumentRepository.mem_delete.mp hmem).1, ?_⟩
      by_cases href : ref = request.ref
      · exact Or.inl (hdeleting _ rfl _ rfl (by simp [DocumentTask.Begun])
          href)
      · refine Or.inr ⟨fun row hmem hrow => ?_, id⟩
        refine DocumentRepository.mem_delete.mpr ⟨hmem, ?_⟩
        rw [hrow]
        exact fun hsame => href hsame.symm
  | ends task world outcome hidle =>
      exact ⟨fun _ _ hmem => hmem, Or.inr ⟨fun _ hmem _ => hmem, id⟩⟩
  | refuses other admitted e =>
      exact ⟨fun _ _ hmem => hmem, Or.inr ⟨fun _ hmem _ => hmem, id⟩⟩
  | finds found world hfound =>
      exact ⟨fun _ _ hmem => hmem, Or.inr ⟨fun _ hmem _ => hmem, id⟩⟩
  | locates found filename =>
      exact ⟨fun _ _ hmem => hmem, Or.inr ⟨fun _ hmem _ => hmem, id⟩⟩

theorem upheld_start (request : UploadRequest) (j : ι) :
    Upheld (DocumentSystem.start ops) j request where
  stored _ hmem := nomatch hmem
  reached := Or.inr trivial

variable [DecidableEq ι]

/-- Another operation leaves the upload upheld. -/
theorem Upheld.others (hdraws : DrawsApart ops) (h : Sourced service ops s)
    (hj : ops j = .store request) (hne : i ≠ j)
    (hupheld : Upheld s j request) :
    Upheld (service.systemStep s i) j request := by
  obtain ⟨hback, hforth⟩ := h.others_step hdraws hj hne
  have htask : (service.systemStep s i).tasks j = s.tasks j :=
    Function.update_of_ne hne.symm _ _
  constructor
  · intro row hmem hrow hstored
    rw [htask]
    exact hupheld.stored row (hback row hrow hmem) hrow hstored
  · rcases hforth with hbegun | ⟨hrows, hobject⟩
    · exact Or.inl (hbegun.step i)
    · refine hupheld.reached.imp (fun hbegun => hbegun.step i)
        (fun hreached => ?_)
      have hrowed : Rowed s request.ref →
          Rowed (service.systemStep s i) request.ref := by
        rintro ⟨row, hmem, hrow⟩
        exact ⟨row, hrows row hmem hrow, hrow⟩
      rw [htask]
      cases htask : s.tasks j with
      | putting other admitted =>
          rw [htask] at hreached
          exact hrowed hreached
      | marking other admitted byteSize sha256Hex =>
          rw [htask] at hreached
          exact ⟨hrowed hreached.1, hobject hreached.2⟩
      | done op outcome =>
          rw [htask] at hreached
          cases outcome with
          | error e => trivial
          | ok answer =>
              obtain ⟨hrow, hall, hthere⟩ := hreached
              exact ⟨hrowed hrow, fun row hmem href =>
                hall row (hback row href hmem) href, hobject hthere⟩
      | _ => trivial

/-- The upload's own step, from the task it is at. -/
theorem Upheld.own (hop : (s.tasks j).op = .store request)
    (hupheld : Upheld s j request) :
    Upheld (service.systemStep s j) j request := by
  have hself : (service.systemStep s j).tasks j =
      (service.step (s.tasks j) s.world).1 := Function.update_self ..
  have hworld : (service.systemStep s j).world =
      (service.step (s.tasks j) s.world).2 := rfl
  have hbegun : DeletionBegun s request.ref →
      DeletionBegun (service.systemStep s j) request.ref :=
    fun h => h.step j
  generalize service.systemStep s j = t at hself hworld hbegun ⊢
  obtain ⟨hstored, hreached⟩ := hupheld
  -- rows that were not stored before, in a step that stores none
  have hquiet : (∀ answer, s.tasks j ≠ .done (.store request)
        (.ok answer)) → t.world.rows = s.world.rows →
      DeletionBegun t request.ref ∨ Reached t request (t.tasks j) →
      Upheld t j request := by
    intro hunfinished hrows hnext
    refine ⟨fun row hmem hrow hsays => ?_, hnext⟩
    rw [hrows] at hmem
    obtain ⟨answer, hanswer⟩ := hstored row hmem hrow hsays
    exact absurd hanswer (hunfinished answer)
  cases htask : s.tasks j with
  | ready op =>
      rw [htask] at hop hself hworld hquiet hstored
      cases (show op = .store request from hop)
      simp only [step] at hself hworld
      cases hprepare : service.prepare request with
      | error e =>
          rw [hprepare] at hself hworld
          refine hquiet (by simp) (by rw [hworld]) (Or.inr ?_)
          rw [hself]
          trivial
      | ok admitted =>
          simp only [hprepare] at hself hworld
          cases hcreate : DocumentRepository.create s.world.rows
              (request.row admitted) with
          | error e =>
              rw [hcreate] at hself hworld
              refine hquiet (by simp) (by rw [hworld]) (Or.inr ?_)
              rw [hself]
              trivial
          | ok rows =>
              rw [hcreate] at hself hworld
              have hrows : t.world.rows =
                  s.world.rows ++ [request.row admitted] := by
                rw [hworld, ← DocumentRepository.create_ok hcreate]
              constructor
              · intro row hmem hrow hsays
                rw [hrows] at hmem
                rcases List.mem_append.mp hmem with hmem | hmem
                · obtain ⟨answer, hanswer⟩ := hstored row hmem hrow hsays
                  cases hanswer
                · rw [List.mem_singleton.mp hmem] at hsays
                  cases hsays
              · right
                rw [hself]
                refine ⟨request.row admitted, ?_, rfl⟩
                rw [hrows]
                exact List.mem_append_right _ (List.mem_singleton.mpr rfl)
  | putting other admitted =>
      rw [htask] at hop hself hworld hquiet hreached
      cases (show DocumentOp.store other = .store request from hop)
      simp only [step] at hself hworld
      cases hreceive : service.receive request admitted with
      | error e =>
          rw [hreceive] at hself hworld
          refine hquiet (by simp) (by rw [hworld]) (Or.inr ?_)
          rw [hself]
          trivial
      | ok found =>
          obtain ⟨measured, object⟩ := found
          simp only [hreceive] at hself hworld
          refine hquiet (by simp) (by rw [hworld]) (hreached.imp hbegun ?_)
          rintro ⟨row, hmem, hrow⟩
          rw [hself]
          refine ⟨⟨row, ?_, hrow⟩, ?_⟩
          · rw [hworld]
            exact hmem
          · rw [hworld]
            simp only [Dict.get?_set_self]
            exact Option.some_ne_none _
  | marking other admitted byteSize sha256Hex =>
      rw [htask] at hop hself hworld hreached
      cases (show DocumentOp.store other = .store request from hop)
      simp only [step, finish] at hself hworld
      have hmarked : ∀ row ∈ DocumentRepository.markStored s.world.rows
          request.ref byteSize sha256Hex, row.ref = request.ref →
            row.status = .stored := by
        intro row hmem hrow
        obtain ⟨old, -, rfl⟩ := DocumentRepository.mem_update.mp hmem
        split
        · rfl
        · rename_i hother
          rw [if_neg hother] at hrow
          exact absurd hrow hother
      cases hget : DocumentRepository.get (DocumentRepository.markStored
          s.world.rows request.ref byteSize sha256Hex) request.ref with
      | none =>
          rw [hget] at hself hworld
          refine ⟨fun row hmem hrow _ => ?_, Or.inr ?_⟩
          · rw [hworld] at hmem
            unfold DocumentRepository.get at hget
            have hnone := List.find?_eq_none.mp hget row hmem
            exact absurd (decide_eq_true hrow) hnone
          · rw [hself]
            trivial
      | some row =>
          simp only [hget] at hself hworld
          obtain ⟨hmem, hrow⟩ := DocumentRepository.get_ok hget
          refine ⟨fun _ _ _ _ => ⟨_, hself⟩, hreached.imp hbegun ?_⟩
          rintro ⟨-, hobject⟩
          rw [hself]
          refine ⟨⟨row, ?_, hrow⟩, ?_, ?_⟩
          · rw [hworld]
            exact hmem
          · rw [hworld]
            exact hmarked
          · rw [hworld]
            exact hobject
  | abandoning other e =>
      rw [htask] at hself hworld hquiet
      refine hquiet (by simp) (by rw [hworld]; rfl) (Or.inr ?_)
      rw [hself]
      trivial
  | failing other e =>
      rw [htask] at hop hself hworld
      cases (show DocumentOp.store other = .store request from hop)
      refine ⟨fun row hmem hrow hsays => ?_, Or.inr ?_⟩
      · rw [hworld] at hmem
        obtain ⟨old, -, rfl⟩ := DocumentRepository.mem_update.mp hmem
        split at hsays
        · cases hsays
        · rename_i hother
          rw [if_neg hother] at hrow
          exact absurd hrow hother
      · rw [hself]
        trivial
  | done op outcome =>
      rw [htask] at hself hworld hstored hreached
      refine ⟨fun row hmem hrow hsays => ?_, hreached.imp hbegun ?_⟩
      · rw [hworld] at hmem
        rw [hself]
        exact hstored row hmem hrow hsays
      · rw [hself]
        intro hbefore
        unfold Reached Rowed at hbefore ⊢
        rw [hworld]
        exact hbefore
  | erasing ref storageKey =>
      rw [htask] at hop
      cases hop
  | removing ref =>
      rw [htask] at hop
      cases hop
  | reading row filename =>
      rw [htask] at hop
      cases hop

theorem Upheld.step (hdraws : DrawsApart ops) (h : Sourced service ops s)
    (hj : ops j = .store request) (hupheld : Upheld s j request) (i : ι) :
    Upheld (service.systemStep s i) j request := by
  by_cases hne : i = j
  · subst hne
    exact hupheld.own (by rw [h.ops_eq, hj])
  · exact hupheld.others hdraws h hj hne

end Upheld

-- ==================================================== runs

section Runs

variable {ι : Type} {ops : ι → DocumentOp} {s : DocumentSystem ι} {i : ι}

/-- What every step of every operation preserves. -/
structure Faithful (service : DocumentService) (ops : ι → DocumentOp)
    (s : DocumentSystem ι) : Prop where
  sourced : Sourced service ops s
  upheld : ∀ j request, ops j = .store request → Upheld s j request
  reading : ∀ i row filename, s.tasks i = .reading row filename →
    ∃ j request answer, ops j = .store request ∧ request.ref = row.ref ∧
      s.tasks j = .done (.store request) (.ok answer)
  missing : ∀ i ref metadata filename pieces e, s.tasks i =
      .done (.retrieve ref) (.ok (.opened metadata filename pieces
        (.error e))) → DeletionBegun s ref

theorem faithful_start (service : DocumentService)
    (ops : ι → DocumentOp) :
    Faithful service ops (DocumentSystem.start ops) where
  sourced := sourced_start service ops
  upheld j request _ := upheld_start request j
  reading _ _ _ htask := nomatch htask
  missing _ _ _ _ _ _ htask := nomatch htask

/-- The object of an upload that has succeeded is there, unless a deletion
of the document has begun. -/
theorem Faithful.succeeded (h : Faithful service ops s) {j : ι}
    {answer : Answer} (hj : ops j = .store request)
    (hdone : s.tasks j = .done (.store request) (.ok answer)) :
    DeletionBegun s request.ref ∨ Rowed s request.ref ∧
      (∀ row ∈ s.world.rows, row.ref = request.ref →
        row.status = .stored) ∧
      s.world.objects.get? request.storageKey ≠ none := by
  have hreached := (h.upheld j request hj).reached
  rw [hdone] at hreached
  exact hreached

/-- Only a retrieval that has found its document reads. -/
theorem step_reading {task : DocumentTask} {world : DocumentWorld}
    {row : DocumentRow} {filename : Text}
    (h : (service.step task world).1 = .reading row filename) :
    ∃ ref, task = .ready (.retrieve ref) ∧
      service.locate world.rows ref = .ok (row, filename) := by
  cases task with
  | ready op =>
      cases op with
      | retrieve ref =>
          simp only [DocumentService.step] at h
          split at h
          · cases h
          · rename_i hlocate
            cases h
            exact ⟨ref, rfl, hlocate⟩
      | store request =>
          simp only [DocumentService.step] at h
          split at h
          · cases h
          · split at h <;> cases h
      | delete ref =>
          simp only [DocumentService.step] at h
          split at h <;> cases h
      | status ref =>
          simp only [DocumentService.step] at h
          split at h <;> cases h
  | putting request admitted =>
      simp only [DocumentService.step] at h
      split at h <;> cases h
  | _ => cases h

/-- Only the reading of a document answers with a body. -/
theorem step_opened {task : DocumentTask} {world : DocumentWorld}
    {op : DocumentOp} {metadata : DocumentMetadata} {filename : Text}
    {pieces : List Bytes} {ended : Except Exn Unit}
    (h : (service.step task world).1 =
      .done op (.ok (.opened metadata filename pieces ended))) :
    task = .done op (.ok (.opened metadata filename pieces ended)) ∨
      ∃ row, task = .reading row filename ∧ op = .retrieve row.ref ∧
        service.read row world = (pieces, ended) := by
  cases task with
  | reading row name =>
      simp only [DocumentService.step] at h
      cases h
      exact Or.inr ⟨row, rfl, rfl, rfl⟩
  | done other outcome => exact Or.inl h
  | ready other =>
      cases other with
      | store request =>
          simp only [DocumentService.step] at h
          split at h
          · cases h
          · split at h <;> cases h
      | delete ref =>
          simp only [DocumentService.step] at h
          split at h <;> cases h
      | status ref =>
          simp only [DocumentService.step] at h
          split at h <;> cases h
      | retrieve ref =>
          simp only [DocumentService.step] at h
          split at h <;> cases h
  | putting request admitted =>
      simp only [DocumentService.step] at h
      split at h <;> cases h
  | marking request admitted byteSize sha256Hex =>
      simp only [DocumentService.step, finish] at h
      split at h <;> cases h
  | _ => cases h

/-- Whoever starts to read a document reads one whose upload succeeded. -/
theorem Faithful.reading_step (h : Faithful service ops s) (i : ι)
    {row : DocumentRow} {filename : Text}
    (hnext : (service.step (s.tasks i) s.world).1 = .reading row filename) :
    ∃ j request answer, ops j = .store request ∧ request.ref = row.ref ∧
      s.tasks j = .done (.store request) (.ok answer) := by
  obtain ⟨ref, -, hlocate⟩ := step_reading hnext
  rcases h.sourced.located with
    ⟨found, request, admitted, hfound, hmem, -, hstored, huploaded, hrow⟩ |
      ⟨found, -, -, -, hfound⟩ | ⟨-, hfound⟩
  · rw [hlocate] at hfound
    cases hfound
    obtain ⟨j, hj⟩ := huploaded.listed
    obtain ⟨answer, hanswer⟩ := (h.upheld j request hj).stored row hmem
      hrow.ref_eq hstored
    exact ⟨j, request, answer, hj, hrow.ref_eq.symm, hanswer⟩
  · rw [hlocate] at hfound
    cases hfound
  · rw [hlocate] at hfound
    cases hfound

/-- A body that is missing was deleted. -/
theorem Faithful.missing_step (hdraws : DrawsApart ops)
    (h : Faithful service ops s) (i : ι) {ref : DocumentRef}
    {metadata : DocumentMetadata} {filename : Text} {pieces : List Bytes}
    {e : Exn} (hnext : (service.step (s.tasks i) s.world).1 =
      .done (.retrieve ref) (.ok (.opened metadata filename pieces
        (.error e)))) : DeletionBegun s ref := by
  rcases step_opened hnext with hbefore | ⟨row, htask, href, hended⟩
  · exact h.missing i ref metadata filename pieces e hbefore
  · cases href
    obtain ⟨j, request, answer, hj, href, hdone⟩ :=
      h.reading i row filename htask
    have hfrom := h.sourced.tasks_from i
    rw [htask] at hfrom
    obtain ⟨hstored, other, admitted, huploaded, hrow, -⟩ := hfrom
    obtain ⟨j', hj'⟩ := huploaded.listed
    obtain ⟨-, rfl⟩ := upload_unique hdraws hj hj'
      (Or.inl (href.trans hrow.ref_eq))
    rw [hrow.ref_eq]
    rcases h.succeeded hj hdone with hbegun | ⟨-, -, hobject⟩
    · exact hbegun
    · rcases h.sourced.reads hdraws huploaded hrow hstored with
        ⟨hnone, -⟩ | ⟨pieces, hread, -⟩
      · exact absurd hnone hobject
      · rw [hread] at hended
        cases hended

/-- A retrieval of a document that was uploaded and is not deleted, as it
goes on: it has yet to start, it reads, or it was answered with a whole
body. -/
inductive Retrieving (ref : DocumentRef) : DocumentTask → Prop
  | ready : Retrieving ref (.ready (.retrieve ref))
  | reading (row : DocumentRow) (filename : Text) (href : row.ref = ref) :
      Retrieving ref (.reading row filename)
  | answered (metadata : DocumentMetadata) (filename : Text)
      (pieces : List Bytes) : Retrieving ref (.done (.retrieve ref)
        (.ok (.opened metadata filename pieces (.ok ()))))

theorem Faithful.retrieving_step (hdraws : DrawsApart ops)
    (h : Faithful service ops s) {j : ι} {answer : Answer}
    (hj : ops j = .store request)
    (hdone : s.tasks j = .done (.store request) (.ok answer))
    (htask : Retrieving request.ref (s.tasks i)) :
    DeletionBegun s request.ref ∨
      Retrieving request.ref (service.step (s.tasks i) s.world).1 := by
  rcases h.succeeded hj hdone with hbegun | ⟨⟨row, hmem, hrow⟩, hall,
    hobject⟩
  · exact Or.inl hbegun
  right
  generalize hat : s.tasks i = task at htask
  cases htask with
  | ready =>
      simp only [DocumentService.step]
      rcases h.sourced.located with
        ⟨found, other, admitted, hfound, -, href, -⟩ |
          ⟨found, hfound, href, hunstored, -⟩ | ⟨hnone, -⟩
      · rw [hfound]
        exact .reading found _ href
      · exact absurd (hall found hfound href) hunstored
      · exact absurd hrow (hnone row hmem)
  | reading row filename href =>
      have hfrom := h.sourced.tasks_from i
      rw [hat] at hfrom
      obtain ⟨hstored, other, admitted, huploaded, hrowOf, -⟩ := hfrom
      obtain ⟨j', hj'⟩ := huploaded.listed
      obtain ⟨-, rfl⟩ := upload_unique hdraws hj hj'
        (Or.inl (href.symm.trans hrowOf.ref_eq))
      simp only [DocumentService.step]
      rcases h.sourced.reads hdraws huploaded hrowOf hstored with
        ⟨hnone, -⟩ | ⟨pieces, hread, -⟩
      · exact absurd hnone hobject
      · rw [hread, href]
        exact .answered ..
  | answered metadata filename pieces => exact .answered ..

variable [DecidableEq ι]

theorem done_step {op : DocumentOp} {outcome : Except Exn Answer} {j : ι}
    (h : s.tasks j = .done op outcome) (i : ι) :
    (service.systemStep s i).tasks j = .done op outcome := by
  show Function.update s.tasks i _ j = _
  by_cases hj : j = i
  · subst hj
    rw [Function.update_self, h]
    rfl
  · rw [Function.update_of_ne hj, h]

/-- Every step preserves it. -/
theorem Faithful.step (hdraws : DrawsApart ops)
    (h : Faithful service ops s) (i : ι) :
    Faithful service ops (service.systemStep s i) where
  sourced := h.sourced.step hdraws i
  upheld j request hj := (h.upheld j request hj).step hdraws h.sourced hj i
  reading k row filename htask := by
    have hbefore : ∃ j request answer, ops j = .store request ∧
        request.ref = row.ref ∧
        s.tasks j = .done (.store request) (.ok answer) := by
      by_cases hk : k = i
      · subst hk
        exact h.reading_step k ((Function.update_self ..).symm.trans htask)
      · exact h.reading k row filename
          ((Function.update_of_ne hk ..).symm.trans htask)
    obtain ⟨j, request, answer, hj, href, hdone⟩ := hbefore
    exact ⟨j, request, answer, hj, href, done_step hdone i⟩
  missing k ref metadata filename pieces e htask := by
    have hbefore : DeletionBegun s ref := by
      by_cases hk : k = i
      · subst hk
        exact h.missing_step hdraws k
          ((Function.update_self ..).symm.trans htask)
      · exact h.missing k ref metadata filename pieces e
          ((Function.update_of_ne hk ..).symm.trans htask)
    exact hbefore.step i

theorem faithful_run (service : DocumentService) (hdraws : DrawsApart ops)
    (schedule : List ι) : Faithful service ops (service.run ops schedule) :=
  (Run.invariant (fun _ i h => h.step hdraws i)
    (faithful_start service ops) schedule).last

/-- What is retrieved is what was uploaded, in every interleaving. Each
retrieval is answered that there is no such document, that it is not
stored, or with the name of one admitted upload of it and that upload's
whole body; where the body is missing instead, a deletion of the document
has begun. And a retrieval that starts after the upload has succeeded is
answered with the body, if no deletion of the document begins before. -/
theorem retrieve_faithful (service : DocumentService)
    (hdraws : DrawsApart ops) (before after : List ι)
    {ref : DocumentRef} {outcome : Except Exn Answer}
    (hdone : (service.run ops (before ++ after)).tasks i =
      .done (.retrieve ref) outcome) :
    AnswerFrom service ops ref outcome ∧
    (∀ metadata filename pieces e,
      outcome = .ok (.opened metadata filename pieces (.error e)) →
      DeletionBegun (service.run ops (before ++ after)) ref) ∧
    ∀ j request answer, request.ref = ref →
      (service.run ops before).tasks j =
        .done (.store request) (.ok answer) →
      (service.run ops before).tasks i = .ready (.retrieve ref) →
      ¬ DeletionBegun (service.run ops (before ++ after)) ref →
      ∃ metadata filename pieces,
        outcome = .ok (.opened metadata filename pieces (.ok ())) ∧
        pieces.flatten = request.source.flatten := by
  have hend := faithful_run service hdraws (before ++ after)
  have hfrom := hend.sourced.tasks_from i
  rw [hdone] at hfrom
  refine ⟨hfrom, ?_, ?_⟩
  · rintro metadata filename pieces e rfl
    exact hend.missing i ref metadata filename pieces e hdone
  · rintro j request answer rfl hstored hready hkept
    have hbefore := faithful_run service hdraws before
    have hj : ops j = .store request := by
      rw [← hbefore.sourced.ops_eq j, hstored]
      rfl
    have hrun : service.run ops (before ++ after) =
        after.foldl service.systemStep (service.run ops before) :=
      List.foldl_append
    -- from here on the retrieval goes its way, until a deletion begins
    have hway : Run.Throughout service.systemStep (fun t =>
        Faithful service ops t ∧
          t.tasks j = .done (.store request) (.ok answer) ∧
          (DeletionBegun t request.ref ∨
            Retrieving request.ref (t.tasks i)))
        (service.run ops before) after := by
      refine Run.invariant ?_ ?_ after
      · rintro t k ⟨hfaithful, hat, hcase⟩
        refine ⟨hfaithful.step hdraws k, done_step hat k, ?_⟩
        rcases hcase with hbegun | hretrieving
        · exact Or.inl (hbegun.step k)
        · by_cases hk : i = k
          · subst hk
            refine (hfaithful.retrieving_step hdraws hj hat
              hretrieving).imp (fun hbegun => hbegun.step i) ?_
            intro hnext
            show Retrieving request.ref (Function.update t.tasks i _ i)
            rw [Function.update_self]
            exact hnext
          · right
            show Retrieving request.ref (Function.update t.tasks k _ i)
            rw [Function.update_of_ne hk]
            exact hretrieving
      · refine ⟨hbefore, hstored, Or.inr ?_⟩
        rw [hready]
        exact .ready
    obtain ⟨-, -, hcase⟩ := hway.last
    rw [← hrun] at hcase
    have hretrieving := hcase.resolve_left hkept
    rw [hdone] at hretrieving
    cases hretrieving with
    | answered metadata filename pieces =>
        cases hfrom with
        | whole row other admitted pieces href huploaded hrow hmarked
            hbody =>
            obtain ⟨j', hj'⟩ := huploaded.listed
            obtain ⟨-, rfl⟩ := upload_unique hdraws hj' hj (Or.inl href)
            exact ⟨_, _, _, rfl, hbody⟩

/-- The operation is over, and returned. -/
def DocumentTask.isAnswered : DocumentTask → Bool
  | .done _ (.ok _) => true
  | _ => false

/-- An upload, and a retrieval of the document it uploads. -/
def uploadAndRetrieve (upload : Bool) : DocumentOp :=
  if upload then .store noteUpload else .retrieve noteUpload.ref

theorem uploadAndRetrieve_drawsApart : DrawsApart uploadAndRetrieve := by
  intro i j request other hi hj _
  unfold uploadAndRetrieve at hi hj
  cases i <;> cases j <;> simp at hi hj ⊢

/-- The retrieval that comes after the upload has its body. -/
theorem retrieve_faithful_note :
    ∃ metadata filename pieces,
      (plainService.run uploadAndRetrieve
        ([true, true, true] ++ [false, false])).tasks false =
          .done (.retrieve noteUpload.ref)
            (.ok (.opened metadata filename pieces (.ok ()))) ∧
      pieces.flatten = [72, 101, 121] := by
  have hsourced := fun schedule => (faithful_run plainService
    uploadAndRetrieve_drawsApart schedule).sourced
  have hdone : ∃ outcome, (plainService.run uploadAndRetrieve
      ([true, true, true] ++ [false, false])).tasks false =
        .done (.retrieve noteUpload.ref) outcome := by
    have hfinished : ((plainService.run uploadAndRetrieve
      ([true, true, true] ++ [false, false])).tasks false).isDone =
        true := by decide +kernel
    have hop := (hsourced ([true, true, true] ++ [false, false])).ops_eq
      false
    generalize (plainService.run uploadAndRetrieve
      ([true, true, true] ++ [false, false])).tasks false = task at *
    cases task with
    | done op outcome =>
        have hop : op = .retrieve noteUpload.ref := hop
        exact ⟨outcome, by rw [hop]⟩
    | _ => cases hfinished
  have hstored : ∃ answer, (plainService.run uploadAndRetrieve
      [true, true, true]).tasks true =
        .done (.store noteUpload) (.ok answer) := by
    have hfinished : ((plainService.run uploadAndRetrieve
        [true, true, true]).tasks true).isAnswered = true := by
      decide +kernel
    have hop := (hsourced [true, true, true]).ops_eq true
    generalize (plainService.run uploadAndRetrieve
      [true, true, true]).tasks true = task at *
    cases task with
    | done op outcome =>
        cases outcome with
        | ok answer =>
            have hop : op = .store noteUpload := hop
            exact ⟨answer, by rw [hop]⟩
        | error e => cases hfinished
    | _ => cases hfinished
  obtain ⟨outcome, hdone⟩ := hdone
  obtain ⟨answer, hstored⟩ := hstored
  obtain ⟨-, -, hbody⟩ := retrieve_faithful plainService
    uploadAndRetrieve_drawsApart [true, true, true] [false, false] hdone
  obtain ⟨metadata, filename, pieces, rfl, hpieces⟩ := hbody true noteUpload
    answer rfl hstored rfl (by
      rintro ⟨k, hop, -⟩
      rw [(hsourced _).ops_eq] at hop
      cases k <;> cases hop)
  exact ⟨metadata, filename, pieces, hdone, hpieces⟩

end Runs

end DocumentService

end PrivacyGateway.Documents
