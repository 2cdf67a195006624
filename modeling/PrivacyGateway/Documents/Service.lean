/-
Stores, retrieves and deletes encrypted documents.

An operation is a `DocumentTask`: it has taken some of its steps, each one
a call on the object store or a database transaction, and `step` takes the
next. `DocumentSystem` is any number of tasks over one world, in any
interleaving; `store` is an upload that nothing interrupts, written as the
source has it (`advance_store` says that it is the task run alone).

Identifiers, storage keys and the random draws of the cipher come with the
request.
-/
import PrivacyGateway.Documents.Crypto
import PrivacyGateway.Documents.Validation
import PrivacyGateway.Tokenization.Ids

namespace PrivacyGateway.Documents

open Effect Tokenization

def storageKeyPrefix : Text := "documents/".toList
def downloadChunkBytes : Nat := 65536

def documentNotFound (why : String) : Exn :=
  gatewayError .documentNotFound (reason why)

-- ==================================================== the repository

inductive DocumentStatus
  | receiving
  | stored
  | failed
deriving DecidableEq

/-- A document id, with the principal it is asked for under. -/
structure DocumentRef where
  tenantId : UUID
  userId : UUID
  documentId : UUID
deriving DecidableEq

structure DocumentRow where
  id : UUID
  tenantId : UUID
  userId : UUID
  storageKey : Text
  filenameCiphertext : Bytes
  contentType : Text
  byteSize : Nat
  sha256Hex : Text
  status : DocumentStatus
deriving DecidableEq

def DocumentRow.ref (row : DocumentRow) : DocumentRef :=
  ⟨row.tenantId, row.userId, row.id⟩

namespace DocumentRepository

def get (rows : List DocumentRow) (ref : DocumentRef) :
    Option DocumentRow :=
  rows.find? (fun row => decide (row.ref = ref))

/-- Insert a row. Ids and storage keys are unique columns. -/
def create (rows : List DocumentRow) (row : DocumentRow) :
    Except Exn (List DocumentRow) :=
  if ∃ other ∈ rows, other.id = row.id ∨
      other.storageKey = row.storageKey then
    .error (.other "IntegrityError")
  else .ok (rows ++ [row])

/-- `UPDATE … WHERE` the row is this principal's document. -/
def update (rows : List DocumentRow) (ref : DocumentRef)
    (change : DocumentRow → DocumentRow) : List DocumentRow :=
  rows.map (fun row => if row.ref = ref then change row else row)

def markStored (rows : List DocumentRow) (ref : DocumentRef)
    (byteSize : Nat) (sha256Hex : Text) : List DocumentRow :=
  update rows ref (fun row =>
    { row with
      byteSize := byteSize, sha256Hex := sha256Hex, status := .stored })

def markFailed (rows : List DocumentRow) (ref : DocumentRef) :
    List DocumentRow :=
  update rows ref (fun row => { row with status := .failed })

def delete (rows : List DocumentRow) (ref : DocumentRef) :
    List DocumentRow :=
  rows.filter (fun row => decide (row.ref ≠ ref))

end DocumentRepository

-- ==================================================== values

/-- Everything about a document except its name and its contents. -/
structure DocumentMetadata where
  id : UUID
  tenantId : UUID
  userId : UUID
  storageKey : Text
  contentType : Text
  byteSize : Nat
  sha256Hex : Text
  status : DocumentStatus
deriving DecidableEq

def toMetadata (row : DocumentRow) : DocumentMetadata :=
  ⟨row.id, row.tenantId, row.userId, row.storageKey, row.contentType,
    row.byteSize, row.sha256Hex, row.status⟩

/-- The database rows and the objects of the store. -/
structure DocumentWorld where
  rows : List DocumentRow
  objects : Dict Text Bytes
deriving DecidableEq

/-- The arguments of an upload, and what it draws. -/
structure UploadRequest where
  tenantId : UUID
  userId : UUID
  filename : Text
  declaredContentType : Option Text
  declaredLength : Option Int
  source : List Bytes
  documentId : UUID
  tokenId : Fin (2 ^ 128)
  nameDraws : Draws
  bodyDraws : Draws

namespace UploadRequest

variable (request : UploadRequest)

def storageKey : Text :=
  storageKeyPrefix ++ encodeCrockford request.tokenId

def ref : DocumentRef :=
  ⟨request.tenantId, request.userId, request.documentId⟩

def identity (contentType : Text) : DocumentIdentity where
  tenantId := request.tenantId
  userId := request.userId
  documentId := request.documentId
  contentType := contentType

end UploadRequest

/-- What an upload is known to be before its first byte is read. -/
structure Admitted where
  safeName : Text
  contentType : Text
  filenameCiphertext : Bytes
deriving DecidableEq

/-- The row of an upload whose object does not exist yet. -/
def UploadRequest.row (request : UploadRequest) (admitted : Admitted) :
    DocumentRow where
  id := request.documentId
  tenantId := request.tenantId
  userId := request.userId
  storageKey := request.storageKey
  filenameCiphertext := admitted.filenameCiphertext
  contentType := admitted.contentType
  byteSize := 0
  sha256Hex := []
  status := .receiving

/-- One pass over a plaintext, so far: its length, what was hashed, the
head that the type is checked against, and whether it has been. -/
structure Measuring where
  total : Nat := 0
  digested : Bytes := []
  head : Bytes := []
  isChecked : Bool := false
deriving DecidableEq

structure DocumentService where
  cipher : DocumentCipher
  unicode : Unicode
  unicodeData : UnicodeData
  hashes : Hashes
  maxBytes : Nat
  maxBytes_bounded : 1024 ≤ maxBytes ∧ maxBytes ≤ 1073741824

namespace DocumentService

variable (service : DocumentService)

-- ==================================================== measuring

/-- Count, bound, hash and sniff one block. -/
def measureBlock (contentType : Text) (measuring : Measuring)
    (block : Bytes) : Except Exn Measuring := do
  let total := measuring.total + block.length
  enforceStreamedLength total service.maxBytes
  let counted := { measuring with
    total := total, digested := measuring.digested ++ block }
  if measuring.isChecked then return counted
  let head := measuring.head ++ block
  if magicSniffBytes ≤ head.length then do
    verifyMagic contentType head
    return { counted with head := head, isChecked := true }
  else return { counted with head := head }

def measureBlocks (contentType : Text) :
    Measuring → List Bytes → Except Exn Measuring
  | measuring, [] => .ok measuring
  | measuring, block :: blocks => do
      let next ← service.measureBlock contentType measuring block
      measureBlocks contentType next blocks

/-- One pass over a whole plaintext. -/
def measure (contentType : Text) (source : List Bytes) :
    Except Exn Measuring := do
  let measured ← service.measureBlocks contentType {} source
  if measured.total = 0 then
    throw (documentInvalid "document_empty")
  if measured.isChecked then return measured
  verifyMagic contentType measured.head
  return measured

-- ==================================================== an upload

/-- What is checked and sealed before a row is written. -/
def prepare (request : UploadRequest) : Except Exn Admitted := do
  let safeName ← normalizeFilename service.unicode service.unicodeData
    request.filename
  let contentType ← resolveContentType service.unicode safeName
    request.declaredContentType
  enforceDeclaredLength request.declaredLength service.maxBytes
  let ciphertext ← service.cipher.sealBytes (request.identity contentType)
    purposeFilename request.nameDraws (encodeUtf8 safeName)
  return ⟨safeName, contentType, ciphertext⟩

/-- The object a body is stored as. Nothing is stored of a body that does
not measure. -/
def receive (request : UploadRequest) (admitted : Admitted) :
    Except Exn (Measuring × Bytes) := do
  let measured ← service.measure admitted.contentType request.source
  match runIn (service.cipher.sealStream
      (request.identity admitted.contentType) request.bodyDraws
        request.source) [] with
  | (.ok (), pieces) => return (measured, pieces.flatten)
  | (.error e, _) => throw e

def digest (measured : Measuring) : Text :=
  hexdigest (service.hashes.sha256 measured.digested)

/-- What a caller is answered. -/
inductive Answer
  | document (metadata : DocumentMetadata) (filename : Text)
  | removed (found : Bool)
  | metadata (metadata : DocumentMetadata)
  | opened (metadata : DocumentMetadata) (filename : Text)
      (pieces : List Bytes) (ended : Except Exn Unit)
deriving DecidableEq

/-- Record a completed upload. -/
def finish (request : UploadRequest) (admitted : Admitted)
    (byteSize : Nat) (sha256Hex : Text) (world : DocumentWorld) :
    Except Exn Answer × DocumentWorld :=
  let rows := DocumentRepository.markStored world.rows request.ref byteSize
    sha256Hex
  match DocumentRepository.get rows request.ref with
  | none =>
      (.error (documentNotFound "row_vanished_during_upload"),
        { world with rows := rows })
  | some row =>
      (.ok (.document (toMetadata row) admitted.safeName),
        { world with rows := rows })

/-- Mark the row failed and remove whatever reached the store. -/
def abandon (request : UploadRequest) : Eff DocumentWorld Exn Unit := do
  act fun world =>
    (.ok (), { world with
      objects := world.objects.erase request.storageKey })
  act fun world =>
    (.ok (), { world with
      rows := DocumentRepository.markFailed world.rows request.ref })

/-- Validate, seal and store one document. -/
def store (request : UploadRequest) : Eff DocumentWorld Exn Answer := do
  let admitted ← checked (service.prepare request)
  act fun world =>
    match DocumentRepository.create world.rows (request.row admitted) with
    | .error e => (.error e, world)
    | .ok rows => (.ok (), { world with rows := rows })
  let measured ← recover
    (do
      let (measured, object) ← checked (service.receive request admitted)
      act fun world =>
        (.ok (), { world with
          objects := world.objects.set request.storageKey object })
      return measured)
    (fun e => do
      abandon request
      throw e)
  act (finish request admitted measured.total (service.digest measured))

-- ==================================================== tasks

/-- An operation. -/
inductive DocumentOp
  | store (request : UploadRequest)
  | delete (ref : DocumentRef)
  | status (ref : DocumentRef)
  | retrieve (ref : DocumentRef)

/-- An operation, and how far it has come. -/
inductive DocumentTask
  | ready (op : DocumentOp)
  | putting (request : UploadRequest) (admitted : Admitted)
  | marking (request : UploadRequest) (admitted : Admitted)
      (byteSize : Nat) (sha256Hex : Text)
  | abandoning (request : UploadRequest) (error : Exn)
  | failing (request : UploadRequest) (error : Exn)
  | erasing (ref : DocumentRef) (storageKey : Text)
  | removing (ref : DocumentRef)
  | reading (row : DocumentRow) (filename : Text)
  | done (op : DocumentOp) (outcome : Except Exn Answer)

/-- The stream of a document's plaintext, and how it ended. -/
def read (row : DocumentRow) (world : DocumentWorld) :
    List Bytes × Except Exn Unit :=
  match world.objects.get? row.storageKey with
  | none => ([], .error (documentNotFound "object_missing"))
  | some object =>
      match runIn (service.cipher.openStream
          ⟨row.tenantId, row.userId, row.id, row.contentType,
            documentFormatVersion.toNat⟩
          (rechunk [object] downloadChunkBytes)) [] with
      | (.error e, pieces) => (pieces, .error e)
      | (.ok (), pieces) =>
          if pieces.flatten.length ≠ row.byteSize ∨
              hexdigest (service.hashes.sha256 pieces.flatten) ≠
                row.sha256Hex then
            (pieces, .error (documentEncryptionError "checksum_mismatch"))
          else (pieces, .ok ())

/-- The row of a stored document, and its name. -/
def locate (rows : List DocumentRow) (ref : DocumentRef) :
    Except Exn (DocumentRow × Text) :=
  match DocumentRepository.get rows ref with
  | none => .error (documentNotFound "no_such_document")
  | some row =>
      if row.status ≠ .stored then
        .error (documentNotFound "document_not_stored")
      else
        match service.cipher.openBytes
            ⟨row.tenantId, row.userId, row.id, row.contentType,
              documentFormatVersion.toNat⟩
            purposeFilename row.filenameCiphertext with
        | .error e => .error e
        | .ok bytes =>
            match decodeUtf8 bytes with
            | none => .error (.other "UnicodeDecodeError")
            | some filename => .ok (row, filename)

/-- The next step of an operation. -/
def step : DocumentTask → DocumentWorld → DocumentTask × DocumentWorld
  | .ready (.store request), world =>
      match service.prepare request with
      | .error e => (.done (.store request) (.error e), world)
      | .ok admitted =>
          match DocumentRepository.create world.rows
              (request.row admitted) with
          | .error e => (.done (.store request) (.error e), world)
          | .ok rows => (.putting request admitted, { world with rows := rows })
  | .putting request admitted, world =>
      match service.receive request admitted with
      | .error e => (.abandoning request e, world)
      | .ok (measured, object) =>
          (.marking request admitted measured.total (service.digest measured),
            { world with
              objects := world.objects.set request.storageKey object })
  | .marking request admitted byteSize sha256Hex, world =>
      let result := finish request admitted byteSize sha256Hex world
      (.done (.store request) result.1, result.2)
  | .abandoning request e, world =>
      (.failing request e,
        { world with objects := world.objects.erase request.storageKey })
  | .failing request e, world =>
      (.done (.store request) (.error e),
        { world with
          rows := DocumentRepository.markFailed world.rows request.ref })
  | .ready (.delete ref), world =>
      match DocumentRepository.get world.rows ref with
      | none => (.done (.delete ref) (.ok (.removed false)), world)
      | some row => (.erasing ref row.storageKey, world)
  | .erasing ref storageKey, world =>
      (.removing ref,
        { world with objects := world.objects.erase storageKey })
  | .removing ref, world =>
      (.done (.delete ref) (.ok (.removed
          (DocumentRepository.get world.rows ref).isSome)),
        { world with rows := DocumentRepository.delete world.rows ref })
  | .ready (.status ref), world =>
      match DocumentRepository.get world.rows ref with
      | none =>
          (.done (.status ref)
            (.error (documentNotFound "no_such_document")), world)
      | some row =>
          (.done (.status ref) (.ok (.metadata (toMetadata row))), world)
  | .ready (.retrieve ref), world =>
      match service.locate world.rows ref with
      | .error e => (.done (.retrieve ref) (.error e), world)
      | .ok (row, filename) => (.reading row filename, world)
  | .reading row filename, world =>
      let result := service.read row world
      (.done (.retrieve row.ref)
        (.ok (.opened (toMetadata row) filename result.1 result.2)), world)
  | .done op outcome, world => (.done op outcome, world)

-- ==================================================== the system

/-- Any number of operations over one world. -/
structure DocumentSystem (ι : Type) where
  world : DocumentWorld
  tasks : ι → DocumentTask

variable {ι : Type} [DecidableEq ι]

/-- One operation takes its next step. -/
def systemStep (system : DocumentSystem ι) (i : ι) : DocumentSystem ι where
  world := (service.step (system.tasks i) system.world).2
  tasks := Function.update system.tasks i
    (service.step (system.tasks i) system.world).1

/-- Nothing is stored, and no operation has begun. -/
def DocumentSystem.start (ops : ι → DocumentOp) : DocumentSystem ι where
  world := ⟨[], []⟩
  tasks i := .ready (ops i)

/-- The steps are taken in this order, by these operations. -/
def run (ops : ι → DocumentOp) (schedule : List ι) : DocumentSystem ι :=
  schedule.foldl service.systemStep (DocumentSystem.start ops)

/-- So many steps of one task, and of no other. -/
def advance : Nat → DocumentTask → DocumentWorld →
    DocumentTask × DocumentWorld
  | 0, task, world => (task, world)
  | n + 1, task, world =>
      advance n (service.step task world).1 (service.step task world).2

/-- An upload that nothing interrupts is its task, run alone. -/
theorem advance_store (request : UploadRequest) (world : DocumentWorld) :
    service.advance 4 (.ready (.store request)) world =
      (.done (.store request) (runIn (service.store request) world).1,
        (runIn (service.store request) world).2) := by
  simp only [advance, step]
  unfold store
  cases hprepare : service.prepare request with
  | error e => rw [checked_bind_error]
  | ok admitted =>
      rw [checked_bind_ok, runIn_bind, runIn_act]
      simp only
      cases hcreate : DocumentRepository.create world.rows
          (request.row admitted) with
      | error e => rfl
      | ok rows =>
          simp only
          cases hreceive : service.receive request admitted with
          | error e => rfl
          | ok received =>
              cases received with
              | mk measured object => rfl

end DocumentService

end PrivacyGateway.Documents
