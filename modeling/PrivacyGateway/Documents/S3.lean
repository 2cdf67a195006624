/-
The object store over an S3-compatible endpoint.

The first half is the service, as its interface documents it: objects
under keys, multipart uploads with their parts, and requests that are
accepted or refused. A call may fail for any other reason at any time
(`Faults`); a call that fails has no effect, and an abort does not fail.

The second half is `put`: it fills a buffer to the part size before a part
is sent, sends one object where the buffer was never filled, and aborts
what it started when anything is raised.
-/
import PrivacyGateway.Errors
import PrivacyGateway.Lib.Dict
import PrivacyGateway.Lib.Triple

namespace PrivacyGateway.Documents.S3

open Effect

/-- S3's minimum size for every part except the last. -/
def minPartBytes : Nat := 5242880

-- ==================================================== the service

abbrev UploadId := Nat

/-- A stored object. -/
structure StoredObject where
  body : Bytes
  contentType : Option Text
deriving DecidableEq

/-- `{"ETag": ..., "PartNumber": ...}`. -/
structure Part where
  etag : Text
  number : Nat
deriving DecidableEq

/-- A multipart upload that was started and neither completed nor
aborted. -/
structure Upload where
  key : Text
  contentType : Option Text
  parts : Dict Nat Bytes
deriving DecidableEq

/-- A request that the service carried out. -/
inductive Request
  | putObject (key : Text) (body : Bytes)
  | createMultipartUpload (key : Text) (id : UploadId)
  | uploadPart (id : UploadId) (number : Nat) (body : Bytes)
  | completeMultipartUpload (id : UploadId) (parts : List Part)
  | abortMultipartUpload (id : UploadId)
deriving DecidableEq

/-- The service and the store's connection to it. `accepted` are the
requests it carried out, in order; `calls` counts all that were made. -/
structure Service where
  connected : Bool
  objects : Dict Text StoredObject
  uploads : Dict UploadId Upload
  nextUpload : UploadId
  accepted : List Request
  calls : Nat
  uploads_old : ∀ id ∈ uploads.keys, id < nextUpload

/-- What a call raises: an answer of the service, a broken connection, or
anything else, a cancellation among it. -/
inductive Failure
  | client (code : Text) (status : Option Nat)
  | transport
  | raised (e : Exn)
deriving DecidableEq

/-- The calls the store makes. -/
inductive Operation
  | clientOpen
  | putObject
  | createMultipartUpload
  | uploadPart
  | completeMultipartUpload
  | abortMultipartUpload
deriving DecidableEq

def Operation.name : Operation → Text
  | clientOpen => "client_open".toList
  | putObject => "put_object".toList
  | createMultipartUpload => "create_multipart_upload".toList
  | uploadPart => "upload_part".toList
  | completeMultipartUpload => "complete_multipart_upload".toList
  | abortMultipartUpload => "abort_multipart_upload".toList

/-- Which calls fail, by their number. -/
structure Faults where
  fails : Operation → Nat → Option Failure
  abort_succeeds : ∀ n, fails .abortMultipartUpload n = none

/-- Make a call: it fails, or the service answers it. -/
def attempt {α : Type} (faults : Faults) (operation : Operation)
    (effect : Service → Except Failure (α × Service)) :
    Eff Service Failure α :=
  act fun service =>
    let called := { service with calls := service.calls + 1 }
    match faults.fails operation service.calls with
    | some failure => (.error failure, called)
    | none =>
        match effect called with
        | .ok (a, after) => (.ok a, after)
        | .error failure => (.error failure, called)

def openClient (service : Service) : Except Failure (Unit × Service) :=
  .ok ((), { service with connected := true })

def putObject (key : Text) (object : StoredObject) (service : Service) :
    Except Failure (Unit × Service) :=
  .ok ((), { service with
    objects := service.objects.set key object
    accepted := service.accepted ++ [.putObject key object.body] })

theorem uploads_old_create (service : Service) (upload : Upload) :
    ∀ id ∈ (service.uploads.set service.nextUpload upload).keys,
      id < service.nextUpload + 1 := by
  intro id hid
  rcases Dict.mem_keys_set.mp hid with rfl | hid
  · exact Nat.lt_succ_self _
  · exact Nat.lt_succ_of_lt (service.uploads_old id hid)

def createMultipartUpload (key : Text) (contentType : Option Text)
    (service : Service) : Except Failure (UploadId × Service) :=
  let id := service.nextUpload
  .ok (id, { service with
    uploads := service.uploads.set id ⟨key, contentType, []⟩
    nextUpload := id + 1
    accepted := service.accepted ++ [.createMultipartUpload key id]
    uploads_old := uploads_old_create service _ })

def noSuchUpload : Failure := .client "NoSuchUpload".toList (some 404)

theorem uploads_old_set {service : Service} {id : UploadId}
    {upload : Upload} (h : service.uploads.get? id = some upload)
    (after : Upload) : ∀ other ∈ (service.uploads.set id after).keys,
      other < service.nextUpload := by
  intro other hother
  rcases Dict.mem_keys_set.mp hother with rfl | hother
  · exact service.uploads_old _
      (List.mem_map_of_mem (f := Prod.fst) (Dict.mem_of_get? h))
  · exact service.uploads_old other hother

theorem uploads_old_erase (service : Service) (id : UploadId) :
    ∀ other ∈ (service.uploads.erase id).keys,
      other < service.nextUpload := by
  intro other hother
  obtain ⟨e, he, rfl⟩ := List.mem_map.mp hother
  exact service.uploads_old _
    (List.mem_map_of_mem (f := Prod.fst) (List.mem_of_mem_filter he))

section Parts

variable (etag : Bytes → Text)

/-- Store a part under its number and answer with its ETag. -/
def uploadPart (key : Text) (id : UploadId) (number : Nat) (body : Bytes)
    (service : Service) : Except Failure (Part × Service) :=
  match h : service.uploads.get? id with
  | none => .error noSuchUpload
  | some upload =>
      if upload.key ≠ key then .error noSuchUpload
      else
        .ok (⟨etag body, number⟩, { service with
          uploads := service.uploads.set id
            { upload with parts := upload.parts.set number body }
          accepted := service.accepted ++ [.uploadPart id number body]
          uploads_old := uploads_old_set h _ })

/-- The bodies of the listed parts. -/
def assemble (upload : Upload) : List Part → Except Failure (List Bytes)
  | [] => .ok []
  | part :: parts =>
      match upload.parts.get? part.number with
      | none => .error (.client "InvalidPart".toList (some 400))
      | some body =>
          if part.etag ≠ etag body then
            .error (.client "InvalidPart".toList (some 400))
          else
            match assemble upload parts with
            | .error failure => .error failure
            | .ok bodies => .ok (body :: bodies)

/-- Put the listed parts together as the object. -/
def completeMultipartUpload (key : Text) (id : UploadId)
    (parts : List Part) (service : Service) :
    Except Failure (Unit × Service) :=
  match service.uploads.get? id with
  | none => .error noSuchUpload
  | some upload =>
      if upload.key ≠ key then .error noSuchUpload
      else if parts = [] then
        .error (.client "MalformedXML".toList (some 400))
      else if ¬ (parts.map Part.number).Pairwise (· < ·) then
        .error (.client "InvalidPartOrder".toList (some 400))
      else
        match assemble etag upload parts with
        | .error failure => .error failure
        | .ok bodies =>
            if ∃ body ∈ bodies.dropLast, body.length < minPartBytes then
              .error (.client "EntityTooSmall".toList (some 400))
            else
              .ok ((), { service with
                objects := service.objects.set key
                  ⟨bodies.flatten, upload.contentType⟩
                uploads := service.uploads.erase id
                accepted := service.accepted ++
                  [.completeMultipartUpload id parts]
                uploads_old := uploads_old_erase service id })

end Parts

def abortMultipartUpload (id : UploadId) (service : Service) :
    Except Failure (Unit × Service) :=
  .ok ((), { service with
    uploads := service.uploads.erase id
    accepted := service.accepted ++ [.abortMultipartUpload id]
    uploads_old := uploads_old_erase service id })

-- ==================================================== the store

/-- The store's own setting. -/
structure S3CompatibleDocumentStore where
  partBytes : Nat
  partBytes_min : minPartBytes ≤ partBytes

/-- The constructor's check. -/
def S3CompatibleDocumentStore.new (partBytes : Nat) :
    Except Exn S3CompatibleDocumentStore :=
  if h : partBytes < minPartBytes then
    .error (.value "part_bytes must be at least 5242880")
  else .ok ⟨partBytes, Nat.le_of_not_lt h⟩

/-- The closed failure: it names the operation and never the endpoint. -/
def unavailable (operation : Operation) : Exn :=
  gatewayError .documentStorageUnavailable
    [("operation", .text operation.name)]

def missingObjectCodes : List Text :=
  ["NoSuchKey".toList, "404".toList, "NoSuchBucket".toList]

/-- What `_call` raises for a failure. -/
def callError (operation : Operation) : Failure → Exn
  | .client code status =>
      if missingObjectCodes.contains code ∨ status = some 404 then
        gatewayError .documentNotFound (reason "object_missing")
      else unavailable operation
  | .transport => unavailable operation
  | .raised e => e

/-- What opening the client raises for a failure. -/
def openError : Failure → Exn
  | .client _ _ => unavailable .clientOpen
  | .transport => unavailable .clientOpen
  | .raised e => e

/-- The source of an upload: its blocks, and how it ends. -/
structure ChunkSource where
  blocks : List Bytes
  outcome : Except Exn Unit

/-- What the blocks of a source are together. -/
def ChunkSource.data (source : ChunkSource) : Bytes :=
  source.blocks.flatten

/-- `{"ContentType": content_type} if content_type else {}`. -/
def extraType (contentType : Option Text) : Option Text :=
  if contentType = some [] then none else contentType

/-- The locals of one `put`, and the service it talks to. -/
structure Put where
  service : Service
  buffer : Bytes
  uploadId : Option UploadId
  parts : List Part
  total : Nat

section Put

variable (store : S3CompatibleDocumentStore) (etag : Bytes → Text)
  (faults : Faults) (key : Text) (contentType : Option Text)

/-- `_call`. -/
def call {α : Type} (operation : Operation)
    (effect : Service → Except Failure (α × Service)) :
    Eff Put Exn α :=
  onPart Put.service (fun st service => { st with service := service })
    (translate (callError operation) (attempt faults operation effect))

/-- The upload's id; the upload is begun where it is not yet. -/
def beginMultipart : Eff Put Exn UploadId := do
  let st ← current
  match st.uploadId with
  | some id => return id
  | none => do
      let id ← call faults .createMultipartUpload
        (createMultipartUpload key contentType)
      update (fun st => { st with uploadId := some id })
      return id

/-- Upload the next part. -/
def sendPart (id : UploadId) (body : Bytes) : Eff Put Exn Unit := do
  let st ← current
  let part ← call faults .uploadPart
    (uploadPart etag key id (st.parts.length + 1) body)
  update (fun st => { st with parts := st.parts ++ [part] })

/-- `while len(buffer) >= self._part_bytes`: each turn shortens the
buffer, so it has no more turns than the buffer has bytes. -/
def sendFullParts : Nat → Eff Put Exn Unit
  | 0 => return ()
  | turns + 1 => do
      let st ← current
      if store.partBytes ≤ st.buffer.length then
        let id ← beginMultipart faults key contentType
        sendPart etag faults key id (st.buffer.take store.partBytes)
        update (fun st =>
          { st with buffer := st.buffer.drop store.partBytes })
        sendFullParts turns
      else return ()

/-- `async for block in chunks`. -/
def readBlocks (outcome : Except Exn Unit) : List Bytes → Eff Put Exn Unit
  | [] => checked outcome
  | block :: blocks => do
      update (fun st =>
        { st with
          buffer := st.buffer ++ block
          total := st.total + block.length })
      let st ← current
      sendFullParts store etag faults key contentType st.buffer.length
      readBlocks outcome blocks

/-- What follows the loop: one object, or the last part and the
completion. -/
def finishPut : Eff Put Exn Nat := do
  let st ← current
  match st.uploadId with
  | none => do
      call faults .putObject (putObject key ⟨st.buffer, contentType⟩)
      return st.total
  | some id => do
      sendPart etag faults key id st.buffer
      let st ← current
      call faults .completeMultipartUpload
        (completeMultipartUpload etag key id st.parts)
      return st.total

/-- `_abort`: a failure of its own is not raised. -/
def abort (id : UploadId) (service : Service) : Service :=
  (runIn (attempt faults .abortMultipartUpload (abortMultipartUpload id))
    service).2

/-- `_open`. -/
def openStore : Eff Service Exn Unit :=
  act fun service =>
    if service.connected then (.ok (), service)
    else
      runIn (translate openError
        (attempt faults .clientOpen openClient)) service

/-- The `try` of `put`. -/
def putBody (source : ChunkSource) : Eff Put Exn Nat := do
  readBlocks store etag faults key contentType source.outcome
    source.blocks
  finishPut etag faults key contentType

/-- Stream the blocks into one object, switching to multipart as
needed. -/
def put (source : ChunkSource) : Eff Service Exn Nat := do
  openStore faults
  act fun service =>
    match runIn (putBody store etag faults key (extraType contentType)
        source) ⟨service, [], none, [], 0⟩ with
    | (.ok total, st) => (.ok total, st.service)
    | (.error e, st) =>
        match st.uploadId with
        | some id => (.error e, abort faults id st.service)
        | none => (.error e, st.service)

end Put

end PrivacyGateway.Documents.S3
