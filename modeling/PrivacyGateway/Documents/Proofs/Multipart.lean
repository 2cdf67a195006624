/-
An upload is faithful, and all or nothing.

`Progress` is what holds between two blocks: what was read is the full
parts already sent and the buffer, or the buffer alone. One turn of the
inner loop keeps it (`triple_sendFullParts`), so reading the source does
(`triple_readBlocks`), and what follows turns it into a stored object
(`triple_finishPut`). Whatever is raised on the way leaves the objects as
they were and at most the one upload that the handler aborts
(`Abortable`).
-/
import PrivacyGateway.Documents.S3

namespace PrivacyGateway.Documents.S3

open Effect

-- ==================================================== numbered parts

/-- The parts of an upload, numbered from one. -/
def numbered (bodies : List Bytes) : Dict Nat Bytes :=
  (bodies.zipIdx 1).map (fun e => (e.2, e.1))

/-- What the service answered for them. -/
def listed (etag : Bytes → Text) (bodies : List Bytes) : List Part :=
  (bodies.zipIdx 1).map (fun e => ⟨etag e.1, e.2⟩)

/-- The requests that sent them. -/
def partRequests (id : UploadId) (bodies : List Bytes) : List Request :=
  (bodies.zipIdx 1).map (fun e => .uploadPart id e.2 e.1)

theorem zipIdx_concat (bodies : List Bytes) (body : Bytes) :
    (bodies ++ [body]).zipIdx 1 =
      bodies.zipIdx 1 ++ [(body, bodies.length + 1)] := by
  rw [List.zipIdx_append]
  simp [Nat.add_comm]

theorem listed_concat (etag : Bytes → Text) (bodies : List Bytes)
    (body : Bytes) :
    listed etag (bodies ++ [body]) =
      listed etag bodies ++ [⟨etag body, bodies.length + 1⟩] := by
  unfold listed
  rw [zipIdx_concat, List.map_append]
  rfl

theorem partRequests_concat (id : UploadId) (bodies : List Bytes)
    (body : Bytes) :
    partRequests id (bodies ++ [body]) =
      partRequests id bodies ++
        [.uploadPart id (bodies.length + 1) body] := by
  unfold partRequests
  rw [zipIdx_concat, List.map_append]
  rfl

theorem length_listed (etag : Bytes → Text) (bodies : List Bytes) :
    (listed etag bodies).length = bodies.length := by
  unfold listed
  rw [List.length_map, List.length_zipIdx]

theorem numbers_of_listed (etag : Bytes → Text) (bodies : List Bytes) :
    (listed etag bodies).map Part.number = List.range' 1 bodies.length := by
  unfold listed
  rw [List.map_map, ← List.zipIdx_map_snd 1 bodies]
  rfl

theorem keys_numbered (bodies : List Bytes) :
    (numbered bodies).keys = List.range' 1 bodies.length := by
  unfold numbered Dict.keys
  rw [List.map_map, ← List.zipIdx_map_snd 1 bodies]
  rfl

theorem nodup_keys_numbered (bodies : List Bytes) :
    (numbered bodies).keys.Nodup := by
  rw [keys_numbered]
  exact List.nodup_range'

theorem set_numbered (bodies : List Bytes) (body : Bytes) :
    (numbered bodies).set (bodies.length + 1) body =
      numbered (bodies ++ [body]) := by
  have hnew : (numbered bodies).get? (bodies.length + 1) = none := by
    rw [Dict.get?_eq_none_iff, keys_numbered, List.mem_range'_1]
    omega
  rw [Dict.set_of_get?_none hnew]
  unfold numbered
  rw [zipIdx_concat, List.map_append]
  rfl

/-- The listed parts are the numbered ones. -/
theorem assemble_listed {etag : Bytes → Text} {upload : Upload}
    {bodies : List Bytes} (hparts : upload.parts = numbered bodies) :
    assemble etag upload (listed etag bodies) = .ok bodies := by
  -- each listed part is looked up among all of them
  have hget : ∀ e ∈ bodies.zipIdx 1,
      upload.parts.get? e.2 = some e.1 := by
    intro e he
    rw [hparts, Dict.get?_eq_some_iff (nodup_keys_numbered bodies)]
    exact List.mem_map.mpr ⟨e, he, rfl⟩
  have hall : ∀ entries : List (Bytes × Nat),
      (∀ e ∈ entries, upload.parts.get? e.2 = some e.1) →
        assemble etag upload
          (entries.map (fun e => ⟨etag e.1, e.2⟩)) =
            .ok (entries.map Prod.fst) := by
    intro entries
    induction entries with
    | nil => exact fun _ => rfl
    | cons e entries ih =>
        intro h
        obtain ⟨hfirst, hrest⟩ := List.forall_mem_cons.mp h
        rw [List.map_cons, assemble, hfirst]
        simp only [ne_eq, not_true_eq_false, if_false, ih hrest,
          List.map_cons]
  unfold listed
  rw [hall _ hget, List.zipIdx_map_fst]

-- ==================================================== one call

/-- The service after a call that had no effect. -/
def Service.called (service : Service) : Service :=
  { service with calls := service.calls + 1 }

/-- Some call of the store may fail. -/
def Faulty (faults : Faults) : Prop :=
  ∃ operation n, faults.fails operation n ≠ none

section Attempt

variable {α : Type} {faults : Faults} {operation : Operation}
  {effect : Service → Except Failure (α × Service)} {s t : Service}

theorem attempt_ok {a : α}
    (h : runIn (attempt faults operation effect) s = (.ok a, t)) :
    effect s.called = .ok (a, t) := by
  unfold attempt at h
  rw [runIn_act] at h
  simp only at h
  split at h
  · cases h
  · split at h
    · rename_i heffect
      cases h
      exact heffect
    · cases h

theorem attempt_error {failure : Failure}
    (h : runIn (attempt faults operation effect) s = (.error failure, t)) :
    t = s.called ∧
      (Faulty faults ∨ ∃ refusal, effect s.called = .error refusal) := by
  unfold attempt at h
  rw [runIn_act] at h
  simp only at h
  split at h
  · rename_i hfails
    cases h
    refine ⟨rfl, Or.inl ⟨operation, s.calls, ?_⟩⟩
    rw [hfails]
    exact Option.some_ne_none _
  · split at h
    · cases h
    · rename_i heffect
      cases h
      exact ⟨rfl, Or.inr ⟨_, heffect⟩⟩

/-- A call that is never refused returns, or fails without effect. -/
theorem triple_call {A : Put → Prop} {Q : α → Put → Prop} {E : Put → Prop}
    (hok : ∀ st, A st → ∃ a after,
      effect st.service.called = .ok (a, after) ∧
        Q a { st with service := after })
    (herror : ∀ st, A st → Faulty faults →
      E { st with service := st.service.called }) :
    Triple A (call faults operation effect) Q E := by
  refine triple_onPart (fun st hst => Triple.translate ⟨?_, ?_⟩)
  all_goals obtain ⟨a, after, heffect, hafter⟩ := hok st hst
  · rintro s b t rfl hrun
    cases heffect.symm.trans (attempt_ok hrun)
    exact hafter
  · rintro s failure t rfl hrun
    obtain ⟨rfl, hfaulty | ⟨refusal, hrefused⟩⟩ := attempt_error hrun
    · exact herror st hst hfaulty
    · cases heffect.symm.trans hrefused

end Attempt

-- ==================================================== the service

/-- Only calls of no effect were made. -/
structure Untouched (s t : Service) : Prop where
  objects : t.objects = s.objects
  uploads : t.uploads = s.uploads
  accepted : t.accepted = s.accepted
  calls : t.calls = s.calls

section Service

variable (key : Text) (contentType : Option Text)

/-- One upload was begun, and these parts were sent. -/
structure Begun (s t : Service) (id : UploadId) (bodies : List Bytes) :
    Prop where
  fresh : s.uploads.get? id = none
  objects : t.objects = s.objects
  uploads : t.uploads =
    s.uploads.set id ⟨key, contentType, numbered bodies⟩
  accepted : t.accepted = s.accepted ++
    .createMultipartUpload key id :: partRequests id bodies
  calls : t.calls = s.calls + 1 + bodies.length

/-- The object is stored, by these requests. -/
structure Stored (s t : Service) (body : Bytes)
    (requests : List Request) : Prop where
  objects : t.objects = s.objects.set key ⟨body, contentType⟩
  uploads : t.uploads = s.uploads
  accepted : t.accepted = s.accepted ++ requests
  calls : t.calls = s.calls + requests.length

variable {key contentType} {s t : Service} {id : UploadId}
  {bodies : List Bytes}

theorem putObject_untouched (h : Untouched s t) (body : Bytes) :
    ∃ after, putObject key ⟨body, contentType⟩ t.called = .ok ((), after) ∧
      Stored key contentType s after body [.putObject key body] := by
  refine ⟨_, rfl, ?_, h.uploads, ?_, ?_⟩
  · show t.objects.set key _ = _
    rw [h.objects]
  · show t.accepted ++ _ = _
    rw [h.accepted]
  · show t.calls + 1 = _
    rw [h.calls]
    rfl

theorem createMultipartUpload_untouched (h : Untouched s t) :
    ∃ id after,
      createMultipartUpload key contentType t.called = .ok (id, after) ∧
        Begun key contentType s after id [] := by
  refine ⟨_, _, rfl, ?_, h.objects, ?_, ?_, ?_⟩
  · -- the service's own numbers are all smaller
    rw [Dict.get?_eq_none_iff, ← h.uploads]
    intro hmem
    exact Nat.lt_irrefl _ (t.uploads_old _ hmem)
  · show t.uploads.set _ _ = _
    rw [h.uploads]
    rfl
  · show t.accepted ++ _ = _
    rw [h.accepted]
    rfl
  · show t.calls + 1 = _
    rw [h.calls]
    rfl

theorem Begun.get? (h : Begun key contentType s t id bodies) :
    t.uploads.get? id = some ⟨key, contentType, numbered bodies⟩ := by
  rw [h.uploads, Dict.get?_set_self]

theorem uploadPart_begun (etag : Bytes → Text)
    (h : Begun key contentType s t id bodies)
    (body : Bytes) :
    ∃ after,
      uploadPart etag key id (bodies.length + 1) body t.called =
          .ok (⟨etag body, bodies.length + 1⟩, after) ∧
        Begun key contentType s after id (bodies ++ [body]) := by
  unfold uploadPart
  split
  · rename_i hnone
    cases hnone.symm.trans h.get?
  · rename_i upload hupload
    cases h.get?.symm.trans hupload
    simp only [ne_eq, not_true_eq_false, if_false]
    refine ⟨_, rfl, h.fresh, h.objects, ?_, ?_, ?_⟩
    · show t.uploads.set id _ = _
      rw [h.uploads, Dict.set_set, set_numbered]
    · show t.accepted ++ _ = _
      rw [h.accepted, partRequests_concat, List.append_assoc]
      rfl
    · show t.calls + 1 = _
      rw [h.calls, List.length_append]
      rfl

/-- Parts of which only the last is short are put together. -/
theorem completeMultipartUpload_begun (etag : Bytes → Text)
    (h : Begun key contentType s t id bodies) (hne : bodies ≠ [])
    (hsize : ∀ body ∈ bodies.dropLast, minPartBytes ≤ body.length) :
    ∃ after,
      completeMultipartUpload etag key id (listed etag bodies) t.called =
          .ok ((), after) ∧
        Stored key contentType s after bodies.flatten
          (.createMultipartUpload key id :: partRequests id bodies ++
            [.completeMultipartUpload id (listed etag bodies)]) := by
  have hlisted : listed etag bodies ≠ [] := by
    intro hnil
    apply hne
    rw [← List.length_eq_zero_iff, ← length_listed etag, hnil]
    rfl
  have hascending :
      ((listed etag bodies).map Part.number).Pairwise (· < ·) := by
    rw [numbers_of_listed]
    exact List.pairwise_lt_range'
  have hlarge :
      ¬ ∃ body ∈ bodies.dropLast, body.length < minPartBytes := by
    rintro ⟨body, hbody, hsmall⟩
    exact Nat.not_lt.mpr (hsize body hbody) hsmall
  unfold completeMultipartUpload
  rw [show t.called.uploads.get? id = _ from h.get?]
  simp only [ne_eq, not_true_eq_false, if_false, hlisted, hascending]
  rw [assemble_listed rfl]
  simp only [hlarge, if_false]
  refine ⟨_, rfl, ?_, ?_, ?_, ?_⟩
  · show t.objects.set key _ = _
    rw [h.objects]
  · show t.uploads.erase id = _
    rw [h.uploads, Dict.erase_set h.fresh]
  · show t.accepted ++ _ = _
    rw [h.accepted, List.append_assoc]
  · show t.calls + 1 = _
    rw [h.calls]
    simp [partRequests]
    omega

end Service

-- ==================================================== the locals

section Locals

variable (store : S3CompatibleDocumentStore) (etag : Bytes → Text)
  (key : Text) (contentType : Option Text) (s : Service)

/-- Before an upload is begun. -/
structure Unsent (buffer : Bytes) (total : Nat) (st : Put) : Prop where
  uploadId : st.uploadId = none
  parts : st.parts = []
  buffer : st.buffer = buffer
  total : st.total = total
  untouched : Untouched s st.service

/-- After it was begun, and these parts were sent. -/
structure Sent (id : UploadId) (bodies : List Bytes) (buffer : Bytes)
    (total : Nat) (st : Put) : Prop where
  uploadId : st.uploadId = some id
  parts : st.parts = listed etag bodies
  buffer : st.buffer = buffer
  total : st.total = total
  begun : Begun key contentType s st.service id bodies

/-- What was read is in the parts, all of them full, and the buffer. -/
def Sending (data buffer : Bytes) (id : UploadId) (st : Put) : Prop :=
  ∃ full : List Bytes, (∀ body ∈ full, body.length = store.partBytes) ∧
    full.flatten ++ buffer = data ∧
    Sent etag key contentType s id full buffer data.length st

/-- What holds while the source is read. -/
inductive Progress (data buffer : Bytes) (st : Put) : Prop
  | buffered (whole : buffer = data)
      (unsent : Unsent s buffer data.length st)
  | sending (id : UploadId) (some_sent : st.parts ≠ [])
      (sending : Sending store etag key contentType s data buffer id st)

/-- What the handler finds: nothing to undo, or one upload to abort. -/
inductive Abortable (st : Put) : Prop
  | untouched (uploadId : st.uploadId = none)
      (objects : st.service.objects = s.objects)
      (uploads : st.service.uploads = s.uploads)
  | begun (id : UploadId) (upload : Upload) (uploadId : st.uploadId = some id)
      (fresh : s.uploads.get? id = none)
      (objects : st.service.objects = s.objects)
      (uploads : st.service.uploads = s.uploads.set id upload)

/-- The requests of a successful upload: one object, or parts of which
all but the last are full. -/
inductive Requested (data : Bytes) : List Request → Prop
  | whole (short : data.length < store.partBytes) :
      Requested data [.putObject key data]
  | parts (id : UploadId) (full : List Bytes) (last : Bytes)
      (some_full : full ≠ [])
      (sizes : ∀ body ∈ full, body.length = store.partBytes)
      (short : last.length < store.partBytes)
      (joined : (full ++ [last]).flatten = data) :
      Requested data
        (.createMultipartUpload key id :: partRequests id (full ++ [last]) ++
          [.completeMultipartUpload id (listed etag (full ++ [last]))])

/-- The upload is done: `total` is its length, and its object is
stored. -/
def Finished (data : Bytes) (total : Nat) (t : Service) : Prop :=
  total = data.length ∧ ∃ requests,
    Requested store etag key data requests ∧
      Stored key contentType s t data requests

end Locals

section Triples

variable {store : S3CompatibleDocumentStore} {etag : Bytes → Text}
  {faults : Faults} {key : Text} {contentType : Option Text}
  {s : Service} {data buffer : Bytes} {total : Nat}

/-- A failed call was a fault, and the handler can undo all. -/
abbrev Failed (faults : Faults) (s : Service) (st : Put) : Prop :=
  Faulty faults ∧ Abortable s st

/-- Reading stops where the source ends in an error, too. -/
abbrev Interrupted (faults : Faults) (outcome : Except Exn Unit)
    (s : Service) (st : Put) : Prop :=
  (Faulty faults ∨ ∃ e, outcome = .error e) ∧ Abortable s st

theorem Unsent.abortable {st : Put} (h : Unsent s buffer total st) :
    Abortable s st :=
  .untouched h.uploadId h.untouched.objects h.untouched.uploads

theorem Sent.abortable {st : Put} {id : UploadId} {bodies : List Bytes}
    (h : Sent etag key contentType s id bodies buffer total st) :
    Abortable s st :=
  .begun id _ h.uploadId h.begun.fresh h.begun.objects h.begun.uploads

theorem Progress.abortable {st : Put}
    (h : Progress store etag key contentType s data buffer st) :
    Abortable s st := by
  cases h with
  | buffered whole unsent => exact unsent.abortable
  | sending id some_sent sending =>
      obtain ⟨full, -, -, hsent⟩ := sending
      exact hsent.abortable

theorem Progress.locals {st : Put}
    (h : Progress store etag key contentType s data buffer st) :
    st.buffer = buffer ∧ st.total = data.length := by
  cases h with
  | buffered whole unsent => exact ⟨unsent.buffer, unsent.total⟩
  | sending id some_sent sending =>
      obtain ⟨full, -, -, hsent⟩ := sending
      exact ⟨hsent.buffer, hsent.total⟩

/-- Without an upload all that was read is in the buffer. -/
theorem Progress.unsent_of_none {st : Put}
    (h : Progress store etag key contentType s data buffer st)
    (hid : st.uploadId = none) :
    buffer = data ∧ Unsent s buffer data.length st := by
  cases h with
  | buffered whole unsent => exact ⟨whole, unsent⟩
  | sending id some_sent sending =>
      obtain ⟨full, -, -, hsent⟩ := sending
      cases hsent.uploadId.symm.trans hid

/-- With one, full parts were sent, and there is at least one of them. -/
theorem Progress.sent_of_some {st : Put} {id : UploadId}
    (h : Progress store etag key contentType s data buffer st)
    (hid : st.uploadId = some id) :
    ∃ full : List Bytes,
      (full ≠ [] ∧ (∀ body ∈ full, body.length = store.partBytes) ∧
        full.flatten ++ buffer = data) ∧
      Sent etag key contentType s id full buffer data.length st := by
  cases h with
  | buffered whole unsent => cases unsent.uploadId.symm.trans hid
  | sending id' some_sent sending =>
      obtain ⟨full, hsizes, hdata, hsent⟩ := sending
      cases hsent.uploadId.symm.trans hid
      refine ⟨full, ⟨?_, hsizes, hdata⟩, hsent⟩
      rintro rfl
      exact some_sent hsent.parts

/-- A block goes to the end of the buffer. -/
theorem Progress.read {st : Put}
    (h : Progress store etag key contentType s data buffer st)
    (block : Bytes) :
    Progress store etag key contentType s (data ++ block)
      (buffer ++ block)
      { st with
        buffer := st.buffer ++ block
        total := st.total + block.length } := by
  have hlocals := h.locals
  have hbuffer : st.buffer ++ block = buffer ++ block := by
    rw [hlocals.1]
  have htotal : st.total + block.length = (data ++ block).length := by
    rw [hlocals.2, List.length_append]
  cases h with
  | buffered whole unsent =>
      exact .buffered (by rw [whole]) ⟨unsent.uploadId, unsent.parts,
        hbuffer, htotal, unsent.untouched⟩
  | sending id some_sent sending =>
      obtain ⟨full, hsizes, hdata, hsent⟩ := sending
      refine .sending id some_sent ⟨full, hsizes, ?_, hsent.uploadId,
        hsent.parts, hbuffer, htotal, hsent.begun⟩
      rw [← List.append_assoc, hdata]

/-- A call's failure leaves the locals and the stored data alone. -/
theorem Abortable.called {st : Put} (h : Abortable s st) :
    Abortable s { st with service := st.service.called } := by
  cases h with
  | untouched uploadId objects uploads =>
      exact .untouched uploadId objects uploads
  | begun id upload uploadId fresh objects uploads =>
      exact .begun id upload uploadId fresh objects uploads

theorem triple_beginMultipart :
    Triple (Progress store etag key contentType s data buffer)
      (beginMultipart faults key contentType)
      (fun id st => Sending store etag key contentType s data buffer id st)
      (Failed faults s) := by
  unfold beginMultipart
  refine triple_current.bind (fun st0 => ?_)
  cases hid : st0.uploadId with
  | some id =>
      refine triple_pure ?_
      rintro st ⟨rfl, hst⟩
      obtain ⟨full, h, hsent⟩ := hst.sent_of_some hid
      exact ⟨full, h.2.1, h.2.2, hsent⟩
  | none =>
      refine (triple_call (Q := fun id st => Sending store etag key
        contentType s data buffer id { st with uploadId := some id })
          ?_ ?_).bind (fun id => ?_)
      · rintro st ⟨rfl, hst⟩
        obtain ⟨hwhole, h⟩ := hst.unsent_of_none hid
        obtain ⟨id, after, hcreate, hbegun⟩ :=
          createMultipartUpload_untouched h.untouched
        exact ⟨id, after, hcreate, [], by simp, hwhole, rfl, h.parts,
          h.buffer, h.total, hbegun⟩
      · rintro st ⟨rfl, hst⟩ hfaulty
        exact ⟨hfaulty, hst.abortable.called⟩
      · refine (triple_update (Q := fun _ => Sending store etag key
          contentType s data buffer id) (fun st hst => hst)).bind
            (fun _ => ?_)
        exact triple_pure (fun st hst => hst)

/-- The next part, numbered as the next. -/
theorem triple_sendPart {id : UploadId} {bodies : List Bytes}
    (body : Bytes) :
    Triple (Sent etag key contentType s id bodies buffer total)
      (sendPart etag faults key id body)
      (fun _ => Sent etag key contentType s id (bodies ++ [body]) buffer
        total)
      (Failed faults s) := by
  unfold sendPart
  refine triple_current.bind (fun st0 => ?_)
  refine (triple_call (Q := fun part st => Sent etag key contentType s id
    (bodies ++ [body]) buffer total { st with parts := st.parts ++ [part] })
      ?_ ?_).bind (fun part => triple_update (fun st hst => hst))
  · rintro st ⟨rfl, h⟩
    obtain ⟨after, hupload, hbegun⟩ :=
      uploadPart_begun etag h.begun body
    have hnumber : st0.parts.length = bodies.length := by
      rw [h.parts, length_listed]
    rw [hnumber]
    refine ⟨_, after, hupload, h.uploadId, ?_, h.buffer, h.total, hbegun⟩
    show st0.parts ++ [_] = _
    rw [h.parts, listed_concat]
  · rintro st ⟨rfl, h⟩ hfaulty
    exact ⟨hfaulty, h.abortable.called⟩

/-- One turn of the inner loop, once the upload is begun: a full part
leaves the buffer. -/
theorem triple_sendFull (id : UploadId)
    (hfull : store.partBytes ≤ buffer.length)
    {next : Eff Put Exn Unit} {Q : Unit → Put → Prop}
    (hnext : Triple (Progress store etag key contentType s data
      (buffer.drop store.partBytes)) next Q (Failed faults s)) :
    Triple (Sending store etag key contentType s data buffer id)
      (do
        sendPart etag faults key id (buffer.take store.partBytes)
        update (fun st =>
          { st with buffer := st.buffer.drop store.partBytes })
        next) Q (Failed faults s) := by
  refine triple_exists (fun full => triple_of_pre (fun hsizes =>
    triple_of_pre (fun hdata => ?_)))
  refine (triple_sendPart _).bind (fun _ => ?_)
  refine (triple_update (Q := fun _ => Progress store etag key contentType s
    data (buffer.drop store.partBytes)) ?_).bind (fun _ => hnext)
  intro st h
  refine .sending id ?_ ⟨full ++ [buffer.take store.partBytes], ?_, ?_,
    h.uploadId, h.parts, congrArg _ h.buffer, h.total, h.begun⟩
  · show st.parts ≠ []
    rw [h.parts, listed_concat]
    exact List.append_ne_nil_of_right_ne_nil _ (List.cons_ne_nil _ _)
  · intro body hbody
    rcases List.mem_append.mp hbody with hbody | hbody
    · exact hsizes body hbody
    · rw [List.mem_singleton.mp hbody, List.length_take,
        Nat.min_eq_left hfull]
  · rw [List.flatten_append, List.append_assoc, List.flatten_singleton,
      List.take_append_drop, hdata]

/-- The inner loop stops with less than a part in the buffer. -/
theorem triple_sendFullParts (turns : Nat) :
    ∀ buffer : Bytes, buffer.length ≤ turns →
      Triple (Progress store etag key contentType s data buffer)
        (sendFullParts store etag faults key contentType turns)
        (fun _ st => ∃ rest : Bytes, rest.length < store.partBytes ∧
          Progress store etag key contentType s data rest st)
        (Failed faults s) := by
  have hpart : 0 < store.partBytes :=
    Nat.lt_of_lt_of_le (by decide) store.partBytes_min
  induction turns with
  | zero =>
      intro buffer hlength
      exact triple_pure (fun st hst => ⟨buffer, by omega, hst⟩)
  | succ turns ih =>
      intro buffer hlength
      unfold sendFullParts
      refine triple_current.bind (fun st0 => ?_)
      split
      · rename_i hfull
        refine Triple.weaken (P := fun st => st0.buffer = buffer ∧
          Progress store etag key contentType s data buffer st) ?_ ?_
            (fun _ _ h => h) (fun _ h => h)
        · refine triple_of_pre (fun hbuffer => ?_)
          rw [hbuffer] at hfull ⊢
          refine triple_beginMultipart.bind (fun id => ?_)
          exact triple_sendFull id hfull
            (ih _ (by rw [List.length_drop]; omega))
        · rintro st ⟨rfl, hst⟩
          exact ⟨hst.locals.1, hst⟩
      · rename_i hshort
        refine triple_pure ?_
        rintro st ⟨rfl, hst⟩
        rw [hst.locals.1] at hshort
        exact ⟨buffer, Nat.lt_of_not_le hshort, hst⟩

/-- Reading goes on with what was read and what is left of it. -/
theorem triple_readBlocks (outcome : Except Exn Unit)
    (blocks : List Bytes) :
    ∀ data : Bytes,
      Triple (fun st => ∃ rest : Bytes, rest.length < store.partBytes ∧
          Progress store etag key contentType s data rest st)
        (readBlocks store etag faults key contentType outcome blocks)
        (fun _ st => outcome = .ok () ∧ ∃ rest : Bytes,
          rest.length < store.partBytes ∧
            Progress store etag key contentType s (data ++ blocks.flatten)
              rest st)
        (Interrupted faults outcome s) := by
  induction blocks with
  | nil =>
      intro data
      refine triple_checked ?_ ?_
      · intro _ hok st hst
        rw [List.flatten_nil, List.append_nil]
        exact ⟨hok, hst⟩
      · rintro e herror st ⟨rest, -, hst⟩
        exact ⟨Or.inr ⟨e, herror⟩, hst.abortable⟩
  | cons block blocks ih =>
      intro data
      rw [List.flatten_cons, ← List.append_assoc]
      refine triple_exists (fun rest => ?_)
      refine (triple_update (Q := fun _ => Progress store etag key
        contentType s (data ++ block) (rest ++ block)) ?_).bind
          (fun _ => triple_current.bind (fun st0 => ?_))
      · rintro st ⟨-, hst⟩
        exact hst.read block
      · refine Triple.weaken (P := fun st =>
          st0.buffer.length = (rest ++ block).length ∧
            Progress store etag key contentType s (data ++ block)
              (rest ++ block) st) ?_ ?_ (fun _ _ h => h) (fun _ h => h)
        · refine triple_of_pre (fun hlength => ?_)
          refine Triple.bind ?_ (fun _ => ih (data ++ block))
          exact (triple_sendFullParts _ _ (Nat.le_of_eq hlength.symm)).weaken
            (fun _ h => h) (fun _ _ h => h)
            (fun _ h => ⟨Or.inl h.1, h.2⟩)
        · rintro st ⟨rfl, hst⟩
          exact ⟨congrArg _ hst.locals.1, hst⟩

/-- The last part and the completion. -/
theorem triple_complete (id : UploadId) {full : List Bytes}
    (hne : full ≠ [])
    (hsizes : ∀ body ∈ full, body.length = store.partBytes)
    (hdata : full.flatten ++ buffer = data)
    (hshort : buffer.length < store.partBytes) :
    Triple (Sent etag key contentType s id full buffer total)
      (do
        sendPart etag faults key id buffer
        let st ← current
        call faults .completeMultipartUpload
          (completeMultipartUpload etag key id st.parts)
        return st.total)
      (fun n st => n = total ∧ ∃ requests,
        Requested store etag key data requests ∧
          Stored key contentType s st.service data requests)
      (Failed faults s) := by
  have hjoined : (full ++ [buffer]).flatten = data := by
    rw [List.flatten_append, List.flatten_singleton, hdata]
  refine (triple_sendPart buffer).bind (fun _ =>
    triple_current.bind (fun st0 => ?_))
  refine Triple.bind (Q := fun _ st => st0.total = total ∧ ∃ requests,
    Requested store etag key data requests ∧
      Stored key contentType s st.service data requests)
    (triple_call ?_ ?_) (fun _ => triple_pure (fun st hst => hst))
  · rintro st ⟨rfl, h⟩
    obtain ⟨after, hcomplete, hstored⟩ :=
      completeMultipartUpload_begun etag h.begun
        (List.append_ne_nil_of_right_ne_nil _ (List.cons_ne_nil _ _))
        (by
          intro body hbody
          rw [List.dropLast_concat] at hbody
          rw [hsizes body hbody]
          exact store.partBytes_min)
    rw [hjoined] at hstored
    rw [h.parts]
    exact ⟨(), after, hcomplete, h.total, _,
      .parts id full buffer hne hsizes hshort hjoined, hstored⟩
  · rintro st ⟨rfl, h⟩ hfaulty
    exact ⟨hfaulty, h.abortable.called⟩

theorem triple_finishPut (hshort : buffer.length < store.partBytes) :
    Triple (Progress store etag key contentType s data buffer)
      (finishPut etag faults key contentType)
      (fun n st => Finished store etag key contentType s data n st.service)
      (Failed faults s) := by
  unfold finishPut
  refine triple_current.bind (fun st0 => ?_)
  cases hid : st0.uploadId with
  | none =>
      refine Triple.bind (Q := fun _ st => Finished store etag key
        contentType s data st0.total st.service) (triple_call ?_ ?_)
          (fun _ => triple_pure (fun st hst => hst))
      · rintro st ⟨rfl, hst⟩
        obtain ⟨hwhole, h⟩ := hst.unsent_of_none hid
        obtain ⟨after, hput, hstored⟩ :=
          putObject_untouched h.untouched data
        rw [h.buffer, hwhole]
        rw [hwhole] at hshort
        exact ⟨(), after, hput, h.total, _, .whole hshort, hstored⟩
      · rintro st ⟨rfl, hst⟩ hfaulty
        exact ⟨hfaulty, hst.abortable.called⟩
  | some id =>
      refine Triple.weaken (P := fun st => st0.buffer = buffer ∧
        ∃ full : List Bytes,
          (full ≠ [] ∧ (∀ body ∈ full, body.length = store.partBytes) ∧
            full.flatten ++ buffer = data) ∧
          Sent etag key contentType s id full buffer data.length st) ?_ ?_
            (fun _ _ h => h) (fun _ h => h)
      · refine triple_of_pre (fun hbuffer => triple_exists (fun full =>
          triple_of_pre (fun h => ?_)))
        rw [hbuffer]
        exact triple_complete id h.1 h.2.1 h.2.2 hshort
      · rintro st ⟨rfl, hst⟩
        exact ⟨hst.locals.1, hst.sent_of_some hid⟩

/-- The whole of the `try`, from a service that was opened. -/
theorem triple_putBody (source : ChunkSource) :
    Triple (fun st => st = ⟨s, [], none, [], 0⟩)
      (putBody store etag faults key contentType source)
      (fun n st => source.outcome = .ok () ∧
        Finished store etag key contentType s source.data n st.service)
      (Interrupted faults source.outcome s) := by
  have hpart : 0 < store.partBytes :=
    Nat.lt_of_lt_of_le (by decide) store.partBytes_min
  refine Triple.bind ((triple_readBlocks source.outcome source.blocks
    []).weaken ?_ (fun _ _ h => h) (fun _ h => h)) (fun _ => ?_)
  · rintro st rfl
    exact ⟨[], hpart, .buffered rfl ⟨rfl, rfl, rfl, rfl, rfl, rfl, rfl,
      rfl⟩⟩
  · refine triple_of_pre (fun hok => triple_exists (fun rest =>
      triple_of_pre (fun hshort => ?_)))
    exact (triple_finishPut hshort).weaken (fun _ h => h)
      (fun _ _ h => ⟨hok, h⟩) (fun _ h => ⟨Or.inl h.1, h.2⟩)

end Triples

-- ==================================================== the whole upload

/-- The service once the store is connected to it. -/
def Service.opened (s : Service) : Service :=
  if s.connected then s
  else { s with connected := true, calls := s.calls + 1 }

theorem opened_objects (s : Service) : s.opened.objects = s.objects := by
  unfold Service.opened
  split <;> rfl

theorem opened_uploads (s : Service) : s.opened.uploads = s.uploads := by
  unfold Service.opened
  split <;> rfl

theorem triple_openStore {faults : Faults} {s : Service} :
    Triple (fun t => t = s) (openStore faults)
      (fun _ t => t = s.opened)
      (fun t => Faulty faults ∧ t = s.called) := by
  refine triple_act ?_ ?_
  · rintro t _ after rfl hrun
    by_cases hconnected : t.connected = true
    · rw [if_pos hconnected] at hrun
      cases hrun
      rw [Service.opened, if_pos hconnected]
    · rw [if_neg hconnected] at hrun
      cases attempt_ok (translate_ok_iff.mp hrun)
      rw [Service.opened, if_neg hconnected]
      rfl
  · rintro t e after rfl hrun
    by_cases hconnected : t.connected = true
    · rw [if_pos hconnected] at hrun
      cases hrun
    · rw [if_neg hconnected] at hrun
      obtain ⟨failure, hraised, -⟩ := translate_error_iff.mp hrun
      obtain ⟨rfl, hfaulty | ⟨refusal, hrefused⟩⟩ := attempt_error hraised
      · exact ⟨hfaulty, rfl⟩
      · cases hrefused

/-- Aborting the one upload that was begun leaves what was there. -/
theorem abort_begun {faults : Faults} {s t : Service} {id : UploadId}
    {upload : Upload} (hfresh : s.uploads.get? id = none)
    (hobjects : t.objects = s.objects)
    (huploads : t.uploads = s.uploads.set id upload) :
    (abort faults id t).objects = s.objects ∧
      (abort faults id t).uploads = s.uploads := by
  unfold abort attempt
  rw [runIn_act]
  simp only [faults.abort_succeeds]
  refine ⟨hobjects, ?_⟩
  show t.uploads.erase id = _
  rw [huploads, Dict.erase_set hfresh]

/-- An upload is faithful, and all or nothing. Where it returns, the
source has ended well, the object is what it yielded together, and every
call made was carried out. Where it raises, there was a fault or the
source raised, and the objects and the uploads are as they were. -/
theorem put_faithful (store : S3CompatibleDocumentStore)
    (etag : Bytes → Text) (faults : Faults) (key : Text)
    (contentType : Option Text) (source : ChunkSource) (s : Service) :
    (∀ total t, runIn (put store etag faults key contentType source) s =
        (.ok total, t) →
      source.outcome = .ok () ∧
        Finished store etag key (extraType contentType) s.opened
          source.data total t) ∧
    (∀ e t, runIn (put store etag faults key contentType source) s =
        (.error e, t) →
      (Faulty faults ∨ ∃ raised, source.outcome = .error raised) ∧
        t.objects = s.objects ∧ t.uploads = s.uploads) := by
  have htriple : Triple (fun t => t = s)
      (put store etag faults key contentType source)
      (fun total t => source.outcome = .ok () ∧
        Finished store etag key (extraType contentType) s.opened
          source.data total t)
      (fun t => (Faulty faults ∨ ∃ raised, source.outcome = .error raised) ∧
        t.objects = s.objects ∧ t.uploads = s.uploads) := by
    unfold put
    refine Triple.bind (triple_openStore.weaken (fun _ h => h)
      (fun _ _ h => h) ?_) (fun _ => triple_act ?_ ?_)
    · rintro t ⟨hfaulty, rfl⟩
      exact ⟨Or.inl hfaulty, rfl, rfl⟩
    all_goals
      rintro t r after rfl hrun
      cases hbody : runIn (putBody store etag faults key
        (extraType contentType) source) ⟨s.opened, [], none, [], 0⟩ with
      | mk result st => ?_
      rw [hbody] at hrun
    · cases result with
      | ok total =>
          cases hrun
          exact (triple_putBody source).returns rfl hbody
      | error e =>
          simp only at hrun
          split at hrun <;> cases hrun
    · cases result with
      | ok total => cases hrun
      | error e =>
          obtain ⟨htrouble, hst⟩ := (triple_putBody source).raises rfl hbody
          refine ⟨htrouble, ?_⟩
          rw [← opened_objects s, ← opened_uploads s]
          cases hst with
          | untouched uploadId objects uploads =>
              simp only [uploadId] at hrun
              cases hrun
              exact ⟨objects, uploads⟩
          | begun id upload uploadId fresh objects uploads =>
              simp only [uploadId] at hrun
              cases hrun
              exact abort_begun fresh objects uploads
  exact ⟨fun total t hrun => htriple.returns rfl hrun,
    fun e t hrun => htriple.raises rfl hrun⟩

end PrivacyGateway.Documents.S3
