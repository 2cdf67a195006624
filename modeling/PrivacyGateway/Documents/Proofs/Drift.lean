/-
Objects and rows, whatever is interleaved.

A deletion erases the object before the row, so that no object is left
without a row. What it erases must be there by then: a deletion that finds
the row of an upload, and erases before that upload has put its object,
leaves an object that no row names (`upload_outlives_row`).

`WaitsForUpload` rules that step out, and no other. `Tracked` is what the
steps then preserve: each object has a row, each row an upload, and a
stored row without its object has a deletion that is about to remove it.
Once every operation has finished there is none of these
(`run_settled`).
-/
import PrivacyGateway.Documents.Proofs.Streams
import PrivacyGateway.Documents.Service
import PrivacyGateway.Lib.Run

namespace PrivacyGateway.Documents

open Tokenization

-- ==================================================== the repository

namespace DocumentRepository

variable {rows : List DocumentRow} {ref : DocumentRef} {row : DocumentRow}

theorem get_ok (h : get rows ref = some row) :
    row ∈ rows ∧ row.ref = ref := by
  unfold get at h
  have hfound := List.find?_some h
  exact ⟨List.mem_of_find?_eq_some h, of_decide_eq_true hfound⟩

theorem create_ok {rows' : List DocumentRow}
    (h : create rows row = .ok rows') : rows' = rows ++ [row] := by
  unfold create at h
  split at h
  · cases h
  · cases h
    rfl

/-- What an update leaves of a row. -/
theorem mem_update {change : DocumentRow → DocumentRow} :
    row ∈ update rows ref change ↔ ∃ old ∈ rows,
      row = if old.ref = ref then change old else old := by
  unfold update
  rw [List.mem_map]
  constructor
  · intro h
    obtain ⟨old, hold, heq⟩ := h
    exact ⟨old, hold, heq.symm⟩
  · intro h
    obtain ⟨old, hold, heq⟩ := h
    exact ⟨old, hold, heq.symm⟩

theorem mem_delete : row ∈ delete rows ref ↔ row ∈ rows ∧ row.ref ≠ ref := by
  unfold delete
  rw [List.mem_filter, decide_eq_true_iff]

end DocumentRepository

namespace DocumentService

-- ==================================================== tasks

namespace DocumentTask

def op : DocumentTask → DocumentOp
  | .ready op => op
  | .putting request _ => .store request
  | .marking request _ _ _ => .store request
  | .abandoning request _ => .store request
  | .failing request _ => .store request
  | .erasing ref _ => .delete ref
  | .removing ref => .delete ref
  | .reading row _ => .retrieve row.ref
  | .done op _ => op

def Begun (task : DocumentTask) : Prop :=
  ∀ op, task ≠ .ready op

/-- The object that an upload is still to put. -/
def uploading? : DocumentTask → Option Text
  | .putting request _ => some request.storageKey
  | _ => none

/-- The object that a deletion is about to erase. -/
def erasing? : DocumentTask → Option Text
  | .erasing _ storageKey => some storageKey
  | _ => none

def isDone : DocumentTask → Bool
  | .done _ _ => true
  | _ => false

end DocumentTask

theorem DocumentTask.op_of_uploading {task : DocumentTask} {key : Text}
    (h : task.uploading? = some key) :
    ∃ request, task.op = .store request ∧ request.storageKey = key := by
  cases task with
  | putting request admitted =>
      cases h
      exact ⟨request, rfl, rfl⟩
  | _ => cases h

/-- What one step can do, by what it does to the world. -/
inductive StepTo : DocumentTask → DocumentWorld → DocumentTask →
    DocumentWorld → Prop
  | ends (task : DocumentTask) (world : DocumentWorld)
      (outcome : Except Exn Answer)
      (hidle : ∀ ref, task ≠ .removing ref) :
      StepTo task world (.done task.op outcome) world
  | begins (request : UploadRequest) (admitted : Admitted)
      (world : DocumentWorld) :
      StepTo (.ready (.store request)) world (.putting request admitted)
        { world with rows := world.rows ++ [request.row admitted] }
  | puts (request : UploadRequest) (admitted : Admitted) (byteSize : Nat)
      (sha256Hex : Text) (object : Bytes) (world : DocumentWorld) :
      StepTo (.putting request admitted) world
        (.marking request admitted byteSize sha256Hex)
        { world with
          objects := world.objects.set request.storageKey object }
  | refuses (request : UploadRequest) (admitted : Admitted) (e : Exn)
      (world : DocumentWorld) :
      StepTo (.putting request admitted) world (.abandoning request e) world
  | marks (request : UploadRequest) (admitted : Admitted) (byteSize : Nat)
      (sha256Hex : Text) (outcome : Except Exn Answer)
      (world : DocumentWorld) :
      StepTo (.marking request admitted byteSize sha256Hex) world
        (.done (.store request) outcome)
        { world with
          rows := DocumentRepository.markStored world.rows request.ref
            byteSize sha256Hex }
  | sweeps (request : UploadRequest) (e : Exn) (world : DocumentWorld) :
      StepTo (.abandoning request e) world (.failing request e)
        { world with objects := world.objects.erase request.storageKey }
  | fails (request : UploadRequest) (e : Exn)
      (outcome : Except Exn Answer) (world : DocumentWorld) :
      StepTo (.failing request e) world (.done (.store request) outcome)
        { world with
          rows := DocumentRepository.markFailed world.rows request.ref }
  | finds (row : DocumentRow) (world : DocumentWorld)
      (hrow : row ∈ world.rows) :
      StepTo (.ready (.delete row.ref)) world
        (.erasing row.ref row.storageKey) world
  | erases (ref : DocumentRef) (storageKey : Text)
      (world : DocumentWorld) :
      StepTo (.erasing ref storageKey) world (.removing ref)
        { world with objects := world.objects.erase storageKey }
  | removes (ref : DocumentRef) (outcome : Except Exn Answer)
      (world : DocumentWorld) :
      StepTo (.removing ref) world (.done (.delete ref) outcome)
        { world with rows := DocumentRepository.delete world.rows ref }
  | locates (row : DocumentRow) (filename : Text)
      (world : DocumentWorld) :
      StepTo (.ready (.retrieve row.ref)) world (.reading row filename)
        world

theorem locate_ok {service : DocumentService} {rows : List DocumentRow}
    {ref : DocumentRef} {row : DocumentRow} {filename : Text}
    (h : service.locate rows ref = .ok (row, filename)) :
    row.ref = ref := by
  unfold locate at h
  split at h
  · cases h
  · rename_i found hget
    split at h
    · cases h
    · split at h
      · cases h
      · split at h
        · cases h
        · cases h
          exact (DocumentRepository.get_ok hget).2

theorem step_to (service : DocumentService) (task : DocumentTask)
    (world : DocumentWorld) :
    StepTo task world (service.step task world).1
      (service.step task world).2 := by
  cases task with
  | ready op =>
      have hidle : ∀ ref, DocumentTask.ready op ≠ .removing ref := by simp
      cases op with
      | store request =>
          simp only [step]
          split
          · exact .ends _ world _ hidle
          · split
            · exact .ends _ world _ hidle
            · rename_i hcreate
              rw [DocumentRepository.create_ok hcreate]
              exact .begins ..
      | delete ref =>
          simp only [step]
          split
          · exact .ends _ world _ hidle
          · rename_i hget
            obtain ⟨hrow, rfl⟩ := DocumentRepository.get_ok hget
            exact .finds _ _ hrow
      | status ref =>
          simp only [step]
          split
          · exact .ends _ world _ hidle
          · exact .ends _ world _ hidle
      | retrieve ref =>
          simp only [step]
          split
          · exact .ends _ world _ hidle
          · rename_i hlocate
            rw [← locate_ok hlocate]
            exact .locates ..
  | putting request admitted =>
      simp only [step]
      split
      · exact .refuses ..
      · exact .puts ..
  | marking request admitted byteSize sha256Hex =>
      simp only [step, finish]
      split
      · exact .marks ..
      · exact .marks ..
  | abandoning request e => exact .sweeps ..
  | failing request e => exact .fails ..
  | erasing ref storageKey => exact .erases ..
  | removing ref => exact .removes ..
  | reading row filename => exact .ends _ world _ (by simp)
  | done op outcome => exact .ends (.done op outcome) world _ (by simp)

section Step

variable {task task' : DocumentTask} {world world' : DocumentWorld}

theorem StepTo.op_eq (h : StepTo task world task' world') :
    task'.op = task.op := by
  cases h <;> rfl

/-- No step leads back to a beginning. -/
theorem StepTo.begun (h : StepTo task world task' world') :
    task'.Begun := by
  intro op heq
  cases h <;> cases heq

end Step

-- ==================================================== the invariant

variable {ι : Type}

/-- Two uploads draw different ids and different storage keys. -/
def DrawsApart (ops : ι → DocumentOp) : Prop :=
  ∀ i j request other, ops i = .store request → ops j = .store other →
    (request.documentId = other.documentId ∨
      request.tokenId = other.tokenId) → i = j

/-- The key is the one that an upload of this document draws, and the
upload has begun. -/
def Owned (system : DocumentSystem ι) (ref : DocumentRef)
    (storageKey : Text) : Prop :=
  ∃ i request, (system.tasks i).op = .store request ∧
    (system.tasks i).Begun ∧ request.ref = ref ∧
    request.storageKey = storageKey

/-- The row has its object, or a deletion is about to remove it. -/
def Backed (system : DocumentSystem ι) (row : DocumentRow) : Prop :=
  system.world.objects.get? row.storageKey ≠ none ∨
    ∃ i, system.tasks i = .removing row.ref

/-- Rows under the key are not marked stored. -/
def Unstored (system : DocumentSystem ι) (storageKey : Text) : Prop :=
  ∀ row ∈ system.world.rows, row.storageKey = storageKey →
    row.status ≠ .stored

/-- What holds of an operation while it is under way. -/
def TaskInv (system : DocumentSystem ι) : DocumentTask → Prop
  | .putting request _ =>
      system.world.objects.get? request.storageKey = none ∧
        Unstored system request.storageKey ∧
        ∃ row ∈ system.world.rows, row.storageKey = request.storageKey
  | .marking request _ _ _ =>
      ∀ row ∈ system.world.rows, row.storageKey = request.storageKey →
        Backed system row
  | .abandoning request _ => Unstored system request.storageKey
  | .failing request _ => Unstored system request.storageKey
  | .erasing ref storageKey => Owned system ref storageKey
  | .removing ref =>
      ∃ storageKey, Owned system ref storageKey ∧
        system.world.objects.get? storageKey = none ∧
        ∀ i, (system.tasks i).uploading? ≠ some storageKey
  | _ => True

/-- What every step preserves. -/
structure Tracked (ops : ι → DocumentOp) (system : DocumentSystem ι) :
    Prop where
  ops_eq : ∀ i, (system.tasks i).op = ops i
  rows_owned : ∀ row ∈ system.world.rows,
    Owned system row.ref row.storageKey
  objects_rowed : ∀ key, system.world.objects.get? key ≠ none →
    ∃ row ∈ system.world.rows, row.storageKey = key
  stored_backed : ∀ row ∈ system.world.rows, row.status = .stored →
    Backed system row
  tasks_ok : ∀ i, TaskInv system (system.tasks i)

section Tracked

variable {ops : ι → DocumentOp} {s : DocumentSystem ι} {i : ι}

theorem storageKey_inj {request other : UploadRequest} :
    request.storageKey = other.storageKey ↔
      request.tokenId = other.tokenId := by
  unfold UploadRequest.storageKey
  rw [List.append_cancel_left_eq]
  exact encodeCrockford_injective.eq_iff

/-- A document has one key, and a key one document. -/
theorem Tracked.key_iff (h : Tracked ops s) (hdraws : DrawsApart ops)
    {ref ref' : DocumentRef} {key key' : Text} (howned : Owned s ref key)
    (howned' : Owned s ref' key') : ref = ref' ↔ key = key' := by
  obtain ⟨j, request, hop, -, rfl, rfl⟩ := howned
  obtain ⟨j', request', hop', -, rfl, rfl⟩ := howned'
  rw [h.ops_eq] at hop hop'
  constructor
  · intro href
    have hid : request.documentId = request'.documentId :=
      congrArg DocumentRef.documentId href
    have hj := hdraws j j' request request' hop hop' (Or.inl hid)
    subst hj
    rw [hop] at hop'
    cases hop'
    rfl
  · intro hkey
    have hj := hdraws j j' request request' hop hop'
      (Or.inr (storageKey_inj.mp hkey))
    subst hj
    rw [hop] at hop'
    cases hop'
    rfl

/-- Two uploads have two keys. -/
theorem Tracked.keys_ne (h : Tracked ops s) (hdraws : DrawsApart ops)
    {j : ι} (hj : j ≠ i) {request other : UploadRequest}
    (hop : (s.tasks i).op = .store request)
    (hop' : (s.tasks j).op = .store other) :
    request.storageKey ≠ other.storageKey := by
  intro hkey
  rw [h.ops_eq] at hop hop'
  exact hj (hdraws i j request other hop hop'
    (Or.inr (storageKey_inj.mp hkey))).symm

theorem tracked_start (ops : ι → DocumentOp) :
    Tracked ops (DocumentSystem.start ops) where
  ops_eq _ := rfl
  rows_owned _ hrow := nomatch hrow
  objects_rowed _ hobject := absurd rfl hobject
  stored_backed _ hrow := nomatch hrow
  tasks_ok _ := trivial

/-- Every operation has finished. -/
def Finished (s : DocumentSystem ι) : Prop :=
  ∀ i, (s.tasks i).isDone = true

/-- Every object has a row that names its key, and every stored row has
its object. -/
def Reconciled (world : DocumentWorld) : Prop :=
  (∀ key, world.objects.get? key ≠ none →
    ∃ row ∈ world.rows, row.storageKey = key) ∧
  ∀ row ∈ world.rows, row.status = .stored →
    world.objects.get? row.storageKey ≠ none

theorem Tracked.reconciled (h : Tracked ops s) (hdone : Finished s) :
    Reconciled s.world := by
  refine ⟨h.objects_rowed, ?_⟩
  intro row hrow hstored
  rcases h.stored_backed row hrow hstored with hobject | ⟨i, hi⟩
  · exact hobject
  · have hfinished := hdone i
    rw [hi] at hfinished
    cases hfinished

/-- What the other operations need of a move. -/
structure Undisturbed (s t : DocumentSystem ι) (task : DocumentTask) :
    Prop where
  owned : ∀ {ref key}, Owned s ref key → Owned t ref key
  absent : ∀ {key}, s.world.objects.get? key = none →
    (task.uploading? = some key ∨
      ∀ i, (s.tasks i).uploading? ≠ some key) →
    t.world.objects.get? key = none
  uploading : ∀ {key} i, (t.tasks i).uploading? = some key →
    (∃ i, (s.tasks i).uploading? = some key) ∨
      ∀ ref, ¬ Owned s ref key
  unstored : ∀ {request}, task.op = .store request →
    Unstored s request.storageKey → Unstored t request.storageKey
  rowed : ∀ {key}, task.uploading? = some key →
    (∃ row ∈ s.world.rows, row.storageKey = key) →
    ∃ row ∈ t.world.rows, row.storageKey = key
  backed : ∀ {request}, task.op = .store request →
    (∀ row ∈ s.world.rows, row.storageKey = request.storageKey →
      Backed s row) →
    ∀ row ∈ t.world.rows, row.storageKey = request.storageKey →
      Backed t row

theorem TaskInv.undisturbed {t : DocumentSystem ι} {task : DocumentTask}
    (h : TaskInv s task) (hsame : Undisturbed s t task) :
    TaskInv t task := by
  cases task with
  | putting request admitted =>
      obtain ⟨habsent, hunstored, hrow⟩ := h
      exact ⟨hsame.absent habsent (Or.inl rfl), hsame.unstored rfl hunstored,
        hsame.rowed rfl hrow⟩
  | marking request admitted byteSize sha256Hex => exact hsame.backed rfl h
  | abandoning request e => exact hsame.unstored rfl h
  | failing request e => exact hsame.unstored rfl h
  | erasing ref storageKey => exact hsame.owned h
  | removing ref =>
      obtain ⟨key, howned, habsent, hnone⟩ := h
      refine ⟨key, hsame.owned howned, hsame.absent habsent (Or.inr hnone),
        ?_⟩
      intro i hi
      rcases hsame.uploading i hi with ⟨j, hj⟩ | hunowned
      · exact hnone j hj
      · exact hunowned ref howned
  | ready op => trivial
  | reading row filename => trivial
  | done op outcome => trivial

end Tracked

-- ==================================================== one step

section Moved

variable [DecidableEq ι] {ops : ι → DocumentOp} {s : DocumentSystem ι}
  {i : ι} {task' : DocumentTask} {world' : DocumentWorld}

/-- The system after one operation has moved. -/
def DocumentSystem.moved (s : DocumentSystem ι) (i : ι)
    (task' : DocumentTask) (world' : DocumentWorld) : DocumentSystem ι where
  world := world'
  tasks := Function.update s.tasks i task'

@[simp] theorem moved_self : (s.moved i task' world').tasks i = task' :=
  Function.update_self ..

theorem moved_ne {j : ι} (h : j ≠ i) :
    (s.moved i task' world').tasks j = s.tasks j :=
  Function.update_of_ne h ..

/-- What has begun stays begun. -/
theorem Owned.moved {ref : DocumentRef} {key : Text}
    (h : Owned s ref key)
    (hstep : StepTo (s.tasks i) s.world task' world') :
    Owned (s.moved i task' world') ref key := by
  obtain ⟨j, request, hop, hbegun, href, hkey⟩ := h
  refine ⟨j, request, ?_, ?_, href, hkey⟩
  · by_cases hj : j = i
    · subst hj
      rw [moved_self, hstep.op_eq, hop]
    · rw [moved_ne hj, hop]
  · by_cases hj : j = i
    · subst hj
      rw [moved_self]
      exact hstep.begun
    · rw [moved_ne hj]
      exact hbegun

/-- A row stays backed while its object stays, unless the deletion that was
about to remove it is the one that moves. -/
theorem Backed.moved {row : DocumentRow} (h : Backed s row)
    (hobject : s.world.objects.get? row.storageKey ≠ none →
      world'.objects.get? row.storageKey ≠ none)
    (hidle : s.tasks i ≠ .removing row.ref) :
    Backed (s.moved i task' world') row := by
  rcases h with hstored | ⟨j, hj⟩
  · exact Or.inl (hobject hstored)
  · right
    refine ⟨j, ?_⟩
    rw [moved_ne, hj]
    rintro rfl
    exact hidle hj

/-- Who uploads after a move: who did before, or the one that moved. -/
theorem uploading_moved {key : Text} {j : ι}
    (h : ((s.moved i task' world').tasks j).uploading? = some key) :
    (∃ j, (s.tasks j).uploading? = some key) ∨
      task'.uploading? = some key := by
  by_cases hj : j = i
  · subst hj
    rw [moved_self] at h
    exact Or.inr h
  · rw [moved_ne hj] at h
    exact Or.inl ⟨j, h⟩

/-- The invariant of the moved system, from its parts. -/
theorem Tracked.moved (h : Tracked ops s)
    (hstep : StepTo (s.tasks i) s.world task' world')
    (hrows : ∀ row ∈ world'.rows,
      Owned (s.moved i task' world') row.ref row.storageKey)
    (hobjects : ∀ key, world'.objects.get? key ≠ none →
      ∃ row ∈ world'.rows, row.storageKey = key)
    (hstored : ∀ row ∈ world'.rows, row.status = .stored →
      Backed (s.moved i task' world') row)
    (hself : TaskInv (s.moved i task' world') task')
    (hothers : ∀ j, j ≠ i →
      Undisturbed s (s.moved i task' world') (s.tasks j)) :
    Tracked ops (s.moved i task' world') where
  ops_eq j := by
    by_cases hj : j = i
    · subst hj
      rw [moved_self, hstep.op_eq, h.ops_eq]
    · rw [moved_ne hj, h.ops_eq]
  rows_owned := hrows
  objects_rowed := hobjects
  stored_backed := hstored
  tasks_ok j := by
    by_cases hj : j = i
    · subst hj
      rw [moved_self]
      exact hself
    · rw [moved_ne hj]
      exact (h.tasks_ok j).undisturbed (hothers j hj)

/-- A move that leaves the world as it is. -/
theorem Tracked.quiet (h : Tracked ops s)
    (hstep : StepTo (s.tasks i) s.world task' s.world)
    (hidle : ∀ ref, s.tasks i ≠ .removing ref)
    (hupload : task'.uploading? = none)
    (hself : TaskInv (s.moved i task' s.world) task') :
    Tracked ops (s.moved i task' s.world) := by
  have hbacked : ∀ {row}, Backed s row →
      Backed (s.moved i task' s.world) row :=
    fun hrow => hrow.moved id (hidle _)
  refine h.moved hstep (fun row hrow => (h.rows_owned row hrow).moved hstep)
    h.objects_rowed
    (fun row hrow hstored => hbacked (h.stored_backed row hrow hstored))
    hself ?_
  intro j hj
  exact {
    owned := fun howned => howned.moved hstep
    absent := fun habsent _ => habsent
    uploading := by
      intro key k hk
      rcases uploading_moved hk with hbefore | hself
      · exact Or.inl hbefore
      · rw [hupload] at hself
        cases hself
    unstored := fun _ hunstored => hunstored
    rowed := fun _ hrow => hrow
    backed := fun _ hall row hrow hkey => hbacked (hall row hrow hkey) }

/-- An upload begins. -/
theorem Tracked.begins (h : Tracked ops s) (hdraws : DrawsApart ops)
    {request : UploadRequest} {admitted : Admitted}
    (hi : s.tasks i = .ready (.store request)) :
    Tracked ops (s.moved i (.putting request admitted)
      { s.world with
        rows := s.world.rows ++ [request.row admitted] }) := by
  have hstep : StepTo (s.tasks i) s.world (.putting request admitted)
      { s.world with rows := s.world.rows ++ [request.row admitted] } := by
    rw [hi]
    exact .begins ..
  have hop : (s.tasks i).op = .store request := by
    rw [hi]
    rfl
  -- nothing is known under this key before
  have hunowned : ∀ ref, ¬ Owned s ref request.storageKey := by
    intro ref howned
    obtain ⟨j, other, hother, hbegun, -, hkey⟩ := howned
    by_cases hj : j = i
    · subst hj
      exact hbegun _ hi
    · exact h.keys_ne hdraws hj hop hother hkey.symm
  have habsent : s.world.objects.get? request.storageKey = none := by
    by_contra hobject
    obtain ⟨row, hrow, hkey⟩ := h.objects_rowed _ hobject
    have howned := h.rows_owned row hrow
    rw [hkey] at howned
    exact hunowned _ howned
  have hfresh : ∀ row ∈ s.world.rows,
      row.storageKey ≠ request.storageKey := by
    intro row hrow hkey
    have howned := h.rows_owned row hrow
    rw [hkey] at howned
    exact hunowned _ howned
  have hbacked : ∀ {row}, Backed s row → Backed (s.moved i
      (.putting request admitted) { s.world with
        rows := s.world.rows ++ [request.row admitted] }) row := by
    intro row hrow
    refine hrow.moved id ?_
    rw [hi]
    simp
  refine h.moved hstep ?_ ?_ ?_ ?_ ?_
  · intro row hrow
    rcases List.mem_append.mp hrow with hold | hnew
    · exact (h.rows_owned row hold).moved hstep
    · rw [List.mem_singleton.mp hnew]
      refine ⟨i, request, ?_, ?_, rfl, rfl⟩
      · rw [moved_self]
        rfl
      · rw [moved_self]
        exact hstep.begun
  · intro key hkey
    obtain ⟨row, hrow, heq⟩ := h.objects_rowed key hkey
    exact ⟨row, List.mem_append_left _ hrow, heq⟩
  · intro row hrow hstored
    rcases List.mem_append.mp hrow with hold | hnew
    · exact hbacked (h.stored_backed row hold hstored)
    · rw [List.mem_singleton.mp hnew] at hstored
      cases hstored
  · refine ⟨habsent, ?_, request.row admitted,
      List.mem_append_right _ (List.mem_singleton.mpr rfl), rfl⟩
    intro row hrow hkey
    rcases List.mem_append.mp hrow with hold | hnew
    · exact absurd hkey (hfresh row hold)
    · rw [List.mem_singleton.mp hnew]
      exact DocumentStatus.noConfusion
  · intro j hj
    have hold : ∀ {other : UploadRequest},
        (s.tasks j).op = .store other →
          ∀ row ∈ s.world.rows ++ [request.row admitted],
            row.storageKey = other.storageKey → row ∈ s.world.rows := by
      intro other hother row hrow hkey
      rcases List.mem_append.mp hrow with hrow | hnew
      · exact hrow
      · rw [List.mem_singleton.mp hnew] at hkey
        exact absurd hkey (h.keys_ne hdraws hj hop hother)
    exact {
      owned := fun howned => howned.moved hstep
      absent := fun hnone _ => hnone
      uploading := by
        intro key k hk
        rcases uploading_moved hk with hbefore | hself
        · exact Or.inl hbefore
        · cases hself
          exact Or.inr hunowned
      unstored := fun hother hall row hrow hkey =>
        hall row (hold hother row hrow hkey) hkey
      rowed := by
        intro key _ hrow
        obtain ⟨row, hrow, hkey⟩ := hrow
        exact ⟨row, List.mem_append_left _ hrow, hkey⟩
      backed := fun hother hall row hrow hkey =>
        hbacked (hall row (hold hother row hrow hkey) hkey) }

/-- An upload puts its object. -/
theorem Tracked.puts (h : Tracked ops s) (hdraws : DrawsApart ops)
    {request : UploadRequest} {admitted : Admitted} {byteSize : Nat}
    {sha256Hex : Text} {object : Bytes}
    (hi : s.tasks i = .putting request admitted) :
    Tracked ops (s.moved i (.marking request admitted byteSize sha256Hex)
      { s.world with
        objects := s.world.objects.set request.storageKey object }) := by
  have hstep : StepTo (s.tasks i) s.world
      (.marking request admitted byteSize sha256Hex)
      { s.world with
        objects := s.world.objects.set request.storageKey object } := by
    rw [hi]
    exact .puts ..
  have hop : (s.tasks i).op = .store request := by
    rw [hi]
    rfl
  have hinv := h.tasks_ok i
  rw [hi] at hinv
  obtain ⟨-, -, hrow⟩ := hinv
  have hother : ∀ {key}, key ≠ request.storageKey →
      (s.world.objects.set request.storageKey object).get? key =
        s.world.objects.get? key :=
    fun hkey => Dict.get?_set_ne _ _ hkey.symm
  have hset : ∀ {row : DocumentRow},
      row.storageKey = request.storageKey →
      (s.world.objects.set request.storageKey object).get?
        row.storageKey ≠ none := by
    intro row hkey
    rw [hkey, Dict.get?_set_self]
    exact Option.some_ne_none _
  have hbacked : ∀ {row}, Backed s row → Backed (s.moved i
      (.marking request admitted byteSize sha256Hex) { s.world with
        objects := s.world.objects.set request.storageKey object }) row := by
    intro row hbefore
    refine hbefore.moved ?_ ?_
    · intro hobject
      by_cases hkey : row.storageKey = request.storageKey
      · exact hset hkey
      · rw [hother hkey]
        exact hobject
    · rw [hi]
      simp
  refine h.moved hstep
    (fun row hrow => (h.rows_owned row hrow).moved hstep) ?_
    (fun row hrow hstored => hbacked (h.stored_backed row hrow hstored))
    (fun row _ hkey => Or.inl (hset hkey)) ?_
  · intro key hkey
    by_cases heq : key = request.storageKey
    · rw [heq]
      exact hrow
    · simp only at hkey
      rw [hother heq] at hkey
      exact h.objects_rowed key hkey
  · intro j hj
    exact {
      owned := fun howned => howned.moved hstep
      absent := by
        intro key hnone hwho
        show (s.world.objects.set request.storageKey object).get? key = none
        rw [hother ?_]
        · exact hnone
        · rintro rfl
          rcases hwho with hself | hnobody
          · obtain ⟨other, hop', hkey⟩ := DocumentTask.op_of_uploading hself
            exact h.keys_ne hdraws hj hop hop' hkey.symm
          · apply hnobody i
            rw [hi]
            rfl
      uploading := by
        intro key k hk
        rcases uploading_moved hk with hbefore | hself
        · exact Or.inl hbefore
        · cases hself
      unstored := fun _ hunstored => hunstored
      rowed := fun _ hrow => hrow
      backed := fun _ hall row hrow hkey => hbacked (hall row hrow hkey) }

/-- An upload gives its row another status, and nothing else that the
invariant reads. -/
theorem Tracked.updates (h : Tracked ops s) (hdraws : DrawsApart ops)
    {request : UploadRequest} {change : DocumentRow → DocumentRow}
    (hop : (s.tasks i).op = .store request)
    (hbegun : (s.tasks i).Begun)
    (hstep : StepTo (s.tasks i) s.world task' { s.world with
      rows := DocumentRepository.update s.world.rows request.ref change })
    (hupload : task'.uploading? = none)
    (hidle : ∀ ref, s.tasks i ≠ .removing ref)
    (href : ∀ row, (change row).ref = row.ref)
    (hkey : ∀ row, (change row).storageKey = row.storageKey)
    (hstored : ∀ row ∈ s.world.rows, row.ref = request.ref →
      (change row).status = .stored → Backed s row)
    (hself : TaskInv (s.moved i task' { s.world with
      rows := DocumentRepository.update s.world.rows request.ref change })
      task') :
    Tracked ops (s.moved i task' { s.world with
      rows := DocumentRepository.update s.world.rows request.ref
        change }) := by
  have howned : Owned s request.ref request.storageKey :=
    ⟨i, request, hop, hbegun, rfl, rfl⟩
  have hbacked : ∀ {row other : DocumentRow}, row.ref = other.ref →
      row.storageKey = other.storageKey → Backed s other →
      Backed (s.moved i task' { s.world with
        rows := DocumentRepository.update s.world.rows request.ref
          change }) row := by
    intro row other href hkey hbefore
    have hmoved : Backed (s.moved i task' { s.world with
        rows := DocumentRepository.update s.world.rows request.ref
          change }) other :=
      hbefore.moved id (hidle _)
    unfold Backed at hmoved ⊢
    rw [href, hkey]
    exact hmoved
  -- an updated row, and the row it was
  have hold : ∀ {row}, row ∈ DocumentRepository.update s.world.rows
      request.ref change → ∃ old ∈ s.world.rows, row.ref = old.ref ∧
        row.storageKey = old.storageKey ∧
        (row = old ∨ old.ref = request.ref ∧ row = change old) := by
    intro row hrow
    obtain ⟨old, hmem, hrow⟩ := DocumentRepository.mem_update.mp hrow
    by_cases hsame : old.ref = request.ref
    · rw [if_pos hsame] at hrow
      subst hrow
      exact ⟨old, hmem, href old, hkey old, Or.inr ⟨hsame, rfl⟩⟩
    · rw [if_neg hsame] at hrow
      subst hrow
      exact ⟨row, hmem, rfl, rfl, Or.inl rfl⟩
  have hnew : ∀ {key}, (∃ row ∈ s.world.rows, row.storageKey = key) →
      ∃ row ∈ DocumentRepository.update s.world.rows request.ref change,
        row.storageKey = key := by
    intro key hrow
    obtain ⟨row, hrow, rfl⟩ := hrow
    refine ⟨_, DocumentRepository.mem_update.mpr ⟨row, hrow, rfl⟩, ?_⟩
    by_cases hsame : row.ref = request.ref
    · rw [if_pos hsame, hkey]
    · rw [if_neg hsame]
  refine h.moved hstep ?_ (fun key hobject => hnew
    (h.objects_rowed key hobject)) ?_ hself ?_
  · intro row hrow
    obtain ⟨old, hmem, href, hkey, -⟩ := hold hrow
    rw [href, hkey]
    exact (h.rows_owned old hmem).moved hstep
  · intro row hrow hstatus
    obtain ⟨old, hmem, href, hkey, rfl | ⟨hsame, rfl⟩⟩ := hold hrow
    · exact hbacked rfl rfl (h.stored_backed row hmem hstatus)
    · exact hbacked href hkey (hstored old hmem hsame hstatus)
  · intro j hj
    exact {
      owned := fun howned => howned.moved hstep
      absent := fun habsent _ => habsent
      uploading := by
        intro key k hk
        rcases uploading_moved hk with hbefore | hself
        · exact Or.inl hbefore
        · rw [hupload] at hself
          cases hself
      unstored := by
        intro other hother hall row hrow hrowkey
        obtain ⟨old, hmem, href, hkey, rfl | ⟨hsame, rfl⟩⟩ := hold hrow
        · exact hall row hmem hrowkey
        · have hkeys : old.storageKey = request.storageKey :=
            (h.key_iff hdraws (h.rows_owned old hmem) howned).mp hsame
          refine absurd ?_ (h.keys_ne hdraws hj hop hother)
          rw [← hkeys, ← hkey, hrowkey]
      rowed := fun _ hrow => hnew hrow
      backed := by
        intro other hother hall row hrow hrowkey
        obtain ⟨old, hmem, href, hkey, -⟩ := hold hrow
        rw [hkey] at hrowkey
        exact hbacked href hkey (hall old hmem hrowkey) }

/-- An operation erases an object: a deletion that will remove its row, or
the upload itself, whose row is not stored. -/
theorem Tracked.erases (h : Tracked ops s) (hdraws : DrawsApart ops)
    {ref : DocumentRef} {key : Text} (howned : Owned s ref key)
    (hstep : StepTo (s.tasks i) s.world task' { s.world with
      objects := s.world.objects.erase key })
    (hupload : task'.uploading? = none)
    (hidle : ∀ ref, s.tasks i ≠ .removing ref)
    (hleft : task' = .removing ref ∨ Unstored s key ∧
      ∃ request, (s.tasks i).op = .store request ∧
        request.storageKey = key)
    (hself : TaskInv (s.moved i task' { s.world with
      objects := s.world.objects.erase key }) task') :
    Tracked ops (s.moved i task' { s.world with
      objects := s.world.objects.erase key }) := by
  have hbacked : ∀ {row}, row ∈ s.world.rows → Backed s row →
      (row.storageKey = key → task' = .removing ref) →
      Backed (s.moved i task' { s.world with
        objects := s.world.objects.erase key }) row := by
    intro row hrow hbefore hsame
    by_cases hkey : row.storageKey = key
    · have href := (h.key_iff hdraws (h.rows_owned row hrow) howned).mpr hkey
      right
      refine ⟨i, ?_⟩
      rw [moved_self, hsame hkey, href]
    · refine hbefore.moved ?_ (hidle _)
      simp only [Dict.get?_erase, if_neg (Ne.symm hkey)]
      exact id
  refine h.moved hstep
    (fun row hrow => (h.rows_owned row hrow).moved hstep) ?_ ?_ hself ?_
  · intro other hobject
    simp only [Dict.get?_erase] at hobject
    by_cases hkey : key = other
    · rw [if_pos hkey] at hobject
      exact absurd rfl hobject
    · rw [if_neg hkey] at hobject
      exact h.objects_rowed other hobject
  · intro row hrow hstored
    refine hbacked hrow (h.stored_backed row hrow hstored) ?_
    intro hkey
    rcases hleft with hremoving | ⟨hunstored, -⟩
    · exact hremoving
    · exact absurd hstored (hunstored row hrow hkey)
  · intro j hj
    exact {
      owned := fun howned => howned.moved hstep
      absent := by
        intro other hnone _
        show (s.world.objects.erase key).get? other = none
        rw [Dict.get?_erase, hnone, ite_self]
      uploading := by
        intro other k hk
        rcases uploading_moved hk with hbefore | hself
        · exact Or.inl hbefore
        · rw [hupload] at hself
          cases hself
      unstored := fun _ hunstored => hunstored
      rowed := fun _ hrow => hrow
      backed := by
        intro other hother hall row hrow hkey
        refine hbacked hrow (hall row hrow hkey) ?_
        intro hsame
        rcases hleft with hremoving | ⟨-, request, hop, hrequest⟩
        · exact hremoving
        · refine absurd ?_ (h.keys_ne hdraws hj hop hother)
          rw [hrequest, ← hsame, hkey] }

/-- A deletion removes its row, once the object is gone. -/
theorem Tracked.removes (h : Tracked ops s) (hdraws : DrawsApart ops)
    {ref : DocumentRef} (hi : s.tasks i = .removing ref)
    (hstep : StepTo (s.tasks i) s.world task' { s.world with
      rows := DocumentRepository.delete s.world.rows ref })
    (hdone : task'.isDone = true) :
    Tracked ops (s.moved i task' { s.world with
      rows := DocumentRepository.delete s.world.rows ref }) := by
  have hinv := h.tasks_ok i
  rw [hi] at hinv
  obtain ⟨key, howned, habsent, hnone⟩ := hinv
  have hbacked : ∀ {row}, row.ref ≠ ref → Backed s row →
      Backed (s.moved i task' { s.world with
        rows := DocumentRepository.delete s.world.rows ref }) row := by
    intro row href hbefore
    refine hbefore.moved id ?_
    rw [hi]
    intro hsame
    cases hsame
    exact href rfl
  -- only rows under the erased key are removed
  have hkept : ∀ {row}, row ∈ s.world.rows → row.storageKey ≠ key →
      row ∈ DocumentRepository.delete s.world.rows ref := by
    intro row hrow hkey
    refine DocumentRepository.mem_delete.mpr ⟨hrow, fun href => hkey ?_⟩
    exact (h.key_iff hdraws (h.rows_owned row hrow) howned).mp href
  cases task' with
  | done op outcome =>
      refine h.moved hstep ?_ ?_ ?_ trivial ?_
      · intro row hrow
        obtain ⟨hrow, -⟩ := DocumentRepository.mem_delete.mp hrow
        exact (h.rows_owned row hrow).moved hstep
      · intro other hobject
        obtain ⟨row, hrow, hkey⟩ := h.objects_rowed other hobject
        refine ⟨row, hkept hrow ?_, hkey⟩
        intro hsame
        rw [← hkey, hsame] at hobject
        exact hobject habsent
      · intro row hrow hstored
        obtain ⟨hrow, href⟩ := DocumentRepository.mem_delete.mp hrow
        exact hbacked href (h.stored_backed row hrow hstored)
      · intro j hj
        exact {
          owned := fun howned => howned.moved hstep
          absent := fun hnone _ => hnone
          uploading := by
            intro other k hk
            rcases uploading_moved hk with hbefore | hself
            · exact Or.inl hbefore
            · cases hself
          unstored := by
            intro other _ hall row hrow
            exact hall row (DocumentRepository.mem_delete.mp hrow).1
          rowed := by
            intro other hupload hrow
            obtain ⟨row, hrow, hkey⟩ := hrow
            refine ⟨row, hkept hrow ?_, hkey⟩
            intro hsame
            rw [← hkey, hsame] at hupload
            exact hnone j hupload
          backed := by
            intro other _ hall row hrow hkey
            obtain ⟨hrow, href⟩ := DocumentRepository.mem_delete.mp hrow
            exact hbacked href (hall row hrow hkey) }
  | _ => cases hdone

-- ==================================================== runs

/-- A deletion does not erase the object of an upload that is still to put
it. -/
def WaitsForUpload (s : DocumentSystem ι) (i : ι) : Prop :=
  ∀ key, (s.tasks i).erasing? = some key →
    ∀ j, (s.tasks j).uploading? ≠ some key

/-- Every step keeps the invariant. -/
theorem Tracked.step (h : Tracked ops s) (hdraws : DrawsApart ops)
    (hwaits : WaitsForUpload s i)
    (hstep : StepTo (s.tasks i) s.world task' world') :
    Tracked ops (s.moved i task' world') := by
  have hinv := h.tasks_ok i
  have hmove := hstep
  generalize hi : s.tasks i = task at hmove hinv
  generalize hw : s.world = world at hmove
  cases hmove with
  | ends _ _ outcome hidle =>
      subst hw
      rw [← hi] at hidle
      exact h.quiet hstep hidle rfl trivial
  | begins request admitted =>
      subst hw
      exact h.begins hdraws hi
  | puts request admitted byteSize sha256Hex object =>
      subst hw
      exact h.puts hdraws hi
  | refuses request admitted e =>
      subst hw
      refine h.quiet hstep ?_ rfl ?_
      · rw [hi]
        simp
      · exact hinv.2.1
  | marks request admitted byteSize sha256Hex outcome =>
      subst hw
      have howned : Owned s request.ref request.storageKey :=
        ⟨i, request, by rw [hi]; rfl, by rw [hi]; exact nofun, rfl, rfl⟩
      refine h.updates hdraws ?_ ?_ hstep rfl ?_ (fun _ => rfl)
        (fun _ => rfl) ?_ trivial
      · rw [hi]
        rfl
      · rw [hi]
        exact nofun
      · rw [hi]
        exact nofun
      · intro row hrow href _
        exact hinv row hrow
          ((h.key_iff hdraws (h.rows_owned row hrow) howned).mp href)
  | sweeps request e =>
      subst hw
      refine h.erases hdraws ⟨i, request, ?_, ?_, rfl, rfl⟩ hstep rfl ?_
        (Or.inr ⟨hinv, request, ?_, rfl⟩) hinv
      · rw [hi]
        rfl
      · rw [hi]
        exact nofun
      · rw [hi]
        exact nofun
      · rw [hi]
        rfl
  | fails request e outcome =>
      subst hw
      refine h.updates hdraws ?_ ?_ hstep rfl ?_ (fun _ => rfl)
        (fun _ => rfl) ?_ trivial
      · rw [hi]
        rfl
      · rw [hi]
        exact nofun
      · rw [hi]
        exact nofun
      · intro row _ _ hstored
        cases hstored
  | finds row _ hrow =>
      subst hw
      refine h.quiet hstep ?_ rfl ?_
      · rw [hi]
        simp
      · exact (h.rows_owned row hrow).moved hstep
  | erases ref storageKey =>
      subst hw
      refine h.erases hdraws hinv hstep rfl ?_ (Or.inl rfl)
        ⟨storageKey, hinv.moved hstep, ?_, ?_⟩
      · rw [hi]
        exact nofun
      · show (s.world.objects.erase storageKey).get? storageKey = none
        rw [Dict.get?_erase, if_pos rfl]
      · intro j hj
        rcases uploading_moved hj with ⟨k, hk⟩ | hself
        · refine hwaits storageKey ?_ k hk
          rw [hi]
          rfl
        · cases hself
  | removes ref outcome =>
      subst hw
      exact h.removes hdraws hi hstep rfl
  | locates row filename =>
      subst hw
      refine h.quiet hstep ?_ rfl trivial
      rw [hi]
      simp

/-- In a run in which no deletion erases the object of an upload that is
still to put it, objects and rows agree whenever all is finished. -/
theorem run_settled (service : DocumentService) (hdraws : DrawsApart ops)
    (schedule : List ι)
    (hwaits : Run.Along service.systemStep WaitsForUpload
      (DocumentSystem.start ops) schedule) :
    Run.Throughout service.systemStep
      (fun s => Finished s → Reconciled s.world) (DocumentSystem.start ops)
      schedule := by
  have htracked : Run.Throughout service.systemStep (Tracked ops)
      (DocumentSystem.start ops) schedule := by
    refine hwaits.invariant ?_ (tracked_start ops)
    intro s i hstep htracked
    exact htracked.step hdraws hstep
      (step_to service (s.tasks i) s.world)
  exact htracked.imp (fun s h => h.reconciled)

end Moved

-- ==================================================== one upload

/-- A service over a cipher that evaluates. -/
def plainService : DocumentService where
  cipher := DocumentCipher.markingCipher "k".toList
  unicode := Unicode.ascii
  unicodeData := UnicodeData.ascii
  hashes := Hashes.ofTables [] []
  maxBytes := 1024
  maxBytes_bounded := by decide

def noteUpload : UploadRequest where
  tenantId := ⟨1⟩
  userId := ⟨2⟩
  filename := "a.txt".toList
  declaredContentType := none
  declaredLength := none
  source := [[72], [101, 121]]
  documentId := ⟨3⟩
  tokenId := 4
  nameDraws := DocumentCipher.zeroDraws
  bodyDraws := DocumentCipher.zeroDraws

/-- An upload, and a deletion of the document it uploads. -/
def uploadAndDelete (upload : Bool) : DocumentOp :=
  if upload then .store noteUpload else .delete noteUpload.ref

theorem uploadAndDelete_drawsApart : DrawsApart uploadAndDelete := by
  intro i j request other hi hj _
  unfold uploadAndDelete at hi hj
  cases i <;> cases j <;> simp at hi hj ⊢

/-- The deletion that comes after the upload leaves nothing behind. -/
theorem run_settled_note :
    Run.Throughout plainService.systemStep
      (fun s => Finished s → Reconciled s.world)
      (DocumentSystem.start uploadAndDelete)
      [true, true, true, false, false, false] := by
  refine run_settled plainService uploadAndDelete_drawsApart _ ?_
  simp only [Run.along_cons_iff]
  have hwaits : ∀ s : DocumentSystem Bool, ∀ i : Bool,
      ((s.tasks i).erasing? = none ∨
        ∀ j, (s.tasks j).uploading? = none) → WaitsForUpload s i := by
    intro s i h key hkey j hj
    rcases h with hnone | hnone
    · rw [hnone] at hkey
      cases hkey
    · rw [hnone j] at hj
      cases hj
  refine ⟨hwaits _ _ ?_, hwaits _ _ ?_, hwaits _ _ ?_, hwaits _ _ ?_,
    hwaits _ _ ?_, hwaits _ _ ?_, Run.along_nil⟩
  all_goals decide +kernel

/-- The deletion that erases before the upload puts leaves an object that
no row names, and both operations finish. -/
theorem upload_outlives_row :
    DrawsApart uploadAndDelete ∧
    Finished (plainService.run uploadAndDelete
      [true, false, false, true, true, false]) ∧
    ¬ Reconciled (plainService.run uploadAndDelete
      [true, false, false, true, true, false]).world := by
  refine ⟨uploadAndDelete_drawsApart, ?_, ?_⟩
  · unfold Finished
    decide +kernel
  · intro hreconciled
    have hobject : (plainService.run uploadAndDelete
        [true, false, false, true, true, false]).world.objects.get?
          noteUpload.storageKey ≠ none := by
      decide +kernel
    have hrows : (plainService.run uploadAndDelete
        [true, false, false, true, true, false]).world.rows = [] := by
      decide +kernel
    obtain ⟨row, hrow, -⟩ := hreconciled.1 _ hobject
    rw [hrows] at hrow
    cases hrow

end DocumentService

end PrivacyGateway.Documents
