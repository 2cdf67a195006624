/-
Invalid policies cannot become active.

A row gets its document from an edit, which parses it first, or from the
row that was active when the draft was opened. So a document that does not
parse is never written, not even by an edit and a publication that overlap:
which of two documents a version ends up with depends on the order, that
it parses does not. `Wellformed` is the invariant. What follows of a table
(`Answers`) is that every endpoint, and every resolution, can read it.
-/
import PrivacyGateway.Policy.Proofs.Numbering
import PrivacyGateway.Policy.Proofs.Statements
import PrivacyGateway.Policy.Views

namespace PrivacyGateway.Policy

open ReadCommitted PolicyRepository

variable {δ ι : Type} {routes : PolicyRoutes δ} {i : ι}

-- ==================================================== rows

def Parses (routes : PolicyRoutes δ) (document : δ) : Prop :=
  ∃ draft, routes.validate document = .ok draft

/-- A row that a resolution can use. -/
structure Readable (routes : PolicyRoutes δ) (row : PolicyRow δ) :
    Prop where
  parses : Parses routes row.document
  numbered : 0 < row.version

/-- What a transaction has in hand, to write it or to show it. -/
def HoldsReadable (routes : PolicyRoutes δ) : PolicyTask δ → Prop
  | .numbering _ _ _ document => Parses routes document
  | .inserting _ _ _ version document =>
      0 < version ∧ Parses routes document
  | .editing _ document => Parses routes document
  | .comparing _ _ _ draft => Parses routes draft.document
  | .confirming _ _ _ _ loaded =>
      ∀ row ∈ loaded, Parses routes row.document
  | .deactivating _ _ _ draft _ => Parses routes draft.document
  | .promoting _ draft _ => Parses routes draft.document
  | _ => True

theorem nextVersion_pos {tenantId : UUID} {name : Text}
    {table : PolicyTable δ} (h : ∀ row ∈ table, 0 < row.version) :
    0 < nextVersion tenantId name table := by
  by_cases hnamed : ∃ row ∈ table, row.Named tenantId name
  · obtain ⟨row, hrow, hname⟩ := hnamed
    exact (h row hrow).trans (lt_nextVersion hrow hname)
  · have hnone : (table.filter fun row =>
        decide (row.Named tenantId name)) = [] := by
      apply List.filter_eq_nil_iff.mpr
      intro row hrow hname
      exact hnamed ⟨row, hrow, of_decide_eq_true hname⟩
    unfold nextVersion
    rw [hnone]
    exact Int.one_pos

-- ==================================================== statements

variable [DecidableEq ι] {store written : PolicyStore ι δ}
  {task next : PolicyTask δ}

/-- A statement writes, and leaves in hand, what can be read. -/
theorem Statement.readable (h : Statement routes i store task next written)
    (hstore : Everywhere (Readable routes) store)
    (htask : HoldsReadable routes task) :
    Everywhere (Readable routes) written ∧ HoldsReadable routes next := by
  have hdraft : ∀ {tenantId name draft},
      getDraft tenantId name (store.rows i) = some draft →
        Parses routes draft.document := fun h =>
    (hstore.of_rows _ (getDraft_ok h).1).parses
  induction h with
  | stays task => exact ⟨hstore, htask⟩
  | abandons e hbegan hblame ih =>
      exact ⟨(ih htask).1.rollback, trivial⟩
  | opens tenantId id name => exact ⟨hstore, trivial⟩
  | seeds tenantId id name hread hnamed =>
      exact ⟨hstore, (hstore.of_rows _ hread).parses⟩
  | numbers tenantId id name document =>
      exact ⟨hstore, nextVersion_pos fun row hrow =>
        (hstore.of_rows row hrow).numbered, htask⟩
  | inserts tenantId id name version document hinsert =>
      exact ⟨hstore.insert hinsert ⟨htask.2, htask.1⟩, trivial⟩
  | loads tenantId name document hfound hparses =>
      exact ⟨hstore, _, hparses⟩
  | unchanged draft document => exact ⟨hstore, trivial⟩
  | edits draft document hupdate =>
      refine ⟨hstore.update hupdate ?_, trivial⟩
      intro row row' hrow _ hwritten
      cases hwritten
      exact ⟨htask, hrow.numbered⟩
  | finds tenantId name hfound => exact ⟨hstore, trivial⟩
  | deletes id hupdate =>
      refine ⟨hstore.update hupdate ?_, trivial⟩
      intro row row' _ _ hwritten
      cases hwritten
  | accepts tenantId name now hfound => exact ⟨hstore, hdraft hfound⟩
  | compares tenantId name now draft =>
      refine ⟨hstore, ?_⟩
      intro row hrow
      rcases List.mem_cons.mp hrow with rfl | hversion
      · exact htask
      · have hmem := (List.mem_insertionSort _).mp hversion
        exact (hstore.of_rows row (List.mem_of_mem_filter hmem)).parses
  | @confirms tenantId name now accepted loaded row hfound =>
      refine ⟨hstore, ?_⟩
      show Parses routes (Option.getD _ row).document
      cases hloaded : loaded.find? fun old => decide (old.id = row.id) with
      | none => exact hdraft hfound
      | some draft => exact htask draft (List.mem_of_find?_eq_some hloaded)
  | deactivates tenantId name now draft accepted hupdate =>
      refine ⟨hstore.update hupdate ?_, htask⟩
      intro row row' hrow _ hwritten
      cases hwritten
      exact ⟨hrow.parses, hrow.numbered⟩
  | promotes now draft accepted hupdate hfound =>
      refine ⟨hstore.update hupdate ?_, trivial⟩
      intro row row' hrow _ hwritten
      cases hwritten
      exact ⟨hrow.parses, hrow.numbered⟩
  | commits publication => exact ⟨hstore.commit, trivial⟩

/-- Of what a transaction has in hand, and finds, every document that it
parses does parse. An edit's own is the exception. -/
theorem examined_parses (hstore : Everywhere (Readable routes) store)
    (htask : HoldsReadable routes task) {document : δ}
    (h : document ∈ task.examines (store.rows i)) :
    Parses routes document ∨
      ∃ tenantId name, task = .ready (.updateDraft tenantId name document) := by
  cases task with
  | ready request =>
      cases request with
      | updateDraft tenantId name edited =>
          cases List.mem_singleton.mp h
          exact Or.inr ⟨tenantId, name, rfl⟩
      | createDraft tenantId id name => cases h
      | discardDraft tenantId name => cases h
      | publishDraft tenantId name now => cases h
  | inserting tenantId id name version seeded =>
      cases List.mem_singleton.mp h
      exact Or.inl htask.2
  | comparing tenantId name now draft =>
      obtain ⟨row, hrow, rfl⟩ := List.mem_map.mp h
      exact Or.inl (hstore.of_rows row hrow).parses
  | promoting now draft accepted =>
      cases List.mem_singleton.mp h
      exact Or.inl htask
  | _ => cases h

/-- The request is an edit whose own document is refused. -/
def Refused (routes : PolicyRoutes δ) (e : Exn) :
    PolicyRequest δ → Prop
  | .updateDraft _ _ document => ∃ problems,
      routes.validate document = .error problems ∧
        e = documentRefused problems
  | _ => False

theorem Statement.refused {e : Exn}
    (h : Statement routes i store task next written)
    (hnext : next = .done (.error e)) (habout : AboutDocument e)
    (hstore : Everywhere (Readable routes) store)
    (htask : HoldsReadable routes task) :
    task = .done (.error e) ∨
      ∃ request, task = .ready request ∧ Refused routes e request := by
  cases h with
  | stays => exact Or.inl hnext
  | abandons e' hbegan hblame =>
      cases hnext
      obtain ⟨document, hexamines, problems, hrefused, he⟩ :=
        hblame habout
      rcases examined_parses hstore htask hexamines with
        ⟨draft, hparses⟩ | ⟨tenantId, name, htask⟩
      · rw [hrefused] at hparses
        cases hparses
      · exact Or.inr ⟨_, htask, problems, hrefused, he⟩
  | _ => cases hnext

theorem Statement.ready (h : Statement routes i store task next written)
    {request : PolicyRequest δ} (hnext : next = .ready request) :
    task = .ready request := by
  cases h with
  | stays => exact hnext
  | _ => cases hnext

-- ==================================================== the system

structure Wellformed (routes : PolicyRoutes δ)
    (requests : ι → PolicyRequest δ) (system : PolicySystem ι δ) :
    Prop where
  stored : Everywhere (Readable routes) system.store
  held : ∀ i, HoldsReadable routes (system.tasks i)
  asked : ∀ i request, system.tasks i = .ready request →
    request = requests i
  refused : ∀ i e, system.tasks i = .done (.error e) →
    AboutDocument e → Refused routes e (requests i)

namespace Wellformed

variable {requests : ι → PolicyRequest δ} {system : PolicySystem ι δ}

/-- One transaction goes on. -/
theorem statement (h : Wellformed routes requests system)
    (hstatement : Statement routes i system.store (system.tasks i) next
      written) :
    Wellformed routes requests (system.after i (next, written)) := by
  obtain ⟨hstore, hnext⟩ := hstatement.readable h.stored (h.held i)
  constructor
  · exact hstore
  · intro j
    rw [after_task]
    split
    · exact hnext
    · exact h.held j
  · intro j request hready
    rw [after_task] at hready
    split at hready
    · rename_i hj
      rw [hj]
      exact h.asked i request (hstatement.ready hready)
    · exact h.asked j request hready
  · intro j e hdone habout
    rw [after_task] at hdone
    split at hdone
    · rename_i hj
      rw [hj]
      rcases hstatement.refused hdone habout h.stored (h.held i) with
        hbefore | ⟨request, hready, hrefused⟩
      · exact h.refused i e hbefore habout
      · rw [← h.asked i request hready]
        exact hrefused
    · exact h.refused j e hdone habout

theorem systemStep (h : Wellformed routes requests system)
    (event : PolicyEvent ι) :
    Wellformed routes requests (routes.systemStep system event) := by
  cases event with
  | runs i =>
      have hafter := h.statement
        (statement_of_step routes i (system.tasks i) system.store)
      exact ⟨hafter.stored, hafter.held, hafter.asked, hafter.refused⟩
  | aborts i =>
      simp only [PolicyRoutes.systemStep]
      split
      · exact h
      · exact h.statement (.fails (not_about_other _))

end Wellformed

-- ==================================================== endpoints

/-- The endpoint answers, or there is no such policy. -/
def OrNotFound {α : Type} (name : Text) (result : Except Exn α) : Prop :=
  (∃ answer, result = .ok answer) ∨ result = .error (policyNotFound name)

section Endpoints

omit [DecidableEq ι]

variable {table : PolicyTable δ} {row : PolicyRow δ} {tenantId : UUID}
  {name : Text}

theorem mapM_ok {α β : Type} {f : α → Except Exn β} {l : List α}
    (h : ∀ a ∈ l, ∃ b, f a = .ok b) : ∃ bs, l.mapM f = .ok bs := by
  induction l with
  | nil => exact ⟨[], rfl⟩
  | cons a l ih =>
      obtain ⟨b, hb⟩ := h a List.mem_cons_self
      obtain ⟨bs, hbs⟩ := ih fun a' ha' => h a' (List.mem_cons_of_mem a ha')
      refine ⟨b :: bs, ?_⟩
      rw [List.mapM_cons, hb, hbs]
      rfl

theorem parsed_ok {document : δ} (h : Parses routes document) :
    ∃ validated, parsed routes document = .ok validated := by
  obtain ⟨draft, hdraft⟩ := h
  unfold parsed
  rw [hdraft]
  exact ⟨draft.document, rfl⟩

theorem versionView_ok (h : Readable routes row) :
    ∃ view, versionView routes row = .ok view := by
  obtain ⟨document, hdocument⟩ := parsed_ok h.parses
  unfold versionView
  rw [hdocument]
  exact ⟨_, rfl⟩

theorem mem_listVersions :
    row ∈ listVersions tenantId name table ↔
      row ∈ table ∧ row.Named tenantId name := by
  unfold listVersions
  rw [List.mem_insertionSort, List.mem_filter, decide_eq_true_eq]

theorem policySummary_ok
    (h : ∀ row ∈ table, Readable routes row) :
    ∃ view, policySummary routes name
      (listVersions tenantId name table) = .ok view := by
  unfold policySummary
  cases hactive : (listVersions tenantId name table).find?
      PolicyRow.isActive with
  | none => exact ⟨_, rfl⟩
  | some active =>
      have hmem := mem_listVersions.mp (List.mem_of_find?_eq_some hactive)
      obtain ⟨document, hdocument⟩ := parsed_ok (h active hmem.1).parses
      simp only [hdocument]
      exact ⟨_, rfl⟩

/-- A version that is loaded from readable rows is readable. -/
theorem loadVersion_cases {first second : PolicyTable δ}
    (hfirst : ∀ row ∈ first, Readable routes row)
    (hsecond : ∀ row ∈ second, Readable routes row) (tenantId : UUID)
    (name : Text) (version : Option Int) :
    (∃ row, Readable routes row ∧
      loadVersion tenantId name version first second = .ok row) ∨
      loadVersion tenantId name version first second =
        .error (policyNotFound name) := by
  unfold loadVersion
  cases version with
  | some version =>
      simp only
      cases hget : PolicyRepository.getVersion tenantId name version
          first with
      | none => exact Or.inr rfl
      | some row =>
          exact Or.inl ⟨row, hfirst row (List.mem_of_find?_eq_some hget), rfl⟩
  | none =>
      simp only
      cases hdraft : PolicyRepository.getDraft tenantId name first with
      | some draft =>
          exact Or.inl ⟨draft, hfirst draft (getDraft_ok hdraft).1, rfl⟩
      | none =>
          simp only
          cases hactive : (PolicyRepository.listVersions tenantId name
              second).find? PolicyRow.isActive with
          | none => exact Or.inr rfl
          | some row =>
              have hmem := mem_listVersions.mp
                (List.mem_of_find?_eq_some hactive)
              exact Or.inl ⟨row, hsecond row hmem.1, rfl⟩

end Endpoints

-- ==================================================== runs

/-- What the endpoints and a resolution make of the table, as each of their
statements finds it. -/
structure Answers (routes : PolicyRoutes δ) (tenantId : UUID)
    (first second : PolicyTable δ) (reads : Text → PolicyTable δ) :
    Prop where
  resolution : ∀ database row,
    getActive database tenantId first = some row →
      ∃ hversion snapshot,
        snapshotOf tenantId (storedPolicy routes row hversion) =
          .ok snapshot
  policies : ∀ collation, ∃ views,
    listPolicies routes tenantId collation first reads = .ok views
  policy : ∀ name, OrNotFound name (getPolicy routes tenantId name first)
  versions : ∀ name,
    OrNotFound name (listPolicyVersions routes tenantId name first)
  version : ∀ name version,
    OrNotFound name (getPolicyVersion routes tenantId name version first)
  diff : ∀ name fromVersion toVersion, OrNotFound name
    (diffPolicyVersions routes tenantId name fromVersion toVersion first
      second)
  validation : ∀ name result,
    validatePolicyDraft routes tenantId name first = .ok result →
      ∃ draft, result = validateDraft (.ok draft)
  playground : ∀ name version, OrNotFound name do
    let row ← loadVersion tenantId name version first second
    PrivacyGateway.snapshotOf routes tenantId row

section Endpoints

omit [DecidableEq ι]

theorem answers_of_readable {first second : PolicyTable δ}
    {reads : Text → PolicyTable δ} (tenantId : UUID)
    (hfirst : ∀ row ∈ first, Readable routes row)
    (hsecond : ∀ row ∈ second, Readable routes row)
    (hreads : ∀ name, ∀ row ∈ reads name, Readable routes row) :
    Answers routes tenantId first second reads := by
  constructor
  · intro database row hactive
    have hrow := hfirst row (getActive_mem hactive).1
    obtain ⟨draft, hparses⟩ := hrow.parses
    refine ⟨hrow.numbered, ?_⟩
    unfold snapshotOf storedPolicy
    simp only [hparses]
    exact ⟨_, rfl⟩
  · intro collation
    exact mapM_ok fun name _ => policySummary_ok (hreads name)
  · intro name
    unfold getPolicy
    split
    · exact Or.inr rfl
    · rename_i active hactive
      have hmem := mem_listVersions.mp (List.mem_of_find?_eq_some hactive)
      exact Or.inl (versionView_ok (hfirst active hmem.1))
  · intro name
    unfold listPolicyVersions
    split
    · exact Or.inr rfl
    · rename_i row rows hversions
      refine Or.inl (mapM_ok fun row' hrow' => versionView_ok ?_)
      rw [← hversions] at hrow'
      exact hfirst row' (mem_listVersions.mp hrow').1
  · intro name version
    unfold getPolicyVersion
    rcases loadVersion_cases hfirst hfirst tenantId name (some version) with
      ⟨row, hrow, hload⟩ | hload
    · rw [hload]
      exact Or.inl (versionView_ok hrow)
    · rw [hload]
      exact Or.inr rfl
  · intro name fromVersion toVersion
    unfold diffPolicyVersions
    rcases loadVersion_cases hfirst hfirst tenantId name
        (some fromVersion) with
      ⟨beforeRow, hbefore, hload⟩ | hload
    · rcases loadVersion_cases hsecond hsecond tenantId name
          (some toVersion) with
        ⟨afterRow, hafter, hload'⟩ | hload'
      · obtain ⟨before, hparsed⟩ := parsed_ok hbefore.parses
        obtain ⟨after, hparsed'⟩ := parsed_ok hafter.parses
        rw [hload, hload']
        refine Or.inl
          ⟨diffDocuments before after fromVersion toVersion, ?_⟩
        show (parsed routes beforeRow.document >>= _) = _
        rw [hparsed]
        show (parsed routes afterRow.document >>= _) = _
        rw [hparsed']
        rfl
      · rw [hload, hload']
        exact Or.inr rfl
    · rw [hload]
      exact Or.inr rfl
  · intro name result hresult
    unfold validatePolicyDraft at hresult
    split at hresult
    · cases hresult
    · rename_i draft hdraft
      obtain ⟨accepted, hparses⟩ := (hfirst draft (getDraft_ok hdraft).1).parses
      cases hresult
      rw [hparses]
      exact ⟨accepted, rfl⟩
  · intro name version
    rcases loadVersion_cases hfirst hsecond tenantId name version with
      ⟨row, hrow, hload⟩ | hload
    · rw [hload]
      obtain ⟨draft, hparses⟩ := hrow.parses
      left
      show ∃ snapshot, PrivacyGateway.snapshotOf routes tenantId row = _
      unfold PrivacyGateway.snapshotOf
      rw [hparses]
      exact ⟨_, rfl⟩
    · rw [hload]
      exact Or.inr rfl

end Endpoints

variable {table : PolicyTable δ} {requests : ι → PolicyRequest δ}

theorem wellformed_run (hstored : ∀ row ∈ table, Readable routes row)
    (requests : ι → PolicyRequest δ) (events : List (PolicyEvent ι)) :
    Run.Throughout routes.systemStep (Wellformed routes requests)
      (PolicySystem.start table requests) events := by
  refine Run.invariant (fun _ event h => h.systemStep event) ?_ events
  constructor
  · exact Everywhere.start hstored
  · exact fun _ => trivial
  · intro i request hready
    cases hready
    rfl
  · intro i e hdone
    cases hdone

/-- From rows that a resolution can use only such rows are reached, however
the transactions are interleaved and wherever they break off. So whatever
an endpoint or a resolution finds, it can read, and the one request that
ever fails because a document does not parse is an edit, over its own. -/
theorem stored_documents_parse {events : List (PolicyEvent ι)}
    (hstored : ∀ row ∈ table, Readable routes row) :
    Run.Throughout routes.systemStep
      (fun system =>
        (∀ row ∈ system.store.committed, Readable routes row) ∧
        ∀ i e, system.tasks i = .done (.error e) → AboutDocument e →
          Refused routes e (requests i))
      (PolicySystem.start table requests) events ∧
    ∀ first second reads,
      (∀ found, found = first ∨ found = second ∨
          (∃ name, found = reads name) →
        Run.Sometime routes.systemStep
          (fun system => system.store.committed = found)
          (PolicySystem.start table requests) events) →
      ∀ tenantId, Answers routes tenantId first second reads := by
  have hrun := wellformed_run hstored requests events
  constructor
  · exact hrun.imp fun system h => ⟨h.stored.of_committed, h.refused⟩
  · intro first second reads hfound tenantId
    have hreadable : ∀ found, found = first ∨ found = second ∨
        (∃ name, found = reads name) →
        ∀ row ∈ found, Readable routes row := by
      intro found hcase
      obtain ⟨before, after, hevents, hcommitted⟩ := hfound found hcase
      rw [← hcommitted]
      exact (hrun before after hevents).stored.of_committed
    exact answers_of_readable tenantId (hreadable first (Or.inl rfl))
      (hreadable second (Or.inr (Or.inl rfl)))
      fun name => hreadable (reads name) (Or.inr (Or.inr ⟨name, rfl⟩))

-- ==================================================== a refused edit

/-- Documents are numbers, and those up to a hundred parse. -/
def boundedRoutes : PolicyRoutes Nat where
  validate document :=
    if document ≤ 100 then plainRoutes.validate document
    else .error ["max_entities:less_than_equal".toList]
  same := plainRoutes.same

/-- A publication of a draft that is edited meanwhile. -/
theorem stored_documents_parse_raced :
    (∀ row ∈ (stalePublication.foldl boundedRoutes.systemStep
        (PolicySystem.start draftedTable editAndPublish)).store.committed,
      Readable boundedRoutes row) ∧
    Answers boundedRoutes ⟨1⟩ draftedTable draftedTable
      (fun _ => draftedTable) := by
  have hstored : ∀ row ∈ draftedTable, Readable boundedRoutes row := by
    intro row hrow
    rcases List.mem_cons.mp hrow with rfl | hrow
    · exact ⟨⟨_, rfl⟩, by decide⟩
    · cases List.mem_singleton.mp hrow
      exact ⟨⟨_, rfl⟩, by decide⟩
  refine ⟨(stored_documents_parse hstored).1.last.1,
    (@stored_documents_parse _ _ _ _ _ editAndPublish stalePublication
      hstored).2 _ _ _ ?_ ⟨1⟩⟩
  rintro found (rfl | rfl | ⟨name, rfl⟩)
  all_goals exact ⟨[], stalePublication, rfl, committed_start⟩

end PrivacyGateway.Policy
