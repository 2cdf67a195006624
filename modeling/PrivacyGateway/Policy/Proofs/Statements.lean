/-
What the next statement of a management transaction can do.

`Statement` lists the ways a transaction goes on, each with what the
statement found, and `statement_of_step` is the one analysis of `step`: an
invariant of the policy system is then a case for each way. `abandons` is
every way of failing. Its condition says which documents a refusal can be
about: those that the statement parses.
-/
import PrivacyGateway.Policy.Proofs.Immutability

namespace PrivacyGateway.Policy

open ReadCommitted PolicyRepository

variable {δ ι : Type} [DecidableEq ι] {routes : PolicyRoutes δ} {i : ι}

/-- The documents that the next statement of a transaction parses. -/
def PolicyTask.examines (rows : List (PolicyRow δ)) :
    PolicyTask δ → List δ
  | .ready (.updateDraft _ _ document) => [document]
  | .inserting _ _ _ _ document => [document]
  | .comparing .. => rows.map PolicyRow.document
  | .promoting _ draft _ => [draft.document]
  | _ => []

/-- The error says that a document does not parse. -/
def AboutDocument (e : Exn) : Prop :=
  ∃ problems, e = documentRefused problems

/-- How a transaction goes on from this point. -/
inductive Statement (routes : PolicyRoutes δ) (i : ι)
    (store : PolicyStore ι δ) :
    PolicyTask δ → PolicyTask δ → PolicyStore ι δ → Prop
  | stays (task) : Statement routes i store task task store
  | abandons {task next written} (e : Exn)
      (hbegan : Statement routes i store task next written)
      (hblame : AboutDocument e →
        ∃ document ∈ task.examines (store.rows i),
          ∃ problems, routes.validate document = .error problems ∧
            e = documentRefused problems) :
      Statement routes i store task (.done (.error e)) (written.rollback i)
  | opens (tenantId id : UUID) (name : Text) :
      Statement routes i store (.ready (.createDraft tenantId id name))
        (.seeding tenantId id name) store
  | seeds (tenantId id : UUID) (name : Text) {active : PolicyRow δ}
      (hread : active ∈ store.rows i) (hnamed : active.Named tenantId name) :
      Statement routes i store (.seeding tenantId id name)
        (.numbering tenantId id name active.document) store
  | numbers (tenantId id : UUID) (name : Text) (document : δ) :
      Statement routes i store (.numbering tenantId id name document)
        (.inserting tenantId id name
          (nextVersion tenantId name (store.rows i)) document) store
  | inserts (tenantId id : UUID) (name : Text) (version : Int)
      (document : δ) {written : PolicyStore ι δ}
      (hinsert : store.insert i (fun other => decide (Clashes
        (PolicyRoutes.newDraft tenantId id name version document) other))
        (PolicyRoutes.newDraft tenantId id name version document) =
          .writes written) :
      Statement routes i store (.inserting tenantId id name version document)
        (.committing none) written
  | loads (tenantId : UUID) (name : Text) (document : δ) {draft}
      (hdraft : getDraft tenantId name (store.rows i) = some draft)
      {accepted} (hparses : routes.validate document = .ok accepted) :
      Statement routes i store (.ready (.updateDraft tenantId name document))
        (.editing draft document) store
  | unchanged (draft : PolicyRow δ) (document : δ) :
      Statement routes i store (.editing draft document)
        (.committing none) store
  | edits (draft : PolicyRow δ) (document : δ) {written : PolicyStore ι δ}
      (hupdate : store.update i (fun row => decide (row.id = draft.id))
        (fun row => some { row with document := document }) =
          .writes written) :
      Statement routes i store (.editing draft document)
        (.committing none) written
  | finds (tenantId : UUID) (name : Text) {draft : PolicyRow δ}
      (hdraft : getDraft tenantId name (store.rows i) = some draft) :
      Statement routes i store (.ready (.discardDraft tenantId name))
        (.deleting draft.id) store
  | deletes (id : UUID) {written : PolicyStore ι δ}
      (hupdate : store.update i (fun row => decide (row.id = id))
        (fun _ => none) = .writes written) :
      Statement routes i store (.deleting id) (.committing none) written
  | accepts (tenantId : UUID) (name : Text) (now : Rat) {draft}
      (hdraft : getDraft tenantId name (store.rows i) = some draft) :
      Statement routes i store
        (.ready (.publishDraft tenantId name now))
        (.comparing tenantId name now draft) store
  | compares (tenantId : UUID) (name : Text) (now : Rat)
      (draft : PolicyRow δ) :
      Statement routes i store (.comparing tenantId name now draft)
        (.confirming tenantId name now draft.document
          (draft :: listVersions tenantId name (store.rows i))) store
  | confirms (tenantId : UUID) (name : Text) (now : Rat) (accepted : δ)
      (loaded : List (PolicyRow δ)) {row : PolicyRow δ}
      (hdraft : getDraft tenantId name (store.rows i) = some row) :
      Statement routes i store
        (.confirming tenantId name now accepted loaded)
        (.deactivating tenantId name now
          ((loaded.find? fun old => decide (old.id = row.id)).getD row)
          accepted) store
  | deactivates (tenantId : UUID) (name : Text) (now : Rat)
      (draft : PolicyRow δ) (accepted : δ) {written : PolicyStore ι δ}
      (hupdate : store.update i
        (fun row => decide (row.Named tenantId name ∧ row.id ≠ draft.id))
        (fun row => some { row with isActive := false }) =
          .writes written) :
      Statement routes i store
        (.deactivating tenantId name now draft accepted)
        (.promoting now draft accepted) written
  | promotes (now : Rat) (draft : PolicyRow δ) (accepted : δ)
      {written : PolicyStore ι δ}
      (hupdate : store.update i (fun row => decide (row.id = draft.id))
        (PolicyRoutes.promote now) = .writes written)
      (hfound : ∃ row ∈ store.rows i, row.id = draft.id) :
      Statement routes i store (.promoting now draft accepted)
        (.committing (some ⟨draft.id, accepted⟩)) written
  | commits (publication : Option (Publication δ)) :
      Statement routes i store (.committing publication) (.done (.ok ()))
        (store.commit i)

namespace Statement

variable {store written : PolicyStore ι δ} {task next : PolicyTask δ}

/-- A failure that is not about a document. -/
theorem fails {e : Exn} (h : ¬ AboutDocument e) :
    Statement routes i store task (PolicyRoutes.fail i e store).1
      (PolicyRoutes.fail i e store).2 :=
  .abandons e (.stays task) fun habout => absurd habout h

/-- A failure over one of the documents that the statement parses. -/
theorem refuses {document : δ} {problems : List Text}
    (hrefused : routes.validate document = .error problems)
    (hexamines : document ∈ task.examines (store.rows i))
    (h : Statement routes i store task next written) :
    Statement routes i store task
      (PolicyRoutes.fail i (documentRefused problems) written).1
      (PolicyRoutes.fail i (documentRefused problems) written).2 :=
  .abandons _ h fun _ => ⟨document, hexamines, problems, hrefused, rfl⟩

/-- The response shows a document that the statement wrote. -/
theorem responds {document : δ} {publication : Option (Publication δ)}
    (h : Statement routes i store task (.committing publication) written)
    (hexamines : document ∈ task.examines (store.rows i)) :
    Statement routes i store task
      (routes.respond i document publication written).1
      (routes.respond i document publication written).2 := by
  unfold PolicyRoutes.respond
  split
  · rename_i problems hrefused
    exact h.refuses hrefused hexamines
  · exact h

end Statement

-- ==================================================== errors

theorem not_about_notFound (name : Text) :
    ¬ AboutDocument (policyNotFound name) := by
  rintro ⟨problems, h⟩
  cases h

theorem not_about_draftExists (name : Text) :
    ¬ AboutDocument (draftExists name) := by
  rintro ⟨problems, h⟩
  have hcontext := (GatewayError.mk.inj (Exn.gateway.inj h)).2
  cases (List.cons.inj hcontext).2

theorem not_about_draftInvalid (name : Text) (result : ValidationResult) :
    ¬ AboutDocument (draftInvalid name result) := by
  rintro ⟨problems, h⟩
  have hcontext := (GatewayError.mk.inj (Exn.gateway.inj h)).2
  cases (List.cons.inj hcontext).2

theorem not_about_other (text : String) : ¬ AboutDocument (.other text) := by
  rintro ⟨problems, h⟩
  cases h

-- ==================================================== the analysis

/-- A transaction goes on in one of the ways of a statement. -/
theorem statement_of_step (routes : PolicyRoutes δ) (i : ι)
    (task : PolicyTask δ) (store : PolicyStore ι δ) :
    Statement routes i store task (routes.step i task store).1
      (routes.step i task store).2 := by
  cases task with
  | ready request =>
      cases request with
      | createDraft tenantId id name =>
          simp only [PolicyRoutes.step]
          split
          · exact .fails (not_about_draftExists name)
          · exact .opens tenantId id name
      | updateDraft tenantId name document =>
          simp only [PolicyRoutes.step]
          split
          · rename_i problems hrefused
            exact (Statement.stays _).refuses hrefused
              (List.mem_singleton_self document)
          · rename_i accepted hparses
            split
            · exact .fails (not_about_notFound name)
            · rename_i draft hdraft
              exact .loads tenantId name document hdraft hparses
      | discardDraft tenantId name =>
          simp only [PolicyRoutes.step]
          split
          · exact .fails (not_about_notFound name)
          · rename_i draft hdraft
            exact .finds tenantId name hdraft
      | publishDraft tenantId name now =>
          simp only [PolicyRoutes.step]
          split
          · exact .fails (not_about_notFound name)
          · rename_i draft hdraft
            split
            · exact .accepts tenantId name now hdraft
            · exact .fails (not_about_draftInvalid name _)
  | seeding tenantId id name =>
      simp only [PolicyRoutes.step]
      split
      · exact .fails (not_about_notFound name)
      · rename_i active hactive
        have hmem := (List.mem_insertionSort _).mp
          (List.mem_of_find?_eq_some hactive)
        obtain ⟨hread, hnamed⟩ := List.mem_filter.mp hmem
        exact .seeds tenantId id name hread (of_decide_eq_true hnamed)
  | numbering tenantId id name document =>
      exact .numbers tenantId id name document
  | inserting tenantId id name version document =>
      simp only [PolicyRoutes.step]
      split
      · exact .stays _
      · exact .fails (not_about_other _)
      · rename_i written hinsert
        exact (Statement.inserts tenantId id name version document
          hinsert).responds (List.mem_singleton_self document)
  | editing draft document =>
      simp only [PolicyRoutes.step]
      split
      · exact .unchanged draft document
      · split
        · exact .stays _
        · exact .fails (not_about_other _)
        · rename_i written hupdate
          split
          · exact .edits draft document hupdate
          · exact .fails (not_about_other _)
  | deleting id =>
      simp only [PolicyRoutes.step]
      split
      · exact .stays _
      · exact .fails (not_about_other _)
      · rename_i written hupdate
        exact .deletes id hupdate
  | comparing tenantId name now draft =>
      simp only [PolicyRoutes.step]
      split
      · exact .compares tenantId name now draft
      · rename_i previous hprevious
        split
        · rename_i problems hrefused
          refine (Statement.stays _).refuses hrefused
            (List.mem_map.mpr ⟨previous, ?_, rfl⟩)
          exact List.mem_of_mem_filter ((List.mem_insertionSort _).mp
            (List.mem_of_find?_eq_some hprevious))
        · exact .compares tenantId name now draft
  | confirming tenantId name now accepted loaded =>
      simp only [PolicyRoutes.step]
      split
      · exact .fails (not_about_notFound name)
      · rename_i row hdraft
        exact .confirms tenantId name now accepted loaded hdraft
  | deactivating tenantId name now draft accepted =>
      simp only [PolicyRoutes.step]
      split
      · exact .stays _
      · exact .fails (not_about_other _)
      · rename_i written hupdate
        exact .deactivates tenantId name now draft accepted hupdate
  | promoting now draft accepted =>
      simp only [PolicyRoutes.step]
      split
      · exact .stays _
      · exact .fails (not_about_other _)
      · rename_i written hupdate
        split
        · rename_i hfound
          exact (Statement.promotes now draft accepted hupdate
            hfound).responds (List.mem_singleton_self draft.document)
        · exact .fails (not_about_other _)
  | committing publication => exact .commits publication
  | done outcome => exact .stays _

end PrivacyGateway.Policy
