/-
The management routes as transactions on the policy table.

A route reads the draft, decides, and writes in statements of its own, in
one transaction. A flush updates a row by its primary key, and only the
columns the session has changed: it does not ask again what the row is by
then. A session keeps a row as it was first loaded, whatever a later query
finds.

`PolicySystem` is any number of such transactions. `publications` records,
for every publication that was committed, the row and the document that
`validateDraft` accepted for it.
-/
import Mathlib.Logic.Function.Basic
import PrivacyGateway.Lib.ReadCommitted
import PrivacyGateway.Policy.Authoring
import PrivacyGateway.Policy.Repository

namespace PrivacyGateway.Policy

open ReadCommitted PolicyRepository

abbrev PolicyStore (ι δ : Type) := Store ι (PolicyRow δ)

/-- A request to a management route. The id of a new row and the time of a
publication are drawn with it. -/
inductive PolicyRequest (δ : Type)
  | createDraft (tenantId id : UUID) (name : Text)
  | updateDraft (tenantId : UUID) (name : Text) (document : δ)
  | discardDraft (tenantId : UUID) (name : Text)
  | publishDraft (tenantId : UUID) (name : Text) (now : Rat)

/-- A published row, and the document that was accepted for it. -/
structure Publication (δ : Type) where
  id : UUID
  document : δ
deriving DecidableEq

/-- A request, and how far its transaction has come. -/
inductive PolicyTask (δ : Type)
  | ready (request : PolicyRequest δ)
  | seeding (tenantId id : UUID) (name : Text)
  | numbering (tenantId id : UUID) (name : Text) (document : δ)
  | inserting (tenantId id : UUID) (name : Text) (version : Int)
      (document : δ)
  | editing (draft : PolicyRow δ) (document : δ)
  | deleting (id : UUID)
  | comparing (tenantId : UUID) (name : Text) (now : Rat)
      (draft : PolicyRow δ)
  | confirming (tenantId : UUID) (name : Text) (now : Rat) (accepted : δ)
      (loaded : List (PolicyRow δ))
  | deactivating (tenantId : UUID) (name : Text) (now : Rat)
      (draft : PolicyRow δ) (accepted : δ)
  | promoting (now : Rat) (draft : PolicyRow δ) (accepted : δ)
  | committing (publication : Option (Publication δ))
  | done (outcome : Except Exn Unit)

-- ==================================================== errors

def policyNotFound (name : Text) : Exn :=
  gatewayError .policyNotFound [("policy_name", .text name)]

def draftExists (name : Text) : Exn :=
  gatewayError .invalidRequest
    [("policy_name", .text name), ("reason", .text "draft_exists".toList)]

def draftInvalid (name : Text) (result : ValidationResult) : Exn :=
  gatewayError .invalidRequest
    [("policy_name", .text name),
      ("problem_count", .int result.problems.length),
      ("reason", .text "draft_invalid".toList)]

def documentRefused (problems : List Text) : Exn :=
  gatewayError .invalidRequest
    [("problems", .text (", ".toList.intercalate problems))]

/-- An update by primary key that matched no row. -/
def staleDataError : Exn := .other "StaleDataError"

def cancelledError : Exn := .other "CancelledError"

/-- What the routes ask of a document: what `validate_policy_document`
makes of it, and whether a flush finds it unchanged. -/
structure PolicyRoutes (δ : Type) where
  validate : δ → Except (List Text) Draft
  same : δ → δ → Bool

namespace PolicyRoutes

variable {δ ι : Type} [DecidableEq ι] (routes : PolicyRoutes δ)

/-- The transaction is rolled back. -/
def fail (i : ι) (e : Exn) (store : PolicyStore ι δ) :
    PolicyTask δ × PolicyStore ι δ :=
  (.done (.error e), store.rollback i)

/-- The response shows the document, which must parse for that. -/
def respond (i : ι) (document : δ) (publication : Option (Publication δ))
    (store : PolicyStore ι δ) : PolicyTask δ × PolicyStore ι δ :=
  match routes.validate document with
  | .error problems => fail i (documentRefused problems) store
  | .ok _ => (.committing publication, store)

def newDraft (tenantId id : UUID) (name : Text) (version : Int)
    (document : δ) : PolicyRow δ where
  id := id
  tenantId := some tenantId
  name := name
  version := version
  document := document
  isActive := false
  status := .draft
  publishedAt := none

/-- A row with the columns a publication changes. -/
def promote (now : Rat) (row : PolicyRow δ) : Option (PolicyRow δ) :=
  some (PolicyRow.published now row)

/-- The next statement of a transaction. One that waits leaves it where it
is. -/
def step (i : ι) : PolicyTask δ → PolicyStore ι δ →
    PolicyTask δ × PolicyStore ι δ
  | .ready (.createDraft tenantId id name), store =>
      match getDraft tenantId name (store.rows i) with
      | some _ => fail i (draftExists name) store
      | none => (.seeding tenantId id name, store)
  | .seeding tenantId id name, store =>
      match (listVersions tenantId name (store.rows i)).find?
          PolicyRow.isActive with
      | none => fail i (policyNotFound name) store
      | some active => (.numbering tenantId id name active.document, store)
  | .numbering tenantId id name document, store =>
      (.inserting tenantId id name
        (nextVersion tenantId name (store.rows i)) document, store)
  | .inserting tenantId id name version document, store =>
      let row := newDraft tenantId id name version document
      match store.insert i (fun other => decide (Clashes row other)) row with
      | .waits => (.inserting tenantId id name version document, store)
      | .refused => fail i integrityError store
      | .writes written => routes.respond i document none written
  | .ready (.updateDraft tenantId name document), store =>
      match routes.validate document with
      | .error problems => fail i (documentRefused problems) store
      | .ok _ =>
          match getDraft tenantId name (store.rows i) with
          | none => fail i (policyNotFound name) store
          | some draft => (.editing draft document, store)
  | .editing draft document, store =>
      if routes.same document draft.document then (.committing none, store)
      else
        match store.update i (fun row => decide (row.id = draft.id))
            (fun row => some { row with document := document }) with
        | .waits => (.editing draft document, store)
        | .refused => fail i integrityError store
        | .writes written =>
            if ∃ row ∈ store.rows i, row.id = draft.id then
              (.committing none, written)
            else fail i staleDataError store
  | .ready (.discardDraft tenantId name), store =>
      match getDraft tenantId name (store.rows i) with
      | none => fail i (policyNotFound name) store
      | some draft => (.deleting draft.id, store)
  | .deleting id, store =>
      match store.update i (fun row => decide (row.id = id))
          (fun _ => none) with
      | .waits => (.deleting id, store)
      | .refused => fail i integrityError store
      | .writes written => (.committing none, written)
  | .ready (.publishDraft tenantId name now), store =>
      match getDraft tenantId name (store.rows i) with
      | none => fail i (policyNotFound name) store
      | some draft =>
          let result := validateDraft (routes.validate draft.document)
          if result.valid then (.comparing tenantId name now draft, store)
          else fail i (draftInvalid name result) store
  | .comparing tenantId name now draft, store =>
      let versions := listVersions tenantId name (store.rows i)
      let next : PolicyTask δ :=
        .confirming tenantId name now draft.document (draft :: versions)
      match versions.find? PolicyRow.isActive with
      | none => (next, store)
      | some previous =>
          match routes.validate previous.document with
          | .error problems => fail i (documentRefused problems) store
          | .ok _ => (next, store)
  | .confirming tenantId name now accepted loaded, store =>
      match getDraft tenantId name (store.rows i) with
      | none => fail i (policyNotFound name) store
      | some row =>
          let draft := (loaded.find? fun old =>
            decide (old.id = row.id)).getD row
          (.deactivating tenantId name now draft accepted, store)
  | .deactivating tenantId name now draft accepted, store =>
      match store.update i
          (fun row => decide (row.Named tenantId name ∧ row.id ≠ draft.id))
          (fun row => some { row with isActive := false }) with
      | .waits => (.deactivating tenantId name now draft accepted, store)
      | .refused => fail i integrityError store
      | .writes written => (.promoting now draft accepted, written)
  | .promoting now draft accepted, store =>
      match store.update i (fun row => decide (row.id = draft.id))
          (promote now) with
      | .waits => (.promoting now draft accepted, store)
      | .refused => fail i integrityError store
      | .writes written =>
          if ∃ row ∈ store.rows i, row.id = draft.id then
            routes.respond i draft.document (some ⟨draft.id, accepted⟩)
              written
          else fail i staleDataError store
  | .committing _, store => (.done (.ok ()), store.commit i)
  | .done outcome, store => (.done outcome, store)

end PolicyRoutes

-- ==================================================== the system

/-- Any number of transactions on one table. -/
structure PolicySystem (ι δ : Type) where
  store : PolicyStore ι δ
  tasks : ι → PolicyTask δ
  publications : List (Publication δ)

/-- A transaction takes its next statement, or is cancelled or loses its
connection. -/
inductive PolicyEvent (ι : Type)
  | runs (i : ι)
  | aborts (i : ι)

/-- What a step of this task publishes. -/
def PolicyTask.publishing {δ : Type} : PolicyTask δ → List (Publication δ)
  | .committing publication => publication.toList
  | _ => []

/-- One task, and the store, have come this far. -/
def PolicySystem.after {ι δ : Type} [DecidableEq ι]
    (system : PolicySystem ι δ) (i : ι)
    (result : PolicyTask δ × PolicyStore ι δ) : PolicySystem ι δ where
  store := result.2
  tasks := Function.update system.tasks i result.1
  publications := system.publications

namespace PolicyRoutes

variable {δ ι : Type} [DecidableEq ι] (routes : PolicyRoutes δ)

def systemStep (system : PolicySystem ι δ) :
    PolicyEvent ι → PolicySystem ι δ
  | .runs i =>
      { system.after i (routes.step i (system.tasks i) system.store) with
        publications :=
          system.publications ++ (system.tasks i).publishing }
  | .aborts i =>
      match system.tasks i with
      | .done _ => system
      | _ => system.after i (fail i cancelledError system.store)

end PolicyRoutes

/-- The table as it stands, and requests that have not begun. -/
def PolicySystem.start {ι δ : Type} (table : PolicyTable δ)
    (requests : ι → PolicyRequest δ) : PolicySystem ι δ where
  store := table.map fun row => ⟨some row, none⟩
  tasks i := .ready (requests i)
  publications := (table.filter fun row =>
    decide (row.status = .published)).map fun row => ⟨row.id, row.document⟩

end PrivacyGateway.Policy
