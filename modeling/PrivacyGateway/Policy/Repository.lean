/-
The policy table, and the statements the repository puts to it.

A document is opaque here: its type is a parameter. `insertRow` keeps what
the database's indexes keep: ids are unique, versions are unique under a
name, and a name has one draft. Where a query leaves the order of its rows
open, the order is the database's, and `PolicyDatabase` is that choice.
-/
import Mathlib.Data.List.Sort
import PrivacyGateway.Domain
import PrivacyGateway.Lib.Effect

namespace PrivacyGateway.Policy

open Effect

inductive PolicyStatus
  | draft
  | published
deriving DecidableEq

/-- One version of a policy. -/
structure PolicyRow (δ : Type) where
  id : UUID
  tenantId : Option UUID
  name : Text
  version : Int
  document : δ
  isActive : Bool
  status : PolicyStatus
  publishedAt : Option Rat
deriving DecidableEq

/-- The row is a version of this tenant's policy of this name. -/
def PolicyRow.Named {δ : Type} (row : PolicyRow δ) (tenantId : UUID)
    (name : Text) : Prop :=
  row.tenantId = some tenantId ∧ row.name = name

instance {δ : Type} (row : PolicyRow δ) (tenantId : UUID) (name : Text) :
    Decidable (row.Named tenantId name) := by
  unfold PolicyRow.Named
  exact instDecidableAnd

abbrev PolicyTable (δ : Type) := List (PolicyRow δ)

/-- A database, as far as a query may depend on it: of several rows that
come first in the order asked for, which one does. -/
structure PolicyDatabase (δ : Type) where
  first : List (PolicyRow δ) → Option (PolicyRow δ)
  first_mem : ∀ rows row, first rows = some row → row ∈ rows
  first_some : ∀ rows, rows ≠ [] → (first rows).isSome

def integrityError : Exn := .other "IntegrityError"

/-- Two rows that the indexes do not admit together. -/
def Clashes {δ : Type} (row other : PolicyRow δ) : Prop :=
  other.id = row.id ∨
    other.tenantId = row.tenantId ∧ other.name = row.name ∧
      (other.version = row.version ∨
        other.status = .draft ∧ row.status = .draft)

instance {δ : Type} (row other : PolicyRow δ) :
    Decidable (Clashes row other) := by
  unfold Clashes
  exact instDecidableOr

namespace PolicyRepository

variable {δ : Type}

-- ==================================================== statements

/-- The tenant's active rows of the highest version. -/
def topActive (tenantId : UUID) (table : PolicyTable δ) :
    List (PolicyRow δ) :=
  let active := table.filter fun row =>
    decide (row.tenantId = some tenantId) && row.isActive
  active.filter fun row =>
    active.all fun other => decide (other.version ≤ row.version)

/-- `SELECT … is_active ORDER BY version DESC LIMIT 1`. -/
def getActive (database : PolicyDatabase δ) (tenantId : UUID)
    (table : PolicyTable δ) : Option (PolicyRow δ) :=
  database.first (topActive tenantId table)

def getDraft (tenantId : UUID) (name : Text) (table : PolicyTable δ) :
    Option (PolicyRow δ) :=
  table.find? fun row =>
    decide (row.Named tenantId name) && decide (row.status = .draft)

def getVersion (tenantId : UUID) (name : Text) (version : Int)
    (table : PolicyTable δ) : Option (PolicyRow δ) :=
  table.find? fun row =>
    decide (row.Named tenantId name) && decide (row.version = version)

/-- The rows of a name, by version. -/
def listVersions (tenantId : UUID) (name : Text) (table : PolicyTable δ) :
    List (PolicyRow δ) :=
  (table.filter fun row => decide (row.Named tenantId name)).insertionSort
    fun row other => row.version ≤ other.version

/-- The version number a new draft would take. -/
def nextVersion (tenantId : UUID) (name : Text) (table : PolicyTable δ) :
    Int :=
  match (table.filter fun row =>
      decide (row.Named tenantId name)).map PolicyRow.version with
  | [] => 1
  | version :: versions => versions.foldl max version + 1

def insertRow (row : PolicyRow δ) (table : PolicyTable δ) :
    Except Exn (PolicyTable δ) :=
  if ∃ other ∈ table, Clashes row other then .error integrityError
  else .ok (table ++ [row])

/-- `UPDATE … WHERE id`. -/
def updateById (id : UUID) (change : PolicyRow δ → PolicyRow δ)
    (table : PolicyTable δ) : PolicyTable δ :=
  table.map fun row => if row.id = id then change row else row

/-- Deactivate the other versions of a name. -/
def deactivateOthers (tenantId : UUID) (name : Text) (id : UUID)
    (table : PolicyTable δ) : PolicyTable δ :=
  table.map fun row =>
    if row.Named tenantId name ∧ row.id ≠ id then
      { row with isActive := false }
    else row

def PolicyRow.published (now : Rat) (row : PolicyRow δ) : PolicyRow δ :=
  { row with
    status := .published, isActive := true, publishedAt := some now }

-- ==================================================== operations

/-- Insert a finished version. -/
def createVersion (tenantId id : UUID) (name : Text) (version : Int)
    (document : δ) (isActive : Bool) (now : Rat) :
    Eff (PolicyTable δ) Exn (PolicyRow δ) :=
  if version < 1 then
    throw (.value "policy version must be a positive integer")
  else
    act fun table =>
      let row := {
        id := id, tenantId := some tenantId, name := name
        version := version, document := document, isActive := isActive
        status := .published, publishedAt := some now }
      match insertRow row table with
      | .error e => (.error e, table)
      | .ok inserted => (.ok row, inserted)

/-- Make one version active, and the others of its name not. -/
def activate (tenantId id : UUID) :
    Eff (PolicyTable δ) Exn (Option (PolicyRow δ)) :=
  act fun table =>
    match table.find? fun row =>
        decide (row.tenantId = some tenantId ∧ row.id = id) with
    | none => (.ok none, table)
    | some row =>
        (.ok (some { row with isActive := true }),
          updateById id (fun row => { row with isActive := true })
            (deactivateOthers tenantId row.name id table))

/-- Open a draft at the next version number. -/
def createDraft (tenantId id : UUID) (name : Text) (document : δ) :
    Eff (PolicyTable δ) Exn (PolicyRow δ) :=
  act fun table =>
    let row := {
      id := id, tenantId := some tenantId, name := name
      version := nextVersion tenantId name table, document := document
      isActive := false, status := .draft, publishedAt := none }
    match insertRow row table with
    | .error e => (.error e, table)
    | .ok inserted => (.ok row, inserted)

def updateDraft (tenantId : UUID) (name : Text) (document : δ) :
    Eff (PolicyTable δ) Exn (Option (PolicyRow δ)) :=
  act fun table =>
    match getDraft tenantId name table with
    | none => (.ok none, table)
    | some draft =>
        (.ok (some { draft with document := document }),
          updateById draft.id (fun row => { row with document := document })
            table)

def discardDraft (tenantId : UUID) (name : Text) :
    Eff (PolicyTable δ) Exn Bool :=
  act fun table =>
    match getDraft tenantId name table with
    | none => (.ok false, table)
    | some draft =>
        (.ok true, table.filter fun row => decide (row.id ≠ draft.id))

/-- Promote the draft to the active published version. -/
def publishDraft (tenantId : UUID) (name : Text) (now : Rat) :
    Eff (PolicyTable δ) Exn (Option (PolicyRow δ)) :=
  act fun table =>
    match getDraft tenantId name table with
    | none => (.ok none, table)
    | some draft =>
        (.ok (some (PolicyRow.published now draft)),
          updateById draft.id (PolicyRow.published now)
            (deactivateOthers tenantId name draft.id table))

-- ==================================================== runs

/-- One operation on the policies, in a transaction of its own. -/
inductive TableOp (δ : Type)
  | createVersion (tenantId id : UUID) (name : Text) (version : Int)
      (document : δ) (isActive : Bool) (now : Rat)
  | createDraft (tenantId id : UUID) (name : Text) (document : δ)
  | updateDraft (tenantId : UUID) (name : Text) (document : δ)
  | discardDraft (tenantId : UUID) (name : Text)
  | publishDraft (tenantId : UUID) (name : Text) (now : Rat)
  | activate (tenantId id : UUID)

/-- The table after an operation. One that raises changes nothing. -/
def step (table : PolicyTable δ) : TableOp δ → PolicyTable δ
  | .createVersion tenantId id name version document isActive now =>
      (runIn (createVersion tenantId id name version document isActive now)
        table).2
  | .createDraft tenantId id name document =>
      (runIn (createDraft tenantId id name document) table).2
  | .updateDraft tenantId name document =>
      (runIn (updateDraft tenantId name document) table).2
  | .discardDraft tenantId name =>
      (runIn (discardDraft tenantId name) table).2
  | .publishDraft tenantId name now =>
      (runIn (publishDraft tenantId name now) table).2
  | .activate tenantId id => (runIn (activate tenantId id) table).2

end PolicyRepository

end PrivacyGateway.Policy
