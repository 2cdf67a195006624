/-
The policy cache: what is kept of a resolved policy, and for how long.

The functions here are the parts of a resolution between two waits, each
an atomic step on `PolicyState`: the table of active policies and the
cache before it. `PolicyOp` is what other tasks do to that state meanwhile.
-/
import PrivacyGateway.Policy.Models

namespace PrivacyGateway.Policy

/-- How long a resolved snapshot is reused. -/
def policyCacheTtlSeconds : Rat := 30

/-- One row of the policy table. The document is what validation makes of
the stored one: the paths of its problems, or a policy document. -/
structure StoredPolicy where
  policyId : UUID
  version : Int
  document : Except (List Text) PolicyDocument
  version_positive : 0 < version
deriving DecidableEq

/-- One cached snapshot and the moment it stops being trustworthy. -/
structure CacheEntry where
  snapshot : PolicySnapshot
  expiresAt : Rat
  version_positive : 0 < snapshot.version
deriving DecidableEq

/-- Each tenant's active row, and the cache. -/
structure PolicyState where
  active : Dict UUID StoredPolicy := []
  entries : Dict UUID CacheEntry := []
deriving DecidableEq

/-- The cached snapshot, while it is trustworthy. -/
def lookup (now : Rat) (tenantId : UUID) (state : PolicyState) :
    Option PolicySnapshot :=
  match state.entries.get? tenantId with
  | some cached => if cached.expiresAt > now then some cached.snapshot else none
  | none => none

/-- The snapshot of a row. -/
def snapshotOf (tenantId : UUID) (stored : StoredPolicy) :
    Except Exn PolicySnapshot :=
  match stored.document with
  | .error problems =>
      .error (gatewayError .policyNotFound
        [("tenant_id", .text tenantId.str),
          ("policy_id", .text stored.policyId.str),
          ("policy_version", .int stored.version),
          ("reason", .text "stored_document_invalid".toList),
          ("problems", .text (", ".toList.intercalate problems))])
  | .ok document =>
      .ok (.fromDocument document stored.policyId tenantId stored.version)

theorem snapshotOf_version {tenantId : UUID} {stored : StoredPolicy}
    {snapshot : PolicySnapshot}
    (h : snapshotOf tenantId stored = .ok snapshot) :
    snapshot.version = stored.version := by
  unfold snapshotOf at h
  split at h
  · cases h
  · cases h
    rfl

/-- What is done with the answer of the table: build the snapshot and
cache it, or drop the stale entry of a tenant without a policy. -/
def remember (tenantId : UUID) (expiresAt : Rat)
    (stored : Option StoredPolicy) (state : PolicyState) :
    Except Exn PolicySnapshot × PolicyState :=
  match stored with
  | none =>
      (.error (gatewayError .policyNotFound
        [("tenant_id", .text tenantId.str),
          ("reason", .text "no_active_policy".toList)]),
        { state with entries := state.entries.erase tenantId })
  | some row =>
      match h : snapshotOf tenantId row with
      | .error e => (.error e, state)
      | .ok snapshot =>
          (.ok snapshot,
            { state with
              entries := state.entries.set tenantId
                ⟨snapshot, expiresAt, by
                  rw [snapshotOf_version h]
                  exact row.version_positive⟩ })

-- ==================================================== other tasks

/-- What other tasks do to the policies: a version becomes the tenant's
active one, or none is; another resolution writes the cache; an entry is
dropped, or all are. -/
inductive PolicyOp
  | publish (tenantId : UUID) (stored : StoredPolicy)
  | deactivate (tenantId : UUID)
  | cache (tenantId : UUID) (entry : CacheEntry)
  | invalidate (tenantId : UUID)
  | clear
deriving DecidableEq

def policyStep (state : PolicyState) : PolicyOp → PolicyState
  | .publish tenantId stored =>
      { state with active := state.active.set tenantId stored }
  | .deactivate tenantId =>
      { state with active := state.active.erase tenantId }
  | .cache tenantId entry =>
      { state with entries := state.entries.set tenantId entry }
  | .invalidate tenantId =>
      { state with entries := state.entries.erase tenantId }
  | .clear => { state with entries := [] }

-- ==================================================== facts

/-- A snapshot that was built is the one of the row, and it is in the
cache. -/
theorem remember_ok {tenantId : UUID} {expiresAt : Rat}
    {stored : Option StoredPolicy} {state state' : PolicyState}
    {snapshot : PolicySnapshot}
    (h : remember tenantId expiresAt stored state = (.ok snapshot, state')) :
    (∃ row, stored = some row ∧ snapshotOf tenantId row = .ok snapshot) ∧
      ∃ cached, state'.entries.get? tenantId = some cached ∧
        cached.snapshot = snapshot ∧ cached.expiresAt = expiresAt := by
  unfold remember at h
  cases stored with
  | none => cases h
  | some row =>
      simp only at h
      split at h
      · cases h
      · rename_i s hrow
        cases h
        exact ⟨⟨row, rfl, hrow⟩, _, Dict.get?_set_self _ _ _, rfl, rfl⟩

/-- The cached snapshot is the entry's, and the entry has not expired. -/
theorem lookup_eq_some_iff {now : Rat} {tenantId : UUID}
    {state : PolicyState} {snapshot : PolicySnapshot} :
    lookup now tenantId state = some snapshot ↔
      ∃ cached, state.entries.get? tenantId = some cached ∧
        cached.expiresAt > now ∧ cached.snapshot = snapshot := by
  unfold lookup
  cases state.entries.get? tenantId with
  | none => simp
  | some cached =>
      by_cases hfresh : cached.expiresAt > now
      · simp [hfresh]
      · simp [hfresh]

end PrivacyGateway.Policy
