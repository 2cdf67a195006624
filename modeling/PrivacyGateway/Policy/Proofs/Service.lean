/-
What a resolution answers, and what it leaves in the cache.

A snapshot that was answered is in the cache when the resolution returns,
whichever way it was found. Where it came from is `activeSnapshot_source`:
the tenant's entry, if that had not expired when the clock was read, or
else the row that was active after the first wait.
-/
import PrivacyGateway.Policy.Service

namespace PrivacyGateway.Policy

open Effect Ledger

variable {σ : Type} {service : PolicyService σ} {tenantId : UUID}
  {l l' : Task σ}

theorem silent_getActivePolicy :
    Silent (getActivePolicy service tenantId) :=
  silent_bind (silent_await sharedStep _) (fun _ =>
    silent_bind (silent_inspect _) (fun _ =>
      silent_bind (silent_pause _) (fun _ => silent_pure _)))

theorem silent_activeSnapshot :
    Silent (activeSnapshot service tenantId) := by
  refine silent_bind (silent_readClock _) (fun now =>
    silent_bind (silent_inspect _) (fun cached => ?_))
  cases cached with
  | some snapshot => exact silent_pure snapshot
  | none =>
      exact silent_bind silent_getActivePolicy (fun _ => silent_alter _)

/-- The row is the one that was active after the first wait. -/
theorem getActivePolicy_ok {stored : Option StoredPolicy}
    (h : runIn (getActivePolicy service tenantId) l = (.ok stored, l')) :
    stored = (l.interrupted sharedStep).policies.active.get? tenantId := by
  unfold getActivePolicy at h
  obtain ⟨_, m, hwait, h⟩ := bind_ok_iff.mp h
  obtain ⟨_, m', hpause, hwork⟩ := bind_ok_iff.mp hwait
  obtain ⟨w, -, rfl⟩ := onWorld_ok_iff.mp hwork
  obtain ⟨_, n, hinspect, h⟩ := bind_ok_iff.mp h
  obtain ⟨_, n', -, h⟩ := bind_ok_iff.mp h
  cases hpause
  cases hinspect
  cases h
  rfl

theorem reloadSnapshot_ok {now : Rat} {snapshot : PolicySnapshot}
    (h : runIn (reloadSnapshot service tenantId now) l =
      (.ok snapshot, l')) :
    (∃ row, (l.interrupted sharedStep).policies.active.get? tenantId =
        some row ∧ snapshot.version = row.version) ∧
      ∃ cached, l'.shared.policies.entries.get? tenantId = some cached ∧
        cached.snapshot = snapshot := by
  unfold reloadSnapshot at h
  obtain ⟨stored, m, hget, h⟩ := bind_ok_iff.mp h
  rw [runIn_alter] at h
  obtain ⟨hresult, rfl⟩ := Prod.mk.inj h
  obtain ⟨⟨row, rfl, hrow⟩, cached, hcached, hsnapshot, -⟩ :=
    remember_ok (Prod.ext (y := (Except.ok snapshot, _)) hresult rfl)
  exact ⟨⟨row, (getActivePolicy_ok hget).symm, snapshotOf_version hrow⟩,
    cached, hcached, hsnapshot⟩

/-- Where a resolved snapshot came from. -/
theorem activeSnapshot_source {snapshot : PolicySnapshot}
    (h : runIn (activeSnapshot service tenantId) l = (.ok snapshot, l')) :
    (∃ cached, l.shared.policies.entries.get? tenantId = some cached ∧
      cached.expiresAt > service.clock.reading l.readings ∧
      cached.snapshot = snapshot) ∨
    ((∀ cached, l.shared.policies.entries.get? tenantId = some cached →
        ¬ cached.expiresAt > service.clock.reading l.readings) ∧
      ∃ row, (l.interrupted sharedStep).policies.active.get? tenantId =
        some row ∧ snapshot.version = row.version) := by
  unfold activeSnapshot at h
  rw [runIn_bind, runIn_readClock] at h
  simp only at h
  rw [runIn_bind, runIn_inspect] at h
  simp only at h
  cases hlookup : lookup (service.clock.reading l.readings) tenantId
      l.shared.policies with
  | some cached =>
      rw [hlookup] at h
      cases h
      exact Or.inl (lookup_eq_some_iff.mp hlookup)
  | none =>
      rw [hlookup] at h
      refine Or.inr ⟨?_, (reloadSnapshot_ok h).1⟩
      intro cached hcached hfresh
      rw [lookup_eq_some_iff.mpr ⟨cached, hcached, hfresh, rfl⟩] at hlookup
      cases hlookup

/-- A resolved snapshot is in the cache. -/
theorem activeSnapshot_cached {snapshot : PolicySnapshot}
    (h : runIn (activeSnapshot service tenantId) l = (.ok snapshot, l')) :
    ∃ cached, l'.shared.policies.entries.get? tenantId = some cached ∧
      cached.snapshot = snapshot := by
  unfold activeSnapshot at h
  rw [runIn_bind, runIn_readClock] at h
  simp only at h
  rw [runIn_bind, runIn_inspect] at h
  simp only at h
  cases hlookup : lookup (service.clock.reading l.readings) tenantId
      l.shared.policies with
  | some cached =>
      rw [hlookup] at h
      cases h
      obtain ⟨entry, hentry, -, hsnapshot⟩ := lookup_eq_some_iff.mp hlookup
      exact ⟨entry, hentry, hsnapshot⟩
  | none =>
      rw [hlookup] at h
      exact (reloadSnapshot_ok h).2

/-- How a resolution ends. -/
theorem resolve_cases {provider model : Text}
    {r : Except Exn PolicySnapshot}
    (h : runIn (resolve service tenantId provider model) l = (r, l')) :
    (∃ snapshot, r = .ok snapshot ∧
      After l [.authorized snapshot.version] l' ∧
      ∃ cached, l'.shared.policies.entries.get? tenantId = some cached ∧
        cached.snapshot = snapshot) ∨
      ∃ e, r = .error e ∧ Quiet l l' := by
  unfold resolve at h
  rcases silent_activeSnapshot.bind_cases h with
    ⟨e, rfl, hquiet, -⟩ | ⟨snapshot, m, hactive, hrun, h⟩
  · exact Or.inr ⟨e, rfl, hquiet⟩
  cases hroute : authorizeDestination tenantId snapshot provider model with
  | error e =>
      rw [hroute, checked_bind_error] at h
      cases h
      exact Or.inr ⟨e, rfl, hactive⟩
  | ok u =>
      rw [hroute, checked_bind_ok] at h
      rw [runIn_bind, runIn_note] at h
      have hcached := activeSnapshot_cached hrun
      cases h
      exact Or.inl ⟨snapshot, rfl, hactive.after ⟨rfl, le_refl _⟩,
        hcached⟩

/-- A cached snapshot has a row's version. -/
theorem version_positive_of_cached {snapshot : PolicySnapshot}
    (h : ∃ cached, l.shared.policies.entries.get? tenantId = some cached ∧
      cached.snapshot = snapshot) : 0 < snapshot.version := by
  obtain ⟨cached, -, rfl⟩ := h
  exact cached.version_positive

end PrivacyGateway.Policy
