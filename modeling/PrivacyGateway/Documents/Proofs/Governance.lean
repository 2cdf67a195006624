/-
One policy version for a document request.

The request keeps the snapshot that authorized its destination, but its
analysis asks the policy service once more. Between the two nothing is
waited for; only time passes. So all depends on the cache at that point
(`Steady`): if the entry is still good, or the row that is read in its
place has the same version, one version governs the request, and if not,
two do (`run_governed_iff`).
-/
import PrivacyGateway.Documents.Proofs.Journal

namespace PrivacyGateway.Documents

open Audit Effect Ledger

variable {unicode : Unicode} {σ : Type} {services : Services unicode σ}
  {principal : Principal} {request : DocumentRequest}

/-- Every act tells the same policy version. -/
def Governed (events : List Event) : Prop :=
  ∃ version, ∀ event ∈ events, ∀ v ∈ event.policyVersion, v = version

/-- Resolving the policy again here gives the version that is cached: the
entry has not expired, or the row that is read instead has its version. -/
def Steady (services : Services unicode σ) (tenantId : UUID)
    (l : Task σ) : Prop :=
  ∀ cached, l.shared.policies.entries.get? tenantId = some cached →
    cached.expiresAt > services.clock.reading l.readings ∨
      ∀ row, (l.interrupted sharedStep).policies.active.get? tenantId =
        some row → row.version = cached.snapshot.version

/-- What an analysis decides under, read off the cache and the table. -/
theorem decidesUnder_eq_iff {l : Task σ} {decided : Int}
    {entry : Policy.CacheEntry}
    (hentry : l.shared.policies.entries.get? principal.tenantId =
      some entry)
    (h : DecidesUnder services principal.tenantId l decided) :
    decided = entry.snapshot.version ↔
      Steady services principal.tenantId l := by
  obtain ⟨snapshot, m, rfl, hrun⟩ := h
  rcases Policy.activeSnapshot_source hrun with
    ⟨cached, hcached, hfresh, rfl⟩ | ⟨hexpired, row, hrow, hversion⟩
  · -- the entry is still good
    rw [hentry] at hcached
    cases hcached
    constructor
    · intro _ other hother
      rw [hentry] at hother
      cases hother
      exact Or.inl hfresh
    · intro _
      rfl
  · -- the row was read in its place
    rw [hversion]
    constructor
    · intro heq other hother
      rw [hentry] at hother
      cases hother
      right
      intro row' hrow'
      rw [hrow] at hrow'
      cases hrow'
      exact heq
    · intro hsteady
      rcases hsteady entry hentry with hfresh | hactive
      · exact absurd hfresh (hexpired entry hentry)
      · exact hactive row hrow

theorem governed_authorized {policyVersion decided : Int}
    {events : List Event} (h : Told policyVersion decided events) :
    Governed (.authorized policyVersion :: events) ↔
      decided = policyVersion := by
  constructor
  · intro hgoverned
    obtain ⟨version, hversion⟩ := hgoverned
    have hown := hversion _ List.mem_cons_self policyVersion rfl
    have hdecided := hversion _ (List.mem_cons_of_mem _ h.decides) decided
      rfl
    rw [hown, hdecided]
  · intro heq
    refine ⟨policyVersion, List.forall_mem_cons.mpr ⟨?_, ?_⟩⟩
    · intro v hv
      cases hv
      rfl
    · intro event hevent v hv
      rcases h.versions event hevent v hv with hv | hv
      · exact hv
      · exact hv.trans heq

/-- One policy version governs a document request, whatever the other
tasks do and however the clock runs, exactly when nothing was decided or
the cache was steady once the destination was authorized. -/
theorem run_governed_iff (services : Services unicode σ)
    (principal : Principal) (request : DocumentRequest) (l : Task σ) :
    Governed (written (run services principal request) l) ↔
      ((∃ version, Event.decided version ∈
          written (run services principal request) l) →
        Steady services principal.tenantId
          (runIn (authorizingPolicy services principal request)
            l.unwritten).2) := by
  cases hrun : runIn (run services principal request) l.unwritten with
  | mk r l' =>
      cases run_cases hrun with
      | refused e quiet =>
          rw [written_eq hrun quiet]
          constructor
          · intro _ hdecided
            obtain ⟨version, hmem⟩ := hdecided
            cases hmem
          · intro _
            exact ⟨0, fun event hevent => nomatch hevent⟩
      | authorized _ policy m resolved cached events processed after =>
          rw [written_eq hrun after, resolved]
          obtain ⟨entry, hentry, rfl⟩ := cached
          rcases processed.told with rfl | ⟨decided, hunder, htold⟩
          · constructor
            · intro _ hdecided
              obtain ⟨version, hmem⟩ := hdecided
              simp at hmem
            · intro _
              exact ⟨entry.snapshot.version,
                by simp [Event.policyVersion]⟩
          · rw [governed_authorized htold, decidesUnder_eq_iff hentry hunder]
            constructor
            · intro hsteady _
              exact hsteady
            · intro hsteady
              exact hsteady
                ⟨decided, List.mem_cons_of_mem _ htold.decides⟩

-- ==================================================== two versions

/-- A clock that ticks once for each reading. -/
def tickingClock : Clock where
  reading n := n
  nondecreasing := Nat.mono_cast

/-- A policy of one rule that allows one destination. -/
def echoPolicy : PolicyDocument where
  name := "default".toList
  sessionTtlSeconds := 3600
  maxEntities := 100
  providers := [("echo".toList, ["small".toList])]
  entities := [("EMAIL_ADDRESS".toList, ⟨.tokenize, 1 / 2, true,
    none, none, Bounds.half⟩)]
  sessionTtl_bounded := hour_le_maxSessionTtl
  maxEntities_bounded := hundred_le_maxEntityBudget

/-- A document of two characters. -/
def shortDocument : SegmentedDocument where
  document :=
    { text := "Hi".toList
      pages := [⟨1, 0, 2, Bounds.one_le_one, by decide⟩]
      pages_nonempty := by decide
      pages_tile := by decide }
  segments := [⟨0, 0, 2, [1], by decide⟩]

def echoServices : Services Unicode.ascii Unit :=
  .standalone tickingClock "echo".toList
    (.ok { content := some "Hello".toList, model := some "small".toList })
    (.ok shortDocument)

theorem echo_bounded :
    1 ≤ "echo".toList.length ∧ "echo".toList.length ≤ 64 := by
  decide

theorem small_bounded :
    1 ≤ "small".toList.length ∧ "small".toList.length ≤ 128 := by
  decide

def shortRequest : DocumentRequest where
  requestId := ⟨1⟩
  sessionId := ⟨2⟩
  userId := ⟨3⟩
  documentId := ⟨4⟩
  provider := "echo".toList
  model := "small".toList
  instruction := "Sum up".toList
  provider_bounded := echo_bounded
  model_bounded := small_bounded
  instruction_bounded := by decide

theorem echoSnapshot_version :
    0 < (PolicySnapshot.fromDocument echoPolicy ⟨5⟩ ⟨0⟩ 1).version := by
  decide

/-- Version 2 is published; version 1 is cached, and expires with the third
reading of the clock. -/
def republished : Task Unit where
  shared :=
    { policies :=
        { active := [(⟨0⟩, ⟨⟨5⟩, 2, .ok echoPolicy, by decide⟩)]
          entries := [(⟨0⟩,
            ⟨.fromDocument echoPolicy ⟨5⟩ ⟨0⟩ 1, 2, echoSnapshot_version⟩)] } }
  world := ()

/-- The destination is authorized under version 1, and the spans are
decided under version 2. -/
theorem expiry_divides_request :
    Event.authorized 1 ∈ written
        (run echoServices ⟨⟨0⟩, ⟨6⟩⟩ shortRequest) republished ∧
      Event.decided 2 ∈ written
        (run echoServices ⟨⟨0⟩, ⟨6⟩⟩ shortRequest) republished ∧
      ¬ Governed (written (run echoServices ⟨⟨0⟩, ⟨6⟩⟩ shortRequest)
        republished) := by
  have hauthorized : Event.authorized 1 ∈ written
      (run echoServices ⟨⟨0⟩, ⟨6⟩⟩ shortRequest) republished := by
    decide +kernel
  have hdecided : Event.decided 2 ∈ written
      (run echoServices ⟨⟨0⟩, ⟨6⟩⟩ shortRequest) republished := by
    decide +kernel
  refine ⟨hauthorized, hdecided, ?_⟩
  intro hgoverned
  obtain ⟨version, hversion⟩ := hgoverned
  have hone : (1 : Int) = version := hversion _ hauthorized 1 rfl
  have htwo : (2 : Int) = version := hversion _ hdecided 2 rfl
  rw [← htwo] at hone
  cases hone

end PrivacyGateway.Documents
