/-
Who gets past the gate.

`getPrincipal_eq` is the gate in one equation: a request that is not
authenticated changes nothing, one that is denied has been charged, and
one that is admitted has been charged and its key's use noted. With what
is known of authentication, an endpoint runs exactly for the presenters of
live keys that hold its scope and are within their limits.
-/
import PrivacyGateway.Auth.Dependencies
import PrivacyGateway.Auth.Proofs.Authentication

namespace PrivacyGateway.Auth

open Effect

-- ==================================================== scopes

theorem value_injective : Function.Injective Scope.value := by
  intro a b h
  cases a <;> cases b <;> first | rfl | exact absurd h (by decide)

theorem mem_all (scope : Scope) : scope ∈ Scope.all := by
  cases scope <;> decide

theorem ofValue_eq_some_iff {value : Text} {scope : Scope} :
    Scope.ofValue value = some scope ↔ value = scope.value := by
  unfold Scope.ofValue
  constructor
  · intro h
    have hvalue := List.find?_some h
    exact (of_decide_eq_true hvalue).symm
  · rintro rfl
    cases hfind : Scope.all.find?
        (fun other => decide (other.value = scope.value)) with
    | none =>
        rw [List.find?_eq_none] at hfind
        exact absurd (decide_eq_true rfl) (hfind scope (mem_all scope))
    | some other =>
        have hvalue := List.find?_some hfind
        rw [value_injective (of_decide_eq_true hvalue)]

/-- A scope is held exactly when the record names it. -/
theorem hasScope_buildPrincipal {record : ApiKey} {scope : Scope} :
    (buildPrincipal record).hasScope scope = true ↔
      scope.value ∈ record.scopes := by
  unfold KeyPrincipal.hasScope buildPrincipal parseScopes
  rw [decide_eq_true_eq, List.mem_toFinset, List.mem_filterMap]
  constructor
  · intro h
    obtain ⟨value, hvalue, hscope⟩ := h
    rw [← ofValue_eq_some_iff.mp hscope]
    exact hvalue
  · intro h
    exact ⟨scope.value, h, ofValue_eq_some_iff.mpr rfl⟩

-- ==================================================== the gate

section Gate

variable {σ : Type}

/-- What the gate makes of the header: the whole of authentication,
wired or not. -/
def identify (wiring : Wiring σ) (request : GateRequest) :
    Except Exn KeyPrincipal :=
  match wiring.authenticator with
  | none => fail "authenticator_not_configured"
  | some store =>
      authenticateBearer wiring.hashes wiring.pepper wiring.unicode store
        request.authorization request.moment request.now

/-- The state after a principal was admitted. -/
def admitted (wiring : Wiring σ) (request : GateRequest)
    (principal : KeyPrincipal) (s : GateState σ) : GateState σ where
  limits := (acquire wiring.limiter principal.toPrincipal s.limits).2
  seen := (wiring.tracker.recordUse s.seen
    ⟨principal.apiKeyId, request.usedAt, request.write⟩).2
  principal := some principal

theorem getPrincipal_eq (wiring : Wiring σ) (request : GateRequest)
    (s : GateState σ) :
    runIn (getPrincipal wiring request) s =
      match identify wiring request with
      | .error e => (.error e, s)
      | .ok principal =>
          let decision :=
            (acquire wiring.limiter principal.toPrincipal s.limits).1
          if decision.allowed then
            (.ok principal, admitted wiring request principal s)
          else
            (.error (gatewayError .rateLimitExceeded
                [("reason", .text decision.reason),
                  ("retry_after", .int decision.retryAfterSeconds)]),
              { s with limits := (acquire wiring.limiter
                  principal.toPrincipal s.limits).2 }) := by
  unfold getPrincipal identify
  cases wiring.authenticator with
  | none => exact checked_bind_error _ s
  | some store =>
      cases hauth : authenticateBearer wiring.hashes wiring.pepper
          wiring.unicode store request.authorization request.moment
          request.now with
      | error e =>
          simp only [checked_bind_ok, hauth]
          exact checked_bind_error _ s
      | ok principal =>
          simp only [enforce, runIn_bind, runIn_checked, runIn_act, hauth]
          by_cases hallowed : (acquire wiring.limiter principal.toPrincipal
              s.limits).1.allowed = true
          · rw [if_pos hallowed, if_pos hallowed]
            rfl
          · rw [if_neg hallowed, if_neg hallowed]
            rfl

/-- The error of a failed identification is the public one. -/
theorem identify_refusal {wiring : Wiring σ} {request : GateRequest}
    {e : Exn} (h : identify wiring request = .error e) :
    ∃ why, e = gatewayError .authenticationFailed (reason why) ∨
      e = gatewayError .authenticationRequired (reason why) := by
  unfold identify at h
  cases hstore : wiring.authenticator with
  | none =>
      rw [hstore] at h
      cases h
      exact ⟨_, Or.inl rfl⟩
  | some store =>
      rw [hstore] at h
      obtain ⟨why, rfl⟩ := authenticateBearer_refusal h
      unfold refusalCode
      split
      · exact ⟨why, Or.inr rfl⟩
      · exact ⟨why, Or.inl rfl⟩

/-- After any run on the key table, an endpoint that requires a scope runs
exactly for a request that presents a live key which has not expired and
whose record names the scope, and which the limiter admits; it runs as the
principal of that key. A request that presents no such key changes
nothing; and whatever is refused is refused as unauthenticated, over its
limit, or unauthorized, in this order. -/
theorem requireScope_admits_iff (wiring : Wiring σ) (tenants : List UUID)
    (ops : List KeyOp)
    (hwired : wiring.authenticator = some (.reachable
      (keyTable wiring.hashes wiring.pepper tenants ops)))
    (scope : Scope) (request : GateRequest) (s : GateState σ) :
    (∀ principal after,
      runIn (requireScope wiring scope request) s =
          (.ok principal, after) ↔
        (∃ value ∈ request.authorization, ∃ credential key,
          Presents wiring.unicode value credential ∧
            Live wiring.hashes wiring.pepper tenants ops key ∧
            prefixOf credential = prefixOf key.rawKey ∧
            hashApiKey wiring.hashes wiring.pepper credential =
              hashApiKey wiring.hashes wiring.pepper key.rawKey ∧
            Unexpired key.record request.moment ∧
            Unexpired key.record request.now ∧
            scope.value ∈ key.record.scopes ∧
            principal = buildPrincipal key.record) ∧
        (acquire wiring.limiter principal.toPrincipal
          s.limits).1.allowed = true ∧
        after = admitted wiring request principal s) ∧
    ∀ e after, runIn (requireScope wiring scope request) s =
        (.error e, after) →
      (∃ why code, e = gatewayError code (reason why) ∧ after = s ∧
        (code = .authenticationFailed ∨ code = .authenticationRequired)) ∨
      ∃ principal, identify wiring request = .ok principal ∧
        ((∃ context, e = gatewayError .rateLimitExceeded context ∧
          after.seen = s.seen ∧ after.principal = s.principal ∧
          (acquire wiring.limiter principal.toPrincipal
            s.limits).1.allowed = false) ∨
        e = gatewayError .authorizationFailed (reason "missing_scope") ∧
          after = admitted wiring request principal s ∧
          principal.hasScope scope = false) := by
  have hidentify : identify wiring request = authenticateBearer
      wiring.hashes wiring.pepper wiring.unicode
      (.reachable (keyTable wiring.hashes wiring.pepper tenants ops))
      request.authorization request.moment request.now := by
    unfold identify
    rw [hwired]
  constructor
  · intro principal after
    unfold requireScope
    rw [bind_ok_iff]
    simp only [getPrincipal_eq]
    constructor
    · intro h
      obtain ⟨found, t, hfound, hscope⟩ := h
      cases hid : identify wiring request with
      | error e =>
          rw [hid] at hfound
          cases hfound
      | ok who =>
          rw [hid] at hfound
          simp only at hfound
          by_cases hallowed : (acquire wiring.limiter who.toPrincipal
              s.limits).1.allowed = true
          · rw [if_pos hallowed] at hfound
            cases hfound
            by_cases hheld : found.hasScope scope = true
            · rw [if_pos hheld] at hscope
              cases hscope
              rw [hidentify] at hid
              obtain ⟨value, hvalue, credential, key, hpresents, hlive,
                hprefix, hhash, hmoment, hnow, rfl⟩ :=
                (authenticateBearer_iff_live _ _ _ _ _).mp hid
              exact ⟨⟨value, hvalue, credential, key, hpresents, hlive,
                hprefix, hhash, hmoment, hnow,
                hasScope_buildPrincipal.mp hheld, rfl⟩, hallowed, rfl⟩
            · rw [if_neg hheld] at hscope
              cases hscope
          · rw [if_neg hallowed] at hfound
            cases hfound
    · intro h
      obtain ⟨⟨value, hvalue, credential, key, hpresents, hlive, hprefix,
        hhash, hmoment, hnow, hscope, rfl⟩, hallowed, rfl⟩ := h
      have hid : identify wiring request =
          .ok (buildPrincipal key.record) := by
        rw [hidentify]
        exact (authenticateBearer_iff_live _ _ _ _ _).mpr
          ⟨value, hvalue, credential, key, hpresents, hlive, hprefix, hhash,
            hmoment, hnow, rfl⟩
      refine ⟨buildPrincipal key.record,
        admitted wiring request (buildPrincipal key.record) s, ?_, ?_⟩
      · rw [hid]
        simp only [if_pos hallowed]
      · rw [if_pos (hasScope_buildPrincipal.mpr hscope)]
        rfl
  · intro e after h
    unfold requireScope at h
    rcases bind_error_iff.mp h with h | ⟨found, t, hfound, hscope⟩
    · rw [getPrincipal_eq] at h
      cases hid : identify wiring request with
      | error e' =>
          rw [hid] at h
          cases h
          obtain ⟨why, rfl | rfl⟩ := identify_refusal hid
          · exact Or.inl ⟨why, _, rfl, rfl, Or.inl rfl⟩
          · exact Or.inl ⟨why, _, rfl, rfl, Or.inr rfl⟩
      | ok who =>
          rw [hid] at h
          simp only at h
          by_cases hallowed : (acquire wiring.limiter who.toPrincipal
              s.limits).1.allowed = true
          · rw [if_pos hallowed] at h
            cases h
          · rw [if_neg hallowed] at h
            cases h
            exact Or.inr ⟨who, rfl, Or.inl ⟨_, rfl, rfl, rfl,
              by simpa using hallowed⟩⟩
    · rw [getPrincipal_eq] at hfound
      cases hid : identify wiring request with
      | error e' =>
          rw [hid] at hfound
          cases hfound
      | ok who =>
          rw [hid] at hfound
          simp only at hfound
          by_cases hallowed : (acquire wiring.limiter who.toPrincipal
              s.limits).1.allowed = true
          · rw [if_pos hallowed] at hfound
            cases hfound
            by_cases hheld : found.hasScope scope = true
            · rw [if_pos hheld] at hscope
              cases hscope
            · rw [if_neg hheld] at hscope
              cases hscope
              exact Or.inr ⟨found, rfl, Or.inr ⟨rfl, rfl,
                by simpa using hheld⟩⟩
          · rw [if_neg hallowed] at hfound
            cases hfound

end Gate

/-- A gate behind which one key was issued, and a limiter that admits. -/
def chatWiring : Wiring Unit where
  unicode := .ascii
  hashes := .ofTables [] []
  pepper := "pepper".toList
  authenticator := some (.reachable (keyTable (.ofTables [] [])
    "pepper".toList [⟨1⟩] [.create chatKeyRequest]))
  limiter := some fun _ limits =>
    (⟨true, bucketApiKey, 120, 119, 0, reasonWithinLimit⟩, limits)
  tracker := defaultTracker

def chatRequest : GateRequest where
  authorization :=
    some ("Bearer ".toList ++ rawKeyOf chatKeyRequest.random)
  moment := 0
  now := 0
  usedAt := 0
  write := none

def chatPrincipal : KeyPrincipal :=
  buildPrincipal (chatKeyRequest.record (.ofTables [] []) "pepper".toList
    none)

theorem requireScope_admits_chatRequest :
    runIn (requireScope chatWiring .chatInvoke chatRequest)
        ⟨(), [], none⟩ =
      (.ok chatPrincipal,
        admitted chatWiring chatRequest chatPrincipal ⟨(), [], none⟩) := by
  obtain ⟨after, hcreate⟩ :=
    create_chatKey (.ofTables [] []) "pepper".toList
  refine ((requireScope_admits_iff chatWiring [⟨1⟩]
    [.create chatKeyRequest] rfl .chatInvoke chatRequest
    ⟨(), [], none⟩).1 _ _).mpr
    ⟨⟨_, rfl, rawKeyOf chatKeyRequest.random,
      ⟨chatKeyRequest.record (.ofTables [] []) "pepper".toList none,
        rawKeyOf chatKeyRequest.random⟩, presents_rawKey _ _,
      ⟨[], _, [], rfl, ?_, List.not_mem_nil⟩, rfl, rfl, nofun, nofun, ?_,
      rfl⟩, rfl, rfl⟩
  · simp only [issuedBy]
    rw [show create chatWiring.hashes chatWiring.pepper [⟨1⟩]
      (keyTable chatWiring.hashes chatWiring.pepper [⟨1⟩] [])
      chatKeyRequest = _ from hcreate]
  · exact List.mem_singleton_self _

end PrivacyGateway.Auth
