/-
What the outbound boundary writes in the journal.

An attestation that was returned was written, with the request it attests,
right after the scan began. A provider is called only after that, and only
when the scan was clean; a blocked payload leaves with its attestation and
nothing more. `send_cases` says so for every way of ending.
-/
import PrivacyGateway.Outbound.Gateway

namespace PrivacyGateway.Outbound

open Effect Ledger Llm

variable {unicode : Unicode} {σ : Type} {gateway : OutboundGateway unicode σ}
  {request : ProtectedChatRequest} {policy : PolicySnapshot}
  {invoke : Invoker σ} {l l' : Task σ}

/-- The acts of sending, up to the provider's answer. -/
def sendActs (policyVersion : Int) (request : ProtectedChatRequest)
    (attestation : Attestation) (providerAlias : Text) : List Event :=
  [.scanned policyVersion, .attested request attestation,
    .called providerAlias]

theorem silent_await_task {x α : Type} (work : Eff σ x α) :
    Silent (await work) :=
  Ledger.silent_await sharedStep work

/-- An attestation that was returned was written; one that was not was
not. -/
theorem attest_cases {r : Except Exn Attestation}
    (h : runIn (gateway.attest request policy) l = (r, l')) :
    (∃ attestation, r = .ok attestation ∧
      After l [.scanned policy.version, .attested request attestation]
        l') ∨
      ∃ e, r = .error e ∧
        (Quiet l l' ∨ After l [.scanned policy.version] l') := by
  unfold OutboundGateway.attest at h
  rcases (silent_checked _).bind_cases h with
    ⟨e, rfl, hquiet, -⟩ | ⟨payload, m, hstart, -, h⟩
  · exact Or.inr ⟨e, rfl, Or.inl hquiet⟩
  obtain ⟨m', hnote, h⟩ := note_bind_cases h
  have hscanned := hstart.after hnote
  rcases (silent_await_task _).bind_cases h with
    ⟨e, rfl, hquiet, -⟩ | ⟨scan, m, hscan, -, h⟩
  · exact Or.inr ⟨e, rfl, Or.inr (hscanned.quiet hquiet)⟩
  have hread := hscanned.quiet hscan
  rcases (silent_checked _).bind_cases h with
    ⟨e, rfl, hquiet, -⟩ | ⟨attestation, m, hdigest, -, h⟩
  · exact Or.inr ⟨e, rfl, Or.inr (hread.quiet hquiet)⟩
  obtain ⟨m', hattested, h⟩ := note_bind_cases h
  cases h
  exact Or.inl ⟨attestation, rfl, (hread.quiet hdigest).trans hattested⟩

/-- The provider that was called is the registry's for the request. -/
theorem transmit_cases {attestation : Attestation}
    {r : Except Exn Transmission}
    (hinvoke : ∀ adapter request, Silent (invoke adapter request))
    (h : runIn (gateway.transmit request attestation invoke) l = (r, l')) :
    (∃ transmission, r = .ok transmission ∧
      transmission.attestation = attestation ∧
      0 ≤ transmission.providerLatencyMs ∧
      After l [.called transmission.providerAlias] l') ∨
      ∃ e, r = .error e ∧
        (Quiet l l' ∨ ∃ providerAlias, After l [.called providerAlias] l') := by
  unfold OutboundGateway.transmit at h
  rcases (silent_checked _).bind_cases h with
    ⟨e, rfl, hquiet, -⟩ | ⟨adapter, m, hfound, -, h⟩
  · exact Or.inr ⟨e, rfl, Or.inl hquiet⟩
  obtain ⟨m', hstarted, -, h⟩ := clock_bind_cases h
  obtain ⟨m, hnote, h⟩ := note_bind_cases h
  have hcalled := (hfound.trans hstarted).after hnote
  rcases (hinvoke _ _).bind_cases h with
    ⟨e, rfl, hquiet, -⟩ | ⟨response, m, hanswered, -, h⟩
  · exact Or.inr ⟨e, rfl, Or.inr ⟨_, hcalled.quiet hquiet⟩⟩
  obtain ⟨m', hfinished, -, h⟩ := clock_bind_cases h
  cases h
  exact Or.inl ⟨_, rfl, rfl, le_max_right _ _,
    (hcalled.quiet hanswered).quiet hfinished⟩

/-- How sending ends. -/
inductive Sent (l l' : Task σ) (request : ProtectedChatRequest)
    (policyVersion : Int) : Except SendFailure Transmission → Prop
  /-- The payload was attested clean and the provider answered. -/
  | answered (transmission : Transmission)
      (clean : transmission.attestation.scan.isClean = true)
      (latency : 0 ≤ transmission.providerLatencyMs)
      (acts : After l (sendActs policyVersion request
        transmission.attestation transmission.providerAlias) l') :
      Sent l l' request policyVersion (.ok transmission)
  /-- The payload was attested, and the scan refused it. -/
  | blocked (attestation : Attestation)
      (found : attestation.scan.isClean = false)
      (acts : After l [.scanned policyVersion,
        .attested request attestation] l') :
      Sent l l' request policyVersion (.error (.blocked attestation))
  /-- The payload was attested clean, and no provider answered. -/
  | unanswered (e : Exn) (attestation : Attestation)
      (clean : attestation.scan.isClean = true) (after : List Event)
      (called : after = [] ∨ ∃ providerAlias,
        after = [.called providerAlias])
      (acts : After l (.scanned policyVersion ::
        .attested request attestation :: after) l') :
      Sent l l' request policyVersion (.error (.raised e))
  /-- There is no attestation. -/
  | unattested (e : Exn) (new : List Event)
      (scan : new = [] ∨ new = [.scanned policyVersion])
      (acts : After l new l') :
      Sent l l' request policyVersion (.error (.raised e))

theorem send_cases {r : Except SendFailure Transmission}
    (hinvoke : ∀ adapter request, Silent (invoke adapter request))
    (h : runIn (gateway.send request policy invoke) l = (r, l')) :
    Sent l l' request policy.version r := by
  unfold OutboundGateway.send at h
  rcases bind_cases h with ⟨e, rfl, hattest⟩ | ⟨attestation, u, hattest, h⟩
  · obtain ⟨e', hraised, rfl⟩ := translate_error_iff.mp hattest
    rcases attest_cases hraised with ⟨_, hr, -⟩ | ⟨_, -, hquiet | hscan⟩
    · cases hr
    · exact .unattested e' [] (Or.inl rfl) hquiet
    · exact .unattested e' _ (Or.inr rfl) hscan
  rcases attest_cases (translate_ok_iff.mp hattest) with
    ⟨_, hr, hacts⟩ | ⟨_, hr, -⟩
  swap
  · cases hr
  cases hr
  by_cases hclean : attestation.scan.isClean = false
  · rw [if_pos hclean] at h
    cases h
    exact .blocked attestation hclean hacts
  rw [if_neg hclean] at h
  have hclean : attestation.scan.isClean = true := by
    simpa using hclean
  cases r with
  | ok transmission =>
      rcases transmit_cases hinvoke (translate_ok_iff.mp h) with
        ⟨_, hr, rfl, hlatency, hcalled⟩ | ⟨_, hr, -⟩
      · cases hr
        exact .answered transmission hclean hlatency
          (hacts.trans hcalled)
      · cases hr
  | error e =>
      obtain ⟨e', hraised, rfl⟩ := translate_error_iff.mp h
      rcases transmit_cases hinvoke hraised with ⟨_, hr, -⟩ |
        ⟨_, -, hquiet | ⟨providerAlias, hcalled⟩⟩
      · cases hr
      · exact .unanswered e' attestation hclean [] (Or.inl rfl)
          (hacts.quiet hquiet)
      · exact .unanswered e' attestation hclean _
          (Or.inr ⟨providerAlias, rfl⟩) (hacts.trans hcalled)

end PrivacyGateway.Outbound
