/-
What a chat request writes in the journal.

`run_cases` follows one request from its policy to its outcome, and
`invoke_ended` says how it ends. Up to restoration every failure is a
gateway error and gets the row of a refusal; a digest that overflows is no
gateway error, and its request ends without a row.
-/
import Mathlib.Algebra.Order.BigOperators.Group.List
import PrivacyGateway.Audit.Proofs.Endings
import PrivacyGateway.Pipeline.Service
import PrivacyGateway.Policy.Proofs.Service

namespace PrivacyGateway.Pipeline

open Audit Effect Ledger Outbound Tokenization

variable {unicode : Unicode} {σ : Type} {services : Services unicode σ}
  {attempt : PipelineAttempt} {request : ChatRequest}
  {snapshot : PolicySnapshot} {l l' : Task σ}

-- ==================================================== before sending

theorem silent_detectMessages (messages : List ChatMessage) :
    Silent (detectMessages services messages) := by
  induction messages with
  | nil => exact silent_pure []
  | cons message messages ih =>
      exact silent_bind (silent_translate (silent_await_task _))
        (fun _ => silent_bind ih (fun _ => silent_pure _))

theorem silent_protectRequest :
    Silent (protectRequest services request attempt snapshot) := by
  unfold protectRequest
  exact silent_bind (silent_checked _) (fun _ =>
    silent_bind (silent_detectMessages _) (fun _ =>
      silent_bind (silent_checked _) (fun _ =>
        silent_bind (silent_await_task _) (fun _ =>
          silent_bind (silent_checked _) (fun _ => silent_pure _)))))

theorem detectMessages_supported (messages : List ChatMessage) :
    ∀ {l : Task σ} {detections : List (List DetectedEntity)},
      runIn (detectMessages services messages) l = (.ok detections, l') →
        ∀ entities ∈ detections, ∀ e ∈ entities,
          e.entityType ∈ Detection.supportedEntityTypes := by
  induction messages with
  | nil =>
      intro l detections h
      cases h
      exact fun entities hentities => nomatch hentities
  | cons message messages ih =>
      intro l detections h
      obtain ⟨entities, m, hdetect, h⟩ := bind_ok_iff.mp h
      obtain ⟨rest, n, hrest, h⟩ := bind_ok_iff.mp h
      cases h
      exact List.forall_mem_cons.mpr
        ⟨services.detect_supported (translate_ok_iff.mp hdetect), ih hrest⟩

theorem tokenizeMessages_counts {P : Text → Prop} {hashes : Hashes}
    {fingerprinter : Fingerprinter} {vault : VaultLike σ}
    {tenantId sessionId : UUID} {policy : PolicySnapshot}
    (messages : List ChatMessage) :
    ∀ {detections : List (List DetectedEntity)} {summary : PrivacySummary}
      {s t : σ} {out : List ChatMessage × PrivacySummary},
      (∀ entities ∈ detections, ∀ e ∈ entities, P e.entityType) →
      summary.Counts P →
      runIn (tokenizeMessages unicode hashes fingerprinter vault tenantId
        sessionId policy summary messages detections) s = (.ok out, t) →
      out.2.Counts P := by
  induction messages with
  | nil =>
      intro detections summary s t out _ hsummary h
      cases detections with
      | nil =>
          cases h
          exact hsummary
      | cons entities detections => cases h
  | cons message messages ih =>
      intro detections summary s t out hdetections hsummary h
      cases detections with
      | nil => cases h
      | cons entities detections =>
          obtain ⟨hfirst, hrest⟩ := List.forall_mem_cons.mp hdetections
          obtain ⟨transformed, u, htransform, h⟩ := bind_ok_iff.mp h
          obtain ⟨rest, v, htail, h⟩ := bind_ok_iff.mp h
          cases h
          have hown := transform_counts hfirst
            (translate_ok_iff.mp htransform)
          have hcounts := ih hrest (hsummary.mergedWith hown) htail
          exact hcounts

theorem protectRequest_supported
    {protectedChat : ProtectedChatRequest × PrivacySummary}
    (h : runIn (protectRequest services request attempt snapshot) l =
      (.ok protectedChat, l')) : TypesSupported protectedChat.2 := by
  unfold protectRequest at h
  obtain ⟨_, -, h⟩ := checked_bind_ok_iff.mp h
  obtain ⟨detections, m, hdetect, h⟩ := bind_ok_iff.mp h
  obtain ⟨_, -, h⟩ := checked_bind_ok_iff.mp h
  obtain ⟨messages, n, htokenize, h⟩ := bind_ok_iff.mp h
  obtain ⟨_, -, h⟩ := checked_bind_ok_iff.mp h
  cases h
  obtain ⟨w, hw⟩ := await_ok htokenize
  exact tokenizeMessages_counts _ (detectMessages_supported _ hdetect)
    PrivacySummary.counts_empty hw

theorem silent_complete (adapter : Llm.LLMProvider σ)
    (protectedChat : ProtectedChatRequest) :
    Silent (complete adapter protectedChat) :=
  silent_bind (silent_translate (silent_await_task _))
    (fun _ => silent_checked _)

-- ==================================================== after sending

/-- Restoration returns and says so, or raises a gateway error. -/
theorem restoreStage_cases {response : ProviderResponse}
    {r : Except Exn Restoration.RestoredOutput}
    (h : runIn (restoreStage services attempt snapshot response) l =
      (r, l')) :
    (∃ restored, r = .ok restored ∧ restored.summary.entityTypes = [] ∧
      After l [.restored snapshot.version restored.text] l') ∨
      ∃ error, r = .error (.gateway error) ∧ Quiet l l' := by
  unfold restoreStage at h
  rcases (silent_translate (silent_await_task _)).bind_cases h with
    ⟨e, rfl, hquiet, hrun⟩ | ⟨restored, m, hquiet, hrun, h⟩
  · obtain ⟨error, rfl⟩ := runStage_raises _ _ _ l e l' hrun
    exact Or.inr ⟨error, rfl, hquiet⟩
  obtain ⟨w, hw⟩ := await_ok (translate_ok_iff.mp hrun)
  obtain ⟨n, hnote, h⟩ := note_bind_cases h
  cases h
  exact Or.inl ⟨restored, rfl,
    Restoration.OutputPipeline.restore_counts hw, hquiet.after hnote⟩

/-- What is left once the provider answered: an outcome for the
attestation, a gateway error, or a digest that overflows. -/
theorem conclude_cases {summary : PrivacySummary}
    {transmission : Transmission} {r : Except Exn Completed}
    (hsummary : TypesSupported summary)
    (hlatency : 0 ≤ transmission.providerLatencyMs)
    (h : runIn (conclude services request attempt snapshot summary
      transmission) l = (r, l')) :
    (∃ completed text, r = .ok completed ∧ completed.outcome.Sound ∧
      completed.outcome.outboundHmac =
        some transmission.attestation.payloadHmac ∧
      completed.outcome.outboundScan =
        some transmission.attestation.verdict ∧
      CorrelationHasher.Prefixes (encodeUtf8 text) ∧
      After l [.restored snapshot.version text] l') ∨
    (∃ error, r = .error (.gateway error) ∧ Quiet l l') ∨
    ∃ text, r = .error overflowError ∧
      ¬ CorrelationHasher.Prefixes (encodeUtf8 text) ∧
      After l [.restored snapshot.version text] l' := by
  unfold conclude at h
  rcases bind_cases h with ⟨e, rfl, hrestore⟩ | ⟨restored, m, hrestore, h⟩
  · rcases restoreStage_cases hrestore with ⟨_, hr, -⟩ | ⟨error, hr, hquiet⟩
    · cases hr
    · cases hr
      exact Or.inr (Or.inl ⟨error, rfl, hquiet⟩)
  rcases restoreStage_cases hrestore with ⟨_, hr, htypes, hafter⟩ | ⟨_, hr, -⟩
  swap
  · cases hr
  cases hr
  obtain ⟨n, hclock, -, h⟩ := clock_bind_cases h
  cases hdigest : services.outbound.responseDigest
      attempt.principal.tenantId restored.text with
  | error e =>
      rw [hdigest, checked_bind_error] at h
      cases h
      refine Or.inr (Or.inr ⟨restored.text, ?_, ?_, hafter.quiet hclock⟩)
      · unfold OutboundGateway.responseDigest
          CorrelationHasher.responseDigest CorrelationHasher.digest at hdigest
        split at hdigest
        · cases hdigest
        · cases hdigest
          rfl
      · intro hprefix
        obtain ⟨d, hd⟩ := (CorrelationHasher.responseDigest_isOk_iff
          services.outbound.hasher services.outbound.hashes
          attempt.principal.tenantId).mpr hprefix
        rw [OutboundGateway.responseDigest, hd] at hdigest
        cases hdigest
  | ok digest =>
      rw [hdigest, checked_bind_ok] at h
      cases h
      refine Or.inl ⟨_, restored.text, rfl, ?_, rfl, rfl,
        (CorrelationHasher.responseDigest_isOk_iff _ _ _).mp
          ⟨digest, hdigest⟩, hafter.quiet hclock⟩
      exact
        { status := ⟨show (100 : Int) ≤ 200 by decide,
            show (200 : Int) ≤ 599 by decide⟩
          types := hsummary.mergedWith_nil htypes
          input := by
            apply List.sum_nonneg
            intro n hn
            obtain ⟨message, -, rfl⟩ := List.mem_map.mp hn
            exact Int.natCast_nonneg _
          output := Int.natCast_nonneg _
          providerLatency := present_some.mpr hlatency
          pipelineLatency := present_some.mpr (attempt.elapsedMs_nonneg _)
          error := present_none
          scan := present_some.mpr (matchesCode_verdict _) }

-- ==================================================== the run

/-- How the stages after the policy end. -/
inductive Ran (snapshot : PolicySnapshot) (l l' : Task σ) :
    Except Exn Completed → Prop
  | finished (completed : Completed) (protectedChat : ProtectedChatRequest)
      (attestation : Attestation) (providerAlias text : Text)
      (sound : completed.outcome.Sound)
      (hmac : completed.outcome.outboundHmac =
        some attestation.payloadHmac)
      (scan : completed.outcome.outboundScan = some attestation.verdict)
      (digestible : CorrelationHasher.Prefixes (encodeUtf8 text))
      (acts : After l (restoredActs snapshot.version protectedChat
        attestation providerAlias text) l') :
      Ran snapshot l l' (.ok completed)
  | failed (e : Exn) (acts : List Event)
      (stages : ∀ event ∈ acts, event.isStage = true)
      (undigested : ¬ RestoredDigestible acts) (after : After l acts l') :
      Ran snapshot l l' (.error e)

theorem run_cases {r : Except Exn Completed}
    (h : runIn (run services request attempt snapshot) l = (r, l')) :
    Ran snapshot l l' r := by
  unfold run at h
  rcases silent_protectRequest.bind_cases h with
    ⟨e, rfl, hquiet, -⟩ | ⟨protectedChat, m, hprotect, hrun, h⟩
  · exact .failed e [] (by simp) not_restoredDigestible_nil hquiet
  rcases bind_cases h with ⟨e, rfl, hsend⟩ | ⟨transmission, n, hsend, h⟩
  · obtain ⟨failure, hfailed, rfl⟩ := translate_error_iff.mp hsend
    cases send_cases silent_complete hfailed with
    | blocked attestation found acts =>
        refine .failed _ _ ?_ ?_ (hprotect.after acts)
        · simp [Event.isStage]
        · rw [restoredDigestible_cons (by simp),
            restoredDigestible_cons (by simp)]
          exact not_restoredDigestible_nil
    | unanswered e attestation clean after called acts =>
        refine .failed _ _ ?_ ?_ (hprotect.after acts)
        · rcases called with rfl | ⟨providerAlias, rfl⟩
          · simp [Event.isStage]
          · simp [Event.isStage]
        · rw [restoredDigestible_cons (by simp),
            restoredDigestible_cons (by simp)]
          rcases called with rfl | ⟨providerAlias, rfl⟩
          · exact not_restoredDigestible_nil
          · rw [restoredDigestible_cons (by simp)]
            exact not_restoredDigestible_nil
    | unattested e new scan acts =>
        refine .failed _ _ ?_ ?_ (hprotect.after acts)
        · rcases scan with rfl | rfl
          · simp
          · simp [Event.isStage]
        · rcases scan with rfl | rfl
          · exact not_restoredDigestible_nil
          · rw [restoredDigestible_cons (by simp)]
            exact not_restoredDigestible_nil
  cases send_cases silent_complete (translate_ok_iff.mp hsend) with
  | answered _ clean latency acts =>
      have hsent := hprotect.after acts
      rcases conclude_cases (protectRequest_supported hrun) latency h with
        ⟨completed, text, rfl, hsound, hmac, hscan, hprefix, hafter⟩ |
        ⟨error, rfl, hquiet⟩ | ⟨text, rfl, hprefix, hafter⟩
      · exact .finished completed protectedChat.1 transmission.attestation
          transmission.providerAlias text hsound hmac hscan hprefix
          (hsent.trans hafter)
      · refine .failed _ _ isStage_sendActs ?_ (hsent.quiet hquiet)
        rw [← List.append_nil (sendActs _ _ _ _),
          restoredDigestible_sendActs]
        exact not_restoredDigestible_nil
      · refine .failed _ _ ?_ ?_ (hsent.trans hafter)
        · exact List.forall_mem_append.mpr
            ⟨isStage_sendActs, by simp [Event.isStage]⟩
        · rw [restoredDigestible_sendActs, restoredDigestible_restored]
          exact hprefix

-- ==================================================== the request

/-- How the policy and the run under it end: with an outcome, or with an
error and the snapshot there was by then. -/
inductive Worked (l l' : Task σ) :
    Except (Option PolicySnapshot × Exn) (PolicySnapshot × Completed) →
      Prop
  | finished (snapshot : PolicySnapshot) (completed : Completed)
      (protectedChat : ProtectedChatRequest) (attestation : Attestation)
      (providerAlias text : Text) (version : 0 < snapshot.version)
      (sound : completed.outcome.Sound)
      (hmac : completed.outcome.outboundHmac =
        some attestation.payloadHmac)
      (scan : completed.outcome.outboundScan = some attestation.verdict)
      (digestible : CorrelationHasher.Prefixes (encodeUtf8 text))
      (acts : After l (.authorized snapshot.version ::
        restoredActs snapshot.version protectedChat attestation
          providerAlias text) l') :
      Worked l l' (.ok (snapshot, completed))
  | failed (snapshot : Option PolicySnapshot) (e : Exn)
      (acts : List Event) (version : ∀ s ∈ snapshot, 0 < s.version)
      (stages : ∀ event ∈ acts, event.isStage = true)
      (undigested : ¬ RestoredDigestible acts) (after : After l acts l') :
      Worked l l' (.error (snapshot, e))

theorem resolveAndRun_cases
    {r : Except (Option PolicySnapshot × Exn) (PolicySnapshot × Completed)}
    (h : runIn (resolveAndRun services request attempt) l = (r, l')) :
    Worked l l' r := by
  unfold resolveAndRun at h
  rcases bind_cases h with ⟨e, rfl, hresolve⟩ | ⟨snapshot, m, hresolve, h⟩
  · obtain ⟨e', hfailed, rfl⟩ := translate_error_iff.mp hresolve
    obtain ⟨e'', hraised, -⟩ := translate_error_iff.mp hfailed
    rcases Policy.resolve_cases hraised with ⟨_, hr, -⟩ | ⟨_, -, hquiet⟩
    · cases hr
    · exact .failed none e' [] (fun s hs => nomatch hs) (by simp)
        not_restoredDigestible_nil hquiet
  have hresolved := translate_ok_iff.mp (translate_ok_iff.mp hresolve)
  rcases Policy.resolve_cases hresolved with
    ⟨_, hr, hauthorized, hcached⟩ | ⟨_, hr, -⟩
  swap
  · cases hr
  cases hr
  have hversion := Policy.version_positive_of_cached hcached
  rcases bind_cases h with ⟨e, rfl, hrun⟩ | ⟨completed, n, hrun, h⟩
  · obtain ⟨e', hfailed, rfl⟩ := translate_error_iff.mp hrun
    cases run_cases hfailed with
    | failed _ acts stages undigested after =>
        refine .failed (some snapshot) e' (.authorized _ :: acts) ?_ ?_ ?_
          (hauthorized.trans after)
        · intro s hs
          cases hs
          exact hversion
        · exact List.forall_mem_cons.mpr ⟨rfl, stages⟩
        · rw [restoredDigestible_authorized]
          exact undigested
  cases h
  cases run_cases (translate_ok_iff.mp hrun) with
  | finished _ protectedChat attestation providerAlias text sound hmac scan
      digestible acts =>
      exact .finished snapshot completed protectedChat attestation
        providerAlias text hversion sound hmac scan digestible
        (hauthorized.trans acts)

-- ==================================================== admission

theorem silent_freshId : Silent services.freshId :=
  silent_onWorld _

theorem silent_resolveSessionId (requested : Option UUID) :
    Silent (resolveSessionId services requested) := by
  cases requested with
  | none => exact silent_freshId
  | some id =>
      unfold resolveSessionId
      exact moves_ite (silent_throw _) (silent_pure _)

theorem silent_begin {principal : Principal} :
    Silent (begin services request principal) := by
  unfold begin
  exact silent_bind (silent_checked _) (fun _ =>
    silent_bind (silent_resolveSessionId _) (fun _ =>
      silent_bind (silent_readClock _) (fun _ =>
        silent_bind silent_freshId (fun _ =>
          silent_bind (silent_utcNow _) (fun _ => silent_pure _)))))

/-- An admitted request keeps its aliases, and its start names a time
zone. -/
theorem begin_ok {principal : Principal}
    (h : runIn (begin services request principal) l = (.ok attempt, l')) :
    attempt.providerAlias = request.provider ∧
      attempt.modelAlias = request.model ∧
      attempt.startedAt.aware = true := by
  unfold begin at h
  obtain ⟨_, -, h⟩ := checked_bind_ok_iff.mp h
  obtain ⟨_, _, -, h⟩ := bind_ok_iff.mp h
  obtain ⟨_, _, -, h⟩ := bind_ok_iff.mp h
  obtain ⟨_, _, -, h⟩ := bind_ok_iff.mp h
  obtain ⟨_, _, -, h⟩ := bind_ok_iff.mp h
  cases h
  exact ⟨rfl, rfl, rfl⟩

/-- A refusal ends with the row of the refusal, when it is a gateway
error. -/
theorem refuse_cases {snapshot : Option PolicySnapshot} {e : Exn}
    {r : Except Exn (PolicySnapshot × Completed)}
    (h : runIn (refuse services attempt (snapshot, e)) l = (r, l')) :
    (∃ e', r = .error e') ∧
      (Quiet l l' ∨ ∃ error elapsedMs digest, 0 ≤ elapsedMs ∧
        After l (rowEvents (rowFields attempt snapshot
          (failureOutcome error elapsedMs) digest)) l') := by
  unfold refuse at h
  cases e with
  | gateway error =>
      simp only at h
      have hrow : ∀ {r' : Except Exn Unit} {m : Task σ},
          runIn (recordFailure services attempt snapshot error) l =
            (r', m) →
          ∃ elapsedMs digest, 0 ≤ elapsedMs ∧
            After l (rowEvents (rowFields attempt snapshot
              (failureOutcome error elapsedMs) digest)) m := by
        intro r' m hrecord
        unfold recordFailure at hrecord
        obtain ⟨n, hclock, -, hrecord⟩ := clock_bind_cases hrecord
        obtain ⟨digest, hafter, -⟩ := recordOutcome_after hrecord
        exact ⟨_, digest, attempt.elapsedMs_nonneg _,
          hclock.after hafter⟩
      rcases bind_cases h with ⟨e', rfl, hrecord⟩ | ⟨_, m, hrecord, h⟩
      · obtain ⟨elapsedMs, digest, helapsed, hafter⟩ := hrow hrecord
        exact ⟨⟨e', rfl⟩, Or.inr ⟨error, elapsedMs, digest, helapsed,
          hafter⟩⟩
      · obtain ⟨elapsedMs, digest, helapsed, hafter⟩ := hrow hrecord
        cases h
        exact ⟨⟨_, rfl⟩, Or.inr ⟨error, elapsedMs, digest, helapsed,
          hafter⟩⟩
  | value message =>
      cases h
      exact ⟨⟨_, rfl⟩, Or.inl (quiet_refl l)⟩
  | assertion message =>
      cases h
      exact ⟨⟨_, rfl⟩, Or.inl (quiet_refl l)⟩
  | other typeName =>
      cases h
      exact ⟨⟨_, rfl⟩, Or.inl (quiet_refl l)⟩

/-- How a chat request ends. -/
theorem invoke_ended {principal : Principal} {r : Except Exn ChatResponse}
    (h : runIn (invoke services request principal) l = (r, l')) :
    ∃ events, After l events l' ∧
      Ended (AliasesAreCodes request.provider request.model) False
        (∃ response, r = .ok response) services.settings.auditFailClosed
        events := by
  unfold invoke at h
  rcases silent_begin.bind_cases h with
    ⟨e, rfl, hquiet, -⟩ | ⟨attempt, m, hbegin, hrun, h⟩
  · refine ⟨[], hquiet, .unrecorded [] (by simp)
      not_restoredDigestible_nil (fun h => h.elim) ?_⟩
    intro hanswered
    obtain ⟨response, hr⟩ := hanswered
    cases hr
  obtain ⟨hprovider, hmodel, haware⟩ := begin_ok hrun
  unfold AliasesAreCodes
  rw [← hprovider, ← hmodel]
  cases hwork : runIn (resolveAndRun services request attempt) m with
  | mk worked n =>
      cases resolveAndRun_cases hwork with
      | failed snapshot e acts version stages undigested after =>
          -- the handler ends in an error, with or without a row
          rw [runIn_bind, recover_of_error hwork] at h
          cases hrefuse : runIn (refuse services attempt (snapshot, e)) n with
          | mk refused q =>
              obtain ⟨⟨e', rfl⟩, hrow⟩ := refuse_cases hrefuse
              rw [hrefuse] at h
              cases h
              have hunanswered : ¬ ∃ response : ChatResponse,
                  (Except.error e' : Except Exn ChatResponse) =
                    .ok response := by
                intro hanswered
                obtain ⟨response, hr⟩ := hanswered
                cases hr
              rcases hrow with hquiet |
                ⟨error, elapsedMs, digest, helapsed, hafter⟩
              · exact ⟨acts, hbegin.after (after.quiet hquiet),
                  .unrecorded acts stages undigested (fun h => h.elim)
                    hunanswered⟩
              · exact ⟨_, hbegin.after (after.trans hafter),
                  .refused acts _ stages undigested
                    (rowFields_valid_iff digest
                      (failureOutcome_sound error helapsed) haware version)
                    rfl not_false hunanswered⟩
      | finished snapshot completed protectedChat attestation providerAlias
          text version sound hmac scan digestible acts =>
          rw [runIn_bind, recover_of_ok hwork] at h
          simp only at h
          have hstages : ∀ event ∈ (Event.authorized snapshot.version ::
              restoredActs snapshot.version protectedChat attestation
                providerAlias text), event.isStage = true := by
            simp [restoredActs, sendActs, Event.isStage]
          have honly : ∀ q other, Event.attested q other ∈
              (Event.authorized snapshot.version ::
                restoredActs snapshot.version protectedChat attestation
                  providerAlias text) → other = attestation := by
            intro q other hmem
            simp only [restoredActs, sendActs, List.cons_append,
              List.nil_append, List.mem_cons, List.not_mem_nil, reduceCtorEq,
              false_or, or_false, Event.attested.injEq] at hmem
            exact hmem.2
          have hreached : RestoredDigestible
              (Event.authorized snapshot.version ::
                restoredActs snapshot.version protectedChat attestation
                  providerAlias text) := by
            rw [restoredDigestible_authorized, restoredActs,
              restoredDigestible_sendActs, restoredDigestible_restored]
            exact digestible
          have hended : ∀ {r : Except Exn ChatResponse} (digest : Digest),
              (services.settings.auditFailClosed = true →
                (∃ response, r = .ok response) →
                (rowFields attempt (some snapshot) completed.outcome
                  digest).Valid) →
              Ended _ False (∃ response, r = .ok response)
                services.settings.auditFailClosed _ :=
            fun digest hclosed => .recorded _ _ attestation hstages honly
              (rowFields_valid_iff digest sound haware (by
                intro s hs
                cases hs
                exact version))
              (by
                show completed.outcome.outboundHmac.map Digest.text = _
                rw [hmac]
                rfl)
              scan (Or.inl hreached) hclosed
          rcases bind_cases h with ⟨e, rfl, hrecord⟩ | ⟨_, q, hrecord, h⟩
          · obtain ⟨digest, hafter, -⟩ := recordOutcome_after hrecord
            refine ⟨_, hbegin.after (acts.trans hafter),
              hended digest ?_⟩
            intro _ hanswered
            obtain ⟨response, hr⟩ := hanswered
            cases hr
          · obtain ⟨digest, hafter, hvalid⟩ := recordOutcome_after hrecord
            cases h
            exact ⟨_, hbegin.after (acts.trans hafter),
              hended digest (fun hclosed _ => hvalid hclosed rfl)⟩

end PrivacyGateway.Pipeline
