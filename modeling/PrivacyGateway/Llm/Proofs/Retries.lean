/-
One request to the provider: how often it is sent, how it ends, and when.

`attemptLoop_run` follows the loop from any attempt on. The attempt that
ends it is `Retry.Decisive` for the replies, so a reply that may not be
repeated is final, and the last one allowed is final whatever it says.
Where the deadline passes first, the loop ends there, and every call it
made was made before it.
-/
import PrivacyGateway.Lib.Retry
import PrivacyGateway.Llm.OpenAIProvider

namespace PrivacyGateway.Llm

open Effect Retry

/-- The reply may be followed by another attempt. -/
def Reply.isRetried : Reply → Bool
  | .timeout => true
  | .connection => true
  | .status statusCode => isRetryableStatus statusCode
  | _ => false

namespace OpenAIProvider

variable (provider : OpenAIProvider) (endpoint : Endpoint)

/-- What a caller is answered when this reply ends the request. -/
def settle (modelId : Text) (attempt : Nat) :
    Reply → Except Exn ProviderResponse
  | .response raw => toProviderResponse raw modelId
  | .timeout => .error (provider.attemptTimeoutError attempt)
  | .connection => .error (provider.unavailableError attempt "connection")
  | .status statusCode =>
      .error (errorForStatus statusCode provider.providerAlias (attempt + 1))
  | .client => .error (provider.unavailableError attempt "client")

/-- When an attempt starts and ends, if the deadline does not pass. -/
def startsAt : Nat → Rat := startAt endpoint.seconds provider.pause
def endsAt : Nat → Rat := endAt endpoint.seconds provider.pause

theorem pause_nonneg (attempt : Nat) : 0 ≤ provider.pause attempt :=
  le_max_left ..

theorem startsAt_le_endsAt (n : Nat) :
    provider.startsAt endpoint n ≤ provider.endsAt endpoint n := by
  have hcost := endpoint.seconds_nonneg n
  unfold startsAt endsAt endAt
  linarith

theorem startsAt_mono {m n : Nat} (h : m ≤ n) :
    provider.startsAt endpoint m ≤ provider.startsAt endpoint n :=
  startAt_mono endpoint.seconds_nonneg (pause_nonneg provider) h

/-- An attempt is over, and its pause, before a later one starts. -/
theorem endsAt_le_startsAt {m n : Nat} (h : m < n) :
    provider.endsAt endpoint m ≤ provider.startsAt endpoint n := by
  have hnext : provider.startsAt endpoint (m + 1) =
      provider.endsAt endpoint m + provider.pause m := startAt_succ m
  have hpause := pause_nonneg provider m
  have hlater := startsAt_mono provider endpoint h
  linarith

theorem endsAt_mono {m n : Nat} (h : m ≤ n) :
    provider.endsAt endpoint m ≤ provider.endsAt endpoint n := by
  rcases Nat.eq_or_lt_of_le h with rfl | hlt
  · exact le_refl _
  · exact le_trans (endsAt_le_startsAt provider endpoint hlt)
      (startsAt_le_endsAt provider endpoint n)

variable {provider endpoint} {call : ResponsesCall}

-- ==================================================== waiting

/-- Time that ends before the deadline passes. -/
theorem spend_ok {deadline seconds : Rat} {s : Session}
    (h : s.clock + seconds < deadline) :
    runIn (spend deadline seconds) s =
      (.ok (), { s with clock := s.clock + seconds }) := by
  unfold spend
  rw [runIn_act, if_pos h]

/-- Time that does not is cut off at the deadline. -/
theorem spend_expired {deadline seconds : Rat} {s : Session}
    (h : deadline ≤ s.clock + seconds) :
    runIn (spend deadline seconds) s =
      (.error timeoutError,
        { s with clock := max s.clock deadline }) := by
  unfold spend
  rw [runIn_act, if_neg (not_lt.mpr h)]

/-- A call that ends before the deadline. -/
theorem sendOnce_ok {attempt : Nat} {s : Session}
    (h : s.clock + endpoint.seconds attempt < provider.deadline) :
    runIn (provider.sendOnce endpoint call attempt) s =
      (.ok (endpoint.reply attempt),
        ⟨s.clock + endpoint.seconds attempt, s.calls ++ [call]⟩) := by
  unfold sendOnce
  have hspend : runIn (spend provider.deadline (endpoint.seconds attempt))
      ⟨s.clock, s.calls ++ [call]⟩ =
        (.ok (), ⟨s.clock + endpoint.seconds attempt, s.calls ++ [call]⟩) :=
    spend_ok h
  rw [runIn_bind, runIn_act]
  simp only
  rw [runIn_bind, hspend]
  rfl

/-- A call that the deadline cuts short was made all the same. -/
theorem sendOnce_expired {attempt : Nat} {s : Session}
    (h : provider.deadline ≤ s.clock + endpoint.seconds attempt) :
    runIn (provider.sendOnce endpoint call attempt) s =
      (.error timeoutError,
        ⟨max s.clock provider.deadline, s.calls ++ [call]⟩) := by
  unfold sendOnce
  have hspend : runIn (spend provider.deadline (endpoint.seconds attempt))
      ⟨s.clock, s.calls ++ [call]⟩ =
        (.error timeoutError,
          ⟨max s.clock provider.deadline, s.calls ++ [call]⟩) :=
    spend_expired h
  rw [runIn_bind, runIn_act]
  simp only
  rw [runIn_bind, hspend]

-- ==================================================== one attempt

section Attempt

variable {attempt : Nat} {rest : List Nat} {last : Option Exn} {s : Session}

/-- What a round of the loop does with its reply. -/
theorem runIn_attemptLoop (htime : s.clock + endpoint.seconds attempt <
      provider.deadline) :
    runIn (provider.attemptLoop endpoint call last (attempt :: rest)) s =
      runIn (if (endpoint.reply attempt).isRetried then do
            provider.backOff attempt
            provider.attemptLoop endpoint call
              (match provider.settle call.model attempt
                  (endpoint.reply attempt) with
                | .error e => some e
                | .ok _ => none) rest
          else checked (provider.settle call.model attempt
            (endpoint.reply attempt)))
        ⟨s.clock + endpoint.seconds attempt, s.calls ++ [call]⟩ := by
  conv_lhs => unfold attemptLoop
  simp only
  rw [runIn_bind, sendOnce_ok htime]
  simp only
  cases endpoint.reply attempt with
  | response raw => rfl
  | timeout => rfl
  | connection => rfl
  | status statusCode =>
      have hsame : (Reply.status statusCode).isRetried =
          isRetryableStatus statusCode := rfl
      show runIn (if isRetryableStatus statusCode then _ else _) _ = _
      by_cases hretry : isRetryableStatus statusCode = true
      · rw [if_pos hretry, if_pos (hsame.trans hretry)]
        rfl
      · rw [if_neg hretry, if_neg (by rwa [hsame])]
        rfl
  | client => rfl

/-- A reply that is not repeated ends the loop. -/
theorem attemptLoop_final
    (htime : s.clock + endpoint.seconds attempt < provider.deadline)
    (hfinal : (endpoint.reply attempt).isRetried = false) :
    runIn (provider.attemptLoop endpoint call last (attempt :: rest)) s =
      (provider.settle call.model attempt (endpoint.reply attempt),
        ⟨s.clock + endpoint.seconds attempt, s.calls ++ [call]⟩) := by
  rw [runIn_attemptLoop htime, if_neg (by rw [hfinal]; decide)]
  rfl

/-- A reply that is repeated: a sleep, unless this was the last attempt,
and then the rest of the loop. -/
theorem attemptLoop_again
    (htime : s.clock + endpoint.seconds attempt < provider.deadline)
    (hagain : (endpoint.reply attempt).isRetried = true) :
    ∃ error, provider.settle call.model attempt (endpoint.reply attempt) =
        .error error ∧
      runIn (provider.attemptLoop endpoint call last (attempt :: rest)) s =
        runIn (do
            provider.backOff attempt
            provider.attemptLoop endpoint call (some error) rest)
          ⟨s.clock + endpoint.seconds attempt, s.calls ++ [call]⟩ := by
  rw [runIn_attemptLoop htime, if_pos hagain]
  generalize endpoint.reply attempt = reply at hagain ⊢
  cases reply with
  | response raw => cases hagain
  | timeout => exact ⟨_, rfl, rfl⟩
  | connection => exact ⟨_, rfl, rfl⟩
  | status statusCode => exact ⟨_, rfl, rfl⟩
  | client => cases hagain

/-- An attempt that the deadline cuts off is the last. -/
theorem attemptLoop_expired
    (htime : provider.deadline ≤ s.clock + endpoint.seconds attempt) :
    runIn (provider.attemptLoop endpoint call last (attempt :: rest)) s =
      (.error timeoutError,
        ⟨max s.clock provider.deadline, s.calls ++ [call]⟩) := by
  unfold attemptLoop
  simp only
  rw [runIn_bind, sendOnce_expired htime]

end Attempt

-- ==================================================== the loop

/-- The loop, from an attempt on: it ends with the decisive reply, or with
the deadline. -/
theorem attemptLoop_run {n : Nat} (hn : Decisive (fun k =>
      (endpoint.reply k).isRetried = true) provider.maxRetries n)
    {rounds : Nat} : ∀ {a : Nat} {last : Option Exn}, a ≤ n →
    a + rounds = provider.maxRetries + 1 →
    (provider.endsAt endpoint n < provider.deadline →
      runIn (provider.attemptLoop endpoint call last (List.range' a rounds))
          ⟨provider.startsAt endpoint a, List.replicate a call⟩ =
        (provider.settle call.model n (endpoint.reply n),
          ⟨provider.endsAt endpoint n, List.replicate (n + 1) call⟩)) ∧
    (provider.deadline ≤ provider.endsAt endpoint n →
      ∃ m, a ≤ m ∧ m ≤ n ∧
        (m = a ∨ provider.startsAt endpoint m < provider.deadline) ∧
        runIn (provider.attemptLoop endpoint call last
            (List.range' a rounds))
            ⟨provider.startsAt endpoint a, List.replicate a call⟩ =
          (.error timeoutError,
            ⟨max (provider.startsAt endpoint a) provider.deadline,
              List.replicate (m + 1) call⟩)) := by
  induction rounds with
  | zero =>
      intro a last ha hcount
      have := hn.within
      omega
  | succ rounds ih =>
      intro a last ha hcount
      have hcalls : List.replicate a call ++ [call] =
          List.replicate (a + 1) call := List.replicate_succ'.symm
      have hmono : provider.endsAt endpoint a ≤ provider.endsAt endpoint n :=
        endsAt_mono provider endpoint ha
      rw [List.range'_succ]
      by_cases hlate : provider.deadline ≤ provider.endsAt endpoint a
      · -- the deadline passes during this attempt
        refine ⟨fun htime => absurd (lt_of_le_of_lt hmono htime)
          (not_lt.mpr hlate), fun _ => ⟨a, le_refl a, ha, Or.inl rfl, ?_⟩⟩
        rw [← hcalls]
        exact attemptLoop_expired hlate
      · have htime : provider.endsAt endpoint a < provider.deadline :=
          not_le.mp hlate
        rcases Nat.eq_or_lt_of_le ha with rfl | hlt
        · -- this attempt is the decisive one
          refine ⟨fun _ => ?_, fun hdue => absurd hdue hlate⟩
          rw [← hcalls]
          cases hagain : (endpoint.reply a).isRetried with
          | false => exact attemptLoop_final htime hagain
          | true =>
              have hlast : a = provider.maxRetries :=
                hn.ends.resolve_right (not_not.mpr hagain)
              obtain ⟨error, hsettle, hrun⟩ := @attemptLoop_again provider
                endpoint call a (List.range' (a + 1) rounds) last
                ⟨provider.startsAt endpoint a, List.replicate a call⟩ htime
                hagain
              have hrest : List.range' (a + 1) rounds = [] := by
                rw [show rounds = 0 by omega]
                rfl
              refine hrun.trans ?_
              unfold backOff
              rw [hsettle, if_neg (by omega), hrest]
              rfl
        · -- it is repeated, after a pause
          have hagain := hn.repeated a hlt
          have hwithin := hn.within
          obtain ⟨error, -, hrun⟩ := @attemptLoop_again provider endpoint
            call a (List.range' (a + 1) rounds) last
            ⟨provider.startsAt endpoint a, List.replicate a call⟩ htime
            hagain
          simp only [hcalls] at hrun
          have hnext : provider.startsAt endpoint a + endpoint.seconds a +
              provider.pause a = provider.startsAt endpoint (a + 1) := rfl
          have hlater : provider.startsAt endpoint (a + 1) ≤
              provider.endsAt endpoint n :=
            le_trans (startsAt_mono provider endpoint hlt)
              (startsAt_le_endsAt provider endpoint n)
          have hclock : max (provider.startsAt endpoint a)
              provider.deadline = provider.deadline :=
            max_eq_right (le_trans (startsAt_le_endsAt provider endpoint a)
              (le_of_lt htime))
          have hsleeps : provider.backOff a =
              spend provider.deadline (provider.pause a) :=
            if_pos (by omega)
          rw [hrun, hsleeps, runIn_bind, hclock]
          by_cases hpause : provider.deadline ≤
              provider.startsAt endpoint (a + 1)
          · -- and the deadline passes during that
            refine ⟨fun hends => absurd (lt_of_le_of_lt hlater hends)
              (not_lt.mpr hpause), fun _ => ⟨a, le_refl a, ha, Or.inl rfl,
                ?_⟩⟩
            rw [spend_expired (by rw [hnext]; exact hpause)]
            have hover : max (provider.startsAt endpoint a +
                endpoint.seconds a) provider.deadline =
                  provider.deadline := max_eq_right (le_of_lt htime)
            simp only
            rw [hover]
          · have hin := not_le.mp hpause
            obtain ⟨hends, hexpires⟩ := @ih (a + 1) (some error) hlt
              (by omega)
            rw [spend_ok (by rw [hnext]; exact hin)]
            simp only [hnext]
            rw [max_eq_right (le_of_lt hin)] at hexpires
            refine ⟨hends, fun hdue => ?_⟩
            obtain ⟨m, ham, hmn, hm, hresult⟩ := hexpires hdue
            refine ⟨m, by omega, hmn, Or.inr ?_, hresult⟩
            rcases hm with rfl | hm
            · exact hin
            · exact hm

-- ==================================================== the deadline

/-- The sleeps of a request are the ones its deadline counts. -/
theorem pauses_eq (hbase : 0 ≤ provider.backoffBaseSeconds) (n : Nat) :
    pauses provider.pause n = ((List.range n).map fun attempt =>
      retryBackoffSeconds attempt provider.backoffBaseSeconds).sum := by
  induction n with
  | zero => rfl
  | succ n ih =>
      have hbackoff : 0 ≤ retryBackoffSeconds n
          provider.backoffBaseSeconds := by
        refine le_min (mul_nonneg hbase (pow_nonneg ?_ n)) ?_
        · decide +kernel
        · decide +kernel
      rw [pauses, ih, List.range_succ, List.map_append, List.sum_append,
        List.map_singleton, List.sum_singleton]
      unfold pause
      rw [max_eq_right hbackoff]

/-- Attempts that keep to the client's timeouts end before the deadline
that is derived from them. -/
theorem endsAt_lt_deadline (hnone : provider.deadlineSeconds = none)
    (hbase : 0 ≤ provider.backoffBaseSeconds)
    (hcost : ∀ k, endpoint.seconds k ≤
      provider.connectTimeoutSeconds + provider.readTimeoutSeconds)
    {n : Nat} (hn : n ≤ provider.maxRetries) :
    provider.endsAt endpoint n < provider.deadline := by
  have hbound := le_trans (endpoint.seconds_nonneg 0) (hcost 0)
  have hend : provider.endsAt endpoint n ≤ _ :=
    endAt_le hcost hbound (pause_nonneg provider) hn
  rw [pauses_eq hbase] at hend
  refine lt_of_le_of_lt hend ?_
  unfold deadline
  rw [hnone]
  unfold overallDeadlineSeconds deadlineSlackSeconds
  simp only
  push_cast
  linarith

-- ==================================================== a request

/-- A reply that cannot be read is refused with a public error. -/
theorem collectParts_gateway (items : List ItemContent) :
    ∀ {parts : List Text} {e : Exn}, collectParts parts items = .error e →
      ∃ error, e = .gateway error := by
  induction items with
  | nil =>
      intro parts e h
      cases h
  | cons item items ih =>
      intro parts e h
      cases item with
      | absent => exact ih h
      | parts found => exact ih h
      | unreadable =>
          cases h
          exact ⟨_, rfl⟩

/-- Whatever is wrong with a reply, the error is a public one. -/
theorem toProviderResponse_gateway {raw : RawResponse} {modelId : Text}
    {e : Exn} (h : toProviderResponse raw modelId = .error e) :
    ∃ error, e = .gateway error := by
  unfold toProviderResponse extractOutputText at h
  cases houtput : raw.output with
  | none =>
      rw [houtput] at h
      cases h
      exact ⟨_, rfl⟩
  | some items =>
      simp only [houtput] at h
      cases hparts : collectParts [] items with
      | error other =>
          rw [hparts] at h
          cases h
          exact collectParts_gateway items hparts
      | ok parts =>
          simp only [hparts] at h
          split at h
          · cases h
            exact ⟨_, rfl⟩
          · cases h

/-- The errors that end a request are the gateway's own. -/
theorem settle_gateway {modelId : Text} {attempt : Nat} {reply : Reply}
    {e : Exn}
    (h : provider.settle modelId attempt reply = .error e) :
    ∃ error, e = .gateway error := by
  cases reply with
  | response raw => exact toProviderResponse_gateway h
  | timeout =>
      cases h
      exact ⟨_, rfl⟩
  | connection =>
      cases h
      exact ⟨_, rfl⟩
  | status statusCode =>
      cases h
      unfold errorForStatus
      simp only
      split
      · exact ⟨_, rfl⟩
      · exact ⟨_, rfl⟩
  | client =>
      cases h
      exact ⟨_, rfl⟩

/-- How a request to the provider goes. An alias that is not in the catalog
is refused and nothing is sent. Otherwise one call is sent, the same each
time, until a reply that may not be repeated or the last attempt, and that
reply decides the answer; the next call only follows after its pause. The
deadline alone may cut this short, and then every call was begun before
it. It cannot where it is the derived one and every attempt keeps to the
client's timeouts. -/
theorem complete_outcome (provider : OpenAIProvider) (unicode : Unicode)
    (endpoint : Endpoint) (request : ProtectedChatRequest) :
    (∀ e, provider.models.resolve unicode request.modelAlias = .error e →
      runIn (provider.complete unicode endpoint request) .start =
        (.error e, .start)) ∧
    ∀ modelId, provider.models.resolve unicode request.modelAlias =
        .ok modelId →
      ∃ n, Decisive (fun k => (endpoint.reply k).isRetried = true)
          provider.maxRetries n ∧
        (provider.endsAt endpoint n < provider.deadline →
          runIn (provider.complete unicode endpoint request) .start =
            (provider.settle modelId n (endpoint.reply n),
              ⟨provider.endsAt endpoint n,
                List.replicate (n + 1) (callFor request modelId)⟩)) ∧
        (provider.deadline ≤ provider.endsAt endpoint n →
          ∃ m ≤ n, (m = 0 ∨ provider.startsAt endpoint m <
              provider.deadline) ∧
            runIn (provider.complete unicode endpoint request) .start =
              (.error (gatewayError .providerTimeout (provider.logContext
                  [("reason", .text "deadline".toList)])),
                ⟨max 0 provider.deadline,
                  List.replicate (m + 1) (callFor request modelId)⟩)) ∧
        (provider.deadlineSeconds = none → 0 ≤ provider.backoffBaseSeconds →
          (∀ k, endpoint.seconds k ≤ provider.connectTimeoutSeconds +
            provider.readTimeoutSeconds) →
          provider.endsAt endpoint n < provider.deadline) := by
  constructor
  · intro e hresolve
    unfold complete
    rw [hresolve, checked_bind_error]
  · intro modelId hresolve
    obtain ⟨n, hn⟩ := exists_decisive (fun k =>
      (endpoint.reply k).isRetried = true) provider.maxRetries
    obtain ⟨hends, hexpires⟩ := @attemptLoop_run provider endpoint
      (callFor request modelId) n hn (provider.maxRetries + 1) 0 none
      (Nat.zero_le n) (Nat.zero_add _)
    have hrun : runIn (provider.complete unicode endpoint request) .start =
        runIn (translate provider.onTimeout (provider.attemptLoop endpoint
          (callFor request modelId) none
          (List.range' 0 (provider.maxRetries + 1)))) .start := by
      unfold complete sendWithRetries
      rw [hresolve, checked_bind_ok, List.range_eq_range']
    refine ⟨n, hn, fun htime => ?_, fun hdue => ?_,
      fun hnone hbase hcost =>
        endsAt_lt_deadline hnone hbase hcost hn.within⟩
    · rw [hrun]
      cases hsettle : provider.settle modelId n (endpoint.reply n) with
      | ok response =>
          refine translate_ok_iff.mpr ?_
          rw [← hsettle]
          exact hends htime
      | error e =>
          obtain ⟨error, rfl⟩ := settle_gateway hsettle
          refine translate_error_iff.mpr ⟨.gateway error, ?_, ?_⟩
          · rw [← hsettle]
            exact hends htime
          · unfold onTimeout timeoutError
            rw [if_neg (by simp)]
    · obtain ⟨m, -, hmn, hm, hresult⟩ := hexpires hdue
      refine ⟨m, hmn, hm, ?_⟩
      rw [hrun]
      refine translate_error_iff.mpr ⟨timeoutError, hresult, ?_⟩
      unfold onTimeout
      rw [if_pos rfl]

end OpenAIProvider

end PrivacyGateway.Llm
