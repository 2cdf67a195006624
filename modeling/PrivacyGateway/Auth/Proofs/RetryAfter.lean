/-
What an advertised delay promises.

A denial is `EXEC` of an evaluation that nothing disturbed, so what it read
still stands (`Tally`, `Denial`): nothing was recorded since it read the
clock, and the delay it tells is until the oldest member of the first full
bucket leaves its window. That bucket has room again then, since it held no
more than its limit. The other bucket is not asked. A denial by the
tenant's comes after the key's had room; but a denial by the key's says
nothing about the tenant's, which may be full for longer
(`retry_after_iff`).
-/
import PrivacyGateway.Auth.Proofs.Evaluation

namespace PrivacyGateway.Auth

open SlidingWindow

variable {ι : Type} {limiter : RedisRateLimiter}

-- ==================================================== sets without repetition

/-- A member is in a set once. -/
def Unrepeated (store : RateStore ι) : Prop :=
  ∀ key, ((store.members key).map LogMember.member).Nodup

namespace Unrepeated

variable {store : RateStore ι}

theorem of_sublist {other : RateStore ι} (h : Unrepeated store)
    (hsub : ∀ key, (other.members key).Sublist (store.members key)) :
    Unrepeated other :=
  fun key => (h key).sublist ((hsub key).map _)

theorem evicts (h : Unrepeated store) (key : Text) (top : Int) :
    Unrepeated { store with
      keys := zremrangebyscore store.keys store.nowMs key top } := by
  apply h.of_sublist
  intro key'
  unfold RateStore.members membersAt
  rw [show (RateStore.nowMs { store with
    keys := zremrangebyscore store.keys store.nowMs key top }) =
      store.nowMs from rfl, peek_zremrangebyscore]
  by_cases hkey : key' = key
  · rw [if_pos hkey, hkey]
    cases store.keys.peek store.nowMs key with
    | none => exact List.Sublist.refl _
    | some set =>
        rw [Option.bind_some]
        split
        · rename_i kept hkept
          split at hkept
          · cases hkept
          · cases hkept
            exact List.filter_sublist
        · exact List.nil_sublist _
  · rw [if_neg hkey]

theorem passes (h : Unrepeated store) (seconds : ℚ≥0) :
    Unrepeated { store with now := store.now + seconds } := by
  have hle : store.nowMs ≤
      RateStore.nowMs { store with now := store.now + seconds } :=
    RateStore.nowMs_mono (le_add_of_nonneg_right seconds.2)
  apply h.of_sublist
  intro key
  unfold RateStore.members membersAt
  cases hlater : store.keys.peek
      (RateStore.nowMs { store with now := store.now + seconds }) key with
  | none => exact List.nil_sublist _
  | some set =>
      rw [((Keyspace.peek_later_iff hle).mp hlater).1]

theorem recordIn (h : Unrepeated store) (i : ι) (m : LogMember)
    (b : Bucket) : Unrepeated (store.recordIn i m b) := by
  intro key
  rw [RateStore.members_recordIn]
  split
  · unfold insertMember
    rw [List.map_append, List.map_singleton]
    refine List.nodup_append.mpr
      ⟨(h b.key).sublist (List.filter_sublist.map _), by simp, ?_⟩
    intro name hname other hother hsame
    obtain ⟨old, hold, rfl⟩ := List.mem_map.mp hname
    rw [List.mem_singleton.mp hother] at hsame
    exact of_decide_eq_true (List.mem_filter.mp hold).2 hsame
  · exact h key

theorem record (i : ι) (m : LogMember) (bs : List Bucket) :
    ∀ {store : RateStore ι}, Unrepeated store →
      Unrepeated (store.record i m bs) := by
  induction bs with
  | nil => exact fun h => h
  | cons b bs ih => exact fun h => ih (h.recordIn i m b)

theorem step (h : Unrepeated store) (call : AcquireCall) (i : ι) :
    Unrepeated (call.step limiter i store).2 := by
  unfold AcquireCall.step
  split
  · exact h
  · exact h
  · exact h.evicts _ _
  · simp only
    split
    · exact h
    · exact h
  · exact h
  · simp only
    unfold Round.commit
    split
    · split
      · exact h
      · exact h
    · split
      · exact h
      · split
        · exact Unrepeated.record i _ _ h
        · exact h
  · exact h

end Unrepeated

-- ==================================================== the last window

section Window

variable {store : RateStore ι} {p : Principal} {b : Bucket} {read : Nat}

/-- A set that lacks nothing later than a window before `read` holds what
was recorded since. -/
theorem liveAt_perm (hkept : Kept limiter store)
    (hunrepeated : Unrepeated store)
    (hpresent : ∀ a ∈ store.admitted, a.key = b.key →
      store.PresentOr b read a) :
    (store.liveAt b read).Perm ((store.recordedIn b.key).filter
      (fun t => decide (read < t + b.rule.windowMs))) := by
  have hmembers : ((store.members b.key).filter
      (fun m => decide (read < m.score + b.rule.windowMs))).Perm
      ((store.admitted.filter (fun a => decide (a.key = b.key ∧
        read < a.recorded + b.rule.windowMs))).map
          (fun a => LogMember.mk a.member a.recorded)) := by
    refine (List.perm_ext_iff_of_nodup
      ((List.Nodup.of_map _ (hunrepeated b.key)).filter _)
      hkept.logged_nodup).mpr (fun m => ?_)
    constructor
    · intro hm
      obtain ⟨hm, hlive⟩ := List.mem_filter.mp hm
      have hlive := of_decide_eq_true hlive
      obtain ⟨a, ha, hkey, hmember, hrecorded⟩ := hkept.admitted b.key m hm
      rw [← hrecorded] at hlive
      refine List.mem_map.mpr ⟨a,
        List.mem_filter.mpr ⟨ha, decide_eq_true ⟨hkey, hlive⟩⟩, ?_⟩
      rw [hmember, hrecorded]
    · intro hm
      obtain ⟨a, ha, rfl⟩ := List.mem_map.mp hm
      obtain ⟨ha, hpick⟩ := List.mem_filter.mp ha
      obtain ⟨hkey, hlive⟩ := of_decide_eq_true hpick
      rcases hpresent a ha hkey with hmem | hold
      · exact List.mem_filter.mpr ⟨hmem, decide_eq_true hlive⟩
      · omega
  have hscores := hmembers.map LogMember.score
  unfold RateStore.liveAt RateStore.recordedIn
  rw [List.filter_map, List.filter_map, List.filter_filter]
  rw [List.map_map] at hscores
  have hsplit : ∀ a ∈ store.admitted,
      (((fun t => decide (read < t + b.rule.windowMs)) ∘
        Admission.recorded) a && decide (a.key = b.key)) =
      decide (a.key = b.key ∧ read < a.recorded + b.rule.windowMs) := by
    intro a _
    simp [Bool.and_comm]
  rw [List.filter_congr hsplit]
  exact hscores

theorem length_liveAt (hkept : Kept limiter store)
    (hunrepeated : Unrepeated store)
    (hpresent : ∀ a ∈ store.admitted, a.key = b.key →
      store.PresentOr b read a) :
    (store.liveAt b read).length =
      recent b.rule.windowMs read (store.recordedIn b.key) := by
  rw [(liveAt_perm hkept hunrepeated hpresent).length_eq,
    ← List.countP_eq_length_filter]
  rfl

/-- A bucket's set counts the moments of the last window. -/
theorem length_live (hkept : Kept limiter store)
    (hunrepeated : Unrepeated store) (hb : b ∈ limiter.buckets p) :
    (store.live b).length =
      recent b.rule.windowMs store.nowMs (store.recordedIn b.key) :=
  length_liveAt hkept hunrepeated (hkept.present p b hb)

/-- The delay is within so many seconds when the oldest moment leaves the
window within them. -/
theorem retryAfter_le_iff {oldest nowMs : Nat} {rule : RateLimitRule}
    {seconds : Int} (hpos : 1 ≤ seconds) :
    retryAfter (some oldest) nowMs rule ≤ seconds ↔
      (oldest : Int) + rule.windowMs ≤ nowMs + 1000 * seconds := by
  show max 1 (ceilSeconds (oldest + rule.windowMs - nowMs)) ≤ seconds ↔ _
  unfold ceilSeconds
  omega

theorem one_le_retryAfter (oldest : Option Nat) (nowMs : Nat)
    (rule : RateLimitRule) : 1 ≤ retryAfter oldest nowMs rule := by
  cases oldest with
  | none =>
      have := rule.window_pos
      show (1 : Int) ≤ rule.windowSeconds
      omega
  | some oldest => exact le_max_left _ _

/-- A bucket that was full when it was read has room again so many seconds
later exactly when its own delay is no longer. -/
theorem room_iff (hkept : Kept limiter store)
    (hunrepeated : Unrepeated store) (hb : b ∈ limiter.buckets p)
    (hpresent : ∀ a ∈ store.admitted, a.key = b.key →
      store.PresentOr b read a)
    (hpast : ∀ a ∈ store.admitted, a.key = b.key → a.recorded ≤ read)
    {seconds : Nat} (hpos : 1 ≤ seconds)
    (hfull : b.rule.limit ≤ (store.liveAt b read).length) :
    recent b.rule.windowMs (read + 1000 * seconds)
        (store.recordedIn b.key) < b.rule.limit ↔
      retryAfter (store.liveAt b read).min? read b.rule ≤ seconds := by
  have hperm := liveAt_perm hkept hunrepeated hpresent
  cases holdest : (store.liveAt b read).min? with
  | none =>
      rw [List.min?_eq_none_iff.mp holdest] at hfull
      have := b.rule.limit_pos
      exact absurd hfull (by simp; omega)
  | some oldest =>
      obtain ⟨hmem, hmin⟩ := List.min?_eq_some_iff.mp holdest
      obtain ⟨hin, hlive⟩ := List.mem_filter.mp (hperm.mem_iff.mp hmem)
      rw [length_liveAt hkept hunrepeated hpresent] at hfull
      rw [retryAfter_le_iff (by omega)]
      have hbefore : ∀ t ∈ store.recordedIn b.key, t ≤ read := by
        intro t ht
        obtain ⟨a, ha, rfl⟩ := List.mem_map.mp ht
        obtain ⟨ha, hkey⟩ := List.mem_filter.mp ha
        exact hpast a ha (of_decide_eq_true hkey)
      have hfirst : ∀ t ∈ store.recordedIn b.key,
          read < t + b.rule.windowMs → oldest ≤ t := by
        intro t ht hrecent
        exact hmin t (hperm.mem_iff.mpr
          (List.mem_filter.mpr ⟨ht, decide_eq_true hrecent⟩))
      rw [(hkept.spread p b hb).room_iff hbefore hfull hin
        (of_decide_eq_true hlive) hfirst]
      omega

end Window

-- ==================================================== what a denial knows

/-- What an evaluation has found, while no watched key changes: nothing was
recorded since it read the clock, what it counted it had swept, and it
denied by the first bucket that is full. -/
structure Tally (limiter : RedisRateLimiter) (store : RateStore ι)
    (p : Principal) (round : Round) : Prop where
  past : ∀ b ∈ limiter.buckets p, ∀ a ∈ store.admitted, a.key = b.key →
    a.recorded ≤ round.nowMs
  swept : ∀ b ∈ round.counts.map Prod.fst,
    ∀ m ∈ store.members b.key, round.nowMs < m.score + b.rule.windowMs
  denied : round.denied =
    ((round.counts.map Prod.fst).find? (fun b =>
      decide (b.rule.limit ≤ (store.members b.key).length))).map
        (fun b => deny b ((store.members b.key).map LogMember.score).min?
          round.nowMs)

/-- And what it has found of the bucket it is at. -/
def AcquirePhase.Found (store : RateStore ι) : AcquirePhase → Prop
  | .counting round b _ =>
      ∀ m ∈ store.members b.key, round.nowMs < m.score + b.rule.windowMs
  | .ranging round b _ _ =>
      (∀ m ∈ store.members b.key,
        round.nowMs < m.score + b.rule.windowMs) ∧
      round.denied = none ∧ b.rule.limit ≤ (store.members b.key).length
  | _ => True

def Tallied (limiter : RedisRateLimiter) (store : RateStore ι)
    (call : AcquireCall) : Prop :=
  call.clean = true → ∀ round left,
    call.phase.reading = some (round, left) →
      Tally limiter store call.principal round ∧ call.phase.Found store

section Tallied

variable {store : RateStore ι} {p : Principal} {round : Round} {b : Bucket}

/-- One more bucket is counted. -/
theorem Tally.read (h : Tally limiter store p round)
    (hswept : ∀ m ∈ store.members b.key,
      round.nowMs < m.score + b.rule.windowMs) {denied : _}
    (hdenied : denied = round.denied.or
      (if b.rule.limit ≤ (store.members b.key).length then
        some (deny b ((store.members b.key).map LogMember.score).min?
          round.nowMs)
      else none)) (count : Nat) :
    Tally limiter store p
      { round with counts := round.counts ++ [(b, count)], denied } := by
  refine ⟨h.past, ?_, ?_⟩
  · intro c hc
    rw [List.map_append, List.mem_append] at hc
    rcases hc with hc | hc
    · exact h.swept c hc
    · cases List.mem_singleton.mp hc
      exact hswept
  · show denied = _
    rw [hdenied, h.denied, List.map_append, List.find?_append]
    cases (round.counts.map Prod.fst).find? (fun b =>
        decide (b.rule.limit ≤ (store.members b.key).length)) with
    | some c => rfl
    | none =>
        by_cases hfull : b.rule.limit ≤ (store.members b.key).length
        · simp [hfull]
        · simp [hfull]

/-- What is found goes by what is under the watched keys. -/
theorem Tally.frame {after : RateStore ι} (h : Tally limiter store p round)
    (hprogress : Progress store after)
    (hcovers : ∀ b ∈ round.counts.map Prod.fst, b ∈ limiter.buckets p)
    (hpeek : ∀ b ∈ limiter.buckets p, store.peek b.key = after.peek b.key) :
    Tally limiter after p round := by
  have hmembers : ∀ b ∈ limiter.buckets p,
      after.members b.key = store.members b.key :=
    fun b hb => (RateStore.members_eq (hpeek b hb)).symm
  refine ⟨?_, ?_, ?_⟩
  · intro b hb a ha hkey
    rcases hprogress.added a ha with hold | hchanged
    · exact h.past b hb a hold hkey
    · rw [hkey] at hchanged
      exact absurd (hpeek b hb) hchanged
  · intro b hb
    rw [hmembers b (hcovers b hb)]
    exact h.swept b hb
  · rw [h.denied]
    revert hcovers
    generalize round.counts.map Prod.fst = bs
    intro hcovers
    induction bs with
    | nil => rfl
    | cons b bs ih =>
        rw [List.find?_cons, List.find?_cons,
          hmembers b (hcovers b List.mem_cons_self)]
        split
        · rw [Option.map_some, Option.map_some,
            hmembers b (hcovers b List.mem_cons_self)]
        · exact ih (fun c hc => hcovers c (List.mem_cons_of_mem _ hc))

variable {call : AcquireCall}

theorem AcquirePhase.Found.frame {phase : AcquirePhase}
    {after : RateStore ι} {left : List Bucket} (h : phase.Found store)
    (hreading : phase.reading = some (round, left))
    (hmembers : ∀ b ∈ left, after.members b.key = store.members b.key) :
    phase.Found after := by
  cases phase with
  | counting round b left =>
      cases hreading
      have hb := hmembers b List.mem_cons_self
      show ∀ m ∈ after.members b.key, _
      rw [hb]
      exact h
  | ranging round b left count =>
      cases hreading
      have hb := hmembers b List.mem_cons_self
      show (∀ m ∈ after.members b.key, _) ∧ _ ∧ _
      rw [hb]
      exact h
  | _ => trivial

/-- A call that learns of what changed has found what it found. -/
theorem Tallied.notice {before after : RateStore ι}
    (h : Tallied limiter before call) (hsound : CallSound limiter before call)
    (hprogress : Progress before after) :
    Tallied limiter after (call.notice limiter before after) := by
  intro hnoticed round left hreading
  have hclean : call.clean = true ∧ ∀ b ∈ limiter.buckets call.principal,
      before.peek b.key = after.peek b.key := by
    simpa [AcquireCall.notice] using hnoticed
  obtain ⟨hclean, hpeek⟩ := hclean
  obtain ⟨htally, hfound⟩ := h hclean round left hreading
  have hcovers := (hsound round left hreading).covers
  refine ⟨htally.frame hprogress ?_ hpeek, hfound.frame hreading ?_⟩
  · intro b hb
    rw [← hcovers]
    exact List.mem_append_left _ hb
  · intro b hb
    refine (RateStore.members_eq (hpeek b ?_)).symm
    rw [← hcovers]
    exact List.mem_append_right _ hb

/-- A command that leaves the store as it is. -/
theorem Tallied.step (h : Tallied limiter store call)
    (hkept : Kept limiter store) (i : ι)
    (hphase : ∀ round b left, call.phase ≠ .evicting round b left) :
    Tallied limiter store (call.step limiter i store).1 := by
  unfold AcquireCall.step
  cases hcase : call.phase with
  | idle =>
      intro _ round left hreading
      cases hreading
  | watching =>
      intro _ round left hreading
      simp only [reading_next] at hreading
      cases hreading
      refine ⟨⟨?_, fun b hb => (nomatch hb), rfl⟩, trivial⟩
      exact fun b _ a ha _ => hkept.recorded_le a ha
  | evicting round b left => exact absurd hcase (hphase round b left)
  | counting now b rest =>
      simp only
      split
      · rename_i hfull
        intro hclean round left hreading
        cases hreading
        obtain ⟨htally, hswept⟩ := h hclean now (b :: rest)
          (by rw [hcase]; rfl)
        rw [hcase] at hswept
        exact ⟨htally, hswept, hfull⟩
      · rename_i hfull
        intro hclean round left hreading
        simp only [reading_next] at hreading
        cases hreading
        obtain ⟨htally, hswept⟩ := h hclean now (b :: rest)
          (by rw [hcase]; rfl)
        rw [hcase] at hswept
        refine ⟨htally.read hswept ?_ _, ?_⟩
        · cases hdenied : now.denied with
          | some decision => rfl
          | none =>
              have hroom : ¬ b.rule.limit ≤
                  (store.members b.key).length :=
                fun hle => hfull ⟨hdenied, hle⟩
              rw [if_neg hroom]
              rfl
        · cases rest with
          | nil => trivial
          | cons c rest => trivial
  | ranging now b rest count =>
      intro hclean round left hreading
      simp only [reading_next] at hreading
      cases hreading
      obtain ⟨htally, hfound⟩ := h hclean now (b :: rest)
        (by rw [hcase]; rfl)
      rw [hcase] at hfound
      obtain ⟨hswept, hnone, hfull⟩ := hfound
      refine ⟨htally.read hswept ?_ _, ?_⟩
      · rw [hnone, if_pos hfull]
        rfl
      · cases rest with
        | nil => trivial
        | cons c rest => trivial
  | committing now =>
      intro _ round left hreading
      simp only [reading_commit] at hreading
      cases hreading
  | done outcome =>
      intro _ round left hreading
      rw [hcase] at hreading
      cases hreading

/-- What the eviction left is in the window. -/
theorem Tallied.evicts {left : List Bucket}
    (h : Tallied limiter store call)
    (hsound : CallSound limiter store call) (i : ι)
    (hphase : call.phase = .evicting round b left) :
    Tallied limiter (call.step limiter i store).2
      ((call.step limiter i store).1.notice limiter store
        (call.step limiter i store).2) := by
  unfold AcquireCall.step
  simp only [hphase]
  have hreading : call.phase.reading = some (round, b :: left) := by
    rw [hphase]
    rfl
  intro hnoticed other rest hother
  cases hother
  have hclean : call.clean = true ∧ ∀ c ∈ limiter.buckets call.principal,
      store.peek c.key = RateStore.peek { store with
        keys := zremrangebyscore store.keys store.nowMs b.key
          (round.nowMs - b.rule.windowMs) } c.key := by
    simpa [AcquireCall.notice] using hnoticed
  obtain ⟨hclean, hpeek⟩ := hclean
  obtain ⟨htally, -⟩ := h hclean round _ hreading
  refine ⟨htally.frame ⟨le_refl _, fun _ ha => Or.inl ha⟩ ?_ hpeek, ?_⟩
  · intro c hc
    rw [← (hsound round _ hreading).covers]
    exact List.mem_append_left _ hc
  · intro m hm
    obtain ⟨set, hset, hmem⟩ := mem_membersAt.mp hm
    have hleft := hset
    rw [show (RateStore.nowMs { store with
      keys := zremrangebyscore store.keys store.nowMs b.key
        (round.nowMs - b.rule.windowMs) }) = store.nowMs from rfl,
      peek_zremrangebyscore, if_pos rfl] at hleft
    obtain ⟨old, -, hkept⟩ := Option.bind_eq_some_iff.mp hleft
    split at hkept
    · cases hkept
    · cases hkept
      have hrecent := of_decide_eq_true (List.mem_filter.mp hmem).2
      omega

/-- So every command leaves it. -/
theorem Tallied.runs (h : Tallied limiter store call)
    (hsound : CallSound limiter store call) (hkept : Kept limiter store)
    (i : ι) :
    Tallied limiter (call.step limiter i store).2
      ((call.step limiter i store).1.notice limiter store
        (call.step limiter i store).2) := by
  by_cases hevicting : ∃ round b left, call.phase = .evicting round b left
  · obtain ⟨round, b, left, hphase⟩ := hevicting
    exact h.evicts hsound i hphase
  · have hstep := h.step hkept i (fun round b left hphase =>
      hevicting ⟨round, b, left, hphase⟩)
    exact hstep.notice (hsound.step hkept i) (step_kept hsound hkept i).2

end Tallied

-- ==================================================== room after a denial

/-- What a denied call knows: nothing it watched changed since it read the
clock, and the delay it is told is that of the first bucket that is
full. -/
structure Denial (limiter : RedisRateLimiter) (store : RateStore ι)
    (p : Principal) (read : Nat) (decision : RateLimitDecision) : Prop where
  read_le : read ≤ store.nowMs
  past : ∀ b ∈ limiter.buckets p, ∀ a ∈ store.admitted, a.key = b.key →
    a.recorded ≤ read
  present : ∀ b ∈ limiter.buckets p, ∀ a ∈ store.admitted,
    a.key = b.key → store.PresentOr b read a
  swept : ∀ b ∈ limiter.buckets p,
    store.liveAt b read = (store.members b.key).map LogMember.score
  delay : ∃ b, (limiter.buckets p).find? (fun b =>
      decide (b.rule.limit ≤ (store.members b.key).length)) = some b ∧
    decision.retryAfterSeconds =
      retryAfter (store.liveAt b read).min? read b.rule

theorem nowMs_add {store later : RateStore ι} {seconds : Nat}
    (h : later.now = store.now + seconds) :
    later.nowMs = store.nowMs + 1000 * seconds := by
  unfold RateStore.nowMs
  rw [h, add_mul]
  have hcast : (seconds : ℚ≥0) * 1000 = ((1000 * seconds : Nat) : ℚ≥0) := by
    push_cast
    ring
  rw [hcast, Nat.floor_add_natCast]
  positivity

/-- Where both buckets are full, the tenant's delay is no longer than the
key's; the key's is the one told. The clock was read at `read`. -/
def RetrySuffices (limiter : RedisRateLimiter) (p : Principal) (read : Nat)
    (store : RateStore ι) : Prop :=
  (limiter.apiKeyBucket p).rule.limit ≤
      (store.members (limiter.apiKeyBucket p).key).length →
    (limiter.tenantBucket p).rule.limit ≤
      (store.live (limiter.tenantBucket p)).length →
    retryAfter (store.live (limiter.tenantBucket p)).min? store.nowMs
        (limiter.tenantBucket p).rule ≤
      retryAfter ((store.members (limiter.apiKeyBucket p).key).map
        LogMember.score).min? read (limiter.apiKeyBucket p).rule

section Room

variable {store later : RateStore ι} {p : Principal} {b : Bucket}
  {read seconds moment : Nat}

/-- A bucket has room later as it has room in the log. -/
theorem live_lt_iff (hlater : Kept limiter later)
    (hunrepeated : Unrepeated later) (hb : b ∈ limiter.buckets p)
    (hadmitted : later.admitted = store.admitted) :
    (later.live b).length < b.rule.limit ↔
      recent b.rule.windowMs later.nowMs (store.recordedIn b.key) <
        b.rule.limit := by
  rw [length_live hlater hunrepeated hb]
  unfold RateStore.recordedIn
  rw [hadmitted]

theorem forall_mem_buckets {P : Bucket → Prop} :
    (∀ b ∈ limiter.buckets p, P b) ↔
      P (limiter.apiKeyBucket p) ∧ P (limiter.tenantBucket p) := by
  simp [RedisRateLimiter.buckets]

namespace Denial

variable {decision : RateLimitDecision}

/-- The bucket that denied has room after the delay. -/
theorem room (h : Denial limiter store p read decision)
    (hkept : Kept limiter store) (hunrepeated : Unrepeated store)
    (hb : b ∈ limiter.buckets p)
    (hfull : b.rule.limit ≤ (store.members b.key).length)
    (hdelay : retryAfter (store.liveAt b read).min? read b.rule ≤ seconds)
    (hnow : read + 1000 * seconds ≤ moment) :
    recent b.rule.windowMs moment (store.recordedIn b.key) <
      b.rule.limit := by
  have hpos := one_le_retryAfter (store.liveAt b read).min? read b.rule
  have hlive : b.rule.limit ≤ (store.liveAt b read).length := by
    rw [h.swept b hb, List.length_map]
    exact hfull
  exact (recent_mono hnow).trans_lt
    ((room_iff hkept hunrepeated hb (h.present b hb) (h.past b hb)
      (by omega) hlive).mpr hdelay)

/-- A bucket that was not full when it was read has room still. -/
theorem room_still (h : Denial limiter store p read decision)
    (hkept : Kept limiter store) (hunrepeated : Unrepeated store)
    (hb : b ∈ limiter.buckets p)
    (hroom : (store.members b.key).length < b.rule.limit)
    (hnow : read ≤ moment) :
    recent b.rule.windowMs moment (store.recordedIn b.key) <
      b.rule.limit := by
  have hlive : (store.liveAt b read).length < b.rule.limit := by
    rw [h.swept b hb, List.length_map]
    exact hroom
  rw [length_liveAt hkept hunrepeated (h.present b hb)] at hlive
  exact (recent_mono hnow).trans_lt hlive

theorem one_le (h : Denial limiter store p read decision) :
    1 ≤ decision.retryAfterSeconds := by
  obtain ⟨b, -, hdelay⟩ := h.delay
  rw [hdelay]
  exact one_le_retryAfter _ _ _

/-- Both buckets have room after the delay exactly when the one that was
not asked has. -/
theorem rooms_iff (h : Denial limiter store p read decision)
    (hkept : Kept limiter store) (hunrepeated : Unrepeated store) :
    (∀ b ∈ limiter.buckets p, recent b.rule.windowMs
        (store.nowMs + 1000 * decision.retryAfterSeconds.toNat)
        (store.recordedIn b.key) < b.rule.limit) ↔
      RetrySuffices limiter p read store := by
  have hread := h.read_le
  have hpos := h.one_le
  have hseconds : (decision.retryAfterSeconds.toNat : Int) =
      decision.retryAfterSeconds := Int.toNat_of_nonneg (by omega)
  have hkeyIn : limiter.apiKeyBucket p ∈ limiter.buckets p :=
    List.mem_cons_self
  have htenantIn : limiter.tenantBucket p ∈ limiter.buckets p :=
    List.mem_cons_of_mem _ List.mem_cons_self
  obtain ⟨b, hfind, hdelay⟩ := h.delay
  have hfull := List.find?_some hfind
  simp only [decide_eq_true_eq] at hfull
  have hroom : recent b.rule.windowMs
      (store.nowMs + 1000 * decision.retryAfterSeconds.toNat)
      (store.recordedIn b.key) < b.rule.limit :=
    h.room hkept hunrepeated (List.mem_of_find?_eq_some hfind) hfull
      (hdelay.symm.trans hseconds.symm).le (by omega)
  rw [forall_mem_buckets]
  unfold RedisRateLimiter.buckets at hfind
  unfold RetrySuffices
  by_cases hkey : (limiter.apiKeyBucket p).rule.limit ≤
      (store.members (limiter.apiKeyBucket p).key).length
  · -- the key's bucket denied: the tenant's decides
    rw [List.find?_cons, decide_eq_true hkey] at hfind
    cases hfind
    rw [h.swept _ hkeyIn] at hdelay
    rw [← hdelay]
    by_cases htenant : (limiter.tenantBucket p).rule.limit ≤
        (store.live (limiter.tenantBucket p)).length
    · have hiff := room_iff hkept hunrepeated htenantIn
        (hkept.present p _ htenantIn)
        (fun a ha _ => hkept.recorded_le a ha)
        (by omega : 1 ≤ decision.retryAfterSeconds.toNat) htenant
      rw [hiff, hseconds]
      exact ⟨fun hrooms _ _ => hrooms.2,
        fun hsuffices => ⟨hroom, hsuffices hkey htenant⟩⟩
    · refine iff_of_true ⟨hroom, ?_⟩ (fun _ hfull => absurd hfull htenant)
      have hlive := Nat.lt_of_not_le htenant
      rw [length_live hkept hunrepeated htenantIn] at hlive
      exact (recent_mono (Nat.le_add_right _ _)).trans_lt hlive
  · -- the tenant's bucket denied: the key's had room
    rw [List.find?_cons, decide_eq_false hkey, List.find?_cons] at hfind
    simp only at hfind
    split at hfind
    · cases hfind
      exact iff_of_true ⟨h.room_still hkept hunrepeated hkeyIn
        (Nat.lt_of_not_le hkey) (by omega), hroom⟩
        (fun hfull => absurd hfull hkey)
    · cases hfind

end Denial

end Room

-- ==================================================== reached systems

theorem principal_step (call : AcquireCall) (i : ι) (store : RateStore ι) :
    (call.step limiter i store).1.principal = call.principal := by
  unfold AcquireCall.step
  split
  · rfl
  · rfl
  · rfl
  · simp only
    split
    · rfl
    · rfl
  · rfl
  · rfl
  · rfl

variable [DecidableEq ι]

/-- What holds of the system between events, repetition included. -/
structure Reached (limiter : RedisRateLimiter) (principals : ι → Principal)
    (system : RateSystem ι) : Prop where
  sound : SystemSound limiter system
  unrepeated : Unrepeated system.store
  tallied : ∀ i, Tallied limiter system.store (system.calls i)
  principal : ∀ i, (system.calls i).principal = principals i

theorem tallied_step {system : RateSystem ι}
    (hsound : SystemSound limiter system)
    (h : ∀ i, Tallied limiter system.store (system.calls i))
    (event : RateEvent ι) (j : ι) :
    Tallied limiter (system.step limiter event).store
      ((system.step limiter event).calls j) := by
  cases event with
  | passes seconds =>
      have hprogress : Progress system.store
          { system.store with now := system.store.now + seconds } :=
        ⟨RateStore.nowMs_mono (le_add_of_nonneg_right seconds.2),
          fun _ ha => Or.inl ha⟩
      exact (h j).notice (hsound.calls j) hprogress
  | runs i =>
      show Tallied limiter _
        (((system.act limiter (.runs i)).calls j).notice limiter _ _)
      by_cases hj : j = i
      · subst hj
        simp only [RateSystem.act, Function.update_self]
        exact (h j).runs (hsound.calls j) hsound.kept j
      · simp only [RateSystem.act, Function.update_of_ne hj]
        exact (h j).notice (hsound.calls j)
          (step_kept (hsound.calls i) hsound.kept i).2
  | fails i =>
      by_cases hj : j = i
      · subst hj
        intro _ round left hreading
        exfalso
        simp only [RateSystem.step, RateSystem.act, AcquireCall.notice,
          Function.update_self] at hreading
        unfold AcquireCall.fail at hreading
        split at hreading
        · rename_i hphase
          rw [hphase] at hreading
          cases hreading
        · cases hreading
      · show Tallied limiter _
          (((system.act limiter (.fails i)).calls j).notice limiter _ _)
        simp only [RateSystem.act, Function.update_of_ne hj]
        exact (h j).notice (hsound.calls j) (progress_refl system.store)

theorem Reached.step {principals : ι → Principal} {system : RateSystem ι}
    (h : Reached limiter principals system) (event : RateEvent ι) :
    Reached limiter principals (system.step limiter event) := by
  refine ⟨h.sound.step event, ?_, tallied_step h.sound h.tallied event, ?_⟩
  · cases event with
    | passes seconds => exact h.unrepeated.passes seconds
    | runs i => exact h.unrepeated.step _ i
    | fails i => exact h.unrepeated
  · intro j
    refine Eq.trans ?_ (h.principal j)
    show ((system.act limiter event).calls j).principal = _
    cases event with
    | passes seconds => rfl
    | runs i =>
        by_cases hj : j = i
        · subst hj
          simp only [RateSystem.act, Function.update_self]
          exact principal_step _ _ _
        · simp only [RateSystem.act, Function.update_of_ne hj]
    | fails i =>
        by_cases hj : j = i
        · subst hj
          simp only [RateSystem.act, Function.update_self]
          unfold AcquireCall.fail
          split
          · rfl
          · rfl
        · simp only [RateSystem.act, Function.update_of_ne hj]

theorem Reached.run {principals : ι → Principal} {system : RateSystem ι}
    (h : Reached limiter principals system) (events : List (RateEvent ι)) :
    Reached limiter principals
      (events.foldl (RateSystem.step limiter) system) := by
  have hstep : ∀ (system : RateSystem ι) (event : RateEvent ι),
      Reached limiter principals system →
        Reached limiter principals (system.step limiter event) :=
    fun _ event h => h.step event
  exact (Run.invariant hstep h events).last

theorem reached_start (now : ℚ≥0) (principals : ι → Principal) :
    Reached limiter principals (RateSystem.start now principals) :=
  ⟨systemSound_start now principals, fun _ => List.nodup_nil,
    fun _ _ _ _ hreading => (nomatch hreading), fun _ => rfl⟩

-- ==================================================== alone in the system

/-- The system after an acquisition that nothing interrupts. -/
def RateSystem.alone (limiter : RedisRateLimiter) (system : RateSystem ι)
    (i : ι) : RateSystem ι :=
  (List.replicate 18 (RateEvent.runs i)).foldl (RateSystem.step limiter)
    system

/-- The commands of one call are those of the call alone; the others only
learn of them. -/
theorem runs_eq_solo (i : ι) (k : Nat) (system : RateSystem ι) :
    let after := (List.replicate k (RateEvent.runs i)).foldl
      (RateSystem.step limiter) system
    (after.calls i, after.store) =
        (solo limiter i)^[k] (system.calls i, system.store) ∧
      ∀ j, j ≠ i → (after.calls j).phase = (system.calls j).phase := by
  induction k generalizing system with
  | zero => exact ⟨rfl, fun _ _ => rfl⟩
  | succ k ih =>
      intro after
      obtain ⟨hsolo, hothers⟩ := ih (system.step limiter (.runs i))
      have hone : ((system.step limiter (.runs i)).calls i,
          (system.step limiter (.runs i)).store) =
            solo limiter i (system.calls i, system.store) := by
        simp only [RateSystem.step, RateSystem.act, Function.update_self,
          solo]
      constructor
      · rw [Function.iterate_succ_apply, ← hone]
        exact hsolo
      · intro j hj
        refine (hothers j hj).trans ?_
        simp only [RateSystem.step, RateSystem.act, AcquireCall.notice,
          Function.update_of_ne hj]

/-- Alone, a call is told the verdict on the last window. -/
theorem alone_decides {system : RateSystem ι} {i : ι}
    (hidle : (system.calls i).phase = .idle) :
    Decides limiter (system.calls i).principal system.store
      (verdict limiter (system.calls i).principal
        (system.store.swept limiter (system.calls i).principal))
      ((system.alone limiter i).calls i, (system.alone limiter i).store) := by
  have hcall : system.calls i =
      ⟨(system.calls i).principal, .idle, (system.calls i).clean⟩ := by
    rw [← hidle]
  obtain ⟨s, ⟨k, hk, hreach⟩, hdecides⟩ := @solo_decides _ limiter i
    (system.calls i).principal (system.calls i).clean system.store
  have hdone : ∃ outcome, s.1.phase = .done outcome := by
    cases hdenied : (verdict limiter (system.calls i).principal
        (system.store.swept limiter (system.calls i).principal)).denied with
    | none => exact phase_of_admitted (hdecides.admitted hdenied)
    | some decision => exact ⟨_, (hdecides.denied decision hdenied).1⟩
  obtain ⟨outcome, houtcome⟩ := hdone
  have hruns := (@runs_eq_solo _ limiter _ i 18 system).1
  have hsplit : (18 : Nat) = (18 - k) + k := by omega
  rw [hcall, hsplit, Function.iterate_add_apply, hreach,
    solo_done houtcome] at hruns
  unfold RateSystem.alone
  rw [hsplit, hruns]
  exact hdecides

-- ==================================================== the promise

/-- A call that runs alone is admitted exactly when both buckets have
room. -/
theorem admitted_iff {principals : ι → Principal} {system : RateSystem ι}
    (h : Reached limiter principals system) {i : ι}
    (hidle : (system.calls i).phase = .idle) :
    ((system.alone limiter i).calls i).phase.admitted = true ↔
      ∀ b ∈ limiter.buckets (principals i),
        (system.store.live b).length < b.rule.limit := by
  have hdecides := @alone_decides _ limiter _ system i hidle
  rw [h.principal i] at hdecides
  have hdenied := @denied_verdict _ limiter system.store (principals i)
  cases hfind : (limiter.buckets (principals i)).find? (fun b =>
      decide (b.rule.limit ≤ (system.store.live b).length)) with
  | none =>
      rw [hfind] at hdenied
      refine iff_of_true (hdecides.admitted hdenied) (fun b hb => ?_)
      have hroom := List.find?_eq_none.mp hfind b hb
      simpa using hroom
  | some b =>
      rw [hfind] at hdenied
      refine iff_of_false ?_ (fun hroom => ?_)
      · rw [(hdecides.denied _ hdenied).1]
        exact Bool.false_ne_true
      · have hfull := List.find?_some hfind
        simp only [decide_eq_true_eq] at hfull
        have hlt := hroom b (List.mem_of_find?_eq_some hfind)
        omega

theorem denied_cases {system : RateSystem ι} {i : ι} {round : Round}
    (hphase : (system.calls i).phase = .committing round)
    {decision : RateLimitDecision}
    (hdone : ((system.step limiter (.runs i)).calls i).phase =
      .done (.ok decision)) (hnot : decision.allowed = false) :
    (system.step limiter (.runs i)).store = system.store ∧
      (system.calls i).clean = true ∧ round.denied = some decision := by
  have hstep : (system.step limiter (.runs i)).store =
        ((system.calls i).step limiter i system.store).2 ∧
      ((system.step limiter (.runs i)).calls i).phase =
        ((system.calls i).step limiter i system.store).1.phase := by
    simp only [RateSystem.step, RateSystem.act, AcquireCall.notice,
      Function.update_self, and_self]
  obtain ⟨hstore, hcall⟩ := hstep
  rw [hdone] at hcall
  unfold AcquireCall.step at hstore hcall
  rw [hphase] at hstore hcall
  simp only at hstore hcall
  unfold Round.commit at hstore hcall
  cases hdenied : round.denied with
  | none =>
      rw [hdenied] at hcall
      simp only at hcall
      split at hcall
      · cases hcall
      · rename_i allowed hallow
        split at hcall
        · cases hcall
          have hadmitted := allow_admitted hallow
          simp [AcquirePhase.admitted, hnot] at hadmitted
        · cases hcall
  | some denial =>
      rw [hdenied] at hstore hcall
      simp only at hstore hcall
      split at hcall
      · rename_i hclean
        cases hcall
        rw [if_pos hclean] at hstore
        exact ⟨hstore, hclean, rfl⟩
      · cases hcall

theorem Reached.denial {principals : ι → Principal} {system : RateSystem ι}
    (h : Reached limiter principals system) {i : ι} {round : Round}
    (hphase : (system.calls i).phase = .committing round)
    (hclean : (system.calls i).clean = true) {decision : RateLimitDecision}
    (hdenied : round.denied = some decision) :
    Denial limiter system.store (principals i) round.nowMs decision := by
  have hreading : (system.calls i).phase.reading = some (round, []) := by
    rw [hphase]
    rfl
  have hreads := h.sound.calls i round [] hreading
  obtain ⟨htally, -⟩ := h.tallied i hclean round [] hreading
  have hcovers := hreads.covers
  have hpresent := hreads.present hclean
  rw [List.append_nil, h.principal i] at hcovers
  rw [h.principal i] at htally hpresent
  have hswept : ∀ b ∈ limiter.buckets (principals i),
      system.store.liveAt b round.nowMs =
        (system.store.members b.key).map LogMember.score := by
    intro b hb
    rw [← hcovers] at hb
    apply List.filter_eq_self.mpr
    intro t ht
    obtain ⟨m, hm, rfl⟩ := List.mem_map.mp ht
    exact decide_eq_true (htally.swept b hb m hm)
  refine ⟨hreads.read_le, htally.past, hpresent, hswept, ?_⟩
  have hfirst := htally.denied
  rw [hdenied, hcovers] at hfirst
  obtain ⟨b, hfind, hdeny⟩ := Option.map_eq_some_iff.mp hfirst.symm
  refine ⟨b, hfind, ?_⟩
  rw [← hdeny, hswept b (List.mem_of_find?_eq_some hfind)]
  rfl

/-- The same principal, retrying as many seconds after a denial as it was
told to wait, is admitted whatever happened short of an admission, exactly
when the tenant's bucket is not full for longer than the key's. -/
theorem retry_after_iff (limiter : RedisRateLimiter) (now : ℚ≥0)
    (principals : ι → Principal) (events : List (RateEvent ι)) (i j : ι)
    (hsame : principals j = principals i) (system : RateSystem ι)
    (hsystem : system = events.foldl (RateSystem.step limiter)
      (RateSystem.start now principals))
    (round : Round) (hi : (system.calls i).phase = .committing round)
    (hj : (system.calls j).phase = .idle) (decision : RateLimitDecision)
    (hdone : ((system.step limiter (.runs i)).calls i).phase =
      .done (.ok decision)) (hnot : decision.allowed = false) :
    (∀ (more : List (RateEvent ι)) (later : RateSystem ι),
      later = more.foldl (RateSystem.step limiter)
          (system.step limiter (.runs i)) →
      later.store.admitted = system.store.admitted →
      later.store.now = system.store.now +
        decision.retryAfterSeconds.toNat →
      (later.calls j).phase = .idle →
        ((later.alone limiter j).calls j).phase.admitted = true) ↔
      RetrySuffices limiter (principals i) round.nowMs system.store := by
  have hreached : Reached limiter principals system := by
    rw [hsystem]
    exact (reached_start now principals).run events
  obtain ⟨hstore, hclean, hdenied⟩ := denied_cases hi hdone hnot
  rw [← (hreached.denial hi hclean hdenied).rooms_iff hreached.sound.kept
    hreached.unrepeated]
  have hretry : ∀ (more : List (RateEvent ι)) (later : RateSystem ι),
      later = more.foldl (RateSystem.step limiter)
          (system.step limiter (.runs i)) →
      later.store.admitted = system.store.admitted →
      later.store.now = system.store.now +
        decision.retryAfterSeconds.toNat →
      (later.calls j).phase = .idle →
        (((later.alone limiter j).calls j).phase.admitted = true ↔
          ∀ b ∈ limiter.buckets (principals i), recent b.rule.windowMs
            (system.store.nowMs + 1000 * decision.retryAfterSeconds.toNat)
            (system.store.recordedIn b.key) < b.rule.limit) := by
    intro more later hlater hadmitted hnow hidle
    have hreached' : Reached limiter principals later := by
      rw [hlater]
      exact (hreached.step (.runs i)).run more
    rw [admitted_iff hreached' hidle, hsame, ← nowMs_add hnow]
    exact forall₂_congr (fun b hb => live_lt_iff hreached'.sound.kept
      hreached'.unrepeated hb hadmitted)
  constructor
  · intro hproperty
    -- the clock goes on, and nothing else happens
    have hne : j ≠ i := by
      rintro rfl
      rw [hi] at hj
      cases hj
    have hidle : (((system.step limiter (.runs i)).step limiter
        (.passes decision.retryAfterSeconds.toNat)).calls j).phase =
          .idle := by
      show ((system.act limiter (.runs i)).calls j).phase = .idle
      simp only [RateSystem.act, Function.update_of_ne hne]
      exact hj
    have hwait : ((system.step limiter (.runs i)).step limiter
        (.passes decision.retryAfterSeconds.toNat)).store =
          { system.store with now :=
            system.store.now + decision.retryAfterSeconds.toNat } := by
      rw [← hstore]
      rfl
    have hadmitted := congrArg RateStore.admitted hwait
    have hnow := congrArg RateStore.now hwait
    exact (hretry [.passes _] _ rfl hadmitted hnow hidle).mp
      (hproperty [.passes _] _ rfl hadmitted hnow hidle)
  · intro hrooms more later hlater hadmitted hnow hidle
    exact (hretry more later hlater hadmitted hnow hidle).mpr hrooms

/-- A request a second for a credential, and two an hour for its tenant. -/
def tieredLimiter : RedisRateLimiter where
  tenantRule := ⟨2, 3600, Bounds.one_le_two, by decide⟩
  apiKeyRule := ⟨1, 1, Bounds.one_le_one, Bounds.one_le_one⟩
  tokenHex draw := List.replicate draw '0'
  tokenHex_injective := fun _ _ h => by simpa using congrArg List.length h

def onePrincipal : Principal := ⟨⟨1⟩, ⟨2⟩⟩

/-- One request, and half a second later another, about to be denied. -/
def pressedOnce : List (RateEvent Nat) :=
  List.replicate 8 (.runs 0) ++ .passes (1 / 2) ::
    List.replicate 7 (.runs 1)

/-- One request, two seconds later another, and half a second after that
a third, about to be denied. -/
def pressedTwice : List (RateEvent Nat) :=
  List.replicate 8 (.runs 0) ++ .passes 2 ::
    List.replicate 17 (.runs 1) ++ .passes (1 / 2) ::
      List.replicate 7 (.runs 2)

/-- The credential's bucket denies, half a second after its last
request. -/
def keyRound (oldest tenants : Nat) : Round where
  nowMs := oldest + 500
  counts := [(tieredLimiter.apiKeyBucket onePrincipal, 1),
    (tieredLimiter.tenantBucket onePrincipal, tenants)]
  denied := some (deny (tieredLimiter.apiKeyBucket onePrincipal)
    (some oldest) (oldest + 500))

theorem retry_after_pressedOnce :
    (((((pressedOnce.foldl (RateSystem.step tieredLimiter)
      (RateSystem.start 0 (fun _ => onePrincipal))).step tieredLimiter
        (.runs 1)).step tieredLimiter (.passes 1)).alone tieredLimiter
          2).calls 2).phase.admitted = true :=
  (retry_after_iff tieredLimiter 0 (fun _ => onePrincipal) pressedOnce 1 2
    rfl _ rfl (keyRound 0 1) (by decide +kernel) (by decide +kernel)
    (deny (tieredLimiter.apiKeyBucket onePrincipal) (some 0) 500)
    (by decide +kernel) rfl).mpr
      (fun _ hfull => absurd hfull (by decide +kernel)) [.passes 1] _ rfl
      (by decide +kernel) (by decide +kernel) (by decide +kernel)

/-- The tenant's two requests are not an hour old when the credential has
room again, so a retry after the second it was told is denied. -/
theorem retry_denied_pressedTwice :
    ¬ ∀ (limiter : RedisRateLimiter) (now : ℚ≥0)
      (principals : Nat → Principal) (events : List (RateEvent Nat))
      (i j : Nat), principals j = principals i →
      ∀ (system : RateSystem Nat), system = events.foldl
          (RateSystem.step limiter) (RateSystem.start now principals) →
      ∀ round, (system.calls i).phase = .committing round →
      (system.calls j).phase = .idle →
      ∀ decision, ((system.step limiter (.runs i)).calls i).phase =
          .done (.ok decision) → decision.allowed = false →
      ∀ (more : List (RateEvent Nat)) (later : RateSystem Nat),
        later = more.foldl (RateSystem.step limiter)
            (system.step limiter (.runs i)) →
        later.store.admitted = system.store.admitted →
        later.store.now = system.store.now +
          decision.retryAfterSeconds.toNat →
        (later.calls j).phase = .idle →
          ((later.alone limiter j).calls j).phase.admitted = true := by
  intro hclaim
  have hadmitted := hclaim tieredLimiter 0 (fun _ => onePrincipal)
    pressedTwice 2 3 rfl _ rfl (keyRound 2000 2) (by decide +kernel)
    (by decide +kernel)
    (deny (tieredLimiter.apiKeyBucket onePrincipal) (some 2000) 2500)
    (by decide +kernel) rfl [.passes 1] _ rfl (by decide +kernel)
    (by decide +kernel) (by decide +kernel)
  revert hadmitted
  decide +kernel

end PrivacyGateway.Auth
