/-
What an acquisition decides when nothing interrupts it.

An eviction that takes something away changes a key the acquisition itself
watches, so the first evaluation may have to start over; the second finds
nothing left to evict. Either way the decision is `verdict` on the sets as
the evictions leave them (`solo_decides`), which is about the members of
the last window alone (`denied_verdict`).
-/
import PrivacyGateway.Auth.Proofs.RateLimit

namespace PrivacyGateway.Auth

variable {ι : Type} {limiter : RedisRateLimiter} {store : RateStore ι}

-- ==================================================== evictions

/-- What an eviction leaves of a set. -/
def sift (top : Int) (set : Option (Entry (List LogMember))) :
    Option (Entry (List LogMember)) :=
  set.bind (fun set =>
    if set.value.filter (fun m => decide (top < m.score)) = [] then none
    else some ⟨set.value.filter (fun m => decide (top < m.score)),
      set.deadline⟩)

theorem sift_sift (top : Int) (set : Option (Entry (List LogMember))) :
    sift top (sift top set) = sift top set := by
  cases set with
  | none => rfl
  | some set =>
      unfold sift
      rw [Option.bind_some]
      by_cases hempty :
          set.value.filter (fun m => decide (top < m.score)) = []
      · rw [if_pos hempty]
        rfl
      · rw [if_neg hempty, Option.bind_some]
        simp only [List.filter_filter, Bool.and_self, if_neg hempty]

namespace RateStore

/-- The eviction from one bucket. -/
def evict (store : RateStore ι) (b : Bucket) : RateStore ι :=
  { store with
    keys := zremrangebyscore store.keys store.nowMs b.key
      (store.nowMs - b.rule.windowMs) }

/-- And from both buckets of a principal. -/
def swept (limiter : RedisRateLimiter) (p : Principal)
    (store : RateStore ι) : RateStore ι :=
  (store.evict (limiter.apiKeyBucket p)).evict (limiter.tenantBucket p)

theorem peek_evict (b : Bucket) (key : Text) :
    (store.evict b).peek key =
      if key = b.key then
        sift (store.nowMs - b.rule.windowMs) (store.peek b.key)
      else store.peek key :=
  peek_zremrangebyscore store.keys store.nowMs b.key key _

theorem tenantKey_ne (p : Principal) :
    (limiter.tenantBucket p).key ≠ (limiter.apiKeyBucket p).key :=
  tenantKey_ne_apiKeyKey _ _

theorem peek_swept_apiKey (p : Principal) :
    (store.swept limiter p).peek (limiter.apiKeyBucket p).key =
      sift (store.nowMs - (limiter.apiKeyBucket p).rule.windowMs)
        (store.peek (limiter.apiKeyBucket p).key) := by
  unfold swept
  rw [peek_evict, if_neg (tenantKey_ne p).symm, peek_evict, if_pos rfl]

theorem peek_swept_tenant (p : Principal) :
    (store.swept limiter p).peek (limiter.tenantBucket p).key =
      sift (store.nowMs - (limiter.tenantBucket p).rule.windowMs)
        (store.peek (limiter.tenantBucket p).key) := by
  unfold swept
  rw [peek_evict, if_pos rfl, peek_evict, if_neg (tenantKey_ne p)]
  rfl

/-- What is left of a bucket's sets is the last window. -/
theorem peek_swept {p : Principal} {b : Bucket}
    (hb : b ∈ limiter.buckets p) :
    (store.swept limiter p).peek b.key =
      sift (store.nowMs - b.rule.windowMs) (store.peek b.key) := by
  unfold RedisRateLimiter.buckets at hb
  simp only [List.mem_cons, List.not_mem_nil, or_false] at hb
  rcases hb with rfl | rfl
  · exact peek_swept_apiKey p
  · exact peek_swept_tenant p

/-- A second sweep finds nothing. -/
theorem peek_swept_again {p : Principal} {b : Bucket}
    (hb : b ∈ limiter.buckets p) {again : RateStore ι}
    (hnow : again.now = store.now)
    (hpeek : again.peek b.key = (store.swept limiter p).peek b.key) :
    (again.swept limiter p).peek b.key = again.peek b.key := by
  have hms : again.nowMs = store.nowMs := by
    unfold nowMs
    rw [hnow]
  rw [peek_swept hb, hpeek, peek_swept hb, hms, sift_sift]

/-- The moments of a bucket's set later than a window before `read`. -/
def liveAt (store : RateStore ι) (b : Bucket) (read : Nat) : List Nat :=
  ((store.members b.key).map LogMember.score).filter
    (fun t => decide (read < t + b.rule.windowMs))

/-- Those in the last window. -/
def live (store : RateStore ι) (b : Bucket) : List Nat :=
  store.liveAt b store.nowMs

theorem scores_swept {p : Principal} {b : Bucket}
    (hb : b ∈ limiter.buckets p) :
    ((store.swept limiter p).members b.key).map LogMember.score =
      store.live b := by
  have hmembers : (store.swept limiter p).members b.key =
      (store.members b.key).filter (fun m =>
        decide ((store.nowMs : Int) - b.rule.windowMs < m.score)) := by
    rw [members_getD, members_getD, peek_swept hb]
    cases store.peek b.key with
    | none => rfl
    | some set =>
        unfold sift
        rw [Option.bind_some]
        by_cases hempty : set.value.filter (fun m =>
            decide ((store.nowMs : Int) - b.rule.windowMs < m.score)) = []
        · rw [if_pos hempty]
          exact hempty.symm
        · rw [if_neg hempty]
          rfl
  unfold live liveAt
  rw [hmembers, List.filter_map]
  congr 1
  apply List.filter_congr
  intro m _
  simp only [Function.comp_apply, decide_eq_decide]
  omega

end RateStore

-- ==================================================== one evaluation

/-- One command of a call that runs alone. -/
def solo (limiter : RedisRateLimiter) (i : ι)
    (s : AcquireCall × RateStore ι) : AcquireCall × RateStore ι :=
  let result := s.1.step limiter i s.2
  (result.1.notice limiter s.2 result.2, result.2)

/-- What an evaluation reads in sets it has swept, and decides. -/
def verdict (limiter : RedisRateLimiter) (p : Principal)
    (store : RateStore ι) : Round where
  nowMs := store.nowMs
  counts := (limiter.buckets p).map
    (fun b => (b, zcard store.keys store.nowMs b.key))
  denied := ((limiter.buckets p).find? (fun b =>
    decide (b.rule.limit ≤ zcard store.keys store.nowMs b.key))).map
      (fun b => deny b (oldestScore store.keys store.nowMs b.key)
        store.nowMs)

/-- The watched keys are as they were. -/
def undisturbed (limiter : RedisRateLimiter) (p : Principal)
    (before after : RateStore ι) : Bool :=
  (limiter.buckets p).all
    (fun b => decide (before.peek b.key = after.peek b.key))

theorem undisturbed_iff {p : Principal} {before after : RateStore ι} :
    undisturbed limiter p before after = true ↔
      ∀ b ∈ limiter.buckets p, before.peek b.key = after.peek b.key := by
  unfold undisturbed
  simp only [List.all_eq_true, decide_eq_true_eq]

/-- A call that runs alone gets there in at most so many commands. -/
def Reaches (limiter : RedisRateLimiter) (i : ι) (bound : Nat)
    (s s' : AcquireCall × RateStore ι) : Prop :=
  ∃ k ≤ bound, (solo limiter i)^[k] s = s'

theorem Reaches.single {i : ι} {s s' : AcquireCall × RateStore ι}
    (h : solo limiter i s = s') : Reaches limiter i 1 s s' :=
  ⟨1, le_refl _, h⟩

theorem Reaches.trans {i : ι} {k l : Nat}
    {s s' s'' : AcquireCall × RateStore ι} (h : Reaches limiter i k s s')
    (h' : Reaches limiter i l s' s'') : Reaches limiter i (k + l) s s'' := by
  obtain ⟨m, hm, rfl⟩ := h
  obtain ⟨n, hn, rfl⟩ := h'
  refine ⟨n + m, by omega, ?_⟩
  rw [Function.iterate_add_apply]

theorem notice_self (call : AcquireCall) (store : RateStore ι) :
    call.notice limiter store store = call := by
  have hall : undisturbed limiter call.principal store store = true :=
    undisturbed_iff.mpr (fun _ _ => rfl)
  unfold AcquireCall.notice
  unfold undisturbed at hall
  rw [hall, Bool.and_true]

section Commands

variable {i : ι} {p : Principal} {clean : Bool} {round : Round} {b : Bucket}
  {left : List Bucket}

theorem solo_idle :
    solo limiter i (⟨p, .idle, clean⟩, store) =
      (⟨p, .watching, true⟩, store) := by
  unfold solo AcquireCall.step
  simp only [notice_self]

theorem solo_watching :
    solo limiter i (⟨p, .watching, clean⟩, store) =
      (⟨p, Round.next ⟨store.nowMs, [], none⟩ (limiter.buckets p), clean⟩,
        store) := by
  unfold solo AcquireCall.step
  simp only [notice_self]

theorem solo_evicting (hread : round.nowMs = store.nowMs) :
    solo limiter i (⟨p, .evicting round b left, clean⟩, store) =
      (⟨p, .counting round b left,
        clean && undisturbed limiter p store (store.evict b)⟩,
        store.evict b) := by
  unfold solo AcquireCall.step
  simp only [hread]
  rfl

/-- The round with the count of one more bucket, and with its denial if it
is the first that is full. -/
def Round.read (round : Round) (store : RateStore ι) (b : Bucket) : Round :=
  let count := zcard store.keys store.nowMs b.key
  { round with
    counts := round.counts ++ [(b, count)]
    denied := round.denied.or
      (if b.rule.limit ≤ count then
        some (deny b (oldestScore store.keys store.nowMs b.key) round.nowMs)
      else none) }

/-- Counting, and asking for the oldest member of a full bucket. -/
theorem solo_counting :
    Reaches limiter i 2 (⟨p, .counting round b left, clean⟩, store)
      (⟨p, (round.read store b).next left, clean⟩, store) := by
  by_cases hfull : round.denied = none ∧
      b.rule.limit ≤ zcard store.keys store.nowMs b.key
  · refine ⟨2, le_refl _, ?_⟩
    have hcount : solo limiter i
        (⟨p, .counting round b left, clean⟩, store) =
          (⟨p, .ranging round b left
            (zcard store.keys store.nowMs b.key), clean⟩, store) := by
      unfold solo AcquireCall.step
      simp only [if_pos hfull, notice_self]
    have hround : round.read store b =
        { round with
          counts := round.counts ++
            [(b, zcard store.keys store.nowMs b.key)]
          denied := some (deny b
            (oldestScore store.keys store.nowMs b.key) round.nowMs) } := by
      unfold Round.read
      simp only [hfull.1, if_pos hfull.2, Option.none_or]
    rw [Function.iterate_succ_apply, hcount, Function.iterate_one, hround]
    unfold solo AcquireCall.step
    simp only [notice_self]
  · refine ⟨1, by decide, ?_⟩
    have hround : round.read store b =
        { round with
          counts := round.counts ++
            [(b, zcard store.keys store.nowMs b.key)] } := by
      unfold Round.read
      cases hdenied : round.denied with
      | some decision => simp only [Option.some_or]
      | none =>
          have hnot := not_and.mp hfull hdenied
          simp only [if_neg hnot, Option.none_or]
    rw [Function.iterate_one, hround]
    unfold solo AcquireCall.step
    simp only [if_neg hfull, notice_self]

theorem solo_committing :
    solo limiter i (⟨p, .committing round, clean⟩, store) =
      let result := round.commit limiter i (limiter.buckets p) clean store
      (AcquireCall.notice limiter ⟨p, result.1, clean⟩ store result.2,
        result.2) := by
  unfold solo AcquireCall.step
  rfl

end Commands

theorem zcard_evict_of_ne {b : Bucket} {key : Text} (hkey : key ≠ b.key) :
    zcard (store.evict b).keys store.nowMs key =
        zcard store.keys store.nowMs key ∧
      oldestScore (store.evict b).keys store.nowMs key =
        oldestScore store.keys store.nowMs key := by
  have hmembers : (store.evict b).members key = store.members key := by
    apply RateStore.members_eq
    rw [RateStore.peek_evict, if_neg hkey]
  exact ⟨congrArg List.length hmembers,
    congrArg (fun members => (members.map LogMember.score).min?) hmembers⟩

/-- The two evictions change what they change together. -/
theorem undisturbed_swept (p : Principal) :
    (undisturbed limiter p store
        (store.evict (limiter.apiKeyBucket p)) &&
      undisturbed limiter p (store.evict (limiter.apiKeyBucket p))
        (store.swept limiter p)) =
      undisturbed limiter p store (store.swept limiter p) := by
  have hne := @RateStore.tenantKey_ne limiter p
  rw [Bool.eq_iff_iff, Bool.and_eq_true, undisturbed_iff, undisturbed_iff,
    undisturbed_iff]
  unfold RateStore.swept
  simp only [RedisRateLimiter.buckets, List.forall_mem_cons,
    List.not_mem_nil, RateStore.peek_evict, if_neg hne, if_neg hne.symm,
    if_true]
  tauto

/-- What is read of both buckets, each when it has been swept. -/
theorem read_read_eq_verdict (p : Principal) :
    ((Round.mk store.nowMs [] none).read
        (store.evict (limiter.apiKeyBucket p))
        (limiter.apiKeyBucket p)).read (store.swept limiter p)
          (limiter.tenantBucket p) =
      verdict limiter p (store.swept limiter p) := by
  obtain ⟨hcount, holdest⟩ := @zcard_evict_of_ne _
    (store.evict (limiter.apiKeyBucket p)) (limiter.tenantBucket p)
    (limiter.apiKeyBucket p).key (RateStore.tenantKey_ne p).symm
  have hnow : (store.swept limiter p).nowMs = store.nowMs := rfl
  have hfirst : (store.evict (limiter.apiKeyBucket p)).nowMs =
      store.nowMs := rfl
  rw [hfirst] at hcount holdest
  unfold verdict Round.read RedisRateLimiter.buckets
  simp only [hnow, hfirst, List.nil_append, Option.none_or]
  unfold RateStore.swept
  by_cases hkey : (limiter.apiKeyBucket p).rule.limit ≤
      zcard (store.evict (limiter.apiKeyBucket p)).keys store.nowMs
        (limiter.apiKeyBucket p).key
  · simp [hcount, holdest, hkey]
  · by_cases htenant : (limiter.tenantBucket p).rule.limit ≤
        zcard ((store.evict (limiter.apiKeyBucket p)).evict
          (limiter.tenantBucket p)).keys store.nowMs
            (limiter.tenantBucket p).key
    · simp [hcount, hkey, htenant]
    · simp [hcount, hkey, htenant]

/-- A whole evaluation of a call that runs alone. -/
theorem solo_round (i : ι) (p : Principal) (clean : Bool)
    (store : RateStore ι) :
    Reaches limiter i 9 (⟨p, .idle, clean⟩, store)
      (let swept := store.swept limiter p
      let result := (verdict limiter p swept).commit limiter i
        (limiter.buckets p) (undisturbed limiter p store swept) swept
      (AcquireCall.notice limiter
        ⟨p, result.1, undisturbed limiter p store swept⟩ swept result.2,
        result.2)) := by
  have hevict : Reaches limiter i 3 (⟨p, .idle, clean⟩, store)
      (⟨p, .counting ⟨store.nowMs, [], none⟩ (limiter.apiKeyBucket p)
        [limiter.tenantBucket p],
        undisturbed limiter p store
          (store.evict (limiter.apiKeyBucket p))⟩,
        store.evict (limiter.apiKeyBucket p)) :=
    ((Reaches.single solo_idle).trans (Reaches.single solo_watching)).trans
      (Reaches.single (solo_evicting rfl))
  have hread : Reaches limiter i 5 (⟨p, .idle, clean⟩, store)
      (⟨p, .evicting ((Round.mk store.nowMs [] none).read
        (store.evict (limiter.apiKeyBucket p)) (limiter.apiKeyBucket p))
        (limiter.tenantBucket p) [],
        undisturbed limiter p store
          (store.evict (limiter.apiKeyBucket p))⟩,
        store.evict (limiter.apiKeyBucket p)) :=
    hevict.trans solo_counting
  have hswept := hread.trans (Reaches.single (solo_evicting rfl))
  have hcommit := (hswept.trans solo_counting).trans
    (Reaches.single solo_committing)
  have hclean := @undisturbed_swept _ limiter store p
  unfold RateStore.swept at hclean ⊢
  rw [hclean] at hcommit
  have hverdict := @read_read_eq_verdict _ limiter store p
  unfold RateStore.swept at hverdict
  rw [hverdict] at hcommit
  exact hcommit

-- ==================================================== the decision

/-- A verdict is about what is under the keys. -/
theorem verdict_congr {p : Principal} {other : RateStore ι}
    (hnow : other.now = store.now)
    (hpeek : ∀ b ∈ limiter.buckets p,
      other.peek b.key = store.peek b.key) :
    verdict limiter p other = verdict limiter p store := by
  have hms : other.nowMs = store.nowMs := by
    unfold RateStore.nowMs
    rw [hnow]
  have hread : ∀ b ∈ limiter.buckets p,
      zcard other.keys store.nowMs b.key =
          zcard store.keys store.nowMs b.key ∧
        oldestScore other.keys store.nowMs b.key =
          oldestScore store.keys store.nowMs b.key := by
    intro b hb
    have hmembers : other.members b.key = store.members b.key :=
      RateStore.members_eq (hpeek b hb)
    unfold RateStore.members at hmembers
    rw [hms] at hmembers
    exact ⟨congrArg List.length hmembers,
      congrArg (fun members => (members.map LogMember.score).min?)
        hmembers⟩
  unfold RedisRateLimiter.buckets at hread
  simp only [List.forall_mem_cons] at hread
  obtain ⟨hkey, htenant, -⟩ := hread
  unfold verdict RedisRateLimiter.buckets
  simp only [hms, List.map_cons, List.map_nil, List.find?_cons, hkey.1,
    htenant.1]
  congr 1
  split
  · simp [hkey.2]
  · split
    · simp [htenant.2]
    · rfl

theorem exists_tightest (pair : Bucket × Nat) (pairs : List (Bucket × Nat)) :
    ∃ found, tightest (pair :: pairs) = some found := by
  unfold tightest
  cases tightest pairs with
  | none => exact ⟨_, rfl⟩
  | some other =>
      simp only
      split
      · exact ⟨_, rfl⟩
      · exact ⟨_, rfl⟩

theorem allow_verdict (p : Principal) :
    ∃ decision, allow (verdict limiter p store).counts = .ok decision := by
  obtain ⟨found, hfound⟩ := exists_tightest
    (limiter.apiKeyBucket p, zcard store.keys store.nowMs
      (limiter.apiKeyBucket p).key)
    [(limiter.tenantBucket p, zcard store.keys store.nowMs
      (limiter.tenantBucket p).key)]
  unfold allow verdict RedisRateLimiter.buckets
  simp only [List.map_cons, List.map_nil]
  rw [hfound]
  exact ⟨_, rfl⟩

/-- The verdict goes by the moments of the last window. -/
theorem denied_verdict (p : Principal) :
    (verdict limiter p (store.swept limiter p)).denied =
      ((limiter.buckets p).find? (fun b =>
        decide (b.rule.limit ≤ (store.live b).length))).map
          (fun b => deny b (store.live b).min? store.nowMs) := by
  have hread : ∀ b ∈ limiter.buckets p,
      zcard (store.swept limiter p).keys store.nowMs b.key =
          (store.live b).length ∧
        oldestScore (store.swept limiter p).keys store.nowMs b.key =
          (store.live b).min? := by
    intro b hb
    have hscores := @RateStore.scores_swept _ limiter store p b hb
    constructor
    · rw [← hscores, List.length_map]
      rfl
    · rw [← hscores]
      rfl
  unfold RedisRateLimiter.buckets at hread
  simp only [List.forall_mem_cons] at hread
  obtain ⟨hkey, htenant, -⟩ := hread
  have hnow : (store.swept limiter p).nowMs = store.nowMs := rfl
  unfold verdict RedisRateLimiter.buckets
  simp only [hnow, List.find?_cons, hkey.1, htenant.1]
  split
  · simp [hkey.2]
  · split
    · simp [htenant.2]
    · rfl

/-- What a call that is through was told. -/
structure Decides (limiter : RedisRateLimiter) (p : Principal)
    (store : RateStore ι) (round : Round)
    (s : AcquireCall × RateStore ι) : Prop where
  principal : s.1.principal = p
  now : s.2.now = store.now
  denied : ∀ decision, round.denied = some decision →
    s.1.phase = .done (.ok decision) ∧ s.2.admitted = store.admitted
  admitted : round.denied = none → s.1.phase.admitted = true

/-- `EXEC` of a verdict that nothing disturbed. -/
theorem decides_commit (i : ι) (p : Principal) (store : RateStore ι) :
    Decides limiter p store (verdict limiter p store)
      (AcquireCall.notice limiter
        ⟨p, ((verdict limiter p store).commit limiter i (limiter.buckets p)
          true store).1, true⟩ store
        ((verdict limiter p store).commit limiter i (limiter.buckets p)
          true store).2,
        ((verdict limiter p store).commit limiter i (limiter.buckets p)
          true store).2) := by
  obtain ⟨decision, hallow⟩ := @allow_verdict _ limiter store p
  unfold Round.commit
  cases hdenied : (verdict limiter p store).denied with
  | some denial =>
      refine ⟨rfl, rfl, ?_, ?_⟩
      · intro other hother
        rw [hdenied] at hother
        cases hother
        exact ⟨rfl, rfl⟩
      · intro hnone
        rw [hdenied] at hnone
        cases hnone
  | none =>
      simp only [hallow, if_true]
      refine ⟨rfl, now_record _ _, ?_, fun _ => allow_admitted hallow⟩
      intro other hother
      rw [hdenied] at hother
      cases hother

/-- Disturbed, it writes nothing but a draw. -/
theorem commit_disturbed (i : ι) (p : Principal) (store : RateStore ι) :
    ((verdict limiter p store).commit limiter i (limiter.buckets p) false
        store).1 = .idle ∧
      ((verdict limiter p store).commit limiter i (limiter.buckets p) false
        store).2.now = store.now ∧
      ((verdict limiter p store).commit limiter i (limiter.buckets p) false
        store).2.admitted = store.admitted ∧
      ((verdict limiter p store).commit limiter i (limiter.buckets p) false
        store).2.keys = store.keys := by
  obtain ⟨decision, hallow⟩ := @allow_verdict _ limiter store p
  unfold Round.commit
  cases (verdict limiter p store).denied with
  | some denial => exact ⟨rfl, rfl, rfl, rfl⟩
  | none =>
      simp only [hallow]
      exact ⟨rfl, rfl, rfl, rfl⟩

/-- A call that runs alone is through after two evaluations at most, and it
is told the verdict on the last window. -/
theorem solo_decides (i : ι) (p : Principal) (clean : Bool)
    (store : RateStore ι) :
    ∃ s, Reaches limiter i 18 (⟨p, .idle, clean⟩, store) s ∧
      Decides limiter p store
        (verdict limiter p (store.swept limiter p)) s := by
  have hround := @solo_round _ limiter i p clean store
  simp only at hround
  cases hclean : undisturbed limiter p store (store.swept limiter p) with
  | true =>
      rw [hclean] at hround
      obtain ⟨k, hk, hreach⟩ := hround
      refine ⟨_, ⟨k, by omega, hreach⟩, ?_⟩
      obtain ⟨h1, h2, h3, h4⟩ :=
        @decides_commit _ limiter i p (store.swept limiter p)
      exact ⟨h1, h2, h3, h4⟩
  | false =>
      rw [hclean] at hround
      obtain ⟨hphase, hnow, hadmitted, hkeys⟩ :=
        @commit_disturbed _ limiter i p (store.swept limiter p)
      rw [hphase] at hround
      generalize ((verdict limiter p (store.swept limiter p)).commit limiter
        i (limiter.buckets p) false (store.swept limiter p)).2 = again
          at hround hnow hadmitted hkeys
      have hclock : again.now = store.now := hnow
      have hms : again.nowMs = (store.swept limiter p).nowMs := by
        unfold RateStore.nowMs
        rw [hnow]
      have hpeek : ∀ key, again.peek key =
          (store.swept limiter p).peek key := by
        intro key
        unfold RateStore.peek
        rw [hkeys, hms]
      have hsame : ∀ b ∈ limiter.buckets p,
          (again.swept limiter p).peek b.key =
            (store.swept limiter p).peek b.key :=
        fun b hb => (RateStore.peek_swept_again hb hclock
          (hpeek b.key)).trans (hpeek b.key)
      have hquiet : undisturbed limiter p again (again.swept limiter p) =
          true :=
        undisturbed_iff.mpr (fun b hb =>
          (hpeek b.key).trans (hsame b hb).symm)
      have hverdict : verdict limiter p (again.swept limiter p) =
          verdict limiter p (store.swept limiter p) :=
        verdict_congr hnow hsame
      have hagain := @solo_round _ limiter i p
        (AcquireCall.notice limiter ⟨p, .idle, false⟩
          (store.swept limiter p) again).clean again
      simp only [hquiet] at hagain
      refine ⟨_, hround.trans hagain, ?_⟩
      obtain ⟨h1, h2, h3, h4⟩ :=
        @decides_commit _ limiter i p (again.swept limiter p)
      rw [hverdict] at h1 h2 h3 h4 ⊢
      refine ⟨h1, h2.trans hnow, ?_, h4⟩
      intro decision hdecision
      obtain ⟨hdone, hkept⟩ := h3 decision hdecision
      exact ⟨hdone, hkept.trans hadmitted⟩

/-- A call that is through stays as it is. -/
theorem solo_done {i : ι} {s : AcquireCall × RateStore ι}
    {outcome : Except Exn RateLimitDecision}
    (h : s.1.phase = .done outcome) (k : Nat) :
    (solo limiter i)^[k] s = s := by
  apply Function.iterate_fixed
  unfold solo AcquireCall.step
  rw [h]
  simp only [notice_self]

theorem phase_of_admitted {phase : AcquirePhase} (h : phase.admitted) :
    ∃ outcome, phase = .done outcome := by
  cases phase with
  | done outcome => exact ⟨outcome, rfl⟩
  | _ => cases h

end PrivacyGateway.Auth
