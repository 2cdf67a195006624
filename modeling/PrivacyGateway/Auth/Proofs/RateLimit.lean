/-
No window holds more admissions than a bucket's limit.

The limit is enforced on what a bucket's set holds, so the argument is
about what the set may lack. `Kept` is the invariant of the store: an
admission is in its bucket's set, or it is a window old. A set forgets by
eviction, which goes by a clock read in the past, and by its expiry, which
is a window after its last member.

`Reads` is the invariant of an evaluation whose watched keys have not
changed: what the sets lack is a window older than the clock it read, and
its counts are the sets as they are. So where `EXEC` runs, every admission
later than a window before was counted (`recent_le_members`), and the rule
of the window applies.
-/
import Mathlib.Data.List.Perm.Subperm
import PrivacyGateway.Auth.RateLimit
import PrivacyGateway.Lib.Run
import PrivacyGateway.Lib.SlidingWindow

namespace PrivacyGateway.Auth

open SlidingWindow

variable {ι : Type} {limiter : RedisRateLimiter}

-- ==================================================== keys and members

/-- No tenant's key is a credential's. -/
theorem tenantKey_ne_apiKeyKey (t u : UUID) :
    limiter.tenantKey t ≠ limiter.apiKeyKey u := by
  intro h
  unfold RedisRateLimiter.tenantKey RedisRateLimiter.apiKeyKey at h
  rw [List.append_assoc, List.append_assoc] at h
  have hrest := List.append_cancel_left h
  simp at hrest

theorem buckets_nodup (p : Principal) :
    ((limiter.buckets p).map Bucket.key).Nodup := by
  have hne := (@tenantKey_ne_apiKeyKey limiter p.tenantId p.apiKeyId).symm
  simpa [RedisRateLimiter.buckets, RedisRateLimiter.apiKeyBucket,
    RedisRateLimiter.tenantBucket] using hne

/-- A key has one rule, whoever asks. -/
theorem rule_of_key {p q : Principal} {b c : Bucket}
    (hb : b ∈ limiter.buckets p) (hc : c ∈ limiter.buckets q)
    (hkey : b.key = c.key) : b.rule = c.rule := by
  unfold RedisRateLimiter.buckets at hb hc
  simp only [List.mem_cons, List.not_mem_nil, or_false] at hb hc
  rcases hb with rfl | rfl
  · rcases hc with rfl | rfl
    · rfl
    · exact absurd hkey.symm (tenantKey_ne_apiKeyKey _ _)
  · rcases hc with rfl | rfl
    · exact absurd hkey (tenantKey_ne_apiKeyKey _ _)
    · rfl

/-- Members from different draws are different: what follows the first
colon is the draw's. -/
theorem draw_of_newMember {ms ms' draw draw' : Nat}
    (h : limiter.newMember ms draw = limiter.newMember ms' draw') :
    draw = draw' := by
  have hafter : ∀ (n : Nat) rest, ((toString n).toList ++ ':' :: rest).dropWhile
      (fun c => decide (c ≠ ':')) = ':' :: rest := by
    intro n rest
    rw [List.dropWhile_append_of_pos]
    · rfl
    · intro c hc
      rw [Nat.toString_eq_repr, Nat.toList_repr] at hc
      have hdigit := Nat.isDigit_of_mem_toDigits (by decide) (by decide) hc
      refine decide_eq_true ?_
      rintro rfl
      exact absurd hdigit (by decide)
  unfold RedisRateLimiter.newMember at h
  have hhex := congrArg (List.dropWhile (fun c => decide (c ≠ ':'))) h
  rw [hafter, hafter] at hhex
  exact limiter.tokenHex_injective (List.cons.inj hhex).2

-- ==================================================== what a reader finds

theorem mem_membersAt {keys : Keyspace Text (List LogMember)} {now : Nat}
    {key : Text} {m : LogMember} :
    m ∈ membersAt keys now key ↔
      ∃ set, keys.peek now key = some set ∧ m ∈ set.value := by
  unfold membersAt
  cases keys.peek now key with
  | none => simp
  | some set => simp

/-- What is under a key after an eviction of one. -/
theorem peek_zremrangebyscore (keys : Keyspace Text (List LogMember))
    (now : Nat) (key key' : Text) (top : Int) :
    (zremrangebyscore keys now key top).peek now key' =
      if key' = key then
        (keys.peek now key).bind (fun set =>
          if set.value.filter (fun m => decide (top < m.score)) = [] then
            none
          else some ⟨set.value.filter (fun m => decide (top < m.score)),
            set.deadline⟩)
      else keys.peek now key' := by
  unfold zremrangebyscore
  cases hpeek : keys.peek now key with
  | none =>
      by_cases hkey : key' = key
      · rw [if_pos hkey, hkey, hpeek]
        rfl
      · rw [if_neg hkey]
  | some set =>
      simp only [Option.bind_some]
      split
      · rw [Keyspace.peek_erase]
      · have hlive : set.LiveAt now := Keyspace.peek_liveAt hpeek
        exact Keyspace.peek_write _ _ _ _ hlive

/-- What is under a key once a member was added to one. -/
theorem peek_zadd_pexpire (keys : Keyspace Text (List LogMember))
    (now ms : Nat) (key key' : Text) (m : LogMember) :
    (pexpire (zadd keys now key m) now key ms).peek now key' =
      if key' = key then
        some ⟨insertMember m (membersAt keys now key), some (now + ms)⟩
      else keys.peek now key' := by
  unfold pexpire
  rw [Keyspace.peek_extend _ (Nat.le_add_right now ms)]
  unfold zadd membersAt
  cases hpeek : keys.peek now key with
  | none =>
      simp only
      rw [Keyspace.peek_write _ _ _ _ Entry.liveAt_none,
        Keyspace.peek_write _ _ _ _ Entry.liveAt_none]
      by_cases hkey : key' = key
      · simp [hkey, insertMember]
      · simp [hkey]
  | some set =>
      have hset : set.LiveAt now := Keyspace.peek_liveAt hpeek
      have hlive : (Entry.mk (insertMember m set.value)
          set.deadline).LiveAt now := hset
      simp only
      rw [Keyspace.peek_write _ _ _ _ hlive,
        Keyspace.peek_write _ _ _ _ hlive]
      by_cases hkey : key' = key
      · simp [hkey]
      · simp [hkey]

namespace RateStore

variable {store : RateStore ι}

/-- The members of a bucket's set. -/
def members (store : RateStore ι) (key : Text) : List LogMember :=
  membersAt store.keys store.nowMs key

/-- The moments recorded for a bucket. -/
def recordedIn (store : RateStore ι) (key : Text) : List Nat :=
  (store.admitted.filter (fun a => decide (a.key = key))).map
    Admission.recorded

/-- The admission is in its bucket's set, or a window older than `now`. -/
def PresentOr (store : RateStore ι) (b : Bucket) (now : Nat)
    (a : Admission ι) : Prop :=
  ⟨a.member, a.recorded⟩ ∈ store.members b.key ∨
    a.recorded + b.rule.windowMs ≤ now

theorem peek_recordIn (i : ι) (m : LogMember) (b : Bucket) (key : Text) :
    (store.recordIn i m b).peek key =
      if key = b.key then
        some ⟨insertMember m (store.members b.key),
          some (store.nowMs + b.rule.windowMs)⟩
      else store.peek key :=
  peek_zadd_pexpire store.keys store.nowMs b.rule.windowMs b.key key m

theorem members_getD (store : RateStore ι) (key : Text) :
    store.members key = ((store.peek key).map Entry.value).getD [] := by
  unfold members membersAt peek
  cases store.keys.peek store.nowMs key with
  | none => rfl
  | some set => rfl

theorem members_eq {before after : RateStore ι} {key : Text}
    (h : before.peek key = after.peek key) :
    before.members key = after.members key := by
  rw [members_getD, members_getD, h]

theorem members_recordIn (i : ι) (m : LogMember) (b : Bucket) (key : Text) :
    (store.recordIn i m b).members key =
      if key = b.key then insertMember m (store.members b.key)
      else store.members key := by
  rw [members_getD, peek_recordIn]
  by_cases hkey : key = b.key
  · rw [if_pos hkey, if_pos hkey]
    rfl
  · rw [if_neg hkey, if_neg hkey, members_getD]

theorem nowMs_mono {before after : RateStore ι}
    (h : before.now ≤ after.now) : before.nowMs ≤ after.nowMs :=
  Nat.floor_le_floor (mul_le_mul_of_nonneg_right h (by decide))

end RateStore

theorem mem_insertMember {m other : LogMember} {members : List LogMember} :
    other ∈ insertMember m members ↔
      (other ∈ members ∧ other.member ≠ m.member) ∨ other = m := by
  simp [insertMember]

-- ==================================================== the store

/-- What holds of the store between commands. -/
structure Kept (limiter : RedisRateLimiter) (store : RateStore ι) :
    Prop where
  recorded_le : ∀ a ∈ store.admitted, a.recorded ≤ store.nowMs
  drawn_lt : ∀ a ∈ store.admitted, ∃ ms draw, draw < store.drawn ∧
    a.member = limiter.newMember ms draw
  distinct : (store.admitted.map (fun a => (a.key, a.member))).Nodup
  admitted : ∀ key, ∀ m ∈ store.members key,
    ∃ a ∈ store.admitted, a.key = key ∧ a.member = m.member ∧
      a.recorded = m.score
  lasting : ∀ p, ∀ b ∈ limiter.buckets p, ∀ set,
    store.peek b.key = some set → ∃ deadline,
      set.deadline = some deadline ∧
        ∀ m ∈ set.value, m.score + b.rule.windowMs ≤ deadline
  present : ∀ p, ∀ b ∈ limiter.buckets p, ∀ a ∈ store.admitted,
    a.key = b.key → store.PresentOr b store.nowMs a
  spread : ∀ p, ∀ b ∈ limiter.buckets p,
    Spread b.rule.limit b.rule.windowMs (store.recordedIn b.key)

namespace Kept

variable {store : RateStore ι}

/-- Time takes a set away a window after its last member. -/
theorem passes (h : Kept limiter store) (seconds : ℚ≥0) :
    Kept limiter { store with now := store.now + seconds } := by
  have hle : store.nowMs ≤
      RateStore.nowMs { store with now := store.now + seconds } :=
    RateStore.nowMs_mono (le_add_of_nonneg_right seconds.2)
  have hpeek : ∀ key set,
      RateStore.peek { store with now := store.now + seconds } key =
        some set →
      store.peek key = some set :=
    fun key set hset => ((Keyspace.peek_later_iff hle).mp hset).1
  refine ⟨fun a ha => le_trans (h.recorded_le a ha) hle, h.drawn_lt,
    h.distinct, ?_, ?_, ?_, h.spread⟩
  · intro key m hm
    obtain ⟨set, hset, hmem⟩ := mem_membersAt.mp hm
    exact h.admitted key m (mem_membersAt.mpr ⟨set, hpeek key set hset, hmem⟩)
  · intro p b hb set hset
    exact h.lasting p b hb set (hpeek b.key set hset)
  · intro p b hb a ha hkey
    rcases h.present p b hb a ha hkey with hmem | hold
    · obtain ⟨set, hset, hin⟩ := mem_membersAt.mp hmem
      obtain ⟨deadline, hdeadline, hlast⟩ := h.lasting p b hb set hset
      by_cases hlive : set.LiveAt
          (RateStore.nowMs { store with now := store.now + seconds })
      · exact Or.inl (mem_membersAt.mpr
          ⟨set, (Keyspace.peek_later_iff hle).mpr ⟨hset, hlive⟩, hin⟩)
      · right
        have hgone : deadline <
            RateStore.nowMs { store with now := store.now + seconds } := by
          by_contra hlater
          apply hlive
          intro d hd
          rw [hdeadline] at hd
          cases hd
          omega
        have := hlast _ hin
        simp only at this
        omega
    · exact Or.inr (le_trans hold hle)

/-- An eviction by a clock read earlier forgets what is a window older. -/
theorem evicts (h : Kept limiter store) {p : Principal} {b : Bucket}
    (hb : b ∈ limiter.buckets p) {read : Nat} (hread : read ≤ store.nowMs) :
    Kept limiter { store with
      keys := zremrangebyscore store.keys store.nowMs b.key
        (read - b.rule.windowMs) } := by
  have hpeek : ∀ key set,
      (zremrangebyscore store.keys store.nowMs b.key
        (read - b.rule.windowMs)).peek store.nowMs key = some set →
      ∃ old, store.peek key = some old ∧ set.deadline = old.deadline ∧
        ∀ m ∈ set.value, m ∈ old.value := by
    intro key set hset
    rw [peek_zremrangebyscore] at hset
    split at hset
    · rename_i hkey
      obtain ⟨old, hold, hset⟩ := Option.bind_eq_some_iff.mp hset
      split at hset
      · cases hset
      · cases hset
        exact ⟨old, hkey ▸ hold, rfl, fun m hm => List.mem_of_mem_filter hm⟩
    · exact ⟨set, hset, rfl, fun m hm => hm⟩
  refine ⟨h.recorded_le, h.drawn_lt, h.distinct, ?_, ?_, ?_, h.spread⟩
  · intro key m hm
    obtain ⟨set, hset, hmem⟩ := mem_membersAt.mp hm
    obtain ⟨old, hold, -, hsub⟩ := hpeek key set hset
    exact h.admitted key m (mem_membersAt.mpr ⟨old, hold, hsub m hmem⟩)
  · intro q c hc set hset
    obtain ⟨old, hold, hdeadline, hsub⟩ := hpeek c.key set hset
    obtain ⟨deadline, hsome, hlast⟩ := h.lasting q c hc old hold
    exact ⟨deadline, hdeadline.trans hsome,
      fun m hm => hlast m (hsub m hm)⟩
  · intro q c hc a ha hkey
    rcases h.present q c hc a ha hkey with hmem | hold
    · obtain ⟨set, hset, hin⟩ := mem_membersAt.mp hmem
      by_cases hsame : c.key = b.key
      · by_cases hrecent : (read : Int) - b.rule.windowMs < a.recorded
        · left
          have hkept : ⟨a.member, a.recorded⟩ ∈ set.value.filter
              (fun m => decide ((read : Int) - b.rule.windowMs < m.score)) :=
            List.mem_filter.mpr ⟨hin, decide_eq_true hrecent⟩
          refine mem_membersAt.mpr ⟨⟨_, set.deadline⟩, ?_, hkept⟩
          show (zremrangebyscore store.keys store.nowMs b.key
            (read - b.rule.windowMs)).peek store.nowMs c.key = _
          rw [peek_zremrangebyscore, if_pos hsame]
          have hset' : store.keys.peek store.nowMs b.key = some set :=
            hsame ▸ hset
          rw [hset', Option.bind_some, if_neg (List.ne_nil_of_mem hkept)]
        · right
          show a.recorded + c.rule.windowMs ≤ store.nowMs
          rw [rule_of_key hc hb hsame]
          omega
      · left
        refine mem_membersAt.mpr ⟨set, ?_, hin⟩
        show (zremrangebyscore store.keys store.nowMs b.key
          (read - b.rule.windowMs)).peek store.nowMs c.key = _
        rw [peek_zremrangebyscore, if_neg hsame]
        exact hset
    · exact Or.inr hold

/-- A draw more. -/
theorem draws (h : Kept limiter store) :
    Kept limiter { store with drawn := store.drawn + 1 } := by
  refine ⟨h.recorded_le, ?_, h.distinct, h.admitted, h.lasting, h.present,
    h.spread⟩
  intro a ha
  obtain ⟨ms, draw, hdraw, hmember⟩ := h.drawn_lt a ha
  exact ⟨ms, draw, Nat.lt_succ_of_lt hdraw, hmember⟩

/-- One more member of a bucket, where fewer than its limit are recent. -/
theorem recordIn (h : Kept limiter store) (i : ι) {p : Principal}
    {b : Bucket} (hb : b ∈ limiter.buckets p) {m : LogMember}
    (hscore : m.score ≤ store.nowMs)
    (hdrawn : ∃ ms draw, draw < store.drawn ∧
      m.member = limiter.newMember ms draw)
    (hfresh : ∀ a ∈ store.admitted, a.key = b.key → a.member ≠ m.member)
    (hrecent : recent b.rule.windowMs m.score (store.recordedIn b.key) <
      b.rule.limit) :
    Kept limiter (store.recordIn i m b) := by
  have hnew : ∀ other ∈ store.members b.key, other.member ≠ m.member := by
    intro other hother
    obtain ⟨a, ha, hkey, hmember, -⟩ := h.admitted b.key other hother
    rw [← hmember]
    exact hfresh a ha hkey
  refine ⟨?_, ?_, ?_, ?_, ?_, ?_, ?_⟩
  · intro a ha
    rcases List.mem_append.mp ha with ha | ha
    · exact h.recorded_le a ha
    · cases List.mem_singleton.mp ha
      exact hscore
  · intro a ha
    rcases List.mem_append.mp ha with ha | ha
    · exact h.drawn_lt a ha
    · cases List.mem_singleton.mp ha
      exact hdrawn
  · show ((store.admitted ++ [_]).map _).Nodup
    rw [List.map_append, List.nodup_append]
    refine ⟨h.distinct, List.nodup_singleton _, ?_⟩
    intro pair hpair other hother
    obtain ⟨a, ha, rfl⟩ := List.mem_map.mp hpair
    cases List.mem_singleton.mp hother
    intro hsame
    obtain ⟨hkey, hmember⟩ := Prod.mk.inj hsame
    exact hfresh a ha hkey hmember
  · intro key other hother
    rw [RateStore.members_recordIn] at hother
    split at hother
    · rename_i hkey
      rcases mem_insertMember.mp hother with ⟨hold, -⟩ | rfl
      · obtain ⟨a, ha, hrest⟩ := h.admitted b.key other hold
        exact ⟨a, List.mem_append_left _ ha, hkey ▸ hrest⟩
      · exact ⟨_, List.mem_append_right _ List.mem_cons_self, hkey.symm,
          rfl, rfl⟩
    · obtain ⟨a, ha, hrest⟩ := h.admitted key other hother
      exact ⟨a, List.mem_append_left _ ha, hrest⟩
  · intro q c hc set hset
    rw [RateStore.peek_recordIn] at hset
    split at hset
    · rename_i hkey
      cases hset
      refine ⟨_, rfl, ?_⟩
      intro other hother
      rw [rule_of_key hc hb hkey]
      have hle : other.score ≤ store.nowMs := by
        rcases mem_insertMember.mp hother with ⟨hold, -⟩ | rfl
        · obtain ⟨a, ha, -, -, hrecorded⟩ := h.admitted b.key other hold
          rw [← hrecorded]
          exact h.recorded_le a ha
        · exact hscore
      omega
    · exact h.lasting q c hc set hset
  · intro q c hc a ha hkey
    have hmembers := @RateStore.members_recordIn ι store i m b c.key
    rcases List.mem_append.mp ha with ha | ha
    · rcases h.present q c hc a ha hkey with hmem | hold
      · left
        rw [hmembers]
        split
        · rename_i hsame
          rw [hsame] at hmem
          exact mem_insertMember.mpr (Or.inl ⟨hmem, hnew _ hmem⟩)
        · exact hmem
      · exact Or.inr hold
    · cases List.mem_singleton.mp ha
      left
      rw [hmembers, if_pos hkey.symm]
      exact mem_insertMember.mpr (Or.inr rfl)
  · intro q c hc
    have hrecorded : (store.recordIn i m b).recordedIn c.key =
        if b.key = c.key then store.recordedIn c.key ++ [m.score]
        else store.recordedIn c.key := by
      unfold RateStore.recordedIn RateStore.recordIn
      simp only
      rw [List.filter_append]
      by_cases hkey : b.key = c.key
      · simp [hkey]
      · simp [hkey]
    rw [hrecorded]
    split
    · rename_i hkey
      apply (h.spread q c hc).append
      rw [← rule_of_key hb hc hkey, ← hkey]
      exact hrecent
    · exact h.spread q c hc

/-- One more member of each of some buckets with different keys. -/
theorem record (i : ι) {p : Principal} {m : LogMember} (bs : List Bucket) :
    ∀ {store : RateStore ι}, Kept limiter store →
      (∀ b ∈ bs, b ∈ limiter.buckets p) → (bs.map Bucket.key).Nodup →
      m.score ≤ store.nowMs →
      (∃ ms draw, draw < store.drawn ∧
        m.member = limiter.newMember ms draw) →
      (∀ b ∈ bs, ∀ a ∈ store.admitted, a.key = b.key →
        a.member ≠ m.member) →
      (∀ b ∈ bs, recent b.rule.windowMs m.score (store.recordedIn b.key) <
        b.rule.limit) →
        Kept limiter (store.record i m bs) := by
  induction bs with
  | nil => exact fun h _ _ _ _ _ _ => h
  | cons b bs ih =>
      intro store h hbuckets hnodup hscore hdrawn hfresh hrecent
      obtain ⟨hb, hbs⟩ := List.forall_mem_cons.mp hbuckets
      obtain ⟨hother, hnodup⟩ := List.nodup_cons.mp hnodup
      have hkeys : ∀ c ∈ bs, b.key ≠ c.key :=
        fun c hc hkey => hother (hkey ▸ List.mem_map_of_mem hc)
      refine ih (h.recordIn i hb hscore hdrawn
        (hfresh b List.mem_cons_self) (hrecent b List.mem_cons_self)) hbs
          hnodup hscore hdrawn ?_ ?_
      · intro c hc a ha hkey
        rcases List.mem_append.mp ha with ha | ha
        · exact hfresh c (List.mem_cons_of_mem _ hc) a ha hkey
        · cases List.mem_singleton.mp ha
          exact absurd hkey (hkeys c hc)
      · intro c hc
        have hsame : (store.recordIn i m b).recordedIn c.key =
            store.recordedIn c.key := by
          unfold RateStore.recordedIn RateStore.recordIn
          simp [hkeys c hc]
        rw [hsame]
        exact hrecent c (List.mem_cons_of_mem _ hc)

/-- What was recorded for a bucket later than a window before is recorded
once. -/
theorem logged_nodup (h : Kept limiter store) {b : Bucket} {now : Nat} :
    ((store.admitted.filter (fun a =>
      decide (a.key = b.key ∧ now < a.recorded + b.rule.windowMs))).map
        (fun a => LogMember.mk a.member a.recorded)).Nodup := by
  refine List.Nodup.map_on ?_ ((List.Nodup.of_map _ h.distinct).filter _)
  intro a ha a' ha' hsame
  obtain ⟨ha, hpick⟩ := List.mem_filter.mp ha
  obtain ⟨ha', hpick'⟩ := List.mem_filter.mp ha'
  have hkey := (of_decide_eq_true hpick).1
  have hkey' := (of_decide_eq_true hpick').1
  obtain ⟨hmember, -⟩ := LogMember.mk.inj hsame
  exact List.inj_on_of_nodup_map h.distinct ha ha'
    (Prod.ext (hkey.trans hkey'.symm) hmember)

/-- Where the sets lack nothing later than a window before, they count what
is recent. -/
theorem recent_le_members (h : Kept limiter store) {b : Bucket} {now : Nat}
    (hpresent : ∀ a ∈ store.admitted, a.key = b.key →
      store.PresentOr b now a) :
    recent b.rule.windowMs now (store.recordedIn b.key) ≤
      (store.members b.key).length := by
  have hcount : recent b.rule.windowMs now (store.recordedIn b.key) =
      ((store.admitted.filter (fun a =>
        decide (a.key = b.key ∧ now < a.recorded + b.rule.windowMs))).map
          (fun a => LogMember.mk a.member a.recorded)).length := by
    unfold recent RateStore.recordedIn
    rw [List.countP_map, List.countP_filter, List.length_map,
      List.countP_eq_length_filter]
    congr 2
    funext a
    simp [Bool.and_comm]
  rw [hcount]
  refine (List.subperm_of_subset ?_ ?_).length_le
  · exact h.logged_nodup
  · intro m hm
    obtain ⟨a, ha, rfl⟩ := List.mem_map.mp hm
    obtain ⟨ha, hpick⟩ := List.mem_filter.mp ha
    obtain ⟨hkey, hlate⟩ := of_decide_eq_true hpick
    rcases hpresent a ha hkey with hmem | hold
    · exact hmem
    · omega

end Kept

-- ==================================================== an evaluation

/-- The evaluation a call is in, and the buckets still to read. -/
def AcquirePhase.reading : AcquirePhase → Option (Round × List Bucket)
  | .evicting round b left => some (round, b :: left)
  | .counting round b left => some (round, b :: left)
  | .ranging round b left _ => some (round, b :: left)
  | .committing round => some (round, [])
  | _ => none

/-- What an evaluation knows, and what it still knows of the sets while no
watched key changes. -/
structure Reads (limiter : RedisRateLimiter) (store : RateStore ι)
    (call : AcquireCall) (round : Round) (left : List Bucket) : Prop where
  read_le : round.nowMs ≤ store.nowMs
  covers : round.counts.map Prod.fst ++ left =
    limiter.buckets call.principal
  under : round.denied = none → ∀ pair ∈ round.counts,
    pair.2 < pair.1.rule.limit
  counted : call.clean = true → round.denied = none →
    ∀ pair ∈ round.counts, pair.2 = (store.members pair.1.key).length
  present : call.clean = true → ∀ b ∈ limiter.buckets call.principal,
    ∀ a ∈ store.admitted, a.key = b.key → store.PresentOr b round.nowMs a
  denies : ∀ decision, round.denied = some decision →
    decision.allowed = false

/-- The evaluation a call is in knows this. -/
def CallSound (limiter : RedisRateLimiter) (store : RateStore ι)
    (call : AcquireCall) : Prop :=
  ∀ round left, call.phase.reading = some (round, left) →
    Reads limiter store call round left

variable {store : RateStore ι} {call : AcquireCall}

theorem reading_next (round : Round) (left : List Bucket) :
    (round.next left).reading = some (round, left) := by
  cases left with
  | nil => rfl
  | cons b left => rfl

/-- `EXEC` ends the evaluation. -/
theorem reading_commit (round : Round) (i : ι) (bs : List Bucket)
    (clean : Bool) (store : RateStore ι) :
    (round.commit limiter i bs clean store).1.reading = none := by
  unfold Round.commit
  cases round.denied with
  | some decision => cases clean <;> rfl
  | none =>
      simp only
      cases allow round.counts with
      | error e => rfl
      | ok decision => cases clean <;> rfl

/-- A command of the call itself, as the store was before it. -/
theorem CallSound.step (h : CallSound limiter store call)
    (hkept : Kept limiter store) (i : ι) :
    CallSound limiter store (call.step limiter i store).1 := by
  unfold AcquireCall.step
  cases hphase : call.phase with
  | idle =>
      intro round left hreading
      cases hreading
  | watching =>
      intro round left hreading
      simp only [reading_next] at hreading
      cases hreading
      exact ⟨le_refl _, rfl, fun _ _ hpair => (nomatch hpair),
        fun _ _ _ hpair => (nomatch hpair),
        fun _ b hb => hkept.present call.principal b hb,
        fun _ hdenied => (nomatch hdenied)⟩
  | evicting now b rest =>
      intro round left hreading
      cases hreading
      obtain ⟨h1, h2, h3, h4, h5, h6⟩ :=
        h now (b :: rest) (by rw [hphase]; rfl)
      exact ⟨h1, h2, h3, h4, h5, h6⟩
  | counting now b rest =>
      obtain ⟨h1, h2, h3, h4, h5, h6⟩ :=
        h now (b :: rest) (by rw [hphase]; rfl)
      simp only
      split
      · intro round left hreading
        cases hreading
        exact ⟨h1, h2, h3, h4, h5, h6⟩
      · rename_i hfull
        intro round left hreading
        simp only [reading_next] at hreading
        cases hreading
        refine ⟨h1, ?_, ?_, ?_, h5, h6⟩
        · simpa using h2
        · intro hdenied pair hpair
          rcases List.mem_append.mp hpair with hpair | hpair
          · exact h3 hdenied pair hpair
          · cases List.mem_singleton.mp hpair
            exact Nat.lt_of_not_le (fun hle => hfull ⟨hdenied, hle⟩)
        · intro hclean hdenied pair hpair
          rcases List.mem_append.mp hpair with hpair | hpair
          · exact h4 hclean hdenied pair hpair
          · cases List.mem_singleton.mp hpair
            rfl
  | ranging now b rest count =>
      obtain ⟨h1, h2, -, -, h5, -⟩ :=
        h now (b :: rest) (by rw [hphase]; rfl)
      intro round left hreading
      simp only [reading_next] at hreading
      cases hreading
      refine ⟨h1, by simpa using h2, fun hdenied => (nomatch hdenied),
        fun _ hdenied => (nomatch hdenied), h5, ?_⟩
      intro decision hdenied
      cases hdenied
      rfl
  | committing now =>
      intro round left hreading
      simp only [reading_commit] at hreading
      cases hreading
  | done outcome =>
      intro round left hreading
      rw [hphase] at hreading
      cases hreading

/-- The clock goes on, and what is added under a key changes it. -/
structure Progress (before after : RateStore ι) : Prop where
  now_le : before.nowMs ≤ after.nowMs
  added : ∀ a ∈ after.admitted,
    a ∈ before.admitted ∨ before.peek a.key ≠ after.peek a.key

/-- A call that learns of what changed knows what it knew. -/
theorem CallSound.notice {before after : RateStore ι}
    (h : CallSound limiter before call) (hprogress : Progress before after) :
    CallSound limiter after (call.notice limiter before after) := by
  intro round left hreading
  have hreads := h round left hreading
  have hclean : (call.notice limiter before after).clean = true →
      call.clean = true ∧ ∀ b ∈ limiter.buckets call.principal,
        before.peek b.key = after.peek b.key := by
    intro hclean
    simpa [AcquireCall.notice] using hclean
  refine ⟨le_trans hreads.read_le hprogress.now_le, hreads.covers,
    hreads.under, ?_, ?_, hreads.denies⟩
  · intro hnoticed hdenied pair hpair
    obtain ⟨hold, hsame⟩ := hclean hnoticed
    have hb : pair.1 ∈ limiter.buckets call.principal := by
      rw [← hreads.covers]
      exact List.mem_append_left _ (List.mem_map_of_mem hpair)
    rw [← RateStore.members_eq (hsame pair.1 hb)]
    exact hreads.counted hold hdenied pair hpair
  · intro hnoticed b hb a ha hkey
    obtain ⟨hold, hsame⟩ := hclean hnoticed
    have hbefore : a ∈ before.admitted := by
      rcases hprogress.added a ha with hmem | hchanged
      · exact hmem
      · rw [hkey] at hchanged
        exact absurd (hsame b hb) hchanged
    have hpresent := hreads.present hold b hb a hbefore hkey
    unfold RateStore.PresentOr at hpresent ⊢
    rw [← RateStore.members_eq (hsame b hb)]
    exact hpresent

-- ==================================================== what EXEC writes

section Record

variable {i : ι} {m : LogMember}

theorem admitted_record (bs : List Bucket) :
    ∀ store : RateStore ι, (store.record i m bs).admitted =
      store.admitted ++ bs.map (fun b => ⟨i, b.key, m.member, m.score⟩) := by
  induction bs with
  | nil => exact fun store => (List.append_nil _).symm
  | cons b bs ih =>
      intro store
      show ((store.recordIn i m b).record i m bs).admitted = _
      rw [ih]
      show store.admitted ++ [_] ++ _ = _
      rw [List.append_assoc]
      rfl

theorem now_record (bs : List Bucket) :
    ∀ store : RateStore ι, (store.record i m bs).now = store.now := by
  induction bs with
  | nil => exact fun store => rfl
  | cons b bs ih => exact fun store => ih (store.recordIn i m b)

theorem peek_record_of_ne (bs : List Bucket) {key : Text}
    (hkey : key ∉ bs.map Bucket.key) :
    ∀ store : RateStore ι, (store.record i m bs).peek key =
      store.peek key := by
  induction bs with
  | nil => exact fun store => rfl
  | cons b bs ih =>
      intro store
      rw [List.map_cons, List.mem_cons, not_or] at hkey
      refine (ih hkey.2 (store.recordIn i m b)).trans ?_
      rw [RateStore.peek_recordIn, if_neg hkey.1]

/-- Each bucket has the member. -/
theorem mem_members_record (bs : List Bucket)
    (hnodup : (bs.map Bucket.key).Nodup) :
    ∀ store : RateStore ι, ∀ b ∈ bs,
      m ∈ (store.record i m bs).members b.key := by
  induction bs with
  | nil => exact fun store b hb => nomatch hb
  | cons first bs ih =>
      intro store b hb
      obtain ⟨hother, hnodup⟩ := List.nodup_cons.mp hnodup
      rcases List.mem_cons.mp hb with rfl | hb
      · have hpeek := @peek_record_of_ne ι i m bs b.key hother
          (store.recordIn i m b)
        show m ∈ ((store.recordIn i m b).record i m bs).members b.key
        rw [RateStore.members_eq hpeek, RateStore.members_recordIn,
          if_pos rfl]
        exact mem_insertMember.mpr (Or.inr rfl)
      · exact ih hnodup (store.recordIn i m first) b hb

end Record

-- ==================================================== one command

theorem progress_refl (store : RateStore ι) : Progress store store :=
  ⟨le_refl _, fun _ ha => Or.inl ha⟩

theorem progress_draws (store : RateStore ι) :
    Progress store { store with drawn := store.drawn + 1 } :=
  ⟨le_refl _, fun _ ha => Or.inl ha⟩

/-- `EXEC` keeps the store's invariant. -/
theorem commit_kept {round : Round}
    (hreads : Reads limiter store call round []) (hkept : Kept limiter store)
    (i : ι) :
    Kept limiter (round.commit limiter i (limiter.buckets call.principal)
        call.clean store).2 ∧
      Progress store (round.commit limiter i
        (limiter.buckets call.principal) call.clean store).2 := by
  unfold Round.commit
  cases hdenied : round.denied with
  | some decision =>
      simp only
      split
      · exact ⟨hkept, progress_refl store⟩
      · exact ⟨hkept, progress_refl store⟩
  | none =>
      simp only
      cases allow round.counts with
      | error e => exact ⟨hkept.draws, progress_draws store⟩
      | ok decision =>
          simp only
          split
          · rename_i hclean
            have hfresh : ∀ a ∈ store.admitted,
                a.member ≠ limiter.newMember round.nowMs store.drawn := by
              intro a ha hsame
              obtain ⟨ms, draw, hlt, hmember⟩ := hkept.drawn_lt a ha
              rw [hmember] at hsame
              exact absurd (draw_of_newMember hsame) (Nat.ne_of_lt hlt)
            constructor
            · refine hkept.draws.record i _ (fun b hb => hb)
                (buckets_nodup call.principal) hreads.read_le
                ⟨round.nowMs, store.drawn, Nat.lt_succ_self _, rfl⟩
                (fun b hb a ha hkey => hfresh a ha) ?_
              intro b hb
              have hcovers := hreads.covers
              rw [List.append_nil] at hcovers
              rw [← hcovers] at hb
              obtain ⟨pair, hpair, rfl⟩ := List.mem_map.mp hb
              rw [hcovers] at hb
              calc recent pair.1.rule.windowMs round.nowMs
                    (store.recordedIn pair.1.key)
                  ≤ (store.members pair.1.key).length :=
                    hkept.recent_le_members
                      (hreads.present hclean pair.1 hb)
                _ = pair.2 :=
                    (hreads.counted hclean hdenied pair hpair).symm
                _ < pair.1.rule.limit := hreads.under hdenied pair hpair
            · constructor
              · exact RateStore.nowMs_mono (le_of_eq
                  (now_record _ { store with drawn := store.drawn + 1 }).symm)
              · intro a ha
                rw [admitted_record] at ha
                rcases List.mem_append.mp ha with ha | ha
                · exact Or.inl ha
                · right
                  obtain ⟨b, hb, rfl⟩ := List.mem_map.mp ha
                  intro hsame
                  have hmem := @mem_members_record ι i
                    ⟨limiter.newMember round.nowMs store.drawn, round.nowMs⟩
                    _ (buckets_nodup call.principal)
                    { store with drawn := store.drawn + 1 } b hb
                  rw [← RateStore.members_eq hsame] at hmem
                  obtain ⟨old, hold, -, hmember, -⟩ :=
                    hkept.admitted b.key _ hmem
                  exact hfresh old hold hmember
          · exact ⟨hkept.draws, progress_draws store⟩

/-- So does every command. -/
theorem step_kept (hsound : CallSound limiter store call)
    (hkept : Kept limiter store) (i : ι) :
    Kept limiter (call.step limiter i store).2 ∧
      Progress store (call.step limiter i store).2 := by
  unfold AcquireCall.step
  cases hphase : call.phase with
  | idle => exact ⟨hkept, progress_refl store⟩
  | watching => exact ⟨hkept, progress_refl store⟩
  | evicting round b left =>
      have hreads := hsound round (b :: left) (by rw [hphase]; rfl)
      have hb : b ∈ limiter.buckets call.principal := by
        rw [← hreads.covers]
        exact List.mem_append_right _ List.mem_cons_self
      exact ⟨hkept.evicts hb hreads.read_le,
        le_refl _, fun _ ha => Or.inl ha⟩
  | counting round b left =>
      simp only
      split
      · exact ⟨hkept, progress_refl store⟩
      · exact ⟨hkept, progress_refl store⟩
  | ranging round b left count => exact ⟨hkept, progress_refl store⟩
  | committing round =>
      exact commit_kept (hsound round [] (by rw [hphase]; rfl)) hkept i
  | done outcome => exact ⟨hkept, progress_refl store⟩

-- ==================================================== who was admitted

/-- The acquisition ended with an admission by the log. -/
def AcquirePhase.admitted : AcquirePhase → Bool
  | .done (.ok decision) =>
      decision.allowed && decide (decision.reason = reasonWithinLimit)
  | _ => false

/-- Going on to the next bucket admits nobody. -/
theorem admitted_next (round : Round) (left : List Bucket) :
    (round.next left).admitted = false := by
  cases left with
  | nil => rfl
  | cons b left => rfl

/-- What a call has been admitted to: each of its buckets, once, or
none. -/
def Accounted [DecidableEq ι] (limiter : RedisRateLimiter)
    (store : RateStore ι) (i : ι) (call : AcquireCall) : Prop :=
  (store.admitted.filter (fun a => decide (a.call = i))).map Admission.key =
    if call.phase.admitted = true then
      (limiter.buckets call.principal).map Bucket.key
    else []

variable [DecidableEq ι]

theorem allow_admitted {counts : List (Bucket × Nat)}
    {decision : RateLimitDecision} (h : allow counts = .ok decision) :
    (AcquirePhase.done (.ok decision)).admitted = true := by
  unfold allow at h
  split at h
  · cases h
  · cases h
    rfl

theorem Accounted.of_eq {before after : RateStore ι} {i : ι}
    {call call' : AcquireCall} (h : Accounted limiter before i call)
    (hadmitted : after.admitted = before.admitted)
    (hphase : call'.phase.admitted = call.phase.admitted)
    (hprincipal : call'.principal = call.principal) :
    Accounted limiter after i call' := by
  unfold Accounted at h ⊢
  rw [hadmitted, hphase, hprincipal]
  exact h

/-- A call is admitted by what it writes. -/
theorem Accounted.step {i : ι} (h : Accounted limiter store i call)
    (hsound : CallSound limiter store call) :
    Accounted limiter (call.step limiter i store).2 i
      (call.step limiter i store).1 := by
  unfold AcquireCall.step
  cases hphase : call.phase with
  | idle => exact h.of_eq rfl (by rw [hphase]; rfl) rfl
  | watching =>
      refine h.of_eq rfl ?_ rfl
      simp only [hphase, admitted_next]
      rfl
  | evicting round b left => exact h.of_eq rfl (by rw [hphase]; rfl) rfl
  | counting round b left =>
      simp only
      split
      · exact h.of_eq rfl (by rw [hphase]; rfl) rfl
      · refine h.of_eq rfl ?_ rfl
        simp only [hphase, admitted_next]
        rfl
  | ranging round b left count =>
      refine h.of_eq rfl ?_ rfl
      simp only [hphase, admitted_next]
      rfl
  | committing round =>
      have hreads := hsound round [] (by rw [hphase]; rfl)
      simp only
      unfold Round.commit
      cases hdenied : round.denied with
      | some decision =>
          simp only
          split
          · refine h.of_eq rfl ?_ rfl
            rw [hphase]
            show (decision.allowed && _) = false
            rw [hreads.denies decision hdenied]
            rfl
          · exact h.of_eq rfl (by rw [hphase]; rfl) rfl
      | none =>
          simp only
          cases hallow : allow round.counts with
          | error e => exact h.of_eq rfl (by rw [hphase]; rfl) rfl
          | ok decision =>
              simp only
              split
              · have hnot : ¬ (AcquirePhase.committing round).admitted =
                    true := Bool.false_ne_true
                unfold Accounted at h ⊢
                rw [hphase] at h
                simp only
                rw [if_pos (allow_admitted hallow), admitted_record,
                  List.filter_append, List.map_append, h,
                  if_neg hnot, List.nil_append,
                  List.filter_eq_self.mpr,
                  List.map_map]
                · rfl
                · intro a ha
                  obtain ⟨b, -, rfl⟩ := List.mem_map.mp ha
                  exact decide_eq_true rfl
              · exact h.of_eq rfl (by rw [hphase]; rfl) rfl
  | done outcome => exact h

/-- Another call's record is its own. -/
theorem Accounted.other {i j : ι} (h : Accounted limiter store j call)
    (hne : j ≠ i) {acting : AcquireCall} :
    Accounted limiter (acting.step limiter i store).2 j call := by
  have hadmitted : ((acting.step limiter i store).2.admitted.filter
      (fun a => decide (a.call = j))) =
        store.admitted.filter (fun a => decide (a.call = j)) := by
    unfold AcquireCall.step
    split
    · rfl
    · rfl
    · rfl
    · simp only
      split
      · rfl
      · rfl
    · rfl
    · simp only
      unfold Round.commit
      split
      · split
        · rfl
        · rfl
      · split
        · rfl
        · split
          · rw [admitted_record, List.filter_append, List.append_right_eq_self]
            apply List.filter_eq_nil_iff.mpr
            intro a ha
            obtain ⟨b, -, rfl⟩ := List.mem_map.mp ha
            simpa using hne.symm
          · rfl
    · rfl
  unfold Accounted at h ⊢
  rw [hadmitted]
  exact h

-- ==================================================== the system

/-- What holds of the system between events. -/
structure SystemSound (limiter : RedisRateLimiter)
    (system : RateSystem ι) : Prop where
  kept : Kept limiter system.store
  calls : ∀ i, CallSound limiter system.store (system.calls i)
  accounted : ∀ i, Accounted limiter system.store i (system.calls i)

theorem SystemSound.step {system : RateSystem ι}
    (h : SystemSound limiter system) (event : RateEvent ι) :
    SystemSound limiter (system.step limiter event) := by
  cases event with
  | passes seconds =>
      have hprogress : Progress system.store
          { system.store with now := system.store.now + seconds } :=
        ⟨RateStore.nowMs_mono (le_add_of_nonneg_right seconds.2),
          fun _ ha => Or.inl ha⟩
      exact ⟨h.kept.passes seconds, fun i => (h.calls i).notice hprogress,
        fun i => (h.accounted i).of_eq rfl rfl rfl⟩
  | runs i =>
      obtain ⟨hkept, hprogress⟩ := step_kept (h.calls i) h.kept i
      refine ⟨hkept, ?_, ?_⟩
      · intro j
        refine CallSound.notice ?_ hprogress
        by_cases hj : j = i
        · subst hj
          simp only [RateSystem.act, Function.update_self]
          exact (h.calls j).step h.kept j
        · simp only [RateSystem.act, Function.update_of_ne hj]
          exact h.calls j
      · intro j
        refine Accounted.of_eq (?_ : Accounted limiter _ j
          ((system.act limiter (.runs i)).calls j)) rfl rfl rfl
        by_cases hj : j = i
        · subst hj
          simp only [RateSystem.act, Function.update_self]
          exact (h.accounted j).step (h.calls j)
        · simp only [RateSystem.act, Function.update_of_ne hj]
          exact (h.accounted j).other hj
  | fails i =>
      refine ⟨h.kept, ?_, ?_⟩
      · intro j
        refine CallSound.notice ?_ (progress_refl system.store)
        by_cases hj : j = i
        · subst hj
          simp only [RateSystem.act, Function.update_self]
          intro round left hreading
          unfold AcquireCall.fail at hreading
          split at hreading
          · rename_i hphase
            rw [hphase] at hreading
            cases hreading
          · cases hreading
        · simp only [RateSystem.act, Function.update_of_ne hj]
          exact h.calls j
      · intro j
        refine Accounted.of_eq (h.accounted j) rfl ?_ ?_
        · by_cases hj : j = i
          · subst hj
            simp only [RateSystem.step, AcquireCall.notice, RateSystem.act,
              Function.update_self]
            unfold AcquireCall.fail
            cases hphase : (system.calls j).phase with
            | done outcome => rw [hphase]
            | _ => cases limiter.failOpenOnBackendError <;> rfl
          · simp only [RateSystem.step, AcquireCall.notice, RateSystem.act,
              Function.update_of_ne hj]
        · by_cases hj : j = i
          · subst hj
            simp only [RateSystem.step, AcquireCall.notice, RateSystem.act,
              Function.update_self]
            unfold AcquireCall.fail
            split
            · rfl
            · rfl
          · simp only [RateSystem.step, AcquireCall.notice, RateSystem.act,
              Function.update_of_ne hj]

theorem systemSound_start (now : ℚ≥0) (principals : ι → Principal) :
    SystemSound limiter (RateSystem.start now principals) := by
  refine ⟨⟨fun a ha => (nomatch ha), fun a ha => (nomatch ha), List.nodup_nil,
    fun key m hm => (nomatch hm), fun p b hb set hset => (nomatch hset),
    fun p b hb a ha => (nomatch ha), fun p b hb => spread_nil⟩, ?_, ?_⟩
  · intro i round left hreading
    cases hreading
  · intro i
    rfl

/-- In every interleaving of acquisitions: no window of a bucket holds more
admissions than its limit; an acquisition is recorded once in each of its
buckets if it was admitted, and else in none, so a denied one consumes
nothing; and what the buckets hold is what was recorded. -/
theorem window_never_exceeded (limiter : RedisRateLimiter) (now : ℚ≥0)
    (principals : ι → Principal) (events : List (RateEvent ι)) :
    let system := events.foldl (RateSystem.step limiter)
      (RateSystem.start now principals)
    (∀ p, ∀ b ∈ limiter.buckets p, ∀ first,
      within b.rule.windowMs first (system.store.recordedIn b.key) ≤
        b.rule.limit) ∧
    (∀ i, (system.store.admitted.filter
        (fun a => decide (a.call = i))).map Admission.key =
      if (system.calls i).phase.admitted = true then
        (limiter.buckets (system.calls i).principal).map Bucket.key
      else []) ∧
    (∀ i decision, (system.calls i).phase = .done (.ok decision) →
      decision.allowed = false →
        ∀ a ∈ system.store.admitted, a.call ≠ i) ∧
    ∀ key, ∀ m ∈ system.store.members key, ∃ a ∈ system.store.admitted,
      a.key = key ∧ a.member = m.member ∧ a.recorded = m.score := by
  intro system
  have hsound : SystemSound limiter system :=
    (Run.invariant (fun _ event h => h.step event)
      (systemSound_start now principals) events).last
  refine ⟨hsound.kept.spread, hsound.accounted, ?_, hsound.kept.admitted⟩
  intro i decision hphase hdenied a ha hcall
  have haccounted := hsound.accounted i
  unfold Accounted at haccounted
  rw [hphase, if_neg] at haccounted
  · have hmem : a ∈ system.store.admitted.filter
        (fun a => decide (a.call = i)) :=
      List.mem_filter.mpr ⟨ha, decide_eq_true hcall⟩
    rw [List.map_eq_nil_iff.mp haccounted] at hmem
    cases hmem
  · simp [AcquirePhase.admitted, hdenied]

end PrivacyGateway.Auth
