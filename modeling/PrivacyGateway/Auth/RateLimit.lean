/-
The rate limiter: a sliding window log, one sorted set for each bucket.

An acquisition watches its two buckets, reads the clock, and for each
bucket drops the members older than the window and counts the rest. Then
it is denied, or it adds one member to both. What it queued runs at once,
unless something changed a watched bucket in the meantime; then it starts
over. `RateSystem.step` interleaves any number of acquisitions, command by
command.

The server's clock is the limiter's. A set is there until a window after
the last member was added.
-/
import Mathlib.Data.NNRat.Floor
import PrivacyGateway.Domain
import PrivacyGateway.Lib.Keyspace

namespace PrivacyGateway.Auth

-- ==================================================== rules

/-- `limit` requests per `windowSeconds`. -/
@[ext]
structure RateLimitRule where
  limit : Nat
  windowSeconds : Nat
  limit_pos : 1 ≤ limit
  window_pos : 1 ≤ windowSeconds

instance : DecidableEq RateLimitRule := fun _ _ =>
  decidable_of_iff _ RateLimitRule.ext_iff.symm

def RateLimitRule.windowMs (rule : RateLimitRule) : Nat :=
  rule.windowSeconds * 1000

def defaultTenantRule : RateLimitRule := ⟨600, 60, by decide, by decide⟩
def defaultApiKeyRule : RateLimitRule := ⟨120, 60, by decide, by decide⟩

/-- The outcome of one admission check. -/
structure RateLimitDecision where
  allowed : Bool
  bucket : Text
  limit : Nat
  remaining : Nat
  retryAfterSeconds : Int
  reason : Text
deriving DecidableEq

def bucketTenant : Text := "tenant".toList
def bucketApiKey : Text := "api_key".toList

def reasonWithinLimit : Text := "within_limit".toList
def reasonLimitExceeded : Text := "rate_limit_exceeded".toList
def reasonBackendUnavailable : Text :=
  "rate_limit_backend_unavailable".toList

def backendErrorRetryAfterSeconds : Int := 5

/-- The decision taken when the store cannot be reached. -/
def backendFailureDecision (failOpen : Bool) : RateLimitDecision where
  allowed := failOpen
  bucket := bucketTenant
  limit := 0
  remaining := 0
  retryAfterSeconds := backendErrorRetryAfterSeconds
  reason := reasonBackendUnavailable

structure Bucket where
  name : Text
  key : Text
  rule : RateLimitRule
deriving DecidableEq

/-- `math.ceil(ms / 1000)`. -/
def ceilSeconds (ms : Int) : Int :=
  -((-ms) / 1000)

/-- Seconds until the oldest member leaves the window, at least one. -/
def retryAfter (oldestMs : Option Nat) (nowMs : Nat) (rule : RateLimitRule) :
    Int :=
  match oldestMs with
  | none => rule.windowSeconds
  | some oldest => max 1 (ceilSeconds (oldest + rule.windowMs - nowMs))

-- ==================================================== sorted sets

/-- One member of a bucket and its score. -/
structure LogMember where
  member : Text
  score : Nat
deriving DecidableEq

/-- The members of the set under a key. -/
def membersAt (keys : Keyspace Text (List LogMember)) (now : Nat)
    (key : Text) : List LogMember :=
  match keys.peek now key with
  | some set => set.value
  | none => []

/-- `ZREMRANGEBYSCORE key 0 top`: a set without members is no key. -/
def zremrangebyscore (keys : Keyspace Text (List LogMember)) (now : Nat)
    (key : Text) (top : Int) : Keyspace Text (List LogMember) :=
  match keys.peek now key with
  | none => keys
  | some set =>
      let kept := set.value.filter (fun m => decide (top < m.score))
      if kept = [] then keys.erase key
      else keys.write key ⟨kept, set.deadline⟩

def zcard (keys : Keyspace Text (List LogMember)) (now : Nat)
    (key : Text) : Nat :=
  (membersAt keys now key).length

/-- The score of `ZRANGE key 0 0`. -/
def oldestScore (keys : Keyspace Text (List LogMember)) (now : Nat)
    (key : Text) : Option Nat :=
  ((membersAt keys now key).map LogMember.score).min?

/-- The members with one more; a member that is there gets the new
score. -/
def insertMember (m : LogMember) (members : List LogMember) :
    List LogMember :=
  members.filter (fun other => decide (other.member ≠ m.member)) ++ [m]

/-- `ZADD`. -/
def zadd (keys : Keyspace Text (List LogMember)) (now : Nat) (key : Text)
    (m : LogMember) : Keyspace Text (List LogMember) :=
  match keys.peek now key with
  | none => keys.write key ⟨[m], none⟩
  | some set => keys.write key ⟨insertMember m set.value, set.deadline⟩

/-- `PEXPIRE`. -/
def pexpire (keys : Keyspace Text (List LogMember)) (now : Nat)
    (key : Text) (ms : Nat) : Keyspace Text (List LogMember) :=
  keys.extend now key (now + ms)

-- ==================================================== the limiter

structure RedisRateLimiter where
  tenantRule : RateLimitRule := defaultTenantRule
  apiKeyRule : RateLimitRule := defaultApiKeyRule
  keyPrefix : Text := "sgw:rl:v1".toList
  failOpenOnBackendError : Bool := false
  /-- The draws of `secrets.token_hex(8)`, none of which comes twice. -/
  tokenHex : Nat → Text
  tokenHex_injective : Function.Injective tokenHex

namespace RedisRateLimiter

variable (limiter : RedisRateLimiter)

def tenantKey (tenantId : UUID) : Text :=
  limiter.keyPrefix ++ ":tenant:".toList ++ tenantId.str

def apiKeyKey (apiKeyId : UUID) : Text :=
  limiter.keyPrefix ++ ":key:".toList ++ apiKeyId.str

def apiKeyBucket (principal : Principal) : Bucket :=
  ⟨bucketApiKey, limiter.apiKeyKey principal.apiKeyId, limiter.apiKeyRule⟩

def tenantBucket (principal : Principal) : Bucket :=
  ⟨bucketTenant, limiter.tenantKey principal.tenantId, limiter.tenantRule⟩

/-- The buckets of a principal, in the order they are read. -/
def buckets (principal : Principal) : List Bucket :=
  [limiter.apiKeyBucket principal, limiter.tenantBucket principal]

/-- `<milliseconds>:<random hex>`. -/
def newMember (nowMs draw : Nat) : Text :=
  (toString nowMs).toList ++ ':' :: limiter.tokenHex draw

end RedisRateLimiter

/-- What is left of a bucket's limit. -/
def headroom (pair : Bucket × Nat) : Int :=
  pair.1.rule.limit - pair.2

/-- The first of the pairs with the least headroom. -/
def tightest : List (Bucket × Nat) → Option (Bucket × Nat)
  | [] => none
  | pair :: pairs =>
      match tightest pairs with
      | none => some pair
      | some other =>
          if headroom pair ≤ headroom other then some pair else some other

def deny (bucket : Bucket) (oldestMs : Option Nat) (nowMs : Nat) :
    RateLimitDecision where
  allowed := false
  bucket := bucket.name
  limit := bucket.rule.limit
  remaining := 0
  retryAfterSeconds := retryAfter oldestMs nowMs bucket.rule
  reason := reasonLimitExceeded

def allow (counts : List (Bucket × Nat)) : Except Exn RateLimitDecision :=
  match tightest counts with
  | none => .error (.value "min() iterable argument is empty")
  | some (bucket, count) =>
      .ok
        { allowed := true
          bucket := bucket.name
          limit := bucket.rule.limit
          remaining := bucket.rule.limit - count - 1
          retryAfterSeconds := 0
          reason := reasonWithinLimit }

-- ==================================================== an acquisition

/-- What one evaluation has read: the clock, the counts of the buckets it
is through with, and the first denial. -/
structure Round where
  nowMs : Nat
  counts : List (Bucket × Nat)
  denied : Option RateLimitDecision
deriving DecidableEq

/-- The command an acquisition sends next. -/
inductive AcquirePhase
  | idle
  | watching
  | evicting (round : Round) (bucket : Bucket) (left : List Bucket)
  | counting (round : Round) (bucket : Bucket) (left : List Bucket)
  | ranging (round : Round) (bucket : Bucket) (left : List Bucket)
      (count : Nat)
  | committing (round : Round)
  | done (outcome : Except Exn RateLimitDecision)
deriving DecidableEq

/-- An acquisition; `clean` is whether no watched key changed since they
were watched. -/
structure AcquireCall where
  principal : Principal
  phase : AcquirePhase
  clean : Bool
deriving DecidableEq

/-- One member that was added to one bucket for an acquisition. -/
structure Admission (ι : Type) where
  call : ι
  key : Text
  member : Text
  recorded : Nat
deriving DecidableEq

/-- The clock in seconds, the sets, how many members were drawn, and what
was added, in order. -/
structure RateStore (ι : Type) where
  now : ℚ≥0
  keys : Keyspace Text (List LogMember)
  drawn : Nat
  admitted : List (Admission ι)

namespace RateStore

variable {ι : Type}

/-- `int(clock() * 1000)`, which is the server's clock too. -/
def nowMs (store : RateStore ι) : Nat :=
  ⌊store.now * 1000⌋₊

def peek (store : RateStore ι) (key : Text) :
    Option (Entry (List LogMember)) :=
  store.keys.peek store.nowMs key

/-- `ZADD` and `PEXPIRE` of one bucket. -/
def recordIn (store : RateStore ι) (i : ι) (m : LogMember)
    (bucket : Bucket) : RateStore ι :=
  { store with
    keys := pexpire (zadd store.keys store.nowMs bucket.key m) store.nowMs
      bucket.key bucket.rule.windowMs
    admitted := store.admitted ++ [⟨i, bucket.key, m.member, m.score⟩] }

/-- And of every bucket. -/
def record (store : RateStore ι) (i : ι) (m : LogMember)
    (buckets : List Bucket) : RateStore ι :=
  buckets.foldl (fun store bucket => store.recordIn i m bucket) store

end RateStore

/-- On to the next bucket, or to the end of the evaluation. -/
def Round.next (round : Round) : List Bucket → AcquirePhase
  | [] => .committing round
  | bucket :: left => .evicting round bucket left

section Step

variable {ι : Type} (limiter : RedisRateLimiter)

/-- `EXEC` of what an evaluation queued, where no watched key changed. -/
def Round.commit (round : Round) (i : ι) (buckets : List Bucket)
    (clean : Bool) (store : RateStore ι) : AcquirePhase × RateStore ι :=
  match round.denied with
  | some decision =>
      if clean then (.done (.ok decision), store) else (.idle, store)
  | none =>
      let drawn := { store with drawn := store.drawn + 1 }
      match allow round.counts with
      | .error e => (.done (.error e), drawn)
      | .ok decision =>
          if clean then
            (.done (.ok decision), drawn.record i
              ⟨limiter.newMember round.nowMs store.drawn, round.nowMs⟩
              buckets)
          else (.idle, drawn)

/-- The next command of an acquisition. -/
def AcquireCall.step (call : AcquireCall) (i : ι) (store : RateStore ι) :
    AcquireCall × RateStore ι :=
  match call.phase with
  | .idle => ({ call with phase := .watching, clean := true }, store)
  | .watching =>
      ({ call with
        phase := Round.next ⟨store.nowMs, [], none⟩
          (limiter.buckets call.principal) }, store)
  | .evicting round bucket left =>
      ({ call with phase := .counting round bucket left },
        { store with
          keys := zremrangebyscore store.keys store.nowMs bucket.key
            (round.nowMs - bucket.rule.windowMs) })
  | .counting round bucket left =>
      let count := zcard store.keys store.nowMs bucket.key
      if round.denied = none ∧ bucket.rule.limit ≤ count then
        ({ call with phase := .ranging round bucket left count }, store)
      else
        ({ call with
          phase := Round.next
            { round with counts := round.counts ++ [(bucket, count)] }
            left }, store)
  | .ranging round bucket left count =>
      ({ call with
        phase := Round.next
          { round with
            counts := round.counts ++ [(bucket, count)]
            denied := some (deny bucket
              (oldestScore store.keys store.nowMs bucket.key)
              round.nowMs) } left }, store)
  | .committing round =>
      let result := round.commit limiter i (limiter.buckets call.principal)
        call.clean store
      ({ call with phase := result.1 }, result.2)
  | .done _ => (call, store)

/-- The store cannot be reached. -/
def AcquireCall.fail (call : AcquireCall) : AcquireCall :=
  match call.phase with
  | .done _ => call
  | _ =>
      { call with
        phase := .done (.ok (backendFailureDecision
          limiter.failOpenOnBackendError)) }

-- ==================================================== the system

/-- Any number of acquisitions, one server, one clock. -/
structure RateSystem (ι : Type) where
  store : RateStore ι
  calls : ι → AcquireCall

/-- What may happen next. The clock does not go back. -/
inductive RateEvent (ι : Type)
  | passes (seconds : ℚ≥0)
  | runs (i : ι)
  | fails (i : ι)

/-- A call learns of it when a key it watches changes. -/
def AcquireCall.notice (call : AcquireCall) (before after : RateStore ι) :
    AcquireCall :=
  { call with
    clean := call.clean && (limiter.buckets call.principal).all
      (fun bucket => before.peek bucket.key = after.peek bucket.key) }

namespace RateSystem

variable [DecidableEq ι]

/-- What an event does, before anyone learns of it. -/
def act (system : RateSystem ι) : RateEvent ι → RateSystem ι
  | .passes seconds =>
      { system with
        store := { system.store with now := system.store.now + seconds } }
  | .runs i =>
      let result := (system.calls i).step limiter i system.store
      { store := result.2
        calls := Function.update system.calls i result.1 }
  | .fails i =>
      { system with
        calls := Function.update system.calls i
          ((system.calls i).fail limiter) }

def step (system : RateSystem ι) (event : RateEvent ι) : RateSystem ι :=
  let acted := system.act limiter event
  { acted with
    calls := fun j =>
      (acted.calls j).notice limiter system.store acted.store }

/-- Nothing is stored, and no acquisition has started. -/
def start (now : ℚ≥0) (principals : ι → Principal) : RateSystem ι where
  store := ⟨now, fun _ => none, 0, []⟩
  calls i := ⟨principals i, .idle, false⟩

end RateSystem

end Step

end PrivacyGateway.Auth
