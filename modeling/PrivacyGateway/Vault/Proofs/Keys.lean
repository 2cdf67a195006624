/-
The vault's keys as structured names.

Every key the vault writes is the rendering of a `VaultKey`. Rendering is
injective (`render_injective`): a session prefix has one length, and after
it the three families differ in their second character. So what a command
does to one key it does to no other, and the proofs about the vault speak
of `VaultKey`s only (`entryAt_write`, `entryAt_extend`,
`entryAt_eraseAll`).

`Typed` is the first invariant: record keys hold sealed bytes, index keys
hold token ids, meta keys hold sets. Under it no command of the vault
fails.
-/
import PrivacyGateway.Vault.System

namespace PrivacyGateway.Vault

open Effect Tokenization

/-- A key of the vault. An index key's segment is its entity type and its
digest. -/
inductive VaultKey
  | token (tenantId sessionId : UUID) (tokenId : Text)
  | index (tenantId sessionId : UUID) (segment : Text)
  | metaSet (tenantId sessionId : UUID)
deriving DecidableEq

def VaultKey.session : VaultKey → UUID × UUID
  | .token tenantId sessionId _ => (tenantId, sessionId)
  | .index tenantId sessionId _ => (tenantId, sessionId)
  | .metaSet tenantId sessionId => (tenantId, sessionId)

/-- What follows the session prefix, after the colon. -/
def VaultKey.suffix : VaultKey → Text
  | .token _ _ tokenId => "token:".toList ++ tokenId
  | .index _ _ segment => "fingerprint:".toList ++ segment
  | .metaSet _ _ => "meta".toList

namespace RedisTokenVault

variable (vault : RedisTokenVault)

def render (k : VaultKey) : Text :=
  vault.sessionPrefix k.session.1 k.session.2 ++ ':' :: k.suffix

/-- The segment of the index key for an entity type and a fingerprint. -/
def indexSegment (entityType normalizedHmac : Text) : Text :=
  entityType ++ ':' :: vault.indexDigest normalizedHmac

theorem tokenKey_eq_render (t s : UUID) (id : Text) :
    tokenKey (vault.sessionPrefix t s) id = vault.render (.token t s id) :=
  rfl

theorem fingerprintKey_eq_render (t s : UUID) (ty hmac : Text) :
    vault.fingerprintKey (vault.sessionPrefix t s) ty hmac =
      vault.render (.index t s (vault.indexSegment ty hmac)) := rfl

theorem metaKey_eq_render (t s : UUID) :
    metaKey (vault.sessionPrefix t s) = vault.render (.metaSet t s) := rfl

theorem recordPrefix_append (t s : UUID) (id : Text) :
    vault.sessionPrefix t s ++ tokenSegment ++ id =
      vault.render (.token t s id) := by
  rw [List.append_assoc]
  rfl

variable {vault}

theorem length_sessionPrefix (t s : UUID) :
    (vault.sessionPrefix t s).length = vault.keyPrefix.length + 74 := by
  simp [sessionPrefix]

theorem sessionPrefix_inj {t s t' s' : UUID}
    (h : vault.sessionPrefix t s = vault.sessionPrefix t' s') :
    (t, s) = (t', s') := by
  unfold sessionPrefix at h
  obtain ⟨ht, hs⟩ := List.append_inj
    (List.cons.inj (List.append_cancel_left h)).2 (by simp)
  rw [UUID.str_injective ht, UUID.str_injective (List.cons.inj hs).2]

theorem suffix_inj {k k' : VaultKey} (hsession : k.session = k'.session)
    (h : k.suffix = k'.suffix) : k = k' := by
  cases k with
  | token t s id =>
      cases k' with
      | token t' s' id' =>
          cases hsession
          rw [List.append_cancel_left h]
      | index t' s' segment => cases h
      | metaSet t' s' => cases h
  | index t s segment =>
      cases k' with
      | token t' s' id => cases h
      | index t' s' segment' =>
          cases hsession
          rw [List.append_cancel_left h]
      | metaSet t' s' => cases h
  | metaSet t s =>
      cases k' with
      | token t' s' id => cases h
      | index t' s' segment => cases h
      | metaSet t' s' =>
          cases hsession
          rfl

theorem render_injective : Function.Injective vault.render := by
  intro k k' h
  unfold render at h
  obtain ⟨hsame, hrest⟩ := List.append_inj h
    (by rw [length_sessionPrefix, length_sessionPrefix])
  exact suffix_inj (sessionPrefix_inj hsame) (List.cons.inj hrest).2

/-- A key is in a session's namespace when it is the session's own. -/
theorem owned_iff {t s : UUID} {k : VaultKey} :
    (vault.sessionPrefix t s ++ [':']).isPrefixOf (vault.render k) = true ↔
      k.session = (t, s) := by
  rw [List.isPrefixOf_iff_prefix]
  unfold render
  constructor
  · intro h
    obtain ⟨rest, hrest⟩ := h
    rw [List.append_assoc] at hrest
    obtain ⟨hsame, -⟩ := List.append_inj hrest
      (by rw [length_sessionPrefix, length_sessionPrefix])
    exact (sessionPrefix_inj hsame).symm
  · intro h
    rw [h]
    exact ⟨k.suffix, by rw [List.append_assoc]; rfl⟩

-- ==================================================== reading

variable (vault)

/-- What is live under a key. -/
def entryAt (r : Redis) (k : VaultKey) : Option (Entry RedisValue) :=
  r.peek (vault.render k)

/-- The value has the kind its key is used for. -/
def Fits : VaultKey → RedisValue → Prop
  | .token _ _ _, .blob _ => True
  | .index _ _ _, .text tokenId => isValidTokenId tokenId = true
  | .metaSet _ _, .set _ => True
  | _, _ => False

/-- Every live key holds a value of its kind. -/
def Typed (r : Redis) : Prop :=
  ∀ k e, vault.entryAt r k = some e → Fits k e.value

variable {vault}

theorem Typed.token {r : Redis} (h : vault.Typed r) {t s : UUID}
    {id : Text} {e : Entry RedisValue}
    (he : vault.entryAt r (.token t s id) = some e) :
    ∃ raw, e.value = .blob raw := by
  have hfits := h _ _ he
  cases hvalue : e.value with
  | text v =>
      rw [hvalue] at hfits
      exact hfits.elim
  | blob raw => exact ⟨raw, rfl⟩
  | set members =>
      rw [hvalue] at hfits
      exact hfits.elim

theorem Typed.index {r : Redis} (h : vault.Typed r) {t s : UUID}
    {segment : Text} {e : Entry RedisValue}
    (he : vault.entryAt r (.index t s segment) = some e) :
    ∃ id, e.value = .text id ∧ isValidTokenId id = true := by
  have hfits := h _ _ he
  cases hvalue : e.value with
  | text id =>
      rw [hvalue] at hfits
      exact ⟨id, rfl, hfits⟩
  | blob raw =>
      rw [hvalue] at hfits
      exact hfits.elim
  | set members =>
      rw [hvalue] at hfits
      exact hfits.elim

theorem Typed.metaSet {r : Redis} (h : vault.Typed r) {t s : UUID}
    {e : Entry RedisValue} (he : vault.entryAt r (.metaSet t s) = some e) :
    ∃ members, e.value = .set members := by
  have hfits := h _ _ he
  cases hvalue : e.value with
  | text id =>
      rw [hvalue] at hfits
      exact hfits.elim
  | blob raw =>
      rw [hvalue] at hfits
      exact hfits.elim
  | set members => exact ⟨members, rfl⟩

/-- What is live later was live before. -/
theorem entryAt_elapse_iff {w : World} {d : Nat} {k : VaultKey}
    {e : Entry RedisValue} :
    vault.entryAt (w.elapse d).redis k = some e ↔
      vault.entryAt w.redis k = some e ∧ e.LiveAt (w.redis.now + d) :=
  Keyspace.peek_later_iff (Nat.le_add_right _ _)

-- ==================================================== writing

theorem le_deadline (r : Redis) (seconds : Nat) :
    r.now ≤ r.deadline seconds :=
  Nat.le_add_right _ _

theorem deadline_congr {r r' : Redis} (h : r'.now = r.now) (seconds : Nat) :
    r'.deadline seconds = r.deadline seconds := by
  unfold Redis.deadline
  rw [h]

theorem entryAt_write (r : Redis) (k k' : VaultKey) {e : Entry RedisValue}
    (hlive : e.LiveAt r.now) :
    vault.entryAt (r.putKeys (r.keys.write (vault.render k) e)) k' =
      if k' = k then some e else vault.entryAt r k' := by
  have h := Keyspace.peek_write r.keys r.now (vault.render k)
    (vault.render k') hlive
  simp only [render_injective.eq_iff] at h
  exact h

theorem entryAt_extend (r : Redis) (seconds : Nat) (k k' : VaultKey) :
    vault.entryAt (r.putKeys (r.keys.extend r.now (vault.render k)
        (r.deadline seconds))) k' =
      if k' = k then (vault.entryAt r k).map
        (fun e => ⟨e.value, some (r.deadline seconds)⟩)
      else vault.entryAt r k' := by
  have h := Keyspace.peek_extend r.keys (le_deadline r seconds)
    (vault.render k) (vault.render k')
  simp only [render_injective.eq_iff] at h
  exact h

theorem entryAt_eraseAll (r : Redis) (keys : List Text) (k : VaultKey) :
    vault.entryAt (r.putKeys (r.keys.eraseAll keys)) k =
      if vault.render k ∈ keys then none else vault.entryAt r k := by
  have h := Keyspace.peek_eraseAll r.keys r.now keys (vault.render k)
  by_cases hmem : vault.render k ∈ keys
  · rw [if_pos hmem] at h ⊢
    exact h
  · rw [if_neg hmem] at h ⊢
    exact h

/-- The set a meta key holds after one more member, with its deadline. -/
def withMember (member : Text) :
    Option (Entry RedisValue) → Entry RedisValue
  | some ⟨.set members, deadline⟩ =>
      ⟨.set (Redis.insertMember member members), deadline⟩
  | _ => ⟨.set [member], none⟩

theorem mem_insertMember {member m : Text} {members : List Text} :
    m ∈ Redis.insertMember member members ↔ m = member ∨ m ∈ members := by
  unfold Redis.insertMember
  by_cases h : member ∈ members
  · rw [if_pos h]
    constructor
    · exact Or.inr
    · intro hm
      rcases hm with rfl | hm
      · exact h
      · exact hm
  · rw [if_neg h, List.mem_append, List.mem_singleton, or_comm]

/-- `SADD` to the meta key of a typed keyspace. -/
theorem runIn_sadd {r : Redis} (htyped : vault.Typed r) (t s : UUID)
    (member : Text) :
    ∃ r', runIn (Redis.sadd (vault.render (.metaSet t s)) member) r =
        (.ok (), r') ∧ r'.now = r.now ∧
      ∀ k, vault.entryAt r' k = if k = .metaSet t s then
        some (withMember member (vault.entryAt r (.metaSet t s))) else vault.entryAt r k := by
  refine ⟨r.putKeys (Redis.addMember r.keys r.now
    (vault.render (.metaSet t s)) member), ?_, rfl, ?_⟩
  · unfold Redis.sadd
    rw [runIn_act]
    cases hmeta : r.peek (vault.render (.metaSet t s)) with
    | none => rfl
    | some e =>
        obtain ⟨members, hset⟩ := htyped.metaSet hmeta
        cases e with
        | mk value deadline =>
            cases hset
            rfl
  · intro k
    have hpeek : r.keys.peek r.now (vault.render (.metaSet t s)) =
        vault.entryAt r (.metaSet t s) := rfl
    unfold Redis.addMember
    rw [hpeek]
    cases hmeta : vault.entryAt r (.metaSet t s) with
    | none => exact entryAt_write r _ k Entry.liveAt_none
    | some e =>
        obtain ⟨members, hset⟩ := htyped.metaSet hmeta
        cases e with
        | mk value deadline =>
            cases hset
            exact entryAt_write r _ k
              (fun d hd => Keyspace.peek_liveAt hmeta d hd)

end RedisTokenVault

end PrivacyGateway.Vault
