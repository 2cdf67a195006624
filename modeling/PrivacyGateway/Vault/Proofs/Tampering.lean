/-
A moved record never resolves.

`Genuine` is the invariant of a run on a server that others write to: no
record key holds a forged ciphertext, every envelope in the log was sealed
for what the log says, and the ids in the log are draws, each made once.
Nothing is assumed of the kinds of values under the keys, so the calls are
followed command by command: `Gains` says which strings can newly be under
a key, and the script can put no string under a record key but the
envelopes of its candidates.

`moved_records` is what a resolution returns in such a run. The cipher
opens a string only with the associated data it was sealed with, whose
framing is injective, so a record that is read for another tenant,
session, type or id does not open.
-/
import PrivacyGateway.Vault.Proofs.Lifetimes
import PrivacyGateway.Vault.Proofs.Openings
import PrivacyGateway.Vault.Tampering

namespace PrivacyGateway.Vault

open Effect Tokenization

-- ==================================================== strings

/-- The string a value is, if it is one. -/
def RedisValue.string : RedisValue → Option Bytes
  | .text value => some (encodeUtf8 value)
  | .blob value => some value
  | .set _ => none

namespace Redis

theorem stringAt_eq_some_iff {r : Redis} {key : Text} {raw : Bytes} :
    r.stringAt key = some raw ↔
      ∃ e, r.peek key = some e ∧ e.value.string = some raw := by
  unfold stringAt
  cases r.peek key with
  | none => simp
  | some e =>
      cases e with
      | mk value deadline =>
          cases value with
          | text value => simp [RedisValue.string]
          | blob value => simp [RedisValue.string]
          | set members => simp [RedisValue.string]

/-- A string under the key afterwards was there, or is one of the new
ones. -/
def Gains (key : Text) (added : List Bytes) (r r' : Redis) : Prop :=
  ∀ raw, r'.stringAt key = some raw →
    r.stringAt key = some raw ∨ raw ∈ added

variable {key : Text} {added : List Bytes}

theorem gains_refl (r : Redis) : Gains key added r r :=
  fun _ h => Or.inl h

theorem gains_trans (r p q : Redis) (h : Gains key added r p)
    (h' : Gains key added p q) : Gains key added r q := by
  intro raw hraw
  rcases h' raw hraw with hraw | hmem
  · exact h raw hraw
  · exact Or.inr hmem

theorem Gains.mono {r r' : Redis} {more : List Bytes}
    (h : Gains key added r r') (hsub : added ⊆ more) :
    Gains key more r r' := by
  intro raw hraw
  exact (h raw hraw).imp_right (fun hmem => hsub hmem)

theorem gains_write (r : Redis) (k : Text) (e : Entry RedisValue)
    (hvalue : k = key → ∀ raw, e.value.string = some raw → raw ∈ added) :
    Gains key added r (r.putKeys (r.keys.write k e)) := by
  intro raw hraw
  obtain ⟨e', hpeek, hstring⟩ := stringAt_eq_some_iff.mp hraw
  obtain ⟨hwritten, hlive⟩ := Keyspace.peek_eq_some_iff.mp hpeek
  change (r.keys.write k e) key = some e' at hwritten
  unfold Keyspace.write at hwritten
  by_cases hkey : key = k
  · rw [if_pos hkey] at hwritten
    cases hwritten
    exact Or.inr (hvalue hkey.symm raw hstring)
  · rw [if_neg hkey] at hwritten
    exact Or.inl (stringAt_eq_some_iff.mpr
      ⟨e', Keyspace.peek_eq_some_iff.mpr ⟨hwritten, hlive⟩, hstring⟩)

theorem gains_extend (r : Redis) (k : Text) (seconds : Nat) :
    Gains key added r
      (r.putKeys (r.keys.extend r.now k (r.deadline seconds))) := by
  intro raw hraw
  obtain ⟨e', hpeek, hstring⟩ := stringAt_eq_some_iff.mp hraw
  have hafter := Keyspace.peek_extend r.keys
    (RedisTokenVault.le_deadline r seconds) k key
  have hpeek' : (r.keys.extend r.now k (r.deadline seconds)).peek r.now
      key = some e' := hpeek
  rw [hafter] at hpeek'
  left
  by_cases hkey : key = k
  · rw [if_pos hkey] at hpeek'
    obtain ⟨e, he, rfl⟩ := Option.map_eq_some_iff.mp hpeek'
    rw [← hkey] at he
    exact stringAt_eq_some_iff.mpr ⟨e, he, hstring⟩
  · rw [if_neg hkey] at hpeek'
    exact stringAt_eq_some_iff.mpr ⟨e', hpeek', hstring⟩

theorem gains_eraseAll (r : Redis) (keys : List Text) :
    Gains key added r (r.putKeys (r.keys.eraseAll keys)) := by
  intro raw hraw
  obtain ⟨e, hpeek, hstring⟩ := stringAt_eq_some_iff.mp hraw
  have hpeek' : (r.keys.eraseAll keys).peek r.now key = some e := hpeek
  rw [Keyspace.peek_eraseAll] at hpeek'
  by_cases hgone : key ∈ keys
  · rw [if_pos hgone] at hpeek'
    cases hpeek'
  · rw [if_neg hgone] at hpeek'
    exact Or.inl (stringAt_eq_some_iff.mpr ⟨e, hpeek', hstring⟩)

-- ==================================================== commands

theorem get_gains (k : Text) : Moves (Gains key added) (get k) := by
  apply moves_act
  intro r
  rcases hpeek : r.peek k with _ | ⟨value, deadline⟩
  · exact gains_refl r
  · cases value with
    | text value => exact gains_refl r
    | blob value => exact gains_refl r
    | set members => exact gains_refl r

theorem keyExists_gains (k : Text) :
    Moves (Gains key added) (keyExists k) :=
  moves_act (fun r => gains_refl r)

theorem setEx_gains (k : Text) (value : RedisValue) (seconds : Nat)
    (hvalue : k = key → ∀ raw, value.string = some raw → raw ∈ added) :
    Moves (Gains key added) (setEx k value seconds) :=
  moves_act (fun r => gains_write r k _ hvalue)

theorem expire_gains (k : Text) (seconds : Nat) :
    Moves (Gains key added) (expire k seconds) :=
  moves_act (fun r => gains_extend r k seconds)

theorem sadd_gains (k member : Text) :
    Moves (Gains key added) (sadd k member) := by
  apply moves_act
  intro r
  have hset : ∀ (members : List Text) (deadline : Option Nat),
      Gains key added r
        (r.putKeys (r.keys.write k ⟨.set members, deadline⟩)) := by
    intro members deadline
    apply gains_write
    intro _ raw hraw
    cases hraw
  rcases hpeek : r.peek k with _ | ⟨value, deadline⟩
  · simp only
    unfold addMember
    rw [show r.keys.peek r.now k = none from hpeek]
    exact hset _ _
  · cases value with
    | text value => exact gains_refl r
    | blob value => exact gains_refl r
    | set members =>
        simp only
        unfold addMember
        rw [show r.keys.peek r.now k = some ⟨.set members, deadline⟩ from
          hpeek]
        exact hset _ _

theorem createEntry_gains (metaKey : Text) (ttl : Nat)
    {entry : ScriptEntry} (hkey : entry.fingerprintKey ≠ key)
    (hadded : entry.envelope ∈ added) :
    Moves (Gains key added) (createEntry metaKey ttl entry) := by
  unfold createEntry
  apply Moves.bind gains_trans
  · apply setEx_gains
    intro _ raw hraw
    cases hraw
    exact hadded
  · intro _
    apply Moves.bind gains_trans
    · exact setEx_gains _ _ _ (fun hsame => absurd hsame hkey)
    · intro _
      apply Moves.bind gains_trans (sadd_gains _ _)
      intro _
      apply Moves.bind gains_trans (sadd_gains _ _)
      intro _
      exact moves_pure gains_refl _

theorem writeEntry_gains (metaKey recordPrefix : Text) (ttl : Nat)
    {entry : ScriptEntry} (hkey : entry.fingerprintKey ≠ key)
    (hadded : entry.envelope ∈ added) :
    Moves (Gains key added) (writeEntry metaKey recordPrefix ttl entry) := by
  unfold writeEntry
  apply Moves.bind gains_trans (get_gains _)
  intro found
  cases found.bind decodeUtf8 with
  | none => exact createEntry_gains metaKey ttl hkey hadded
  | some existingId =>
      apply Moves.bind gains_trans (keyExists_gains _)
      intro there
      cases there with
      | false => exact createEntry_gains metaKey ttl hkey hadded
      | true =>
          apply Moves.bind gains_trans (expire_gains _ _)
          intro _
          apply Moves.bind gains_trans (expire_gains _ _)
          intro _
          exact moves_pure gains_refl _

/-- The script puts no string under a key that is no index key of its
entries but their envelopes. -/
theorem batchWrite_gains (metaKey recordPrefix : Text) (ttl : Nat)
    {entries : List ScriptEntry}
    (hkey : ∀ entry ∈ entries, entry.fingerprintKey ≠ key) :
    Moves (Gains key (entries.map ScriptEntry.envelope))
      (batchWrite metaKey recordPrefix ttl entries) := by
  have hloop : ∀ rest : List ScriptEntry, rest ⊆ entries →
      Moves (Gains key (entries.map ScriptEntry.envelope))
        (writeEntries metaKey recordPrefix ttl rest) := by
    intro rest
    induction rest with
    | nil =>
        intro _
        exact moves_pure gains_refl _
    | cons entry rest ih =>
        intro hsub
        obtain ⟨hentry, hrest⟩ := List.cons_subset.mp hsub
        unfold writeEntries
        apply Moves.bind gains_trans
        · exact writeEntry_gains metaKey recordPrefix ttl
            (hkey entry hentry) (List.mem_map_of_mem hentry)
        · intro reply
          apply Moves.bind gains_trans (ih hrest)
          intro replies
          exact moves_pure gains_refl _
  unfold batchWrite
  apply Moves.bind gains_trans (hloop entries (List.Subset.refl _))
  intro result
  apply Moves.bind gains_trans (expire_gains _ _)
  intro _
  exact moves_pure gains_refl _

theorem del_gains (keys : List Text) : Moves (Gains key added) (del keys) :=
  moves_act (fun r => gains_eraseAll r keys)

theorem delAny_gains (keys : List Text) :
    Moves (Gains key added) (delAny keys) :=
  moves_ite (moves_pure gains_refl 0) (del_gains keys)

theorem smembers_gains (k : Text) :
    Moves (Gains key added) (smembers k) := by
  apply moves_act
  intro r
  rcases hpeek : r.peek k with _ | ⟨value, deadline⟩
  · exact gains_refl r
  · cases value with
    | text value => exact gains_refl r
    | blob value => exact gains_refl r
    | set members => exact gains_refl r

end Redis

-- ==================================================== calls

namespace RedisTokenVault

variable {vault : RedisTokenVault} {t s : UUID} {key : Text}
  {added : List Bytes}

/-- The same of the world: no id was drawn. -/
def Keeps (key : Text) (added : List Bytes) (w w' : World) : Prop :=
  w'.idsDrawn = w.idsDrawn ∧ Redis.Gains key added w.redis w'.redis

theorem keeps_refl (w : World) : Keeps key added w w :=
  ⟨rfl, Redis.gains_refl w.redis⟩

theorem keeps_trans (w u v : World) (h : Keeps key added w u)
    (h' : Keeps key added u v) : Keeps key added w v :=
  ⟨h'.1.trans h.1, Redis.gains_trans _ _ _ h.2 h'.2⟩

theorem storeCall_keeps {α : Type} (operation : String)
    {command : Eff Redis RedisError α}
    (h : Moves (Redis.Gains key added) command) :
    Moves (Keeps key added) (storeCall operation command) := by
  apply moves_act
  intro w
  have hredis := h w.redis
  cases hrun : runIn command w.redis with
  | mk result redis =>
      rw [hrun] at hredis
      cases result with
      | ok a => exact ⟨rfl, hredis⟩
      | error e => exact ⟨rfl, hredis⟩

theorem listSession_keeps :
    Moves (Keeps key added) (vault.listSession t s) :=
  storeCall_keeps _ (Redis.smembers_gains _)

theorem eraseListed_keeps (members : List Text) :
    Moves (Keeps key added) (vault.eraseListed t s members) := by
  apply storeCall_keeps
  apply Moves.bind Redis.gains_trans (Redis.delAny_gains _)
  intro deleted
  apply Moves.bind Redis.gains_trans (Redis.delAny_gains _)
  intro _
  apply Moves.bind Redis.gains_trans (Redis.del_gains _)
  intro _
  exact moves_pure Redis.gains_refl _

theorem deleteSession_keeps :
    Moves (Keeps key added) (vault.deleteSession t s) :=
  Moves.bind keeps_trans listSession_keeps
    (fun members => eraseListed_keeps members)

-- ==================================================== batches

/-- The log entries of sealed candidates. -/
def sealingOf (t s : UUID) (entry : VaultWriteRequest) (c : Candidate) :
    Sealing :=
  ⟨t, s, entry.entityType, c.id, entry.originalValue, c.raw⟩

/-- What a log entry says was sealed was sealed. -/
def WasSealed (vault : RedisTokenVault) (sealing : Sealing) : Prop :=
  vault.Holds sealing.tenantId sealing.sessionId sealing.entityType
    sealing.tokenId sealing.originalValue sealing.envelope

/-- A batch seals nothing and writes nothing, or seals its candidates and
runs the script on these. -/
theorem batch_cases (w : World) (entries : List VaultWriteRequest)
    (ttlSeconds : Int) :
    let w' := (runIn (vault.getOrCreateMany t s entries ttlSeconds) w).2
    (vault.sealingsOf w t s entries ttlSeconds = [] ∧
      w.idsDrawn ≤ w'.idsDrawn ∧ w'.redis = w.redis) ∨
    ∃ cs, vault.SealedFrom t s w.idsDrawn (deduplicate entries).1 cs ∧
      vault.sealingsOf w t s entries ttlSeconds =
        List.zipWith (sealingOf t s) (deduplicate entries).1 cs ∧
      w'.idsDrawn = w.idsDrawn + (deduplicate entries).1.length ∧
      ∀ t' s' id, Redis.Gains (vault.render (.token t' s' id))
        (cs.map Candidate.raw) w.redis w'.redis := by
  intro w'
  have hw' : w' = (runIn (vault.getOrCreateMany t s entries ttlSeconds)
    w).2 := rfl
  unfold getOrCreateMany at hw'
  unfold sealingsOf
  cases httl : validatedTtl ttlSeconds with
  | error e =>
      rw [httl, checked_bind_error] at hw'
      rw [hw']
      exact Or.inl ⟨rfl, le_refl _, rfl⟩
  | ok ttl =>
      rw [httl, checked_bind_ok] at hw'
      cases hvalid : validateEntries entries with
      | error e =>
          rw [hvalid, checked_bind_error] at hw'
          rw [hw']
          exact Or.inl ⟨rfl, le_refl _, rfl⟩
      | ok u =>
          rw [hvalid, checked_bind_ok] at hw'
          simp only
          by_cases hmany : entries.length > maxBatchEntries
          · rw [if_pos hmany] at hw'
            rw [hw', if_pos hmany]
            exact Or.inl ⟨rfl, le_refl _, rfl⟩
          · rw [if_neg hmany] at hw'
            rw [if_neg hmany]
            by_cases hnil : entries = []
            · rw [if_pos hnil] at hw'
              rw [hw', hnil]
              exact Or.inl ⟨rfl, le_refl _, rfl⟩
            · rw [if_neg hnil] at hw'
              unfold writeBatch at hw'
              simp only at hw'
              rw [runIn_bind] at hw'
              have hquiet := @sealEntries_redis vault t s
                (deduplicate entries).1 w
              cases hseal : runIn (vault.sealEntries t s
                  (deduplicate entries).1) w with
              | mk sealing w1 =>
                  rw [hseal] at hw' hquiet
                  cases sealing with
                  | error e =>
                      rw [hw']
                      exact Or.inl ⟨rfl, hquiet.2, hquiet.1⟩
                  | ok candidates =>
                      obtain ⟨cs, rfl, hsealed, hredis, hdrawn⟩ :=
                        sealEntries_ok _ hseal
                      refine Or.inr ⟨cs, hsealed, ?_, ?_⟩
                      · simp only [List.zipWith_map_right]
                        rfl
                      · -- the rest of the call is the script
                        have hkeeps : ∀ t' s' id,
                            Keeps (vault.render (.token t' s' id))
                              (cs.map Candidate.raw) w1 w' := by
                          intro t' s' id
                          rw [hw']
                          have hmoves := @storeCall_keeps
                            (vault.render (.token t' s' id)) _ _
                            "get_or_create_many" _
                            (@Redis.batchWrite_gains
                              (vault.render (.token t' s' id))
                              (metaKey (vault.sessionPrefix t s))
                              (vault.sessionPrefix t s ++ tokenSegment) ttl
                              (cs.map (Candidate.scriptEntry vault t s))
                              (by
                                intro entry hentry
                                obtain ⟨c, -, rfl⟩ :=
                                  List.mem_map.mp hentry
                                intro hsame
                                cases render_injective hsame))
                          rw [List.map_map] at hmoves
                          exact Moves.bind keeps_trans hmoves
                            (fun raw => Moves.bind keeps_trans
                              (moves_checked keeps_refl _)
                              (fun tokens => moves_pure keeps_refl _)) w1
                        refine ⟨?_, ?_⟩
                        · rw [(hkeeps t s []).1, hdrawn]
                        · intro t' s' id
                          have hgains := (hkeeps t' s' id).2
                          rw [hredis] at hgains
                          exact hgains

theorem SealedFrom.sealings {n : Nat} {entries : List VaultWriteRequest}
    {cs : List Candidate} (h : vault.SealedFrom t s n entries cs) :
    (∀ sealing ∈ List.zipWith (sealingOf t s) entries cs,
      vault.WasSealed sealing) ∧
    (List.zipWith (sealingOf t s) entries cs).map Sealing.envelope =
      cs.map Candidate.raw ∧
    (List.zipWith (sealingOf t s) entries cs).map Sealing.tokenId =
      (List.range' n entries.length).map
        (fun j => encodeCrockford (vault.secrets.tokenBytes j)) := by
  induction h with
  | nil n =>
      refine ⟨?_, rfl, rfl⟩
      intro sealing hsealing
      exact absurd hsealing (List.not_mem_nil)
  | @cons n entry entries c cs _ hid hholds _ ih =>
      obtain ⟨hsealed, henvelopes, hids⟩ := ih
      rw [List.zipWith_cons_cons]
      refine ⟨?_, ?_, ?_⟩
      · exact List.forall_mem_cons.mpr ⟨hholds, hsealed⟩
      · rw [List.map_cons, List.map_cons, henvelopes]
        rfl
      · rw [List.map_cons, List.length_cons, List.range'_succ,
          List.map_cons, hids, ← hid]
        rfl

-- ==================================================== the invariant

/-- A call that is no batch draws no id and puts no string anywhere. -/
theorem step_keeps (st : VaultState) {op : VaultOp}
    (hop : ∀ t s entries ttlSeconds, op ≠ .batch t s entries ttlSeconds) :
    Keeps key [] st.world (vault.step st op).world := by
  cases op with
  | batch t s entries ttlSeconds =>
      exact absurd rfl (hop t s entries ttlSeconds)
  | resolve t s tokens =>
      rw [step_resolve]
      exact keeps_refl _
  | wait d =>
      refine ⟨rfl, ?_⟩
      intro raw hraw
      obtain ⟨e, hpeek, hstring⟩ := Redis.stringAt_eq_some_iff.mp hraw
      have hlater : st.world.redis.keys.peek (st.world.redis.now + d) key =
          some e := hpeek
      rw [Keyspace.peek_later_iff (Nat.le_add_right _ _)] at hlater
      exact Or.inl (Redis.stringAt_eq_some_iff.mpr
        ⟨e, hlater.1, hstring⟩)
  | delete t s => exact deleteSession_keeps st.world
  | list t s =>
      have h := @listSession_keeps vault t s key [] st.world
      unfold step
      cases hrun : runIn (vault.listSession t s) st.world with
      | mk result w =>
          rw [hrun] at h
          cases result with
          | ok members =>
              simp only [hrun]
              exact h
          | error e =>
              simp only [hrun]
              exact h
  | erase i =>
      unfold step
      cases hlisting : st.pending[i]? with
      | none =>
          simp only [hlisting]
          exact keeps_refl _
      | some listing =>
          simp only [hlisting]
          exact eraseListed_keeps listing.members st.world

theorem step_batch_world (st : VaultState)
    (entries : List VaultWriteRequest) (ttlSeconds : Int) :
    (vault.step st (.batch t s entries ttlSeconds)).world =
      (runIn (vault.getOrCreateMany t s entries ttlSeconds)
        st.world).2 := by
  unfold step
  cases hrun : runIn (vault.getOrCreateMany t s entries ttlSeconds)
      st.world with
  | mk result w =>
      cases result with
      | ok tokens => simp only [hrun]
      | error e => simp only [hrun]

/-- The invariant. -/
structure Genuine (vault : RedisTokenVault) (st : AttackState) : Prop where
  unforged : ∀ t s id raw, st.state.world.redis.stringAt
      (vault.render (.token t s id)) = some raw →
    vault.Unforged st.sealings raw
  was_sealed : ∀ sealing ∈ st.sealings, vault.WasSealed sealing
  ids_drawn : (st.sealings.map Sealing.tokenId).Sublist
    ((List.range st.state.world.idsDrawn).map
      (fun j => encodeCrockford (vault.secrets.tokenBytes j)))

variable {st : AttackState}

theorem Unforged.mono {log more : List Sealing} {raw : Bytes}
    (h : vault.Unforged log raw) (hsub : log ⊆ more) :
    vault.Unforged more raw := by
  intro envelope key aad plaintext hparse hkey hopen
  obtain ⟨sealing, hmem, hsealed⟩ :=
    h envelope key aad plaintext hparse hkey hopen
  exact ⟨sealing, hsub hmem, hsealed⟩

/-- A logged envelope is no forgery. -/
theorem unforged_of_mem {log : List Sealing} {sealing : Sealing}
    (h : sealing ∈ log) : vault.Unforged log sealing.envelope := by
  intro envelope key aad plaintext hparse hkey _
  exact ⟨sealing, h, envelope, hparse, hkey, rfl, rfl⟩

theorem genuine_start : vault.Genuine AttackState.start := by
  refine ⟨?_, ?_, List.nil_sublist _⟩
  · intro t s id raw hraw
    cases hraw
  · intro sealing hsealing
    exact absurd hsealing (List.not_mem_nil)

theorem range_map_sublist {α : Type} (f : Nat → α) {n m : Nat}
    (h : n ≤ m) : ((List.range n).map f).Sublist ((List.range m).map f) :=
  (List.range_sublist.mpr h).map f

/-- A batch keeps the invariant. -/
theorem Genuine.batch (h : vault.Genuine st)
    (entries : List VaultWriteRequest) (ttlSeconds : Int) :
    vault.Genuine
      (vault.attackStep st (.call (.batch t s entries ttlSeconds))) := by
  have hcases := @batch_cases vault t s st.state.world entries ttlSeconds
  unfold attackStep
  rw [← step_batch_world] at hcases
  simp only at hcases ⊢
  rcases hcases with ⟨hnone, hdrawn, hredis⟩ |
    ⟨cs, hsealed, hlog, hdrawn, hgains⟩
  · unfold sealedBy
    simp only [hnone, List.append_nil]
    refine ⟨?_, h.was_sealed,
      h.ids_drawn.trans (range_map_sublist _ hdrawn)⟩
    simp only [hredis]
    exact h.unforged
  · obtain ⟨htrue, henvelopes, hids⟩ := hsealed.sealings
    unfold sealedBy
    simp only [hlog]
    refine ⟨?_, ?_, ?_⟩
    · intro t' s' id raw hraw
      rcases hgains t' s' id raw hraw with hold | hnew
      · exact (h.unforged t' s' id raw hold).mono
          (List.subset_append_left _ _)
      · rw [← henvelopes] at hnew
        obtain ⟨sealing, hmem, rfl⟩ := List.mem_map.mp hnew
        exact unforged_of_mem (List.mem_append_right _ hmem)
    · intro sealing hsealing
      rcases List.mem_append.mp hsealing with hold | hnew
      · exact h.was_sealed sealing hold
      · exact htrue sealing hnew
    · simp only [List.map_append, hids, hdrawn]
      rw [List.range_eq_range', ← List.range'_append_1, List.map_append,
        Nat.zero_add]
      apply List.Sublist.append _ (List.Sublist.refl _)
      have hold := h.ids_drawn
      rw [List.range_eq_range'] at hold
      exact hold

/-- Every step keeps the invariant, as long as nothing forged is
stored. -/
theorem Genuine.step (h : vault.Genuine st) {op : AttackOp}
    (hstored : vault.StoresUnforged st op) :
    vault.Genuine (vault.attackStep st op) := by
  cases op with
  | store keys =>
      refine ⟨?_, h.was_sealed, h.ids_drawn⟩
      intro t s id raw hraw
      exact hstored _ raw hraw
  | call op =>
      by_cases hbatch : ∀ t s entries ttlSeconds,
          op ≠ .batch t s entries ttlSeconds
      · have hkeeps := fun key => @step_keeps vault key st.state op hbatch
        have hnone : vault.sealedBy st.state.world op = [] := by
          cases op with
          | batch t s entries ttlSeconds =>
              exact absurd rfl (hbatch t s entries ttlSeconds)
          | resolve t s tokens => rfl
          | wait d => rfl
          | delete t s => rfl
          | list t s => rfl
          | erase i => rfl
        unfold attackStep
        simp only [hnone, List.append_nil]
        refine ⟨?_, h.was_sealed, ?_⟩
        · intro t s id raw hraw
          rcases (hkeeps _).2 raw hraw with hold | hnew
          · exact h.unforged t s id raw hold
          · cases hnew
        · have hdrawn := (hkeeps []).1
          simp only [hdrawn]
          exact h.ids_drawn
      · push Not at hbatch
        obtain ⟨t, s, entries, ttlSeconds, rfl⟩ := hbatch
        exact h.batch entries ttlSeconds

-- ==================================================== resolution

/-- A string that is no forgery opens only for what it was sealed for. -/
theorem Opens.sealed {log : List Sealing} {raw : Bytes} {token : Token}
    {original : Text} (h : vault.Opens t s raw token original)
    (hunforged : vault.Unforged log raw)
    (hlog : ∀ sealing ∈ log, vault.WasSealed sealing) :
    ∃ sealing ∈ log, sealing.tenantId = t ∧ sealing.sessionId = s ∧
      sealing.entityType = token.entityType ∧
      sealing.tokenId = token.tokenId ∧
      sealing.originalValue = original := by
  obtain ⟨record, hrecord, -, horiginal⟩ := h
  unfold unsealRecord EnvelopeCipher.unsealEnvelope at hrecord
  cases hparse : Envelope.fromBytes raw with
  | error e =>
      rw [hparse] at hrecord
      cases hrecord
  | ok envelope =>
      rw [hparse] at hrecord
      simp only at hrecord
      cases hkey : vault.cipher.keyRing.key envelope.keyId with
      | error e =>
          rw [hkey] at hrecord
          cases hrecord
      | ok key =>
          rw [hkey] at hrecord
          simp only at hrecord
          cases haad : (aadFor t s token.entityType
              token.tokenId).toBytes with
          | none =>
              rw [haad] at hrecord
              cases hrecord
          | some aad =>
              rw [haad] at hrecord
              simp only at hrecord
              cases hopen : vault.cipher.aead.decrypt key envelope.nonce
                  envelope.ciphertext aad with
              | none =>
                  rw [hopen] at hrecord
                  cases hrecord
              | some plaintext =>
                  rw [hopen] at hrecord
                  obtain ⟨sealing, hmem, sealed, hsealed, hsealedkey,
                    hnonce, hciphertext⟩ :=
                    hunforged envelope key aad plaintext hparse hkey hopen
                  obtain ⟨-, -, nonce, hlength, hseal⟩ :=
                    hlog sealing hmem
                  obtain ⟨key', aad', hkey', haad', hparse'⟩ :=
                    EnvelopeCipher.sealEnvelope_ok hseal hlength
                  cases hsealed.symm.trans hparse'
                  cases hsealedkey.symm.trans hkey'
                  simp only at hnonce hciphertext
                  rw [← hnonce, ← hciphertext] at hopen
                  -- the associated data is the sealed one, or nothing opens
                  have hsame : aad = aad' := by
                    by_contra hne
                    rw [vault.cipher.aead.decrypt_other _ _ _ _ _ hne]
                      at hopen
                    cases hopen
                  rw [hsame] at haad hopen
                  have hidentity := VaultAad.eq_of_toBytes haad haad'
                  injection hidentity with htenant hsession htype hid
                  rw [vault.cipher.aead.decrypt_encrypt] at hopen
                  cases hopen
                  have hread : VaultRecord.fromBytes vault.codec
                      ((recordFor sealing.tenantId sealing.sessionId
                        sealing.entityType (renderToken sealing.entityType
                          sealing.tokenId)
                        sealing.originalValue).toBytes vault.codec) =
                      .ok record := hrecord
                  rw [VaultRecord.fromBytes_toBytes vault.codec rfl]
                    at hread
                  cases hread
                  exact ⟨sealing, hmem, htenant.symm, hsession.symm,
                    htype.symm, hid.symm, horiginal⟩

/-- In the log, an id was sealed once. -/
theorem Genuine.once (h : vault.Genuine st)
    (hdistinct : vault.secrets.DistinctBelow st.state.world.idsDrawn)
    {sealing sealing' : Sealing} (hmem : sealing ∈ st.sealings)
    (hmem' : sealing' ∈ st.sealings)
    (hid : sealing.tokenId = sealing'.tokenId) : sealing = sealing' := by
  have hdraws : ((List.range st.state.world.idsDrawn).map
      (fun j => encodeCrockford (vault.secrets.tokenBytes j))).Nodup := by
    apply List.Nodup.map_on _ List.nodup_range
    intro i hi j hj heq
    exact hdistinct i j (List.mem_range.mp hi) (List.mem_range.mp hj)
      (encodeCrockford_injective heq)
  exact List.inj_on_of_nodup_map (h.ids_drawn.nodup hdraws) hmem hmem' hid

/-- The invariant holds after every run that stores nothing forged. -/
theorem genuine_run {ops : List AttackOp}
    (hideal : Run.Along vault.attackStep vault.StoresUnforged
      AttackState.start ops) :
    vault.Genuine (vault.attackRun AttackState.start ops) :=
  hideal.preserves (fun _ _ hstored h => h.step hstored) genuine_start

/-- What a resolution returns on a server that others write to. The run is
any sequence of calls and of replacements of the whole content of the
server, and the cipher is ideal on what is stored so. A token in the answer
was asked for, and its original is the one that was sealed for that tenant,
session, entity type and id; if the ids drawn are distinct, nothing else
was sealed under that id. What is not in the answer is absent, or the call
raised. -/
theorem moved_records (vault : RedisTokenVault) (ops : List AttackOp)
    (hideal : Run.Along vault.attackStep vault.StoresUnforged
      AttackState.start ops) :
    let st := vault.attackRun AttackState.start ops
    ∀ t s tokens d w,
      runIn (vault.resolveMany t s tokens) st.state.world = (.ok d, w) →
      ∀ token original, d.get? token = some original →
        token ∈ tokens ∧
        ∃ sealing ∈ st.sealings, vault.WasSealed sealing ∧
          sealing.tenantId = t ∧ sealing.sessionId = s ∧
          token = renderToken sealing.entityType sealing.tokenId ∧
          sealing.originalValue = original ∧
          (vault.secrets.DistinctBelow st.state.world.idsDrawn →
            ∀ sealing' ∈ st.sealings,
              sealing'.tokenId = sealing.tokenId → sealing' = sealing) := by
  intro st t s tokens d w hresolve token original hget
  have hgenuine : vault.Genuine st := genuine_run hideal
  obtain ⟨-, hanswer⟩ := resolveMany_ok hresolve
  obtain ⟨parsed, rfl, hmem, raw, hraw, hopens⟩ :=
    (hanswer token original).mp hget
  obtain ⟨sealing, hlogged, htenant, hsession, htype, hid, horiginal⟩ :=
    hopens.sealed (hgenuine.unforged _ _ _ _ hraw) hgenuine.was_sealed
  refine ⟨hmem, sealing, hlogged, hgenuine.was_sealed _ hlogged, htenant,
    hsession, ?_, horiginal, ?_⟩
  · rw [htype, hid]
    rfl
  · intro hdistinct sealing' hmem' hsame
    exact hgenuine.once hdistinct hmem' hlogged hsame

end RedisTokenVault

namespace Reference

open RedisTokenVault

/-- The envelope of a first batch. -/
def adaEnvelope : Bytes :=
  match (vault sampleHashes).sealingsOf VaultState.start.world ⟨2⟩ ⟨3⟩
      [adaEntry] 3600 with
  | sealing :: _ => sealing.envelope
  | [] => []

/-- A batch, and a copy of its record put under another session's key. -/
def recordCopied : List AttackOp :=
  [.call (.batch ⟨2⟩ ⟨3⟩ [adaEntry] 3600),
    .store (fun key =>
      if key = (vault sampleHashes).render
            (.token ⟨2⟩ ⟨3⟩ "00000000000000000000000000".toList) ∨
          key = (vault sampleHashes).render
            (.token ⟨2⟩ ⟨4⟩ "00000000000000000000000000".toList)
      then some ⟨.blob adaEnvelope, none⟩ else none)]

/-- The record resolves where it was sealed for; its copy raises. -/
theorem copied_record_raises :
    let v := vault sampleHashes
    let st := v.attackRun AttackState.start recordCopied
    (runIn (v.resolveMany ⟨2⟩ ⟨4⟩ [adaToken]) st.state.world).1 =
        .error (vaultEncryptionError "authentication_failed") ∧
      (runIn (v.resolveMany ⟨2⟩ ⟨3⟩ [adaToken]) st.state.world).1 =
        .ok [(adaToken, "Ada".toList)] ∧
      ∃ sealing ∈ st.sealings, sealing.tenantId = ⟨2⟩ ∧
        sealing.sessionId = ⟨3⟩ ∧
        adaToken = renderToken sealing.entityType sealing.tokenId ∧
        sealing.originalValue = "Ada".toList := by
  intro v st
  have hideal : Run.Along v.attackStep v.StoresUnforged AttackState.start
      recordCopied := by
    refine Run.along_cons_iff.mpr ⟨trivial,
      Run.along_cons_iff.mpr ⟨?_, Run.along_nil⟩⟩
    intro key raw hraw
    have hmem : ∃ sealing ∈ v.sealingsOf VaultState.start.world ⟨2⟩ ⟨3⟩
        [adaEntry] 3600, sealing.envelope = adaEnvelope := by
      decide +kernel
    obtain ⟨sealing, hmem, henvelope⟩ := hmem
    -- the one string that was stored is the envelope
    have hsame : raw = adaEnvelope := by
      obtain ⟨e, hpeek, hstring⟩ := Redis.stringAt_eq_some_iff.mp hraw
      obtain ⟨hstored, -⟩ := Keyspace.peek_eq_some_iff.mp hpeek
      simp only [Redis.putKeys] at hstored
      split at hstored
      · cases hstored
        cases hstring
        rfl
      · cases hstored
    rw [hsame, ← henvelope]
    exact unforged_of_mem hmem
  have hanswer : (runIn (v.resolveMany ⟨2⟩ ⟨3⟩ [adaToken])
      st.state.world).1 = .ok [(adaToken, "Ada".toList)] := by
    decide +kernel
  refine ⟨by decide +kernel, hanswer, ?_⟩
  have hrun : runIn (v.resolveMany ⟨2⟩ ⟨3⟩ [adaToken]) st.state.world =
      (.ok [(adaToken, "Ada".toList)], st.state.world) :=
    Prod.ext hanswer (by rw [runIn_resolveMany])
  have hget : Dict.get? [(adaToken, "Ada".toList)] adaToken =
      some "Ada".toList := if_pos rfl
  obtain ⟨-, sealing, hmem, -, htenant, hsession, htoken, horiginal, -⟩ :=
    moved_records v recordCopied hideal ⟨2⟩ ⟨3⟩ [adaToken] _ _ hrun
      adaToken "Ada".toList hget
  exact ⟨sealing, hmem, htenant, hsession, htoken, horiginal⟩

end Reference

end PrivacyGateway.Vault
