/-
What one batch does to the keyspace.

A round of the script's loop either writes an entry's record and index
anew and lists both (`Created`), or moves the deadlines of the pair it
finds (`Reused`); the script ends by moving the deadline of the meta set
(`Touched`). These three are the whole effect of a batch
(`batchWrite_spec`): a property of the keyspace that they preserve holds
after every batch (`Rounds.preserve`), and none of the proofs above this
file unfolds the script.
-/
import PrivacyGateway.Vault.Proofs.Keys

namespace PrivacyGateway.Vault.RedisTokenVault

open Effect Tokenization

variable (vault : RedisTokenVault) (t s : UUID)

/-- The meta set is there and lists the key. -/
def Lists (r : Redis) (member : Text) : Prop :=
  ∃ members deadline, vault.entryAt r (.metaSet t s) =
    some ⟨.set members, deadline⟩ ∧ member ∈ members

/-- The effect of a round that writes an entry anew. -/
structure Created (ttl : Nat) (segment id : Text) (raw : Bytes)
    (r r' : Redis) : Prop where
  now_eq : r'.now = r.now
  token : vault.entryAt r' (.token t s id) =
    some ⟨.blob raw, some (r.deadline ttl)⟩
  index : vault.entryAt r' (.index t s segment) =
    some ⟨.text id, some (r.deadline ttl)⟩
  lists : ∀ m, vault.Lists t s r' m ↔
    m = vault.render (.index t s segment) ∨
      m = vault.render (.token t s id) ∨ vault.Lists t s r m
  other : ∀ k, k ≠ .token t s id → k ≠ .index t s segment →
    k ≠ .metaSet t s → vault.entryAt r' k = vault.entryAt r k

/-- The effect of a round that finds an entry. -/
structure Reused (ttl : Nat) (segment id : Text) (r r' : Redis) :
    Prop where
  now_eq : r'.now = r.now
  index_found : ∃ e, vault.entryAt r (.index t s segment) = some e ∧
    e.value = .text id
  token_found : ∃ e, vault.entryAt r (.token t s id) = some e
  token : vault.entryAt r' (.token t s id) =
    (vault.entryAt r (.token t s id)).map
      (fun e => ⟨e.value, some (r.deadline ttl)⟩)
  index : vault.entryAt r' (.index t s segment) =
    (vault.entryAt r (.index t s segment)).map
      (fun e => ⟨e.value, some (r.deadline ttl)⟩)
  other : ∀ k, k ≠ .token t s id → k ≠ .index t s segment →
    vault.entryAt r' k = vault.entryAt r k

/-- The effect of the script's last command. -/
structure Touched (ttl : Nat) (r r' : Redis) : Prop where
  now_eq : r'.now = r.now
  metaSet : vault.entryAt r' (.metaSet t s) =
    (vault.entryAt r (.metaSet t s)).map
      (fun e => ⟨e.value, some (r.deadline ttl)⟩)
  other : ∀ k, k ≠ .metaSet t s → vault.entryAt r' k = vault.entryAt r k

variable {vault t s}

-- ==================================================== typing

theorem Lists.metaSet {r : Redis} {m : Text} (h : vault.Lists t s r m) :
    ∃ members deadline, vault.entryAt r (.metaSet t s) =
      some ⟨.set members, deadline⟩ := by
  obtain ⟨members, deadline, hset, -⟩ := h
  exact ⟨members, deadline, hset⟩

theorem Created.typed {ttl : Nat} {segment id : Text} {raw : Bytes}
    {r r' : Redis} (h : vault.Created t s ttl segment id raw r r')
    (hid : isValidTokenId id = true) (htyped : vault.Typed r) :
    vault.Typed r' := by
  intro k e he
  by_cases htoken : k = .token t s id
  · rw [htoken, h.token] at he
    cases he
    rw [htoken]
    trivial
  · by_cases hindex : k = .index t s segment
    · rw [hindex, h.index] at he
      cases he
      rw [hindex]
      exact hid
    · by_cases hmeta : k = .metaSet t s
      · obtain ⟨members, deadline, hset⟩ :=
          ((h.lists _).mpr (Or.inl rfl)).metaSet
        rw [hmeta, hset] at he
        cases he
        rw [hmeta]
        trivial
      · rw [h.other k htoken hindex hmeta] at he
        exact htyped k e he

/-- A moved deadline leaves the value alone. -/
theorem typed_of_map {r : Redis} {d : Option Nat} {k : VaultKey}
    {e : Entry RedisValue} (htyped : vault.Typed r)
    (he : (vault.entryAt r k).map
      (fun e => (⟨e.value, d⟩ : Entry RedisValue)) = some e) :
    Fits k e.value := by
  obtain ⟨e', he', rfl⟩ := Option.map_eq_some_iff.mp he
  exact htyped k e' he'

theorem Reused.typed {ttl : Nat} {segment id : Text} {r r' : Redis}
    (h : vault.Reused t s ttl segment id r r') (htyped : vault.Typed r) :
    vault.Typed r' := by
  intro k e he
  by_cases htoken : k = .token t s id
  · rw [htoken, h.token] at he
    rw [htoken]
    exact typed_of_map htyped he
  · by_cases hindex : k = .index t s segment
    · rw [hindex, h.index] at he
      rw [hindex]
      exact typed_of_map htyped he
    · rw [h.other k htoken hindex] at he
      exact htyped k e he

theorem Touched.typed {ttl : Nat} {r r' : Redis}
    (h : vault.Touched t s ttl r r') (htyped : vault.Typed r) :
    vault.Typed r' := by
  intro k e he
  by_cases hmeta : k = .metaSet t s
  · rw [hmeta, h.metaSet] at he
    rw [hmeta]
    exact typed_of_map htyped he
  · rw [h.other k hmeta] at he
    exact htyped k e he

-- ==================================================== one round

theorem typed_write {r : Redis} (htyped : vault.Typed r) {k : VaultKey}
    {e : Entry RedisValue} (hlive : e.LiveAt r.now)
    (hfits : Fits k e.value) :
    vault.Typed (r.putKeys (r.keys.write (vault.render k) e)) := by
  intro k' e' he
  rw [entryAt_write r k k' hlive] at he
  by_cases hk : k' = k
  · rw [if_pos hk] at he
    cases he
    rw [hk]
    exact hfits
  · rw [if_neg hk] at he
    exact htyped k' e' he

/-- What the meta set lists after one more member. -/
theorem lists_withMember {r r' : Redis} (htyped : vault.Typed r)
    {member : Text}
    (hat : vault.entryAt r' (.metaSet t s) =
      some (withMember member (vault.entryAt r (.metaSet t s)))) (m : Text) :
    vault.Lists t s r' m ↔ m = member ∨ vault.Lists t s r m := by
  unfold Lists
  rw [hat]
  cases hmeta : vault.entryAt r (.metaSet t s) with
  | none => simp [withMember]
  | some e =>
      obtain ⟨members, hset⟩ := htyped.metaSet hmeta
      cases e with
      | mk value deadline =>
          cases hset
          simp [withMember, mem_insertMember]

variable (vault t s)

/-- The script's arguments for one candidate. -/
def scriptEntry (segment id : Text) (raw : Bytes) : Redis.ScriptEntry where
  fingerprintKey := vault.render (.index t s segment)
  candidateKey := vault.render (.token t s id)
  candidateId := id
  envelope := raw

variable {vault t s}

theorem createEntry_spec {r : Redis} (htyped : vault.Typed r) (ttl : Nat)
    (segment : Text) {id : Text} (hid : isValidTokenId id = true)
    (raw : Bytes) :
    ∃ r', runIn (Redis.createEntry (vault.render (.metaSet t s)) ttl
        (vault.scriptEntry t s segment id raw)) r =
        (.ok [.bulk id, .int 1], r') ∧
      vault.Created t s ttl segment id raw r r' := by
  -- the two writes, then the two members
  have hlive : r.now ≤ r.deadline ttl := le_deadline r ttl
  have htyped1 := @typed_write vault r htyped (.token t s id)
    ⟨.blob raw, some (r.deadline ttl)⟩ (Entry.liveAt_some.mpr hlive) trivial
  have h1 := fun k => @entryAt_write vault r (.token t s id) k
    ⟨.blob raw, some (r.deadline ttl)⟩
  generalize hr1 : r.putKeys (r.keys.write (vault.render (.token t s id))
    ⟨.blob raw, some (r.deadline ttl)⟩) = r1 at htyped1 h1
  have hnow1 : r1.now = r.now := by rw [← hr1]; rfl
  have hd1 : r1.deadline ttl = r.deadline ttl := by
    unfold Redis.deadline
    rw [hnow1]
  have hlive1 : (⟨.text id, some (r1.deadline ttl)⟩ :
      Entry RedisValue).LiveAt r1.now :=
    Entry.liveAt_some.mpr (le_deadline r1 ttl)
  have htyped2 := @typed_write vault r1 htyped1 (.index t s segment) _
    hlive1 hid
  have h2 := fun k => @entryAt_write vault r1 (.index t s segment) k
    ⟨.text id, some (r1.deadline ttl)⟩
  generalize hr2 : r1.putKeys (r1.keys.write
    (vault.render (.index t s segment))
    ⟨.text id, some (r1.deadline ttl)⟩) = r2 at htyped2 h2
  have hnow2 : r2.now = r1.now := by rw [← hr2]; rfl
  obtain ⟨r3, hrun3, hnow3, h3⟩ := runIn_sadd htyped2 t s
    (vault.render (.token t s id))
  have htyped3 : vault.Typed r3 := by
    intro k e he
    rw [h3 k] at he
    by_cases hmeta : k = .metaSet t s
    · rw [if_pos hmeta] at he
      cases he
      rw [hmeta]
      unfold withMember
      split
      · trivial
      · trivial
    · rw [if_neg hmeta] at he
      exact htyped2 k e he
  obtain ⟨r4, hrun4, hnow4, h4⟩ := runIn_sadd htyped3 t s
    (vault.render (.index t s segment))
  have hat : ∀ k, k ≠ .metaSet t s → vault.entryAt r4 k =
      if k = .index t s segment then
        some ⟨.text id, some (r.deadline ttl)⟩
      else if k = .token t s id then
        some ⟨.blob raw, some (r.deadline ttl)⟩
      else vault.entryAt r k := by
    intro k hmeta
    rw [h4, if_neg hmeta, h3, if_neg hmeta, h2 k hlive1, hd1,
      h1 k (Entry.liveAt_some.mpr hlive)]
  have hmeta2 : ∀ m, vault.Lists t s r2 m ↔ vault.Lists t s r m := by
    intro m
    unfold Lists
    rw [h2 (.metaSet t s) hlive1, if_neg (by simp),
      h1 (.metaSet t s) (Entry.liveAt_some.mpr hlive), if_neg (by simp)]
  refine ⟨r4, ?_, ?_⟩
  · unfold Redis.createEntry
    rw [bind_ok_iff]
    refine ⟨(), r1, congrArg _ hr1, ?_⟩
    rw [bind_ok_iff]
    refine ⟨(), r2, congrArg _ hr2, ?_⟩
    rw [bind_ok_iff]
    refine ⟨(), r3, hrun3, ?_⟩
    rw [bind_ok_iff]
    exact ⟨(), r4, hrun4, rfl⟩
  · refine ⟨?_, ?_, ?_, ?_, ?_⟩
    · rw [hnow4, hnow3, hnow2, hnow1]
    · rw [hat _ (by simp), if_neg (by simp), if_pos rfl]
    · rw [hat _ (by simp), if_pos rfl]
    · intro m
      rw [lists_withMember htyped3 (by rw [h4, if_pos rfl]),
        lists_withMember htyped2 (by rw [h3, if_pos rfl]), hmeta2]
    · intro k htoken hindex hmeta
      rw [hat k hmeta, if_neg hindex, if_neg htoken]

/-- A round of the loop: it finds the entry's pair, or writes it anew. -/
theorem writeEntry_cases {r : Redis} (htyped : vault.Typed r) (ttl : Nat)
    (segment : Text) {id : Text} (hid : isValidTokenId id = true)
    (raw : Bytes) :
    ∃ r' found flag, runIn (Redis.writeEntry (vault.render (.metaSet t s))
        (vault.sessionPrefix t s ++ tokenSegment) ttl
        (vault.scriptEntry t s segment id raw)) r =
        (.ok [.bulk found, .int flag], r') ∧
      isValidTokenId found = true ∧
      (vault.Reused t s ttl segment found r r' ∨
        found = id ∧ vault.Created t s ttl segment id raw r r' ∧
          ∀ other e, vault.entryAt r (.index t s segment) = some e →
            e.value = .text other →
              vault.entryAt r (.token t s other) = none) := by
  obtain ⟨r', hcreate, hcreated⟩ :=
    @createEntry_spec vault t s r htyped ttl segment id hid raw
  have hget : ∀ (α : Type) (f : Option Bytes → Eff Redis RedisError α) v,
      runIn (Redis.get (vault.render (.index t s segment))) r =
        (.ok v, r) →
      runIn (Redis.get (vault.render (.index t s segment)) >>= f) r =
        runIn (f v) r := by
    intro α f v h
    rw [runIn_bind, h]
  unfold Redis.writeEntry
  cases hindex : vault.entryAt r (.index t s segment) with
  | none =>
      refine ⟨r', id, 1, ?_, hid, Or.inr ⟨rfl, hcreated, ?_⟩⟩
      · have hnone : runIn (Redis.get (vault.render
            (.index t s segment))) r = (.ok none, r) := by
          have hpeek : r.peek (vault.render (.index t s segment)) =
            none := hindex
          unfold Redis.get Redis.stringAt
          rw [runIn_act, hpeek]
        exact (hget _ _ _ hnone).trans hcreate
      · intro other e he
        cases he
  | some e =>
      obtain ⟨found, hvalue, hfound⟩ := htyped.index hindex
      have hsome : runIn (Redis.get (vault.render
          (.index t s segment))) r =
            (.ok (some (encodeUtf8 found)), r) := by
        have hpeek : r.peek (vault.render (.index t s segment)) =
          some e := hindex
        unfold Redis.get Redis.stringAt
        rw [runIn_act, hpeek]
        cases e with
        | mk value deadline =>
            cases hvalue
            rfl
      have hrender : ∀ x, vault.sessionPrefix t s ++ tokenSegment ++ x =
          vault.render (.token t s x) := vault.recordPrefix_append t s
      cases htoken : vault.entryAt r (.token t s found) with
      | none =>
          refine ⟨r', id, 1, ?_, hid, Or.inr ⟨rfl, hcreated, ?_⟩⟩
          · refine (hget _ _ _ hsome).trans ?_
            have hpeek : r.peek (vault.render (.token t s found)) =
              none := htoken
            simp only [hrender, Option.bind_some, decodeUtf8_encodeUtf8]
            rw [runIn_bind]
            unfold Redis.keyExists
            rw [runIn_act, hpeek]
            exact hcreate
          · intro other e' he' hother
            cases he'
            rw [hvalue] at hother
            cases hother
            exact htoken
      | some e' =>
          have hpeek : r.peek (vault.render (.token t s found)) =
            some e' := htoken
          -- the index entry's deadline, then the record's
          have h1 := @entryAt_extend vault r ttl (.index t s segment)
          generalize hr1 : r.putKeys (r.keys.extend r.now
            (vault.render (.index t s segment)) (r.deadline ttl)) = r1
            at h1
          have hnow1 : r1.now = r.now := by rw [← hr1]; rfl
          have hd1 : r1.deadline ttl = r.deadline ttl := by
            unfold Redis.deadline
            rw [hnow1]
          have h2 := @entryAt_extend vault r1 ttl (.token t s found)
          generalize hr2 : r1.putKeys (r1.keys.extend r1.now
            (vault.render (.token t s found)) (r1.deadline ttl)) = r2
            at h2
          have hnow2 : r2.now = r1.now := by rw [← hr2]; rfl
          refine ⟨r2, found, 0, ?_, hfound, Or.inl ⟨?_, ⟨e, hindex, hvalue⟩,
            ⟨e', htoken⟩, ?_, ?_, ?_⟩⟩
          · refine (hget _ _ _ hsome).trans ?_
            simp only [hrender, Option.bind_some, decodeUtf8_encodeUtf8]
            rw [runIn_bind]
            unfold Redis.keyExists
            rw [runIn_act, hpeek]
            show runIn (Redis.expire _ ttl >>= _) r = _
            rw [bind_ok_iff]
            refine ⟨(), r1, congrArg _ hr1, ?_⟩
            rw [bind_ok_iff]
            exact ⟨(), r2, congrArg _ hr2, rfl⟩
          · rw [hnow2, hnow1]
          · rw [h2, if_pos rfl, h1, if_neg (by simp), hd1]
          · rw [h2, if_neg (by simp), h1, if_pos rfl]
          · intro k hk1 hk2
            rw [h2, if_neg hk1, h1, if_neg hk2]

-- ==================================================== the loop

/-- What one entry brings to the script. -/
structure Candidate where
  segment : Text
  id : Text
  raw : Bytes

variable (vault t s)

def Candidate.scriptEntry (c : Candidate) : Redis.ScriptEntry :=
  vault.scriptEntry t s c.segment c.id c.raw

/-- The rounds of the loop, with the token id each of them answered. -/
inductive Rounds (ttl : Nat) :
    List Candidate → List Text → Redis → Redis → Prop
  | nil (r : Redis) : Rounds ttl [] [] r r
  | reused {c : Candidate} {cs : List Candidate} {found : Text}
      {ids : List Text} {r r' r'' : Redis}
      (head : vault.Reused t s ttl c.segment found r r')
      (tail : Rounds ttl cs ids r' r'') :
      Rounds ttl (c :: cs) (found :: ids) r r''
  | created {c : Candidate} {cs : List Candidate} {ids : List Text}
      {r r' r'' : Redis}
      (head : vault.Created t s ttl c.segment c.id c.raw r r')
      (stale : ∀ other e,
        vault.entryAt r (.index t s c.segment) = some e →
          e.value = .text other →
            vault.entryAt r (.token t s other) = none)
      (tail : Rounds ttl cs ids r' r'') :
      Rounds ttl (c :: cs) (c.id :: ids) r r''

/-- A whole run of the script. -/
def Scripted (ttl : Nat) (cs : List Candidate) (ids : List Text)
    (r r'' : Redis) : Prop :=
  ∃ r', vault.Rounds t s ttl cs ids r r' ∧ vault.Touched t s ttl r' r''

variable {vault t s}

/-- The script's answer: each id with the flag of its round. -/
def pairsOf (ids : List Text) (flags : List Int) : List Redis.Reply :=
  (ids.zip flags).flatMap
    (fun p => [Redis.Reply.bulk p.1, Redis.Reply.int p.2])

theorem writeEntries_spec (ttl : Nat) (cs : List Candidate) :
    ∀ {r : Redis}, vault.Typed r →
      (∀ c ∈ cs, isValidTokenId c.id = true) →
      ∃ r' ids flags, runIn (Redis.writeEntries
          (vault.render (.metaSet t s))
          (vault.sessionPrefix t s ++ tokenSegment) ttl
          (cs.map (Candidate.scriptEntry vault t s))) r =
          (.ok (pairsOf ids flags), r') ∧
        vault.Rounds t s ttl cs ids r r' ∧ vault.Typed r' ∧
        ids.length = cs.length ∧ flags.length = cs.length ∧
        ∀ id ∈ ids, isValidTokenId id = true := by
  induction cs with
  | nil =>
      intro r htyped _
      refine ⟨r, [], [], rfl, .nil r, htyped, rfl, rfl, ?_⟩
      intro id hid
      exact absurd hid (List.not_mem_nil)
  | cons c cs ih =>
      intro r htyped hvalid
      obtain ⟨hc, hcs⟩ := List.forall_mem_cons.mp hvalid
      obtain ⟨r1, found, flag, hrun, hfound, hcase⟩ :=
        @writeEntry_cases vault t s r htyped ttl c.segment c.id hc c.raw
      have htyped1 : vault.Typed r1 := by
        rcases hcase with hreused | ⟨-, hcreated, -⟩
        · exact hreused.typed htyped
        · exact hcreated.typed hc htyped
      obtain ⟨r2, ids, flags, hrest, hrounds, htyped2, hids, hflags,
        hall⟩ := ih htyped1 hcs
      refine ⟨r2, found :: ids, flag :: flags, ?_, ?_, htyped2, ?_, ?_, ?_⟩
      · rw [List.map_cons]
        unfold Redis.writeEntries
        rw [bind_ok_iff]
        refine ⟨_, r1, hrun, ?_⟩
        rw [bind_ok_iff]
        exact ⟨_, r2, hrest, rfl⟩
      · rcases hcase with hreused | ⟨rfl, hcreated, hstale⟩
        · exact .reused hreused hrounds
        · exact .created hcreated hstale hrounds
      · rw [List.length_cons, List.length_cons, hids]
      · rw [List.length_cons, List.length_cons, hflags]
      · exact List.forall_mem_cons.mpr ⟨hfound, hall⟩

/-- The batch script on a typed keyspace: it answers one valid id for each
candidate. -/
theorem batchWrite_spec (ttl : Nat) {cs : List Candidate} {r : Redis}
    (htyped : vault.Typed r)
    (hvalid : ∀ c ∈ cs, isValidTokenId c.id = true) :
    ∃ r' ids flags, runIn (Redis.batchWrite (vault.render (.metaSet t s))
        (vault.sessionPrefix t s ++ tokenSegment) ttl
        (cs.map (Candidate.scriptEntry vault t s))) r =
        (.ok (pairsOf ids flags), r') ∧
      vault.Scripted t s ttl cs ids r r' ∧
      ids.length = cs.length ∧ flags.length = cs.length ∧
      ∀ id ∈ ids, isValidTokenId id = true := by
  obtain ⟨r1, ids, flags, hrun, hrounds, -, hids, hflags, hall⟩ :=
    @writeEntries_spec vault t s ttl cs r htyped hvalid
  have h := @entryAt_extend vault r1 ttl (.metaSet t s)
  refine ⟨r1.putKeys (r1.keys.extend r1.now
    (vault.render (.metaSet t s)) (r1.deadline ttl)), ids, flags, ?_,
    ⟨r1, hrounds, rfl, ?_, ?_⟩, hids, hflags, hall⟩
  · unfold Redis.batchWrite
    rw [bind_ok_iff]
    refine ⟨_, r1, hrun, ?_⟩
    rw [bind_ok_iff]
    exact ⟨(), _, rfl, rfl⟩
  · rw [h, if_pos rfl]
  · intro k hk
    rw [h, if_neg hk]

/-- What each round preserves, the rounds preserve. -/
theorem Rounds.preserve {P : Redis → Prop} {ttl : Nat}
    {cs : List Candidate} {ids : List Text} {r r' : Redis}
    (h : vault.Rounds t s ttl cs ids r r')
    (hreused : ∀ segment found q q', P q →
      vault.Reused t s ttl segment found q q' → P q')
    (hcreated : ∀ c ∈ cs, ∀ q q', P q →
      vault.Created t s ttl c.segment c.id c.raw q q' → P q')
    (hstart : P r) : P r' := by
  induction h with
  | nil r => exact hstart
  | reused head tail ih =>
      apply ih (fun c hc => hcreated c (List.mem_cons_of_mem _ hc))
      exact hreused _ _ _ _ hstart head
  | created head stale tail ih =>
      apply ih (fun c hc => hcreated c (List.mem_cons_of_mem _ hc))
      exact hcreated _ List.mem_cons_self _ _ hstart head

theorem Rounds.now_eq {ttl : Nat} {cs : List Candidate} {ids : List Text}
    {r r' : Redis} (h : vault.Rounds t s ttl cs ids r r') :
    r'.now = r.now := by
  refine h.preserve (P := fun q => q.now = r.now) ?_ ?_ rfl
  · intro _ _ q q' hq hreused
    exact hreused.now_eq.trans hq
  · intro _ _ q q' hq hcreated
    exact hcreated.now_eq.trans hq

end PrivacyGateway.Vault.RedisTokenVault
