/-
How long a mapping lives that is used again.

A round of the batch script that finds a pair moves both its deadlines to
the batch's own time to live, whatever they were (`Rounds.refreshed`). So
the deadlines of a mapping that a batch names do not move back exactly
when no deadline is later than that (`reuse_keeps_iff`).
-/
import PrivacyGateway.Lib.Aligned
import PrivacyGateway.Vault.Proofs.Admission

namespace PrivacyGateway.Vault.RedisTokenVault

open Effect Tokenization

/-- The second moment is not before the first; `none` is never. -/
def NotEarlier : Option Nat → Option Nat → Prop
  | _, none => True
  | none, some _ => False
  | some d, some d' => d ≤ d'

variable (vault : RedisTokenVault)

/-- The index key leads to the id, and its record is there. -/
def Leads (t s : UUID) (r : Redis) (segment id : Text)
    (indexEntry recordEntry : Entry RedisValue) : Prop :=
  vault.entryAt r (.index t s segment) = some indexEntry ∧
    indexEntry.value = .text id ∧
    vault.entryAt r (.token t s id) = some recordEntry

/-- The step moves back no deadline of a mapping that it names. -/
def KeepsLife (st : VaultState) : VaultOp → Prop
  | .batch t s entries ttlSeconds =>
      ∀ entry ∈ entries, ∀ id indexEntry recordEntry,
        vault.Leads t s st.world.redis
            (vault.indexSegment entry.entityType entry.normalizedHmac) id
            indexEntry recordEntry →
          ∃ indexEntry' recordEntry',
            vault.Leads t s
              (vault.step st (.batch t s entries ttlSeconds)).world.redis
              (vault.indexSegment entry.entityType entry.normalizedHmac) id
              indexEntry' recordEntry' ∧
            NotEarlier indexEntry.deadline indexEntry'.deadline ∧
            NotEarlier recordEntry.deadline recordEntry'.deadline
  | _ => True

/-- A batch that is accepted names no mapping with a deadline beyond its
own. -/
def ExtendsLife (st : VaultState) : VaultOp → Prop
  | .batch t s entries ttlSeconds =>
      vault.Accepts entries ttlSeconds →
        ∀ entry ∈ entries, ∀ id indexEntry recordEntry,
          vault.Leads t s st.world.redis
              (vault.indexSegment entry.entityType entry.normalizedHmac) id
              indexEntry recordEntry →
            NotEarlier indexEntry.deadline
              (some (st.world.redis.deadline ttlSeconds.toNat)) ∧
            NotEarlier recordEntry.deadline
              (some (st.world.redis.deadline ttlSeconds.toNat))
  | _ => True

variable {vault} {t s : UUID} {r r' : Redis} {ttl : Nat}
  {segment id : Text}

theorem notEarlier_refl (d : Option Nat) : NotEarlier d d := by
  cases d with
  | none => trivial
  | some d => exact le_refl d

-- ==================================================== rounds

/-- The pair is there, with one deadline. -/
def Refreshed (vault : RedisTokenVault) (t s : UUID) (segment id : Text)
    (deadline : Nat) (r : Redis) : Prop :=
  ∃ value, vault.Leads t s r segment id ⟨.text id, some deadline⟩
    ⟨value, some deadline⟩

/-- A round that finds a pair leaves an entry as it is, or moves its
deadline. -/
theorem Reused.entry {other found : Text}
    (h : vault.Reused t s ttl other found r r') {k : VaultKey}
    {e : Entry RedisValue} (he : vault.entryAt r k = some e) :
    vault.entryAt r' k = some e ∨
      vault.entryAt r' k = some ⟨e.value, some (r.deadline ttl)⟩ := by
  by_cases htoken : k = .token t s found
  · subst htoken
    rw [h.token, he]
    exact Or.inr rfl
  · by_cases hindex : k = .index t s other
    · subst hindex
      rw [h.index, he]
      exact Or.inr rfl
    · rw [h.other k htoken hindex]
      exact Or.inl he

/-- A pair that is there stays there. -/
theorem Leads.reused {other found : Text} {ei et : Entry RedisValue}
    (h : vault.Leads t s r segment id ei et)
    (hreused : vault.Reused t s ttl other found r r') :
    ∃ ei' et', vault.Leads t s r' segment id ei' et' := by
  obtain ⟨hindex, hvalue, hrecord⟩ := h
  obtain ⟨et', het'⟩ : ∃ et', vault.entryAt r' (.token t s id) =
      some et' := by
    rcases hreused.entry hrecord with h | h
    · exact ⟨_, h⟩
    · exact ⟨_, h⟩
  rcases hreused.entry hindex with h | h
  · exact ⟨_, et', h, hvalue, het'⟩
  · exact ⟨_, et', h, hvalue, het'⟩

/-- A round that writes anew writes over no pair that is there. -/
theorem Leads.created {c : Candidate} {ei et : Entry RedisValue}
    (h : vault.Leads t s r segment id ei et)
    (hcreated : vault.Created t s ttl c.segment c.id c.raw r r')
    (hstale : ∀ other e,
      vault.entryAt r (.index t s c.segment) = some e →
        e.value = .text other →
          vault.entryAt r (.token t s other) = none) :
    c.segment ≠ segment ∧
      vault.entryAt r' (.index t s segment) = some ei ∧
      ∃ et', vault.entryAt r' (.token t s id) = some et' ∧
        (et' = et ∨ et'.deadline = some (r.deadline ttl)) := by
  obtain ⟨hindex, hvalue, hrecord⟩ := h
  have hne : c.segment ≠ segment := by
    intro heq
    rw [hstale id ei (by rw [heq]; exact hindex) hvalue] at hrecord
    cases hrecord
  refine ⟨hne, ?_, ?_⟩
  · rw [hcreated.other _ (by simp) _ (by simp)]
    · exact hindex
    · intro heq
      injection heq with _ _ heq
      exact hne heq.symm
  · by_cases hid : id = c.id
    · rw [hid]
      exact ⟨_, hcreated.token, Or.inr rfl⟩
    · rw [hcreated.other _ (by simpa using hid) (by simp) (by simp)]
      exact ⟨et, hrecord, Or.inl rfl⟩

theorem Refreshed.reused {other found : Text}
    (h : Refreshed vault t s segment id (r.deadline ttl) r)
    (hreused : vault.Reused t s ttl other found r r') :
    Refreshed vault t s segment id (r.deadline ttl) r' := by
  obtain ⟨value, hindex, hvalue, hrecord⟩ := h
  refine ⟨value, ?_, hvalue, ?_⟩
  · rcases hreused.entry hindex with h | h
    · exact h
    · exact h
  · rcases hreused.entry hrecord with h | h
    · exact h
    · exact h

theorem Refreshed.created {c : Candidate}
    (h : Refreshed vault t s segment id (r.deadline ttl) r)
    (hcreated : vault.Created t s ttl c.segment c.id c.raw r r')
    (hstale : ∀ other e,
      vault.entryAt r (.index t s c.segment) = some e →
        e.value = .text other →
          vault.entryAt r (.token t s other) = none) :
    Refreshed vault t s segment id (r.deadline ttl) r' := by
  obtain ⟨value, hleads⟩ := h
  obtain ⟨-, hindex, ⟨value', deadline'⟩, hrecord, hsame⟩ :=
    hleads.created hcreated hstale
  have hdeadline : deadline' = some (r.deadline ttl) := by
    rcases hsame with heq | heq
    · cases heq
      rfl
    · exact heq
  subst hdeadline
  exact ⟨value', hindex, rfl, hrecord⟩

/-- A pair with the batch's deadline keeps it through the rounds. -/
theorem Rounds.keeps_refreshed {cs : List Candidate} {ids : List Text}
    (h : vault.Rounds t s ttl cs ids r r')
    (hstart : Refreshed vault t s segment id (r.deadline ttl) r) :
    Refreshed vault t s segment id (r.deadline ttl) r' := by
  induction h with
  | nil r => exact hstart
  | reused head tail ih =>
      have hnext := hstart.reused head
      rw [← deadline_congr head.now_eq ttl] at hnext ⊢
      exact ih hnext
  | created head stale tail ih =>
      have hnext := hstart.created head stale
      rw [← deadline_congr head.now_eq ttl] at hnext ⊢
      exact ih hnext

/-- A pair that one of the rounds is for gets the batch's deadline. -/
theorem Rounds.refreshed {cs : List Candidate} {ids : List Text}
    (h : vault.Rounds t s ttl cs ids r r') {ei et : Entry RedisValue}
    (hleads : vault.Leads t s r segment id ei et)
    (hmem : ∃ c ∈ cs, c.segment = segment) :
    Refreshed vault t s segment id (r.deadline ttl) r' := by
  induction h generalizing ei et with
  | nil r =>
      obtain ⟨c, hc, -⟩ := hmem
      cases hc
  | @reused c cs found ids r q r' head tail ih =>
      obtain ⟨ei', et', hnext⟩ := hleads.reused head
      rw [← deadline_congr head.now_eq ttl]
      obtain ⟨c', hc', hsegment⟩ := hmem
      rcases List.mem_cons.mp hc' with rfl | hc'
      · -- the round is the pair's own
        apply tail.keeps_refreshed
        rw [deadline_congr head.now_eq ttl]
        obtain ⟨hindex, hvalue, hrecord⟩ := hleads
        obtain ⟨e, he, hfound⟩ := head.index_found
        rw [hsegment, hindex] at he
        cases he
        rw [hvalue] at hfound
        cases hfound
        have hi := head.index
        have ht := head.token
        rw [hsegment, hindex] at hi
        rw [hrecord] at ht
        exact ⟨et.value, hi.trans (by rw [← hvalue]; rfl), rfl, ht⟩
      · exact ih hnext ⟨c', hc', hsegment⟩
  | @created c cs ids r q r' head stale tail ih =>
      obtain ⟨hne, hindex, et', hrecord, -⟩ := hleads.created head stale
      rw [← deadline_congr head.now_eq ttl]
      obtain ⟨c', hc', hsegment⟩ := hmem
      rcases List.mem_cons.mp hc' with rfl | hc'
      · exact absurd hsegment hne
      · exact ih ⟨hindex, hleads.2.1, hrecord⟩ ⟨c', hc', hsegment⟩

-- ==================================================== batches

/-- Every entry's index key is that of a candidate. -/
theorem Batched.candidate {entries : List VaultWriteRequest}
    {cs : List Candidate} {ids : List Text} {w w' : World}
    {tokens : List Text}
    (h : vault.Batched t s entries ttl cs ids w w' tokens)
    {entry : VaultWriteRequest} (hentry : entry ∈ entries) :
    ∃ c ∈ cs, c.segment =
      vault.indexSegment entry.entityType entry.normalizedHmac := by
  obtain ⟨more, found, hrun, hall, -⟩ := deduplicateFrom_spec entries
    [] [] [] (fun _ _ _ h => by cases h)
  have hunique : (deduplicate entries).1 = [] ++ more :=
    congrArg Prod.fst hrun
  obtain ⟨index, -, u, hu, hsame⟩ := Aligned.exists_right hall hentry
  rw [← hunique] at hu
  obtain ⟨c, hc, hsegment⟩ :=
    h.candidates_sealed.candidate u (List.mem_of_getElem? hu)
  refine ⟨c, hc, ?_⟩
  rw [hsegment, hsame.1, hsame.2]

/-- A mapping that a batch names has the batch's deadline afterwards. -/
theorem Batched.refreshed {entries : List VaultWriteRequest}
    {cs : List Candidate} {ids : List Text} {w w' : World}
    {tokens : List Text}
    (h : vault.Batched t s entries ttl cs ids w w' tokens)
    {entry : VaultWriteRequest} (hentry : entry ∈ entries)
    {ei et : Entry RedisValue}
    (hleads : vault.Leads t s w.redis
      (vault.indexSegment entry.entityType entry.normalizedHmac) id ei et) :
    Refreshed vault t s
      (vault.indexSegment entry.entityType entry.normalizedHmac) id
      (w.redis.deadline ttl) w'.redis := by
  obtain ⟨q, hrounds, htouched⟩ := h.scripted
  obtain ⟨value, hindex, hvalue, hrecord⟩ :=
    hrounds.refreshed hleads (h.candidate hentry)
  refine ⟨value, ?_, hvalue, ?_⟩
  · rw [htouched.other _ (by simp)]
    exact hindex
  · rw [htouched.other _ (by simp)]
    exact hrecord

/-- A batch step runs the script if the batch is accepted, and else
writes nothing. -/
theorem step_batch_accepts {st : VaultState}
    (htyped : vault.Typed st.world.redis)
    {entries : List VaultWriteRequest} (hne : entries ≠ [])
    (ttlSeconds : Int) :
    (vault.Accepts entries ttlSeconds ∧
      ∃ ttl cs ids tokens, ttlSeconds = (ttl : Nat) ∧
        vault.Batched t s entries ttl cs ids st.world
          (vault.step st (.batch t s entries ttlSeconds)).world tokens) ∨
    (¬vault.Accepts entries ttlSeconds ∧
      (vault.step st (.batch t s entries ttlSeconds)).world.redis =
        st.world.redis) := by
  by_cases haccepts : vault.Accepts entries ttlSeconds
  · obtain ⟨ttl, cs, ids, tokens, w', httl, hrun, -, hb⟩ :=
      haccepts.returns (t := t) (s := s) hne htyped
    refine Or.inl ⟨haccepts, ttl, cs, ids, tokens, httl, ?_⟩
    unfold step
    simp only [hrun]
    exact hb
  · refine Or.inr ⟨haccepts, ?_⟩
    cases hrun : runIn (vault.getOrCreateMany t s entries ttlSeconds)
        st.world with
    | mk result w' =>
        cases result with
        | ok tokens =>
            exact absurd ((getOrCreateMany_returns_iff hne htyped).mp
              ⟨tokens, w', hrun⟩) haccepts
        | error e =>
            unfold step
            simp only [hrun]
            rcases getOrCreateMany_cases htyped hrun with
              ⟨hredis, -⟩ | ⟨ttl, cs, ids, tokens, -, h, -⟩
            · exact hredis
            · cases h

/-- A step moves no deadline back exactly when no deadline of what it
names is beyond its own. -/
theorem keepsLife_iff {st : VaultState} (hsound : vault.Sound st)
    (op : VaultOp) : vault.KeepsLife st op ↔ vault.ExtendsLife st op := by
  cases op with
  | batch t s entries ttlSeconds =>
      unfold KeepsLife ExtendsLife
      by_cases hne : entries = []
      · subst hne
        exact ⟨fun _ _ _ h => (nomatch h), fun _ _ h => (nomatch h)⟩
      · rcases step_batch_accepts (t := t) (s := s) hsound.typed hne
          ttlSeconds with
          ⟨haccepts, ttl, cs, ids, tokens, rfl, hb⟩ | ⟨hrefused, hredis⟩
        · constructor
          · intro h _ entry hentry id ei et hleads
            obtain ⟨ei', et', hleads', hi, ht⟩ :=
              h entry hentry id ei et hleads
            obtain ⟨value, hindex, -, hrecord⟩ := hb.refreshed hentry hleads
            cases hindex.symm.trans hleads'.1
            cases hrecord.symm.trans hleads'.2.2
            exact ⟨hi, ht⟩
          · intro h entry hentry id ei et hleads
            obtain ⟨value, hrefreshed⟩ := hb.refreshed hentry hleads
            exact ⟨_, _, hrefreshed, h haccepts entry hentry id ei et hleads⟩
        · constructor
          · intro _ haccepts
            exact absurd haccepts hrefused
          · intro _ entry _ id ei et hleads
            rw [hredis]
            exact ⟨ei, et, hleads, notEarlier_refl _, notEarlier_refl _⟩
  | resolve t s tokens => exact Iff.rfl
  | wait d => exact Iff.rfl
  | delete t s => exact Iff.rfl
  | list t s => exact Iff.rfl
  | erase i => exact Iff.rfl

/-- Over every run: no batch moves back a deadline of a mapping it uses
again exactly when every batch's time to live reaches as far as the
mappings it names. -/
theorem reuse_keeps_iff (vault : RedisTokenVault) (ops : List VaultOp) :
    Run.Along vault.step vault.KeepsLife VaultState.start ops ↔
      Run.Along vault.step vault.ExtendsLife VaultState.start ops := by
  constructor
  · intro h before op after hsplit
    exact (keepsLife_iff (run_sound before) op).mp (h before op after hsplit)
  · intro h before op after hsplit
    exact (keepsLife_iff (run_sound before) op).mpr (h before op after hsplit)

end PrivacyGateway.Vault.RedisTokenVault

namespace PrivacyGateway.Vault.Reference

open RedisTokenVault

/-- A mapping stored for an hour, used again by a batch of one second. -/
def hourThenSecond : List VaultOp :=
  [.batch ⟨2⟩ ⟨3⟩ [adaEntry] 3600, .batch ⟨2⟩ ⟨3⟩ [adaEntry] 1]

/-- The state between the two batches. -/
def afterHour : VaultState :=
  (vault sampleHashes).run VaultState.start
    [.batch ⟨2⟩ ⟨3⟩ [adaEntry] 3600]

/-- The second batch moves the mapping's end from an hour to a second. -/
theorem short_batch_shortens :
    ¬Run.Along (vault sampleHashes).step (vault sampleHashes).KeepsLife
      VaultState.start hourThenSecond := by
  intro h
  have hkeeps : (vault sampleHashes).KeepsLife afterHour
      (.batch ⟨2⟩ ⟨3⟩ [adaEntry] 1) :=
    h [.batch ⟨2⟩ ⟨3⟩ [adaEntry] 3600] _ [] rfl
  have hrecord : ((vault sampleHashes).entryAt afterHour.world.redis
      (.token ⟨2⟩ ⟨3⟩ "00000000000000000000000000".toList)).isSome =
        true := by
    decide +kernel
  have hindex : (vault sampleHashes).entryAt afterHour.world.redis
      (.index ⟨2⟩ ⟨3⟩ ((vault sampleHashes).indexSegment
        adaEntry.entityType adaEntry.normalizedHmac)) =
      some ⟨.text "00000000000000000000000000".toList, some 3600000⟩ := by
    decide +kernel
  have hafter : ((vault sampleHashes).entryAt
      ((vault sampleHashes).step afterHour
        (.batch ⟨2⟩ ⟨3⟩ [adaEntry] 1)).world.redis
      (.index ⟨2⟩ ⟨3⟩ ((vault sampleHashes).indexSegment
        adaEntry.entityType adaEntry.normalizedHmac))).bind
          Entry.deadline = some 1000 := by
    decide +kernel
  obtain ⟨record, hrecord⟩ := Option.isSome_iff_exists.mp hrecord
  obtain ⟨ei, et, hleads, hi, -⟩ := hkeeps adaEntry List.mem_cons_self _ _ _
    ⟨hindex, rfl, hrecord⟩
  rw [hleads.1] at hafter
  have hdeadline : ei.deadline = some 1000 := hafter
  rw [hdeadline] at hi
  have hle : 3600000 ≤ 1000 := hi
  omega

end PrivacyGateway.Vault.Reference
