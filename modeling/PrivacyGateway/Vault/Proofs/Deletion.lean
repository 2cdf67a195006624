/-
When a deletion is complete.

A deletion erases what the meta set lists. `Listed` says that the live
keys of a session are in its meta set; every step keeps it except a
passage of time that outlasts the meta set and not the keys it lists
(`Listed.elapse`). A batch moves the deadline of the meta set to its own,
also when that is earlier than the deadline of a record an earlier batch
wrote, so such a passage of time exists: in `short_batch_hides_record` a
batch of one second follows a batch of two hours, and a deletion two
seconds later leaves the first record where it is.

`deletion_complete_iff` is the exact condition, for runs in which no
deletion is interleaved with other calls.
-/
import PrivacyGateway.Vault.Proofs.Resolution

namespace PrivacyGateway.Vault

open Effect Tokenization

/-- The key of a record. -/
def VaultKey.IsRecord : VaultKey → Prop
  | .token _ _ _ => True
  | _ => False

/-- A deletion is one step of the run, with nothing in between. -/
def VaultOp.Serial : VaultOp → Bool
  | .list _ _ => false
  | .erase _ => false
  | _ => true

namespace RedisTokenVault

variable (vault : RedisTokenVault) (t s : UUID)

-- ==================================================== listed keys

/-- The live keys of the session that are of this kind are in its meta
set. -/
def Listed (kind : VaultKey → Prop) (r : Redis) : Prop :=
  ∀ k, kind k → k.session = (t, s) → k ≠ .metaSet t s →
    ∀ e, vault.entryAt r k = some e → vault.Lists t s r (vault.render k)

variable {vault t s} {kind : VaultKey → Prop} {r r' : Redis}

theorem lists_congr
    (h : vault.entryAt r' (.metaSet t s) = vault.entryAt r (.metaSet t s))
    (m : Text) : vault.Lists t s r' m ↔ vault.Lists t s r m := by
  unfold Lists
  rw [h]

theorem Listed.congr
    (hsame : ∀ k, k.session = (t, s) →
      vault.entryAt r' k = vault.entryAt r k)
    (h : vault.Listed t s kind r) : vault.Listed t s kind r' := by
  intro k hkind hsession hmeta e he
  rw [lists_congr (hsame _ rfl)]
  rw [hsame k hsession] at he
  exact h k hkind hsession hmeta e he

theorem Listed.created {ttl : Nat} {segment id : Text} {raw : Bytes}
    (h : vault.Listed t s kind r)
    (hcreated : vault.Created t s ttl segment id raw r r') :
    vault.Listed t s kind r' := by
  intro k hkind hsession hmeta e he
  rw [hcreated.lists]
  by_cases hindex : k = .index t s segment
  · rw [hindex]
    exact Or.inl rfl
  · by_cases htoken : k = .token t s id
    · rw [htoken]
      exact Or.inr (Or.inl rfl)
    · rw [hcreated.other k htoken hindex hmeta] at he
      exact Or.inr (Or.inr (h k hkind hsession hmeta e he))

theorem Listed.reused {ttl : Nat} {segment id : Text}
    (h : vault.Listed t s kind r)
    (hreused : vault.Reused t s ttl segment id r r') :
    vault.Listed t s kind r' := by
  have hlists := lists_congr
    (hreused.other (.metaSet t s) (by simp) (by simp))
  intro k hkind hsession hmeta e he
  rw [hlists]
  -- a key that is live now was live before, with some entry
  have hbefore : ∃ e0, vault.entryAt r k = some e0 := by
    by_cases htoken : k = .token t s id
    · rw [htoken]
      exact hreused.token_found
    · by_cases hindex : k = .index t s segment
      · obtain ⟨e0, he0, -⟩ := hreused.index_found
        exact ⟨e0, by rw [hindex]; exact he0⟩
      · rw [hreused.other k htoken hindex] at he
        exact ⟨e, he⟩
  obtain ⟨e0, he0⟩ := hbefore
  exact h k hkind hsession hmeta e0 he0

theorem Touched.lists {ttl : Nat} (h : vault.Touched t s ttl r r')
    (m : Text) : vault.Lists t s r' m ↔ vault.Lists t s r m := by
  unfold Lists
  rw [h.metaSet]
  cases hmeta : vault.entryAt r (.metaSet t s) with
  | none => simp
  | some e =>
      cases e with
      | mk value deadline => simp

theorem Listed.touched {ttl : Nat} (h : vault.Listed t s kind r)
    (htouched : vault.Touched t s ttl r r') :
    vault.Listed t s kind r' := by
  intro k hkind hsession hmeta e he
  rw [htouched.lists]
  rw [htouched.other k hmeta] at he
  exact h k hkind hsession hmeta e he

/-- A batch lists what it writes. -/
theorem Listed.scripted {ttl : Nat} {cs : List Candidate}
    {ids : List Text} (h : vault.Listed t s kind r)
    (hscripted : vault.Scripted t s ttl cs ids r r') :
    vault.Listed t s kind r' := by
  obtain ⟨q, hrounds, htouched⟩ := hscripted
  refine Listed.touched (hrounds.preserve ?_ ?_ h) htouched
  · intro _ _ _ _ hq hreused
    exact hq.reused hreused
  · intro _ _ _ _ hq hcreated
    exact hq.created hcreated

/-- A passage of time after which a listed key is live keeps the listing
if the meta set is live after it too. -/
theorem Listed.elapse {w : World} {d : Nat}
    (h : vault.Listed t s kind w.redis)
    (hmeta : ∀ k, kind k → k.session = (t, s) → k ≠ .metaSet t s →
      ∀ e, vault.entryAt (w.elapse d).redis k = some e →
        ∃ e', vault.entryAt (w.elapse d).redis (.metaSet t s) = some e') :
    vault.Listed t s kind (w.elapse d).redis := by
  intro k hkind hsession hk e he
  obtain ⟨e', he'⟩ := hmeta k hkind hsession hk e he
  have hlists := h k hkind hsession hk e (entryAt_elapse_iff.mp he).1
  have hsame : vault.entryAt (w.elapse d).redis (.metaSet t s) =
      vault.entryAt w.redis (.metaSet t s) := by
    rw [he', (entryAt_elapse_iff.mp he').1]
  exact (lists_congr hsame _).mpr hlists

/-- A deletion that erases all that is listed leaves no listed key. -/
theorem Listed.erased {members : List Text}
    (h : vault.Listed t s kind r)
    (hmembers : ∀ m, vault.Lists t s r m → m ∈ members)
    (herased : vault.Erased t s members r r') {k : VaultKey}
    (hkind : kind k) (hsession : k.session = (t, s)) :
    vault.entryAt r' k = none := by
  by_cases hmeta : k = .metaSet t s
  · exact herased.gone k (Or.inl hmeta)
  · cases hlive : vault.entryAt r k with
    | none =>
        by_cases hgone : k = .metaSet t s ∨
            (k.session = (t, s) ∧ vault.render k ∈ members)
        · exact herased.gone k hgone
        · rw [herased.kept k hgone]
          exact hlive
    | some e =>
        exact herased.gone k (Or.inr ⟨hsession,
          hmembers _ (h k hkind hsession hmeta e hlive)⟩)

-- ==================================================== deletion

variable (vault t s)

/-- After a deletion here, no token handed out for the session resolves. -/
def DeletionComplete (st : VaultState) : Prop :=
  ∀ tokens, (∀ token ∈ tokens, (t, s, token) ∈ st.issued) →
    (runIn (vault.resolveMany t s tokens)
      (vault.step st (.delete t s)).world).1 = .ok []

/-- The meta set outlasts the records: if a record of the session is live
after a passage of time, so is the meta set. -/
def MetaOutlasts (st : VaultState) : VaultOp → Prop
  | .wait d =>
      (∃ id e, vault.entryAt (st.world.elapse d).redis (.token t s id) =
        some e) →
      ∃ e, vault.entryAt (st.world.elapse d).redis (.metaSet t s) = some e
  | _ => True

variable {vault t s}

/-- A resolution in a session without records finds nothing. -/
theorem resolveMany_of_empty {w : World}
    (h : ∀ id, vault.entryAt w.redis (.token t s id) = none)
    (tokens : List Text) :
    runIn (vault.resolveMany t s tokens) w = (.ok [], w) := by
  rw [runIn_resolveMany_readings]
  have hloop : ∀ wanted, vault.openRecords t s []
      (readings vault t s w.redis wanted) = .ok [] := by
    intro wanted
    induction wanted with
    | nil => rfl
    | cons token wanted ih =>
        show vault.openRecords t s [] ((token, _) :: _) = _
        rw [stringAt_none (h token.tokenId)]
        unfold openRecords
        exact ih
  rw [hloop]

/-- Where the records are listed, a deletion is complete. -/
theorem deletionComplete_of_listed {st : VaultState}
    (hsound : vault.Sound st)
    (h : vault.Listed t s VaultKey.IsRecord st.world.redis) :
    vault.DeletionComplete t s st := by
  obtain ⟨members, r', hstep, hmem, herased⟩ :=
    @step_delete vault t s st hsound.typed
  intro tokens _
  rw [hstep, resolveMany_of_empty]
  intro id
  exact h.erased (fun m hm => (hmem m).mpr hm) herased
    (k := .token t s id) trivial rfl

/-- Where a record is live and the meta set is not, a deletion is not
complete: the record's own token still resolves. -/
theorem not_deletionComplete {st : VaultState} (hsound : vault.Sound st)
    (hmeta : vault.entryAt st.world.redis (.metaSet t s) = none)
    {id : Text} {e : Entry RedisValue}
    (hlive : vault.entryAt st.world.redis (.token t s id) = some e) :
    ¬ vault.DeletionComplete t s st := by
  intro hcomplete
  obtain ⟨ty, original, raw, hraw, hholds, hissued⟩ :=
    hsound.genuine _ _ _ _ hlive
  have hempty := hcomplete [renderToken ty id] (by
    intro token htoken
    rw [List.mem_singleton.mp htoken]
    exact hissued)
  obtain ⟨members, r', hstep, hmem, herased⟩ :=
    @step_delete vault t s st hsound.typed
  -- nothing is listed, so the record is kept
  have hkept : vault.entryAt r' (.token t s id) = some e := by
    rw [herased.kept, hlive]
    intro hgone
    rcases hgone with hgone | ⟨-, hgone⟩
    · cases hgone
    · obtain ⟨listed, deadline, hset, -⟩ := (hmem _).mp hgone
      rw [hmeta] at hset
      cases hset
  have hafter : vault.Sound (vault.step st (.delete t s)) :=
    hsound.step _
  have hstands : vault.Stands t s
      (vault.step st (.delete t s)).world.redis (renderToken ty id)
      original := by
    rw [hstep]
    cases e with
    | mk value deadline =>
        cases hraw
        exact ⟨ty, id, raw, deadline, rfl, hkept, hholds⟩
  have hfound : ∀ d : Dict Text Text,
      (runIn (vault.resolveMany t s [renderToken ty id])
        (vault.step st (.delete t s)).world).1 = .ok d →
      d.get? (renderToken ty id) = some original := by
    intro d hd
    by_cases hbad : ∃ token ∈ [renderToken ty id], vault.Retyped t s
        (vault.step st (.delete t s)).world.redis token
    · rw [resolveMany_of_retyped hafter hbad] at hd
      cases hd
    · have hgood : ∀ token ∈ [renderToken ty id], ¬ vault.Retyped t s
          (vault.step st (.delete t s)).world.redis token :=
        fun token htoken hretyped => hbad ⟨token, htoken, hretyped⟩
      obtain ⟨d', hd', hspec⟩ := resolveMany_of_not_retyped hafter hgood
      rw [hd'] at hd
      cases hd
      exact (hspec _ _).mpr ⟨List.mem_singleton_self _, hstands⟩
  cases hfound [] hempty

/-- Every serial step keeps the records listed, as long as the meta set
outlasts them. -/
theorem Listed.step {st : VaultState} (hsound : vault.Sound st)
    (h : vault.Listed t s VaultKey.IsRecord st.world.redis) {op : VaultOp}
    (hserial : op.Serial = true) (hmeta : vault.MetaOutlasts t s st op) :
    vault.Listed t s VaultKey.IsRecord (vault.step st op).world.redis := by
  cases op with
  | batch t' s' entries ttlSeconds =>
      rcases step_batch (t := t') (s := s') hsound.typed entries
        ttlSeconds with ⟨hredis, -, -, -⟩ | ⟨ttl, cs, ids, tokens, -, hb,
          -, -⟩
      · rw [hredis]
        exact h
      · by_cases hsession : (t', s') = (t, s)
        · cases hsession
          exact h.scripted hb.scripted
        · apply h.congr
          intro k hk
          apply hb.scripted.frame
          rw [hk]
          exact fun heq => hsession heq.symm
  | resolve t' s' tokens =>
      rw [step_resolve]
      exact h
  | wait d =>
      apply h.elapse
      intro k hkind hsession hk e he
      cases k with
      | token t' s' id =>
          cases hsession
          exact hmeta ⟨id, e, he⟩
      | index t' s' segment => cases hkind
      | metaSet t' s' => cases hkind
  | delete t' s' =>
      obtain ⟨members, r', hstep, hmem, herased⟩ :=
        @step_delete vault t' s' st hsound.typed
      rw [hstep]
      by_cases hsession : (t', s') = (t, s)
      · cases hsession
        intro k hkind hk _ e he
        have hgone := h.erased (fun m hm => (hmem m).mpr hm) herased
          hkind hk
        cases hgone.symm.trans he
      · apply h.congr
        intro k hk
        apply herased.frame
        rw [hk]
        exact fun heq => hsession heq.symm
  | list t' s' => cases hserial
  | erase i => cases hserial

/-- Exactly when every deletion is complete. In a run without concurrent
deletions, a deletion at any moment leaves no token handed out for the
session resolvable if and only if no passage of time outlasts the
session's meta set and not its records. -/
theorem deletion_complete_iff (vault : RedisTokenVault) (t s : UUID)
    (ops : List VaultOp) (hserial : ∀ op ∈ ops, op.Serial = true) :
    Run.Throughout vault.step (vault.DeletionComplete t s)
        VaultState.start ops ↔
      Run.Along vault.step (vault.MetaOutlasts t s) VaultState.start
        ops := by
  constructor
  · intro hcomplete before op after hops
    cases op with
    | wait d =>
        intro hrecord
        obtain ⟨id, e, he⟩ := hrecord
        have hsound : vault.Sound
            (vault.run VaultState.start (before ++ [.wait d])) :=
          run_sound _
        have hafter := hcomplete (before ++ [.wait d]) after (by
          rw [hops, List.append_assoc]
          rfl)
        have hrun : (before ++ [VaultOp.wait d]).foldl vault.step
            VaultState.start = vault.step
              (before.foldl vault.step VaultState.start) (.wait d) := by
          rw [List.foldl_append]
          rfl
        unfold run at hsound
        rw [hrun, step_wait] at hafter hsound
        by_contra hnone
        refine not_deletionComplete hsound ?_ he hafter
        rw [Option.eq_none_iff_forall_ne_some]
        exact fun e' he' => hnone ⟨e', he'⟩
    | _ => trivial
  · intro hmeta
    have hops : Run.Along vault.step (fun _ op => op.Serial = true)
        VaultState.start ops := Run.along_of_forall hserial
    have halong := hops.and hmeta
    have hlisted := halong.invariant
      (P := fun st => vault.Sound st ∧
        vault.Listed t s VaultKey.IsRecord st.world.redis)
      (fun st op hop h => ⟨h.1.step op, h.2.step h.1 hop.1 hop.2⟩)
      ⟨sound_start, by
        intro k _ _ _ e he
        cases he⟩
    exact hlisted.imp (fun st h => deletionComplete_of_listed h.1 h.2)

end RedisTokenVault

namespace Reference

open RedisTokenVault

/-- A batch of two hours, one of a second, and a deletion two seconds
later: the first batch's token still resolves. -/
theorem short_batch_hides_record :
    let v := vault sampleHashes
    let st := v.run .start [.batch ⟨2⟩ ⟨3⟩ [adaEntry] 7200,
      .batch ⟨2⟩ ⟨3⟩ [bobEntry] 1, .wait 2000]
    (⟨2⟩, ⟨3⟩, adaToken) ∈ st.issued ∧
      (runIn (v.resolveMany ⟨2⟩ ⟨3⟩ [adaToken])
        (v.step st (.delete ⟨2⟩ ⟨3⟩)).world).1 =
          .ok [(adaToken, "Ada".toList)] := by
  decide +kernel

/-- The same run with one time to live meets the condition or not, as its
deletions are complete or not. -/
theorem two_hours_deletion_iff :
    let ops : List VaultOp := [.batch ⟨2⟩ ⟨3⟩ [adaEntry] 7200,
      .batch ⟨2⟩ ⟨3⟩ [bobEntry] 7200, .wait 2000]
    Run.Throughout (vault sampleHashes).step
        ((vault sampleHashes).DeletionComplete ⟨2⟩ ⟨3⟩) .start ops ↔
      Run.Along (vault sampleHashes).step
        ((vault sampleHashes).MetaOutlasts ⟨2⟩ ⟨3⟩) .start ops :=
  deletion_complete_iff (vault sampleHashes) ⟨2⟩ ⟨3⟩ _ (by decide)

end Reference

end PrivacyGateway.Vault
