/-
What a record keeps over its lifetime.

A record is written once, under an id drawn for it; afterwards only its
deadline moves. So a record that is live at the end of a run, under an id
that was drawn before the run, is the record that was live at its start
(`run_carries`). Both this and the invariant `Minted` need the ids drawn
up to the end of the run to be distinct, and nothing else.

`run_world` says that the tokens the state remembers for the proofs'
sake influence nothing.
-/
import PrivacyGateway.Vault.Proofs.Bindings

namespace PrivacyGateway.Vault.RedisTokenVault

open Effect Tokenization

variable {vault : RedisTokenVault} {t s : UUID} {st : VaultState}

-- ==================================================== one step

/-- Draws are only added. -/
theorem step_drawn_le (htyped : vault.Typed st.world.redis)
    (op : VaultOp) :
    st.world.idsDrawn ≤ (vault.step st op).world.idsDrawn := by
  cases op with
  | batch t s entries ttlSeconds =>
      rcases step_batch (t := t) (s := s) htyped entries ttlSeconds with
        ⟨-, hdrawn, -, -⟩ | ⟨ttl, cs, ids, tokens, -, hb, -, -⟩
      · exact hdrawn
      · rw [hb.drawn_eq]
        exact Nat.le_add_right _ _
  | resolve t s tokens =>
      rw [step_resolve]
  | wait d => exact le_refl _
  | delete t s =>
      obtain ⟨members, r', hstep, -, -⟩ := @step_delete vault t s st htyped
      rw [hstep]
  | list t s =>
      obtain ⟨members, hstep, -⟩ := @step_list vault t s st htyped
      rw [hstep]
  | erase i =>
      rcases @step_erase vault st i with
        ⟨-, hstep⟩ | ⟨listing, r', -, hstep, -⟩
      · rw [hstep]
      · rw [hstep]

theorem elapse_shrinks (w : World) (d : Nat) :
    Shrinks vault w.redis (w.elapse d).redis := by
  intro k v hv
  obtain ⟨deadline, hlive⟩ := valueAt_eq_some_iff.mp hv
  exact valueAt_eq_some_iff.mpr ⟨deadline, (entryAt_elapse_iff.mp hlive).1⟩

theorem Erased.shrinks {members : List Text} {r r' : Redis}
    (h : vault.Erased t s members r r') : Shrinks vault r r' := by
  intro k v hv
  by_cases hgone : k = .metaSet t s ∨
      (k.session = (t, s) ∧ vault.render k ∈ members)
  · unfold valueAt at hv
    rw [h.gone k hgone] at hv
    cases hv
  · rw [← valueAt_congr (h.kept k hgone)]
    exact hv

/-- What a step does to the server: it writes nothing, runs a batch, or
takes values away. -/
theorem step_shrinks (htyped : vault.Typed st.world.redis) (op : VaultOp) :
    Shrinks vault st.world.redis (vault.step st op).world.redis ∨
    ∃ t s entries ttl cs ids tokens, op = .batch t s entries (ttl : Nat) ∧
      vault.Batched t s entries ttl cs ids st.world
        (vault.step st op).world tokens := by
  cases op with
  | batch t s entries ttlSeconds =>
      rcases step_batch (t := t) (s := s) htyped entries ttlSeconds with
        ⟨hredis, -, -, -⟩ | ⟨ttl, cs, ids, tokens, rfl, hb, -, -⟩
      · left
        rw [hredis]
        exact fun k v hv => hv
      · exact Or.inr ⟨t, s, entries, ttl, cs, ids, tokens, rfl, hb⟩
  | resolve t s tokens =>
      rw [step_resolve]
      exact Or.inl (fun k v hv => hv)
  | wait d => exact Or.inl (elapse_shrinks st.world d)
  | delete t s =>
      obtain ⟨members, r', hstep, -, herased⟩ :=
        @step_delete vault t s st htyped
      rw [hstep]
      exact Or.inl herased.shrinks
  | list t s =>
      obtain ⟨members, hstep, -⟩ := @step_list vault t s st htyped
      rw [hstep]
      exact Or.inl (fun k v hv => hv)
  | erase i =>
      rcases @step_erase vault st i with
        ⟨-, hstep⟩ | ⟨listing, r', -, hstep, herased⟩
      · rw [hstep]
        exact Or.inl (fun k v hv => hv)
      · rw [hstep]
        exact Or.inl herased.shrinks

theorem Minted.step (h : vault.Minted st.world.idsDrawn st.world.redis)
    {op : VaultOp}
    (hdistinct : vault.secrets.DistinctBelow
      (vault.step st op).world.idsDrawn) :
    vault.Minted (vault.step st op).world.idsDrawn
      (vault.step st op).world.redis := by
  rcases step_shrinks h.typed op with
    hshrinks | ⟨t, s, entries, ttl, cs, ids, tokens, -, hb⟩
  · exact (h.shrinks hshrinks).mono (step_drawn_le h.typed op)
  · exact (hb.bindings h hdistinct).1

-- ==================================================== one record

/-- The ids of sealed candidates are the draws that were made for them. -/
theorem SealedFrom.drawn {n : Nat} {entries : List VaultWriteRequest}
    {cs : List Candidate} (h : vault.SealedFrom t s n entries cs) :
    ∀ c ∈ cs, ∃ j, n ≤ j ∧ j < n + entries.length ∧
      c.id = encodeCrockford (vault.secrets.tokenBytes j) := by
  induction h with
  | nil n =>
      intro c hc
      exact absurd hc (List.not_mem_nil)
  | @cons n entry entries c cs hsegment hid hholds tail ih =>
      intro c' hc'
      rw [List.length_cons]
      rcases List.mem_cons.mp hc' with rfl | hc'
      · exact ⟨n, le_refl n, by omega, hid⟩
      · obtain ⟨j, hle, hlt, hj⟩ := ih c' hc'
        exact ⟨j, by omega, by omega, hj⟩

/-- A batch writes no record under an id drawn before it. -/
theorem Batched.carries {t' s' : UUID} {entries : List VaultWriteRequest}
    {ttl : Nat} {cs : List Candidate} {ids : List Text} {w w' : World}
    {tokens : List Text}
    (h : vault.Batched t' s' entries ttl cs ids w w' tokens)
    (hdistinct : vault.secrets.DistinctBelow w'.idsDrawn) {id : Text}
    (hid : vault.Drawn w.idsDrawn id) {v : RedisValue}
    (hv : vault.valueAt w'.redis (.token t s id) = some v) :
    vault.valueAt w.redis (.token t s id) = some v := by
  by_cases hsession : (t, s) = (t', s')
  · cases hsession
    obtain ⟨q, hrounds, htouched⟩ := h.scripted
    rw [htouched.values] at hv
    refine hrounds.preserve
      (P := fun p => vault.valueAt p (.token t s id) = some v →
        vault.valueAt w.redis (.token t s id) = some v) ?_ ?_
      (fun hv => hv) hv
    · intro _ _ p p' hp hreused hv'
      rw [hreused.values] at hv'
      exact hp hv'
    · intro c hc p p' hp hcreated hv'
      obtain ⟨j, hle, hlt, hj⟩ := h.candidates_sealed.drawn c hc
      have hne : id ≠ c.id := by
        rw [hj]
        apply hid.ne _ hle
        apply hdistinct.mono
        rw [h.drawn_eq]
        omega
      rw [hcreated.values (by simp), if_neg (by simpa using hne),
        if_neg (by simp)] at hv'
      exact hp hv'
  · rw [← valueAt_congr (h.scripted.frame (k := .token t s id) hsession)]
    exact hv

-- ==================================================== whole runs

theorem step_carries (hminted : vault.Minted st.world.idsDrawn
      st.world.redis) {op : VaultOp}
    (hdistinct : vault.secrets.DistinctBelow
      (vault.step st op).world.idsDrawn) {id : Text}
    (hid : vault.Drawn st.world.idsDrawn id) {v : RedisValue}
    (hv : vault.valueAt (vault.step st op).world.redis (.token t s id) =
      some v) :
    vault.valueAt st.world.redis (.token t s id) = some v := by
  rcases step_shrinks hminted.typed op with
    hshrinks | ⟨t, s, entries, ttl, cs, ids, tokens, -, hb⟩
  · exact hshrinks _ _ hv
  · exact hb.carries hdistinct hid hv

theorem run_concat (ops : List VaultOp) (op : VaultOp) :
    vault.run st (ops ++ [op]) = vault.step (vault.run st ops) op := by
  unfold run
  rw [List.foldl_append]
  rfl

theorem run_drawn_le (hsound : vault.Sound st) (ops : List VaultOp) :
    st.world.idsDrawn ≤ (vault.run st ops).world.idsDrawn := by
  induction ops using List.reverseRecOn with
  | nil => exact le_refl _
  | append_singleton ops op ih =>
      have hhere : vault.Sound (vault.run st ops) :=
        (hsound.throughout ops).last
      rw [run_concat]
      exact le_trans ih (step_drawn_le hhere.typed op)

/-- Over a run the invariant of the ids is kept, and a record that is live
after it under an id drawn before it was live before it, with the same
value. -/
theorem run_carries
    (hminted : vault.Minted st.world.idsDrawn st.world.redis)
    (hsound : vault.Sound st) (ops : List VaultOp)
    (hdistinct : vault.secrets.DistinctBelow
      (vault.run st ops).world.idsDrawn) :
    vault.Minted (vault.run st ops).world.idsDrawn
      (vault.run st ops).world.redis ∧
    ∀ t s id v, vault.Drawn st.world.idsDrawn id →
      vault.valueAt (vault.run st ops).world.redis (.token t s id) =
        some v →
      vault.valueAt st.world.redis (.token t s id) = some v := by
  induction ops using List.reverseRecOn with
  | nil => exact ⟨hminted, fun _ _ _ _ _ hv => hv⟩
  | append_singleton ops op ih =>
      have hhere : vault.Sound (vault.run st ops) :=
        (hsound.throughout ops).last
      have hmore := step_drawn_le hhere.typed op
      rw [run_concat] at hdistinct ⊢
      obtain ⟨hminted', hcarries⟩ := ih (hdistinct.mono hmore)
      refine ⟨hminted'.step hdistinct, ?_⟩
      intro t s id v hid hv
      exact hcarries t s id v hid (step_carries hminted' hdistinct
        (hid.mono (run_drawn_le hsound ops)) hv)

theorem minted_start : vault.Minted 0 VaultState.start.world.redis := by
  refine ⟨sound_start.typed, ?_, ?_, ?_, ?_⟩
  · intro t s id v hv
    cases hv
  · intro t s segment id hv
    cases hv
  · intro t s id v hv
    cases hv
  · intro t s segment id v hv
    cases hv

/-- Every reachable state satisfies the invariant of the ids, if the ids
drawn up to it are distinct. -/
theorem run_minted {ops : List VaultOp}
    (hdistinct : vault.secrets.DistinctBelow
      (vault.run VaultState.start ops).world.idsDrawn) :
    vault.Minted (vault.run VaultState.start ops).world.idsDrawn
      (vault.run VaultState.start ops).world.redis :=
  (run_carries minted_start sound_start ops hdistinct).1

/-- The remembered tokens influence nothing. -/
theorem run_world {st st' : VaultState} (hworld : st.world = st'.world)
    (hpending : st.pending = st'.pending) (ops : List VaultOp) :
    (vault.run st ops).world = (vault.run st' ops).world := by
  have hstep : ∀ (st st' : VaultState) op, st.world = st'.world →
      st.pending = st'.pending →
      (vault.step st op).world = (vault.step st' op).world ∧
        (vault.step st op).pending = (vault.step st' op).pending := by
    intro st st' op hworld hpending
    cases op with
    | batch t s entries ttlSeconds =>
        unfold step
        simp only [hworld]
        split
        · exact ⟨rfl, hpending⟩
        · exact ⟨rfl, hpending⟩
    | resolve t s tokens =>
        unfold step
        simp only [hworld, hpending, and_self]
    | wait d =>
        unfold step
        simp only [hworld, hpending, and_self]
    | delete t s =>
        unfold step
        simp only [hworld, hpending, and_self]
    | list t s =>
        unfold step
        simp only [hworld]
        split
        · exact ⟨rfl, by rw [hpending]⟩
        · exact ⟨rfl, hpending⟩
    | erase i =>
        unfold step
        simp only [hpending]
        split
        · exact ⟨hworld, hpending⟩
        · exact ⟨by rw [hworld], rfl⟩
  induction ops generalizing st st' with
  | nil => exact hworld
  | cons op ops ih =>
      obtain ⟨hw, hp⟩ := hstep st st' op hworld hpending
      exact ih hw hp

end PrivacyGateway.Vault.RedisTokenVault
