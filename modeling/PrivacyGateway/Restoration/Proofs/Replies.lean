/-
What restoring a reply gives, token by token.

A token found in a reply stands for something in the session, or it does
not, or it carries the id of a live record of another type. `Restores`
says what becomes of a reply from these cases alone: every token that
stands for something is replaced by its original, every other one by what
the policy says of unknown tokens, and a retyped token leaves nothing to
return. `restore_returns_iff` is that restoring does this and no more.
-/
import PrivacyGateway.Lib.Aligned
import PrivacyGateway.Restoration.Pipeline
import PrivacyGateway.Vault.Proofs.Resolution

namespace PrivacyGateway.Restoration

open Effect Splice Tokenization Vault RedisTokenVault

/-- The vault, as the restorer sees it. -/
def resolver (vault : RedisTokenVault) : VaultLike World where
  resolveMany := vault.resolveMany

/-- What is written in place of a token that stands for nothing. -/
def unknownText (action : UnknownTokenAction) (token : Token) : Text :=
  if action = .redact then renderRedaction token.entityType
  else token.text

section Replies

variable (vault : RedisTokenVault) (t s : UUID) (r : Redis)
  (action : UnknownTokenAction)

/-- The patch replaces the token by what stands in for it. -/
structure StandsIn (found : TokenMatch) (p : Patch Char) : Prop where
  start_eq : p.start = found.start
  stop_eq : p.stop = found.stop
  body : vault.Stands t s r found.text p.body ∨
    ((∀ original, ¬ vault.Stands t s r found.text original) ∧
      action ≠ .fail ∧ p.body = unknownText action found.token)

/-- The reply restores to the text. -/
structure Restores (content restored : Text) : Prop where
  genuine : ∀ found ∈ findTokens content,
    ¬ vault.Retyped t s r found.text
  fills : ∃ ps, List.Forall₂ (StandsIn vault t s r action)
      (findTokens content) ps ∧ restored = fill content ps

variable {vault t s r action}

/-- A reply without tokens restores to itself. -/
theorem restores_of_no_tokens {content restored : Text}
    (hnone : findTokens content = []) :
    Restores vault t s r action content restored ↔
      restored = content := by
  have hself : fill content [] = content := slice_zero_length content
  constructor
  · intro h
    obtain ⟨ps, hps, hfill⟩ := h.fills
    rw [hnone, List.forall₂_nil_left_iff] at hps
    rw [hfill, hps, hself]
  · intro h
    refine ⟨?_, [], ?_, ?_⟩
    · intro found hmem
      rw [hnone] at hmem
      exact absurd hmem (List.not_mem_nil)
    · rw [hnone]
      exact .nil
    · rw [h, hself]

/-- What the vault answered, and whether the policy lets unknown tokens
pass. -/
structure Answered (vault : RedisTokenVault) (t s : UUID) (r : Redis)
    (action : UnknownTokenAction) (content : Text)
    (resolved : Dict Text Text) : Prop where
  get_iff : ∀ token original, resolved.get? token = some original ↔
    token ∈ candidatesOf (findTokens content) ∧
      vault.Stands t s r token original
  passes : ¬ (unknownOf (candidatesOf (findTokens content)) resolved ≠ [] ∧
    action = .fail)

theorem mem_candidatesOf {content : Text} {found : TokenMatch}
    (h : found ∈ findTokens content) :
    found.text ∈ candidatesOf (findTokens content) :=
  List.mem_dedup.mpr (List.mem_map_of_mem h)

/-- After an answer that passes, one patch stands in for each token. -/
theorem Answered.standsIn_iff {content : Text} {resolved : Dict Text Text}
    (h : Answered vault t s r action content resolved)
    {found : TokenMatch} (hfound : found ∈ findTokens content)
    {p : Patch Char} :
    StandsIn vault t s r action found p ↔
      p = patchFor resolved action found := by
  have hcandidate := mem_candidatesOf hfound
  have hwritten : ∀ original, vault.Stands t s r found.text original →
      patchFor resolved action found =
        ⟨found.start, found.stop, original⟩ := by
    intro original hstands
    unfold patchFor standIn
    rw [show resolved.get? found.token.text = some original from
      (h.get_iff _ _).mpr ⟨hcandidate, hstands⟩]
  have hunknown : (∀ original, ¬ vault.Stands t s r found.text original) →
      action ≠ .fail ∧ patchFor resolved action found =
        ⟨found.start, found.stop, unknownText action found.token⟩ := by
    intro hnone
    have hget : resolved.get? found.token.text = none := by
      cases hsome : resolved.get? found.token.text with
      | none => rfl
      | some original =>
          exact absurd ((h.get_iff _ _).mp hsome).2 (hnone original)
    refine ⟨?_, ?_⟩
    · intro hfail
      refine h.passes ⟨?_, hfail⟩
      apply List.ne_nil_of_mem
      refine List.mem_filter.mpr ⟨hcandidate, ?_⟩
      show (resolved.get? found.token.text).isNone = true
      rw [hget]
      rfl
    · unfold patchFor standIn unknownText
      rw [hget]
  constructor
  · intro hstands
    cases p with
    | mk start stop body =>
        cases hstands.start_eq
        cases hstands.stop_eq
        rcases hstands.body with horiginal | ⟨hnone, -, hbody⟩
        · exact (hwritten body horiginal).symm
        · rw [(hunknown hnone).2]
          exact congrArg _ hbody
  · intro hp
    rw [hp]
    by_cases hstands : ∃ original, vault.Stands t s r found.text original
    · obtain ⟨original, horiginal⟩ := hstands
      rw [hwritten original horiginal]
      exact ⟨rfl, rfl, Or.inl horiginal⟩
    · have hnone : ∀ original, ¬ vault.Stands t s r found.text original :=
        fun original horiginal => hstands ⟨original, horiginal⟩
      obtain ⟨hpass, hpatch⟩ := hunknown hnone
      rw [hpatch]
      exact ⟨rfl, rfl, Or.inr ⟨hnone, hpass, rfl⟩⟩

/-- Then the reply restores to the fill of those patches alone. -/
theorem Answered.restores_iff {content restored : Text}
    {resolved : Dict Text Text}
    (h : Answered vault t s r action content resolved)
    (hgenuine : ∀ found ∈ findTokens content,
      ¬ vault.Retyped t s r found.text) :
    Restores vault t s r action content restored ↔
      restored = fill content
        ((findTokens content).map (patchFor resolved action)) := by
  constructor
  · intro hrestores
    obtain ⟨ps, hps, hfill⟩ := hrestores.fills
    have hsame := Aligned.map_eq hps (g := id)
      (fun found hfound p hp => (h.standsIn_iff hfound).mp hp)
    rw [List.map_id] at hsame
    rw [hfill, hsame]
  · intro hfill
    refine ⟨hgenuine, _, ?_, hfill⟩
    rw [List.forall₂_map_right_iff, List.forall₂_same]
    intro found hfound
    exact (h.standsIn_iff hfound).mpr rfl

end Replies

-- ==================================================== the call

section Call

variable {vault : RedisTokenVault} {unicode : Unicode} {t s : UUID}
  {policy : PolicySnapshot} {model : Text} {limit : Nat}

/-- A reply within the limit, from a named model, restores to what
`Restores` says, and returns nothing when that says nothing. -/
theorem restore_returns_iff (hlimit : 1 ≤ limit)
    (hmodel : unicode.strip model ≠ []) {st : VaultState}
    (hsound : vault.Sound st) {content : Text}
    (hlength : content.length ≤ limit) {text : Text} :
    (∃ restored, runIn ((OutputPipeline.mk (resolver vault) limit
        hlimit).restore unicode t s
          { content := some content, model := some model } policy)
        st.world = (.ok restored, st.world) ∧ restored.text = text) ↔
      Restores vault t s st.world.redis policy.unknownOutputTokenAction
        content text := by
  have hcontent : validatedContent unicode
      { content := some content, model := some model } limit =
        .ok content := by
    unfold validatedContent
    simp only
    rw [if_neg hmodel, if_neg (by omega)]
  unfold OutputPipeline.restore
  simp only [hcontent, checked_bind_ok]
  by_cases hnone : findTokens content = []
  · rw [if_pos hnone, restores_of_no_tokens hnone]
    constructor
    · intro h
      obtain ⟨restored, hrun, rfl⟩ := h
      cases hrun
      rfl
    · intro h
      exact ⟨_, rfl, h.symm⟩
  · rw [if_neg hnone]
    by_cases hretyped : ∃ token ∈ candidatesOf (findTokens content),
        vault.Retyped t s st.world.redis token
    · -- the vault raises, and a retyped token restores to nothing
      have hraise := resolveMany_of_retyped hsound hretyped
      constructor
      · intro h
        obtain ⟨restored, hrun, -⟩ := h
        obtain ⟨resolved, w, hresolve, -⟩ := bind_ok_iff.mp hrun
        have hboth := hraise.symm.trans hresolve
        cases hboth
      · intro h
        obtain ⟨token, hmem, hbad⟩ := hretyped
        obtain ⟨found, hfound, rfl⟩ :=
          List.mem_map.mp (List.mem_dedup.mp hmem)
        exact absurd hbad (h.genuine found hfound)
    · have hgood : ∀ token ∈ candidatesOf (findTokens content),
          ¬ vault.Retyped t s st.world.redis token :=
        fun token hmem hbad => hretyped ⟨token, hmem, hbad⟩
      obtain ⟨resolved, hresolve, hget⟩ :=
        resolveMany_of_not_retyped hsound hgood
      have hgenuine : ∀ found ∈ findTokens content,
          ¬ vault.Retyped t s st.world.redis found.text :=
        fun found hfound => hgood _ (mem_candidatesOf hfound)
      by_cases hfail : unknownOf (candidatesOf (findTokens content))
          resolved ≠ [] ∧ policy.unknownOutputTokenAction = .fail
      · constructor
        · intro h
          obtain ⟨restored, hrun, -⟩ := h
          obtain ⟨resolved', w, hresolve', hrest⟩ := bind_ok_iff.mp hrun
          have hboth := hresolve.symm.trans hresolve'
          cases hboth
          rw [if_pos hfail] at hrest
          cases hrest
        · intro h
          -- an unknown token has nothing to stand in for it
          obtain ⟨token, hmem⟩ := List.exists_mem_of_ne_nil _ hfail.1
          obtain ⟨hcandidate, hnotget⟩ := List.mem_filter.mp hmem
          obtain ⟨found, hfound, rfl⟩ :=
            List.mem_map.mp (List.mem_dedup.mp hcandidate)
          obtain ⟨ps, hps, -⟩ := h.fills
          obtain ⟨p, -, hstands⟩ := Aligned.exists_right hps hfound
          rcases hstands.body with horiginal | ⟨-, hpass, -⟩
          · rw [(hget _ _).mpr ⟨hcandidate, horiginal⟩] at hnotget
            cases hnotget
          · exact absurd hfail.2 hpass
      · have hanswered : Answered vault t s st.world.redis
            policy.unknownOutputTokenAction content resolved :=
          ⟨hget, hfail⟩
        rw [hanswered.restores_iff hgenuine]
        constructor
        · intro h
          obtain ⟨restored, hrun, rfl⟩ := h
          obtain ⟨resolved', w, hresolve', hrest⟩ := bind_ok_iff.mp hrun
          have hboth := hresolve.symm.trans hresolve'
          cases hboth
          rw [if_neg hfail, substitute_eq_fill, checked_bind_ok] at hrest
          cases hrest
          rfl
        · intro h
          refine ⟨⟨text,
            { restored := resolved.length
              unknownTokens := (unknownOf
                (candidatesOf (findTokens content)) resolved).length },
            some model, none⟩, ?_, rfl⟩
          refine bind_ok_iff.mpr ⟨resolved, st.world, hresolve, ?_⟩
          rw [if_neg hfail, substitute_eq_fill, checked_bind_ok, ← h]
          rfl

end Call

end PrivacyGateway.Restoration
