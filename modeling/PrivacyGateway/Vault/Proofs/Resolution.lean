/-
What a resolution answers.

A string the vault is asked for either parses to a token or is skipped.
For a token there are three cases, by the record under its id: there is
none (`none`), it was sealed for this very token (`Stands`), or it was
sealed for a token with the same id and another type (`Retyped`). The
record key has no type in it, so the third case reaches the cipher, whose
associated data has; it refuses, and the refusal is an error.

`resolveMany_of_not_retyped` and `resolveMany_of_retyped` cover every
request in every sound state. `retyped_token_raises` is a run in which a
token of another type is not simply absent.
-/
import Mathlib.Data.List.Dedup
import PrivacyGateway.Vault.Proofs.Runs
import PrivacyGateway.Vault.Reference

namespace PrivacyGateway.Vault.RedisTokenVault

open Effect Tokenization

section Cases

variable (vault : RedisTokenVault) (t s : UUID)

/-- The token is live in the session, and this is its original. -/
def Stands (r : Redis) (token original : Text) : Prop :=
  ∃ ty id raw deadline, token = renderToken ty id ∧
    vault.entryAt r (.token t s id) = some ⟨.blob raw, deadline⟩ ∧
    vault.Holds t s ty id original raw

/-- The string is a token with the id of a live record of the session and
another type than the record's. -/
def Retyped (r : Redis) (token : Text) : Prop :=
  ∃ ty ty' id original raw deadline, token = renderToken ty' id ∧
    isValidEntityType ty' = true ∧ ty' ≠ ty ∧
    vault.entryAt r (.token t s id) = some ⟨.blob raw, deadline⟩ ∧
    vault.Holds t s ty id original raw

variable {vault t s} {r : Redis}

/-- A token that stands for something is a token. -/
theorem Stands.parse {token original : Text}
    (h : vault.Stands t s r token original) :
    ∃ parsed : Token, token = parsed.text := by
  obtain ⟨ty, id, raw, deadline, rfl, -, hholds⟩ := h
  exact ⟨⟨ty, id, hholds.1, hholds.2.1⟩, rfl⟩

/-- The two fields of a valid token are read back off it. -/
theorem renderToken_inj {ty id ty' id' : Text}
    (hty : isValidEntityType ty = true) (hid : isValidTokenId id = true)
    (hty' : isValidEntityType ty' = true)
    (hid' : isValidTokenId id' = true)
    (h : renderToken ty id = renderToken ty' id') : ty = ty' ∧ id = id' := by
  have hsame := @Token.text_injective ⟨ty, id, hty, hid⟩
    ⟨ty', id', hty', hid'⟩ h
  exact ⟨congrArg Token.entityType hsame, congrArg Token.tokenId hsame⟩

/-- A token stands for one original. -/
theorem Stands.unique {token original original' : Text}
    (h : vault.Stands t s r token original)
    (h' : vault.Stands t s r token original') : original' = original := by
  obtain ⟨ty, id, raw, deadline, rfl, hlive, hholds⟩ := h
  obtain ⟨ty', id', raw', deadline', htoken, hlive', hholds'⟩ := h'
  obtain ⟨rfl, rfl⟩ := renderToken_inj hholds.1 hholds.2.1 hholds'.1
    hholds'.2.1 htoken
  cases hlive.symm.trans hlive'
  exact (hholds.unique hholds').2

/-- A token that stands for something was handed out. -/
theorem Stands.issued {st : VaultState} {token original : Text}
    (hsound : vault.Sound st)
    (h : vault.Stands t s st.world.redis token original) :
    (t, s, token) ∈ st.issued := by
  obtain ⟨ty, id, raw, deadline, rfl, hlive, hholds⟩ := h
  obtain ⟨ty', original', raw', hraw, hholds', hissued⟩ :=
    hsound.genuine _ _ _ _ hlive
  cases hraw
  rw [(hholds'.unique hholds).1]
  exact hissued

theorem stringAt_none {k : VaultKey} (h : vault.entryAt r k = none) :
    r.stringAt (vault.render k) = none := by
  have hpeek : r.peek (vault.render k) = none := h
  unfold Redis.stringAt
  rw [hpeek]

theorem stringAt_blob {k : VaultKey} {raw : Bytes}
    {deadline : Option Nat}
    (h : vault.entryAt r k = some ⟨.blob raw, deadline⟩) :
    r.stringAt (vault.render k) = some raw := by
  have hpeek : r.peek (vault.render k) = some ⟨.blob raw, deadline⟩ := h
  unfold Redis.stringAt
  rw [hpeek]

/-- The three cases of a token. -/
theorem token_cases {st : VaultState} (hsound : vault.Sound st)
    (token : Token) :
    (vault.entryAt st.world.redis (.token t s token.tokenId) = none ∧
      ∀ original,
        ¬ vault.Stands t s st.world.redis token.text original) ∨
    (∃ raw deadline original,
      vault.entryAt st.world.redis (.token t s token.tokenId) =
        some ⟨.blob raw, deadline⟩ ∧
      vault.Holds t s token.entityType token.tokenId original raw) ∨
    vault.Retyped t s st.world.redis token.text := by
  cases hlive : vault.entryAt st.world.redis
      (.token t s token.tokenId) with
  | none =>
      refine Or.inl ⟨rfl, ?_⟩
      intro original h
      obtain ⟨ty, id, raw, deadline, htoken, hsome, hholds⟩ := h
      obtain ⟨-, rfl⟩ := renderToken_inj token.entityType_valid
        token.tokenId_valid hholds.1 hholds.2.1 htoken
      rw [hlive] at hsome
      cases hsome
  | some e =>
      obtain ⟨ty, original, raw, hraw, hholds, -⟩ :=
        hsound.genuine _ _ _ _ hlive
      cases e with
      | mk value deadline =>
          cases hraw
          by_cases hty : token.entityType = ty
          · rw [← hty] at hholds
            exact Or.inr (Or.inl ⟨raw, deadline, original, rfl, hholds⟩)
          · exact Or.inr (Or.inr ⟨ty, token.entityType, token.tokenId,
              original, raw, deadline, rfl, token.entityType_valid, hty,
              hlive, hholds⟩)

end Cases

-- ==================================================== the loop

section Loop

variable {vault : RedisTokenVault} {t s : UUID} {st : VaultState}

theorem mem_wantedTokens {tokens : List Text} {token : Token} :
    token ∈ wantedTokens tokens ↔ token.text ∈ tokens := by
  unfold wantedTokens
  rw [List.mem_filterMap]
  constructor
  · intro h
    obtain ⟨text, htext, hparse⟩ := h
    rw [parseToken_eq_some_iff.mp hparse] at htext
    exact List.mem_dedup.mp ((List.mem_insertionSort _).mp htext)
  · intro h
    exact ⟨token.text,
      (List.mem_insertionSort _).mpr (List.mem_dedup.mpr h),
      parseToken_text token⟩

/-- What the store returns for a list of tokens. -/
def readings (vault : RedisTokenVault) (t s : UUID) (r : Redis)
    (wanted : List Token) : List (Token × Option Bytes) :=
  wanted.map (fun token =>
    (token, r.stringAt (vault.render (.token t s token.tokenId))))

/-- A token whose envelope was sealed for it is added to the answer. -/
theorem openRecords_holds {token : Token} {original : Text} {raw : Bytes}
    (h : vault.Holds t s token.entityType token.tokenId original raw)
    (resolved : Dict Text Text) (rest : List (Token × Option Bytes)) :
    vault.openRecords t s resolved ((token, some raw) :: rest) =
      vault.openRecords t s (resolved.set token.text original) rest := by
  rw [openRecords, unsealRecord_holds h]
  exact if_neg (not_not.mpr rfl)

theorem openRecords_of_retyped (hsound : vault.Sound st)
    (wanted : List Token) :
    ∀ resolved : Dict Text Text,
      (∃ token ∈ wanted,
        vault.Retyped t s st.world.redis token.text) →
      vault.openRecords t s resolved
          (readings vault t s st.world.redis wanted) =
        .error (vaultEncryptionError "authentication_failed") := by
  induction wanted with
  | nil =>
      intro resolved h
      obtain ⟨token, htoken, -⟩ := h
      exact absurd htoken (List.not_mem_nil)
  | cons token wanted ih =>
      intro resolved h
      show vault.openRecords t s resolved
        ((token, st.world.redis.stringAt
          (vault.render (.token t s token.tokenId))) ::
            readings vault t s st.world.redis wanted) = _
      have hlater : ¬ vault.Retyped t s st.world.redis token.text →
          ∃ token ∈ wanted,
            vault.Retyped t s st.world.redis token.text := by
        intro hnot
        obtain ⟨token', hmem, hretyped⟩ := h
        rcases List.mem_cons.mp hmem with rfl | hmem
        · exact absurd hretyped hnot
        · exact ⟨token', hmem, hretyped⟩
      by_cases hretyped : vault.Retyped t s st.world.redis token.text
      · -- the cipher refuses this one
        obtain ⟨ty, ty', id, original, raw, deadline, htoken, hty, hne,
          hlive, hholds⟩ := hretyped
        obtain ⟨rfl, rfl⟩ := renderToken_inj token.entityType_valid
          token.tokenId_valid hty hholds.2.1 htoken
        rw [stringAt_blob hlive]
        unfold openRecords
        rw [unsealRecord_other hholds hty hne]
      · rcases token_cases (t := t) (s := s) hsound token with
          ⟨hnone, -⟩ | ⟨raw, deadline, original, hlive, hholds⟩ | hbad
        · rw [stringAt_none hnone]
          unfold openRecords
          exact ih resolved (hlater hretyped)
        · rw [stringAt_blob hlive]
          rw [openRecords_holds hholds]
          exact ih _ (hlater hretyped)
        · exact absurd hbad hretyped

theorem openRecords_of_not_retyped (hsound : vault.Sound st)
    (wanted : List Token) :
    ∀ resolved : Dict Text Text,
      (∀ token ∈ wanted,
        ¬ vault.Retyped t s st.world.redis token.text) →
      (∀ token original, resolved.get? token = some original →
        vault.Stands t s st.world.redis token original) →
      ∃ d, vault.openRecords t s resolved
          (readings vault t s st.world.redis wanted) = .ok d ∧
        ∀ token original, d.get? token = some original ↔
          resolved.get? token = some original ∨
            (token ∈ wanted.map Token.text ∧
              vault.Stands t s st.world.redis token original) := by
  induction wanted with
  | nil =>
      intro resolved _ _
      refine ⟨resolved, rfl, ?_⟩
      intro token original
      simp
  | cons token wanted ih =>
      intro resolved hgood hstands
      obtain ⟨hhead, htail⟩ := List.forall_mem_cons.mp hgood
      have hsplit : ∀ text, text ∈ (token :: wanted).map Token.text ↔
          text = token.text ∨ text ∈ wanted.map Token.text := by
        intro text
        rw [List.map_cons, List.mem_cons]
      rcases token_cases (t := t) (s := s) hsound token with
        ⟨hnone, habsent⟩ | ⟨raw, deadline, original, hlive, hholds⟩ | hbad
      · obtain ⟨d, hd, hspec⟩ := ih resolved htail hstands
        refine ⟨d, ?_, ?_⟩
        · show vault.openRecords t s resolved ((token, _) :: _) = _
          rw [stringAt_none hnone]
          unfold openRecords
          exact hd
        · intro text value
          rw [hspec, hsplit]
          constructor
          · intro h
            exact h.imp id (fun h => ⟨Or.inr h.1, h.2⟩)
          · intro h
            refine h.imp id (fun h => ⟨?_, h.2⟩)
            rcases h.1 with rfl | hmem
            · exact absurd h.2 (habsent value)
            · exact hmem
      · have hnew : vault.Stands t s st.world.redis token.text original :=
          ⟨_, _, raw, deadline, rfl, hlive, hholds⟩
        obtain ⟨d, hd, hspec⟩ := ih (resolved.set token.text original)
          htail (by
            intro text value hget
            rw [Dict.get?_set] at hget
            by_cases htext : token.text = text
            · rw [if_pos htext] at hget
              cases hget
              rw [← htext]
              exact hnew
            · rw [if_neg htext] at hget
              exact hstands text value hget)
        refine ⟨d, ?_, ?_⟩
        · show vault.openRecords t s resolved ((token, _) :: _) = _
          rw [stringAt_blob hlive]
          rw [openRecords_holds hholds]
          exact hd
        · intro text value
          rw [hspec, hsplit, Dict.get?_set]
          by_cases htext : token.text = text
          · subst htext
            rw [if_pos rfl]
            constructor
            · intro h
              rcases h with h | h
              · cases h
                exact Or.inr ⟨Or.inl rfl, hnew⟩
              · exact Or.inr ⟨Or.inl rfl, h.2⟩
            · intro h
              left
              rcases h with h | h
              · rw [(hstands _ _ h).unique hnew]
              · rw [h.2.unique hnew]
          · rw [if_neg htext]
            constructor
            · intro h
              exact h.imp id (fun h => ⟨Or.inr h.1, h.2⟩)
            · intro h
              refine h.imp id (fun h => ⟨?_, h.2⟩)
              rcases h.1 with rfl | hmem
              · exact absurd rfl htext
              · exact hmem
      · exact absurd hbad hhead

end Loop

-- ==================================================== resolution

section Resolution

variable {vault : RedisTokenVault} {t s : UUID} {st : VaultState}

theorem runIn_resolveMany_readings (tokens : List Text) (w : World) :
    runIn (vault.resolveMany t s tokens) w =
      (vault.openRecords t s []
        (readings vault t s w.redis (wantedTokens tokens)), w) :=
  runIn_resolveMany tokens w

/-- Where a token was retyped, the resolution raises. -/
theorem resolveMany_of_retyped (hsound : vault.Sound st)
    {tokens : List Text}
    (h : ∃ token ∈ tokens, vault.Retyped t s st.world.redis token) :
    runIn (vault.resolveMany t s tokens) st.world =
      (.error (vaultEncryptionError "authentication_failed"),
        st.world) := by
  obtain ⟨token, htoken, hretyped⟩ := h
  have hparse : ∃ parsed : Token, token = parsed.text := by
    obtain ⟨ty, ty', id, original, raw, deadline, rfl, hty, -, -,
      hholds⟩ := hretyped
    exact ⟨⟨ty', id, hty, hholds.2.1⟩, rfl⟩
  obtain ⟨parsed, rfl⟩ := hparse
  rw [runIn_resolveMany_readings, openRecords_of_retyped hsound]
  exact ⟨parsed, mem_wantedTokens.mpr htoken, hretyped⟩

/-- Otherwise it returns the requested tokens that are live, with their
originals. -/
theorem resolveMany_of_not_retyped (hsound : vault.Sound st)
    {tokens : List Text}
    (h : ∀ token ∈ tokens, ¬ vault.Retyped t s st.world.redis token) :
    ∃ d, runIn (vault.resolveMany t s tokens) st.world =
        (.ok d, st.world) ∧
      ∀ token original, d.get? token = some original ↔
        token ∈ tokens ∧
          vault.Stands t s st.world.redis token original := by
  obtain ⟨d, hd, hspec⟩ := @openRecords_of_not_retyped vault t s st hsound
    (wantedTokens tokens) []
    (fun token htoken => h _ (mem_wantedTokens.mp htoken))
    (fun token original hget => by cases hget)
  refine ⟨d, ?_, ?_⟩
  · rw [runIn_resolveMany_readings, hd]
  · intro token original
    rw [hspec]
    constructor
    · intro hget
      rcases hget with hget | ⟨hmem, hstands⟩
      · cases hget
      · obtain ⟨parsed, hparsed, rfl⟩ := List.mem_map.mp hmem
        exact ⟨mem_wantedTokens.mp hparsed, hstands⟩
    · intro hget
      obtain ⟨hmem, hstands⟩ := hget
      obtain ⟨parsed, rfl⟩ := hstands.parse
      exact Or.inr ⟨List.mem_map.mpr
        ⟨parsed, mem_wantedTokens.mpr hmem, rfl⟩, hstands⟩

end Resolution

/-- What a resolution signals, in every reachable state. It changes
nothing. It raises exactly when a requested string is a token with a live
record's id and another type; otherwise the answer is the requested
strings that are live tokens of the session, each handed out there, with
their originals. -/
theorem resolveMany_signals (vault : RedisTokenVault) (t s : UUID)
    (ops : List VaultOp) (tokens : List Text) :
    let st := vault.run VaultState.start ops
    ((∃ token ∈ tokens, vault.Retyped t s st.world.redis token) →
      runIn (vault.resolveMany t s tokens) st.world =
        (.error (vaultEncryptionError "authentication_failed"),
          st.world)) ∧
    ((∀ token ∈ tokens, ¬ vault.Retyped t s st.world.redis token) →
      ∃ d, runIn (vault.resolveMany t s tokens) st.world =
          (.ok d, st.world) ∧
        ∀ token original, d.get? token = some original ↔
          token ∈ tokens ∧
            vault.Stands t s st.world.redis token original) ∧
    ∀ token original, vault.Stands t s st.world.redis token original →
      (t, s, token) ∈ st.issued := by
  intro st
  have hsound : vault.Sound st := run_sound ops
  refine ⟨?_, ?_, ?_⟩
  · intro h
    exact resolveMany_of_retyped hsound h
  · intro h
    exact resolveMany_of_not_retyped hsound h
  · intro token original h
    exact h.issued hsound

end PrivacyGateway.Vault.RedisTokenVault

namespace PrivacyGateway.Vault.Reference

open Effect RedisTokenVault

/-- The token with another type. -/
def adaTokenRetyped : Text :=
  "⟦SGW:LOCATION:00000000000000000000000000⟧".toList

/-- After one batch, the token it returned resolves to its original; asked
together with the same token under another type, the vault raises. -/
theorem retyped_token_raises :
    let v := vault sampleHashes
    let st := v.run .start [.batch ⟨2⟩ ⟨3⟩ [adaEntry] 3600]
    st.issued = [(⟨2⟩, ⟨3⟩, adaToken)] ∧
      (runIn (v.resolveMany ⟨2⟩ ⟨3⟩ [adaToken]) st.world).1 =
        .ok [(adaToken, "Ada".toList)] ∧
      (runIn (v.resolveMany ⟨2⟩ ⟨3⟩ [adaToken, adaTokenRetyped])
        st.world).1 =
          .error (vaultEncryptionError "authentication_failed") := by
  decide +kernel

end PrivacyGateway.Vault.Reference
