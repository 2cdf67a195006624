/-
What a resolution answers, whatever the server holds.

The lemmas on sound states say which records are there. These say nothing
of that: the server may hold anything under any key. A resolution that
returns has opened every string it read, each as a record of the token it
was read for (`Opens`), and its answer is exactly what they hold
(`resolveMany_ok`).
-/
import PrivacyGateway.Vault.Proofs.Resolution

namespace PrivacyGateway.Vault.RedisTokenVault

open Effect Tokenization

section Opens

variable (vault : RedisTokenVault) (t s : UUID)

/-- The string opens as a record of the token, with this original. -/
def Opens (raw : Bytes) (token : Token) (original : Text) : Prop :=
  ∃ record, vault.unsealRecord t s raw token.entityType token.tokenId =
      .ok record ∧
    record.token = token.text ∧ record.originalValue = original

/-- The server holds a string for the token that opens as its record. -/
def Reads (r : Redis) (token : Token) (original : Text) : Prop :=
  ∃ raw, r.stringAt (vault.render (.token t s token.tokenId)) = some raw ∧
    vault.Opens t s raw token original

variable {vault t s} {r : Redis} {raw : Bytes} {token : Token}

theorem Opens.unique {original original' : Text}
    (h : vault.Opens t s raw token original)
    (h' : vault.Opens t s raw token original') : original = original' := by
  obtain ⟨record, hrecord, -, rfl⟩ := h
  obtain ⟨record', hrecord', -, rfl⟩ := h'
  cases hrecord.symm.trans hrecord'
  rfl

theorem Reads.unique {original original' : Text}
    (h : vault.Reads t s r token original)
    (h' : vault.Reads t s r token original') : original = original' := by
  obtain ⟨raw, hraw, hopens⟩ := h
  obtain ⟨raw', hraw', hopens'⟩ := h'
  cases hraw.symm.trans hraw'
  exact hopens.unique hopens'

/-- An envelope opens for the token it was sealed for. -/
theorem Holds.opens {original : Text}
    (h : vault.Holds t s token.entityType token.tokenId original raw) :
    vault.Opens t s raw token original :=
  ⟨_, unsealRecord_holds h, rfl, rfl⟩

-- ==================================================== the loop

variable {d : Dict Text Text}

/-- The loop goes on past a string only when it opens. -/
theorem openRecords_cons_ok_iff {resolved : Dict Text Text}
    {rest : List (Token × Option Bytes)} :
    vault.openRecords t s resolved ((token, some raw) :: rest) = .ok d ↔
      ∃ original, vault.Opens t s raw token original ∧
        vault.openRecords t s (resolved.set token.text original) rest =
          .ok d := by
  rw [openRecords]
  cases hunseal : vault.unsealRecord t s raw token.entityType
      token.tokenId with
  | error e =>
      constructor
      · intro h
        cases h
      · intro h
        obtain ⟨original, ⟨record, hrecord, -⟩, -⟩ := h
        rw [hunseal] at hrecord
        cases hrecord
  | ok record =>
      simp only
      by_cases htoken : record.token = token.text
      · rw [if_neg (not_not.mpr htoken)]
        constructor
        · intro h
          exact ⟨_, ⟨record, hunseal, htoken, rfl⟩, h⟩
        · intro h
          obtain ⟨original, ⟨record', hrecord, -, rfl⟩, h⟩ := h
          rw [hunseal] at hrecord
          cases hrecord
          exact h
      · rw [if_pos htoken]
        constructor
        · intro h
          cases h
        · intro h
          obtain ⟨original, ⟨record', hrecord, hother, -⟩, -⟩ := h
          rw [hunseal] at hrecord
          cases hrecord
          exact absurd hother htoken

/-- What the loop answers: what it was given, and what the strings of the
remaining tokens hold. -/
theorem openRecords_ok (wanted : List Token) :
    ∀ {resolved : Dict Text Text},
      vault.openRecords t s resolved (readings vault t s r wanted) =
        .ok d →
      (∀ text original, resolved.get? text = some original →
        ∀ token ∈ wanted, token.text = text →
          ∀ original', vault.Reads t s r token original' →
            original' = original) →
      ∀ text original, d.get? text = some original ↔
        resolved.get? text = some original ∨
          ∃ token ∈ wanted, token.text = text ∧
            vault.Reads t s r token original := by
  induction wanted with
  | nil =>
      intro resolved h _ text original
      cases h
      simp
  | cons token wanted ih =>
      intro resolved h hagree text original
      change vault.openRecords t s resolved
        ((token, r.stringAt (vault.render (.token t s token.tokenId))) ::
          readings vault t s r wanted) = .ok d at h
      cases hraw : r.stringAt
          (vault.render (.token t s token.tokenId)) with
      | none =>
          rw [hraw, openRecords] at h
          rw [ih h (fun text original hget token' hmem =>
            hagree text original hget token' (List.mem_cons_of_mem _ hmem))]
          constructor
          · intro hcase
            refine hcase.imp id ?_
            intro hread
            obtain ⟨token', hmem, htext, hreads⟩ := hread
            exact ⟨token', List.mem_cons_of_mem _ hmem, htext, hreads⟩
          · intro hcase
            refine hcase.imp id ?_
            intro hread
            obtain ⟨token', hmem, htext, hreads⟩ := hread
            rcases List.mem_cons.mp hmem with rfl | hmem
            · obtain ⟨raw, hsome, -⟩ := hreads
              rw [hraw] at hsome
              cases hsome
            · exact ⟨token', hmem, htext, hreads⟩
      | some raw =>
          rw [hraw] at h
          obtain ⟨value, hopens, hrest⟩ := openRecords_cons_ok_iff.mp h
          have hreads : vault.Reads t s r token value := ⟨raw, hraw, hopens⟩
          -- a token's text decides the token, so its value is the same
          have hsame : ∀ token' : Token, token'.text = token.text →
              ∀ original', vault.Reads t s r token' original' →
                original' = value := by
            intro token' htext original' hreads'
            cases Token.text_injective htext
            exact hreads'.unique hreads
          rw [ih hrest (by
            intro text' original' hget token' hmem htext value' hreads'
            rw [Dict.get?_set] at hget
            by_cases hhere : token.text = text'
            · rw [if_pos hhere] at hget
              cases hget
              exact hsame token' (htext.trans hhere.symm) value' hreads'
            · rw [if_neg hhere] at hget
              exact hagree text' original' hget token'
                (List.mem_cons_of_mem _ hmem) htext value' hreads'),
            Dict.get?_set]
          by_cases hhere : token.text = text
          · rw [if_pos hhere]
            constructor
            · intro hcase
              rcases hcase with hvalue | ⟨token', hmem, htext, hreads'⟩
              · cases hvalue
                exact Or.inr ⟨token, List.mem_cons_self, hhere, hreads⟩
              · exact Or.inr ⟨token', List.mem_cons_of_mem _ hmem, htext,
                  hreads'⟩
            · intro hcase
              rcases hcase with hget | ⟨token', hmem, htext, hreads'⟩
              · rw [hagree text original hget token List.mem_cons_self
                  hhere value hreads]
                exact Or.inl rfl
              · rw [hsame token' (htext.trans hhere.symm) _ hreads']
                exact Or.inl rfl
          · rw [if_neg hhere]
            constructor
            · intro hcase
              refine hcase.imp id ?_
              intro hread
              obtain ⟨token', hmem, htext, hreads'⟩ := hread
              exact ⟨token', List.mem_cons_of_mem _ hmem, htext, hreads'⟩
            · intro hcase
              refine hcase.imp id ?_
              intro hread
              obtain ⟨token', hmem, htext, hreads'⟩ := hread
              rcases List.mem_cons.mp hmem with rfl | hmem
              · exact absurd htext hhere
              · exact ⟨token', hmem, htext, hreads'⟩

/-- The answer of a resolution, from any server. -/
theorem resolveMany_ok {tokens : List Text} {w w' : World}
    (h : runIn (vault.resolveMany t s tokens) w = (.ok d, w')) :
    w' = w ∧ ∀ text original, d.get? text = some original ↔
      ∃ token : Token, token.text = text ∧ text ∈ tokens ∧
        vault.Reads t s w.redis token original := by
  rw [runIn_resolveMany_readings] at h
  obtain ⟨hopen, rfl⟩ := Prod.mk.inj h
  refine ⟨rfl, ?_⟩
  intro text original
  rw [openRecords_ok _ hopen
    (fun text original hget => by cases hget) text original]
  constructor
  · intro hcase
    rcases hcase with hget | ⟨token, hmem, rfl, hreads⟩
    · cases hget
    · exact ⟨token, rfl, mem_wantedTokens.mp hmem, hreads⟩
  · intro hread
    obtain ⟨token, rfl, hmem, hreads⟩ := hread
    exact Or.inr ⟨token, mem_wantedTokens.mpr hmem, rfl, hreads⟩

/-- A single token with a record of its own is resolved. -/
theorem resolveMany_of_reads {w : World} {original : Text}
    (h : vault.Reads t s w.redis token original) :
    runIn (vault.resolveMany t s [token.text]) w =
      (.ok [(token.text, original)], w) := by
  obtain ⟨raw, hraw, hopens⟩ := h
  have hwanted : wantedTokens [token.text] = [token] := by
    unfold wantedTokens
    rw [List.dedup_eq_self.mpr (List.nodup_singleton _), List.insertionSort_cons,
      List.insertionSort_nil, List.orderedInsert_nil, List.filterMap_cons,
      parseToken_text]
    rfl
  rw [runIn_resolveMany_readings, hwanted]
  unfold readings
  rw [List.map_singleton, hraw, openRecords_cons_ok_iff.mpr
    ⟨original, hopens, rfl⟩]
  rfl

end Opens

end PrivacyGateway.Vault.RedisTokenVault
