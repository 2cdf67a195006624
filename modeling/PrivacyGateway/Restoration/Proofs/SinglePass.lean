/-
Restoration rewrites tokens, once, and nothing else.

`Rewritten` says what rewriting the tokens of a text is, without a scan
and without positions: a token that stands at the front is replaced, a
character that begins none is kept, and the rest is rewritten the same
way. What is written is never read again. `restore_single_pass` says that
the pass over the matches does this, so its result does not depend on
what the restored values look like, and that texts joined where no token
straddles are restored one by one.
-/
import Mathlib.Data.List.Dedup
import PrivacyGateway.Restoration.Pipeline
import PrivacyGateway.Tokenization.Proofs.Scanning

namespace PrivacyGateway.Restoration

open Effect Scan Splice Tokenization

-- ==================================================== rewriting

/-- Each token of the first text replaced by what `f` makes of it, and
every other character kept. -/
inductive Rewritten (f : Token → Text) : Text → Text → Prop
  | nil : Rewritten f [] []
  | token (token : Token) {l l' : Text} (rest : Rewritten f l l') :
      Rewritten f (token.text ++ l) (f token ++ l')
  | char {c : Char} {l l' : Text}
      (none : ∀ token : Token, ¬ token.text <+: c :: l)
      (rest : Rewritten f l l') : Rewritten f (c :: l) (c :: l')

variable {f g : Token → Text}

/-- Two tokens at the front of a text are one. -/
theorem token_unique {a b : Token} {l l' : Text}
    (h : a.text ++ l = b.text ++ l') : a = b ∧ l = l' := by
  have ha : matchStrict (a.text ++ l) = some a.text.length :=
    matchStrict_eq_some_iff.mpr ⟨a, l, rfl, rfl⟩
  have hb : matchStrict (b.text ++ l') = some b.text.length :=
    matchStrict_eq_some_iff.mpr ⟨b, l', rfl, rfl⟩
  rw [h, hb] at ha
  obtain ⟨htext, hrest⟩ := List.append_inj h (Option.some.inj ha).symm
  exact ⟨Token.text_injective htext, hrest⟩

/-- There is one rewriting of a text. -/
theorem Rewritten.functional {l l' l'' : Text} (h : Rewritten f l l')
    (h' : Rewritten f l l'') : l' = l'' := by
  induction h generalizing l'' with
  | nil =>
      generalize htext : ([] : Text) = text at h'
      cases h' with
      | nil => rfl
      | token token rest =>
          exact absurd (List.append_eq_nil_iff.mp htext.symm).1
            token.text_ne_nil
      | char none rest => cases htext
  | @token token l l' rest ih =>
      generalize htext : token.text ++ l = text at h'
      cases h' with
      | nil =>
          exact absurd (List.append_eq_nil_iff.mp htext).1
            token.text_ne_nil
      | token other rest' =>
          obtain ⟨rfl, rfl⟩ := token_unique htext
          rw [ih rest']
      | char none rest' => exact absurd ⟨_, htext⟩ (none token)
  | @char c l l' none rest ih =>
      generalize htext : c :: l = text at h'
      cases h' with
      | nil => cases htext
      | token token rest' => exact absurd ⟨_, htext.symm⟩ (none token)
      | char none' rest' =>
          cases htext
          rw [ih rest']

/-- It depends on what is made of the tokens in the text, and of no
others. -/
theorem Rewritten.congr {l l' : Text} (h : Rewritten f l l') :
    (∀ token : Token, token.text <:+: l → f token = g token) →
      Rewritten g l l' := by
  induction h with
  | nil =>
      intro _
      exact .nil
  | @token token l l' rest ih =>
      intro hsame
      rw [hsame token (List.prefix_append _ _).isInfix]
      exact .token token (ih (fun inner hinner =>
        hsame inner (hinner.trans (List.suffix_append _ _).isInfix)))
  | @char c l l' none rest ih =>
      intro hsame
      exact .char none (ih (fun inner hinner =>
        hsame inner (hinner.trans (List.suffix_cons _ _).isInfix)))

/-- Texts joined where no token straddles are rewritten one by one. -/
theorem Rewritten.append {a a' b b' : Text} (ha : Rewritten f a a')
    (hb : Rewritten f b b') (h : Apart a b) :
    Rewritten f (a ++ b) (a' ++ b') := by
  induction ha with
  | nil => exact hb
  | @token token l l' rest ih =>
      rw [List.append_assoc, List.append_assoc]
      exact .token token (ih h.of_append)
  | @char c l l' none rest ih =>
      rw [List.cons_append, List.cons_append]
      refine .char ?_ (ih (Apart.of_append (a := [c]) h))
      intro token htoken
      have hoccurs : Occurs (c :: l ++ b)
          ⟨token, 0, token.text.length⟩ := by
        rw [occurs_iff]
        exact ⟨htoken, (Nat.zero_add _).symm⟩
      rcases h _ hoccurs with hleft | hright
      · exact none token ((occurs_iff.mp
          ((occurs_append_left hleft).mp hoccurs)).1)
      · exact absurd hright (by simp)

-- ==================================================== the pass

/-- What a restoration writes in place of a token's text. -/
def restoreBody (resolved : Dict Text Text) (action : UnknownTokenAction)
    (body : Text) : Text :=
  match parseToken body with
  | some token => standIn resolved action token
  | none => body

theorem restoreBody_text (resolved : Dict Text Text)
    (action : UnknownTokenAction) (token : Token) :
    restoreBody resolved action token.text =
      standIn resolved action token := by
  unfold restoreBody
  rw [parseToken_text]

/-- Rewriting what the strict pattern matches is rewriting the tokens. -/
theorem rewritten_of_rewrites {h : Text → Text} {l l' : Text}
    (hf : ∀ token : Token, h token.text = f token)
    (hrewrites : Rewrites matchStrict h l l') : Rewritten f l l' := by
  induction hrewrites with
  | nil => exact .nil
  | miss hmiss _ ih =>
      refine .char ?_ ih
      intro token htoken
      obtain ⟨rest, hrest⟩ := htoken
      have hmatch := matchStrict_eq_some_iff.mpr ⟨token, rest, hrest.symm, rfl⟩
      rw [hmiss] at hmatch
      cases hmatch
  | hit hmatch _ ih =>
      obtain ⟨token, rest, rfl, rfl⟩ := matchStrict_eq_some_iff.mp hmatch
      rw [List.drop_left] at ih
      rw [List.take_left, hf]
      exact .token token ih

variable {resolved : Dict Text Text} {action : UnknownTokenAction}

/-- The pass over the matches rewrites the tokens of the text. -/
theorem rewritten_fill (text : Text) :
    Rewritten (standIn resolved action) text
      (fill text ((findTokens text).map (patchFor resolved action))) := by
  have hpatches : (findTokens text).map (patchFor resolved action) =
      (scan matchStrict text).map (patchBy (restoreBody resolved action)) := by
    rw [findTokens_eq_scan, List.map_filterMap, ← List.filterMap_eq_map]
    apply List.filterMap_congr
    intro hit hhit
    obtain ⟨token, htoken⟩ := exists_token_of_hit hhit
    unfold patchBy
    simp only [htoken, parseToken_text, restoreBody_text,
      Option.map_some, Function.comp_apply]
    rfl
  rw [hpatches]
  exact rewritten_of_rewrites (restoreBody_text resolved action)
    (rewrites_scan matchStrict_bounded _ _)

-- ==================================================== the call

/-- Some token of the text has no entry in the map. -/
def Unresolved (text : Text) (resolved : Dict Text Text) : Prop :=
  ∃ found ∈ findTokens text, resolved.get? found.text = none

theorem unknownOf_ne_nil_iff {text : Text} :
    unknownOf (candidatesOf (findTokens text)) resolved ≠ [] ↔
      Unresolved text resolved := by
  unfold unknownOf candidatesOf Unresolved
  constructor
  · intro h
    obtain ⟨candidate, hcandidate⟩ := List.exists_mem_of_ne_nil _ h
    obtain ⟨hmem, hnone⟩ := List.mem_filter.mp hcandidate
    obtain ⟨found, hfound, rfl⟩ :=
      List.mem_map.mp (List.mem_dedup.mp hmem)
    exact ⟨found, hfound, Option.isNone_iff_eq_none.mp hnone⟩
  · rintro ⟨found, hfound, hnone⟩
    apply List.ne_nil_of_mem
    exact List.mem_filter.mpr ⟨List.mem_dedup.mpr
      (List.mem_map_of_mem hfound), Option.isNone_iff_eq_none.mpr hnone⟩

section Call

variable {σ : Type} (pipeline : OutputPipeline σ) (unicode : Unicode)
  (tenantId sessionId : UUID) (policy : PolicySnapshot)

/-- What the vault answered about the tokens of a text; it is asked
nothing about a text without tokens. -/
def Consulted (text : Text) (w : σ) (resolved : Dict Text Text)
    (w' : σ) : Prop :=
  findTokens text = [] ∧ resolved = [] ∧ w' = w ∨
    findTokens text ≠ [] ∧
      runIn (pipeline.vault.resolveMany tenantId sessionId
        (candidatesOf (findTokens text))) w = (.ok resolved, w')

variable {pipeline unicode tenantId sessionId}
  {response : ProviderResponse} {text : Text} {w w' : σ}

/-- A call that consulted the vault raises under `FAIL` with a token
unresolved, and else returns the rewritten text. -/
theorem restore_consulted
    (hcontent : validatedContent unicode response pipeline.maxOutputChars =
      .ok text)
    (hconsulted : Consulted pipeline tenantId sessionId text w resolved
      w') :
    (policy.unknownOutputTokenAction = .fail ∧ Unresolved text resolved ∧
      ∃ e, runIn (pipeline.restore unicode tenantId sessionId response
        policy) w = (.error e, w')) ∨
    (¬ (policy.unknownOutputTokenAction = .fail ∧
        Unresolved text resolved) ∧
      ∃ out, runIn (pipeline.restore unicode tenantId sessionId response
          policy) w = (.ok out, w') ∧
        Rewritten (standIn resolved policy.unknownOutputTokenAction) text
          out.text) := by
  unfold OutputPipeline.restore
  simp only [hcontent, checked_bind_ok]
  have hrewritten := @rewritten_fill resolved
    policy.unknownOutputTokenAction text
  rcases hconsulted with ⟨hnone, rfl, rfl⟩ | ⟨hsome, hresolve⟩
  · right
    rw [hnone] at hrewritten
    rw [if_pos hnone]
    refine ⟨?_, _, rfl, ?_⟩
    · rintro ⟨-, found, hfound, -⟩
      rw [hnone] at hfound
      cases hfound
    · have hself : fill text [] = text := slice_zero_length text
      rw [List.map_nil, hself] at hrewritten
      exact hrewritten
  · rw [if_neg hsome, runIn_bind, hresolve]
    simp only
    by_cases hfail : unknownOf (candidatesOf (findTokens text)) resolved ≠
        [] ∧ policy.unknownOutputTokenAction = .fail
    · left
      rw [if_pos hfail]
      exact ⟨hfail.2, unknownOf_ne_nil_iff.mp hfail.1, _, rfl⟩
    · right
      rw [if_neg hfail, substitute_eq_fill]
      refine ⟨?_, _, rfl, hrewritten⟩
      intro h
      exact hfail ⟨unknownOf_ne_nil_iff.mpr h.2, h.1⟩

variable (pipeline unicode tenantId sessionId)

/-- A call on the text, answered with the map, returned the restored
text. -/
def Restored (text : Text) (resolved : Dict Text Text)
    (restored : Text) : Prop :=
  ∃ response w w' out,
    validatedContent unicode response pipeline.maxOutputChars = .ok text ∧
    Consulted pipeline tenantId sessionId text w resolved w' ∧
    runIn (pipeline.restore unicode tenantId sessionId response policy) w =
      (.ok out, w') ∧
    out.text = restored

variable {pipeline unicode tenantId sessionId policy}

theorem Restored.rewritten {restored : Text}
    (h : Restored pipeline unicode tenantId sessionId policy text resolved
      restored) :
    Rewritten (standIn resolved policy.unknownOutputTokenAction) text
      restored := by
  obtain ⟨response, w, w', out, hcontent, hconsulted, hrun, rfl⟩ := h
  rcases restore_consulted policy hcontent hconsulted with
    ⟨-, -, e, hraised⟩ | ⟨-, out', hreturned, hrewritten⟩
  · rw [hrun] at hraised
    cases hraised
  · rw [hrun] at hreturned
    cases hreturned
    exact hrewritten

/-- A token that stands in a text is one of its candidates. -/
theorem mem_candidates_of_stands {token : Token} (h : token.text <:+: text) :
    token.text ∈ candidatesOf (findTokens text) := by
  obtain ⟨front, back, rfl⟩ := h
  have hleads : token.text <+:
      (front ++ token.text ++ back).drop front.length := by
    rw [List.append_assoc, List.drop_left]
    exact List.prefix_append _ _
  exact List.mem_dedup.mpr
    (List.mem_map.mpr ⟨_, mem_findTokens hleads, rfl⟩)

end Call

/-- Restoration is a single pass that changes tokens only. Whatever the
vault answers about a valid reply, the call raises exactly when the policy
says to fail and some token of the reply has no answer; what it returns is
the one text in which each token is rewritten on its own, by its answer or
by what the policy says of unknown tokens, and all else is kept. Replies
joined where no token straddles, and answered alike, are restored one by
one. -/
theorem restore_single_pass {σ : Type} (pipeline : OutputPipeline σ)
    (unicode : Unicode) (tenantId sessionId : UUID)
    (policy : PolicySnapshot) :
    (∀ response text w resolved w',
      validatedContent unicode response pipeline.maxOutputChars =
        .ok text →
      Consulted pipeline tenantId sessionId text w resolved w' →
        ((∃ e w'', runIn (pipeline.restore unicode tenantId sessionId
            response policy) w = (.error e, w'')) ↔
          policy.unknownOutputTokenAction = .fail ∧
            Unresolved text resolved) ∧
        ∀ out w'', runIn (pipeline.restore unicode tenantId sessionId
            response policy) w = (.ok out, w'') →
          ∀ other, Rewritten (standIn resolved
            policy.unknownOutputTokenAction) text other ↔
              other = out.text) ∧
    (∀ a b resolvedA resolvedB resolved a' b' both, Apart a b →
      Restored pipeline unicode tenantId sessionId policy a resolvedA a' →
      Restored pipeline unicode tenantId sessionId policy b resolvedB b' →
      Restored pipeline unicode tenantId sessionId policy (a ++ b) resolved
        both →
      (∀ token ∈ candidatesOf (findTokens a),
        resolvedA.get? token = resolved.get? token) →
      (∀ token ∈ candidatesOf (findTokens b),
        resolvedB.get? token = resolved.get? token) →
      both = a' ++ b') := by
  refine ⟨?_, ?_⟩
  · intro response text w resolved w' hcontent hconsulted
    rcases restore_consulted policy hcontent hconsulted with
      ⟨hfail, hunresolved, e, hraised⟩ | ⟨hpasses, out, hreturned, hout⟩
    · rw [hraised]
      refine ⟨⟨fun _ => ⟨hfail, hunresolved⟩, fun _ => ⟨_, _, rfl⟩⟩, ?_⟩
      intro out w'' h
      cases h
    · rw [hreturned]
      refine ⟨⟨?_, fun h => absurd h hpasses⟩, ?_⟩
      · rintro ⟨e, w'', h⟩
        cases h
      · intro out' w'' h other
        cases h
        constructor
        · intro hother
          exact hother.functional hout
        · intro hother
          rw [hother]
          exact hout
  · intro a b resolvedA resolvedB resolved a' b' both hapart ha hb hboth
      hsameA hsameB
    have hcongr : ∀ {text resolved' restored},
        (∀ token ∈ candidatesOf (findTokens text),
          Dict.get? resolved' token = Dict.get? resolved token) →
        Rewritten (standIn resolved' policy.unknownOutputTokenAction) text
          restored →
        Rewritten (standIn resolved policy.unknownOutputTokenAction) text
          restored := by
      intro text resolved' restored hsame h
      refine h.congr ?_
      intro token htoken
      unfold standIn
      rw [hsame _ (mem_candidates_of_stands htoken)]
    exact hboth.rewritten.functional ((hcongr hsameA ha.rewritten).append
      (hcongr hsameB hb.rewritten) hapart)

-- ==================================================== on fixed inputs

/-- A vault that answers from a table. -/
def tableVault (table : Dict Text Text) : VaultLike Unit where
  resolveMany _ _ tokens := return table.filter (fun entry =>
    decide (entry.1 ∈ tokens))

def ownerToken : Text := "⟦SGW:PERSON:01ARZ3NDEKTSV4RRFFQ69G5FAV⟧".toList
def guestToken : Text := "⟦SGW:PERSON:01ARZ3NDEKTSV4RRFFQ69G5FAW⟧".toList

/-- One token stands for what looks like the other. -/
def nestedPipeline : OutputPipeline Unit where
  vault := tableVault [(ownerToken, guestToken), (guestToken, "Bo".toList)]
  maxOutputChars_pos := defaultMaxOutputChars_pos

def nestedReply : Text := "Hi ".toList ++ ownerToken ++ "!".toList

def preservingPolicy : PolicySnapshot where
  policyId := ⟨1⟩
  tenantId := ⟨2⟩
  version := 1
  name := "preserving".toList
  sessionTtlSeconds := 3600
  maxEntities := 100
  unknownOutputTokenAction := .preserve
  entities := []
  providers := []

/-- What was inserted is not read again. -/
theorem nested_kept :
    Rewritten (standIn [(ownerToken, guestToken)] .preserve) nestedReply
      ("Hi ".toList ++ guestToken ++ "!".toList) :=
  (((restore_single_pass nestedPipeline Unicode.ascii ⟨2⟩ ⟨3⟩
    preservingPolicy).1
      { content := some nestedReply, model := some "m".toList } nestedReply
      () [(ownerToken, guestToken)] () (by decide +kernel)
      (Or.inr (by decide +kernel))).2
        ⟨"Hi ".toList ++ guestToken ++ "!".toList,
          { restored := 1 }, some "m".toList, none⟩ ()
        (by decide +kernel) _).mpr rfl

end PrivacyGateway.Restoration
