/-
What a summary counts.

A summary of a transform counts types of its detections only, and merging
two summaries counts the types of both. So what holds of every type that
was detected holds of every type that is counted.

Over a plan with nothing blocked, each span is counted once among the
actions (`tally_total`) and once among the types (`countTypes_total`).
-/
import Mathlib.Algebra.BigOperators.Group.List.Basic
import PrivacyGateway.Tokenization.Proofs.Transform

namespace PrivacyGateway

variable {P : Text → Prop}

/-- Every type the summary counts has the property. -/
def PrivacySummary.Counts (P : Text → Prop) (summary : PrivacySummary) :
    Prop :=
  ∀ name ∈ summary.entityTypes.keys, P name

theorem PrivacySummary.counts_empty :
    ({} : PrivacySummary).Counts P := by
  intro name hname
  cases hname

theorem PrivacySummary.mem_keys_mergeTypes (other : Dict Text Nat) :
    ∀ {combined : Dict Text Nat} {name : Text},
      name ∈ Dict.keys (mergeTypes combined other) →
        name ∈ combined.keys ∨ name ∈ other.keys := by
  induction other with
  | nil =>
      intro combined name h
      exact Or.inl h
  | cons entry other ih =>
      intro combined name h
      rcases ih h with h | h
      · rcases Dict.mem_keys_set.mp h with rfl | h
        · exact Or.inr List.mem_cons_self
        · exact Or.inl h
      · exact Or.inr (List.mem_cons_of_mem _ h)

theorem PrivacySummary.Counts.mergedWith {s other : PrivacySummary}
    (h : s.Counts P) (h' : other.Counts P) :
    (s.mergedWith other).Counts P := by
  intro name hname
  rcases mem_keys_mergeTypes _ hname with hname | hname
  · exact h name hname
  · exact h' name hname

/-- A merge with a summary that counts no types. -/
theorem PrivacySummary.Counts.mergedWith_nil {s other : PrivacySummary}
    (h : s.Counts P) (hother : other.entityTypes = []) :
    (s.mergedWith other).Counts P := by
  apply h.mergedWith
  intro name hname
  rw [hother] at hname
  cases hname

end PrivacyGateway

namespace PrivacyGateway.Tokenization

open Effect

variable {P : Text → Prop}

theorem mem_keys_countTypes (plan : List Planned) :
    ∀ {counts : Dict Text Nat} {name : Text},
      name ∈ Dict.keys (countTypes plan counts) →
        name ∈ counts.keys ∨ ∃ item ∈ plan, item.1.entityType = name := by
  induction plan with
  | nil =>
      intro counts name h
      exact Or.inl h
  | cons item plan ih =>
      intro counts name h
      rcases ih h with h | ⟨later, hlater, hname⟩
      · rcases Dict.mem_keys_set.mp h with rfl | h
        · exact Or.inr ⟨item, List.mem_cons_self, rfl⟩
        · exact Or.inl h
      · exact Or.inr ⟨later, List.mem_cons_of_mem _ hlater, hname⟩

/-- Counting a type once more adds one to the total. -/
theorem sum_count (counts : Dict Text Nat) (name : Text) :
    ((counts.set name ((counts.get? name).getD 0 + 1)).map Prod.snd).sum =
      (counts.map Prod.snd).sum + 1 := by
  induction counts with
  | nil => rfl
  | cons entry counts ih =>
      unfold Dict.set Dict.get?
      by_cases hname : entry.1 = name
      · rw [if_pos hname, if_pos hname]
        simp only [List.map_cons, List.sum_cons, Option.getD_some]
        omega
      · rw [if_neg hname, if_neg hname]
        simp only [List.map_cons, List.sum_cons, ih]
        omega

theorem sum_countTypes (plan : List Planned) :
    ∀ counts : Dict Text Nat,
      ((countTypes plan counts).map Prod.snd).sum =
        (counts.map Prod.snd).sum + plan.length := by
  induction plan with
  | nil =>
      intro counts
      rfl
  | cons item plan ih =>
      intro counts
      unfold countTypes
      rw [ih, sum_count, List.length_cons]
      omega

theorem countTypes_total (plan : List Planned) :
    ((summarize plan).entityTypes.map Prod.snd).sum = plan.length := by
  show ((countTypes plan []).map Prod.snd).sum = plan.length
  rw [sum_countTypes]
  simp

/-- Where nothing is blocked, every span is counted under one action. -/
theorem tally_total {plan : List Planned}
    (h : ∀ item ∈ plan, item.2 ≠ .block) :
    tally plan .tokenize + tally plan .redact + tally plan .pseudonymize +
      tally plan .allow = plan.length := by
  unfold tally
  induction plan with
  | nil => rfl
  | cons item plan ih =>
      obtain ⟨hhead, hrest⟩ := List.forall_mem_cons.mp h
      simp only [List.countP_cons, List.length_cons, ← ih hrest]
      cases haction : item.2 with
      | allow => simp; omega
      | redact => simp; omega
      | tokenize => simp; omega
      | pseudonymize => simp; omega
      | block => exact absurd haction hhead

/-- A returned transform counts types of its detections. -/
theorem transform_counts {σ : Type} {unicode : Unicode} {hashes : Hashes}
    {fingerprinter : Fingerprinter} {vault : VaultLike σ}
    {tenantId sessionId : UUID} {text : Text}
    {entities : List DetectedEntity} {policy : PolicySnapshot} {s t : σ}
    {out : TransformedText} (hentities : ∀ e ∈ entities, P e.entityType)
    (h : runIn (transform unicode hashes fingerprinter vault tenantId
      sessionId text entities policy) s = (.ok out, t)) :
    out.summary.Counts P := by
  obtain ⟨selected, -, hplans, -, -, -, -, hsummary⟩ := transform_ok h
  rw [hsummary]
  intro name hname
  rcases mem_keys_countTypes _ hname with hname | ⟨item, hitem, rfl⟩
  · cases hname
  · obtain ⟨e, he, rfl⟩ := List.mem_map.mp hitem
    obtain ⟨-, rfl⟩ := selectEntities_ok_iff.mp hplans.selects
    exact hentities e
      (List.mem_of_mem_filter (mem_of_mem_resolveOverlaps he))

end PrivacyGateway.Tokenization
