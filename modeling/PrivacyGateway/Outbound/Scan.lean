/-
The last look at a payload before it leaves.

`scanOutbound` runs the detector over every message and reports the types
the policy would act on. Detections that overlap a reserved range are
dropped first: the range of a gateway token, or one that opens with the
redaction marker and runs to the next right delimiter.

`findingsOf_split` reads one message's findings out of a whole scan, and
`scanOutbound_ok` gives the verdict from them.
-/
import Mathlib.Data.List.Dedup
import PrivacyGateway.Detection.Base
import PrivacyGateway.Lib.Find
import PrivacyGateway.Policy.Models
import PrivacyGateway.Tokenization.Grammar

namespace PrivacyGateway.Outbound

open Detection Effect Find Tokenization

def redactionPrefix : Text := "⟦SGW:REDACTED:".toList

/-- What the outbound check concluded. -/
inductive ScanVerdict
  | clean
  | blocked
deriving DecidableEq

def ScanVerdict.value : ScanVerdict → Text
  | .clean => "clean".toList
  | .blocked => "blocked".toList

/-- The result of scanning one payload: entity type names only. -/
structure OutboundScan where
  verdict : ScanVerdict
  findings : List Text
deriving DecidableEq

def OutboundScan.isClean (scan : OutboundScan) : Bool :=
  scan.verdict == .clean

-- ==================================================== reserved ranges

/-- The search loop for redactions from a position on. Each round moves
past a delimiter, so the text's length bounds the rounds. -/
def redactionsFrom (text : Text) : Nat → Nat → List (Nat × Nat)
  | 0, _ => []
  | rounds + 1, start =>
      match findFrom redactionPrefix text start with
      | none => []
      | some cursor =>
          match findFrom [rightDelimiter] text cursor with
          | none => []
          | some closing =>
              (cursor, closing + 1) :: redactionsFrom text rounds closing

/-- The ranges of the tokens, then those of the redactions. -/
def reservedRanges (text : Text) : List (Nat × Nat) :=
  (findTokens text).map (fun found => (found.start, found.stop)) ++
    redactionsFrom text (text.length + 1) 0

/-- The span and the range share a position. -/
def overlapsRange (entity : DetectedEntity) (range : Nat × Nat) : Bool :=
  decide (entity.start < range.2) && decide (range.1 < entity.stop)

/-- Drop detections that overlap a gateway token or a redaction. -/
def outsidePlaceholders (text : Text) (detected : List DetectedEntity) :
    List DetectedEntity :=
  if reservedRanges text = [] then detected
  else detected.filter (fun entity =>
    !(reservedRanges text).any (overlapsRange entity))

-- ==================================================== the scan

/-- The policy would act on the detection. -/
def isActionable (policy : PolicySnapshot) (entity : DetectedEntity) :
    Bool :=
  decide (policy.minScoreFor entity.entityType ≤ entity.score) &&
    decide (policy.actionFor entity.entityType ≠ .allow)

/-- The entity types the policy would act on in a detected text. -/
def actionableTypes (policy : PolicySnapshot) (text : Text)
    (detected : List DetectedEntity) : List Text :=
  ((outsidePlaceholders text detected).filter (isActionable policy)).map
    DetectedEntity.entityType

section Scan

variable {unicode : Unicode} {σ : Type} (detector : Detector unicode σ)
  (policy : PolicySnapshot) (language : Text)

/-- Entity type names the policy would act on, for one message. -/
def findingsIn (text : Text) : Eff σ Exn (List Text) :=
  if unicode.strip text = [] then pure []
  else do
    let detected ← detector.detect text language
    return actionableTypes policy text detected

/-- The findings of every message, each scanned as its own text. -/
def findingsOf : List ChatMessage → Eff σ Exn (List Text)
  | [] => pure []
  | message :: messages => do
      let found ← findingsIn detector policy language message.content
      let rest ← findingsOf messages
      return found ++ rest

/-- Detect over every message of the payload and report what survived. -/
def scanOutbound (request : ProtectedChatRequest) :
    Eff σ Exn OutboundScan := do
  let findings ← findingsOf detector policy language request.messages
  let ordered := findings.dedup.insertionSort (· ≤ ·)
  return ⟨if ordered = [] then .clean else .blocked, ordered⟩

variable {detector policy language} {s t : σ}

/-- A returned scan of one message reports what its detection left. -/
theorem findingsIn_ok {text : Text} {detected : List DetectedEntity}
    {found : List Text} {u : σ}
    (hdetect : runIn (detector.detect text language) s = (.ok detected, u))
    (hfound : runIn (findingsIn detector policy language text) s =
      (.ok found, t)) :
    found = actionableTypes policy text detected := by
  unfold findingsIn at hfound
  by_cases hblank : unicode.strip text = []
  · rw [if_pos hblank, runIn_pure] at hfound
    cases hfound
    rw [detector.detect_blank text language s u detected hblank hdetect]
    unfold actionableTypes outsidePlaceholders
    simp
  · rw [if_neg hblank, bind_ok_iff] at hfound
    obtain ⟨detected', u', hdetect', hrest⟩ := hfound
    rw [hdetect] at hdetect'
    cases hdetect'
    rw [runIn_pure] at hrest
    cases hrest
    rfl

/-- A returned scan went through each of its messages. -/
theorem findingsOf_split (before : List ChatMessage)
    {message : ChatMessage} {after : List ChatMessage} {found : List Text} :
    ∀ {s}, runIn (findingsOf detector policy language
        (before ++ message :: after)) s = (.ok found, t) →
      ∃ earlier mid own u later,
        runIn (findingsOf detector policy language before) s =
          (.ok earlier, mid) ∧
        runIn (findingsIn detector policy language message.content) mid =
          (.ok own, u) ∧
        found = earlier ++ (own ++ later) := by
  revert found
  induction before with
  | nil =>
      intro found s h
      rw [List.nil_append, findingsOf, bind_ok_iff] at h
      obtain ⟨own, u, hown, h⟩ := h
      obtain ⟨later, w, -, h⟩ := bind_ok_iff.mp h
      rw [runIn_pure] at h
      cases h
      exact ⟨[], s, own, u, later, rfl, hown, rfl⟩
  | cons first before ih =>
      intro found s h
      rw [List.cons_append, findingsOf, bind_ok_iff] at h
      obtain ⟨head, u, hhead, h⟩ := h
      obtain ⟨rest, w, hrest, h⟩ := bind_ok_iff.mp h
      rw [runIn_pure] at h
      cases h
      obtain ⟨earlier, mid, own, u', later, hbefore, hown, rfl⟩ := ih hrest
      refine ⟨head ++ earlier, mid, own, u', later, ?_, hown, ?_⟩
      · rw [findingsOf, bind_ok_iff]
        refine ⟨head, u, hhead, ?_⟩
        rw [bind_ok_iff]
        exact ⟨earlier, mid, hbefore, rfl⟩
      · rw [List.append_assoc]

/-- The verdict of a returned scan: blocked when anything was found. -/
theorem scanOutbound_ok {request : ProtectedChatRequest}
    {scan : OutboundScan}
    (h : runIn (scanOutbound detector policy language request) s =
      (.ok scan, t)) :
    ∃ findings, runIn (findingsOf detector policy language
        request.messages) s = (.ok findings, t) ∧
      (scan.verdict = .blocked ↔ findings ≠ []) := by
  unfold scanOutbound at h
  obtain ⟨findings, u, hfind, h⟩ := bind_ok_iff.mp h
  rw [runIn_pure] at h
  cases h
  refine ⟨findings, hfind, ?_⟩
  have hempty : findings.dedup.insertionSort (· ≤ ·) = [] ↔
      findings = [] := by
    simp only [List.eq_nil_iff_forall_not_mem, List.mem_insertionSort,
      List.mem_dedup]
  by_cases hnil : findings = []
  · rw [if_pos (hempty.mpr hnil)]
    simp [hnil]
  · rw [if_neg (fun h => hnil (hempty.mp h))]
    simp [hnil]

end Scan

end PrivacyGateway.Outbound
