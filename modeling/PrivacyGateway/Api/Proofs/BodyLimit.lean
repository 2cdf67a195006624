/-
The body limit, for every stream and every application.

What was read and written so far decides all: `bytesRead` of it is what
the counter has, the body handed on is within the limit (`Kept.handed`),
and what the client has is the application's own messages while they were
in time, or the refusal where the limit was passed before the first
(`Kept.replaced`, `Kept.own`). Each wrapper keeps this, so every run does.
-/
import PrivacyGateway.Api.Middleware

namespace PrivacyGateway.Api

open Interaction

/-- What is read and written, in order. -/
abbrev Trace : Type := List (Event Received Message)

/-- The bytes of a list of request messages. -/
def bodyBytes (messages : List Received) : Nat :=
  (messages.map Received.size).sum

def eventBytes : Event Received Message → Nat
  | .read message => message.size
  | .write _ => 0

/-- The bytes the server delivered so far. -/
def bytesRead (events : Trace) : Nat :=
  (events.map eventBytes).sum

theorem bytesRead_append (events more : Trace) :
    bytesRead (events ++ more) = bytesRead events + bytesRead more := by
  unfold bytesRead
  rw [List.map_append, List.sum_append]

theorem bytesRead_read (events : Trace) (message : Received) :
    bytesRead (events ++ [.read message]) =
      bytesRead events + message.size :=
  bytesRead_append events [.read message]

theorem bytesRead_write (events : Trace) (message : Message) :
    bytesRead (events ++ [.write message]) = bytesRead events :=
  bytesRead_append events [.write message]

theorem bodyBytes_concat (messages : List Received) (message : Received) :
    bodyBytes (messages ++ [message]) =
      bodyBytes messages + message.size := by
  unfold bodyBytes
  rw [List.map_append, List.sum_append]
  rfl

-- ==================================================== when it was written

/-- The limit was exceeded before the application's first message. -/
def Overrun (limit : Nat) (events : Trace) : Prop :=
  ∃ before message after, events = before ++ .write message :: after ∧
    written before = [] ∧ limit < bytesRead before

/-- The limit was not exceeded when any of the application's messages was
written. -/
def Timely (limit : Nat) (events : Trace) : Prop :=
  ∀ before message after, events = before ++ .write message :: after →
    bytesRead before ≤ limit

/-- An event at the end: it is the split, or the split was there. -/
theorem concat_eq_split {events before after : Trace}
    {event : Event Received Message} {message : Message} :
    events ++ [event] = before ++ .write message :: after ↔
      (after = [] ∧ events = before ∧ event = .write message) ∨
        ∃ rest, after = rest ++ [event] ∧
          events = before ++ .write message :: rest := by
  constructor
  · intro h
    rcases List.eq_nil_or_concat after with rfl | ⟨rest, last, rfl⟩
    · obtain ⟨hevents, hevent⟩ := List.append_inj' h rfl
      exact Or.inl ⟨rfl, hevents, List.singleton_inj.mp hevent⟩
    · rw [List.concat_eq_append, ← List.cons_append,
        ← List.append_assoc] at h
      obtain ⟨hevents, hlast⟩ := List.append_inj' h rfl
      cases List.singleton_inj.mp hlast
      exact Or.inr ⟨rest, List.concat_eq_append, hevents⟩
  · rintro (⟨rfl, rfl, rfl⟩ | ⟨rest, rfl, rfl⟩)
    · rfl
    · rw [List.append_assoc, List.cons_append]

section Written

variable {limit : Nat} {events : Trace} {message : Message}

theorem overrun_read (m : Received) :
    Overrun limit (events ++ [.read m]) ↔ Overrun limit events := by
  constructor
  · rintro ⟨before, sent, after, hsplit, hbefore⟩
    rcases concat_eq_split.mp hsplit with ⟨-, -, hread⟩ | ⟨rest, -, rfl⟩
    · cases hread
    · exact ⟨before, sent, rest, rfl, hbefore⟩
  · rintro ⟨before, sent, after, rfl, hbefore⟩
    exact ⟨before, sent, after ++ [.read m], by simp, hbefore⟩

theorem overrun_write :
    Overrun limit (events ++ [.write message]) ↔
      Overrun limit events ∨
        written events = [] ∧ limit < bytesRead events := by
  constructor
  · rintro ⟨before, sent, after, hsplit, hbefore⟩
    rcases concat_eq_split.mp hsplit with ⟨-, rfl, -⟩ | ⟨rest, -, rfl⟩
    · exact Or.inr hbefore
    · exact Or.inl ⟨before, sent, rest, rfl, hbefore⟩
  · rintro (⟨before, sent, after, rfl, hbefore⟩ | hnow)
    · exact ⟨before, sent, after ++ [.write message], by simp, hbefore⟩
    · exact ⟨events, message, [], rfl, hnow⟩

theorem timely_read (m : Received) :
    Timely limit (events ++ [.read m]) ↔ Timely limit events := by
  constructor
  · rintro h before sent after rfl
    exact h before sent (after ++ [.read m]) (by simp)
  · intro h before sent after hsplit
    rcases concat_eq_split.mp hsplit with ⟨-, -, hread⟩ | ⟨rest, -, hrest⟩
    · cases hread
    · exact h before sent rest hrest

theorem timely_write :
    Timely limit (events ++ [.write message]) ↔
      Timely limit events ∧ bytesRead events ≤ limit := by
  constructor
  · intro h
    refine ⟨?_, h events message [] rfl⟩
    rintro before sent after rfl
    exact h before sent (after ++ [.write message]) (by simp)
  · rintro ⟨h, hnow⟩ before sent after hsplit
    rcases concat_eq_split.mp hsplit with ⟨-, rfl, -⟩ | ⟨rest, -, hrest⟩
    · exact hnow
    · exact h before sent rest hrest

/-- More is read, never less. -/
theorem Overrun.exceeded (h : Overrun limit events) :
    limit < bytesRead events := by
  obtain ⟨before, sent, after, rfl, -, hbefore⟩ := h
  rw [bytesRead_append]
  omega

/-- What has a first message was written. -/
theorem Overrun.written_ne (h : Overrun limit events) :
    written events ≠ [] := by
  obtain ⟨before, sent, after, rfl, hnone, -⟩ := h
  rw [written_append, hnone]
  exact List.cons_ne_nil _ _

end Written

-- ==================================================== what is kept

/-- The first message, if any, starts a response. -/
def StartsFirst (messages : List Message) : Prop :=
  ∀ message ∈ messages.head?, ∃ status headers,
    message = .start status headers

/-- What the two wrappers keep. -/
structure Kept (limit : Nat) (requestId : Option Text) (guard : Guard)
    (events : Trace) (delivered : List Received) (output : List Message) :
    Prop where
  received : guard.received = bytesRead events
  exceeded : guard.exceeded = true ↔ limit < bytesRead events
  handed : bodyBytes delivered ≤ limit
  whole : bytesRead events ≤ limit →
    bodyBytes delivered = bytesRead events
  sentStart : StartsFirst (written events) →
    (guard.sentStart = true ↔ written events ≠ [])
  replaced : StartsFirst (written events) → Overrun limit events →
    output = errorResponse .requestTooLarge requestId
  own : Timely limit events → output = written events

section Kept

variable {limit : Nat} {requestId : Option Text} {guard : Guard}
  {events : Trace} {delivered : List Received} {output : List Message}

theorem kept_start : Kept limit requestId ⟨0, false, false⟩ [] [] [] where
  received := rfl
  exceeded := by simp [bytesRead]
  handed := Nat.zero_le _
  whole := fun _ => rfl
  sentStart := by simp [written]
  replaced := fun _ h => absurd rfl h.written_ne
  own := fun _ => rfl

/-- Reading changes nothing of what was written. -/
theorem Kept.of_read (h : Kept limit requestId guard events delivered output)
    {message handed : Received} {guard' : Guard}
    (hreceived : guard'.received = guard.received + message.size)
    (hexceeded : guard'.exceeded = true ↔
      limit < bytesRead events + message.size)
    (hsent : guard'.sentStart = guard.sentStart)
    (hhanded : bodyBytes delivered + handed.size ≤ limit)
    (hwhole : bytesRead events + message.size ≤ limit →
      handed.size = message.size) :
    Kept limit requestId guard' (events ++ [.read message])
      (delivered ++ [handed]) output := by
  have hwritten : written (events ++ [.read message]) = written events := by
    rw [written_append]
    exact List.append_nil _
  constructor
  · rw [bytesRead_read, hreceived, h.received]
  · rw [bytesRead_read]
    exact hexceeded
  · rw [bodyBytes_concat]
    exact hhanded
  · rw [bytesRead_read, bodyBytes_concat]
    intro hle
    rw [h.whole (by omega), hwhole hle]
  · rw [hwritten, hsent]
    exact h.sentStart
  · rw [hwritten, overrun_read]
    exact h.replaced
  · rw [hwritten, timely_read]
    exact h.own

theorem Kept.read (h : Kept limit requestId guard events delivered output)
    (message : Received) :
    Kept limit requestId (countingReceive limit message guard).2
      (events ++ [.read message])
      (delivered ++ [(countingReceive limit message guard).1]) output := by
  have hhanded := h.handed
  have hexceeded := h.exceeded
  have hwhole := h.whole
  cases message with
  | other type =>
      exact h.of_read rfl hexceeded rfl hhanded (fun _ => rfl)
  | request body moreBody =>
      unfold countingReceive
      simp only [h.received]
      split
      · rename_i hover
        refine h.of_read (by rw [h.received]; rfl) ?_ rfl hhanded ?_
        · exact iff_of_true rfl hover
        · intro hle
          exact absurd hle (Nat.not_le.mpr hover)
      · rename_i hunder
        -- what fits now has fitted all along
        have hnot : ¬ limit < bytesRead events := by omega
        refine h.of_read (by rw [h.received]; rfl) ?_ rfl ?_
          (fun _ => rfl)
        · exact iff_of_false (fun he => hnot (hexceeded.mp he)) hunder
        · rw [hwhole (Nat.not_lt.mp hnot)]
          exact Nat.not_lt.mp hunder

/-- What starts with a start still does before its last message. -/
theorem StartsFirst.before {messages : List Message} {message : Message}
    (h : StartsFirst (messages ++ [message])) : StartsFirst messages := by
  intro first hhead
  apply h
  rw [List.head?_append, Option.mem_def.mp hhead]
  rfl

/-- Writing changes nothing of what was read. -/
theorem Kept.of_write (h : Kept limit requestId guard events delivered output)
    {message : Message} {guard' : Guard} {output' : List Message}
    (hreceived : guard'.received = guard.received)
    (hexceeded : guard'.exceeded = guard.exceeded)
    (hsent : StartsFirst (written events ++ [message]) →
      guard'.sentStart = true)
    (hreplaced : StartsFirst (written events) →
      Overrun limit events ∨ written events = [] ∧
        limit < bytesRead events →
      output' = errorResponse .requestTooLarge requestId)
    (hown : Timely limit events → bytesRead events ≤ limit →
      output' = written events ++ [message]) :
    Kept limit requestId guard' (events ++ [.write message]) delivered
      output' := by
  have hwritten : written (events ++ [.write message]) =
      written events ++ [message] := written_append ..
  constructor
  · rw [bytesRead_write, hreceived, h.received]
  · rw [bytesRead_write, hexceeded]
    exact h.exceeded
  · exact h.handed
  · rw [bytesRead_write]
    exact h.whole
  · rw [hwritten]
    intro hstarts
    exact iff_of_true (hsent hstarts) (by simp)
  · rw [hwritten, overrun_write]
    exact fun hstarts => hreplaced hstarts.before
  · rw [hwritten, timely_write]
    exact fun htimely => hown htimely.1 htimely.2

/-- A message that starts nothing comes after one that does. -/
theorem Kept.sent_before
    (h : Kept limit requestId guard events delivered output)
    {message : Message}
    (hother : ∀ status headers, message ≠ .start status headers)
    (hstarts : StartsFirst (written events ++ [message])) :
    guard.sentStart = true := by
  rw [h.sentStart hstarts.before]
  intro hnil
  rw [hnil] at hstarts
  obtain ⟨status, headers, hmessage⟩ := hstarts message rfl
  exact hother status headers hmessage

/-- With nothing written, nothing was late. -/
theorem timely_of_written_nil (h : written events = []) :
    Timely limit events := by
  rintro before sent after rfl
  rw [written_append] at h
  cases (List.append_eq_nil_iff.mp h).2

theorem Kept.write (h : Kept limit requestId guard events delivered output)
    (message : Message) :
    Kept limit requestId (guardedSend requestId message guard).2
      (events ++ [.write message]) delivered
      (output ++ (guardedSend requestId message guard).1) := by
  unfold guardedSend
  by_cases hexceeded : guard.exceeded = true
  · have hover := h.exceeded.mp hexceeded
    by_cases hsent : guard.sentStart = true
    · -- the client has its answer, or a part of the application's
      rw [if_neg (fun hfirst => hfirst.2 hsent), if_pos hexceeded]
      show Kept limit requestId guard _ _ (output ++ [])
      rw [List.append_nil]
      refine h.of_write rfl rfl (fun _ => hsent) ?_ ?_
      · intro hstarts hcase
        rcases hcase with hcase | ⟨hnil, -⟩
        · exact h.replaced hstarts hcase
        · exact absurd hnil ((h.sentStart hstarts).mp hsent)
      · intro _ hle
        exact absurd hle (Nat.not_le.mpr hover)
    · -- the first message: the refusal takes its place
      rw [if_pos ⟨hexceeded, hsent⟩]
      refine h.of_write rfl rfl (fun _ => rfl) ?_ ?_
      · intro hstarts _
        have hnil : written events = [] := by
          by_contra hne
          exact hsent ((h.sentStart hstarts).mpr hne)
        rw [h.own (timely_of_written_nil hnil), hnil, List.nil_append]
      · intro _ hle
        exact absurd hle (Nat.not_le.mpr hover)
  · have hunder : ¬ limit < bytesRead events :=
      fun hover => hexceeded (h.exceeded.mpr hover)
    have hnone : ¬ (Overrun limit events ∨ written events = [] ∧
        limit < bytesRead events) := by
      rintro (hcase | hcase)
      · exact hunder hcase.exceeded
      · exact hunder hcase.2
    rw [if_neg (fun hfirst => hexceeded hfirst.1), if_neg hexceeded]
    have hrelayed : Timely limit events → bytesRead events ≤ limit →
        output ++ [message] = written events ++ [message] := by
      intro htimely _
      rw [h.own htimely]
    cases message with
    | start status headers =>
        exact h.of_write rfl rfl (fun _ => rfl)
          (fun _ hcase => absurd hcase hnone) hrelayed
    | body chunk moreBody =>
        exact h.of_write rfl rfl (h.sent_before (by simp))
          (fun _ hcase => absurd hcase hnone) hrelayed
    | other type =>
        exact h.of_write rfl rfl (h.sent_before (by simp))
          (fun _ hcase => absurd hcase hnone) hrelayed

end Kept

theorem Complete.startsFirst {messages : List Message}
    (h : Complete messages) : StartsFirst messages := by
  obtain ⟨status, headers, chunks, last, rfl⟩ := h
  rintro first hfirst
  exact ⟨status, headers, (Option.some.inj hfirst).symm⟩

-- ==================================================== the requests

/-- The one complete response of a refused request. -/
def Refused (code : ErrorCode) (requestId : Option Text)
    (output : List Message) : Prop :=
  output = errorResponse code requestId ∧ Complete output

/-- The declared size is absent, or a number within the limit. -/
def Declared (unicode : Unicode) (limit : Nat) (declared : Option Text) :
    Prop :=
  ∀ text ∈ declared, ∃ size, unicode.int text = some size ∧ size ≤ limit

section Call

variable (unicode : Unicode) (middleware : BodySizeLimitMiddleware)
  (scope : Scope)

theorem declaredError_none_iff :
    middleware.declaredError unicode scope = none ↔
      Declared unicode (middleware.limitFor scope.path)
        (scope.header contentLengthHeader) := by
  unfold BodySizeLimitMiddleware.declaredError Declared
  cases scope.header contentLengthHeader with
  | none => simp
  | some text =>
      cases hsize : unicode.int text with
      | none => simp [hsize]
      | some size => simp [hsize]

variable {unicode middleware scope}

theorem declaredError_malformed {text : Text}
    (htext : text ∈ scope.header contentLengthHeader)
    (hmalformed : unicode.int text = none) :
    middleware.declaredError unicode scope = some .invalidRequest := by
  unfold BodySizeLimitMiddleware.declaredError
  simp only [Option.mem_def.mp htext, hmalformed]

theorem declaredError_over {text : Text} {size : Int}
    (htext : text ∈ scope.header contentLengthHeader)
    (hsize : unicode.int text = some size)
    (hover : middleware.limitFor scope.path < size) :
    middleware.declaredError unicode scope = some .requestTooLarge := by
  unfold BodySizeLimitMiddleware.declaredError
  simp only [Option.mem_def.mp htext, hsize, hover, if_true]

variable {σ : Type}
  {path : Text} {headers : List (Text × Text)} {requestId : Option Text}
  (actions : σ → Action Received Message σ) (app : σ)
  (incoming : List Received) (turns : Nat)

/-- A refused request: the application does not run. -/
theorem call_refused {code : ErrorCode}
    (h : middleware.declaredError unicode (.http path headers requestId) =
      some code) :
    (middleware.call unicode (.http path headers requestId) actions app
        incoming turns).delivered = [] ∧
      (middleware.call unicode (.http path headers requestId) actions app
        incoming turns).events = [] ∧
      Refused code requestId (middleware.call unicode
        (.http path headers requestId) actions app incoming turns).output := by
  unfold BodySizeLimitMiddleware.call
  rw [if_neg (fun hother => hother rfl), h]
  exact ⟨rfl, rfl, rfl, complete_errorResponse code requestId⟩

/-- Any other: it runs between the two wrappers. -/
theorem kept_call
    (h : middleware.declaredError unicode (.http path headers requestId) =
      none) :
    ∃ guard, Kept (middleware.limitFor path) requestId guard
      (middleware.call unicode (.http path headers requestId) actions app
        incoming turns).events
      (middleware.call unicode (.http path headers requestId) actions app
        incoming turns).delivered
      (middleware.call unicode (.http path headers requestId) actions app
        incoming turns).output := by
  unfold BodySizeLimitMiddleware.call
  rw [if_neg (fun hother => hother rfl), h]
  refine ⟨_, run_invariant (P := Kept (middleware.limitFor path) requestId)
    ?_ ?_ turns kept_start⟩
  · exact fun _ _ _ _ message hkept => hkept.read message
  · exact fun _ _ _ _ message hkept => hkept.write message

end Call

/-- The limit holds for every request, every application and any number of
its turns. What the application is handed is within it. A malformed
declaration is refused as malformed, one over the limit as too large, and
then the application does not run. Where it does, and has sent one
complete response, the client has the refusal alone if the limit was
exceeded before the first message of it, and exactly that response if the
limit was not exceeded before the last. -/
theorem body_limit (unicode : Unicode)
    (middleware : BodySizeLimitMiddleware) (path : Text)
    (headers : List (Text × Text)) (requestId : Option Text) {σ : Type}
    (actions : σ → Action Received Message σ) (app : σ)
    (incoming : List Received) (turns : Nat) :
    let scope := Scope.http path headers requestId
    let limit := middleware.limitFor path
    let declared := scope.header contentLengthHeader
    let x := middleware.call unicode scope actions app incoming turns
    bodyBytes x.delivered ≤ limit ∧
      (∀ text ∈ declared, unicode.int text = none →
        x.events = [] ∧ Refused .invalidRequest requestId x.output) ∧
      (∀ text ∈ declared, ∀ size, unicode.int text = some size →
        limit < size →
          x.events = [] ∧ Refused .requestTooLarge requestId x.output) ∧
      (Declared unicode limit declared → Complete (written x.events) →
        (Overrun limit x.events →
          Refused .requestTooLarge requestId x.output) ∧
        (Timely limit x.events → x.output = written x.events)) := by
  intro scope limit declared x
  refine ⟨?_, ?_, ?_, ?_⟩
  · cases hdeclared : middleware.declaredError unicode scope with
    | some code =>
        have hnone := (call_refused actions app incoming turns hdeclared).1
        show bodyBytes x.delivered ≤ limit
        rw [show x.delivered = [] from hnone]
        exact Nat.zero_le _
    | none =>
        obtain ⟨guard, hkept⟩ :=
          kept_call actions app incoming turns hdeclared
        exact hkept.handed
  · intro text htext hmalformed
    exact (call_refused actions app incoming turns
      (declaredError_malformed htext hmalformed)).2
  · intro text htext size hsize hover
    exact (call_refused actions app incoming turns
      (declaredError_over htext hsize hover)).2
  · intro hwithin hcomplete
    obtain ⟨guard, hkept⟩ := kept_call actions app incoming turns
      ((declaredError_none_iff unicode middleware scope).mpr hwithin)
    refine ⟨fun hoverrun => ?_, hkept.own⟩
    have houtput := hkept.replaced hcomplete.startsFirst hoverrun
    refine ⟨houtput, ?_⟩
    rw [show x.output = _ from houtput]
    exact complete_errorResponse _ _

section Counterexamples

/-- It answers first, and then reads. -/
def earlyResponder : Nat → Action Received Message Nat
  | 0 => .write (.start 200 []) 1
  | 1 => .read (fun _ => 2)
  | 2 => .write (.body [111, 107] false) 3
  | _ => .finish

/-- What it sends where nothing stands in between. -/
def ownResponse : List Message :=
  (run (.passThrough : Filter Unit Received Message) earlyResponder 4
    (.begin 0 [.request [1] false] ())).output

/-- A body within the limit, declared to be `three` bytes long. -/
def malformed : Exchange Guard Received Message Nat :=
  BodySizeLimitMiddleware.call .ascii (.new 3 none [])
    (.http "/v1/detect".toList
      [("content-length".toList, "three".toList)] none)
    earlyResponder 0 [.request [1] false] 4

/-- A body over the limit, of no declared size. -/
def begun : Exchange Guard Received Message Nat :=
  BodySizeLimitMiddleware.call .ascii (.new 3 none [])
    (.http "/v1/detect".toList [] none)
    earlyResponder 0 [.request [1, 2, 3, 4] false] 4

/-- A body within the limit is refused, and not as too large, where its
declaration is malformed. And a response that the application had begun
before the limit was exceeded is never completed. -/
theorem malformed_refused :
    (malformed.output = errorResponse .invalidRequest none ∧
      Complete ownResponse ∧ malformed.output ≠ ownResponse ∧
      malformed.output ≠ errorResponse .requestTooLarge none) ∧
    ¬ Overrun 3 begun.events ∧ Complete (written begun.events) ∧
      ¬ Complete begun.output := by
  refine ⟨⟨rfl, ⟨200, [], [], [111, 107], rfl⟩, by decide, by decide⟩, ?_,
    ⟨200, [], [], [111, 107], rfl⟩, ?_⟩
  · rintro ⟨before, message, after, hsplit, hnone, hlimit⟩
    cases before with
    | nil => exact absurd hlimit (by decide)
    | cons event before =>
        injection hsplit with hevent _
        rw [← hevent] at hnone
        cases hnone
  · rintro ⟨status, headers, chunks, last, houtput⟩
    have hlength := congrArg List.length houtput
    rw [show begun.output.length = 1 from rfl, List.length_append,
      List.length_cons, List.length_singleton] at hlength
    omega

end Counterexamples

end PrivacyGateway.Api
