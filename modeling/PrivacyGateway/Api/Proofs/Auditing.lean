/-
What the audit trail says of a request, on either route.

Chat and documents end the same way as far as their rows go, so two
questions have one answer each. A row that is built is valid exactly when
both aliases are codes (`built_row_valid_iff`); the schema and the policy
admit aliases that are not. An attestation is on record exactly once if the
answer was restored, or, for a document, if the scan refused the payload,
and not otherwise (`recordedOnce_iff`).
-/
import PrivacyGateway.Documents.Proofs.Governance
import PrivacyGateway.Pipeline.Proofs.Journal

namespace PrivacyGateway.Api

open Audit Effect Ledger

/-- A request on either route. -/
inductive Request
  | chat (request : Pipeline.ChatRequest)
  | document (request : Documents.DocumentRequest)

namespace Request

def provider : Request → Text
  | .chat request => request.provider
  | .document request => request.provider

def model : Request → Text
  | .chat request => request.model
  | .document request => request.model

def IsDocument : Request → Prop
  | .chat _ => False
  | .document _ => True

end Request

section Routes

variable {unicode : Unicode} {σ : Type} (services : Services unicode σ)
  (principal : Principal)

/-- What a request writes in its journal. -/
def acts (l : Task σ) : Request → List Event
  | .chat request => written (Pipeline.invoke services request principal) l
  | .document request =>
      written (Documents.run services principal request) l

/-- The caller gets an answer. -/
def Answered (l : Task σ) : Request → Prop
  | .chat request => ∃ response,
      (runIn (Pipeline.invoke services request principal) l.unwritten).1 =
        .ok response
  | .document request => ∃ answer,
      (runIn (Documents.run services principal request) l.unwritten).1 =
        .ok answer

/-- How a request on either route ends. -/
theorem acts_ended (l : Task σ) (request : Request) :
    Ended (AliasesAreCodes request.provider request.model)
      request.IsDocument (Answered services principal l request)
      services.settings.auditFailClosed
      (acts services principal l request) := by
  cases request with
  | chat request =>
      cases hrun : runIn (Pipeline.invoke services request principal)
          l.unwritten with
      | mk r l' =>
          obtain ⟨events, hafter, hended⟩ := Pipeline.invoke_ended hrun
          simp only [acts, Answered]
          rw [written_eq hrun hafter, hrun]
          exact hended
  | document request =>
      cases hrun : runIn (Documents.run services principal request)
          l.unwritten with
      | mk r l' =>
          obtain ⟨events, hafter, hended⟩ := Documents.run_ended hrun
          simp only [acts, Answered]
          rw [written_eq hrun hafter, hrun]
          exact hended

/-- A row that is built passes the record's validation exactly when the
aliases of the request are codes; failing closed, no other request is
answered. -/
theorem built_row_valid_iff (l : Task σ) (request : Request) :
    (∀ fields, Event.built fields ∈ acts services principal l request →
      (fields.Valid ↔ AliasesAreCodes request.provider request.model)) ∧
    (services.settings.auditFailClosed = true →
      Answered services principal l request →
        AliasesAreCodes request.provider request.model) := by
  have hended := acts_ended services principal l request
  constructor
  · intro fields hbuilt
    exact hended.valid_iff hbuilt
  · intro hclosed hanswered
    exact hended.codes_of_answered hclosed hanswered

end Routes

-- ==================================================== an alias with a space

/-- A model alias that the schema and the policy admit. -/
def spacedModel : Text := "small model".toList

def spacedPolicy : PolicyDocument :=
  { Documents.echoPolicy with
    providers := [("echo".toList, [spacedModel])] }

/-- The policy is active and cached. -/
def spacedTask : Task Unit where
  shared :=
    { policies :=
        { active := [(⟨0⟩, ⟨⟨5⟩, 1, .ok spacedPolicy, by decide⟩)]
          entries := [(⟨0⟩,
            ⟨.fromDocument spacedPolicy ⟨5⟩ ⟨0⟩ 1, 100, by decide⟩)] } }
  world := ()

theorem spacedModel_bounded :
    1 ≤ spacedModel.length ∧ spacedModel.length ≤ 128 := by
  decide

def spacedChat : Pipeline.ChatRequest where
  provider := "echo".toList
  model := spacedModel
  messages := [⟨.user, "Hi".toList⟩]
  provider_bounded := Documents.echo_bounded
  model_bounded := spacedModel_bounded
  messages_nonempty := List.cons_ne_nil _ _
  temperature_bounded := by
    intro t h
    cases h
  maxOutputTokens_bounded := by
    intro n h
    cases h

def spacedDocument : Documents.DocumentRequest :=
  { Documents.shortRequest with
    model := spacedModel
    model_bounded := spacedModel_bounded }

/-- A row was constructed, or it was tried. -/
def buildsRow (events : List Event) : Bool :=
  events.any (fun event =>
    match event with
    | .built _ => true
    | _ => false)

theorem built_of_buildsRow {events : List Event}
    (h : buildsRow events = true) :
    ∃ fields, Event.built fields ∈ events := by
  obtain ⟨event, hevent, hbuilt⟩ := List.any_eq_true.mp h
  cases event with
  | built fields => exact ⟨fields, hevent⟩
  | _ => cases hbuilt

/-- The provider is called on both routes, the chat request is answered,
and no row can be constructed. -/
theorem spaced_alias_unaudited :
    (∀ request ∈ [Request.chat spacedChat, .document spacedDocument],
      Event.called "echo".toList ∈
          acts Documents.echoServices ⟨⟨0⟩, ⟨6⟩⟩ spacedTask request ∧
        ∃ fields, Event.built fields ∈
          acts Documents.echoServices ⟨⟨0⟩, ⟨6⟩⟩ spacedTask request ∧
            ¬ fields.Valid) ∧
      Answered Documents.echoServices ⟨⟨0⟩, ⟨6⟩⟩ spacedTask
        (.chat spacedChat) := by
  have hinvalid : ∀ request : Request,
      request.model = spacedModel →
      buildsRow (acts Documents.echoServices ⟨⟨0⟩, ⟨6⟩⟩ spacedTask
        request) = true →
      ∃ fields, Event.built fields ∈
        acts Documents.echoServices ⟨⟨0⟩, ⟨6⟩⟩ spacedTask request ∧
          ¬ fields.Valid := by
    intro request hmodel hbuilds
    obtain ⟨fields, hbuilt⟩ := built_of_buildsRow hbuilds
    refine ⟨fields, hbuilt, ?_⟩
    rw [(acts_ended _ _ _ request).valid_iff hbuilt]
    intro hcodes
    have hspaced : matchesCode spacedModel = true := hmodel ▸ hcodes.2
    exact absurd hspaced (by decide)
  have hchat : Event.called "echo".toList ∈ acts Documents.echoServices
      ⟨⟨0⟩, ⟨6⟩⟩ spacedTask (.chat spacedChat) := by
    decide +kernel
  have hdocument : Event.called "echo".toList ∈ acts Documents.echoServices
      ⟨⟨0⟩, ⟨6⟩⟩ spacedTask (.document spacedDocument) := by
    decide +kernel
  have hchatRow : buildsRow (acts Documents.echoServices ⟨⟨0⟩, ⟨6⟩⟩
      spacedTask (.chat spacedChat)) = true := by
    decide +kernel
  have hdocumentRow : buildsRow (acts Documents.echoServices ⟨⟨0⟩, ⟨6⟩⟩
      spacedTask (.document spacedDocument)) = true := by
    decide +kernel
  refine ⟨?_, ?_⟩
  · rw [List.forall_mem_cons, List.forall_mem_singleton]
    exact ⟨⟨hchat, hinvalid (.chat spacedChat) rfl hchatRow⟩,
      ⟨hdocument, hinvalid (.document spacedDocument) rfl hdocumentRow⟩⟩
  · have hok : (runIn (Pipeline.invoke Documents.echoServices spacedChat
        ⟨⟨0⟩, ⟨6⟩⟩) spacedTask.unwritten).1.isOk = true := by
      decide +kernel
    show ∃ response, (runIn (Pipeline.invoke Documents.echoServices
      spacedChat ⟨⟨0⟩, ⟨6⟩⟩) spacedTask.unwritten).1 = .ok response
    generalize (runIn (Pipeline.invoke Documents.echoServices spacedChat
      ⟨⟨0⟩, ⟨6⟩⟩) spacedTask.unwritten).1 = answer at hok
    cases answer with
    | ok response => exact ⟨response, rfl⟩
    | error e => cases hok

-- ==================================================== attestations on record

section Attestations

variable {unicode : Unicode} {σ : Type} (services : Services unicode σ)
  (principal : Principal)

/-- An attestation is on record exactly once when the aliases are codes
and either the answer was restored to a text that can be digested, or the
payload is a document's and the scan refused it; and not otherwise. -/
theorem recordedOnce_iff (l : Task σ) (request : Request)
    (payload : ProtectedChatRequest) (attestation : Outbound.Attestation)
    (hattested : Event.attested payload attestation ∈
      acts services principal l request) :
    RecordedOnce attestation (acts services principal l request) ↔
      AliasesAreCodes request.provider request.model ∧
        (RestoredDigestible (acts services principal l request) ∨
          request.IsDocument ∧ attestation.scan.isClean = false) :=
  (acts_ended services principal l request).once_iff hattested

end Attestations

-- ==================================================== answered, and failed

/-- A policy under which the aliases are codes, cached. -/
def echoTask : Task Unit where
  shared :=
    { policies :=
        { active := [(⟨0⟩, ⟨⟨5⟩, 1, .ok Documents.echoPolicy, by decide⟩)]
          entries := [(⟨0⟩, ⟨.fromDocument Documents.echoPolicy ⟨5⟩ ⟨0⟩ 1,
            100, Documents.echoSnapshot_version⟩)] } }
  world := ()

def echoChat : Pipeline.ChatRequest :=
  { spacedChat with
    model := "small".toList
    model_bounded := Documents.small_bounded }

/-- The first attestation a journal shows. -/
def firstAttested (events : List Event) :
    Option (ProtectedChatRequest × Outbound.Attestation) :=
  events.findSome? (fun event =>
    match event with
    | .attested payload attestation => some (payload, attestation)
    | _ => none)

theorem attested_of_firstAttested {events : List Event}
    (h : (firstAttested events).isSome = true) :
    ∃ payload attestation, Event.attested payload attestation ∈ events := by
  obtain ⟨found, hfound⟩ := Option.isSome_iff_exists.mp h
  obtain ⟨event, hmem, hevent⟩ := List.exists_of_findSome?_eq_some hfound
  cases event with
  | attested payload attestation => exact ⟨payload, attestation, hmem⟩
  | _ => cases hevent

/-- The attestation of an answered request is on record. -/
theorem recordedOnce_echo :
    ∃ payload attestation, Event.attested payload attestation ∈
        acts Documents.echoServices ⟨⟨0⟩, ⟨6⟩⟩ echoTask (.chat echoChat) ∧
      RecordedOnce attestation
        (acts Documents.echoServices ⟨⟨0⟩, ⟨6⟩⟩ echoTask
          (.chat echoChat)) := by
  have hattested : (firstAttested (acts Documents.echoServices ⟨⟨0⟩, ⟨6⟩⟩
      echoTask (.chat echoChat))).isSome = true := by
    decide +kernel
  have hrestored : Event.restored 1 "Hello".toList ∈
      acts Documents.echoServices ⟨⟨0⟩, ⟨6⟩⟩ echoTask
        (.chat echoChat) := by
    decide +kernel
  have hcodes : AliasesAreCodes "echo".toList "small".toList := by
    unfold AliasesAreCodes
    decide
  have hprefix : CorrelationHasher.Prefixes
      (encodeUtf8 "Hello".toList) := by
    unfold CorrelationHasher.Prefixes
    decide +kernel
  obtain ⟨payload, attestation, hmem⟩ := attested_of_firstAttested hattested
  exact ⟨payload, attestation, hmem,
    (recordedOnce_iff Documents.echoServices ⟨⟨0⟩, ⟨6⟩⟩ echoTask
      (.chat echoChat) payload attestation hmem).mpr
      ⟨hcodes, Or.inl ⟨1, _, hrestored, hprefix⟩⟩⟩

/-- The provider raises. -/
def failingServices : Services Unicode.ascii Unit :=
  .standalone Documents.tickingClock "echo".toList
    (.error (gatewayError .providerUnavailable []))
    (.ok Documents.shortDocument)

/-- The payload of the request is attested, and no single row records the
attestation. -/
def Unrecorded (request : Request) : Prop :=
  ∃ payload attestation,
    Event.attested payload attestation ∈
      acts failingServices ⟨⟨0⟩, ⟨6⟩⟩ echoTask request ∧
    ¬ RecordedOnce attestation
      (acts failingServices ⟨⟨0⟩, ⟨6⟩⟩ echoTask request)

theorem unrecorded_of {request : Request}
    (hattested : (firstAttested (acts failingServices ⟨⟨0⟩, ⟨6⟩⟩ echoTask
      request)).isSome = true)
    (hnever : ∀ attestation, ¬ RecordedOnce attestation
      (acts failingServices ⟨⟨0⟩, ⟨6⟩⟩ echoTask request)) :
    Unrecorded request := by
  obtain ⟨payload, attestation, hmem⟩ := attested_of_firstAttested hattested
  exact ⟨payload, attestation, hmem, hnever attestation⟩

/-- The payload is attested and the provider fails: the chat request has a
row that knows nothing of the attestation, and the document request has
none. -/
theorem provider_failure_unrecorded :
    Unrecorded (.chat echoChat) ∧
      Unrecorded (.document Documents.shortRequest) := by
  have hchat : (firstAttested (acts failingServices ⟨⟨0⟩, ⟨6⟩⟩ echoTask
      (.chat echoChat))).isSome = true := by
    decide +kernel
  have hdocument : (firstAttested (acts failingServices ⟨⟨0⟩, ⟨6⟩⟩ echoTask
      (.document Documents.shortRequest))).isSome = true := by
    decide +kernel
  have hchatRows : ((submittedRecords (acts failingServices ⟨⟨0⟩, ⟨6⟩⟩
      echoTask (.chat echoChat))).map (fun record =>
        record.fields.outboundHmac)) = [none] := by
    decide +kernel
  have hdocumentRows : submittedRecords (acts failingServices ⟨⟨0⟩, ⟨6⟩⟩
      echoTask (.document Documents.shortRequest)) = [] := by
    decide +kernel
  refine ⟨unrecorded_of hchat ?_, unrecorded_of hdocument ?_⟩
  · intro attestation hrecorded
    obtain ⟨record, hone, hmac, -⟩ := hrecorded
    rw [hone, List.map_singleton, hmac] at hchatRows
    cases hchatRows
  · intro attestation hrecorded
    obtain ⟨record, hone, -⟩ := hrecorded
    rw [hdocumentRows] at hone
    cases hone

end PrivacyGateway.Api
