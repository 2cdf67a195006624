/-
The OpenAI adapter, built on the Responses API.

The client is a parameter: `Endpoint` says how each call of it ends, and
after how long. A call that is still running when the deadline passes is
cancelled at that moment, as a sleep is (`spend`); what there is of a
response is read without waiting. What the adapter acts on is its clock
and the calls it has made.

A response object is read as the adapter reads it: an attribute that is
missing, or of another type than the one asked for, is `none`.
-/
import PrivacyGateway.Llm.Base

namespace PrivacyGateway.Llm

open Effect

-- ==================================================== responses

/-- A part of an output item. -/
structure OutputPart where
  type : Option Text
  text : Option Text
deriving DecidableEq

/-- The content of an output item. -/
inductive ItemContent
  | absent
  | parts (parts : List OutputPart)
  | unreadable
deriving DecidableEq

/-- What the SDK hands back. -/
structure RawResponse where
  output : Option (List ItemContent)
  model : Option Text
  usage : Option ProviderUsage
  incompleteReason : Option Text
  status : Option Text
deriving DecidableEq

def outputTextPartType : Text := "output_text".toList

def responseInvalid (why : String) : Exn :=
  gatewayError .providerResponseInvalid (reason why)

/-- The texts of the parts that are output text. -/
def outputTexts (parts : List OutputPart) : List Text :=
  parts.filterMap fun part =>
    if part.type = some outputTextPartType then part.text else none

/-- The loop over the items. -/
def collectParts (parts : List Text) :
    List ItemContent → Except Exn (List Text)
  | [] => .ok parts
  | .absent :: items => collectParts parts items
  | .parts found :: items => collectParts (parts ++ outputTexts found) items
  | .unreadable :: _ => .error (responseInvalid "unreadable_output")

/-- Concatenate output text parts, tolerating any shape. -/
def extractOutputText (raw : RawResponse) : Except Exn Text :=
  match raw.output with
  | none => .error (responseInvalid "missing_output")
  | some items =>
      match collectParts [] items with
      | .error e => .error e
      | .ok parts => .ok parts.flatten

/-- Token accounting, when the provider reports any. -/
def extractUsage (raw : RawResponse) : Option ProviderUsage :=
  match raw.usage with
  | none => none
  | some usage => if usage = {} then none else some usage

/-- A string that is not empty. -/
def nonEmpty (value : Option Text) : Option Text :=
  value.filter (fun text => decide (text ≠ []))

/-- The incomplete reason, or else the status. -/
def extractFinishReason (raw : RawResponse) : Option Text :=
  (nonEmpty raw.incompleteReason).or (nonEmpty raw.status)

/-- Validate the provider payload and narrow it. -/
def toProviderResponse (raw : RawResponse) (modelId : Text) :
    Except Exn ProviderResponse :=
  match extractOutputText raw with
  | .error e => .error e
  | .ok content =>
      if content = [] then .error (responseInvalid "empty_output")
      else
        .ok
          { content := some content
            model := some ((nonEmpty raw.model).getD modelId)
            usage := extractUsage raw
            finishReason := extractFinishReason raw }

-- ==================================================== calls

/-- The arguments of one call of the client. -/
structure ResponsesCall where
  model : Text
  input : List (MessageRole × Text)
  store : Bool
  temperature : Option Rat
  maxOutputTokens : Option Int
deriving DecidableEq

/-- How a call ends: with a response, or in one of the SDK's errors. -/
inductive Reply
  | response (raw : RawResponse)
  | timeout
  | connection
  | status (statusCode : Int)
  | client
deriving DecidableEq

/-- The client, by the number of the call. -/
structure Endpoint where
  reply : Nat → Reply
  seconds : Nat → Rat
  seconds_nonneg : ∀ call, 0 ≤ seconds call

/-- The adapter's clock, from the start of a request, and the calls it
made. -/
structure Session where
  clock : Rat
  calls : List ResponsesCall
deriving DecidableEq

def Session.start : Session := ⟨0, []⟩

def timeoutError : Exn := .other "TimeoutError"

/-- Wait so long, or until the deadline. -/
def spend (deadline seconds : Rat) : Eff Session Exn Unit :=
  act fun s =>
    if s.clock + seconds < deadline then
      (.ok (), { s with clock := s.clock + seconds })
    else (.error timeoutError, { s with clock := max s.clock deadline })

-- ==================================================== the adapter

structure OpenAIProvider where
  providerAlias : Text
  models : ModelCatalog
  connectTimeoutSeconds : Rat
  readTimeoutSeconds : Rat
  maxRetries : Nat
  backoffBaseSeconds : Rat := defaultRetryBackoffBaseSeconds
  deadlineSeconds : Option Rat := none

namespace OpenAIProvider

variable (provider : OpenAIProvider)

/-- `deadline_seconds or overall_deadline_seconds(…)`: nought is as good
as none. -/
def deadline : Rat :=
  match provider.deadlineSeconds with
  | none => overallDeadlineSeconds provider.connectTimeoutSeconds
      provider.readTimeoutSeconds provider.maxRetries
      provider.backoffBaseSeconds
  | some seconds =>
      if seconds = 0 then
        overallDeadlineSeconds provider.connectTimeoutSeconds
          provider.readTimeoutSeconds provider.maxRetries
          provider.backoffBaseSeconds
      else seconds

/-- Structured detail for operators. -/
def logContext (extra : List (String × LogValue)) :
    List (String × LogValue) :=
  ("provider_alias", .text (safeAliasForLog provider.providerAlias)) :: extra

def attemptTimeoutError (attempt : Nat) : Exn :=
  gatewayError .providerTimeout
    (provider.logContext [("attempts", .int (attempt + 1 : Nat))])

def unavailableError (attempt : Nat) (why : String) : Exn :=
  gatewayError .providerUnavailable (provider.logContext
    [("attempts", .int (attempt + 1 : Nat)), ("reason", .text why.toList)])

/-- The one call that is made for a request. -/
def callFor (request : ProtectedChatRequest) (modelId : Text) :
    ResponsesCall where
  model := modelId
  input := request.messages.map fun message =>
    (message.role, message.content)
  store := false
  temperature := request.temperature
  maxOutputTokens := request.maxOutputTokens

/-- Make the call, and wait for its end. -/
def sendOnce (endpoint : Endpoint) (call : ResponsesCall) (attempt : Nat) :
    Eff Session Exn Reply := do
  act fun s => (.ok (), { s with calls := s.calls ++ [call] })
  spend provider.deadline (endpoint.seconds attempt)
  return endpoint.reply attempt

/-- The sleep between two attempts; one below nought is none. -/
def pause (attempt : Nat) : Rat :=
  max 0 (retryBackoffSeconds attempt provider.backoffBaseSeconds)

/-- Sleep, unless that was the last attempt. -/
def backOff (attempt : Nat) : Eff Session Exn Unit :=
  if attempt + 1 < provider.maxRetries + 1 then
    spend provider.deadline (provider.pause attempt)
  else pure ()

/-- The loop over the attempts: the error of the last one, so far. -/
def attemptLoop (endpoint : Endpoint) (call : ResponsesCall) :
    Option Exn → List Nat → Eff Session Exn ProviderResponse
  | none, [] => throw (provider.unavailableError provider.maxRetries
      "exhausted")
  | some lastError, [] => throw lastError
  | _, attempt :: rest => do
      let again := fun lastError => do
        provider.backOff attempt
        attemptLoop endpoint call (some lastError) rest
      match ← provider.sendOnce endpoint call attempt with
      | .response raw => checked (toProviderResponse raw call.model)
      | .timeout => again (provider.attemptTimeoutError attempt)
      | .connection =>
          again (provider.unavailableError attempt "connection")
      | .status statusCode =>
          let error := errorForStatus statusCode provider.providerAlias
            (attempt + 1)
          if isRetryableStatus statusCode then again error else throw error
      | .client => throw (provider.unavailableError attempt "client")

def sendWithRetries (endpoint : Endpoint) (request : ProtectedChatRequest)
    (modelId : Text) : Eff Session Exn ProviderResponse :=
  provider.attemptLoop endpoint (callFor request modelId) none
    (List.range (provider.maxRetries + 1))

/-- What a caller is told of an expired deadline. -/
def onTimeout (error : Exn) : Exn :=
  if error = timeoutError then
    gatewayError .providerTimeout
      (provider.logContext [("reason", .text "deadline".toList)])
  else error

/-- Send a protected request and return the provider's protected reply. -/
def complete (unicode : Unicode) (endpoint : Endpoint)
    (request : ProtectedChatRequest) : Eff Session Exn ProviderResponse := do
  let modelId ← checked (provider.models.resolve unicode request.modelAlias)
  translate provider.onTimeout
    (provider.sendWithRetries endpoint request modelId)

end OpenAIProvider

end PrivacyGateway.Llm
