/-
The one boundary every provider-bound request crosses.

`attest` serializes, scans and digests; `send` transmits what was found
clean. A blocked payload is a kind of failure of its own, since it carries
its attestation out to whoever sent it.
-/
import PrivacyGateway.Journal
import PrivacyGateway.Llm.Registry

namespace PrivacyGateway.Outbound

open Audit Detection Effect Ledger Llm

/-- A completed provider call and the evidence that it was allowed. -/
structure Transmission where
  response : ProviderResponse
  attestation : Attestation
  providerLatencyMs : Int
  providerAlias : Text
deriving DecidableEq

/-- How sending fails: the scan refused the payload, or something
raised. -/
inductive SendFailure
  | blocked (attestation : Attestation)
  | raised (exn : Exn)
deriving DecidableEq

/-- The failure as a caller that does not look into it sees it. -/
def SendFailure.exn : SendFailure → Exn
  | .blocked attestation =>
      gatewayError .policyViolation
        (reason "outbound_scan_found_entities" ++
          [("entity_type",
            .text ([','].intercalate attestation.scan.findings))])
  | .raised e => e

/-- `int` of a number of seconds, in milliseconds: towards zero. -/
def milliseconds (seconds : Rat) : Int :=
  (seconds * 1000).num.tdiv (seconds * 1000).den

theorem milliseconds_nonneg {seconds : Rat} (h : 0 ≤ seconds) :
    0 ≤ milliseconds seconds := by
  unfold milliseconds
  apply Int.tdiv_nonneg
  · exact Rat.num_nonneg.mpr (mul_nonneg h (by decide +kernel))
  · exact Int.natCast_nonneg _

/-- Serializes, attests, scans, and transmits one protected request. -/
structure OutboundGateway (unicode : Unicode) (σ : Type) where
  detector : Detector unicode σ
  providers : ProviderRegistry σ
  hasher : CorrelationHasher
  hashes : Hashes
  clock : Clock
  language : Text := "en".toList

/-- How the adapter is awaited. -/
abbrev Invoker (σ : Type) :=
  LLMProvider σ → ProtectedChatRequest → Eff (Task σ) Exn ProviderResponse

variable {unicode : Unicode} {σ : Type}
  (gateway : OutboundGateway unicode σ)

/-- Calling the adapter directly. -/
def callDirectly : Invoker σ :=
  fun adapter request => await (adapter.complete request)

namespace OutboundGateway

/-- Refuse an unregistered alias before any expensive stage runs. -/
def authorize (providerAlias : Text) : Except Exn Unit :=
  match gateway.providers.get unicode providerAlias with
  | .ok _ => .ok ()
  | .error e => .error e

/-- The two digests of a scanned payload, and the scan. -/
def attestationOf (request : ProtectedChatRequest) (payload : Bytes)
    (scan : OutboundScan) : Except Exn Attestation :=
  match gateway.hasher.outboundDigest gateway.hashes request.tenantId
      payload with
  | .error e => .error e
  | .ok payloadHmac =>
      match gateway.hasher.promptDigest gateway.hashes request.tenantId
          (outboundSegments request) with
      | .error e => .error e
      | .ok promptHmac => .ok ⟨payloadHmac, promptHmac, scan⟩

/-- Serialize, digest, and scan, without transmitting anything. -/
def attest (request : ProtectedChatRequest) (policy : PolicySnapshot) :
    Eff (Task σ) Exn Attestation := do
  let payload ← checked (serializeOutbound request)
  note (Event.scanned policy.version)
  let scan ← await (scanOutbound gateway.detector policy gateway.language
    request)
  let attestation ← checked (gateway.attestationOf request payload scan)
  note (Event.attested request attestation)
  return attestation

/-- Call the provider of an attested request. -/
def transmit (request : ProtectedChatRequest) (attestation : Attestation)
    (invoke : Invoker σ) : Eff (Task σ) Exn Transmission := do
  let adapter ← checked (gateway.providers.get unicode
    request.providerAlias)
  let started ← readClock gateway.clock
  note (Event.called adapter.providerAlias)
  let response ← invoke adapter request
  let finished ← readClock gateway.clock
  return {
    response := response
    attestation := attestation
    providerLatencyMs := max (milliseconds (finished - started)) 0
    providerAlias := adapter.providerAlias }

/-- Check one protected payload and, if it passes, transmit it. -/
def send (request : ProtectedChatRequest) (policy : PolicySnapshot)
    (invoke : Invoker σ) : Eff (Task σ) SendFailure Transmission := do
  let attestation ← translate .raised (gateway.attest request policy)
  if attestation.scan.isClean = false then
    throw (.blocked attestation)
  else translate .raised (gateway.transmit request attestation invoke)

/-- Keyed digest of a session id. -/
def sessionDigest (tenantId sessionId : UUID) : Except Exn Digest :=
  gateway.hasher.sessionDigest gateway.hashes tenantId sessionId

/-- Keyed digest of one restored answer. -/
def responseDigest (tenantId : UUID) (text : Text) : Except Exn Digest :=
  gateway.hasher.responseDigest gateway.hashes tenantId text

end OutboundGateway

end PrivacyGateway.Outbound
