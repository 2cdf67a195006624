/-
The structured logger's last two processors.

`dropUnlistedKeys` keeps the fields of an event that are on the allowlist
and reports the others by name; `scrubValues` then replaces everything
that looks like a credential, a gateway token or a number that identifies
somebody in any value that is a string. Other values pass as they are:
an event's fields hold strings, names of dropped fields, or values of a
type this module never looks into.

The patterns are the source's, in its order, written with the combinators
of the pattern library. Only the last two stand between word boundaries.
-/
import PrivacyGateway.Detection.Recognizers
import PrivacyGateway.Lib.Scrub
import PrivacyGateway.Tokenization.Grammar

namespace PrivacyGateway.Observability

open Regex Detection Tokenization

/-- Only these keys survive into a log record. -/
def allowedEventKeys : List Text :=
  ["event", "level", "logger", "timestamp", "exc_info", "exception",
    "stack_info", "request_id", "session_id", "tenant_id", "api_key_id",
    "api_key_prefix", "method", "path", "status_code", "duration_ms",
    "error_code", "reason", "stage", "provider_alias", "model_alias",
    "policy_version", "entity_type", "recognizer", "action", "detected",
    "tokenized", "redacted", "pseudonymized", "blocked", "allowed",
    "restored", "unknown_tokens", "entity_count", "attempt", "retry_after",
    "key_id", "document_id", "content_type", "byte_size", "page_count",
    "character_count", "segment_count", "removed", "limit", "page_index",
    "timeout_seconds", "operation", "failure_type", "policy_name",
    "from_version", "to_version", "policy_status", "change_count", "valid",
    "problem_count", "warning_count"].map String.toList

def droppedKeyMarker : Text := "_dropped_keys".toList

/-- `[redacted]`, with its ends apart. -/
def redactedWord : Text := "redacted".toList
def redacted : Text := '[' :: (redactedWord ++ [']'])

/-- The value of a field. -/
inductive EventValue (ν : Type) where
  | text (value : Text)
  | names (value : List Text)
  | object (value : ν)

abbrev EventDict (ν : Type) := Dict Text (EventValue ν)

variable {ν : Type}

def dropUnlistedKeys (event : EventDict ν) : EventDict ν :=
  let dropped := event.keys.filter (fun key => !allowedEventKeys.contains key)
  if dropped = [] then event
  else
    Dict.set (event.filter (fun e => allowedEventKeys.contains e.1))
      droppedKeyMarker (.names (dropped.insertionSort (· ≤ ·)))

-- ==================================================== what is scrubbed

/-- A gateway token. -/
def tokenShape : Shape Char where
  body := sequence [word (literally "⟦SGW:".toList),
    .many isEntityTypeChar 1 (some 64), word (literally ":".toList),
    .many isCrockfordChar 26 (some 26), word (literally "⟧".toList)]
  plain := rfl
  edges := none

/-- One of the gateway's own keys. -/
def gatewayKeyShape : Shape Char where
  body := sequence [word (literally "sgw_".toList),
    choice (word (literally "live".toList))
      [word (literally "test".toList)],
    word (literally "_".toList), .many (alnumOr "_-".toList) 1 none]
  plain := rfl
  edges := none

/-- A provider's key. -/
def providerKeyShape : Shape Char where
  body := sequence [word (literally "sk-".toList),
    .many (alnumOr "_-".toList) 16 none]
  plain := rfl
  edges := none

/-- An e-mail address. -/
def emailShape : Shape Char where
  body := sequence [.many (alnumOr "._%+-".toList) 1 none,
    word (literally "@".toList), .many (alnumOr ".-".toList) 1 none,
    word (literally ".".toList), .many Char.isAlpha 2 none]
  plain := rfl
  edges := none

section Shapes

variable (unicode : Unicode)

/-- A bearer credential, in whatever case. -/
def bearerShape : Shape Char where
  body := sequence [spelled "bearer".toList,
    .many unicode.isSpace 1 none,
    .many (ignoringCase (alnumOr "._-".toList)) 1 none]
  plain := rfl
  edges := none

/-- A social security number. -/
def socialSecurityShape : Shape Char where
  body := sequence [.many unicode.isDecimal 3 (some 3),
    word (literally "-".toList), .many unicode.isDecimal 2 (some 2),
    word (literally "-".toList), .many unicode.isDecimal 4 (some 4)]
  plain := rfl
  edges := some (isWordChar unicode)

/-- A card number: digits, each with a space or a dash after it or
not. -/
def cardNumberShape : Shape Char where
  body := repeated
    (sequence [.one unicode.isDecimal,
      .many (fun c => " -".toList.contains c) 0 (some 1)]) 13 19
  plain := rfl
  edges := some (isWordChar unicode)

/-- The patterns, in the order in which they are substituted. -/
def scrubPatterns : List (Shape Char) :=
  [tokenShape, gatewayKeyShape, providerKeyShape, bearerShape unicode,
    emailShape, socialSecurityShape unicode, cardNumberShape unicode]

/-- Replace credential- and token-shaped parts of a value. -/
def scrubText (value : Text) : Text :=
  scrub redacted (scrubPatterns unicode) value

def scrubValue : EventValue ν → EventValue ν
  | .text value => .text (scrubText unicode value)
  | .names value => .names value
  | .object value => .object value

def scrubValues (event : EventDict ν) : EventDict ν :=
  event.map (fun e => (e.1, scrubValue unicode e.2))

/-- What reaches the renderer. -/
def processEvent (event : EventDict ν) : EventDict ν :=
  scrubValues unicode (dropUnlistedKeys event)

end Shapes

end PrivacyGateway.Observability
