/-
The limit on request bodies.

The declared size is looked at first, before anything is read. Then the
application runs with both of its ends wrapped: `countingReceive` counts
the body as it arrives and hands over an empty last chunk once there is
too much of it, and `guardedSend` answers in the application's place where
it had not begun to.
-/
import PrivacyGateway.Unicode
import PrivacyGateway.Api.Errors
import PrivacyGateway.Lib.Interaction
import Mathlib.Data.List.SplitOn

namespace PrivacyGateway

/-- More digits than this are refused. -/
def intMaxStrDigits : Nat := 4300

/-- The digits of a number: groups of them, joined by single
underscores. -/
def Unicode.digits (unicode : Unicode) (text : Text) : Option Nat :=
  let groups := text.splitOn '_'
  if groups.all (fun group =>
      !group.isEmpty && group.all unicode.isDecimal) &&
      decide (groups.flatten.length ≤ intMaxStrDigits) then
    some (groups.flatten.foldl (fun n c => 10 * n + unicode.decimal c) 0)
  else none

/-- `int(text)`; `none` where it raises. -/
def Unicode.int (unicode : Unicode) (text : Text) : Option Int :=
  match unicode.strip text with
  | '+' :: rest => (unicode.digits rest).map Int.ofNat
  | '-' :: rest => (unicode.digits rest).map (fun n => -Int.ofNat n)
  | rest => (unicode.digits rest).map Int.ofNat

namespace Api

open Interaction

/-- A message of a request. -/
inductive Received
  | request (body : Bytes) (moreBody : Bool)
  | other (type : Text)
deriving DecidableEq

/-- What the server knows of a connection: its type, the path of its URL,
its headers with their names in lower case, and the id it was given. -/
structure Scope where
  type : Text
  path : Text
  headers : List (Text × Text)
  requestId : Option Text

/-- The scope of a request. -/
def Scope.http (path : Text) (headers : List (Text × Text))
    (requestId : Option Text) : Scope :=
  ⟨"http".toList, path, headers, requestId⟩

/-- `request.headers.get`: the first of the name. -/
def Scope.header (scope : Scope) (name : Text) : Option Text :=
  (scope.headers.find? (·.1 = name)).map Prod.snd

def contentLengthHeader : Text := "content-length".toList

/-- The two limits, and the paths the larger one is for. -/
structure BodySizeLimitMiddleware where
  maxBytes : Nat
  uploadMaxBytes : Nat
  uploadPathPrefixes : List Text

/-- The constructor: an upload limit that is not given is the other. -/
def BodySizeLimitMiddleware.new (maxBytes : Nat)
    (uploadMaxBytes : Option Nat) (uploadPathPrefixes : List Text) :
    BodySizeLimitMiddleware :=
  ⟨maxBytes, uploadMaxBytes.getD maxBytes, uploadPathPrefixes⟩

/-- The locals the two wrappers share. -/
structure Guard where
  received : Nat
  exceeded : Bool
  sentStart : Bool
deriving DecidableEq

def Received.size : Received → Nat
  | .request body _ => body.length
  | .other _ => 0

def countingReceive (limit : Nat) (message : Received) (guard : Guard) :
    Received × Guard :=
  match message with
  | .request body _ =>
      let received := guard.received + body.length
      if limit < received then
        -- an empty terminal chunk in its place
        (.request [] false,
          { guard with received := received, exceeded := true })
      else (message, { guard with received := received })
  | .other _ => (message, guard)

def guardedSend (requestId : Option Text) (message : Message)
    (guard : Guard) : List Message × Guard :=
  if guard.exceeded ∧ ¬ guard.sentStart then
    (errorResponse .requestTooLarge requestId,
      { guard with sentStart := true })
  else if guard.exceeded then ([], guard)
  else
    match message with
    | .start _ _ => ([message], { guard with sentStart := true })
    | _ => ([message], guard)

/-- The two wrappers. -/
def guards (limit : Nat) (requestId : Option Text) :
    Filter Guard Received Message :=
  ⟨countingReceive limit, guardedSend requestId⟩

namespace BodySizeLimitMiddleware

variable (unicode : Unicode) (middleware : BodySizeLimitMiddleware)

/-- The byte ceiling that applies to `path`. -/
def limitFor (path : Text) : Nat :=
  if middleware.uploadPathPrefixes.any (fun start =>
      start.isPrefixOf path) then
    middleware.uploadMaxBytes
  else middleware.maxBytes

/-- What the declared size is answered with, if it decides. -/
def declaredError (scope : Scope) : Option ErrorCode :=
  match scope.header contentLengthHeader with
  | none => none
  | some declared =>
      match unicode.int declared with
      | none => some .invalidRequest
      | some size =>
          if middleware.limitFor scope.path < size then
            some .requestTooLarge
          else none

variable {σ : Type}

/-- `__call__`, after so many turns of the application, which begins as
`app` and for which `incoming` arrives. -/
def call (scope : Scope) (actions : σ → Action Received Message σ)
    (app : σ) (incoming : List Received) (turns : Nat) :
    Exchange Guard Received Message σ :=
  let start := Exchange.begin app incoming ⟨0, false, false⟩
  if scope.type ≠ "http".toList then
    run .passThrough actions turns start
  else
    match middleware.declaredError unicode scope with
    | some code =>
        { start with output := errorResponse code scope.requestId }
    | none =>
        run (guards (middleware.limitFor scope.path) scope.requestId)
          actions turns start

end BodySizeLimitMiddleware

end Api

end PrivacyGateway
