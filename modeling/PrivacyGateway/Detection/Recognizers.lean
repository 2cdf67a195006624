/-
The credential recognizers.

A recognizer is its compiled patterns. `analyze` reports the range of
every match, or of the match's `value` group, unless the value looks like
filler. The patterns are the source's, written with the combinators of the
pattern library; those compiled with `re.IGNORECASE` read every character
through `foldCase`.
-/
import Mathlib.Data.List.Dedup
import PrivacyGateway.Detection.Config
import PrivacyGateway.Lib.Regex

namespace PrivacyGateway.Detection

open Regex Splice

-- ==================================================== filler

/-- How many different characters a value has, ignoring case. -/
def distinctFolded (unicode : Unicode) (value : Text) : Nat :=
  (unicode.casefoldText value).dedup.length

/-- Filler like `0000000000` or `xxxxxxxxxxxx`. -/
def hasLowCharacterVariety (unicode : Unicode) (value : Text)
    (minimumDistinct : Nat) : Bool :=
  decide (distinctFolded unicode value < minimumDistinct)

/-- `value.rsplit(separator, 1)[-1]`: what stands after the last
separator, or the whole value. -/
def afterLast (separator : Char) (value : Text) : Text :=
  (value.reverse.takeWhile (fun c => c ≠ separator)).reverse

-- ==================================================== patterns

/-- What a pattern compiled with `re.IGNORECASE` compares: the case of
ASCII letters, and the four other characters that equal one of them there
(a dotted and a dotless `i`, a long `s` and the Kelvin sign). -/
def foldCase (c : Char) : Char :=
  if c.toNat = 0x130 ∨ c.toNat = 0x131 then 'i'
  else if c.toNat = 0x17F then 's'
  else if c.toNat = 0x212A then 'k'
  else c.toLower

def ignoringCase (p : Char → Bool) (c : Char) : Bool :=
  p (foldCase c)

/-- A class: the ASCII letters and digits, and these characters. -/
def alnumOr (extra : Text) (c : Char) : Bool :=
  c.isAlphanum || extra.contains c

def upperOrDigit (c : Char) : Bool :=
  c.isUpper || c.isDigit

def literally (text : Text) : List (Char → Bool) :=
  text.map (fun c c' => c' == c)

/-- The literal vendor prefixes, as the patterns spell them. -/
def openAiPrefix : List (Char → Bool) := literally "sk-".toList
def awsPrefix : List (Char → Bool) := literally "AKIA".toList
def githubPrefix : List (Char → Bool) :=
  literally "gh".toList ++ [fun c => "pousr".toList.contains c] ++
    literally "_".toList
def slackPrefix : List (Char → Bool) :=
  literally "xox".toList ++ [fun c => "baprs".toList.contains c] ++
    literally "-".toList
def googlePrefix : List (Char → Bool) := literally "AIza".toList

section Patterns

variable (unicode : Unicode)

/-- `\w`. -/
def isWordChar (c : Char) : Bool :=
  unicode.isAlnum c || c == '_'

/-- `\b`. -/
def wordBoundary : Pattern Char :=
  .boundary (isWordChar unicode)

/-- A vendor's key: its prefix and a body, between word boundaries. -/
def vendorKey (vendor : List (Char → Bool)) (body : Char → Bool)
    (least : Nat) (most : Option Nat) : Pattern Char :=
  sequence [wordBoundary unicode, word vendor, .many body least most,
    wordBoundary unicode]

/-- A word in whatever case. -/
def spelled (text : Text) : Pattern Char :=
  word ((literally text).map ignoringCase)

def optional (chars : Text) : Pattern Char :=
  .many (ignoringCase (fun c => chars.contains c)) 0 (some 1)

/-- Which span of a match is reported. -/
inductive ReportedGroup
  | whole
  | value
deriving DecidableEq

/-- A pattern compiled at import time. -/
structure CompiledPattern where
  name : Text
  regex : Pattern Char
  score : ℚ
  group : ReportedGroup

def openAiStyleKey : CompiledPattern where
  name := "openai style key".toList
  regex := vendorKey unicode openAiPrefix (alnumOr "_-".toList) 16 none
  score := 9 / 10
  group := .whole

def awsAccessKeyId : CompiledPattern where
  name := "aws access key id".toList
  regex := vendorKey unicode awsPrefix upperOrDigit 16 (some 16)
  score := 9 / 10
  group := .whole

def githubToken : CompiledPattern where
  name := "github token".toList
  regex := vendorKey unicode githubPrefix (alnumOr []) 20 none
  score := 9 / 10
  group := .whole

def slackToken : CompiledPattern where
  name := "slack token".toList
  regex := vendorKey unicode slackPrefix (alnumOr "-".toList) 10 none
  score := 17 / 20
  group := .whole

def googleApiKey : CompiledPattern where
  name := "google api key".toList
  regex := vendorKey unicode googlePrefix (alnumOr "_-".toList) 35 (some 35)
  score := 9 / 10
  group := .whole

/-- The field names of a labelled secret. -/
def secretLabel : Pattern Char :=
  choice
    (sequence [spelled "api".toList, optional "_-".toList,
      spelled "key".toList])
    [spelled "apikey".toList,
      sequence [spelled "secret".toList, optional "_-".toList,
        spelled "key".toList],
      sequence [spelled "client".toList, optional "_-".toList,
        spelled "secret".toList],
      sequence [spelled "access".toList, optional "_-".toList,
        spelled "key".toList],
      sequence [spelled "private".toList, optional "_-".toList,
        spelled "key".toList],
      spelled "password".toList]

def labelledSecretAssignment : CompiledPattern where
  name := "labelled secret assignment".toList
  regex := sequence [secretLabel, optional "\"'".toList,
    .many unicode.isSpace 0 none,
    .one (fun c => ":=".toList.contains c),
    .many unicode.isSpace 0 none, optional "\"'".toList,
    .group (.many (ignoringCase (alnumOr "_-./+".toList)) 16 none)]
  score := 7 / 10
  group := .value

def authorizationBearer : CompiledPattern where
  name := "authorization bearer".toList
  regex := sequence [wordBoundary unicode, spelled "bearer".toList,
    .many unicode.isSpace 1 none,
    .group (sequence [
      .many (ignoringCase (alnumOr "-._~+/".toList)) 20 none,
      .many (fun c => c == '=') 0 (some 2)])]
  score := 17 / 20
  group := .value

def jsonWebToken : CompiledPattern where
  name := "json web token".toList
  regex := sequence [wordBoundary unicode, word (literally "eyJ".toList),
    .many (alnumOr "_-".toList) 8 none, word (literally ".".toList),
    .many (alnumOr "_-".toList) 8 none, word (literally ".".toList),
    .many (alnumOr "_-".toList) 8 none]
  score := 9 / 10
  group := .whole

end Patterns

-- ==================================================== recognizers

/-- A custom recognizer: one entity type and its patterns. -/
structure RegexRecognizer where
  name : Text
  entity : Text
  patterns : List CompiledPattern

structure RecognizerResult where
  entityType : Text
  start : Nat
  stop : Nat
  score : ℚ
  patternName : Text
  recognizerName : Text
deriving DecidableEq

/-- Vendor-prefixed API keys and labelled secret assignments. -/
def ApiKeyRecognizer (unicode : Unicode) : RegexRecognizer where
  name := "ApiKeyRecognizer".toList
  entity := apiKeyType
  patterns := [openAiStyleKey unicode, awsAccessKeyId unicode,
    githubToken unicode, slackToken unicode, googleApiKey unicode,
    labelledSecretAssignment unicode]

/-- `Authorization: Bearer <token>` values and bare JWTs. -/
def BearerTokenRecognizer (unicode : Unicode) : RegexRecognizer where
  name := "BearerTokenRecognizer".toList
  entity := accessTokenType
  patterns := [authorizationBearer unicode, jsonWebToken unicode]

/-- `match.span(group)`: nothing for a group that took no part. -/
def spanOf (found : Match) : ReportedGroup → Option (Nat × Nat)
  | .whole => some (found.start, found.stop)
  | .value => found.value

/-- Reject placeholder filler: only what follows the last hyphen is
judged. -/
def isValid (unicode : Unicode) (value : Text) : Bool :=
  !hasLowCharacterVariety unicode (afterLast '-' value) 2

namespace RegexRecognizer

variable (unicode : Unicode) (recognizer : RegexRecognizer)

/-- What one match is reported as, if it is. -/
def resultOf (text : Text) (pattern : CompiledPattern) (found : Match) :
    Option RecognizerResult :=
  match spanOf found pattern.group with
  | none => none
  | some (start, stop) =>
      if stop ≤ start then none
      else if isValid unicode (slice text start stop) then
        some
          { entityType := recognizer.entity
            start := start
            stop := stop
            score := pattern.score
            patternName := pattern.name
            recognizerName := recognizer.name }
      else none

/-- Every pattern hit for the recognizer's entity type. -/
def analyze (text : Text) (entities : List Text) : List RecognizerResult :=
  if entities.contains recognizer.entity = false then []
  else recognizer.patterns.flatMap (fun pattern =>
    (finditer pattern.regex text).filterMap
      (recognizer.resultOf unicode text pattern))

end RegexRecognizer

end PrivacyGateway.Detection
