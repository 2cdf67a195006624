/-
Boundary validation for uploads.

The filename, the declared type and the length are checked before a byte
is sealed; the first bytes of the body are checked against the type as
they arrive. Composition and the category of a character are looked up in
`UnicodeData`.
-/
import PrivacyGateway.Lib.Utf8
import PrivacyGateway.Unicode

namespace PrivacyGateway.Documents

/-- What of `unicodedata` a filename is read with. -/
structure UnicodeData where
  nfc : Text → Text
  /-- The category is `Cc`. -/
  isControl : Char → Bool
  nfc_ascii : ∀ t : Text, (∀ c ∈ t, isAscii c = true) → nfc t = t
  isControl_ascii : ∀ c, isAscii c = true →
    isControl c = (decide (c.toNat < 32) || decide (c.toNat = 127))

/-- The tables of a database that knows ASCII and nothing else. -/
def UnicodeData.ascii : UnicodeData where
  nfc t := t
  isControl c := decide (c.toNat < 32) || decide (c.toNat = 127)
  nfc_ascii _ _ := rfl
  isControl_ascii _ _ := rfl

-- ==================================================== accepted types

def contentTypeTxt : Text := "text/plain".toList
def contentTypePdf : Text := "application/pdf".toList
def contentTypeDocx : Text :=
  ("application/vnd.openxmlformats-officedocument." ++
    "wordprocessingml.document").toList

/-- One accepted type and the evidence required to believe it. -/
structure SupportedType where
  contentType : Text
  extensions : List Text
  magic : List Bytes
deriving DecidableEq

def supportedTypes : Dict Text SupportedType := [
  (contentTypeTxt, ⟨contentTypeTxt, [".txt".toList], []⟩),
  (contentTypePdf, ⟨contentTypePdf, [".pdf".toList],
    [[0x25, 0x50, 0x44, 0x46, 0x2D]]⟩),
  (contentTypeDocx, ⟨contentTypeDocx, [".docx".toList],
    [[0x50, 0x4B, 3, 4], [0x50, 0x4B, 5, 6], [0x50, 0x4B, 7, 8]]⟩)]

def extensionToContentType : Dict Text Text :=
  supportedTypes.flatMap fun entry =>
    entry.2.extensions.map fun extension =>
      (extension, entry.2.contentType)

-- ==================================================== the filename

def maxFilenameChars : Nat := 255

def reservedWindowsNames : List Text :=
  ["con".toList, "prn".toList, "aux".toList, "nul".toList] ++
    "123456789".toList.map (fun digit => "com".toList ++ [digit]) ++
    "123456789".toList.map (fun digit => "lpt".toList ++ [digit])

/-- Characters that reorder how a name renders. -/
def bidiControls : List Char :=
  [0x61C, 0x200E, 0x200F, 0x202A, 0x202B, 0x202C, 0x202D, 0x202E, 0x2066,
    0x2067, 0x2068, 0x2069].map Char.ofNat

def documentInvalid (why : String) : Exn :=
  gatewayError .documentInvalid (reason why)

/-- `PurePosixPath(name).name`, where there is no separator in the name. -/
def posixName (name : Text) : Text :=
  if name = ".".toList then [] else name

/-- `PureWindowsPath(name).name`, where there is no separator in the
name: what follows a drive. -/
def windowsName (name : Text) : Text :=
  posixName (if name[1]? = some ':' then name.drop 2 else name)

variable (unicode : Unicode) (data : UnicodeData)

/-- A safe bare filename, or an error. -/
def normalizeFilename (raw : Text) : Except Exn Text :=
  if raw = [] ∨ unicode.strip raw = [] then
    .error (documentInvalid "filename_empty")
  else
    let candidate := unicode.strip (data.nfc raw)
    if candidate.length > maxFilenameChars then
      .error (gatewayError .documentInvalid (reason "filename_too_long" ++
        [("length", .int candidate.length)]))
    else if candidate.contains (Char.ofNat 0) then
      .error (documentInvalid "filename_null_byte")
    else if candidate.any data.isControl then
      .error (documentInvalid "filename_control_character")
    else if candidate.any bidiControls.contains then
      .error (documentInvalid "filename_bidi_control")
    else if candidate.contains '/' ∨ candidate.contains '\\' then
      .error (documentInvalid "filename_contains_separator")
    else if posixName candidate ≠ candidate ∨
        windowsName candidate ≠ candidate then
      .error (documentInvalid "filename_not_a_bare_name")
    else if candidate ∈ [".".toList, "..".toList] then
      .error (documentInvalid "filename_relative")
    else if reservedWindowsNames.contains
        (unicode.lower (candidate.takeWhile (· ≠ '.'))) then
      .error (documentInvalid "filename_reserved")
    else .ok candidate

-- ==================================================== the declared type

def typeUnsupported (why : String)
    (context : List (String × LogValue)) : Exn :=
  gatewayError .documentTypeUnsupported (reason why ++ context)

/-- `PurePosixPath(name).suffix`, of a bare name. -/
def posixSuffix (name : Text) : Text :=
  let extension := (name.reverse.takeWhile (· ≠ '.')).reverse
  let stem := name.length - extension.length
  if '.' ∈ name ∧ 1 < stem ∧ extension ≠ [] then '.' :: extension else []

def extensionOf (filename : Text) : Except Exn Text :=
  let suffix := unicode.lower (posixSuffix (posixName filename))
  if suffix = [] then
    .error (typeUnsupported "filename_has_no_extension" [])
  else .ok suffix

/-- The content type to store, agreeing with the extension. -/
def resolveContentType (filename : Text) (declared : Option Text) :
    Except Exn Text :=
  match extensionOf unicode filename with
  | .error e => .error e
  | .ok extension =>
      match extensionToContentType.get? extension with
      | none =>
          .error (typeUnsupported "extension_not_supported"
            [("extension", .text extension)])
      | some fromExtension =>
          match declared with
          | none => .ok fromExtension
          | some declared =>
              let normalized := unicode.lower (unicode.strip
                (declared.takeWhile (· ≠ ';')))
              if supportedTypes.get? normalized = none then
                .error (typeUnsupported "content_type_not_supported"
                  [("content_type", .text normalized)])
              else if normalized ≠ fromExtension then
                .error (typeUnsupported "content_type_extension_mismatch"
                  [("content_type", .text normalized),
                    ("extension", .text extension)])
              else .ok normalized

-- ==================================================== the body

def magicSniffBytes : Nat := 8

def startsWithAny (signatures : List Bytes) (head : Bytes) : Bool :=
  signatures.any (fun signature => signature.isPrefixOf head)

/-- Check a body's first bytes against its declared type. -/
def verifyMagic (contentType : Text) (head : Bytes) : Except Exn Unit :=
  match supportedTypes.get? contentType with
  | none =>
      .error (typeUnsupported "content_type_not_supported"
        [("content_type", .text contentType)])
  | some supported =>
      if supported.magic ≠ [] then
        if startsWithAny supported.magic head then .ok ()
        else
          .error (typeUnsupported "magic_bytes_mismatch"
            [("content_type", .text contentType)])
      else
        -- a type without a signature is checked against the others
        match supportedTypes.find? (fun entry =>
            decide (entry.2.contentType ≠ contentType) &&
              startsWithAny entry.2.magic head) with
        | some entry =>
            .error (typeUnsupported "magic_bytes_match_another_type"
              [("content_type", .text contentType),
                ("actual_content_type", .text entry.2.contentType)])
        | none =>
            if contentType = contentTypeTxt ∧ ¬ Utf8.accepts head then
              .error (documentInvalid "text_not_utf8")
            else .ok ()

/-- Reject an upload whose declared length already exceeds the limit. -/
def enforceDeclaredLength (declared : Option Int) (limit : Nat) :
    Except Exn Unit :=
  match declared with
  | none => .ok ()
  | some declared =>
      if declared < 0 then
        .error (documentInvalid "content_length_negative")
      else if declared > limit then
        .error (gatewayError .documentTooLarge
          (reason "declared_length_over_limit" ++ [("limit", .int limit)]))
      else .ok ()

/-- Reject once the real byte count passes the limit. -/
def enforceStreamedLength (received limit : Nat) : Except Exn Unit :=
  if received > limit then
    .error (gatewayError .documentTooLarge
      (reason "streamed_length_over_limit" ++ [("limit", .int limit)]))
  else .ok ()

end PrivacyGateway.Documents
