import ShipFlow.Files.Store

/-! `FileValidationService`. -/

namespace ShipFlow.Files
open Interleaving

inductive AcceptedExtension where
  | pdf
  | jpg
  | jpeg
  | png
  | webp
  | txt
  | csv
  | json
  | docx
  | xlsx
  | pptx
  deriving DecidableEq, Repr

def ACCEPTED_FILE_MIME_TYPES : AcceptedExtension → String
  | .pdf => "application/pdf"
  | .jpg => "image/jpeg"
  | .jpeg => "image/jpeg"
  | .png => "image/png"
  | .webp => "image/webp"
  | .txt => "text/plain"
  | .csv => "text/csv"
  | .json => "application/json"
  | .docx => "application/vnd.openxmlformats-officedocument.wordprocessingml.document"
  | .xlsx => "application/vnd.openxmlformats-officedocument.spreadsheetml.sheet"
  | .pptx => "application/vnd.openxmlformats-officedocument.presentationml.presentation"

def acceptedExtension (extension : String) : Option AcceptedExtension :=
  match extension with
  | ".pdf" => some .pdf
  | ".jpg" => some .jpg
  | ".jpeg" => some .jpeg
  | ".png" => some .png
  | ".webp" => some .webp
  | ".txt" => some .txt
  | ".csv" => some .csv
  | ".json" => some .json
  | ".docx" => some .docx
  | ".xlsx" => some .xlsx
  | ".pptx" => some .pptx
  | _ => none

/-- What the service takes from the platform: Unicode normalization and case, the hash
(in hexadecimal), the UTF-8 decoder and the JSON parser; and the storage and the scanner
it is configured with, and how their URLs are signed. -/
structure Environment where
  normalizeNfkc : String → String
  toLowerCase : String → String
  sha256 : List UInt8 → String
  decodeUtf8 : List UInt8 → Option String
  isJson : String → Bool
  provider : FileStorageProvider
  scannerEnabled : Bool
  sign : (action key : String) → (expires : Int) → String
  presignPut : (key contentType : String) → (expiresIn : Int) → String
  presignGet : (key contentType fileName : String) → String

variable (env : Environment)

/-- The number of UTF-16 code units. -/
def utf16Length (s : String) : Nat := (s.toList.map fun c => if c.toNat ≤ 0xffff then 1 else 2).sum

/-- The part of a name from its last dot on, and what is before. -/
def splitLastDot (name : List Char) : Option (List Char × List Char) :=
  match name.reverse.span fun c => c != '.' with
  | (_, []) => none
  | (after, dot :: before) => some (before.reverse, dot :: after.reverse)

/-- `extname` of `node:path`, on a name without slashes. -/
def extname (name : List Char) : List Char :=
  match splitLastDot name with
  | none => []
  | some (before, extension) => if before.isEmpty || name == ['.', '.'] then [] else extension

structure Declaration where
  fileName : String
  mimeType : String
  extension : AcceptedExtension
  deriving DecidableEq

def isControl (c : Char) : Bool := c.toNat ≤ 31 || c.toNat == 127

@[irreducible] def validateDeclaration (inputFileName mimeType : String) (sizeBytes : Nat) :
    Except Failure Declaration := do
  let fileName := trim (env.normalizeNfkc inputFileName)
  if utf16Length fileName = 0 || utf16Length fileName > 255 || fileName.toList.contains '/' ||
      fileName.toList.contains '\\' || fileName.toList.any isControl then
    throw (.http .badRequest "File name is invalid")
  if sizeBytes < 1 || sizeBytes > FILE_MAX_SIZE_BYTES then
    throw (.http .badRequest "File size must be between 1 byte and 25 MiB")
  let extension := acceptedExtension (env.toLowerCase (String.ofList (extname fileName.toList)))
  match extension with
  | none => throw (.http .badRequest "File type is not accepted")
  | some extension =>
    if mimeType != ACCEPTED_FILE_MIME_TYPES extension then
      throw (.http .badRequest "File type is not accepted")
    else return ⟨fileName, ACCEPTED_FILE_MIME_TYPES extension, extension⟩

/-! ## The content of an object -/

def asciiBytes (s : String) : List UInt8 := s.toList.map fun c => UInt8.ofNat c.toNat

def includesBytes (body pattern : List UInt8) : Bool :=
  body.tails.any fun rest => pattern.isPrefixOf rest

def detectOfficeDocument (body : List UInt8) (extension : AcceptedExtension)
    (requiredDirectory : String) : Except Failure String :=
  if !(asciiBytes "PK").isPrefixOf body then
    throw (.http .badRequest "Office file container is invalid")
  else if !includesBytes body (asciiBytes "[Content_Types].xml") ||
      !includesBytes body (asciiBytes requiredDirectory) then
    throw (.http .badRequest "Office file container is invalid")
  else return ACCEPTED_FILE_MIME_TYPES extension

def detectTextDocument (body : List UInt8) (extension : AcceptedExtension) : Except Failure String :=
  if body.contains 0 then throw (.http .badRequest "Text files cannot contain null bytes")
  else
    match env.decodeUtf8 body with
    | none => throw (.http .badRequest "Text files must use UTF-8 encoding")
    | some text =>
      if extension == .json && !env.isJson text then
        throw (.http .badRequest "JSON file content is invalid")
      else return ACCEPTED_FILE_MIME_TYPES extension

/-- A file with a known signature at its start. -/
def detectSignature (accepted : Bool) (extension : AcceptedExtension) : Except Failure String :=
  if accepted then return ACCEPTED_FILE_MIME_TYPES extension
  else throw (.http .badRequest "Uploaded file signature is not accepted")

def detectMimeType (body : List UInt8) : AcceptedExtension → Except Failure String
  | .pdf => detectSignature ((asciiBytes "%PDF-").isPrefixOf body) .pdf
  | .jpg => detectSignature ([0xff, 0xd8, 0xff].isPrefixOf body) .jpg
  | .jpeg => detectSignature ([0xff, 0xd8, 0xff].isPrefixOf body) .jpeg
  | .png => detectSignature
      ([0x89, 0x50, 0x4e, 0x47, 0x0d, 0x0a, 0x1a, 0x0a].isPrefixOf body) .png
  | .webp => detectSignature ((asciiBytes "RIFF").isPrefixOf body &&
      (asciiBytes "WEBP").isPrefixOf (body.drop 8)) .webp
  | .docx => detectOfficeDocument body .docx "word/"
  | .xlsx => detectOfficeDocument body .xlsx "xl/"
  | .pptx => detectOfficeDocument body .pptx "ppt/"
  | .txt => detectTextDocument env body .txt
  | .csv => detectTextDocument env body .csv
  | .json => detectTextDocument env body .json

structure ValidatedObject where
  detectedMimeType : String
  checksumSha256 : String
  deriving DecidableEq

def validateObject (body : List UInt8) (fileName declaredMimeType : String)
    (declaredSizeBytes : Nat) (checksumSha256 : String) : Except Failure ValidatedObject := do
  if body.length != declaredSizeBytes then
    throw (.http .badRequest "Uploaded file size does not match the reservation")
  if env.sha256 body != checksumSha256 then
    throw (.http .badRequest "Uploaded file checksum does not match")
  let extension := acceptedExtension (env.toLowerCase (String.ofList (extname fileName.toList)))
  match extension with
  | none => throw (.http .badRequest "Uploaded file signature is not accepted")
  | some extension =>
    let detectedMimeType ← detectMimeType env body extension
    if detectedMimeType != declaredMimeType then
      throw (.http .badRequest "Uploaded file content does not match its declared type")
    else return ⟨detectedMimeType, env.sha256 body⟩

end ShipFlow.Files
