import DealFlow360.Storage.StorageKeys

/-!
# Uploaded files

`storage.validate.ts` and the key of `StorageService.upload`: the checks of the
size, the name and the content of a file, and the name under which it is
stored. Lower case and the decoding of UTF-8 are the platform's.

The checks run in the order of the source and stop at the first that fails: the
size, the name and its extension, the content type that was declared, and the
first bytes of the content. Issues carry their path, message and code. Bytes
are numbers below 256, and a text file is one that decodes.
-/

namespace DealFlow360.Storage

open Events (Text trimText)
open Paths

/-! ## Kinds of files -/

inductive StorageExtension where
  | pdf | png | jpg | jpeg | gif | webp | txt | csv | json
  deriving DecidableEq, Repr

def StorageExtension.text : StorageExtension → Text
  | pdf => codeUnits "pdf"
  | png => codeUnits "png"
  | jpg => codeUnits "jpg"
  | jpeg => codeUnits "jpeg"
  | gif => codeUnits "gif"
  | webp => codeUnits "webp"
  | txt => codeUnits "txt"
  | csv => codeUnits "csv"
  | json => codeUnits "json"

/-- `STORAGE_EXTENSIONS`. -/
def storageExtensions : List StorageExtension := [.pdf, .png, .jpg, .jpeg, .gif, .webp, .txt, .csv, .json]

/-- `STORAGE_MIME_TYPES`. -/
def StorageExtension.mimeType : StorageExtension → String
  | pdf => "application/pdf"
  | png => "image/png"
  | jpg => "image/jpeg"
  | jpeg => "image/jpeg"
  | gif => "image/gif"
  | webp => "image/webp"
  | txt => "text/plain"
  | csv => "text/csv"
  | json => "application/json"

inductive StoragePurpose where
  | attachment | avatar | «export» | document | report
  deriving DecidableEq, Repr

def StoragePurpose.text : StoragePurpose → String
  | attachment => "attachment"
  | avatar => "avatar"
  | «export» => "export"
  | document => "document"
  | report => "report"

/-- `STORAGE_PURPOSE_PREFIX`. -/
def StoragePurpose.folder : StoragePurpose → Text
  | attachment => codeUnits "files/attachments"
  | avatar => codeUnits "files/avatars"
  | «export» => codeUnits "files/exports"
  | document => codeUnits "files/documents"
  | report => codeUnits "files/reports"

/-- `STORAGE_PURPOSE_EXTENSIONS`. -/
def StoragePurpose.extensions : StoragePurpose → List StorageExtension
  | attachment => storageExtensions
  | avatar => [.png, .jpg, .jpeg, .gif, .webp]
  | «export» => [.pdf, .csv, .json, .txt]
  | document => [.pdf, .png, .jpg, .jpeg, .txt]
  | report => [.pdf]

structure UploadedFileInput where
  originalname : Text
  size : ℕ
  buffer : List ℕ
  deriving DecidableEq, Repr

structure ValidatedUpload where
  originalName : Text
  storedName : Text
  extension : StorageExtension
  mimeType : String
  size : ℕ
  buffer : List ℕ
  deriving DecidableEq, Repr

structure UploadPlatform where
  toLowerCase : Text → Text
  /-- `buffer.toString('utf8')`. -/
  decode : List ℕ → Text

/-! ## Names -/

def hasControlChars (value : Text) : Bool := value.any fun unit => unit < 32 || unit = 127

/-- `path.basename`: the last segment that is not empty. -/
def basename (text : Text) : Text := ((text.splitOn '/'.toNat).filter (· ≠ [])).getLastD []

def invalidUpload (path message code : String) : ValidationError :=
  { message := "Invalid uploaded file", issues := [{ path, message, code }] }

def maxFilenameLength : ℕ := 255

def assertSafeFilename (originalname : Text) (maxLength : ℕ := maxFilenameLength) : Except ValidationError Text :=
  let trimmed := trimText originalname
  if trimmed = [] then .error (invalidUpload "file.originalname" "Filename is required" "too_small")
  else if trimmed.length > maxLength then .error (invalidUpload "file.originalname" "Filename is too long" "too_big")
  else if hasControlChars trimmed = true ∨ (trimmed.any fun unit => unit = '\\'.toNat || unit = '/'.toNat) = true ∨
      includesDotDot trimmed = true ∨ trimmed = dot ∨ trimmed = dotDot then
    .error (invalidUpload "file.originalname" "Filename is not allowed" "custom")
  else if basename trimmed ≠ trimmed then
    .error (invalidUpload "file.originalname" "Filename must not include a path" "custom")
  else .ok trimmed

/-- What comes before the last dot, and what comes after it; nothing comes before it if there is none. -/
def splitLastDot (name : Text) : Text × Text :=
  ((name.rdropWhile (· ≠ '.'.toNat)).dropLast, name.rtakeWhile (· ≠ '.'.toNat))

/-- The characters that a stored name keeps. -/
def isNameUnit (unit : ℕ) : Bool := isAlnum unit || unit = '.'.toNat || unit = '_'.toNat || unit = '-'.toNat

def safeNameUnit (unit : ℕ) : ℕ := if isNameUnit unit then unit else '_'.toNat

/-- The stem of a stored name before it is cut. -/
def cleanedStem (original : Text) : Text :=
  let stem := if (splitLastDot original).1 = [] then original else (splitLastDot original).1
  let cleaned := (stem.map safeNameUnit).dropWhile (· = '.'.toNat)
  if cleaned = [] then codeUnits "file" else cleaned

def sanitizeStoredFilename (original : Text) (extension : StorageExtension) : Text :=
  (cleanedStem original).take 180 ++ '.'.toNat :: extension.text

/-- What follows the last dot of the lower-case name. -/
def extensionOf (platform : UploadPlatform) (filename : Text) : Option StorageExtension :=
  let lower := platform.toLowerCase filename
  if '.'.toNat ∈ lower then storageExtensions.find? fun extension => extension.text = (splitLastDot lower).2 else none

/-! ## Contents -/

inductive SniffedType where
  | pdf | png | jpeg | gif | webp
  deriving DecidableEq, Repr

def sniffBinaryType (buffer : List ℕ) : Option SniffedType :=
  if buffer.take 4 = codeUnits "%PDF" then some .pdf
  else if buffer.take 8 = [0x89, 0x50, 0x4e, 0x47, 0x0d, 0x0a, 0x1a, 0x0a] then some .png
  else if buffer.take 3 = [0xff, 0xd8, 0xff] then some .jpeg
  else if buffer.take 4 = codeUnits "GIF8" then some .gif
  else if buffer.length ≥ 12 ∧ buffer.take 4 = codeUnits "RIFF" ∧ (buffer.drop 8).take 4 = codeUnits "WEBP" then
    some .webp
  else none

/-- Less than a tenth of the first 4096 bytes are control characters. -/
def isMostlyText (buffer : List ℕ) : Bool :=
  let sample := buffer.take 4096
  let suspicious := sample.countP fun byte => byte < 9 || (byte > 13 && byte < 32) || byte = 127
  !buffer.contains 0 && 10 * suspicious < sample.length

def isJsonPayload (platform : UploadPlatform) (buffer : List ℕ) : Bool :=
  let decoded := platform.decode buffer
  let text := trimText (if decoded.head? = some 0xFEFF then decoded.tail else decoded)
  isMostlyText buffer && (text.head? = some '\x7b'.toNat || text.head? = some '['.toNat)

def contentMatchesExtension (platform : UploadPlatform) (buffer : List ℕ) (extension : StorageExtension) : Bool :=
  let sniffed := sniffBinaryType buffer
  match extension with
  | .pdf => sniffed = some .pdf
  | .png => sniffed = some .png
  | .jpg | .jpeg => sniffed = some .jpeg
  | .gif => sniffed = some .gif
  | .webp => sniffed = some .webp
  | .json => sniffed = none && isJsonPayload platform buffer
  | .txt | .csv => sniffed = none && isMostlyText buffer

/-! ## Uploads -/

def maxUploadBytes : ℕ := 10 * 1024 * 1024

def extensionIssue (purpose : StoragePurpose) : ValidationIssue :=
  { path := "file.originalname", message := "File extension is not allowed for " ++ purpose.text ++ " uploads",
    code := "custom" }

def contentIssue : ValidationIssue :=
  { path := "file", message := "File content does not match the file extension", code := "custom" }

/-- What is wrong with a file of a known extension. -/
def uploadIssues (platform : UploadPlatform) (purpose : StoragePurpose) (buffer : List ℕ)
    (extension : StorageExtension) :
    List ValidationIssue :=
  (if extension ∈ purpose.extensions then [] else [extensionIssue purpose]) ++
    if contentMatchesExtension platform buffer extension then [] else [contentIssue]

def validateUploadedFile (platform : UploadPlatform) (input : UploadedFileInput) (maxBytes : Option ℕ)
    (purpose : Option StoragePurpose) : Except ValidationError ValidatedUpload :=
  let maxBytes := maxBytes.getD maxUploadBytes
  let purpose := purpose.getD .attachment
  if input.buffer.length = 0 ∨ input.size = 0 then .error (invalidUpload "file" "File is empty" "too_small")
  else if input.buffer.length ≠ input.size then
    .error (invalidUpload "file.size" "File size does not match the uploaded content" "custom")
  else if input.buffer.length > maxBytes ∨ input.size > maxBytes then
    .error { message := "Uploaded file is too large", issues :=
      [{ path := "file.size", message := "File exceeds the maximum allowed size", code := "too_big" }] }
  else do
    let originalName ← assertSafeFilename input.originalname
    match extensionOf platform originalName with
    | none => .error { message := "Invalid uploaded file", issues := [extensionIssue purpose] }
    | some extension =>
        let issues := uploadIssues platform purpose input.buffer extension
        if issues ≠ [] then .error { message := "Invalid uploaded file", issues }
        else
          .ok { originalName, storedName := sanitizeStoredFilename originalName extension, extension,
                mimeType := extension.mimeType, size := input.buffer.length, buffer := input.buffer }

def isHexDigit (unit : ℕ) : Bool :=
  isDigit unit || ('a'.toNat ≤ unit && unit ≤ 'f'.toNat) || ('A'.toNat ≤ unit && unit ≤ 'F'.toNat)

/-- The text of a UUID, of any version. -/
def isUuid (text : Text) : Bool :=
  text.length = 36 && text.zipIdx.all fun (unit, index) =>
    if index ∈ [8, 13, 18, 23] then unit = '-'.toNat else isHexDigit unit

/-- The text from which `upload` makes the key; `id` is the new file's UUID. -/
def uploadKeyText (purpose : Option StoragePurpose) (uploadedBy : Option Text) (id storedName : Text) : Text :=
  let owner := trimText (uploadedBy.getD [])
  let owner := if owner = [] then codeUnits "system" else owner
  (purpose.getD .attachment).folder ++ '/'.toNat :: owner ++ '/'.toNat :: id ++ '/'.toNat :: storedName

/-- The key of an upload. -/
def uploadKey (purpose : Option StoragePurpose) (uploadedBy : Option Text) (id storedName : Text) :
    Except ValidationError Text :=
  assertStorageKey (uploadKeyText purpose uploadedBy id storedName)

end DealFlow360.Storage
