import Mathlib.Data.List.Infix
import Shyraq.Kernel.DateTimeInput
import Shyraq.Kernel.Paths
import Shyraq.Media.Interceptor

/-!
# Uploaded files on the local disk

`ContentService.uploadMedia`, `StoryService.create` and `KindergartenService.setLogo` build a key and hand the file to
`LocalFileStorageAdapter`; `MediaController` serves what a URL leads to.  Ids are numbers below `uuidBound`.  What
`toLowerCase` makes of a text is a parameter.
-/

namespace Media

open Kernel

/-! ## The adapter -/

inductive FileUploadErrorReason
  | mediaUrlRequired | uploadFailed | fileTooLarge
  deriving DecidableEq

inductive FileError
  | upload (reason : FileUploadErrorReason) (cause : Option String)
  | malformedKey (cause : String)
  | notFound (key : List Char)
  | transient (cause : String)
  /-- What the disk says, passed on. -/
  | disk (errno : String)
  deriving DecidableEq

abbrev Bytes := List UInt8

/-- The files of the disk, by their paths. -/
abbrev Files := Path → Option Bytes

def Files.write (files : Files) (path : Path) (bytes : Bytes) : Files :=
  fun p => if p = path then some bytes else files p

def Files.unlink (files : Files) (path : Path) : Files := fun p => if p = path then none else files p

namespace LocalFileStorageAdapter

def urlPrefix : List Char := "/api/v1/media".toList

def assertSafeKey (key : List Char) : Except FileError Unit :=
  if key = [] then .error (.upload .mediaUrlRequired none)
  else
    match decodeURIComponent key with
    | none => .error (.malformedKey "malformed_percent_encoding")
    | some decoded =>
        if decoded.head? = some '/' || decoded.head? = some '\\' || decide ("..".toList <:+: decoded) ||
            decoded.contains '\\' || decoded.contains (Char.ofNat 0) then
          .error (.malformedKey "path_traversal_attempt")
        else .ok ()

def isTransient (errno : String) : Bool := ["ENOSPC", "EIO", "EROFS"].contains errno

/-- The URL, and the disk afterwards.  `fault` is the code with which the disk refuses the file. -/
def upload (uploadsDir : Path) (fault : Option String) (files : Files) (key : List Char) (buffer : Bytes)
    (maxBytes : Nat) : Except FileError (List Char × Files) := do
  assertSafeKey key
  if 0 < maxBytes ∧ maxBytes < buffer.length then .error (.upload .fileTooLarge none)
  else
    match fault with
    | some errno =>
        if isTransient errno then .error (.transient ("local_" ++ errno))
        else .error (.upload .uploadFailed (some ("local_" ++ errno)))
    | none => .ok (urlPrefix ++ '/' :: key, files.write (joinPath uploadsDir key) buffer)

def download (uploadsDir : Path) (fault : Option String) (files : Files) (key : List Char) : Except FileError Bytes := do
  assertSafeKey key
  match fault with
  | some errno =>
      if errno = "ENOENT" then .error (.notFound key)
      else if isTransient errno then .error (.transient ("local_" ++ errno))
      else .error (.disk errno)
  | none =>
      match files (joinPath uploadsDir key) with
      | some bytes => .ok bytes
      | none => .error (.notFound key)

/-- A key that is refused, or that names no file, deletes none. -/
def delete (uploadsDir : Path) (files : Files) (key : List Char) : Except FileError Files := do
  assertSafeKey key
  .ok (files.unlink (joinPath uploadsDir key))

end LocalFileStorageAdapter

/-! ## The producers -/

inductive UploadError
  | groupNotFound
  | kindergartenNotFound
  | kindergartenArchived
  | mentorNotAssignedToGroup
  | mediaTypeInvalid (mediaType : List Char)
  | logoRequired
  | logoTypeInvalid
  | logoTooLarge
  | file (e : FileError)
  deriving DecidableEq

/-- The file that a client sends. -/
structure UploadInput where
  buffer : Bytes
  mimetype : List Char
  originalname : List Char

/-- What surrounds a request: the clock, the id that `randomUUID` gives, and the disk. -/
structure Host where
  now : Int
  randomUUID : Nat
  uploadsDir : Path
  files : Files
  fault : Option String

/-- What a client gets, and the disk afterwards. -/
structure Uploaded where
  url : List Char
  files : Files

/-- `String(year).padStart(4, '0')`. -/
def yearDigits (y : Int) : List Char :=
  let text := if y < 0 then '-' :: decimal y.natAbs else decimal y.toNat
  List.replicate (4 - text.length) '0' ++ text

/-- `<yyyy>-<mm>`. -/
def monthDir (now : Int) : List Char :=
  yearDigits (yearOf (utcDay now)) ++ '-' :: padStart 10 2 (utcMonth (utcDay now) + 1).toNat

def isExtensionChar (c : Char) : Bool := c.isDigit || (decide ('a' ≤ c) && decide (c ≤ 'z'))

/-- `/^\.[a-z0-9]{1,8}$/`. -/
def isExtension : List Char → Bool
  | '.' :: name => decide (1 ≤ name.length ∧ name.length ≤ 8) && name.all isExtensionChar
  | _ => false

section

variable (toLowerCase : List Char → List Char)

def safeExt (originalname : List Char) : List Char :=
  let ext := toLowerCase (extname originalname)
  if isExtension ext then ext else []

def Host.fileName (host : Host) (file : UploadInput) : List Char :=
  uuidText host.randomUUID ++ safeExt toLowerCase file.originalname

/-- `<kgId>/<yyyy-mm>/<uuid>.<ext>`. -/
def mediaKey (host : Host) (kindergartenId : Nat) (file : UploadInput) : List Char :=
  ['/'].intercalate [uuidText kindergartenId, monthDir host.now, host.fileName toLowerCase file]

def storyKey (host : Host) (kindergartenId : Nat) (file : UploadInput) : List Char :=
  ['/'].intercalate [uuidText kindergartenId, "stories".toList, monthDir host.now, host.fileName toLowerCase file]

def maxImageBytes : Nat := 10 * 1024 * 1024

def maxVideoBytes : Nat := 100 * 1024 * 1024

def maxLogoBytes : Nat := 5 * 1024 * 1024

def isImage (mt : List Char) : Bool := "image/".toList.isPrefixOf mt

def isVideo (mt : List Char) : Bool := "video/".toList.isPrefixOf mt

/-- The bytes that a file of this type may have. -/
def maxBytesOf (mt : List Char) : Nat := if isVideo mt then maxVideoBytes else maxImageBytes

def Host.store (host : Host) (key : List Char) (buffer : Bytes) (maxBytes : Nat) :
    Except UploadError (List Char × Files) :=
  (LocalFileStorageAdapter.upload host.uploadsDir host.fault host.files key buffer maxBytes).mapError .file

def ContentService.uploadMedia (host : Host) (kindergartenId : Nat) (file : UploadInput) :
    Except UploadError Uploaded :=
  let mt := toLowerCase file.mimetype
  if file.buffer = [] then .error (.file (.upload .uploadFailed (some "empty_buffer")))
  else if !isImage mt && !isVideo mt then .error (.mediaTypeInvalid mt)
  else if maxBytesOf mt < file.buffer.length then .error (.file (.upload .fileTooLarge none))
  else do
    let (url, files) ← host.store (mediaKey toLowerCase host kindergartenId file) file.buffer (maxBytesOf mt)
    .ok ⟨url, files⟩

/-- Who adds a story, and whether the group is theirs. -/
structure StoryAuthor where
  role : String
  isAssigned : Bool

/-- `group` says that the kindergarten has the group.  The URL is that of the story. -/
def StoryService.create (host : Host) (kindergartenId : Nat) (group : Bool) (actor : Option StoryAuthor)
    (media : UploadInput) : Except UploadError Uploaded :=
  let mt := toLowerCase media.mimetype
  if !group then .error .groupNotFound
  else if actor.any fun a => a.role == "mentor" && !a.isAssigned then .error .mentorNotAssignedToGroup
  else if media.buffer = [] then .error (.file (.upload .uploadFailed (some "empty_buffer")))
  else if !isImage mt && !isVideo mt then .error (.mediaTypeInvalid mt)
  else if maxBytesOf mt < media.buffer.length then .error (.file (.upload .fileTooLarge none))
  else do
    let (url, files) ← host.store (storyKey toLowerCase host kindergartenId media) media.buffer (maxBytesOf mt)
    if url.all isWhitespace then .error (.file (.upload .mediaUrlRequired none)) else .ok ⟨url, files⟩

structure Kindergarten where
  isArchived : Bool
  logoUrl : Option (List Char)

/-- A `.` of a regular expression. -/
def isLineTerminator (c : Char) : Bool := [10, 13, 8232, 8233].contains c.toNat

/-- The key of `/^\/api\/v1\/media\/(.+)$/`, up to a question mark. -/
def storedKey (storedUrl : List Char) : Option (List Char) :=
  let start := LocalFileStorageAdapter.urlPrefix ++ ['/']
  let rest := storedUrl.drop start.length
  let key := rest.takeWhile (· != '?')
  if start.isPrefixOf storedUrl && !rest.any isLineTerminator && !key.isEmpty then some key else none

/-- What cannot be deleted stays. -/
def bestEffortDeleteMedia (uploadsDir : Path) (files : Files) (storedUrl : List Char) : Files :=
  match storedKey storedUrl with
  | none => files
  | some key => ((LocalFileStorageAdapter.delete uploadsDir files key).toOption).getD files

/-- The files after the logo was replaced. -/
def replaceLogo (uploadsDir : Path) (files : Files) (previous : Option (List Char)) (url : List Char) : Files :=
  match previous with
  | none => files
  | some previous =>
      if previous ≠ [] ∧ previous ≠ url then bestEffortDeleteMedia uploadsDir files previous else files

def KindergartenService.setLogo (host : Host) (kindergartenId : Nat) (existing : Option Kindergarten)
    (file : UploadInput) : Except UploadError Uploaded :=
  let mt := toLowerCase file.mimetype
  match existing with
  | none => .error .kindergartenNotFound
  | some existing =>
      if existing.isArchived then .error .kindergartenArchived
      else if file.buffer = [] then .error .logoRequired
      else if !isImage mt then .error .logoTypeInvalid
      else if maxLogoBytes < file.buffer.length then .error .logoTooLarge
      else do
        let (url, files) ← host.store (mediaKey toLowerCase host kindergartenId file) file.buffer maxLogoBytes
        .ok ⟨url, replaceLogo host.uploadsDir files existing.logoUrl url⟩

end

/-! ## The controller -/

structure MediaResponse where
  contentType : String
  contentLength : Nat
  body : Bytes

inductive GetError
  | noSuchRoute
  | malformedUrl
  | media (e : MediaError)
  | file (e : FileError)
  deriving DecidableEq

namespace MediaController

/-- `EXT_TO_MIME`. -/
def extToMime : List (String × String) :=
  [("jpg", "image/jpeg"), ("jpeg", "image/jpeg"), ("png", "image/png"), ("webp", "image/webp"), ("gif", "image/gif"),
    ("mp4", "video/mp4"), ("webm", "video/webm")]

/-- What stands after the last dot. -/
def extensionOf (filename : List Char) : String :=
  String.ofList (filename.reverse.takeWhile (· != '.')).reverse

def contentTypeOf (filename : List Char) : String :=
  (extToMime.lookup (extensionOf filename).toLower).getD "application/octet-stream"

/-- `@Get(':kgId/:yyyyMm/:filename')` under `/api/v1/media`: three segments, decoded, after which one slash may stand. -/
def route (url : List Char) : Except GetError (List Char × List Char × List Char) :=
  match (url.takeWhile (· != '?')).splitOn '/' with
  | [] :: api :: version :: media :: kgId :: yyyyMm :: filename :: more =>
      if [api, version, media].map (·.map Char.toLower) = ["api".toList, "v1".toList, "media".toList] ∧
          kgId ≠ [] ∧ yyyyMm ≠ [] ∧ filename ≠ [] ∧ (more = [] ∨ more = [[]]) then
        match decodeURIComponent kgId, decodeURIComponent yyyyMm, decodeURIComponent filename with
        | some kgId, some yyyyMm, some filename => .ok (kgId, yyyyMm, filename)
        | _, _, _ => .error .malformedUrl
      else .error .noSuchRoute
  | _ => .error .noSuchRoute

def respond (uploadsDir : Path) (fault : Option String) (files : Files) (filename key : List Char) :
    Except GetError MediaResponse :=
  match LocalFileStorageAdapter.download uploadsDir fault files key with
  | .ok buffer => .ok ⟨contentTypeOf filename, buffer.length, buffer⟩
  | .error (.notFound _) => .error (.media .mediaNotFound)
  | .error e => if e = .disk "ENOENT" then .error (.media .mediaNotFound) else .error (.file e)

/-- A request for the URL. -/
def get (uploadsDir : Path) (fault : Option String) (files : Files) (tenant : TenantContext) (url : List Char) :
    Except GetError MediaResponse := do
  let (kgId, yyyyMm, filename) ← route url
  let key ← (stream tenant (String.ofList kgId) (String.ofList yyyyMm) (String.ofList filename)).mapError .media
  respond uploadsDir fault files filename key.toList

end MediaController

end Media
