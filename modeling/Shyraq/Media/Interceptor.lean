import Mathlib.Data.List.Dedup

/-!
# MediaSignInterceptor and MediaController

One walks every response body and presigns what it takes for an object of the bucket, the other serves the objects by
tenant.  Texts are cut by characters.  What `new URL(…).pathname` gives, and what the storage signs, are parameters.
-/

namespace Media

/-! ## The keys that are served -/

structure TenantContext where
  kgId : Option String
  bypass : Bool

inductive MediaError
  | mediaNotFound
  | mediaCrossTenantDenied
  deriving DecidableEq

namespace MediaController

def isHex (c : Char) : Bool := c.isDigit || (decide ('a' ≤ c) && decide (c ≤ 'f'))

/-- `UUID_RE`: dashes at four places, hexadecimal digits at the others. -/
def isUuid (text : List Char) : Bool :=
  decide (text.length = 36) && text.zipIdx.all fun (c, i) =>
    if i = 8 ∨ i = 13 ∨ i = 18 ∨ i = 23 then c == '-' else isHex c

/-- `YYYY_MM_RE`. -/
def isYearMonth : List Char → Bool
  | [a, b, c, d, dash, m, n] =>
      [a, b, c, d, n].all Char.isDigit && dash == '-' && ((m == '0' && n != '0') || (m == '1' && decide (n ≤ '2')))
  | _ => false

/-- `FILENAME_RE`. -/
def isFilename (text : List Char) : Bool :=
  isUuid (text.take 36) &&
    match text.drop 36 with
    | '.' :: extension => decide (2 ≤ extension.length ∧ extension.length ≤ 5) &&
        extension.all fun c => c.isDigit || (decide ('a' ≤ c) && decide (c ≤ 'z'))
    | _ => false

/-- The key that `stream` reads from the storage. -/
def stream (tenant : TenantContext) (kgId yyyyMm filename : String) : Except MediaError String :=
  if !isUuid kgId.toList || !isYearMonth yyyyMm.toList || !isFilename filename.toList then .error .mediaNotFound
  else if !tenant.bypass && tenant.kgId != some kgId then .error .mediaCrossTenantDenied
  else .ok (kgId ++ "/" ++ yyyyMm ++ "/" ++ filename)

end MediaController

/-! ## The keys that are recognised -/

structure MediaUrlConfig where
  urlPrefix : String
  legacyPrefix : String
  bucketBases : List String
  deriving DecidableEq

/-- The rest of a text that starts so. -/
def after (start value : String) : Option String :=
  if start.toList.isPrefixOf value.toList then some (String.ofList (value.toList.drop start.toList.length)) else none

/-- `/^https?:\/\//i`. -/
def isAbsoluteUrl (value : String) : Bool :=
  let lower := value.toList.map Char.toLower
  "http://".toList.isPrefixOf lower || "https://".toList.isPrefixOf lower

def stripKey (raw : String) : Option String :=
  let key := raw.toList.takeWhile (· != '?')
  if key.isEmpty then none else some (String.ofList key)

section

variable (cfg : MediaUrlConfig) (pathname : String → Option String)

def fromPath (path : String) : Option String :=
  match after (cfg.urlPrefix ++ "/") path with
  | some raw => stripKey raw
  | none => (after (cfg.legacyPrefix ++ "/") path).bind stripKey

def resolveMediaKey (value : String) : Option String :=
  if value.isEmpty then none
  else if isAbsoluteUrl value then
    match cfg.bucketBases.findSome? fun base => after base value with
    | some raw => stripKey raw
    | none => (pathname value).bind (fromPath cfg)
  else fromPath cfg value

end

/-! ## The walk -/

/-- A response body.  A `Date` or a `Buffer` is not walked into. -/
inductive Body
  | null
  | bool (b : Bool)
  | num (n : Int)
  | native
  | str (s : String)
  | arr (items : List Body)
  | obj (fields : List (String × Body))

section

variable (cfg : MediaUrlConfig) (pathname : String → Option String)

mutual

/-- `acc` is a set, in the order of insertion. -/
def collectMediaUrls (acc : List String) : Body → List String
  | .str s => if (resolveMediaKey cfg pathname s).isSome && !acc.contains s then acc ++ [s] else acc
  | .arr items => collectItems acc items
  | .obj fields => collectFields acc fields
  | .null | .bool _ | .num _ | .native => acc

def collectItems (acc : List String) : List Body → List String
  | [] => acc
  | item :: items => collectItems (collectMediaUrls acc item) items

def collectFields (acc : List String) : List (String × Body) → List String
  | [] => acc
  | (_, value) :: fields => collectFields (collectMediaUrls acc value) fields

end

end

mutual

/-- In place: an element or a field that has been signed. -/
def replaceMediaUrls (signed : List (String × String)) : Body → Body
  | .arr items => .arr (replaceItems signed items)
  | .obj fields => .obj (replaceFields signed fields)
  | .null => .null
  | .bool b => .bool b
  | .num n => .num n
  | .native => .native
  | .str s => .str s

def replaceItems (signed : List (String × String)) : List Body → List Body
  | [] => []
  | item :: items =>
      (match item with
        | .str s => .str ((signed.lookup s).getD s)
        | item => replaceMediaUrls signed item) :: replaceItems signed items

def replaceFields (signed : List (String × String)) : List (String × Body) → List (String × Body)
  | [] => []
  | (key, value) :: fields =>
      (key, match value with
        | .str s => .str ((signed.lookup s).getD s)
        | value => replaceMediaUrls signed value) :: replaceFields signed fields

end

namespace MediaSignInterceptor

variable (cfg : MediaUrlConfig) (pathname : String → Option String)

/-- `getSignedUrl`, which may throw. -/
abbrev Storage := String → Option String

/-- The keys that the storage is asked to sign, each once. -/
def presigned (originals : List String) : List String := (originals.filterMap (resolveMediaKey cfg pathname)).dedup

/-- What could not be signed stays as it is. -/
def signAll (storage : Storage) (originals : List String) : List (String × String) :=
  originals.map fun url =>
    (url, ((resolveMediaKey cfg pathname url).bind storage).getD url)

/-- What a handler returns, and the keys that were signed for it. -/
structure Signed where
  body : Body
  keys : List String

/-- `skip` is the tag of the handler. -/
def intercept (storage : Storage) (skip : Bool) (body : Body) : Signed :=
  if skip then ⟨body, []⟩
  else
    let originals := collectMediaUrls cfg pathname [] body
    if originals.isEmpty then ⟨body, []⟩
    else ⟨replaceMediaUrls (signAll cfg pathname storage originals) body, presigned cfg pathname originals⟩

end MediaSignInterceptor

end Media
