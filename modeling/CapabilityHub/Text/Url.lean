import CapabilityHub.Data.Json
import Mathlib.Data.List.DropRight
import Mathlib.Data.List.Basic
import Mathlib.Algebra.BigOperators.Group.List.Basic

/-! # URLs

`urllib.parse`: `quote`, `urlencode`, `urlsplit` and `urljoin`, on lists of characters, and the removal
of dot segments.
-/

namespace CapabilityHub.Url

def isUnreserved (c : Char) : Bool := c.isAlphanum || c ∈ ['_', '.', '-', '~']

/-- A byte of a quoted text. -/
def quoteByte (byte : UInt8) : List Char :=
  if isUnreserved (Char.ofNat byte.toNat) then [Char.ofNat byte.toNat]
  else ['%', (hexDigit (byte.toNat / 16)).toUpper, (hexDigit (byte.toNat % 16)).toUpper]

/-- `quote(text, safe="")`. -/
def quote (text : String) : List Char := (encodeUtf8 text).flatMap quoteByte

/-- `quote_plus`. -/
def quotePlus (text : String) : List Char :=
  (encodeUtf8 text).flatMap fun byte => if byte = 0x20 then ['+'] else quoteByte byte

/-- `urlencode`. -/
def urlencode (fields : List (String × String)) : List Char :=
  ['&'].intercalate (fields.map fun field => quotePlus field.1 ++ '=' :: quotePlus field.2)

/-- A character that no URL starts with: a control of C0, or a blank. -/
def isSpace (c : Char) : Bool := c.toNat ≤ 0x20

/-- A character that is taken out of a URL. -/
def isUnsafe (c : Char) : Bool := c ∈ ['\t', '\r', '\n']

def sanitize (url : List Char) : List Char := (url.dropWhile isSpace).filter (!isUnsafe ·)

def schemeChar (c : Char) : Bool := c.isAlphanum || c ∈ ['+', '-', '.']

/-- Whether the text before a colon is a scheme. -/
def IsScheme (name : List Char) : Prop := (∃ first ∈ name.head?, first.isAlpha) ∧ name.all schemeChar

instance {name : List Char} : Decidable (IsScheme name) :=
  decidable_of_iff (name.head?.any Char.isAlpha = true ∧ name.all schemeChar = true) (by
    simp only [IsScheme, Option.any_eq_true, Option.mem_def])

/-- The scheme of a URL, or the default, and what comes after it. -/
def splitScheme (default url : List Char) : List Char × List Char :=
  if ':' ∈ url ∧ IsScheme (url.takeWhile (· ≠ ':')) then
    ((url.takeWhile (· ≠ ':')).map Char.toLower, (url.dropWhile (· ≠ ':')).tail)
  else (default, url)

def inNetloc (c : Char) : Bool := c ∉ ['/', '?', '#']

/-- The network location of a URL without its scheme, and what comes after it. -/
def splitNetloc : List Char → List Char × List Char
  | '/' :: '/' :: rest => (rest.takeWhile inNetloc, rest.dropWhile inNetloc)
  | url => ([], url)

/-- `text.split(mark, 1)` of a text with the mark; all of a text without it. -/
def cut (mark : Char) (text : List Char) : List Char × List Char :=
  (text.takeWhile (· ≠ mark), (text.dropWhile (· ≠ mark)).tail)

structure SplitResult where
  scheme : List Char
  netloc : List Char
  path : List Char
  query : List Char
  fragment : List Char
  deriving DecidableEq

namespace SplitResult

variable (url : SplitResult)

/-- `_hostinfo`: the host and the port. -/
def hostinfo : List Char × List Char :=
  let host := url.netloc.rtakeWhile (· ≠ '@')
  if '[' ∈ host then
    let (name, port) := cut ']' (cut '[' host).2
    (name, (cut ':' port).2)
  else cut ':' host

/-- `hostname`; a zone keeps its letters. -/
def hostname : List Char :=
  let (name, zone) := (url.hostinfo.1.takeWhile (· ≠ '%'), url.hostinfo.1.dropWhile (· ≠ '%'))
  name.map Char.toLower ++ zone

/-- The user and the password. -/
def userinfo : List Char × List Char := cut ':' (url.netloc.rdropWhile (· ≠ '@')).dropLast

end SplitResult

/-- `urlsplit`, which raises `ValueError` at a network location that is refused: one with odd
brackets, or with compatibility characters that are marks of a URL. -/
def urlsplit (refused : List Char → Bool) (default url : List Char) : Option SplitResult :=
  let (scheme, rest) := splitScheme default (sanitize url)
  let (netloc, rest) := splitNetloc rest
  let (rest, fragment) := cut '#' rest
  let (path, query) := cut '?' rest
  if refused netloc then none else some ⟨scheme, netloc, path, query, fragment⟩

/-- `path.split("/")`. -/
def splitPath (path : List Char) : List (List Char) := path.splitOn '/'

def joinPath (segments : List (List Char)) : List Char := ['/'].intercalate segments

/-- The segments of a path that is empty or starts with a slash. -/
def segmentsOf (path : List Char) : List (List Char) := (splitPath path).tail

/-- `_splitparams`: a path up to the first semicolon of its last segment, and what comes after it. -/
def splitParams (path : List Char) : List Char × List Char :=
  let last := cut ';' (path.rtakeWhile (· ≠ '/'))
  (path.rdropWhile (· ≠ '/') ++ last.1, last.2)

/-- `urlunparse` of a URL with a scheme and a network location. -/
def unparse (url : SplitResult) (params : List Char) : List Char :=
  let path := url.path ++ (if params = [] then [] else ';' :: params)
  url.scheme ++ ':' :: '/' :: '/' :: url.netloc ++
    (if path = [] ∨ path.head? = some '/' then path else '/' :: path) ++
    (if url.query = [] then [] else '?' :: url.query) ++
    (if url.fragment = [] then [] else '#' :: url.fragment)

def IsDots (segment : List Char) : Prop := segment = ['.'] ∨ segment = ['.', '.']

instance {segment : List Char} : Decidable (IsDots segment) :=
  inferInstanceAs (Decidable (segment = ['.'] ∨ segment = ['.', '.']))

/-- One segment after those that are resolved. -/
def resolveStep (resolved : List (List Char)) (segment : List Char) : List (List Char) :=
  if segment = ['.', '.'] then resolved.dropLast
  else if segment = ['.'] then resolved
  else resolved ++ [segment]

/-- The removal of dot segments; a dot segment at the end leaves an empty one. -/
def resolve (segments : List (List Char)) : List (List Char) :=
  segments.foldl resolveStep [] ++
    (if ∃ last ∈ segments.getLast?, IsDots last then [[]] else [])

/-- The first and the last segment, and those between them that are not empty. -/
def squeeze : List (List Char) → List (List Char)
  | first :: second :: rest =>
      first :: ((second :: rest).dropLast.filter (· ≠ []) ++ [(second :: rest).getLastD []])
  | segments => segments

/-- The segments of a base path that a relative path starts from. -/
def directory (path : List Char) : List (List Char) :=
  if (splitPath path).getLastD [] = [] then splitPath path else (splitPath path).dropLast

/-- The segments of a relative path after those of a base path. -/
def joinedSegments (basePath path : List Char) : List (List Char) :=
  if path.head? = some '/' then splitPath path else squeeze (directory basePath ++ splitPath path)

def joinedPath (basePath path : List Char) : List Char :=
  if joinPath (resolve (joinedSegments basePath path)) = [] then ['/']
  else joinPath (resolve (joinedSegments basePath path))

/-- What `urljoin` puts together of two URLs of one scheme. -/
def joinParts (based split : SplitResult) : List Char :=
  let (path, params) := splitParams split.path
  let (basePath, baseParams) := splitParams based.path
  if split.netloc ≠ [] then unparse { split with path := path } params
  else if path = [] ∧ params = [] then
    unparse
      { based with
        path := basePath
        query := if split.query = [] then based.query else split.query
        fragment := split.fragment } baseParams
  else
    unparse { split with netloc := based.netloc, path := joinedPath basePath path } params

/-- `urljoin`, of a base whose scheme is one of HTTP. -/
def urljoin (refused : List Char → Bool) (base url : List Char) : Option (List Char) :=
  if url = [] then some base
  else
    (urlsplit refused [] base).bind fun based =>
      (urlsplit refused based.scheme url).map fun split =>
        if split.scheme ≠ based.scheme then url else joinParts based split

end CapabilityHub.Url
