import CapabilityHub.Data.Dict
import CapabilityHub.Errors
import CapabilityHub.Metering
import CapabilityHub.Text.UrlRoute

/-! # Requests of the HTTP provider

The configuration of `HttpApiProvider` and the URL of a request. An argument is a JSON value without
a fraction.
-/

namespace CapabilityHub.Providers

inductive HttpMethod where
  | get
  | post
  | put
  | patch
  | delete
  deriving DecidableEq

structure HttpInvocation where
  method : HttpMethod
  path : String
  query : Dict String String := ∅
  body : List String := []
  rooted : path.toList.head? = some '/'
  hostless : ¬[':', '/', '/'] <:+: path.toList ∧ '?' ∉ path.toList
  bodiless : method = .get ∨ method = .delete → body = []

/-- A part of a path template: a character of its own, or a placeholder. -/
inductive Piece where
  | literal (c : Char)
  | parameter (name : String)
  deriving DecidableEq

def isNameStart (c : Char) : Bool := c.isAlpha || c = '_'

def isNameChar (c : Char) : Bool := c.isAlphanum || c = '_'

/-- The matches of `_PATH_PARAMETER` and the characters between them. After a brace, the characters
of a name are kept, the last of them first, until it is known whether they are one. -/
def pieces : Option (List Char) → List Char → List Piece
  | none, [] => []
  | some name, [] => .literal '\x7b' :: name.reverse.map .literal
  | none, c :: rest => if c = '\x7b' then pieces (some []) rest else .literal c :: pieces none rest
  | some name, c :: rest =>
      if c = '\x7d' ∧ name ≠ [] then .parameter (String.ofList name.reverse) :: pieces none rest
      else if isNameChar c ∧ (name = [] → isNameStart c) then pieces (some (c :: name)) rest
      else
        .literal '\x7b' :: name.reverse.map .literal ++
          if c = '\x7b' then pieces (some []) rest else .literal c :: pieces none rest

def HttpInvocation.pieces (invocation : HttpInvocation) : List Piece :=
  Providers.pieces none invocation.path.toList

namespace Errors

def httpArgumentMissing (argument : String) : Raised :=
  .hub { code := "http_argument_missing", category := .input,
         safeMessage := "A required HTTP argument is missing.", details := [("argument", .text argument)] }

def httpArgumentNotScalar (argument : String) : Raised :=
  .hub { code := "http_argument_not_scalar", category := .input,
         safeMessage := "A path or query HTTP argument must be scalar.",
         details := [("argument", .text argument)] }

end Errors

/-- `_argument`. -/
def argument (arguments : Dict String Json) (key : String) : Except Raised Json :=
  match arguments.get? key with
  | none => .error (Errors.httpArgumentMissing key)
  | some value => .ok value

/-- `str` of `_scalar_argument`. -/
def scalarText (arguments : Dict String Json) (key : String) : Except Raised String := do
  match ← argument arguments key with
  | .str text => .ok text
  | .int value => do
      raiseIf (10 ^ maxStrDigits ≤ value.natAbs) .valueError
      .ok (toString value)
  | .bool value => .ok (if value then "True" else "False")
  | _ => .error (Errors.httpArgumentNotScalar key)

/-- The text of a piece in the path of a request. -/
def renderPiece (arguments : Dict String Json) : Piece → Except Raised (List Char)
  | .literal c => .ok [c]
  | .parameter name => do
      let text ← scalarText arguments name
      .ok (Url.quote text)

/-- `base_url.rstrip("/") + "/"`. -/
def slashed (baseUrl : List Char) : List Char := baseUrl.rdropWhile (· = '/') ++ ['/']

/-- `_url`. -/
def url (refused : List Char → Bool) (baseUrl : String) (invocation : HttpInvocation)
    (arguments : Dict String Json) : Except Raised (List Char) := do
  let path ← invocation.pieces.mapM (renderPiece arguments)
  let fields ← invocation.query.entries.mapM fun entry => do
    let text ← scalarText arguments entry.1
    .ok (entry.2, text)
  let query := Url.urlencode (Dict.ofEntries fields).entries
  match Url.urljoin refused (slashed baseUrl.toList) (path.flatten.dropWhile (· = '/')) with
  | none => .error .valueError
  | some joined => .ok (joined ++ Url.attach '?' query)

/-- The hosts that may be reached in clear text. -/
def loopbackHosts : List String := ["127.0.0.1", "localhost", "::1"]

/-- `HttpApiFixture`, whose headers are left out; `refused` says which network locations `urlsplit`
does not take. -/
structure HttpApiFixture (refused : List Char → Bool) where
  /-- The operations that the manifest declares. -/
  declared : List String
  baseUrl : String
  operations : Dict String HttpInvocation
  /-- `urlsplit(self.base_url)` -/
  parsed : Url.SplitResult
  split : Url.urlsplit refused [] baseUrl.toList = some parsed
  http : Url.IsHttp parsed.scheme
  host : parsed.hostname ≠ []
  bare : parsed.userinfo = ([], []) ∧ parsed.query = [] ∧ parsed.fragment = []
  loopback : parsed.scheme = "http".toList → String.ofList parsed.hostname ∈ loopbackHosts
  named : operations.keys ≠ [] ∧ ∀ name ∈ operations.keys, name ∈ declared

/-! ## The template with its arguments -/

section

variable {arguments : Dict String Json} {texts : List (List Char)} {parts : List Piece}

/-- The text of a piece, empty where an argument is missing. -/
def pieceText (arguments : Dict String Json) (piece : Piece) : List Char :=
  match renderPiece arguments piece with
  | .ok text => text
  | .error _ => []

/-- The segments of a template, with the texts of its placeholders. -/
def HttpInvocation.segments (invocation : HttpInvocation) (arguments : Dict String Json) :
    List (List Char) :=
  ((invocation.pieces.splitOn (.literal '/')).tail).map fun segment =>
    segment.flatMap (pieceText arguments)

theorem renderPiece_eq_ok {piece : Piece} {text : List Char}
    (done : renderPiece arguments piece = .ok text) : pieceText arguments piece = text := by
  rw [pieceText, done]

theorem flatten_of_mapM (done : parts.mapM (renderPiece arguments) = .ok texts) :
    texts.flatten = parts.flatMap (pieceText arguments) := by
  induction parts generalizing texts with
  | nil =>
      obtain rfl := pure_eq_ok.mp done
      rfl
  | cons piece parts ih =>
      obtain ⟨text, rest, here, later, rfl⟩ := mapM_cons_eq_ok.mp done
      rw [List.flatten_cons, List.flatMap_cons, ih later, renderPiece_eq_ok here]

theorem toUpper_hexDigit : ∀ value < 16, Url.isUnreserved (hexDigit value).toUpper = true := by
  decide

/-- A quoted text has unreserved characters only, and the marks of its bytes. -/
theorem mem_quote {text : String} {c : Char} (member : c ∈ Url.quote text) :
    Url.isUnreserved c = true ∨ c = '%' := by
  obtain ⟨byte, _, member⟩ := List.mem_flatMap.mp member
  rw [Url.quoteByte] at member
  split at member
  next unreserved =>
    rw [List.mem_singleton.mp member]
    exact .inl unreserved
  next =>
    have small : byte.toNat < 256 := byte.toNat_lt
    simp only [List.mem_cons, List.not_mem_nil, or_false] at member
    rcases member with rfl | rfl | rfl
    · exact .inr rfl
    · exact .inl (toUpper_hexDigit _ (by omega))
    · exact .inl (toUpper_hexDigit _ (Nat.mod_lt _ (by decide)))

theorem quoteByte_ne_nil (byte : UInt8) : Url.quoteByte byte ≠ [] := by
  rw [Url.quoteByte]
  split <;> exact List.cons_ne_nil _ _

theorem quote_eq_nil {text : String} : Url.quote text = [] ↔ text = "" := by
  rw [Url.quote, List.flatMap_eq_nil_iff]
  constructor
  · intro none
    have empty : encodeUtf8 text = [] :=
      List.eq_nil_iff_forall_not_mem.mpr fun byte member => quoteByte_ne_nil byte (none byte member)
    have size : text.toUTF8.size = 0 := by
      rw [ByteArray.size, ← Array.length_toList]
      exact congrArg List.length empty
    exact String.utf8ByteSize_eq_zero_iff.mp size
  · rintro rfl
    simp [encodeUtf8]

theorem pieceText_parameter {name : String} {c : Char}
    (member : c ∈ pieceText arguments (.parameter name)) : Url.isUnreserved c = true ∨ c = '%' := by
  rw [pieceText] at member
  split at member
  next text done =>
    obtain ⟨value, _, same⟩ := bind_eq_ok.mp done
    cases same
    exact mem_quote member
  next => cases member

theorem splitPath_append {text : List Char} (clean : '/' ∉ text) (rest : List Char) :
    Url.splitPath (text ++ rest) = (Url.splitPath rest).modifyHead (text ++ ·) := by
  induction text with
  | nil =>
      rw [List.nil_append]
      cases Url.splitPath rest <;> rfl
  | cons c text ih =>
      rw [List.mem_cons, not_or] at clean
      have other : ¬(c == '/') = true := by simpa using fun same : c = '/' => clean.1 same.symm
      rw [List.cons_append, Url.splitPath, List.splitOn_cons_eq_if_modifyHead, if_neg other]
      change (Url.splitPath (text ++ rest)).modifyHead _ = _
      rw [ih clean.2]
      cases Url.splitPath rest <;> rfl

/-- The path of a request has the segments of its template. -/
theorem splitPath_flatMap (arguments : Dict String Json) (parts : List Piece) :
    Url.splitPath (parts.flatMap (pieceText arguments)) =
      (parts.splitOn (.literal '/')).map fun segment => segment.flatMap (pieceText arguments) := by
  induction parts with
  | nil => rfl
  | cons piece parts ih =>
      rw [List.flatMap_cons, List.splitOn_cons_eq_if_modifyHead]
      by_cases slash : piece = .literal '/'
      · rw [if_pos (by simp [slash]), slash, List.map_cons, ← ih]
        change Url.splitPath ('/' :: parts.flatMap (pieceText arguments)) = _
        rw [Url.splitPath, List.splitOn_cons_eq_if_modifyHead, if_pos (by simp)]
        rfl
      · have clean : '/' ∉ pieceText arguments piece := by
          cases piece with
          | literal c =>
              change '/' ∉ [c]
              simpa using fun same : '/' = c => slash (same ▸ rfl)
          | parameter name =>
              intro member
              rcases pieceText_parameter member with bad | bad <;> cases bad
        rw [if_neg (by simp [slash]), splitPath_append clean, ih]
        cases parts.splitOn (.literal '/') <;> rfl

end

end CapabilityHub.Providers
