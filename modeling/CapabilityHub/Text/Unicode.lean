import Mathlib.Data.List.Infix

/-! # Text functions of the standard library -/

namespace CapabilityHub

/-- What `urllib.parse.urlsplit` finds in a URL. -/
structure SplitUrl where
  scheme : String
  hostname : Option String
  /-- `none` where reading it raises `ValueError`. -/
  port : Option (Option Nat)
  username : Option String
  password : Option String
  path : String
  query : String
  fragment : String
  deriving DecidableEq

/-- The functions that read the Unicode character database or follow a standard of their own. -/
structure PythonText where
  /-- `str.casefold` -/
  casefold : String → String
  /-- `str.upper` -/
  upper : String → String
  /-- The value of a decimal digit, of any script. -/
  decimal : Char → Option Nat
  /-- `text.encode("idna").decode("ascii")`; `none` where it raises `UnicodeError`. -/
  idna : String → Option String
  /-- `urlsplit(text)`; `none` where it raises `ValueError`. -/
  urlsplit : String → Option SplitUrl
  /-- `ntpath.normcase(ntpath.normpath(text))` -/
  ntNormalize : String → String

/-- `str.isspace` of a character. -/
def isSpace (character : Char) : Bool :=
  let code := character.toNat
  (9 ≤ code && code ≤ 13) || (28 ≤ code && code ≤ 32) || code = 0x85 || code = 0xa0 ||
    code = 0x1680 || (0x2000 ≤ code && code ≤ 0x200a) || code = 0x2028 || code = 0x2029 ||
    code = 0x202f || code = 0x205f || code = 0x3000

/-- `text.strip()`. -/
def strip (text : String) : String :=
  String.ofList (((text.toList.dropWhile isSpace).reverse.dropWhile isSpace).reverse)

/-- `text.split()`. -/
def splitWords (text : String) : List String :=
  ((text.toList.splitOnP isSpace).filter (· ≠ [])).map String.ofList

/-- `text.rstrip(character)`. -/
def rstrip (character : Char) (text : String) : String :=
  String.ofList ((text.toList.reverse.dropWhile (· = character)).reverse)

/-- `text.lstrip(character)`. -/
def lstrip (character : Char) (text : String) : String :=
  String.ofList (text.toList.dropWhile (· = character))

/-- `text.startswith(start)`. -/
def startsWith (text start : String) : Bool := start.toList.isPrefixOf text.toList

/-- `sub in text`. -/
def contains (text sub : String) : Bool := decide (sub.toList <:+: text.toList)

/-- The functions as they are on ASCII texts; it splits no URL. -/
def asciiText : PythonText where
  casefold := fun text => String.ofList (text.toList.map Char.toLower)
  upper := fun text => String.ofList (text.toList.map Char.toUpper)
  decimal := fun character =>
    if '0' ≤ character ∧ character ≤ '9' then some (character.toNat - '0'.toNat) else none
  idna := some
  urlsplit := fun _ => none
  ntNormalize := fun text => String.ofList (text.toList.map Char.toLower)

end CapabilityHub
