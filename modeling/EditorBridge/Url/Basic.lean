import EditorBridge.Text.Numeral
import EditorBridge.Url.Percent

/-!
# URLs

A `Url` holds the parts of a normalized URL, each as it stands in the text. Two URLs are the same when
their texts are (`Url.text`).

* The path is text that begins with `/`, or, for a URL without a hierarchy (`untitled:Untitled-1`),
  anything.
* `Url.filePath?` is the file that a path URL names, as bytes.
-/

namespace EditorBridge

open EditorBridge.Text

/-- Why a text is no URL. -/
inductive UrlError where
  | relative
  | emptyHost
  | badPort
  | badIpv6
  | badIpv4
  | badHostCharacter
  | badDomainName
  deriving DecidableEq, Repr

/-- The wording of a URL error. -/
def UrlError.message : UrlError → String
  | relative => "relative URL without a base"
  | emptyHost => "empty host"
  | badPort => "invalid port number"
  | badIpv6 => "invalid IPv6 address"
  | badIpv4 => "invalid IPv4 address"
  | badHostCharacter => "invalid domain character"
  | badDomainName => "invalid international domain name"

/-- The parts of a normalized URL. -/
structure Url where
  scheme : String
  /-- Whether `//` and an authority follow the scheme. -/
  hasAuthority : Bool
  username : String
  password : Option String
  /-- The host as written; empty or absent hosts are empty. -/
  host : String
  port : Option Nat
  /-- The path as written. -/
  path : String
  query : Option String
  fragment : Option String
  deriving DecidableEq, Repr, Inhabited

namespace Url

/-- The user name, the password and the sign that ends them. -/
def userInfoText (u : Url) : String :=
  match u.password with
  | some p => u.username ++ ":" ++ p ++ "@"
  | none => if u.username.isEmpty then "" else u.username ++ "@"

/-- The authority with its slashes. A path that begins with two slashes is kept apart from a missing
    authority by `/.`. -/
def authorityText (u : Url) : String :=
  if u.hasAuthority then
    "//" ++ u.userInfoText ++ u.host ++
      (match u.port with
        | some p => ":" ++ Numeral.ofNat p
        | none => "")
  else if "//".toList.isPrefixOf u.path.toList then "/."
  else ""

/-- The text of a URL. -/
def text (u : Url) : String :=
  u.scheme ++ ":" ++ u.authorityText ++ u.path ++
    (match u.query with
      | some q => "?" ++ q
      | none => "") ++
    (match u.fragment with
      | some f => "#" ++ f
      | none => "")

/-- The cut pieces of a character list, at every occurrence of `sep`. -/
def splitAt (sep : Char) : List Char → List (List Char)
  | [] => [[]]
  | c :: cs =>
    if c = sep then [] :: splitAt sep cs
    else
      match splitAt sep cs with
      | [] => [[c]]
      | p :: ps => (c :: p) :: ps

/-- Whether a path ends in a drive letter, which names a directory. -/
def endsInDrive (bs : List UInt8) : Bool :=
  match bs.reverse with
  | mark :: letter :: _ :: _ =>
    (mark == 0x3A || mark == 0x7C) &&
      ((0x41 ≤ letter && letter ≤ 0x5A) || (0x61 ≤ letter && letter ≤ 0x7A))
  | _ => false

/-- The file named by a path URL without a foreign host: its decoded segments, each behind a slash. -/
def filePath? (u : Url) : Option (List UInt8) :=
  match u.path.toList with
  | '/' :: rest =>
    if u.host.isEmpty || (u.host == "localhost") then
      let bytes := (splitAt '/' rest).flatMap fun s => 0x2F :: Percent.decode (Utf8.encodeChars s)
      some (if endsInDrive bytes then bytes ++ [0x2F] else bytes)
    else none
  | _ => none

end Url

end EditorBridge
