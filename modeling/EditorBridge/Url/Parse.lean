import EditorBridge.Text.Blank
import EditorBridge.Url.Host

/-!
# Reading and normalizing URLs

`Url.parse` reads an absolute URL. White space and controls at both ends and every tab and line break
are dropped first. The scheme decides the rest:

* `file`: an authority after two slashes, a path of segments, drive letters kept;
* the other special schemes (`http`, `https`, `ws`, `wss`, `ftp`): any slashes, then an authority and a
  path of segments, backslashes counting as slashes;
* anything else: an authority after `//`, a path after `/`, or text without a hierarchy.

Paths are normalized segment by segment (`addSegment`): `.` and `..`, also percent-encoded, are
resolved, except that `..` never removes a drive letter.
-/

namespace EditorBridge.Url

open EditorBridge.Text

/-! ## 1. Schemes -/

/-- How a scheme shapes its URLs. -/
inductive SchemeKind where
  | file
  | special
  | other
  deriving DecidableEq, Repr

/-- The port that a special scheme leaves out. -/
def defaultPort? (scheme : String) : Option Nat :=
  if scheme = "http" ∨ scheme = "ws" then some 80
  else if scheme = "https" ∨ scheme = "wss" then some 443
  else if scheme = "ftp" then some 21
  else none

/-- The kind of a scheme. -/
def SchemeKind.of (scheme : String) : SchemeKind :=
  if scheme = "file" then .file else if (defaultPort? scheme).isSome then .special else .other

/-- The kinds for which a backslash is a slash. -/
def SchemeKind.isSpecial : SchemeKind → Bool
  | .other => false
  | _ => true

/-- Whether a character may stand in a scheme after its first letter. -/
def isSchemeChar (c : Char) : Bool := Host.isLetter c || Host.isDigit c || c == '+' || c == '-' || c == '.'

/-- The scheme in lower case and what follows its colon. -/
def scheme? : List Char → Option (String × List Char)
  | [] => none
  | c :: cs =>
    if Host.isLetter c then
      match (c :: cs).dropWhile isSchemeChar with
      | ':' :: r => some (String.ofList (((c :: cs).takeWhile isSchemeChar).map Char.toLower), r)
      | _ => none
    else none

/-! ## 2. Path segments -/

/-- Whether a character ends a segment. -/
def isSlash (kind : SchemeKind) (c : Char) : Bool := c == '/' || (kind.isSpecial && c == '\\')

/-- The segments of a path, each with whether a slash ended it, and what follows the path. -/
def segments (kind : SchemeKind) : List Char → List (List Char × Bool) × List Char
  | [] => ([([], false)], [])
  | c :: cs =>
    if c = '?' ∨ c = '#' then ([([], false)], c :: cs)
    else
      let (ss, r) := segments kind cs
      if isSlash kind c then (([], true) :: ss, r)
      else
        match ss with
        | [] => ([([c], false)], r)
        | (s, b) :: ss => ((c :: s, b) :: ss, r)

/-- A drive letter: a letter and a colon or a bar. -/
def isDrive : List Char → Bool
  | [l, m] => Host.isLetter l && (m == ':' || m == '|')
  | _ => false

/-- Whether a segment means the directory it is in. -/
def isSingleDot (s : List Char) : Bool :=
  let t := String.ofList (s.map Char.toLower)
  t = "." || t = "%2e"

/-- Whether a segment means the directory above. -/
def isDoubleDot (s : List Char) : Bool :=
  let t := String.ofList (s.map Char.toLower)
  t = ".." || t = "%2e." || t = ".%2e" || t = "%2e%2e"

/-- A path under way: its segments, last first, and whether a drive letter has replaced the host. -/
structure PathSoFar where
  segments : List (List Char)
  dropsHost : Bool

/-- Without the last segment, unless that is a drive letter. -/
def PathSoFar.shorten (p : PathSoFar) : PathSoFar :=
  match p.segments with
  | [] => p
  | s :: ss => if isDrive s then p else { p with segments := ss }

/-- Appends a segment. -/
def PathSoFar.push (p : PathSoFar) (s : List Char) : PathSoFar := { p with segments := s :: p.segments }

/-- A segment that is neither dot form: the first one of a file path may be a drive letter, which is
    written with a colon and replaces the host. -/
def PathSoFar.pushName (kind : SchemeKind) (p : PathSoFar) (s : List Char) : PathSoFar :=
  match s with
  | [l, _] =>
    if kind = .file ∧ p.segments.isEmpty ∧ isDrive s then
      { segments := [[l, ':']], dropsHost := true }
    else p.push s
  | s => p.push s

/-- Adds one encoded segment; `slash` tells whether a slash ended it. Where a file path begins with a
    drive letter that more text follows at once, the text is a segment of its own, taken as it is. -/
def PathSoFar.addSegment (kind : SchemeKind) (p : PathSoFar) (s : List Char) (slash : Bool) : PathSoFar :=
  let finish (p : PathSoFar) := if slash then p else p.push []
  let add (p : PathSoFar) (s : List Char) : PathSoFar :=
    if isDoubleDot s then finish p.shorten
    else if isSingleDot s then finish p
    else p.pushName kind s
  match s with
  | l :: ':' :: c :: r =>
    if kind = .file ∧ p.segments.isEmpty ∧ Host.isLetter l then
      (p.push [l, ':']).push (c :: r)
    else add p s
  | s => add p s

/-- The path that segments spell, with its leading slash. -/
def PathSoFar.text (p : PathSoFar) : List Char :=
  '/' :: List.intercalate ['/'] p.segments.reverse

/-- Reads a path whose leading slash has been taken, after the segments in `start`. -/
def readPath (kind : SchemeKind) (start : List (List Char)) (cs : List Char) : PathSoFar × List Char :=
  let (ss, r) := segments kind cs
  (ss.foldl
    (fun p s => p.addSegment kind (Percent.encode Percent.inPath s.1) s.2) ⟨start, false⟩, r)

/-- The text of a file path: however many slashes begin it, one is left. -/
def filePathText (p : PathSoFar) : List Char :=
  '/' :: p.text.dropWhile (· == '/')

/-! ## 3. Query and fragment -/

/-- The query and the fragment. -/
def queryAndFragment (kind : SchemeKind) (cs : List Char) : Option String × Option String :=
  let fragment (r : List Char) := some (String.ofList (Percent.encode Percent.inFragment r))
  let set := if kind.isSpecial then Percent.inSpecialQuery else Percent.inQuery
  match cs with
  | '?' :: r =>
    let q := String.ofList (Percent.encode set (r.takeWhile (· != '#')))
    match r.dropWhile (· != '#') with
    | _ :: f => (some q, fragment f)
    | [] => (some q, none)
  | '#' :: f => (none, fragment f)
  | _ => (none, none)

/-! ## 4. Authority -/

/-- Whether a character ends an authority. -/
def endsAuthority (kind : SchemeKind) (c : Char) : Bool := isSlash kind c || c == '?' || c == '#'

/-- The part of an authority before its last at sign, if it has one, and the rest of the input. -/
def userInfo (kind : SchemeKind) (cs : List Char) : Option (List Char) × List Char :=
  let authority := cs.takeWhile fun c => !endsAuthority kind c
  let after := cs.drop authority.length
  match authority.reverse.dropWhile (· != '@') with
  | [] => (none, cs)
  | _ :: before => (some before.reverse, authority.drop (before.length + 1) ++ after)

/-- The user name and password of an authority. -/
def credentials (cs : List Char) : String × Option String :=
  let enc (cs : List Char) := String.ofList (Percent.encode Percent.inUserInfo cs)
  match cs.dropWhile (· != ':') with
  | _ :: p => (enc (cs.takeWhile (· != ':')), if p.isEmpty then none else some (enc p))
  | [] => (enc cs, none)

/-- The host as written and what follows it; a colon inside brackets does not end it. -/
def hostSpan (kind : SchemeKind) : Bool → List Char → List Char × List Char
  | _, [] => ([], [])
  | inside, c :: cs =>
    if (c = ':' ∧ !inside) ∨ endsAuthority kind c then ([], c :: cs)
    else
      let (h, r) := hostSpan kind (if c = '[' then true else if c = ']' then false else inside) cs
      (c :: h, r)

/-- The port after a colon; the scheme's own port is left out. -/
def port? (kind : SchemeKind) (scheme : String) (cs : List Char) :
    Except UrlError (Option Nat × List Char) :=
  let ds := cs.takeWhile Host.isDigit
  let r := cs.drop ds.length
  let fits := match Numeral.value? ds with
    | some n => n ≤ Numeral.maxU16
    | none => true
  let ended := match r with
    | [] => true
    | c :: _ => endsAuthority kind c || c == '\\'
  if !fits || !ended then .error .badPort
  else
    match Numeral.value? ds with
    | none => .ok (none, r)
    | some n => .ok (if some n = defaultPort? scheme then none else some n, r)

/-- Everything after the two slashes of an authority. -/
def afterSlashes (kind : SchemeKind) (scheme : String) (cs : List Char) : Except UrlError Url := do
  let (info, rest) := userInfo kind cs
  let endsAtOnce : Bool := rest.head?.any (endsAuthority kind)
  if info == some [] && endsAtOnce then .error .emptyHost
  let (username, password) := credentials (info.getD [])
  let (hostText, r) := hostSpan kind false rest
  if hostText.isEmpty ∧ kind = .special then .error .emptyHost
  let host ← if kind.isSpecial then Host.special hostText else Host.plain hostText
  let (port, r) ←
    match r with
    | ':' :: r => if host.isEmpty then .error .emptyHost else port? kind scheme r
    | r => .ok (none, r)
  if host.isEmpty ∧ (!username.isEmpty ∨ password.isSome) then .error .emptyHost
  let (path, r) : List Char × List Char :=
    match kind, r with
    | .other, [] => ([], [])
    | .other, '?' :: r => ([], '?' :: r)
    | .other, '#' :: r => ([], '#' :: r)
    | _, c :: cs =>
      let (p, r) := readPath kind [] (if isSlash kind c then cs else c :: cs)
      (p.text, r)
    | _, [] =>
      let (p, r) := readPath kind [] []
      (p.text, r)
  let (query, fragment) := queryAndFragment kind r
  return { scheme, hasAuthority := true, username, password, host, port,
           path := String.ofList path, query, fragment }

/-! ## 5. The three shapes -/

/-- A URL of a file. Without a host the path may hold a drive letter in front; with one, a drive
    letter in front drops the host. -/
def parseFile (cs : List Char) : Except UrlError Url := do
  let build (host : String) (p : PathSoFar) (r : List Char) : Url :=
    let (query, fragment) := queryAndFragment .file r
    { scheme := "file", hasAuthority := true, username := "", password := none,
      host := if p.dropsHost then "" else host, port := none,
      path := String.ofList (filePathText p), query, fragment }
  let slash (c : Char) := isSlash .file c
  match cs with
  | a :: b :: r =>
    if slash a && slash b then
      let hostText := r.takeWhile fun c => !endsAuthority .file c
      let after := r.drop hostText.length
      if isDrive hostText then
        let (p, r) := readPath .file [] r
        return build "" p r
      else
        let host ← if hostText.isEmpty then .ok "" else Host.special hostText
        let host := if host = "localhost" then "" else host
        let tail := match after with
          | c :: cs => if slash c then cs else c :: cs
          | [] => []
        let (p, r) := readPath .file (if host.isEmpty then [[]] else []) tail
        return build host p r
    else
      let (p, r) := readPath .file [] (if slash a then b :: r else a :: b :: r)
      return build "" p r
  | [a] =>
    let (p, r) := readPath .file [] (if slash a then [] else [a])
    return build "" p r
  | [] =>
    let (p, r) := readPath .file [] []
    return build "" p r

/-- A URL of a scheme that is not special. -/
def parseOther (scheme : String) (cs : List Char) : Except UrlError Url :=
  match cs with
  | '/' :: '/' :: r => afterSlashes .other scheme r
  | '/' :: r =>
    let (p, r) := readPath .other [] r
    let (query, fragment) := queryAndFragment .other r
    .ok { scheme, hasAuthority := false, username := "", password := none, host := "", port := none,
          path := String.ofList p.text, query, fragment }
  | cs =>
    let isEnd (c : Char) := c == '?' || c == '#'
    let path := Percent.encode Percent.inOpaque (cs.takeWhile fun c => !isEnd c)
    let (query, fragment) := queryAndFragment .other (cs.dropWhile fun c => !isEnd c)
    .ok { scheme, hasAuthority := false, username := "", password := none, host := "", port := none,
          path := String.ofList path, query, fragment }

/-- The characters of an input that count. -/
def relevant (s : String) : List Char :=
  let outer (c : Char) := c.toNat ≤ 0x20
  let inner := trimEndWhile outer (trimStartWhile outer s.toList)
  inner.filter fun c => !(c == '\t' || c == '\n' || c == '\r')

/-- Reads an absolute URL. -/
def parse (s : String) : Except UrlError Url :=
  match scheme? (relevant s) with
  | none => .error .relative
  | some (scheme, r) =>
    match SchemeKind.of scheme with
    | .file => parseFile r
    | .special => afterSlashes .special scheme (r.dropWhile fun c => c == '/' || c == '\\')
    | .other => parseOther scheme r

/-- A byte of the name of a file as it stands in a path. -/
def nameByte (b : UInt8) : List Char :=
  if 0x80 ≤ b || Percent.inSegment (Char.ofNat b.toNat) then Percent.byteText b else [Char.ofNat b.toNat]

/-- The URL of a file, given by its absolute path as bytes. -/
def ofFilePath (path : List UInt8) : Option Url :=
  match path with
  | 0x2F :: _ =>
    let parts := (path.splitOnP (· == 0x2F)).filter fun p => !p.isEmpty && p != [0x2E]
    let text := parts.flatMap fun p => '/' :: p.flatMap nameByte
    some { scheme := "file", hasAuthority := true, username := "", password := none, host := "",
           port := none, path := String.ofList (if text.isEmpty then ['/'] else text),
           query := none, fragment := none }
  | _ => none

end EditorBridge.Url
