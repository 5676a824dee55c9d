import DocRefs.Location.Url.Host
import DocRefs.Text.Split

/-!
# Reading URLs

Query and fragment are cut off first, so what is left is scheme, authority and path. A reference
without scheme takes over from a base as much as it does not say itself. Double dots are folded as
the segments are read and stop at the root.
-/
namespace DocRefs.Location.Url

/-- Spaces and control characters at the ends, and tabs and line breaks anywhere, do not count. -/
def clean (text : String) : List Char :=
  let isOuter (c : Char) : Bool := c.toNat ≤ 0x20
  let trimmed := ((text.toList.dropWhile isOuter).reverse.dropWhile isOuter).reverse
  trimmed.filter fun c => !(c == '\t' || c == '\n' || c == '\r')

/-- The scheme in lower case, and what follows its colon. -/
def scheme? (text : List Char) : Option (String × List Char) :=
  match text with
  | first :: _ =>
    let isScheme (c : Char) : Bool := c.isAlphanum || c == '+' || c == '-' || c == '.'
    match first.isAlpha, text.dropWhile isScheme with
    | true, ':' :: rest => some (String.ofList ((text.takeWhile isScheme).map Char.toLower), rest)
    | _, _ => none
  | [] => none

/-- The parts of a reference behind its scheme. -/
structure Tail where
  body : List Char
  query : Option (List Char)
  fragment : Option (List Char)

def splitTail (text : List Char) : Tail :=
  let front := text.takeWhile (· != '#')
  let fragment := match text.dropWhile (· != '#') with
    | _ :: fragment => some fragment
    | [] => none
  let query := match front.dropWhile (· != '?') with
    | _ :: query => some query
    | [] => none
  ⟨front.takeWhile (· != '?'), query, fragment⟩

/-! ## What is percent-encoded where -/

def encodedInFragment (c : Char) : Bool := " \"<>`".toList.contains c

def encodedInQuery (special : Bool) (c : Char) : Bool :=
  " \"#<>".toList.contains c || (special && c == '\'')

def encodedInPath (c : Char) : Bool :=
  encodedInFragment c || c == '#' || c == '?' || c == '\x7b' || c == '\x7d'

def encodedInCredentials (c : Char) : Bool :=
  encodedInPath c || "/:;=@[\\]^|".toList.contains c

/-! ## Path segments -/

/-- A slash; a backslash counts as one where the scheme has a grammar of its own. -/
def isSlash (special : Bool) (c : Char) : Bool := c == '/' || (special && c == '\\')

/-- Splits at every slash. -/
def splitSlashes (special : Bool) (text : List Char) : List (List Char) :=
  Text.split (isSlash special) text

/-- A dot, plain or percent-encoded, taken off the front. -/
def takeDot? : List Char → Option (List Char)
  | '.' :: rest => some rest
  | '%' :: '2' :: e :: rest => if e == 'e' || e == 'E' then some rest else none
  | _ => none

def isSingleDot (segment : List Char) : Bool := takeDot? segment = some []

def isDoubleDot (segment : List Char) : Bool := (takeDot? segment >>= takeDot?) = some []

/-- A letter and a colon, or a bar in place of the colon. -/
def isDrive : List Char → Bool
  | [letter, mark] => letter.isAlpha && (mark == ':' || mark == '|')
  | _ => false

def isDriveText (segment : String) : Bool :=
  match segment.toList with
  | [letter, ':'] => letter.isAlpha
  | _ => false

/-- The path without its last segment. A drive at the root of a file stays. -/
def shorten (scheme : String) (path : List String) : List String :=
  match scheme == "file", path with
  | true, [drive] => if isDriveText drive then [drive] else []
  | _, path => path.dropLast

/-- The segment in its written form. -/
def segmentText (scheme : String) (path : List String) (segment : List Char) : String :=
  if scheme == "file" && path.isEmpty && isDrive segment then
    String.ofList (segment.take 1 ++ [':'])
  else String.ofList (percentEncode encodedInPath segment)

/-- Appends segments to a path. Dots at the end leave an empty last segment. -/
def append (scheme : String) (path : List String) : List (List Char) → List String
  | [] => path
  | segment :: rest =>
    let next :=
      if isDoubleDot segment then
        -- At the end a directory remains, which has an empty last segment.
        let above := shorten scheme path
        if rest.isEmpty then above ++ [""] else above
      else if isSingleDot segment then (if rest.isEmpty then path ++ [""] else path)
      else path ++ [segmentText scheme path segment]
    append scheme next rest

/-- Appends a written path, which may begin with a slash, to the segments of another. -/
def appendText (scheme : String) (path : List String) (text : List Char) : List String :=
  let special := isSpecialScheme scheme
  let text := match text with
    | c :: rest => if isSlash special c then rest else text
    | [] => []
  append scheme path (splitSlashes special text)

/-! ## Authority -/

/-- Splits at the last occurrence of a character. -/
def splitLast? (mark : Char) (text : List Char) : Option (List Char × List Char) :=
  let back := (text.reverse.takeWhile (· != mark)).reverse
  if back.length < text.length then some (text.take (text.length - back.length - 1), back) else none

/-- The colon in front of a port; colons in brackets do not count. -/
def splitPort (text : List Char) : List Char × Option (List Char) :=
  match splitLast? ':' text with
  | some (host, port) => if port.contains ']' then (text, none) else (host, some port)
  | none => (text, none)

def port? (scheme : String) (digits : List Char) : Option (Option Nat) := do
  if digits.isEmpty then return none
  let port ← digitsIn? 10 digits
  if port > 65535 then none
  else some (if impliedPort? scheme = some port then none else some port)

/-- Reads the authority and the path behind it. -/
def withAuthority? (scheme : String) (text : List Char) : Option Url := do
  let special := isSpecialScheme scheme
  let isEnd (c : Char) : Bool := isSlash special c
  let authority := text.takeWhile fun c => !isEnd c
  let pathText := text.dropWhile fun c => !isEnd c
  let (credentials, hostPort) := match splitLast? '@' authority with
    | some (credentials, rest) => (some credentials, rest)
    | none => (none, authority)
  let (host, portText) := splitPort hostPort
  -- Without host there is nobody to have credentials or a port.
  if host.isEmpty && (special || credentials.isSome || portText.isSome) then none
  else
    let host ← if host.isEmpty then some "" else host? special host
    let port ← (portText.map (port? scheme)).getD (some none)
    let user := credentials.getD []
    let encode (text : List Char) : String :=
      String.ofList (percentEncode encodedInCredentials text)
    let segments := if !special && pathText.isEmpty then [] else appendText scheme [] pathText
    return {
      scheme, host := some host, port, path := .segments segments
      username := encode (user.takeWhile (· != ':'))
      password := encode ((user.dropWhile (· != ':')).drop 1) }

/-! ## File URLs -/

/-- The text begins with a drive, which is a whole segment. -/
def startsWithDrive (text : List Char) : Bool :=
  isDrive (text.take 2) && (match text.drop 2 with
    | [] => true
    | c :: _ => isSlash true c)

/-- Reads what follows two slashes of a file URL. -/
def fileAuthority? (text : List Char) : Option Url := do
  let host := text.takeWhile fun c => !isSlash true c
  let rest := text.dropWhile fun c => !isSlash true c
  let file (host : String) (text : List Char) : Url :=
    { scheme := "file", host := some host, path := .segments (appendText "file" [] text) }
  -- What looks like a host may be the drive of a path.
  if isDrive host then return file "" text
  if host.isEmpty then return file "" rest
  let host ← host? true host
  return file (if host = "localhost" then "" else host) rest

/-- The segments of a base that can have relative references. -/
def segmentsOf (base : Option Url) : List String :=
  match base with
  | some { path := .segments segments, .. } => segments
  | _ => []

def fileBody? (base : Option Url) (tail : Tail) : Option Url :=
  let host := (base.bind (·.host)).getD ""
  let isAny := isSlash true
  match tail.body with
  | first :: second :: rest =>
    if isAny first && isAny second then fileAuthority? rest
    else if isAny first then fromRoot host (second :: rest)
    else relative host (first :: second :: rest)
  | [first] => if isAny first then fromRoot host [] else relative host [first]
  | [] =>
    match base with
    | some base => some { base with
        query := if tail.query.isSome then none else base.query, fragment := none }
    | none => some { scheme := "file", host := some "", path := .segments [""] }
where
  file (host : String) (segments : List String) : Option Url :=
    some { scheme := "file", host := some host, path := .segments segments }
  fromRoot (host : String) (text : List Char) : Option Url :=
    -- A path from the root stays on the drive of the base, unless it names one.
    let drive := match segmentsOf base with
      | first :: _ => if isDriveText first && !startsWithDrive text then [first] else []
      | [] => []
    file host (append "file" drive (splitSlashes true text))
  relative (host : String) (text : List Char) : Option Url :=
    let start := if startsWithDrive text then [] else shorten "file" (segmentsOf base)
    file host (append "file" start (splitSlashes true text))

/-! ## References -/

/-- A reference without scheme against a base that has segments. -/
def relativeBody? (base : Url) (tail : Tail) : Option Url :=
  let special := isSpecialScheme base.scheme
  let plain := { base with query := none, fragment := none }
  let isAny := isSlash special
  match tail.body with
  | [] => some { plain with query := if tail.query.isSome then none else base.query }
  | first :: rest =>
    if isAny first then
      match rest with
      | second :: more =>
        if isAny second then
          withAuthority? base.scheme (if special then more.dropWhile isAny else more)
        else
          let segments := append base.scheme [] (splitSlashes special rest)
          some { plain with path := .segments segments }
      | [] => some { plain with path := .segments [""] }
    else
      let start := shorten base.scheme (segmentsOf (some base))
      let segments := append base.scheme start (splitSlashes special tail.body)
      some { plain with path := .segments segments }

/-- A reference with a scheme. A special one that repeats the scheme of the base and has no
authority is relative after all. -/
def absoluteBody? (base : Option Url) (scheme : String) (tail : Tail) : Option Url :=
  let sameBase := base.filter fun base => base.scheme == scheme
  if scheme == "file" then fileBody? sameBase tail
  else if isSpecialScheme scheme then
    let slashes := (tail.body.takeWhile (isSlash true)).length
    match sameBase with
    | some base =>
      -- Without two slashes the scheme is only a repetition of what the base says.
      if slashes < 2 then relativeBody? base tail
      else withAuthority? scheme (tail.body.drop slashes)
    | none => withAuthority? scheme (tail.body.drop slashes)
  else match tail.body with
    | '/' :: '/' :: rest => withAuthority? scheme rest
    | '/' :: rest =>
      some { scheme, path := .segments (append scheme [] (splitSlashes false rest)) }
    | text =>
      let shown := String.ofList (percentEncode (fun _ => false) text)
      some { scheme, path := .opaqueText shown }

/-- Reads a reference, against a base if it has no scheme. -/
def read? (base : Option Url) (text : String) : Option Url := do
  let text := clean text
  let (tail, body) ← match scheme? text with
    | some (scheme, rest) =>
      let tail := splitTail rest
      (absoluteBody? base scheme tail).map fun url => (tail, url)
    | none => do
      let base ← base
      let tail := splitTail text
      let url ← match base.path with
        -- A base that is no path can only take another fragment.
        | .opaqueText _ =>
          if tail.body.isEmpty && tail.query.isNone && tail.fragment.isSome then
            some { base with fragment := none }
          else none
        | .segments _ =>
          if base.scheme == "file" then fileBody? base tail else relativeBody? base tail
      pure (tail, url)
  let special := isSpecialScheme body.scheme
  let query := match tail.query with
    | some query => some (String.ofList (percentEncode (encodedInQuery special) query))
    | none => body.query
  let fragment := tail.fragment.map fun fragment =>
    String.ofList (percentEncode encodedInFragment fragment)
  return { body with query, fragment }

/-- Reads an absolute URL. -/
def parse? (text : String) : Option Url := read? none text

/-- Reads a reference that may be relative to a base. -/
def join? (base : Url) (text : String) : Option Url := read? (some base) text

end DocRefs.Location.Url
