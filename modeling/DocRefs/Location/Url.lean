import DocRefs.Text.Hex

/-!
# URLs

A URL in parts, and its one written form. The path of a URL is either opaque text or a list of
segments; only one with segments can be the base of a relative reference.
-/
namespace DocRefs.Location

inductive UrlPath where
  | opaqueText (text : String)
  | segments (segments : List String)
  deriving DecidableEq, Repr, Inhabited

structure Url where
  scheme : String
  username : String := ""
  password : String := ""
  host : Option String := none
  port : Option Nat := none
  path : UrlPath
  query : Option String := none
  fragment : Option String := none
  deriving DecidableEq, Repr, Inhabited

namespace Url

/-- The schemes with a grammar of their own, each with the port it implies. -/
def specialSchemes : List (String × Option Nat) :=
  [("http", some 80), ("https", some 443), ("ws", some 80), ("wss", some 443), ("ftp", some 21),
    ("file", none)]

def isSpecialScheme (scheme : String) : Bool := (specialSchemes.lookup scheme).isSome

/-- The port that a scheme implies. -/
def impliedPort? (scheme : String) : Option Nat := (specialSchemes.lookup scheme).join

def UrlPath.text : UrlPath → String
  | .opaqueText text => text
  | .segments segments => String.join (segments.map fun segment => "/" ++ segment)

/-- The part between the scheme and the path. -/
def authority (u : Url) : String :=
  match u.host with
  | none =>
    match u.path with
    | .segments ("" :: _ :: _) => "/."
    | _ => ""
  | some host =>
    let password := if u.password.isEmpty then "" else ":" ++ u.password
    let credentials :=
      if u.username.isEmpty && u.password.isEmpty then "" else u.username ++ password ++ "@"
    let port := match u.port with
      | some port => ":" ++ toString port
      | none => ""
    "//" ++ credentials ++ host ++ port

/-- The written form. -/
def text (u : Url) : String :=
  let query := match u.query with
    | some query => "?" ++ query
    | none => ""
  let fragment := match u.fragment with
    | some fragment => "#" ++ fragment
    | none => ""
  u.scheme ++ ":" ++ u.authority ++ UrlPath.text u.path ++ query ++ fragment

/-- The URL as a directory: its path ends with a slash. -/
def asDirectory (u : Url) : Url :=
  match u.path with
  | .opaqueText _ => u
  | .segments segments =>
    if segments.getLast? = some "" then u else { u with path := .segments (segments ++ [""]) }

theorem asDirectory_asDirectory (u : Url) : u.asDirectory.asDirectory = u.asDirectory := by
  unfold asDirectory
  cases path : u.path with
  | opaqueText text => simp [path]
  | segments segments =>
    by_cases last : segments.getLast? = some "" <;> simp [path, last]

end Url

end DocRefs.Location
