import Depot.Octets
import Depot.Segments

/-!
# Well-known hosts

On some hosts every repository is given by an owner and a name, so that the first three segments of
an import path say where to fetch it from. The address is written as addresses of web pages are:
without empty rests, with the segments `.` and `..` taken away, and with the characters escaped that
may not stand in it.
-/

namespace Depot.Git.Host

/-- The hosts whose repositories have an owner and a name. -/
def known : List String := ["github.com", "gitlab.com", "bitbucket.org"]

/-! ## Addresses -/

/-- One octet, escaped. -/
def escaped (octet : Char) : List Char :=
  let digit (n : Nat) : Char := Char.ofNat (if n < 10 then 48 + n else 55 + n)
  ['%', digit (octet.toNat / 16), digit (octet.toNat % 16)]

/-- Escape control characters, everything beyond ASCII, and what `special` names. -/
def escape (special : List Char) (chars : List Char) : List Char :=
  chars.flatMap fun c =>
    if c < ' ' ∨ '~' < c ∨ special.contains c then
      (Octets.ofText (String.singleton c)).flatMap escaped
    else [c]

/-- The characters that are escaped in a path. -/
def pathSpecial : List Char := [' ', '"', '#', '<', '>', '?', '\x60', '\x7b', '\x7d']

/-- The characters that are escaped in a query. -/
def querySpecial : List Char := [' ', '"', '#', '<', '>', '\x27']

/-- The characters that are escaped in a fragment. -/
def fragmentSpecial : List Char := [' ', '"', '<', '>', '\x60']

/-- A segment in which an escaped dot is a dot. -/
def plainDots : List Char → List Char
  | '%' :: '2' :: c :: rest =>
    if c = 'e' ∨ c = 'E' then '.' :: plainDots rest else '%' :: '2' :: c :: plainDots rest
  | c :: rest => c :: plainDots rest
  | [] => []

/-- Take away the segments `.` and `..`; `above` are those kept so far, in reverse. At the end
either leaves an empty segment. -/
def withoutDots (above : List (List Char)) : List (List Char) → List (List Char)
  | [] => above.reverse
  | s :: rest =>
    let last := if rest = [] then [[]] else []
    if plainDots s = ['.', '.'] then withoutDots (last ++ above.drop 1) rest
    else if plainDots s = ['.'] then withoutDots (last ++ above) rest
    else withoutDots (s :: above) rest

/-- **The address of a place on a host.** -/
def address (host : String) (place : List Char) : String :=
  let trimmed := (place.reverse.dropWhile (· ≤ ' ')).reverse
  let chars := trimmed.filter fun c => c ≠ '\t' ∧ c ≠ '\n' ∧ c ≠ '\r'
  let (body, fragment) := chars.span (· != '#')
  let (path, query) := body.span (· != '?')
  let slashed := path.map fun c => if c = '\\' then '/' else c
  let segments := withoutDots [] (Segments.split slashed)
  let shown := "/".intercalate (segments.map fun s => String.ofList (escape pathSpecial s))
  let tail (special : List Char) : List Char → List Char
    | mark :: rest => mark :: escape special rest
    | [] => []
  "https://" ++ host ++ "/" ++ shown ++ String.ofList (tail querySpecial query) ++
    String.ofList (tail fragmentSpecial fragment)

/-- **A repository on a well-known host.** -/
structure Guess where
  /-- Its root import path. -/
  root : String
  /-- Its address. -/
  remote : String
  deriving DecidableEq, Repr

/-- **Guess the repository that holds an import path.** -/
def guess? (importPath : String) : Option Guess :=
  match Segments.ofString importPath with
  | host :: owner :: name :: _ =>
    if known.contains host then
      some {
        root := host ++ "/" ++ owner ++ "/" ++ name
        remote := address host (owner ++ "/" ++ name).toList }
    else none
  | _ => none

end Depot.Git.Host
