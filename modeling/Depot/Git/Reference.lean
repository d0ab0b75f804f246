import Depot.Git.Object
import Depot.Segments

/-!
# References

A reference is a name for an object, or for another reference. Most references are kept in files of
their own, whose path is the reference's name; many may also be packed into one file.
-/

namespace Depot.Git

/-- **What a reference stands for.** -/
inductive Target where
  /-- An object. -/
  | object (oid : Oid)
  /-- Another reference. -/
  | reference (name : String)
  deriving DecidableEq, Repr

namespace Reference

/-- The reference that says what is checked out. -/
def head : String := "HEAD"

/-- Where branches are named. -/
def branches : String := "refs/heads/"

/-- Where tags are named. -/
def tags : String := "refs/tags/"

/-- Where the branches of remotes are named. -/
def remotes : String := "refs/remotes/"

/-- The branch that a new repository begins with. -/
def firstBranch : String := branches ++ "master"

/-- What a name says after the place it is in. -/
def below? (place name : String) : Option String :=
  (place.toList.isPrefixOf? name.toList).map String.ofList

/-- Whether a name is in a place. -/
def isBelow (place name : String) : Bool := (below? place name).isSome

/-- A name without the place that it is usually in. -/
def shorthand (name : String) : String :=
  ([branches, tags, remotes, "refs/"].findSome? (below? · name)).getD name

/-! ## Names -/

/-- The characters that mean something else where revisions and patterns are written. -/
def reserved : List Char := ['~', '^', ':', '\\', '?', '[', '*']

/-- Whether a character may be part of a name. -/
def isNameChar (c : Char) : Bool := ' ' < c && !reserved.contains c

/-- Whether a segment may be part of a name. -/
def isSegment (s : List Char) : Bool :=
  !s.isEmpty && s.head? != some '.' && s.all isNameChar &&
    !(s.zip (s.drop 1)).contains ('.', '.') && !(s.zip (s.drop 1)).contains ('@', '\x7b') &&
    !".lock".toList.isSuffixOf s

/-- Whether a segment is written in capitals, which is how names outside `refs` are written. -/
def isCapital (s : List Char) : Bool :=
  s.all (fun c => ('A' ≤ c && c ≤ 'Z') || c = '_') && s.head? != some '_' && s.getLast? != some '_'

/-- **Whether a name is one that a reference may have.** -/
def isName (name : String) : Bool :=
  let segments := Segments.split name.toList
  segments.all isSegment && name.toList.getLast? != some '.' &&
    match segments with
    | [] => false
    | [only] => isCapital only
    | first :: _ => !isCapital first

/-! ## Files -/

/-- Octets without the blanks at their end. -/
def trimEnd (octets : List Char) : List Char :=
  (octets.reverse.dropWhile Object.isBlank).reverse

/-- What a reference's file says, if it can be read. -/
def ofFile? (octets : List Char) : Option Target :=
  match Object.after? "ref: " octets with
  | some _ =>
    match Object.after? "ref: " (trimEnd octets) with
    | some name => if name = [] then none else (Octets.text? name).map .reference
    | none => none
  | none =>
    match Oid.ofDigits? (octets.take Oid.width), octets.drop Oid.width with
    | some oid, [] => some (.object oid)
    | some oid, c :: _ => if Object.isBlank c then some (.object oid) else none
    | none, _ => none

/-- The file of a reference. -/
def fileOf : Target → List Char
  | .object oid => Octets.ofText (oid.digits ++ "\n")
  | .reference name => Octets.ofText ("ref: " ++ name ++ "\n")

/-- The references of a file that packs many, line by line. A line that begins with a caret says
what the tag of the line before stands for. -/
def packedLines? : List (List Char) → Option (List (String × Oid))
  | [] => some []
  | line :: lines =>
    match line with
    | '^' :: digits => do
      let _ ← Oid.ofDigits? (digits.take Oid.width)
      packedLines? lines
    | _ => do
      let oid ← Oid.ofDigits? (line.take Oid.width)
      let name ← Object.after? " " (line.drop Oid.width)
      let name := if name.getLast? = some '\r' then name.dropLast else name
      return (← Octets.text? name, oid) :: (← packedLines? lines)

/-- **The references of a file that packs many**, if it can be read. Lines at its beginning may be
remarks. -/
def packed? (octets : List Char) : Option (List (String × Oid)) :=
  if octets = [] then some []
  else
    let lines := octets.splitOn '\n'
    match lines.getLast? with
    | some [] => packedLines? (lines.dropLast.dropWhile (·.head? = some '#'))
    | some ('^' :: _) => packedLines? (lines.dropWhile (·.head? = some '#'))
    | _ => none

end Reference

end Depot.Git
