import Depot.Octets

/-!
# Settings of a repository

Settings are kept in a text file. A line in square brackets names a section, perhaps with a part of
its own in quotes; other lines give values to names of the section. Sections and names do not
distinguish upper and lower case, what is in quotes does. A setting may be given several times: the
last value counts, or all of them where the setting is a list.
-/

namespace Depot.Git

/-- **What a settings file says**: keys such as `remote.origin.url` and their values, in order. A
key without a value is one that was only mentioned. -/
abbrev Settings : Type := List (String × Option (List Char))

namespace Settings

/-! ## Reading -/

/-- Blanks as the format knows them. -/
def isBlank (c : Char) : Bool := c = ' ' || ('\t' ≤ c && c ≤ '\r')

/-- The characters of a name. -/
def isNameChar (c : Char) : Bool := c.isAlphanum || c = '-'

/-- What a character after a backslash stands for in a value. -/
def escaped? : Char → Option Char
  | 'n' => some '\n'
  | 't' => some '\t'
  | 'b' => some '\x08'
  | '"' => some '"'
  | '\\' => some '\\'
  | _ => none

/-- **Read a value** up to the end of its line. Blanks are held back until something follows them,
`out` is what has been read, and both are in reverse. A backslash at the end of a line continues
it. -/
def value? (quoted : Bool) (held out : List Char) : List Char → Option (List Char × List Char)
  | [] => some (out.reverse, [])
  | '\n' :: rest => some (out.reverse, rest)
  | '\\' :: '\n' :: rest => value? quoted held out rest
  | '\\' :: c :: rest =>
    match escaped? c with
    | some e => value? quoted [] (e :: (held ++ out)) rest
    | none => none
  | '"' :: rest => value? (!quoted) [] (held ++ out) rest
  | c :: rest =>
    if quoted then value? quoted [] (c :: (held ++ out)) rest
    else if c = '#' ∨ c = ';' then some (out.reverse, (rest.dropWhile (· != '\n')).drop 1)
    else if isBlank c then value? quoted (c :: held) out rest
    else value? quoted [] (c :: (held ++ out)) rest

/-- Blanks, but not the end of the line. -/
def skipBlanks (octets : List Char) : List Char :=
  octets.dropWhile fun c => isBlank c && c != '\n'

/-- What follows the line that octets begin in. -/
def nextLine (octets : List Char) : List Char := (octets.dropWhile (· != '\n')).drop 1

/-- The text of octets, whatever they are. -/
def textOf (octets : List Char) : String := Octets.lossyText (Octets.toBytes octets)

/-- Read the quoted part of a section's name, after its first quote; `out` is what has been read, in
reverse. -/
def subsection? (out : List Char) : List Char → Option (List Char × List Char)
  | '"' :: ']' :: rest => some (out.reverse, rest)
  | '\\' :: '\n' :: _ => none
  | '\\' :: c :: rest => subsection? (c :: out) rest
  | '"' :: _ => none
  | '\n' :: _ => none
  | c :: rest => subsection? (c :: out) rest
  | [] => none

/-- Read the name of a section, after its bracket. -/
def section? (octets : List Char) : Option (String × List Char) :=
  let (name, rest) := octets.span fun c => isNameChar c || c = '.'
  if name = [] then none
  else
    let name := textOf (name.map Char.toLower)
    match rest with
    | ']' :: rest => some (name, rest)
    | c :: _ =>
      if isBlank c then
        match skipBlanks rest with
        | '"' :: rest =>
          (subsection? [] rest).map fun (part, rest) => (name ++ "." ++ textOf part, rest)
        | _ => none
      else none
    | [] => none

/-- Read a name and its value. -/
def assignment? (octets : List Char) : Option ((String × Option (List Char)) × List Char) :=
  let (name, rest) := octets.span isNameChar
  if name = [] then none
  else
    let name := textOf (name.map Char.toLower)
    match skipBlanks rest with
    | '=' :: rest =>
      (value? false [] [] (skipBlanks rest)).map fun (value, rest) => ((name, some value), rest)
    | [] => some ((name, none), [])
    | c :: rest =>
      if c = '\n' ∨ c = '#' ∨ c = ';' then some ((name, none), nextLine (c :: rest)) else none

/-- Read settings that follow the heading of a section, if there was one. -/
def readFrom (here : Option String) : (bound : Nat) → List Char → Option Settings
  | 0, _ => some []
  | bound + 1, octets =>
    match octets.dropWhile isBlank with
    | [] => some []
    | '[' :: rest => do
      let (name, rest) ← section? rest
      readFrom (some name) bound rest
    | c :: rest =>
      if c = '#' ∨ c = ';' then readFrom here bound (nextLine rest)
      else do
        let ((name, value), rest) ← assignment? (c :: rest)
        let further ← readFrom here bound rest
        match here with
        | some place => return (place ++ "." ++ name, value) :: further
        | none => return further

/-- The mark that a text file may begin with. -/
def byteOrderMark : List Char := ['\xEF', '\xBB', '\xBF']

/-- **Read a settings file.** -/
def read? (octets : List Char) : Option Settings :=
  let octets := (byteOrderMark.isPrefixOf? octets).getD octets
  readFrom none (octets.length + 1) octets

/-! ## Asking -/

/-- All values of a key, in order. -/
def values (s : Settings) (key : String) : List (Option (List Char)) :=
  (s.filter (·.1 == key)).map Prod.snd

/-- The value that counts for a key, if it is mentioned. -/
def last? (s : Settings) (key : String) : Option (Option (List Char)) := (s.values key).getLast?

/-- The value of a key, where one that is only mentioned is empty. -/
def text? (s : Settings) (key : String) : Option (List Char) := (s.last? key).map (·.getD [])

/-- A value that says yes or no; a key that is only mentioned says yes. -/
def isTrue? : Option (List Char) → Option Bool
  | none => some true
  | some value =>
    let word := textOf (value.map Char.toLower)
    if ["true", "yes", "on"].contains word then some true
    else if ["false", "no", "off", ""].contains word then some false
    else word.toInt?.map (· != 0)

/-! ## Writing -/

/-- A value between quotes. -/
def quote (value : List Char) : List Char :=
  '"' :: value.flatMap (fun c =>
    match c with
    | '\n' => ['\\', 'n']
    | '"' => ['\\', '"']
    | '\\' => ['\\', '\\']
    | c => [c]) ++ ['"']

/-- Whether a value has to be written between quotes. -/
def needsQuotes (value : List Char) : Bool :=
  value.any (fun c => c = '"' || c = '\\' || c = '#' || c = ';' || c = '\n') ||
    (value.head?.map isBlank).getD false || (value.getLast?.map isBlank).getD false

/-- **Write one section**, with its quoted part if it has one. -/
def writeSection (name : String) (part : Option String) (values : List (String × List Char)) :
    List Char :=
  let heading := match part with
    | some part => Octets.ofText name ++ ' ' :: quote (Octets.ofText part)
    | none => Octets.ofText name
  '[' :: heading ++ [']', '\n'] ++ values.flatMap fun (name, value) =>
    '\t' :: Octets.ofText name ++ [' ', '=', ' '] ++
      (if needsQuotes value then quote value else value) ++ ['\n']

end Settings

end Depot.Git
