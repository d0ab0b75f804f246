/-!
# JSON

Values of the JSON format and how they are laid out on lines. The members of an object keep their
order and may repeat a name, since what a repetition means is for the reader of the object to say.
-/

namespace Depot

/-- **A JSON value.** A string, or the name of a member, may be written in a way that is well formed
but stands for no text, with half of a surrogate pair or with octets that are not UTF-8; it is then
`none`. -/
inductive Json where
  | null
  | bool (value : Bool)
  /-- A number as it is written. -/
  | number (text : String)
  | string (text : Option String)
  | array (elements : List Json)
  | object (members : List (Option String × Json))
  deriving Inhabited

namespace Json

/-- A text as a value. -/
def ofString (text : String) : Json := .string (some text)

/-- The texts of a list as an array. -/
def ofStrings (texts : List String) : Json := .array (texts.map ofString)

/-- A record, given by named values. -/
def ofFields (fields : List (String × Json)) : Json :=
  .object (fields.map fun (name, value) => (some name, value))

/-- One of the sixteen digits, in lower case. -/
def hexDigit (n : Nat) : Char := Char.ofNat (if n < 10 then 48 + n else 87 + n)

/-- How a character is written inside a string: quotes, backslashes and control characters are
escaped, all else stands for itself. -/
def escape (c : Char) : List Char :=
  if c = '"' then ['\\', '"']
  else if c = '\\' then ['\\', '\\']
  else if c = '\x08' then ['\\', 'b']
  else if c = '\x0c' then ['\\', 'f']
  else if c = '\n' then ['\\', 'n']
  else if c = '\r' then ['\\', 'r']
  else if c = '\t' then ['\\', 't']
  else if c.toNat < 0x20 then
    ['\\', 'u', '0', '0', hexDigit (c.toNat / 16), hexDigit (c.toNat % 16)]
  else [c]

/-- A text between quotes. -/
def quote (text : String) : String := "\"" ++ String.ofList (text.toList.flatMap escape) ++ "\""

/-- A new line, indented. -/
def newline (indent : Nat) : String := "\n" ++ String.ofList (List.replicate (2 * indent) ' ')

mutual

/-- **The layout of a value**: every element and member on a line of its own, two blanks further in
than what holds it. -/
def render (indent : Nat) : Json → String
  | .null => "null"
  | .bool true => "true"
  | .bool false => "false"
  | .number text => text
  | .string text => quote (text.getD "")
  | .array [] => "[]"
  | .array (e :: es) =>
    "[" ++ newline (indent + 1) ++ render (indent + 1) e ++ renderElements (indent + 1) es ++
      newline indent ++ "]"
  | .object [] => "\x7b\x7d"
  | .object ((name, e) :: es) =>
    "\x7b" ++ newline (indent + 1) ++ quote (name.getD "") ++ ": " ++ render (indent + 1) e ++
      renderMembers (indent + 1) es ++ newline indent ++ "\x7d"

/-- The layout of the elements after the first. -/
def renderElements (indent : Nat) : List Json → String
  | [] => ""
  | e :: es => "," ++ newline indent ++ render indent e ++ renderElements indent es

/-- The layout of the members after the first. -/
def renderMembers (indent : Nat) : List (Option String × Json) → String
  | [] => ""
  | (name, e) :: es =>
    "," ++ newline indent ++ quote (name.getD "") ++ ": " ++ render indent e ++
      renderMembers indent es

end

end Json

end Depot
