import Depot.Toml.Number

/-!
# Reading TOML

A document is a sequence of statements, one a line. Every function takes the characters that are
left and yields those left afterwards. Recursive ones have a bound on the number of characters, each
step of which uses at least one up; how deep values may be nested is limited as well.
-/

namespace Depot.Toml

namespace Reader

/-- Arrays and inline tables nested this deep are refused, and so are keys with this many parts. -/
def nestingLimit : Nat := 80

/-- Whether a character is blank within a line. -/
def isBlank (c : Char) : Bool := c == ' ' || c == '\t'

/-- The rest after blanks of the line. -/
def skipBlank (cs : List Char) : List Char := cs.dropWhile isBlank

/-- Whether a character may stand in a comment. -/
def isCommentChar (c : Char) : Bool := c == '\t' || c.toNat ≥ 0x20

/-- The rest after a comment, if there is one. -/
def skipComment : List Char → List Char
  | '#' :: cs => cs.dropWhile isCommentChar
  | cs => cs

/-- The rest after the end of a line, which the end of the document is too. -/
def lineEnd : List Char → Option (List Char)
  | [] => some []
  | '\n' :: cs => some cs
  | '\r' :: '\n' :: cs => some cs
  | _ => none

/-- The rest after blanks, a comment and the end of the line. -/
def restOfLine (cs : List Char) : Option (List Char) := lineEnd (skipComment (skipBlank cs))

/-- The rest after blanks, line ends and comments. -/
def skipLines : (bound : Nat) → List Char → List Char
  | 0, cs => cs
  | bound + 1, cs =>
    match skipBlank cs with
    | '\n' :: cs => skipLines bound cs
    | '\r' :: '\n' :: cs => skipLines bound cs
    | '#' :: cs => skipLines bound (cs.dropWhile isCommentChar)
    | cs => cs

/-! ## Strings -/

/-- Whether a character may stand for itself inside quotes. -/
def isPlain (c : Char) : Bool := c == '\t' || (c.toNat ≥ 0x20 && c.toNat != 0x7F)

/-- The character of `n` hexadecimal digits. -/
def codePoint (n : Nat) (cs : List Char) : Option (Char × List Char) :=
  let ds := cs.take n
  let v := numberOf 16 ds
  if ds.length = n ∧ ds.all (isDigitOf 16) ∧ v.isValidChar then some (Char.ofNat v, cs.drop n)
  else none

/-- What stands for a character after a backslash. -/
def escaped : List Char → Option (Char × List Char)
  | 'b' :: cs => some ('\x08', cs)
  | 't' :: cs => some ('\t', cs)
  | 'n' :: cs => some ('\n', cs)
  | 'f' :: cs => some ('\x0c', cs)
  | 'r' :: cs => some ('\r', cs)
  | '"' :: cs => some ('"', cs)
  | '\\' :: cs => some ('\\', cs)
  | 'u' :: cs => codePoint 4 cs
  | 'U' :: cs => codePoint 8 cs
  | _ => none

/-- The characters of a string on one line, up to its closing quote. -/
def quoted : (bound : Nat) → List Char → Option (List Char × List Char)
  | 0, _ => none
  | _ + 1, '"' :: rest => some ([], rest)
  | bound + 1, '\\' :: cs => do
    let (c, cs) ← escaped cs
    let (s, rest) ← quoted bound cs
    return (c :: s, rest)
  | bound + 1, c :: cs =>
    if isPlain c then (quoted bound cs).map fun (s, rest) => (c :: s, rest) else none
  | _ + 1, [] => none

/-- The characters of a string on one line in which nothing is escaped. -/
def literal : List Char → Option (List Char × List Char)
  | [] => none
  | '\'' :: rest => some ([], rest)
  | c :: cs => if isPlain c then (literal cs).map fun (s, rest) => (c :: s, rest) else none

/-- What a run of quotes means inside a string over several lines: three close it, and up to two
before those belong to it. Yields the quotes that belong to the string, and the rest if it is closed
there. -/
def closing (quote : Char) (cs : List Char) : List Char × Option (List Char) :=
  let n := (cs.takeWhile (· == quote)).length
  if n < 3 then (cs.take n, none) else (cs.take (min (n - 3) 2), some (cs.drop (min n 5)))

/-- The rest after blanks and line ends. -/
def skipBlankLines : (bound : Nat) → List Char → List Char
  | 0, cs => cs
  | bound + 1, cs =>
    match skipBlank cs with
    | '\n' :: cs => skipBlankLines bound cs
    | '\r' :: '\n' :: cs => skipBlankLines bound cs
    | cs => cs

/-- The rest after the end of a line and the blanks and line ends that follow, if nothing else is
left of the line. After a backslash all of that is left out of a string. -/
def continued (cs : List Char) : Option (List Char) :=
  match skipBlank cs with
  | '\n' :: cs => some (skipBlankLines (cs.length + 1) cs)
  | '\r' :: '\n' :: cs => some (skipBlankLines (cs.length + 1) cs)
  | _ => none

/-- The characters of a string over several lines, up to its closing quotes. -/
def longQuoted : (bound : Nat) → List Char → Option (List Char × List Char)
  | 0, _ => none
  | bound + 1, cs =>
    match cs with
    | [] => none
    | '"' :: _ =>
      match closing '"' cs with
      | (qs, some rest) => some (qs, rest)
      | (qs, none) =>
        (longQuoted bound (cs.drop qs.length)).map fun (s, rest) => (qs ++ s, rest)
    | '\\' :: cs =>
      match continued cs with
      | some cs => longQuoted bound cs
      | none =>
        match escaped cs with
        | some (c, cs) => (longQuoted bound cs).map fun (s, rest) => (c :: s, rest)
        | none => none
    | '\n' :: cs => (longQuoted bound cs).map fun (s, rest) => ('\n' :: s, rest)
    | '\r' :: '\n' :: cs => (longQuoted bound cs).map fun (s, rest) => ('\n' :: s, rest)
    | c :: cs =>
      if isPlain c then (longQuoted bound cs).map fun (s, rest) => (c :: s, rest) else none

/-- The characters of a string over several lines in which nothing is escaped. -/
def longLiteral : (bound : Nat) → List Char → Option (List Char × List Char)
  | 0, _ => none
  | bound + 1, cs =>
    match cs with
    | [] => none
    | '\'' :: _ =>
      match closing '\'' cs with
      | (qs, some rest) => some (qs, rest)
      | (qs, none) =>
        (longLiteral bound (cs.drop qs.length)).map fun (s, rest) => (qs ++ s, rest)
    | '\n' :: cs => (longLiteral bound cs).map fun (s, rest) => ('\n' :: s, rest)
    | '\r' :: '\n' :: cs => (longLiteral bound cs).map fun (s, rest) => ('\n' :: s, rest)
    | c :: cs =>
      if isPlain c then (longLiteral bound cs).map fun (s, rest) => (c :: s, rest) else none

/-- A line end directly after the opening quotes does not belong to the string. -/
def skipFirstLineEnd : List Char → List Char
  | '\n' :: cs => cs
  | '\r' :: '\n' :: cs => cs
  | cs => cs

/-- **A string** of any of the four kinds. -/
def string (cs : List Char) : Option (Toml × List Char) :=
  let result := match cs with
    | '"' :: '"' :: '"' :: cs => longQuoted (cs.length + 1) (skipFirstLineEnd cs)
    | '"' :: cs => quoted (cs.length + 1) cs
    | '\'' :: '\'' :: '\'' :: cs => longLiteral (cs.length + 1) (skipFirstLineEnd cs)
    | '\'' :: cs => literal cs
    | _ => none
  result.map fun (s, rest) => (.string (String.ofList s), rest)

/-! ## Keys -/

/-- Whether a character may stand in a key without quotes. -/
def isKeyChar (c : Char) : Bool := c.isAlphanum || c == '-' || c == '_'

/-- One part of a key, with blanks around it. -/
def keyPart (cs : List Char) : Option (String × List Char) :=
  let result := match skipBlank cs with
    | '"' :: cs => quoted (cs.length + 1) cs
    | '\'' :: cs => literal cs
    | cs =>
      match cs.takeWhile isKeyChar with
      | [] => none
      | k => some (k, cs.dropWhile isKeyChar)
  result.map fun (s, rest) => (String.ofList s, skipBlank rest)

/-- The parts of a key. -/
def keyParts : (bound : Nat) → List Char → Option (List String × List Char)
  | 0, _ => none
  | bound + 1, cs => do
    let (k, cs) ← keyPart cs
    match cs with
    | '.' :: cs =>
      let (ks, rest) ← keyParts bound cs
      return (k :: ks, rest)
    | _ => return ([k], cs)

/-- **A key**: what leads to its last part, and that part. -/
def key (cs : List Char) : Option ((List String × String) × List Char) := do
  let (ks, rest) ← keyParts (cs.length + 1) cs
  let last ← ks.getLast?
  if ks.length ≥ nestingLimit then none else return ((ks.dropLast, last), rest)

/-! ## Values -/

/-- A value that holds no others. -/
def scalar (cs : List Char) : Option (Toml × List Char) :=
  match cs with
  | '"' :: _ => string cs
  | '\'' :: _ => string cs
  | 't' :: 'r' :: 'u' :: 'e' :: rest => some (.boolean true, rest)
  | 'f' :: 'a' :: 'l' :: 's' :: 'e' :: rest => some (.boolean false, rest)
  | cs => (moment cs).orElse fun () => (float cs).orElse fun () => integer cs

mutual

/-- **A value**, `depth` levels inside others. -/
def value : (bound depth : Nat) → List Char → Option (Toml × List Char)
  | 0, _, _ => none
  | bound + 1, depth, cs =>
    match cs with
    | '[' :: cs =>
      if depth + 1 ≥ nestingLimit then none
      else (elements bound (depth + 1) cs).map fun (es, rest) => (.array es, rest)
    | '\x7b' :: cs =>
      if depth + 1 ≥ nestingLimit then none
      else
        match skipBlank cs with
        | '\x7d' :: rest => some (.table .closed [], rest)
        | cs => (pairs bound (depth + 1) [] cs).map fun (es, rest) => (.table .closed es, rest)
    | cs => scalar cs

/-- The elements of an array, which may end in a comma, and the bracket that closes it. -/
def elements : (bound depth : Nat) → List Char → Option (List Toml × List Char)
  | 0, _, _ => none
  | bound + 1, depth, cs =>
    match skipLines (cs.length + 1) cs with
    | ']' :: rest => some ([], rest)
    | cs =>
      match value bound depth cs with
      | none => none
      | some (e, cs) =>
        match skipLines (cs.length + 1) cs with
        | ',' :: cs => (elements bound depth cs).map fun (es, rest) => (e :: es, rest)
        | ']' :: rest => some ([e], rest)
        | _ => none

/-- One pair or more of an inline table, and the brace that closes it. -/
def pairs : (bound depth : Nat) → Entries → List Char → Option (Entries × List Char)
  | 0, _, _, _ => none
  | bound + 1, depth, entries, cs =>
    match key cs with
    | some ((path, k), '=' :: cs) =>
      match value bound depth (skipBlank cs) with
      | none => none
      | some (v, cs) =>
        match insert k v path entries with
        | none => none
        | some entries =>
          match skipBlank cs with
          | ',' :: cs => pairs bound depth entries cs
          | '\x7d' :: rest => some (entries, rest)
          | _ => none
    | _ => none

end

/-! ## Statements -/

/-- One statement and the rest of its line. -/
def statement (cs : List Char) : Option (Statement × List Char) :=
  match cs with
  | '[' :: '[' :: cs =>
    match key cs with
    | some ((path, k), ']' :: ']' :: cs) => (restOfLine cs).map fun rest => (.next path k, rest)
    | _ => none
  | '[' :: cs =>
    match key cs with
    | some ((path, k), ']' :: cs) => (restOfLine cs).map fun rest => (.table path k, rest)
    | _ => none
  | cs =>
    match key cs with
    | some ((path, k), '=' :: cs) =>
      match value (cs.length + 1) 0 (skipBlank cs) with
      | some (v, cs) => (restOfLine cs).map fun rest => (.pair path k v, rest)
      | none => none
    | _ => none

/-- The statements up to the end of the document. -/
def statements : (bound : Nat) → List Char → Option (List Statement)
  | 0, _ => none
  | bound + 1, cs =>
    match skipBlank cs with
    | [] => some []
    | '\n' :: cs => statements bound cs
    | '\r' :: '\n' :: cs => statements bound cs
    | '#' :: cs => (lineEnd (skipComment ('#' :: cs))).bind (statements bound)
    | cs => do
      let (s, cs) ← statement cs
      let ss ← statements bound cs
      return s :: ss

end Reader

/-- The text of a document without the mark that tells the order of bytes. -/
def withoutMark : List Char → List Char
  | '\uFEFF' :: cs => cs
  | cs => cs

/-- **Read a TOML document**: the table that it describes. -/
def read? (text : String) : Option Toml :=
  let cs := withoutMark text.toList
  (Reader.statements (cs.length + 1) cs).bind assemble

end Depot.Toml
