/-!
# Scripts of the shell

A script is a sequence of commands, each run according to how the one before it ended. A command is
a pipeline of simple ones: assignments, words and redirections. Words are kept in pieces, since what
a piece stands for is only known when the command is run, and quoted pieces are never split.
-/

namespace Depot.Shell

/-- **A piece of a word.** -/
inductive Piece where
  /-- Characters that stand for themselves. -/
  | text (chars : List Char) (quoted : Bool)
  /-- The value of a variable or parameter, or `fallback` if it is empty. -/
  | variable (name : String) (fallback : Option String) (quoted : Bool)
  /-- The output of a script. -/
  | output (script : List Char) (quoted : Bool)
  deriving Repr

/-- A word, in pieces. -/
abbrev Word : Type := List Piece

/-- What a redirection does with a stream. -/
inductive Direction where
  /-- It writes a file anew. -/
  | write
  /-- It goes on with a file. -/
  | append
  /-- It reads a file. -/
  | read
  /-- It is another stream. -/
  | duplicate
  deriving DecidableEq, Repr

/-- A redirection of a stream. -/
structure Redirection where
  /-- The number of the stream. -/
  stream : Nat
  /-- What is done with it. -/
  direction : Direction
  /-- The file, or the other stream. -/
  target : Word
  deriving Repr

/-- A simple command. -/
structure Command where
  /-- The line it begins on. -/
  line : Nat
  /-- The variables set before it. -/
  assignments : List (String × Word) := []
  /-- The name of what is run and its arguments. -/
  words : List Word := []
  /-- The redirections. -/
  redirections : List Redirection := []
  deriving Repr

/-- When a command is run. -/
inductive Condition where
  /-- Whatever went before. -/
  | always
  /-- If the command before ended well. -/
  | afterSuccess
  /-- If the command before ended badly. -/
  | afterFailure
  deriving DecidableEq, Repr

/-- Commands of which each reads what the one before it writes. -/
structure Pipeline where
  /-- When it is run. -/
  condition : Condition
  /-- Whether its status is turned around. -/
  negated : Bool
  /-- The commands. -/
  commands : List Command
  deriving Repr

/-! ## Tokens -/

/-- A token, with the line it is on. -/
inductive Token where
  | word (line : Nat) (word : Word)
  | operator (text : String)
  | redirection (stream : Nat) (direction : Direction)
  deriving Repr

/-- Whether a character may begin a name. -/
def isNameStart (c : Char) : Bool := c.isAlpha || c == '_'

/-- Whether a character may go on a name. -/
def isNameChar (c : Char) : Bool := c.isAlphanum || c == '_'

/-- Whether a character ends a word. -/
def endsWord (c : Char) : Bool :=
  [' ', '\t', '\n', ';', '&', '|', '<', '>', '(', ')'].contains c

/-- What is between parentheses, of which `depth` more are open. -/
def parenthesized (depth : Nat) : List Char → Option (List Char × List Char)
  | [] => none
  | c :: cs =>
    if c = ')' then
      match depth with
      | 0 => some ([], cs)
      | depth + 1 => (parenthesized depth cs).map fun (s, rest) => (c :: s, rest)
    else
      (parenthesized (if c = '(' then depth + 1 else depth) cs).map fun (s, rest) => (c :: s, rest)

/-- What a dollar sign begins. -/
def dollar (quoted : Bool) (cs : List Char) : Option (Piece × List Char) :=
  match cs with
  | '(' :: cs => (parenthesized 0 cs).map fun (s, rest) => (.output s quoted, rest)
  | '\x7b' :: cs =>
    let name := String.ofList (cs.takeWhile fun c => isNameChar c || c == '?' || c == '@')
    match cs.drop name.length with
    | '\x7d' :: rest => some (.variable name none quoted, rest)
    | ':' :: '-' :: cs =>
      match cs.dropWhile (· != '\x7d') with
      | _ :: rest =>
        some (.variable name (some (String.ofList (cs.takeWhile (· != '\x7d')))) quoted, rest)
      | [] => none
    | _ => none
  | c :: rest =>
    if isNameStart c then
      some (.variable (String.ofList (cs.takeWhile isNameChar)) none quoted,
        cs.dropWhile isNameChar)
    else if c.isDigit || ['?', '$', '@', '*', '#'].contains c then
      some (.variable c.toString none quoted, rest)
    else some (.text ['$'] quoted, cs)
  | [] => some (.text ['$'] quoted, [])

/-- The pieces between double quotes. -/
def doubleQuoted : (bound : Nat) → List Char → Option (Word × List Char)
  | 0, _ => none
  | bound + 1, cs =>
    match cs with
    | [] => none
    | '"' :: rest => some ([], rest)
    | '\\' :: '\n' :: cs => doubleQuoted bound cs
    | '\\' :: c :: cs =>
      let chars := if ['$', '\x60', '"', '\\'].contains c then [c] else ['\\', c]
      (doubleQuoted bound cs).map fun (ps, rest) => (.text chars true :: ps, rest)
    | '$' :: cs => do
      let (p, cs) ← dollar true cs
      let (ps, rest) ← doubleQuoted bound cs
      return (p :: ps, rest)
    | c :: cs => (doubleQuoted bound cs).map fun (ps, rest) => (.text [c] true :: ps, rest)

/-- **The pieces of a word.** -/
def word : (bound : Nat) → List Char → Option (Word × List Char)
  | 0, _ => none
  | bound + 1, cs =>
    match cs with
    | [] => some ([], [])
    | '\'' :: cs =>
      match cs.dropWhile (· != '\'') with
      | _ :: rest =>
        (word bound rest).map fun (ps, rest) => (.text (cs.takeWhile (· != '\'')) true :: ps, rest)
      | [] => none
    | '"' :: cs => do
      let (qs, cs) ← doubleQuoted (cs.length + 1) cs
      let (ps, rest) ← word bound cs
      return (.text [] true :: qs ++ ps, rest)
    | '\\' :: '\n' :: cs => word bound cs
    | '\\' :: c :: cs => (word bound cs).map fun (ps, rest) => (.text [c] true :: ps, rest)
    | '$' :: cs => do
      let (p, cs) ← dollar false cs
      let (ps, rest) ← word bound cs
      return (p :: ps, rest)
    | c :: cs =>
      if endsWord c then some ([], c :: cs)
      else (word bound cs).map fun (ps, rest) => (.text [c] false :: ps, rest)

/-- The redirection that a text begins with. -/
def redirection : List Char → Option (Direction × Nat × List Char)
  | '>' :: '>' :: cs => some (.append, 1, cs)
  | '>' :: '&' :: cs => some (.duplicate, 1, cs)
  | '>' :: cs => some (.write, 1, cs)
  | '<' :: '&' :: cs => some (.duplicate, 0, cs)
  | '<' :: cs => some (.read, 0, cs)
  | _ => none

/-- **The tokens of a script.** -/
def tokens : (bound line : Nat) → List Char → Option (List Token)
  | 0, _, _ => none
  | bound + 1, line, cs =>
    match cs with
    | [] => some []
    | ' ' :: cs => tokens bound line cs
    | '\t' :: cs => tokens bound line cs
    | '\\' :: '\n' :: cs => tokens bound (line + 1) cs
    | '\n' :: cs => (tokens bound (line + 1) cs).map (.operator "\n" :: ·)
    | '#' :: cs => tokens bound line (cs.dropWhile (· != '\n'))
    | ';' :: cs => (tokens bound line cs).map (.operator ";" :: ·)
    | '&' :: '&' :: cs => (tokens bound line cs).map (.operator "&&" :: ·)
    | '|' :: '|' :: cs => (tokens bound line cs).map (.operator "||" :: ·)
    | '|' :: cs => (tokens bound line cs).map (.operator "|" :: ·)
    | cs =>
      let digits := cs.takeWhile Char.isDigit
      match redirection (cs.drop digits.length) with
      | some (direction, stream, rest) =>
        let stream :=
          if digits = [] then stream else digits.foldl (fun n c => n * 10 + (c.toNat - 48)) 0
        (tokens bound line rest).map (.redirection stream direction :: ·)
      | none => do
        let (w, rest) ← word (cs.length + 1) cs
        if w.isEmpty then none
        let ts ← tokens bound (line + (cs.take (cs.length - rest.length)).count '\n') rest
        return .word line w :: ts

/-! ## Commands -/

/-- The assignment that a word is: an unquoted name, an equals sign, and a value. -/
def assignment? (w : Word) : Option (String × Word) :=
  let name := w.takeWhile fun
    | .text [c] false => isNameChar c
    | _ => false
  match w.drop name.length with
  | .text ['='] false :: value =>
    let chars := name.flatMap fun
      | .text cs _ => cs
      | _ => []
    match chars with
    | c :: _ => if isNameStart c then some (String.ofList chars, value) else none
    | [] => none
  | _ => none

/-- The tokens of one simple command. -/
def command (line : Nat) : List Token → Option (Command × List Token)
  | [] => some ({ line }, [])
  | .operator op :: ts => some ({ line }, .operator op :: ts)
  | .redirection stream direction :: .word _ target :: ts =>
    (command line ts).map fun (c, rest) =>
      ({ c with redirections := ⟨stream, direction, target⟩ :: c.redirections }, rest)
  | .redirection .. :: _ => none
  | .word _ w :: ts =>
    (command line ts).map fun (c, rest) => ({ c with words := w :: c.words }, rest)

/-- Take the assignments off the front of the words of a command. -/
def Command.withAssignments (c : Command) : Command :=
  let assigned := c.words.takeWhile fun w => (assignment? w).isSome
  { c with
    assignments := assigned.filterMap assignment?
    words := c.words.drop assigned.length }

/-- The line of the next word. -/
def nextLine : List Token → Nat
  | .word line _ :: _ => line
  | _ :: ts => nextLine ts
  | [] => 1

/-- The commands of a pipeline. -/
def commands : (bound : Nat) → List Token → Option (List Command × List Token)
  | 0, _ => none
  | bound + 1, ts => do
    let (c, ts) ← command (nextLine ts) ts
    let c := c.withAssignments
    if c.words.isEmpty ∧ c.assignments.isEmpty ∧ c.redirections.isEmpty then none
    match ts with
    | .operator "|" :: ts =>
      let (cs, rest) ← commands bound ts
      return (c :: cs, rest)
    | _ => return ([c], ts)

/-- The tokens without line ends at the front. -/
def skipLineEnds : List Token → List Token
  | .operator "\n" :: ts => skipLineEnds ts
  | ts => ts

/-- **The pipelines of a script.** -/
def pipelines : (bound : Nat) → (condition : Condition) → List Token → Option (List Pipeline)
  | 0, _, _ => none
  | bound + 1, condition, ts =>
    match skipLineEnds ts with
    | [] => if condition = .always then some [] else none
    | ts => do
      let (negated, ts) := match ts with
        | .word _ [.text ['!'] false] :: ts => (true, ts)
        | ts => (false, ts)
      let (cs, ts) ← commands (ts.length + 1) ts
      let p : Pipeline := ⟨condition, negated, cs⟩
      match ts with
      | [] => return [p]
      | .operator op :: ts =>
        let next : Condition :=
          if op = "&&" then .afterSuccess else if op = "||" then .afterFailure else .always
        let ps ← pipelines bound next ts
        return p :: ps
      | _ => none

/-- **The script that a text is**, if it is one. -/
def script? (text : List Char) : Option (List Pipeline) := do
  let ts ← tokens (text.length + 1) 1 text
  pipelines (ts.length + 1) .always ts

end Depot.Shell
