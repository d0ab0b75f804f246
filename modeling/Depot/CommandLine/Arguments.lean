/-!
# Arguments of the command line

The program is called with the name of a command, with options before and after it, and with what
the command works on. The options of the program itself may stand on either side of the command's
name; one that is given on both sides counts as given to the command. Two dashes end the options.

Reading the arguments has three outcomes: they ask for something to be done, they ask for an
explanation, or they are misused.
-/

namespace Depot.CommandLine

/-! ## Options -/

/-- **The commands.** -/
inductive CommandName where
  /-- Fetch packages. -/
  | get
  /-- Record what a project depends on. -/
  | save
  deriving DecidableEq, Repr

/-- **What an option asks for.** -/
inductive Wish where
  /-- Tell more about what is done. -/
  | verbose
  /-- Use the workspace that the next argument names. -/
  | workspace
  /-- Move checkouts to their pinned revisions. -/
  | update
  /-- Record branches. -/
  | branches
  /-- Follow the imports of tests. -/
  | tests
  /-- Print JSON. -/
  | json
  /-- Explain the arguments. -/
  | help
  /-- Tell the version. -/
  | version
  deriving DecidableEq, Repr

/-- **An option**, as it is written. -/
structure Switch where
  /-- What it asks for. -/
  wish : Wish
  /-- Its name after two dashes. -/
  long : String
  /-- Its letter after one dash, if it has one. -/
  short : Option Char := none

/-- The options that may stand anywhere. -/
def everywhere : List Switch :=
  [⟨.verbose, "verbose", some 'v'⟩, ⟨.workspace, "workspace", none⟩, ⟨.help, "help", some 'h'⟩]

/-- The options that may stand before the command, or after it. -/
def switches : Option CommandName → List Switch
  | none => ⟨.version, "version", some 'V'⟩ :: everywhere
  | some .get => ⟨.update, "update", some 'u'⟩ :: everywhere
  | some .save =>
    ⟨.branches, "branches", none⟩ :: ⟨.tests, "tests", none⟩ :: ⟨.json, "json", none⟩ :: everywhere

/-! ## Reading -/

/-- Why nothing is done. -/
inductive Stop where
  /-- An explanation was asked for. -/
  | explained
  /-- The arguments are misused. -/
  | misused
  deriving DecidableEq, Repr

/-- **What has been given**, before the command or after it. -/
structure Given where
  /-- The options without a value. -/
  wishes : List Wish := []
  /-- The workspace. -/
  workspace : Option String := none
  /-- What the command works on, in reverse. -/
  operands : List String := []
  deriving DecidableEq, Repr

namespace Given

/-- Note an option without a value, which may be given once. -/
def note (g : Given) (wish : Wish) : Except Stop Given :=
  match wish with
  | .help => .error .explained
  | .version => .error .explained
  | .workspace => .error .misused
  | wish =>
    if g.wishes.contains wish then .error .misused
    else .ok { g with wishes := wish :: g.wishes }

/-- Note the workspace, which may be given once and not be empty. -/
def noteWorkspace (g : Given) (value : String) : Except Stop Given :=
  if value = "" ∨ g.workspace.isSome then .error .misused
  else .ok { g with workspace := some value }

/-- Note options that are given as letters. -/
def noteLetters (place : Option CommandName) (g : Given) : List Char → Except Stop Given
  | [] => .ok g
  | c :: rest =>
    match (switches place).find? (·.short == some c) with
    | some s => (g.note s.wish).bind fun g => noteLetters place g rest
    | none => .error .misused

/-- Note what a command works on. -/
def noteOperand (place : Option CommandName) (g : Given) (argument : String) : Except Stop Given :=
  match place with
  | some .get => .ok { g with operands := argument :: g.operands }
  | _ => .error .misused

end Given

/-- **How an argument is written.** -/
inductive Form where
  /-- The two dashes that end the options. -/
  | divider
  /-- A name after two dashes, perhaps with a value after an equals sign. -/
  | long (name : String) (value : Option String)
  /-- Letters after one dash. -/
  | letters (letters : List Char)
  /-- Anything else. -/
  | word
  deriving DecidableEq, Repr

/-- How an argument is written. A dash alone is a word. -/
def Form.of (argument : String) : Form :=
  match argument.toList with
  | ['-', '-'] => divider
  | '-' :: '-' :: body =>
    match body.span (· != '=') with
    | (name, _ :: value) => long (String.ofList name) (some (String.ofList value))
    | (name, []) => long (String.ofList name) none
  | '-' :: c :: rest => letters (c :: rest)
  | _ => word

/-- The command of a name. -/
def commandOf? (name : String) : Option CommandName :=
  if name = "get" then some .get else if name = "save" then some .save else none

/-- What asking for help with some commands leads to. -/
def helpWith : List String → Stop
  | [] => .explained
  | [name] => if name = "help" ∨ (commandOf? name).isSome then .explained else .misused
  | _ => .misused

/-- **Read arguments** before the command or after it. `ended` tells that there are no more options.
Yields what was given and, before the command, the command with the arguments that follow it. -/
def readFrom (place : Option CommandName) (g : Given) (ended : Bool) :
    List String → Except Stop (Given × Option (CommandName × List String))
  | [] => .ok (g, none)
  | argument :: rest =>
    if ended then (g.noteOperand place argument).bind fun g => readFrom place g true rest
    else
      match Form.of argument with
      | .divider => readFrom place g true rest
      | .letters letters => (g.noteLetters place letters).bind fun g => readFrom place g false rest
      | .long name value =>
        match ((switches place).find? (·.long == name)).map Switch.wish, value with
        | none, _ => .error .misused
        | some .workspace, some value =>
          (g.noteWorkspace value).bind fun g => readFrom place g false rest
        | some .workspace, none =>
          match rest with
          | [] => .error .misused
          | value :: rest =>
            if Form.of value = .word then
              (g.noteWorkspace value).bind fun g => readFrom place g false rest
            else .error .misused
        | some wish, none => (g.note wish).bind fun g => readFrom place g false rest
        | some _, some _ => .error .misused
      | .word =>
        match place with
        | some _ => (g.noteOperand place argument).bind fun g => readFrom place g false rest
        | none =>
          if argument = "help" then .error (helpWith rest)
          else
            match commandOf? argument with
            | some command => .ok (g, some (command, rest))
            | none => .error .misused

/-- **What the program is asked to do.** -/
structure Request where
  /-- The command. -/
  command : CommandName
  /-- The options without a value. -/
  wishes : List Wish
  /-- The workspace, if it is given. -/
  workspace : Option String
  /-- The import paths that are given. -/
  importPaths : List String
  deriving DecidableEq, Repr

/-- The workspace that counts in one place: an environment variable stands in where none is given,
but must not be empty. -/
def orUsual (given usual : Option String) : Except Stop (Option String) :=
  match given, usual with
  | some dir, _ => .ok (some dir)
  | none, some "" => .error .misused
  | none, usual => .ok usual

/-- **Read the arguments of the program.** `usual` is the workspace that the environment names. -/
def Request.read (usual : Option String) (arguments : List String) : Except Stop Request := do
  match ← readFrom none {} false arguments with
  | (_, none) => throw .misused
  | (outer, some (command, rest)) =>
    let (inner, _) ← readFrom (some command) {} false rest
    let _ ← orUsual inner.workspace usual
    let _ ← orUsual outer.workspace usual
    return {
      command
      wishes := inner.wishes ++ outer.wishes
      workspace := (inner.workspace.orElse fun _ => outer.workspace).orElse fun _ => usual
      importPaths := inner.operands.reverse }

end Depot.CommandLine
