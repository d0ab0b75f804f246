import Depot.Shell.Formats
import Depot.Shell.Syntax
import Depot.World

/-!
# The shell

Scripts are run in a session, which holds the world, the variables and what has been written so far.
Programs that are not part of the shell are run through `call`, so that the shell does not need to
know how. Scripts may run scripts; the number of levels is bounded.
-/

namespace Depot.Shell

/-- Run a program: the name and the arguments, and what it reads as input. -/
abbrev Caller : Type := World → List String → ByteArray → Except OsError Completed × World

/-- **A session of the shell.** -/
structure Session where
  /-- The world, with the directory and the exported variables of the session. -/
  world : World
  /-- What the shell calls itself in messages. -/
  name : String
  /-- The parameters of the script. -/
  parameters : List String := []
  /-- The variables that are not exported. -/
  own : List (String × String) := []
  /-- What can be read as input. -/
  stdin : ByteArray := .empty
  /-- The output so far. -/
  stdout : ByteArray := .empty
  /-- The messages so far. -/
  stderr : ByteArray := .empty
  /-- How the last command ended. -/
  status : Nat := 0
  /-- How the session ended, if it has. -/
  ended : Option Ending := none

/-- Where what is written to a stream goes. -/
inductive Sink where
  | output
  | messages
  | file (place : Location)
  | nowhere

/-- The number by which a script knows its own process. -/
def ownProcess : String := "1000"

namespace Session

/-- Write to a sink. -/
def write (s : Session) (sink : Sink) (bytes : ByteArray) : Session :=
  match sink with
  | .output => { s with stdout := s.stdout ++ bytes }
  | .messages => { s with stderr := s.stderr ++ bytes }
  | .nowhere => s
  | .file place =>
    match s.world.disk.get? place with
    | some (.file content executable) =>
      { s with world.disk := s.world.disk.put place (.file (content ++ bytes) executable) }
    | _ => s

/-- The value of a variable or parameter. -/
def value (s : Session) (name : String) : String :=
  if name = "?" then toString s.status
  else if name = "$" then ownProcess
  else if name = "#" then toString s.parameters.length
  else if name = "@" ∨ name = "*" then " ".intercalate s.parameters
  else if name = "0" then s.name
  else if name = "PWD" then s.world.cwd.path.text
  else
    match name.toNat? with
    | some n => (s.parameters[n - 1]?).getD ""
    | none => ((s.own.lookup name).orElse fun () => s.world.lookupVariable name).getD ""

/-- Set a variable; one that is exported stays exported. -/
def assign (s : Session) (name value : String) : Session :=
  match s.world.lookupVariable name with
  | some _ => { s with world := s.world.setVariable name value }
  | none => { s with own := (name, value) :: s.own.filter (·.1 != name) }

/-- Export a variable. -/
def publish (s : Session) (name value : String) : Session :=
  { s with
    world := s.world.setVariable name value
    own := s.own.filter (·.1 != name) }

/-- The line of a message of the shell. -/
def complaint (s : Session) (line : Nat) (text : String) : ByteArray :=
  (s.name ++ ": " ++ toString line ++ ": " ++ text ++ "\n").toUTF8

end Session

/-! ## Words -/

/-- Run a script for its output. -/
abbrev Substitute : Type := List Char → Session → ByteArray × Session

/-- The parts of a text between blanks, with a gap wherever there are blanks. -/
def splitBlank : List Char → List (Option (List Char))
  | [] => []
  | c :: cs =>
    if c = ' ' ∨ c = '\t' ∨ c = '\n' then none :: splitBlank cs else some [c] :: splitBlank cs

/-- What a piece stands for: characters, and gaps between fields. -/
def atoms (substitute : Substitute) (s : Session) : Piece → List (Option (List Char)) × Session
  | .text chars _ => ([some chars], s)
  | .variable "@" _ true =>
    ((s.parameters.map fun p => some p.toList).intersperse none, s)
  | .variable name fallback quoted =>
    let found := s.value name
    let text := match fallback with
      | some other => if found = "" then other else found
      | none => found
    (if quoted then [some text.toList] else splitBlank text.toList, s)
  | .output script quoted =>
    let (bytes, s) := substitute script s
    let text := ((Octets.lossyText bytes).toList.reverse.dropWhile (· == '\n')).reverse
    (if quoted then [some text] else splitBlank text, s)

/-- The fields between gaps; a field has at least one part. -/
def fieldsOf (current : Option (List Char)) : List (Option (List Char)) → List String
  | [] => (current.map String.ofList).toList
  | none :: rest => (current.map String.ofList).toList ++ fieldsOf none rest
  | some chars :: rest => fieldsOf (some (current.getD [] ++ chars)) rest

/-- What the pieces of a word stand for, one after another. -/
def wordAtoms (substitute : Substitute) (s : Session) :
    Word → List (Option (List Char)) × Session
  | [] => ([], s)
  | p :: ps =>
    let (as, s) := atoms substitute s p
    let (bs, s) := wordAtoms substitute s ps
    (as ++ bs, s)

/-- **The fields that words stand for.** -/
def expand (substitute : Substitute) (s : Session) : List Word → List String × Session
  | [] => ([], s)
  | w :: ws =>
    let (as, s) := wordAtoms substitute s w
    let (rest, s) := expand substitute s ws
    (fieldsOf none as ++ rest, s)

/-- The text that a word stands for where it is not split. -/
def expandText (substitute : Substitute) (s : Session) (w : Word) : String × Session :=
  let (as, s) := wordAtoms substitute s w
  (String.ofList (as.flatMap fun a => a.getD [' ']), s)

/-! ## Commands of the shell itself -/

/-- What a command of the shell does: output, messages, status, and the session afterwards. -/
structure Done where
  session : Session
  stdout : ByteArray := .empty
  stderr : ByteArray := .empty
  status : Nat := 0

/-- The result of a test. -/
def tested (s : Session) : List String → Bool
  | [] => false
  | [x] => x != ""
  | "!" :: rest => !tested s rest
  | ["-n", x] => x != ""
  | ["-z", x] => x == ""
  | ["-e", p] => s.world.disk.exists? s.world.cwd ⟨p⟩
  | ["-f", p] => s.world.disk.isFile s.world.cwd ⟨p⟩
  | ["-d", p] => s.world.disk.isDirectory s.world.cwd ⟨p⟩
  | ["-x", p] => s.world.isProgram ⟨p⟩ || s.world.disk.isDirectory s.world.cwd ⟨p⟩
  | [x, "=", y] => x == y
  | [x, "!=", y] => x != y
  | [x, "-eq", y] => x.toInt? == y.toInt?
  | [x, "-ne", y] => x.toInt? != y.toInt?
  | [x, "-lt", y] => decide (x.toInt?.getD 0 < y.toInt?.getD 0)
  | [x, "-gt", y] => decide (y.toInt?.getD 0 < x.toInt?.getD 0)
  | [x, "-le", y] => decide (x.toInt?.getD 0 ≤ y.toInt?.getD 0)
  | [x, "-ge", y] => decide (y.toInt?.getD 0 ≤ x.toInt?.getD 0)
  | _ => false

/-- The numbers of signals by name. -/
def signalNumbers : List (String × Nat) :=
  [("HUP", 1), ("INT", 2), ("QUIT", 3), ("ABRT", 6), ("KILL", 9), ("USR1", 10), ("SEGV", 11),
    ("USR2", 12), ("PIPE", 13), ("ALRM", 14), ("TERM", 15)]

/-- The signal that a text names, by number or name. -/
def signalOf (text : String) : Option Nat :=
  match text.toNat? with
  | some n => some n
  | none =>
    let name := if text.startsWith "SIG" then (text.drop 3).toString else text
    signalNumbers.lookup name

/-- The signal and the processes that the arguments of `kill` name. -/
def killed : List String → Option (Nat × List String)
  | "-s" :: name :: targets => (signalOf name).map (·, targets)
  | arg :: targets =>
    if arg.startsWith "-" then (signalOf (arg.drop 1).toString).map (·, targets)
    else some (15, arg :: targets)
  | [] => none

/-- The octets of an argument. -/
def argument (text : String) : List Char := Octets.ofText text

/-- Set the variables that arguments name, exported. -/
def exportAll (s : Session) : List String → Session
  | [] => s
  | a :: as =>
    let name := String.ofList (a.toList.takeWhile (· != '='))
    match a.toList.dropWhile (· != '=') with
    | _ :: value => exportAll (s.publish name (String.ofList value)) as
    | [] => exportAll (s.publish name (s.value name)) as

/-- **The commands that are part of the shell.** -/
def builtin? (s : Session) (line : Nat) : List String → Option Done
  | "true" :: _ => some { session := s }
  | ":" :: _ => some { session := s }
  | "false" :: _ => some { session := s, status := 1 }
  | "echo" :: args =>
    some { session := s, stdout := Octets.toBytes (echoed (args.map argument)) }
  | "printf" :: format :: args =>
    some {
      session := s
      stdout := Octets.toBytes
        (formatted (args.length + 1) (argument format) (args.map argument)) }
  | "pwd" :: _ => some { session := s, stdout := (s.world.cwd.path.text ++ "\n").toUTF8 }
  | "cd" :: args =>
    let dir : Path := match args with
      | dir :: _ => ⟨dir⟩
      | [] => s.world.home
    match s.world.disk.resolve s.world.cwd dir with
    | .ok (l, .directory) => some { session := { s with world.cwd := l } }
    | _ =>
      some {
        session := s
        status := 2
        stderr := s.complaint line ("cd: can't cd to " ++ dir.text) }
  | "exit" :: args =>
    let code := ((args.head?.bind String.toNat?).getD s.status) % 256
    some { session := { s with ended := some (.code code) }, status := code }
  | "export" :: args => some { session := exportAll s args }
  | "test" :: args => some { session := s, status := if tested s args then 0 else 1 }
  | "[" :: args => some { session := s, status := if tested s args.dropLast then 0 else 1 }
  | "kill" :: args =>
    match killed args with
    | some (n, targets) =>
      if targets.contains ownProcess then
        some { session := { s with ended := some (.signal n) }, status := 128 + n }
      else some { session := s, status := 1, stderr := s.complaint line "kill: No such process" }
    | none => some { session := s, status := 2, stderr := s.complaint line "kill: Illegal option" }
  | _ => none

/-! ## Running commands -/

/-- The streams of a command: what it reads, and where each of its other streams goes. -/
structure Streams where
  input : ByteArray
  sinks : List (Nat × Sink)

/-- Where a stream goes. -/
def Streams.sink (streams : Streams) (n : Nat) : Sink := (streams.sinks.lookup n).getD .nowhere

/-- Send a stream elsewhere. -/
def Streams.send (streams : Streams) (n : Nat) (sink : Sink) : Streams :=
  { streams with sinks := (n, sink) :: streams.sinks.filter (·.1 != n) }

/-- Open a file to be written. -/
def openSink (s : Session) (target : String) (anew : Bool) : Option (Sink × Session) :=
  if target = "/dev/null" then some (.nowhere, s)
  else
    let disk := s.world.disk
    let content :=
      if anew then ByteArray.empty else (disk.read s.world.cwd ⟨target⟩).toOption.getD .empty
    match disk.write s.world.cwd ⟨target⟩ content with
    | .ok disk =>
      match disk.locate s.world.cwd ⟨target⟩ true with
      | .ok (place, _) => some (.file place, { s with world.disk := disk })
      | .error _ => none
    | .error _ => none

/-- Carry out redirections. A failure is a message. -/
def redirect (substitute : Substitute) (s : Session) (streams : Streams) :
    List Redirection → Except String Streams × Session
  | [] => (.ok streams, s)
  | r :: rs =>
    let (target, s) := expandText substitute s r.target
    match r.direction with
    | .read =>
      if target = "/dev/null" then redirect substitute s { streams with input := .empty } rs
      else
        match s.world.disk.read s.world.cwd ⟨target⟩ with
        | .ok input => redirect substitute s { streams with input } rs
        | .error _ => (.error ("cannot open " ++ target ++ ": No such file"), s)
    | .duplicate =>
      let other := target.toNat?.getD r.stream
      redirect substitute s (streams.send r.stream (streams.sink other)) rs
    | .write =>
      match openSink s target true with
      | some (sink, s) => redirect substitute s (streams.send r.stream sink) rs
      | none => (.error ("cannot create " ++ target ++ ": Directory nonexistent"), s)
    | .append =>
      match openSink s target false with
      | some (sink, s) => redirect substitute s (streams.send r.stream sink) rs
      | none => (.error ("cannot create " ++ target ++ ": Directory nonexistent"), s)

/-- Set the variables of a list of assignments. -/
def assignAll (substitute : Substitute) (exported : Bool) (s : Session) :
    List (String × Word) → Session
  | [] => s
  | (name, w) :: rest =>
    let (text, s) := expandText substitute s w
    let s := if exported then s.publish name text else s.assign name text
    assignAll substitute exported s rest

/-- How the shell sees the ending of a program. -/
def statusOf : Ending → Nat
  | .code n => n
  | .signal n => 128 + n

/-- Run a program that is not part of the shell. -/
def external (call : Caller) (s : Session) (line : Nat) (args : List String) (input : ByteArray) :
    Done :=
  let (result, world) := call s.world args input
  let s := { s with world := { world with cwd := s.world.cwd, environment := s.world.environment } }
  let name := args.head?.getD ""
  match result with
  | .ok c => { session := s, stdout := c.stdout, stderr := c.stderr, status := statusOf c.ending }
  | .error .permissionDenied =>
    { session := s, status := 126, stderr := s.complaint line (name ++ ": Permission denied") }
  | .error _ => { session := s, status := 127, stderr := s.complaint line (name ++ ": not found") }

/-- **Run one simple command.** -/
def runCommand (call : Caller) (substitute : Substitute) (s : Session) (c : Command) : Session :=
  let (args, s) := expand substitute s c.words
  let streams : Streams := ⟨s.stdin, [(1, .output), (2, .messages)]⟩
  match redirect substitute s streams c.redirections with
  | (.error text, s) =>
    { s with stderr := s.stderr ++ s.complaint c.line text, status := 2 }
  | (.ok streams, s) =>
    match args with
    | [] => { assignAll substitute false s c.assignments with status := 0 }
    | _ =>
      let before := s
      let s := assignAll substitute true s c.assignments
      let done := match builtin? s c.line args with
        | some done => done
        | none => external call s c.line args streams.input
      let s := (done.session.write (streams.sink 1) done.stdout).write (streams.sink 2) done.stderr
      let s := { s with status := done.status }
      if c.assignments.isEmpty then s
      else { s with world.environment := before.world.environment, own := before.own }

/-- Run the commands of a pipeline, each with the output of the one before as its input. -/
def runCommands (call : Caller) (substitute : Substitute) (s : Session) : List Command → Session
  | [] => s
  | [c] => runCommand call substitute s c
  | c :: cs =>
    let first := runCommand call substitute { s with stdout := .empty } c
    let next := { s with
      world.disk := first.world.disk
      world.calls := first.world.calls
      stderr := first.stderr
      stdin := first.stdout }
    { runCommands call substitute next cs with stdin := s.stdin }

/-- Run pipelines until the session ends. -/
def runPipelines (call : Caller) (substitute : Substitute) (s : Session) : List Pipeline → Session
  | [] => s
  | p :: ps =>
    if s.ended.isSome then s
    else
      let wanted := match p.condition with
        | .always => true
        | .afterSuccess => s.status == 0
        | .afterFailure => s.status != 0
      if wanted then
        let s := runCommands call substitute s p.commands
        let s := if p.negated then { s with status := if s.status = 0 then 1 else 0 } else s
        runPipelines call substitute s ps
      else runPipelines call substitute s ps

/-- **Run a script in a session**, with at most `levels` levels of scripts inside. -/
def run (call : Caller) : (levels : Nat) → Session → List Char → Session
  | 0, s, _ => s
  | levels + 1, s, text =>
    let substitute : Substitute := fun inner s =>
      let sub := run call levels { s with stdout := .empty, stderr := .empty } inner
      (sub.stdout, { s with
        world.disk := sub.world.disk
        world.calls := sub.world.calls
        stderr := s.stderr ++ sub.stderr
        status := sub.status })
    match script? text with
    | some ps => runPipelines call substitute s ps
    | none =>
      { s with
        stderr := s.stderr ++ s.complaint 1 "Syntax error"
        status := 2
        ended := some (.code 2) }

/-- What a session leaves behind. -/
def Session.completed (s : Session) : Completed :=
  ⟨s.ended.getD (.code s.status), s.stdout, s.stderr⟩

/-- How many levels of scripts may be inside each other. -/
def levelLimit : Nat := 20

/-- **The shell as a program**: the script is given as an argument after `-c`, or as a file. -/
def invoke (call : Caller) (w : World) (args : List String) (input : ByteArray) :
    Completed × World :=
  match args with
  | own :: "-c" :: script :: rest =>
    let s := run call levelLimit
      { world := w, name := rest.head?.getD own, parameters := rest.tail, stdin := input }
      script.toList
    (s.completed, s.world)
  | own :: file :: rest =>
    match w.disk.read w.cwd ⟨file⟩ with
    | .ok content =>
      let s := run call levelLimit { world := w, name := file, parameters := rest, stdin := input }
        (Octets.lossyText content).toList
      (s.completed, s.world)
    | .error _ =>
      (⟨.code 2, .empty, (own ++ ": 0: cannot open " ++ file ++ ": No such file\n").toUTF8⟩, w)
  | own :: [] =>
    let s := run call levelLimit { world := w, name := own } (Octets.lossyText input).toList
    (s.completed, s.world)
  | [] => (⟨.code 0, .empty, .empty⟩, w)

end Depot.Shell
