import Depot.Ordered
import Depot.Shell

/-!
# Processes

A command names a program, its arguments, changes to the environment, and the directory to run it
in. Running one means to find the file that the name stands for, to find out what runs that file,
and to run it. What a program leaves behind is its exit code and what it wrote.
-/

namespace Depot

/-! ## Programs -/

namespace World

/-- The interpreter that the first line of a file names, with its argument if there is one. -/
def interpreter? (content : ByteArray) : Option (String × Option String) :=
  match Octets.ofBytes content with
  | '#' :: '!' :: cs =>
    let isBlank := fun c => c == ' ' || c == '\t'
    let line := (cs.takeWhile (· != '\n')).dropWhile isBlank
    let name := line.takeWhile (!isBlank ·)
    let behind := (line.dropWhile (!isBlank ·)).dropWhile isBlank
    let argument := (behind.reverse.dropWhile isBlank).reverse
    if name.isEmpty then none
    else
      some (Octets.lossyText (Octets.toBytes name),
        if argument.isEmpty then none else some (Octets.lossyText (Octets.toBytes argument)))
  | _ => none

/-- How many interpreters may be interpreted themselves. -/
def interpreterLimit : Nat := 5

/-- **What runs a file**, and the arguments it is run with, its own name among them. -/
def image (w : World) : (levels : Nat) → Path → List String → Except OsError (Native × List String)
  | 0, _, _ => .error .linkLoop
  | levels + 1, p, args =>
    match w.disk.resolve w.cwd p with
    | .error e => .error e
    | .ok (l, .file content true) =>
      match w.natives.lookup l with
      | some native => .ok (native, args)
      | none =>
        match interpreter? content with
        | some (name, argument) =>
          image w levels ⟨name⟩ (name :: argument.toList ++ p.text :: args.tail)
        | none => .error .notAProgram
    | .ok _ => .error .permissionDenied

/-- Try the files that a name may stand for, one after another. A file that may not be run is
remembered, one that is not there is passed over. -/
def firstImage (w : World) (args : List String) (refused : Bool) :
    List Path → Except OsError (Native × List String)
  | [] => .error (if refused then .permissionDenied else .notFound)
  | p :: ps =>
    match w.image interpreterLimit p args with
    | .ok found => .ok found
    | .error .permissionDenied => firstImage w args true ps
    | .error .notFound => firstImage w args refused ps
    | .error .notDirectory => firstImage w args refused ps
    | .error e => .error e

/-- **The program that a name stands for**: a name with a slash is a path, any other is looked for
in the search path. -/
def program (w : World) (name : String) (args : List String) :
    Except OsError (Native × List String) :=
  if name.toList.contains '/' then w.image interpreterLimit ⟨name⟩ args
  else if name = "" then .error .notFound
  else if name.utf8ByteSize > Disk.nameLimit then .error .nameTooLong
  else w.firstImage args false (w.searchPath.map fun dir => Path.join ⟨dir⟩ name)

/-- The names in a directory that are listed. -/
def listed (w : World) (dir : Path) : Except OsError (List String) :=
  match w.disk.resolve w.cwd dir with
  | .ok (l, .directory) =>
    .ok (((w.disk.children l).map Prod.fst).filter fun name => name.toList.head? != some '.')
  | .ok _ => .ok [dir.text]
  | .error e => .error e

/-- A message without the number of the error. -/
def plainMessage (e : OsError) : String :=
  (e.message.splitOn " (os error").headD ""

/-- Write files one after another; without any, what there is to read. -/
def concatenated (w : World) (input : ByteArray) : List String → Completed
  | [] => ⟨.code 0, input, .empty⟩
  | files =>
    files.foldl (fun c name =>
      if name = "-" then { c with stdout := c.stdout ++ input }
      else
        match w.disk.read w.cwd ⟨name⟩ with
        | .ok content => { c with stdout := c.stdout ++ content }
        | .error e =>
          { c with
            ending := .code 1
            stderr := c.stderr ++ ("cat: " ++ name ++ ": " ++ plainMessage e ++ "\n").toUTF8 })
      ⟨.code 0, .empty, .empty⟩

/-- The answer that was prepared for the last argument. -/
def answer (answers : List (String × Completed)) (args : List String) : Completed :=
  ((args.getLast?.bind fun dir => answers.lookup dir)).getD
    ⟨.code 0, "\x7b\x7d".toUTF8, .empty⟩

/-- **Run a program that the system runs itself.** -/
def runNative (call : Shell.Caller) (w : World) (args : List String) (input : ByteArray) :
    Native → Completed × World
  | .shell => Shell.invoke call w args input
  | .echo =>
    (⟨.code 0, Octets.toBytes (Shell.echoedPlain (args.tail.map Octets.ofText)), .empty⟩, w)
  | .printf =>
    match args.tail.map Octets.ofText with
    | format :: rest =>
      (⟨.code 0, Octets.toBytes (Shell.formatted (rest.length + 1) format rest), .empty⟩, w)
    | [] => (⟨.code 1, .empty, "printf: missing operand\n".toUTF8⟩, w)
  | .succeed => (⟨.code 0, .empty, .empty⟩, w)
  | .fail => (⟨.code 1, .empty, .empty⟩, w)
  | .listing =>
    match w.listed ⟨args.tail.getLast?.getD "."⟩ with
    | .ok names => (⟨.code 0, (String.join (names.map (· ++ "\n"))).toUTF8, .empty⟩, w)
    | .error e =>
      (⟨.code 2, .empty, ("ls: cannot access '" ++ args.tail.getLast?.getD "." ++ "': " ++
        plainMessage e ++ "\n").toUTF8⟩, w)
  | .whereabouts => (⟨.code 0, (w.cwd.path.text ++ "\n").toUTF8, .empty⟩, w)
  | .concatenate => (w.concatenated input args.tail, w)
  | .prepared answers =>
    (answer answers args.tail, { w with calls := ⟨w.environment, w.cwd, args.tail⟩ :: w.calls })

/-- **Run a program by name**, where at most `levels` programs may run each other. -/
def call (levels : Nat) (w : World) (args : List String) (input : ByteArray) :
    Except OsError Completed × World :=
  match levels with
  | 0 => (.error .permissionDenied, w)
  | levels + 1 =>
    match w.program (args.headD "") args with
    | .error e => (.error e, w)
    | .ok (native, args) =>
      let (completed, w) := runNative (call levels) w args input native
      (.ok completed, w)

/-- How many programs may run each other. -/
def callLimit : Nat := 20

/-- Programs that every system has, by name. -/
def standardPrograms : List (String × Native) :=
  [("sh", .shell), ("echo", .echo), ("printf", .printf), ("true", .succeed), ("false", .fail),
    ("ls", .listing), ("pwd", .whereabouts), ("cat", .concatenate)]

/-- Put a program that the system runs itself at a location. -/
def install (w : World) (place : Location) (native : Native) : World :=
  { w with
    disk := w.disk.put place (.file .empty true)
    natives := (place, native) :: w.natives.filter (·.1 != place) }

/-- The world with the programs that every system has, and the directories for them. -/
def withStandardPrograms (w : World) : World :=
  let disk := ((w.disk.put ["usr"] .directory).put ["usr", "bin"] .directory).put ["bin"]
    (.link "usr/bin")
  standardPrograms.foldl (fun w p => w.install ["usr", "bin", p.1] p.2) { w with disk }

end World

/-! ## Commands -/

/-- **A command to be run.** -/
structure Command where
  /-- The program, by name or path. -/
  program : Path
  /-- The arguments. -/
  args : List String := []
  /-- The environment variables to be set, by name. -/
  environment : List (String × String) := []
  /-- The directory to run it in, if not the current one. -/
  directory : Option Path := none

namespace Command

/-- The command with an environment variable set; the last value counts. -/
def set (c : Command) (name value : String) : Command :=
  { c with
    environment := Ordered.insertWith Prod.fst (fun _ new => new) (name, value) c.environment }

/-- The value that the command sets an environment variable to. -/
def value? (c : Command) (name : String) : Option String := c.environment.lookup name

/-- The program and its arguments, separated by blanks. -/
def display (c : Command) : String := " ".intercalate (c.program.text :: c.args)

/-- Whether any text of the command holds a NUL character. -/
def holdsNul (c : Command) : Bool :=
  (c.program.text :: c.args ++ c.environment.flatMap (fun v => [v.1, v.2]) ++
    c.directory.toList.map Path.text).any fun text => text.toList.contains '\x00'

/-- The world as the program sees it: in its directory and with its variables. -/
def surroundings (c : Command) (w : World) : Except OsError World :=
  let w := c.environment.foldl (fun w v => w.setVariable v.1 v.2) w
  match c.directory with
  | none => .ok w
  | some dir =>
    match w.disk.resolve w.cwd dir with
    | .ok (l, .directory) => .ok { w with cwd := l }
    | .ok _ => .error .notDirectory
    | .error e => .error e

/-- Start the program and wait for it to end. -/
def start (c : Command) (w : World) : Except OsError Completed × World :=
  if c.holdsNul then (.error .nulInCommand, w)
  else
    match c.surroundings w with
    | .error e => (.error e, w)
    | .ok inner =>
      let (result, after) := inner.call World.callLimit (c.program.text :: c.args) .empty
      (result, { w with disk := after.disk, calls := after.calls })

/-- **Run the command.** That a program ends badly is no failure. -/
def run (c : Command) : Attempt World Completed := fun w =>
  match c.start w with
  | (.ok completed, w) => (.ok completed, w)
  | (.error e, w) =>
    (.error (e.fault.within ("failed to spawn `" ++ c.program.text ++ "`")), w)

/-- The wording of an exit code, or of there being none. -/
def codeText : Option Nat → String
  | some n => "Some(" ++ toString n ++ ")"
  | none => "None"

/-- **Run the command and have it end well.** -/
def check (c : Command) : Attempt World Completed := fun w =>
  match c.run w with
  | (.error fault, w) => (.error fault, w)
  | (.ok completed, w) =>
    if completed.ending = .code 0 then (.ok completed, w)
    else
      (.error (.ofMessage ("`" ++ c.display ++ "` failed with exit code " ++
        codeText completed.ending.code? ++ "\n" ++ Octets.lossyText completed.stdout ++
        Octets.lossyText completed.stderr)), w)

end Command

end Depot
