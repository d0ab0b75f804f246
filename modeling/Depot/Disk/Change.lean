import Depot.Disk

/-!
# Changing the disk

Making directories, writing files, making links and removing. A change that is refused leaves the
disk as it was, but for directories made on the way.
-/

namespace Depot.Disk

/-- Make one directory. -/
def makeDirectory (d : Disk) (cwd : Location) (p : Path) : Except OsError Disk :=
  match d.locate cwd p false with
  | .error e => .error e
  | .ok (_, some _) => .error .alreadyExists
  | .ok (l, none) => .ok (d.put l .directory)

/-- Make the first directory of a list, whose further elements are the ones above it, nearest
first. Those above are made only if they turn out to be missing. -/
def makeFrom (d : Disk) (cwd : Location) : List Path → Except OsError Unit × Disk
  | [] => (.error .notFound, d)
  | p :: above =>
    if p.text = "" then (.ok (), d)
    else
      match d.makeDirectory cwd p with
      | .ok d => (.ok (), d)
      | .error .notFound =>
        match makeFrom d cwd above with
        | (.error e, d) => (.error e, d)
        | (.ok (), d) =>
          match d.makeDirectory cwd p with
          | .ok d => (.ok (), d)
          | .error e => if d.isDirectory cwd p then (.ok (), d) else (.error e, d)
      | .error e => if d.isDirectory cwd p then (.ok (), d) else (.error e, d)

/-- **Make a directory and those above it** that are missing. One that is there already is fine. -/
def makeDirectories (d : Disk) (cwd : Location) (p : Path) : Except OsError Unit × Disk :=
  d.makeFrom cwd p.ancestors

/-- Have a directory: make it unless there is something at the path. -/
def ensureDirectory (d : Disk) (cwd : Location) (p : Path) : Except Fault Unit × Disk :=
  if d.exists? cwd p then (.ok (), d)
  else
    match d.makeDirectories cwd p with
    | (.ok (), d) => (.ok (), d)
    | (.error e, d) => (.error (e.fault.within ("failed to create directory: " ++ p.text)), d)

/-- Write a file. One that is there is replaced and stays executable if it was. -/
def write (d : Disk) (cwd : Location) (p : Path) (content : ByteArray) : Except OsError Disk :=
  match d.locate cwd p true with
  | .error e => .error e
  | .ok (l, some (.file _ executable)) => .ok (d.put l (.file content executable))
  | .ok (_, some _) => .error .isDirectory
  | .ok (l, none) => .ok (d.put l (.file content false))

/-- Let the file at a path be run. -/
def makeExecutable (d : Disk) (cwd : Location) (p : Path) : Except OsError Disk :=
  match d.resolve cwd p with
  | .error e => .error e
  | .ok (l, .file content _) => .ok (d.put l (.file content true))
  | .ok _ => .ok d

/-- Make a symbolic link. -/
def makeLink (d : Disk) (cwd : Location) (p : Path) (target : String) : Except OsError Disk :=
  match d.locate cwd p false with
  | .error e => .error e
  | .ok (_, some _) => .error .alreadyExists
  | .ok (l, none) => .ok (d.put l (.link target))

/-- Remove what is at a path, a directory with everything in it. -/
def remove (d : Disk) (cwd : Location) (p : Path) : Except OsError Disk :=
  match d.locate cwd p false with
  | .error e => .error e
  | .ok (_, none) => .error .notFound
  | .ok (l, some _) => .ok (d.erase l)

/-- **One change of the disk**, to be made together with the directories it needs. -/
inductive Edit where
  /-- A directory. -/
  | directory (path : Path)
  /-- A file with a content. -/
  | file (path : Path) (content : ByteArray)
  /-- A file that may be run. -/
  | program (path : Path) (content : ByteArray)
  /-- A symbolic link. -/
  | link (path : Path) (target : String)
  /-- Something taken away. -/
  | removal (path : Path)

/-- Make the directory above a path, then change the disk there. -/
def within (d : Disk) (cwd : Location) (p : Path) (change : Disk → Except OsError Disk) :
    Except OsError Unit × Disk :=
  let made := match p.parent? with
    | some above => d.makeDirectories cwd above
    | none => (.ok (), d)
  match made with
  | (.error e, d) => (.error e, d)
  | (.ok (), d) =>
    match change d with
    | .ok d => (.ok (), d)
    | .error e => (.error e, d)

/-- Make one change. -/
def edit (d : Disk) (cwd : Location) : Edit → Except OsError Unit × Disk
  | .directory p => d.makeDirectories cwd p
  | .file p content => d.within cwd p (·.write cwd p content)
  | .program p content =>
    d.within cwd p fun d => (d.write cwd p content).bind (·.makeExecutable cwd p)
  | .link p target => d.within cwd p (·.makeLink cwd p target)
  | .removal p =>
    match d.remove cwd p with
    | .ok d => (.ok (), d)
    | .error e => (.error e, d)

/-- Make several changes, until one is refused. -/
def editAll (d : Disk) (cwd : Location) : List Edit → Except OsError Unit × Disk
  | [] => (.ok (), d)
  | e :: es =>
    match d.edit cwd e with
    | (.ok (), d) => editAll d cwd es
    | refused => refused

/-- Everything below a directory as slash-separated names, directories with a slash at the end.
What is inside a directory named `.git` is left out, links are not followed, and `depth` bounds how
far down the listing goes. -/
def listing (d : Disk) (above : Location) (shown : String) : (depth : Nat) → List String
  | 0 => []
  | depth + 1 =>
    (d.children above).flatMap fun (name, e) =>
      let text := shown ++ "/" ++ name
      match e with
      | .directory =>
        (text ++ "/") ::
          (if name = ".git" then [] else listing d (above ++ [name]) text depth)
      | _ => [text]

/-- The sorted listing of everything below the directory that a path leads to. -/
def tree (d : Disk) (cwd : Location) (p : Path) : List String :=
  match d.resolve cwd p with
  | .ok (l, .directory) =>
    (d.listing l p.text (d.entries.length + 1)).mergeSort fun a b => (compare a b).isLE
  | _ => []

end Depot.Disk
