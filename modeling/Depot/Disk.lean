import Depot.OsError
import Depot.Path

/-!
# The disk

A disk is a value: directories, files and symbolic links by location, the list of names that leads
there from the root directory. Paths are looked up as the system does it, one segment after another,
following links on the way, and every refusal is the one the system would give.
-/

namespace Depot

/-- **A place on disk**, as the names that lead there from the root directory. -/
abbrev Location : Type := List String

namespace Location

/-- The absolute path of a location. -/
def path (l : Location) : Path := ⟨"/" ++ "/".intercalate l⟩

end Location

/-- What is at a location. -/
inductive Entry where
  /-- A directory. -/
  | directory
  /-- A file with its content, and whether it may be run. -/
  | file (content : ByteArray) (executable : Bool)
  /-- A symbolic link. -/
  | link (target : String)

/-- Files are compared by their bytes. -/
instance : DecidableEq Entry
  | .directory, .directory => isTrue rfl
  | .file content executable, .file content' executable' =>
    if same : content.data = content'.data ∧ executable = executable' then
      isTrue (congr (congrArg Entry.file (ByteArray.ext same.1)) same.2)
    else
      isFalse fun equal => same (by cases equal; exact ⟨rfl, rfl⟩)
  | .link target, .link target' =>
    if same : target = target' then isTrue (congrArg Entry.link same)
    else isFalse fun equal => same (Entry.link.inj equal)
  | .directory, .file .. | .directory, .link .. | .file .., .directory | .file .., .link ..
  | .link .., .directory | .link .., .file .. => isFalse nofun

/-- **A disk**: what is where. The root directory is always there. -/
structure Disk where
  /-- The entries below the root directory. -/
  entries : List (Location × Entry) := []
  deriving DecidableEq

namespace Disk

/-- The longest name that an entry can have, in bytes. -/
def nameLimit : Nat := 255

/-- Paths of this many bytes or more are refused. -/
def pathLimit : Nat := 4096

/-- How many links the lookup of one path follows at most. -/
def linkLimit : Nat := 40

/-- The entry at a location. -/
def get? (d : Disk) (l : Location) : Option Entry :=
  if l = [] then some .directory else d.entries.lookup l

/-- Put an entry at a location, in place of what is there. -/
def put (d : Disk) (l : Location) (e : Entry) : Disk :=
  ⟨(l, e) :: d.entries.filter (·.1 != l)⟩

/-- Take away a location and everything below it. -/
def erase (d : Disk) (l : Location) : Disk := ⟨d.entries.filter (!l.isPrefixOf ·.1)⟩

/-- What is directly in a directory, by name. -/
def children (d : Disk) (l : Location) : List (String × Entry) :=
  (d.entries.filterMap fun (place, e) =>
    match l.isPrefixOf? place with
    | some [name] => some (name, e)
    | _ => none).mergeSort fun a b => (compare a.1 b.1).isLE

/-- **Look up segments from a directory.** What to do at a link, in the directory that holds it and
with the segments still to be looked up, is said by `onLink`. A link in the last segment is followed
only if `last` says so. The outcome may be a location where nothing is yet, in a directory that is
there. -/
def walkWith (d : Disk) (last : Bool)
    (onLink : Location → List String → Except OsError (Location × Option Entry))
    (here : Location) : List String → Except OsError (Location × Option Entry)
  | [] => .ok (here, d.get? here)
  | segment :: rest =>
    if segment = "" ∨ segment = "." then walkWith d last onLink here rest
    else if segment = ".." then walkWith d last onLink here.dropLast rest
    else if segment.utf8ByteSize > nameLimit then .error .nameTooLong
    else
      let there := here ++ [segment]
      match d.get? there with
      | none => if rest.all (· = "") then .ok (there, none) else .error .notFound
      | some .directory => walkWith d last onLink there rest
      | some (.file content executable) =>
        if rest = [] then .ok (there, some (.file content executable)) else .error .notDirectory
      | some (.link target) =>
        if rest = [] ∧ !last then .ok (there, some (.link target))
        else
          onLink (if (Path.mk target).isAbsolute then [] else here)
            (Segments.ofString target ++ rest)

/-- **Look up segments from a directory**, following at most `links` links. -/
def follow (d : Disk) (last : Bool) : (links : Nat) → Location → List String →
    Except OsError (Location × Option Entry)
  | 0 => d.walkWith last fun _ _ => .error .linkLoop
  | links + 1 => d.walkWith last (d.follow last links)

/-- **Look up a path** from the directory `cwd`. -/
def locate (d : Disk) (cwd : Location) (p : Path) (last : Bool) :
    Except OsError (Location × Option Entry) :=
  if p.text.toList.contains '\x00' then .error .nulInPath
  else if p.text = "" then .error .notFound
  else if p.text.utf8ByteSize ≥ pathLimit then .error .nameTooLong
  else d.follow last linkLimit (if p.isAbsolute then [] else cwd) (Segments.ofString p.text)

/-- What a path leads to, following links: a location and the directory or file there. -/
def resolve (d : Disk) (cwd : Location) (p : Path) : Except OsError (Location × Entry) :=
  match d.locate cwd p true with
  | .error e => .error e
  | .ok (_, none) => .error .notFound
  | .ok (l, some e) => .ok (l, e)

/-- Whether a path leads to anything. -/
def exists? (d : Disk) (cwd : Location) (p : Path) : Bool := (d.resolve cwd p).isOk

/-- Whether a path leads to a directory. -/
def isDirectory (d : Disk) (cwd : Location) (p : Path) : Bool :=
  match d.resolve cwd p with
  | .ok (_, .directory) => true
  | _ => false

/-- Whether a path leads to a file. -/
def isFile (d : Disk) (cwd : Location) (p : Path) : Bool :=
  match d.resolve cwd p with
  | .ok (_, .file ..) => true
  | _ => false

/-- The content of the file that a path leads to. -/
def read (d : Disk) (cwd : Location) (p : Path) : Except OsError ByteArray :=
  match d.resolve cwd p with
  | .ok (_, .file content _) => .ok content
  | .ok _ => .error .isDirectory
  | .error e => .error e

/-- The text of the file that a path leads to. -/
def readText (d : Disk) (cwd : Location) (p : Path) : Except OsError String :=
  match d.read cwd p with
  | .ok content =>
    match String.fromUTF8? content with
    | some text => .ok text
    | none => .error .notUtf8
  | .error e => .error e

end Disk

end Depot
