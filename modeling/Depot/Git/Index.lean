import Depot.Git.Object

/-!
# The index

The index lists the files that a checkout has put into the work tree. It is a file of fixed-width
fields: a heading with the number of entries, the entries by path, and a digest of all before it.
-/

namespace Depot.Git

/-- **A file of a commit**: where it is below the work tree, what it is and what it holds. -/
structure TrackedFile where
  /-- The names that lead to it. -/
  path : List String
  /-- What it is. -/
  kind : EntryKind
  /-- The object with its content. -/
  oid : Oid
  deriving DecidableEq, Repr

/-- The path as a text. -/
def TrackedFile.pathText (f : TrackedFile) : String := "/".intercalate f.path

namespace Index

/-- The octets that an index begins with. -/
def signature : List Char := "DIRC".toList

/-- How many octets of an entry come before its path: ten numbers, a name and the flags. -/
def fixedLength : Nat := 62

/-- How long an entry is: its path ends in at least one zero, and entries in whole groups of eight.
-/
def entryLength (fixed path : Nat) : Nat := (fixed + path + 8) / 8 * 8

/-- The number that octets stand for, most significant first. -/
def number (octets : List Char) : Nat := octets.foldl (fun n c => n * 256 + c.toNat) 0

/-! ## Writing -/

/-- An entry. What is not known of the file on disk is zero. -/
def entryBytes (f : TrackedFile) : List UInt8 :=
  let path := f.pathText.toUTF8.toList
  let fields := Digest.bigEndian 24 0 ++ Digest.bigEndian 4 f.kind.mode ++ Digest.bigEndian 12 0 ++
    f.oid.bytes ++ Digest.bigEndian 2 (min path.length 0xFFF)
  let used := fields.length + path.length
  fields ++ path ++ List.replicate (entryLength fixedLength path.length - used) 0

/-- **The file of an index** with some entries. -/
def write (files : List TrackedFile) : ByteArray :=
  let ordered := files.mergeSort fun a b => (compare a.pathText b.pathText).isLE
  let body := signature.map (fun c => c.toNat.toUInt8) ++ Digest.bigEndian 4 2 ++
    Digest.bigEndian 4 ordered.length ++ ordered.flatMap entryBytes
  ⟨(body ++ Digest.bytes ⟨body.toArray⟩).toArray⟩

/-! ## Reading -/

/-- The paths of `n` entries. An entry of the later version may have flags in two more octets. -/
def paths? (version : Nat) : (n : Nat) → List Char → Option (List String)
  | 0, _ => some []
  | n + 1, octets => do
    let flags := number ((octets.drop (fixedLength - 2)).take 2)
    let fixed := if version = 3 ∧ flags / 0x4000 % 2 = 1 then fixedLength + 2 else fixedLength
    if octets.length ≤ fixed then none
    let path := (octets.drop fixed).takeWhile (· != '\x00')
    let further ← paths? version n (octets.drop (entryLength fixed path.length))
    return (← Octets.text? path) :: further

/-- **The paths that an index lists**, if it can be read. -/
def read? (octets : List Char) : Option (List String) := do
  let rest ← signature.isPrefixOf? octets
  let version := number (rest.take 4)
  if version ≠ 2 ∧ version ≠ 3 then none
  paths? version (number ((rest.drop 4).take 4)) (rest.drop 8)

end Index

end Depot.Git
