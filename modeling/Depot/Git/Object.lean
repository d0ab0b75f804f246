import Depot.Git.Digest
import Depot.Git.Inflate
import Depot.Octets

/-!
# Objects

A repository keeps four kinds of objects: commits, trees, blobs and tags. The name of an object is
the digest of a heading, which gives its kind and size, and its content. What an object says is read
here from the octets of its content; an object that cannot be read counts as damaged.
-/

namespace Depot.Git

/-! ## Names -/

/-- The value of a hexadecimal digit. -/
def hexValue? (c : Char) : Option Nat :=
  if '0' ≤ c ∧ c ≤ '9' then some (c.toNat - 48)
  else if 'a' ≤ c ∧ c ≤ 'f' then some (c.toNat - 87)
  else if 'A' ≤ c ∧ c ≤ 'F' then some (c.toNat - 55)
  else none

/-- **The name of an object**: hexadecimal digits in lower case. -/
structure Oid where
  /-- The forty digits. -/
  digits : String
  deriving DecidableEq, Repr, Inhabited

namespace Oid

/-- How many digits a name has. -/
def width : Nat := 40

/-- Digits in lower case, if all characters are hexadecimal digits. -/
def lowerDigits? (chars : List Char) : Option (List Char) :=
  chars.mapM fun c => (hexValue? c).map Digest.hexDigit

/-- The name that digits spell. -/
def ofDigits? (chars : List Char) : Option Oid :=
  if chars.length = width then (lowerDigits? chars).map fun ds => ⟨String.ofList ds⟩ else none

/-- The name that octets stand for. -/
def ofOctets (octets : List Char) : Oid :=
  ⟨Digest.hex (octets.map fun c => c.toNat.toUInt8)⟩

/-- The bytes that pairs of digits stand for. -/
def pairs : List Char → List UInt8
  | a :: b :: rest =>
    ((hexValue? a).getD 0 * 16 + (hexValue? b).getD 0).toUInt8 :: pairs rest
  | _ => []

/-- The twenty bytes of a name. -/
def bytes (oid : Oid) : List UInt8 := pairs oid.digits.toList

end Oid

/-! ## What objects say -/

/-- **The kinds of objects.** -/
inductive Kind where
  | commit
  | tree
  | blob
  | tag
  deriving DecidableEq, Repr

namespace Kind

/-- The word for a kind. -/
def word : Kind → String
  | commit => "commit"
  | tree => "tree"
  | blob => "blob"
  | tag => "tag"

/-- All kinds. -/
def all : List Kind := [commit, tree, blob, tag]

/-- The kind that a word stands for. -/
def ofWord? (word : String) : Option Kind := all.find? (·.word == word)

end Kind

/-- **What an entry of a tree is.** -/
inductive EntryKind where
  /-- A directory, given by another tree. -/
  | directory
  /-- A file. -/
  | plain
  /-- A file that may be run. -/
  | executable
  /-- A symbolic link, whose target is the content of a blob. -/
  | link
  /-- A commit of another repository. -/
  | submodule
  deriving DecidableEq, Repr

namespace EntryKind

/-- The kind that a mode stands for. -/
def ofMode (mode : Nat) : EntryKind :=
  if mode / 4096 = 4 then directory
  else if mode.testBit 6 then executable
  else if mode / 4096 = 14 then submodule
  else if mode / 4096 = 10 then link
  else plain

/-- The mode that is written for a kind. -/
def mode : EntryKind → Nat
  | directory => 0o040000
  | plain => 0o100644
  | executable => 0o100755
  | link => 0o120000
  | submodule => 0o160000

/-- The kind of the objects that such entries name. -/
def objectKind : EntryKind → Kind
  | directory => .tree
  | submodule => .commit
  | _ => .blob

end EntryKind

/-- **An entry of a tree.** -/
structure TreeEntry where
  /-- What the entry is. -/
  kind : EntryKind
  /-- Its name. -/
  name : String
  /-- The object that it names. -/
  oid : Oid
  deriving DecidableEq, Repr

/-- **What an object says.** -/
inductive Object where
  /-- A state of the work tree, and the commits it came from. -/
  | commit (tree : Oid) (parents : List Oid)
  /-- A directory. -/
  | tree (entries : List TreeEntry)
  /-- The content of a file. -/
  | blob (content : ByteArray)
  /-- A name with a message for an object of a kind. -/
  | tag (kind : Kind) (target : Oid)

namespace Object

/-- The kind of an object. -/
def kind : Object → Kind
  | commit .. => .commit
  | tree _ => .tree
  | blob _ => .blob
  | tag .. => .tag

/-- The objects that an object cannot do without. -/
def links : Object → List Oid
  | commit state parents => state :: parents
  | tree entries => (entries.filter (·.kind ≠ .submodule)).map TreeEntry.oid
  | blob _ => []
  | tag _ target => [target]

/-! ## Reading -/

/-- What follows a heading. -/
def after? (heading : String) (octets : List Char) : Option (List Char) :=
  heading.toList.isPrefixOf? octets

/-- A line and what follows it. -/
def line? (octets : List Char) : Option (List Char × List Char) :=
  match octets.span (· != '\n') with
  | (line, _ :: rest) => some (line, rest)
  | (_, []) => none

/-- A line that holds a heading and the name of an object, and what follows it. -/
def oidLine? (heading : String) (octets : List Char) : Option (Oid × List Char) := do
  let rest ← after? heading octets
  let oid ← Oid.ofDigits? (rest.take Oid.width)
  match rest.drop Oid.width with
  | '\n' :: rest => some (oid, rest)
  | _ => none

/-- As many such lines as there are. -/
def oidLines (heading : String) : (bound : Nat) → List Char → List Oid × List Char
  | 0, octets => ([], octets)
  | bound + 1, octets =>
    match oidLine? heading octets with
    | none => ([], octets)
    | some (oid, rest) =>
      let (oids, rest) := oidLines heading bound rest
      (oid :: oids, rest)

/-- Blanks as the format knows them. -/
def isBlank (c : Char) : Bool := c = ' ' || ('\t' ≤ c && c ≤ '\r')

/-- Whether octets begin with a whole number. -/
def beginsNumber (octets : List Char) : Bool :=
  let digits := match octets.dropWhile isBlank with
    | '-' :: rest => rest
    | '+' :: rest => rest
    | rest => rest
  (digits.head?.map Char.isDigit).getD false

/-- Whether a line tells who did something: an address in angle brackets, and when, if anything
follows. -/
def isSignature (line : List Char) : Bool :=
  let (stamp, front) := line.reverse.span (· != '>')
  let stamp := stamp.reverse
  front.contains '<' && !stamp.contains '<' && (stamp.length < 2 || beginsNumber (stamp.drop 1))

/-- What follows a line that holds a heading and tells who did something. -/
def signature? (heading : String) (octets : List Char) : Option (List Char) := do
  let (line, rest) ← line? octets
  let body ← after? heading line
  if isSignature body then some rest else none

/-- What follows any number of further lines about authors. -/
def authors? : (bound : Nat) → List Char → Option (List Char)
  | 0, octets => some octets
  | bound + 1, octets =>
    if (after? "author " octets).isSome then (signature? "author " octets).bind (authors? bound)
    else some octets

/-- A commit. -/
def commit? (octets : List Char) : Option Object := do
  let (state, rest) ← oidLine? "tree " octets
  let (parents, rest) := oidLines "parent " rest.length rest
  let rest ← signature? "author " rest
  let rest ← authors? rest.length rest
  let _ ← signature? "committer " rest
  return .commit state parents

/-- The entries of a tree. -/
def entries? : (bound : Nat) → List Char → Option (List TreeEntry)
  | _, [] => some []
  | 0, _ => none
  | bound + 1, octets => do
    let (digits, rest) := octets.span fun c => '0' ≤ c && c ≤ '7'
    if digits = [] then none
    let rest ← after? " " rest
    let (name, rest) := rest.span (· != '\x00')
    if name = [] then none
    let oid := rest.drop 1
    if oid.length < 20 then none
    let entry : TreeEntry :=
      { kind := .ofMode (digits.foldl (fun n c => n * 8 + (c.toNat - 48)) 0)
        name := ← Octets.text? name
        oid := .ofOctets (oid.take 20) }
    return entry :: (← entries? bound (oid.drop 20))

/-- A tag. -/
def tag? (octets : List Char) : Option Object := do
  let (target, rest) ← oidLine? "object " octets
  let (kind, rest) ← line? (← after? "type " rest)
  let kind ← Kind.ofWord? (String.ofList kind)
  let (_, rest) ← line? (← after? "tag " rest)
  let rest ←
    if rest = [] ∨ rest.head? = some '\n' then some rest else signature? "tagger " rest
  let hasMessage := rest.isEmpty || rest.head? == some '\n' ||
    (rest.zip (rest.drop 1)).contains ('\n', '\n')
  if hasMessage then some (.tag kind target) else none

/-- The object of a kind that octets hold. -/
def ofOctets? (kind : Kind) (octets : List Char) : Option Object :=
  match kind with
  | .commit => commit? octets
  | .tree => (entries? octets.length octets).map .tree
  | .blob => some (.blob (Octets.toBytes octets))
  | .tag => tag? octets

/-- **An object as it is stored**: compressed, behind a heading, and named by its digest. -/
def ofStored? (oid : Oid) (stored : ByteArray) : Option Object := do
  let bytes ← Inflate.content? stored
  if Digest.hex (Digest.bytes bytes) ≠ oid.digits then none
  let (heading, rest) := (Octets.ofBytes bytes).span (· != '\x00')
  let content := rest.drop 1
  let (word, size) := heading.span (· != ' ')
  let kind ← Kind.ofWord? (String.ofList word)
  if size ≠ ' ' :: (toString content.length).toList then none
  ofOctets? kind content

end Object

end Depot.Git
