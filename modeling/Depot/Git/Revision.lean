import Depot.Git.Remote

/-!
# Revisions

A revision is written as the name of an object or a reference, perhaps shortened, followed by any
number of operators: `^2` for the second parent, `~3` for three steps back along first parents,
`^{tree}` for what something stands for, `:path` for an entry of its tree, `@{u}` for the branch
that a branch follows. The reference itself is part of the answer as long as no operator has been
applied to what it stands for.
-/

namespace Depot.Git

/-- **What has been read of a revision.** -/
structure Revision where
  /-- The name before the first operator, in reverse. -/
  name : List Char := []
  /-- The reference that the name means. -/
  reference : Option String := none
  /-- The object it stands for, once it has been looked up. -/
  object : Option (Oid × Object) := none
  /-- Whether operators have been applied. -/
  altered : Bool := false

namespace Revision

variable (r : Repository) (d : Disk)

/-! ## Names -/

/-- The digits at the end of a description such as `v1-2-g01234567`: two dashes before them, the
first before a number, the second before a `g`. -/
def describedDigits? (name : List Char) : Option (List Char) :=
  let (digits, rest) := name.reverse.span fun c => (hexValue? c).isSome
  match rest with
  | 'g' :: '-' :: rest =>
    match rest.span Char.isDigit with
    | (_ :: _, '-' :: _ :: _) => if digits = [] then none else some digits.reverse
    | _ => none
  | _ => none

/-- **The object that a name means**, and the reference if it is one: the full name of an object, a
reference, the beginning of an object's name, or a description that ends in one. -/
def find (name : String) : Except Trouble (Option String × Oid × Object) := do
  let whole := match Oid.ofDigits? name.toList with
    | some oid => (r.object d oid).map fun o => (none, oid, o)
    | none => .error .missing
  match whole with
  | .error .missing =>
    match r.named d name with
    | .ok (reference, oid) => return (some reference, oid, ← r.object d oid)
    | .error .broken => throw .broken
    | .error .missing =>
      match r.abbreviated d name.toList with
      | .ok oid => return (none, oid, ← r.object d oid)
      | .error .broken => throw .broken
      | .error .missing =>
        match describedDigits? name.toList with
        | none => throw .missing
        | some digits => do
          let oid ← r.abbreviated d digits
          return (none, oid, ← r.object d oid)
  | outcome => outcome

/-- The name that has been read. -/
def nameText (v : Revision) : String := String.ofList v.name.reverse

/-- **Look up the name that has been read**, unless that is done. Only before a path may the name be
empty. -/
def load (mayBeEmpty : Bool) (v : Revision) : Except Trouble (Revision × Oid × Object) :=
  match v.object with
  | some (oid, o) => .ok (v, oid, o)
  | none =>
    match v.reference with
    | some reference => do
      let (_, oid) ← r.resolve d reference
      let o ← r.object d oid
      return ({ v with object := some (oid, o) }, oid, o)
    | none =>
      if v.name = [] ∧ !mayBeEmpty then .error .broken
      else do
        let (reference, oid, o) ← find r d v.nameText
        return ({ v with reference, object := some (oid, o) }, oid, o)

/-! ## Operators -/

/-- The number that digits spell, one if there are none, and what follows them. -/
def count (chars : List Char) : Nat × List Char :=
  match chars.span Char.isDigit with
  | ([], rest) => (1, rest)
  | (digits, rest) => ((String.ofList digits).toNat?.getD 0, rest)

/-- Greater numbers are no numbers of steps. -/
def countLimit : Nat := 0x80000000

/-- The steps back that a run of tildes asks for, and what follows it. -/
def tildes (total : Nat) : (bound : Nat) → List Char → Nat × List Char
  | bound + 1, '~' :: rest =>
    let (n, rest) := count rest
    tildes (total + n) bound rest
  | _, rest => (total, rest)

/-- Go back along first parents. -/
def back (c : Repository.Commit) : (steps : Nat) → Except Trouble Repository.Commit
  | 0 => .ok c
  | steps + 1 =>
    match c.parents with
    | [] => .error .missing
    | oid :: _ => do
      match ← r.objectOf d .commit oid with
      | .commit tree parents => back { oid, tree, parents } steps
      | _ => throw .broken

/-- The object of a commit. -/
def objectOf (c : Repository.Commit) : Object := .commit c.tree c.parents

/-- The `n`th parent of a commit, the commit itself for zero. -/
def parent (c : Repository.Commit) : (n : Nat) → Except Trouble (Oid × Object)
  | 0 => .ok (c.oid, objectOf c)
  | n + 1 =>
    match c.parents[n]? with
    | none => .error .missing
    | some oid => (r.objectOf d .commit oid).map fun o => (oid, o)

/-- What is between braces, and what follows them. -/
def braces? : List Char → Option (List Char × List Char)
  | '\x7b' :: rest =>
    match rest.span (· != '\x7d') with
    | (content, _ :: rest) => some (content, rest)
    | (_, []) => none
  | _ => none

/-- What an object stands for: something that is no tag, or an object of a kind. -/
def standsFor (content : List Char) (oid : Oid) (o : Object) : Except Trouble (Oid × Object) :=
  if content = [] then r.peelTags d (Repository.chainLimit d) oid o
  else
    match Kind.ofWord? (String.ofList content) with
    | some kind => r.peel d kind (Repository.chainLimit d) oid o
    | none => .error .broken

/-- The entry of a tree that a path names. A slash at the end may follow the name of a directory. -/
def entryAt (entries : List TreeEntry) : (path : List (List Char)) → Except Trouble (Oid × Object)
  | [] => .error .missing
  | name :: rest =>
    match entries.find? (·.name == String.ofList name) with
    | none => .error .missing
    | some e =>
      if rest = [] then (r.objectOf d e.kind.objectKind e.oid).map fun o => (e.oid, o)
      else if e.kind ≠ .directory then .error .missing
      else do
        match ← r.objectOf d .tree e.oid with
        | .tree entries =>
          if rest = [[]] then return (e.oid, .tree entries) else entryAt entries rest
        | _ => throw .broken

/-- The object at a path of what an object stands for. -/
def atPath (path : List Char) (oid : Oid) (o : Object) : Except Trouble (Oid × Object) := do
  match ← r.peel d .tree (Repository.chainLimit d) oid o with
  | (oid, .tree entries) =>
    if path = [] then return (oid, .tree entries) else entryAt r d entries (Segments.split path)
  | _ => throw .broken

/-- **The reference that a branch follows**, as its settings say. -/
def followed (name : String) : Except Trouble String := do
  let (reference, _) ← r.named d name
  match Reference.below? Reference.branches reference with
  | none => throw .broken
  | some branch =>
    let key (item : String) : String := "branch." ++ branch ++ "." ++ item
    let value? (item : String) : Option String := (r.settings.text? (key item)).bind Octets.text?
    match value? "remote", value? "merge" with
    | some remote, some merge =>
      let found :=
        if remote = "." then some merge else (r.settings.remote? remote).bind (·.tracking? merge)
      match found with
      | some name => do
        let _ ← r.resolve d name
        return name
      | none => throw .missing
    | _, _ => throw .missing

/-- The words for the branch that a branch follows, the short one and the long one. -/
def followedWords : List (List Char) := [['u'], ['u', 'p', 's', 't', 'r', 'e', 'a', 'm']]

/-- Apply `@` and what is between its braces to a name that has not been looked up. -/
def atSign (content : List Char) (v : Revision) : Except Trouble Revision :=
  if v.object.isSome then .error .broken
  else if followedWords.contains content then do
    return { v with reference := some (← followed r d v.nameText) }
  else if content ≠ [] ∧ content.all (· = '0') then do
    let (reference, oid) ← r.named d v.nameText
    return { v with reference := some reference, object := some (oid, ← r.object d oid) }
  else .error .broken

/-! ## Reading -/

/-- Read the rest of a revision. -/
def readFrom : (bound : Nat) → Revision → List Char → Except Trouble Revision
  | 0, _, _ => .error .broken
  | _, v, [] => .ok v
  | bound + 1, v, '^' :: rest => do
    let (v, oid, o) ← v.load r d false
    let ((oid, o), rest) ← match rest with
      | '\x7b' :: _ =>
        match braces? rest with
        | none => throw .broken
        | some (content, rest) => pure (← standsFor r d content oid o, rest)
      | _ => do
        let (n, rest) := count rest
        if n ≥ countLimit then throw .broken
        pure (← parent r d (← r.commitOf d oid o) n, rest)
    readFrom bound { v with object := some (oid, o), altered := true } rest
  | bound + 1, v, '~' :: rest => do
    let (n, rest) := tildes 0 (rest.length + 1) ('~' :: rest)
    if n ≥ countLimit then throw .broken
    let (v, oid, o) ← v.load r d false
    let c ← back r d (← r.commitOf d oid o) n
    readFrom bound { v with object := some (c.oid, objectOf c), altered := true } rest
  | _ + 1, v, ':' :: path => do
    if v.object.isNone ∧ v.reference.isNone ∧ v.name = [] then throw .broken
    let (v, oid, o) ← v.load r d true
    return { v with object := some (← atPath r d path oid o), altered := true }
  | bound + 1, v, '@' :: '\x7b' :: rest => do
    match braces? ('\x7b' :: rest) with
    | none => throw .broken
    | some (content, rest) => readFrom bound (← atSign r d content v) rest
  | bound + 1, v, c :: rest =>
    if v.object.isSome ∨ v.reference.isSome then .error .broken
    else readFrom bound { v with name := c :: v.name } rest

/-- **The object that a revision means**, and the reference if it names one. -/
def lookup (text : String) : Except Trouble (Option String × Oid × Object) := do
  let chars := if text = "@" then Reference.head.toList else text.toList
  let v ← readFrom r d (chars.length + 1) {} chars
  let (v, oid, o) ← v.load r d false
  return (if v.altered then none else v.reference, oid, o)

end Revision

end Depot.Git
