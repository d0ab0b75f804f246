import Depot.Segments

/-!
# File paths

A path is kept as the text it was built as, because that text is what messages and listings show.
What a path *means* is its list of components: repeated slashes, a slash at the end and a `.` that
is not the first segment of a relative path do not count, while `..` stays. Paths are compared,
ordered and tested for containment by components.

Cutting the last component off cuts the text at the end of the component before it, which is why
`spans` records where in the text every component ends.
-/

namespace Depot

/-- **What a path is made of.** -/
inductive Component where
  /-- The leading slash of an absolute path. -/
  | root
  /-- A `.` that begins a relative path. -/
  | here
  /-- A `..`, wherever it stands. -/
  | up
  /-- Any other segment. -/
  | normal (name : String)
  deriving DecidableEq, Repr

namespace Component

/-- The place of a component's kind in the order of components. -/
def rank : Component → Nat
  | root => 0
  | here => 1
  | up => 2
  | normal _ => 3

/-- The name of a component, empty for all but `normal` ones. -/
def name : Component → String
  | normal name => name
  | _ => ""

/-- Components are ordered by kind, then by name. -/
instance : Ord Component := ⟨compareLex (compareOn rank) (compareOn name)⟩

instance : Std.TransOrd Component :=
  inferInstanceAs (Std.TransCmp (compareLex (compareOn rank) (compareOn name)))

instance : Std.LawfulEqOrd Component where
  eq_of_compare {a b} h := by
    have h' : compareLex (compareOn rank) (compareOn name) a b = .eq := h
    simp only [compareLex, compareOn, Ordering.then_eq_eq] at h'
    have hr : a.rank = b.rank := Std.LawfulEqOrd.eq_of_compare h'.1
    have hn : a.name = b.name := Std.LawfulEqOrd.eq_of_compare h'.2
    cases a <;> cases b <;> simp_all [rank, name]

/-- How a component is written. -/
def text : Component → String
  | root => "/"
  | here => "."
  | up => ".."
  | normal name => name

/-- The component a segment stands for: none when the segment is empty or `.`. -/
def ofSegment (segment : List Char) : Option Component :=
  if segment = [] ∨ segment = ['.'] then none
  else if segment = ['.', '.'] then some up
  else some (normal (String.ofList segment))

end Component

/-- **A file path**, as the text it was built as. -/
structure Path where
  /-- The text of the path. -/
  text : String
  deriving DecidableEq, Repr, Inhabited

namespace Path

/-- The components that segments stand for, each with the length of the text up to its end, when
the first segment begins at `start`. -/
def bodySpans (start : Nat) : List (List Char) → List (Component × Nat)
  | [] => []
  | s :: ss =>
    match Component.ofSegment s with
    | none => bodySpans (start + s.length + 1) ss
    | some c => (c, start + s.length) :: bodySpans (start + s.length + 1) ss

/-- **The components of a text**, each with the length of the text up to its end. -/
def spansOf (chars : List Char) : List (Component × Nat) :=
  match Segments.split chars with
  | [] => []
  | s :: ss =>
    if s = [] ∧ ss ≠ [] then (.root, 1) :: bodySpans 1 ss
    else if s = ['.'] then (.here, 1) :: bodySpans 2 ss
    else bodySpans 0 (s :: ss)

/-- The components of a path, each with the length of the text up to its end. -/
def spans (p : Path) : List (Component × Nat) := spansOf p.text.toList

/-- **What the path means.** -/
def components (p : Path) : List Component := p.spans.map Prod.fst

/-- Two texts for the same path. -/
def same (p q : Path) : Bool := p.components == q.components

/-- Paths are ordered by components. -/
instance : Ord Path := ⟨fun p q => compare p.components q.components⟩

/-- Whether the path begins at the root directory. -/
def isAbsolute (p : Path) : Bool := p.text.toList.head? == some '/'

/-- The path `q` as seen from `p`. An absolute `q` replaces `p`; otherwise a slash is put between
the two texts unless `p` is empty or ends in one. -/
def join (p : Path) (q : String) : Path :=
  if (Path.mk q).isAbsolute then ⟨q⟩
  else if p.text = "" ∨ p.text.toList.getLast? = some '/' then ⟨p.text ++ q⟩
  else ⟨p.text ++ "/" ++ q⟩

/-- The first `n` characters of the path's text. -/
def cut (p : Path) (n : Nat) : Path := ⟨String.ofList (p.text.toList.take n)⟩

/-- **The path and everything above it**, nearest first. A relative path ends with the empty path,
an absolute one with the root. -/
def ancestors (p : Path) : List Path :=
  let ends := p.spans.dropLast.reverse.map Prod.snd
  let last := match p.spans with
    | [] => []
    | (.root, _) :: _ => []
    | _ :: _ => [0]
  p :: (ends ++ last).map p.cut

/-- The path without its last component, if it has one that can be taken off. -/
def parent? (p : Path) : Option Path := p.ancestors.tail.head?

/-- The name the path ends in, unless it ends in `..` or has no segment. -/
def fileName? (p : Path) : Option String :=
  match p.components.getLast? with
  | some (.normal name) => some name
  | _ => none

/-- Whether `p` is `q` or lies beneath it. -/
def startsWith (p q : Path) : Bool := q.components.isPrefixOf p.components

/-- The components of `p` below `q`, if `p` is `q` or lies beneath it. -/
def below? (p q : Path) : Option (List Component) := q.components.isPrefixOf? p.components

end Path

end Depot
