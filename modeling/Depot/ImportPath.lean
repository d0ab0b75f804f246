import Depot.Segments

/-!
# Import paths

An import path names a package by slash-separated segments, such as `example.org/lib/sub`. A path
*contains* another when it is the other or an ancestor of it, segment by segment; this is how pins
find the packages they govern and repositories the packages they hold.
-/

namespace Depot.ImportPath

/-- A text without the slashes at its end. -/
def trimSlashes (chars : List Char) : List Char :=
  (chars.reverse.dropWhile (· == '/')).reverse

/-- **Whether `path` is `root` or lies beneath it.** Slashes at the end of `root` do not count, and
the empty root contains every path. -/
def contains (root path : String) : Bool :=
  let stem := trimSlashes root.toList
  match stem.isPrefixOf? path.toList with
  | some rest => rest.isEmpty || rest.head? == some '/' || stem.isEmpty
  | none => false

/-- Whether a path is written relative to the importing package or to the root directory. -/
def isLocal (path : String) : Bool :=
  let chars := path.toList
  chars == ['.'] || chars == ['.', '.'] ||
    ['.', '/'].isPrefixOf chars || ['.', '.', '/'].isPrefixOf chars || ['/'].isPrefixOf chars

/-- **Whether an import path names a package of another repository**: it is not local, has at least
two segments, and its first segment has a dot, as a host name does. -/
def isRemote (path : String) : Bool :=
  !isLocal path &&
    match Segments.split path.toList with
    | host :: _ :: _ => host.contains '.'
    | _ => false

end Depot.ImportPath
