import Depot.ImportPath

/-!
# Pins

A project declares, for a subtree of import paths, which revision to check out and where to fetch
it from. Such a declaration is a pin; the first pin of a list that governs an import path is the
one that counts for it.
-/

namespace Depot

/-- **A declared dependency.** -/
structure Pin where
  /-- The import path whose subtree the pin governs. -/
  root : String
  /-- The revision to check out. -/
  revision : Option String := none
  /-- The remote to fetch from. -/
  source : Option String := none
  deriving DecidableEq, Repr, Inhabited

namespace Pin

/-- Whether the pin governs an import path. -/
def governs (pin : Pin) (path : String) : Bool := ImportPath.contains pin.root path

/-- The first of `pins` that governs an import path. -/
def firstFor (pins : List Pin) (path : String) : Option Pin := pins.find? (·.governs path)

end Pin

end Depot
