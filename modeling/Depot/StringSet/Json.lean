import Depot.Json.Reader
import Depot.StringSet

/-!
# Sets of strings in JSON

A set is written as the array of its members in order. Reading takes them in any order, repeated or
not.
-/

namespace Depot.StringSet

/-- The set as an array. -/
def json (s : StringSet) : Json := .ofStrings s.toList

/-- The set of the strings of an array. -/
def ofJson? (j : Json) : Option StringSet := j.texts?.map ofList

end Depot.StringSet
