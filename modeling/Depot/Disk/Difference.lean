import Depot.Disk

/-!
# Differences between disks

What has to be done to make one disk into another: things to take away, and then things to put in
their places, directories before what is in them.
-/

namespace Depot

namespace Entry

/-- Whether two entries are the same. -/
def same : Entry → Entry → Bool
  | .directory, .directory => true
  | .file content executable, .file content' executable' =>
    content == content' && executable == executable'
  | .link target, .link target' => target == target'
  | _, _ => false

end Entry

namespace Disk

/-- The places that have to be emptied to make `before` into `after`: those that hold something else
or nothing afterwards. -/
def vacated (before after : Disk) : List Location :=
  (before.entries.filter fun (l, e) =>
    match e, after.get? l with
    | _, none => true
    | .directory, some .directory => false
    | .directory, some _ => true
    | _, some .directory => true
    | _, some _ => false).map Prod.fst

/-- What has to be put on disk to make `before` into `after`. -/
def filled (before after : Disk) : List (Location × Entry) :=
  (after.entries.filter fun (l, e) =>
    match before.get? l with
    | some old => !e.same old
    | none => true).mergeSort fun a b => a.1.length ≤ b.1.length

end Disk

end Depot
