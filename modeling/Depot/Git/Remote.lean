import Depot.Git.Repository

/-!
# Remotes

A remote is another repository that objects and references are fetched from. Which references are
fetched, and what they are called here, is said by refspecs such as
`+refs/heads/*:refs/remotes/origin/*`. Only repositories on the same disk can be reached.
-/

namespace Depot.Git

/-! ## Refspecs -/

/-- **Which references to fetch, and what to call them.** A star stands for any text, the same on
both sides. -/
structure Refspec where
  /-- Whether a reference may also be set back. -/
  force : Bool
  /-- What it is called there. -/
  source : String
  /-- What it is called here, if it is kept. -/
  destination : Option String
  deriving DecidableEq, Repr

namespace Refspec

/-- The parts of a text around its star. -/
def aroundStar? (text : String) : Option (List Char × List Char) :=
  match text.toList.splitOn '*' with
  | [before, behind] => some (before, behind)
  | _ => none

/-- The refspec that a text spells. -/
def ofText? (text : String) : Option Refspec :=
  let (force, rest) := match text.toList with
    | '+' :: rest => (true, rest)
    | rest => (false, rest)
  let (source, destination) := rest.span (· != ':')
  let stars := source.count '*'
  match destination with
  | [] =>
    if stars = 0 then some { force, source := String.ofList source, destination := none } else none
  | _ :: destination =>
    if stars ≤ 1 ∧ destination.count '*' = stars ∧ !destination.contains ':' then
      some {
        force
        source := String.ofList source
        destination := some (String.ofList destination) }
    else none

/-- What a star stands for if a name fits a pattern. -/
def fit? (pattern name : String) : Option (List Char) :=
  match aroundStar? pattern with
  | none => if pattern = name then some [] else none
  | some (before, behind) => do
    let rest ← before.isPrefixOf? name.toList
    if behind.isSuffixOf rest then some (rest.take (rest.length - behind.length)) else none

/-- Whether a reference is fetched. -/
def covers (s : Refspec) (name : String) : Bool := (fit? s.source name).isSome

/-- **What a fetched reference is called here**, if it is kept. -/
def image? (s : Refspec) (name : String) : Option String := do
  let star ← fit? s.source name
  let destination ← s.destination
  match aroundStar? destination with
  | none => some destination
  | some (before, behind) => some (String.ofList (before ++ star ++ behind))

/-- The refspec for all branches of a remote. -/
def ofBranches (remote : String) : Refspec where
  force := true
  source := Reference.branches ++ "*"
  destination := some (Reference.remotes ++ remote ++ "/*")

/-- The refspec for all tags. -/
def ofTags : Refspec where
  force := false
  source := Reference.tags ++ "*"
  destination := some (Reference.tags ++ "*")

/-- The refspec for what is checked out, which is not kept. -/
def ofHead : Refspec where
  force := false
  source := Reference.head
  destination := none

/-- How a refspec is written. -/
def text (s : Refspec) : String :=
  (if s.force then "+" else "") ++ s.source ++
    match s.destination with
    | some destination => ":" ++ destination
    | none => ""

end Refspec

/-! ## Remotes -/

/-- **A remote**, as a repository's settings describe it. -/
structure Remote where
  /-- Where it is, in octets; empty if only another place is set for sending. -/
  url : List Char
  /-- What is fetched from it. -/
  refspecs : List Refspec
  deriving DecidableEq, Repr

namespace Remote

/-- The remote that a checkout is fetched from. -/
def origin : String := "origin"

/-- What is called here what the remote calls `name`. -/
def tracking? (m : Remote) (name : String) : Option String :=
  (m.refspecs.find? (·.covers name)).bind (·.image? name)

end Remote

/-- The address that stands for a beginning of addresses, if a setting says so. -/
def Settings.insteadOf? (key : String) : Option (List Char) :=
  match (Reference.below? "url." key).map (·.toList.reverse) with
  | some name => ("insteadof".toList.reverse.isPrefixOf? name).bind fun rest =>
    match rest with
    | '.' :: address => some address.reverse
    | _ => none
  | none => none

/-- **An address as it is used**: the longest beginning that settings replace is replaced. -/
def Settings.replaceBeginning (s : Settings) (url : List Char) : List Char :=
  let fitting := s.filterMap fun (key, value) => do
    let address ← Settings.insteadOf? key
    let rest ← (value.getD []).isPrefixOf? url
    if rest.length < url.length then some (Octets.ofText (String.ofList address) ++ rest, rest)
    else none
  match fitting.foldl (fun best next =>
    match best with
    | some (_, rest) => if next.2.length < rest.length then some next else best
    | none => some next) none with
  | some (replaced, _) => replaced
  | none => url

/-- **The remote of a name**, if settings mention one. -/
def Settings.remote? (s : Settings) (name : String) : Option Remote :=
  let key (item : String) : String := "remote." ++ name ++ "." ++ item
  match s.text? (key "url"), s.text? (key "pushurl") with
  | none, none => none
  | url, _ => do
    let refspecs ← (s.values (key "fetch")).mapM fun value => do
      Refspec.ofText? (← Octets.text? (value.getD []))
    return { url := s.replaceBeginning (url.getD []), refspecs }

/-! ## Reaching a remote -/

namespace Remote

/-- Text in which `%` and two hexadecimal digits stand for an octet. -/
def decodePercent : List Char → List Char
  | '%' :: a :: b :: rest =>
    match hexValue? a, hexValue? b with
    | some x, some y => Char.ofNat (x * 16 + y) :: decodePercent rest
    | _, _ => '%' :: decodePercent (a :: b :: rest)
  | c :: rest => c :: decodePercent rest
  | [] => []

/-- The path in an address of a file on this machine. -/
def filePath? (url : List Char) : Option (List Char) := do
  let rest ← Object.after? "file://" url
  let rest := (Object.after? "localhost" rest).getD rest
  match rest with
  | '/' :: c :: _ => if c = '/' then none else some (decodePercent rest)
  | _ => none

/-- **Where a remote is on this machine**: what the address of a file says, or the address itself
unless it names a host. -/
def path? (url : List Char) : Option Path :=
  match Object.after? "file://" url with
  | some _ => ((filePath? url).bind Octets.text?).map Path.mk
  | none => if url.contains ':' then none else (Octets.text? url).map Path.mk

/-- The repository that an address leads to. -/
def reach? (d : Disk) (cwd : Location) (url : List Char) : Option Repository := do
  let p ← path? url
  if d.isDirectory cwd p then Repository.find? d cwd p else none

/-- What is said where an address leads to no repository: of the path in the address of a file, what
is said of any path. What is said of other addresses is not known. -/
def refusal? (d : Disk) (cwd : Location) (url : List Char) : Option String := do
  let _ ← Object.after? "file://" url
  Repository.refusal? d cwd (← path? url)

end Remote

/-! ## What a remote offers -/

/-- **A reference that a remote offers.** -/
structure Offer where
  /-- Its name. -/
  name : String
  /-- The object it stands for. -/
  oid : Oid
  /-- The reference it stands for, if it is one that stands for another. -/
  via : Option String := none
  deriving DecidableEq, Repr

namespace Repository

/-- What a reference offers. A tag must stand for something. -/
def offer (r : Repository) (d : Disk) (name : String) : Except Trouble Offer := do
  let target ← r.target d name
  let (oid, via) ← match target with
    | .object oid => pure (oid, none)
    | .reference next => do
      let (_, oid) ← r.resolve d next
      pure (oid, some next)
  if Reference.isBelow Reference.tags name then
    let _ ← r.peelTags d (chainLimit d) oid (← r.object d oid)
  return { name, oid, via }

/-- **All that a repository offers**, what is checked out first, if it has a commit. -/
def offers (r : Repository) (d : Disk) : Except Trouble (List Offer) := do
  let names ← r.references d
  let head ← match r.offer d Reference.head with
    | .ok o => pure [o]
    | .error .missing => pure []
    | .error .broken => throw .broken
  return head ++ (← names.mapM (r.offer d))

/-- **All objects that some objects cannot do without**, themselves included. `seen` are those
already found to be there. -/
def closure (r : Repository) (d : Disk) : (bound : Nat) → (seen front : List Oid) →
    Except Trouble (List Oid)
  | 0, _, _ => .error .broken
  | bound + 1, seen, front =>
    match (front.filter (!seen.contains ·)).eraseDups with
    | [] => .ok seen
    | fresh => do
      let objects ← fresh.mapM (r.object d)
      r.closure d bound (seen ++ fresh) (objects.flatMap Object.links)

/-- Copy an object's file from another repository. -/
def copyObject (r source : Repository) (d : Disk) (oid : Oid) : Except Trouble Disk :=
  if r.has d oid then .ok d
  else
    match d.read source.shared (objectPath oid) with
    | .error e => .error (.ofOs e)
    | .ok stored =>
      match d.edit r.shared (.file (objectPath oid) stored) with
      | (.ok (), d) => .ok d
      | (.error _, _) => .error .broken

/-- Copy all objects that some offers need. -/
def copyObjects (r source : Repository) (d : Disk) (offers : List Offer) : Except Trouble Disk := do
  let oids ← source.closure d (chainLimit d + offers.length) [] (offers.map Offer.oid)
  oids.foldlM (r.copyObject source) d

/-! ## Fetching -/

/-- Whether a commit came from another one. -/
def descends (r : Repository) (d : Disk) (oid ancestor : Oid) : Bool :=
  match r.closure d (chainLimit d + 1) [] [oid] with
  | .ok oids => oids.contains ancestor
  | .error _ => true

/-- How a reference is brought up to date. -/
inductive Renewal where
  /-- It may be set to anything. -/
  | free
  /-- It may only move forward. -/
  | forward
  /-- It is only made where it is missing. -/
  | once
  deriving DecidableEq, Repr

/-- **Bring a reference up to date.** -/
def renew (r : Repository) (d : Disk) (how : Renewal) (name : String) (oid : Oid) :
    Except Trouble Disk := do
  let wanted ← match r.resolve d name with
    | .error .missing => pure true
    | .error .broken => throw .broken
    | .ok (_, old) =>
      pure (match how with
        | .free => old ≠ oid
        | .forward => old ≠ oid ∧ r.descends d oid old
        | .once => false)
  if !wanted then return d
  if !r.has d oid then throw .missing
  r.setTarget d name (.object oid)

/-- Bring up to date what an offer is called here. Tags are taken over if what they stand for is
there, without being asked for. -/
def accept (r : Repository) (spec : Refspec) (d : Disk) (o : Offer) : Except Trouble Disk :=
  if !Reference.isName o.name then .ok d
  else if Reference.isBelow Reference.tags o.name then
    if r.has d o.oid then r.renew d .once o.name o.oid else .ok d
  else
    match spec.image? o.name with
    | none => .ok d
    | some name => r.renew d (if spec.force then .free else .forward) name o.oid

/-- **Fetch from another repository**: copy the objects of the references that are asked for, unless
all are there, and bring the references up to date. `also` are further refspecs whose objects are
asked for. -/
def fetchFrom (r source : Repository) (d : Disk) (specs also : List Refspec) :
    Except Trouble (Disk × List Offer) := do
  let offers ← source.offers d
  let specs := if specs.isEmpty then [Refspec.ofHead] else specs
  let wanted := offers.filter fun o => (specs ++ also).any (·.covers o.name)
  let d ← if wanted.all fun o => r.has d o.oid then pure d else r.copyObjects source d offers
  let d ← specs.foldlM (fun d spec => offers.foldlM (r.accept spec) d) d
  return (d, offers)

/-- **Fetch from a remote.** -/
def fetch (r : Repository) (d : Disk) (cwd : Location) (m : Remote) : Except Trouble Disk :=
  match Remote.reach? d cwd m.url with
  | none => .error .missing
  | some source => (r.fetchFrom source d m.refspecs []).map Prod.fst

end Repository

end Depot.Git
