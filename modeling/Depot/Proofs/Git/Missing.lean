import Depot.Git.WorkCopy
import Depot.Proofs.Path
import Mathlib.Data.List.Basic
import Mathlib.Data.List.TakeDrop
import Mathlib.Data.List.TakeWhile

/-!
# Where a missing package belongs

A package that is missing belongs to a repository with a root and a remote. A pin that declares a
remote declares both; otherwise a well-known host has a repository with the first three segments of
the import path as its root, and the root is its address as well if nothing in it has to be escaped
(`Host.address_of_isPlain`). `Belongs` says this.

The work copy that is found for the package always has that remote, but if there is a pin, it has
the root of the pin. So its root and remote belong together unless a pin declares no remote and has
another root than the repository on the host (`holding_missing`).
-/

namespace Depot

namespace Git

namespace Host

/-! ## Addresses of plain roots -/

/-- A character that stands for itself in an address. -/
def StandsForItself (c : Char) : Prop :=
  ' ' < c ∧ c ≤ '~' ∧ c ∉ ['"', '#', '%', '<', '>', '?', '\\', '\x60', '\x7b', '\x7d']

section Plain

variable {chars place : List Char} {segments : List (List Char)}

theorem escape_pathSpecial (plain : ∀ c ∈ chars, StandsForItself c) :
    escape pathSpecial chars = chars := by
  unfold escape
  rw [List.flatMap_congr (g := fun c => [c]), List.flatMap_singleton']
  intro c hc
  obtain ⟨above, below, other⟩ := plain c hc
  refine if_neg ?_
  rintro (low | high | special)
  · exact Char.lt_asymm low above
  · exact Char.not_lt.2 below high
  · have : c ≠ ' ' := by
      rintro rfl
      exact Char.lt_irrefl _ above
    simp_all [pathSpecial]

theorem plainDots_eq (plain : '%' ∉ chars) : plainDots chars = chars := by
  induction chars with
  | nil => rfl
  | cons c chars ih =>
    obtain ⟨other, plain⟩ := not_or.1 (mt List.mem_cons.2 plain)
    rw [plainDots, ih plain]
    rintro _ _ rfl
    exact absurd rfl other

theorem withoutDots_eq (above : List (List Char)) (hidden : ∀ s ∈ segments, '%' ∉ s)
    (dots : ∀ s ∈ segments, s ≠ ['.'] ∧ s ≠ ['.', '.']) :
    withoutDots above segments = above.reverse ++ segments := by
  induction segments generalizing above with
  | nil => simp [withoutDots]
  | cons s segments ih =>
    rw [List.forall_mem_cons] at hidden dots
    rw [withoutDots, plainDots_eq hidden.1, if_neg dots.1.2, if_neg dots.1.1,
      ih (s :: above) hidden.2 dots.2, List.reverse_cons, List.append_assoc, List.singleton_append]

/-- **The address of a plain place** is the place as it is written. -/
theorem address_of_plain (host : String) (plain : ∀ c ∈ place, StandsForItself c)
    (dots : ∀ s ∈ Segments.split place, s ≠ ['.'] ∧ s ≠ ['.', '.']) :
    address host place = "https://" ++ host ++ "/" ++ String.ofList place := by
  have other {x : Char} (h : ¬ StandsForItself x) : x ∉ place := fun mem => h (plain x mem)
  have trimmed : (place.reverse.dropWhile (· ≤ ' ')).reverse = place := by
    rw [List.dropWhile_eq_self_iff.2, List.reverse_reverse]
    intro some
    have last := (plain _ (List.mem_reverse.1 (List.getElem_mem some))).1
    simpa using Char.not_le.2 last
  have kept : (place.filter fun c => c ≠ '\t' ∧ c ≠ '\n' ∧ c ≠ '\r') = place := by
    refine List.filter_eq_self.2 fun c mem => ?_
    have : c ≠ '\t' ∧ c ≠ '\n' ∧ c ≠ '\r' := by
      refine ⟨?_, ?_, ?_⟩ <;> rintro rfl <;> exact absurd mem (other (by simp [StandsForItself]))
    simpa using this
  have whole {x : Char} (absent : x ∉ place) : place.span (· != x) = (place, []) := by
    have all : ∀ c ∈ place, (c != x) = true := fun c mem => by
      simpa using fun h : c = x => absent (h ▸ mem)
    rw [List.span_eq_takeWhile_dropWhile, List.takeWhile_eq_self_iff.2 all,
      List.dropWhile_eq_nil_iff.2 all]
  have slashed : (place.map fun c => if c = '\\' then '/' else c) = place := by
    refine (List.map_congr_left fun c mem => if_neg ?_).trans (List.map_id' place)
    rintro rfl
    exact absurd mem (other (by simp [StandsForItself]))
  have straight : withoutDots [] (Segments.split place) = Segments.split place := by
    refine withoutDots_eq [] (fun s mem hidden => ?_) dots
    exact other (by simp [StandsForItself]) (Segments.mem_of_mem_split mem hidden)
  have written : (Segments.split place).map (fun s => String.ofList (escape pathSpecial s)) =
      (Segments.split place).map String.ofList :=
    List.map_congr_left fun s mem => congrArg String.ofList
      (escape_pathSpecial fun c hc => plain c (Segments.mem_of_mem_split mem hc))
  unfold address
  simp only [trimmed, kept, whole (other (x := '#') (by simp [StandsForItself])),
    whole (other (x := '?') (by simp [StandsForItself])), slashed, straight, written,
    Segments.intercalate_split, String.append_empty, String.ofList_nil]

end Plain

/-- **A root that stands in its address as it is written.** -/
structure IsPlain (root : String) : Prop where
  /-- Nothing is escaped. -/
  unescaped : ∀ c ∈ root.toList, StandsForItself c
  /-- No segment leads elsewhere. -/
  straight : ∀ s ∈ Segments.split root.toList, s ≠ ['.'] ∧ s ≠ ['.', '.']

/-- **The address of a plain root** is the root. -/
theorem address_of_isPlain {host owner name : String}
    (plain : IsPlain (host ++ "/" ++ owner ++ "/" ++ name)) :
    address host (owner ++ "/" ++ name).toList =
      "https://" ++ (host ++ "/" ++ owner ++ "/" ++ name) := by
  have root : (host ++ "/" ++ owner ++ "/" ++ name).toList =
      host.toList ++ '/' :: (owner ++ "/" ++ name).toList := by
    simp
  have unescaped : ∀ c ∈ (owner ++ "/" ++ name).toList, StandsForItself c := fun c hc =>
    plain.unescaped c (by rw [root]; exact List.mem_append_right _ (List.mem_cons_of_mem _ hc))
  have straight : ∀ s ∈ Segments.split (owner ++ "/" ++ name).toList,
      s ≠ ['.'] ∧ s ≠ ['.', '.'] := fun s hs =>
    plain.straight s (by
      rw [root, Segments.split_append_slash]
      exact List.mem_append_right _ hs)
  rw [address_of_plain host unescaped straight, String.ofList_toList]
  simp only [String.append_assoc]

/-- **What is guessed**: the first three segments, if the first one is a well-known host. -/
theorem guess?_eq_some {importPath : String} {g : Guess} :
    guess? importPath = some g ↔ ∃ host owner name rest,
      Segments.ofString importPath = host :: owner :: name :: rest ∧ host ∈ known ∧
        g = ⟨host ++ "/" ++ owner ++ "/" ++ name, address host (owner ++ "/" ++ name).toList⟩ := by
  unfold guess?
  constructor
  · intro h
    split at h
    · next host owner name rest segments =>
      split at h
      · next listed =>
        exact ⟨host, owner, name, rest, segments, by simpa using listed, by simpa using h.symm⟩
      · cases h
    · cases h
  · rintro ⟨host, owner, name, rest, segments, listed, rfl⟩
    simp [segments, listed]

end Host

namespace WorkCopy

/-- **Where a missing package belongs**, by its import path and the pin that counts for it: the root
of a repository, and the remote to fetch it from. -/
inductive Belongs (importPath : String) : Option Pin → (root remote : String) → Prop
  /-- A pin says where to fetch its root from. -/
  | declared {pin : Pin} {source : String} (told : pin.source = some source) :
      Belongs importPath (some pin) pin.root source
  /-- The first three segments name a repository on a well-known host, and no pin says more. -/
  | hosted {pin : Option Pin} {host owner name : String} {rest : List String}
      (silent : pin.bind Pin.source = none)
      (segments : Segments.ofString importPath = host :: owner :: name :: rest)
      (known : host ∈ Host.known) :
      Belongs importPath pin (host ++ "/" ++ owner ++ "/" ++ name)
        (Host.address host (owner ++ "/" ++ name).toList)

section Missing

variable {w : World} {workspace : Workspace} {importPath : String} {pin : Option Pin}

/-- Where a pin says where to fetch its root from, this is all there is. -/
theorem belongs_declared {own : Pin} {source root remote : String}
    (told : own.source = some source) :
    Belongs importPath (some own) root remote ↔ root = own.root ∧ remote = source := by
  constructor
  · rintro (told' | ⟨silent, -, -⟩)
    · exact ⟨rfl, Option.some.inj (told'.symm.trans told)⟩
    · cases told.symm.trans silent
  · rintro ⟨rfl, rfl⟩
    exact .declared told

theorem belongs_silent (silent : pin.bind Pin.source = none) {root remote : String} :
    Belongs importPath pin root remote ↔ Host.guess? importPath = some ⟨root, remote⟩ := by
  rw [Host.guess?_eq_some]
  constructor
  · rintro (told | ⟨-, segments, known⟩)
    · cases told.symm.trans silent
    · exact ⟨_, _, _, _, segments, known, rfl⟩
  · rintro ⟨host, owner, name, rest, segments, known, same⟩
    cases same
    exact .hosted silent segments known

theorem Belongs.remote_eq {root remote : String} (h : Belongs importPath pin root remote)
    (silent : pin.bind Pin.source = none) (plain : Host.IsPlain root) :
    remote = "https://" ++ root := by
  rcases h with told | ⟨-, -, -⟩
  · cases told.symm.trans silent
  · exact Host.address_of_isPlain plain

variable (missing : w.disk.exists? w.cwd (workspace.packageSource importPath) = false)
include missing

theorem holding_declared {own : Pin} {source : String} (told : own.source = some source) :
    holding workspace importPath (some own) w =
      .ok { root := own.root, path := workspace.packageSource own.root, remote := some source } := by
  simp [holding, missing, told]

/-- Without a remote of a pin, the remote is guessed, and the root if there is no pin. -/
theorem holding_guessed {g : Host.Guess} (silent : pin.bind Pin.source = none)
    (guessed : Host.guess? importPath = some g) :
    holding workspace importPath pin w =
      .ok { root := (pin.map Pin.root).getD g.root
            path := workspace.packageSource ((pin.map Pin.root).getD g.root)
            remote := some g.remote } := by
  cases pin with
  | none => simp [holding, missing, guessed]
  | some own =>
    rw [Option.bind_some] at silent
    simp [holding, missing, guessed, silent]

/-- If nothing can be guessed either, there is no work copy. -/
theorem holding_unknown (silent : pin.bind Pin.source = none)
    (unknown : Host.guess? importPath = none) :
    holding workspace importPath pin w = .error (.ofMessage (
      if pin.isSome then "no remote source known for " ++ importPath
      else "cant determine repository for " ++ importPath ++ ", declare a source for it")) := by
  cases pin with
  | none => simp [holding, missing, unknown]
  | some own =>
    rw [Option.bind_some] at silent
    simp [holding, missing, unknown, silent]

/-- **The work copy of a missing package.** Where the package belongs to a root and a remote,

* the work copy has both, in the place of the root, as long as a pin that declares no remote has
  this root;
* otherwise it has the remote, but the root of the pin and its place.

Where the package belongs to nothing, there is no work copy. And where no pin declares the remote,
it is the root as an address, if nothing in the root has to be escaped. -/
theorem holding_missing :
    (∀ root remote, Belongs importPath pin root remote →
      ((∀ own ∈ pin, own.source = none → own.root = root) →
        holding workspace importPath pin w =
          .ok { root, path := workspace.packageSource root, remote := some remote }) ∧
      ∀ own ∈ pin, own.source = none → own.root ≠ root →
        holding workspace importPath pin w =
          .ok { root := own.root, path := workspace.packageSource own.root
                remote := some remote }) ∧
      ((∀ root remote, ¬ Belongs importPath pin root remote) →
        holding workspace importPath pin w = .error (.ofMessage (
          if pin.isSome then "no remote source known for " ++ importPath
          else "cant determine repository for " ++ importPath ++ ", declare a source for it"))) ∧
      ∀ root remote, Belongs importPath pin root remote → pin.bind Pin.source = none →
        Host.IsPlain root → remote = "https://" ++ root := by
  refine and_assoc.1 ⟨?_, fun _ _ belongs => belongs.remote_eq⟩
  rcases declared : pin.bind Pin.source with _ | source
  · refine ⟨fun root remote belongs => ?_, fun nowhere => ?_⟩
    · have guessed := (belongs_silent declared).1 belongs
      have held : holding workspace importPath pin w = _ :=
        holding_guessed missing declared guessed
      refine ⟨fun same => ?_, fun own mem _ _ => ?_⟩
      · have root_eq : (pin.map Pin.root).getD root = root := by
          cases pin with
          | none => rfl
          | some own => exact same own rfl declared
        rw [held, root_eq]
      · obtain rfl := Option.mem_def.1 mem
        exact held
    · have unknown : Host.guess? importPath = none :=
        Option.eq_none_iff_forall_ne_some.2 fun g guessed =>
          nowhere g.root g.remote ((belongs_silent declared).2 guessed)
      exact holding_unknown missing declared unknown
  · obtain ⟨own, rfl, told⟩ := Option.bind_eq_some_iff.1 declared
    refine ⟨fun root remote belongs => ?_, fun nowhere => absurd (.declared told) (nowhere _ _)⟩
    obtain ⟨rfl, rfl⟩ := (belongs_declared told).1 belongs
    refine ⟨fun _ => holding_declared missing told, fun own' mem silent _ => ?_⟩
    obtain rfl := Option.some.inj mem
    cases told.symm.trans silent

end Missing

/-- A workspace without packages. -/
def bareWorld : World where
  disk := ⟨[(["w"], .directory), (["w", "src"], .directory)]⟩

/-- A package of a repository on a well-known host belongs to it. -/
theorem belongs_bar (revision : String) (root : String) :
    Belongs "github.com/foo/bar/sub" (some { root, revision := some revision }) "github.com/foo/bar"
      "https://github.com/foo/bar" := by
  rw [belongs_silent rfl]
  decide +kernel

/-- The pin has the root of the repository on the host, so the remote is for that root. -/
theorem holding_missing_bar :
    let workspace : Workspace := ⟨⟨"/w"⟩⟩
    let pin : Pin := { root := "github.com/foo/bar", revision := some "v1" }
    bareWorld.disk.exists? bareWorld.cwd (workspace.packageSource "github.com/foo/bar/sub") =
        false ∧
      holding workspace "github.com/foo/bar/sub" (some pin) bareWorld =
        .ok { root := "github.com/foo/bar", path := ⟨"/w/src/github.com/foo/bar"⟩
              remote := some "https://github.com/foo/bar" } := by
  intro workspace pin
  have missing : bareWorld.disk.exists? bareWorld.cwd
      (workspace.packageSource "github.com/foo/bar/sub") = false := by
    decide +kernel
  have held := ((holding_missing missing).1 _ _ (belongs_bar "v1" pin.root)).1 fun own mem _ => by
    cases mem
    rfl
  have place : workspace.packageSource "github.com/foo/bar" = ⟨"/w/src/github.com/foo/bar"⟩ := by
    decide +kernel
  rw [place] at held
  exact ⟨missing, held⟩

/-- **A remote may be for another root.** The pin governs all repositories of an owner and only
declares a revision, so the remote of one of them is to be cloned into the directory of the owner.
-/
theorem remote_of_other_root :
    let workspace : Workspace := ⟨⟨"/w"⟩⟩
    let pin : Pin := { root := "github.com/foo", revision := some "v1" }
    bareWorld.disk.exists? bareWorld.cwd (workspace.packageSource "github.com/foo/bar/sub") =
        false ∧
      Pin.firstFor [pin] "github.com/foo/bar/sub" = some pin ∧
      Belongs "github.com/foo/bar/sub" (some pin) "github.com/foo/bar"
        "https://github.com/foo/bar" ∧
      holding workspace "github.com/foo/bar/sub" (some pin) bareWorld =
        .ok { root := "github.com/foo", path := ⟨"/w/src/github.com/foo"⟩
              remote := some "https://github.com/foo/bar" } :=
  ⟨by decide +kernel, by decide +kernel, belongs_bar "v1" "github.com/foo", by decide +kernel⟩

end WorkCopy

end Git

end Depot
