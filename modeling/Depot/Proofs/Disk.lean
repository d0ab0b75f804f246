import Depot.Disk.Change
import Depot.Proofs.Path

/-!
# Lookups

A path leads where its segments lead, one after another (`Walks`). Nothing after this module unfolds
looking up again.

On a disk without links a path leads to where its last name says: what is found there is an entry of
that name. So nothing is found under a name that no entry has.

What is found on a disk is also found on one that has more (`Extends.resolve`). Making directories
is a change of that kind: it leaves everything where it is (`extends_makeDirectories`).
-/

namespace Depot

/-- The name that is joined to a path is its last segment. -/
theorem Path.segments_join (p : Path) {name : String} (plain : Component.Plain name) :
    ∃ before, Segments.ofString (p.join name).text = before ++ [name] := by
  have alone : Segments.split name.toList = [name.toList] :=
    Segments.split_of_slash_notMem plain.2.2.2
  obtain ⟨stem, text, rfl | ⟨chars, rfl⟩⟩ := p.exists_toList_join plain.2.2.2
  · exact ⟨[], by simp [Segments.ofString, text, alone]⟩
  · refine ⟨(Segments.split chars).map String.ofList, ?_⟩
    rw [Segments.ofString, text, List.append_assoc, List.singleton_append,
      Segments.split_append_slash, alone]
    simp

namespace Disk

variable {d : Disk} {cwd l : Location} {e : Entry} {name : String}

/-! ## Where segments lead -/

section Walks

variable {last : Bool} {here : Location} {segments : List String} {found : Option Entry}
  {onLink : Location → List String → Except OsError (Location × Option Entry)}

/-- A segment that is looked up as a name. -/
structure IsName (segment : String) : Prop where
  solid : ¬ (segment = "" ∨ segment = ".")
  down : segment ≠ ".."
  short : ¬ segment.utf8ByteSize > nameLimit

/-- **Where segments lead**, one segment after another. -/
inductive Walks (d : Disk) (last : Bool)
    (onLink : Location → List String → Except OsError (Location × Option Entry)) :
    Location → List String → Location → Option Entry → Prop
  /-- Nothing is left to be looked up. -/
  | done {here : Location} : Walks d last onLink here [] here (d.get? here)
  /-- The segment means the directory itself. -/
  | blank {here l : Location} {segment : String} {rest : List String} {found : Option Entry}
      (blank : segment = "" ∨ segment = ".") (more : Walks d last onLink here rest l found) :
      Walks d last onLink here (segment :: rest) l found
  /-- The segment means the directory above. -/
  | up {here l : Location} {rest : List String} {found : Option Entry}
      (more : Walks d last onLink here.dropLast rest l found) :
      Walks d last onLink here (".." :: rest) l found
  /-- There is a directory of that name. -/
  | enter {here l : Location} {segment : String} {rest : List String} {found : Option Entry}
      (name : IsName segment) (there : d.get? (here ++ [segment]) = some .directory)
      (more : Walks d last onLink (here ++ [segment]) rest l found) :
      Walks d last onLink here (segment :: rest) l found
  /-- There is nothing of that name, and no other name follows. -/
  | vacant {here : Location} {segment : String} {rest : List String} (name : IsName segment)
      (there : d.get? (here ++ [segment]) = none) (final : rest.all (· = "") = true) :
      Walks d last onLink here (segment :: rest) (here ++ [segment]) none
  /-- There is a file of that name, and nothing follows. -/
  | file {here : Location} {segment : String} {content : ByteArray} {executable : Bool}
      (name : IsName segment)
      (there : d.get? (here ++ [segment]) = some (.file content executable)) :
      Walks d last onLink here [segment] (here ++ [segment]) (some (.file content executable))
  /-- There is a link of that name, which is what was looked for. -/
  | link {here : Location} {segment target : String} (name : IsName segment)
      (there : d.get? (here ++ [segment]) = some (.link target)) (final : (!last) = true) :
      Walks d last onLink here [segment] (here ++ [segment]) (some (.link target))
  /-- There is a link of that name, which is followed. -/
  | follow {here l : Location} {segment target : String} {rest : List String}
      {found : Option Entry} (name : IsName segment)
      (there : d.get? (here ++ [segment]) = some (.link target)) (more : ¬ (rest = [] ∧ !last))
      (on : onLink (if (Path.mk target).isAbsolute then [] else here)
        (Segments.ofString target ++ rest) = .ok (l, found)) :
      Walks d last onLink here (segment :: rest) l found

/-- **Looking up segments leads where they lead.** -/
theorem walks_of_walkWith (h : d.walkWith last onLink here segments = .ok (l, found)) :
    d.Walks last onLink here segments l found := by
  induction segments generalizing here with
  | nil =>
    obtain ⟨rfl, rfl⟩ := Prod.mk.inj (Except.ok.inj h)
    exact .done
  | cons segment rest ih =>
    rw [walkWith] at h
    split at h
    · next blank => exact .blank blank (ih h)
    · next solid =>
      split at h
      · next up => exact up ▸ .up (ih h)
      · next down =>
        split at h
        · cases h
        · next short =>
          have name : IsName segment := ⟨solid, down, short⟩
          rcases there : d.get? (here ++ [segment]) with _ | _ | _ | _ <;> simp only [there] at h
          · split at h
            · next final =>
              cases h
              exact .vacant name there final
            · cases h
          · exact .enter name there (ih h)
          · split at h
            · next final =>
              cases h
              subst final
              exact .file name there
            · cases h
          · split at h
            · next final =>
              cases h
              obtain ⟨rfl, final⟩ := final
              exact .link name there final
            · next more => exact .follow name there more h

/-- **It leads nowhere else.** -/
theorem Walks.walkWith (h : d.Walks last onLink here segments l found) :
    d.walkWith last onLink here segments = .ok (l, found) := by
  induction h with
  | done => rfl
  | blank blank _ ih => rw [Disk.walkWith, if_pos blank, ih]
  | up _ ih => rw [Disk.walkWith, if_neg (by decide), if_pos rfl, ih]
  | enter name there _ ih =>
    rw [Disk.walkWith, if_neg name.solid, if_neg name.down, if_neg name.short]
    simp only [there, ih]
  | vacant name there final =>
    rw [Disk.walkWith, if_neg name.solid, if_neg name.down, if_neg name.short]
    simp only [there, if_pos final]
  | file name there =>
    rw [Disk.walkWith, if_neg name.solid, if_neg name.down, if_neg name.short]
    simp only [there, if_true]
  | link name there final =>
    rw [Disk.walkWith, if_neg name.solid, if_neg name.down, if_neg name.short]
    simp only [there, final, and_self, if_true]
  | follow name there more on =>
    rw [Disk.walkWith, if_neg name.solid, if_neg name.down, if_neg name.short]
    simp only [there, if_neg more, on]

end Walks

/-- **A path leads where its segments lead**, if the system looks it up at all, which does not
depend on the disk. -/
theorem locate_eq_ok_iff {last : Bool} {p : Path} {x : Location × Option Entry} :
    d.locate cwd p last = .ok x ↔
      (¬ p.text.toList.contains '\x00' = true ∧ p.text ≠ "" ∧ ¬ p.text.utf8ByteSize ≥ pathLimit) ∧
        d.follow last linkLimit (if p.isAbsolute then [] else cwd) (Segments.ofString p.text) =
          .ok x := by
  unfold locate
  split
  · next nul => exact ⟨nofun, fun h => absurd nul h.1.1⟩
  · next sound =>
    split
    · next blank => exact ⟨nofun, fun h => absurd blank h.1.2.1⟩
    · next solid =>
      split
      · next long => exact ⟨nofun, fun h => absurd long h.1.2.2⟩
      · next short => exact (and_iff_right ⟨sound, solid, short⟩).symm

theorem locate_of_resolve {p : Path} (h : d.resolve cwd p = .ok (l, e)) :
    d.locate cwd p true = .ok (l, some e) := by
  unfold resolve at h
  split at h
  · cases h
  · cases h
  · next located =>
    obtain ⟨rfl, rfl⟩ := Prod.mk.inj (Except.ok.inj h)
    exact located

/-! ## Disks without links -/

/-- No entry is a link. -/
def Linkless (d : Disk) : Prop := ∀ l target, d.get? l ≠ some (.link target)

/-- **The last segment says where a lookup ends.** -/
theorem get?_of_walkWith {last : Bool} {here : Location}
    {onLink : Location → List String → Except OsError (Location × Option Entry)}
    (linkless : d.Linkless) (plain : Component.Plain name) {segments : List String}
    (h : d.walkWith last onLink here (segments ++ [name]) = .ok (l, some e)) :
    d.get? l = some e ∧ l.getLast? = some name := by
  obtain ⟨nonempty, dot, up, -⟩ := plain
  replace h := walks_of_walkWith h
  generalize spelled : segments ++ [name] = all at h
  generalize result : some e = found at h
  induction h generalizing segments with
  | done => simp at spelled
  | blank blank _ ih =>
    rcases segments with _ | ⟨_, segments⟩
    · obtain ⟨rfl, -⟩ := List.cons.inj spelled
      rcases blank with rfl | rfl
      · exact absurd rfl nonempty
      · exact absurd rfl dot
    · exact ih (List.cons.inj spelled).2 result
  | up _ ih =>
    rcases segments with _ | ⟨_, segments⟩
    · obtain ⟨rfl, -⟩ := List.cons.inj spelled
      exact absurd rfl up
    · exact ih (List.cons.inj spelled).2 result
  | enter _ there more ih =>
    rcases segments with _ | ⟨_, segments⟩
    · obtain ⟨rfl, rfl⟩ := List.cons.inj spelled
      cases more
      exact ⟨rfl, by simp⟩
    · exact ih (List.cons.inj spelled).2 result
  | vacant => cases result
  | file _ there =>
    rcases segments with _ | ⟨_, segments⟩
    · obtain ⟨rfl, -⟩ := List.cons.inj spelled
      exact ⟨there, by simp⟩
    · simp at spelled
  | link _ there _ | follow _ there _ _ => exact absurd there (linkless _ _)

/-- **What is found under a name is an entry of that name.** -/
theorem get?_of_resolve_join {p : Path} (linkless : d.Linkless) (plain : Component.Plain name)
    (h : d.resolve cwd (p.join name) = .ok (l, e)) :
    d.get? l = some e ∧ l.getLast? = some name := by
  obtain ⟨before, segments⟩ := p.segments_join plain
  have followed := (locate_eq_ok_iff.1 (locate_of_resolve h)).2
  rw [segments, linkLimit, follow] at followed
  exact get?_of_walkWith linkless plain followed

/-- **Nothing is found under a name that no entry has.** -/
theorem exists?_join_eq_false (p : Path) (linkless : d.Linkless) (plain : Component.Plain name)
    (absent : ∀ l, (d.get? l).isSome = true → l.getLast? ≠ some name) :
    d.exists? cwd (p.join name) = false := by
  unfold exists?
  rcases found : d.resolve cwd (p.join name) with _ | ⟨l, e⟩
  · rfl
  · obtain ⟨there, last⟩ := get?_of_resolve_join linkless plain found
    exact absurd last (absent l (by simp [there]))

/-! ## Disks that have more -/

/-- **A disk has all that another one has**, in the same places. -/
def Extends (d' d : Disk) : Prop := ∀ l e, d.get? l = some e → d'.get? l = some e

variable {d' d'' : Disk}

theorem Extends.refl (d : Disk) : d.Extends d := fun _ _ h => h

theorem Extends.trans (h' : d''.Extends d') (h : d'.Extends d) : d''.Extends d :=
  fun l e held => h' l e (h l e held)

theorem get?_put_of_ne {l' : Location} (other : l' ≠ l) : (d.put l e).get? l' = d.get? l' := by
  unfold get? put
  split
  · rfl
  · rw [List.lookup_cons, beq_false_of_ne other]
    dsimp only
    induction d.entries with
    | nil => rfl
    | cons entry entries ih =>
      by_cases here : entry.1 = l
      · rw [List.filter_cons_of_neg (by simp [here]), ih, List.lookup_cons, here,
          beq_false_of_ne other]
      · rw [List.filter_cons_of_pos (by simp [here]), List.lookup_cons, List.lookup_cons, ih]

/-- **An entry put where there was none leaves all others.** -/
theorem extends_put (free : d.get? l = none) : (d.put l e).Extends d := by
  intro l' e' held
  rw [get?_put_of_ne, held]
  rintro rfl
  cases free.symm.trans held

section Lookup

variable {last : Bool} {here : Location} {segments : List String} {found : Option Entry}
  {onLink onLink' : Location → List String → Except OsError (Location × Option Entry)}

/-- Looking up segments tells what is at the location it leads to, if following links does. -/
theorem Walks.get?_eq (h : d.Walks last onLink here segments l found)
    (link : ∀ here segments l found, onLink here segments = .ok (l, found) → d.get? l = found) :
    d.get? l = found := by
  induction h with
  | done => rfl
  | blank _ _ ih | up _ ih | enter _ _ _ ih => exact ih
  | vacant _ there _ | file _ there | link _ there _ => exact there
  | follow _ _ _ on => exact link _ _ _ _ on

theorem get?_eq_of_follow {links : Nat} (h : d.follow last links here segments = .ok (l, found)) :
    d.get? l = found := by
  induction links generalizing here segments l found with
  | zero => exact (walks_of_walkWith h).get?_eq fun _ _ _ _ h => by cases h
  | succ links ih => exact (walks_of_walkWith h).get?_eq fun _ _ _ _ => ih

/-- **What is found on a disk is found on one that has more**, if following links finds it. -/
theorem Walks.extends (h : d.Walks last onLink here segments l found) (more : d'.Extends d)
    (link : ∀ here segments l e, onLink here segments = .ok (l, some e) →
      onLink' here segments = .ok (l, some e)) (some : found = some e) :
    d'.Walks last onLink' here segments l found := by
  induction h with
  | @done here =>
    rw [some]
    exact more _ _ some ▸ .done
  | blank blank _ ih => exact .blank blank (ih some)
  | up _ ih => exact .up (ih some)
  | enter name there _ ih => exact .enter name (more _ _ there) (ih some)
  | vacant => cases some
  | file name there => exact .file name (more _ _ there)
  | link name there final => exact .link name (more _ _ there) final
  | follow name there rest on =>
    subst some
    exact .follow name (more _ _ there) rest (link _ _ _ _ on)

theorem Extends.follow (h : d'.Extends d) {links : Nat}
    (found : d.follow last links here segments = .ok (l, some e)) :
    d'.follow last links here segments = .ok (l, some e) := by
  induction links generalizing here segments l e with
  | zero => exact ((walks_of_walkWith found).extends h (fun _ _ _ _ h => by cases h) rfl).walkWith
  | succ links ih => exact ((walks_of_walkWith found).extends h (fun _ _ _ _ => ih) rfl).walkWith

/-- What is told of a path is what is at the location it leads to. -/
theorem get?_eq_of_locate {p : Path} (h : d.locate cwd p last = .ok (l, found)) :
    d.get? l = found :=
  get?_eq_of_follow (locate_eq_ok_iff.1 h).2

theorem Extends.locate (h : d'.Extends d) {p : Path}
    (found : d.locate cwd p last = .ok (l, some e)) :
    d'.locate cwd p last = .ok (l, some e) := by
  obtain ⟨taken, followed⟩ := locate_eq_ok_iff.1 found
  exact locate_eq_ok_iff.2 ⟨taken, h.follow followed⟩

end Lookup

/-- **A path leads where it leads on a disk that has less.** -/
theorem Extends.resolve (h : d'.Extends d) {p : Path} (found : d.resolve cwd p = .ok (l, e)) :
    d'.resolve cwd p = .ok (l, e) := by
  unfold Disk.resolve at found ⊢
  rcases located : d.locate cwd p true with _ | ⟨_, _ | _⟩ <;> rw [located] at found <;>
    cases found
  rw [h.locate located]

/-! ## Making directories -/

variable {p : Path}

theorem extends_makeDirectory (made : d.makeDirectory cwd p = .ok d') : d'.Extends d := by
  unfold makeDirectory at made
  rcases located : d.locate cwd p false with _ | ⟨_, _ | _⟩ <;> rw [located] at made <;>
    cases made
  exact extends_put (get?_eq_of_locate located)

theorem extends_makeFrom (d : Disk) (cwd : Location) (paths : List Path) :
    (d.makeFrom cwd paths).2.Extends d := by
  induction paths with
  | nil => exact .refl d
  | cons p above ih =>
    unfold makeFrom
    split
    · exact .refl d
    · split
      · next made => exact extends_makeDirectory made
      · split
        · next stopped => exact congrArg Prod.snd stopped ▸ ih
        · next begun =>
          rw [begun] at ih
          split
          · next made => exact (extends_makeDirectory made).trans ih
          · split <;> exact ih
      · split <;> exact .refl d

/-- **Making directories leaves everything where it is.** -/
theorem extends_makeDirectories (d : Disk) (cwd : Location) (p : Path) :
    (d.makeDirectories cwd p).2.Extends d :=
  extends_makeFrom d cwd p.ancestors

theorem extends_ensureDirectory (d : Disk) (cwd : Location) (p : Path) :
    (d.ensureDirectory cwd p).2.Extends d := by
  have made := extends_makeDirectories d cwd p
  unfold ensureDirectory
  split
  · exact .refl d
  · split <;> next outcome => exact congrArg Prod.snd outcome ▸ made

end Disk

end Depot
