import Depot.Disk.Difference
import Depot.Proofs.Disk.Spelling
import Depot.Proofs.Path.Parents

/-!
# Making the directories above a path

On a disk on which everything is in a directory (`Tree`), a path leads somewhere only if the path
directly above it leads to a directory, and this directory has an entry of the last name
(`exists_above_of_resolve`). A directory that is made is empty. So making the directories above a
path that leads nowhere does not make it lead anywhere (`exists?_ensureDirectory`), whether all of
them can be made or not.

It takes that the path does not go up: where `a` is missing, `a/../b` leads nowhere, but it may lead
to something once `a` is made.
-/

namespace Depot.Disk

variable {d d' : Disk} {cwd l here : Location} {e : Entry} {name : String}

/-! ## Trees -/

/-- **A disk on which everything is in a directory.** -/
def Tree (d : Disk) : Prop :=
  ∀ l name, (d.get? (l ++ [name])).isSome = true → d.get? l = some .directory

theorem tree_of_entries
    (inside : (d.entries.all fun x => (d.get? x.1.dropLast).any (·.same .directory)) = true) :
    d.Tree := by
  intro l name held
  obtain ⟨e, held⟩ := Option.isSome_iff_exists.1 held
  rw [get?, if_neg (by simp)] at held
  obtain ⟨before, after, entries, -⟩ := List.lookup_eq_some_iff.1 held
  have listed : (l ++ [name], e) ∈ d.entries := by simp [entries]
  have above := List.all_eq_true.1 inside _ listed
  rw [List.dropLast_concat, Option.any_eq_true] at above
  obtain ⟨e, found, same⟩ := above
  rw [found]
  cases e with
  | directory => rfl
  | _ => cases same

theorem Tree.dropLast (tree : d.Tree) (directory : d.get? l = some .directory) :
    d.get? l.dropLast = some .directory := by
  rcases l.eq_nil_or_concat' with rfl | ⟨above, name, rfl⟩
  · exact directory
  · rw [List.dropLast_concat]
    exact tree above name (by rw [directory]; rfl)

theorem get?_put_self (below : l ≠ []) : (d.put l e).get? l = some e := by
  rw [get?, if_neg below, put, List.lookup_cons, beq_self_eq_true]

/-- **A directory that is put in a directory** leaves the disk a tree. -/
theorem Tree.put (tree : d.Tree) {above : Location} (directory : d.get? above = some .directory) :
    (d.put (above ++ [name]) .directory).Tree := by
  have here : (d.put (above ++ [name]) .directory).get? (above ++ [name]) = some .directory :=
    get?_put_self (by simp)
  intro l name' held
  by_cases last : l ++ [name'] = above ++ [name]
  · obtain ⟨rfl, -⟩ := List.append_inj' last rfl
    rwa [get?_put_of_ne (by simp)]
  · rw [get?_put_of_ne last] at held
    by_cases own : l = above ++ [name]
    · rw [own, here]
    · rw [get?_put_of_ne own]
      exact tree l name' held

section Lookup

variable {segments segments' : List String} {found : Option Entry} {last : Bool} {links : Nat}
  {onLink onLink' : Location → List String → Except OsError (Location × Option Entry)}

/-- **A place where nothing is yet** is in a directory, if that is so behind links. -/
theorem Walks.vacancy (tree : d.Tree) (h : d.Walks last onLink here segments l found)
    (directory : d.get? here = some .directory) (nothing : found = none)
    (link : ∀ here segments l, d.get? here = some .directory →
      onLink here segments = .ok (l, none) →
        ∃ above name, l = above ++ [name] ∧ d.get? above = some .directory) :
    ∃ above name, l = above ++ [name] ∧ d.get? above = some .directory := by
  induction h with
  | done => rw [directory] at nothing; cases nothing
  | blank _ _ ih => exact ih directory nothing
  | up _ ih => exact ih (tree.dropLast directory) nothing
  | enter _ there _ ih => exact ih there nothing
  | vacant _ _ _ => exact ⟨_, _, rfl, directory⟩
  | file => cases nothing
  | link => cases nothing
  | follow _ _ _ on =>
    subst nothing
    refine link _ _ _ ?_ on
    split
    · rfl
    · exact directory

theorem vacancy_of_follow (tree : d.Tree) (directory : d.get? here = some .directory)
    (h : d.follow last links here segments = .ok (l, none)) :
    ∃ above name, l = above ++ [name] ∧ d.get? above = some .directory := by
  induction links generalizing here segments l with
  | zero => exact (walks_of_walkWith h).vacancy tree directory rfl fun _ _ _ _ h => by cases h
  | succ links ih => exact (walks_of_walkWith h).vacancy tree directory rfl fun _ _ _ => ih

/-- **What a path leads to is seen without following a link at the end**, if that is so behind
links. -/
theorem Walks.seen (h : d.Walks true onLink here segments l found) (led : found = some e)
    (link : ∀ here segments l e, onLink here segments = .ok (l, some e) →
      ∃ l' e', onLink' here segments = .ok (l', some e')) :
    ∃ l' e', d.Walks false onLink' here segments l' (some e') := by
  induction h with
  | @done here => exact ⟨here, e, led ▸ .done⟩
  | blank blank _ ih =>
    obtain ⟨l', e', walks⟩ := ih led
    exact ⟨l', e', .blank blank walks⟩
  | up _ ih =>
    obtain ⟨l', e', walks⟩ := ih led
    exact ⟨l', e', .up walks⟩
  | enter name there _ ih =>
    obtain ⟨l', e', walks⟩ := ih led
    exact ⟨l', e', .enter name there walks⟩
  | vacant => cases led
  | file name there => exact ⟨_, _, .file name there⟩
  | link name there final => exact ⟨_, _, .link name there rfl⟩
  | @follow here l segment target rest found name there _ on =>
    by_cases final : rest = []
    · subst final
      exact ⟨_, _, .link name there rfl⟩
    · subst led
      obtain ⟨l', e', on'⟩ := link _ _ _ _ on
      exact ⟨l', e', .follow name there (by simp [final]) on'⟩

theorem seen_of_follow (h : d.follow true links here segments = .ok (l, some e)) :
    ∃ l' e', d.follow false links here segments = .ok (l', some e') := by
  induction links generalizing here segments l e with
  | zero =>
    obtain ⟨l', e', walks⟩ := (walks_of_walkWith h).seen rfl fun _ _ _ _ h => by cases h
    exact ⟨l', e', walks.walkWith⟩
  | succ links ih =>
    obtain ⟨l', e', walks⟩ := (walks_of_walkWith h).seen rfl fun _ _ _ _ => ih
    exact ⟨l', e', walks.walkWith⟩

/-- **A directory that is put where a path leads** is what the path leads to, if that is so behind
links. -/
theorem Walks.put (h : d.Walks last onLink here segments l found) (nothing : found = none)
    (free : d.get? l = none)
    (link : ∀ here segments, onLink here segments = .ok (l, none) →
      onLink' here segments = .ok (l, some .directory)) :
    (d.put l .directory).Walks true onLink' here segments l (some .directory) := by
  have below : l ≠ [] := by
    rintro rfl
    cases free
  have there' : (d.put l .directory).get? l = some .directory := get?_put_self below
  have more : (d.put l .directory).Extends d := extends_put free
  induction h with
  | done => exact there' ▸ .done
  | blank blank _ ih => exact .blank blank (ih nothing free link below there' more)
  | up _ ih => exact .up (ih nothing free link below there' more)
  | enter name there _ ih =>
    exact .enter name (more _ _ there) (ih nothing free link below there' more)
  | vacant name _ final =>
    refine .enter name there' (there' ▸ walks_of_solid_eq_nil ?_)
    refine List.filter_eq_nil_iff.2 fun segment hs => ?_
    simp [show segment = "" by simpa using List.all_eq_true.1 final segment hs]
  | file => cases nothing
  | link => cases nothing
  | follow name there _ on =>
    subst nothing
    exact .follow name (more _ _ there) (by simp) (link _ _ on)

theorem follow_put (free : d.get? l = none)
    (h : d.follow last links here segments = .ok (l, none)) :
    (d.put l .directory).follow true links here segments = .ok (l, some .directory) := by
  induction links generalizing here segments with
  | zero => exact ((walks_of_walkWith h).put rfl free fun _ _ h => by cases h).walkWith
  | succ links ih => exact ((walks_of_walkWith h).put rfl free fun _ _ => ih).walkWith

/-- Where segments have a name behind those of others, the first of them is the name, or the others
begin with it too. -/
theorem eq_nil_or_exists_rest {segment : String} {rest : List String}
    (spelled : segment :: Segments.solid rest = Segments.solid segments' ++ [name]) :
    Segments.solid segments' = [] ∧ segment = name ∨
      ∃ rest', Segments.solid rest = Segments.solid rest' ++ [name] ∧ ∀ here l found,
        d.Walks last onLink here (segment :: rest') l found →
          d.Walks last onLink here segments' l found := by
  rcases before : Segments.solid segments' with _ | ⟨first, solids⟩ <;> rw [before] at spelled
  · exact .inl ⟨rfl, (List.cons.inj spelled).1⟩
  · rw [List.cons_append, List.cons.injEq] at spelled
    obtain ⟨rfl, spelled⟩ := spelled
    obtain ⟨rest', rfl, leads⟩ := exists_rest_of_solid before
    exact .inr ⟨rest', spelled, leads⟩

/-- **Segments that end in a name lead nowhere unless those before it lead to a directory** with an
entry of that name, if that is so behind links. -/
theorem Walks.above (tree : d.Tree) (down : name ≠ "..")
    (h : d.Walks true onLink here segments l found) (led : found = some e)
    (spelled : Segments.solid segments = Segments.solid segments' ++ [name])
    (link : ∀ here segments segments' l e,
      Segments.solid segments = Segments.solid segments' ++ [name] →
        onLink here segments = .ok (l, some e) →
          ∃ above, onLink here segments' = .ok (above, some .directory) ∧
            (d.get? (above ++ [name])).isSome = true) :
    ∃ above, d.Walks true onLink here segments' above (some .directory) ∧
      (d.get? (above ++ [name])).isSome = true := by
  -- where the name comes next, the segments before it lead here
  have stay {here : Location} {segments' : List String} {e : Entry}
      (none : Segments.solid segments' = []) (there : d.get? (here ++ [name]) = some e) :
      ∃ above, d.Walks true onLink here segments' above (some .directory) ∧
        (d.get? (above ++ [name])).isSome = true := by
    have held : (d.get? (here ++ [name])).isSome = true := by rw [there]; rfl
    exact ⟨here, tree here name held ▸ walks_of_solid_eq_nil none, held⟩
  induction h generalizing segments' with
  | done => simp [Segments.solid] at spelled
  | blank blank _ ih =>
    rw [Segments.solid_cons_of_blank blank] at spelled
    exact ih led spelled
  | up _ ih =>
    rw [Segments.solid_cons_of_solid (by decide)] at spelled
    rcases eq_nil_or_exists_rest (d := d) spelled with ⟨-, up⟩ | ⟨rest, spelled, leads⟩
    · exact absurd up.symm down
    · obtain ⟨above, walks, held⟩ := ih led spelled
      exact ⟨above, leads _ _ _ (.up walks), held⟩
  | enter named there _ ih =>
    rw [Segments.solid_cons_of_solid named.solid] at spelled
    rcases eq_nil_or_exists_rest (d := d) spelled with ⟨none, rfl⟩ | ⟨rest, spelled, leads⟩
    · exact stay none there
    · obtain ⟨above, walks, held⟩ := ih led spelled
      exact ⟨above, leads _ _ _ (.enter named there walks), held⟩
  | vacant => cases led
  | @file here segment _ _ named there =>
    rw [Segments.solid_cons_of_solid named.solid] at spelled
    obtain ⟨none, rfl⟩ : Segments.solid segments' = [] ∧ name = segment := by
      simpa [Segments.solid, List.singleton_eq_append_iff] using spelled
    exact stay none there
  | link _ _ final => cases final
  | follow named there _ on =>
    subst led
    rw [Segments.solid_cons_of_solid named.solid] at spelled
    rcases eq_nil_or_exists_rest (d := d) spelled with ⟨none, rfl⟩ | ⟨rest, spelled, leads⟩
    · exact stay none there
    · obtain ⟨above, on', held⟩ := link _ _ (Segments.ofString _ ++ rest) _ _ (by
        rw [Segments.solid_append, Segments.solid_append, spelled, List.append_assoc]) on
      exact ⟨above, leads _ _ _ (.follow named there (by simp) on'), held⟩

theorem above_of_follow (tree : d.Tree) (down : name ≠ "..")
    (h : d.follow true links here segments = .ok (l, some e))
    (spelled : Segments.solid segments = Segments.solid segments' ++ [name]) :
    ∃ above, d.follow true links here segments' = .ok (above, some .directory) ∧
      (d.get? (above ++ [name])).isSome = true := by
  induction links generalizing here segments segments' l e with
  | zero =>
    obtain ⟨above, walks, held⟩ :=
      (walks_of_walkWith h).above tree down rfl spelled fun _ _ _ _ _ _ h => by cases h
    exact ⟨above, walks.walkWith, held⟩
  | succ links ih =>
    obtain ⟨above, walks, held⟩ :=
      (walks_of_walkWith h).above tree down rfl spelled fun _ _ _ _ _ spelled h => ih h spelled
    exact ⟨above, walks.walkWith, held⟩

end Lookup

/-! ## Directories above a path -/

variable {p q : Path}

/-- **What leads somewhere cannot be made.** -/
theorem makeDirectory_of_resolve (h : d.resolve cwd p = .ok (l, e)) :
    d.makeDirectory cwd p = .error .alreadyExists := by
  obtain ⟨taken, followed⟩ := locate_eq_ok_iff.1 (locate_of_resolve h)
  obtain ⟨l', e', seen⟩ := seen_of_follow followed
  rw [makeDirectory, locate_eq_ok_iff.2 ⟨taken, seen⟩]

/-- **What is made is an empty directory**, in a place where nothing was, and is found there. -/
theorem exists_put_of_makeDirectory (made : d.makeDirectory cwd p = .ok d') :
    ∃ l, d.locate cwd p false = .ok (l, none) ∧ d' = d.put l .directory ∧
      d'.resolve cwd p = .ok (l, .directory) := by
  unfold makeDirectory at made
  rcases located : d.locate cwd p false with _ | ⟨l, _ | _⟩ <;> rw [located] at made <;>
    cases made
  obtain ⟨taken, followed⟩ := locate_eq_ok_iff.1 located
  have found := locate_eq_ok_iff.2 ⟨taken, follow_put (get?_eq_of_locate located) followed⟩
  exact ⟨l, rfl, rfl, by rw [resolve, found]⟩

theorem Tree.makeDirectory (tree : d.Tree) (directory : d.get? cwd = some .directory)
    (made : d.makeDirectory cwd p = .ok d') : d'.Tree := by
  obtain ⟨l, located, rfl, -⟩ := exists_put_of_makeDirectory made
  have begin_ : d.get? (if p.isAbsolute then [] else cwd) = some .directory := by
    split
    · rfl
    · exact directory
  obtain ⟨above, name, rfl, inside⟩ :=
    vacancy_of_follow tree begin_ (locate_eq_ok_iff.1 located).2
  exact tree.put inside

/-- **What is directly above a path that leads somewhere** leads to a directory with an entry of the
last name. -/
theorem exists_above_of_resolve (tree : d.Tree) (above : p.parent? = some q) (text : q.text ≠ "")
    (down : Component.up ∉ p.components) (found : d.resolve cwd p = .ok (l, e)) :
    ∃ name l', d.resolve cwd q = .ok (l', .directory) ∧ (d.get? (l' ++ [name])).isSome = true := by
  obtain ⟨⟨sound, -, short⟩, followed⟩ := locate_eq_ok_iff.1 (locate_of_resolve found)
  have components : q.components ≠ [] := mt Path.components_eq_nil_iff.1 text
  obtain ⟨name, whole⟩ := Path.exists_name_of_parent? above components down
  have spelled : Segments.solid (Segments.ofString p.text) =
      Segments.solid (Segments.ofString q.text) ++ [name] := by
    rw [p.solid_ofString, q.solid_ofString, whole, List.filterMap_append]
    rfl
  have absolute : p.isAbsolute = q.isAbsolute := by
    rw [Bool.eq_iff_iff, Path.isAbsolute_iff, Path.isAbsolute_iff, whole]
    simp
  have plain : Component.Plain name := Path.plain_of_mem_components (p := p) (by simp [whole])
  have upward : name ≠ ".." := by
    rintro rfl
    exact plain.2.2.1 rfl
  -- the text is cut out of the other one, so it is taken too
  obtain ⟨n, rfl⟩ := Path.exists_cut_of_parent? above
  have sound' : ¬ (p.cut n).text.toList.contains '\x00' = true := by
    rw [List.contains_iff_mem] at sound ⊢
    exact fun mem => sound (List.mem_of_mem_take (by simpa [Path.cut] using mem))
  have short' : ¬ (p.cut n).text.utf8ByteSize ≥ pathLimit := by
    have split : p.text = (p.cut n).text ++ String.ofList (p.text.toList.drop n) := by
      rw [Path.cut, ← String.ofList_append, List.take_append_drop, String.ofList_toList]
    rw [split, String.utf8ByteSize_append] at short
    omega
  obtain ⟨l', followed', held⟩ := above_of_follow tree upward followed spelled
  refine ⟨name, l', ?_, held⟩
  rw [resolve, locate_eq_ok_iff.2 ⟨⟨sound', text, short'⟩, absolute ▸ followed'⟩]

/-- **Making the directory directly above a path** does not make the path lead anywhere. -/
theorem exists?_of_makeDirectory (tree : d.Tree) (directory : d.get? cwd = some .directory)
    (above : p.parent? = some q) (down : Component.up ∉ p.components)
    (made : d.makeDirectory cwd q = .ok d') : d'.exists? cwd p = false := by
  have tree' := tree.makeDirectory directory made
  obtain ⟨l, located, rfl, found⟩ := exists_put_of_makeDirectory made
  have text : q.text ≠ "" := (locate_eq_ok_iff.1 located).1.2.1
  have free : d.get? l = none := get?_eq_of_locate located
  unfold exists?
  rcases leads : (d.put l .directory).resolve cwd p with _ | ⟨_, _⟩
  · rfl
  · -- there would be an entry in the new directory
    obtain ⟨name, l', found', held⟩ := exists_above_of_resolve tree' above text down leads
    obtain ⟨rfl, -⟩ := Prod.mk.inj (Except.ok.inj (found.symm.trans found'))
    rw [get?_put_of_ne (by simp)] at held
    cases free.symm.trans (tree l name held)

/-- A path that leads nowhere does so where the path directly above it does. -/
theorem exists?_of_above (tree : d.Tree) (above : p.parent? = some q) (text : q.text ≠ "")
    (down : Component.up ∉ p.components) (missing : d.exists? cwd q = false) :
    d.exists? cwd p = false := by
  unfold exists? at missing ⊢
  rcases leads : d.resolve cwd p with _ | ⟨_, _⟩
  · rfl
  · obtain ⟨name, l', found, -⟩ := exists_above_of_resolve tree above text down leads
    rw [found] at missing
    cases missing

/-- **A directory that cannot be made for lack of one above it** leads nowhere. -/
theorem exists?_of_makeDirectory_eq_notFound (refused : d.makeDirectory cwd p = .error .notFound) :
    d.exists? cwd p = false := by
  unfold exists?
  rcases leads : d.resolve cwd p with _ | ⟨_, _⟩
  · rfl
  · rw [makeDirectory_of_resolve leads] at refused
    cases refused

theorem Tree.makeFrom (tree : d.Tree) (directory : d.get? cwd = some .directory)
    (paths : List Path) : (d.makeFrom cwd paths).2.Tree := by
  induction paths with
  | nil => exact tree
  | cons p above ih =>
    have more := extends_makeFrom d cwd above
    unfold Disk.makeFrom
    split
    · exact tree
    · split
      · next made => exact tree.makeDirectory directory made
      · split
        · next stopped => exact congrArg Prod.snd stopped ▸ ih
        · next begun =>
          rw [begun] at ih more
          split
          · next made => exact ih.makeDirectory (more _ _ directory) made
          · split <;> exact ih
      · split <;> exact tree

/-- **Making the directories above a path that leads nowhere** does not make it lead anywhere. -/
theorem exists?_makeFrom (tree : d.Tree) (directory : d.get? cwd = some .directory)
    (above : p.parent? = some q) (down : Component.up ∉ p.components)
    (missing : d.exists? cwd p = false) :
    (d.makeFrom cwd q.ancestors).2.exists? cwd p = false := by
  -- the induction is on the directories to be made, of which each is above the one before
  induction paths : q.ancestors generalizing p q with
  | nil => rw [Path.ancestors_eq] at paths; cases paths
  | cons first rest ih =>
    obtain rfl : q = first := by
      rw [Path.ancestors_eq] at paths
      exact (List.cons.inj paths).1
    have lacking (refused : d.makeDirectory cwd q = .error .notFound) :
        (d.makeFrom cwd rest).2.exists? cwd q = false := by
      have absent := exists?_of_makeDirectory_eq_notFound refused
      rcases further : q.parent? with _ | r
      · have none : rest = [] := by
          rwa [Path.parent?, paths, List.tail_cons, List.head?_eq_none_iff] at further
        rw [none]
        exact absent
      · have down' : Component.up ∉ q.components := by
          rw [Path.components_of_parent? above]
          exact fun h => down (List.dropLast_subset _ h)
        refine ih further down' absent ?_
        rw [(Path.spans_of_parent? further).2] at paths
        exact (List.cons.inj paths).2
    have tree' := tree.makeFrom directory rest
    have directory' := extends_makeFrom d cwd rest _ _ directory
    unfold makeFrom
    split
    · exact missing
    · next text =>
      split
      · next made => exact exists?_of_makeDirectory tree directory above down made
      · next refused =>
        have gone := lacking refused
        split
        · next stopped =>
          rw [stopped] at gone tree'
          exact exists?_of_above tree' above text down gone
        · next begun =>
          rw [begun] at gone tree' directory'
          split
          · next made => exact exists?_of_makeDirectory tree' directory' above down made
          · split <;> exact exists?_of_above tree' above text down gone
      · split <;> exact missing

/-- **Having the directory directly above a path that leads nowhere** does not make it lead
anywhere, whether the directory can be made or not. -/
theorem exists?_ensureDirectory (tree : d.Tree) (directory : d.get? cwd = some .directory)
    (above : p.parent? = some q) (down : Component.up ∉ p.components)
    (missing : d.exists? cwd p = false) : (d.ensureDirectory cwd q).2.exists? cwd p = false := by
  have made := exists?_makeFrom tree directory above down missing
  unfold ensureDirectory
  split
  · exact missing
  · split <;> next outcome => exact congrArg Prod.snd outcome ▸ made

end Depot.Disk
