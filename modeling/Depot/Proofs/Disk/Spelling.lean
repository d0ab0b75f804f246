import Depot.Proofs.Disk
import Depot.World

/-!
# How paths are written

A path can be written in many ways: with several slashes in a row, with one at the end, with a `.`
in between. None of this matters to the system as long as it looks for directories. What counts are
the segments that are neither empty nor `.` (`Segments.solid`), and these can be told from what the
path means (`Path.solid_ofString`).

So where one way of writing a path leads to a directory, every other does, unless the text is one
that the system refuses for its length (`World.kind_respell`).
-/

namespace Depot

namespace Segments

/-- **The segments that count** when a path is looked up. -/
def solid (segments : List String) : List String :=
  segments.filter fun segment => segment ≠ "" ∧ segment ≠ "."

theorem mem_solid {segments : List String} {segment : String} :
    segment ∈ solid segments ↔ segment ∈ segments ∧ ¬ (segment = "" ∨ segment = ".") := by
  simp [solid]

theorem solid_cons_of_blank {segment : String} (blank : segment = "" ∨ segment = ".")
    (rest : List String) : solid (segment :: rest) = solid rest := by
  rcases blank with rfl | rfl <;> rfl

theorem solid_cons_of_solid {segment : String} (counts : ¬ (segment = "" ∨ segment = "."))
    (rest : List String) : solid (segment :: rest) = segment :: solid rest := by
  rw [solid, List.filter_cons_of_pos (by simpa using counts)]
  rfl

theorem solid_append (segments more : List String) :
    solid (segments ++ more) = solid segments ++ solid more :=
  List.filter_append ..

/-- A text that does not begin with a slash begins with a segment. -/
theorem exists_split_cons {c : Char} (slash : c ≠ '/') (cs : List Char) :
    ∃ s ss, split (c :: cs) = (c :: s) :: ss := by
  rw [split, if_neg slash]
  split
  · exact ⟨_, _, rfl⟩
  · exact ⟨_, _, rfl⟩

/-- What is in a text is in one of its segments, unless it is a slash. -/
theorem exists_mem_split {cs : List Char} {c : Char} (hc : c ∈ cs) (slash : c ≠ '/') :
    ∃ s ∈ split cs, c ∈ s := by
  induction cs with
  | nil => cases hc
  | cons d cs ih =>
    rcases List.mem_cons.1 hc with rfl | hc
    · obtain ⟨s, ss, first⟩ := exists_split_cons slash cs
      exact first ▸ ⟨_, List.mem_cons_self, List.mem_cons_self⟩
    · unfold split
      obtain ⟨s, hs, within⟩ := ih hc
      split
      · exact ⟨s, List.mem_cons_of_mem _ hs, within⟩
      · rcases rest : split cs with _ | ⟨t, ts⟩
        · exact absurd rest (split_ne_nil cs)
        · rw [rest] at hs
          rcases List.mem_cons.1 hs with rfl | hs
          · exact ⟨_, List.mem_cons_self, List.mem_cons_of_mem _ within⟩
          · exact ⟨s, List.mem_cons_of_mem _ hs, within⟩

/-- **What is in a text, but for slashes and dots, is in one of the segments that count.** -/
theorem mem_toList_iff_solid {text : String} {c : Char} (slash : c ≠ '/') (dot : c ≠ '.') :
    c ∈ text.toList ↔ ∃ segment ∈ solid (ofString text), c ∈ segment.toList := by
  constructor
  · intro hc
    obtain ⟨s, hs, within⟩ := exists_mem_split hc slash
    refine ⟨String.ofList s, mem_solid.2 ⟨List.mem_map_of_mem hs, ?_⟩, by simpa using within⟩
    rintro (blank | blank)
    · obtain rfl : s = [] := by simpa using congrArg String.toList blank
      cases within
    · obtain rfl : s = ['.'] := by simpa using congrArg String.toList blank
      exact dot (List.mem_singleton.1 within)
  · rintro ⟨_, counts, within⟩
    obtain ⟨s, hs, rfl⟩ := List.mem_map.1 (mem_solid.1 counts).1
    exact mem_of_mem_split hs (by simpa using within)

end Segments

namespace Component

/-- The segment that a component is looked up by, if it is looked up at all. -/
def segment? : Component → Option String
  | up => some ".."
  | normal name => some name
  | _ => none

/-- The component that a segment which counts stands for. -/
def ofName (segment : String) : Component := if segment = ".." then up else normal segment

@[simp] theorem ofName_up : ofName ".." = up := rfl

theorem ofName_of_ne {segment : String} (down : segment ≠ "..") : ofName segment = normal segment :=
  if_neg down

@[simp] theorem segment?_ofName (segment : String) : (ofName segment).segment? = some segment := by
  unfold ofName
  split
  · next parent => rw [parent, segment?]
  · rfl

theorem ofName_injective : Function.Injective ofName := fun a b same => by
  simpa using congrArg segment? same

theorem ofSegment_of_counts {segment : List Char}
    (counts : ¬ (segment = [] ∨ segment = ['.'])) :
    ofSegment segment = some (ofName (String.ofList segment)) := by
  rw [ofSegment, if_neg counts]
  split
  · next parent => rw [parent, ← ofName_up]
  · next down => rw [ofName_of_ne (by simpa [← String.toList_inj] using down)]

/-- **Segments stand for what those stand for that count.** -/
theorem filterMap_ofSegment (segments : List (List Char)) :
    segments.filterMap ofSegment =
      (Segments.solid (segments.map String.ofList)).map ofName := by
  induction segments with
  | nil => rfl
  | cons s ss ih =>
    rw [List.map_cons]
    by_cases blank : s = [] ∨ s = ['.']
    · have nothing : ofSegment s = none := if_pos blank
      rw [List.filterMap_cons_none nothing, ih, Segments.solid_cons_of_blank]
      rcases blank with rfl | rfl <;> simp
    · have counts : ¬ (String.ofList s = "" ∨ String.ofList s = ".") := by
        simpa [← String.toList_inj] using blank
      rw [List.filterMap_cons_some (ofSegment_of_counts blank), ih,
        Segments.solid_cons_of_solid counts, List.map_cons]

end Component

namespace Path

open Component

variable {p q : Path}

/-- The components of segments are looked up by the segments that count. -/
theorem filterMap_segment?_ofSegment (segments : List (List Char)) :
    (segments.filterMap ofSegment).filterMap segment? =
      Segments.solid (segments.map String.ofList) := by
  have back : segment? ∘ ofName = some := funext segment?_ofName
  rw [filterMap_ofSegment, List.filterMap_map, back, List.filterMap_some]

/-- **What a path means says by which segments it is looked up.** -/
theorem solid_ofString (p : Path) :
    Segments.solid (Segments.ofString p.text) = p.components.filterMap segment? := by
  rw [components_eq_read, Segments.ofString]
  cases Segments.split p.text.toList with
  | nil => rfl
  | cons s ss =>
    rw [read]
    split
    · next first =>
      rw [first.1, List.map_cons, Segments.solid_cons_of_blank (.inl rfl),
        List.filterMap_cons_none rfl, filterMap_segment?_ofSegment]
    · split
      · next first =>
        rw [first, List.map_cons, Segments.solid_cons_of_blank (.inr rfl),
          List.filterMap_cons_none rfl, filterMap_segment?_ofSegment]
      · exact (filterMap_segment?_ofSegment _).symm

theorem root_notMem_filterMap_ofSegment (segments : List (List Char)) :
    root ∉ segments.filterMap ofSegment := by
  rw [filterMap_ofSegment]
  intro h
  obtain ⟨segment, -, stands⟩ := List.mem_map.1 h
  cases (segment?_ofName segment).symm.trans (congrArg segment? stands)

/-- **What a path means says whether it begins at the root.** -/
theorem isAbsolute_iff : p.isAbsolute = true ↔ root ∈ p.components := by
  refine ⟨root_mem_components, fun h => ?_⟩
  rw [components_eq_read] at h
  rcases chars : p.text.toList with _ | ⟨c, cs⟩ <;> rw [chars] at h
  · simp [Segments.split, read, ofSegment] at h
  · by_cases slash : c = '/'
    · simp [isAbsolute, chars, slash]
    · obtain ⟨s, ss, first⟩ := Segments.exists_split_cons slash cs
      rw [first, read, if_neg (by simp)] at h
      split at h
      · exact absurd (by simpa using h) (root_notMem_filterMap_ofSegment ss)
      · exact absurd h (root_notMem_filterMap_ofSegment _)

/-- **It also says whether the path has a text.** -/
theorem components_eq_nil_iff : p.components = [] ↔ p.text = "" := by
  rw [components_eq_read]
  rcases chars : p.text.toList with _ | ⟨c, cs⟩
  · exact iff_of_true rfl (by simpa using chars)
  · refine iff_of_false ?_ fun empty => by simp [empty] at chars
    by_cases slash : c = '/'
    · rw [slash, read_split_root]
      exact List.cons_ne_nil _ _
    · obtain ⟨s, ss, first⟩ := Segments.exists_split_cons slash cs
      rw [first, read, if_neg (by simp)]
      split
      · exact List.cons_ne_nil _ _
      · next here =>
        have counts : ¬ (c :: s = [] ∨ c :: s = ['.']) := by simpa using here
        rw [List.filterMap_cons_some (ofSegment_of_counts counts)]
        exact List.cons_ne_nil _ _

/-- **It also says which characters are in the text**, but for slashes and dots. -/
theorem mem_text_congr (same : p.components = q.components) {c : Char} (slash : c ≠ '/')
    (dot : c ≠ '.') : c ∈ p.text.toList ↔ c ∈ q.text.toList := by
  rw [Segments.mem_toList_iff_solid slash dot, Segments.mem_toList_iff_solid slash dot,
    p.solid_ofString, q.solid_ofString, same]

/-- **A path with slashes added at its end.** -/
def slashed (p : Path) : Nat → Path
  | 0 => p
  | n + 1 => ⟨(p.slashed n).text ++ "/"⟩

theorem size_slashed (p : Path) (n : Nat) :
    (p.slashed n).text.utf8ByteSize = p.text.utf8ByteSize + n := by
  induction n with
  | zero => rfl
  | succ n ih =>
    rw [slashed, String.utf8ByteSize_append, ih]
    rfl

theorem components_slashed (text : p.text ≠ "") (n : Nat) :
    (p.slashed n).components = p.components := by
  induction n with
  | zero => rfl
  | succ n ih =>
    have text' : (p.slashed n).text ≠ "" := by
      rwa [ne_eq, ← components_eq_nil_iff, ih, components_eq_nil_iff]
    rw [← ih, components_eq_read, components_eq_read, slashed]
    dsimp only
    rw [String.toList_append]
    refine (read_split_slash (by simpa using text') []).trans ?_
    simp [Segments.split, ofSegment]

end Path

namespace Disk

variable {d : Disk} {cwd l : Location}

section Walks

variable {here : Location} {segments segments' : List String} {found : Option Entry}
  {onLink : Location → List String → Except OsError (Location × Option Entry)}

theorem walks_of_solid_eq_nil {last : Bool} (none : Segments.solid segments = []) :
    d.Walks last onLink here segments here (d.get? here) := by
  induction segments with
  | nil => exact .done
  | cons segment rest ih =>
    by_cases blank : segment = "" ∨ segment = "."
    · rw [Segments.solid_cons_of_blank blank] at none
      exact .blank blank (ih none)
    · rw [Segments.solid_cons_of_solid blank] at none
      cases none

/-- The first segment that counts may as well be the first one. -/
theorem exists_rest_of_solid {last : Bool} {segment : String} {solids : List String}
    (first : Segments.solid segments = segment :: solids) :
    ∃ rest, Segments.solid rest = solids ∧ ∀ here l found,
      d.Walks last onLink here (segment :: rest) l found →
        d.Walks last onLink here segments l found := by
  induction segments with
  | nil => cases first
  | cons next more ih =>
    by_cases blank : next = "" ∨ next = "."
    · rw [Segments.solid_cons_of_blank blank] at first
      obtain ⟨rest, same, leads⟩ := ih first
      exact ⟨rest, same, fun here l found walks => .blank blank (leads here l found walks)⟩
    · rw [Segments.solid_cons_of_solid blank] at first
      obtain ⟨rfl, rfl⟩ := List.cons.inj first
      exact ⟨more, rfl, fun _ _ _ walks => walks⟩

/-- **A directory is found by the segments that count**, if following links finds directories so. -/
theorem Walks.respell (h : d.Walks true onLink here segments l found)
    (directory : found = some .directory)
    (link : ∀ here segments segments' l, Segments.solid segments = Segments.solid segments' →
      onLink here segments = .ok (l, some .directory) →
        onLink here segments' = .ok (l, some .directory))
    (same : Segments.solid segments = Segments.solid segments') :
    d.Walks true onLink here segments' l found := by
  induction h generalizing segments' with
  | done => exact walks_of_solid_eq_nil same.symm
  | blank blank _ ih =>
    rw [Segments.solid_cons_of_blank blank] at same
    exact ih directory same
  | up _ ih =>
    rw [Segments.solid_cons_of_solid (by decide)] at same
    obtain ⟨rest, same, leads⟩ := exists_rest_of_solid (d := d) same.symm
    exact leads _ _ _ (.up (ih directory same.symm))
  | enter name there _ ih =>
    rw [Segments.solid_cons_of_solid name.solid] at same
    obtain ⟨rest, same, leads⟩ := exists_rest_of_solid (d := d) same.symm
    exact leads _ _ _ (.enter name there (ih directory same.symm))
  | vacant => cases directory
  | file => cases directory
  | link => cases directory
  | follow name there _ on =>
    subst directory
    rw [Segments.solid_cons_of_solid name.solid] at same
    obtain ⟨rest, same, leads⟩ := exists_rest_of_solid (d := d) same.symm
    refine leads _ _ _ (.follow name there (by simp) (link _ _ _ _ ?_ on))
    rw [Segments.solid_append, Segments.solid_append, same]

theorem follow_respell {links : Nat}
    (h : d.follow true links here segments = .ok (l, some .directory))
    (same : Segments.solid segments = Segments.solid segments') :
    d.follow true links here segments' = .ok (l, some .directory) := by
  induction links generalizing here segments segments' l with
  | zero =>
    exact ((walks_of_walkWith h).respell rfl (fun _ _ _ _ _ h => by cases h) same).walkWith
  | succ links ih =>
    exact ((walks_of_walkWith h).respell rfl (fun _ _ _ _ same h => ih h same) same).walkWith

end Walks

variable {p q : Path}

/-- **Where one text of a path leads to a directory, any other does** that is not too long. -/
theorem resolve_respell (h : d.resolve cwd q = .ok (l, .directory))
    (same : p.components = q.components) (short : p.text.utf8ByteSize < pathLimit) :
    d.resolve cwd p = .ok (l, .directory) := by
  obtain ⟨⟨sound, text, -⟩, followed⟩ := locate_eq_ok_iff.1 (locate_of_resolve h)
  have solid : Segments.solid (Segments.ofString q.text) =
      Segments.solid (Segments.ofString p.text) := by
    rw [q.solid_ofString, p.solid_ofString, same]
  have absolute : p.isAbsolute = q.isAbsolute := by
    rw [Bool.eq_iff_iff, Path.isAbsolute_iff, Path.isAbsolute_iff, same]
  have text' : p.text ≠ "" := by
    rwa [ne_eq, ← Path.components_eq_nil_iff, same, Path.components_eq_nil_iff]
  have sound' : ¬ p.text.toList.contains '\x00' = true := by
    rw [List.contains_iff_mem] at sound ⊢
    rwa [Path.mem_text_congr same (by decide) (by decide)]
  have located' : d.locate cwd p true = .ok (l, some .directory) :=
    locate_eq_ok_iff.2
      ⟨⟨sound', text', Nat.not_le.2 short⟩, absolute ▸ follow_respell followed solid⟩
  rw [resolve, located']

end Disk

namespace World

variable {w : World} {p q : Path}

theorem kind_eq_directory_iff :
    files.kind p w = .ok .directory ↔ ∃ l, w.disk.resolve w.cwd p = .ok (l, .directory) := by
  unfold files
  dsimp only
  rcases w.disk.resolve w.cwd p with _ | ⟨l, _ | _ | _⟩ <;> simp

/-- **Where one text of a path leads to a directory, so does any other**, unless the system refuses
it for its length. -/
theorem kind_respell (h : files.kind q w = .ok .directory) (same : p.components = q.components) :
    files.kind p w = .ok .directory ∨ files.kind p w = .error .nameTooLong := by
  obtain ⟨l, found⟩ := kind_eq_directory_iff.1 h
  by_cases short : p.text.utf8ByteSize < Disk.pathLimit
  · exact .inl (kind_eq_directory_iff.2 ⟨l, Disk.resolve_respell found same short⟩)
  · -- the text has no other fault, since that of the other path has none
    obtain ⟨sound, text, -⟩ := (Disk.locate_eq_ok_iff.1 (Disk.locate_of_resolve found)).1
    rw [List.contains_iff_mem, ← Path.mem_text_congr same (by decide) (by decide),
      ← List.contains_iff_mem] at sound
    rw [ne_eq, ← Path.components_eq_nil_iff, ← same, Path.components_eq_nil_iff] at text
    right
    unfold files Disk.resolve Disk.locate
    simp only [if_neg sound, if_neg text, if_pos (Nat.le_of_not_lt short)]

end World

end Depot
