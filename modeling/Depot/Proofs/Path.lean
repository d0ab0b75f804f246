import Depot.Path

/-!
# The components of joined paths

What a path means is read off the segments of its text, so joining paths is appending their
segments: what is joined to a path keeps the path's components in front (`components_join`). A name
that stands as a component in some path is a plain name, and plain names written with slashes
between them are read back as they are (`components_of_plain`).
-/

namespace Depot

namespace Segments

theorem split_eq_splitOn (cs : List Char) : split cs = cs.splitOn '/' := by
  induction cs with
  | nil => rfl
  | cons c cs ih =>
    rw [split, ih, List.splitOn_cons_eq_if_modifyHead]
    by_cases h : c = '/'
    · simp [h]
    · rcases found : cs.splitOn '/' with _ | ⟨s, ss⟩
      · exact absurd found (List.splitOn_ne_nil '/' cs)
      · simp [h]

theorem split_append_slash (a b : List Char) : split (a ++ '/' :: b) = split a ++ split b := by
  simp only [split_eq_splitOn, List.splitOn_append_cons_self]

theorem split_of_slash_notMem {cs : List Char} (h : '/' ∉ cs) : split cs = [cs] := by
  rw [split_eq_splitOn, List.splitOn_eq_singleton h]

/-- Segments with slashes between them are cut apart again. -/
theorem split_intercalate {names : List String} (h : ∀ name ∈ names, '/' ∉ name.toList)
    (some : names ≠ []) : split ("/".intercalate names).toList = names.map String.toList := by
  rw [split_eq_splitOn, String.toList_intercalate]
  refine List.splitOn_intercalate '/' (fun s hs => ?_) (by simpa using some)
  obtain ⟨name, hn, rfl⟩ := List.mem_map.1 hs
  exact h name hn

theorem ofString_intercalate {names : List String} (h : ∀ name ∈ names, '/' ∉ name.toList)
    (some : names ≠ []) : ofString ("/".intercalate names) = names := by
  rw [ofString, split_intercalate h some, List.map_map]
  simp [Function.comp_def]

/-- Segments that were cut at slashes make up the text again. -/
theorem intercalate_split (cs : List Char) :
    "/".intercalate ((split cs).map String.ofList) = String.ofList cs := by
  refine String.toList_inj.1 ?_
  rw [String.toList_intercalate, List.map_map, split_eq_splitOn]
  simp [Function.comp_def, List.intercalate_splitOn]

/-- The segments of a string, as characters, are those of its characters. -/
@[simp] theorem map_toList_ofString (text : String) :
    (ofString text).map String.toList = split text.toList := by
  simp [ofString, Function.comp_def]

theorem mem_of_mem_split {cs s : List Char} {c : Char} (hs : s ∈ split cs) (hc : c ∈ s) :
    c ∈ cs := by
  induction cs generalizing s with
  | nil =>
    obtain rfl := List.mem_singleton.1 hs
    cases hc
  | cons d cs ih =>
    unfold split at hs
    split at hs
    · rcases List.mem_cons.1 hs with rfl | hs
      · cases hc
      · exact List.mem_cons_of_mem d (ih hs hc)
    · rcases rest : split cs with _ | ⟨t, ts⟩
      · exact absurd rest (split_ne_nil cs)
      · rw [rest] at hs ih
        rcases List.mem_cons.1 hs with rfl | hs
        · rcases List.mem_cons.1 hc with rfl | hc
          · exact List.mem_cons_self
          · exact List.mem_cons_of_mem d (ih List.mem_cons_self hc)
        · exact List.mem_cons_of_mem d (ih (List.mem_cons_of_mem t hs) hc)

end Segments

namespace Component

/-- **A plain name**: one that a path can have as a component. -/
def Plain (name : String) : Prop :=
  name.toList ≠ [] ∧ name.toList ≠ ['.'] ∧ name.toList ≠ ['.', '.'] ∧ '/' ∉ name.toList

theorem ofSegment_of_plain {name : String} (h : Plain name) :
    ofSegment name.toList = some (normal name) := by
  obtain ⟨nonempty, here, up, -⟩ := h
  simp [ofSegment, nonempty, here, up]

/-- What a segment stands for, if it is a name, is the segment, and plain. -/
theorem plain_of_ofSegment {segment : List Char} {name : String} (slash : '/' ∉ segment)
    (h : ofSegment segment = some (normal name)) : Plain name := by
  unfold ofSegment at h
  split at h
  · cases h
  · next empty =>
    split at h
    · cases h
    · next up =>
      obtain rfl : String.ofList segment = name := by simpa using h
      simp_all [Plain]

end Component

namespace Path

open Component

/-- **The components that segments stand for.** The first segment may say where to begin. -/
def read : List (List Char) → List Component
  | [] => []
  | s :: ss =>
    if s = [] ∧ ss ≠ [] then root :: ss.filterMap ofSegment
    else if s = ['.'] then here :: ss.filterMap ofSegment
    else (s :: ss).filterMap ofSegment

theorem map_fst_bodySpans (start : Nat) (segments : List (List Char)) :
    (bodySpans start segments).map Prod.fst = segments.filterMap ofSegment := by
  induction segments generalizing start with
  | nil => rfl
  | cons s ss ih =>
    unfold bodySpans
    cases h : ofSegment s with
    | none => simp [h, ih]
    | some c => simp [h, ih]

/-- The components of a path are those of its segments. -/
theorem components_eq_read (p : Path) : p.components = read (Segments.split p.text.toList) := by
  unfold components spans spansOf read
  cases Segments.split p.text.toList with
  | nil => rfl
  | cons s ss =>
    dsimp only
    split
    · simp [map_fst_bodySpans]
    · split <;> simp [map_fst_bodySpans]

/-- Segments that follow others name further components. -/
theorem read_append {segments : List (List Char)} (some : segments ≠ []) (text : segments ≠ [[]])
    (more : List (List Char)) :
    read (segments ++ more) = read segments ++ more.filterMap ofSegment := by
  cases segments with
  | nil => exact absurd rfl some
  | cons s ss =>
    rw [List.cons_append, read, read]
    by_cases empty : s = []
    · have more_ne : ss ≠ [] := by rintro rfl; exact text (by rw [empty])
      simp [empty, more_ne]
    · simp only [empty, false_and, if_false]
      split
      · simp
      · rw [← List.cons_append, List.filterMap_append]

/-- A text that is not empty has segments that name something to begin with. -/
theorem split_ne_empty {cs : List Char} (h : cs ≠ []) : Segments.split cs ≠ [[]] := by
  intro e
  have := Segments.join_split cs
  rw [e] at this
  exact h this.symm

theorem read_split_slash {a : List Char} (h : a ≠ []) (b : List Char) :
    read (Segments.split (a ++ '/' :: b)) =
      read (Segments.split a) ++ (Segments.split b).filterMap ofSegment := by
  rw [Segments.split_append_slash]
  exact read_append (Segments.split_ne_nil a) (split_ne_empty h) _

/-- What follows the leading slash names the components of an absolute path. -/
theorem read_split_root (b : List Char) :
    read (Segments.split ('/' :: b)) = root :: (Segments.split b).filterMap ofSegment := by
  have split : Segments.split ('/' :: b) = [] :: Segments.split b := by simp [Segments.split]
  rw [split, read, if_pos ⟨rfl, Segments.split_ne_nil b⟩]

theorem isAbsolute_of_slash_notMem {name : String} (slash : '/' ∉ name.toList) :
    (Path.mk name).isAbsolute = false := by
  unfold isAbsolute
  rcases chars : name.toList with _ | ⟨c, cs⟩
  · rfl
  · have : c ≠ '/' := fun e => slash (by simp [chars, e])
    simpa using this

/-- **The text of a joined name** ends in the name, which begins it or comes after a slash. -/
theorem exists_toList_join (p : Path) {name : String} (slash : '/' ∉ name.toList) :
    ∃ stem, (p.join name).text.toList = stem ++ name.toList ∧
      (stem = [] ∨ ∃ chars, stem = chars ++ ['/']) := by
  unfold join
  rw [isAbsolute_of_slash_notMem slash, if_neg (by simp)]
  split
  · next h =>
    refine ⟨p.text.toList, String.toList_append, ?_⟩
    rcases h with empty | ends
    · exact .inl (by rw [empty]; rfl)
    · exact .inr (List.getLast?_eq_some_iff.1 ends)
  · refine ⟨p.text.toList ++ ['/'], ?_, .inr ⟨_, rfl⟩⟩
    rw [String.toList_append, String.toList_append]
    rfl

/-- **Joining a relative path appends its components.** -/
theorem components_join {p : Path} {q : String} (text : p.text ≠ "")
    (relative : (Path.mk q).isAbsolute = false) :
    (p.join q).components = p.components ++ (Segments.split q.toList).filterMap ofSegment := by
  have chars : p.text.toList ≠ [] := by simpa using text
  rw [components_eq_read, components_eq_read, join, relative, if_neg (by simp)]
  by_cases ends : p.text.toList.getLast? = some '/'
  · rw [if_pos (.inr ends)]
    obtain ⟨stem, hs⟩ := List.getLast?_eq_some_iff.1 ends
    dsimp only
    rw [String.toList_append, hs, List.append_assoc]
    show read (Segments.split (stem ++ '/' :: q.toList)) =
      read (Segments.split (stem ++ '/' :: [])) ++ _
    -- the slash at the end names nothing by itself, but it may be the root
    rcases stem.eq_nil_or_concat with rfl | ⟨stem, last, rfl⟩
    · simp only [List.nil_append, read_split_root]
      simp [Segments.split, ofSegment]
    · rw [read_split_slash (by simp), read_split_slash (by simp)]
      simp [Segments.split, ofSegment]
  · rw [if_neg (by simp [text, ends])]
    dsimp only
    rw [String.toList_append, String.toList_append, List.append_assoc]
    exact read_split_slash chars q.toList

/-- Joining to two texts of one path gives one path. -/
theorem components_join_congr {p p' : Path} (same : p.components = p'.components)
    (text : p.text ≠ "") (text' : p'.text ≠ "") (q : String) :
    (p.join q).components = (p'.join q).components := by
  by_cases absolute : (Path.mk q).isAbsolute = true
  · rw [join, if_pos absolute, join, if_pos absolute]
  · rw [Bool.not_eq_true] at absolute
    rw [components_join text absolute, components_join text' absolute, same]

/-- A path that is joined to another is not empty, unless both are. -/
theorem text_join_ne_empty {p : Path} {q : String} (text : p.text ≠ "")
    (relative : (Path.mk q).isAbsolute = false) : (p.join q).text ≠ "" := by
  unfold join
  rw [relative, if_neg (by simp)]
  split <;> simp [text]

theorem root_mem_components {p : Path} (h : p.isAbsolute = true) : root ∈ p.components := by
  unfold isAbsolute at h
  rw [components_eq_read]
  cases chars : p.text.toList with
  | nil => simp [chars] at h
  | cons c cs =>
    obtain rfl : c = '/' := by simpa [chars] using h
    rw [read_split_root]
    exact List.mem_cons_self

/-- **A name that is a component of a path is plain.** -/
theorem plain_of_mem_components {p : Path} {name : String} (h : normal name ∈ p.components) :
    Plain name := by
  have body {segments : List (List Char)} (within : ∀ s ∈ segments, '/' ∉ s)
      (h : normal name ∈ segments.filterMap ofSegment) : Plain name := by
    obtain ⟨s, hs, e⟩ := List.mem_filterMap.1 h
    exact plain_of_ofSegment (within s hs) e
  have within (s : List Char) (hs : s ∈ Segments.split p.text.toList) : '/' ∉ s :=
    Segments.slash_notMem_of_mem_split hs
  rw [components_eq_read] at h
  cases found : Segments.split p.text.toList with
  | nil => exact absurd found (Segments.split_ne_nil _)
  | cons s ss =>
    rw [found] at h within
    have rest : ∀ t ∈ ss, '/' ∉ t := fun t ht => within t (List.mem_cons_of_mem _ ht)
    rw [read] at h
    split at h
    · exact body rest (by simpa using h)
    · split at h
      · exact body rest (by simpa using h)
      · exact body within h

/-- The segments of plain names stand for the names. -/
theorem filterMap_ofSegment_of_plain {names : List String} (h : ∀ name ∈ names, Plain name) :
    (names.map String.toList).filterMap ofSegment = names.map normal := by
  induction names with
  | nil => rfl
  | cons name names ih =>
    rw [List.forall_mem_cons] at h
    simp [ofSegment_of_plain h.1, ih h.2]

/-- **Plain names with slashes between them** are read back as they are. -/
theorem components_of_plain {names : List String} (h : ∀ name ∈ names, Plain name) :
    (Path.mk ("/".intercalate names)).components = names.map normal := by
  rw [components_eq_read]
  cases names with
  | nil => rfl
  | cons name names =>
    have split : Segments.split ("/".intercalate (name :: names)).toList =
        name.toList :: names.map String.toList :=
      Segments.split_intercalate (fun n hn => (h n hn).2.2.2) (by simp)
    obtain ⟨nonempty, here, -, -⟩ := h name List.mem_cons_self
    rw [split, read, if_neg (fun e => nonempty e.1), if_neg here]
    exact filterMap_ofSegment_of_plain h

end Path

end Depot
