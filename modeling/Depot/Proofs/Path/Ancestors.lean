import Depot.Proofs.Path
import Mathlib.Data.List.Basic

/-!
# What is above a path

The ancestors of a path are cut out of its text, at the ends of its components. What is cut out
means the first components of the path (`components_of_mem_ancestors`). Above a name that is joined
to a path is the path itself, to the letter, and then whatever is above that (`ancestors_join`).
-/

namespace Depot

namespace Segments

/-- The characters that segments take up, each with a slash behind it. -/
def width : List (List Char) → Nat
  | [] => 0
  | s :: ss => s.length + 1 + width ss

theorem width_append (segments more : List (List Char)) :
    width (segments ++ more) = width segments + width more := by
  induction segments with
  | nil => exact (Nat.zero_add _).symm
  | cons s ss ih =>
    rw [List.cons_append, width, width, ih]
    omega

/-- Put together, they have no slash behind the last one. -/
theorem length_join {segments : List (List Char)} (some : segments ≠ []) :
    (join segments).length + 1 = width segments := by
  induction segments with
  | nil => exact absurd rfl some
  | cons s ss ih =>
    cases ss with
    | nil => rfl
    | cons t ss =>
      have := ih (by simp)
      rw [width, ← this, join, List.length_append, List.length_cons]
      omega

/-- A text takes up as much as its segments, but for that slash. -/
theorem width_split (cs : List Char) : width (split cs) = cs.length + 1 := by
  rw [← length_join (split_ne_nil cs), join_split]

theorem join_append {segments more : List (List Char)} (some : segments ≠ [])
    (more_ne : more ≠ []) : join (segments ++ more) = join segments ++ '/' :: join more := by
  induction segments with
  | nil => exact absurd rfl some
  | cons s ss ih =>
    cases ss with
    | nil =>
      cases more with
      | nil => exact absurd rfl more_ne
      | cons t more => rfl
    | cons t ss =>
      have := ih (by simp)
      simp only [List.cons_append, join] at this ⊢
      rw [this, List.append_assoc, List.cons_append]

/-- **A segment ends at the end of the text or before a slash.** -/
theorem exists_of_split {cs t : List Char} {before after : List (List Char)}
    (h : split cs = before ++ t :: after) :
    ∃ front back, cs = front ++ back ∧ front.length = width before + t.length ∧
      (back = [] ∨ ∃ ds, back = '/' :: ds) := by
  have length := length_join (show before ++ [t] ≠ [] by simp)
  rw [width_append, width, width] at length
  have whole := join_split cs
  rw [h, ← List.singleton_append, ← List.append_assoc] at whole
  refine ⟨join (before ++ [t]), ?_⟩
  cases after with
  | nil => exact ⟨[], by rw [← whole, List.append_nil, List.append_nil], by omega, .inl rfl⟩
  | cons u after =>
    rw [join_append (by simp) (by simp)] at whole
    exact ⟨_, whole.symm, by omega, .inr ⟨_, rfl⟩⟩

end Segments

namespace Path

open Component

variable {p q dir : Path} {name : String}

/-! ## Where components end -/

theorem bodySpans_append (start : Nat) (segments more : List (List Char)) :
    bodySpans start (segments ++ more) =
      bodySpans start segments ++ bodySpans (start + Segments.width segments) more := by
  induction segments generalizing start with
  | nil => rfl
  | cons s ss ih =>
    have behind : start + Segments.width (s :: ss) =
        start + s.length + 1 + Segments.width ss := by
      rw [Segments.width]
      omega
    rw [List.cons_append, bodySpans, bodySpans, behind]
    cases ofSegment s <;> simp [ih]

/-- **What follows a slash ends behind it.** -/
theorem spansOf_append_slash {cs : List Char} (text : cs ≠ []) (ds : List Char) :
    spansOf (cs ++ '/' :: ds) = spansOf cs ++ bodySpans (cs.length + 1) (Segments.split ds) := by
  have length := Segments.width_split cs
  have nonempty := split_ne_empty text
  unfold spansOf
  rw [Segments.split_append_slash]
  rcases split : Segments.split cs with _ | ⟨s, ss⟩
  · exact absurd split (Segments.split_ne_nil cs)
  · rw [split] at length nonempty
    rw [Segments.width] at length
    dsimp only [List.cons_append]
    by_cases empty : s = []
    · have some : ss ≠ [] := by
        rintro rfl
        exact nonempty (by rw [empty])
      rw [if_pos ⟨empty, by simp [some]⟩, if_pos ⟨empty, some⟩, bodySpans_append,
        List.cons_append]
      rw [empty, List.length_nil] at length
      rw [← length, Nat.zero_add]
    · have body (ss : List (List Char)) : ¬(s = [] ∧ ss ≠ []) := fun h => empty h.1
      rw [if_neg (body _), if_neg (body _)]
      by_cases here : s = ['.']
      · rw [if_pos here, if_pos here, bodySpans_append, List.cons_append]
        rw [here] at length
        rw [← length]
        rfl
      · rw [if_neg here, if_neg here, ← List.cons_append, bodySpans_append, Segments.width,
          length, Nat.zero_add]

theorem exists_of_mem_bodySpans {start e : Nat} {c : Component} {segments : List (List Char)}
    (h : (c, e) ∈ bodySpans start segments) :
    ∃ before s after, segments = before ++ s :: after ∧
      e = start + Segments.width before + s.length := by
  induction segments generalizing start with
  | nil => cases h
  | cons s ss ih =>
    have further (h : (c, e) ∈ bodySpans (start + s.length + 1) ss) :
        ∃ before t after, s :: ss = before ++ t :: after ∧
          e = start + Segments.width before + t.length := by
      obtain ⟨before, t, after, rfl, rfl⟩ := ih h
      refine ⟨s :: before, t, after, rfl, ?_⟩
      rw [Segments.width]
      omega
    rw [bodySpans] at h
    cases stands : ofSegment s with
    | none =>
      rw [stands] at h
      exact further h
    | some d =>
      rw [stands] at h
      rcases List.mem_cons.1 h with here | h
      · obtain ⟨rfl, rfl⟩ := Prod.mk.inj here
        exact ⟨[], s, ss, rfl, rfl⟩
      · exact further h

/-- **A component ends at the end of the text or before a slash**, unless it is the leading slash
itself. -/
theorem exists_of_mem_spansOf {cs : List Char} {c : Component} {e : Nat} (h : (c, e) ∈ spansOf cs) :
    (e = 1 ∧ ∃ ds, cs = '/' :: ds) ∨
      ∃ before after, cs = before ++ after ∧ e = before.length ∧
        (after = [] ∨ ∃ ds, after = '/' :: ds) := by
  unfold spansOf at h
  rcases split : Segments.split cs with _ | ⟨s, ss⟩
  · exact absurd split (Segments.split_ne_nil cs)
  · rw [split] at h
    have ended {before after : List (List Char)} {t : List Char}
        (segments : s :: ss = before ++ t :: after)
        (here : e = Segments.width before + t.length) :
        ∃ before after, cs = before ++ after ∧ e = before.length ∧
          (after = [] ∨ ∃ ds, after = '/' :: ds) := by
      obtain ⟨front, back, whole, length, ends⟩ := Segments.exists_of_split (split.trans segments)
      exact ⟨front, back, whole, here.trans length.symm, ends⟩
    dsimp only at h
    split at h
    · next leading =>
      obtain ⟨rfl, some⟩ := leading
      rcases List.mem_cons.1 h with here | h
      · obtain ⟨-, rfl⟩ := Prod.mk.inj here
        refine .inl ⟨rfl, Segments.join ss, ?_⟩
        rw [← Segments.join_split cs, split, ← List.singleton_append,
          Segments.join_append (by simp) some]
        rfl
      · obtain ⟨before, t, after, rfl, here⟩ := exists_of_mem_bodySpans h
        refine .inr (ended (List.cons_append ..).symm ?_)
        rw [here, Segments.width, List.length_nil]
    · split at h
      · next alone =>
        subst alone
        rcases List.mem_cons.1 h with here | h
        · obtain ⟨-, rfl⟩ := Prod.mk.inj here
          exact .inr (ended (List.nil_append _).symm rfl)
        · obtain ⟨before, t, after, rfl, here⟩ := exists_of_mem_bodySpans h
          exact .inr (ended (List.cons_append ..).symm here)
      · obtain ⟨before, t, after, segments, here⟩ := exists_of_mem_bodySpans h
        exact .inr (ended segments (by rw [here, Nat.zero_add]))

theorem le_length_of_mem_spans {x : Component × Nat} (h : x ∈ p.spans) :
    x.2 ≤ p.text.toList.length := by
  rcases exists_of_mem_spansOf (c := x.1) (e := x.2) h with ⟨one, ds, text⟩ |
    ⟨before, after, text, here, -⟩
  · rw [one, text, List.length_cons]
    omega
  · rw [here, text, List.length_append]
    omega

/-! ## What is cut out -/

/-- Where a text is cut last: at its start, if the path is a relative one. -/
def lastCut : List (Component × Nat) → List Nat
  | [] => []
  | (root, _) :: _ => []
  | _ :: _ => [0]

theorem eq_zero_of_mem_lastCut {e : Nat} {spans : List (Component × Nat)} (h : e ∈ lastCut spans) :
    e = 0 := by
  unfold lastCut at h
  split at h
  · cases h
  · cases h
  · exact List.mem_singleton.1 h

/-- Only the first component says whether a text is cut at its start. -/
theorem lastCut_append {spans : List (Component × Nat)} (some : spans ≠ [])
    (more : List (Component × Nat)) : lastCut (spans ++ more) = lastCut spans := by
  rcases spans with _ | ⟨⟨c, e⟩, spans⟩
  · exact absurd rfl some
  · cases c <;> rfl

/-- The path itself comes first, and then its text is cut, from the back. -/
theorem ancestors_eq (p : Path) :
    p.ancestors = p :: (p.spans.dropLast.reverse.map Prod.snd ++ lastCut p.spans).map p.cut := by
  unfold ancestors lastCut
  rcases p.spans with _ | ⟨⟨c, e⟩, spans⟩
  · rfl
  · cases c <;> rfl

/-- **What a path means begins with what is cut out at the end of a component.** -/
theorem components_cut {x : Component × Nat} (h : x ∈ p.spans) :
    (p.cut x.2).components <+: p.components := by
  have pieces (cs : List Char) : (Path.mk (String.ofList cs)).components =
      (spansOf cs).map Prod.fst := by
    rw [components, spans, String.toList_ofList]
  have whole : p.components = (spansOf p.text.toList).map Prod.fst := rfl
  rw [cut, pieces, whole]
  rcases exists_of_mem_spansOf (c := x.1) (e := x.2) h with ⟨one, ds, text⟩ |
    ⟨before, after, text, here, more⟩
  · rw [one, text, List.take_succ_cons, List.take_zero, ← pieces, ← pieces, components_eq_read,
      components_eq_read, String.toList_ofList, String.toList_ofList, read_split_root,
      read_split_root]
    exact List.cons_prefix_cons.2 ⟨rfl, List.nil_prefix⟩
  · rw [text, here, List.take_left]
    rcases more with rfl | ⟨ds, rfl⟩
    · simp only [List.append_nil, List.prefix_refl]
    · by_cases empty : before = []
      · subst empty
        exact List.nil_prefix
      · rw [spansOf_append_slash empty, List.map_append]
        exact List.prefix_append _ _

/-- **What is above a path means its first components.** -/
theorem components_of_mem_ancestors (h : dir ∈ p.ancestors) : dir.components <+: p.components := by
  rw [ancestors_eq] at h
  rcases List.mem_cons.1 h with rfl | h
  · exact List.prefix_refl _
  · obtain ⟨e, he, rfl⟩ := List.mem_map.1 h
    rcases List.mem_append.1 he with he | he
    · obtain ⟨x, hx, rfl⟩ := List.mem_map.1 he
      exact components_cut (List.dropLast_subset _ (List.mem_reverse.1 hx))
    · rw [eq_zero_of_mem_lastCut he]
      exact List.nil_prefix

/-! ## What is above a joined name -/

/-- **A path that ends in a name**: its last component ends where the text does, not before a slash
or a `.`. -/
structure EndsInName (p : Path) : Prop where
  /-- The last component ends with the text. -/
  spans : ∃ before c, p.spans = before ++ [(c, p.text.toList.length)]
  /-- The text does not end in a slash. -/
  slash : p.text.toList.getLast? ≠ some '/'

/-- A plain name that begins a text or comes after a slash is its last component, to the end. -/
theorem exists_spansOf_of_plain (plain : Plain name) {stem : List Char}
    (begins : stem = [] ∨ ∃ chars, stem = chars ++ ['/']) :
    ∃ before c, spansOf (stem ++ name.toList) = before ++ [(c, (stem ++ name.toList).length)] := by
  have one : Segments.split name.toList = [name.toList] :=
    Segments.split_of_slash_notMem plain.2.2.2
  have alone (start : Nat) : bodySpans start [name.toList] =
      [(normal name, start + name.toList.length)] := by
    rw [bodySpans, ofSegment_of_plain plain]
    rfl
  rcases begins with rfl | ⟨chars, rfl⟩
  · refine ⟨[], normal name, ?_⟩
    rw [List.nil_append, spansOf, one]
    dsimp only
    rw [if_neg fun e => plain.1 e.1, if_neg plain.2.1, alone, Nat.zero_add]
    rfl
  · rw [List.append_assoc, List.singleton_append]
    have length : (chars ++ '/' :: name.toList).length = chars.length + 1 + name.toList.length := by
      rw [List.length_append, List.length_cons]
      omega
    rw [length]
    rcases chars with _ | ⟨d, chars⟩
    · -- the slash is the root, a component of its own
      refine ⟨[(root, 1)], normal name, ?_⟩
      have split : Segments.split ('/' :: name.toList) = [[], name.toList] := by
        simp [Segments.split, one]
      rw [List.nil_append, spansOf, split]
      dsimp only
      rw [if_pos ⟨rfl, by simp⟩, alone]
      rfl
    · refine ⟨spansOf (d :: chars), normal name, ?_⟩
      rw [spansOf_append_slash (by simp), one, alone]

theorem endsInName_join (p : Path) (plain : Plain name) : (p.join name).EndsInName := by
  obtain ⟨stem, text, begins⟩ := p.exists_toList_join plain.2.2.2
  refine ⟨?_, ?_⟩
  · unfold spans
    rw [text]
    exact exists_spansOf_of_plain plain begins
  · rw [text, List.getLast?_append_of_ne_nil _ plain.1]
    exact fun ends => plain.2.2.2 (List.mem_of_getLast? ends)

theorem EndsInName.toList_ne_nil (ends : q.EndsInName) : q.text.toList ≠ [] := by
  intro empty
  obtain ⟨before, c, spans⟩ := ends.spans
  have nothing : q.spans = [] := by
    unfold Path.spans
    rw [empty]
    rfl
  rw [nothing] at spans
  simp at spans

theorem EndsInName.toList_join (ends : q.EndsInName) (plain : Plain name) :
    (q.join name).text.toList = q.text.toList ++ '/' :: name.toList := by
  unfold join
  rw [isAbsolute_of_slash_notMem plain.2.2.2, if_neg (by simp),
    if_neg (by simpa [ends.slash] using ends.toList_ne_nil)]
  rw [String.toList_append, String.toList_append, List.append_assoc]
  rfl

/-- A name that is joined is one more component, and those before it end where they did. -/
theorem EndsInName.spans_join (ends : q.EndsInName) (plain : Plain name) :
    (q.join name).spans =
      q.spans ++ [(normal name, q.text.toList.length + 1 + name.toList.length)] := by
  unfold Path.spans
  rw [ends.toList_join plain, spansOf_append_slash ends.toList_ne_nil,
    Segments.split_of_slash_notMem plain.2.2.2, bodySpans, ofSegment_of_plain plain]
  rfl

/-- **Above a joined name is the path that it was joined to**, and whatever is above that. -/
theorem ancestors_join (ends : q.EndsInName) (plain : Plain name) :
    (q.join name).ancestors = q.join name :: q.ancestors := by
  obtain ⟨before, c, spans⟩ := ends.spans
  -- whatever is cut out of the path is cut out of the longer text
  have cut_eq {e : Nat} (within : e ≤ q.text.toList.length) : (q.join name).cut e = q.cut e := by
    unfold cut
    rw [ends.toList_join plain, List.take_append_of_le_length within]
  have cut_whole : q.cut q.text.toList.length = q := by
    unfold cut
    rw [List.take_length, String.ofList_toList]
  have some : q.spans ≠ [] := by simp [spans]
  have ended : ∀ e ∈ q.spans.reverse.map Prod.snd ++ lastCut q.spans,
      e ≤ q.text.toList.length := by
    intro e he
    rcases List.mem_append.1 he with he | he
    · obtain ⟨x, hx, rfl⟩ := List.mem_map.1 he
      exact le_length_of_mem_spans (List.mem_reverse.1 hx)
    · rw [eq_zero_of_mem_lastCut he]
      exact Nat.zero_le _
  rw [ancestors_eq, ancestors_eq q, ends.spans_join plain, List.dropLast_concat,
    lastCut_append some, List.map_congr_left fun e he => cut_eq (ended e he), spans,
    List.reverse_append, List.reverse_singleton, List.singleton_append, List.map_cons,
    List.cons_append, List.map_cons, cut_whole, List.dropLast_concat]

end Path

end Depot
