import Depot.Proofs.Path.Ancestors

/-!
# What is directly above a path

The path that is directly above another is cut out of its text at the end of the last component but
one, so it has all components but the last (`components_of_parent?`), and what is above it is what
is above the other (`spans_of_parent?`). For that it matters that components end one behind the
other: what is cut out at the end of one has the components that end no later (`spans_cut`).
-/

namespace Depot.Path

open Component

variable {p q : Path}

/-! ## Ends -/

/-- **Components end one behind the other**, and behind where their segments begin. -/
theorem bodySpans_increasing (start : Nat) (segments : List (List Char)) :
    (∀ x ∈ bodySpans start segments, start < x.2) ∧
      (bodySpans start segments).Pairwise fun x y => x.2 < y.2 := by
  induction segments generalizing start with
  | nil => exact ⟨by simp [bodySpans], List.Pairwise.nil⟩
  | cons s ss ih =>
    obtain ⟨behind, increasing⟩ := ih (start + s.length + 1)
    unfold bodySpans
    split
    · exact ⟨fun x hx => by have := behind x hx; omega, increasing⟩
    · next c stands =>
      have some : 0 < s.length := by
        rcases s with _ | ⟨ch, s⟩
        · cases stands
        · simp
      refine ⟨fun x hx => ?_, List.pairwise_cons.2 ⟨fun x hx => ?_, increasing⟩⟩
      · rcases List.mem_cons.1 hx with rfl | hx
        · show start < start + s.length
          omega
        · have := behind x hx
          omega
      · have := behind x hx
        show start + s.length < x.2
        omega

theorem spansOf_increasing (cs : List Char) :
    (∀ x ∈ spansOf cs, 0 < x.2) ∧ (spansOf cs).Pairwise fun x y => x.2 < y.2 := by
  -- a first component that ends at 1 and others that begin behind it
  have first {c : Component} {start : Nat} (behind : 1 ≤ start) (segments : List (List Char)) :
      (∀ x ∈ (c, 1) :: bodySpans start segments, 0 < x.2) ∧
        ((c, 1) :: bodySpans start segments).Pairwise fun x y => x.2 < y.2 := by
    obtain ⟨more, increasing⟩ := bodySpans_increasing start segments
    have later (x : Component × Nat) (hx : x ∈ bodySpans start segments) : 1 < x.2 :=
      Nat.lt_of_le_of_lt behind (more x hx)
    exact ⟨List.forall_mem_cons.2 ⟨Nat.one_pos, fun x hx => Nat.lt_of_succ_lt (later x hx)⟩,
      List.pairwise_cons.2 ⟨later, increasing⟩⟩
  unfold spansOf
  split
  · exact ⟨by simp, List.Pairwise.nil⟩
  · split
    · exact first (Nat.le_refl 1) _
    · split
      · exact first (Nat.le_succ 1) _
      · exact bodySpans_increasing 0 _

/-- The components that end no later than one of them are those up to it. -/
theorem filter_spans {front back : List (Component × Nat)} {x : Component × Nat}
    (whole : p.spans = front ++ x :: back) : p.spans.filter (·.2 ≤ x.2) = front ++ [x] := by
  have increasing := (spansOf_increasing p.text.toList).2
  rw [show spansOf p.text.toList = p.spans from rfl, whole, List.pairwise_append] at increasing
  obtain ⟨-, later, earlier⟩ := increasing
  have before : front.filter (·.2 ≤ x.2) = front :=
    List.filter_eq_self.2 fun y hy => by
      simpa using Nat.le_of_lt (earlier y hy x List.mem_cons_self)
  have behind : back.filter (·.2 ≤ x.2) = [] :=
    List.filter_eq_nil_iff.2 fun y hy => by simpa using List.rel_of_pairwise_cons later hy
  rw [whole, List.filter_append, before, List.filter_cons_of_pos (by simp), behind]

/-- **What is cut out at the end of a component** has the components that end no later. -/
theorem spans_cut {x : Component × Nat} (h : x ∈ p.spans) :
    (p.cut x.2).spans = p.spans.filter (·.2 ≤ x.2) := by
  have pieces : (p.cut x.2).spans = spansOf (p.text.toList.take x.2) := by
    rw [spans, cut, String.toList_ofList]
  rw [pieces]
  rcases exists_of_mem_spansOf (c := x.1) (e := x.2) h with ⟨one, ds, text⟩ |
    ⟨before, after, text, here, more⟩
  · rw [spans, text, one]
    -- the leading slash is a component, and no other ends as soon
    have leading : spansOf ('/' :: ds) = (root, 1) :: bodySpans 1 (Segments.split ds) := by
      have split : Segments.split ('/' :: ds) = [] :: Segments.split ds := by simp [Segments.split]
      rw [spansOf, split]
      dsimp only
      rw [if_pos ⟨rfl, Segments.split_ne_nil ds⟩]
    have behind : (bodySpans 1 (Segments.split ds)).filter (·.2 ≤ 1) = [] :=
      List.filter_eq_nil_iff.2 fun y hy => by
        simpa using (bodySpans_increasing 1 (Segments.split ds)).1 y hy
    rw [leading, List.filter_cons_of_pos (by simp), behind]
    rfl
  · have within : (spansOf before).filter (·.2 ≤ x.2) = spansOf before :=
      List.filter_eq_self.2 fun y hy => by
        have := le_length_of_mem_spans (p := ⟨String.ofList before⟩) (x := y)
          (by rwa [spans, String.toList_ofList])
        simpa [here] using this
    rw [spans, text, here, List.take_left, ← here]
    rcases more with rfl | ⟨ds, rfl⟩
    · rw [List.append_nil, within]
    · have some : before ≠ [] := by
        rintro rfl
        have := (spansOf_increasing p.text.toList).1 x h
        simp [here] at this
      have behind : (bodySpans (before.length + 1) (Segments.split ds)).filter (·.2 ≤ x.2) = [] :=
        List.filter_eq_nil_iff.2 fun y hy => by
          have := (bodySpans_increasing (before.length + 1) (Segments.split ds)).1 y hy
          simp only [decide_eq_true_eq, here]
          omega
      rw [spansOf_append_slash some, List.filter_append, within, behind, List.append_nil]

/-! ## Parents -/

theorem cut_cut {n m : Nat} (le : n ≤ m) : (p.cut m).cut n = p.cut n := by
  simp [cut, List.take_take, Nat.min_eq_left le]

/-- **What is directly above a path** has all its components but the last, and the same above it. -/
theorem spans_of_parent? (above : p.parent? = some q) :
    q.spans = p.spans.dropLast ∧ p.ancestors = p :: q.ancestors := by
  unfold parent? at above
  rw [ancestors_eq, List.tail_cons] at above
  rw [ancestors_eq p]
  rcases p.spans.eq_nil_or_concat' with empty | ⟨front, y, whole⟩
  · rw [empty] at above
    cases above
  · rcases front.eq_nil_or_concat' with rfl | ⟨front, x, rfl⟩
    · -- a path of one component is cut at its start, if at all
      have start : lastCut ([] ++ [y]) = [] ∨ lastCut ([] ++ [y]) = [0] := by
        obtain ⟨c, e⟩ := y
        cases c <;> simp [lastCut]
      rw [whole] at above ⊢
      rcases start with start | start <;> rw [start] at above ⊢
      · cases above
      · obtain rfl : p.cut 0 = q := Option.some.inj above
        have none : (p.cut 0).spans = [] := by
          rw [cut, List.take_zero]
          rfl
        exact ⟨none, by rw [ancestors_eq (p.cut 0), none]; rfl⟩
    · have mem : x ∈ p.spans := by simp [whole]
      have last : p.spans = front ++ x :: [y] := by simp [whole]
      have upTo : (p.cut x.2).spans = front ++ [x] := (spans_cut mem).trans (filter_spans last)
      have reversed : (p.spans.dropLast.reverse.map Prod.snd) =
          x.2 :: front.reverse.map Prod.snd := by
        simp [whole]
      rw [reversed] at above ⊢
      obtain rfl : p.cut x.2 = q := Option.some.inj above
      refine ⟨by simp [upTo, whole], ?_⟩
      rw [ancestors_eq (p.cut x.2), upTo, List.dropLast_concat, whole,
        lastCut_append (by simp), List.cons_append, List.map_cons]
      refine congrArg (p :: p.cut x.2 :: ·) (List.map_congr_left fun e he => (cut_cut ?_).symm)
      have increasing := (spansOf_increasing p.text.toList).2
      rw [show spansOf p.text.toList = p.spans from rfl, whole, List.append_assoc,
        List.pairwise_append] at increasing
      rcases List.mem_append.1 he with he | he
      · obtain ⟨z, hz, rfl⟩ := List.mem_map.1 he
        exact Nat.le_of_lt (increasing.2.2 z (List.mem_reverse.1 hz) x (by simp))
      · rw [eq_zero_of_mem_lastCut he]
        exact Nat.zero_le _

theorem exists_cut_of_parent? (above : p.parent? = some q) : ∃ n, p.cut n = q := by
  have mem : q ∈ p.ancestors.tail := List.mem_of_mem_head? above
  rw [ancestors_eq, List.tail_cons] at mem
  obtain ⟨n, -, cut⟩ := List.mem_map.1 mem
  exact ⟨n, cut⟩

theorem components_of_parent? (above : p.parent? = some q) :
    q.components = p.components.dropLast := by
  rw [components, (spans_of_parent? above).1, List.map_dropLast, components]

theorem eq_up_or_normal_of_ofSegment {segment : List Char} {c : Component}
    (stands : ofSegment segment = some c) : c = up ∨ ∃ name, c = normal name := by
  unfold ofSegment at stands
  split at stands
  · cases stands
  · split at stands <;> cases stands
    · exact .inl rfl
    · exact .inr ⟨_, rfl⟩

/-- **A component behind others is a name, or goes up.** -/
theorem eq_up_or_normal_of_concat {before : List Component} {c : Component}
    (whole : p.components = before ++ [c]) (some : before ≠ []) : c = up ∨ ∃ name, c = normal name := by
  have stood {segments : List (List Char)} (h : c ∈ segments.filterMap ofSegment) :
      c = up ∨ ∃ name, c = normal name := by
    obtain ⟨s, -, stands⟩ := List.mem_filterMap.1 h
    exact eq_up_or_normal_of_ofSegment stands
  have behind {first : Component} {rest : List Component} (h : first :: rest = before ++ [c]) :
      c ∈ rest := by
    rcases before with _ | ⟨b, before⟩
    · exact absurd rfl some
    · rw [List.cons_append, List.cons.injEq] at h
      simp [h.2]
  rw [components_eq_read] at whole
  unfold read at whole
  split at whole
  · simp at whole
  · split at whole
    · exact stood (behind whole)
    · split at whole
      · exact stood (behind whole)
      · exact stood (whole ▸ List.mem_append_right _ (List.mem_singleton_self c))

/-- **A path that does not go up is the one above it and a name**, if that one has a text. -/
theorem exists_name_of_parent? (above : p.parent? = some q) (some : q.components ≠ [])
    (down : up ∉ p.components) : ∃ name, p.components = q.components ++ [normal name] := by
  have whole := components_of_parent? above
  rcases p.components.eq_nil_or_concat' with empty | ⟨before, c, last⟩
  · rw [empty] at whole
    exact absurd whole some
  · rw [last, List.dropLast_concat] at whole
    rcases eq_up_or_normal_of_concat last (whole ▸ some) with rfl | ⟨name, rfl⟩
    · exact absurd (last ▸ List.mem_append_right _ (List.mem_singleton_self up)) down
    · exact ⟨name, whole ▸ last⟩

end Depot.Path
