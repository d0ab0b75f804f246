import Depot.ImportPath
import Mathlib.Data.List.DropRight
import Mathlib.Order.Preorder.Chain

/-!
# Containment of import paths

What counts of a root is its stem, the text without the slashes at its end. A path that the root
contains is the stem and a rest that begins with a slash, if it is not empty (`contains_iff`).

Containment is an order of ancestors: it is transitive, and of two roots that contain the same path
one contains the other, so that the roots that contain a path form a chain. Only slashes at the end
are invisible to it: paths that contain each other are equal up to these (`contains_tree_order`).
-/

namespace Depot.ImportPath

variable {a b c root path : String}

/-- The text of a root that counts. -/
def stem (root : String) : List Char := trimSlashes root.toList

/-- **A rest that begins a segment**: nothing, or a slash first. -/
def Begins (rest : List Char) : Prop := rest = [] ∨ rest.head? = some '/'

theorem exists_begins_of_trimSlashes (chars : List Char) :
    ∃ rest, Begins rest ∧ chars = trimSlashes chars ++ rest := by
  refine ⟨List.rtakeWhile (· == '/') chars, ?_, (List.rdropWhile_append_rtakeWhile ..).symm⟩
  rcases found : List.rtakeWhile (· == '/') chars with _ | ⟨c, rest⟩
  · exact .inl rfl
  · have : c ∈ List.rtakeWhile (· == '/') chars := by simp [found]
    exact .inr (by simpa using List.mem_rtakeWhile_imp this)

/-- The slashes at the end of a text are taken off behind whatever ends in none. -/
theorem trimSlashes_append {chars : List Char} (trimmed : trimSlashes chars = chars)
    (rest : List Char) : trimSlashes (chars ++ rest) = chars ++ trimSlashes rest := by
  have ended : chars.reverse.dropWhile (· == '/') = chars.reverse :=
    List.reverse_injective (trimmed.trans (List.reverse_reverse chars).symm)
  unfold trimSlashes
  rw [List.reverse_append, List.dropWhile_append]
  split
  · next none =>
    rw [ended, List.reverse_reverse, List.isEmpty_iff.1 none, List.reverse_nil, List.append_nil]
  · rw [List.reverse_append, List.reverse_reverse]

@[simp] theorem trimSlashes_stem (root : String) : trimSlashes (stem root) = stem root := by
  unfold stem trimSlashes
  rw [List.reverse_reverse, List.dropWhile_idempotent]

theorem exists_toList_eq_stem (root : String) :
    ∃ n, root.toList = stem root ++ List.replicate n '/' := by
  have slashes : ∀ c ∈ root.toList.rtakeWhile (· == '/'), c = '/' :=
    fun c hc => by simpa using List.mem_rtakeWhile_imp hc
  exact ⟨_, (List.eq_replicate_of_mem slashes) ▸ (List.rdropWhile_append_rtakeWhile ..).symm⟩

/-- A text that begins with a stem has a stem that begins with it. -/
theorem stem_eq_of_append {rest : List Char} (split : b.toList = stem a ++ rest) :
    stem b = stem a ++ trimSlashes rest := by
  rw [stem, split, trimSlashes_append (trimSlashes_stem a)]

/-- A rest that begins a segment still does without the slashes at its end. -/
theorem Begins.trimSlashes {rest : List Char} (h : Begins rest) : Begins (trimSlashes rest) := by
  obtain ⟨slashes, -, split⟩ := exists_begins_of_trimSlashes rest
  rcases trimmed : ImportPath.trimSlashes rest with _ | ⟨c, cs⟩
  · exact .inl rfl
  · rw [trimmed] at split
    subst split
    exact .inr (h.resolve_left (by simp))

theorem Begins.append {rest more : List Char} (h : Begins rest) (h' : Begins more) :
    Begins (rest ++ more) := by
  rcases h with rfl | first
  · exact h'
  · exact .inr (by rw [List.head?_append, first]; rfl)

/-- **A root contains a path** if its stem is empty, or the path goes on after the stem with a new
segment. -/
theorem contains_iff :
    contains root path = true ↔
      stem root = [] ∨ ∃ rest, Begins rest ∧ path.toList = stem root ++ rest := by
  unfold contains
  rw [show trimSlashes root.toList = stem root from rfl]
  dsimp only
  split
  · next rest found =>
    obtain split := List.isPrefixOf?_eq_some_iff_append_eq.1 found
    rw [Bool.or_eq_true, Bool.or_eq_true, List.isEmpty_iff, List.isEmpty_iff, beq_iff_eq]
    constructor
    · rintro (begins | empty)
      · exact .inr ⟨rest, begins, split.symm⟩
      · exact .inl empty
    · rintro (empty | ⟨rest', begins, split'⟩)
      · exact .inr empty
      · obtain rfl := List.append_cancel_left (split.trans split')
        exact .inl begins
  · next absent =>
    refine iff_of_false (by simp) ?_
    rintro (empty | ⟨rest, -, split⟩)
    · rw [empty] at absent
      cases absent
    · rw [List.isPrefixOf?_eq_some_iff_append_eq.2 split.symm] at absent
      cases absent

theorem contains_refl (path : String) : contains path path = true :=
  contains_iff.2 (.inr (exists_begins_of_trimSlashes path.toList))

/-- **Containment is transitive.** -/
theorem contains_trans (ab : contains a b = true) (bc : contains b c = true) :
    contains a c = true := by
  rw [contains_iff] at ab bc ⊢
  rcases ab with empty | ⟨rest, begins, split⟩
  · exact .inl empty
  · -- the stem of the path in the middle is that of the first one and a rest
    have middle : stem b = stem a ++ trimSlashes rest := stem_eq_of_append split
    rcases bc with empty | ⟨more, begins', split'⟩
    · exact .inl (List.append_eq_nil_iff.1 (middle.symm.trans empty)).1
    · refine .inr ⟨trimSlashes rest ++ more, begins.trimSlashes.append begins', ?_⟩
      rw [split', middle, List.append_assoc]

/-- A root whose stem is the shorter one contains a root that contains the same path. -/
theorem contains_of_append {between rest : List Char} (split : stem b = stem a ++ between)
    (begins : Begins (between ++ rest)) : contains a b = true := by
  obtain ⟨slashes, begins', whole⟩ := exists_begins_of_trimSlashes b.toList
  refine contains_iff.2 (.inr ⟨between ++ slashes, ?_, ?_⟩)
  · rcases between with _ | ⟨ch, between⟩
    · exact begins'
    · exact .inr (begins.resolve_left (by simp))
  · rw [whole, ← List.append_assoc, ← split]
    rfl

/-- **The roots that contain a path form a chain.** -/
theorem contains_or_contains (ac : contains a c = true) (bc : contains b c = true) :
    contains a b = true ∨ contains b a = true := by
  rw [contains_iff] at ac bc
  rcases ac with empty | ⟨rest, begins, split⟩
  · exact .inl (contains_iff.2 (.inl empty))
  · rcases bc with empty | ⟨rest', begins', split'⟩
    · exact .inr (contains_iff.2 (.inl empty))
    · rcases List.append_eq_append_iff.1 (split.symm.trans split') with
        ⟨between, longer, rfl⟩ | ⟨between, longer, rfl⟩
      · exact .inl (contains_of_append longer begins)
      · exact .inr (contains_of_append longer begins')

/-! ## Paths that contain each other -/

/-- **Equal up to slashes at the end**: some slashes more make one text of both. -/
def SameButSlashes (a b : String) : Prop :=
  ∃ m n, a.toList ++ List.replicate m '/' = b.toList ++ List.replicate n '/'

theorem trimSlashes_append_replicate (chars : List Char) (n : Nat) :
    trimSlashes (chars ++ List.replicate n '/') = trimSlashes chars := by
  unfold trimSlashes
  rw [List.reverse_append, List.reverse_replicate, List.dropWhile_append_of_pos (by simp)]

/-- Texts are equal up to slashes at the end if their stems are equal. -/
theorem sameButSlashes_iff : SameButSlashes a b ↔ stem a = stem b := by
  constructor
  · rintro ⟨m, n, same⟩
    have trimmed := congrArg trimSlashes same
    rwa [trimSlashes_append_replicate, trimSlashes_append_replicate] at trimmed
  · intro same
    obtain ⟨m, slashes⟩ := exists_toList_eq_stem a
    obtain ⟨n, slashes'⟩ := exists_toList_eq_stem b
    refine ⟨n, m, ?_⟩
    rw [slashes, slashes', same, List.append_assoc, List.append_assoc, List.replicate_append_replicate,
      List.replicate_append_replicate, Nat.add_comm]

/-- What a root contains has a stem that begins with the root's. -/
theorem stem_prefix_of_contains (ab : contains a b = true) : stem a <+: stem b := by
  rcases contains_iff.1 ab with empty | ⟨rest, -, split⟩
  · exact empty ▸ List.nil_prefix
  · exact ⟨_, (stem_eq_of_append split).symm⟩

theorem contains_of_stem_eq (same : stem a = stem b) : contains a b = true := by
  obtain ⟨slashes, begins, whole⟩ := exists_begins_of_trimSlashes b.toList
  exact contains_iff.2 (.inr ⟨slashes, begins, same ▸ whole⟩)

/-- **Paths contain each other** exactly if they are equal up to slashes at the end. -/
theorem contains_and_contains_iff :
    contains a b = true ∧ contains b a = true ↔ SameButSlashes a b := by
  rw [sameButSlashes_iff]
  constructor
  · rintro ⟨ab, ba⟩
    exact (stem_prefix_of_contains ab).eq_of_length_le (stem_prefix_of_contains ba).length_le
  · intro same
    exact ⟨contains_of_stem_eq same, contains_of_stem_eq same.symm⟩

/-- **Containment is the order of a tree.** Every path contains itself, and what a path contains
contains no more than the path does. Paths that contain each other are equal up to slashes at the
end, and the other way around. The roots that contain a path form a chain: of any two, one contains
the other. -/
theorem contains_tree_order :
    (∀ a, contains a a = true) ∧
    (∀ a b c, contains a b = true → contains b c = true → contains a c = true) ∧
    (∀ a b, contains a b = true ∧ contains b a = true ↔ SameButSlashes a b) ∧
    ∀ path, IsChain (fun a b => contains a b = true) {root | contains root path = true} :=
  ⟨contains_refl, fun _ _ _ => contains_trans, fun _ _ => contains_and_contains_iff,
    fun _ _ ac _ bc _ => contains_or_contains ac bc⟩

/-- Slashes at the end and the empty root; a slash in the middle is not one at the end. -/
theorem contains_tree_order_slashes :
    contains "/" "e.org//" = true ∧ contains "e.org//" "e.org/lib/" = true ∧
    contains "/" "e.org/lib/" = true ∧ SameButSlashes "e.org" "e.org//" ∧
    ¬ SameButSlashes "e.org/lib" "e.org//lib" ∧
    (contains "e.org//" "e.org" = true ∨ contains "e.org" "e.org//" = true) := by
  obtain ⟨-, trans, antisymm, chain⟩ := contains_tree_order
  have outer : contains "/" "e.org//" = true := by decide +kernel
  have inner : contains "e.org//" "e.org/lib/" = true := by decide +kernel
  refine ⟨outer, inner, trans _ _ _ outer inner, ?_, ?_, ?_⟩
  · exact (antisymm _ _).1 ⟨by decide +kernel, by decide +kernel⟩
  · rw [← antisymm]
    decide +kernel
  · exact chain "e.org/lib/" inner (by decide +kernel) (by decide +kernel)

end Depot.ImportPath
