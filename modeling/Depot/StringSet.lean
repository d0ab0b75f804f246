import Depot.Ordered

/-!
# Sets of strings

The edge sets, revisions and remotes of the graph are sets of strings that are always read out in
the order of their code points. The members are kept as a strictly increasing list, so a set has
one representation and `=` compares sets.
-/

namespace Depot

/-- **A finite set of strings**, in the order of code points. -/
structure StringSet where
  /-- The members, smallest first. -/
  toList : List String
  /-- No member occurs twice and the order is strict. -/
  sorted : Ordered.Sorted id toList
  deriving DecidableEq

namespace StringSet

/-- The set without members. -/
def empty : StringSet := ⟨[], by simp⟩

instance : Inhabited StringSet := ⟨empty⟩
instance : EmptyCollection StringSet := ⟨empty⟩

/-- The set with one more member, if it was not one already. -/
def insert (s : StringSet) (value : String) : StringSet :=
  ⟨Ordered.insertWith id (fun old _ => old) value s.toList,
    Ordered.sorted_insertWith (fun _ _ => rfl) s.sorted⟩

/-- Whether `value` is a member. -/
def contains (s : StringSet) (value : String) : Bool := s.toList.contains value

instance : Membership String StringSet := ⟨fun s value => value ∈ s.toList⟩

/-- The set with every string of `values` as a further member. -/
def insertAll (s : StringSet) (values : List String) : StringSet := values.foldl insert s

/-- The members of either set. -/
def union (s t : StringSet) : StringSet := s.insertAll t.toList

/-- The set of the strings of a list. -/
def ofList (values : List String) : StringSet := empty.insertAll values

/-- The number of members. -/
def size (s : StringSet) : Nat := s.toList.length

/-- Whether there is no member. -/
def isEmpty (s : StringSet) : Bool := s.toList.isEmpty

/-- The members between brackets, separated by a comma and a blank. -/
def render (s : StringSet) : String := "[" ++ ", ".intercalate s.toList ++ "]"

@[simp] theorem contains_iff (s : StringSet) (value : String) :
    s.contains value = true ↔ value ∈ s := by
  simp [contains, Membership.mem]

@[simp] theorem toList_empty : empty.toList = [] := rfl

@[simp] theorem mem_toList {s : StringSet} {value : String} : value ∈ s.toList ↔ value ∈ s := .rfl

/-- Two sets with the same members, in order, are one set. -/
theorem eq_of_toList {s t : StringSet} (h : s.toList = t.toList) : s = t := by
  cases s; cases t; simp_all

@[simp] theorem not_mem_empty (value : String) : value ∉ empty := List.not_mem_nil

/-- The members of a set are what is found in its list. -/
theorem mem_iff_lookup {s : StringSet} {value : String} :
    value ∈ s ↔ Ordered.lookup id value s.toList = some value := by
  rw [Ordered.lookup_eq_some_iff s.sorted]
  simp [Membership.mem]

@[simp] theorem mem_insert {s : StringSet} {value other : String} :
    value ∈ s.insert other ↔ value = other ∨ value ∈ s := by
  have found : Ordered.lookup id value (s.insert other).toList = _ :=
    Ordered.lookup_insertWith (fun _ _ => rfl) s.sorted
  rw [mem_iff_lookup, mem_iff_lookup, found]
  by_cases h : other = value
  · subst h
    cases hl : Ordered.lookup id other s.toList with
    | none => simp
    | some found => simp [((Ordered.lookup_eq_some_iff s.sorted).1 hl).2.symm]
  · simp [h, Ne.symm h]

@[simp] theorem mem_insertAll {s : StringSet} {value : String} {values : List String} :
    value ∈ s.insertAll values ↔ value ∈ values ∨ value ∈ s := by
  unfold insertAll
  induction values generalizing s with
  | nil => simp
  | cons v vs ih => simp only [List.foldl_cons, ih, mem_insert, List.mem_cons]; grind

@[simp] theorem mem_union {s t : StringSet} {value : String} :
    value ∈ s.union t ↔ value ∈ s ∨ value ∈ t := by
  simp [union, or_comm]

@[simp] theorem mem_ofList {values : List String} {value : String} :
    value ∈ ofList values ↔ value ∈ values := by simp [ofList]

/-- **Two sets with the same members are one set.** -/
@[ext] theorem ext {s t : StringSet} (h : ∀ value, value ∈ s ↔ value ∈ t) : s = t :=
  eq_of_toList (Ordered.eq_of_mem_iff s.sorted t.sorted h)

/-- What has the members of a list, in order, is what its set is read out as. -/
theorem toList_ofList_eq {values members : List String} (sorted : Ordered.Sorted id members)
    (same : ∀ value, value ∈ values ↔ value ∈ members) : (ofList values).toList = members := by
  have equal : ofList values = ⟨members, sorted⟩ := ext fun value => mem_ofList.trans (same value)
  rw [equal]

end StringSet

end Depot
