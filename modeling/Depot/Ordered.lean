/-!
# Strictly ordered lists

A finite set, or a finite map whose entries carry their own key, is kept as a list whose keys
increase strictly. The order is then part of the value: two such lists with the same members are
the same list, so sets and maps built from them are compared by `=`, and reading them out needs no
sorting.

`insertWith` is the only way in. `sorted_insertWith` says that it keeps the order, and
`mem_insertWith` bounds what it may put into the list. `lookup_insertWith` says what is found under
each key afterwards.
-/

namespace Depot.Ordered

variable {α κ : Type} [Ord κ]

/-- **The keys increase strictly**, so no key occurs twice. -/
def Sorted (key : α → κ) (entries : List α) : Prop :=
  entries.Pairwise fun a b => compare (key a) (key b) = .lt

/-- Put `x` at the place of its key. An entry `y` that already has this key becomes
`combine y x`. -/
def insertWith (key : α → κ) (combine : α → α → α) (x : α) : List α → List α
  | [] => [x]
  | y :: ys =>
    match compare (key x) (key y) with
    | .lt => x :: y :: ys
    | .eq => combine y x :: ys
    | .gt => y :: insertWith key combine x ys

/-- The entry that has the key `k`, if there is one. -/
def lookup (key : α → κ) (k : κ) (entries : List α) : Option α :=
  entries.find? fun a => compare (key a) k == .eq

@[simp] theorem sorted_nil (key : α → κ) : Sorted key [] := List.Pairwise.nil

@[simp] theorem insertWith_nil (key : α → κ) (combine : α → α → α) (x : α) :
    insertWith key combine x [] = [x] := rfl

/-- What is in the list after an insertion: the entry, a combination with it, or what was there. -/
theorem mem_insertWith {key : α → κ} {combine : α → α → α} {x z : α} {entries : List α}
    (h : z ∈ insertWith key combine x entries) :
    z = x ∨ z ∈ entries ∨ ∃ y ∈ entries, compare (key x) (key y) = .eq ∧ z = combine y x := by
  induction entries with
  | nil => simp_all
  | cons y ys ih =>
    unfold insertWith at h
    split at h
    · simp only [List.mem_cons] at h ⊢
      rcases h with h | h | h <;> simp [h]
    · next he =>
      rcases List.mem_cons.1 h with h | h
      · exact .inr (.inr ⟨y, by simp, he, h⟩)
      · exact .inr (.inl (by simp [h]))
    · rcases List.mem_cons.1 h with h | h
      · exact .inr (.inl (by simp [h]))
      · rcases ih h with h | h | ⟨y', hy, he, hz⟩
        · exact .inl h
        · exact .inr (.inl (by simp [h]))
        · exact .inr (.inr ⟨y', by simp [hy], he, hz⟩)

/-- **Insertion keeps the order**, whatever `combine` does to the rest of an entry, as long as it
leaves the key alone. -/
theorem sorted_insertWith [Std.TransOrd κ] {key : α → κ} {combine : α → α → α} {x : α}
    {entries : List α} (keeps : ∀ y, compare (key x) (key y) = .eq → key (combine y x) = key y)
    (h : Sorted key entries) : Sorted key (insertWith key combine x entries) := by
  induction entries with
  | nil => simp [Sorted]
  | cons y ys ih =>
    obtain ⟨hy, hys⟩ := List.pairwise_cons.1 h
    unfold insertWith
    split
    · next hlt =>
      refine List.pairwise_cons.2 ⟨fun z hz => ?_, h⟩
      rcases List.mem_cons.1 hz with rfl | hz
      · exact hlt
      · exact Std.TransCmp.lt_trans hlt (hy z hz)
    · next heq =>
      refine List.pairwise_cons.2 ⟨fun z hz => ?_, hys⟩
      rw [keeps y heq]
      exact hy z hz
    · next hgt =>
      refine List.pairwise_cons.2 ⟨fun z hz => ?_, ih hys⟩
      have hlt : compare (key y) (key x) = .lt := Std.OrientedCmp.lt_of_gt hgt
      rcases mem_insertWith hz with rfl | hz | ⟨y', hy', _, rfl⟩
      · exact hlt
      · exact hy z hz
      · rw [keeps y' ‹_›]
        exact hy y' hy'

/-- An entry that is found is in the list, and under the key asked for. -/
theorem lookup_eq_some_iff [Std.TransOrd κ] [Std.LawfulEqOrd κ] {key : α → κ} {k : κ} {a : α}
    {entries : List α} (h : Sorted key entries) :
    lookup key k entries = some a ↔ a ∈ entries ∧ key a = k := by
  unfold lookup
  induction entries with
  | nil => simp
  | cons y ys ih =>
    obtain ⟨hy, hys⟩ := List.pairwise_cons.1 h
    have hself : compare k k = .eq := Std.ReflCmp.compare_self
    by_cases hk : key y = k
    · have : ∀ z ∈ ys, key z ≠ k := by
        rintro z hz rfl
        have := hy z hz
        rw [hk] at this
        simp at this
      simp only [List.find?_cons, hk, hself, beq_self_eq_true, Option.some.injEq, List.mem_cons]
      constructor
      · rintro rfl
        exact ⟨.inl rfl, hk⟩
      · rintro ⟨rfl | hz, hz'⟩
        · rfl
        · exact absurd hz' (this _ hz)
    · have hne : compare (key y) k ≠ .eq := fun e => hk (Std.LawfulEqOrd.eq_of_compare e)
      simp only [List.find?_cons, List.mem_cons]
      rw [show (compare (key y) k == .eq) = false from by simpa using hne, ih hys]
      constructor
      · rintro ⟨hm, he⟩
        exact ⟨.inr hm, he⟩
      · rintro ⟨rfl | hm, he⟩
        · exact absurd he hk
        · exact ⟨hm, he⟩

/-- **What is found after an insertion.** Under the key of the entry put in, it is that entry,
combined with the one that was there before; under any other key nothing has changed. -/
theorem lookup_insertWith [DecidableEq κ] [Std.TransOrd κ] [Std.LawfulEqOrd κ] {key : α → κ}
    {combine : α → α → α} {x : α} {k : κ} {entries : List α}
    (keeps : ∀ y, compare (key x) (key y) = .eq → key (combine y x) = key y)
    (h : Sorted key entries) :
    lookup key k (insertWith key combine x entries) =
      if key x = k then some (((lookup key k entries).map (combine · x)).getD x)
      else lookup key k entries := by
  have other {a k : κ} (h : a ≠ k) : (compare a k == .eq) = false := by
    simpa using fun e => h (Std.LawfulEqOrd.eq_of_compare e)
  induction entries with
  | nil => by_cases hk : key x = k <;> simp [lookup, hk, other]
  | cons y ys ih =>
    obtain ⟨hy, hys⟩ := List.pairwise_cons.1 h
    unfold insertWith
    split
    · next hlt =>
      by_cases hk : key x = k
      · have absent : lookup key k (y :: ys) = none := by
          refine List.find?_eq_none.2 fun z hz => ?_
          have : compare (key x) (key z) = .lt := by
            rcases List.mem_cons.1 hz with rfl | hz
            · exact hlt
            · exact Std.TransCmp.lt_trans hlt (hy z hz)
          rw [hk] at this
          have hne : key z ≠ k := fun e => by simp [e] at this
          simp [other hne]
        rw [absent]
        simp [lookup, hk]
      · simp [lookup, hk, other hk]
    · next heq =>
      have hxy : key x = key y := Std.LawfulEqOrd.eq_of_compare heq
      by_cases hk : key x = k
      · simp [lookup, keeps y heq, hk, ← hxy]
      · have hk' : key y ≠ k := hxy ▸ hk
        simp [lookup, keeps y heq, hk, other hk']
    · next hgt =>
      by_cases hk : key y = k
      · have hx : key x ≠ k := fun e => by simp [e, hk] at hgt
        simp [lookup, hk, hx]
      · have := ih hys
        simp only [lookup, List.find?_cons, other hk] at this ⊢
        exact this

/-- An entry that comes after all others is put at the end. -/
theorem insertWith_of_last [Std.OrientedOrd κ] {key : α → κ} {combine : α → α → α} {x : α}
    {entries : List α} (last : ∀ y ∈ entries, compare (key y) (key x) = .lt) :
    insertWith key combine x entries = entries ++ [x] := by
  induction entries with
  | nil => rfl
  | cons y ys ih =>
    have after : compare (key x) (key y) = .gt :=
      Std.OrientedCmp.gt_of_lt (last y List.mem_cons_self)
    unfold insertWith
    simp [after, ih fun z hz => last z (List.mem_cons_of_mem y hz)]

/-- Where the entry of a key stays as it is, nothing changes if it is there already. -/
theorem insertWith_of_mem [Std.OrientedOrd κ] {key : α → κ} {x : α}
    {entries : List α} (h : Sorted key entries) (known : key x ∈ entries.map key) :
    insertWith key (fun old _ => old) x entries = entries := by
  induction entries with
  | nil => cases known
  | cons y ys ih =>
    obtain ⟨hy, hys⟩ := List.pairwise_cons.1 h
    unfold insertWith
    rcases List.mem_cons.1 known with same | known
    · have equal : compare (key x) (key y) = .eq := by
        rw [same]
        exact Std.ReflCmp.compare_self
      simp [equal]
    · obtain ⟨z, hz, same⟩ := List.mem_map.1 known
      have after : compare (key x) (key y) = .gt := by
        rw [← same]
        exact Std.OrientedCmp.gt_of_lt (hy z hz)
      simp [after, ih hys known]

/-- **Two strictly ordered lists with the same members are the same list.** -/
theorem eq_of_mem_iff [Std.TransOrd κ] {key : α → κ} {xs ys : List α} (hx : Sorted key xs)
    (hy : Sorted key ys) (h : ∀ a, a ∈ xs ↔ a ∈ ys) : xs = ys := by
  have distinct {l : List α} (hl : Sorted key l) : l.Nodup :=
    hl.imp fun hab => by rintro rfl; simp at hab
  refine List.Perm.eq_of_pairwise (fun a b _ _ hab hba => ?_) hx hy
    ((List.perm_ext_iff_of_nodup (distinct hx) (distinct hy)).2 h)
  have := Std.TransCmp.lt_trans hab hba
  simp at this

end Depot.Ordered
