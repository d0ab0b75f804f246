/-!
# Segments of slash-separated text

Import paths and file paths are both text cut at every `/`. A text with `n` slashes has `n + 1`
segments, some of them possibly empty; `join_split` says that cutting loses nothing.
-/

namespace Depot.Segments

/-- The pieces of a text between its slashes, empty ones included. -/
def split : List Char → List (List Char)
  | [] => [[]]
  | c :: cs =>
    if c = '/' then [] :: split cs
    else
      match split cs with
      | [] => [[c]]
      | s :: ss => (c :: s) :: ss

/-- Segments with a slash between each two. -/
def join : List (List Char) → List Char
  | [] => []
  | [s] => s
  | s :: t :: ss => s ++ '/' :: join (t :: ss)

/-- There is always a first segment. -/
theorem split_ne_nil (cs : List Char) : split cs ≠ [] := by
  cases cs with
  | nil => simp [split]
  | cons c cs =>
    unfold split
    split
    · simp
    · split <;> simp

/-- **Cutting at slashes loses nothing.** -/
theorem join_split (cs : List Char) : join (split cs) = cs := by
  induction cs with
  | nil => rfl
  | cons c cs ih =>
    unfold split
    split
    · next h =>
      cases hs : split cs with
      | nil => exact absurd hs (split_ne_nil cs)
      | cons s ss => rw [hs] at ih; simp [join, ih, h]
    · next h =>
      cases hs : split cs with
      | nil => exact absurd hs (split_ne_nil cs)
      | cons s ss =>
        rw [hs] at ih
        cases ss with
        | nil => simpa [join] using ih
        | cons t ts => simp only [join, List.cons_append] at ih ⊢; rw [ih]

/-- A segment holds no slash. -/
theorem slash_notMem_of_mem_split {cs s : List Char} (h : s ∈ split cs) : '/' ∉ s := by
  induction cs generalizing s with
  | nil => simp_all [split]
  | cons c cs ih =>
    unfold split at h
    split at h
    · rcases List.mem_cons.1 h with rfl | h
      · simp
      · exact ih h
    · next hc =>
      cases hs : split cs with
      | nil => exact absurd hs (split_ne_nil cs)
      | cons t ts =>
        rw [hs] at h
        rcases List.mem_cons.1 h with rfl | h
        · have ht := ih (s := t) (by simp [hs])
          simp [ht, Ne.symm hc]
        · exact ih (by simp [hs, h])

/-- The segments of a string. -/
def ofString (text : String) : List String := (split text.toList).map String.ofList

end Depot.Segments
