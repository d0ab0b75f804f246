import Depot.ImportPath
import Depot.Proofs.Disk.Spelling
import Depot.Proofs.Survey.Ending
import Depot.Proofs.Workspace

/-!
# Import paths with dots at their end

Segments of a single dot can be added to an import path for as long as one likes. The path stays
remote if it was (`ImportPath.isRemote_dotted`), and it names the same directory, but by a longer
text (`Workspace.components_packageSource_dotted`). So every package has import paths that the
system refuses for their length, though the package is there
(`Workspace.kind_packageSource_dotted`).
-/

namespace Depot

/-- The keys increase strictly if each is followed by a greater one. -/
theorem Ordered.sorted_of_isChain {α κ : Type} [Ord κ] [Std.TransOrd κ] {key : α → κ}
    {entries : List α} (h : entries.IsChain fun a b => compare (key a) (key b) = .lt) :
    Sorted key entries :=
  have : Trans (fun a b : α => compare (key a) (key b) = .lt)
      (fun a b => compare (key a) (key b) = .lt) (fun a b => compare (key a) (key b) = .lt) :=
    ⟨Std.TransCmp.lt_trans⟩
  List.isChain_iff_pairwise.1 h

namespace ImportPath

variable {path path' : String}

/-- **Which import paths are remote**: those that begin with the name of a host and a slash. -/
theorem isRemote_iff : isRemote path = true ↔ ∃ host rest, path.toList = host ++ '/' :: rest ∧
    '/' ∉ host ∧ '.' ∈ host ∧ host ≠ ['.'] ∧ host ≠ ['.', '.'] := by
  unfold isRemote
  constructor
  · intro remote
    rw [Bool.and_eq_true, Bool.not_eq_true'] at remote
    obtain ⟨foreign, hosted⟩ := remote
    rcases segments : Segments.split path.toList with _ | ⟨host, _ | ⟨s, ss⟩⟩
    · rw [segments] at hosted
      cases hosted
    · rw [segments] at hosted
      cases hosted
    · have joined := Segments.join_split path.toList
      rw [segments] at joined hosted
      have text : path.toList = host ++ '/' :: Segments.join (s :: ss) := joined.symm
      refine ⟨host, _, text, Segments.slash_notMem_of_mem_split (segments ▸ List.mem_cons_self),
        List.contains_iff_mem.1 hosted, ?_, ?_⟩ <;> rintro rfl <;>
        simp [isLocal, text] at foreign
  · rintro ⟨host, rest, text, slash, dot, here, parent⟩
    have first : path.toList.takeWhile (· != '/') = host := by
      rw [text, List.takeWhile_append_of_pos, List.takeWhile_cons_of_neg (by simp), List.append_nil]
      intro c hc
      have other : c ≠ '/' := fun e => slash (e ▸ hc)
      simpa using other
    have foreign : isLocal path = false := by
      refine Bool.eq_false_iff.2 fun near => ?_
      simp only [isLocal, Bool.or_eq_true, beq_iff_eq, List.isPrefixOf_iff_prefix] at near
      -- each way to be local has another first segment
      rcases near with (((near | near) | ⟨more, near⟩) | ⟨more, near⟩) | ⟨more, near⟩
      · exact here (first.symm.trans (by rw [near]; rfl))
      · exact parent (first.symm.trans (by rw [near]; rfl))
      · exact here (first.symm.trans (by rw [← near]; rfl))
      · exact parent (first.symm.trans (by rw [← near]; rfl))
      · exact List.ne_nil_of_mem dot (first.symm.trans (by rw [← near]; rfl))
    obtain ⟨s, ss, segments⟩ := List.exists_cons_of_ne_nil (Segments.split_ne_nil rest)
    rw [foreign, text, Segments.split_append_slash, Segments.split_of_slash_notMem slash, segments]
    simpa using dot

theorem isRemote_append (remote : isRemote path = true) {more : List Char}
    (text : path'.toList = path.toList ++ more) : isRemote path' = true := by
  obtain ⟨host, rest, begins, foreign⟩ := isRemote_iff.1 remote
  refine isRemote_iff.2 ⟨host, rest ++ more, ?_, foreign⟩
  rw [text, begins, List.append_assoc, List.cons_append]

/-- **Import paths are in the order of the first characters that tell them apart.** -/
theorem compare_eq_lt (common : List Char) {rest rest' : List Char} {c c' : Char}
    (text : path.toList = common ++ c :: rest) (text' : path'.toList = common ++ c' :: rest')
    (lt : c < c') : compare path path' = .lt := by
  refine compareOfLessAndEq_eq_lt.2 ?_
  show path.toList < path'.toList
  rw [text, text']
  exact List.append_left_lt (List.cons_lt_cons_iff.2 (.inl lt))

/-- **An import path with dots at its end**, each a segment of its own. -/
def dotted (stem : String) : Nat → String
  | 0 => stem
  | n + 1 => dotted stem n ++ "/."

theorem exists_toList_dotted (stem : String) (n : Nat) :
    ∃ more, (dotted stem n).toList = stem.toList ++ more := by
  induction n with
  | zero => exact ⟨[], (List.append_nil _).symm⟩
  | succ n ih =>
    obtain ⟨more, text⟩ := ih
    refine ⟨more ++ ['/', '.'], ?_⟩
    rw [dotted, String.toList_append, text, List.append_assoc]
    rfl

theorem le_size_dotted (stem : String) (n : Nat) : n ≤ (dotted stem n).utf8ByteSize := by
  induction n with
  | zero => exact Nat.zero_le _
  | succ n ih =>
    have added : (dotted stem (n + 1)).utf8ByteSize = (dotted stem n).utf8ByteSize + 2 :=
      String.utf8ByteSize_append
    omega

theorem isRemote_dotted {stem : String} (remote : isRemote stem = true) (n : Nat) :
    isRemote (dotted stem n) = true := by
  obtain ⟨more, text⟩ := exists_toList_dotted stem n
  exact isRemote_append remote text

end ImportPath

namespace Workspace

open ImportPath (dotted)

variable (w : Workspace) (stem : String) (n : Nat)

theorem packageSource_dotted_succ :
    w.packageSource (dotted stem (n + 1)) = (w.packageSource (dotted stem n)).join "." := by
  have segments : Segments.split (dotted stem (n + 1)).toList =
      Segments.split (dotted stem n).toList ++ [['.']] := by
    rw [dotted, String.toList_append]
    exact Segments.split_append_slash _ ['.']
  unfold packageSource
  rw [segments, List.filter_append, List.foldl_append]
  rfl

/-- **Dots do not lead to another directory.** -/
theorem components_packageSource_dotted :
    (w.packageSource (dotted stem n)).components = (w.packageSource stem).components := by
  induction n with
  | zero => rfl
  | succ n ih =>
    rw [← ih, components_packageSource, components_packageSource, dotted, String.toList_append]
    refine congrArg _ ?_
    show (Segments.split ((dotted stem n).toList ++ '/' :: ['.'])).filterMap _ = _
    rw [Segments.split_append_slash, List.filterMap_append]
    exact List.append_nil _

/-- **The text grows with every dot.** -/
theorem le_size_packageSource_dotted :
    n ≤ (w.packageSource (dotted stem n)).text.utf8ByteSize := by
  induction n with
  | zero => exact Nat.zero_le _
  | succ n ih =>
    have joined : (w.packageSource (dotted stem n)).text.utf8ByteSize <
        ((w.packageSource (dotted stem n)).join ".").text.utf8ByteSize := by
      have size : ".".utf8ByteSize = 1 := rfl
      unfold Path.join
      rw [show (Path.mk ".").isAbsolute = false from rfl, if_neg (by simp)]
      split <;> simp only [String.utf8ByteSize_append, size] <;> omega
    rw [packageSource_dotted_succ]
    omega

/-- **A package that is there is refused by an import path with too many dots.** -/
theorem kind_packageSource_dotted {world : World}
    (there : World.files.kind (w.packageSource stem) world = .ok .directory)
    (long : Disk.pathLimit ≤ n) :
    World.files.kind (w.packageSource (dotted stem n)) world = .error .nameTooLong := by
  refine (World.kind_respell there (w.components_packageSource_dotted stem n)).resolve_left
    fun directory => ?_
  have short := World.size_lt_of_kind directory
  have grown := w.le_size_packageSource_dotted stem n
  omega

end Workspace

end Depot
