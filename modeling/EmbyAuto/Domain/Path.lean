import EmbyAuto.Domain.Text

/-!
# Paths of the file system

The functions of `path/filepath` on Linux. An absolute path is the list of its segments once it is
cleaned; joining and comparing paths is appending and comparing these lists.

## Main definitions

* `pathJoin`, `pathRel`, `absolute`: `filepath.Join`, `filepath.Rel` and `filepath.Abs`
* `cleanSegments`, `absPath`: the segments of a path, and the absolute path with given segments
* `pathContains`: the test of the repository that a path does not leave another one

## Main results

* `pathClean_eq_absPath`, `cleanSegments_absPath`: absolute paths are lists of segments
* `pathContains_iff`: one absolute path contains another if its segments are the first ones
-/

namespace EmbyAuto

/-! ## Segments -/

/-- `filepath.IsAbs`. -/
def isAbs (path : Runes) : Bool := path.head? = some '/'

def cleanSegments (path : Runes) : List Runes :=
  ((path.splitOn '/').foldl (cleanSegment (isAbs path)) []).reverse

/-- The absolute path of a list of segments. -/
def absPath (segments : List Runes) : Runes := '/' :: ['/'].intercalate segments

/-- The segments that cleaning keeps in an absolute path. -/
def IsSegment (segment : Runes) : Prop :=
  segment ≠ [] ∧ segment ≠ ['.'] ∧ segment ≠ ['.', '.'] ∧ '/' ∉ segment

instance (segment : Runes) : Decidable (IsSegment segment) :=
  inferInstanceAs (Decidable (_ ∧ _))

/-- Cleaning below the root keeps proper segments only. -/
theorem cleanSegment_isSegment {cleaned} {segment : Runes}
    (hcleaned : ∀ s ∈ cleaned, IsSegment s) (hsegment : '/' ∉ segment) :
    ∀ s ∈ cleanSegment true cleaned segment, IsSegment s := by
  unfold cleanSegment
  by_cases htrivial : segment = [] ∨ segment = ['.']
  · rw [if_pos htrivial]
    exact hcleaned
  rw [if_neg htrivial]
  by_cases hup : segment = ['.', '.']
  · rw [if_pos hup]
    -- nothing is above the root, and no kept segment is `..`
    cases cleaned with
    | nil => simp
    | cons last rest =>
      obtain ⟨hlast, hrest⟩ := List.forall_mem_cons.mp hcleaned
      simpa [hlast.2.2.1, if_false] using hrest
  · rw [if_neg hup]
    rw [not_or] at htrivial
    exact List.forall_mem_cons.mpr ⟨⟨htrivial.1, htrivial.2, hup, hsegment⟩, hcleaned⟩

theorem foldl_cleanSegment_isSegment {segments cleaned : List Runes}
    (hcleaned : ∀ s ∈ cleaned, IsSegment s) (hsegments : ∀ s ∈ segments, '/' ∉ s) :
    ∀ s ∈ segments.foldl (cleanSegment true) cleaned, IsSegment s := by
  induction segments generalizing cleaned with
  | nil => exact hcleaned
  | cons segment segments ih =>
    obtain ⟨hsegment, hsegments⟩ := List.forall_mem_cons.mp hsegments
    exact ih (cleanSegment_isSegment hcleaned hsegment) hsegments

theorem cleanSegment_of_isSegment {rooted : Bool} {cleaned} {segment : Runes}
    (h : IsSegment segment) : cleanSegment rooted cleaned segment = segment :: cleaned := by
  unfold cleanSegment
  rw [if_neg (by simp [h.1, h.2.1]), if_neg h.2.2.1]

/-- Without `..` the segments are appended. -/
theorem foldl_cleanSegment_of_no_up {rooted : Bool} {segments cleaned : List Runes}
    (h : ∀ s ∈ segments, s ≠ ['.', '.']) : segments.foldl (cleanSegment rooted) cleaned =
      (segments.filter fun s => s ≠ [] ∧ s ≠ ['.']).reverse ++ cleaned := by
  induction segments generalizing cleaned with
  | nil => rfl
  | cons segment segments ih =>
    obtain ⟨hne, h⟩ := List.forall_mem_cons.mp h
    rw [List.foldl_cons, ih h]
    unfold cleanSegment
    by_cases htrivial : segment = [] ∨ segment = ['.']
    · have hdropped : ¬ (segment ≠ [] ∧ segment ≠ ['.']) := by tauto
      simp [hdropped]
    · have hkept : segment ≠ [] ∧ segment ≠ ['.'] := by tauto
      simp [hkept, hne]

/-- Proper segments are only collected. -/
theorem foldl_cleanSegment_of_segments {rooted : Bool} {segments cleaned : List Runes}
    (h : ∀ s ∈ segments, IsSegment s) :
    segments.foldl (cleanSegment rooted) cleaned = segments.reverse ++ cleaned := by
  rw [foldl_cleanSegment_of_no_up fun s hs => (h s hs).2.2.1, List.filter_eq_self.mpr]
  exact fun s hs => decide_eq_true ⟨(h s hs).1, (h s hs).2.1⟩

theorem cleanSegments_isSegment {path : Runes} (h : isAbs path = true) :
    ∀ s ∈ cleanSegments path, IsSegment s := by
  intro s hs
  rw [cleanSegments, h, List.mem_reverse] at hs
  exact foldl_cleanSegment_isSegment (by simp) (splitOn_not_mem path) s hs

/-- The cleaned form of an absolute path. -/
theorem pathClean_eq_absPath {path : Runes} (h : isAbs path = true) :
    pathClean path = absPath (cleanSegments path) := by
  have hrooted : path.head? = some '/' := of_decide_eq_true h
  simp [pathClean, absPath, cleanSegments, isAbs, hrooted]

@[simp] theorem isAbs_absPath (segments : List Runes) : isAbs (absPath segments) = true := rfl

section Segments

variable {segments : List Runes} (h : ∀ s ∈ segments, IsSegment s)

include h

theorem splitOn_absPath :
    (absPath segments).splitOn '/' = [] :: if segments = [] then [[]] else segments := by
  rw [absPath, List.splitOn_cons_eq_if_modifyHead, if_pos (by simp)]
  split_ifs with hnil
  · rw [hnil]
    rfl
  · rw [List.splitOn_intercalate _ (fun s hs => (h s hs).2.2.2) hnil]

/-- An absolute path has the segments that it was made of. -/
theorem cleanSegments_absPath : cleanSegments (absPath segments) = segments := by
  rw [cleanSegments, splitOn_absPath h, List.foldl_cons]
  split_ifs with hnil
  · rw [hnil]
    rfl
  · rw [foldl_cleanSegment_of_segments h]
    simp [cleanSegment]

theorem absPath_injective {segments'} (h' : ∀ s ∈ segments', IsSegment s)
    (heq : absPath segments = absPath segments') : segments = segments' := by
  rw [← cleanSegments_absPath h, heq, cleanSegments_absPath h']

/-- A cleaned absolute path stays as it is. -/
theorem pathClean_absPath : pathClean (absPath segments) = absPath segments := by
  rw [pathClean_eq_absPath rfl, cleanSegments_absPath h]

/-! ## Joining -/

/-- `filepath.Join` of two elements. -/
def pathJoin (front rest : Runes) : Runes :=
  if front = [] then if rest = [] then [] else pathClean rest
  else pathClean (front ++ '/' :: rest)

/-- `filepath.Abs`, with the working directory. -/
def absolute (workingDirectory path : Runes) : Runes :=
  if isAbs path then pathClean path else pathJoin workingDirectory path

/-- Joining goes on cleaning below the first path. -/
theorem pathJoin_absPath (rest : Runes) : pathJoin (absPath segments) rest =
      absPath (((rest.splitOn '/').foldl (cleanSegment true) segments.reverse).reverse) := by
  have habs : isAbs (absPath segments ++ '/' :: rest) = true := rfl
  rw [pathJoin, if_neg (by simp [absPath]), pathClean_eq_absPath habs, cleanSegments, habs,
    List.splitOn_append_cons_self, splitOn_absPath h]
  rw [List.foldl_append, List.foldl_cons]
  split_ifs with hnil
  · rw [hnil]
    rfl
  · rw [foldl_cleanSegment_of_segments h]
    simp [cleanSegment]

section Absolute

variable {workingDirectory : Runes}

omit h in
/-- Every path becomes absolute and clean. -/
theorem absolute_eq_absPath (hworking : isAbs workingDirectory = true) (path : Runes) :
    ∃ segments, (∀ s ∈ segments, IsSegment s) ∧
      absolute workingDirectory path = absPath segments := by
  rw [absolute]
  split_ifs with habs
  · exact ⟨_, cleanSegments_isSegment habs, pathClean_eq_absPath habs⟩
  · have hne : workingDirectory ≠ [] := by
      rintro rfl
      cases hworking
    have hjoined : isAbs (workingDirectory ++ '/' :: path) = true := by
      rw [isAbs, List.head?_append_of_ne_nil _ hne]
      exact hworking
    rw [pathJoin, if_neg hne]
    exact ⟨_, cleanSegments_isSegment hjoined, pathClean_eq_absPath hjoined⟩

theorem absolute_absPath :
    absolute workingDirectory (absPath segments) = absPath segments := by
  rw [absolute, if_pos (isAbs_absPath _), pathClean_absPath h]

omit h in
theorem absolute_of_isAbs {path : Runes} (h : isAbs path = true) :
    absolute workingDirectory (pathClean path) = absPath (cleanSegments path) := by
  rw [pathClean_eq_absPath h, absolute_absPath (cleanSegments_isSegment h)]

end Absolute

end Segments

/-! ## Relative paths -/

/-- The number of first elements that two lists share. -/
def commonLength {α : Type} [DecidableEq α] : List α → List α → Nat
  | a :: as, b :: bs => if a = b then commonLength as bs + 1 else 0
  | _, _ => 0

/-- `filepath.Rel`. -/
def pathRel (base target : Runes) : Option Runes :=
  let baseSegments := cleanSegments base
  let targetSegments := cleanSegments target
  let common := commonLength baseSegments targetSegments
  let left := baseSegments.drop common
  if isAbs base ≠ isAbs target ∨ left.head? = some ['.', '.'] then none
  else match left.map (fun _ => ['.', '.']) ++ targetSegments.drop common with
    | [] => some ['.']
    | segments => some (['/'].intercalate segments)

/-- A relative path that leaves its base. -/
def leavesBase (relative : Runes) : Bool :=
  relative = ['.', '.'] || decide (['.', '.', '/'] <+: relative)

/-- `Rel` gives a path that does not leave the base. -/
def pathContains (root target : Runes) : Bool :=
  (pathRel root target).any fun relative => !leavesBase relative

theorem drop_commonLength_eq_nil_iff {α : Type} [DecidableEq α] {as bs : List α} :
    as.drop (commonLength as bs) = [] ↔ as <+: bs := by
  induction as generalizing bs with
  | nil => simp
  | cons a as ih =>
    cases bs with
    | nil => simp [commonLength]
    | cons b bs =>
      rw [commonLength]
      split_ifs with heq
      · rw [List.drop_succ_cons, ih]
        simp [heq]
      · simp [heq]

/-- A list of segments leaves its base if it begins with `..`. -/
theorem leavesBase_intercalate {first : Runes} {rest} (h : '/' ∉ first) :
    leavesBase (['/'].intercalate (first :: rest)) = true ↔ first = ['.', '.'] := by
  rw [leavesBase, Bool.or_eq_true, decide_eq_true_eq, decide_eq_true_eq]
  cases rest with
  | nil =>
    refine ⟨fun hleaves => ?_, fun hfirst => Or.inl (by simpa using hfirst)⟩
    rcases hleaves with heq | hslash
    · simpa using heq
    · have hmem : '/' ∈ ['/'].intercalate [first] := hslash.subset (by simp)
      exact absurd (by simpa using hmem) h
  | cons second rest =>
    rw [List.intercalate_cons_cons, List.append_assoc, List.singleton_append]
    constructor
    · rintro (heq | ⟨tail, htail⟩)
      · have hmem : '/' ∈ ['.', '.'] := heq ▸ by simp
        exact absurd hmem (by decide)
      · -- both sides are cut at their first slash
        have hsplit := congrArg (List.splitOn '/') htail
        rw [show ['.', '.', '/'] ++ tail = ['.', '.'] ++ '/' :: tail from rfl,
          List.splitOn_append_cons_self_of_not_mem h] at hsplit
        exact (List.cons.inj hsplit).1.symm
    · rintro rfl
      exact Or.inr ⟨_, rfl⟩

/-- **Containment is a matter of segments.** -/
theorem pathContains_iff {root target : Runes} (hroot : isAbs root = true)
    (htarget : isAbs target = true) :
    pathContains root target = true ↔ cleanSegments root <+: cleanSegments target := by
  have hrootSegments := cleanSegments_isSegment hroot
  have htargetSegments := cleanSegments_isSegment htarget
  have hhead : ¬ (isAbs root ≠ isAbs target ∨ ((cleanSegments root).drop
      (commonLength (cleanSegments root) (cleanSegments target))).head? = some ['.', '.']) := by
    rintro (hne | hup)
    · exact hne (hroot.trans htarget.symm)
    · exact (hrootSegments _ (List.mem_of_mem_drop (List.mem_of_mem_head? hup))).2.2.1 rfl
  rw [pathContains, pathRel, if_neg hhead, ← drop_commonLength_eq_nil_iff]
  cases hdrop : (cleanSegments root).drop
      (commonLength (cleanSegments root) (cleanSegments target)) with
  | nil =>
    cases hrest : (cleanSegments target).drop
        (commonLength (cleanSegments root) (cleanSegments target)) with
    | nil => simp [leavesBase]
    | cons first rest =>
      have hfirst : IsSegment first :=
        htargetSegments first (List.mem_of_mem_drop (hrest ▸ List.mem_cons_self))
      have hstays : leavesBase (['/'].intercalate (first :: rest)) = false :=
        Bool.eq_false_iff.mpr fun h => hfirst.2.2.1 ((leavesBase_intercalate hfirst.2.2.2).mp h)
      simp [hstays]
  | cons segment segments =>
    have hleaves : leavesBase (['/'].intercalate (['.', '.'] :: (segments.map
        (fun _ => ['.', '.']) ++ (cleanSegments target).drop
          (commonLength (cleanSegments root) (cleanSegments target))))) = true :=
      (leavesBase_intercalate (by decide)).mpr rfl
    rw [List.map_cons, List.cons_append, Option.any_some, hleaves]
    simp

end EmbyAuto
