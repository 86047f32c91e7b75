import EmbyAuto.Domain.FileSelection
import EmbyAuto.Domain.Path
import EmbyAuto.Store.Value

/-!
# Paths that the media workers write to

The workers join names from torrents and from the catalogue to configured directories. `secureJoin`
refuses a name that leads out of its directory; `buildMediaOutputPaths` places an output below the
directory of its task, and a temporary file beside it.

## Main definitions

* `secureJoin`, `buildMediaOutputPaths`: the functions of the workers
* `temporaryName`: the name of the temporary file

## Main results

* `secureJoin_below`, `secureJoin_of_valid`: where `secureJoin` leads, and what it accepts
* `temporaryName_inj`: the temporary name tells the name and the operation
* `output_paths_contained`: where the paths lie, and that temporary paths do not collide
-/

namespace EmbyAuto

/-! ## The functions -/

/-- The file that an operation of a task writes. -/
structure MediaOutputPaths where
  directory : Runes
  final : Runes
  temporary : Runes
  deriving DecidableEq

/-- The name beside the final one, marked with the operation. -/
def temporaryName (fileName : String) (operationID : UUID) : Runes :=
  '.' :: (fileStem fileName).toList ++ '.' :: (UUID.text operationID).toList ++ ".part".toList ++
    (fileExt fileName).toList

section Functions

variable (workingDirectory : Runes)

def secureJoin (basePath relativePath : String) : Except String String :=
  if trimSpace basePath = "" ∨ trimSpace relativePath = "" ∨ isAbs relativePath.toList then
    .error "base path and safe relative path are required"
  else
    let base := absolute workingDirectory (pathClean basePath.toList)
    let candidate := absolute workingDirectory (pathJoin base (forwardSlashes relativePath).toList)
    if pathContains base candidate then .ok (.ofList candidate)
    else .error "path escapes configured base"

def buildMediaOutputPaths (stagingRoot : String) (taskID operationID : UUID)
    (relativePath : String) : Except String MediaOutputPaths :=
  if taskID = 0 ∨ operationID = 0 ∨ trimSpace relativePath = "" then
    .error "task, operation, and relative output path are required"
  else if isAbs (forwardSlashes relativePath).toList then
    .error "media output path must be relative"
  else
    let normalized := pathClean (forwardSlashes relativePath).toList
    let fileName := fileBase (.ofList normalized)
    let taskRoot := pathJoin (absolute workingDirectory (pathClean stagingRoot.toList))
      (UUID.text taskID).toList
    let final := pathJoin taskRoot normalized
    if normalized = ['.'] ∨ leavesBase normalized then
      .error "media output path escapes the task directory"
    else if trimSpace fileName = "" ∨ fileName = "." then
      .error "media output filename is required"
    else if pathContains taskRoot final then
      .ok
        { directory := pathDir final
          final
          temporary := pathJoin (pathDir final) (temporaryName fileName operationID) }
    else .error "media output path escapes the task directory"

end Functions

example : (buildMediaOutputPaths "/".toList "/srv/staging" 7 12 "Show\\Season 2/e1.mkv").toOption =
    let directory := "/srv/staging/" ++ UUID.text 7 ++ "/Show/Season 2"
    some { directory := directory.toList, final := (directory ++ "/e1.mkv").toList
           temporary := (directory ++ "/.e1." ++ UUID.text 12 ++ ".part.mkv").toList } := by
  decide +kernel

/-! ## Relative paths -/

variable {segments : List Runes}

theorem forall_mem_concat {name : Runes} (hsegments : ∀ s ∈ segments, IsSegment s)
    (hname : IsSegment name) : ∀ s ∈ segments ++ [name], IsSegment s :=
  List.forall_mem_append.mpr ⟨hsegments, List.forall_mem_singleton.mpr hname⟩

/-- The segments of a cleaned relative path, in reverse: proper ones, and `..` in front of them. -/
def RelativeSegments (cleaned : List Runes) : Prop :=
  ∃ segments ups : List Runes, cleaned = segments ++ ups ∧ (∀ s ∈ segments, IsSegment s) ∧
    ∀ s ∈ ups, s = ['.', '.']

theorem RelativeSegments.step {cleaned} (h : RelativeSegments cleaned) {segment : Runes}
    (hslash : '/' ∉ segment) : RelativeSegments (cleanSegment false cleaned segment) := by
  obtain ⟨segments, ups, rfl, hsegments, hups⟩ := h
  by_cases hsegment : IsSegment segment
  · rw [cleanSegment_of_isSegment hsegment]
    exact ⟨segment :: segments, ups, rfl, List.forall_mem_cons.mpr ⟨hsegment, hsegments⟩, hups⟩
  unfold cleanSegment
  by_cases htrivial : segment = [] ∨ segment = ['.']
  · rw [if_pos htrivial]
    exact ⟨segments, ups, rfl, hsegments, hups⟩
  rw [not_or] at htrivial
  have hup : segment = ['.', '.'] := by
    by_contra hup
    exact hsegment ⟨htrivial.1, htrivial.2, hup, hslash⟩
  rw [if_neg (by simp [htrivial]), if_pos hup]
  cases segments with
  | nil =>
    -- only `..` so far: one more
    refine ⟨[], segment :: ups, ?_, nofun, List.forall_mem_cons.mpr ⟨hup, hups⟩⟩
    cases ups with
    | nil => rfl
    | cons last rest => simp [hups last List.mem_cons_self]
  | cons last rest =>
    obtain ⟨hlast, hrest⟩ := List.forall_mem_cons.mp hsegments
    exact ⟨rest, ups, by simp [hlast.2.2.1], hrest, hups⟩

theorem relativeSegments_foldl {segments cleaned : List Runes} (h : RelativeSegments cleaned)
    (hslash : ∀ s ∈ segments, '/' ∉ s) :
    RelativeSegments (segments.foldl (cleanSegment false) cleaned) := by
  induction segments generalizing cleaned with
  | nil => exact h
  | cons segment segments ih =>
    obtain ⟨hsegment, hslash⟩ := List.forall_mem_cons.mp hslash
    exact ih (h.step hsegment) hslash

/-- The cleaned relative path with given segments. -/
theorem pathClean_of_relative {path : Runes} (hrelative : isAbs path = false)
    {first : Runes} {rest} (hsegments : cleanSegments path = first :: rest)
    (hfirst : first ≠ []) : pathClean path = ['/'].intercalate (first :: rest) := by
  have hrooted : ¬ path.head? = some '/' := by simpa [isAbs] using hrelative
  rw [cleanSegments, isAbs] at hsegments
  rw [pathClean]
  simp only [hrooted] at hsegments ⊢
  rw [hsegments]
  cases htext : ['/'].intercalate (first :: rest) with
  | nil => exact absurd htext (intercalate_ne_nil hfirst)
  | cons c text => rfl

/-- A relative path that stays below its base is a list of segments. -/
theorem pathClean_relative {path : Runes} (hrelative : isAbs path = false)
    (hdot : pathClean path ≠ ['.']) (hstays : leavesBase (pathClean path) = false) :
    ∃ segments name, (∀ s ∈ segments, IsSegment s) ∧ IsSegment name ∧
      pathClean path = ['/'].intercalate (segments ++ [name]) := by
  have hcleaned : RelativeSegments (cleanSegments path).reverse := by
    rw [cleanSegments, hrelative, List.reverse_reverse]
    exact relativeSegments_foldl ⟨[], [], rfl, by simp, by simp⟩ (splitOn_not_mem path)
  obtain ⟨segments, ups, hsplit, hsegments, hups⟩ := hcleaned
  have hcleaned : cleanSegments path = ups.reverse ++ segments.reverse := by
    rw [← List.reverse_reverse (cleanSegments path), hsplit, List.reverse_append]
  cases hupsCase : ups.reverse with
  | cons up rest =>
    -- the path would begin with `..`
    have hup : up = ['.', '.'] := hups up (List.mem_reverse.mp (hupsCase ▸ List.mem_cons_self))
    rw [hupsCase] at hcleaned
    rw [pathClean_of_relative hrelative hcleaned (by simp [hup]), hup,
      (leavesBase_intercalate (by decide)).mpr rfl] at hstays
    cases hstays
  | nil =>
    rw [hupsCase] at hcleaned
    cases segments with
    | nil =>
      refine absurd ?_ hdot
      have hrooted : ¬ path.head? = some '/' := by simpa [isAbs] using hrelative
      rw [cleanSegments, isAbs] at hcleaned
      rw [pathClean]
      simp only [hrooted] at hcleaned ⊢
      rw [hcleaned]
      rfl
    | cons name rest =>
      rw [List.reverse_cons] at hcleaned
      refine ⟨rest.reverse, name, ?_, hsegments name List.mem_cons_self, ?_⟩
      · intro s hs
        exact hsegments s (List.mem_cons_of_mem _ (List.mem_reverse.mp hs))
      · cases hfront : rest.reverse ++ [name] with
        | nil => simp at hfront
        | cons first tail =>
          rw [hfront] at hcleaned
          refine pathClean_of_relative hrelative hcleaned (hsegments first ?_).1
          have hmem : first ∈ rest.reverse ++ [name] := hfront ▸ List.mem_cons_self
          simpa [or_comm] using hmem

/-- Segments below a directory. -/
theorem pathJoin_segments {base segments} {name : Runes} (hbase : ∀ s ∈ base, IsSegment s)
    (hsegments : ∀ s ∈ segments, IsSegment s) (hname : IsSegment name) :
    pathJoin (absPath base) (['/'].intercalate (segments ++ [name])) =
      absPath (base ++ segments ++ [name]) := by
  have hall := forall_mem_concat hsegments hname
  rw [pathJoin_absPath hbase, List.splitOn_intercalate _ (fun s hs => (hall s hs).2.2.2) (by simp),
    foldl_cleanSegment_of_segments hall]
  simp

theorem pathJoin_name {base} {name : Runes} (hbase : ∀ s ∈ base, IsSegment s)
    (hname : IsSegment name) : pathJoin (absPath base) name = absPath (base ++ [name]) := by
  simpa using @pathJoin_segments base [] name hbase (by simp) hname

/-- The text of segments in front of a last one. -/
def frontText (segments : List Runes) : Runes :=
  if segments = [] then [] else ['/'].intercalate segments ++ ['/']

theorem intercalate_concat (segments : List Runes) (name : Runes) :
    ['/'].intercalate (segments ++ [name]) = frontText segments ++ name := by
  induction segments with
  | nil => simp [frontText]
  | cons segment segments ih =>
    rw [List.cons_append, List.intercalate_cons_of_ne_nil (by simp), ih, frontText, frontText]
    by_cases hnil : segments = []
    · simp [hnil]
    · rw [if_neg hnil, List.intercalate_cons_of_ne_nil hnil]
      simp

theorem span_reverse_slash {front name : Runes} (hname : '/' ∉ name)
    (hfront : front = [] ∨ ∃ rest, front = rest ++ ['/']) :
    (front ++ name).reverse.dropWhile (· ≠ '/') = front.reverse ∧
      (front ++ name).reverse.takeWhile (· ≠ '/') = name.reverse := by
  have hskip := forall_ne_of_not_mem (mt List.mem_reverse.mp hname)
  rw [List.reverse_append, List.dropWhile_append_of_pos hskip, List.takeWhile_append_of_pos hskip]
  rcases hfront with rfl | ⟨rest, rfl⟩ <;> simp

theorem frontText_cases (segments : List Runes) :
    frontText segments = [] ∨ ∃ rest, frontText segments = rest ++ ['/'] := by
  rw [frontText]
  split_ifs
  · exact Or.inl rfl
  · exact Or.inr ⟨_, rfl⟩

/-- The directory of a path. -/
theorem pathDir_absPath {name : Runes} (hsegments : ∀ s ∈ segments, IsSegment s)
    (hname : IsSegment name) : pathDir (absPath (segments ++ [name])) = absPath segments := by
  have hfront : '/' :: frontText segments = [] ∨
      ∃ rest, '/' :: frontText segments = rest ++ ['/'] := by
    rcases frontText_cases segments with hnil | ⟨rest, hrest⟩
    · exact Or.inr ⟨[], by simp [hnil]⟩
    · exact Or.inr ⟨'/' :: rest, by simp [hrest]⟩
  rw [pathDir, absPath, intercalate_concat, ← List.cons_append,
    (span_reverse_slash hname.2.2.2 hfront).1, List.reverse_reverse, frontText]
  split_ifs with hnil
  · rw [hnil]
    decide
  · rw [pathClean_eq_absPath rfl, ← List.cons_append, ← absPath]
    have hjoin := pathJoin_absPath hsegments []
    rw [pathJoin, if_neg (by simp [absPath]), pathClean_eq_absPath rfl] at hjoin
    rw [hjoin]
    simp [cleanSegment]

/-- The last segment of a path. -/
theorem fileBase_intercalate (segments : List Runes) {name : Runes}
    (hname : IsSegment name) :
    fileBase (.ofList (['/'].intercalate (segments ++ [name]))) = .ofList name := by
  have hne : frontText segments ++ name ≠ [] := by simp [hname.1]
  have hlast : ∀ c ∈ (frontText segments ++ name).reverse.head?, decide (c = '/') = false := by
    intro c hc
    rw [List.head?_reverse, List.getLast?_append_of_ne_nil _ hname.1] at hc
    simpa using fun heq : c = '/' => hname.2.2.2 (heq ▸ List.mem_of_mem_getLast? hc)
  have htake := (span_reverse_slash hname.2.2.2 (frontText_cases segments)).2
  rw [fileBase, intercalate_concat, if_neg (by simpa using hne), String.toList_ofList,
    dropWhile_eq_self hlast]
  cases hreverse : (frontText segments ++ name).reverse with
  | nil => exact absurd (List.reverse_eq_nil_iff.mp hreverse) hne
  | cons c rest =>
    rw [hreverse] at htake
    show String.ofList ((c :: rest).takeWhile (· ≠ '/')).reverse = _
    rw [htake, List.reverse_reverse]

/-! ## Temporary names -/

/-- A name without a dot has no extension; otherwise the extension begins at the last dot. -/
theorem fileStem_fileExt (fileName : String) :
    (fileStem fileName = fileName ∧ fileExt fileName = "") ∨
      ∃ stem extension, '.' ∉ extension ∧ fileName.toList = stem ++ '.' :: extension ∧
        fileStem fileName = .ofList stem ∧ fileExt fileName = .ofList ('.' :: extension) := by
  have hsplit : splitExt fileName = (fileName.toList.reverse.takeWhile (· ≠ '.'),
      fileName.toList.reverse.dropWhile (· ≠ '.')) := List.span_eq_takeWhile_dropWhile _ _
  have happend := List.takeWhile_append_dropWhile (p := (· ≠ '.')) (l := fileName.toList.reverse)
  rw [fileStem, fileExt, hsplit]
  cases hrest : fileName.toList.reverse.dropWhile (· ≠ '.') with
  | nil => exact Or.inl ⟨rfl, rfl⟩
  | cons c stem =>
    have hdot : c = '.' := by
      have hhead := List.head?_dropWhile_not (fun c => decide (c ≠ '.')) fileName.toList.reverse
      rw [hrest] at hhead
      simpa using hhead
    subst hdot
    refine Or.inr ⟨stem.reverse, (fileName.toList.reverse.takeWhile (· ≠ '.')).reverse, ?_, ?_, rfl,
      rfl⟩
    · intro hmem
      simpa using List.mem_takeWhile_imp (List.mem_reverse.mp hmem)
    · rw [hrest] at happend
      simpa using (congrArg List.reverse happend).symm

/-- A text is cut at its last dot in one way. -/
theorem last_dot_inj {front front' rest rest' : Runes} (hrest : '.' ∉ rest)
    (hrest' : '.' ∉ rest') (h : front ++ '.' :: rest = front' ++ '.' :: rest') :
    front = front' ∧ rest = rest' := by
  have hreverse := congrArg (List.splitOn '.') (congrArg List.reverse h)
  simp only [List.reverse_append, List.reverse_cons, List.append_assoc, List.singleton_append]
    at hreverse
  rw [List.splitOn_append_cons_self_of_not_mem (by simpa using hrest),
    List.splitOn_append_cons_self_of_not_mem (by simpa using hrest')] at hreverse
  have heq : rest = rest' := List.reverse_injective (List.cons.inj hreverse).1
  subst heq
  exact ⟨List.append_cancel_right h, rfl⟩

theorem UUID.not_mem_text (id : UUID) {c : Char} (hc : c ∉ "-0123456789abcdef".toList) :
    c ∉ (UUID.text id).toList := fun hmem => hc (List.mem_cons.mpr (UUID.mem_text hmem))

/-- A name with a character other than a dot, and without a slash. -/
theorem isSegment_of_mem {segment : Runes} {c : Char} (hc : c ∈ segment) (hdot : c ≠ '.')
    (hslash : '/' ∉ segment) : IsSegment segment := by
  refine ⟨?_, ?_, ?_, hslash⟩
  · rintro rfl
    cases hc
  · rintro rfl
    exact hdot (List.mem_singleton.mp hc)
  · rintro rfl
    simp [hdot] at hc

theorem UUID.text_isSegment (id : UUID) : IsSegment (UUID.text id).toList := by
  have hdash : '-' ∈ (UUID.text id).toList := by simp [UUID.text]
  exact isSegment_of_mem hdash (by decide) (UUID.not_mem_text id (by decide))

/-- The name without its extension, and the extension. -/
theorem temporaryName_cases (fileName : String) (operationID : UUID) :
    temporaryName fileName operationID =
        ('.' :: fileName.toList ++ '.' :: (UUID.text operationID).toList) ++ '.' :: "part".toList ∨
      ∃ stem extension, '.' ∉ extension ∧ fileName.toList = stem ++ '.' :: extension ∧
        temporaryName fileName operationID =
          (('.' :: stem ++ '.' :: (UUID.text operationID).toList) ++ '.' :: "part".toList) ++
            '.' :: extension := by
  rw [temporaryName]
  rcases fileStem_fileExt fileName with ⟨hstem, hext⟩ | ⟨stem, extension, hdot, hname, hstem, hext⟩
  · left
    rw [hstem, hext]
    simp
  · right
    refine ⟨stem, extension, hdot, hname, ?_⟩
    rw [hstem, hext]
    simp

/-- **The temporary name tells the name and the operation.** -/
theorem temporaryName_inj {fileName fileName' : String} {operationID operationID' : UUID}
    (h : temporaryName fileName operationID = temporaryName fileName' operationID') :
    fileName = fileName' ∧ operationID = operationID' := by
  have hop (id : UUID) : '.' ∉ (UUID.text id).toList := UUID.not_mem_text id (by decide)
  have hpart : '.' ∉ "part".toList := by decide
  have hpartOp (id : UUID) : "part".toList ≠ (UUID.text id).toList := by
    intro heq
    exact UUID.not_mem_text id (c := 'p') (by decide) (heq ▸ by decide)
  -- the dot in front of the operation is the last but one, or the last but two
  have hcut {stem stem' : Runes}
      (heq : '.' :: stem ++ '.' :: (UUID.text operationID).toList =
        '.' :: stem' ++ '.' :: (UUID.text operationID').toList) :
      stem = stem' ∧ operationID = operationID' := by
    obtain ⟨hstem, htext⟩ := last_dot_inj (hop _) (hop _) heq
    exact ⟨(List.cons.inj hstem).2, UUID.text_injective (String.toList_injective htext)⟩
  obtain hname | ⟨stem, extension, hdot, hfile, hname⟩ :=
      temporaryName_cases fileName operationID <;>
    obtain hname' | ⟨stem', extension', hdot', hfile', hname'⟩ :=
      temporaryName_cases fileName' operationID'
  · rw [hname, hname'] at h
    obtain ⟨hstem, hoperation⟩ := hcut (last_dot_inj hpart hpart h).1
    exact ⟨String.toList_injective hstem, hoperation⟩
  · -- the extension would be `part`, and the operation too
    rw [hname, hname'] at h
    have hfront := (last_dot_inj hpart hdot' h).1
    exact absurd (last_dot_inj (hop _) hpart hfront).2.symm (hpartOp _)
  · rw [hname, hname'] at h
    have hfront := (last_dot_inj hdot hpart h).1
    exact absurd (last_dot_inj hpart (hop _) hfront).2 (hpartOp _)
  · rw [hname, hname'] at h
    obtain ⟨hfront, hextension⟩ := last_dot_inj hdot hdot' h
    obtain ⟨hstem, hoperation⟩ := hcut (last_dot_inj hpart hpart hfront).1
    refine ⟨String.toList_injective ?_, hoperation⟩
    rw [hfile, hfile', hstem, hextension]

theorem temporaryName_isSegment {fileName : String} (hslash : '/' ∉ fileName.toList)
    (operationID : UUID) : IsSegment (temporaryName fileName operationID) := by
  have hop : '/' ∉ (UUID.text operationID).toList := UUID.not_mem_text operationID (by decide)
  rcases temporaryName_cases fileName operationID with hname | ⟨stem, extension, -, hfile, hname⟩
  · rw [hname]
    exact @isSegment_of_mem _ 'p' (by simp) (by decide) (by simp [hslash, hop])
  · rw [hfile] at hslash
    rw [hname]
    simp only [List.mem_append, not_or] at hslash
    exact @isSegment_of_mem _ 'p' (by simp) (by decide) (by simp [hslash, hop])

theorem temporaryName_ne (fileName : String) (operationID : UUID) :
    temporaryName fileName operationID ≠ fileName.toList := by
  intro heq
  have hlength := congrArg List.length heq
  rcases temporaryName_cases fileName operationID with hname | ⟨stem, extension, -, hfile, hname⟩
  · rw [hname] at hlength
    simp at hlength
    omega
  · rw [hname, hfile] at hlength
    simp at hlength
    omega

/-! ## Joining a safe path -/

section Workers

variable {workingDirectory : Runes}

/-- A text in front of a path goes into its first segment. -/
theorem up_not_mem_append_left {front text : Runes} (hfront : ∀ c ∈ front, c ≠ '/' ∧ c ≠ '.')
    (h : ['.', '.'] ∉ text.splitOn '/') : ['.', '.'] ∉ (front ++ text).splitOn '/' := by
  induction front with
  | nil => exact h
  | cons c front ih =>
    obtain ⟨hslash, hdot⟩ := hfront c List.mem_cons_self
    have hrest := ih fun d hd => hfront d (List.mem_cons_of_mem _ hd)
    rw [List.cons_append, List.splitOn_cons_eq_if_modifyHead, if_neg (by simpa using hslash)]
    cases hsplit : (front ++ text).splitOn '/' with
    | nil => simp
    | cons first rest =>
      rw [hsplit] at hrest
      intro hmem
      rcases List.mem_cons.mp hmem with heq | hmem
      · exact hdot (List.cons.inj heq).1.symm
      · exact hrest (List.mem_cons_of_mem _ hmem)

/-- A text behind a path goes into its last segment. -/
theorem splitOn_append_of_not_mem {back : Runes} (hback : '/' ∉ back) (text : Runes) :
    ∃ front last, text.splitOn '/' = front ++ [last] ∧
      (text ++ back).splitOn '/' = front ++ [last ++ back] := by
  induction text with
  | nil => exact ⟨[], [], by simp, by simpa using List.splitOn_eq_singleton hback⟩
  | cons c text ih =>
    obtain ⟨front, last, htext, happend⟩ := ih
    rw [List.cons_append, List.splitOn_cons_eq_if_modifyHead, List.splitOn_cons_eq_if_modifyHead,
      htext, happend]
    split_ifs with hslash
    · exact ⟨[] :: front, last, rfl, rfl⟩
    · cases front with
      | nil => exact ⟨[], c :: last, rfl, rfl⟩
      | cons first front => exact ⟨(c :: first) :: front, last, rfl, rfl⟩

theorem up_not_mem_append_right {text back : Runes} (hback : ∀ c ∈ back, c ≠ '/' ∧ c ≠ '.')
    (h : ['.', '.'] ∉ text.splitOn '/') : ['.', '.'] ∉ (text ++ back).splitOn '/' := by
  obtain ⟨front, last, htext, happend⟩ :=
    splitOn_append_of_not_mem (fun hmem => (hback _ hmem).1 rfl) text
  rw [htext] at h
  rw [happend]
  intro hmem
  rcases List.mem_append.mp hmem with hmem | hmem
  · exact h (List.mem_append_left _ hmem)
  have heq : ['.', '.'] = last ++ back := List.mem_singleton.mp hmem
  cases back with
  | nil =>
    rw [List.append_nil] at heq
    exact h (by simp [← heq])
  | cons c back =>
    -- a character of the text behind the path would be a dot
    have hc : c ∈ ['.', '.'] := heq ▸ List.mem_append_right _ List.mem_cons_self
    exact (hback c List.mem_cons_self).2 (by simpa using hc)

/-- What trimming cuts off. -/
theorem trimFunc_append (p : Char → Bool) (text : Runes) :
    ∃ front back, text = front ++ trimFunc p text ++ back ∧ (∀ c ∈ front, p c = true) ∧
      ∀ c ∈ back, p c = true := by
  refine ⟨text.takeWhile p, ((text.dropWhile p).reverse.takeWhile p).reverse, ?_,
    fun c hc => List.mem_takeWhile_imp hc,
    fun c hc => List.mem_takeWhile_imp (List.mem_reverse.mp hc)⟩
  rw [trimFunc, List.append_assoc, ← List.reverse_append, List.takeWhile_append_dropWhile,
    List.reverse_reverse, List.takeWhile_append_dropWhile]

theorem isSpace_ne {c : Char} (h : isSpace c = true) : c ≠ '/' ∧ c ≠ '.' ∧ c ≠ '\\' := by
  refine ⟨?_, ?_, ?_⟩ <;> rintro rfl <;> cases h

theorem map_slashes_spaces {text : Runes} (h : ∀ c ∈ text, isSpace c = true) :
    (text.map fun c => if c = '\\' then '/' else c) = text := by
  rw [List.map_congr_left fun c hc => if_neg (isSpace_ne (h c hc)).2.2, List.map_id']

variable {relativePath : String}

theorem no_up_of_valid (h : relativeDownloadPathValid relativePath = true) :
    ['.', '.'] ∉ (forwardSlashes relativePath).toList.splitOn '/' := by
  obtain ⟨front, back, htext, hfront, hback⟩ := trimFunc_append isSpace relativePath.toList
  have hvalid : ['.', '.'] ∉ (forwardSlashes (trimSpace relativePath)).toList.splitOn '/' := by
    simp only [relativeDownloadPathValid, Bool.and_eq_true, List.all_eq_true, decide_eq_true_eq]
      at h
    exact fun hmem => h.2 _ hmem rfl
  have hspaces {text : Runes} (hspace : ∀ c ∈ text, isSpace c = true) :
      ∀ c ∈ text, c ≠ '/' ∧ c ≠ '.' := fun c hc =>
    ⟨(isSpace_ne (hspace c hc)).1, (isSpace_ne (hspace c hc)).2.1⟩
  rw [forwardSlashes, trimSpace, String.toList_ofList, String.toList_ofList] at hvalid
  rw [forwardSlashes, String.toList_ofList, htext, List.map_append, List.map_append,
    map_slashes_spaces hfront, map_slashes_spaces hback]
  exact up_not_mem_append_right (hspaces hback) (up_not_mem_append_left (hspaces hfront) hvalid)

theorem trimSpace_ne_empty {text : String} {c : Char} (hc : c ∈ text.toList)
    (hspace : isSpace c = false) : trimSpace text ≠ "" := by
  obtain ⟨front, back, htext, hfront, hback⟩ := trimFunc_append isSpace text.toList
  intro hempty
  have htrim : trimFunc isSpace text.toList = [] := by simpa [trimSpace] using hempty
  rw [htext, htrim, List.append_nil, List.mem_append] at hc
  rcases hc with hc | hc
  · rw [hfront c hc] at hspace
    cases hspace
  · rw [hback c hc] at hspace
    cases hspace

theorem isAbs_of_valid (h : relativeDownloadPathValid relativePath = true) :
    isAbs relativePath.toList = false ∧ trimSpace relativePath ≠ "" := by
  obtain ⟨front, back, htext, hfront, -⟩ := trimFunc_append isSpace relativePath.toList
  simp only [relativeDownloadPathValid, Bool.and_eq_true, decide_eq_true_eq] at h
  obtain ⟨⟨⟨⟨hne, -⟩, hhead⟩, -⟩, -⟩ := h
  rw [forwardSlashes, trimSpace, String.toList_ofList, String.toList_ofList] at hne hhead
  have htrim : trimFunc isSpace relativePath.toList ≠ [] := fun hnil => hne (by rw [hnil]; rfl)
  refine ⟨?_, fun hempty => htrim (by simpa [trimSpace] using hempty)⟩
  rw [isAbs, decide_eq_false_iff_not]
  intro hslash
  rw [htext] at hslash
  cases front with
  | cons c front =>
    have hc : c = '/' := Option.some.inj hslash
    exact (isSpace_ne (hfront c List.mem_cons_self)).1 hc
  | nil =>
    rw [List.nil_append, List.head?_append_of_ne_nil _ htrim] at hslash
    exact hhead (by rw [List.head?_map, hslash]; rfl)

/-- Every relative path that a download may have is joined to an absolute base. -/
theorem secureJoin_of_valid {basePath relativePath : String} (hbase : isAbs basePath.toList = true)
    (h : relativeDownloadPathValid relativePath = true) :
    ∃ path, secureJoin workingDirectory basePath relativePath = .ok path := by
  have hslash : '/' ∈ basePath.toList := List.mem_of_mem_head? (of_decide_eq_true hbase)
  have hproper := cleanSegments_isSegment hbase
  have hbaseText := @absolute_of_isAbs workingDirectory _ hbase
  -- without `..` the join only goes down
  have hjoin : pathJoin (absPath (cleanSegments basePath.toList))
      (forwardSlashes relativePath).toList =
      absPath (cleanSegments basePath.toList ++
        ((forwardSlashes relativePath).toList.splitOn '/').filter fun s => s ≠ [] ∧ s ≠ ['.']) := by
    rw [pathJoin_absPath hproper, foldl_cleanSegment_of_no_up fun s hs heq =>
      no_up_of_valid h (heq ▸ hs)]
    simp
  have hall : ∀ s ∈ cleanSegments basePath.toList ++
      ((forwardSlashes relativePath).toList.splitOn '/').filter fun s => s ≠ [] ∧ s ≠ ['.'],
      IsSegment s := by
    refine List.forall_mem_append.mpr ⟨hproper, fun s hs => ?_⟩
    obtain ⟨hmem, hkeep⟩ := List.mem_filter.mp hs
    have hkeep : s ≠ [] ∧ s ≠ ['.'] := of_decide_eq_true hkeep
    exact ⟨hkeep.1, hkeep.2, fun heq => no_up_of_valid h (heq ▸ hmem), splitOn_not_mem _ s hmem⟩
  rw [secureJoin, if_neg (by simp [trimSpace_ne_empty hslash rfl, isAbs_of_valid h])]
  simp only [hbaseText, hjoin, absolute_absPath hall]
  rw [if_pos]
  · exact ⟨_, rfl⟩
  · rw [pathContains_iff (isAbs_absPath _) (isAbs_absPath _), cleanSegments_absPath hproper,
      cleanSegments_absPath hall]
    exact List.prefix_append _ _

/-! ## Output paths -/

/-- The path goes down from the directory. -/
def StrictlyBelow (directory path : Runes) : Prop :=
  ∃ rest, rest ≠ [] ∧ cleanSegments path = cleanSegments directory ++ rest

theorem strictlyBelow_absPath {directory rest} (hrest : rest ≠ [])
    (hall : ∀ s ∈ directory ++ rest, IsSegment s) :
    StrictlyBelow (absPath directory) (absPath (directory ++ rest)) := by
  refine ⟨rest, hrest, ?_⟩
  rw [cleanSegments_absPath hall,
    cleanSegments_absPath fun s hs => hall s (List.mem_append_left _ hs)]

/-- What `secureJoin` returns lies in the base. -/
theorem secureJoin_below (hworking : isAbs workingDirectory = true)
    {basePath relativePath path : String}
    (h : secureJoin workingDirectory basePath relativePath = .ok path) :
    path.toList = absolute workingDirectory (pathClean basePath.toList) ∨
      StrictlyBelow (absolute workingDirectory (pathClean basePath.toList)) path.toList := by
  obtain ⟨base, hbase, hbaseText⟩ :=
    absolute_eq_absPath hworking (pathClean basePath.toList)
  obtain ⟨candidate, hcandidate, hcandidateText⟩ := absolute_eq_absPath hworking
    (pathJoin (absPath base) (forwardSlashes relativePath).toList)
  rw [secureJoin] at h
  split_ifs at h with hblank
  simp only [hbaseText, hcandidateText] at h
  split_ifs at h with hcontains
  rw [pathContains_iff (isAbs_absPath _) (isAbs_absPath _), cleanSegments_absPath hbase,
    cleanSegments_absPath hcandidate] at hcontains
  obtain ⟨rest, rfl⟩ := hcontains
  rw [hbaseText, ← Except.ok.inj h, String.toList_ofList]
  by_cases hrest : rest = []
  · left
    rw [hrest, List.append_nil]
  · exact Or.inr (strictlyBelow_absPath hrest hcandidate)

variable (hworking : isAbs workingDirectory = true) {stagingRoot : String}
  {taskID operationID : UUID} {paths : MediaOutputPaths}
  (h : buildMediaOutputPaths workingDirectory stagingRoot taskID operationID relativePath =
    .ok paths)

include hworking h

/-- Where the paths of an output lie. -/
theorem buildMediaOutputPaths_ok :
    ∃ root segments name,
      (∀ s ∈ root ++ [(UUID.text taskID).toList] ++ segments, IsSegment s) ∧ IsSegment name ∧
      absolute workingDirectory (pathClean stagingRoot.toList) = absPath root ∧
      paths.final = absPath (root ++ [(UUID.text taskID).toList] ++ segments ++ [name]) ∧
      IsSegment (temporaryName (.ofList name) operationID) ∧
      paths.temporary = absPath (root ++ [(UUID.text taskID).toList] ++ segments ++
        [temporaryName (.ofList name) operationID]) := by
  obtain ⟨root, hroot, hrootText⟩ :=
    absolute_eq_absPath hworking (pathClean stagingRoot.toList)
  have htask : IsSegment (UUID.text taskID).toList := UUID.text_isSegment taskID
  have hbase := forall_mem_concat hroot htask
  rw [buildMediaOutputPaths] at h
  split_ifs at h with _ habs
  simp only [hrootText, pathJoin_name hroot htask] at h
  split_ifs at h with hescapes
  rw [not_or, Bool.not_eq_true] at hescapes
  obtain ⟨segments, name, hsegments, hname, hclean⟩ :=
    pathClean_relative (Bool.eq_false_iff.mpr habs) hescapes.1 hescapes.2
  have hdirectory := List.forall_mem_append.mpr ⟨hbase, hsegments⟩
  simp only [hclean, pathJoin_segments hbase hsegments hname, fileBase_intercalate segments hname,
    pathDir_absPath hdirectory hname] at h
  have hslash : '/' ∉ (String.ofList name).toList := by
    rw [String.toList_ofList]
    exact hname.2.2.2
  have htemporary := temporaryName_isSegment hslash operationID
  rw [pathJoin_name hdirectory htemporary] at h
  refine ⟨root, segments, name, hdirectory, hname, hrootText, ?_, htemporary, ?_⟩
  · rw [← Except.ok.inj h]
  · rw [← Except.ok.inj h]

/-- The final and the temporary file lie below the directory of the task, beside each other. -/
theorem buildMediaOutputPaths_below :
    StrictlyBelow (pathJoin (absolute workingDirectory (pathClean stagingRoot.toList))
        (UUID.text taskID).toList) paths.final ∧
      StrictlyBelow (pathJoin (absolute workingDirectory (pathClean stagingRoot.toList))
        (UUID.text taskID).toList) paths.temporary ∧
      paths.temporary ≠ paths.final := by
  obtain ⟨root, segments, name, hall, hname, hroot, hfinal, htemporaryName, htemporary⟩ :=
    buildMediaOutputPaths_ok hworking h
  have htask : ∀ s ∈ root, IsSegment s := fun s hs => hall s (by simp [hs])
  have hfinalAll := forall_mem_concat hall hname
  have htemporaryAll := forall_mem_concat hall htemporaryName
  rw [hroot, pathJoin_name htask (UUID.text_isSegment taskID), hfinal, htemporary]
  refine ⟨?_, ?_, ?_⟩
  · rw [List.append_assoc] at hfinalAll ⊢
    exact strictlyBelow_absPath (by simp) hfinalAll
  · rw [List.append_assoc] at htemporaryAll ⊢
    exact strictlyBelow_absPath (by simp) htemporaryAll
  · intro heq
    have hnames := List.append_cancel_left (absPath_injective htemporaryAll hfinalAll heq)
    have hlast := temporaryName_ne (.ofList name) operationID
    rw [String.toList_ofList] at hlast
    exact hlast (List.cons.inj hnames).1

/-- The final path and the operation make the temporary path, and it tells them. -/
theorem temporary_eq_iff {stagingRoot' : String} {taskID' operationID' : UUID}
    {relativePath' : String} {paths'}
    (h' : buildMediaOutputPaths workingDirectory stagingRoot' taskID' operationID' relativePath' =
      .ok paths') :
    paths.temporary = paths'.temporary ↔
      paths.final = paths'.final ∧ operationID = operationID' := by
  obtain ⟨root, segments, name, hall, hname, -, hfinal, htemporaryName, htemporary⟩ :=
    buildMediaOutputPaths_ok hworking h
  obtain ⟨root', segments', name', hall', hname', -, hfinal', htemporaryName', htemporary'⟩ :=
    buildMediaOutputPaths_ok hworking h'
  rw [hfinal, hfinal', htemporary, htemporary']
  constructor
  · intro heq
    have hsegments := absPath_injective (forall_mem_concat hall htemporaryName)
      (forall_mem_concat hall' htemporaryName') heq
    obtain ⟨hdirectory, hlast⟩ := List.append_inj' hsegments (by simp)
    obtain ⟨hnames, hoperation⟩ := temporaryName_inj (List.cons.inj hlast).1
    rw [hdirectory, String.ofList_injective hnames]
    exact ⟨rfl, hoperation⟩
  · rintro ⟨heq, hoperation⟩
    have hsegments := absPath_injective (forall_mem_concat hall hname)
      (forall_mem_concat hall' hname') heq
    obtain ⟨hdirectory, hlast⟩ := List.append_inj' hsegments (by simp)
    rw [hdirectory, (List.cons.inj hlast).1, hoperation]

end Workers

/-- **Output paths are contained.** -/
theorem output_paths_contained {workingDirectory : List Char}
    (hworking : isAbs workingDirectory = true) : (∀ basePath relativePath path : String,
      secureJoin workingDirectory basePath relativePath = .ok path →
        path.toList = absolute workingDirectory (pathClean basePath.toList) ∨
        StrictlyBelow (absolute workingDirectory (pathClean basePath.toList)) path.toList) ∧
    (∀ basePath relativePath : String, isAbs basePath.toList = true →
      relativeDownloadPathValid relativePath = true →
      ∃ path, secureJoin workingDirectory basePath relativePath = .ok path) ∧
    (∀ (stagingRoot : String) (taskID operationID : UUID) (relativePath : String)
      (paths : MediaOutputPaths),
      buildMediaOutputPaths workingDirectory stagingRoot taskID operationID relativePath =
        .ok paths →
      StrictlyBelow (pathJoin (absolute workingDirectory (pathClean stagingRoot.toList))
          (UUID.text taskID).toList) paths.final ∧
        StrictlyBelow (pathJoin (absolute workingDirectory (pathClean stagingRoot.toList))
          (UUID.text taskID).toList) paths.temporary ∧
        paths.temporary ≠ paths.final) ∧
    ∀ (stagingRoot stagingRoot' : String) (taskID taskID' operationID operationID' : UUID)
      (relativePath relativePath' : String) (paths paths' : MediaOutputPaths),
      buildMediaOutputPaths workingDirectory stagingRoot taskID operationID relativePath =
        .ok paths →
      buildMediaOutputPaths workingDirectory stagingRoot' taskID' operationID' relativePath' =
        .ok paths' →
      (paths.temporary = paths'.temporary ↔
        paths.final = paths'.final ∧ operationID = operationID') :=
  ⟨fun _ _ _ => secureJoin_below hworking, fun _ _ => secureJoin_of_valid,
    fun _ _ _ _ _ => buildMediaOutputPaths_below hworking,
    fun _ _ _ _ _ _ _ _ _ _ h h' => temporary_eq_iff hworking h h'⟩

theorem output_paths_from_root :
    isAbs "/".toList = true ∧
      StrictlyBelow (pathJoin (absolute "/".toList (pathClean "/srv/staging".toList))
        (UUID.text 7).toList)
        ("/srv/staging/" ++ UUID.text 7 ++ "/Show/.e1." ++ UUID.text 12 ++ ".part.mkv").toList := by
  refine ⟨rfl, ?_⟩
  have hbuilt : buildMediaOutputPaths "/".toList "/srv/staging" 7 12 "Show/e1.mkv" = .ok
      { directory := ("/srv/staging/" ++ UUID.text 7 ++ "/Show").toList
        final := ("/srv/staging/" ++ UUID.text 7 ++ "/Show/e1.mkv").toList
        temporary := ("/srv/staging/" ++ UUID.text 7 ++ "/Show/.e1." ++ UUID.text 12 ++
          ".part.mkv").toList } :=
    ok_of_toOption (by decide +kernel)
  exact ((output_paths_contained rfl).2.2.1 _ _ _ _ _ hbuilt).2.1

end EmbyAuto
