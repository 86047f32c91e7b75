import EmbyAuto.Domain.Naming
import EmbyAuto.Files.OutputPaths
import EmbyAuto.Validation.Loop

/-!
# Paths in the media library

`domain/task_workflow.go`: the directory of a series' season or of a movie, and the video and the
subtitle in it, relative to the root of the library.

## Main results

* `library_paths_contained`: where the directory and the two files lie, and which names are accepted
-/

namespace EmbyAuto

structure LibraryRelativePaths where
  directory : Runes
  video : Runes
  subtitle : Runes
  deriving DecidableEq

/-- Not blank, and its own `filepath.Base`. -/
def isBaseName (name : String) : Bool := trimSpace name ≠ "" && fileBase name = name

/-- `strings.TrimPrefix(text, ".")`. -/
def trimDot (text : String) : String :=
  match text.toList with
  | '.' :: rest => .ofList rest
  | _ => text

def filesIn (directory : Runes) (videoName subtitleName : String) : LibraryRelativePaths where
  directory
  video := pathJoin directory videoName.toList
  subtitle := pathJoin directory subtitleName.toList

def buildMovieLibraryRelativePaths (unicode : Unicode) (movieTitle : String) (releaseYear : Int)
    (videoName subtitleName : String) : Except String LibraryRelativePaths :=
  let movie := sanitizeMediaNamePart movieTitle
  if movie = "" then .error "library movie title must not be blank"
  else if ! [videoName, subtitleName].all isBaseName then
    .error "library filenames must be non-empty base names"
  else match buildMovieFileNames
      ⟨movie, releaseYear, trimDot (unicode.lower (fileExt videoName))⟩ with
    | .error err => .error err.text
    | .ok names =>
      if videoName ≠ names.videoName ∨ subtitleName ≠ names.subtitleName then
        .error "library movie filenames must use the canonical title and year basename"
      else .ok (filesIn names.baseName.toList videoName subtitleName)

def buildLibraryRelativePaths (seriesTitle : String) (season : Int)
    (videoName subtitleName : String) : Except String LibraryRelativePaths :=
  let series := sanitizeMediaNamePart seriesTitle
  if series = "" then .error "library series title must not be blank"
  else if season < 0 then .error "library season must be nonnegative"
  else if ! [videoName, subtitleName].all isBaseName then
    .error "library filenames must be non-empty base names"
  else
    .ok (filesIn (pathJoin series.toList ("Season" ++ toString season.toNat).toList) videoName
      subtitleName)

/-! ## Names and directories -/

/-- A relative path without `..`. -/
def StaysBelow (path : Runes) : Prop := isAbs path = false ∧ ['.', '.'] ∉ path.splitOn '/'

/-- A file or directory right in the directory. -/
def DirectChild (directory path : Runes) : Prop :=
  ∃ name, IsSegment name ∧ path = directory ++ '/' :: name

theorem DirectChild.length_lt {directory path : Runes} (h : DirectChild directory path) :
    directory.length < path.length := by
  obtain ⟨name, -, rfl⟩ := h
  simp

/-- The base names that are no file's name. -/
def specialNames : List String := [".", "..", "/"]

theorem isSegment_of_isBaseName {name : String} (h : isBaseName name = true)
    (hname : name ∉ specialNames) : IsSegment name.toList := by
  simp only [isBaseName, Bool.and_eq_true, decide_eq_true_eq] at h
  simp only [specialNames, List.mem_cons, List.not_mem_nil, or_false, not_or] at hname
  have hne : name ≠ "" := by
    rintro rfl
    exact h.1 rfl
  have hslash : '/' ∉ name.toList := by
    have hbase := h.2
    rw [fileBase, if_neg hne] at hbase
    split at hbase
    · exact absurd hbase.symm hname.2.2
    · rw [← hbase, String.toList_ofList]
      intro hmem
      simpa using List.mem_takeWhile_imp (List.mem_reverse.mp hmem)
  have htext : ∀ text : Runes, name.toList = text → name = .ofList text := fun text heq => by
    rw [← heq, String.ofList_toList]
  exact ⟨fun heq => hne (htext _ heq), fun heq => hname.1 (htext _ heq),
    fun heq => hname.2.1 (htext _ heq), hslash⟩

theorem Sanitized.isSegment {name : Runes} (h : Sanitized name) (hne : name ≠ []) :
    IsSegment name := by
  obtain ⟨c, rest, rfl⟩ := List.exists_cons_of_ne_nil hne
  exact isSegment_of_mem List.mem_cons_self (h.head c rfl).2 fun hmem => by
    simpa using (h.plain '/' hmem).2

section Segments

variable {segments : List Runes} (hne : segments ≠ []) (h : ∀ s ∈ segments, IsSegment s)

include hne h

theorem staysBelow_intercalate : StaysBelow (['/'].intercalate segments) := by
  constructor
  · obtain ⟨first, rest, rfl⟩ := List.exists_cons_of_ne_nil hne
    obtain ⟨hfirst, -, -, hslash⟩ := h first List.mem_cons_self
    obtain ⟨c, first, rfl⟩ := List.exists_cons_of_ne_nil hfirst
    have hc : c ≠ '/' := fun heq => hslash (heq ▸ List.mem_cons_self)
    cases rest <;> simp [isAbs, hc]
  · rw [List.splitOn_intercalate _ (fun s hs => (h s hs).2.2.2) hne]
    exact fun hmem => (h _ hmem).2.2.1 rfl

/-- Joining goes on cleaning behind the segments. -/
theorem pathJoin_intercalate {name first : Runes} {rest}
    (hfirst : first ≠ []) (hclean : (name.splitOn '/').foldl (cleanSegment false) segments.reverse =
      (first :: rest).reverse) :
    pathJoin (['/'].intercalate segments) name = ['/'].intercalate (first :: rest) := by
  have htext : ['/'].intercalate segments ≠ [] := by
    obtain ⟨front, more, rfl⟩ := List.exists_cons_of_ne_nil hne
    exact intercalate_ne_nil (h front List.mem_cons_self).1
  have hrelative : isAbs (['/'].intercalate segments ++ '/' :: name) = false := by
    have := (staysBelow_intercalate hne h).1
    rw [isAbs] at this ⊢
    rwa [List.head?_append_of_ne_nil _ htext]
  rw [pathJoin, if_neg htext]
  refine pathClean_of_relative hrelative ?_ hfirst
  rw [cleanSegments, hrelative, List.splitOn_append_cons_self,
    List.splitOn_intercalate _ (fun s hs => (h s hs).2.2.2) hne, List.foldl_append,
    foldl_cleanSegment_of_segments h, List.append_nil, hclean, List.reverse_reverse]

theorem pathJoin_segment {name : Runes} (hname : IsSegment name) :
    pathJoin (['/'].intercalate segments) name = ['/'].intercalate segments ++ '/' :: name := by
  obtain ⟨first, rest, rfl⟩ := List.exists_cons_of_ne_nil hne
  have hclean : (name.splitOn '/').foldl (cleanSegment false) (first :: rest).reverse =
      (first :: (rest ++ [name])).reverse := by
    rw [List.splitOn_eq_singleton hname.2.2.2, List.foldl_cons, cleanSegment_of_isSegment hname]
    simp
  rw [pathJoin_intercalate hne h (h first List.mem_cons_self).1 hclean, ← List.cons_append,
    intercalate_concat, frontText, if_neg hne, List.append_assoc]
  rfl

theorem directChild_of_isBaseName {name : String} (hbase : isBaseName name = true)
    (hname : name ∉ specialNames) : DirectChild (['/'].intercalate segments)
      (pathJoin (['/'].intercalate segments) name.toList) :=
  have hsegment := isSegment_of_isBaseName hbase hname
  ⟨name.toList, hsegment, pathJoin_segment hne h hsegment⟩

end Segments

/-- In a season's directory, the special names lead back to it or above it. -/
theorem directChild_season_iff {series season : Runes}
    (h : ∀ s ∈ [series, season], IsSegment s) {name : String} (hbase : isBaseName name = true) :
    DirectChild (['/'].intercalate [series, season])
      (pathJoin (['/'].intercalate [series, season]) name.toList) ↔ name ∉ specialNames := by
  refine ⟨fun hchild hname => ?_, directChild_of_isBaseName (by simp) h hbase⟩
  have hlength := hchild.length_lt
  have hjoin (rest : List Runes) :=
    @pathJoin_intercalate _ (by simp) h name.toList series rest (h series (by simp)).1
  simp only [specialNames, List.mem_cons, List.not_mem_nil, or_false] at hname
  rcases hname with rfl | rfl | rfl
  · rw [hjoin [season] rfl] at hlength
    omega
  · have hup := (h season (by simp)).2.2.1
    rw [hjoin [] (by rw [List.splitOn_eq_singleton (by decide)]; simp [cleanSegment,
      hup])] at hlength
    simp only [List.intercalate_cons_cons, List.intercalate_singleton,
      List.length_append] at hlength
    omega
  · rw [hjoin [season] rfl] at hlength
    omega

/-! ## Movies -/

section Movies

variable {movieTitle : String} {releaseYear : Int}

/-- The name of a movie's directory, and of its files in front of their extensions. -/
def movieBaseName (movieTitle : String) (releaseYear : Int) : String :=
  sanitizeMediaNamePart movieTitle ++ "(" ++ padZero 4 releaseYear.toNat ++ ")"

theorem buildMovieFileNames_ok_iff {videoExtension : String} {names} :
    buildMovieFileNames ⟨movieTitle, releaseYear, videoExtension⟩ = .ok names ↔
      sanitizeMediaNamePart movieTitle ≠ "" ∧ ¬ (releaseYear < 1870 ∨ releaseYear > 9999) ∧
      isMediaExtension videoExtension = true ∧
      fileNames (movieBaseName movieTitle releaseYear) videoExtension = names := by
  simp [buildMovieFileNames, Validation.ite_error_ok_iff, movieBaseName]

theorem slash_not_mem_toString (n : Nat) : '/' ∉ (toString n).toList := by
  rw [Nat.toString_eq_repr, Nat.toList_repr]
  exact fun h => absurd (Nat.isDigit_of_mem_toDigits (by decide) (by decide) h) (by decide)

theorem movieName_isSegment {rest : String} (hrest : '/' ∉ rest.toList) :
    IsSegment (movieBaseName movieTitle releaseYear ++ rest).toList := by
  refine @isSegment_of_mem _ ')' (by simp [movieBaseName]) (by decide) ?_
  have htitle : '/' ∉ (sanitizeMediaNamePart movieTitle).toList := fun hmem => by
    simpa using ((sanitized_sanitize movieTitle).plain '/' hmem).2
  have hyear : '/' ∉ (toString releaseYear.toNat).toList := slash_not_mem_toString _
  simp only [movieBaseName, padZero, String.toList_append, List.mem_append,
    htitle, hyear, hrest]
  simp

theorem movieName_not_special (rest : String) :
    movieBaseName movieTitle releaseYear ++ rest ∉ specialNames := by
  have hparen : '(' ∈ (movieBaseName movieTitle releaseYear ++ rest).toList := by
    simp [movieBaseName]
  intro hmem
  simp only [specialNames, List.mem_cons, List.not_mem_nil, or_false] at hmem
  rcases hmem with h | h | h <;> simp [h] at hparen

theorem movieName_isBaseName {rest : String} (hrest : '/' ∉ rest.toList) :
    isBaseName (movieBaseName movieTitle releaseYear ++ rest) = true := by
  have hbase := fileBase_intercalate [] (@movieName_isSegment movieTitle releaseYear rest hrest)
  rw [List.nil_append, List.intercalate_singleton, String.ofList_toList] at hbase
  simp [isBaseName, hbase, @trimSpace_ne_empty (movieBaseName movieTitle releaseYear ++ rest) ')'
    (by simp [movieBaseName]) rfl]

theorem fileExt_append (base : String) {extension : String} (h : '.' ∉ extension.toList) :
    fileExt (base ++ "." ++ extension) = "." ++ extension := by
  have hkeep := forall_ne_of_not_mem (mt List.mem_reverse.mp h)
  have hreverse : (base ++ "." ++ extension).toList.reverse =
      extension.toList.reverse ++ '.' :: base.toList.reverse := by simp
  rw [fileExt, splitExt, List.span_eq_takeWhile_dropWhile, hreverse,
    List.takeWhile_append_of_pos hkeep, List.dropWhile_append_of_pos hkeep]
  simp

/-- Lower-case letters, digits and the dot are lower case. -/
def Unicode.KeepsExtensions (unicode : Unicode) : Prop :=
  ∀ c : Char, c = '.' ∨ c.isLower = true ∨ c.isDigit = true → unicode.toLower c = c

/-- The canonical names of a movie are accepted. -/
theorem buildMovieLibraryRelativePaths_of_names {unicode : Unicode}
    (hlower : unicode.KeepsExtensions) {videoExtension : String} {names}
    (h : buildMovieFileNames ⟨movieTitle, releaseYear, videoExtension⟩ = .ok names) :
    buildMovieLibraryRelativePaths unicode movieTitle releaseYear names.videoName
      names.subtitleName = .ok (filesIn names.baseName.toList names.videoName
        names.subtitleName) := by
  obtain ⟨htitle, hyear, hextension, rfl⟩ := buildMovieFileNames_ok_iff.mp h
  have hchars : ∀ c ∈ videoExtension.toList, c.isLower = true ∨ c.isDigit = true := by
    simpa using (Bool.and_eq_true_iff.mp hextension).2
  have hfree : ∀ c : Char, c.isLower = false → c.isDigit = false → c ∉ videoExtension.toList :=
    fun c hl hd hmem => by simpa [hl, hd] using hchars c hmem
  have hfix : ("." ++ videoExtension).toList.map unicode.toLower =
      '.' :: videoExtension.toList := by
    rw [String.toList_append, show ".".toList = ['.'] from rfl, List.singleton_append,
      List.map_cons,
      hlower '.' (.inl rfl), List.map_congr_left fun c hc => hlower c (.inr (hchars c hc)),
      List.map_id']
  have hcanonical : buildMovieFileNames ⟨sanitizeMediaNamePart movieTitle, releaseYear,
      videoExtension⟩ = .ok (fileNames (movieBaseName movieTitle releaseYear) videoExtension) := by
    simp only [buildMovieFileNames_ok_iff, movieBaseName, (sanitized_sanitize movieTitle).sanitize]
    exact ⟨htitle, hyear, hextension, trivial⟩
  have hvideo := @movieName_isBaseName movieTitle releaseYear ("." ++ videoExtension)
    (by simpa using hfree '/' rfl rfl)
  rw [← String.append_assoc] at hvideo
  have hsubtitle := @movieName_isBaseName movieTitle releaseYear ".ass" (by simp)
  simp only [buildMovieLibraryRelativePaths, fileNames, List.all_cons, hvideo,
    hsubtitle, fileExt_append _ (hfree '.' rfl rfl), Unicode.lower, hfix, trimDot,
    String.toList_ofList, String.ofList_toList, hcanonical]
  simp [htitle]

end Movies

/-! ## The paths of an accepted request -/

/-- **Library paths are contained.** The directory stays below the root; a movie's files lie right
in it, and an episode's files do unless they have a special name. The canonical names of a movie are
accepted, and sanitizing twice is sanitizing once. -/
theorem library_paths_contained {unicode : Unicode} (hlower : unicode.KeepsExtensions) :
    (∀ seriesTitle season videoName subtitleName paths,
      buildLibraryRelativePaths seriesTitle season videoName subtitleName = .ok paths →
      StaysBelow paths.directory ∧
        (DirectChild paths.directory paths.video ↔ videoName ∉ specialNames) ∧
        (DirectChild paths.directory paths.subtitle ↔ subtitleName ∉ specialNames)) ∧
    (∀ movieTitle releaseYear videoName subtitleName paths,
      buildMovieLibraryRelativePaths unicode movieTitle releaseYear videoName subtitleName =
        .ok paths →
      StaysBelow paths.directory ∧ DirectChild paths.directory paths.video ∧
        DirectChild paths.directory paths.subtitle) ∧
    (∀ movieTitle releaseYear videoExtension names,
      buildMovieFileNames ⟨movieTitle, releaseYear, videoExtension⟩ = .ok names →
      ∃ paths, buildMovieLibraryRelativePaths unicode movieTitle releaseYear names.videoName
        names.subtitleName = .ok paths) ∧
    ∀ value, sanitizeMediaNamePart (sanitizeMediaNamePart value) = sanitizeMediaNamePart value := by
  refine ⟨?_, ?_, fun _ _ _ _ h => ⟨_, buildMovieLibraryRelativePaths_of_names hlower h⟩,
    fun value => (sanitized_sanitize value).sanitize⟩
  · intro seriesTitle season videoName subtitleName paths h
    simp only [buildLibraryRelativePaths, Validation.ite_error_ok_iff, List.all_cons, List.all_nil,
      Bool.and_true, Bool.not_eq_true', Bool.not_eq_false, Bool.and_eq_true] at h
    obtain ⟨htitle, -, ⟨hvideo, hsubtitle⟩, h⟩ := h
    obtain rfl := Except.ok.inj h
    -- the directory has two names: the title and the season
    generalize htext : ("Season" ++ toString season.toNat).toList = seasonText
    have hseason : IsSegment seasonText := by
      have hdigits := slash_not_mem_toString season.toNat
      rw [← htext, String.toList_append]
      exact @isSegment_of_mem _ 'S' (by simp) (by decide)
        fun hmem => (List.mem_append.mp hmem).elim (by simp) hdigits
    have hseries := (sanitized_sanitize seriesTitle).isSegment (by simpa using htitle)
    have hdirectory : pathJoin (sanitizeMediaNamePart seriesTitle).toList seasonText =
        ['/'].intercalate [(sanitizeMediaNamePart seriesTitle).toList, seasonText] := by
      simpa [List.intercalate_cons_cons] using
        pathJoin_segment (List.cons_ne_nil _ []) (by simpa using hseries) hseason
    have hall : ∀ s ∈ [(sanitizeMediaNamePart seriesTitle).toList, seasonText], IsSegment s := by
      simpa using ⟨hseries, hseason⟩
    simp only [filesIn, hdirectory]
    exact ⟨staysBelow_intercalate (by simp) hall, directChild_season_iff hall hvideo,
      directChild_season_iff hall hsubtitle⟩
  · intro movieTitle releaseYear videoName subtitleName paths h
    simp only [buildMovieLibraryRelativePaths, Validation.ite_error_ok_iff, List.all_cons,
      List.all_nil, Bool.and_true, Bool.not_eq_true', Bool.not_eq_false, Bool.and_eq_true] at h
    obtain ⟨-, ⟨hvideo, hsubtitle⟩, h⟩ := h
    split at h
    · cases h
    next names hnames =>
    obtain ⟨hnot, h⟩ := Validation.ite_error_ok_iff.mp h
    rw [not_or, not_not, not_not] at hnot
    obtain rfl := Except.ok.inj h
    obtain ⟨-, -, -, rfl⟩ := buildMovieFileNames_ok_iff.mp hnames
    generalize sanitizeMediaNamePart movieTitle = movie at *
    have hall : ∀ s ∈ [(movieBaseName movie releaseYear).toList], IsSegment s := by
      simpa using @movieName_isSegment movie releaseYear "" (by simp)
    have hbelow := staysBelow_intercalate (List.cons_ne_nil _ _) hall
    have hchild := @directChild_of_isBaseName _ (List.cons_ne_nil _ _) hall
    rw [List.intercalate_singleton] at hbelow hchild
    -- the names are those built from the title, so none is a dot or has a slash
    have hvideoName : videoName ∉ specialNames := by
      rw [hnot.1, fileNames, String.append_assoc]
      exact movieName_not_special _
    have hsubtitleName : subtitleName ∉ specialNames := by
      rw [hnot.2]
      exact movieName_not_special _
    simp only [filesIn]
    exact ⟨hbelow, hchild hvideo hvideoName, hchild hsubtitle hsubtitleName⟩

theorem library_paths_contained_movie : asciiUnicode.KeepsExtensions ∧
    ∃ paths, buildMovieLibraryRelativePaths asciiUnicode "Up: A/B" 2009 "Up A B(2009).mkv"
      "Up A B(2009).ass" = .ok paths := by
  have hlower : asciiUnicode.KeepsExtensions := by
    rintro c (rfl | hc)
    · rfl
    · change c.toLower = c
      grind [Char.toLower, Char.isLower, Char.isDigit]
  exact ⟨hlower, (library_paths_contained hlower).2.2.1 "Up: A/B" 2009 "mkv"
    ⟨"Up A B(2009)", "Up A B(2009).mkv", "Up A B(2009).ass"⟩ (by decide +kernel)⟩

/-- Special names: the video is the series' directory, the subtitle the season's. -/
theorem library_paths_not_contained :
    buildLibraryRelativePaths "Show" 1 ".." "/" = .ok ⟨"Show/Season1".toList, "Show".toList,
      "Show/Season1".toList⟩ ∧
    ¬ DirectChild "Show/Season1".toList "Show".toList ∧
    ¬ DirectChild "Show/Season1".toList "Show/Season1".toList :=
  ⟨by decide +kernel, fun h => absurd h.length_lt (by decide),
    fun h => absurd h.length_lt (by decide)⟩

end EmbyAuto
