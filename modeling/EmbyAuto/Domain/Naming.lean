import EmbyAuto.Domain.Words

/-!
# File names of episodes and movies

`domain/naming.go`: the names under which an episode or a movie and its subtitle are stored.

## Main definitions

* `sanitizeMediaNamePart`: removes what a file name must not contain
* `buildEpisodeFileNames`, `buildMovieFileNames`: the names, or the field that is wrong
-/

namespace EmbyAuto

structure EpisodeNamingRequest where
  seriesTitle : String
  season : Int
  episode : Int
  episodeTitle : String
  videoExtension : String

structure MovieNamingRequest where
  movieTitle : String
  releaseYear : Int
  videoExtension : String

structure EpisodeFileNames where
  baseName : String
  videoName : String
  subtitleName : String
  deriving DecidableEq

structure EpisodeNamingError where
  code : String
  field : String
  reason : String
  deriving DecidableEq

def EpisodeNamingError.text (err : EpisodeNamingError) : String :=
  "cannot build episode filename: " ++ err.field ++ " " ++ err.reason

/-- Replaces control characters and the characters that file systems reserve by spaces,
joins the words and trims spaces and dots. -/
def sanitizeMediaNamePart (value : String) : String :=
  let replaced := value.toList.map fun c =>
    if isControl c || c ∈ ['<', '>', ':', '"', '/', '\\', '|', '?', '*'] then ' ' else c
  .ofList (trimFunc (fun c => c = ' ' || c = '.') ([' '].intercalate (fields replaced)))

/-- The names that sanitizing leaves as they are: no control or reserved character, words with
single
blanks between them, no space or dot at the ends. -/
structure Sanitized (name : Runes) : Prop where
  plain : ∀ c ∈ name, isControl c = false ∧ c ∉ ['<', '>', ':', '"', '/', '\\', '|', '?', '*']
  spaced : Spaced name
  head : ∀ c ∈ name.head?, c ≠ ' ' ∧ c ≠ '.'
  last : ∀ c ∈ name.getLast?, c ≠ ' ' ∧ c ≠ '.'

theorem Sanitized.sanitize {name : String} (h : Sanitized name.toList) :
    sanitizeMediaNamePart name = name := by
  have hspace : ∀ c ∈ name.toList, c ≠ ' ' → isSpace c = false := fun c hc hne =>
    Bool.eq_false_iff.mpr fun hspace => hne (h.spaced.blank c hc hspace)
  have hmap : name.toList.map (fun c => if isControl c || c ∈ ['<', '>', ':', '"', '/', '\\', '|',
      '?', '*'] then ' ' else c) = name.toList := by
    conv_rhs => rw [← List.map_id name.toList]
    refine List.map_congr_left fun c hc => ?_
    obtain ⟨hcontrol, hreserved⟩ := h.plain c hc
    rw [if_neg (by simpa [hcontrol] using hreserved), id]
  rw [sanitizeMediaNamePart, hmap, h.spaced.intercalate_fields
    (fun c hc => hspace c (List.mem_of_mem_head? hc) (h.head c hc).1)
    (fun c hc => hspace c (List.mem_of_getLast? hc) (h.last c hc).1), trimFunc_eq_self
    (fun c hc => by simpa using h.head c hc) (fun c hc => by simpa using h.last c hc),
    String.ofList_toList]

theorem sanitized_sanitize (value : String) : Sanitized (sanitizeMediaNamePart value).toList := by
  rw [sanitizeMediaNamePart, String.toList_ofList]
  refine ⟨fun c hc => ?_, (spaced_fields _).of_part (trimFunc_part _ _),
    fun c hc => by simpa using (ends_trimFunc _ _).1 c hc,
    fun c hc => by simpa using (ends_trimFunc _ _).2 c hc⟩
  obtain rfl | hmem := mem_intercalate_fields ((trimFunc_part _ _).subset hc)
  · decide
  obtain ⟨d, -, rfl⟩ := List.mem_map.mp hmem
  split_ifs with hd
  · decide
  · simpa using hd

/-- The pattern `^[a-z0-9]+$`. -/
def isMediaExtension (extension : String) : Bool :=
  extension ≠ "" && extension.toList.all fun c => c.isLower || c.isDigit

def fileNames (baseName videoExtension : String) : EpisodeFileNames where
  baseName
  videoName := baseName ++ "." ++ videoExtension
  subtitleName := baseName ++ ".ass"

def buildMovieFileNames (request : MovieNamingRequest) :
    Except EpisodeNamingError EpisodeFileNames :=
  let movieTitle := sanitizeMediaNamePart request.movieTitle
  if movieTitle = "" then
    .error ⟨"invalid_media_name", "movieTitle", "must not be blank"⟩
  else if request.releaseYear < 1870 ∨ request.releaseYear > 9999 then
    .error ⟨"invalid_media_name", "releaseYear", "must be between 1870 and 9999"⟩
  else if !isMediaExtension request.videoExtension then
    .error ⟨"invalid_media_name", "videoExtension",
      "must contain lowercase letters and digits without a dot"⟩
  else
    .ok (fileNames (movieTitle ++ "(" ++ padZero 4 request.releaseYear.toNat ++ ")")
      request.videoExtension)

def buildEpisodeFileNames (request : EpisodeNamingRequest) :
    Except EpisodeNamingError EpisodeFileNames :=
  let seriesTitle := sanitizeMediaNamePart request.seriesTitle
  let episodeTitle := sanitizeMediaNamePart request.episodeTitle
  if seriesTitle = "" then
    .error ⟨"invalid_media_name", "seriesTitle", "must not be blank"⟩
  else if request.season < 0 then
    .error ⟨"invalid_media_name", "season", "must be nonnegative"⟩
  else if request.episode ≤ 0 then
    .error ⟨"invalid_media_name", "episode", "must be positive"⟩
  else if trimSpace request.episodeTitle = "" then
    .error ⟨"mapping_title_missing", "episodeTitle", "must contain the TMDb episode title"⟩
  else if episodeTitle = "" then
    .error ⟨"invalid_media_name", "episodeTitle", "contains no usable filename characters"⟩
  else if !isMediaExtension request.videoExtension then
    .error ⟨"invalid_media_name", "videoExtension",
      "must contain lowercase letters and digits without a dot"⟩
  else
    .ok (fileNames (seriesTitle ++ " - S" ++ padZero 2 request.season.toNat ++ "E" ++
      padZero 2 request.episode.toNat ++ " - " ++ episodeTitle) request.videoExtension)

example : buildEpisodeFileNames ⟨"A: B", 1, 12, "The  end.", "mp4"⟩ =
    .ok ⟨"A B - S01E12 - The end", "A B - S01E12 - The end.mp4", "A B - S01E12 - The end.ass"⟩ := by
  decide

end EmbyAuto
