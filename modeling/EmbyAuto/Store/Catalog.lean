import EmbyAuto.Domain.FileSelection
import EmbyAuto.Domain.Transcode
import EmbyAuto.Store.Value

/-!
# The tables of the catalogue and of downloaded files

Series, seasons and episodes as TMDb names them, the mappings from source coordinates to
episodes, the files of downloads and the transcode profiles. Columns that no modelled query
reads or constrains are left out. The range of a column of type `integer` is a check where a
proof depends on it.

## Main definitions

* `MediaSeries`, `TMDbSeasonRow`, `MediaEpisode`: the catalogue
* `EpisodeMappingProfile`, `EpisodeMapping`: the mappings
* `DownloadFile`: a file of a torrent, with its source coordinate
* `TranscodeProfileRow`: a stored transcode profile
-/

namespace EmbyAuto

open Relational

/-! ## Series and episodes -/

inductive SeriesType where
  | tv | movie
  deriving DecidableEq

/-- A row of `media_series`. -/
structure MediaSeries where
  id : UUID
  title : String
  mediaType : SeriesType := .tv
  tmdbSeriesID : Option Int := none
  tmdbMovieID : Option Int := none
  releaseYear : Option Int := none

def mediaSeriesSchema : Schema MediaSeries where
  checks := [
    ("media_series_title_not_blank", fun s => notBlank s.title),
    ("media_series_release_year_valid", fun s =>
      s.releaseYear.all fun year => 1870 ≤ year && year ≤ 9999),
    ("media_series_movie_metadata_valid", fun s =>
      (s.mediaType = .tv && s.tmdbMovieID.isNone && s.releaseYear.isNone) ||
        (s.mediaType = .movie && s.tmdbSeriesID.isNone && s.tmdbMovieID.isSome &&
          s.releaseYear.isSome))]
  uniques := [
    ("media_series_pkey", fun a b => a.id = b.id),
    ("media_series_tmdb_series_id_key", fun a b =>
      a.tmdbSeriesID.isSome && a.tmdbSeriesID = b.tmdbSeriesID),
    ("media_series_tmdb_movie_id_unique", fun a b =>
      a.tmdbMovieID.isSome && a.tmdbMovieID = b.tmdbMovieID)]

/-- A row of `tmdb_seasons`. -/
structure TMDbSeasonRow where
  id : UUID
  seriesID : UUID
  seasonNumber : Int
  episodeCount : Int := 0

def tmdbSeasonSchema : Schema TMDbSeasonRow where
  checks := [
    ("tmdb_seasons_number_nonnegative", fun s => 0 ≤ s.seasonNumber),
    ("tmdb_seasons_episode_count_nonnegative", fun s => 0 ≤ s.episodeCount),
    ("integer out of range", fun s => s.seasonNumber < 2 ^ 31 && s.episodeCount < 2 ^ 31)]
  uniques := [
    ("tmdb_seasons_pkey", fun a b => a.id = b.id),
    ("tmdb_seasons_series_id_season_number_key", fun a b =>
      (a.seriesID, a.seasonNumber) = (b.seriesID, b.seasonNumber))]

/-- A row of `media_episodes`. -/
structure MediaEpisode where
  id : UUID
  seasonID : UUID
  episodeNumber : Int
  title : String

def mediaEpisodeSchema : Schema MediaEpisode where
  checks := [
    ("media_episodes_number_positive", fun e => 0 < e.episodeNumber),
    ("media_episodes_title_not_blank", fun e => notBlank e.title)]
  uniques := [
    ("media_episodes_pkey", fun a b => a.id = b.id),
    ("media_episodes_season_id_episode_number_key", fun a b =>
      (a.seasonID, a.episodeNumber) = (b.seasonID, b.episodeNumber))]

/-- A row of `episode_mapping_profiles`. -/
structure EpisodeMappingProfile where
  id : UUID
  seriesID : UUID
  name : String
  version : Nat := 1
  sourceSeasonLengths : Option (List Int) := none
  active : Bool := true
  anchorSourceSeason : Option Int := none
  anchorSourceEpisode : Option Int := none
  anchorTargetEpisodeID : Option UUID := none
  targetEpisodeOffset : Option Int := none

def episodeMappingProfileSchema : Schema EpisodeMappingProfile where
  checks := [
    ("episode_mapping_profiles_name_not_blank", fun p => notBlank p.name),
    ("episode_mapping_profiles_version_positive", fun p => 0 < p.version),
    ("episode_mapping_profiles_lengths_valid", fun p =>
      p.sourceSeasonLengths.all fun lengths => lengths.all (0 < ·)),
    ("episode_mapping_profiles_anchor_valid", fun p =>
      (p.anchorSourceSeason.isNone && p.anchorSourceEpisode.isNone &&
        p.anchorTargetEpisodeID.isNone && p.targetEpisodeOffset.isNone) ||
      (p.anchorSourceSeason.any (0 < ·) && p.anchorSourceEpisode.any (0 < ·) &&
        p.anchorTargetEpisodeID.isSome && p.targetEpisodeOffset.isSome)),
    ("integer out of range", fun p => p.anchorSourceEpisode.all (· < 2 ^ 31))]
  uniques := [
    ("episode_mapping_profiles_pkey", fun a b => a.id = b.id),
    ("episode_mapping_profiles_series_id_name_version_key", fun a b =>
      (a.seriesID, a.name, a.version) = (b.seriesID, b.name, b.version)),
    ("episode_mapping_profiles_one_active_version", fun a b =>
      a.active && b.active && (a.seriesID, a.name) = (b.seriesID, b.name))]

/-- A row of `episode_mappings` is never `excluded`: only a preview has such rows. -/
inductive MappingStatus where
  | mapped | pending | excluded
  deriving DecidableEq

inductive MappingMatchSource where
  | anchor | explicit | absolute | pending
  deriving DecidableEq

/-- A row of `episode_mappings`. -/
structure EpisodeMapping where
  id : UUID
  profileID : UUID
  sourceSeason : Int
  sourceEpisode : Int
  sourceEpisodeFractionHundredths : Int := 0
  targetEpisodeID : Option UUID := none
  status : MappingStatus
  errorCode : Option String := none
  absoluteEpisode : Option Int := none
  matchSource : MappingMatchSource := .anchor

def episodeMappingSchema : Schema EpisodeMapping where
  checks := [
    ("episode_mappings_source_season_positive", fun m => 0 < m.sourceSeason),
    ("episode_mappings_source_episode_positive", fun m => 0 < m.sourceEpisode),
    ("episode_mappings_source_episode_fraction_valid", fun m =>
      0 ≤ m.sourceEpisodeFractionHundredths && m.sourceEpisodeFractionHundredths ≤ 99),
    ("episode_mappings_absolute_positive", fun m => m.absoluteEpisode.all (0 < ·)),
    ("episode_mappings_target_matches_status", fun m =>
      (m.status = .mapped && m.targetEpisodeID.isSome && m.errorCode.isNone) ||
        (m.status = .pending && m.targetEpisodeID.isNone && m.errorCode.isSome))]
  uniques := [
    ("episode_mappings_pkey", fun a b => a.id = b.id),
    ("episode_mappings_source_coordinate_unique", fun a b =>
      (a.profileID, a.sourceSeason, a.sourceEpisode, a.sourceEpisodeFractionHundredths) =
        (b.profileID, b.sourceSeason, b.sourceEpisode, b.sourceEpisodeFractionHundredths))]

/-! ## Files of downloads -/

/-- A row of `download_files`. -/
structure DownloadFile where
  id : UUID
  downloadID : UUID
  fileIndex : Int
  relativePath : String
  sizeBytes : Int := 0
  mediaKind : MediaKind := .unknown
  selected : Bool := false
  sourceSeason : Option Int := none
  sourceEpisode : Option Int := none
  sourceEpisodeFractionHundredths : Int := 0
  language : Option String := none

/-- `download_files_path_relative`: the path is not blank, does not start with a root or a
drive, and has no component `..`. -/
def relativePathValid (path : String) : Bool :=
  let isSlash (c : Char) : Bool := c = '/' || c = '\\'
  let drive : Runes → Bool
    | letter :: ':' :: slash :: _ => letter.isAlpha && isSlash slash
    | _ => false
  notBlank path && !(['/'] <+: path.toList) && !(['\\', '\\'] <+: path.toList) &&
    !drive path.toList && (path.toList.splitOnP isSlash).all (· ≠ ['.', '.'])

def downloadFileSchema : Schema DownloadFile where
  checks := [
    ("download_files_index_nonnegative", fun f => 0 ≤ f.fileIndex),
    ("download_files_path_relative", fun f => relativePathValid f.relativePath),
    ("download_files_size_nonnegative", fun f => 0 ≤ f.sizeBytes),
    ("download_files_source_season_positive", fun f => f.sourceSeason.all (0 < ·)),
    ("download_files_source_episode_positive", fun f => f.sourceEpisode.all (0 < ·)),
    ("download_files_source_episode_fraction_valid", fun f =>
      0 ≤ f.sourceEpisodeFractionHundredths && f.sourceEpisodeFractionHundredths ≤ 99),
    ("download_files_source_episode_fraction_consistent", fun f =>
      f.sourceEpisode.isSome || f.sourceEpisodeFractionHundredths = 0)]
  uniques := [
    ("download_files_pkey", fun a b => a.id = b.id),
    ("download_files_download_id_file_index_key", fun a b =>
      (a.downloadID, a.fileIndex) = (b.downloadID, b.fileIndex))]

/-! ## Transcode profiles -/

/-- A row of `transcode_profiles`. -/
structure TranscodeProfileRow where
  id : UUID
  active : Bool := true
  isDefault : Bool := false
  profile : TranscodeProfile

def transcodeProfileSchema : Schema TranscodeProfileRow where
  uniques := [
    ("transcode_profiles_pkey", fun a b => a.id = b.id),
    ("transcode_profiles_one_default", fun a b =>
      a.isDefault && a.active && b.isDefault && b.active)]

end EmbyAuto
