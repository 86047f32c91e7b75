import EmbyAuto.Domain.Naming
import EmbyAuto.Operation.Scheduler

/-!
# Materialising a download

`MediaWorkflow.MaterializeDownload` turns the selected videos of a completed download into
episode tasks and schedules their two media branches. It checks the download's state in its
own transaction, so what a command did to the download before decides whether it can run.

## Main definitions

* `listMaterializeVideos`, `validateMaterializeVideo`: the selected videos and their checks
* `materializeDownload`: the transaction
-/

namespace EmbyAuto

open Relational Database Resources

namespace Resources

def downloadFilesSlot : Slot Resources downloadFileSchema where
  table := downloadFiles
  put r t := { r with downloadFiles := t }
  put_table := Eq.refl

end Resources

/-! ## The selected videos -/

/-- A row of `ListMaterializeVideos`. -/
structure MaterializeVideo where
  fileID : UUID
  relativePath : String
  sourceSeason : Option Int
  sourceEpisode : Option Int
  sourceEpisodeFractionHundredths : Int
  mapping : Option EpisodeMapping
  targetEpisode : Option MediaEpisode
  targetSeasonNumber : Option Int
  series : MediaSeries

/-- `source_season, source_episode, source_episode_fraction_hundredths, file_index`, with
missing values last. -/
def coordinateOrder (a b : DownloadFile) : Bool :=
  let key (f : DownloadFile) : List Int := [
    if f.sourceSeason.isSome then 0 else 1, f.sourceSeason.getD 0,
    if f.sourceEpisode.isSome then 0 else 1, f.sourceEpisode.getD 0,
    f.sourceEpisodeFractionHundredths, f.fileIndex]
  key a ≤ key b

def findMapping (r : Resources) (profileID : Option UUID) (file : DownloadFile) :
    Option EpisodeMapping :=
  r.episodeMappings.rows.find? fun m =>
    some m.profileID = profileID && some m.sourceSeason = file.sourceSeason &&
      some m.sourceEpisode = file.sourceEpisode &&
      m.sourceEpisodeFractionHundredths = file.sourceEpisodeFractionHundredths

def listMaterializeVideos (acquisition : Acquisition) (series : MediaSeries) (downloadID : UUID)
    (r : Resources) : List MaterializeVideo :=
  let files := r.downloadFiles.rows.filter fun f =>
    f.downloadID = downloadID && f.selected && f.mediaKind = .video
  (files.insertionSort fun a b => coordinateOrder a b).map fun file =>
    let mapping := findMapping r acquisition.mappingProfileID file
    let targetEpisode := (mapping.bind (·.targetEpisodeID)).bind fun id =>
      r.mediaEpisodes.rows.find? fun e => e.id = id
    let season := targetEpisode.bind fun e => r.tmdbSeasons.rows.find? fun s => s.id = e.seasonID
    { fileID := file.id
      relativePath := file.relativePath
      sourceSeason := file.sourceSeason
      sourceEpisode := file.sourceEpisode
      sourceEpisodeFractionHundredths := file.sourceEpisodeFractionHundredths
      mapping, targetEpisode
      targetSeasonNumber := season.map (·.seasonNumber)
      series }

/-- The check of a movie's metadata and names. -/
def validateMovie (series : MediaSeries) (profile : TranscodeProfile) : Except Fault Unit :=
  match series.releaseYear, series.tmdbMovieID with
  | some releaseYear, some _ =>
    if trimSpace series.title = "" then
      .error (.media "movie_metadata_required"
        "the selected movie requires canonical TMDb title and release year" false)
    else match buildMovieFileNames ⟨series.title, releaseYear, profile.fileExtension⟩ with
      | .error err => .error (.media "movie_naming_invalid" err.text false)
      | .ok _ => .ok ()
  | _, _ => .error (.media "movie_metadata_required"
      "the selected movie requires canonical TMDb title and release year" false)

def validateMaterializeVideo (row : MaterializeVideo) (profile : TranscodeProfile) :
    Except Fault Unit :=
  if row.sourceSeason.isNone ∨ row.sourceEpisode.isNone then
    .error (.media "source_coordinate_missing"
      "a selected video is missing its source season or episode" false)
  else match row.series.mediaType with
    | .movie => validateMovie row.series profile
    | .tv =>
      match row.mapping, row.targetEpisode, row.targetSeasonNumber with
      | some ⟨_, _, _, _, _, some _, .mapped, _, _, _⟩, some episode, some season =>
        if trimSpace row.series.title = "" then mappingRequired
        else match buildEpisodeFileNames ⟨row.series.title, season, episode.episodeNumber,
            episode.title, profile.fileExtension⟩ with
          | .error err => .error (.media "episode_naming_invalid" err.text false)
          | .ok _ => .ok ()
      | _, _, _ => mappingRequired
where
  mappingRequired : Except Fault Unit :=
    let code := match row.mapping.bind (·.errorCode) with
      | none | some "" => "episode_mapping_required"
      | some code => code
    .error (.media code
      ("selected video " ++ row.relativePath ++ " requires a completed episode mapping") false)

/-! ## Queries -/

section Queries

variable (id : UUID)

def Download.markSelectingFiles (d : Download) : Download :=
  { d with status := .selectingFiles, version := d.version + 1 }

def markDownloadSelectingFiles : ResourcesTx (Option Download) :=
  downloadsSlot.updateOne (atKey Download.id id fun d => d.status = .completed)
    Download.markSelectingFiles

def Download.markMaterialized (d : Download) : Download := { d with status := .materialized }

def markDownloadMaterialized : ResourcesTx (Option Download) :=
  downloadsSlot.updateOne (atKey Download.id id fun d => d.status = .selectingFiles)
    Download.markMaterialized

/-- `INSERT ... ON CONFLICT (acquisition_id, source_video_file_id) DO NOTHING`; `none` for a
conflict. -/
def createEpisodeTask (task : EpisodeTask) : ResourcesTx (Option EpisodeTask) := do
  match ← episodeTasksSlot.selectOne fun t =>
      t.acquisitionID = task.acquisitionID && t.sourceVideoFileID = task.sourceVideoFileID with
  | some _ => return none
  | none =>
    episodeTasksSlot.insert task
    return some task

def getEpisodeTaskBySource (acquisitionID sourceVideoFileID : UUID) :
    ResourcesTx (Option EpisodeTask) :=
  episodeTasksSlot.selectOne fun t =>
    t.acquisitionID = acquisitionID && t.sourceVideoFileID = sourceVideoFileID

/-- A row of `LockDownloadForMaterialize`: the download with its acquisition and series. -/
structure MaterializeDownload where
  download : Download
  acquisition : Acquisition
  series : MediaSeries

def lockDownloadForMaterialize : ResourcesTx (Option MaterializeDownload) := do
  let r ← get
  return (lookup Download.id id r.downloads.rows).bind fun download =>
    (lookup Acquisition.id download.acquisitionID r.acquisitions.rows).bind fun acquisition =>
      (lookup MediaSeries.id acquisition.seriesID r.mediaSeries.rows).map fun series =>
        { download, acquisition, series }

def getDefaultTranscodeProfile : ResourcesTx (Option TranscodeProfileRow) := do
  return (← get).transcodeProfiles.rows.find? fun p => p.active && p.isDefault

end Queries

/-! ## The transaction -/

/-- The functions that derive identifiers and digests from texts. -/
structure Hashes where
  /-- `deterministicResourceID`: a version 5 UUID -/
  resourceID : String → UUID
  /-- the hexadecimal SHA-256 digest -/
  sha256 : String → String

/-- Stands for the digests in runs on fixed inputs. -/
def plainHashes : Hashes := ⟨String.length, fun text => text⟩

section Transaction

variable (hashes : Hashes) (new : UUID → OperationKind → NewOperation)
variable (downloadID operationID : UUID)

def mediaTypeOf (series : MediaSeries) : MediaType :=
  match series.mediaType with
  | .tv => .episode
  | .movie => .movie

def MediaType.text : MediaType → String
  | episode => "episode"
  | movie => "movie"

/-- Everything that has to hold before tasks are created: the checked videos and the
profile. -/
def checkMaterialize (locked : MaterializeDownload) :
    ResourcesTx (TranscodeProfileRow × List MaterializeVideo) := do
  if mediaTypeOf locked.series = .episode ∧ locked.acquisition.mappingProfileID.isNone then
    throw (.media "mapping_profile_required"
      "the episode acquisition requires a mapping profile before materialization" false)
  else if mediaTypeOf locked.series = .movie ∧
      (locked.series.releaseYear.isNone ∨ locked.series.tmdbMovieID.isNone) then
    throw (.media "movie_metadata_required"
      "the movie acquisition requires canonical TMDb title and release year" false)
  else match ← getDefaultTranscodeProfile with
    | none => throw (.media "transcode_profile_required"
        "an active default transcode profile is required" false)
    | some row =>
      match validateTranscodeProfile row.profile with
      | .error err => throw (.media "transcode_profile_invalid" err.text false)
      | .ok _ =>
        let videos := listMaterializeVideos locked.acquisition locked.series downloadID (← get)
        if videos = [] then
          throw (.media "download_no_selected_video"
            "the completed download has no selected episode video" false)
        else match videos.forM fun video => validateMaterializeVideo video row.profile with
          | .error fault => throw fault
          | .ok _ => return (row, videos)

/-- The identifier of the task of a video. -/
def taskIDOf (locked : MaterializeDownload) (video : MaterializeVideo) : UUID :=
  hashes.resourceID ((mediaTypeOf locked.series).text ++ "-task:" ++ locked.acquisition.id.text ++
    ":" ++ video.fileID.text)

/-- The task that a video gets. -/
def taskOf (locked : MaterializeDownload) (profile : TranscodeProfileRow)
    (video : MaterializeVideo) : EpisodeTask where
  id := taskIDOf hashes locked video
  acquisitionID := locked.acquisition.id
  sourceVideoFileID := video.fileID
  mappingID := match mediaTypeOf locked.series with
    | .movie => none
    | .episode => video.mapping.map (·.id)
  transcodeProfileID := profile.id
  mediaType := mediaTypeOf locked.series

/-- The two media branches of a new task, in the order in which they are scheduled. -/
def mediaBranches (taskID profileID : UUID) : List ScheduleOperationRequest := [
  { kind := .subtitlePrepare, resource := some (.episodeTask, taskID)
    idempotencyKey := "subtitle.prepare:" ++ taskID.text
    maxAttempts := 3, timeout := 30 * Duration.minute },
  { kind := .transcodeRun, resource := some (.episodeTask, taskID)
    idempotencyKey := "transcode.run:" ++ taskID.text ++ ":" ++ profileID.text
    maxAttempts := 3, timeout := 24 * Duration.hour }]

/-- The task of a video, created unless it exists, and whether it was created. -/
def createOrGetTask (expected : EpisodeTask) : DatabaseTx (EpisodeTask × Bool) := do
  match ← context "create episode task" (onResources (createEpisodeTask expected)) with
  | some task => return (task, true)
  | none =>
    let task ← context "create episode task" (requireRow (onResources
      (getEpisodeTaskBySource expected.acquisitionID expected.sourceVideoFileID)))
    return (task, false)

/-- The round of the loop for one video. -/
def materializeVideo (locked : MaterializeDownload) (profile : TranscodeProfileRow)
    (video : MaterializeVideo) : DatabaseTx Unit := do
  let expected := taskOf hashes locked profile video
  let (task, created) ← createOrGetTask expected
  if task.mappingID ≠ expected.mappingID ∨ task.transcodeProfileID ≠ profile.id ∨
      task.mediaType ≠ expected.mediaType then
    throw (.media "task_materialization_conflict"
      "an episode task already exists with different mapping or transcode profile" false)
  else
    (mediaBranches expected.id profile.id).forM fun job => do
      let _ ← context ("schedule " ++ job.kind.text) (scheduleInTx (new expected.id job.kind) job)
    if created then
      appendResourceEvent (.episodeTask, expected.id) (some operationID) "task.created" [
        ("downloadId", .string downloadID.text), ("mediaType", .string expected.mediaType.text),
        ("sourceSeason", .number (video.sourceSeason.getD 0)),
        ("sourceEpisode", .number (video.sourceEpisode.getD 0)),
        ("targetSeason", .number (video.targetSeasonNumber.getD 0)),
        ("targetEpisode", .number ((video.targetEpisode.map (·.episodeNumber)).getD 0)),
        ("transcodeProfile", .string profile.profile.name)]
    else return ()

def materializeDownload : DatabaseTx Unit := do
  let locked ← orNotFound (context "lock download for materialization"
    (onResources (lockDownloadForMaterialize downloadID)))
  if locked.download.status = .materialized then
    return ()
  else if locked.download.status ≠ .completed then
    throw (.media "download_state_conflict"
      ("download cannot materialize from state " ++ quote locked.download.status.text) false)
  else
    let (profile, videos) ← onResources (checkMaterialize downloadID locked)
    let _ ← context "mark download selecting files"
      (requireRow (onResources (markDownloadSelectingFiles downloadID)))
    videos.forM (materializeVideo hashes new downloadID operationID locked profile)
    let _ ← context "mark download materialized"
      (requireRow (onResources (markDownloadMaterialized downloadID)))
    appendResourceEvent (.download, downloadID) (some operationID) "download.materialized"
      [("status", .string "materialized"), ("taskCount", .number videos.length)]

end Transaction

end EmbyAuto
