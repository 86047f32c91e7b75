import EmbyAuto.Store.Catalog

/-!
# The tables

The rows of the tables that the modelled code reads and writes, with the constraints of
the migrations. Text columns with a fixed set of values are inductive types, so the
`_valid` checks on them hold by construction. Columns that no modelled query reads or
constrains are left out.

## Main definitions

* `Operation`, `OperationAttempt`: the audit records of background operations
* `Resources`: the tables that operations work on, and the event log
* `Database`: the whole state
-/

namespace EmbyAuto

open Relational

/-! ## Operations and their attempts -/

/-- The operation kinds that `riverqueue.NewJobArgs` accepts. -/
inductive OperationKind where
  | searchRun | rssPoll | rssSubscriptionComplete | rssSubscriptionDelete | acquisitionDelete
  | downloadEnqueue | downloadSync | downloadMaterialize | downloadSelectionApply | agentResolve
  | subtitlePrepare | transcodeRun | mediaFinalize | embyImport | cleanupRun | embyRefresh
  | embyScan | tmdbSync | taskCancel | downloadCancel
  deriving DecidableEq

def OperationKind.text : OperationKind → String
  | searchRun => "search.run"
  | rssPoll => "rss.poll"
  | rssSubscriptionComplete => "rss.subscription.complete"
  | rssSubscriptionDelete => "rss.subscription.delete"
  | acquisitionDelete => "acquisition.delete"
  | downloadEnqueue => "download.enqueue"
  | downloadSync => "download.sync"
  | downloadMaterialize => "download.materialize"
  | downloadSelectionApply => "download.selection.apply"
  | agentResolve => "agent.resolve"
  | subtitlePrepare => "subtitle.prepare"
  | transcodeRun => "transcode.run"
  | mediaFinalize => "media.finalize"
  | embyImport => "emby.import"
  | cleanupRun => "cleanup.run"
  | embyRefresh => "emby.refresh"
  | embyScan => "emby.scan"
  | tmdbSync => "tmdb.sync"
  | taskCancel => "task.cancel"
  | downloadCancel => "download.cancel"

/-- The resource types of operations and events. -/
inductive ResourceType where
  | acquisition | agentResolution | download | embyCatalog | embyScan | episodeTask
  | mediaSeries | rssAdjudicationBatch | rssEntry | rssSubscription | searchRun
  deriving DecidableEq

/-- A resource type with the identifier; a row either has both or neither. -/
abbrev Resource := ResourceType × UUID

inductive OperationStatus where
  | queued | running | succeeded | failed | cancelled
  deriving DecidableEq

namespace OperationStatus

/-- `status IN ('queued', 'running')`. -/
def live : OperationStatus → Bool
  | queued | running => true
  | _ => false

end OperationStatus

/-- A row of `operations`. -/
structure Operation where
  id : UUID
  kind : OperationKind
  resource : Option Resource := none
  idempotencyKey : String
  status : OperationStatus := .queued
  riverJobID : Option Int := none
  maxAttempts : Nat := 1
  attemptCount : Nat := 0
  timeoutSeconds : Nat
  cancelRequestedAt : Option Timestamp := none
  errorCode : Option String := none
  errorMessage : Option String := none
  payload : JSON := .object []
  finishedAt : Option Timestamp := none

def operationSchema : Schema Operation where
  checks := [
    ("operations_idempotency_key_not_blank", fun o => notBlank o.idempotencyKey),
    ("operations_max_attempts_positive", fun o => 0 < o.maxAttempts),
    ("operations_attempt_count_valid", fun o => o.attemptCount ≤ o.maxAttempts),
    ("operations_timeout_positive", fun o => 0 < o.timeoutSeconds),
    ("operations_payload_object", fun o => o.payload.isObject),
    ("operations_terminal_finished_at", fun o => o.status.live == o.finishedAt.isNone),
    ("operations_failure_error_required", fun o =>
      o.status ≠ .failed || (presentNotBlank o.errorCode && presentNotBlank o.errorMessage))]
  uniques := [
    ("operations_pkey", fun a b => a.id = b.id),
    ("operations_idempotency_key_key", fun a b => a.idempotencyKey = b.idempotencyKey)]

theorem operations_pkey :
    ("operations_pkey", fun a b : Operation => decide (a.id = b.id)) ∈ operationSchema.uniques :=
  List.mem_cons_self

inductive AttemptStatus where
  | running | succeeded | failed | cancelled
  deriving DecidableEq

/-- A row of `operation_attempts`. -/
structure OperationAttempt where
  operationID : UUID
  attempt : Int
  status : AttemptStatus := .running
  workerID : Option String := none
  errorCode : Option String := none
  errorMessage : Option String := none
  finishedAt : Option Timestamp := none

def operationAttemptSchema : Schema OperationAttempt where
  checks := [
    ("operation_attempts_attempt_positive", fun a => 0 < a.attempt),
    ("operation_attempts_terminal_finished_at", fun a =>
      (a.status = .running) == a.finishedAt.isNone),
    ("operation_attempts_failure_error_required", fun a =>
      a.status ≠ .failed || (presentNotBlank a.errorCode && presentNotBlank a.errorMessage))]
  uniques := [
    ("operation_attempts_operation_id_attempt_key", fun a b =>
      (a.operationID, a.attempt) = (b.operationID, b.attempt))]

theorem operation_attempts_key :
    ("operation_attempts_operation_id_attempt_key", fun a b : OperationAttempt =>
      decide ((a.operationID, a.attempt) = (b.operationID, b.attempt))) ∈
        operationAttemptSchema.uniques :=
  List.mem_cons_self

/-- A row of `events`, in the order of `event_sequence`. -/
structure Event where
  topic : String
  resource : Option Resource
  operationID : Option UUID
  data : JSON

/-! ## Acquisitions, downloads and feed entries -/

/-- A row of `acquisitions`. -/
structure Acquisition where
  id : UUID
  seriesID : UUID := 0
  releaseCandidateID : Option UUID := none
  rssEntryID : Option UUID := none
  mappingProfileID : Option UUID := none
  sourcePayload : JSON := .object []
  deletionRequestedAt : Option Timestamp := none
  createdAt : Timestamp := 0

def acquisitionSchema : Schema Acquisition where
  checks := [("acquisitions_source_payload_object", fun a => a.sourcePayload.isObject)]
  uniques := [
    ("acquisitions_pkey", fun a b => a.id = b.id),
    ("acquisitions_rss_entry_unique", fun a b =>
      a.rssEntryID.isSome && a.rssEntryID = b.rssEntryID),
    ("acquisitions_release_candidate_unique", fun a b =>
      a.releaseCandidateID.isSome && a.releaseCandidateID = b.releaseCandidateID)]

inductive DownloadStatus where
  | enqueuePending | fileResolutionPending | downloading | completed | selectingFiles
  | materialized | failed | cancelled
  deriving DecidableEq

def DownloadStatus.text : DownloadStatus → String
  | enqueuePending => "enqueue_pending"
  | fileResolutionPending => "file_resolution_pending"
  | downloading => "downloading"
  | completed => "completed"
  | selectingFiles => "selecting_files"
  | materialized => "materialized"
  | failed => "failed"
  | cancelled => "cancelled"

inductive DownloadFailureStage where
  | enqueue | fileResolution | sync | materialize
  deriving DecidableEq

/-- Who decided what a file or a feed entry is. -/
inductive DecisionSource where
  | deterministic | agentAuto | agentAccepted | user
  deriving DecidableEq

def DecisionSource.text : DecisionSource → String
  | deterministic => "deterministic"
  | agentAuto => "agent_auto"
  | agentAccepted => "agent_accepted"
  | user => "user"

def DecisionSource.isAgent : DecisionSource → Bool
  | agentAuto | agentAccepted => true
  | _ => false

/-- A row of `downloads`. -/
structure Download where
  id : UUID
  acquisitionID : UUID
  attempt : Nat := 1
  torrentHash : Option String := none
  savePath : Option String := none
  status : DownloadStatus := .enqueuePending
  fileResolutionSource : Option DecisionSource := none
  agentResolutionID : Option UUID := none
  failureStage : Option DownloadFailureStage := none
  errorCode : Option String := none
  errorMessage : Option String := none
  version : Nat := 1
  deletionRequestedAt : Option Timestamp := none
  deletedAt : Option Timestamp := none

/-- The rows that the partial index on `lower(torrent_hash)` covers. -/
def Download.holdsTorrent (d : Download) : Bool :=
  d.torrentHash.isSome && d.status ≠ .cancelled && d.deletedAt.isNone

def downloadSchema : Schema Download where
  checks := [
    ("downloads_attempt_positive", fun d => 0 < d.attempt),
    ("downloads_version_positive", fun d => 0 < d.version),
    ("downloads_failure_consistent", fun d => (d.status = .failed) == d.failureStage.isSome),
    ("downloads_file_resolution_agent_consistent", fun d =>
      d.fileResolutionSource.any DecisionSource.isAgent == d.agentResolutionID.isSome)]
  uniques := [
    ("downloads_pkey", fun a b => a.id = b.id),
    ("downloads_acquisition_id_attempt_key", fun a b =>
      (a.acquisitionID, a.attempt) = (b.acquisitionID, b.attempt)),
    ("downloads_torrent_hash_unique", fun a b =>
      a.holdsTorrent && b.holdsTorrent &&
        a.torrentHash.map String.toLower = b.torrentHash.map String.toLower)]

inductive RSSEntryStatus where
  | discovered | enqueueing | enqueued | enqueueFailed
  deriving DecidableEq

def RSSEntryStatus.text : RSSEntryStatus → String
  | discovered => "discovered"
  | enqueueing => "enqueueing"
  | enqueued => "enqueued"
  | enqueueFailed => "enqueue_failed"

/-- A row of `rss_entries`. -/
structure RSSEntry where
  id : UUID
  subscriptionID : UUID
  identityKey : String
  title : String
  downloadURI : Option String := none
  downloadable : Bool := false
  rejectionReasons : List String := []
  sourceSeason : Option Int := none
  sourceEpisode : Option Int := none
  status : RSSEntryStatus := .discovered
  enqueueAttempts : Nat := 0
  lastErrorCode : Option String := none
  lastErrorMessage : Option String := none
  lastErrorRetryable : Bool := false
  sourceEpisodeFractionHundredths : Int := 0

def rssEntrySchema : Schema RSSEntry where
  checks := [
    ("rss_entries_identity_not_blank", fun e => notBlank e.identityKey),
    ("rss_entries_title_not_blank", fun e => notBlank e.title),
    ("rss_entries_download_uri_not_blank", fun e => e.downloadURI.all notBlank),
    ("rss_entries_source_coordinates_valid", fun e =>
      (e.sourceSeason.isNone && e.sourceEpisode.isNone) ||
        (e.sourceSeason.any (0 < ·) && e.sourceEpisode.any (0 < ·))),
    ("rss_entries_downloadable_fields_required", fun e =>
      !e.downloadable || (e.downloadURI.isSome && e.sourceSeason.isSome && e.sourceEpisode.isSome &&
        e.rejectionReasons.isEmpty)),
    ("rss_entries_source_episode_fraction_valid", fun e =>
      0 ≤ e.sourceEpisodeFractionHundredths && e.sourceEpisodeFractionHundredths ≤ 99),
    ("rss_entries_source_episode_fraction_consistent", fun e =>
      e.sourceEpisode.isSome || e.sourceEpisodeFractionHundredths = 0)]
  uniques := [
    ("rss_entries_pkey", fun a b => a.id = b.id),
    ("rss_entries_subscription_id_identity_key_key", fun a b =>
      (a.subscriptionID, a.identityKey) = (b.subscriptionID, b.identityKey))]

/-- A row of `rss_subscriptions`. -/
structure RSSSubscription where
  id : UUID
  seriesID : UUID := 0
  mappingProfileID : Option UUID := none
  sourceSeason : Int := 1
  enabled : Bool := true
  autoReview : Bool := false
  version : Nat := 1
  includeKeywords : List String := []
  excludeKeywords : List String := []
  completedAt : Option Timestamp := none
  deletedAt : Option Timestamp := none
  autoEpisodeMapping : Bool := false
  cleanupSourceOnCompletion : Bool := false
  pollIntervalSeconds : Nat := 900
  nextPollAt : Option Timestamp := none
  createdAt : Timestamp := 0

def rssSubscriptionSchema : Schema RSSSubscription where
  checks := [
    ("rss_subscriptions_poll_interval_valid", fun s =>
      60 ≤ s.pollIntervalSeconds && s.pollIntervalSeconds ≤ 86400),
    ("rss_subscriptions_version_positive", fun s => 0 < s.version),
    ("rss_subscriptions_source_season_positive", fun s => 0 < s.sourceSeason),
    ("rss_subscriptions_completed_disabled", fun s => s.completedAt.isNone || !s.enabled)]
  uniques := [("rss_subscriptions_pkey", fun a b => a.id = b.id)]

inductive AdjudicationBatchStatus where
  | pending | applied | expired
  deriving DecidableEq

/-- A row of `rss_adjudication_batches`. -/
structure RSSAdjudicationBatch where
  id : UUID
  subscriptionID : UUID
  status : AdjudicationBatchStatus := .pending
  entryCount : Nat := 0

def rssAdjudicationBatchSchema : Schema RSSAdjudicationBatch where
  uniques := [("rss_adjudication_batches_pkey", fun a b => a.id = b.id)]

inductive AdjudicationState where
  | pending | selected | ignored
  deriving DecidableEq

/-- A row of `rss_entry_adjudications`. -/
structure RSSEntryAdjudication where
  entryID : UUID
  batchID : UUID
  state : AdjudicationState := .pending
  source : Option DecisionSource := none
  resolutionID : Option UUID := none
  relatedEntryID : Option UUID := none

def rssEntryAdjudicationSchema : Schema RSSEntryAdjudication where
  checks := [
    ("rss_entry_adjudications_consistent", fun a =>
      (a.state = .pending && a.source.isNone && a.resolutionID.isNone && a.relatedEntryID.isNone) ||
        (a.state ≠ .pending && a.source.isSome && a.resolutionID.isSome)),
    ("rss_entry_adjudications_related_not_self", fun a => a.relatedEntryID ≠ some a.entryID)]
  uniques := [("rss_entry_adjudications_pkey", fun a b => a.entryID = b.entryID)]

/-! ## Searches, agent resolutions and library scans -/

inductive SearchRunStatus where
  | queued | running | completed | failed | cancelled
  deriving DecidableEq

/-- A row of `search_runs`. -/
structure SearchRun where
  id : UUID
  status : SearchRunStatus := .queued
  errorCode : Option String := none
  errorMessage : Option String := none

def searchRunSchema : Schema SearchRun where
  uniques := [("search_runs_pkey", fun a b => a.id = b.id)]

/-- A row of `release_candidates`. -/
structure ReleaseCandidate where
  id : UUID
  searchRunID : UUID
  downloadURI : Option String := none

def releaseCandidateSchema : Schema ReleaseCandidate where
  uniques := [("release_candidates_pkey", fun a b => a.id = b.id)]

inductive AgentResolutionStatus where
  | queued | running | proposed | reviewRequired | applied | rejected | failed | cancelled | expired
  deriving DecidableEq

/-- A row of `agent_resolutions`. -/
structure AgentResolution where
  id : UUID
  capability : String
  status : AgentResolutionStatus := .queued
  errorCode : Option String := none
  errorMessage : Option String := none
  version : Nat := 1
  operationID : UUID := 0
  resourceID : UUID := 0
  inputFingerprint : List UInt8 := []

def agentResolutionSchema : Schema AgentResolution where
  checks := [
    ("agent_resolutions_version_positive", fun r => 0 < r.version),
    ("agent_resolutions_error_pair", fun r => r.errorCode.isNone == r.errorMessage.isNone)]
  uniques := [
    ("agent_resolutions_pkey", fun a b => a.id = b.id),
    ("agent_resolutions_operation_id_key", fun a b => a.operationID = b.operationID)]

inductive EmbyScanStatus where
  | queued | running | succeeded | failed | cancelled
  deriving DecidableEq

/-- A row of `emby_scan_runs`. -/
structure EmbyScanRun where
  id : UUID
  status : EmbyScanStatus := .queued
  errorCode : Option String := none
  errorMessage : Option String := none
  completedAt : Option Timestamp := none

def embyScanRunSchema : Schema EmbyScanRun where
  checks := [
    ("emby_scan_runs_error_pair", fun r => r.errorCode.isNone == r.errorMessage.isNone),
    ("emby_scan_runs_terminal_time", fun r =>
      (r.status = .queued || r.status = .running) == r.completedAt.isNone),
    ("emby_scan_runs_failure_error", fun r =>
      !(r.status = .failed || r.status = .cancelled) ||
        (presentNotBlank r.errorCode && presentNotBlank r.errorMessage))]
  uniques := [("emby_scan_runs_pkey", fun a b => a.id = b.id)]

/-! ## Episode tasks, their artifacts, reviews, imports and cleanups -/

inductive TaskState where
  | mediaQueued | processing | finalizing | awaitingReview | approved | rejected
  | importQueued | importing | imported | failed | cancelled
  deriving DecidableEq

def TaskState.text : TaskState → String
  | mediaQueued => "media_queued"
  | processing => "processing"
  | finalizing => "finalizing"
  | awaitingReview => "awaiting_review"
  | approved => "approved"
  | rejected => "rejected"
  | importQueued => "import_queued"
  | importing => "importing"
  | imported => "imported"
  | failed => "failed"
  | cancelled => "cancelled"

inductive VideoState where
  | transcodeQueued | transcoding | videoReady | failed | cancelled
  deriving DecidableEq

def VideoState.text : VideoState → String
  | transcodeQueued => "transcode_queued"
  | transcoding => "transcoding"
  | videoReady => "video_ready"
  | failed => "failed"
  | cancelled => "cancelled"

inductive SubtitleState where
  | subtitleQueued | extractingOrConverting | assReady | failed | cancelled
  deriving DecidableEq

def SubtitleState.text : SubtitleState → String
  | subtitleQueued => "subtitle_queued"
  | extractingOrConverting => "extracting_or_converting"
  | assReady => "ass_ready"
  | failed => "failed"
  | cancelled => "cancelled"

inductive TaskFailureStage where
  | video | subtitle | finalize | import
  deriving DecidableEq

def TaskFailureStage.text : TaskFailureStage → String
  | video => "video"
  | subtitle => "subtitle"
  | finalize => "finalize"
  | .import => "import"

inductive MediaType where
  | episode | movie
  deriving DecidableEq

/-- A row of `episode_tasks`. -/
structure EpisodeTask where
  id : UUID
  acquisitionID : UUID
  sourceVideoFileID : UUID
  mappingID : Option UUID := none
  transcodeProfileID : UUID
  mediaType : MediaType := .episode
  state : TaskState := .mediaQueued
  videoState : VideoState := .transcodeQueued
  subtitleState : SubtitleState := .subtitleQueued
  failureStage : Option TaskFailureStage := none
  version : Nat := 1
  errorCode : Option String := none
  errorMessage : Option String := none

def episodeTaskSchema : Schema EpisodeTask where
  checks := [
    ("episode_tasks_version_positive", fun t => 0 < t.version),
    ("episode_tasks_failure_consistent", fun t => (t.state = .failed) == t.failureStage.isSome)]
  uniques := [
    ("episode_tasks_pkey", fun a b => a.id = b.id),
    ("episode_tasks_acquisition_id_source_video_file_id_key", fun a b =>
      (a.acquisitionID, a.sourceVideoFileID) = (b.acquisitionID, b.sourceVideoFileID))]

/-- A row of `media_artifacts`. -/
structure MediaArtifact where
  id : UUID
  taskID : UUID
  kind : MediaKind
  basename : String
  filePath : String
  format : String
  checksumSHA256 : List UInt8

def mediaArtifactSchema : Schema MediaArtifact where
  checks := [
    ("media_artifacts_kind_valid", fun a => a.kind = .video || a.kind = .subtitle),
    ("media_artifacts_basename_not_blank", fun a => notBlank a.basename),
    ("media_artifacts_path_not_blank", fun a => notBlank a.filePath),
    ("media_artifacts_format_not_blank", fun a => notBlank a.format),
    ("media_artifacts_checksum_length", fun a => a.checksumSHA256.length = 32)]
  uniques := [
    ("media_artifacts_pkey", fun a b => a.id = b.id),
    ("media_artifacts_one_kind_per_task", fun a b => (a.taskID, a.kind) = (b.taskID, b.kind)),
    ("media_artifacts_file_path_key", fun a b => a.filePath = b.filePath)]

/-- A row of `artifact_sets`. -/
structure ArtifactSet where
  taskID : UUID
  basename : String
  videoArtifactID : UUID
  subtitleArtifactID : UUID

def artifactSetSchema : Schema ArtifactSet where
  checks := [
    ("artifact_sets_basename_not_blank", fun s => notBlank s.basename),
    ("artifact_sets_artifacts_distinct", fun s => s.videoArtifactID ≠ s.subtitleArtifactID)]
  uniques := [
    ("artifact_sets_task_id_key", fun a b => a.taskID = b.taskID),
    ("artifact_sets_video_artifact_id_key", fun a b => a.videoArtifactID = b.videoArtifactID),
    ("artifact_sets_subtitle_artifact_id_key", fun a b =>
      a.subtitleArtifactID = b.subtitleArtifactID)]

inductive ReviewDecision where
  | approved | rejected
  deriving DecidableEq

def ReviewDecision.state : ReviewDecision → TaskState
  | approved => .approved
  | rejected => .rejected

/-- A row of `reviews`. -/
structure Review where
  id : UUID
  taskID : UUID
  decision : ReviewDecision
  notes : String := ""
  idempotencyKey : String
  expectedTaskVersion : Int

def reviewSchema : Schema Review where
  checks := [
    ("reviews_idempotency_key_not_blank", fun r => notBlank r.idempotencyKey),
    ("reviews_expected_version_positive", fun r => 0 < r.expectedTaskVersion)]
  uniques := [
    ("reviews_pkey", fun a b => a.id = b.id),
    ("reviews_task_id_key", fun a b => a.taskID = b.taskID),
    ("reviews_idempotency_key_unique", fun a b => a.idempotencyKey = b.idempotencyKey)]

inductive ImportStatus where
  | queued | running | succeeded | failed | cancelled
  deriving DecidableEq

/-- `status IN ('queued', 'running')`. -/
def ImportStatus.active : ImportStatus → Bool
  | queued | running => true
  | _ => false

/-- A row of `imports`. -/
structure Import where
  id : UUID
  taskID : UUID
  attempt : Nat := 1
  status : ImportStatus := .queued
  destinationVideoPath : Option String := none
  destinationSubtitlePath : Option String := none
  errorCode : Option String := none
  errorMessage : Option String := none

def importSchema : Schema Import where
  checks := [
    ("imports_attempt_positive", fun i => 0 < i.attempt),
    ("imports_success_paths_required", fun i =>
      i.status ≠ .succeeded ||
        (presentNotBlank i.destinationVideoPath && presentNotBlank i.destinationSubtitlePath)),
    ("imports_destination_paths_paired", fun i =>
      i.destinationVideoPath.isNone == i.destinationSubtitlePath.isNone)]
  uniques := [
    ("imports_pkey", fun a b => a.id = b.id),
    ("imports_task_id_attempt_key", fun a b => (a.taskID, a.attempt) = (b.taskID, b.attempt)),
    ("imports_one_success_per_task", fun a b =>
      a.status = .succeeded && b.status = .succeeded && a.taskID = b.taskID),
    ("imports_one_active_per_task", fun a b =>
      a.status.active && b.status.active && a.taskID = b.taskID)]

inductive CleanupStatus where
  | queued | running | completed | failed | cancelled
  deriving DecidableEq

/-- `status IN ('queued', 'running')`. -/
def CleanupStatus.active : CleanupStatus → Bool
  | queued | running => true
  | _ => false

/-- A row of `cleanup_runs`. -/
structure CleanupRun where
  id : UUID
  taskID : UUID
  downloadID : Option UUID := none
  attempt : Nat := 1
  status : CleanupStatus := .queued
  errorCode : Option String := none
  errorMessage : Option String := none

def cleanupRunSchema : Schema CleanupRun where
  checks := [("cleanup_runs_attempt_positive", fun c => 0 < c.attempt)]
  uniques := [
    ("cleanup_runs_pkey", fun a b => a.id = b.id),
    ("cleanup_runs_task_id_attempt_key", fun a b => (a.taskID, a.attempt) = (b.taskID, b.attempt)),
    ("cleanup_runs_one_active_per_task", fun a b =>
      a.status.active && b.status.active && a.taskID = b.taskID)]

inductive MatchScopeStatus where
  | pending | applied | expired
  deriving DecidableEq

/-- A row of `subtitle_video_match_scopes`. -/
structure SubtitleVideoMatchScope where
  id : UUID
  taskID : UUID
  status : MatchScopeStatus := .pending
  selectedCandidateID : Option String := none
  agentResolutionID : Option UUID := none

def subtitleVideoMatchScopeSchema : Schema SubtitleVideoMatchScope where
  checks := [
    ("subtitle_video_match_scopes_applied_consistent", fun s =>
      (s.status = .applied && s.selectedCandidateID.isSome && s.agentResolutionID.isSome) ||
        (s.status ≠ .applied && s.selectedCandidateID.isNone && s.agentResolutionID.isNone))]
  uniques := [
    ("subtitle_video_match_scopes_pkey", fun a b => a.id = b.id),
    ("subtitle_video_match_scopes_task_unique", fun a b => a.taskID = b.taskID)]

inductive SubtitleSource where
  | embedded | external
  deriving DecidableEq

/-- A row of `subtitle_video_match_candidates`. -/
structure SubtitleVideoMatchCandidate where
  scopeID : UUID
  candidateID : String
  source : SubtitleSource
  streamIndex : Option Int := none
  format : Option String := none
  language : Option String := none
  title : Option String := none
  path : Option String := none

def subtitleVideoMatchCandidateSchema : Schema SubtitleVideoMatchCandidate where
  checks := [
    ("subtitle_video_match_candidates_id_not_blank", fun c => notBlank c.candidateID),
    ("subtitle_video_match_candidates_stream_index_consistent", fun c =>
      (c.source = .embedded && c.streamIndex.any (0 ≤ ·)) ||
        (c.source = .external && c.streamIndex.isNone))]
  uniques := [
    ("subtitle_video_match_candidates_pkey", fun a b =>
      (a.scopeID, a.candidateID) = (b.scopeID, b.candidateID))]

/-! ## The database -/

/-- The tables that operations work on, and the event log. -/
structure Resources where
  acquisitions : Table acquisitionSchema := default
  downloads : Table downloadSchema := default
  downloadFiles : Table downloadFileSchema := default
  mediaSeries : Table mediaSeriesSchema := default
  tmdbSeasons : Table tmdbSeasonSchema := default
  mediaEpisodes : Table mediaEpisodeSchema := default
  episodeMappingProfiles : Table episodeMappingProfileSchema := default
  episodeMappings : Table episodeMappingSchema := default
  transcodeProfiles : Table transcodeProfileSchema := default
  rssEntries : Table rssEntrySchema := default
  rssSubscriptions : Table rssSubscriptionSchema := default
  rssAdjudicationBatches : Table rssAdjudicationBatchSchema := default
  rssEntryAdjudications : Table rssEntryAdjudicationSchema := default
  searchRuns : Table searchRunSchema := default
  releaseCandidates : Table releaseCandidateSchema := default
  agentResolutions : Table agentResolutionSchema := default
  embyScanRuns : Table embyScanRunSchema := default
  episodeTasks : Table episodeTaskSchema := default
  mediaArtifacts : Table mediaArtifactSchema := default
  artifactSets : Table artifactSetSchema := default
  reviews : Table reviewSchema := default
  imports : Table importSchema := default
  cleanupRuns : Table cleanupRunSchema := default
  subtitleVideoMatchScopes : Table subtitleVideoMatchScopeSchema := default
  subtitleVideoMatchCandidates : Table subtitleVideoMatchCandidateSchema := default
  events : List Event := []

/-- The database: the operation records, and everything else. -/
structure Database where
  operations : Table operationSchema := default
  operationAttempts : Table operationAttemptSchema := default
  resources : Resources := {}

/-- A transaction that leaves the operation records alone. -/
abbrev ResourcesTx := Tx Fault Resources

abbrev DatabaseTx := Tx Fault Database

end EmbyAuto
