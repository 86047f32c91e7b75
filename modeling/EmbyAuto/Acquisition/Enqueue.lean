import EmbyAuto.Domain.ReleasePlan
import EmbyAuto.Download.Materialize

/-!
# How acquisitions are created

An acquisition comes from a release that a user picked in a search, from a feed entry that the
RSS workflow schedules, or from a feed entry whose coordinate an agent resolved. Each path
stores the facts about its source in `acquisitions.source_payload`, creates a download, and
schedules a `download.enqueue` operation with the options for the classification of its files.

What these paths ask other parts of the application is a parameter: whether a release may be
downloaded, and whether the episode that it maps to is already taken.

## Main definitions

* `createSearchAcquisition`: the search path, for episodes and movies
* `enqueueRSSEntry`: what the three feed paths have in common
* `scheduleRSSDownload`, `applyRSSCoordinate`, `applyRSSReleaseAdjudication`: the feed paths
* `AcquisitionCall`: any call that creates acquisitions
-/

namespace EmbyAuto

open Relational Database Resources

namespace Resources

def mediaSeriesSlot : Slot Resources mediaSeriesSchema where
  table := mediaSeries
  put r t := { r with mediaSeries := t }
  put_table := Eq.refl

def rssAdjudicationBatchesSlot : Slot Resources rssAdjudicationBatchSchema where
  table := rssAdjudicationBatches
  put r t := { r with rssAdjudicationBatches := t }
  put_table := Eq.refl

def rssEntryAdjudicationsSlot : Slot Resources rssEntryAdjudicationSchema where
  table := rssEntryAdjudications
  put r t := { r with rssEntryAdjudications := t }
  put_table := Eq.refl

end Resources

/-! ## Requests -/

/-- The command of the search path; the media type is absent when the request leaves it
empty. -/
structure CreateSearchAcquisition where
  candidateID : UUID
  mediaType : Option MediaType := none
  tmdbSeriesID : Int := 0
  seriesTitle : String := ""
  tmdbMovieID : Int := 0
  movieTitle : String := ""
  releaseYear : Int := 0
  mappingProfileID : Option UUID := none
  sourceSeason : Int := 0
  sourceEpisode : Int := 0
  singleEpisode : Bool := false
  idempotencyKey : String
  actorUserID : UUID

/-- The media type with its default. -/
def CreateSearchAcquisition.media (input : CreateSearchAcquisition) : MediaType :=
  input.mediaType.getD .episode

structure RSSEnqueueCandidate where
  entryID : UUID
  expectedVersion : Int := 0
  expectedSubscriptionVersion : Int := 0

structure AgentRSSCoordinateProposal where
  sourceSeason : Int
  sourceEpisode : Int

inductive Disposition where
  | select | ignore | unresolved
  deriving DecidableEq

structure AgentRSSReleaseDisposition where
  entryID : UUID
  disposition : Disposition
  sourceSeason : Option Int := none
  sourceEpisode : Option Int := none
  relatedEntryID : Option UUID := none

structure AgentRSSReleaseAdjudicationProposal where
  batchID : UUID
  entries : List AgentRSSReleaseDisposition

/-- The agent resolution that a proposal belongs to, as it was read before the transaction. -/
structure ProposedResolution where
  id : UUID
  version : Int
  resourceID : UUID

/-- The identifiers drawn at random for a new acquisition, its download and its operation. -/
structure NewAcquisition where
  acquisitionID : UUID
  downloadID : UUID
  operation : NewOperation

/-- What a path did: the rows that it returns, and whether it made them or found those of an
earlier call. -/
structure EnqueuedDownload where
  acquisition : Acquisition
  download : Download
  operation : Operation
  created : Bool

/-! ## What the paths ask of other parts -/

structure RSSTargetOccupancy where
  reason : String := ""
  fulfilled : Bool := false
  targetEpisodeID : UUID := 0
  fulfillmentSource : String := ""
  realtimeCheckID : UUID := 0

/-- The parts of the application that decide whether a release is enqueued. -/
structure AcquisitionRules where
  /-- `domain.IsDownloadURI` -/
  isDownloadURI : String → Bool
  /-- the lock and the check of a mapped target before the media row of a search is written -/
  reserveTarget : CreateSearchAcquisition → JSON → DatabaseTx Unit
  /-- the same check afterwards, with the media row -/
  confirmTarget : CreateSearchAcquisition → JSON → MediaSeries → DatabaseTx Unit
  /-- `domain.AnalyzeRSSRelease` of an entry -/
  analyze : RSSEntry → RSSSubscription → RSSReleaseAnalysis
  /-- the target of a coordinate of a subscription, for an entry -/
  occupancy : UUID → Int → Int → UUID → DatabaseTx RSSTargetOccupancy
  /-- `markRSSEntryTargetOccupiedInTx` -/
  markOccupied : UUID → RSSTargetOccupancy → DatabaseTx Unit
  /-- `completeRSSSubscriptionAtFulfillmentInTx` -/
  completeSubscription : UUID → DatabaseTx Unit

/-! ## The search path -/

def downloadEnqueueTimeout : Duration := 3 * Duration.minute

/-- The options of an enqueue operation as its payload has them. -/
def selectionPayload (options : FileSelectionOptions) : List (String × JSON) := [
  ("defaultSeason", .number options.defaultSeason),
  ("defaultEpisode", .number options.defaultEpisode),
  ("singleEpisode", .bool options.singleEpisode)]

def enqueueRequest (downloadID : UUID) (payload : List (String × JSON)) :
    ScheduleOperationRequest where
  kind := .downloadEnqueue
  resource := some (.download, downloadID)
  idempotencyKey := "download.enqueue:" ++ downloadID.text
  maxAttempts := 5
  timeout := downloadEnqueueTimeout
  payload

namespace CreateSearchAcquisition

def sourcePayload (input : CreateSearchAcquisition) (searchRunID : UUID) : JSON := .object [
  ("candidateId", .string input.candidateID.text), ("searchRunId", .string searchRunID.text),
  ("mediaType", .string input.media.text), ("sourceSeason", .number input.sourceSeason),
  ("sourceEpisode", .number input.sourceEpisode), ("singleEpisode", .bool input.singleEpisode)]

/-- The options of the enqueue operation: those of the request, or fixed ones for a movie. -/
def selectionOptions (input : CreateSearchAcquisition) : FileSelectionOptions :=
  match input.media with
  | .episode => ⟨input.sourceSeason, input.sourceEpisode, input.singleEpisode⟩
  | .movie => ⟨1, 1, true⟩

end CreateSearchAcquisition

def invalidSearchAcquisition (field reason : String) : Fault :=
  .service "invalid_acquisition" "the acquisition command is invalid"
    [("field", .text field), ("reason", .text reason)]

/-- `1 <= len(strings.TrimSpace(title)) <= 512`, in bytes. -/
def titleValid (title : String) : Bool :=
  trimSpace title ≠ "" && (trimSpace title).utf8ByteSize ≤ 512

def validateSearchMedia (input : CreateSearchAcquisition) : Except Fault Unit :=
  match input.media with
  | .episode =>
    if input.tmdbSeriesID ≤ 0 then
      .error (invalidSearchAcquisition "tmdbSeriesId" "must be positive for an episode acquisition")
    else if !titleValid input.seriesTitle then
      .error (invalidSearchAcquisition "seriesTitle" "must contain between 1 and 512 characters")
    else if input.sourceSeason ≤ 0 ∨ input.sourceSeason > 2147483647 then
      .error (invalidSearchAcquisition "sourceSeason" "must be between 1 and 2147483647")
    else if input.sourceEpisode < 0 ∨ input.sourceEpisode > 2147483647 ∨
        (input.singleEpisode = true ∧ input.sourceEpisode = 0) then
      .error (invalidSearchAcquisition "sourceEpisode"
        "must be positive for a single episode and nonnegative otherwise")
    else .ok ()
  | .movie =>
    if input.tmdbMovieID ≤ 0 then
      .error (invalidSearchAcquisition "tmdbMovieId" "must be positive for a movie acquisition")
    else if !titleValid input.movieTitle then
      .error (invalidSearchAcquisition "movieTitle" "must contain between 1 and 512 characters")
    else if input.releaseYear < 1870 ∨ input.releaseYear > 9999 then
      .error (invalidSearchAcquisition "releaseYear" "must be between 1870 and 9999")
    else if input.mappingProfileID.isSome then
      .error (invalidSearchAcquisition "mappingProfileId" "must be omitted for a movie acquisition")
    else .ok ()

def validateSearchAcquisition (input : CreateSearchAcquisition) : Except Fault Unit :=
  let key := trimSpace input.idempotencyKey
  if input.candidateID = 0 then
    .error (invalidSearchAcquisition "candidateId" "must be present")
  else match validateSearchMedia input with
    | .error fault => .error fault
    | .ok _ =>
      if key = "" ∨ key.utf8ByteSize > 256 then
        .error (invalidSearchAcquisition "idempotencyKey"
          "must contain between 1 and 256 characters")
      else if input.actorUserID = 0 then
        .error (invalidSearchAcquisition "actorUserId" "must be present")
      else .ok ()

/-- `UpsertSearchMediaMovie` and `UpsertSearchMediaSeries`. -/
def upsertSearchMedia (id : UUID) (input : CreateSearchAcquisition) :
    ResourcesTx MediaSeries := do
  let new : MediaSeries := match input.media with
    | .movie => {
      id, title := trimSpace input.movieTitle, mediaType := .movie
      tmdbMovieID := some input.tmdbMovieID, releaseYear := some (int32 input.releaseYear) }
    | .episode => {
      id, title := trimSpace input.seriesTitle, tmdbSeriesID := some input.tmdbSeriesID }
  let existing (s : MediaSeries) : Bool := match input.media with
    | .movie => s.tmdbMovieID = new.tmdbMovieID
    | .episode => s.tmdbSeriesID = new.tmdbSeriesID
  match ← mediaSeriesSlot.updateOne existing fun s => match input.media with
      | .movie => { s with title := new.title, releaseYear := new.releaseYear }
      | .episode => { s with title := new.title } with
  | some series => return series
  | none =>
    mediaSeriesSlot.insert new
    return new

/-- `CreateSearchAcquisition`; `none` for a conflict. -/
def insertSearchAcquisition (new : Acquisition) : ResourcesTx (Option Acquisition) := do
  match ← acquisitionsSlot.selectOne fun a =>
      a.id = new.id || a.releaseCandidateID = new.releaseCandidateID with
  | some _ => return none
  | none =>
    acquisitionsSlot.insert new
    return some new

def getSearchAcquisitionByCandidate (candidateID : UUID) :
    ResourcesTx (Option Acquisition) :=
  acquisitionsSlot.selectOne fun a => a.releaseCandidateID = some candidateID

def idempotencyConflict (key : String) : Fault :=
  .service "idempotency_conflict" "the idempotency key was already used for a different command"
    [("idempotencyKey", .text key)]

/-- The acquisition of a candidate, created unless it exists, and whether it was created. -/
def createOrGetSearchAcquisition (new : Acquisition) (candidateID : UUID) (key : String) :
    ResourcesTx (Acquisition × Bool) := do
  match ← context "create search acquisition" (insertSearchAcquisition new) with
  | some acquisition => return (acquisition, true)
  | none =>
    match ← context "create search acquisition" (getSearchAcquisitionByCandidate candidateID) with
    | some acquisition => return (acquisition, false)
    | none => throw (idempotencyConflict key)

/-- The download of an acquisition, created unless there is one. -/
def createOrGetSearchDownload (id acquisitionID : UUID) : ResourcesTx Download := do
  let existing := (← get).downloads.rows.filter fun d => d.acquisitionID = acquisitionID
  match existing.argmax Download.attempt with
  | some download => return download
  | none =>
    let download : Download := { id, acquisitionID }
    downloadsSlot.insert download
    return download

/-- The catalogue of an episode's series is refreshed. -/
def scheduleAcquisitionSync (input : CreateSearchAcquisition) (new : NewOperation)
    (acquisition : Acquisition) : DatabaseTx Unit := do
  match input.media with
  | .movie => return ()
  | .episode =>
    let _ ← context "schedule acquisition TMDb sync" (scheduleInTx new {
      kind := .tmdbSync, resource := some (.mediaSeries, acquisition.seriesID)
      idempotencyKey := "tmdb.sync:acquisition:" ++ acquisition.id.text
      maxAttempts := 4, timeout := 10 * Duration.minute
      payload := [("tmdbSeriesId", .number input.tmdbSeriesID)] })

/-- The last part of the search path, from the acquisition on. -/
def enqueueSearchAcquisition (input : CreateSearchAcquisition) (downloadID : UUID)
    (enqueue sync : NewOperation) (acquisition : Acquisition) (created : Bool) :
    DatabaseTx EnqueuedDownload := do
  let download ← context "create search download"
    (onResources (createOrGetSearchDownload downloadID acquisition.id))
  let (operation, scheduled) ← context "schedule search download" (scheduleInTx enqueue
    (enqueueRequest download.id (selectionPayload input.selectionOptions ++
      [("mediaType", .string input.media.text)])))
  scheduleAcquisitionSync input sync acquisition
  match created with
  | false => return { acquisition, download, operation, created := false }
  | true =>
    appendResourceEvent (.acquisition, acquisition.id) (some operation.id) "acquisition.created" [
      ("candidateId", .string input.candidateID.text), ("downloadId", .string download.id.text),
      ("sourceKind", .string "search"), ("mediaType", .string input.media.text)]
    return { acquisition, download, operation, created := scheduled }

def getReleaseCandidate (id : UUID) : ResourcesTx (Option ReleaseCandidate) := do
  return lookup ReleaseCandidate.id id (← get).releaseCandidates.rows

/-- The transaction of `CreateAcquisition` for a candidate that can be downloaded. -/
def acquireCandidate (rules : AcquisitionRules) (hashes : Hashes) (mediaID : UUID)
    (enqueue sync : NewOperation) (input : CreateSearchAcquisition) (candidate : ReleaseCandidate) :
    DatabaseTx EnqueuedDownload := do
  let key := trimSpace input.idempotencyKey
  let acquisitionID := hashes.resourceID
    ("acquisition.create:" ++ input.actorUserID.text ++ ":" ++ key)
  let downloadID := hashes.resourceID ("download:" ++ acquisitionID.text)
  let sourcePayload := input.sourcePayload candidate.searchRunID
  rules.reserveTarget input sourcePayload
  let media ← context "upsert search media metadata" (onResources (upsertSearchMedia mediaID input))
  rules.confirmTarget input sourcePayload media
  let (acquisition, created) ← onResources (createOrGetSearchAcquisition {
    id := acquisitionID, seriesID := media.id, mappingProfileID := input.mappingProfileID
    releaseCandidateID := some candidate.id, sourcePayload } candidate.id key)
  if acquisition.seriesID ≠ media.id ∨ acquisition.mappingProfileID ≠ input.mappingProfileID ∨
      !acquisition.sourcePayload.valuesEqual sourcePayload then
    throw (.service "state_conflict"
      "the release candidate was already selected with different acquisition settings"
      [("candidateId", .text input.candidateID.text)])
  else
    enqueueSearchAcquisition input downloadID enqueue sync acquisition created

def createSearchAcquisition (rules : AcquisitionRules) (hashes : Hashes) (mediaID : UUID)
    (enqueue sync : NewOperation) (input : CreateSearchAcquisition) :
    DatabaseTx EnqueuedDownload := do
  match validateSearchAcquisition input with
  | .error fault => throw fault
  | .ok _ =>
    let candidate ← orNotFound (context "load release candidate"
      (onResources (getReleaseCandidate input.candidateID)))
    if candidate.downloadURI.any rules.isDownloadURI then
      acquireCandidate rules hashes mediaID enqueue sync input candidate
    else
      throw (.service "candidate_not_downloadable"
        "the release candidate has no supported download URI"
        [("candidateId", .text input.candidateID.text)])

/-! ## What the feed paths have in common -/

def rssSourcePayload (entryID : UUID) (identityKey : String) (season episode : Int) : JSON :=
  .object [("rssEntryId", .string entryID.text), ("identityKey", .string identityKey),
    ("sourceSeason", .number season), ("sourceEpisode", .number episode)]

def markRSSEntryEnqueueing (id : UUID) : ResourcesTx (Option RSSEntry) :=
  rssEntriesSlot.updateOne
    (atKey RSSEntry.id id fun e => e.downloadable && decide (e.status ∈ enqueueable))
    fun e => { e with
      status := .enqueueing, enqueueAttempts := e.enqueueAttempts + 1
      lastErrorCode := none, lastErrorMessage := none, lastErrorRetryable := false }
where
  enqueueable : List RSSEntryStatus := [.discovered, .enqueueFailed]

/-- An entry keeps its acquisition, with the facts of the last call. -/
def upsertRSSAcquisition (new : Acquisition) : ResourcesTx Acquisition := do
  match ← acquisitionsSlot.updateOne (fun a => a.rssEntryID = new.rssEntryID) fun a => { a with
      mappingProfileID := new.mappingProfileID, sourcePayload := new.sourcePayload } with
  | some acquisition => return acquisition
  | none =>
    acquisitionsSlot.insert new
    return new

def createRSSDownloadAttempt (id acquisitionID : UUID) : ResourcesTx Download := do
  let attempts := ((← get).downloads.rows.filter fun d => d.acquisitionID = acquisitionID).map
    Download.attempt
  let download : Download := { id, acquisitionID, attempt := attempts.foldl max 0 + 1 }
  downloadsSlot.insert download
  return download

/-- What the three paths say in the errors of their steps. -/
structure EnqueueTexts where
  mark : String
  acquisition : String
  download : String
  schedule : String

/-- Enqueues the release of an entry as a single episode at the given coordinate. -/
def enqueueRSSEntry (texts : EnqueueTexts) (new : NewAcquisition) (subscription : RSSSubscription)
    (entryID : UUID) (identityKey : String) (season episode : Int) :
    DatabaseTx (EnqueuedDownload × RSSEntry) := do
  let entry ← context texts.mark (requireRow (onResources (markRSSEntryEnqueueing entryID)))
  let acquisition ← context texts.acquisition (onResources (upsertRSSAcquisition {
    id := new.acquisitionID, seriesID := subscription.seriesID
    mappingProfileID := subscription.mappingProfileID, rssEntryID := some entryID
    sourcePayload := rssSourcePayload entryID identityKey season episode }))
  let download ← context texts.download
    (onResources (createRSSDownloadAttempt new.downloadID acquisition.id))
  let (operation, created) ← context texts.schedule (scheduleInTx new.operation
    (enqueueRequest download.id (selectionPayload ⟨season, episode, true⟩)))
  return ({ acquisition, download, operation, created }, entry)

def enqueueingEvent (made : EnqueuedDownload) (entry : RSSEntry) : List (String × JSON) := [
  ("status", .string "enqueueing"), ("enqueueAttempt", .number entry.enqueueAttempts),
  ("downloadAttempt", .number made.download.attempt),
  ("acquisitionId", .string made.acquisition.id.text),
  ("downloadId", .string made.download.id.text)]

def lockRSSSubscriptionForEntryReservation (entryID : UUID) :
    ResourcesTx (Option RSSSubscription) := do
  let r ← get
  return (lookup RSSEntry.id entryID r.rssEntries.rows).bind fun entry =>
    lookup RSSSubscription.id entry.subscriptionID r.rssSubscriptions.rows

def lockRSSEntry (entryID : UUID) : ResourcesTx (Option RSSEntry) := do
  return lookup RSSEntry.id entryID (← get).rssEntries.rows

def rssOnlySoftCoordinateReasons (reasons : List String) : Bool :=
  reasons ≠ [] && reasons.all fun reason =>
    reason = "episode_not_detected" || reason = "episode_ambiguous"

/-- The entry gives way to whatever occupies its target. -/
def yieldTarget (rules : AcquisitionRules) (entryID : UUID) (occupancy : RSSTargetOccupancy) :
    DatabaseTx Unit :=
  if occupancy.reason = "" then return () else rules.markOccupied entryID occupancy

/-- A fulfilled target may have been the last one of its subscription. -/
def completeFulfilled (rules : AcquisitionRules) (subscriptionID : UUID)
    (occupancy : RSSTargetOccupancy) : DatabaseTx Unit :=
  if occupancy.fulfilled then rules.completeSubscription subscriptionID else return ()

/-! ## The scheduled feed path -/

def rssEntryVersion (enqueueAttempts : Nat) : Int := max enqueueAttempts 1

def rejectRSSEntryBeforeEnqueue (id : UUID) (reasons : List String) :
    ResourcesTx (Option RSSEntry) :=
  rssEntriesSlot.updateOne
    (atKey RSSEntry.id id fun e => e.status = .discovered || e.status = .enqueueFailed)
    fun e => { e with downloadable := false, rejectionReasons := reasons }

/-- Schedules an entry that passed the checks of its state. -/
def scheduleRSSEntry (rules : AcquisitionRules) (new : NewAcquisition)
    (subscription : RSSSubscription) (entry : RSSEntry) :
    DatabaseTx (Option EnqueuedDownload) := do
  let analysis := rules.analyze entry subscription
  let season := entry.sourceSeason.getD 0
  let episode := entry.sourceEpisode.getD 0
  if !analysis.downloadable ∧ !rssOnlySoftCoordinateReasons analysis.rejectionReasons then
    let _ ← context "reject RSS entry before enqueue"
      (onResources (rejectRSSEntryBeforeEnqueue entry.id analysis.rejectionReasons))
    appendResourceEvent (.rssEntry, entry.id) none "rss.entry.rejected"
      [("reasonCodes", .array (analysis.rejectionReasons.map .string))]
    return none
  else
    let occupancy ← rules.occupancy subscription.id season episode entry.id
    if occupancy.reason ≠ "" then
      yieldTarget rules entry.id occupancy
      completeFulfilled rules subscription.id occupancy
      return none
    else
      let (made, updated) ← enqueueRSSEntry
        ⟨"mark RSS entry enqueueing", "create RSS acquisition", "create RSS download attempt",
          "schedule RSS download enqueue"⟩
        new subscription entry.id entry.identityKey season episode
      appendResourceEvent (.rssEntry, entry.id) none "rss.entry.enqueueing"
        (enqueueingEvent made updated)
      return some made

def scheduleRSSDownload (rules : AcquisitionRules) (new : NewAcquisition)
    (candidate : RSSEnqueueCandidate) (recovery : Bool) :
    DatabaseTx (Option EnqueuedDownload) := do
  if candidate.entryID = 0 then
    throw (.text "RSS entry ID is required")
  else match ← onResources (lockRSSSubscriptionForEntryReservation candidate.entryID) with
    | none => return none
    | some subscription =>
      if candidate.expectedSubscriptionVersion > 0 ∧
          subscription.version ≠ candidate.expectedSubscriptionVersion then
        throw (.text "configuration version conflict")
      else if subscription.enabled = recovery ∨ subscription.deletedAt.isSome ∨
          subscription.completedAt.isSome then
        return none
      else match ← onResources (lockRSSEntry candidate.entryID) with
        | none => return none
        | some entry =>
          if entry.subscriptionID ≠ subscription.id then
            throw (.service "state_conflict" "the RSS entry subscription changed before enqueue")
          else if candidate.expectedVersion > 0 ∧
              rssEntryVersion entry.enqueueAttempts ≠ candidate.expectedVersion then
            throw (.service "state_conflict" "the RSS entry was modified before enqueue"
              [("expectedVersion", .number candidate.expectedVersion)])
          else if !entry.downloadable ∨
              (entry.status ≠ .discovered ∧ entry.status ≠ .enqueueFailed) then
            return none
          else
            scheduleRSSEntry rules new subscription entry

/-! ## The paths of an agent -/

/-- The resolution is as it was when the proposal was read. -/
def lockProposal (changed : String) (resolution : ProposedResolution) :
    DatabaseTx Unit := do
  match lookup AgentResolution.id resolution.id (← get).resources.agentResolutions.rows with
  | none => throw .notFound
  | some locked =>
    if locked.version ≠ resolution.version ∨
        (locked.status ≠ .proposed ∧ locked.status ≠ .reviewRequired) then
      throw (.service "state_conflict" changed)
    else return ()

def completeAgentResolution (id : UUID) : ResourcesTx (Option AgentResolution) :=
  agentResolutionsSlot.updateOne
    (atKey AgentResolution.id id fun r =>
      r.status = .running || r.status = .proposed || r.status = .reviewRequired)
    fun r => { r with status := .applied, version := r.version + 1 }

def applyAgentRSSCoordinate (id : UUID) (season episode : Int) :
    ResourcesTx (Option RSSEntry) :=
  rssEntriesSlot.updateOne (fun e => e.id = id) fun e => { e with
    sourceSeason := some season, sourceEpisode := some episode, downloadable := true
    rejectionReasons := [], lastErrorCode := none, lastErrorMessage := none
    lastErrorRetryable := false }

/-- The event of an applied coordinate. -/
def coordinateEvent (proposal : AgentRSSCoordinateProposal) (resolutionID : UUID) :
    List (String × JSON) := [
  ("sourceSeason", .number proposal.sourceSeason),
  ("sourceEpisode", .number proposal.sourceEpisode),
  ("source", .string "agent_auto"), ("agentResolutionId", .string resolutionID.text)]

/-- Without a mapping profile the coordinate waits for the mapping, which a poll continues. -/
def continueMapping (poll : NewOperation) (subscription : RSSSubscription)
    (resolution : ProposedResolution) (proposal : AgentRSSCoordinateProposal) :
    DatabaseTx Unit := do
  let (operation, _) ← context "schedule RSS mapping continuation" (scheduleInTx poll {
    kind := .rssPoll, resource := some (.rssSubscription, subscription.id)
    idempotencyKey := "rss.poll:mapping-coordinate:" ++ resolution.id.text
    maxAttempts := 5, timeout := 30 * Duration.second
    payload := [("continuous", .bool false),
      ("subscriptionVersion", .number subscription.version)] })
  let _ ← context "complete pre-mapping Agent RSS coordinate resolution"
    (requireRow (onResources (completeAgentResolution resolution.id)))
  appendResourceEvent (.rssEntry, resolution.resourceID) (some operation.id)
    "rss.coordinate_resolved"
    (coordinateEvent proposal resolution.id ++ [("mappingPending", .bool true)])

/-- Enqueues an entry with a resolved coordinate, unless its target is taken or its
subscription is over. -/
def enqueueResolvedEntry (new : NewAcquisition) (subscription : RSSSubscription)
    (resolution : ProposedResolution) (entry : RSSEntry) (proposal : AgentRSSCoordinateProposal)
    (occupancy : RSSTargetOccupancy) : DatabaseTx (Option EnqueuedDownload) := do
  if occupancy.reason = "" ∧ subscription.enabled = true ∧ subscription.completedAt.isNone ∧
      subscription.deletedAt.isNone then
    let (made, updated) ← enqueueRSSEntry
      ⟨"mark Agent-resolved RSS entry enqueueing", "create Agent RSS acquisition",
        "create Agent RSS download", "schedule Agent RSS download"⟩
      new subscription entry.id entry.identityKey proposal.sourceSeason proposal.sourceEpisode
    appendResourceEvent (.rssEntry, entry.id) (some made.operation.id) "rss.entry.enqueueing"
      (enqueueingEvent made updated ++ [("agentResolutionId", .string resolution.id.text)])
    return some made
  else return none

/-- The target of the coordinate is checked, and the entry enqueued. -/
def enqueueCoordinate (rules : AcquisitionRules) (new : NewAcquisition)
    (subscription : RSSSubscription) (resolution : ProposedResolution) (entry : RSSEntry)
    (proposal : AgentRSSCoordinateProposal) : DatabaseTx (Option EnqueuedDownload) := do
  let occupancy ← rules.occupancy subscription.id proposal.sourceSeason proposal.sourceEpisode
    entry.id
  yieldTarget rules entry.id occupancy
  let made ← enqueueResolvedEntry new subscription resolution entry proposal occupancy
  completeFulfilled rules subscription.id occupancy
  let _ ← context "complete Agent RSS resolution"
    (requireRow (onResources (completeAgentResolution resolution.id)))
  appendResourceEvent (.rssEntry, entry.id) (made.map (·.operation.id)) "rss.coordinate_resolved"
    (coordinateEvent proposal resolution.id ++
      [("targetOccupancyReason", .string occupancy.reason)])
  return made

/-- The reason that still keeps an entry from its recovery. -/
def hardRejection? (analysis : RSSReleaseAnalysis) : Option String :=
  analysis.rejectionReasons.find? fun reason =>
    reason ≠ "episode_not_detected" && reason ≠ "episode_ambiguous"

/-- The entry waits for a coordinate. -/
def checkCoordinateRecovery (analysis : RSSReleaseAnalysis) (entry : RSSEntry) :
    Except Fault Unit :=
  match hardRejection? analysis with
  | some reason => .error (.service "agent_resolution_stale"
      "RSS hard rejection still prevents coordinate recovery" [("reasonCode", .text reason)])
  | none =>
    if analysis.rejectionReasons = [] ∨
        (entry.status ≠ .discovered ∧ entry.status ≠ .enqueueFailed) then
      .error (.service "agent_resolution_stale"
        "the RSS entry is no longer waiting for coordinate recovery"
        [("status", .text entry.status.text)])
    else .ok ()

def applyRSSCoordinate (rules : AcquisitionRules) (new : NewAcquisition) (poll : NewOperation)
    (resolution : ProposedResolution) (proposal : AgentRSSCoordinateProposal) :
    DatabaseTx (Option EnqueuedDownload) := do
  lockProposal "the Agent resolution changed before RSS coordinate was applied" resolution
  let subscription ← orNotFound
    (onResources (lockRSSSubscriptionForEntryReservation resolution.resourceID))
  let entry ← orNotFound (onResources (lockRSSEntry resolution.resourceID))
  if entry.subscriptionID ≠ subscription.id then
    throw (.service "state_conflict" "the RSS entry subscription changed before Agent apply")
  else match checkCoordinateRecovery (rules.analyze entry subscription) entry with
    | .error fault => throw fault
    | .ok _ =>
      let _ ← context "apply Agent RSS coordinate" (requireRow (onResources
        (applyAgentRSSCoordinate entry.id (int32 proposal.sourceSeason)
          (int32 proposal.sourceEpisode))))
      if subscription.mappingProfileID.isNone then
        continueMapping poll subscription resolution proposal
        return none
      else
        enqueueCoordinate rules new subscription resolution entry proposal

/-! ## Adjudication of releases -/

/-- What became of an entry of a batch. -/
inductive Adjudicated where
  | selected (made : EnqueuedDownload)
  | ignored
  /-- selected by the agent, but the target is taken -/
  | occupied

/-- The item of a proposal for an entry; a later item replaces an earlier one. -/
def AgentRSSReleaseAdjudicationProposal.item? (proposal : AgentRSSReleaseAdjudicationProposal)
    (entryID : UUID) : Option AgentRSSReleaseDisposition :=
  proposal.entries.reverse.find? fun item => item.entryID = entryID

def staleBatch (message : String) (details : List (String × Detail) := []) : Fault :=
  .service "agent_resolution_stale" message details

def unresolvedProposal : Fault :=
  .service "agent_proposal_invalid" "the RSS adjudication still contains unresolved entries"

/-- The adjudication of an entry that is still to be decided. -/
def pendingAdjudication? (r : Resources) (entryID : UUID) : Option RSSEntryAdjudication :=
  r.rssEntryAdjudications.rows.find? fun a => a.entryID = entryID && a.state = .pending

/-- The first loop: every entry is pending and has an item, and a selected one a coordinate. -/
def checkAdjudication (r : Resources) (proposal : AgentRSSReleaseAdjudicationProposal) :
    List RSSEntry → Except Fault Unit
  | [] => .ok ()
  | entry :: rest =>
    match proposal.item? entry.id, pendingAdjudication? r entry.id with
    | some item, some _ =>
      if entry.status ≠ .discovered ∧ entry.status ≠ .enqueueFailed then .error (changed entry)
      else match item.disposition, item.sourceSeason, item.sourceEpisode with
        | .select, some _, some _ | .ignore, _, _ => checkAdjudication r proposal rest
        | .select, _, _ => .error (.service "agent_proposal_invalid"
            "a selected RSS adjudication entry has no source coordinate")
        | .unresolved, _, _ => .error unresolvedProposal
    | _, _ => .error (changed entry)
where
  changed (entry : RSSEntry) : Fault :=
    staleBatch "an RSS adjudication entry changed before apply" [("entryId", .text entry.id.text)]

/-- `ApplyAgentRSSAdjudicationEntry`: the decision, and the entry if it can still be enqueued. -/
def applyAgentRSSAdjudicationEntry (id batchID : UUID) (decision : RSSEntryAdjudication)
    (season episode : Option Int) (reasons : List String) :
    ResourcesTx (Option RSSEntry) := do
  let selected : Bool := decision.state = .selected
  match ← rssEntryAdjudicationsSlot.updateOne
      (fun a => a.entryID = id && a.batchID = batchID && a.state = .pending)
      fun a => { a with
        state := decision.state, source := decision.source
        resolutionID := decision.resolutionID, relatedEntryID := decision.relatedEntryID } with
  | none => return none
  | some _ =>
    rssEntriesSlot.updateOne
      (atKey RSSEntry.id id fun e => e.status = .discovered || e.status = .enqueueFailed)
      fun e => { e with
        sourceSeason := if selected then season else e.sourceSeason
        sourceEpisode := if selected then episode else e.sourceEpisode
        downloadable := selected
        rejectionReasons := if selected then [] else reasons
        lastErrorCode := none, lastErrorMessage := none, lastErrorRetryable := false }

section Adjudication

variable (rules : AcquisitionRules) (new : UUID → NewAcquisition)
variable (resolution : ProposedResolution) (batchID : UUID) (subscription : RSSSubscription)

/-- The entry is dropped, for the agent's reason or because its target is taken. -/
def ignoreEntry (entry : RSSEntry) (item : AgentRSSReleaseDisposition)
    (occupancy : RSSTargetOccupancy) : DatabaseTx Adjudicated := do
  let source : DecisionSource := if occupancy.reason = "" then .agentAuto else .deterministic
  let reason := if occupancy.reason = "" then "agent_ignored" else occupancy.reason
  let _ ← context "apply RSS entry adjudication" (requireRow (onResources
    (applyAgentRSSAdjudicationEntry entry.id batchID {
      entryID := entry.id, batchID, state := .ignored, source := some source
      resolutionID := some resolution.id
      relatedEntryID := if occupancy.reason = "" then item.relatedEntryID else none }
      (item.sourceSeason.map int32) (item.sourceEpisode.map int32) [reason])))
  yieldTarget rules entry.id occupancy
  appendResourceEvent (.rssEntry, entry.id) none "rss.entry.ignored" [
    ("agentResolutionId", .string resolution.id.text),
    ("adjudicationBatchId", .string batchID.text), ("source", .string source.text),
    ("reasonCode", .string reason)]
  return if occupancy.reason = "" then .ignored else .occupied

/-- The entry is enqueued at the coordinate that the agent gave it. -/
def selectEntry (entry : RSSEntry) (item : AgentRSSReleaseDisposition) (season episode : Int) :
    DatabaseTx Adjudicated := do
  let updated ← context "apply RSS entry adjudication" (requireRow (onResources
    (applyAgentRSSAdjudicationEntry entry.id batchID {
      entryID := entry.id, batchID, state := .selected, source := some .agentAuto
      resolutionID := some resolution.id, relatedEntryID := item.relatedEntryID }
      (some (int32 season)) (some (int32 episode)) [])))
  let (made, enqueueing) ← enqueueRSSEntry
    ⟨"mark adjudicated RSS entry enqueueing", "create adjudicated RSS acquisition",
      "create adjudicated RSS download", "schedule adjudicated RSS download"⟩
    (new entry.id) subscription entry.id updated.identityKey season episode
  appendResourceEvent (.rssEntry, entry.id) (some made.operation.id) "rss.entry.enqueueing"
    (enqueueingEvent made enqueueing ++ [("agentResolutionId", .string resolution.id.text),
      ("adjudicationBatchId", .string batchID.text)])
  return .selected made

/-- The round of the second loop for an entry. -/
def adjudicateEntry (proposal : AgentRSSReleaseAdjudicationProposal) (entry : RSSEntry) :
    DatabaseTx Adjudicated := do
  match proposal.item? entry.id with
  | none => throw (checkAdjudication.changed entry)
  | some item =>
    match item.disposition, item.sourceSeason, item.sourceEpisode with
    | .select, some season, some episode =>
      let occupancy ← rules.occupancy subscription.id season episode entry.id
      if occupancy.reason = "" then
        selectEntry new resolution batchID subscription entry item season episode
      else
        ignoreEntry rules resolution batchID entry item occupancy
    | .ignore, _, _ => ignoreEntry rules resolution batchID entry item {}
    | _, _, _ => throw unresolvedProposal

def adjudicateEntries (proposal : AgentRSSReleaseAdjudicationProposal) :
    List RSSEntry → DatabaseTx (List Adjudicated)
  | [] => return []
  | entry :: rest => do
    let outcome ← adjudicateEntry rules new resolution batchID subscription proposal entry
    return outcome :: (← adjudicateEntries proposal rest)

def completeRSSAdjudicationBatch : ResourcesTx (Option RSSAdjudicationBatch) :=
  rssAdjudicationBatchesSlot.updateOne
    (atKey RSSAdjudicationBatch.id batchID fun b => b.status = .pending)
    fun b => { b with status := .applied }

end Adjudication

/-- The downloads that a batch enqueued. -/
def Adjudicated.made? : Adjudicated → Option EnqueuedDownload
  | selected made => some made
  | _ => none

/-- The second loop and what follows it. -/
def decideBatch (rules : AcquisitionRules) (new : UUID → NewAcquisition)
    (resolution : ProposedResolution) (proposal : AgentRSSReleaseAdjudicationProposal)
    (subscription : RSSSubscription) (entries : List RSSEntry) :
    DatabaseTx (List EnqueuedDownload) := do
  let outcomes ← adjudicateEntries rules new resolution proposal.batchID subscription proposal
    entries
  let made := outcomes.filterMap Adjudicated.made?
  let occupied := outcomes.countP fun outcome => outcome matches .occupied
  let _ ← context "complete RSS adjudication batch"
    (requireRow (onResources (completeRSSAdjudicationBatch proposal.batchID)))
  rules.completeSubscription subscription.id
  let _ ← context "complete Agent RSS adjudication"
    (requireRow (onResources (completeAgentResolution resolution.id)))
  appendResourceEvent (.rssAdjudicationBatch, proposal.batchID) none "rss.adjudication_applied" [
    ("agentResolutionId", .string resolution.id.text), ("selectedCount", .number made.length),
    ("ignoredCount", .number (outcomes.length - made.length)),
    ("deterministicIgnoredCount", .number occupied), ("source", .string "agent_auto")]
  return made

def checkBatch (proposal : AgentRSSReleaseAdjudicationProposal) (subscription : RSSSubscription)
    (batch : RSSAdjudicationBatch) (entries : List RSSEntry) : Except Fault Unit :=
  if batch.subscriptionID ≠ subscription.id then
    .error (.service "state_conflict" "the RSS adjudication subscription changed before apply")
  else if batch.status ≠ .pending then
    .error (staleBatch "the RSS adjudication batch is no longer pending")
  else if !subscription.enabled ∨ subscription.completedAt.isSome ∨
      subscription.deletedAt.isSome then
    .error (staleBatch "the RSS subscription is no longer active")
  else if entries.length ≠ proposal.entries.length ∨ entries.length ≠ batch.entryCount then
    .error (staleBatch "the RSS adjudication scope changed")
  else .ok ()

/-- A batch with its subscription. -/
def lockRSSAdjudicationBatch (batchID : UUID) :
    ResourcesTx (Option (RSSAdjudicationBatch × RSSSubscription)) := do
  let r ← get
  return (lookup RSSAdjudicationBatch.id batchID r.rssAdjudicationBatches.rows).bind fun batch =>
    (lookup RSSSubscription.id batch.subscriptionID r.rssSubscriptions.rows).map fun subscription =>
      (batch, subscription)

def applyRSSReleaseAdjudication (rules : AcquisitionRules) (new : UUID → NewAcquisition)
    (resolution : ProposedResolution) (proposal : AgentRSSReleaseAdjudicationProposal) :
    DatabaseTx (List EnqueuedDownload) := do
  lockProposal "the Agent resolution changed before RSS adjudication was applied" resolution
  let (batch, subscription) ← orNotFound (onResources (lockRSSAdjudicationBatch proposal.batchID))
  let r := (← get).resources
  let entries := r.rssEntries.rows.filter fun e =>
    r.rssEntryAdjudications.rows.any fun a => a.entryID = e.id && a.batchID = proposal.batchID
  match checkBatch proposal subscription batch entries with
  | .error fault => throw fault
  | .ok _ =>
    match checkAdjudication r proposal entries with
    | .error fault => throw fault
    | .ok _ => decideBatch rules new resolution proposal subscription entries

/-! ## Any path -/

/-- A call that creates acquisitions, with the identifiers that it draws. -/
inductive AcquisitionCall where
  | search (mediaID : UUID) (enqueue sync : NewOperation) (input : CreateSearchAcquisition)
  | rssSchedule (new : NewAcquisition) (candidate : RSSEnqueueCandidate) (recovery : Bool)
  | agentCoordinate (new : NewAcquisition) (poll : NewOperation) (resolution : ProposedResolution)
    (proposal : AgentRSSCoordinateProposal)
  | agentAdjudication (new : UUID → NewAcquisition) (resolution : ProposedResolution)
    (proposal : AgentRSSReleaseAdjudicationProposal)

/-- The downloads that a call enqueues. -/
def AcquisitionCall.run (rules : AcquisitionRules) (hashes : Hashes) :
    AcquisitionCall → DatabaseTx (List EnqueuedDownload)
  | search mediaID enqueue sync input => do
    return [← createSearchAcquisition rules hashes mediaID enqueue sync input]
  | rssSchedule new candidate recovery => do
    return (← scheduleRSSDownload rules new candidate recovery).toList
  | agentCoordinate new poll resolution proposal => do
    return (← applyRSSCoordinate rules new poll resolution proposal).toList
  | agentAdjudication new resolution proposal =>
    applyRSSReleaseAdjudication rules new resolution proposal

end EmbyAuto
