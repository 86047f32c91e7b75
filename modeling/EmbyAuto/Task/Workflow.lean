import EmbyAuto.Domain.State
import EmbyAuto.Download.Materialize
import EmbyAuto.Task.Statements

/-!
# The workflow of an episode task

The transactions of `MediaWorkflow` and `TaskWorkflow` on a task: a worker begins a media
branch and reports its artifact, the finaliser pairs the artifacts, a review approves or
rejects the task, and an approved task is imported.

What a transaction reads after its last update can only make it fail, and a failed transaction
changes nothing. Such reads are left out: the command that `beginTaskMedia` loads, the paths
that `beginImport` returns, and the feed bookkeeping at the end of `CompleteImport`.

## Main definitions

* `beginTaskMedia`, `completeArtifact`, `completeFinalize`: the media branches and their join
* `reviewTask`, `queueImport`, `beginImport`, `completeImport`: review and import
-/

namespace EmbyAuto

open Relational Database Resources

/-- Locks a task, or answers that it does not exist. -/
def lockTask (text : String) (taskID : UUID) : DatabaseTx EpisodeTask :=
  orNotFound (context text (onResources (lockEpisodeTask taskID)))

/-- An update of a task that must match. -/
def requireTask (text : String) (update : ResourcesTx (Option EpisodeTask)) :
    DatabaseTx EpisodeTask :=
  context text (requireRow (onResources update))

/-! ## The media branches -/

/-- Starts a branch, or explains why its state does not allow it. -/
def startBranch (taskID : UUID) (text code branch branchState taskState : String) (stuck : Bool)
    (statement : EpisodeTask.Statement) : DatabaseTx Unit := do
  if stuck then
    throw (.media code (branch ++ " branch cannot start from state " ++ quote branchState) false)
  else match ← context text (onResources (updateTask taskID statement)) with
    | none => throw (.media code
        (branch ++ " branch cannot start from task state " ++ quote taskState) false)
    | some _ => return ()

/-- The states in which `beginTaskMedia` looks at a branch at all. -/
def EpisodeTask.mediaReachable (t : EpisodeTask) : Bool :=
  t.mediaStartable || t.state = .finalizing || t.state = .awaitingReview

def beginTaskMedia (taskID : UUID) (kind : MediaKind) : DatabaseTx Unit := do
  let task ← lockTask "lock episode task" taskID
  if !task.mediaReachable then
    throw (.media "task_media_state_conflict"
      ("task media cannot start from state " ++ quote task.state.text) false)
  else match kind with
    | .video =>
      if task.videoState = .videoReady then return ()
      else
        startBranch taskID "start task video branch" "video_state_conflict" "video"
          task.videoState.text task.state.text
          (task.videoState = .failed || task.videoState = .cancelled) EpisodeTask.startVideo
    | .subtitle =>
      if task.subtitleState = .assReady then return ()
      else
        startBranch taskID "start task subtitle branch" "subtitle_state_conflict" "subtitle"
          task.subtitleState.text task.state.text
          (task.subtitleState = .failed || task.subtitleState = .cancelled)
          EpisodeTask.startSubtitle
    | _ => throw (.text ("unsupported task media kind " ++ quote kind.text))

/-- A video or subtitle that a worker finished. -/
structure MediaArtifactCompletion where
  taskID : UUID
  operationID : UUID
  sourceFileID : UUID
  transcodeProfileID : UUID := 0
  kind : MediaKind
  baseName : String
  filePath : String
  format : String
  sizeBytes : Int
  checksumSHA256 : List UInt8

def validateArtifactCompletion (completion : MediaArtifactCompletion) : Except Fault Unit :=
  let fileName := fileBase completion.filePath
  if completion.taskID = 0 ∨ completion.operationID = 0 then
    .error (.text "artifact completion requires task and operation IDs")
  else if completion.sourceFileID = 0 then
    .error (.text "artifact completion requires a source file ID")
  else if completion.kind ≠ .video ∧ completion.kind ≠ .subtitle then
    .error (.text "artifact completion kind must be video or subtitle")
  else if completion.kind = .video ∧ completion.transcodeProfileID = 0 then
    .error (.text "video artifact requires a transcode profile")
  else if trimSpace completion.baseName = "" ∨ trimSpace completion.filePath = "" ∨
      trimSpace completion.format = "" then
    .error (.text "artifact completion requires basename, path, and format")
  else if fileStem fileName ≠ completion.baseName then
    .error (.text "artifact filename must use its canonical basename")
  else if completion.kind = .subtitle ∧
      (completion.format.toLower ≠ "ass" ∨ (fileExt fileName).toLower ≠ ".ass") then
    .error (.text "subtitle artifact must be an ASS file")
  else if completion.sizeBytes ≤ 0 ∨ completion.checksumSHA256.length ≠ 32 then
    .error (.text "artifact completion requires positive size and SHA-256 checksum")
  else .ok ()

def getTaskArtifact (taskID : UUID) (kind : MediaKind) : ResourcesTx (Option MediaArtifact) :=
  mediaArtifactsSlot.selectOne fun a => a.taskID = taskID && a.kind = kind

/-- `INSERT ... ON CONFLICT (task_id, kind) DO UPDATE`. -/
def upsertMediaArtifact (artifact : MediaArtifact) : ResourcesTx MediaArtifact := do
  match ← mediaArtifactsSlot.updateOne
      (fun a => a.taskID = artifact.taskID && a.kind = artifact.kind)
      (fun a => { artifact with id := a.id }) with
  | some updated => return updated
  | none =>
    mediaArtifactsSlot.insert artifact
    return artifact

/-- The branch of the artifact is already done. -/
def EpisodeTask.branchReady (t : EpisodeTask) (kind : MediaKind) : Bool :=
  (kind = .video && t.videoState = .videoReady) || (kind = .subtitle && t.subtitleState = .assReady)

/-- The statement that marks the branch of an artifact ready. -/
def markBranchReady (taskID : UUID) (kind : MediaKind) : DatabaseTx Unit := do
  match kind with
  | .video =>
    let _ ← requireTask "mark task video ready" (updateTask taskID EpisodeTask.markVideoReady)
  | .subtitle =>
    let _ ← requireTask "mark task subtitle ready" (updateTask taskID EpisodeTask.markSubtitleReady)
  | _ => return ()

/-- The task is finalised by whichever branch finishes last. -/
def finalizeIfReady (new : NewOperation) (taskID operationID : UUID) : DatabaseTx Unit := do
  match ← context "mark task finalizing"
      (onResources (updateTask taskID EpisodeTask.markFinalizingIfReady)) with
  | none => return ()
  | some finalizing =>
    let _ ← context "schedule media finalization" (scheduleInTx new {
      kind := .mediaFinalize, resource := some (.episodeTask, taskID)
      idempotencyKey := "media.finalize:" ++ taskID.text
      maxAttempts := 3, timeout := 5 * Duration.minute })
    appendResourceEvent (.episodeTask, taskID) (some operationID) "task.finalizing"
      [("version", .number finalizing.version)]

/-- Stores a new artifact and moves its branch. -/
def storeArtifact (hashes : Hashes) (new : NewOperation) (completion : MediaArtifactCompletion) :
    DatabaseTx Unit := do
  let artifact ← context "persist media artifact" (onResources (upsertMediaArtifact {
    id := hashes.resourceID ("artifact:" ++ completion.taskID.text ++ ":" ++ completion.kind.text)
    taskID := completion.taskID, kind := completion.kind, basename := completion.baseName
    filePath := completion.filePath, format := completion.format
    checksumSHA256 := completion.checksumSHA256 }))
  markBranchReady completion.taskID completion.kind
  appendResourceEvent (.episodeTask, completion.taskID) (some completion.operationID)
    ("task." ++ completion.kind.text ++ "_ready") [("artifactId", .string artifact.id.text),
      ("checksum", .string (hex completion.checksumSHA256))]
  finalizeIfReady new completion.taskID completion.operationID

def completeArtifact (hashes : Hashes) (new : NewOperation)
    (completion : MediaArtifactCompletion) : DatabaseTx Unit := do
  match validateArtifactCompletion completion with
  | .error fault => throw fault
  | .ok _ =>
    let task ← lockTask "lock artifact task" completion.taskID
    if task.branchReady completion.kind then
      -- a repeated report of the same artifact is accepted
      let existing ← onResources (getTaskArtifact completion.taskID completion.kind)
      if existing.any fun a => a.checksumSHA256 = completion.checksumSHA256 &&
          a.filePath = completion.filePath then
        return ()
      else
        throw (.media "artifact_conflict"
          "the ready task branch already references a different artifact" false)
    else
      storeArtifact hashes new completion

/-! ## Reviews and imports -/

/-- The artifacts of a task, one of each kind. -/
def findArtifacts (r : Resources) (taskID : UUID) : Option (MediaArtifact × MediaArtifact) :=
  (r.mediaArtifacts.rows.find? fun a => a.taskID = taskID && a.kind = .video).bind fun video =>
    (r.mediaArtifacts.rows.find? fun a => a.taskID = taskID && a.kind = .subtitle).map
      fun subtitle =>
      (video, subtitle)

/-- `GetArtifactSetForTask`: the paired artifacts of a task, with an ASS subtitle. -/
def getArtifactSetForTask (taskID : UUID) : ResourcesTx (Option ArtifactSet) := do
  let r ← get
  return (r.artifactSets.rows.find? fun s => s.taskID = taskID).filter fun s =>
    (r.mediaArtifacts.rows.any fun a => a.id = s.videoArtifactID && a.kind = .video) &&
      (r.mediaArtifacts.rows.any fun a => a.id = s.subtitleArtifactID && a.kind = .subtitle &&
        a.format.toLower = "ass")

/-- `INSERT ... ON CONFLICT (task_id) DO UPDATE`. -/
def createArtifactSet (set : ArtifactSet) : ResourcesTx Unit := do
  match ← artifactSetsSlot.updateOne (fun s => s.taskID = set.taskID) (fun _ => set) with
  | some _ => return ()
  | none => artifactSetsSlot.insert set

def createTaskReview (review : Review) : ResourcesTx Unit := reviewsSlot.insert review

/-- A new import, numbered after the last one of the task. -/
def createTaskImport (id taskID : UUID) : ResourcesTx Unit := do
  let attempts := ((← get).imports.rows.filter fun i => i.taskID = taskID).map Import.attempt
  importsSlot.insert { id, taskID, attempt := attempts.foldl max 0 + 1 }

/-- The identifiers drawn for a review that is approved. -/
structure NewImport where
  reviewID : UUID
  importID : UUID
  operation : NewOperation

/-- The import that follows an approval in the same transaction. -/
def queueApprovedImport (new : NewImport) (taskID : UUID) (reviewed : EpisodeTask)
    (createText queueText scheduleText : String) (rejected : Option Fault)
    (key : String) (event : List (String × JSON)) : DatabaseTx Unit := do
  context createText (onResources (createTaskImport new.importID taskID))
  match ← context queueText (onResources (markTaskImportQueued taskID reviewed.version)) with
  | none => throw (rejected.getD (.wrap queueText .noRows))
  | some queued =>
    let (operation, _) ← context scheduleText (scheduleInTx new.operation {
      kind := .embyImport, resource := some (.episodeTask, taskID), idempotencyKey := key
      maxAttempts := 3, timeout := 30 * Duration.minute
      payload := [("importId", .string new.importID.text),
        ("expectedVersion", .number reviewed.version)] })
    appendResourceEvent (.episodeTask, taskID) (some operation.id) "task.import_queued"
      (event ++ [("importId", .string new.importID.text), ("reviewId", .string new.reviewID.text),
        ("version", .number queued.version)])

/-- The subscription whose feed the task's acquisition came from, unless it is deleted. -/
def taskSubscription (r : Resources) (taskID : UUID) : Option RSSSubscription :=
  (lookup EpisodeTask.id taskID r.episodeTasks.rows).bind fun task =>
    (lookup Acquisition.id task.acquisitionID r.acquisitions.rows).bind fun acquisition =>
      acquisition.rssEntryID.bind fun entryID =>
        (lookup RSSEntry.id entryID r.rssEntries.rows).bind fun entry =>
          (lookup RSSSubscription.id entry.subscriptionID r.rssSubscriptions.rows).filter
            (·.deletedAt.isNone)

/-- The automatic approval that a subscription asks for. -/
def approveRSSReviewInTx (hashes : Hashes) (new : NewOperation) (taskID operationID : UUID)
    (subscription : RSSSubscription) (expectedVersion : Int) : DatabaseTx Unit := do
  let reviewID := hashes.resourceID ("rss-auto-review:" ++ taskID.text)
  let importID := hashes.resourceID ("rss-auto-import:" ++ taskID.text)
  context "create RSS automatic task review" (onResources (createTaskReview {
    id := reviewID, taskID, decision := .approved
    notes := "Automatically approved by RSS subscription policy."
    idempotencyKey := "task.review:rss-auto:" ++ subscription.id.text ++ ":" ++ taskID.text
    expectedTaskVersion := expectedVersion }))
  let reviewed ← requireTask "mark RSS task automatically reviewed"
    (markTaskReviewed taskID .approved expectedVersion)
  appendResourceEvent (.episodeTask, taskID) (if operationID = 0 then none else some operationID)
    "task.reviewed" [("automatic", .bool true), ("decision", .string "approved"),
      ("reviewId", .string reviewID.text), ("rssSubscriptionId", .string subscription.id.text),
      ("version", .number reviewed.version)]
  queueApprovedImport ⟨reviewID, importID, new⟩ taskID reviewed
    "create RSS automatic task import" "queue RSS automatically reviewed task"
    "schedule RSS automatic task import" none ("emby.import:rss-auto:" ++ taskID.text)
    [("automatic", .bool true), ("rssSubscriptionId", .string subscription.id.text)]

/-- The tasks that wait for the review their subscription's policy gives, of one subscription or
of all. -/
def listRSSAutoReviewPendingTasks (r : Resources) (subscriptionID : Option UUID) :
    List (EpisodeTask × RSSSubscription) :=
  r.episodeTasks.rows.filterMap fun t =>
    if t.state = .awaitingReview && t.videoState = .videoReady && t.subtitleState = .assReady &&
        (r.artifactSets.rows.any fun set => set.taskID = t.id) &&
        r.reviews.rows.all fun review => review.taskID ≠ t.id then
      ((taskSubscription r t.id).filter fun s =>
        s.autoReview && subscriptionID.all (s.id = ·)).map (t, ·)
    else none

def approvePendingAutoReviewsInTx (hashes : Hashes) (new : UUID → NewOperation)
    (subscriptionID : Option UUID) : DatabaseTx Nat := do
  let tasks := listRSSAutoReviewPendingTasks (← get).resources subscriptionID
  tasks.forM fun (task, subscription) =>
    approveRSSReviewInTx hashes (new task.id) task.id 0 subscription task.version
  return tasks.length

/-- What the worker approves when it starts. -/
def reconcileAutoReviews (hashes : Hashes) (new : UUID → NewOperation) : DatabaseTx Nat :=
  context "reconcile RSS automatic reviews" (approvePendingAutoReviewsInTx hashes new none)

/-- Pairs the artifacts and lets the task wait for review. -/
def pairArtifacts (taskID : UUID) : DatabaseTx EpisodeTask := do
  let (video, subtitle) ← context "load task artifacts for finalization" (requireRow (onResources
    (return findArtifacts (← get) taskID)))
  if video.basename ≠ subtitle.basename then
    throw (.media "artifact_basename_mismatch"
      "video and subtitle artifacts do not share a basename" false)
  else
    context "create artifact set" (onResources (createArtifactSet {
      taskID, basename := video.basename
      videoArtifactID := video.id, subtitleArtifactID := subtitle.id }))
    requireTask "mark task awaiting review" (updateTask taskID EpisodeTask.markAwaitingReview)

def completeFinalize (hashes : Hashes) (new : NewOperation) (taskID operationID : UUID) :
    DatabaseTx Unit := do
  let task ← lockTask "lock task finalization" taskID
  if task.state = .awaitingReview ∨ task.state = .importQueued ∨ task.state = .importing ∨
      task.state = .imported then
    return ()
  else if task.state ≠ .finalizing ∨ !task.bothReady then
    throw (.media "task_finalize_state_conflict"
      ("task cannot finalize from state " ++ quote task.state.text) false)
  else
    let awaitingReview ← pairArtifacts taskID
    appendResourceEvent (.episodeTask, taskID) (some operationID) "task.awaiting_review"
      [("status", .string "awaiting_review"), ("version", .number awaitingReview.version)]
    match taskSubscription (← get).resources taskID with
    | none => return ()
    | some subscription =>
      if subscription.autoReview then
        approveRSSReviewInTx hashes new taskID operationID subscription awaitingReview.version
      else return ()

/-- `domain.ReviewTask`. -/
structure ReviewTask where
  taskID : UUID
  expectedVersion : Int
  decision : TaskState
  notes : String := ""
  idempotencyKey : String
  actorUserID : UUID

def invalidTaskCommand (field reason : String) : Fault :=
  .service "invalid_task_command" "the task command is invalid"
    [("field", .text field), ("reason", .text reason)]

def taskStateConflict (message : String) (task : EpisodeTask) : Fault :=
  .service "state_conflict" message [("taskId", .text task.id.text),
    ("state", .text task.state.text), ("version", .number task.version)]

/-- The paired artifacts that a review or an import needs. -/
def pairedArtifactSet (text : String) (task : EpisodeTask) : DatabaseTx ArtifactSet := do
  match ← context text (onResources (getArtifactSetForTask task.id)) with
  | none => throw (taskStateConflict "the task does not have a valid paired artifact set" task)
  | some set => return set

def validateReviewTask (input : ReviewTask) : Except Fault ReviewDecision :=
  if input.taskID = 0 then .error (invalidTaskCommand "taskId" "is required")
  else if input.expectedVersion ≤ 0 then
    .error (invalidTaskCommand "expectedVersion" "must be positive")
  else match input.decision with
    | .approved => validateRest .approved
    | .rejected => validateRest .rejected
    | _ => .error (invalidTaskCommand "decision" "must be approved or rejected")
where
  validateRest (decision : ReviewDecision) : Except Fault ReviewDecision :=
    if input.notes.utf8ByteSize > 4096 then
      .error (invalidTaskCommand "notes" "must not exceed 4096 bytes")
    else if trimSpace input.idempotencyKey = "" then
      .error (invalidTaskCommand "idempotencyKey" "must not be blank")
    else if input.actorUserID = 0 then .error (invalidTaskCommand "actorUserId" "is required")
    else .ok decision

/-- Stores a decision and, for an approval, queues the import. -/
def decideReview (new : NewImport) (input : ReviewTask) (decision : ReviewDecision)
    (locked : EpisodeTask) (idempotencyKey : String) : DatabaseTx Unit := do
  context "create task review" (onResources (createTaskReview {
    id := new.reviewID, taskID := input.taskID, decision, notes := trimSpace input.notes
    idempotencyKey, expectedTaskVersion := input.expectedVersion }))
  match ← context "mark task reviewed"
      (onResources (markTaskReviewed input.taskID decision input.expectedVersion)) with
  | none => throw (taskStateConflict "the task is not reviewable" locked)
  | some updated =>
    appendResourceEvent (.episodeTask, input.taskID) none "task.reviewed"
      [("decision", .string decision.state.text), ("version", .number updated.version)]
    match decision with
    | .rejected => return ()
    | .approved =>
      queueApprovedImport new input.taskID updated "create approved task import"
        "mark approved task import queued" "schedule approved task import"
        (some (taskStateConflict "the approved task could not be queued for import" updated))
        ("emby.import:auto:" ++ new.reviewID.text) [("automatic", .bool true)]

def reviewTask (new : NewImport) (input : ReviewTask) : DatabaseTx Unit := do
  match validateReviewTask input with
  | .error fault => throw fault
  | .ok decision =>
    let idempotencyKey :=
      "task.review:" ++ input.taskID.text ++ ":" ++ trimSpace input.idempotencyKey
    let locked ← lockTask "lock task for review" input.taskID
    match (← get).resources.reviews.rows.find? fun v => v.taskID = input.taskID with
    | some existing =>
      -- the same command again
      if existing.idempotencyKey = idempotencyKey ∧
          existing.expectedTaskVersion = input.expectedVersion ∧ existing.decision = decision ∧
          existing.notes = trimSpace input.notes then
        return ()
      else
        throw (taskStateConflict "the task was already reviewed" locked)
    | none =>
      if locked.version ≠ input.expectedVersion then
        throw (taskStateConflict "the task was modified by another request" locked)
      else if !validateTaskTransition locked.state decision.state then
        throw (taskStateConflict "the task is not awaiting review" locked)
      else
        let _ ← pairedArtifactSet "load review artifact set" locked
        decideReview new input decision locked idempotencyKey

/-- `domain.QueueTaskImport`. -/
structure QueueTaskImport where
  taskID : UUID
  expectedVersion : Int
  idempotencyKey : String
  actorUserID : UUID

def validateQueueTaskImport (input : QueueTaskImport) : Except Fault Unit :=
  if input.taskID = 0 then .error (invalidTaskCommand "taskId" "is required")
  else if input.expectedVersion ≤ 0 then
    .error (invalidTaskCommand "expectedVersion" "must be positive")
  else if trimSpace input.idempotencyKey = "" then
    .error (invalidTaskCommand "idempotencyKey" "must not be blank")
  else if input.actorUserID = 0 then .error (invalidTaskCommand "actorUserId" "is required")
  else .ok ()

/-- The replay of an import command with the same key. -/
def replayQueueImport (input : QueueTaskImport) (locked : EpisodeTask) (existing : Operation) :
    Except Fault Operation :=
  if existing.kind ≠ .embyImport ∨ existing.resource.map Prod.snd ≠ some input.taskID then
    .error (taskStateConflict "the idempotency key belongs to another command" locked)
  else match existing.payload.field? "importId", existing.payload.field? "expectedVersion" with
    | some (.string importID), some (.number version) =>
      if version = input.expectedVersion ∧ importID ≠ UUID.text 0 then .ok existing else conflict
    | _, _ => conflict
where
  conflict : Except Fault Operation :=
    .error (.service "idempotency_conflict"
      "the idempotency key was already used for different import parameters"
      [("idempotencyKey", .text input.idempotencyKey)])

/-- Creates the import of an approved task and schedules it. -/
def createQueuedImport (importID : UUID) (new : NewOperation) (input : QueueTaskImport)
    (locked : EpisodeTask) (idempotencyKey : String) : DatabaseTx Operation := do
  context "create task import" (onResources (createTaskImport importID input.taskID))
  match ← context "mark task import queued"
      (onResources (markTaskImportQueued input.taskID input.expectedVersion)) with
  | none => throw (taskStateConflict "the task import guard rejected the command" locked)
  | some updated =>
    let (operation, _) ← context "schedule task import" (scheduleInTx new {
      kind := .embyImport, resource := some (.episodeTask, input.taskID), idempotencyKey
      maxAttempts := 3, timeout := 30 * Duration.minute
      payload := [("importId", .string importID.text),
        ("expectedVersion", .number input.expectedVersion)] })
    appendResourceEvent (.episodeTask, input.taskID) (some operation.id) "task.import_queued"
      [("importId", .string importID.text), ("version", .number updated.version)]
    return operation

def queueImport (importID : UUID) (new : NewOperation) (input : QueueTaskImport) :
    DatabaseTx Operation := do
  match validateQueueTaskImport input with
  | .error fault => throw fault
  | .ok _ =>
    let idempotencyKey :=
      "emby.import:" ++ input.taskID.text ++ ":" ++ trimSpace input.idempotencyKey
    let locked ← lockTask "lock task for import" input.taskID
    match ← context "load idempotent import operation"
        (getOperationByIdempotencyKey idempotencyKey) with
    | some existing =>
      match replayQueueImport input locked existing with
      | .error fault => throw fault
      | .ok operation => return operation
    | none =>
      if locked.version ≠ input.expectedVersion then
        throw (taskStateConflict "the task was modified by another request" locked)
      else if !validateTaskTransition locked.state .importQueued then
        throw (taskStateConflict "only an approved task can be queued for import" locked)
      else
        let _ ← pairedArtifactSet "load import artifact set" locked
        createQueuedImport importID new input locked idempotencyKey

/-- `GetTaskImportCommand`, as far as the state of the import goes: it joins the import with
the paired artifacts of its task. -/
def getTaskImportCommand (taskID importID : UUID) : ResourcesTx (Option Import) := do
  match ← getArtifactSetForTask taskID with
  | none => return none
  | some _ => importsSlot.selectOne fun i => i.id = importID && i.taskID = taskID

def ImportStatus.text : ImportStatus → String
  | queued => "queued"
  | running => "running"
  | succeeded => "succeeded"
  | failed => "failed"
  | cancelled => "cancelled"

def startImport (importID : UUID) : ResourcesTx (Option Import) :=
  importsSlot.updateOne (atKey Import.id importID fun i => i.status.active)
    fun i => { i with status := .running, errorCode := none, errorMessage := none }

def beginImport (taskID importID : UUID) : DatabaseTx Unit := do
  let locked ← lockTask "lock task import" taskID
  let row ← orNotFound (context "load task import command"
    (onResources (getTaskImportCommand taskID importID)))
  if locked.state = .imported ∧ row.status = .succeeded then
    return ()
  else if locked.state ≠ .importQueued ∧ locked.state ≠ .importing then
    throw (.media "task_import_state_conflict"
      ("task cannot import from state " ++ quote locked.state.text) false)
  else if !row.status.active then
    throw (.media "import_state_conflict"
      ("import cannot start from state " ++ quote row.status.text) false)
  else
    let _ ← context "start import record" (requireRow (onResources (startImport importID)))
    let _ ← requireTask "start task import" (updateTask taskID EpisodeTask.startImport)

/-- `domain.ImportCompletion`. -/
structure ImportCompletion where
  taskID : UUID
  importID : UUID
  operationID : UUID
  destinationVideoPath : String
  destinationSubtitlePath : String

def completeImportRecord (completion : ImportCompletion) : ResourcesTx (Option Import) :=
  importsSlot.updateOne (atKey Import.id completion.importID fun i => i.status = .running)
    fun i => { i with
      status := .succeeded
      destinationVideoPath := some completion.destinationVideoPath
      destinationSubtitlePath := some completion.destinationSubtitlePath
      errorCode := none
      errorMessage := none }

/-- The download that a task's video belongs to. -/
def taskDownloadID (r : Resources) (taskID : UUID) : Option UUID :=
  (lookup EpisodeTask.id taskID r.episodeTasks.rows).bind fun task =>
    (lookup DownloadFile.id task.sourceVideoFileID r.downloadFiles.rows).map (·.downloadID)

/-- Creates the clean-up of an imported task and schedules it. -/
def scheduleTaskCleanupInTx (hashes : Hashes) (new : NewOperation)
    (taskID importID downloadID : UUID) : DatabaseTx Unit := do
  let cleanupID := hashes.resourceID ("cleanup:" ++ taskID.text ++ ":" ++ importID.text)
  let attempts := ((← get).resources.cleanupRuns.rows.filter fun c => c.taskID = taskID).map
    CleanupRun.attempt
  context "create task cleanup" (onResources (cleanupRunsSlot.insert {
    id := cleanupID, taskID, downloadID := some downloadID, attempt := attempts.foldl max 0 + 1 }))
  let _ ← context "schedule cleanup.run" (scheduleInTx new {
    kind := .cleanupRun, resource := some (.episodeTask, taskID)
    idempotencyKey := "cleanup.run:" ++ taskID.text ++ ":" ++ importID.text
    maxAttempts := 5, timeout := 30 * Duration.minute
    payload := [("cleanupId", .string cleanupID.text)] })

/-- Cleans up after a task that did not come from a feed; feeds clean up by subscription. -/
def cleanupImported (hashes : Hashes) (new : NewOperation) (completion : ImportCompletion) :
    DatabaseTx Unit := do
  let r := (← get).resources
  match taskSubscription r completion.taskID with
  | some _ => return ()
  | none =>
    match taskDownloadID r completion.taskID with
    | none => throw (.wrap "load task download for cleanup" .noRows)
    | some downloadID =>
      scheduleTaskCleanupInTx hashes new completion.taskID completion.importID downloadID

def completeImport (hashes : Hashes) (cleanup refresh : NewOperation)
    (completion : ImportCompletion) : DatabaseTx Unit := do
  if completion.taskID = 0 ∨ completion.importID = 0 ∨ completion.operationID = 0 ∨
      trimSpace completion.destinationVideoPath = "" ∨
      trimSpace completion.destinationSubtitlePath = "" then
    throw (.text "import completion requires task, import, operation, and destination paths")
  else
    let locked ← lockTask "lock completed task import" completion.taskID
    let command ← context "load completed task import" (requireRow (onResources
      (getTaskImportCommand completion.taskID completion.importID)))
    if locked.state = .imported ∧ command.status = .succeeded then
      return ()
    else if locked.state ≠ .importing ∨ command.status ≠ .running then
      throw (.media "task_import_state_conflict" "the task import is not running" false)
    else
      let _ ← context "complete import record"
        (requireRow (onResources (completeImportRecord completion)))
      let updated ← requireTask "mark task imported"
        (updateTask completion.taskID EpisodeTask.markImported)
      cleanupImported hashes cleanup completion
      let _ ← context "schedule emby.refresh" (scheduleInTx refresh {
        kind := .embyRefresh, resource := some (.episodeTask, completion.taskID)
        idempotencyKey :=
          "emby.refresh:" ++ completion.taskID.text ++ ":" ++ completion.importID.text
        maxAttempts := 5, timeout := 2 * Duration.minute })
      appendResourceEvent (.episodeTask, completion.taskID) (some completion.operationID)
        "task.imported" [("importId", .string completion.importID.text),
          ("destinationVideoPath", .string completion.destinationVideoPath),
          ("destinationSubtitlePath", .string completion.destinationSubtitlePath),
          ("version", .number updated.version)]

end EmbyAuto
