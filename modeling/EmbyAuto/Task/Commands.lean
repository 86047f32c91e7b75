import EmbyAuto.Task.Workflow

/-!
# Commands on a task

`TaskCommandWorkflow.Retry` and `Cancel`, and the two transactions that delete an acquisition
with its tasks. A command is replayed by its idempotency key. A retry is refused while an
operation on the task is still being stopped.

`lockWorkflowForRetry` also refuses a retry whose target episodes changed or are taken by
another task. These checks only read, so a model without them allows more runs.

## Main definitions

* `lockWorkflowForRetry`, `retryTask`: the recovery of a failed, stuck or cancelled task
* `cancelTask`: the cancellation of a whole task
* `prepareAcquisitionDeletion`, `completeDeletion`: the deletion of an acquisition
-/

namespace EmbyAuto

open Relational Database Resources

/-! ## What a retry reads -/

/-- The columns of `GetTaskView` that a retry reads. -/
structure TaskView where
  task : EpisodeTask
  reviewDecision : Option ReviewDecision
  latestImport : Option Import

/-- The last import of a task. -/
def latestImport (r : Resources) (taskID : UUID) : Option Import :=
  (r.imports.rows.filter fun i => i.taskID = taskID).argmax Import.attempt

/-- A task is visible while its acquisition, its video and an undeleted download exist. -/
def getTaskView (taskID : UUID) : ResourcesTx (Option TaskView) := do
  let r ← get
  return (lookup EpisodeTask.id taskID r.episodeTasks.rows).bind fun task =>
    (lookup Acquisition.id task.acquisitionID r.acquisitions.rows).bind fun _ =>
      (lookup DownloadFile.id task.sourceVideoFileID r.downloadFiles.rows).bind fun file =>
        if r.downloads.rows.any fun d => d.id = file.downloadID && d.deletedAt.isNone then
          some {
            task
            reviewDecision :=
              (r.reviews.rows.find? fun v => v.taskID = taskID).map (·.decision)
            latestImport := latestImport r taskID }
        else none

/-- The operation works on the acquisition, on one of its tasks or on one of its downloads. -/
def Operation.belongsTo (o : Operation) (r : Resources) (acquisitionID : UUID)
    (taskID : Option UUID) : Bool :=
  match o.resource with
  | some (.acquisition, id) => id = acquisitionID
  | some (.episodeTask, id) => r.episodeTasks.rows.any fun t =>
      t.id = id && t.acquisitionID = acquisitionID && (taskID.isNone || taskID = some t.id)
  | some (.download, id) => r.downloads.rows.any fun d =>
      d.id = id && d.acquisitionID = acquisitionID
  | _ => false

def OperationKind.stopsWork (kind : OperationKind) : Bool :=
  kind ∈ [.taskCancel, .downloadCancel, .acquisitionDelete, .rssSubscriptionDelete]

def workflowRetryHasPendingCancellation (acquisitionID : UUID) (taskID : Option UUID)
    (requireIdle : Bool) (db : Database) : Bool :=
  db.operations.rows.any fun o => o.status.live &&
    (requireIdle || o.cancelRequestedAt.isSome || o.kind.stopsWork) &&
    o.belongsTo db.resources acquisitionID taskID

def workflowRetrySourceDeleted (acquisition : Acquisition) (r : Resources) : Bool :=
  r.rssEntries.rows.any fun entry => acquisition.rssEntryID = some entry.id &&
    r.rssSubscriptions.rows.any fun s => s.id = entry.subscriptionID && s.deletedAt.isSome

def lockWorkflowForRetry (acquisitionID : UUID) (taskID : Option UUID) (requireIdle : Bool) :
    DatabaseTx Unit := do
  let db ← get
  match lookup Acquisition.id acquisitionID db.resources.acquisitions.rows with
  | none => throw .notFound
  | some acquisition =>
    if acquisition.deletionRequestedAt.isSome then
      throw (.service "deletion_in_progress" "the content is being deleted")
    else if workflowRetrySourceDeleted acquisition db.resources then
      throw (.service "deletion_in_progress" "the RSS subscription is being deleted")
    else if workflowRetryHasPendingCancellation acquisitionID taskID requireIdle db then
      throw (.service "operation_in_progress"
        "the previous operation is still stopping; retry after it has stopped")
    else return ()

/-! ## The retry of media branches -/

inductive MediaBranch where
  | video | subtitle
  deriving DecidableEq

namespace MediaBranch

def text : MediaBranch → String
  | video => "video"
  | subtitle => "subtitle"

def kind : MediaBranch → OperationKind
  | video => .transcodeRun
  | subtitle => .subtitlePrepare

def timeout : MediaBranch → Duration
  | video => 24 * Duration.hour
  | subtitle => 30 * Duration.minute

end MediaBranch

/-- The branches that a retry requeues: those that failed, and those of a cancelled task that
were cancelled. -/
def EpisodeTask.videoFailed (t : EpisodeTask) : Bool :=
  t.videoState = .failed || (t.state = .cancelled && t.videoState = .cancelled)

def EpisodeTask.subtitleFailed (t : EpisodeTask) : Bool :=
  t.subtitleState = .failed || (t.state = .cancelled && t.subtitleState = .cancelled)

/-- The branch that is scheduled under the command's key, and the one under a derived key. -/
def EpisodeTask.retryBranches (t : EpisodeTask) : MediaBranch × Option MediaBranch :=
  if t.videoFailed && t.subtitleFailed then
    if t.failureStage = some .subtitle then (.subtitle, some .video) else (.video, some .subtitle)
  else if t.videoFailed then (.video, none)
  else (.subtitle, none)

def deriveSecondaryIdempotencyKey (hashes : Hashes) (primaryKey : String)
    (secondaryKind : OperationKind) (taskID : UUID) : String :=
  "task-retry:" ++ taskID.text ++ ":" ++ secondaryKind.text ++ ":" ++ hashes.sha256 primaryKey

/-- `mediaBranchSchedule` in a request. -/
def MediaBranch.request (branch : MediaBranch) (taskID : UUID) (idempotencyKey : String) :
    ScheduleOperationRequest where
  kind := branch.kind
  resource := some (.episodeTask, taskID)
  idempotencyKey
  maxAttempts := 3
  timeout := branch.timeout
  payload := [("command", .string "retry")]

def MediaBranch.event (branch : MediaBranch) (operation : Operation) : JSON :=
  .object [("stage", .string branch.text), ("kind", .string branch.kind.text),
    ("operationId", .string operation.id.text)]

/-- The failure stage as text, empty when there is none. -/
def EpisodeTask.failureStageText (t : EpisodeTask) : String :=
  (t.failureStage.map TaskFailureStage.text).getD ""

def retryRequestedEvent (taskID : UUID) (operation : Operation) (failureStage : String)
    (more : List (String × JSON)) : DatabaseTx Unit :=
  appendResourceEvent (.episodeTask, taskID) (some operation.id) "task.retry_requested"
    (("failureStage", .string failureStage) :: more)

/-- Schedules the second branch, if there is one, and lists the branches by name. -/
def scheduleSecondary (hashes : Hashes) (new : NewOperation) (task : EpisodeTask) (key : String)
    (first : MediaBranch) (operation : Operation) (second : Option MediaBranch) :
    DatabaseTx (List (MediaBranch × Operation)) := do
  match second with
  | none => return [(first, operation)]
  | some second =>
    let derivedKey := deriveSecondaryIdempotencyKey hashes key second.kind task.id
    let (other, _) ← context ("schedule task retry " ++ second.text)
      (scheduleInTx new (second.request task.id derivedKey))
    match first with
    | .subtitle => return [(first, operation), (second, other)]
    | .video => return [(second, other), (first, operation)]

def retryMediaBranches (hashes : Hashes) (primary secondary : NewOperation) (task : EpisodeTask)
    (expectedVersion : Int) (key : String) : DatabaseTx Operation := do
  let (first, second) := task.retryBranches
  match ← context "requeue task media branches" (onResources
      (updateTask task.id (EpisodeTask.requeueFailedMediaBranches expectedVersion))) with
  | none => throw (.service "state_conflict" "the task is not retryable"
      [("state", .text task.state.text), ("videoState", .text task.videoState.text),
        ("subtitleState", .text task.subtitleState.text)])
  | some _ =>
    let (operation, _) ← context ("schedule task retry " ++ first.text)
      (scheduleInTx primary (first.request task.id key))
    let branches ← scheduleSecondary hashes secondary task key first operation second
    let stage := if task.failureStageText = "" then first.text else task.failureStageText
    retryRequestedEvent task.id operation stage [
      ("failureStages", .array (branches.map fun b => .string b.1.text)),
      ("branches", .array (branches.map fun b => b.1.event b.2))]
    return operation

/-! ## The retry of later stages -/

/-- Requeues the last import of a task whose status is one of those given. -/
def requeueLatestImport (taskID : UUID) (statuses : List ImportStatus) :
    ResourcesTx (Option Import) := do
  let candidates := (← get).imports.rows.filter fun i =>
    i.taskID = taskID && decide (i.status ∈ statuses)
  let target := candidates.argmax Import.attempt
  importsSlot.updateOne (fun i => target.map Import.id = some i.id)
    fun i => { i with status := .queued, errorCode := none, errorMessage := none }

def requeueLatestFailedTaskImport (taskID : UUID) : ResourcesTx (Option Import) :=
  requeueLatestImport taskID [.failed]

def requeueCancelledTaskImport (taskID : UUID) : ResourcesTx (Option Import) :=
  requeueLatestImport taskID [.queued, .running, .cancelled, .failed]

def requeueLatestFailedTaskCleanup (taskID : UUID) : ResourcesTx (Option CleanupRun) := do
  let candidates := (← get).cleanupRuns.rows.filter fun c =>
    c.taskID = taskID && c.status = .failed
  let target := candidates.argmax CleanupRun.attempt
  cleanupRunsSlot.updateOne (fun c => target.map CleanupRun.id = some c.id)
    fun c => { c with status := .queued, errorCode := none, errorMessage := none }

/-- Schedules the retry of one stage and reports it. The report cannot fail, so the text that
callers put around the scheduling error stands around both. -/
def scheduleRetry (new : NewOperation) (taskID : UUID) (key stage : String)
    (kind : OperationKind) (maxAttempts : Int) (timeout : Duration)
    (payload : List (String × JSON)) : DatabaseTx Operation := do
  let (operation, _) ← scheduleInTx new {
    kind, resource := some (.episodeTask, taskID), idempotencyKey := key, maxAttempts, timeout
    payload := ("command", .string "retry") :: payload }
  retryRequestedEvent taskID operation stage []
  return operation

/-- An update of the task that a retry starts with. -/
def requeueTask (text : String) (rejected : Fault)
    (update : ResourcesTx (Option EpisodeTask)) : DatabaseTx Unit := do
  match ← context text (onResources update) with
  | none => throw rejected
  | some _ => return ()

def retryCleanup (new : NewOperation) (task : EpisodeTask) (expectedVersion : Int)
    (key : String) : DatabaseTx Operation := do
  requeueTask "mark task cleanup retry"
    (.service "invalid_state" "the imported task has no failed cleanup to retry"
      [("state", .text task.state.text)])
    (markTaskCleanupRetryRequested task.id expectedVersion)
  let cleanup ← context "requeue task cleanup record"
    (requireRow (onResources (requeueLatestFailedTaskCleanup task.id)))
  context "schedule task retry" <|
    scheduleRetry new task.id key "cleanup" .cleanupRun 5 (30 * Duration.minute)
      [("cleanupId", .string cleanup.id.text)]

/-- Resumes a cancelled task whose media are ready: at its import if it has one, otherwise at
the finalisation. -/
def retryCancelledAfterMedia (new : NewOperation) (taskID : UUID) (expectedVersion : Int)
    (key : String) : DatabaseTx Operation := do
  let view ← context "load stopped task stages" (requireRow (onResources (getTaskView taskID)))
  match view.latestImport with
  | none =>
    requeueTask "requeue stopped task" stopped
      (requeueCancelledTaskAfterMedia taskID .finalizing expectedVersion)
    scheduleRetry new taskID key "finalize" .mediaFinalize 3 (5 * Duration.minute) []
  | some latest =>
    if view.reviewDecision ≠ some .approved ∨ latest.status = .succeeded then
      throw (.service "state_conflict" "the stopped task has no recoverable import")
    else
      let imported ← context "requeue stopped import"
        (requireRow (onResources (requeueCancelledTaskImport taskID)))
      requeueTask "requeue stopped task" stopped
        (requeueCancelledTaskAfterMedia taskID .importQueued expectedVersion)
      scheduleRetry new taskID key "import" .embyImport 3 (10 * Duration.minute)
        [("importId", .string imported.id.text)]
where
  stopped : Fault := .service "state_conflict" "the stopped task is no longer retryable"

/-- The retry of a failed task whose media branches did not fail. -/
def retryFailedStage (new : NewOperation) (task : EpisodeTask) (key : String) :
    DatabaseTx Operation := do
  match task.failureStage with
  | some .finalize =>
    requeueTask "requeue task finalize"
      (.service "state_conflict" "the failed task has no retryable finalize branch"
        [("failureStage", .text "finalize")])
      (updateTask task.id EpisodeTask.requeueFinalizeBranch)
    context "schedule task retry" <|
      scheduleRetry new task.id key "finalize" .mediaFinalize 3 (5 * Duration.minute) []
  | some .import =>
    requeueTask "requeue task import"
      (.service "state_conflict" "the failed task has no retryable import branch"
        [("failureStage", .text "import")])
      (requeueTaskImportBranch task.id)
    let imported ← context "requeue task import record"
      (requireRow (onResources (requeueLatestFailedTaskImport task.id)))
    context "schedule task retry" <|
      scheduleRetry new task.id key "import" .embyImport 3 (10 * Duration.minute)
        [("importId", .string imported.id.text)]
  | _ => throw (.service "invalid_state" "the failed task has no retryable branch"
      [("failureStage", .text task.failureStageText)])

/-! ## The retry command -/

/-- `isCancelledMediaRecoverable`: no branch of the cancelled task is active. -/
def isCancelledMediaRecoverable (t : EpisodeTask) : Bool :=
  t.state = .cancelled &&
    (t.videoState = .failed || t.videoState = .cancelled || t.videoState = .videoReady) &&
    (t.subtitleState = .failed || t.subtitleState = .cancelled || t.subtitleState = .assReady)

/-- The retry of a locked task whose version is the expected one. -/
def retryLockedTask (hashes : Hashes) (primary secondary : NewOperation) (task : EpisodeTask)
    (expectedVersion : Int) (key : String) : DatabaseTx Operation := do
  let hasMediaFailed := task.videoFailed || task.subtitleFailed
  if task.state = .imported then
    retryCleanup primary task expectedVersion key
  else if task.state = .failed ∨ (task.state = .processing ∧ hasMediaFailed) ∨
      isCancelledMediaRecoverable task then
    if hasMediaFailed then
      retryMediaBranches hashes primary secondary task expectedVersion key
    else if isCancelledMediaRecoverable task then
      retryCancelledAfterMedia primary task.id expectedVersion key
    else if task.state ≠ .failed then
      throw (notRetryable task)
    else
      retryFailedStage primary task key
  else
    throw (notRetryable task)
where
  notRetryable (task : EpisodeTask) : Fault :=
    .service "invalid_state" "only a failed task or failed imported cleanup can be retried"
      [("state", .text task.state.text)]

/-- The operations that a retry may have scheduled. -/
def retryKinds : List OperationKind :=
  [.transcodeRun, .subtitlePrepare, .mediaFinalize, .embyImport, .cleanupRun]

/-- The key of a retry, trimmed and checked. -/
def retryKey (idempotencyKey : String) : Except Fault String :=
  let key := trimSpace idempotencyKey
  if key = "" then .error (invalidTaskCommand "idempotencyKey" "must not be blank")
  else if key.length > 256 then
    .error (invalidTaskCommand "idempotencyKey" "must not exceed 256 characters")
  else .ok key

def versionConflict (expectedVersion : Int) : Fault :=
  .service "state_conflict" "the task was modified by another request"
    [("expectedVersion", .number expectedVersion)]

def retryTask (hashes : Hashes) (primary secondary : NewOperation) (taskID : UUID)
    (expectedVersion : Int) (idempotencyKey : String) : DatabaseTx Operation := do
  match retryKey idempotencyKey with
  | .error fault => throw fault
  | .ok key =>
    match ← findIdempotentResourceCommand key (.episodeTask, taskID) "retry" retryKinds with
    | some existing => return existing
    | none =>
      let before ← orNotFound (context "load task retry context" (onResources (getTaskView taskID)))
      lockWorkflowForRetry before.task.acquisitionID (some taskID)
        (before.task.state = .cancelled)
      let task ← lockTask "lock task" taskID
      if task.version ≠ expectedVersion then
        throw (versionConflict expectedVersion)
      else
        retryLockedTask hashes primary secondary task expectedVersion key

/-! ## Cancellation and deletion -/

def cancelTask (now : Timestamp) (new : NewOperation) (taskID : UUID) (expectedVersion : Int)
    (idempotencyKey : String) : DatabaseTx Operation := do
  match ← findIdempotentResourceCommand idempotencyKey (.episodeTask, taskID) "cancel"
      [.taskCancel] with
  | some existing => return existing
  | none =>
    requestResourceOperationCancellations now (.episodeTask, taskID)
    let task ← lockTask "lock task" taskID
    if task.version ≠ expectedVersion then
      throw (versionConflict expectedVersion)
    else
      requeueTask "cancel task" (.service "invalid_state"
        "only a non-terminal task can be cancelled" [("state", .text task.state.text)])
        (updateTask taskID (EpisodeTask.cancelIfActive expectedVersion))
      let (operation, _) ← context "schedule task cancel" (scheduleInTx new {
        kind := .taskCancel, resource := some (.episodeTask, taskID), idempotencyKey
        maxAttempts := 1, timeout := Duration.minute
        payload := [("command", .string "cancel")] })
      appendResourceEvent (.episodeTask, taskID) (some operation.id) "task.cancel_requested" []
      return operation

def requestAcquisitionOperationCancellations (now : Timestamp) (acquisitionID excluded : UUID) :
    DatabaseTx Unit := do
  let r := (← get).resources
  let _ ← operationsSlot.update
    (fun o => o.status.live && o.kind ≠ .acquisitionDelete && o.id ≠ excluded &&
      o.belongsTo r acquisitionID none)
    (Operation.requestCancellation now)

def cancelAcquisitionDownloadsForDeletion (acquisitionID : UUID) :
    ResourcesTx (List Download) :=
  downloadsSlot.update
    (fun d => d.acquisitionID = acquisitionID && d.deletedAt.isNone &&
      decide (d.status ∈ [.enqueuePending, .downloading, .completed, .selectingFiles]))
    fun d => { d with
      status := .cancelled, failureStage := none, errorCode := none, errorMessage := none
      version := d.version + 1 }

def markAcquisitionDeletionRequested (now : Timestamp) (id : UUID) :
    ResourcesTx (Option Acquisition) :=
  acquisitionsSlot.updateOne (atKey Acquisition.id id fun a => a.deletionRequestedAt.isNone)
    fun a => { a with deletionRequestedAt := some now }

/-- Asks every worker of the acquisition to stop and cancels its tasks and downloads. -/
def prepareAcquisitionDeletion (now : Timestamp) (acquisitionID : UUID) (allowExisting : Bool)
    (excluded : UUID) : DatabaseTx Unit := do
  match lookup Acquisition.id acquisitionID (← get).resources.acquisitions.rows with
  | none => throw .notFound
  | some locked =>
    if locked.deletionRequestedAt.isSome ∧ !allowExisting then
      throw (.service "deletion_in_progress" "the task is already being deleted"
        [("acquisitionId", .text acquisitionID.text)])
    else
      context "request acquisition operation cancellations"
        (requestAcquisitionOperationCancellations now acquisitionID excluded)
      let _ ← context "cancel acquisition tasks for deletion"
        (onResources (cancelAcquisitionTasksForDeletion acquisitionID))
      let _ ← context "cancel acquisition downloads for deletion"
        (onResources (cancelAcquisitionDownloadsForDeletion acquisitionID))
      if locked.deletionRequestedAt.isNone then
        let _ ← context "mark acquisition deletion requested"
          (requireRow (onResources (markAcquisitionDeletionRequested now acquisitionID)))
      else return ()

/-- The statements of `CompleteDeletion` in their order. -/
def deleteAcquisitionRows (acquisitionID : UUID) : ResourcesTx Unit := do
  let r ← get
  let owned (taskID : UUID) : Bool := r.episodeTasks.rows.any fun t =>
    t.id = taskID && t.acquisitionID = acquisitionID
  let _ ← context "delete acquisition artifact sets"
    (artifactSetsSlot.delete fun s => owned s.taskID)
  let _ ← context "delete acquisition artifacts"
    (mediaArtifactsSlot.delete fun a => owned a.taskID)
  let _ ← context "delete acquisition tasks"
    (episodeTasksSlot.delete fun t => t.acquisitionID = acquisitionID)
  let deleted ← context "delete acquisition workflow" (acquisitionsSlot.delete fun a =>
    a.id = acquisitionID && a.deletionRequestedAt.isSome)
  if deleted ≠ 1 then
    throw (.text ("delete acquisition workflow: expected one row, got " ++ toString deleted))
  else return ()

def completeDeletion (acquisitionID operationID : UUID) : DatabaseTx Unit := do
  let r := (← get).resources
  match lookup Acquisition.id acquisitionID r.acquisitions.rows with
  | none => return ()
  | some locked =>
    if locked.deletionRequestedAt.isNone then
      throw (.service "deletion_not_requested" "the task deletion was not requested"
        [("acquisitionId", .text acquisitionID.text)])
    else
      let tasks := r.episodeTasks.rows.filter fun t => t.acquisitionID = acquisitionID
      let downloads := r.downloads.rows.filter fun d => d.acquisitionID = acquisitionID
      let artifacts := r.mediaArtifacts.rows.filter fun a => tasks.any fun t => t.id = a.taskID
      appendResourceEvent (.acquisition, acquisitionID) (some operationID)
        "acquisition.delete_completed" [("tasksRemoved", .number tasks.length),
          ("downloadsRemoved", .number downloads.length),
          ("artifactsRemoved", .number artifacts.length)]
      onResources (deleteAcquisitionRows acquisitionID)

end EmbyAuto
