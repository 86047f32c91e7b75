import EmbyAuto.Operation.Queries

/-!
# The resource of an operation

When an operation fails for good or is cancelled, the repository moves the resource it
works on in the same transaction: a download, a search, an agent resolution, a library
scan, an episode task, its import or its cleanup. A resource that has already left the
states an update expects is left alone.

## Main definitions

* the updates of single resources, such as `markDownloadEnqueueTerminalFailure`
* `failResource`: the branch of `FailAttempt` that fails the resource, by operation kind
* `cancelOperationResource`: what cancelling an operation does to its resource
-/

namespace EmbyAuto

open Relational

namespace Resources

def acquisitionsSlot : Slot Resources acquisitionSchema where
  table := acquisitions
  put r t := { r with acquisitions := t }
  put_table := Eq.refl

def downloadsSlot : Slot Resources downloadSchema where
  table := downloads
  put r t := { r with downloads := t }
  put_table := Eq.refl

def rssEntriesSlot : Slot Resources rssEntrySchema where
  table := rssEntries
  put r t := { r with rssEntries := t }
  put_table := Eq.refl

def searchRunsSlot : Slot Resources searchRunSchema where
  table := searchRuns
  put r t := { r with searchRuns := t }
  put_table := Eq.refl

def agentResolutionsSlot : Slot Resources agentResolutionSchema where
  table := agentResolutions
  put r t := { r with agentResolutions := t }
  put_table := Eq.refl

def embyScanRunsSlot : Slot Resources embyScanRunSchema where
  table := embyScanRuns
  put r t := { r with embyScanRuns := t }
  put_table := Eq.refl

def episodeTasksSlot : Slot Resources episodeTaskSchema where
  table := episodeTasks
  put r t := { r with episodeTasks := t }
  put_table := Eq.refl

def importsSlot : Slot Resources importSchema where
  table := imports
  put r t := { r with imports := t }
  put_table := Eq.refl

def cleanupRunsSlot : Slot Resources cleanupRunSchema where
  table := cleanupRuns
  put r t := { r with cleanupRuns := t }
  put_table := Eq.refl

end Resources

open Resources

/-! ## Downloads -/

/-- The columns that a terminal failure of a download sets. -/
def Download.fail (stage : DownloadFailureStage) (errorCode errorMessage : String)
    (d : Download) : Download :=
  { d with
    status := .failed
    failureStage := some stage
    errorCode := some errorCode
    errorMessage := some errorMessage
    version := d.version + 1 }

section Downloads

variable (id : UUID) (errorCode errorMessage : String)

/-- The family of terminal failures of a download: from the given statuses to `failed`
with the given stage. -/
def markDownloadTerminalFailure (expected : List DownloadStatus) (stage : DownloadFailureStage) :
    ResourcesTx (Option Download) :=
  downloadsSlot.updateOne (atKey Download.id id fun d => decide (d.status ∈ expected))
    (Download.fail stage errorCode errorMessage)

def markDownloadEnqueueTerminalFailure : ResourcesTx (Option Download) :=
  markDownloadTerminalFailure id errorCode errorMessage [.enqueuePending] .enqueue

def markDownloadFileResolutionTerminalFailure : ResourcesTx (Option Download) :=
  markDownloadTerminalFailure id errorCode errorMessage [.fileResolutionPending] .fileResolution

def markDownloadSyncTerminalFailure : ResourcesTx (Option Download) :=
  markDownloadTerminalFailure id errorCode errorMessage [.downloading] .sync

def markDownloadMaterializeTerminalFailure : ResourcesTx (Option Download) :=
  markDownloadTerminalFailure id errorCode errorMessage [.completed, .selectingFiles] .materialize

/-- The feed entry whose acquisition owns the download, if it is being enqueued. -/
def markDownloadRSSEntryEnqueueFailed (retryable : Bool) : ResourcesTx (List RSSEntry) := do
  let r ← get
  let owned (entry : RSSEntry) : Bool := r.downloads.rows.any fun d => d.id = id &&
    r.acquisitions.rows.any fun a => a.id = d.acquisitionID && a.rssEntryID = some entry.id
  rssEntriesSlot.update (fun entry => owned entry && entry.status = .enqueueing)
    fun entry => { entry with
      status := .enqueueFailed
      lastErrorCode := some errorCode
      lastErrorMessage := some errorMessage
      lastErrorRetryable := retryable }

end Downloads

/-! ## Searches, agent resolutions, scans -/

section Runs

variable (now : Timestamp) (id : UUID)

def markSearchRunTerminalFailure (errorCode errorMessage : String) :
    ResourcesTx (Option SearchRun) :=
  searchRunsSlot.updateOne
    (atKey SearchRun.id id fun s => s.status = .queued || s.status = .running)
    fun s => { s with
      status := .failed, errorCode := some errorCode, errorMessage := some errorMessage }

def markSearchRunCancelled : ResourcesTx (Option SearchRun) :=
  searchRunsSlot.updateOne
    (atKey SearchRun.id id fun s => s.status = .queued || s.status = .running)
    fun s => { s with status := .cancelled }

def markAgentResolutionOperationTerminal (status : AgentResolutionStatus)
    (errorCode errorMessage : String) : ResourcesTx (Option AgentResolution) :=
  agentResolutionsSlot.updateOne
    (atKey AgentResolution.id id fun a =>
      a.status = .queued || a.status = .running || a.status = .proposed)
    fun a => { a with
      status
      errorCode := some errorCode
      errorMessage := some errorMessage
      version := a.version + 1 }

def failEmbyScanRun (status : EmbyScanStatus) (errorCode errorMessage : String) :
    ResourcesTx (Option EmbyScanRun) :=
  embyScanRunsSlot.updateOne
    (atKey EmbyScanRun.id id fun s => s.status = .queued || s.status = .running)
    fun s => { s with
      status
      errorCode := some errorCode
      errorMessage := some errorMessage
      completedAt := some now }

end Runs

/-! ## Episode tasks

The statements on one row of `episode_tasks` are functions on the row, so that the state
machine of a task can be read without the table around it. -/

namespace EpisodeTask

/-- `video_state IN ('transcode_queued', 'transcoding')`. -/
def videoActive (t : EpisodeTask) : Bool :=
  t.videoState = .transcodeQueued || t.videoState = .transcoding

/-- `subtitle_state IN ('subtitle_queued', 'extracting_or_converting')`. -/
def subtitleActive (t : EpisodeTask) : Bool :=
  t.subtitleState = .subtitleQueued || t.subtitleState = .extractingOrConverting

/-- A guarded `UPDATE ... SET ..., version = version + 1` of one task. -/
structure Statement where
  guard : EpisodeTask → Bool
  set : EpisodeTask → EpisodeTask

/-- The columns that a terminal failure sets besides the branch that failed. -/
def fail (stage : TaskFailureStage) (errorCode errorMessage : String) (t : EpisodeTask) :
    EpisodeTask :=
  { t with
    state := .failed
    failureStage := some stage
    errorCode := some errorCode
    errorMessage := some errorMessage
    version := t.version + 1 }

/-- The columns that a cancellation sets besides the branches it stops. -/
def cancel (t : EpisodeTask) : EpisodeTask :=
  { t with
    state := .cancelled
    failureStage := none
    errorCode := none
    errorMessage := none
    version := t.version + 1 }

def markVideoTerminalFailure (errorCode errorMessage : String) : Statement where
  guard t := t.videoActive
  set t := { t.fail .video errorCode errorMessage with videoState := .failed }

def markSubtitleTerminalFailure (errorCode errorMessage : String) : Statement where
  guard t := t.subtitleActive
  set t := { t.fail .subtitle errorCode errorMessage with subtitleState := .failed }

def markFinalizeTerminalFailure (errorCode errorMessage : String) : Statement where
  guard t := t.state = .finalizing
  set t := t.fail .finalize errorCode errorMessage

def markImportTerminalFailure (errorCode errorMessage : String) : Statement where
  guard t := t.state = .importQueued || t.state = .importing
  set t := t.fail .import errorCode errorMessage

def markVideoCancelled : Statement where
  guard t := t.videoActive
  set t := { t.cancel with videoState := .cancelled }

def markSubtitleCancelled : Statement where
  guard t := t.subtitleActive
  set t := { t.cancel with subtitleState := .cancelled }

def markFinalizeCancelled : Statement where
  guard t := t.state = .finalizing
  set t := t.cancel

def cancelTaskImport : Statement where
  guard t := t.state = .importQueued || t.state = .importing
  set t := t.cancel

end EpisodeTask

/-- Runs a statement on the task with the given identifier. -/
def updateTask (id : UUID) (statement : EpisodeTask.Statement) :
    ResourcesTx (Option EpisodeTask) :=
  episodeTasksSlot.updateOne (atKey EpisodeTask.id id statement.guard) statement.set

/-! ## Imports and cleanups -/

section Runs

variable (taskID : UUID)

/-- `WHERE task_id = ... AND status IN ('queued', 'running') ORDER BY attempt DESC LIMIT 1`. -/
def activeImport (r : Resources) : Option Import :=
  (r.imports.rows.filter fun i => i.taskID = taskID && i.status.active).argmax Import.attempt

def activeCleanup (r : Resources) : Option CleanupRun :=
  (r.cleanupRuns.rows.filter fun c => c.taskID = taskID && c.status.active).argmax
    CleanupRun.attempt

/-- Ends the active import of a task with a status and an error. -/
def endActiveImport (set : Import → Import) : ResourcesTx (Option Import) := do
  let target := activeImport taskID (← get)
  importsSlot.updateOne (fun i => target.map Import.id = some i.id) set

def markActiveImportTerminalFailure (errorCode errorMessage : String) :
    ResourcesTx (Option Import) :=
  endActiveImport taskID fun i => { i with
    status := .failed, errorCode := some errorCode, errorMessage := some errorMessage }

def cancelActiveImport : ResourcesTx (Option Import) :=
  endActiveImport taskID fun i => { i with status := .cancelled }

def endActiveCleanup (set : CleanupRun → CleanupRun) : ResourcesTx (Option CleanupRun) := do
  let target := activeCleanup taskID (← get)
  cleanupRunsSlot.updateOne (fun c => target.map CleanupRun.id = some c.id) set

def markActiveCleanupTerminalFailure (errorCode errorMessage : String) :
    ResourcesTx (Option CleanupRun) :=
  endActiveCleanup taskID fun c => { c with
    status := .failed, errorCode := some errorCode, errorMessage := some errorMessage }

def cancelActiveCleanup : ResourcesTx (Option CleanupRun) :=
  endActiveCleanup taskID fun c => { c with status := .cancelled }

end Runs

/-! ## Failing and cancelling the resource of an operation -/

/-- An update of a resource followed by its event. No matching row means that the resource
has moved on, which is not an error. -/
def thenEvent {α : Type} (text : String) (update : ResourcesTx (Option α))
    (event : α → ResourcesTx Unit) : ResourcesTx Unit := do
  match ← context text update with
  | none => return ()
  | some row => event row

section Lifecycle

variable (now : Timestamp) (operation : Operation)

/-- The event that a resource appends about itself. -/
def appendLifecycleEvent (resourceType : ResourceType) (id : UUID) (topic : String)
    (data : List (String × JSON)) : ResourcesTx Unit :=
  appendEvent topic (some (resourceType, id)) (some operation.id) (.object data)

def failDownloadEnqueueResource (id : UUID) (code message : String) (retryable : Bool) :
    ResourcesTx Unit :=
  thenEvent "fail download enqueue resource"
    (markDownloadEnqueueTerminalFailure id code message) fun download => do
    let _ ← context "mark download RSS entry enqueue failed"
      (markDownloadRSSEntryEnqueueFailed download.id code message retryable)
    appendLifecycleEvent operation .download download.id "download.enqueue_failed"
      [("status", .string "failed"), ("errorCode", .string code)]

def failDownloadPostEnqueueResource (id : UUID) (code message : String) :
    ResourcesTx Unit :=
  let text := "fail download " ++ operation.kind.text ++ " resource"
  -- The event of a failed selection carries the stage of a failed synchronisation.
  let event (stage : String) (download : Download) : ResourcesTx Unit :=
    appendLifecycleEvent operation .download download.id ("download." ++ stage ++ "_failed")
      [("status", .string "failed"), ("failureStage", .string stage), ("errorCode", .string code)]
  match operation.kind with
  | .downloadSelectionApply =>
    thenEvent text (markDownloadFileResolutionTerminalFailure id code message) (event "sync")
  | .downloadSync => thenEvent text (markDownloadSyncTerminalFailure id code message) (event "sync")
  | .downloadMaterialize =>
    thenEvent text (markDownloadMaterializeTerminalFailure id code message) (event "materialize")
  | _ => return ()

def failSearchRunResource (id : UUID) (code message : String) : ResourcesTx Unit :=
  thenEvent "fail search run resource" (markSearchRunTerminalFailure id code message) fun search =>
    appendLifecycleEvent operation .searchRun search.id "search.failed"
      [("status", .string "failed"), ("errorCode", .string code)]

def failTaskMediaResource (id : UUID) (code message : String) : ResourcesTx Unit :=
  let fail (statement : EpisodeTask.Statement) : ResourcesTx Unit :=
    thenEvent "fail task media resource" (updateTask id statement) fun task =>
      appendLifecycleEvent operation .episodeTask task.id "task.media_failed"
        [("kind", .string operation.kind.text), ("status", .string "failed"),
          ("errorCode", .string code)]
  match operation.kind with
  | .transcodeRun => fail (EpisodeTask.markVideoTerminalFailure code message)
  | .subtitlePrepare => fail (EpisodeTask.markSubtitleTerminalFailure code message)
  | .mediaFinalize => fail (EpisodeTask.markFinalizeTerminalFailure code message)
  | _ => return ()

def failTaskImportResource (id : UUID) (code message : String) : ResourcesTx Unit :=
  thenEvent "fail active task import" (markActiveImportTerminalFailure id code message) fun _ =>
    thenEvent "fail imported task resource"
      (updateTask id (EpisodeTask.markImportTerminalFailure code message)) fun task =>
        appendLifecycleEvent operation .episodeTask task.id "task.import_failed"
          [("status", .string "failed"), ("errorCode", .string code)]

def failTaskCleanupResource (id : UUID) (code message : String) : ResourcesTx Unit :=
  thenEvent "fail active task cleanup" (markActiveCleanupTerminalFailure id code message)
    fun cleanup =>
      appendLifecycleEvent operation .episodeTask cleanup.taskID "task.cleanup_failed"
        [("status", .string "failed"), ("errorCode", .string code)]

def failAgentResolutionResource (id : UUID) (status : AgentResolutionStatus)
    (code message : String) : ResourcesTx Unit :=
  let (topic, text) := if status = .cancelled then ("agent.resolution_cancelled", "cancelled")
    else ("agent.resolution_failed", "failed")
  thenEvent "finish Agent resolution resource"
    (markAgentResolutionOperationTerminal id status code message) fun resolution =>
      appendLifecycleEvent operation .agentResolution resolution.id topic
        [("status", .string text), ("errorCode", .string code),
          ("capability", .string resolution.capability)]

def failEmbyScanResource (id : UUID) (status : EmbyScanStatus) (code message : String) :
    ResourcesTx Unit :=
  let (topic, text) := if status = .cancelled then ("emby.scan_cancelled", "cancelled")
    else ("emby.scan_failed", "failed")
  thenEvent "fail Emby scan resource" (failEmbyScanRun now id status code message) fun scan =>
    appendLifecycleEvent operation .embyScan scan.id topic
      [("status", .string text), ("errorCode", .string code)]

/-- The `switch` of `FailAttempt` on the operation's kind and resource type. -/
def failResource (code message : String) (retryable : Bool) : ResourcesTx Unit :=
  match operation.resource with
  | none => return ()
  | some (type, id) =>
    match operation.kind, type with
    | .agentResolve, .agentResolution =>
      failAgentResolutionResource operation id .failed code message
    | .downloadEnqueue, .download =>
      failDownloadEnqueueResource operation id code message retryable
    | .downloadSelectionApply, .download | .downloadSync, .download
    | .downloadMaterialize, .download => failDownloadPostEnqueueResource operation id code message
    | .searchRun, .searchRun => failSearchRunResource operation id code message
    | .transcodeRun, .episodeTask | .subtitlePrepare, .episodeTask
    | .mediaFinalize, .episodeTask => failTaskMediaResource operation id code message
    | .embyImport, .episodeTask => failTaskImportResource operation id code message
    | .cleanupRun, .episodeTask => failTaskCleanupResource operation id code message
    | .embyScan, .embyScan => failEmbyScanResource now operation id .failed code message
    | _, _ => return ()

def cancelTaskMediaResource (id : UUID) (statement : EpisodeTask.Statement) :
    ResourcesTx Unit :=
  thenEvent "cancel task media resource" (updateTask id statement) fun task =>
    appendLifecycleEvent operation .episodeTask task.id "task.media_cancelled"
      [("kind", .string operation.kind.text), ("status", .string "cancelled")]

def cancelOperationResource : ResourcesTx Unit :=
  match operation.resource with
  | none => return ()
  | some (type, id) =>
    match operation.kind, type with
    | .agentResolve, .agentResolution =>
      failAgentResolutionResource operation id .cancelled "operation_cancelled"
        "the Agent resolution was cancelled"
    | .embyScan, .embyScan =>
      failEmbyScanResource now operation id .cancelled "operation_cancelled"
        "the Emby scan was cancelled"
    | .searchRun, .searchRun =>
      thenEvent "cancel search run resource" (markSearchRunCancelled id) fun search =>
        appendLifecycleEvent operation .searchRun search.id "search.cancelled"
          [("status", .string "cancelled")]
    | .cleanupRun, .episodeTask =>
      thenEvent "cancel task cleanup resource" (cancelActiveCleanup id) fun cleanup =>
        appendLifecycleEvent operation .episodeTask cleanup.taskID "task.cleanup_cancelled"
          [("status", .string "cancelled")]
    | .embyImport, .episodeTask =>
      thenEvent "cancel active task import" (cancelActiveImport id) fun _ =>
        thenEvent "cancel task import resource" (updateTask id EpisodeTask.cancelTaskImport)
          fun task =>
            appendLifecycleEvent operation .episodeTask task.id "task.import_cancelled"
              [("status", .string "cancelled")]
    | .transcodeRun, .episodeTask =>
      cancelTaskMediaResource operation id EpisodeTask.markVideoCancelled
    | .subtitlePrepare, .episodeTask =>
      cancelTaskMediaResource operation id EpisodeTask.markSubtitleCancelled
    | .mediaFinalize, .episodeTask =>
      cancelTaskMediaResource operation id EpisodeTask.markFinalizeCancelled
    | _, _ => return ()

end Lifecycle

/-! ## What ends a resource

A resource ends by a few statements, each followed by an event if it has found its row. -/

namespace EpisodeTask.Statement

/-- An operation on the task fails for good. -/
inductive Fails : Statement → Prop where
  | video (code message) : Fails (markVideoTerminalFailure code message)
  | subtitle (code message) : Fails (markSubtitleTerminalFailure code message)
  | finalize (code message) : Fails (markFinalizeTerminalFailure code message)
  | import (code message) : Fails (markImportTerminalFailure code message)

/-- An operation on the task is cancelled. -/
inductive Stops : Statement → Prop where
  | video : Stops markVideoCancelled
  | subtitle : Stops markSubtitleCancelled
  | finalize : Stops markFinalizeCancelled
  | import : Stops cancelTaskImport

end EpisodeTask.Statement

/-- The statements by which an operation fails its resource. -/
inductive FailStatement (now : Timestamp) (code message : String) :
    (α : Type) → ResourcesTx (Option α) → Prop where
  | resolution (id) : FailStatement now code message _
      (markAgentResolutionOperationTerminal id .failed code message)
  | download (id) {expected stage} (h : DownloadStatus.cancelled ∉ expected) :
      FailStatement now code message _
        (markDownloadTerminalFailure id code message expected stage)
  | search (id) : FailStatement now code message _ (markSearchRunTerminalFailure id code message)
  | task (id) {statement} (kind : EpisodeTask.Statement.Fails statement) :
      FailStatement now code message _ (updateTask id statement)
  | import (id) : FailStatement now code message _
      (markActiveImportTerminalFailure id code message)
  | cleanup (id) : FailStatement now code message _
      (markActiveCleanupTerminalFailure id code message)
  | scan (id) : FailStatement now code message _ (failEmbyScanRun now id .failed code message)

/-- The statements by which an operation that is cancelled cancels its resource. -/
inductive CancelStatement (now : Timestamp) (operation : Operation) :
    (α : Type) → ResourcesTx (Option α) → Prop where
  | resolution (id) : CancelStatement now operation _ (markAgentResolutionOperationTerminal id
      .cancelled "operation_cancelled" "the Agent resolution was cancelled")
  | scan (id) : CancelStatement now operation _
      (failEmbyScanRun now id .cancelled "operation_cancelled" "the Emby scan was cancelled")
  | search (id) : CancelStatement now operation _ (markSearchRunCancelled id)
  | cleanup (id) : CancelStatement now operation _ (cancelActiveCleanup id)
  | import (id) : CancelStatement now operation _ (cancelActiveImport id)
  | task {id statement} (hresource : operation.resource = some (.episodeTask, id))
      (kind : EpisodeTask.Statement.Stops statement) :
      CancelStatement now operation _ (updateTask id statement)

/-- A computation of such statements and of events. The feed entry of a download fails with it. -/
inductive Ends (S : (α : Type) → ResourcesTx (Option α) → Prop) :
    ResourcesTx Unit → Prop where
  | done : Ends S (pure ())
  | event {topic resource operationID data} : Ends S (appendEvent topic resource operationID data)
  | statement {α text update event} (h : S α update) (hevent : ∀ a, Ends S (event a)) :
      Ends S (thenEvent text update event)
  | entry {text id code message retryable rest} (h : Ends S rest) :
      Ends S (context text (markDownloadRSSEntryEnqueueFailed id code message retryable) >>=
        fun _ => rest)

section Ends

variable {now : Timestamp} {operation : Operation}

theorem failResource_ends {code message : String} {retryable : Bool} :
    Ends (FailStatement now code message)
      (failResource now operation code message retryable) := by
  have media {id : UUID} : Ends (FailStatement now code message)
      (failTaskMediaResource operation id code message) := by
    unfold failTaskMediaResource
    split
    · exact .statement (.task _ (.video _ _)) fun _ => .event
    · exact .statement (.task _ (.subtitle _ _)) fun _ => .event
    · exact .statement (.task _ (.finalize _ _)) fun _ => .event
    · exact .done
  have download {id : UUID} : Ends (FailStatement now code message)
      (failDownloadPostEnqueueResource operation id code message) := by
    unfold failDownloadPostEnqueueResource
    split
    iterate 3 exact .statement (.download _ (by decide)) fun _ => .event
    exact .done
  unfold failResource
  split
  · exact .done
  split
  · exact .statement (.resolution _) fun _ => .event
  · exact .statement (.download _ (by decide)) fun _ => .entry .event
  iterate 3 exact download
  · exact .statement (.search _) fun _ => .event
  iterate 3 exact media
  · exact .statement (.import _) fun _ => .statement (.task _ (.import _ _)) fun _ => .event
  · exact .statement (.cleanup _) fun _ => .event
  · exact .statement (.scan _) fun _ => .event
  · exact .done

theorem cancelOperationResource_ends :
    Ends (CancelStatement now operation) (cancelOperationResource now operation) := by
  unfold cancelOperationResource
  split
  · exact .done
  next hresource =>
  split
  · exact .statement (.resolution _) fun _ => .event
  · exact .statement (.scan _) fun _ => .event
  · exact .statement (.search _) fun _ => .event
  · exact .statement (.cleanup _) fun _ => .event
  · exact .statement (.import _) fun _ => .statement (.task hresource .import) fun _ => .event
  · exact .statement (.task hresource .video) fun _ => .event
  · exact .statement (.task hresource .subtitle) fun _ => .event
  · exact .statement (.task hresource .finalize) fun _ => .event
  · exact .done

variable {S : (α : Type) → ResourcesTx (Option α) → Prop} {m : ResourcesTx Unit}

/-- Such a computation keeps what its statements and the events keep. -/
theorem Ends.keeps {I} (h : Ends S m)
    (hevents : ∀ r events, I r → I { r with events }) (hentries : rssEntriesSlot.Outside I)
    (hS : ∀ {α update}, S α update → update.Keeps I) : m.Keeps I := by
  induction h with
  | done => exact Tx.Keeps.pure
  | event => exact keeps_appendEvent hevents
  | statement h _ ih =>
    refine (keeps_context (hS h)).bind fun row => ?_
    cases row with
    | none => exact Tx.Keeps.pure
    | some a => exact ih a
  | entry _ ih =>
    refine (keeps_context ?_).bind fun _ => ih
    exact Tx.Keeps.get.bind fun _ => Slot.keeps_update hentries

end Ends

end EmbyAuto
