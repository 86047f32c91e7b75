import EmbyAuto.Operation.Scheduler

/-!
# The updates of an episode task

The remaining statements of `media.sql`, `tasks.sql`, `retries.sql` and `deletions.sql` that
update a row of `episode_tasks`. A task has three status columns: `state`, and one column for
each of its media branches. Two workers move the branches, and the row is finalised when both
are ready.

A subquery on another table is a Boolean argument of the statement on the row; the query on
the database computes it.

## Main definitions

* `EpisodeTask.startVideo`, `EpisodeTask.markVideoReady`, `EpisodeTask.markFinalizingIfReady`
  and the statements after them: the transitions of one row
* `markTaskReviewed`, `markTaskImportQueued` and the queries after them: the same with their
  subqueries
-/

namespace EmbyAuto

open Relational Resources

namespace EpisodeTask

/-- Both media branches are done. -/
def bothReady (t : EpisodeTask) : Bool :=
  t.videoState = .videoReady && t.subtitleState = .assReady

/-- `error_code = NULL, error_message = NULL, version = version + 1`. -/
def clearError (t : EpisodeTask) : EpisodeTask :=
  { t with errorCode := none, errorMessage := none, version := t.version + 1 }

/-- The same with `failure_stage = NULL`. -/
def clearFailure (t : EpisodeTask) : EpisodeTask :=
  { t.clearError with failureStage := none }

/-- `state IN ('media_queued', 'processing', 'failed')`. -/
def mediaStartable (t : EpisodeTask) : Bool :=
  t.state = .mediaQueued || t.state = .processing || t.state = .failed

/-- `CASE WHEN state = 'media_queued' THEN 'processing' ELSE state END`. -/
def startedState (t : EpisodeTask) : TaskState :=
  if t.state = .mediaQueued then .processing else t.state

/-! ## The media branches -/

def startVideo : Statement where
  guard t := t.mediaStartable && t.videoActive
  set t := { t.clearError with state := t.startedState, videoState := .transcoding }

def startSubtitle : Statement where
  guard t := t.mediaStartable && t.subtitleActive
  set t := { t.clearError with
    state := t.startedState, subtitleState := .extractingOrConverting }

def markVideoReady : Statement where
  guard t := t.videoActive
  set t := { t with videoState := .videoReady, version := t.version + 1 }

def markSubtitleReady : Statement where
  guard t := t.subtitleActive
  set t := { t with subtitleState := .assReady, version := t.version + 1 }

def markFinalizingIfReady : Statement where
  guard t := t.state = .processing && t.bothReady
  set t := { t with state := .finalizing, version := t.version + 1 }

/-! ## Finalisation, review and import -/

def markAwaitingReview : Statement where
  guard t := t.state = .finalizing && t.bothReady
  set t := { t.clearError with state := .awaitingReview }

def markReviewed (decision : ReviewDecision) (expectedVersion : Int) (hasArtifactSet : Bool) :
    Statement where
  guard t := t.state = .awaitingReview && t.version = expectedVersion && t.bothReady &&
    hasArtifactSet
  set t := { t.clearError with state := decision.state }

def markImportQueued (expectedVersion : Int) (hasApprovedReview hasArtifactSet : Bool) :
    Statement where
  guard t := t.state = .approved && t.version = expectedVersion && hasApprovedReview &&
    hasArtifactSet
  set t := { t.clearError with state := .importQueued }

def startImport : Statement where
  guard t := t.state = .importQueued || t.state = .importing
  set t := { t with state := .importing, version := t.version + 1 }

def markImported : Statement where
  guard t := t.state = .importing
  set t := { t.clearFailure with state := .imported }

/-! ## Retries -/

/-- Requeues the branches that failed, and those that the cancellation of the whole task
stopped. -/
def requeueFailedMediaBranches (expectedVersion : Int) : Statement where
  guard t := t.version = expectedVersion &&
    ((t.state = .failed && (t.videoState = .failed || t.subtitleState = .failed)) ||
      (t.state = .processing && (t.videoState = .failed || t.subtitleState = .failed)) ||
      (t.state = .cancelled &&
        (t.videoState = .failed || t.videoState = .cancelled || t.subtitleState = .failed ||
          t.subtitleState = .cancelled) &&
        (t.videoState = .failed || t.videoState = .cancelled || t.videoState = .videoReady) &&
        (t.subtitleState = .failed || t.subtitleState = .cancelled ||
          t.subtitleState = .assReady)))
  set t := { t.clearFailure with
    state := if t.state = .failed ∨ t.state = .cancelled then .processing else t.state
    videoState :=
      if t.videoState = .failed ∨ (t.state = .cancelled ∧ t.videoState = .cancelled) then
        .transcodeQueued
      else t.videoState
    subtitleState :=
      if t.subtitleState = .failed ∨ (t.state = .cancelled ∧ t.subtitleState = .cancelled) then
        .subtitleQueued
      else t.subtitleState }

def requeueFinalizeBranch : Statement where
  guard t := t.state = .failed && t.bothReady && t.failureStage = some .finalize
  set t := { t.clearFailure with state := .finalizing }

def requeueImportBranch (hasFailedImport : Bool) : Statement where
  guard t := t.state = .failed && t.failureStage = some .import && hasFailedImport
  set t := { t.clearFailure with state := .importQueued }

/-- The state after the media branches in which a cancelled task resumes. -/
inductive ResumeState where
  | finalizing | importQueued
  deriving DecidableEq

def ResumeState.state : ResumeState → TaskState
  | finalizing => .finalizing
  | importQueued => .importQueued

def requeueCancelledAfterMedia (next : ResumeState) (expectedVersion : Int)
    (hasSucceededImport : Bool) : Statement where
  guard t := t.state = .cancelled && t.bothReady && t.version = expectedVersion &&
    !hasSucceededImport
  set t := { t.clearFailure with state := next.state }

def markCleanupRetryRequested (expectedVersion : Int) (hasFailedCleanup : Bool) : Statement where
  guard t := t.state = .imported && t.version = expectedVersion && hasFailedCleanup
  set t := { t with version := t.version + 1 }

/-! ## Cancellation of the whole task -/

/-- The cancellation of a task stops the branches that are still active. -/
def cancelIfActive (expectedVersion : Int) : Statement where
  guard t := t.state ≠ .imported && t.state ≠ .cancelled && t.state ≠ .rejected &&
    t.version = expectedVersion
  set t := { t.cancel with
    videoState := if t.videoActive then .cancelled else t.videoState
    subtitleState := if t.subtitleActive then .cancelled else t.subtitleState }

/-- The deletion of an acquisition stops every branch that is not ready. -/
def cancelForDeletion : Statement where
  guard t := t.state ≠ .imported && t.state ≠ .cancelled
  set t := { t.cancel with
    videoState := if t.videoState = .videoReady then t.videoState else .cancelled
    subtitleState := if t.subtitleState = .assReady then t.subtitleState else .cancelled }

end EpisodeTask

namespace Resources

def mediaArtifactsSlot : Slot Resources mediaArtifactSchema where
  table := mediaArtifacts
  put r t := { r with mediaArtifacts := t }
  put_table := Eq.refl

def artifactSetsSlot : Slot Resources artifactSetSchema where
  table := artifactSets
  put r t := { r with artifactSets := t }
  put_table := Eq.refl

def reviewsSlot : Slot Resources reviewSchema where
  table := reviews
  put r t := { r with reviews := t }
  put_table := Eq.refl

variable (r : Resources) (taskID : UUID)

/-- `EXISTS (SELECT 1 FROM artifact_sets WHERE task_id = ...)`. -/
def hasArtifactSet : Bool := r.artifactSets.rows.any fun s => s.taskID = taskID

def hasApprovedReview : Bool :=
  r.reviews.rows.any fun v => v.taskID = taskID && v.decision = .approved

def hasImport (status : ImportStatus) : Bool :=
  r.imports.rows.any fun i => i.taskID = taskID && i.status = status

def hasCleanup (status : CleanupStatus) : Bool :=
  r.cleanupRuns.rows.any fun c => c.taskID = taskID && c.status = status

end Resources

/-! ## Queries -/

section Queries

variable (id : UUID)

def lockEpisodeTask : ResourcesTx (Option EpisodeTask) :=
  episodeTasksSlot.selectOne fun t => t.id = id

/-- Runs a statement that reads other tables on the task with the given identifier. -/
def updateTaskWith (statement : Resources → EpisodeTask.Statement) :
    ResourcesTx (Option EpisodeTask) := do
  updateTask id (statement (← get))

def markTaskReviewed (decision : ReviewDecision) (expectedVersion : Int) :
    ResourcesTx (Option EpisodeTask) :=
  updateTaskWith id fun r =>
    EpisodeTask.markReviewed decision expectedVersion (r.hasArtifactSet id)

def markTaskImportQueued (expectedVersion : Int) : ResourcesTx (Option EpisodeTask) :=
  updateTaskWith id fun r =>
    EpisodeTask.markImportQueued expectedVersion (r.hasApprovedReview id) (r.hasArtifactSet id)

def requeueTaskImportBranch : ResourcesTx (Option EpisodeTask) :=
  updateTaskWith id fun r => EpisodeTask.requeueImportBranch (r.hasImport id .failed)

def requeueCancelledTaskAfterMedia (next : EpisodeTask.ResumeState) (expectedVersion : Int) :
    ResourcesTx (Option EpisodeTask) :=
  updateTaskWith id fun r =>
    EpisodeTask.requeueCancelledAfterMedia next expectedVersion (r.hasImport id .succeeded)

def markTaskCleanupRetryRequested (expectedVersion : Int) :
    ResourcesTx (Option EpisodeTask) :=
  updateTaskWith id fun r =>
    EpisodeTask.markCleanupRetryRequested expectedVersion (r.hasCleanup id .failed)

def cancelAcquisitionTasksForDeletion (acquisitionID : UUID) :
    ResourcesTx (List EpisodeTask) :=
  episodeTasksSlot.update
    (fun t => t.acquisitionID = acquisitionID && EpisodeTask.cancelForDeletion.guard t)
    EpisodeTask.cancelForDeletion.set

end Queries

end EmbyAuto
