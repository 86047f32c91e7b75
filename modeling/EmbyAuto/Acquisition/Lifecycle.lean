import EmbyAuto.Catalog.Materialization
import EmbyAuto.Task.Safety

/-!
# The lifecycle that an acquisition shows

The state of an acquisition is not stored. It is derived from its download and from summaries of its
tasks: each of nine stages counts the tasks that are done, have failed and so on, and the status of
the acquisition is read off the stages. Every stage has its own rule for which tasks it counts, so
that what one stage takes for done may hide what another column says.

## Main definitions

* `AcquisitionTaskSummary`, `taskSummaries`: a task with its artifacts, its review and its import
* `mediaBranchAcquisitionStage` and the other stages
* `deriveAcquisitionLifecycle`: the stages, the current stage, the progress and the status
* `AcquisitionTaskSummary.ShowsFailure`: a stage counts the task as failed

## Main results

* `stage_failed_iff`: a stage has failed exactly when it counts a task as failed
* `aggregateStatus_failed_iff`: when an acquisition with a failed task is shown as failed
* `failed_finalisation_hidden`: a task that was finalised before, and failed when it was finalised
  again after a cancellation, is shown as waiting for its review
-/

namespace EmbyAuto

open Relational Relation

/-! ## Summaries -/

/-- What the stages read of a task. -/
structure AcquisitionTaskSummary where
  state : TaskState
  videoState : VideoState
  subtitleState : SubtitleState
  artifactBasename : String
  reviewDecision : Option ReviewDecision
  importStatus : Option ImportStatus
  failureStage : Option TaskFailureStage
  deriving DecidableEq

structure AcquisitionDownloadSummary where
  status : DownloadStatus
  progress : Rat
  failureStage : Option DownloadFailureStage
  errorCode : String

structure AcquisitionMappingCompleteness where
  selectedVideoCount : Nat
  mappedVideoCount : Nat
  complete : Bool

structure AcquisitionView where
  mediaType : MediaType
  download : Option AcquisitionDownloadSummary
  tasks : List AcquisitionTaskSummary
  mapping : AcquisitionMappingCompleteness

section Rows

variable (r : Resources)

/-- The row of `ListAcquisitionTaskSummariesByAcquisitionIDs` for a task. -/
def taskSummary (t : EpisodeTask) : AcquisitionTaskSummary where
  state := t.state
  videoState := t.videoState
  subtitleState := t.subtitleState
  artifactBasename := ((r.artifactSets.rows.find? fun s => s.taskID = t.id).map
    (·.basename)).getD ""
  reviewDecision := (r.reviews.rows.find? fun v => v.taskID = t.id).map (·.decision)
  importStatus := (latestImport r t.id).map (·.status)
  failureStage := t.failureStage

/-- The source file of the task belongs to a download that is not deleted. -/
def sourceVisible (t : EpisodeTask) : Bool :=
  r.downloadFiles.rows.any fun f => f.id = t.sourceVideoFileID &&
    r.downloads.rows.any fun d => d.id = f.downloadID && d.deletedAt.isNone

def taskSummaries (acquisitionID : UUID) : List AcquisitionTaskSummary :=
  (r.episodeTasks.rows.filter fun t => t.acquisitionID = acquisitionID && sourceVisible r t).map
    (taskSummary r)

end Rows

/-! ## Stages -/

inductive StageKey where
  | source | download | mapping | transcode | subtitle | rename | organize | review | import
  deriving DecidableEq

inductive StageStatus where
  | pending | blocked | running | waiting | completed | failed | rejected | cancelled | skipped
  deriving DecidableEq

structure AcquisitionStageView where
  key : StageKey
  status : StageStatus := .pending
  progress : Rat := 0
  completedItems : Nat := 0
  totalItems : Nat := 0

/-- `max(0, min(1, progress))`. -/
def clampProgress (progress : Rat) : Rat :=
  if progress ≤ 0 then 0 else if 1 ≤ progress then 1 else progress

def downloadAcquisitionStage (download : Option AcquisitionDownloadSummary) :
    AcquisitionStageView :=
  match download with
  | none => { key := .download, totalItems := 1 }
  | some download =>
    let stage : AcquisitionStageView :=
      { key := .download, totalItems := 1, progress := clampProgress download.progress }
    let done : AcquisitionStageView :=
      { key := .download, totalItems := 1, status := .completed, progress := 1,
        completedItems := 1 }
    match download.status with
    | .completed | .selectingFiles | .materialized => done
    | .failed =>
      -- the download itself is done when only its tasks could not be made
      if download.failureStage = some .materialize ∧ 1 ≤ download.progress then done
      else { stage with status := .failed }
    | .cancelled => { stage with status := .cancelled }
    | .enqueuePending | .fileResolutionPending | .downloading => { stage with status := .running }

def mappingAcquisitionStage (view : AcquisitionView) (downloadStatus : Option DownloadStatus) :
    AcquisitionStageView :=
  if view.mediaType = .movie then { key := .mapping, status := .skipped, progress := 1 }
  else
    let stage : AcquisitionStageView :=
      { key := .mapping
        completedItems := view.mapping.mappedVideoCount
        totalItems := view.mapping.selectedVideoCount
        progress :=
          if 0 < view.mapping.selectedVideoCount then
            view.mapping.mappedVideoCount / view.mapping.selectedVideoCount
          else 0 }
    if view.mapping.complete then { stage with status := .completed, progress := 1 }
    else match downloadStatus with
      | some .failed => { stage with status := .blocked }
      | some .cancelled => { stage with status := .cancelled }
      | some .completed | some .selectingFiles | some .materialized =>
        { stage with status := .waiting }
      | _ => stage

/-- What a stage counts a task as. -/
inductive StageMark where
  | completed | failed | rejected | cancelled | running | queued | waiting
  deriving DecidableEq

/-- The number of tasks with a mark. -/
def countMark (marks : List (Option StageMark)) (mark : StageMark) : Nat := marks.count (some mark)

/-- The status of a stage in which workers process the tasks. -/
def workStatus (marks : List (Option StageMark)) : StageStatus :=
  let count := countMark marks
  if 0 < count .failed then .failed
  else if count .completed = marks.length then .completed
  else if 0 < count .cancelled ∧ count .completed + count .cancelled = marks.length then .cancelled
  else if 0 < count .running ∨ 0 < count .completed then .running
  else .pending

/-- The states that the two media branches have in common. -/
inductive BranchState where
  | queued | running | ready | failed | cancelled
  deriving DecidableEq

def VideoState.branch : VideoState → BranchState
  | transcodeQueued => .queued
  | transcoding => .running
  | videoReady => .ready
  | failed => .failed
  | cancelled => .cancelled

def SubtitleState.branch : SubtitleState → BranchState
  | subtitleQueued => .queued
  | extractingOrConverting => .running
  | assReady => .ready
  | failed => .failed
  | cancelled => .cancelled

namespace MediaBranch

def stageKey : MediaBranch → StageKey
  | video => .transcode
  | subtitle => .subtitle

/-- `branchFailureStage`. -/
def failureStage : MediaBranch → TaskFailureStage
  | video => .video
  | subtitle => .subtitle

def stateOf (branch : MediaBranch) (t : AcquisitionTaskSummary) : BranchState :=
  match branch with
  | video => t.videoState.branch
  | subtitle => t.subtitleState.branch

end MediaBranch

namespace AcquisitionTaskSummary

variable (t : AcquisitionTaskSummary)

def branchMark (branch : MediaBranch) : Option StageMark :=
  let state := branch.stateOf t
  if state = .ready then some .completed
  else if state = .failed ∨ (t.state = .failed ∧ t.failureStage = some branch.failureStage) then
    some .failed
  else if state = .cancelled then some .cancelled
  else if state = .running then some .running
  else none

/-- An artifact set is taken for a finished task, whatever the state of the task. -/
def artifactMark : Option StageMark :=
  if t.artifactBasename ≠ "" then some .completed
  else if t.state = .failed ∧ t.failureStage = some .finalize then some .failed
  else if t.state = .cancelled then some .cancelled
  else if t.state = .finalizing then some .running
  else none

def reviewMark : Option StageMark :=
  match t.reviewDecision with
  | some .approved => some .completed
  | some .rejected => some .rejected
  | none =>
    if t.state = .awaitingReview then some .waiting
    else if t.state = .cancelled then some .cancelled
    else none

def importMark : Option StageMark :=
  if t.reviewDecision = some .rejected ∨ t.state = .rejected then some .rejected
  else if t.state = .imported ∧ t.importStatus = some .succeeded then some .completed
  else if (t.state = .failed ∧ t.failureStage = some .import) ∨ t.importStatus = some .failed then
    some .failed
  else if t.state = .cancelled ∨ t.importStatus = some .cancelled then some .cancelled
  else if t.state = .importing ∨ t.importStatus = some .running then some .running
  else if t.state = .importQueued ∨ t.importStatus = some .queued then some .queued
  else if t.state = .approved then some .waiting
  else none

end AcquisitionTaskSummary

section Stages

variable (tasks : List AcquisitionTaskSummary)

def mediaBranchAcquisitionStage (branch : MediaBranch) : AcquisitionStageView :=
  let marks := tasks.map (·.branchMark branch)
  let completed := countMark marks .completed
  let status := workStatus marks
  if tasks = [] then { key := branch.stageKey }
  else
    { key := branch.stageKey
      status
      progress :=
        if status = .completed then 1
        else (completed + countMark marks .running * (1 / 2)) / tasks.length
      completedItems := completed
      totalItems := tasks.length }

def artifactAcquisitionStage (key : StageKey) : AcquisitionStageView :=
  let marks := tasks.map (·.artifactMark)
  let completed := countMark marks .completed
  let status := workStatus marks
  if tasks = [] then { key }
  else
    { key
      status
      progress := if status = .completed then 1 else completed / tasks.length
      completedItems := completed
      totalItems := tasks.length }

def reviewAcquisitionStage : AcquisitionStageView :=
  let marks := tasks.map (·.reviewMark)
  let rejected := countMark marks .rejected
  let completed := countMark marks .completed + rejected
  let cancelled := countMark marks .cancelled
  let status : StageStatus :=
    if 0 < rejected then .rejected
    else if completed = tasks.length then .completed
    else if 0 < cancelled ∧ completed + cancelled = tasks.length then .cancelled
    else if 0 < countMark marks .waiting ∨ 0 < completed then .waiting
    else .pending
  if tasks = [] then { key := .review }
  else
    { key := .review
      status
      progress := if status = .completed then 1 else completed / tasks.length
      completedItems := completed
      totalItems := tasks.length }

def importAcquisitionStage : AcquisitionStageView :=
  let marks := tasks.map (·.importMark)
  let count := countMark marks
  let active := count .running + count .queued
  let status : StageStatus :=
    if 0 < count .failed then .failed
    else if count .rejected = tasks.length then .skipped
    else if 0 < count .rejected then .rejected
    else if count .completed = tasks.length then .completed
    else if 0 < count .cancelled ∧
      count .completed + count .cancelled = tasks.length then .cancelled
    else if 0 < active ∨ 0 < count .completed then .running
    else if 0 < count .waiting then .waiting
    else .pending
  if tasks = [] then { key := .import }
  else
    { key := .import
      status
      progress :=
        if status = .completed ∨ status = .skipped then 1
        else (count .completed + count .running * (1 / 2) + count .queued * (1 / 4)) / tasks.length
      completedItems := count .completed
      totalItems := tasks.length }

end Stages

/-! ## The lifecycle -/

def currentAcquisitionStage (stages : List AcquisitionStageView) : StageKey :=
  let first (status : StageStatus) := stages.find? fun stage => stage.status = status
  match first .failed <|> first .rejected <|> first .cancelled with
  | some stage => stage.key
  | none =>
    match stages.find? fun stage =>
        decide (stage.status ∈ [.running, .waiting, .blocked, .pending]) with
    | some stage => stage.key
    | none => .import

def acquisitionStageWeight : StageKey → Rat
  | .source => 2 / 100
  | .download => 28 / 100
  | .mapping => 5 / 100
  | .transcode => 35 / 100
  | .subtitle => 10 / 100
  | .rename => 3 / 100
  | .organize => 3 / 100
  | .review => 5 / 100
  | .import => 9 / 100

def acquisitionProgress (stages : List AcquisitionStageView) : Rat :=
  let counted := stages.filter fun stage => stage.status ≠ .skipped
  let totalWeight := (counted.map fun stage => acquisitionStageWeight stage.key).sum
  let weighted := (counted.map fun stage =>
    acquisitionStageWeight stage.key * clampProgress stage.progress).sum
  if totalWeight = 0 then 0 else clampProgress (weighted / totalWeight)

def acquisitionWaitsForMapping (view : AcquisitionView) : Bool :=
  view.mediaType = .episode && !view.mapping.complete && view.download.any fun download =>
    download.status = .failed && download.failureStage = some .materialize &&
      download.errorCode ∈ mappingFailureCodes

def acquisitionStageStatus (stages : List AcquisitionStageView) (status : StageStatus) : Bool :=
  stages.any fun stage => stage.status = status

def acquisitionStageKeyStatus (stages : List AcquisitionStageView) (key : StageKey) :
    Option StageStatus :=
  (stages.find? fun stage => stage.key = key).map (·.status)

inductive AggregateStatus where
  | pending | downloading | mappingPending | materializing | processing | awaitingReview
  | importing | completed | failed | rejected | cancelled
  deriving DecidableEq

def acquisitionAggregateStatus (view : AcquisitionView) (stages : List AcquisitionStageView)
    (downloadStatus : Option DownloadStatus) : AggregateStatus :=
  if view.tasks ≠ [] ∧ view.tasks.all (fun t => t.state = .cancelled) then .cancelled
  else if (downloadStatus = some .failed ∧ !acquisitionWaitsForMapping view) ∨
      acquisitionStageStatus stages .failed then .failed
  else if acquisitionStageKeyStatus stages .review = some .rejected ∨
      acquisitionStageKeyStatus stages .import = some .rejected then .rejected
  else if downloadStatus = some .cancelled ∨
    acquisitionStageStatus stages .cancelled then .cancelled
  else if acquisitionStageKeyStatus stages .import = some .completed then .completed
  else match currentAcquisitionStage stages with
    | .source => .pending
    | .download => if downloadStatus = none then .pending else .downloading
    | .mapping => .mappingPending
    | .transcode | .subtitle | .rename | .organize =>
      if downloadStatus = some .completed ∨
        downloadStatus = some .selectingFiles then .materializing
      else .processing
    | .review => .awaitingReview
    | .import => .importing

structure AcquisitionLifecycle where
  stages : List AcquisitionStageView
  currentStage : StageKey
  overallProgress : Rat
  aggregateStatus : AggregateStatus

def acquisitionStages (view : AcquisitionView) (downloadStatus : Option DownloadStatus) :
    List AcquisitionStageView :=
  let mappingDownloadStatus :=
    if acquisitionWaitsForMapping view then some .completed else downloadStatus
  [ { key := .source, status := .completed, progress := 1, completedItems := 1, totalItems := 1 },
    downloadAcquisitionStage view.download,
    mappingAcquisitionStage view mappingDownloadStatus,
    mediaBranchAcquisitionStage view.tasks .video,
    mediaBranchAcquisitionStage view.tasks .subtitle,
    artifactAcquisitionStage view.tasks .rename,
    artifactAcquisitionStage view.tasks .organize,
    reviewAcquisitionStage view.tasks,
    importAcquisitionStage view.tasks ]

def deriveAcquisitionLifecycle (view : AcquisitionView) (downloadStatus : Option DownloadStatus) :
    AcquisitionLifecycle :=
  let stages := acquisitionStages view downloadStatus
  { stages
    currentStage := currentAcquisitionStage stages
    overallProgress := acquisitionProgress stages
    aggregateStatus := acquisitionAggregateStatus view stages downloadStatus }

/-! ## Failed stages -/

theorem workStatus_failed_iff {marks} : workStatus marks = .failed ↔ some .failed ∈ marks := by
  rw [← List.count_pos_iff, ← countMark, workStatus]
  split_ifs with hfailed <;> simp [hfailed]

variable {t : AcquisitionTaskSummary} {downloadStatus : Option DownloadStatus}

section FailedStages

variable {tasks : List AcquisitionTaskSummary}

theorem mediaBranchAcquisitionStage_failed_iff {branch : MediaBranch} :
    (mediaBranchAcquisitionStage tasks branch).status = .failed ↔
      ∃ t ∈ tasks, t.branchMark branch = some .failed := by
  rw [mediaBranchAcquisitionStage]
  by_cases hnil : tasks = []
  · simp [hnil]
  · rw [if_neg hnil]
    exact workStatus_failed_iff.trans List.mem_map

theorem artifactAcquisitionStage_failed_iff {key : StageKey} :
    (artifactAcquisitionStage tasks key).status = .failed ↔
      ∃ t ∈ tasks, t.artifactMark = some .failed := by
  rw [artifactAcquisitionStage]
  by_cases hnil : tasks = []
  · simp [hnil]
  · rw [if_neg hnil]
    exact workStatus_failed_iff.trans List.mem_map

theorem reviewAcquisitionStage_ne_failed : (reviewAcquisitionStage tasks).status ≠ .failed := by
  simp only [reviewAcquisitionStage]
  split_ifs <;> simp

theorem importAcquisitionStage_failed_iff :
    (importAcquisitionStage tasks).status = .failed ↔
      ∃ t ∈ tasks, t.importMark = some .failed := by
  have hmarks : 0 < countMark (tasks.map (·.importMark)) .failed ↔
      ∃ t ∈ tasks, t.importMark = some .failed := List.count_pos_iff.trans List.mem_map
  simp only [importAcquisitionStage]
  by_cases hnil : tasks = []
  · simp [hnil]
  · rw [if_neg hnil, ← hmarks]
    split_ifs with hfailed <;> simp [hfailed]

theorem mappingAcquisitionStage_ne_failed {view} :
    (mappingAcquisitionStage view downloadStatus).status ≠ .failed := by
  rw [mappingAcquisitionStage]
  split
  · simp
  · dsimp only
    split
    · simp
    · split <;> simp

end FailedStages

/-- The download has failed, and not only for want of tasks. -/
def AcquisitionDownloadSummary.ShowsFailure (download : AcquisitionDownloadSummary) : Prop :=
  download.status = .failed ∧ ¬ (download.failureStage = some .materialize ∧ 1 ≤ download.progress)

theorem downloadAcquisitionStage_failed_iff {download} :
    (downloadAcquisitionStage download).status = .failed ↔
      ∃ d ∈ download, d.ShowsFailure := by
  cases download with
  | none => simp [downloadAcquisitionStage]
  | some d =>
    simp only [downloadAcquisitionStage, Option.mem_some_iff, exists_eq_left',
      AcquisitionDownloadSummary.ShowsFailure]
    cases d.status with
    | failed =>
      split_ifs with hdone
      · simp [hdone]
      · simp [hdone]
    | _ => simp

/-- A stage counts the task as failed: one of its branches has failed, or its finalisation before
there was an artifact set, or its import unless the review or a success hides it. -/
def AcquisitionTaskSummary.ShowsFailure (t : AcquisitionTaskSummary) : Prop :=
  t.videoState = .failed ∨ t.subtitleState = .failed ∨
    (t.failureStage = some .finalize ∧ t.artifactBasename = "") ∨
    ((t.failureStage = some .import ∨ t.importStatus = some .failed) ∧
      t.reviewDecision ≠ some .rejected ∧ t.state ≠ .rejected ∧
      ¬ (t.state = .imported ∧ t.importStatus = some .succeeded))

/-- How the columns of a summary fit together. -/
structure AcquisitionTaskSummary.Consistent (t : AcquisitionTaskSummary) : Prop where
  staged : t.failureStage.isSome = true ↔ t.state = .failed
  branch : ∀ branch : MediaBranch, t.failureStage = some branch.failureStage →
    branch.stateOf t = .failed

theorem AcquisitionTaskSummary.Consistent.state (h : t.Consistent) {stage} :
    (t.state = .failed ∧ t.failureStage = some stage) ↔
      t.failureStage = some stage := by
  refine ⟨fun hboth => hboth.2, fun hstage => ⟨h.staged.mp ?_, hstage⟩⟩
  rw [hstage]
  rfl

theorem AcquisitionTaskSummary.Consistent.branchMark_failed_iff (h : t.Consistent)
    {branch : MediaBranch} : t.branchMark branch = some .failed ↔ branch.stateOf t = .failed := by
  have hbranch := h.branch branch
  simp only [branchMark, h.state]
  split_ifs with hready hfailed
  · simp [hready]
  · simpa using hfailed.elim id hbranch
  all_goals simp_all

theorem MediaBranch.stateOf_video_failed_iff :
    video.stateOf t = .failed ↔ t.videoState = .failed := by
  rw [stateOf]
  cases t.videoState <;> simp [VideoState.branch]

theorem MediaBranch.stateOf_subtitle_failed_iff :
    subtitle.stateOf t = .failed ↔ t.subtitleState = .failed := by
  rw [stateOf]
  cases t.subtitleState <;> simp [SubtitleState.branch]

theorem AcquisitionTaskSummary.Consistent.artifactMark_failed_iff (h : t.Consistent) :
    t.artifactMark = some .failed ↔
      t.failureStage = some .finalize ∧ t.artifactBasename = "" := by
  simp only [artifactMark, h.state]
  split_ifs <;> simp_all

theorem AcquisitionTaskSummary.Consistent.importMark_failed_iff (h : t.Consistent) :
    t.importMark = some .failed ↔
      (t.failureStage = some .import ∨ t.importStatus = some .failed) ∧
        t.reviewDecision ≠ some .rejected ∧ t.state ≠ .rejected ∧
        ¬ (t.state = .imported ∧ t.importStatus = some .succeeded) := by
  simp only [importMark, h.state]
  by_cases hrejected : t.reviewDecision = some .rejected ∨ t.state = .rejected
  · rcases hrejected with hrejected | hrejected <;> simp [hrejected]
  · rw [if_neg hrejected]
    split_ifs <;> simp_all

/-- **A stage has failed exactly when it counts a task as failed.** -/
theorem stage_failed_iff {view} (h : ∀ t ∈ view.tasks, t.Consistent) :
    acquisitionStageStatus (acquisitionStages view downloadStatus) .failed = true ↔
      (∃ d ∈ view.download, d.ShowsFailure) ∨ ∃ t ∈ view.tasks, t.ShowsFailure := by
  have hmark (mark : AcquisitionTaskSummary → Option StageMark) (shows : AcquisitionTaskSummary →
      Prop)
      (hiff : ∀ t ∈ view.tasks, mark t = some .failed ↔ shows t) :
      (∃ t ∈ view.tasks, mark t = some .failed) ↔ ∃ t ∈ view.tasks, shows t :=
    exists_congr fun t => and_congr_right (hiff t)
  simp only [acquisitionStageStatus, acquisitionStages, List.any_cons, Bool.or_eq_true,
    decide_eq_true_eq, downloadAcquisitionStage_failed_iff,
    mediaBranchAcquisitionStage_failed_iff, artifactAcquisitionStage_failed_iff,
    importAcquisitionStage_failed_iff, mappingAcquisitionStage_ne_failed,
    reviewAcquisitionStage_ne_failed]
  rw [hmark _ _ fun t ht =>
    (h t ht).branchMark_failed_iff.trans MediaBranch.stateOf_video_failed_iff,
    hmark _ _ fun t ht =>
      (h t ht).branchMark_failed_iff.trans MediaBranch.stateOf_subtitle_failed_iff,
    hmark _ _ fun t ht => (h t ht).artifactMark_failed_iff,
    hmark _ _ fun t ht => (h t ht).importMark_failed_iff]
  simp [AcquisitionTaskSummary.ShowsFailure, and_or_left, exists_or]

/-- The status is `failed` unless every task is cancelled. -/
theorem acquisitionAggregateStatus_failed_iff {view stages}
    (hrunning : ∃ t ∈ view.tasks, t.state ≠ .cancelled) :
    acquisitionAggregateStatus view stages downloadStatus = .failed ↔
      (downloadStatus = some .failed ∧ acquisitionWaitsForMapping view = false) ∨
        acquisitionStageStatus stages .failed = true := by
  obtain ⟨t, ht, hstate⟩ := hrunning
  have hstopped : ¬ (view.tasks ≠ [] ∧
      view.tasks.all (fun t => decide (t.state = .cancelled)) = true) := fun h =>
    hstate (of_decide_eq_true (List.all_eq_true.mp h.2 t ht))
  simp only [acquisitionAggregateStatus, if_neg hstopped, Bool.not_eq_true']
  by_cases hfailed : (downloadStatus = some .failed ∧ acquisitionWaitsForMapping view = false) ∨
      acquisitionStageStatus stages .failed = true
  · simp [hfailed]
  · rw [if_neg hfailed]
    -- none of the other statuses is `failed`
    refine iff_of_false ?_ hfailed
    cases currentAcquisitionStage stages <;> dsimp only <;> split_ifs <;> simp

/-! ## Tasks of a run -/

/-- A failed branch is marked so. -/
structure EpisodeTask.BranchStaged (t : EpisodeTask) : Prop where
  video : t.failureStage = some .video → t.videoState = .failed
  subtitle : t.failureStage = some .subtitle → t.subtitleState = .failed

attribute [grind cases] EpisodeTask.BranchStaged

attribute [grind intro] EpisodeTask.BranchStaged

open EpisodeTask in
theorem TaskMove.branchStaged {c : Occasion} {t t' : EpisodeTask} (move : TaskMove c t t')
    (h : t.BranchStaged) : t'.BranchStaged := by
  cases move with
  -- only an active branch begins
  | begin kind guard => cases kind <;> grind
  | ready kind guard =>
    unfold join
    cases kind <;> split <;> grind
  | advance kind guard =>
    cases kind with
    | reviewed decision => cases decision <;> grind
    | _ => grind
  | fail kind guard =>
    cases kind with
    | finalize | «import» => constructor <;> rintro ⟨⟩
    | _ => grind
  -- the other moves leave no failure stage
  | stop kind guard => cases kind <;> constructor <;> rintro ⟨⟩
  | cancel kind guard => cases kind <;> constructor <;> rintro ⟨⟩
  | resume kind guard => cases kind <;> constructor <;> rintro ⟨⟩

section Runs

variable {hashes : Hashes} {condition : Database → TaskCall → Prop} {db₀ db : Database}

theorem branchStaged_of_run (created : JustCreated db₀) (run : TaskRun hashes condition db₀ db) :
    ∀ t ∈ db.resources.episodeTasks.rows, t.BranchStaged := by
  have hfresh {t : EpisodeTask} (h : t.Fresh) : t.BranchStaged := by
    constructor <;> simp [h.failureStage]
  refine invariant_of_step (I := fun db => ∀ t ∈ db.resources.episodeTasks.rows, t.BranchStaged)
    (fun s s' step hs => ?_) run fun t ht => hfresh (created t ht).1
  cases step with
  | call call permitted =>
    obtain ⟨cancelled, evolves, -⟩ := call.run_tasksSettled permitted
    intro t' ht'
    obtain ⟨t, hstart, moves⟩ := evolves.tasks t' ht'
    refine invariant_of_step (fun _ _ move => move.branchStaged)
      moves ?_
    rcases hstart with ht | ⟨hnew, -⟩
    · exact hs t ht
    · exact hfresh hnew
  | elsewhere tasks => exact fun t ht => hs t (tasks t ht)

theorem taskSummaries_consistent (created : JustCreated db₀) (run : TaskRun hashes condition db₀ db)
    (acquisitionID : UUID) : ∀ t ∈ taskSummaries db.resources acquisitionID, t.Consistent := by
  intro summary hsummary
  obtain ⟨t, ht, rfl⟩ := List.mem_map.mp hsummary
  have hmem := List.mem_of_mem_filter ht
  have hstaged := ((tasksSound_of_run run created.sound).wellFormed t hmem).staged
  have hbranch := branchStaged_of_run created run t hmem
  refine ⟨hstaged, fun branch hstage => ?_⟩
  cases branch with
  | video => exact MediaBranch.stateOf_video_failed_iff.mpr (hbranch.video hstage)
  | subtitle => exact MediaBranch.stateOf_subtitle_failed_iff.mpr (hbranch.subtitle hstage)

/-- **When a failed task is reported.** In every database that a run reaches, an acquisition with a
failed task is shown as failed exactly when its download shows a failure or a stage counts one of
its tasks as failed. -/
theorem aggregateStatus_failed_iff (created : JustCreated db₀)
    (run : TaskRun hashes condition db₀ db) {acquisitionID : UUID} {view : AcquisitionView}
    (htasks : view.tasks = taskSummaries db.resources acquisitionID)
    (hfailed : ∃ t ∈ view.tasks, t.state = .failed) (downloadStatus : Option DownloadStatus) :
    (deriveAcquisitionLifecycle view downloadStatus).aggregateStatus = .failed ↔
      (downloadStatus = some .failed ∧ acquisitionWaitsForMapping view = false) ∨
        (∃ d ∈ view.download, d.ShowsFailure) ∨ ∃ t ∈ view.tasks, t.ShowsFailure := by
  obtain ⟨failed, hmem, hstate⟩ := hfailed
  have hrunning : failed.state ≠ .cancelled := by simp [hstate]
  exact (acquisitionAggregateStatus_failed_iff ⟨failed, hmem, hrunning⟩).trans
    (or_congr_right (stage_failed_iff
      (htasks ▸ taskSummaries_consistent created run acquisitionID)))

end Runs

/-! ## A failure that is shown, and one that is not -/

/-- Calls that are always permitted make a run. -/
theorem run_of_calls {hashes : Hashes} {calls : List TaskCall}
    (h : ∀ call ∈ calls, ∀ db, call.Permitted hashes db) (db : Database) :
    TaskRun hashes (fun _ _ => True) db (calls.foldl (TaskCall.run hashes) db) := by
  induction calls generalizing db with
  | nil => exact .refl
  | cons call calls ih =>
    have hstep : TaskStep hashes (fun _ _ => True) db (call.run hashes db) :=
      .call call (h call List.mem_cons_self db) trivial
    exact .head hstep (ih (fun c hc => h c (List.mem_cons_of_mem _ hc)) _)

/-- A task that was just created, with its acquisition, its download and its source file. -/
def acquiredTask : Database where
  operations := queuedTask.operations
  resources :=
    { queuedTask.resources with
      acquisitions := ⟨[{ id := 2, seriesID := 8 }], by decide⟩
      downloads := ⟨[{ id := 4, acquisitionID := 2, status := .materialized }], by decide⟩
      downloadFiles := ⟨[{ id := 3, downloadID := 4, fileIndex := 0, relativePath := "e1.mkv" }],
        by decide⟩ }

theorem acquiredTask_justCreated : JustCreated acquiredTask := queuedTask_justCreated

/-- What the page of the acquisition reads. -/
def acquiredView (tasks : List AcquisitionTaskSummary) : AcquisitionView where
  mediaType := .episode
  download := some { status := .materialized, progress := 1, failureStage := none, errorCode := "" }
  tasks
  mapping := { selectedVideoCount := 1, mappedVideoCount := 1, complete := true }

/-- The video worker fails for good. -/
def transcodeFailed : Database :=
  [ TaskCall.lifecycle (.start 1 12 1 "video"), .beginTaskMedia 1 .video,
    .lifecycle (.fail 2 12 1 "transcode_failed" "the encoder failed" false) ].foldl
      (TaskCall.run plainHashes) acquiredTask

theorem transcodeFailed_tasks : taskSummaries transcodeFailed.resources 2 =
    [{ state := .failed, videoState := .failed, subtitleState := .subtitleQueued
       artifactBasename := "", reviewDecision := none, importStatus := none
       failureStage := some .video }] := by
  decide +kernel

/-- A task whose video cannot be transcoded makes its acquisition fail. -/
theorem aggregateStatus_failed_transcode :
    JustCreated acquiredTask ∧
      TaskRun plainHashes (fun _ _ => True) acquiredTask transcodeFailed ∧
      (∃ t ∈ taskSummaries transcodeFailed.resources 2, t.state = .failed) ∧
      (deriveAcquisitionLifecycle (acquiredView (taskSummaries transcodeFailed.resources 2))
        (some .materialized)).aggregateStatus = .failed := by
  have hrun : TaskRun plainHashes (fun _ _ => True) acquiredTask transcodeFailed :=
    run_of_calls (by simp [TaskCall.Permitted]) _
  have hfailed : ∃ t ∈ taskSummaries transcodeFailed.resources 2, t.state = .failed := by
    rw [transcodeFailed_tasks]
    exact ⟨_, List.mem_singleton_self _, rfl⟩
  refine ⟨acquiredTask_justCreated, hrun, hfailed, ?_⟩
  refine (aggregateStatus_failed_iff acquiredTask_justCreated hrun rfl hfailed _).mpr
    (.inr (.inr ?_))
  show ∃ t ∈ taskSummaries transcodeFailed.resources 2, t.ShowsFailure
  rw [transcodeFailed_tasks]
  exact ⟨_, List.mem_singleton_self _, .inl rfl⟩

/-- The artifact that a media branch of the task reports. -/
def branchArtifact (kind : MediaKind) (operationID : UUID) (extension : String) :
    MediaArtifactCompletion where
  taskID := 1
  operationID
  sourceFileID := 3
  transcodeProfileID := 7
  kind
  baseName := "e1"
  filePath := "/staging/1/e1." ++ extension
  format := extension
  sizeBytes := 1
  checksumSHA256 := List.replicate 32 0

/-- Both branches are done, the task is finalised, cancelled while it waits for its review, and
resumed; its second finalisation fails. -/
def refinalisedCalls : List TaskCall :=
  [ .lifecycle (.start 1 12 1 "video"),
    .beginTaskMedia 1 .video,
    .completeArtifact ⟨21, 21⟩ (branchArtifact .video 12 "mkv"),
    .lifecycle (.succeed 2 12 1),
    .lifecycle (.start 3 11 1 "subtitle"),
    .beginTaskMedia 1 .subtitle,
    .completeArtifact ⟨13, 13⟩ (branchArtifact .subtitle 11 "ass"),
    .lifecycle (.succeed 4 11 1),
    .lifecycle (.start 5 13 1 "finalize"),
    .completeFinalize ⟨22, 22⟩ 1 13,
    .lifecycle (.succeed 6 13 1),
    .cancel 7 ⟨14, 14⟩ 1 7 "cancel",
    .lifecycle (.start 8 14 1 "cancel"),
    .lifecycle (.succeed 9 14 1),
    .retry ⟨15, 15⟩ ⟨16, 16⟩ 1 8 "retry",
    .lifecycle (.start 10 15 1 "finalize"),
    .lifecycle (.fail 11 15 1 "artifact_missing" "the artifact is missing" false) ]

def refinalised : Database := refinalisedCalls.foldl (TaskCall.run plainHashes) acquiredTask

theorem refinalised_tasks : taskSummaries refinalised.resources 2 =
    [{ state := .failed, videoState := .videoReady, subtitleState := .assReady
       artifactBasename := "e1", reviewDecision := none, importStatus := none
       failureStage := some .finalize }] := by
  decide +kernel

/-- **A failed task is hidden.** The artifact set of the first finalisation stays when the task is
resumed, and the stages take it for a finished task: the acquisition is shown as waiting for a
review that nobody can give. -/
theorem failed_finalisation_hidden :
    JustCreated acquiredTask ∧ TaskRun plainHashes (fun _ _ => True) acquiredTask refinalised ∧
      (∃ t ∈ taskSummaries refinalised.resources 2, t.state = .failed) ∧
      (deriveAcquisitionLifecycle (acquiredView (taskSummaries refinalised.resources 2))
        (some .materialized)).aggregateStatus = .awaitingReview := by
  refine ⟨acquiredTask_justCreated, ?_, ?_, ?_⟩
  · exact run_of_calls (by simp [refinalisedCalls, TaskCall.Permitted]) _
  · rw [refinalised_tasks]
    exact ⟨_, List.mem_singleton_self _, rfl⟩
  · rw [refinalised_tasks]
    decide +kernel

end EmbyAuto
