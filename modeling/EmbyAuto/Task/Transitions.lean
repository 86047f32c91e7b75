import EmbyAuto.Task.Safety

/-!
# The updates of a task against the domain's transition tables

Every `UPDATE` of `episode_tasks` in the query files, compared with `ValidateTaskTransition`,
`ValidateVideoTransition` and `ValidateSubtitleTransition`. The guard of a statement often names
a branch only; the state of the task is then known because the columns of a reachable row fit
together.

The tables leave out what a caller may do only after further checks, such as the recovery of a
cancelled task, and some updates take such edges.

## Main definitions

* `TaskUpdate`: the updates, by the names of their queries
* `Conforms`: a change keeps to the tables
* `TaskUpdate.offTable`: the updates and rows whose change the tables leave out

## Main results

* `update_conforms_iff`: on reachable rows, these are the only ones
* `task_history`: a run gives a task its row by updates alone
-/

namespace EmbyAuto

open Relation EpisodeTask

/-- An `UPDATE` of `episode_tasks`, with what its subqueries found. -/
inductive TaskUpdate where
  | startTaskVideo
  | startTaskSubtitle
  | markTaskVideoReady
  | markTaskSubtitleReady
  | markTaskFinalizingIfReady
  | markTaskAwaitingReview
  | markTaskReviewed (decision : ReviewDecision) (expectedVersion : Int) (hasArtifactSet : Bool)
  | markTaskImportQueued (expectedVersion : Int) (hasApprovedReview hasArtifactSet : Bool)
  | startTaskImport
  | markTaskImported
  | markTaskCleanupRetryRequested (expectedVersion : Int) (hasFailedCleanup : Bool)
  | markTaskVideoTerminalFailure (errorCode errorMessage : String)
  | markTaskSubtitleTerminalFailure (errorCode errorMessage : String)
  | markTaskFinalizeTerminalFailure (errorCode errorMessage : String)
  | markTaskImportTerminalFailure (errorCode errorMessage : String)
  | markTaskVideoCancelled
  | markTaskSubtitleCancelled
  | markTaskFinalizeCancelled
  | cancelTaskImport
  | cancelEpisodeTaskIfActive (expectedVersion : Int)
  | cancelAcquisitionTasksForDeletion
  | requeueTaskFailedMediaBranches (expectedVersion : Int)
  | requeueTaskFinalizeBranch
  | requeueTaskImportBranch (hasFailedImport : Bool)
  | requeueCancelledTaskAfterMedia (next : ResumeState) (expectedVersion : Int)
      (hasSucceededImport : Bool)

namespace TaskUpdate

/-- The guard and the assignments of an update. -/
def statement : TaskUpdate → Statement
  | startTaskVideo => startVideo
  | startTaskSubtitle => startSubtitle
  | markTaskVideoReady => markVideoReady
  | markTaskSubtitleReady => markSubtitleReady
  | markTaskFinalizingIfReady => markFinalizingIfReady
  | markTaskAwaitingReview => markAwaitingReview
  | markTaskReviewed decision version hasSet => markReviewed decision version hasSet
  | markTaskImportQueued version hasReview hasSet => markImportQueued version hasReview hasSet
  | startTaskImport => EpisodeTask.startImport
  | markTaskImported => markImported
  | markTaskCleanupRetryRequested version hasCleanup => markCleanupRetryRequested version hasCleanup
  | markTaskVideoTerminalFailure code message => markVideoTerminalFailure code message
  | markTaskSubtitleTerminalFailure code message => markSubtitleTerminalFailure code message
  | markTaskFinalizeTerminalFailure code message => markFinalizeTerminalFailure code message
  | markTaskImportTerminalFailure code message => markImportTerminalFailure code message
  | markTaskVideoCancelled => markVideoCancelled
  | markTaskSubtitleCancelled => markSubtitleCancelled
  | markTaskFinalizeCancelled => markFinalizeCancelled
  | cancelTaskImport => EpisodeTask.cancelTaskImport
  | cancelEpisodeTaskIfActive version => cancelIfActive version
  | cancelAcquisitionTasksForDeletion => cancelForDeletion
  | requeueTaskFailedMediaBranches version => requeueFailedMediaBranches version
  | requeueTaskFinalizeBranch => requeueFinalizeBranch
  | requeueTaskImportBranch hasImport => requeueImportBranch hasImport
  | requeueCancelledTaskAfterMedia next version hasImport =>
    requeueCancelledAfterMedia next version hasImport

/-- The rows on which an update takes an edge that the tables leave out: an artifact reported
for a branch that has not begun, the deletion of a rejected task or of a failed branch, the
retry of a finalisation, and the recovery of a cancelled task. -/
def offTable (t : EpisodeTask) : TaskUpdate → Bool
  | markTaskVideoReady => t.videoState = .transcodeQueued
  | markTaskSubtitleReady => t.subtitleState = .subtitleQueued
  | cancelAcquisitionTasksForDeletion =>
    t.state = .rejected || t.videoState = .failed || t.subtitleState = .failed
  | requeueTaskFailedMediaBranches _ => t.state = .cancelled
  | requeueTaskFinalizeBranch => true
  | requeueCancelledTaskAfterMedia .. => true
  | _ => false

end TaskUpdate

attribute [grind] TaskUpdate.statement validateTaskTransition TaskState.next
  validateVideoTransition VideoState.next validateSubtitleTransition SubtitleState.next

/-- Every status column keeps its value or takes an edge of its table. -/
structure Conforms (t t' : EpisodeTask) : Prop where
  task : t'.state = t.state ∨ validateTaskTransition t.state t'.state = true
  video : t'.videoState = t.videoState ∨ validateVideoTransition t.videoState t'.videoState = true
  subtitle : t'.subtitleState = t.subtitleState ∨
    validateSubtitleTransition t.subtitleState t'.subtitleState = true

instance (t t' : EpisodeTask) : Decidable (Conforms t t') :=
  decidable_of_iff ((t'.state = t.state ∨ validateTaskTransition t.state t'.state = true) ∧
      (t'.videoState = t.videoState ∨
        validateVideoTransition t.videoState t'.videoState = true) ∧
      (t'.subtitleState = t.subtitleState ∨
        validateSubtitleTransition t.subtitleState t'.subtitleState = true))
    ⟨fun h => ⟨h.1, h.2.1, h.2.2⟩, fun h => ⟨h.task, h.video, h.subtitle⟩⟩

/-! ## The rows that updates find -/

/-- What an update may assume of the row it finds: while a branch is active, the task is neither
past its media nor cancelled. -/
structure Startable (t : EpisodeTask) : Prop where
  video : t.videoActive = true → t.mediaStartable = true
  subtitle : t.subtitleActive = true → t.mediaStartable = true

theorem Startable.of_wellFormed {t : EpisodeTask} (h : t.WellFormed) : Startable t := by
  constructor <;> grind

/-- A row that an update can find: a committed one, or one whose branch the same transaction has
just marked ready. -/
inductive RowReached (db : Database) : EpisodeTask → Prop where
  | committed {t} (mem : t ∈ db.resources.episodeTasks.rows) : RowReached db t
  | readied {t} {st : Statement} (kind : st.Readies) (mem : t ∈ db.resources.episodeTasks.rows)
      (guard : st.guard t = true) : RowReached db (st.set t)

theorem RowReached.startable {db : Database} (h : TasksSound db) {t : EpisodeTask}
    (reached : RowReached db t) : Startable t := by
  cases reached with
  | committed mem => exact .of_wellFormed (h.wellFormed t mem)
  | readied kind mem guard =>
    have hw := Startable.of_wellFormed (h.wellFormed _ mem)
    cases kind with
    | video => exact ⟨nofun, hw.subtitle⟩
    | subtitle => exact ⟨hw.video, nofun⟩

/-! ## Updates against the tables -/

section Edges

variable {t : EpisodeTask}

/-- An active branch is one that may fail. -/
theorem validateVideoTransition_failed :
    validateVideoTransition t.videoState .failed = t.videoActive := by
  unfold videoActive
  cases t.videoState <;> rfl

theorem validateVideoTransition_cancelled :
    validateVideoTransition t.videoState .cancelled = t.videoActive := by
  unfold videoActive
  cases t.videoState <;> rfl

theorem validateSubtitleTransition_failed :
    validateSubtitleTransition t.subtitleState .failed = t.subtitleActive := by
  unfold subtitleActive
  cases t.subtitleState <;> rfl

theorem validateSubtitleTransition_cancelled :
    validateSubtitleTransition t.subtitleState .cancelled = t.subtitleActive := by
  unfold subtitleActive
  cases t.subtitleState <;> rfl

/-- A task that no branch has left behind may fail. -/
theorem fail_edge (h : t.mediaStartable = true) :
    TaskState.failed = t.state ∨ validateTaskTransition t.state .failed = true := by
  cases hstate : t.state <;> grind

theorem cancel_edge (hrejected : t.state ≠ .rejected) (himported : t.state ≠ .imported)
    (hcancelled : t.state ≠ .cancelled) : validateTaskTransition t.state .cancelled = true := by
  cases hstate : t.state <;> first | rfl | contradiction

theorem cancel_edge_of_startable (h : t.mediaStartable = true) :
    validateTaskTransition t.state .cancelled = true := by
  apply cancel_edge <;> intro hstate <;> simp [mediaStartable, hstate] at h

theorem started_edge : t.startedState = t.state ∨
    validateTaskTransition t.state t.startedState = true := by
  unfold startedState
  split
  · rename_i hstate
    exact .inr (by rw [hstate]; rfl)
  · exact .inl rfl

/-- The tables let a branch become ready only after it has begun. -/
theorem videoReady_edge_iff (h : t.videoActive = true) : (VideoState.videoReady = t.videoState ∨
      validateVideoTransition t.videoState .videoReady = true) ↔
      t.videoState ≠ .transcodeQueued := by
  unfold videoActive at h
  cases hvideo : t.videoState <;> simp_all [validateVideoTransition, VideoState.next]

theorem assReady_edge_iff (h : t.subtitleActive = true) :
    (SubtitleState.assReady = t.subtitleState ∨
      validateSubtitleTransition t.subtitleState .assReady = true) ↔
      t.subtitleState ≠ .subtitleQueued := by
  unfold subtitleActive at h
  cases hsubtitle : t.subtitleState <;>
    simp_all [validateSubtitleTransition, SubtitleState.next]

end Edges

section Updates

variable {t : EpisodeTask}

/-- The deletion of an acquisition keeps to the tables unless the task was rejected or a branch
had failed. -/
theorem cancelForDeletion_conforms_iff (guard : cancelForDeletion.guard t = true) :
    Conforms t (cancelForDeletion.set t) ↔
      t.state ≠ .rejected ∧ t.videoState ≠ .failed ∧ t.subtitleState ≠ .failed := by
  simp only [cancelForDeletion] at guard
  have htask : (TaskState.cancelled = t.state ∨
      validateTaskTransition t.state .cancelled = true) ↔ t.state ≠ .rejected := by
    cases hstate : t.state <;> simp_all [validateTaskTransition, TaskState.next]
  have hvideo : ((cancelForDeletion.set t).videoState = t.videoState ∨
      validateVideoTransition t.videoState (cancelForDeletion.set t).videoState = true) ↔
      t.videoState ≠ .failed := by
    cases hvideo : t.videoState <;> grind
  have hsubtitle : ((cancelForDeletion.set t).subtitleState = t.subtitleState ∨
      validateSubtitleTransition t.subtitleState (cancelForDeletion.set t).subtitleState = true) ↔
      t.subtitleState ≠ .failed := by
    cases hsubtitle : t.subtitleState <;> grind
  exact ⟨fun h => ⟨htask.mp h.task, hvideo.mp h.video, hsubtitle.mp h.subtitle⟩,
    fun h => ⟨htask.mpr h.1, hvideo.mpr h.2.1, hsubtitle.mpr h.2.2⟩⟩

/-- The cancellation of a task keeps to the tables: it stops the branches that are active. -/
theorem cancelIfActive_conforms {expectedVersion : Int}
    (guard : (cancelIfActive expectedVersion).guard t = true) :
    Conforms t ((cancelIfActive expectedVersion).set t) := by
  simp only [cancelIfActive, Bool.and_eq_true, decide_eq_true_eq] at guard
  obtain ⟨⟨⟨himported, hcancelled⟩, hrejected⟩, -⟩ := guard
  refine ⟨.inr (cancel_edge hrejected himported hcancelled), ?_, ?_⟩
  · by_cases hactive : t.videoActive = true
    · refine .inr ?_
      simp [cancelIfActive, hactive, validateVideoTransition_cancelled]
    · exact .inl (if_neg hactive)
  · by_cases hactive : t.subtitleActive = true
    · refine .inr ?_
      simp [cancelIfActive, hactive, validateSubtitleTransition_cancelled]
    · exact .inl (if_neg hactive)

/-- The retry of the media branches keeps to the tables unless it recovers a cancelled task. -/
theorem requeueFailedMediaBranches_conforms_iff {expectedVersion : Int} :
    Conforms t ((requeueFailedMediaBranches expectedVersion).set t) ↔ t.state ≠ .cancelled := by
  constructor
  · intro h hcancelled
    have htask := h.task
    grind
  · intro hcancelled
    refine ⟨?_, ?_, ?_⟩
    · by_cases hfailed : t.state = .failed <;> grind
    · by_cases hfailed : t.videoState = .failed <;> grind
    · by_cases hfailed : t.subtitleState = .failed <;> grind

end Updates

/-- An update of the task's own state follows the edge that it takes. -/
theorem Conforms.of_edge {t t' : EpisodeTask} {source : TaskState} (hstate : t.state = source)
    (edge : validateTaskTransition source t'.state = true)
    (hvideo : t'.videoState = t.videoState := by rfl)
    (hsubtitle : t'.subtitleState = t.subtitleState := by rfl) : Conforms t t' :=
  ⟨.inr (by rw [hstate, edge]), .inl hvideo, .inl hsubtitle⟩

/-- **An update keeps to the tables exactly on the rows that are not exceptions.** -/
theorem TaskUpdate.conforms_iff (update : TaskUpdate) {t : EpisodeTask} (h : Startable t)
    (guard : update.statement.guard t = true) :
    Conforms t (update.statement.set t) ↔ update.offTable t = false := by
  cases update with
  | startTaskVideo =>
    have hactive := (Bool.and_eq_true_iff.mp guard).2
    refine iff_of_true ⟨started_edge, ?_, .inl rfl⟩ rfl
    change VideoState.transcoding = _ ∨ _
    cases hvideo : t.videoState <;> grind
  | startTaskSubtitle =>
    have hactive := (Bool.and_eq_true_iff.mp guard).2
    refine iff_of_true ⟨started_edge, .inl rfl, ?_⟩ rfl
    change SubtitleState.extractingOrConverting = _ ∨ _
    cases hsubtitle : t.subtitleState <;> grind
  | markTaskVideoReady =>
    rw [offTable, decide_eq_false_iff_not, ← ne_eq, ← videoReady_edge_iff guard]
    exact ⟨fun h => h.video, fun h => ⟨.inl rfl, h, .inl rfl⟩⟩
  | markTaskSubtitleReady =>
    rw [offTable, decide_eq_false_iff_not, ← ne_eq, ← assReady_edge_iff guard]
    exact ⟨fun h => h.subtitle, fun h => ⟨.inl rfl, .inl rfl, h⟩⟩
  | markTaskFinalizingIfReady =>
    have hstate : t.state = .processing := of_decide_eq_true (Bool.and_eq_true_iff.mp guard).1
    exact iff_of_true (.of_edge hstate rfl) rfl
  | markTaskAwaitingReview =>
    have hstate : t.state = .finalizing := of_decide_eq_true (Bool.and_eq_true_iff.mp guard).1
    exact iff_of_true (.of_edge hstate rfl) rfl
  | markTaskReviewed decision =>
    have hstate : t.state = .awaitingReview := by grind
    exact iff_of_true (.of_edge hstate (by cases decision <;> rfl)) rfl
  | markTaskImportQueued =>
    have hstate : t.state = .approved := by grind
    exact iff_of_true (.of_edge hstate rfl) rfl
  | startTaskImport =>
    have hstate : t.state = .importQueued ∨ t.state = .importing := by grind
    rcases hstate with hstate | hstate
    · exact iff_of_true (.of_edge hstate rfl) rfl
    · exact iff_of_true ⟨.inl hstate.symm, .inl rfl, .inl rfl⟩ rfl
  | markTaskImported =>
    have hstate : t.state = .importing := of_decide_eq_true guard
    exact iff_of_true (.of_edge hstate rfl) rfl
  | markTaskCleanupRetryRequested => exact iff_of_true ⟨.inl rfl, .inl rfl, .inl rfl⟩ rfl
  | markTaskVideoTerminalFailure =>
    -- the guard names the branch only, and an active branch says where the task is
    exact iff_of_true ⟨fail_edge (h.video guard),
      .inr (validateVideoTransition_failed.trans guard), .inl rfl⟩ rfl
  | markTaskSubtitleTerminalFailure =>
    exact iff_of_true ⟨fail_edge (h.subtitle guard), .inl rfl,
      .inr (validateSubtitleTransition_failed.trans guard)⟩ rfl
  | markTaskFinalizeTerminalFailure =>
    have hstate : t.state = .finalizing := of_decide_eq_true guard
    exact iff_of_true (.of_edge hstate rfl) rfl
  | markTaskImportTerminalFailure =>
    have hstate : t.state = .importQueued ∨ t.state = .importing := by grind
    rcases hstate with hstate | hstate <;> exact iff_of_true (.of_edge hstate rfl) rfl
  | markTaskVideoCancelled =>
    exact iff_of_true ⟨.inr (cancel_edge_of_startable (h.video guard)),
      .inr (validateVideoTransition_cancelled.trans guard), .inl rfl⟩ rfl
  | markTaskSubtitleCancelled =>
    exact iff_of_true ⟨.inr (cancel_edge_of_startable (h.subtitle guard)), .inl rfl,
      .inr (validateSubtitleTransition_cancelled.trans guard)⟩ rfl
  | markTaskFinalizeCancelled =>
    have hstate : t.state = .finalizing := of_decide_eq_true guard
    exact iff_of_true (.of_edge hstate rfl) rfl
  | cancelTaskImport =>
    have hstate : t.state = .importQueued ∨ t.state = .importing := by grind
    rcases hstate with hstate | hstate <;> exact iff_of_true (.of_edge hstate rfl) rfl
  | cancelEpisodeTaskIfActive => exact iff_of_true (cancelIfActive_conforms guard) rfl
  | cancelAcquisitionTasksForDeletion =>
    rw [statement, cancelForDeletion_conforms_iff guard]
    simp [offTable, and_assoc]
  | requeueTaskFailedMediaBranches =>
    rw [statement, requeueFailedMediaBranches_conforms_iff]
    simp [offTable]
  | requeueTaskFinalizeBranch =>
    have hstate : t.state = .failed := by grind
    exact iff_of_false (fun h => absurd (hstate ▸ h.task) (by rintro (h | h) <;> cases h))
      (by rintro ⟨⟩)
  | requeueTaskImportBranch =>
    have hstate : t.state = .failed := by grind
    exact iff_of_true (.of_edge hstate rfl) rfl
  | requeueCancelledTaskAfterMedia next =>
    have hstate : t.state = .cancelled := by grind
    exact iff_of_false (fun h => absurd (hstate ▸ h.task) (by
      cases next <;> rintro (h | h) <;> cases h))
      (by rintro ⟨⟩)

/-! ## Runs -/

/-- The moves of the state machine are made of the updates. -/
theorem TaskMove.updates {c : Occasion} {t t' : EpisodeTask} (move : TaskMove c t t') :
    ReflTransGen (fun t t' => ∃ update : TaskUpdate,
      update.statement.guard t = true ∧ t' = update.statement.set t) t t' := by
  cases move with
  | begin kind guard =>
    cases kind with
    | video => exact .single ⟨.startTaskVideo, guard, rfl⟩
    | subtitle => exact .single ⟨.startTaskSubtitle, guard, rfl⟩
  | ready kind guard =>
    -- the statement that marks the branch, then the one that joins the branches
    have hjoin : ∀ t : EpisodeTask, ReflTransGen (fun t t' => ∃ update : TaskUpdate,
        update.statement.guard t = true ∧ t' = update.statement.set t) t t.join := by
      intro t
      unfold join
      split
      · rename_i hready
        exact .single ⟨.markTaskFinalizingIfReady, hready, rfl⟩
      · exact .refl
    cases kind with
    | video => exact .head ⟨.markTaskVideoReady, guard, rfl⟩ (hjoin _)
    | subtitle => exact .head ⟨.markTaskSubtitleReady, guard, rfl⟩ (hjoin _)
  | advance kind guard =>
    cases kind with
    | awaitingReview => exact .single ⟨.markTaskAwaitingReview, guard, rfl⟩
    | reviewed decision version hasSet =>
      exact .single ⟨.markTaskReviewed decision version hasSet, guard, rfl⟩
    | importQueued version hasReview hasSet =>
      exact .single ⟨.markTaskImportQueued version hasReview hasSet, guard, rfl⟩
    | importing => exact .single ⟨.startTaskImport, guard, rfl⟩
    | imported => exact .single ⟨.markTaskImported, guard, rfl⟩
    | cleanup version hasCleanup =>
      exact .single ⟨.markTaskCleanupRetryRequested version hasCleanup, guard, rfl⟩
  | fail kind guard =>
    cases kind with
    | video code message => exact .single ⟨.markTaskVideoTerminalFailure code message, guard, rfl⟩
    | subtitle code message =>
      exact .single ⟨.markTaskSubtitleTerminalFailure code message, guard, rfl⟩
    | finalize code message =>
      exact .single ⟨.markTaskFinalizeTerminalFailure code message, guard, rfl⟩
    | «import» code message =>
      exact .single ⟨.markTaskImportTerminalFailure code message, guard, rfl⟩
  | stop kind guard =>
    cases kind with
    | video => exact .single ⟨.markTaskVideoCancelled, guard, rfl⟩
    | subtitle => exact .single ⟨.markTaskSubtitleCancelled, guard, rfl⟩
    | finalize => exact .single ⟨.markTaskFinalizeCancelled, guard, rfl⟩
    | «import» => exact .single ⟨.cancelTaskImport, guard, rfl⟩
  | cancel kind guard =>
    cases kind with
    | command version => exact .single ⟨.cancelEpisodeTaskIfActive version, guard, rfl⟩
    | deletion => exact .single ⟨.cancelAcquisitionTasksForDeletion, guard, rfl⟩
  | resume kind guard =>
    cases kind with
    | media version => exact .single ⟨.requeueTaskFailedMediaBranches version, guard, rfl⟩
    | finalize => exact .single ⟨.requeueTaskFinalizeBranch, guard, rfl⟩
    | «import» hasImport => exact .single ⟨.requeueTaskImportBranch hasImport, guard, rfl⟩
    | cancelled next version hasImport =>
      exact .single ⟨.requeueCancelledTaskAfterMedia next version hasImport, guard, rfl⟩

/-- **The updates refine the transition tables** in every database that any interleaving of the
calls reaches: each update keeps to the tables, except for an artifact of a branch that has not
begun, the deletion of a rejected task or of a failed branch, the retry of a finalisation and the
recovery of a cancelled task, which never do. -/
theorem update_conforms_iff {hashes : Hashes} {db₀ db : Database} (created : JustCreated db₀)
    (run : TaskRun hashes (fun _ _ => True) db₀ db) :
    ∀ t, RowReached db t → ∀ update : TaskUpdate, update.statement.guard t = true →
      (Conforms t (update.statement.set t) ↔ update.offTable t = false) :=
  fun _ reached update guard =>
    update.conforms_iff (reached.startable (tasksSound_of_run run created.sound)) guard

/-- The failure of a transcoding keeps to the tables. -/
theorem update_conforms_transcodeFailure :
    JustCreated queuedTask ∧ TaskRun plainHashes (fun _ _ => True) queuedTask videoBegun ∧
      RowReached videoBegun transcodingTask ∧
      Conforms transcodingTask ((TaskUpdate.markTaskVideoTerminalFailure "transcode_failed"
        "the encoder failed").statement.set transcodingTask) := by
  have run := videoBegun_run (fun _ _ => True) fun _ _ _ => trivial
  have reached : RowReached videoBegun transcodingTask := by
    refine .committed ?_
    rw [videoBegun_tasks]
    exact List.mem_singleton_self _
  exact ⟨queuedTask_justCreated, run, reached,
    (update_conforms_iff queuedTask_justCreated run _ reached
      (.markTaskVideoTerminalFailure "transcode_failed" "the encoder failed") rfl).mpr rfl⟩

/-- **An update leaves the tables**: the deletion of an acquisition cancels a video branch that
has failed, which `ValidateVideoTransition` does not accept. -/
theorem deletion_cancels_failed_video :
    JustCreated queuedTask ∧ TaskRun plainHashes (fun _ _ => True) queuedTask videoFailed ∧
      failedTask ∈ videoFailed.resources.episodeTasks.rows ∧
      TaskUpdate.cancelAcquisitionTasksForDeletion.statement.guard failedTask = true ∧
      ¬ Conforms failedTask
        (TaskUpdate.cancelAcquisitionTasksForDeletion.statement.set failedTask) := by
  refine ⟨queuedTask_justCreated, videoFailed_run (fun _ _ => True) fun _ _ _ => trivial, ?_, rfl,
    by decide⟩
  rw [videoFailed_tasks]
  exact List.mem_singleton_self _

/-- **The history of a task.** Whatever transactions are interleaved, every task got to its row from
the one that it had at the start, or that it was created with, by updates whose guards held. -/
theorem task_history {hashes : Hashes} {condition : Database → TaskCall → Prop} {db₀ db : Database}
    (run : TaskRun hashes condition db₀ db) : ∀ t ∈ db.resources.episodeTasks.rows,
      ∃ t₀, (t₀ ∈ db₀.resources.episodeTasks.rows ∨ t₀.Fresh) ∧
        ReflTransGen (fun t t' => ∃ update : TaskUpdate,
          update.statement.guard t = true ∧ t' = update.statement.set t) t₀ t := by
  induction run with
  | refl => exact fun t ht => ⟨t, .inl ht, .refl⟩
  | tail _ step ih =>
    cases step with
    | call call permitted =>
      obtain ⟨_, evolves, -⟩ := call.run_tasksSettled permitted
      intro t' ht'
      obtain ⟨t, hstart, moves⟩ := evolves.tasks t' ht'
      have updates := moves.lift' (fun t => t) fun _ _ => TaskMove.updates
      rcases hstart with ht | ⟨hfresh, -⟩
      · obtain ⟨t₀, hstart, history⟩ := ih t ht
        exact ⟨t₀, hstart, history.trans updates⟩
      · exact ⟨t, .inr hfresh, updates⟩
    | elsewhere tasks => exact fun t ht => ih t (tasks t ht)

/-- A task whose transcoding has failed, and all that led there. -/
theorem task_history_videoFailed :
    ∃ t₀, (t₀ ∈ queuedTask.resources.episodeTasks.rows ∨ t₀.Fresh) ∧
      ReflTransGen (fun t t' => ∃ update : TaskUpdate,
        update.statement.guard t = true ∧ t' = update.statement.set t) t₀ failedTask :=
  task_history (videoFailed_run (fun _ _ => True) fun _ _ _ => trivial) failedTask
    (videoFailed_tasks ▸ List.mem_singleton_self _)

end EmbyAuto
