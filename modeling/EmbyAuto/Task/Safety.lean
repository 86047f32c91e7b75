import EmbyAuto.Task.Recovery

/-!
# Safety of the task workflow

The system around the tasks: workers start, finish, fail and cancel operations, they begin and
complete the media branches, the finalisation and the import, and users review, import, retry,
cancel and delete. Subscriptions review their tasks by themselves. Every call is one transaction.
All other code may change any table but the tasks, and asks no operation on a task to cancel.

## Main definitions

* `TaskCall`: a call of one transaction
* `TaskCall.Permitted`: what the callers of the transactions guarantee
* `TaskStep`, `TaskRun`: one step and any finite run of the system

## Main results

* `tasksSound_of_run`: in every run the columns of every task fit together
* `task_columns_consistent`: what this says about the columns
* `failed_tasks_explained`: failed tasks keep their error while no worker restarts one
-/

namespace EmbyAuto

open Relational Relation

/-! ## The system -/

/-- A call of a transaction that can move a task. -/
inductive TaskCall where
  | lifecycle (call : LifecycleCall)
  | beginTaskMedia (taskID : UUID) (kind : MediaKind)
  | completeArtifact (new : NewOperation) (completion : MediaArtifactCompletion)
  | completeFinalize (new : NewOperation) (taskID operationID : UUID)
  | reviewTask (new : NewImport) (input : ReviewTask)
  | reconcileAutoReviews (ids : UUID → NewOperation)
  | subscriptionAutoReviews (ids : UUID → NewOperation) (subscriptionID : UUID)
  | queueImport (importID : UUID) (new : NewOperation) (input : QueueTaskImport)
  | beginImport (taskID importID : UUID)
  | completeImport (cleanup refresh : NewOperation) (completion : ImportCompletion)
  | retry (primary secondary : NewOperation) (taskID : UUID) (expectedVersion : Int)
      (idempotencyKey : String)
  | cancel (now : Timestamp) (new : NewOperation) (taskID : UUID) (expectedVersion : Int)
      (idempotencyKey : String)
  | prepareDeletion (now : Timestamp) (acquisitionID : UUID) (allowExisting : Bool)
      (excluded : UUID)
  | completeDeletion (acquisitionID operationID : UUID)
  | materialize (ids : UUID → OperationKind → NewOperation) (downloadID operationID : UUID)

namespace TaskCall

/-- The database after the call: committed, or rolled back. -/
def run (hashes : Hashes) (db : Database) : TaskCall → Database
  | lifecycle call => call.run db
  | beginTaskMedia taskID kind => (EmbyAuto.beginTaskMedia taskID kind).commit db
  | completeArtifact new completion => (EmbyAuto.completeArtifact hashes new completion).commit db
  | completeFinalize new taskID operationID =>
    (EmbyAuto.completeFinalize hashes new taskID operationID).commit db
  | reviewTask new input => (EmbyAuto.reviewTask new input).commit db
  | reconcileAutoReviews ids => (EmbyAuto.reconcileAutoReviews hashes ids).commit db
  -- the part of `UpdateSubscription` that moves tasks
  | subscriptionAutoReviews ids subscriptionID =>
    (approvePendingAutoReviewsInTx hashes ids (some subscriptionID)).commit db
  | queueImport importID new input => (EmbyAuto.queueImport importID new input).commit db
  | beginImport taskID importID => (EmbyAuto.beginImport taskID importID).commit db
  | completeImport cleanup refresh completion =>
    (EmbyAuto.completeImport hashes cleanup refresh completion).commit db
  | retry primary secondary taskID expectedVersion idempotencyKey =>
    (retryTask hashes primary secondary taskID expectedVersion idempotencyKey).commit db
  | cancel now new taskID expectedVersion idempotencyKey =>
    (cancelTask now new taskID expectedVersion idempotencyKey).commit db
  | prepareDeletion now acquisitionID allowExisting excluded =>
    (prepareAcquisitionDeletion now acquisitionID allowExisting excluded).commit db
  | completeDeletion acquisitionID operationID =>
    (EmbyAuto.completeDeletion acquisitionID operationID).commit db
  | materialize ids downloadID operationID =>
    (materializeDownload hashes ids downloadID operationID).commit db

/-- The operation works on a task. -/
def OnTask (db : Database) (id : UUID) : Prop :=
  ∃ o taskID, findOperation db id = some o ∧ o.resource = some (.episodeTask, taskID)

/-- What the callers guarantee. A worker cancels an attempt only after a heartbeat found that
the cancellation was requested, or that the attempt is not its own any more. Operations on
tasks are asked to cancel only with their task. The tasks of a download get new identifiers. -/
def Permitted (hashes : Hashes) (db : Database) : TaskCall → Prop
  | lifecycle (.cancel _ id n) => Requested id db ∨
      ∀ a ∈ attemptsOf db id, a.attempt = int32 n → a.isRunning = false
  | lifecycle (.requestCancellation _ id) => ¬ OnTask db id
  | materialize _ downloadID _ => UnusedIdle hashes downloadID db
  | _ => True

/-- The call begins a branch of a task that has failed. -/
def RestartsFailed (db : Database) : TaskCall → Prop
  | beginTaskMedia taskID kind => Restarts db taskID kind
  | _ => False

end TaskCall

def TaskCall.occasion (call : TaskCall) (db : Database) (taskID : UUID) : Occasion where
  stopping := StoppingAt db taskID
  restarting := call.RestartsFailed db

/-- One step: a permitted call that meets the condition, or other code. -/
inductive TaskStep (hashes : Hashes) (condition : Database → TaskCall → Prop) :
    Database → Database → Prop where
  | call {db} (call : TaskCall) (permitted : call.Permitted hashes db)
      (meets : condition db call) : TaskStep hashes condition db (call.run hashes db)
  | elsewhere {db db'} (tasks : ∀ t ∈ db'.resources.episodeTasks.rows,
        t ∈ db.resources.episodeTasks.rows)
      (stopping : ∀ id, StoppingAt db' id → StoppingAt db id) : TaskStep hashes condition db db'

/-- A finite run of the system. -/
abbrev TaskRun (hashes : Hashes) (condition : Database → TaskCall → Prop) :
    Database → Database → Prop :=
  ReflTransGen (TaskStep hashes condition)

/-- Every task was just created. -/
def JustCreated (db : Database) : Prop :=
  ∀ t ∈ db.resources.episodeTasks.rows, t.Fresh ∧ ¬ StoppingAt db t.id

variable {hashes : Hashes} {condition : Database → TaskCall → Prop} {db db' : Database}
variable {c : UUID → Occasion} {cancelled : UUID → Prop}

/-! ## Calls settle tasks -/

/-- A committed transaction settles tasks if the transaction does. -/
theorem commit_tasksSettled {α : Type} {m : DatabaseTx α}
    (h : m.Triple (· = db) fun _ db' => ∃ cancelled, TasksSettled c cancelled db db') :
    ∃ cancelled, TasksSettled c cancelled db (m.commit db) := by
  rcases Tx.commit_cases m db with ⟨a, hrun⟩ | hsame
  · exact h rfl hrun
  · rw [hsame]
    exact ⟨_, Evolves.refl.tasksSettled⟩

theorem commit_evolves {α : Type} {m : DatabaseTx α}
    (h : m.Triple (· = db) fun _ => Evolves c (fun _ => False) db) :
    ∃ cancelled, TasksSettled c cancelled db (m.commit db) :=
  commit_tasksSettled (h.conseq (fun _ h => h) fun _ _ h => ⟨_, h.tasksSettled⟩)

theorem commit_keeps {α : Type} {m : DatabaseTx α}
    (h : m.Keeps (Evolves c (fun _ => False) db)) :
    ∃ cancelled, TasksSettled c cancelled db (m.commit db) :=
  commit_evolves (h.conseq (fun _ h => h ▸ .refl) fun _ _ h => h)

/-- Cancelling an attempt that is not running fails and changes nothing. -/
theorem cancelAttempt_of_not_running {now : Timestamp} {id : UUID} {n : Int}
    (h : ∀ a ∈ attemptsOf db id, a.attempt = int32 n → a.isRunning = false) :
    (cancelAttempt now id n).commit db = db := by
  rcases Tx.commit_cases (cancelAttempt now id n) db with ⟨_, hrun⟩ | hsame
  · obtain ⟨a, ha, hrunning⟩ := (cancelAttempt_endsAt hrun).running
    have hnumber : a.attempt = int32 n := by
      simp only [runningAttempt, Bool.and_eq_true, decide_eq_true_eq] at hrunning
      exact hrunning.1.2
    have hdead := h a ha hnumber
    rw [isRunning_of_runningAttempt hrunning] at hdead
    cases hdead
  · exact hsame

theorem requestOperationCancellation_elsewhere {now : Timestamp} {id : UUID}
    (h : ¬ TaskCall.OnTask db id) : (requestOperationCancellation now id).Triple (· = db)
      fun _ => Evolves c (fun _ => False) db := by
  rintro _ row db' rfl hrun
  obtain ⟨-, _, rfl⟩ := Slot.updateOne_ok.mp hrun
  refine ⟨fun t ht => ⟨t, .inl ht, .refl⟩, fun taskID ⟨o', hmem, hresource, hlive, hreq⟩ => .inl ?_⟩
  obtain ⟨o, ho, rfl⟩ := List.mem_map.mp hmem
  rcases patch_cases _ (Operation.requestCancellation now) o with ⟨hp, heq⟩ | ⟨-, heq⟩
  · rw [heq] at hresource
    simp only [atKey, Bool.and_eq_true, decide_eq_true_eq] at hp
    refine absurd ⟨o, taskID, ?_, hresource⟩ h
    rw [← hp.1]
    exact findOperation_of_mem ho
  · rw [heq] at hresource hlive hreq
    exact ⟨o, ho, hresource, hlive, hreq⟩

/-- **Every permitted call evolves the tasks by moves**, and stops those whose operations it
asks to cancel. -/
theorem TaskCall.run_tasksSettled (call : TaskCall) (permitted : call.Permitted hashes db) :
    ∃ cancelled, TasksSettled (call.occasion db) cancelled db (call.run hashes db) := by
  have hc : ∀ id, StoppingAt db id → (call.occasion db id).stopping := fun _ h => h
  cases call with
  | lifecycle call =>
    cases call with
    | start => exact commit_keeps (lifecycleFrame_evolves.startAttempt (cancelFrame_evolves hc))
    | succeed => exact commit_keeps lifecycleFrame_evolves.succeedAttempt
    | fail =>
      refine commit_keeps (lifecycleFrame_evolves.failAttempt (cancelFrame_evolves hc) fun _ => ?_)
      exact keeps_failResource
    | cancel now id n =>
      -- an attempt that no longer runs cannot be cancelled: the call changes nothing
      rcases permitted with hrequested | hdead
      · refine commit_evolves ((lifecycleFrame_evolves.cancelRunningAttempt
          (cancelFrame_evolves hc)).conseq (fun db' h => ?_) fun _ _ h => h)
        cases h
        exact ⟨.refl, hrequested⟩
      · rw [run, LifecycleCall.run, cancelAttempt_of_not_running hdead]
        exact ⟨_, Evolves.refl.tasksSettled⟩
    | snooze => exact commit_keeps lifecycleFrame_evolves.snoozeAttempt
    | requestCancellation now id =>
      exact commit_evolves (requestOperationCancellation_elsewhere permitted)
  | beginTaskMedia => exact commit_evolves (beginTaskMedia_evolves fun h => h)
  | completeArtifact => exact commit_keeps completeArtifact_evolves
  | completeFinalize => exact commit_keeps completeFinalize_evolves
  | reviewTask => exact commit_keeps reviewTask_evolves
  | reconcileAutoReviews =>
    exact commit_keeps (keeps_context approvePendingAutoReviewsInTx_evolves)
  | subscriptionAutoReviews => exact commit_keeps approvePendingAutoReviewsInTx_evolves
  | queueImport => exact commit_keeps queueImport_evolves
  | beginImport => exact commit_keeps beginImport_evolves
  | completeImport => exact commit_keeps completeImport_evolves
  | retry => exact commit_evolves (retryTask_evolves fun _ h => h)
  | cancel => exact commit_tasksSettled cancelTask_tasksSettled
  | prepareDeletion =>
    exact commit_tasksSettled (prepareAcquisitionDeletion_tasksSettled.conseq (fun _ h => h)
      fun _ _ h => ⟨_, h⟩)
  | completeDeletion => exact commit_keeps completeDeletion_evolves
  | materialize => exact commit_evolves (materializeDownload_evolves permitted)

/-! ## What runs preserve -/

/-- Every task is well formed, and stopped while an operation on it is being stopped. -/
structure TasksSound (db : Database) : Prop where
  wellFormed : ∀ t ∈ db.resources.episodeTasks.rows, t.WellFormed
  settled : ∀ t ∈ db.resources.episodeTasks.rows, StoppingAt db t.id → t.stopped = true

theorem JustCreated.sound (h : JustCreated db) : TasksSound db :=
  ⟨fun t ht => (h t ht).1.wellFormed, fun t ht hstopping => absurd hstopping (h t ht).2⟩

section Moves

variable {o : Occasion} {t t' : EpisodeTask}

theorem moves_id (moves : ReflTransGen (TaskMove o) t t') : t'.id = t.id := by
  induction moves with
  | refl => rfl
  | tail _ move ih => rw [move.id_eq, ih]

theorem moves_sound (moves : ReflTransGen (TaskMove o) t t') (h : t.Sound o) : t'.Sound o :=
  invariant_of_step (I := fun t => t.Sound o) (fun _ _ => TaskMove.sound) moves h

theorem moves_explained (moves : ReflTransGen (TaskMove o) t t') (quiet : ¬ o.restarting)
    (h : t.Explained) : t'.Explained :=
  invariant_of_step (fun _ _ move => move.explained quiet) moves h

end Moves

theorem TasksSound.of_settled (h : TasksSound db) {call : TaskCall}
    (settled : TasksSettled (call.occasion db) cancelled db db') : TasksSound db' := by
  obtain ⟨evolves, hstopped⟩ := settled
  have hsound : ∀ t' ∈ db'.resources.episodeTasks.rows, t'.Sound (call.occasion db t'.id) := by
    intro t' ht'
    obtain ⟨t, hstart, moves⟩ := evolves.tasks t' ht'
    refine moves_sound moves ?_
    rw [moves_id moves]
    rcases hstart with ht | ⟨hfresh, hidle⟩
    · exact ⟨h.wellFormed t ht, h.settled t ht⟩
    · exact ⟨hfresh.wellFormed, fun hstopping => absurd hstopping hidle⟩
  refine ⟨fun t' ht' => (hsound t' ht').wellFormed, fun t' ht' hstopping => ?_⟩
  rcases evolves.stopping t'.id hstopping with hbefore | hnew
  · exact (hsound t' ht').settled hbefore
  · exact hstopped t' ht' hnew

/-- **In every run the columns of every task fit together.** -/
theorem tasksSound_of_run (run : TaskRun hashes condition db db') (h : TasksSound db) :
    TasksSound db' := by
  refine invariant_of_step (fun s s' step hs => ?_) run h
  cases step with
  | call call permitted =>
    obtain ⟨cancelled, settled⟩ := call.run_tasksSettled permitted
    exact hs.of_settled settled
  | elsewhere tasks stopping =>
    exact ⟨fun t ht => hs.wellFormed t (tasks t ht),
      fun t ht hstopping => hs.settled t (tasks t ht) (stopping t.id hstopping)⟩

/-- Every failed task says why. -/
def TasksExplained (db : Database) : Prop :=
  ∀ t ∈ db.resources.episodeTasks.rows, t.Explained

theorem tasksExplained_of_run
    (run : TaskRun hashes (fun db call => ¬ call.RestartsFailed db) db db')
    (h : TasksExplained db) : TasksExplained db' := by
  refine invariant_of_step (fun s s' step hs => ?_) run h
  cases step with
  | call call permitted quiet =>
    obtain ⟨cancelled, evolves, -⟩ := call.run_tasksSettled permitted
    intro t' ht'
    obtain ⟨t, hstart, moves⟩ := evolves.tasks t' ht'
    refine moves_explained moves quiet ?_
    rcases hstart with ht | ⟨hfresh, -⟩
    · exact hs t ht
    · exact hfresh.explained
  | elsewhere tasks => exact fun t ht => hs t (tasks t ht)

/-! ## The columns of a task -/

/-- **The three status columns are consistent** in every database that any interleaving of the
calls reaches: after the media both branches are ready, a task in processing waits for a branch
and has none cancelled, and exactly the failed tasks have a failure stage. -/
theorem task_columns_consistent {db₀ db : Database} (created : JustCreated db₀)
    (run : TaskRun hashes (fun _ _ => True) db₀ db) : ∀ t ∈ db.resources.episodeTasks.rows,
      (t.state ∈ [.finalizing, .awaitingReview, .approved, .rejected, .importQueued, .importing,
          .imported] → t.videoState = .videoReady ∧ t.subtitleState = .assReady) ∧
      (t.state = .processing →
        ¬ (t.videoState = .videoReady ∧ t.subtitleState = .assReady) ∧
          t.videoState ≠ .cancelled ∧ t.subtitleState ≠ .cancelled) ∧
      (t.failureStage.isSome = true ↔ t.state = .failed) := by
  intro t ht
  have h := (tasksSound_of_run run created.sound).wellFormed t ht
  refine ⟨fun hstate => ?_, fun hstate => ⟨?_, h.uncancelled ?_⟩, h.staged⟩
  · have hafter : t.afterMedia = true := by
      unfold EpisodeTask.afterMedia
      cases hs : t.state <;> simp_all
    simpa [EpisodeTask.bothReady] using h.ready hafter
  · simpa [EpisodeTask.bothReady] using h.joined hstate
  · simp [EpisodeTask.mediaStartable, hstate]

/-- A task that was just created, with the operations of its two branches. -/
def queuedTask : Database where
  operations := ⟨[
    { id := 11, kind := .subtitlePrepare, resource := some (.episodeTask, 1)
      idempotencyKey := "subtitle.prepare:1", maxAttempts := 3, timeoutSeconds := 1800 },
    { id := 12, kind := .transcodeRun, resource := some (.episodeTask, 1)
      idempotencyKey := "transcode.run:1:7", maxAttempts := 3, timeoutSeconds := 86400 }],
    by decide⟩
  resources := { episodeTasks := ⟨[
    { id := 1, acquisitionID := 2, sourceVideoFileID := 3, transcodeProfileID := 7 }], by decide⟩ }

theorem queuedTask_justCreated : JustCreated queuedTask := by
  intro t ht
  cases List.mem_singleton.mp ht
  refine ⟨⟨rfl, rfl, rfl, rfl⟩, ?_⟩
  rintro ⟨o, ho, -, -, hreq⟩
  revert o
  decide

/-- The video worker begins its branch. -/
def videoBegun : Database :=
  (TaskCall.beginTaskMedia 1 .video).run plainHashes
    ((TaskCall.lifecycle (.start 1 12 1 "video")).run plainHashes queuedTask)

/-- The row of the task then. -/
def transcodingTask : EpisodeTask where
  id := 1
  acquisitionID := 2
  sourceVideoFileID := 3
  transcodeProfileID := 7
  state := .processing
  videoState := .transcoding
  version := 2

theorem videoBegun_tasks : videoBegun.resources.episodeTasks.rows = [transcodingTask] := by
  rfl

theorem videoBegun_run (condition : Database → TaskCall → Prop)
    (meets : ∀ db call, ¬ call.RestartsFailed db → condition db call) :
    TaskRun plainHashes condition queuedTask videoBegun := by
  refine .tail (.tail .refl (.call (.lifecycle (.start 1 12 1 "video")) trivial
    (meets _ _ not_false))) (.call (.beginTaskMedia 1 .video) trivial (meets _ _ ?_))
  rintro ⟨t, ht, -, hfailed, -⟩
  cases List.mem_singleton.mp ht
  cases hfailed

/-- A task whose video is being transcoded is in processing. -/
theorem task_columns_consistent_processing :
    JustCreated queuedTask ∧ TaskRun plainHashes (fun _ _ => True) queuedTask videoBegun ∧
      transcodingTask ∈ videoBegun.resources.episodeTasks.rows ∧
      transcodingTask.state = .processing ∧
      ¬ (transcodingTask.videoState = .videoReady ∧ transcodingTask.subtitleState = .assReady) ∧
      transcodingTask.videoState ≠ .cancelled ∧ transcodingTask.subtitleState ≠ .cancelled := by
  have run := videoBegun_run (fun _ _ => True) fun _ _ _ => trivial
  have mem : transcodingTask ∈ videoBegun.resources.episodeTasks.rows := by
    rw [videoBegun_tasks]
    exact List.mem_singleton_self _
  exact ⟨queuedTask_justCreated, run, mem, rfl,
    (task_columns_consistent queuedTask_justCreated run _ mem).2.1 rfl⟩

/-! ## The error of a failed task -/

/-- **Failed tasks keep their error** in every run in which no worker begins a branch of a task
that has failed. -/
theorem failed_tasks_explained {db₀ db : Database} (created : JustCreated db₀)
    (run : TaskRun hashes (fun db call => ¬ call.RestartsFailed db) db₀ db) :
    ∀ t ∈ db.resources.episodeTasks.rows, t.state = .failed → t.errorCode.isSome = true :=
  tasksExplained_of_run run fun t ht => (created t ht).1.explained

/-- The video worker fails for good. -/
def videoFailed : Database :=
  (TaskCall.lifecycle (.fail 2 12 1 "transcode_failed" "the encoder failed" false)).run plainHashes
    videoBegun

/-- The row of the task then. -/
def failedTask : EpisodeTask where
  id := 1
  acquisitionID := 2
  sourceVideoFileID := 3
  transcodeProfileID := 7
  state := .failed
  videoState := .failed
  failureStage := some .video
  version := 3
  errorCode := some "transcode_failed"
  errorMessage := some "the encoder failed"

theorem videoFailed_run (condition : Database → TaskCall → Prop)
    (meets : ∀ db call, ¬ call.RestartsFailed db → condition db call) :
    TaskRun plainHashes condition queuedTask videoFailed :=
  (videoBegun_run condition meets).tail (.call (.lifecycle (.fail 2 12 1 "transcode_failed"
    "the encoder failed" false)) trivial (meets _ _ not_false))

theorem videoFailed_tasks : videoFailed.resources.episodeTasks.rows = [failedTask] := by
  rfl

/-- A task whose video cannot be transcoded says so. -/
theorem failed_tasks_explained_transcode :
    JustCreated queuedTask ∧
      TaskRun plainHashes (fun db call => ¬ call.RestartsFailed db) queuedTask videoFailed ∧
      failedTask ∈ videoFailed.resources.episodeTasks.rows ∧ failedTask.state = .failed ∧
      failedTask.errorCode.isSome = true := by
  have run := videoFailed_run (fun db call => ¬ call.RestartsFailed db) fun _ _ h => h
  have mem : failedTask ∈ videoFailed.resources.episodeTasks.rows := by
    rw [videoFailed_tasks]
    exact List.mem_singleton_self _
  exact ⟨queuedTask_justCreated, run, mem, rfl,
    failed_tasks_explained queuedTask_justCreated run _ mem rfl⟩

/-- The subtitle worker begins its branch of the failed task. -/
def subtitleBegun : Database :=
  (TaskCall.beginTaskMedia 1 .subtitle).run plainHashes
    ((TaskCall.lifecycle (.start 3 11 1 "subtitle")).run plainHashes videoFailed)

/-- **A failed task loses its error** when the worker of the other branch begins after the
failure: the statement that starts a branch clears the error and leaves the state. -/
theorem failed_task_loses_error :
    JustCreated queuedTask ∧ TaskRun plainHashes (fun _ _ => True) queuedTask subtitleBegun ∧
      ∃ t ∈ subtitleBegun.resources.episodeTasks.rows, t.state = .failed ∧ t.errorCode = none := by
  refine ⟨queuedTask_justCreated, ?_, ?_⟩
  · exact ((videoFailed_run (fun _ _ => True) fun _ _ _ => trivial).tail
      (.call (.lifecycle (.start 3 11 1 "subtitle")) trivial trivial)).tail
        (.call (.beginTaskMedia 1 .subtitle) trivial trivial)
  · exact ⟨_, List.mem_singleton_self _, rfl, rfl⟩

end EmbyAuto
