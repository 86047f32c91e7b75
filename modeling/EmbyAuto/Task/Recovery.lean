import EmbyAuto.Task.Transactions

/-!
# Retries, cancellations and deletions move tasks

A retry resumes a task only when no operation on it is being stopped. A cancellation asks the
operations of a task to stop and stops the task in the same transaction, and so does the
deletion of an acquisition for all of its tasks.

## Main definitions

* `TasksSettled`: the tasks evolved, and those with operations newly asked to cancel are stopped

## Main results

* `retryTask_evolves`, `cancelTask_tasksSettled`, `prepareAcquisitionDeletion_tasksSettled`,
  `completeDeletion_evolves`: the commands
* `materializeDownload_evolves`: the creation of tasks
-/

namespace EmbyAuto

open Relational Database Resources

variable {c : UUID → Occasion} {cancelled : UUID → Prop} {db₀ db db' : Database}
variable {id taskID operationID acquisitionID : UUID} {task : EpisodeTask} {key : String}
variable {new primary secondary : NewOperation} {hashes : Hashes} {version : Int}

/-! ## Retries -/

theorem keeps_requeueTask {text : String} {rejected : Fault} {I update}
    (h : (onResources update).Keeps I) : (requeueTask text rejected update).Keeps I := by
  refine (keeps_context h).bind fun row => ?_
  cases row with
  | none => exact Tx.Triple.throw
  | some _ => exact Tx.Keeps.pure

theorem scheduleRetry_evolves {stage : String} {kind} {attempts : Int} {timeout : Duration}
    {payload} : (scheduleRetry new taskID key stage kind attempts timeout payload).Keeps
      (Evolves c cancelled db₀) :=
  keeps_scheduleInTx.bind fun _ => keeps_appendResourceEvent.bind fun _ => Tx.Keeps.pure

theorem leavesTasks_requeueLatestImport {statuses} :
    LeavesTasks (requeueLatestImport taskID statuses) :=
  fun T => Tx.Keeps.get.bind fun _ => leavesTasks_updateOne (fun _ _ _ h => h) T

theorem retryCleanup_evolves :
    (retryCleanup new task version key).Keeps (Evolves c cancelled db₀) := by
  refine Tx.Keeps.bind (keeps_requeueTask (keeps_updateTaskWith fun _ _ =>
    .advance (.cleanup _ _))) fun _ => ?_
  refine Tx.Keeps.bind (keeps_context (keeps_requireRow (keeps_onResources fun T =>
    Tx.Keeps.get.bind fun _ => leavesTasks_updateOne (fun _ _ _ h => h) T))) fun cleanup => ?_
  exact keeps_context scheduleRetry_evolves

theorem scheduleSecondary_evolves {first : MediaBranch} {operation : Operation} {second} :
    (scheduleSecondary hashes new task key first operation second).Keeps
      (Evolves c cancelled db₀) := by
  cases second with
  | none => exact Tx.Keeps.pure
  | some second =>
    refine (keeps_context keeps_scheduleInTx).bind fun other => ?_
    cases first <;> exact Tx.Keeps.pure

section Idle

variable (idle : ¬ (c task.id).stopping)
include idle

/-- A statement by which a retry resumes the task. -/
theorem keeps_resume {st} (kind : st.Resumes) :
    (onResources (updateTask task.id st)).Keeps (Evolves c cancelled db₀) :=
  keeps_updateTask fun _ hguard => .resume kind hguard idle

theorem retryMediaBranches_evolves :
    (retryMediaBranches hashes primary secondary task version key).Keeps
      (Evolves c cancelled db₀) := by
  refine (keeps_context (keeps_resume idle (.media _))).bind fun row => ?_
  cases row with
  | none => exact Tx.Triple.throw
  | some _ =>
    refine (keeps_context keeps_scheduleInTx).bind fun scheduled => ?_
    refine scheduleSecondary_evolves.bind fun branches => ?_
    exact keeps_appendResourceEvent.bind fun _ => Tx.Keeps.pure

theorem retryCancelledAfterMedia_evolves :
    (retryCancelledAfterMedia new task.id version key).Keeps (Evolves c cancelled db₀) := by
  have resume (next : EpisodeTask.ResumeState) :
      (onResources (requeueCancelledTaskAfterMedia task.id next version)).Keeps
        (Evolves c cancelled db₀) :=
    keeps_updateTaskWith fun _ _ hguard => .resume (.cancelled _ _ _) hguard idle
  refine Tx.Keeps.bind (keeps_context (keeps_requireRow (keeps_onResources fun _ =>
    Tx.Keeps.get.bind fun _ => Tx.Keeps.pure))) fun view => ?_
  split
  · exact (keeps_requeueTask (resume _)).bind fun _ => scheduleRetry_evolves
  · split
    · exact Tx.Triple.throw
    refine Tx.Keeps.bind (keeps_context (keeps_requireRow
      (keeps_onResources leavesTasks_requeueLatestImport))) fun imported => ?_
    exact (keeps_requeueTask (resume _)).bind fun _ => scheduleRetry_evolves

theorem retryFailedStage_evolves :
    (retryFailedStage new task key).Keeps (Evolves c cancelled db₀) := by
  unfold retryFailedStage
  split
  · refine (keeps_requeueTask (keeps_resume idle .finalize)).bind fun _ => ?_
    exact keeps_context scheduleRetry_evolves
  · refine Tx.Keeps.bind (keeps_requeueTask (keeps_updateTaskWith fun _ _ hguard =>
      .resume (.import _) hguard idle)) fun _ => ?_
    refine Tx.Keeps.bind (keeps_context (keeps_requireRow
      (keeps_onResources leavesTasks_requeueLatestImport))) fun imported => ?_
    exact keeps_context scheduleRetry_evolves
  · exact Tx.Triple.throw

theorem retryLockedTask_evolves :
    (retryLockedTask hashes primary secondary task version key).Keeps
      (Evolves c cancelled db₀) := by
  unfold retryLockedTask
  dsimp only
  split
  · exact retryCleanup_evolves
  split
  · split
    · exact retryMediaBranches_evolves idle
    split
    · exact retryCancelledAfterMedia_evolves idle
    split
    · exact Tx.Triple.throw
    · exact retryFailedStage_evolves idle
  · exact Tx.Triple.throw

end Idle

/-- A retry that is not refused finds no operation of the task being stopped. -/
theorem lockWorkflowForRetry_idle {idle : Bool}
    (htask : ∃ t ∈ db₀.resources.episodeTasks.rows, t.id = taskID ∧
      t.acquisitionID = acquisitionID) :
    (lockWorkflowForRetry acquisitionID (some taskID) idle).Triple (· = db₀)
      fun _ db => db = db₀ ∧ ¬ StoppingAt db₀ taskID := by
  obtain ⟨t, ht, rfl, rfl⟩ := htask
  refine Tx.Triple.bind Tx.Triple.get fun db => ?_
  split
  · exact Tx.Triple.throw
  split
  · exact Tx.Triple.throw
  split
  · exact Tx.Triple.throw
  split
  · exact Tx.Triple.throw
  next hpending =>
  refine Tx.Triple.pure fun s ⟨hs, hdb⟩ => ?_
  subst hs hdb
  refine ⟨rfl, fun ⟨o, ho, hresource, hlive, hrequested⟩ => hpending ?_⟩
  refine List.any_eq_true.mpr ⟨o, ho, ?_⟩
  have hbelongs : o.belongsTo db.resources t.acquisitionID (some t.id) = true := by
    simp only [Operation.belongsTo, hresource]
    exact List.any_eq_true.mpr ⟨t, ht, by simp⟩
  simp [hlive, hrequested, hbelongs]

/-- The view of a task is that of its row. -/
theorem getTaskView_triple {text : String} :
    (orNotFound (context text (onResources (getTaskView taskID)))).Triple (· = db₀)
      fun view db => db = db₀ ∧ view.task ∈ db₀.resources.episodeTasks.rows ∧
        view.task.id = taskID := by
  rintro _ view db' rfl hrun
  simp only [orNotFound_ok, context_ok] at hrun
  obtain ⟨r, hr, rfl⟩ := Tx.zoom_ok.mp hrun
  obtain ⟨_, _, hget, hr⟩ := Tx.bind_ok.mp hr
  cases hget
  rw [Tx.pure_apply, Except.ok.injEq, Prod.mk.injEq] at hr
  obtain ⟨hview, rfl⟩ := hr
  obtain ⟨task, htask, hview⟩ := Option.bind_eq_some_iff.mp hview
  obtain ⟨_, -, hview⟩ := Option.bind_eq_some_iff.mp hview
  obtain ⟨_, -, hview⟩ := Option.bind_eq_some_iff.mp hview
  split at hview
  · cases hview
    exact ⟨rfl, mem_of_lookup htask, key_of_lookup htask⟩
  · cases hview

theorem retryTask_evolves (hc : ∀ id, (c id).stopping → StoppingAt db₀ id) :
    (retryTask hashes primary secondary taskID version key).Triple (· = db₀)
      fun _ => Evolves c cancelled db₀ := by
  unfold retryTask
  split
  · exact Tx.Triple.throw
  refine Tx.Triple.bind keeps_findIdempotentResourceCommand fun existing => ?_
  cases existing with
  | some existing => exact Tx.Triple.pure fun _ h => h ▸ .refl
  | none =>
    refine Tx.Triple.bind getTaskView_triple fun before => .given fun ⟨hmem, hid⟩ => ?_
    refine Tx.Triple.bind (lockWorkflowForRetry_idle ⟨before.task, hmem, hid, rfl⟩) fun _ => ?_
    refine Tx.Triple.bind lockTask_triple fun task => ?_
    split
    · exact Tx.Triple.throw
    rintro db₁ o₁ db₂ ⟨⟨rfl, hidle⟩, -, rfl⟩ hrun
    exact retryLockedTask_evolves (fun h => hidle (hc _ h)) .refl hrun

/-! ## Cancellations -/

/-- The tasks evolved, and something else holds of them. -/
def EvolvesWith (P : Table episodeTaskSchema → Prop) (c : UUID → Occasion)
    (cancelled : UUID → Prop) (db db' : Database) : Prop :=
  Evolves c cancelled db db' ∧ P db'.resources.episodeTasks

/-- The tasks evolved, and those with operations newly asked to cancel are stopped. -/
abbrev TasksSettled (c : UUID → Occasion) (cancelled : UUID → Prop) : Database → Database → Prop :=
  EvolvesWith (fun T => ∀ t ∈ T.rows, cancelled t.id → t.stopped = true) c cancelled

theorem Evolves.tasksSettled (h : Evolves c (fun _ => False) db db') :
    TasksSettled c (fun _ => False) db db' :=
  ⟨h, fun _ _ h => h.elim⟩

/-- The transaction does not touch the tasks. -/
def LeavesTasksAlone {α : Type} (m : DatabaseTx α) : Prop :=
  ∀ T, m.Keeps fun db => db.resources.episodeTasks = T

/-- Such a transaction keeps what is said about the tasks besides. -/
theorem keeps_evolvesWith {α : Type} {m : DatabaseTx α} {P}
    (hm : m.Keeps (Evolves c cancelled db₀))
    (ht : LeavesTasksAlone m) : m.Keeps (EvolvesWith P c cancelled db₀) := by
  rintro db a db' ⟨hdb, hP⟩ hrun
  refine ⟨hm hdb hrun, ?_⟩
  rwa [ht _ rfl hrun]

theorem keeps_evolvesWith_onResources {α : Type} {m : ResourcesTx α}
    {P} (h : LeavesTasks m) :
    (onResources m).Keeps (EvolvesWith P c cancelled db₀) :=
  keeps_evolvesWith (keeps_onResources h) fun T => keeps_resources (h T)

theorem keeps_evolvesWith_scheduleInTx {request P} :
    (scheduleInTx new request).Keeps (EvolvesWith P c cancelled db₀) :=
  keeps_evolvesWith keeps_scheduleInTx fun T =>
    keeps_resources_scheduleInTx (I := fun r => r.episodeTasks = T) fun _ _ h => h

def WorkOn (resource : Resource) (listed : List Operation) (db : Database) : Prop :=
  ∀ o ∈ db.operations.rows, o.id ∈ listed.map Operation.id → o.resource = some resource

section Cancel

variable {now : Timestamp}

theorem requestOperationCancellation_evolves {listed} (hid : id ∈ listed.map Operation.id) :
    (requestOperationCancellation now id).Keeps fun db =>
      Evolves c (· = taskID) db₀ db ∧ WorkOn (.episodeTask, taskID) listed db := by
  rintro db row db' ⟨hdb, hwork⟩ hrun
  obtain ⟨-, _, rfl⟩ := Slot.updateOne_ok.mp hrun
  refine ⟨⟨hdb.tasks, fun other ⟨o', hmem, hresource, hlive, hreq⟩ => ?_⟩,
    fun o' hmem hlisted => ?_⟩
  · obtain ⟨o, ho, rfl⟩ := List.mem_map.mp hmem
    by_cases hp : atKey Operation.id id (fun o => o.status.live) o = true
    · -- the operation that was asked works on the task
      rw [patch_of_true hp] at hresource
      simp only [atKey, Bool.and_eq_true, decide_eq_true_eq] at hp
      have hown := hwork o ho (hp.1 ▸ hid)
      rw [show o.resource = _ from hresource] at hown
      cases hown
      exact .inr rfl
    · rw [patch_of_false (by simpa using hp)] at hresource hlive hreq
      exact hdb.stopping other ⟨o, ho, hresource, hlive, hreq⟩
  · obtain ⟨o, ho, rfl⟩ := List.mem_map.mp hmem
    rw [patch_field (f := Operation.requestCancellation now) (g := Operation.id)
      fun _ => rfl] at hlisted
    rw [patch_field (f := Operation.requestCancellation now) (g := Operation.resource)
      fun _ => rfl]
    exact hwork o ho hlisted

theorem requestResourceOperationCancellations_evolves :
    (requestResourceOperationCancellations now (.episodeTask, taskID)).Keeps
      (Evolves c (· = taskID) db₀) := by
  refine Tx.Triple.bind (Q := fun listed db =>
    Evolves c (· = taskID) db₀ db ∧ WorkOn (.episodeTask, taskID) listed db) ?_ fun listed => ?_
  · intro db listed db' hdb hrun
    cases Slot.select_ok.mp hrun
    refine ⟨hdb, fun o ho hlisted => ?_⟩
    obtain ⟨o', ho', hid⟩ := List.mem_map.mp hlisted
    obtain ⟨hmem, hp⟩ := List.mem_filter.mp ho'
    rw [db.operations.eq_of_key operations_pkey ho hmem hid.symm]
    simp only [Bool.and_eq_true, decide_eq_true_eq] at hp
    exact hp.1
  refine Tx.Triple.conseq (Tx.Keeps.forM fun o ho => ?_) (fun _ h => h) fun _ _ h => h.1
  refine Tx.Keeps.bind (keeps_context (requestOperationCancellation_evolves
    (List.mem_map_of_mem ho))) fun row => ?_
  cases row with
  | none => exact Tx.Keeps.pure
  | some requested =>
    rintro db u db' ⟨hdb, hwork⟩ hrun
    refine ⟨keeps_appendResourceEvent hdb hrun, ?_⟩
    obtain ⟨events, rfl⟩ := onResources_appendEvent_ok hrun
    exact hwork

/-- The statement stops the task whose operations were asked to cancel. -/
theorem cancelIfActive_tasksSettled {text : String} {rejected : Fault} :
    (requeueTask text rejected (updateTask taskID (EpisodeTask.cancelIfActive version))).Triple
      (Evolves c (· = taskID) db₀) fun _ => TasksSettled c (· = taskID) db₀ := by
  intro db u db' hdb hrun
  obtain ⟨row, db₁, hupdate, hrun⟩ := Tx.bind_ok.mp hrun
  rw [context_ok] at hupdate
  cases row with
  | none => cases hrun
  | some row =>
    cases hrun
    refine ⟨keeps_updateTask (fun _ hguard => .cancel (.command _) hguard) hdb hupdate, ?_⟩
    rintro t' ht' hid'
    obtain ⟨r, hr, rfl⟩ := Tx.zoom_ok.mp hupdate
    rcases Slot.updateOne_atKey episodeTasks_pkey hr with ⟨h, -⟩ | ⟨x, hx, hguard, -⟩
    · cases h
    obtain ⟨t, hmem, h⟩ := mem_updateTask hr ht'
    rcases h with ⟨rfl, hno⟩ | ⟨-, -, rfl⟩
    · have hsame := task_eq_of_id hmem (mem_of_lookup hx) (hid'.trans (key_of_lookup hx).symm)
      subst hsame
      rw [hno hid'] at hguard
      cases hguard
    · rfl

theorem cancelTask_tasksSettled :
    (cancelTask now new taskID version key).Triple (· = db₀)
      fun _ db => ∃ cancelled, TasksSettled c cancelled db₀ db := by
  refine Tx.Triple.bind keeps_findIdempotentResourceCommand fun existing => ?_
  cases existing with
  | some existing => exact Tx.Triple.pure fun _ h => h ▸ ⟨_, Evolves.refl.tasksSettled⟩
  | none =>
    refine Tx.Triple.conseq (P := Evolves c (· = taskID) db₀)
      (Q := fun _ => TasksSettled c (· = taskID) db₀) ?_ (fun _ h => h ▸ .refl) fun _ _ h => ⟨_, h⟩
    refine Tx.Triple.bind requestResourceOperationCancellations_evolves fun _ => ?_
    refine Tx.Triple.bind keeps_lockTask fun task => ?_
    split
    · exact Tx.Triple.throw
    refine cancelIfActive_tasksSettled.bind_keeps fun _ => ?_
    refine (keeps_context keeps_evolvesWith_scheduleInTx).bind fun scheduled => ?_
    exact (keeps_evolvesWith_onResources leavesTasks_appendEvent).bind fun _ => Tx.Keeps.pure

/-! ## Deletions -/

def TaskOf (db : Database) (acquisitionID taskID : UUID) : Prop :=
  ∃ t ∈ db.resources.episodeTasks.rows, t.id = taskID ∧ t.acquisitionID = acquisitionID

theorem requestAcquisitionOperationCancellations_evolves {excluded : UUID} :
    (requestAcquisitionOperationCancellations now acquisitionID excluded).Triple (· = db₀)
      fun _ db => Evolves c (TaskOf db₀ acquisitionID) db₀ db ∧ db.resources = db₀.resources := by
  rintro db u db' rfl hrun
  obtain ⟨_, _, hget, hrun⟩ := Tx.bind_ok.mp hrun
  cases hget
  obtain ⟨rows, db₁, hupdate, hrun⟩ := Tx.bind_ok.mp hrun
  cases hrun
  obtain ⟨-, _, rfl⟩ := Slot.update_ok.mp hupdate
  refine ⟨⟨fun t ht => ⟨t, .inl ht, .refl⟩, fun taskID ⟨o', hmem, hresource, hlive, hreq⟩ => ?_⟩,
    rfl⟩
  obtain ⟨o, ho, rfl⟩ := List.mem_map.mp hmem
  rcases patch_cases _ (Operation.requestCancellation now) o with ⟨hp, heq⟩ | ⟨-, heq⟩
  · -- an operation that belongs to the acquisition through a task
    rw [heq] at hresource
    have hbelongs := Bool.and_elim_right hp
    rw [Operation.belongsTo, show o.resource = _ from hresource] at hbelongs
    obtain ⟨t, ht, hpt⟩ := List.any_eq_true.mp hbelongs
    simp only [Bool.and_eq_true, decide_eq_true_eq] at hpt
    exact .inr ⟨t, ht, hpt.1.1, hpt.1.2⟩
  · rw [heq] at hresource hlive hreq
    exact .inl ⟨o, ho, hresource, hlive, hreq⟩

theorem cancelAcquisitionTasksForDeletion_tasksSettled :
    (onResources (cancelAcquisitionTasksForDeletion acquisitionID)).Triple
      (fun db => Evolves c (TaskOf db₀ acquisitionID) db₀ db ∧ db.resources = db₀.resources)
      fun _ => TasksSettled c (TaskOf db₀ acquisitionID) db₀ := by
  rintro db rows db' ⟨hdb, hsame⟩ hrun
  obtain ⟨r, hr, rfl⟩ := Tx.zoom_ok.mp hrun
  obtain ⟨-, _, rfl⟩ := Slot.update_ok.mp hr
  refine ⟨hdb.move rfl fun t' ht' => ?_, fun t' ht' hcancelled => ?_⟩
  · obtain ⟨t, hmem, rfl⟩ := List.mem_map.mp ht'
    refine ⟨t, hmem, ?_⟩
    rcases patch_cases _ EpisodeTask.cancelForDeletion.set t with ⟨hp, heq⟩ | ⟨-, heq⟩
    · rw [heq]
      exact .inr (.cancel .deletion (Bool.and_elim_right hp))
    · exact .inl heq
  · obtain ⟨t, hmem, rfl⟩ := List.mem_map.mp ht'
    obtain ⟨t₀, ht₀, hid, howner⟩ := hcancelled
    rw [← hsame] at ht₀
    rw [patch_field (f := EpisodeTask.cancelForDeletion.set) (g := EpisodeTask.id)
      fun _ => rfl] at hid
    -- the task is the one that made the cancellation possible
    cases task_eq_of_id ht₀ hmem hid
    rcases patch_cases _ EpisodeTask.cancelForDeletion.set t with ⟨-, heq⟩ | ⟨hp, heq⟩
    · rw [heq]
      rfl
    · rw [heq]
      rw [howner, decide_eq_true rfl] at hp
      simp only [EpisodeTask.cancelForDeletion, EpisodeTask.stopped] at hp ⊢
      cases hstate : t.state <;> simp_all

theorem prepareAcquisitionDeletion_tasksSettled {allowExisting : Bool} {excluded : UUID} :
    (prepareAcquisitionDeletion now acquisitionID allowExisting excluded).Triple (· = db₀)
      fun _ => TasksSettled c (TaskOf db₀ acquisitionID) db₀ := by
  refine Tx.Triple.bind Tx.Keeps.get fun db => ?_
  split
  · exact Tx.Triple.throw
  split
  · exact Tx.Triple.throw
  refine Tx.Triple.bind (Tx.Triple.mapError
    (requestAcquisitionOperationCancellations_evolves (c := c))) fun _ => ?_
  refine (Tx.Triple.mapError cancelAcquisitionTasksForDeletion_tasksSettled).bind_keeps fun _ => ?_
  refine (keeps_context (keeps_evolvesWith_onResources fun _ =>
    Slot.keeps_update fun _ _ h => h)).bind fun _ => ?_
  split
  · exact Tx.Keeps.bind (keeps_context (keeps_requireRow (keeps_evolvesWith_onResources
      (leavesTasks_updateOne fun _ _ _ h => h)))) fun _ => Tx.Keeps.pure
  · exact Tx.Keeps.pure

end Cancel

theorem keeps_deleteTasks {p} :
    (onResources (episodeTasksSlot.delete p)).Keeps (Evolves c cancelled db₀) := by
  intro db n db' hdb hrun
  obtain ⟨r, hr, rfl⟩ := Tx.zoom_ok.mp hrun
  obtain ⟨-, rfl⟩ := Slot.delete_ok.mp hr
  exact hdb.move rfl fun t ht => ⟨t, List.mem_of_mem_filter ht, .inl rfl⟩

theorem deleteAcquisitionRows_evolves :
    (onResources (deleteAcquisitionRows acquisitionID)).Keeps (Evolves c cancelled db₀) := by
  refine keeps_onResources_bind (keeps_onResources fun _ => Tx.Keeps.get) fun r => ?_
  refine keeps_onResources_bind (keeps_onResources fun _ =>
    keeps_context (Slot.keeps_delete fun _ _ h => h)) fun _ => ?_
  refine keeps_onResources_bind (keeps_onResources fun _ =>
    keeps_context (Slot.keeps_delete fun _ _ h => h)) fun _ => ?_
  refine keeps_onResources_bind (keeps_onResources_iff.mpr fun db =>
    keeps_context (keeps_onResources_iff.mp keeps_deleteTasks db)) fun _ => ?_
  refine keeps_onResources fun _ => ?_
  refine (keeps_context (Slot.keeps_delete fun _ _ h => h)).bind fun deleted => ?_
  split
  · exact Tx.Triple.throw
  · exact Tx.Keeps.pure

theorem completeDeletion_evolves :
    (completeDeletion acquisitionID operationID).Keeps (Evolves c cancelled db₀) := by
  refine Tx.Keeps.get.bind fun db => ?_
  dsimp only
  split
  · exact Tx.Keeps.pure
  split
  · exact Tx.Triple.throw
  exact keeps_appendResourceEvent.bind fun _ => deleteAcquisitionRows_evolves

/-! ## The creation of tasks -/

/-- The file of a video belongs to the download. -/
def VideoOf (db : Database) (downloadID : UUID) (video : MaterializeVideo) : Prop :=
  ∃ f ∈ db.resources.downloadFiles.rows, f.downloadID = downloadID ∧ f.id = video.fileID

/-- The operations of a task that a video of the download may get, but does not have, are not
being stopped. Files are deleted with their tasks, and their identifiers are drawn at random. -/
def UnusedIdle (hashes : Hashes) (downloadID : UUID) (db : Database) : Prop :=
  ∀ locked video, VideoOf db downloadID video → StoppingAt db (taskIDOf hashes locked video) →
    ∃ t ∈ db.resources.episodeTasks.rows, t.id = taskIDOf hashes locked video

/-- The tasks evolved and none is gone. -/
abbrev Grown (c : UUID → Occasion) (db : Database) : Database → Prop :=
  EvolvesWith (fun T => ∀ t ∈ db.resources.episodeTasks.rows, ∃ t' ∈ T.rows, t'.id = t.id)
    c (fun _ => False) db

theorem createEpisodeTask_grown (hfresh : task.Fresh)
    (hidle : StoppingAt db₀ task.id → ∃ t ∈ db₀.resources.episodeTasks.rows, t.id = task.id) :
    (onResources (createEpisodeTask task)).Keeps (Grown c db₀) := by
  rintro db row db' ⟨hdb, hkept⟩ hrun
  obtain ⟨r, hr, rfl⟩ := Tx.zoom_ok.mp hrun
  obtain ⟨existing, r₁, hselect, hr⟩ := Tx.bind_ok.mp hr
  rw [Slot.selectOne_ok, Prod.mk.injEq] at hselect
  obtain ⟨-, rfl⟩ := hselect
  cases existing with
  | some _ =>
    cases hr
    exact ⟨hdb.congr rfl rfl, hkept⟩
  | none =>
  obtain ⟨_, r₂, hinsert, hr⟩ := Tx.bind_ok.mp hr
  cases hr
  obtain ⟨hv, rfl⟩ := Slot.insert_ok.mp hinsert
  refine ⟨⟨fun t' ht' => ?_, hdb.stopping⟩, fun t ht => ?_⟩
  · rcases List.mem_append.mp ht' with hmem | hmem
    · exact hdb.tasks t' hmem
    · -- the new row: its identifier is not in use
      cases List.mem_singleton.mp hmem
      refine ⟨task, .inr ⟨hfresh, fun hstopping => ?_⟩, .refl⟩
      obtain ⟨t, ht, hid⟩ := hidle hstopping
      obtain ⟨t₁, ht₁, hid₁⟩ := hkept t ht
      have hne := (List.pairwise_append.mp (hv.2 _ episodeTasks_pkey)).2.2 t₁ ht₁ task
        (List.mem_singleton_self task)
      simp [hid₁, hid] at hne
  · obtain ⟨t', ht', hid⟩ := hkept t ht
    exact ⟨t', List.mem_append_left _ ht', hid⟩

section Materialize

variable {ids : UUID → OperationKind → NewOperation} {downloadID : UUID}
variable {locked : MaterializeDownload} {profile : TranscodeProfileRow} {video : MaterializeVideo}

theorem materializeVideo_grown (hunused : UnusedIdle hashes downloadID db₀)
    (hvideo : VideoOf db₀ downloadID video) :
    (materializeVideo hashes ids downloadID operationID locked profile video).Keeps
      (Grown c db₀) := by
  refine Tx.Keeps.bind (Tx.Keeps.bind (keeps_context (createEpisodeTask_grown ⟨rfl, rfl, rfl, rfl⟩
    (hunused locked video hvideo))) fun created => ?_) fun created => ?_
  · cases created with
    | some task => exact Tx.Keeps.pure
    | none =>
      refine Tx.Keeps.bind (keeps_context (keeps_requireRow (keeps_evolvesWith_onResources fun _ =>
        Slot.keeps_selectOne))) fun _ => Tx.Keeps.pure
  dsimp only
  split
  · exact Tx.Triple.throw
  refine Tx.Keeps.bind (Tx.Keeps.forM fun job _ => ?_) fun _ => ?_
  · exact (keeps_context keeps_evolvesWith_scheduleInTx).bind fun _ => Tx.Keeps.pure
  split
  · exact keeps_evolvesWith_onResources leavesTasks_appendEvent
  · exact Tx.Keeps.pure

theorem checkMaterialize_ok {r r' : Resources} {row videos}
    (h : checkMaterialize downloadID locked r = .ok ((row, videos), r')) :
    r' = r ∧ videos = listMaterializeVideos locked.acquisition locked.series downloadID r := by
  unfold checkMaterialize at h
  split at h
  · cases h
  split at h
  · cases h
  obtain ⟨found, r₁, hfound, h⟩ := Tx.bind_ok.mp h
  have hr₁ : r₁ = r := by cases hfound; rfl
  subst hr₁
  cases found with
  | none => cases h
  | some found =>
    cases hprofile : validateTranscodeProfile found.profile <;> simp only [hprofile] at h
    · cases h
    obtain ⟨_, _, hget, h⟩ := Tx.bind_ok.mp h
    cases hget
    split at h
    · cases h
    next hvideos =>
    cases hvalid : (listMaterializeVideos locked.acquisition locked.series downloadID r₁).forM
      (fun video => validateMaterializeVideo video found.profile) <;> simp only [hvalid] at h <;>
      cases h
    exact ⟨rfl, rfl⟩

theorem checkMaterialize_triple :
    (onResources (checkMaterialize downloadID locked)).Triple (· = db₀)
      fun checked db => db = db₀ ∧ ∀ video ∈ checked.2, VideoOf db₀ downloadID video := by
  rintro db checked db' rfl hrun
  obtain ⟨r, hr, rfl⟩ := Tx.zoom_ok.mp hrun
  obtain ⟨row, videos⟩ := checked
  obtain ⟨rfl, rfl⟩ := checkMaterialize_ok hr
  refine ⟨rfl, fun video h => ?_⟩
  obtain ⟨f, hf, rfl⟩ := List.mem_map.mp h
  rw [List.mem_insertionSort, List.mem_filter] at hf
  simp only [Bool.and_eq_true, decide_eq_true_eq] at hf
  exact ⟨f, hf.1, hf.2.1.1, rfl⟩

theorem materializeDownload_evolves (hunused : UnusedIdle hashes downloadID db₀) :
    (materializeDownload hashes ids downloadID operationID).Triple (· = db₀)
      fun _ => Evolves c (fun _ => False) db₀ := by
  refine Tx.Triple.bind (keeps_orNotFound (keeps_context
    (keeps_read fun r a r' h => by cases h; rfl))) fun locked => ?_
  split
  · exact Tx.Triple.pure fun db h => h ▸ .refl
  split
  · exact Tx.Triple.throw
  refine Tx.Triple.bind checkMaterialize_triple fun checked => .given fun hvideos => ?_
  refine Tx.Triple.conseq (P := Grown c db₀) (Q := fun _ => Grown c db₀) ?_
    (fun _ h => h ▸ ⟨.refl, fun t ht => ⟨t, ht, rfl⟩⟩) fun _ _ h => h.1
  refine Tx.Keeps.bind (keeps_context (keeps_requireRow (keeps_evolvesWith_onResources
    (leavesTasks_updateOne fun _ _ _ h => h)))) fun _ => ?_
  refine Tx.Keeps.bind (Tx.Keeps.forM fun video hvideo =>
    materializeVideo_grown hunused (hvideos video hvideo)) fun _ => ?_
  refine Tx.Keeps.bind (keeps_context (keeps_requireRow (keeps_evolvesWith_onResources
    (leavesTasks_updateOne fun _ _ _ h => h)))) fun _ => ?_
  exact keeps_evolvesWith_onResources leavesTasks_appendEvent

end Materialize

end EmbyAuto
