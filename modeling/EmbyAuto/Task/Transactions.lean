import EmbyAuto.Task.Simulation

/-!
# The task workflow moves tasks

Every transaction of the task workflow evolves the tasks by moves. The proofs follow the
transactions statement by statement.

## Main results

* `beginTaskMedia_evolves`, `completeArtifact_evolves`, `completeFinalize_evolves`,
  `reviewTask_evolves`, `queueImport_evolves`, `beginImport_evolves`, `completeImport_evolves`:
  the workflow
-/

namespace EmbyAuto

open Relational Database Resources

variable {c : UUID → Occasion} {cancelled : UUID → Prop} {db₀ db db' : Database}
variable {α : Type} {id taskID operationID : UUID}

/-! ## Reads and updates of one task -/

variable {new : NewOperation} {hashes : Hashes} {I : Database → Prop} {st : EpisodeTask.Statement}
  {text : String} {completion : MediaArtifactCompletion} {importID : UUID}

theorem lockTask_triple :
    (lockTask text id).Triple I
      fun t db => I db ∧ t ∈ db.resources.episodeTasks.rows ∧ t.id = id := by
  intro db t db' hdb hrun
  simp only [lockTask, orNotFound_ok, context_ok] at hrun
  obtain ⟨r, hr, rfl⟩ := Tx.zoom_ok.mp hrun
  simp only [lockEpisodeTask, Slot.selectOne_ok, Prod.mk.injEq] at hr
  obtain ⟨hfind, rfl⟩ := hr
  exact ⟨hdb, mem_of_lookup hfind.symm, key_of_lookup hfind.symm⟩

theorem keeps_lockTask : (lockTask text id).Keeps I :=
  lockTask_triple.conseq (fun _ h => h) fun _ _ h => h.1

theorem keeps_requireTask {update}
    (h : (onResources update).Keeps I) : (requireTask text update).Keeps I :=
  keeps_context (keeps_requireRow h)

/-! ## The media branches -/

def EpisodeTask.branchActive (t : EpisodeTask) : MediaKind → Bool
  | .video => t.videoActive
  | .subtitle => t.subtitleActive
  | _ => false

/-- A worker that begins the branch restarts a task that has failed. -/
def Restarts (db : Database) (taskID : UUID) (kind : MediaKind) : Prop :=
  ∃ t ∈ db.resources.episodeTasks.rows, t.id = taskID ∧ t.state = .failed ∧
    t.branchActive kind = true

theorem startBranch_evolves {text code branch branchState taskState : String} {stuck : Bool}
    (hst : ∀ t ∈ db₀.resources.episodeTasks.rows, t.id = taskID → st.guard t = true →
      TaskMove (c taskID) t (st.set t)) :
    (startBranch taskID text code branch branchState taskState stuck st).Triple (· = db₀)
      fun _ => Evolves c cancelled db₀ := by
  unfold startBranch
  split
  · exact Tx.Triple.throw
  · refine (Tx.Triple.mapError ?_).bind_keeps fun row => ?_
    · rintro _ row db' rfl hrun
      obtain ⟨r, hr, rfl⟩ := Tx.zoom_ok.mp hrun
      refine Evolves.refl.move rfl fun t' ht' => ?_
      obtain ⟨t, hmem, ⟨rfl, -⟩ | ⟨rfl, hguard, rfl⟩⟩ := mem_updateTask hr ht'
      · exact ⟨t', hmem, .inl rfl⟩
      · exact ⟨t, hmem, .inr (hst t hmem rfl hguard)⟩
    · cases row with
      | none => exact Tx.Triple.throw
      | some _ => exact Tx.Keeps.pure

theorem beginTaskMedia_evolves {kind : MediaKind}
    (hrestart : Restarts db₀ taskID kind → (c taskID).restarting) :
    (beginTaskMedia taskID kind).Triple (· = db₀) fun _ => Evolves c cancelled db₀ := by
  refine Tx.Triple.bind keeps_lockTask fun task => ?_
  split
  · exact Tx.Triple.throw
  have done : (pure () : DatabaseTx Unit).Triple (· = db₀)
      fun _ => Evolves c cancelled db₀ := by
    refine Tx.Triple.pure fun db h => ?_
    cases h
    exact .refl
  cases kind with
  | video =>
    dsimp only
    split
    · exact done
    refine startBranch_evolves fun t hmem hid hguard => .begin .video hguard fun hfailed => ?_
    exact hrestart ⟨t, hmem, hid, hfailed, Bool.and_elim_right hguard⟩
  | subtitle =>
    dsimp only
    split
    · exact done
    refine startBranch_evolves fun t hmem hid hguard => .begin .subtitle hguard fun hfailed => ?_
    exact hrestart ⟨t, hmem, hid, hfailed, Bool.and_elim_right hguard⟩
  | _ => exact Tx.Triple.throw

/-- The branch of the task has been marked ready and the branches are not joined yet. -/
def Unjoined (c : UUID → Occasion) (cancelled : UUID → Prop) (db₀ : Database) (taskID : UUID)
    (db : Database) : Prop :=
  ∃ db₁, Evolves c cancelled db₀ db₁ ∧ db.operations = db₁.operations ∧
    ∀ t' ∈ db.resources.episodeTasks.rows,
      (t'.id ≠ taskID ∧ t' ∈ db₁.resources.episodeTasks.rows) ∨
        ∃ t ∈ db₁.resources.episodeTasks.rows, t.id = taskID ∧
          ∃ st : EpisodeTask.Statement, st.Readies ∧ st.guard t = true ∧ t' = st.set t

theorem episodeTasks_pkey :
    ("episode_tasks_pkey", fun a b : EpisodeTask => decide (a.id = b.id)) ∈
      episodeTaskSchema.uniques :=
  List.mem_cons_self

theorem task_eq_of_id {r : Resources} {t t' : EpisodeTask} (ht : t ∈ r.episodeTasks.rows)
    (ht' : t' ∈ r.episodeTasks.rows) (hid : t.id = t'.id) : t = t' :=
  r.episodeTasks.eq_of_conflict episodeTasks_pkey (fun _ _ => decide_eq_decide.mpr eq_comm) ht ht'
    (decide_eq_true hid)

theorem markReady_unjoined (kind : st.Readies) :
    (requireTask text (updateTask taskID st)).Triple (Evolves c cancelled db₀)
      fun _ => Unjoined c cancelled db₀ taskID := by
  intro db row db' hdb hrun
  simp only [requireTask, context_ok, requireRow_ok] at hrun
  obtain ⟨r, hr, rfl⟩ := Tx.zoom_ok.mp hrun
  refine ⟨db, hdb, rfl, fun t' ht' => ?_⟩
  rcases Slot.updateOne_atKey episodeTasks_pkey hr with ⟨h, -⟩ | ⟨x, hx, hguard, -⟩
  · cases h
  obtain ⟨t, hmem, h⟩ := mem_updateTask hr ht'
  rcases h with ⟨rfl, hno⟩ | ⟨hid, hg, rfl⟩
  · refine .inl ⟨fun hid => ?_, hmem⟩
    -- the row that was found is the only one with the identifier
    have hsame := task_eq_of_id hmem (mem_of_lookup hx) (hid.trans (key_of_lookup hx).symm)
    subst hsame
    rw [hno hid] at hguard
    cases hguard
  · exact .inr ⟨t, hmem, hid, st, kind, hg, rfl⟩

/-- The join of the branches completes the move. -/
theorem markFinalizing_evolves :
    (onResources (updateTask taskID EpisodeTask.markFinalizingIfReady)).Triple
      (Unjoined c cancelled db₀ taskID) fun _ => Evolves c cancelled db₀ := by
  rintro db row db' ⟨db₁, hdb₁, ho, hrows⟩ hrun
  obtain ⟨r, hr, rfl⟩ := Tx.zoom_ok.mp hrun
  refine hdb₁.move ho fun t'' ht'' => ?_
  obtain ⟨t', hmem', h⟩ := mem_updateTask hr ht''
  rcases hrows t' hmem' with ⟨hne, hmem⟩ | ⟨t, hmem, hid, st, kind, hguard, rfl⟩
  · rcases h with ⟨rfl, -⟩ | ⟨hid, -⟩
    · exact ⟨t'', hmem, .inl rfl⟩
    · exact absurd hid hne
  · have hid' : (st.set t).id = taskID := by cases kind <;> exact hid
    refine ⟨t, hmem, .inr ?_⟩
    have hmove : TaskMove (c t.id) t (st.set t).join := .ready kind hguard
    rcases h with ⟨rfl, hno⟩ | ⟨-, hjoin, rfl⟩
    · rwa [EpisodeTask.join, if_neg (by simp [hno hid'])] at hmove
    · rwa [EpisodeTask.join, if_pos hjoin] at hmove

theorem finalizeIfReady_evolves :
    (finalizeIfReady new taskID operationID).Triple (Unjoined c cancelled db₀ taskID)
      fun _ => Evolves c cancelled db₀ := by
  refine (Tx.Triple.mapError markFinalizing_evolves).bind_keeps fun row => ?_
  cases row with
  | none => exact Tx.Keeps.pure
  | some _ => exact (keeps_context keeps_scheduleInTx).bind fun _ => keeps_appendResourceEvent

theorem leavesTasks_upsertMediaArtifact {artifact} :
    LeavesTasks (upsertMediaArtifact artifact) := by
  refine fun T => (leavesTasks_updateOne (fun _ _ _ h => h) T).bind fun row => ?_
  cases row with
  | none => exact (Slot.keeps_insert fun _ _ h => h).bind fun _ => Tx.Keeps.pure
  | some _ => exact Tx.Keeps.pure

theorem storeArtifact_evolves (hkind : completion.kind = .video ∨ completion.kind = .subtitle) :
    (storeArtifact hashes new completion).Keeps (Evolves c cancelled db₀) := by
  refine (keeps_context (keeps_onResources leavesTasks_upsertMediaArtifact)).bind fun artifact => ?_
  refine Tx.Triple.bind (Q := fun _ => Unjoined c cancelled db₀ completion.taskID) ?_ fun _ => ?_
  · rcases hkind with hkind | hkind <;> rw [hkind]
    · exact (markReady_unjoined .video).bind_keeps fun _ => Tx.Keeps.pure
    · exact (markReady_unjoined .subtitle).bind_keeps fun _ => Tx.Keeps.pure
  refine Tx.Triple.bind ?_ fun _ => finalizeIfReady_evolves
  rintro db u db' ⟨db₁, hdb₁, ho, hrows⟩ hrun
  obtain ⟨events, rfl⟩ := onResources_appendEvent_ok hrun
  exact ⟨db₁, hdb₁, ho, hrows⟩

theorem validateArtifactCompletion_kind (h : validateArtifactCompletion completion = .ok ()) :
    completion.kind = .video ∨ completion.kind = .subtitle := by
  by_contra hkind
  rw [not_or] at hkind
  unfold validateArtifactCompletion at h
  split at h
  · cases h
  split at h
  · cases h
  cases h

theorem completeArtifact_evolves :
    (completeArtifact hashes new completion).Keeps (Evolves c cancelled db₀) := by
  unfold completeArtifact
  split
  · exact Tx.Triple.throw
  · next hvalid =>
    refine keeps_lockTask.bind fun task => ?_
    split
    · refine Tx.Keeps.bind (keeps_read ?_) fun existing => ?_
      · intro r a r' h
        cases h
        rfl
      split
      · exact Tx.Keeps.pure
      · exact Tx.Triple.throw
    · exact storeArtifact_evolves (validateArtifactCompletion_kind hvalid)

/-! ## Finalisation, review and import -/

/-- A statement by which the task goes on after its media. -/
theorem keeps_advance (kind : st.Advances) :
    (onResources (updateTask id st)).Keeps (Evolves c cancelled db₀) :=
  keeps_updateTask fun _ => .advance kind

theorem keeps_markTaskReviewed {decision} {version : Int} :
    (onResources (markTaskReviewed id decision version)).Keeps (Evolves c cancelled db₀) :=
  keeps_updateTaskWith fun _ _ => .advance (.reviewed _ _ _)

theorem keeps_markTaskImportQueued {version : Int} :
    (onResources (markTaskImportQueued id version)).Keeps (Evolves c cancelled db₀) :=
  keeps_updateTaskWith fun _ _ => .advance (.importQueued _ _ _)

theorem leavesTasks_createTaskReview {review : Review} : LeavesTasks (createTaskReview review) :=
  fun _ => Slot.keeps_insert fun _ _ h => h

theorem leavesTasks_createTaskImport : LeavesTasks (createTaskImport id taskID) :=
  fun _ => Tx.Keeps.get.bind fun _ => Slot.keeps_insert fun _ _ h => h

theorem leavesTasks_createArtifactSet {set : ArtifactSet} :
    LeavesTasks (createArtifactSet set) := by
  refine fun T => (leavesTasks_updateOne (fun _ _ _ h => h) T).bind fun row => ?_
  cases row with
  | none => exact Slot.keeps_insert fun _ _ h => h
  | some _ => exact Tx.Keeps.pure

theorem queueApprovedImport_evolves {new : NewImport} {reviewed : EpisodeTask}
    {createText queueText scheduleText key : String} {rejected : Option Fault} {event} :
    (queueApprovedImport new taskID reviewed createText queueText scheduleText rejected key
      event).Keeps (Evolves c cancelled db₀) := by
  refine (keeps_context (keeps_onResources leavesTasks_createTaskImport)).bind fun _ => ?_
  refine (keeps_context keeps_markTaskImportQueued).bind fun row => ?_
  cases row with
  | none => exact Tx.Triple.throw
  | some queued =>
    exact (keeps_context keeps_scheduleInTx).bind fun _ => keeps_appendResourceEvent

theorem approveRSSReviewInTx_evolves {subscription} {version : Int} :
    (approveRSSReviewInTx hashes new taskID operationID subscription version).Keeps
      (Evolves c cancelled db₀) := by
  refine (keeps_context (keeps_onResources leavesTasks_createTaskReview)).bind fun _ => ?_
  refine (keeps_requireTask keeps_markTaskReviewed).bind fun _ => ?_
  exact keeps_appendResourceEvent.bind fun _ => queueApprovedImport_evolves

theorem approvePendingAutoReviewsInTx_evolves {ids : UUID → NewOperation} {subscriptionID} :
    (approvePendingAutoReviewsInTx hashes ids subscriptionID).Keeps (Evolves c cancelled db₀) := by
  refine Tx.Keeps.get.bind fun _ => .bind (.forM fun _ _ => ?_) fun _ => .pure
  exact approveRSSReviewInTx_evolves

theorem pairArtifacts_evolves : (pairArtifacts taskID).Keeps (Evolves c cancelled db₀) := by
  refine (keeps_context (keeps_requireRow (keeps_onResources ?_))).bind fun artifacts => ?_
  · exact fun _ => Tx.Keeps.get.bind fun _ => Tx.Keeps.pure
  dsimp only
  split
  · exact Tx.Triple.throw
  refine (keeps_context (keeps_onResources leavesTasks_createArtifactSet)).bind fun _ => ?_
  exact keeps_requireTask (keeps_advance .awaitingReview)

theorem completeFinalize_evolves :
    (completeFinalize hashes new taskID operationID).Keeps (Evolves c cancelled db₀) := by
  refine keeps_lockTask.bind fun task => ?_
  split
  · exact Tx.Keeps.pure
  split
  · exact Tx.Triple.throw
  refine pairArtifacts_evolves.bind fun awaiting => ?_
  refine keeps_appendResourceEvent.bind fun _ => Tx.Keeps.get.bind fun db => ?_
  split
  · exact Tx.Keeps.pure
  · split
    · exact approveRSSReviewInTx_evolves
    · exact Tx.Keeps.pure

theorem keeps_getArtifactSetForTask :
    (context text (onResources (getArtifactSetForTask id))).Keeps I := by
  refine keeps_context (keeps_read fun r a r' h => ?_)
  cases h
  rfl

theorem keeps_pairedArtifactSet {task : EpisodeTask} : (pairedArtifactSet text task).Keeps I := by
  refine keeps_getArtifactSetForTask.bind fun set => ?_
  cases set with
  | none => exact Tx.Triple.throw
  | some _ => exact Tx.Keeps.pure

theorem decideReview_evolves {new : NewImport} {input : ReviewTask} {decision}
    {locked : EpisodeTask} {key : String} :
    (decideReview new input decision locked key).Keeps (Evolves c cancelled db₀) := by
  refine (keeps_context (keeps_onResources leavesTasks_createTaskReview)).bind fun _ => ?_
  refine (keeps_context keeps_markTaskReviewed).bind fun row => ?_
  cases row with
  | none => exact Tx.Triple.throw
  | some updated =>
    refine keeps_appendResourceEvent.bind fun _ => ?_
    cases decision with
    | rejected => exact Tx.Keeps.pure
    | approved => exact queueApprovedImport_evolves

theorem reviewTask_evolves {new : NewImport} {input : ReviewTask} :
    (reviewTask new input).Keeps (Evolves c cancelled db₀) := by
  unfold reviewTask
  split
  · exact Tx.Triple.throw
  refine keeps_lockTask.bind fun locked => Tx.Keeps.get.bind fun db => ?_
  split
  · split
    · exact Tx.Keeps.pure
    · exact Tx.Triple.throw
  · split
    · exact Tx.Triple.throw
    split
    · exact Tx.Triple.throw
    exact keeps_pairedArtifactSet.bind fun _ => decideReview_evolves

theorem createQueuedImport_evolves {input} {locked : EpisodeTask} {key : String} :
    (createQueuedImport importID new input locked key).Keeps (Evolves c cancelled db₀) := by
  refine (keeps_context (keeps_onResources leavesTasks_createTaskImport)).bind fun _ => ?_
  refine (keeps_context keeps_markTaskImportQueued).bind fun row => ?_
  cases row with
  | none => exact Tx.Triple.throw
  | some updated =>
    refine (keeps_context keeps_scheduleInTx).bind fun scheduled => ?_
    exact keeps_appendResourceEvent.bind fun _ => Tx.Keeps.pure

theorem queueImport_evolves {input} :
    (queueImport importID new input).Keeps (Evolves c cancelled db₀) := by
  unfold queueImport
  split
  · exact Tx.Triple.throw
  refine keeps_lockTask.bind fun locked => ?_
  refine keeps_getOperationByIdempotencyKey.bind fun existing => ?_
  cases existing with
  | some existing =>
    dsimp only
    split
    · exact Tx.Triple.throw
    · exact Tx.Keeps.pure
  | none =>
    dsimp only
    split
    · exact Tx.Triple.throw
    split
    · exact Tx.Triple.throw
    exact keeps_pairedArtifactSet.bind fun _ => createQueuedImport_evolves

theorem leavesTasks_getTaskImportCommand : LeavesTasks (getTaskImportCommand taskID importID) := by
  intro T
  refine Tx.Keeps.bind (Tx.Keeps.get.bind fun _ => Tx.Keeps.pure) fun set => ?_
  cases set with
  | none => exact Tx.Keeps.pure
  | some _ => exact Slot.keeps_selectOne

theorem beginImport_evolves : (beginImport taskID importID).Keeps (Evolves c cancelled db₀) := by
  refine keeps_lockTask.bind fun locked => ?_
  refine Tx.Keeps.bind (keeps_orNotFound (keeps_context
    (keeps_onResources leavesTasks_getTaskImportCommand))) fun row => ?_
  split
  · exact Tx.Keeps.pure
  split
  · exact Tx.Triple.throw
  split
  · exact Tx.Triple.throw
  refine Tx.Keeps.bind (keeps_context (keeps_requireRow (keeps_onResources
    (leavesTasks_updateOne fun _ _ _ h => h)))) fun _ => ?_
  exact (keeps_requireTask (keeps_advance .importing)).bind fun _ => Tx.Keeps.pure

theorem scheduleTaskCleanupInTx_evolves {importID downloadID : UUID} :
    (scheduleTaskCleanupInTx hashes new taskID importID downloadID).Keeps
      (Evolves c cancelled db₀) := by
  refine Tx.Keeps.get.bind fun db => ?_
  refine Tx.Keeps.bind (keeps_context (keeps_onResources fun _ =>
    Slot.keeps_insert fun _ _ h => h)) fun _ => ?_
  exact (keeps_context keeps_scheduleInTx).bind fun _ => Tx.Keeps.pure

theorem cleanupImported_evolves {completion} :
    (cleanupImported hashes new completion).Keeps (Evolves c cancelled db₀) := by
  refine Tx.Keeps.get.bind fun db => ?_
  dsimp only
  split
  · exact Tx.Keeps.pure
  split
  · exact Tx.Triple.throw
  · exact scheduleTaskCleanupInTx_evolves

theorem completeImport_evolves {cleanup refresh : NewOperation} {completion} :
    (completeImport hashes cleanup refresh completion).Keeps (Evolves c cancelled db₀) := by
  unfold completeImport
  split
  · exact Tx.Triple.throw
  refine keeps_lockTask.bind fun locked => ?_
  refine Tx.Keeps.bind (keeps_context (keeps_requireRow
    (keeps_onResources leavesTasks_getTaskImportCommand))) fun command => ?_
  split
  · exact Tx.Keeps.pure
  split
  · exact Tx.Triple.throw
  refine Tx.Keeps.bind (keeps_context (keeps_requireRow (keeps_onResources
    (leavesTasks_updateOne fun _ _ _ h => h)))) fun _ => ?_
  refine (keeps_requireTask (keeps_advance .imported)).bind fun updated => ?_
  refine cleanupImported_evolves.bind fun _ => ?_
  exact (keeps_context keeps_scheduleInTx).bind fun _ => keeps_appendResourceEvent

end EmbyAuto
