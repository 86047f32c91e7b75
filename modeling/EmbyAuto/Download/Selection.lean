import EmbyAuto.Download.Commands
import EmbyAuto.Operation.Worker

/-!
# What becomes of a saved selection

`SaveFileSelection` moves a completed download to `selecting_files` and schedules the job that
materialises it. That job looks at the download in its own transaction and only takes one that
is `completed`: the state that the command leaves behind is the one that the job refuses.

## Main definitions

* `handleDownloadMaterialize`: the worker's handler
* `workDownloadMaterialize`: one run of the job, from the start of the attempt to its record
* `SelectionMaterialized`: the download is materialised, with one task for each selected video

## Main results

* `saveFileSelection_selecting`: an accepted selection leaves the download `selecting_files`
* `saveFileSelection_never_materialized`: the job of an accepted selection materialises nothing
-/

namespace EmbyAuto

open Relational Database Resources

/-! ## The job -/

section Job

/-- `errors.As` for an error of the media workflow. -/
def Fault.asMedia? : Fault → Option (String × String × Bool)
  | .wrap _ cause => cause.asMedia?
  | .media code message retryable => some (code, message, retryable)
  | _ => none

/-- The failure that the handler reports for an error of `MaterializeDownload`. -/
def materializeFailure (fault : Fault) : HandlerResult :=
  if Fault.is .notFound fault then
    .failure "download_not_found" "the download no longer exists" false
  else match fault.asMedia? with
    | some (code, message, retryable) => .failure code message retryable
    | none => .failure "media_storage_unavailable" "the download could not be materialized" true

variable (hashes : Hashes) (new : UUID → OperationKind → NewOperation)

/-- `DownloadMaterializeHandler.Handle` with the transaction that it commits. -/
def handleDownloadMaterialize (operation : Operation) (db : Database) :
    HandlerResult × Database :=
  match operation.resource with
  | some (.download, downloadID) =>
    if downloadID = 0 then (invalid, db)
    else match materializeDownload hashes new downloadID operation.id db with
      | .ok (_, db) => (.success, db)
      | .error fault => (materializeFailure fault, db)
  | _ => (invalid, db)
where
  invalid : HandlerResult :=
    .failure "invalid_download_operation" "download.materialize requires a download resource" false

/-- One undisturbed run of the worker on a `download.materialize` operation. -/
def workDownloadMaterialize (startedAt endedAt : Timestamp) (operationID : UUID) (attempt : Int)
    (workerID : String) (db : Database) : Database :=
  match startAttempt startedAt operationID attempt workerID db with
  | .error _ => db
  | .ok (operation, db) =>
    if operation.status = .cancelled then db
    else
      let (result, db) := handleDownloadMaterialize hashes new operation db
      ((ending { db } result).record endedAt operationID attempt).commit db

end Job

/-- The download is materialised, and each of its selected videos has exactly one task. -/
structure SelectionMaterialized (downloadID : UUID) (db : Database) : Prop where
  download : ∃ d ∈ db.resources.downloads.rows, d.id = downloadID ∧ d.status = .materialized
  tasks : ∀ f ∈ db.resources.downloadFiles.rows, f.downloadID = downloadID →
    f.selected = true → f.mediaKind = .video →
      db.resources.episodeTasks.rows.countP (fun t => t.sourceVideoFileID = f.id) = 1

/-! ## What leaves the downloads alone -/

section Frame

variable {J : Table downloadSchema → Prop}

/-- The invariant reads nothing but the downloads. -/
abbrev OnDownloads (J : Table downloadSchema → Prop) (db : Database) : Prop :=
  J db.resources.downloads

theorem keepsDownloads_onResources {α : Type} {m : ResourcesTx α}
    (h : m.Keeps fun r => J r.downloads) : (onResources m).Keeps (OnDownloads J) :=
  keeps_resources h

theorem keepsDownloads_cancelOperationResource {now : Timestamp} {operation : Operation} :
    (cancelOperationResource now operation).Keeps fun r => J r.downloads :=
  cancelOperationResource_ends.keeps (fun _ _ h => h) (fun _ _ h => h) fun hS => by
    cases hS with
    | «import» | cleanup => exact Tx.Keeps.get.bind fun _ => Slot.keeps_updateOne fun _ _ h => h
    | _ => exact Slot.keeps_updateOne fun _ _ h => h

end Frame

/-! ## An accepted selection -/

/-- The download is selecting files. -/
def Selecting (downloadID : UUID) (downloads : Table downloadSchema) : Prop :=
  ∀ d ∈ downloads.rows, d.id = downloadID → d.status = .selectingFiles

/-- The download is not materialised. -/
def Unmaterialized (downloadID : UUID) (downloads : Table downloadSchema) : Prop :=
  ∀ d ∈ downloads.rows, d.id = downloadID → d.status ≠ .materialized

theorem downloads_pkey : ("downloads_pkey", fun a b : Download => decide (a.id = b.id)) ∈
    downloadSchema.uniques :=
  List.mem_cons_self

variable {J : Table downloadSchema → Prop}

section Command

variable {downloadID : UUID} {expectedVersion : Int} {new : NewOperation} {key : String}
variable {selections : Selections} {current : Download} {op : Operation} {db db' : Database}

theorem keepsDownloads_updateSelections : (updateSelections selections).Keeps (OnDownloads J) := by
  refine Tx.Keeps.forM fun selection _ => ?_
  exact (keeps_context (keeps_requireRow (keepsDownloads_onResources
    (Slot.keeps_updateOne fun _ _ h => h)))).bind fun _ => Tx.Keeps.pure

/-- Whether the download was completed or is selecting files already, it is selecting files
afterwards. -/
theorem enterSelection_selecting
    (hstatus : current.status = .completed ∨ current.status = .selectingFiles) :
    (enterSelection downloadID current).Triple
      (OnDownloads fun t => ∀ d ∈ t.rows, d.id = downloadID → d.status = current.status)
      fun _ => OnDownloads (Selecting downloadID) := by
  unfold enterSelection
  split
  · next hcompleted =>
    refine .bind_keeps ?_ fun _ => Tx.Keeps.pure
    intro s d s' hs hrun
    obtain ⟨r, hr, rfl⟩ := Tx.zoom_ok.mp (requireRow_ok.mp (context_ok.mp hrun))
    obtain ⟨-, _, rfl⟩ := Slot.updateOne_ok.mp hr
    intro d' hmem hid
    obtain ⟨old, hold, rfl⟩ := List.mem_map.mp hmem
    rcases patch_cases (atKey Download.id downloadID fun d => d.status = .completed)
      Download.markSelectingFiles old with ⟨-, heq⟩ | ⟨hno, heq⟩
    · rw [heq]
      rfl
    · -- a row of the download that the guard skips would not be completed
      rw [heq] at hid
      simp [atKey, hid, hs old hold hid, hcompleted] at hno
  · next hcompleted =>
    refine .pure fun s hs d hd hid => ?_
    exact (hs d hd hid).trans (hstatus.resolve_left hcompleted)

/-- The operation is stored, and it is about the download. -/
def HeldFor (downloadID : UUID) (op : Operation) (db : Database) : Prop :=
  op ∈ db.operations.rows ∧ op.resource = some (.download, downloadID)

theorem keepsHeld_onResources {α : Type} {m : ResourcesTx α} :
    (onResources m).Keeps (HeldFor downloadID op) :=
  keeps_onResources_iff.mpr fun _ _ _ _ hs _ => hs

theorem scheduleSelection_heldFor :
    (scheduleSelection downloadID new key current).Triple (fun _ => True) fun op =>
      HeldFor downloadID op := by
  refine .bind (fun _ _ _ _ _ => trivial) fun _ => ?_
  refine .bind (Q := fun scheduled => HeldFor downloadID scheduled.1) (.mapError ?_) fun _ =>
    .bind keepsHeld_onResources fun _ => ?_
  · rintro s ⟨o, created⟩ s' - hrun
    rcases scheduleInTx_ok hrun with ⟨-, rfl, hmem, -, hsame⟩ | ⟨-, added, rfl⟩
    · simp only [sameOperationCommand, Bool.and_eq_true, decide_eq_true_eq] at hsame
      exact ⟨hmem, hsame.1.1.1.2⟩
    · rw [HeldFor, added.rows]
      exact ⟨List.mem_append_right _ (List.mem_singleton_self _), rfl⟩
  exact .bind (keeps_context (keeps_requireRow keepsHeld_onResources)) fun _ =>
    .pure fun _ h => h

theorem scheduleSelection_selecting
    (hstatus : current.status = .completed ∨ current.status = .selectingFiles) :
    (scheduleSelection downloadID new key current).Triple
      (OnDownloads fun t => ∀ d ∈ t.rows, d.id = downloadID → d.status = current.status)
      fun _ => OnDownloads (Selecting downloadID) := by
  refine .bind (enterSelection_selecting hstatus) fun _ => ?_
  refine .bind (keeps_context (keeps_resources_scheduleInTx
    (I := fun r => Selecting downloadID r.downloads) fun _ _ h => h)) fun scheduled => ?_
  refine (keepsDownloads_onResources (keeps_appendEvent fun _ _ h => h)).bind fun _ => ?_
  exact (keeps_context (keeps_requireRow keeps_readOne)).bind fun _ => Tx.Keeps.pure

/-- **An accepted selection** leaves the download `selecting_files`, with an operation for it. -/
theorem saveFileSelection_selecting
    (hrun : saveFileSelection downloadID expectedVersion new key selections db = .ok (op, db')) :
    OnDownloads (Selecting downloadID) db' ∧ HeldFor downloadID op db' := by
  obtain ⟨current, s, hlock, hrest⟩ := Tx.bind_ok.mp hrun
  obtain ⟨rfl, hmem, hid⟩ := lockDownloadByID_ok (context_ok.mp (orNotFound_ok.mp hlock))
  split at hrest
  · cases hrest
  split at hrest
  · cases hrest
  next hstatus =>
  obtain ⟨_, _, ⟨⟩, hrest⟩ := Tx.bind_ok.mp hrest
  cases hunknown : unknownFile? (listDownloadFiles current.id s.resources) selections with
  | some id =>
    simp only [hunknown] at hrest
    cases hrest
  | none =>
  simp only [hunknown] at hrest
  obtain ⟨_, s₁, hupdate, hrest⟩ := Tx.bind_ok.mp hrest
  split at hrest
  · cases hrest
  -- the rows of the download are the one that was locked
  have hrows : OnDownloads (fun t => ∀ d ∈ t.rows, d.id = downloadID → d.status = current.status)
      s₁ := by
    refine keepsDownloads_updateSelections (fun d hd hdid => ?_) hupdate
    rw [s.resources.downloads.eq_of_conflict downloads_pkey (fun a b => by simp [eq_comm]) hd hmem
      (decide_eq_true (hdid.trans hid.symm))]
  have hentry : current.status = .completed ∨ current.status = .selectingFiles := by
    by_contra hno
    exact hstatus (not_or.mp hno)
  exact ⟨scheduleSelection_selecting hentry hrows hrest, scheduleSelection_heldFor trivial hrest⟩

end Command

/-! ## The run of its job -/

section Run

variable {downloadID : UUID} {now : Timestamp} {id : UUID} {n : Int} {operation : Operation}
variable {hashes : Hashes} {new : UUID → OperationKind → NewOperation} {db db' : Database}

variable {code message : String}

theorem keepsUnmaterialized_failAttempt {retryable : Bool} :
    (failAttempt now id n code message retryable).Keeps
      (OnDownloads (Unmaterialized downloadID)) := by
  intro db _ db' hdb hrun
  refine ((Led.frame fun _ _ h => h).failAttempt
    (Led.cancelFrame (fun _ _ h => h) fun _ => keepsDownloads_cancelOperationResource)
    (fun _ => Led.onResources (failResource_ends.keeps (fun _ _ h => h) (fun _ _ h => h)
      fun hS => ?_)) (.refl hdb) hrun).resources
  cases hS with
  | download =>
    intro r row r' hr hrun
    obtain ⟨-, _, rfl⟩ := Slot.updateOne_ok.mp hrun
    intro d hmem hid
    obtain ⟨old, hold, rfl⟩ := List.mem_map.mp hmem
    rcases patch_cases _ _ old with ⟨-, heq⟩ | ⟨-, heq⟩ <;> rw [heq] at hid ⊢
    · exact fun h => nomatch h
    · exact hr old hold hid
  | «import» | cleanup => exact Tx.Keeps.get.bind fun _ => Slot.keeps_updateOne fun _ _ h => h
  | _ => exact Slot.keeps_updateOne fun _ _ h => h

/-- An attempt that starts runs the operation that was stored. -/
theorem Move.resource_eq {r r'} (h : Move r r') (hrunning : r'.operation.undisturbed = true) :
    r'.operation.resource = r.operation.resource := by
  obtain ⟨hstatus, hrequest⟩ := undisturbed_iff.mp hrunning
  cases h with
  | start => rfl
  | cancelBeforeAttempt now settles => exact absurd hstatus settles.not_running
  | finish now n status code message ended running settles =>
    exact absurd hstatus settles.not_running
  | snooze => rfl
  | requestCancellation => rfl

theorem lockDownloadForMaterialize_ok {locked}
    (h : onResources (lockDownloadForMaterialize downloadID) db = .ok (some locked, db)) :
    locked.download ∈ db.resources.downloads.rows ∧ locked.download.id = downloadID := by
  obtain ⟨r, hr, -⟩ := Tx.zoom_ok.mp h
  obtain ⟨hrow, -⟩ := Prod.mk.inj (Except.ok.inj hr)
  obtain ⟨download, hdownload, hrow⟩ := Option.bind_eq_some_iff.mp hrow
  obtain ⟨acquisition, -, hrow⟩ := Option.bind_eq_some_iff.mp hrow
  obtain ⟨series, -, rfl⟩ := Option.map_eq_some_iff.mp hrow
  exact ⟨mem_of_lookup hdownload, key_of_lookup hdownload⟩

/-- The transaction finds no download with an acquisition and a series, or one in the wrong
state. -/
theorem materializeDownload_selecting {operationID : UUID}
    (hselecting : OnDownloads (Selecting downloadID) db) :
    materializeDownload hashes new downloadID operationID db = .error .notFound ∨
      materializeDownload hashes new downloadID operationID db =
        .error (.media "download_state_conflict"
          ("download cannot materialize from state " ++ quote "selecting_files") false) := by
  obtain ⟨row, hrow⟩ : ∃ row,
      onResources (lockDownloadForMaterialize downloadID) db = .ok (row, db) := ⟨_, rfl⟩
  unfold materializeDownload
  cases row with
  | none =>
    refine .inl (Tx.bind_of_error ?_)
    rw [orNotFound, Tx.bind_of_ok (context_ok.mpr hrow)]
    rfl
  | some locked =>
    obtain ⟨hmem, hid⟩ := lockDownloadForMaterialize_ok hrow
    have hstatus := hselecting _ hmem hid
    rw [Tx.bind_of_ok (orNotFound_ok.mpr (context_ok.mpr hrow)), hstatus]
    exact .inr rfl

/-- **The job of an accepted selection** never materialises the download: the status that the
command leaves is not the one that the job expects. -/
theorem saveFileSelection_never_materialized {expectedVersion : Int} {scheduled : NewOperation}
    {key : String} {selections : Selections} {op : Operation}
    (haccepted : saveFileSelection downloadID expectedVersion scheduled key selections db =
      .ok (op, db'))
    (startedAt endedAt : Timestamp) (attempt : Int) (workerID : String) :
    ¬ SelectionMaterialized downloadID
      (workDownloadMaterialize hashes new startedAt endedAt op.id attempt workerID db') := by
  obtain ⟨hselecting, hheld⟩ := saveFileSelection_selecting haccepted
  suffices h : OnDownloads (Unmaterialized downloadID)
      (workDownloadMaterialize hashes new startedAt endedAt op.id attempt workerID db') by
    rintro ⟨⟨d, hd, hid, hstatus⟩, -⟩
    exact h d hd hid hstatus
  have unmaterialized {s : Database} (hs : OnDownloads (Selecting downloadID) s) :
      OnDownloads (Unmaterialized downloadID) s := by
    intro d hd hid hstatus
    cases (hs d hd hid).symm.trans hstatus
  unfold workDownloadMaterialize
  cases hstart : startAttempt startedAt op.id attempt workerID db' with
  | error fault => exact unmaterialized hselecting
  | ok result =>
    obtain ⟨started, s⟩ := result
    have hs := ((Led.frame fun _ _ h => h).startAttempt
      (Led.cancelFrame (fun _ _ h => h) fun _ => keepsDownloads_cancelOperationResource)
      (.refl hselecting) hstart).resources
    dsimp only
    split
    · exact unmaterialized hs
    · next hlive =>
      have hresource : started.resource = some (.download, downloadID) := by
        have hstart := startAttempt_startsAt hstart
        obtain ⟨r, r', hr, hr', hmove⟩ := hstart.move
        rw [recordOf_eq (findOperation_of_mem hheld.1)] at hr
        rw [recordOf_eq hstart.found] at hr'
        cases hr
        cases hr'
        exact (hmove.resource_eq (hstart.outcome.resolve_left hlive).1).trans hheld.2
      obtain ⟨code, message, hhandle⟩ : ∃ code message,
          handleDownloadMaterialize hashes new started s = (.failure code message false, s) := by
        simp only [handleDownloadMaterialize, hresource]
        split
        · exact ⟨_, _, rfl⟩
        rcases materializeDownload_selecting hs with h | h <;> rw [h] <;> exact ⟨_, _, rfl⟩
      rw [hhandle]
      -- the failure is recorded, and a failed download is not materialised
      exact (keeps_context keepsUnmaterialized_failAttempt).commit (unmaterialized hs)

end Run

/-! ## A completed episode -/

/-- A completed download with one mapped video. -/
def completedEpisode : Database where
  resources := {
    acquisitions := ⟨[{ id := 2, seriesID := 3, mappingProfileID := some 4 }], by decide⟩
    mediaSeries := ⟨[{ id := 3, title := "Show", tmdbSeriesID := some 99 }], by decide⟩
    downloads := ⟨[{ id := 1, acquisitionID := 2, torrentHash := some "c0ffee"
                     status := .completed }], by decide⟩
    downloadFiles := ⟨[{ id := 5, downloadID := 1, fileIndex := 0, relativePath := "05.mkv"
                         mediaKind := .video, sourceSeason := some 1
                         sourceEpisode := some 5 }], by decide⟩
    episodeMappings := ⟨[{ id := 6, profileID := 4, sourceSeason := 1, sourceEpisode := 5
                           targetEpisodeID := some 7, status := .mapped }], by decide⟩
    mediaEpisodes := ⟨[{ id := 7, seasonID := 8, episodeNumber := 5, title := "Five" }], by decide⟩
    tmdbSeasons := ⟨[{ id := 8, seriesID := 3, seasonNumber := 1 }], by decide⟩
    transcodeProfiles := ⟨[{ id := 9, isDefault := true
                             profile := defaultTranscodeProfile }], by decide⟩ }

/-- The jobs of the episode's task. -/
def branchOperation (taskID : UUID) : OperationKind → NewOperation
  | .transcodeRun => ⟨taskID + 1000, 3⟩
  | _ => ⟨taskID + 2000, 2⟩

/-- The selection of the episode is accepted, and its job does not materialise it. -/
theorem saveFileSelection_never_materialized_episode :
    ∃ op db, saveFileSelection 1 1 ⟨20, 1⟩ "save" [(5, true)] completedEpisode = .ok (op, db) ∧
      ¬ SelectionMaterialized 1
        (workDownloadMaterialize plainHashes branchOperation 1 2 op.id 1 "worker" db) := by
  have haccepted : saveFileSelection 1 1 ⟨20, 1⟩ "save" [(5, true)] completedEpisode = _ :=
    Tx.ok_of_result? rfl
  exact ⟨_, _, haccepted, saveFileSelection_never_materialized haccepted 1 2 1 "worker"⟩

/-- **An accepted selection fails its own job.** The selected video passes every check of the
job, which still fails for good because the command moved the download. -/
theorem accepted_selection_state_conflict :
    ∃ op db, saveFileSelection 1 1 ⟨20, 1⟩ "save" [(5, true)] completedEpisode = .ok (op, db) ∧
      (∃ locked, onResources (lockDownloadForMaterialize 1) db = .ok (some locked, db) ∧
        (onResources (checkMaterialize 1 locked)).Succeeds db) ∧
      (workDownloadMaterialize plainHashes branchOperation 1 2 op.id 1 "worker"
          db).resources.downloads.rows.map (fun d => (d.status, d.failureStage, d.errorCode)) =
        [(.failed, some .materialize, some "download_state_conflict")] :=
  ⟨_, _, rfl, ⟨_, rfl, _, rfl⟩, rfl⟩

end EmbyAuto
