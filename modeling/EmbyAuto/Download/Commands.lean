import EmbyAuto.Acquisition.Enqueue
import EmbyAuto.Operation.Frame
import EmbyAuto.Task.Commands

/-!
# Commands on a download

`DownloadCommandWorkflow.Retry`, `Cancel` and `SaveFileSelection`. A retry goes back to the
stage that failed. At the enqueue stage it builds the options for the classification of the
files from the source facts that the acquisition stores, not from the operation that ran first.

## Main definitions

* `decodeSelection`: the options in a JSON document, as `encoding/json` decodes them
* `retryDownload`, `cancelDownload`, `saveFileSelection`: the commands

## Main results

* `used_key_replayed`: a command whose key was used changes nothing
-/

namespace EmbyAuto

open Relational Database Resources

/-! ## Options in JSON documents -/

/-- A field of type `int`: zero if it is missing, and no value for an error. -/
def JSON.intField (document : JSON) (name : String) : Option Int :=
  match document.field? name with
  | none | some .null => some 0
  | some (.number n) => if -2 ^ 63 ≤ n ∧ n < 2 ^ 63 then some n else none
  | some _ => none

/-- A field of type `bool`. -/
def JSON.boolField (document : JSON) (name : String) : Option Bool :=
  match document.field? name with
  | none | some .null => some false
  | some (.bool b) => some b
  | some _ => none

/-- The options in a document, with the names of the season and the episode. -/
def decodeSelection (season episode : String) (document : JSON) : Option FileSelectionOptions :=
  match document with
  | .object _ =>
    match document.intField season, document.intField episode,
        document.boolField "singleEpisode" with
    | some defaultSeason, some defaultEpisode, some singleEpisode =>
      some { defaultSeason, defaultEpisode, singleEpisode }
    | _, _, _ => none
  | _ => none

/-- The options that the worker reads from an enqueue operation. -/
def Operation.selectionOptions (o : Operation) : Option FileSelectionOptions :=
  decodeSelection "defaultSeason" "defaultEpisode" o.payload

/-- The options that a retry reads from the source facts of an acquisition. -/
def Acquisition.selectionOptions (a : Acquisition) : Option FileSelectionOptions :=
  decodeSelection "sourceSeason" "sourceEpisode" a.sourcePayload

/-! ## Statements -/

section Statements

variable (id : UUID) (expectedVersion : Int)

def getDownloadByID : ResourcesTx (Option Download) :=
  downloadsSlot.selectOne fun d => d.id = id && d.deletedAt.isNone

def lockDownloadByID : ResourcesTx (Option Download) :=
  downloadsSlot.selectOne fun d => d.id = id

/-- An acquisition is visible unless all its downloads are deleted. -/
def getAcquisitionByID : ResourcesTx (Option Acquisition) := do
  let downloads := (← get).downloads.rows.filter fun d => d.acquisitionID = id
  acquisitionsSlot.selectOne fun a => a.id = id &&
    (downloads.isEmpty || downloads.any fun d => d.deletedAt.isNone)

def listDownloadFiles (r : Resources) : List DownloadFile :=
  (r.downloadFiles.rows.filter fun f => f.downloadID = id).insertionSort
    fun a b => a.fileIndex ≤ b.fileIndex

/-- The columns that every requeue of a download resets. -/
def Download.requeue (status : DownloadStatus) (d : Download) : Download :=
  { d with
    status, failureStage := none, errorCode := none, errorMessage := none
    version := d.version + 1 }

/-- The requeues that go back to a stage that failed. -/
def requeueDownload (stage : DownloadFailureStage) (status : DownloadStatus)
    (guard : Download → Bool) : ResourcesTx (Option Download) :=
  downloadsSlot.updateOne
    (atKey Download.id id fun d => d.status = .failed && d.failureStage = some stage && guard d &&
      (d.version : Int) = expectedVersion)
    (Download.requeue status)

def requeueDownloadEnqueueStage : ResourcesTx (Option Download) :=
  requeueDownload id expectedVersion .enqueue .enqueuePending fun _ => true

def requeueDownloadFileResolutionStage : ResourcesTx (Option Download) :=
  requeueDownload id expectedVersion .fileResolution .fileResolutionPending
    fun d => d.torrentHash.isSome

def requeueDownloadSyncStage : ResourcesTx (Option Download) :=
  requeueDownload id expectedVersion .sync .downloading fun d => d.torrentHash.isSome

def requeueDownloadMaterializeStage : ResourcesTx (Option Download) :=
  requeueDownload id expectedVersion .materialize .completed fun d => d.torrentHash.isSome

/-- The torrent is forgotten along with the failure. -/
def requeueDownloadNoMainVideoFromFileResolution : ResourcesTx (Option Download) :=
  downloadsSlot.updateOne
    (atKey Download.id id fun d => d.status = .failed && d.failureStage = some .fileResolution &&
      d.errorCode = some "download_no_main_video" && d.torrentHash.isSome &&
      (d.version : Int) = expectedVersion)
    fun d => { d.requeue .enqueuePending with
      torrentHash := none, savePath := none, fileResolutionSource := none
      agentResolutionID := none }

/-- Only a cancelled download without tasks starts over. -/
def requeueCancelledDownload : ResourcesTx (Option Download) := do
  let r ← get
  let hasTask : Bool := r.episodeTasks.rows.any fun t =>
    r.downloadFiles.rows.any fun f => f.id = t.sourceVideoFileID && f.downloadID = id
  downloadsSlot.updateOne
    (atKey Download.id id fun d => d.status = .cancelled && d.deletedAt.isNone &&
      d.deletionRequestedAt.isNone && (d.version : Int) = expectedVersion && !hasTask)
    fun d => { d.requeue .enqueuePending with
      torrentHash := none, savePath := none, agentResolutionID := none }

def cancelDownloadIfActive : ResourcesTx (Option Download) :=
  downloadsSlot.updateOne
    (atKey Download.id id fun d => d.status ≠ .materialized && d.status ≠ .cancelled &&
      (d.version : Int) = expectedVersion)
    (Download.requeue .cancelled)

def deleteDownloadFilesByDownloadID : ResourcesTx Nat :=
  downloadFilesSlot.delete fun f => f.downloadID = id

def setDownloadFileSelection (selected : Bool) : ResourcesTx (Option DownloadFile) :=
  downloadFilesSlot.updateOne (fun f => f.id = id) fun f => { f with selected }

end Statements

/-- A download that is read is one of the rows, and reading changes nothing. -/
theorem lockDownloadByID_ok {downloadID : UUID} {current : Download} {db db' : Database}
    (hrun : onResources (lockDownloadByID downloadID) db = .ok (some current, db')) :
    db' = db ∧ current ∈ db.resources.downloads.rows ∧ current.id = downloadID := by
  obtain ⟨r, hr, rfl⟩ := Tx.zoom_ok.mp hrun
  obtain ⟨hfind, rfl⟩ := Prod.mk.inj (Slot.selectOne_ok.mp hr)
  have hid := List.find?_some hfind.symm
  exact ⟨rfl, List.mem_of_find?_eq_some hfind.symm, by simpa using hid⟩

/-! ## Retry -/

section Retry

variable (unicode : Unicode) (downloadID : UUID) (expectedVersion : Int)

/-- What a retry schedules: the kind, the attempts, the time and the payload. -/
structure RetryJob where
  kind : OperationKind
  maxAttempts : Int
  timeout : Duration
  payload : List (String × JSON) := [("command", .string "retry")]

/-- The options of a download's acquisition. -/
def retrySelection (current : Download) : DatabaseTx FileSelectionOptions := do
  let acquisition ← context "load retry acquisition"
    (requireRow (onResources (getAcquisitionByID current.acquisitionID)))
  match acquisition.selectionOptions with
  | some options => return options
  | none => throw (.text "decode retry acquisition")

/-- The job that enqueues the torrent again. -/
def retryEnqueueJob (options : FileSelectionOptions) : RetryJob where
  kind := .downloadEnqueue
  maxAttempts := 5
  timeout := downloadEnqueueTimeout
  payload := ("command", .string "retry") :: selectionPayload options

def retryEnqueue (current : Download) : DatabaseTx RetryJob := do
  requeue
  return retryEnqueueJob (← retrySelection current)
where
  requeue : DatabaseTx Unit := do
    if current.status = .cancelled then
      match ← context "requeue stopped download"
          (onResources (requeueCancelledDownload downloadID expectedVersion)) with
      | some _ => return ()
      | none => throw (.service "state_conflict"
          "the stopped download already has media tasks; retry those tasks instead")
    else
      let _ ← context "requeue download enqueue"
        (requireRow (onResources (requeueDownloadEnqueueStage downloadID expectedVersion)))

def shouldRetryViaEnqueueForNoMainVideo (current : Download) (fileCount : Nat) : Bool :=
  current.errorCode = some "download_no_main_video" &&
    current.torrentHash.any (fun hash => trimSpace hash ≠ "") && 0 < fileCount

/-- The stored files, classified anew, include a video. -/
def hasReclassifiableVideo (files : List DownloadFile) (options : FileSelectionOptions) :
    Except ManifestError Bool :=
  (classifyDownloadFiles unicode options (files.map fun f =>
    ⟨f.fileIndex, f.relativePath, f.sizeBytes⟩)).map fun classified =>
      classified.any fun file => file.kind = .video

/-- The torrent and its files are dropped, to be enqueued again. -/
def retryWithoutFiles (options : FileSelectionOptions) : DatabaseTx RetryJob := do
  let _ ← context "delete stale download files"
    (onResources (deleteDownloadFilesByDownloadID downloadID))
  match ← context "requeue download for no main video"
      (onResources (requeueDownloadNoMainVideoFromFileResolution downloadID expectedVersion)) with
  | some _ => return retryEnqueueJob options
  | none => throw (.service "state_conflict" "the download was modified by another request"
      [("expectedVersion", .number expectedVersion)])

def retrySelectionApply : DatabaseTx RetryJob := do
  let _ ← context "requeue download file resolution"
    (requireRow (onResources (requeueDownloadFileResolutionStage downloadID expectedVersion)))
  return { kind := .downloadSelectionApply, maxAttempts := 5, timeout := Duration.minute }

def retryFileResolution (current : Download) : DatabaseTx RetryJob := do
  let files := listDownloadFiles current.id (← get).resources
  if shouldRetryViaEnqueueForNoMainVideo current files.length then
    let options ← retrySelection current
    match hasReclassifiableVideo unicode files options with
    | .error err => throw (.service "download_file_manifest_invalid"
        "the download file manifest cannot be reclassified safely" [("reason", .text err.text)])
    | .ok true => retryWithoutFiles downloadID expectedVersion options
    | .ok false => retrySelectionApply downloadID expectedVersion
  else
    retrySelectionApply downloadID expectedVersion

def retrySync : DatabaseTx RetryJob := do
  let _ ← context "requeue download sync"
    (requireRow (onResources (requeueDownloadSyncStage downloadID expectedVersion)))
  return { kind := .downloadSync, maxAttempts := 5, timeout := 30 * Duration.second }

def retryMaterialize : DatabaseTx RetryJob := do
  let _ ← context "requeue download materialization"
    (requireRow (onResources (requeueDownloadMaterializeStage downloadID expectedVersion)))
  return { kind := .downloadMaterialize, maxAttempts := 3, timeout := 10 * Duration.minute }

/-- The stage that a retry goes back to; a cancelled download starts over. -/
def Download.retryStage (d : Download) : Option DownloadFailureStage :=
  if d.status = .cancelled then some .enqueue else d.failureStage

def DownloadFailureStage.text : DownloadFailureStage → String
  | enqueue => "enqueue"
  | fileResolution => "file_resolution"
  | sync => "sync"
  | materialize => "materialize"

def retryStageJob (current : Download) : DatabaseTx RetryJob :=
  match current.retryStage with
  | some .enqueue => retryEnqueue downloadID expectedVersion current
  | some .fileResolution => retryFileResolution unicode downloadID expectedVersion current
  | some .sync => retrySync downloadID expectedVersion
  | some .materialize => retryMaterialize downloadID expectedVersion
  | none => throw (.service "invalid_state" "the failed download has no retryable stage"
      [("failureStage", .text "")])

def downloadVersionConflict : Fault :=
  .service "state_conflict" "the download was modified by another request"
    [("expectedVersion", .number expectedVersion)]

def checkDownloadRetry (current : Download) : Except Fault Unit :=
  if (current.version : Int) ≠ expectedVersion then
    .error (downloadVersionConflict expectedVersion)
  else if current.deletionRequestedAt.isSome ∨ current.deletedAt.isSome then
    .error (.service "deletion_in_progress" "the download is being deleted")
  else if current.status ≠ .failed ∧ current.status ≠ .cancelled then
    .error (.service "invalid_state" "only a failed or stopped download can be retried"
      [("status", .text current.status.text)])
  else if current.errorCode = some "download_manifest_changed" then
    .error (.service "download_manifest_changed"
      "the source files changed; recreate the acquisition and confirm its mapping")
  else .ok ()

/-- The transaction of a retry that is no replay. -/
def retryLockedDownload (new : NewOperation) (key : String) (current : Download) :
    DatabaseTx Operation := do
  let job ← retryStageJob unicode downloadID expectedVersion current
  let (operation, _) ← context "schedule download retry" (scheduleInTx new {
    kind := job.kind, resource := some (.download, downloadID), idempotencyKey := key
    maxAttempts := job.maxAttempts, timeout := job.timeout, payload := job.payload })
  appendResourceEvent (.download, downloadID) (some operation.id) "download.retry_requested"
    [("failureStage", .string ((current.retryStage.map DownloadFailureStage.text).getD ""))]
  let _ ← context "reload download" (requireRow (onResources (getDownloadByID downloadID)))
  return operation

/-- The operations that a retry may have scheduled. -/
def downloadRetryKinds : List OperationKind :=
  [.downloadEnqueue, .downloadSelectionApply, .downloadSync, .downloadMaterialize]

/-- The replay of a command returns its operation with the download as it is now. -/
def replayDownloadCommand (existing : Operation) : DatabaseTx Operation := do
  let _ ← orNotFound (context "load download command replay"
    (onResources (getDownloadByID downloadID)))
  return existing

def retryDownload (new : NewOperation) (key : String) : DatabaseTx Operation := do
  match ← findIdempotentResourceCommand key (.download, downloadID) "retry" downloadRetryKinds with
  | some existing => replayDownloadCommand downloadID existing
  | none =>
    let before ← orNotFound (context "load download retry context"
      (onResources (getDownloadByID downloadID)))
    lockWorkflowForRetry before.acquisitionID none (before.status = .cancelled)
    let current ← orNotFound (context "lock download" (onResources (lockDownloadByID downloadID)))
    match checkDownloadRetry expectedVersion current with
    | .error fault => throw fault
    | .ok _ => retryLockedDownload unicode downloadID expectedVersion new key current

end Retry

/-! ## Cancellation and the selection of files -/

section Commands

variable (downloadID : UUID) (expectedVersion : Int) (new : NewOperation) (key : String)

/-- Stops a locked download and schedules the removal of its torrent. -/
def stopDownload (current : Download) : DatabaseTx Operation := do
  match ← context "cancel download"
      (onResources (cancelDownloadIfActive downloadID expectedVersion)) with
  | none => throw (.service "invalid_state" "only a non-terminal download can be cancelled"
      [("status", .text current.status.text)])
  | some _ =>
    let (operation, _) ← context "schedule download cancel sync" (scheduleInTx new {
      kind := .downloadCancel, resource := some (.download, downloadID), idempotencyKey := key
      maxAttempts := 1, timeout := Duration.minute
      payload := [("command", .string "cancel")] })
    appendResourceEvent (.download, downloadID) (some operation.id) "download.cancel_requested" []
    return operation

def cancelDownload (now : Timestamp) : DatabaseTx Operation := do
  match ← findIdempotentResourceCommand key (.download, downloadID) "cancel" [.downloadCancel] with
  | some existing => replayDownloadCommand downloadID existing
  | none =>
    requestResourceOperationCancellations now (.download, downloadID)
    let current ← orNotFound (context "lock download" (onResources (lockDownloadByID downloadID)))
    if (current.version : Int) ≠ expectedVersion then
      throw (downloadVersionConflict expectedVersion)
    else
      stopDownload downloadID expectedVersion new key current

/-- A selected file with its new flag; the files of a request are distinct. -/
abbrev Selections := List (UUID × Bool)

/-- The file that a selection names. -/
def unknownFile? (files : List DownloadFile) (selections : Selections) : Option UUID :=
  (selections.map Prod.fst).find? fun id => !files.any fun f => f.id = id

/-- The videos that a request selects. -/
def selectedVideos (files : List DownloadFile) (selections : Selections) : Nat :=
  selections.countP fun (id, selected) =>
    selected && files.any fun f => f.id = id && f.mediaKind = .video

def updateSelections (selections : Selections) : DatabaseTx Unit :=
  selections.forM fun (id, selected) => do
    let _ ← context "update file selection"
      (requireRow (onResources (setDownloadFileSelection id selected)))

/-- A completed download is now selecting files. -/
def enterSelection (current : Download) : DatabaseTx Unit := do
  if current.status = .completed then
    let _ ← context "mark download selecting files"
      (requireRow (onResources (markDownloadSelectingFiles downloadID)))
  else return ()

/-- The job that a saved selection schedules. -/
def scheduleSelection (current : Download) : DatabaseTx Operation := do
  enterSelection downloadID current
  let (operation, _) ← context "schedule download materialize" (scheduleInTx new {
    kind := .downloadMaterialize, resource := some (.download, downloadID), idempotencyKey := key
    maxAttempts := 3, timeout := 10 * Duration.minute })
  appendResourceEvent (.download, downloadID) (some operation.id) "download.file_selection_saved" []
  let _ ← context "reload download" (requireRow (onResources (getDownloadByID downloadID)))
  return operation

def saveFileSelection (selections : Selections) : DatabaseTx Operation := do
  let current ← orNotFound (context "lock download" (onResources (lockDownloadByID downloadID)))
  if (current.version : Int) ≠ expectedVersion then
    throw (downloadVersionConflict expectedVersion)
  else if current.status ≠ .completed ∧ current.status ≠ .selectingFiles then
    throw (.service "invalid_state" "file selection can only change before materialization"
      [("status", .text current.status.text)])
  else
    let files := listDownloadFiles current.id (← get).resources
    match unknownFile? files selections with
    | some id => throw (.service "invalid_file" "a selected file does not belong to the download"
        [("fileId", .text id.text)])
    | none =>
      updateSelections selections
      if selectedVideos files selections = 0 then
        throw (.service "no_main_video" "at least one video file must be selected")
      else
        scheduleSelection downloadID new key current

end Commands

/-! ## Commands that come again -/

/-- **Commands with a used key.** Whatever calls come in between, a retry or a cancellation under
the key of an operation changes nothing: it is refused, or it answers with that operation. -/
theorem used_key_replayed {db₀ db : Database} {o : Operation} {key : String}
    (run : Lifecycle db₀ db) (ho : o ∈ db₀.operations.rows)
    (hkey : o.idempotencyKey = trimSpace key) (unicode hashes new new₂ id version now) :
    ∀ m ∈ [retryTask hashes new new₂ id version key, cancelTask now new id version key,
        retryDownload unicode id version new key, cancelDownload id version new key now],
      ∀ r db', m db = .ok (r, db') → r.id = o.id ∧ db' = db := by
  obtain ⟨o', ho', hleads⟩ := leads_of_lifecycle run ho
  rw [← hleads.idempotencyKey] at hkey
  -- all four look the key up first, and only read when they find it
  have hreplay {key' resource command kinds} {k : Option Operation → DatabaseTx Operation} {r db'}
      (hsame : trimSpace key' = trimSpace key)
      (hk : (k (some o')).Triple (· = db) fun r db' => r = o' ∧ db' = db)
      (h : (findIdempotentResourceCommand key' resource command kinds >>= k) db = .ok (r, db')) :
      r.id = o.id ∧ db' = db := by
    obtain ⟨existing, db₁, hfind, hrest⟩ := Tx.bind_ok.mp h
    obtain ⟨rfl, rfl⟩ := findIdempotentResourceCommand_used ho' (hkey.trans hsame.symm) hfind
    obtain ⟨hr, hdb⟩ := hk rfl hrest
    exact ⟨hr ▸ hleads.id, hdb⟩
  have hdownload : (replayDownloadCommand id o').Triple (· = db) fun r db' => r = o' ∧ db' = db :=
    Tx.Triple.bind (keeps_orNotFound (keeps_context (keeps_onResources_iff.mpr fun _ =>
      Slot.keeps_selectOne))) fun _ => .pure fun _ h => ⟨rfl, h⟩
  have htask : (pure o' : DatabaseTx Operation).Triple (· = db) fun r db' => r = o' ∧ db' = db :=
    .pure fun _ h => ⟨rfl, h⟩
  simp only [List.forall_mem_cons]
  refine ⟨fun r db' h => ?_, fun r db' => hreplay rfl htask, fun r db' => hreplay rfl hdownload,
    fun r db' => hreplay rfl hdownload, List.forall_mem_nil _⟩
  unfold retryTask retryKey at h
  dsimp only at h
  split_ifs at h
  · cases h
  · cases h
  · exact hreplay (trimSpace_trimSpace key) htask h

/-- The cancellation of a task, before its worker starts. -/
def scheduledCancel : Database where
  operations := ⟨[{
    id := 1, kind := .taskCancel, resource := some (.episodeTask, 7), idempotencyKey := "cancel:7"
    timeoutSeconds := 60, payload := .object [("command", .string "cancel")] }], by decide⟩

/-- The request comes again while the worker runs. -/
theorem used_key_replayed_cancel :
    ∃ r, cancelTask 2 ⟨2, 2⟩ 7 1 " cancel:7" ((LifecycleCall.start 1 1 1 "worker").run
      scheduledCancel) = .ok (r, (LifecycleCall.start 1 1 1 "worker").run scheduledCancel) ∧
      r.id = 1 := by
  obtain ⟨⟨r, db⟩, hrun⟩ : ∃ answer, cancelTask 2 ⟨2, 2⟩ 7 1 " cancel:7"
      ((LifecycleCall.start 1 1 1 "worker").run scheduledCancel) = .ok answer := ⟨_, rfl⟩
  obtain ⟨hid, rfl⟩ := used_key_replayed (.single (.call _)) (List.mem_singleton_self _)
    (by decide +kernel) asciiUnicode plainHashes ⟨2, 2⟩ ⟨3, 3⟩ 7 1 2 _
    (List.mem_cons_of_mem _ List.mem_cons_self) r db hrun
  exact ⟨r, hrun, hid⟩

end EmbyAuto
