import EmbyAuto.Download.Commands

/-!
# The end of an enqueue operation

`DownloadWorkflow.CompleteEnqueue` stores the hash of the torrent and its files, and schedules
what the manifest asks for. Two downloads cannot hold one torrent: the unique index on the hash
refuses the second one, and the workflow reports a duplicate.

## Main definitions

* `restoreResolvedDownloadManifest`: the selection that an earlier run verified
* `completeEnqueue`: the transaction
* `completeLegacyEnqueue`: the same for a manifest that is selected at once
-/

namespace EmbyAuto

open Relational Database Resources

inductive ManifestOutcome where
  | resolved | unresolved | hardRejected
  deriving DecidableEq

def ManifestOutcome.text : ManifestOutcome → String
  | resolved => "resolved"
  | unresolved => "unresolved"
  | hardRejected => "hard_rejected"

structure DownloadEnqueueCompletion where
  operationID : UUID
  downloadID : UUID
  torrentHash : String
  savePath : String
  files : List ClassifiedDownloadFile
  outcome : ManifestOutcome
  reasonCode : String := ""

/-! ## The manifest of an earlier run -/

def manifestChanged : Fault :=
  .service "download_manifest_changed"
    "the source manifest no longer matches the verified file selection"

/-- A file with what the earlier run decided about it. -/
def ClassifiedDownloadFile.restore (file : ClassifiedDownloadFile) (previous : DownloadFile) :
    ClassifiedDownloadFile :=
  { file with
    kind := previous.mediaKind
    selected := previous.selected
    coordinate :=
      { season := previous.sourceSeason.getD 0
        episode := previous.sourceEpisode.getD 0
        episodeFractionHundredths := previous.sourceEpisodeFractionHundredths }
    language := previous.language.getD "" }

/-- The loop over the new files, with the previous files that are not matched yet. -/
def restoreFiles : List DownloadFile → List ClassifiedDownloadFile →
    Option (List ClassifiedDownloadFile)
  | _, [] => some []
  | byIndex, file :: rest =>
    match byIndex.find? fun previous => previous.fileIndex = int32 file.index with
    | none => none
    | some previous =>
      if file.index < 0 ∨ previous.fileIndex ≠ file.index ∨
          previous.relativePath ≠ file.relativePath ∨ previous.sizeBytes ≠ file.sizeBytes then none
      else
        (restoreFiles (byIndex.filter fun other => other.fileIndex ≠ previous.fileIndex) rest).map
          (file.restore previous :: ·)

/-- The completion with the resolution of an earlier run, if the manifest is still the one that
it verified; unresolved files of an earlier run are dropped. -/
def restoreResolvedDownloadManifest (download : Download)
    (completion : DownloadEnqueueCompletion) :
    DatabaseTx (Bool × DownloadEnqueueCompletion) := do
  let existing := listDownloadFiles download.id (← get).resources
  if existing = [] then
    return (false, completion)
  else if download.fileResolutionSource.isNone then
    let _ ← context "clear unresolved download manifest"
      (onResources (deleteDownloadFilesByDownloadID download.id))
    return (false, completion)
  else if existing.length ≠ completion.files.length ∨ completion.outcome = .hardRejected then
    throw manifestChanged
  else match restoreFiles existing completion.files with
    | none => throw manifestChanged
    | some files => return (true, { completion with files, outcome := .resolved })

/-! ## Statements -/

def optionalInt32 (value : Int) : Option Int := if value ≤ 0 then none else some (int32 value)

/-- The row of a file; its identifier is drawn at random. -/
def ClassifiedDownloadFile.row (file : ClassifiedDownloadFile) (id downloadID : UUID) :
    DownloadFile where
  id
  downloadID
  fileIndex := int32 file.index
  relativePath := file.relativePath
  sizeBytes := file.sizeBytes
  mediaKind := file.kind
  selected := file.selected
  sourceSeason := optionalInt32 file.coordinate.season
  sourceEpisode := optionalInt32 file.coordinate.episode
  sourceEpisodeFractionHundredths := int32 file.coordinate.episodeFractionHundredths
  language := optionalString file.language

/-- The columns that storing a manifest sets. -/
def Download.markManifestPending (torrentHash savePath : String)
    (source : Option DecisionSource) (d : Download) : Download :=
  { d with
    torrentHash := some torrentHash
    status := .fileResolutionPending
    savePath := some savePath
    fileResolutionSource := source
    agentResolutionID := none
    failureStage := none
    errorCode := none
    errorMessage := none
    version := d.version + 1 }

def markDownloadManifestPending (id : UUID) (torrentHash savePath : String)
    (source : Option DecisionSource) : ResourcesTx (Option Download) :=
  downloadsSlot.updateOne (atKey Download.id id fun d => d.status = .enqueuePending)
    (Download.markManifestPending torrentHash savePath source)

/-- The feed entry whose acquisition owns the download. -/
def markDownloadRSSEntryEnqueued (downloadID : UUID) : ResourcesTx (List RSSEntry) := do
  let r ← get
  let owned (entry : RSSEntry) : Bool := r.downloads.rows.any fun d => d.id = downloadID &&
    r.acquisitions.rows.any fun a => a.id = d.acquisitionID && a.rssEntryID = some entry.id
  rssEntriesSlot.update
    (fun entry => owned entry && (entry.status = .enqueueing || entry.status = .enqueueFailed))
    fun entry => { entry with
      status := .enqueued, lastErrorCode := none, lastErrorMessage := none
      lastErrorRetryable := false }

/-! ## The transaction -/

/-- `domain.ErrDuplicateTorrent`. -/
def duplicateTorrent : Fault := .text "torrent has already been downloaded"

/-- The download has the torrent already, and went on from there. -/
def Download.enqueuedWith (d : Download) (torrentHash : String) : Bool :=
  (d.torrentHash.getD "").toLower = torrentHash.toLower &&
    (d.status ∈ [.fileResolutionPending, .downloading, .completed, .selectingFiles,
        .materialized] ||
      (d.status = .failed && d.failureStage = some .fileResolution))

/-- A `TransitionError` of the download's machine. -/
def downloadTransitionError (source target : DownloadStatus) : Fault :=
  .text ("download state transition " ++ quote source.text ++ " -> " ++ quote target.text ++
    " is not allowed")

section Complete

variable (new : NewOperation) (fileID : Nat → UUID)

/-- The violated index on the hash is a duplicate; other faults keep their text. -/
def manifestFault : Fault → Fault
  | .constraint "downloads_torrent_hash_unique" => duplicateTorrent
  | fault => .wrap "persist download manifest" fault

def createDownloadFiles (downloadID : UUID) (preserved : Bool)
    (files : List (ClassifiedDownloadFile × Nat)) : DatabaseTx Unit :=
  files.forM fun (file, position) => do
    if file.index > 2147483647 ∨ file.coordinate.season > 2147483647 ∨
        file.coordinate.episode > 2147483647 then
      throw (.text "download file metadata exceeds database integer range")
    else if preserved then
      return ()
    else
      context ("persist download file " ++ toString file.index)
        (onResources (downloadFilesSlot.insert (file.row (fileID position) downloadID)))

/-- What the outcome of the manifest asks for. -/
def scheduleOutcome (completion : DownloadEnqueueCompletion) (updated : Download) :
    DatabaseTx Unit :=
  let torrentHash := completion.torrentHash.toLower
  match completion.outcome with
  | .resolved => do
    let _ ← context "schedule download selection apply" (scheduleInTx new {
      kind := .downloadSelectionApply, resource := some (.download, completion.downloadID)
      idempotencyKey := "download.selection.apply:" ++ completion.downloadID.text ++ ":" ++
        torrentHash ++ ":v" ++ toString updated.version
      maxAttempts := 5, timeout := Duration.minute })
  | .hardRejected => do
    let code := if completion.reasonCode = "" then "download_file_resolution_invalid"
      else completion.reasonCode
    let _ ← context "reject download manifest" (requireRow (onResources
      (markDownloadFileResolutionTerminalFailure completion.downloadID code
        "the torrent manifest has no supported main video")))
    let _ ← context "schedule rejected torrent removal" (scheduleInTx new {
      kind := .downloadCancel, resource := some (.download, completion.downloadID)
      idempotencyKey := "download.cancel:hard-rejected:" ++ completion.downloadID.text ++ ":" ++
        torrentHash ++ ":" ++ completion.operationID.text
      maxAttempts := 3, timeout := 2 * Duration.minute
      payload := [("command", .string "file_resolution_rejected"), ("deleteFiles", .bool false)] })
  | .unresolved => return ()

/-- The source of a resolution: the earlier one if it was kept. -/
def resolutionSource (locked : Download) (preserved : Bool) (outcome : ManifestOutcome) :
    Option DecisionSource :=
  if outcome = .resolved then
    if preserved then locked.fileResolutionSource else some .deterministic
  else none

/-- The manifest of a download that is waiting for it. -/
def storeManifest (locked : Download) (given : DownloadEnqueueCompletion) :
    DatabaseTx Unit := do
  let (preserved, completion) ← restoreResolvedDownloadManifest locked given
  let updated ← (requireRow (onResources (markDownloadManifestPending completion.downloadID
    completion.torrentHash.toLower completion.savePath
    (resolutionSource locked preserved completion.outcome)))).mapError manifestFault
  createDownloadFiles fileID completion.downloadID preserved completion.files.zipIdx
  let _ ← context "mark RSS entry enqueued"
    (onResources (markDownloadRSSEntryEnqueued completion.downloadID))
  appendResourceEvent (.download, completion.downloadID) (some completion.operationID)
    "download.manifest_persisted" [("status", .string updated.status.text),
      ("fileCount", .number completion.files.length),
      ("selectedCount", .number (completion.files.countP (·.selected))),
      ("outcome", .string completion.outcome.text), ("reasonCode", .string completion.reasonCode)]
  scheduleOutcome new completion updated

/-- The checks before the transaction. -/
def DownloadEnqueueCompletion.check (completion : DownloadEnqueueCompletion) : Except Fault Unit :=
  if completion.operationID = 0 ∨ completion.downloadID = 0 then
    .error (.text "download enqueue completion requires operation and download IDs")
  else if trimSpace completion.torrentHash = "" ∨ trimSpace completion.savePath = "" then
    .error (.text "download enqueue completion requires torrent hash and save path")
  else if completion.files = [] then
    .error (.text "download enqueue completion requires file metadata")
  else .ok ()

def completeEnqueue (completion : DownloadEnqueueCompletion) : DatabaseTx Unit :=
  match completion.check with
  | .error fault => throw fault
  | .ok _ => do
    let locked ← orNotFound (context "lock download for enqueue completion"
      (onResources (lockDownloadByID completion.downloadID)))
    if locked.status = .enqueuePending then
      storeManifest new fileID locked completion
    else if locked.enqueuedWith completion.torrentHash then
      return ()
    else
      throw (.wrap "persist download manifest"
        (downloadTransitionError locked.status .fileResolutionPending))

/-- The columns that the older path without a stored manifest sets. -/
def Download.markLegacyEnqueued (torrentHash savePath : String) (d : Download) : Download :=
  { d.markManifestPending torrentHash savePath (some .deterministic) with status := .downloading }

/-- The files and the synchronisation of a download that starts at once. -/
def storeLegacyEnqueue (completion : DownloadEnqueueCompletion) : DatabaseTx Unit := do
  let torrentHash := completion.torrentHash.toLower
  let _ ← (requireRow (onResources (downloadsSlot.updateOne
    (atKey Download.id completion.downloadID fun d => d.status = .enqueuePending)
    (Download.markLegacyEnqueued torrentHash completion.savePath)))).mapError manifestFault
  createDownloadFiles fileID completion.downloadID false completion.files.zipIdx
  let _ ← context "mark legacy RSS entry enqueued"
    (onResources (markDownloadRSSEntryEnqueued completion.downloadID))
  let _ ← context "schedule legacy download sync" (scheduleInTx new {
    kind := .downloadSync, resource := some (.download, completion.downloadID)
    idempotencyKey := "download.sync:" ++ completion.downloadID.text ++ ":" ++ torrentHash ++ ":" ++
      completion.operationID.text
    maxAttempts := 5, timeout := 30 * Duration.second })
  appendResourceEvent (.download, completion.downloadID) (some completion.operationID)
    "download.enqueued" [("status", .string DownloadStatus.downloading.text),
      ("fileCount", .number completion.files.length),
      ("selectedCount", .number (completion.files.countP (·.selected))),
      ("resolutionSource", .string DecisionSource.deterministic.text)]

def completeLegacyEnqueue (completion : DownloadEnqueueCompletion) : DatabaseTx Unit :=
  match completion.check with
  | .error fault => throw fault
  | .ok _ => do
    let locked ← orNotFound (context "lock legacy download enqueue"
      (onResources (lockDownloadByID completion.downloadID)))
    if locked.status = .enqueuePending then
      storeLegacyEnqueue new fileID completion
    else if locked.status = .downloading ∧
        (locked.torrentHash.getD "").toLower = completion.torrentHash.toLower then
      return ()
    else
      throw (.wrap "complete legacy download enqueue"
        (downloadTransitionError locked.status .downloading))

end Complete

end EmbyAuto
