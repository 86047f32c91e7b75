import EmbyAuto.Catalog.Repair
import EmbyAuto.Download.Enqueue
import EmbyAuto.Validation.Loop

/-!
# Resolving the files of a download

Where the automatic selection finds no main video, a user or an agent resolves the manifest: they
give each of its files a flag and a coordinate. Both go through `validateDownloadFileResolution`,
which sees the complete manifest.

## Main definitions

* `validateDownloadFileResolution`: the checks of a resolution
* `saveFileResolution`: the command of a user
* `applyDownloadFileResolution`: the proposal of an agent

## Main results

* `validateDownloadFileResolution_ok_iff`: what an accepted resolution is
-/

namespace EmbyAuto

open Relational Database Resources Validation

structure DownloadFileResolutionItem where
  fileID : UUID
  selected : Bool := false
  sourceSeason : Option Int := none
  sourceEpisode : Option Int := none
  sourceEpisodeFractionHundredths : Int := 0
  deriving DecidableEq

/-! ## The checks -/

namespace DownloadFileResolutionItem

/-- The season, the episode and the fraction form a coordinate, or there is none. -/
def wellFormed (item : DownloadFileResolutionItem) : Bool :=
  let inRange (n : Int) : Bool := 0 < n && n ≤ 2147483647
  item.sourceSeason.isNone == item.sourceEpisode.isNone &&
    0 ≤ item.sourceEpisodeFractionHundredths && item.sourceEpisodeFractionHundredths ≤ 99 &&
    (item.sourceEpisode.isSome || item.sourceEpisodeFractionHundredths = 0) &&
    item.sourceSeason.all inRange && item.sourceEpisode.all inRange

def stored (item : DownloadFileResolutionItem) : StoredCoordinate :=
  ⟨item.sourceSeason, item.sourceEpisode, item.sourceEpisodeFractionHundredths⟩

def fileDetail (item : DownloadFileResolutionItem) : List (String × Detail) :=
  [("fileId", .text item.fileID.text)]

end DownloadFileResolutionItem

/-- What the loop over the items has seen: the files, and the coordinates of the selected videos
and subtitles. -/
structure ResolutionScan where
  seen : List UUID := []
  videos : List StoredCoordinate := []
  subtitles : List StoredCoordinate := []

/-- The season and the episode of a coordinate in the details of an error. -/
def StoredCoordinate.details (c : StoredCoordinate) : List (String × Detail) :=
  [("sourceSeason", .number (c.season.getD 0)), ("sourceEpisode", .number (c.episode.getD 0))]

section Validate

variable (files : List DownloadFile)

/-- The coordinate of a selected item, as one of its file's kind. -/
def scanSelected (scan : ResolutionScan) (item : DownloadFileResolutionItem)
    (file : DownloadFile) : Except Fault ResolutionScan :=
  if item.sourceSeason.isNone then
    .error (.service "download_coordinate_invalid"
      "selected media files require source coordinates" item.fileDetail)
  else match file.mediaKind with
    | .video =>
      if item.stored ∈ scan.videos then
        .error (.service "download_coordinate_duplicate"
          "only one video can be selected for each source coordinate"
          (item.stored.details ++
            [("sourceEpisodeFractionHundredths", .number item.sourceEpisodeFractionHundredths)]))
      else .ok { scan with videos := scan.videos ++ [item.stored] }
    | .subtitle => .ok { scan with subtitles := scan.subtitles ++ [item.stored] }
    | _ => .error (.service "download_media_kind_invalid"
        "only supported video and text subtitle files can be selected" item.fileDetail)

def scanItem (scan : ResolutionScan) (item : DownloadFileResolutionItem) :
    Except Fault ResolutionScan :=
  match lookup DownloadFile.id item.fileID files with
  | none => .error (.service "download_file_scope_violation"
      "a file does not belong to the download" item.fileDetail)
  | some file =>
    if item.fileID ∈ scan.seen then
      .error (.service "download_file_duplicate" "a file appears more than once" item.fileDetail)
    else if !item.wellFormed then
      .error (.service "download_coordinate_invalid"
        "source season, episode, and fraction must form a valid coordinate" item.fileDetail)
    else
      let scan := { scan with seen := scan.seen ++ [item.fileID] }
      if item.selected then scanSelected scan item file else .ok scan

def scanItems (scan : ResolutionScan) : List DownloadFileResolutionItem →
    Except Fault ResolutionScan
  | [] => .ok scan
  | item :: rest =>
    match scanItem files scan item with
    | .error fault => .error fault
    | .ok scan => scanItems scan rest

/-- The loop over the subtitles, with those that were counted. -/
def countSubtitles (videos counted : List StoredCoordinate) :
    List StoredCoordinate → Except Fault Unit
  | [] => .ok ()
  | c :: rest =>
    if c ∉ videos then
      .error (.service "download_subtitle_video_invalid"
        "each selected subtitle must match a selected video coordinate" c.details)
    else if counted.count c + 1 > 8 then
      .error (.service "download_subtitle_limit_exceeded"
        "at most eight subtitles can be selected for one episode" c.details)
    else countSubtitles videos (c :: counted) rest

def validateDownloadFileResolution (items : List DownloadFileResolutionItem) :
    Except Fault Unit :=
  if items.length ≠ files.length ∨ items.length = 0 then
    .error (.service "download_file_resolution_invalid"
      "the complete download file manifest is required"
      [("expectedFileCount", .number files.length)])
  else match scanItems files {} items with
    | .error fault => .error fault
    | .ok scan =>
      if scan.videos = [] then
        .error (.service "download_no_main_video" "at least one video file must be selected")
      else countSubtitles scan.videos [] scan.subtitles

/-- A single-episode acquisition keeps the coordinate it asked for. -/
def validateSingleEpisodeFileResolution (items : List DownloadFileResolutionItem) (season : Int)
    (episode : Option Int) : Except Fault Unit :=
  match episode with
  | none => .ok ()
  | some episode =>
    let video (item : DownloadFileResolutionItem) : Bool :=
      (lookup DownloadFile.id item.fileID files).any fun file => file.mediaKind = .video
    if items.any fun item => item.selected && video item &&
        item.stored ≠ ⟨some season, some episode, 0⟩ then
      .error (.service "download_single_episode_coordinate_mismatch"
        "a single-episode acquisition must keep its requested source coordinate"
        [("sourceSeason", .number season), ("sourceEpisode", .number episode)])
    else .ok ()

end Validate

/-! ## Statements -/

/-- A row of `GetAgentDownloadContext`. -/
structure AgentDownloadContext where
  defaultSourceSeason : Int
  defaultSourceEpisode : Option Int

def getAgentDownloadContext (id : UUID) : ResourcesTx (Option AgentDownloadContext) := do
  let r ← get
  return (r.downloads.rows.find? fun d => d.id = id && d.deletedAt.isNone).bind fun d =>
    (r.acquisitions.rows.find? fun a => a.id = d.acquisitionID).map fun a =>
      let entry := a.rssEntryID.bind fun entryID => lookup RSSEntry.id entryID r.rssEntries.rows
      ⟨(entry.bind (·.sourceSeason)).getD 1, entry.bind (·.sourceEpisode)⟩

/-- The columns that a resolution sets. -/
def DownloadFile.resolve (f : DownloadFile) (item : DownloadFileResolutionItem) : DownloadFile :=
  { f with
    selected := item.selected
    sourceSeason := item.sourceSeason.map int32
    sourceEpisode := item.sourceEpisode.map int32
    sourceEpisodeFractionHundredths := int32 item.sourceEpisodeFractionHundredths }

def setDownloadFileResolution (downloadID : UUID) (item : DownloadFileResolutionItem) :
    ResourcesTx (Option DownloadFile) :=
  downloadFilesSlot.updateOne (fun f => f.id = item.fileID && f.downloadID = downloadID)
    (·.resolve item)

/-- The download waits for its files to be resolved. -/
def Download.awaitsResolution (d : Download) : Bool :=
  d.status = .fileResolutionPending || (d.status = .failed && d.failureStage = some .fileResolution)

def setDownloadResolutionSource (id : UUID) (expectedVersion : Int) (source : DecisionSource)
    (agentResolutionID : Option UUID) : ResourcesTx (Option Download) :=
  downloadsSlot.updateOne
    (atKey Download.id id fun d => (d.version : Int) = expectedVersion && d.awaitsResolution)
    fun d => { d with
      status := .fileResolutionPending, fileResolutionSource := some source, agentResolutionID
      failureStage := none, errorCode := none, errorMessage := none, version := d.version + 1 }

/-! ## The transactions -/

section Resolve

variable (downloadID : UUID)

/-- The items of a resolution, checked against the files and the acquisition of the download. -/
def checkFileResolution (text : String)
    (itemsOf : List DownloadFile → Except Fault (List DownloadFileResolutionItem)) :
    DatabaseTx (List DownloadFileResolutionItem) := do
  let files := listDownloadFiles downloadID (← get).resources
  let contextRow ← context text (requireRow (onResources (getAgentDownloadContext downloadID)))
  match itemsOf files with
  | .error fault => throw fault
  | .ok items =>
    match validateDownloadFileResolution files items with
    | .error fault => throw fault
    | .ok _ =>
      match validateSingleEpisodeFileResolution files items contextRow.defaultSourceSeason
          contextRow.defaultSourceEpisode with
      | .error fault => throw fault
      | .ok _ => return items

/-- The flags, the coordinates and the source of a resolution. -/
def storeResolution (text : String) (items : List DownloadFileResolutionItem)
    (source : ResourcesTx (Option Download)) (sourceText conflict : String) :
    DatabaseTx Download := do
  items.forM fun item => do
    let _ ← context text (requireRow (onResources (setDownloadFileResolution downloadID item)))
  match ← context sourceText (onResources source) with
  | none => throw (.service "state_conflict" conflict)
  | some updated => return updated

def fileResolutionState (current : Download) : Fault :=
  .service "invalid_state" "the download is not waiting for file resolution"
    [("status", .text current.status.text)]

/-- A user's resolution of a locked download. -/
def saveLockedResolution (expectedVersion : Int) (items : List DownloadFileResolutionItem)
    (new : NewOperation) (key : String) : DatabaseTx Operation := do
  let normalized ← checkFileResolution downloadID "load download coordinate constraints"
    fun _ => .ok items
  let _ ← storeResolution downloadID "save download file resolution" normalized
    (setDownloadResolutionSource downloadID expectedVersion .user none)
    "save download resolution source" "the download changed before file resolution was saved"
  let (operation, _) ← context "schedule download selection apply" (scheduleInTx new {
    kind := .downloadSelectionApply, resource := some (.download, downloadID)
    idempotencyKey := key, maxAttempts := 5, timeout := Duration.minute
    payload := [("command", .string "file_resolution")] })
  appendResourceEvent (.download, downloadID) (some operation.id) "download.file_resolution_saved"
    [("source", .string DecisionSource.user.text)]
  return operation

def saveFileResolution (expectedVersion : Int) (items : List DownloadFileResolutionItem)
    (new : NewOperation) (key : String) : DatabaseTx Operation := do
  match ← findIdempotentResourceCommand key (.download, downloadID) "file_resolution"
      [.downloadSelectionApply] with
  | some existing => replayDownloadCommand downloadID existing
  | none =>
    let current ← orNotFound (context "lock download" (onResources (lockDownloadByID downloadID)))
    if (current.version : Int) ≠ expectedVersion then
      throw (downloadVersionConflict expectedVersion)
    else if !current.awaitsResolution then
      throw (fileResolutionState current)
    else
      saveLockedResolution downloadID expectedVersion items new key

end Resolve

/-! ## Proposals of an agent -/

structure AgentDownloadVideoProposal where
  fileID : UUID
  sourceSeason : Int
  sourceEpisode : Int
  sourceEpisodeFractionHundredths : Int := 0

structure AgentDownloadSubtitleProposal where
  fileID : UUID
  videoFileID : UUID

structure AgentDownloadFileResolutionProposal where
  videos : List AgentDownloadVideoProposal
  subtitles : List AgentDownloadSubtitleProposal

/-- The map `videoCoordinates`: the last video of a file counts. -/
def proposedVideo (proposal : AgentDownloadFileResolutionProposal) (fileID : UUID) :
    Option AgentDownloadVideoProposal :=
  proposal.videos.reverse.find? fun video => video.fileID = fileID

/-- The map `selected`: a subtitle replaces a video of the same file. -/
def proposedCoordinate (proposal : AgentDownloadFileResolutionProposal) (fileID : UUID) :
    Option AgentDownloadVideoProposal :=
  match proposal.subtitles.reverse.find? fun subtitle => subtitle.fileID = fileID with
  | some subtitle => proposedVideo proposal subtitle.videoFileID
  | none => proposedVideo proposal fileID

/-- The item of a file: the proposal's coordinate, or the stored one without a flag. -/
def proposedItem (proposal : AgentDownloadFileResolutionProposal) (file : DownloadFile) :
    DownloadFileResolutionItem :=
  match proposedCoordinate proposal file.id with
  | some video => {
      fileID := file.id, selected := true, sourceSeason := some video.sourceSeason
      sourceEpisode := some video.sourceEpisode
      sourceEpisodeFractionHundredths := video.sourceEpisodeFractionHundredths }
  | none => {
      fileID := file.id, sourceSeason := file.sourceSeason, sourceEpisode := file.sourceEpisode
      sourceEpisodeFractionHundredths := file.sourceEpisodeFractionHundredths }

def downloadResolutionItemsFromAgentProposal (files : List DownloadFile)
    (proposal : AgentDownloadFileResolutionProposal) :
    Except Fault (List DownloadFileResolutionItem) :=
  if proposal.subtitles.any fun subtitle =>
    (proposedVideo proposal subtitle.videoFileID).isNone then
    .error (.service "download_subtitle_video_invalid"
      "an Agent subtitle does not reference a selected video")
  else .ok (files.map (proposedItem proposal))

section Agent

variable (resolution : ProposedResolution) (new : NewOperation)

/-- An agent's resolution of a locked download. -/
def applyLockedResolution (download : Download)
    (proposal : AgentDownloadFileResolutionProposal) : DatabaseTx Unit := do
  let normalized ← checkFileResolution download.id "load Agent download coordinate constraints"
    fun files => downloadResolutionItemsFromAgentProposal files proposal
  let updated ← storeResolution download.id "apply Agent download file resolution" normalized
    (setDownloadResolutionSource download.id download.version .agentAuto (some resolution.id))
    "save Agent download resolution source"
    "the download changed before Agent file resolution was saved"
  let (operation, _) ← context "schedule Agent download selection apply" (scheduleInTx new {
    kind := .downloadSelectionApply, resource := some (.download, resolution.resourceID)
    idempotencyKey := "download.selection.apply:agent:" ++ resolution.id.text
    maxAttempts := 5, timeout := Duration.minute
    payload := [("agentResolutionId", .string resolution.id.text)] })
  let _ ← context "complete Agent download resolution"
    (requireRow (onResources (completeAgentResolution resolution.id)))
  appendResourceEvent (.download, resolution.resourceID) (some operation.id)
    "download.file_resolution_saved" [("source", .string DecisionSource.agentAuto.text),
      ("agentResolutionId", .string resolution.id.text),
      ("downloadVersion", .number updated.version)]

/-- The resolution is the one that the agent's run has read, with the version of the download at
that time. -/
def applyDownloadFileResolution (resourceVersion : Option Int)
    (proposal : AgentDownloadFileResolutionProposal) : DatabaseTx Unit := do
  lockProposal "the Agent resolution changed before file resolution was applied" resolution
  let download ← orNotFound (context "lock Agent resolution download"
    (onResources (lockDownloadByID resolution.resourceID)))
  if resourceVersion ≠ some (download.version : Int) then
    throw (.service "agent_resolution_stale"
      "the download changed before Agent file resolution was applied")
  else if !download.awaitsResolution then
    throw (fileResolutionState download)
  else
    applyLockedResolution resolution new download proposal

end Agent

/-! ## Accepted resolutions -/

def selectedAs (files : List DownloadFile) (kind : MediaKind) (item : DownloadFileResolutionItem) :
    Option StoredCoordinate :=
  if item.selected = true ∧
      (lookup DownloadFile.id item.fileID files).map (·.mediaKind) = some kind then
    some item.stored
  else none

/-- What an item has to be, whatever the others are. -/
structure AcceptedItem (files : List DownloadFile) (item : DownloadFileResolutionItem) : Prop where
  known : ∃ f, lookup DownloadFile.id item.fileID files = some f ∧
    (item.selected = true → f.mediaKind = .video ∨ f.mediaKind = .subtitle)
  wellFormed : item.wellFormed = true
  located : item.selected = true → item.sourceSeason.isSome = true

/-- What the items have to be together. -/
structure AcceptedResolution (files : List DownloadFile)
    (items : List DownloadFileResolutionItem) : Prop where
  length : items.length = files.length
  item : ∀ item ∈ items, AcceptedItem files item
  nodup : (items.map (·.fileID)).Nodup
  video : items.filterMap (selectedAs files .video) ≠ []
  distinct : (items.filterMap (selectedAs files .video)).Nodup
  matched : ∀ c ∈ items.filterMap (selectedAs files .subtitle),
    c ∈ items.filterMap (selectedAs files .video)
  few : ∀ c, (items.filterMap (selectedAs files .subtitle)).count c ≤ 8

section Accepted

variable {files : List DownloadFile} {items : List DownloadFileResolutionItem}

/-- The scan of the items that were read. -/
def scanOf (files : List DownloadFile) (done : List DownloadFileResolutionItem) :
    ResolutionScan where
  seen := done.filterMap (some ·.fileID)
  videos := done.filterMap (selectedAs files .video)
  subtitles := done.filterMap (selectedAs files .subtitle)

theorem selectedAs_eq {f : DownloadFile} {item}
    (hfile : lookup DownloadFile.id item.fileID files = some f) (kind : MediaKind) :
    selectedAs files kind item =
      if item.selected = true ∧ f.mediaKind = kind then some item.stored else none := by
  simp [selectedAs, hfile]

theorem scanOf_concat (done : List DownloadFileResolutionItem) (item : DownloadFileResolutionItem) :
    scanOf files (done ++ [item]) =
      ⟨(scanOf files done).seen ++ [item.fileID],
        (scanOf files done).videos ++ (selectedAs files .video item).toList,
        (scanOf files done).subtitles ++ (selectedAs files .subtitle item).toList⟩ := by
  simp only [scanOf, List.filterMap_append]
  congr 2

theorem scanSelected_ok_iff {scan scan' item} {f : DownloadFile} :
    scanSelected scan item f = .ok scan' ↔ item.sourceSeason.isSome = true ∧
      (f.mediaKind = .video ∧ item.stored ∉ scan.videos ∧
          scan' = { scan with videos := scan.videos ++ [item.stored] } ∨
        f.mediaKind = .subtitle ∧
          scan' = { scan with subtitles := scan.subtitles ++ [item.stored] }) := by
  unfold scanSelected
  cases item.sourceSeason with
  | none => simp
  | some season =>
    cases f.mediaKind with
    | video => by_cases h : item.stored ∈ scan.videos <;> simp [h, eq_comm]
    | _ => simp [eq_comm]

/-- What one item adds to the scan. -/
theorem scanItem_ok_iff (done : List DownloadFileResolutionItem) (item : DownloadFileResolutionItem)
    (scan : ResolutionScan) : scanItem files (scanOf files done) item = .ok scan ↔
      (AcceptedItem files item ∧ (∀ id ∈ some item.fileID, id ∉ done.filterMap (some ·.fileID)) ∧
        ∀ c ∈ selectedAs files .video item, c ∉ done.filterMap (selectedAs files .video)) ∧
      scan = scanOf files (done ++ [item]) := by
  unfold scanItem
  rw [scanOf_concat]
  cases hfile : lookup DownloadFile.id item.fileID files with
  | none => simpa using fun h => absurd h.known (by simp [hfile])
  | some f =>
  have hitem : AcceptedItem files item ↔ item.wellFormed = true ∧ (item.selected = true →
      (f.mediaKind = .video ∨ f.mediaKind = .subtitle) ∧ item.sourceSeason.isSome = true) := by
    refine ⟨fun h => ⟨h.wellFormed, fun hs => ?_⟩, fun h => ⟨⟨f, hfile, fun hs => (h.2 hs).1⟩, h.1,
      fun hs => (h.2 hs).2⟩⟩
    obtain ⟨f', hf', hkind⟩ := h.known
    obtain rfl := Option.some.inj (hfile.symm.trans hf')
    exact ⟨hkind hs, h.located hs⟩
  have hfresh : (∀ id ∈ some item.fileID, id ∉ done.filterMap (some ·.fileID)) ↔
      item.fileID ∉ (scanOf files done).seen := by
    simp [scanOf]
  simp only [hitem, hfresh, selectedAs_eq hfile]
  -- the checks in the order in which the source makes them
  by_cases hseen : item.fileID ∈ (scanOf files done).seen
  · simp [hseen]
  simp only [hseen]
  cases item.wellFormed with
  | false => simp
  | true =>
    cases item.selected with
    | false =>
      simpa using eq_comm
    | true =>
      simp only [Bool.not_true, Bool.false_eq_true, if_false, if_true, scanSelected_ok_iff]
      cases f.mediaKind <;> simp [scanOf, and_assoc]

theorem scanItems_eq (scan : ResolutionScan) :
    scanItems files scan items = items.foldlM (scanItem files) scan := by
  induction items generalizing scan with
  | nil => rfl
  | cons item rest ih =>
    rw [scanItems, List.foldlM_cons]
    cases scanItem files scan item with
    | error fault => rfl
    | ok scan => exact ih scan

theorem scanItems_ok_iff {scan} : scanItems files {} items = .ok scan ↔
    ((∀ item ∈ items, AcceptedItem files item) ∧ (items.map (·.fileID)).Nodup ∧
      (items.filterMap (selectedAs files .video)).Nodup) ∧ scan = scanOf files items := by
  rw [scanItems_eq, ← List.filterMap_eq_map' , ← each_const_iff, ← each_fresh_iff, ← each_fresh_iff,
    ← each_and, ← each_and]
  exact foldlM_ok_iff scanItem_ok_iff

theorem countSubtitles_ok_iff {videos counted subtitles}
    (hcounted : ∀ c, counted.count c ≤ 8) : countSubtitles videos counted subtitles = .ok () ↔
      (∀ c ∈ subtitles, c ∈ videos) ∧ ∀ c, counted.count c + subtitles.count c ≤ 8 := by
  induction subtitles generalizing counted with
  | nil => simpa [countSubtitles] using hcounted
  | cons c rest ih =>
    have hmove (c' : StoredCoordinate) : counted.count c' + (c :: rest).count c' =
        (c :: counted).count c' + rest.count c' := by
      rw [List.count_cons, List.count_cons]
      omega
    simp only [countSubtitles, List.forall_mem_cons, hmove]
    by_cases hvideo : c ∈ videos
    · by_cases hlimit : counted.count c + 1 > 8
      · simp only [hvideo, hlimit, not_true, if_true, if_false, reduceCtorEq, false_iff]
        intro h
        have := h.2 c
        rw [List.count_cons_self] at this
        omega
      · rw [if_neg (not_not.mpr hvideo), if_neg hlimit, ih, and_iff_right hvideo]
        intro c'
        rw [List.count_cons]
        split_ifs with hc
        · rw [← beq_iff_eq.mp hc]
          omega
        · exact hcounted c'
    · simp [hvideo]

theorem validateDownloadFileResolution_ok_iff :
    validateDownloadFileResolution files items = .ok () ↔ AcceptedResolution files items := by
  unfold validateDownloadFileResolution
  constructor
  · intro h
    split_ifs at h with hlength
    rw [not_or, not_not] at hlength
    cases hscan : scanItems files {} items with
    | error fault =>
      rw [hscan] at h
      cases h
    | ok scan =>
      obtain ⟨⟨hitems, hnodup, hdistinct⟩, rfl⟩ := scanItems_ok_iff.mp hscan
      simp only [hscan, scanOf] at h
      split_ifs at h with hvideo
      obtain ⟨hmatched, hfew⟩ := (countSubtitles_ok_iff (by simp)).mp h
      exact ⟨hlength.1, hitems, hnodup, hvideo, hdistinct, hmatched, by simpa using hfew⟩
  · intro h
    have hnil : items.length ≠ 0 := fun hnil => h.video (by simp [List.length_eq_zero_iff.mp hnil])
    rw [if_neg (not_or.mpr ⟨not_not.mpr h.length, hnil⟩),
      scanItems_ok_iff.mpr ⟨⟨h.item, h.nodup, h.distinct⟩, rfl⟩]
    refine (if_neg h.video).trans ?_
    exact (countSubtitles_ok_iff (by simp)).mpr ⟨h.matched, by simpa [scanOf] using h.few⟩

end Accepted

end EmbyAuto
