import EmbyAuto.Acquisition.Facts
import EmbyAuto.Download.Commands

/-!
# The options of a retried download

A retry at the enqueue stage reads the options for the classification of the files from the
acquisition. They are the options of the first run exactly when the path that created the
acquisition stored all of them: the feed paths do not store that the release is a single
episode, and the search path stores what the request says about a movie, not what it enqueues.

## Main definitions

* `SameClassification`: two enqueue operations classify every manifest alike
* `AcquisitionCall.StoresOptions`: the source facts determine the options

## Main results

* `retry_classifies_alike_iff`: when a retry classifies as the first run did
-/

namespace EmbyAuto

open Relational Database Resources

/-! ## Options in payloads -/

/-- The numbers are values of Go's `int`. -/
def FileSelectionOptions.Fits (options : FileSelectionOptions) : Prop :=
  (-2 ^ 63 ≤ options.defaultSeason ∧ options.defaultSeason < 2 ^ 63) ∧
    -2 ^ 63 ≤ options.defaultEpisode ∧ options.defaultEpisode < 2 ^ 63

/-- A document that has all the fields decodes to their values. -/
theorem decodeSelection_of_fields {season episode : String} {fields written options}
    (hs : (JSON.object fields).field? season = some (.number written.defaultSeason))
    (he : (JSON.object fields).field? episode = some (.number written.defaultEpisode))
    (hb : (JSON.object fields).boolField "singleEpisode" = some written.singleEpisode) :
    decodeSelection season episode (.object fields) = some options ↔
      written.Fits ∧ written = options := by
  simp only [decodeSelection, JSON.intField, hs, he, hb]
  by_cases hseason : -2 ^ 63 ≤ written.defaultSeason ∧ written.defaultSeason < 2 ^ 63
  · by_cases hepisode : -2 ^ 63 ≤ written.defaultEpisode ∧ written.defaultEpisode < 2 ^ 63
    · rw [if_pos hseason, if_pos hepisode, and_iff_right ⟨hseason, hepisode⟩]
      exact Option.some_inj
    · rw [if_pos hseason, if_neg hepisode]
      exact iff_of_false nofun fun h => hepisode h.1.2
  · rw [if_neg hseason]
    exact iff_of_false nofun fun h => hseason h.1.1

variable {input : CreateSearchAcquisition}

section Payloads

variable {written options : FileSelectionOptions}

/-- The payload of a first run. -/
theorem decodeSelection_first {rest} :
    decodeSelection "defaultSeason" "defaultEpisode" (.object (selectionPayload written ++ rest)) =
        some options ↔ written.Fits ∧ written = options :=
  decodeSelection_of_fields rfl rfl rfl

/-- The payload of a retry. -/
theorem decodeSelection_retry :
    decodeSelection "defaultSeason" "defaultEpisode"
        (.object (("command", .string "retry") :: selectionPayload written)) = some options ↔
      written.Fits ∧ written = options :=
  decodeSelection_of_fields rfl rfl rfl

end Payloads

/-! ## What a retry schedules -/

section Retry

variable {db db' : Database} {unicode : Unicode} {downloadID : UUID} {expectedVersion : Int}
variable {new : NewOperation} {key : String} {current : Download} {op : Operation}

/-- The operations and the acquisitions are as they were. -/
structure SourceKept (db s : Database) : Prop where
  operations : s.operations = db.operations
  acquisitions : s.resources.acquisitions = db.resources.acquisitions

theorem SourceKept.refl (db : Database) : SourceKept db db := ⟨rfl, rfl⟩

/-- A transaction on the other resources. -/
theorem keeps_sourceKept {α : Type} {m : ResourcesTx α}
    (h : m.Keeps fun r => r.acquisitions = db.resources.acquisitions) :
    (onResources m).Keeps (SourceKept db) :=
  keeps_onResources_iff.mpr fun _ _ _ _ hs hrun => ⟨hs.operations, h hs.acquisitions hrun⟩

theorem keeps_sourceKept_download {p f} :
    (onResources (downloadsSlot.updateOne p f)).Keeps (SourceKept db) :=
  keeps_sourceKept (Slot.keeps_updateOne fun _ _ h => h)

/-- The options of an acquisition that a retry may read. -/
def StoredOptions (db : Database) (acquisitionID : UUID) (options : FileSelectionOptions) : Prop :=
  ∃ a ∈ db.resources.acquisitions.rows, a.id = acquisitionID ∧ a.selectionOptions = some options

theorem retrySelection_stored :
    (retrySelection current).Triple (SourceKept db) fun options s =>
      SourceKept db s ∧ StoredOptions db current.acquisitionID options := by
  intro s options s' hs hrun
  obtain ⟨a, s₁, hload, hrun⟩ := Tx.bind_ok.mp hrun
  obtain ⟨r, hr, rfl⟩ := Tx.zoom_ok.mp (requireRow_ok.mp (context_ok.mp hload))
  obtain ⟨hfind, rfl⟩ := Prod.mk.inj (Slot.selectOne_ok.mp hr)
  have hmem := List.mem_of_find?_eq_some hfind.symm
  have hid := List.find?_some hfind.symm
  cases hoptions : a.selectionOptions <;> simp only [hoptions] at hrun <;> cases hrun
  refine ⟨⟨hs.operations, hs.acquisitions⟩, a, ?_, ?_, hoptions⟩
  · rw [← hs.acquisitions]
    exact hmem
  · simp only [Bool.and_eq_true, decide_eq_true_eq] at hid
    exact hid.1

/-- A job that enqueues has the options of the acquisition. -/
def EnqueuesStored (db : Database) (acquisitionID : UUID) (job : RetryJob) : Prop :=
  job.kind = .downloadEnqueue →
    ∃ options, StoredOptions db acquisitionID options ∧ job = retryEnqueueJob options

/-- What a stage of a retry does. -/
abbrev RetriesStored (db : Database) (acquisitionID : UUID) (m : DatabaseTx RetryJob) :
    Prop :=
  m.Triple (SourceKept db) fun job s => s.operations = db.operations ∧
    EnqueuesStored db acquisitionID job

theorem retryEnqueue_stored :
    RetriesStored db current.acquisitionID (retryEnqueue downloadID expectedVersion current) := by
  refine .bind ?_ fun _ => .bind retrySelection_stored fun options =>
    .pure fun s hs => ⟨hs.1.operations, fun _ => ⟨options, hs.2, rfl⟩⟩
  unfold retryEnqueue.requeue
  split
  · refine .bind (keeps_context (keeps_sourceKept (Tx.Keeps.get.bind fun _ =>
      Slot.keeps_updateOne fun _ _ h => h))) fun row => ?_
    cases row with
    | some _ => exact Tx.Keeps.pure
    | none => exact .throw
  · exact .bind (keeps_context (keeps_requireRow keeps_sourceKept_download)) fun _ => Tx.Keeps.pure

variable {acquisitionID : UUID}

/-- A stage that resumes later work enqueues nothing. -/
theorem stored_of_kind {m : DatabaseTx (Option Download)} {text : String} {job : RetryJob}
    (hm : m.Keeps (SourceKept db)) (hkind : job.kind ≠ .downloadEnqueue) :
    RetriesStored db acquisitionID do
      let _ ← context text (requireRow m)
      return job :=
  .bind (keeps_context (keeps_requireRow hm)) fun _ =>
    .pure fun _ hs => ⟨hs.operations, fun h => absurd h hkind⟩

theorem retrySelectionApply_stored :
    RetriesStored db acquisitionID (retrySelectionApply downloadID expectedVersion) :=
  stored_of_kind keeps_sourceKept_download (by decide)

theorem retryFileResolution_stored :
    RetriesStored db current.acquisitionID
      (retryFileResolution unicode downloadID expectedVersion current) := by
  refine .bind Tx.Keeps.get fun files => ?_
  dsimp only
  split
  · refine .bind retrySelection_stored fun options => .given fun hstored => ?_
    split
    · exact .throw
    · refine .bind (keeps_context (keeps_sourceKept (Slot.keeps_delete fun _ _ h => h)))
        fun _ => .bind (keeps_context keeps_sourceKept_download) fun row => ?_
      cases row with
      | some _ => exact .pure fun _ hs => ⟨hs.operations, fun _ => ⟨options, hstored, rfl⟩⟩
      | none => exact .throw
    · exact retrySelectionApply_stored
  · exact retrySelectionApply_stored

theorem retryStageJob_stored :
    RetriesStored db current.acquisitionID
      (retryStageJob unicode downloadID expectedVersion current) := by
  unfold retryStageJob
  split
  · exact retryEnqueue_stored
  · exact retryFileResolution_stored
  · exact stored_of_kind keeps_sourceKept_download (by decide)
  · exact stored_of_kind keeps_sourceKept_download (by decide)
  · exact .throw

/-- The checks of a retry only read. -/
theorem keeps_lockWorkflowForRetry {I} {taskID : Option UUID}
    {requireIdle : Bool} : (lockWorkflowForRetry acquisitionID taskID requireIdle).Keeps I := by
  refine Tx.Keeps.get.bind fun s => ?_
  split
  · exact .throw
  split
  · exact .throw
  split
  · exact .throw
  split
  · exact .throw
  · exact Tx.Keeps.pure

variable (hfresh : ∀ o ∈ db.operations.rows, o.idempotencyKey ≠ trimSpace key)

include hfresh

/-- What is scheduled under a new key has the payload of the job. -/
theorem retryLockedDownload_payload :
    (retryLockedDownload unicode downloadID expectedVersion new key current).Triple (SourceKept db)
      fun op _ => op.kind = .downloadEnqueue →
        ∃ options, StoredOptions db current.acquisitionID options ∧
          op.payload = .object (("command", .string "retry") :: selectionPayload options) := by
  refine .bind retryStageJob_stored fun job => ?_
  rintro s op s' ⟨hoperations, hjob⟩ hrun hkind
  obtain ⟨⟨o, created⟩, s₁, hschedule, hrun⟩ := Tx.bind_ok.mp hrun
  obtain ⟨_, s₂, -, hrun⟩ := Tx.bind_ok.mp hrun
  obtain ⟨_, s₃, -, hrun⟩ := Tx.bind_ok.mp hrun
  cases hrun
  rcases scheduleInTx_ok (context_ok.mp hschedule) with ⟨-, -, hmem, hkey, -⟩ | ⟨-, -, rfl⟩
  · rw [hoperations] at hmem
    exact absurd hkey (hfresh _ hmem)
  · obtain ⟨options, hstored, rfl⟩ := hjob hkind
    exact ⟨options, hstored, rfl⟩

/-- **A retry that enqueues** under a new key has the options that the acquisition of the
download stores. -/
theorem retryDownload_payload
    (hrun : retryDownload unicode downloadID expectedVersion new key db = .ok (op, db'))
    (hkind : op.kind = .downloadEnqueue) : ∃ d ∈ db.resources.downloads.rows, d.id = downloadID ∧
      ∃ options, StoredOptions db d.acquisitionID options ∧
        op.payload = .object (("command", .string "retry") :: selectionPayload options) := by
  obtain ⟨row, s, hfind, hrest⟩ := Tx.bind_ok.mp hrun
  -- a new key is no replay
  obtain ⟨existing, s', hfound, hfind⟩ := Tx.bind_ok.mp hfind
  obtain ⟨hfound, hs⟩ := Prod.mk.inj (Slot.selectOne_ok.mp (context_ok.mp hfound))
  cases existing with
  | some o =>
    have hkey := List.find?_some hfound.symm
    exact absurd (by simpa using hkey) (hfresh o (List.mem_of_find?_eq_some hfound.symm))
  | none =>
  cases hfind
  obtain ⟨before, s₁, hbefore, hrest⟩ := Tx.bind_ok.mp hrest
  obtain ⟨_, s₂, hlock, hrest⟩ := Tx.bind_ok.mp hrest
  obtain ⟨current, s₃, hcurrent, hrest⟩ := Tx.bind_ok.mp hrest
  -- nothing is written before the stage is requeued
  have hs₁ : s₁ = db := keeps_orNotFound (I := (· = db)) (keeps_context keeps_readOne) hs hbefore
  have hs₂ : s₂ = db := keeps_lockWorkflowForRetry (I := (· = db)) hs₁ hlock
  obtain ⟨hs₃, hmem, hid⟩ := lockDownloadByID_ok (context_ok.mp (orNotFound_ok.mp hcurrent))
  rw [hs₂] at hs₃ hmem
  cases hcheck : checkDownloadRetry expectedVersion current <;> simp only [hcheck] at hrest
  · cases hrest
  exact ⟨current, hmem, hid,
    retryLockedDownload_payload hfresh (hs₃ ▸ SourceKept.refl db) hrest hkind⟩

end Retry

/-! ## When a retry repeats the first run -/

/-- The files of a manifest as an enqueue operation classifies them. -/
def Operation.classify (o : Operation) (unicode : Unicode) (files : List ManifestFile) :
    Option (Except ManifestError (List ClassifiedDownloadFile)) :=
  o.selectionOptions.map fun options => classifyDownloadFiles unicode options files

/-- The two operations have the same options, so they classify every manifest alike. -/
structure SameClassification (unicode : Unicode) (first retried : Operation) : Prop where
  options : retried.selectionOptions = first.selectionOptions
  manifests : ∀ files, retried.classify unicode files = first.classify unicode files

/-- The source facts that the call stores determine the options that it enqueues with: those
of an episode do, and those of a movie if the request has the options of a movie. -/
def AcquisitionCall.StoresOptions : AcquisitionCall → Prop
  | search _ _ _ input => input.media = .episode ∨
      (input.sourceSeason, input.sourceEpisode, input.singleEpisode) = (1, 1, true)
  | _ => False

section Options

variable {made : EnqueuedDownload} {stored : FileSelectionOptions} {retried : Operation}
  (hstored : made.acquisition.selectionOptions = some stored)
  (hretried : retried.payload = .object (("command", .string "retry") :: selectionPayload stored))

include hstored hretried

/-- A retry of a feed entry never has the options of the first run. -/
theorem FromFeed.options_ne (hstores : FromFeed made) :
    retried.selectionOptions ≠ made.operation.selectionOptions := by
  obtain ⟨entryID, identityKey, season, episode, hsource, hpayload⟩ := hstores
  rw [Acquisition.selectionOptions, hsource] at hstored
  obtain ⟨hfits, rfl⟩ :=
    (@decodeSelection_of_fields _ _ _ ⟨season, episode, false⟩ _ rfl rfl rfl).mp hstored
  rw [Operation.selectionOptions, hretried, decodeSelection_retry.mpr ⟨hfits, rfl⟩]
  intro h
  rw [Operation.selectionOptions, hpayload, eq_comm,
    ← List.append_nil (selectionPayload _), decodeSelection_first] at h
  cases h.2

/-- A retry of a search has the options of the first run when the request has them. -/
theorem FromSearch.options_iff (hstores : FromSearch input made) :
    retried.selectionOptions = made.operation.selectionOptions ↔
      ⟨input.sourceSeason, input.sourceEpisode, input.singleEpisode⟩ = input.selectionOptions := by
  obtain ⟨⟨searchRunID, hsource⟩, hpayload⟩ := hstores
  rw [Acquisition.selectionOptions, hsource] at hstored
  obtain ⟨hfits, rfl⟩ := (@decodeSelection_of_fields _ _ _
    ⟨input.sourceSeason, input.sourceEpisode, input.singleEpisode⟩ _ rfl rfl rfl).mp hstored
  rw [Operation.selectionOptions, hretried, decodeSelection_retry.mpr ⟨hfits, rfl⟩,
    Operation.selectionOptions, hpayload, eq_comm, decodeSelection_first]
  exact ⟨fun h => h.2.symm, fun h => ⟨h ▸ hfits, h.symm⟩⟩

/-- The options of the first run and of the retry, by what the call stored. -/
theorem AcquisitionCall.Stores.options_iff {call : AcquisitionCall} (hstores : call.Stores made) :
    retried.selectionOptions = made.operation.selectionOptions ↔ call.StoresOptions := by
  cases call with
  | search mediaID enqueue sync input =>
    rw [FromSearch.options_iff hstored hretried hstores, CreateSearchAcquisition.selectionOptions,
      AcquisitionCall.StoresOptions]
    cases input.media <;> simp
  | rssSchedule new candidate recovery =>
    exact iff_of_false (FromFeed.options_ne hstored hretried hstores) id
  | agentCoordinate new poll resolution proposal =>
    exact iff_of_false (FromFeed.options_ne hstored hretried hstores) id
  | agentAdjudication new resolution proposal =>
    exact iff_of_false (FromFeed.options_ne hstored hretried hstores) id

end Options

/-- **Retries and first runs.** A retry that enqueues the download of a new acquisition, whose
source facts are still those of its creation, classifies every manifest as the first run does
exactly when the call that created the acquisition stored the options. -/
theorem retry_classifies_alike_iff {rules : AcquisitionRules} {hashes : Hashes} {unicode : Unicode}
    {call : AcquisitionCall} {db₀ db₁ db₂ db₃ : Database} {made : List EnqueuedDownload}
    {first : EnqueuedDownload} {expectedVersion : Int} {new : NewOperation} {key : String}
    {retried : Operation} (hcreate : call.run rules hashes db₀ = .ok (made, db₁))
    (hfirst : first ∈ made) (hcreated : first.created = true)
    (hfacts : ∀ a ∈ db₂.resources.acquisitions.rows, a.id = first.acquisition.id →
      a.sourcePayload = first.acquisition.sourcePayload)
    (howner : ∀ d ∈ db₂.resources.downloads.rows, d.id = first.download.id →
      d.acquisitionID = first.acquisition.id)
    (hfresh : ∀ o ∈ db₂.operations.rows, o.idempotencyKey ≠ trimSpace key)
    (hretry : retryDownload unicode first.download.id expectedVersion new key db₂ =
      .ok (retried, db₃))
    (hkind : retried.kind = .downloadEnqueue) :
    SameClassification unicode first.operation retried ↔ call.StoresOptions := by
  obtain ⟨d, hd, hid, stored, ⟨a, ha, haid, hoptions⟩, hpayload⟩ :=
    retryDownload_payload hfresh hretry hkind
  have hsource := hfacts a ha (haid.trans (howner d hd hid))
  have hstored : first.acquisition.selectionOptions = some stored := by
    rw [← hoptions, Acquisition.selectionOptions, Acquisition.selectionOptions, hsource]
  rw [← (AcquisitionCall.run_stores hcreate first hfirst hcreated).options_iff hstored hpayload]
  exact ⟨SameClassification.options, fun h => ⟨h, fun files => by simp [Operation.classify, h]⟩⟩

/-! ## A feed entry and a search candidate -/

/-- Rules under which every release is enqueued. -/
def openRules : AcquisitionRules where
  isDownloadURI _ := true
  reserveTarget _ _ := pure ()
  confirmTarget _ _ _ := pure ()
  analyze _ _ := { downloadable := true }
  occupancy _ _ _ _ := pure {}
  markOccupied _ _ := pure ()
  completeSubscription _ := pure ()

/-- A subscription with the entry of an episode, and a candidate of a search. -/
def sources : Database where
  resources := {
    rssSubscriptions := ⟨[{ id := 1, seriesID := 2, mappingProfileID := some 3 }], by decide⟩
    rssEntries := ⟨[{
      id := 5, subscriptionID := 1, identityKey := "guid:5", title := "Show - 05"
      downloadURI := some "https://feed/05.torrent", downloadable := true
      sourceSeason := some 1, sourceEpisode := some 5 }], by decide⟩
    releaseCandidates := ⟨[{
      id := 6, searchRunID := 7, downloadURI := some "https://search/05.torrent" }], by decide⟩ }

/-- The first attempt of an enqueue operation fails for good. -/
def enqueueFailed (operationID : UUID) (db : Database) : Database :=
  (failAttempt 2 operationID 1 "download_root_not_configured" "the download root is not configured"
    false).commit ((startAttempt 1 operationID 1 "worker").commit db)

def searchCall : AcquisitionCall := .search 20 ⟨21, 1⟩ ⟨22, 2⟩ {
  candidateID := 6, tmdbSeriesID := 99, seriesTitle := "Show", sourceSeason := 1
  sourceEpisode := 5, singleEpisode := true, idempotencyKey := "create", actorUserID := 4 }

/-- The episode of a search, enqueued and failed. -/
def searchFailed : Database :=
  enqueueFailed 21 ((searchCall.run openRules plainHashes).commit sources)

set_option maxRecDepth 2048 in
/-- The retry of a searched episode classifies as the first run does. -/
theorem retry_classifies_alike_search :
    ∃ first, (searchCall.run openRules plainHashes).result? sources = some [first] ∧
      ∃ retried, (retryDownload asciiUnicode first.download.id 2 ⟨23, 3⟩ "retry").result?
          searchFailed = some retried ∧
        SameClassification asciiUnicode first.operation retried := by
  refine ⟨_, rfl, _, rfl, ?_⟩
  have hcreate : searchCall.run openRules plainHashes sources = _ := Tx.ok_of_result? rfl
  have hretry : retryDownload asciiUnicode 45 2 ⟨23, 3⟩ "retry" searchFailed = _ :=
    Tx.ok_of_result? rfl
  refine (retry_classifies_alike_iff hcreate List.mem_cons_self rfl ?_ ?_ ?_ hretry rfl).mpr
    (.inl rfl)
  · intro a ha _
    obtain rfl := List.mem_singleton.mp ha
    rfl
  · intro d hd _
    obtain rfl := List.mem_singleton.mp hd
    rfl
  · decide

def feedCall : AcquisitionCall := .rssSchedule ⟨10, 11, ⟨12, 1⟩⟩ { entryID := 5 } false

/-- The entry of a feed, enqueued and failed. -/
def feedFailed : Database :=
  enqueueFailed 12 ((feedCall.run openRules plainHashes).commit sources)

/-- **A retried feed entry** is no longer a single episode: a video without an episode in its
name, which the first run files under the entry's coordinate, gets none in the retry. -/
theorem feed_retry_loses_coordinate :
    ∃ first, (feedCall.run openRules plainHashes).result? sources = some [first] ∧
      first.created = true ∧ feedFailed.resources.acquisitions.rows = [first.acquisition] ∧
      ∃ retried, (retryDownload asciiUnicode first.download.id 2 ⟨13, 2⟩ "retry").result?
          feedFailed = some retried ∧ retried.kind = .downloadEnqueue ∧
        first.operation.classify asciiUnicode [⟨0, "v.mkv", 1⟩] =
          some (.ok [{ index := 0, relativePath := "v.mkv", sizeBytes := 1, kind := .video
                       coordinate := ⟨1, 5, 0⟩ }]) ∧
        retried.classify asciiUnicode [⟨0, "v.mkv", 1⟩] =
          some (.ok [{ index := 0, relativePath := "v.mkv", sizeBytes := 1, kind := .video }]) :=
  ⟨_, rfl, rfl, rfl, _, rfl, rfl, rfl, rfl⟩

end EmbyAuto
