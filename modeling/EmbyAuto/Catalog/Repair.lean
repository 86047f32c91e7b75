import EmbyAuto.Download.Materialize
import EmbyAuto.Relational.Relabel

/-!
# Repairing the source coordinates in the scope of a mapping

A mapping is saved for an acquisition, or for all acquisitions of its subscription. Before it is
applied, `repairMappingScopeCoordinates` resolves the coordinate of every selected video in that
scope again and stores it with the video's subtitles. Each update moves the files that have the
video's stored coordinate at that moment, and earlier updates may have brought other files there.

## Main definitions

* `inMappingScope`, `currentDownload`, `mappingScopeFiles`: the scope
* `resolveSourceCoordinate`: a stored coordinate against the one in the path
* `repairMappingScopeCoordinates`: the repair
* `Substituted`: what a simultaneous repair gives
* `RepairSeparable`: the coordinates that the updates keep apart

## Main results

* `repair_substitutes_iff`: the repair is a simultaneous substitution exactly on such scopes
-/

namespace EmbyAuto

open Relational Resources

/-! ## Coordinates -/

def persistedSourceCoordinate (sourceSeason sourceEpisode : Option Int)
    (sourceEpisodeFractionHundredths : Int) : EpisodeCoordinate :=
  ⟨sourceSeason.getD 0, sourceEpisode.getD 0, sourceEpisodeFractionHundredths⟩

structure SourceCoordinateResolution where
  coordinate : EpisodeCoordinate
  valid : Bool
  fromPath : Bool := false

def resolveSourceCoordinate (relativePath : String) (sourceSeason sourceEpisode : Option Int)
    (sourceEpisodeFractionHundredths : Int) (resolutionSource : Option DecisionSource) :
    SourceCoordinateResolution :=
  let persisted :=
    persistedSourceCoordinate sourceSeason sourceEpisode sourceEpisodeFractionHundredths
  let persistedValid := decide (0 < persisted.season) && decide (0 < persisted.episode)
  -- a coordinate that someone decided, or that has a fraction, is not read from the path again
  if persistedValid = true ∧
      ((resolutionSource ≠ none ∧ resolutionSource ≠ some .deterministic) ∨
        persisted.episodeFractionHundredths ≠ 0) then
    { coordinate := persisted, valid := true }
  else match sourceCoordinate? relativePath persisted.season with
    | none => { coordinate := persisted, valid := persistedValid }
    | some parsed =>
      if persistedValid = false ∨ resolutionSource = none ∨
          parsed.episodeFractionHundredths = 0 then
        { coordinate := parsed, valid := true, fromPath := true }
      else match recoverLegacyFractionalSourceCoordinate relativePath persisted with
        | some recovered => { coordinate := recovered, valid := true, fromPath := true }
        | none => { coordinate := persisted, valid := true }

def mappingSourceCoordinate (relativePath : String) (sourceSeason sourceEpisode : Option Int)
    (sourceEpisodeFractionHundredths : Int) (resolutionSource : Option DecisionSource) :
    EpisodeCoordinate :=
  (resolveSourceCoordinate relativePath sourceSeason sourceEpisode
    sourceEpisodeFractionHundredths resolutionSource).coordinate

/-- The three columns of a stored coordinate. -/
structure StoredCoordinate where
  season : Option Int
  episode : Option Int
  fraction : Int
  deriving DecidableEq

/-- The columns that a coordinate is written to. Its numbers come from `integer` columns or
have at most three digits, so the conversion to `int32` keeps them. -/
def EpisodeCoordinate.stored (c : EpisodeCoordinate) : StoredCoordinate :=
  ⟨some c.season, some c.episode, c.episodeFractionHundredths⟩

namespace DownloadFile

def stored (f : DownloadFile) : StoredCoordinate :=
  ⟨f.sourceSeason, f.sourceEpisode, f.sourceEpisodeFractionHundredths⟩

def store (f : DownloadFile) (c : StoredCoordinate) : DownloadFile :=
  { f with
    sourceSeason := c.season
    sourceEpisode := c.episode
    sourceEpisodeFractionHundredths := c.fraction }

/-- `selected AND media_kind = 'video'`. -/
def selectedVideo (f : DownloadFile) : Bool := f.selected && f.mediaKind = .video

/-- `selected AND media_kind IN ('video', 'subtitle')`. -/
def selectedMedia (f : DownloadFile) : Bool :=
  f.selected && (f.mediaKind = .video || f.mediaKind = .subtitle)

@[simp] theorem stored_store (f : DownloadFile) (c : StoredCoordinate) : (f.store c).stored = c :=
  rfl

theorem selectedMedia_of_video {f : DownloadFile} (h : f.selectedVideo = true) :
    f.selectedMedia = true := by
  simp only [selectedVideo, Bool.and_eq_true] at h
  simp [selectedMedia, h.1, h.2]

end DownloadFile

/-! ## The scope of a mapping -/

/-- The newest download of an acquisition that is not deleted; cancelled ones come last. -/
def currentDownload (r : Resources) (acquisitionID : UUID) : Option Download :=
  let candidates := r.downloads.rows.filter fun d =>
    d.acquisitionID = acquisitionID && d.deletedAt.isNone
  ((candidates.filter fun d => d.status ≠ .cancelled).argmax Download.attempt).or
    (candidates.argmax Download.attempt)

/-- The subscription of the feed entry that an acquisition was made for. -/
def entrySubscription (r : Resources) (a : Acquisition) : Option UUID :=
  (a.rssEntryID.bind fun entryID => r.rssEntries.rows.find? fun e => e.id = entryID).map
    (·.subscriptionID)

/-- `source_subscription`: the subscription of an acquisition, unless it is deleted. -/
def sourceSubscription (r : Resources) (acquisitionID : UUID) : Option UUID :=
  ((r.acquisitions.rows.find? fun a => a.id = acquisitionID).bind (entrySubscription r)).filter
    fun id => r.rssSubscriptions.rows.any fun s => s.id = id && s.deletedAt.isNone

def inMappingScope (r : Resources) (acquisitionID : UUID) (a : Acquisition) : Bool :=
  (a.id = acquisitionID ||
    (sourceSubscription r acquisitionID).any fun id => entrySubscription r a = some id) &&
  a.deletionRequestedAt.isNone

/-- The acquisitions in scope without a task, by `created_at` and `id`. -/
def mappingScopeAcquisitions (acquisitionID : UUID) (r : Resources) : List Acquisition :=
  (r.acquisitions.rows.filter fun a =>
    inMappingScope r acquisitionID a && r.episodeTasks.rows.all fun t => t.acquisitionID ≠ a.id)
    |>.insertionSort fun a b =>
      a.createdAt < b.createdAt ∨ (a.createdAt = b.createdAt ∧ a.id ≤ b.id)

/-- The selected videos of a download, by `file_index`. -/
def selectedVideosOf (r : Resources) (downloadID : UUID) : List DownloadFile :=
  (r.downloadFiles.rows.filter fun f => f.downloadID = downloadID && f.selectedVideo).insertionSort
    fun a b => a.fileIndex ≤ b.fileIndex

/-- The selected videos in scope, in the order of the query. -/
def mappingScopeFiles (acquisitionID : UUID) (r : Resources) : List DownloadFile :=
  (mappingScopeAcquisitions acquisitionID r).flatMap fun a =>
    match currentDownload r a.id with
    | some download => selectedVideosOf r download.id
    | none => []

/-- A row of `ListMappingScopeSelectedVideos`. -/
structure MappingScopeVideo where
  id : UUID
  relativePath : String
  sourceSeason : Option Int
  sourceEpisode : Option Int
  sourceEpisodeFractionHundredths : Int
  fileResolutionSource : Option DecisionSource

/-- The columns of a file and of its download. -/
def DownloadFile.scopeVideo (r : Resources) (f : DownloadFile) : MappingScopeVideo where
  id := f.id
  relativePath := f.relativePath
  sourceSeason := f.sourceSeason
  sourceEpisode := f.sourceEpisode
  sourceEpisodeFractionHundredths := f.sourceEpisodeFractionHundredths
  fileResolutionSource :=
    (lookup Download.id f.downloadID r.downloads.rows).bind (·.fileResolutionSource)

def listMappingScopeSelectedVideos (acquisitionID : UUID) (r : Resources) :
    List MappingScopeVideo :=
  (mappingScopeFiles acquisitionID r).map (·.scopeVideo r)

def MappingScopeVideo.coordinate (v : MappingScopeVideo) : EpisodeCoordinate :=
  mappingSourceCoordinate v.relativePath v.sourceSeason v.sourceEpisode
    v.sourceEpisodeFractionHundredths v.fileResolutionSource

/-! ## The statements -/

/-- The family of a video: the media files of its download at its stored coordinate. -/
def DownloadFile.relatedTo (source f : DownloadFile) : Bool :=
  f.downloadID = source.downloadID && f.selectedMedia && f.stored = source.stored

/-- Moves the family of a video to a coordinate and counts the files that changed. -/
def updateSelectedFileCoordinateFamily (sourceFileID : UUID) (new : EpisodeCoordinate) :
    ResourcesTx Nat := do
  match ← downloadFilesSlot.selectOne
    (atKey DownloadFile.id sourceFileID DownloadFile.selectedVideo) with
  | none => return 0
  | some source =>
    let changed ← downloadFilesSlot.update
      (fun f => source.relatedTo f && f.stored ≠ new.stored) (·.store new.stored)
    return changed.length

/-- The coordinate of the only selected video of an acquisition in scope. -/
def sourceFact (r : Resources) (acquisitionID : UUID) (a : Acquisition) :
    Option EpisodeCoordinate :=
  if inMappingScope r acquisitionID a then
    (currentDownload r a.id).bind fun download =>
      match selectedVideosOf r download.id with
      | [⟨_, _, _, _, _, _, _, some season, some episode, fraction, _⟩] =>
        some ⟨season, episode, fraction⟩
      | _ => none
  else none

/-- `jsonb_set(document, '{name}', value, true)` of an object. -/
def JSON.setField (document : JSON) (name : String) (value : JSON) : JSON :=
  match document with
  | .object fields =>
    if fields.any (·.1 = name) then
      .object (fields.map fun field => if field.1 = name then (name, value) else field)
    else .object (fields ++ [(name, value)])
  | other => other

def Acquisition.setSourceFact (a : Acquisition) (fact : EpisodeCoordinate) : Acquisition :=
  { a with
    sourcePayload := ((a.sourcePayload.setField "sourceSeason" (.number fact.season)).setField
      "sourceEpisode" (.number fact.episode)).setField
      "sourceEpisodeFractionHundredths" (.number fact.episodeFractionHundredths) }

def RSSEntry.setSourceFact (e : RSSEntry) (fact : EpisodeCoordinate) : RSSEntry :=
  { e with
    sourceSeason := some fact.season
    sourceEpisode := some fact.episode
    sourceEpisodeFractionHundredths := fact.episodeFractionHundredths }

/-- The fact of the acquisition that was made for a feed entry. -/
def entryFact (r : Resources) (acquisitionID : UUID) (e : RSSEntry) : Option EpisodeCoordinate :=
  (r.acquisitions.rows.find? fun a => a.rssEntryID = some e.id).bind (sourceFact r acquisitionID)

/-- `UPDATE ... FROM facts`: the rows with a fact take it. -/
def applyFact {α : Type} (fact : α → Option EpisodeCoordinate)
    (set : α → EpisodeCoordinate → α) (row : α) : α :=
  ((fact row).map (set row)).getD row

def syncMappingScopeSourceFacts (acquisitionID : UUID) : ResourcesTx Nat := do
  let r ← get
  let _ ← acquisitionsSlot.update (fun a => (sourceFact r acquisitionID a).isSome)
    (applyFact (sourceFact r acquisitionID) Acquisition.setSourceFact)
  let entries ← rssEntriesSlot.update (fun e => (entryFact r acquisitionID e).isSome)
    (applyFact (entryFact r acquisitionID) RSSEntry.setSourceFact)
  return entries.length

/-! ## The repair -/

/-- One round: a video without a positive season and episode is skipped. -/
def repairVideo (file : MappingScopeVideo) : ResourcesTx Nat :=
  if file.coordinate.season ≤ 0 ∨ file.coordinate.episode ≤ 0 then return 0
  else context "update selected file source coordinate"
    (updateSelectedFileCoordinateFamily file.id file.coordinate)

def repairVideos (corrected : Nat) : List MappingScopeVideo → ResourcesTx Nat
  | [] => return corrected
  | file :: files => do
    let changed ← repairVideo file
    repairVideos (corrected + changed) files

def repairMappingScopeCoordinates (acquisitionID : UUID) : ResourcesTx Nat := do
  let files := listMappingScopeSelectedVideos acquisitionID (← get)
  let corrected ← repairVideos 0 files
  let _ ← context "synchronize mapping source facts" (syncMappingScopeSourceFacts acquisitionID)
  return corrected

/-! ## What the repair is for -/

def storedAt (r : Resources) (fileID : UUID) : Option StoredCoordinate :=
  (lookup DownloadFile.id fileID r.downloadFiles.rows).map (·.stored)

/-- The coordinate of a video as `mappingSourceCoordinate` computes it from its row. -/
def DownloadFile.computed (r : Resources) (f : DownloadFile) : EpisodeCoordinate :=
  (f.scopeVideo r).coordinate

/-- The computed coordinate has a positive season and episode. -/
def DownloadFile.Resolves (r : Resources) (f : DownloadFile) : Prop :=
  0 < (f.computed r).season ∧ 0 < (f.computed r).episode

instance (r : Resources) (f : DownloadFile) : Decidable (f.Resolves r) :=
  inferInstanceAs (Decidable (_ ∧ _))

/-- Where a video should end: at its computed coordinate if that is valid, else where it is. -/
def DownloadFile.repaired (r : Resources) (f : DownloadFile) : StoredCoordinate :=
  if f.Resolves r then (f.computed r).stored else f.stored

/-- The repair as one simultaneous substitution. -/
structure Substituted (acquisitionID : UUID) (before after : Resources) : Prop where
  videos : ∀ f ∈ mappingScopeFiles acquisitionID before,
    storedAt after f.id = some (f.repaired before)
  subtitles : ∀ f ∈ mappingScopeFiles acquisitionID before, ∀ s ∈ before.downloadFiles.rows,
    s.selected = true → s.mediaKind = .subtitle → s.downloadID = f.downloadID →
    s.stored = f.stored → storedAt after s.id = some (f.repaired before)
  distinct : ∀ f ∈ mappingScopeFiles acquisitionID before,
    ∀ g ∈ mappingScopeFiles acquisitionID before, f.computed before ≠ g.computed before →
    storedAt after f.id ≠ storedAt after g.id

/-- The videos whose families the updates keep apart. -/
structure RepairSeparable (acquisitionID : UUID) (r : Resources) : Prop where
  /-- videos at one coordinate go to one coordinate -/
  together : ∀ f ∈ mappingScopeFiles acquisitionID r, ∀ g ∈ mappingScopeFiles acquisitionID r,
    f.downloadID = g.downloadID → f.stored = g.stored → f.repaired r = g.repaired r
  /-- no video arrives at a coordinate before the videos there have left for another one -/
  unchained : ∀ pre f post, mappingScopeFiles acquisitionID r = pre ++ f :: post →
    f.Resolves r → ∀ g ∈ post, g.Resolves r → g.downloadID = f.downloadID →
    g.stored = f.repaired r → g.repaired r ≠ f.repaired r →
    ∃ e ∈ pre, e.Resolves r ∧ e.downloadID = g.downloadID ∧ e.stored = g.stored

/-! ## Coordinates that can be stored -/

/-- The coordinates that the constraints on files accept. -/
def EpisodeCoordinate.Storable (c : EpisodeCoordinate) : Prop :=
  0 < c.season ∧ 0 < c.episode ∧
    0 ≤ c.episodeFractionHundredths ∧ c.episodeFractionHundredths ≤ 99

variable {path : String} {season : Int} {parsed : ParsedSourceCoordinate}

theorem parseDecimalSourceCoordinate_some {episodeRaw fractionRaw : Runes}
    (h : parseDecimalSourceCoordinate season episodeRaw fractionRaw = some parsed) :
    parsed.coordinate.Storable ∧ parsed.coordinate.season = season ∧ parsed.fractional = true := by
  unfold parseDecimalSourceCoordinate at h
  cases hfraction : episodeFractionHundredths? fractionRaw with
  | none => simp [hfraction] at h
  | some fraction =>
    simp only [hfraction, Option.ite_none_left_eq_some, not_or, not_le] at h
    obtain ⟨hpositive, h⟩ := h
    obtain rfl := Option.some.inj h
    unfold episodeFractionHundredths? at hfraction
    split at hfraction
    · cases hfraction
    · obtain ⟨hbounds, hvalue⟩ := Option.ite_none_right_eq_some.mp hfraction
      cases hvalue
      exact ⟨⟨hpositive.1, hpositive.2, hbounds⟩, rfl, rfl⟩

theorem wholeSourceCoordinate_some {episode : Int}
    (h : wholeSourceCoordinate season episode = some parsed) : parsed.coordinate.Storable ∧
      parsed.coordinate.season = season ∧ parsed.coordinate.episodeFractionHundredths = 0 := by
  obtain ⟨hpositive, h⟩ := Option.ite_none_right_eq_some.mp h
  obtain rfl := Option.some.inj h
  exact ⟨⟨hpositive.1, hpositive.2, le_rfl, (by decide : (0 : Int) ≤ 99)⟩, rfl, rfl⟩

/-- Every pattern gives a fraction or a whole number. -/
theorem parseSourceCoordinate_cases (h : parseSourceCoordinate path season = some parsed) :
    (∃ season episodeRaw fractionRaw,
      parseDecimalSourceCoordinate season episodeRaw fractionRaw = some parsed) ∨
      ∃ season episode, wholeSourceCoordinate season episode = some parsed := by
  simp only [parseSourceCoordinate, Option.or_eq_some_iff, Option.bind_eq_some_iff] at h
  rcases h with ⟨_, -, h⟩ | ⟨-, ⟨_, -, h⟩ | ⟨-, h | ⟨-, h⟩⟩⟩
  · exact .inl ⟨_, _, _, h⟩
  · exact .inr ⟨_, _, h⟩
  · obtain ⟨_, -, h⟩ := List.exists_of_findSome?_eq_some h
    obtain ⟨_, -, h⟩ := Option.bind_eq_some_iff.mp h
    exact .inl ⟨_, _, _, h⟩
  · obtain ⟨_, -, h⟩ := List.exists_of_findSome?_eq_some h
    obtain ⟨_, -, h⟩ := Option.bind_eq_some_iff.mp h
    exact .inr ⟨_, _, h⟩

theorem parseSourceCoordinate_storable (h : parseSourceCoordinate path season = some parsed) :
    parsed.coordinate.Storable := by
  obtain ⟨_, _, _, h⟩ | ⟨_, _, h⟩ := parseSourceCoordinate_cases h
  · exact (parseDecimalSourceCoordinate_some h).1
  · exact (wholeSourceCoordinate_some h).1

theorem sourceCoordinate?_storable {c} (h : sourceCoordinate? path season = some c) :
    c.Storable := by
  obtain ⟨parsed, hparsed, rfl⟩ := Option.map_eq_some_iff.mp h
  exact parseSourceCoordinate_storable hparsed

theorem recoverLegacyFractionalSourceCoordinate_storable {persisted c}
    (h : recoverLegacyFractionalSourceCoordinate path persisted = some c) : c.Storable := by
  unfold recoverLegacyFractionalSourceCoordinate at h
  split at h
  · cases h
  · cases hparsed : parseSourceCoordinate path persisted.season with
    | none => simp [hparsed] at h
    | some parsed =>
      simp only [hparsed] at h
      split at h
      · cases h
        exact parseSourceCoordinate_storable hparsed
      · cases h

/-- A computed coordinate is the persisted one or can be stored. -/
theorem computed_cases (r : Resources) (f : DownloadFile) :
    f.computed r = persistedSourceCoordinate f.sourceSeason f.sourceEpisode
        f.sourceEpisodeFractionHundredths ∨ (f.computed r).Storable := by
  unfold DownloadFile.computed MappingScopeVideo.coordinate mappingSourceCoordinate
    resolveSourceCoordinate
  dsimp only
  split
  · exact .inl rfl
  · split
    · exact .inl rfl
    · next hparsed =>
      split
      · exact .inr (sourceCoordinate?_storable hparsed)
      · split
        · next hrecovered =>
          exact .inr (recoverLegacyFractionalSourceCoordinate_storable hrecovered)
        · exact .inl rfl

/-! ## The files while the loop runs -/

/-- The download and the stored coordinate of a file: updates move whole classes of it. -/
def DownloadFile.label (f : DownloadFile) : UUID × StoredCoordinate := (f.downloadID, f.stored)

/-- The file with the coordinate of its label; files outside every family keep theirs. -/
def DownloadFile.place (label : DownloadFile → UUID × StoredCoordinate) (f : DownloadFile) :
    DownloadFile :=
  if f.selectedMedia then f.store (label f).2 else f

theorem DownloadFile.place_fields (label : DownloadFile → UUID × StoredCoordinate)
    (f : DownloadFile) : (f.place label).id = f.id ∧ (f.place label).downloadID = f.downloadID ∧
      (f.place label).selectedVideo = f.selectedVideo := by
  unfold place
  split <;> exact ⟨rfl, rfl, rfl⟩

variable {label : DownloadFile → UUID × StoredCoordinate}

theorem DownloadFile.place_of_media {f : DownloadFile} (h : f.selectedMedia = true) :
    f.place label = f.store (label f).2 :=
  if_pos h

theorem DownloadFile.place_of_other {f : DownloadFile} (h : f.selectedMedia = false) :
    f.place label = f :=
  if_neg (by simp [h])

/-- The files are where `label` says, and no label is one of another download. -/
structure Placed (files : List DownloadFile) (label : DownloadFile → UUID × StoredCoordinate)
    (r : Resources) : Prop where
  rows : r.downloadFiles.rows = files.map (·.place label)
  download : ∀ f, (label f).1 = f.downloadID

theorem placed_label (r : Resources) : Placed r.downloadFiles.rows DownloadFile.label r where
  rows := by
    refine (List.map_id'' (fun f => ?_) _).symm
    unfold DownloadFile.place
    split <;> rfl
  download _ := rfl

section Family

variable {files : List DownloadFile} {r : Resources} {video : DownloadFile}
  {new : EpisodeCoordinate}

/-- The family update on a placed file is the move of its class. -/
theorem patch_place (hdownload : ∀ f, (label f).1 = f.downloadID)
    (hvideo : video.selectedVideo = true) (f : DownloadFile) :
    patch (fun f => (video.place label).relatedTo f && f.stored ≠ new.stored)
        (·.store new.stored) (f.place label) =
      f.place (relabel label (video, (video.downloadID, new.stored))) := by
  cases hmedia : f.selectedMedia with
  | false =>
    rw [DownloadFile.place_of_other hmedia, DownloadFile.place_of_other hmedia]
    exact patch_of_false (by simp [DownloadFile.relatedTo, hmedia])
  | true =>
    have hlabel : label f = label video ↔
        f.downloadID = video.downloadID ∧ (label f).2 = (label video).2 := by
      rw [Prod.ext_iff, hdownload, hdownload]
    rw [DownloadFile.place_of_media hmedia, DownloadFile.place_of_media hmedia,
      DownloadFile.place_of_media (DownloadFile.selectedMedia_of_video hvideo)]
    have hrelated : (video.store (label video).2).relatedTo (f.store (label f).2) =
        decide (label f = label video) := by
      rw [decide_eq_decide.mpr hlabel, Bool.decide_and]
      simp only [DownloadFile.relatedTo]
      rw [show (f.store (label f).2).selectedMedia = true from hmedia, Bool.and_true]
      rfl
    simp only [patch, relabel, hrelated]
    by_cases hclass : label f = label video
    · -- a file that is at the new coordinate already is not counted, and stays there
      by_cases hnew : (label video).2 = new.stored
      · simp [hclass, hnew]
      · simp only [hclass, DownloadFile.stored_store, hnew, decide_true, ne_eq, not_false_eq_true,
          Bool.and_self, if_true]
        rfl
    · simp [hclass]

theorem relabel_download (hdownload : ∀ f, (label f).1 = f.downloadID) (c : StoredCoordinate)
    (f : DownloadFile) : (relabel label (video, (video.downloadID, c)) f).1 = f.downloadID := by
  unfold relabel
  split
  · next h => rw [← hdownload f, h, hdownload]
  · exact hdownload f

theorem downloadFiles_pkey :
    ("download_files_pkey", fun a b : DownloadFile => decide (a.id = b.id)) ∈
      downloadFileSchema.uniques :=
  List.mem_cons_self

/-- A storable coordinate violates no constraint, for whichever files. -/
theorem store_valid {p} (hnew : new.Storable) (t : Table downloadFileSchema) :
    downloadFileSchema.Valid (t.rows.map (patch p (·.store new.stored))) := by
  obtain ⟨hseason, hepisode, hlow, hhigh⟩ := hnew
  refine t.valid.map_patch ?_ ?_
  · simp [downloadFileSchema, DownloadFile.store, EpisodeCoordinate.stored, hseason, hepisode, hlow,
      hhigh]
  · simp [downloadFileSchema, DownloadFile.store]

theorem updateSelectedFileCoordinateFamily_placed (h : Placed files label r)
    (hmem : video ∈ files) (hvideo : video.selectedVideo = true) (hnew : new.Storable) :
    ∃ n r', updateSelectedFileCoordinateFamily video.id new r = .ok (n, r') ∧
      Placed files (relabel label (video, (video.downloadID, new.stored))) r' := by
  obtain ⟨hid, -, hselected⟩ := video.place_fields label
  have hmem' : video.place label ∈ r.downloadFiles.rows := h.rows ▸ List.mem_map_of_mem hmem
  have hfound : (downloadFilesSlot.table r).rows.find?
      (atKey DownloadFile.id video.id DownloadFile.selectedVideo) = some (video.place label) := by
    change r.downloadFiles.rows.find? _ = _
    rw [find?_atKey downloadFiles_pkey, lookup, ← hid,
      r.downloadFiles.find?_of_mem downloadFiles_pkey hmem', Option.filter_some, hselected, hvideo]
    rfl
  have hvalid := store_valid
    (p := fun f => (video.place label).relatedTo f && f.stored ≠ new.stored)
    hnew (downloadFilesSlot.table r)
  refine ⟨?count, downloadFilesSlot.put r ⟨_, hvalid⟩, ?run, ?placed, relabel_download h.download _⟩
  case run =>
    rw [updateSelectedFileCoordinateFamily, Tx.bind_of_ok (Slot.selectOne_ok.mpr rfl)]
    simp only [hfound]
    rw [Tx.bind_of_ok (Slot.update_ok.mpr ⟨rfl, hvalid, rfl⟩)]
    rfl
  case placed =>
    change r.downloadFiles.rows.map _ = _
    rw [h.rows, List.map_map]
    exact List.map_congr_left fun f _ => patch_place h.download hvideo f

end Family

section Run

variable {acquisitionID : UUID} {before r : Resources} {f g : DownloadFile}

theorem mem_mappingScopeFiles (h : f ∈ mappingScopeFiles acquisitionID before) :
    f ∈ before.downloadFiles.rows ∧ f.selectedVideo = true := by
  obtain ⟨a, -, h⟩ := List.mem_flatMap.mp h
  cases hdownload : currentDownload before a.id with
  | none => simp [hdownload] at h
  | some download =>
    simp only [hdownload, selectedVideosOf, List.mem_insertionSort, List.mem_filter,
      Bool.and_eq_true] at h
    exact ⟨h.1, h.2.2⟩

theorem computed_storable (hf : f ∈ before.downloadFiles.rows) (h : f.Resolves before) :
    (f.computed before).Storable := by
  rcases computed_cases before f with heq | hstore
  · have hbounds := before.downloadFiles.check
      (c := ("download_files_source_episode_fraction_valid",
      fun f => 0 ≤ f.sourceEpisodeFractionHundredths && f.sourceEpisodeFractionHundredths ≤ 99))
      (by simp [downloadFileSchema]) hf
    simp only [Bool.and_eq_true, decide_eq_true_eq] at hbounds
    refine ⟨h.1, h.2, ?_⟩
    rw [heq]
    exact hbounds
  · exact hstore

/-- The moves that the rounds make: the videos whose coordinate resolves, to that coordinate. -/
def repairMoves (before : Resources) (videos : List DownloadFile) :
    List (DownloadFile × UUID × StoredCoordinate) :=
  (videos.filter fun f => f.Resolves before).map fun f => (f, (f.downloadID, f.repaired before))

variable {videos : List DownloadFile}

theorem repairMoves_cons (h : f.Resolves before) (videos : List DownloadFile) :
    repairMoves before (f :: videos) =
      (f, (f.downloadID, f.repaired before)) :: repairMoves before videos := by
  rw [repairMoves, List.filter_cons_of_pos (by simpa using h)]
  rfl

theorem repairVideos_placed
    (hvideos : ∀ f ∈ videos, f ∈ before.downloadFiles.rows ∧ f.selectedVideo = true)
    (h : Placed before.downloadFiles.rows label r) (corrected : Nat) :
    ∃ n r', repairVideos corrected (videos.map (·.scopeVideo before)) r = .ok (n, r') ∧
      Placed before.downloadFiles.rows (relabelAll label (repairMoves before videos)) r' := by
  induction videos generalizing label r corrected with
  | nil => exact ⟨corrected, r, rfl, h⟩
  | cons f videos ih =>
    obtain ⟨⟨hf, hvideo⟩, hrest⟩ := List.forall_mem_cons.mp hvideos
    by_cases hresolves : f.Resolves before
    · obtain ⟨n, r₁, hrun, hplaced⟩ := updateSelectedFileCoordinateFamily_placed h hf hvideo
        (computed_storable hf hresolves)
      obtain ⟨m, r', hrun', hplaced'⟩ := ih hrest hplaced (corrected + n)
      have hround : repairVideo (f.scopeVideo before) r = .ok (n, r₁) := by
        rw [repairVideo, if_neg (by rw [not_or, not_le, not_le]; exact hresolves), context_ok]
        exact hrun
      refine ⟨m, r', ?_, ?_⟩
      · rw [List.map_cons, repairVideos, Tx.bind_of_ok hround, hrun']
      · rw [repairMoves_cons hresolves, DownloadFile.repaired, if_pos hresolves]
        exact hplaced'
    · obtain ⟨m, r', hrun', hplaced'⟩ := ih hrest h (corrected + 0)
      have hround : repairVideo (f.scopeVideo before) r = .ok (0, r) := by
        rw [repairVideo, if_pos (by rw [← not_lt, ← not_lt, ← not_and_or]; exact hresolves)]
        rfl
      refine ⟨m, r', ?_, ?_⟩
      · rw [List.map_cons, repairVideos, Tx.bind_of_ok hround, hrun']
      · rw [repairMoves, List.filter_cons_of_neg (by simpa using hresolves)]
        exact hplaced'

/-! ### Separable scopes and unchained moves -/

theorem repairMoves_append (videos videos' : List DownloadFile) :
    repairMoves before (videos ++ videos') =
      repairMoves before videos ++ repairMoves before videos' := by
  rw [repairMoves, List.filter_append, List.map_append]
  rfl

theorem mem_repairMoves {m} : m ∈ repairMoves before videos ↔
      ∃ f ∈ videos, f.Resolves before ∧ m = (f, (f.downloadID, f.repaired before)) := by
  simp [repairMoves, and_assoc,
    eq_comm (a := m)]

theorem moved_iff :
    Moved DownloadFile.label (repairMoves before videos) g ↔
      ∃ e ∈ videos, e.Resolves before ∧ e.downloadID = g.downloadID ∧ e.stored = g.stored := by
  constructor
  · rintro ⟨m, hm, hlabel⟩
    obtain ⟨e, he, hresolves, rfl⟩ := mem_repairMoves.mp hm
    obtain ⟨hdownload, hstored⟩ := Prod.mk.inj hlabel
    exact ⟨e, he, hresolves, hdownload, hstored⟩
  · rintro ⟨e, he, hresolves, hdownload, hstored⟩
    exact ⟨_, mem_repairMoves.mpr ⟨e, he, hresolves, rfl⟩, Prod.ext hdownload hstored⟩

/-- A split of the moves comes from a split of the videos. -/
theorem repairMoves_eq_append_cons {pre post m} (h : repairMoves before videos = pre ++ m :: post) :
    ∃ vs f ws, videos = vs ++ f :: ws ∧ f.Resolves before ∧
      repairMoves before vs = pre ∧ m = (f, (f.downloadID, f.repaired before)) ∧
      repairMoves before ws = post := by
  obtain ⟨l₁, l₂, hfilter, rfl, hrest⟩ := List.map_eq_append_iff.mp h
  obtain ⟨f, l₃, rfl, rfl, rfl⟩ := List.map_eq_cons_iff.mp hrest
  obtain ⟨vs, us, rfl, rfl, hcons⟩ := List.filter_eq_append_iff.mp hfilter
  obtain ⟨skipped, ws, rfl, hskipped, hresolves, rfl⟩ := List.filter_eq_cons_iff.mp hcons
  refine ⟨vs ++ skipped, f, ws, by simp, by simpa using hresolves, ?_, rfl, rfl⟩
  have hnone : repairMoves before skipped = [] := by
    rw [repairMoves, List.filter_eq_nil_iff.mpr hskipped, List.map_nil]
  rw [repairMoves_append, hnone, List.append_nil]
  rfl

theorem repairSeparable_iff :
    RepairSeparable acquisitionID before ↔
      (∀ f g, f ∈ mappingScopeFiles acquisitionID before →
        g ∈ mappingScopeFiles acquisitionID before → f.label = g.label →
        (f.downloadID, f.repaired before) = (g.downloadID, g.repaired before)) ∧
      Unchained DownloadFile.label
        (repairMoves before (mappingScopeFiles acquisitionID before)) := by
  constructor
  · intro h
    refine ⟨fun f g hf hg hlabel => ?_, fun pre m post hsplit m' hm' hlabel hne => ?_⟩
    · obtain ⟨hdownload, hstored⟩ := Prod.mk.inj hlabel
      rw [hdownload, h.together f hf g hg hdownload hstored]
    · obtain ⟨vs, f, ws, hvideos, hf, rfl, rfl, rfl⟩ := repairMoves_eq_append_cons hsplit
      obtain ⟨g, hg, hgr, rfl⟩ := mem_repairMoves.mp hm'
      obtain ⟨hdownload, hstored⟩ := Prod.mk.inj hlabel
      refine moved_iff.mpr (h.unchained vs f ws hvideos hf g hg hgr hdownload hstored ?_)
      exact fun heq => hne (Prod.ext hdownload heq)
  · rintro ⟨hclass, h⟩
    refine ⟨fun f hf g hg hdownload hstored => ?_,
      fun pre f post hsplit hf g hg hgr hdownload hstored hne => ?_⟩
    · exact (Prod.mk.inj (hclass f g hf hg (Prod.ext hdownload hstored))).2
    · refine moved_iff.mp (h (repairMoves before pre) (f, (f.downloadID, f.repaired before))
        (repairMoves before post) ?_ _ (mem_repairMoves.mpr ⟨g, hg, hgr, rfl⟩)
        (Prod.ext hdownload hstored) fun heq => hne (Prod.mk.inj heq).2)
      rw [hsplit, repairMoves_append, repairMoves_cons hf]

/-! ### The whole repair -/

theorem JSON.isObject_setField {document : JSON} (h : document.isObject = true) (name : String)
    (value : JSON) : (document.setField name value).isObject = true := by
  cases document with
  | object fields =>
    unfold JSON.setField
    dsimp only
    split <;> rfl
  | _ => cases h

/-- A fact is the coordinate of a stored file. -/
theorem sourceFact_storable {a : Acquisition} {fact}
    (h : sourceFact r acquisitionID a = some fact) : fact.Storable := by
  unfold sourceFact at h
  split at h
  · obtain ⟨download, -, h⟩ := Option.bind_eq_some_iff.mp h
    split at h
    · next id downloadID fileIndex path size kind selected season episode fraction language hfile =>
      cases h
      have hmem := List.mem_singleton_self (DownloadFile.mk id downloadID fileIndex path size kind
        selected (some season) (some episode) fraction language)
      rw [← hfile, selectedVideosOf, List.mem_insertionSort] at hmem
      have hrow := List.mem_of_mem_filter hmem
      have hchecks := fun c hc => r.downloadFiles.check (c := c) hc hrow
      simp only [downloadFileSchema, List.mem_cons, forall_eq_or_imp,
        Option.all_some, decide_eq_true_eq, Bool.and_eq_true] at hchecks
      exact ⟨hchecks.2.2.2.1, hchecks.2.2.2.2.1, hchecks.2.2.2.2.2.1⟩
    · cases h
  · cases h

theorem applyFact_of_isSome {α : Type} {fact}
    (set : α → EpisodeCoordinate → α) {row : α} (h : (fact row).isSome = true) :
    ∃ c, fact row = some c ∧ applyFact fact set row = set row c := by
  obtain ⟨c, hc⟩ := Option.isSome_iff_exists.mp h
  exact ⟨c, hc, by simp [applyFact, hc]⟩

/-- The facts violate no constraint on acquisitions. -/
theorem acquisitionFacts_valid (fact : Acquisition → Option EpisodeCoordinate)
    (t : Table acquisitionSchema) : acquisitionSchema.Valid (t.rows.map
      (patch (fun a => (fact a).isSome) (applyFact fact Acquisition.setSourceFact))) := by
  refine t.valid.map_patch ?_ ?_
  · intro c hc a _ ha
    obtain ⟨coordinate, -, hset⟩ := applyFact_of_isSome Acquisition.setSourceFact ha
    simp only [acquisitionSchema, List.mem_singleton] at hc
    subst hc
    intro hobject
    rw [hset]
    exact JSON.isObject_setField (JSON.isObject_setField
      (JSON.isObject_setField hobject _ _) _ _) _ _
  · intro u hu a b ha
    obtain ⟨coordinate, -, hset⟩ := applyFact_of_isSome Acquisition.setSourceFact ha
    rw [hset]
    simp only [acquisitionSchema, List.mem_cons, List.not_mem_nil, or_false] at hu
    rcases hu with rfl | rfl | rfl <;> exact ⟨fun h => h, fun h => h⟩

/-- The facts violate no constraint on feed entries. -/
theorem entryFacts_valid {fact} (hfact : ∀ e c, fact e = some c → c.Storable)
    (t : Table rssEntrySchema) : rssEntrySchema.Valid (t.rows.map
      (patch (fun e => (fact e).isSome) (applyFact fact RSSEntry.setSourceFact))) := by
  refine t.valid.map_patch ?_ ?_
  · intro c hc e _ he
    obtain ⟨coordinate, hcoordinate, hset⟩ := applyFact_of_isSome RSSEntry.setSourceFact he
    obtain ⟨hseason, hepisode, hlow, hhigh⟩ := hfact e coordinate hcoordinate
    rw [hset]
    simp only [rssEntrySchema, List.mem_cons, List.not_mem_nil, or_false] at hc
    rcases hc with rfl | rfl | rfl | rfl | rfl | rfl | rfl
    case inr.inr.inr.inr.inl =>
      intro hdownloadable
      simp only [Bool.or_eq_true, Bool.and_eq_true] at hdownloadable ⊢
      exact hdownloadable.imp_right fun h => ⟨⟨⟨h.1.1.1, rfl⟩, rfl⟩, h.2⟩
    all_goals simp +contextual [RSSEntry.setSourceFact, hseason, hepisode, hlow, hhigh]
  · intro u hu a b ha
    obtain ⟨coordinate, -, hset⟩ := applyFact_of_isSome RSSEntry.setSourceFact ha
    rw [hset]
    simp only [rssEntrySchema, List.mem_cons, List.not_mem_nil, or_false] at hu
    rcases hu with rfl | rfl <;> exact ⟨fun h => h, fun h => h⟩

theorem syncMappingScopeSourceFacts_keeps_files (acquisitionID : UUID) (r : Resources) :
    ∃ n r', syncMappingScopeSourceFacts acquisitionID r = .ok (n, r') ∧
      r'.downloadFiles = r.downloadFiles := by
  have hacquisitions := acquisitionFacts_valid (sourceFact r acquisitionID) r.acquisitions
  have hentry : ∀ e c, entryFact r acquisitionID e = some c → c.Storable := by
    intro e c hc
    obtain ⟨a, -, ha⟩ := Option.bind_eq_some_iff.mp hc
    exact sourceFact_storable ha
  have hentries := entryFacts_valid hentry r.rssEntries
  let r₁ := acquisitionsSlot.put r ⟨_, hacquisitions⟩
  refine ⟨?count, rssEntriesSlot.put r₁ ⟨_, hentries⟩, ?run, rfl⟩
  case run =>
    rw [syncMappingScopeSourceFacts, Tx.bind_of_ok (Tx.get_apply r)]
    rw [Tx.bind_of_ok (Slot.update_ok.mpr ⟨rfl, hacquisitions, rfl⟩)]
    rw [Tx.bind_of_ok (Slot.update_ok.mpr ⟨rfl, hentries, rfl⟩)]
    rfl

theorem storedAt_placed (h : Placed before.downloadFiles.rows label r)
    (hf : f ∈ before.downloadFiles.rows) (hmedia : f.selectedMedia = true) :
    storedAt r f.id = some (label f).2 := by
  have hmem : f.place label ∈ r.downloadFiles.rows := h.rows ▸ List.mem_map_of_mem hf
  have hfound := r.downloadFiles.find?_of_mem downloadFiles_pkey hmem
  rw [(f.place_fields label).1] at hfound
  rw [storedAt, lookup, hfound, Option.map_some, DownloadFile.place_of_media hmedia,
    DownloadFile.stored_store]

/-- The repair returns, and the coordinates are those of the moves one after the other. -/
theorem repairMappingScopeCoordinates_placed (acquisitionID : UUID) (before : Resources) :
    ∃ n after, repairMappingScopeCoordinates acquisitionID before = .ok (n, after) ∧
      Placed before.downloadFiles.rows (relabelAll DownloadFile.label
        (repairMoves before (mappingScopeFiles acquisitionID before))) after := by
  obtain ⟨n, r₁, hloop, hplaced⟩ := repairVideos_placed
    (fun f hf => mem_mappingScopeFiles hf) (placed_label before) 0
  obtain ⟨m, r₂, hsync, hfiles⟩ := syncMappingScopeSourceFacts_keeps_files acquisitionID r₁
  refine ⟨n, r₂, ?_, hfiles ▸ hplaced.rows, hplaced.download⟩
  rw [repairMappingScopeCoordinates, Tx.bind_of_ok (Tx.get_apply before)]
  rw [listMappingScopeSelectedVideos, Tx.bind_of_ok hloop, Tx.bind_of_ok (context_ok.mpr hsync)]
  rfl

/-- A computed coordinate can be read back from where the video should end. -/
theorem computed_of_repaired (r : Resources) (f : DownloadFile) :
    f.computed r = persistedSourceCoordinate (f.repaired r).season (f.repaired r).episode
      (f.repaired r).fraction := by
  unfold DownloadFile.repaired
  split
  · rfl
  · next hresolves =>
    rcases computed_cases r f with heq | hstore
    · exact heq
    · exact absurd ⟨hstore.1, hstore.2.1⟩ hresolves

theorem substituted_iff {after : Resources} (hplaced : Placed before.downloadFiles.rows label after)
    (hclass : ∀ f g : DownloadFile, f.label = g.label → label f = label g) :
    Substituted acquisitionID before after ↔
      ∀ f ∈ mappingScopeFiles acquisitionID before,
        label f = (f.downloadID, f.repaired before) := by
  have hvideo : ∀ f ∈ mappingScopeFiles acquisitionID before,
      storedAt after f.id = some (label f).2 := by
    intro f hf
    obtain ⟨hrow, hselected⟩ := mem_mappingScopeFiles hf
    exact storedAt_placed hplaced hrow (DownloadFile.selectedMedia_of_video hselected)
  constructor
  · intro h f hf
    have hstored := h.videos f hf
    rw [hvideo f hf, Option.some.injEq] at hstored
    exact Prod.ext (hplaced.download f) hstored
  · intro h
    have hvideos : ∀ f ∈ mappingScopeFiles acquisitionID before,
        storedAt after f.id = some (f.repaired before) := by
      intro f hf
      rw [hvideo f hf, h f hf]
    refine ⟨hvideos, fun f hf s hs hselected hkind hdownload hstored => ?_, fun f hf g hg hne => ?_⟩
    · -- a subtitle stays with the video whose coordinate it had
      have hmedia : s.selectedMedia = true := by
        simp [DownloadFile.selectedMedia, hselected, hkind]
      rw [storedAt_placed hplaced hs hmedia, hclass s f (Prod.ext hdownload hstored), h f hf]
    · rw [hvideos f hf, hvideos g hg, Ne, Option.some.injEq]
      intro heq
      rw [computed_of_repaired, computed_of_repaired before g, heq] at hne
      exact hne rfl

/-- **The repair is a simultaneous substitution exactly on separable scopes.** It always
returns. -/
theorem repair_substitutes_iff (acquisitionID : UUID) (before : Resources) :
    ∃ n after, repairMappingScopeCoordinates acquisitionID before = .ok (n, after) ∧
      (Substituted acquisitionID before after ↔ RepairSeparable acquisitionID before) := by
  obtain ⟨n, after, hrun, hplaced⟩ := repairMappingScopeCoordinates_placed acquisitionID before
  refine ⟨n, after, hrun, ?_⟩
  rw [substituted_iff hplaced fun f g h => relabelAll_congr h]
  rw [repairSeparable_iff]
  refine relabelAll_eq_target_iff
    DownloadFile.label (fun f => (f.downloadID, f.repaired before))
    (repairMoves before (mappingScopeFiles acquisitionID before)) ?inScope ?toTarget ?stay
  case inScope =>
    intro m hm
    obtain ⟨f, hf, -, rfl⟩ := mem_repairMoves.mp hm
    exact hf
  case toTarget =>
    intro m hm
    obtain ⟨f, -, -, rfl⟩ := mem_repairMoves.mp hm
    rfl
  case stay =>
    intro f hf hmoved
    have hresolves : ¬ f.Resolves before :=
      fun h => hmoved (moved_iff.mpr ⟨f, hf, h, rfl, rfl⟩)
    rw [DownloadFile.repaired, if_neg hresolves]
    rfl

end Run

/-- A video whose path names the episode after the stored one. -/
def shiftedEpisode (id : UUID) (episode : Int) (relativePath : String) : DownloadFile where
  id := id
  downloadID := 2
  fileIndex := episode
  relativePath := relativePath
  mediaKind := .video
  selected := true
  sourceSeason := some 1
  sourceEpisode := some episode

def shiftedEpisodes : Resources where
  acquisitions := ⟨[{ id := 1 }], by decide⟩
  downloads := ⟨[{ id := 2, acquisitionID := 1, status := .completed
                   fileResolutionSource := some .deterministic }], by decide⟩
  downloadFiles := ⟨[shiftedEpisode 11 1 "s1e2.mkv", shiftedEpisode 12 2 "s1e3.mkv"], by decide⟩

/-- **A chain of coordinates merges two videos.** The first update brings episode 1 to episode 2,
and the second one takes both files on to episode 3. -/
theorem shifted_episodes_merge :
    ∃ after, repairMappingScopeCoordinates 1 shiftedEpisodes = .ok (3, after) ∧
      storedAt after 11 = some ⟨some 1, some 3, 0⟩ ∧
      storedAt after 12 = some ⟨some 1, some 3, 0⟩ ∧
      ¬ Substituted 1 shiftedEpisodes after := by
  have hrun := Tx.ok_of_result? (m := repairMappingScopeCoordinates 1) (s := shiftedEpisodes)
    (a := 3) (by decide +kernel)
  have hfirst : storedAt ((repairMappingScopeCoordinates 1).commit shiftedEpisodes) 11 =
      some ⟨some 1, some 3, 0⟩ := by decide +kernel
  refine ⟨_, hrun, hfirst, by decide +kernel, fun h => ?_⟩
  have hscope : mappingScopeFiles 1 shiftedEpisodes =
      [shiftedEpisode 11 1 "s1e2.mkv", shiftedEpisode 12 2 "s1e3.mkv"] := rfl
  have hvideo := h.videos (shiftedEpisode 11 1 "s1e2.mkv") (hscope ▸ List.mem_cons_self)
  have hrepaired : (shiftedEpisode 11 1 "s1e2.mkv").repaired shiftedEpisodes =
      ⟨some 1, some 2, 0⟩ := by decide +kernel
  exact absurd (hfirst.symm.trans hvideo) (by decide)

end EmbyAuto
