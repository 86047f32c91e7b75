import EmbyAuto.Catalog.Anchor
import EmbyAuto.Catalog.Repair

/-!
# Choosing and previewing an anchor

An anchor is shown before it is saved. `buildMappingPreview` reads the coordinate of each selected
video again, from its path where nobody decided it, and shifts it by the anchor. The rows that are
stored are the expansion of the anchor.

The automatic mapping takes the first selected video as its anchor, with the target of the same
numbers. It looks at the stored coordinates, whereas the preview looks at the paths.

## Main definitions

* `buildMappingPreview`, `buildMappingProfileRows`: the preview and the stored rows
* `deterministicMappingAnchor`: the anchor of the automatic mapping

## Main results

* `deterministic_mapping_exact_iff`: when the automatic mapping keeps every number
-/

namespace EmbyAuto

open Relational Resources Validation

/-! ## The preview -/

structure EpisodeMappingAnchorInput where
  sourceFileID : UUID
  target : EpisodeCoordinate
  deriving DecidableEq

/-- An `EpisodeMappingPlanInput` in anchor mode. -/
structure AnchorPlan where
  acquisitionID : UUID
  anchor : EpisodeMappingAnchorInput

structure MappingPreviewSource where
  id : UUID
  relativePath : String
  coordinate : EpisodeCoordinate

structure PreviewRow extends EpisodeMappingRow where
  sourceFileID : UUID
  relativePath : String

structure EpisodeMappingPreview where
  acquisitionID : UUID
  seriesID : UUID
  anchor : EpisodeMappingAnchorInput
  rows : List PreviewRow

/-- The selected videos of the current download, by `file_index`. -/
def listAgentMappingFiles (acquisitionID : UUID) (r : Resources) : List DownloadFile :=
  match currentDownload r acquisitionID with
  | some download => selectedVideosOf r download.id
  | none => []

/-- The same videos by their stored coordinates. -/
def listAcquisitionSelectedVideos (acquisitionID : UUID) (r : Resources) : List DownloadFile :=
  (listAgentMappingFiles acquisitionID r).insertionSort fun a b => coordinateOrder a b

/-- The loop over the videos, with the coordinates seen so far. -/
def mappingPreviewSources (r : Resources) :
    List (EpisodeCoordinate × UUID) → List DownloadFile → Except Fault (List MappingPreviewSource)
  | _, [] => .ok []
  | seen, file :: rest =>
    let source := file.computed r
    if source.season ≤ 0 ∨ source.episode ≤ 0 then
      .error (.service "mapping_source_invalid"
        "a selected video file has no valid episode coordinate" [("fileId", .text file.id.text)])
    else if source.episodeFractionHundredths ≠ 0 then
      .error (.service "mapping_source_requires_explicit"
        "fractional source episodes require explicit mapping" [("fileId", .text file.id.text)])
    else match seen.lookup source with
      | some previous =>
        .error (.service "mapping_source_duplicate"
          "selected video files have duplicate episode coordinates"
          [("sourceSeason", .number source.season), ("sourceEpisode", .number source.episode),
            ("fileIds", .text previous.text), ("fileIds", .text file.id.text)])
      | none =>
        (mappingPreviewSources r ((source, file.id) :: seen) rest).map
          ({ id := file.id, relativePath := file.relativePath, coordinate := source } :: ·)

def previewRow (catalog : MappingCatalog) (anchorSource anchorTarget : EpisodeCoordinate)
    (file : MappingPreviewSource) : PreviewRow :=
  { mappingRowFromResolution file.coordinate
      (resolveEpisodeMapping ⟨file.coordinate, anchorSource, anchorTarget, catalog.seasons⟩)
      catalog.targetIDs with
    sourceFileID := file.id
    relativePath := file.relativePath }

/-- `buildMappingPreview` in anchor mode. -/
def buildMappingPreview (input : AnchorPlan) (seriesID : UUID) (r : Resources) :
    Except Fault EpisodeMappingPreview := do
  let files := listAcquisitionSelectedVideos input.acquisitionID r
  if files.isEmpty then
    .error (.service "mapping_files_unavailable" "the acquisition has no selected video files"
      [("acquisitionId", .text input.acquisitionID.text)])
  else
    let catalog ← loadSeriesMappingCatalog r seriesID
    let sources ← mappingPreviewSources r [] files
    match sources.find? fun source => source.id = input.anchor.sourceFileID with
    | none =>
      .error (.service "mapping_anchor_source_invalid"
        "the anchor must reference a selected video file"
        [("sourceFileId", .text input.anchor.sourceFileID.text)])
    | some anchorSource =>
      return {
        acquisitionID := input.acquisitionID
        seriesID
        anchor := input.anchor
        rows := sources.map (previewRow catalog anchorSource.coordinate input.anchor.target) }

/-- `buildMappingProfileRows` in anchor mode. -/
def buildMappingProfileRows (input : AnchorPlan) (seriesID : UUID) (previewRows : List PreviewRow)
    (r : Resources) : Except Fault (List EpisodeMappingRow) :=
  let invalid := .error (.service "mapping_anchor_invalid"
    "the selected mapping anchor is unavailable"
    [("sourceFileId", .text input.anchor.sourceFileID.text)])
  match previewRows.find? fun row => row.sourceFileID = input.anchor.sourceFileID with
  | none => invalid
  | some row =>
    if row.status ≠ .mapped then invalid
    else do
      let catalog ← loadSeriesMappingCatalog r seriesID
      mappingProfileRowsFromAnchor catalog
        { season := row.sourceSeason, episode := row.sourceEpisode } input.anchor.target

/-! ## The automatic anchor -/

/-- The numbers of a row of `ListAgentTMDbEpisodes`. -/
structure AgentTMDbEpisode where
  seasonNumber : Int
  episodeNumber : Int

def AgentTMDbEpisode.coordinate (e : AgentTMDbEpisode) : EpisodeCoordinate where
  season := e.seasonNumber
  episode := e.episodeNumber

def episodesOf (r : Resources) (seasonID : UUID) : List MediaEpisode :=
  r.mediaEpisodes.rows.filter fun e => e.seasonID = seasonID

def listAgentTMDbEpisodes (seriesID : UUID) (r : Resources) : List AgentTMDbEpisode :=
  ((seasonsOf r seriesID).insertionSort (·.seasonNumber ≤ ·.seasonNumber)).flatMap fun season =>
    ((episodesOf r season.id).insertionSort (·.episodeNumber ≤ ·.episodeNumber)).map fun e =>
      { seasonNumber := season.seasonNumber, episodeNumber := e.episodeNumber }

/-- The loop over the files, with the season of the first one, zero before it, and the
coordinates seen so far. -/
def exactCoordinates (targetCounts : EpisodeCoordinate → Nat) :
    Int → List EpisodeCoordinate → List DownloadFile → Bool
  | _, _, [] => true
  | sourceSeason, seen, file :: rest =>
    match file.sourceSeason, file.sourceEpisode with
    | some season, some episode =>
      let coordinate : EpisodeCoordinate := { season, episode }
      let sourceSeason := if sourceSeason = 0 then season else sourceSeason
      if season ≤ 0 ∨ episode ≤ 0 then false
      else if season ≠ sourceSeason ∨ targetCounts coordinate ≠ 1 then false
      else if coordinate ∈ seen then false
      else exactCoordinates targetCounts sourceSeason (coordinate :: seen) rest
    | _, _ => false

/-- The first file, with the target of the same numbers. -/
def deterministicMappingAnchor (files : List DownloadFile) (episodes : List AgentTMDbEpisode) :
    Option EpisodeMappingAnchorInput :=
  match files with
  | [] => none
  | first :: _ =>
    if episodes.isEmpty then none
    else if exactCoordinates (fun c => (episodes.map (·.coordinate)).count c) 0 [] files then
      some {
        sourceFileID := first.id
        target := { season := first.sourceSeason.getD 0, episode := first.sourceEpisode.getD 0 } }
    else none

/-- The coordinate in the columns of a file. -/
def DownloadFile.named (f : DownloadFile) : EpisodeCoordinate :=
  persistedSourceCoordinate f.sourceSeason f.sourceEpisode f.sourceEpisodeFractionHundredths

/-! ### What is accepted -/

variable {rows : List EpisodeMappingRow} {catalog : MappingCatalog}

section Accepted

variable {r : Resources}

theorem loadSeriesMappingCatalog_ok {seriesID : UUID}
    (h : loadSeriesMappingCatalog r seriesID = .ok catalog) :
    seriesCatalog r seriesID = catalog := by
  unfold loadSeriesMappingCatalog at h
  split_ifs at h
  exact Except.ok.inj h

variable {files : List DownloadFile}

theorem mappingPreviewSources_ok {seen sources}
    (h : mappingPreviewSources r seen files = .ok sources) :
    sources = files.map (fun f => ⟨f.id, f.relativePath, f.computed r⟩) ∧
      ∀ f ∈ files, 0 < (f.computed r).season ∧ 0 < (f.computed r).episode ∧
        (f.computed r).episodeFractionHundredths = 0 := by
  induction files generalizing seen sources with
  | nil =>
    obtain rfl := Except.ok.inj h
    simp
  | cons file rest ih =>
    rw [mappingPreviewSources] at h
    split_ifs at h with hinvalid hfraction
    split at h
    · cases h
    cases hrest : mappingPreviewSources r ((file.computed r, file.id) :: seen) rest <;>
      rw [hrest] at h <;> cases h
    obtain ⟨hsources, hvalid⟩ := ih hrest
    refine ⟨congrArg _ hsources, List.forall_mem_cons.mpr ⟨?_, hvalid⟩⟩
    exact ⟨by omega, by omega, not_not.mp hfraction⟩

section Exact

variable {targetCounts : EpisodeCoordinate → Nat} {sourceSeason : Int}
  {seen : List EpisodeCoordinate}

theorem exactCoordinates_cons {file : DownloadFile} {rest}
    (h : exactCoordinates targetCounts sourceSeason seen (file :: rest) = true) :
    ∃ season episode, file.sourceSeason = some season ∧ file.sourceEpisode = some episode ∧
      0 < season ∧ 0 < episode ∧ (sourceSeason = 0 ∨ season = sourceSeason) ∧
      targetCounts { season, episode } = 1 ∧
      exactCoordinates targetCounts season ({ season, episode } :: seen) rest = true := by
  rw [exactCoordinates] at h
  split at h
  · rename_i season episode hseason hepisode
    refine ⟨season, episode, hseason, hepisode, ?_⟩
    by_cases hfirst : sourceSeason = 0
    · simp only at h
      split_ifs at h with hinvalid hmismatch hseen
      exact ⟨by omega, by omega, .inl hfirst, by omega, h⟩
    · simp only at h
      split_ifs at h with hinvalid hmismatch hseen
      obtain rfl : season = sourceSeason := by omega
      exact ⟨by omega, by omega, .inr rfl, by omega, h⟩
  · cases h

/-- Every file that the loop accepts has the season of the first one, and one target has its
numbers. -/
theorem exactCoordinates_mem (hpos : 0 < sourceSeason)
    (h : exactCoordinates targetCounts sourceSeason seen files = true) :
    ∀ f ∈ files, f.sourceSeason = some sourceSeason ∧ ∃ episode, f.sourceEpisode = some episode ∧
      0 < episode ∧ targetCounts { season := sourceSeason, episode } = 1 := by
  induction files generalizing seen with
  | nil => simp
  | cons file rest ih =>
    obtain ⟨season, episode, hseason, hepisode, -, hpositive, hsame, hcount, hrest⟩ :=
      exactCoordinates_cons h
    obtain rfl : season = sourceSeason := by omega
    exact List.forall_mem_cons.mpr ⟨⟨hseason, episode, hepisode, hpositive, hcount⟩, ih hrest⟩

end Exact

theorem deterministicMappingAnchor_some {episodes anchor}
    (h : deterministicMappingAnchor files episodes = some anchor) :
    ∃ first season, files.head? = some first ∧ 0 < season ∧ anchor.sourceFileID = first.id ∧
      anchor.target = { season, episode := first.sourceEpisode.getD 0 } ∧
      ∀ f ∈ files, f.sourceSeason = some season ∧ ∃ episode, f.sourceEpisode = some episode ∧
        0 < episode ∧ ∃ e ∈ episodes, e.coordinate = { season, episode } := by
  unfold deterministicMappingAnchor at h
  split at h
  · cases h
  · rename_i first rest
    split_ifs at h with hempty hexact
    obtain rfl := Option.some.inj h
    obtain ⟨season, episode, hseason, hepisode, hpos, hpositive, -, hcount, hrest⟩ :=
      exactCoordinates_cons hexact
    refine ⟨first, season, rfl, hpos, rfl, by rw [hseason]; rfl, fun f hf => ?_⟩
    have hfiles : ∀ f ∈ first :: rest, f.sourceSeason = some season ∧
        ∃ episode, f.sourceEpisode = some episode ∧ 0 < episode ∧
          (episodes.map (·.coordinate)).count { season, episode } = 1 :=
      List.forall_mem_cons.mpr
        ⟨⟨hseason, episode, hepisode, hpositive, hcount⟩, exactCoordinates_mem hpos hrest⟩
    obtain ⟨hfile, episode, hnumber, hpositive, hcount⟩ := hfiles f hf
    refine ⟨hfile, episode, hnumber, hpositive, ?_⟩
    have hmem := List.count_pos_iff.mp (hcount ▸ Nat.one_pos)
    obtain ⟨e, he, hcoordinate⟩ := List.mem_map.mp hmem
    exact ⟨e, he, hcoordinate⟩

theorem buildMappingPreview_ok {input : AnchorPlan} {seriesID : UUID}
    {preview} (h : buildMappingPreview input seriesID r = .ok preview) :
    (∀ f ∈ listAgentMappingFiles input.acquisitionID r, 0 < (f.computed r).season ∧
      0 < (f.computed r).episode ∧ (f.computed r).episodeFractionHundredths = 0) ∧
    ∃ first ∈ listAgentMappingFiles input.acquisitionID r, first.id = input.anchor.sourceFileID ∧
      ∀ row, row ∈ preview.rows ↔ ∃ f ∈ listAgentMappingFiles input.acquisitionID r,
        previewRow (seriesCatalog r seriesID) (first.computed r) input.anchor.target
          ⟨f.id, f.relativePath, f.computed r⟩ = row := by
  have hperm : ∀ f, f ∈ listAcquisitionSelectedVideos input.acquisitionID r ↔
      f ∈ listAgentMappingFiles input.acquisitionID r :=
    fun f => (List.perm_insertionSort _ _).mem_iff
  unfold buildMappingPreview at h
  simp only at h
  split_ifs at h with hempty
  obtain ⟨catalog, hcatalog, h⟩ := bind_ok_iff.mp h
  obtain ⟨sources, hsources, h⟩ := bind_ok_iff.mp h
  obtain rfl := loadSeriesMappingCatalog_ok hcatalog
  obtain ⟨rfl, hvalid⟩ := mappingPreviewSources_ok hsources
  refine ⟨fun f hf => hvalid f ((hperm f).mpr hf), ?_⟩
  split at h
  · cases h
  next anchorSource hfound =>
  obtain rfl := Except.ok.inj h
  obtain ⟨first, hfirst, rfl⟩ := List.mem_map.mp (List.mem_of_find?_eq_some hfound)
  refine ⟨first, (hperm first).mp hfirst, by simpa using List.find?_some hfound, fun row => ?_⟩
  rw [List.map_map, List.mem_map]
  simp [hperm]

theorem buildMappingProfileRows_ok {input : AnchorPlan} {seriesID : UUID} {previewRows}
    (h : buildMappingProfileRows input seriesID previewRows r = .ok rows) :
    ∃ row ∈ previewRows, row.sourceFileID = input.anchor.sourceFileID ∧
      mappingProfileRowsFromAnchor (seriesCatalog r seriesID)
        { season := row.sourceSeason, episode := row.sourceEpisode } input.anchor.target =
          .ok rows := by
  unfold buildMappingProfileRows at h
  split at h
  · cases h
  · rename_i row hfound
    split_ifs at h with hstatus
    obtain ⟨catalog, hcatalog, h⟩ := bind_ok_iff.mp h
    obtain rfl := loadSeriesMappingCatalog_ok hcatalog
    exact ⟨row, List.mem_of_find?_eq_some hfound, by simpa using List.find?_some hfound, h⟩

end Accepted

/-! ### Numbers that stay

An anchor whose source and target have the same numbers leaves an episode where it is as long as
the season counts that far. Beyond the count, the next season begins. -/

/-- Under an anchor without a shift, an episode up to the count of the season is its own target,
and the catalog has it. -/
theorem Expansion.unshifted {target} {anchorAbsolute : Int}
    (h : Expansion catalog target target anchorAbsolute rows) {episode : Int} (hpos : 0 < episode)
    (hcount : ∀ s ∈ catalog.seasons, s.season = target.season → episode ≤ s.episodeCount) :
    (anchorRow catalog target target episode).status = .mapped ∧
      (anchorRow catalog target target episode).target = { season := target.season, episode } ∧
      catalog.targetIDs { season := target.season, episode } ≠ none := by
  have habsolute : absoluteEpisodeForTarget { season := target.season, episode } catalog.seasons =
      some (anchorAbsolute + episode - target.episode) :=
    absoluteEpisodeForTarget_shift h.columns h.anchor rfl hpos rfl hcount
  have hone : absoluteEpisodeForTarget { season := target.season, episode := 1 } catalog.seasons =
      some (anchorAbsolute + 1 - target.episode) := by
    refine absoluteEpisodeForTarget_shift h.columns h.anchor rfl Int.one_pos rfl
      fun s hs hseason => ?_
    have := hcount s hs hseason
    dsimp only
    omega
  obtain ⟨hfirst, hlast, htarget⟩ := absoluteEpisodeForTarget_some h.columns habsolute
  obtain ⟨hfirst', -⟩ := absoluteEpisodeForTarget_some h.columns hone
  have htotal := h.total_le
  have hsource : target.episode ≤ maxInt32 := by
    obtain ⟨-, hcounted, -⟩ := absoluteEpisodeForTarget_some h.columns h.anchor
    unfold maxInt32
    omega
  have hrow : anchorRow catalog target target episode ∈ rows :=
    (h.mem_rows hsource).mpr ⟨episode, by omega, by unfold maxInt32; omega, hfirst, hlast, rfl⟩
  obtain ⟨-, hfound, hid⟩ := h.row_target hsource hrow
  rw [htarget] at hfound
  rw [← Option.some.inj hfound] at hid
  obtain ⟨hstatus, hpresent⟩ := h.mapped _ hrow
  exact ⟨hstatus, (Option.some.inj hfound).symm, hid ▸ hpresent⟩

section Stored

variable {r : Resources} {seriesID : UUID}

theorem tmdbSeasons_number_key : ("tmdb_seasons_series_id_season_number_key",
    fun a b : TMDbSeasonRow =>
      decide ((a.seriesID, a.seasonNumber) = (b.seriesID, b.seasonNumber))) ∈
    tmdbSeasonSchema.uniques := List.mem_cons_of_mem _ List.mem_cons_self

theorem season_eq_of_number {s s'} (hs : s ∈ seasonsOf r seriesID)
    (hs' : s' ∈ seasonsOf r seriesID) (h : s.seasonNumber = s'.seasonNumber) : s = s' := by
  obtain ⟨hs, hseries⟩ := List.mem_filter.mp hs
  obtain ⟨hs', hseries'⟩ := List.mem_filter.mp hs'
  simp only [decide_eq_true_eq] at hseries hseries'
  exact r.tmdbSeasons.eq_of_key tmdbSeasons_number_key hs hs' (by rw [hseries, hseries', h])

theorem episodeNumbers_nodup (seasonID : UUID) :
    ((episodesOf r seasonID).map (·.episodeNumber)).Nodup := by
  have hunique := r.mediaEpisodes.valid.2 ("media_episodes_season_id_episode_number_key", _)
    (List.mem_cons_of_mem _ List.mem_cons_self)
  rw [List.nodup_iff_pairwise_ne, List.pairwise_map]
  refine (hunique.filter _).imp_of_mem fun {a b} ha hb hconflict hsame => ?_
  have ha := (List.mem_filter.mp ha).2
  have hb := (List.mem_filter.mp hb).2
  simp only [decide_eq_true_eq] at ha hb
  simp [ha, hb, hsame] at hconflict

theorem mem_listAgentTMDbEpisodes {e} :
    e ∈ listAgentTMDbEpisodes seriesID r ↔ ∃ s ∈ seasonsOf r seriesID,
      ∃ episode ∈ episodesOf r s.id, e = ⟨s.seasonNumber, episode.episodeNumber⟩ := by
  simp [listAgentTMDbEpisodes, eq_comm]

/-- A season that is counted right and has its first episodes has no others: with a gap, an
episode up to the count is missing, and the expansion fails. -/
theorem Expansion.episodeNumber_le {target} {anchorAbsolute : Int}
    (h : Expansion (seriesCatalog r seriesID) target target anchorAbsolute rows) {s}
    (hs : s ∈ seasonsOf r seriesID) (hseason : s.seasonNumber = target.season)
    (hcount : s.episodeCount = (episodesOf r s.id).length) {episode : MediaEpisode}
    (hepisode : episode ∈ episodesOf r s.id) : episode.episodeNumber ≤ s.episodeCount := by
  have hstored : ∀ n, 0 < n → n ≤ s.episodeCount →
      n ∈ (episodesOf r s.id).map (·.episodeNumber) := by
    intro n hpos hn
    obtain ⟨-, -, hid⟩ := h.unshifted hpos (by
      rintro t ht htarget
      obtain ⟨s', hs', rfl⟩ := List.mem_map.mp ht
      rw [season_eq_of_number hs hs' (hseason.trans htarget.symm)] at hn
      exact hn)
    obtain ⟨id, hid⟩ := Option.ne_none_iff_exists'.mp hid
    obtain ⟨s', hs', hid⟩ := Option.bind_eq_some_iff.mp hid
    obtain ⟨found, hfound, -⟩ := Option.bind_eq_some_iff.mp hid
    have hnumber : s'.seasonNumber = target.season := by simpa using List.find?_some hs'
    have hkey : found.seasonID = s'.id ∧ found.episodeNumber = n := by
      simpa using List.find?_some hfound
    obtain rfl := season_eq_of_number hs (List.mem_of_find?_eq_some hs')
      (hseason.trans hnumber.symm)
    refine List.mem_map.mpr ⟨found, List.mem_filter.mpr ⟨List.mem_of_find?_eq_some hfound, ?_⟩,
      hkey.2⟩
    exact decide_eq_true hkey.1
  -- As many numbers as the season counts, and every number up to the count is among them.
  have hsubset : Finset.Ioc 0 s.episodeCount ⊆
      ((episodesOf r s.id).map (·.episodeNumber)).toFinset := by
    intro n hn
    obtain ⟨hpos, hle⟩ := Finset.mem_Ioc.mp hn
    exact List.mem_toFinset.mpr (hstored n hpos hle)
  have hequal := Finset.eq_of_subset_of_card_le hsubset (by
    rw [List.toFinset_card_of_nodup (episodeNumbers_nodup s.id), List.length_map, Int.card_Ioc]
    omega)
  have hmem := List.mem_toFinset.mpr (List.mem_map_of_mem (f := (·.episodeNumber)) hepisode)
  rw [← hequal] at hmem
  exact (Finset.mem_Ioc.mp hmem).2

end Stored

/-! ### The automatic mapping -/

/-- The paths leave the videos where the automatic mapping found them: the first video's path says
what its columns say, and no other path leads out of the season or beyond its count. -/
structure InPlace (r : Resources) (seriesID : UUID) (files : List DownloadFile) : Prop where
  anchor : ∀ first ∈ files.head?, first.computed r = first.named
  season : ∀ first ∈ files.head?, ∀ f ∈ files, (f.computed r).season = (first.computed r).season
  counted : ∀ f ∈ files, ∃ s ∈ seasonsOf r seriesID,
    s.seasonNumber = (f.computed r).season ∧ (f.computed r).episode ≤ s.episodeCount

/-- The automatic mapping of an acquisition succeeds. -/
structure AutomaticMapping (r : Resources) (seriesID acquisitionID : UUID)
    (anchor : EpisodeMappingAnchorInput) (preview : EpisodeMappingPreview)
    (rows : List EpisodeMappingRow) : Prop where
  anchor_eq : deterministicMappingAnchor (listAgentMappingFiles acquisitionID r)
    (listAgentTMDbEpisodes seriesID r) = some anchor
  preview_eq : buildMappingPreview ⟨acquisitionID, anchor⟩ seriesID r = .ok preview
  rows_eq : buildMappingProfileRows ⟨acquisitionID, anchor⟩ seriesID preview.rows r = .ok rows

section Automatic

variable {r : Resources} {seriesID acquisitionID : UUID} {anchor : EpisodeMappingAnchorInput}
  {preview : EpisodeMappingPreview} {rows : List EpisodeMappingRow}

theorem previewRow_eq {source target} {f : DownloadFile}
    (hfraction : (f.computed r).episodeFractionHundredths = 0)
    (hseason : (f.computed r).season = source.season) :
    (previewRow catalog source target ⟨f.id, f.relativePath, f.computed r⟩).toEpisodeMappingRow =
      anchorRow catalog source target (f.computed r).episode := by
  have hsource := EpisodeCoordinate.eq_whole hfraction
  rw [hseason] at hsource
  simp [previewRow, anchorRow, ← hsource]

theorem listAgentMappingFiles_subset {f : DownloadFile}
    (h : f ∈ listAgentMappingFiles acquisitionID r) : f ∈ r.downloadFiles.rows := by
  unfold listAgentMappingFiles at h
  split at h
  · exact List.mem_of_mem_filter ((List.perm_insertionSort _ _).mem_iff.mp h)
  · cases h

theorem mappingFile_eq_of_id {f f' : DownloadFile} (hf : f ∈ listAgentMappingFiles acquisitionID r)
    (hf' : f' ∈ listAgentMappingFiles acquisitionID r) (h : f.id = f'.id) : f = f' :=
  r.downloadFiles.eq_of_key downloadFiles_pkey (listAgentMappingFiles_subset hf)
    (listAgentMappingFiles_subset hf') h

namespace AutomaticMapping

variable (h : AutomaticMapping r seriesID acquisitionID anchor preview rows)

include h

/-- The preview and the expansion of the automatic mapping. -/
theorem expansion :
    ∃ first ∈ (listAgentMappingFiles acquisitionID r).head?, ∃ anchorAbsolute,
      anchor.target = { season := first.named.season, episode := first.named.episode } ∧
      (∀ row, row ∈ preview.rows ↔ ∃ f ∈ listAgentMappingFiles acquisitionID r,
        previewRow (seriesCatalog r seriesID) (first.computed r) anchor.target
          ⟨f.id, f.relativePath, f.computed r⟩ = row) ∧
      Expansion (seriesCatalog r seriesID) (first.computed r) anchor.target anchorAbsolute
        rows := by
  obtain ⟨first, season, hfirst, -, hid, htarget, hfiles⟩ :=
    deterministicMappingAnchor_some h.anchor_eq
  obtain ⟨hvalid, source, hsource, hsourceID, hmemRows⟩ := buildMappingPreview_ok h.preview_eq
  have hmem := List.mem_of_mem_head? hfirst
  obtain rfl : source = first := mappingFile_eq_of_id hsource hmem (hsourceID.trans hid)
  -- The row of the anchor is the row of the first file, so the expansion starts where it starts.
  obtain ⟨row, hrow, hrowID, hexpanded⟩ := buildMappingProfileRows_ok h.rows_eq
  obtain ⟨f, hf, rfl⟩ := (hmemRows row).mp hrow
  obtain rfl := mappingFile_eq_of_id hf hsource (hrowID.trans hsourceID.symm)
  obtain ⟨anchorAbsolute, hexpansion⟩ :=
    mappingProfileRowsFromAnchor_expansion seriesCatalog_columns hexpanded
  refine ⟨f, hfirst, anchorAbsolute, ?_, hmemRows, ?_⟩
  · rw [htarget, DownloadFile.named, (hfiles f hmem).1]
    rfl
  · rw [EpisodeCoordinate.eq_whole (hvalid f hf).2.2]
    exact hexpansion

theorem computed_valid :
    ∀ f ∈ listAgentMappingFiles acquisitionID r, 0 < (f.computed r).season ∧
      0 < (f.computed r).episode ∧ (f.computed r).episodeFractionHundredths = 0 :=
  (buildMappingPreview_ok h.preview_eq).1

theorem named_whole {f : DownloadFile} (hf : f ∈ listAgentMappingFiles acquisitionID r) :
    f.named.episodeFractionHundredths = 0 := by
  obtain ⟨-, season, -, hpos, -, -, hfiles⟩ := deterministicMappingAnchor_some h.anchor_eq
  obtain ⟨hseason, episode, hepisode, hpositive, -⟩ := hfiles f hf
  by_contra hfraction
  have hcomputed : f.computed r = f.named := by
    have hvalid : 0 < f.named.season ∧ 0 < f.named.episode := by
      simp only [DownloadFile.named, hseason, hepisode]
      exact ⟨hpos, hpositive⟩
    simp only [DownloadFile.computed, MappingScopeVideo.coordinate, mappingSourceCoordinate,
      resolveSourceCoordinate]
    rw [if_pos]
    · rfl
    · refine ⟨?_, .inr hfraction⟩
      rw [Bool.and_eq_true, decide_eq_true_eq, decide_eq_true_eq]
      exact hvalid
  exact hfraction (hcomputed ▸ (h.computed_valid f hf).2.2)

/-- The rows keep every number where the paths leave the videos in place. -/
theorem unshifted (hplace : InPlace r seriesID (listAgentMappingFiles acquisitionID r)) :
    ∀ row ∈ preview.rows, row.status = .mapped ∧ row.target = row.coordinate := by
  obtain ⟨first, hfirst, anchorAbsolute, htarget, hmem, hexpansion⟩ := h.expansion
  have hsame : first.computed r = anchor.target := by
    rw [htarget, ← hplace.anchor first hfirst]
    exact EpisodeCoordinate.eq_whole (h.computed_valid first (List.mem_of_mem_head? hfirst)).2.2
  rw [hsame] at hexpansion
  intro row hrow
  obtain ⟨f, hf, rfl⟩ := (hmem row).mp hrow
  obtain ⟨-, hpos, hwhole⟩ := h.computed_valid f hf
  have hseason : (f.computed r).season = anchor.target.season := by
    rw [hplace.season first hfirst f hf, hsame]
  obtain ⟨s, hs, hnumber, hle⟩ := hplace.counted f hf
  obtain ⟨hstatus, hrowTarget, -⟩ := hexpansion.unshifted hpos (by
    intro t ht htarget
    obtain ⟨s', hs', rfl⟩ := List.mem_map.mp ht
    obtain rfl := season_eq_of_number hs hs' (hnumber.trans (hseason.trans htarget.symm))
    exact hle)
  rw [hsame, previewRow_eq hwhole hseason]
  exact ⟨hstatus, hrowTarget⟩

/-- Rows that keep every number come from paths that leave the videos in place. -/
theorem inPlace (hrows : ∀ row ∈ preview.rows, row.status = .mapped ∧ row.target = row.coordinate) :
    InPlace r seriesID (listAgentMappingFiles acquisitionID r) := by
  obtain ⟨first, hfirst, anchorAbsolute, htarget, hmem, hexpansion⟩ := h.expansion
  have hhead : ∀ first' ∈ (listAgentMappingFiles acquisitionID r).head?, first' = first :=
    fun first' hfirst' => Option.some.inj (hfirst'.symm.trans hfirst)
  have hresolved : ∀ f ∈ listAgentMappingFiles acquisitionID r,
      (f.computed r).season = (first.computed r).season ∧
        ∃ absolute, targetForAbsoluteEpisode absolute (seriesCatalog r seriesID).seasons =
          some (f.computed r) := by
    intro f hf
    obtain ⟨hstatus, hsame⟩ := hrows _ ((hmem _).mpr ⟨f, hf, rfl⟩)
    obtain ⟨-, -, -, hfound, -⟩ := resolveEpisodeMapping_mapped rfl hstatus
    obtain ⟨-, -, -, -, -, -, hfraction⟩ := targetForAbsoluteEpisode_mem hfound
    have hseason := congrArg EpisodeCoordinate.season (resolveEpisodeMapping_source hstatus).1
    exact ⟨hseason, _,
      hfound.trans (congrArg some ((EpisodeCoordinate.eq_whole hfraction).trans hsame))⟩
  refine ⟨fun first' hfirst' => ?_, fun first' hfirst' f hf => ?_, fun f hf => ?_⟩
  · obtain rfl := hhead first' hfirst'
    have hmemFirst := List.mem_of_mem_head? hfirst
    obtain ⟨-, hsame⟩ := hrows _ ((hmem _).mpr ⟨first', hmemFirst, rfl⟩)
    rw [EpisodeCoordinate.eq_whole (h.named_whole hmemFirst)]
    exact (hsame.symm.trans (by
      rw [EpisodeMappingRow.target]
      simp only [previewRow, mappingRowFromResolution, hexpansion.self_target]
      rw [htarget]))
  · obtain rfl := hhead first' hfirst'
    exact (hresolved f hf).1
  · obtain ⟨-, absolute, hfound⟩ := hresolved f hf
    obtain ⟨t, ht, hseason, -, -, hle, -⟩ := targetForAbsoluteEpisode_mem hfound
    obtain ⟨s, hs, rfl⟩ := List.mem_map.mp ht
    exact ⟨s, hs, hseason, hle⟩

/-- Where the paths say what the columns say, the videos are in place: each has a stored episode of
the same numbers, and no such episode lies beyond the count. -/
theorem inPlace_of_computed
    (hcounts : ∀ s ∈ seasonsOf r seriesID, s.episodeCount = (episodesOf r s.id).length)
    (hcomputed : ∀ f ∈ listAgentMappingFiles acquisitionID r, f.computed r = f.named) :
    InPlace r seriesID (listAgentMappingFiles acquisitionID r) := by
  obtain ⟨first, hfirst, anchorAbsolute, htarget, -, hexpansion⟩ := h.expansion
  obtain ⟨-, season, -, -, -, -, hfiles⟩ := deterministicMappingAnchor_some h.anchor_eq
  have hmemFirst := List.mem_of_mem_head? hfirst
  have hseason : ∀ f ∈ listAgentMappingFiles acquisitionID r, (f.computed r).season = season := by
    intro f hf
    rw [hcomputed f hf, DownloadFile.named, (hfiles f hf).1]
    rfl
  have hsame : first.computed r = anchor.target := by
    rw [htarget, ← hcomputed first hmemFirst]
    exact EpisodeCoordinate.eq_whole (h.computed_valid first hmemFirst).2.2
  refine ⟨fun first' hfirst' => hcomputed first' (List.mem_of_mem_head? hfirst'),
    fun first' hfirst' f hf => ?_, fun f hf => ?_⟩
  · rw [hseason f hf, hseason first' (List.mem_of_mem_head? hfirst')]
  · obtain ⟨hnumber, episode, hepisode, -, e, he, hcoordinate⟩ := hfiles f hf
    obtain ⟨s, hs, stored, hstored, rfl⟩ := mem_listAgentTMDbEpisodes.mp he
    obtain ⟨rfl, rfl, -⟩ := hcoordinate
    refine ⟨s, hs, (hseason f hf).symm, ?_⟩
    have hle := (hsame ▸ hexpansion).episodeNumber_le hs
      (by rw [← hsame]; exact (hseason first hmemFirst).symm) (hcounts s hs) hstored
    rw [hcomputed f hf, DownloadFile.named, hepisode]
    exact hle

end AutomaticMapping

end Automatic

/-- The automatic mapping keeps the numbers of all videos exactly when every path says what the
columns say. Seen from the preview alone, a row has its own numbers as target exactly when the
paths leave the videos in place. -/
theorem deterministic_mapping_exact_iff (r : Resources) (seriesID acquisitionID : UUID)
    (hcounts : ∀ s ∈ seasonsOf r seriesID, s.episodeCount = (episodesOf r s.id).length)
    (anchor : EpisodeMappingAnchorInput) (preview : EpisodeMappingPreview)
    (rows : List EpisodeMappingRow)
    (h : AutomaticMapping r seriesID acquisitionID anchor preview rows) :
    ((∀ f ∈ listAgentMappingFiles acquisitionID r, ∃ row ∈ preview.rows,
        row.sourceFileID = f.id ∧ row.status = .mapped ∧ row.coordinate = f.named ∧
          row.target = f.named) ↔
      ∀ f ∈ listAgentMappingFiles acquisitionID r, f.computed r = f.named) ∧
    ((∀ row ∈ preview.rows, row.status = .mapped ∧ row.target = row.coordinate) ↔
      InPlace r seriesID (listAgentMappingFiles acquisitionID r)) := by
  obtain ⟨first, -, -, -, hmem, -⟩ := h.expansion
  refine ⟨⟨fun hexact f hf => ?_, fun hcomputed f hf => ?_⟩, h.inPlace, h.unshifted⟩
  · obtain ⟨row, hrow, hid, -, hcoordinate, -⟩ := hexact f hf
    obtain ⟨f', hf', rfl⟩ := (hmem row).mp hrow
    obtain rfl := mappingFile_eq_of_id hf' hf hid
    exact hcoordinate
  · have hrow := (hmem _).mpr ⟨f, hf, rfl⟩
    obtain ⟨hstatus, htarget⟩ := h.unshifted (h.inPlace_of_computed hcounts hcomputed) _ hrow
    exact ⟨_, hrow, rfl, hstatus, hcomputed f hf, htarget.trans (hcomputed f hf)⟩

/-- The automatic mapping as a computation. -/
def automaticMapping? (r : Resources) (seriesID acquisitionID : UUID) :
    Option (EpisodeMappingAnchorInput × EpisodeMappingPreview × List EpisodeMappingRow) := do
  let anchor ← deterministicMappingAnchor (listAgentMappingFiles acquisitionID r)
    (listAgentTMDbEpisodes seriesID r)
  let preview ← (buildMappingPreview ⟨acquisitionID, anchor⟩ seriesID r).toOption
  let rows ← (buildMappingProfileRows ⟨acquisitionID, anchor⟩ seriesID preview.rows r).toOption
  return (anchor, preview, rows)

theorem automaticMapping_of_some {r : Resources} {seriesID acquisitionID : UUID} {anchor preview}
    (h : automaticMapping? r seriesID acquisitionID = some (anchor, preview, rows)) :
    AutomaticMapping r seriesID acquisitionID anchor preview rows := by
  obtain ⟨anchor', hanchor, h⟩ := Option.bind_eq_some_iff.mp h
  obtain ⟨preview', hpreview, h⟩ := Option.bind_eq_some_iff.mp h
  obtain ⟨rows', hrows, h⟩ := Option.bind_eq_some_iff.mp h
  cases Option.some.inj h
  exact ⟨hanchor, ok_of_toOption hpreview, ok_of_toOption hrows⟩

/-- A video that is stored as an episode of the second season. -/
def secondSeason (episode : Nat) (relativePath : String) : DownloadFile where
  id := episode
  downloadID := 1
  fileIndex := episode
  relativePath := relativePath
  mediaKind := .video
  selected := true
  sourceSeason := some 2
  sourceEpisode := some episode

/-- Seasons of one and of two episodes, and a download with some files. -/
def seasonPair (files : Table downloadFileSchema) : Resources where
  tmdbSeasons := ⟨[⟨1, 1, 1, 1⟩, ⟨2, 1, 2, 2⟩], by decide⟩
  mediaEpisodes := ⟨[⟨1, 1, 1, "Pilot"⟩, ⟨2, 2, 1, "Return"⟩, ⟨3, 2, 2, "Home"⟩],
    by decide +kernel⟩
  downloads := ⟨[{ id := 1, acquisitionID := 1, fileResolutionSource := some .deterministic }],
    by decide⟩
  downloadFiles := files

def namedEpisodes : Resources :=
  seasonPair ⟨[secondSeason 1 "Show S02E01.mkv", secondSeason 2 "Show S02E02.mkv"], by decide⟩

def misnamedEpisode : Resources := seasonPair ⟨[secondSeason 1 "Show S01E05.mkv"], by decide⟩

theorem seasonPair_counts (files : Table downloadFileSchema) : ∀ s ∈ seasonsOf (seasonPair files) 1,
      s.episodeCount = (episodesOf (seasonPair files) s.id).length := by
  change ∀ s ∈ [(⟨1, 1, 1, 1⟩ : TMDbSeasonRow), ⟨2, 1, 2, 2⟩], _
  simp only [List.forall_mem_cons]
  exact ⟨rfl, rfl, nofun⟩

theorem deterministic_mapping_exact_named :
    ∃ anchor preview rows, AutomaticMapping namedEpisodes 1 1 anchor preview rows ∧
      ∀ f ∈ listAgentMappingFiles 1 namedEpisodes, ∃ row ∈ preview.rows,
        row.sourceFileID = f.id ∧ row.status = .mapped ∧ row.coordinate = f.named ∧
          row.target = f.named := by
  obtain ⟨⟨anchor, preview, rows⟩, h⟩ := Option.isSome_iff_exists.mp
    (show (automaticMapping? namedEpisodes 1 1).isSome by decide +kernel)
  have hmapping := automaticMapping_of_some h
  refine ⟨anchor, preview, rows, hmapping, ?_⟩
  exact (deterministic_mapping_exact_iff namedEpisodes 1 1 (seasonPair_counts _) anchor preview rows
    hmapping).1.mpr (by decide +kernel)

/-- **The automatic mapping shifts an episode.** The video of a single episode keeps the coordinate
of its acquisition, here the second season's first episode, while its path names the fifth episode
of the first season. The anchor is taken from the columns and applied to the path. -/
theorem automatic_mapping_shifts :
    (∀ s ∈ seasonsOf misnamedEpisode 1,
      s.episodeCount = (episodesOf misnamedEpisode s.id).length) ∧
    ∃ anchor preview rows, AutomaticMapping misnamedEpisode 1 1 anchor preview rows ∧
      ∃ row ∈ preview.rows, row.status = .mapped ∧ row.coordinate = ⟨1, 5, 0⟩ ∧
        row.target = ⟨2, 1, 0⟩ := by
  refine ⟨seasonPair_counts _, ?_⟩
  have hrun : (automaticMapping? misnamedEpisode 1 1).map (fun found =>
      found.2.1.rows.map fun row => (row.status, row.coordinate, row.target)) =
      some [(.mapped, ⟨1, 5, 0⟩, ⟨2, 1, 0⟩)] := by decide +kernel
  obtain ⟨⟨anchor, preview, rows⟩, h, hrows⟩ := Option.map_eq_some_iff.mp hrun
  obtain ⟨row, hrow, heq⟩ := List.mem_map.mp (hrows ▸ List.mem_cons_self)
  simp only [Prod.mk.injEq] at heq
  exact ⟨anchor, preview, rows, automaticMapping_of_some h, row, hrow, heq⟩

end EmbyAuto
