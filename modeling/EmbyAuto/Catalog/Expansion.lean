import EmbyAuto.Domain.Mapping
import EmbyAuto.Store.Schema
import EmbyAuto.Validation.Loop

/-!
# The expansion of an anchor

The catalog of a series has a list of seasons and the episodes of their numbers. An anchor is
expanded over it: `mappingProfileRowsFromAnchor` enumerates the absolute numbers and resolves the
source episode of each. `resolveEpisodeMapping` goes the other way, from one source episode to its
target. The two agree on the numbers of the columns.

## Main definitions

* `seriesCatalog`: the catalog of a series in the tables
* `mappingProfileRowsFromAnchor`: the expansion of an anchor

## Main results

* `anchor_rows_exact`: the rows of an anchor, and the sources that have one
-/

namespace EmbyAuto

open Relational Resources Validation

/-! ## The catalog of a series -/

structure MappingCatalog where
  seasons : List TMDbSeason
  targetIDs : EpisodeCoordinate → Option UUID

def seasonsOf (r : Resources) (seriesID : UUID) : List TMDbSeasonRow :=
  r.tmdbSeasons.rows.filter fun s => s.seriesID = seriesID

def episodeOf (r : Resources) (seasonID : UUID) (number : Int) : Option MediaEpisode :=
  r.mediaEpisodes.rows.find? fun e => (e.seasonID, e.episodeNumber) = (seasonID, number)

def catalogSeason (r : Resources) (season : TMDbSeasonRow) : TMDbSeason where
  season := season.seasonNumber
  episodeCount := season.episodeCount
  titles number := ((episodeOf r season.id number).map (·.title)).getD ""

def catalogTargetID (r : Resources) (seriesID : UUID) (target : EpisodeCoordinate) : Option UUID :=
  if target.episodeFractionHundredths = 0 then do
    let season ← (seasonsOf r seriesID).find? fun s => s.seasonNumber = target.season
    let episode ← episodeOf r season.id target.episode
    return episode.id
  else none

/-- Both maps of `loadSeriesMappingCatalog`. The order of its seasons is that of a Go map, and
nothing depends on it. -/
def seriesCatalog (r : Resources) (seriesID : UUID) : MappingCatalog where
  seasons := (seasonsOf r seriesID).map (catalogSeason r)
  targetIDs := catalogTargetID r seriesID

def loadSeriesMappingCatalog (r : Resources) (seriesID : UUID) : Except Fault MappingCatalog :=
  if (seasonsOf r seriesID).isEmpty then
    .error (.service "tmdb_catalog_missing" "the TMDb series catalog has not been synchronized"
      [("seriesId", .text seriesID.text)])
  else .ok (seriesCatalog r seriesID)

/-- The constraints of the table are those that the numbering relies on. -/
theorem seriesCatalog_columns {r : Resources} {seriesID : UUID} :
    Columns (seriesCatalog r seriesID).seasons where
  distinct := by
    have hunique := r.tmdbSeasons.valid.2 ("tmdb_seasons_series_id_season_number_key", _)
      (List.mem_cons_of_mem _ List.mem_cons_self)
    rw [seriesCatalog, List.map_map, List.nodup_iff_pairwise_ne, List.pairwise_map]
    refine (hunique.filter _).imp_of_mem fun {a b} ha hb hconflict hsame => ?_
    have hseries : a.seriesID = b.seriesID := by
      have ha := (List.mem_filter.mp ha).2
      have hb := (List.mem_filter.mp hb).2
      simp only [decide_eq_true_eq] at ha hb
      rw [ha, hb]
    have hnumber : a.seasonNumber = b.seasonNumber := hsame
    simp [hseries, hnumber] at hconflict
  range := by
    intro season hseason
    obtain ⟨row, hrow, rfl⟩ := List.mem_map.mp hseason
    have hcheck := r.tmdbSeasons.valid.1 ("integer out of range", _)
      (List.mem_cons_of_mem _ (List.mem_cons_of_mem _ List.mem_cons_self)) row
      (List.mem_of_mem_filter hrow)
    simpa [catalogSeason] using hcheck

/-- The episode with an absolute number. -/
def MappingCatalog.episodeAt (catalog : MappingCatalog) (absolute : Int) : Option UUID :=
  (targetForAbsoluteEpisode absolute catalog.seasons).bind catalog.targetIDs

/-! ## The expansion of an anchor -/

structure EpisodeMappingRow where
  sourceSeason : Int
  sourceEpisode : Int
  sourceEpisodeFractionHundredths : Int
  absoluteEpisode : Int
  status : MappingStatus
  targetSeason : Int
  targetEpisode : Int
  targetEpisodeID : Option UUID
  targetTitle : String
  matchSource : MappingMatchSource
  errorCode : String

def mappingRowFromResolution (source : EpisodeCoordinate) (resolved : EpisodeMappingResult)
    (targetIDs : EpisodeCoordinate → Option UUID) : EpisodeMappingRow where
  sourceSeason := source.season
  sourceEpisode := source.episode
  sourceEpisodeFractionHundredths := source.episodeFractionHundredths
  absoluteEpisode := resolved.absoluteEpisode
  status := resolved.status
  targetSeason := resolved.target.season
  targetEpisode := resolved.target.episode
  targetEpisodeID := targetIDs resolved.target
  targetTitle := resolved.targetTitle
  matchSource := resolved.matchSource
  errorCode := resolved.errorCode

def maxInt32 : Int := 2 ^ 31 - 1

/-- The numbers of the loop, from one to `total`. -/
def absoluteNumbers (total : Int) : List Int := (List.range total.toNat).map fun n : Nat => n + 1

theorem mem_absoluteNumbers {total absolute : Int} :
    absolute ∈ absoluteNumbers total ↔ 1 ≤ absolute ∧ absolute ≤ total := by
  simp only [absoluteNumbers, List.mem_map, List.mem_range]
  constructor
  · omega
  · intro h
    exact ⟨(absolute - 1).toNat, by omega, by omega⟩

section Expansion

variable (catalog : MappingCatalog) (anchorSource anchorTarget : EpisodeCoordinate)

/-- One round of the loop; a source episode that has no number is passed over. -/
def mappingProfileRow (offset absolute : Int) : Except Fault (Option EpisodeMappingRow) :=
  let sourceEpisode := int64 (absolute - offset)
  if sourceEpisode ≤ 0 ∨ maxInt32 < sourceEpisode then .ok none
  else
    let source : EpisodeCoordinate := { season := anchorSource.season, episode := sourceEpisode }
    let row := mappingRowFromResolution source
      (resolveEpisodeMapping ⟨source, anchorSource, anchorTarget, catalog.seasons⟩)
      catalog.targetIDs
    if row.status ≠ .mapped ∨ row.targetEpisodeID = none then
      .error (.service "mapping_catalog_incomplete"
        "the TMDb catalog is missing an episode required by the automatic mapping"
        [("absoluteEpisode", .number absolute), ("errorCode", .text row.errorCode)])
    else .ok (some row)

def mappingProfileRows (offset : Int) : List Int → Except Fault (List EpisodeMappingRow)
  | [] => .ok []
  | absolute :: rest => do
    let row ← mappingProfileRow catalog anchorSource anchorTarget offset absolute
    let rows ← mappingProfileRows offset rest
    return row.toList ++ rows

def mappingProfileRowsFromAnchor : Except Fault (List EpisodeMappingRow) :=
  let total := regularEpisodeCount catalog.seasons
  if total ≤ 0 ∨ 10000 < total then
    .error (.service "mapping_catalog_invalid"
      "the TMDb catalog cannot be expanded into an automatic mapping"
      [("regularEpisodeCount", .number total)])
  else
    let anchor := resolveEpisodeMapping ⟨anchorSource, anchorSource, anchorTarget, catalog.seasons⟩
    if anchor.status ≠ .mapped ∨ catalog.targetIDs anchorTarget = none then
      .error (.service "mapping_anchor_invalid" "the selected mapping anchor is unavailable")
    else do
      let rows ← mappingProfileRows catalog anchorSource anchorTarget
        (int64 (anchor.absoluteEpisode - anchorSource.episode)) (absoluteNumbers total)
      if rows.isEmpty then
        .error (.service "mapping_catalog_invalid"
          "the automatic mapping contains no usable source episodes")
      else return rows

end Expansion

/-! ## The rows of an anchor -/

def EpisodeMappingRow.coordinate (row : EpisodeMappingRow) : EpisodeCoordinate :=
  ⟨row.sourceSeason, row.sourceEpisode, row.sourceEpisodeFractionHundredths⟩

def EpisodeMappingRow.target (row : EpisodeMappingRow) : EpisodeCoordinate where
  season := row.targetSeason
  episode := row.targetEpisode

section Rows

variable {catalog : MappingCatalog} {source target : EpisodeCoordinate}

/-- What is mapped has a valid whole coordinate in the source season of the anchor. -/
theorem resolveEpisodeMapping_source {request}
    (hmapped : (resolveEpisodeMapping request).status = .mapped) :
    request.source = { season := request.anchorSource.season, episode := request.source.episode } ∧
      0 < request.source.episode ∧ 0 < request.anchorSource.episode ∧
      request.anchorSource.episodeFractionHundredths = 0 := by
  unfold resolveEpisodeMapping at hmapped
  split_ifs at hmapped with hvalid hfraction hseason
  · cases hmapped
  · cases hmapped
  · cases hmapped
  · simp only [validSourceCoordinate, Bool.or_eq_true, Bool.not_eq_true', Bool.and_eq_false_iff,
      decide_eq_false_iff_not] at hvalid
    have hfrom : request.source.episodeFractionHundredths = 0 := by omega
    refine ⟨?_, by omega, by omega, by omega⟩
    rw [← not_not.mp hseason, ← hfrom]

def anchorRow (catalog : MappingCatalog) (source target : EpisodeCoordinate) (episode : Int) :
    EpisodeMappingRow :=
  mappingRowFromResolution { season := source.season, episode }
    (resolveEpisodeMapping
      ⟨{ season := source.season, episode }, source, target, catalog.seasons⟩) catalog.targetIDs

theorem EpisodeCoordinate.eq_whole {c : EpisodeCoordinate} (h : c.episodeFractionHundredths = 0) :
    c = { season := c.season, episode := c.episode } := by
  rw [← h]

/-- The source episode of an absolute number fits the column. -/
def numbered (offset absolute : Int) : Bool := 0 < absolute - offset && absolute - offset ≤ maxInt32

/-- The loop gives one row for each number it does not pass over, where its differences do not
wrap. -/
theorem mappingProfileRows_eq {offset : Int} {absolutes : List Int} {rows}
    (h : mappingProfileRows catalog source target offset absolutes = .ok rows) :
    ((∀ absolute ∈ absolutes, int64 (absolute - offset) = absolute - offset) →
        rows = (absolutes.filter (numbered offset)).map
          fun absolute => anchorRow catalog source target (absolute - offset)) ∧
      ∀ row ∈ rows, row.status = .mapped ∧ row.targetEpisodeID ≠ none := by
  induction absolutes generalizing rows with
  | nil =>
    obtain rfl := Except.ok.inj h
    simp
  | cons absolute absolutes ih =>
    obtain ⟨row, hrow, h⟩ := bind_ok_iff.mp h
    obtain ⟨rest, hrows, hpure⟩ := bind_ok_iff.mp h
    obtain rfl := Except.ok.inj hpure
    obtain ⟨heq, hmapped⟩ := ih hrows
    simp only [mappingProfileRow] at hrow
    split_ifs at hrow with hrange hincomplete
    -- the source has no number for the episode, which is passed over
    · obtain rfl := Except.ok.inj hrow
      refine ⟨fun hint => ?_, hmapped⟩
      obtain ⟨hself, hrest⟩ := List.forall_mem_cons.mp hint
      have hpassed : numbered offset absolute = false := by
        simp only [numbered, Bool.and_eq_false_iff, decide_eq_false_iff_not]
        omega
      rw [List.filter_cons_of_neg (by simp [hpassed])]
      exact heq hrest
    · obtain rfl := Except.ok.inj hrow
      rw [not_or, not_not] at hincomplete
      refine ⟨fun hint => ?_, List.forall_mem_cons.mpr ⟨hincomplete, hmapped⟩⟩
      obtain ⟨hself, hrest⟩ := List.forall_mem_cons.mp hint
      have hnumbered : numbered offset absolute = true := by
        simp only [numbered, Bool.and_eq_true, decide_eq_true_eq]
        omega
      rw [List.filter_cons_of_pos hnumbered, List.map_cons, ← heq hrest, hself]
      rfl

/-- What a successful expansion has done. -/
structure Expansion (catalog : MappingCatalog) (source target : EpisodeCoordinate)
    (anchorAbsolute : Int) (rows : List EpisodeMappingRow) : Prop where
  anchor : absoluteEpisodeForTarget target catalog.seasons = some anchorAbsolute
  self : (resolveEpisodeMapping ⟨source, source, target, catalog.seasons⟩).status = .mapped
  total_le : regularEpisodeCount catalog.seasons ≤ 10000
  columns : Columns catalog.seasons
  rows_eq : source.episode ≤ maxInt32 →
      rows = ((absoluteNumbers (regularEpisodeCount catalog.seasons)).filter
      (numbered (anchorAbsolute - source.episode))).map
    fun absolute => anchorRow catalog source target (absolute - (anchorAbsolute - source.episode))
  mapped : ∀ row ∈ rows, row.status = .mapped ∧ row.targetEpisodeID ≠ none

theorem mappingProfileRowsFromAnchor_expansion {rows} (hcolumns : Columns catalog.seasons)
    (h : mappingProfileRowsFromAnchor catalog source target = .ok rows) :
    ∃ anchorAbsolute, Expansion catalog source target anchorAbsolute rows := by
  simp only [mappingProfileRowsFromAnchor] at h
  split_ifs at h with htotal hanchor
  rw [not_or, not_not] at hanchor
  obtain ⟨anchorAbsolute, hnumber, habsolute, -⟩ := resolveEpisodeMapping_mapped rfl hanchor.1
  rw [add_sub_cancel_right, hcolumns.int64_absolute hnumber] at habsolute
  rw [habsolute] at h
  obtain ⟨found, hrows, h⟩ := bind_ok_iff.mp h
  obtain ⟨-, hpure⟩ := ite_error_ok_iff.mp h
  obtain rfl := Except.ok.inj hpure
  obtain ⟨heq, hmapped⟩ := mappingProfileRows_eq hrows
  refine ⟨anchorAbsolute, hnumber, hanchor.1, by omega, hcolumns, fun hsource => ?_, hmapped⟩
  -- The numbers of the loop are at most 10000, so its differences stay within an `int`.
  obtain ⟨hfirst, hlast, -⟩ := absoluteEpisodeForTarget_some hcolumns hnumber
  have hpos : 0 < source.episode := (resolveEpisodeMapping_source hanchor.1).2.2.1
  unfold maxInt32 at hsource
  rw [int64_of_range (by omega) (by omega)] at heq
  refine heq fun absolute habsolute => ?_
  rw [mem_absoluteNumbers] at habsolute
  exact int64_of_range (by omega) (by omega)

/-- Consecutive entries of an increasing list without gaps differ by one. -/
theorem isChain_succ_of_convex {l : List Int} (hsorted : l.Pairwise (· < ·))
    (hconvex : ∀ a ∈ l, ∀ b ∈ l, ∀ c, a ≤ c → c ≤ b → c ∈ l) : l.IsChain fun a b => b = a + 1 := by
  induction l with
  | nil => exact .nil
  | cons a rest ih =>
    rw [List.pairwise_cons] at hsorted
    have hrest : ∀ b ∈ rest, ∀ b' ∈ rest, ∀ c, b ≤ c → c ≤ b' → c ∈ rest := by
      intro b hb b' hb' c hbc hcb
      have hab := hsorted.1 b hb
      refine (List.mem_cons.mp (hconvex b (.tail _ hb) b' (.tail _ hb') c hbc hcb)).resolve_left ?_
      omega
    refine List.isChain_cons.mpr ⟨fun b hb => ?_, ih hsorted.2 hrest⟩
    have hmem := List.mem_of_mem_head? hb
    have hab := hsorted.1 b hmem
    -- The successor of the first entry is in the list and not behind the second entry.
    have hsucc := hconvex a List.mem_cons_self b (.tail _ hmem) (a + 1) (by omega) (by omega)
    cases rest with
    | nil => cases hmem
    | cons b' rest =>
      obtain rfl : b' = b := by simpa using hb
      rcases List.mem_cons.mp hsucc with hsame | hsucc
      · omega
      · rcases List.mem_cons.mp hsucc with hnext | hlater
        · exact hnext.symm
        · have := (List.pairwise_cons.mp hsorted.2).1 _ hlater
          omega

theorem absoluteNumbers_sorted (total : Int) : (absoluteNumbers total).Pairwise (· < ·) :=
  List.pairwise_map.mpr (List.pairwise_lt_range.imp fun h => by omega)

theorem mem_numbered {total offset absolute : Int} :
    absolute ∈ (absoluteNumbers total).filter (numbered offset) ↔
      (1 ≤ absolute ∧ absolute ≤ total) ∧ 0 < absolute - offset ∧ absolute - offset ≤ maxInt32 := by
  rw [List.mem_filter, mem_absoluteNumbers]
  simp [numbered]

namespace Expansion

variable {anchorAbsolute : Int} {rows : List EpisodeMappingRow}
  (h : Expansion catalog source target anchorAbsolute rows) (hsource : source.episode ≤ maxInt32)

include h

/-- The anchor maps its own source to its own target. -/
theorem self_target :
    (resolveEpisodeMapping ⟨source, source, target, catalog.seasons⟩).target = target := by
  obtain ⟨a, ha, habsolute, htarget, -⟩ := resolveEpisodeMapping_mapped rfl h.self
  rw [add_sub_cancel_right, h.columns.int64_absolute ha] at habsolute
  rw [habsolute, (absoluteEpisodeForTarget_some h.columns ha).2.2] at htarget
  exact (Option.some.inj htarget).symm

include hsource

/-- The absolute number of a source episode does not wrap. -/
theorem int64_number {e : Int} (hlow : 1 ≤ e) (hhigh : e ≤ maxInt32) :
    int64 (anchorAbsolute + e - source.episode) = anchorAbsolute + e - source.episode := by
  obtain ⟨hfirst, hlast, -⟩ := absoluteEpisodeForTarget_some h.columns h.anchor
  have hpos : 0 < source.episode := (resolveEpisodeMapping_source h.self).2.2.1
  have htotal := h.total_le
  unfold maxInt32 at hsource hhigh
  exact int64_of_range (by omega) (by omega)

theorem mem_rows {row} :
    row ∈ rows ↔ ∃ e, 1 ≤ e ∧ e ≤ maxInt32 ∧ 1 ≤ anchorAbsolute + e - source.episode ∧
      anchorAbsolute + e - source.episode ≤ regularEpisodeCount catalog.seasons ∧
      anchorRow catalog source target e = row := by
  rw [h.rows_eq hsource, List.mem_map]
  constructor
  · rintro ⟨absolute, habsolute, rfl⟩
    rw [mem_numbered] at habsolute
    exact ⟨_, by omega, by omega, by omega, by omega, rfl⟩
  · rintro ⟨e, hlow, hhigh, hfirst, hlast, rfl⟩
    refine ⟨anchorAbsolute + e - source.episode, ?_, ?_⟩
    · rw [mem_numbered]
      omega
    · congr 1
      omega

/-- A row has the target of its absolute number, and that target's episode. -/
theorem row_target {e : Int} (he : anchorRow catalog source target e ∈ rows) :
    (anchorRow catalog source target e).absoluteEpisode = anchorAbsolute + e - source.episode ∧
      targetForAbsoluteEpisode (anchorAbsolute + e - source.episode) catalog.seasons =
        some (anchorRow catalog source target e).target ∧
      (anchorRow catalog source target e).targetEpisodeID =
        catalog.targetIDs (anchorRow catalog source target e).target := by
  obtain ⟨e', hlow, hhigh, -, -, hrow⟩ := (h.mem_rows hsource).mp he
  obtain rfl : e' = e := congrArg EpisodeMappingRow.sourceEpisode hrow
  obtain ⟨a, ha, habsolute, htarget, -⟩ := resolveEpisodeMapping_mapped rfl (h.mapped _ he).1
  rw [h.anchor] at ha
  obtain rfl := Option.some.inj ha
  dsimp only at habsolute
  rw [h.int64_number hsource hlow hhigh] at habsolute
  obtain ⟨-, -, -, -, -, -, hfraction⟩ := targetForAbsoluteEpisode_mem htarget
  have hsame := EpisodeCoordinate.eq_whole hfraction
  rw [habsolute] at htarget
  exact ⟨habsolute, htarget.trans (congrArg some hsame), congrArg catalog.targetIDs hsame⟩

/-- The pairs of the rows. -/
theorem pair_iff {episode destination} :
    (∃ row ∈ rows, row.coordinate = episode ∧ row.target = destination) ↔
      ∃ e, 1 ≤ e ∧ e ≤ maxInt32 ∧ episode = { season := source.season, episode := e } ∧
        1 ≤ anchorAbsolute + e - source.episode ∧
        anchorAbsolute + e - source.episode ≤ regularEpisodeCount catalog.seasons ∧
        targetForAbsoluteEpisode (anchorAbsolute + e - source.episode) catalog.seasons =
          some destination := by
  constructor
  · rintro ⟨row, hrow, rfl, rfl⟩
    obtain ⟨e, hlow, hhigh, hfirst, hlast, rfl⟩ := (h.mem_rows hsource).mp hrow
    exact ⟨e, hlow, hhigh, rfl, hfirst, hlast, (h.row_target hsource hrow).2.1⟩
  · rintro ⟨e, hlow, hhigh, rfl, hfirst, hlast, htarget⟩
    have hrow := (h.mem_rows hsource).mpr ⟨e, hlow, hhigh, hfirst, hlast, rfl⟩
    refine ⟨_, hrow, rfl, ?_⟩
    rw [(h.row_target hsource hrow).2.1] at htarget
    exact Option.some.inj htarget

theorem absolute_target {row} (hrow : row ∈ rows) :
    absoluteEpisodeForTarget row.target catalog.seasons = some row.absoluteEpisode := by
  obtain ⟨e, -, -, -, -, rfl⟩ := (h.mem_rows hsource).mp hrow
  obtain ⟨habsolute, htarget, -⟩ := h.row_target hsource hrow
  rw [habsolute]
  exact absoluteEpisodeForTarget_target h.columns htarget

theorem isChain : rows.IsChain fun row next => next.sourceEpisode = row.sourceEpisode + 1 := by
  rw [h.rows_eq hsource, List.isChain_map]
  refine (isChain_succ_of_convex ((absoluteNumbers_sorted _).filter _) ?_).imp ?_
  · intro a ha b hb c hac hcb
    rw [mem_numbered] at ha hb ⊢
    omega
  · simp only [anchorRow, mappingRowFromResolution]
    omega

theorem ascending :
    rows.Pairwise fun row later => row.absoluteEpisode < later.absoluteEpisode := by
  have hrow : ∀ a ∈ (absoluteNumbers (regularEpisodeCount catalog.seasons)).filter
      (numbered (anchorAbsolute - source.episode)),
      (anchorRow catalog source target
        (a - (anchorAbsolute - source.episode))).absoluteEpisode = a := by
    intro a ha
    rw [(h.row_target hsource (by rw [h.rows_eq hsource]; exact List.mem_map_of_mem ha)).1]
    omega
  rw [h.rows_eq hsource, List.pairwise_map]
  refine ((absoluteNumbers_sorted _).filter _).imp_of_mem fun ha hb hab => ?_
  rw [hrow _ ha, hrow _ hb]
  exact hab

/-- A source that the anchor maps has an absolute number of the catalog, and so a row. -/
theorem mapped_source {episode resolved} (hcolumn : episode.episode ≤ maxInt32)
    (hresolved : resolveEpisodeMapping ⟨episode, source, target, catalog.seasons⟩ = resolved)
    (hstatus : resolved.status = .mapped) :
    ∃ row ∈ rows, row.coordinate = episode ∧ row.target = resolved.target := by
  obtain ⟨hepisode, hpos, -⟩ := resolveEpisodeMapping_source (hresolved ▸ hstatus)
  obtain ⟨a, ha, habsolute, htarget, -⟩ := resolveEpisodeMapping_mapped hresolved hstatus
  dsimp only at hepisode hpos ha habsolute
  rw [h.anchor] at ha
  obtain rfl := Option.some.inj ha
  rw [habsolute, h.int64_number hsource hpos hcolumn] at htarget
  obtain ⟨hfirst, hlast⟩ := (targetForAbsoluteEpisode_some_iff h.columns).mp ⟨_, htarget⟩
  exact (h.pair_iff hsource).mpr
    ⟨episode.episode, hpos, hcolumn, hepisode, hfirst, hlast, htarget⟩

end Expansion

/-- The rows of an anchor are those of the source episodes that fit the column and whose absolute
number the catalog has, in order and without a gap, and their targets ascend. The anchor has a row,
and every source that it maps has one with the same target. The numbers of the catalog, of the
anchor and of the sources are those of `integer` columns. -/
theorem anchor_rows_exact (catalog : MappingCatalog) (source target : EpisodeCoordinate)
    (hcolumns : Columns catalog.seasons) (hsource : source.episode ≤ maxInt32)
    (rows : List EpisodeMappingRow)
    (h : mappingProfileRowsFromAnchor catalog source target = .ok rows) :
    ∃ anchorAbsolute, absoluteEpisodeForTarget target catalog.seasons = some anchorAbsolute ∧
      (∀ episode destination,
        (∃ row ∈ rows, row.coordinate = episode ∧ row.target = destination) ↔
          ∃ e, 1 ≤ e ∧ e ≤ maxInt32 ∧ episode = { season := source.season, episode := e } ∧
            1 ≤ anchorAbsolute + e - source.episode ∧
            anchorAbsolute + e - source.episode ≤ regularEpisodeCount catalog.seasons ∧
            targetForAbsoluteEpisode (anchorAbsolute + e - source.episode) catalog.seasons =
              some destination) ∧
      rows.IsChain (fun row next => next.sourceEpisode = row.sourceEpisode + 1) ∧
      (∀ row ∈ rows,
        absoluteEpisodeForTarget row.target catalog.seasons = some row.absoluteEpisode) ∧
      rows.Pairwise (fun row later =>
        row.target ≠ later.target ∧ row.absoluteEpisode < later.absoluteEpisode) ∧
      (∃ row ∈ rows, row.coordinate = source ∧ row.target = target) ∧
      ∀ episode resolved, episode.episode ≤ maxInt32 →
        resolveEpisodeMapping ⟨episode, source, target, catalog.seasons⟩ = resolved →
        resolved.status = .mapped →
        ∃ row ∈ rows, row.coordinate = episode ∧ row.target = resolved.target := by
  obtain ⟨anchorAbsolute, hrows⟩ := mappingProfileRowsFromAnchor_expansion hcolumns h
  refine ⟨anchorAbsolute, hrows.anchor, fun _ _ => hrows.pair_iff hsource, hrows.isChain hsource,
    fun row hrow => hrows.absolute_target hsource hrow, ?_, ?_,
    fun _ _ => hrows.mapped_source hsource⟩
  · refine (hrows.ascending hsource).imp_of_mem fun {row later} hrow hlater hlt =>
      ⟨fun heq => ?_, hlt⟩
    -- Equal targets would have one absolute number.
    have hnumber := hrows.absolute_target hsource hrow
    rw [heq, hrows.absolute_target hsource hlater] at hnumber
    have := Option.some.inj hnumber
    omega
  · have hself := hrows.mapped_source hsource hsource rfl hrows.self
    rwa [hrows.self_target] at hself

end Rows

/-- A season of two episodes. -/
def twoEpisodes : MappingCatalog where
  seasons := [⟨1, 2, fun _ => "Episode"⟩]
  targetIDs c := if c = ⟨1, 1, 0⟩ then some 1 else if c = ⟨1, 2, 0⟩ then some 2 else none

def expandedCoordinates (catalog : MappingCatalog) (source target : EpisodeCoordinate) :
    Option (List EpisodeCoordinate) :=
  (mappingProfileRowsFromAnchor catalog source target).toOption.map (·.map (·.coordinate))

theorem expandedCoordinates_some {catalog source target coordinates}
    (h : expandedCoordinates catalog source target = some coordinates) :
    ∃ rows, mappingProfileRowsFromAnchor catalog source target = .ok rows ∧
      rows.map (·.coordinate) = coordinates := by
  obtain ⟨rows, hrows, hmap⟩ := Option.map_eq_some_iff.mp h
  exact ⟨rows, ok_of_toOption hrows, hmap⟩

theorem anchor_rows_exact_two :
    ∃ rows, mappingProfileRowsFromAnchor twoEpisodes ⟨4, 7, 0⟩ ⟨1, 2, 0⟩ = .ok rows ∧
      ∃ row ∈ rows, row.coordinate = ⟨4, 6, 0⟩ ∧ row.target = ⟨1, 1, 0⟩ := by
  obtain ⟨rows, hrows, -⟩ := expandedCoordinates_some
    (show expandedCoordinates twoEpisodes ⟨4, 7, 0⟩ ⟨1, 2, 0⟩ = some [⟨4, 6, 0⟩, ⟨4, 7, 0⟩] by
      decide +kernel)
  obtain ⟨anchorAbsolute, hanchor, hpairs, -⟩ :=
    anchor_rows_exact twoEpisodes ⟨4, 7, 0⟩ ⟨1, 2, 0⟩ ⟨by decide, by decide⟩ (by decide) rows hrows
  refine ⟨rows, hrows, (hpairs _ _).mpr ⟨6, by decide, by decide, rfl, ?_⟩⟩
  obtain rfl : 2 = anchorAbsolute := by
    have : absoluteEpisodeForTarget ⟨1, 2, 0⟩ twoEpisodes.seasons = some 2 := by decide +kernel
    exact Option.some.inj hanchor
  decide +kernel

end EmbyAuto
