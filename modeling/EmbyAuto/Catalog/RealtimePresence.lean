import EmbyAuto.Domain.FileSelection
import EmbyAuto.Store.Value

/-!
# Episodes that the Emby library already has

The two tests whether the target of a mapped release is in the library: the matcher of the
real-time check, on the items that Emby returns for a series, and `catalog_present` of
`GetRSSMappedTargetOccupancy`, on the table that the last scan wrote.

## Main definitions

* `matchRealtimeTargets`: the matcher, with TMDb ids before coordinates
* `catalogPresent`: the predicate of the query

## Main results

* `catalogPresent_iff_matched`: the catalog has every target that the matcher finds, and those
  at whose coordinate an episode has a TMDb id
-/

namespace EmbyAuto.RealtimeEmby

inductive EmbyItemType where
  | series | season | episode | movie
  deriving DecidableEq

/-- `domain.EmbyLibraryItemCatalog`: an item as Emby returns it. -/
structure EmbyLibraryItemCatalog where
  embyID : String
  parentEmbyID : String := ""
  itemType : EmbyItemType
  path : String := ""
  providerIDs : List (String × String) := []
  seasonNumber : Option Int := none
  episodeNumber : Option Int := none

/-- `rssRealtimeTarget`: an episode of TMDb. -/
structure RSSRealtimeTarget where
  target : EpisodeCoordinate
  tmdbEpisodeID : Option Int
  tmdbSeriesID : Int
  whole : target.episodeFractionHundredths = 0 := by rfl

inductive MatchSource where
  | absent | tmdbEpisode | targetCoordinate

structure RealtimeTargetMatch where
  present : Bool := false
  source : MatchSource := .absent

/-- A row of `emby_library_items`. -/
structure EmbyLibraryItem where
  embyID : String
  parentEmbyID : Option String
  itemType : EmbyItemType
  filePath : Option String
  providerIDs : List (String × String)
  seasonNumber : Option Int
  episodeNumber : Option Int
  present : Bool

variable (foldRune : Char → Char) (lower : String → String)
  (items : List EmbyLibraryItemCatalog)

/-! ## The real-time check -/

def isTMDbProvider (provider : String) : Bool :=
  equalFold foldRune (trimSpace provider).toList "tmdb".toList ||
    equalFold foldRune (trimSpace provider).toList "themoviedb".toList

def hasTMDbProviderID (ids : List (String × String)) : Bool :=
  ids.any fun (key, value) => isTMDbProvider foldRune key && trimSpace value != ""

/-- The items that the matcher reads. -/
def episodes : List EmbyLibraryItemCatalog :=
  items.filter fun item => item.itemType = .episode && trimSpace item.path != ""

def EmbyLibraryItemCatalog.coordinate? (item : EmbyLibraryItemCatalog) :
    Option EpisodeCoordinate := do
  return ⟨← item.seasonNumber, ← item.episodeNumber, 0⟩

/-- The set `providerIDs` of the matcher. -/
def providerIDs : List String :=
  (episodes items).flatMap fun item =>
    (item.providerIDs.filter fun (key, _) => isTMDbProvider foldRune key).map
      (trimSpace ·.2) |>.filter (· != "")

def coordinates : List EpisodeCoordinate :=
  (episodes items).filterMap (·.coordinate?)

def coordinatesWithoutProvider : List EpisodeCoordinate :=
  coordinates (items.filter fun item => !hasTMDbProviderID foldRune item.providerIDs)

def matchRealtimeTarget (target : RSSRealtimeTarget) : RealtimeTargetMatch :=
  match target.tmdbEpisodeID with
  | some id =>
    if toString id ∈ providerIDs foldRune items then ⟨true, .tmdbEpisode⟩
    else if target.target ∈ coordinatesWithoutProvider foldRune items then
      ⟨true, .targetCoordinate⟩
    else {}
  | none => if target.target ∈ coordinates items then ⟨true, .targetCoordinate⟩ else {}

def matchRealtimeTargets (targets : List RSSRealtimeTarget) : List RealtimeTargetMatch :=
  targets.map (matchRealtimeTarget foldRune items)

/-! ## The catalog -/

/-- The row that a scan writes for an item. -/
def upsertEmbyLibraryItem (item : EmbyLibraryItemCatalog) : EmbyLibraryItem where
  embyID := item.embyID
  parentEmbyID := optionalString item.parentEmbyID
  itemType := item.itemType
  filePath := optionalString item.path
  providerIDs := item.providerIDs
  seasonNumber := item.seasonNumber.map int32
  episodeNumber := item.episodeNumber.map int32
  present := true

/-- Whether the provider ids of a row name an entry of TMDb. -/
def providesID (ids : List (String × String)) (id : Int) : Bool :=
  ids.any fun (key, value) => lower key ∈ ["tmdb", "themoviedb"] && value = toString id

/-- Whether a row is below a Series row with the TMDb id, directly or in a Season. -/
def inSeries (rows : List EmbyLibraryItem) (item : EmbyLibraryItem) (seriesID : Int) : Bool :=
  rows.any fun series => series.present && series.itemType = .series &&
    providesID lower series.providerIDs seriesID &&
    (item.parentEmbyID = some series.embyID || rows.any fun season =>
      season.present && season.itemType = .season && some season.embyID = item.parentEmbyID &&
        season.parentEmbyID = some series.embyID)

/-- The column `catalog_present` of `GetRSSMappedTargetOccupancy`. -/
def catalogPresent (rows : List EmbyLibraryItem) (target : RSSRealtimeTarget) : Bool :=
  rows.any fun item => item.present && item.itemType = .episode && item.filePath.isSome &&
    (target.tmdbEpisodeID.any (providesID lower item.providerIDs) ||
      item.seasonNumber = some target.target.season &&
        item.episodeNumber = some target.target.episode &&
        inSeries lower rows item target.tmdbSeriesID)

/-- The items are a series of TMDb with its seasons and episodes, and the columns hold their
numbers. -/
structure SeriesItems (seriesID : Int) : Prop where
  named : ∀ item ∈ items, item.embyID ≠ ""
  path : ∀ item ∈ items, item.itemType = .episode → trimSpace item.path ≠ ""
  numbers : ∀ item ∈ items, (upsertEmbyLibraryItem item).seasonNumber = item.seasonNumber ∧
    (upsertEmbyLibraryItem item).episodeNumber = item.episodeNumber
  parents : ∃ series ∈ items, series.itemType = .series ∧
    providesID lower series.providerIDs seriesID = true ∧
    ∀ item ∈ items, item.itemType = .episode → item.parentEmbyID = series.embyID ∨
      ∃ season ∈ items, season.itemType = .season ∧ season.embyID = item.parentEmbyID ∧
        season.parentEmbyID = series.embyID

/-- The provider values have no space around them, and the two tests agree on the keys. -/
structure PlainProviders : Prop where
  trimmed : ∀ item ∈ items, ∀ provider ∈ item.providerIDs, trimSpace provider.2 = provider.2
  folds : ∀ item ∈ items, ∀ provider ∈ item.providerIDs,
    isTMDbProvider foldRune provider.1 = true ↔ lower provider.1 ∈ ["tmdb", "themoviedb"]

section Agreement

variable {foldRune lower items} {target : RSSRealtimeTarget} {seriesID : Int}

theorem coordinate?_eq_some {item : EmbyLibraryItemCatalog} :
    item.coordinate? = some target.target ↔ item.seasonNumber = some target.target.season ∧
      item.episodeNumber = some target.target.episode := by
  obtain ⟨⟨season, episode, fraction⟩, id, seriesID, hwhole⟩ := target
  change fraction = 0 at hwhole
  cases hs : item.seasonNumber <;> cases he : item.episodeNumber <;>
    simp [EmbyLibraryItemCatalog.coordinate?, hs, he, hwhole]

theorem mem_episodes (h : SeriesItems lower items seriesID) {item} :
    item ∈ episodes items ↔ item ∈ items ∧ item.itemType = .episode := by
  simp only [episodes, List.mem_filter, Bool.and_eq_true, decide_eq_true_eq, bne_iff_ne]
  exact ⟨fun ⟨hi, ht, _⟩ => ⟨hi, ht⟩, fun ⟨hi, ht⟩ => ⟨hi, ht, h.path item hi ht⟩⟩

theorem toString_ne_empty (id : Int) : toString id ≠ "" := by
  cases id <;> simp [Int.repr]

theorem inSeries_upsert (h : SeriesItems lower items seriesID) {item : EmbyLibraryItemCatalog}
    (hitem : item ∈ items) (htype : item.itemType = .episode) :
    inSeries lower (items.map upsertEmbyLibraryItem) (upsertEmbyLibraryItem item) seriesID =
      true := by
  obtain ⟨series, hseries, hkind, hid, hparent⟩ := h.parents
  have hstored {child parent : EmbyLibraryItemCatalog} (hmem : parent ∈ items)
      (hchild : child.parentEmbyID = parent.embyID) :
      (upsertEmbyLibraryItem child).parentEmbyID = some parent.embyID := by
    simp [upsertEmbyLibraryItem, optionalString, hchild, h.named parent hmem]
  simp only [inSeries, List.any_map, List.any_eq_true, Function.comp, Bool.and_eq_true,
    Bool.or_eq_true, decide_eq_true_eq]
  refine ⟨series, hseries, ⟨⟨rfl, hkind⟩, hid⟩, ?_⟩
  rcases hparent item hitem htype with hdirect | ⟨season, hseason, hkind, hin, habove⟩
  · exact .inl (hstored hseries hdirect)
  · exact .inr ⟨season, hseason, ⟨⟨rfl, hkind⟩, (hstored hseason hin.symm).symm⟩,
      hstored hseries habove⟩

theorem catalogPresent_iff (h : SeriesItems lower items target.tmdbSeriesID) :
    catalogPresent lower (items.map upsertEmbyLibraryItem) target = true ↔
      ∃ item ∈ episodes items,
        (∃ id ∈ target.tmdbEpisodeID, providesID lower item.providerIDs id = true) ∨
          item.coordinate? = some target.target := by
  simp only [catalogPresent, List.any_map, List.any_eq_true, Function.comp]
  refine exists_congr fun item => ?_
  rw [mem_episodes h, and_assoc]
  refine and_congr_right fun hitem => ?_
  obtain ⟨hseason, hepisode⟩ := h.numbers item hitem
  simp only [Bool.and_eq_true, Bool.or_eq_true, decide_eq_true_eq, Option.any_eq_true, and_assoc,
    coordinate?_eq_some, hseason, hepisode]
  constructor
  · rintro ⟨-, htype, -, hfound⟩
    exact ⟨htype, hfound.imp id fun ⟨hs, he, _⟩ => ⟨hs, he⟩⟩
  · rintro ⟨htype, hfound⟩
    refine ⟨rfl, htype, ?_, hfound.imp id fun ⟨hs, he⟩ => ⟨hs, he, inSeries_upsert h hitem htype⟩⟩
    have hpath : item.path ≠ "" := by
      intro hpath
      exact h.path item hitem htype (by rw [hpath]; decide)
    simp [upsertEmbyLibraryItem, optionalString, hpath]

theorem mem_providerIDs (h : PlainProviders foldRune lower items) {id : Int} :
    toString id ∈ providerIDs foldRune items ↔
      ∃ item ∈ episodes items, providesID lower item.providerIDs id = true := by
  simp only [providerIDs, List.mem_flatMap]
  refine exists_congr fun item => and_congr_right fun hitem => ?_
  obtain ⟨hitem, -⟩ := List.mem_filter.mp hitem
  simp only [List.mem_filter, List.mem_map, providesID]
  have := h.trimmed item hitem
  have := h.folds item hitem
  have := toString_ne_empty id
  grind

theorem present_matchRealtimeTarget :
    (matchRealtimeTarget foldRune items target).present = true ↔
      (∃ id ∈ target.tmdbEpisodeID, toString id ∈ providerIDs foldRune items) ∨
        ∃ item ∈ episodes items, item.coordinate? = some target.target ∧
          (target.tmdbEpisodeID.isSome = true →
            hasTMDbProviderID foldRune item.providerIDs = false) := by
  cases hid : target.tmdbEpisodeID with
  | none => simp [matchRealtimeTarget, hid, coordinates, apply_ite]
  | some id =>
    have hwithout : target.target ∈ coordinatesWithoutProvider foldRune items ↔
        ∃ item ∈ episodes items, item.coordinate? = some target.target ∧
          hasTMDbProviderID foldRune item.providerIDs = false := by
      simp only [coordinatesWithoutProvider, coordinates, episodes]
      grind
    simp only [matchRealtimeTarget, hid]
    split_ifs <;> simp_all

end Agreement

/-- The catalog holds the targets that the real-time check finds and, of the targets with a TMDb
id, those at whose coordinate an episode of the series has a TMDb id of its own. -/
theorem catalogPresent_iff_matched (targets : List RSSRealtimeTarget)
    (hproviders : PlainProviders foldRune lower items)
    (hseries : ∀ target ∈ targets, SeriesItems lower items target.tmdbSeriesID) :
    List.Forall₂ (fun target found =>
      catalogPresent lower (items.map upsertEmbyLibraryItem) target = true ↔
        found.present = true ∨ target.tmdbEpisodeID.isSome = true ∧
          ∃ item ∈ episodes items, item.coordinate? = some target.target ∧
            hasTMDbProviderID foldRune item.providerIDs = true)
      targets (matchRealtimeTargets foldRune items targets) := by
  rw [matchRealtimeTargets, List.forall₂_map_right_iff, List.forall₂_same]
  intro target htarget
  rw [catalogPresent_iff (hseries target htarget), present_matchRealtimeTarget]
  simp only [mem_providerIDs hproviders]
  grind

/-- One episode of the series 500, with the TMDb id 999, below a season. -/
def otherEpisode : List EmbyLibraryItemCatalog :=
  [{ embyID := "series", itemType := .series, providerIDs := [("Tmdb", "500")] },
    { embyID := "season", parentEmbyID := "series", itemType := .season },
    { embyID := "episode", parentEmbyID := "season", itemType := .episode, path := "/tv/1.mkv",
      providerIDs := [("Tmdb", "999")], seasonNumber := some 1, episodeNumber := some 1 }]

def pilot : RSSRealtimeTarget := ⟨{ season := 1, episode := 1 }, some 123, 500, rfl⟩

theorem otherEpisode_series : SeriesItems asciiUnicode.lower otherEpisode 500 where
  named := by decide
  path := by decide +kernel
  numbers := by decide
  parents := ⟨_, List.mem_cons_self, rfl, by decide +kernel, by decide +kernel⟩

/-- An episode with another TMDb id at the coordinate of a target is in the catalog, and the
real-time check does not find it. -/
theorem catalogPresent_of_other_id :
    SeriesItems asciiUnicode.lower otherEpisode pilot.tmdbSeriesID ∧
      (matchRealtimeTargets Char.toLower otherEpisode [pilot]).map (·.present) = [false] ∧
      catalogPresent asciiUnicode.lower (otherEpisode.map upsertEmbyLibraryItem) pilot = true :=
  ⟨otherEpisode_series, by decide +kernel, by decide +kernel⟩

theorem catalogPresent_iff_matched_pilot :
    catalogPresent asciiUnicode.lower (otherEpisode.map upsertEmbyLibraryItem) pilot = true := by
  have h := catalogPresent_iff_matched Char.toLower asciiUnicode.lower otherEpisode [pilot]
    ⟨by decide +kernel, by decide +kernel⟩
    (List.forall_mem_singleton.mpr otherEpisode_series)
  exact (List.forall₂_cons.mp h).1.mpr (.inr ⟨rfl, by decide +kernel⟩)

end EmbyAuto.RealtimeEmby
