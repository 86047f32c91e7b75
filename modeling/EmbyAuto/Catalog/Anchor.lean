import EmbyAuto.Acquisition.Enqueue
import EmbyAuto.Catalog.Expansion

/-!
# Anchor profiles of RSS subscriptions

An anchor profile maps every episode of one source season. Its rows are written when it is
created, and each poll calls `extendRSSAnchorMapping`, which expands the anchor over the catalog
of the moment and inserts the rows whose source coordinates the profile does not have.

A row that is there is never compared with the expansion. So the profile follows a catalog that
grows at its end, and it departs from one in which episodes change their absolute numbers.

## Main definitions

* `extendRSSAnchorMapping`: the extension of a profile
* `KeepsNumbers`: an update of the catalog that leaves every absolute number where it is

## Main results

* `extension_exact_iff`: when a profile is exact after an extension
* `anchor_profile_exact`: it always is while the catalog keeps its numbers
* `season_grows_in_the_middle`: it is not when a season grows before another one
-/

namespace EmbyAuto

open Relational Resources

namespace Resources

def episodeMappingsSlot : Slot Resources episodeMappingSchema where
  table := episodeMappings
  put r t := { r with episodeMappings := t }
  put_table := Eq.refl

end Resources

/-! ## The extension of a profile -/

/-- The row of `LockRSSAnchorMappingProfile`. -/
structure AnchorProfile where
  id : UUID
  seriesID : UUID
  source : EpisodeCoordinate
  target : EpisodeCoordinate
  deriving DecidableEq

def lockRSSAnchorMappingProfile (subscriptionID : UUID) (r : Resources) : Option AnchorProfile := do
  let subscription ← lookup RSSSubscription.id subscriptionID r.rssSubscriptions.rows
  let profileID ← subscription.mappingProfileID
  let profile ← lookup EpisodeMappingProfile.id profileID r.episodeMappingProfiles.rows
  let targetID ← profile.anchorTargetEpisodeID
  let episode ← lookup MediaEpisode.id targetID r.mediaEpisodes.rows
  let season ← lookup TMDbSeasonRow.id episode.seasonID r.tmdbSeasons.rows
  let sourceSeason ← profile.anchorSourceSeason
  return {
    id := profile.id
    seriesID := profile.seriesID
    source := { season := sourceSeason, episode := profile.anchorSourceEpisode.getD 0 }
    target := { season := season.seasonNumber, episode := episode.episodeNumber } }

def expandAnchor (r : Resources) (profile : AnchorProfile) :
    Except Fault (List EpisodeMappingRow) := do
  let catalog ← loadSeriesMappingCatalog r profile.seriesID
  mappingProfileRowsFromAnchor catalog profile.source profile.target

def EpisodeMapping.coordinate (m : EpisodeMapping) : EpisodeCoordinate :=
  ⟨m.sourceSeason, m.sourceEpisode, m.sourceEpisodeFractionHundredths⟩

def mappingsOf (r : Resources) (profileID : UUID) : List EpisodeMapping :=
  r.episodeMappings.rows.filter fun m => m.profileID = profileID

def listRSSMappingProfileCoordinates (r : Resources) (profileID : UUID) : List EpisodeCoordinate :=
  (mappingsOf r profileID).map (·.coordinate)

/-- The numbers come from columns of type `integer`, or are bounded by the expansion, so Go's
conversions to `int32` leave them as they are. -/
def EpisodeMappingRow.mapping (row : EpisodeMappingRow) (id profileID : UUID) : EpisodeMapping where
  id
  profileID
  sourceSeason := row.sourceSeason
  sourceEpisode := row.sourceEpisode
  sourceEpisodeFractionHundredths := row.sourceEpisodeFractionHundredths
  targetEpisodeID := row.targetEpisodeID
  status := row.status
  errorCode := optionalString row.errorCode
  absoluteEpisode := some row.absoluteEpisode
  matchSource := row.matchSource

section Extend

variable (newID : Nat → UUID) (profileID : UUID)

/-- The loop over the expansion, with the coordinates that the profile has and the number of rows
added so far. -/
def appendMissing (existing : List EpisodeCoordinate) (added : Nat) :
    List EpisodeMappingRow → ResourcesTx Nat
  | [] => return added
  | row :: rows => do
    if row.coordinate ∈ existing then appendMissing existing added rows
    else
      context "append RSS anchor episode mapping"
        (episodeMappingsSlot.insert (row.mapping (newID added) profileID))
      appendMissing (row.coordinate :: existing) (added + 1) rows

end Extend

def extendRSSAnchorMapping (newID : Nat → UUID) (subscriptionID : UUID) :
    ResourcesTx Nat := do
  match lockRSSAnchorMappingProfile subscriptionID (← get) with
  | none => return 0
  | some profile =>
    if profile.source.season ≤ 0 ∨ profile.source.episode ≤ 0 ∨
        profile.target.season ≤ 0 ∨ profile.target.episode ≤ 0 then
      throw (.service "rss_mapping_profile_invalid" "the RSS anchor mapping profile is incomplete")
    else
      let _ ← context "lock RSS anchor mapping series"
        (requireRow (mediaSeriesSlot.selectOne fun s => s.id = profile.seriesID))
      match expandAnchor (← get) profile with
      | .error fault => throw fault
      | .ok rows =>
        appendMissing newID profile.id (listRSSMappingProfileCoordinates (← get) profile.id) 0 rows

/-! ## What a profile maps -/

/-- What a mapped row says, in the table or in an expansion. -/
structure MappedEpisode where
  source : EpisodeCoordinate
  absolute : Option Int
  target : Option UUID
  matchSource : MappingMatchSource
  deriving DecidableEq

def EpisodeMapping.content (m : EpisodeMapping) : MappedEpisode :=
  ⟨m.coordinate, m.absoluteEpisode, m.targetEpisodeID, m.matchSource⟩

def EpisodeMappingRow.content (row : EpisodeMappingRow) : MappedEpisode :=
  ⟨row.coordinate, some row.absoluteEpisode, row.targetEpisodeID, row.matchSource⟩

def mappedOf (r : Resources) (profileID : UUID) : List EpisodeMapping :=
  (mappingsOf r profileID).filter fun m => m.status = .mapped

/-- The mapped rows of a profile are those of an expansion. -/
def Exact (r : Resources) (profileID : UUID) (rows : List EpisodeMappingRow) : Prop :=
  ∀ c, c ∈ (mappedOf r profileID).map (·.content) ↔ c ∈ rows.map (·.content)

def DistinctTargets (r : Resources) (profileID : UUID) : Prop :=
  ∀ m ∈ mappedOf r profileID, ∀ m' ∈ mappedOf r profileID,
    m.targetEpisodeID = m'.targetEpisodeID → m = m'

/-- The row that an anchor gives to an absolute number. -/
def anchoredEpisode (season offset absolute : Int) (id : UUID) : MappedEpisode :=
  ⟨{ season, episode := absolute - offset }, some absolute, some id, .anchor⟩

/-- The rows of an anchor: one for each absolute number whose source episode has a number. -/
def Anchored (catalog : MappingCatalog) (season offset : Int) (c : MappedEpisode) : Prop :=
  ∃ absolute id, 0 < absolute - offset ∧ absolute - offset ≤ maxInt32 ∧
    catalog.episodeAt absolute = some id ∧ c = anchoredEpisode season offset absolute id

variable {profile : AnchorProfile} {rows : List EpisodeMappingRow}

section Expansion

variable {catalog : MappingCatalog} {source target : EpisodeCoordinate}

/-- A row of an expansion is the anchor's row of its absolute number. -/
theorem Expansion.content_eq {anchorAbsolute e : Int}
    (h : Expansion catalog source target anchorAbsolute rows)
    (hsource : source.episode ≤ maxInt32) (he : anchorRow catalog source target e ∈ rows) :
    ∃ id, catalog.episodeAt (anchorAbsolute + e - source.episode) = some id ∧
      (anchorRow catalog source target e).content =
        anchoredEpisode source.season (anchorAbsolute - source.episode)
          (anchorAbsolute + e - source.episode) id := by
  obtain ⟨hstatus, hpresent⟩ := h.mapped _ he
  obtain ⟨habsolute, htarget, hid⟩ := h.row_target hsource he
  obtain ⟨id, hsome⟩ := Option.ne_none_iff_exists'.mp hpresent
  obtain ⟨-, -, -, -, hmatch⟩ := resolveEpisodeMapping_mapped rfl hstatus
  have hepisode : anchorAbsolute + e - source.episode - (anchorAbsolute - source.episode) = e := by
    omega
  refine ⟨id, ?_, ?_⟩
  · rw [MappingCatalog.episodeAt, htarget, Option.bind_some, ← hid, hsome]
  · rw [EpisodeMappingRow.content, habsolute, hsome, anchoredEpisode, hepisode]
    exact congrArg _ hmatch

/-- The expansion of an anchor has the anchor's rows and no others. -/
theorem Expansion.mem_content_iff {anchorAbsolute : Int}
    (hrows : Expansion catalog source target anchorAbsolute rows)
    (hsource : source.episode ≤ maxInt32) (c : MappedEpisode) :
    c ∈ rows.map (·.content) ↔
      Anchored catalog source.season (anchorAbsolute - source.episode) c := by
  rw [List.mem_map]
  constructor
  · rintro ⟨row, hrow, rfl⟩
    obtain ⟨e, hlow, hhigh, -, -, rfl⟩ := (hrows.mem_rows hsource).mp hrow
    obtain ⟨id, hid, hcontent⟩ := hrows.content_eq hsource hrow
    exact ⟨_, id, by omega, by omega, hid, hcontent⟩
  · rintro ⟨absolute, id, hlow, hhigh, hid, rfl⟩
    -- A number that has an episode is among the numbers of the loop.
    obtain ⟨episode, hepisode, -⟩ := Option.bind_eq_some_iff.mp hid
    obtain ⟨hfirst, hlast⟩ :=
      (targetForAbsoluteEpisode_some_iff hrows.columns).mp ⟨episode, hepisode⟩
    have hnumber : anchorAbsolute + (absolute - (anchorAbsolute - source.episode)) -
        source.episode = absolute := by omega
    have hrow := (hrows.mem_rows hsource).mpr ⟨absolute - (anchorAbsolute - source.episode),
      by omega, hhigh, by omega, by omega, rfl⟩
    obtain ⟨id', hid', hcontent⟩ := hrows.content_eq hsource hrow
    rw [hnumber] at hid' hcontent
    rw [hid] at hid'
    obtain rfl := Option.some.inj hid'
    exact ⟨_, hrow, hcontent⟩

end Expansion

/-! ## One extension -/

/-- The anchor profile that a call finds. -/
def anchorProfile (p : EpisodeMappingProfile) (season : Int) (target : EpisodeCoordinate) :
    AnchorProfile where
  id := p.id
  seriesID := p.seriesID
  source := { season, episode := p.anchorSourceEpisode.getD 0 }
  target

section Extension

variable {newID : Nat → UUID} {subscriptionID profileID : UUID} {r r' : Resources}
  {rows : List EpisodeMappingRow} {n : Nat}

/-- The loop appends the rows whose coordinates are missing. -/
theorem appendMissing_ok {existing} {added : Nat}
    (hmapped : ∀ row ∈ rows, row.status = .mapped)
    (hcontent : ∀ row ∈ rows, ∀ row' ∈ rows, row.coordinate = row'.coordinate →
      row.content = row'.content)
    (h : appendMissing newID profileID existing added rows r = .ok (n, r')) :
    ∃ new table, r' = { r with episodeMappings := table } ∧
      table.rows = r.episodeMappings.rows ++ new ∧
      (∀ m ∈ new, m.profileID = profileID ∧ m.status = .mapped) ∧
      ∀ c, c ∈ new.map (·.content) ↔
        ∃ row ∈ rows, row.coordinate ∉ existing ∧ c = row.content := by
  induction rows generalizing existing added r with
  | nil =>
    obtain ⟨-, rfl⟩ : n = added ∧ r' = r := by
      simpa [appendMissing, eq_comm] using h
    exact ⟨[], r'.episodeMappings, rfl, (List.append_nil _).symm, nofun, by simp⟩
  | cons row rows ih =>
    obtain ⟨hrowMapped, hmapped'⟩ := List.forall_mem_cons.mp hmapped
    have hcontent' := fun row hrow row' hrow' =>
      hcontent row (List.mem_cons_of_mem _ hrow) row' (List.mem_cons_of_mem _ hrow')
    rw [appendMissing] at h
    split_ifs at h with hexisting
    · obtain ⟨new, table, hr', hrows, hnew, hmem⟩ := ih hmapped' hcontent' h
      refine ⟨new, table, hr', hrows, hnew, fun c => ?_⟩
      rw [hmem, List.exists_mem_cons_iff]
      exact ⟨.inr, fun hc => hc.resolve_left fun hrow => hrow.1 hexisting⟩
    · obtain ⟨_, r₁, hinsert, h⟩ := Tx.bind_ok.mp h
      obtain ⟨hvalid, rfl⟩ := Slot.insert_ok.mp (Tx.mapError_ok.mp hinsert)
      obtain ⟨new, table, hr', hrows, hnew, hmem⟩ := ih hmapped' hcontent' h
      refine ⟨row.mapping (newID added) profileID :: new, table, hr', ?_,
        List.forall_mem_cons.mpr ⟨⟨rfl, hrowMapped⟩, hnew⟩, fun c => ?_⟩
      · rw [hrows]
        exact (List.append_cons _ _ _).symm
      · rw [List.map_cons, List.mem_cons, hmem, List.exists_mem_cons_iff]
        constructor
        · rintro (hc | ⟨row', hrow', hfresh, hc⟩)
          · exact .inl ⟨hexisting, hc⟩
          · exact .inr ⟨row', hrow', fun hin => hfresh (List.mem_cons_of_mem _ hin), hc⟩
        · rintro (⟨-, hc⟩ | ⟨row', hrow', hfresh, hc⟩)
          · exact .inl hc
          -- A later row with the coordinate of this one says the same.
          · by_cases hsame : row'.coordinate = row.coordinate
            · left
              rw [hc, hcontent row' (List.mem_cons_of_mem _ hrow') row List.mem_cons_self hsame]
              rfl
            · exact .inr ⟨row', hrow', List.not_mem_cons_of_ne_of_not_mem hsame hfresh, hc⟩

/-- The number of a profile's source is that of a column. -/
theorem anchorSourceEpisode_le {p : EpisodeMappingProfile}
    (hp : p ∈ r.episodeMappingProfiles.rows) : p.anchorSourceEpisode.getD 0 ≤ maxInt32 := by
  have hcheck := r.episodeMappingProfiles.valid.1 ("integer out of range", _)
    (List.mem_cons_of_mem _ (List.mem_cons_of_mem _ (List.mem_cons_of_mem _
      (List.mem_cons_of_mem _ List.mem_cons_self)))) p hp
  cases hepisode : p.anchorSourceEpisode with
  | none => decide
  | some episode =>
    simp only [hepisode, Option.all_some, decide_eq_true_eq] at hcheck
    exact Int.le_sub_one_of_lt hcheck

theorem expandAnchor_ok (hsource : profile.source.episode ≤ maxInt32)
    (h : expandAnchor r profile = .ok rows) : ∃ anchorAbsolute,
      absoluteEpisodeForTarget profile.target (seriesCatalog r profile.seriesID).seasons =
        some anchorAbsolute ∧
      (∀ row ∈ rows, row.status = .mapped) ∧
      ∀ c, c ∈ rows.map (·.content) ↔ Anchored (seriesCatalog r profile.seriesID)
        profile.source.season (anchorAbsolute - profile.source.episode) c := by
  unfold expandAnchor loadSeriesMappingCatalog at h
  split_ifs at h
  · cases h
  · obtain ⟨anchorAbsolute, hrows⟩ :=
      mappingProfileRowsFromAnchor_expansion seriesCatalog_columns h
    exact ⟨_, hrows.anchor, fun row hrow => (hrows.mapped row hrow).1,
      hrows.mem_content_iff hsource⟩

/-- The rows of an expansion say the same where they have the same coordinate. -/
theorem expandAnchor_content (hsource : profile.source.episode ≤ maxInt32)
    (h : expandAnchor r profile = .ok rows) :
    ∀ row ∈ rows, ∀ row' ∈ rows, row.coordinate = row'.coordinate → row.content = row'.content := by
  obtain ⟨anchorAbsolute, -, -, hcontent⟩ := expandAnchor_ok hsource h
  intro row hrow row' hrow' (hsame : row.content.source = row'.content.source)
  obtain ⟨absolute, id, -, -, hid, hrow⟩ := (hcontent _).mp (List.mem_map_of_mem hrow)
  obtain ⟨absolute', id', -, -, hid', hrow'⟩ := (hcontent _).mp (List.mem_map_of_mem hrow')
  rw [hrow, hrow'] at hsame ⊢
  obtain rfl : absolute = absolute' := by
    simpa [anchoredEpisode] using congrArg EpisodeCoordinate.episode hsame
  rw [Option.some.inj (hid.symm.trans hid')]

theorem mem_mappingsOf {m} :
    m ∈ mappingsOf r profileID ↔ m ∈ r.episodeMappings.rows ∧ m.profileID = profileID := by
  simp [mappingsOf]

/-- The columns behind the profile that a call finds. -/
theorem lockRSSAnchorMappingProfile_some
    (h : lockRSSAnchorMappingProfile subscriptionID r = some profile) :
    ∃ s p targetID sourceSeason,
      lookup RSSSubscription.id subscriptionID r.rssSubscriptions.rows = some s ∧
      s.mappingProfileID = some p.id ∧
      lookup EpisodeMappingProfile.id p.id r.episodeMappingProfiles.rows = some p ∧
      p.anchorTargetEpisodeID = some targetID ∧ p.anchorSourceSeason = some sourceSeason ∧
      profile = anchorProfile p sourceSeason profile.target := by
  simp only [lockRSSAnchorMappingProfile, Option.bind_eq_bind, Option.bind_eq_some_iff,
    Option.pure_def, Option.some.injEq] at h
  obtain ⟨s, hsubscription, profileID, hprofileID, p, hp, targetID, htargetID, _, -, _, -,
    sourceSeason, hsource, rfl⟩ := h
  obtain rfl : p.id = profileID := key_of_lookup hp
  exact ⟨s, p, targetID, sourceSeason, hsubscription, hprofileID, hp, htargetID, hsource, rfl⟩

theorem lockRSSAnchorMappingProfile_source
    (h : lockRSSAnchorMappingProfile subscriptionID r = some profile) :
    profile.source.episode ≤ maxInt32 := by
  obtain ⟨_, p, _, _, -, -, hp, -, -, heq⟩ := lockRSSAnchorMappingProfile_some h
  rw [heq]
  exact anchorSourceEpisode_le (List.mem_of_find?_eq_some hp)

/-- What a successful call on an anchor profile does. -/
theorem extendRSSAnchorMapping_ok
    (hfound : lockRSSAnchorMappingProfile subscriptionID r = some profile)
    (h : extendRSSAnchorMapping newID subscriptionID r = .ok (n, r')) :
    ∃ rows, ∃ new : List EpisodeMapping, ∃ table, expandAnchor r profile = .ok rows ∧
      r' = { r with episodeMappings := table } ∧
      (∀ m, m ∈ mappingsOf r' profile.id ↔ m ∈ mappingsOf r profile.id ∨ m ∈ new) ∧
      (∀ m ∈ new, m.status = .mapped) ∧
      ∀ c, c ∈ new.map (·.content) ↔ ∃ row ∈ rows,
        row.coordinate ∉ listRSSMappingProfileCoordinates r profile.id ∧ c = row.content := by
  obtain ⟨_, _, hget, h⟩ := Tx.bind_ok.mp h
  obtain ⟨rfl, rfl⟩ := Prod.mk.inj (Except.ok.inj hget)
  simp only [hfound] at h
  split_ifs at h
  · cases h
  · obtain ⟨_, r₁, hseries, hrest⟩ := Tx.bind_ok.mp h
    obtain ⟨series, r₂, hselect, hrow⟩ := Tx.bind_ok.mp (Tx.mapError_ok.mp hseries)
    obtain ⟨-, rfl⟩ := Prod.mk.inj (Slot.selectOne_ok.mp hselect)
    cases series with
    | none => cases hrow
    | some series =>
      obtain ⟨-, rfl⟩ := Prod.mk.inj (Except.ok.inj hrow)
      obtain ⟨_, _, hget, hrest⟩ := Tx.bind_ok.mp hrest
      obtain ⟨rfl, rfl⟩ := Prod.mk.inj (Except.ok.inj hget)
      cases hexpand : expandAnchor r₂ profile <;> simp only [hexpand] at hrest
      · cases hrest
      obtain ⟨_, _, hget, hloop⟩ := Tx.bind_ok.mp hrest
      obtain ⟨rfl, rfl⟩ := Prod.mk.inj (Except.ok.inj hget)
      have hsource := lockRSSAnchorMappingProfile_source hfound
      obtain ⟨-, -, hmapped, -⟩ := expandAnchor_ok hsource hexpand
      obtain ⟨new, table, rfl, htable, hnew, hcontent⟩ :=
        appendMissing_ok hmapped (expandAnchor_content hsource hexpand) hloop
      refine ⟨_, new, table, rfl, rfl, fun m => ?_, fun m hm => (hnew m hm).2, hcontent⟩
      simp only [mem_mappingsOf, htable, List.mem_append, or_and_right]
      exact or_congr_right (and_iff_left_of_imp fun hm => (hnew m hm).1)

/-- No row of a profile disagrees with an expansion: a mapped one is in it, and another one does
not stand at a coordinate of it. -/
def Agrees (r : Resources) (profileID : UUID) (rows : List EpisodeMappingRow) : Prop :=
  ∀ m ∈ mappingsOf r profileID,
    (m.status = .mapped → m.content ∈ rows.map (·.content)) ∧
    (m.status ≠ .mapped → m.coordinate ∉ rows.map (·.coordinate))

theorem mem_mappedOf {m} :
    m ∈ mappedOf r profileID ↔ m ∈ mappingsOf r profileID ∧ m.status = .mapped := by
  simp [mappedOf]

/-- A profile has one row for each coordinate. -/
theorem mapping_eq_of_coordinate {m m'} (hm : m ∈ mappingsOf r profileID)
    (hm' : m' ∈ mappingsOf r profileID) (hsame : m.coordinate = m'.coordinate) : m = m' := by
  obtain ⟨hrow, hprofile⟩ := mem_mappingsOf.mp hm
  obtain ⟨hrow', hprofile'⟩ := mem_mappingsOf.mp hm'
  refine r.episodeMappings.eq_of_conflict (u := ("episode_mappings_source_coordinate_unique", _))
    (List.mem_cons_of_mem _ List.mem_cons_self) (fun a b => decide_eq_decide.mpr eq_comm) hrow hrow'
    (decide_eq_true ?_)
  simp only [EpisodeMapping.coordinate, EpisodeCoordinate.mk.injEq] at hsame
  rw [hprofile, hprofile', hsame.1, hsame.2.1, hsame.2.2]

/-- **A profile is exact after a call exactly if none of its rows disagreed before it.** -/
theorem extension_exact_iff (hfound : lockRSSAnchorMappingProfile subscriptionID r = some profile)
    (hexpand : expandAnchor r profile = .ok rows)
    (h : extendRSSAnchorMapping newID subscriptionID r = .ok (n, r')) :
    Exact r' profile.id rows ↔ Agrees r profile.id rows := by
  obtain ⟨rows', new, table, hrows, -, hmem, hnew, hcontent⟩ := extendRSSAnchorMapping_ok hfound h
  rw [hexpand] at hrows
  obtain rfl := Except.ok.inj hrows
  have hold := fun m hm => (hmem m).mpr (.inl hm)
  constructor
  · intro hexact m hm
    refine ⟨fun hstatus => ?_, fun hstatus hin => ?_⟩
    · exact (hexact _).mp (List.mem_map_of_mem (mem_mappedOf.mpr ⟨hold m hm, hstatus⟩))
    · -- The mapped row that the expansion wants at this coordinate would be a second one.
      obtain ⟨row, hrow, hcoordinate⟩ := List.mem_map.mp hin
      obtain ⟨m', hm', hcontent'⟩ := List.mem_map.mp ((hexact _).mpr (List.mem_map_of_mem hrow))
      obtain ⟨hin', hstatus'⟩ := mem_mappedOf.mp hm'
      have hsame : m'.coordinate = m.coordinate :=
        (congrArg MappedEpisode.source hcontent').trans hcoordinate
      rw [mapping_eq_of_coordinate hin' (hold m hm) hsame] at hstatus'
      exact hstatus hstatus'
  · intro hagrees c
    constructor
    · intro hc
      obtain ⟨m, hm, rfl⟩ := List.mem_map.mp hc
      obtain ⟨hin, hstatus⟩ := mem_mappedOf.mp hm
      rcases (hmem m).mp hin with hrow | hrow
      · exact (hagrees m hrow).1 hstatus
      · obtain ⟨row, hrow, -, hcontent'⟩ := (hcontent _).mp (List.mem_map_of_mem hrow)
        rw [hcontent']
        exact List.mem_map_of_mem hrow
    · intro hc
      obtain ⟨row, hrow, rfl⟩ := List.mem_map.mp hc
      -- a wanted row is an old one with its coordinate, or it is added
      by_cases hexisting : row.coordinate ∈ listRSSMappingProfileCoordinates r profile.id
      · obtain ⟨m, hm, hcoordinate⟩ := List.mem_map.mp hexisting
        have hstatus : m.status = .mapped := by
          by_contra hstatus
          refine (hagrees m hm).2 hstatus ?_
          rw [hcoordinate]
          exact List.mem_map_of_mem hrow
        obtain ⟨row', hrow', hcontent'⟩ := List.mem_map.mp ((hagrees m hm).1 hstatus)
        have hsame : row'.coordinate = row.coordinate :=
          (congrArg MappedEpisode.source hcontent').trans hcoordinate
        rw [← expandAnchor_content (lockRSSAnchorMappingProfile_source hfound) hexpand row' hrow'
          row hrow hsame, hcontent']
        exact List.mem_map_of_mem (mem_mappedOf.mpr ⟨hold m hm, hstatus⟩)
      · obtain ⟨m, hm, hcontent'⟩ := List.mem_map.mp ((hcontent _).mpr ⟨row, hrow, hexisting, rfl⟩)
        rw [← hcontent']
        exact List.mem_map_of_mem (mem_mappedOf.mpr ⟨(hmem m).mpr (.inr hm), hnew m hm⟩)

end Extension

/-! ## Absolute numbers in the tables -/

section Numbers

variable {r : Resources} {seriesID : UUID}

/-- An episode with an absolute number, and its season. -/
theorem episodeAt_some {absolute : Int} {id : UUID}
    (h : (seriesCatalog r seriesID).episodeAt absolute = some id) :
    ∃ season ∈ r.tmdbSeasons.rows, ∃ episode ∈ r.mediaEpisodes.rows,
      episode.seasonID = season.id ∧ episode.id = id ∧
      targetForAbsoluteEpisode absolute (seriesCatalog r seriesID).seasons =
        some { season := season.seasonNumber, episode := episode.episodeNumber } := by
  obtain ⟨target, htarget, hid⟩ := Option.bind_eq_some_iff.mp h
  simp only [seriesCatalog, catalogTargetID] at hid
  split_ifs at hid with hfraction
  obtain ⟨season, hseason, hid⟩ := Option.bind_eq_some_iff.mp hid
  obtain ⟨episode, hepisode, hid⟩ := Option.bind_eq_some_iff.mp hid
  have hnumber : season.seasonNumber = target.season := by simpa using List.find?_some hseason
  have hkey : episode.seasonID = season.id ∧ episode.episodeNumber = target.episode := by
    simpa using List.find?_some hepisode
  refine ⟨season, List.mem_of_mem_filter (List.mem_of_find?_eq_some hseason), episode,
    List.mem_of_find?_eq_some hepisode, hkey.1, Option.some.inj hid, ?_⟩
  rw [htarget, hnumber, hkey.2, ← hfraction]

/-- No episode has two absolute numbers. -/
theorem episodeAt_inj {absolute absolute' : Int} {id : UUID}
    (h : (seriesCatalog r seriesID).episodeAt absolute = some id)
    (h' : (seriesCatalog r seriesID).episodeAt absolute' = some id) : absolute = absolute' := by
  obtain ⟨season, hseason, episode, hepisode, hof, hid, htarget⟩ := episodeAt_some h
  obtain ⟨season', hseason', episode', hepisode', hof', hid', htarget'⟩ := episodeAt_some h'
  obtain rfl : episode = episode' :=
    r.mediaEpisodes.eq_of_conflict (u := ("media_episodes_pkey", _)) List.mem_cons_self
      (fun a b => decide_eq_decide.mpr eq_comm) hepisode hepisode'
      (decide_eq_true (hid.trans hid'.symm))
  obtain rfl : season = season' :=
    r.tmdbSeasons.eq_of_conflict (u := ("tmdb_seasons_pkey", _)) List.mem_cons_self
      (fun a b => decide_eq_decide.mpr eq_comm) hseason hseason'
      (decide_eq_true (hof.symm.trans hof'))
  have hnumber := absoluteEpisodeForTarget_target seriesCatalog_columns htarget
  rw [absoluteEpisodeForTarget_target seriesCatalog_columns htarget'] at hnumber
  exact (Option.some.inj hnumber).symm

/-- A profile that is exact does not map two source episodes to one target. -/
theorem Exact.distinctTargets (hsource : profile.source.episode ≤ maxInt32)
    (hexpand : expandAnchor r profile = .ok rows) (h : Exact r profile.id rows) :
    DistinctTargets r profile.id := by
  obtain ⟨anchorAbsolute, -, -, hcontent⟩ := expandAnchor_ok hsource hexpand
  intro m hm m' hm' htarget
  have hanchored := (hcontent _).mp ((h _).mp (List.mem_map_of_mem hm))
  have hanchored' := (hcontent _).mp ((h _).mp (List.mem_map_of_mem hm'))
  obtain ⟨absolute, id, -, -, hid, hcontent'⟩ := hanchored
  obtain ⟨absolute', id', -, -, hid', hsame''⟩ := hanchored'
  have htargets : some id = some id' :=
    (congrArg MappedEpisode.target hcontent').symm.trans
      (htarget.trans (congrArg MappedEpisode.target hsame''))
  obtain rfl := Option.some.inj htargets
  obtain rfl := episodeAt_inj hid hid'
  exact mapping_eq_of_coordinate (mem_mappedOf.mp hm).1 (mem_mappedOf.mp hm').1
    (congrArg MappedEpisode.source (hcontent'.trans hsame''.symm))

end Numbers

/-! ## Runs -/

/-- An update of the catalog that leaves every episode of the series its absolute number. -/
structure KeepsNumbers (seriesID : UUID) (r r' : Resources) : Prop where
  catalog : ∃ series seasons episodes,
    r' = { r with mediaSeries := series, tmdbSeasons := seasons, mediaEpisodes := episodes }
  numbers : ∀ absolute id, (seriesCatalog r seriesID).episodeAt absolute = some id →
    (seriesCatalog r' seriesID).episodeAt absolute = some id

/-- One update of the catalog, or one call. -/
inductive AnchorStep (subscriptionID seriesID : UUID) (r : Resources) : Resources → Prop where
  | update {r' : Resources} (h : KeepsNumbers seriesID r r') :
      AnchorStep subscriptionID seriesID r r'
  | extend (newID : Nat → UUID) : AnchorStep subscriptionID seriesID r
      ((extendRSSAnchorMapping newID subscriptionID).commit r)

/-- The profile as it was created: its anchor is an episode of its series, and its rows are rows
of the expansion. -/
structure CreatedFromAnchor (subscriptionID : UUID) (profile : AnchorProfile) (r : Resources) :
    Prop where
  found : lockRSSAnchorMappingProfile subscriptionID r = some profile
  anchor : (lookup EpisodeMappingProfile.id profile.id r.episodeMappingProfiles.rows).bind
    (·.anchorTargetEpisodeID) = catalogTargetID r profile.seriesID profile.target
  rows : ∃ rows, expandAnchor r profile = .ok rows ∧ ∀ m ∈ mappingsOf r profile.id,
    m.status = .mapped ∧ m.content ∈ rows.map (·.content)

/-- What every state of a run has: the anchor stands at the number it had, and so does each row
of the profile. -/
structure AnchorHeld (subscriptionID : UUID) (p : EpisodeMappingProfile) (season : Int)
    (anchorAbsolute : Int) (r : Resources) : Prop where
  subscription : ∃ s, lookup RSSSubscription.id subscriptionID r.rssSubscriptions.rows = some s ∧
    s.mappingProfileID = some p.id
  profile : lookup EpisodeMappingProfile.id p.id r.episodeMappingProfiles.rows = some p
  source : p.anchorSourceSeason = some season
  anchor : ∃ targetID, p.anchorTargetEpisodeID = some targetID ∧
    (seriesCatalog r p.seriesID).episodeAt anchorAbsolute = some targetID
  rows : ∀ m ∈ mappingsOf r p.id, m.status = .mapped ∧
    Anchored (seriesCatalog r p.seriesID) season
      (anchorAbsolute - p.anchorSourceEpisode.getD 0) m.content

section Runs

variable {subscriptionID : UUID} {p : EpisodeMappingProfile} {season anchorAbsolute : Int}
  {r r' : Resources}

theorem AnchorHeld.found (h : AnchorHeld subscriptionID p season anchorAbsolute r) :
    ∃ target, lockRSSAnchorMappingProfile subscriptionID r = some (anchorProfile p season target) ∧
      absoluteEpisodeForTarget target (seriesCatalog r p.seriesID).seasons =
        some anchorAbsolute := by
  obtain ⟨s, hsubscription, hprofileID⟩ := h.subscription
  obtain ⟨targetID, htargetID, hnumber⟩ := h.anchor
  obtain ⟨row, hrow, episode, hepisode, hof, rfl, htarget⟩ := episodeAt_some hnumber
  refine ⟨_, ?_, absoluteEpisodeForTarget_target seriesCatalog_columns htarget⟩
  have hfound : lookup MediaEpisode.id episode.id r.mediaEpisodes.rows = some episode :=
    r.mediaEpisodes.find?_of_mem List.mem_cons_self hepisode
  have hseason : lookup TMDbSeasonRow.id episode.seasonID r.tmdbSeasons.rows = some row := by
    rw [hof]
    exact r.tmdbSeasons.find?_of_mem List.mem_cons_self hrow
  simp [lockRSSAnchorMappingProfile, hsubscription, hprofileID, h.profile, htargetID, hfound,
    hseason, h.source, anchorProfile]

/-- The rows of the expansion at a state of a run. -/
theorem AnchorHeld.expansion (h : AnchorHeld subscriptionID p season anchorAbsolute r)
    {target}
    (hnumber : absoluteEpisodeForTarget target (seriesCatalog r p.seriesID).seasons =
      some anchorAbsolute)
    (hexpand : expandAnchor r (anchorProfile p season target) = .ok rows) :
    (∀ row ∈ rows, row.status = .mapped) ∧ ∀ c, c ∈ rows.map (·.content) ↔
      Anchored (seriesCatalog r p.seriesID) season
        (anchorAbsolute - p.anchorSourceEpisode.getD 0) c := by
  obtain ⟨number, hnumber', hmapped, hcontent⟩ :=
    expandAnchor_ok (anchorSourceEpisode_le (List.mem_of_find?_eq_some h.profile)) hexpand
  obtain rfl : number = anchorAbsolute := Option.some.inj (hnumber'.symm.trans hnumber)
  exact ⟨hmapped, hcontent⟩

theorem CreatedFromAnchor.held (h : CreatedFromAnchor subscriptionID profile r) :
    ∃ p anchorAbsolute, p.id = profile.id ∧ p.seriesID = profile.seriesID ∧
      AnchorHeld subscriptionID p profile.source.season anchorAbsolute r := by
  obtain ⟨s, p, targetID, sourceSeason, hsubscription, hprofileID, hp, htargetID, hsource, heq⟩ :=
    lockRSSAnchorMappingProfile_some h.found
  obtain ⟨rows, hexpand, hrows⟩ := h.rows
  obtain ⟨anchorAbsolute, hnumber, -, hcontent⟩ :=
    expandAnchor_ok (lockRSSAnchorMappingProfile_source h.found) hexpand
  obtain ⟨-, -, htarget⟩ := absoluteEpisodeForTarget_some seriesCatalog_columns hnumber
  have hanchor := h.anchor
  generalize profile.target = target at heq htarget hanchor
  subst heq
  refine ⟨p, anchorAbsolute, rfl, rfl, ⟨s, hsubscription, hprofileID⟩, hp, hsource,
    ⟨targetID, htargetID, ?_⟩, fun m hm => ⟨(hrows m hm).1, (hcontent _).mp (hrows m hm).2⟩⟩
  simp only [anchorProfile, hp, Option.bind_some, htargetID] at hanchor htarget
  rw [MappingCatalog.episodeAt, htarget, hanchor]
  rfl

/-- **A step keeps the anchor where it is.** -/
theorem AnchorHeld.step (h : AnchorHeld subscriptionID p season anchorAbsolute r)
    (hstep : AnchorStep subscriptionID p.seriesID r r') :
    AnchorHeld subscriptionID p season anchorAbsolute r' := by
  cases hstep with
  | update hkeeps =>
    obtain ⟨⟨series, seasons, episodes, rfl⟩, hnumbers⟩ := hkeeps
    obtain ⟨targetID, htargetID, hanchor⟩ := h.anchor
    refine ⟨h.subscription, h.profile, h.source, ⟨targetID, htargetID, hnumbers _ _ hanchor⟩,
      fun m hm => ?_⟩
    obtain ⟨hstatus, absolute, id, hlow, hhigh, hid, hcontent'⟩ := h.rows m hm
    exact ⟨hstatus, absolute, id, hlow, hhigh, hnumbers _ _ hid, hcontent'⟩
  | extend newID =>
    rcases Tx.commit_cases (extendRSSAnchorMapping newID subscriptionID) r with
      ⟨n, hcall⟩ | hsame
    · obtain ⟨target, hfound, hnumber⟩ := h.found
      obtain ⟨rows, new, table, hexpand, hr', hmem, hnew, hcontent⟩ :=
        extendRSSAnchorMapping_ok hfound hcall
      obtain ⟨-, hanchored⟩ := h.expansion hnumber hexpand
      rw [hr'] at hmem ⊢
      refine ⟨h.subscription, h.profile, h.source, h.anchor, fun m hm => ?_⟩
      rcases (hmem m).mp hm with hrow | hrow
      · exact h.rows m hrow
      · obtain ⟨row, hin, -, hcontent'⟩ := (hcontent _).mp (List.mem_map_of_mem hrow)
        refine ⟨hnew m hrow, ?_⟩
        rw [hcontent']
        exact (hanchored _).mp (List.mem_map_of_mem hin)
    · rw [hsame]
      exact h

/-- **The profile is exact while the catalog keeps its numbers**: after each successful call its
mapped rows are those of the expansion, and no two of them have the same target. -/
theorem anchor_profile_exact {profile : AnchorProfile} {r₀ : Resources}
    (hcreated : CreatedFromAnchor subscriptionID profile r₀)
    (hrun : Relation.ReflTransGen (AnchorStep subscriptionID profile.seriesID) r₀ r)
    {newID : Nat → UUID} {n : Nat}
    (hcall : extendRSSAnchorMapping newID subscriptionID r = .ok (n, r')) :
    ∃ profile' rows, lockRSSAnchorMappingProfile subscriptionID r' = some profile' ∧
      profile'.id = profile.id ∧ expandAnchor r' profile' = .ok rows ∧
      Exact r' profile.id rows ∧ DistinctTargets r' profile.id := by
  obtain ⟨p, anchorAbsolute, hid, hseries, hheld⟩ := hcreated.held
  rw [← hseries] at hrun
  have hheld : AnchorHeld subscriptionID p profile.source.season anchorAbsolute r :=
    invariant_of_step (fun _ _ hstep h => h.step hstep) hrun hheld
  obtain ⟨target, hfound, hnumber⟩ := hheld.found
  obtain ⟨rows, new, table, hexpand, hr', -⟩ := extendRSSAnchorMapping_ok hfound hcall
  obtain ⟨hmapped, hanchored⟩ := hheld.expansion hnumber hexpand
  have hexact : Exact r' (anchorProfile p profile.source.season target).id rows := by
    refine (extension_exact_iff hfound hexpand hcall).mpr fun m hm => ?_
    obtain ⟨hstatus, hrow⟩ := hheld.rows m hm
    exact ⟨fun _ => (hanchored _).mpr hrow, fun hpending => absurd hstatus hpending⟩
  -- The call leaves what the expansion is computed from as it is.
  have hfound' : lockRSSAnchorMappingProfile subscriptionID r' =
      some (anchorProfile p profile.source.season target) := by
    rw [hr']
    exact hfound
  have hexpand' : expandAnchor r' (anchorProfile p profile.source.season target) = .ok rows := by
    rw [hr']
    exact hexpand
  rw [← hid]
  exact ⟨_, rows, hfound', rfl, hexpand', hexact,
    hexact.distinctTargets (lockRSSAnchorMappingProfile_source hfound) hexpand'⟩

end Runs

/-! ## A season that grows -/

def numberedEpisodes (seasonID : UUID) (ids : List UUID) : List MediaEpisode :=
  ids.mapIdx fun index id =>
    { id, seasonID, episodeNumber := (index : Int) + 1,
      title := "Episode " ++ toString (index + 1) }

/-- A series with two seasons, of two episodes and of one, and a profile that maps its three
episodes. -/
def twoSeasons : Resources where
  mediaSeries := ⟨[{ id := 1, title := "Series" }], by decide⟩
  tmdbSeasons := ⟨[
    { id := 11, seriesID := 1, seasonNumber := 1, episodeCount := 2 },
    { id := 12, seriesID := 1, seasonNumber := 2, episodeCount := 1 }], by decide⟩
  mediaEpisodes := ⟨numberedEpisodes 11 [21, 22] ++ numberedEpisodes 12 [31], by decide⟩
  rssSubscriptions := ⟨[{ id := 2, seriesID := 1, mappingProfileID := some 3 }], by decide⟩
  episodeMappingProfiles := ⟨[
    { id := 3, seriesID := 1, name := "rss:" ++ UUID.text 2, anchorSourceSeason := some 1
      anchorSourceEpisode := some 1, anchorTargetEpisodeID := some 21
      targetEpisodeOffset := some 0 }], by decide⟩
  episodeMappings := ⟨[
    { id := 41, profileID := 3, sourceSeason := 1, sourceEpisode := 1, targetEpisodeID := some 21
      status := .mapped, absoluteEpisode := some 1 },
    { id := 42, profileID := 3, sourceSeason := 1, sourceEpisode := 2, targetEpisodeID := some 22
      status := .mapped, absoluteEpisode := some 2 },
    { id := 43, profileID := 3, sourceSeason := 1, sourceEpisode := 3, targetEpisodeID := some 31
      status := .mapped, absoluteEpisode := some 3 }], by decide⟩

def twoSeasonsProfile : AnchorProfile :=
  ⟨3, 1, { season := 1, episode := 1 }, { season := 1, episode := 1 }⟩

theorem twoSeasons_created : CreatedFromAnchor 2 twoSeasonsProfile twoSeasons where
  found := by decide +kernel
  anchor := by decide +kernel
  rows := ⟨_, rfl, by decide +kernel⟩

/-- The second season has got another episode. -/
def lastGrown : Resources :=
  { twoSeasons with
    tmdbSeasons := ⟨[
      { id := 11, seriesID := 1, seasonNumber := 1, episodeCount := 2 },
      { id := 12, seriesID := 1, seasonNumber := 2, episodeCount := 2 }], by decide⟩
    mediaEpisodes := ⟨numberedEpisodes 11 [21, 22] ++ numberedEpisodes 12 [31, 32], by decide⟩ }

theorem lastGrown_keepsNumbers : KeepsNumbers 1 twoSeasons lastGrown where
  catalog := ⟨_, _, _, rfl⟩
  numbers := by
    intro absolute id hid
    obtain ⟨target, htarget, -⟩ := Option.bind_eq_some_iff.mp hid
    obtain ⟨hlow, hhigh⟩ :=
      (targetForAbsoluteEpisode_some_iff seriesCatalog_columns).mp ⟨target, htarget⟩
    have htotal : regularEpisodeCount (seriesCatalog twoSeasons 1).seasons = 3 := by decide +kernel
    have hsame : ∀ n ∈ [1, 2, 3], (seriesCatalog lastGrown 1).episodeAt n =
        (seriesCatalog twoSeasons 1).episodeAt n := by decide +kernel
    rw [hsame absolute (by simp only [List.mem_cons]; omega)]
    exact hid

theorem anchor_profile_exact_lastGrown :
    ∃ profile rows r', (extendRSSAnchorMapping (50 + ·) 2).commit lastGrown = r' ∧
      lockRSSAnchorMappingProfile 2 r' = some profile ∧ expandAnchor r' profile = .ok rows ∧
      Exact r' 3 rows ∧ DistinctTargets r' 3 := by
  have hcall := Tx.ok_of_result? (m := extendRSSAnchorMapping (50 + ·) 2) (s := lastGrown)
    (a := 1) (by decide +kernel)
  obtain ⟨profile, rows, hfound, -, hexpand, hexact, hdistinct⟩ :=
    anchor_profile_exact twoSeasons_created (.single (.update lastGrown_keepsNumbers)) hcall
  exact ⟨profile, rows, _, rfl, hfound, hexpand, hexact, hdistinct⟩

/-- The first season has got another episode. -/
def middleGrown : Resources :=
  { twoSeasons with
    tmdbSeasons := ⟨[
      { id := 11, seriesID := 1, seasonNumber := 1, episodeCount := 3 },
      { id := 12, seriesID := 1, seasonNumber := 2, episodeCount := 1 }], by decide⟩
    mediaEpisodes := ⟨numberedEpisodes 11 [21, 22, 23] ++ numberedEpisodes 12 [31], by decide⟩ }

/-- **When a season grows before another one, the profile is not exact**: the third source episode
stays at the first episode of the second season, and the fourth is mapped there too. -/
theorem season_grows_in_the_middle :
    CreatedFromAnchor 2 twoSeasonsProfile twoSeasons ∧
    ∃ r', extendRSSAnchorMapping (50 + ·) 2 middleGrown = .ok (1, r') ∧
      ¬ DistinctTargets r' 3 ∧
      ∀ rows, expandAnchor r' twoSeasonsProfile = .ok rows → ¬ Exact r' 3 rows := by
  have hcall := Tx.ok_of_result? (m := extendRSSAnchorMapping (50 + ·) 2) (s := middleGrown)
    (a := 1) (by decide +kernel)
  have hshared : ∃ m ∈ mappedOf ((extendRSSAnchorMapping (50 + ·) 2).commit middleGrown) 3,
      ∃ m' ∈ mappedOf ((extendRSSAnchorMapping (50 + ·) 2).commit middleGrown) 3,
        m.targetEpisodeID = m'.targetEpisodeID ∧ m.id ≠ m'.id := by decide +kernel
  obtain ⟨m, hm, m', hm', htarget, hid⟩ := hshared
  have hnot : ¬ DistinctTargets ((extendRSSAnchorMapping (50 + ·) 2).commit middleGrown) 3 :=
    fun h => hid (congrArg EpisodeMapping.id (h m hm m' hm' htarget))
  exact ⟨twoSeasons_created, _, hcall, hnot, fun rows hexpand hexact =>
    hnot (hexact.distinctTargets (by decide) hexpand)⟩

end EmbyAuto
