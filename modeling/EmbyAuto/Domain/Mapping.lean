import EmbyAuto.Store.Catalog

/-!
# Mapping source episodes to TMDb episodes

`domain/mapping.go`. The regular seasons of a series, in order, number its episodes from one:
the absolute number of an episode. An anchor, one source episode with its target, carries every
episode of the same source season to a target by the distance of their absolute numbers.

Go's `int` wraps, and so do the sums of the loops here. A catalog row holds its season number and
its episode count in columns of type `integer`, one row for each season (`Columns`), and then no
sum leaves the range of an `int`.

## Main definitions

* `absoluteEpisodeForTarget`, `targetForAbsoluteEpisode`: the numbering and its inverse
* `Columns`: what the columns of the catalog guarantee about its seasons
* `resolveEpisodeMapping`: the target of a source episode under an anchor
* `resolveExplicitEpisodeMapping`: the same for a target that is given with its source

## Main results

* `absolute_target_inverse`: the two numberings are mutually inverse
* `resolveEpisodeMapping_mapped`: what an anchor maps, and where
* `explicit_mapping_agrees_with_anchor`: an explicit target is the anchor of its own source
-/

namespace EmbyAuto

/-- A season of the catalog. A title that the Go map does not hold is the empty text. -/
structure TMDbSeason where
  season : Int
  episodeCount : Int
  titles : Int → String := fun _ => ""

structure EpisodeMappingResult where
  status : MappingStatus
  absoluteEpisode : Int := 0
  target : EpisodeCoordinate := {}
  targetTitle : String := ""
  matchSource : MappingMatchSource
  errorCode : String := ""
  deriving DecidableEq

def validSourceCoordinate (coordinate : EpisodeCoordinate) : Bool :=
  0 < coordinate.season && 0 < coordinate.episode &&
    0 ≤ coordinate.episodeFractionHundredths && coordinate.episodeFractionHundredths ≤ 99

def validTargetCoordinate (coordinate : EpisodeCoordinate) : Bool :=
  0 ≤ coordinate.season && 0 < coordinate.episode && coordinate.episodeFractionHundredths = 0

/-! ## The numbering -/

/-- The condition of `regularTMDbSeasons`: neither the specials nor an empty season. -/
def TMDbSeason.regular (season : TMDbSeason) : Bool := 0 < season.season && 0 < season.episodeCount

/-- `sort.Slice` leaves the order of equal season numbers open. A catalog has one row for each
season, and then the order of the sort decides everything. -/
def regularTMDbSeasons (seasons : List TMDbSeason) : List TMDbSeason :=
  (seasons.filter (·.regular)).insertionSort (·.season ≤ ·.season)

def regularEpisodeCount (seasons : List TMDbSeason) : Int :=
  (regularTMDbSeasons seasons).foldl (fun total season => int64 (total + season.episodeCount)) 0

/-- The loop of `AbsoluteEpisodeForTarget`, with the episodes of the seasons already passed. -/
def absoluteFrom (target : EpisodeCoordinate) (absolute : Int) : List TMDbSeason → Option Int
  | [] => none
  | season :: rest =>
    if season.season = target.season then
      if season.episodeCount < target.episode then none
      else some (int64 (absolute + target.episode))
    else absoluteFrom target (int64 (absolute + season.episodeCount)) rest

def absoluteEpisodeForTarget (target : EpisodeCoordinate) (seasons : List TMDbSeason) :
    Option Int :=
  if !validTargetCoordinate target || target.season = 0 then none
  else absoluteFrom target 0 (regularTMDbSeasons seasons)

/-- The loop of `TargetForAbsoluteEpisode`, with the episodes that remain to be passed. A season
that is passed has a positive count below `remaining`, so this difference never wraps. -/
def targetFrom (remaining : Int) : List TMDbSeason → Option EpisodeCoordinate
  | [] => none
  | season :: rest =>
    if remaining ≤ season.episodeCount then some { season := season.season, episode := remaining }
    else targetFrom (remaining - season.episodeCount) rest

def targetForAbsoluteEpisode (absolute : Int) (seasons : List TMDbSeason) :
    Option EpisodeCoordinate :=
  if absolute ≤ 0 then none else targetFrom absolute (regularTMDbSeasons seasons)

/-! ### The two loops

Both loops walk the same list. The first one adds the counts of the seasons it passes, the second
one subtracts them. The sums are exact as long as that of all counts is an `int`. -/

variable {seasons : List TMDbSeason} {target : EpisodeCoordinate} {absolute : Int}

/-- The number of all episodes. -/
def episodeTotal : List TMDbSeason → Int
  | [] => 0
  | season :: rest => season.episodeCount + episodeTotal rest

theorem episodeTotal_nonneg (h : ∀ s ∈ seasons, 0 < s.episodeCount) : 0 ≤ episodeTotal seasons := by
  induction seasons with
  | nil => exact le_rfl
  | cons s rest ih =>
    obtain ⟨hs, hrest⟩ := List.forall_mem_cons.mp h
    have := ih hrest
    simp only [episodeTotal]
    omega

theorem foldl_episodeCount (hcounts : ∀ s ∈ seasons, 0 < s.episodeCount) {passed : Int}
    (hpassed : 0 ≤ passed) (hint : passed + episodeTotal seasons < 2 ^ 63) :
    seasons.foldl (fun total season => int64 (total + season.episodeCount)) passed =
      passed + episodeTotal seasons := by
  induction seasons generalizing passed with
  | nil => exact (add_zero passed).symm
  | cons s rest ih =>
    obtain ⟨hs, hrest⟩ := List.forall_mem_cons.mp hcounts
    have htotal := episodeTotal_nonneg hrest
    simp only [episodeTotal] at hint ⊢
    rw [List.foldl_cons, int64_of_range (by omega) (by omega),
      ih hrest (by omega) (by omega), add_assoc]

/-- A target that the first loop finds is what the second loop finds at its number. -/
theorem absoluteFrom_some (hcounts : ∀ s ∈ seasons, 0 < s.episodeCount)
    (hepisode : 0 < target.episode) (hfraction : target.episodeFractionHundredths = 0)
    {passed absolute : Int} (hpassed : 0 ≤ passed) (hint : passed + episodeTotal seasons < 2 ^ 63)
    (h : absoluteFrom target passed seasons = some absolute) :
    passed < absolute ∧ absolute ≤ passed + episodeTotal seasons ∧
      targetFrom (absolute - passed) seasons = some target := by
  -- The number of episodes passed is the invariant that carries both loops along the list.
  induction seasons generalizing passed with
  | nil => simp [absoluteFrom] at h
  | cons s rest ih =>
    obtain ⟨hs, hrest⟩ := List.forall_mem_cons.mp hcounts
    have htotal := episodeTotal_nonneg hrest
    simp only [episodeTotal] at hint ⊢
    rw [absoluteFrom] at h
    split_ifs at h with hseason hle
    · rw [int64_of_range (by omega) (by omega)] at h
      obtain rfl := Option.some.inj h
      refine ⟨by omega, by omega, ?_⟩
      rw [add_sub_cancel_left, targetFrom, if_pos (by omega), hseason, ← hfraction]
    · rw [int64_of_range (by omega) (by omega)] at h
      obtain ⟨hlow, hhigh, htarget⟩ := ih hrest (by omega) (by omega) h
      refine ⟨by omega, by omega, ?_⟩
      rw [targetFrom, if_neg (by omega), sub_sub]
      exact htarget

/-- Within a season the numbers keep the distances of the episodes. -/
theorem absoluteFrom_shift {target target'} (hcounts : ∀ s ∈ seasons, 0 < s.episodeCount)
    (hseason : target'.season = target.season) (hepisode : 0 < target.episode)
    (hepisode' : 0 < target'.episode)
    (hcount : ∀ s ∈ seasons, s.season = target.season → target'.episode ≤ s.episodeCount)
    {passed absolute : Int} (hpassed : 0 ≤ passed) (hint : passed + episodeTotal seasons < 2 ^ 63)
    (h : absoluteFrom target passed seasons = some absolute) :
    absoluteFrom target' passed seasons =
      some (absolute + target'.episode - target.episode) := by
  induction seasons generalizing passed with
  | nil => simp [absoluteFrom] at h
  | cons s rest ih =>
    obtain ⟨hpos, hrest⟩ := List.forall_mem_cons.mp hcounts
    have htotal := episodeTotal_nonneg hrest
    simp only [episodeTotal] at hint
    rw [absoluteFrom] at h ⊢
    rw [hseason]
    split_ifs at h with hs hle
    · have hle' := hcount s List.mem_cons_self hs
      rw [int64_of_range (by omega) (by omega)] at h
      obtain rfl := Option.some.inj h
      rw [if_pos hs, if_neg (by omega), int64_of_range (by omega) (by omega)]
      congr 1
      omega
    · rw [int64_of_range (by omega) (by omega)] at h
      rw [if_neg hs, int64_of_range (by omega) (by omega)]
      exact ih hrest (fun s hs => hcount s (List.mem_cons_of_mem _ hs)) (by omega) (by omega) h

/-- What the second loop finds is an episode of one of the seasons. -/
theorem targetFrom_mem {remaining : Int} (hpos : 0 < remaining)
    (h : targetFrom remaining seasons = some target) :
    ∃ s ∈ seasons, s.season = target.season ∧ 0 < target.episode ∧
      target.episode ≤ s.episodeCount ∧ target.episodeFractionHundredths = 0 := by
  induction seasons generalizing remaining with
  | nil => simp [targetFrom] at h
  | cons s rest ih =>
    rw [targetFrom] at h
    split at h
    · rename_i hle
      obtain rfl := Option.some.inj h
      exact ⟨s, List.mem_cons_self, rfl, hpos, hle, rfl⟩
    · obtain ⟨s', hs', hfound⟩ := ih (by omega) h
      exact ⟨s', List.mem_cons_of_mem _ hs', hfound⟩

/-- The second loop finds a target exactly up to the number of all episodes. -/
theorem targetFrom_isSome_iff {remaining : Int} (hpos : 0 < remaining)
    (hcounts : ∀ s ∈ seasons, 0 < s.episodeCount) :
    (targetFrom remaining seasons).isSome ↔ remaining ≤ episodeTotal seasons := by
  induction seasons generalizing remaining with
  | nil => simpa [targetFrom, episodeTotal] using hpos
  | cons s rest ih =>
    obtain ⟨hs, hrest⟩ := List.forall_mem_cons.mp hcounts
    have htotal := episodeTotal_nonneg hrest
    simp only [targetFrom, episodeTotal]
    split
    · simp only [Option.isSome_some, true_iff]
      omega
    · rw [ih (by omega) hrest]
      omega

/-- The first loop returns to the number at which the second loop found a target. -/
theorem absoluteFrom_targetFrom {remaining : Int} (hdistinct : (seasons.map (·.season)).Nodup)
    (hcounts : ∀ s ∈ seasons, 0 < s.episodeCount) (hpos : 0 < remaining)
    (h : targetFrom remaining seasons = some target) {passed : Int} (hpassed : 0 ≤ passed)
    (hint : passed + episodeTotal seasons < 2 ^ 63) :
    absoluteFrom target passed seasons = some (passed + remaining) := by
  have hle := (targetFrom_isSome_iff hpos hcounts).mp (Option.isSome_of_mem h)
  induction seasons generalizing remaining passed with
  | nil => simp [targetFrom] at h
  | cons s rest ih =>
    rw [List.map_cons, List.nodup_cons] at hdistinct
    obtain ⟨hs, hrest⟩ := List.forall_mem_cons.mp hcounts
    simp only [episodeTotal] at hint hle
    rw [targetFrom] at h
    split at h
    · rename_i hfits
      obtain rfl := Option.some.inj h
      rw [absoluteFrom, if_pos rfl, if_neg (by simpa using hfits),
        int64_of_range (by dsimp only; omega) (by dsimp only; omega)]
    · have hpos' : 0 < remaining - s.episodeCount := by omega
      -- The target lies in a later season, so its number is not this season's.
      have hne : s.season ≠ target.season := by
        intro heq
        obtain ⟨s', hs', hseason, -⟩ := targetFrom_mem hpos' h
        exact hdistinct.1 (List.mem_map.mpr ⟨s', hs', hseason.trans heq.symm⟩)
      rw [absoluteFrom, if_neg hne, int64_of_range (by omega) (by omega),
        ih hdistinct.2 hrest hpos' h (by omega) (by omega) (by omega)]
      congr 1
      omega

/-! ### The regular seasons -/

theorem mem_regularTMDbSeasons {s : TMDbSeason} :
    s ∈ regularTMDbSeasons seasons ↔ s ∈ seasons ∧ 0 < s.season ∧ 0 < s.episodeCount := by
  simp [regularTMDbSeasons, TMDbSeason.regular]

theorem regularTMDbSeasons_counts : ∀ s ∈ regularTMDbSeasons seasons, 0 < s.episodeCount :=
  fun _ hs => (mem_regularTMDbSeasons.mp hs).2.2

theorem regularTMDbSeasons_nodup (h : (seasons.map (·.season)).Nodup) :
    ((regularTMDbSeasons seasons).map (·.season)).Nodup :=
  (((List.perm_insertionSort _ _).map _).nodup_iff).mpr (h.sublist (List.filter_sublist.map _))

/-- The order of the catalog's rows does not reach the numbering. -/
theorem regularTMDbSeasons_perm {seasons seasons'} (h : (seasons.map (·.season)).Nodup)
    (hperm : seasons.Perm seasons') : regularTMDbSeasons seasons = regularTMDbSeasons seasons' := by
  have hsorted : ∀ l : List TMDbSeason,
      (regularTMDbSeasons l).Pairwise fun a b => a.season ≤ b.season := by
    intro l
    exact List.pairwise_insertionSort _ _
  refine List.Perm.eq_of_pairwise ?_ (hsorted seasons) (hsorted seasons') ?_
  · intro a b ha hb hab hba
    have ha' := (mem_regularTMDbSeasons.mp ha).1
    have hb' := hperm.mem_iff.mpr (mem_regularTMDbSeasons.mp hb).1
    exact List.inj_on_of_nodup_map h ha' hb' (le_antisymm hab hba)
  · exact (List.perm_insertionSort _ _).trans
      ((hperm.filter _).trans (List.perm_insertionSort _ _).symm)

theorem episodeTotal_le {bound : Int} (h : ∀ s ∈ seasons, s.episodeCount ≤ bound) :
    episodeTotal seasons ≤ seasons.length * bound := by
  induction seasons with
  | nil => simp [episodeTotal]
  | cons s rest ih =>
    obtain ⟨hs, hrest⟩ := List.forall_mem_cons.mp h
    have := ih hrest
    simp only [episodeTotal, List.length_cons, Nat.cast_add, add_mul]
    omega

/-- What the columns of the catalog guarantee: one row for each season, and numbers of type
`integer`. -/
structure Columns (seasons : List TMDbSeason) : Prop where
  distinct : (seasons.map (·.season)).Nodup
  range : ∀ s ∈ seasons, s.season < 2 ^ 31 ∧ s.episodeCount < 2 ^ 31

/-- The number of all episodes is an `int`: the numbers of the seasons are distinct, so there are
fewer seasons than an `integer` column has positive values. -/
theorem Columns.episodeTotal_lt (h : Columns seasons) :
    episodeTotal (regularTMDbSeasons seasons) < 2 ^ 63 := by
  have hnumbers : ((regularTMDbSeasons seasons).map (·.season)).toFinset ⊆
      Finset.Ioo (0) (2 ^ 31) := by
    intro number hnumber
    obtain ⟨s, hs, rfl⟩ := List.mem_map.mp (List.mem_toFinset.mp hnumber)
    obtain ⟨hmem, hpos, -⟩ := mem_regularTMDbSeasons.mp hs
    exact Finset.mem_Ioo.mpr ⟨hpos, (h.range s hmem).1⟩
  have hlength : ((regularTMDbSeasons seasons).length) ≤ 2 ^ 31 - 1 := by
    have hcard := Finset.card_le_card hnumbers
    rw [List.toFinset_card_of_nodup (regularTMDbSeasons_nodup h.distinct), List.length_map,
      Int.card_Ioo] at hcard
    omega
  have htotal : episodeTotal (regularTMDbSeasons seasons) ≤
      (regularTMDbSeasons seasons).length * (2 ^ 31 - 1) :=
    episodeTotal_le fun s hs => by
      have := (h.range s (mem_regularTMDbSeasons.mp hs).1).2
      omega
  omega

theorem Columns.regularEpisodeCount_eq (h : Columns seasons) :
    regularEpisodeCount seasons = episodeTotal (regularTMDbSeasons seasons) := by
  have hint := h.episodeTotal_lt
  rw [regularEpisodeCount, foldl_episodeCount regularTMDbSeasons_counts le_rfl (by omega), zero_add]

/-! ### The numbering and its inverse -/

theorem absoluteEpisodeForTarget_eq_some :
    absoluteEpisodeForTarget target seasons = some absolute ↔
      (0 < target.season ∧ 0 < target.episode ∧ target.episodeFractionHundredths = 0) ∧
        absoluteFrom target 0 (regularTMDbSeasons seasons) = some absolute := by
  have hvalid : (!validTargetCoordinate target || target.season = 0) = true ↔
      ¬ (0 < target.season ∧ 0 < target.episode ∧ target.episodeFractionHundredths = 0) := by
    simp only [validTargetCoordinate, Bool.or_eq_true, Bool.not_eq_true', Bool.and_eq_false_iff,
      decide_eq_false_iff_not, decide_eq_true_eq]
    omega
  rw [absoluteEpisodeForTarget]
  split_ifs with h
  · exact iff_of_false nofun fun hsome => hvalid.mp h hsome.1
  · exact (and_iff_right (not_not.mp (mt hvalid.mpr h))).symm

theorem absoluteEpisodeForTarget_some (hcolumns : Columns seasons)
    (h : absoluteEpisodeForTarget target seasons = some absolute) :
    1 ≤ absolute ∧ absolute ≤ regularEpisodeCount seasons ∧
      targetForAbsoluteEpisode absolute seasons = some target := by
  obtain ⟨⟨-, hepisode, hfraction⟩, hfound⟩ := absoluteEpisodeForTarget_eq_some.mp h
  have hint := hcolumns.episodeTotal_lt
  obtain ⟨hlow, hhigh, htarget⟩ :=
    absoluteFrom_some regularTMDbSeasons_counts hepisode hfraction le_rfl (by omega) hfound
  rw [sub_zero] at htarget
  rw [zero_add, ← hcolumns.regularEpisodeCount_eq] at hhigh
  refine ⟨by omega, hhigh, ?_⟩
  rw [targetForAbsoluteEpisode, if_neg (by omega)]
  exact htarget

/-- An absolute number does not wrap. -/
theorem Columns.int64_absolute (hcolumns : Columns seasons)
    (h : absoluteEpisodeForTarget target seasons = some absolute) : int64 absolute = absolute := by
  obtain ⟨hlow, hhigh, -⟩ := absoluteEpisodeForTarget_some hcolumns h
  have hint := hcolumns.episodeTotal_lt
  rw [hcolumns.regularEpisodeCount_eq] at hhigh
  exact int64_of_range (by omega) (by omega)

theorem absoluteEpisodeForTarget_shift {target target'} (hcolumns : Columns seasons)
    (h : absoluteEpisodeForTarget target seasons = some absolute)
    (hseason : target'.season = target.season) (hpos : 0 < target'.episode)
    (hfraction : target'.episodeFractionHundredths = 0)
    (hcount : ∀ s ∈ seasons, s.season = target.season → target'.episode ≤ s.episodeCount) :
    absoluteEpisodeForTarget target' seasons =
      some (absolute + target'.episode - target.episode) := by
  rw [absoluteEpisodeForTarget_eq_some] at h ⊢
  have hint := hcolumns.episodeTotal_lt
  exact ⟨⟨hseason ▸ h.1.1, hpos, hfraction⟩, absoluteFrom_shift regularTMDbSeasons_counts hseason
    h.1.2.1 hpos (fun s hs => hcount s (mem_regularTMDbSeasons.mp hs).1) le_rfl (by omega) h.2⟩

theorem targetForAbsoluteEpisode_some_iff (hcolumns : Columns seasons) :
    (∃ target, targetForAbsoluteEpisode absolute seasons = some target) ↔
      1 ≤ absolute ∧ absolute ≤ regularEpisodeCount seasons := by
  rw [← Option.isSome_iff_exists, targetForAbsoluteEpisode, hcolumns.regularEpisodeCount_eq]
  split
  · simp only [Option.isSome_none, Bool.false_eq_true, false_iff]
    omega
  · rw [targetFrom_isSome_iff (by omega) regularTMDbSeasons_counts]
    omega

/-- A target is an episode of a season of the catalog that is neither the specials nor empty. -/
theorem targetForAbsoluteEpisode_mem (h : targetForAbsoluteEpisode absolute seasons = some target) :
    ∃ s ∈ seasons, s.season = target.season ∧ 0 < s.season ∧ 0 < target.episode ∧
      target.episode ≤ s.episodeCount ∧ target.episodeFractionHundredths = 0 := by
  rw [targetForAbsoluteEpisode] at h
  split at h
  · cases h
  · obtain ⟨s, hs, hseason, hfound⟩ := targetFrom_mem (by omega) h
    obtain ⟨hmem, hpos, -⟩ := mem_regularTMDbSeasons.mp hs
    exact ⟨s, hmem, hseason, hpos, hfound⟩

theorem absoluteEpisodeForTarget_target (hcolumns : Columns seasons)
    (h : targetForAbsoluteEpisode absolute seasons = some target) :
    absoluteEpisodeForTarget target seasons = some absolute := by
  obtain ⟨s, -, hseason, hpos, hepisode, -, hfraction⟩ := targetForAbsoluteEpisode_mem h
  refine absoluteEpisodeForTarget_eq_some.mpr ⟨⟨hseason ▸ hpos, hepisode, hfraction⟩, ?_⟩
  rw [targetForAbsoluteEpisode] at h
  split at h
  · cases h
  · have hint := hcolumns.episodeTotal_lt
    rw [absoluteFrom_targetFrom (regularTMDbSeasons_nodup hcolumns.distinct)
      regularTMDbSeasons_counts (by omega) h le_rfl (by omega), zero_add]

/-- On the seasons of a catalog, the numbering of the targets and the search for a
number's target are mutually inverse between the targets and the numbers from one to the number of
regular episodes. Neither depends on the order of the rows, and the specials and empty seasons
take no part. -/
theorem absolute_target_inverse (seasons : List TMDbSeason) (hcolumns : Columns seasons) :
    (∀ target absolute, absoluteEpisodeForTarget target seasons = some absolute →
      1 ≤ absolute ∧ absolute ≤ regularEpisodeCount seasons ∧
        targetForAbsoluteEpisode absolute seasons = some target) ∧
    (∀ absolute, (∃ target, targetForAbsoluteEpisode absolute seasons = some target) ↔
      1 ≤ absolute ∧ absolute ≤ regularEpisodeCount seasons) ∧
    (∀ absolute target, targetForAbsoluteEpisode absolute seasons = some target →
      absoluteEpisodeForTarget target seasons = some absolute) ∧
    (∀ seasons', seasons.Perm seasons' →
      (∀ target, absoluteEpisodeForTarget target seasons' =
        absoluteEpisodeForTarget target seasons) ∧
      (∀ absolute, targetForAbsoluteEpisode absolute seasons' =
        targetForAbsoluteEpisode absolute seasons)) ∧
    ((∀ target, absoluteEpisodeForTarget target
        (seasons.filter fun s => s.season ≠ 0 ∧ s.episodeCount ≠ 0) =
        absoluteEpisodeForTarget target seasons) ∧
      (∀ absolute, targetForAbsoluteEpisode absolute
        (seasons.filter fun s => s.season ≠ 0 ∧ s.episodeCount ≠ 0) =
        targetForAbsoluteEpisode absolute seasons)) := by
  have hfilter : regularTMDbSeasons (seasons.filter fun s => s.season ≠ 0 ∧ s.episodeCount ≠ 0) =
      regularTMDbSeasons seasons := by
    rw [regularTMDbSeasons, List.filter_filter]
    congr 1
    simp only [TMDbSeason.regular]
    grind
  refine ⟨fun target absolute h => absoluteEpisodeForTarget_some hcolumns h,
    fun absolute => targetForAbsoluteEpisode_some_iff hcolumns,
    fun absolute target h => absoluteEpisodeForTarget_target hcolumns h, ?_, ?_⟩
  · intro seasons' hperm
    simp [absoluteEpisodeForTarget, targetForAbsoluteEpisode,
      regularTMDbSeasons_perm hcolumns.distinct hperm]
  · simp only [absoluteEpisodeForTarget, targetForAbsoluteEpisode, hfilter, implies_true, and_self]

/-- A catalog in no order, with specials and an empty season: episode 14 is the second season's
first. -/
theorem absolute_target_inverse_unsorted :
    targetForAbsoluteEpisode 14 [⟨3, 10, fun _ => ""⟩, ⟨0, 5, fun _ => ""⟩, ⟨2, 12, fun _ => ""⟩,
        ⟨4, 0, fun _ => ""⟩, ⟨1, 13, fun _ => ""⟩] = some { season := 2, episode := 1 } ∧
      absoluteEpisodeForTarget { season := 2, episode := 1 } [⟨3, 10, fun _ => ""⟩,
        ⟨0, 5, fun _ => ""⟩, ⟨2, 12, fun _ => ""⟩, ⟨4, 0, fun _ => ""⟩, ⟨1, 13, fun _ => ""⟩] =
        some 14 :=
  ⟨by decide, (absolute_target_inverse _ ⟨by decide, by decide⟩).2.2.1 _ _ (by decide)⟩

/-! ## Anchors -/

/-- The title of a target, or the code of the reason why it has none. -/
def resolveTargetTitle (seasons : List TMDbSeason) (target : EpisodeCoordinate) :
    Except String String :=
  match seasons.find? fun season => season.season = target.season with
  | none => .error "mapping_target_out_of_range"
  | some season =>
    if target.episode ≤ 0 ∨ season.episodeCount < target.episode then
      .error "mapping_target_out_of_range"
    else
      let title := trimSpace (season.titles target.episode)
      if title = "" then .error "mapping_title_missing" else .ok title

def pendingMapping (absolute : Int) (target : EpisodeCoordinate) (code : String) :
    EpisodeMappingResult where
  status := .pending
  absoluteEpisode := absolute
  target := target
  matchSource := .pending
  errorCode := code

structure EpisodeMappingRequest where
  source : EpisodeCoordinate
  anchorSource : EpisodeCoordinate
  anchorTarget : EpisodeCoordinate
  tmdbSeasons : List TMDbSeason

/-- One anchor, applied to every episode of its source season. -/
def resolveEpisodeMapping (request : EpisodeMappingRequest) : EpisodeMappingResult :=
  if !validSourceCoordinate request.source || !validSourceCoordinate request.anchorSource then
    pendingMapping 0 {} "mapping_source_invalid"
  else if request.source.episodeFractionHundredths ≠ 0 ∨
      request.anchorSource.episodeFractionHundredths ≠ 0 then
    pendingMapping 0 {} "mapping_source_requires_explicit"
  else if request.source.season ≠ request.anchorSource.season then
    pendingMapping 0 {} "mapping_source_season_mismatch"
  else match absoluteEpisodeForTarget request.anchorTarget request.tmdbSeasons with
  | none => pendingMapping 0 request.anchorTarget "mapping_anchor_target_invalid"
  | some anchorAbsolute =>
    let absolute := int64 (anchorAbsolute + request.source.episode - request.anchorSource.episode)
    if absolute ≤ 0 then pendingMapping 0 {} "mapping_target_out_of_range"
    else match targetForAbsoluteEpisode absolute request.tmdbSeasons with
    | none => pendingMapping absolute {} "mapping_target_out_of_range"
    | some target =>
      match resolveTargetTitle request.tmdbSeasons target with
      | .error code => pendingMapping absolute target code
      | .ok title =>
        { status := .mapped, absoluteEpisode := absolute, target, targetTitle := title
          matchSource := .anchor }

/-- What is mapped keeps its distance from the anchor. -/
theorem resolveEpisodeMapping_mapped {request result} (h : resolveEpisodeMapping request = result)
    (hmapped : result.status = .mapped) : ∃ anchorAbsolute,
      absoluteEpisodeForTarget request.anchorTarget request.tmdbSeasons = some anchorAbsolute ∧
      result.absoluteEpisode =
        int64 (anchorAbsolute + request.source.episode - request.anchorSource.episode) ∧
      targetForAbsoluteEpisode result.absoluteEpisode request.tmdbSeasons = some result.target ∧
      result.matchSource = .anchor := by
  -- Every other way out is a pending mapping.
  have hpending : ∀ absolute target code, pendingMapping absolute target code ≠ result := by
    rintro absolute target code rfl
    cases hmapped
  unfold resolveEpisodeMapping at h
  split_ifs at h
  · exact absurd h (hpending _ _ _)
  · exact absurd h (hpending _ _ _)
  · exact absurd h (hpending _ _ _)
  · split at h
    · exact absurd h (hpending _ _ _)
    · rename_i anchorAbsolute hanchor
      dsimp only at h
      refine ⟨anchorAbsolute, hanchor, ?_⟩
      split_ifs at h
      · exact absurd h (hpending _ _ _)
      · split at h
        · exact absurd h (hpending _ _ _)
        · rename_i target htarget
          split at h
          · exact absurd h (hpending _ _ _)
          · subst h
            exact ⟨rfl, htarget, rfl⟩

/-! ## Explicit targets -/

/-- One target of the catalog, given for its source. The regular seasons are counted only to
report the target's absolute number; the specials have none. -/
def resolveExplicitEpisodeMapping (source target : EpisodeCoordinate) (seasons : List TMDbSeason) :
    EpisodeMappingResult :=
  if !validSourceCoordinate source then pendingMapping 0 {} "mapping_source_invalid"
  else if !validTargetCoordinate target then pendingMapping 0 target "mapping_target_out_of_range"
  else match resolveTargetTitle seasons target with
  | .error code => pendingMapping 0 target code
  | .ok title =>
    let mapped (absolute : Int) : EpisodeMappingResult :=
      { status := .mapped, absoluteEpisode := absolute, target, targetTitle := title
        matchSource := .explicit }
    if 0 < target.season then
      match absoluteEpisodeForTarget target seasons with
      | none => pendingMapping 0 target "mapping_target_out_of_range"
      | some absolute => mapped absolute
    else mapped 0

section Explicit

variable {source target : EpisodeCoordinate} {seasons : List TMDbSeason}

/-- An anchor on the source itself comes back to its target: its number is found among the regular
seasons exactly where the target was counted. -/
theorem resolveEpisodeMapping_self (hcolumns : Columns seasons)
    (hsource : validSourceCoordinate source = true)
    (hintegral : source.episodeFractionHundredths = 0) :
    resolveEpisodeMapping ⟨source, source, target, seasons⟩ =
      match absoluteEpisodeForTarget target seasons with
      | none => pendingMapping 0 target "mapping_anchor_target_invalid"
      | some absolute =>
        match resolveTargetTitle seasons target with
        | .error code => pendingMapping absolute target code
        | .ok title =>
          { status := .mapped, absoluteEpisode := absolute, target, targetTitle := title
            matchSource := .anchor } := by
  rw [resolveEpisodeMapping]
  simp only [hsource, hintegral, Bool.not_true, Bool.or_self, Bool.false_eq_true, ne_eq,
    not_true_eq_false, or_self, if_false]
  cases habsolute : absoluteEpisodeForTarget target seasons with
  | none => rfl
  | some absolute =>
    obtain ⟨hpos, -, htarget⟩ := absoluteEpisodeForTarget_some hcolumns habsolute
    have hself := hcolumns.int64_absolute habsolute
    simp [hself, if_neg (show ¬ absolute ≤ 0 by omega), htarget]

/-- For a whole source episode and a target in a regular season, giving the target explicitly and
anchoring the source to it say the same: the title is looked up for the same target on both ways,
and counting up to a target and back returns it. -/
theorem explicit_mapping_agrees_with_anchor (hcolumns : Columns seasons)
    (hsource : validSourceCoordinate source = true)
    (hintegral : source.episodeFractionHundredths = 0) (hregular : 0 < target.season) :
    (((resolveExplicitEpisodeMapping source target seasons).status = .mapped ∧
        (resolveEpisodeMapping ⟨source, source, target, seasons⟩).status = .mapped) ∨
      ((resolveExplicitEpisodeMapping source target seasons).status = .pending ∧
        (resolveEpisodeMapping ⟨source, source, target, seasons⟩).status = .pending)) ∧
    ((resolveExplicitEpisodeMapping source target seasons).status = .mapped →
      (resolveExplicitEpisodeMapping source target seasons).target =
          (resolveEpisodeMapping ⟨source, source, target, seasons⟩).target ∧
        (resolveExplicitEpisodeMapping source target seasons).absoluteEpisode =
          (resolveEpisodeMapping ⟨source, source, target, seasons⟩).absoluteEpisode ∧
        (resolveExplicitEpisodeMapping source target seasons).targetTitle =
          (resolveEpisodeMapping ⟨source, source, target, seasons⟩).targetTitle) := by
  rw [resolveEpisodeMapping_self hcolumns hsource hintegral, resolveExplicitEpisodeMapping]
  simp only [hsource, if_pos hregular]
  cases habsolute : absoluteEpisodeForTarget target seasons with
  | none =>
    -- A target that has no number is pending on both ways, whatever its title.
    have hpending : (if (!validTargetCoordinate target) = true then
        pendingMapping 0 target "mapping_target_out_of_range"
      else match resolveTargetTitle seasons target with
        | .error code => pendingMapping 0 target code
        | .ok _ => pendingMapping 0 target "mapping_target_out_of_range").status = .pending := by
      split
      · rfl
      · split <;> rfl
    exact ⟨.inr ⟨hpending, rfl⟩, fun h => absurd (hpending.symm.trans h) (by decide)⟩
  | some absolute =>
    have hvalid : validTargetCoordinate target = true := by
      obtain ⟨⟨hseason, hepisode, hfraction⟩, -⟩ := absoluteEpisodeForTarget_eq_some.mp habsolute
      simp [validTargetCoordinate, hseason.le, hepisode, hfraction]
    simp only [hvalid]
    cases resolveTargetTitle seasons target with
    | error code => exact ⟨.inr ⟨rfl, rfl⟩, fun h => by cases h⟩
    | ok title => exact ⟨.inl ⟨rfl, rfl⟩, fun _ => ⟨rfl, rfl, rfl⟩⟩

/-- The second episode of the second season, in a catalog whose specials stand last. -/
theorem explicit_mapping_agrees_with_anchor_second :
    (resolveEpisodeMapping ⟨{ season := 1, episode := 7 }, { season := 1, episode := 7 },
        { season := 2, episode := 2 },
        [⟨2, 3, fun _ => "b"⟩, ⟨1, 5, fun _ => "a"⟩, ⟨0, 4, fun _ => "s"⟩]⟩).absoluteEpisode = 7 ∧
      (resolveExplicitEpisodeMapping { season := 1, episode := 7 } { season := 2, episode := 2 }
        [⟨2, 3, fun _ => "b"⟩, ⟨1, 5, fun _ => "a"⟩, ⟨0, 4, fun _ => "s"⟩]).absoluteEpisode =
          7 := by
  have hagree := (@explicit_mapping_agrees_with_anchor { season := 1, episode := 7 }
    { season := 2, episode := 2 } [⟨2, 3, fun _ => "b"⟩, ⟨1, 5, fun _ => "a"⟩, ⟨0, 4, fun _ => "s"⟩]
    ⟨by decide, by decide⟩ (by decide) rfl (by decide)).2 (by decide +kernel)
  exact ⟨hagree.2.1.symm.trans (by decide +kernel), by decide +kernel⟩

end Explicit

end EmbyAuto
