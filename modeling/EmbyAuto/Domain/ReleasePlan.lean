import EmbyAuto.Domain.ReleaseIdentity
import EmbyAuto.Domain.ReleaseTitle

/-!
# Releases that need adjudication

A poll analyses each entry of a feed by its title, and asks for adjudication of the entries whose
episode it cannot tell. An entry with a clear episode is adjudicated too if a different release of
the poll claims the same episode; `planRSSReleaseAdjudication` collects these claims in two maps
and goes through one of them in the order of a Go map, which may be any.

## Main definitions

* `analyzeRSSRelease`: what the title and the link of an entry say
* `planRSSReleaseAdjudication`: the plan for all entries of a poll
* `contested`: another release claims the episode of an entry

## Main results

* `planRSSReleaseAdjudication_eq_map`: the plan entry by entry
* `planRSSReleaseAdjudication_spec`: the plan does not depend on the order of the entries, nor on
  copies of them
-/

namespace EmbyAuto

open Regexp

/-! ## The analysis of an entry -/

structure RSSReleaseAnalysis where
  sourceSeason : Int := 0
  sourceEpisode : Int := 0
  downloadable : Bool := false
  rejectionReasons : List String := []

def rssRangePattern : Regexp :=
  bounded (fun c => !c.isDigit) (fun c => !c.isDigit)
    [number 1 3, spaces, oneOf ['-', '~', '+', '&', '—', '–'], spaces, number 2 3]

def rssMarkedRangePattern : Regexp :=
  token [opt (seqs [word foldCase "s", digits 2, separators]), episodeMarker, separators, digits 4,
    release, spaces, oneOf ['-', '~', '+', '&'], spaces, opt episodeMarker, separators, digits 4,
    release]

/-- `\W`. -/
def isNotWord (c : Char) : Bool := !(c.isAlphanum || c = '_')

/-- The words stand between `\b`: no word character touches them. -/
def rssCompilationPattern : Regexp :=
  alts [word foldCase "総集編", word foldCase "总集篇", word foldCase "合集", word foldCase "合輯",
    word foldCase "全集",
    bounded isNotWord isNotWord
      [alts [word foldCase "recap", word foldCase "compilation", word foldCase "complete"]]]

section Analysis

variable (parseAuthority : String → Option String) (unicode : Unicode)

def isDownloadURI (rawURL : String) : Bool :=
  match parseURL parseAuthority (trimSpace rawURL) with
  | none => false
  | some url =>
    if '@' ∈ url.authority then false
    else if url.scheme = "magnet" then url.rawQuery ≠ []
    else if url.scheme = "http" ∨ url.scheme = "https" then url.host ≠ ""
    else false

/-- A keyword that is not blank stands in the lower-cased title. -/
def matchesKeyword (normalizedTitle keyword : String) : Bool :=
  trimSpace keyword ≠ "" && contains normalizedTitle (unicode.lower (trimSpace keyword))

/-- The reason of the title filters; empty if the title passes. -/
def rssFilterRejectionReason (title : String) (includeKeywords excludeKeywords : List String) :
    String :=
  let normalizedTitle := unicode.lower title
  if excludeKeywords.any (matchesKeyword unicode normalizedTitle) then "title_excluded"
  else if includeKeywords = [] then ""
  else if includeKeywords.any (matchesKeyword unicode normalizedTitle) then ""
  else "title_include_mismatch"

/-- The reason for which a title has no coordinate. -/
def RSSCoordinateParseStatus.reasons : RSSCoordinateParseStatus → List String
  | .matched => []
  | .ambiguous => ["episode_ambiguous"]
  | .fractional => ["fractional_episode_requires_explicit_mapping"]
  | .notFound => ["episode_not_detected"]

structure RSSFilter where
  defaultSeason : Int
  includeKeywords : List String := []
  excludeKeywords : List String := []

def analyzeRSSRelease (title downloadURI : String) (filter : RSSFilter) : RSSReleaseAnalysis :=
  let filterTitle := trimSpace title
  let normalizedTitle := normalizeRSSReleaseTitle filterTitle
  if rssRangePattern.isMatch normalizedTitle.toList ||
      rssMarkedRangePattern.isMatch normalizedTitle.toList then
    { rejectionReasons := ["episode_range_batch"] }
  else if extraTokenPattern.isMatch normalizedTitle.toList ||
      rssCompilationPattern.isMatch normalizedTitle.toList then
    { rejectionReasons := ["non_episode_extra"] }
  else
    let coordinate := parseRSSReleaseCoordinate normalizedTitle filter.defaultSeason
    let reason := rssFilterRejectionReason unicode filterTitle filter.includeKeywords
      filter.excludeKeywords
    let rejectionReasons := coordinate.status.reasons ++
      (if isDownloadURI parseAuthority downloadURI then [] else ["download_uri_missing"]) ++
      if reason ≠ "" then [reason] else []
    { sourceSeason := if coordinate.status = .matched then coordinate.sourceSeason else 0
      sourceEpisode := if coordinate.status = .matched then coordinate.sourceEpisode else 0
      downloadable := rejectionReasons = []
      rejectionReasons }

/-- Only the episode is missing. -/
def canAdjudicateRSSReleaseAnalysis (analysis : RSSReleaseAnalysis) : Bool :=
  !analysis.downloadable && analysis.rejectionReasons ≠ [] &&
    analysis.rejectionReasons.all fun reason =>
      reason = "episode_not_detected" || reason = "episode_ambiguous"

end Analysis

/-! ## The plan -/

section Plan

variable (parseAuthority : String → Option String) (unicode : Unicode)
  (sha256 : List UInt8 → List UInt8) (filter : RSSFilter)

def RSSFeedEntry.analysis (entry : RSSFeedEntry) : RSSReleaseAnalysis :=
  analyzeRSSRelease parseAuthority unicode entry.title entry.downloadURI filter

def RSSFeedEntry.coordinate (entry : RSSFeedEntry) : EpisodeCoordinate :=
  { season := (entry.analysis parseAuthority unicode filter).sourceSeason
    episode := (entry.analysis parseAuthority unicode filter).sourceEpisode }

/-- The maps of the loop over the entries. -/
structure RSSPlan where
  planned : List Bool := []
  coordinates : AList fun _ : EpisodeCoordinate => List Nat := ∅
  identities : AList fun _ : EpisodeCoordinate => List String := ∅

/-- One round of the loop: `planned` grows with the entries. -/
def RSSPlan.add (plan : RSSPlan) (entry : RSSFeedEntry) : RSSPlan :=
  let analysis := entry.analysis parseAuthority unicode filter
  let planned := plan.planned ++ [canAdjudicateRSSReleaseAnalysis analysis]
  match analysis.downloadable, buildRSSFeedEntryIdentity parseAuthority unicode sha256 entry with
  | true, .ok identity =>
    let coordinate := entry.coordinate parseAuthority unicode filter
    { planned
      coordinates := plan.coordinates.insert coordinate
        ((plan.coordinates.lookup coordinate).getD [] ++ [plan.planned.length])
      identities := plan.identities.insert coordinate
        (((plan.identities.lookup coordinate).getD []).insert identity) }
  | _, _ => { plan with planned }

/-- The second loop, over the coordinates in the order of the map. -/
def RSSPlan.markContested (plan : RSSPlan) (order : List EpisodeCoordinate) : List Bool :=
  order.foldl (fun planned coordinate =>
    if ((plan.identities.lookup coordinate).getD []).length < 2 then planned
    else ((plan.coordinates.lookup coordinate).getD []).foldl
      (fun planned index => planned.set index true) planned) plan.planned

/-- The plan; `mapOrder` is the order in which the map of coordinates is ranged over. -/
def planRSSReleaseAdjudication (mapOrder : List EpisodeCoordinate → List EpisodeCoordinate)
    (entries : List RSSFeedEntry) : List Bool :=
  let plan := entries.foldl (RSSPlan.add parseAuthority unicode sha256 filter) {}
  plan.markContested (mapOrder plan.coordinates.keys)

end Plan

/-! ## What the loops do -/

theorem getElem?_foldl_set (indexes : List Nat) (planned : List Bool) (i : Nat) :
    (indexes.foldl (fun planned index => planned.set index true) planned)[i]? =
      planned[i]?.map (· || decide (i ∈ indexes)) := by
  induction indexes generalizing planned with
  | nil => simp
  | cons index indexes ih =>
    rw [List.foldl_cons, ih, List.getElem?_set]
    split_ifs with heq hlt
    · subst heq
      simp [List.getElem?_eq_getElem hlt]
    · subst heq
      simp [List.getElem?_eq_none (not_lt.mp hlt)]
    · simp [Ne.symm heq]

theorem RSSPlan.getElem?_markContested (plan : RSSPlan) (order : List EpisodeCoordinate) (i : Nat) :
    (plan.markContested order)[i]? = plan.planned[i]?.map (· || order.any fun coordinate =>
      2 ≤ ((plan.identities.lookup coordinate).getD []).length &&
        i ∈ (plan.coordinates.lookup coordinate).getD []) := by
  unfold RSSPlan.markContested
  generalize plan.planned = planned
  induction order generalizing planned with
  | nil => simp
  | cons coordinate order ih =>
    rw [List.foldl_cons, ih]
    split_ifs with hfew
    · simp [not_le.mpr hfew]
    · rw [getElem?_foldl_set, Option.map_map]
      congr 1
      funext marked
      simp [not_lt.mp hfew, Bool.or_assoc]

section Claims

variable {parseAuthority : String → Option String} {unicode : Unicode}
  {sha256 : List UInt8 → List UInt8} {filter : RSSFilter}

/-- The coordinate and the identity with which an entry takes part. -/
def RSSFeedEntry.claim? (parseAuthority : String → Option String) (unicode : Unicode)
    (sha256 : List UInt8 → List UInt8) (filter : RSSFilter) (entry : RSSFeedEntry) :
    Option (EpisodeCoordinate × String) :=
  match (entry.analysis parseAuthority unicode filter).downloadable,
    buildRSSFeedEntryIdentity parseAuthority unicode sha256 entry with
  | true, .ok identity => some (entry.coordinate parseAuthority unicode filter, identity)
  | _, _ => none

/-- The maps hold the claims of the entries seen so far. -/
structure RSSPlan.Holds (parseAuthority : String → Option String) (unicode : Unicode)
    (sha256 : List UInt8 → List UInt8) (filter : RSSFilter) (plan : RSSPlan)
    (seen : List RSSFeedEntry) : Prop where
  planned : plan.planned = seen.map fun entry =>
    canAdjudicateRSSReleaseAnalysis (entry.analysis parseAuthority unicode filter)
  indexes : ∀ coordinate i, i ∈ (plan.coordinates.lookup coordinate).getD [] ↔
    ∃ entry identity, seen[i]? = some entry ∧
      entry.claim? parseAuthority unicode sha256 filter = some (coordinate, identity)
  identities : ∀ coordinate identity, identity ∈ (plan.identities.lookup coordinate).getD [] ↔
    ∃ entry ∈ seen, entry.claim? parseAuthority unicode sha256 filter = some (coordinate, identity)
  nodup : ∀ coordinate, ((plan.identities.lookup coordinate).getD []).Nodup

/-- One round, by the claim of the entry. -/
theorem RSSPlan.add_eq (plan : RSSPlan) (entry : RSSFeedEntry) :
    plan.add parseAuthority unicode sha256 filter entry =
      match entry.claim? parseAuthority unicode sha256 filter with
      | none => { plan with
          planned := plan.planned ++ [canAdjudicateRSSReleaseAnalysis
            (entry.analysis parseAuthority unicode filter)] }
      | some (coordinate, identity) =>
        { planned := plan.planned ++ [canAdjudicateRSSReleaseAnalysis
            (entry.analysis parseAuthority unicode filter)]
          coordinates := plan.coordinates.insert coordinate
            ((plan.coordinates.lookup coordinate).getD [] ++ [plan.planned.length])
          identities := plan.identities.insert coordinate
            (((plan.identities.lookup coordinate).getD []).insert identity) } := by
  unfold RSSPlan.add RSSFeedEntry.claim?
  generalize entry.analysis parseAuthority unicode filter = analysis
  generalize buildRSSFeedEntryIdentity parseAuthority unicode sha256 entry = result
  obtain ⟨season, episode, downloadable, reasons⟩ := analysis
  cases downloadable with
  | false => rfl
  | true => cases result <;> rfl

theorem getElem?_concat_eq_some {seen} {entry other : RSSFeedEntry} {i : Nat} :
    (seen ++ [entry])[i]? = some other ↔
      seen[i]? = some other ∨ i = seen.length ∧ other = entry := by
  rw [List.getElem?_append]
  split_ifs with hlt
  · simp [hlt.ne]
  · have hnone : seen[i]? = none := List.getElem?_eq_none (not_lt.mp hlt)
    rcases (not_lt.mp hlt).eq_or_lt with heq | hgt
    · simp [← heq, eq_comm]
    · simp [hnone, hgt.ne', Nat.sub_eq_zero_iff_le, not_le.mpr hgt]

theorem RSSPlan.Holds.add {plan : RSSPlan} {seen}
    (h : plan.Holds parseAuthority unicode sha256 filter seen) (entry : RSSFeedEntry) :
    (plan.add parseAuthority unicode sha256 filter entry).Holds parseAuthority unicode sha256 filter
      (seen ++ [entry]) := by
  have hlength : plan.planned.length = seen.length := by rw [h.planned, List.length_map]
  have hplanned : plan.planned ++ [canAdjudicateRSSReleaseAnalysis
      (entry.analysis parseAuthority unicode filter)] = (seen ++ [entry]).map fun entry =>
        canAdjudicateRSSReleaseAnalysis (entry.analysis parseAuthority unicode filter) := by
    rw [h.planned, List.map_append, List.map_singleton]
  -- what the maps have to hold of a coordinate now: what they held, and the claim of the entry
  have hindexes (coordinate : EpisodeCoordinate) (i : Nat) :
      (∃ other identity, (seen ++ [entry])[i]? = some other ∧
        other.claim? parseAuthority unicode sha256 filter = some (coordinate, identity)) ↔
      i ∈ (plan.coordinates.lookup coordinate).getD [] ∨ i = seen.length ∧
        ∃ identity, entry.claim? parseAuthority unicode sha256 filter =
          some (coordinate, identity) := by
    simp only [getElem?_concat_eq_some, or_and_right, exists_or, ← h.indexes]
    simp
  have hidentities (coordinate : EpisodeCoordinate) (identity : String) :
      (∃ other ∈ seen ++ [entry],
        other.claim? parseAuthority unicode sha256 filter = some (coordinate, identity)) ↔
      identity ∈ (plan.identities.lookup coordinate).getD [] ∨
        entry.claim? parseAuthority unicode sha256 filter = some (coordinate, identity) := by
    simp [← h.identities]
  rw [RSSPlan.add_eq]
  cases hclaim : entry.claim? parseAuthority unicode sha256 filter with
  | none =>
    -- an entry without a claim changes no map
    exact ⟨hplanned, fun coordinate i => by rw [hindexes, hclaim]; simp,
      fun coordinate identity => by rw [hidentities, hclaim]; simp, h.nodup⟩
  | some claim =>
    obtain ⟨coordinate, identity⟩ := claim
    refine ⟨hplanned, fun coordinate' i => ?_, fun coordinate' identity' => ?_,
      fun coordinate' => ?_⟩
    · rw [hindexes, hclaim]
      by_cases heq : coordinate' = coordinate
      · subst heq
        simp [hlength]
      · simp [AList.lookup_insert_ne heq, Ne.symm heq]
    · rw [hidentities, hclaim]
      by_cases heq : coordinate' = coordinate
      · subst heq
        simp [or_comm, @eq_comm _ identity]
      · simp [AList.lookup_insert_ne heq, Ne.symm heq]
    · by_cases heq : coordinate' = coordinate
      · subst heq
        simpa using (h.nodup coordinate').insert
      · simpa [AList.lookup_insert_ne heq] using h.nodup coordinate'

theorem holds_foldl (entries : List RSSFeedEntry) :
    (entries.foldl (RSSPlan.add parseAuthority unicode sha256 filter) {}).Holds parseAuthority
      unicode sha256 filter entries := by
  induction entries using List.reverseRecOn with
  | nil => exact ⟨rfl, by simp, by simp, by simp⟩
  | append_singleton seen entry ih =>
    rw [List.foldl_append, List.foldl_cons, List.foldl_nil]
    exact ih.add entry

/-- A different release among the entries claims the episode of an entry. -/
def contested (parseAuthority : String → Option String) (unicode : Unicode)
    (sha256 : List UInt8 → List UInt8) (filter : RSSFilter) (entries : List RSSFeedEntry)
    (entry : RSSFeedEntry) : Bool :=
  (entry.claim? parseAuthority unicode sha256 filter).any fun claim => entries.any fun other =>
    (other.claim? parseAuthority unicode sha256 filter).any fun claim' =>
      claim'.1 = claim.1 && claim'.2 ≠ claim.2

theorem contested_iff {entries} {entry : RSSFeedEntry} :
    contested parseAuthority unicode sha256 filter entries entry = true ↔
      ∃ coordinate identity,
        entry.claim? parseAuthority unicode sha256 filter = some (coordinate, identity) ∧
        ∃ other ∈ entries, ∃ identity' ≠ identity,
          other.claim? parseAuthority unicode sha256 filter = some (coordinate, identity') := by
  simp only [contested, Option.any_eq_true, List.any_eq_true, Bool.and_eq_true, decide_eq_true_eq]
  constructor
  · rintro ⟨⟨coordinate, identity⟩, hclaim, other, hother, ⟨_, identity'⟩, hclaim', rfl, hne⟩
    exact ⟨_, identity, hclaim, other, hother, identity', hne, hclaim'⟩
  · rintro ⟨coordinate, identity, hclaim, other, hother, identity', hne, hclaim'⟩
    exact ⟨_, hclaim, other, hother, _, hclaim', rfl, hne⟩

/-- Distinct elements are two exactly if there is another one. -/
theorem two_le_length_iff {identities : List String} (hnodup : identities.Nodup) {identity : String}
    (hmem : identity ∈ identities) :
    2 ≤ identities.length ↔ ∃ identity' ∈ identities, identity' ≠ identity := by
  constructor
  · intro hlength
    by_contra hnone
    push Not at hnone
    have hsingle : identities = List.replicate identities.length identity :=
      List.eq_replicate_iff.mpr ⟨rfl, hnone⟩
    rw [hsingle, List.nodup_replicate] at hnodup
    omega
  · rintro ⟨identity', hmem', hne⟩
    have hsub : [identity, identity'].Subperm identities :=
      List.subperm_of_subset (by simp [hne.symm]) (by simp [hmem, hmem'])
    exact hsub.length_le

/-- **The plan entry by entry.** -/
theorem planRSSReleaseAdjudication_eq_map {mapOrder}
    (horder : ∀ keys, (mapOrder keys).Perm keys) (entries : List RSSFeedEntry) :
    planRSSReleaseAdjudication parseAuthority unicode sha256 filter mapOrder entries =
      entries.map fun entry =>
        canAdjudicateRSSReleaseAnalysis (entry.analysis parseAuthority unicode filter) ||
          contested parseAuthority unicode sha256 filter entries entry := by
  have hholds := @holds_foldl parseAuthority unicode sha256 filter entries
  rw [planRSSReleaseAdjudication]
  generalize entries.foldl (RSSPlan.add parseAuthority unicode sha256 filter) {} = plan at hholds ⊢
  refine List.ext_getElem? fun i => ?_
  rw [RSSPlan.getElem?_markContested, hholds.planned, List.getElem?_map, List.getElem?_map]
  cases hentry : entries[i]? with
  | none => rw [Option.map_none, Option.map_none, Option.map_none]
  | some entry =>
    refine congrArg some (congrArg (Bool.or _) ?_)
    rw [Bool.eq_iff_iff, contested_iff, List.any_eq_true]
    constructor
    · rintro ⟨coordinate, -, hmarked⟩
      rw [Bool.and_eq_true, decide_eq_true_eq, decide_eq_true_eq, hholds.indexes] at hmarked
      obtain ⟨htwo, other, identity, hother, hclaim⟩ := hmarked
      obtain rfl : other = entry := Option.some.inj (hother.symm.trans hentry)
      have hlisted := (hholds.identities coordinate identity).mpr
        ⟨other, List.mem_of_getElem? hentry, hclaim⟩
      obtain ⟨identity', hmem', hne⟩ :=
        (two_le_length_iff (hholds.nodup coordinate) hlisted).mp htwo
      obtain ⟨rival, hrival, hclaim'⟩ := (hholds.identities coordinate identity').mp hmem'
      exact ⟨coordinate, identity, hclaim, rival, hrival, identity', hne, hclaim'⟩
    · rintro ⟨coordinate, identity, hclaim, rival, hrival, identity', hne, hclaim'⟩
      have hindex := (hholds.indexes coordinate i).mpr ⟨entry, identity, hentry, hclaim⟩
      have hlisted := (hholds.identities coordinate identity).mpr
        ⟨entry, List.mem_of_getElem? hentry, hclaim⟩
      have htwo := (two_le_length_iff (hholds.nodup coordinate) hlisted).mpr
        ⟨identity', (hholds.identities coordinate identity').mpr ⟨rival, hrival, hclaim'⟩, hne⟩
      -- the coordinate is a key of the map, so the second loop reaches it
      have hkey : coordinate ∈ plan.coordinates.keys := by
        rw [← AList.mem_keys, ← AList.lookup_isSome]
        by_contra hnone
        rw [Option.not_isSome_iff_eq_none.mp hnone] at hindex
        cases hindex
      refine ⟨coordinate, (horder _).mem_iff.mpr hkey, ?_⟩
      rw [Bool.and_eq_true, decide_eq_true_eq, decide_eq_true_eq]
      exact ⟨htwo, hindex⟩

theorem claim?_eq_some {entry : RSSFeedEntry} {coordinate} {identity : String} :
    entry.claim? parseAuthority unicode sha256 filter = some (coordinate, identity) ↔
      (entry.analysis parseAuthority unicode filter).downloadable = true ∧
      buildRSSFeedEntryIdentity parseAuthority unicode sha256 entry = .ok identity ∧
      entry.coordinate parseAuthority unicode filter = coordinate := by
  unfold RSSFeedEntry.claim?
  generalize entry.analysis parseAuthority unicode filter = analysis
  generalize buildRSSFeedEntryIdentity parseAuthority unicode sha256 entry = result
  obtain ⟨season, episode, downloadable, reasons⟩ := analysis
  cases downloadable with
  | false => simp
  | true =>
    cases result with
    | error message => simp
    | ok found => simp [and_comm]

/-- Only the claims of the entries matter. -/
theorem contested_congr {entries entries'}
    (h : ∀ claim, (∃ entry ∈ entries,
      entry.claim? parseAuthority unicode sha256 filter = some claim) ↔
      ∃ entry ∈ entries', entry.claim? parseAuthority unicode sha256 filter = some claim) :
    contested parseAuthority unicode sha256 filter entries =
      contested parseAuthority unicode sha256 filter entries' := by
  funext entry
  rw [Bool.eq_iff_iff, contested_iff, contested_iff]
  refine exists_congr fun coordinate => exists_congr fun identity => and_congr_right fun _ => ?_
  constructor
  · rintro ⟨other, hother, identity', hne, hclaim⟩
    obtain ⟨rival, hrival, hclaim'⟩ := (h _).mp ⟨other, hother, hclaim⟩
    exact ⟨rival, hrival, identity', hne, hclaim'⟩
  · rintro ⟨other, hother, identity', hne, hclaim⟩
    obtain ⟨rival, hrival, hclaim'⟩ := (h _).mpr ⟨other, hother, hclaim⟩
    exact ⟨rival, hrival, identity', hne, hclaim'⟩

/-- **What is planned**: the entries whose episode is missing, and the downloadable ones whose
episode a different release of the poll claims. The order of the entries does not matter, copies of
their claims change nothing, and one release alone is never planned for its episode. -/
theorem planRSSReleaseAdjudication_spec {mapOrder : List EpisodeCoordinate → List EpisodeCoordinate}
    (horder : ∀ keys, (mapOrder keys).Perm keys) (entries : List RSSFeedEntry) :
    (∀ (i : Nat) (entry : RSSFeedEntry), entries[i]? = some entry →
      ((planRSSReleaseAdjudication parseAuthority unicode sha256 filter mapOrder entries)[i]? =
          some true ↔
        canAdjudicateRSSReleaseAnalysis (entry.analysis parseAuthority unicode filter) = true ∨
        (entry.analysis parseAuthority unicode filter).downloadable = true ∧
        ∃ identity, buildRSSFeedEntryIdentity parseAuthority unicode sha256 entry = .ok identity ∧
        ∃ (j : Nat) (other : RSSFeedEntry) (identity' : String), j ≠ i ∧ entries[j]? = some other ∧
          (other.analysis parseAuthority unicode filter).downloadable = true ∧
          buildRSSFeedEntryIdentity parseAuthority unicode sha256 other = .ok identity' ∧
          identity' ≠ identity ∧
          other.coordinate parseAuthority unicode filter =
            entry.coordinate parseAuthority unicode filter)) ∧
    (∀ entries', entries'.Perm entries → ∃ mark : RSSFeedEntry → Bool,
      planRSSReleaseAdjudication parseAuthority unicode sha256 filter mapOrder entries =
        entries.map mark ∧
      planRSSReleaseAdjudication parseAuthority unicode sha256 filter mapOrder entries' =
        entries'.map mark) ∧
    (∀ copies, (∀ copy ∈ copies, ∀ claim,
        copy.claim? parseAuthority unicode sha256 filter = some claim →
        ∃ entry ∈ entries, entry.claim? parseAuthority unicode sha256 filter = some claim) →
      (planRSSReleaseAdjudication parseAuthority unicode sha256 filter mapOrder
        (entries ++ copies)).take entries.length =
      planRSSReleaseAdjudication parseAuthority unicode sha256 filter mapOrder entries) ∧
    ∀ identity, (∀ entry ∈ entries,
        (entry.analysis parseAuthority unicode filter).downloadable = true →
        ∀ found, buildRSSFeedEntryIdentity parseAuthority unicode sha256 entry = .ok found →
          found = identity) →
      planRSSReleaseAdjudication parseAuthority unicode sha256 filter mapOrder entries =
        entries.map fun entry =>
          canAdjudicateRSSReleaseAnalysis (entry.analysis parseAuthority unicode filter) := by
  simp only [planRSSReleaseAdjudication_eq_map horder]
  refine ⟨?_, ?_, ?_, ?_⟩
  · intro i entry hentry
    rw [List.getElem?_map, hentry, Option.map_some, Option.some.injEq, Bool.or_eq_true,
      contested_iff]
    -- the rival is another entry: at one index there is only one identity
    refine or_congr_right ?_
    constructor
    · rintro ⟨coordinate, identity, hclaim, other, hother, identity', hne, hclaim'⟩
      obtain ⟨hdownloadable, hidentity, rfl⟩ := claim?_eq_some.mp hclaim
      obtain ⟨hdownloadable', hidentity', hcoordinate⟩ := claim?_eq_some.mp hclaim'
      obtain ⟨j, hj⟩ := List.mem_iff_getElem?.mp hother
      refine ⟨hdownloadable, identity, hidentity, j, other, identity', ?_, hj, hdownloadable',
        hidentity', hne, hcoordinate⟩
      rintro rfl
      obtain rfl : entry = other := Option.some.inj (hentry.symm.trans hj)
      exact hne (Except.ok.inj (hidentity'.symm.trans hidentity))
    · rintro ⟨hdownloadable, identity, hidentity, j, other, identity', -, hj, hdownloadable',
        hidentity', hne, hcoordinate⟩
      exact ⟨_, identity, claim?_eq_some.mpr ⟨hdownloadable, hidentity, rfl⟩, other,
        List.mem_of_getElem? hj, identity', hne,
        claim?_eq_some.mpr ⟨hdownloadable', hidentity', hcoordinate⟩⟩
  · intro entries' hperm
    -- only which claims are made counts, not their order or how often each is made
    have hclaims : contested parseAuthority unicode sha256 filter entries' =
        contested parseAuthority unicode sha256 filter entries :=
      contested_congr fun claim => by simp [hperm.mem_iff]
    exact ⟨_, rfl, by rw [hclaims]⟩
  · intro copies hcopies
    have hclaims : contested parseAuthority unicode sha256 filter (entries ++ copies) =
        contested parseAuthority unicode sha256 filter entries := by
      refine contested_congr fun claim => ⟨?_, ?_⟩
      · rintro ⟨entry, hentry, hclaim⟩
        rcases List.mem_append.mp hentry with hentry | hcopy
        · exact ⟨entry, hentry, hclaim⟩
        · exact hcopies entry hcopy claim hclaim
      · rintro ⟨entry, hentry, hclaim⟩
        exact ⟨entry, List.mem_append_left _ hentry, hclaim⟩
    rw [hclaims, List.map_append, List.take_left' (List.length_map _)]
  · intro identity hsame
    have halone : ∀ entry ∈ entries,
        contested parseAuthority unicode sha256 filter entries entry = false := by
      intro entry hentry
      rw [Bool.eq_false_iff]
      intro hcontested
      obtain ⟨coordinate, found, hclaim, other, hother, found', hne, hclaim'⟩ :=
        contested_iff.mp hcontested
      obtain ⟨hdownloadable, hfound, -⟩ := claim?_eq_some.mp hclaim
      obtain ⟨hdownloadable', hfound', -⟩ := claim?_eq_some.mp hclaim'
      exact hne ((hsame other hother hdownloadable' found' hfound').trans
        (hsame entry hentry hdownloadable found hfound).symm)
    refine List.map_congr_left fun entry hentry => ?_
    rw [halone entry hentry, Bool.or_false]

end Claims

def sampleEntry : RSSFeedEntry := { title := "EP 1", downloadURI := magnetOf hexadecimalOne }

theorem plan_of_copies :
    (sampleEntry.analysis some asciiUnicode { defaultSeason := 1 }).downloadable = true ∧
    planRSSReleaseAdjudication some asciiUnicode id { defaultSeason := 1 } id
        [sampleEntry, sampleEntry] =
      [sampleEntry, sampleEntry].map fun entry =>
        canAdjudicateRSSReleaseAnalysis
          (entry.analysis some asciiUnicode { defaultSeason := 1 }) := by
  refine ⟨by decide +kernel, (planRSSReleaseAdjudication_spec (fun keys => List.Perm.refl keys)
    [sampleEntry, sampleEntry]).2.2.2 ("btih:" ++ hashText 1) ?_⟩
  intro entry hentry _ found hfound
  obtain rfl : entry = sampleEntry := by simpa using hentry
  have hcarries : CarriesHash some sampleEntry.downloadURI 1 hexadecimalOne :=
    carriesHash_hexadecimalOne
  rw [buildRSSFeedEntryIdentity_of_carries ascii_asciiUnicode hcarries
    linkWithinMax_hexadecimalOne] at hfound
  exact (Except.ok.inj hfound).symm

end EmbyAuto
