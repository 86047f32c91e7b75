import EmbyAuto.Domain.FileSelection
import EmbyAuto.Ranking.Select
import EmbyAuto.Regexp.Scan
import EmbyAuto.Validation.Loop

/-!
# Selecting the files of an episode

`SelectDownloadFiles` classifies a manifest, keeps the best video of each coordinate, and adds up
to eight subtitles of the same coordinate, the best ones first. The files stay where they are in
the list; those that were chosen are marked.

## Main definitions

* `subtitleMetadataEvidence`, `subtitleScore`: what makes a subtitle eligible, and better
* `selectSubtitles`: the subtitles of one video
* `selectDownloadFiles`: the selection

## Main results

* `selectDownloadFiles_spec`: what is selected
* `selectDownloadFiles_perm`: the order of the manifest does not matter
-/

namespace EmbyAuto

open Ranking Validation

/-! ## Evidence in labels -/

inductive SubtitleEvidence where
  | simplified | mixed | traditional | generic | unknown | other
  deriving DecidableEq

def subtitleEvidenceScore : SubtitleEvidence → Int
  | .simplified => 400
  | .mixed => 300
  | .traditional => 250
  | .generic => 200
  | .unknown => 100
  | .other => 0

def subtitleLabelEvidence (signals : SubtitleLabelSignals) (fallback : SubtitleEvidence) :
    SubtitleEvidence :=
  if signals.simplified && signals.traditional then .mixed
  else if signals.simplified then .simplified
  else if signals.traditional then .traditional
  else if signals.otherLanguage then .other
  else fallback

section Score

variable (unicode : Unicode)

def subtitleMetadataEvidence (language label : String) : SubtitleEvidence :=
  let hyphens := (trimSpace language).toList.map fun c => if c = '_' then '-' else c
  let language := unicode.lower (.ofList hyphens)
  let signals := subtitleLabelSignals unicode label
  if language ∈ ["zh-hans", "zh-cn", "zh-sg", "chs", "sc", "gb", "gb2312", "gbk"] then
    if signals.traditional then .mixed else .simplified
  else if language ∈ ["zh-hant", "zh-tw", "zh-hk", "zh-mo", "cht", "tc", "big5"] then
    if signals.simplified then .mixed else .traditional
  else if language ∈ ["", "und", "unknown"] then subtitleLabelEvidence signals .unknown
  else if language ∈ ["chi", "zho", "zh"] then subtitleLabelEvidence signals .generic
  else .other

section Patterns

open Regexp

/-- The tokens of languages at the end of a name. -/
def languageToken : Regexp :=
  let fixed (text : String) := word foldCase text
  let joined (script : String) (rest : Regexp) := seqs [fixed script, separators, rest]
  let japanese := seq (fixed "jp") (opt (fixed "n"))
  let english := seq (fixed "en") (opt (fixed "g"))
  let bilingual (text : String) := seq (fixed text) (opt (fixed "双语"))
  let chinese (text : String) := seq (fixed text) (opt (fixed "中文"))
  alts [joined "zh" (alts (["hans", "hant", "cn", "sg", "tw", "hk", "mo"].map fixed)),
    fixed "chs", fixed "cht", fixed "sc", fixed "tc",
    seq (fixed "gb") (opt (alt (fixed "2312") (fixed "k"))), fixed "big5",
    fixed "scjp", fixed "tcjp", fixed "jpsc", fixed "jptc",
    joined "chs" japanese, joined "cht" japanese, joined "sc" japanese, joined "tc" japanese,
    joined "chs" english, joined "cht" english, joined "sc" english, joined "tc" english,
    bilingual "简日", bilingual "繁日", fixed "日简", fixed "日繁", bilingual "中日",
    bilingual "中英", fixed "简英", fixed "繁英", fixed "双语", chinese "简体", chinese "簡體",
    fixed "简中", fixed "簡中", fixed "繁中", fixed "简繁", fixed "繁简",
    fixed "ja", fixed "jpn", fixed "jp", fixed "en", fixed "eng"]

def trailingLanguagePattern : Regexp :=
  seqs [plus (oneOf [' ', '.', '_', '-']), languageToken, textEnd]

/-- `[^[:alnum:]]+`. -/
def nonNamePattern : Regexp := plus (chars fun c => !c.isAlphanum)

end Patterns

def normalizedMediaStem (filePath : String) (stripLanguage : Bool) : String :=
  let stem := pathStem (forwardSlashes filePath)
  let stem := if stripLanguage then trailingLanguagePattern.replaceAll [] stem else stem
  let lower := (unicode.lower (.ofList stem)).toList
  trimSpace (.ofList (nonNamePattern.replaceAll [' '] lower))

def subtitleScore (subtitle video : ClassifiedDownloadFile) : Int :=
  let directory (file : ClassifiedDownloadFile) :=
    pathDir (forwardSlashes file.relativePath).toList
  (if normalizedMediaStem unicode subtitle.relativePath true =
      normalizedMediaStem unicode video.relativePath false then 1000 else 0) +
  (if directory subtitle = directory video then 100 else 0) +
  (if (pathExt subtitle.relativePath).toList.map foldCase = ".ass".toList then 10 else 0)

end Score

/-! ## The selection -/

def betterVideo (candidate current : ClassifiedDownloadFile) : Bool :=
  if candidate.sizeBytes ≠ current.sizeBytes then current.sizeBytes < candidate.sizeBytes
  else if candidate.index ≠ current.index then candidate.index < current.index
  else candidate.relativePath < current.relativePath

def subtitleTieBreak (candidate current : ClassifiedDownloadFile) : Bool :=
  if candidate.index ≠ current.index then candidate.index < current.index
  else candidate.relativePath < current.relativePath

def coordinateLess (left right : EpisodeCoordinate) : Bool :=
  if left.season ≠ right.season then left.season < right.season
  else if left.episode ≠ right.episode then left.episode < right.episode
  else left.episodeFractionHundredths < right.episodeFractionHundredths

structure SelectedEpisode where
  coordinate : EpisodeCoordinate
  video : ClassifiedDownloadFile
  subtitles : List ClassifiedDownloadFile
  deriving DecidableEq

structure FileSelectionResult where
  files : List ClassifiedDownloadFile
  episodes : List SelectedEpisode
  deriving DecidableEq

inductive SelectionError where
  | manifest (error : ManifestError)
  | noMainVideo
  deriving DecidableEq

/-- A file of the list with its position. -/
abbrev Entry := ClassifiedDownloadFile × Nat

def maxExternalSubtitleCandidates : Nat := 8

def videoCoordinate? (file : ClassifiedDownloadFile) : Option EpisodeCoordinate :=
  if file.kind ≠ .video ∨ file.coordinate.season ≤ 0 ∨ file.coordinate.episode ≤ 0 then none
  else some file.coordinate

/-- The map `videos`: the best video of each coordinate. -/
def bestVideos (entries : List Entry) : AList fun _ : EpisodeCoordinate => Entry :=
  bestByKey (fun entry => videoCoordinate? entry.1)
    (fun candidate current => betterVideo candidate.1 current.1) ∅ entries

def ClassifiedDownloadFile.mark (file : ClassifiedDownloadFile) : ClassifiedDownloadFile :=
  { file with selected := true }

section Select

variable (unicode : Unicode)

def fileEvidence (file : ClassifiedDownloadFile) : SubtitleEvidence :=
  subtitleMetadataEvidence unicode file.language (fileBase (forwardSlashes file.relativePath))

def subtitleEligible (coordinate : EpisodeCoordinate) (file : ClassifiedDownloadFile) : Bool :=
  file.kind = .subtitle && file.coordinate = coordinate && fileEvidence unicode file ≠ .other

/-- The score of a `subtitleFileChoice`. -/
def subtitleRank (video file : ClassifiedDownloadFile) : Int :=
  subtitleEvidenceScore (fileEvidence unicode file) * 10 + subtitleScore unicode file video

def subtitleBefore (video left right : ClassifiedDownloadFile) : Bool :=
  if subtitleRank unicode video left ≠ subtitleRank unicode video right then
    subtitleRank unicode video right < subtitleRank unicode video left
  else subtitleTieBreak left right

def selectSubtitles (entries : List Entry) (coordinate : EpisodeCoordinate)
    (video : ClassifiedDownloadFile) : List Entry :=
  let choices := entries.filter fun entry => subtitleEligible unicode coordinate entry.1
  (sortBy (fun left right => subtitleBefore unicode video left.1 right.1) choices).take
    maxExternalSubtitleCandidates

/-- The files that one round of the loop marks: a video and its subtitles. -/
structure Choice where
  coordinate : EpisodeCoordinate
  video : Entry
  subtitles : List Entry

def Choice.entries (choice : Choice) : List Entry := choice.video :: choice.subtitles

/-- The copies are taken after the marking. -/
def Choice.episode (choice : Choice) : SelectedEpisode where
  coordinate := choice.coordinate
  video := choice.video.1.mark
  subtitles := choice.subtitles.map fun entry => entry.1.mark

/-- The rounds of the loop over the sorted coordinates. What it marks does not reach the later
rounds: no function reads the mark. -/
def chosenFiles (entries : List Entry) : List Choice :=
  let videos := bestVideos entries
  (sortBy coordinateLess videos.keys).filterMap fun coordinate =>
    (videos.lookup coordinate).map fun video =>
      { coordinate, video, subtitles := selectSubtitles unicode entries coordinate video.1 }

def selectDownloadFiles (options : FileSelectionOptions) (files : List ManifestFile) :
    Except SelectionError FileSelectionResult :=
  match classifyDownloadFiles unicode options files with
  | .error error => .error (.manifest error)
  | .ok classified =>
    let entries := classified.zipIdx
    if (bestVideos entries).keys.isEmpty then .error .noMainVideo
    else
      let chosen := chosenFiles unicode entries
      .ok {
        files := entries.map fun entry =>
          if entry.2 ∈ (chosen.flatMap Choice.entries).map Prod.snd then entry.1.mark else entry.1
        episodes := chosen.map Choice.episode }

end Select

/-! ## The comparisons -/

theorem subtitleTieBreak_eq :
    subtitleTieBreak = thenBy (·.index) (thenBy (·.relativePath) fun _ _ => false) := by
  funext a b
  rw [subtitleTieBreak, thenBy, thenBy_false]

theorem betterVideo_eq :
    betterVideo = thenBy (fun f => OrderDual.toDual f.sizeBytes) subtitleTieBreak := by
  funext a b
  rw [thenBy_toDual, betterVideo, subtitleTieBreak]

theorem subtitleBefore_eq (unicode : Unicode) (video : ClassifiedDownloadFile) :
    subtitleBefore unicode video =
      thenBy (fun f => OrderDual.toDual (subtitleRank unicode video f)) subtitleTieBreak := by
  funext a b
  rw [thenBy_toDual, subtitleBefore]

theorem coordinateLess_eq : coordinateLess = thenBy (·.season) (thenBy (·.episode)
    (thenBy (·.episodeFractionHundredths) fun _ _ => false)) := by
  funext a b
  rw [coordinateLess, thenBy, thenBy, thenBy_false]

theorem subtitleTieBreak_comparison : Comparison subtitleTieBreak := by
  rw [subtitleTieBreak_eq]
  exact thenBy_comparison _ (thenBy_comparison _ comparison_false)

theorem betterVideo_comparison : Comparison betterVideo :=
  betterVideo_eq ▸ thenBy_comparison _ subtitleTieBreak_comparison

theorem subtitleBefore_comparison (unicode : Unicode) (video : ClassifiedDownloadFile) :
    Comparison (subtitleBefore unicode video) :=
  subtitleBefore_eq unicode video ▸ thenBy_comparison _ subtitleTieBreak_comparison

theorem coordinateLess_comparison : Comparison coordinateLess := by
  rw [coordinateLess_eq]
  exact thenBy_comparison _ (thenBy_comparison _ (thenBy_comparison _ comparison_false))

theorem coordinateLess_separates (l : List EpisodeCoordinate) : Separates coordinateLess l := by
  rw [coordinateLess_eq]
  intro a _ b _ hne
  refine thenBy_total fun hseason => thenBy_total fun hepisode => thenBy_total fun hfraction => ?_
  refine absurd ?_ hne
  rw [EpisodeCoordinate.mk.injEq]
  exact ⟨hseason, hepisode, hfraction⟩

/-- Files are told apart by their indexes, whatever is compared first. -/
theorem separates_of_index {β : Type*} [LinearOrder β] (key : ClassifiedDownloadFile → β) {files}
    (h : (files.map (·.index)).Nodup) : Separates (thenBy key subtitleTieBreak) files := by
  rw [subtitleTieBreak_eq]
  intro a ha b hb hne
  exact thenBy_total fun _ => thenBy_total fun hindex =>
    absurd (List.inj_on_of_nodup_map h ha hb hindex) hne

/-! ## Accepted manifests -/

/-- The checks of one file that do not depend on the others. -/
def ManifestFile.Accepted (file : ManifestFile) : Prop :=
  0 ≤ file.index ∧ relativeDownloadPathValid file.relativePath = true ∧ 0 ≤ file.sizeBytes

section Accepted

variable {unicode : Unicode} {options : FileSelectionOptions} {files : List ManifestFile}
  {classified : List ClassifiedDownloadFile}

theorem classifyFiles_ok_iff {seen : List Int} :
    classifyFiles unicode options seen files = .ok classified ↔
      (∀ f ∈ files, f.Accepted) ∧ (files.map (·.index)).Nodup ∧ (∀ f ∈ files, f.index ∉ seen) ∧
        classified = files.map (classifyFile unicode options) := by
  induction files generalizing seen classified with
  | nil => simp [classifyFiles]
  | cons file rest ih =>
    simp only [classifyFiles, ite_error_ok_iff, map_ok_iff, ih, List.forall_mem_cons, List.map_cons,
      List.nodup_cons]
    constructor
    · rintro ⟨hindex, hseen, hpath, hsize, _, ⟨hfiles, hnodup, hnew, rfl⟩, rfl⟩
      refine ⟨⟨⟨by omega, by simpa using hpath, by omega⟩, hfiles⟩, ⟨?_, hnodup⟩, ⟨hseen, ?_⟩, rfl⟩
      · rintro hmem
        obtain ⟨f, hf, heq⟩ := List.mem_map.mp hmem
        exact hnew f hf (heq ▸ List.mem_cons_self)
      · exact fun f hf hmem => hnew f hf (List.mem_cons_of_mem _ hmem)
    · rintro ⟨⟨⟨hindex, hpath, hsize⟩, hfiles⟩, ⟨hnotin, hnodup⟩, ⟨hseen, hnew⟩, rfl⟩
      refine ⟨by omega, hseen, by simpa using hpath, by omega, _, ⟨hfiles, hnodup, ?_, rfl⟩, rfl⟩
      intro f hf hmem
      rcases List.mem_cons.mp hmem with heq | hmem
      · exact hnotin (heq ▸ List.mem_map_of_mem hf)
      · exact hnew f hf hmem

/-- A manifest is accepted when each file is, and no index occurs twice. -/
theorem classifyDownloadFiles_ok_iff :
    classifyDownloadFiles unicode options files = .ok classified ↔
      0 < options.defaultSeason ∧ (options.singleEpisode = true → 0 < options.defaultEpisode) ∧
        (∀ f ∈ files, f.Accepted) ∧ (files.map (·.index)).Nodup ∧
        classified = files.map (classifyFile unicode options) := by
  simp [classifyDownloadFiles, ite_error_ok_iff, classifyFiles_ok_iff]

/-- The files of an accepted manifest are told apart by their indexes. -/
theorem classified_index (h : classifyDownloadFiles unicode options files = .ok classified) :
    (classified.map (·.index)).Nodup := by
  obtain ⟨-, -, -, hnodup, rfl⟩ := classifyDownloadFiles_ok_iff.mp h
  rw [List.map_map]
  exact hnodup

end Accepted

/-! ## What is chosen -/

variable {f : ClassifiedDownloadFile} {choice : Choice} {entry : Entry}

section Chosen

variable {unicode : Unicode} {classified : List ClassifiedDownloadFile}

variable {coordinate : EpisodeCoordinate} {file : ClassifiedDownloadFile}

theorem exists_entry (h : file ∈ classified) :
    ∃ position, (file, position) ∈ classified.zipIdx := by
  rw [← List.zipIdx_map_fst 0 classified] at h
  obtain ⟨⟨_, position⟩, hmem, rfl⟩ := List.mem_map.mp h
  exact ⟨position, hmem⟩

theorem entry_eq_of_index (hindex : (classified.map (·.index)).Nodup) {entry entry' : Entry}
    (h : entry ∈ classified.zipIdx) (h' : entry' ∈ classified.zipIdx)
    (heq : entry.1.index = entry'.1.index) : entry = entry' := by
  rw [← List.zipIdx_map_fst 0 classified, List.map_map] at hindex
  exact List.inj_on_of_nodup_map hindex h h' heq

/-- The video of a coordinate is a file with the coordinate, and no such file is better. -/
theorem bestVideos_some {video : Entry}
    (h : (bestVideos classified.zipIdx).lookup coordinate = some video) :
    video ∈ classified.zipIdx ∧ videoCoordinate? video.1 = some coordinate ∧
      ∀ file ∈ classified, videoCoordinate? file = some coordinate →
        betterVideo file video.1 = false := by
  have hbest := bestByKey_best (fun entry : Entry => videoCoordinate? entry.1)
    (betterVideo_comparison.comap Prod.fst) classified.zipIdx coordinate
  rw [bestVideos] at h
  rw [h] at hbest
  refine ⟨hbest.1, hbest.2.1, fun file hfile hcoordinate => ?_⟩
  obtain ⟨position, hmem⟩ := exists_entry hfile
  exact hbest.2.2 (file, position) hmem hcoordinate

theorem mem_keys_bestVideos :
    coordinate ∈ (bestVideos classified.zipIdx).keys ↔
      ∃ file ∈ classified, videoCoordinate? file = some coordinate := by
  rw [bestVideos, mem_keys_bestByKey (betterVideo_comparison.comap Prod.fst)]
  constructor
  · rintro ⟨entry, hentry, hcoordinate⟩
    exact ⟨entry.1, List.fst_mem_of_mem_zipIdx hentry, hcoordinate⟩
  · rintro ⟨file, hfile, hcoordinate⟩
    obtain ⟨position, hmem⟩ := exists_entry hfile
    exact ⟨(file, position), hmem, hcoordinate⟩

/-- The subtitles without their positions. -/
theorem selectSubtitles_fst (coordinate : EpisodeCoordinate) (video : ClassifiedDownloadFile) :
    (selectSubtitles unicode classified.zipIdx coordinate video).map Prod.fst =
      (sortBy (subtitleBefore unicode video)
        (classified.filter (subtitleEligible unicode coordinate))).take
          maxExternalSubtitleCandidates := by
  rw [selectSubtitles, List.map_take, map_sortBy, ← List.zipIdx_map_fst 0 classified,
    List.filter_map, List.zipIdx_map_fst]
  rfl

theorem mem_chosenFiles :
    choice ∈ chosenFiles unicode classified.zipIdx ↔
      (bestVideos classified.zipIdx).lookup choice.coordinate = some choice.video ∧
        choice.subtitles =
          selectSubtitles unicode classified.zipIdx choice.coordinate choice.video.1 := by
  simp only [chosenFiles, List.mem_filterMap, Option.map_eq_some_iff,
    (sortBy_perm coordinateLess _).mem_iff]
  constructor
  · rintro ⟨coordinate, -, video, hvideo, rfl⟩
    exact ⟨hvideo, rfl⟩
  · rintro ⟨hvideo, hsubtitles⟩
    refine ⟨choice.coordinate, ?_, choice.video, hvideo, by rw [← hsubtitles]⟩
    rw [← AList.mem_keys, ← AList.lookup_isSome, hvideo]
    rfl

theorem exists_choice (unicode : Unicode) {c} (hf : f ∈ classified)
    (hc : videoCoordinate? f = some c) :
    ∃ choice ∈ chosenFiles unicode classified.zipIdx, choice.coordinate = c := by
  have hkey := mem_keys_bestVideos.mpr ⟨f, hf, hc⟩
  rw [← AList.mem_keys, ← AList.lookup_isSome] at hkey
  obtain ⟨video, hlookup⟩ := Option.isSome_iff_exists.mp hkey
  exact ⟨⟨c, video, selectSubtitles unicode classified.zipIdx c video.1⟩,
    mem_chosenFiles.mpr ⟨hlookup, rfl⟩, rfl⟩

theorem mem_of_mem_selectSubtitles {video}
    (h : entry ∈ selectSubtitles unicode classified.zipIdx coordinate video) :
    entry ∈ classified.zipIdx ∧ subtitleEligible unicode coordinate entry.1 = true := by
  have hmem := (sortBy_perm _ _).mem_iff.mp (List.mem_of_mem_take h)
  rwa [List.mem_filter] at hmem

theorem videoCoordinate?_some :
    videoCoordinate? file = some coordinate ↔ file.kind = .video ∧ 0 < file.coordinate.season ∧
      0 < file.coordinate.episode ∧ file.coordinate = coordinate := by
  simp [videoCoordinate?, and_assoc]

theorem subtitleEligible_iff :
    subtitleEligible unicode coordinate file = true ↔ file.kind = .subtitle ∧
      file.coordinate = coordinate ∧ fileEvidence unicode file ≠ .other := by
  simp [subtitleEligible, and_assoc]

theorem coordinate_of_mem_entries (h : choice ∈ chosenFiles unicode classified.zipIdx)
    (hentry : entry ∈ choice.entries) :
    entry ∈ classified.zipIdx ∧ entry.1.coordinate = choice.coordinate := by
  obtain ⟨hvideo, hsubtitles⟩ := mem_chosenFiles.mp h
  rcases List.mem_cons.mp hentry with rfl | hentry
  · obtain ⟨hmem, hcoordinate, -⟩ := bestVideos_some hvideo
    exact ⟨hmem, (videoCoordinate?_some.mp hcoordinate).2.2.2⟩
  · rw [hsubtitles] at hentry
    obtain ⟨hmem, heligible⟩ := mem_of_mem_selectSubtitles hentry
    exact ⟨hmem, (subtitleEligible_iff.mp heligible).2.1⟩

theorem choice_eq_of_coordinate {choice choice' : Choice}
    (h : choice ∈ chosenFiles unicode classified.zipIdx)
    (h' : choice' ∈ chosenFiles unicode classified.zipIdx)
    (hcoordinate : choice.coordinate = choice'.coordinate) : choice = choice' := by
  obtain ⟨hvideo, hsubtitles⟩ := mem_chosenFiles.mp h
  obtain ⟨hvideo', hsubtitles'⟩ := mem_chosenFiles.mp h'
  obtain ⟨coordinate, video, subtitles⟩ := choice
  obtain ⟨coordinate', video', subtitles'⟩ := choice'
  obtain rfl : coordinate = coordinate' := hcoordinate
  obtain rfl : video = video' := Option.some.inj (hvideo.symm.trans hvideo')
  obtain rfl : subtitles = subtitles' := hsubtitles.trans hsubtitles'.symm
  rfl

/-- A position is marked exactly when its file is chosen. -/
theorem position_marked_iff (h : entry ∈ classified.zipIdx) :
    entry.2 ∈ ((chosenFiles unicode classified.zipIdx).flatMap Choice.entries).map Prod.snd ↔
      ∃ choice ∈ chosenFiles unicode classified.zipIdx, entry ∈ choice.entries := by
  constructor
  · intro hmarked
    obtain ⟨entry', hentry', hposition⟩ := List.mem_map.mp hmarked
    obtain ⟨choice, hchoice, hentry'⟩ := List.mem_flatMap.mp hentry'
    obtain rfl := List.inj_on_of_nodup_map (List.nodup_zipIdx_map_snd classified)
      (coordinate_of_mem_entries hchoice hentry').1 h hposition
    exact ⟨choice, hchoice, hentry'⟩
  · rintro ⟨choice, hchoice, hentry⟩
    exact List.mem_map_of_mem (List.mem_flatMap.mpr ⟨choice, hchoice, hentry⟩)

end Chosen

/-! ## The result -/

def SelectedEpisode.files (episode : SelectedEpisode) : List ClassifiedDownloadFile :=
  episode.video :: episode.subtitles

/-- What a selection is: one episode for each coordinate of a video, with its best video and its
best subtitles, and a mark on exactly these files. -/
structure Selected (unicode : Unicode) (files : List ManifestFile) (result : FileSelectionResult) :
    Prop where
  manifest : result.files.map (·.toManifestFile) = files
  sorted : result.episodes.Pairwise fun a b => coordinateLess a.coordinate b.coordinate = true
  coordinates : ∀ c, (∃ episode ∈ result.episodes, episode.coordinate = c) ↔
    ∃ f ∈ result.files, f.kind = .video ∧ 0 < f.coordinate.season ∧ 0 < f.coordinate.episode ∧
      f.coordinate = c
  video : ∀ episode ∈ result.episodes, episode.video ∈ result.files ∧ episode.video.kind = .video ∧
    episode.video.coordinate = episode.coordinate
  /-- every other video of the coordinate is smaller, or of the same size and listed later -/
  largest : ∀ episode ∈ result.episodes, ∀ f ∈ result.files, f.kind = .video →
    f.coordinate = episode.coordinate → f ≠ episode.video →
    f.sizeBytes < episode.video.sizeBytes ∨
      f.sizeBytes = episode.video.sizeBytes ∧ episode.video.index < f.index
  few : ∀ episode ∈ result.episodes, episode.subtitles.Nodup ∧ episode.subtitles.length ≤ 8
  subtitles : ∀ episode ∈ result.episodes, ∀ s ∈ episode.subtitles, s ∈ result.files ∧
    s.kind = .subtitle ∧ s.coordinate = episode.coordinate ∧ fileEvidence unicode s ≠ .other
  /-- a subtitle is only omitted for eight others, and it comes before none of them -/
  omitted : ∀ episode ∈ result.episodes, ∀ f ∈ result.files, f.kind = .subtitle →
    f.coordinate = episode.coordinate → fileEvidence unicode f ≠ .other → f ∉ episode.subtitles →
    episode.subtitles.length = 8 ∧
      ∀ s ∈ episode.subtitles, subtitleBefore unicode episode.video f s = false
  marked : ∀ f ∈ result.files, f.selected = true ↔ ∃ episode ∈ result.episodes, f ∈ episode.files
  disjoint : ∀ episode ∈ result.episodes, ∀ episode' ∈ result.episodes, ∀ f ∈ episode.files,
    f ∈ episode'.files → episode = episode'

section Result

variable {unicode : Unicode} {options : FileSelectionOptions} {files : List ManifestFile}
  {classified : List ClassifiedDownloadFile} {result : FileSelectionResult}

/-- The marked list and the episodes of a classification. -/
def selectionOf (unicode : Unicode) (classified : List ClassifiedDownloadFile) :
    FileSelectionResult where
  files := classified.zipIdx.map fun entry =>
    if entry.2 ∈ ((chosenFiles unicode classified.zipIdx).flatMap Choice.entries).map Prod.snd then
      entry.1.mark
    else entry.1
  episodes := (chosenFiles unicode classified.zipIdx).map Choice.episode

theorem selectDownloadFiles_ok_iff : selectDownloadFiles unicode options files = .ok result ↔
    ∃ classified, classifyDownloadFiles unicode options files = .ok classified ∧
      (∃ f ∈ classified, ∃ c, videoCoordinate? f = some c) ∧
      result = selectionOf unicode classified := by
  unfold selectDownloadFiles
  cases hclassified : classifyDownloadFiles unicode options files with
  | error error => simp
  | ok classified =>
    have hkeys : ¬ (bestVideos classified.zipIdx).keys.isEmpty = true ↔
        ∃ f ∈ classified, ∃ c, videoCoordinate? f = some c := by
      rw [Bool.not_eq_true, List.isEmpty_eq_false_iff_exists_mem]
      simp only [mem_keys_bestVideos]
      exact ⟨fun ⟨c, f, hf, hc⟩ => ⟨f, hf, c, hc⟩, fun ⟨f, hf, c, hc⟩ => ⟨c, f, hf, hc⟩⟩
    simp only [ite_error_ok_iff, hkeys, Except.ok.injEq, exists_eq_left', @eq_comm _ _ result]
    rfl

/-- A file of the result is a file of the classification, with the mark if it was chosen. -/
theorem mem_selectionOf_files :
    f ∈ (selectionOf unicode classified).files ↔ ∃ entry ∈ classified.zipIdx,
      ((∃ choice ∈ chosenFiles unicode classified.zipIdx, entry ∈ choice.entries) ∧
        f = entry.1.mark) ∨
      ((¬ ∃ choice ∈ chosenFiles unicode classified.zipIdx, entry ∈ choice.entries) ∧
        f = entry.1) := by
  rw [selectionOf, List.mem_map]
  refine exists_congr fun entry => and_congr_right fun hentry => ?_
  rw [← position_marked_iff hentry]
  split_ifs with hmarked
  · simp [hmarked, eq_comm]
  · simp [hmarked, eq_comm]

theorem mem_files_of_chosen (h : choice ∈ chosenFiles unicode classified.zipIdx)
    (hentry : entry ∈ choice.entries) : entry.1.mark ∈ (selectionOf unicode classified).files :=
  mem_selectionOf_files.mpr
    ⟨entry, (coordinate_of_mem_entries h hentry).1, .inl ⟨⟨choice, h, hentry⟩, rfl⟩⟩

theorem mem_episode_files :
    f ∈ choice.episode.files ↔ ∃ entry ∈ choice.entries, f = entry.1.mark := by
  simp [SelectedEpisode.files, Choice.episode, Choice.entries, eq_comm]

/-- The mark is the only difference between a file of the result and its file of the
classification. -/
theorem selectionOf_entry (hf : f ∈ (selectionOf unicode classified).files) :
    ∃ entry ∈ classified.zipIdx, f.mark = entry.1.mark ∧
      ∀ choice ∈ chosenFiles unicode classified.zipIdx, entry ∈ choice.entries →
        f = entry.1.mark := by
  obtain ⟨entry, hentry, ⟨-, rfl⟩ | ⟨hnot, rfl⟩⟩ := mem_selectionOf_files.mp hf
  · exact ⟨entry, hentry, rfl, fun _ _ _ => rfl⟩
  · exact ⟨entry, hentry, rfl, fun choice hchoice hmem => absurd ⟨choice, hchoice, hmem⟩ hnot⟩

theorem selectionOf_manifest :
    (selectionOf unicode classified).files.map (·.toManifestFile) =
      classified.map (·.toManifestFile) := by
  rw [selectionOf, List.map_map]
  conv_rhs => rw [← List.zipIdx_map_fst 0 classified, List.map_map]
  refine List.map_congr_left fun entry _ => ?_
  simp only [Function.comp_apply]
  split_ifs <;> rfl

theorem selectionOf_coordinates {c} :
    (∃ episode ∈ (selectionOf unicode classified).episodes, episode.coordinate = c) ↔
      ∃ f ∈ (selectionOf unicode classified).files, f.kind = .video ∧ 0 < f.coordinate.season ∧
        0 < f.coordinate.episode ∧ f.coordinate = c := by
  constructor
  · rintro ⟨episode, hepisode, rfl⟩
    obtain ⟨choice, hchoice, rfl⟩ := List.mem_map.mp hepisode
    obtain ⟨-, hcoordinate, -⟩ := bestVideos_some (mem_chosenFiles.mp hchoice).1
    exact ⟨choice.video.1.mark, mem_files_of_chosen hchoice List.mem_cons_self,
      videoCoordinate?_some.mp hcoordinate⟩
  · rintro ⟨f, hf, hvideo⟩
    obtain ⟨entry, hentry, hmark, -⟩ := selectionOf_entry hf
    have hcoordinate : videoCoordinate? entry.1 = some c := by
      rw [show videoCoordinate? entry.1 = videoCoordinate? entry.1.mark from rfl, ← hmark]
      exact videoCoordinate?_some.mpr hvideo
    obtain ⟨choice, hchoice, rfl⟩ :=
      exists_choice unicode (List.fst_mem_of_mem_zipIdx hentry) hcoordinate
    exact ⟨_, List.mem_map_of_mem hchoice, rfl⟩

theorem selectionOf_largest (hindex : (classified.map (·.index)).Nodup)
    (hchoice : choice ∈ chosenFiles unicode classified.zipIdx)
    (hf : f ∈ (selectionOf unicode classified).files) (hkind : f.kind = .video)
    (hcoordinate : f.coordinate = choice.coordinate) (hne : f ≠ choice.video.1.mark) :
    f.sizeBytes < choice.video.1.sizeBytes ∨
      f.sizeBytes = choice.video.1.sizeBytes ∧ choice.video.1.index < f.index := by
  obtain ⟨hvideo, hkey, hbest⟩ := bestVideos_some (mem_chosenFiles.mp hchoice).1
  obtain ⟨-, hseason, hepisode, hvideoCoordinate⟩ := videoCoordinate?_some.mp hkey
  obtain ⟨entry, hentry, hmark, hchosen⟩ := selectionOf_entry hf
  have hsame : f.sizeBytes = entry.1.sizeBytes ∧ f.index = entry.1.index :=
    ⟨congrArg (·.sizeBytes) hmark, congrArg (·.index) hmark⟩
  have hentryKey : videoCoordinate? entry.1 = some choice.coordinate := by
    rw [show videoCoordinate? entry.1 = videoCoordinate? entry.1.mark from rfl, ← hmark]
    rw [hvideoCoordinate] at hseason hepisode
    rw [← hcoordinate] at hseason hepisode
    exact videoCoordinate?_some.mpr ⟨hkind, hseason, hepisode, hcoordinate⟩
  have hindexNe : entry.1.index ≠ choice.video.1.index := by
    intro heq
    obtain rfl := entry_eq_of_index hindex hentry hvideo heq
    exact hne (hchosen choice hchoice List.mem_cons_self)
  have hnot := hbest entry.1 (List.fst_mem_of_mem_zipIdx hentry) hentryKey
  unfold betterVideo at hnot
  split_ifs at hnot with hsize
  · rw [decide_eq_false_iff_not] at hnot
    omega
  · rw [decide_eq_false_iff_not] at hnot
    omega

theorem selectionOf_subtitles_nodup (hindex : (classified.map (·.index)).Nodup)
    (hchoice : choice ∈ chosenFiles unicode classified.zipIdx) :
    choice.episode.subtitles.Nodup := by
  have hentries : classified.zipIdx.Nodup := (List.nodup_zipIdx_map_snd classified).of_map _
  have hsubtitles := (mem_chosenFiles.mp hchoice).2
  have hnodup : choice.subtitles.Nodup := by
    rw [hsubtitles]
    exact ((sortBy_perm _ _).nodup_iff.mpr (hentries.filter _)).sublist (List.take_sublist _ _)
  refine hnodup.map_on fun entry hentry entry' hentry' hmark => ?_
  have hmem {e : Entry} (he : e ∈ choice.subtitles) : e ∈ classified.zipIdx :=
    (coordinate_of_mem_entries hchoice (List.mem_cons_of_mem _ he)).1
  exact entry_eq_of_index hindex (hmem hentry) (hmem hentry') (congrArg (·.index) hmark)

/-- A subtitle that is not taken is omitted for eight others and comes before none of them. -/
theorem selectionOf_omitted (hchoice : choice ∈ chosenFiles unicode classified.zipIdx)
    (hf : f ∈ (selectionOf unicode classified).files)
    (heligible : subtitleEligible unicode choice.coordinate f = true)
    (hnot : f ∉ choice.episode.subtitles) :
    choice.episode.subtitles.length = 8 ∧ ∀ s ∈ choice.episode.subtitles,
      subtitleBefore unicode choice.episode.video f s = false := by
  obtain ⟨entry, hentry, hmark, hchosen⟩ := selectionOf_entry hf
  have hsubtitles := (mem_chosenFiles.mp hchoice).2
  have hentryEligible : entry ∈ classified.zipIdx.filter fun entry =>
      subtitleEligible unicode choice.coordinate entry.1 := by
    refine List.mem_filter.mpr ⟨hentry, ?_⟩
    rw [← heligible]
    change subtitleEligible unicode _ entry.1.mark = subtitleEligible unicode _ f.mark
    rw [hmark]
  -- marking the chosen files does not change which files are eligible
  have homitted : entry ∉ choice.subtitles := by
    intro hmem
    refine hnot ?_
    rw [hchosen choice hchoice (List.mem_cons_of_mem _ hmem)]
    exact List.mem_map_of_mem hmem
  rw [hsubtitles] at homitted
  refine ⟨?_, fun s hs => ?_⟩
  · rw [Choice.episode, List.length_map, hsubtitles]
    exact length_take_of_omitted hentryEligible homitted
  · obtain ⟨taken, htaken, rfl⟩ := List.mem_map.mp hs
    rw [hsubtitles] at htaken
    have hbefore := not_before_of_omitted
      ((subtitleBefore_comparison unicode choice.video.1).comap Prod.fst) htaken hentryEligible
      homitted
    change subtitleBefore unicode _ f.mark _ = false
    rw [hmark]
    exact hbefore

theorem selectionOf_marked (hfresh : ∀ f ∈ classified, f.selected = false)
    (hf : f ∈ (selectionOf unicode classified).files) : f.selected = true ↔
      ∃ episode ∈ (selectionOf unicode classified).episodes, f ∈ episode.files := by
  constructor
  · intro hselected
    obtain ⟨entry, hentry, ⟨⟨choice, hchoice, hmem⟩, rfl⟩ | ⟨-, rfl⟩⟩ := mem_selectionOf_files.mp hf
    · exact ⟨_, List.mem_map_of_mem hchoice, mem_episode_files.mpr ⟨entry, hmem, rfl⟩⟩
    · rw [hfresh _ (List.fst_mem_of_mem_zipIdx hentry)] at hselected
      cases hselected
  · rintro ⟨episode, hepisode, hmem⟩
    obtain ⟨choice, -, rfl⟩ := List.mem_map.mp hepisode
    obtain ⟨entry, -, rfl⟩ := mem_episode_files.mp hmem
    rfl

theorem selectionOf_disjoint {episode episode'}
    (h : episode ∈ (selectionOf unicode classified).episodes)
    (h' : episode' ∈ (selectionOf unicode classified).episodes) (hf : f ∈ episode.files)
    (hf' : f ∈ episode'.files) : episode = episode' := by
  obtain ⟨choice, hchoice, rfl⟩ := List.mem_map.mp h
  obtain ⟨choice', hchoice', rfl⟩ := List.mem_map.mp h'
  obtain ⟨entry, hentry, rfl⟩ := mem_episode_files.mp hf
  obtain ⟨entry', hentry', hmark⟩ := mem_episode_files.mp hf'
  -- A file is only chosen for its own coordinate.
  have hcoordinate : entry.1.coordinate = entry'.1.coordinate := congrArg (·.coordinate) hmark
  rw [(coordinate_of_mem_entries hchoice hentry).2,
    (coordinate_of_mem_entries hchoice' hentry').2] at hcoordinate
  rw [choice_eq_of_coordinate hchoice hchoice' hcoordinate]

theorem selectionOf_selected (hindex : (classified.map (·.index)).Nodup)
    (hfresh : ∀ f ∈ classified, f.selected = false) :
    Selected unicode (classified.map (·.toManifestFile)) (selectionOf unicode classified) where
  manifest := selectionOf_manifest
  sorted := by
    refine List.pairwise_map.mpr ?_
    rw [chosenFiles, List.pairwise_filterMap]
    refine (pairwise_less_sortBy coordinateLess_comparison (coordinateLess_separates _)
      (AList.keys_nodup _)).imp ?_
    intro a b hab choice hchoice choice' hchoice'
    obtain ⟨_, -, rfl⟩ := Option.map_eq_some_iff.mp hchoice
    obtain ⟨_, -, rfl⟩ := Option.map_eq_some_iff.mp hchoice'
    exact hab
  coordinates _ := selectionOf_coordinates
  video := by
    refine List.forall_mem_map.mpr fun choice hchoice => ?_
    obtain ⟨-, hkey, -⟩ := bestVideos_some (mem_chosenFiles.mp hchoice).1
    obtain ⟨hkind, -, -, hcoordinate⟩ := videoCoordinate?_some.mp hkey
    exact ⟨mem_files_of_chosen hchoice List.mem_cons_self, hkind, hcoordinate⟩
  largest := List.forall_mem_map.mpr fun _ hchoice _ => selectionOf_largest hindex hchoice
  few := by
    refine List.forall_mem_map.mpr fun choice hchoice => ?_
    refine ⟨selectionOf_subtitles_nodup hindex hchoice, ?_⟩
    rw [Choice.episode, List.length_map, (mem_chosenFiles.mp hchoice).2]
    exact List.length_take_le _ _
  subtitles := by
    refine List.forall_mem_map.mpr fun choice hchoice s hs => ?_
    obtain ⟨entry, hentry, rfl⟩ := List.mem_map.mp hs
    refine ⟨mem_files_of_chosen hchoice (List.mem_cons_of_mem _ hentry), ?_⟩
    rw [(mem_chosenFiles.mp hchoice).2] at hentry
    exact subtitleEligible_iff.mp (mem_of_mem_selectSubtitles hentry).2
  omitted := by
    intro episode hepisode f hf hkind hcoordinate hevidence hnot
    obtain ⟨choice, hchoice, rfl⟩ := List.mem_map.mp hepisode
    exact selectionOf_omitted hchoice hf
      (subtitleEligible_iff.mpr ⟨hkind, hcoordinate, hevidence⟩) hnot
  marked _ := selectionOf_marked hfresh
  disjoint _ hepisode _ hepisode' _ := selectionOf_disjoint hepisode hepisode'

theorem selected_of_ok (h : selectDownloadFiles unicode options files = .ok result) :
    Selected unicode files result ∧ (files.map (·.index)).Nodup := by
  obtain ⟨classified, hclassified, -, rfl⟩ := selectDownloadFiles_ok_iff.mp h
  have hindex := classified_index hclassified
  obtain ⟨-, -, -, hnodup, rfl⟩ := classifyDownloadFiles_ok_iff.mp hclassified
  refine ⟨?_, hnodup⟩
  have hmanifest : (files.map (classifyFile unicode options)).map (·.toManifestFile) = files := by
    rw [List.map_map]
    exact List.map_id' files
  have hselected : Selected unicode _ (selectionOf unicode _) := selectionOf_selected hindex ?_
  · rwa [hmanifest] at hselected
  · intro f hf
    obtain ⟨file, -, rfl⟩ := List.mem_map.mp hf
    rfl

theorem selectDownloadFiles_spec (unicode : Unicode) (options : FileSelectionOptions)
    (files : List ManifestFile) (result : FileSelectionResult)
    (h : selectDownloadFiles unicode options files = .ok result) : Selected unicode files result :=
  (selected_of_ok h).1

theorem Selected.positive (h : Selected unicode files result) (hf : f ∈ result.files)
    (hkind : f.kind = .video) (hselected : f.selected = true) :
    0 < f.coordinate.season ∧ 0 < f.coordinate.episode := by
  obtain ⟨episode, hepisode, hmem⟩ := (h.marked f hf).mp hselected
  rcases List.mem_cons.mp hmem with rfl | hsubtitle
  · obtain ⟨_, -, -, hseason, hpositive, heq⟩ :=
      (h.coordinates episode.coordinate).mp ⟨episode, hepisode, rfl⟩
    rw [(h.video episode hepisode).2.2, ← heq]
    exact ⟨hseason, hpositive⟩
  · have hother := (h.subtitles episode hepisode f hsubtitle).2.1
    rw [hkind] at hother
    cases hother

/-- The coordinate that the classification gave a video. -/
theorem coordinate_of_ok (h : selectDownloadFiles unicode options files = .ok result)
    (hf : f ∈ result.files) (hkind : f.kind = .video) :
    f.coordinate = classifiedCoordinate options f.relativePath := by
  obtain ⟨classified, hclassified, -, rfl⟩ := selectDownloadFiles_ok_iff.mp h
  obtain ⟨-, -, -, -, rfl⟩ := classifyDownloadFiles_ok_iff.mp hclassified
  obtain ⟨entry, hentry, hmark, -⟩ := selectionOf_entry hf
  obtain ⟨file, -, hfile⟩ := List.mem_map.mp (List.fst_mem_of_mem_zipIdx hentry)
  have hpath : f.relativePath = entry.1.relativePath := congrArg (·.relativePath) hmark
  have hsame : f.coordinate = entry.1.coordinate := congrArg (·.coordinate) hmark
  have hvideo : entry.1.kind = .video := (congrArg (·.kind) hmark).symm.trans hkind
  rw [hsame, hpath]
  rw [← hfile] at hvideo ⊢
  unfold classifyFile at hvideo ⊢
  dsimp only at hvideo ⊢
  rw [if_pos (.inl hvideo)]

/-- A manifest with two videos of one episode and two subtitles of it. -/
def twoVideos : List ManifestFile :=
  [⟨0, "Show S01E01 small.mkv", 10⟩, ⟨1, "Show S01E01.mkv", 20⟩, ⟨2, "Show S01E01.cht.ass", 1⟩,
    ⟨3, "Show S01E01.chs.ass", 1⟩]

theorem selectDownloadFiles_spec_twoVideos :
    ∃ result, selectDownloadFiles asciiUnicode { defaultSeason := 1 } twoVideos = .ok result ∧
      Selected asciiUnicode twoVideos result := by
  obtain ⟨result, hresult⟩ : ∃ result,
      selectDownloadFiles asciiUnicode { defaultSeason := 1 } twoVideos = .ok result :=
    exists_ok_of_isOk (by decide +kernel)
  exact ⟨result, hresult, selectDownloadFiles_spec _ _ _ result hresult⟩

/-! ## The order of the manifest -/

variable {classified' : List ClassifiedDownloadFile} {files' : List ManifestFile}
  {result' : FileSelectionResult}

theorem bestVideos_perm (hindex : (classified.map (·.index)).Nodup)
    (hperm : classified.Perm classified') (c : EpisodeCoordinate) :
    ((bestVideos classified.zipIdx).lookup c).map Prod.fst =
      ((bestVideos classified'.zipIdx).lookup c).map Prod.fst := by
  have hseparates : Separates betterVideo classified :=
    betterVideo_eq ▸ separates_of_index _ hindex
  have hlookup (l : List ClassifiedDownloadFile) :
      ((bestVideos l.zipIdx).lookup c).map Prod.fst =
        (bestByKey videoCoordinate? betterVideo ∅ l).lookup c := by
    conv_rhs => rw [← List.zipIdx_map_fst 0 l]
    exact map_lookup_bestByKey Prod.fst (fun _ => rfl) l.zipIdx c
  rw [hlookup, hlookup]
  exact bestByKey_lookup_of_perm betterVideo_comparison hseparates hperm c

theorem selectSubtitles_perm (hindex : (classified.map (·.index)).Nodup)
    (hperm : classified.Perm classified') (c : EpisodeCoordinate) (video : ClassifiedDownloadFile) :
    (selectSubtitles unicode classified.zipIdx c video).map Prod.fst =
      (selectSubtitles unicode classified'.zipIdx c video).map Prod.fst := by
  rw [selectSubtitles_fst, selectSubtitles_fst]
  congr 1
  refine sortBy_eq_of_perm (subtitleBefore_comparison unicode video) ?_ (hperm.filter _)
  rw [subtitleBefore_eq]
  exact separates_of_index _ (hindex.sublist (List.filter_sublist.map _))

/-- The episodes, written without the positions. -/
theorem selectionOf_episodes : (selectionOf unicode classified).episodes =
    (sortBy coordinateLess (bestVideos classified.zipIdx).keys).filterMap fun c =>
      (((bestVideos classified.zipIdx).lookup c).map Prod.fst).map fun video =>
        ⟨c, video.mark, ((selectSubtitles unicode classified.zipIdx c video).map Prod.fst).map
          ClassifiedDownloadFile.mark⟩ := by
  rw [selectionOf, chosenFiles, List.map_filterMap]
  refine List.filterMap_congr fun c _ => ?_
  rw [Option.map_map, Option.map_map]
  congr 1
  simp only [List.map_map]
  rfl

theorem selectionOf_episodes_perm (hindex : (classified.map (·.index)).Nodup)
    (hperm : classified.Perm classified') :
    (selectionOf unicode classified).episodes = (selectionOf unicode classified').episodes := by
  have hkeys : (bestVideos classified.zipIdx).keys.Perm (bestVideos classified'.zipIdx).keys := by
    rw [List.perm_ext_iff_of_nodup (AList.keys_nodup _) (AList.keys_nodup _)]
    intro c
    simp [mem_keys_bestVideos, hperm.mem_iff]
  rw [selectionOf_episodes, selectionOf_episodes,
    sortBy_eq_of_perm coordinateLess_comparison (coordinateLess_separates _) hkeys]
  refine List.filterMap_congr fun c _ => ?_
  rw [bestVideos_perm hindex hperm]
  congr 1
  funext video
  rw [selectSubtitles_perm hindex hperm]

theorem Selected.episode_files_subset (h : Selected unicode files result) {episode}
    (hepisode : episode ∈ result.episodes) (hf : f ∈ episode.files) : f ∈ result.files := by
  rcases List.mem_cons.mp hf with rfl | hf
  · exact (h.video episode hepisode).1
  · exact (h.subtitles episode hepisode f hf).1

/-- Selections with the same episodes mark the same indexes. -/
theorem Selected.marked_of_episodes (h : Selected unicode files result)
    (h' : Selected unicode files' result') (hnodup' : (files'.map (·.index)).Nodup)
    (hepisodes : result.episodes = result'.episodes) {f f'}
    (hf : f ∈ result.files) (hf' : f' ∈ result'.files) (hindex : f.index = f'.index)
    (hselected : f.selected = true) : f'.selected = true := by
  obtain ⟨episode, hepisode, hmem⟩ := (h.marked f hf).mp hselected
  rw [hepisodes] at hepisode
  rw [← h'.manifest, List.map_map] at hnodup'
  rwa [← List.inj_on_of_nodup_map hnodup' (h'.episode_files_subset hepisode hmem) hf' hindex]

theorem selectDownloadFiles_ok_of_perm (hperm : files.Perm files')
    (h : selectDownloadFiles unicode options files = .ok result) :
    ∃ result', selectDownloadFiles unicode options files' = .ok result' ∧
      result.episodes = result'.episodes := by
  obtain ⟨classified, hclassified, hvideo, rfl⟩ := selectDownloadFiles_ok_iff.mp h
  have hindex := classified_index hclassified
  obtain ⟨hseason, hsingle, haccepted, hnodup, rfl⟩ := classifyDownloadFiles_ok_iff.mp hclassified
  have hclassified' := hperm.map (classifyFile unicode options)
  refine ⟨selectionOf unicode (files'.map (classifyFile unicode options)),
    selectDownloadFiles_ok_iff.mpr ⟨_, classifyDownloadFiles_ok_iff.mpr
      ⟨hseason, hsingle, ?_, ?_, rfl⟩, ?_, rfl⟩, selectionOf_episodes_perm hindex hclassified'⟩
  · exact fun f hf => haccepted f (hperm.mem_iff.mpr hf)
  · exact (hperm.map _).nodup_iff.mp hnodup
  · obtain ⟨f, hf, hc⟩ := hvideo
    exact ⟨f, hclassified'.mem_iff.mp hf, hc⟩

end Result

/-- The order in which a manifest lists its files changes neither whether the selection succeeds
nor what it selects. -/
theorem selectDownloadFiles_perm (unicode : Unicode) (options : FileSelectionOptions)
    (files files' : List ManifestFile) (hperm : files.Perm files') :
    ((∃ result, selectDownloadFiles unicode options files = .ok result) ↔
      ∃ result', selectDownloadFiles unicode options files' = .ok result') ∧
    ∀ result result', selectDownloadFiles unicode options files = .ok result →
      selectDownloadFiles unicode options files' = .ok result' →
      result.episodes = result'.episodes ∧
        ∀ f ∈ result.files, ∀ f' ∈ result'.files, f.index = f'.index →
          f.selected = f'.selected := by
  refine ⟨⟨?_, ?_⟩, ?_⟩
  · rintro ⟨result, h⟩
    obtain ⟨result', h', -⟩ := selectDownloadFiles_ok_of_perm hperm h
    exact ⟨result', h'⟩
  · rintro ⟨result', h'⟩
    obtain ⟨result, h, -⟩ := selectDownloadFiles_ok_of_perm hperm.symm h'
    exact ⟨result, h⟩
  · intro result result' h h'
    obtain ⟨_, hother, hepisodes⟩ := selectDownloadFiles_ok_of_perm hperm h
    obtain rfl := Except.ok.inj (h'.symm.trans hother)
    refine ⟨hepisodes, fun f hf f' hf' hindex => ?_⟩
    obtain ⟨hspec, hnodup⟩ := selected_of_ok h
    obtain ⟨hspec', hnodup'⟩ := selected_of_ok h'
    rw [Bool.eq_iff_iff]
    exact ⟨hspec.marked_of_episodes hspec' hnodup' hepisodes hf hf' hindex,
      hspec'.marked_of_episodes hspec hnodup hepisodes.symm hf' hf hindex.symm⟩

theorem selectDownloadFiles_perm_twoVideos :
    ∃ result result', selectDownloadFiles asciiUnicode { defaultSeason := 1 } twoVideos =
        .ok result ∧
      selectDownloadFiles asciiUnicode { defaultSeason := 1 } twoVideos.reverse = .ok result' ∧
      result.episodes = result'.episodes := by
  have hperm := selectDownloadFiles_perm asciiUnicode { defaultSeason := 1 } twoVideos
    twoVideos.reverse (List.reverse_perm _).symm
  obtain ⟨result, hresult⟩ : ∃ result,
      selectDownloadFiles asciiUnicode { defaultSeason := 1 } twoVideos = .ok result :=
    exists_ok_of_isOk (by decide +kernel)
  obtain ⟨result', hresult'⟩ := hperm.1.mp ⟨result, hresult⟩
  exact ⟨result, result', hresult, hresult', (hperm.2 result result' hresult hresult').1⟩

end EmbyAuto
