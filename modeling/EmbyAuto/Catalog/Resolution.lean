import EmbyAuto.Catalog.Repair
import EmbyAuto.Domain.Selection

/-!
# Resolving the coordinate of a selected video

The selection stores a coordinate with each file, and the mapping resolves it once more from the
path. A coordinate that the selection read from the path is found there again. The coordinate of
a single-episode acquisition was not read from the path, and the path wins over it.

## Main definitions

* `KeepsRequested`: a path that does not compete with a requested coordinate

## Main results

* `parseSourceCoordinate_season`: a coordinate is parsed again with its own season as the default
* `resolve_selected_iff`: which selected videos keep their coordinate
-/

namespace EmbyAuto

/-! ## Parsing with the parsed season -/

theorem directorySeason_directorySeason (path : String) (season : Int) :
    directorySeason path (directorySeason path season) = directorySeason path season := by
  unfold directorySeason
  cases seasonDirectoryPattern.find? path.toList <;> rfl

/-- Only the last two groups of patterns read the default season, and they return it. -/
theorem parseSourceCoordinate_season {path : String} {season : Int}
    {parsed} (h : parseSourceCoordinate path season = some parsed) :
    parseSourceCoordinate path parsed.coordinate.season = some parsed := by
  have hsame : parsed.coordinate.season = directorySeason (forwardSlashes (trimSpace path)) season →
      parseSourceCoordinate path parsed.coordinate.season = some parsed := by
    intro hseason
    rw [← h, parseSourceCoordinate, parseSourceCoordinate, hseason,
      directorySeason_directorySeason]
  simp only [parseSourceCoordinate, Option.or_eq_some_iff] at h
  rcases h with hnamed | ⟨hnone, hnamed | ⟨hnone', hrest⟩⟩
  · rw [parseSourceCoordinate, hnamed, Option.some_or]
  · rw [parseSourceCoordinate, hnone, hnamed, Option.none_or, Option.some_or]
  · refine hsame ?_
    rcases hrest with hdecimal | ⟨-, hwhole⟩
    · obtain ⟨_, -, hfound⟩ := List.exists_of_findSome?_eq_some hdecimal
      obtain ⟨_, -, hparsed⟩ := Option.bind_eq_some_iff.mp hfound
      exact (parseDecimalSourceCoordinate_some hparsed).2.1
    · obtain ⟨_, -, hfound⟩ := List.exists_of_findSome?_eq_some hwhole
      obtain ⟨_, -, hparsed⟩ := Option.bind_eq_some_iff.mp hfound
      exact (wholeSourceCoordinate_some hparsed).2.1

/-! ## Resolving a stored coordinate -/

/-- The mapping's view of a file that the selection has stored. -/
def ClassifiedDownloadFile.resolved (f : ClassifiedDownloadFile) : EpisodeCoordinate :=
  mappingSourceCoordinate f.relativePath (some f.coordinate.season) (some f.coordinate.episode)
    f.coordinate.episodeFractionHundredths (some .deterministic)

/-- The path of a video does not compete with a requested coordinate: it names none or the same
one, or a fraction whose digits do not add up to the requested number. -/
def KeepsRequested (path : String) (season episode : Int) : Prop :=
  ∀ parsed, parseSourceCoordinate path season = some parsed →
    parsed.coordinate = ⟨season, episode, 0⟩ ∨
      parsed.coordinate.episodeFractionHundredths ≠ 0 ∧
        ¬ (parsed.coordinate.season = season ∧ parsed.legacyCollapsedEpisode = episode)

section Resolve

variable {path : String} {season episode : Int}

theorem mappingSourceCoordinate_whole (hseason : 0 < season) (hepisode : 0 < episode) :
    mappingSourceCoordinate path (some season) (some episode) 0 (some .deterministic) =
      match parseSourceCoordinate path season with
      | none => ⟨season, episode, 0⟩
      | some parsed =>
        if parsed.coordinate.episodeFractionHundredths = 0 then parsed.coordinate
        else if parsed.coordinate.season = season ∧ parsed.legacyCollapsedEpisode = episode then
          parsed.coordinate
        else ⟨season, episode, 0⟩ := by
  simp only [mappingSourceCoordinate, resolveSourceCoordinate, persistedSourceCoordinate,
    sourceCoordinate?, recoverLegacyFractionalSourceCoordinate, Option.getD_some]
  cases hparsed : parseSourceCoordinate path season with
  | none => simp
  | some parsed =>
    by_cases hfraction : parsed.coordinate.episodeFractionHundredths = 0
    · simp [hfraction]
    · have hfractional : parsed.fractional = true := by
        obtain ⟨_, _, _, h⟩ | ⟨_, _, h⟩ := parseSourceCoordinate_cases hparsed
        · exact (parseDecimalSourceCoordinate_some h).2.2
        · exact absurd (wholeSourceCoordinate_some h).2.2 hfraction
      simp only [hfractional]
      split_ifs <;> simp_all
      omega

theorem mappingSourceCoordinate_requested_iff (hseason : 0 < season) (hepisode : 0 < episode) :
    mappingSourceCoordinate path (some season) (some episode) 0 (some .deterministic) =
      ⟨season, episode, 0⟩ ↔ KeepsRequested path season episode := by
  rw [mappingSourceCoordinate_whole hseason hepisode, KeepsRequested]
  cases hparsed : parseSourceCoordinate path season with
  | none => simp
  | some parsed =>
    simp only [Option.some.injEq, forall_eq']
    split_ifs with hfraction hlegacy
    · simp [hfraction]
    · constructor
      · exact .inl
      · rintro (heq | ⟨-, hnot⟩)
        · exact heq
        · exact absurd hlegacy hnot
    · simp [hfraction, hlegacy]

/-- A coordinate that was read from the path is found there again. -/
theorem mappingSourceCoordinate_parsed {d : Int} {c} (h : sourceCoordinate? path d = some c) :
    mappingSourceCoordinate path (some c.season) (some c.episode) c.episodeFractionHundredths
      (some .deterministic) = c := by
  obtain ⟨hseason, hepisode, -⟩ := sourceCoordinate?_storable h
  obtain ⟨parsed, hparsed, rfl⟩ := Option.map_eq_some_iff.mp h
  by_cases hfraction : parsed.coordinate.episodeFractionHundredths = 0
  · rw [hfraction, mappingSourceCoordinate_whole hseason hepisode,
      parseSourceCoordinate_season hparsed]
    exact if_pos hfraction
  · simp [mappingSourceCoordinate, resolveSourceCoordinate, persistedSourceCoordinate, hseason,
      hepisode, hfraction]

end Resolve

/-! ## Selected videos -/

/-- A selected video keeps its coordinate, unless it was requested and its path says otherwise. -/
theorem resolve_selected_iff (unicode : Unicode) (options : FileSelectionOptions)
    (files : List ManifestFile) (result : FileSelectionResult)
    (h : selectDownloadFiles unicode options files = .ok result) (f : ClassifiedDownloadFile)
    (hf : f ∈ result.files) (hkind : f.kind = .video) (hselected : f.selected = true) :
    f.resolved = f.coordinate ↔ (options.singleEpisode = true →
      KeepsRequested f.relativePath options.defaultSeason options.defaultEpisode) := by
  obtain ⟨hseason, hepisode⟩ := (selected_of_ok h).1.positive hf hkind hselected
  have hcoordinate := coordinate_of_ok h hf hkind
  rw [ClassifiedDownloadFile.resolved]
  cases hsingle : options.singleEpisode with
  | false =>
    simp only [Bool.false_eq_true, false_implies, iff_true]
    simp only [classifiedCoordinate, hsingle] at hcoordinate
    cases hparsed : sourceCoordinate? f.relativePath options.defaultSeason with
    | none =>
      rw [hparsed] at hcoordinate
      rw [hcoordinate] at hseason
      exact absurd hseason (lt_irrefl 0)
    | some c =>
      rw [hparsed] at hcoordinate
      rw [hcoordinate]
      exact mappingSourceCoordinate_parsed hparsed
  | true =>
    simp only [classifiedCoordinate, hsingle] at hcoordinate
    rw [hcoordinate] at hseason hepisode ⊢
    simp only [true_implies]
    exact mappingSourceCoordinate_requested_iff hseason hepisode

/-- A single-episode acquisition of the first episode of season two, whose video has another
number in its name. -/
def requestedSecondSeason : FileSelectionOptions where
  defaultSeason := 2
  defaultEpisode := 1
  singleEpisode := true

theorem requested_coordinate_lost :
    ∃ result, selectDownloadFiles asciiUnicode requestedSecondSeason
        [⟨0, "Show S01E05.mkv", 1⟩] = .ok result ∧
      ∃ f ∈ result.files, f.kind = .video ∧ f.selected = true ∧ f.coordinate = ⟨2, 1, 0⟩ ∧
        f.resolved = ⟨1, 5, 0⟩ := by
  obtain ⟨result, hresult, hfiles⟩ := Option.map_eq_some_iff.mp
    (show (selectDownloadFiles asciiUnicode requestedSecondSeason
        [⟨0, "Show S01E05.mkv", 1⟩]).toOption.map (fun result => result.files.any fun f =>
          f.kind = .video && f.selected && f.coordinate = ⟨2, 1, 0⟩ && f.resolved = ⟨1, 5, 0⟩) =
        some true by decide +kernel)
  refine ⟨result, ok_of_toOption hresult, ?_⟩
  simpa [and_assoc] using hfiles

/-- The same acquisition keeps the coordinate of a video that names no episode. -/
theorem resolve_selected_iff_unnumbered :
    ∃ result, selectDownloadFiles asciiUnicode requestedSecondSeason
        [⟨0, "Show.mkv", 1⟩] = .ok result ∧
      ∃ f ∈ result.files, f.resolved = f.coordinate := by
  obtain ⟨result, hresult, hfiles⟩ := Option.map_eq_some_iff.mp
    (show (selectDownloadFiles asciiUnicode requestedSecondSeason
        [⟨0, "Show.mkv", 1⟩]).toOption.map (fun result => result.files.any fun f =>
          f.kind = .video && f.selected && f.relativePath = "Show.mkv") = some true by
      decide +kernel)
  have hok := ok_of_toOption hresult
  refine ⟨result, hok, ?_⟩
  obtain ⟨f, hf, ⟨hkind, hselected⟩, hpath⟩ : ∃ f ∈ result.files,
      (f.kind = .video ∧ f.selected = true) ∧ f.relativePath = "Show.mkv" := by
    simpa using hfiles
  refine ⟨f, hf, (resolve_selected_iff _ _ _ result hok f hf hkind hselected).mpr fun _ => ?_⟩
  intro parsed hparsed
  rw [hpath] at hparsed
  have hnone : (parseSourceCoordinate "Show.mkv" requestedSecondSeason.defaultSeason).isNone =
      true := by decide +kernel
  rw [Option.isNone_iff_eq_none.mp hnone] at hparsed
  cases hparsed

end EmbyAuto
