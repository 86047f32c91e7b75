import EmbyAuto.Domain.Selection
import EmbyAuto.Download.Resolution

/-!
# Valid selections of files

A manifest is resolved by the automatic selection, by a user or by an agent. Each of them selects
videos with distinct coordinates and subtitles that belong to them.

## Main definitions

* `ValidSelection`: what `validateDownloadFileResolution` asks of the selected files

## Main results

* `AcceptedResolution.valid`: the files with an accepted resolution
* `manifestRows_valid`: the rows of an automatic selection
-/

namespace EmbyAuto

open Relational Database Resources

/-! ## Valid selections -/

def DownloadFile.selectedAt? (kind : MediaKind) (f : DownloadFile) : Option StoredCoordinate :=
  if f.selected = true ∧ f.mediaKind = kind then some f.stored else none

/-- The selected files are videos and subtitles with a coordinate: one video at least, no two for
one coordinate, and for each of them at most eight subtitles. -/
structure ValidSelection (files : List DownloadFile) : Prop where
  video : files.filterMap (·.selectedAt? .video) ≠ []
  located : ∀ f ∈ files, f.selected = true → (f.mediaKind = .video ∨ f.mediaKind = .subtitle) ∧
    f.sourceSeason.isSome = true ∧ f.sourceEpisode.isSome = true
  distinct : (files.filterMap (·.selectedAt? .video)).Nodup
  matched : ∀ c ∈ files.filterMap (·.selectedAt? .subtitle),
    c ∈ files.filterMap (·.selectedAt? .video)
  few : ∀ c, (files.filterMap (·.selectedAt? .subtitle)).count c ≤ 8

/-- Files that are not selected do not count. -/
theorem ValidSelection.append {files files'} (hfiles : ∀ f ∈ files, f.selected = false)
    (h : ValidSelection files') : ValidSelection (files ++ files') := by
  have hsame (kind : MediaKind) : (files ++ files').filterMap (·.selectedAt? kind) =
      files'.filterMap (·.selectedAt? kind) := by
    rw [List.filterMap_append, List.filterMap_eq_nil_iff.mpr, List.nil_append]
    intro f hf
    simp [DownloadFile.selectedAt?, hfiles f hf]
  refine ⟨hsame _ ▸ h.video, fun f hf hselected => ?_, hsame _ ▸ h.distinct, ?_, hsame _ ▸ h.few⟩
  · rcases List.mem_append.mp hf with hf | hf
    · simp [hfiles f hf] at hselected
    · exact h.located f hf hselected
  · rw [hsame, hsame]
    exact h.matched

/-- The order of the files does not matter. -/
theorem ValidSelection.perm {files files'} (h : ValidSelection files)
    (hperm : files.Perm files') : ValidSelection files' := by
  have hsame (kind : MediaKind) : (files.filterMap (·.selectedAt? kind)).Perm
      (files'.filterMap (·.selectedAt? kind)) := hperm.filterMap _
  refine ⟨fun hnil => h.video ?_, fun f hf => h.located f (hperm.mem_iff.mpr hf),
    (hsame _).nodup_iff.mp h.distinct, fun c hc => ?_, fun c => ?_⟩
  · have hvideo := hsame .video
    rw [hnil] at hvideo
    exact hvideo.eq_nil
  · exact (hsame _).mem_iff.mp (h.matched c ((hsame _).mem_iff.mpr hc))
  · rw [← (hsame _).count_eq]
    exact h.few c

/-! ## Accepted resolutions are valid -/

theorem int32_of_range {n : Int} (hlow : 0 ≤ n) (hhigh : n ≤ 2147483647) : int32 n = n := by
  unfold int32
  rw [Int.bmod_def]
  omega

theorem DownloadFileResolutionItem.stored_resolve {item}
    (h : item.wellFormed = true) (f : DownloadFile) : (f.resolve item).stored = item.stored := by
  obtain ⟨id, selected, season, episode, fraction⟩ := item
  simp only [wellFormed, Bool.and_eq_true, decide_eq_true_eq, Option.all_eq_true] at h
  obtain ⟨⟨⟨⟨⟨-, hlow⟩, hhigh⟩, -⟩, hseason⟩, hepisode⟩ := h
  simp only [DownloadFile.stored, DownloadFile.resolve, stored, StoredCoordinate.mk.injEq]
  refine ⟨?_, ?_, int32_of_range hlow (by omega)⟩
  · cases season with
    | none => rfl
    | some n => exact congrArg some (int32_of_range (hseason n rfl).1.le (hseason n rfl).2)
  · cases episode with
    | none => rfl
    | some n => exact congrArg some (int32_of_range (hepisode n rfl).1.le (hepisode n rfl).2)

section Accepted

variable {downloadID : UUID} {files : List DownloadFile} {items : List DownloadFileResolutionItem}
  {f : DownloadFile}

/-- The file after the updates of all items. -/
def DownloadFile.resolveAll (downloadID : UUID) (items : List DownloadFileResolutionItem)
    (f : DownloadFile) : DownloadFile :=
  items.foldl (fun f item => patch
    (fun f => decide (f.id = item.fileID) && decide (f.downloadID = downloadID))
    (·.resolve item) f) f

theorem resolveAll_of_not_mem (h : f.id ∉ items.map (·.fileID)) :
    f.resolveAll downloadID items = f := by
  induction items with
  | nil => rfl
  | cons item rest ih =>
    rw [List.map_cons, List.mem_cons, not_or] at h
    rw [DownloadFile.resolveAll, List.foldl_cons, patch_of_false (by simp [h.1])]
    exact ih h.2

/-- Each file gets the values of its own item. -/
theorem resolveAll_of_mem (hnodup : (items.map (·.fileID)).Nodup) (hf : f.downloadID = downloadID)
    {item} (hitem : item ∈ items) (hid : item.fileID = f.id) :
    f.resolveAll downloadID items = f.resolve item := by
  induction items with
  | nil => cases hitem
  | cons first rest ih =>
    rw [List.map_cons, List.nodup_cons] at hnodup
    rw [DownloadFile.resolveAll, List.foldl_cons]
    rcases List.mem_cons.mp hitem with rfl | hitem
    · rw [patch_of_true (by simp [hid, hf])]
      refine resolveAll_of_not_mem ?_
      change f.id ∉ rest.map (·.fileID)
      rw [← hid]
      exact hnodup.1
    · have hne : f.id ≠ first.fileID := by
        rintro heq
        exact hnodup.1 (List.mem_map.mpr ⟨item, hitem, hid.trans heq⟩)
      rw [patch_of_false (by simp [hne])]
      exact ih hnodup.2 hitem

variable (hids : (files.map (·.id)).Nodup) (hdownload : ∀ f ∈ files, f.downloadID = downloadID)
  (h : AcceptedResolution files items)

include hids in
theorem lookup_file (hf : f ∈ files) : lookup DownloadFile.id f.id files = some f := by
  have hsome : (lookup DownloadFile.id f.id files).isSome := by
    rw [lookup, List.find?_isSome]
    exact ⟨f, hf, by simp⟩
  obtain ⟨g, hg⟩ := Option.isSome_iff_exists.mp hsome
  rw [hg, List.inj_on_of_nodup_map hids (mem_of_lookup hg) hf (key_of_lookup hg)]

include h in
/-- The items are about all files. -/
theorem AcceptedResolution.keys : (files.map (·.id)).Perm (items.map (·.fileID)) := by
  have hsubset : items.map (·.fileID) ⊆ files.map (·.id) := by
    intro id hid
    obtain ⟨item, hitem, rfl⟩ := List.mem_map.mp hid
    obtain ⟨g, hg, -⟩ := (h.item item hitem).known
    exact List.mem_map.mpr ⟨g, mem_of_lookup hg, key_of_lookup hg⟩
  refine ((List.subperm_of_subset h.nodup hsubset).perm_of_length_le ?_).symm
  rw [List.length_map, List.length_map, h.length]

include hids hdownload h in
/-- The selected files of a kind are the items that select one. -/
theorem AcceptedResolution.selected_perm (kind : MediaKind) :
    ((files.map (·.resolveAll downloadID items)).filterMap (·.selectedAt? kind)).Perm
      (items.filterMap (selectedAs files kind)) := by
  have hperm := h.keys.filterMap fun id => (lookup DownloadFile.id id files).bind fun f =>
    (f.resolveAll downloadID items).selectedAt? kind
  rw [List.filterMap_map, List.filterMap_map] at hperm
  rw [List.filterMap_map]
  refine (List.filterMap_congr ?_ ▸ hperm : _).trans (.of_eq (List.filterMap_congr ?_))
  · intro f hf
    simp only [Function.comp_apply]
    rw [lookup_file hids hf]
    rfl
  · intro item hitem
    obtain ⟨f, hfile, -⟩ := (h.item item hitem).known
    have hf := mem_of_lookup hfile
    simp only [Function.comp_apply]
    rw [selectedAs_eq hfile, hfile, Option.bind_some,
      resolveAll_of_mem h.nodup (hdownload f hf) hitem (key_of_lookup hfile).symm,
      DownloadFile.selectedAt?,
        DownloadFileResolutionItem.stored_resolve (h.item item hitem).wellFormed]
    rfl

include hids hdownload h in
theorem AcceptedResolution.valid : ValidSelection (files.map (·.resolveAll downloadID items)) := by
  have hvideos := h.selected_perm hids hdownload .video
  have hsubtitles := h.selected_perm hids hdownload .subtitle
  refine ⟨fun hnil => h.video ?_, ?_, hvideos.nodup_iff.mpr h.distinct, fun c hc => ?_, fun c => ?_⟩
  · rw [hnil] at hvideos
    exact hvideos.symm.eq_nil
  · intro g hg hselected
    obtain ⟨f, hf, rfl⟩ := List.mem_map.mp hg
    obtain ⟨item, hitem, hid⟩ := List.mem_map.mp (h.keys.mem_iff.mp (List.mem_map_of_mem hf))
    rw [resolveAll_of_mem h.nodup (hdownload f hf) hitem hid] at hselected ⊢
    have haccepted := h.item item hitem
    obtain ⟨f', hfile, hkind⟩ := haccepted.known
    rw [hid, lookup_file hids hf] at hfile
    obtain rfl := Option.some.inj hfile
    have hseason := haccepted.located hselected
    have hwell := haccepted.wellFormed
    simp only [DownloadFileResolutionItem.wellFormed, Bool.and_eq_true] at hwell
    refine ⟨hkind hselected, by simpa [DownloadFile.resolve] using hseason, ?_⟩
    have hboth := hwell.1.1.1.1.1
    rw [beq_iff_eq] at hboth
    have hepisode : item.sourceEpisode.isNone = false := by
      rw [← hboth, ← Option.not_isSome, hseason]
      rfl
    rw [DownloadFile.resolve, Option.isSome_map, ← Option.not_isNone, hepisode]
    rfl
  · exact hvideos.mem_iff.mpr (h.matched c (hsubtitles.mem_iff.mp hc))
  · rw [hsubtitles.count_eq]
    exact h.few c

end Accepted

/-! ## The automatic selection is valid -/

section Automatic

variable {unicode : Unicode} {options : FileSelectionOptions} {files : List ManifestFile}
  {result : FileSelectionResult} {f g : ClassifiedDownloadFile}

def ClassifiedDownloadFile.selectedAt? (kind : MediaKind) (f : ClassifiedDownloadFile) :
    Option StoredCoordinate :=
  if f.selected = true ∧ f.kind = kind then some f.coordinate.stored else none

/-- The numbers of a file are in the range of the columns. -/
def ClassifiedDownloadFile.InRange (f : ClassifiedDownloadFile) : Prop :=
  f.coordinate.season ≤ 2147483647 ∧ f.coordinate.episode ≤ 2147483647

theorem EpisodeCoordinate.stored_inj {c c' : EpisodeCoordinate} (h : c.stored = c'.stored) :
    c = c' := by
  obtain ⟨season, episode, fraction⟩ := c
  obtain ⟨season', episode', fraction'⟩ := c'
  simpa [stored] using h

theorem ClassifiedDownloadFile.selectedAt?_eq_some {kind : MediaKind} {c} :
    f.selectedAt? kind = some c ↔ (f.selected = true ∧ f.kind = kind) ∧
      f.coordinate.stored = c := by
  rw [selectedAt?, Option.ite_none_right_eq_some, Option.some.injEq]

theorem Selected.episode_eq (hspec : Selected unicode files result) {episode episode'}
    (h : episode ∈ result.episodes) (h' : episode' ∈ result.episodes)
    (hcoordinate : episode.coordinate = episode'.coordinate) : episode = episode' := by
  have hnodup : (result.episodes.map (·.coordinate)).Nodup := by
    rw [List.Nodup, List.pairwise_map]
    refine hspec.sorted.imp fun {a b} hless heq => ?_
    rw [heq, coordinateLess_comparison.irrefl] at hless
    cases hless
  exact List.inj_on_of_nodup_map hnodup h h' hcoordinate

variable (h : selectDownloadFiles unicode options files = .ok result)
include h

/-- An episode of the selection has a positive coordinate with a fraction of two digits. -/
theorem episode_storable {episode} (hepisode : episode ∈ result.episodes) :
    episode.coordinate.Storable := by
  have hspec := (selected_of_ok h).1
  obtain ⟨hvideo, hkind, hcoordinate⟩ := hspec.video episode hepisode
  have hselected := (hspec.marked _ hvideo).mpr ⟨episode, hepisode, List.mem_cons_self⟩
  obtain ⟨hseason, hpositive⟩ := hspec.positive hvideo hkind hselected
  have hclassified := coordinate_of_ok h hvideo hkind
  rw [hcoordinate] at hseason hpositive hclassified
  unfold classifiedCoordinate at hclassified
  split at hclassified
  · rw [hclassified] at hseason hpositive ⊢
    exact ⟨hseason, hpositive, le_rfl, (by decide : (0 : Int) ≤ 99)⟩
  · cases hparsed : sourceCoordinate? episode.video.relativePath options.defaultSeason with
    | none =>
      rw [hparsed] at hclassified
      rw [hclassified] at hseason
      exact absurd hseason (lt_irrefl 0)
    | some c =>
      rw [hparsed] at hclassified
      rw [hclassified]
      exact sourceCoordinate?_storable hparsed

theorem episode_of_selected (hf : f ∈ result.files) (hselected : f.selected = true) :
    ∃ episode ∈ result.episodes, f.coordinate = episode.coordinate ∧
      (f.kind = .video ∧ f = episode.video ∨ f.kind = .subtitle ∧ f ∈ episode.subtitles) := by
  have hspec := (selected_of_ok h).1
  obtain ⟨episode, hepisode, hmem⟩ := (hspec.marked f hf).mp hselected
  refine ⟨episode, hepisode, ?_⟩
  rcases List.mem_cons.mp hmem with rfl | hmem
  · obtain ⟨-, hkind, hcoordinate⟩ := hspec.video episode hepisode
    exact ⟨hcoordinate, .inl ⟨hkind, rfl⟩⟩
  · obtain ⟨-, hkind, hcoordinate, -⟩ := hspec.subtitles episode hepisode f hmem
    exact ⟨hcoordinate, .inr ⟨hkind, hmem⟩⟩

theorem result_nodup : result.files.Nodup := by
  obtain ⟨hspec, hindex⟩ := selected_of_ok h
  rw [← hspec.manifest, List.map_map] at hindex
  exact hindex.of_map _

theorem selected_videos_distinct :
    (result.files.filterMap (·.selectedAt? .video)).Nodup := by
  refine List.pairwise_filterMap.mpr ((result_nodup h).imp_of_mem ?_)
  intro f g hf hg hne c hc c' hc' heq
  subst heq
  obtain ⟨⟨hselected, hkind⟩, hcoordinate⟩ := ClassifiedDownloadFile.selectedAt?_eq_some.mp hc
  obtain ⟨⟨hselected', hkind'⟩, hcoordinate'⟩ := ClassifiedDownloadFile.selectedAt?_eq_some.mp hc'
  obtain ⟨episode, hepisode, hfc, ⟨-, hfv⟩ | ⟨hsub, -⟩⟩ := episode_of_selected h hf hselected
  · obtain ⟨episode', hepisode', hgc, ⟨-, hgv⟩ | ⟨hsub, -⟩⟩ := episode_of_selected h hg hselected'
    · have hsame := EpisodeCoordinate.stored_inj (hcoordinate.trans hcoordinate'.symm)
      rw [hfc, hgc] at hsame
      rw [(selected_of_ok h).1.episode_eq hepisode hepisode' hsame] at hfv
      exact hne (hfv.trans hgv.symm)
    · exact absurd (hkind'.symm.trans hsub) (by decide)
  · exact absurd (hkind.symm.trans hsub) (by decide)

theorem selected_subtitles_matched {c} (hc : c ∈ result.files.filterMap (·.selectedAt? .subtitle)) :
    c ∈ result.files.filterMap (·.selectedAt? .video) := by
  obtain ⟨f, hf, hc⟩ := List.mem_filterMap.mp hc
  obtain ⟨⟨hselected, -⟩, rfl⟩ := ClassifiedDownloadFile.selectedAt?_eq_some.mp hc
  obtain ⟨episode, hepisode, hcoordinate, -⟩ := episode_of_selected h hf hselected
  have hspec := (selected_of_ok h).1
  obtain ⟨hvideo, hkind, hvideoCoordinate⟩ := hspec.video episode hepisode
  refine List.mem_filterMap.mpr ⟨episode.video, hvideo,
    ClassifiedDownloadFile.selectedAt?_eq_some.mpr ⟨⟨?_, hkind⟩,
      hvideoCoordinate ▸ hcoordinate ▸ rfl⟩⟩
  exact (hspec.marked _ hvideo).mpr ⟨episode, hepisode, List.mem_cons_self⟩

theorem selected_subtitles_few (c : StoredCoordinate) :
    (result.files.filterMap (·.selectedAt? .subtitle)).count c ≤ 8 := by
  have hcount : (result.files.filterMap (·.selectedAt? .subtitle)).count c =
      (result.files.filter fun f => f.selectedAt? .subtitle = some c).length := by
    rw [List.count, List.countP_filterMap, ← List.countP_eq_length_filter]
    refine List.countP_congr fun f _ => ?_
    cases f.selectedAt? .subtitle <;> simp
  rw [hcount]
  -- All of them are subtitles of the one episode with the coordinate.
  have hmem : ∀ f ∈ result.files, f.selectedAt? .subtitle = some c →
      ∃ episode ∈ result.episodes, episode.coordinate.stored = c ∧ f ∈ episode.subtitles := by
    intro f hf hc
    obtain ⟨⟨hselected, hkind⟩, rfl⟩ := ClassifiedDownloadFile.selectedAt?_eq_some.mp hc
    obtain ⟨episode, hepisode, hcoordinate, ⟨hvideo, -⟩ | ⟨-, hmem⟩⟩ :=
      episode_of_selected h hf hselected
    · exact absurd (hkind.symm.trans hvideo) (by decide)
    · exact ⟨episode, hepisode, by rw [hcoordinate], hmem⟩
  by_cases hnone : ∃ f ∈ result.files, f.selectedAt? .subtitle = some c
  · obtain ⟨f, hf, hc⟩ := hnone
    obtain ⟨episode, hepisode, hcoordinate, -⟩ := hmem f hf hc
    have hsubset : (result.files.filter fun f => f.selectedAt? .subtitle = some c) ⊆
        episode.subtitles := by
      intro g hg
      rw [List.mem_filter, decide_eq_true_eq] at hg
      obtain ⟨episode', hepisode', hcoordinate', hmem'⟩ := hmem g hg.1 hg.2
      rwa [(selected_of_ok h).1.episode_eq hepisode hepisode'
        (EpisodeCoordinate.stored_inj (hcoordinate.trans hcoordinate'.symm))]
    exact ((List.subperm_of_subset ((result_nodup h).filter _) hsubset).length_le).trans
      ((selected_of_ok h).1.few episode hepisode).2
  · rw [List.filter_eq_nil_iff.mpr fun f hf hc => hnone ⟨f, hf, by simpa using hc⟩]
    simp

theorem selected_videos_ne_nil : result.files.filterMap (·.selectedAt? .video) ≠ [] := by
  obtain ⟨classified, -, ⟨f, hf, c, hc⟩, rfl⟩ := selectDownloadFiles_ok_iff.mp h
  obtain ⟨choice, hchoice, -⟩ := exists_choice unicode hf hc
  have hspec := (selected_of_ok h).1
  have hepisode := List.mem_map_of_mem (f := Choice.episode) hchoice
  obtain ⟨hvideo, hkind, -⟩ := hspec.video _ hepisode
  refine List.ne_nil_of_mem (List.mem_filterMap.mpr ⟨_, hvideo, if_pos ⟨?_, hkind⟩⟩)
  exact (hspec.marked _ hvideo).mpr ⟨_, hepisode, List.mem_cons_self⟩

/-- The rows of classified files, with their identifiers. -/
def manifestRows (fileID : Nat → UUID) (downloadID : UUID) (files : List ClassifiedDownloadFile) :
    List DownloadFile :=
  files.zipIdx.map fun (file, position) => file.row (fileID position) downloadID

variable {fileID : Nat → UUID} {downloadID : UUID}

omit h in
theorem optionalInt32_of_range {n : Int} (hlow : 0 < n) (hhigh : n ≤ 2147483647) :
    optionalInt32 n = some n := by
  rw [optionalInt32, if_neg (by omega), int32_of_range hlow.le hhigh]

theorem row_stored (hf : f ∈ result.files) (hrange : f.InRange) (hselected : f.selected = true)
    (id : UUID) : (f.row id downloadID).stored = f.coordinate.stored := by
  obtain ⟨episode, hepisode, hcoordinate, -⟩ := episode_of_selected h hf hselected
  obtain ⟨hseason, hepisodePos, hlow, hhigh⟩ := episode_storable h hepisode
  rw [← hcoordinate] at hseason hepisodePos hlow hhigh
  rw [StoredCoordinate.mk.injEq]
  exact ⟨optionalInt32_of_range hseason hrange.1, optionalInt32_of_range hepisodePos hrange.2,
    int32_of_range hlow (by omega)⟩

theorem manifestRows_selectedAt? (hrange : ∀ f ∈ result.files, f.InRange) (kind : MediaKind) :
    (manifestRows fileID downloadID result.files).filterMap (·.selectedAt? kind) =
      result.files.filterMap (·.selectedAt? kind) := by
  conv_rhs => rw [← List.zipIdx_map_fst 0 result.files]
  rw [manifestRows, List.filterMap_map, List.filterMap_map]
  refine List.filterMap_congr fun entry hentry => ?_
  have hf : entry.1 ∈ result.files := List.fst_mem_of_mem_zipIdx hentry
  simp only [Function.comp_apply, DownloadFile.selectedAt?]
  by_cases hselected : entry.1.selected = true
  · rw [row_stored h hf (hrange _ hf) hselected]
    rfl
  · have hnone {p : Prop} : ¬ (entry.1.selected = true ∧ p) := fun hboth => hselected hboth.1
    exact (if_neg hnone).trans (if_neg hnone).symm

/-- **The automatic selection is valid.** -/
theorem manifestRows_valid (hrange : ∀ f ∈ result.files, f.InRange) :
    ValidSelection (manifestRows fileID downloadID result.files) := by
  have hsame := @manifestRows_selectedAt? unicode options files result h fileID downloadID hrange
  refine ⟨?_, fun row hrow hselected => ?_, ?_, ?_, ?_⟩
  · rw [hsame]
    exact selected_videos_ne_nil h
  · obtain ⟨⟨f, position⟩, hentry, rfl⟩ := List.mem_map.mp hrow
    have hf : f ∈ result.files := List.fst_mem_of_mem_zipIdx hentry
    obtain ⟨episode, hepisode, hcoordinate, hkind⟩ := episode_of_selected h hf hselected
    have hstored : (f.row (fileID position) downloadID).stored = _ :=
      row_stored h hf (hrange f hf) hselected _
    rw [DownloadFile.stored, StoredCoordinate.mk.injEq] at hstored
    refine ⟨hkind.imp And.left And.left, ?_, ?_⟩
    · exact hstored.1 ▸ rfl
    · exact hstored.2.1 ▸ rfl
  · rw [hsame]
    exact selected_videos_distinct h
  · rw [hsame, hsame]
    exact fun c hc => selected_subtitles_matched h hc
  · rw [hsame]
    exact selected_subtitles_few h

end Automatic

end EmbyAuto
