import EmbyAuto.Download.Selection
import EmbyAuto.Download.Validity

/-!
# The selection of a resolved manifest

The manifest of a download is resolved by the automatic selection, by a user or by an agent, with
a valid selection of files. `SaveFileSelection` may change the flags afterwards. It asks for one
selected video in the request and checks nothing else, so what holds of a resolved manifest holds
only as long as the requests keep it. A completion that resolves the manifest by itself adds its
files to those that are there, on the strength of what the handler has read before.

## Main definitions

* `Manifest`, `manifestOf`: the source and the files of a download
* `ManifestCall`, `ManifestStep`: the calls that write a manifest, and what happens elsewhere
* `ManifestCall.Meets`: the saved selections pass the validation

## Main results

* `resolved_manifest_valid`: in every run of such calls, a resolved manifest has a valid selection
* `resolved_manifest_restored_iff`: which manifests of a later run keep the selection
* `duplicate_selection_accepted`: a saved selection that selects two videos for one coordinate
-/

namespace EmbyAuto

open Relational Database Resources

/-! ## Manifests -/

structure Manifest where
  source : Option DecisionSource
  files : List DownloadFile

/-- The manifest of a download: who resolved it, and its files. -/
def manifestOf (downloadID : UUID) (r : Resources) : Manifest where
  source := (lookup Download.id downloadID r.downloads.rows).bind (·.fileResolutionSource)
  files := r.downloadFiles.rows.filter fun f => f.downloadID = downloadID

/-- A resolved manifest has a valid selection. -/
def Manifest.Sound (m : Manifest) : Prop := m.source.isSome = true → ValidSelection m.files

theorem Manifest.sound_of_unresolved {m : Manifest} (h : m.source = none) : m.Sound := by
  intro hresolved
  rw [h] at hresolved
  cases hresolved

/-- The property reads nothing but the manifest of the download. -/
abbrev OnManifest (downloadID : UUID) (J : Manifest → Prop) (db : Database) : Prop :=
  J (manifestOf downloadID db.resources)

variable {new : NewOperation} {expectedVersion : Int} {downloadID : UUID}

section Frame

variable {downloadID : UUID} {J : Manifest → Prop}

theorem keepsManifest_onResources {α : Type} {m : ResourcesTx α}
    (h : m.Keeps fun r => J (manifestOf downloadID r)) :
    (onResources m).Keeps (OnManifest downloadID J) :=
  keeps_resources h

/-- A computation that keeps every property of the manifest leaves it as it is. -/
theorem manifest_eq_of_keeps {α : Type} {m : DatabaseTx α} {db db' : Database} {a : α}
    (hrun : m db = .ok (a, db')) (h : ∀ J, m.Keeps (OnManifest downloadID J)) :
    manifestOf downloadID db'.resources = manifestOf downloadID db.resources :=
  h (· = manifestOf downloadID db.resources) rfl hrun

theorem keepsManifest_appendResourceEvent {resource : Resource} {operationID : Option UUID}
    {topic : String} {data} :
    (appendResourceEvent resource operationID topic data).Keeps (OnManifest downloadID J) :=
  keepsManifest_onResources (keeps_appendEvent fun _ _ h => h)

theorem keepsManifest_scheduleInTx {request} :
    (scheduleInTx new request).Keeps (OnManifest downloadID J) :=
  keeps_resources_scheduleInTx (I := fun r => J (manifestOf downloadID r)) fun _ _ h => h

/-- An update of downloads that leaves their sources alone. -/
theorem keepsManifest_updateDownload {p f} (hid : ∀ d, (f d).id = d.id)
    (hsource : ∀ d, (f d).fileResolutionSource = d.fileResolutionSource) :
    (downloadsSlot.updateOne p f : ResourcesTx (Option Download)).Keeps
      fun r => J (manifestOf downloadID r) := by
  intro r _ r' hr hrun
  obtain ⟨-, hvalid, rfl⟩ := Slot.updateOne_ok.mp hrun
  have hsame : manifestOf downloadID (downloadsSlot.put r ⟨_, hvalid⟩) =
      manifestOf downloadID r := by
    simp only [manifestOf, Manifest.mk.injEq]
    refine ⟨?_, rfl⟩
    change (lookup Download.id downloadID (r.downloads.rows.map (patch p f))).bind _ = _
    rw [lookup_map_patch hid]
    cases lookup Download.id downloadID r.downloads.rows with
    | none => rfl
    | some d => exact patch_field hsource d
  rwa [hsame]

end Frame

/-! ## The statements that write a manifest -/

section Statements

variable {downloadID : UUID} {r r' : Resources}

theorem manifestOf_source {d : Download} {p} {f}
    {s}
    (hrun : (downloadsSlot.updateOne (atKey Download.id downloadID p) f :
      ResourcesTx (Option Download)) r = .ok (some d, r')) (hid : ∀ d, (f d).id = d.id)
    (hsource : ∀ d, (f d).fileResolutionSource = s) :
    manifestOf downloadID r' = { manifestOf downloadID r with source := s } := by
  rcases Slot.updateOne_atKey downloads_pkey hrun with ⟨hnone, -⟩ | ⟨x, hx, hguard, -, hvalid, rfl⟩
  · cases hnone
  · simp only [manifestOf, Manifest.mk.injEq]
    refine ⟨?_, rfl⟩
    change (lookup Download.id downloadID ((downloadsSlot.table r).rows.map _)).bind _ = _
    rw [lookup_map_patch_self hid hx hguard]
    exact hsource x

theorem manifestOf_insert {file : DownloadFile} (hfile : file.downloadID = downloadID)
    (hrun : (downloadFilesSlot.insert file : ResourcesTx Unit) r = .ok ((), r')) :
    manifestOf downloadID r' =
      { manifestOf downloadID r with files := (manifestOf downloadID r).files ++ [file] } := by
  obtain ⟨hvalid, rfl⟩ := Slot.insert_ok.mp hrun
  simp only [manifestOf, Manifest.mk.injEq]
  refine ⟨rfl, ?_⟩
  change List.filter _ (_ ++ [file]) = _
  rw [List.filter_append, List.filter_singleton, decide_eq_true hfile]
  rfl

/-- A loop of updates changes each file in turn. -/
theorem manifestOf_updates {β : Type} {text : String} {p : β → DownloadFile → Bool}
    {f : β → DownloadFile → DownloadFile} {l : List β} {db db' : Database}
    (hrun : (l.forM fun b => do
      let _ ← context text (requireRow (onResources (downloadFilesSlot.updateOne (p b) (f b))))
      : DatabaseTx PUnit) db = .ok ((), db'))
    (hdownload : ∀ b g, (f b g).downloadID = g.downloadID) :
    manifestOf downloadID db'.resources = { manifestOf downloadID db.resources with
      files := (manifestOf downloadID db.resources).files.map fun g =>
        l.foldl (fun g b => patch (p b) (f b) g) g } := by
  induction l generalizing db with
  | nil =>
    cases hrun
    simp
  | cons b rest ih =>
    obtain ⟨_, db₁, hfirst, hrest⟩ := Tx.bind_ok.mp hrun
    obtain ⟨_, db₂, hupdate, hpure⟩ := Tx.bind_ok.mp hfirst
    cases hpure
    obtain ⟨r, hr, rfl⟩ := Tx.zoom_ok.mp (requireRow_ok.mp (context_ok.mp hupdate))
    obtain ⟨-, hvalid, rfl⟩ := Slot.updateOne_ok.mp hr
    rw [ih hrest]
    simp only [Manifest.mk.injEq]
    refine ⟨rfl, ?_⟩
    change (List.filter _ (db.resources.downloadFiles.rows.map (patch (p b) (f b)))).map _ = _
    rw [List.filter_map, List.map_map]
    have hkeep : (fun g : DownloadFile => decide (g.downloadID = downloadID)) ∘ patch (p b) (f b) =
        fun g => decide (g.downloadID = downloadID) := by
      funext g
      rw [Function.comp_apply, patch_field (hdownload b)]
    rw [hkeep]
    rfl

end Statements

/-! ## The automatic selection -/

/-- The torrent that an enqueue operation has added, with the options of its download. -/
structure EnqueuedTorrent where
  operationID : UUID
  downloadID : UUID
  hash : String
  savePath : String
  files : List ManifestFile
  options : FileSelectionOptions

section Enqueue

variable (unicode : Unicode) (new : NewOperation) (fileID : Nat → UUID)

/-- What the handler stores for the files of a torrent. -/
def EnqueuedTorrent.completion (torrent : EnqueuedTorrent) (files : List ClassifiedDownloadFile)
    (outcome : ManifestOutcome) (reasonCode : String) : DownloadEnqueueCompletion where
  operationID := torrent.operationID
  downloadID := torrent.downloadID
  torrentHash := torrent.hash
  savePath := torrent.savePath
  files
  outcome
  reasonCode

/-- Without a selection the manifest is unresolved, or rejected if it has no video at all. -/
def unselectedCompletion (torrent : EnqueuedTorrent) (classified : List ClassifiedDownloadFile)
    (error : SelectionError) : DownloadEnqueueCompletion :=
  if error ≠ .noMainVideo ∨ !classified.any fun file => file.kind = .video then
    torrent.completion classified .hardRejected "download_no_main_video"
  else torrent.completion classified .unresolved "download_file_resolution_required"

/-- The end of the handler, with the column `has_resolved_manifest` as it has read it before:
where manifests are not resolved, the selection is stored at once. -/
def enqueueManifest (manifestResolutionEnabled hasResolvedManifest : Bool)
    (torrent : EnqueuedTorrent) : DatabaseTx Unit :=
  if !manifestResolutionEnabled && !hasResolvedManifest then
    match selectDownloadFiles unicode torrent.options torrent.files with
    | .error _ => throw (.text "qBittorrent files cannot be selected safely")
    | .ok selection =>
      completeLegacyEnqueue new fileID (torrent.completion selection.files .resolved "")
  else
    match classifyDownloadFiles unicode torrent.options torrent.files with
    | .error _ => throw (.text "qBittorrent files cannot be persisted safely")
    | .ok classified =>
      match selectDownloadFiles unicode torrent.options torrent.files with
      | .ok selection =>
        completeEnqueue new fileID (torrent.completion selection.files .resolved "")
      | .error error => completeEnqueue new fileID (unselectedCompletion torrent classified error)

end Enqueue

section Complete

variable {new : NewOperation} {fileID : Nat → UUID} {completion : DownloadEnqueueCompletion}
  {db db' : Database}

theorem createDownloadFiles_ok {preserved : Bool} {files}
    (hrun : createDownloadFiles fileID downloadID preserved files db = .ok ((), db')) :
    (∀ entry ∈ files, entry.1.InRange) ∧
      manifestOf downloadID db'.resources = { manifestOf downloadID db.resources with
        files := (manifestOf downloadID db.resources).files ++
          if preserved then [] else
            files.map fun (file, position) => file.row (fileID position) downloadID } := by
  induction files generalizing db with
  | nil =>
    cases hrun
    simp
  | cons entry rest ih =>
    obtain ⟨_, db₁, hfirst, hrest⟩ := Tx.bind_ok.mp hrun
    obtain ⟨hranges, hmanifest⟩ := ih hrest
    obtain ⟨file, position⟩ := entry
    dsimp only at hfirst
    -- every round checks the range, also one that leaves the rows as they are
    split at hfirst
    · cases hfirst
    next hrange =>
    have hrange' : file.InRange := by
      simp only [not_or, not_lt] at hrange
      exact hrange.2
    refine ⟨List.forall_mem_cons.mpr ⟨hrange', hranges⟩, ?_⟩
    rw [hmanifest]
    split at hfirst
    · next hpreserved =>
      cases hfirst
      simp [hpreserved]
    · next hpreserved =>
      obtain ⟨r, hr, rfl⟩ := Tx.zoom_ok.mp (context_ok.mp hfirst)
      have hinsert : manifestOf downloadID r = _ := manifestOf_insert rfl hr
      rw [hinsert]
      simp [hpreserved]

/-- The loop over all files of a completion. -/
theorem createManifest_ok {preserved : Bool} {files}
    (hrun : createDownloadFiles fileID downloadID preserved files.zipIdx db = .ok ((), db')) :
    (∀ f ∈ files, f.InRange) ∧
      manifestOf downloadID db'.resources = { manifestOf downloadID db.resources with
        files := (manifestOf downloadID db.resources).files ++
          if preserved then [] else manifestRows fileID downloadID files } := by
  obtain ⟨hrange, hfiles⟩ := createDownloadFiles_ok hrun
  refine ⟨fun f hf => ?_, hfiles⟩
  rw [← List.zipIdx_map_fst 0 files] at hf
  obtain ⟨entry, hentry, rfl⟩ := List.mem_map.mp hf
  exact hrange entry hentry

/-- A completion leaves the manifest alone, or its files are in range and stored. -/
def Stores (completion : DownloadEnqueueCompletion) (db db' : Database) (stored : Manifest) :
    Prop :=
  manifestOf completion.downloadID db'.resources = manifestOf completion.downloadID db.resources ∨
    (∀ f ∈ completion.files, f.InRange) ∧
      manifestOf completion.downloadID db'.resources = stored

/-- The manifest that the transaction continues with: the stored one, or an empty one. -/
theorem restoreResolvedDownloadManifest_ok {download : Download} {preserved : Bool} {kept}
    (hid : download.id = completion.downloadID) (hmem : download ∈ db.resources.downloads.rows)
    (hrun : restoreResolvedDownloadManifest download completion db = .ok ((preserved, kept), db')) :
    (preserved = true ∧ db' = db ∧ kept.outcome = .resolved ∧
        kept.downloadID = completion.downloadID ∧
        (manifestOf completion.downloadID db.resources).source = download.fileResolutionSource) ∨
      (preserved = false ∧ kept = completion ∧
        (manifestOf completion.downloadID db'.resources).files = []) := by
  obtain ⟨_, _, ⟨⟩, hrest⟩ := Tx.bind_ok.mp hrun
  have hperm : (listDownloadFiles download.id db.resources).Perm
      (manifestOf completion.downloadID db.resources).files := by
    rw [← hid]
    exact List.perm_insertionSort _ _
  -- there are no rows, or the rows of an unresolved download are deleted, or the rows are kept
  split at hrest
  · next hnil =>
    cases hrest
    rw [hnil] at hperm
    exact .inr ⟨rfl, rfl, hperm.nil_eq.symm⟩
  split at hrest
  · obtain ⟨_, s₁, hdelete, hpure⟩ := Tx.bind_ok.mp hrest
    cases hpure
    obtain ⟨r, hr, rfl⟩ := Tx.zoom_ok.mp (context_ok.mp hdelete)
    refine .inr ⟨rfl, rfl, ?_⟩
    obtain ⟨-, rfl⟩ := Slot.delete_ok.mp hr
    rw [← hid]
    change List.filter _ (List.filter _ _) = []
    simp
  split at hrest
  · cases hrest
  cases hfiles : restoreFiles (listDownloadFiles download.id db.resources) completion.files <;>
    simp only [hfiles] at hrest
  · cases hrest
  cases hrest
  refine .inl ⟨rfl, rfl, rfl, rfl, ?_⟩
  have hlookup : lookup Download.id download.id db.resources.downloads.rows = some download :=
    db.resources.downloads.find?_of_mem downloads_pkey hmem
  rw [← hid, manifestOf, hlookup]
  rfl

/-- What a stored outcome leaves of the manifest. -/
theorem keepsManifest_scheduleOutcome {J} {updated : Download} :
    (scheduleOutcome new completion updated).Keeps (OnManifest downloadID J) := by
  unfold scheduleOutcome
  split
  · exact (keeps_context keepsManifest_scheduleInTx).bind fun _ => Tx.Keeps.pure
  · refine (keeps_context (keeps_requireRow (keepsManifest_onResources ?_))).bind fun _ => ?_
    · refine keepsManifest_updateDownload ?_ ?_ <;> exact fun _ => rfl
    exact (keeps_context keepsManifest_scheduleInTx).bind fun _ => Tx.Keeps.pure
  · exact Tx.Keeps.pure

theorem keepsManifest_markRSSEntry {J : Manifest → Prop} {id : UUID} :
    (markDownloadRSSEntryEnqueued id).Keeps fun r => J (manifestOf downloadID r) :=
  Tx.Keeps.get.bind fun _ => Slot.keeps_update fun _ _ h => h

/-- A manifest that is stored replaces an unresolved one and leaves a resolved one alone. -/
theorem storeManifest_ok {locked : Download} (hid : locked.id = completion.downloadID)
    (hmem : locked ∈ db.resources.downloads.rows)
    (hrun : storeManifest new fileID locked completion db = .ok ((), db')) :
    Stores completion db db'
      ⟨if completion.outcome = .resolved then some .deterministic else none,
        manifestRows fileID completion.downloadID completion.files⟩ := by
  obtain ⟨⟨preserved, kept⟩, s₁, hrestore, hrun₁⟩ := Tx.bind_ok.mp hrun
  obtain ⟨updated, s₂, hmark, hrun₂⟩ := Tx.bind_ok.mp hrun₁
  obtain ⟨_, s₃, hcreate, hrest⟩ := Tx.bind_ok.mp hrun₂
  obtain ⟨r, hr, rfl⟩ := Tx.zoom_ok.mp (requireRow_ok.mp (Tx.mapError_ok.mp hmark))
  have hsource := manifestOf_source (s := resolutionSource locked preserved kept.outcome) hr
    (fun _ => rfl) fun _ => rfl
  obtain ⟨hrange, hfiles⟩ := createManifest_ok hcreate
  -- The rest of the transaction leaves the manifest as it is.
  have hend : manifestOf kept.downloadID db'.resources =
      manifestOf kept.downloadID s₃.resources := by
    refine manifest_eq_of_keeps hrest fun J => ?_
    refine (keeps_context (keepsManifest_onResources keepsManifest_markRSSEntry)).bind fun _ => ?_
    exact keepsManifest_appendResourceEvent.bind fun _ => keepsManifest_scheduleOutcome
  rw [hfiles] at hend
  rw [hsource] at hend
  rcases restoreResolvedDownloadManifest_ok hid hmem hrestore with
    ⟨rfl, rfl, houtcome, hdownload, hkept⟩ | ⟨rfl, rfl, hempty⟩
  · left
    rw [← hdownload, hend, hdownload]
    simp [resolutionSource, houtcome, ← hkept]
  · refine .inr ⟨hrange, ?_⟩
    rw [hend]
    simp [hempty, resolutionSource]

theorem completeEnqueue_ok (hrun : completeEnqueue new fileID completion db = .ok ((), db')) :
    Stores completion db db'
      ⟨if completion.outcome = .resolved then some .deterministic else none,
        manifestRows fileID completion.downloadID completion.files⟩ := by
  unfold completeEnqueue at hrun
  cases hcheck : completion.check <;> simp only [hcheck] at hrun
  · cases hrun
  obtain ⟨locked, s, hlock, hrest⟩ := Tx.bind_ok.mp hrun
  obtain ⟨rfl, hmem, hid⟩ := lockDownloadByID_ok (context_ok.mp (orNotFound_ok.mp hlock))
  split at hrest
  · exact storeManifest_ok hid hmem hrest
  split at hrest
  · cases hrest
    exact .inl rfl
  · cases hrest

theorem completeLegacyEnqueue_ok
    (hrun : completeLegacyEnqueue new fileID completion db = .ok ((), db')) :
    Stores completion db db'
      ⟨some .deterministic, (manifestOf completion.downloadID db.resources).files ++
        manifestRows fileID completion.downloadID completion.files⟩ := by
  unfold completeLegacyEnqueue at hrun
  cases hcheck : completion.check <;> simp only [hcheck] at hrun
  · cases hrun
  obtain ⟨locked, s, hlock, hrest⟩ := Tx.bind_ok.mp hrun
  obtain ⟨rfl, -, -⟩ := lockDownloadByID_ok (context_ok.mp (orNotFound_ok.mp hlock))
  split at hrest
  · right
    obtain ⟨updated, s₂, hmark, hrun₂⟩ := Tx.bind_ok.mp hrest
    obtain ⟨_, s₃, hcreate, hend⟩ := Tx.bind_ok.mp hrun₂
    obtain ⟨r, hr, rfl⟩ := Tx.zoom_ok.mp (requireRow_ok.mp (Tx.mapError_ok.mp hmark))
    have hsource := manifestOf_source hr (fun _ => rfl) fun _ => rfl
    obtain ⟨hrange, hfiles⟩ := createManifest_ok hcreate
    have hsame : manifestOf completion.downloadID db'.resources =
        manifestOf completion.downloadID s₃.resources := by
      refine manifest_eq_of_keeps hend fun J => ?_
      refine (keeps_context (keepsManifest_onResources keepsManifest_markRSSEntry)).bind fun _ => ?_
      exact (keeps_context keepsManifest_scheduleInTx).bind fun _ =>
        keepsManifest_appendResourceEvent
    refine ⟨hrange, ?_⟩
    rw [hsame, hfiles]
    rw [hsource]
    rfl
  split at hrest
  · cases hrest
    exact .inl rfl
  · cases hrest

end Complete

/-! ## Resolutions -/

section Resolve

variable {downloadID : UUID} {db db' : Database} {items : List DownloadFileResolutionItem}

theorem checkFileResolution_ok {text : String} {itemsOf}
    (hrun : checkFileResolution downloadID text itemsOf db = .ok (items, db')) :
    db' = db ∧ AcceptedResolution (listDownloadFiles downloadID db.resources) items := by
  obtain ⟨_, _, ⟨⟩, hrest⟩ := Tx.bind_ok.mp hrun
  obtain ⟨contextRow, s, hcontext, hrest⟩ := Tx.bind_ok.mp hrest
  obtain ⟨r, hr, rfl⟩ := Tx.zoom_ok.mp (requireRow_ok.mp (context_ok.mp hcontext))
  obtain ⟨_, _, ⟨⟩, hpure⟩ := Tx.bind_ok.mp hr
  obtain ⟨-, rfl⟩ := Prod.mk.inj (Except.ok.inj hpure)
  generalize listDownloadFiles downloadID db.resources = files at hrest ⊢
  cases hitems : itemsOf files <;> simp only [hitems] at hrest
  · cases hrest
  next given =>
  cases hvalid : validateDownloadFileResolution files given <;> simp only [hvalid] at hrest
  · cases hrest
  cases hsingle : validateSingleEpisodeFileResolution files given contextRow.defaultSourceSeason
    contextRow.defaultSourceEpisode <;> simp only [hsingle] at hrest
  · cases hrest
  cases hrest
  exact ⟨rfl, validateDownloadFileResolution_ok_iff.mp hvalid⟩

/-- An accepted resolution leaves a valid selection. -/
theorem resolveAll_valid
    (h : AcceptedResolution (listDownloadFiles downloadID db.resources) items) :
    ValidSelection ((manifestOf downloadID db.resources).files.map
      (·.resolveAll downloadID items)) := by
  have hperm : (listDownloadFiles downloadID db.resources).Perm
      (manifestOf downloadID db.resources).files := List.perm_insertionSort _ _
  refine (h.valid ?_ ?_).perm (hperm.map _)
  · refine (hperm.map _).nodup_iff.mpr ?_
    exact (db.resources.downloadFiles.nodup_keys downloadFiles_pkey).sublist
      (List.filter_sublist.map _)
  · intro f hf
    have := (List.mem_filter.mp (hperm.mem_iff.mp hf)).2
    simpa using this

theorem storeResolution_ok {text sourceText conflict : String} {updated : Download}
    {source} {agentResolutionID : Option UUID}
    (hrun : storeResolution downloadID text items
      (setDownloadResolutionSource downloadID expectedVersion source agentResolutionID)
      sourceText conflict db = .ok (updated, db')) :
    manifestOf downloadID db'.resources = ⟨some source,
      (manifestOf downloadID db.resources).files.map (·.resolveAll downloadID items)⟩ := by
  obtain ⟨_, s, hfiles, hrun₁⟩ := Tx.bind_ok.mp hrun
  obtain ⟨row, s', hsource, hrest⟩ := Tx.bind_ok.mp hrun₁
  have hmanifest : manifestOf downloadID s.resources = _ :=
    manifestOf_updates hfiles fun _ _ => rfl
  cases row with
  | none => cases hrest
  | some row =>
    cases hrest
    obtain ⟨r, hr, rfl⟩ := Tx.zoom_ok.mp (context_ok.mp hsource)
    rw [manifestOf_source hr (fun _ => rfl) fun _ => rfl, hmanifest]
    rfl

theorem saveFileResolution_ok {key : String} {op : Operation}
    (hrun : saveFileResolution downloadID expectedVersion items new key db = .ok (op, db')) :
    manifestOf downloadID db'.resources = manifestOf downloadID db.resources ∨
      (manifestOf downloadID db'.resources).Sound := by
  obtain ⟨existing, s, hfind, hrest⟩ := Tx.bind_ok.mp hrun
  obtain rfl : s = db := keeps_findIdempotentResourceCommand (I := (· = db)) rfl hfind
  cases existing with
  | some existing =>
    left
    exact manifest_eq_of_keeps hrest fun J =>
      (keeps_orNotFound (keeps_context keeps_readOne)).bind fun _ => Tx.Keeps.pure
  | none =>
    right
    obtain ⟨current, s₁, hlock, hlocked⟩ := Tx.bind_ok.mp hrest
    split at hlocked
    · cases hlocked
    split at hlocked
    · cases hlocked
    obtain ⟨normalized, s₂, hcheck, hchecked⟩ := Tx.bind_ok.mp hlocked
    obtain ⟨rfl, haccepted⟩ := checkFileResolution_ok hcheck
    obtain ⟨updated, s₃, hstore, hend⟩ := Tx.bind_ok.mp hchecked
    have hsame : manifestOf downloadID db'.resources = manifestOf downloadID s₃.resources :=
      manifest_eq_of_keeps hend fun J => (keeps_context keepsManifest_scheduleInTx).bind fun _ =>
        keepsManifest_appendResourceEvent.bind fun _ => Tx.Keeps.pure
    rw [hsame, storeResolution_ok hstore]
    exact fun _ => resolveAll_valid haccepted

theorem applyDownloadFileResolution_ok {resolution}
    {resourceVersion : Option Int} {proposal}
    (hrun : applyDownloadFileResolution resolution new resourceVersion proposal db =
      .ok ((), db')) :
    (manifestOf resolution.resourceID db'.resources).Sound := by
  obtain ⟨_, s, hproposal, hrun₁⟩ := Tx.bind_ok.mp hrun
  obtain ⟨download, s₁, hlock, hlocked⟩ := Tx.bind_ok.mp hrun₁
  obtain ⟨rfl, -, hid⟩ := lockDownloadByID_ok (context_ok.mp (orNotFound_ok.mp hlock))
  split at hlocked
  · cases hlocked
  split at hlocked
  · cases hlocked
  obtain ⟨normalized, s₂, hcheck, hchecked⟩ := Tx.bind_ok.mp hlocked
  obtain ⟨rfl, haccepted⟩ := checkFileResolution_ok hcheck
  obtain ⟨updated, s₃, hstore, hend⟩ := Tx.bind_ok.mp hchecked
  have hsame : manifestOf download.id db'.resources = manifestOf download.id s₃.resources := by
    refine manifest_eq_of_keeps hend fun J => ?_
    refine (keeps_context keepsManifest_scheduleInTx).bind fun _ => ?_
    refine (keeps_context (keeps_requireRow (keepsManifest_onResources ?_))).bind fun _ => ?_
    · exact Slot.keeps_updateOne fun _ _ h => h
    · exact keepsManifest_appendResourceEvent
  rw [← hid, hsame, storeResolution_ok hstore]
  exact fun _ => resolveAll_valid haccepted

end Resolve

/-! ## Saved selections -/

/-- The file with the flag that a request gives it. -/
def DownloadFile.reselect (selections : Selections) (f : DownloadFile) : DownloadFile :=
  selections.foldl (fun f selection =>
    patch (fun f => f.id = selection.1) (fun f => { f with selected := selection.2 }) f) f

theorem keepsManifest_enterSelection {downloadID id : UUID} {current : Download}
    {J} : (enterSelection id current).Keeps (OnManifest downloadID J) := by
  unfold enterSelection
  split
  · refine (keeps_context (keeps_requireRow (keepsManifest_onResources ?_))).bind
      fun _ => Tx.Keeps.pure
    refine keepsManifest_updateDownload ?_ ?_ <;> exact fun _ => rfl
  · exact Tx.Keeps.pure

/-- **A saved selection** changes the flags of its request and nothing else. -/
theorem saveFileSelection_ok {key : String} {selections : Selections} {op : Operation}
    {db db' : Database}
    (hrun : saveFileSelection downloadID expectedVersion new key selections db = .ok (op, db')) :
    manifestOf downloadID db'.resources = { manifestOf downloadID db.resources with
      files := (manifestOf downloadID db.resources).files.map (·.reselect selections) } := by
  obtain ⟨current, s, hlock, hlocked⟩ := Tx.bind_ok.mp hrun
  obtain ⟨rfl, -, -⟩ := lockDownloadByID_ok (context_ok.mp (orNotFound_ok.mp hlock))
  split at hlocked
  · cases hlocked
  split at hlocked
  · cases hlocked
  obtain ⟨_, _, ⟨⟩, hlisted⟩ := Tx.bind_ok.mp hlocked
  cases hunknown : unknownFile? (listDownloadFiles current.id s.resources) selections <;>
    simp only [hunknown] at hlisted
  case some => cases hlisted
  obtain ⟨_, s₁, hupdate, hend⟩ := Tx.bind_ok.mp hlisted
  split at hend
  · cases hend
  have hmanifest : manifestOf downloadID s₁.resources = _ :=
    manifestOf_updates hupdate fun _ _ => rfl
  have hsame : manifestOf downloadID db'.resources = manifestOf downloadID s₁.resources := by
    refine manifest_eq_of_keeps hend fun J => ?_
    refine keepsManifest_enterSelection.bind fun _ => ?_
    refine (keeps_context keepsManifest_scheduleInTx).bind fun _ => ?_
    exact keepsManifest_appendResourceEvent.bind fun _ =>
      (keeps_context (keeps_requireRow keeps_readOne)).bind fun _ => Tx.Keeps.pure
  rw [hsame, hmanifest]
  rfl

/-! ## Runs -/

/-- The calls that write the manifest of a download. -/
inductive ManifestCall where
  | enqueue (manifestResolutionEnabled hasResolvedManifest : Bool) (torrent : EnqueuedTorrent)
      (new : NewOperation) (fileID : Nat → UUID)
  | resolveFiles (expectedVersion : Int) (items : List DownloadFileResolutionItem)
      (new : NewOperation) (key : String)
  | agentResolution (resolution : ProposedResolution) (resourceVersion : Option Int)
      (proposal : AgentDownloadFileResolutionProposal) (new : NewOperation)
  | saveSelection (expectedVersion : Int) (selections : Selections) (new : NewOperation)
      (key : String)

section Runs

variable (unicode : Unicode) (downloadID : UUID)

namespace ManifestCall

/-- The transaction of a call on the download. -/
def run : ManifestCall → DatabaseTx Unit
  | enqueue enabled resolved torrent new fileID =>
    enqueueManifest unicode new fileID enabled resolved { torrent with downloadID }
  | resolveFiles expectedVersion items new key => do
    let _ ← saveFileResolution downloadID expectedVersion items new key
  | agentResolution resolution resourceVersion proposal new =>
    applyDownloadFileResolution { resolution with resourceID := downloadID } new resourceVersion
      proposal
  | saveSelection expectedVersion selections new key => do
    let _ ← saveFileSelection downloadID expectedVersion new key selections

/-- An accepted selection of a resolved manifest passes the validation with the flags of the
request. A completion that stores its own selection, since the handler has read that none is
resolved, finds no file selected. -/
def Meets (db : Database) (call : ManifestCall) : Prop :=
  match call with
  | enqueue enabled resolved _ _ _ => enabled = false → resolved = false →
    ∀ f ∈ (manifestOf downloadID db.resources).files, f.selected = false
  | saveSelection _ selections _ _ => (∃ db', call.run unicode downloadID db = .ok ((), db')) →
    (manifestOf downloadID db.resources).source.isSome = true →
      ValidSelection ((manifestOf downloadID db.resources).files.map (·.reselect selections))
  | _ => True

end ManifestCall

/-- One call, or something else that leaves the manifest alone or drops it. -/
inductive ManifestStep (allowed : Database → ManifestCall → Prop) : Database → Database → Prop where
  | call {db : Database} (call : ManifestCall) (hallowed : allowed db call) :
      ManifestStep allowed db ((call.run unicode downloadID).commit db)
  | elsewhere {db db' : Database}
      (h : manifestOf downloadID db'.resources = manifestOf downloadID db.resources ∨
        manifestOf downloadID db'.resources = ⟨none, []⟩) : ManifestStep allowed db db'

variable {unicode downloadID} {db db' : Database}

variable {fileID : Nat → UUID}

/-- The legacy path adds a valid selection to files that are not selected. -/
theorem completeLegacyEnqueue_sound {completion options files selection}
    (hselect : selectDownloadFiles unicode options files = .ok selection)
    (hfiles : completion.files = selection.files)
    (hsound : (manifestOf completion.downloadID db.resources).Sound)
    (hold : ∀ f ∈ (manifestOf completion.downloadID db.resources).files, f.selected = false)
    (hrun : completeLegacyEnqueue new fileID completion db = .ok ((), db')) :
    (manifestOf completion.downloadID db'.resources).Sound := by
  rcases completeLegacyEnqueue_ok hrun with hsame | ⟨hrange, hmanifest⟩
  · rwa [hsame]
  rw [hfiles] at hrange hmanifest
  have hvalid : ValidSelection (manifestRows fileID completion.downloadID selection.files) :=
    manifestRows_valid hselect hrange
  rw [hmanifest]
  exact fun _ => hvalid.append hold

theorem completeEnqueue_sound {completion}
    (hresolved : completion.outcome = .resolved → (∀ f ∈ completion.files, f.InRange) →
      ValidSelection (manifestRows fileID completion.downloadID completion.files))
    (hsound : (manifestOf completion.downloadID db.resources).Sound)
    (hrun : completeEnqueue new fileID completion db = .ok ((), db')) :
    (manifestOf completion.downloadID db'.resources).Sound := by
  rcases completeEnqueue_ok hrun with hsame | ⟨hrange, hmanifest⟩
  · rwa [hsame]
  rw [hmanifest]
  by_cases houtcome : completion.outcome = .resolved
  · rw [if_pos houtcome]
    exact fun _ => hresolved houtcome hrange
  · rw [if_neg houtcome]
    exact Manifest.sound_of_unresolved rfl

theorem enqueueManifest_sound {enabled resolved : Bool} {torrent}
    (hsound : (manifestOf torrent.downloadID db.resources).Sound)
    (hold : enabled = false → resolved = false →
      ∀ f ∈ (manifestOf torrent.downloadID db.resources).files, f.selected = false)
    (hrun : enqueueManifest unicode new fileID enabled resolved torrent db = .ok ((), db')) :
    (manifestOf torrent.downloadID db'.resources).Sound := by
  unfold enqueueManifest at hrun
  split at hrun
  · next hlegacy =>
    rw [Bool.and_eq_true, Bool.not_eq_true', Bool.not_eq_true'] at hlegacy
    cases hselect : selectDownloadFiles unicode torrent.options torrent.files with
    | error error =>
      rw [hselect] at hrun
      cases hrun
    | ok selection =>
      rw [hselect] at hrun
      exact completeLegacyEnqueue_sound hselect rfl hsound (hold hlegacy.1 hlegacy.2) hrun
  · cases hclassify : classifyDownloadFiles unicode torrent.options torrent.files with
    | error error =>
      rw [hclassify] at hrun
      cases hrun
    | ok classified =>
      rw [hclassify] at hrun
      cases hselect : selectDownloadFiles unicode torrent.options torrent.files with
      | ok selection =>
        rw [hselect] at hrun
        exact completeEnqueue_sound (fun _ => manifestRows_valid hselect) hsound hrun
      | error error =>
        rw [hselect] at hrun
        dsimp only [unselectedCompletion] at hrun
        split at hrun <;> exact completeEnqueue_sound (fun h => by cases h) hsound hrun

/-- A call that meets its condition keeps manifests sound. -/
theorem ManifestCall.sound {call : ManifestCall} (hmeets : call.Meets unicode downloadID db)
    (hsound : (manifestOf downloadID db.resources).Sound) {u : Unit}
    (hrun : call.run unicode downloadID db = .ok (u, db')) :
    (manifestOf downloadID db'.resources).Sound := by
  cases call with
  | enqueue enabled resolved torrent new fileID =>
    have henqueue : enqueueManifest unicode new fileID enabled resolved
        { torrent with downloadID } db = .ok (u, db') := hrun
    refine enqueueManifest_sound hsound ?_ henqueue
    exact hmeets
  | resolveFiles expectedVersion items new key =>
    obtain ⟨op, s, hsave, hpure⟩ := Tx.bind_ok.mp hrun
    cases hpure
    rcases saveFileResolution_ok hsave with hsame | hvalid
    · rwa [hsame]
    · exact hvalid
  | agentResolution resolution resourceVersion proposal new =>
    exact applyDownloadFileResolution_ok hrun
  | saveSelection expectedVersion selections new key =>
    obtain ⟨op, s, hsave, hpure⟩ := Tx.bind_ok.mp hrun
    cases hpure
    rw [saveFileSelection_ok hsave]
    exact hmeets ⟨_, hrun⟩

theorem ManifestStep.sound
    (hstep : ManifestStep unicode downloadID (fun db call => call.Meets unicode downloadID db)
      db db')
    (hsound : (manifestOf downloadID db.resources).Sound) :
    (manifestOf downloadID db'.resources).Sound := by
  cases hstep with
  | call call hmeets =>
    exact Tx.commit_preserves (I := fun db => (manifestOf downloadID db.resources).Sound) hsound
      fun _ _ hrun => call.sound hmeets hsound hrun
  | elsewhere h =>
    rcases h with hsame | hdropped
    · rwa [hsame]
    · rw [hdropped]
      exact Manifest.sound_of_unresolved rfl

end Runs

/-- In every run in which the accepted selections pass the validation, so does every resolved
manifest. -/
theorem resolved_manifest_valid (unicode : Unicode) (downloadID : UUID) (db db' : Database)
    (hfresh : manifestOf downloadID db.resources = ⟨none, []⟩)
    (hrun : Relation.ReflTransGen
      (ManifestStep unicode downloadID fun db call => call.Meets unicode downloadID db) db db')
    (hresolved : (manifestOf downloadID db'.resources).source.isSome = true) :
    ValidSelection (manifestOf downloadID db'.resources).files := by
  have hsound := invariant_of_step
    (fun _ _ hstep => hstep.sound) hrun (hfresh ▸ Manifest.sound_of_unresolved rfl)
  exact hsound hresolved

/-! ## Two videos of one episode -/

def freshDownload : Database where
  resources := { downloads := ⟨[{ id := 1, acquisitionID := 2 }], by decide⟩ }

/-- The torrent of the download has two videos of one episode. -/
def enqueueTwoVideos : ManifestCall :=
  .enqueue true false {
    operationID := 30, downloadID := 1, hash := "c0ffee", savePath := "/downloads/1"
    files := [⟨0, "E1.mkv", 10⟩, ⟨1, "E1.mp4", 20⟩], options := { defaultSeason := 1 } }
    ⟨31, 1⟩ (· + 41)

def enqueuedTwoVideos : Database := (enqueueTwoVideos.run asciiUnicode 1).commit freshDownload

theorem resolved_manifest_valid_twoVideos :
    (manifestOf 1 enqueuedTwoVideos.resources).source.isSome = true ∧
      ValidSelection (manifestOf 1 enqueuedTwoVideos.resources).files := by
  have hresolved : (manifestOf 1 enqueuedTwoVideos.resources).source.isSome = true := by
    decide +kernel
  refine ⟨hresolved, resolved_manifest_valid asciiUnicode 1 freshDownload _ rfl ?_ hresolved⟩
  refine .single (.call enqueueTwoVideos ?_)
  intro hdisabled
  cases hdisabled

def markDownloadCompleted (id : UUID) (expectedVersion : Int) :
    ResourcesTx (Option Download) :=
  downloadsSlot.updateOne
    (atKey Download.id id fun d => d.status ∈ [.enqueuePending, .fileResolutionPending,
      .downloading, .completed, .selectingFiles, .failed] && (d.version : Int) = expectedVersion)
    fun d => { d with status := .completed, errorMessage := none, version := d.version + 1 }

theorem manifestOf_markDownloadCompleted {downloadID id : UUID} (db : Database) :
    manifestOf downloadID ((onResources (markDownloadCompleted id expectedVersion)).commit
      db).resources = manifestOf downloadID db.resources := by
  refine Tx.commit_preserves (I := fun s => manifestOf downloadID s.resources =
    manifestOf downloadID db.resources) rfl fun _ _ hrun => manifest_eq_of_keeps hrun fun J => ?_
  refine keepsManifest_onResources (keepsManifest_updateDownload ?_ ?_) <;> exact fun _ => rfl

def completedTwoVideos : Database :=
  (onResources (markDownloadCompleted 1 2)).commit enqueuedTwoVideos

/-- The request selects the smaller video too. -/
def selectBoth : ManifestCall := .saveSelection 3 [(41, true)] ⟨50, 2⟩ "save"

/-- **A saved selection with two videos** of one episode is accepted. -/
theorem duplicate_selection_accepted :
    ∃ db, manifestOf 1 freshDownload.resources = ⟨none, []⟩ ∧
      Relation.ReflTransGen (ManifestStep asciiUnicode 1 fun _ _ => True) freshDownload db ∧
      (manifestOf 1 db.resources).source.isSome = true ∧
      ¬ ((manifestOf 1 db.resources).files.filterMap (·.selectedAt? .video)).Nodup := by
  refine ⟨(selectBoth.run asciiUnicode 1).commit completedTwoVideos, rfl, ?_, by decide +kernel⟩
  have henqueue : ManifestStep asciiUnicode 1 (fun _ _ => True) freshDownload
      enqueuedTwoVideos := by
    exact .call enqueueTwoVideos trivial
  have hcomplete : ManifestStep asciiUnicode 1 (fun _ _ => True) enqueuedTwoVideos
      completedTwoVideos := .elsewhere (.inl (manifestOf_markDownloadCompleted _))
  exact ((Relation.ReflTransGen.single henqueue).tail hcomplete).tail (.call selectBoth trivial)

/-! ## Restoring a resolved manifest -/

section Restored

/-- A stored file as qBittorrent reported it. -/
def DownloadFile.reported (f : DownloadFile) : ManifestFile :=
  ⟨f.fileIndex, f.relativePath, f.sizeBytes⟩

variable {byIndex : List DownloadFile} {files restored : List ClassifiedDownloadFile}

/-- Each new file takes the previous file with its index, path and size away. -/
theorem restoreFiles_cons {file} : restoreFiles byIndex (file :: files) = some restored ↔
      ∃ previous, (byIndex.find? fun p => p.fileIndex = int32 file.index) = some previous ∧
        0 ≤ file.index ∧ previous.reported = file.toManifestFile ∧
        ∃ more, restoreFiles (byIndex.filter (·.fileIndex ≠ previous.fileIndex)) files = some more ∧
          restored = file.restore previous :: more := by
  rw [restoreFiles]
  cases byIndex.find? fun p => p.fileIndex = int32 file.index with
  | none => simp
  | some previous =>
    have hsame : previous.reported = file.toManifestFile ↔ previous.fileIndex = file.index ∧
        previous.relativePath = file.relativePath ∧ previous.sizeBytes = file.sizeBytes :=
      ManifestFile.mk.injEq .. ▸ Iff.rfl
    simp only [Option.some.injEq, exists_eq_left', hsame]
    split_ifs with hdiffers
    · grind
    · push Not at hdiffers
      simp [hdiffers, @eq_comm _ restored]

theorem restoreFiles_some (h : restoreFiles byIndex files = some restored) :
    restored.map (·.toManifestFile) = files.map (·.toManifestFile) ∧
      ∀ file ∈ restored, ∃ previous ∈ byIndex, previous.reported = file.toManifestFile ∧
        file = file.restore previous := by
  induction files generalizing byIndex restored with
  | nil =>
    cases h
    simp
  | cons file rest ih =>
    obtain ⟨previous, hfound, -, hsame, more, hmore, rfl⟩ := restoreFiles_cons.mp h
    obtain ⟨hlist, hdecided⟩ := ih hmore
    refine ⟨by simp only [List.map_cons, hlist]; rfl, List.forall_mem_cons.mpr
      ⟨⟨previous, List.mem_of_find?_eq_some hfound, hsame, rfl⟩, fun other hother => ?_⟩⟩
    obtain ⟨p, hp, hmatch⟩ := hdecided other hother
    exact ⟨p, List.mem_of_mem_filter hp, hmatch⟩

/-- It is enough that no new file occurs twice and that each of them is a previous one. -/
theorem restoreFiles_isSome_iff (hindex : (byIndex.map (·.fileIndex)).Nodup)
    (hcolumn : ∀ p ∈ byIndex, 0 ≤ p.fileIndex ∧ p.fileIndex < 2 ^ 31) :
    (∃ restored, restoreFiles byIndex files = some restored) ↔
      (files.map (·.toManifestFile)).Nodup ∧
        files.map (·.toManifestFile) ⊆ byIndex.map (·.reported) := by
  induction files generalizing byIndex with
  | nil => simp [restoreFiles]
  | cons file rest ih =>
    have hinj := fun p hp q hq => @List.inj_on_of_nodup_map _ _ _ _ hindex p hp q hq
    have hrest (previous : DownloadFile) := @ih (byIndex.filter (·.fileIndex ≠ previous.fileIndex))
      (hindex.sublist (List.filter_sublist.map _)) fun p hp => hcolumn p (List.mem_of_mem_filter hp)
    have hkey : ∀ p : DownloadFile, p.reported.index = p.fileIndex := fun _ => rfl
    simp only [restoreFiles_cons, List.map_cons, List.nodup_cons, List.cons_subset]
    constructor
    · rintro ⟨_, previous, hfound, -, hsame, more, hmore, rfl⟩
      have hleft := (hrest previous).mp ⟨more, hmore⟩
      grind [List.mem_of_find?_eq_some hfound]
    · rintro ⟨⟨hnew, hnodup⟩, hmem, hsubset⟩
      obtain ⟨previous, hprevious, hsame⟩ := List.mem_map.mp hmem
      have hat : previous.fileIndex = file.index := congrArg ManifestFile.index hsame
      obtain ⟨hlow, hhigh⟩ := hcolumn previous hprevious
      obtain ⟨more, hmore⟩ := (hrest previous).mpr ⟨hnodup, by grind⟩
      refine ⟨_, previous, ?_, by omega, hsame, more, hmore, rfl⟩
      rw [← hat, int32_of_range hlow (by omega)]
      exact find?_of_nodup hindex hprevious

variable {db : Database} {download : Download} {completion : DownloadEnqueueCompletion}

theorem nodup_fileIndex (id : UUID) (r : Resources) :
    ((listDownloadFiles id r).map (·.fileIndex)).Nodup := by
  have hkeys : (r.downloadFiles.rows.map fun f => (f.downloadID, f.fileIndex)).Nodup :=
    r.downloadFiles.nodup_keys (List.mem_cons_of_mem _ List.mem_cons_self)
  refine ((List.perm_insertionSort _ _).map _).nodup_iff.mpr ?_
  refine (hkeys.of_map.filter _).map_on fun f hf g hg hindex => ?_
  have hdownload : f.downloadID = g.downloadID := by grind
  exact List.inj_on_of_nodup_map hkeys (List.mem_of_mem_filter hf) (List.mem_of_mem_filter hg)
    (Prod.ext hdownload hindex)

/-- A resolved manifest is kept exactly when the new one has the same files, in whatever order, and
was not rejected outright; every file then has what was decided about it before, whatever the new
classification says. The bound is that of an `integer` column. -/
theorem resolved_manifest_restored_iff (hsource : download.fileResolutionSource ≠ none)
    (hfiles : listDownloadFiles download.id db.resources ≠ [])
    (hcolumn : ∀ f ∈ db.resources.downloadFiles.rows, f.fileIndex < 2 ^ 31) :
    ((∃ kept db', restoreResolvedDownloadManifest download completion db =
      .ok ((true, kept), db')) ↔
      completion.outcome ≠ .hardRejected ∧
        ((listDownloadFiles download.id db.resources).map (·.reported)).Perm
          (completion.files.map (·.toManifestFile))) ∧
    ∀ kept db', restoreResolvedDownloadManifest download completion db = .ok ((true, kept), db') →
      db' = db ∧ kept.outcome = .resolved ∧
        kept.files.map (·.toManifestFile) = completion.files.map (·.toManifestFile) ∧
        ∀ file ∈ kept.files, ∃ previous ∈ listDownloadFiles download.id db.resources,
          previous.reported = file.toManifestFile ∧ file.selected = previous.selected ∧
          file.kind = previous.mediaKind ∧ file.coordinate = ⟨previous.sourceSeason.getD 0,
            previous.sourceEpisode.getD 0, previous.sourceEpisodeFractionHundredths⟩ := by
  have hrun : restoreResolvedDownloadManifest download completion db =
      if (listDownloadFiles download.id db.resources).length ≠ completion.files.length ∨
          completion.outcome = .hardRejected then .error manifestChanged
      else (restoreFiles (listDownloadFiles download.id db.resources) completion.files).elim
        (.error manifestChanged)
        fun files => .ok ((true, { completion with files, outcome := .resolved }), db) := by
    show (if _ then _ else if _ then _ else if _ then _ else _ : Tx Fault Database _) db = _
    rw [if_neg hfiles, if_neg (by simpa using hsource)]
    split_ifs
    · rfl
    · cases restoreFiles (listDownloadFiles download.id db.resources) completion.files <;> rfl
  have hindex := nodup_fileIndex download.id db.resources
  have hmem : ∀ p ∈ listDownloadFiles download.id db.resources,
      p ∈ db.resources.downloadFiles.rows := fun p hp =>
    List.mem_of_mem_filter ((List.perm_insertionSort _ _).mem_iff.mp hp)
  rw [hrun]
  generalize listDownloadFiles download.id db.resources = existing at hindex hmem
  have hsome := @restoreFiles_isSome_iff existing completion.files hindex fun p hp =>
    ⟨of_decide_eq_true (db.resources.downloadFiles.check List.mem_cons_self (hmem p hp)),
      hcolumn p (hmem p hp)⟩
  have hnodup : (existing.map (·.reported)).Nodup :=
    List.Nodup.of_map ManifestFile.index (by rwa [List.map_map])
  split_ifs with hrefused
  · refine ⟨iff_of_false (by simp) ?_, by simp⟩
    rintro ⟨hout, h⟩
    exact hrefused.elim (fun hlength => hlength (by simpa using h.length_eq)) hout
  push Not at hrefused
  -- With as many files on both sides, distinct members of the other list are all of it.
  have hperm : (existing.map (·.reported)).Perm (completion.files.map (·.toManifestFile)) ↔
      ∃ restored, restoreFiles existing completion.files = some restored := by
    rw [hsome]
    refine ⟨fun h => ⟨h.nodup_iff.mp hnodup, h.symm.subset⟩, ?_⟩
    rintro ⟨hnew, hsubset⟩
    exact ((List.subperm_of_subset hnew hsubset).perm_of_length_le (by simp [hrefused.1])).symm
  rw [hperm]
  cases hrestored : restoreFiles existing completion.files with
  | none => exact ⟨by simp, by simp⟩
  | some files =>
    obtain ⟨hlist, hdecided⟩ := restoreFiles_some hrestored
    refine ⟨by simp [hrefused.2], fun kept db' h => ?_⟩
    cases h
    refine ⟨rfl, rfl, hlist, fun file hfile => ?_⟩
    obtain ⟨previous, hprevious, hsame, hfile⟩ := hdecided file hfile
    rw [hfile]
    exact ⟨previous, hprevious, hsame, rfl, rfl, rfl⟩

end Restored

def resolvedTwoVideos : Download :=
  { id := 1, acquisitionID := 2, fileResolutionSource := some .deterministic }

/-- The same torrent, listed the other way round and not classified. -/
def reorderedTwoVideos (outcome : ManifestOutcome) : DownloadEnqueueCompletion where
  operationID := 32
  downloadID := 1
  torrentHash := "c0ffee"
  savePath := "/downloads/1"
  files := [⟨⟨1, "E1.mp4", 20⟩, .unknown, false, {}, ""⟩,
    ⟨⟨0, "E1.mkv", 10⟩, .unknown, false, {}, ""⟩]
  outcome := outcome

theorem resolved_manifest_restored_reordered :
    ∃ kept db', restoreResolvedDownloadManifest resolvedTwoVideos (reorderedTwoVideos .unresolved)
      enqueuedTwoVideos = .ok ((true, kept), db') :=
  (resolved_manifest_restored_iff (by decide) (by decide +kernel) (by decide +kernel)).1.mpr
    ⟨by decide, by decide +kernel⟩

/-- The same files, but the new classification rejects them: the selection is not restored. -/
theorem rejected_manifest_not_restored :
    ((listDownloadFiles 1 enqueuedTwoVideos.resources).map (·.reported)).Perm
        ((reorderedTwoVideos .hardRejected).files.map (·.toManifestFile)) ∧
      (restoreResolvedDownloadManifest resolvedTwoVideos (reorderedTwoVideos .hardRejected)
        enqueuedTwoVideos).isOk = false := by
  decide +kernel

end EmbyAuto
