import EmbyAuto.Files.Removal
import EmbyAuto.Operation.Worker

/-!
# The files that cleanups and deletions remove

The cleanup of a task and the deletion of an acquisition go through their paths one by one, and
stop at the first error. Each path is checked and removed on its own, against the tree that the
removals before it have left; the empty directories above some of the files are then removed one
by one up to the configured root. The loops of the two workers are modelled as the list of the
actions that are still to do, so that every state in between is a state of the model.

## Main definitions

* `PathSettings`, `validatePathSettings`: the configured roots and their validation
* `FileAction`, `FileRun.next`: one action of a worker
* `cleanupActions`, `deletionActions`: what the two workers do to the files
* `FileAction.target`: the entry that an action deletes

## Main results

* `kept_iff`: a run keeps a set of entries exactly where no action deletes above one of them
* `libraries_kept_told`, `libraries_kept`: when a deletion keeps what lies in the media libraries
* `configured_roots_kept_physical`, `configured_roots_kept`: when the configured roots are kept
-/

namespace EmbyAuto

open FileTree

/-! ## Path settings -/

structure PathSettings where
  downloadRoot : String
  workRoot : String
  stagingRoot : String
  animeLibraryRoot : String
  movieLibraryRoot : String
  libraryRoot : String := ""

def PathSettings.effectiveAnimeLibraryRoot (paths : PathSettings) : String :=
  if trimSpace paths.animeLibraryRoot ≠ "" then paths.animeLibraryRoot else paths.libraryRoot

def PathSettings.stagingRoots (paths : PathSettings) : List String :=
  [paths.stagingRoot, paths.workRoot]

def PathSettings.libraryRoots (paths : PathSettings) : List String :=
  [paths.effectiveAnimeLibraryRoot, paths.movieLibraryRoot]

section Validation

variable (foldRune : Char → Char)

/-- `configurationPathsOverlap` and `deletionPathsOverlap`. -/
def pathsOverlap (left right : Runes) : Bool :=
  pathContains left right || pathContains right left

end Validation

/-! ## Errors of the workers -/

def cleanupPathFailure (kind : String) : RemovalError → HandlerResult
  | .safety _ =>
    .failure "cleanup_path_unsafe" ("the " ++ kind ++ " path is outside configured cleanup roots")
      false
  | .plain _ =>
    .failure "cleanup_delete_failed" ("the " ++ kind ++ " path could not be removed") true

def acquisitionDeletePathFailure (kind : String) : RemovalError → HandlerResult
  | .safety _ =>
    .failure "acquisition_delete_path_unsafe"
      ("the " ++ kind ++ " is outside configured cleanup roots") false
  | .plain _ =>
    .failure "acquisition_delete_file_failed" ("the " ++ kind ++ " could not be removed") true

def acquisitionDeleteLibraryPathFailure : RemovalError → HandlerResult
  | .safety _ =>
    .failure "acquisition_delete_library_path_unsafe"
      "an imported media path is outside configured library roots" false
  | .plain _ =>
    .failure "acquisition_delete_library_file_failed"
      "an imported media file could not be removed" true

/-! ## Actions -/

/-- What a worker does next to the files. -/
inductive FileAction where
  /-- `ensureDeletionPathOutsideLibraries` -/
  | ensureOutsideLibraries (path : String) (libraryRoots : List String)
      (onError : RemovalError → HandlerResult)
  /-- `removeAllowedPath` -/
  | remove (path : String) (roots : List String) (recursive : Bool)
      (onError : RemovalError → HandlerResult)
  /-- `pruneEmptyParents` -/
  | pruneEmptyParents (directory : String) (roots : List String)
  /-- the loop of `pruneEmptyParents` -/
  | pruneFrom (current root : List FileName)
  /-- the worker returns an error -/
  | fail (result : HandlerResult)

section Actions

variable (foldRune : Char → Char) (workingDirectory : List FileName)

/-- The absolute path, and what it leads to if that is spelled in other letters. -/
def comparableDeletionPaths (tree : FileTree.Tree FileName) (path : String) :
    List (List FileName) :=
  let absolute := absoluteNames workingDirectory path
  match evalSymlinks tree absolute with
  | .error _ => [absolute]
  | .ok resolved =>
    if equalFold foldRune (pathText resolved) (pathText absolute) then [absolute]
    else [absolute, resolved]

def ensureDeletionPathOutsideLibraries (tree : FileTree.Tree FileName) (path : String)
    (libraryRoots : List String) : Except RemovalError Unit :=
  let targets := comparableDeletionPaths foldRune workingDirectory tree path
  let roots := (libraryRoots.filter fun rawRoot => trimSpace rawRoot ≠ "").flatMap
    (comparableDeletionPaths foldRune workingDirectory tree)
  if targets.any fun target => roots.any fun root =>
      pathsOverlap (pathText target) (pathText root) then
    .error (.safety (.message "cleanup target overlaps a media library root"))
  else .ok ()

/-- Does one action: the tree it leaves and the actions it is followed by. -/
def FileAction.run (tree : FileTree.Tree FileName) :
    FileAction → Except HandlerResult (FileTree.Tree FileName × List FileAction)
  | .ensureOutsideLibraries path libraryRoots onError =>
    match ensureDeletionPathOutsideLibraries foldRune workingDirectory tree path libraryRoots with
    | .error e => .error (onError e)
    | .ok () => .ok (tree, [])
  | .remove path roots recursive onError =>
    match removeAllowedPath workingDirectory tree path roots recursive with
    | .error e => .error (onError e)
    | .ok after => .ok (after, [])
  | .pruneEmptyParents directory roots =>
    match resolveAllowedPath workingDirectory tree directory roots with
    | .error _ => .ok (tree, [])
    | .ok (current, root) => .ok (tree, [.pruneFrom current root])
  | .pruneFrom current root =>
    if current = root then .ok (tree, [])
    else
      match tree.remove maxSystemLinks current with
      | .error _ => .ok (tree, [])
      | .ok after => .ok (after, [.pruneFrom current.dropLast root])
  | .fail result => .error result

/-- The files, what is still to do, and the error that ended it. -/
structure FileRun where
  tree : FileTree.Tree FileName
  actions : List FileAction
  failure : Option HandlerResult := none

/-- An error drops the actions that are left. -/
def FileRun.next (run : FileRun) : Option FileRun :=
  match run.actions with
  | [] => none
  | action :: rest =>
    match action.run foldRune workingDirectory run.tree with
    | .error failure => some { run with actions := [], failure := some failure }
    | .ok (after, more) => some { run with tree := after, actions := more ++ rest }

/-- The states that a run goes through. -/
def FileRun.Reaches : FileRun → FileRun → Prop :=
  Relation.ReflTransGen fun run after => run.next foldRune workingDirectory = some after

/-- The state after the given number of actions, or at the end. -/
def FileRun.iterate : Nat → FileRun → FileRun
  | 0, run => run
  | count + 1, run =>
    match run.next foldRune workingDirectory with
    | none => run
    | some after => FileRun.iterate count after

/-- The location of the entry that an action deletes. -/
def FileAction.target (tree : FileTree.Tree FileName) : FileAction → Option (List FileName)
  | .remove path roots recursive _ => removalTarget workingDirectory tree path roots recursive
  | .pruneFrom current root =>
    if current = root then none
    else
      match tree.lstat maxSystemLinks current with
      | .error _ => none
      | .ok (location, node) =>
        if location = [] ∨ node = .directory ∧ !tree.isEmpty location then none else some location
  | _ => none

end Actions

/-! ## The commands -/

/-- Keeps the first element of each key. -/
def firstBy {α κ : Type} [DecidableEq κ] (key : α → κ) : List κ → List α → List α
  | _, [] => []
  | seen, a :: as =>
    if key a ∈ seen then firstBy key seen as else a :: firstBy key (key a :: seen) as

/-- What a cleanup reads to remove files. -/
structure CleanupCommand where
  torrentHash : String
  downloadPath : String
  stagedVideoPath : String
  stagedSubtitlePath : String
  downloadRemovable : Bool

structure AcquisitionDeletionDownload where
  savePath : String
  preserveTorrent : Bool
  preservePath : Bool

structure AcquisitionDeletionLibraryFile where
  filePath : String
  preserve : Bool

structure AcquisitionDeletionCommand where
  taskIDs : List UUID
  artifactPaths : List String
  libraryFiles : List AcquisitionDeletionLibraryFile
  downloads : List AcquisitionDeletionDownload

/-- The actions of `CleanupRunHandler.Handle`. -/
def cleanupActions (paths : PathSettings) (command : CleanupCommand) : List FileAction :=
  let staged := [command.stagedVideoPath, command.stagedSubtitlePath]
  (if trimSpace paths.stagingRoot = "" then
    [.fail (.failure "cleanup_roots_not_configured" "the staging cleanup root is not configured"
      false)]
  else []) ++
  (if command.downloadRemovable then
    if trimSpace command.torrentHash = "" ∨ trimSpace command.downloadPath = "" ∨
        trimSpace paths.downloadRoot = "" then
      [.fail (.failure "cleanup_download_identity_missing"
        "guarded download cleanup requires a torrent hash and configured download path" false)]
    else
      [.remove command.downloadPath [paths.downloadRoot] true (cleanupPathFailure "download cache")]
  else []) ++
  staged.map (fun path =>
    .remove path paths.stagingRoots false (cleanupPathFailure "staged artifact")) ++
  staged.map (fun path =>
    .pruneEmptyParents (.ofList (pathDir path.toList)) paths.stagingRoots)

/-- The removal of a path that the deletion keeps apart from the libraries. -/
def guardedRemoval (paths : PathSettings) (path : String) (roots : List String)
    (recursive : Bool) (kind : String) : List FileAction :=
  [.ensureOutsideLibraries path paths.libraryRoots (acquisitionDeletePathFailure kind),
    .remove path roots recursive (acquisitionDeletePathFailure kind)]

/-- The actions of `removeDeletionFiles`. -/
def deletionActions (paths : PathSettings) (command : AcquisitionDeletionCommand)
    (deleteImported : Bool) : List FileAction :=
  let artifacts := firstBy (fun path => pathClean path.toList) [] command.artifactPaths
  let libraryFiles := firstBy (fun file => pathClean file.filePath.toList) []
    (command.libraryFiles.filter fun file => !file.preserve)
  let downloads := firstBy (fun download => pathClean download.savePath.toList) []
    (command.downloads.filter fun download => !(trimSpace download.savePath = "" ||
      download.preservePath || download.preserveTorrent))
  artifacts.flatMap (fun path =>
    guardedRemoval paths path paths.stagingRoots false "temporary artifact") ++
  (if deleteImported then
    libraryFiles.flatMap fun file =>
      [.remove file.filePath paths.libraryRoots false acquisitionDeleteLibraryPathFailure,
        .pruneEmptyParents (.ofList (pathDir file.filePath.toList)) paths.libraryRoots]
  else []) ++
  downloads.flatMap (fun download =>
    if trimSpace paths.downloadRoot = "" then
      [.fail (.failure "acquisition_delete_roots_not_configured"
        "the download cleanup root is not configured" false)]
    else guardedRemoval paths download.savePath [paths.downloadRoot] true "download directory") ++
  (if command.taskIDs ≠ [] ∧ trimSpace paths.stagingRoot = "" then
    [.fail (.failure "acquisition_delete_roots_not_configured"
      "the staging cleanup root is not configured" false)]
  else []) ++
  command.taskIDs.flatMap fun taskID =>
    (paths.stagingRoots.filter fun root => trimSpace root ≠ "").flatMap fun root =>
      guardedRemoval paths (.ofList (pathJoin root.toList (UUID.text taskID).toList)) [root] true
        "task temporary directory"

/-! ## What an action deletes -/

section Steps

variable {foldRune : Char → Char} {workingDirectory : List FileName} {tree : FileTree.Tree FileName}
  {action : FileAction}

theorem FileAction.target_pruneFrom {current root location} :
    (FileAction.pruneFrom current root).target workingDirectory tree = some location ↔
      current ≠ root ∧ ∃ node, tree.lstat maxSystemLinks current = .ok (location, node) ∧
        location ≠ [] ∧ (node = .directory → tree.isEmpty location = true) := by
  simp only [FileAction.target]
  split_ifs with hroot
  · simp [hroot]
  split
  · next hlstat => simp [hlstat]
  · next found node hlstat =>
    split_ifs with hkept
    · grind
    · grind

/-- An action with a target deletes it with everything below. -/
theorem FileAction.run_of_target {location}
    (h : action.target workingDirectory tree = some location) :
    location ≠ [] ∧ ∃ more, action.run foldRune workingDirectory tree =
      .ok (tree.delete location, more) := by
  cases action with
  | remove path roots recursive onError =>
    refine ⟨removalTarget_ne_nil h, [], ?_⟩
    simp [FileAction.run, removeAllowedPath_of_target h]
  | pruneFrom current root =>
    obtain ⟨hroot, node, hlstat, hne, hempty⟩ := FileAction.target_pruneFrom.mp h
    have hremove := Tree.remove_ok.mpr ⟨location, node, hlstat, hne, hempty, rfl⟩
    refine ⟨hne, [.pruneFrom current.dropLast root], ?_⟩
    simp [FileAction.run, if_neg hroot, hremove]
  | ensureOutsideLibraries | pruneEmptyParents | fail => cases h

/-- An action without a target leaves the files. -/
theorem FileAction.run_of_no_target (h : action.target workingDirectory tree = none) {after more}
    (hrun : action.run foldRune workingDirectory tree = .ok (after, more)) : after = tree := by
  cases action with
  | remove path roots recursive onError =>
    simp only [FileAction.run] at hrun
    split at hrun
    · cases hrun
    · next hremove =>
      cases hrun
      exact removeAllowedPath_of_no_target h hremove
  | pruneFrom current root =>
    simp only [FileAction.run] at hrun
    split_ifs at hrun with hroot
    · cases hrun
      rfl
    split at hrun
    · cases hrun
      rfl
    · next hremove =>
      obtain ⟨location, node, hlstat, hne, hempty, -⟩ := Tree.remove_ok.mp hremove
      have htarget := (@FileAction.target_pruneFrom workingDirectory _ _ _ _).mpr
        ⟨hroot, node, hlstat, hne, hempty⟩
      cases htarget.symm.trans h
  | ensureOutsideLibraries | pruneEmptyParents =>
    simp only [FileAction.run] at hrun
    split at hrun <;> cases hrun <;> rfl
  | fail => cases hrun

/-- **One step** takes away what lies at the target of its action or below. -/
theorem FileRun.next_node {run after : FileRun} {rest} (hactions : run.actions = action :: rest)
    (h : run.next foldRune workingDirectory = some after) (p : List FileName) : after.tree.node p =
      if ∃ location, action.target workingDirectory run.tree = some location ∧ location <+: p then
        none
      else run.tree.node p := by
  simp only [FileRun.next, hactions] at h
  cases htarget : action.target workingDirectory run.tree with
  | some location =>
    obtain ⟨hne, more, hrun⟩ := @FileAction.run_of_target foldRune _ _ _ _ htarget
    simp only [hrun, Option.some.injEq] at h
    subst h
    simp [Tree.node_delete hne]
  | none =>
    cases hrun : action.run foldRune workingDirectory run.tree with
    | error failure =>
      simp only [hrun, Option.some.injEq] at h
      subst h
      simp
    | ok outcome =>
      simp only [hrun, Option.some.injEq] at h
      subst h
      simp [FileAction.run_of_no_target htarget hrun]

theorem FileRun.exists_action {run after : FileRun}
    (h : run.next foldRune workingDirectory = some after) :
    ∃ action rest, run.actions = action :: rest := by
  cases hactions : run.actions with
  | nil => simp [FileRun.next, hactions] at h
  | cons action rest => exact ⟨action, rest, rfl⟩

/-- Only a prune is followed by further actions: by the next one of its loop. -/
theorem FileAction.run_more {after more}
    (hrun : action.run foldRune workingDirectory tree = .ok (after, more)) :
    ∀ a ∈ more, ∃ current root, a = .pruneFrom current root ∧
      ((∃ directory roots, action = .pruneEmptyParents directory roots ∧
        resolveAllowedPath workingDirectory tree directory roots = .ok (current, root)) ∨
      ∃ last, action = .pruneFrom last root ∧ last ≠ root ∧ current = last.dropLast) := by
  cases action with
  | pruneEmptyParents directory roots =>
    simp only [FileAction.run] at hrun
    split at hrun
    · cases hrun
      exact List.forall_mem_nil _
    · next current root hresolve =>
      cases hrun
      exact List.forall_mem_singleton.mpr
        ⟨current, root, rfl, .inl ⟨directory, roots, rfl, hresolve⟩⟩
  | pruneFrom last root =>
    simp only [FileAction.run] at hrun
    split_ifs at hrun with hroot
    · cases hrun
      exact List.forall_mem_nil _
    split at hrun
    · cases hrun
      exact List.forall_mem_nil _
    · cases hrun
      exact List.forall_mem_singleton.mpr ⟨last.dropLast, root, rfl, .inr ⟨last, rfl, hroot, rfl⟩⟩
  | remove | ensureOutsideLibraries =>
    simp only [FileAction.run] at hrun
    split at hrun <;> cases hrun
    exact List.forall_mem_nil _
  | fail => cases hrun

/-- What every action of a run has if those at its start have it and pass it on. -/
theorem FileRun.Reaches.forall_actions {P : FileAction → Prop} {start run : FileRun}
    (hreach : start.Reaches foldRune workingDirectory run)
    (hstep : ∀ tree after action more, P action →
      action.run foldRune workingDirectory tree = .ok (after, more) → ∀ a ∈ more, P a)
    (hstart : ∀ a ∈ start.actions, P a) : ∀ a ∈ run.actions, P a := by
  induction hreach with
  | refl => exact hstart
  | @tail run after _ hnext ih =>
    obtain ⟨action, rest, hactions⟩ := FileRun.exists_action hnext
    rw [hactions] at ih
    simp only [FileRun.next, hactions] at hnext
    split at hnext
    · cases hnext
      exact List.forall_mem_nil _
    · next hrun =>
      cases hnext
      exact List.forall_mem_append.mpr
        ⟨hstep _ _ action _ (ih action List.mem_cons_self) hrun,
          fun a ha => ih a (List.mem_cons_of_mem _ ha)⟩

/-- A run adds no entries. -/
theorem FileRun.Reaches.isPart {start run : FileRun}
    (hreach : start.Reaches foldRune workingDirectory run) : run.tree.IsPart start.tree := by
  induction hreach with
  | refl => exact fun _ _ h => h
  | tail _ hnext ih =>
    intro p node hnode
    obtain ⟨action, rest, hactions⟩ := FileRun.exists_action hnext
    rw [FileRun.next_node hactions hnext p] at hnode
    split_ifs at hnode
    exact ih p node hnode

theorem FileRun.reaches_iterate (count : Nat) (run : FileRun) :
    run.Reaches foldRune workingDirectory (run.iterate foldRune workingDirectory count) := by
  induction count generalizing run with
  | zero => exact .refl
  | succ count ih =>
    simp only [FileRun.iterate]
    split
    · exact .refl
    · next after hnext => exact .head hnext (ih after)

end Steps

/-! ## What a run keeps -/

/-- No action of the run deletes one of the entries that are there at its start, or a directory
above it. -/
def FileRun.Spares (foldRune : Char → Char) (workingDirectory : List FileName) (start : FileRun)
    (keep : List FileName → Prop) : Prop :=
  ∀ run action rest, start.Reaches foldRune workingDirectory run → run.actions = action :: rest →
    ∀ location, action.target workingDirectory run.tree = some location →
      ∀ p, keep p → start.tree.node p ≠ none → ¬ location <+: p

/-- **A run keeps entries** exactly where none of its actions deletes one of them. -/
theorem kept_iff (foldRune : Char → Char) (workingDirectory : List FileName) (start : FileRun)
    (keep : List FileName → Prop) : (∀ run, start.Reaches foldRune workingDirectory run →
      ∀ p, keep p → start.tree.node p ≠ none → run.tree.node p = start.tree.node p) ↔
    start.Spares foldRune workingDirectory keep := by
  constructor
  · intro hkept run action rest hreach hactions location htarget p hp hthere hbelow
    obtain ⟨after, hnext⟩ : ∃ after, run.next foldRune workingDirectory = some after := by
      simp only [FileRun.next, hactions]
      split <;> exact ⟨_, rfl⟩
    have hgone := FileRun.next_node hactions hnext p
    rw [if_pos ⟨location, htarget, hbelow⟩] at hgone
    exact hthere ((hkept after (hreach.tail hnext) p hp hthere).symm.trans hgone)
  · intro hspares run hreach p hp hthere
    -- along the run: each step keeps the node at `p`
    induction hreach with
    | refl => rfl
    | tail hreach hnext ih =>
      obtain ⟨action, rest, hactions⟩ := FileRun.exists_action hnext
      rw [FileRun.next_node hactions hnext p, if_neg, ih]
      rintro ⟨location, htarget, hbelow⟩
      exact hspares _ action rest hreach hactions location htarget p hp hthere hbelow

/-! ## The media libraries -/

/-- The entry lies in what a library root leads to. -/
def InLibrary (workingDirectory : List FileName) (tree : FileTree.Tree FileName)
    (paths : PathSettings)
    (p : List FileName) : Prop :=
  ∃ rawRoot ∈ paths.libraryRoots, trimSpace rawRoot ≠ "" ∧
    ∃ root, evalSymlinks tree (absoluteNames workingDirectory rawRoot) = .ok root ∧
      root <+: p ∧ p ≠ root

/-- The commands that remove files. -/
inductive FileCommand where
  | cleanup (command : CleanupCommand)
  | deletion (command : AcquisitionDeletionCommand) (deleteImported : Bool)

def FileCommand.actions (paths : PathSettings) : FileCommand → List FileAction
  | .cleanup command => cleanupActions paths command
  | .deletion command deleteImported => deletionActions paths command deleteImported

def PathSettings.roots (paths : PathSettings) : List String :=
  paths.downloadRoot :: paths.stagingRoots ++ paths.libraryRoots

/-- The directory that a configured root leads to. -/
def IsConfiguredRoot (workingDirectory : List FileName) (tree : FileTree.Tree FileName)
    (paths : PathSettings) (p : List FileName) : Prop :=
  ∃ rawRoot ∈ paths.roots, trimSpace rawRoot ≠ "" ∧
    evalSymlinks tree (absoluteNames workingDirectory rawRoot) = .ok p ∧
    tree.node p = some .directory

/-- A staging root with the work root in it, and a staged file in the work root. -/
def nestedTree : FileTree.Tree FileName where
  entries :=
    let s : FileName := ⟨['s'], by decide⟩
    let w : FileName := ⟨['w'], by decide⟩
    let v : FileName := ⟨['v'], by decide⟩
    [([s], .directory), ([s, w], .directory), ([s, w, v], .file)]
  located := by decide
  distinct := by decide
  parents := by decide

/-- Settings that the validation accepts: the work root lies in the staging root. -/
def nestedPaths : PathSettings where
  downloadRoot := "/d"
  workRoot := "/s/w"
  stagingRoot := "/s"
  animeLibraryRoot := "/m"
  movieLibraryRoot := "/n"

section Paths

variable {foldRune : Char → Char} {workingDirectory : List FileName}
  {tree : FileTree.Tree FileName} {names location : List FileName} {node : Node FileName}

/-- The path that an action works on. -/
def FileAction.path (workingDirectory : List FileName) : FileAction → List FileName
  | .remove path _ _ _ | .pruneEmptyParents path _ => absoluteNames workingDirectory path
  | .pruneFrom current _ => current
  | _ => []

/-- The path resolves to nothing else. -/
def leadsToItself (tree : FileTree.Tree FileName) (names : List FileName) : Bool :=
  (evalSymlinks tree names).toOption.all fun resolved => resolved = names

abbrev LeadToThemselves (workingDirectory : List FileName) (tree : FileTree.Tree FileName)
    (roots : List String) : Prop :=
  ∀ root ∈ roots, trimSpace root ≠ "" → leadsToItself tree (absoluteNames workingDirectory root)

/-- No link is on the way: the path, and every path above it, names the entry that it spells. -/
def isPhysical (tree : FileTree.Tree FileName) (names : List FileName) : Bool :=
  names.inits.all fun current =>
    (tree.lstat maxSystemLinks current).toOption.all fun entry => entry.1 = current

/-- The path names the entry that it spells, or else one that is no link and whose own path
differs from it in more than case. -/
def isTold (foldRune : Char → Char) (tree : FileTree.Tree FileName) (names : List FileName) :
    Bool :=
  (tree.lstat maxSystemLinks names).toOption.all fun entry => entry.1 = names ||
    match entry.2 with
    | .link _ _ => false
    | _ => !equalFold foldRune (pathText entry.1) (pathText names)

theorem leadsToItself_iff : leadsToItself tree names = true ↔
    ∀ resolved, evalSymlinks tree names = .ok resolved → resolved = names := by
  unfold leadsToItself
  cases evalSymlinks tree names <;> simp [Except.toOption]

theorem isPhysical_iff : isPhysical tree names = true ↔ ∀ current, current <+: names →
    ∀ location node, tree.lstat maxSystemLinks current = .ok (location, node) →
      location = current := by
  simp only [isPhysical, List.all_eq_true, List.mem_inits]
  refine forall₂_congr fun current _ => ?_
  cases tree.lstat maxSystemLinks current <;> grind [Except.toOption]

theorem isPhysical_of_prefix {above : List FileName} (h : isPhysical tree names = true)
    (habove : above <+: names) : isPhysical tree above = true :=
  isPhysical_iff.mpr fun current hcurrent => isPhysical_iff.mp h current (hcurrent.trans habove)

theorem isTold_ok (h : isTold foldRune tree names = true)
    (hlstat : tree.lstat maxSystemLinks names = .ok (location, node)) :
    location = names ∨ (∀ absolute target, node ≠ .link absolute target) ∧
      equalFold foldRune (pathText location) (pathText names) = false := by
  simp only [isTold, hlstat, Except.toOption, Option.all_some, Bool.or_eq_true,
    decide_eq_true_eq] at h
  refine h.imp_right fun hother => ?_
  cases node with
  | directory | file => exact ⟨by simp, by simpa using hother⟩
  | link absolute target => cases hother

/-- What follows an action works on the same path or above it. -/
theorem FileAction.path_run {action : FileAction} {after more}
    (hrun : action.run foldRune workingDirectory tree = .ok (after, more)) :
    ∀ a ∈ more, a.path workingDirectory <+: action.path workingDirectory := by
  intro a ha
  obtain ⟨current, root, rfl, ⟨directory, roots, rfl, hresolve⟩ | ⟨last, rfl, -, rfl⟩⟩ :=
    FileAction.run_more hrun a ha
  · rw [FileAction.path, (resolveAllowedPath_ok hresolve).1]
    exact List.prefix_rfl
  · exact List.dropLast_prefix last

/-- The tree has no links. -/
def NoLinks (tree : FileTree.Tree FileName) : Prop :=
  ∀ p absolute target, tree.node p ≠ some (.link absolute target)

theorem NoLinks.leadsToItself (h : NoLinks tree) : leadsToItself tree names = true :=
  leadsToItself_iff.mpr fun _ => Tree.walk_of_no_links h

theorem NoLinks.isPhysical (h : NoLinks tree) : isPhysical tree names = true :=
  isPhysical_iff.mpr fun _ _ _ _ => Tree.lstat_of_no_links h

theorem isTold_of_isPhysical (h : isPhysical tree names = true) :
    isTold foldRune tree names = true := by
  unfold isTold
  cases hlstat : tree.lstat maxSystemLinks names with
  | error failure => rfl
  | ok entry =>
    have hself := isPhysical_iff.mp h names List.prefix_rfl entry.1 entry.2 hlstat
    simp [Except.toOption, hself]

theorem nestedTree_noLinks : NoLinks nestedTree := by
  intro p absolute target
  simp only [FileTree.Tree.node, nestedTree, List.find?]
  grind

end Paths

/-! ## What the roots are kept by -/

section Roots

variable {foldRune : Char → Char} {workingDirectory : List FileName}

/-- No configured root lies in another. -/
abbrev PathSettings.Unnested (workingDirectory : List FileName) (paths : PathSettings) : Prop :=
  ∀ outer ∈ paths.roots, ∀ inner ∈ paths.roots, trimSpace outer ≠ "" → trimSpace inner ≠ "" →
    absoluteNames workingDirectory outer <+: absoluteNames workingDirectory inner →
    absoluteNames workingDirectory outer = absoluteNames workingDirectory inner

/-- What an action works against: roots of the given list. -/
def FileAction.Rooted (workingDirectory : List FileName) (roots : List String) :
    FileAction → Prop
  | .remove _ used _ _ | .pruneEmptyParents _ used => used ⊆ roots
  | .pruneFrom current root => root <+: current ∧ ∃ rawRoot ∈ roots, trimSpace rawRoot ≠ "" ∧
      root = absoluteNames workingDirectory rawRoot
  | _ => True

variable {roots : List String} {libraryRoots : List String} (paths : PathSettings)
  {tree : FileTree.Tree FileName}

/-- An action whose path names what it spells deletes strictly below one of its roots. -/
theorem FileAction.Rooted.target_below {action : FileAction}
    (h : action.Rooted workingDirectory roots)
    (hself : ∀ location node, tree.lstat maxSystemLinks (action.path workingDirectory) =
      .ok (location, node) → location = action.path workingDirectory) {location}
    (htarget : action.target workingDirectory tree = some location) :
    ∃ rawRoot ∈ roots, trimSpace rawRoot ≠ "" ∧
      absoluteNames workingDirectory rawRoot <+: location ∧
        location ≠ absoluteNames workingDirectory rawRoot := by
  cases action with
  | remove path used recursive onError =>
    obtain ⟨target, root, node, hresolve, hne, hlstat, -⟩ := removalTarget_eq_some_iff.mp htarget
    obtain ⟨rfl, hunder, ⟨rawRoot, hraw, hblank, rfl⟩, -⟩ := resolveAllowedPath_ok hresolve
    rw [hself location node hlstat]
    exact ⟨rawRoot, h hraw, hblank, hunder, hne⟩
  | pruneFrom current root =>
    obtain ⟨hne, node, hlstat, -⟩ := FileAction.target_pruneFrom.mp htarget
    obtain ⟨hunder, rawRoot, hraw, hblank, rfl⟩ := h
    rw [hself location node hlstat]
    exact ⟨rawRoot, hraw, hblank, hunder, hne⟩
  | ensureOutsideLibraries | pruneEmptyParents | fail => cases htarget

theorem FileAction.Rooted.run {after} {action : FileAction}
    (h : action.Rooted workingDirectory roots) {more}
    (hrun : action.run foldRune workingDirectory tree = .ok (after, more)) :
    ∀ a ∈ more, a.Rooted workingDirectory roots := by
  intro a ha
  obtain ⟨current, root, rfl, ⟨directory, used, rfl, hresolve⟩ | ⟨last, rfl, hne, rfl⟩⟩ :=
    FileAction.run_more hrun a ha
  · obtain ⟨-, hunder, ⟨rawRoot, hraw, hblank, heq⟩, -⟩ := resolveAllowedPath_ok hresolve
    exact ⟨hunder, rawRoot, h hraw, hblank, heq⟩
  · exact ⟨prefix_dropLast_of_ne h.1 hne, h.2⟩

theorem stagingRoots_subset : paths.stagingRoots ⊆ paths.roots := by
  simp [PathSettings.roots]

theorem libraryRoots_subset : paths.libraryRoots ⊆ paths.roots := by
  simp [PathSettings.roots]

theorem guardedRemoval_rooted {paths : PathSettings} {path : String} (hroots : roots ⊆ paths.roots)
    {recursive : Bool} {kind : String} : ∀ a ∈ guardedRemoval paths path roots recursive kind,
      a.Rooted workingDirectory paths.roots := by
  rintro a (_ | ⟨_, _ | ⟨_, ⟨⟩⟩⟩)
  · trivial
  · exact hroots

theorem fail_rooted {result} : ∀ a ∈ [FileAction.fail result], a.Rooted workingDirectory roots := by
  rintro a (_ | ⟨_, ⟨⟩⟩)
  trivial

theorem cleanupActions_rooted (command : CleanupCommand) :
    ∀ a ∈ cleanupActions paths command, a.Rooted workingDirectory paths.roots := by
  simp only [cleanupActions, List.forall_mem_append, List.forall_mem_map]
  refine ⟨⟨⟨?_, ?_⟩, fun _ _ => stagingRoots_subset paths⟩, fun _ _ => stagingRoots_subset paths⟩
  · split_ifs
    · exact fail_rooted
    · exact nofun
  · split_ifs
    · exact fail_rooted
    · rintro a (_ | ⟨_, ⟨⟩⟩)
      simp [FileAction.Rooted, PathSettings.roots]
    · exact nofun

theorem deletionActions_rooted (command : AcquisitionDeletionCommand) (deleteImported : Bool) :
    ∀ a ∈ deletionActions paths command deleteImported,
      a.Rooted workingDirectory paths.roots := by
  simp only [deletionActions, List.forall_mem_append, List.forall_mem_flatMap]
  refine ⟨⟨⟨⟨fun _ _ => guardedRemoval_rooted (stagingRoots_subset paths), ?_⟩, ?_⟩, ?_⟩, ?_⟩
  · split_ifs
    · simp only [List.forall_mem_flatMap]
      rintro file - a (_ | ⟨_, _ | ⟨_, ⟨⟩⟩⟩)
      · exact libraryRoots_subset paths
      · exact libraryRoots_subset paths
    · exact nofun
  · intro download _
    split_ifs
    · exact fail_rooted
    · exact guardedRemoval_rooted (by simp [PathSettings.roots])
  · split_ifs
    · exact fail_rooted
    · exact nofun
  · intro taskID _ root hroot
    have hmem := stagingRoots_subset paths (List.mem_of_mem_filter hroot)
    exact guardedRemoval_rooted (by simpa using hmem)

theorem FileCommand.actions_rooted (command : FileCommand) :
    ∀ a ∈ command.actions paths, a.Rooted workingDirectory paths.roots := by
  cases command with
  | cleanup command => exact cleanupActions_rooted paths command
  | deletion command deleteImported => exact deletionActions_rooted paths command deleteImported

variable {paths} in
/-- A run that spares the configured roots keeps them as directories. -/
theorem FileRun.Spares.configuredRoot {actions : List FileAction}
    (h : FileRun.Spares foldRune workingDirectory { tree, actions }
      (IsConfiguredRoot workingDirectory tree paths)) {run : FileRun}
    (hreach : FileRun.Reaches foldRune workingDirectory { tree, actions } run)
    {p} (hp : IsConfiguredRoot workingDirectory tree paths p) :
    run.tree.node p = some .directory := by
  obtain ⟨_, _, _, _, hdirectory⟩ := id hp
  rw [← hdirectory]
  exact (kept_iff foldRune workingDirectory _ _).mpr h run hreach p hp
    (hdirectory ▸ Option.some_ne_none _)

theorem spares_configuredRoots (command : FileCommand)
    (hroots : LeadToThemselves workingDirectory tree paths.roots)
    (hphysical : ∀ a ∈ command.actions paths, isPhysical tree (a.path workingDirectory))
    (hunnested : paths.Unnested workingDirectory) :
    FileRun.Spares foldRune workingDirectory { tree, actions := command.actions paths }
      (IsConfiguredRoot workingDirectory tree paths) := by
  rintro run action rest hreach hactions location htarget p
    ⟨inner, hinner, hfilled, heval, -⟩ - hbelow
  have hmem : action ∈ run.actions := hactions ▸ List.mem_cons_self
  have hrooted := hreach.forall_actions (fun _ _ _ _ h hrun => h.run hrun)
    (command.actions_rooted paths) action hmem
  have hplain := hreach.forall_actions (fun _ _ _ _ h hrun a ha =>
    isPhysical_of_prefix h (FileAction.path_run hrun a ha)) hphysical action hmem
  obtain ⟨outer, houter, hblank, hunder, hne⟩ := hrooted.target_below
    (fun location node hlstat => isPhysical_iff.mp hplain _ List.prefix_rfl location node
      (Tree.lstat_mono hreach.isPart hlstat)) htarget
  rw [leadsToItself_iff.mp (hroots inner hinner hfilled) p heval] at hbelow
  -- the entry lies below one root and above another
  have hsame := hunnested outer houter inner hinner hblank hfilled (hunder.trans hbelow)
  rw [← hsame] at hbelow
  exact hne (hbelow.eq_of_length_le hunder.length_le)

/-- **Without links, and with no root in another, every configured root is kept.** -/
theorem configured_roots_kept (hlinks : NoLinks tree) {paths : PathSettings}
    (hunnested : paths.Unnested workingDirectory)
    (command : FileCommand) {run : FileRun}
    (hreach : FileRun.Reaches foldRune workingDirectory
      { tree, actions := command.actions paths } run)
    {p} (hp : IsConfiguredRoot workingDirectory tree paths p) :
    run.tree.node p = some .directory :=
  (spares_configuredRoots paths command (fun _ _ _ => hlinks.leadsToItself)
    (fun _ _ => hlinks.isPhysical) hunnested).configuredRoot hreach hp

/-- The cleanup prunes the empty directory above the staged file, and stops at the root. -/
theorem configured_roots_kept_pruned :
    ∃ run, FileRun.Reaches Char.toLower []
      { tree := nestedTree
        actions := FileCommand.actions { nestedPaths with workRoot := "/w" } (.cleanup
          { torrentHash := "", downloadPath := "", stagedVideoPath := "/s/w/v"
            stagedSubtitlePath := "/s/w/t", downloadRemovable := false }) } run ∧
      run.tree.node [⟨['s'], by decide⟩, ⟨['w'], by decide⟩] = none ∧
      run.tree.node [⟨['s'], by decide⟩] = some .directory :=
  ⟨_, FileRun.reaches_iterate 4 _, by decide +kernel,
    configured_roots_kept nestedTree_noLinks (by decide +kernel) _ (FileRun.reaches_iterate 4 _)
      ⟨"/s", by decide +kernel, by decide +kernel, by decide +kernel, by decide +kernel⟩⟩

/-! ## What the libraries are kept by -/

/-- Every removal follows the check of its path. -/
inductive Guarded (libraryRoots : List String) : List FileAction → Prop
  | nil : Guarded libraryRoots []
  | removal {path : String} {roots : List String} {recursive : Bool}
      {onUnsafe onError : RemovalError → HandlerResult} {rest : List FileAction}
      (hrest : Guarded libraryRoots rest) :
      Guarded libraryRoots (.ensureOutsideLibraries path libraryRoots onUnsafe ::
        .remove path roots recursive onError :: rest)
  | fail {result : HandlerResult} {rest : List FileAction} (hrest : Guarded libraryRoots rest) :
      Guarded libraryRoots (.fail result :: rest)

theorem Guarded.append {front rest} (hfront : Guarded libraryRoots front)
    (hrest : Guarded libraryRoots rest) : Guarded libraryRoots (front ++ rest) := by
  induction hfront with
  | nil => exact hrest
  | removal _ ih => exact .removal ih
  | fail _ ih => exact .fail ih

theorem Guarded.flatMap {α : Type} {f} (h : ∀ a, Guarded libraryRoots (f a))
    (as : List α) : Guarded libraryRoots (as.flatMap f) := by
  induction as with
  | nil => exact .nil
  | cons a as ih => exact (h a).append ih

theorem guardedRemoval_guarded {paths : PathSettings} {path : String} {recursive : Bool}
    {kind : String} : Guarded paths.libraryRoots (guardedRemoval paths path roots recursive kind) :=
  .removal .nil

theorem deletionActions_guarded (command : AcquisitionDeletionCommand) :
    Guarded paths.libraryRoots (deletionActions paths command false) := by
  simp only [deletionActions, Bool.false_eq_true, if_false, List.append_nil]
  refine (((Guarded.flatMap (fun _ => guardedRemoval_guarded) _).append
    (Guarded.flatMap (fun download => ?_) _)).append ?_).append
    (Guarded.flatMap (fun _ => Guarded.flatMap (fun _ => guardedRemoval_guarded) _) _)
  · split_ifs
    · exact .fail .nil
    · exact guardedRemoval_guarded
  · split_ifs
    · exact .fail .nil
    · exact .nil

theorem absolute_mem_comparableDeletionPaths (path : String) :
    absoluteNames workingDirectory path ∈
      comparableDeletionPaths foldRune workingDirectory tree path := by
  simp only [comparableDeletionPaths]
  split
  · exact List.mem_singleton_self _
  · split_ifs <;> exact List.mem_cons_self

/-- The check compares the entry that a path names with the libraries. -/
theorem isTold_mem_comparableDeletionPaths {whole : FileTree.Tree FileName}
    (hpart : tree.IsPart whole) {path : String} {location : List FileName} {node : Node FileName}
    (htold : isTold foldRune whole (absoluteNames workingDirectory path) = true)
    (hlstat : tree.lstat maxSystemLinks (absoluteNames workingDirectory path) =
      .ok (location, node)) :
    location ∈ comparableDeletionPaths foldRune workingDirectory tree path := by
  rcases isTold_ok htold (Tree.lstat_mono hpart hlstat) with rfl | ⟨hlink, hfold⟩
  · exact absolute_mem_comparableDeletionPaths path
  · have heval := evalSymlinks_of_walk (Tree.walk_of_lstat hlstat hlink)
    simp [comparableDeletionPaths, heval, hfold]

/-- What the check has refused: an entry in a library root, or above one. -/
theorem ensureDeletionPathOutsideLibraries_ok {path : String}
    (h : ensureDeletionPathOutsideLibraries foldRune workingDirectory tree path libraryRoots =
      .ok ())
    {rawRoot : String} (hraw : rawRoot ∈ libraryRoots) (hblank : trimSpace rawRoot ≠ "")
    {location} (hcompared : location ∈ comparableDeletionPaths foldRune workingDirectory tree
      path) :
    ¬ location <+: absoluteNames workingDirectory rawRoot ∧
      ¬ absoluteNames workingDirectory rawRoot <+: location := by
  simp only [ensureDeletionPathOutsideLibraries] at h
  split_ifs at h with hoverlap
  rw [← not_or]
  intro hnested
  refine hoverlap (List.any_eq_true.mpr ⟨_, hcompared, List.any_eq_true.mpr ⟨_,
    List.mem_flatMap.mpr ⟨rawRoot, List.mem_filter.mpr ⟨hraw, decide_eq_true hblank⟩,
      absolute_mem_comparableDeletionPaths rawRoot⟩, ?_⟩⟩)
  rw [pathsOverlap, Bool.or_eq_true, pathContains_pathText, pathContains_pathText]
  exact hnested

/-- The removal that is next has passed its check. -/
def FileRun.Checked (foldRune : Char → Char) (workingDirectory : List FileName)
    (libraryRoots : List String) (run : FileRun) : Prop :=
  Guarded libraryRoots run.actions ∨
    ∃ path roots recursive onError rest,
      run.actions = .remove path roots recursive onError :: rest ∧
      Guarded libraryRoots rest ∧ ensureDeletionPathOutsideLibraries foldRune workingDirectory
        run.tree path libraryRoots = .ok ()

/-- The check leaves the tree that the removal after it meets. -/
theorem FileRun.Checked.next {run after : FileRun}
    (hchecked : run.Checked foldRune workingDirectory libraryRoots)
    (h : run.next foldRune workingDirectory = some after) :
    after.Checked foldRune workingDirectory libraryRoots := by
  -- either the check comes next, or it has passed and the removal comes next
  rcases hchecked with hguarded | ⟨path, roots, recursive, onError, rest, hactions, hrest, -⟩
  · generalize hactions : run.actions = actions at hguarded
    simp only [FileRun.next, hactions] at h
    cases hguarded with
    | nil => cases h
    | fail hrest =>
      cases h
      exact .inl .nil
    | removal hrest =>
      simp only [FileAction.run] at h
      split at h
      · cases h
        exact .inl .nil
      · next hrun =>
        split at hrun
        · cases hrun
        · next hoverlap =>
          cases hrun
          cases h
          exact .inr ⟨_, _, _, _, _, rfl, hrest, hoverlap⟩
  · simp only [FileRun.next, hactions, FileAction.run] at h
    split at h
    · cases h
      exact .inl .nil
    · next hrun =>
      split at hrun
      · cases hrun
      · cases hrun
        cases h
        exact .inl hrest

theorem FileRun.Reaches.checked {start run : FileRun}
    (hreach : start.Reaches foldRune workingDirectory run)
    (hguarded : Guarded libraryRoots start.actions) :
    run.Checked foldRune workingDirectory libraryRoots := by
  induction hreach with
  | refl => exact .inl hguarded
  | tail _ hnext ih => exact ih.next hnext

theorem spares_libraries (command : AcquisitionDeletionCommand)
    (hroots : LeadToThemselves workingDirectory tree paths.libraryRoots)
    (htold : ∀ a ∈ deletionActions paths command false,
      isTold foldRune tree (a.path workingDirectory)) :
    FileRun.Spares foldRune workingDirectory
      { tree, actions := deletionActions paths command false }
      (InLibrary workingDirectory tree paths) := by
  rintro run action rest hreach hactions location htarget p
    ⟨rawRoot, hraw, hblank, root, heval, hroot, -⟩ - hbelow
  obtain hguarded | ⟨path, roots, recursive, onError, more, hremove, -, hoverlap⟩ :=
    hreach.checked (deletionActions_guarded paths command)
  · -- a check and an error delete nothing
    rw [hactions] at hguarded
    cases hguarded <;> cases htarget
  · obtain ⟨rfl, rfl⟩ := List.cons.inj (hactions.symm.trans hremove)
    -- the removal is one of the command, as only the loops of prunes are added
    have hmem := hreach.forall_actions
      (P := fun a => a ∈ deletionActions paths command false ∨ ∃ current root,
        a = .pruneFrom current root)
      (fun _ _ _ _ _ hrun a ha => (FileAction.run_more hrun a ha).elim fun current hcurrent =>
        hcurrent.elim fun root hloop => .inr ⟨current, root, hloop.1⟩)
      (fun a ha => .inl ha) _ (hactions ▸ List.mem_cons_self)
    rcases hmem with hmem | ⟨_, _, hloop⟩
    · obtain ⟨target, _, node, hresolve, -, hlstat, -⟩ := removalTarget_eq_some_iff.mp htarget
      obtain ⟨rfl, -⟩ := resolveAllowedPath_ok hresolve
      obtain ⟨habove, hinside⟩ := ensureDeletionPathOutsideLibraries_ok hoverlap hraw hblank
        (isTold_mem_comparableDeletionPaths hreach.isPart (htold _ hmem) hlstat)
      rw [leadsToItself_iff.mp (hroots rawRoot hraw hblank) root heval] at hroot
      -- two directories above one entry lie above one another
      exact (List.prefix_or_prefix_of_prefix hbelow hroot).elim habove hinside
    · cases hloop

/-- **Without links a deletion keeps the libraries.** -/
theorem libraries_kept (hlinks : NoLinks tree) (paths : PathSettings)
    (command : AcquisitionDeletionCommand) {run : FileRun}
    (hreach : FileRun.Reaches foldRune workingDirectory
      { tree, actions := deletionActions paths command false } run)
    {p} (hp : InLibrary workingDirectory tree paths p)
    (hthere : tree.node p ≠ none) : run.tree.node p = tree.node p :=
  (kept_iff foldRune workingDirectory _ _).mpr (spares_libraries paths command
    (fun _ _ _ => hlinks.leadsToItself) fun _ _ => isTold_of_isPhysical hlinks.isPhysical) run
    hreach p hp hthere

/-- A path in a library is refused, and its file is kept. -/
theorem libraries_kept_refused :
    ∃ run, FileRun.Reaches Char.toLower []
      { tree := nestedTree
        actions := deletionActions { nestedPaths with animeLibraryRoot := "/s/w" }
          { taskIDs := [], artifactPaths := ["/s/w/v"], libraryFiles := [], downloads := [] }
          false }
      run ∧
      run.failure.isSome = true ∧
      run.tree.node [⟨['s'], by decide⟩, ⟨['w'], by decide⟩, ⟨['v'], by decide⟩] = some .file :=
  ⟨_, FileRun.reaches_iterate 2 _, by decide +kernel,
    libraries_kept nestedTree_noLinks _ _ (FileRun.reaches_iterate 2 _)
      ⟨"/s/w", by decide +kernel, by decide +kernel, [⟨['s'], by decide⟩, ⟨['w'], by decide⟩],
        by decide +kernel, by decide, by decide⟩ (by decide +kernel)⟩

end Roots

end EmbyAuto
