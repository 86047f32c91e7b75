import EmbyAuto.Domain.Path
import EmbyAuto.FileTree.Tree

/-!
# Removal of a path below configured roots

A cleanup removes a path that lies, by its spelling, below one of the configured roots. Where both
the path and the root exist, it also asks that what the path leads to lies in what the root leads
to. The removal itself works on the entry that the path names, without following its last name.

## Main definitions

* `FileName`: a name that stands between two slashes
* `resolveAllowedPath`, `removeAllowedPath`: the functions of the workers
* `removalTarget`: the entry that a removal deletes
* `StaysInside`: the paths whose entry the check keeps in the root

## Main results

* `removed_iff`: what a removal deletes lies at its target or below
* `removed_inside_root_iff`: when everything that is removed lies in the root
-/

namespace EmbyAuto

open FileTree

/-! ## Names -/

/-- A name of the file system. -/
abbrev FileName := { name : Runes // IsSegment name }

/-- The path from the root through the given names. -/
def pathText (names : List FileName) : Runes := absPath (names.map Subtype.val)

theorem forall_mem_names (names : List FileName) : ∀ s ∈ names.map Subtype.val, IsSegment s := by
  intro s hs
  obtain ⟨name, -, rfl⟩ := List.mem_map.mp hs
  exact name.2

theorem pathContains_pathText {root target} :
    pathContains (pathText root) (pathText target) = true ↔ root <+: target := by
  rw [pathContains_iff rfl rfl, pathText, pathText, cleanSegments_absPath (forall_mem_names _),
    cleanSegments_absPath (forall_mem_names _)]
  exact List.prefix_map_iff_of_injective Subtype.val_injective

theorem isAbs_absolute (workingDirectory : List FileName) (path : Runes) :
    isAbs (absolute (pathText workingDirectory) path) = true := by
  obtain ⟨segments, -, heq⟩ := absolute_eq_absPath (isAbs_absPath _) path
  rw [pathText, heq, isAbs_absPath]

/-- The names of `filepath.Abs` of a cleaned path. -/
def absoluteNames (workingDirectory : List FileName) (path : String) : List FileName :=
  (cleanSegments (absolute (pathText workingDirectory) (pathClean path.toList))).attachWith
    IsSegment (cleanSegments_isSegment (isAbs_absolute workingDirectory _))

/-! ## The functions -/

/-- The links that the system follows in one path. -/
def maxSystemLinks : Nat := 40

/-- The links that `filepath.EvalSymlinks` follows. -/
def maxEvalLinks : Nat := 255

/-- `filepath.EvalSymlinks` of an absolute path. -/
def evalSymlinks (tree : FileTree.Tree FileName) (path : List FileName) :
    Except Failure (List FileName) :=
  tree.walk maxEvalLinks [] (path.map .name)

/-- An error text, or the error of a file operation. -/
inductive PathError where
  | message (text : String)
  | file (failure : Failure)
  deriving DecidableEq

/-- An error of a removal; the worker tells apart the violations of path safety. -/
inductive RemovalError where
  | plain (cause : PathError)
  | safety (cause : PathError)
  deriving DecidableEq

section Functions

variable (workingDirectory : List FileName) (tree : FileTree.Tree FileName)

def ensureExistingPathWithinRoot (target root : List FileName) : Except PathError Unit :=
  match evalSymlinks tree root with
  | .error .missing => .ok ()
  | .error failure => .error (.file failure)
  | .ok resolvedRoot =>
    match evalSymlinks tree target with
    -- nothing is asked of a path that does not resolve, be it missing or a dangling link
    | .error .missing => .ok ()
    | .error failure => .error (.file failure)
    | .ok resolvedTarget =>
      if pathContains (pathText resolvedRoot) (pathText resolvedTarget) then .ok ()
      else .error (.message "cleanup path resolves outside configured root")

/-- The target and the first root that contains it by its spelling. -/
def resolveAllowedPath (path : String) (roots : List String) :
    Except RemovalError (List FileName × List FileName) :=
  if trimSpace path = "" then .error (.plain (.message "cleanup path must not be blank"))
  else
    let target := absoluteNames workingDirectory path
    let candidates := (roots.filter fun rawRoot => trimSpace rawRoot ≠ "").map fun rawRoot =>
      absoluteNames workingDirectory rawRoot
    match candidates.find? fun root => pathContains (pathText root) (pathText target) with
    | none => .error (.safety (.message "cleanup path is outside configured roots"))
    | some root =>
      match ensureExistingPathWithinRoot tree target root with
      | .error cause => .error (.safety cause)
      | .ok () => .ok (target, root)

def removeAllowedPath (path : String) (roots : List String) (recursive : Bool) :
    Except RemovalError (FileTree.Tree FileName) :=
  match resolveAllowedPath workingDirectory tree path roots with
  | .error e => .error e
  | .ok (target, root) =>
    if target = root then
      .error (.safety (.message "cleanup target must not be a configured root"))
    else
      match tree.lstat maxSystemLinks target with
      | .error .missing => .ok tree
      | .error failure => .error (.plain (.file failure))
      | .ok (_, node) =>
        if node = .directory ∧ !recursive then
          .error (.safety (.message "staged artifact cleanup target must be a file"))
        else
          (if recursive then tree.removeAll maxSystemLinks target
            else tree.remove maxSystemLinks target).mapError fun failure => .plain (.file failure)

/-- The location of the entry that a removal deletes. -/
def removalTarget (path : String) (roots : List String) (recursive : Bool) :
    Option (List FileName) :=
  match resolveAllowedPath workingDirectory tree path roots with
  | .error _ => none
  | .ok (target, root) =>
    if target = root then none
    else
      match tree.lstat maxSystemLinks target with
      | .error _ => none
      | .ok (location, node) => if node = .directory ∧ !recursive then none else some location

end Functions

/-! ## What a removal deletes -/

theorem prefix_dropLast_of_ne {α : Type} {above location : List α} (hunder : above <+: location)
    (hne : location ≠ above) : above <+: location.dropLast := by
  obtain ⟨rest, rfl⟩ := hunder
  have hrest : rest ≠ [] := by
    rintro rfl
    exact hne (List.append_nil above)
  rw [List.dropLast_append_of_ne_nil hrest]
  exact List.prefix_append above _

section Removal

variable {workingDirectory : List FileName} {tree : FileTree.Tree FileName} {path : String}
  {roots : List String} {recursive : Bool}

theorem resolveAllowedPath_ok {target root}
    (h : resolveAllowedPath workingDirectory tree path roots = .ok (target, root)) :
    target = absoluteNames workingDirectory path ∧ root <+: target ∧
      (∃ rawRoot ∈ roots, trimSpace rawRoot ≠ "" ∧
        root = absoluteNames workingDirectory rawRoot) ∧
      ensureExistingPathWithinRoot tree target root = .ok () := by
  unfold resolveAllowedPath at h
  split_ifs at h
  simp only at h
  split at h
  · cases h
  · next found hfound =>
    split at h
    · cases h
    · next hwithin =>
      obtain ⟨rfl, rfl⟩ : _ = target ∧ found = root := by simpa using h
      obtain ⟨rawRoot, hraw, rfl⟩ := List.mem_map.mp (List.mem_of_find?_eq_some hfound)
      refine ⟨rfl, pathContains_pathText.mp ?_,
        ⟨rawRoot, (List.mem_filter.mp hraw).1, of_decide_eq_true (List.mem_filter.mp hraw).2, rfl⟩,
        hwithin⟩
      simpa using List.find?_some hfound

theorem removalTarget_eq_some_iff {location} :
    removalTarget workingDirectory tree path roots recursive = some location ↔
      ∃ target root node,
        resolveAllowedPath workingDirectory tree path roots = .ok (target, root) ∧
        target ≠ root ∧ tree.lstat maxSystemLinks target = .ok (location, node) ∧
        (node = .directory → recursive = true) := by
  unfold removalTarget
  split
  · next hresolve => simp [hresolve]
  · next target root hresolve =>
    split_ifs with hroot
    · simp [hresolve, hroot]
    split
    · next hlstat => simp [hresolve, hlstat]
    · next found node hlstat =>
      split_ifs with hdirectory
      · have hfile : recursive = false := by simpa using hdirectory.2
        simp [hresolve, hlstat, hdirectory.1, hfile]
      · simpa [hresolve, hlstat, hroot] using fun _ => hdirectory

/-- The target lies below a root, so the entry is not the root of the file system. -/
theorem removalTarget_ne_nil {location}
    (h : removalTarget workingDirectory tree path roots recursive = some location) :
    location ≠ [] := by
  obtain ⟨target, root, node, hresolve, hne, hlstat, -⟩ := removalTarget_eq_some_iff.mp h
  obtain ⟨hpath, -⟩ | ⟨directory, name, -, -, -, rfl⟩ := (Tree.lstat_ok.mp hlstat).2
  · subst hpath
    exact absurd (List.prefix_nil.mp (resolveAllowedPath_ok hresolve).2.1).symm hne
  · simp

/-- A removal with a target deletes it with everything below. -/
theorem removeAllowedPath_of_target {location}
    (h : removalTarget workingDirectory tree path roots recursive = some location) :
    removeAllowedPath workingDirectory tree path roots recursive = .ok (tree.delete location) := by
  obtain ⟨target, root, node, hresolve, hne, hlstat, hdirectory⟩ := removalTarget_eq_some_iff.mp h
  have hallowed : ¬ (node = .directory ∧ (!recursive) = true) := by
    rintro ⟨hnode, hfile⟩
    simp [hdirectory hnode] at hfile
  simp only [removeAllowedPath, hresolve, if_neg hne, hlstat, if_neg hallowed]
  cases recursive with
  | true => simp [Tree.removeAll, hlstat, Except.mapError]
  | false =>
    have hnode : node ≠ .directory := fun hnode => Bool.false_ne_true (hdirectory hnode)
    have hremove : tree.remove maxSystemLinks target = .ok (tree.delete location) :=
      Tree.remove_ok.mpr ⟨location, node, hlstat, removalTarget_ne_nil h,
        fun heq => absurd heq hnode, rfl⟩
    simp [hremove, Except.mapError]

/-- A removal without a target deletes nothing. -/
theorem removeAllowedPath_of_no_target
    (h : removalTarget workingDirectory tree path roots recursive = none) {after}
    (hok : removeAllowedPath workingDirectory tree path roots recursive = .ok after) :
    after = tree := by
  unfold removalTarget at h
  unfold removeAllowedPath at hok
  split at hok
  · cases hok
  · next target root hresolve =>
    simp only [hresolve] at h
    by_cases hroot : target = root
    · rw [if_pos hroot] at hok
      cases hok
    rw [if_neg hroot] at hok h
    split at hok
    · exact (Except.ok.inj hok).symm
    · cases hok
    · next node hlstat =>
      simp only [hlstat] at h
      by_cases hdirectory : node = .directory ∧ (!recursive) = true
      · rw [if_pos hdirectory] at hok
        cases hok
      · rw [if_neg hdirectory] at h
        cases h

/-- What a removal takes away lies at its target or below. -/
theorem removed_iff {after}
    (hok : removeAllowedPath workingDirectory tree path roots recursive = .ok after) {p}
    (hp : tree.node p ≠ none) : after.node p = none ↔ ∃ location,
      removalTarget workingDirectory tree path roots recursive = some location ∧
        location <+: p := by
  cases htarget : removalTarget workingDirectory tree path roots recursive with
  | none =>
    rw [removeAllowedPath_of_no_target htarget hok]
    simpa using hp
  | some location =>
    rw [removeAllowedPath_of_target htarget] at hok
    cases hok
    rw [Tree.node_delete (removalTarget_ne_nil htarget)]
    simp [hp]

/-- The target itself is there, and the removal takes it away. -/
theorem removalTarget_removed {location}
    (h : removalTarget workingDirectory tree path roots recursive = some location) :
    ∃ after, removeAllowedPath workingDirectory tree path roots recursive = .ok after ∧
      tree.node location ≠ none ∧ after.node location = none := by
  obtain ⟨_, _, node, -, -, hlstat, -⟩ := removalTarget_eq_some_iff.mp h
  have hnode : tree.node location ≠ none := by
    rw [(Tree.lstat_ok.mp hlstat).1]
    exact Option.some_ne_none node
  have hok := removeAllowedPath_of_target h
  exact ⟨_, hok, hnode, (removed_iff hok hnode).mpr ⟨location, h, List.prefix_rfl⟩⟩

end Removal

/-! ## Containment in the root -/

section Inside

variable {workingDirectory : List FileName} {tree : FileTree.Tree FileName} {path : String}
  {roots : List String} {recursive : Bool} {target root location resolvedRoot : List FileName}
  {node : Node FileName}

theorem evalSymlinks_of_walk {steps : List FileName}
    (h : tree.walk maxSystemLinks [] (steps.map .name) = .ok location) :
    evalSymlinks tree steps = .ok location :=
  Tree.walk_mono (fun _ _ h => h) (by decide) h

/-- The directory of an entry, and every root above it, can be resolved. -/
theorem evalSymlinks_above (hunder : root <+: target) (hne : target ≠ root)
    (hlstat : tree.lstat maxSystemLinks target = .ok (location, node)) :
    evalSymlinks tree target.dropLast = .ok location.dropLast ∧
      ∃ resolvedRoot, evalSymlinks tree root = .ok resolvedRoot := by
  obtain ⟨rfl, -⟩ | ⟨directory, name, -, hwalk, -, rfl⟩ := (Tree.lstat_ok.mp hlstat).2
  · exact absurd (List.prefix_nil.mp hunder).symm hne
  obtain ⟨rest, hrest⟩ := prefix_dropLast_of_ne hunder hne
  refine ⟨by rw [List.dropLast_concat]; exact evalSymlinks_of_walk hwalk, ?_⟩
  rw [← hrest, List.map_append] at hwalk
  obtain ⟨resolvedRoot, hroot⟩ := Tree.walk_front hwalk
  exact ⟨resolvedRoot, evalSymlinks_of_walk hroot⟩

/-- The last name of the path is no link, and it does not lead to the root itself; or the check of
the path would accept its directory too. -/
def StaysInside (tree : FileTree.Tree FileName) (target root : List FileName) : Prop :=
  (∃ location node, tree.lstat maxSystemLinks target = .ok (location, node) ∧
    (∀ absolute steps, node ≠ .link absolute steps) ∧ evalSymlinks tree root ≠ .ok location) ∨
  ensureExistingPathWithinRoot tree target.dropLast root = .ok ()

/-- What the check says of a path that it accepts: a last name that is no link is resolved with the
rest, so the entry lies in the root. -/
theorem staysInside_iff
    (hresolve : resolveAllowedPath workingDirectory tree path roots = .ok (target, root))
    (hne : target ≠ root) (hlstat : tree.lstat maxSystemLinks target = .ok (location, node))
    (hroot : evalSymlinks tree root = .ok resolvedRoot) :
    StaysInside tree target root ↔ resolvedRoot <+: location.dropLast := by
  obtain ⟨-, hunder, -, hwithin⟩ := resolveAllowedPath_ok hresolve
  have hdirectory : ensureExistingPathWithinRoot tree target.dropLast root = .ok () ↔
      resolvedRoot <+: location.dropLast := by
    simp only [ensureExistingPathWithinRoot, hroot, (evalSymlinks_above hunder hne hlstat).1]
    rw [← pathContains_pathText]
    split_ifs with hcontains
    · exact iff_of_true rfl hcontains
    · refine iff_of_false ?_ hcontains
      intro herror
      cases herror
  refine ⟨fun hstays => hstays.elim ?_ hdirectory.mp, fun h => .inr (hdirectory.mpr h)⟩
  rintro ⟨location', node', hlstat', hlink, hother⟩
  obtain ⟨rfl, rfl⟩ := Prod.mk.inj (Except.ok.inj (hlstat.symm.trans hlstat'))
  have htarget := evalSymlinks_of_walk (Tree.walk_of_lstat hlstat hlink)
  simp only [ensureExistingPathWithinRoot, hroot, htarget] at hwithin
  split_ifs at hwithin with hcontains
  refine prefix_dropLast_of_ne (pathContains_pathText.mp hcontains) ?_
  rintro rfl
  exact hother hroot

/-- A removal takes something away exactly if it has a target. -/
theorem removes_iff :
    (∃ after p, removeAllowedPath workingDirectory tree path roots recursive = .ok after ∧
      tree.node p ≠ none ∧ after.node p = none) ↔
    ∃ location, removalTarget workingDirectory tree path roots recursive = some location := by
  constructor
  · rintro ⟨after, p, hok, hp, hremoved⟩
    obtain ⟨location, htarget, -⟩ := (removed_iff hok hp).mp hremoved
    exact ⟨location, htarget⟩
  · rintro ⟨location, htarget⟩
    obtain ⟨after, hok, hnode, hgone⟩ := removalTarget_removed htarget
    exact ⟨after, location, hok, hnode, hgone⟩

end Inside

/-- **Where a removal stays in its root**: if it takes something away, exactly where its path names
no link and not the root, or the check would accept the directory of the path. -/
theorem removed_inside_root_iff (workingDirectory : List FileName) (tree : FileTree.Tree FileName)
    (path : String) (roots : List String) (recursive : Bool) :
    (∀ after p, removeAllowedPath workingDirectory tree path roots recursive = .ok after →
      tree.node p ≠ none → after.node p = none →
      ∃ target root resolvedRoot,
        resolveAllowedPath workingDirectory tree path roots = .ok (target, root) ∧
        evalSymlinks tree root = .ok resolvedRoot ∧ resolvedRoot <+: p ∧ p ≠ resolvedRoot) ↔
    ((∃ after p, removeAllowedPath workingDirectory tree path roots recursive = .ok after ∧
        tree.node p ≠ none ∧ after.node p = none) →
      ∀ target root, resolveAllowedPath workingDirectory tree path roots = .ok (target, root) →
        StaysInside tree target root) := by
  rw [removes_iff]
  constructor
  · rintro hinside ⟨location, htarget⟩ target root hresolve
    obtain ⟨target', root', node, hresolve', hne, hlstat, -⟩ :=
      removalTarget_eq_some_iff.mp htarget
    obtain ⟨rfl, rfl⟩ := Prod.mk.inj (Except.ok.inj (hresolve'.symm.trans hresolve))
    -- the claim at the target itself says where the root is
    obtain ⟨after, hok, hnode, hgone⟩ := removalTarget_removed htarget
    obtain ⟨_, _, resolvedRoot, hresolve', hroot, hunder, hother⟩ :=
      hinside after location hok hnode hgone
    obtain ⟨rfl, rfl⟩ := Prod.mk.inj (Except.ok.inj (hresolve'.symm.trans hresolve))
    exact (staysInside_iff hresolve hne hlstat hroot).mpr (prefix_dropLast_of_ne hunder hother)
  · intro hstays after p hok hp hremoved
    obtain ⟨location, htarget, hbelow⟩ := (removed_iff hok hp).mp hremoved
    obtain ⟨target, root, node, hresolve, hne, hlstat, -⟩ := removalTarget_eq_some_iff.mp htarget
    obtain ⟨-, resolvedRoot, hroot⟩ :=
      evalSymlinks_above (resolveAllowedPath_ok hresolve).2.1 hne hlstat
    have hunder := (staysInside_iff hresolve hne hlstat hroot).mp
      (hstays ⟨location, htarget⟩ target root hresolve)
    refine ⟨target, root, resolvedRoot, hresolve, hroot,
      hunder.trans ((List.dropLast_prefix location).trans hbelow), ?_⟩
    rintro rfl
    -- the entry would lie in itself
    have hlength := (hbelow.trans hunder).length_le
    have hpositive := List.length_pos_of_ne_nil (removalTarget_ne_nil htarget)
    rw [List.length_dropLast] at hlength
    omega

/-- A staging directory with a link out of it; the directory it leads to holds a dangling link. -/
def linkedTree : FileTree.Tree FileName where
  entries :=
    let name (c : Char) (h : IsSegment [c]) : FileName := ⟨[c], h⟩
    let r := name 'r' (by decide)
    let o := name 'o' (by decide)
    let e := name 'e' (by decide)
    let d := name 'd' (by decide)
    [([r], .directory), ([r, o], .link true [.name e]), ([e], .directory),
      ([e, d], .link true [.name d])]
  located := by decide
  distinct := by decide
  parents := by decide

/-- The link on the way leads out of the root, and the dangling link does not resolve. -/
theorem dangling_link_removed :
    ∃ after, removeAllowedPath [] linkedTree "/r/o/d" ["/r"] false = .ok after ∧
      evalSymlinks linkedTree [⟨['r'], by decide⟩] = .ok [⟨['r'], by decide⟩] ∧
      linkedTree.node [⟨['e'], by decide⟩, ⟨['d'], by decide⟩] ≠ none ∧
      after.node [⟨['e'], by decide⟩, ⟨['d'], by decide⟩] = none := by
  have htarget : removalTarget [] linkedTree "/r/o/d" ["/r"] false =
      some [⟨['e'], by decide⟩, ⟨['d'], by decide⟩] := by decide +kernel
  exact ⟨_, removeAllowedPath_of_target htarget, by decide +kernel, by decide +kernel,
    by decide +kernel⟩

end EmbyAuto
