import Mathlib

/-!
# Directory trees with symbolic links

A tree has one entry for each file, directory and link, under the names that lead to it from the
root. A path is walked name by name; a link is replaced by its target, a bounded number of times.
The last name of a path is not followed by the calls that remove an entry, so that the entry they
work on lies in the directory that the other names lead to.

## Main definitions

* `Tree`: entries whose parents are directories
* `Tree.walk`: the location that a path leads to
* `Tree.lstat`: the entry that a path names
* `Tree.remove`, `Tree.removeAll`: the removal of one entry, and of everything below it

## Main results

* `Tree.node_delete`: what is left when an entry is deleted with everything below it
* `Tree.lstat_ok`, `Tree.remove_ok`: the entry that a path names, and its removal
* `Tree.walk_mono`, `Tree.lstat_mono`: what is found in a part of a tree is found in the tree
* `Tree.walk_of_lstat`: a path leads to the entry that it names unless that is a link
* `Tree.lstat_of_no_links`: without links a path names the entry it spells
-/

namespace FileTree

/-- A step of a path. -/
inductive Step (ν : Type) where
  | name (x : ν)
  | up
  deriving DecidableEq

/-- What stands at a location; a link holds the steps of its target. -/
inductive Node (ν : Type) where
  | directory
  | file
  | link (absolute : Bool) (target : List (Step ν))
  deriving DecidableEq

variable {ν : Type} [DecidableEq ν]

/-- A tree: the entries below the root, each in a directory. -/
structure Tree (ν : Type) [DecidableEq ν] where
  entries : List (List ν × Node ν)
  located : ∀ e ∈ entries, e.1 ≠ []
  distinct : (entries.map Prod.fst).Nodup
  parents : ∀ e ∈ entries, e.1.dropLast = [] ∨ (e.1.dropLast, .directory) ∈ entries

/-- Why a path does not lead to an entry, or an entry cannot be removed. -/
inductive Failure where
  | missing
  | notDirectory
  | loop
  | notEmpty
  | busy
  deriving DecidableEq

namespace Tree

variable (tree : Tree ν)

/-- What stands at a location. -/
def node (location : List ν) : Option (Node ν) :=
  if location = [] then some .directory
  else (tree.entries.find? fun e => e.1 = location).map Prod.snd

/-- The directory has no entries. -/
def isEmpty (location : List ν) : Bool := tree.entries.all fun e => e.1.dropLast ≠ location

/-- Deletes an entry with everything below it. -/
def delete (location : List ν) : Tree ν where
  entries := tree.entries.filter fun e => !decide (location <+: e.1)
  located e he := tree.located e (List.mem_of_mem_filter he)
  distinct := (tree.distinct.sublist ((List.filter_sublist).map _))
  parents e he := by
    obtain ⟨hmem, hkept⟩ := List.mem_filter.mp he
    refine (tree.parents e hmem).imp id fun hparent => List.mem_filter.mpr ⟨hparent, ?_⟩
    have hkept : ¬ location <+: e.1 := by simpa using hkept
    simpa using fun hbelow : location <+: e.1.dropLast =>
      hkept (hbelow.trans (List.dropLast_prefix e.1))

/-! ## Walking -/

/-- One walk between two links: `follow` walks on from where a link leads. -/
def walkWith (follow : List ν → List (Step ν) → Except Failure (List ν)) :
    List ν → List (Step ν) → Except Failure (List ν)
  | location, [] => .ok location
  | location, .up :: steps => walkWith follow location.dropLast steps
  | location, .name x :: steps =>
    match tree.node (location ++ [x]) with
    | none => .error .missing
    | some .directory => walkWith follow (location ++ [x]) steps
    | some .file => if steps = [] then .ok (location ++ [x]) else .error .notDirectory
    | some (.link absolute target) =>
      follow (if absolute then [] else location) (target ++ steps)

/-- The location that a path leads to, through at most the given number of links. -/
def walk : Nat → List ν → List (Step ν) → Except Failure (List ν)
  | 0 => tree.walkWith fun _ _ => .error .loop
  | links + 1 => tree.walkWith (walk links)

/-- The entry that a path from the root names: the last name is not followed. -/
def lstat (links : Nat) (path : List ν) : Except Failure (List ν × Node ν) :=
  match path.getLast? with
  | none => .ok ([], .directory)
  | some name =>
    (tree.walk links [] (path.dropLast.map .name)).bind fun directory =>
      if tree.node directory = some .directory then
        match tree.node (directory ++ [name]) with
        | none => .error .missing
        | some node => .ok (directory ++ [name], node)
      else .error .notDirectory

/-! ## Removal -/

/-- Removes a file, a link or an empty directory. -/
def remove (links : Nat) (path : List ν) : Except Failure (Tree ν) :=
  (tree.lstat links path).bind fun (location, node) =>
    if location = [] then .error .busy
    else if node = .directory ∧ !tree.isEmpty location then .error .notEmpty
    else .ok (tree.delete location)

/-- Removes an entry and everything below it; links are removed and not followed. -/
def removeAll (links : Nat) (path : List ν) : Except Failure (Tree ν) :=
  match tree.lstat links path with
  | .error .missing => .ok tree
  | .error failure => .error failure
  | .ok (location, _) => .ok (tree.delete location)

/-! ## Entries -/

variable {tree}

theorem node_eq_some_iff {location : List ν} (h : location ≠ []) {node : Node ν} :
    tree.node location = some node ↔ (location, node) ∈ tree.entries := by
  rw [Tree.node, if_neg h, Option.map_eq_some_iff]
  constructor
  · rintro ⟨e, hfind, rfl⟩
    have hlocation : e.1 = location := by simpa using List.find?_some hfind
    rw [← hlocation]
    exact List.mem_of_find?_eq_some hfind
  · intro hmem
    cases hfind : tree.entries.find? fun e => e.1 = location with
    | none => exact absurd (decide_eq_true rfl) (List.find?_eq_none.mp hfind _ hmem)
    | some e =>
      have hlocation : e.1 = location := by simpa using List.find?_some hfind
      -- the locations are distinct
      have heq := List.inj_on_of_nodup_map tree.distinct (List.mem_of_find?_eq_some hfind) hmem
        hlocation
      exact ⟨e, rfl, congrArg Prod.snd heq⟩

@[simp] theorem node_nil : tree.node [] = some .directory := if_pos rfl

/-- **What is left** when an entry is deleted with everything below it. -/
theorem node_delete {location : List ν} (h : location ≠ []) (p : List ν) :
    (tree.delete location).node p = if location <+: p then none else tree.node p := by
  by_cases hroot : p = []
  · subst hroot
    rw [if_neg (by simpa using h), node_nil, node_nil]
  refine Option.ext fun node => ?_
  rw [node_eq_some_iff hroot]
  split_ifs with hbelow
  · simp [delete, hbelow]
  · rw [node_eq_some_iff hroot]
    simp [delete, hbelow]

/-! ## Where a removal deletes -/

/-- An entry is the root, or stands under the last name in the directory the others lead to. -/
theorem lstat_ok {links : Nat} {path location : List ν} {node : Node ν} :
    tree.lstat links path = .ok (location, node) ↔
      tree.node location = some node ∧ (path = [] ∧ location = [] ∨
        ∃ directory name, path.getLast? = some name ∧
          tree.walk links [] (path.dropLast.map .name) = .ok directory ∧
          tree.node directory = some .directory ∧ location = directory ++ [name]) := by
  unfold lstat
  split
  · next hroot =>
    rw [List.getLast?_eq_none_iff.mp hroot]
    grind [node_nil]
  · next name hlast =>
    have hpath : path ≠ [] := by
      rintro rfl
      cases hlast
    cases hwalk : tree.walk links [] (path.dropLast.map .name) with
    | error failure => simp [Except.bind, hpath]
    | ok directory =>
      simp only [Except.bind]
      grind

/-- A removal deletes at the location of the entry. -/
theorem remove_ok {links : Nat} {path : List ν} {after : Tree ν} :
    tree.remove links path = .ok after ↔
      ∃ location node, tree.lstat links path = .ok (location, node) ∧ location ≠ [] ∧
        (node = .directory → tree.isEmpty location = true) ∧ tree.delete location = after := by
  unfold remove
  cases hlstat : tree.lstat links path with
  | error failure => simp [Except.bind]
  | ok entry =>
    obtain ⟨location, node⟩ := entry
    simp only [Except.bind]
    split_ifs with hroot hentries
    · simp [hroot]
    · simp at hentries
      simp [hentries]
    · simpa [hroot] using fun _ => hentries

/-! ## Parts of a tree -/

/-- Every entry of the part is one of the tree. -/
def IsPart (part tree : Tree ν) : Prop :=
  ∀ p node, part.node p = some node → tree.node p = some node

variable {part : Tree ν}

theorem walkWith_mono (hpart : part.IsPart tree) {follow follow'}
    (hfollow : ∀ location steps reached, follow location steps = .ok reached →
      follow' location steps = .ok reached) {location reached : List ν} {steps}
    (h : part.walkWith follow location steps = .ok reached) :
    tree.walkWith follow' location steps = .ok reached := by
  induction steps generalizing location with
  | nil => exact h
  | cons step steps ih =>
    cases step with
    | up => exact ih h
    | name x =>
      simp only [walkWith] at h ⊢
      cases hnode : part.node (location ++ [x]) with
      | none => simp only [hnode, reduceCtorEq] at h
      | some node =>
        simp only [hnode] at h
        simp only [hpart _ _ hnode]
        cases node with
        | directory => exact ih h
        | file => exact h
        | link absolute target => exact hfollow _ _ _ h

/-- What a path leads to in a part of the tree, it leads to in the tree, with as many links. -/
theorem walk_mono (hpart : part.IsPart tree) {links links' : Nat} (hle : links ≤ links')
    {location reached : List ν} {steps} (h : part.walk links location steps = .ok reached) :
    tree.walk links' location steps = .ok reached := by
  induction links generalizing links' location steps reached with
  | zero =>
    cases links' <;>
    · refine walkWith_mono hpart ?_ h
      intro _ _ _ hstop
      cases hstop
  | succ links ih =>
    obtain ⟨more, rfl⟩ := Nat.exists_eq_succ_of_ne_zero (Nat.ne_of_gt (Nat.zero_lt_of_lt hle))
    refine walkWith_mono hpart ?_ h
    intro _ _ _ hwalk
    exact ih (Nat.le_of_succ_le_succ hle) hwalk

theorem lstat_mono (hpart : part.IsPart tree) {links : Nat} {path location : List ν} {node}
    (h : part.lstat links path = .ok (location, node)) :
    tree.lstat links path = .ok (location, node) := by
  obtain ⟨hnode, hroot | ⟨directory, name, hlast, hwalk, hdirectory, hlocation⟩⟩ := lstat_ok.mp h
  · exact lstat_ok.mpr ⟨hpart _ _ hnode, .inl hroot⟩
  · exact lstat_ok.mpr ⟨hpart _ _ hnode, .inr ⟨directory, name, hlast,
      walk_mono hpart le_rfl hwalk, hpart _ _ hdirectory, hlocation⟩⟩

/-! ## Paths and their last names -/

/-- The directories on the way of a path can be walked to. -/
theorem walk_front {links : Nat} {location reached : List ν} {front back}
    (h : tree.walk links location (front ++ back) = .ok reached) :
    ∃ way, tree.walk links location front = .ok way := by
  -- first between two links, given the same for the walks that follow a link
  have hwalkWith : ∀ follow : List ν → List (Step ν) → Except Failure (List ν),
      (∀ location front, follow location (front ++ back) = .ok reached →
        ∃ way, follow location front = .ok way) →
      ∀ front location, tree.walkWith follow location (front ++ back) = .ok reached →
        ∃ way, tree.walkWith follow location front = .ok way := by
    intro follow hfollow front
    induction front with
    | nil => exact fun location _ => ⟨location, rfl⟩
    | cons step front ih =>
      intro location h
      cases step with
      | up => exact ih _ h
      | name x =>
        simp only [List.cons_append, walkWith] at h ⊢
        split at h
        · cases h
        · exact ih _ h
        · split_ifs at h with hlast
          exact ⟨_, if_pos (List.append_eq_nil_iff.mp hlast).1⟩
        · rw [← List.append_assoc] at h
          exact hfollow _ _ h
  induction links generalizing location front with
  | zero =>
    refine hwalkWith (fun _ _ => .error .loop) ?_ front location h
    intro _ _ hstop
    cases hstop
  | succ links ih => exact hwalkWith (tree.walk links) (fun _ _ h => ih h) front location h

/-- A last name that is no link is walked to from its directory. -/
theorem walk_concat {links : Nat} {location directory : List ν} {steps} {x : ν} {node : Node ν}
    (h : tree.walk links location steps = .ok directory)
    (hdirectory : tree.node directory = some .directory)
    (hnode : tree.node (directory ++ [x]) = some node)
    (hlink : ∀ absolute target, node ≠ .link absolute target) :
    tree.walk links location (steps ++ [.name x]) = .ok (directory ++ [x]) := by
  have hwalkWith : ∀ follow : List ν → List (Step ν) → Except Failure (List ν),
      (∀ location steps, follow location steps = .ok directory →
        follow location (steps ++ [.name x]) = .ok (directory ++ [x])) →
      ∀ steps location, tree.walkWith follow location steps = .ok directory →
        tree.walkWith follow location (steps ++ [.name x]) = .ok (directory ++ [x]) := by
    intro follow hfollow steps
    induction steps with
    | nil =>
      rintro location h
      cases h
      cases node with
      | directory | file => simp [walkWith, hnode]
      | link absolute target => exact absurd rfl (hlink absolute target)
    | cons step steps ih =>
      intro location h
      cases step with
      | up => exact ih _ h
      | name y =>
        simp only [List.cons_append, walkWith] at h ⊢
        split at h
        · cases h
        · exact ih _ h
        · next hfile =>
          split_ifs at h with hlast
          -- the path would end at a file, and not at a directory
          rw [Except.ok.inj h, hdirectory] at hfile
          cases hfile
        · rw [← List.append_assoc]
          exact hfollow _ _ h
  induction links generalizing location steps with
  | zero =>
    refine hwalkWith (fun _ _ => .error .loop) ?_ steps location h
    intro _ _ hstop
    cases hstop
  | succ links ih => exact hwalkWith (tree.walk links) (fun _ _ h => ih h) steps location h

/-- A path leads to the entry that it names unless that is a link. -/
theorem walk_of_lstat {links : Nat} {path location : List ν} {node : Node ν}
    (h : tree.lstat links path = .ok (location, node))
    (hlink : ∀ absolute target, node ≠ .link absolute target) :
    tree.walk links [] (path.map .name) = .ok location := by
  obtain ⟨hnode, ⟨rfl, rfl⟩ | ⟨directory, name, hlast, hwalk, hdirectory, rfl⟩⟩ := lstat_ok.mp h
  · cases links <;> rfl
  · have hpath := congrArg (List.map Step.name) (List.dropLast_append_getLast? name hlast)
    rw [List.map_append] at hpath
    rw [← hpath]
    exact walk_concat hwalk hdirectory hnode hlink

/-! ## Trees without links -/

variable (hlinks : ∀ p absolute target, tree.node p ≠ some (.link absolute target))

include hlinks

theorem walkWith_of_no_links {follow} {names location reached : List ν}
    (h : tree.walkWith follow location (names.map .name) = .ok reached) :
    reached = location ++ names := by
  induction names generalizing location with
  | nil => simpa [walkWith] using h.symm
  | cons x names ih =>
    simp only [List.map_cons, walkWith] at h
    split at h
    · cases h
    · rw [ih h, List.append_assoc, List.singleton_append]
    · split_ifs at h with hlast
      cases h
      rw [List.map_eq_nil_iff.mp hlast]
    · next hlink => exact absurd hlink (hlinks _ _ _)

/-- Without links a path leads to the location it spells. -/
theorem walk_of_no_links {links : Nat} {names reached : List ν}
    (h : tree.walk links [] (names.map .name) = .ok reached) : reached = names := by
  cases links <;> exact walkWith_of_no_links hlinks h

/-- Without links a path names the entry it spells. -/
theorem lstat_of_no_links {links : Nat} {path location : List ν} {node : Node ν}
    (h : tree.lstat links path = .ok (location, node)) : location = path := by
  obtain ⟨hpath, hlocation⟩ | ⟨directory, name, hlast, hwalk, -, rfl⟩ := (lstat_ok.mp h).2
  · rw [hpath, hlocation]
  · rw [walk_of_no_links hlinks hwalk]
    exact List.dropLast_append_getLast? name hlast

end Tree

end FileTree
