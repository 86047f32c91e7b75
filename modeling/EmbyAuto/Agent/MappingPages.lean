import EmbyAuto.Store.Value

/-!
# Reconciling episode mappings page by page

`reconcileAutomaticEpisodeMappingPages` reads the acquisitions without a mapping in pages. The
first page fixes the window that the later ones stay in, each page starts behind the last row of
the one before, and of each group only the first acquisition is visited.

## Main definitions

* `reconcilePages`, `reconcileAutomaticEpisodeMappingPages`: the loop
* `KeysetLoader`: a loader that answers the rows of its window in order

## Main results

* `reconciliation_visits_leaders`: the first acquisition of each group is visited, once
-/

namespace EmbyAuto

structure ReconciliationWindow where
  createdBefore : Option Timestamp := none
  highGroupKey : Option UUID := none
  highCreatedAt : Option Timestamp := none
  highAcquisitionID : Option UUID := none

def ReconciliationWindow.complete (w : ReconciliationWindow) : Bool :=
  w.createdBefore.isSome && w.highGroupKey.isSome && w.highCreatedAt.isSome &&
    w.highAcquisitionID.isSome

/-- A row of `ListAutomaticEpisodeMappingAcquisitions`. -/
structure MappingCandidate where
  groupKey : UUID
  createdAt : Timestamp
  acquisitionID : UUID
  window : ReconciliationWindow

/-- The order of the rows, in which a cursor is a place. -/
def MappingCandidate.key (row : MappingCandidate) : UUID ×ₗ Timestamp ×ₗ UUID :=
  toLex (row.groupKey, toLex (row.createdAt, row.acquisitionID))

structure MappingPageParams where
  pageSize : Int
  window : ReconciliationWindow := {}
  cursor : Option (UUID ×ₗ Timestamp ×ₗ UUID) := none

section Loop

variable (load : MappingPageParams → Except Fault (List MappingCandidate))
  (visit : UUID → Except Fault Unit)

/-- One round over the rows of a page. The rows that were visited hold `attempted`, their number,
and `seenGroupKeys`. An error comes with `attempted`. -/
def visitCandidate (visited : List MappingCandidate) (row : MappingCandidate) :
    Except (Nat × Fault) (List MappingCandidate) :=
  if row.groupKey ∈ visited.map (·.groupKey) then .ok visited
  else match visit row.acquisitionID with
    | .error fault => .error (visited.length, fault)
    | .ok () => .ok (visited ++ [row])

/-- The loop over the pages; `none` is a loop that goes on after `fuel` pages. -/
def reconcilePages : Nat → MappingPageParams → List MappingCandidate →
    Option (Except (Nat × Fault) (List MappingCandidate))
  | 0, _, _ => none
  | fuel + 1, params, visited =>
    match load params with
    | .error fault => some (.error (visited.length,
        .wrap "list automatic episode Mapping reconciliation candidates" fault))
    | .ok [] => some (.ok visited)
    | .ok (first :: rest) =>
      if params.window.createdBefore.isNone && !first.window.complete then
        some (.error (visited.length,
          .text "automatic episode Mapping reconciliation window is incomplete"))
      else
        let window := if params.window.createdBefore.isNone then first.window else params.window
        match (first :: rest).foldlM (visitCandidate visit) visited with
        | .error failure => some (.error failure)
        | .ok visited =>
          if ((first :: rest).length : Int) < params.pageSize then some (.ok visited)
          else
            let last := (first :: rest).getLast (List.cons_ne_nil _ _)
            reconcilePages fuel { params with window, cursor := some last.key } visited

def reconcileAutomaticEpisodeMappingPages (fuel : Nat) (pageSize : Int) :
    Option (Except (Nat × Fault) (List MappingCandidate)) :=
  if pageSize ≤ 0 then some (.error (0,
    .text "automatic episode Mapping reconciliation page size must be positive"))
  else reconcilePages load visit fuel { pageSize } []

end Loop

/-! ## The first of each group -/

/-- The rows of a window in order, and a loader that answers them: from the first one, and from
behind a cursor once the window is known. -/
structure KeysetLoader (rows : List MappingCandidate) (pageSize : Int)
    (load : MappingPageParams → Except Fault (List MappingCandidate)) : Prop where
  ordered : rows.Pairwise (·.key < ·.key)
  window : ∀ row ∈ rows, row.window.complete = true ∧ ∀ row' ∈ rows, row'.window = row.window
  first : load { pageSize } = .ok (rows.take pageSize.toNat)
  next : ∀ row ∈ rows, load { pageSize, window := row.window, cursor := some row.key } =
    .ok ((rows.filter (row.key < ·.key)).take pageSize.toNat)

/-- The rows that are visited when no visit fails. -/
def leader (visited : List MappingCandidate) (row : MappingCandidate) : List MappingCandidate :=
  if row.groupKey ∈ visited.map (·.groupKey) then visited else visited ++ [row]

variable {rows : List MappingCandidate} {pageSize : Int}
  {load : MappingPageParams → Except Fault (List MappingCandidate)}
  {visit : UUID → Except Fault Unit}

theorem foldlM_visitCandidate (hvisit : ∀ id, visit id = .ok ())
    (visited : List MappingCandidate) :
    rows.foldlM (visitCandidate visit) visited = .ok (rows.foldl leader visited) := by
  induction rows generalizing visited with
  | nil => rfl
  | cons row rows ih =>
    have hrow : visitCandidate visit visited row = .ok (leader visited row) := by
      rw [visitCandidate, leader, hvisit]
      split <;> rfl
    rw [List.foldlM_cons, hrow]
    exact ih _

/-- Behind the last of the rows that are done come the others. -/
theorem filter_behind {done rest : List MappingCandidate} {last : MappingCandidate}
    (h : (done ++ last :: rest).Pairwise (·.key < ·.key)) :
    (done ++ last :: rest).filter (last.key < ·.key) = rest := by
  obtain ⟨-, hrest, hdone⟩ := List.pairwise_append.mp h
  have hbefore : done.filter (last.key < ·.key) = [] :=
    List.filter_eq_nil_iff.mpr fun row hrow => by
      simpa using (hdone row hrow last List.mem_cons_self).le
  have hbehind : rest.filter (last.key < ·.key) = rest :=
    List.filter_eq_self.mpr fun row hrow => by simpa using List.rel_of_pairwise_cons hrest hrow
  simp [hbefore, hbehind]

/-- The loop reads the rows behind those that are done, wherever the pages end. -/
theorem reconcilePages_from (hvisit : ∀ id, visit id = .ok ()) (hpage : 0 < pageSize)
    (hload : KeysetLoader rows pageSize load) {fuel : Nat} {window cursor}
    {done rest : List MappingCandidate} (hrows : done ++ rest = rows) (hfuel : rest.length < fuel)
    (hread : load { pageSize, window, cursor } = .ok (rest.take pageSize.toNat))
    (hwindow : window.createdBefore = none ∨ ∀ row ∈ rows, window = row.window) :
    reconcilePages load visit fuel { pageSize, window, cursor } (done.foldl leader []) =
      some (.ok (rows.foldl leader [])) := by
  induction fuel generalizing window cursor done rest with
  | zero => omega
  | succ fuel ih =>
    have hsplit := List.take_append_drop pageSize.toNat rest
    have hlength := List.length_take (i := pageSize.toNat) (l := rest)
    rw [reconcilePages, hread]
    cases htake : rest.take pageSize.toNat with
    | nil =>
      have hnil : rest = [] := (List.take_eq_nil_iff.mp htake).resolve_left (by omega)
      simp [← hrows, hnil]
    | cons first page =>
      rw [htake] at hsplit hlength
      rw [← hsplit, ← List.append_assoc] at hrows
      have hfirst : first ∈ rows := by simp [← hrows]
      simp only [(hload.window first hfirst).1, Bool.not_true, Bool.and_false, Bool.false_eq_true,
        if_false, foldlM_visitCandidate hvisit, ← List.foldl_append]
      split
      · next hshort =>
        have hdrop : rest.drop pageSize.toNat = [] := List.drop_eq_nil_iff.mpr (by omega)
        rw [← hrows, hdrop, List.append_nil]
      -- the window is fixed by the first page and the same for every row
      · have hnext : ∀ row ∈ rows, (if window.createdBefore.isNone = true then first.window
            else window) = row.window := by
          intro row hrow
          split
          · exact (hload.window row hrow).2 first hfirst
          · next hfixed => exact hwindow.resolve_left (by simpa using hfixed) row hrow
        generalize hlast : (first :: page).getLast (List.cons_ne_nil _ _) = last
        -- the cursor is the last row of the page, so the next page begins behind it
        have hdone : done ++ (first :: page).dropLast ++ last :: rest.drop pageSize.toNat =
            rows := by
          rw [← hrows, ← List.dropLast_append_getLast (List.cons_ne_nil first page), hlast]
          simp
        have hmem : last ∈ rows := by simp [← hdone]
        refine ih hrows (by rw [List.length_drop]; omega) ?_ (.inr hnext)
        rw [hnext last hmem, hload.next last hmem]
        rw [← hdone] at hload ⊢
        rw [filter_behind hload.ordered]

theorem leaders_spec (hordered : rows.Pairwise (·.key < ·.key)) :
    (rows.foldl leader []).Sublist rows ∧ ((rows.foldl leader []).map (·.groupKey)).Nodup ∧
      ∀ row ∈ rows, ∃ first ∈ rows.foldl leader [],
        first.groupKey = row.groupKey ∧ first.key ≤ row.key := by
  induction rows using List.reverseRecOn with
  | nil => simp
  | append_singleton rows row ih =>
    obtain ⟨hrows, -, hlast⟩ := List.pairwise_append.mp hordered
    obtain ⟨hsublist, hnodup, hfirst⟩ := ih hrows
    rw [List.foldl_append, List.foldl_cons, List.foldl_nil, leader]
    split
    · next hseen =>
      refine ⟨hsublist.trans (List.sublist_append_left _ _), hnodup, fun other hother => ?_⟩
      rcases List.mem_append.mp hother with hother | hother
      · exact hfirst other hother
      · cases List.mem_singleton.mp hother
        obtain ⟨first, hmem, hgroup⟩ := List.mem_map.mp hseen
        exact ⟨first, hmem, hgroup, (hlast first (hsublist.subset hmem) row hother).le⟩
    · next hseen =>
      refine ⟨hsublist.append_right _, ?_, fun other hother => ?_⟩
      · rw [List.map_append, List.map_singleton]
        exact List.nodup_append_comm.mp (List.nodup_cons.mpr ⟨hseen, hnodup⟩)
      rcases List.mem_append.mp hother with hother | hother
      · obtain ⟨first, hmem, hfirst⟩ := hfirst other hother
        exact ⟨first, List.mem_append_left _ hmem, hfirst⟩
      · exact ⟨other, List.mem_append_right _ hother, rfl, le_rfl⟩

/-- **The reconciliation** ends, and visits the first acquisition of each group of the window. -/
theorem reconciliation_visits_leaders (rows : List MappingCandidate) (pageSize : Int)
    (hpage : 0 < pageSize) (load : MappingPageParams → Except Fault (List MappingCandidate))
    (hload : KeysetLoader rows pageSize load) (visit : UUID → Except Fault Unit)
    (hvisit : ∀ id, visit id = .ok ()) :
    ∃ fuel visited, reconcileAutomaticEpisodeMappingPages load visit fuel pageSize =
        some (.ok visited) ∧
      visited.Sublist rows ∧ (visited.map (·.groupKey)).Nodup ∧
      ∀ row ∈ rows, ∃ first ∈ visited, first.groupKey = row.groupKey ∧ first.key ≤ row.key := by
  refine ⟨rows.length + 1, rows.foldl leader [], ?_, leaders_spec hload.ordered⟩
  rw [reconcileAutomaticEpisodeMappingPages, if_neg (by omega)]
  exact @reconcilePages_from _ _ _ _ hvisit hpage hload _ _ _ [] _ rfl (Nat.lt_succ_self _)
    hload.first (.inl rfl)

/-- Two acquisitions of one group, read in pages of one. -/
def twoCandidates : List MappingCandidate :=
  [⟨1, 4, 2, ⟨some 9, some 1, some 5, some 3⟩⟩, ⟨1, 5, 3, ⟨some 9, some 1, some 5, some 3⟩⟩]

def loadTwo (params : MappingPageParams) : Except Fault (List MappingCandidate) :=
  .ok ((twoCandidates.filter fun row => ∀ k ∈ params.cursor, k < row.key).take
    params.pageSize.toNat)

theorem reconciliation_visits_leaders_two :
    ∃ fuel visited, reconcileAutomaticEpisodeMappingPages loadTwo (fun _ => .ok ()) fuel 1 =
        some (.ok visited) ∧ visited.Sublist twoCandidates ∧ (visited.map (·.groupKey)).Nodup := by
  have hload : KeysetLoader twoCandidates 1 loadTwo := by
    refine ⟨by decide, ?_, rfl, fun row _ => by simp [loadTwo]⟩
    simp [twoCandidates, ReconciliationWindow.complete]
  obtain ⟨fuel, visited, hrun, hsublist, hnodup, -⟩ :=
    reconciliation_visits_leaders twoCandidates 1 Int.one_pos loadTwo hload _ fun _ => rfl
  exact ⟨fuel, visited, hrun, hsublist, hnodup⟩

end EmbyAuto
