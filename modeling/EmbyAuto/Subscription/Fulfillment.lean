import EmbyAuto.Store.Value

/-!
# Fulfilments of a target

A row of `rss_target_fulfillments` says that Emby had an episode when it was last looked for. Looks
are recorded in any order; each carries the time at which Emby was asked. The row is a register of
two timestamps: the last presence it took note of, and the absence by which it is invalid.

## Main definitions

* `refreshFulfillment`, `upsertFulfillment`: the two statements, on one row
* `Observation.apply`: an observation that is recorded

## Main results

* `fulfillment_valid_iff`: the row is valid exactly when the latest observation is a presence
-/

namespace EmbyAuto

inductive FulfillmentSource where
  | embyCatalog | managedImport
  deriving DecidableEq

structure RSSTargetFulfillment where
  source : FulfillmentSource
  verifiedAt : Timestamp
  invalidatedAt : Option Timestamp := none
  deriving DecidableEq

/-- `invalidated_at IS NULL OR invalidated_at <= at`. -/
def RSSTargetFulfillment.yields (row : RSSTargetFulfillment) (time : Timestamp) : Bool :=
  row.invalidatedAt.all (· ≤ time)

/-- `RefreshRSSEmbyCatalogFulfillmentsForRealtimeTarget`, on a row of the target. -/
def refreshFulfillment (present : Bool) (checkedAt : Timestamp) (row : RSSTargetFulfillment) :
    RSSTargetFulfillment :=
  if row.source ≠ .embyCatalog then row
  else
    { row with
      verifiedAt :=
        if present && row.yields checkedAt then max row.verifiedAt checkedAt else row.verifiedAt
      invalidatedAt :=
        if present && row.yields checkedAt then none
        else if !present && row.verifiedAt ≤ checkedAt then
          some (max (row.invalidatedAt.getD checkedAt) checkedAt)
        else row.invalidatedAt }

/-- The `ON CONFLICT` of `MarkRSSEntryTargetOccupied`. -/
def upsertFulfillment (verifiedAt : Timestamp) (row : RSSTargetFulfillment) :
    RSSTargetFulfillment :=
  { row with
    verifiedAt := max row.verifiedAt verifiedAt
    invalidatedAt := if row.yields verifiedAt then none else row.invalidatedAt }

/-- A look at Emby that is recorded, with its time. -/
inductive Observation where
  | realtime (present : Bool) (time : Timestamp)
  | upsert (time : Timestamp)
  deriving DecidableEq

namespace Observation

def time : Observation → Timestamp
  | realtime _ time | upsert time => time

def present : Observation → Bool
  | realtime present _ => present
  | upsert _ => true

def apply (row : RSSTargetFulfillment) : Observation → RSSTargetFulfillment
  | realtime present time => refreshFulfillment present time row
  | upsert time => upsertFulfillment time row

end Observation

/-- What a row knows of the observations so far. The latest one decides: a valid row has the time
of that presence, and an invalid one the time of that absence, later than the presence it has. -/
def Registers (row : RSSTargetFulfillment) (seen : List Observation) : Prop :=
  ∃ latest ∈ seen, (∀ o ∈ seen, o.time ≤ latest.time) ∧
    if latest.present then row.invalidatedAt = none ∧ row.verifiedAt = latest.time
    else row.invalidatedAt = some latest.time ∧ row.verifiedAt < latest.time

theorem Observation.source_apply (o : Observation) (row : RSSTargetFulfillment) :
    (o.apply row).source = row.source := by
  cases o with
  | realtime present time =>
    simp only [apply, refreshFulfillment]
    split <;> rfl
  | upsert time => rfl

theorem Registers.apply {row seen} (h : Registers row seen) (hsource : row.source = .embyCatalog)
    {o : Observation} (hnew : ∀ o' ∈ seen, o.time ≠ o'.time) :
    Registers (o.apply row) (o :: seen) := by
  obtain ⟨latest, hmem, hlast, hrow⟩ := h
  rcases Nat.lt_or_gt_of_ne (hnew latest hmem) with hstale | hlater
  · -- A stale observation leaves the row as valid as it was.
    refine ⟨latest, .tail _ hmem, List.forall_mem_cons.mpr ⟨Nat.le_of_lt hstale, hlast⟩, ?_⟩
    cases o with
    | realtime present time =>
      grind [Observation.apply, refreshFulfillment, RSSTargetFulfillment.yields, Observation.time]
    | upsert time =>
      grind [Observation.apply, upsertFulfillment, RSSTargetFulfillment.yields, Observation.time]
  · refine ⟨o, .head _, List.forall_mem_cons.mpr ⟨Nat.le_refl _, fun o' ho' =>
      Nat.le_trans (hlast o' ho') (Nat.le_of_lt hlater)⟩, ?_⟩
    cases o with
    | realtime present time =>
      grind [Observation.apply, refreshFulfillment, RSSTargetFulfillment.yields, Observation.time,
        Observation.present]
    | upsert time =>
      grind [Observation.apply, upsertFulfillment, RSSTargetFulfillment.yields, Observation.time,
        Observation.present]

/-- A row that a presence at `v0` created, after observations at other times in whatever order. A
managed import stays valid; a row of the Emby catalog is valid exactly when the latest observation,
the first presence included, is a presence. -/
theorem fulfillment_valid_iff (source : FulfillmentSource) (v0 : Timestamp)
    (observations : List Observation) (hdistinct : (v0 :: observations.map (·.time)).Nodup) :
    (observations.foldl Observation.apply ⟨source, v0, none⟩).invalidatedAt = none ↔
      source = .managedImport ∨
      ∃ latest ∈ Observation.upsert v0 :: observations, latest.present = true ∧
        ∀ o ∈ Observation.upsert v0 :: observations, o.time ≤ latest.time := by
  cases source with
  | managedImport =>
    refine iff_of_true ?_ (.inl rfl)
    refine (List.foldlRecOn observations Observation.apply
      (motive := fun row => row.source = .managedImport ∧ row.invalidatedAt = none) ?_ ?_).2
    · exact ⟨rfl, rfl⟩
    · rintro row h o -
      refine ⟨(o.source_apply row).trans h.1, ?_⟩
      cases o with
      | realtime present time => simp [Observation.apply, refreshFulfillment, h]
      | upsert time =>
        simp [Observation.apply, upsertFulfillment, h]
  | embyCatalog =>
  rw [or_iff_right FulfillmentSource.noConfusion]
  -- The run keeps `Registers`, and the source of the row.
  have hrun : ∀ (rest seen : List Observation) (row : RSSTargetFulfillment), Registers row seen →
      row.source = .embyCatalog → (rest.map (·.time)).Nodup →
      (∀ o ∈ rest, ∀ o' ∈ seen, o.time ≠ o'.time) →
      Registers (rest.foldl Observation.apply row) (rest.reverse ++ seen) := by
    intro rest
    induction rest with
    | nil => exact fun seen row h _ _ _ => h
    | cons o rest ih =>
      intro seen row h hsource hnodup hnew
      rw [List.map_cons, List.nodup_cons] at hnodup
      rw [List.foldl_cons, List.reverse_cons, List.append_assoc]
      refine ih (o :: seen) (o.apply row) (h.apply hsource (hnew o List.mem_cons_self))
        (o.source_apply row ▸ hsource) hnodup.2 fun o' ho' => List.forall_mem_cons.mpr ⟨?_, ?_⟩
      · intro hsame
        exact hnodup.1 (hsame ▸ List.mem_map_of_mem ho')
      · exact hnew o' (List.mem_cons_of_mem _ ho')
  have hinj : ∀ o ∈ Observation.upsert v0 :: observations,
      ∀ o' ∈ Observation.upsert v0 :: observations, o.time = o'.time → o = o' :=
    List.inj_on_of_nodup_map hdistinct
  rw [List.nodup_cons] at hdistinct
  have hstart : Registers ⟨.embyCatalog, v0, none⟩ [.upsert v0] :=
    ⟨_, List.mem_singleton_self _, by simp, rfl, rfl⟩
  obtain ⟨latest, hmem, hlast, hrow⟩ := hrun observations _ _ hstart rfl hdistinct.2
    fun o ho o' ho' hsame => hdistinct.1 <|
      List.mem_map.mpr ⟨o, ho, hsame.trans (congrArg _ (List.mem_singleton.mp ho'))⟩
  have hall : ∀ o, o ∈ Observation.upsert v0 :: observations ↔
      o ∈ observations.reverse ++ [.upsert v0] := fun o => by
    simp [or_comm]
  simp only [hall] at hinj ⊢
  constructor
  · intro hvalid
    refine ⟨latest, hmem, ?_, hlast⟩
    grind
  · -- A presence that is as late as the latest observation has its time, so it is that observation.
    rintro ⟨o, ho, hpresent, hmax⟩
    have hsame : o = latest :=
      hinj o ho latest hmem (Nat.le_antisymm (hlast o ho) (hmax latest hmem))
    grind

/-- The absence at 3 is recorded before the presences at 2 and 4. -/
theorem fulfillment_valid_iff_out_of_order :
    ([.realtime false 3, .realtime true 2, .upsert 4].foldl Observation.apply
      ⟨.embyCatalog, 1, none⟩).invalidatedAt = none :=
  (fulfillment_valid_iff .embyCatalog 1 [.realtime false 3, .realtime true 2, .upsert 4]
    (by decide)).mpr (.inr ⟨.upsert 4, by decide, rfl, by decide⟩)

end EmbyAuto
