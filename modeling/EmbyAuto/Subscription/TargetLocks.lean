import EmbyAuto.Acquisition.Enqueue
import EmbyAuto.Relational.Locks

/-!
# Locks on target episodes

Every transaction that decides about a TMDb episode first takes the advisory lock of that episode.
`lockEpisodeMappingTargets` sorts the targets it is given, so a transaction that calls it once
takes its locks in one order. A poll calls it once for each feed entry that is found in the Emby
library, in the order of the feed, and once more for its import conflicts.

What a transaction reads from the database is given to it here as data, so that every answer the
database may give at the time is covered.

## Main definitions

* `Trace`: the requests of a transaction up to its end or its first error
* `persistPoll`, `scheduleRSSDownloadInTx` and the other transactions that lock targets
* `TargetTransaction.InOrder`: when the two transactions that may lock out of order do not

## Main results

* `no_target_lock_cycle`: then no transactions wait for each other in a cycle
* `poll_and_verification_deadlock`: a poll of a feed with the newest episode first, and the
  real-time verification of another subscription
-/

namespace EmbyAuto

open Relational

/-! ## Real-time checks -/

/-- A row of `rss_target_realtime_checks`. -/
structure RealtimeCheck where
  targetEpisodeID : UUID
  checkID : UUID
  present : Bool
  checkedAt : Timestamp

/-- The checks, and the time of a statement. -/
structure RealtimeChecks where
  now : Timestamp
  rows : List RealtimeCheck

/-- `IsRSSRealtimeTargetCheckAuthoritative`: the target was found present at most 30 seconds ago,
and no later check of it is known. -/
def isRSSRealtimeTargetCheckAuthoritative (targetEpisodeID checkID : UUID)
    (checks : RealtimeChecks) : Bool :=
  checks.rows.any fun current =>
    current.targetEpisodeID = targetEpisodeID && current.checkID = checkID && current.present &&
      checks.now ≤ current.checkedAt + 30 &&
      checks.rows.all fun newer =>
        !(newer.targetEpisodeID = current.targetEpisodeID && newer.checkID ≠ current.checkID &&
          (current.checkedAt < newer.checkedAt ||
            (newer.checkedAt = current.checkedAt && newer.present ≠ current.present)))

/-! ## Traces -/

/-- What a transaction asks for, and its result unless an error ends it. -/
structure Trace (α : Type) where
  requests : List (Request RealtimeChecks UUID)
  result : Option α

namespace Trace

def bind {α β : Type} (x : Trace α) (f : α → Trace β) : Trace β :=
  match x.result with
  | none => ⟨x.requests, none⟩
  | some a => ⟨x.requests ++ (f a).requests, (f a).result⟩

instance : Monad Trace where
  pure a := ⟨[], some a⟩
  bind := bind

/-- The transaction ends with an error. -/
def fail {α : Type} : Trace α := ⟨[], none⟩

/-- An error goes back to a savepoint and gives back what was locked since. -/
def savepoint (x : Trace Unit) : Trace Unit :=
  match x.result with
  | none => ⟨x.requests ++ [.release (locksOf x.requests)], some ()⟩
  | some () => x

end Trace

/-! ## Locking targets -/

/-- The targets without repetition, in the order of their text. -/
def lockOrder (targetEpisodeIDs : List UUID) : List UUID :=
  ((targetEpisodeIDs.filter (· ≠ 0)).dedup).insertionSort fun a b => a.text ≤ b.text

def lockEpisodeMappingTargets (targetEpisodeIDs : List UUID) : Trace Unit :=
  ⟨(lockOrder targetEpisodeIDs).map .lock, some ()⟩

/-- `rssTargetOccupancyRequest` for an entry, with the answers to the queries about it. -/
structure TargetRequest where
  entryID : UUID
  subscriptionID : UUID
  sourceSeason : Int
  sourceEpisode : Int
  realtimeCheckID : UUID := 0
  /-- `GetRSSMappedTargetEpisodeID`, before the lock -/
  mapped : Option UUID
  /-- `loadRSSMappedTargetOccupancyWithRealtimeCheck`, after the lock -/
  occupancy : Option RSSTargetOccupancy
  /-- `IsRSSRealtimeTargetCheckAuthoritative` -/
  authoritative : Bool := true

/-- The target that is to be locked for a request, if any. -/
def TargetRequest.expectedTarget (request : TargetRequest) : Trace UUID :=
  if request.subscriptionID = 0 ∨ request.sourceSeason ≤ 0 ∨ request.sourceEpisode ≤ 0 then pure 0
  else match request.mapped with
    | none => if request.realtimeCheckID ≠ 0 then .fail else pure 0
    | some targetID => pure targetID

def expectedTargets : List TargetRequest → Trace (List UUID)
  | [] => pure []
  | request :: requests => do
    let target ← request.expectedTarget
    let targets ← expectedTargets requests
    return target :: targets

def prepareRSSMappedTargetLocks (requests : List TargetRequest) : Trace (List UUID) := do
  let targets ← expectedTargets requests
  lockEpisodeMappingTargets targets
  return targets

def loadRSSMappedTargetOccupancyAfterLock (request : TargetRequest) (expectedTarget : UUID) :
    Trace RSSTargetOccupancy :=
  match request.occupancy with
  | none => .fail
  | some occupancy =>
    if occupancy.targetEpisodeID ≠ expectedTarget then .fail else pure occupancy

/-- The fulfilment was seen by a real-time check, which must still be the latest. -/
def RSSTargetOccupancy.needsLock (occupancy : RSSTargetOccupancy) : Bool :=
  occupancy.fulfillmentSource = "emby_catalog" && occupancy.realtimeCheckID ≠ 0

def markRSSEntryTargetOccupiedInTx (entryID : UUID) (occupancy : RSSTargetOccupancy)
    (authoritative : Bool) : Trace Unit :=
  if entryID = 0 ∨ occupancy.reason = "" then pure ()
  else if occupancy.needsLock then do
    lockEpisodeMappingTargets [occupancy.targetEpisodeID]
    ⟨[.check fun checks => isRSSRealtimeTargetCheckAuthoritative occupancy.targetEpisodeID
      occupancy.realtimeCheckID checks == authoritative], some ()⟩
    if authoritative then pure () else .fail
  else pure ()

/-- Locks the targets of all requests, then goes through them one by one. -/
def settleRequests (marks : RSSTargetOccupancy → Bool) (requests : List TargetRequest) :
    Trace Unit := do
  let targets ← prepareRSSMappedTargetLocks requests
  (requests.zip targets).forM fun (request, target) => do
    let occupancy ← loadRSSMappedTargetOccupancyAfterLock request target
    if marks occupancy then
      markRSSEntryTargetOccupiedInTx request.entryID occupancy request.authoritative
    else pure ()

/-! ## The transactions -/

/-- What `persistFeedEntry` finds for an item of the feed: no identity, or an entry and the
occupancy of its target. -/
inductive FeedEntry where
  | skipped
  | stored (entryID : UUID) (occupancy : RSSTargetOccupancy) (authoritative : Bool)

def persistFeedEntry : FeedEntry → Trace Unit
  | .skipped => pure ()
  | .stored entryID occupancy authoritative =>
    markRSSEntryTargetOccupiedInTx entryID occupancy authoritative

def reconcileRSSImportConflictsInTx : List TargetRequest → Trace Unit :=
  settleRequests fun occupancy => occupancy.fulfilled

def persistPoll (entries : List FeedEntry) (conflicts : List TargetRequest) : Trace Unit := do
  entries.forM persistFeedEntry
  reconcileRSSImportConflictsInTx conflicts

/-- An entry to schedule; `eligible` when it and its subscription pass the checks that come before
the target. -/
structure ScheduleCandidate where
  eligible : Bool
  request : TargetRequest

def scheduleRSSDownloadInTx (candidate : ScheduleCandidate) (expectedTarget : Option UUID) :
    Trace Unit :=
  if candidate.eligible then
    match expectedTarget with
    | none => settleRequests (fun occupancy => occupancy.reason ≠ "") [candidate.request]
    | some target => do
      let occupancy ← loadRSSMappedTargetOccupancyAfterLock candidate.request target
      if occupancy.reason ≠ "" then
        markRSSEntryTargetOccupiedInTx candidate.request.entryID occupancy
          candidate.request.authoritative
      else pure ()
  else pure ()

/-- What the batch finds for an entry before it locks: it is not eligible, it has no target, or
its target. -/
inductive Preparation where
  | skipped
  | unmapped
  | target (id : UUID)
  deriving DecidableEq

def Preparation.target? : Preparation → Option UUID
  | target id => some id
  | _ => none

structure BatchCandidate extends ScheduleCandidate where
  preparation : Preparation

def scheduleBatchCandidate (candidate : BatchCandidate) : Trace Unit :=
  match candidate.preparation with
  | .unmapped => pure ()
  | .skipped => (scheduleRSSDownloadInTx candidate.toScheduleCandidate none).savepoint
  | .target id => (scheduleRSSDownloadInTx candidate.toScheduleCandidate (some id)).savepoint

def scheduleRSSDownloadsWithRealtimeCheck (candidates : List BatchCandidate) : Trace Unit := do
  lockEpisodeMappingTargets (candidates.filterMap (·.preparation.target?))
  candidates.forM scheduleBatchCandidate

/-- The transactions that lock targets. -/
inductive TargetTransaction where
  | persistPoll (entries : List FeedEntry) (conflicts : List TargetRequest)
  | scheduleDownload (candidate : ScheduleCandidate)
  | scheduleDownloads (candidates : List BatchCandidate)
  /-- `RSSRealtimeEmbyVerifier.verify` -/
  | verify (targets : List UUID)
  /-- `saveEpisodeMapping` in the explicit mode -/
  | saveExplicitMapping (targets : List UUID)
  | applyAdjudication (selected : List TargetRequest)
  | applyCoordinate (request : TargetRequest)
  /-- `lockWorkflowForRetry` -/
  | retryWorkflow (targets : List UUID)
  /-- a search result for one mapped episode -/
  | acquireSearchResult (target : UUID)

def TargetTransaction.trace : TargetTransaction → Trace Unit
  | persistPoll entries conflicts => EmbyAuto.persistPoll entries conflicts
  | scheduleDownload candidate => scheduleRSSDownloadInTx candidate none
  | scheduleDownloads candidates => scheduleRSSDownloadsWithRealtimeCheck candidates
  | verify targets | saveExplicitMapping targets | retryWorkflow targets =>
    lockEpisodeMappingTargets targets
  | applyAdjudication selected => settleRequests (fun occupancy => occupancy.reason ≠ "") selected
  | applyCoordinate request => settleRequests (fun occupancy => occupancy.reason ≠ "") [request]
  | acquireSearchResult target => lockEpisodeMappingTargets [target]

/-- The key of the advisory lock, by PostgreSQL's `hashtextextended`. -/
def targetLockKey (hash : String → Int) (targetEpisodeID : UUID) : Int :=
  hash ("rss-target:" ++ targetEpisodeID.text)

/-! ## Transactions in order -/

/-- The target that a feed entry makes its poll lock. -/
def FeedEntry.lockedTarget : FeedEntry → List UUID
  | skipped => []
  | stored entryID occupancy _ =>
    if entryID ≠ 0 ∧ occupancy.reason ≠ "" ∧ occupancy.needsLock then
      lockOrder [occupancy.targetEpisodeID]
    else []

/-- The mapped target of a request, or none. -/
def TargetRequest.target (request : TargetRequest) : UUID :=
  if request.subscriptionID = 0 ∨ request.sourceSeason ≤ 0 ∨ request.sourceEpisode ≤ 0 then 0
  else request.mapped.getD 0

/-- A poll finds the targets it has to lock in the order of their text: first those of its feed,
then those of its import conflicts. A batch finds no entry eligible that was not when it prepared
its locks. The other transactions lock once. -/
def TargetTransaction.InOrder : TargetTransaction → Prop
  | persistPoll entries conflicts => Ascending UUID.text []
      ((entries.flatMap FeedEntry.lockedTarget ++
        lockOrder (conflicts.map TargetRequest.target)).map
        Request.lock : List (Request RealtimeChecks UUID))
  | scheduleDownloads candidates =>
    ∀ c ∈ candidates, c.preparation = .skipped → c.eligible = false
  | _ => True

section Order

variable {held T : List UUID}

instance : Std.Total fun a b : UUID => a.text ≤ b.text := ⟨fun _ _ => le_total _ _⟩

instance : IsTrans UUID fun a b => a.text ≤ b.text := ⟨fun _ _ _ => le_trans⟩

theorem mem_lockOrder {ids : List UUID} {a : UUID} : a ∈ lockOrder ids ↔ a ∈ ids ∧ a ≠ 0 := by
  simp [lockOrder]

theorem lockOrder_pairwise (ids : List UUID) :
    (lockOrder ids).Pairwise fun a b => a.text < b.text := by
  have hsorted := List.pairwise_insertionSort (fun a b : UUID => a.text ≤ b.text)
    (ids.filter (· ≠ 0)).dedup
  have hnodup : (lockOrder ids).Nodup :=
    (List.perm_insertionSort _ _).nodup_iff.mpr (List.nodup_dedup _)
  refine (hsorted.and hnodup).imp fun ⟨hle, hne⟩ => ?_
  exact lt_of_le_of_ne hle fun h => hne (UUID.text_injective h)

/-- One call of `lockEpisodeMappingTargets` is in order. -/
theorem ascending_lockOrder (ids : List UUID) :
    Ascending UUID.text [] (lockEpisodeMappingTargets ids).requests :=
  ascending_locks (lockOrder_pairwise ids) nofun

/-! ### Repeats -/

/-- Where all of `T` is held, the transaction asks for nothing out of order and keeps all of `T`. -/
def Trace.Repeats {α : Type} (T : List UUID) (x : Trace α) : Prop :=
  ∀ held, (∀ a ∈ T, a ∈ held) → Ascending UUID.text held x.requests ∧
    ∀ a ∈ T, a ∈ heldAfter held x.requests

theorem Trace.repeats_nil {α : Type} {result : Option α} : Trace.Repeats T ⟨[], result⟩ :=
  fun _ h => ⟨trivial, h⟩

theorem Trace.Repeats.bind {α β : Type} {x : Trace α} {f : α → Trace β} (hx : x.Repeats T)
    (hf : ∀ a, x.result = some a → (f a).Repeats T) : Trace.Repeats T (x >>= f) := by
  intro held hheld
  obtain ⟨hasc, hafter⟩ := hx held hheld
  show Ascending _ _ (x.bind f).requests ∧ ∀ a ∈ T, a ∈ heldAfter held (x.bind f).requests
  cases hresult : x.result with
  | none =>
    rw [Trace.bind, hresult]
    exact ⟨hasc, hafter⟩
  | some a =>
    rw [Trace.bind, hresult]
    obtain ⟨hasc', hafter'⟩ := hf a hresult _ hafter
    exact ⟨ascending_append.mpr ⟨hasc, hasc'⟩, by rwa [heldAfter_append]⟩

theorem Trace.Repeats.forM {β : Type} {l : List β} {f}
    (h : ∀ b ∈ l, (f b).Repeats T) : Trace.Repeats T (l.forM f) := by
  induction l with
  | nil => exact Trace.repeats_nil
  | cons b l ih =>
    obtain ⟨hb, hl⟩ := List.forall_mem_cons.mp h
    exact hb.bind fun _ _ => ih hl

/-- A mark locks its target again. -/
theorem repeats_mark {entryID : UUID} {occupancy} {authoritative : Bool}
    (h : occupancy.targetEpisodeID ≠ 0 → occupancy.targetEpisodeID ∈ T) :
    (markRSSEntryTargetOccupiedInTx entryID occupancy authoritative).Repeats T := by
  unfold markRSSEntryTargetOccupiedInTx
  split
  · exact Trace.repeats_nil
  split
  · refine Trace.Repeats.bind (fun held hheld => ?_) fun _ _ => ?_
    · by_cases hzero : occupancy.targetEpisodeID = 0
      · rw [hzero]
        exact ⟨trivial, hheld⟩
      · have hlock : lockOrder [occupancy.targetEpisodeID] = [occupancy.targetEpisodeID] := by
          simp [lockOrder, hzero]
        simp only [lockEpisodeMappingTargets, hlock]
        exact ⟨⟨.inl (hheld _ (h hzero)), trivial⟩,
          fun a ha => List.mem_cons_of_mem _ (hheld a ha)⟩
    · refine Trace.Repeats.bind (fun held hheld => ⟨trivial, hheld⟩) fun _ _ => ?_
      split <;> exact Trace.repeats_nil
  · exact Trace.repeats_nil

theorem repeats_load {request} {target : UUID} :
    (loadRSSMappedTargetOccupancyAfterLock request target).Repeats T := by
  unfold loadRSSMappedTargetOccupancyAfterLock
  split
  · exact Trace.repeats_nil
  · split <;> exact Trace.repeats_nil

theorem loaded_target {request} {target : UUID} {occupancy}
    (h : (loadRSSMappedTargetOccupancyAfterLock request target).result = some occupancy) :
    occupancy.targetEpisodeID = target := by
  unfold loadRSSMappedTargetOccupancyAfterLock at h
  split at h
  · cases h
  · split at h
    · cases h
    · next hne =>
      cases h
      exact not_not.mp hne

/-! ### The targets of several requests -/

theorem expectedTargets_requests (requests : List TargetRequest) :
    (expectedTargets requests).requests = [] ∧ ∀ targets,
      (expectedTargets requests).result = some targets →
        targets = requests.map TargetRequest.target := by
  have one (request : TargetRequest) : request.expectedTarget.requests = [] ∧
      ∀ target, request.expectedTarget.result = some target → target = request.target := by
    unfold TargetRequest.expectedTarget TargetRequest.target
    split
    · exact ⟨rfl, fun _ h => (Option.some.inj h).symm⟩
    · cases request.mapped with
      | none =>
        dsimp only
        split
        · exact ⟨rfl, nofun⟩
        · exact ⟨rfl, fun _ h => (Option.some.inj h).symm⟩
      | some id => exact ⟨rfl, fun _ h => (Option.some.inj h).symm⟩
  -- the loop stops at the first target that cannot be resolved, before any lock
  induction requests with
  | nil => exact ⟨rfl, fun _ h => (Option.some.inj h).symm⟩
  | cons request requests ih =>
    obtain ⟨hnone, htarget⟩ := one request
    obtain ⟨hrest, htargets⟩ := ih
    change (request.expectedTarget.bind fun target => (expectedTargets requests).bind
      fun targets => ⟨[], some (target :: targets)⟩).requests = [] ∧ ∀ targets,
      (request.expectedTarget.bind fun target => (expectedTargets requests).bind
        fun targets => ⟨[], some (target :: targets)⟩).result = some targets → _
    cases hone : request.expectedTarget.result with
    | none =>
      simp only [Trace.bind, hone]
      exact ⟨hnone, nofun⟩
    | some target =>
      cases hmore : (expectedTargets requests).result with
      | none =>
        simp only [Trace.bind, hone, hmore, hnone, hrest]
        exact ⟨rfl, nofun⟩
      | some targets =>
        simp only [Trace.bind, hone, hmore, hnone, hrest]
        refine ⟨rfl, fun _ h => ?_⟩
        cases h
        rw [List.map_cons, htarget target hone, htargets targets hmore]

/-- The targets are locked in one call, and every mark repeats one of them. -/
theorem ascending_settleRequests {marks}
    (requests : List TargetRequest)
    (h : Ascending UUID.text held ((lockOrder (requests.map TargetRequest.target)).map
      Request.lock : List (Request RealtimeChecks UUID))) :
    Ascending UUID.text held (settleRequests marks requests).requests := by
  obtain ⟨hnone, htargets⟩ := expectedTargets_requests requests
  change Ascending _ _ (Trace.bind (Trace.bind (expectedTargets requests) _) _).requests
  cases hresult : (expectedTargets requests).result with
  | none =>
    simp only [Trace.bind, hresult, hnone]
    trivial
  | some targets =>
    obtain rfl := htargets targets hresult
    simp only [Trace.bind, hresult, hnone]
    refine ascending_append.mpr ⟨?_, ?_⟩
    · simpa [lockEpisodeMappingTargets, bind, Trace.bind, pure] using h
    -- from here on, every target is held
    set targets := requests.map TargetRequest.target
    refine (Trace.Repeats.forM (T := lockOrder targets) ?_ _ ?_).1
    · rintro ⟨request, target⟩ hmem
      refine Trace.Repeats.bind repeats_load fun occupancy hload => ?_
      split
      · refine repeats_mark fun hne => mem_lockOrder.mpr ⟨?_, hne⟩
        rw [loaded_target hload]
        exact (List.of_mem_zip hmem).2
      · exact Trace.repeats_nil
    · intro a ha
      simp only [List.nil_append, lockEpisodeMappingTargets, bind, Trace.bind, pure,
        List.append_nil, heldAfter_locks]
      exact List.mem_append_left _ (List.mem_reverse.mpr ha)

/-! ### Polls -/

/-- A feed entry locks at most its target; a check may follow. -/
theorem persistFeedEntry_requests (entry : FeedEntry) :
    (persistFeedEntry entry).requests = entry.lockedTarget.map .lock ∨
      ∃ g, (persistFeedEntry entry).requests = entry.lockedTarget.map .lock ++ [.check g] := by
  cases entry with
  | skipped => exact .inl rfl
  | stored entryID occupancy authoritative =>
    simp only [persistFeedEntry, markRSSEntryTargetOccupiedInTx, FeedEntry.lockedTarget]
    by_cases hnone : entryID = 0 ∨ occupancy.reason = ""
    · rw [if_pos hnone, if_neg fun h => hnone.elim h.1 h.2.1]
      exact .inl rfl
    rw [if_neg hnone]
    obtain ⟨hid, hreason⟩ := not_or.mp hnone
    by_cases hneeds : occupancy.needsLock = true
    · rw [if_pos hneeds, if_pos (And.intro hid ⟨hreason, hneeds⟩)]
      cases authoritative <;> exact .inr ⟨_, rfl⟩
    · rw [if_neg hneeds, if_neg fun h => hneeds h.2.2]
      exact .inl rfl

theorem ascending_persistFeedEntries (entries : List FeedEntry) {rest : List UUID} : ∀ held,
    Ascending UUID.text held ((entries.flatMap FeedEntry.lockedTarget ++ rest).map Request.lock :
      List (Request RealtimeChecks UUID)) →
    Ascending UUID.text held (entries.forM persistFeedEntry).requests ∧
      ((entries.forM persistFeedEntry).result = some () →
        Ascending UUID.text (heldAfter held (entries.forM persistFeedEntry).requests)
          (rest.map Request.lock : List (Request RealtimeChecks UUID))) := by
  induction entries with
  | nil => exact fun held h => ⟨trivial, fun _ => h⟩
  | cons entry entries ih =>
    intro held h
    rw [List.flatMap_cons, List.append_assoc, List.map_append, ascending_append] at h
    -- the requests of the entry are its lock, whatever check follows
    have hentry : Ascending UUID.text held (persistFeedEntry entry).requests ∧
        heldAfter held (persistFeedEntry entry).requests =
          heldAfter held (entry.lockedTarget.map Request.lock :
            List (Request RealtimeChecks UUID)) := by
      rcases persistFeedEntry_requests entry with heq | ⟨g, heq⟩
      · rw [heq]
        exact ⟨h.1, rfl⟩
      · rw [heq, heldAfter_append]
        exact ⟨ascending_append.mpr ⟨h.1, trivial⟩, rfl⟩
    obtain ⟨hasc, hheld⟩ := hentry
    change Ascending _ _ (Trace.bind (persistFeedEntry entry) _).requests ∧
      ((Trace.bind (persistFeedEntry entry) _).result = some () →
        Ascending _ (heldAfter _ (Trace.bind (persistFeedEntry entry) _).requests) _)
    cases hresult : (persistFeedEntry entry).result with
    | none =>
      simp only [Trace.bind, hresult]
      exact ⟨hasc, by rintro ⟨⟩⟩
    | some u =>
      simp only [Trace.bind, hresult]
      obtain ⟨hrest, hdone⟩ := ih _ h.2
      rw [← hheld] at hrest hdone
      refine ⟨ascending_append.mpr ⟨hasc, hrest⟩, fun hsome => ?_⟩
      rw [heldAfter_append]
      exact hdone hsome

theorem ascending_persistPoll {entries conflicts}
    (h : (TargetTransaction.persistPoll entries conflicts).InOrder) :
    Ascending UUID.text [] (persistPoll entries conflicts).requests := by
  obtain ⟨hentries, hrest⟩ := ascending_persistFeedEntries entries [] h
  change Ascending _ _ (Trace.bind (entries.forM persistFeedEntry) _).requests
  cases hresult : (entries.forM persistFeedEntry).result with
  | none =>
    simp only [Trace.bind, hresult]
    exact hentries
  | some u =>
    simp only [Trace.bind, hresult]
    exact ascending_append.mpr ⟨hentries, ascending_settleRequests conflicts (hrest hresult)⟩

/-! ### Batches -/

theorem Trace.Repeats.savepoint {x : Trace Unit} (hx : x.Repeats T)
    (hlocks : ∀ l, Request.release l ∉ x.requests) : x.savepoint.Repeats T := by
  intro held hheld
  obtain ⟨hasc, hafter⟩ := hx held hheld
  unfold Trace.savepoint
  split
  · refine ⟨ascending_append.mpr ⟨hasc, trivial⟩, fun a ha => ?_⟩
    rw [heldAfter_append]
    exact mem_heldAfter_release hlocks (hheld a ha)
  · exact ⟨hasc, hafter⟩

theorem scheduleLocked_requests {candidate} {target : UUID} (l : List UUID) :
    Request.release l ∉ (scheduleRSSDownloadInTx candidate (some target)).requests := by
  unfold scheduleRSSDownloadInTx
  split
  · change _ ∉ (Trace.bind (loadRSSMappedTargetOccupancyAfterLock candidate.request target)
      _).requests
    unfold loadRSSMappedTargetOccupancyAfterLock
    cases candidate.request.occupancy with
    | none => exact List.not_mem_nil
    | some occupancy =>
      dsimp only
      split
      · exact List.not_mem_nil
      · simp only [Trace.bind, pure]
        split
        · have hmark := persistFeedEntry_requests
            (.stored candidate.request.entryID occupancy candidate.request.authoritative)
          rcases hmark with heq | ⟨g, heq⟩ <;> rw [persistFeedEntry] at heq <;> simp [heq]
        · exact List.not_mem_nil
  · exact List.not_mem_nil

theorem repeats_scheduleBatchCandidate {candidate}
    (hskipped : candidate.preparation = .skipped → candidate.eligible = false)
    (htarget : ∀ id, candidate.preparation = .target id → id ≠ 0 → id ∈ T) :
    (scheduleBatchCandidate candidate).Repeats T := by
  unfold scheduleBatchCandidate
  cases hpreparation : candidate.preparation with
  | unmapped => exact Trace.repeats_nil
  | skipped =>
    simp only [scheduleRSSDownloadInTx, hskipped hpreparation]
    exact Trace.repeats_nil
  | target id =>
    refine Trace.Repeats.savepoint ?_ fun l => scheduleLocked_requests l
    unfold scheduleRSSDownloadInTx
    split
    · refine Trace.Repeats.bind repeats_load fun occupancy hload => ?_
      split
      · refine repeats_mark fun hne => ?_
        rw [loaded_target hload] at hne ⊢
        exact htarget id hpreparation hne
      · exact Trace.repeats_nil
    · exact Trace.repeats_nil

theorem ascending_scheduleDownloads {candidates}
    (h : (TargetTransaction.scheduleDownloads candidates).InOrder) :
    Ascending UUID.text [] (scheduleRSSDownloadsWithRealtimeCheck candidates).requests := by
  refine ascending_append.mpr ⟨ascending_lockOrder _, ?_⟩
  set targets := candidates.filterMap (·.preparation.target?)
  refine (Trace.Repeats.forM (T := lockOrder targets) (fun c hc => ?_) _ fun a ha => ?_).1
  · refine repeats_scheduleBatchCandidate (h c hc) fun id hid hne => mem_lockOrder.mpr ⟨?_, hne⟩
    exact List.mem_filterMap.mpr ⟨c, hc, by rw [hid]; rfl⟩
  · rw [lockEpisodeMappingTargets, heldAfter_locks]
    exact List.mem_append_left _ (List.mem_reverse.mpr ha)

/-! ### All transactions -/

theorem TargetTransaction.ascending (tx : TargetTransaction) (h : tx.InOrder) :
    Ascending UUID.text [] tx.trace.requests := by
  have settled (requests : List TargetRequest) (marks : RSSTargetOccupancy → Bool) :
      Ascending UUID.text [] (settleRequests marks requests).requests :=
    ascending_settleRequests requests (ascending_lockOrder _)
  cases tx with
  | persistPoll entries conflicts => exact ascending_persistPoll h
  | scheduleDownload candidate =>
    change Ascending _ _ (scheduleRSSDownloadInTx candidate none).requests
    unfold scheduleRSSDownloadInTx
    split
    · exact settled [candidate.request] _
    · trivial
  | scheduleDownloads candidates => exact ascending_scheduleDownloads h
  | verify targets | saveExplicitMapping targets | retryWorkflow targets =>
    exact ascending_lockOrder targets
  | applyAdjudication selected => exact settled selected _
  | applyCoordinate request => exact settled [request] _
  | acquireSearchResult target => exact ascending_lockOrder [target]

end Order

/-- The program of a transaction that `ok` allows, over the given targets. -/
def TargetProgram (ok : TargetTransaction → Prop) (targets : Set UUID)
    (program : List (Request RealtimeChecks UUID)) : Prop :=
  ∃ tx : TargetTransaction, ok tx ∧ program = tx.trace.requests ∧
    ∀ a ∈ locksOf program, a ∈ targets

/-- **No cycle of waits.** Any number of transactions run side by side, each with the targets it
finds. If their keys tell the targets apart and each transaction finds its targets in order, no
set of transactions waits in a cycle. -/
theorem no_target_lock_cycle {hash : String → Int} {targets : Set UUID}
    {s₀ s : LockState RealtimeChecks UUID Nat}
    (separates : Set.InjOn (targetLockKey hash) targets) (idle : s₀.Idle)
    (run : Relation.ReflTransGen (LockStep (targetLockKey hash)
      (TargetProgram TargetTransaction.InOrder targets)) s₀ s) (i : Nat) :
    ¬ Relation.TransGen (s.Waits (targetLockKey hash)) i i := by
  have orderly : Orderly (targetLockKey hash) UUID.text targets s := by
    refine invariant_of_step (fun s s' step h => h.step ?_ step) run (.of_idle idle)
    rintro program ⟨tx, hok, rfl, hlocks⟩
    exact ⟨tx.ascending hok, hlocks⟩
  exact no_wait_cycle orderly separates i

/-! ## A poll beside a verification -/

def textHash (text : String) : Int := text.toList.foldl (fun n c => 31 * n + c.toNat) 7

/-- The targets 1 and 2 have just been found in the library. -/
def checkedTargets : LockState RealtimeChecks UUID Nat where
  store := ⟨100, [⟨1, 9, true, 95⟩, ⟨2, 9, true, 95⟩]⟩
  held _ := []
  pending _ := []

def inLibrary (targetEpisodeID : UUID) : RSSTargetOccupancy where
  reason := "target_episode_in_library"
  fulfilled := true
  targetEpisodeID
  fulfillmentSource := "emby_catalog"
  realtimeCheckID := 9

/-- A poll of a feed with two entries whose targets are in the library. -/
def feedOf (first second : UUID) : TargetTransaction :=
  .persistPoll [.stored 21 (inLibrary first) true, .stored 22 (inLibrary second) true] []

/-- The check of a mark. -/
def stillPresent (targetEpisodeID : UUID) : Request RealtimeChecks UUID :=
  .check fun checks => isRSSRealtimeTargetCheckAuthoritative targetEpisodeID 9 checks == true

theorem feedOf_requests : (feedOf 1 2).trace.requests =
      [.lock 1, stillPresent 1, .lock 2, stillPresent 2] ∧
    (feedOf 2 1).trace.requests = [.lock 2, stillPresent 2, .lock 1, stillPresent 1] :=
  ⟨rfl, rfl⟩

theorem feedOf_inOrder : (feedOf 1 2).InOrder :=
  ⟨.inr nofun, .inr (by decide), trivial⟩

theorem textHash_separates : Set.InjOn (targetLockKey textHash) {1, 2} := by
  have hne : targetLockKey textHash 1 ≠ targetLockKey textHash 2 := by decide +kernel
  rintro a (rfl | rfl) b (rfl | rfl) h
  · rfl
  · exact absurd h hne
  · exact absurd h.symm hne
  · rfl

/-- Both transactions have begun: the poll of the feed, and the verification of both targets for
another subscription. -/
def bothBegun (poll : List (Request RealtimeChecks UUID)) : LockState RealtimeChecks UUID Nat :=
  { checkedTargets with
    pending := Function.update (Function.update checkedTargets.pending 0 poll) 1
      [.lock 1, .lock 2] }

theorem both_begin (ok : TargetTransaction → Prop) (tx : TargetTransaction) (hpoll : ok tx)
    (hverify : ok (.verify [1, 2]))
    (hlocks : ∀ a ∈ locksOf tx.trace.requests, a ∈ ({1, 2} : Set UUID)) :
    Relation.ReflTransGen (LockStep (targetLockKey textHash) (TargetProgram ok {1, 2}))
      checkedTargets (bothBegun tx.trace.requests) := by
  refine .tail (.single (.start 0 tx.trace.requests ⟨rfl, rfl⟩ ⟨tx, hpoll, rfl, hlocks⟩)) ?_
  refine .start 1 [.lock 1, .lock 2] ⟨rfl, rfl⟩ ⟨.verify [1, 2], hverify, rfl, ?_⟩
  simp [locksOf]

/-- With the targets in order, neither waits for itself. -/
theorem no_target_lock_cycle_ordered :
    ¬ Relation.TransGen ((bothBegun (feedOf 1 2).trace.requests).Waits
      (targetLockKey textHash)) 0 0 := by
  refine no_target_lock_cycle textHash_separates (fun _ => ⟨rfl, rfl⟩)
    (both_begin _ _ feedOf_inOrder trivial fun a ha => ?_) 0
  rw [feedOf_requests.1] at ha
  simpa [locksOf, stillPresent] using ha

/-- **Deadlock.** A feed that lists the later episode first makes its poll lock the targets against
the order in which every other transaction locks them: the poll holds 2 and asks for 1, and the
verification holds 1 and asks for 2. -/
theorem poll_and_verification_deadlock :
    Set.InjOn (targetLockKey textHash) {1, 2} ∧ checkedTargets.Idle ∧
    ∃ s, Relation.ReflTransGen (LockStep (targetLockKey textHash)
        (TargetProgram (fun _ => True) {1, 2})) checkedTargets s ∧
      Relation.TransGen (s.Waits (targetLockKey textHash)) 0 0 := by
  refine ⟨textHash_separates, fun _ => ⟨rfl, rfl⟩, ?_⟩
  have begun := both_begin (fun _ => True) (feedOf 2 1) trivial trivial (by
    intro a ha
    rw [feedOf_requests.2] at ha
    simpa [locksOf, stillPresent, or_comm] using ha)
  -- the poll marks target 2
  have locked := begun.tail (.acquire 0 2 [stillPresent 2, .lock 1, stillPresent 1] rfl (by
    intro j _ b hb
    cases hb))
  have marked := locked.tail (.pass 0 _ [.lock 1, stillPresent 1] rfl (by decide +kernel))
  -- the verification takes target 1
  have verifying := marked.tail (.acquire 1 1 [.lock 2] rfl (by
    intro j _ b hb
    by_cases hj : j = 0
    · subst hj
      cases List.mem_singleton.mp hb
      decide +kernel
    · dsimp only at hb
      rw [Function.update_of_ne hj] at hb
      cases hb))
  refine ⟨_, verifying, .tail (b := 1) (.single ?_) ?_⟩
  · exact ⟨by decide, 1, [stillPresent 1], rfl, 1, List.mem_cons_self, rfl⟩
  · exact ⟨by decide, 2, [], rfl, 2, List.mem_cons_self, rfl⟩

end EmbyAuto
