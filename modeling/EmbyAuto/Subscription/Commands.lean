import EmbyAuto.Catalog.Materialization

/-!
# RSS subscriptions

A subscription is polled by one continuous `rss.poll` operation, which snoozes between two polls.
The commands that change a subscription raise its version and schedule the poll of the new
version in the same transaction. Two reconcilers bring back polls that have ended:
`ReconcileDuePolls` and `ReconcilePreAcquisitionMappingPolls`.

## Main definitions

* `createSubscription`, `updateSubscription`, `applyMappingProfile`: the commands
* `listDueRSSPollRecoveryCandidates`, `listRSSPreAcquisitionMappingRecoveryCandidates`: what the
  reconcilers list
-/

namespace EmbyAuto

open Relational Database Resources

namespace Resources

def rssSubscriptionsSlot : Slot Resources rssSubscriptionSchema where
  table := rssSubscriptions
  put r t := { r with rssSubscriptions := t }
  put_table := Eq.refl

end Resources

/-! ## Scheduling polls -/

/-- A continuous poll, under one of several keys. -/
def continuousPollRequest (subscriptionID : UUID) (version : Nat) (key : String) :
    ScheduleOperationRequest where
  kind := .rssPoll
  resource := some (.rssSubscription, subscriptionID)
  idempotencyKey := key
  maxAttempts := 5
  timeout := 30 * Duration.second
  payload := [("continuous", .bool true), ("subscriptionVersion", .number version)]

def continuousPollKey (subscriptionID : UUID) (version : Nat) : String :=
  "rss.poll:" ++ subscriptionID.text ++ ":v" ++ toString version ++ ":continuous"

def scheduleContinuousPoll (new : NewOperation) (subscriptionID : UUID) (version : Nat) :
    DatabaseTx Unit := do
  let _ ← context "schedule continuous RSS poll" (scheduleInTx new
    (continuousPollRequest subscriptionID version (continuousPollKey subscriptionID version)))

/-! ## The commands on subscriptions -/

/-- The identifiers that a command draws. -/
structure NewPollCommand where
  sync : NewOperation
  poll : NewOperation
  materialization : UUID → NewOperation
  review : UUID → NewOperation

/-- The synchronisation of the series that a command asks for. -/
def subscriptionSyncRequest (seriesID : UUID) (tmdbSeriesID : Int) (key : String) :
    ScheduleOperationRequest where
  kind := .tmdbSync
  resource := some (.mediaSeries, seriesID)
  idempotencyKey := key
  maxAttempts := 4
  timeout := 10 * Duration.minute
  payload := [("tmdbSeriesId", .number tmdbSeriesID)]

/-- The mapping profile that `resolveRSSMappingProfile` found for a subscription. -/
structure ResolvedMappingProfile where
  id : UUID
  autoSelected : Bool

def subscriptionEventData (s : RSSSubscription) (profile : Option ResolvedMappingProfile) :
    List (String × JSON) :=
  [("version", .number s.version), ("enabled", .bool s.enabled),
    ("includeKeywords", .array (s.includeKeywords.map .string)),
    ("excludeKeywords", .array (s.excludeKeywords.map .string)),
    ("autoEpisodeMapping", .bool s.autoEpisodeMapping), ("autoReview", .bool s.autoReview),
    ("cleanupSourceOnCompletion", .bool s.cleanupSourceOnCompletion)] ++
    match profile with
    | none => []
    | some profile => [("mappingProfileId", .string profile.id.text),
        ("mappingProfileAutoSelected", .bool profile.autoSelected)]

/-- `CreateSubscription`, for an input that was validated and whose series and mapping profile
are resolved. A subscription that starts enabled is due at once. -/
def createSubscription (new : NewPollCommand) (now : Timestamp) (row : RSSSubscription)
    (profile : Option ResolvedMappingProfile) (tmdbSeriesID : Int) : DatabaseTx Unit := do
  let subscription := { row with
    mappingProfileID := profile.map (·.id), version := 1
    nextPollAt := if row.enabled then some now else none
    createdAt := now, completedAt := none, deletedAt := none }
  context "create RSS subscription" (onResources (rssSubscriptionsSlot.insert subscription))
  let _ ← context "schedule RSS TMDb sync" (scheduleInTx new.sync (subscriptionSyncRequest
    row.seriesID tmdbSeriesID ("tmdb.sync:rss-subscription:" ++ row.id.text)))
  appendResourceEvent (.rssSubscription, row.id) none "rss.subscription.created"
    (subscriptionEventData subscription profile)
  if row.enabled then scheduleContinuousPoll new.poll row.id 1 else return ()

/-- `domain.UpdateRSSSubscription`, with the mapping profile as it was resolved. -/
structure UpdateRSSSubscription where
  id : UUID
  expectedVersion : Int
  includeKeywords : List String := []
  excludeKeywords : List String := []
  enabled : Bool
  autoEpisodeMapping : Bool := false
  autoReview : Bool := false
  cleanupSourceOnCompletion : Bool := false
  pollIntervalSeconds : Nat := 900
  sourceSeason : Int := 1
  mappingProfile : Option ResolvedMappingProfile := none

def RSSSubscription.update (now : Timestamp) (input : UpdateRSSSubscription)
    (s : RSSSubscription) : RSSSubscription :=
  { s with
    includeKeywords := input.includeKeywords
    excludeKeywords := input.excludeKeywords
    enabled := input.enabled
    autoEpisodeMapping := input.autoEpisodeMapping
    autoReview := input.autoReview
    cleanupSourceOnCompletion := input.cleanupSourceOnCompletion
    pollIntervalSeconds := input.pollIntervalSeconds
    sourceSeason := input.sourceSeason
    mappingProfileID := input.mappingProfile.map (·.id)
    nextPollAt := if input.enabled then s.nextPollAt.or (some now) else none
    version := s.version + 1 }

def updateRSSSubscription (now : Timestamp) (input : UpdateRSSSubscription) :
    ResourcesTx (Option RSSSubscription) :=
  rssSubscriptionsSlot.updateOne
    (atKey RSSSubscription.id input.id fun s =>
      s.version = input.expectedVersion && s.deletedAt.isNone &&
        (s.completedAt.isNone || !input.enabled))
    (RSSSubscription.update now input)

/-- The reviews that an updated subscription approves. -/
def autoReview (hashes : Hashes) (new : UUID → NewOperation) (updated : RSSSubscription) :
    DatabaseTx Nat :=
  if updated.autoReview then approvePendingAutoReviewsInTx hashes new (some updated.id) else pure 0

def subscriptionModified : Fault :=
  .service "state_conflict" "the RSS subscription was modified by another request"

def getRSSSubscription (id : UUID) (r : Resources) : Option (RSSSubscription × MediaSeries) := do
  let s ← r.rssSubscriptions.rows.find? fun s => s.id = id && s.deletedAt.isNone
  let series ← lookup MediaSeries.id s.seriesID r.mediaSeries.rows
  return (s, series)

/-- What follows the update of the row, before the poll is scheduled. -/
def followSubscriptionUpdate (hashes : Hashes) (new : NewPollCommand)
    (current updated : RSSSubscription) (series : MediaSeries)
    (profile : Option ResolvedMappingProfile) : DatabaseTx Unit := do
  let (propagated, corrected, scheduled) ←
    recoverSubscriptionMapping new.materialization updated.id updated.mappingProfileID
  let autoReviewed ← autoReview hashes new.review updated
  appendResourceEvent (.rssSubscription, updated.id) none "rss.subscription.updated"
    (subscriptionEventData updated profile ++ [("autoReviewedTasks", .number autoReviewed),
      ("propagatedAcquisitions", .number propagated), ("correctedFiles", .number corrected),
      ("materializationOperations", .number scheduled)])
  if updated.autoEpisodeMapping && !current.autoEpisodeMapping then
    let _ ← context "schedule RSS automatic Mapping backfill" (scheduleInTx new.sync
      (subscriptionSyncRequest current.seriesID (series.tmdbSeriesID.getD 0)
        ("tmdb.sync:rss-auto-mapping:" ++ updated.id.text ++ ":" ++ toString updated.version)))
    return ()
  else return ()

def updateSubscription (hashes : Hashes) (new : NewPollCommand) (now : Timestamp)
    (input : UpdateRSSSubscription) : DatabaseTx Unit := do
  if input.id = 0 ∨ input.expectedVersion ≤ 0 then
    throw (.service "invalid_rss_subscription" "the RSS subscription is invalid"
      [("field", .text "expectedVersion"), ("reason", .text "must be positive")])
  else match getRSSSubscription input.id (← get).resources with
  | none => throw .notFound
  | some (current, series) =>
    if current.completedAt.isSome && input.enabled then
      throw (.service "rss_subscription_completed"
        "a completed RSS subscription cannot be enabled" [("subscriptionId", .text input.id.text)])
    else
      let row ← context "update RSS subscription" (onResources (updateRSSSubscription now input))
      match row with
      | none => throw subscriptionModified
      | some updated =>
        followSubscriptionUpdate hashes new current updated series input.mappingProfile
        if updated.enabled then scheduleContinuousPoll new.poll updated.id updated.version
        else return ()

def RSSSubscription.applyProfile (profileID : UUID) (s : RSSSubscription) : RSSSubscription :=
  { s with mappingProfileID := some profileID, version := s.version + 1 }

/-- `ApplyDeterministicRSSPollMappingProfile`, and `ApplyRSSPreacquisitionMappingProfile` for a
scope of the same version. -/
def applyRSSPollMappingProfile (id : UUID) (expectedVersion : Nat) (profileID : UUID) :
    ResourcesTx (Option RSSSubscription) :=
  rssSubscriptionsSlot.updateOne
    (atKey RSSSubscription.id id fun s => s.version = expectedVersion &&
      s.mappingProfileID.isNone && s.enabled && s.deletedAt.isNone && s.completedAt.isNone)
    (RSSSubscription.applyProfile profileID)

/-- A mapping that was found before the first acquisition goes to its subscription, and the poll
starts again with it. -/
def applyMappingProfile (new : NewOperation) (id : UUID) (expectedVersion : Nat)
    (profileID : UUID) : DatabaseTx Unit := do
  match ← context "apply RSS mapping profile"
      (onResources (applyRSSPollMappingProfile id expectedVersion profileID)) with
  | none => throw (.service "rss_mapping_conflict"
      "the RSS subscription changed while automatic mapping was prepared")
  | some updated => scheduleContinuousPoll new id updated.version

/-! ## The reconcilers -/

def pollsOf (db : Database) (subscriptionID : UUID) : List Operation :=
  db.operations.rows.filter fun o =>
    o.kind = .rssPoll && o.resource = some (.rssSubscription, subscriptionID)

/-- A row of `ListDueRSSPollRecoveryCandidates`. -/
structure DuePoll where
  id : UUID
  version : Nat
  pollGeneration : Nat
  deriving DecidableEq

def RSSSubscription.pollable (s : RSSSubscription) : Bool :=
  s.enabled && s.deletedAt.isNone && s.completedAt.isNone

def listDueRSSPollRecoveryCandidates (now : Timestamp) (pageSize : Nat) (db : Database) :
    List DuePoll :=
  let due := db.resources.rssSubscriptions.rows.filter fun s =>
    s.pollable && s.nextPollAt.any (· ≤ now) && (pollsOf db s.id).all fun o => !o.status.live
  let ordered := due.insertionSort fun a b =>
    a.nextPollAt.getD 0 < b.nextPollAt.getD 0 ∨
      (a.nextPollAt.getD 0 = b.nextPollAt.getD 0 ∧ a.id ≤ b.id)
  (ordered.take pageSize).map fun s => ⟨s.id, s.version, (pollsOf db s.id).length⟩

/-- The generation counts every poll the subscription has had. -/
def duePollKey (row : DuePoll) : String :=
  "rss.poll:recovery:due-v1:" ++ row.id.text ++ ":v" ++ toString row.version ++ ":g" ++
    toString row.pollGeneration

def duePollRequest (row : DuePoll) : ScheduleOperationRequest :=
  continuousPollRequest row.id row.version (duePollKey row)

def advanceDueRSSPollRecovery (now : Timestamp) (id : UUID) :
    ResourcesTx (Option RSSSubscription) :=
  rssSubscriptionsSlot.updateOne
    (atKey RSSSubscription.id id fun s => s.pollable && s.nextPollAt.any (· ≤ now))
    fun s => { s with nextPollAt := some (now + s.pollIntervalSeconds) }

/-- A row of `ListRSSPreAcquisitionMappingRecoveryCandidates`. -/
structure MappingPoll where
  id : UUID
  version : Nat
  deriving DecidableEq

def mappingPollKey (subscriptionID : UUID) : String :=
  "rss.poll:recovery:preacquisition-mapping-v1:" ++ subscriptionID.text

def hasRegularEpisode (r : Resources) (seriesID : UUID) : Bool :=
  r.tmdbSeasons.rows.any fun season => season.seriesID = seriesID && 0 < season.seasonNumber &&
    r.mediaEpisodes.rows.any fun e => e.seasonID = season.id && 0 < e.episodeNumber

/-- Unlike the other list, this one does not ask whether a poll is live. -/
def listRSSPreAcquisitionMappingRecoveryCandidates (db : Database) : List MappingPoll :=
  let failed := db.resources.rssSubscriptions.rows.filter fun s =>
    s.pollable && s.mappingProfileID.isNone && hasRegularEpisode db.resources s.seriesID &&
      ((pollsOf db s.id).any fun o => o.status = .failed &&
        o.errorCode = some "rss_realtime_mapping_unavailable") &&
      db.operations.rows.all fun o => o.idempotencyKey ≠ mappingPollKey s.id
  let ordered := failed.insertionSort fun a b =>
    a.createdAt < b.createdAt ∨ (a.createdAt = b.createdAt ∧ a.id ≤ b.id)
  (ordered.take 100).map fun s => ⟨s.id, s.version⟩

def mappingPollRequest (row : MappingPoll) : ScheduleOperationRequest :=
  continuousPollRequest row.id row.version (mappingPollKey row.id)

end EmbyAuto
