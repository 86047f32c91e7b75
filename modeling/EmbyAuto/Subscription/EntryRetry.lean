import EmbyAuto.Acquisition.Enqueue
import EmbyAuto.Subscription.Fulfillment

/-!
# The retry of a skipped entry

An entry whose target was being processed is skipped, and comes back in two ways: the next poll of
its feed finds the target free, or the user retries it. Both read the title again, and both have an
exception for a title without an episode whose coordinate was decided otherwise.

## Main definitions

* `polledDownloadable`: what a poll makes of an entry that it has already
* `retryEntry`: the checks of `RetryEntry`

## Main results

* `retry_follows_poll_iff`: when the retry accepts what the poll would make downloadable
-/

namespace EmbyAuto

/-- An entry with the columns that the two workflows read beside those of `RSSEntry`, and the state
of its row in `rss_entry_adjudications`. -/
structure FeedRSSEntry extends RSSEntry where
  coordinateSource : Option DecisionSource := none
  importedAt : Option Timestamp := none
  fulfillmentSource : Option FulfillmentSource := none
  adjudication : Option AdjudicationState := none

namespace FeedRSSEntry

variable (entry : FeedRSSEntry)

/-- An agent's decision or the user gave the entry its coordinate. -/
def decided : Bool :=
  entry.sourceSeason.isSome && entry.sourceEpisode.isSome &&
    (entry.coordinateSource = some .agentAuto || entry.coordinateSource = some .agentAccepted ||
      entry.coordinateSource = some .user)

/-- `UpdateRSSEntryMetadata` leaves the entry as the adjudication has it. -/
def adjudicated : Bool :=
  entry.adjudication = some .selected || entry.adjudication = some .ignored

def skippedForProcessing : Bool :=
  entry.rejectionReasons = ["target_episode_processing"] && entry.importedAt.isNone

def retryableDiscovery : Bool :=
  entry.downloadable && (entry.status = .discovered || entry.status = .enqueued ||
    entry.status = .enqueueing) && entry.importedAt.isNone

/-- `AnalyzeRSSRelease` of the entry: what the poll of an unchanged feed and the retry both read. -/
def analysis (parseAuthority : String → Option String) (unicode : Unicode)
    (subscription : RSSSubscription) : RSSReleaseAnalysis :=
  analyzeRSSRelease parseAuthority unicode entry.title (entry.downloadURI.getD "")
    ⟨subscription.sourceSeason, subscription.includeKeywords, subscription.excludeKeywords⟩

end FeedRSSEntry

/-! ## The poll -/

def rssReleaseAnalysisWithOccupancy (analysis : RSSReleaseAnalysis) (reason : String) :
    RSSReleaseAnalysis :=
  if reason = "" then analysis
  else
    { analysis with
      downloadable := false
      rejectionReasons := if reason ∈ analysis.rejectionReasons then analysis.rejectionReasons
        else analysis.rejectionReasons ++ [reason] }

/-- `downloadable` after `persistFeedEntry` on an entry that is there, with the analysis of its
title. The reason for which the target is occupied is the one of the poll's plan or, for a
coordinate, that of the rows. -/
def polledDownloadable (preacquisitionMapping : Bool) (planned : String)
    (occupancy : Int → Int → String) (analysis : RSSReleaseAnalysis) (existing : FeedRSSEntry) :
    Bool :=
  if existing.importedAt.isSome && existing.fulfillmentSource = some .managedImport then
    existing.downloadable
  else
    let found : RSSReleaseAnalysis :=
      if existing.decided && rssOnlySoftCoordinateReasons analysis.rejectionReasons then
        { sourceSeason := existing.sourceSeason.getD 0
          sourceEpisode := existing.sourceEpisode.getD 0, downloadable := true }
      else analysis
    let reason :=
      if !preacquisitionMapping && found.downloadable && 0 < found.sourceSeason &&
          0 < found.sourceEpisode then occupancy found.sourceSeason found.sourceEpisode
      else planned
    -- `UpdateRSSEntryMetadata`, and `MarkRSSEntryTargetOccupied` if there is a reason
    reason = "" && if existing.adjudicated then existing.downloadable
      else (rssReleaseAnalysisWithOccupancy found reason).downloadable

/-! ## The retry -/

structure EntryRetryRequest where
  subscriptionID : UUID
  entryID : UUID
  expectedVersion : Int
  idempotencyKey : String

/-- How the entry is set back: by `ResetSkippedRSSEntryForRetry` or by `ReserveRSSEntryRetry`. -/
inductive EntryRetry where
  | reset | reserve
  deriving DecidableEq

/-- The release still matches the subscription. The exception asks for the source `agent`. -/
def retryDownloadable (analysis : RSSReleaseAnalysis) (entry : FeedRSSEntry) : Bool :=
  analysis.downloadable ||
    (entry.coordinateSource.elim "" DecisionSource.text = "agent" && entry.sourceSeason.isSome &&
      entry.sourceEpisode.isSome && analysis.rejectionReasons.all fun reason =>
        reason = "episode_not_detected" || reason = "episode_ambiguous")

/-- `RetryEntry` with a new key, up to the operation it schedules: `acquired` says that the entry
has a download, and `pending` lists the entries with a retry under way. -/
def retryEntry (request : EntryRetryRequest) (subscription : RSSSubscription)
    (entry : FeedRSSEntry) (analysis : RSSReleaseAnalysis) (acquired : Bool)
    (pending : List UUID) : Except Fault EntryRetry :=
  if request.subscriptionID = .nil ∨ request.entryID = .nil then
    .error (.service "invalid_rss_entry" "the RSS subscription and entry are required")
  else if request.expectedVersion ≤ 0 then
    .error (.service "invalid_expected_version" "expectedVersion must be positive")
  else if trimSpace request.idempotencyKey = "" then
    .error (.service "invalid_idempotency_key" "Idempotency-Key must not be blank")
  else if subscription.id ≠ request.subscriptionID then .error .notFound
  else if subscription.deletedAt.isSome || subscription.completedAt.isSome ||
      !subscription.enabled then
    .error (.service "state_conflict" "the RSS subscription is not available for entry retry")
  else if entry.subscriptionID ≠ subscription.id then .error .notFound
  else if rssEntryVersion entry.enqueueAttempts ≠ request.expectedVersion then
    .error (.service "state_conflict" "the RSS entry was modified by another request"
      [("expectedVersion", .number request.expectedVersion)])
  else if !entry.skippedForProcessing && !entry.retryableDiscovery &&
      (!entry.downloadable || entry.status ≠ .enqueueFailed || !entry.lastErrorRetryable) then
    .error (.service "invalid_state" "the RSS entry cannot be retried in its current state"
      [("status", .text entry.status.text)])
  else if acquired then
    .error (.service "state_conflict"
      "the RSS entry already has an acquisition; retry its download or media task")
  else if entry.id ∈ pending then
    .error (.service "operation_in_progress" "the RSS entry retry is already queued or running")
  else if entry.skippedForProcessing then
    if !retryDownloadable analysis entry then
      .error (.service "invalid_state" "the RSS release no longer matches the subscription")
    else if (entry.status = .discovered ∨ entry.status = .enqueueFailed) ∧
        entry.adjudication ≠ some .ignored then .ok .reset
    else .error (.service "state_conflict" "the skipped RSS entry changed before retry")
  else if entry.downloadable ∧ entry.importedAt = none ∧ entry.adjudication ≠ some .ignored then
    .ok .reserve
  else .error (.service "state_conflict" "the RSS entry changed before retry")

/-- No source of a coordinate is written `agent`. -/
theorem DecisionSource.text_ne_agent (source : DecisionSource) : source.text ≠ "agent" := by
  cases source <;> decide

/-- The request names the entry at its version, and the subscription is polled. -/
structure EntryRetryRequest.Addresses (request : EntryRetryRequest)
    (subscription : RSSSubscription) (entry : FeedRSSEntry) : Prop where
  known : request.subscriptionID ≠ .nil ∧ request.entryID ≠ .nil
  keyed : trimSpace request.idempotencyKey ≠ ""
  owner : subscription.id = request.subscriptionID ∧ entry.subscriptionID = subscription.id
  polled : subscription.deletedAt = none ∧ subscription.completedAt = none ∧
    subscription.enabled = true
  version : request.expectedVersion = rssEntryVersion entry.enqueueAttempts

section Retry

variable {request : EntryRetryRequest} {subscription : RSSSubscription} {entry : FeedRSSEntry}
  {analysis : RSSReleaseAnalysis} {pending : List UUID}

theorem retryEntry_skipped_iff (haddresses : request.Addresses subscription entry)
    (hskipped : entry.skippedForProcessing = true) (hpending : entry.id ∉ pending) :
    retryEntry request subscription entry analysis false pending = .ok .reset ↔
      analysis.downloadable = true ∧ (entry.status = .discovered ∨ entry.status = .enqueueFailed) ∧
        entry.adjudication ≠ some .ignored := by
  obtain ⟨⟨hsubscription, hentry⟩, hkey, ⟨hid, howner⟩, ⟨hdeleted, hcompleted, henabled⟩,
    hversion⟩ := haddresses
  have hpositive : ¬ rssEntryVersion entry.enqueueAttempts ≤ 0 := by
    unfold rssEntryVersion
    omega
  have hsource : entry.coordinateSource.elim "" DecisionSource.text ≠ "agent" := by
    cases entry.coordinateSource with
    | none => decide
    | some source => exact source.text_ne_agent
  cases hfound : analysis.downloadable <;>
    simp [retryEntry, hsubscription, hentry, hkey, hid, howner, hdeleted, hcompleted, henabled,
      hversion, hpositive, hskipped, hpending, retryDownloadable, hsource, hfound]

theorem polledDownloadable_skipped (hskipped : entry.skippedForProcessing = true)
    (hdownloadable : entry.downloadable = false) (preacquisitionMapping : Bool) :
    polledDownloadable preacquisitionMapping "" (fun _ _ => "") analysis entry =
      (!entry.adjudicated && (analysis.downloadable ||
        entry.decided && rssOnlySoftCoordinateReasons analysis.rejectionReasons)) := by
  have himported : entry.importedAt = none := by
    simpa [FeedRSSEntry.skippedForProcessing] using (Bool.and_eq_true_iff.mp hskipped).2
  cases hdecided : entry.decided && rssOnlySoftCoordinateReasons analysis.rejectionReasons <;>
    simp [polledDownloadable, rssReleaseAnalysisWithOccupancy, hdownloadable, himported, hdecided]

/-- A skipped entry without an acquisition or a retry under way, whose target is free. The retry
accepts it whenever the poll makes it downloadable, exactly when the poll keeps the decision of an
adjudication, when the title has an episode and no enqueueing is recorded, or when the poll would
not have used a decided coordinate. -/
theorem retry_follows_poll_iff (parseAuthority : String → Option String) (unicode : Unicode)
    (haddresses : request.Addresses subscription entry)
    (hskipped : entry.skippedForProcessing = true) (hdownloadable : entry.downloadable = false)
    (hpending : entry.id ∉ pending) (preacquisitionMapping : Bool) :
    (polledDownloadable preacquisitionMapping "" (fun _ _ => "")
        (entry.analysis parseAuthority unicode subscription) entry = true →
      retryEntry request subscription entry (entry.analysis parseAuthority unicode subscription)
        false pending = .ok .reset) ↔
      (entry.adjudicated = true ∨
        if (entry.analysis parseAuthority unicode subscription).downloadable then
          entry.status = .discovered ∨ entry.status = .enqueueFailed
        else ¬ (entry.decided = true ∧ rssOnlySoftCoordinateReasons
          (entry.analysis parseAuthority unicode subscription).rejectionReasons = true)) := by
  rw [polledDownloadable_skipped hskipped hdownloadable,
    retryEntry_skipped_iff haddresses hskipped hpending]
  have hignored : entry.adjudicated = false → entry.adjudication ≠ some .ignored := by
    rintro hopen hignored
    simp [FeedRSSEntry.adjudicated, hignored] at hopen
  cases hadjudicated : entry.adjudicated <;>
    cases hfound : (entry.analysis parseAuthority unicode subscription).downloadable <;>
    simp_all

end Retry

/-- An entry of a feed that was skipped, with the coordinate that the agent gave it. -/
def skippedEntry (title : String) : FeedRSSEntry where
  id := 20
  subscriptionID := 10
  identityKey := "btih:" ++ hashText 1
  title := title
  downloadURI := some (magnetOf hexadecimalOne)
  rejectionReasons := ["target_episode_processing"]
  sourceSeason := some 1
  sourceEpisode := some 1
  coordinateSource := some .agentAuto

theorem addresses_skippedEntry (title : String) :
    (⟨10, 20, 1, "key"⟩ : EntryRetryRequest).Addresses { id := 10 } (skippedEntry title) :=
  ⟨⟨by decide, by decide⟩, by decide +kernel, ⟨rfl, rfl⟩, ⟨rfl, rfl, rfl⟩, rfl⟩

theorem retry_follows_poll_titled :
    retryEntry ⟨10, 20, 1, "key"⟩ { id := 10 } (skippedEntry "EP 1")
      ((skippedEntry "EP 1").analysis some asciiUnicode { id := 10 }) false [] = .ok .reset :=
  (retry_follows_poll_iff some asciiUnicode (addresses_skippedEntry _) (by decide)
    rfl (by decide) true).mpr (by decide +kernel) (by decide +kernel)

/-- **The agent's coordinate is not enough for a retry.** -/
theorem decided_entry_not_retried :
    (⟨10, 20, 1, "key"⟩ : EntryRetryRequest).Addresses { id := 10 } (skippedEntry "Show") ∧
    (skippedEntry "Show").skippedForProcessing = true ∧
    polledDownloadable true "" (fun _ _ => "")
      ((skippedEntry "Show").analysis some asciiUnicode { id := 10 }) (skippedEntry "Show") = true ∧
    retryEntry ⟨10, 20, 1, "key"⟩ { id := 10 } (skippedEntry "Show")
      ((skippedEntry "Show").analysis some asciiUnicode { id := 10 }) false [] ≠ .ok .reset := by
  refine ⟨addresses_skippedEntry _, by decide, by decide +kernel, fun h => ?_⟩
  have hread := (retryEntry_skipped_iff (addresses_skippedEntry _) (by decide) (by decide)).mp h
  revert hread
  decide +kernel

end EmbyAuto
