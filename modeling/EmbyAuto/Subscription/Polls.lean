import EmbyAuto.Subscription.Commands

/-!
# Continuous polls of RSS subscriptions

Each reconciler lists subscriptions with one statement and then schedules a poll for each row in a
transaction of its own, so that anything may happen between the two. The poll of a version that a
command has just written is the first of that version; a recovered poll is the only live one if
its reconciler finds no other.

## Main definitions

* `OnePoll`: at most one live continuous poll for each version of a subscription
* `PollAction`, `PollStep`: commands, reconcilers and workers, interleaved
* `Unpolled`: a reconciler schedules under a new key only where no poll is live

## Main results

* `one_poll_of_careful`: then `OnePoll` holds in every state of every run
* `two_polls_recovered`: the second reconciler adds a poll beside one that is live
-/

namespace EmbyAuto

open Relational Database Resources

/-! ## The system -/

/-- A poll that snoozes and polls again, by the payload it carries. -/
def continuousPoll (kind : OperationKind) (payload : JSON) : Bool :=
  kind = .rssPoll &&
    match payload.field? "continuous" with
    | some (.bool continuous) => continuous
    | _ => false

/-- A continuous poll of one version of a subscription. -/
def Operation.polls (subscriptionID : UUID) (version : Nat) (o : Operation) : Bool :=
  continuousPoll o.kind o.payload && o.resource = some (.rssSubscription, subscriptionID) &&
    match o.payload.field? "subscriptionVersion" with
    | some (.number v) => v = version
    | _ => false

/-- At most one continuous poll of a version of a subscription is queued or running. -/
def OnePoll (db : Database) : Prop :=
  ∀ subscriptionID version, ∀ o ∈ db.operations.rows, ∀ o' ∈ db.operations.rows,
    o.polls subscriptionID version = true → o'.polls subscriptionID version = true →
    o.status.live = true → o'.status.live = true → o = o'

/-- The database, with the rows that running reconcilers have listed. A reconciler may stop at
any row, and a row may be scheduled by several of them. -/
structure PollSystem where
  db : Database
  due : List DuePoll := []
  missing : List MappingPoll := []

/-- One transaction, or one statement outside a transaction. -/
inductive PollAction where
  | create (new : NewPollCommand) (now : Timestamp) (row : RSSSubscription)
      (profile : Option ResolvedMappingProfile) (tmdbSeriesID : Int)
  | update (hashes : Hashes) (new : NewPollCommand) (now : Timestamp)
      (input : UpdateRSSSubscription)
  | applyProfile (new : NewOperation) (id : UUID) (expectedVersion : Nat) (profileID : UUID)
  | listDue (now : Timestamp)
  | scheduleDue (new : NewOperation) (row : DuePoll)
  | advanceDue (now : Timestamp) (id : UUID)
  | listMissing
  | scheduleMissing (new : NewOperation) (row : MappingPoll)
  /-- A worker, or a request to cancel. -/
  | lifecycle (call : LifecycleCall)
  /-- Any other operation is scheduled. -/
  | schedule (new : NewOperation) (request : ScheduleOperationRequest)
  /-- Any other code changes the resources. -/
  | elsewhere (resources : Resources)

/-- No operation and no listed row is about the subscription, as for a UUID that was just drawn. -/
structure PollSystem.Fresh (s : PollSystem) (subscriptionID : UUID) : Prop where
  operations : ∀ o ∈ s.db.operations.rows, o.resource ≠ some (.rssSubscription, subscriptionID)
  due : ∀ row ∈ s.due, row.id ≠ subscriptionID
  missing : ∀ row ∈ s.missing, row.id ≠ subscriptionID

/-- What may happen: reconcilers schedule what they have listed, new subscriptions get new
identifiers, and versions never fall. -/
def PollAction.Possible (s : PollSystem) : PollAction → Prop
  | create _ _ row _ _ => s.Fresh row.id
  | scheduleDue _ row => row ∈ s.due
  | scheduleMissing _ row => row ∈ s.missing
  | schedule _ request => continuousPoll request.kind (.object request.payload) = false
  | elsewhere resources => ∀ row ∈ resources.rssSubscriptions.rows,
      (∃ old ∈ s.db.resources.rssSubscriptions.rows, old.id = row.id ∧ old.version ≤ row.version) ∨
        s.Fresh row.id
  | _ => True

def PollAction.run (s : PollSystem) : PollAction → PollSystem
  | create new now row profile tmdbSeriesID =>
    { s with db := (createSubscription new now row profile tmdbSeriesID).commit s.db }
  | update hashes new now input =>
    { s with db := (updateSubscription hashes new now input).commit s.db }
  | applyProfile new id expectedVersion profileID =>
    { s with db := (applyMappingProfile new id expectedVersion profileID).commit s.db }
  | listDue now => { s with due := s.due ++ listDueRSSPollRecoveryCandidates now 100 s.db }
  | scheduleDue new row => { s with db := (scheduleInTx new (duePollRequest row)).commit s.db }
  | advanceDue now id =>
    { s with db := (onResources (advanceDueRSSPollRecovery now id)).commit s.db }
  | listMissing =>
    { s with missing := s.missing ++ listRSSPreAcquisitionMappingRecoveryCandidates s.db }
  | scheduleMissing new row =>
    { s with db := (scheduleInTx new (mappingPollRequest row)).commit s.db }
  | lifecycle call => { s with db := call.run s.db }
  | schedule new request => { s with db := (scheduleInTx new request).commit s.db }
  | elsewhere resources => { s with db := { s.db with resources } }

/-- Before a poll is scheduled under a key that no operation holds, no poll of the subscription's
version is queued or running. -/
def Unpolled (db : Database) (subscriptionID : UUID) (version : Nat) (key : String) : Prop :=
  (∀ o ∈ db.operations.rows, o.idempotencyKey ≠ trimSpace key) →
    ∀ o ∈ db.operations.rows, o.polls subscriptionID version = true → o.status.live = false

instance (db : Database) (subscriptionID : UUID) (version : Nat) (key : String) :
    Decidable (Unpolled db subscriptionID version key) :=
  inferInstanceAs (Decidable (_ → _))

/-- What the reconcilers would have to check in the transaction that schedules. -/
def PollAction.Careful (s : PollSystem) : PollAction → Prop
  | scheduleDue _ row => Unpolled s.db row.id row.version (duePollKey row)
  | scheduleMissing _ row => Unpolled s.db row.id row.version (mappingPollKey row.id)
  | _ => True

def CarefulAction (s : PollSystem) (a : PollAction) : Prop := a.Possible s ∧ a.Careful s

/-- A step by an action that is allowed. -/
def PollStep (ok : PollSystem → PollAction → Prop) (s s' : PollSystem) : Prop :=
  ∃ a, ok s a ∧ s' = a.run s

/-! ## What a command does to polls -/

section Polls

variable {db db' : Database} {s s' : PollSystem} {id : UUID} {version : Nat}

/-- The continuous polls. -/
def pollsIn (db : Database) : List Operation :=
  db.operations.rows.filter fun o => continuousPoll o.kind o.payload

variable {new : NewOperation} {profile : Option ResolvedMappingProfile} {o : Operation}
  {now : Timestamp}

theorem Operation.continuous_of_polls (h : o.polls id version = true) :
    continuousPoll o.kind o.payload = true := by
  simp only [Operation.polls, Bool.and_eq_true] at h
  exact h.1.1

theorem Operation.resource_of_polls (h : o.polls id version = true) :
    o.resource = some (.rssSubscription, id) := by
  simp only [Operation.polls, Bool.and_eq_true, decide_eq_true_eq] at h
  exact h.1.2

theorem mem_pollsIn (h : o.polls id version = true) : o ∈ pollsIn db ↔ o ∈ db.operations.rows := by
  simp [pollsIn, Operation.continuous_of_polls h]

/-- A poll is of one version of one subscription. -/
theorem Operation.polls_inj {id' : UUID} {version' : Nat} (h : o.polls id version = true)
    (h' : o.polls id' version' = true) : id = id' ∧ version = version' := by
  constructor
  · have heq := (Operation.resource_of_polls h).symm.trans (Operation.resource_of_polls h')
    simpa using heq
  · simp only [Operation.polls, Bool.and_eq_true] at h h'
    obtain ⟨-, h⟩ := h
    split at h
    · next v hv =>
      rw [hv] at h'
      simp only [decide_eq_true_eq] at h h'
      omega
    · cases h

theorem Operation.Leads.polls_eq {o o' : Operation} (leads : o.Leads o') :
    o'.polls id version = o.polls id version := by
  simp [Operation.polls, leads.kind, leads.resource, leads.payload]

theorem polls_continuousPollRequest {key : String} : (({ continuousPollRequest id version key with
      idempotencyKey := trimSpace key }.operation new.id).attachRiverJob new.riverJobID).polls
        id version = true := by
  simp [Operation.polls, continuousPoll, Operation.attachRiverJob,
    ScheduleOperationRequest.operation, continuousPollRequest, JSON.field?, List.lookup]

/-- The transaction leaves the polls and the subscriptions alone. -/
def LeavesPolls {α : Type} (m : DatabaseTx α) : Prop :=
  ∀ P S, m.Keeps fun db => pollsIn db = P ∧ db.resources.rssSubscriptions = S

theorem leavesPolls_onResources {α : Type} {m : ResourcesTx α}
    (h : ∀ S, m.Keeps fun r => r.rssSubscriptions = S) : LeavesPolls (onResources m) :=
  fun _ S => keeps_onResources_iff.mpr fun _ _ _ _ hr hrun => ⟨hr.1, h S hr.2 hrun⟩

theorem leavesPolls_event {resource : Resource} {operationID : Option UUID} {topic : String}
    {data} :
    LeavesPolls (appendResourceEvent resource operationID topic data) := by
  apply leavesPolls_onResources
  exact fun _ => keeps_appendEvent fun _ _ h => h

/-- Anything but a continuous poll is scheduled. -/
theorem leavesPolls_schedule {request}
    (h : continuousPoll request.kind (.object request.payload) = false) :
    LeavesPolls (scheduleInTx new request) := by
  rintro P S db ⟨o, created⟩ db' ⟨hP, hS⟩ hrun
  rcases scheduleInTx_ok hrun with ⟨-, rfl, -⟩ | ⟨-, added, rfl⟩
  · exact ⟨hP, hS⟩
  obtain ⟨events, hresources⟩ := added.resources
  refine ⟨?_, by rw [hresources]; exact hS⟩
  rw [pollsIn, added.rows, List.filter_append, ← pollsIn, hP]
  simp [Operation.attachRiverJob, ScheduleOperationRequest.operation, h]

/-! ### Updates of subscriptions leave the other polls alone -/

theorem LeavesPolls.bind {α β : Type} {m} {f : α → DatabaseTx β}
    (hm : LeavesPolls m) (hf : ∀ a, LeavesPolls (f a)) : LeavesPolls (m >>= f) :=
  fun P S => (hm P S).bind fun a => hf a P S

theorem LeavesPolls.context {α : Type} {text : String} {m : DatabaseTx α}
    (hm : LeavesPolls m) : LeavesPolls (EmbyAuto.context text m) :=
  fun P S => keeps_context (hm P S)

theorem LeavesPolls.pure {α : Type} {a : α} : LeavesPolls (Pure.pure a) :=
  fun _ _ => Tx.Keeps.pure

theorem leavesPolls_sync {text : String} {seriesID : UUID} {tmdbSeriesID : Int} {key : String} :
    LeavesPolls (context text
      (scheduleInTx new (subscriptionSyncRequest seriesID tmdbSeriesID key))) :=
  (leavesPolls_schedule rfl).context

theorem leavesPolls_statement {α : Type} {text : String} {m : ResourcesTx α}
    (h : ∀ S, m.Keeps fun r => r.rssSubscriptions = S) :
    LeavesPolls (context text (onResources m)) :=
  (leavesPolls_onResources h).context

theorem leavesPolls_propagate {profileID : Option UUID} :
    LeavesPolls (onResources (propagateRSSMappingProfile id profileID)) := by
  refine leavesPolls_onResources fun S => Tx.Keeps.get.bind fun _ => ?_
  exact (Slot.keeps_update fun _ _ h => h).bind fun _ => Tx.Keeps.pure

theorem keeps_repairVideos {S} (files : List MappingScopeVideo) :
    ∀ corrected, (repairVideos corrected files).Keeps fun r => r.rssSubscriptions = S := by
  induction files with
  | nil => exact fun _ => Tx.Keeps.pure
  | cons file files ih =>
    intro corrected
    refine Tx.Keeps.bind ?_ fun changed => ih (corrected + changed)
    unfold repairVideo
    split
    · exact Tx.Keeps.pure
    · refine keeps_context (Slot.keeps_selectOne.bind fun source => ?_)
      cases source with
      | none => exact Tx.Keeps.pure
      | some _ => exact (Slot.keeps_update fun _ _ h => h).bind fun _ => Tx.Keeps.pure

theorem leavesPolls_repair {acquisitionID : UUID} :
    LeavesPolls (onResources (repairMappingScopeCoordinates acquisitionID)) := by
  refine leavesPolls_onResources fun S => Tx.Keeps.get.bind fun _ => ?_
  refine (keeps_repairVideos _ 0).bind fun _ => ?_
  refine (keeps_context (Tx.Keeps.get.bind fun _ => ?_)).bind fun _ => Tx.Keeps.pure
  refine (Slot.keeps_update fun _ _ h => h).bind fun _ => ?_
  exact (Slot.keeps_update fun _ _ h => h).bind fun _ => Tx.Keeps.pure

theorem leavesPolls_scheduleCandidates {new} {profileID : UUID}
    (candidates : List Download) : LeavesPolls (scheduleCandidates new profileID candidates) := by
  have hschedule (c : Download) : LeavesPolls (scheduleMaterialization new profileID c) :=
    (leavesPolls_schedule rfl).context
  induction candidates with
  | nil => exact .pure
  | cons c candidates ih =>
    refine .bind ?_ fun _ => ih.bind fun _ => .pure
    unfold scheduleCandidate
    split
    · refine (leavesPolls_statement fun _ => Slot.keeps_updateOne fun _ _ h => h).bind fun row => ?_
      cases row with
      | none => exact .pure
      | some _ => exact (hschedule c).bind fun _ => leavesPolls_event.bind fun _ => .pure
    · exact (hschedule c).bind fun _ => .pure

theorem leavesPolls_recover {new} {profileID : Option UUID} :
    LeavesPolls (recoverSubscriptionMapping new id profileID) := by
  refine leavesPolls_propagate.context.bind fun _ => .bind (fun _ _ => Tx.Keeps.get) fun db => ?_
  split
  · refine leavesPolls_repair.bind fun _ => .bind (.bind (fun _ _ => Tx.Keeps.get) fun _ => ?_)
      fun _ => .pure
    exact leavesPolls_scheduleCandidates _
  · exact .pure

theorem leavesPolls_approve {hashes : Hashes} {taskID operationID : UUID}
    {subscription} {expectedVersion : Int} :
    LeavesPolls (approveRSSReviewInTx hashes new taskID operationID subscription
      expectedVersion) := by
  refine (leavesPolls_statement fun _ => Slot.keeps_insert fun _ _ h => h).bind fun _ => ?_
  refine .bind (fun P S => ?_) fun _ => leavesPolls_event.bind fun _ => ?_
  · refine keeps_context (keeps_requireRow (leavesPolls_onResources (fun S => ?_) P S))
    exact Tx.Keeps.get.bind fun _ => Slot.keeps_updateOne fun _ _ h => h
  -- the import of the approved task
  refine (leavesPolls_statement fun _ => Tx.Keeps.get.bind fun _ =>
    Slot.keeps_insert fun _ _ h => h).bind fun _ => ?_
  refine (leavesPolls_statement fun _ => Tx.Keeps.get.bind fun _ =>
    Slot.keeps_updateOne fun _ _ h => h).bind fun row => ?_
  cases row with
  | none => exact fun _ _ => Tx.Triple.throw
  | some queued => exact (leavesPolls_schedule rfl).context.bind fun _ => leavesPolls_event

theorem leavesPolls_follow {hashes : Hashes} {new current updated} {series : MediaSeries} :
    LeavesPolls (followSubscriptionUpdate hashes new current updated series profile) := by
  refine leavesPolls_recover.bind ?_
  rintro ⟨propagated, corrected, scheduled⟩
  refine .bind ?_ fun _ => leavesPolls_event.bind fun _ => ?_
  · unfold autoReview
    split
    · refine .bind (fun _ _ => Tx.Keeps.get) fun _ => .bind (fun P S => ?_) fun _ => .pure
      exact Tx.Keeps.forM fun _ _ => leavesPolls_approve P S
    · exact .pure
  split
  · exact leavesPolls_sync.bind fun _ => .pure
  · exact .pure

/-! ### Scheduling -/

/-- No poll is added, or one of the given version. -/
def AddsPoll (id : UUID) (version : Nat) (db db' : Database) : Prop :=
  pollsIn db' = pollsIn db ∨
    ∃ o, pollsIn db' = pollsIn db ++ [o] ∧ o.polls id version = true

/-- A poll is added only under a key that no operation holds. -/
theorem schedulePoll_ok {key : String} {result}
    (h : scheduleInTx new (continuousPollRequest id version key) db = .ok (result, db')) :
    db'.resources.rssSubscriptions = db.resources.rssSubscriptions ∧ (pollsIn db' = pollsIn db ∨
      (∀ o ∈ db.operations.rows, o.idempotencyKey ≠ trimSpace key) ∧
        ∃ o, pollsIn db' = pollsIn db ++ [o] ∧ o.polls id version = true) := by
  obtain ⟨o, created⟩ := result
  rcases scheduleInTx_ok h with ⟨-, rfl, -⟩ | ⟨-, added, ho⟩
  · exact ⟨rfl, .inl rfl⟩
  obtain ⟨events, hresources⟩ := added.resources
  have hpolls : o.polls id version = true := by
    rw [ho]
    exact polls_continuousPollRequest
  refine ⟨by rw [hresources], .inr ⟨fun o₀ ho₀ hkey => ?_, o, ?_, hpolls⟩⟩
  · -- the new operation holds the key, and keys are unique
    have hpair := db'.operations.valid.2
      ("operations_idempotency_key_key", fun a b => a.idempotencyKey = b.idempotencyKey)
      (List.mem_cons_of_mem _ List.mem_cons_self)
    rw [added.rows] at hpair
    have hne := (List.pairwise_append.mp hpair).2.2 o₀ ho₀ o List.mem_cons_self
    simp only [hkey, ho] at hne
    simp [Operation.attachRiverJob, ScheduleOperationRequest.operation,
      continuousPollRequest] at hne
  · rw [pollsIn, added.rows, List.filter_append, ← pollsIn]
    simp [Operation.continuous_of_polls hpolls]

theorem scheduleContinuousPoll_ok {u : Unit}
    (h : scheduleContinuousPoll new id version db = .ok (u, db')) :
    db'.resources.rssSubscriptions = db.resources.rssSubscriptions ∧
      AddsPoll id version db db' := by
  obtain ⟨_, db₁, hrun, ⟨⟩⟩ := Tx.bind_ok.mp h
  obtain ⟨hrows, hadds⟩ := schedulePoll_ok (Tx.mapError_ok.mp hrun)
  exact ⟨hrows, hadds.imp_right And.right⟩

/-- The end of a command, which schedules a poll if the subscription is enabled. -/
theorem scheduleEnabledPoll_ok {enabled : Prop} [Decidable enabled] {u : Unit}
    (h : (if enabled then scheduleContinuousPoll new id version else pure ()) db = .ok (u, db')) :
    db'.resources.rssSubscriptions = db.resources.rssSubscriptions ∧
      AddsPoll id version db db' := by
  split at h
  · exact scheduleContinuousPoll_ok h
  · cases h
    exact ⟨rfl, .inl rfl⟩

/-! ### Commands -/

/-- The row `sub` got the next version, and no poll was added, or one of that version. -/
structure Raises (sub : RSSSubscription) (db db' : Database) : Prop where
  mem : sub ∈ db.resources.rssSubscriptions.rows
  rows : ∀ row ∈ db'.resources.rssSubscriptions.rows,
    row ∈ db.resources.rssSubscriptions.rows ∧ row.id ≠ sub.id ∨
      row.id = sub.id ∧ row.version = sub.version + 1
  polls : AddsPoll sub.id (sub.version + 1) db db'

theorem rssSubscriptions_pkey :
    ("rss_subscriptions_pkey", fun a b => decide (RSSSubscription.id a = RSSSubscription.id b)) ∈
      rssSubscriptionSchema.uniques :=
  List.mem_cons_self

/-- The statement that raises a version. -/
theorem raiseVersion_ok {g} {f}
    {row} (hid : ∀ sub, (f sub).id = sub.id)
    (hversion : ∀ sub, (f sub).version = sub.version + 1)
    (h : onResources (rssSubscriptionsSlot.updateOne (atKey RSSSubscription.id id g) f) db =
      .ok (row, db')) :
    pollsIn db' = pollsIn db ∧ ∀ updated, row = some updated →
      ∃ sub ∈ db.resources.rssSubscriptions.rows, updated = f sub ∧ sub.id = id ∧
        ∀ row ∈ db'.resources.rssSubscriptions.rows,
          row ∈ db.resources.rssSubscriptions.rows ∧ row.id ≠ sub.id ∨
            row.id = sub.id ∧ row.version = sub.version + 1 := by
  obtain ⟨r, hr, rfl⟩ := Tx.zoom_ok.mp h
  refine ⟨rfl, fun updated hrow => ?_⟩
  rcases Slot.updateOne_atKey rssSubscriptions_pkey hr with ⟨hnone, -⟩ | ⟨sub, hsub, hg, hsome, hv,
    rfl⟩
  · rw [hrow] at hnone
    cases hnone
  cases hrow.symm.trans hsome
  have hmem := mem_of_lookup hsub
  have hkey := key_of_lookup hsub
  refine ⟨sub, hmem, rfl, hkey, fun row hrow => ?_⟩
  obtain ⟨old, hold, rfl⟩ := List.mem_map.mp hrow
  -- the identifier is a key, so one row is updated
  by_cases heq : old.id = sub.id
  · obtain rfl := db.resources.rssSubscriptions.eq_of_key rssSubscriptions_pkey hold hmem heq
    have hp : atKey RSSSubscription.id id g old = true := by simp [atKey, hkey, hg]
    rw [patch_of_true hp]
    exact .inr ⟨hid old, hversion old⟩
  · have hp : atKey RSSSubscription.id id g old = false := by
      rw [← hkey]
      simp [atKey, heq]
    rw [patch_of_false hp]
    exact .inl ⟨hold, heq⟩

theorem updateSubscription_ok {hashes : Hashes} {new input} {u : Unit}
    (h : updateSubscription hashes new now input db = .ok (u, db')) : ∃ sub, Raises sub db db' := by
  unfold updateSubscription at h
  split at h
  · cases h
  obtain ⟨_, _, ⟨⟩, h⟩ := Tx.bind_ok.mp h
  rcases hget : getRSSSubscription input.id db.resources with _ | ⟨current, series⟩
  · simp only [hget] at h
    cases h
  simp only [hget] at h
  split at h
  · cases h
  obtain ⟨row, db₁, hupdate, h⟩ := Tx.bind_ok.mp h
  obtain ⟨hpolls, hrow⟩ := raiseVersion_ok (f := RSSSubscription.update now input) (fun _ => rfl)
    (fun _ => rfl) (Tx.mapError_ok.mp hupdate)
  cases row with
  | none => cases h
  | some updated =>
    obtain ⟨sub, hmem, rfl, -, hrows⟩ := hrow updated rfl
    obtain ⟨_, db₂, hfollow, h⟩ := Tx.bind_ok.mp h
    obtain ⟨hpolls₂, hrows₂⟩ := leavesPolls_follow (pollsIn db₁) _ ⟨rfl, rfl⟩ hfollow
    obtain ⟨hrows₃, hadds⟩ := scheduleEnabledPoll_ok h
    exact ⟨sub, hmem, by rwa [hrows₃, hrows₂], by rwa [AddsPoll, hpolls₂, hpolls] at hadds⟩

theorem applyMappingProfile_ok {profileID : UUID} {u : Unit}
    (h : applyMappingProfile new id version profileID db = .ok (u, db')) :
    ∃ sub, Raises sub db db' := by
  obtain ⟨row, db₁, hupdate, h⟩ := Tx.bind_ok.mp h
  obtain ⟨hpolls, hrow⟩ := raiseVersion_ok (f := RSSSubscription.applyProfile profileID)
    (fun _ => rfl) (fun _ => rfl) (Tx.mapError_ok.mp hupdate)
  cases row with
  | none => cases h
  | some updated =>
    obtain ⟨sub, hmem, rfl, rfl, hrows⟩ := hrow updated rfl
    obtain ⟨hrows₂, hadds⟩ := scheduleContinuousPoll_ok h
    exact ⟨sub, hmem, by rwa [hrows₂], by rwa [AddsPoll, hpolls] at hadds⟩

/-- A new subscription starts with version 1. -/
theorem createSubscription_ok {new row} {tmdbSeriesID : Int} {u : Unit}
    (h : createSubscription new now row profile tmdbSeriesID db = .ok (u, db')) :
    (∀ sub ∈ db'.resources.rssSubscriptions.rows,
      sub ∈ db.resources.rssSubscriptions.rows ∨ sub.id = row.id ∧ sub.version = 1) ∧
    (∀ sub ∈ db.resources.rssSubscriptions.rows, sub.id ≠ row.id) ∧
    AddsPoll row.id 1 db db' := by
  obtain ⟨_, db₁, hinsert, h⟩ := Tx.bind_ok.mp h
  obtain ⟨r, hr, rfl⟩ := Tx.zoom_ok.mp (Tx.mapError_ok.mp hinsert)
  obtain ⟨hv, rfl⟩ := Slot.insert_ok.mp hr
  obtain ⟨_, db₂, hsync, h⟩ := Tx.bind_ok.mp h
  obtain ⟨hpolls₂, hrows₂⟩ := leavesPolls_sync _ _ ⟨rfl, rfl⟩ hsync
  obtain ⟨_, db₃, hevent, h⟩ := Tx.bind_ok.mp h
  obtain ⟨hpolls₃, hrows₃⟩ := leavesPolls_event _ _ ⟨hpolls₂, hrows₂⟩ hevent
  obtain ⟨hrows, hadds⟩ := scheduleEnabledPoll_ok h
  refine ⟨fun sub hsub => ?_, fun sub hsub heq => ?_, ?_⟩
  · rw [hrows, hrows₃] at hsub
    rcases List.mem_append.mp hsub with hsub | hsub
    · exact .inl hsub
    · cases List.mem_singleton.mp hsub
      exact .inr ⟨rfl, rfl⟩
  · have hpair := (List.pairwise_append.mp (hv.2 _ rssSubscriptions_pkey)).2.2 sub hsub _
      List.mem_cons_self
    simp [heq] at hpair
  · rwa [AddsPoll, hpolls₃] at hadds

/-! ### The invariant -/

/-- What holds of the polls `P`, the subscriptions `S` and the rows that reconcilers have listed:
no two live polls of one version, and no poll or listed row of a version still to come. -/
structure PollsSound (P : List Operation) (S : List RSSSubscription)
    (listed : List (UUID × Nat)) : Prop where
  one : ∀ id version, ∀ o ∈ P, ∀ o' ∈ P, o.polls id version = true → o'.polls id version = true →
    o.status.live = true → o'.status.live = true → o = o'
  polls : ∀ id version, ∀ o ∈ P, o.polls id version = true →
    ∀ sub ∈ S, sub.id = id → version ≤ sub.version
  listed : ∀ row ∈ listed, ∀ sub ∈ S, sub.id = row.1 → row.2 ≤ sub.version

namespace PollsSound

variable {P P' : List Operation} {S S' : List RSSSubscription} {listed : List (UUID × Nat)}

/-- Versions grow, and new subscriptions have no polls. -/
theorem grow (h : PollsSound P S listed)
    (hS : ∀ sub' ∈ S', (∃ sub ∈ S, sub.id = sub'.id ∧ sub.version ≤ sub'.version) ∨
      (∀ o ∈ P, ∀ version, o.polls sub'.id version = false) ∧
        ∀ row ∈ listed, row.1 ≠ sub'.id) : PollsSound P S' listed where
  one := h.one
  polls id version o ho hpolls sub' hsub' hid := by
    subst hid
    rcases hS sub' hsub' with ⟨sub, hsub, hid, hle⟩ | ⟨hfresh, -⟩
    · exact (h.polls _ version o ho hpolls sub hsub hid).trans hle
    · rw [hfresh o ho version] at hpolls
      cases hpolls
  listed row hrow sub' hsub' hid := by
    rcases hS sub' hsub' with ⟨sub, hsub, heq, hle⟩ | ⟨-, hfresh⟩
    · exact (h.listed row hrow sub hsub (heq.trans hid)).trans hle
    · exact absurd hid.symm (hfresh row hrow)

/-- A poll of a version that has no live poll. -/
theorem add (h : PollsSound P S listed) (hpolls : o.polls id version = true)
    (hversion : ∀ sub ∈ S, sub.id = id → version ≤ sub.version)
    (hdead : ∀ o' ∈ P, o'.polls id version = true → o'.status.live = false) :
    PollsSound (P ++ [o]) S listed where
  one id' version' a ha b hb hpa hpb hla hlb := by
    -- a live poll of `P` beside the new one would be of its version
    have dead {a : Operation} (ha : a ∈ P) (hpa : a.polls id' version' = true)
        (hpo : o.polls id' version' = true) (hla : a.status.live = true) : False := by
      obtain ⟨rfl, rfl⟩ := Operation.polls_inj hpolls hpo
      rw [hdead a ha hpa] at hla
      cases hla
    rcases List.mem_append.mp ha with ha | ha <;> rcases List.mem_append.mp hb with hb | hb
    · exact h.one id' version' a ha b hb hpa hpb hla hlb
    · cases List.mem_singleton.mp hb
      exact (dead ha hpa hpb hla).elim
    · cases List.mem_singleton.mp ha
      exact (dead hb hpb hpa hlb).elim
    · rw [List.mem_singleton.mp ha, List.mem_singleton.mp hb]
  polls id' version' a ha hpa sub hsub hid := by
    rcases List.mem_append.mp ha with ha | ha
    · exact h.polls id' version' a ha hpa sub hsub hid
    · cases List.mem_singleton.mp ha
      obtain ⟨rfl, rfl⟩ := Operation.polls_inj hpolls hpa
      exact hversion sub hsub hid
  listed := h.listed

/-- Polls come nearer to their ends. -/
theorem lead (h : PollsSound P S listed) (hP : ∀ o' ∈ P', ∃ o ∈ P, o.Leads o')
    (hid : ∀ a ∈ P', ∀ b ∈ P', a.id = b.id → a = b) : PollsSound P' S listed where
  one id version a ha b hb hpa hpb hla hlb := by
    obtain ⟨a₀, ha₀, hleadsa⟩ := hP a ha
    obtain ⟨b₀, hb₀, hleadsb⟩ := hP b hb
    rw [hleadsa.polls_eq] at hpa
    rw [hleadsb.polls_eq] at hpb
    obtain rfl := h.one id version a₀ ha₀ b₀ hb₀ hpa hpb (hleadsa.live hla) (hleadsb.live hlb)
    exact hid a ha b hb (hleadsa.id.trans hleadsb.id.symm)
  polls id version a ha hpa := by
    obtain ⟨a₀, ha₀, hleads⟩ := hP a ha
    rw [hleads.polls_eq] at hpa
    exact h.polls id version a₀ ha₀ hpa
  listed := h.listed

/-- A reconciler lists subscriptions with the versions they have. -/
theorem list {listed'} (h : PollsSound P S listed)
    (hrows : ∀ row ∈ listed', row ∈ listed ∨
      ∀ sub ∈ S, sub.id = row.1 → row.2 ≤ sub.version) : PollsSound P S listed' where
  one := h.one
  polls := h.polls
  listed row hrow := (hrows row hrow).elim (h.listed row) fun h => h

end PollsSound

/-- The subscriptions and versions that reconcilers have listed. -/
def PollSystem.listed (s : PollSystem) : List (UUID × Nat) :=
  s.missing.map (fun row => (row.id, row.version)) ++ s.due.map fun row => (row.id, row.version)

/-- The invariant in a state of the system. -/
def PollSystem.Sound (s : PollSystem) : Prop :=
  PollsSound (pollsIn s.db) s.db.resources.rssSubscriptions.rows s.listed

/-! ### Steps -/

section Steps

variable {a : PollAction}

theorem PollSystem.Fresh.unpolled (fresh : s.Fresh id) :
    ∀ o ∈ pollsIn s.db, ∀ version, o.polls id version = false := by
  intro o ho version
  rw [Bool.eq_false_iff]
  intro hpolls
  exact fresh.operations o (List.mem_of_mem_filter ho) (Operation.resource_of_polls hpolls)

theorem PollSystem.Fresh.unlisted (fresh : s.Fresh id) : ∀ row ∈ s.listed, row.1 ≠ id := by
  intro row hrow
  rcases List.mem_append.mp hrow with hrow | hrow
  · obtain ⟨row, hmem, rfl⟩ := List.mem_map.mp hrow
    exact fresh.missing row hmem
  · obtain ⟨row, hmem, rfl⟩ := List.mem_map.mp hrow
    exact fresh.due row hmem

/-- A command raised a version: there was no poll of the new one. -/
theorem PollSystem.Sound.raise {sub} (h : s.Sound) (raises : Raises sub s.db db') :
    { s with db := db' : PollSystem }.Sound := by
  have hold := raises.mem
  have grown : PollsSound (pollsIn s.db) db'.resources.rssSubscriptions.rows s.listed := by
    refine PollsSound.grow h fun row hrow => .inl ?_
    rcases raises.rows row hrow with ⟨hmem, -⟩ | ⟨hid, hversion⟩
    · exact ⟨row, hmem, rfl, le_refl _⟩
    · exact ⟨sub, hold, hid.symm, by omega⟩
  rcases raises.polls with hpolls | ⟨o, hpolls, ho⟩
  · rw [PollSystem.Sound, hpolls]
    exact grown
  rw [PollSystem.Sound, hpolls]
  refine grown.add ho (fun row hrow hid => ?_) fun o' ho' hpolls' => ?_
  · rcases raises.rows row hrow with ⟨-, hne⟩ | ⟨-, hversion⟩
    · exact absurd hid hne
    · exact hversion.ge
  · have hle := PollsSound.polls h _ _ o' ho' hpolls' sub hold rfl
    omega

theorem sound_create {new row} {tmdbSeriesID : Int} {u : Unit} (h : s.Sound)
    (fresh : s.Fresh row.id)
    (hrun : createSubscription new now row profile tmdbSeriesID s.db = .ok (u, db')) :
    { s with db := db' : PollSystem }.Sound := by
  obtain ⟨hrows, hnew, hadds⟩ := createSubscription_ok hrun
  have grown : PollsSound (pollsIn s.db) db'.resources.rssSubscriptions.rows s.listed := by
    refine PollsSound.grow h fun sub hsub => ?_
    rcases hrows sub hsub with hmem | ⟨hid, -⟩
    · exact .inl ⟨sub, hmem, rfl, le_refl _⟩
    · rw [hid]
      exact .inr ⟨fresh.unpolled, fresh.unlisted⟩
  rcases hadds with hpolls | ⟨o, hpolls, ho⟩
  · rw [PollSystem.Sound, hpolls]
    exact grown
  rw [PollSystem.Sound, hpolls]
  refine grown.add ho (fun sub hsub hid => ?_) fun o' ho' hpolls' => ?_
  · rcases hrows sub hsub with hmem | ⟨-, hversion⟩
    · exact absurd hid (hnew sub hmem)
    · exact hversion.ge
  · rw [fresh.unpolled o' ho' 1] at hpolls'
    cases hpolls'

/-- A reconciler schedules a row that it has listed. -/
theorem sound_schedule {key : String} {result} (h : s.Sound)
    (hlisted : (id, version) ∈ s.listed) (unpolled : Unpolled s.db id version key)
    (hrun : scheduleInTx new (continuousPollRequest id version key) s.db = .ok (result, db')) :
    { s with db := db' : PollSystem }.Sound := by
  obtain ⟨hrows, hpolls | ⟨hkey, o, hpolls, ho⟩⟩ := schedulePoll_ok hrun
  · rw [PollSystem.Sound, hpolls, hrows]
    exact h
  rw [PollSystem.Sound, hpolls, hrows]
  refine PollsSound.add h ho (PollsSound.listed h _ hlisted) fun o' ho' hpolls' => ?_
  exact unpolled hkey o' (List.mem_of_mem_filter ho') hpolls'

/-- A listed row has the version of its subscription. -/
def CurrentVersion (db : Database) (row : UUID × Nat) : Prop :=
  ∃ sub ∈ db.resources.rssSubscriptions.rows, row = (sub.id, sub.version)

theorem CurrentVersion.le {row : UUID × Nat} (h : CurrentVersion db row) :
    ∀ sub ∈ db.resources.rssSubscriptions.rows, sub.id = row.1 → row.2 ≤ sub.version := by
  obtain ⟨old, hold, rfl⟩ := h
  intro sub hsub hid
  rw [db.resources.rssSubscriptions.eq_of_key rssSubscriptions_pkey hsub hold hid]

theorem sound_lifecycle {call : LifecycleCall} (h : s.Sound) :
    { s with db := call.run s.db : PollSystem }.Sound := by
  have frame (S : Table rssSubscriptionSchema) : ResourceFrame fun r => r.rssSubscriptions = S :=
    ⟨fun _ _ h => h, fun _ _ h => h, fun _ _ h => h, fun _ _ h => h, fun _ _ h => h,
      fun _ _ h => h, fun _ _ h => h, fun _ _ h => h, fun _ _ h => h⟩
  obtain ⟨hoperations, hrows⟩ := call.led (frame s.db.resources.rssSubscriptions)
    (show s.db.resources.rssSubscriptions = _ from rfl)
  rw [PollSystem.Sound, hrows]
  refine PollsSound.lead h (fun o' ho' => ?_) fun o ho o' ho' hid => ?_
  · obtain ⟨hmem, hcontinuous⟩ := List.mem_filter.mp ho'
    obtain ⟨o, ho, leads⟩ := hoperations o' hmem
    refine ⟨o, List.mem_filter.mpr ⟨ho, ?_⟩, leads⟩
    rwa [leads.kind, leads.payload] at hcontinuous
  · exact (call.run s.db).operations.eq_of_key operations_pkey (List.mem_of_mem_filter ho)
      (List.mem_of_mem_filter ho') hid

theorem PollSystem.Sound.commit {α : Type} {m : DatabaseTx α} (h : s.Sound)
    (hrun : ∀ a db', m s.db = .ok (a, db') → { s with db := db' : PollSystem }.Sound) :
    { s with db := m.commit s.db : PollSystem }.Sound :=
  Tx.commit_preserves (I := fun db => { s with db : PollSystem }.Sound) h hrun

/-- **Steps.** One action keeps the invariant, if a reconciler schedules with care. -/
theorem PollAction.sound (h : s.Sound) (possible : a.Possible s) (careful : a.Careful s) :
    (a.run s).Sound := by
  cases a with
  | create new now row profile tmdbSeriesID =>
    exact h.commit fun _ _ => sound_create h possible
  | update hashes new now input =>
    refine h.commit fun _ _ hrun => ?_
    obtain ⟨sub, raises⟩ := updateSubscription_ok hrun
    exact h.raise raises
  | applyProfile new id version profileID =>
    refine h.commit fun _ _ hrun => ?_
    obtain ⟨sub, raises⟩ := applyMappingProfile_ok hrun
    exact h.raise raises
  | listDue now =>
    -- what a list adds has the current version of its subscription
    refine PollsSound.list h fun row hrow => ?_
    simp only [PollAction.run, PollSystem.listed, List.map_append, ← List.append_assoc] at hrow
    rcases List.mem_append.mp hrow with hrow | hrow
    · exact .inl hrow
    · obtain ⟨_, hdue, rfl⟩ := List.mem_map.mp hrow
      obtain ⟨sub, hsub, rfl⟩ := List.mem_map.mp hdue
      have hsub := (List.mem_insertionSort _).mp (List.mem_of_mem_take hsub)
      exact .inr (CurrentVersion.le ⟨sub, List.mem_of_mem_filter hsub, rfl⟩)
  | scheduleDue new row =>
    refine h.commit fun _ _ => sound_schedule h ?_ careful
    exact List.mem_append_right _ (List.mem_map.mpr ⟨row, possible, rfl⟩)
  | advanceDue now id =>
    refine h.commit fun _ _ hrun => ?_
    obtain ⟨r, hr, rfl⟩ := Tx.zoom_ok.mp hrun
    obtain ⟨-, _, rfl⟩ := Slot.updateOne_ok.mp hr
    -- only the time of the next poll changes
    refine PollsSound.grow h fun sub' hsub' => .inl ?_
    obtain ⟨sub, hsub, rfl⟩ := List.mem_map.mp hsub'
    refine ⟨sub, hsub, ?_⟩
    unfold patch
    split
    · exact ⟨rfl, le_refl _⟩
    · exact ⟨rfl, le_refl _⟩
  | listMissing =>
    refine PollsSound.list h fun row hrow => ?_
    simp only [PollAction.run, PollSystem.listed, List.map_append, List.append_assoc] at hrow
    rcases List.mem_append.mp hrow with hrow | hrow
    · exact .inl (List.mem_append_left _ hrow)
    rcases List.mem_append.mp hrow with hrow | hrow
    · obtain ⟨_, hmissing, rfl⟩ := List.mem_map.mp hrow
      obtain ⟨sub, hsub, rfl⟩ := List.mem_map.mp hmissing
      have hsub := (List.mem_insertionSort _).mp (List.mem_of_mem_take hsub)
      exact .inr (CurrentVersion.le ⟨sub, List.mem_of_mem_filter hsub, rfl⟩)
    · exact .inl (List.mem_append_right _ hrow)
  | scheduleMissing new row =>
    refine h.commit fun _ _ => sound_schedule h ?_ careful
    exact List.mem_append_left _ (List.mem_map.mpr ⟨row, possible, rfl⟩)
  | lifecycle call => exact sound_lifecycle h
  | schedule new request =>
    refine h.commit fun _ _ hrun => ?_
    obtain ⟨hpolls, hrows⟩ := leavesPolls_schedule possible _ _ ⟨rfl, rfl⟩ hrun
    rw [PollSystem.Sound, hpolls, hrows]
    exact h
  | elsewhere resources =>
    refine PollsSound.grow h fun row hrow => ?_
    rcases possible row hrow with hold | fresh
    · exact .inl hold
    · exact .inr ⟨fresh.unpolled, fresh.unlisted⟩

end Steps

/-- No poll has been scheduled, and no reconciler has listed anything. -/
structure PollSystem.Initial (s : PollSystem) : Prop where
  operations : pollsIn s.db = []
  due : s.due = []
  missing : s.missing = []

theorem PollSystem.Initial.sound (initial : s.Initial) : s.Sound := by
  rw [PollSystem.Sound, PollSystem.listed, initial.operations, initial.due, initial.missing]
  constructor <;> simp

/-- **One poll.** In every run in which the reconcilers schedule with care, whatever is done in
between, each version of a subscription has at most one live continuous poll. -/
theorem one_poll_of_careful {s₀ s : PollSystem} (initial : s₀.Initial)
    (run : Relation.ReflTransGen (PollStep CarefulAction) s₀ s) : OnePoll s.db := by
  have sound : s.Sound := by
    refine invariant_of_step (fun s s' step h => ?_) run initial.sound
    obtain ⟨a, ⟨possible, careful⟩, rfl⟩ := step
    exact a.sound h possible careful
  intro id version o ho o' ho' hpolls hpolls'
  exact PollsSound.one sound id version o ((mem_pollsIn hpolls).mpr ho) o'
    ((mem_pollsIn hpolls').mpr ho') hpolls hpolls'

end Polls

/-! ## Runs -/

section Runs

variable {ok : PollSystem → PollAction → Prop}

/-- The actions happen one after the other, each as `ok` allows. -/
def Performs (ok : PollSystem → PollAction → Prop) : PollSystem → List PollAction → Prop
  | _, [] => True
  | s, a :: rest => ok s a ∧ Performs ok (a.run s) rest

theorem Performs.run {actions} : ∀ {s : PollSystem}, Performs ok s actions →
    Relation.ReflTransGen (PollStep ok) s (actions.foldl PollAction.run s) := by
  induction actions with
  | nil => exact fun _ => .refl
  | cons a rest ih =>
    rintro s ⟨hok, hrest⟩
    exact .head ⟨a, hok, rfl⟩ (ih hrest)

end Runs

/-- A series with one episode, and nothing else. -/
def seriesWithEpisode : PollSystem where
  db := {
    resources := {
      mediaSeries := ⟨[{ id := 1, tmdbSeriesID := some 1399, title := "Series" }], by decide⟩
      tmdbSeasons := ⟨[{ id := 2, seriesID := 1, seasonNumber := 1 }], by decide⟩
      mediaEpisodes := ⟨[{ id := 3, seasonID := 2, episodeNumber := 1, title := "Pilot" }],
        by decide⟩ } }

def newSubscriptionOperations : NewPollCommand where
  sync := ⟨100, 1⟩
  poll := ⟨101, 2⟩
  materialization := fun id => ⟨200 + id, 3⟩
  review := fun id => ⟨300 + id, 4⟩

/-- An enabled subscription without a mapping profile. -/
def createUnmapped : PollAction :=
  .create newSubscriptionOperations 50 { id := 10, seriesID := 1 } none 1399

/-- Attempt `n` of an operation, which fails. -/
def failedAttempt (operationID : UUID) (code : String) (retryable : Bool) (n : Nat) :
    List PollAction :=
  [.lifecycle (.start 60 operationID n "worker"),
    .lifecycle (.fail 61 operationID n code "failed" retryable)]

theorem fresh_seriesWithEpisode : seriesWithEpisode.Fresh 10 :=
  ⟨by decide, by decide, by decide⟩

/-- The poll of the subscription fails for good, and the first reconciler brings it back. -/
def recoveredRun : List PollAction :=
  [createUnmapped] ++ failedAttempt 101 "rss_resource_mismatch" false 1 ++
    [.listDue 70, .scheduleDue ⟨102, 5⟩ ⟨10, 1, 1⟩]

theorem recoveredRun_careful : Performs CarefulAction seriesWithEpisode recoveredRun := by
  refine ⟨⟨fresh_seriesWithEpisode, trivial⟩, ⟨trivial, trivial⟩, ⟨trivial, trivial⟩,
    ⟨trivial, trivial⟩, ⟨?_, ?_⟩, trivial⟩
  · change (⟨10, 1, 1⟩ : DuePoll) ∈ _
    decide +kernel
  · change Unpolled _ _ _ _
    decide +kernel

/-- After the recovery the subscription has one live poll again. -/
theorem one_poll_recovered :
    ((recoveredRun.foldl PollAction.run seriesWithEpisode).db.operations.rows.filter fun o =>
      o.polls 10 1 && o.status.live).map Operation.id = [102] ∧
    OnePoll (recoveredRun.foldl PollAction.run seriesWithEpisode).db :=
  ⟨by decide +kernel, one_poll_of_careful ⟨rfl, rfl, rfl⟩ recoveredRun_careful.run⟩

/-- `RetryEntry` for an entry of the subscription. -/
def retryEntryPoll : PollAction :=
  .schedule ⟨103, 6⟩ {
    kind := .rssPoll, resource := some (.rssSubscription, 10), idempotencyKey := "rss.entry.retry:1"
    maxAttempts := 5, timeout := 30 * Duration.second
    payload := [("command", .string "retry-entry"), ("continuous", .bool false),
      ("entryId", .string "20"), ("expectedVersion", .number 1),
      ("subscriptionVersion", .number 1)] }

/-- The retry of an entry runs out of attempts, and the second reconciler comes by while the
continuous poll waits for its next turn. -/
def doublePollRun : List PollAction :=
  [createUnmapped, retryEntryPoll] ++
    [1, 2, 3, 4, 5].flatMap (failedAttempt 103 "rss_realtime_mapping_unavailable" true) ++
    [.listMissing, .scheduleMissing ⟨104, 7⟩ ⟨10, 1⟩]

/-- **Two polls.** The list of `ReconcilePreAcquisitionMappingPolls` does not ask whether a poll of
the subscription is live, as that of `ReconcileDuePolls` does. -/
theorem two_polls_recovered : seriesWithEpisode.Initial ∧
    Relation.ReflTransGen (PollStep fun s a => a.Possible s) seriesWithEpisode
      (doublePollRun.foldl PollAction.run seriesWithEpisode) ∧
    ¬ OnePoll (doublePollRun.foldl PollAction.run seriesWithEpisode).db := by
  refine ⟨⟨rfl, rfl, rfl⟩, Performs.run ?_, fun one => ?_⟩
  · refine ⟨fresh_seriesWithEpisode, rfl, trivial, trivial, trivial, trivial, trivial, trivial,
      trivial, trivial, trivial, trivial, trivial, ?_, trivial⟩
    change (⟨10, 1⟩ : MappingPoll) ∈ _
    decide +kernel
  · have hlive : ((doublePollRun.foldl PollAction.run seriesWithEpisode).db.operations.rows.filter
        fun o => o.polls 10 1 && o.status.live).map Operation.id = [101, 104] := by decide +kernel
    -- both are live polls of version 1
    have found (id : UUID) (hid : id ∈ [101, 104]) :
        ∃ o ∈ (doublePollRun.foldl PollAction.run seriesWithEpisode).db.operations.rows,
          o.id = id ∧ o.polls 10 1 = true ∧ o.status.live = true := by
      rw [← hlive] at hid
      obtain ⟨o, ho, rfl⟩ := List.mem_map.mp hid
      obtain ⟨hmem, ho⟩ := List.mem_filter.mp ho
      exact ⟨o, hmem, rfl, Bool.and_elim_left ho, Bool.and_elim_right ho⟩
    obtain ⟨a, ha, hida, hpa, hla⟩ := found 101 (by decide)
    obtain ⟨b, hb, hidb, hpb, hlb⟩ := found 104 (by decide)
    obtain rfl := one 10 1 a ha b hb hpa hpb hla hlb
    exact absurd (hida.symm.trans hidb) (by decide)

end EmbyAuto
