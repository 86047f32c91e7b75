import EmbyAuto.Operation.Refinement

/-!
# Resource updates violate no constraint

Failing or cancelling the resource of an operation never makes the transaction fail, as
long as the failure has a code and a message. What can still roll a lifecycle transaction
back is its own guards.

## Main results

* `failResource_succeeds`, `cancelOperationResource_succeeds`
-/

namespace EmbyAuto

open Relational Resources

variable {r : Resources} {id : UUID} {code message : String} {now : Timestamp}

/-- A failure that can be recorded: its code and its message have a visible character. -/
def Recordable (code message : String) : Prop := notBlank code = true ∧ notBlank message = true

instance : Decidable (Recordable code message) := inferInstanceAs (Decidable (_ ∧ _))

theorem appendEvent_succeeds {topic : String} {resource} {operationID : Option UUID} {data : JSON} :
    (appendEvent topic resource operationID data).Succeeds r :=
  ⟨_, rfl⟩

/-! ## Single updates -/

theorem markDownloadTerminalFailure_succeeds {expected stage}
    (h : DownloadStatus.cancelled ∉ expected) :
    (markDownloadTerminalFailure id code message expected stage).Succeeds r := by
  refine Slot.updateOne_succeeds.mpr ((downloadsSlot.table r).valid.map_patch ?_ ?_)
  · simp [downloadSchema, Download.fail]
  · -- a matched row was not cancelled, so failing it adds no row to the partial index
    intro u hu a b ha
    have hkeep : a.status ≠ .cancelled := by
      intro hc
      simp only [atKey, Bool.and_eq_true, decide_eq_true_eq] at ha
      exact h (hc ▸ ha.2)
    simp only [downloadSchema, List.mem_cons, List.not_mem_nil, or_false] at hu
    rcases hu with rfl | rfl | rfl
    · exact ⟨fun h => h, fun h => h⟩
    · exact ⟨fun h => h, fun h => h⟩
    · have hholds : (Download.fail stage code message a).holdsTorrent = a.holdsTorrent := by
        simp [Download.fail, Download.holdsTorrent, hkeep]
      simp only [hholds]
      exact ⟨fun h => h, fun h => h⟩

theorem markSearchRunTerminalFailure_succeeds :
    (markSearchRunTerminalFailure id code message).Succeeds r := by
  refine Slot.updateOne_succeeds.mpr ((searchRunsSlot.table r).valid.map_patch ?_ ?_)
  · simp [searchRunSchema]
  · simp [searchRunSchema]

theorem markSearchRunCancelled_succeeds : (markSearchRunCancelled id).Succeeds r := by
  refine Slot.updateOne_succeeds.mpr ((searchRunsSlot.table r).valid.map_patch ?_ ?_)
  · simp [searchRunSchema]
  · simp [searchRunSchema]

theorem markAgentResolutionOperationTerminal_succeeds {status} :
    (markAgentResolutionOperationTerminal id status code message).Succeeds r := by
  refine Slot.updateOne_succeeds.mpr ((agentResolutionsSlot.table r).valid.map_patch ?_ ?_)
  · simp [agentResolutionSchema]
  · simp [agentResolutionSchema]

theorem failEmbyScanRun_succeeds {status} (hstatus : status = .failed ∨ status = .cancelled)
    (h : Recordable code message) : (failEmbyScanRun now id status code message).Succeeds r := by
  obtain ⟨hcode, hmessage⟩ := h
  refine Slot.updateOne_succeeds.mpr ((embyScanRunsSlot.table r).valid.map_patch ?_ ?_)
  · rcases hstatus with rfl | rfl <;> simp [embyScanRunSchema, presentNotBlank, hcode, hmessage]
  · simp [embyScanRunSchema]

variable {statement : EpisodeTask.Statement}

/-- A statement on tasks that keeps the row's identity, moves its version up and keeps the
failure stage consistent violates no constraint. -/
theorem updateTask_succeeds
    (hid : ∀ t, ((statement.set t).id, (statement.set t).acquisitionID,
      (statement.set t).sourceVideoFileID) = (t.id, t.acquisitionID, t.sourceVideoFileID))
    (hversion : ∀ t, 0 < t.version → 0 < (statement.set t).version)
    (hstage : ∀ t, statement.guard t = true → (t.state = .failed) == t.failureStage.isSome →
      ((statement.set t).state = .failed) == (statement.set t).failureStage.isSome) :
    (updateTask id statement).Succeeds r := by
  simp only [Prod.mk.injEq] at hid
  refine Slot.updateOne_succeeds.mpr ((episodeTasksSlot.table r).valid.map_patch ?_ ?_)
  · intro c hc t _ hg
    simp only [atKey, Bool.and_eq_true] at hg
    simp only [episodeTaskSchema, List.mem_cons, List.not_mem_nil, or_false] at hc
    rcases hc with rfl | rfl
    · intro hv
      simpa using hversion t (by simpa using hv)
    · exact hstage t hg.2
  · intro u hu a b _
    simp only [episodeTaskSchema, List.mem_cons, List.not_mem_nil, or_false] at hu
    rcases hu with rfl | rfl <;> simp [hid a]

theorem endActiveImport_succeeds {set} (hset : ∀ i, ∃ status code message,
      ImportStatus.active status = false ∧ status ≠ .succeeded ∧
        set i = { i with status, errorCode := code, errorMessage := message }) :
    (endActiveImport id set).Succeeds r := by
  refine Tx.Succeeds.bind ⟨_, rfl⟩ fun _ r' _ => Slot.updateOne_succeeds.mpr
    ((importsSlot.table r').valid.map_patch ?_ ?_)
  · intro c hc i _ _ hi
    obtain ⟨status, code, message, -, hsucc, heq⟩ := hset i
    simp only [importSchema, List.mem_cons, List.not_mem_nil, or_false] at hc
    rcases hc with rfl | rfl | rfl <;> simp_all
  · intro u hu a b _
    obtain ⟨status, code, message, hactive, hsucc, heq⟩ := hset a
    simp only [importSchema, List.mem_cons, List.not_mem_nil, or_false] at hu
    rcases hu with rfl | rfl | rfl | rfl <;> simp [heq, hactive, hsucc]

theorem endActiveCleanup_succeeds {set} (hset : ∀ c,
      ∃ status code message, CleanupStatus.active status = false ∧
        set c = { c with status, errorCode := code, errorMessage := message }) :
    (endActiveCleanup id set).Succeeds r := by
  refine Tx.Succeeds.bind ⟨_, rfl⟩ fun _ r' _ => Slot.updateOne_succeeds.mpr
    ((cleanupRunsSlot.table r').valid.map_patch ?_ ?_)
  · intro c hc i _ _ hi
    obtain ⟨status, code, message, -, heq⟩ := hset i
    simp only [cleanupRunSchema] at hc
    simp_all
  · intro u hu a b _
    obtain ⟨status, code, message, hactive, heq⟩ := hset a
    simp only [cleanupRunSchema, List.mem_cons, List.not_mem_nil, or_false] at hu
    rcases hu with rfl | rfl | rfl <;> simp [heq, hactive]

/-! ## The resource of an operation -/

section Resource

variable {operation : Operation} {retryable : Bool}

theorem updateTask_fails_succeeds (kind : statement.Fails) :
    (updateTask id statement).Succeeds r := by
  apply updateTask_succeeds <;> cases kind <;>
    simp [EpisodeTask.markVideoTerminalFailure, EpisodeTask.markSubtitleTerminalFailure,
      EpisodeTask.markFinalizeTerminalFailure, EpisodeTask.markImportTerminalFailure,
      EpisodeTask.fail]

theorem updateTask_stops_succeeds (kind : statement.Stops) :
    (updateTask id statement).Succeeds r := by
  apply updateTask_succeeds <;> cases kind <;>
    simp [EpisodeTask.markVideoCancelled, EpisodeTask.markSubtitleCancelled,
      EpisodeTask.markFinalizeCancelled, EpisodeTask.cancelTaskImport, EpisodeTask.cancel]

theorem Ends.succeeds {S}
    {m} (h : Ends S m)
    (hS : ∀ {α update}, S α update → ∀ r, update.Succeeds r) : m.Succeeds r := by
  induction h generalizing r with
  | done => exact .pure () r
  | event => exact appendEvent_succeeds
  | statement h _ ih =>
    refine (context_succeeds (hS h r)).bind fun row r' _ => ?_
    cases row with
    | none => exact .pure () r'
    | some a => exact ih a
  | entry _ ih =>
    refine (context_succeeds (Tx.Succeeds.bind ⟨_, rfl⟩ fun _ r' _ => Slot.update_succeeds.mpr
      ((rssEntriesSlot.table r').valid.map_patch ?_ ?_))).bind fun _ _ _ => ih
    · simp [rssEntrySchema]
    · simp [rssEntrySchema]

/-- Failing the resource of an operation never fails the transaction. -/
theorem failResource_succeeds (h : Recordable code message) :
    (failResource now operation code message retryable).Succeeds r :=
  failResource_ends.succeeds fun hS r => by
    cases hS with
    | resolution => exact markAgentResolutionOperationTerminal_succeeds
    | download _ hexpected => exact markDownloadTerminalFailure_succeeds hexpected
    | search => exact markSearchRunTerminalFailure_succeeds
    | task _ kind => exact updateTask_fails_succeeds kind
    | «import» => exact endActiveImport_succeeds fun _ => ⟨.failed, _, _, rfl, nofun, rfl⟩
    | cleanup => exact endActiveCleanup_succeeds fun _ => ⟨.failed, _, _, rfl, rfl⟩
    | scan => exact failEmbyScanRun_succeeds (.inl rfl) h

/-- Cancelling the resource of an operation never fails the transaction. -/
theorem cancelOperationResource_succeeds : (cancelOperationResource now operation).Succeeds r :=
  cancelOperationResource_ends.succeeds fun hS r => by
    cases hS with
    | resolution => exact markAgentResolutionOperationTerminal_succeeds
    | scan => exact failEmbyScanRun_succeeds (.inr rfl) (by decide)
    | search => exact markSearchRunCancelled_succeeds
    | cleanup => exact endActiveCleanup_succeeds fun _ => ⟨.cancelled, _, _, rfl, rfl⟩
    | «import» => exact endActiveImport_succeeds fun _ => ⟨.cancelled, _, _, rfl, nofun, rfl⟩
    | task _ kind => exact updateTask_stops_succeeds kind

end Resource

/-! ## Lifecycle transactions whose guards hold -/

section Lifecycle

open Database

variable {db : Database} {o : Operation} {n : Int}

theorem requireRow_succeeds {σ α : Type} {m : Tx Fault σ (Option α)} {s : σ} (h : m.Succeeds s)
    (hrow : ∀ s', m s ≠ .ok (none, s')) : (requireRow m).Succeeds s := by
  obtain ⟨⟨row, s'⟩, hm⟩ := h
  cases row with
  | none => exact absurd hm (hrow s')
  | some a => exact ⟨(a, s'), requireRow_ok.mpr hm⟩

/-- Ending a running attempt succeeds; a failure needs a code and a message. -/
theorem finishOperationAttempt_succeeds {status} {errorCode errorMessage}
    (hrunning : ∃ a ∈ attemptsOf db id, runningAttempt id n a = true) (ended : status ≠ .running)
    (hfailed : status = .failed → presentNotBlank errorCode = true ∧
      presentNotBlank errorMessage = true) :
    (requireRow (finishOperationAttempt now id n status errorCode errorMessage)).Succeeds db := by
  refine requireRow_succeeds (Slot.updateOne_succeeds.mpr
    ((attemptsSlot.table db).valid.map_patch ?_ ?_)) fun db' h => ?_
  · intro c hc a _ _ hca
    simp only [operationAttemptSchema, List.mem_cons, List.not_mem_nil, or_false] at hc
    rcases hc with rfl | rfl | rfl
    · exact hca
    · simp [OperationAttempt.close, ended]
    · by_cases hs : status = .failed
      · simp [OperationAttempt.close, hfailed hs]
      · simp [OperationAttempt.close, hs]
  · intro u hu a b _
    simp only [operationAttemptSchema, List.mem_cons, List.not_mem_nil, or_false] at hu
    subst hu
    exact ⟨fun h => h, fun h => h⟩
  · obtain ⟨a, ha, hrun⟩ := hrunning
    have hnone := (Slot.updateOne_none h).1 a (mem_attemptsOf.mp ha).1
    rw [hrun] at hnone
    cases hnone

/-- What an update of an operation has to respect for the table to take the row. -/
structure Operation.Accepted (o o' : Operation) : Prop where
  identity : o'.id = o.id ∧ o'.idempotencyKey = o.idempotencyKey
  limits : o'.maxAttempts = o.maxAttempts ∧ o'.timeoutSeconds = o.timeoutSeconds
  payload : o'.payload = o.payload
  count : o'.attemptCount ≤ o.attemptCount
  finished : o.status.live = o.finishedAt.isNone → o'.status.live = o'.finishedAt.isNone
  failure : o'.status = .failed →
    presentNotBlank o'.errorCode = true ∧ presentNotBlank o'.errorMessage = true

theorem Operation.Accepted.checks {o o' : Operation} (h : Operation.Accepted o o')
    (ho : ∀ c ∈ operationSchema.checks, c.2 o = true) :
    ∀ c ∈ operationSchema.checks, c.2 o' = true := by
  simp only [operationSchema, List.forall_mem_cons, decide_eq_true_eq, beq_iff_eq] at ho ⊢
  obtain ⟨hkey, hmax, hcount, htimeout, hpayload, hfinished, -, -⟩ := ho
  refine ⟨?_, ?_, ?_, ?_, ?_, h.finished hfinished, ?_, nofun⟩
  · rw [h.identity.2]
    exact hkey
  · rw [h.limits.1]
    exact hmax
  · rw [h.limits.1]
    exact h.count.trans hcount
  · rw [h.limits.2]
    exact htimeout
  · rw [h.payload]
    exact hpayload
  · by_cases hfailed : o'.status = .failed
    · simp [h.failure hfailed]
    · simp [hfailed]

/-- An update of an operation that satisfies its guard succeeds if the table takes the row. -/
theorem updateOperation_succeeds {g f} (ho : findOperation db id = some o) (hg : g o = true)
    (hf : ∀ o, g o = true → Operation.Accepted o (f o)) :
    (requireRow (operationsSlot.updateOne (atKey Operation.id id g) f :
      DatabaseTx _)).Succeeds db := by
  have hguard {o} (hp : atKey Operation.id id g o = true) : g o = true :=
    (Bool.and_eq_true_iff.mp hp).2
  refine requireRow_succeeds (Slot.updateOne_succeeds.mpr
    ((operationsSlot.table db).valid.map_patch ?_ ?_)) fun db' h => ?_
  · intro c hcm o hmem hp _
    exact (hf o (hguard hp)).checks (fun c hc => (operationsSlot.table db).valid.1 c hc o hmem)
      c hcm
  · intro u hu a b hp
    have hkept := (hf a (hguard hp)).identity
    simp only [operationSchema, List.mem_cons, List.not_mem_nil, or_false] at hu
    rcases hu with rfl | rfl <;> simp [hkept]
  · have hnone := (Slot.updateOne_none h).1 o (mem_of_lookup ho)
    simp [atKey, id_of_findOperation ho, hg] at hnone

theorem appendOperationEvent_succeeds {topic : String} {data} :
    (appendOperationEvent o topic data).Succeeds db :=
  Tx.Succeeds.zoom appendEvent_succeeds

theorem cancelRunningAttempt_succeeds {text : String} (ho : findOperation db id = some o)
    (hlive : o.status.live = true)
    (hrunning : ∃ a ∈ attemptsOf db id, runningAttempt id (int32 n) a = true) :
    (cancelRunningAttempt now id n text).Succeeds db := by
  refine Tx.Succeeds.bind (context_succeeds
    (finishOperationAttempt_succeeds hrunning (by rintro ⟨⟩) (by rintro ⟨⟩))) fun _ db₁ h₁ => ?_
  have ho₁ : findOperation db₁ id = some o := by
    rw [findOperation, (finish_ok (requireRow_ok.mp (context_ok.mp h₁))).2.operations]
    exact ho
  refine Tx.Succeeds.bind (context_succeeds (updateOperation_succeeds ho₁ hlive fun _ _ =>
    ⟨⟨rfl, rfl⟩, ⟨rfl, rfl⟩, rfl, Nat.le_refl _, fun _ => rfl, by rintro ⟨⟩⟩)) fun _ _ _ => ?_
  refine Tx.Succeeds.bind (Tx.Succeeds.zoom cancelOperationResource_succeeds) fun _ _ _ => ?_
  exact appendOperationEvent_succeeds

/-- An attempt in progress: it and its operation are running. -/
structure InProgress (id : UUID) (n : Int) (o : Operation) (db : Database) : Prop where
  found : findOperation db id = some o
  running : o.status = .running
  counted : 0 < o.attemptCount
  attempt : ∃ a ∈ attemptsOf db id, runningAttempt id (int32 n) a = true

theorem InProgress.live (h : InProgress id n o db) : o.status.live = true := by
  rw [h.running]
  rfl

/-- The operation is still there after an update of the attempts. -/
theorem InProgress.found_of_attempts (h : InProgress id n o db) {db₁ : Database}
    (hops : db₁.operations = db.operations) : findOperation db₁ id = some o := by
  rw [findOperation, hops]
  exact h.found

theorem succeedAttempt_succeeds_iff (h : InProgress id n o db) :
    (succeedAttempt now id n).Succeeds db ↔ o.cancelRequestedAt = none := by
  constructor
  · rintro ⟨⟨_, db'⟩, hok⟩
    simp only [succeedAttempt, Tx.bind_ok, context_ok, requireRow_ok] at hok
    obtain ⟨_, db₁, hfinish, _, db₂, hcomplete, -⟩ := hok
    obtain ⟨o₁, ho₁, -, huncancelled, -⟩ := completeOperation_some hcomplete
    rw [h.found_of_attempts (finish_ok hfinish).2.operations] at ho₁
    cases ho₁
    exact huncancelled
  · intro huncancelled
    refine Tx.Succeeds.bind (context_succeeds
      (finishOperationAttempt_succeeds h.attempt (by rintro ⟨⟩) (by rintro ⟨⟩))) fun _ db₁ h₁ => ?_
    have ho₁ := h.found_of_attempts (finish_ok (requireRow_ok.mp (context_ok.mp h₁))).2.operations
    refine Tx.Succeeds.bind (context_succeeds (updateOperation_succeeds ho₁
      (undisturbed_iff.mpr ⟨h.running, huncancelled⟩) fun _ _ => ?_))
      fun _ _ _ => appendOperationEvent_succeeds
    exact ⟨⟨rfl, rfl⟩, ⟨rfl, rfl⟩, rfl, Nat.le_refl _, fun _ => rfl, by rintro ⟨⟩⟩

/-- At most one attempt has a given number. -/
theorem countP_runningAttempt_le_one :
    (attemptsOf db id).countP (runningAttempt id n) ≤ 1 := by
  have hpair := ((db.operationAttempts.valid.2 _ operation_attempts_key).filter
    fun a => a.operationID = id).filter (runningAttempt id n)
  rw [List.countP_eq_length_filter]
  change ((attemptsOf db id).filter (runningAttempt id n)).Pairwise _ at hpair
  have hmem : ∀ a ∈ (attemptsOf db id).filter (runningAttempt id n),
      a.operationID = id ∧ a.attempt = n := by
    intro a ha
    have := (List.mem_filter.mp ha).2
    simp only [runningAttempt, Bool.and_eq_true, decide_eq_true_eq] at this
    exact this.1
  rcases hl : (attemptsOf db id).filter (runningAttempt id n) with _ | ⟨a, _ | ⟨b, _⟩⟩
  · simp
  · simp
  · rw [hl] at hpair hmem
    have hab := (List.pairwise_cons.mp hpair).1 b List.mem_cons_self
    have ha := hmem a List.mem_cons_self
    have hb := hmem b (List.mem_cons_of_mem _ List.mem_cons_self)
    simp [ha, hb] at hab

theorem InProgress.countP_attempt (h : InProgress id n o db) :
    (attemptsOf db id).countP (runningAttempt id (int32 n)) = 1 :=
  Nat.le_antisymm countP_runningAttempt_le_one (List.countP_pos_iff.mpr h.attempt)

theorem snoozeAttempt_succeeds_iff (h : InProgress id n o db) :
    (snoozeAttempt id n).Succeeds db ↔ o.cancelRequestedAt = none := by
  constructor
  · rintro ⟨⟨_, db'⟩, hok⟩
    simp only [snoozeAttempt, Tx.bind_ok, context_ok] at hok
    obtain ⟨_, db₁, hdelete, hok⟩ := hok
    split at hok
    · simp at hok
    · simp only [Tx.bind_ok, context_ok, requireRow_ok] at hok
      obtain ⟨_, _, hsnooze, -⟩ := hok
      obtain ⟨o₁, ho₁, -, huncancelled, -⟩ := snoozeOperation_some hsnooze
      rw [h.found_of_attempts (deleteSnoozed_ok hdelete).2.operations] at ho₁
      cases ho₁
      exact huncancelled
  · intro huncancelled
    refine Tx.Succeeds.bind (context_succeeds ⟨_, Slot.delete_ok.mpr ⟨rfl, rfl⟩⟩)
      fun deleted db₁ h₁ => ?_
    obtain ⟨hcount, hup⟩ := deleteSnoozed_ok (context_ok.mp h₁)
    have hone : deleted = 1 := hcount.trans h.countP_attempt
    have ho₁ := h.found_of_attempts hup.operations
    simp only [hone]
    refine Tx.Succeeds.bind (context_succeeds (updateOperation_succeeds ho₁ ?_
      fun o hg => ?_)) fun _ _ _ => .pure () _
    · exact Bool.and_eq_true_iff.mpr
        ⟨undisturbed_iff.mpr ⟨h.running, huncancelled⟩, decide_eq_true h.counted⟩
    · have hrun := (undisturbed_iff.mp (Bool.and_eq_true_iff.mp hg).1).1
      exact ⟨⟨rfl, rfl⟩, ⟨rfl, rfl⟩, rfl, Nat.sub_le _ _, fun hfin => by rwa [hrun] at hfin,
        by rintro ⟨⟩⟩

theorem failAttempt_succeeds_iff {code message : String} {retryable : Bool}
    (h : InProgress id n o db) : (failAttempt now id n code message retryable).Succeeds db ↔
      o.cancelRequestedAt.isSome ∨ Recordable code message := by
  have hlock : (context "lock failed operation" (requireRow (lockOperation id))) db =
      .ok (o, db) := context_ok.mpr (requireRow_ok.mpr (Slot.selectOne_ok.mpr
        (Prod.ext h.found.symm rfl)))
  constructor
  · rintro ⟨⟨_, db'⟩, hok⟩
    rw [failAttempt, Tx.bind_of_ok hlock] at hok
    split at hok
    · next hreq => exact .inl hreq
    · simp only [Tx.bind_ok, context_ok, requireRow_ok] at hok
      obtain ⟨a', db₁, hfinish, -⟩ := hok
      -- the recorded attempt satisfies the check on failed attempts
      obtain ⟨hr, hv, -⟩ := Slot.updateOne_ok.mp hfinish
      obtain ⟨a, ha, rfl⟩ := Option.map_eq_some_iff.mp hr.symm
      have hmem := List.mem_map_of_mem (f := patch (runningAttempt id (int32 n))
        (OperationAttempt.close now .failed (some code) (some message)))
        (List.mem_of_find?_eq_some ha)
      rw [patch_of_true (List.find?_some ha)] at hmem
      have hcheck := hv.1 ("operation_attempts_failure_error_required", _)
        (by simp [operationAttemptSchema]; rfl) _ hmem
      exact .inr (by simpa [OperationAttempt.close, presentNotBlank, Recordable] using hcheck)
  · intro hcond
    refine Tx.Succeeds.bind ⟨_, hlock⟩ fun o₁ db₁ h₁ => ?_
    rw [hlock] at h₁
    cases h₁
    split
    · exact cancelRunningAttempt_succeeds h.found h.live h.attempt
    · next hreq =>
      have hrec : Recordable code message := hcond.resolve_left hreq
      have huncancelled : o.cancelRequestedAt = none := by simpa using hreq
      refine Tx.Succeeds.bind (context_succeeds
        (finishOperationAttempt_succeeds h.attempt (by rintro ⟨⟩)
        fun _ => hrec)) fun _ db₂ h₂ => ?_
      have ho₂ := h.found_of_attempts (finish_ok (requireRow_ok.mp (context_ok.mp h₂))).2.operations
      split
      · next hretry =>
        refine Tx.Succeeds.bind (context_succeeds (updateOperation_succeeds ho₂ ?_
          fun o hg => ?_)) fun _ _ _ => appendOperationEvent_succeeds
        · exact Bool.and_eq_true_iff.mpr ⟨undisturbed_iff.mpr ⟨h.running, huncancelled⟩,
            (Bool.and_eq_true_iff.mp hretry).2⟩
        · have hrun := (undisturbed_iff.mp (Bool.and_eq_true_iff.mp hg).1).1
          exact ⟨⟨rfl, rfl⟩, ⟨rfl, rfl⟩, rfl, Nat.le_refl _, fun hfin => by rwa [hrun] at hfin,
            by rintro ⟨⟩⟩
      · refine Tx.Succeeds.bind (Tx.Succeeds.zoom (failResource_succeeds hrec)) fun _ db₃ h₃ => ?_
        have ho₃ : findOperation db₃ id = some o := by
          rw [findOperation, (onResources_ok h₃).1]
          exact ho₂
        refine Tx.Succeeds.bind (context_succeeds (updateOperation_succeeds ho₃ h.live
          fun _ _ => ?_)) fun _ _ _ => appendOperationEvent_succeeds
        exact ⟨⟨rfl, rfl⟩, ⟨rfl, rfl⟩, rfl, Nat.le_refl _, fun _ => rfl, fun _ => hrec⟩

end Lifecycle

end EmbyAuto
