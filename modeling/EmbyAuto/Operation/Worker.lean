import EmbyAuto.Operation.Safety
import EmbyAuto.Operation.Totality

/-!
# The worker of an operation

`operationWorker.Work` starts an attempt, runs the handler next to a heartbeat, and records
how the attempt ended in one more transaction. Between the last heartbeat and that
transaction a cancellation request can commit without the worker noticing it.

## Main definitions

* `WorkEvent`: what happens around a running handler
* `Watch`: what the worker knows about its context, with the database
* `Ending`, `ending`: how `Work` decides to end the attempt
* `work`: `operationWorker.Work`
* `Settled`: neither the attempt nor its operation is running
-/

namespace EmbyAuto

open Relational

/-- What a handler returns. -/
inductive HandlerResult where
  | success
  /-- an error that wraps a `river.JobSnoozeError` -/
  | snooze (message : String)
  /-- an error that wraps a `Failure` -/
  | failure (code message : String) (retryable : Bool)
  /-- any other error -/
  | error (message : String)
  deriving DecidableEq

/-- `ctx.Err()` of an ended context. -/
inductive Interruption where
  | canceled | deadlineExceeded
  deriving DecidableEq

def Interruption.text : Interruption → String
  | canceled => "context canceled"
  | deadlineExceeded => "context deadline exceeded"

/-- `context.Cause` of the handler's context, apart from the worker's own end mark. -/
inductive Cause where
  | cancellationRequested
  | interrupted (i : Interruption)
  deriving DecidableEq

def Cause.text : Cause → String
  | cancellationRequested => "operation cancellation was requested"
  | interrupted i => i.text

/-- The failure that a worker records. -/
structure Failure where
  code : String
  message : String
  retryable : Bool

def classifyFailure (result : HandlerResult) (cause : Option Cause) : Failure :=
  match result, cause with
  | .failure code message retryable, _ => ⟨code, message, retryable⟩
  | _, some c => ⟨"operation_interrupted", c.text, true⟩
  | .success, none => ⟨"operation_failed", "operation failed without an error", true⟩
  | .snooze message, none | .error message, none => ⟨"operation_failed", message, true⟩

/-- What happens while the handler runs and until the end of the attempt is recorded. -/
inductive WorkEvent where
  /-- the heartbeat's ticker fires -/
  | heartbeat
  /-- a command requests the cancellation of the operation -/
  | requestCancellation (now : Timestamp)
  /-- the job's own context ends -/
  | interrupt (i : Interruption)
  /-- the handler or other code changes the resource tables -/
  | elsewhere (r : Resources)

/-- The database, the cause that ended the handler's context and the error of the job's. -/
structure Watch where
  db : Database
  cause : Option Cause := none
  ctxErr : Option Interruption := none

namespace Watch

variable (id : UUID) (attempt : Int)

/-- While the handler runs, a heartbeat that finds the attempt dead ends its context. -/
def step (w : Watch) : WorkEvent → Watch
  | .heartbeat =>
    if w.cause.isNone && (heartbeat id attempt).result? w.db = some false then
      { w with cause := some .cancellationRequested }
    else w
  | .requestCancellation now => { w with db := (requestOperationCancellation now id).commit w.db }
  | .interrupt i =>
    { w with cause := w.cause.or (some (.interrupted i)), ctxErr := w.ctxErr.or (some i) }
  | .elsewhere r => { w with db := { w.db with resources := r } }

/-- After the handler returned its context is over, so the cause is settled. -/
def stepReturned (w : Watch) (e : WorkEvent) : Watch :=
  { w.step id attempt e with cause := w.cause }

/-- The state in which the end of the attempt is recorded. -/
def run (db : Database) (during after : List WorkEvent) : Watch :=
  after.foldl (stepReturned id attempt) (during.foldl (step id attempt) { db })

end Watch

/-- How `Work` ends an attempt. -/
inductive Ending where
  | cancel | interrupt | snooze | succeed
  | fail (failure : Failure)

def ending (w : Watch) (result : HandlerResult) : Ending :=
  if w.cause = some .cancellationRequested then .cancel
  else if w.ctxErr = some .canceled then .interrupt
  else match result, w.cause with
    | .snooze _, none => .snooze
    | .success, none => .succeed
    | _, _ => .fail (classifyFailure result w.cause)

/-- The transaction that records the end of an attempt. -/
def Ending.record (now : Timestamp) (id : UUID) (attempt : Int) : Ending → DatabaseTx Unit
  | cancel => context "record operation cancellation" (cancelAttempt now id attempt)
  | interrupt => context "record interrupted operation snooze" (snoozeAttempt id attempt)
  | snooze => context "record operation snooze" (snoozeAttempt id attempt)
  | succeed => context "record successful operation" (succeedAttempt now id attempt)
  | fail f => context "record failed operation"
      (failAttempt now id attempt f.code f.message f.retryable)

/-- What `Work` tells River about the job. -/
inductive JobOutcome where
  | done
  | cancelJob (reason : String)
  | snoozeJob
  | retry (failure : Failure)
  | error (fault : Fault)

def Ending.outcome : Ending → JobOutcome
  | cancel => .cancelJob Cause.cancellationRequested.text
  | interrupt | snooze => .snoozeJob
  | succeed => .done
  | fail f => if f.retryable then .retry f else .cancelJob f.message

/-- `errors.Is` through the texts around an error. -/
def Fault.is (target : Fault) : Fault → Bool
  | .wrap _ cause => Fault.is target cause
  | fault => fault = target

/-- `operationWorker.Work` on a database, with everything that happens around it. -/
def work (startedAt endedAt : Timestamp) (id : UUID) (attempt : Int) (workerID : String)
    (during after : List WorkEvent) (result : HandlerResult) (db : Database) :
    JobOutcome × Database :=
  match startAttempt startedAt id attempt workerID db with
  | .error fault =>
    if Fault.is .operationNotRunnable fault then (.cancelJob "operation is not runnable", db)
    else (.error (.wrap "start operation audit" fault), db)
  | .ok (operation, db) =>
    if operation.status = .cancelled then (.cancelJob Cause.cancellationRequested.text, db)
    else
      let w := Watch.run id attempt db during after
      let e := ending w result
      match e.record endedAt id attempt w.db with
      | .ok (_, db) => (e.outcome, db)
      | .error fault => (.error fault, w.db)

/-- The attempt is no longer running, and neither is the operation. -/
structure Settled (id : UUID) (attempt : Int) (db : Database) : Prop where
  attempt : ∀ a ∈ attemptsOf db id, a.attempt = int32 attempt → a.isRunning = false
  operation : ∀ o, findOperation db id = some o → o.status ≠ .running

/-! ## Which runs strand the attempt

The conditions read only what happens to the worker: the events around the handler and the
handler's result. -/

/-- A cancellation request is among the events. -/
def requested (events : List WorkEvent) : Bool :=
  events.any fun
    | .requestCancellation _ => true
    | _ => false

/-- The first end of the job's own context. -/
def interruption (events : List WorkEvent) : Option Interruption :=
  events.findSome? fun
    | .interrupt i => some i
    | _ => none

/-- A heartbeat follows a cancellation request before the context ends; `pending` says that
one was requested already. -/
def noticed (pending : Bool) : List WorkEvent → Bool
  | [] => false
  | .heartbeat :: events => pending || noticed pending events
  | .requestCancellation _ :: events => noticed true events
  | .interrupt _ :: _ => false
  | .elsewhere _ :: events => noticed pending events

/-- The handler's failure has no code or no message to record. -/
def Unrecordable (interrupted : Option Interruption) : HandlerResult → Prop
  | .failure code message _ => ¬ Recordable code message
  | .error message => interrupted = none ∧ notBlank message = false
  | _ => False

/-- The transaction that should record the end of the attempt fails. With a request the
worker has not noticed, only `FailAttempt` takes the cancellation over; without one, only a
failure that cannot be recorded fails. -/
def Stranded (during after : List WorkEvent) (result : HandlerResult) : Prop :=
  noticed false during = false ∧
    if requested (during ++ after) then
      interruption (during ++ after) = some .canceled ∨
        interruption during = none ∧ (result = .success ∨ ∃ message, result = .snooze message)
    else
      interruption (during ++ after) ≠ some .canceled ∧ Unrecordable (interruption during) result

/-! ## What the worker knows when the handler has returned -/

section Watch

variable {id : UUID} {n : Int} {o : Operation} {db : Database} {w : Watch} {pending : Bool}
variable {e : WorkEvent} {events : List WorkEvent}

/-- A heartbeat finds an attempt in progress alive until a cancellation is requested. -/
theorem heartbeat_inProgress (h : InProgress id n o db) :
    (heartbeat id n).result? db = some o.cancelRequestedAt.isNone := by
  have hattempt : (db.operationAttempts.rows.filter (runningAttempt id (int32 n))).length = 1 := by
    rw [← h.countP_attempt, attemptsOf, List.countP_filter, ← List.countP_eq_length_filter]
    refine List.countP_congr fun a _ => ?_
    simp only [runningAttempt, Bool.and_eq_true]
    tauto
  -- a requested cancellation is what makes the first statement match no row
  have hrows : (db.operations.rows.filter
      (atKey Operation.id id Operation.undisturbed)).length = 0 ↔
      o.cancelRequestedAt.isSome := by
    rw [List.length_eq_zero_iff, List.filter_eq_nil_iff]
    constructor
    · intro hnone
      have ho := hnone o (mem_of_lookup h.found)
      simpa [atKey, id_of_findOperation h.found, Operation.undisturbed, h.running,
        Option.isSome_iff_ne_none] using ho
    · intro hsome r hr hp
      simp only [atKey, Bool.and_eq_true, decide_eq_true_eq] at hp
      have hro := findOperation_of_mem hr
      rw [hp.1, h.found] at hro
      cases hro
      rw [(undisturbed_iff.mp hp.2).2] at hsome
      cases hsome
  have hop : context "heartbeat operation" (heartbeatOperation id) db =
      .ok ((db.operations.rows.filter
      (atKey Operation.id id Operation.undisturbed)).length, db) := rfl
  have hat : context "heartbeat operation attempt" (heartbeatOperationAttempt id (int32 n)) db =
      .ok ((db.operationAttempts.rows.filter (runningAttempt id (int32 n))).length, db) := rfl
  have hrun : heartbeat id n db = .ok (o.cancelRequestedAt.isNone, db) := by
    rw [heartbeat, Tx.bind_of_ok hop]
    cases hc : o.cancelRequestedAt with
    | some _ =>
      rw [hc] at hrows
      rw [if_pos (hrows.mpr rfl)]
      rfl
    | none =>
      rw [hc] at hrows
      rw [if_neg (fun hzero => Bool.false_ne_true (hrows.mp hzero))]
      exact congrArg (fun k : Nat => Except.ok (decide (k = 1), db)) hattempt
  rw [Tx.result?, hrun]

/-- A cancellation request is recorded and leaves the attempt in progress. -/
theorem InProgress.requestCancellation (h : InProgress id n o db) (now : Timestamp) :
    InProgress id n (o.requestCancellation now)
      ((requestOperationCancellation now id).commit db) := by
  obtain ⟨⟨o₁, db'⟩, hrow⟩ := updateOperation_succeeds (g := fun o => o.status.live)
    (f := Operation.requestCancellation now) h.found h.live fun o hlive =>
      ⟨⟨rfl, rfl⟩, ⟨rfl, rfl⟩, rfl, Nat.le_refl _, fun hfin => hfin, fun hs => by
        rw [show o.status = .failed from hs] at hlive
        cases hlive⟩
  have hok : requestOperationCancellation now id db = .ok (some o₁, db') := requireRow_ok.mp hrow
  obtain ⟨o₂, ho₂, -, hup⟩ := requestOperationCancellation_some hok
  rw [h.found] at ho₂
  cases ho₂
  rw [Tx.commit_of_ok hok]
  exact ⟨hup.here, h.running, h.counted, by
    rw [attemptsOf, hup.attempts]
    exact h.attempt⟩

/-- The attempt is in progress, and `pending` says whether cancellation was requested. -/
def Tracks (id : UUID) (n : Int) (pending : Bool) (db : Database) : Prop :=
  ∃ o, InProgress id n o db ∧ o.cancelRequestedAt.isSome = pending

/-- Events leave the attempt in progress, whatever the worker does about them. -/
theorem Watch.step_tracks (h : Tracks id n pending w.db) (e : WorkEvent) :
    Tracks id n (pending || requested [e]) (w.step id n e).db := by
  obtain ⟨o, ho, rfl⟩ := h
  cases e with
  | heartbeat =>
    refine ⟨o, ?_, by simp [requested]⟩
    simp only [Watch.step]
    split <;> exact ho
  | requestCancellation now =>
    exact ⟨_, ho.requestCancellation now, by
      cases hc : o.cancelRequestedAt <;> simp [requested, Operation.requestCancellation]⟩
  | interrupt i => exact ⟨o, ho, by simp [requested]⟩
  | elsewhere r =>
    exact ⟨o, ⟨ho.found, ho.running, ho.counted, ho.attempt⟩, by simp [requested]⟩

theorem Watch.step_ctxErr (id : UUID) (n : Int) (w : Watch) (e : WorkEvent) :
    (w.step id n e).ctxErr = w.ctxErr.or (interruption [e]) := by
  cases e with
  | heartbeat =>
    simp only [Watch.step]
    split <;> simp [interruption]
  | _ => simp [Watch.step, interruption]

/-- A heartbeat ends the handler's context if cancellation was requested. -/
theorem Watch.step_heartbeat_cause (h : Tracks id n pending w.db) : (w.step id n .heartbeat).cause =
      w.cause.or (if pending then some .cancellationRequested else none) := by
  obtain ⟨o, ho, rfl⟩ := h
  simp only [Watch.step, heartbeat_inProgress ho]
  cases hcause : w.cause <;> cases hc : o.cancelRequestedAt <;> simp [hcause]

theorem requested_cons : requested (e :: events) = (requested [e] || requested events) := by
  simp [requested]

theorem interruption_cons :
    interruption (e :: events) = (interruption [e]).or (interruption events) := by
  rw [← List.singleton_append, interruption, List.findSome?_append]
  rfl

/-- What the worker knows when the handler has returned: the first cause ends its context. -/
theorem Watch.foldl_step (h : Tracks id n pending w.db) (events : List WorkEvent) :
    let w' := events.foldl (Watch.step id n) w
    Tracks id n (pending || requested events) w'.db ∧
      w'.ctxErr = w.ctxErr.or (interruption events) ∧
      w'.cause = w.cause.or (if noticed pending events then some .cancellationRequested
        else (interruption events).map .interrupted) := by
  induction events generalizing w pending with
  | nil => simpa [requested, interruption, noticed] using h
  | cons e events ih =>
    obtain ⟨htracks, herr, hcause⟩ := ih (Watch.step_tracks h e)
    rw [requested_cons, interruption_cons, ← Bool.or_assoc, ← Option.or_assoc,
      ← Watch.step_ctxErr id n]
    refine ⟨htracks, herr, hcause.trans ?_⟩
    cases e with
    | heartbeat =>
      rw [Watch.step_heartbeat_cause h]
      cases pending <;> simp [requested, noticed, interruption]
    | interrupt i => simp [Watch.step, noticed, interruption]
    | requestCancellation now => simp [Watch.step, requested, noticed, interruption]
    | elsewhere r => simp [Watch.step, requested, noticed, interruption]

/-- Events after the handler's return reach the database and the job's context, not the
cause. -/
theorem Watch.foldl_stepReturned (h : Tracks id n pending w.db) (events : List WorkEvent) :
    let w' := events.foldl (Watch.stepReturned id n) w
    Tracks id n (pending || requested events) w'.db ∧
      w'.ctxErr = w.ctxErr.or (interruption events) ∧ w'.cause = w.cause := by
  induction events generalizing w pending with
  | nil => simpa [requested, interruption] using h
  | cons e events ih =>
    obtain ⟨htracks, herr, hcause⟩ := ih (w := w.stepReturned id n e) (Watch.step_tracks h e)
    rw [requested_cons, interruption_cons, ← Bool.or_assoc, ← Option.or_assoc,
      ← Watch.step_ctxErr id n]
    exact ⟨htracks, herr, hcause⟩

theorem Watch.run_spec (h : Tracks id n false db) (during after : List WorkEvent) :
    let w := Watch.run id n db during after
    Tracks id n (requested (during ++ after)) w.db ∧
      w.ctxErr = interruption (during ++ after) ∧
      w.cause = if noticed false during then some .cancellationRequested
        else (interruption during).map .interrupted := by
  obtain ⟨htracks, herr, hcause⟩ := Watch.foldl_step (w := { db }) h during
  obtain ⟨htracks', herr', hcause'⟩ := Watch.foldl_stepReturned htracks after
  refine ⟨?_, ?_, hcause'.trans hcause⟩
  · rw [requested, List.any_append]
    exact htracks'
  · rw [interruption, List.findSome?_append]
    exact herr'.trans (congrArg (Option.or · _) herr)

end Watch

/-! ## Recording the end -/

/-- When an ending can be recorded for an attempt in progress. -/
def Ending.Recorded (pending : Bool) : Ending → Prop
  | cancel => True
  | interrupt | snooze | succeed => pending = false
  | fail f => pending = true ∨ Recordable f.code f.message

section Record

variable {id : UUID} {n : Int} {o : Operation} {db : Database} {now : Timestamp}

theorem Ending.record_succeeds_iff (h : InProgress id n o db) (now : Timestamp) (e : Ending) :
    (e.record now id n).Succeeds db ↔ e.Recorded o.cancelRequestedAt.isSome := by
  have hpending : o.cancelRequestedAt = none ↔ o.cancelRequestedAt.isSome = false :=
    Option.isNone_iff_eq_none.symm.trans Option.isSome_eq_false_iff.symm
  cases e with
  | cancel => exact iff_of_true (context_succeeds
      (cancelRunningAttempt_succeeds h.found h.live h.attempt)) trivial
  | interrupt | snooze =>
    exact context_succeeds_iff.trans ((snoozeAttempt_succeeds_iff h).trans hpending)
  | succeed => exact context_succeeds_iff.trans ((succeedAttempt_succeeds_iff h).trans hpending)
  | fail f => exact context_succeeds_iff.trans (failAttempt_succeeds_iff h)

theorem Ending.record_settles {e : Ending} {u : Unit} {db' : Database}
    (h : e.record now id n db = .ok (u, db')) : Settled id n db' := by
  have hends : EndsAt id (int32 n) db db' := by
    cases e with
    | cancel => exact cancelAttempt_endsAt (context_ok.mp h)
    | interrupt | snooze => exact snoozeAttempt_endsAt (context_ok.mp h)
    | succeed => exact succeedAttempt_endsAt (context_ok.mp h)
    | fail f => exact failAttempt_endsAt (context_ok.mp h)
  exact ⟨hends.closed, hends.stopped⟩

theorem recordable_interrupted (i : Interruption) :
    Recordable "operation_interrupted" (Cause.interrupted i).text := by
  cases i <;> decide

theorem recordable_operation_failed {message : String} :
    Recordable "operation_failed" message ↔ notBlank message = true :=
  and_iff_right (by decide)

/-- An ending that the worker chooses can be recorded unless the run strands the attempt. -/
theorem ending_recorded_iff {during after} {result} {w : Watch}
    (herr : w.ctxErr = interruption (during ++ after))
    (hcause : w.cause = if noticed false during then some .cancellationRequested
      else (interruption during).map .interrupted) :
    (ending w result).Recorded (requested (during ++ after)) ↔ ¬ Stranded during after result := by
  unfold ending Stranded
  rw [herr, hcause]
  cases hnoticed : noticed false during with
  | true => simp [Ending.Recorded]
  | false =>
    by_cases hcancel : interruption (during ++ after) = some .canceled
    · cases requested (during ++ after) <;> cases interruption during <;>
        simp [hcancel, Ending.Recorded]
    · simp only [hcancel, ne_eq]
      cases hinterrupted : interruption during with
      | none =>
        -- the handler's own result decides
        cases result with
        | success | snooze _ =>
          cases requested (during ++ after) <;> simp [Ending.Recorded, Unrecordable]
        | failure code message retryable =>
          cases requested (during ++ after) <;>
            simp [Ending.Recorded, Unrecordable, classifyFailure]
        | error message =>
          cases requested (during ++ after) <;>
            simp [Ending.Recorded, Unrecordable, classifyFailure, recordable_operation_failed]
      | some i =>
        -- the context ended by a deadline: unless the handler says otherwise, that is recorded
        cases result with
        | failure code message retryable =>
          cases requested (during ++ after) <;>
            simp [Ending.Recorded, Unrecordable, classifyFailure]
        | success | snooze _ | error _ =>
          cases requested (during ++ after) <;>
            simp [Ending.Recorded, Unrecordable, classifyFailure, recordable_interrupted]

/-- **When a started attempt is settled.** If the database stays available, `Work` leaves
neither the attempt nor its operation running, except in the runs that strand it. -/
theorem work_settles_iff {db₁ : Database} {startedAt endedAt : Timestamp} {workerID : String}
    (started : startAttempt startedAt id n workerID db = .ok (o, db₁))
    (running : o.status ≠ .cancelled) (during after : List WorkEvent) (result : HandlerResult) :
    Settled id n (work startedAt endedAt id n workerID during after result db).2 ↔
      ¬ Stranded during after result := by
  have hstart := startAttempt_startsAt started
  obtain ⟨hund, hcount, hattempt⟩ := hstart.outcome.resolve_left running
  have htracks : Tracks id n false db₁ :=
    ⟨o, ⟨hstart.found, (undisturbed_iff.mp hund).1, hcount, hattempt⟩, by
      rw [(undisturbed_iff.mp hund).2]
      rfl⟩
  obtain ⟨⟨o', ho', hpending⟩, herr, hcause⟩ := Watch.run_spec htracks during after
  rw [← ending_recorded_iff herr hcause, ← hpending, ← Ending.record_succeeds_iff ho' endedAt]
  simp only [work, started, running]
  cases hrec : (ending (Watch.run id n db₁ during after) result).record endedAt id n
      (Watch.run id n db₁ during after).db with
  | ok r => exact iff_of_true (Ending.record_settles hrec) ⟨r, hrec⟩
  | error fault =>
    refine iff_of_false (fun hs => hs.operation _ ho'.found ho'.running) ?_
    rintro ⟨r, hr⟩
    rw [hrec] at hr
    cases hr

end Record

/-- A heartbeat notices the cancellation of a search while its handler runs. -/
theorem work_settles_noticed_cancellation :
    ∃ o db₁, startAttempt 1 1 1 "worker" scheduledSearch = .ok (o, db₁) ∧ o.status ≠ .cancelled ∧
      Settled 1 1 (work 1 3 1 1 "worker" [.requestCancellation 2, .heartbeat] [] .success
        scheduledSearch).2 :=
  ⟨_, _, rfl, by decide, (work_settles_iff rfl (by decide) _ _ _).mpr fun h => nomatch h.1⟩

/-- A cancellation that commits after the handler returned strands its success. -/
theorem work_strands_cancelled_success :
    ∃ o db₁, startAttempt 1 1 1 "worker" scheduledSearch = .ok (o, db₁) ∧ o.status ≠ .cancelled ∧
      ¬ Settled 1 1 (work 1 3 1 1 "worker" [] [.requestCancellation 2] .success
        scheduledSearch).2 :=
  ⟨_, _, rfl, by decide, fun h => absurd rfl (h.operation _ rfl)⟩

end EmbyAuto
