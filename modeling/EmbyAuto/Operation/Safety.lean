import EmbyAuto.Operation.Refinement

/-!
# Safety of the operation lifecycle

Any number of workers call the lifecycle transactions in any order, with any attempt
number, and commands request cancellations at any time. Each call is one transaction.
A worker that was presumed dead may still report the end of an attempt that another
worker has abandoned since.

## Main definitions

* `LifecycleCall`: a call of one lifecycle transaction
* `LifecycleStep`, `Lifecycle`: one step and any finite run of the system
* `Coherent`: the record of every operation is coherent

## Main results

* `coherent_of_lifecycle`: every run keeps the records coherent
* `finished_mem_of_lifecycle`: the row of a finished attempt stays for ever
* `call_of_finished`: a worker cannot end a finished attempt
* `lifecycle_safety`: the guarantees of the lifecycle together
-/

namespace EmbyAuto

open Relational

/-- A call of a lifecycle transaction, by any worker and with any arguments. -/
inductive LifecycleCall where
  | start (now : Timestamp) (id : UUID) (attempt : Int) (workerID : String)
  | succeed (now : Timestamp) (id : UUID) (attempt : Int)
  | fail (now : Timestamp) (id : UUID) (attempt : Int) (code message : String) (retryable : Bool)
  | cancel (now : Timestamp) (id : UUID) (attempt : Int)
  | snooze (id : UUID) (attempt : Int)
  | requestCancellation (now : Timestamp) (id : UUID)

/-- The database after the call: committed, or rolled back. -/
def LifecycleCall.run (db : Database) : LifecycleCall → Database
  | start now id attempt workerID => (startAttempt now id attempt workerID).commit db
  | succeed now id attempt => (succeedAttempt now id attempt).commit db
  | fail now id attempt code message retryable =>
    (failAttempt now id attempt code message retryable).commit db
  | cancel now id attempt => (cancelAttempt now id attempt).commit db
  | snooze id attempt => (snoozeAttempt id attempt).commit db
  | requestCancellation now id => (requestOperationCancellation now id).commit db

/-- The operation and the attempt that a call reports the end of. -/
def LifecycleCall.ends : LifecycleCall → Option (UUID × Int)
  | succeed _ id attempt | fail _ id attempt _ _ _ | cancel _ id attempt | snooze id attempt =>
    some (id, int32 attempt)
  | _ => none

/-- One step: a lifecycle call, or any other code changing the resource tables. -/
inductive LifecycleStep : Database → Database → Prop where
  | call {db} (c : LifecycleCall) : LifecycleStep db (c.run db)
  | elsewhere {db} (r : Resources) : LifecycleStep db { db with resources := r }

/-- A finite run of the system. -/
abbrev Lifecycle : Database → Database → Prop := Relation.ReflTransGen LifecycleStep

/-- Operations as they are scheduled: queued, with no attempt. -/
structure Scheduled (db : Database) : Prop where
  operations : ∀ o ∈ db.operations.rows, o.status = .queued ∧ o.attemptCount = 0
  attempts : db.operationAttempts.rows = []

/-- The record of every operation is coherent. -/
def Coherent (db : Database) : Prop := ∀ id r, recordOf db id = some r → r.Coherent

variable {db db₁ db' : Database} {id : UUID} {n : Int} {a : OperationAttempt} {o o' : Operation}

/-! ## Steps are moves -/

theorem findOperation_of_mem (h : o ∈ db.operations.rows) : findOperation db o.id = some o :=
  db.operations.find?_of_mem operations_pkey h

theorem LifecycleCall.run_cases (c : LifecycleCall) (db : Database) :
    c.run db = db ∨ ∃ id, MovesAt id db (c.run db) ∧
      ∀ e, c.ends = some e → EndsAt e.1 e.2 db (c.run db) := by
  cases c with
  | start now id n w =>
    rcases Tx.commit_cases (startAttempt now id n w) db with ⟨_, h⟩ | h
    · exact .inr ⟨id, (startAttempt_startsAt h).toMovesAt, nofun⟩
    · exact .inl h
  | succeed now id n =>
    rcases Tx.commit_cases (succeedAttempt now id n) db with ⟨_, h⟩ | h
    · have h := succeedAttempt_endsAt h
      exact .inr ⟨id, h.toMovesAt, fun _ he => by cases he; exact h⟩
    · exact .inl h
  | fail now id n code message retryable =>
    rcases Tx.commit_cases (failAttempt now id n code message retryable) db with ⟨_, h⟩ | h
    · have h := failAttempt_endsAt h
      exact .inr ⟨id, h.toMovesAt, fun _ he => by cases he; exact h⟩
    · exact .inl h
  | cancel now id n =>
    rcases Tx.commit_cases (cancelAttempt now id n) db with ⟨_, h⟩ | h
    · have h := cancelAttempt_endsAt h
      exact .inr ⟨id, h.toMovesAt, fun _ he => by cases he; exact h⟩
    · exact .inl h
  | snooze id n =>
    rcases Tx.commit_cases (snoozeAttempt id n) db with ⟨_, h⟩ | h
    · have h := snoozeAttempt_endsAt h
      exact .inr ⟨id, h.toMovesAt, fun _ he => by cases he; exact h⟩
    · exact .inl h
  | requestCancellation now id =>
    rcases Tx.commit_cases (requestOperationCancellation now id) db with ⟨r, h⟩ | h
    · cases r with
      | none => exact .inl (Slot.updateOne_none h).2
      | some o => exact .inr ⟨id, requestOperationCancellation_movesAt h, nofun⟩
    · exact .inl h

/-- A step leaves the record of an operation alone or makes a move of it. -/
theorem LifecycleStep.record (step : LifecycleStep db db') (id : UUID) :
    recordOf db' id = recordOf db id ∨
      ∃ r r', recordOf db id = some r ∧ recordOf db' id = some r' ∧ Move r r' := by
  cases step with
  | elsewhere r => exact .inl rfl
  | call c =>
    rcases c.run_cases db with h | ⟨id', h, -⟩
    · rw [h]
      exact .inl rfl
    · by_cases hid : id = id'
      · subst hid
        exact .inr h.move
      · exact .inl (h.others id hid)

/-! ## What every run preserves -/

theorem Scheduled.coherent (h : Scheduled db) : Coherent db := by
  intro id r hr
  obtain ⟨o, ho, rfl⟩ := Option.map_eq_some_iff.mp hr
  obtain ⟨hqueued, hzero⟩ := h.operations o (mem_of_lookup ho)
  have hnone : attemptsOf db id = [] := by rw [attemptsOf, h.attempts]; rfl
  refine ⟨?_, ?_, ?_, ?_, ?_⟩
  · simp [hnone]
  · simp [hnone, hqueued]
  · simp [hnone, hzero]
  · simp [hnone]
  · simp [hqueued]

theorem coherent_of_lifecycle (run : Lifecycle db db') (h : Coherent db) : Coherent db' := by
  refine invariant_of_step (fun s s' step hs id r hr => ?_) run h
  rcases step.record id with heq | ⟨r₀, r', h₀, h', move⟩
  · exact hs id r (heq ▸ hr)
  · rw [hr] at h'
    cases h'
    exact move.coherent (hs id r₀ h₀)

theorem findOperation_of_recordOf {r} (h : recordOf db id = some r) :
    findOperation db id = some r.operation := by
  obtain ⟨o, ho, rfl⟩ := Option.map_eq_some_iff.mp h
  exact ho

theorem findOperation_of_lifecycle (run : Lifecycle db db') (h : findOperation db id = some o) :
    ∃ o', findOperation db' id = some o' ∧
      (o.status.live = false → o' = o) ∧
      (o.cancelRequestedAt.isSome → o'.cancelRequestedAt.isSome) := by
  induction run with
  | refl => exact ⟨o, h, fun _ => rfl, fun h => h⟩
  | @tail s s' _ step ih =>
    obtain ⟨o₁, ho₁, hterminal, hrequested⟩ := ih
    rcases step.record id with heq | ⟨r, r', hr, hr', move⟩
    · rw [recordOf_eq ho₁] at heq
      exact ⟨o₁, findOperation_of_recordOf heq, hterminal, hrequested⟩
    · rw [recordOf_eq ho₁] at hr
      cases hr
      obtain ⟨o₂, ho₂, rfl⟩ := Option.map_eq_some_iff.mp hr'
      refine ⟨o₂, ho₂, fun hdead => ?_, fun hreq => move.cancelRequested (hrequested hreq)⟩
      -- a terminal operation makes no move
      have hlive : o₁.status.live = true := move.live
      rw [hterminal hdead, hdead] at hlive
      cases hlive

theorem attemptsOf_of_recordOf {r} (h : recordOf db id = some r) :
    attemptsOf db id = r.attempts := by
  obtain ⟨o, -, rfl⟩ := Option.map_eq_some_iff.mp h
  rfl

/-- The row of a finished attempt stays for ever, so its number is never used again. -/
theorem finished_mem_of_lifecycle (run : Lifecycle db db') (ho : findOperation db id = some o)
    (ha : a ∈ attemptsOf db id) (hfin : a.isRunning = false) : a ∈ attemptsOf db' id := by
  induction run with
  | refl => exact ha
  | @tail s s' run step ih =>
    obtain ⟨o₁, ho₁, -⟩ := findOperation_of_lifecycle run ho
    rcases step.record id with heq | ⟨r, r', hr, hr', move⟩
    · rw [recordOf_eq ho₁] at heq
      rw [attemptsOf_of_recordOf heq]
      exact ih
    · rw [attemptsOf_of_recordOf hr] at ih
      rw [attemptsOf_of_recordOf hr']
      exact move.finished_mem ih hfin

/-! ## Reports about attempts that are over -/

/-- Two attempts of one operation with one number are the same row. -/
theorem attempt_eq {b} (ha : a ∈ attemptsOf db id) (hb : b ∈ attemptsOf db id)
    (h : a.attempt = b.attempt) : a = b := by
  obtain ⟨ha, hida⟩ := mem_attemptsOf.mp ha
  obtain ⟨hb, hidb⟩ := mem_attemptsOf.mp hb
  refine db.operationAttempts.eq_of_conflict operation_attempts_key
    (fun x y => decide_eq_decide.mpr eq_comm) ha hb ?_
  simp [hida, hidb, h]

/-- **A worker cannot end a finished attempt**: the transaction fails and changes nothing. -/
theorem call_of_finished {c : LifecycleCall} (hc : c.ends = some (id, a.attempt))
    (ha : a ∈ attemptsOf db id) (hfin : a.isRunning = false) : c.run db = db := by
  rcases c.run_cases db with h | ⟨_, -, hends⟩
  · exact h
  · obtain ⟨b, hb, hrun⟩ := (hends _ hc).running
    have hnum : b.attempt = a.attempt := by
      simp only [runningAttempt, Bool.and_eq_true, decide_eq_true_eq] at hrun
      exact hrun.1.2
    have hbrun := isRunning_of_runningAttempt hrun
    rw [attempt_eq hb ha hnum, hfin] at hbrun
    cases hbrun

/-! ## The guarantees of the lifecycle -/

/-- The number of running attempts of an operation. -/
def runningCount (db : Database) (id : UUID) : Nat :=
  (attemptsOf db id).countP OperationAttempt.isRunning

/-- What the lifecycle guarantees about a database and about every run that starts in it. -/
structure LifecycleSafe (db : Database) : Prop where
  /-- At most one attempt runs, and one does exactly when the operation is running. -/
  single : ∀ o ∈ db.operations.rows, runningCount db o.id ≤ 1 ∧
    (o.status = .running ↔ runningCount db o.id = 1) ∧
    (o.status ≠ .running → runningCount db o.id = 0)
  /-- Attempt numbers differ, and the attempts, which are all counted, are within the limit. -/
  counted : ∀ o ∈ db.operations.rows,
    ((attemptsOf db o.id).map OperationAttempt.attempt).Nodup ∧
      (attemptsOf db o.id).length = o.attemptCount ∧ o.attemptCount ≤ o.maxAttempts
  /-- The number of an attempt that is over stays taken. -/
  recorded : ∀ o ∈ db.operations.rows, ∀ a ∈ attemptsOf db o.id, a.isRunning = false →
    ∀ db', Lifecycle db db' → a ∈ attemptsOf db' o.id
  /-- The worker of an attempt that a later start abandoned cannot change anything. -/
  abandoned : ∀ now id n workerID o db₁, startAttempt now id n workerID db = .ok (o, db₁) →
    ∀ a ∈ attemptsOf db id, a.isRunning = true → ∀ db', Lifecycle db₁ db' →
      ∀ c : LifecycleCall, c.ends = some (id, a.attempt) → c.run db' = db'
  /-- Succeeded, failed and cancelled operations stay as they are. -/
  absorbing : ∀ o ∈ db.operations.rows, o.status.live = false →
    ∀ db', Lifecycle db db' → findOperation db' o.id = some o
  /-- After a cancellation request an operation never becomes succeeded. -/
  cancelled : ∀ o ∈ db.operations.rows, o.cancelRequestedAt.isSome →
    ∀ db', Lifecycle db db' → ∀ o' ∈ db'.operations.rows, o'.id = o.id → o'.status ≠ .succeeded

theorem lifecycleSafe_of_coherent (h : Coherent db) : LifecycleSafe db where
  single o ho := by
    have hrun : runningCount db o.id = _ :=
      (h o.id _ (recordOf_eq (findOperation_of_mem ho))).running
    change _ = if o.status = .running then 1 else 0 at hrun
    split at hrun
    · next hs => simp [hrun, hs]
    · next hs => simp [hrun, hs]
  counted o ho := by
    have hr := h o.id _ (recordOf_eq (findOperation_of_mem ho))
    have hmax := db.operations.check (c := ("operations_attempt_count_valid", _))
      (by simp [operationSchema]; rfl) ho
    exact ⟨hr.distinct, hr.counted, of_decide_eq_true hmax⟩
  recorded o ho a ha hfin db' run :=
    finished_mem_of_lifecycle run (findOperation_of_mem ho) ha hfin
  abandoned now id n workerID o db₁ hstart a ha hrun db' run c hc := by
    -- the new attempt closes the one that a lost worker left open
    have hclosed : a.abandon now ∈ attemptsOf db₁ id := by
      obtain ⟨new, hnew⟩ := (startAttempt_startsAt hstart).abandons
      rw [hnew]
      refine List.mem_append_left _ (List.mem_map.mpr ⟨a, ha, patch_of_true ?_⟩)
      rwa [runningAttempts_eq (mem_attemptsOf.mp ha).2]
    have hkept := finished_mem_of_lifecycle run (startAttempt_startsAt hstart).found hclosed
      (isRunning_abandon a)
    exact call_of_finished (a := a.abandon now) hc hkept (isRunning_abandon a)
  absorbing o ho hterminal db' run := by
    obtain ⟨o', ho', heq, -⟩ := findOperation_of_lifecycle run (findOperation_of_mem ho)
    rw [ho', heq hterminal]
  cancelled o ho hrequested db' run o' ho' hid hsucceeded := by
    obtain ⟨o₁, ho₁, -, hkept⟩ := findOperation_of_lifecycle run (findOperation_of_mem ho)
    rw [← hid, findOperation_of_mem ho'] at ho₁
    cases ho₁
    -- an operation that succeeded has no request, and a request is never withdrawn
    have hnone := (coherent_of_lifecycle run h o'.id _
      (recordOf_eq (findOperation_of_mem ho'))).uncancelled hsucceeded
    have hsome : o'.cancelRequestedAt.isSome := hkept hrequested
    rw [show o'.cancelRequestedAt = none from hnone] at hsome
    cases hsome

/-- **Safety of the operation lifecycle.** Whatever calls any number of workers and
commands make, from operations as they are scheduled, every database that is reached keeps
the guarantees. -/
theorem lifecycle_safety {db₀ db : Database} (scheduled : Scheduled db₀) (run : Lifecycle db₀ db) :
    LifecycleSafe db :=
  lifecycleSafe_of_coherent (coherent_of_lifecycle run scheduled.coherent)

/-- A search operation with two attempts, just scheduled. -/
def scheduledSearch : Database where
  operations := ⟨[{
    id := 1, kind := .searchRun, idempotencyKey := "search:1", maxAttempts := 2
    timeoutSeconds := 60 }], by decide⟩

/-- A second worker takes over an operation whose first worker is presumed dead. -/
theorem lifecycle_safety_takeover :
    Scheduled scheduledSearch ∧
      LifecycleSafe ((LifecycleCall.start 2 1 2 "second").run
        ((LifecycleCall.start 1 1 1 "first").run scheduledSearch)) :=
  have scheduled : Scheduled scheduledSearch := ⟨by decide, rfl⟩
  ⟨scheduled, lifecycle_safety scheduled (.tail (.tail .refl (.call _)) (.call _))⟩

end EmbyAuto
