import EmbyAuto.Store.Schema

/-!
# The queries on operations and attempts

The statements of `operations.sql` on the tables `operations` and `operation_attempts`.
Each keeps the guard of its `WHERE` clause and the columns of its `SET` clause; `now` is
the transaction's time.

## Main definitions

* `startOperationAttempt`, `completeOperation`, `retryOperation`, `failOperation`,
  `cancelOperation`, `snoozeOperation`, `requestOperationCancellation`: updates of one operation
* `abandonRunningOperationAttempts`, `createOperationAttempt`, `finishOperationAttempt`,
  `deleteSnoozedOperationAttempt`: the attempts of one operation
* `appendEvent`: the event log
-/

namespace EmbyAuto

open Relational

namespace Database

def operationsSlot : Slot Database operationSchema where
  table := operations
  put db t := { db with operations := t }
  put_table := Eq.refl

def attemptsSlot : Slot Database operationAttemptSchema where
  table := operationAttempts
  put db t := { db with operationAttempts := t }
  put_table := Eq.refl

end Database

open Database

/-- A computation on the resource tables, run on the database. -/
def onResources {α : Type} (m : ResourcesTx α) : DatabaseTx α :=
  m.zoom Database.resources fun db r => { db with resources := r }

section

variable {α : Type} {I : Database → Prop} {m : ResourcesTx α}

/-- A computation on the resources keeps what it keeps around every rest of the database. -/
theorem keeps_onResources_iff :
    (onResources m).Keeps I ↔ ∀ db : Database, m.Keeps fun r => I { db with resources := r } := by
  constructor
  · exact fun h db r a r' hr hrun => h hr (Tx.zoom_ok.mpr ⟨r', hrun, rfl⟩)
  · intro h db a db' hdb hrun
    obtain ⟨r, hr, rfl⟩ := Tx.zoom_ok.mp hrun
    exact h db hdb hr

/-- A computation that only reads the resources keeps everything. -/
theorem keeps_read (h : ∀ r a r', m r = .ok (a, r') → r' = r) : (onResources m).Keeps I :=
  keeps_onResources_iff.mpr fun _ _ _ _ hr hrun => h _ _ _ hrun ▸ hr

theorem keeps_readOne {S : Schema α} {slot : Slot Resources S} {p : α → Bool} :
    (onResources (slot.selectOne p)).Keeps I :=
  keeps_read fun _ _ _ h => (Prod.mk.inj (Slot.selectOne_ok.mp h)).2

/-- A computation on the resources keeps what it keeps of them. -/
theorem keeps_resources {I} (h : m.Keeps I) : (onResources m).Keeps fun db => I db.resources :=
  keeps_onResources_iff.mpr fun _ => h

end

/-! ## One operation

The `SET` clauses are functions on the row, under the name of their query. -/

namespace Operation

variable (now : Timestamp) (o : Operation)

def start : Operation :=
  { o with
    status := .running
    attemptCount := o.attemptCount + 1
    errorCode := none
    errorMessage := none }

def requestCancellation : Operation :=
  { o with cancelRequestedAt := o.cancelRequestedAt.or (some now) }

def complete : Operation := { o with status := .succeeded, finishedAt := some now }

def retry (errorCode errorMessage : String) : Operation :=
  { o with status := .queued, errorCode := some errorCode, errorMessage := some errorMessage }

def fail (errorCode errorMessage : String) : Operation :=
  { o with
    status := .failed
    errorCode := some errorCode
    errorMessage := some errorMessage
    finishedAt := some now }

def cancel : Operation :=
  { o with
    status := .cancelled
    cancelRequestedAt := o.cancelRequestedAt.or (some now)
    finishedAt := some now }

def snooze : Operation := { o with status := .queued, attemptCount := o.attemptCount - 1 }

/-- `status = 'running' AND cancel_requested_at IS NULL`. -/
def undisturbed : Bool := o.status = .running && o.cancelRequestedAt.isNone

end Operation

section Operations

variable (now : Timestamp) (id : UUID)

def lockOperation : DatabaseTx (Option Operation) :=
  operationsSlot.selectOne fun o => o.id = id

def startOperationAttempt : DatabaseTx (Option Operation) :=
  operationsSlot.updateOne
    (atKey Operation.id id fun o =>
      o.status.live && o.cancelRequestedAt.isNone && o.attemptCount < o.maxAttempts)
    Operation.start

def requestOperationCancellation : DatabaseTx (Option Operation) :=
  operationsSlot.updateOne (atKey Operation.id id fun o => o.status.live)
    (Operation.requestCancellation now)

/-- `HeartbeatOperation` only moves timestamps; its row count is what the caller reads. -/
def heartbeatOperation : DatabaseTx Nat := do
  return (← operationsSlot.select (atKey Operation.id id Operation.undisturbed)).length

def completeOperation : DatabaseTx (Option Operation) :=
  operationsSlot.updateOne (atKey Operation.id id Operation.undisturbed) (Operation.complete now)

def retryOperation (errorCode errorMessage : String) : DatabaseTx (Option Operation) :=
  operationsSlot.updateOne
    (atKey Operation.id id fun o => o.undisturbed && o.attemptCount < o.maxAttempts)
    (Operation.retry · errorCode errorMessage)

def failOperation (errorCode errorMessage : String) : DatabaseTx (Option Operation) :=
  operationsSlot.updateOne (atKey Operation.id id fun o => o.status.live)
    (Operation.fail now · errorCode errorMessage)

def cancelOperation : DatabaseTx (Option Operation) :=
  operationsSlot.updateOne (atKey Operation.id id fun o => o.status.live) (Operation.cancel now)

def snoozeOperation : DatabaseTx (Option Operation) :=
  operationsSlot.updateOne (atKey Operation.id id fun o => o.undisturbed && 0 < o.attemptCount)
    Operation.snooze

end Operations

/-! ## The attempts of one operation -/

section Attempts

variable (now : Timestamp) (operationID : UUID)

/-- `operation_id = operationID AND status = 'running'`. -/
def runningAttempts (a : OperationAttempt) : Bool :=
  a.operationID = operationID && a.status = .running

/-- `operation_id = operationID AND attempt = attempt AND status = 'running'`. -/
def runningAttempt (attempt : Int) (a : OperationAttempt) : Bool :=
  a.operationID = operationID && a.attempt = attempt && a.status = .running

/-- The columns that ending an attempt sets. -/
def OperationAttempt.close (status : AttemptStatus) (errorCode errorMessage : Option String)
    (a : OperationAttempt) : OperationAttempt :=
  { a with status, errorCode, errorMessage, finishedAt := some now }

def OperationAttempt.abandon : OperationAttempt → OperationAttempt :=
  close now .failed (some "worker_interrupted")
    (some "the previous worker stopped before finishing the attempt")

def abandonRunningOperationAttempts : DatabaseTx (List OperationAttempt) :=
  attemptsSlot.update (runningAttempts operationID) (OperationAttempt.abandon now)

def createOperationAttempt (attempt : Int) (workerID : String) : DatabaseTx Unit :=
  attemptsSlot.insert { operationID, attempt, workerID := some workerID }

/-- `HeartbeatOperationAttempt` only moves a timestamp. -/
def heartbeatOperationAttempt (attempt : Int) : DatabaseTx Nat := do
  return (← attemptsSlot.select (runningAttempt operationID attempt)).length

def finishOperationAttempt (attempt : Int) (status : AttemptStatus)
    (errorCode errorMessage : Option String) : DatabaseTx (Option OperationAttempt) :=
  attemptsSlot.updateOne (runningAttempt operationID attempt)
    (OperationAttempt.close now status errorCode errorMessage)

def deleteSnoozedOperationAttempt (attempt : Int) : DatabaseTx Nat :=
  attemptsSlot.delete (runningAttempt operationID attempt)

end Attempts

/-! ## The event log -/

def appendEvent (topic : String) (resource : Option Resource) (operationID : Option UUID)
    (data : JSON) : ResourcesTx Unit := fun r =>
  .ok ((), { r with events := r.events ++ [{ topic, resource, operationID, data }] })

theorem keeps_appendEvent {topic : String} {resource} {operationID : Option UUID} {data : JSON} {I}
    (h : ∀ r events, I r → I { r with events }) :
    (appendEvent topic resource operationID data).Keeps I := by
  rintro r _ _ hr ⟨⟩
  exact h r _ hr

end EmbyAuto
