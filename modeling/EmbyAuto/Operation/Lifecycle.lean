import EmbyAuto.Operation.Resource

/-!
# The lifecycle of an operation

The transactions of the repository's `OperationLifecycle`. A worker starts an attempt,
keeps it alive and reports how it ended; a command asks for cancellation at any time.
Every function here is the body of one `WithinTx` call.

## Main definitions

* `startAttempt`, `succeedAttempt`, `failAttempt`, `cancelAttempt`, `snoozeAttempt`: the
  transactions of a worker
* `heartbeat`: whether an attempt is still alive
* `attemptsOf`: the attempts of one operation
-/

namespace EmbyAuto

open Relational Database

/-- The attempts of one operation, oldest first. -/
def attemptsOf (db : Database) (operationID : UUID) : List OperationAttempt :=
  db.operationAttempts.rows.filter fun a => a.operationID = operationID

/-- The operation with the given identifier. -/
def findOperation (db : Database) (id : UUID) : Option Operation :=
  lookup Operation.id id db.operations.rows

section

variable (now : Timestamp)

/-- The event that an operation appends about itself. -/
def appendOperationEvent (operation : Operation) (topic : String) (data : List (String × JSON)) :
    DatabaseTx Unit :=
  onResources (appendEvent topic operation.resource (some operation.id) (.object data))

variable (operationID : UUID) (attempt : Int)

/-- Closes the attempts that an interrupted worker left behind, then starts a new one, or
cancels an operation whose cancellation was requested before it could start. -/
def startAttempt (workerID : String) : DatabaseTx Operation := do
  let _ ← context "close interrupted operation attempts"
    (abandonRunningOperationAttempts now operationID)
  match ← context "start operation attempt" (startOperationAttempt operationID) with
  | none =>
    let locked ← context "lock non-runnable operation" (requireRow (lockOperation operationID))
    if locked.cancelRequestedAt.isSome && locked.status.live then
      let cancelled ← context "cancel operation before attempt"
        (requireRow (cancelOperation now operationID))
      onResources (cancelOperationResource now cancelled)
      appendOperationEvent cancelled "operation.cancelled" [("beforeAttempt", .bool true)]
      return cancelled
    else
      throw .operationNotRunnable
  | some started =>
    context "create operation attempt audit"
      (createOperationAttempt operationID (int32 attempt) workerID)
    appendOperationEvent started "operation.started" [("attempt", .number attempt)]
    return started

/-- An attempt is alive while its operation runs without a cancellation request and the
attempt itself is running. -/
def heartbeat : DatabaseTx Bool := do
  let operationRows ← context "heartbeat operation" (heartbeatOperation operationID)
  if operationRows = 0 then
    return false
  let attemptRows ← context "heartbeat operation attempt"
    (heartbeatOperationAttempt operationID (int32 attempt))
  return attemptRows = 1

def succeedAttempt : DatabaseTx Unit := do
  let _ ← context "finish successful operation attempt"
    (requireRow (finishOperationAttempt now operationID (int32 attempt) .succeeded none none))
  let operation ← context "complete operation" (requireRow (completeOperation now operationID))
  appendOperationEvent operation "operation.succeeded" [("attempt", .number attempt)]

/-- Finishes the attempt as cancelled and cancels the operation with its resource; `failAttempt`
and `cancelAttempt` share it up to the text around the second update. -/
def cancelRunningAttempt (cancelText : String) : DatabaseTx Unit := do
  let _ ← context "finish cancelled operation attempt"
    (requireRow (finishOperationAttempt now operationID (int32 attempt) .cancelled none none))
  let operation ← context cancelText (requireRow (cancelOperation now operationID))
  onResources (cancelOperationResource now operation)
  appendOperationEvent operation "operation.cancelled" [("attempt", .number attempt)]

def failAttempt (code message : String) (retryable : Bool) : DatabaseTx Unit := do
  let locked ← context "lock failed operation" (requireRow (lockOperation operationID))
  if locked.cancelRequestedAt.isSome then
    cancelRunningAttempt now operationID attempt "cancel operation after concurrent request"
  else
    let _ ← context "finish failed operation attempt"
      (requireRow (finishOperationAttempt now operationID (int32 attempt) .failed
        (some code) (some message)))
    if retryable && locked.attemptCount < locked.maxAttempts then
      let operation ← context "schedule operation retry"
        (requireRow (retryOperation operationID code message))
      appendOperationEvent operation "operation.retry_scheduled"
        [("attempt", .number attempt), ("errorCode", .string code)]
    else
      onResources (failResource now locked code message retryable)
      let operation ← context "fail operation"
        (requireRow (failOperation now operationID code message))
      appendOperationEvent operation "operation.failed"
        [("attempt", .number attempt), ("errorCode", .string code)]

def cancelAttempt : DatabaseTx Unit :=
  cancelRunningAttempt now operationID attempt "cancel operation"

/-- Gives the attempt back: its row is deleted and the operation's count goes down. -/
def snoozeAttempt : DatabaseTx Unit := do
  let deleted ← context "delete snoozed operation attempt"
    (deleteSnoozedOperationAttempt operationID (int32 attempt))
  if deleted ≠ 1 then
    throw (.text ("delete snoozed operation attempt: expected one running attempt, got " ++
      toString deleted))
  let _ ← context "snooze operation" (requireRow (snoozeOperation operationID))
  return ()

end

end EmbyAuto
