import EmbyAuto.Operation.Refinement

/-!
# Scheduling operations

`OperationScheduler.ScheduleInTx` creates an operation with its River job inside the
transaction of the command that needs it. A key that was used before is not scheduled again:
the operation that holds it is returned, whatever became of it, as long as it is the same
command.

The identifier that `uuid.New` draws and the job that River inserts come from outside the
repository, so a new operation is given both.

## Main definitions

* `prepareOperation`, `scheduleInTx`: the scheduler
* `findIdempotentResourceCommand`: the replay of a command by its key
* `requestResourceOperationCancellations`: the cancellation of everything that works on a
  resource

## Main results

* `scheduleInTx_ok`: scheduling adds one queued operation or returns the one with the key
-/

namespace EmbyAuto

open Relational Database

structure ScheduleOperationRequest where
  kind : OperationKind
  resource : Option Resource := none
  idempotencyKey : String
  maxAttempts : Int
  timeout : Duration
  payload : List (String × JSON) := []

/-- The identifiers that a new operation gets: its own, drawn at random, and that of the
job that River inserts for it. -/
structure NewOperation where
  id : UUID
  riverJobID : Int

def invalidOperation (field reason : String) : Fault :=
  .service "invalid_operation" "the operation is invalid"
    [("field", .text field), ("reason", .text reason)]

/-- Checks a request and trims its key. Every kind has job arguments and insert options. -/
def prepareOperation (request : ScheduleOperationRequest) :
    Except Fault ScheduleOperationRequest :=
  if trimSpace request.idempotencyKey = "" then
    .error (invalidOperation "idempotencyKey" "must not be blank")
  else if request.maxAttempts ≤ 0 ∨ request.maxAttempts > 2147483647 then
    .error (invalidOperation "maxAttempts" "must be between 1 and 2147483647")
  else if request.timeout ≤ 0 ∨ request.timeout % Duration.second ≠ 0 ∨
      request.timeout / Duration.second > 2147483647 then
    .error (invalidOperation "timeout" "must be between 1 and 2147483647 whole seconds")
  else if request.resource.any (·.2 = 0) then
    .error (invalidOperation "resource" "type and ID must be provided together")
  else
    .ok { request with idempotencyKey := trimSpace request.idempotencyKey }

/-- The row that `CreateOperation` inserts. -/
def ScheduleOperationRequest.operation (request : ScheduleOperationRequest) (id : UUID) :
    Operation where
  id
  kind := request.kind
  resource := request.resource
  idempotencyKey := request.idempotencyKey
  maxAttempts := request.maxAttempts.toNat
  timeoutSeconds := (request.timeout / Duration.second).toNat
  payload := .object request.payload

def getOperationByIdempotencyKey (key : String) : DatabaseTx (Option Operation) :=
  operationsSlot.selectOne fun o => o.idempotencyKey = key

/-- `INSERT ... ON CONFLICT (idempotency_key) DO NOTHING`, with the number of rows inserted. -/
def createOperation (id : UUID) (request : ScheduleOperationRequest) : DatabaseTx Nat := do
  match ← getOperationByIdempotencyKey request.idempotencyKey with
  | some _ => return 0
  | none =>
    operationsSlot.insert (request.operation id)
    return 1

def Operation.attachRiverJob (riverJobID : Int) (o : Operation) : Operation :=
  { o with riverJobID := some riverJobID }

def attachRiverJob (id : UUID) (riverJobID : Int) : DatabaseTx (Option Operation) :=
  operationsSlot.updateOne
    (atKey Operation.id id fun o => o.status = .queued && o.riverJobID.isNone)
    (Operation.attachRiverJob riverJobID)

def sameOperationCommand (operation : Operation) (request : ScheduleOperationRequest) : Bool :=
  operation.kind = request.kind &&
    operation.resource = request.resource &&
    operation.maxAttempts = request.maxAttempts.toNat &&
    operation.timeoutSeconds = (request.timeout / Duration.second).toNat &&
    operation.payload.valuesEqual (.object request.payload)

/-- Schedules a prepared request; the flag says whether the operation was created. -/
def scheduleInScope (new : NewOperation) (request : ScheduleOperationRequest) :
    DatabaseTx (Operation × Bool) := do
  let created ← context "create operation" (createOperation new.id request)
  if created = 0 then
    let existing ← context "load idempotent operation"
      (requireRow (getOperationByIdempotencyKey request.idempotencyKey))
    if sameOperationCommand existing request then
      return (existing, false)
    else
      throw (.service "idempotency_conflict"
        "the idempotency key was already used for a different command"
        [("idempotencyKey", .text request.idempotencyKey)])
  else
    let operation ← context "attach River job to operation"
      (requireRow (attachRiverJob new.id new.riverJobID))
    context "append operation event" (appendOperationEvent operation "operation.queued"
      [("kind", .string request.kind.text), ("status", .string "queued")])
    return (operation, true)

/-- `errors.As` for a service error. -/
def Fault.asService? : Fault → Option Fault
  | .wrap _ cause => cause.asService?
  | .service code message details => some (.service code message details)
  | _ => none

def wrapScheduleError (fault : Fault) : Fault :=
  fault.asService?.getD (.wrap "schedule operation" fault)

def scheduleInTx (new : NewOperation) (request : ScheduleOperationRequest) :
    DatabaseTx (Operation × Bool) :=
  match prepareOperation request with
  | .error fault => throw fault
  | .ok prepared => (scheduleInScope new prepared).mapError wrapScheduleError

/-! ## Commands on a resource -/

/-- The operation that a command with this key already scheduled. -/
def findIdempotentResourceCommand (idempotencyKey : String) (resource : Resource)
    (command : String) (allowedKinds : List OperationKind) :
    DatabaseTx (Option Operation) := do
  match ← context "load idempotent command"
      (getOperationByIdempotencyKey (trimSpace idempotencyKey)) with
  | none => return none
  | some existing =>
    let kindAllowed := existing.kind ∈ allowedKinds
    let payloadMatches := existing.payload.decodable &&
      (existing.payload.field? "command").any fun value => value.deepEqual (.string command)
    if kindAllowed && existing.resource = some resource && payloadMatches then
      return some existing
    else
      throw (.service "idempotency_conflict"
        "the idempotency key was already used for a different command"
        [("idempotencyKey", .text idempotencyKey)])

def appendResourceEvent (resource : Resource) (operationID : Option UUID) (topic : String)
    (data : List (String × JSON)) : DatabaseTx Unit :=
  onResources (appendEvent topic (some resource) operationID (.object data))

def requestResourceOperationCancellations (now : Timestamp) (resource : Resource) :
    DatabaseTx Unit := do
  let operations ← operationsSlot.select fun o => o.resource = some resource && o.status.live
  operations.forM fun operation => do
    match ← context ("request operation " ++ operation.id.text ++ " cancellation")
        (requestOperationCancellation now operation.id) with
    | none => return ()
    | some requested =>
      appendResourceEvent resource (some requested.id) "operation.cancel_requested"
        [("kind", .string requested.kind.text)]

/-! ## What scheduling does -/

section

variable {db db' : Database} {new : NewOperation} {request prepared : ScheduleOperationRequest}
variable {o : Operation} {created : Bool}

/-- One operation was added, and at most events besides. -/
structure OperationAdded (o : Operation) (db db' : Database) : Prop where
  rows : db'.operations.rows = db.operations.rows ++ [o]
  attempts : db'.operationAttempts = db.operationAttempts
  resources : ∃ events, db'.resources = { db.resources with events }

theorem prepareOperation_ok (h : prepareOperation request = .ok prepared) :
    prepared = { request with idempotencyKey := trimSpace request.idempotencyKey } := by
  unfold prepareOperation at h
  split at h
  · cases h
  split at h
  · cases h
  split at h
  · cases h
  split at h
  · cases h
  cases h
  rfl

/-- The job is attached to the operation that was just inserted, and to no other. -/
theorem attachRiverJob_inserted {riverJobID : Int} {o' : Operation}
    {hv : operationSchema.Valid (db.operations.rows ++ [o])}
    (hq : o.status = .queued) (hj : o.riverJobID = none)
    (h : attachRiverJob o.id riverJobID { db with operations := ⟨_, hv⟩ } = .ok (some o', db')) :
    o' = o.attachRiverJob riverJobID ∧
      db'.operations.rows = db.operations.rows ++ [o.attachRiverJob riverJobID] ∧
      db'.operationAttempts = db.operationAttempts ∧ db'.resources = db.resources := by
  obtain ⟨hr, hv₂, rfl⟩ := Slot.updateOne_ok.mp h
  have hold : ∀ r ∈ db.operations.rows, atKey Operation.id o.id
      (fun o => o.status = .queued && o.riverJobID.isNone) r = false := by
    intro r hr
    have hne := (List.pairwise_append.mp (hv.2 _ operations_pkey)).2.2 r hr o
      (List.mem_singleton_self o)
    simp only at hne
    simp [atKey, hne]
  have hnew : atKey Operation.id o.id (fun o => o.status = .queued && o.riverJobID.isNone) o =
      true := by
    simp [atKey, hq, hj]
  have hfind : (operationsSlot.table { db with operations := ⟨_, hv⟩ }).rows.find?
      (atKey Operation.id o.id fun o => o.status = .queued && o.riverJobID.isNone) = some o := by
    change (db.operations.rows ++ [o]).find? _ = some o
    rw [List.find?_append, List.find?_eq_none.mpr fun r hr' => by simp [hold r hr']]
    simp [hnew]
  rw [hfind] at hr
  refine ⟨Option.some.inj hr, ?_, rfl, rfl⟩
  change (db.operations.rows ++ [o]).map _ = _
  rw [List.map_append, map_patch_of_none hold, List.map_singleton, patch_of_true hnew]

/-- An event changes nothing but the log. -/
theorem onResources_appendEvent_ok {topic : String} {resource}
    {operationID : Option UUID} {data : JSON} {u : Unit}
    (h : onResources (appendEvent topic resource operationID data) db = .ok (u, db')) :
    ∃ events, db' = { db with resources := { db.resources with events } } := by
  obtain ⟨r, hr, rfl⟩ := Tx.zoom_ok.mp h
  cases hr
  exact ⟨_, rfl⟩

theorem createOperation_ok {k : Nat} (h : createOperation new.id request db = .ok (k, db')) :
    (k = 0 ∧ db' = db) ∨
      k = 1 ∧ ∃ hv : operationSchema.Valid (db.operations.rows ++ [request.operation new.id]),
        db' = { db with operations := ⟨_, hv⟩ } := by
  simp only [createOperation, getOperationByIdempotencyKey, Tx.bind_ok, Slot.selectOne_ok,
    Prod.mk.injEq] at h
  obtain ⟨row, db₁, ⟨-, rfl⟩, h⟩ := h
  cases row with
  | some _ =>
    cases h
    exact .inl ⟨rfl, rfl⟩
  | none =>
    obtain ⟨_, db₂, hinsert, h⟩ := Tx.bind_ok.mp h
    cases h
    exact .inr ⟨rfl, Slot.insert_ok.mp hinsert⟩

/-- **Scheduling.** Either the key is taken by the same command and nothing changes, or one
queued operation is added. -/
theorem scheduleInTx_ok (h : scheduleInTx new request db = .ok ((o, created), db')) :
    (created = false ∧ db' = db ∧ o ∈ db.operations.rows ∧
        o.idempotencyKey = trimSpace request.idempotencyKey ∧
        sameOperationCommand o request = true) ∨
      created = true ∧ OperationAdded o db db' ∧
        o = ({ request with idempotencyKey := trimSpace request.idempotencyKey }.operation
          new.id).attachRiverJob new.riverJobID := by
  unfold scheduleInTx at h
  cases hprepared : prepareOperation request <;> rw [hprepared] at h
  · cases h
  obtain rfl := prepareOperation_ok hprepared
  simp only [scheduleInScope, Tx.mapError_ok, Tx.bind_ok, context_ok] at h
  obtain ⟨k, db₁, hcreate, h⟩ := h
  rcases createOperation_ok hcreate with ⟨rfl, rfl⟩ | ⟨rfl, hv, rfl⟩
  · -- the key is taken
    simp only [if_true, Tx.bind_ok, context_ok, requireRow_ok, getOperationByIdempotencyKey,
      Slot.selectOne_ok, Prod.mk.injEq] at h
    obtain ⟨existing, db₂, ⟨hfind, rfl⟩, h⟩ := h
    split at h
    · next hsame =>
      cases h
      have hkey := List.find?_some hfind.symm
      exact .inl ⟨rfl, rfl, List.mem_of_find?_eq_some hfind.symm, by simpa using hkey, hsame⟩
    · cases h
  · simp only [if_neg Nat.one_ne_zero, Tx.bind_ok, context_ok, requireRow_ok] at h
    obtain ⟨_, db₂, hattach, u, db₃, hevent, h⟩ := h
    cases h
    obtain ⟨rfl, hrows, hattempts, hresources⟩ := attachRiverJob_inserted
      (o := ScheduleOperationRequest.operation _ new.id) rfl rfl hattach
    obtain ⟨events, rfl⟩ := onResources_appendEvent_ok hevent
    exact .inr ⟨rfl, ⟨hrows, hattempts, events, by rw [hresources]⟩, rfl⟩

/-- Of the resources, scheduling changes the log. -/
theorem keeps_resources_scheduleInTx {I : Resources → Prop}
    (h : ∀ r events, I r → I { r with events }) :
    (scheduleInTx new request).Keeps fun db => I db.resources := by
  rintro db ⟨o, created⟩ db' hdb hrun
  rcases scheduleInTx_ok hrun with ⟨-, rfl, -⟩ | ⟨-, added, -⟩
  · exact hdb
  · obtain ⟨events, hresources⟩ := added.resources
    rw [hresources]
    exact h _ _ hdb

end

theorem keeps_getOperationByIdempotencyKey {text key : String} {I} :
    (context text (getOperationByIdempotencyKey key)).Keeps I :=
  keeps_context Slot.keeps_selectOne

theorem keeps_findIdempotentResourceCommand {key : String} {resource : Resource} {command : String}
    {kinds I} : (findIdempotentResourceCommand key resource command kinds).Keeps I := by
  refine keeps_getOperationByIdempotencyKey.bind fun existing => ?_
  cases existing with
  | none => exact Tx.Keeps.pure
  | some existing =>
    dsimp only
    split
    · exact Tx.Keeps.pure
    · exact Tx.Triple.throw

/-- Under the key of an operation, a command finds that operation or is refused. -/
theorem findIdempotentResourceCommand_used {db : Database} {o : Operation} {key : String}
    (ho : o ∈ db.operations.rows) (hkey : o.idempotencyKey = trimSpace key)
    {resource command kinds existing db'}
    (h : findIdempotentResourceCommand key resource command kinds db = .ok (existing, db')) :
    existing = some o ∧ db' = db := by
  have hanswer : getOperationByIdempotencyKey (trimSpace key) db = .ok (some o, db) := by
    rw [← hkey, getOperationByIdempotencyKey, Slot.selectOne_ok]
    exact Prod.ext (db.operations.find?_of_mem
      (List.mem_cons_of_mem _ List.mem_cons_self) ho).symm rfl
  rw [findIdempotentResourceCommand, Tx.bind_of_ok (context_ok.mpr hanswer)] at h
  dsimp only at h
  split at h <;> cases h
  exact ⟨rfl, rfl⟩

end EmbyAuto
