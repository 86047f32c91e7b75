import EmbyAuto.Operation.Frame
import EmbyAuto.Task.Commands
import EmbyAuto.Task.Machine

/-!
# Transactions move tasks

What a transaction does to the tasks, in terms of the state machine of one task: every task
after it was there before, or was created, and got to its row by moves. The operations that
were asked to cancel are the other half: no transaction adds one to a task, except those that
stop the task as well.

## Main definitions

* `StoppingAt`: an operation on the task was asked to cancel and is not over
* `Evolves`: the second database comes from the first by moves of its tasks

## Main results

* `keeps_updateTask`, `keeps_updateOperation`, `keeps_scheduleInTx`: the statements that
  transactions are made of
-/

namespace EmbyAuto

open Relational Database Resources Relation

/-- An operation on the task was asked to cancel and is not over. -/
def StoppingAt (db : Database) (taskID : UUID) : Prop :=
  ∃ o ∈ db.operations.rows, o.resource = some (.episodeTask, taskID) ∧
    o.status.live = true ∧ o.cancelRequestedAt.isSome = true

/-- The tasks of `db'` come from those of `db`, or from new ones, by moves on the given
occasions, and only the tasks in `cancelled` have operations that were newly asked to cancel. -/
structure Evolves (c : UUID → Occasion) (cancelled : UUID → Prop) (db db' : Database) : Prop where
  tasks : ∀ t' ∈ db'.resources.episodeTasks.rows, ∃ t,
    (t ∈ db.resources.episodeTasks.rows ∨ t.Fresh ∧ ¬ StoppingAt db t.id) ∧
      ReflTransGen (TaskMove (c t'.id)) t t'
  stopping : ∀ id, StoppingAt db' id → StoppingAt db id ∨ cancelled id

variable {c : UUID → Occasion} {cancelled : UUID → Prop} {db₀ db db' : Database}
variable {α : Type} {id : UUID}

namespace Evolves

theorem refl : Evolves c cancelled db db :=
  ⟨fun t ht => ⟨t, .inl ht, .refl⟩, fun _ h => .inl h⟩

/-- Only the tasks and the operations matter. -/
theorem congr (h : Evolves c cancelled db₀ db) (ho : db'.operations = db.operations)
    (ht : db'.resources.episodeTasks = db.resources.episodeTasks) :
    Evolves c cancelled db₀ db' := by
  obtain ⟨tasks, stopping⟩ := h
  refine ⟨by rwa [ht], ?_⟩
  unfold StoppingAt at stopping ⊢
  rwa [ho]

/-- Every row of the new tasks is an old row, moved once more. -/
theorem move (h : Evolves c cancelled db₀ db) (ho : db'.operations = db.operations)
    (ht : ∀ t' ∈ db'.resources.episodeTasks.rows, ∃ t ∈ db.resources.episodeTasks.rows,
      t' = t ∨ TaskMove (c t.id) t t') : Evolves c cancelled db₀ db' := by
  refine ⟨fun t' ht' => ?_, ?_⟩
  · obtain ⟨t, hmem, hmove⟩ := ht t' ht'
    obtain ⟨t₀, hstart, hmoves⟩ := h.tasks t hmem
    rcases hmove with rfl | hmove
    · exact ⟨t₀, hstart, hmoves⟩
    · refine ⟨t₀, hstart, ?_⟩
      rw [hmove.id_eq]
      exact hmoves.tail hmove
  · intro id hstopping
    refine h.stopping id ?_
    unfold StoppingAt at hstopping ⊢
    rwa [ho] at hstopping

end Evolves

/-! ## Statements on other tables -/

/-- The computation does not touch the tasks. -/
def LeavesTasks (m : ResourcesTx α) : Prop := ∀ T, m.Keeps fun r => r.episodeTasks = T

variable {topic : String} {text : String} {data : List (String × JSON)} {f : Operation → Operation}
  {st : EpisodeTask.Statement} {m : ResourcesTx α}

theorem keeps_onResources (h : LeavesTasks m) : (onResources m).Keeps (Evolves c cancelled db₀) :=
  keeps_onResources_iff.mpr fun _ _ _ _ hr hrun => hr.congr rfl (h _ rfl hrun)

theorem keeps_onResources_bind {β : Type} {I} {f : α → ResourcesTx β}
    (hm : (onResources m).Keeps I) (hf : ∀ a, (onResources (f a)).Keeps I) :
    (onResources (m >>= f)).Keeps I :=
  keeps_onResources_iff.mpr fun db =>
    (keeps_onResources_iff.mp hm db).bind fun a => keeps_onResources_iff.mp (hf a) db

theorem leavesTasks_appendEvent {resource} {operationID : Option UUID}
    {data : JSON} : LeavesTasks (appendEvent topic resource operationID data) :=
  fun _ => keeps_appendEvent fun _ _ h => h

theorem keeps_appendResourceEvent {resource : Resource} {operationID : Option UUID} :
    (appendResourceEvent resource operationID topic data).Keeps (Evolves c cancelled db₀) :=
  keeps_onResources leavesTasks_appendEvent

/-! ## Statements on tasks -/

/-- A row after the update is a row that the update did not match, or a matching one as the
statement sets it. -/
theorem mem_updateTask {r r' : Resources} {row} (h : updateTask id st r = .ok (row, r'))
    {t' : EpisodeTask} (ht : t' ∈ r'.episodeTasks.rows) : ∃ t ∈ r.episodeTasks.rows,
      (t' = t ∧ (t.id = id → st.guard t = false)) ∨ t.id = id ∧ st.guard t = true ∧
        t' = st.set t := by
  obtain ⟨-, _, rfl⟩ := Slot.updateOne_ok.mp h
  obtain ⟨t, hmem, rfl⟩ := List.mem_map.mp ht
  refine ⟨t, hmem, ?_⟩
  by_cases hp : atKey EpisodeTask.id id st.guard t = true
  · rw [patch_of_true hp]
    simp only [atKey, Bool.and_eq_true, decide_eq_true_eq] at hp
    exact .inr ⟨hp.1, hp.2, rfl⟩
  · rw [Bool.not_eq_true] at hp
    refine .inl ⟨patch_of_false hp, fun hid => ?_⟩
    simpa [atKey, hid] using hp

/-- A statement that is a move of the task it is run on. -/
theorem keeps_updateTask (hst : ∀ t, st.guard t = true → TaskMove (c id) t (st.set t)) :
    (onResources (updateTask id st)).Keeps (Evolves c cancelled db₀) := by
  intro db row db' hdb hrun
  obtain ⟨r, hr, rfl⟩ := Tx.zoom_ok.mp hrun
  refine hdb.move rfl fun t' ht' => ?_
  obtain ⟨t, hmem, h⟩ := mem_updateTask hr ht'
  rcases h with ⟨rfl, -⟩ | ⟨rfl, hguard, rfl⟩
  · exact ⟨t', hmem, .inl rfl⟩
  · exact ⟨t, hmem, .inr (hst t hguard)⟩

/-- The same for a statement that reads other tables. -/
theorem keeps_updateTaskWith {st}
    (hst : ∀ r t, (st r).guard t = true → TaskMove (c id) t ((st r).set t)) :
    (onResources (updateTaskWith id st)).Keeps (Evolves c cancelled db₀) := by
  intro db row db' hdb hrun
  obtain ⟨r, hr, rfl⟩ := Tx.zoom_ok.mp hrun
  simp only [updateTaskWith, Tx.bind_ok] at hr
  obtain ⟨_, _, ⟨rfl, rfl⟩, hr⟩ := hr
  exact keeps_updateTask (hst db.resources) hdb (Tx.zoom_ok.mpr ⟨r, hr, rfl⟩)

/-! ## Statements on operations -/

theorem keeps_updateOperation {g}
    (hlive : ∀ o, g o = true → o.status.live = true) (hf : Operation.Quiet f) :
    (operationsSlot.updateOne (atKey Operation.id id g) f : DatabaseTx _).Keeps
      (Evolves c cancelled db₀) := by
  intro db row db' hdb hrun
  obtain ⟨-, _, rfl⟩ := Slot.updateOne_ok.mp hrun
  refine ⟨hdb.tasks, fun taskID ⟨o', hmem, hresource, hlive', hrequested⟩ => ?_⟩
  refine hdb.stopping taskID ?_
  obtain ⟨o, ho, rfl⟩ := List.mem_map.mp hmem
  by_cases hp : atKey Operation.id id g o = true
  · rw [patch_of_true hp] at hresource hlive' hrequested
    simp only [atKey, Bool.and_eq_true] at hp
    rw [hf.resource] at hresource
    exact ⟨o, ho, hresource, hlive o hp.2, hf.requested o hlive' hrequested⟩
  · rw [patch_of_false (by simpa using hp)] at hresource hlive' hrequested
    exact ⟨o, ho, hresource, hlive', hrequested⟩

theorem keeps_scheduleInTx {new : NewOperation} {request} :
    (scheduleInTx new request).Keeps (Evolves c cancelled db₀) := by
  rintro db ⟨o, created⟩ db' hdb hrun
  rcases scheduleInTx_ok hrun with ⟨-, rfl, -⟩ | ⟨-, added, ho⟩
  · exact hdb
  obtain ⟨events, hresources⟩ := added.resources
  refine ⟨by rw [hresources]; exact hdb.tasks, fun taskID ⟨o', hmem, hresource, hlive, hreq⟩ => ?_⟩
  rw [added.rows, List.mem_append, List.mem_singleton] at hmem
  rcases hmem with hmem | rfl
  · exact hdb.stopping taskID ⟨o', hmem, hresource, hlive, hreq⟩
  · -- a new operation was not asked to cancel
    subst ho
    cases hreq

/-! ## The lifecycle of operations -/

section Lifecycle

variable {now : Timestamp} {n : Int} {operation : Operation}

theorem leavesTasks_updateOne {β : Type} {S : Schema β} {slot : Slot Resources S}
    {g : β → Bool} {f : β → β} (h : ∀ T, slot.Outside fun r => r.episodeTasks = T) :
    LeavesTasks (slot.updateOne g f) :=
  fun T => Slot.keeps_updateOne (h T)

/-- The end of a resource moves tasks by its statements only. -/
theorem keeps_ends {S m} (h : Ends S m)
    (hS : ∀ {α update}, S α update → (onResources update).Keeps (Evolves c cancelled db₀)) :
    (onResources m).Keeps (Evolves c cancelled db₀) := by
  refine keeps_onResources_iff.mpr fun db => h.keeps (fun _ _ hr => hr.congr rfl rfl)
    (fun _ _ hr => hr.congr rfl rfl) fun h => keeps_onResources_iff.mp (hS h) db

/-- The failure of a task's operation is a move, and other failures leave tasks alone. -/
theorem keeps_failResource {code message : String} {retryable : Bool} :
    (onResources (failResource now operation code message retryable)).Keeps
      (Evolves c cancelled db₀) :=
  keeps_ends failResource_ends fun hS => by
    cases hS with
    | task _ kind => exact keeps_updateTask fun _ => .fail kind
    | «import» | cleanup =>
      exact keeps_onResources fun T => Tx.Keeps.get.bind fun _ =>
        leavesTasks_updateOne (fun _ _ _ h => h) T
    | _ => exact keeps_onResources (leavesTasks_updateOne fun _ _ _ h => h)

/-- The cancellation of an operation may stop its task, which an earlier request allows. -/
theorem keeps_cancelOperationResource
    (hstop : ∀ id, operation.resource = some (.episodeTask, id) → (c id).stopping) :
    (onResources (cancelOperationResource now operation)).Keeps (Evolves c cancelled db₀) :=
  keeps_ends cancelOperationResource_ends fun hS => by
    cases hS with
    | task hresource kind =>
      exact keeps_updateTask fun _ hguard => .stop kind hguard (hstop _ hresource)
    | «import» | cleanup =>
      exact keeps_onResources fun T => Tx.Keeps.get.bind fun _ =>
        leavesTasks_updateOne (fun _ _ _ h => h) T
    | _ => exact keeps_onResources (leavesTasks_updateOne fun _ _ _ h => h)

theorem lifecycleFrame_evolves : LifecycleFrame (Evolves c cancelled db₀) where
  attempts _ _ h := h.congr rfl rfl
  events := @fun _ _ _ _ => keeps_onResources leavesTasks_appendEvent
  operations hlive _ hquiet := keeps_updateOperation hlive hquiet

theorem cancelOperation_stopping (hc : ∀ id, StoppingAt db₀ id → (c id).stopping) :
    (requireRow (cancelOperation now id)).Triple
      (fun db => Evolves c (fun _ => False) db₀ db ∧ Requested id db)
      fun o db => Evolves c (fun _ => False) db₀ db ∧
        ∀ taskID, o.resource = some (.episodeTask, taskID) → (c taskID).stopping := by
  rintro db o db' ⟨hdb, hreq⟩ hrun
  refine ⟨?_, fun taskID hresource => hc taskID ?_⟩
  · exact lifecycleFrame_evolves.cancelOperation hdb (requireRow_ok.mp hrun)
  · rcases Slot.updateOne_atKey operations_pkey (requireRow_ok.mp hrun) with
      ⟨h, -⟩ | ⟨x, hx, hlive, ho, -⟩
    · cases h
    cases ho
    -- the operation was live and asked to cancel before it was cancelled
    have hstopping : StoppingAt db taskID :=
      ⟨x, mem_of_lookup hx, hresource, hlive, hreq x hx⟩
    exact (hdb.stopping taskID hstopping).resolve_right not_false

theorem cancelFrame_evolves (hc : ∀ id, StoppingAt db₀ id → (c id).stopping) :
    CancelFrame (Evolves c (fun _ => False) db₀)
      (fun db => Evolves c (fun _ => False) db₀ db ∧ Requested id db) now id
      fun o => ∀ taskID, o.resource = some (.episodeTask, taskID) → (c taskID).stopping where
  attempts _ _ h := ⟨h.1.congr rfl rfl, h.2⟩
  requested _ h hrequested := ⟨h, hrequested⟩
  cancel := cancelOperation_stopping hc
  resource _ hstop := keeps_cancelOperationResource hstop

end Lifecycle

end EmbyAuto
