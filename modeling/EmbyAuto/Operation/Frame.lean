import EmbyAuto.Operation.Safety

/-!
# What the lifecycle of operations leaves alone

The lifecycle transactions write the attempts, the status of one operation, the resource the
operation works on, and the event log. A property that reads nothing of these survives every call,
and the command of an operation (its kind, resource, key and payload) is never rewritten.

## Main definitions

* `ResourceFrame`: the property reads no table that the end of an operation writes
* `Operation.Leads`: the same command, no further from its end

## Main results

* `LifecycleCall.led`: after a call, every operation was there before, and the frame holds
-/

namespace EmbyAuto

open Relational Database Resources

/-! ## Resources -/

/-- The property reads none of the tables that failing or cancelling a resource writes. -/
structure ResourceFrame (I : Resources → Prop) : Prop where
  agentResolutions : agentResolutionsSlot.Outside I
  downloads : downloadsSlot.Outside I
  rssEntries : rssEntriesSlot.Outside I
  searchRuns : searchRunsSlot.Outside I
  episodeTasks : episodeTasksSlot.Outside I
  imports : importsSlot.Outside I
  cleanupRuns : cleanupRunsSlot.Outside I
  embyScanRuns : embyScanRunsSlot.Outside I
  events : ∀ r events, I r → I { r with events }

variable {code message : String}

namespace ResourceFrame

variable {I : Resources → Prop} {now : Timestamp} {operation : Operation}

theorem failResource (frame : ResourceFrame I) {retryable : Bool} :
    (failResource now operation code message retryable).Keeps I :=
  failResource_ends.keeps frame.events frame.rssEntries fun hS => by
    cases hS with
    | resolution => exact Slot.keeps_updateOne frame.agentResolutions
    | download => exact Slot.keeps_updateOne frame.downloads
    | search => exact Slot.keeps_updateOne frame.searchRuns
    | task => exact Slot.keeps_updateOne frame.episodeTasks
    | «import» => exact Tx.Keeps.get.bind fun _ => Slot.keeps_updateOne frame.imports
    | cleanup => exact Tx.Keeps.get.bind fun _ => Slot.keeps_updateOne frame.cleanupRuns
    | scan => exact Slot.keeps_updateOne frame.embyScanRuns

theorem cancelOperationResource (frame : ResourceFrame I) :
    (cancelOperationResource now operation).Keeps I :=
  cancelOperationResource_ends.keeps frame.events frame.rssEntries fun hS => by
    cases hS with
    | resolution => exact Slot.keeps_updateOne frame.agentResolutions
    | scan => exact Slot.keeps_updateOne frame.embyScanRuns
    | search => exact Slot.keeps_updateOne frame.searchRuns
    | cleanup => exact Tx.Keeps.get.bind fun _ => Slot.keeps_updateOne frame.cleanupRuns
    | «import» => exact Tx.Keeps.get.bind fun _ => Slot.keeps_updateOne frame.imports
    | task => exact Slot.keeps_updateOne frame.episodeTasks

end ResourceFrame

/-! ## Operations -/

/-- `o'` is what became of `o`: its command is the same, and it is live only if `o` was. -/
structure Operation.Leads (o o' : Operation) : Prop where
  id : o'.id = o.id
  kind : o'.kind = o.kind
  resource : o'.resource = o.resource
  idempotencyKey : o'.idempotencyKey = o.idempotencyKey
  payload : o'.payload = o.payload
  live : o'.status.live = true → o.status.live = true

theorem Operation.Leads.refl (o : Operation) : o.Leads o :=
  ⟨rfl, rfl, rfl, rfl, rfl, fun h => h⟩

theorem Operation.Leads.trans {a b c : Operation} (hab : a.Leads b) (hbc : b.Leads c) :
    a.Leads c where
  id := hbc.id.trans hab.id
  kind := hbc.kind.trans hab.kind
  resource := hbc.resource.trans hab.resource
  idempotencyKey := hbc.idempotencyKey.trans hab.idempotencyKey
  payload := hbc.payload.trans hab.payload
  live h := hab.live (hbc.live h)

/-- The update of an operation asks no operation to cancel, except one that it ends. -/
structure Operation.Quiet (f : Operation → Operation) : Prop where
  resource : ∀ o, (f o).resource = o.resource
  requested : ∀ o, (f o).status.live = true → (f o).cancelRequestedAt.isSome = true →
    o.cancelRequestedAt.isSome = true

section Updates

variable {f : Operation → Operation}

theorem quiet_of_ended (hr : ∀ o, (f o).resource = o.resource)
    (hf : ∀ o, (f o).status.live = false) : Operation.Quiet f where
  resource := hr
  requested o h := by
    rw [hf] at h
    cases h

theorem quiet_of_kept (hr : ∀ o, (f o).resource = o.resource)
    (hf : ∀ o, (f o).cancelRequestedAt = o.cancelRequestedAt) : Operation.Quiet f where
  resource := hr
  requested o _ h := by rwa [hf] at h

theorem live_of_undisturbed {o : Operation} (h : o.undisturbed = true) : o.status.live = true := by
  rw [(undisturbed_iff.mp h).1]
  rfl

end Updates

/-! ## One walk through the transactions -/

/-- The cancellation of the operation was requested. -/
def Requested (id : UUID) (db : Database) : Prop :=
  ∀ o, findOperation db id = some o → o.cancelRequestedAt.isSome = true

/-- The property survives the statements on attempts, on the event log and on live operations. -/
structure LifecycleFrame (I : Database → Prop) : Prop where
  attempts : attemptsSlot.Outside I
  events : ∀ {topic resource operationID data},
    (onResources (appendEvent topic resource operationID data)).Keeps I
  operations : ∀ {id} {g : Operation → Bool} {f : Operation → Operation},
    (∀ o, g o = true → o.status.live = true) →
    (∀ o, (f o).id = o.id ∧ (f o).kind = o.kind ∧ (f o).idempotencyKey = o.idempotencyKey ∧
      (f o).payload = o.payload) →
    Operation.Quiet f →
      (operationsSlot.updateOne (atKey Operation.id id g) f : DatabaseTx _).Keeps I

/-- Where `Q` holds, the operation and then its resource can be cancelled. -/
structure CancelFrame (I Q : Database → Prop) (now : Timestamp) (id : UUID)
    (C : Operation → Prop) : Prop where
  attempts : attemptsSlot.Outside Q
  requested : ∀ db, I db → Requested id db → Q db
  cancel : (requireRow (cancelOperation now id)).Triple Q fun o db => I db ∧ C o
  resource : ∀ o, C o → (onResources (cancelOperationResource now o)).Keeps I

section Walk

variable {I Q : Database → Prop} {C : Operation → Prop} {now : Timestamp} {id : UUID} {n : Int}

/-- A locked operation is the one that the database holds. -/
theorem lockOperation_triple {text : String} :
    (context text (requireRow (lockOperation id))).Triple I
      fun o db => I db ∧ findOperation db id = some o := by
  intro db o db' hdb hrun
  obtain ⟨hfound, rfl⟩ := lockOperation_ok (requireRow_ok.mp (context_ok.mp hrun))
  exact ⟨hdb, hfound⟩

theorem Requested.of_locked {db : Database} {o : Operation} (hfound : findOperation db id = some o)
    (h : o.cancelRequestedAt.isSome = true) : Requested id db := by
  intro o' ho'
  rw [hfound] at ho'
  cases ho'
  exact h

variable (frame : LifecycleFrame I)

namespace LifecycleFrame

include frame

theorem cancelOperation : (cancelOperation now id).Keeps I :=
  frame.operations (fun _ h => h) (fun _ => ⟨rfl, rfl, rfl, rfl⟩)
    (quiet_of_ended (fun _ => rfl) fun _ => rfl)

theorem succeedAttempt : (succeedAttempt now id n).Keeps I := by
  refine (keeps_context (keeps_requireRow (Slot.keeps_updateOne frame.attempts))).bind fun _ => ?_
  refine (keeps_context (keeps_requireRow ?_)).bind fun _ => frame.events
  exact frame.operations (fun _ h => live_of_undisturbed h) (fun _ => ⟨rfl, rfl, rfl, rfl⟩)
    (quiet_of_ended (fun _ => rfl) fun _ => rfl)

theorem snoozeAttempt : (snoozeAttempt id n).Keeps I := by
  refine (keeps_context (Slot.keeps_delete frame.attempts)).bind fun deleted => ?_
  split
  · exact Tx.Triple.throw.bind (Q := fun _ _ => False) fun _ _ _ _ h => h.elim
  · refine (keeps_context (keeps_requireRow ?_)).bind fun _ => Tx.Keeps.pure
    exact frame.operations (fun _ h => live_of_undisturbed (Bool.and_elim_left h))
      (fun _ => ⟨rfl, rfl, rfl, rfl⟩) (quiet_of_kept (fun _ => rfl) fun _ => rfl)

variable (hcancel : CancelFrame I Q now id C)
include hcancel

theorem cancelRunningAttempt {text : String} :
    (cancelRunningAttempt now id n text).Triple Q fun _ => I := by
  refine .bind (keeps_context (keeps_requireRow (Slot.keeps_updateOne hcancel.attempts)))
    fun _ => .bind (.mapError hcancel.cancel) fun o => ?_
  exact .bind (.given (hcancel.resource o)) fun _ => frame.events

theorem startAttempt {workerID : String} : (startAttempt now id n workerID).Keeps I := by
  refine (keeps_context (Slot.keeps_update frame.attempts)).bind fun _ => ?_
  refine (keeps_context ?_).bind fun row => ?_
  · exact frame.operations (fun _ h => Bool.and_elim_left (Bool.and_elim_left h))
      (fun _ => ⟨rfl, rfl, rfl, rfl⟩) (quiet_of_kept (fun _ => rfl) fun _ => rfl)
  cases row with
  | none =>
    refine Tx.Triple.bind lockOperation_triple fun locked => ?_
    split
    · next hstop =>
      -- the request came before the start
      refine .bind (.mapError (hcancel.cancel.conseq (fun db h => ?_) fun _ _ h => h)) fun o => ?_
      · exact hcancel.requested db h.1 (.of_locked h.2 (Bool.and_elim_left hstop))
      · exact .bind (.given (hcancel.resource o)) fun _ => frame.events.bind fun _ => Tx.Keeps.pure
    · exact Tx.Triple.throw
  | some started =>
    refine (keeps_context (Slot.keeps_insert frame.attempts)).bind fun _ => ?_
    exact frame.events.bind fun _ => Tx.Keeps.pure

theorem failAttempt {retryable : Bool} (hfailed : ∀ operation,
    (onResources (failResource now operation code message retryable)).Keeps I) :
    (failAttempt now id n code message retryable).Keeps I := by
  refine Tx.Triple.bind lockOperation_triple fun locked => ?_
  split
  · next hreq =>
    exact (frame.cancelRunningAttempt hcancel).conseq
      (fun db h => hcancel.requested db h.1 (.of_locked h.2 hreq)) fun _ _ h => h
  · refine Tx.Triple.conseq (Tx.Keeps.bind (keeps_context (keeps_requireRow
      (Slot.keeps_updateOne frame.attempts))) fun _ => ?_) (fun _ h => h.1) fun _ _ h => h
    split
    · refine (keeps_context (keeps_requireRow ?_)).bind fun _ => frame.events
      exact frame.operations (fun _ h => live_of_undisturbed (Bool.and_elim_left h))
        (fun _ => ⟨rfl, rfl, rfl, rfl⟩) (quiet_of_kept (fun _ => rfl) fun _ => rfl)
    · refine (hfailed _).bind fun _ => (keeps_context (keeps_requireRow ?_)).bind fun _ =>
        frame.events
      exact frame.operations (fun _ h => h) (fun _ => ⟨rfl, rfl, rfl, rfl⟩)
        (quiet_of_ended (fun _ => rfl) fun _ => rfl)

end LifecycleFrame

end Walk

/-! ## The commands of operations -/

/-- Every operation of `db` was there in `db₀`, and the resources keep the frame. -/
structure Led (I : Resources → Prop) (db₀ db : Database) : Prop where
  operations : ∀ o ∈ db.operations.rows, ∃ o₀ ∈ db₀.operations.rows, o₀.Leads o
  resources : I db.resources

namespace Led

variable {I : Resources → Prop} {db₀ : Database} {now : Timestamp} {id : UUID}

theorem refl (h : I db₀.resources) : Led I db₀ db₀ :=
  ⟨fun o ho => ⟨o, ho, .refl o⟩, h⟩

theorem onResources {α : Type} {m : ResourcesTx α} (h : m.Keeps I) :
    (onResources m).Keeps (Led I db₀) :=
  keeps_onResources_iff.mpr fun _ _ _ _ hr hrun => ⟨hr.operations, h hr.resources hrun⟩

/-- An update of an operation that its guard finds live. -/
theorem updateOperation {g} {f}
    (hg : ∀ o, g o = true → o.status.live = true)
    (hf : ∀ o, (f o).id = o.id ∧ (f o).kind = o.kind ∧ (f o).idempotencyKey = o.idempotencyKey ∧
      (f o).payload = o.payload) (hr : ∀ o, (f o).resource = o.resource) :
    (operationsSlot.updateOne (atKey Operation.id id g) f :
      DatabaseTx _).Keeps (Led I db₀) := by
  intro db row db' hdb hrun
  obtain ⟨-, _, rfl⟩ := Slot.updateOne_ok.mp hrun
  refine ⟨fun o' ho' => ?_, hdb.resources⟩
  obtain ⟨o, ho, rfl⟩ := List.mem_map.mp ho'
  obtain ⟨o₀, ho₀, leads⟩ := hdb.operations o ho
  refine ⟨o₀, ho₀, leads.trans ?_⟩
  rcases patch_cases (atKey Operation.id id g) f o with ⟨hp, heq⟩ | ⟨-, heq⟩ <;> rw [heq]
  · obtain ⟨hid, hkind, hkey, hpayload⟩ := hf o
    exact ⟨hid, hkind, hr o, hkey, hpayload, fun _ => hg o (Bool.and_elim_right hp)⟩
  · exact .refl o

variable (hevents : ∀ r events, I r → I { r with events })
include hevents

theorem frame : LifecycleFrame (Led I db₀) where
  attempts _ _ h := ⟨h.operations, h.resources⟩
  events := @fun _ _ _ _ => onResources (keeps_appendEvent hevents)
  operations hg hf hquiet := updateOperation hg hf hquiet.resource

theorem cancelFrame (hcancelled : ∀ operation, (cancelOperationResource now operation).Keeps I) :
    CancelFrame (Led I db₀) (Led I db₀) now id fun _ => True where
  attempts := (frame hevents).attempts
  requested _ h _ := h
  cancel := (keeps_requireRow (frame hevents).cancelOperation).conseq (fun _ h => h)
    fun _ _ h => ⟨h, trivial⟩
  resource o _ := onResources (hcancelled o)

end Led

/-- **A lifecycle call** keeps the command of every operation, ends operations but revives none,
and keeps what the frame says of the resources. -/
theorem LifecycleCall.led {I} {db : Database} (frame : ResourceFrame I)
    (c : LifecycleCall) (h : I db.resources) : Led I db (c.run db) := by
  have walk : LifecycleFrame (Led I db) := Led.frame frame.events
  have hcancel (now id) : CancelFrame (Led I db) (Led I db) now id fun _ => True :=
    Led.cancelFrame frame.events fun _ => frame.cancelOperationResource
  cases c with
  | start => exact (walk.startAttempt (hcancel _ _)).commit (.refl h)
  | succeed => exact walk.succeedAttempt.commit (.refl h)
  | fail =>
    refine (walk.failAttempt (hcancel _ _) fun _ => ?_).commit (.refl h)
    exact Led.onResources frame.failResource
  | cancel => exact Tx.Keeps.commit (walk.cancelRunningAttempt (hcancel _ _)) (.refl h)
  | snooze => exact walk.snoozeAttempt.commit (.refl h)
  | requestCancellation =>
    refine (Led.updateOperation (fun _ h => h) ?_ ?_).commit (.refl h)
    · exact fun _ => ⟨rfl, rfl, rfl, rfl⟩
    · exact fun _ => rfl

/-- What became of an operation in a run has the same command. -/
theorem leads_of_lifecycle {db₀ db : Database} {o : Operation} (run : Lifecycle db₀ db)
    (ho : o ∈ db₀.operations.rows) :
    ∃ o' ∈ db.operations.rows, o.Leads o' := by
  have frame : ResourceFrame fun _ => True := by constructor <;> exact fun _ _ _ => trivial
  induction run with
  | refl => exact ⟨o, ho, .refl o⟩
  | @tail s s' run step ih =>
    obtain ⟨o₁, ho₁, hleads⟩ := ih
    obtain ⟨o₂, ho₂, -⟩ := findOperation_of_lifecycle (.single step) (findOperation_of_mem ho₁)
    refine ⟨o₂, mem_of_lookup ho₂, hleads.trans ?_⟩
    cases step with
    | elsewhere => exact Option.some.inj ((findOperation_of_mem ho₁).symm.trans ho₂) ▸ .refl _
    | call c =>
      obtain ⟨o₃, ho₃, hsame⟩ := (c.led frame trivial).operations o₂ (mem_of_lookup ho₂)
      rwa [s.operations.eq_of_key operations_pkey ho₁ ho₃ ((key_of_lookup ho₂).symm.trans hsame.id)]

end EmbyAuto
