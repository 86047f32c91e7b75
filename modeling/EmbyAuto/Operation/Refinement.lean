import EmbyAuto.Operation.Record

/-!
# Lifecycle transactions make moves

Every lifecycle transaction that commits makes one move of the record of its operation and
leaves every other record alone. A transaction that fails is rolled back and changes nothing.

## Main definitions

* `recordOf`: the record of an operation in the database
* `MovesAt`: one record moved and the others stayed
* `StartsAt`: the move started an attempt
* `EndsAt`: the move ended a running attempt

## Main results

* `startAttempt_startsAt`, `requestOperationCancellation_movesAt`: these two move a record
* `succeedAttempt_endsAt`, `failAttempt_endsAt`, `cancelAttempt_endsAt`, `snoozeAttempt_endsAt`:
  the others also need a running attempt with the caller's number
-/

namespace EmbyAuto

open Relational Database

variable {db db₁ db' : Database} {id : UUID} {now : Timestamp} {n : Int}

/-- The record of an operation in the database. -/
def recordOf (db : Database) (id : UUID) : Option OperationRecord :=
  (findOperation db id).map fun o => ⟨o, attemptsOf db id⟩

/-- The record of `id` made a move, and no other record changed. -/
structure MovesAt (id : UUID) (db db' : Database) : Prop where
  move : ∃ r r', recordOf db id = some r ∧ recordOf db' id = some r' ∧ Move r r'
  others : ∀ id', id' ≠ id → recordOf db' id' = recordOf db id'

/-- Running attempt number `n` of `id` ended, or was given back. -/
structure EndsAt (id : UUID) (n : Int) (db db' : Database) : Prop extends MovesAt id db db' where
  running : ∃ a ∈ attemptsOf db id, runningAttempt id n a = true
  closed : ∀ a ∈ attemptsOf db' id, a.attempt = n → a.isRunning = false
  stopped : ∀ o, findOperation db' id = some o → o.status ≠ .running

/-- An attempt was started, or the operation was cancelled instead. Either way the attempts
that were running are abandoned. -/
structure StartsAt (id : UUID) (n : Int) (now : Timestamp) (o : Operation) (db db' : Database) :
    Prop extends MovesAt id db db' where
  abandons : ∃ new, attemptsOf db' id =
    (attemptsOf db id).map (patch (runningAttempts id) (OperationAttempt.abandon now)) ++ new
  found : findOperation db' id = some o
  outcome : o.status = .cancelled ∨ o.undisturbed = true ∧ 0 < o.attemptCount ∧
    ∃ a ∈ attemptsOf db' id, runningAttempt id n a = true

variable {o' : Operation} {o : Operation} {errorCode errorMessage : Option String} {u : Unit}
  {as : List OperationAttempt}

theorem recordOf_eq (ho : findOperation db id = some o) :
    recordOf db id = some ⟨o, attemptsOf db id⟩ := by
  rw [recordOf, ho, Option.map_some]

theorem id_of_findOperation (ho : findOperation db id = some o) : o.id = id :=
  key_of_lookup ho

/-! ## Statements on the two tables -/

/-- What an update of one operation changed: its row, and nothing else. -/
structure OperationUpdated (id : UUID) (o' : Operation) (db db' : Database) : Prop where
  here : findOperation db' id = some o'
  others : ∀ id', id' ≠ id → findOperation db' id' = findOperation db id'
  attempts : db'.operationAttempts = db.operationAttempts

/-- What an update of the attempts of one operation changed: those rows, and nothing else. -/
structure AttemptsUpdated (id : UUID) (as : List OperationAttempt) (db db' : Database) : Prop where
  here : attemptsOf db' id = as
  others : ∀ id', id' ≠ id → attemptsOf db' id' = attemptsOf db id'
  operations : db'.operations = db.operations

theorem updateOperation_some {guard} {f}
    (hf : ∀ o, (f o).id = o.id)
    (h : (operationsSlot.updateOne (atKey Operation.id id guard) f : DatabaseTx _) db =
      .ok (some o', db')) :
    ∃ o, findOperation db id = some o ∧ guard o = true ∧ o' = f o ∧
      OperationUpdated id (f o) db db' := by
  rcases Slot.updateOne_atKey operations_pkey h with
    ⟨hn, -⟩ | ⟨o, ho, hg, heq, hv, rfl⟩
  · cases hn
  · cases heq
    exact ⟨o, ho, hg, rfl, lookup_map_patch_self hf ho hg, fun _ hne => lookup_map_patch_ne hf hne,
      rfl⟩

theorem requestOperationCancellation_some
    (h : requestOperationCancellation now id db = .ok (some o', db')) :
    ∃ o, findOperation db id = some o ∧ o.status.live = true ∧
      OperationUpdated id (o.requestCancellation now) db db' := by
  obtain ⟨o, ho, hg, -, hup⟩ :=
    updateOperation_some (f := Operation.requestCancellation now) (fun _ => rfl) h
  exact ⟨o, ho, hg, hup⟩

theorem undisturbed_iff :
    o.undisturbed = true ↔ o.status = .running ∧ o.cancelRequestedAt = none := by
  simp [Operation.undisturbed]

theorem completeOperation_some (h : completeOperation now id db = .ok (some o', db')) :
    ∃ o, findOperation db id = some o ∧ o.status = .running ∧ o.cancelRequestedAt = none ∧
      OperationUpdated id (o.complete now) db db' := by
  obtain ⟨o, ho, hg, -, hup⟩ := updateOperation_some (f := Operation.complete now) (fun _ => rfl) h
  exact ⟨o, ho, (undisturbed_iff.mp hg).1, (undisturbed_iff.mp hg).2, hup⟩

theorem cancelOperation_some (h : cancelOperation now id db = .ok (some o', db')) :
    ∃ o, findOperation db id = some o ∧ o.status.live = true ∧ o' = o.cancel now ∧
      OperationUpdated id (o.cancel now) db db' := by
  obtain ⟨o, ho, hg, heq, hup⟩ := updateOperation_some (f := Operation.cancel now) (fun _ => rfl) h
  exact ⟨o, ho, hg, heq, hup⟩

theorem snoozeOperation_some (h : snoozeOperation id db = .ok (some o', db')) :
    ∃ o, findOperation db id = some o ∧ o.status = .running ∧ o.cancelRequestedAt = none ∧
      0 < o.attemptCount ∧ OperationUpdated id o.snooze db db' := by
  obtain ⟨o, ho, hg, -, hup⟩ := updateOperation_some (f := Operation.snooze) (fun _ => rfl) h
  obtain ⟨hg, hcount⟩ := Bool.and_eq_true_iff.mp hg
  have hg := undisturbed_iff.mp hg
  exact ⟨o, ho, hg.1, hg.2, of_decide_eq_true hcount, hup⟩

/-- Patching attempts of one operation patches its list and keeps the others. -/
theorem attemptsUpdated_patch {p f} (hf : ∀ a, (f a).operationID = a.operationID)
    (hp : ∀ a, p a = true → a.operationID = id)
    (hv : operationAttemptSchema.Valid (db.operationAttempts.rows.map (patch p f))) :
    AttemptsUpdated id ((attemptsOf db id).map (patch p f)) db (attemptsSlot.put db ⟨_, hv⟩) where
  here := filter_map_patch fun a => by simp [hf]
  others id' hne := by
    change (db.operationAttempts.rows.map (patch p f)).filter _ = _
    rw [filter_map_patch fun a => by simp [hf]]
    refine map_patch_of_none fun a ha => ?_
    have hid : a.operationID = id' := by simpa using (List.mem_filter.mp ha).2
    by_contra hpa
    exact hne (hid ▸ hp a (by simpa using hpa))
  operations := rfl

theorem operationID_of_runningAttempt {a} (h : runningAttempt id n a = true) :
    a.operationID = id := by
  simp only [runningAttempt, Bool.and_eq_true, decide_eq_true_eq] at h
  exact h.1.1

theorem mem_attemptsOf {a} :
    a ∈ attemptsOf db id ↔ a ∈ db.operationAttempts.rows ∧ a.operationID = id := by
  simp [attemptsOf]

theorem finish_ok {status a'}
    (h : finishOperationAttempt now id n status errorCode errorMessage db = .ok (some a', db')) :
    (∃ a ∈ attemptsOf db id, runningAttempt id n a = true) ∧
      AttemptsUpdated id ((attemptsOf db id).map (patch (runningAttempt id n)
        (OperationAttempt.close now status errorCode errorMessage))) db db' := by
  obtain ⟨hr, hv, rfl⟩ := Slot.updateOne_ok.mp h
  obtain ⟨a, ha, -⟩ := Option.map_eq_some_iff.mp hr.symm
  have hrun := List.find?_some ha
  exact ⟨⟨a, mem_attemptsOf.mpr ⟨List.mem_of_find?_eq_some ha, operationID_of_runningAttempt hrun⟩,
    hrun⟩, attemptsUpdated_patch (f := OperationAttempt.close now status errorCode errorMessage)
      (fun _ => rfl) (fun _ => operationID_of_runningAttempt) hv⟩

theorem create_ok {workerID : String} (h : createOperationAttempt id n workerID db = .ok (u, db')) :
    (∀ a ∈ attemptsOf db id, a.attempt ≠ n) ∧
      AttemptsUpdated id
        (attemptsOf db id ++ [{ operationID := id, attempt := n, workerID := some workerID }])
        db db' := by
  obtain ⟨hv, rfl⟩ := Slot.insert_ok.mp h
  refine ⟨fun a ha hn => ?_, ⟨?_, fun id' hne => ?_, rfl⟩⟩
  · obtain ⟨hmem, hid⟩ := mem_attemptsOf.mp ha
    have hpair := hv.2 _ operation_attempts_key
    have := (List.pairwise_append.mp hpair).2.2 a hmem _ (List.mem_singleton.mpr rfl)
    simp [hid, hn] at this
  · change (db.operationAttempts.rows ++ [_]).filter _ = _
    simp [attemptsOf]
  · change (db.operationAttempts.rows ++ [_]).filter _ = _
    simp [attemptsOf, Ne.symm hne]

theorem deleteSnoozed_ok {k : Nat} (h : deleteSnoozedOperationAttempt id n db = .ok (k, db')) :
    k = (attemptsOf db id).countP (runningAttempt id n) ∧
      AttemptsUpdated id ((attemptsOf db id).filter fun a => !runningAttempt id n a) db db' := by
  obtain ⟨hk, rfl⟩ := Slot.delete_ok.mp h
  refine ⟨?_, ⟨?_, fun id' hne => ?_, rfl⟩⟩
  · rw [hk, attemptsOf, List.countP_filter]
    refine List.countP_congr fun a _ => ?_
    simp only [Bool.and_eq_true, decide_eq_true_eq, iff_self_and]
    exact operationID_of_runningAttempt
  · exact List.filter_comm ..
  · change List.filter _ (List.filter _ _) = List.filter _ _
    rw [List.filter_comm]
    refine List.filter_eq_self.mpr fun a ha => ?_
    have hid : a.operationID = id' := by simpa using (List.mem_filter.mp ha).2
    have : ¬runningAttempt id n a = true := fun hr =>
      hne (hid.symm.trans (operationID_of_runningAttempt hr))
    simpa using this

theorem onResources_ok {α : Type} {m} {a : α} (h : onResources m db = .ok (a, db')) :
    db'.operations = db.operations ∧ db'.operationAttempts = db.operationAttempts := by
  obtain ⟨_, -, rfl⟩ := Tx.zoom_ok.mp h
  exact ⟨rfl, rfl⟩

/-! ## From statements to moves -/

/-- The attempts change, then the operation, then only the resources: together one move of
the record. -/
theorem movesAt_of_updates {db₂ : Database} {o o' : Operation} (ho : findOperation db id = some o)
    (hattempts : AttemptsUpdated id as db db₁) (hoperation : OperationUpdated id o' db₁ db₂)
    (hrest : db'.operations = db₂.operations ∧ db'.operationAttempts = db₂.operationAttempts)
    (move : Move ⟨o, attemptsOf db id⟩ ⟨o', as⟩) : MovesAt id db db' := by
  have hfind : ∀ i, findOperation db' i = findOperation db₂ i := fun i => by
    rw [findOperation, hrest.1]; rfl
  have hatt : ∀ i, attemptsOf db' i = attemptsOf db₁ i := fun i => by
    rw [attemptsOf, hrest.2, hoperation.attempts]; rfl
  have hfind₁ : ∀ i, findOperation db₁ i = findOperation db i := fun i => by
    rw [findOperation, hattempts.operations]; rfl
  refine ⟨⟨_, _, recordOf_eq ho, ?_, move⟩, fun id' hne => ?_⟩
  · rw [recordOf_eq ((hfind id).trans hoperation.here), hatt, hattempts.here]
  · rw [recordOf, hfind, hoperation.others id' hne, hfind₁, hatt, hattempts.others id' hne]
    rfl

/-- A later change outside the two tables does not undo an update of the attempts. -/
theorem AttemptsUpdated.trans (h : AttemptsUpdated id as db db₁)
    (hrest : db'.operations = db₁.operations ∧ db'.operationAttempts = db₁.operationAttempts) :
    AttemptsUpdated id as db db' := by
  have hatt : ∀ i, attemptsOf db' i = attemptsOf db₁ i := fun i => by
    rw [attemptsOf, hrest.2]; rfl
  exact ⟨(hatt id).trans h.here, fun id' hne => (hatt id').trans (h.others id' hne),
    hrest.1.trans h.operations⟩

theorem findOperation_of_attempts (h : AttemptsUpdated id as db db₁)
    (ho : findOperation db₁ id = some o) : findOperation db id = some o := by
  rw [findOperation, ← h.operations]
  exact ho

/-- An attempt is closed, then the operation settles, then only the resources change. -/
theorem endsAt_of_finish {db₂ : Database} {o o' : Operation} {status}
    (ho : findOperation db₁ id = some o)
    (running : ∃ a ∈ attemptsOf db id, runningAttempt id n a = true)
    (hattempts : AttemptsUpdated id ((attemptsOf db id).map (patch (runningAttempt id n)
      (OperationAttempt.close now status errorCode errorMessage))) db db₁)
    (hoperation : OperationUpdated id o' db₁ db₂)
    (hrest : db'.operations = db₂.operations ∧ db'.operationAttempts = db₂.operationAttempts)
    (settles : Settles o o') (ended : status ≠ .running) : EndsAt id n db db' := by
  have ho := findOperation_of_attempts hattempts ho
  have hid := id_of_findOperation ho
  have hatt : attemptsOf db' id = attemptsOf db₁ id := by
    rw [attemptsOf, hrest.2, hoperation.attempts]
    rfl
  refine ⟨movesAt_of_updates ho hattempts hoperation hrest ?_, running, ?_, ?_⟩
  · rw [← hid] at running ⊢
    exact .finish now n status errorCode errorMessage ended running settles
  · rw [hatt, hattempts.here]
    intro a ha hn
    obtain ⟨a₀, ha₀, rfl⟩ := List.mem_map.mp ha
    have hid := (mem_attemptsOf.mp ha₀).2
    cases hp : runningAttempt id n a₀ with
    | true =>
      rw [patch_of_true hp]
      exact isRunning_close ended a₀
    | false =>
      rw [patch_of_false hp] at hn ⊢
      simpa [runningAttempt, hid, hn, OperationAttempt.isRunning] using hp
  · intro o₁ ho₁
    rw [findOperation, hrest.1] at ho₁
    cases hoperation.here.symm.trans ho₁
    exact settles.not_running

theorem lockOperation_ok (h : lockOperation id db = .ok (some o, db')) :
    findOperation db id = some o ∧ db' = db := by
  simp only [lockOperation, Slot.selectOne_ok, Prod.mk.injEq] at h
  exact ⟨h.1.symm, h.2⟩

theorem requestOperationCancellation_movesAt
    (h : requestOperationCancellation now id db = .ok (some o', db')) : MovesAt id db db' := by
  obtain ⟨o, ho, hlive, hup⟩ := requestOperationCancellation_some h
  exact movesAt_of_updates ho ⟨rfl, fun _ _ => rfl, rfl⟩ hup ⟨rfl, rfl⟩
    (.requestCancellation now hlive)

theorem settles_cancel (now : Timestamp) (h : o.status.live = true) : Settles o (o.cancel now) where
  live := h
  id_eq := rfl
  count_eq := rfl
  max_eq := rfl
  not_running := nofun
  cancelRequested _ := by simp [Operation.cancel]
  succeeded := nofun

theorem startAttempt_startsAt {workerID : String}
    (h : startAttempt now id n workerID db = .ok (o', db')) :
    StartsAt id (int32 n) now o' db db' := by
  simp only [startAttempt, Tx.bind_ok, context_ok] at h
  obtain ⟨_, db₁, habandon, started?, db₂, hstart, h⟩ := h
  obtain ⟨-, hvalid, hdb₁⟩ := Slot.update_ok.mp habandon
  have habandon := hdb₁ ▸ attemptsUpdated_patch (p := runningAttempts id)
    (f := OperationAttempt.abandon now) (fun _ => rfl)
    (fun _ h => of_decide_eq_true (Bool.and_elim_left h)) hvalid
  cases started? with
  | none =>
    -- the operation cannot start: it is cancelled if that was requested
    obtain ⟨-, rfl⟩ := Slot.updateOne_none hstart
    simp only [Tx.bind_ok, context_ok, requireRow_ok] at h
    obtain ⟨locked, _, hlock, h⟩ := h
    obtain ⟨-, rfl⟩ := lockOperation_ok hlock
    split at h
    · simp only [Tx.bind_ok, context_ok, requireRow_ok] at h
      obtain ⟨cancelled, db₃, hcancel, _, db₄, hres, _, db₅, hevent, rfl, rfl⟩ := h
      obtain ⟨o, ho, hlive, rfl, hup⟩ := cancelOperation_some hcancel
      have hrest₁ := onResources_ok hres
      have hrest₂ := onResources_ok hevent
      have hrest := And.intro (hrest₂.1.trans hrest₁.1) (hrest₂.2.trans hrest₁.2)
      have ho := findOperation_of_attempts habandon ho
      have hid := id_of_findOperation ho
      refine ⟨movesAt_of_updates ho habandon hup hrest ?_, ⟨[], ?_⟩, ?_, .inl rfl⟩
      · rw [← hid]
        exact .cancelBeforeAttempt now (settles_cancel now hlive)
      · rw [List.append_nil, ← habandon.here, attemptsOf, hrest.2, hup.attempts]
        rfl
      · rw [findOperation, hrest.1]
        exact hup.here
    · cases h
  | some started =>
    simp only [Tx.bind_ok, context_ok, Tx.pure_apply, Except.ok.injEq, Prod.mk.injEq] at h
    obtain ⟨_, db₃, hcreate, _, db₄, hevent, rfl, rfl⟩ := h
    obtain ⟨o, ho, hguard, rfl, hup⟩ :=
      updateOperation_some (f := Operation.start) (fun _ => rfl) hstart
    simp only [Bool.and_eq_true, decide_eq_true_eq, Option.isNone_iff_eq_none] at hguard
    obtain ⟨⟨hlive, huncancelled⟩, hbudget⟩ := hguard
    have ho := findOperation_of_attempts habandon ho
    have hid := id_of_findOperation ho
    obtain ⟨hunused, hcreated⟩ := create_ok hcreate
    have hatt : ∀ i, attemptsOf db₂ i = attemptsOf db₁ i := fun i => by
      rw [attemptsOf, hup.attempts]; rfl
    rw [hatt, habandon.here] at hunused
    -- the new row is written after the operation, so the tables are read off one by one
    have hattempts : AttemptsUpdated id
        ((attemptsOf db id).map (patch (runningAttempts id) (OperationAttempt.abandon now)) ++
          [{ operationID := id, attempt := int32 n, workerID := some workerID }]) db
        { db₁ with operationAttempts := db₃.operationAttempts } := by
      refine ⟨?_, fun id' hne => ?_, habandon.operations⟩
      · rw [← habandon.here, ← hatt]
        exact hcreated.here
      · exact (hcreated.others id' hne).trans ((hatt id').trans (habandon.others id' hne))
    have hoperation : OperationUpdated id _ { db₁ with operationAttempts := db₃.operationAttempts }
        { db₂ with operationAttempts := db₃.operationAttempts } :=
      ⟨hup.here, hup.others, rfl⟩
    have hrest := onResources_ok hevent
    have hnew := (congrArg (fun t => t.rows.filter fun a => a.operationID = id) hrest.2).trans
      hattempts.here
    have hfound : findOperation db₄ id = some o.start := by
      rw [findOperation, hrest.1, hcreated.operations]
      exact hup.here
    refine ⟨movesAt_of_updates ho hattempts hoperation
      ⟨hrest.1.trans hcreated.operations, hrest.2⟩ ?_, ⟨_, hnew⟩, hfound, .inr ⟨?_, ?_, ?_⟩⟩
    · rw [← hid] at hunused ⊢
      refine .start now (int32 n) workerID hlive huncancelled hbudget fun a ha hn => ?_
      have hmem := List.mem_map_of_mem (f := patch (runningAttempts o.id)
        (OperationAttempt.abandon now)) ha
      have hsame := patch_field (p := runningAttempts o.id) (f := OperationAttempt.abandon now)
        (g := OperationAttempt.attempt) (fun _ => rfl) a
      exact hunused _ hmem (hsame.trans hn)
    · exact undisturbed_iff.mpr ⟨rfl, huncancelled⟩
    · exact Nat.succ_pos _
    · have hlast : attemptsOf db₄ id = _ := hnew
      rw [hlast]
      exact ⟨_, List.mem_append_right _ (List.mem_singleton.mpr rfl), by simp [runningAttempt]⟩

theorem succeedAttempt_endsAt (h : succeedAttempt now id n db = .ok (u, db')) :
    EndsAt id (int32 n) db db' := by
  simp only [succeedAttempt, Tx.bind_ok, context_ok, requireRow_ok] at h
  obtain ⟨_, db₁, hfinish, _, db₂, hcomplete, hevent⟩ := h
  obtain ⟨hrunning, hattempts⟩ := finish_ok hfinish
  obtain ⟨o, ho, hrun, huncancelled, hup⟩ := completeOperation_some hcomplete
  exact endsAt_of_finish ho hrunning hattempts hup (onResources_ok hevent)
    ⟨by rw [hrun]; rfl, rfl, rfl, rfl, by rintro ⟨⟩, fun h => h, fun _ => huncancelled⟩
      (by rintro ⟨⟩)

theorem cancelRunningAttempt_endsAt {text : String}
    (h : cancelRunningAttempt now id n text db = .ok (u, db')) : EndsAt id (int32 n) db db' := by
  simp only [cancelRunningAttempt, Tx.bind_ok, context_ok, requireRow_ok] at h
  obtain ⟨_, db₁, hfinish, _, db₂, hcancel, _, db₃, hres, hevent⟩ := h
  obtain ⟨hrunning, hattempts⟩ := finish_ok hfinish
  obtain ⟨o, ho, hlive, -, hup⟩ := cancelOperation_some hcancel
  have hrest₁ := onResources_ok hres
  have hrest₂ := onResources_ok hevent
  exact endsAt_of_finish ho hrunning hattempts hup
    ⟨hrest₂.1.trans hrest₁.1, hrest₂.2.trans hrest₁.2⟩ (settles_cancel now hlive) (by rintro ⟨⟩)

theorem cancelAttempt_endsAt (h : cancelAttempt now id n db = .ok (u, db')) :
    EndsAt id (int32 n) db db' :=
  cancelRunningAttempt_endsAt h

theorem failAttempt_endsAt {code message : String} {retryable : Bool}
    (h : failAttempt now id n code message retryable db = .ok (u, db')) :
    EndsAt id (int32 n) db db' := by
  simp only [failAttempt, Tx.bind_ok, context_ok, requireRow_ok] at h
  obtain ⟨locked, _, hlock, h⟩ := h
  have hdb := (lockOperation_ok hlock).2
  subst hdb
  split at h
  · exact cancelRunningAttempt_endsAt h
  · simp only [Tx.bind_ok, context_ok, requireRow_ok] at h
    obtain ⟨_, db₁, hfinish, h⟩ := h
    obtain ⟨hrunning, hattempts⟩ := finish_ok hfinish
    split at h
    · -- the operation is queued again
      simp only [Tx.bind_ok, context_ok, requireRow_ok] at h
      obtain ⟨_, db₂, hretry, hevent⟩ := h
      obtain ⟨o, ho, hguard, -, hup⟩ :=
        updateOperation_some (f := (Operation.retry · code message)) (fun _ => rfl) hretry
      have hrun := (undisturbed_iff.mp (Bool.and_eq_true_iff.mp hguard).1).1
      exact endsAt_of_finish ho hrunning hattempts hup (onResources_ok hevent)
        ⟨by rw [hrun]; rfl, rfl, rfl, rfl, by rintro ⟨⟩, fun h => h, by rintro ⟨⟩⟩ (by rintro ⟨⟩)
    · -- the resource fails first, which leaves both tables alone
      simp only [Tx.bind_ok, context_ok, requireRow_ok] at h
      obtain ⟨_, db₂, hres, _, db₃, hfail, hevent⟩ := h
      obtain ⟨o, ho, hlive, -, hup⟩ :=
        updateOperation_some (f := (Operation.fail now · code message)) (fun _ => rfl) hfail
      exact endsAt_of_finish ho hrunning (hattempts.trans (onResources_ok hres)) hup
        (onResources_ok hevent) ⟨hlive, rfl, rfl, rfl, by rintro ⟨⟩, fun h => h, by rintro ⟨⟩⟩
          (by rintro ⟨⟩)

theorem snoozeAttempt_endsAt (h : snoozeAttempt id n db = .ok (u, db')) :
    EndsAt id (int32 n) db db' := by
  simp only [snoozeAttempt, Tx.bind_ok, context_ok] at h
  obtain ⟨deleted, db₁, hdelete, h⟩ := h
  obtain ⟨hcount, hattempts⟩ := deleteSnoozed_ok hdelete
  split at h
  · simp at h
  · next hdeleted =>
    simp only [Tx.bind_ok, context_ok, requireRow_ok] at h
    obtain ⟨_, db₂, hsnooze, -, rfl⟩ := h
    obtain ⟨o, ho, hrun, huncancelled, hpos, hup⟩ := snoozeOperation_some hsnooze
    have ho := findOperation_of_attempts hattempts ho
    have hid := id_of_findOperation ho
    have hone : (attemptsOf db id).countP (runningAttempt id (int32 n)) = 1 := by omega
    refine ⟨movesAt_of_updates ho hattempts hup ⟨rfl, rfl⟩ ?_, ?_, ?_, ?_⟩
    · rw [← hid] at hone ⊢
      exact .snooze (int32 n) hrun huncancelled hpos hone
    · exact List.countP_pos_iff.mp (by omega)
    · intro a ha hn
      rw [attemptsOf, hup.attempts, ← attemptsOf, hattempts.here] at ha
      obtain ⟨hmem, hgone⟩ := List.mem_filter.mp ha
      simpa [runningAttempt, (mem_attemptsOf.mp hmem).2, hn, OperationAttempt.isRunning] using hgone
    · intro o₁ ho₁
      cases hup.here.symm.trans ho₁
      rintro ⟨⟩

end EmbyAuto
