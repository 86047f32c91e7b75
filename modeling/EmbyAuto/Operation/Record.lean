import EmbyAuto.Operation.Lifecycle

/-!
# One operation and its attempts

The part of the database that the lifecycle of one operation is about: its row and the
rows of its attempts. A lifecycle transaction makes one `Move` of this record, whatever
worker calls it; the moves are what the safety of the lifecycle rests on.

## Main definitions

* `OperationRecord`: an operation with its attempts
* `Move`: what one committed lifecycle transaction can do to a record
* `OperationRecord.Coherent`: the attempts agree with the operation's status and count

## Main results

* `Move.coherent`: every move keeps a record coherent
* `Move.live`: only queued and running operations move
* `Move.finished_mem`: a finished attempt is never touched again
* `Move.cancelRequested`: a cancellation request is never withdrawn
-/

namespace EmbyAuto

open Relational

/-- An operation with its attempts, oldest first. -/
structure OperationRecord where
  operation : Operation
  attempts : List OperationAttempt

def OperationAttempt.isRunning (a : OperationAttempt) : Bool := a.status = .running

/-- How an operation can change when one of its attempts ends: it stops running, keeps its
identity and its count, and succeeds only without a cancellation request. -/
structure Settles (o o' : Operation) : Prop where
  live : o.status.live = true
  id_eq : o'.id = o.id
  count_eq : o'.attemptCount = o.attemptCount
  max_eq : o'.maxAttempts = o.maxAttempts
  not_running : o'.status ≠ .running
  cancelRequested : o.cancelRequestedAt.isSome → o'.cancelRequestedAt.isSome
  succeeded : o'.status = .succeeded → o'.cancelRequestedAt = none

/-- What one committed lifecycle transaction does to the record of its operation. -/
inductive Move : OperationRecord → OperationRecord → Prop where
  /-- A new attempt starts after every running attempt was abandoned. -/
  | start {o as} (now : Timestamp) (n : Int) (workerID : String) (live : o.status.live = true)
      (uncancelled : o.cancelRequestedAt = none) (budget : o.attemptCount < o.maxAttempts)
      (unused : ∀ a ∈ as, a.attempt ≠ n) :
      Move ⟨o, as⟩
        ⟨o.start, as.map (patch (runningAttempts o.id) (OperationAttempt.abandon now)) ++
          [{ operationID := o.id, attempt := n, workerID := some workerID }]⟩
  /-- An operation is cancelled instead of starting another attempt. -/
  | cancelBeforeAttempt {o o' as} (now : Timestamp) (settles : Settles o o') :
      Move ⟨o, as⟩ ⟨o', as.map (patch (runningAttempts o.id) (OperationAttempt.abandon now))⟩
  /-- A running attempt ends, and the operation succeeds, fails, is cancelled or is queued again. -/
  | finish {o o' as} (now : Timestamp) (n : Int) (status : AttemptStatus)
      (errorCode errorMessage : Option String) (ended : status ≠ .running)
      (running : ∃ a ∈ as, runningAttempt o.id n a = true) (settles : Settles o o') :
      Move ⟨o, as⟩
        ⟨o', as.map (patch (runningAttempt o.id n)
          (OperationAttempt.close now status errorCode errorMessage))⟩
  /-- A running attempt is given back: its row goes and the count goes down. -/
  | snooze {o as} (n : Int) (running : o.status = .running)
      (uncancelled : o.cancelRequestedAt = none) (counted : 0 < o.attemptCount)
      (one : as.countP (runningAttempt o.id n) = 1) :
      Move ⟨o, as⟩
        ⟨o.snooze, as.filter fun a => !runningAttempt o.id n a⟩
  /-- Cancellation is requested. -/
  | requestCancellation {o as} (now : Timestamp) (live : o.status.live = true) :
      Move ⟨o, as⟩ ⟨o.requestCancellation now, as⟩

/-- The attempts agree with the operation: one is running exactly when the operation is,
there are as many as are counted, and their numbers differ. -/
structure OperationRecord.Coherent (r : OperationRecord) : Prop where
  owned : ∀ a ∈ r.attempts, a.operationID = r.operation.id
  running : r.attempts.countP OperationAttempt.isRunning =
    if r.operation.status = .running then 1 else 0
  counted : r.attempts.length = r.operation.attemptCount
  distinct : (r.attempts.map OperationAttempt.attempt).Nodup
  uncancelled : r.operation.status = .succeeded → r.operation.cancelRequestedAt = none

/-! ## Ending attempts -/

variable {f : OperationAttempt → OperationAttempt} {r r' : OperationRecord}
  {p : OperationAttempt → Bool}

section

variable {id : UUID} {n : Int} {now : Timestamp} {status : AttemptStatus}
  {errorCode errorMessage : Option String} {p : OperationAttempt → Bool}
  {as : List OperationAttempt}

theorem isRunning_close (hs : status ≠ .running) (a : OperationAttempt) :
    (a.close now status errorCode errorMessage).isRunning = false :=
  decide_eq_false hs

theorem isRunning_abandon (a : OperationAttempt) : (a.abandon now).isRunning = false :=
  isRunning_close (by decide) a

theorem runningAttempts_eq {a} (ha : a.operationID = id) : runningAttempts id a = a.isRunning := by
  simp [runningAttempts, OperationAttempt.isRunning, ha]

theorem isRunning_of_runningAttempt {a} (h : runningAttempt id n a = true) :
    a.isRunning = true := by
  simp only [runningAttempt, Bool.and_eq_true] at h
  exact h.2

/-- Closing the attempts that match `p` leaves running those that do not. -/
theorem countP_isRunning_patch (hf : ∀ a, (f a).isRunning = false) (as : List OperationAttempt) :
    (as.map (patch p f)).countP OperationAttempt.isRunning =
      as.countP fun a => a.isRunning && !p a := by
  rw [List.countP_map]
  congr 1
  funext a
  cases h : p a with
  | true => simp [patch, h, hf]
  | false => simp [patch, h]

/-- The matching running attempts and the others make up the running attempts. -/
theorem countP_isRunning_add (as : List OperationAttempt)
    (hp : ∀ a, p a = true → a.isRunning = true) :
    as.countP p + as.countP (fun a => a.isRunning && !p a) =
      as.countP OperationAttempt.isRunning := by
  induction as with
  | nil => rfl
  | cons a as ih =>
    simp only [List.countP_cons]
    cases hpa : p a with
    | true => simp [hp a hpa]; omega
    | false => cases a.isRunning <;> simp <;> omega

theorem countP_abandon (now : Timestamp) (hown : ∀ a ∈ as, a.operationID = id) :
    (as.map (patch (runningAttempts id) (OperationAttempt.abandon now))).countP
      OperationAttempt.isRunning = 0 := by
  rw [countP_isRunning_patch isRunning_abandon, List.countP_eq_zero]
  intro a ha
  simp [runningAttempts_eq (hown a ha)]

end

/-! ## Moves keep records coherent -/

theorem operationID_patch (hf : ∀ a, (f a).operationID = a.operationID) {id : UUID}
    {as : List OperationAttempt} (hown : ∀ a ∈ as, a.operationID = id) :
    ∀ a ∈ as.map (patch p f), a.operationID = id := by
  intro a ha
  obtain ⟨a₀, ha₀, rfl⟩ := List.mem_map.mp ha
  rw [patch_field hf]
  exact hown a₀ ha₀

theorem attempt_patch (hf : ∀ a, (f a).attempt = a.attempt) (as : List OperationAttempt) :
    (as.map (patch p f)).map OperationAttempt.attempt = as.map OperationAttempt.attempt := by
  rw [List.map_map]
  exact List.map_congr_left fun a _ => patch_field hf a

/-- An operation that settles is no longer running, so its record is coherent once the
remaining running attempts are closed. -/
theorem OperationRecord.Coherent.settle {o o' : Operation} {as}
    (h : Coherent ⟨o, as⟩) (settles : Settles o o') (hid : ∀ a, (f a).operationID = a.operationID)
    (hatt : ∀ a, (f a).attempt = a.attempt)
    (hnone : (as.map (patch p f)).countP OperationAttempt.isRunning = 0) :
    Coherent ⟨o', as.map (patch p f)⟩ where
  owned := by
    rw [settles.id_eq]
    exact operationID_patch hid h.owned
  running := by rw [hnone, if_neg settles.not_running]
  counted := by
    rw [List.length_map, settles.count_eq]
    exact h.counted
  distinct := by
    rw [attempt_patch hatt]
    exact h.distinct
  uncancelled := settles.succeeded

/-- **Every move keeps a record coherent.** -/
theorem Move.coherent (move : Move r r') (h : r.Coherent) : r'.Coherent := by
  cases move with
  | @start o as now n workerID live uncancelled budget unused =>
    have hclosed := countP_abandon now h.owned
    refine ⟨?_, ?_, ?_, ?_, fun hs => by cases hs⟩
    · intro a ha
      rcases List.mem_append.mp ha with ha | ha
      · exact operationID_patch (f := OperationAttempt.abandon now) (fun _ => rfl) h.owned a ha
      · rw [List.mem_singleton.mp ha]
        rfl
    · rw [List.countP_append, hclosed]
      rfl
    · simp only [List.length_append, List.length_map]
      rw [h.counted]
      rfl
    · rw [List.map_append, attempt_patch (f := OperationAttempt.abandon now) fun _ => rfl,
        List.nodup_append]
      refine ⟨h.distinct, List.nodup_singleton _, ?_⟩
      intro m hm m' hm' heq
      obtain ⟨a, ha, rfl⟩ := List.mem_map.mp hm
      rw [List.map_singleton, List.mem_singleton] at hm'
      exact unused a ha (heq.trans hm')
  | cancelBeforeAttempt now settles =>
    exact h.settle settles (fun _ => rfl) (fun _ => rfl) (countP_abandon now h.owned)
  | @finish o o' as now n status errorCode errorMessage ended running settles =>
    refine h.settle settles (fun _ => rfl) (fun _ => rfl) ?_
    -- the ended attempt was the only running one
    rw [countP_isRunning_patch (isRunning_close ended)]
    have hadd := countP_isRunning_add as fun a (ha : runningAttempt o.id n a = true) =>
      isRunning_of_runningAttempt ha
    have hpos : 0 < as.countP (runningAttempt o.id n) := List.countP_pos_iff.mpr running
    have hone : as.countP OperationAttempt.isRunning ≤ 1 := by
      rw [h.running]
      split <;> omega
    omega
  | @snooze o as n running uncancelled counted one =>
    have hadd := countP_isRunning_add as fun a (ha : runningAttempt o.id n a = true) =>
      isRunning_of_runningAttempt ha
    have hrun : as.countP OperationAttempt.isRunning = 1 := by rw [h.running, if_pos running]
    refine ⟨fun a ha => h.owned a (List.mem_of_mem_filter ha), ?_, ?_, ?_, fun hs => by cases hs⟩
    · rw [List.countP_filter]
      change _ = 0
      omega
    · have hlen := List.length_eq_countP_add_countP (runningAttempt o.id n) (l := as)
      rw [h.counted] at hlen
      rw [← List.countP_eq_length_filter]
      change as.countP (fun a => !runningAttempt o.id n a) = o.attemptCount - 1
      simp only [Bool.not_eq_true] at hlen
      have hnot : (fun a => decide (runningAttempt o.id n a = false)) =
          fun a => !runningAttempt o.id n a := by
        funext a
        cases runningAttempt o.id n a <;> rfl
      rw [hnot] at hlen
      omega
    · exact h.distinct.sublist (List.filter_sublist.map _)
  | @requestCancellation o as now live =>
    refine ⟨h.owned, h.running, h.counted, h.distinct, fun hs => ?_⟩
    have hs : o.status = .succeeded := hs
    rw [hs] at live
    cases live

/-! ## What a move cannot do -/

/-- Only a queued or running operation moves. -/
theorem Move.live (move : Move r r') : r.operation.status.live = true := by
  cases move with
  | start _ _ _ live => exact live
  | cancelBeforeAttempt _ settles => exact settles.live
  | finish _ _ _ _ _ _ _ settles => exact settles.live
  | snooze _ running => rw [running]; rfl
  | requestCancellation _ live => exact live

/-- A cancellation request is never withdrawn. -/
theorem Move.cancelRequested (move : Move r r') (h : r.operation.cancelRequestedAt.isSome) :
    r'.operation.cancelRequestedAt.isSome := by
  cases move with
  | start _ _ _ _ uncancelled => rw [uncancelled] at h; cases h
  | cancelBeforeAttempt _ settles => exact settles.cancelRequested h
  | finish _ _ _ _ _ _ _ settles => exact settles.cancelRequested h
  | snooze _ _ uncancelled => rw [uncancelled] at h; cases h
  | requestCancellation => simp [Operation.requestCancellation]

theorem mem_map_patch_of_false {α : Type} {p : α → Bool} {f : α → α} {rows : List α} {a : α}
    (ha : a ∈ rows) (hp : p a = false) : a ∈ rows.map (patch p f) :=
  List.mem_map.mpr ⟨a, ha, patch_of_false hp⟩

/-- **A finished attempt is never touched again.** -/
theorem Move.finished_mem (move : Move r r') {a} (ha : a ∈ r.attempts)
    (hfin : a.isRunning = false) : a ∈ r'.attempts := by
  have hstatus : decide (a.status = .running) = false := hfin
  cases move with
  | start =>
    refine List.mem_append_left _ (mem_map_patch_of_false ha ?_)
    simp [runningAttempts, hstatus]
  | cancelBeforeAttempt => exact mem_map_patch_of_false ha (by simp [runningAttempts, hstatus])
  | finish => exact mem_map_patch_of_false ha (by simp [runningAttempt, hstatus])
  | snooze => exact List.mem_filter.mpr ⟨ha, by simp [runningAttempt, hstatus]⟩
  | requestCancellation => exact ha

end EmbyAuto
