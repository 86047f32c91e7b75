import EmbyAuto.Task.Statements

/-!
# The state machine of an episode task

The moves that a task's row can make, apart from the tables around it. A move is one
statement, with one exception: the statement that marks a branch ready is followed, in the same
transaction, by the one that joins the branches.

Two kinds of moves depend on the operations of the task. An operation that was asked to cancel
may stop its branch, and a stopped task is resumed only when no such operation is left.

## Main definitions

* `EpisodeTask.WellFormed`: how the three status columns fit together
* `TaskMove`: one move of a task, on an occasion

## Main results

* `TaskMove.sound`: moves keep the columns of a task together
* `TaskMove.explained`: a failed task keeps its error unless a worker restarts it
-/

namespace EmbyAuto

namespace EpisodeTask

/-! ## Well-formed tasks -/

/-- The states after the media branches. -/
def afterMedia (t : EpisodeTask) : Bool :=
  match t.state with
  | .finalizing | .awaitingReview | .approved | .rejected | .importQueued | .importing
  | .imported => true
  | .mediaQueued | .processing | .failed | .cancelled => false

/-- How the status columns of a task fit together. -/
structure WellFormed (t : EpisodeTask) : Prop where
  ready : t.afterMedia = true → t.bothReady = true
  /-- no finalisation is lost -/
  joined : t.state = .processing → t.bothReady = false
  uncancelled : t.mediaStartable = true → t.videoState ≠ .cancelled ∧ t.subtitleState ≠ .cancelled
  inactive : t.state = .cancelled → t.videoActive = false ∧ t.subtitleActive = false
  importStage : t.failureStage = some .import → t.bothReady = true
  staged : t.failureStage.isSome = true ↔ t.state = .failed

/-- The task is over for the operations that work on its media. -/
def stopped (t : EpisodeTask) : Bool := t.state = .cancelled || t.state = .imported

/-- A failed task says why. -/
def Explained (t : EpisodeTask) : Prop := t.state = .failed → t.errorCode.isSome = true

attribute [grind] afterMedia bothReady mediaStartable videoActive subtitleActive startedState
  clearError clearFailure cancel fail stopped Explained

attribute [grind cases] WellFormed

attribute [grind intro] WellFormed

/-- The row of a task that was just created. -/
structure Fresh (t : EpisodeTask) : Prop where
  state : t.state = .mediaQueued
  videoState : t.videoState = .transcodeQueued
  subtitleState : t.subtitleState = .subtitleQueued
  failureStage : t.failureStage = none

theorem Fresh.wellFormed {t : EpisodeTask} (h : t.Fresh) : t.WellFormed := by
  obtain ⟨hstate, hvideo, hsubtitle, hstage⟩ := h
  grind

theorem Fresh.explained {t : EpisodeTask} (h : t.Fresh) : t.Explained := by
  intro hfailed
  rw [h.state] at hfailed
  cases hfailed

/-! ## Moves -/

/-- The join of the branches, which follows every branch that becomes ready. -/
def join (t : EpisodeTask) : EpisodeTask :=
  if markFinalizingIfReady.guard t then markFinalizingIfReady.set t else t

namespace Statement

/-- A worker begins a branch. -/
inductive Begins : Statement → Prop where
  | video : Begins startVideo
  | subtitle : Begins startSubtitle

/-- A worker reports the artifact of a branch. -/
inductive Readies : Statement → Prop where
  | video : Readies markVideoReady
  | subtitle : Readies markSubtitleReady

/-- The task goes on after its media. -/
inductive Advances : Statement → Prop where
  | awaitingReview : Advances markAwaitingReview
  | reviewed (decision version hasSet) : Advances (markReviewed decision version hasSet)
  | importQueued (version hasReview hasSet) : Advances (markImportQueued version hasReview hasSet)
  | importing : Advances startImport
  | imported : Advances markImported
  | cleanup (version hasCleanup) : Advances (markCleanupRetryRequested version hasCleanup)

/-- The whole task is cancelled. -/
inductive Cancels : Statement → Prop where
  | command (version) : Cancels (cancelIfActive version)
  | deletion : Cancels cancelForDeletion

/-- A retry resumes the task. -/
inductive Resumes : Statement → Prop where
  | media (version) : Resumes (requeueFailedMediaBranches version)
  | finalize : Resumes requeueFinalizeBranch
  | import (hasImport) : Resumes (requeueImportBranch hasImport)
  | cancelled (next version hasImport) : Resumes (requeueCancelledAfterMedia next version hasImport)

end Statement

end EpisodeTask

/-- What is going on around a task when a transaction moves it. -/
structure Occasion where
  /-- an operation on the task was asked to cancel and is not over -/
  stopping : Prop
  /-- a worker begins a branch of the task although the task has failed -/
  restarting : Prop

/-- A well-formed task that an operation asked to cancel finds stopped. -/
structure EpisodeTask.Sound (t : EpisodeTask) (c : Occasion) : Prop where
  wellFormed : t.WellFormed
  settled : c.stopping → t.stopped = true

attribute [grind intro] EpisodeTask.Sound

open EpisodeTask

/-- One move of a task. -/
inductive TaskMove (c : Occasion) : EpisodeTask → EpisodeTask → Prop where
  | begin {t} {st : Statement} (kind : st.Begins) (guard : st.guard t = true)
      (failed : t.state = .failed → c.restarting) : TaskMove c t (st.set t)
  | ready {t} {st : Statement} (kind : st.Readies) (guard : st.guard t = true) :
      TaskMove c t (st.set t).join
  | advance {t} {st : Statement} (kind : st.Advances) (guard : st.guard t = true) :
      TaskMove c t (st.set t)
  | fail {t} {st : Statement} (kind : st.Fails) (guard : st.guard t = true) :
      TaskMove c t (st.set t)
  | stop {t} {st : Statement} (kind : st.Stops) (guard : st.guard t = true)
      (stopping : c.stopping) : TaskMove c t (st.set t)
  | cancel {t} {st : Statement} (kind : st.Cancels) (guard : st.guard t = true) :
      TaskMove c t (st.set t)
  | resume {t} {st : Statement} (kind : st.Resumes) (guard : st.guard t = true)
      (idle : ¬ c.stopping) : TaskMove c t (st.set t)

namespace TaskMove

variable {c : Occasion} {t t' : EpisodeTask}

theorem id_eq (move : TaskMove c t t') : t'.id = t.id := by
  cases move with
  | begin kind => cases kind <;> rfl
  | ready kind => cases kind <;> (unfold join; split <;> rfl)
  | advance kind => cases kind <;> rfl
  | fail kind => cases kind <;> rfl
  | stop kind => cases kind <;> rfl
  | cancel kind => cases kind <;> rfl
  | resume kind => cases kind <;> rfl

attribute [grind] startVideo startSubtitle markVideoReady markSubtitleReady markFinalizingIfReady
  markAwaitingReview markReviewed markImportQueued startImport markImported
  markCleanupRetryRequested markVideoTerminalFailure markSubtitleTerminalFailure
  markFinalizeTerminalFailure markImportTerminalFailure markVideoCancelled markSubtitleCancelled
  markFinalizeCancelled cancelTaskImport cancelIfActive cancelForDeletion
  requeueFailedMediaBranches requeueFinalizeBranch requeueImportBranch requeueCancelledAfterMedia
  ReviewDecision.state ResumeState.state

/-- **Moves keep tasks sound.** -/
theorem sound (move : TaskMove c t t') (h : t.Sound c) : t'.Sound c := by
  obtain ⟨h, hsettled⟩ := h
  cases move with
  | begin kind guard => cases kind <;> grind
  | ready kind guard =>
    -- the branch that finishes last joins the branches
    unfold join
    cases kind <;> split <;> grind
  | advance kind guard =>
    cases kind with
    | reviewed decision => cases decision <;> grind
    | _ => grind
  | fail kind guard => cases kind <;> grind
  | stop kind guard stopping =>
    -- the task is stopped already, so no branch is left to stop
    cases kind <;> grind
  | cancel kind guard => cases kind <;> grind
  | resume kind guard idle =>
    cases kind with
    | cancelled next => cases next <;> grind
    | _ => grind

/-- **A failed task keeps its error** unless a worker begins one of its branches. -/
theorem explained (move : TaskMove c t t') (quiet : ¬ c.restarting) (h : t.Explained) :
    t'.Explained := by
  cases move with
  | begin kind guard failed => cases kind <;> grind
  | ready kind guard =>
    unfold join
    cases kind <;> split <;> grind
  | advance kind guard =>
    cases kind with
    | reviewed decision => cases decision <;> grind
    | _ => grind
  | fail kind guard => cases kind <;> grind
  | stop kind guard => cases kind <;> grind
  | cancel kind guard => cases kind <;> grind
  | resume kind guard =>
    cases kind with
    | cancelled next => cases next <;> grind
    | _ => grind

end TaskMove

end EmbyAuto
