import Mathlib

/-!
# Transactions

A transaction reads and writes a state and either returns a value together with the
new state or stops with an error. `WithinTx` style code runs such a computation and
commits it as a whole: an error leaves the state as it was.

## Main definitions

* `Tx`: computations that thread a state and may fail
* `Tx.commit`: the state after running a transaction, with rollback on failure
* `Tx.mapError`: the same computation with its errors rewritten
* `Tx.zoom`: a computation on a part of the state
* `Tx.Succeeds`: the computation does not fail

## Main results

* `Tx.bind_ok`: a sequence succeeds exactly when its parts do
* `Tx.commit_cases`: a committed transaction succeeded or changed nothing
* `invariant_of_step`: what every step preserves, every run preserves
-/

namespace Relational

variable {ε σ α β : Type}

/-- A computation over a state `σ` that may stop with an error of type `ε`. -/
abbrev Tx (ε σ α : Type) := StateT σ (Except ε) α

namespace Tx

/-- Rewrites the error of a computation and keeps its successes. -/
def mapError (g : ε → ε) (m : Tx ε σ α) : Tx ε σ α := fun s =>
  match m s with
  | .ok r => .ok r
  | .error e => .error (g e)

/-- A computation on a part of the state, run on the whole state. -/
def zoom {τ : Type} (get : σ → τ) (put : σ → τ → σ) (m : Tx ε τ α) : Tx ε σ α := fun s =>
  match m (get s) with
  | .ok r => .ok (r.1, put s r.2)
  | .error e => .error e

/-- The state after running `m` as one transaction: the new state if `m` succeeds, the
old one if it fails. -/
def commit (m : Tx ε σ α) (s : σ) : σ :=
  match m s with
  | .ok r => r.2
  | .error _ => s

/-- The value `m` returns when it succeeds. -/
def result? (m : Tx ε σ α) (s : σ) : Option α :=
  match m s with
  | .ok r => some r.1
  | .error _ => none

/-! ## Inversion of successful runs -/

variable {m : Tx ε σ α} {f : α → Tx ε σ β} {s : σ}

@[simp] theorem bind_ok {r : β × σ} :
    (m >>= f) s = .ok r ↔ ∃ a s₁, m s = .ok (a, s₁) ∧ f a s₁ = .ok r := by
  change (m s).bind (fun p => f p.1 p.2) = .ok r ↔ _
  cases m s with
  | error e => simp [Except.bind]
  | ok p =>
    constructor
    · intro h
      exact ⟨p.1, p.2, rfl, h⟩
    · rintro ⟨a, s₁, h, hf⟩
      cases h
      exact hf

theorem bind_of_ok {s s₁ : σ} {a : α} (h : m s = .ok (a, s₁)) : (m >>= f) s = f a s₁ := by
  change (m s).bind (fun p => f p.1 p.2) = _
  rw [h]
  rfl

theorem bind_of_error {e : ε} (h : m s = .error e) : (m >>= f) s = .error e := by
  change (m s).bind (fun p => f p.1 p.2) = _
  rw [h]
  rfl

@[simp] theorem pure_apply (a : α) (s : σ) : (pure a : Tx ε σ α) s = .ok (a, s) := rfl

@[simp] theorem throw_apply (e : ε) (s : σ) : (throw e : Tx ε σ α) s = .error e := rfl

@[simp] theorem get_apply (s : σ) : (get : Tx ε σ σ) s = .ok (s, s) := rfl

@[simp] theorem mapError_ok {g : ε → ε} {r : α × σ} : mapError g m s = .ok r ↔ m s = .ok r := by
  unfold mapError
  cases m s <;> simp

theorem zoom_ok {τ : Type} {get : σ → τ} {put : σ → τ → σ} {m : Tx ε τ α} {s s' : σ} {a : α} :
    zoom get put m s = .ok (a, s') ↔ ∃ t, m (get s) = .ok (a, t) ∧ s' = put s t := by
  unfold zoom
  cases m (get s) with
  | error e => simp
  | ok r =>
    simp only [Except.ok.injEq, Prod.mk.injEq]
    constructor
    · rintro ⟨rfl, rfl⟩
      exact ⟨r.2, rfl, rfl⟩
    · rintro ⟨t, rfl, rfl⟩
      exact ⟨rfl, rfl⟩

/-! ## Successful runs -/

/-- The computation does not fail. -/
def Succeeds (m : Tx ε σ α) (s : σ) : Prop := ∃ r, m s = .ok r

theorem Succeeds.pure (a : α) (s : σ) : Succeeds (pure a : Tx ε σ α) s := ⟨(a, s), rfl⟩

theorem Succeeds.bind (hm : Succeeds m s) (hf : ∀ a s₁, m s = .ok (a, s₁) → Succeeds (f a) s₁) :
    Succeeds (m >>= f) s := by
  obtain ⟨⟨a, s₁⟩, h⟩ := hm
  obtain ⟨r, hr⟩ := hf a s₁ h
  exact ⟨r, by rw [bind_of_ok h, hr]⟩

theorem Succeeds.zoom {τ : Type} {get : σ → τ} {put : σ → τ → σ} {m : Tx ε τ α}
    (h : Succeeds m (get s)) : Succeeds (zoom get put m) s := by
  obtain ⟨⟨a, t⟩, hr⟩ := h
  exact ⟨(a, put s t), zoom_ok.mpr ⟨t, hr, rfl⟩⟩

/-! ## Committing -/

theorem commit_of_ok {r : α × σ} (h : m s = .ok r) : commit m s = r.2 := by
  simp [commit, h]

theorem ok_of_result? {a : α} (h : m.result? s = some a) : m s = .ok (a, m.commit s) := by
  unfold result? commit at *
  cases hm : m s with
  | ok r =>
    simp only [hm, Option.some.injEq] at h ⊢
    rw [← h]
  | error e =>
    simp only [hm] at h
    cases h

theorem commit_of_error {e : ε} (h : m s = .error e) : commit m s = s := by
  simp [commit, h]

/-- A committed transaction either succeeded, and its state is the new one, or left the
state unchanged. -/
theorem commit_cases (m : Tx ε σ α) (s : σ) :
    (∃ a, m s = .ok (a, commit m s)) ∨ commit m s = s := by
  cases h : m s with
  | error e => exact .inr (commit_of_error h)
  | ok r => exact .inl ⟨r.1, by rw [commit_of_ok h]⟩

/-- What every success of `m` establishes from a state that satisfies it, committing
`m` establishes too. -/
theorem commit_preserves {I : σ → Prop} (hs : I s) (hm : ∀ a s', m s = .ok (a, s') → I s') :
    I (commit m s) := by
  rcases commit_cases m s with ⟨a, h⟩ | h
  · exact hm a _ h
  · rw [h]
    exact hs

end Tx

/-- What every step preserves, every finite run preserves. -/
theorem invariant_of_step {step : σ → σ → Prop} {I : σ → Prop}
    (hstep : ∀ s s', step s s' → I s → I s') {s s' : σ}
    (run : Relation.ReflTransGen step s s') (hs : I s) : I s' := by
  induction run with
  | refl => exact hs
  | tail _ h ih => exact hstep _ _ h ih

end Relational
